import DocComponents.Text.Basic

/-!
# Lines

A text is cut into lines after each line boundary. A carriage return with the line feed behind it
is one boundary; every other boundary is a single character.
-/

set_option autoImplicit false

namespace DocComponents.Text

/-- The characters that end a line: line feed, vertical tab, form feed, carriage return, the file,
group and record separators, next line, and the line and paragraph separators. -/
def isLineBreak (char : Char) : Bool :=
  withinRanges [(0x0A, 0x0D), (0x1C, 0x1E), (0x85, 0x85), (0x2028, 0x2029)] char.toNat

def consLine (char : Char) : List Text → List Text
  | [] => [[char]]
  | line :: lines => (char :: line) :: lines

/-- The lines of a text, each with its boundary. -/
def fullLines : Text → List Text
  | [] => []
  | '\r' :: '\n' :: rest => ['\r', '\n'] :: fullLines rest
  | char :: rest =>
    if isLineBreak char then [char] :: fullLines rest else consLine char (fullLines rest)

def lineBody (line : Text) : Text :=
  line.takeWhile fun char => !isLineBreak char

def lines (text : Text) : List Text :=
  (fullLines text).map lineBody

/-- Carriage returns, alone or before a line feed, read as line feeds. -/
def universalNewlines : Text → Text
  | [] => []
  | '\r' :: '\n' :: rest => '\n' :: universalNewlines rest
  | char :: rest => (if char = '\r' then '\n' else char) :: universalNewlines rest

end DocComponents.Text
