import DocComponents.Text.Scan

/-!
# Terminal sequences

A terminal takes some characters as orders, to change a colour or to move its cursor. Such a
sequence is an escape character and a bracket, then parameters, then one letter. What is printed for
a reader that may be no terminal goes without them.
-/

set_option autoImplicit false

namespace DocComponents.Text

def isParameter (char : Char) : Bool :=
  char.isDigit || char == ';' || char == '?'

def terminalSequence? : Text → Option (Unit × Nat)
  | '\x1B' :: '[' :: rest =>
    let count := (rest.takeWhile isParameter).length
    match rest.drop count with
    | letter :: _ => if letter.isAlpha then some ((), count + 3) else none
    | [] => none
  | _ => none

/-- The text without terminal sequences. What is left is not looked at again. -/
def withoutSequences (text : Text) : Text :=
  replaceHits (fun _ => []) (scan terminalSequence? text)

/-- The characters that ring the bell of a terminal or move its cursor. -/
def isSignal (char : Char) : Bool :=
  char == '\x07' || char == '\x08' || char == '\x0B' || char == '\x0C' || char == '\r'

/-- The text from a column on, with every tab filled up with blanks to the next column whose number
is a multiple of eight. -/
def fillTabs : (column : Nat) → Text → Text
  | _, [] => []
  | column, char :: rest =>
    if char = '\t' then
      let width := 8 - column % 8
      List.replicate width ' ' ++ fillTabs (column + width) rest
    else char :: fillTabs (column + 1) rest

/-- The text as it stands in a cell of a table, where nothing may move the cursor. -/
def inCell (text : Text) : Text :=
  fillTabs 0 (text.filter fun char => !isSignal char)

end DocComponents.Text
