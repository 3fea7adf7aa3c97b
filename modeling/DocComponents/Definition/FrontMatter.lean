import DocComponents.Identifier
import DocComponents.Props
import DocComponents.Text.Lines

/-!
# Front matter

A component document opens with a line of three hyphens; the lines down to the next such line are
its front matter and what follows is its body. The front matter is read line by line: a scalar is
the text after `key:`, a map is a run of indented `key: value` lines below its header.
-/

set_option autoImplicit false

namespace DocComponents.FrontMatter

def afterOptionalReturn : Text → Text
  | '\r' :: rest => rest
  | text => text

/-- What follows a line of three hyphens, trailing blanks included, at the beginning of a text. The
line feed that ends the line still belongs to the rest. -/
def afterRule? (text : Text) : Option Text :=
  match Text.afterLead? ['-', '-', '-'] text with
  | none => none
  | some rest => some (afterOptionalReturn (rest.dropWhile Text.isSpaceOrTab))

/-- What follows an opening line, its line feed included. -/
def afterOpening? (text : Text) : Option Text :=
  match afterRule? text with
  | some ('\n' :: rest) => some rest
  | _ => none

/-- What follows a closing line, from its line feed on. A closing line may end the text. -/
def afterClosing? (text : Text) : Option Text :=
  match afterRule? text with
  | some [] => some []
  | some ('\n' :: rest) => some ('\n' :: rest)
  | _ => none

/-- The text before the first closing line and the text behind it. The flag tells whether a line
begins here. -/
def splitAtClosing? : (lineStart : Bool) → Text → Option (Text × Text)
  | _, [] => none
  | lineStart, char :: rest =>
    match if lineStart then afterClosing? (char :: rest) else none with
    | some body => some ([], body)
    | none =>
      match splitAtClosing? (char == '\n') rest with
      | some (front, body) => some (char :: front, body)
      | none => none

/-- The front matter and the trimmed body of a document. Byte order marks and blanks may stand
before the opening line. -/
def split? (content : Text) : Option (Text × Text) :=
  match afterOpening? ((content.dropWhile (· == '\uFEFF')).dropWhile Text.isBlank) with
  | none => none
  | some rest =>
    match splitAtClosing? true rest with
    | some (front, body) => some (front, Text.trim body)
    | none => none

def stripQuotes (text : Text) : Text :=
  match text with
  | first :: second :: rest =>
    if (first = '"' || first = '\'') && (second :: rest).getLast? = some first then
      (second :: rest).dropLast
    else text
  | _ => text

/-- The value on a line that begins with `key:` and goes on with something other than blanks. -/
def scalarHere? (key text : Text) : Option Text :=
  match Text.afterLead? (key ++ [':']) text with
  | none => none
  | some rest =>
    match rest.dropWhile Text.isSpaceOrTab with
    | [] => none
    | char :: tail =>
      if Text.isBlank char then none
      else some (stripQuotes (Text.trim (char :: tail.takeWhile (· != '\n'))))

/-- The value of the first line that gives `key` one. The flag tells whether a line begins here. -/
def scalarFrom? (key : Text) : (lineStart : Bool) → Text → Option Text
  | _, [] => none
  | lineStart, char :: rest =>
    match if lineStart then scalarHere? key (char :: rest) else none with
    | some value => some value
    | none => scalarFrom? key (char == '\n') rest

def scalar (front key : Text) : Text :=
  (scalarFrom? key true front).getD []

def isMapHeader (key line : Text) : Bool :=
  match Text.afterLead? (key ++ [':']) line with
  | some rest => rest.all Text.isBlank
  | none => false

/-- The pair on an entry line: at least two blanks, a prop key, a colon and the value. -/
def mapEntry? (line : Text) : Option (Text × Text) :=
  if (line.takeWhile Text.isAsciiBlank).length < 2 then none
  else
    match takeKey? (line.dropWhile Text.isAsciiBlank) with
    | some (key, ':' :: value) => some (key, stripQuotes (Text.trim value))
    | _ => none

/-- The pairs of the entry lines that stand below a header without another line between. -/
def mapPairs (key : Text) : (inMap : Bool) → List Text → List (Text × Text)
  | _, [] => []
  | inMap, line :: rest =>
    if isMapHeader key line then mapPairs key true rest
    else if inMap then
      match mapEntry? line with
      | some pair => pair :: mapPairs key true rest
      | none => mapPairs key false rest
    else mapPairs key false rest

def map (front key : Text) : Props :=
  .ofPairs (mapPairs key false (Text.lines front))

end DocComponents.FrontMatter
