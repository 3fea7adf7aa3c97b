import DocComponents.Text.Alphabet
import DocComponents.Text.Scan

/-!
# Style and script blocks

A template may carry blocks enclosed by a `style` or a `script` tag, written in letters of either
case. The first block of a tag is kept as content, and every block of the tag is taken out of the
template.
-/

set_option autoImplicit false

namespace DocComponents

inductive Tag where
  | style
  | script
  deriving DecidableEq, Repr

namespace Tag

def name : Tag → Text
  | .style => "style".toList
  | .script => "script".toList

/-- A character that differs from a small letter by case only. The long s counts as an s, and the
capital dotted and the small dotless i count as an i. -/
def isCaseOf (letter char : Char) : Bool :=
  char.toLower == letter || (letter == 's' && char == 'ſ') ||
    (letter == 'i' && (char == 'İ' || char == 'ı'))

/-- What follows a name in letters of either case. -/
def afterName? : (name text : Text) → Option Text
  | [], text => some text
  | _ :: _, [] => none
  | letter :: name, char :: text => if isCaseOf letter char then afterName? name text else none

/-- What follows an opening tag with any attributes. The name must end before another word
character does. -/
def afterOpening? (tag : Tag) : Text → Option Text
  | '<' :: text =>
    match afterName? tag.name text with
    | some rest =>
      if rest.head?.any Text.isWord then none else (rest.dropWhile (· != '>')).tail?
    | none => none
  | _ => none

/-- What follows a closing tag, which may hold blanks after its name. -/
def afterClosing? (tag : Tag) : Text → Option Text
  | '<' :: '/' :: text =>
    match afterName? tag.name text with
    | some rest =>
      match rest.dropWhile Text.isBlank with
      | '>' :: tail => some tail
      | _ => none
    | none => none
  | _ => none

/-- The text before the first closing tag and the text behind it. -/
def splitAtClosing? (tag : Tag) : Text → Option (Text × Text)
  | [] => none
  | char :: rest =>
    match tag.afterClosing? (char :: rest) with
    | some tail => some ([], tail)
    | none =>
      match tag.splitAtClosing? rest with
      | some (inner, tail) => some (char :: inner, tail)
      | none => none

def recogniseBlock (tag : Tag) (text : Text) : Option (Text × Nat) :=
  match tag.afterOpening? text with
  | none => none
  | some rest =>
    match tag.splitAtClosing? rest with
    | some (inner, tail) => some (inner, text.length - tail.length)
    | none => none

def pieces (tag : Tag) (body : Text) : List (Text.Piece Text) :=
  Text.scan tag.recogniseBlock body

/-- The trimmed inner text of the first block, and the body without any block of the tag. -/
def extract (tag : Tag) (body : Text) : Text × Text :=
  let pieces := tag.pieces body
  (Text.trim ((Text.hits pieces).headD []), Text.replaceHits (fun _ => []) pieces)

end Tag

end DocComponents
