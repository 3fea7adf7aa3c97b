/-!
# Texts

A text is a list of characters, so a position counts characters and every scan is a recursion over
the list. This module holds the character classes that the readers share and the operations that
cut, trim and join texts.
-/

set_option autoImplicit false

namespace DocComponents

abbrev Text := List Char

namespace Text

def withinRanges (ranges : List (Nat × Nat)) (point : Nat) : Bool :=
  ranges.any fun (first, last) => first ≤ point && point ≤ last

/-- The white space of Unicode: what separates words in any script. -/
def isSpace (char : Char) : Bool :=
  withinRanges
    [(0x09, 0x0D), (0x20, 0x20), (0x85, 0x85), (0xA0, 0xA0), (0x1680, 0x1680), (0x2000, 0x200A),
      (0x2028, 0x2029), (0x202F, 0x202F), (0x205F, 0x205F), (0x3000, 0x3000)]
    char.toNat

/-- White space together with the four information separators: what trimming a text removes. -/
def isBlank (char : Char) : Bool :=
  isSpace char || withinRanges [(0x1C, 0x1F)] char.toNat

def isAsciiBlank (char : Char) : Bool :=
  char == ' ' || withinRanges [(0x09, 0x0D)] char.toNat

def isSpaceOrTab (char : Char) : Bool :=
  char == ' ' || char == '\t'

def isAsciiWord (char : Char) : Bool :=
  char.isAlphanum || char == '_'

def trimStart (inClass : Char → Bool) (text : Text) : Text :=
  text.dropWhile inClass

def trimEnd (inClass : Char → Bool) (text : Text) : Text :=
  (text.reverse.dropWhile inClass).reverse

def trimBoth (inClass : Char → Bool) (text : Text) : Text :=
  trimEnd inClass (trimStart inClass text)

def trim (text : Text) : Text :=
  trimBoth isBlank text

/-- What follows `lead` in the text, if the text begins with it. -/
def afterLead? : (lead text : Text) → Option Text
  | [], text => some text
  | _ :: _, [] => none
  | expected :: lead, char :: text => if expected = char then afterLead? lead text else none

def startsWith (text lead : Text) : Bool :=
  (afterLead? lead text).isSome

def endsWith (text tail : Text) : Bool :=
  startsWith text.reverse tail.reverse

/-- The text cut at every character of the class, which belongs to no part; there is always one
part more than cuts. -/
def cutAt (inClass : Char → Bool) : Text → List Text
  | [] => [[]]
  | char :: rest =>
    if inClass char then [] :: cutAt inClass rest
    else
      match cutAt inClass rest with
      | [] => [[char]]
      | part :: parts => (char :: part) :: parts

def words (text : Text) : List Text :=
  (cutAt isBlank text).filter fun part => !part.isEmpty

def join (separator : Text) : List Text → Text
  | [] => []
  | [part] => part
  | part :: parts => part ++ separator ++ join separator parts

def replaceChar (target : Char) (replacement text : Text) : Text :=
  text.flatMap fun char => if char = target then replacement else [char]

/-- The text with the capitals of ASCII made small. -/
def lower (text : Text) : Text :=
  text.map Char.toLower

def ofNat (number : Nat) : Text :=
  Nat.toDigits 10 number

def ofInt : Int → Text
  | .ofNat number => ofNat number
  | .negSucc number => '-' :: ofNat (number + 1)

/-- The lower-case hexadecimal digits of a number, filled with zeros to at least `width` digits. -/
def hexadecimal (width number : Nat) : Text :=
  let digits := Nat.toDigits 16 number
  List.replicate (width - digits.length) '0' ++ digits

end Text

end DocComponents
