import DocComponents.Data.Basic

/-!
# JSON

Data written as JSON, with a space behind each colon and each comma. Characters beyond ASCII are
written as they are or as escapes, in which a character beyond the basic plane is a pair of
surrogates. A number of double precision is told in the fewest digits that are read as it again.
-/

set_option autoImplicit false

namespace DocComponents.Json

/-- Which characters beyond the controls are escaped. -/
inductive Charset where
  /-- Everything that ASCII cannot print is escaped. -/
  | ascii
  /-- Only what JSON demands is escaped. -/
  | unicode
  deriving DecidableEq, Repr

def unitEscape (unit : Nat) : Text :=
  '\\' :: 'u' :: Text.hexadecimal 4 unit

/-- A character as one escape or as a pair of surrogate escapes. -/
def charEscape (char : Char) : Text :=
  let point := char.toNat
  if point < 0x10000 then unitEscape point
  else
    unitEscape (0xD800 + (point - 0x10000) / 0x400) ++
      unitEscape (0xDC00 + (point - 0x10000) % 0x400)

def writeChar (charset : Charset) (char : Char) : Text :=
  if char = '"' then ['\\', '"']
  else if char = '\\' then ['\\', '\\']
  else if char = '\n' then ['\\', 'n']
  else if char = '\r' then ['\\', 'r']
  else if char = '\t' then ['\\', 't']
  else if char = '\x08' then ['\\', 'b']
  else if char = '\x0C' then ['\\', 'f']
  else if char.toNat < 0x20 then charEscape char
  else if charset = .ascii && 0x7F ≤ char.toNat then charEscape char
  else [char]

/-- Digits with a point behind as many of them as given, where zeros fill the digits up. -/
def writePoint (digits : Text) : (point : Int) → Text
  | .ofNat whole =>
    let filled := digits ++ List.replicate (whole - digits.length) '0'
    let fraction := filled.drop whole
    filled.take whole ++ '.' :: (if fraction.isEmpty then ['0'] else fraction)
  | .negSucc less => '0' :: '.' :: List.replicate (less + 1) '0' ++ digits

/-- An exponent of ten with its sign and at least two digits. -/
def writeExponent (exponent : Int) : Text :=
  let digits := Text.ofNat exponent.natAbs
  'e' :: (if exponent < 0 then '-' else '+') :: List.replicate (2 - digits.length) '0' ++ digits

/-- A double in its fewest digits, with an exponent when the first digit stands for less than
`0.0001` or for `10000000000000000` and more. -/
def writeDouble (value : Double) : Text :=
  let (number, unit) := value.shortest
  let digits := Text.ofNat number
  let point := digits.length + unit
  let sign : Text := if value.negative then ['-'] else []
  if -4 < point && point ≤ 16 then
    sign ++ (if point = 0 then ['0'] else []) ++ writePoint digits point
  else
    sign ++ digits.take 1 ++ (if digits.length = 1 then [] else '.' :: digits.drop 1) ++
      writeExponent (point - 1)

def writeText (charset : Charset) (text : Text) : Text :=
  '"' :: text.flatMap (writeChar charset) ++ ['"']

mutual

def write (charset : Charset) : Data → Text
  | .null => "null".toList
  | .bool true => "true".toList
  | .bool false => "false".toList
  | .integer value => Text.ofInt value
  | .double value => writeDouble value
  | .nonFinite => "NaN".toList
  | .text value => writeText charset value
  | .list items => '[' :: Text.join [',', ' '] (writeItems charset items) ++ [']']
  | .table entries => '{' :: Text.join [',', ' '] (writeEntries charset entries) ++ ['}']
  | .moment written => writeText charset written

def writeItems (charset : Charset) : List Data → List Text
  | [] => []
  | item :: items => write charset item :: writeItems charset items

def writeEntries (charset : Charset) : List (Text × Data) → List Text
  | [] => []
  | (key, value) :: entries =>
    (writeText charset key ++ ':' :: ' ' :: write charset value) :: writeEntries charset entries

end

end DocComponents.Json
