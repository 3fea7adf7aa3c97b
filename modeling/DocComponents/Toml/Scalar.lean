import DocComponents.Data.Basic

/-!
# TOML scalars

Strings, numbers, truth values, dates and times as TOML writes them. Every reader answers what it
read from the beginning of a text together with the rest, or nothing when no such value begins
there.
-/

set_option autoImplicit false

namespace DocComponents.Toml

/-- The control characters that TOML refuses inside a line: all but the tab. -/
def isIllegal (char : Char) : Bool :=
  (char.toNat < 0x20 && char != '\t') || char.toNat == 0x7F

/-- The control characters that TOML refuses inside a string of several lines. -/
def isIllegalInLines (char : Char) : Bool :=
  isIllegal char && char != '\n'

def isBlankOrFeed (char : Char) : Bool :=
  Text.isSpaceOrTab char || char == '\n'

def isBareKeyChar (char : Char) : Bool :=
  char.isAlphanum || char == '-' || char == '_'

def hexDigit? (char : Char) : Option Nat :=
  if char.isDigit then some (char.toNat - '0'.toNat)
  else if 'a' ≤ char && char ≤ 'f' then some (char.toNat - 'a'.toNat + 10)
  else if 'A' ≤ char && char ≤ 'F' then some (char.toNat - 'A'.toNat + 10)
  else none

def numberOf (base : Nat) (digits : Text) : Nat :=
  digits.foldl (fun value digit => value * base + (hexDigit? digit).getD 0) 0

/-! ## Strings -/

/-- The character of an escape that names it by `count` hexadecimal digits. -/
def namedChar? (count : Nat) (text : Text) : Option Char :=
  let digits := text.take count
  let point := numberOf 16 digits
  if digits.length = count && digits.all (fun digit => (hexDigit? digit).isSome) &&
      (point < 0xD800 || (0xE000 ≤ point && point < 0x110000)) then
    some (Char.ofNat point)
  else none

/-- The character of an escape, for what stands behind the backslash, and the length of that. -/
def escape? : Text → Option (Char × Nat)
  | 'b' :: _ => some ('\x08', 1)
  | 't' :: _ => some ('\t', 1)
  | 'n' :: _ => some ('\n', 1)
  | 'f' :: _ => some ('\x0C', 1)
  | 'r' :: _ => some ('\r', 1)
  | '"' :: _ => some ('"', 1)
  | '\\' :: _ => some ('\\', 1)
  | 'u' :: rest => (namedChar? 4 rest).map fun char => (char, 5)
  | 'U' :: rest => (namedChar? 8 rest).map fun char => (char, 9)
  | _ => none

/-- Whether a backslash, for what stands behind it, ends a line that is continued on the next one.
-/
def continuesLine (text : Text) : Bool :=
  match text.dropWhile Text.isSpaceOrTab with
  | '\n' :: _ => true
  | _ => false

/-- The rest of a string on one line, down to the double quote that closes it. The first argument
counts the characters that still belong to an escape. -/
def basicFrom? : (skip : Nat) → Text → Option (Text × Text)
  | _, [] => none
  | skip + 1, _ :: rest => basicFrom? skip rest
  | 0, char :: rest =>
    if char = '"' then some ([], rest)
    else if char = '\\' then
      match escape? rest with
      | none => none
      | some (escaped, size) =>
        (basicFrom? size rest).map fun (text, tail) => (escaped :: text, tail)
    else if isIllegal char then none
    else (basicFrom? 0 rest).map fun (text, tail) => (char :: text, tail)

/-- The rest of a string of several lines, down to the three double quotes that close it. The flag
tells that blanks and line feeds are passed over. -/
def basicLinesFrom? : (skip : Nat) → (passing : Bool) → Text → Option (Text × Text)
  | _, _, [] => none
  | skip + 1, passing, _ :: rest => basicLinesFrom? skip passing rest
  | 0, passing, char :: rest =>
    if passing && isBlankOrFeed char then basicLinesFrom? 0 true rest
    else if char = '"' && Text.startsWith rest ['"', '"'] then some ([], rest.drop 2)
    else if char = '\\' then
      if continuesLine rest then basicLinesFrom? 0 true rest
      else
        match escape? rest with
        | none => none
        | some (escaped, size) =>
          (basicLinesFrom? size false rest).map fun (text, tail) => (escaped :: text, tail)
    else if isIllegalInLines char then none
    else (basicLinesFrom? 0 false rest).map fun (text, tail) => (char :: text, tail)

def literal? (text : Text) : Option (Text × Text) :=
  match text.dropWhile (· != '\'') with
  | [] => none
  | _ :: rest =>
    let value := text.takeWhile (· != '\'')
    if value.any isIllegal then none else some (value, rest)

def literalLines? : Text → Option (Text × Text)
  | [] => none
  | char :: rest =>
    if char = '\'' && Text.startsWith rest ['\'', '\''] then some ([], rest.drop 2)
    else if isIllegalInLines char then none
    else (literalLines? rest).map fun (text, tail) => (char :: text, tail)

/-- A closed string of several lines takes in up to two quotes that follow it. -/
def withQuotes (quote : Char) (text rest : Text) : Text × Text :=
  let extra := (rest.takeWhile (· == quote)).take 2
  (text ++ extra, rest.drop extra.length)

def withoutFeed : Text → Text
  | '\n' :: rest => rest
  | text => text

def string? : Text → Option (Text × Text)
  | '"' :: '"' :: '"' :: rest =>
    (basicLinesFrom? 0 false (withoutFeed rest)).map fun (text, tail) => withQuotes '"' text tail
  | '"' :: rest => basicFrom? 0 rest
  | '\'' :: '\'' :: '\'' :: rest =>
    (literalLines? (withoutFeed rest)).map fun (text, tail) => withQuotes '\'' text tail
  | '\'' :: rest => literal? rest
  | _ => none

/-! ## Numbers -/

/-- Further digits of a class, each with an optional underscore before it. -/
def moreDigits (isDigit : Char → Bool) : Text → Text × Text
  | [] => ([], [])
  | '_' :: char :: rest =>
    if isDigit char then
      let (digits, tail) := moreDigits isDigit rest
      (char :: digits, tail)
    else ([], '_' :: char :: rest)
  | char :: rest =>
    if isDigit char then
      let (digits, tail) := moreDigits isDigit rest
      (char :: digits, tail)
    else ([], char :: rest)

/-- One or more digits of a class, with single underscores between them. -/
def digits? (isDigit : Char → Bool) : Text → Option (Text × Text)
  | [] => none
  | char :: rest =>
    if isDigit char then
      let (digits, tail) := moreDigits isDigit rest
      some (char :: digits, tail)
    else none

def sign : Text → Int × Text
  | '-' :: rest => (-1, rest)
  | '+' :: rest => (1, rest)
  | text => (1, text)

def based? : Text → Option (Data × Text)
  | '0' :: letter :: rest =>
    let read (base : Nat) (isDigit : Char → Bool) : Option (Data × Text) :=
      (digits? isDigit rest).map fun (digits, tail) => (.integer (numberOf base digits), tail)
    if letter = 'x' then read 16 fun char => (hexDigit? char).isSome
    else if letter = 'b' then read 2 fun char => char == '0' || char == '1'
    else if letter = 'o' then read 8 fun char => '0' ≤ char && char ≤ '7'
    else none
  | _ => none

/-- The digits before the point. A leading zero stands alone. -/
def wholeDigits? : Text → Option (Text × Text)
  | '0' :: rest => some (['0'], rest)
  | text => digits? Char.isDigit text

def fractionDigits (text : Text) : Text × Text :=
  match text with
  | '.' :: rest => (digits? Char.isDigit rest).getD ([], text)
  | _ => ([], text)

def exponent? : Text → Option (Int × Text)
  | char :: rest =>
    if char = 'e' || char = 'E' then
      let (factor, unsigned) := sign rest
      (digits? Char.isDigit unsigned).map fun (digits, tail) =>
        (factor * (numberOf 10 digits : Int), tail)
    else none
  | [] => none

/-- A decimal number: an integer, or a double when a fraction or an exponent is written. -/
def decimal? (text : Text) : Option (Data × Text) :=
  let (factor, unsigned) := sign text
  match wholeDigits? unsigned with
  | none => none
  | some (whole, afterWhole) =>
    let (fraction, afterFraction) := fractionDigits afterWhole
    let number := numberOf 10 (whole ++ fraction)
    let double (power : Int) : Data := .ofDecimal (factor < 0) number (power - fraction.length)
    match exponent? afterFraction with
    | some (power, tail) => some (double power, tail)
    | none =>
      if fraction.isEmpty then some (.integer (factor * number), afterFraction)
      else some (double 0, afterFraction)

def nonFinite? (text : Text) : Option (Data × Text) :=
  let (_, unsigned) := sign text
  if Text.startsWith unsigned "inf".toList || Text.startsWith unsigned "nan".toList then
    some (.nonFinite, unsigned.drop 3)
  else none

/-! ## Dates and times -/

/-- A number of exactly `count` digits that lies between two bounds. -/
def fixed? (count least greatest : Nat) (text : Text) : Option (Nat × Text) :=
  let digits := text.take count
  let number := numberOf 10 digits
  if digits.length = count && digits.all Char.isDigit && least ≤ number && number ≤ greatest then
    some (number, text.drop count)
  else none

def after? (expected : Char) : Text → Option Text
  | char :: rest => if char = expected then some rest else none
  | [] => none

/-- A time of day. The answer is what follows it. -/
def time? (text : Text) : Option Text := do
  let (_, afterHour) ← fixed? 2 0 23 text
  let (_, afterMinute) ← fixed? 2 0 59 (← after? ':' afterHour)
  let (_, rest) ← fixed? 2 0 59 (← after? ':' afterMinute)
  match rest with
  | '.' :: fraction =>
    some (if fraction.head?.any Char.isDigit then fraction.dropWhile Char.isDigit else rest)
  | _ => some rest

def afterOffset (text : Text) : Text :=
  match text with
  | 'Z' :: rest | 'z' :: rest => rest
  | char :: rest =>
    let offset? : Option Text := do
      let (_, afterHour) ← fixed? 2 0 23 rest
      let (_, tail) ← fixed? 2 0 59 (← after? ':' afterHour)
      return tail
    if char = '+' || char = '-' then offset?.getD text else text
  | [] => []

def daysOf (year month : Nat) : Nat :=
  if month = 2 then
    if (year % 4 = 0 && year % 100 != 0) || year % 400 = 0 then 29 else 28
  else if month = 4 || month = 6 || month = 9 || month = 11 then 30
  else 31

def date? (text : Text) : Option (Nat × Nat × Nat × Text) := do
  let (year, afterYear) ← fixed? 4 0 9999 text
  let (month, afterMonth) ← fixed? 2 1 12 (← after? '-' afterYear)
  let (day, rest) ← fixed? 2 1 31 (← after? '-' afterMonth)
  return (year, month, day, rest)

def afterDate (text : Text) : Text :=
  match text with
  | char :: rest =>
    if char = 'T' || char = 't' || char = ' ' then ((time? rest).map afterOffset).getD text
    else text
  | [] => []

def readPart (text rest : Text) : Text :=
  text.take (text.length - rest.length)

/-- A date, a time of day, or both. Nothing when there is none; a date that the calendar does not
have is the inner nothing. -/
def moment? (text : Text) : Option (Option (Data × Text)) :=
  match date? text with
  | some (year, month, day, rest) =>
    let tail := afterDate rest
    if 1 ≤ year && day ≤ daysOf year month then
      some (some (.moment (readPart text tail), tail))
    else some none
  | none => (time? text).map fun tail => some (.moment (readPart text tail), tail)

def scalar? (text : Text) : Option (Data × Text) :=
  if Text.startsWith text "true".toList then some (.bool true, text.drop 4)
  else if Text.startsWith text "false".toList then some (.bool false, text.drop 5)
  else
    match moment? text with
    | some moment => moment
    | none =>
      match based? text with
      | some number => some number
      | none =>
        match decimal? text with
        | some number => some number
        | none => nonFinite? text

end DocComponents.Toml
