import DocComponents.Text.Basic

/-!
# UTF-8

Texts are stored as UTF-8. Writing never fails. Reading stops at the first sequence of bytes that
encodes no character and says where it stands and what is wrong with it.
-/

set_option autoImplicit false

namespace DocComponents

abbrev Bytes := List UInt8

namespace Utf8

/-- The bytes of a character: one, two, three or four, by its code point. -/
def encodeChar (char : Char) : Bytes :=
  let point := char.toNat
  let continuation (number : Nat) : UInt8 := UInt8.ofNat (0x80 + number % 0x40)
  if point < 0x80 then [UInt8.ofNat point]
  else if point < 0x800 then [UInt8.ofNat (0xC0 + point / 0x40), continuation point]
  else if point < 0x10000 then
    [UInt8.ofNat (0xE0 + point / 0x1000), continuation (point / 0x40), continuation point]
  else
    [UInt8.ofNat (0xF0 + point / 0x40000), continuation (point / 0x1000),
      continuation (point / 0x40), continuation point]

def encode (text : Text) : Bytes :=
  text.flatMap encodeChar

inductive Reason where
  | invalidStart
  | invalidContinuation
  | unexpectedEnd
  deriving DecidableEq, Repr

/-- A sequence of bytes that encodes no character: its position, its length, its first byte. -/
structure Fault where
  position : Nat
  length : Nat
  byte : UInt8
  reason : Reason
  deriving DecidableEq, Repr

def Reason.message : Reason → Text
  | .invalidStart => "invalid start byte".toList
  | .invalidContinuation => "invalid continuation byte".toList
  | .unexpectedEnd => "unexpected end of data".toList

def Fault.message (fault : Fault) : Text :=
  let place :=
    if fault.length = 1 then
      "byte 0x".toList ++ Text.hexadecimal 2 fault.byte.toNat ++ " in position ".toList ++
        Text.ofNat fault.position
    else
      "bytes in position ".toList ++ Text.ofNat fault.position ++ '-' ::
        Text.ofNat (fault.position + fault.length - 1)
  "'utf-8' codec can't decode ".toList ++ place ++ ':' :: ' ' :: fault.reason.message

/-- The least and the greatest second byte behind a first byte, and the number of bytes that follow
the first. -/
def shape? (first : Nat) : Option (Nat × Nat × Nat) :=
  if 0xC2 ≤ first && first ≤ 0xDF then some (0x80, 0xBF, 1)
  else if first = 0xE0 then some (0xA0, 0xBF, 2)
  else if first = 0xED then some (0x80, 0x9F, 2)
  else if 0xE1 ≤ first && first ≤ 0xEF then some (0x80, 0xBF, 2)
  else if first = 0xF0 then some (0x90, 0xBF, 3)
  else if first = 0xF4 then some (0x80, 0x8F, 3)
  else if 0xF1 ≤ first && first ≤ 0xF3 then some (0x80, 0xBF, 3)
  else none

/-- The value of continuation bytes behind a value already read. `count` bytes are needed, of which
`done` are read, the first byte included; the next one must lie between `least` and `greatest`. On
failure the answer is the number of bytes that belong to the faulty sequence. -/
def continue? (least greatest : Nat) : (count done value : Nat) → Bytes → Except (Nat × Reason) Nat
  | 0, _, value, _ => .ok value
  | _ + 1, done, _, [] => .error (done, .unexpectedEnd)
  | count + 1, done, value, byte :: rest =>
    if least ≤ byte.toNat && byte.toNat ≤ greatest then
      continue? 0x80 0xBF count (done + 1) (value * 0x40 + byte.toNat % 0x40) rest
    else .error (done, .invalidContinuation)

/-- The character at the beginning of bytes, with the number of bytes behind its first. -/
def decodeFirst (first : UInt8) (rest : Bytes) : Except (Nat × Reason) (Char × Nat) :=
  if first.toNat < 0x80 then .ok (Char.ofNat first.toNat, 0)
  else
    match shape? first.toNat with
    | none => .error (1, .invalidStart)
    | some (least, greatest, count) =>
      match continue? least greatest count 1 (first.toNat % Nat.pow 2 (6 - count)) rest with
      | .ok value => .ok (Char.ofNat value, count)
      | .error fault => .error fault

/-- The characters of bytes from a position on. The second argument counts the bytes that still
belong to the last character. -/
def decodeFrom : (position skip : Nat) → Bytes → Except Fault Text
  | _, _, [] => .ok []
  | position, skip + 1, _ :: rest => decodeFrom (position + 1) skip rest
  | position, 0, byte :: rest =>
    match decodeFirst byte rest with
    | .error (length, reason) => .error { position, length, byte, reason }
    | .ok (char, count) =>
      match decodeFrom (position + 1) count rest with
      | .ok text => .ok (char :: text)
      | .error fault => .error fault

def decode (bytes : Bytes) : Except Fault Text :=
  decodeFrom 0 0 bytes

end Utf8

end DocComponents
