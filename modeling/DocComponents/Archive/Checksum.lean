import DocComponents.Text.Utf8

/-!
# Checksums

The checksum of 32 bits that archives carry for their contents: the remainder of the bytes, read as
a polynomial from their low bits on, with all bits inverted before and after. Numbers stand in
archives with their low bytes first.
-/

set_option autoImplicit false

namespace DocComponents.Archive

def divideBit (remainder : UInt32) : UInt32 :=
  if remainder &&& 1 = 1 then (remainder >>> 1) ^^^ 0xEDB88320 else remainder >>> 1

def divideByte (remainder : UInt32) (byte : UInt8) : UInt32 :=
  Nat.repeat divideBit 8 (remainder ^^^ byte.toUInt32)

def checksum (bytes : Bytes) : UInt32 :=
  bytes.foldl divideByte 0xFFFFFFFF ^^^ 0xFFFFFFFF

/-- A number as bytes, the low ones first. What does not fit the width is lost. -/
def writeNumber : (width value : Nat) → Bytes
  | 0, _ => []
  | width + 1, value => UInt8.ofNat value :: writeNumber width (value / 256)

def readNumber : Bytes → Nat
  | [] => 0
  | byte :: rest => byte.toNat + 256 * readNumber rest

def numberAt (offset width : Nat) (bytes : Bytes) : Nat :=
  readNumber ((bytes.drop offset).take width)

def writeFields : (widths values : List Nat) → Bytes
  | width :: widths, value :: values => writeNumber width value ++ writeFields widths values
  | _, _ => []

def readFields : (widths : List Nat) → Bytes → List Nat × Bytes
  | [], bytes => ([], bytes)
  | width :: widths, bytes =>
    let (values, rest) := readFields widths (bytes.drop width)
    (readNumber (bytes.take width) :: values, rest)

end DocComponents.Archive
