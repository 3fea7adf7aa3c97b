import DocComponents.Archive.Checksum

/-!
# Gzip files

A file is packed into blocks that store its bytes as they are, between a head and the checksum and
the size of the whole.
-/

set_option autoImplicit false

namespace DocComponents.Archive.Gzip

/-- The head: the format, the method, no flags, no time, no hints, a system that is not told. -/
def head : Bytes := [0x1F, 0x8B, 8, 0, 0, 0, 0, 0, 0, 255]

def blockSize : Nat := 65535

/-- A block, which tells whether it is the last one and how long it is, the length once more with
its bits inverted. -/
def block (isLast : Bool) (bytes : Bytes) : Bytes :=
  (if isLast then 1 else 0) :: writeNumber 2 bytes.length ++ writeNumber 2 (65535 - bytes.length) ++
    bytes

/-- Bytes in blocks. There is always a last one. -/
def blocks (bytes : Bytes) : Bytes :=
  if bytes.length ≤ blockSize then block true bytes
  else block false (bytes.take blockSize) ++ blocks (bytes.drop blockSize)
termination_by bytes.length
decreasing_by simp [blockSize] at *; omega

def write (bytes : Bytes) : Bytes :=
  head ++ blocks bytes ++ writeNumber 4 (checksum bytes).toNat ++ writeNumber 4 bytes.length

/-- The bytes in blocks, at most as many blocks as given, and what follows the last one. Only blocks
that store bytes as they are can be read. -/
def readBlocks : (most : Nat) → Bytes → Option (Bytes × Bytes)
  | 0, _ => none
  | most + 1, bytes =>
    let size := numberAt 1 2 bytes
    let contents := (bytes.drop 5).take size
    let rest := bytes.drop (5 + size)
    match bytes.head? with
    | some 1 => some (contents, rest)
    | some 0 => (readBlocks most rest).map fun others => (contents ++ others.1, others.2)
    | _ => none

def read? (bytes : Bytes) : Option Bytes :=
  if bytes.take 3 = head.take 3 then
    match readBlocks bytes.length (bytes.drop head.length) with
    | some (contents, rest) =>
      if numberAt 0 4 rest = (checksum contents).toNat then some contents else none
    | none => none
  else none

end DocComponents.Archive.Gzip
