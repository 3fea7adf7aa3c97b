import DocComponents.Archive.Checksum
import DocComponents.Archive.Timestamp

/-!
# Zip archives

An archive holds members, each with a name, contents and the time of its last change. A member whose
name ends in a slash is a folder. Each member is a record, in which its contents are stored as they
are; a directory follows with a line for each record, which tells where the record begins, and then
an end, which tells where the directory begins. A number that is too large for its field stands
among the wide numbers behind the name, or in an end of its own.
-/

set_option autoImplicit false

namespace DocComponents.Archive.Zip

structure Member where
  name : Text
  contents : Bytes := []
  changed : Timestamp := .first
  deriving DecidableEq, Repr

def isFolderName (name : Text) : Bool :=
  name.getLast? = some '/'

def Member.isFolder (member : Member) : Bool :=
  isFolderName member.name

/-- What the record of a member and its line in the directory both tell. -/
structure Head where
  name : Text
  changed : Timestamp
  checksum : Nat
  size : Nat
  deriving DecidableEq, Repr

def Member.head (member : Member) : Head where
  name := member.name
  changed := member.changed
  checksum := (checksum member.contents).toNat
  size := member.contents.length

/-! ## Wide numbers -/

/-- The least number that is told among the wide ones. -/
def wideFrom : Nat := 0x80000000

/-- What stands in the field of a number that is told among the wide ones. -/
def isElsewhere : Nat := 0xFFFFFFFF

def narrow (number : Nat) : Nat :=
  if number < wideFrom then number else isElsewhere

/-- The wide ones of numbers, with their kind and their length in front. -/
def wideNumbers (numbers : List Nat) : Bytes :=
  let wide := (numbers.filter (wideFrom ≤ ·)).flatMap (writeNumber 8)
  if wide.isEmpty then [] else writeNumber 2 1 ++ writeNumber 2 wide.length ++ wide

/-- The numbers of fields, of which some are told among wide ones. -/
def widen : (fields : List Nat) → (wide : Bytes) → List Nat
  | [], _ => []
  | field :: fields, wide =>
    if field = isElsewhere then readNumber (wide.take 8) :: widen fields (wide.drop 8)
    else field :: widen fields wide

/-! ## Writing -/

def recordMark : Nat := 0x04034B50

def lineMark : Nat := 0x02014B50

def endMark : Nat := 0x06054B50

def wideEndMark : Nat := 0x06064B50

/-- The first bytes of what tells where the end with wide numbers begins. -/
def locatorMark : Nat := 0x07064B50

def writeMarked (mark : Nat) (widths values : List Nat) : Bytes :=
  writeNumber 4 mark ++ writeFields widths values

/-- The version that is needed, what is noted, how the contents are stored, the time and the date of
the last change, the checksum, the stored and the true size and the lengths of the name and of what
follows it. -/
def headFields : List Nat := [2, 2, 2, 2, 2, 4, 4, 4, 2, 2]

def version (extra : Bytes) : Nat :=
  if extra.isEmpty then 20 else 45

/-- The numbers of a head. It is noted when a name needs UTF-8. -/
def Head.numbers (head : Head) (extra : Bytes) : List Nat :=
  [version extra, if head.name.all (·.toNat < 128) then 0 else 0x0800, 0,
    head.changed.time.toNat, head.changed.date.toNat, head.checksum, narrow head.size,
    narrow head.size, (Utf8.encode head.name).length, extra.length]

def Member.record (member : Member) : Bytes :=
  let extra := wideNumbers [member.head.size, member.head.size]
  writeMarked recordMark headFields (member.head.numbers extra) ++ Utf8.encode member.name ++
    extra ++ member.contents

def Head.permissions (head : Head) : Nat :=
  if isFolderName head.name then 0x41FD0010 else 0x81A40000

/-- In front of a head its line tells the version and the system of the writer. -/
def lineOpening : List Nat := [2]

/-- Behind a head its line tells the length of a remark, the part of the archive, the kind of the
contents, the permissions and where the record begins. -/
def lineClosing : List Nat := [2, 2, 2, 4, 4]

def Head.line (head : Head) (start : Nat) : Bytes :=
  let extra := wideNumbers [head.size, head.size, start]
  writeMarked lineMark lineOpening [0x0300 + version extra] ++
    writeFields headFields (head.numbers extra) ++
    writeFields lineClosing [0, 0, 0, head.permissions, narrow start] ++ Utf8.encode head.name ++
    extra

def directory : (start : Nat) → List Member → Bytes
  | _, [] => []
  | start, member :: rest => member.head.line start ++ directory (start + member.record.length) rest

/-- The parts of the archive, the numbers of lines, the size of the directory, where it begins and
the length of a remark. -/
def endFields : List Nat := [2, 2, 2, 2, 4, 4, 2]

/-- The size of what follows, the versions of the writer and for the reader, the parts of the
archive, the numbers of lines, the size of the directory and where it begins. -/
def wideEndFields : List Nat := [8, 2, 2, 4, 4, 8, 8, 8, 8]

/-- The part with the end with wide numbers, where this end begins and the number of parts. -/
def locatorFields : List Nat := [4, 8, 4]

def ending (count size start : Nat) : Bytes :=
  let wide :=
    if 0xFFFF ≤ count || wideFrom ≤ size || wideFrom ≤ start then
      writeMarked wideEndMark wideEndFields [44, 45, 45, 0, 0, count, count, size, start] ++
        writeMarked locatorMark locatorFields [0, start + size, 1]
    else []
  wide ++ writeMarked endMark endFields
    [0, 0, min count 0xFFFF, min count 0xFFFF, min size 0xFFFFFFFF, min start 0xFFFFFFFF, 0]

def write (members : List Member) : Bytes :=
  let records := members.flatMap Member.record
  let lines := directory 0 members
  records ++ lines ++ ending members.length lines.length records.length

/-! ## Reading -/

def readMarked? (mark : Nat) (widths : List Nat) (bytes : Bytes) : Option (List Nat × Bytes) :=
  if readNumber (bytes.take 4) = mark then some (readFields widths (bytes.drop 4)) else none

/-- The head that numbers tell with the bytes behind them, the place that is told with it, and the
bytes that follow. A member that is not stored as it is cannot be read. -/
def readHead? (numbers : List Nat) (start : Nat) (bytes : Bytes) :
    Option ((Head × Nat) × Bytes) :=
  match numbers with
  | [_, _, method, time, date, checksum, _, size, nameLength, extraLength] =>
    let extra := (bytes.drop nameLength).take extraLength
    match Utf8.decode (bytes.take nameLength), widen [size, size, start] (extra.drop 4) with
    | .ok name, [_, size, start] =>
      let changed : Timestamp := { date := UInt16.ofNat date, time := UInt16.ofNat time }
      if method = 0 then
        some (({ name, changed, checksum, size }, start), bytes.drop (nameLength + extraLength))
      else none
    | _, _ => none
  | _ => none

/-- The head of a record, with the bytes from its contents on. -/
def readRecord? (bytes : Bytes) : Option (Head × Bytes) :=
  match readMarked? recordMark headFields bytes with
  | none => none
  | some (numbers, rest) => (readHead? numbers 0 rest).map fun (line, rest) => (line.1, rest)

def readLine? (bytes : Bytes) : Option ((Head × Nat) × Bytes) :=
  match readMarked? lineMark lineOpening bytes with
  | none => none
  | some (_, rest) =>
    let (numbers, rest) := readFields headFields rest
    let (closing, rest) := readFields lineClosing rest
    readHead? numbers (closing.getLastD 0) rest

def readLines? : (count : Nat) → Bytes → Option (List (Head × Nat))
  | 0, _ => some []
  | count + 1, bytes =>
    match readLine? bytes with
    | none => none
    | some (line, rest) => (readLines? count rest).map fun lines => line :: lines

/-- The member to which a line of the directory leads. Its record must tell the same as the line,
and its contents must be those of which both tell. -/
def readMember? (bytes : Bytes) (line : Head × Nat) : Option Member :=
  match readRecord? (bytes.drop line.2) with
  | none => none
  | some (head, rest) =>
    let member : Member :=
      { name := head.name, contents := rest.take head.size, changed := head.changed }
    if head = line.1 && member.head = head then some member else none

def readWideEnd? (bytes : Bytes) : Option (Nat × Nat) :=
  match readMarked? locatorMark locatorFields (bytes.drop (bytes.length - 42)) with
  | some ([_, place, _], _) =>
    match readMarked? wideEndMark wideEndFields (bytes.drop place) with
    | some ([_, _, _, _, _, _, count, _, start], _) => some (count, start)
    | _ => none
  | _ => none

def readEnd? (bytes : Bytes) : Option (Nat × Nat) :=
  match readMarked? endMark endFields (bytes.drop (bytes.length - 22)) with
  | some ([_, _, _, count, _, start, _], _) =>
    if count < 0xFFFF && start < 0xFFFFFFFF then some (count, start) else readWideEnd? bytes
  | _ => none

def read? (bytes : Bytes) : Option (List Member) := do
  let (count, start) ← readEnd? bytes
  let lines ← readLines? count (bytes.drop start)
  lines.mapM (readMember? bytes)

end DocComponents.Archive.Zip
