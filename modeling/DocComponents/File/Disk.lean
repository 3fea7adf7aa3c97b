import DocComponents.File.Path
import DocComponents.Text.Lines
import DocComponents.Text.Quoted
import DocComponents.Text.Utf8

/-!
# Disks

A disk is a tree of folders and files, kept as a map from places to entries, together with the
folder from which relative paths are seen. A place is the list of names from the top of the tree
down, so the entries below a folder stand together, in path order.
-/

set_option autoImplicit false

namespace DocComponents

/-- What stands at a place. A file has contents and the time of its last change, in seconds since
the beginning of 1970. -/
inductive Entry where
  | folder
  | file (contents : Bytes) (changed : Int)
  deriving DecidableEq, Repr

/-- A tree of folders and files, seen from a current folder. -/
structure Disk where
  /-- The entries by place. The top folder has no entry. -/
  entries : SortedMap (List Text) Entry := .empty
  /-- The place of the current folder. -/
  current : List Text := []
  /-- The present moment, in seconds since the beginning of 1970. -/
  now : Int := 0
  deriving DecidableEq

inductive FileFault where
  | notFound
  | alreadyExists
  | isFolder
  | notFolder
  | notEmpty
  /-- A folder cannot be moved below itself. -/
  | invalid
  /-- The current folder, the one above it and the top folder are always in use. -/
  | busy
  | nameTooLong
  | nullByte
  deriving DecidableEq, Repr

inductive ReadFault where
  | file (fault : FileFault)
  | encoding (fault : Utf8.Fault)
  deriving DecidableEq, Repr

structure PathFault where
  fault : FileFault
  path : Path
  deriving DecidableEq, Repr

def FileFault.message : FileFault → Text
  | .notFound => "No such file or directory".toList
  | .alreadyExists => "File exists".toList
  | .isFolder => "Is a directory".toList
  | .notFolder => "Not a directory".toList
  | .notEmpty => "Directory not empty".toList
  | .invalid => "Invalid argument".toList
  | .busy => "Device or resource busy".toList
  | .nameTooLong => "File name too long".toList
  | .nullByte => Path.nullByteMessage

/-- The number of a file fault among the faults of the system. A path with a null character does not
reach the system. -/
def FileFault.number? : FileFault → Option Nat
  | .notFound => some 2
  | .alreadyExists => some 17
  | .isFolder => some 21
  | .notFolder => some 20
  | .notEmpty => some 39
  | .invalid => some 22
  | .busy => some 16
  | .nameTooLong => some 36
  | .nullByte => none

def PathFault.message (fault : PathFault) : Text :=
  match fault.fault.number? with
  | none => fault.fault.message
  | some number =>
    "[Errno ".toList ++ Text.ofNat number ++ "] ".toList ++ fault.fault.message ++ ": ".toList ++
      Text.quoted fault.path.toText

def ReadFault.message : ReadFault → Text
  | .file fault => fault.message
  | .encoding fault => fault.message

namespace Disk

/-- What stands at a place. The top folder is always there. -/
def entryAt? (disk : Disk) (place : List Text) : Option Entry :=
  if place.isEmpty then some .folder else disk.entries.get? place

def longestName : Nat := 255

def longestPath : Nat := 4095

def isTooLong (text : Text) (longest : Nat) : Bool :=
  longest < (Utf8.encode text).length

/-- The place that is reached from another one by parts of a path. Every part leads on from a
folder, whatever it leads to. -/
def walk (disk : Disk) : (reached parts : List Text) → Except FileFault (List Text)
  | reached, [] => .ok reached
  | reached, part :: rest =>
    match disk.entryAt? reached with
    | none => .error .notFound
    | some (.file _ _) => .error .notFolder
    | some .folder =>
      if part = Path.up then disk.walk reached.dropLast rest
      else if isTooLong part longestName then .error .nameTooLong
      else disk.walk (reached ++ [part]) rest

/-- The place from which the parts of a path are walked, and these parts. -/
def origin (disk : Disk) (path : Path) : List Text × List Text :=
  if path.isAbsolute then ([], path.tail) else (disk.current, path)

def place (disk : Disk) (path : Path) : Except FileFault (List Text) :=
  if !path.isValid then .error .nullByte
  else if isTooLong path.toText longestPath then .error .nameTooLong
  else disk.walk (disk.origin path).1 (disk.origin path).2

/-- A path seen from the top of the tree, without parts that lead up. -/
def absolute (disk : Disk) (path : Path) : Path :=
  Path.normal (Path.under (['/'] :: disk.current) path)

def resolve (disk : Disk) (path : Path) : Except PathFault Path :=
  if path.isValid then .ok (disk.absolute path) else .error { fault := .nullByte, path }

def entry? (disk : Disk) (path : Path) : Option Entry :=
  (disk.place path).toOption.bind disk.entryAt?

/-- What stands at a path, for who asks whether anything does. Where nothing can stand there is just
nothing, but a name that is too long is no answer. -/
def look (disk : Disk) (path : Path) : Except FileFault (Option Entry) :=
  match disk.place path with
  | .error .nameTooLong => .error .nameTooLong
  | .error _ => .ok none
  | .ok place => .ok (disk.entryAt? place)

def pathExists (disk : Disk) (path : Path) : Except FileFault Bool :=
  (disk.look path).map fun entry? => entry?.isSome

def isFolder (disk : Disk) (path : Path) : Except FileFault Bool :=
  (disk.look path).map fun entry? => entry? == some .folder

def isFile (disk : Disk) (path : Path) : Except FileFault Bool :=
  (disk.look path).map fun entry? => entry?.isSome && entry? != some .folder

def readBytes (disk : Disk) (path : Path) : Except FileFault Bytes := do
  match disk.entryAt? (← disk.place path) with
  | some (.file contents _) => .ok contents
  | some .folder => .error .isFolder
  | none => .error .notFound

/-- The text of the file at a path, with every line end read as a line feed. -/
def readText (disk : Disk) (path : Path) : Except ReadFault Text :=
  match disk.readBytes path with
  | .error fault => .error (.file fault)
  | .ok contents =>
    match Utf8.decode contents with
    | .error fault => .error (.encoding fault)
    | .ok text => .ok (Text.universalNewlines text)

def changeTime? (disk : Disk) (path : Path) : Option Int :=
  match disk.entry? path with
  | some (.file _ changed) => some changed
  | _ => none

/-- The places strictly below a place, relative to it, with what stands there, in path order. -/
def below (disk : Disk) (place : List Text) : List (List Text × Entry) :=
  disk.entries.entries.filterMap fun entry =>
    if place.isPrefixOf entry.1 && place.length < entry.1.length then
      some (entry.1.drop place.length, entry.2)
    else none

/-- The paths of the files below a folder whose paths pass a test, in path order. -/
def filesBelow (disk : Disk) (folder : Path) (keep : Path → Bool) : List Path :=
  match disk.place folder with
  | .error _ => []
  | .ok place =>
    (disk.below place).filterMap fun
      | (rest, .file _ _) => if keep (folder ++ rest) then some (folder ++ rest) else none
      | (_, .folder) => none

def put (disk : Disk) (place : List Text) (entry : Entry) : Disk :=
  { disk with entries := disk.entries.insert place entry }

def makeFolder (disk : Disk) (path : Path) : Except FileFault Disk := do
  let place ← disk.place path
  if (disk.entryAt? place).isSome then .error .alreadyExists else .ok (disk.put place .folder)

/-- The disk with the contents of a file set. Its folder must be there. -/
def writeFile (disk : Disk) (path : Path) (contents : Bytes) (changed : Int := disk.now) :
    Except FileFault Disk := do
  let place ← disk.place path
  if disk.entryAt? place = some .folder then .error .isFolder
  else .ok (disk.put place (.file contents changed))

def writeText (disk : Disk) (path : Path) (text : Text) : Except FileFault Disk :=
  disk.writeFile path (Utf8.encode text)

/-- The disk without a place and all that is below it. -/
def removeAt (disk : Disk) (place : List Text) : Disk :=
  { disk with entries := disk.entries.filter fun other _ => !place.isPrefixOf other }

def endsInName (path : Path) : Bool :=
  !path.name.isEmpty && path.name != Path.up

def remove (disk : Disk) (path : Path) : Except FileFault Disk := do
  let place ← disk.place path
  if (disk.entryAt? place).isNone then throw .notFound
  if endsInName path then return disk.removeAt place else throw .invalid

def emptyFolder (disk : Disk) (path : Path) : Except FileFault Disk := do
  let place ← disk.place path
  return { disk with
    entries := disk.entries.filter fun other _ => !place.isPrefixOf other || other = place }

def moveAt (disk : Disk) (source target : List Text) : Disk :=
  let moved := disk.entries.entries.filterMap fun entry =>
    if source.isPrefixOf entry.1 then some (target ++ entry.1.drop source.length, entry.2) else none
  let cleared := (disk.removeAt source).removeAt target
  { cleared with entries := cleared.entries.insertAll moved }

/-- Nothing, if a folder stands above a path, or why there is none. -/
def requireAbove (disk : Disk) (path : Path) : Except FileFault Unit := do
  match disk.entryAt? (← disk.place path.dropLast) with
  | some .folder => return ()
  | some (.file _ _) => throw .notFolder
  | none => throw .notFound

/-- The disk with a file or a folder moved to another path. A file may take the place of a file, and
a folder that of an empty folder; what is moved to its own place stays as it is. The folders above
both paths are needed before anything else is asked. -/
def move (disk : Disk) (source target : Path) : Except FileFault Disk := do
  if !source.isValid || !target.isValid then throw .nullByte
  disk.requireAbove source
  disk.requireAbove target
  if !endsInName source || !endsInName target then throw .busy
  let sourcePlace ← disk.place source
  match disk.entryAt? sourcePlace with
  | none => throw .notFound
  | some entry =>
    let targetPlace ← disk.place target
    if sourcePlace = targetPlace then return disk
    if sourcePlace.isPrefixOf targetPlace then throw .invalid
    if targetPlace.isPrefixOf sourcePlace then throw .notEmpty
    match entry, disk.entryAt? targetPlace with
    | .folder, some (.file _ _) => throw .notFolder
    | .file _ _, some .folder => throw .isFolder
    | .folder, some .folder =>
      if (disk.below targetPlace).isEmpty then return disk.moveAt sourcePlace targetPlace
      else throw .notEmpty
    | _, _ => return disk.moveAt sourcePlace targetPlace

end Disk

end DocComponents
