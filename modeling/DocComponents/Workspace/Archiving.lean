import DocComponents.Archive.Zip
import DocComponents.File.Action
import DocComponents.Workspace.Layout

/-!
# Archiving a workspace

Before a workspace is made anew, everything in it except the archives is put into a new archive, in
path order, and taken away from its place. An archive never takes the name of another one. It tells
when each file was changed, so a file whose time cannot be told ends it early, as a path does that is
too long to be looked at; then nothing is taken away.
-/

set_option autoImplicit false

namespace DocComponents.Layout

inductive ArchiveFault where
  /-- The workspace is something else than a folder. -/
  | notFolder (workspace : Path)
  | file (fault : PathFault)
  /-- Something was changed at a moment that an archive cannot tell. -/
  | time (fault : Archive.Timestamp.Fault)
  deriving DecidableEq, Repr

def ArchiveFault.message : ArchiveFault → Text
  | .notFolder workspace =>
    "Workspace path '".toList ++ workspace.toText ++ "' exists but is not a directory.".toList
  | .file fault => fault.message
  | .time fault => fault.message

/-- The moment that an archive tells for what stands at a place: that of the last change of a file,
and the present one for a folder. -/
def moment (now : Int) : Entry → Int
  | .folder => now
  | .file _ changed => changed

/-- What stands at a place, seen from the workspace, as a member of an archive. It is looked at by
its whole path first. -/
def member (workspace : Path) (now : Int) (rest : List Text) (entry : Entry) :
    Except ArchiveFault Archive.Zip.Member :=
  if Disk.isTooLong (workspace ++ rest).toText Disk.longestPath then
    .error (.file { fault := .nameTooLong, path := workspace ++ rest })
  else
    match Archive.Timestamp.ofSeconds (moment now entry) with
    | .error fault => .error (.time fault)
    | .ok changed =>
      match entry with
      | .folder => .ok { name := Text.join ['/'] rest ++ ['/'], changed }
      | .file contents _ => .ok { name := Text.join ['/'] rest, contents, changed }

/-- What stands at places as members of an archive, up to the first one that cannot be told. -/
def membersOf (workspace : Path) (now : Int) :
    List (List Text × Entry) → List Archive.Zip.Member × Option ArchiveFault
  | [] => ([], none)
  | (rest, entry) :: others =>
    match member workspace now rest entry with
    | .error fault => ([], some fault)
    | .ok first =>
      let (members, fault?) := membersOf workspace now others
      (first :: members, fault?)

def isKept (rest : List Text) : Bool :=
  rest.head? = some archivesName

def archivedBelow (disk : Disk) (place : List Text) : List (List Text × Entry) :=
  (disk.below place).filter fun entry => !isKept entry.1

/-- The disk without what an archive holds of what stands below a place. -/
def clearBelow (disk : Disk) (place : List Text) : Disk :=
  { disk with
    entries := disk.entries.filter fun other _ =>
      !(place.isPrefixOf other && place.length < other.length) || isKept (other.drop place.length) }

/-- The name of an archive: a stamp, and a number if the stamp is taken. -/
def archiveName (stamp : Text) (number : Nat) : Text :=
  let digits := Text.ofNat number
  stamp ++ (if number = 0 then [] else '-' :: List.replicate (2 - digits.length) '0' ++ digits) ++
    ".zip".toList

/-- The first path for an archive from a number on at which nothing stands. With more tries than the
disk has entries there always is one. -/
def freeArchive (disk : Disk) (folder : Path) (stamp : Text) : (tries number : Nat) → Path
  | 0, number => folder ++ [archiveName stamp number]
  | tries + 1, number =>
    if (disk.entry? (folder ++ [archiveName stamp number])).isSome then
      freeArchive disk folder stamp tries (number + 1)
    else folder ++ [archiveName stamp number]

/-- Archives the contents of the workspace under a stamp, and answers the archive, if there was
anything to archive. A folder of archives that would stay empty is taken away. -/
def archive (layout : Layout) (stamp : Text) : DiskAction ArchiveFault (Option Path) := do
  if !(← ExceptT.adapt .file (DiskAction.pathExists layout.workspace)) then return none
  if !(← ExceptT.adapt .file (DiskAction.isFolder layout.workspace)) then
    throw (.notFolder layout.workspace)
  ExceptT.adapt .file (DiskAction.makeFolders layout.archives)
  let disk ← get
  let place ← ExceptT.adapt .file (DiskAction.checkAt layout.workspace (·.place layout.workspace))
  let entries := archivedBelow disk place
  if entries.isEmpty then
    if (disk.below (place ++ [archivesName])).isEmpty then
      set (disk.removeAt (place ++ [archivesName]))
    return none
  else
    let path := freeArchive disk layout.archives stamp (disk.entries.size + 1) 0
    let (members, fault?) := membersOf layout.workspace disk.now entries
    ExceptT.adapt .file (DiskAction.changeAt path (·.writeFile path (Archive.Zip.write members)))
    match fault? with
    | some fault => throw fault
    | none =>
      modify (clearBelow · place)
      return some path

end DocComponents.Layout
