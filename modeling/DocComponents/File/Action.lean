import DocComponents.File.Disk

/-!
# Work on disks

An action reads and changes a disk and answers a result or a fault. What it did before a fault stays
done.
-/

set_option autoImplicit false

namespace DocComponents

abbrev DiskAction (Fault Result : Type) : Type := ExceptT Fault (StateM Disk) Result

namespace DiskAction

variable {Fault Result : Type}

/-- A change of the disk together with a result, or a fault that leaves the disk as it is. -/
def attempt (change : Disk → Except Fault (Disk × Result)) : DiskAction Fault Result := fun disk =>
  match change disk with
  | .ok (changed, result) => (.ok result, changed)
  | .error fault => (.error fault, disk)

/-- A change of the disk, or a fault that leaves it as it is. -/
def change (step : Disk → Except Fault Disk) : DiskAction Fault Unit :=
  attempt fun disk => (step disk).map fun changed => (changed, ())

def check (read : Disk → Except Fault Result) : DiskAction Fault Result := fun disk =>
  (read disk, disk)

def changeAt (path : Path) (step : Disk → Except FileFault Disk) : DiskAction PathFault Unit :=
  change fun disk => (step disk).mapError fun fault => { fault, path }

def checkAt (path : Path) (read : Disk → Except FileFault Result) : DiskAction PathFault Result :=
  check fun disk => (read disk).mapError fun fault => { fault, path }

def pathExists (path : Path) : DiskAction PathFault Bool :=
  checkAt path fun disk => disk.pathExists path

def isFolder (path : Path) : DiskAction PathFault Bool :=
  checkAt path fun disk => disk.isFolder path

/-- Makes a folder in a folder that is there, unless there is a folder already. -/
def ensureFolder (path : Path) : DiskAction PathFault Unit :=
  tryCatch (changeAt path fun disk => disk.makeFolder path) fun fault => do
    if !(← isFolder path) then throw fault

/-- Makes the folder whose path has the given parts, the last one first, and the folders above it. A
folder is made when something is missing above the next one, so double dots count as names. -/
def makeFoldersUpTo : (backwards : List Text) → DiskAction PathFault Unit
  | [] => ensureFolder []
  | part :: above =>
    let path := (part :: above).reverse
    tryCatch (ensureFolder path) fun fault => do
      if fault.fault != .notFound || Path.isRoot part then throw fault
      makeFoldersUpTo above
      ensureFolder path

def makeFolders (path : Path) : DiskAction PathFault Unit :=
  makeFoldersUpTo path.reverse

/-- Takes away what stands at a path, after all that is below it. A folder that is not told by its
name loses its contents only. -/
def remove (path : Path) : DiskAction PathFault Unit := do
  if ← isFolder path then changeAt path fun disk => disk.emptyFolder path
  changeAt path fun disk => disk.remove path

def move (source target : Path) : DiskAction PathFault Unit :=
  changeAt source fun disk => disk.move source target

def writeText (path : Path) (text : Text) : DiskAction PathFault Unit :=
  changeAt path fun disk => disk.writeText path text

/-- Writes files into a folder, except those that are there, and answers the paths of those that it
wrote. -/
def writeMissing (folder : Path) : (files : List (Text × Text)) → DiskAction PathFault (List Path)
  | [] => pure []
  | file :: rest => do
    if ← pathExists (folder ++ [file.1]) then writeMissing folder rest
    else
      writeText (folder ++ [file.1]) file.2
      return (folder ++ [file.1]) :: (← writeMissing folder rest)

end DiskAction

end DocComponents
