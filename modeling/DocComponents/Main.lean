import DocComponents.Cli.Reach
import Std.Time.DateTime

/-!
# The program

The outer layer of the command line. The folders and files that a run may read are read into a disk,
the run is made on that disk, and what it changed is written back.
-/

set_option autoImplicit false

namespace DocComponents.Program

def located (place : List Text) := do
  return (← IO.currentDir) / String.ofList (Path.toText (['/'] :: place))

def placeOf (disk : Disk) (path : Path) : List Text :=
  (disk.absolute path).tail

/-- The disk with what stands at a place, and whether that is a folder. -/
def readEntry (disk : Disk) (place : List Text) : IO (Disk × Bool) := do
  let path ← located place
  if place.isEmpty then return (disk, true)
  if !(← path.pathExists) then return (disk, false)
  if ← path.isDir then
    return (disk.put place .folder, true)
  let contents := (← IO.FS.readBinFile path).toList
  let changed := (← path.metadata).modified
  return (disk.put place (.file contents changed.sec), false)

/-- The disk with what stands at a place and with the folders above it. -/
def readPlace (disk : Disk) (place : List Text) : IO (Disk × Bool) :=
  ((List.range place.length).map fun count => place.take (count + 1)).foldlM
    (fun reading above => readEntry reading.1 above) (disk, true)

partial def readTree (disk : Disk) (place : List Text) : IO Disk := do
  let (disk, isFolder) ← readPlace disk place
  if !isFolder then return disk
  let inside ← (← located place).readDir
  inside.foldlM (fun disk entry => readTree disk (place ++ [entry.fileName.toList])) disk

/-- Write back what differs between two disks: first what is gone, from the inside out, then what is
new or changed. -/
def writeBack (before after : Disk) : IO Unit := do
  let stays (place : List Text) (entry : Entry) : Bool :=
    match entry, after.entries.get? place with
    | .folder, some .folder => true
    | .file _ _, some (.file _ _) => true
    | _, _ => false
  for (place, entry) in before.entries.entries.reverse do
    if !stays place entry then
      let path ← located place
      match entry with
      | .folder => IO.FS.removeDir path
      | .file _ _ => IO.FS.removeFile path
  for (place, entry) in after.entries.entries do
    if before.entries.get? place != some entry then
      let path ← located place
      match entry with
      | .folder => IO.FS.createDirAll path
      | .file contents _ => IO.FS.writeBinFile path ⟨contents.toArray⟩

def digits (width : Nat) (number : Int) : Text :=
  let written := Text.ofInt number
  List.replicate (width - written.length) '0' ++ written

/-- The present moment in universal time: in seconds since the beginning of 1970, as archives and as
log entries write it. -/
def now : IO (Int × Text × Text) := do
  let present ← Std.Time.Timestamp.now
  let moment := Std.Time.DateTime.ofTimestampWithZone present .UTC
  let day := [digits 4 moment.year.toInt, digits 2 moment.month.val, digits 2 moment.day.val]
  let time := [digits 2 moment.hour.val, digits 2 moment.minute.val, digits 2 moment.second.val]
  return (present.toSecondsSinceUnixEpoch.val, day.flatten ++ '-' :: time.flatten,
    Text.join ['-'] day ++ 'T' :: Text.join [':'] time ++ ['Z'])

def environment : IO Environment := do
  let names := [Cli.homeVariable, Config.workspaceVariable, Config.logLevelVariable]
  let values ← names.mapM fun name => do
    return (← IO.getEnv (String.ofList name)).map fun value => (name, value.toList)
  return values.filterMap id

def layOut (title : Text) (rows : List (List Text)) : Text :=
  let columns := (rows.map List.length).foldl max 0
  let width (column : Nat) : Nat :=
    (rows.map fun row => ((row[column]?).getD []).length).foldl max 0
  let cell (column : Nat) (row : List Text) : Text :=
    let text := (row[column]?).getD []
    text ++ List.replicate (width column - text.length) ' '
  let line (row : List Text) : Text :=
    Text.trimEnd (· == ' ') (Text.join [' ', ' '] ((List.range columns).map (cell · row))) ++ ['\n']
  title ++ '\n' :: rows.flatMap line

def printed : Cli.Output → Text
  | .text text => text
  | .table title rows => layOut title rows

def run (words : List Text) : IO UInt32 := do
  let (present, stamp, time) ← now
  let seed := (← IO.getRandomBytes 3).foldl (fun seed byte => seed * 256 + byte.toNat) 0
  let surroundings : Cli.Surroundings :=
    { environment := ← environment
      stamp
      time
      tokens := fun number => (seed + number) % 0x1000000 }
  let here := placeOf {} (Path.ofText (← IO.currentDir).toString.toList)
  let start := (← readPlace { current := here, now := present } here).1
  let named ← (Cli.pathsNamed words).foldlM
    (fun disk path => return (← readPlace disk (placeOf disk path)).1) start
  let layout? := Cli.layoutOf? surroundings words named
  let withWorkspace ← layout?.toList.foldlM
    (fun disk layout => readTree disk (placeOf disk layout.workspace)) named
  let definitions? := layout?.bind (Cli.definitionsOf? surroundings · withWorkspace)
  let disk ← definitions?.toList.foldlM
    (fun disk folder => readTree disk (placeOf disk folder)) withWorkspace
  let (outcome, changed, _) := Cli.run surroundings words disk
  writeBack disk changed
  IO.print (String.ofList (outcome.output.flatMap printed))
  for warning in outcome.warnings do
    IO.eprintln (String.ofList warning)
  if outcome.status = 2 then IO.eprint (String.ofList Cli.usage)
  if let some crash := outcome.crash? then IO.eprintln (String.ofList crash.message)
  return UInt32.ofNat outcome.status

end DocComponents.Program

def main (words : List String) : IO UInt32 :=
  DocComponents.Program.run (words.map String.toList)
