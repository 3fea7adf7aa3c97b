import DocComponents.Archive.Gzip
import DocComponents.Data.Json
import DocComponents.Data.Table
import DocComponents.File.Action
import DocComponents.Log.Logger
import DocComponents.SortedMap

/-!
# Journals

A journal is the file in which log entries are kept, one line of JSON for each, with the fields in
the order of their names. Entries below the journal's threshold are left out, and the file is made
when the first line is written. An old journal is packed away.
-/

set_option autoImplicit false

namespace DocComponents

structure Journal where
  path : Path
  /-- The number of the least level that is kept. -/
  threshold : Nat
  deriving DecidableEq, Repr

namespace Journal

def fileName : Text := "mdcomponents.log".toList

inductive Fault where
  | level (fault : Log.UnsupportedLevel)
  | home (fault : Path.HomeFault)
  | file (fault : PathFault)
  deriving DecidableEq

def Fault.message : Fault → Text
  | .level fault => fault.message
  | .home fault => fault.message
  | .file fault => fault.message

/-- Opens the journal in a folder, which is made if it is missing. Its threshold is given as the
name of a level. -/
def openIn (home level : Text) (debug : Bool) (folder : Path) : DiskAction Fault Journal := do
  let threshold ← ExceptT.adapt .level (DiskAction.check fun _ => Log.threshold level debug)
  let expanded ← ExceptT.adapt .home (DiskAction.check fun _ => folder.expandHome home)
  let absolute ← ExceptT.adapt .file (DiskAction.check fun disk => disk.resolve expanded)
  ExceptT.adapt .file (DiskAction.makeFolders absolute)
  return { path := absolute ++ [fileName], threshold }

/-- Opens the journal in a folder, if one is named. The level is looked up in any case. -/
def openIn? (home level : Text) (debug : Bool) :
    (folder? : Option Path) → DiskAction Fault (Option Journal)
  | none => do
    let _ ← ExceptT.adapt .level (DiskAction.check fun _ => Log.threshold level debug)
    return none
  | some folder => some <$> openIn home level debug folder

mutual

def sortData : Data → Data
  | .list items => .list (sortItems items)
  | .table entries => .table (sortEntries entries).entries
  | value => value

def sortItems : List Data → List Data
  | [] => []
  | item :: rest => sortData item :: sortItems rest

def sortEntries : Table → SortedMap Text Data
  | [] => .empty
  | entry :: rest => insertSorted entry (sortEntries rest)

def insertSorted : Text × Data → SortedMap Text Data → SortedMap Text Data
  | (key, value), entries => entries.insert key (sortData value)

end

/-- The names of fields that are no part of a line: they would tell of a failure or of the calls
that led to the entry, or are taken by the journal itself. -/
def unwrittenFields : List Text :=
  ["exc_info".toList, "stack_info".toList, "_record".toList]

def line (time : Text) (entry : Log.Entry) : Text :=
  let own : Table :=
    [("event".toList, .text entry.event), ("level".toList, .text entry.level.name),
      ("timestamp".toList, .text time)]
  let written := entry.fields.filter fun field => !unwrittenFields.contains field.1
  Json.write .ascii (sortData (.table (Log.withContext written own))) ++ ['\n']

def kept (journal : Journal) (entries : List Log.Entry) : List Log.Entry :=
  entries.filter fun entry => journal.threshold ≤ entry.level.number

/-- The disk with entries written at the end of a journal. A journal that cannot be written loses
them. -/
def append (journal : Journal) (time : Text) (entries : List Log.Entry) (disk : Disk) : Disk :=
  let lines := (journal.kept entries).flatMap (line time)
  if lines.isEmpty then disk
  else
    let earlier := (disk.readBytes journal.path).toOption.getD []
    match disk.writeFile journal.path (earlier ++ Utf8.encode lines) with
    | .ok written => written
    | .error _ => disk

/-- Makes the entries of calls and keeps them in a journal, if there is one, up to the first call
that is refused. -/
def keepCalls (journal? : Option Journal) (time : Text) (logger : Log.Logger) :
    List Log.Call → DiskAction Log.ReservedField Unit
  | [] => pure ()
  | call :: rest => do
    let entry ← DiskAction.check fun _ => logger.entry call
    if let some journal := journal? then modify (journal.append time [entry])
    keepCalls journal? time logger rest

def pack (source target : Path) : DiskAction PathFault Unit := do
  let contents ← DiskAction.checkAt source (·.readBytes source)
  DiskAction.changeAt target fun disk => disk.writeFile target (Archive.Gzip.write contents)
  DiskAction.remove source

end Journal

end DocComponents
