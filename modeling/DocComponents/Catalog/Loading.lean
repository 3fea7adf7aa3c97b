import DocComponents.Catalog.Basic
import DocComponents.Definition.Reader
import DocComponents.File.Disk

/-!
# Loading catalogs from files

A catalog is filled from the markdown files below its root, and follows their changes: file by file
as events tell of them, or all at once by comparing the times of the last changes. A file that
cannot be read is passed over; a file that no longer declares a component loses the one it declared.
Only a path that no file or folder can have is refused.
-/

set_option autoImplicit false

namespace DocComponents.Catalog

def pathField (path : Path) : Text × Data :=
  ("path".toList, .text path.toText)

def noteTime (catalog : Catalog) (path : Path) (time : Int) : Catalog :=
  { catalog with times := catalog.times.insert path time }

/-- The catalog after a file was read: its text, or why it could not be read, and the time of its
change. The text and the time are two readings, between which the file may change. -/
def accept (catalog : Catalog) (path : Path) (content : Except ReadFault Text)
    (time : Except ReadFault Int) : Step (Option Definition) :=
  let failed (fault : ReadFault) : Step (Option Definition) :=
    { catalog
      result := none
      log :=
        [entry .warning "component-read-failed".toList
          [pathField path, ("error".toList, .text fault.message)]] }
  match content, time with
  | .error fault, _ => failed fault
  | .ok _, .error fault => failed fault
  | .ok text, .ok time =>
    match Definition.read? text path.toText with
    | none =>
      { catalog := (catalog.forget path).1.noteTime path time
        result := none
        log := [entry .info "component-skipped".toList [pathField path]] }
    | some definition =>
      let step := catalog.register definition (some path)
      { catalog := step.catalog.noteTime path time
        result := some definition
        log := step.log ++
          [entry .info "component-loaded".toList
            [("name".toList, .text definition.name), pathField path]] }

def timeOf (disk : Disk) (path : Path) : Except ReadFault Int :=
  match disk.changeTime? path with
  | some time => .ok time
  | none => .error (.file .notFound)

/-- The catalog with the component of a file loaded, or the refusal of a path that no file can
have. -/
def loadFile (catalog : Catalog) (disk : Disk) (path : Path) :
    Step (Except FileFault (Option Definition)) :=
  if path.isValid then (catalog.accept path (disk.readText path) (timeOf disk path)).map .ok
  else { catalog, result := .error .nullByte }

def loadFiles (disk : Disk) : (paths : List Path) → Catalog → Step Unit
  | [], catalog => { catalog, result := () }
  | path :: rest, catalog =>
    let first := catalog.loadFile disk path
    let others := loadFiles disk rest first.catalog
    { catalog := others.catalog, result := (), log := first.log ++ others.log }

/-- The markdown files below a folder, in path order. -/
def scan (disk : Disk) (folder : Path) : List Path :=
  disk.filesBelow folder Path.isMarkdown

def folder? (catalog : Catalog) (disk : Disk) : Except FileFault (Option Path) :=
  match catalog.root with
  | none => .ok none
  | some root => (disk.isFolder root).map fun isFolder => if isFolder then some root else none

/-- The catalog filled anew from the files below its root, or below another folder that becomes its
root. The answer is the number of registered components. -/
def loadDirectory (catalog : Catalog) (disk : Disk) (root : Option Path := none) :
    Step (Except FileFault Nat) :=
  let emptied := ({ catalog with root := root.or catalog.root } : Catalog).clear
  match emptied.folder? disk with
  | .error fault => { catalog := emptied, result := .error fault }
  | .ok none =>
    { catalog := emptied
      result := .ok 0
      log :=
        [entry .info "components-folder-missing".toList
          [("path".toList, (emptied.root.map fun path => Data.text path.toText).getD .null)]] }
  | .ok (some folder) =>
    let loaded := loadFiles disk (scan disk folder) emptied
    let count := loaded.catalog.definitions.size
    { catalog := loaded.catalog
      result := .ok count
      log := loaded.log ++
        [entry .info "components-loaded".toList
          [("count".toList, .integer count), pathField folder]] }

/-- The catalog without a file, and the name that the file defined. The log tells the path as the
caller writes it. -/
def removePath (catalog : Catalog) (path : Path) (written : Text := path.toText) :
    Step (Option Text) :=
  let (forgotten, name?) := catalog.forget path
  { catalog := { forgotten with times := forgotten.times.erase path }
    result := name?
    log :=
      match name? with
      | none => []
      | some name =>
        [entry .info "component-removed".toList
          [("name".toList, .text name), ("path".toList, .text written)]] }

def removePaths : (paths : List Path) → Catalog → Step Unit
  | [], catalog => { catalog, result := () }
  | path :: rest, catalog =>
    let first := catalog.removePath path
    let others := removePaths rest first.catalog
    { catalog := others.catalog, result := (), log := first.log ++ others.log }

/-- The catalog after a file was moved: the old path is forgotten, and a markdown file is loaded
from the new one. -/
def rename (catalog : Catalog) (disk : Disk) (source target : Path) :
    Step (Except FileFault (Option Definition)) :=
  let removed := catalog.removePath source
  if target.isMarkdown then
    let loaded := removed.catalog.loadFile disk target
    { loaded with log := removed.log ++ loaded.log }
  else { catalog := removed.catalog, result := .ok none, log := removed.log }

/-- The files whose times are noted although a scan does not find them. They have no order of their
own: path order is chosen here. The order shows in the log alone, as the catalog that is left when
they are removed does not depend on it. -/
def gone (catalog : Catalog) (scanned : List Path) : List Path :=
  catalog.times.keys.filter fun path => !scanned.contains path

/-- The scanned files whose noted time is not that of their last change. -/
def changed (catalog : Catalog) (disk : Disk) (scanned : List Path) : List Path :=
  scanned.filter fun path => catalog.times.get? path != disk.changeTime? path

/-- The catalog brought up to date with the files below its root. The answer tells whether any file
was loaded or removed. The files that are gone are removed first, in the order chosen for `gone`;
then those that were changed are loaded, in the order of the scan. -/
def refresh (catalog : Catalog) (disk : Disk) : Step (Except FileFault Bool) :=
  match catalog.folder? disk with
  | .error fault => { catalog, result := .error fault }
  | .ok none =>
    let known := catalog.times.keys
    let removed := removePaths known catalog
    { catalog := removed.catalog, result := .ok !known.isEmpty, log := removed.log }
  | .ok (some folder) =>
    let scanned := scan disk folder
    let gone := catalog.gone scanned
    let changed := catalog.changed disk scanned
    let removed := removePaths gone catalog
    let loaded := loadFiles disk changed removed.catalog
    let any := !gone.isEmpty || !changed.isEmpty
    { catalog := loaded.catalog
      result := .ok any
      log := removed.log ++ loaded.log ++
        if any then
          [entry .debug "components-refreshed".toList
            [("count".toList, .integer loaded.catalog.definitions.size)]]
        else [] }

end DocComponents.Catalog
