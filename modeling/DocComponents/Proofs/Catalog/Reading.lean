import DocComponents.Proofs.Catalog.Update

/-! What loading and removing files does to a catalog: an update, and the time of the change is
noted or dropped. A file that cannot be read is passed over as a whole. The root stays. -/

set_option autoImplicit false

namespace DocComponents

theorem Definition.sourcePath_of_read? {content path : Text} {definition : Definition}
    (read : Definition.read? content path = some definition) : definition.sourcePath = path := by
  unfold Definition.read? at read
  split at read
  · cases read
  · dsimp only at read
    split at read
    · cases read
    · cases read
      rfl

/-- The text of a file that can be read, and the time of its last change. -/
def Disk.reading? (disk : Disk) (path : Path) : Option (Text × Int) :=
  match disk.readText path with
  | .error _ => none
  | .ok text => (disk.changeTime? path).map fun time => (text, time)

theorem Disk.exists_changeTime?_of_readText {disk : Disk} {path : Path} {text : Text}
    (read : disk.readText path = .ok text) :
    path.isValid = true ∧ ∃ time, disk.changeTime? path = some time := by
  cases located : disk.place path with
  | error fault =>
      simp [readText, readBytes, located, bind, Except.bind] at read
  | ok place =>
      have valid : path.isValid = true := by
        cases valid : path.isValid with
        | true => rfl
        | false => simp [Disk.place, valid] at located
      refine ⟨valid, ?_⟩
      simp only [readText, readBytes, located, bind, Except.bind] at read
      cases stands : disk.entryAt? place with
      | none => simp [stands] at read
      | some found =>
          cases found with
          | folder => simp [stands] at read
          | file contents changed =>
              exact ⟨changed, by simp [changeTime?, entry?, located, stands, Except.toOption]⟩

/-- A text that can be read has a time of change, so reading fails with the text only. -/
theorem Disk.reading?_of_readText {disk : Disk} {path : Path} {text : Text}
    (read : disk.readText path = .ok text) :
    ∃ time, disk.reading? path = some (text, time) ∧ disk.changeTime? path = some time := by
  obtain ⟨-, time, changed⟩ := exists_changeTime?_of_readText read
  exact ⟨time, by rw [reading?, read]; simp [changed], changed⟩

theorem Disk.changeTime?_of_reading? {disk : Disk} {path : Path} {found : Text × Int}
    (read : disk.reading? path = some found) : disk.changeTime? path = some found.2 := by
  unfold reading? at read
  split at read
  · cases read
  · obtain ⟨time, changed, rfl⟩ := Option.map_eq_some_iff.mp read
    exact changed

namespace Catalog

def take (catalog : Catalog) (path : Path) (text : Text) (time : Int) : Catalog :=
  (catalog.update path (Definition.read? text path.toText)).noteTime path time

theorem accept_ok (catalog : Catalog) (path : Path) (text : Text) (time : Int) :
    (catalog.accept path (.ok text) (.ok time)).catalog = catalog.take path text time := by
  unfold accept take
  dsimp only
  split
  · next unread => rw [unread]; rfl
  · next definition found => rw [found]; rfl

/-- Loading a file takes it as it is, or changes nothing. -/
theorem catalog_loadFile (catalog : Catalog) (disk : Disk) (path : Path) :
    (catalog.loadFile disk path).catalog =
      match disk.reading? path with
      | none => catalog
      | some (text, time) => catalog.take path text time := by
  cases read : disk.readText path with
  | error fault =>
      have failed : disk.reading? path = none := by rw [Disk.reading?, read]
      rw [failed, loadFile, read]
      split <;> rfl
  | ok text =>
      obtain ⟨time, found, changed⟩ := Disk.reading?_of_readText read
      have valid := (Disk.exists_changeTime?_of_readText read).1
      rw [found, loadFile, if_pos valid, read, timeOf, changed]
      exact accept_ok catalog path text time

theorem catalog_removePath (catalog : Catalog) (path : Path) (written : Text) :
    (catalog.removePath path written).catalog =
      { catalog.update path none with times := catalog.times.erase path } := by
  rw [← times_update catalog path none]
  rfl

theorem times_loadFile (catalog : Catalog) (disk : Disk) (path other : Path) :
    (catalog.loadFile disk path).catalog.times.get? other =
      if other = path then ((disk.reading? path).map Prod.snd).or (catalog.times.get? other)
      else catalog.times.get? other := by
  rw [catalog_loadFile]
  cases read : disk.reading? path with
  | none => simp
  | some found =>
      have noted : (catalog.take path found.1 found.2).times =
          catalog.times.insert path found.2 :=
        congrArg (·.insert path found.2) (times_update catalog path _)
      dsimp only
      rw [noted, SortedMap.get?_insert]
      rfl

theorem root_loadFile (catalog : Catalog) (disk : Disk) (path : Path) :
    (catalog.loadFile disk path).catalog.root = catalog.root := by
  rw [catalog_loadFile]
  split
  · rfl
  · exact root_update catalog path _

theorem times_removePath (catalog : Catalog) (path other : Path) (written : Text) :
    (catalog.removePath path written).catalog.times.get? other =
      if other = path then none else catalog.times.get? other := by
  rw [catalog_removePath, SortedMap.get?_erase]

theorem root_removePath (catalog : Catalog) (path : Path) (written : Text) :
    (catalog.removePath path written).catalog.root = catalog.root := by
  rw [catalog_removePath]
  exact root_update catalog path none

theorem times_loadFiles (disk : Disk) (paths : List Path) (catalog : Catalog) (path : Path) :
    (loadFiles disk paths catalog).catalog.times.get? path =
      if path ∈ paths then ((disk.reading? path).map Prod.snd).or (catalog.times.get? path)
      else catalog.times.get? path := by
  induction paths generalizing catalog with
  | nil => simp [loadFiles]
  | cons first rest ih =>
      refine (ih _).trans ?_
      rw [times_loadFile]
      by_cases here : path = first
      · subst here
        cases read : disk.reading? path <;> simp
      · simp [here]

theorem root_loadFiles (disk : Disk) (paths : List Path) (catalog : Catalog) :
    (loadFiles disk paths catalog).catalog.root = catalog.root := by
  induction paths generalizing catalog with
  | nil => rfl
  | cons path rest ih => exact (ih _).trans (root_loadFile catalog disk path)

theorem times_removePaths (paths : List Path) (catalog : Catalog) (path : Path) :
    (removePaths paths catalog).catalog.times.get? path =
      if path ∈ paths then none else catalog.times.get? path := by
  induction paths generalizing catalog with
  | nil => simp [removePaths]
  | cons first rest ih =>
      refine (ih _).trans ?_
      rw [times_removePath]
      by_cases here : path = first
      · simp [here]
      · simp [here]

theorem root_removePaths (paths : List Path) (catalog : Catalog) :
    (removePaths paths catalog).catalog.root = catalog.root := by
  induction paths generalizing catalog with
  | nil => rfl
  | cons path rest ih => exact (ih _).trans (root_removePath catalog path _)

theorem root_refresh (catalog : Catalog) (disk : Disk) :
    (catalog.refresh disk).catalog.root = catalog.root := by
  unfold refresh
  split
  · rfl
  · exact root_removePaths _ _
  · exact (root_loadFiles disk _ _).trans (root_removePaths _ _)

theorem folder?_eq_some_iff {catalog : Catalog} {disk : Disk} {folder : Path} :
    catalog.folder? disk = .ok (some folder) ↔
      catalog.root = some folder ∧ disk.isFolder folder = .ok true := by
  constructor
  · intro found
    unfold folder? at found
    split at found
    · cases found
    · next root known =>
        cases isFolder : disk.isFolder root with
        | error fault => simp [isFolder, Except.map] at found
        | ok answer =>
            cases answer with
            | false => simp [isFolder, Except.map] at found
            | true =>
                have same : root = folder := by simpa [isFolder, Except.map] using found
                exact ⟨known.trans (congrArg some same), same ▸ isFolder⟩
  · intro rooted
    obtain ⟨known, isFolder⟩ := rooted
    simp [folder?, known, isFolder, Except.map]

theorem root_of_folder? {catalog : Catalog} {disk : Disk} {folder : Path}
    (found : catalog.folder? disk = .ok (some folder)) : catalog.root = some folder :=
  (folder?_eq_some_iff.mp found).1

end Catalog

end DocComponents
