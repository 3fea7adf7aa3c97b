import DocComponents.Proofs.Catalog.Restart

/-!
# Folders in which every name has one file

Two catalogs that know the same files can register different definitions of a name, since the last
file that claims a name and the file that was loaded last need not be one. Where no two files of a
folder define one name, there is only one catalog that knows its files.
-/

set_option autoImplicit false

namespace DocComponents.Catalog

variable {catalog : Catalog} {disk : Disk} {folder : Path}

def given? (disk : Disk) (folder path : Path) : Option Definition :=
  (seen? disk folder path).bind fun found => Definition.read? found.1 path.toText

/-- No two files of a folder define one name. -/
def IsUnambiguous (folder : Path) (disk : Disk) : Prop :=
  ∀ path ∈ listed disk folder, ∀ other ∈ listed disk folder,
    (given? disk folder path).isSome = true →
      (given? disk folder path).map Definition.name =
        (given? disk folder other).map Definition.name →
      path = other

instance (folder : Path) : DecidablePred (IsUnambiguous folder) := fun disk =>
  inferInstanceAs (Decidable (∀ path ∈ listed disk folder, ∀ other ∈ listed disk folder,
    (given? disk folder path).isSome = true →
      (given? disk folder path).map Definition.name =
        (given? disk folder other).map Definition.name →
      path = other))

theorem mem_listed_of_given? {path : Path} {definition : Definition}
    (given : given? disk folder path = some definition) : path ∈ listed disk folder := by
  obtain ⟨found, seen, -⟩ := Option.bind_eq_some_iff.mp given
  exact (Option.ite_none_right_eq_some.mp seen).1

theorem IsUnambiguous.path_eq (unambiguous : IsUnambiguous folder disk) {path other : Path}
    {definition claim : Definition} (given : given? disk folder path = some definition)
    (claimed : given? disk folder other = some claim) (sameName : definition.name = claim.name) :
    path = other := by
  refine unambiguous path (mem_listed_of_given? given) other (mem_listed_of_given? claimed) ?_ ?_
  · rw [given]
    rfl
  · rw [given, claimed, Option.map_some, Option.map_some, sameName]

/-- Where no two files define one name, a name stands for what its file gives. -/
theorem Knows.get?_eq_some_iff (knows : catalog.Knows folder (seen? disk folder))
    (unambiguous : IsUnambiguous folder disk) {name : Text} {definition : Definition} :
    catalog.get? name = some definition ↔
      definition.name = name ∧ ∃ path, given? disk folder path = some definition := by
  have origin {name : Text} {current : Definition} (registered : catalog.get? name = some current) :
      ∃ path, catalog.files.get? path = some current :=
    (knows.inOrder.origin name current registered).resolve_left id
  constructor
  · intro registered
    obtain ⟨path, given⟩ := origin registered
    exact ⟨knows.inOrder.named name definition registered, path,
      (knows.files path).symm.trans given⟩
  · rintro ⟨rfl, path, given⟩
    have inFile := (knows.files path).trans given
    -- The name is registered, though maybe for another file; then that file is this one.
    obtain ⟨current, registered⟩ := knows.inOrder.registered path definition inFile
    obtain ⟨other, claimed⟩ := origin registered
    have sameName := knows.inOrder.named definition.name current registered
    obtain rfl : path = other :=
      unambiguous.path_eq given ((knows.files other).symm.trans claimed) sameName.symm
    rw [registered, ← claimed, inFile]

/-- Where no two files define one name, there is one catalog that knows the files. -/
theorem Knows.eq {other : Catalog} (knows : catalog.Knows folder (seen? disk folder))
    (knowsToo : other.Knows folder (seen? disk folder)) (unambiguous : IsUnambiguous folder disk) :
    catalog = other := by
  have root : catalog.root = other.root := knows.root.trans knowsToo.root.symm
  have definitions : catalog.definitions = other.definitions :=
    SortedMap.eq_of_get?_eq fun name => Option.ext fun definition =>
      (knows.get?_eq_some_iff unambiguous).trans (knowsToo.get?_eq_some_iff unambiguous).symm
  have files : catalog.files = other.files :=
    SortedMap.eq_of_get?_eq fun path => (knows.files path).trans (knowsToo.files path).symm
  have times : catalog.times = other.times :=
    SortedMap.eq_of_get?_eq fun path => (knows.times path).trans (knowsToo.times path).symm
  cases catalog
  cases other
  rw [Catalog.mk.injEq]
  exact ⟨root, definitions, files, times⟩

theorem loadDirectory_of_fault (catalog : Catalog) {fault : FileFault}
    (stands : disk.isFolder folder = .error fault) :
    (catalog.loadDirectory disk (some folder)).catalog = { root := some folder } := by
  simp [loadDirectory, clear, folder?, stands, Except.map]

/-- A catalog that is filled from a folder knows its files, also where no folder can stand. -/
theorem knows_filled (catalog : Catalog) (written : folder.IsWritten) (named : disk.WellNamed)
    (readable : IsReadable folder disk) :
    Knows (catalog.loadDirectory disk (some folder)).catalog folder (seen? disk folder) := by
  cases stands : disk.isFolder folder with
  | ok answer => exact knows_loadDirectory catalog written named readable ⟨answer, stands⟩
  | error fault =>
      have nothing : seen? disk folder = fun _ => none := by
        funext path
        simp [seen?, listed, stands]
      rw [nothing, loadDirectory_of_fault catalog stands]
      exact knows_empty written

theorem refresh_of_fault (root : catalog.root = some folder) {fault : FileFault}
    (stands : disk.isFolder folder = .error fault) :
    catalog.refresh disk = { catalog, result := .error fault } := by
  simp [refresh, folder?, root, stands, Except.map]

theorem exists_result_refresh (root : catalog.root = some folder) {answer : Bool}
    (stands : disk.isFolder folder = .ok answer) :
    ∃ changed, (catalog.refresh disk).result = .ok changed := by
  have found : catalog.folder? disk = .ok (if answer then some folder else none) := by
    rw [folder?, root]
    dsimp only
    rw [stands]
    rfl
  unfold refresh
  rw [found]
  cases answer with
  | true => exact ⟨_, rfl⟩
  | false => exact ⟨_, rfl⟩

end DocComponents.Catalog
