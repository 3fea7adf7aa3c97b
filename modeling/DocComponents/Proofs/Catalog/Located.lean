import DocComponents.Proofs.Catalog.History
import DocComponents.Proofs.Catalog.Updates
import DocComponents.Proofs.File.Scan

/-! Catalogs of files that can be told by their texts. A history keeps to such paths when the paths
that it names are written paths and the disks hold names that can be parts of paths. -/

set_option autoImplicit false

namespace DocComponents.Catalog

def Operation.paths : Operation → List Path
  | .loadFile path => [path]
  | .loadDirectory root => root.toList
  | .removePath path => [path]
  | .rename source target => [source, target]
  | .refresh | .unregister _ | .clear | .register _ _ => []

/-- A history of files as they can be: written paths, and disks with names for their files. -/
def History.IsWritten (history : History) : Prop :=
  ∀ event ∈ history, event.1.WellNamed ∧ ∀ path ∈ event.2.paths, path.IsWritten

instance (history : History) : Decidable history.IsWritten :=
  inferInstanceAs (Decidable
    (∀ event ∈ history, event.1.WellNamed ∧ ∀ path ∈ event.2.paths, path.IsWritten))

/-- A catalog whose root and whose files have written paths. -/
structure Located (catalog : Catalog) : Prop where
  root : ∀ path, catalog.root = some path → path.IsWritten
  times : ∀ path time, catalog.times.get? path = some time → path.IsWritten

variable {catalog : Catalog} {disk : Disk}

theorem Located.loadFile (located : Located catalog) (disk : Disk) {path : Path}
    (written : path.IsWritten) : Located (catalog.loadFile disk path).catalog where
  root := by
    rw [root_loadFile]
    exact located.root
  times := by
    intro other time found
    rw [times_loadFile] at found
    split at found
    · next same => exact same ▸ written
    · exact located.times other time found

theorem Located.loadFiles (located : Located catalog) (disk : Disk) {paths : List Path}
    (written : ∀ path ∈ paths, path.IsWritten) :
    Located (Catalog.loadFiles disk paths catalog).catalog := by
  induction paths generalizing catalog with
  | nil => exact located
  | cons path rest ih =>
      exact ih (located.loadFile disk (written path List.mem_cons_self))
        fun other member => written other (List.mem_cons_of_mem _ member)

theorem Located.removePath (located : Located catalog) (path : Path) (text : Text) :
    Located (catalog.removePath path text).catalog where
  root := by
    rw [root_removePath]
    exact located.root
  times := by
    intro other time found
    rw [times_removePath] at found
    split at found
    · cases found
    · exact located.times other time found

theorem Located.removePaths (located : Located catalog) (paths : List Path) :
    Located (Catalog.removePaths paths catalog).catalog := by
  induction paths generalizing catalog with
  | nil => exact located
  | cons path rest ih => exact ih (located.removePath path _)

theorem isWritten_of_mem_scan (named : disk.WellNamed) {folder : Path}
    (written : folder.IsWritten) {path : Path} (member : path ∈ scan disk folder) :
    path.IsWritten :=
  named.isWritten_of_mem_filesBelow written member

theorem Located.refresh (located : Located catalog) (named : disk.WellNamed) :
    Located (catalog.refresh disk).catalog := by
  unfold Catalog.refresh
  split
  · exact located
  · exact located.removePaths _
  · next folder found =>
      refine (located.removePaths _).loadFiles disk ?_
      intro path member
      exact isWritten_of_mem_scan named (located.root folder (root_of_folder? found))
        (List.mem_filter.mp member).1

theorem Located.loadDirectory (located : Located catalog) (named : disk.WellNamed)
    {root : Option Path} (written : ∀ path ∈ root.toList, path.IsWritten) :
    Located (catalog.loadDirectory disk root).catalog := by
  have emptied : Located ({ catalog with root := root.or catalog.root } : Catalog).clear := by
    refine ⟨?_, by simp [clear]⟩
    intro path known
    cases root with
    | none => exact located.root path known
    | some folder => exact written path (by simpa [clear, eq_comm] using known)
  unfold Catalog.loadDirectory
  dsimp only
  split
  · exact emptied
  · exact emptied
  · next folder found =>
      refine emptied.loadFiles disk ?_
      intro path member
      exact isWritten_of_mem_scan named (emptied.root folder (root_of_folder? found)) member

theorem Located.unregister (located : Located catalog) (name : Text) :
    Located (catalog.unregister name).catalog where
  root := located.root
  times := by
    intro path time found
    exact located.times path time ((SortedMap.get?_filter_eq_some_iff _ _ _ _).mp found).1

theorem Located.run (located : Located catalog) (named : disk.WellNamed) {operation : Operation}
    (written : ∀ path ∈ operation.paths, path.IsWritten) :
    Located (operation.run disk catalog) := by
  cases operation with
  | loadFile path => exact located.loadFile disk (written path (by simp [Operation.paths]))
  | loadDirectory root => exact located.loadDirectory named written
  | refresh => exact located.refresh named
  | removePath path => exact located.removePath path _
  | rename source target =>
      have removed := located.removePath source source.toText
      unfold Operation.run Catalog.rename
      dsimp only
      split
      · exact removed.loadFile disk (written target (by simp [Operation.paths]))
      · exact removed
  | unregister name => exact located.unregister name
  | clear => exact ⟨located.root, by simp [Operation.run, clear]⟩
  | register definition made => exact ⟨located.root, located.times⟩

theorem Located.history (located : Located catalog) {history : History}
    (written : history.IsWritten) : Located (history.run catalog) := by
  induction history generalizing catalog with
  | nil => exact located
  | cons event rest ih =>
      obtain ⟨named, paths⟩ := written event List.mem_cons_self
      exact ih (located.run named paths) fun later member =>
        written later (List.mem_cons_of_mem _ member)

theorem InOrder.sourced (inOrder : InOrder (fun definition => definition.sourcePath = []) catalog)
    (located : Located catalog) : Sourced catalog where
  toConsistent := inOrder.toConsistent
  written := by
    intro path definition given
    obtain ⟨time, noted⟩ := inOrder.timed path definition given
    exact located.times path time noted

theorem located_empty {root : Option Path} (written : ∀ path, root = some path → path.IsWritten) :
    Located { root } :=
  ⟨written, by simp⟩

/-- Every catalog that such a history leads to can tell its files. -/
theorem sourced_of_history {root : Option Path} {history : History}
    (rootWritten : ∀ path, root = some path → path.IsWritten) (written : history.IsWritten) :
    Sourced (history.run { root }) ∧ Located (history.run { root }) := by
  have located := (located_empty rootWritten).history written
  have inOrder : InOrder (fun definition => definition.sourcePath = []) (history.run { root }) := by
    refine (inOrder_empty root).history history ?_
    intro definition registers
    obtain ⟨disk, made, -⟩ := registers
    exact made
  exact ⟨inOrder.sourced located, located⟩

end DocComponents.Catalog
