import DocComponents.Proofs.Catalog.History
import DocComponents.Proofs.File.Change

/-!
# Following single files

A catalog can be told of each event of a file, or it can find out by a refresh. When the times that
it noted are those of the files, both make the same steps: a refresh finds nothing else to do than
what the event tells.
-/

set_option autoImplicit false

namespace DocComponents

inductive FileEvent where
  /-- A file is made, or its contents and its time change. -/
  | written (path : Path) (contents : Bytes) (changed : Int)
  | deleted (path : Path)
  | moved (source target : Path)
  deriving DecidableEq, Repr

namespace FileEvent

def paths : FileEvent → List Path
  | .written path _ _ => [path]
  | .deleted path => [path]
  | .moved source target => [source, target]

def happen (event : FileEvent) (disk : Disk) : Except FileFault Disk :=
  match event with
  | .written path contents changed => disk.writeFile path contents changed
  | .deleted path => disk.remove path
  | .moved source target => disk.move source target

/-- The events that are followed: a markdown file is made, or gets another time; a file is removed;
a file is moved to a path at which nothing stands. -/
def IsFollowed (event : FileEvent) (disk : Disk) : Prop :=
  match event with
  | .written path _ changed => path.isMarkdown = true ∧ disk.changeTime? path ≠ some changed
  | .deleted path => (disk.changeTime? path).isSome = true
  | .moved source target => (disk.changeTime? source).isSome = true ∧ disk.entry? target = none

instance (event : FileEvent) (disk : Disk) : Decidable (event.IsFollowed disk) := by
  cases event <;> unfold IsFollowed <;> infer_instance

end FileEvent

namespace Catalog

/-- The catalog told of an event. -/
def follow (catalog : Catalog) (event : FileEvent) (disk : Disk) : Catalog :=
  match event with
  | .written path _ _ => (catalog.loadFile disk path).catalog
  | .deleted path => (catalog.removePath path).catalog
  | .moved source target => (catalog.rename disk source target).catalog

/-- A catalog whose noted times are exactly those of the files below a folder, its root. -/
structure InSync (catalog : Catalog) (disk : Disk) (folder : Path) : Prop where
  root : catalog.root = some folder
  isFolder : disk.isFolder folder = .ok true
  times : ∀ path, catalog.times.get? path =
    if path ∈ scan disk folder then disk.changeTime? path else none

/-- The catalogs that operations lead to from an empty one, with any files at each of them. Any
definition can be registered in memory. -/
inductive Reachable : Catalog → Prop where
  | empty (root : Option Path) : Reachable { root }
  | run {catalog : Catalog} (reachable : Reachable catalog) (operation : Operation) (disk : Disk) :
      Reachable (operation.run disk catalog)
  | register {catalog : Catalog} (reachable : Reachable catalog) (definition : Definition) :
      Reachable (catalog.register definition).catalog

theorem Reachable.inOrder {catalog : Catalog} (reachable : Reachable catalog) :
    InOrder (fun _ => True) catalog := by
  induction reachable with
  | empty root => exact inOrder_empty root
  | run _ operation disk ih => exact ih.run operation disk fun _ _ _ => trivial
  | register _ definition ih => exact ih.register trivial

end Catalog

namespace Disk

variable {disk later : Disk} {folder path : Path} {place : List Text}
  {emptied? filled? : Option (List Text)}

theorem SameFolders.isFolder_eq_true (same : SameFolders later disk)
    (isFolder : disk.isFolder path = .ok true) : later.isFolder path = .ok true := by
  obtain ⟨place, located, stands⟩ := isFolder_eq_true_iff.mp isFolder
  exact isFolder_eq_true_iff.mpr
    ⟨place, (same.place_eq_ok_iff path).mpr located, (same.folder place).mpr stands⟩

theorem changeTime?_of_file {contents : Bytes} {changed : Int}
    (located : disk.place path = .ok place)
    (stands : disk.entryAt? place = some (.file contents changed)) :
    disk.changeTime? path = some changed := by
  rw [changeTime?, entry?_eq_some_iff.mpr ⟨place, located, stands⟩]

theorem exists_of_changeTime? (timed : (disk.changeTime? path).isSome = true) :
    ∃ place contents changed, disk.place path = .ok place ∧
      disk.entryAt? place = some (.file contents changed) := by
  unfold changeTime? at timed
  split at timed
  · next contents changed found =>
      obtain ⟨place, located, stands⟩ := entry?_eq_some_iff.mp found
      exact ⟨place, contents, changed, located, stands⟩
  · cases timed

theorem SameFolders.changeTime?_eq (same : SameFolders later disk)
    (stands : ∀ place, disk.place path = .ok place → later.entryAt? place = disk.entryAt? place) :
    later.changeTime? path = disk.changeTime? path := by
  have sameEntry : later.entry? path = disk.entry? path := by
    apply Option.ext
    intro entry
    rw [entry?_eq_some_iff, entry?_eq_some_iff]
    constructor
    · intro found
      obtain ⟨place, located, here⟩ := found
      have located := (same.place_eq_ok_iff path).mp located
      exact ⟨place, located, (stands place located).symm.trans here⟩
    · intro found
      obtain ⟨place, located, here⟩ := found
      exact ⟨place, (same.place_eq_ok_iff path).mpr located, (stands place located).trans here⟩
  rw [changeTime?, changeTime?, sameEntry]

private theorem map_append_eq_some_iff (start rest : List Text) (rest? : Option (List Text)) :
    rest?.map (start ++ ·) = some (start ++ rest) ↔ rest? = some rest := by
  cases rest? <;> simp

theorem Rewrites.mem_scan_iff
    (rewrites : Rewrites disk later (emptied?.map (place ++ ·)) (filled?.map (place ++ ·)))
    (located : disk.place folder = .ok place) (filledBelow : filled? ≠ some []) (path : Path) :
    path ∈ Catalog.scan later folder ↔
      path ∈ Catalog.scan disk folder ∧ emptied?.map (folder ++ ·) ≠ some path ∨
        path.isMarkdown = true ∧ filled?.map (folder ++ ·) = some path := by
  have locatedLater := (rewrites.sameFolders.place_eq_ok_iff folder).mpr located
  rw [Catalog.scan, Catalog.scan, mem_filesBelow_iff locatedLater, mem_filesBelow_iff located]
  constructor
  · intro scanned
    obtain ⟨isMarkdown, rest, contents, changed, rfl, notEmpty, stands⟩ := scanned
    rw [map_append_eq_some_iff, Ne, map_append_eq_some_iff]
    by_cases filled : filled? = some rest
    · exact .inr ⟨isMarkdown, filled⟩
    · have notEmptied : emptied? ≠ some rest := by
        intro emptied
        have gone := rewrites.emptied _ ((map_append_eq_some_iff place rest _).mpr emptied)
        cases gone.symm.trans stands
      rw [rewrites.others _ (by rwa [Ne, map_append_eq_some_iff])
        (by rwa [Ne, map_append_eq_some_iff])] at stands
      exact .inl ⟨⟨isMarkdown, rest, contents, changed, rfl, notEmpty, stands⟩, notEmptied⟩
  · intro found
    rcases found with ⟨⟨isMarkdown, rest, contents, changed, rfl, notEmpty, stands⟩, notEmptied⟩ |
      ⟨isMarkdown, filled⟩
    · refine ⟨isMarkdown, rest, ?_⟩
      rw [Ne, map_append_eq_some_iff] at notEmptied
      by_cases filled : filled? = some rest
      · obtain ⟨contents, changed, stands⟩ :=
          rewrites.filled _ ((map_append_eq_some_iff place rest _).mpr filled)
        exact ⟨contents, changed, rfl, notEmpty, stands⟩
      · refine ⟨contents, changed, rfl, notEmpty, ?_⟩
        rwa [rewrites.others _ (by rwa [Ne, map_append_eq_some_iff])
          (by rwa [Ne, map_append_eq_some_iff])]
    · obtain ⟨rest, known, rfl⟩ := Option.map_eq_some_iff.mp filled
      obtain ⟨contents, changed, stands⟩ :=
        rewrites.filled _ ((map_append_eq_some_iff place rest _).mpr known)
      have notEmpty : rest ≠ [] := by
        rintro rfl
        exact filledBelow known
      exact ⟨isMarkdown, rest, contents, changed, rfl, notEmpty, stands⟩

theorem Rewrites.changeTime?_eq
    (rewrites : Rewrites disk later (emptied?.map (place ++ ·)) (filled?.map (place ++ ·)))
    (tree : disk.IsTree) (located : disk.place folder = .ok place)
    (scanned : path ∈ Catalog.scan disk folder)
    (notEmptied : emptied?.map (folder ++ ·) ≠ some path)
    (notFilled : filled?.map (folder ++ ·) ≠ some path) :
    later.changeTime? path = disk.changeTime? path := by
  rw [Catalog.scan, mem_filesBelow_iff located] at scanned
  obtain ⟨-, rest, contents, changed, rfl, notEmpty, stands⟩ := scanned
  rw [Ne, map_append_eq_some_iff] at notEmptied notFilled
  refine rewrites.sameFolders.changeTime?_eq ?_
  intro reached found
  have names : ∀ part ∈ rest, Path.IsName part := fun part member =>
    tree.names _ _ stands part (List.mem_append_right _ member)
  rw [place_append_eq located names found, entryAt?_append later notEmpty,
    entryAt?_append disk notEmpty]
  exact rewrites.others _ (by rwa [Ne, map_append_eq_some_iff])
    (by rwa [Ne, map_append_eq_some_iff])

end Disk

namespace Catalog

variable {catalog : Catalog} {disk later : Disk} {folder : Path} {place : List Text}
  {emptied? filled? : Option (List Text)}

private theorem eq_toList_of_mem_iff {paths : List Path} {path? : Option Path}
    (sorted : paths.Pairwise fun left right => before left right = true)
    (members : ∀ path, path ∈ paths ↔ path? = some path) : paths = path?.toList := by
  cases paths with
  | nil =>
      cases path? with
      | none => rfl
      | some path => cases (members path).mpr rfl
  | cons first rest =>
      have here := (members first).mp List.mem_cons_self
      subst here
      cases rest with
      | nil => rfl
      | cons second others =>
          have same := (members second).mp (List.mem_cons_of_mem _ List.mem_cons_self)
          have apart := (List.pairwise_cons.mp sorted).1 second List.mem_cons_self
          exact absurd (Option.some.inj same) (OrderedKey.ne_of_before apart)

theorem isMarkdown_of_mem_scan {path : Path} (scanned : path ∈ scan disk folder) :
    path.isMarkdown = true := by
  obtain ⟨-, -, -, -, -, -, -, kept⟩ := Disk.exists_of_mem_filesBelow scanned
  exact kept

/-- Of the files that a catalog in sync knows, a refresh misses the one that was taken away. -/
private theorem InSync.gone_eq (inSync : catalog.InSync disk folder)
    (located : disk.place folder = .ok place)
    (rewrites : Disk.Rewrites disk later (emptied?.map (place ++ ·)) (filled?.map (place ++ ·)))
    (filledBelow : filled? ≠ some [])
    (emptiedTimed : ∀ path, emptied?.map (folder ++ ·) = some path →
      (disk.changeTime? path).isSome = true ∧ (path.isMarkdown = true → path ∈ scan disk folder) ∧
        filled?.map (folder ++ ·) ≠ some path) :
    catalog.gone (scan later folder) =
      ((emptied?.map (folder ++ ·)).filter Path.isMarkdown).toList := by
  have scanLater := rewrites.mem_scan_iff located filledBelow
  refine eq_toList_of_mem_iff (List.Pairwise.filter _ catalog.times.keys_pairwise) ?_
  intro path
  rw [Catalog.gone, List.mem_filter, SortedMap.mem_keys_iff, inSync.times,
    Option.filter_eq_some_iff]
  constructor
  · intro isGone
    obtain ⟨⟨time, noted⟩, notScanned⟩ := isGone
    obtain ⟨scanned, -⟩ := Option.ite_none_right_eq_some.mp noted
    have notScanned : path ∉ scan later folder := by simpa using notScanned
    refine ⟨?_, isMarkdown_of_mem_scan scanned⟩
    by_contra notEmptied
    exact notScanned ((scanLater path).mpr (.inl ⟨scanned, notEmptied⟩))
  · intro isEmptied
    obtain ⟨emptied, isMarkdown⟩ := isEmptied
    obtain ⟨timed, below, notFilled⟩ := emptiedTimed path emptied
    obtain ⟨time, changed⟩ := Option.isSome_iff_exists.mp timed
    refine ⟨⟨time, by rw [if_pos (below isMarkdown), changed]⟩, ?_⟩
    have notScanned : path ∉ scan later folder := by
      rw [scanLater]
      rintro (⟨-, notEmptied⟩ | ⟨-, filled⟩)
      · exact notEmptied emptied
      · exact notFilled filled
    simpa using notScanned

/-- Of the files that are there, a refresh takes the one that was written for changed. -/
private theorem InSync.changed_eq (inSync : catalog.InSync disk folder) (tree : disk.IsTree)
    (located : disk.place folder = .ok place)
    (rewrites : Disk.Rewrites disk later (emptied?.map (place ++ ·)) (filled?.map (place ++ ·)))
    (filledBelow : filled? ≠ some [])
    (filledTimed : ∀ path, filled?.map (folder ++ ·) = some path →
      later.changeTime? path ≠ disk.changeTime? path ∧ later.changeTime? path ≠ none) :
    catalog.changed later (scan later folder) =
      ((filled?.map (folder ++ ·)).filter Path.isMarkdown).toList := by
  refine eq_toList_of_mem_iff (List.Pairwise.filter _ (later.filesBelow_pairwise folder _)) ?_
  intro path
  rw [Catalog.changed, List.mem_filter, rewrites.mem_scan_iff located filledBelow,
    Option.filter_eq_some_iff, bne_iff_ne]
  constructor
  · intro isChanged
    obtain ⟨scanned, apart⟩ := isChanged
    rcases scanned with ⟨before, notEmptied⟩ | ⟨isMarkdown, filled⟩
    · refine ⟨?_, isMarkdown_of_mem_scan before⟩
      by_contra notFilled
      have kept := rewrites.changeTime?_eq tree located before notEmptied notFilled
      rw [inSync.times, if_pos before, kept] at apart
      exact apart rfl
    · exact ⟨filled, isMarkdown⟩
  · intro isFilled
    obtain ⟨filled, isMarkdown⟩ := isFilled
    obtain ⟨moved, timed⟩ := filledTimed path filled
    refine ⟨.inr ⟨isMarkdown, filled⟩, ?_⟩
    rw [inSync.times]
    split
    · exact Ne.symm moved
    · exact Ne.symm timed

/-- When files are rewritten below the root of a catalog in sync, a refresh removes the one that is
gone and loads the one that has another time. -/
theorem InSync.refresh_eq (inSync : catalog.InSync disk folder) (tree : disk.IsTree)
    (located : disk.place folder = .ok place)
    (rewrites : Disk.Rewrites disk later (emptied?.map (place ++ ·)) (filled?.map (place ++ ·)))
    (filledBelow : filled? ≠ some [])
    (emptiedTimed : ∀ path, emptied?.map (folder ++ ·) = some path →
      (disk.changeTime? path).isSome = true ∧ (path.isMarkdown = true → path ∈ scan disk folder) ∧
        filled?.map (folder ++ ·) ≠ some path)
    (filledTimed : ∀ path, filled?.map (folder ++ ·) = some path →
      later.changeTime? path ≠ disk.changeTime? path ∧ later.changeTime? path ≠ none) :
    (catalog.refresh later).catalog =
      (loadFiles later ((filled?.map (folder ++ ·)).filter Path.isMarkdown).toList
        (removePaths ((emptied?.map (folder ++ ·)).filter Path.isMarkdown).toList
          catalog).catalog).catalog := by
  have found : catalog.folder? later = .ok (some folder) :=
    folder?_eq_some_iff.mpr ⟨inSync.root, rewrites.sameFolders.isFolder_eq_true inSync.isFolder⟩
  have gone := inSync.gone_eq located rewrites filledBelow emptiedTimed
  have changed := inSync.changed_eq tree located rewrites filledBelow filledTimed
  unfold refresh
  rw [found]
  dsimp only
  rw [gone, changed]

theorem InSync.removePath_eq_self (inSync : catalog.InSync disk folder)
    (inOrder : InOrder (fun _ => True) catalog) {path : Path}
    (noMarkdown : path.isMarkdown = false) :
    (catalog.removePath path).catalog = catalog := by
  have noTime : catalog.times.get? path = none := by
    rw [inSync.times, if_neg]
    intro scanned
    cases noMarkdown.symm.trans (isMarkdown_of_mem_scan scanned)
  have noFile : catalog.files.get? path = none := by
    cases given : catalog.files.get? path with
    | none => rfl
    | some definition =>
        obtain ⟨time, noted⟩ := inOrder.timed path definition given
        cases noTime.symm.trans noted
  have sameTimes : catalog.times.erase path = catalog.times := by
    apply SortedMap.eq_of_get?_eq
    intro other
    rw [SortedMap.get?_erase]
    split
    · next same => rw [same, noTime]
    · rfl
  rw [catalog_removePath, sameTimes, update, forget_of_absent noFile]

private theorem removePaths_toList (inSync : catalog.InSync disk folder)
    (inOrder : InOrder (fun _ => True) catalog) (path : Path) :
    (removePaths ((some path).filter Path.isMarkdown).toList catalog).catalog =
      (catalog.removePath path).catalog := by
  cases isMarkdown : path.isMarkdown with
  | true =>
      rw [Option.filter_some, if_pos isMarkdown]
      rfl
  | false =>
      rw [Option.filter_some, if_neg (by simp [isMarkdown]),
        inSync.removePath_eq_self inOrder isMarkdown]
      rfl

private theorem follow_written (inSync : catalog.InSync disk folder) (tree : disk.IsTree)
    {rest : Path} (notEmpty : rest ≠ []) (names : ∀ part ∈ rest, Path.IsName part)
    {contents : Bytes} {changed : Int}
    (followed : (FileEvent.written (folder ++ rest) contents changed).IsFollowed disk)
    (written : disk.writeFile (folder ++ rest) contents changed = .ok later) :
    (catalog.loadFile later (folder ++ rest)).catalog = (catalog.refresh later).catalog := by
  obtain ⟨isMarkdown, timeMoves⟩ := followed
  obtain ⟨place, located, -⟩ := Disk.isFolder_eq_true_iff.mp inSync.isFolder
  obtain ⟨reached, found, noFolder, rfl⟩ := Disk.writeFile_eq_ok_iff.mp written
  have same := Disk.place_append_eq located names found
  subst same
  have notTop : place ++ rest ≠ [] := by simp [notEmpty]
  have rewrites : Disk.Rewrites disk (disk.put (place ++ rest) (.file contents changed))
      ((none : Option Path).map (place ++ ·)) ((some rest).map (place ++ ·)) :=
    Disk.rewrites_put notTop noFolder
  have timeNow : (disk.put (place ++ rest) (.file contents changed)).changeTime? (folder ++ rest) =
      some changed := by
    have stands : (disk.put (place ++ rest) (.file contents changed)).entryAt? (place ++ rest) =
        some (.file contents changed) := by
      rw [Disk.entryAt?_append _ notEmpty, Disk.get?_put, if_pos rfl]
    exact Disk.changeTime?_of_file ((rewrites.sameFolders.place_eq_ok_iff _).mpr found) stands
  have refreshed := inSync.refresh_eq tree located rewrites (by simpa using notEmpty) (by simp) (by
    rintro path ⟨⟩
    rw [timeNow]
    exact ⟨Ne.symm timeMoves, by simp⟩)
  rw [refreshed, Option.map_some, Option.filter_some, if_pos isMarkdown]
  rfl

private theorem mem_scan_of_stands {rest : Path} (located : disk.place folder = .ok place)
    (notEmpty : rest ≠ []) {contents : Bytes} {changed : Int}
    (stands : disk.entryAt? (place ++ rest) = some (.file contents changed))
    (isMarkdown : (folder ++ rest).isMarkdown = true) : folder ++ rest ∈ scan disk folder := by
  rw [scan, Disk.mem_filesBelow_iff located]
  rw [Disk.entryAt?_append disk notEmpty] at stands
  exact ⟨isMarkdown, rest, contents, changed, rfl, notEmpty, stands⟩

private theorem follow_deleted (inSync : catalog.InSync disk folder) (tree : disk.IsTree)
    (inOrder : InOrder (fun _ => True) catalog) {rest : Path} (notEmpty : rest ≠ [])
    (names : ∀ part ∈ rest, Path.IsName part)
    (followed : (FileEvent.deleted (folder ++ rest)).IsFollowed disk)
    (removed : disk.remove (folder ++ rest) = .ok later) :
    (catalog.removePath (folder ++ rest)).catalog = (catalog.refresh later).catalog := by
  obtain ⟨place, located, -⟩ := Disk.isFolder_eq_true_iff.mp inSync.isFolder
  obtain ⟨reached, contents, changed, found, stands⟩ := Disk.exists_of_changeTime? followed
  have same := Disk.place_append_eq located names found
  subst same
  obtain ⟨other, again, rfl⟩ := Disk.exists_of_remove_eq_ok removed
  cases found.symm.trans again
  have rewrites : Disk.Rewrites disk (disk.removeAt (place ++ rest))
      ((some rest).map (place ++ ·)) ((none : Option Path).map (place ++ ·)) :=
    tree.rewrites_removeAt stands
  have refreshed := inSync.refresh_eq tree located rewrites (by simp) (by
    rintro path ⟨⟩
    exact ⟨followed, mem_scan_of_stands located notEmpty stands, by simp⟩) (by simp)
  rw [refreshed, Option.map_some, Option.map_none, ← removePaths_toList inSync inOrder]
  rfl

private theorem follow_moved (inSync : catalog.InSync disk folder) (tree : disk.IsTree)
    (inOrder : InOrder (fun _ => True) catalog) {source target : Path} (sourceBelow : source ≠ [])
    (targetBelow : target ≠ []) (sourceNames : ∀ part ∈ source, Path.IsName part)
    (targetNames : ∀ part ∈ target, Path.IsName part)
    (followed : (FileEvent.moved (folder ++ source) (folder ++ target)).IsFollowed disk)
    (moved : disk.move (folder ++ source) (folder ++ target) = .ok later) :
    (catalog.rename later (folder ++ source) (folder ++ target)).catalog =
      (catalog.refresh later).catalog := by
  obtain ⟨timed, isFree⟩ := followed
  obtain ⟨place, located, -⟩ := Disk.isFolder_eq_true_iff.mp inSync.isFolder
  obtain ⟨reached, contents, changed, found, stands⟩ := Disk.exists_of_changeTime? timed
  have same := Disk.place_append_eq located sourceNames found
  subst same
  obtain ⟨sourcePlace, targetPlace, again, targetFound, rfl⟩ := Disk.exists_of_move_eq_ok
    (Disk.entry?_eq_some_iff.mpr ⟨_, found, stands⟩) isFree moved
  cases found.symm.trans again
  have same := Disk.place_append_eq located targetNames targetFound
  subst same
  have free : disk.entryAt? (place ++ target) = none := by
    rwa [Disk.entry?_of_place targetFound] at isFree
  have rewrites : Disk.Rewrites disk (disk.moveAt (place ++ source) (place ++ target))
      ((some source).map (place ++ ·)) ((some target).map (place ++ ·)) :=
    tree.rewrites_moveAt stands free
  have timeNow : (disk.moveAt (place ++ source) (place ++ target)).changeTime? (folder ++ target) =
      some changed := by
    have moved : (disk.moveAt (place ++ source) (place ++ target)).entryAt? (place ++ target) =
        some (.file contents changed) := by
      rw [Disk.entryAt?_append _ targetBelow, tree.get?_moveAt_file stands free, if_pos rfl]
    exact Disk.changeTime?_of_file
      ((rewrites.sameFolders.place_eq_ok_iff _).mpr targetFound) moved
  have noTime : disk.changeTime? (folder ++ target) = none := by
    rw [Disk.changeTime?, isFree]
  have apart : folder ++ target ≠ folder ++ source := by
    intro same
    rw [← same, noTime] at timed
    cases timed
  have refreshed := inSync.refresh_eq tree located rewrites (by simpa using targetBelow) (by
    rintro path ⟨⟩
    exact ⟨timed, mem_scan_of_stands located sourceBelow stands, by simpa using apart⟩) (by
    rintro path ⟨⟩
    rw [timeNow, noTime]
    simp)
  rw [refreshed, Option.map_some, Option.map_some, removePaths_toList inSync inOrder, rename,
    Option.filter_some]
  split <;> rfl

/-- Whatever happens to a single file below the root of a catalog in sync, also when the file holds
no component or no text, or when several files define a name: being told of it leaves the catalog as
a refresh does. -/
theorem follow_eq_refresh (reachable : Reachable catalog) (tree : disk.IsTree)
    (inSync : catalog.InSync disk folder) {event : FileEvent}
    (below : ∀ path ∈ event.paths, Path.IsBelow folder path) (followed : event.IsFollowed disk)
    (happened : event.happen disk = .ok later) :
    catalog.follow event later = (catalog.refresh later).catalog := by
  have inOrder := reachable.inOrder
  cases event with
  | written path contents changed =>
      obtain ⟨rest, rfl, notEmpty, names⟩ := below path (by simp [FileEvent.paths])
      exact follow_written inSync tree notEmpty names followed happened
  | deleted path =>
      obtain ⟨rest, rfl, notEmpty, names⟩ := below path (by simp [FileEvent.paths])
      exact follow_deleted inSync tree inOrder notEmpty names followed happened
  | moved source target =>
      obtain ⟨sourceRest, rfl, sourceBelow, sourceNames⟩ := below source (by simp [FileEvent.paths])
      obtain ⟨targetRest, rfl, targetBelow, targetNames⟩ := below target (by simp [FileEvent.paths])
      exact follow_moved inSync tree inOrder sourceBelow targetBelow sourceNames targetNames
        followed happened

/-- A catalog that was just filled from files that can be read is in sync with them. -/
theorem inSync_loadDirectory {root : Option Path} (known : root.or catalog.root = some folder)
    (isFolder : disk.isFolder folder = .ok true)
    (readable : ∀ path ∈ scan disk folder, (disk.reading? path).isSome = true) :
    InSync (catalog.loadDirectory disk root).catalog disk folder := by
  have emptied : ({ catalog with root := root.or catalog.root } : Catalog).clear =
      { root := some folder } := by
    rw [known]
    rfl
  have loaded : (catalog.loadDirectory disk root).catalog =
      (loadFiles disk (scan disk folder) { root := some folder }).catalog := by
    unfold loadDirectory
    rw [emptied]
    dsimp only
    rw [folder?_eq_some_iff.mpr ⟨rfl, isFolder⟩]
  refine ⟨?_, isFolder, ?_⟩
  · rw [loaded, root_loadFiles]
  · intro path
    rw [loaded, times_loadFiles]
    split
    · next scanned =>
        obtain ⟨found, read⟩ := Option.isSome_iff_exists.mp (readable path scanned)
        rw [read, Disk.changeTime?_of_reading? read]
        rfl
    · rfl

def draftDisk : Disk :=
  .ofFolder "c".toList
    [("a.md".toList, "---\nname: x\n---\n1".toList, 1),
      ("b.md".toList, "---\nname: x\n---\n2".toList, 1),
      ("draft.txt".toList, "---\nname: x\n---\n3".toList, 1)]

/-- A draft becomes a component that takes a name over from two others. -/
theorem follow_eq_refresh_draft :
    let catalog := Operation.run (.loadDirectory none) draftDisk { root := some ["c".toList] }
    let event : FileEvent := .moved ["c".toList, "draft.txt".toList] ["c".toList, "z.MD".toList]
    let later := draftDisk.moveAt ["c".toList, "draft.txt".toList] ["c".toList, "z.MD".toList]
    draftDisk.IsTree ∧ event.happen draftDisk = .ok later ∧
      catalog.follow event later = (catalog.refresh later).catalog ∧
      ((catalog.refresh later).catalog.get? "x".toList).map Definition.sourcePath =
        some "c/z.MD".toList := by
  intro catalog event later
  have tree : draftDisk.IsTree := by decide +kernel
  have happened : event.happen draftDisk = .ok later := by decide +kernel
  have inSync : catalog.InSync draftDisk ["c".toList] :=
    inSync_loadDirectory rfl (by decide +kernel) (by decide +kernel)
  have below : ∀ path ∈ event.paths, Path.IsBelow ["c".toList] path := by
    intro path member
    rcases List.mem_cons.mp member with rfl | member
    · exact ⟨["draft.txt".toList], rfl, by decide, by decide +kernel⟩
    · cases List.mem_singleton.mp member
      exact ⟨["z.MD".toList], rfl, by decide, by decide +kernel⟩
  refine ⟨tree, happened, ?_, by decide +kernel⟩
  exact follow_eq_refresh (.run (.empty _) _ _) tree inSync below (by decide +kernel) happened

end Catalog

end DocComponents
