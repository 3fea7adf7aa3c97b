import DocComponents.Proofs.File.Place

/-!
# Changes of single files

What writing, removing and moving a file does to a tree: something else stands at the place of the
file, and everything else stays where it is.
-/

set_option autoImplicit false

namespace DocComponents.Disk

variable {disk later : Disk} {path : Path} {place : List Text}

theorem get?_put (disk : Disk) (place other : List Text) (entry : Entry) :
    (disk.put place entry).entries.get? other =
      if other = place then some entry else disk.entries.get? other :=
  SortedMap.get?_insert _ _ _ _

theorem get?_removeAt (disk : Disk) (place other : List Text) :
    (disk.removeAt place).entries.get? other =
      if place <+: other then none else disk.entries.get? other := by
  refine (SortedMap.get?_filter_key disk.entries (fun other => !place.isPrefixOf other) other).trans
    ?_
  by_cases isBelow : place <+: other
  · rw [if_pos isBelow, List.isPrefixOf_iff_prefix.mpr isBelow]
    rfl
  · have notPrefix : place.isPrefixOf other = false := by
      rwa [Bool.eq_false_iff, Ne, List.isPrefixOf_iff_prefix]
    rw [if_neg isBelow, notPrefix]
    rfl

theorem writeFile_eq_ok_iff {contents : Bytes} {changed : Int} :
    disk.writeFile path contents changed = .ok later ↔
      ∃ place, disk.place path = .ok place ∧ disk.entryAt? place ≠ some .folder ∧
        disk.put place (.file contents changed) = later := by
  unfold writeFile
  cases located : disk.place path with
  | error fault => simp [bind, Except.bind]
  | ok place =>
      by_cases isFolder : disk.entryAt? place = some .folder
      · simp [bind, Except.bind, isFolder]
      · simp [bind, Except.bind, isFolder]

theorem exists_of_remove_eq_ok (removed : disk.remove path = .ok later) :
    ∃ place, disk.place path = .ok place ∧ later = disk.removeAt place := by
  unfold remove at removed
  cases located : disk.place path with
  | error fault => simp [located, bind, Except.bind] at removed
  | ok place =>
      refine ⟨place, rfl, ?_⟩
      rw [located] at removed
      simp only [bind, Except.bind] at removed
      split at removed
      · cases removed
      · split at removed
        · cases removed
          rfl
        · cases removed

theorem entry?_of_place (located : disk.place path = .ok place) :
    disk.entry? path = disk.entryAt? place := by
  unfold entry?
  rw [located]
  rfl

theorem entry?_eq_some_iff {entry : Entry} :
    disk.entry? path = some entry ↔
      ∃ place, disk.place path = .ok place ∧ disk.entryAt? place = some entry := by
  unfold entry?
  cases disk.place path with
  | error fault => simp [Except.toOption]
  | ok place => simp [Except.toOption]

/-- A file moves as an entry to a path at which nothing stands. -/
theorem exists_of_move_eq_ok {source target : Path} {contents : Bytes} {changed : Int}
    (isFile : disk.entry? source = some (.file contents changed))
    (isFree : disk.entry? target = none) (moved : disk.move source target = .ok later) :
    ∃ sourcePlace targetPlace, disk.place source = .ok sourcePlace ∧
      disk.place target = .ok targetPlace ∧ later = disk.moveAt sourcePlace targetPlace := by
  obtain ⟨sourcePlace, located, stands⟩ := entry?_eq_some_iff.mp isFile
  refine ⟨sourcePlace, ?_⟩
  unfold move at moved
  simp only [bind, Except.bind, pure, Except.pure] at moved
  split at moved
  · cases moved
  split at moved
  · cases moved
  split at moved
  · cases moved
  split at moved
  · cases moved
  rw [located] at moved
  dsimp only at moved
  rw [stands] at moved
  dsimp only at moved
  cases found : disk.place target with
  | error fault => simp [found] at moved
  | ok targetPlace =>
      have free : disk.entryAt? targetPlace = none := by
        rwa [entry?_of_place found] at isFree
      refine ⟨targetPlace, located, rfl, ?_⟩
      rw [found] at moved
      dsimp only at moved
      split at moved
      · next same =>
          subst same
          cases free.symm.trans stands
      · split at moved
        · cases moved
        · split at moved
          · cases moved
          · rw [free] at moved
            cases moved
            rfl

/-! ## Trees -/

variable {contents : Bytes} {changed : Int}

theorem ne_nil_of_isFile (isFile : disk.entryAt? place = some (.file contents changed)) :
    place ≠ [] := by
  rintro rfl
  cases isFile

theorem IsTree.get?_below_file (tree : disk.IsTree)
    (isFile : disk.entryAt? place = some (.file contents changed)) {rest : List Text}
    {entry : Entry}
    (stands : disk.entries.get? (place ++ rest) = some entry) :
    rest = [] ∧ entry = .file contents changed := by
  by_cases empty : rest = []
  · subst empty
    rw [List.append_nil] at stands
    have found := get?_of_entryAt? isFile (ne_nil_of_isFile isFile)
    exact ⟨rfl, Option.some.inj (stands.symm.trans found)⟩
  · have noFolder : disk.entryAt? place ≠ some .folder := by simp [isFile]
    cases (tree.get?_append_eq_none empty noFolder).symm.trans stands

theorem IsTree.get?_removeAt_file (tree : disk.IsTree)
    (isFile : disk.entryAt? place = some (.file contents changed)) (other : List Text) :
    (disk.removeAt place).entries.get? other =
      if other = place then none else disk.entries.get? other := by
  rw [get?_removeAt]
  by_cases same : other = place
  · subst same
    rw [if_pos (List.prefix_refl _), if_pos rfl]
  · rw [if_neg same]
    split
    · next isBelow =>
        obtain ⟨rest, rfl⟩ := isBelow
        cases stands : disk.entries.get? (place ++ rest) with
        | none => rfl
        | some entry =>
            obtain ⟨rfl, -⟩ := tree.get?_below_file isFile stands
            exact absurd (List.append_nil place) same
    · rfl

private theorem get?_removeAt_free (tree : disk.IsTree) (isFree : disk.entryAt? place = none)
    (other : List Text) : (disk.removeAt place).entries.get? other = disk.entries.get? other := by
  rw [get?_removeAt]
  split
  · next isBelow =>
      obtain ⟨rest, rfl⟩ := isBelow
      by_cases empty : rest = []
      · subst empty
        have notTop : place ≠ [] := by
          rintro rfl
          cases isFree
        rw [List.append_nil, ← entryAt?_of_ne_nil disk notTop, isFree]
      · exact (tree.get?_append_eq_none empty (by simp [isFree])).symm
  · rfl

theorem IsTree.get?_moveAt_file (tree : disk.IsTree) {target : List Text}
    (isFile : disk.entryAt? place = some (.file contents changed))
    (isFree : disk.entryAt? target = none) (other : List Text) :
    (disk.moveAt place target).entries.get? other =
      if other = target then some (.file contents changed)
      else if other = place then none else disk.entries.get? other := by
  have isMoved : ∀ item : List Text × Entry,
      (item ∈ disk.entries.entries.filterMap fun entry =>
        if place.isPrefixOf entry.1 then some (target ++ entry.1.drop place.length, entry.2)
        else none) ↔ item = (target, .file contents changed) := by
    intro item
    rw [List.mem_filterMap]
    constructor
    · intro found
      obtain ⟨⟨key, entry⟩, member, inside⟩ := found
      obtain ⟨isBelow, same⟩ := Option.ite_none_right_eq_some.mp inside
      obtain ⟨rest, rfl⟩ := List.isPrefixOf_iff_prefix.mp isBelow
      obtain ⟨rfl, rfl⟩ :=
        tree.get?_below_file isFile ((SortedMap.get?_eq_some_iff _ _ _).mpr member)
      simpa [eq_comm] using same
    · rintro rfl
      have found := get?_of_entryAt? isFile (ne_nil_of_isFile isFile)
      refine ⟨_, (SortedMap.get?_eq_some_iff _ _ _).mp found, ?_⟩
      simp
  unfold moveAt
  dsimp only
  by_cases atTarget : other = target
  · rw [if_pos atTarget]
    refine SortedMap.get?_insertAll_of_mem ((isMoved _).mpr (by rw [atTarget])) ?_
    intro item member _
    rw [(isMoved item).mp member]
  · rw [if_neg atTarget]
    refine (SortedMap.get?_insertAll_of_not_mem ?_).trans ?_
    · intro item member
      rw [(isMoved item).mp member]
      exact Ne.symm atTarget
    · have cleared := tree.get?_removeAt_file isFile
      rw [get?_removeAt, cleared]
      split
      · next isBelow =>
          obtain ⟨rest, rfl⟩ := isBelow
          have nothing := get?_removeAt_free tree isFree (target ++ rest)
          rw [get?_removeAt, if_pos (List.prefix_append _ _)] at nothing
          split
          · rfl
          · exact nothing
      · rfl

/-! ## Rewriting files -/

/-- A disk that differs in files only: the file at one place is gone, and there is one at another
place. -/
structure Rewrites (disk later : Disk) (emptied? filled? : Option (List Text)) : Prop where
  sameFolders : SameFolders later disk
  emptied : ∀ place, emptied? = some place → later.entries.get? place = none
  filled : ∀ place, filled? = some place →
    ∃ contents changed, later.entries.get? place = some (.file contents changed)
  others : ∀ place, emptied? ≠ some place → filled? ≠ some place →
    later.entries.get? place = disk.entries.get? place

theorem sameFolders_of_files (current : later.current = disk.current)
    (folder : ∀ place, later.entries.get? place = some .folder ↔
      disk.entries.get? place = some .folder) : SameFolders later disk where
  current := current
  folder := by
    intro place
    by_cases top : place = []
    · simp [top]
    · rw [entryAt?_of_ne_nil later top, entryAt?_of_ne_nil disk top]
      exact folder place

theorem rewrites_put (notTop : place ≠ []) (noFolder : disk.entryAt? place ≠ some .folder) :
    Rewrites disk (disk.put place (.file contents changed)) none (some place) where
  sameFolders := by
    refine sameFolders_of_files rfl ?_
    intro other
    rw [get?_put]
    split
    · next same =>
        subst same
        rw [entryAt?_of_ne_nil disk notTop] at noFolder
        simp [noFolder]
    · rfl
  emptied := by simp
  filled := by
    rintro other ⟨⟩
    exact ⟨contents, changed, by rw [get?_put, if_pos rfl]⟩
  others := by
    intro other _ apart
    rw [get?_put, if_neg (by simpa [eq_comm] using apart)]

theorem IsTree.rewrites_removeAt (tree : disk.IsTree)
    (isFile : disk.entryAt? place = some (.file contents changed)) :
    Rewrites disk (disk.removeAt place) (some place) none where
  sameFolders := by
    refine sameFolders_of_files rfl ?_
    intro other
    rw [tree.get?_removeAt_file isFile]
    split
    · next same =>
        rw [same, get?_of_entryAt? isFile (ne_nil_of_isFile isFile)]
        simp
    · rfl
  emptied := by
    rintro other ⟨⟩
    rw [tree.get?_removeAt_file isFile, if_pos rfl]
  filled := by simp
  others := by
    intro other apart _
    rw [tree.get?_removeAt_file isFile, if_neg (by simpa [eq_comm] using apart)]

theorem IsTree.rewrites_moveAt (tree : disk.IsTree) {target : List Text}
    (isFile : disk.entryAt? place = some (.file contents changed))
    (isFree : disk.entryAt? target = none) :
    Rewrites disk (disk.moveAt place target) (some place) (some target) where
  sameFolders := by
    refine sameFolders_of_files rfl ?_
    intro other
    rw [tree.get?_moveAt_file isFile isFree]
    split
    · next same =>
        subst same
        have notTop : other ≠ [] := by
          rintro rfl
          cases isFree
        rw [← entryAt?_of_ne_nil disk notTop, isFree]
        simp
    · split
      · next same =>
          rw [same, get?_of_entryAt? isFile (ne_nil_of_isFile isFile)]
          simp
      · rfl
  emptied := by
    rintro other ⟨⟩
    have apart : place ≠ target := by
      rintro rfl
      cases isFree.symm.trans isFile
    rw [tree.get?_moveAt_file isFile isFree, if_neg apart, if_pos rfl]
  filled := by
    rintro other ⟨⟩
    exact ⟨contents, changed, by rw [tree.get?_moveAt_file isFile isFree, if_pos rfl]⟩
  others := by
    intro other notEmptied notFilled
    rw [tree.get?_moveAt_file isFile isFree, if_neg (by simpa [eq_comm] using notFilled),
      if_neg (by simpa [eq_comm] using notEmptied)]

end DocComponents.Disk
