import DocComponents.Proofs.File.Scan
import Mathlib.Data.List.Induction

/-!
# Places

A path leads to its place through folders only, so what stands elsewhere, and the files, do not
matter to it. Without parts that lead up, a path below a folder leads to the place below the place
of the folder. On a tree nothing stands below a file.
-/

set_option autoImplicit false

namespace DocComponents

/-- A part of a path that is the name of a file or a folder: it does not lead up. -/
structure Path.IsName (part : Text) : Prop extends Path.IsPart part where
  notUp : part ≠ Path.up

instance (part : Text) : Decidable (Path.IsName part) :=
  decidable_of_iff (Path.IsPart part ∧ part ≠ Path.up)
    ⟨fun ⟨isPart, notUp⟩ => ⟨isPart, notUp⟩, fun name => ⟨name.toIsPart, name.notUp⟩⟩

/-- A path of names below another path. -/
def Path.IsBelow (folder path : Path) : Prop :=
  ∃ rest, path = folder ++ rest ∧ rest ≠ [] ∧ ∀ part ∈ rest, Path.IsName part

namespace Disk

/-- A disk on which everything has a name and stands in a folder. -/
structure IsTree (disk : Disk) : Prop where
  names : ∀ place entry, disk.entries.get? place = some entry → ∀ part ∈ place, Path.IsName part
  above : ∀ place entry, disk.entries.get? place = some entry →
    disk.entryAt? place.dropLast = some .folder

theorem isTree_iff_forall_mem (disk : Disk) :
    disk.IsTree ↔ ∀ item ∈ disk.entries.entries,
      (∀ part ∈ item.1, Path.IsName part) ∧ disk.entryAt? item.1.dropLast = some .folder := by
  constructor
  · intro tree item member
    obtain ⟨place, entry⟩ := item
    have found := (SortedMap.get?_eq_some_iff _ _ _).mpr member
    exact ⟨tree.names place entry found, tree.above place entry found⟩
  · intro all
    constructor
    · intro place entry found
      exact (all (place, entry) ((SortedMap.get?_eq_some_iff _ _ _).mp found)).1
    · intro place entry found
      exact (all (place, entry) ((SortedMap.get?_eq_some_iff _ _ _).mp found)).2

instance (disk : Disk) : Decidable disk.IsTree :=
  decidable_of_iff _ disk.isTree_iff_forall_mem.symm

variable {disk other : Disk} {place rest : List Text}

@[simp]
theorem entryAt?_nil (disk : Disk) : disk.entryAt? [] = some .folder := rfl

theorem entryAt?_of_ne_nil (disk : Disk) (notTop : place ≠ []) :
    disk.entryAt? place = disk.entries.get? place := by
  simp [entryAt?, notTop]

theorem get?_of_entryAt? {entry : Entry} (stands : disk.entryAt? place = some entry)
    (notTop : place ≠ []) : disk.entries.get? place = some entry := by
  rwa [entryAt?_of_ne_nil disk notTop] at stands

theorem entryAt?_append (disk : Disk) (notEmpty : rest ≠ []) :
    disk.entryAt? (place ++ rest) = disk.entries.get? (place ++ rest) :=
  entryAt?_of_ne_nil disk (by simp [notEmpty])

theorem IsTree.entryAt?_of_get?_append (tree : disk.IsTree) {entry : Entry} (notEmpty : rest ≠ [])
    (stands : disk.entries.get? (place ++ rest) = some entry) :
    disk.entryAt? place = some .folder := by
  induction rest using List.reverseRecOn generalizing entry with
  | nil => exact absurd rfl notEmpty
  | append_singleton before part ih =>
      have above := tree.above _ entry stands
      rw [← List.append_assoc, List.dropLast_concat] at above
      by_cases empty : before = []
      · subst empty
        simpa using above
      · exact ih empty ((entryAt?_append disk empty).symm.trans above)

/-- Nothing stands below a place at which there is no folder. -/
theorem IsTree.get?_append_eq_none (tree : disk.IsTree) (notEmpty : rest ≠ [])
    (noFolder : disk.entryAt? place ≠ some .folder) :
    disk.entries.get? (place ++ rest) = none := by
  cases stands : disk.entries.get? (place ++ rest) with
  | none => rfl
  | some entry => exact absurd (tree.entryAt?_of_get?_append notEmpty stands) noFolder

/-! ## Walking -/

theorem walk_append (disk : Disk) (reached before after : List Text) :
    disk.walk reached (before ++ after) =
      match disk.walk reached before with
      | .error fault => .error fault
      | .ok place => disk.walk place after := by
  induction before generalizing reached with
  | nil => rfl
  | cons part rest ih =>
      rw [List.cons_append, walk, walk]
      split
      · rfl
      · rfl
      · split
        · exact ih _
        · split
          · rfl
          · exact ih _

theorem eq_append_of_walk_eq_ok {reached parts : List Text}
    (names : ∀ part ∈ parts, part ≠ Path.up) (walked : disk.walk reached parts = .ok place) :
    place = reached ++ parts := by
  induction parts generalizing reached with
  | nil =>
      cases walked
      simp
  | cons part rest ih =>
      have later : ∀ next ∈ rest, next ≠ Path.up := fun next member =>
        names next (List.mem_cons_of_mem _ member)
      unfold walk at walked
      split at walked
      · cases walked
      · cases walked
      · rw [if_neg (names part List.mem_cons_self)] at walked
        split at walked
        · cases walked
        · simpa using ih later walked

theorem short_of_walk_eq_ok {reached parts : List Text}
    (names : ∀ part ∈ parts, part ≠ Path.up) (walked : disk.walk reached parts = .ok place) :
    ∀ part ∈ parts, isTooLong part longestName = false := by
  induction parts generalizing reached with
  | nil => simp
  | cons part rest ih =>
      have later : ∀ next ∈ rest, next ≠ Path.up := fun next member =>
        names next (List.mem_cons_of_mem _ member)
      unfold walk at walked
      split at walked
      · cases walked
      · cases walked
      · rw [if_neg (names part List.mem_cons_self)] at walked
        split at walked
        · cases walked
        · next short =>
            intro next member
            rcases List.mem_cons.mp member with rfl | inRest
            · simpa using short
            · exact ih later walked next inRest

/-- In a tree every entry is reached by its names. -/
theorem IsTree.walk_eq_ok (tree : disk.IsTree) {reached parts : List Text} {entry : Entry}
    (stands : disk.entryAt? (reached ++ parts) = some entry)
    (names : ∀ part ∈ parts, part ≠ Path.up)
    (short : ∀ part ∈ parts, isTooLong part longestName = false) :
    disk.walk reached parts = .ok (reached ++ parts) := by
  induction parts generalizing reached with
  | nil => simp [walk]
  | cons part rest ih =>
      have notTop : reached ++ part :: rest ≠ [] := by simp
      have folder : disk.entryAt? reached = some .folder :=
        tree.entryAt?_of_get?_append (List.cons_ne_nil part rest) (get?_of_entryAt? stands notTop)
      have shape : reached ++ part :: rest = reached ++ [part] ++ rest := by simp
      have notLong : ¬ isTooLong part longestName = true := by
        simp [short part List.mem_cons_self]
      rw [shape] at stands ⊢
      have later := ih stands (fun next member => names next (List.mem_cons_of_mem _ member))
        fun next member => short next (List.mem_cons_of_mem _ member)
      rw [walk, folder]
      dsimp only
      rw [if_neg (names part List.mem_cons_self), if_neg notLong, later]

/-- Two disks, seen from the same place, with folders at the same places. -/
structure SameFolders (left right : Disk) : Prop where
  current : left.current = right.current
  folder : ∀ place, left.entryAt? place = some .folder ↔ right.entryAt? place = some .folder

theorem SameFolders.symm (same : SameFolders disk other) : SameFolders other disk :=
  ⟨same.current.symm, fun place => (same.folder place).symm⟩

private theorem SameFolders.walk_of_walk (same : SameFolders disk other)
    {reached parts : List Text} (walked : disk.walk reached parts = .ok place) :
    other.walk reached parts = .ok place := by
  induction parts generalizing reached with
  | nil => exact walked
  | cons part rest ih =>
      unfold walk at walked ⊢
      split at walked
      · cases walked
      · cases walked
      · next isFolder =>
          rw [(same.folder reached).mp isFolder]
          dsimp only
          split
          · next up =>
              rw [if_pos up] at walked
              exact ih walked
          · next notUp =>
              rw [if_neg notUp] at walked
              split
              · next tooLong =>
                  rw [if_pos tooLong] at walked
                  cases walked
              · next short =>
                  rw [if_neg short] at walked
                  exact ih walked

theorem place_eq_ok_iff (disk : Disk) (path : Path) :
    disk.place path = .ok place ↔
      path.isValid = true ∧ isTooLong path.toText longestPath = false ∧
        disk.walk (disk.origin path).1 (disk.origin path).2 = .ok place := by
  unfold Disk.place
  cases valid : path.isValid with
  | false => simp
  | true =>
      cases short : isTooLong path.toText longestPath with
      | true => simp
      | false => simp

theorem SameFolders.place_eq_ok_iff (same : SameFolders disk other) (path : Path) :
    disk.place path = .ok place ↔ other.place path = .ok place := by
  have sameOrigin : disk.origin path = other.origin path := by
    unfold origin
    rw [same.current]
  rw [Disk.place_eq_ok_iff, Disk.place_eq_ok_iff, sameOrigin]
  refine and_congr_right fun _ => and_congr_right fun _ => ?_
  exact ⟨same.walk_of_walk, same.symm.walk_of_walk⟩

theorem origin_append (disk : Disk) {folder rest : Path}
    (names : ∀ part ∈ rest, Path.IsPart part) :
    disk.origin (folder ++ rest) = ((disk.origin folder).1, (disk.origin folder).2 ++ rest) := by
  cases folder with
  | cons part others =>
      unfold origin
      split <;> simp_all [Path.isAbsolute]
  | nil =>
      have relative : Path.isAbsolute rest = false := by
        cases rest with
        | nil => rfl
        | cons part others => exact (names part List.mem_cons_self).isRoot_eq_false
      rw [List.nil_append, origin, if_neg (by simp [relative])]
      rfl

theorem place_append_eq {folder : Path} (located : disk.place folder = .ok place)
    (names : ∀ part ∈ rest, Path.IsName part) {reached : List Text}
    (found : disk.place (folder ++ rest) = .ok reached) : reached = place ++ rest := by
  obtain ⟨-, -, walked⟩ := (disk.place_eq_ok_iff _).mp located
  obtain ⟨-, -, further⟩ := (disk.place_eq_ok_iff _).mp found
  rw [origin_append disk fun part member => (names part member).toIsPart, walk_append, walked]
    at further
  exact eq_append_of_walk_eq_ok (fun part member => (names part member).notUp) further

/-! ## Folders -/

theorem isFolder_eq_true_iff {path : Path} :
    disk.isFolder path = .ok true ↔
      ∃ place, disk.place path = .ok place ∧ disk.entryAt? place = some .folder := by
  unfold isFolder look
  cases located : disk.place path with
  | error fault => cases fault <;> simp [Except.map]
  | ok place => simp [Except.map]

theorem mem_filesBelow_iff {folder path : Path} {keep : Path → Bool}
    (located : disk.place folder = .ok place) :
    path ∈ disk.filesBelow folder keep ↔
      keep path = true ∧ ∃ rest contents changed, path = folder ++ rest ∧ rest ≠ [] ∧
        disk.entries.get? (place ++ rest) = some (.file contents changed) := by
  rw [filesBelow, located]
  simp only [List.mem_filterMap]
  constructor
  · intro isFile
    obtain ⟨⟨rest, entry⟩, isBelow, found⟩ := isFile
    obtain ⟨notEmpty, stands⟩ := mem_below_iff.mp isBelow
    cases entry with
    | folder => cases found
    | file contents changed =>
        obtain ⟨kept, same⟩ := Option.ite_none_right_eq_some.mp found
        cases same
        exact ⟨kept, rest, contents, changed, rfl, notEmpty, stands⟩
  · intro isFile
    obtain ⟨kept, rest, contents, changed, rfl, notEmpty, stands⟩ := isFile
    refine ⟨(rest, .file contents changed), mem_below_iff.mpr ⟨notEmpty, stands⟩, ?_⟩
    simp [kept]

end Disk

end DocComponents
