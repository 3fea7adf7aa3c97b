import DocComponents.File.Disk
import DocComponents.Proofs.File.Path
import DocComponents.Proofs.SortedMap

/-! Scans of folders. The files below a folder are found in path order, each once, and their paths
are the folder's path with names behind it. Whether a folder stands at a path can be told on every
disk, once it was a folder on one of them. -/

set_option autoImplicit false

namespace DocComponents.Disk

/-- A disk with one folder of files, each with its name, its text and the time of its change. -/
def ofFolder (folder : Text) (files : List (Text × Text × Int)) : Disk where
  entries := (SortedMap.empty.insert [folder] .folder).insertAll
    (files.map fun file => ([folder, file.1], .file (Utf8.encode file.2.1) file.2.2))

/-- A disk on which every file and folder has a name that can be a part of a path. -/
def WellNamed (disk : Disk) : Prop :=
  ∀ place entry, disk.entries.get? place = some entry → ∀ name ∈ place, Path.IsPart name

theorem wellNamed_iff_forall_mem (disk : Disk) :
    disk.WellNamed ↔ ∀ item ∈ disk.entries.entries, ∀ name ∈ item.1, Path.IsPart name := by
  constructor
  · intro named item member
    obtain ⟨place, entry⟩ := item
    exact named place entry ((SortedMap.get?_eq_some_iff _ _ _).mpr member)
  · intro named place entry found
    exact named (place, entry) ((SortedMap.get?_eq_some_iff _ _ _).mp found)

instance (disk : Disk) : Decidable disk.WellNamed :=
  decidable_of_iff _ disk.wellNamed_iff_forall_mem.symm

private theorem before_iff (left right : List Text) : before left right = true ↔ left < right :=
  decide_eq_true_iff

theorem before_append_iff (start left right : List Text) :
    before (start ++ left) (start ++ right) = true ↔ before left right = true := by
  simp only [before_iff]
  induction start with
  | nil => rfl
  | cons part rest ih =>
      rw [List.cons_append, List.cons_append, List.cons_lt_cons_self, ih]

theorem mem_below_iff {disk : Disk} {place rest : List Text} {entry : Entry} :
    (rest, entry) ∈ disk.below place ↔
      rest ≠ [] ∧ disk.entries.get? (place ++ rest) = some entry := by
  simp only [below, List.mem_filterMap, SortedMap.get?_eq_some_iff]
  constructor
  · intro isBelow
    obtain ⟨⟨key, found⟩, member, inside⟩ := isBelow
    split at inside
    · next isBelow =>
        simp only [Bool.and_eq_true, List.isPrefixOf_iff_prefix, decide_eq_true_eq] at isBelow
        obtain ⟨⟨behind, rfl⟩, longer⟩ := isBelow
        simp only [Option.some.injEq, Prod.mk.injEq, List.drop_left] at inside
        obtain ⟨rfl, rfl⟩ := inside
        refine ⟨?_, member⟩
        intro empty
        subst empty
        simp at longer
    · cases inside
  · intro isBelow
    obtain ⟨notEmpty, member⟩ := isBelow
    refine ⟨_, member, ?_⟩
    have longer : 0 < rest.length := List.length_pos_iff.mpr notEmpty
    simp [longer]

theorem below_pairwise (disk : Disk) (place : List Text) :
    (disk.below place).Pairwise fun left right => before left.1 right.1 = true := by
  unfold below
  rw [List.pairwise_filterMap]
  refine List.Pairwise.imp ?_ disk.entries.sorted
  intro left right ordered first isFirst second isSecond
  split at isFirst
  · next leftBelow =>
      split at isSecond
      · next rightBelow =>
          simp only [Bool.and_eq_true, List.isPrefixOf_iff_prefix] at leftBelow rightBelow
          obtain ⟨leftRest, leftShape⟩ := leftBelow.1
          obtain ⟨rightRest, rightShape⟩ := rightBelow.1
          cases isFirst
          cases isSecond
          rw [← leftShape, ← rightShape, before_append_iff] at ordered
          simpa [← leftShape, ← rightShape] using ordered
      · cases isSecond
  · cases isFirst

theorem exists_of_mem_filesBelow {disk : Disk} {folder path : Path} {keep : Path → Bool}
    (member : path ∈ disk.filesBelow folder keep) :
    ∃ place rest contents changed, disk.place folder = .ok place ∧
      disk.entries.get? (place ++ rest) = some (.file contents changed) ∧
      path = folder ++ rest ∧ keep path = true := by
  unfold filesBelow at member
  split at member
  · cases member
  · next place located =>
      obtain ⟨⟨rest, entry⟩, inside, found⟩ := List.mem_filterMap.mp member
      have stands := (mem_below_iff.mp inside).2
      cases entry with
      | folder => cases found
      | file contents changed =>
          dsimp only at found
          split at found
          · next kept =>
              cases found
              exact ⟨place, rest, contents, changed, located, stands, rfl, kept⟩
          · cases found

/-- A scan meets the files in path order. -/
theorem filesBelow_pairwise (disk : Disk) (folder : Path) (keep : Path → Bool) :
    (disk.filesBelow folder keep).Pairwise fun left right => before left right = true := by
  unfold filesBelow
  split
  · exact .nil
  · next place located =>
      rw [List.pairwise_filterMap]
      refine List.Pairwise.imp ?_ (disk.below_pairwise place)
      intro left right ordered first isFirst second isSecond
      obtain ⟨leftRest, leftEntry⟩ := left
      obtain ⟨rightRest, rightEntry⟩ := right
      cases leftEntry with
      | folder => cases isFirst
      | file leftContents leftChanged =>
          cases rightEntry with
          | folder => cases isSecond
          | file rightContents rightChanged =>
              obtain ⟨-, leftPath⟩ := Option.ite_none_right_eq_some.mp isFirst
              obtain ⟨-, rightPath⟩ := Option.ite_none_right_eq_some.mp isSecond
              cases leftPath
              cases rightPath
              rw [before_append_iff]
              exact ordered

/-- Parts of a path that lead up or have names that a disk can hold. -/
private def Fits (parts : List Text) : Prop :=
  ∀ part ∈ parts, part = Path.up ∨ isTooLong part longestName = false

private theorem fits_of_walk {disk : Disk} {reached parts place : List Text}
    (walked : disk.walk reached parts = .ok place) : Fits parts := by
  induction parts generalizing reached with
  | nil => simp [Fits]
  | cons part rest ih =>
      unfold walk at walked
      have stepped : (part = Path.up ∨ isTooLong part longestName = false) ∧ Fits rest := by
        split at walked
        · cases walked
        · cases walked
        · split at walked
          · next up => exact ⟨.inl up, ih walked⟩
          · split at walked
            · cases walked
            · next short => exact ⟨.inr (by simpa using short), ih walked⟩
      intro other member
      rcases List.mem_cons.mp member with rfl | later
      · exact stepped.1
      · exact stepped.2 other later

private theorem walk_ne_nameTooLong {disk : Disk} {reached parts : List Text} (fits : Fits parts) :
    disk.walk reached parts ≠ .error .nameTooLong := by
  induction parts generalizing reached with
  | nil => simp [walk]
  | cons part rest ih =>
      have later : Fits rest := fun other member => fits other (List.mem_cons_of_mem _ member)
      unfold walk
      split
      · simp
      · simp
      · split
        · exact ih later
        · next notUp =>
            have short := (fits part List.mem_cons_self).resolve_left notUp
            rw [short]
            exact ih later

/-- Where a folder stands on one disk, every disk can tell whether one stands there. -/
theorem exists_isFolder_of_isFolder {disk : Disk} {path : Path}
    (stands : disk.isFolder path = .ok true) (other : Disk) :
    ∃ answer, other.isFolder path = .ok answer := by
  have located : ∃ place, disk.place path = .ok place := by
    cases found : disk.place path with
    | ok place => exact ⟨place, rfl⟩
    | error fault => cases fault <;> simp [isFolder, look, found, Except.map] at stands
  obtain ⟨place, located⟩ := located
  unfold Disk.place at located
  split at located
  · cases located
  · next valid =>
      split at located
      · cases located
      · next short =>
          have sameParts : (other.origin path).2 = (disk.origin path).2 := by
            unfold origin
            split <;> rfl
          have notTooLong : other.place path ≠ .error .nameTooLong := by
            rw [Disk.place, if_neg valid, if_neg short, sameParts]
            exact walk_ne_nameTooLong (fits_of_walk located)
          unfold isFolder look
          split
          · next tooLong => exact absurd tooLong notTooLong
          · exact ⟨false, rfl⟩
          · exact ⟨_, rfl⟩

theorem WellNamed.isWritten_of_mem_filesBelow {disk : Disk} (named : disk.WellNamed)
    {folder path : Path} (written : folder.IsWritten) {keep : Path → Bool}
    (member : path ∈ disk.filesBelow folder keep) : path.IsWritten := by
  obtain ⟨place, rest, contents, changed, -, stands, rfl, -⟩ := exists_of_mem_filesBelow member
  apply written.append
  intro part inside
  exact named _ _ stands part (List.mem_append_right _ inside)

end DocComponents.Disk
