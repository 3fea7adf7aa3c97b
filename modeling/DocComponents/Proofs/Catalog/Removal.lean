import DocComponents.Proofs.Catalog.Located

/-!
# Removing files

A file that is removed takes its definition with it. No name but the one that it defines is touched
by that, and this one only if the definition in use is that of the file: then the last of the
remaining files that claim the name takes over. What takes over may be removed next and give way to
another file, but what comes out in the end depends on which files are removed and on nothing else.
-/

set_option autoImplicit false

namespace DocComponents.Catalog

variable {catalog : Catalog}

theorem files_removePath (catalog : Catalog) (path : Path) (written : Text) :
    (catalog.removePath path written).catalog.files = catalog.files.erase path := by
  rw [catalog_removePath]
  exact files_forget catalog path

theorem get?_removePath_of_supplies {path : Path} {name : Text}
    (supplies : catalog.Supplies path name) (written : Text) :
    (catalog.removePath path written).catalog.get? name =
      lastClaim? (catalog.removePath path written).catalog.files name := by
  rw [files_removePath, catalog_removePath]
  exact get?_forget_of_supplies supplies

theorem get?_removePath_of_not_supplies {path : Path} {name : Text}
    (kept : ¬ catalog.Supplies path name) (written : Text) :
    (catalog.removePath path written).catalog.get? name = catalog.get? name := by
  rw [catalog_removePath]
  exact get?_forget_of_not_supplies kept

theorem Sourced.removePath (sourced : Sourced catalog) (path : Path) (written : Text) :
    Sourced (catalog.removePath path written).catalog where
  toConsistent := by
    rw [catalog_removePath]
    exact (sourced.toConsistent.update (by simp)).congr rfl rfl
  written := by
    intro other definition found
    rw [files_removePath, SortedMap.get?_erase] at found
    split at found
    · cases found
    · exact sourced.written other definition found

/-- Of a file that is not known nothing is supplied, so its path need not be a written one. -/
theorem Sourced.supplies_iff_given (sourced : Sourced catalog) (path : Path) (name : Text) :
    catalog.Supplies path name ↔
      ∃ definition, catalog.get? name = some definition ∧
        catalog.files.get? path = some definition := by
  constructor
  · intro supplies
    obtain ⟨previous, current, claims, inUse⟩ := supplies
    have written := sourced.written path previous claims.1
    exact (sourced.supplies_iff written name).mp ⟨previous, current, claims, inUse⟩
  · intro given
    obtain ⟨definition, current, found⟩ := given
    exact sourced.toConsistent.supplies current found

theorem files_removePaths (paths : List Path) (catalog : Catalog) (path : Path) :
    (removePaths paths catalog).catalog.files.get? path =
      if path ∈ paths then none else catalog.files.get? path := by
  induction paths generalizing catalog with
  | nil => simp [removePaths]
  | cons first rest ih =>
      refine (ih _).trans ?_
      rw [files_removePath, SortedMap.get?_erase]
      by_cases here : path = first
      · simp [here]
      · simp [here]

/-- A definition that none of some files gives. -/
def isSpared (catalog : Catalog) (paths : List Path) (definition : Definition) : Bool :=
  paths.all fun path => catalog.files.get? path ≠ some definition

theorem lastClaim?_removePaths {paths : List Path} {name : Text} {definition : Definition}
    (claimed : lastClaim? catalog.files name = some definition)
    (spared : catalog.isSpared paths definition = true) :
    lastClaim? (removePaths paths catalog).catalog.files name = some definition := by
  obtain ⟨path, isLast⟩ := exists_isLastClaim claimed
  have remains : path ∉ paths := by
    intro member
    have apart := List.all_eq_true.mp spared path member
    simp [isLast.claims.1] at apart
  refine lastClaim?_of_subset isLast ⟨?_, isLast.claims.2⟩ ?_
  · rw [files_removePaths, if_neg remains, isLast.claims.1]
  · intro other claim claims
    obtain ⟨given, named⟩ := claims
    rw [files_removePaths] at given
    split at given
    · cases given
    · exact ⟨given, named⟩

/-- A definition stays unless a removed file gives it; a name that lost its definition belongs to the
last of the remaining files that claim it. -/
theorem get?_removePaths (sourced : Sourced catalog) (paths : List Path) (name : Text) :
    (removePaths paths catalog).catalog.get? name =
      ((catalog.get? name).filter (catalog.isSpared paths)).or
        (lastClaim? (removePaths paths catalog).catalog.files name) := by
  induction paths generalizing catalog with
  | nil =>
      cases current : catalog.get? name with
      | some definition => exact current
      | none =>
          refine current.trans (Eq.symm ?_)
          rw [Option.filter_none, Option.none_or, lastClaim?_eq_none_iff]
          intro path definition claims
          obtain ⟨given, rfl⟩ := claims
          obtain ⟨registered, found⟩ := sourced.registered path definition given
          cases current.symm.trans found
  | cons path rest ih =>
      have later := ih (sourced.removePath path path.toText)
      refine later.trans ?_
      by_cases supplies : catalog.Supplies path name
      · obtain ⟨definition, current, given⟩ := (sourced.supplies_iff_given path name).mp supplies
        have lost : catalog.isSpared (path :: rest) definition = false := by simp [isSpared, given]
        rw [current, Option.filter_some, lost, get?_removePath_of_supplies supplies]
        -- The successor keeps the name, unless its file is removed as well.
        cases successor : lastClaim? (catalog.removePath path).catalog.files name with
        | none => rfl
        | some claim =>
            cases spared : (catalog.removePath path).catalog.isSpared rest claim with
            | true =>
                rw [Option.filter_some, spared]
                exact (lastClaim?_removePaths successor spared).symm
            | false =>
                rw [Option.filter_some, spared]
                rfl
      · rw [get?_removePath_of_not_supplies supplies]
        have same : ∀ definition, catalog.get? name = some definition →
            (catalog.removePath path).catalog.isSpared rest definition =
              catalog.isSpared (path :: rest) definition := by
          intro definition current
          have notGiven : catalog.files.get? path ≠ some definition := by
            intro given
            exact supplies ((sourced.supplies_iff_given path name).mpr ⟨definition, current, given⟩)
          have step : ∀ other, (catalog.removePath path).catalog.files.get? other ≠ some definition ↔
              catalog.files.get? other ≠ some definition := by
            intro other
            rw [files_removePath, SortedMap.get?_erase]
            by_cases here : other = path
            · simp [here, notGiven]
            · simp [here]
          simp [isSpared, step, notGiven]
        cases current : catalog.get? name with
        | none => rfl
        | some definition =>
            rw [Option.filter_some, Option.filter_some, same definition current]
            rfl

theorem eq_of_parts_eq {left right : Catalog} (root : left.root = right.root)
    (definitions : ∀ name, left.get? name = right.get? name)
    (files : ∀ path, left.files.get? path = right.files.get? path)
    (times : ∀ path, left.times.get? path = right.times.get? path) : left = right := by
  have sameDefinitions := SortedMap.eq_of_get?_eq definitions
  have sameFiles := SortedMap.eq_of_get?_eq files
  have sameTimes := SortedMap.eq_of_get?_eq times
  cases left
  cases right
  simp_all

/-- Removals of the same files come to the same catalog, in whatever order they are made. -/
theorem removePaths_congr (sourced : Sourced catalog) {paths others : List Path}
    (same : ∀ path, path ∈ paths ↔ path ∈ others) :
    (removePaths paths catalog).catalog = (removePaths others catalog).catalog := by
  have files : ∀ path, (removePaths paths catalog).catalog.files.get? path =
      (removePaths others catalog).catalog.files.get? path := by
    intro path
    simp only [files_removePaths, same]
  have spared : catalog.isSpared paths = catalog.isSpared others := by
    funext definition
    rw [Bool.eq_iff_iff, isSpared, isSpared, List.all_eq_true, List.all_eq_true]
    exact forall_congr' fun path => imp_congr_left (same path)
  refine eq_of_parts_eq ?_ ?_ files ?_
  · rw [root_removePaths, root_removePaths]
  · intro name
    rw [get?_removePaths sourced, get?_removePaths sourced, spared,
      SortedMap.eq_of_get?_eq files]
  · intro path
    simp only [times_removePaths, same]

/-- What a removal does to any catalog that a history leads to, and that removals can be made in any
order. -/
theorem removal_takes_over {root : Option Path} {history : History}
    (rootWritten : ∀ path, root = some path → path.IsWritten) (written : history.IsWritten) :
    let before := history.run { root }
    (∀ path,
      let after := (before.removePath path).catalog
      after.root = before.root ∧ after.files = before.files.erase path ∧
        after.times = before.times.erase path ∧
        (∀ name,
          (∀ definition, before.files.get? path = some definition →
            before.get? name ≠ some definition) →
          after.get? name = before.get? name) ∧
        ∀ name definition, before.files.get? path = some definition →
          before.get? name = some definition →
          definition.name = name ∧
            (∀ successor, after.get? name = some successor ↔
              ∃ other, IsLastClaim after.files name other successor) ∧
            (after.get? name = none ↔ ∀ other claim, ¬ Claims after.files name other claim)) ∧
      ∀ paths others : List Path, (∀ path, path ∈ paths ↔ path ∈ others) →
        (removePaths paths before).catalog = (removePaths others before).catalog := by
  intro before
  have sourced := (sourced_of_history rootWritten written).1
  refine ⟨?_, fun paths others same => removePaths_congr sourced same⟩
  intro path after
  have times : after.times = before.times.erase path :=
    congrArg Catalog.times (catalog_removePath before path path.toText)
  refine ⟨root_removePath before path _, files_removePath before path _, times, ?_, ?_⟩
  · intro name spared
    refine get?_removePath_of_not_supplies ?_ path.toText
    intro supplies
    obtain ⟨definition, current, given⟩ := (sourced.supplies_iff_given path name).mp supplies
    exact spared definition given current
  · intro name definition given current
    have supplies := sourced.toConsistent.supplies current given
    have taken := get?_removePath_of_supplies supplies path.toText
    refine ⟨sourced.named name definition current, ?_, ?_⟩
    · intro successor
      rw [taken, lastClaim?_eq_some_iff]
    · rw [taken, lastClaim?_eq_none_iff]

def crowdedDisk : Disk :=
  .ofFolder "c".toList
    [("a.md".toList, "---\nname: x\n---\n1".toList, 1),
      ("b.md".toList, "---\nname: x\n---\n2".toList, 2),
      ("d.md".toList, "---\nname: x\n---\n3".toList, 3)]

/-- The last file gives way to the one before it, which gives way to the first one. -/
theorem removal_takes_over_crowded :
    let before := History.run [(crowdedDisk, .loadDirectory none)] { root := some ["c".toList] }
    let second : Path := ["c".toList, "b.md".toList]
    let third : Path := ["c".toList, "d.md".toList]
    ((before.removePath third).catalog.get? "x".toList).map Definition.sourcePath =
        some "c/b.md".toList ∧
      (before.removePath second).catalog.get? "x".toList = before.get? "x".toList ∧
      (removePaths [third, second] before).catalog = (removePaths [second, third] before).catalog ∧
      ((removePaths [third, second] before).catalog.get? "x".toList).map Definition.sourcePath =
        some "c/a.md".toList := by
  intro before second third
  obtain ⟨single, anyOrder⟩ :=
    @removal_takes_over (some ["c".toList]) [(crowdedDisk, .loadDirectory none)]
      (by simp; decide +kernel) (by decide +kernel)
  obtain ⟨-, -, -, spared, -⟩ := single second
  refine ⟨by decide +kernel, spared _ ?_, anyOrder _ _ (by simp [or_comm]), by decide +kernel⟩
  decide +kernel

end DocComponents.Catalog
