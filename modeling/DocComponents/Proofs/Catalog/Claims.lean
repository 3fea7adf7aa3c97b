import DocComponents.Catalog.Basic
import DocComponents.Proofs.SortedMap

/-!
# Files that claim a name

A file claims the name that its definition has. The definition that takes over when a name is given
up is the claim of the last file: no file behind it in path order claims the name.
-/

set_option autoImplicit false

namespace DocComponents.Catalog

def Claims (files : SortedMap Path Definition) (name : Text) (path : Path)
    (definition : Definition) : Prop :=
  files.get? path = some definition ∧ definition.name = name

/-- The last file, in path order, that claims a name. -/
structure IsLastClaim (files : SortedMap Path Definition) (name : Text) (path : Path)
    (definition : Definition) : Prop where
  claims : Claims files name path definition
  last : ∀ other claim, Claims files name other claim →
    other = path ∨ before other path = true

private theorem lastClaim?_eq_map (files : SortedMap Path Definition) (name : Text) :
    lastClaim? files name =
      ((files.entries.filter fun entry => entry.2.name = name).getLast?).map Prod.snd := by
  rw [lastClaim?, SortedMap.values, List.filter_map, List.getLast?_map]
  rfl

private theorem claims_iff_mem (files : SortedMap Path Definition) (name : Text) (path : Path)
    (definition : Definition) :
    Claims files name path definition ↔
      (path, definition) ∈ files.entries.filter fun entry => entry.2.name = name := by
  rw [Claims, SortedMap.get?_eq_some_iff]
  simp

theorem lastClaim?_eq_none_iff (files : SortedMap Path Definition) (name : Text) :
    lastClaim? files name = none ↔ ∀ path definition, ¬ Claims files name path definition := by
  rw [lastClaim?_eq_map, Option.map_eq_none_iff, List.getLast?_eq_none_iff,
    List.eq_nil_iff_forall_not_mem]
  constructor
  · intro absent path definition claims
    exact absent _ ((claims_iff_mem files name path definition).mp claims)
  · intro absent entry member
    obtain ⟨path, definition⟩ := entry
    exact absent path definition ((claims_iff_mem files name path definition).mpr member)

theorem exists_isLastClaim {files : SortedMap Path Definition} {name : Text}
    {definition : Definition} (found : lastClaim? files name = some definition) :
    ∃ path, IsLastClaim files name path definition := by
  rw [lastClaim?_eq_map, Option.map_eq_some_iff] at found
  obtain ⟨⟨path, last⟩, ends, rfl⟩ := found
  refine ⟨path, (claims_iff_mem files name path last).mpr (List.mem_of_getLast? ends), ?_⟩
  intro other claim claims
  have member := (claims_iff_mem files name other claim).mp claims
  have sorted := List.Pairwise.filter (fun entry => decide (entry.2.name = name)) files.sorted
  exact (SortedMap.eq_or_before_of_mem sorted ends member).imp_left (congrArg Prod.fst)

/-- No file that claims the name comes behind the last one. -/
theorem IsLastClaim.not_before {files : SortedMap Path Definition} {name : Text}
    {path other : Path} {definition claim : Definition}
    (isLast : IsLastClaim files name path definition)
    (claims : Claims files name other claim) : before path other = false := by
  rcases isLast.last other claim claims with rfl | first
  · exact OrderedKey.not_before_self other
  · exact SortedMap.not_before_of_before first

/-- There is one last file at most. -/
theorem IsLastClaim.unique {files : SortedMap Path Definition} {name : Text}
    {path other : Path} {definition claim : Definition}
    (left : IsLastClaim files name path definition) (right : IsLastClaim files name other claim) :
    path = other ∧ definition = claim := by
  have same : path = other := OrderedKey.eq_of_not_before path other
    (left.not_before right.claims) (right.not_before left.claims)
  subst same
  exact ⟨rfl, Option.some.inj (left.claims.1.symm.trans right.claims.1)⟩

theorem lastClaim?_eq_some_iff (files : SortedMap Path Definition) (name : Text)
    (definition : Definition) :
    lastClaim? files name = some definition ↔ ∃ path, IsLastClaim files name path definition := by
  constructor
  · exact exists_isLastClaim
  · intro isLastClaim
    obtain ⟨path, isLast⟩ := isLastClaim
    cases found : lastClaim? files name with
    | none => exact absurd isLast.claims ((lastClaim?_eq_none_iff files name).mp found _ _)
    | some claim =>
        obtain ⟨other, otherLast⟩ := exists_isLastClaim found
        rw [(otherLast.unique isLast).2]

theorem IsLastClaim.lastClaim? {files : SortedMap Path Definition} {name : Text} {path : Path}
    {definition : Definition} (isLast : IsLastClaim files name path definition) :
    lastClaim? files name = some definition :=
  (lastClaim?_eq_some_iff files name definition).mpr ⟨path, isLast⟩

theorem name_of_lastClaim? {files : SortedMap Path Definition} {name : Text}
    {definition : Definition} (found : lastClaim? files name = some definition) :
    definition.name = name := by
  obtain ⟨path, isLast⟩ := exists_isLastClaim found
  exact isLast.claims.2

/-- Fewer files claim no more, and the last claim stays the last one as long as it is there. -/
theorem lastClaim?_of_subset {files fewer : SortedMap Path Definition} {name : Text} {path : Path}
    {definition : Definition} (isLast : IsLastClaim files name path definition)
    (stays : Claims fewer name path definition)
    (subset : ∀ other claim, Claims fewer name other claim → Claims files name other claim) :
    lastClaim? fewer name = some definition :=
  IsLastClaim.lastClaim?
    ⟨stays, fun other claim claims => isLast.last other claim (subset other claim claims)⟩

/-- The same claims have the same last one. -/
theorem lastClaim?_congr {files others : SortedMap Path Definition} {name : Text}
    (same : ∀ path definition, Claims files name path definition ↔
      Claims others name path definition) : lastClaim? files name = lastClaim? others name := by
  cases found : lastClaim? others name with
  | none =>
      rw [lastClaim?_eq_none_iff] at found ⊢
      exact fun path definition claims => found path definition ((same path definition).mp claims)
  | some definition =>
      obtain ⟨path, isLast⟩ := exists_isLastClaim found
      exact lastClaim?_of_subset isLast ((same path definition).mpr isLast.claims)
        fun other claim => (same other claim).mp

end DocComponents.Catalog
