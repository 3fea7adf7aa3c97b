import DocComponents.Catalog.Loading
import DocComponents.Proofs.Catalog.Claims

/-!
# Updates of catalogs

Whatever a catalog does with a file is an update: from then on the file gives a definition, or it
gives none. An update changes what is known of its own file only. Of the registered definitions it
changes the one that the file gives now, which is taken, and the one that the file gave before, if
that was in use: then the last file that still claims the name takes over.
-/

set_option autoImplicit false

namespace DocComponents.Catalog

/-- The catalog once a file gives a definition, or none. -/
def update (catalog : Catalog) (path : Path) (given? : Option Definition) : Catalog :=
  match given? with
  | none => (catalog.forget path).1
  | some definition => (catalog.register definition (some path)).catalog

/-- A name whose definition in use came from a file that claims the name. -/
def Supplies (catalog : Catalog) (path : Path) (name : Text) : Prop :=
  ∃ previous current, Claims catalog.files name path previous ∧
    catalog.get? name = some current ∧ current.sourcePath = path.toText

theorem forget_of_absent {catalog : Catalog} {path : Path}
    (absent : catalog.files.get? path = none) : catalog.forget path = (catalog, none) := by
  unfold forget
  rw [absent]

theorem files_forget (catalog : Catalog) (path : Path) :
    (catalog.forget path).1.files = catalog.files.erase path := by
  cases found : catalog.files.get? path with
  | none =>
      rw [forget_of_absent found]
      apply SortedMap.eq_of_get?_eq
      intro other
      rw [SortedMap.get?_erase]
      split
      · next same => rw [same, found]
      · rfl
  | some previous =>
      unfold forget
      rw [found]

theorem times_forget (catalog : Catalog) (path : Path) :
    (catalog.forget path).1.times = catalog.times := by
  unfold forget
  split <;> rfl

theorem root_forget (catalog : Catalog) (path : Path) :
    (catalog.forget path).1.root = catalog.root := by
  unfold forget
  split <;> rfl

theorem get?_forget_of_supplies {catalog : Catalog} {path : Path} {name : Text}
    (supplies : catalog.Supplies path name) :
    (catalog.forget path).1.get? name = lastClaim? (catalog.files.erase path) name := by
  obtain ⟨previous, current, ⟨found, rfl⟩, registered, source⟩ := supplies
  have inUse : ((catalog.get? previous.name).any fun current =>
      current.sourcePath = path.toText) = true := by
    simp [registered, source]
  unfold forget
  rw [found]
  dsimp only
  rw [if_pos inUse]
  cases successor : lastClaim? (catalog.files.erase path) previous.name with
  | none => simp [get?]
  | some definition => simp [get?]

theorem get?_forget_of_not_supplies {catalog : Catalog} {path : Path} {name : Text}
    (kept : ¬ catalog.Supplies path name) :
    (catalog.forget path).1.get? name = catalog.get? name := by
  unfold forget
  split
  · rfl
  · next previous found =>
      dsimp only
      by_cases inUse : ((catalog.get? previous.name).any fun current =>
          current.sourcePath = path.toText) = true
      · rw [if_pos inUse]
        obtain ⟨current, registered, source⟩ := (Option.any_eq_true _ _).mp inUse
        have source := of_decide_eq_true source
        have apart : name ≠ previous.name := by
          intro same
          subst same
          exact kept ⟨previous, current, ⟨found, rfl⟩, registered, source⟩
        split <;> simp [get?, apart]
      · rw [if_neg inUse]
        rfl

theorem get?_files_update (catalog : Catalog) (path other : Path) (given? : Option Definition) :
    (catalog.update path given?).files.get? other =
      if other = path then given? else catalog.files.get? other := by
  cases given? with
  | none =>
      rw [update, files_forget, SortedMap.get?_erase]
  | some definition =>
      rw [update, register]
      dsimp only
      rw [SortedMap.get?_insert, files_forget, SortedMap.get?_erase]
      split <;> rfl

theorem times_update (catalog : Catalog) (path : Path) (given? : Option Definition) :
    (catalog.update path given?).times = catalog.times := by
  cases given? with
  | none => exact times_forget catalog path
  | some definition => exact times_forget catalog path

theorem root_update (catalog : Catalog) (path : Path) (given? : Option Definition) :
    (catalog.update path given?).root = catalog.root := by
  cases given? with
  | none => exact root_forget catalog path
  | some definition => exact root_forget catalog path

private theorem definitions_update_some (catalog : Catalog) (path : Path)
    (definition : Definition) :
    (catalog.update path (some definition)).definitions =
      (catalog.forget path).1.definitions.insert definition.name definition := rfl

theorem get?_update_of_given (catalog : Catalog) (path : Path) (definition : Definition) :
    (catalog.update path (some definition)).get? definition.name = some definition := by
  rw [get?, definitions_update_some, SortedMap.get?_insert, if_pos rfl]

theorem get?_update_of_ne {catalog : Catalog} {path : Path} {given? : Option Definition}
    {name : Text} (apart : ∀ definition, given? = some definition → definition.name ≠ name) :
    (catalog.update path given?).get? name = (catalog.forget path).1.get? name := by
  cases given? with
  | none => rfl
  | some definition =>
      have other := Ne.symm (apart definition rfl)
      rw [get?, definitions_update_some, SortedMap.get?_insert, if_neg other]
      rfl

/-- What holds of a catalog whose definitions come from files, but for those that were made in
memory. -/
structure Consistent (inMemory : Definition → Prop) (catalog : Catalog) : Prop where
  source : ∀ path definition, catalog.files.get? path = some definition →
    definition.sourcePath = path.toText
  registered : ∀ path definition, catalog.files.get? path = some definition →
    ∃ current, catalog.get? definition.name = some current
  named : ∀ name definition, catalog.get? name = some definition → definition.name = name
  origin : ∀ name definition, catalog.get? name = some definition →
    inMemory definition ∨ ∃ path, catalog.files.get? path = some definition

variable {inMemory : Definition → Prop} {catalog : Catalog}

theorem consistent_empty (root : Option Path) : Consistent inMemory { root } := by
  constructor <;> simp [get?]

/-- A definition in use that a file gives is supplied by that file. -/
theorem Consistent.supplies (consistent : Consistent inMemory catalog) {path : Path} {name : Text}
    {definition : Definition} (current : catalog.get? name = some definition)
    (given : catalog.files.get? path = some definition) : catalog.Supplies path name :=
  ⟨definition, definition, ⟨given, consistent.named name definition current⟩, current,
    consistent.source path definition given⟩

private theorem Consistent.forget_origin (consistent : Consistent inMemory catalog) {path : Path}
    {name : Text} {definition : Definition}
    (found : (catalog.forget path).1.get? name = some definition) :
    definition.name = name ∧ (inMemory definition ∨
      ∃ other, other ≠ path ∧ catalog.files.get? other = some definition) := by
  by_cases supplies : catalog.Supplies path name
  · rw [get?_forget_of_supplies supplies] at found
    obtain ⟨other, isLast⟩ := exists_isLastClaim found
    obtain ⟨given, named⟩ := isLast.claims
    rw [SortedMap.get?_erase] at given
    split at given
    · cases given
    · next apart => exact ⟨named, .inr ⟨other, apart, given⟩⟩
  · rw [get?_forget_of_not_supplies supplies] at found
    refine ⟨consistent.named name definition found, ?_⟩
    rcases consistent.origin name definition found with memory | ⟨other, given⟩
    · exact .inl memory
    · refine .inr ⟨other, ?_, given⟩
      intro same
      subst same
      exact supplies (consistent.supplies found given)

private theorem Consistent.forget_registered (consistent : Consistent inMemory catalog)
    {path other : Path} {definition : Definition} (apart : other ≠ path)
    (given : catalog.files.get? other = some definition) :
    ∃ current, (catalog.forget path).1.get? definition.name = some current := by
  by_cases supplies : catalog.Supplies path definition.name
  · rw [get?_forget_of_supplies supplies]
    cases successor : lastClaim? (catalog.files.erase path) definition.name with
    | some current => exact ⟨current, rfl⟩
    | none =>
        refine absurd ⟨?_, rfl⟩ ((lastClaim?_eq_none_iff _ _).mp successor other definition)
        rw [SortedMap.get?_erase, if_neg apart, given]
  · rw [get?_forget_of_not_supplies supplies]
    exact consistent.registered other definition given

/-- An update keeps a catalog consistent when the definition tells the path that it came from. -/
theorem Consistent.update (consistent : Consistent inMemory catalog) {path : Path}
    {given? : Option Definition}
    (source : ∀ definition, given? = some definition → definition.sourcePath = path.toText) :
    Consistent inMemory (catalog.update path given?) where
  source := by
    intro other definition found
    rw [get?_files_update] at found
    split at found
    · next same => exact same ▸ source definition found
    · exact consistent.source other definition found
  registered := by
    intro other definition found
    rw [get?_files_update] at found
    by_cases taken : ∃ claim, given? = some claim ∧ claim.name = definition.name
    · obtain ⟨claim, rfl, same⟩ := taken
      exact ⟨claim, same ▸ get?_update_of_given catalog path claim⟩
    · rw [get?_update_of_ne fun claim given same => taken ⟨claim, given, same⟩]
      split at found
      · exact absurd ⟨definition, found, rfl⟩ taken
      · next apart => exact consistent.forget_registered apart found
  named := by
    intro name definition found
    by_cases taken : ∃ claim, given? = some claim ∧ claim.name = name
    · obtain ⟨claim, rfl, rfl⟩ := taken
      rw [get?_update_of_given] at found
      exact congrArg Definition.name (Option.some.inj found).symm
    · rw [get?_update_of_ne fun claim given same => taken ⟨claim, given, same⟩] at found
      exact (consistent.forget_origin found).1
  origin := by
    intro name definition found
    by_cases taken : ∃ claim, given? = some claim ∧ claim.name = name
    · obtain ⟨claim, rfl, rfl⟩ := taken
      rw [get?_update_of_given] at found
      exact .inr ⟨path, by rw [get?_files_update, if_pos rfl, found]⟩
    · rw [get?_update_of_ne fun claim given same => taken ⟨claim, given, same⟩] at found
      refine (consistent.forget_origin found).2.imp_right ?_
      intro givenBy
      obtain ⟨other, apart, given⟩ := givenBy
      exact ⟨other, by rw [get?_files_update, if_neg apart, given]⟩

end DocComponents.Catalog
