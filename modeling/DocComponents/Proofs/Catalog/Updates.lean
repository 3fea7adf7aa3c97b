import DocComponents.Proofs.Catalog.Update
import DocComponents.Proofs.File.Path

/-!
# Updates one after the other

Updates of different files run one by one over catalogs in which other files still hold what they
held before, so a file can take over a name and lose it again. What is registered in the end does
not depend on that: a name belongs to the last update that gives it; a name that no update gives
stays with its definition, if no update touches the file of that definition, and goes to the last
file that claims it in the end, otherwise.
-/

set_option autoImplicit false

namespace DocComponents.Catalog

/-- Files with what each of them gives. -/
abbrev Updates := List (Path × Option Definition)

def Updates.run (updates : Updates) (catalog : Catalog) : Catalog :=
  updates.foldl (fun current next => current.update next.1 next.2) catalog

/-- Updates of different files, of paths that can be told by their texts, whose definitions tell
these paths. -/
structure Updates.Fit (updates : Updates) : Prop where
  distinct : updates.Pairwise fun left right => left.1 ≠ right.1
  written : ∀ next ∈ updates, next.1.IsWritten
  source : ∀ next ∈ updates, ∀ definition, next.2 = some definition →
    definition.sourcePath = next.1.toText

def Updates.Spares (updates : Updates) (name : Text) : Prop :=
  ∀ next ∈ updates, ∀ definition, next.2 = some definition → definition.name ≠ name

/-- A consistent catalog whose files can be told by their texts. A definition made in memory tells
no path. -/
structure Sourced (catalog : Catalog) : Prop
    extends Consistent (fun definition => definition.sourcePath = []) catalog where
  written : ∀ path definition, catalog.files.get? path = some definition → path.IsWritten

variable {catalog : Catalog} {updates : Updates}

theorem Sourced.path_eq (sourced : Sourced catalog) {path other : Path} {definition : Definition}
    (written : path.IsWritten) (source : definition.sourcePath = path.toText)
    (given : catalog.files.get? other = some definition) : other = path :=
  (sourced.written other definition given).eq_of_toText_eq written
    ((sourced.source other definition given).symm.trans source)

/-- A file supplies a name exactly when the definition of that name is the one that it gives. -/
theorem Sourced.supplies_iff (sourced : Sourced catalog) {path : Path} (written : path.IsWritten)
    (name : Text) :
    catalog.Supplies path name ↔
      ∃ definition, catalog.get? name = some definition ∧
        catalog.files.get? path = some definition := by
  constructor
  · intro supplies
    obtain ⟨previous, current, -, registered, source⟩ := supplies
    refine ⟨current, registered, ?_⟩
    rcases sourced.origin name current registered with memory | ⟨other, given⟩
    · exact absurd (source.symm.trans memory) written.toText_ne_nil
    · exact sourced.path_eq written source given ▸ given
  · intro isGiven
    obtain ⟨definition, current, given⟩ := isGiven
    exact sourced.toConsistent.supplies current given

theorem Sourced.update (sourced : Sourced catalog) {path : Path} {given? : Option Definition}
    (written : path.IsWritten)
    (source : ∀ definition, given? = some definition → definition.sourcePath = path.toText) :
    Sourced (catalog.update path given?) where
  toConsistent := sourced.toConsistent.update source
  written := by
    intro other definition found
    rw [get?_files_update] at found
    split at found
    · next same => exact same ▸ written
    · exact sourced.written other definition found

theorem Updates.Fit.tail {next : Path × Option Definition} {rest : Updates}
    (fit : Updates.Fit (next :: rest)) : Updates.Fit rest where
  distinct := (List.pairwise_cons.mp fit.distinct).2
  written := fun later member => fit.written later (List.mem_cons_of_mem _ member)
  source := fun later member => fit.source later (List.mem_cons_of_mem _ member)

theorem Updates.Fit.ne_head {next later : Path × Option Definition} {rest : Updates}
    (fit : Updates.Fit (next :: rest)) (member : later ∈ rest) : later.1 ≠ next.1 :=
  ((List.pairwise_cons.mp fit.distinct).1 later member).symm

theorem Updates.Fit.update_head {next : Path × Option Definition} {rest : Updates}
    (fit : Updates.Fit (next :: rest)) (sourced : Sourced catalog) :
    Sourced (catalog.update next.1 next.2) :=
  sourced.update (fit.written next List.mem_cons_self) (fit.source next List.mem_cons_self)

theorem Sourced.run (sourced : Sourced catalog) (fit : updates.Fit) :
    Sourced (updates.run catalog) := by
  induction updates generalizing catalog with
  | nil => exact sourced
  | cons next rest ih => exact ih (fit.update_head sourced) fit.tail

theorem files_run_of_not_mem {path : Path} (untouched : ∀ next ∈ updates, next.1 ≠ path) :
    (updates.run catalog).files.get? path = catalog.files.get? path := by
  induction updates generalizing catalog with
  | nil => rfl
  | cons next rest ih =>
      have apart := untouched next List.mem_cons_self
      have apartLater : ∀ other ∈ rest, other.1 ≠ path := fun other member =>
        untouched other (List.mem_cons_of_mem _ member)
      refine (ih apartLater).trans ?_
      rw [get?_files_update, if_neg (Ne.symm apart)]

theorem files_run_of_mem (distinct : updates.Pairwise fun left right => left.1 ≠ right.1)
    {path : Path} {given? : Option Definition} (member : (path, given?) ∈ updates) :
    (updates.run catalog).files.get? path = given? := by
  induction updates generalizing catalog with
  | nil => cases member
  | cons next rest ih =>
      obtain ⟨apart, distinctLater⟩ := List.pairwise_cons.mp distinct
      rcases List.mem_cons.mp member with rfl | later
      · have untouched : ∀ other ∈ rest, other.1 ≠ path := fun other inside =>
          (apart other inside).symm
        refine (files_run_of_not_mem untouched).trans ?_
        rw [get?_files_update, if_pos rfl]
      · exact ih distinctLater later

/-- A definition stays registered as long as no update touches its file or gives its name. -/
theorem get?_run_of_kept (sourced : Sourced catalog) (fit : updates.Fit) {name : Text}
    {definition : Definition} (spares : updates.Spares name)
    (current : catalog.get? name = some definition)
    (kept : ∀ next ∈ updates, catalog.files.get? next.1 ≠ some definition) :
    (updates.run catalog).get? name = some definition := by
  induction updates generalizing catalog with
  | nil => exact current
  | cons next rest ih =>
      have head := fit.written next List.mem_cons_self
      have notSupplied : ¬ catalog.Supplies next.1 name := by
        rw [sourced.supplies_iff head]
        intro supplied
        obtain ⟨other, registered, given⟩ := supplied
        refine kept next List.mem_cons_self ?_
        rwa [Option.some.inj (current.symm.trans registered)]
      have still : (catalog.update next.1 next.2).get? name = some definition := by
        rw [get?_update_of_ne (spares next List.mem_cons_self),
          get?_forget_of_not_supplies notSupplied, current]
      refine ih (fit.update_head sourced) fit.tail
        (fun later member => spares later (List.mem_cons_of_mem _ member)) still ?_
      intro later member
      rw [get?_files_update, if_neg (fit.ne_head member)]
      exact kept later (List.mem_cons_of_mem _ member)

/-- Updates that do not give a name leave fewer claims of it. -/
theorem claims_of_claims_run (fit : updates.Fit) {name : Text} (spares : updates.Spares name)
    {path : Path} {definition : Definition}
    (claims : Claims (updates.run catalog).files name path definition) :
    Claims catalog.files name path definition ∧ ∀ next ∈ updates, next.1 ≠ path := by
  have untouched : ∀ next ∈ updates, next.1 ≠ path := by
    intro next member same
    obtain ⟨other, given?⟩ := next
    subst same
    have given := (files_run_of_mem fit.distinct member).symm.trans claims.1
    exact spares _ member definition given claims.2
  exact ⟨⟨(files_run_of_not_mem untouched).symm.trans claims.1, claims.2⟩, untouched⟩

/-- An update that does not give a name leaves the claims of it by other files. -/
theorem claims_update_iff {name : Text} {path : Path} {given? : Option Definition}
    (spares : ∀ definition, given? = some definition → definition.name ≠ name) (other : Path)
    (definition : Definition) :
    Claims (catalog.update path given?).files name other definition ↔
      Claims (catalog.files.erase path) name other definition := by
  rw [Claims, Claims, get?_files_update, SortedMap.get?_erase]
  split
  · constructor
    · intro claims
      obtain ⟨given, named⟩ := claims
      exact absurd named (spares definition given)
    · intro claims
      obtain ⟨given, -⟩ := claims
      cases given
  · rfl

/-- A name whose definition loses its file goes to the last file that claims it in the end, whatever
files took it over on the way. -/
theorem get?_run_of_lost (sourced : Sourced catalog) (fit : updates.Fit) {name : Text}
    (spares : updates.Spares name)
    (lost : ∀ definition, catalog.get? name = some definition →
      ∃ next ∈ updates, catalog.files.get? next.1 = some definition) :
    (updates.run catalog).get? name = lastClaim? (updates.run catalog).files name := by
  induction updates generalizing catalog with
  | nil =>
      cases current : catalog.get? name with
      | none =>
          refine Eq.trans current (Eq.symm ?_)
          rw [lastClaim?_eq_none_iff]
          intro path definition claims
          obtain ⟨given, rfl⟩ := claims
          obtain ⟨registered, found⟩ := sourced.registered path definition given
          cases current.symm.trans found
      | some definition =>
          obtain ⟨next, member, -⟩ := lost definition current
          cases member
  | cons next rest ih =>
      have head := fit.written next List.mem_cons_self
      have spared := spares next List.mem_cons_self
      have sparedLater : Updates.Spares rest name := fun later member =>
        spares later (List.mem_cons_of_mem _ member)
      have after := fit.update_head sourced
      have forgotten : (catalog.update next.1 next.2).get? name =
          (catalog.forget next.1).1.get? name := get?_update_of_ne spared
      by_cases supplies : catalog.Supplies next.1 name
      · have taken : (catalog.update next.1 next.2).get? name =
            lastClaim? (catalog.update next.1 next.2).files name := by
          rw [forgotten, get?_forget_of_supplies supplies]
          exact lastClaim?_congr fun path definition =>
            (claims_update_iff spared path definition).symm
        cases current : (catalog.update next.1 next.2).get? name with
        | none =>
            refine ih after fit.tail sparedLater ?_
            intro definition registered
            cases current.symm.trans registered
        | some successor =>
            -- The successor keeps the name, unless its file is updated later as well.
            by_cases again : ∃ later ∈ rest,
                (catalog.update next.1 next.2).files.get? later.1 = some successor
            · refine ih after fit.tail sparedLater ?_
              intro definition registered
              rwa [← Option.some.inj (current.symm.trans registered)]
            · have kept : ∀ later ∈ rest,
                  (catalog.update next.1 next.2).files.get? later.1 ≠ some successor :=
                fun later member given => again ⟨later, member, given⟩
              obtain ⟨path, isLast⟩ := exists_isLastClaim (taken.symm.trans current)
              have untouched : ∀ later ∈ rest, later.1 ≠ path := by
                intro later member same
                subst same
                exact kept later member isLast.claims.1
              have stays : Claims (Updates.run rest (catalog.update next.1 next.2)).files name path
                  successor :=
                ⟨(files_run_of_not_mem untouched).trans isLast.claims.1, isLast.claims.2⟩
              refine (get?_run_of_kept after fit.tail sparedLater current kept).trans (Eq.symm ?_)
              exact lastClaim?_of_subset isLast stays fun other claim claims =>
                (claims_of_claims_run fit.tail sparedLater claims).1
      · refine ih after fit.tail sparedLater ?_
        intro definition current
        rw [forgotten, get?_forget_of_not_supplies supplies] at current
        obtain ⟨later, member, given⟩ := lost definition current
        rcases List.mem_cons.mp member with rfl | inRest
        · exact absurd (sourced.toConsistent.supplies current given) supplies
        · refine ⟨later, inRest, ?_⟩
          rw [get?_files_update, if_neg (fit.ne_head inRest), given]

/-- The last update that gives a name decides. -/
theorem get?_run_of_given (sourced : Sourced catalog) {earlier later : Updates} {path : Path}
    {definition : Definition} (fit : Updates.Fit (earlier ++ (path, some definition) :: later))
    (spares : later.Spares definition.name) :
    (Updates.run (earlier ++ (path, some definition) :: later) catalog).get? definition.name =
      some definition := by
  induction earlier generalizing catalog with
  | cons next rest ih => exact ih (fit.update_head sourced) fit.tail
  | nil =>
      have current := get?_update_of_given catalog path definition
      refine get?_run_of_kept (fit.update_head sourced) fit.tail spares current ?_
      intro next member given
      have head := fit.written _ List.mem_cons_self
      have source := fit.source _ List.mem_cons_self definition rfl
      exact fit.ne_head member ((fit.update_head sourced).path_eq head source given)

end DocComponents.Catalog
