import DocComponents.Proofs.Catalog.Reading

/-!
# Histories of catalogs

A history is a list of operations, each with the files as they are at its time, so anything can
happen to the files between two operations. Every catalog that a history leads to from an empty one
is in order: its files, their times and the registered definitions fit together, whatever the files
held, lost or claimed on the way.
-/

set_option autoImplicit false

namespace DocComponents.Catalog

/-- What can be done to a catalog. A definition that is made in memory tells no path. -/
inductive Operation where
  | loadFile (path : Path)
  | loadDirectory (root : Option Path)
  | refresh
  | removePath (path : Path)
  | rename (source target : Path)
  | unregister (name : Text)
  | clear
  | register (definition : Definition) (inMemory : definition.sourcePath = [])

def Operation.run (operation : Operation) (disk : Disk) (catalog : Catalog) : Catalog :=
  match operation with
  | .loadFile path => (catalog.loadFile disk path).catalog
  | .loadDirectory root => (catalog.loadDirectory disk root).catalog
  | .refresh => (catalog.refresh disk).catalog
  | .removePath path => (catalog.removePath path).catalog
  | .rename source target => (catalog.rename disk source target).catalog
  | .unregister name => (catalog.unregister name).catalog
  | .clear => catalog.clear
  | .register definition _ => (catalog.register definition).catalog

/-- Operations, each with the disk at its time. -/
abbrev History := List (Disk × Operation)

def History.run (history : History) (catalog : Catalog) : Catalog :=
  history.foldl (fun current event => event.2.run event.1 current) catalog

def History.Registers (history : History) (definition : Definition) : Prop :=
  ∃ disk inMemory, (disk, Operation.register definition inMemory) ∈ history

/-- A consistent catalog that knows the time of every file it has a definition from. -/
structure InOrder (inMemory : Definition → Prop) (catalog : Catalog) : Prop
    extends Consistent inMemory catalog where
  timed : ∀ path definition, catalog.files.get? path = some definition →
    ∃ time, catalog.times.get? path = some time

variable {inMemory : Definition → Prop} {catalog : Catalog}

theorem inOrder_empty (root : Option Path) : InOrder inMemory { root } where
  toConsistent := consistent_empty root
  timed := by simp

theorem InOrder.mono {weaker : Definition → Prop} (inOrder : InOrder inMemory catalog)
    (implies : ∀ definition, inMemory definition → weaker definition) :
    InOrder weaker catalog where
  source := inOrder.source
  registered := inOrder.registered
  named := inOrder.named
  origin := fun name definition current =>
    (inOrder.origin name definition current).imp_left (implies definition)
  timed := inOrder.timed

theorem Consistent.congr {other : Catalog} (consistent : Consistent inMemory catalog)
    (files : other.files = catalog.files) (definitions : other.definitions = catalog.definitions) :
    Consistent inMemory other := by
  obtain ⟨source, registered, named, origin⟩ := consistent
  constructor <;> simpa only [files, definitions, get?]

theorem InOrder.take (inOrder : InOrder inMemory catalog) (path : Path) (text : Text) (time : Int) :
    InOrder inMemory (catalog.take path text time) where
  toConsistent :=
    (inOrder.toConsistent.update fun _ read => Definition.sourcePath_of_read? read).congr rfl rfl
  timed := by
    intro other definition found
    have known : (catalog.take path text time).times = catalog.times.insert path time :=
      congrArg (·.insert path time) (times_update catalog path _)
    have given := get?_files_update catalog path other (Definition.read? text path.toText)
    rw [known, SortedMap.get?_insert]
    by_cases same : other = path
    · exact ⟨time, if_pos same⟩
    · rw [if_neg same] at given ⊢
      exact inOrder.timed other definition (given.symm.trans found)

theorem InOrder.loadFile (inOrder : InOrder inMemory catalog) (disk : Disk) (path : Path) :
    InOrder inMemory (catalog.loadFile disk path).catalog := by
  rw [catalog_loadFile]
  split
  · exact inOrder
  · exact inOrder.take path _ _

theorem InOrder.loadFiles (inOrder : InOrder inMemory catalog) (disk : Disk) (paths : List Path) :
    InOrder inMemory (Catalog.loadFiles disk paths catalog).catalog := by
  induction paths generalizing catalog with
  | nil => exact inOrder
  | cons path rest ih => exact ih (inOrder.loadFile disk path)

theorem InOrder.removePath (inOrder : InOrder inMemory catalog) (path : Path) (written : Text) :
    InOrder inMemory (catalog.removePath path written).catalog := by
  rw [catalog_removePath]
  have removed : Consistent inMemory (catalog.update path none) :=
    inOrder.toConsistent.update (by simp)
  refine ⟨removed.congr rfl rfl, ?_⟩
  intro other definition found
  have given := (get?_files_update catalog path other none).symm.trans found
  dsimp only
  rw [SortedMap.get?_erase]
  by_cases same : other = path
  · rw [if_pos same] at given
    cases given
  · rw [if_neg same] at given ⊢
    exact inOrder.timed other definition given

theorem InOrder.removePaths (inOrder : InOrder inMemory catalog) (paths : List Path) :
    InOrder inMemory (Catalog.removePaths paths catalog).catalog := by
  induction paths generalizing catalog with
  | nil => exact inOrder
  | cons path rest ih => exact ih (inOrder.removePath path _)

theorem InOrder.refresh (inOrder : InOrder inMemory catalog) (disk : Disk) :
    InOrder inMemory (catalog.refresh disk).catalog := by
  unfold Catalog.refresh
  split
  · exact inOrder
  · exact inOrder.removePaths _
  · exact (inOrder.removePaths _).loadFiles disk _

theorem InOrder.rename (inOrder : InOrder inMemory catalog) (disk : Disk) (source target : Path) :
    InOrder inMemory (catalog.rename disk source target).catalog := by
  unfold Catalog.rename
  dsimp only
  split
  · exact (inOrder.removePath source source.toText).loadFile disk target
  · exact inOrder.removePath source source.toText

theorem inOrder_loadDirectory (catalog : Catalog) (disk : Disk) (root : Option Path) :
    InOrder inMemory (catalog.loadDirectory disk root).catalog := by
  have empty : InOrder inMemory ({ catalog with root := root.or catalog.root } : Catalog).clear :=
    inOrder_empty _
  unfold Catalog.loadDirectory
  dsimp only
  split
  · exact empty
  · exact empty
  · exact empty.loadFiles disk _

theorem InOrder.register (inOrder : InOrder inMemory catalog) {definition : Definition}
    (memory : inMemory definition) : InOrder inMemory (catalog.register definition).catalog := by
  have definitions : ∀ name, (catalog.register definition).catalog.get? name =
      if name = definition.name then some definition else catalog.get? name :=
    fun name => SortedMap.get?_insert catalog.definitions definition.name name definition
  refine ⟨⟨inOrder.source, ?_, ?_, ?_⟩, inOrder.timed⟩
  · intro path other found
    obtain ⟨current, registered⟩ := inOrder.registered path other found
    rw [definitions]
    split
    · exact ⟨definition, rfl⟩
    · exact ⟨current, registered⟩
  · intro name other found
    rw [definitions] at found
    split at found
    · next same => rw [same, Option.some.inj found]
    · exact inOrder.named name other found
  · intro name other found
    rw [definitions] at found
    split at found
    · exact .inl (Option.some.inj found ▸ memory)
    · exact inOrder.origin name other found

theorem InOrder.unregister (inOrder : InOrder inMemory catalog) (name : Text) :
    InOrder inMemory (catalog.unregister name).catalog := by
  have definitions : ∀ other, (catalog.unregister name).catalog.get? other =
      if other = name then none else catalog.get? other :=
    fun other => SortedMap.get?_erase catalog.definitions name other
  have files : ∀ path definition,
      (catalog.unregister name).catalog.files.get? path = some definition ↔
        catalog.files.get? path = some definition ∧ definition.name ≠ name := by
    intro path definition
    rw [Catalog.unregister]
    dsimp only
    rw [SortedMap.get?_filter_eq_some_iff]
    constructor
    · intro keptFound
      obtain ⟨found, kept⟩ := keptFound
      exact ⟨found, by simpa [found] using kept⟩
    · intro foundApart
      obtain ⟨found, apart⟩ := foundApart
      exact ⟨found, by simpa [found] using apart⟩
  refine ⟨⟨?_, ?_, ?_, ?_⟩, ?_⟩
  · intro path definition found
    exact inOrder.source path definition ((files path definition).mp found).1
  · intro path definition found
    obtain ⟨given, apart⟩ := (files path definition).mp found
    rw [definitions, if_neg apart]
    exact inOrder.registered path definition given
  · intro other definition found
    rw [definitions] at found
    split at found
    · cases found
    · exact inOrder.named other definition found
  · intro other definition found
    rw [definitions] at found
    split at found
    · cases found
    · next apart =>
        refine (inOrder.origin other definition found).imp_right ?_
        intro isGiven
        obtain ⟨path, given⟩ := isGiven
        refine ⟨path, (files path definition).mpr ⟨given, ?_⟩⟩
        rwa [inOrder.named other definition found]
  · intro path definition found
    obtain ⟨given, apart⟩ := (files path definition).mp found
    obtain ⟨time, noted⟩ := inOrder.timed path definition given
    exact ⟨time, (SortedMap.get?_filter_eq_some_iff _ _ _ _).mpr ⟨noted, by simpa [given]⟩⟩

theorem InOrder.run (inOrder : InOrder inMemory catalog) (operation : Operation) (disk : Disk)
    (memory : ∀ definition made, operation = .register definition made → inMemory definition) :
    InOrder inMemory (operation.run disk catalog) := by
  cases operation with
  | loadFile path => exact inOrder.loadFile disk path
  | loadDirectory root => exact inOrder_loadDirectory catalog disk root
  | refresh => exact inOrder.refresh disk
  | removePath path => exact inOrder.removePath path _
  | rename source target => exact inOrder.rename disk source target
  | unregister name => exact inOrder.unregister name
  | clear => exact inOrder_empty _
  | register definition made => exact inOrder.register (memory definition made rfl)

theorem InOrder.history (inOrder : InOrder inMemory catalog) (history : History)
    (memory : ∀ definition, history.Registers definition → inMemory definition) :
    InOrder inMemory (history.run catalog) := by
  induction history generalizing catalog with
  | nil => exact inOrder
  | cons event rest ih =>
      refine ih (inOrder.run event.2 event.1 ?_) ?_
      · intro definition made same
        refine memory definition ⟨event.1, made, ?_⟩
        rw [← same]
        exact List.mem_cons_self
      · intro definition registers
        obtain ⟨disk, made, member⟩ := registers
        exact memory definition ⟨disk, made, List.mem_cons_of_mem _ member⟩

theorem inOrder_of_history (root : Option Path) (history : History) :
    InOrder history.Registers (history.run { root }) :=
  (inOrder_empty root).history history fun _ registers => registers

/-- The files, the times and the registered definitions of a catalog fit together after every
history: no registered definition outlives the file that it came from. -/
theorem history_keeps_order (root : Option Path) (history : History) :
    (∀ path definition, (history.run { root }).files.get? path = some definition →
        definition.sourcePath = path.toText) ∧
      (∀ path definition, (history.run { root }).files.get? path = some definition →
        ∃ time, (history.run { root }).times.get? path = some time) ∧
      (∀ path definition, (history.run { root }).files.get? path = some definition →
        ∃ current, (history.run { root }).get? definition.name = some current) ∧
      ∀ name definition, (history.run { root }).get? name = some definition →
        history.Registers definition ∨
          ∃ path, path.toText = definition.sourcePath ∧
            (history.run { root }).files.get? path = some definition := by
  have inOrder := inOrder_of_history root history
  refine ⟨inOrder.source, inOrder.timed, inOrder.registered, ?_⟩
  intro name definition current
  refine (inOrder.origin name definition current).imp_right ?_
  intro isGiven
  obtain ⟨path, given⟩ := isGiven
  exact ⟨path, (inOrder.source path definition given).symm, given⟩

end DocComponents.Catalog
