import DocComponents.Proofs.Catalog.Located

/-!
# The effect of a refresh

A refresh forgets files one by one and loads others one by one, over catalogs in which files that
come later still claim the names they had. What comes out is told without these steps: the files and
their times by what became of each file, and the registered definitions by the files before and
after.
-/

set_option autoImplicit false

namespace DocComponents.Catalog

/-- A file whose time is noted although a scan of the folder does not find it. -/
def isGone (catalog : Catalog) (disk : Disk) (folder path : Path) : Bool :=
  catalog.times.contains path && !(scan disk folder).contains path

/-- The text and the time of a file that a scan of the folder finds and that can be read, if the
time is not the one noted. -/
def reloaded? (catalog : Catalog) (disk : Disk) (folder path : Path) : Option (Text × Int) :=
  if (scan disk folder).contains path then
    (disk.reading? path).filter fun found => catalog.times.get? path != some found.2
  else none

/-- A definition made in memory, or that of a file that is neither gone nor reloaded. -/
def stays (catalog : Catalog) (disk : Disk) (folder : Path) (definition : Definition) : Bool :=
  definition.sourcePath.isEmpty ||
    catalog.files.entries.any fun entry =>
      entry.2 = definition && !catalog.isGone disk folder entry.1 &&
        (catalog.reloaded? disk folder entry.1).isNone

/-- What a file gives after a refresh. -/
def refreshedFile? (catalog : Catalog) (disk : Disk) (folder path : Path) : Option Definition :=
  if catalog.isGone disk folder path then none
  else
    match catalog.reloaded? disk folder path with
    | some (text, _) => Definition.read? text path.toText
    | none => catalog.files.get? path

/-- The time that is noted for a file after a refresh. -/
def refreshedTime? (catalog : Catalog) (disk : Disk) (folder path : Path) : Option Int :=
  if catalog.isGone disk folder path then none
  else
    match catalog.reloaded? disk folder path with
    | some (_, time) => some time
    | none => catalog.times.get? path

def reloadedFiles (catalog : Catalog) (disk : Disk) (folder : Path)
    (files : SortedMap Path Definition) : SortedMap Path Definition :=
  files.filter fun path _ => (catalog.reloaded? disk folder path).isSome

/-- The definition of a name after a refresh, from what the files give then: that of the last
reloaded file that claims the name; else the one before, if it stays; else that of the last file at
all that claims the name. -/
def refreshed? (catalog : Catalog) (disk : Disk) (folder : Path)
    (files : SortedMap Path Definition) (name : Text) : Option Definition :=
  (lastClaim? (catalog.reloadedFiles disk folder files) name).or
    (((catalog.get? name).filter (catalog.stays disk folder)).or (lastClaim? files name))

variable {catalog : Catalog} {disk : Disk} {folder : Path}

theorem reloaded?_eq_some_iff {path : Path} {found : Text × Int} :
    catalog.reloaded? disk folder path = some found ↔
      path ∈ scan disk folder ∧ disk.reading? path = some found ∧
        catalog.times.get? path ≠ some found.2 := by
  unfold reloaded?
  by_cases member : path ∈ scan disk folder
  · simp [member, Option.filter_eq_some_iff]
  · simp [member]

theorem isGone_eq_true_iff {path : Path} :
    catalog.isGone disk folder path = true ↔ path ∈ catalog.gone (scan disk folder) := by
  rw [isGone, gone, Bool.and_eq_true, SortedMap.contains_eq_true_iff, List.mem_filter,
    SortedMap.mem_keys_iff]

theorem isGone_eq_false_of_reloaded? {path : Path} {found : Text × Int}
    (reloaded : catalog.reloaded? disk folder path = some found) :
    catalog.isGone disk folder path = false := by
  have member := (reloaded?_eq_some_iff.mp reloaded).1
  simp [isGone, member]

theorem refreshedFile?_of_reloaded? {path : Path} {found : Text × Int}
    (reloaded : catalog.reloaded? disk folder path = some found) :
    catalog.refreshedFile? disk folder path = Definition.read? found.1 path.toText := by
  rw [refreshedFile?, if_neg (by simp [isGone_eq_false_of_reloaded? reloaded]), reloaded]

theorem stays_eq_true_iff {definition : Definition} :
    catalog.stays disk folder definition = true ↔
      definition.sourcePath = [] ∨ ∃ path, catalog.files.get? path = some definition ∧
        catalog.isGone disk folder path = false ∧ catalog.reloaded? disk folder path = none := by
  simp only [stays, Bool.or_eq_true, List.isEmpty_iff, List.any_eq_true, Bool.and_eq_true,
    decide_eq_true_eq, Bool.not_eq_true', Option.isNone_iff_eq_none, SortedMap.get?_eq_some_iff]
  constructor
  · intro stays
    rcases stays with memory | ⟨⟨path, other⟩, member, ⟨rfl, notGone⟩, notReloaded⟩
    · exact .inl memory
    · exact .inr ⟨path, member, notGone, notReloaded⟩
  · intro stays
    rcases stays with memory | ⟨path, member, notGone, notReloaded⟩
    · exact .inl memory
    · exact .inr ⟨(path, definition), member, ⟨rfl, notGone⟩, notReloaded⟩

theorem update_withTimes (catalog : Catalog) (times : SortedMap Path Int) (path : Path)
    (given? : Option Definition) :
    ({ catalog with times } : Catalog).update path given? =
      { catalog.update path given? with times } := by
  have forgotten : (({ catalog with times } : Catalog).forget path).1 =
      { (catalog.forget path).1 with times } := by
    cases found : catalog.files.get? path with
    | none =>
        rw [forget_of_absent found, forget_of_absent (by exact found)]
    | some previous =>
        unfold forget
        dsimp only
        rw [found]
        rfl
  cases given? with
  | none => exact forgotten
  | some definition =>
      unfold update register
      dsimp only
      rw [forgotten]

/-- The updates that loading files makes: those of the files that can be read. -/
def readings (disk : Disk) (paths : List Path) : Updates :=
  paths.filterMap fun path =>
    (disk.reading? path).map fun found => (path, Definition.read? found.1 path.toText)

theorem mem_readings_iff {paths : List Path} {path : Path} {given? : Option Definition} :
    (path, given?) ∈ readings disk paths ↔
      path ∈ paths ∧ ∃ found, disk.reading? path = some found ∧
        Definition.read? found.1 path.toText = given? := by
  simp only [readings, List.mem_filterMap, Option.map_eq_some_iff, Prod.mk.injEq]
  constructor
  · intro isReading
    obtain ⟨other, member, found, read, rfl, given⟩ := isReading
    exact ⟨member, found, read, given⟩
  · intro isReading
    obtain ⟨member, found, read, given⟩ := isReading
    exact ⟨path, member, found, read, rfl, given⟩

theorem readings_pairwise {disk : Disk} {paths : List Path}
    (sorted : paths.Pairwise fun left right => before left right = true) :
    (readings disk paths).Pairwise fun left right => before left.1 right.1 = true := by
  refine List.pairwise_filterMap.mpr (sorted.imp ?_)
  intro left right ordered first isFirst second isSecond
  obtain ⟨_, -, rfl⟩ := Option.map_eq_some_iff.mp isFirst
  obtain ⟨_, -, rfl⟩ := Option.map_eq_some_iff.mp isSecond
  exact ordered

private theorem run_withTimes (updates : Updates) (catalog : Catalog)
    (times : SortedMap Path Int) :
    updates.run { catalog with times } = { updates.run catalog with times } := by
  induction updates generalizing catalog with
  | nil => rfl
  | cons next rest ih =>
      have first := update_withTimes catalog times next.1 next.2
      refine Eq.trans ?_ (ih _)
      exact congrArg (Updates.run rest) first

/-- Loading files runs the updates of those that can be read. -/
theorem loadFiles_eq_run (disk : Disk) (paths : List Path) (catalog : Catalog) :
    ∃ times, (loadFiles disk paths catalog).catalog =
      { (readings disk paths).run catalog with times } := by
  induction paths generalizing catalog with
  | nil => exact ⟨catalog.times, rfl⟩
  | cons path rest ih =>
      obtain ⟨times, later⟩ := ih (catalog.loadFile disk path).catalog
      refine ⟨times, later.trans ?_⟩
      rw [catalog_loadFile]
      cases read : disk.reading? path with
      | none =>
          have skipped : readings disk (path :: rest) = readings disk rest := by
            simp [readings, read]
          rw [skipped]
      | some found =>
          have head : readings disk (path :: rest) =
              (path, Definition.read? found.1 path.toText) :: readings disk rest := by
            simp [readings, read]
          rw [head]
          have same := run_withTimes (readings disk rest)
            (catalog.update path (Definition.read? found.1 path.toText))
            ((catalog.update path (Definition.read? found.1 path.toText)).times.insert path found.2)
          have files := congrArg (fun current : Catalog => { current with times }) same
          exact files

theorem removePaths_eq_run (paths : List Path) (catalog : Catalog) :
    ∃ times, (removePaths paths catalog).catalog =
      { Updates.run (paths.map fun path => (path, none)) catalog with times } := by
  induction paths generalizing catalog with
  | nil => exact ⟨catalog.times, rfl⟩
  | cons path rest ih =>
      obtain ⟨times, later⟩ := ih (catalog.removePath path).catalog
      refine ⟨times, later.trans ?_⟩
      rw [catalog_removePath]
      have same := run_withTimes (rest.map fun path => (path, none)) (catalog.update path none)
        (catalog.times.erase path)
      exact congrArg (fun current : Catalog => { current with times }) same

/-- The updates of a refresh: those of the files that are gone, then those of the reloaded ones. -/
def refreshUpdates (catalog : Catalog) (disk : Disk) (folder : Path) : Updates :=
  ((catalog.gone (scan disk folder)).map fun path => (path, none)) ++
    readings disk (catalog.changed disk (scan disk folder))

theorem refresh_eq_run (found : catalog.folder? disk = .ok (some folder)) :
    ∃ times, (catalog.refresh disk).catalog =
      { (catalog.refreshUpdates disk folder).run catalog with times } := by
  obtain ⟨removedTimes, removed⟩ := removePaths_eq_run (catalog.gone (scan disk folder)) catalog
  obtain ⟨times, loaded⟩ := loadFiles_eq_run disk (catalog.changed disk (scan disk folder))
    (removePaths (catalog.gone (scan disk folder)) catalog).catalog
  refine ⟨times, ?_⟩
  unfold refresh
  rw [found]
  refine loaded.trans ?_
  rw [removed, run_withTimes, refreshUpdates, Updates.run, Updates.run, Updates.run,
    List.foldl_append]

theorem mem_changed_iff {path : Path} :
    path ∈ catalog.changed disk (scan disk folder) ↔
      path ∈ scan disk folder ∧ catalog.times.get? path ≠ disk.changeTime? path := by
  simp [changed]

theorem mem_readings_changed_iff {path : Path} {given? : Option Definition} :
    (path, given?) ∈ readings disk (catalog.changed disk (scan disk folder)) ↔
      ∃ found, catalog.reloaded? disk folder path = some found ∧
        Definition.read? found.1 path.toText = given? := by
  simp only [mem_readings_iff, mem_changed_iff, reloaded?_eq_some_iff]
  constructor
  · intro isReading
    obtain ⟨⟨scanned, changed⟩, found, read, given⟩ := isReading
    rw [Disk.changeTime?_of_reading? read] at changed
    exact ⟨found, ⟨scanned, read, changed⟩, given⟩
  · intro isReloaded
    obtain ⟨found, ⟨scanned, read, changed⟩, given⟩ := isReloaded
    rw [← Disk.changeTime?_of_reading? read] at changed
    exact ⟨⟨scanned, changed⟩, found, read, given⟩

theorem mem_refreshUpdates_iff {path : Path} {given? : Option Definition} :
    (path, given?) ∈ catalog.refreshUpdates disk folder ↔
      catalog.isGone disk folder path = true ∧ given? = none ∨
        ∃ found, catalog.reloaded? disk folder path = some found ∧
          Definition.read? found.1 path.toText = given? := by
  rw [refreshUpdates, List.mem_append, mem_readings_changed_iff, isGone_eq_true_iff]
  refine or_congr_left ?_
  simp only [List.mem_map, Prod.mk.injEq]
  constructor
  · intro isUpdate
    obtain ⟨other, member, rfl, rfl⟩ := isUpdate
    exact ⟨member, rfl⟩
  · intro isGone
    obtain ⟨member, rfl⟩ := isGone
    exact ⟨path, member, rfl, rfl⟩

theorem fit_refreshUpdates (located : Located catalog) (named : disk.WellNamed)
    (written : folder.IsWritten) : (catalog.refreshUpdates disk folder).Fit where
  distinct := by
    refine List.pairwise_append.mpr ⟨?_, ?_, ?_⟩
    · refine List.pairwise_map.mpr (List.Pairwise.filter _ ?_)
      exact catalog.times.keys_pairwise.imp OrderedKey.ne_of_before
    · refine (readings_pairwise ?_).imp OrderedKey.ne_of_before
      exact List.Pairwise.filter _ (disk.filesBelow_pairwise folder _)
    · intro left first right second same
      obtain ⟨path, given?⟩ := left
      obtain ⟨other, otherGiven?⟩ := right
      subst same
      obtain ⟨path, isGone, same⟩ := List.mem_map.mp first
      cases same
      obtain ⟨found, reloaded, -⟩ := mem_readings_changed_iff.mp second
      have notGone := isGone_eq_false_of_reloaded? reloaded
      rw [isGone_eq_true_iff.mpr isGone] at notGone
      cases notGone
  written := by
    intro next member
    obtain ⟨path, given?⟩ := next
    rcases mem_refreshUpdates_iff.mp member with ⟨isGone, -⟩ | ⟨found, reloaded, -⟩
    · obtain ⟨known, -⟩ := List.mem_filter.mp (isGone_eq_true_iff.mp isGone)
      obtain ⟨time, noted⟩ := (SortedMap.mem_keys_iff _ _).mp known
      exact located.times path time noted
    · exact isWritten_of_mem_scan named written (reloaded?_eq_some_iff.mp reloaded).1
  source := by
    intro next member definition given
    obtain ⟨path, given?⟩ := next
    rcases mem_refreshUpdates_iff.mp member with ⟨-, rfl⟩ | ⟨found, reloaded, read⟩
    · cases given
    · exact Definition.sourcePath_of_read? (read.trans given)

/-- The updates that give definitions come in path order. -/
theorem refreshUpdates_pairwise (catalog : Catalog) (disk : Disk) (folder : Path) :
    (catalog.refreshUpdates disk folder).Pairwise fun left right =>
      left.2 ≠ none → before left.1 right.1 = true := by
  refine List.pairwise_append.mpr ⟨?_, ?_, ?_⟩
  · refine List.pairwise_map.mpr (List.pairwise_of_forall ?_)
    intro left right given
    exact absurd rfl given
  · have sorted : (catalog.changed disk (scan disk folder)).Pairwise fun left right =>
        before left right = true := List.Pairwise.filter _ (disk.filesBelow_pairwise folder _)
    refine (readings_pairwise sorted).imp ?_
    intro left right ordered given
    exact ordered
  · intro left first right second given
    obtain ⟨path, -, rfl⟩ := List.mem_map.mp first
    exact absurd rfl given

theorem files_refresh (located : Located catalog) (named : disk.WellNamed)
    (found : catalog.folder? disk = .ok (some folder)) (path : Path) :
    (catalog.refresh disk).catalog.files.get? path =
      catalog.refreshedFile? disk folder path := by
  have fit := fit_refreshUpdates located named (located.root folder (root_of_folder? found))
  obtain ⟨times, ran⟩ := refresh_eq_run found
  rw [ran, refreshedFile?]
  split
  · next isGone =>
      exact files_run_of_mem fit.distinct (mem_refreshUpdates_iff.mpr (.inl ⟨isGone, rfl⟩))
  · next stands =>
      split
      · next text time reloaded =>
          exact files_run_of_mem fit.distinct (mem_refreshUpdates_iff.mpr (.inr ⟨_, reloaded, rfl⟩))
      · next kept =>
          refine files_run_of_not_mem ?_
          intro next member same
          obtain ⟨other, given?⟩ := next
          subst same
          rcases mem_refreshUpdates_iff.mp member with ⟨isGone, -⟩ | ⟨_, reloaded, -⟩
          · exact stands isGone
          · cases kept.symm.trans reloaded

theorem files_refresh_of_untouched (located : Located catalog) (named : disk.WellNamed)
    (found : catalog.folder? disk = .ok (some folder)) {path : Path}
    (stands : catalog.isGone disk folder path = false)
    (notReloaded : catalog.reloaded? disk folder path = none) :
    (catalog.refresh disk).catalog.files.get? path = catalog.files.get? path := by
  rw [files_refresh located named found, refreshedFile?, if_neg (by simp [stands]), notReloaded]

theorem times_refresh (found : catalog.folder? disk = .ok (some folder)) (path : Path) :
    (catalog.refresh disk).catalog.times.get? path =
      catalog.refreshedTime? disk folder path := by
  have loaded : (catalog.refresh disk).catalog.times.get? path =
      (loadFiles disk (catalog.changed disk (scan disk folder))
        (removePaths (catalog.gone (scan disk folder)) catalog).catalog).catalog.times.get?
          path := by
    unfold refresh
    rw [found]
  rw [loaded, times_loadFiles, times_removePaths, refreshedTime?]
  by_cases isGone : catalog.isGone disk folder path = true
  · have notScanned : path ∉ scan disk folder := by
      simpa using (List.mem_filter.mp (isGone_eq_true_iff.mp isGone)).2
    rw [if_neg fun member => notScanned (mem_changed_iff.mp member).1,
      if_pos (isGone_eq_true_iff.mp isGone), if_pos isGone]
  · rw [if_neg fun member => isGone (isGone_eq_true_iff.mpr member), if_neg isGone]
    cases reloaded : catalog.reloaded? disk folder path with
    | some found =>
        obtain ⟨scanned, read, changed⟩ := reloaded?_eq_some_iff.mp reloaded
        rw [← Disk.changeTime?_of_reading? read] at changed
        rw [if_pos (mem_changed_iff.mpr ⟨scanned, changed⟩), read]
        rfl
    | none =>
        -- A file that can be read but is not reloaded has kept the time that is noted.
        cases read : disk.reading? path with
        | none => simp
        | some found =>
            rw [if_neg]
            intro member
            obtain ⟨scanned, changed⟩ := mem_changed_iff.mp member
            rw [Disk.changeTime?_of_reading? read] at changed
            have taken := reloaded?_eq_some_iff.mpr ⟨scanned, read, changed⟩
            cases reloaded.symm.trans taken

private theorem claim_of_mem (located : Located catalog) (named : disk.WellNamed)
    (found : catalog.folder? disk = .ok (some folder)) {path : Path} {definition : Definition}
    (member : (path, some definition) ∈ catalog.refreshUpdates disk folder) :
    (catalog.reloadedFiles disk folder (catalog.refresh disk).catalog.files).get? path =
      some definition := by
  rcases mem_refreshUpdates_iff.mp member with ⟨-, given⟩ | ⟨reading, reloaded, read⟩
  · cases given
  · refine (SortedMap.get?_filter_eq_some_iff _ _ _ _).mpr ⟨?_, by rw [reloaded]; rfl⟩
    rw [files_refresh located named found, refreshedFile?_of_reloaded? reloaded, read]

/-- The name goes to the last reloaded file that claims it. -/
private theorem get?_refresh_of_reloaded (sourced : Sourced catalog) (located : Located catalog)
    (named : disk.WellNamed) (found : catalog.folder? disk = .ok (some folder)) {name : Text}
    {path : Path} {definition : Definition}
    (isLast : IsLastClaim (catalog.reloadedFiles disk folder (catalog.refresh disk).catalog.files)
      name path definition) :
    (catalog.refresh disk).catalog.get? name = some definition := by
  have fit := fit_refreshUpdates located named (located.root folder (root_of_folder? found))
  obtain ⟨given, reloads⟩ := (SortedMap.get?_filter_eq_some_iff _ _ _ _).mp isLast.claims.1
  obtain ⟨reading, reloaded⟩ := Option.isSome_iff_exists.mp reloads
  have member : (path, some definition) ∈ catalog.refreshUpdates disk folder := by
    refine mem_refreshUpdates_iff.mpr (.inr ⟨reading, reloaded, ?_⟩)
    rwa [files_refresh located named found, refreshedFile?_of_reloaded? reloaded] at given
  obtain ⟨earlier, later, split⟩ := List.append_of_mem member
  have ordered := refreshUpdates_pairwise catalog disk folder
  rw [split] at ordered fit
  -- The updates behind this one are of later paths, none of which claims the name.
  have spares : Updates.Spares later definition.name := by
    intro next inside claim gives same
    obtain ⟨other, given?⟩ := next
    subst gives
    have behind := (List.pairwise_cons.mp (List.pairwise_append.mp ordered).2.1).1 _ inside
    have inUpdates : (other, some claim) ∈ catalog.refreshUpdates disk folder := by
      rw [split]
      exact List.mem_append_right _ (List.mem_cons_of_mem _ inside)
    have claims := claim_of_mem located named found inUpdates
    have notBehind := isLast.not_before ⟨claims, same.trans isLast.claims.2⟩
    cases notBehind.symm.trans (behind (by simp))
  obtain ⟨times, ran⟩ := refresh_eq_run found
  have last := get?_run_of_given sourced fit spares
  rw [ran, split, ← isLast.claims.2]
  exact last

/-- No update touches the file of a definition that stays. -/
private theorem untouched_of_stays (sourced : Sourced catalog)
    (fit : (catalog.refreshUpdates disk folder).Fit) {definition : Definition}
    (stays : catalog.stays disk folder definition = true) :
    ∀ next ∈ catalog.refreshUpdates disk folder,
      catalog.files.get? next.1 ≠ some definition := by
  intro next member touched
  obtain ⟨other, given?⟩ := next
  have written := fit.written _ member
  have source := sourced.source other definition touched
  rcases stays_eq_true_iff.mp stays with memory | ⟨path, given, notGone, notReloaded⟩
  · exact written.toText_ne_nil (source.symm.trans memory)
  · have same := sourced.path_eq written source given
    subst same
    rcases mem_refreshUpdates_iff.mp member with ⟨isGone, -⟩ | ⟨_, reloaded, -⟩
    · cases notGone.symm.trans isGone
    · cases notReloaded.symm.trans reloaded

/-- A definition that does not stay came from a file that an update touches. -/
private theorem touched_of_not_stays (sourced : Sourced catalog) {name : Text}
    {definition : Definition} (current : catalog.get? name = some definition)
    (leaves : catalog.stays disk folder definition = false) :
    ∃ next ∈ catalog.refreshUpdates disk folder,
      catalog.files.get? next.1 = some definition := by
  have notStays : ¬ catalog.stays disk folder definition = true := by simp [leaves]
  rw [stays_eq_true_iff] at notStays
  rcases sourced.origin name definition current with memory | ⟨path, given⟩
  · exact absurd (.inl memory) notStays
  · cases isGone : catalog.isGone disk folder path with
    | true => exact ⟨(path, none), mem_refreshUpdates_iff.mpr (.inl ⟨isGone, rfl⟩), given⟩
    | false =>
        cases reloaded : catalog.reloaded? disk folder path with
        | none => exact absurd (.inr ⟨path, given, isGone, reloaded⟩) notStays
        | some found =>
            exact ⟨(path, _), mem_refreshUpdates_iff.mpr (.inr ⟨found, reloaded, rfl⟩), given⟩

theorem get?_refresh (sourced : Sourced catalog) (located : Located catalog)
    (named : disk.WellNamed) (found : catalog.folder? disk = .ok (some folder)) (name : Text) :
    (catalog.refresh disk).catalog.get? name =
      catalog.refreshed? disk folder (catalog.refresh disk).catalog.files name := by
  have written := located.root folder (root_of_folder? found)
  have fit := fit_refreshUpdates located named written
  unfold refreshed?
  cases claimed : lastClaim?
      (catalog.reloadedFiles disk folder (catalog.refresh disk).catalog.files) name with
  | some definition =>
      obtain ⟨path, isLast⟩ := exists_isLastClaim claimed
      exact get?_refresh_of_reloaded sourced located named found isLast
  | none =>
      have spares : (catalog.refreshUpdates disk folder).Spares name := by
        intro next member definition gives same
        obtain ⟨path, given?⟩ := next
        subst gives
        exact (lastClaim?_eq_none_iff _ _).mp claimed path definition
          ⟨claim_of_mem located named found member, same⟩
      obtain ⟨times, ran⟩ := refresh_eq_run found
      rw [Option.none_or, ran]
      -- No update gives the name, so what became of its definition decides.
      cases stays : (catalog.get? name).filter (catalog.stays disk folder) with
      | some definition =>
          obtain ⟨current, kept⟩ := Option.filter_eq_some_iff.mp stays
          exact get?_run_of_kept sourced fit spares current (untouched_of_stays sourced fit kept)
      | none =>
          refine get?_run_of_lost sourced fit spares ?_
          intro definition current
          have leaves : catalog.stays disk folder definition = false := by
            rw [current, Option.filter_eq_none_iff] at stays
            simpa using stays definition rfl
          exact touched_of_not_stays sourced current leaves

/-- The effect of a refresh on any catalog that a history leads to, when its root is a folder: the
files, their times and the registered definitions are those told above. -/
theorem refresh_effect {root : Option Path} {history : History} {disk : Disk} {folder : Path}
    (rootWritten : ∀ path, root = some path → path.IsWritten) (written : history.IsWritten)
    (named : disk.WellNamed) (known : (history.run { root }).root = some folder)
    (isFolder : disk.isFolder folder = .ok true) :
    let before := history.run { root }
    let after := (before.refresh disk).catalog
    (∃ any, (before.refresh disk).result = .ok any) ∧
      (∀ path, after.files.get? path = before.refreshedFile? disk folder path) ∧
      (∀ path, after.times.get? path = before.refreshedTime? disk folder path) ∧
      ∀ name, after.get? name = before.refreshed? disk folder after.files name := by
  intro before after
  obtain ⟨sourced, located⟩ := sourced_of_history rootWritten written
  have found := folder?_eq_some_iff.mpr ⟨known, isFolder⟩
  refine ⟨?_, files_refresh located named found, times_refresh found,
    get?_refresh sourced located named found⟩
  unfold refresh
  rw [found]
  exact ⟨_, rfl⟩

def swapBefore : Disk :=
  .ofFolder "c".toList
    [("a.md".toList, "---\nname: x\n---\n1".toList, 1),
      ("b.md".toList, "---\nname: y\n---\n2".toList, 1),
      ("d.md".toList, "---\nname: z\n---\n3".toList, 1)]

def swapAfter : Disk :=
  .ofFolder "c".toList
    [("a.md".toList, "---\nname: y\n---\n1".toList, 2),
      ("b.md".toList, "---\nname: x\n---\n2".toList, 2)]

/-- Two files swap their names while a third one goes away. -/
theorem refresh_effect_swap :
    let before := History.run [(swapBefore, .loadDirectory none)] { root := some ["c".toList] }
    let after := (before.refresh swapAfter).catalog
    (after.get? "x".toList).map Definition.sourcePath = some "c/b.md".toList ∧
      (after.get? "y".toList).map Definition.sourcePath = some "c/a.md".toList ∧
      after.get? "z".toList = none := by
  intro before after
  obtain ⟨-, -, -, names⟩ :=
    @refresh_effect (some ["c".toList]) [(swapBefore, .loadDirectory none)] swapAfter
      ["c".toList] (by simp; decide +kernel) (by decide +kernel) (by decide +kernel)
      (by decide +kernel) rfl
  rw [names, names, names]
  decide +kernel

end DocComponents.Catalog
