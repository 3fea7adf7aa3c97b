import DocComponents.Proofs.Catalog.Refresh

/-!
# Loads that overlap with changes

A file is loaded in two halves: its text is read, and then the time of its change. Between the two
another process can change the file, and then the time that is noted is that of a text which the
catalog has never seen. A refresh compares times only, so it passes over the file, now and later,
until the file is changed again.
-/

set_option autoImplicit false

namespace DocComponents.Catalog

/-- What happens next while a file is loaded. -/
inductive Turn where
  /-- Another process leaves the disk like this. -/
  | change (disk : Disk)
  /-- The first half of a load. -/
  | readText
  /-- The second half of a load. -/
  | readTime

/-- A catalog and the disk, with the text of a load that has come half way. -/
structure Midway where
  catalog : Catalog
  disk : Disk
  held? : Option (Except ReadFault Text) := none

/-- What is there after a turn. Without a text there is no second half. -/
def Turn.run (path : Path) (turn : Turn) (state : Midway) : Midway :=
  match turn with
  | .change disk => { state with disk }
  | .readText => { state with held? := some (state.disk.readText path) }
  | .readTime =>
    match state.held? with
    | none => state
    | some content =>
      { state with
        catalog := (state.catalog.accept path content (timeOf state.disk path)).catalog
        held? := none }

def runTurns (path : Path) (turns : List Turn) (state : Midway) : Midway :=
  turns.foldl (fun current turn => turn.run path current) state

/-- The text and the time with which a turn takes the file. -/
def Turn.taken? (path : Path) (turn : Turn) (state : Midway) : Option (Text × Int) :=
  match turn, state.held? with
  | .readTime, some (.ok text) => (state.disk.changeTime? path).map fun time => (text, time)
  | _, _ => none

/-- The text and the time with which turns take the file last. -/
def lastTaken? (path : Path) : (turns : List Turn) → Midway → Option (Text × Int)
  | [], _ => none
  | turn :: later, state =>
    (lastTaken? path later (turn.run path state)).or (turn.taken? path state)

/-- If the time that is noted of a file is the one it has, then what is known of the file is what it
gives. -/
def Vouches (catalog : Catalog) (path : Path) (disk : Disk) : Prop :=
  ∀ found, disk.reading? path = some found → catalog.times.get? path = some found.2 →
    catalog.files.get? path = Definition.read? found.1 path.toText

variable {catalog : Catalog} {disk : Disk} {folder path : Path} {turns : List Turn}
  {state : Midway}

theorem vouches_of_unknown (unknown : catalog.times.get? path = none) (disk : Disk) :
    catalog.Vouches path disk := by
  intro found _ noted
  cases unknown.symm.trans noted

/-- A refresh brings a file up to date exactly when the time that is noted of it can be relied on. -/
theorem files_refresh_eq_iff_vouches (located : Located catalog) (named : disk.WellNamed)
    (found : catalog.folder? disk = .ok (some folder)) (scanned : path ∈ scan disk folder)
    {reading : Text × Int} (read : disk.reading? path = some reading) :
    (catalog.refresh disk).catalog.files.get? path = Definition.read? reading.1 path.toText ↔
      catalog.Vouches path disk := by
  have stands : catalog.isGone disk folder path = false := by simp [isGone, scanned]
  rw [files_refresh located named found, refreshedFile?, if_neg (by simp [stands])]
  by_cases noted : catalog.times.get? path = some reading.2
  · have kept : catalog.reloaded? disk folder path = none := by
      simp [reloaded?, scanned, read, noted]
    rw [kept]
    constructor
    · intro same other isReading _
      cases read.symm.trans isReading
      exact same
    · intro vouches
      exact vouches reading read noted
  · rw [reloaded?_eq_some_iff.mpr ⟨scanned, read, noted⟩]
    constructor
    · intro _ other isReading noted'
      cases read.symm.trans isReading
      exact absurd noted' noted
    · intro _
      rfl

/-! ### Turns -/

theorem catalog_run (path : Path) (turn : Turn) (state : Midway) :
    (turn.run path state).catalog =
      match turn.taken? path state with
      | none => state.catalog
      | some (text, time) => state.catalog.take path text time := by
  cases turn with
  | change disk => rfl
  | readText => rfl
  | readTime =>
      cases held : state.held? with
      | none => simp [Turn.run, Turn.taken?, held]
      | some content =>
          cases content with
          | error fault => simp [Turn.run, Turn.taken?, held, accept]
          | ok text =>
              cases changed : state.disk.changeTime? path with
              | none => simp [Turn.run, Turn.taken?, held, accept, timeOf, changed]
              | some time =>
                  simp [Turn.run, Turn.taken?, held, timeOf, changed, accept_ok]

/-- Two halves with nothing between them are a load. -/
theorem catalog_runTurns_whole (path : Path) (state : Midway) :
    (runTurns path [.readText, .readTime] state).catalog =
      (state.catalog.loadFile state.disk path).catalog := by
  have halves : (runTurns path [.readText, .readTime] state).catalog =
      (Turn.readTime.run path (Turn.readText.run path state)).catalog := rfl
  rw [halves, catalog_run, catalog_loadFile, Disk.reading?]
  cases read : state.disk.readText path with
  | error fault => simp [Turn.taken?, Turn.run, read]
  | ok text =>
      cases changed : state.disk.changeTime? path with
      | none => simp [Turn.taken?, Turn.run, read, changed]
      | some time => simp [Turn.taken?, Turn.run, read, changed]

theorem root_run (path : Path) (turn : Turn) (state : Midway) :
    (turn.run path state).catalog.root = state.catalog.root := by
  rw [catalog_run]
  split
  · rfl
  · exact root_update state.catalog path _

theorem get?_times_run (path : Path) (turn : Turn) (state : Midway) :
    (turn.run path state).catalog.times.get? path =
      ((turn.taken? path state).map Prod.snd).or (state.catalog.times.get? path) := by
  rw [catalog_run]
  cases taken : turn.taken? path state with
  | none => rfl
  | some found =>
      have noted : (state.catalog.take path found.1 found.2).times =
          state.catalog.times.insert path found.2 :=
        congrArg (·.insert path found.2) (times_update state.catalog path _)
      dsimp only
      rw [noted, SortedMap.get?_insert, if_pos rfl]
      rfl

theorem get?_files_run (path : Path) (turn : Turn) (state : Midway) :
    (turn.run path state).catalog.files.get? path =
      match turn.taken? path state with
      | none => state.catalog.files.get? path
      | some (text, _) => Definition.read? text path.toText := by
  rw [catalog_run]
  cases taken : turn.taken? path state with
  | none => rfl
  | some found =>
      refine (get?_files_update state.catalog path path _).trans ?_
      rw [if_pos rfl]

theorem Located.run_turn (located : Located state.catalog) (written : path.IsWritten)
    (turn : Turn) : Located (turn.run path state).catalog where
  root := by
    rw [root_run]
    exact located.root
  times := by
    intro other time found
    rw [catalog_run] at found
    split at found
    · exact located.times other time found
    · next text noted taken =>
        have times : (state.catalog.take path text noted).times =
            state.catalog.times.insert path noted :=
          congrArg (·.insert path noted) (times_update state.catalog path _)
        rw [times, SortedMap.get?_insert] at found
        split at found
        · next same => exact same ▸ written
        · exact located.times other time found

theorem Located.runTurns (located : Located state.catalog) (written : path.IsWritten)
    (turns : List Turn) : Located (Catalog.runTurns path turns state).catalog := by
  induction turns generalizing state with
  | nil => exact located
  | cons turn later ih => exact ih (located.run_turn written turn)

theorem root_runTurns (path : Path) (turns : List Turn) (state : Midway) :
    (runTurns path turns state).catalog.root = state.catalog.root := by
  induction turns generalizing state with
  | nil => rfl
  | cons turn later ih => exact (ih _).trans (root_run path turn state)

/-- What a catalog knows of the file after turns is what it took last. -/
theorem get?_runTurns (path : Path) (turns : List Turn) (state : Midway) :
    (runTurns path turns state).catalog.times.get? path =
        ((lastTaken? path turns state).map Prod.snd).or (state.catalog.times.get? path) ∧
      (runTurns path turns state).catalog.files.get? path =
        match lastTaken? path turns state with
        | none => state.catalog.files.get? path
        | some (text, _) => Definition.read? text path.toText := by
  induction turns generalizing state with
  | nil => exact ⟨rfl, rfl⟩
  | cons turn later ih =>
      obtain ⟨times, files⟩ := ih (turn.run path state)
      rw [lastTaken?]
      cases taken : lastTaken? path later (turn.run path state) with
      | some found =>
          rw [taken] at times files
          exact ⟨times, files⟩
      | none =>
          rw [taken] at times files
          exact ⟨times.trans (get?_times_run path turn state),
            files.trans (get?_files_run path turn state)⟩

/-- What is taken last was held when the time was read. -/
theorem exists_of_lastTaken? {text : Text} {time : Int}
    (taken : lastTaken? path turns state = some (text, time)) :
    ∃ before after, turns = before ++ .readTime :: after ∧
      (runTurns path before state).held? = some (.ok text) ∧
      (runTurns path before state).disk.changeTime? path = some time := by
  induction turns generalizing state with
  | nil => cases taken
  | cons turn later ih =>
      rw [lastTaken?, Option.or_eq_some_iff] at taken
      rcases taken with inLater | ⟨-, here⟩
      · obtain ⟨before, after, rfl, held, changed⟩ := ih inLater
        exact ⟨turn :: before, after, rfl, held, changed⟩
      · unfold Turn.taken? at here
        split at here
        · next held =>
            obtain ⟨noted, changed, same⟩ := Option.map_eq_some_iff.mp here
            cases same
            exact ⟨[], later, rfl, held, changed⟩
        · cases here

/-- After turns the noted time can be relied on exactly when the text that was taken last with the
time of the file gives what the file gives. -/
theorem vouches_runTurns_iff {reading : Text × Int} (read : disk.reading? path = some reading)
    (start : state.catalog.Vouches path disk) :
    (runTurns path turns state).catalog.Vouches path disk ↔
      ∀ old, lastTaken? path turns state = some (old, reading.2) →
        Definition.read? old path.toText = Definition.read? reading.1 path.toText := by
  obtain ⟨times, files⟩ := get?_runTurns path turns state
  cases taken : lastTaken? path turns state with
  | none =>
      rw [taken] at times files
      constructor
      · intro _ old impossible
        cases impossible
      · intro _ found isReading noted
        exact files.trans (start found isReading (times.symm.trans noted))
  | some found =>
      rw [taken] at times files
      constructor
      · intro vouches old same
        cases same
        exact files.symm.trans (vouches reading read times)
      · intro agrees other isReading noted
        cases read.symm.trans isReading
        have sameTime : found.2 = reading.2 := Option.some.inj (times.symm.trans noted)
        exact files.trans (agrees found.1 (by rw [← sameTime]))

def disksOf (first : Disk) (turns : List Turn) : List Disk :=
  first :: turns.filterMap fun turn =>
    match turn with
    | .change disk => some disk
    | .readText | .readTime => none

theorem disk_runTurns_mem (path : Path) (before after : List Turn) (state : Midway) :
    (runTurns path before state).disk ∈ disksOf state.disk (before ++ after) := by
  induction before generalizing state with
  | nil => exact List.mem_cons_self
  | cons turn later ih =>
      have inside := ih (turn.run path state)
      cases turn with
      | change disk => exact List.mem_cons_of_mem _ inside
      | readText => exact inside
      | readTime =>
          have same : (Turn.readTime.run path state).disk = state.disk := by
            cases held : state.held? <;> simp [Turn.run, held]
          rw [same] at inside
          exact inside

/-- The two halves of a load with nothing between them are a load. A refresh after loads and changes
in any order brings a file up to date, unless the load that took it last read the time of the file as
it is now, but a text that gives something else. If a file of that time is always the file as it is
now, then it was changed between the two halves of this load. -/
theorem refresh_after_overlap_iff {root : Option Path} {history : History} {first : Disk}
    {turns : List Turn} {folder path : Path} {text : Text} {time : Int}
    (rootWritten : ∀ path, root = some path → path.IsWritten) (written : history.IsWritten)
    (known : (history.run { root }).root = some folder) :
    let start : Midway := { catalog := history.run { root }, disk := first }
    let state := runTurns path turns start
    (∀ midway, (runTurns path [.readText, .readTime] midway).catalog =
      (midway.catalog.loadFile midway.disk path).catalog) ∧
    (start.catalog.Vouches path state.disk → state.disk.WellNamed →
    state.disk.isFolder folder = .ok true → path ∈ scan state.disk folder →
    state.disk.reading? path = some (text, time) →
    let refreshed := state.catalog.refresh state.disk
    (∃ any, refreshed.result = .ok any) ∧
      (refreshed.catalog.files.get? path = Definition.read? text path.toText ↔
        ∀ old, lastTaken? path turns start = some (old, time) →
          Definition.read? old path.toText = Definition.read? text path.toText) ∧
      ((∀ disk ∈ disksOf first turns, disk.changeTime? path = some time →
          disk.readText path = .ok text) →
        refreshed.catalog.files.get? path ≠ Definition.read? text path.toText →
        ∃ before after old, turns = before ++ .readTime :: after ∧
          (runTurns path before start).held? = some (.ok old) ∧
          (runTurns path before start).disk.readText path = .ok text ∧ old ≠ text)) := by
  intro start state
  refine ⟨catalog_runTurns_whole path, ?_⟩
  intro vouches named isFolder scanned read refreshed
  have located := (sourced_of_history rootWritten written).2
  have pathWritten := isWritten_of_mem_scan named (located.root folder known) scanned
  have locatedStart : Located start.catalog := located
  have locatedAfter : Located state.catalog := locatedStart.runTurns pathWritten turns
  have found : state.catalog.folder? state.disk = .ok (some folder) :=
    folder?_eq_some_iff.mpr ⟨(root_runTurns path turns start).trans known, isFolder⟩
  have upToDate := (files_refresh_eq_iff_vouches locatedAfter named found scanned read).trans
    (vouches_runTurns_iff read vouches)
  refine ⟨?_, upToDate, ?_⟩
  · unfold refreshed Catalog.refresh
    rw [found]
    exact ⟨_, rfl⟩
  · intro shows outdated
    rw [ne_eq, upToDate] at outdated
    obtain ⟨old, goesWrong⟩ := Classical.not_forall.mp outdated
    obtain ⟨taken, differs⟩ := Classical.not_imp.mp goesWrong
    obtain ⟨before, after, rfl, held, changed⟩ := exists_of_lastTaken? taken
    have present := shows _ (disk_runTurns_mem path before _ start) changed
    refine ⟨before, after, old, rfl, held, present, ?_⟩
    intro same
    exact differs (congrArg (Definition.read? · path.toText) same)

def overlapDisk (text : Text) (time : Int) : Disk :=
  .ofFolder "c".toList [("a.md".toList, "---\nname: x\n---\n".toList ++ text, time)]

/-- Changes before and after a load are found. -/
theorem refresh_after_overlap_iff_apart :
    let path : Path := ["c".toList, "a.md".toList]
    let turns : List Turn := [.change (overlapDisk ['2'] 2), .readText, .readTime,
      .change (overlapDisk ['3'] 3)]
    let start : Midway :=
      { catalog := History.run [] { root := some ["c".toList] }, disk := overlapDisk ['1'] 1 }
    let state := runTurns path turns start
    (state.catalog.refresh state.disk).catalog.files.get? path =
      Definition.read? ("---\nname: x\n---\n".toList ++ ['3']) path.toText := by
  intro path turns start state
  have rootWritten : ∀ root, some ["c".toList] = some root → Path.IsWritten root := by
    intro root same
    cases same
    decide +kernel
  have historyWritten : History.IsWritten [] := by simp [History.IsWritten]
  have named : state.disk.WellNamed := by decide +kernel
  have isFolder : state.disk.isFolder ["c".toList] = .ok true := rfl
  have scanned : path ∈ scan state.disk ["c".toList] := by decide +kernel
  have read : state.disk.reading? path = some ("---\nname: x\n---\n".toList ++ ['3'], 3) := by
    decide +kernel
  have taken : lastTaken? path turns start = some ("---\nname: x\n---\n".toList ++ ['2'], 2) := by
    decide +kernel
  obtain ⟨-, overlap⟩ := @refresh_after_overlap_iff (some ["c".toList]) []
    (overlapDisk ['1'] 1) turns ["c".toList] path ("---\nname: x\n---\n".toList ++ ['3']) 3
    rootWritten historyWritten rfl
  obtain ⟨-, upToDate, -⟩ := overlap (vouches_of_unknown rfl _) named isFolder scanned read
  dsimp only [state, start]
  refine upToDate.mpr ?_
  intro old takenNow
  cases taken.symm.trans takenNow

/-- A file that is changed between the two halves of a load stays what it was. -/
theorem refresh_passes_over_overlap :
    let path : Path := ["c".toList, "a.md".toList]
    let turns : List Turn := [.readText, .change (overlapDisk ['2'] 2), .readTime]
    let state := runTurns path turns
      { catalog := { root := some ["c".toList] }, disk := overlapDisk ['1'] 1 }
    let refreshed := (state.catalog.refresh state.disk).catalog
    refreshed.files.get? path ≠
        Definition.read? ("---\nname: x\n---\n".toList ++ ['2']) path.toText ∧
      state.disk.readText path = .ok ("---\nname: x\n---\n".toList ++ ['2']) ∧
      (refreshed.get? ['x']).map Definition.template = some ['1'] := by
  intro path turns state refreshed
  refine ⟨by decide +kernel, rfl, by decide +kernel⟩

end DocComponents.Catalog
