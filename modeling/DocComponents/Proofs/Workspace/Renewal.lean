import DocComponents.Proofs.Workspace.Filling

/-!
# Making a workspace anew

A workspace that is made anew loses nothing, if an archive can tell what stands in it: what stood in
it goes into one new archive, the archives that were there stay as they are, and the rest becomes
what an empty workspace would become. Something that an archive cannot tell ends the run: all that
was there stays, with an unfinished archive beside it, and nothing is made.
-/

set_option autoImplicit false

namespace DocComponents.Layout

variable {home stamp : Text} {disk : Disk} {layout : Layout} {names : List Text}
  {options : InitialOptions} {config : Config}

/-! ## Runs -/

/-- A run that makes a workspace anew, after whatever happened to the disk since the run before. -/
structure Renewal where
  change : Disk → Disk
  stamp : Text
  logLevel? : Option Text := none
  environment : Environment := []
  seedExamples : Bool := true

def Renewal.initialOptions (renewal : Renewal) : InitialOptions where
  renew := true
  logLevel? := renewal.logLevel?
  environment := Config.logLevelLayer renewal.environment
  seedExamples := renewal.seedExamples

def Renewal.run (home : Text) (workspace : Path) (renewal : Renewal) :
    DiskAction InitialFault Initial :=
  initialise home renewal.stamp workspace renewal.initialOptions

/-- Runs one after the other, each with the disk that it finds. -/
def course (home : Text) (workspace : Path) : List Renewal → Disk → List (Renewal × Disk)
  | [], _ => []
  | renewal :: later, disk =>
    (renewal, renewal.change disk) ::
      course home workspace later (renewal.run home workspace (renewal.change disk)).2

def place (layout : Layout) : List Text :=
  layout.workspace.tail

/-- A workspace of files and folders, with a folder of archives or none, in which all that is
written has a name, a path and a size that the disk can hold. -/
structure Usable (home : Text) (workspace : Path) (layout : Layout) (stamp : Text)
    (disk : Disk) : Prop where
  tree : disk.IsTree
  resolved : resolve home disk (some workspace) none = .ok layout
  isFolder : disk.isFolder layout.workspace = .ok true
  archives : disk.isFile layout.archives = .ok false
  fits : layout.FitsNew
  room : ∀ number ≤ disk.entries.size, Disk.FitsIn layout.archives (archiveName stamp number)
  size : (packed layout.workspace layout.place disk).length < 2 ^ 63

/-- What a run answers and leaves that loses nothing. -/
structure LosesNothing (home : Text) (workspace : Path) (layout : Layout) (renewal : Renewal)
    (before : Disk) (result : Initial) (after : Disk) : Prop where
  /-- One archive more, if there was anything to archive. -/
  archived : HoldsWork layout.place before →
    ∃ number contents,
      result.archive? = some (layout.archives ++ [archiveName renewal.stamp number]) ∧
        Archived renewal.stamp layout.place before after number contents
  /-- No archive more, if there was nothing to archive. -/
  unarchived : ¬ HoldsWork layout.place before →
    result.archive? = none ∧ ∀ more ≠ [],
      after.entries.get? (layout.place ++ archivesName :: more) =
        before.entries.get? (layout.place ++ archivesName :: more)
  /-- Everything but the archives is as the same run makes it in an empty workspace. -/
  remade : ∃ empty fresh, before.emptyFolder layout.workspace = .ok empty ∧
    renewal.run home workspace empty = (.ok { result with archive? := none }, fresh) ∧
      ∀ rest, (∀ more ≠ [], rest ≠ archivesName :: more) →
        after.entries.get? (layout.place ++ rest) = fresh.entries.get? (layout.place ++ rest)
  /-- Outside the workspace nothing changes. -/
  elsewhere : ∀ other, ¬ layout.place <+: other →
    after.entries.get? other = before.entries.get? other

/-- What a run leaves that cannot archive everything: all that it found, and an unfinished archive
at a path at which nothing stood. -/
def TakesNothing (layout : Layout) (renewal : Renewal) (before after : Disk) : Prop :=
  ∃ number,
    before.entries.get? (layout.place ++ [archivesName, archiveName renewal.stamp number]) = none ∧
      ∀ other ≠ layout.place ++ [archivesName],
        other ≠ layout.place ++ [archivesName, archiveName renewal.stamp number] →
          after.entries.get? other = before.entries.get? other

theorem initialise_of_archive {workspace : Path} {middle : Disk} {archive? : Option Path}
    (renew : options.renew = true) (resolved : resolve home disk (some workspace) none = .ok layout)
    (archived : layout.archive stamp disk = (.ok archive?, middle)) :
    initialise home stamp workspace options disk =
      build home layout options archive? middle := by
  rw [initialise_eq, renew, DiskAction.bind_of_eq_ok
    (DiskAction.adapt_eq_ok_iff.mpr (DiskAction.check_eq_ok_iff.mpr ⟨resolved, rfl⟩))]
  exact DiskAction.bind_of_eq_ok (DiskAction.adapt_eq_ok_iff.mpr archived) _

theorem run_of_bare {workspace : Path} {renewal : Renewal} {middle : Disk} {archive? : Option Path}
    (located : layout.workspace = ['/'] :: names) (fits : layout.FitsNew)
    (resolved : resolve home disk (some workspace) none = .ok layout)
    (archived : layout.archive renewal.stamp disk = (.ok archive?, middle))
    (bare : layout.Bare names middle)
    (told : layout.initialConfig home renewal.initialOptions = .ok config)
    (plain : config.components = {}) :
    renewal.run home workspace disk =
      (.ok
        { config
          componentsFolder := layout.workspace ++ [componentsName]
          seeded := newExamples layout renewal.seedExamples
          archive? },
        middle.fill names (newItems config renewal.seedExamples middle.now)) := by
  rw [Renewal.run, initialise_of_archive rfl resolved archived]
  exact build_of_bare bare located fits rfl told plain archive?

/-! ### What a usable disk tells -/

variable {workspace : Path} {before : Disk}

theorem Usable.located (usable : Usable home workspace layout stamp before) :
    layout.workspace = ['/'] :: layout.place ∧ Path.up ∉ layout.place := by
  obtain ⟨names, located, noUp⟩ := exists_names_of_resolve usable.resolved
  have same : layout.place = names := by rw [place, located, List.tail_cons]
  exact ⟨same ▸ located, same ▸ noUp⟩

theorem Usable.present (usable : Usable home workspace layout stamp before) :
    before.FolderAt layout.workspace layout.place := by
  obtain ⟨located, noUp⟩ := usable.located
  obtain ⟨reached, present⟩ := Disk.exists_folderAt_of_isFolder usable.isFolder
  rw [located] at present ⊢
  have same := Disk.place_straight noUp present.located
  exact same ▸ present

theorem Usable.archives_free (usable : Usable home workspace layout stamp before) :
    before.entries.get? (layout.place ++ [archivesName]) = none ∨
      before.entries.get? (layout.place ++ [archivesName]) = some .folder := by
  have noFile : before.isFile (layout.workspace ++ [archivesName]) = .ok false := usable.archives
  have located := usable.present.place_concat (usable.fits.names archivesName (by simp))
  rw [Disk.isFile, Disk.look, located] at noFile
  rw [← Disk.entryAt?_concat]
  cases stands : before.entryAt? (layout.place ++ [archivesName]) with
  | none => exact .inl rfl
  | some entry =>
      cases entry with
      | folder => exact .inr rfl
      | file contents changed => simp [Except.map, stands] at noFile

theorem Usable.archivable (usable : Usable home workspace layout stamp before) :
    layout.Archivable layout.place before where
  located := usable.located.1
  noUp := usable.located.2
  present := usable.present
  fits := usable.fits.names archivesName (by simp)
  free := usable.archives_free

/-- The emptied workspace, from which nothing is archived. -/
theorem Usable.exists_empty (usable : Usable home workspace layout stamp before) (again : Text) :
    ∃ empty middle, before.emptyFolder layout.workspace = .ok empty ∧
      empty.current = before.current ∧ empty.FolderAt layout.workspace layout.place ∧
      layout.archive again empty = (.ok none, middle) ∧ layout.Bare layout.place middle ∧
      middle.now = before.now ∧
      middle.entries.get? layout.place = before.entries.get? layout.place := by
  obtain ⟨empty, emptied, sameCurrent, sameNow, nothing, others⟩ :=
    usable.present.exists_emptyFolder
  have presentEmpty := usable.archivable.folderAt_of_same others
  have archivable : layout.Archivable layout.place empty :=
    { usable.archivable with present := presentEmpty, free := .inl (nothing _ (by simp)) }
  have noWork : ¬ HoldsWork layout.place empty := by
    rintro ⟨rest, work, isThere⟩
    rw [nothing rest work.1] at isThere
    cases isThere
  obtain ⟨middle, archived, bare, middleNow, sameOthers⟩ :=
    archivable.archive_of_nothing again noWork
  refine ⟨empty, middle, emptied, sameCurrent, presentEmpty, archived, bare,
    middleNow.trans sameNow, ?_⟩
  rw [sameOthers _ (by simp), others _ (by simp)]

/-! ### One run -/

theorem Usable.run_of_archive {renewal : Renewal} {middle : Disk} {archive? : Option Path}
    (usable : Usable home workspace layout renewal.stamp before)
    (archived : layout.archive renewal.stamp before = (.ok archive?, middle))
    (bare : layout.Bare layout.place middle) (sameNow : middle.now = before.now)
    (others : ∀ other, (∀ name more, other ≠ layout.place ++ name :: more) →
      middle.entries.get? other = before.entries.get? other) :
    ∃ result after, renewal.run home workspace before = (.ok result, after) ∧
      result.archive? = archive? ∧
      (∀ more ≠ [], after.entries.get? (layout.place ++ archivesName :: more) =
        middle.entries.get? (layout.place ++ archivesName :: more)) ∧
      (∃ empty fresh, before.emptyFolder layout.workspace = .ok empty ∧
        renewal.run home workspace empty = (.ok { result with archive? := none }, fresh) ∧
        ∀ rest, (∀ more ≠ [], rest ≠ archivesName :: more) →
          after.entries.get? (layout.place ++ rest) =
            fresh.entries.get? (layout.place ++ rest)) ∧
      ∀ other, ¬ layout.place <+: other →
        after.entries.get? other = before.entries.get? other := by
  obtain ⟨located, -⟩ := usable.located
  have layered : renewal.initialOptions.environment =
      Config.logLevelLayer renewal.environment := rfl
  obtain ⟨config, told, plain⟩ := exists_initialConfig home located layered
  have ran := run_of_bare located usable.fits usable.resolved archived bare told plain
  obtain ⟨empty, emptyMiddle, emptied, sameCurrent, present, nothing, emptyBare, emptyNow,
    emptyTop⟩ := usable.exists_empty renewal.stamp
  have fresh := run_of_bare located usable.fits
    (resolve_of_folderAt usable.resolved sameCurrent present) nothing emptyBare told plain
  refine ⟨_, _, ran, rfl, ?_, ⟨empty, _, emptied, fresh, ?_⟩, ?_⟩
  · intro more notSelf
    rw [fill_newItems, if_neg notSelf]
  · intro rest outside
    rw [sameNow, emptyNow]
    refine get?_fill_of_bare bare emptyBare ?_ _ _ _ outside
    rw [emptyTop, others _ (by simp)]
  · intro other apart
    rw [Disk.get?_fill_of_not_below apart]
    exact others other fun name more same => apart (same ▸ List.prefix_append _ _)

theorem Usable.run_of_isTold {renewal : Renewal}
    (usable : Usable home workspace layout renewal.stamp before)
    (told : IsTold layout.workspace layout.place before) :
    ∃ result after, renewal.run home workspace before = (.ok result, after) ∧
      LosesNothing home workspace layout renewal before result after := by
  by_cases holds : HoldsWork layout.place before
  · have small : (packed layout.workspace layout.place before).length < 2 ^ 64 :=
      usable.size.trans (by decide)
    obtain ⟨number, contents, middle, archived, bare, sameNow, added, others⟩ :=
      usable.archivable.archive_of_work usable.room small usable.tree told holds
    obtain ⟨result, after, ran, answer, archives, remade, elsewhere⟩ :=
      usable.run_of_archive archived bare sameNow others
    exact ⟨result, after, ran, fun _ => ⟨number, contents, answer, added.of_same archives⟩,
      fun nothing => absurd holds nothing, remade, elsewhere⟩
  · obtain ⟨middle, archived, bare, sameNow, others⟩ :=
      usable.archivable.archive_of_nothing renewal.stamp holds
    obtain ⟨result, after, ran, answer, archives, remade, elsewhere⟩ :=
      usable.run_of_archive archived bare sameNow fun other apart => others other (apart _ _)
    refine ⟨result, after, ran, fun given => absurd given holds, fun _ => ⟨answer, ?_⟩, remade,
      elsewhere⟩
    intro more notSelf
    rw [archives more notSelf, others _ (by simpa using notSelf)]

theorem Usable.run_of_not_isTold {renewal : Renewal}
    (usable : Usable home workspace layout renewal.stamp before)
    (untold : ¬ IsTold layout.workspace layout.place before) :
    ∃ fault after, renewal.run home workspace before = (.error (.archive fault), after) ∧
      TakesNothing layout renewal before after := by
  obtain ⟨number, fault, after, refused, free, others⟩ :=
    usable.archivable.archive_refused usable.room untold
  refine ⟨fault, after, ?_, number, free, others⟩
  rw [Renewal.run, initialise_eq, DiskAction.bind_of_eq_ok (DiskAction.adapt_eq_ok_iff.mpr
    (DiskAction.check_eq_ok_iff.mpr ⟨usable.resolved, rfl⟩))]
  exact DiskAction.bind_of_eq_error (DiskAction.adapt_of_eq_error refused) _

/-- A run loses nothing exactly when an archive can tell everything. -/
theorem Usable.run_iff_isTold {renewal : Renewal}
    (usable : Usable home workspace layout renewal.stamp before) :
    (∃ result after, renewal.run home workspace before = (.ok result, after) ∧
      LosesNothing home workspace layout renewal before result after) ↔
        IsTold layout.workspace layout.place before := by
  constructor
  · rintro ⟨result, after, ran, -⟩
    by_contra untold
    obtain ⟨fault, refusedAfter, refused, -⟩ := usable.run_of_not_isTold untold
    cases ran.symm.trans refused
  · exact usable.run_of_isTold

/-! ### All runs -/

def lastDisk (home : Text) (workspace : Path) : List Renewal → Disk → Disk
  | [], disk => disk
  | renewal :: later, disk =>
    lastDisk home workspace later (renewal.run home workspace (renewal.change disk)).2

/-- What happens to the disk before a run leaves the archives as they are. -/
def Renewal.Spares (layout : Layout) (renewal : Renewal) : Prop :=
  ∀ disk : Disk, ∀ more ≠ [],
    (renewal.change disk).entries.get? (layout.place ++ archivesName :: more) =
      disk.entries.get? (layout.place ++ archivesName :: more)

variable {renewal : Renewal} {runs : List Renewal}

theorem Usable.run_keeps (usable : Usable home workspace layout renewal.stamp before)
    {more : List Text} {entry : Entry} (notSelf : more ≠ [])
    (stands : before.entries.get? (layout.place ++ archivesName :: more) = some entry) :
    (renewal.run home workspace before).2.entries.get? (layout.place ++ archivesName :: more) =
      some entry := by
  by_cases told : IsTold layout.workspace layout.place before
  · obtain ⟨result, after, ran, keeps⟩ := usable.run_of_isTold told
    rw [ran]
    dsimp only
    by_cases holds : HoldsWork layout.place before
    · obtain ⟨number, contents, -, archived⟩ := keeps.archived holds
      rw [archived.archives more notSelf, if_neg]
      · exact stands
      · rintro rfl
        cases archived.free.symm.trans stands
    · rw [(keeps.unarchived holds).2 more notSelf]
      exact stands
  · obtain ⟨fault, after, ran, number, free, others⟩ := usable.run_of_not_isTold told
    rw [ran]
    dsimp only
    rw [others _ (by simpa using notSelf)]
    · exact stands
    · intro same
      rw [same] at stands
      cases free.symm.trans stands

theorem lastDisk_keeps
    (usable : ∀ step ∈ course home workspace runs disk,
      Usable home workspace layout step.1.stamp step.2)
    (spared : ∀ renewal ∈ runs, renewal.Spares layout) {more : List Text} {entry : Entry}
    (notSelf : more ≠ [])
    (stands : disk.entries.get? (layout.place ++ archivesName :: more) = some entry) :
    (lastDisk home workspace runs disk).entries.get? (layout.place ++ archivesName :: more) =
      some entry := by
  induction runs generalizing disk with
  | nil => exact stands
  | cons renewal later ih =>
      rw [lastDisk]
      apply ih
      · exact fun step member => usable step (List.mem_cons_of_mem _ member)
      · exact fun next member => spared next (List.mem_cons_of_mem _ member)
      · apply (usable _ List.mem_cons_self).run_keeps notSelf
        rw [spared renewal List.mem_cons_self disk more notSelf]
        exact stands

/-- What an archive was made for can be rebuilt from what is found at its path after all runs, if the
archives are left alone between them. -/
theorem exists_archive_at_last
    (usable : ∀ step ∈ course home workspace runs disk,
      Usable home workspace layout step.1.stamp step.2)
    (spared : ∀ renewal ∈ runs, renewal.Spares layout) {step : Renewal × Disk}
    (member : step ∈ course home workspace runs disk)
    (told : IsTold layout.workspace layout.place step.2)
    (holds : HoldsWork layout.place step.2) :
    ∃ number contents members,
      (lastDisk home workspace runs disk).entries.get?
        (layout.place ++ [archivesName, archiveName step.1.stamp number]) =
          some (.file contents step.2.now) ∧
      Archive.Zip.read? contents = some members ∧ Rebuilds layout.place step.2 members := by
  -- What a run archives is kept by the runs behind it, so the archive is found at the end of all.
  induction runs generalizing disk with
  | nil => cases member
  | cons renewal later ih =>
      have usableLater := fun step member => usable step (List.mem_cons_of_mem _ member)
      have sparedLater : ∀ next ∈ later, next.Spares layout := fun next member =>
        spared next (List.mem_cons_of_mem _ member)
      rcases List.mem_cons.mp member with rfl | isLater
      · obtain ⟨result, after, ran, keeps⟩ := (usable _ List.mem_cons_self).run_of_isTold told
        obtain ⟨number, contents, -, archived⟩ := keeps.archived holds
        obtain ⟨members, read, rebuilds⟩ := archived.rebuilds
        refine ⟨number, contents, members, lastDisk_keeps usableLater sparedLater (by simp) ?_,
          read, rebuilds⟩
        dsimp only at ran ⊢
        rw [ran]
        dsimp only
        rw [archived.archives _ (by simp), if_pos rfl]
      · exact ih usableLater sparedLater isLater

/-- Of runs that make a workspace anew, whatever happens between them and whatever stamps they have,
each loses nothing exactly when an archive can tell everything in the workspace; otherwise it
answers a fault, takes nothing away and makes nothing. If the archives are left alone between the
runs, all that was archived by any of them can be rebuilt in the end. -/
theorem renewals_lose_nothing_iff
    (usable : ∀ step ∈ course home workspace runs disk,
      Usable home workspace layout step.1.stamp step.2) :
    (∀ step ∈ course home workspace runs disk,
      ((∃ result after, step.1.run home workspace step.2 = (.ok result, after) ∧
        LosesNothing home workspace layout step.1 step.2 result after) ↔
          IsTold layout.workspace layout.place step.2) ∧
      (¬ IsTold layout.workspace layout.place step.2 → ∃ fault after,
        step.1.run home workspace step.2 = (.error (.archive fault), after) ∧
          TakesNothing layout step.1 step.2 after)) ∧
    ((∀ renewal ∈ runs, renewal.Spares layout) →
      ∀ step ∈ course home workspace runs disk,
        IsTold layout.workspace layout.place step.2 → HoldsWork layout.place step.2 →
          ∃ number contents members,
            (lastDisk home workspace runs disk).entries.get?
              (layout.place ++ [archivesName, archiveName step.1.stamp number]) =
                some (.file contents step.2.now) ∧
            Archive.Zip.read? contents = some members ∧
            Rebuilds layout.place step.2 members) :=
  ⟨fun step member =>
    ⟨(usable step member).run_iff_isTold, (usable step member).run_of_not_isTold⟩,
    fun spared _ member told holds => exists_archive_at_last usable spared member told holds⟩

def notesDisk (changed : Int) : Disk where
  entries := SortedMap.empty.insertAll
    [(["ws".toList], .folder), (["ws".toList, "empty".toList], .folder),
      (["ws".toList, "notes.md".toList], .file (Utf8.encode "a".toList) changed)]
  now := 1700000000

/-- A run at a moment at which there may have been another one. -/
def hasty : Renewal where
  change := id
  stamp := "20250101-000000".toList
  seedExamples := false

/-- Two runs within one second leave the first archive. -/
theorem renewals_lose_nothing_iff_hasty :
    ∃ number contents members,
      (lastDisk ['/'] documentWorkspace [hasty, hasty] (notesDisk 1700000000)).entries.get?
        ["ws".toList, archivesName, archiveName hasty.stamp number] =
          some (.file contents 1700000000) ∧
      Archive.Zip.read? contents = some members ∧
      Rebuilds ["ws".toList] (notesDisk 1700000000) members := by
  have fits : (Layout.mk documentWorkspace).FitsNew := ⟨by decide +kernel, by decide +kernel⟩
  have checked : ∀ step ∈ course ['/'] documentWorkspace [hasty, hasty] (notesDisk 1700000000),
      step.2.IsTree ∧ resolve ['/'] step.2 (some documentWorkspace) none = .ok ⟨documentWorkspace⟩ ∧
      step.2.isFolder documentWorkspace = .ok true ∧
      step.2.isFile (documentWorkspace ++ [archivesName]) = .ok false ∧
      (∀ number ≤ step.2.entries.size,
        Disk.FitsIn (documentWorkspace ++ [archivesName]) (archiveName step.1.stamp number)) ∧
      (packed documentWorkspace ["ws".toList] step.2).length < 2 ^ 63 := by
    decide +kernel
  have usable : ∀ step ∈ course ['/'] documentWorkspace [hasty, hasty] (notesDisk 1700000000),
      Usable ['/'] documentWorkspace ⟨documentWorkspace⟩ step.1.stamp step.2 := by
    intro step member
    obtain ⟨tree, resolved, isFolder, archives, room, size⟩ := checked step member
    exact ⟨tree, resolved, isFolder, archives, fits, room, size⟩
  have spared : ∀ renewal ∈ [hasty, hasty], renewal.Spares ⟨documentWorkspace⟩ := by
    intro renewal member
    rcases List.mem_cons.mp member with rfl | later
    · exact fun _ _ _ => rfl
    · cases List.mem_singleton.mp later
      exact fun _ _ _ => rfl
  have told : IsTold documentWorkspace ["ws".toList] (notesDisk 1700000000) := by decide +kernel
  obtain ⟨-, kept⟩ := renewals_lose_nothing_iff usable
  exact kept spared (hasty, notesDisk 1700000000) List.mem_cons_self told
    ⟨["notes.md".toList], (isWork_cons_iff _ _).mpr (by decide), by decide +kernel⟩

/-- A note that was changed in 1970 ends the run: the note stays, with an archive beside it that
lacks it, and neither a document nor a folder of definitions is made. -/
theorem renewal_ends_at_early_note :
    let ran := hasty.run ['/'] documentWorkspace (notesDisk 0)
    let archive := documentWorkspace ++ [archivesName, archiveName hasty.stamp 0]
    ran.1 = .error (.archive (.time .tooEarly)) ∧
      (ran.2.below ["ws".toList]).map Prod.fst =
        [[archivesName], [archivesName, archiveName hasty.stamp 0], ["empty".toList],
          ["notes.md".toList]] ∧
      ((ran.2.readBytes archive).toOption.bind Archive.Zip.read?).map (·.map (·.name)) =
        some ["empty/".toList] := by
  decide +kernel

end DocComponents.Layout
