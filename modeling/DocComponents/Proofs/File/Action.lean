import DocComponents.File.Action
import DocComponents.Proofs.File.Change

/-!
# What work on disks leaves

Work on a disk is told step by step: what it answers and which disk it leaves. Making folders and
writing what is missing only adds entries, and only at the places that are asked for, so whatever
stood on the disk before still stands there.
-/

set_option autoImplicit false

namespace DocComponents

/-! ## Steps -/

theorem exists_of_except_bind {Fault Value Result : Type} {source : Except Fault Value}
    {next : Value → Except Fault Result} {result : Result}
    (ran : (source >>= next) = .ok result) :
    ∃ value, source = .ok value ∧ next value = .ok result := by
  cases source with
  | error fault => cases ran
  | ok value => exact ⟨value, rfl, ran⟩

theorem mapError_eq_ok_iff {Fault Other Result : Type} {translate : Fault → Other}
    {source : Except Fault Result} {result : Result} :
    source.mapError translate = .ok result ↔ source = .ok result := by
  cases source <;> simp [Except.mapError]

namespace DiskAction

variable {Fault Other Result Next : Type} {disk middle after : Disk}

theorem bind_apply (action : DiskAction Fault Result) (next : Result → DiskAction Fault Next)
    (disk : Disk) :
    (action >>= next) disk =
      match action disk with
      | (.ok value, middle) => next value middle
      | (.error fault, middle) => (.error fault, middle) := by
  change (ExceptT.bindCont next (action disk).1 : StateM Disk _) (action disk).2 = _
  rcases action disk with ⟨result, middle⟩
  cases result <;> rfl

theorem bind_of_eq_ok {action : DiskAction Fault Result} {value : Result}
    (ran : action disk = (.ok value, middle)) (next : Result → DiskAction Fault Next) :
    (action >>= next) disk = next value middle := by
  rw [bind_apply, ran]

theorem bind_of_eq_error {action : DiskAction Fault Result} {fault : Fault}
    (failed : action disk = (.error fault, middle)) (next : Result → DiskAction Fault Next) :
    (action >>= next) disk = (.error fault, middle) := by
  rw [bind_apply, failed]

theorem exists_of_bind_eq_ok {action : DiskAction Fault Result}
    {next : Result → DiskAction Fault Next} {result : Next}
    (ran : (action >>= next) disk = (.ok result, after)) :
    ∃ value middle, action disk = (.ok value, middle) ∧
      next value middle = (.ok result, after) := by
  rw [bind_apply] at ran
  cases first : action disk with
  | mk answer middle =>
      rw [first] at ran
      cases answer with
      | error fault => cases ran
      | ok value => exact ⟨value, middle, rfl, ran⟩

theorem exists_of_isOk {action : DiskAction Fault Result}
    (answers : (action disk).1.isOk = true) :
    ∃ value after, action disk = (.ok value, after) := by
  cases ran : action disk with
  | mk answer after =>
      rw [ran] at answers
      cases answer with
      | error fault => cases answers
      | ok value => exact ⟨value, after, rfl⟩

theorem get_bind_apply (next : Disk → DiskAction Fault Next) (disk : Disk) :
    ((get : DiskAction Fault Disk) >>= next) disk = next disk disk := rfl

theorem modify_bind_apply (update : Disk → Disk) (next : PUnit → DiskAction Fault Next)
    (disk : Disk) :
    ((modify update : DiskAction Fault PUnit) >>= next) disk = next ⟨⟩ (update disk) := rfl

theorem tryCatch_apply (action : DiskAction Fault Result)
    (handler : Fault → DiskAction Fault Result) (disk : Disk) :
    (tryCatch action handler : DiskAction Fault Result) disk =
      match action disk with
      | (.ok value, middle) => (.ok value, middle)
      | (.error fault, middle) => handler fault middle := by
  change (match (action disk).1 with
    | .ok value => pure (.ok value)
    | .error fault => handler fault : StateM Disk _) (action disk).2 = _
  rcases action disk with ⟨result, middle⟩
  cases result <;> rfl

theorem adapt_eq_ok_iff {translate : Fault → Other} {action : DiskAction Fault Result}
    {value : Result} :
    (ExceptT.adapt translate action : DiskAction Other Result) disk = (.ok value, after) ↔
      action disk = (.ok value, after) := by
  change (Except.mapError translate (action disk).1, (action disk).2) = _ ↔ _
  rcases action disk with ⟨result, middle⟩
  cases result with
  | error fault => exact ⟨nofun, nofun⟩
  | ok found => exact ⟨fun | rfl => rfl, fun | rfl => rfl⟩

theorem adapt_of_eq_error {translate : Fault → Other} {action : DiskAction Fault Result}
    {fault : Fault} (failed : action disk = (.error fault, after)) :
    (ExceptT.adapt translate action : DiskAction Other Result) disk =
      (.error (translate fault), after) := by
  change (Except.mapError translate (action disk).1, (action disk).2) = _
  rw [failed]
  rfl

theorem check_eq_ok_iff {read : Disk → Except Fault Result} {value : Result} :
    (check read : DiskAction Fault Result) disk = (.ok value, after) ↔
      read disk = .ok value ∧ after = disk := by
  change (read disk, disk) = _ ↔ _
  rw [Prod.mk.injEq, eq_comm (a := disk)]

theorem checkAt_eq_ok_iff {path : Path} {read : Disk → Except FileFault Result} {value : Result} :
    checkAt path read disk = (.ok value, after) ↔ read disk = .ok value ∧ after = disk := by
  rw [checkAt, check_eq_ok_iff, mapError_eq_ok_iff]

theorem changeAt_eq_ok_iff {path : Path} {step : Disk → Except FileFault Disk} :
    changeAt path step disk = (.ok (), after) ↔ step disk = .ok after := by
  unfold changeAt change attempt
  dsimp only
  cases step disk with
  | error fault => exact ⟨nofun, nofun⟩
  | ok later => exact ⟨fun | rfl => rfl, fun | rfl => rfl⟩

/-- A change is made as a whole or not at all. -/
theorem changeAt_cases (path : Path) (step : Disk → Except FileFault Disk) (disk : Disk) :
    (∃ later, step disk = .ok later ∧ changeAt path step disk = (.ok (), later)) ∨
      ∃ fault, step disk = .error fault ∧
        changeAt path step disk = (.error { fault, path }, disk) := by
  unfold changeAt change attempt
  dsimp only
  cases step disk with
  | error fault => exact .inr ⟨fault, rfl, rfl⟩
  | ok later => exact .inl ⟨later, rfl, rfl⟩

end DiskAction

/-! ## Growing disks -/

/-- A disk that was added to: what stood there still stands there, and what is new stands at fresh
places. -/
structure Disk.Grows (fresh : List Text → Prop) (before after : Disk) : Prop where
  current : after.current = before.current
  now : after.now = before.now
  kept : ∀ place, after.entryAt? place = before.entryAt? place ∨
    before.entryAt? place = none ∧ fresh place

namespace Disk

variable {fresh more : List Text → Prop} {before middle after : Disk} {place : List Text}

theorem Grows.refl (fresh : List Text → Prop) (disk : Disk) : disk.Grows fresh disk :=
  ⟨rfl, rfl, fun _ => .inl rfl⟩

theorem Grows.trans (first : before.Grows fresh middle) (second : middle.Grows fresh after) :
    before.Grows fresh after := by
  refine ⟨second.current.trans first.current, second.now.trans first.now, fun place => ?_⟩
  rcases second.kept place with same | ⟨free, isFresh⟩
  · rw [same]
    exact first.kept place
  · rcases first.kept place with same | ⟨free, isFresh⟩
    · exact .inr ⟨same ▸ free, isFresh⟩
    · exact .inr ⟨free, isFresh⟩

theorem Grows.mono (grows : before.Grows fresh after) (covers : ∀ place, fresh place → more place) :
    before.Grows more after := by
  refine ⟨grows.current, grows.now, fun place => ?_⟩
  rcases grows.kept place with same | ⟨free, isFresh⟩
  · exact .inl same
  · exact .inr ⟨free, covers place isFresh⟩

theorem Grows.entryAt?_eq_some (grows : before.Grows fresh after) {entry : Entry}
    (stands : before.entryAt? place = some entry) : after.entryAt? place = some entry := by
  rcases grows.kept place with same | ⟨free, -⟩
  · rw [same, stands]
  · cases free.symm.trans stands

theorem Grows.entryAt?_eq (grows : before.Grows fresh after) (notFresh : ¬ fresh place) :
    after.entryAt? place = before.entryAt? place := by
  rcases grows.kept place with same | ⟨-, isFresh⟩
  · exact same
  · exact absurd isFresh notFresh

theorem walk_eq_ok_of_folders
    (kept : ∀ place, before.entryAt? place = some .folder → after.entryAt? place = some .folder)
    {reached parts : List Text} (walked : before.walk reached parts = .ok place) :
    after.walk reached parts = .ok place := by
  induction parts generalizing reached with
  | nil => exact walked
  | cons part rest ih =>
      rw [walk] at walked ⊢
      cases stands : before.entryAt? reached with
      | none => simp [stands] at walked
      | some entry =>
          cases entry with
          | file contents changed => simp [stands] at walked
          | folder =>
              rw [kept reached stands]
              simp only [stands] at walked
              dsimp only
              split at walked
              · next isUp =>
                  rw [if_pos isUp]
                  exact ih walked
              · next notUp =>
                  rw [if_neg notUp]
                  split at walked
                  · cases walked
                  · next short =>
                      rw [if_neg short]
                      exact ih walked

/-- A path that leads somewhere leads there too where no folder is missing. -/
theorem place_eq_ok_of_folders (sameCurrent : after.current = before.current)
    (kept : ∀ place, before.entryAt? place = some .folder → after.entryAt? place = some .folder)
    {path : Path} (located : before.place path = .ok place) : after.place path = .ok place := by
  obtain ⟨valid, short, walked⟩ := (place_eq_ok_iff before path).mp located
  have sameOrigin : after.origin path = before.origin path := by
    unfold origin
    rw [sameCurrent]
  refine (place_eq_ok_iff after path).mpr ⟨valid, short, ?_⟩
  rw [sameOrigin]
  exact walk_eq_ok_of_folders kept walked

theorem Grows.place_eq_ok (grows : before.Grows fresh after) {path : Path}
    (located : before.place path = .ok place) : after.place path = .ok place :=
  place_eq_ok_of_folders grows.current (fun _ => grows.entryAt?_eq_some) located

theorem entryAt?_put (disk : Disk) (place other : List Text) (entry : Entry) (notTop : place ≠ []) :
    (disk.put place entry).entryAt? other =
      if other = place then some entry else disk.entryAt? other := by
  by_cases top : other = []
  · subst top
    rw [if_neg (Ne.symm notTop)]
    rfl
  · rw [entryAt?_of_ne_nil _ top, entryAt?_of_ne_nil _ top, get?_put]

theorem grows_put (disk : Disk) (entry : Entry) (free : disk.entryAt? place = none) :
    disk.Grows (· = place) (disk.put place entry) := by
  have notTop : place ≠ [] := by
    rintro rfl
    cases free
  refine ⟨rfl, rfl, fun other => ?_⟩
  rw [entryAt?_put disk place other entry notTop]
  by_cases same : other = place
  · subst same
    exact .inr ⟨free, rfl⟩
  · exact .inl (if_neg same)

theorem makeFolder_eq_ok_iff {disk later : Disk} {path : Path} :
    disk.makeFolder path = .ok later ↔
      ∃ place, disk.place path = .ok place ∧ disk.entryAt? place = none ∧
        disk.put place .folder = later := by
  unfold makeFolder
  cases disk.place path with
  | error fault => simp [bind, Except.bind]
  | ok place =>
      cases stands : disk.entryAt? place with
      | none => simp [bind, Except.bind, stands]
      | some entry => simp [bind, Except.bind, stands]

theorem free_of_pathExists {disk : Disk} {path : Path} (missing : disk.pathExists path = .ok false)
    (located : disk.place path = .ok place) : disk.entryAt? place = none := by
  rw [pathExists, look, located] at missing
  simpa [Except.map] using missing

theorem place_straight {disk : Disk} {names : List Text} (noUp : Path.up ∉ names)
    (located : disk.place (['/'] :: names) = .ok place) : place = names := by
  obtain ⟨-, -, walked⟩ := (place_eq_ok_iff disk _).mp located
  have origin : disk.origin (['/'] :: names) = ([], names) := rfl
  rw [origin] at walked
  have notUp : ∀ part ∈ names, part ≠ Path.up := fun part member same => noUp (same ▸ member)
  exact eq_append_of_walk_eq_ok notUp walked

theorem exists_of_pathExists {disk : Disk} {path : Path}
    (stands : disk.pathExists path = .ok true) :
    ∃ place entry, disk.place path = .ok place ∧ disk.entryAt? place = some entry := by
  unfold pathExists look at stands
  split at stands
  · cases stands
  · cases stands
  · next place located =>
      obtain ⟨entry, found⟩ := Option.isSome_iff_exists.mp (Except.ok.inj stands)
      exact ⟨place, entry, located, found⟩

theorem pathExists_of_stands {disk : Disk} {path : Path} (located : disk.place path = .ok place)
    {entry : Entry} (stands : disk.entryAt? place = some entry) :
    disk.pathExists path = .ok true := by
  rw [pathExists, look, located]
  simp [Except.map, stands]

/-- What is written stands there afterwards. -/
theorem exists_file_of_writeFile {path : Path} {contents : Bytes}
    (written : before.writeFile path contents = .ok after) :
    ∃ place, after.place path = .ok place ∧
      after.entryAt? place = some (.file contents before.now) := by
  obtain ⟨place, located, noFolder, rfl⟩ := writeFile_eq_ok_iff.mp written
  have notTop : place ≠ [] := by
    rintro rfl
    exact noFolder rfl
  have kept : ∀ other, before.entryAt? other = some .folder →
      (before.put place (.file contents before.now)).entryAt? other = some .folder := by
    intro other stands
    have apart : other ≠ place := by
      rintro rfl
      exact noFolder stands
    rw [entryAt?_put before place other _ notTop, if_neg apart, stands]
  have sameCurrent : (before.put place (.file contents before.now)).current = before.current := rfl
  refine ⟨place, place_eq_ok_of_folders sameCurrent kept located, ?_⟩
  rw [entryAt?_put before place place _ notTop, if_pos rfl]

theorem Grows.pathExists_eq_true (grows : before.Grows fresh after) {path : Path}
    (stands : before.pathExists path = .ok true) : after.pathExists path = .ok true := by
  obtain ⟨place, entry, located, found⟩ := exists_of_pathExists stands
  exact pathExists_of_stands (grows.place_eq_ok located) (grows.entryAt?_eq_some found)

theorem Grows.readText_eq_ok (grows : before.Grows fresh after) {path : Path} {text : Text}
    (read : before.readText path = .ok text) : after.readText path = .ok text := by
  have sameBytes : after.readBytes path = before.readBytes path := by
    unfold readText at read
    cases found : before.readBytes path with
    | error fault => simp [found] at read
    | ok contents =>
        unfold readBytes at found ⊢
        obtain ⟨place, located, stands⟩ := exists_of_except_bind found
        rw [grows.place_eq_ok located]
        cases entry : before.entryAt? place with
        | none => simp [entry] at stands
        | some standing =>
            rw [entry] at stands
            simp only [bind, Except.bind, grows.entryAt?_eq_some entry]
            exact stands
  rw [readText, sameBytes]
  exact read

/-- In a tree nothing comes to stand at a path from the top, unless its place is fresh. -/
theorem Grows.pathExists_ne_true (grows : before.Grows fresh after) (tree : before.IsTree)
    {names : List Text} (noUp : Path.up ∉ names) (notFresh : ¬ fresh names)
    (missing : before.pathExists (['/'] :: names) = .ok false) :
    after.pathExists (['/'] :: names) ≠ .ok true := by
  intro stands
  obtain ⟨place, entry, located, found⟩ := exists_of_pathExists stands
  obtain rfl := place_straight noUp located
  obtain ⟨valid, short, walked⟩ := (place_eq_ok_iff after _).mp located
  have notUp : ∀ part ∈ place, part ≠ Path.up := fun part member same => noUp (same ▸ member)
  have origin (disk : Disk) : disk.origin (['/'] :: place) = ([], place) := rfl
  rw [origin] at walked
  rw [grows.entryAt?_eq notFresh] at found
  have noneTooLong := short_of_walk_eq_ok notUp walked
  have earlier : before.place (['/'] :: place) = .ok place :=
    (place_eq_ok_iff before _).mpr ⟨valid, short, tree.walk_eq_ok found notUp noneTooLong⟩
  cases missing.symm.trans (pathExists_of_stands earlier found)

end Disk

/-! ## Folders -/

namespace DiskAction

variable {disk after : Disk} {path : Path}

/-- Asking for a folder makes it, or finds it, or leaves the disk as it is. -/
theorem ensureFolder_cases (path : Path) (disk : Disk) :
    (∃ place, disk.place path = .ok place ∧ disk.entryAt? place = none ∧
      ensureFolder path disk = (.ok (), disk.put place .folder)) ∨
    (disk.isFolder path = .ok true ∧ ensureFolder path disk = (.ok (), disk)) ∨
    ∃ fault, ensureFolder path disk = (.error fault, disk) := by
  unfold ensureFolder
  rw [tryCatch_apply]
  rcases changeAt_cases path (·.makeFolder path) disk with
    ⟨later, made, changed⟩ | ⟨fault, -, changed⟩
  · obtain ⟨place, located, free, rfl⟩ := Disk.makeFolder_eq_ok_iff.mp made
    exact .inl ⟨place, located, free, by rw [changed]⟩
  · rw [changed]
    dsimp only
    rw [bind_apply, isFolder]
    have asked : checkAt path (·.isFolder path) disk =
        ((disk.isFolder path).mapError fun fault => { fault, path }, disk) := rfl
    rw [asked]
    cases disk.isFolder path with
    | error hidden => exact .inr (.inr ⟨_, rfl⟩)
    | ok answer =>
        cases answer with
        | true => exact .inr (.inl ⟨rfl, rfl⟩)
        | false => exact .inr (.inr ⟨_, rfl⟩)

theorem grows_ensureFolder (path : Path) (disk : Disk) :
    disk.Grows (fun place => disk.place path = .ok place) (ensureFolder path disk).2 := by
  rcases ensureFolder_cases path disk with
    ⟨place, located, free, ran⟩ | ⟨-, ran⟩ | ⟨fault, ran⟩
  · rw [ran]
    refine (disk.grows_put .folder free).mono fun other same => ?_
    rw [same, located]
  · rw [ran]
    exact .refl _ _
  · rw [ran]
    exact .refl _ _

theorem grows_ensureFolder_straight {names : List Text} (noUp : Path.up ∉ names) (disk : Disk) :
    disk.Grows (· = names) (ensureFolder (['/'] :: names) disk).2 :=
  (grows_ensureFolder _ disk).mono fun _ located => Disk.place_straight noUp located

theorem makeFoldersUpTo_cons (part : Text) (above : List Text) (disk : Disk) :
    makeFoldersUpTo (part :: above) disk =
      match ensureFolder (part :: above).reverse disk with
      | (.ok (), middle) => (.ok (), middle)
      | (.error fault, middle) =>
        if fault.fault != .notFound || Path.isRoot part then (.error fault, middle)
        else (makeFoldersUpTo above >>= fun _ => ensureFolder (part :: above).reverse) middle := by
  rw [makeFoldersUpTo, tryCatch_apply]
  cases ensureFolder (part :: above).reverse disk with
  | mk answer middle =>
      cases answer with
      | ok _ => rfl
      | error fault =>
          dsimp only
          split <;> rfl

theorem grows_bind {Fault Result Next : Type} {fresh : List Text → Prop}
    {action : DiskAction Fault Result} {next : Result → DiskAction Fault Next}
    (first : disk.Grows fresh (action disk).2)
    (second : ∀ value middle, action disk = (.ok value, middle) →
      middle.Grows fresh (next value middle).2) :
    disk.Grows fresh ((action >>= next) disk).2 := by
  rw [bind_apply]
  cases ran : action disk with
  | mk answer middle =>
      rw [ran] at first
      cases answer with
      | error fault => exact first
      | ok value => exact first.trans (second value middle ran)

/-- Making a folder after those above it, unless it is a root, adds what each of the steps adds. -/
theorem grows_makeFoldersUpTo_cons {fresh : List Text → Prop} {part : Text} {above : List Text}
    (self : ∀ disk : Disk, disk.Grows fresh (ensureFolder (part :: above).reverse disk).2)
    (before : Path.isRoot part = false →
      ∀ disk : Disk, disk.Grows fresh (makeFoldersUpTo above disk).2) (disk : Disk) :
    disk.Grows fresh (makeFoldersUpTo (part :: above) disk).2 := by
  have ensured := self disk
  rw [makeFoldersUpTo_cons]
  cases ran : ensureFolder (part :: above).reverse disk with
  | mk answer middle =>
      rw [ran] at ensured
      cases answer with
      | ok _ => exact ensured
      | error fault =>
          dsimp only
          split
          · exact ensured
          · next goesOn =>
              have notRoot : Path.isRoot part = false := by
                rw [Bool.or_eq_true, not_or] at goesOn
                exact Bool.eq_false_iff.mpr goesOn.2
              exact ensured.trans
                (grows_bind (before notRoot middle) fun _ later _ => self later)

theorem grows_makeFolders {names : List Text} (noUp : Path.up ∉ names) (disk : Disk) :
    disk.Grows (· <+: names) (makeFolders (['/'] :: names) disk).2 := by
  unfold makeFolders
  have self {names : List Text} (noUp : Path.up ∉ names) (disk : Disk) :
      disk.Grows (· <+: names) (ensureFolder (['/'] :: names) disk).2 :=
    (grows_ensureFolder_straight noUp disk).mono fun place same => same ▸ List.prefix_refl _
  -- The folders are asked for from the last one upwards, so the names are taken from their end.
  induction names using List.reverseRecOn generalizing disk with
  | nil =>
      have only : (['/'] :: ([] : List Text)).reverse = [['/']] := rfl
      rw [only]
      apply grows_makeFoldersUpTo_cons
      · exact self noUp
      · intro notRoot
        exact absurd notRoot (by simp [Path.isRoot])
  | append_singleton above part ih =>
      have noUpAbove : Path.up ∉ above := fun member => noUp (List.mem_append_left _ member)
      have backwards : (['/'] :: (above ++ [part])).reverse = part :: (['/'] :: above).reverse := by
        simp
      have path : (part :: (['/'] :: above).reverse).reverse = ['/'] :: (above ++ [part]) := by
        simp
      rw [backwards]
      apply grows_makeFoldersUpTo_cons
      · rw [path]
        exact self noUp
      · intro _ disk
        exact (ih noUpAbove disk).mono fun place below => below.trans (List.prefix_append _ _)

/-- Whatever a path says, making its folders takes nothing away. -/
theorem grows_makeFolders_anywhere (path : Path) (disk : Disk) :
    disk.Grows (fun _ => True) (makeFolders path disk).2 := by
  have ensured (path : Path) (disk : Disk) :
      disk.Grows (fun _ => True) (ensureFolder path disk).2 :=
    (grows_ensureFolder path disk).mono fun _ _ => trivial
  unfold makeFolders
  induction path.reverse generalizing disk with
  | nil => exact ensured [] disk
  | cons part above ih => exact grows_makeFoldersUpTo_cons (ensured _) (fun _ => ih) disk

theorem grows_adapt {Fault Other Result : Type} {fresh : List Text → Prop}
    {translate : Fault → Other} {action : DiskAction Fault Result}
    (grows : disk.Grows fresh (action disk).2) :
    disk.Grows fresh ((ExceptT.adapt translate action : DiskAction Other Result) disk).2 :=
  grows

/-! ## Files -/

theorem grows_pathExists (path : Path) (disk : Disk) (fresh : List Text → Prop) :
    disk.Grows fresh (pathExists path disk).2 :=
  .refl _ _

theorem grows_writeText (text : Text) (missing : disk.pathExists path = .ok false) :
    disk.Grows (fun place => disk.place path = .ok place) (writeText path text disk).2 := by
  unfold writeText
  rcases changeAt_cases path (·.writeText path text) disk with
    ⟨later, written, changed⟩ | ⟨fault, -, changed⟩
  · obtain ⟨place, located, -, rfl⟩ := Disk.writeFile_eq_ok_iff.mp written
    rw [changed]
    refine (disk.grows_put _ (Disk.free_of_pathExists missing located)).mono fun other same => ?_
    rw [same, located]
  · rw [changed]
    exact .refl _ _

/-- Writing what is missing takes nothing away. -/
theorem grows_writeMissing (folder : Path) (files : List (Text × Text)) (disk : Disk) :
    disk.Grows (fun _ => True) (writeMissing folder files disk).2 := by
  induction files generalizing disk with
  | nil => exact .refl _ _
  | cons file rest ih =>
      unfold writeMissing
      refine grows_bind (grows_pathExists _ _ _) fun stands middle asked => ?_
      obtain ⟨answer, rfl⟩ := checkAt_eq_ok_iff.mp asked
      cases stands with
      | true => exact ih middle
      | false =>
          have written := (grows_writeText file.2 answer).mono fun _ _ => trivial
          exact grows_bind written fun _ later _ =>
            grows_bind (ih later) fun _ _ _ => .refl _ _

end DiskAction

end DocComponents
