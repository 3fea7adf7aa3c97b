import DocComponents.Proofs.File.Action

/-!
# Work in a folder

In a folder that is there, a name that fits leads to a place. A folder that is made and a file that
is written at a free place are put there, and nothing else changes.
-/

set_option autoImplicit false

namespace DocComponents

namespace Disk

/-- A name that a disk can hold in a folder: it is neither too long itself nor makes its path so. -/
structure FitsIn (folder : Path) (name : Text) : Prop where
  isName : Path.IsName name
  valid : '\x00' ∉ name
  shortName : isTooLong name longestName = false
  shortPath : isTooLong (Path.toText (folder ++ [name])) longestPath = false

instance (folder : Path) (name : Text) : Decidable (FitsIn folder name) :=
  decidable_of_iff
    (Path.IsName name ∧ '\x00' ∉ name ∧ isTooLong name longestName = false ∧
      isTooLong (Path.toText (folder ++ [name])) longestPath = false)
    ⟨fun ⟨isName, valid, shortName, shortPath⟩ => ⟨isName, valid, shortName, shortPath⟩,
      fun fits => ⟨fits.isName, fits.valid, fits.shortName, fits.shortPath⟩⟩

/-- A path that leads to a folder. -/
structure FolderAt (disk : Disk) (folder : Path) (place : List Text) : Prop where
  located : disk.place folder = .ok place
  stands : disk.entryAt? place = some .folder

/-- The disk with entries put below a place, one after the other. -/
def fill (disk : Disk) (place : List Text) (items : List (List Text × Entry)) : Disk :=
  { disk with entries := disk.entries.insertAll (items.map fun item => (place ++ item.1, item.2)) }

variable {disk other : Disk} {folder : Path} {place rest : List Text} {name : Text} {entry : Entry}
  {items : List (List Text × Entry)}

theorem FolderAt.place_concat (present : disk.FolderAt folder place) (fits : FitsIn folder name) :
    disk.place (folder ++ [name]) = .ok (place ++ [name]) := by
  obtain ⟨valid, -, walked⟩ := (place_eq_ok_iff disk folder).mp present.located
  refine (place_eq_ok_iff disk _).mpr ⟨?_, fits.shortPath, ?_⟩
  · have noNull := fits.valid
    simp only [Path.isValid, Bool.not_eq_true', List.any_eq_false, List.contains_eq_mem,
      decide_eq_true_eq] at valid ⊢
    intro part member
    rcases List.mem_append.mp member with inFolder | isLast
    · exact valid part inFolder
    · cases List.mem_singleton.mp isLast
      exact noNull
  · have isPart : ∀ part ∈ [name], Path.IsPart part := by
      intro part member
      cases List.mem_singleton.mp member
      exact fits.isName.toIsPart
    have notLong : ¬ isTooLong name longestName = true := by simp [fits.shortName]
    rw [origin_append disk isPart, walk_append, walked]
    dsimp only
    rw [walk, present.stands]
    dsimp only
    rw [if_neg fits.isName.notUp, if_neg notLong, walk]

theorem Grows.folderAt {fresh : List Text → Prop} (grows : disk.Grows fresh other)
    (present : disk.FolderAt folder place) : other.FolderAt folder place :=
  ⟨grows.place_eq_ok present.located, grows.entryAt?_eq_some present.stands⟩

theorem exists_folderAt_of_isFolder {path : Path} (isFolder : disk.isFolder path = .ok true) :
    ∃ place, disk.FolderAt path place := by
  obtain ⟨place, located, stands⟩ := isFolder_eq_true_iff.mp isFolder
  exact ⟨place, located, stands⟩

theorem entryAt?_concat (disk : Disk) (place : List Text) (name : Text) :
    disk.entryAt? (place ++ [name]) = disk.entries.get? (place ++ [name]) :=
  entryAt?_append disk (List.cons_ne_nil name [])

theorem entryAt?_congr (same : other.entries.get? place = disk.entries.get? place) :
    other.entryAt? place = disk.entryAt? place := by
  rw [entryAt?, entryAt?, same]

theorem FolderAt.entry?_concat (present : disk.FolderAt folder place) (fits : FitsIn folder name) :
    disk.entry? (folder ++ [name]) = disk.entries.get? (place ++ [name]) := by
  rw [entry?_of_place (present.place_concat fits), entryAt?_concat]

theorem get?_put_beside {beside : Text} (apart : name ≠ beside) (more : List Text) :
    (disk.put (place ++ [beside]) entry).entries.get? (place ++ name :: more) =
      disk.entries.get? (place ++ name :: more) := by
  rw [get?_put, if_neg (by simp [apart])]

@[simp]
theorem put_now (disk : Disk) (place : List Text) (entry : Entry) :
    (disk.put place entry).now = disk.now := rfl

theorem put_eq_self (stands : disk.entries.get? place = some entry) :
    disk.put place entry = disk := by
  have same : disk.entries.insert place entry = disk.entries := by
    apply SortedMap.eq_of_get?_eq
    intro other
    rw [SortedMap.get?_insert]
    by_cases here : other = place
    · rw [if_pos here, here, stands]
    · rw [if_neg here]
  rw [put, same]

/-- A folder stays where it is when something is put at a free place, or a folder where one is. -/
theorem FolderAt.put (present : disk.FolderAt folder place) {other : List Text}
    (free : disk.entries.get? other = none ∨ disk.entries.get? other = some entry)
    (notTop : other ≠ []) : (disk.put other entry).FolderAt folder place := by
  rcases free with free | same
  · rw [← entryAt?_of_ne_nil disk notTop] at free
    exact (disk.grows_put entry free).folderAt present
  · rw [put_eq_self same]
    exact present

theorem FolderAt.concat (present : disk.FolderAt folder place) (fits : FitsIn folder name)
    (free : disk.entries.get? (place ++ [name]) = none ∨
      disk.entries.get? (place ++ [name]) = some .folder) :
    (disk.put (place ++ [name]) .folder).FolderAt (folder ++ [name]) (place ++ [name]) := by
  refine ⟨(present.put free (by simp)).place_concat fits, ?_⟩
  rw [entryAt?_concat, get?_put, if_pos rfl]

private theorem walk_of_above {reached parts : List Text} (noUp : Path.up ∉ parts)
    (same : ∀ above, above <+: reached ++ parts → other.entryAt? above = disk.entryAt? above)
    (walked : disk.walk reached parts = .ok place) : other.walk reached parts = .ok place := by
  induction parts generalizing reached with
  | nil => exact walked
  | cons part parts ih =>
      have notUp : part ≠ Path.up := fun isUp => noUp (isUp ▸ List.mem_cons_self)
      have shape : reached ++ part :: parts = reached ++ [part] ++ parts := by simp
      rw [walk] at walked ⊢
      rw [same reached (List.prefix_append _ _)]
      split at walked
      · cases walked
      · cases walked
      · rw [if_neg notUp] at walked ⊢
        split at walked
        · cases walked
        · next short =>
            rw [if_neg short]
            exact ih (fun member => noUp (List.mem_cons_of_mem _ member)) (shape ▸ same) walked

/-- A folder that is told from the top depends on what stands above it only. -/
theorem FolderAt.of_above {names : List Text} (noUp : Path.up ∉ names)
    (present : disk.FolderAt (['/'] :: names) names)
    (same : ∀ above, above <+: names → other.entryAt? above = disk.entryAt? above) :
    other.FolderAt (['/'] :: names) names := by
  obtain ⟨valid, short, walked⟩ := (place_eq_ok_iff disk _).mp present.located
  refine ⟨(place_eq_ok_iff other _).mpr ⟨valid, short, ?_⟩, ?_⟩
  · exact walk_of_above noUp same walked
  · rw [same names (List.prefix_refl _), present.stands]

/-! ## Emptying a folder -/

theorem isPrefixOf_eq_false_or_eq {elsewhere : List Text}
    (apart : ∀ name more, elsewhere ≠ place ++ name :: more) :
    place.isPrefixOf elsewhere = false ∨ elsewhere = place := by
  by_cases isBelow : place <+: elsewhere
  · obtain ⟨rest, rfl⟩ := isBelow
    cases rest with
    | nil => exact .inr (List.append_nil place)
    | cons name more => exact absurd rfl (apart name more)
  · exact .inl (by rwa [Bool.eq_false_iff, Ne, List.isPrefixOf_iff_prefix])

/-- Emptying a folder takes away what is below it, and nothing else. -/
theorem FolderAt.exists_emptyFolder (present : disk.FolderAt folder place) :
    ∃ empty, disk.emptyFolder folder = .ok empty ∧ empty.current = disk.current ∧
      empty.now = disk.now ∧ (∀ rest ≠ [], empty.entries.get? (place ++ rest) = none) ∧
      ∀ other, (∀ name more, other ≠ place ++ name :: more) →
        empty.entries.get? other = disk.entries.get? other := by
  have emptied : disk.emptyFolder folder = .ok { disk with
      entries := disk.entries.filter fun other _ =>
        !place.isPrefixOf other || other = place } := by
    rw [emptyFolder, present.located]
    rfl
  refine ⟨_, emptied, rfl, rfl, ?_, ?_⟩
  · intro rest notTop
    have isBelow : place.isPrefixOf (place ++ rest) = true :=
      List.isPrefixOf_iff_prefix.mpr (List.prefix_append _ _)
    refine (SortedMap.get?_filter_key disk.entries _ _).trans ?_
    rw [isBelow]
    simp [notTop]
  · intro other apart
    refine (SortedMap.get?_filter_key disk.entries _ _).trans (if_pos ?_)
    rcases isPrefixOf_eq_false_or_eq apart with notBelow | same
    · simp [notBelow]
    · simp [same]

/-! ## Filling a folder -/

@[simp]
theorem fill_now (disk : Disk) (place : List Text) (items : List (List Text × Entry)) :
    (disk.fill place items).now = disk.now := rfl

theorem fill_cons (disk : Disk) (place : List Text) (item : List Text × Entry)
    (items : List (List Text × Entry)) :
    disk.fill place (item :: items) = (disk.put (place ++ item.1) item.2).fill place items := rfl

theorem fill_append (disk : Disk) (place : List Text) (items more : List (List Text × Entry)) :
    disk.fill place (items ++ more) = (disk.fill place items).fill place more := by
  induction items generalizing disk with
  | nil => rfl
  | cons item items ih => rw [List.cons_append, fill_cons, fill_cons, ih]

theorem fill_concat (disk : Disk) (place : List Text) (name : Text)
    (items : List (List Text × Entry)) :
    disk.fill (place ++ [name]) items =
      disk.fill place (items.map fun item => (name :: item.1, item.2)) := by
  simp [fill, List.map_map, Function.comp_def]

theorem get?_fill_of_not_mem (untouched : ∀ item ∈ items, item.1 ≠ rest) :
    (disk.fill place items).entries.get? (place ++ rest) = disk.entries.get? (place ++ rest) := by
  refine SortedMap.get?_insertAll_of_not_mem fun entry member => ?_
  obtain ⟨item, inside, rfl⟩ := List.mem_map.mp member
  exact fun same => untouched item inside (List.append_cancel_left same)

theorem get?_fill_beside (apart : ∀ item ∈ items, item.1.head? ≠ some name) (more : List Text) :
    (disk.fill place items).entries.get? (place ++ name :: more) =
      disk.entries.get? (place ++ name :: more) :=
  get?_fill_of_not_mem fun item inside same => apart item inside (by rw [same]; rfl)

theorem get?_fill_of_not_below {elsewhere : List Text} (apart : ¬ place <+: elsewhere) :
    (disk.fill place items).entries.get? elsewhere = disk.entries.get? elsewhere := by
  refine SortedMap.get?_insertAll_of_not_mem fun entry member => ?_
  obtain ⟨item, inside, rfl⟩ := List.mem_map.mp member
  rintro rfl
  exact apart (List.prefix_append _ _)

/-- Filling a place hides what differed at the places that are filled. -/
theorem get?_fill_congr {left right : Disk} (items : List (List Text × Entry))
    {other : List Text}
    (same : left.entries.get? other = right.entries.get? other) :
    (left.fill place items).entries.get? other = (right.fill place items).entries.get? other := by
  induction items generalizing left right with
  | nil => exact same
  | cons item items ih =>
      rw [fill_cons, fill_cons]
      apply ih
      rw [get?_put, get?_put, same]

end Disk

namespace DiskAction

open Disk

variable {disk after : Disk} {folder path : Path} {place : List Text} {name : Text}

/-! ## Making folders -/

theorem makeFolders_of_ensureFolder (ran : ensureFolder path disk = (.ok (), after)) :
    makeFolders path disk = (.ok (), after) := by
  unfold makeFolders
  cases backwards : path.reverse with
  | nil =>
      cases List.reverse_eq_nil_iff.mp backwards
      exact ran
  | cons part above =>
      have same : (part :: above).reverse = path := by rw [← backwards, List.reverse_reverse]
      rw [makeFoldersUpTo_cons, same, ran]

/-- Asking for a folder ends with the folder. -/
theorem exists_folderAt_of_ensureFolder (ran : ensureFolder path disk = (.ok (), after)) :
    ∃ place, after.FolderAt path place := by
  rcases ensureFolder_cases path disk with
    ⟨place, located, free, made⟩ | ⟨isFolder, kept⟩ | ⟨fault, failed⟩
  · have notTop : place ≠ [] := by
      rintro rfl
      cases free
    cases made.symm.trans ran
    refine ⟨place, (disk.grows_put .folder free).place_eq_ok located, ?_⟩
    rw [entryAt?_put disk place place .folder notTop, if_pos rfl]
  · cases kept.symm.trans ran
    exact exists_folderAt_of_isFolder isFolder
  · cases failed.symm.trans ran

/-- Making a folder ends by asking for it. -/
theorem exists_ensureFolder_of_makeFolders (ran : makeFolders path disk = (.ok (), after)) :
    ∃ middle, ensureFolder path middle = (.ok (), after) := by
  unfold makeFolders at ran
  cases backwards : path.reverse with
  | nil =>
      rw [backwards] at ran
      cases List.reverse_eq_nil_iff.mp backwards
      exact ⟨disk, ran⟩
  | cons part above =>
      have same : (part :: above).reverse = path := by rw [← backwards, List.reverse_reverse]
      rw [backwards, makeFoldersUpTo_cons, same] at ran
      cases asked : ensureFolder path disk with
      | mk answer middle =>
          rw [asked] at ran
          cases answer with
          | ok _ => exact ⟨disk, asked.trans ran⟩
          | error fault =>
              dsimp only at ran
              split at ran
              · cases ran
              · obtain ⟨_, later, -, last⟩ := exists_of_bind_eq_ok ran
                exact ⟨later, last⟩

theorem exists_folderAt_of_makeFolders (ran : makeFolders path disk = (.ok (), after)) :
    ∃ place, after.FolderAt path place := by
  obtain ⟨middle, last⟩ := exists_ensureFolder_of_makeFolders ran
  exact exists_folderAt_of_ensureFolder last

theorem makeFolders_of_folderAt (present : disk.FolderAt path place) :
    makeFolders path disk = (.ok (), disk) := by
  apply makeFolders_of_ensureFolder
  have occupied : disk.makeFolder path = .error .alreadyExists := by
    rw [makeFolder, present.located]
    simp [bind, Except.bind, present.stands]
  have answer : disk.isFolder path = .ok true := by
    rw [Disk.isFolder, look, present.located]
    simp [Except.map, present.stands]
  rcases changeAt_cases path (·.makeFolder path) disk with ⟨later, made, -⟩ | ⟨fault, -, refused⟩
  · cases occupied.symm.trans made
  · have asked : isFolder path disk = (.ok true, disk) := checkAt_eq_ok_iff.mpr ⟨answer, rfl⟩
    rw [ensureFolder, tryCatch_apply, refused]
    dsimp only
    rw [bind_of_eq_ok asked]
    rfl

theorem makeFolders_concat (present : disk.FolderAt folder place) (fits : FitsIn folder name)
    (free : disk.entries.get? (place ++ [name]) = none ∨
      disk.entries.get? (place ++ [name]) = some .folder) :
    makeFolders (folder ++ [name]) disk = (.ok (), disk.put (place ++ [name]) .folder) := by
  have located := present.place_concat fits
  rcases free with free | stands
  · rw [← entryAt?_concat] at free
    apply makeFolders_of_ensureFolder
    have made : changeAt (folder ++ [name]) (·.makeFolder (folder ++ [name])) disk =
        (.ok (), disk.put (place ++ [name]) .folder) :=
      changeAt_eq_ok_iff.mpr (makeFolder_eq_ok_iff.mpr ⟨_, located, free, rfl⟩)
    rw [ensureFolder, tryCatch_apply, made]
  · rw [put_eq_self stands]
    rw [← entryAt?_concat] at stands
    exact makeFolders_of_folderAt ⟨located, stands⟩

/-! ## Writing files -/

theorem writeFile_concat (present : disk.FolderAt folder place) (fits : FitsIn folder name)
    (free : disk.entries.get? (place ++ [name]) = none) (contents : Bytes) :
    changeAt (folder ++ [name]) (·.writeFile (folder ++ [name]) contents) disk =
      (.ok (), disk.put (place ++ [name]) (.file contents disk.now)) := by
  refine changeAt_eq_ok_iff.mpr (writeFile_eq_ok_iff.mpr ⟨_, present.place_concat fits, ?_, rfl⟩)
  simp [entryAt?_concat, free]

theorem writeText_concat (present : disk.FolderAt folder place) (fits : FitsIn folder name)
    (free : disk.entries.get? (place ++ [name]) = none) (text : Text) :
    writeText (folder ++ [name]) text disk =
      (.ok (), disk.put (place ++ [name]) (.file (Utf8.encode text) disk.now)) :=
  writeFile_concat present fits free (Utf8.encode text)

theorem pathExists_concat (present : disk.FolderAt folder place) (fits : FitsIn folder name) :
    pathExists (folder ++ [name]) disk =
      (.ok (disk.entries.get? (place ++ [name])).isSome, disk) := by
  refine checkAt_eq_ok_iff.mpr ⟨?_, rfl⟩
  rw [Disk.pathExists, look, present.place_concat fits, ← entryAt?_concat]
  rfl

theorem writeMissing_of_free {files : List (Text × Text)} (present : disk.FolderAt folder place)
    (fits : ∀ file ∈ files, FitsIn folder file.1)
    (free : ∀ file ∈ files, disk.entries.get? (place ++ [file.1]) = none)
    (apart : (files.map Prod.fst).Nodup) :
    writeMissing folder files disk =
      (.ok (files.map fun file => folder ++ [file.1]),
        disk.fill place
          (files.map fun file => ([file.1], .file (Utf8.encode file.2) disk.now))) := by
  induction files generalizing disk with
  | nil => rfl
  | cons file files ih =>
      have firstFits := fits file List.mem_cons_self
      have firstFree := free file List.mem_cons_self
      obtain ⟨notAgain, apartLater⟩ := List.nodup_cons.mp apart
      have asked := pathExists_concat present firstFits
      rw [firstFree] at asked
      have presentLater : (disk.put (place ++ [file.1])
          (.file (Utf8.encode file.2) disk.now)).FolderAt folder place :=
        present.put (.inl firstFree) (by simp)
      have later := ih presentLater
        (fun next member => fits next (List.mem_cons_of_mem _ member))
        (fun next member => by
          have other : place ++ [next.1] ≠ place ++ [file.1] := fun same => by
            have sameName : next.1 = file.1 := by simpa using same
            exact notAgain (sameName ▸ List.mem_map_of_mem member)
          rw [get?_put, if_neg other]
          exact free next (List.mem_cons_of_mem _ member))
        apartLater
      rw [writeMissing, bind_of_eq_ok asked]
      have written := writeText_concat present firstFits firstFree file.2
      have step := bind_of_eq_ok written fun _ => do
        return (folder ++ [file.1]) :: (← writeMissing folder files)
      refine step.trans ?_
      rw [bind_of_eq_ok later]
      rfl

end DiskAction

end DocComponents
