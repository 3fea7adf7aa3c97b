import DocComponents.Proofs.Archive.Zip
import DocComponents.Proofs.File.Folder
import DocComponents.Workspace.Archiving
import Mathlib.Data.Finset.Card

/-!
# What an archive holds

An archive of a workspace holds every file and every folder outside the archives, each once, and it
stands at a path at which nothing stood. The search for the path ends, since the names that it tries
are all different and a disk has only so many entries.
-/

set_option autoImplicit false

namespace DocComponents

/-- The contents of a file. A folder has none. -/
def Entry.contents? : Entry → Option Bytes
  | .folder => none
  | .file contents _ => some contents

/-- What a member of an archive is unpacked to: the place of a folder, or that of a file with its
contents. -/
def Archive.Zip.Member.unpack (member : Archive.Zip.Member) : List Text × Option Bytes :=
  (Path.ofText member.name, if member.isFolder then none else some member.contents)

/-- A moment from the beginning of 1980 to the end of 2107. -/
def Archive.Timestamp.CanTell (moment : Int) : Prop :=
  315532800 ≤ moment ∧ moment < 4354819200

instance (moment : Int) : Decidable (Archive.Timestamp.CanTell moment) :=
  inferInstanceAs (Decidable (_ ∧ _))

theorem Archive.Timestamp.exists_ofSeconds_iff {moment : Int} :
    (∃ changed, Archive.Timestamp.ofSeconds moment = .ok changed) ↔
      Archive.Timestamp.CanTell moment := by
  unfold Archive.Timestamp.ofSeconds Archive.Timestamp.CanTell
  constructor
  · rintro ⟨changed, told⟩
    split at told
    · cases told
    · split at told
      · cases told
      · omega
  · intro inside
    rw [if_neg (by omega), if_neg (by omega)]
    exact ⟨_, rfl⟩

namespace Layout

/-- A place in a workspace outside its archives. -/
def IsWork (rest : List Text) : Prop :=
  rest ≠ [] ∧ rest.head? ≠ some archivesName

variable {disk : Disk} {place rest : List Text} {entry : Entry} {now : Int} {stamp : Text}
  {folder workspace : Path}

/-! ## Members -/

theorem exists_member_iff :
    (∃ packed, member workspace now rest entry = .ok packed) ↔
      Disk.isTooLong (workspace ++ rest).toText Disk.longestPath = false ∧
        Archive.Timestamp.CanTell (moment now entry) := by
  rw [← Archive.Timestamp.exists_ofSeconds_iff, member]
  cases Disk.isTooLong (workspace ++ rest).toText Disk.longestPath with
  | true => simp
  | false =>
      cases Archive.Timestamp.ofSeconds (moment now entry) with
      | error fault => simp
      | ok changed => cases entry <;> simp

theorem name_of_member {packed : Archive.Zip.Member}
    (told : member workspace now rest entry = .ok packed) :
    (entry = .folder ∧ packed.name = Text.join ['/'] rest ++ ['/']) ∨
      ∃ contents changed, entry = .file contents changed ∧ packed.name = Text.join ['/'] rest ∧
        packed.contents = contents := by
  rw [member] at told
  split at told
  · cases told
  · split at told
    · cases told
    · cases entry with
      | folder =>
          cases told
          exact .inl ⟨rfl, rfl⟩
      | file contents changed =>
          cases told
          exact .inr ⟨contents, changed, rfl, rfl, rfl⟩

theorem unpack_of_member {packed : Archive.Zip.Member} (notTop : rest ≠ [])
    (names : ∀ part ∈ rest, Path.IsPart part)
    (told : member workspace now rest entry = .ok packed) :
    packed.unpack = (rest, entry.contents?) := by
  rw [Archive.Zip.Member.unpack, Archive.Zip.Member.isFolder, Archive.Zip.isFolderName]
  rcases name_of_member told with ⟨rfl, named⟩ | ⟨contents, changed, rfl, named, same⟩
  · have isFolder : (Text.join ['/'] rest ++ ['/']).getLast? = some '/' := by simp
    rw [named, isFolder, Path.ofText_join_slash names notTop]
    rfl
  · obtain ⟨last, ends⟩ := List.getLast?_isSome.mpr notTop |> Option.isSome_iff_exists.mp
    have name := names last (List.mem_of_getLast? ends)
    have notFolder : (Text.join ['/'] rest).getLast? ≠ some '/' := by
      rw [Text.getLast?_join name.notEmpty ends]
      exact fun slash => name.noSlash (List.mem_of_getLast? slash)
    rw [named, same, decide_eq_false notFolder, Path.ofText_join names]
    rfl

theorem exists_membersOf {entries : List (List Text × Entry)}
    (named : ∀ item ∈ entries, item.1 ≠ [] ∧ ∀ part ∈ item.1, Path.IsPart part)
    (told : ∀ item ∈ entries, ∃ packed, member workspace now item.1 item.2 = .ok packed) :
    ∃ members, membersOf workspace now entries = (members, none) ∧
      members.map Archive.Zip.Member.unpack =
        entries.map fun item => (item.1, item.2.contents?) := by
  induction entries with
  | nil => exact ⟨[], rfl, rfl⟩
  | cons item others ih =>
      obtain ⟨packed, first⟩ := told item List.mem_cons_self
      obtain ⟨members, packedOthers, unpacked⟩ :=
        ih (fun next inside => named next (List.mem_cons_of_mem _ inside))
          fun next inside => told next (List.mem_cons_of_mem _ inside)
      obtain ⟨notTop, names⟩ := named item List.mem_cons_self
      refine ⟨packed :: members, ?_, ?_⟩
      · rw [membersOf, first, packedOthers]
      · rw [List.map_cons, List.map_cons, unpack_of_member notTop names first, unpacked]

theorem exists_fault_membersOf {entries : List (List Text × Entry)}
    (untold : ∃ item ∈ entries, ∃ fault, member workspace now item.1 item.2 = .error fault) :
    ∃ members fault, membersOf workspace now entries = (members, some fault) := by
  induction entries with
  | nil =>
      obtain ⟨item, inside, -⟩ := untold
      cases inside
  | cons item others ih =>
      cases first : member workspace now item.1 item.2 with
      | error fault => exact ⟨[], fault, by rw [membersOf, first]⟩
      | ok packed =>
          obtain ⟨other, inside, fault, refused⟩ := untold
          rcases List.mem_cons.mp inside with rfl | later
          · cases first.symm.trans refused
          · obtain ⟨members, found, packedOthers⟩ := ih ⟨other, later, fault, refused⟩
            exact ⟨packed :: members, found, by rw [membersOf, first, packedOthers]⟩

theorem exists_item_of_mem_membersOf {entries : List (List Text × Entry)}
    {packed : Archive.Zip.Member} (inside : packed ∈ (membersOf workspace now entries).1) :
    ∃ item ∈ entries, member workspace now item.1 item.2 = .ok packed := by
  induction entries with
  | nil => cases inside
  | cons item others ih =>
      cases told : member workspace now item.1 item.2 with
      | error fault =>
          rw [membersOf, told] at inside
          cases inside
      | ok first =>
          rw [membersOf, told] at inside
          rcases List.mem_cons.mp inside with rfl | later
          · exact ⟨item, List.mem_cons_self, told⟩
          · obtain ⟨other, isOther, toldOther⟩ := ih later
            exact ⟨other, List.mem_cons_of_mem _ isOther, toldOther⟩

/-- The name of a member is a part of a path that is not too long. -/
theorem length_encode_name_lt {names : List Text} {packed : Archive.Zip.Member}
    (located : workspace = ['/'] :: names) (notTop : rest ≠ [])
    (told : member workspace now rest entry = .ok packed) :
    (Utf8.encode packed.name).length < 2 ^ 16 := by
  have short := (exists_member_iff.mp ⟨packed, told⟩).1
  obtain ⟨lead, whole⟩ := Text.suffix_join_append ['/'] names notTop
  have path : (workspace ++ rest).toText = '/' :: (lead ++ Text.join ['/'] rest) := by
    rw [located, whole]
    rfl
  have bounded : (Utf8.encode (Text.join ['/'] rest)).length ≤ 4095 := by
    rw [path, Disk.isTooLong, decide_eq_false_iff_not, Disk.longestPath, Utf8.encode,
      List.flatMap_cons, List.flatMap_append, List.length_append, List.length_append] at short
    rw [Utf8.encode]
    omega
  rcases name_of_member told with ⟨-, named⟩ | ⟨_, _, -, named, -⟩
  · have slash : (Utf8.encode ['/']).length = 1 := rfl
    rw [named, Utf8.encode, List.flatMap_append, List.length_append, ← Utf8.encode, ← Utf8.encode,
      slash]
    omega
  · rw [named]
    omega

theorem IsWork.isKept_eq_false (work : IsWork rest) : isKept rest = false :=
  decide_eq_false work.2

theorem isWork_cons_iff (name : Text) (more : List Text) :
    IsWork (name :: more) ↔ name ≠ archivesName := by
  simp [IsWork]

theorem mem_archivedBelow_iff :
    (rest, entry) ∈ archivedBelow disk place ↔
      IsWork rest ∧ disk.entries.get? (place ++ rest) = some entry := by
  rw [archivedBelow, List.mem_filter, Disk.mem_below_iff, IsWork, isKept]
  simp only [Bool.not_eq_true', decide_eq_false_iff_not]
  exact and_right_comm

/-! ## Clearing -/

theorem get?_clearBelow (disk : Disk) (place other : List Text) :
    (clearBelow disk place).entries.get? other =
      if (!(place.isPrefixOf other && place.length < other.length) ||
        isKept (other.drop place.length)) = true
      then disk.entries.get? other else none :=
  SortedMap.get?_filter_key disk.entries _ other

theorem get?_clearBelow_of_isWork (disk : Disk) (place : List Text) (work : IsWork rest) :
    (clearBelow disk place).entries.get? (place ++ rest) = none := by
  have longer : 0 < rest.length := List.length_pos_iff.mpr work.1
  have isBelow : place.isPrefixOf (place ++ rest) = true :=
    List.isPrefixOf_iff_prefix.mpr (List.prefix_append place rest)
  rw [get?_clearBelow, isBelow]
  simp [longer, work.isKept_eq_false]

theorem get?_clearBelow_archives (disk : Disk) (place more : List Text) :
    (clearBelow disk place).entries.get? (place ++ archivesName :: more) =
      disk.entries.get? (place ++ archivesName :: more) := by
  rw [get?_clearBelow]
  simp [isKept]

theorem get?_clearBelow_of_not_below {other : List Text}
    (apart : ∀ name more, other ≠ place ++ name :: more) :
    (clearBelow disk place).entries.get? other = disk.entries.get? other := by
  rw [get?_clearBelow]
  rcases Disk.isPrefixOf_eq_false_or_eq apart with notBelow | same
  · rw [notBelow]
    rfl
  · simp [same]

/-! ## Names of archives -/

theorem archiveName_injective (stamp : Text) : Function.Injective (archiveName stamp) := by
  intro left right same
  have numbers : (if left = 0 then [] else
        '-' :: List.replicate (2 - (Text.ofNat left).length) '0' ++ Text.ofNat left : Text) =
      if right = 0 then [] else
        '-' :: List.replicate (2 - (Text.ofNat right).length) '0' ++ Text.ofNat right := by
    simpa [archiveName] using same
  have value (number : Nat) : Nat.ofDigitChars 10
      (List.replicate (2 - (Text.ofNat number).length) '0' ++ Text.ofNat number) 0 = number := by
    rw [Nat.ofDigitChars_append, Nat.ofDigitChars_replicate_zero, Nat.mul_zero, Text.ofNat,
      Nat.ofDigitChars_ten_toDigits]
  by_cases leftZero : left = 0
  · by_cases rightZero : right = 0
    · rw [leftZero, rightZero]
    · simp [leftZero, rightZero] at numbers
  · by_cases rightZero : right = 0
    · simp [leftZero, rightZero] at numbers
    · rw [if_neg leftZero, if_neg rightZero] at numbers
      have digits := List.tail_eq_of_cons_eq numbers
      have same := congrArg (Nat.ofDigitChars 10 · 0) digits
      exact (value left).symm.trans (same.trans (value right))

/-- Among more numbers than a disk has entries, one names an archive at which nothing stands. -/
theorem exists_free_number (disk : Disk) (place : List Text) (stamp : Text) :
    ∃ number ≤ disk.entries.size,
      disk.entries.get? (place ++ [archiveName stamp number]) = none := by
  have injective : Function.Injective fun number => place ++ [archiveName stamp number] := by
    intro left right same
    exact archiveName_injective stamp (by simpa using same)
  -- The numbers up to the size of the disk name more paths than the disk can hold.
  have fewer : disk.entries.keys.toFinset.card <
      ((Finset.range (disk.entries.size + 1)).image
        fun number => place ++ [archiveName stamp number]).card := by
    rw [Finset.card_image_of_injective _ injective, Finset.card_range]
    have most := List.toFinset_card_le disk.entries.keys
    rw [SortedMap.keys, List.length_map] at most
    exact Nat.lt_succ_of_le most
  obtain ⟨key, isTried, notTaken⟩ := Finset.exists_mem_notMem_of_card_lt_card fewer
  obtain ⟨number, inRange, rfl⟩ := Finset.mem_image.mp isTried
  refine ⟨number, Nat.le_of_lt_succ (Finset.mem_range.mp inRange), ?_⟩
  exact SortedMap.get?_eq_none_of_not_mem fun isKey => notTaken (List.mem_toFinset.mpr isKey)

/-- The search for an archive ends at the first number whose name is free. -/
theorem freeArchive_spec (present : disk.FolderAt folder place) {tries number last : Nat}
    (fits : ∀ tried ≤ last, Disk.FitsIn folder (archiveName stamp tried))
    (free : disk.entries.get? (place ++ [archiveName stamp last]) = none)
    (reached : number ≤ last) (enough : last < number + tries) :
    ∃ found, number ≤ found ∧ found ≤ last ∧
      freeArchive disk folder stamp tries number = folder ++ [archiveName stamp found] ∧
      disk.entries.get? (place ++ [archiveName stamp found]) = none ∧
      ∀ tried, number ≤ tried → tried < found →
        (disk.entries.get? (place ++ [archiveName stamp tried])).isSome := by
  -- While names are taken the number moves on towards `last`, which the tries are enough to reach.
  induction tries generalizing number with
  | zero => omega
  | succ tries ih =>
      rw [freeArchive, present.entry?_concat (fits number reached)]
      by_cases taken : (disk.entries.get? (place ++ [archiveName stamp number])).isSome = true
      · have apart : number ≠ last := by
          rintro rfl
          rw [free] at taken
          cases taken
        have later : number + 1 ≤ last := by omega
        obtain ⟨found, after, before, same, isFree, first⟩ := ih later (by omega)
        refine ⟨found, by omega, before, ?_, isFree, ?_⟩
        · rw [if_pos taken, same]
        · intro tried least earlier
          by_cases here : tried = number
          · rw [here]
            exact taken
          · exact first tried (by omega) earlier
      · refine ⟨number, Nat.le_refl _, reached, if_neg taken, by simpa using taken, ?_⟩
        intro tried least earlier
        omega

/-! ## The disk that is archived -/

variable {layout : Layout} {names : List Text} {after : Disk}

/-- A workspace that is a folder, told from the top, with a folder of archives or room for one. -/
structure Archivable (layout : Layout) (names : List Text) (disk : Disk) : Prop where
  located : layout.workspace = ['/'] :: names
  noUp : Path.up ∉ names
  present : disk.FolderAt layout.workspace names
  fits : Disk.FitsIn layout.workspace archivesName
  free : disk.entries.get? (names ++ [archivesName]) = none ∨
    disk.entries.get? (names ++ [archivesName]) = some .folder

/-- Whether there is anything in a workspace outside its archives. -/
def HoldsWork (names : List Text) (disk : Disk) : Prop :=
  ∃ rest, IsWork rest ∧ (disk.entries.get? (names ++ rest)).isSome = true

/-- A workspace in which nothing stands but archives. -/
structure Bare (layout : Layout) (names : List Text) (disk : Disk) : Prop where
  present : disk.FolderAt layout.workspace names
  empty : ¬ HoldsWork names disk
  archives : disk.entries.get? (names ++ [archivesName]) = none ∨
    disk.entries.get? (names ++ [archivesName]) = some .folder

def withArchives (names : List Text) (disk : Disk) : Disk :=
  disk.put (names ++ [archivesName]) .folder

theorem get?_of_not_holdsWork (nothing : ¬ HoldsWork names disk) (work : IsWork rest) :
    disk.entries.get? (names ++ rest) = none := by
  by_contra isThere
  exact nothing ⟨rest, work, Option.isSome_iff_ne_none.mpr isThere⟩

theorem get?_withArchives_of_ne {other : List Text} (apart : other ≠ names ++ [archivesName]) :
    (withArchives names disk).entries.get? other = disk.entries.get? other := by
  rw [withArchives, Disk.get?_put, if_neg apart]

theorem get?_withArchives (names : List Text) (disk : Disk) :
    (withArchives names disk).entries.get? (names ++ [archivesName]) = some .folder := by
  rw [withArchives, Disk.get?_put, if_pos rfl]

theorem get?_withArchives_inside {more : List Text} (notSelf : more ≠ []) :
    (withArchives names disk).entries.get? (names ++ archivesName :: more) =
      disk.entries.get? (names ++ archivesName :: more) :=
  get?_withArchives_of_ne (by simpa using notSelf)

theorem IsWork.append_ne (work : IsWork rest) : names ++ rest ≠ names ++ [archivesName] :=
  fun same => work.2 (by rw [List.append_cancel_left same]; rfl)

/-- The folder of archives is not archived. -/
theorem archivedBelow_withArchives (names : List Text) (disk : Disk) :
    archivedBelow (withArchives names disk) names = archivedBelow disk names := by
  refine eq_of_sortedEntries ((Disk.below_pairwise _ names).filter _)
    ((Disk.below_pairwise _ names).filter _) ?_
  rintro ⟨rest, entry⟩
  rw [mem_archivedBelow_iff, mem_archivedBelow_iff]
  refine and_congr_right fun work => ?_
  rw [get?_withArchives_of_ne work.append_ne]

theorem archivedBelow_eq_nil_iff : archivedBelow disk names = [] ↔ ¬ HoldsWork names disk := by
  rw [List.eq_nil_iff_forall_not_mem]
  constructor
  · intro none holds
    obtain ⟨rest, work, isThere⟩ := holds
    obtain ⟨entry, stands⟩ := Option.isSome_iff_exists.mp isThere
    exact none _ (mem_archivedBelow_iff.mpr ⟨work, stands⟩)
  · rintro nothing ⟨rest, entry⟩ member
    obtain ⟨work, stands⟩ := mem_archivedBelow_iff.mp member
    cases (get?_of_not_holdsWork nothing work).symm.trans stands

theorem Archivable.folderAt_of_same (archivable : layout.Archivable names disk)
    (same : ∀ other, (∀ name more, other ≠ names ++ name :: more) →
      after.entries.get? other = disk.entries.get? other) :
    after.FolderAt layout.workspace names := by
  have present := archivable.present
  rw [archivable.located] at present ⊢
  refine present.of_above archivable.noUp fun above isAbove => Disk.entryAt?_congr (same above ?_)
  rintro name more rfl
  have longer := isAbove.length_le
  simp only [List.length_append, List.length_cons] at longer
  omega

/-! ## Runs -/

/-- Packing what stands below a place into an archive, once the folder of archives is there, and
taking it away. -/
def pack (layout : Layout) (stamp : Text) (disk : Disk) (place : List Text) :
    DiskAction ArchiveFault (Option Path) := do
  let entries := archivedBelow disk place
  if entries.isEmpty then
    if (disk.below (place ++ [archivesName])).isEmpty then
      set (disk.removeAt (place ++ [archivesName]))
    return none
  else
    let path := freeArchive disk layout.archives stamp (disk.entries.size + 1) 0
    let (members, fault?) := membersOf layout.workspace disk.now entries
    ExceptT.adapt .file (DiskAction.changeAt path (·.writeFile path (Archive.Zip.write members)))
    match fault? with
    | some fault => throw fault
    | none =>
      modify (clearBelow · place)
      return some path

theorem Archivable.archive_apply (archivable : layout.Archivable names disk) (stamp : Text) :
    layout.archive stamp disk =
      layout.pack stamp (withArchives names disk) names (withArchives names disk) := by
  have present := archivable.present
  have stands : disk.pathExists layout.workspace = .ok true :=
    Disk.pathExists_of_stands present.located present.stands
  have isFolder : disk.isFolder layout.workspace = .ok true := by
    rw [Disk.isFolder, Disk.look, present.located]
    simp [Except.map, present.stands]
  have asked : (ExceptT.adapt .file (DiskAction.pathExists layout.workspace) :
      DiskAction ArchiveFault Bool) disk = (.ok true, disk) :=
    DiskAction.adapt_eq_ok_iff.mpr (DiskAction.checkAt_eq_ok_iff.mpr ⟨stands, rfl⟩)
  have askedAgain : (ExceptT.adapt .file (DiskAction.isFolder layout.workspace) :
      DiskAction ArchiveFault Bool) disk = (.ok true, disk) :=
    DiskAction.adapt_eq_ok_iff.mpr (DiskAction.checkAt_eq_ok_iff.mpr ⟨isFolder, rfl⟩)
  have made : (ExceptT.adapt .file (DiskAction.makeFolders layout.archives) :
      DiskAction ArchiveFault Unit) disk = (.ok (), withArchives names disk) :=
    DiskAction.adapt_eq_ok_iff.mpr
      (DiskAction.makeFolders_concat present archivable.fits archivable.free)
  have located : (ExceptT.adapt .file
      (DiskAction.checkAt layout.workspace (·.place layout.workspace)) :
        DiskAction ArchiveFault (List Text)) (withArchives names disk) =
          (.ok names, withArchives names disk) :=
    DiskAction.adapt_eq_ok_iff.mpr
      (DiskAction.checkAt_eq_ok_iff.mpr ⟨(present.put archivable.free (by simp)).located, rfl⟩)
  unfold archive
  rw [DiskAction.bind_of_eq_ok asked]
  simp only [Bool.not_true, Bool.false_eq_true, ↓reduceIte]
  rw [DiskAction.bind_of_eq_ok askedAgain]
  simp only [Bool.not_true, Bool.false_eq_true, ↓reduceIte]
  rw [DiskAction.bind_of_eq_ok made, DiskAction.get_bind_apply, DiskAction.bind_of_eq_ok located]
  rfl

theorem get?_removeAt_archives
    (noArchives : (withArchives names disk).below (names ++ [archivesName]) = [])
    {other : List Text} (apart : other ≠ names ++ [archivesName]) :
    ((withArchives names disk).removeAt (names ++ [archivesName])).entries.get? other =
      disk.entries.get? other := by
  rw [Disk.get?_removeAt, get?_withArchives_of_ne apart]
  split
  · next inArchives =>
      obtain ⟨more, rfl⟩ := inArchives
      cases stands : disk.entries.get? (names ++ [archivesName] ++ more) with
      | none => rfl
      | some entry =>
          have notSelf : more ≠ [] := by
            rintro rfl
            exact apart (List.append_nil _)
          rw [← get?_withArchives_of_ne apart] at stands
          have isBelow := Disk.mem_below_iff.mpr ⟨notSelf, stands⟩
          rw [noArchives] at isBelow
          cases isBelow
  · rfl

/-- A workspace without anything to archive stays as it is, apart from its folder of archives. -/
theorem Archivable.archive_of_nothing (archivable : layout.Archivable names disk) (stamp : Text)
    (nothing : ¬ HoldsWork names disk) :
    ∃ after, layout.archive stamp disk = (.ok none, after) ∧ layout.Bare names after ∧
      after.now = disk.now ∧
      ∀ other ≠ names ++ [archivesName], after.entries.get? other = disk.entries.get? other := by
  have bare {after : Disk}
      (others : ∀ other ≠ names ++ [archivesName],
        after.entries.get? other = disk.entries.get? other)
      (archives : after.entries.get? (names ++ [archivesName]) = none ∨
        after.entries.get? (names ++ [archivesName]) = some .folder) : layout.Bare names after := by
    refine ⟨archivable.folderAt_of_same fun other apart => others other (apart _ _), ?_, archives⟩
    rintro ⟨rest, work, isThere⟩
    rw [others _ work.append_ne, get?_of_not_holdsWork nothing work] at isThere
    cases isThere
  have packed := archivable.archive_apply stamp
  simp only [pack, archivedBelow_withArchives, archivedBelow_eq_nil_iff.mpr nothing,
    List.isEmpty_nil, ↓reduceIte] at packed
  by_cases noArchives :
      ((withArchives names disk).below (names ++ [archivesName])).isEmpty = true
  · have others := fun other (apart : other ≠ names ++ [archivesName]) =>
      get?_removeAt_archives (List.isEmpty_iff.mp noArchives) apart
    refine ⟨_, ?_, bare others (.inl ?_), rfl, others⟩
    · rw [packed, if_pos noArchives]
      rfl
    · rw [Disk.get?_removeAt, if_pos (List.prefix_refl _)]
  · refine ⟨_, ?_, bare (fun other => get?_withArchives_of_ne) (.inr (get?_withArchives _ _)), rfl,
      fun other => get?_withArchives_of_ne⟩
    rw [packed, if_neg noArchives]
    rfl

/-- The archive that is written stands at the first number whose name is free. -/
theorem Archivable.exists_archive_path (archivable : layout.Archivable names disk)
    (room : ∀ number ≤ disk.entries.size, Disk.FitsIn layout.archives (archiveName stamp number)) :
    ∃ number ≤ disk.entries.size,
      freeArchive (withArchives names disk) layout.archives stamp
          ((withArchives names disk).entries.size + 1) 0 =
        layout.archives ++ [archiveName stamp number] ∧
      disk.entries.get? (names ++ [archivesName, archiveName stamp number]) = none ∧
      (∀ earlier < number,
        (disk.entries.get? (names ++ [archivesName, archiveName stamp earlier])).isSome) ∧
      ∀ contents,
        (ExceptT.adapt .file (DiskAction.changeAt (layout.archives ++ [archiveName stamp number])
            (·.writeFile (layout.archives ++ [archiveName stamp number]) contents)) :
          DiskAction ArchiveFault Unit) (withArchives names disk) =
          (.ok (), (withArchives names disk).put (names ++ [archivesName, archiveName stamp number])
            (.file contents disk.now)) := by
  have present : (withArchives names disk).FolderAt layout.archives (names ++ [archivesName]) :=
    archivable.present.concat archivable.fits archivable.free
  have inside (number : Nat) : (withArchives names disk).entries.get?
      (names ++ [archivesName] ++ [archiveName stamp number]) =
        disk.entries.get? (names ++ [archivesName, archiveName stamp number]) := by
    rw [List.append_assoc]
    exact get?_withArchives_inside (List.cons_ne_nil _ [])
  obtain ⟨last, least, freeLast⟩ := exists_free_number disk (names ++ [archivesName]) stamp
  rw [List.append_assoc] at freeLast
  have more : disk.entries.size ≤ (withArchives names disk).entries.size :=
    SortedMap.size_le_size_insert _ _ _
  have enough : last < 0 + ((withArchives names disk).entries.size + 1) := by omega
  obtain ⟨number, -, upTo, path, isFree, earlier⟩ := freeArchive_spec present
    (fun tried small => room tried (small.trans least)) ((inside last).trans freeLast)
    (Nat.zero_le last) enough
  refine ⟨number, upTo.trans least, path, (inside number).symm.trans isFree, ?_, ?_⟩
  · intro tried less
    rw [← inside]
    exact earlier tried (Nat.zero_le tried) less
  · intro contents
    have written := DiskAction.writeFile_concat present (room number (upTo.trans least)) isFree
      contents
    rw [List.append_assoc] at written
    exact DiskAction.adapt_eq_ok_iff.mpr written

/-- Members that unpack to every file and every folder in a workspace outside its archives, each
once. -/
structure Rebuilds (names : List Text) (disk : Disk) (members : List Archive.Zip.Member) :
    Prop where
  whole : ∀ rest contents?, (rest, contents?) ∈ members.map Archive.Zip.Member.unpack ↔
    IsWork rest ∧ (disk.entries.get? (names ++ rest)).map Entry.contents? = some contents?
  once : (members.map fun member => member.unpack.1).Nodup

/-- One archive with all that stood outside the archives is added to them, at the first number whose
name was free, and there are no more names to try than the disk has entries. What is read from the
archive rebuilds what stood there. -/
structure Archived (stamp : Text) (names : List Text) (before after : Disk) (number : Nat)
    (contents : Bytes) : Prop where
  early : number ≤ before.entries.size
  free : before.entries.get? (names ++ [archivesName, archiveName stamp number]) = none
  first : ∀ earlier < number,
    (before.entries.get? (names ++ [archivesName, archiveName stamp earlier])).isSome
  archives : ∀ more ≠ [], after.entries.get? (names ++ archivesName :: more) =
    if more = [archiveName stamp number] then some (.file contents before.now)
    else before.entries.get? (names ++ archivesName :: more)
  rebuilds : ∃ members, Archive.Zip.read? contents = some members ∧ Rebuilds names before members

theorem Archived.of_same {before later : Disk} {number : Nat} {contents : Bytes}
    (archived : Archived stamp names before disk number contents)
    (same : ∀ more ≠ [], later.entries.get? (names ++ archivesName :: more) =
      disk.entries.get? (names ++ archivesName :: more)) :
    Archived stamp names before later number contents where
  early := archived.early
  free := archived.free
  first := archived.first
  archives := fun more notSelf => (same more notSelf).trans (archived.archives more notSelf)
  rebuilds := archived.rebuilds

/-- An archive can tell everything that stands in a workspace outside the archives: no path is too
long to be looked at, and nothing was changed before 1980 or after 2107. -/
def IsTold (workspace : Path) (names : List Text) (disk : Disk) : Prop :=
  ∀ rest entry, IsWork rest → disk.entries.get? (names ++ rest) = some entry →
    Disk.isTooLong (workspace ++ rest).toText Disk.longestPath = false ∧
      Archive.Timestamp.CanTell (moment disk.now entry)

theorem isTold_iff_forall_mem :
    IsTold workspace names disk ↔
      ∀ item ∈ archivedBelow disk names,
        Disk.isTooLong (workspace ++ item.1).toText Disk.longestPath = false ∧
          Archive.Timestamp.CanTell (moment disk.now item.2) := by
  constructor
  · rintro told ⟨rest, entry⟩ inside
    obtain ⟨work, stands⟩ := mem_archivedBelow_iff.mp inside
    exact told rest entry work stands
  · intro all rest entry work stands
    exact all (rest, entry) (mem_archivedBelow_iff.mpr ⟨work, stands⟩)

instance (workspace : Path) (names : List Text) (disk : Disk) :
    Decidable (IsTold workspace names disk) :=
  decidable_of_iff _ isTold_iff_forall_mem.symm

/-- All that would be archived of a workspace, as an archive. -/
def packed (workspace : Path) (names : List Text) (disk : Disk) : Bytes :=
  Archive.Zip.write (membersOf workspace disk.now (archivedBelow disk names)).1

theorem IsTold.exists_rebuilds (told : IsTold workspace names disk) (tree : disk.IsTree) :
    ∃ members, membersOf workspace disk.now (archivedBelow disk names) = (members, none) ∧
      Rebuilds names disk members := by
  have named : ∀ item ∈ archivedBelow disk names,
      item.1 ≠ [] ∧ ∀ part ∈ item.1, Path.IsPart part := by
    intro item inside
    obtain ⟨work, stands⟩ := mem_archivedBelow_iff.mp inside
    refine ⟨work.1, fun part isPart => ?_⟩
    exact (tree.names _ _ stands part (List.mem_append_right _ isPart)).toIsPart
  have toldAll : ∀ item ∈ archivedBelow disk names,
      ∃ packed, member workspace disk.now item.1 item.2 = .ok packed := fun item inside =>
    exists_member_iff.mpr (isTold_iff_forall_mem.mp told item inside)
  obtain ⟨members, packed, unpacked⟩ := exists_membersOf named toldAll
  refine ⟨members, packed, ?_, ?_⟩
  · intro rest contents?
    rw [unpacked, List.mem_map]
    constructor
    · intro found
      obtain ⟨⟨other, entry⟩, inside, same⟩ := found
      cases same
      obtain ⟨work, stands⟩ := mem_archivedBelow_iff.mp inside
      exact ⟨work, by rw [stands]; rfl⟩
    · intro found
      obtain ⟨work, contents⟩ := found
      obtain ⟨entry, stands, rfl⟩ := Option.map_eq_some_iff.mp contents
      exact ⟨(rest, entry), mem_archivedBelow_iff.mpr ⟨work, stands⟩, rfl⟩
  · have places : (members.map fun member => member.unpack.1) =
        (archivedBelow disk names).map Prod.fst := by
      have first := congrArg (List.map Prod.fst) unpacked
      rwa [List.map_map, List.map_map] at first
    rw [places, List.Nodup, List.pairwise_map]
    refine List.Pairwise.imp ?_ ((Disk.below_pairwise _ names).filter _)
    exact fun ordered => OrderedKey.ne_of_before ordered

/-- An archive with all that stands in a workspace is read back. -/
theorem IsTold.exists_read (told : IsTold workspace names disk) (tree : disk.IsTree)
    (located : workspace = ['/'] :: names)
    (small : (packed workspace names disk).length < 2 ^ 64) :
    ∃ members, membersOf workspace disk.now (archivedBelow disk names) = (members, none) ∧
      Archive.Zip.read? (Archive.Zip.write members) = some members ∧
      Rebuilds names disk members := by
  obtain ⟨members, whole, rebuilds⟩ := told.exists_rebuilds tree
  rw [packed, whole] at small
  refine ⟨members, whole, Archive.Zip.read?_write ?_ small, rebuilds⟩
  intro packed inside
  rw [show members = (membersOf workspace disk.now (archivedBelow disk names)).1 by rw [whole]]
    at inside
  obtain ⟨item, isItem, toldItem⟩ := exists_item_of_mem_membersOf inside
  exact length_encode_name_lt located (mem_archivedBelow_iff.mp isItem).1.1 toldItem

/-- A workspace with something to archive receives an archive with as much of it as can be told.
Only if that is all, it is taken away. -/
theorem Archivable.archive_of_holdsWork (archivable : layout.Archivable names disk)
    (room : ∀ number ≤ disk.entries.size, Disk.FitsIn layout.archives (archiveName stamp number))
    (holds : HoldsWork names disk) :
    ∃ number ≤ disk.entries.size,
      disk.entries.get? (names ++ [archivesName, archiveName stamp number]) = none ∧
      (∀ earlier < number,
        (disk.entries.get? (names ++ [archivesName, archiveName stamp earlier])).isSome) ∧
      layout.archive stamp disk =
        let (members, fault?) :=
          membersOf layout.workspace disk.now (archivedBelow disk names)
        let written := (withArchives names disk).put
          (names ++ [archivesName, archiveName stamp number])
          (.file (Archive.Zip.write members) disk.now)
        match fault? with
        | some fault => (.error fault, written)
        | none => (.ok (some (layout.archives ++ [archiveName stamp number])),
            clearBelow written names) := by
  obtain ⟨number, early, path, free, first, writes⟩ := archivable.exists_archive_path room
  refine ⟨number, early, free, first, ?_⟩
  have notEmpty : ¬ (archivedBelow disk names).isEmpty = true := by
    rw [List.isEmpty_iff, archivedBelow_eq_nil_iff]
    exact not_not_intro holds
  have sameNow : (withArchives names disk).now = disk.now := rfl
  have ran := archivable.archive_apply stamp
  simp only [pack, archivedBelow_withArchives, if_neg notEmpty, path, sameNow] at ran
  cases told : membersOf layout.workspace disk.now (archivedBelow disk names) with
  | mk members fault? =>
      simp only [told] at ran
      rw [DiskAction.bind_of_eq_ok (writes (Archive.Zip.write members))] at ran
      cases fault? with
      | some fault => exact ran
      | none =>
          dsimp only at ran
          rw [DiskAction.modify_bind_apply] at ran
          exact ran

/-- A workspace with something to archive receives one archive with all of it, and nothing but
archives is left. -/
theorem Archivable.archive_of_work (archivable : layout.Archivable names disk)
    (room : ∀ number ≤ disk.entries.size, Disk.FitsIn layout.archives (archiveName stamp number))
    (small : (packed layout.workspace names disk).length < 2 ^ 64) (tree : disk.IsTree)
    (told : IsTold layout.workspace names disk) (holds : HoldsWork names disk) :
    ∃ number contents after,
      layout.archive stamp disk =
        (.ok (some (layout.archives ++ [archiveName stamp number])), after) ∧
      layout.Bare names after ∧ after.now = disk.now ∧
      Archived stamp names disk after number contents ∧
      ∀ other, (∀ name more, other ≠ names ++ name :: more) →
        after.entries.get? other = disk.entries.get? other := by
  obtain ⟨members, whole, read, rebuilds⟩ := told.exists_read tree archivable.located small
  obtain ⟨number, early, free, first, ran⟩ := archivable.archive_of_holdsWork room holds
  rw [whole] at ran
  have others : ∀ other, (∀ name more, other ≠ names ++ name :: more) →
      (clearBelow ((withArchives names disk).put
        (names ++ [archivesName, archiveName stamp number])
          (.file (Archive.Zip.write members) disk.now)) names).entries.get? other =
            disk.entries.get? other := by
    intro other apart
    rw [get?_clearBelow_of_not_below apart, Disk.get?_put, if_neg (apart _ _),
      get?_withArchives_of_ne (apart _ _)]
  refine ⟨number, _, _, ran, ⟨archivable.folderAt_of_same others, ?_, .inr ?_⟩, rfl,
    ⟨early, free, first, ?_, members, read, rebuilds⟩, others⟩
  · rintro ⟨rest, work, isThere⟩
    rw [get?_clearBelow_of_isWork _ _ work] at isThere
    cases isThere
  · rw [get?_clearBelow_archives, Disk.get?_put, if_neg (by simp), get?_withArchives]
  · intro more notSelf
    rw [get?_clearBelow_archives, Disk.get?_put, get?_withArchives_inside notSelf]
    by_cases isNew : more = [archiveName stamp number]
    · rw [if_pos (by rw [isNew]), if_pos isNew]
    · rw [if_neg (by simpa using isNew), if_neg isNew]

theorem exists_fault_of_not_isTold (untold : ¬ IsTold workspace names disk) :
    ∃ item ∈ archivedBelow disk names, ∃ fault,
      member workspace disk.now item.1 item.2 = .error fault := by
  by_contra none
  apply untold
  rw [isTold_iff_forall_mem]
  intro item inside
  rw [← exists_member_iff]
  cases packed : member workspace disk.now item.1 item.2 with
  | ok found => exact ⟨found, rfl⟩
  | error fault => exact absurd ⟨item, inside, fault, packed⟩ none

/-- A workspace with something that cannot be told keeps all of it. -/
theorem Archivable.archive_refused (archivable : layout.Archivable names disk)
    (room : ∀ number ≤ disk.entries.size, Disk.FitsIn layout.archives (archiveName stamp number))
    (untold : ¬ IsTold layout.workspace names disk) :
    ∃ number fault after,
      layout.archive stamp disk = (.error fault, after) ∧
      disk.entries.get? (names ++ [archivesName, archiveName stamp number]) = none ∧
      ∀ other ≠ names ++ [archivesName],
        other ≠ names ++ [archivesName, archiveName stamp number] →
          after.entries.get? other = disk.entries.get? other := by
  obtain ⟨item, isItem, fault, refused⟩ := exists_fault_of_not_isTold untold
  obtain ⟨members, found, whole⟩ := exists_fault_membersOf ⟨item, isItem, fault, refused⟩
  have holds : HoldsWork names disk := by
    by_contra nothing
    rw [archivedBelow_eq_nil_iff.mpr nothing] at isItem
    cases isItem
  obtain ⟨number, -, free, -, ran⟩ := archivable.archive_of_holdsWork room holds
  rw [whole] at ran
  refine ⟨number, found, _, ran, free, ?_⟩
  intro other notFolder notArchive
  rw [Disk.get?_put, if_neg notArchive, get?_withArchives_of_ne notFolder]

end Layout

end DocComponents
