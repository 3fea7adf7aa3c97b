import DocComponents.Proofs.Catalog.Refresh
import Mathlib.Data.List.Chain

/-!
# Following files and starting again

A catalog that follows the files of a folder by refreshes knows the same files as one that is filled
from the folder anew, and registers the same names. It can give a name to another file: a refresh
registers what it reloads, in place of what was registered before, whereas a new catalog gives every
name to the last file that claims it.
-/

set_option autoImplicit false

namespace DocComponents.Catalog

/-- The files that can be loaded from a folder: none, when there is no such folder. -/
def listed (disk : Disk) (folder : Path) : List Path :=
  match disk.isFolder folder with
  | .ok true => scan disk folder
  | _ => []

/-- The text and the time of a file that can be loaded from a folder. -/
def seen? (disk : Disk) (folder path : Path) : Option (Text × Int) :=
  if path ∈ listed disk folder then disk.reading? path else none

/-- Every file of a folder can be read. -/
def IsReadable (folder : Path) (disk : Disk) : Prop :=
  ∀ path ∈ listed disk folder, (disk.reading? path).isSome = true

/-- A file that was changed from one moment to the next shows it by its time. -/
def ShowsChanges (folder : Path) (earlier later : Disk) : Prop :=
  ∀ path ∈ listed earlier folder,
    (seen? earlier folder path).map Prod.snd = (seen? later folder path).map Prod.snd →
      seen? earlier folder path = seen? later folder path

instance (folder : Path) : DecidablePred (IsReadable folder) := fun disk =>
  inferInstanceAs (Decidable (∀ path ∈ listed disk folder, (disk.reading? path).isSome = true))

instance (folder : Path) : DecidableRel (ShowsChanges folder) := fun earlier later =>
  inferInstanceAs (Decidable (∀ path ∈ listed earlier folder,
    (seen? earlier folder path).map Prod.snd = (seen? later folder path).map Prod.snd →
      seen? earlier folder path = seen? later folder path))

/-- A catalog of a folder that holds what was seen of the files, and no other definitions. -/
structure Knows (catalog : Catalog) (folder : Path) (seen : Path → Option (Text × Int)) : Prop where
  inOrder : InOrder (fun _ => False) catalog
  located : Located catalog
  root : catalog.root = some folder
  times : ∀ path, catalog.times.get? path = (seen path).map Prod.snd
  files : ∀ path, catalog.files.get? path =
    (seen path).bind fun found => Definition.read? found.1 path.toText

variable {catalog : Catalog} {disk : Disk} {folder : Path}
  {seen : Path → Option (Text × Int)}

theorem Knows.sourced (knows : catalog.Knows folder seen) : Sourced catalog :=
  (knows.inOrder.mono fun _ impossible => impossible.elim).sourced knows.located

/-- A definition that stays is that of a file which a refresh does not touch. -/
theorem Knows.exists_untouched (knows : catalog.Knows folder seen) {name : Text}
    {definition : Definition} (current : catalog.get? name = some definition)
    (stays : catalog.stays disk folder definition = true) :
    ∃ path, catalog.files.get? path = some definition ∧
      catalog.isGone disk folder path = false ∧
      catalog.reloaded? disk folder path = none := by
  rcases stays_eq_true_iff.mp stays with memory | untouched
  · rcases knows.inOrder.origin name definition current with impossible | ⟨path, given⟩
    · exact impossible.elim
    · have source := knows.sourced.source path definition given
      have written := knows.sourced.written path definition given
      exact absurd (source.symm.trans memory) written.toText_ne_nil
  · exact untouched

theorem knows_empty (written : folder.IsWritten) :
    Knows { root := some folder } folder fun _ => none where
  inOrder := inOrder_empty _
  located := located_empty fun _ same => Option.some.inj same ▸ written
  root := rfl
  times _ := rfl
  files _ := rfl

private theorem Knows.refresh_present (knows : catalog.Knows folder seen) (named : disk.WellNamed)
    (readable : IsReadable folder disk) (isFolder : disk.isFolder folder = .ok true)
    (shows : ∀ path, (seen path).map Prod.snd = (seen? disk folder path).map Prod.snd →
      seen path = seen? disk folder path) :
    (∀ path, (catalog.refresh disk).catalog.times.get? path =
        (seen? disk folder path).map Prod.snd) ∧
      ∀ path, (catalog.refresh disk).catalog.files.get? path =
        (seen? disk folder path).bind fun found => Definition.read? found.1 path.toText := by
  have found := folder?_eq_some_iff.mpr ⟨knows.root, isFolder⟩
  have all : listed disk folder = scan disk folder := by
    simp [listed, isFolder]
  have both : ∀ path, catalog.refreshedTime? disk folder path =
        (seen? disk folder path).map Prod.snd ∧
      catalog.refreshedFile? disk folder path =
        (seen? disk folder path).bind fun found => Definition.read? found.1 path.toText := by
    intro path
    by_cases scanned : path ∈ scan disk folder
    · obtain ⟨reading, read⟩ := Option.isSome_iff_exists.mp (readable path (all ▸ scanned))
      have present : seen? disk folder path = some reading := by
        rw [seen?, all, if_pos scanned, read]
      have notGone : catalog.isGone disk folder path = false := by simp [isGone, scanned]
      by_cases noted : catalog.times.get? path = some reading.2
      · have kept : catalog.reloaded? disk folder path = none := by
          simp [reloaded?, scanned, read, noted]
        -- The time has not moved, so the text is the one that was seen.
        have same : seen path = some reading := by
          rw [← present]
          exact shows path (by rw [← knows.times, noted, present]; rfl)
        simp [refreshedTime?, refreshedFile?, notGone, kept, knows.times, knows.files, same,
          present]
      · have reloaded := reloaded?_eq_some_iff.mpr ⟨scanned, read, noted⟩
        simp [refreshedTime?, refreshedFile?, notGone, reloaded, present]
    · have absent : seen? disk folder path = none := by
        rw [seen?, all, if_neg scanned]
      have kept : catalog.reloaded? disk folder path = none := by simp [reloaded?, scanned]
      cases noted : seen path with
      | none =>
          simp [refreshedTime?, refreshedFile?, isGone, kept, knows.times, knows.files, noted,
            absent, SortedMap.contains]
      | some reading =>
          have isGone : catalog.isGone disk folder path = true := by
            simp [Catalog.isGone, SortedMap.contains, knows.times, noted, scanned]
          simp [refreshedTime?, refreshedFile?, isGone, absent]
  constructor
  · intro path
    rw [times_refresh found, (both path).1]
  · intro path
    rw [files_refresh knows.located named found, (both path).2]

/-- A refresh brings a catalog up to what is seen of the files. -/
theorem Knows.refresh (knows : catalog.Knows folder seen) (named : disk.WellNamed)
    (readable : IsReadable folder disk) (stands : ∃ answer, disk.isFolder folder = .ok answer)
    (shows : ∀ path, (seen path).map Prod.snd = (seen? disk folder path).map Prod.snd →
      seen path = seen? disk folder path) :
    Knows (catalog.refresh disk).catalog folder (seen? disk folder) := by
  have inOrder := knows.inOrder.refresh disk
  have located := knows.located.refresh named
  have root := (root_refresh catalog disk).trans knows.root
  obtain ⟨answer, isFolder⟩ := stands
  cases answer with
  | true =>
      obtain ⟨times, files⟩ := knows.refresh_present named readable isFolder shows
      exact ⟨inOrder, located, root, times, files⟩
  | false =>
      have missing : catalog.folder? disk = .ok none := by
        simp [folder?, knows.root, isFolder, Except.map]
      have nothing : ∀ path, seen? disk folder path = none := by
        simp [seen?, listed, isFolder]
      have noTimes : ∀ path, (catalog.refresh disk).catalog.times.get? path = none := by
        intro path
        have removed : (catalog.refresh disk).catalog =
            (removePaths catalog.times.keys catalog).catalog := by
          unfold Catalog.refresh
          rw [missing]
        rw [removed, times_removePaths]
        split
        · rfl
        · next unknown => exact SortedMap.get?_eq_none_of_not_mem unknown
      refine ⟨inOrder, located, root, fun path => by rw [noTimes, nothing]; rfl, ?_⟩
      intro path
      rw [nothing]
      cases given : (catalog.refresh disk).catalog.files.get? path with
      | none => rfl
      | some definition =>
          obtain ⟨time, noted⟩ := inOrder.timed path definition given
          cases (noTimes path).symm.trans noted

/-- Filling a catalog from a folder that can be read is a refresh of the empty catalog. -/
theorem loadDirectory_eq_refresh (catalog : Catalog) (readable : IsReadable folder disk) :
    (catalog.loadDirectory disk (some folder)).catalog =
      (({ root := some folder } : Catalog).refresh disk).catalog := by
  have emptied : ({ catalog with root := (some folder).or catalog.root } : Catalog).clear =
      { root := some folder } := rfl
  unfold loadDirectory refresh
  rw [emptied]
  dsimp only
  cases found : ({ root := some folder } : Catalog).folder? disk with
  | error fault => rfl
  | ok folder? =>
      cases folder? with
      | none => rfl
      | some other =>
          obtain ⟨same, isFolder⟩ := folder?_eq_some_iff.mp found
          have same : folder = other := Option.some.inj same
          subst same
          have allChanged : ({ root := some folder } : Catalog).changed disk (scan disk folder) =
              scan disk folder := by
            refine List.filter_eq_self.mpr ?_
            intro path scanned
            have listed : path ∈ listed disk folder := by simpa [listed, isFolder] using scanned
            obtain ⟨reading, read⟩ := Option.isSome_iff_exists.mp (readable path listed)
            simp [Disk.changeTime?_of_reading? read]
          dsimp only
          rw [allChanged]
          rfl

/-- The definition that refreshes, one after the other, load last for a name. -/
def loadedLast? (folder : Path) (name : Text) : (moments : List Disk) → Catalog → Option Definition
  | [], _ => none
  | disk :: later, catalog =>
    let next := (catalog.refresh disk).catalog
    (loadedLast? folder name later next).or
      (lastClaim? (catalog.reloadedFiles disk folder next.files) name)

def IsGiven (files : SortedMap Path Definition) (definition : Definition) : Prop :=
  ∃ path, files.get? path = some definition

/-- A name that belongs to the definition taken for it, as long as a file gives that definition, and
to the last file that claims it otherwise. -/
structure Holds (catalog : Catalog) (taken? : Option Definition) (name : Text) : Prop where
  named : ∀ definition, taken? = some definition → definition.name = name
  taken : ∀ definition, taken? = some definition → IsGiven catalog.files definition →
    catalog.get? name = some definition
  free : (∀ definition, taken? = some definition → ¬ IsGiven catalog.files definition) →
    catalog.get? name = lastClaim? catalog.files name

theorem Holds.eq_none_iff {taken? : Option Definition} {name : Text}
    (holds : Holds catalog taken? name) :
    catalog.get? name = none ↔ lastClaim? catalog.files name = none := by
  by_cases given : ∃ definition, taken? = some definition ∧ IsGiven catalog.files definition
  · obtain ⟨definition, taken, path, found⟩ := given
    have claims : Claims catalog.files name path definition := ⟨found, holds.named _ taken⟩
    rw [holds.taken definition taken ⟨path, found⟩, lastClaim?_eq_none_iff]
    constructor
    · intro impossible
      cases impossible
    · intro noClaims
      exact absurd claims (noClaims path definition)
  · rw [holds.free fun definition taken isGiven => given ⟨definition, taken, isGiven⟩]

/-- A name belongs to the last file that claims it, unless it was taken for a file that another one
comes behind. -/
theorem Holds.eq_lastClaim?_iff {taken? : Option Definition} {name : Text}
    (holds : Holds catalog taken? name) (sourced : Sourced catalog) :
    catalog.get? name = lastClaim? catalog.files name ↔
      ∀ definition path other claim, taken? = some definition →
        catalog.files.get? path = some definition → Claims catalog.files name other claim →
          before path other = false := by
  constructor
  · intro same definition path other claim taken given claims
    obtain ⟨last, isLast⟩ :=
      exists_isLastClaim (same.symm.trans (holds.taken definition taken ⟨path, given⟩))
    have here : last = path := sourced.path_eq (sourced.written path _ given)
      (sourced.source path definition given) isLast.claims.1
    subst here
    exact isLast.not_before claims
  · intro noneBehind
    by_cases given : ∃ definition, taken? = some definition ∧ IsGiven catalog.files definition
    · obtain ⟨definition, taken, path, found⟩ := given
      rw [holds.taken definition taken ⟨path, found⟩]
      refine Eq.symm (IsLastClaim.lastClaim? ⟨⟨found, holds.named _ taken⟩, ?_⟩)
      intro other claim claims
      have notBehind := noneBehind definition path other claim taken found claims
      cases first : before other path with
      | true => exact .inr rfl
      | false => exact .inl (OrderedKey.eq_of_not_before _ _ first notBehind)
    · exact holds.free fun definition taken isGiven => given ⟨definition, taken, isGiven⟩

theorem holds_empty (root : Option Path) (name : Text) : Holds { root } none name where
  named := by simp
  taken := by simp
  free _ := rfl

/-- A file that still claims a name after a refresh that loads no claim of it was not touched. -/
private theorem untouched_of_claims (located : Located catalog) (named : disk.WellNamed)
    (found : catalog.folder? disk = .ok (some folder)) {name : Text}
    (noneLoaded : lastClaim?
      (catalog.reloadedFiles disk folder (catalog.refresh disk).catalog.files) name = none)
    {path : Path} {definition : Definition}
    (claims : Claims (catalog.refresh disk).catalog.files name path definition) :
    Claims catalog.files name path definition ∧ catalog.isGone disk folder path = false ∧
      catalog.reloaded? disk folder path = none := by
  have notReloaded : catalog.reloaded? disk folder path = none := by
    cases reloaded : catalog.reloaded? disk folder path with
    | none => rfl
    | some reading =>
        refine absurd ⟨?_, claims.2⟩ ((lastClaim?_eq_none_iff _ _).mp noneLoaded path definition)
        exact (SortedMap.get?_filter_eq_some_iff _ _ _ _).mpr ⟨claims.1, by rw [reloaded]; rfl⟩
  have given := (files_refresh located named found path).symm.trans claims.1
  unfold refreshedFile? at given
  split at given
  · cases given
  · next stands =>
      rw [notReloaded] at given
      exact ⟨⟨given, claims.2⟩, by simpa using stands, notReloaded⟩

private theorem Holds.refresh_of_loaded {name : Text} {taken? : Option Definition}
    (knows : catalog.Knows folder seen) (named : disk.WellNamed)
    (found : catalog.folder? disk = .ok (some folder)) {definition : Definition}
    (loaded : lastClaim?
      (catalog.reloadedFiles disk folder (catalog.refresh disk).catalog.files) name =
        some definition) :
    Holds (catalog.refresh disk).catalog ((some definition).or taken?) name := by
  have current : (catalog.refresh disk).catalog.get? name = some definition := by
    rw [get?_refresh knows.sourced knows.located named found, refreshed?, loaded]
    rfl
  refine ⟨?_, ?_, ?_⟩
  · intro other same
    cases same
    exact name_of_lastClaim? loaded
  · intro other same _
    cases same
    exact current
  · intro notGiven
    obtain ⟨path, isLast⟩ := exists_isLastClaim loaded
    have given := ((SortedMap.get?_filter_eq_some_iff _ _ _ _).mp isLast.claims.1).1
    exact absurd ⟨path, given⟩ (notGiven definition rfl)

private theorem Holds.refresh_of_not_loaded {name : Text} {taken? : Option Definition}
    (holds : Holds catalog taken? name) (knows : catalog.Knows folder seen)
    (named : disk.WellNamed) (found : catalog.folder? disk = .ok (some folder))
    (noneLoaded : lastClaim?
      (catalog.reloadedFiles disk folder (catalog.refresh disk).catalog.files) name = none) :
    Holds (catalog.refresh disk).catalog taken? name := by
  have current : (catalog.refresh disk).catalog.get? name =
      ((catalog.get? name).filter (catalog.stays disk folder)).or
        (lastClaim? (catalog.refresh disk).catalog.files name) := by
    rw [get?_refresh knows.sourced knows.located named found, refreshed?, noneLoaded]
    rfl
  refine ⟨holds.named, ?_, ?_⟩
  · intro definition taken isGiven
    obtain ⟨path, given⟩ := isGiven
    obtain ⟨claims, stands, notReloaded⟩ := untouched_of_claims knows.located named found
      noneLoaded ⟨given, holds.named definition taken⟩
    have before := holds.taken definition taken ⟨path, claims.1⟩
    have stays := stays_eq_true_iff.mpr (.inr ⟨path, claims.1, stands, notReloaded⟩)
    rw [current, before, Option.filter_some, if_pos stays]
    rfl
  · intro notGiven
    rw [current]
    cases kept : (catalog.get? name).filter (catalog.stays disk folder) with
    | none => rfl
    | some definition =>
        obtain ⟨before, stays⟩ := Option.filter_eq_some_iff.mp kept
        obtain ⟨path, given, stands, notReloaded⟩ := knows.exists_untouched before stays
        have same := files_refresh_of_untouched knows.located named found stands notReloaded
        -- The name was not taken before either, or its definition would have gone.
        have wasFree : ∀ other, taken? = some other → ¬ IsGiven catalog.files other := by
          intro other taken wasGiven
          have isOther := holds.taken other taken wasGiven
          have equal : definition = other := Option.some.inj (before.symm.trans isOther)
          exact notGiven other taken ⟨path, same.trans (equal ▸ given)⟩
        obtain ⟨last, isLast⟩ := exists_isLastClaim ((holds.free wasFree).symm.trans before)
        have here : last = path := knows.sourced.path_eq (knows.sourced.written path _ given)
          (knows.sourced.source path definition given) isLast.claims.1
        subst here
        refine Eq.symm (lastClaim?_of_subset isLast ⟨same.trans given, isLast.claims.2⟩ ?_)
        intro other claim claims
        exact (untouched_of_claims knows.located named found noneLoaded claims).1

/-- What a refresh loads for a name takes it; else the name stays where it belongs. -/
theorem Holds.refresh {name : Text} {taken? : Option Definition}
    (holds : Holds catalog taken? name) (knows : catalog.Knows folder seen)
    (after : Knows (catalog.refresh disk).catalog folder (seen? disk folder))
    (named : disk.WellNamed) (stands : ∃ answer, disk.isFolder folder = .ok answer) :
    Holds (catalog.refresh disk).catalog
      ((lastClaim? (catalog.reloadedFiles disk folder (catalog.refresh disk).catalog.files)
        name).or taken?) name := by
  obtain ⟨answer, isFolder⟩ := stands
  cases answer with
  | true =>
      have found := folder?_eq_some_iff.mpr ⟨knows.root, isFolder⟩
      cases loaded : lastClaim?
          (catalog.reloadedFiles disk folder (catalog.refresh disk).catalog.files) name with
      | some definition => exact Holds.refresh_of_loaded knows named found loaded
      | none => exact holds.refresh_of_not_loaded knows named found loaded
  | false =>
      have noFiles : ∀ path, (catalog.refresh disk).catalog.files.get? path = none := by
        intro path
        rw [after.files, seen?, listed, isFolder, if_neg List.not_mem_nil]
        rfl
      have empty : (catalog.refresh disk).catalog.files = .empty :=
        SortedMap.eq_of_get?_eq noFiles
      refine ⟨?_, ?_, ?_⟩
      · intro definition taken
        rw [empty] at taken
        exact holds.named definition taken
      · intro definition _ isGiven
        obtain ⟨path, given⟩ := isGiven
        cases (noFiles path).symm.trans given
      · intro _
        rw [empty]
        cases current : (catalog.refresh disk).catalog.get? name with
        | none => rfl
        | some definition =>
            rcases after.inOrder.origin name definition current with impossible | ⟨path, given⟩
            · exact impossible.elim
            · cases (noFiles path).symm.trans given

theorem ShowsChanges.eq_of_same_time {earlier later : Disk}
    (shows : ShowsChanges folder earlier later) (path : Path)
    (sameTime : (seen? earlier folder path).map Prod.snd =
      (seen? later folder path).map Prod.snd) :
    seen? earlier folder path = seen? later folder path := by
  by_cases inFolder : path ∈ listed earlier folder
  · exact shows path inFolder sameTime
  · have absent : seen? earlier folder path = none := by rw [seen?, if_neg inFolder]
    rw [absent] at sameTime ⊢
    exact (Option.map_eq_none_iff.mp sameTime.symm).symm

/-- Refreshes of a catalog, one at each moment. -/
def reloads (moments : List Disk) : History :=
  moments.map fun disk => (disk, .refresh)

/-- Refreshes keep a catalog up to what is seen of the files, and every name where it belongs. -/
theorem Knows.reloads {moments : List Disk} (knows : catalog.Knows folder (seen? disk folder))
    (stands : ∀ moment : Disk, ∃ answer, moment.isFolder folder = .ok answer)
    (named : ∀ moment ∈ moments, moment.WellNamed)
    (readable : ∀ moment ∈ moments, IsReadable folder moment)
    (shows : (disk :: moments).IsChain (ShowsChanges folder)) :
    Knows ((reloads moments).run catalog) folder (seen? (moments.getLastD disk) folder) ∧
      ∀ name taken?, Holds catalog taken? name →
        Holds ((reloads moments).run catalog)
          ((loadedLast? folder name moments catalog).or taken?) name := by
  induction moments generalizing catalog disk with
  | nil => exact ⟨knows, fun _ _ holds => holds⟩
  | cons moment later ih =>
      obtain ⟨shown, showsLater⟩ := List.isChain_cons_cons.mp shows
      have momentNamed := named moment List.mem_cons_self
      have after := knows.refresh momentNamed (readable moment List.mem_cons_self)
        (stands moment) shown.eq_of_same_time
      have namedLater : ∀ other ∈ later, other.WellNamed := fun other member =>
        named other (List.mem_cons_of_mem _ member)
      have readableLater : ∀ other ∈ later, IsReadable folder other := fun other member =>
        readable other (List.mem_cons_of_mem _ member)
      obtain ⟨knowsLast, holdsLast⟩ := ih after namedLater readableLater showsLater
      refine ⟨?_, ?_⟩
      · rw [List.getLastD_cons]
        exact knowsLast
      · intro name taken? holds
        rw [loadedLast?, Option.or_assoc]
        exact holdsLast name _ (holds.refresh knows after momentNamed (stands moment))

theorem knows_loadDirectory (catalog : Catalog) (written : folder.IsWritten)
    (named : disk.WellNamed) (readable : IsReadable folder disk)
    (stands : ∃ answer, disk.isFolder folder = .ok answer) :
    Knows (catalog.loadDirectory disk (some folder)).catalog folder (seen? disk folder) := by
  rw [loadDirectory_eq_refresh catalog readable]
  refine (knows_empty written).refresh named readable stands ?_
  intro path sameTime
  exact (Option.map_eq_none_iff.mp sameTime.symm).symm

theorem mem_scan_of_mem_listed {path : Path} (inFolder : path ∈ listed disk folder) :
    path ∈ scan disk folder := by
  unfold listed at inFolder
  split at inFolder
  · exact inFolder
  · cases inFolder

/-- A catalog that is filled from a folder gives every name to the last file that claims it. -/
theorem get?_loadDirectory (catalog : Catalog) (written : folder.IsWritten)
    (named : disk.WellNamed) (readable : IsReadable folder disk)
    (stands : ∃ answer, disk.isFolder folder = .ok answer) (name : Text) :
    (catalog.loadDirectory disk (some folder)).catalog.get? name =
      lastClaim? (catalog.loadDirectory disk (some folder)).catalog.files name := by
  have after := knows_loadDirectory catalog written named readable stands
  rw [loadDirectory_eq_refresh catalog readable] at after ⊢
  have holds := (holds_empty (some folder) name).refresh (knows_empty written) after named stands
  have allLoaded : ({ root := some folder } : Catalog).reloadedFiles disk folder
      (({ root := some folder } : Catalog).refresh disk).catalog.files =
        (({ root := some folder } : Catalog).refresh disk).catalog.files := by
    refine SortedMap.filter_eq_self fun path definition given => ?_
    rw [after.files, Option.bind_eq_some_iff] at given
    obtain ⟨reading, seen, -⟩ := given
    obtain ⟨inFolder, read⟩ := Option.ite_none_right_eq_some.mp seen
    have reloaded : ({ root := some folder } : Catalog).reloaded? disk folder path =
        some reading :=
      reloaded?_eq_some_iff.mpr ⟨mem_scan_of_mem_listed inFolder, read, by simp⟩
    rw [reloaded]
    rfl
  rw [allLoaded, Option.or_none] at holds
  cases claimed : lastClaim? (({ root := some folder } : Catalog).refresh disk).catalog.files
      name with
  | none => exact (holds.free (by simp [claimed])).trans claimed
  | some definition =>
      obtain ⟨path, isLast⟩ := exists_isLastClaim claimed
      exact holds.taken definition claimed ⟨path, isLast.claims.1⟩

/-- A catalog that follows its files by refreshes has the same files, times and names as a new one
that is filled from the files as they are in the end. They have the same definition of a name
exactly when no file that claims the name comes behind the one that was loaded last for it; the
definition that was loaded last stays in any case, as long as its file gives it. -/
theorem reload_meets_restart {first : Disk} {moments : List Disk} {folder : Path}
    (written : folder.IsWritten) (stands : first.isFolder folder = .ok true)
    (named : ∀ disk ∈ first :: moments, disk.WellNamed)
    (readable : ∀ disk ∈ first :: moments, IsReadable folder disk)
    (shows : (first :: moments).IsChain (ShowsChanges folder)) :
    let start := (({} : Catalog).loadDirectory first (some folder)).catalog
    let live := (reloads moments).run start
    let fresh := (({} : Catalog).loadDirectory (moments.getLastD first) (some folder)).catalog
    live.files = fresh.files ∧ live.times = fresh.times ∧
      (∀ name, live.get? name = none ↔ fresh.get? name = none) ∧
      (∀ name, live.get? name = fresh.get? name ↔
        ∀ definition path other claim, loadedLast? folder name moments start = some definition →
          live.files.get? path = some definition → Claims live.files name other claim →
            before path other = false) ∧
      ∀ name definition, loadedLast? folder name moments start = some definition →
        IsGiven live.files definition → live.get? name = some definition := by
  intro start live fresh
  have answers := Disk.exists_isFolder_of_isFolder stands
  have firstNamed := named first List.mem_cons_self
  have firstReadable := readable first List.mem_cons_self
  have lastMember : moments.getLastD first ∈ first :: moments := List.getLastD_mem_cons
  have lastNamed := named _ lastMember
  have lastReadable := readable _ lastMember
  have knowsStart : Knows start folder (seen? first folder) :=
    knows_loadDirectory {} written firstNamed firstReadable (answers first)
  have knowsFresh : Knows fresh folder (seen? (moments.getLastD first) folder) :=
    knows_loadDirectory {} written lastNamed lastReadable (answers _)
  obtain ⟨knowsLive, keeps⟩ := knowsStart.reloads answers
    (fun disk member => named disk (List.mem_cons_of_mem _ member))
    (fun disk member => readable disk (List.mem_cons_of_mem _ member)) shows
  have holds : ∀ name, Holds live (loadedLast? folder name moments start) name := by
    intro name
    have startHolds : Holds start none name := by
      refine ⟨by simp, by simp, fun _ => ?_⟩
      exact get?_loadDirectory {} written firstNamed firstReadable (answers first) name
    have liveHolds := keeps name none startHolds
    rwa [Option.or_none] at liveHolds
  have sameFiles : live.files = fresh.files :=
    SortedMap.eq_of_get?_eq fun path => (knowsLive.files path).trans (knowsFresh.files path).symm
  have sameTimes : live.times = fresh.times :=
    SortedMap.eq_of_get?_eq fun path => (knowsLive.times path).trans (knowsFresh.times path).symm
  have lastOfFresh : ∀ name, fresh.get? name = lastClaim? live.files name := by
    intro name
    rw [sameFiles]
    exact get?_loadDirectory {} written lastNamed lastReadable (answers _) name
  refine ⟨sameFiles, sameTimes, ?_, ?_, fun name => (holds name).taken⟩
  · intro name
    rw [lastOfFresh]
    exact (holds name).eq_none_iff
  · intro name
    rw [lastOfFresh]
    exact (holds name).eq_lastClaim?_iff knowsLive.sourced

/-- Two files that claim one name, and another file. -/
def rivalsFirst : Disk :=
  .ofFolder "c".toList
    [("a.md".toList, "---\nname: x\n---\n1".toList, 1),
      ("b.md".toList, "---\nname: x\n---\n2".toList, 2),
      ("d.md".toList, "---\nname: y\n---\n3".toList, 3)]

/-- The same files, once the first one was edited. -/
def rivalsEdited : Disk :=
  .ofFolder "c".toList
    [("a.md".toList, "---\nname: x\n---\n4".toList, 4),
      ("b.md".toList, "---\nname: x\n---\n2".toList, 2),
      ("d.md".toList, "---\nname: y\n---\n3".toList, 3)]

theorem reload_meets_restart_rivals :
    let start := (({} : Catalog).loadDirectory rivalsFirst (some ["c".toList])).catalog
    let live := (reloads [rivalsEdited]).run start
    let fresh := (({} : Catalog).loadDirectory rivalsEdited (some ["c".toList])).catalog
    live.files = fresh.files ∧ live.get? "y".toList = fresh.get? "y".toList := by
  intro start live fresh
  obtain ⟨files, -, -, agree, -⟩ :=
    @reload_meets_restart rivalsFirst [rivalsEdited] ["c".toList] (by decide +kernel) rfl
      (by decide +kernel) (by decide +kernel) (by decide +kernel)
  refine ⟨files, (agree "y".toList).mpr ?_⟩
  intro definition path other claim loaded
  have notLoaded : loadedLast? ["c".toList] "y".toList [rivalsEdited] start = none := by
    decide +kernel
  cases notLoaded.symm.trans loaded

/-- A refresh gives the name to the file that was edited, a new catalog gives it to the last one. -/
theorem reload_differs_from_restart :
    let start := (({} : Catalog).loadDirectory rivalsFirst (some ["c".toList])).catalog
    let live := (start.refresh rivalsEdited).catalog
    let fresh := (({} : Catalog).loadDirectory rivalsEdited (some ["c".toList])).catalog
    IsReadable ["c".toList] rivalsFirst ∧ IsReadable ["c".toList] rivalsEdited ∧
      ShowsChanges ["c".toList] rivalsFirst rivalsEdited ∧
      live.get? "x".toList ≠ fresh.get? "x".toList ∧
      (live.get? "x".toList).map Definition.sourcePath = some "c/a.md".toList ∧
      (fresh.get? "x".toList).map Definition.sourcePath = some "c/b.md".toList := by
  decide +kernel

end DocComponents.Catalog
