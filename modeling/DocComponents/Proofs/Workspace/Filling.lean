import DocComponents.Proofs.Workspace.Agreement
import DocComponents.Proofs.Workspace.Archiving

/-!
# What a new workspace holds

A workspace in which nothing stands but archives is filled with the folders, the documents and the
definitions of a new one. Its configuration has the settings by default.
-/

set_option autoImplicit false

namespace DocComponents.Layout

variable {home : Text} {disk : Disk} {layout : Layout} {names : List Text}
  {options : InitialOptions} {config : Config}

/-! ## Building -/

def componentsName : Text := "components".toList

def folderItems : List (List Text × Entry) :=
  [([logsName], .folder), ([archivesName], .folder)]

def documentItems (config : Config) (now : Int) : List (List Text × Entry) :=
  [([Resource.defaultsName], .file (Utf8.encode Resource.defaultsText) now),
    ([Config.documentName], .file (Utf8.encode config.document) now)]

def componentItems (seedExamples : Bool) (now : Int) : List (List Text × Entry) :=
  ([componentsName], .folder) ::
    if seedExamples then
      Resource.examples.map fun file =>
        ([componentsName, file.1], .file (Utf8.encode file.2) now)
    else []

/-- What a new workspace holds, in the order in which it is made. -/
def newItems (config : Config) (seedExamples : Bool) (now : Int) : List (List Text × Entry) :=
  folderItems ++ documentItems config now ++ componentItems seedExamples now

def newExamples (layout : Layout) (seedExamples : Bool) : List Path :=
  if seedExamples then
    Resource.examples.map fun file => layout.workspace ++ [componentsName] ++ [file.1]
  else []

/-- Whatever a new workspace holds fits into it. -/
structure FitsNew (layout : Layout) : Prop where
  names : ∀ name ∈ [logsName, archivesName, Resource.defaultsName, Config.documentName,
    componentsName], Disk.FitsIn layout.workspace name
  examples : ∀ file ∈ Resource.examples, Disk.FitsIn (layout.workspace ++ [componentsName]) file.1

theorem makeFolders_of_bare (bare : layout.Bare names disk) (fits : layout.FitsNew) :
    layout.makeFolders disk = (.ok (), disk.fill names folderItems) ∧
      (disk.fill names folderItems).FolderAt layout.workspace names := by
  have logsFree := get?_of_not_holdsWork bare.empty
    ((isWork_cons_iff logsName []).mpr (by decide))
  have present : (disk.put (names ++ [logsName]) .folder).FolderAt layout.workspace names :=
    bare.present.put (.inl logsFree) (by simp)
  have archivesFree : (disk.put (names ++ [logsName]) .folder).entries.get?
        (names ++ [archivesName]) = none ∨
      (disk.put (names ++ [logsName]) .folder).entries.get? (names ++ [archivesName]) =
        some .folder := by
    rw [Disk.get?_put_beside (by decide)]
    exact bare.archives
  have logs := DiskAction.makeFolders_concat bare.present (fits.names logsName (by simp))
    (.inl logsFree)
  have archives := DiskAction.makeFolders_concat present (fits.names archivesName (by simp))
    archivesFree
  refine ⟨?_, present.put archivesFree (by simp)⟩
  unfold makeFolders
  rw [DiskAction.bind_of_eq_ok (DiskAction.makeFolders_of_folderAt bare.present)]
  exact (DiskAction.bind_of_eq_ok logs _).trans archives

theorem writeDocuments_of_free (present : disk.FolderAt layout.workspace names)
    (fits : layout.FitsNew)
    (free : ∀ name ∈ [Resource.defaultsName, Config.documentName],
      disk.entries.get? (names ++ [name]) = none) (config : Config) :
    ∃ defaults,
      writeDocument layout.defaults Resource.defaultsText true disk = (.ok (), defaults) ∧
      writeDocument layout.document config.document true defaults =
        (.ok (), disk.fill names (documentItems config disk.now)) ∧
      (disk.fill names (documentItems config disk.now)).FolderAt layout.workspace names := by
  have defaultsFree := free Resource.defaultsName (by simp)
  have presentDefaults : (disk.put (names ++ [Resource.defaultsName])
      (.file (Utf8.encode Resource.defaultsText) disk.now)).FolderAt layout.workspace names :=
    present.put (.inl defaultsFree) (by simp)
  have documentFree : (disk.put (names ++ [Resource.defaultsName])
      (.file (Utf8.encode Resource.defaultsText) disk.now)).entries.get?
        (names ++ [Config.documentName]) = none := by
    rw [Disk.get?_put_beside (by decide)]
    exact free _ (by simp)
  refine ⟨_, DiskAction.writeText_concat present (fits.names Resource.defaultsName (by simp))
    defaultsFree Resource.defaultsText, ?_, ?_⟩
  · exact DiskAction.writeText_concat presentDefaults (fits.names Config.documentName (by simp))
      documentFree config.document
  · exact presentDefaults.put (.inl documentFree) (by simp)

theorem makeComponents_of_free (present : disk.FolderAt layout.workspace names)
    (fits : layout.FitsNew)
    (free : ∀ more, disk.entries.get? (names ++ componentsName :: more) = none)
    (seedExamples : Bool) :
    makeComponents (layout.workspace ++ [componentsName]) seedExamples disk =
      (.ok (newExamples layout seedExamples),
        disk.fill names (componentItems seedExamples disk.now)) := by
  have componentsFree := free []
  have asked := DiskAction.pathExists_concat present (fits.names componentsName (by simp))
  rw [componentsFree] at asked
  have made := DiskAction.makeFolders_concat present (fits.names componentsName (by simp))
    (.inl componentsFree)
  unfold makeComponents
  rw [DiskAction.bind_of_eq_ok asked]
  cases seedExamples with
  | false =>
      refine (DiskAction.bind_of_eq_ok made _).trans ?_
      rfl
  | true =>
      have inside := present.concat (fits.names componentsName (by simp)) (.inl componentsFree)
      have written := DiskAction.writeMissing_of_free inside fits.examples
        (fun file _ => by
          rw [Disk.get?_put, if_neg (by simp)]
          simpa using free [file.1])
        (by decide)
      rw [Disk.fill_concat] at written
      refine (DiskAction.bind_of_eq_ok made _).trans (written.trans ?_)
      simp [newExamples, componentItems, Disk.fill_cons, List.map_map, Function.comp_def]

/-- A workspace in which nothing stands but archives is filled with what a new one holds. -/
theorem build_of_bare (bare : layout.Bare names disk) (located : layout.workspace = ['/'] :: names)
    (fits : layout.FitsNew) (renew : options.renew = true)
    (told : layout.initialConfig home options = .ok config) (plain : config.components = {})
    (archive? : Option Path) :
    build home layout options archive? disk =
      (.ok
        { config
          componentsFolder := layout.workspace ++ [componentsName]
          seeded := newExamples layout options.seedExamples
          archive? },
        disk.fill names (newItems config options.seedExamples disk.now)) := by
  obtain ⟨made, present⟩ := makeFolders_of_bare bare fits
  have free : ∀ name ∈ [Resource.defaultsName, Config.documentName, componentsName], ∀ more,
      (disk.fill names folderItems).entries.get? (names ++ name :: more) = none := by
    intro name member more
    have apart : ∀ name ∈ [Resource.defaultsName, Config.documentName, componentsName],
        name ≠ archivesName ∧ ∀ item ∈ folderItems, item.1.head? ≠ some name := by decide
    obtain ⟨notArchives, beside⟩ := apart name member
    rw [Disk.get?_fill_beside beside]
    exact get?_of_not_holdsWork bare.empty ((isWork_cons_iff name more).mpr notArchives)
  obtain ⟨defaults, wroteDefaults, wroteDocument, presentDocuments⟩ :=
    writeDocuments_of_free present fits
      (fun name member => free name (List.mem_append_left [componentsName] member) []) config
  have components := makeComponents_of_free presentDocuments fits (fun more => by
    rw [Disk.get?_fill_beside (by simp [documentItems]; decide)]
    exact free _ (by simp) more) options.seedExamples
  have folder : config.componentsFolder home layout.workspace =
      .ok (layout.workspace ++ [componentsName]) := by
    rw [componentsFolder_default plain located, located]
    rfl
  unfold build
  rw [renew, DiskAction.bind_of_eq_ok (DiskAction.adapt_eq_ok_iff.mpr made),
    DiskAction.bind_of_eq_ok
      (DiskAction.adapt_eq_ok_iff.mpr (DiskAction.check_eq_ok_iff.mpr ⟨told, rfl⟩)),
    DiskAction.bind_of_eq_ok (DiskAction.adapt_eq_ok_iff.mpr wroteDefaults),
    DiskAction.bind_of_eq_ok (DiskAction.adapt_eq_ok_iff.mpr wroteDocument),
    DiskAction.bind_of_eq_ok
      (DiskAction.adapt_eq_ok_iff.mpr (DiskAction.check_eq_ok_iff.mpr ⟨folder, rfl⟩)),
    DiskAction.bind_of_eq_ok (DiskAction.adapt_eq_ok_iff.mpr components)]
  simp only [Disk.fill_now, newItems, Disk.fill_append]
  rfl

/-! ## The configuration -/

theorem exists_initialConfig {environment : Environment} (home : Text)
    (located : layout.workspace = ['/'] :: names)
    (layered : options.environment = Config.logLevelLayer environment) :
    ∃ config, layout.initialConfig home options = .ok config ∧ config.components = {} := by
  obtain ⟨path, told⟩ := exists_homePath home located
  exact ⟨_, initialConfig_of_homePath layered told, rfl⟩

/-! ## What is filled -/

theorem head?_of_mem_documentItems {now : Int} {item : List Text × Entry}
    (member : item ∈ documentItems config now) : item.1.head? ≠ some archivesName := by
  simp only [documentItems, List.mem_cons, List.not_mem_nil, or_false] at member
  rcases member with rfl | rfl
  · exact (by decide : [Resource.defaultsName].head? ≠ some archivesName)
  · exact (by decide : [Config.documentName].head? ≠ some archivesName)

theorem head?_of_mem_componentItems {seedExamples : Bool} {now : Int} {item : List Text × Entry}
    (member : item ∈ componentItems seedExamples now) : item.1.head? ≠ some archivesName := by
  have first : item.1.head? = some componentsName := by
    rcases List.mem_cons.mp member with rfl | example?
    · rfl
    · split at example?
      · obtain ⟨file, -, rfl⟩ := List.mem_map.mp example?
        rfl
      · cases example?
  rw [first]
  decide

/-- Of what a new workspace holds only the folder of the archives is at the archives. -/
theorem fill_newItems (disk : Disk) (names : List Text) (config : Config) (seedExamples : Bool)
    (now : Int) (more : List Text) :
    (disk.fill names (newItems config seedExamples now)).entries.get?
        (names ++ archivesName :: more) =
      if more = [] then some .folder else disk.entries.get? (names ++ archivesName :: more) := by
  rw [newItems, Disk.fill_append, Disk.fill_append,
    Disk.get?_fill_beside fun item => head?_of_mem_componentItems,
    Disk.get?_fill_beside fun item => head?_of_mem_documentItems]
  have folders : disk.fill names folderItems =
      (disk.put (names ++ [logsName]) .folder).put (names ++ [archivesName]) .folder := rfl
  rw [folders, Disk.get?_put]
  by_cases atFolder : more = []
  · rw [if_pos (by rw [atFolder]), if_pos atFolder]
  · rw [if_neg (by simpa using atFolder), if_neg atFolder, Disk.get?_put_beside (by decide)]

/-- Whatever a workspace held but its archives, it is filled alike. -/
theorem get?_fill_of_bare {left right : Disk} (leftBare : layout.Bare names left)
    (rightBare : layout.Bare names right)
    (sameTop : left.entries.get? names = right.entries.get? names) (config : Config)
    (seedExamples : Bool) (now : Int) {rest : List Text}
    (outside : ∀ more ≠ [], rest ≠ archivesName :: more) :
    (left.fill names (newItems config seedExamples now)).entries.get? (names ++ rest) =
      (right.fill names (newItems config seedExamples now)).entries.get? (names ++ rest) := by
  cases rest with
  | nil =>
      apply Disk.get?_fill_congr
      rw [List.append_nil, sameTop]
  | cons name more =>
      by_cases inArchives : name = archivesName
      · subst inArchives
        have noMore : more = [] := by
          by_contra notEmpty
          exact outside more notEmpty rfl
        rw [noMore, fill_newItems, fill_newItems, if_pos rfl, if_pos rfl]
      · apply Disk.get?_fill_congr
        have work := (isWork_cons_iff name more).mpr inArchives
        rw [get?_of_not_holdsWork leftBare.empty work, get?_of_not_holdsWork rightBare.empty work]

end DocComponents.Layout
