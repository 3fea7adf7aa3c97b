import DocComponents.Proofs.Workspace.Filling

/-!
# Making a workspace once more

A workspace that is not made anew keeps whatever it holds. Only what is missing is written, and none
of it is missing afterwards: making the workspace once more, with another log level, with the
examples or without them, finds everything in its place.
-/

set_option autoImplicit false

namespace DocComponents.Layout

variable {home stamp again : Text} {disk after : Disk} {layout : Layout}
  {workspace : Path} {options other : InitialOptions} {result : Initial} {config : Config}

/-! ## What is kept -/

theorem grows_build (keeps : options.renew = false) (archive? : Option Path) (disk : Disk) :
    disk.Grows (fun _ => True) (build home layout options archive? disk).2 := by
  have foldersGrow (disk : Disk) : disk.Grows (fun _ => True) (layout.makeFolders disk).2 := by
    have made := DiskAction.grows_makeFolders_anywhere
    exact DiskAction.grows_bind (made _ _) fun _ _ _ =>
      DiskAction.grows_bind (made _ _) fun _ _ _ => made _ _
  have documentGrows (path : Path) (text : Text) (disk : Disk) :
      disk.Grows (fun _ => True) (writeDocument path text false disk).2 :=
    (grows_writeDocument path text disk).mono fun _ _ => trivial
  unfold build
  rw [keeps]
  apply DiskAction.grows_bind (DiskAction.grows_adapt (foldersGrow disk))
  intro _ folders _
  apply DiskAction.grows_bind (DiskAction.grows_adapt (.refl _ folders))
  intro config checked _
  apply DiskAction.grows_bind (DiskAction.grows_adapt (documentGrows _ _ checked))
  intro _ defaults _
  apply DiskAction.grows_bind (DiskAction.grows_adapt (documentGrows _ _ defaults))
  intro _ documents _
  apply DiskAction.grows_bind (DiskAction.grows_adapt (.refl _ documents))
  intro folder located _
  exact DiskAction.grows_bind
    (DiskAction.grows_adapt (grows_makeComponents folder options.seedExamples located))
    fun _ _ _ => .refl _ _

theorem grows_initialise (keeps : options.renew = false) (disk : Disk) :
    disk.Grows (fun _ => True) (initialise home stamp workspace options disk).2 := by
  rw [initialise_eq, keeps]
  exact DiskAction.grows_bind (DiskAction.grows_adapt (.refl _ disk)) fun _ checked _ =>
    grows_build keeps none checked

/-! ## What is left to make -/

/-- A workspace in which nothing is missing that belongs to one. -/
structure IsMade (layout : Layout) (disk : Disk) : Prop where
  folders : ∀ folder ∈ [layout.workspace, layout.logs, layout.archives,
    layout.workspace ++ [componentsName]], ∃ place, disk.FolderAt folder place
  documents : ∀ document ∈ [layout.defaults, layout.document],
    disk.pathExists document = .ok true

theorem exists_folderAt_of_makeFolders (made : layout.makeFolders disk = (.ok (), after)) :
    ∀ folder ∈ [layout.workspace, layout.logs, layout.archives],
      ∃ place, after.FolderAt folder place := by
  unfold makeFolders at made
  obtain ⟨_, first, workspaceMade, rest⟩ := DiskAction.exists_of_bind_eq_ok made
  obtain ⟨_, second, logsMade, archivesMade⟩ := DiskAction.exists_of_bind_eq_ok rest
  have toSecond := DiskAction.grows_makeFolders_anywhere layout.logs first
  have toLast := DiskAction.grows_makeFolders_anywhere layout.archives second
  rw [logsMade] at toSecond
  rw [archivesMade] at toLast
  obtain ⟨top, workspaceStands⟩ := DiskAction.exists_folderAt_of_makeFolders workspaceMade
  obtain ⟨logs, logsStand⟩ := DiskAction.exists_folderAt_of_makeFolders logsMade
  intro folder member
  simp only [List.mem_cons, List.not_mem_nil, or_false] at member
  rcases member with rfl | rfl | rfl
  · exact ⟨top, (toSecond.trans toLast).folderAt workspaceStands⟩
  · exact ⟨logs, toLast.folderAt logsStand⟩
  · exact DiskAction.exists_folderAt_of_makeFolders archivesMade

theorem pathExists_of_writeDocument {path : Path} {text : Text}
    (written : writeDocument path text false disk = (.ok (), after)) :
    after.pathExists path = .ok true := by
  rcases writeDocument_cases written with ⟨stands, rfl⟩ | ⟨-, wrote⟩
  · exact stands
  · obtain ⟨place, located, stands⟩ := Disk.exists_file_of_writeFile wrote
    exact Disk.pathExists_of_stands located stands

theorem exists_folderAt_of_makeComponents {folder : Path} {seedExamples : Bool}
    {seeded : List Path} (made : makeComponents folder seedExamples disk = (.ok seeded, after)) :
    ∃ place, after.FolderAt folder place := by
  unfold makeComponents at made
  obtain ⟨stands, middle, -, made⟩ := DiskAction.exists_of_bind_eq_ok made
  by_cases isNew : (!stands && seedExamples) = true
  · rw [if_pos isNew] at made
    obtain ⟨_, later, folderMade, written⟩ := DiskAction.exists_of_bind_eq_ok made
    have grows := DiskAction.grows_writeMissing folder Resource.examples later
    rw [written] at grows
    obtain ⟨place, present⟩ := DiskAction.exists_folderAt_of_makeFolders folderMade
    exact ⟨place, grows.folderAt present⟩
  · rw [if_neg isNew] at made
    obtain ⟨_, later, folderMade, answered⟩ := DiskAction.exists_of_bind_eq_ok made
    cases answered
    exact DiskAction.exists_folderAt_of_makeFolders folderMade

theorem isMade_of_build (keeps : options.renew = false) {archive? : Option Path}
    (located : result.config.componentsFolder home layout.workspace =
      .ok (layout.workspace ++ [componentsName]))
    (built : build home layout options archive? disk = (.ok result, after)) :
    layout.IsMade after := by
  obtain ⟨folders, defaults, documents, made, -, defaultsWritten, documentWritten, folder,
    filled⟩ := exists_stages_of_build keeps built
  have sameFolder := Except.ok.inj (located.symm.trans folder)
  rw [← sameFolder] at filled
  have toDefaults := grows_writeDocument layout.defaults Resource.defaultsText folders
  have toDocuments := grows_writeDocument layout.document result.config.document defaults
  have toLast := grows_makeComponents (layout.workspace ++ [componentsName])
    options.seedExamples documents
  rw [defaultsWritten] at toDefaults
  rw [documentWritten] at toDocuments
  rw [filled] at toLast
  have fromDefaults := (toDocuments.mono fun _ _ => trivial).trans toLast
  have fromFolders := (toDefaults.mono fun _ _ => trivial).trans fromDefaults
  constructor
  · intro folder member
    simp only [List.mem_cons, List.not_mem_nil, or_false] at member
    -- The folder of definitions is made last; the others are kept by what is made after them.
    by_cases last : folder = layout.workspace ++ [componentsName]
    · exact last ▸ exists_folderAt_of_makeComponents filled
    · obtain ⟨place, present⟩ := exists_folderAt_of_makeFolders made folder
        (by simpa [last] using member)
      exact ⟨place, fromFolders.folderAt present⟩
  · intro document member
    simp only [List.mem_cons, List.not_mem_nil, or_false] at member
    rcases member with rfl | rfl
    · exact fromDefaults.pathExists_eq_true (pathExists_of_writeDocument defaultsWritten)
    · exact toLast.pathExists_eq_true (pathExists_of_writeDocument documentWritten)

/-! ## Nothing is left to make -/

theorem makeFolders_of_isMade (made : layout.IsMade disk) :
    layout.makeFolders disk = (.ok (), disk) := by
  have ready : ∀ folder ∈ [layout.workspace, layout.logs, layout.archives],
      DiskAction.makeFolders folder disk = (.ok (), disk) := by
    intro folder member
    obtain ⟨place, present⟩ := made.folders folder (List.mem_append_left [_] member)
    exact DiskAction.makeFolders_of_folderAt present
  unfold makeFolders
  rw [DiskAction.bind_of_eq_ok (ready _ (by simp)), DiskAction.bind_of_eq_ok (ready _ (by simp)),
    ready _ (by simp)]

theorem writeDocument_of_pathExists {path : Path} (stands : disk.pathExists path = .ok true)
    (text : Text) : writeDocument path text false disk = (.ok (), disk) := by
  have asked : DiskAction.pathExists path disk = (.ok true, disk) :=
    DiskAction.checkAt_eq_ok_iff.mpr ⟨stands, rfl⟩
  exact DiskAction.bind_of_eq_ok asked _

theorem makeComponents_of_folderAt {folder : Path} {place : List Text}
    (present : disk.FolderAt folder place) (seedExamples : Bool) :
    makeComponents folder seedExamples disk = (.ok [], disk) := by
  have stands := Disk.pathExists_of_stands present.located present.stands
  have asked : DiskAction.pathExists folder disk = (.ok true, disk) :=
    DiskAction.checkAt_eq_ok_iff.mpr ⟨stands, rfl⟩
  unfold makeComponents
  rw [DiskAction.bind_of_eq_ok asked]
  exact DiskAction.bind_of_eq_ok (DiskAction.makeFolders_of_folderAt present) _

theorem build_of_isMade (keeps : options.renew = false) (made : layout.IsMade disk)
    (told : layout.initialConfig home options = .ok config)
    (located : config.componentsFolder home layout.workspace =
      .ok (layout.workspace ++ [componentsName])) (archive? : Option Path) :
    build home layout options archive? disk =
      (.ok
        { config
          componentsFolder := layout.workspace ++ [componentsName]
          seeded := []
          archive? }, disk) := by
  have stands (document : Path) (member : document ∈ [layout.defaults, layout.document])
      (text : Text) := writeDocument_of_pathExists (made.documents document member) text
  obtain ⟨place, present⟩ := made.folders (layout.workspace ++ [componentsName]) (by simp)
  unfold build
  rw [keeps, DiskAction.bind_of_eq_ok (DiskAction.adapt_eq_ok_iff.mpr (makeFolders_of_isMade made)),
    DiskAction.bind_of_eq_ok
      (DiskAction.adapt_eq_ok_iff.mpr (DiskAction.check_eq_ok_iff.mpr ⟨told, rfl⟩)),
    DiskAction.bind_of_eq_ok (DiskAction.adapt_eq_ok_iff.mpr (stands _ (by simp) _)),
    DiskAction.bind_of_eq_ok (DiskAction.adapt_eq_ok_iff.mpr (stands _ (by simp) _)),
    DiskAction.bind_of_eq_ok
      (DiskAction.adapt_eq_ok_iff.mpr (DiskAction.check_eq_ok_iff.mpr ⟨located, rfl⟩)),
    DiskAction.bind_of_eq_ok
      (DiskAction.adapt_eq_ok_iff.mpr (makeComponents_of_folderAt present _))]
  rfl

theorem initialise_of_isMade (keeps : options.renew = false) (made : layout.IsMade disk)
    (resolved : resolve home disk (some workspace) none = .ok layout)
    (told : layout.initialConfig home options = .ok config)
    (located : config.componentsFolder home layout.workspace =
      .ok (layout.workspace ++ [componentsName])) :
    initialise home stamp workspace options disk =
      (.ok
        { config
          componentsFolder := layout.workspace ++ [componentsName]
          seeded := []
          archive? := none }, disk) := by
  rw [initialise_eq, keeps, DiskAction.bind_of_eq_ok
    (DiskAction.adapt_eq_ok_iff.mpr (DiskAction.check_eq_ok_iff.mpr ⟨resolved, rfl⟩))]
  exact build_of_isMade keeps made told located none

/-! ## Both -/

theorem componentsFolder_of_initialConfig {names : List Text} {environment : Environment}
    (located : layout.workspace = ['/'] :: names)
    (layered : options.environment = Config.logLevelLayer environment)
    (told : layout.initialConfig home options = .ok config) :
    config.componentsFolder home layout.workspace =
      .ok (layout.workspace ++ [componentsName]) := by
  obtain ⟨_, again, plain⟩ := exists_initialConfig home located layered
  obtain rfl := Except.ok.inj (told.symm.trans again)
  rw [componentsFolder_default plain located, located]
  rfl

/-- Making a workspace, but not anew, keeps every file and folder, however it ends; and when it
brought a workspace, making it again with other options leaves the whole disk as it is. -/
theorem initialise_keeps_and_settles {environment otherEnvironment : Environment}
    (keeps : options.renew = false)
    (layered : options.environment = Config.logLevelLayer environment)
    (keepsAgain : other.renew = false)
    (layeredAgain : other.environment = Config.logLevelLayer otherEnvironment) (disk : Disk) :
    (∀ place entry, disk.entryAt? place = some entry →
      (initialise home stamp workspace options disk).2.entryAt? place = some entry) ∧
    ∀ result after, initialise home stamp workspace options disk = (.ok result, after) →
      ∃ second, initialise home again workspace other after = (.ok second, after) ∧
        second.componentsFolder = result.componentsFolder ∧ second.seeded = [] ∧
          second.archive? = none := by
  have grows : disk.Grows (fun _ => True) (initialise home stamp workspace options disk).2 :=
    grows_initialise keeps disk
  refine ⟨fun place entry => grows.entryAt?_eq_some, fun result after ran => ?_⟩
  rw [ran] at grows
  obtain ⟨layout, resolved, built⟩ := exists_build_of_initialise keeps ran
  obtain ⟨names, located, -⟩ := exists_names_of_resolve resolved
  obtain ⟨-, -, -, -, told, -, -, folder, -⟩ := exists_stages_of_build keeps built
  have here := componentsFolder_of_initialConfig located layered told
  have made := isMade_of_build keeps here built
  obtain ⟨config, toldAgain, -⟩ := exists_initialConfig home located layeredAgain
  obtain ⟨top, present⟩ := made.folders layout.workspace (by simp)
  have resolvedAgain := resolve_of_folderAt resolved grows.current present
  have hereAgain := componentsFolder_of_initialConfig located layeredAgain toldAgain
  exact ⟨_, initialise_of_isMade keepsAgain made resolvedAgain toldAgain hereAgain,
    Except.ok.inj (here.symm.trans folder), rfl, rfl⟩

def ownDisk : Disk :=
  { entries := SortedMap.empty.insertAll
      [(["ws".toList], .folder),
        (["ws".toList, Resource.defaultsName], .file (Utf8.encode "mine".toList) 1),
        (["ws".toList, componentsName], .folder),
        (["ws".toList, componentsName, "badge.md".toList], .file (Utf8.encode "own".toList) 1)]
    now := 2 }

/-- An own badge stays, and the other examples do not join it, not even when they are asked for. -/
theorem initialise_keeps_and_settles_own :
    let environment : Environment := [(Config.logLevelVariable, "debug".toList)]
    let options : InitialOptions :=
      { environment := Config.logLevelLayer environment, seedExamples := false }
    let other : InitialOptions := { logLevel? := some "error".toList }
    let after := (initialise ['/'] [] documentWorkspace options ownDisk).2
    after.entryAt? ["ws".toList, componentsName, "badge.md".toList] =
        some (.file (Utf8.encode "own".toList) 1) ∧
      ∃ second, initialise ['/'] [] documentWorkspace other after = (.ok second, after) := by
  intro environment options other after
  have layered : options.environment = Config.logLevelLayer environment := rfl
  have layeredAgain : other.environment = Config.logLevelLayer [] := rfl
  obtain ⟨kept, settles⟩ := @initialise_keeps_and_settles ['/'] [] [] documentWorkspace options
    other environment [] rfl layered rfl layeredAgain ownDisk
  refine ⟨kept _ _ (by decide +kernel), ?_⟩
  have answers : (initialise ['/'] [] documentWorkspace options ownDisk).1.isOk = true := by
    decide +kernel
  obtain ⟨result, last, ran⟩ := DiskAction.exists_of_isOk answers
  obtain ⟨second, settled, -⟩ := settles result last ran
  have sameAfter : after = last := congrArg Prod.snd ran
  rw [sameAfter]
  exact ⟨second, settled⟩

end DocComponents.Layout
