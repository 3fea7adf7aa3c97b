import DocComponents.Proofs.File.Folder
import DocComponents.Proofs.File.Path
import DocComponents.Proofs.Text.Trim
import DocComponents.Workspace.Initial

/-!
# How a workspace is made

Making a workspace that is not made anew only adds to the disk. The places of a workspace are told
from the top, so what is added before the document is written is not the document.
-/

set_option autoImplicit false

namespace DocComponents

theorem Path.up_not_mem_settle {settled parts : List Text} (noUp : Path.up ∉ settled) :
    Path.up ∉ Path.settle settled parts := by
  induction parts generalizing settled with
  | nil => exact noUp
  | cons part rest ih =>
      unfold Path.settle
      split
      · exact ih fun member => noUp (List.dropLast_subset _ member)
      · next notUp =>
          apply ih
          simp [noUp, Ne.symm notUp]

namespace Layout

variable {home stamp : Text} {disk middle after : Disk} {layout : Layout} {workspace : Path}
  {options : InitialOptions} {result : Initial}

theorem resolve_eq_ok_iff {given? environment? : Option Path} :
    resolve home disk given? environment? = .ok layout ↔
      ∃ path, ((given?.or environment?).getD Config.defaultWorkspace).expandHome home = .ok path ∧
        disk.resolve path = .ok layout.workspace ∧ disk.isFile layout.workspace = .ok false := by
  constructor
  · intro resolved
    unfold resolve at resolved
    obtain ⟨path, expanded, resolved⟩ := exists_of_except_bind resolved
    obtain ⟨found, absolute, resolved⟩ := exists_of_except_bind resolved
    split at resolved
    · cases resolved
    · cases resolved
    · next noFile =>
        cases resolved
        exact ⟨path, mapError_eq_ok_iff.mp expanded, mapError_eq_ok_iff.mp absolute, noFile⟩
  · rintro ⟨path, expanded, absolute, noFile⟩
    unfold resolve
    simp only [expanded, absolute, noFile, Except.mapError, bind, Except.bind]
    rfl

/-- A workspace that was resolved is told from the top, without leading up. -/
theorem exists_names_of_resolve {given? environment? : Option Path}
    (resolved : resolve home disk given? environment? = .ok layout) :
    ∃ names, layout.workspace = ['/'] :: names ∧ Path.up ∉ names := by
  obtain ⟨path, -, straight, -⟩ := resolve_eq_ok_iff.mp resolved
  unfold Disk.resolve at straight
  split at straight
  · exact ⟨_, (Except.ok.inj straight).symm, Path.up_not_mem_settle List.not_mem_nil⟩
  · cases straight

/-- The path of a workspace is written without a home folder. -/
theorem exists_homePath (home : Text) {names : List Text}
    (located : layout.workspace = ['/'] :: names) :
    ∃ path, Field.homePath home (.text layout.workspace.toText) = .ok (.ok path) := by
  have text : layout.workspace.toText = '/' :: Text.join ['/'] names := by
    rw [located]
    rfl
  have notSpace : Text.isSpace '/' = false := by decide
  obtain ⟨rest, trimmed⟩ := Text.exists_trimBoth_cons notSpace (Text.join ['/'] names)
  rw [text, Field.homePath, Field.path, trimmed]
  dsimp only
  rw [Path.expandHome_ofText_slash]
  exact ⟨_, rfl⟩

/-- A workspace that is there is resolved alike, whatever else stands on the disk. -/
theorem resolve_of_folderAt {other : Disk} {names : List Text}
    (resolved : resolve home disk (some workspace) none = .ok layout)
    (sameCurrent : other.current = disk.current)
    (present : other.FolderAt layout.workspace names) :
    resolve home other (some workspace) none = .ok layout := by
  obtain ⟨path, expanded, absolute, -⟩ := resolve_eq_ok_iff.mp resolved
  refine resolve_eq_ok_iff.mpr ⟨path, expanded, ?_, ?_⟩
  · rw [Disk.resolve, Disk.absolute, sameCurrent]
    exact absolute
  · rw [Disk.isFile, Disk.look, present.located]
    simp [Except.map, present.stands]

theorem grows_makeFolders {names : List Text} (located : layout.workspace = ['/'] :: names)
    (noUp : Path.up ∉ names) (disk : Disk) :
    disk.Grows (fun place => place <+: names ++ [logsName] ∨ place <+: names ++ [archivesName])
      (layout.makeFolders disk).2 := by
  have below {name : Text} (notUp : name ≠ Path.up) : Path.up ∉ names ++ [name] := by
    simp [noUp, Ne.symm notUp]
  have logs : layout.logs = ['/'] :: (names ++ [logsName]) := by simp [Layout.logs, located]
  have archives : layout.archives = ['/'] :: (names ++ [archivesName]) := by
    simp [Layout.archives, located]
  unfold makeFolders
  rw [logs, archives, located]
  refine DiskAction.grows_bind ?_ fun _ middle _ => DiskAction.grows_bind ?_ fun _ later _ => ?_
  · exact (DiskAction.grows_makeFolders noUp disk).mono fun place above =>
      .inl (above.trans (List.prefix_append _ _))
  · exact (DiskAction.grows_makeFolders (below (by decide)) middle).mono fun _ => .inl
  · exact (DiskAction.grows_makeFolders (below (by decide)) later).mono fun _ => .inr

theorem writeDocument_cases {path : Path} {text : Text}
    (ran : writeDocument path text false disk = (.ok (), after)) :
    disk.pathExists path = .ok true ∧ after = disk ∨
      disk.pathExists path = .ok false ∧ disk.writeText path text = .ok after := by
  unfold writeDocument at ran
  obtain ⟨stands, middle, asked, rest⟩ := DiskAction.exists_of_bind_eq_ok ran
  obtain ⟨answer, rfl⟩ := DiskAction.checkAt_eq_ok_iff.mp asked
  cases stands with
  | true =>
      cases rest
      exact .inl ⟨answer, rfl⟩
  | false =>
      have written : DiskAction.writeText path text middle = (.ok (), after) := rest
      exact .inr ⟨answer, DiskAction.changeAt_eq_ok_iff.mp written⟩

theorem grows_writeDocument (path : Path) (text : Text) (disk : Disk) :
    disk.Grows (fun place => disk.place path = .ok place)
      (writeDocument path text false disk).2 := by
  unfold writeDocument
  refine DiskAction.grows_bind (DiskAction.grows_pathExists _ _ _) fun stands middle asked => ?_
  obtain ⟨answer, rfl⟩ := DiskAction.checkAt_eq_ok_iff.mp asked
  cases stands with
  | true => exact .refl _ _
  | false => exact DiskAction.grows_writeText text answer

theorem grows_makeComponents (folder : Path) (seedExamples : Bool) (disk : Disk) :
    disk.Grows (fun _ => True) (makeComponents folder seedExamples disk).2 := by
  have made := DiskAction.grows_makeFolders_anywhere folder
  unfold makeComponents
  refine DiskAction.grows_bind (DiskAction.grows_pathExists _ _ _) fun stands middle _ => ?_
  by_cases isNew : (!stands && seedExamples) = true
  · rw [if_pos isNew]
    exact DiskAction.grows_bind (made middle) fun _ later _ =>
      DiskAction.grows_writeMissing _ _ later
  · rw [if_neg isNew]
    exact DiskAction.grows_bind (made middle) fun _ _ _ => .refl _ _

/-- Making what is missing of a workspace, after its contents may have been archived. -/
def build (home : Text) (layout : Layout) (options : InitialOptions) (archive? : Option Path) :
    DiskAction InitialFault Initial := do
  ExceptT.adapt .file layout.makeFolders
  let config ← ExceptT.adapt .config
    (DiskAction.check fun _ => layout.initialConfig home options)
  ExceptT.adapt .file (writeDocument layout.defaults Resource.defaultsText options.renew)
  ExceptT.adapt .file (writeDocument layout.document config.document options.renew)
  let componentsFolder ← ExceptT.adapt (InitialFault.config ∘ .home)
    (DiskAction.check fun _ => config.componentsFolder home layout.workspace)
  let seeded ← ExceptT.adapt .file (makeComponents componentsFolder options.seedExamples)
  return { config, componentsFolder, seeded, archive? }

theorem initialise_eq (home stamp : Text) (workspace : Path) (options : InitialOptions) :
    initialise home stamp workspace options =
      ExceptT.adapt .layout
          (DiskAction.check fun disk => resolve home disk (some workspace) none) >>=
        fun layout =>
          (if options.renew then ExceptT.adapt .archive (layout.archive stamp) else pure none) >>=
            build home layout options := by
  unfold initialise build
  congr 1
  funext layout
  cases renew : options.renew with
  | false => rfl
  | true => rfl

theorem exists_steps_of_build {archive? : Option Path}
    (ran : build home layout options archive? disk = (.ok result, after)) :
    ∃ folders defaults documents, layout.makeFolders disk = (.ok (), folders) ∧
      layout.initialConfig home options = .ok result.config ∧
      writeDocument layout.defaults Resource.defaultsText options.renew folders =
        (.ok (), defaults) ∧
      writeDocument layout.document result.config.document options.renew defaults =
        (.ok (), documents) ∧
      result.config.componentsFolder home layout.workspace = .ok result.componentsFolder ∧
      makeComponents result.componentsFolder options.seedExamples documents =
        (.ok result.seeded, after) := by
  unfold build at ran
  obtain ⟨_, folders, made, configured⟩ := DiskAction.exists_of_bind_eq_ok ran
  obtain ⟨config, same, checked, written⟩ := DiskAction.exists_of_bind_eq_ok configured
  obtain ⟨told, rfl⟩ := DiskAction.check_eq_ok_iff.mp (DiskAction.adapt_eq_ok_iff.mp checked)
  obtain ⟨_, defaults, defaultsWritten, left⟩ := DiskAction.exists_of_bind_eq_ok written
  obtain ⟨_, documents, documentWritten, located⟩ := DiskAction.exists_of_bind_eq_ok left
  obtain ⟨folder, same, asked, filled⟩ := DiskAction.exists_of_bind_eq_ok located
  obtain ⟨found, rfl⟩ := DiskAction.check_eq_ok_iff.mp (DiskAction.adapt_eq_ok_iff.mp asked)
  obtain ⟨seeded, last, seeding, answered⟩ := DiskAction.exists_of_bind_eq_ok filled
  cases answered
  exact ⟨_, defaults, _, DiskAction.adapt_eq_ok_iff.mp made, told,
    DiskAction.adapt_eq_ok_iff.mp defaultsWritten, DiskAction.adapt_eq_ok_iff.mp documentWritten,
    found, DiskAction.adapt_eq_ok_iff.mp seeding⟩

theorem exists_stages_of_build (keeps : options.renew = false) {archive? : Option Path}
    (ran : build home layout options archive? disk = (.ok result, after)) :
    ∃ folders defaults documents, layout.makeFolders disk = (.ok (), folders) ∧
      layout.initialConfig home options = .ok result.config ∧
      writeDocument layout.defaults Resource.defaultsText false folders = (.ok (), defaults) ∧
      writeDocument layout.document result.config.document false defaults = (.ok (), documents) ∧
      result.config.componentsFolder home layout.workspace = .ok result.componentsFolder ∧
      makeComponents result.componentsFolder options.seedExamples documents =
        (.ok result.seeded, after) := by
  have stages := exists_steps_of_build ran
  rw [keeps] at stages
  exact stages

theorem exists_steps_of_initialise
    (ran : initialise home stamp workspace options disk = (.ok result, after)) :
    ∃ layout archive? middle, resolve home disk (some workspace) none = .ok layout ∧
      (options.renew = false → archive? = none ∧ middle = disk) ∧
      build home layout options archive? middle = (.ok result, after) := by
  rw [initialise_eq] at ran
  obtain ⟨layout, same, checked, archived⟩ := DiskAction.exists_of_bind_eq_ok ran
  obtain ⟨resolved, rfl⟩ := DiskAction.check_eq_ok_iff.mp (DiskAction.adapt_eq_ok_iff.mp checked)
  obtain ⟨archive?, middle, archiving, built⟩ := DiskAction.exists_of_bind_eq_ok archived
  refine ⟨layout, archive?, middle, resolved, fun keeps => ?_, built⟩
  rw [keeps] at archiving
  cases archiving
  exact ⟨rfl, rfl⟩

theorem exists_build_of_initialise (keeps : options.renew = false)
    (ran : initialise home stamp workspace options disk = (.ok result, after)) :
    ∃ layout, resolve home disk (some workspace) none = .ok layout ∧
      build home layout options none disk = (.ok result, after) := by
  obtain ⟨layout, _, _, resolved, nothing, built⟩ := exists_steps_of_initialise ran
  obtain ⟨rfl, rfl⟩ := nothing keeps
  exact ⟨layout, resolved, built⟩

end Layout

end DocComponents
