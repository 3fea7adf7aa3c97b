import DocComponents.Log
import DocComponents.Proofs.Text.Capital
import DocComponents.Proofs.Workspace.Agreement

/-!
# The log level of a new workspace

Making a workspace takes any text for its log level and writes it down in capitals. What uses the
workspace reads the text back and asks for the threshold of that name, and does not start without
one. So a new workspace can be used exactly when the text that was named is the name of a threshold.
-/

set_option autoImplicit false

namespace DocComponents

/-! ## Names of thresholds -/

theorem Log.exists_threshold_iff {name : Text} :
    (∃ number, Log.threshold name = .ok number) ↔
      Text.capitals (Text.trim name) ∈ Log.thresholds.map Prod.fst := by
  have known : (Log.thresholds.lookup (Text.capitals (Text.trim name))).isSome ↔
      Text.capitals (Text.trim name) ∈ Log.thresholds.map Prod.fst := by
    rw [List.lookup_isSome_iff, List.mem_map]
    constructor
    · rintro ⟨entry, member, same⟩
      exact ⟨entry, member, (beq_iff_eq.mp same).symm⟩
    · rintro ⟨entry, member, same⟩
      exact ⟨entry, member, beq_iff_eq.mpr same.symm⟩
  rw [← known]
  unfold Log.threshold
  rw [if_neg Bool.false_ne_true]
  cases Log.thresholds.lookup (Text.capitals (Text.trim name)) with
  | none => simp
  | some number => simp

/-- Writing a log level down does not change which threshold it names. -/
theorem Config.capitals_trim_levelOf (written : Text) :
    Text.capitals (Text.trim (levelOf written)) = Text.capitals (Text.trim written) := by
  have trimmed : Text.trim (levelOf written) = Text.capitals (Text.trim written) := by
    rw [levelOf, Text.trim, Text.trimBoth_capitals fun _ blank => blank]
    exact congrArg _ (Text.trim_trimBoth (fun _ => Text.isBlank_of_isSpace) written)
  rw [trimmed, Text.capitals_capitals]

namespace Layout

variable {home stamp : Text} {disk after : Disk} {layout : Layout} {workspace : Path}
  {options : InitialOptions} {result : Initial}

/-! ## What a new workspace says -/

/-- The document of a workspace is the one that was written, unless an earlier one was kept. -/
theorem documentLayer_of_new (tree : disk.IsTree)
    (resolved : resolve home disk (some workspace) none = .ok layout)
    (missing : options.renew = false → disk.pathExists layout.document = .ok false)
    (ran : initialise home stamp workspace options disk = (.ok result, after)) :
    layout.documentLayer after = .ok result.config.entries := by
  cases renew : options.renew with
  | false =>
      rcases documentLayer_cases_of_initialise renew tree resolved ran with
        ⟨stands, -⟩ | ⟨-, written⟩
      · exact absurd (missing renew) stands
      · exact written
  | true =>
      -- Made anew, the document is written whatever stood there, so the archive does not matter.
      obtain ⟨_, _, middle, again, -, built⟩ := exists_steps_of_initialise ran
      obtain rfl := Except.ok.inj (resolved.symm.trans again)
      obtain ⟨_, defaults, documents, -, -, -, written, -, filled⟩ := exists_steps_of_build built
      rw [renew] at written
      have wrote : DiskAction.writeText layout.document result.config.document defaults =
          (.ok (), documents) := written
      have late := grows_makeComponents result.componentsFolder options.seedExamples documents
      rw [filled] at late
      exact documentLayer_of_writeText (DiskAction.changeAt_eq_ok_iff.mp wrote) late

/-- A new workspace says in its document what it was made with. -/
theorem loadConfig_of_new {environment : Environment}
    (layered : options.environment = Config.logLevelLayer environment) (tree : disk.IsTree)
    (resolved : resolve home disk (some workspace) none = .ok layout)
    (missing : options.renew = false → disk.pathExists layout.document = .ok false)
    (ran : initialise home stamp workspace options disk = (.ok result, after)) :
    ∃ workspace, layout.loadConfig home after [] [] =
      .ok
        { workspace
          logLevel := Config.levelOf
            (((namedLevel? environment options.logLevel?).map Config.levelOf).getD
              Config.defaultLevel)
          components := {} } := by
  obtain ⟨_, _, _, again, -, built⟩ := exists_steps_of_initialise ran
  obtain rfl := Except.ok.inj (resolved.symm.trans again)
  obtain ⟨_, _, _, -, told, -⟩ := exists_steps_of_build built
  obtain ⟨located, -, -⟩ :=
    Config.ofLayers_eq_ok_iff.mp ((initialConfig_eq layered).symm.trans told)
  have config := Except.ok.inj (told.symm.trans (initialConfig_of_homePath layered located))
  have components : result.config.components = {} := by rw [config]
  refine ⟨result.config.workspace, loadConfig_eq_ok_iff.mpr
    ⟨_, documentLayer_of_new tree resolved missing ran, ?_⟩⟩
  refine (Config.ofLayers_entries located components).trans ?_
  rw [config]

/-! ## Starting -/

/-- What uses a new workspace finds a configuration in it, and starts exactly when the log level
that was named at its making, if any was, is the name of a threshold. -/
theorem new_workspace_starts_iff {environment : Environment}
    (layered : options.environment = Config.logLevelLayer environment) (tree : disk.IsTree)
    (resolved : resolve home disk (some workspace) none = .ok layout)
    (missing : options.renew = false → disk.pathExists layout.document = .ok false)
    (ran : initialise home stamp workspace options disk = (.ok result, after)) :
    ∃ config, layout.loadConfig home after [] [] = .ok config ∧
      ((∃ number, Log.threshold config.logLevel config.components.debugMode = .ok number) ↔
        ∀ level ∈ namedLevel? environment options.logLevel?,
          Text.capitals (Text.trim level) ∈ Log.thresholds.map Prod.fst) := by
  obtain ⟨found, loaded⟩ := loadConfig_of_new layered tree resolved missing ran
  refine ⟨_, loaded, Log.exists_threshold_iff.trans ?_⟩
  dsimp only
  rw [Config.capitals_trim_levelOf]
  cases namedLevel? environment options.logLevel? with
  | none =>
      have known : Text.capitals (Text.trim Config.defaultLevel) ∈
          Log.thresholds.map Prod.fst := by decide +kernel
      simpa using known
  | some level => simp [Config.capitals_trim_levelOf]

def bareDisk : Disk where
  entries := .empty
  now := 0

/-- A level in small letters with blanks around it is the name of a threshold. -/
theorem new_workspace_starts_iff_padded :
    let options : InitialOptions := { logLevel? := some " warn\t".toList, seedExamples := false }
    ∃ config,
      Layout.loadConfig ['/'] ⟨documentWorkspace⟩
        (initialise ['/'] [] documentWorkspace options bareDisk).2 [] [] = .ok config ∧
      ∃ number, Log.threshold config.logLevel config.components.debugMode = .ok number := by
  intro options
  have answers : (initialise ['/'] [] documentWorkspace options bareDisk).1.isOk = true := by
    decide +kernel
  have layered : options.environment = Config.logLevelLayer [] := rfl
  have resolved : resolve ['/'] bareDisk (some documentWorkspace) none =
      .ok ⟨documentWorkspace⟩ := by
    decide +kernel
  have missing : options.renew = false →
      bareDisk.pathExists (Layout.mk documentWorkspace).document = .ok false := by
    decide +kernel
  obtain ⟨result, after, ran⟩ := DiskAction.exists_of_isOk answers
  obtain ⟨config, loaded, starts⟩ :=
    new_workspace_starts_iff layered (by decide +kernel) resolved missing ran
  rw [ran]
  refine ⟨config, loaded, starts.mpr fun level named => ?_⟩
  cases named
  decide +kernel

/-- A level that is no threshold is written down, and what uses the workspace refuses it. -/
theorem new_workspace_refused :
    let options : InitialOptions := { logLevel? := some "verbose".toList, seedExamples := false }
    let ran := initialise ['/'] [] documentWorkspace options bareDisk
    ran.1.isOk = true ∧
      (Layout.loadConfig ['/'] ⟨documentWorkspace⟩ ran.2 [] []).toOption.map
        (fun config => Log.threshold config.logLevel config.components.debugMode) =
          some (.error ⟨"VERBOSE".toList⟩) := by
  decide +kernel

end Layout

end DocComponents
