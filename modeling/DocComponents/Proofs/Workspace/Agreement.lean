import DocComponents.Proofs.Config.Layers
import DocComponents.Proofs.Text.Lines
import DocComponents.Proofs.Text.Utf8
import DocComponents.Proofs.Workspace.Initial
import DocComponents.Workspace.Loading

/-!
# Making and using a workspace

A workspace that is not made anew keeps its configuration document, and what uses the workspace
reads it. What makes the workspace lays its configuration together without the document, so the two
agree exactly when the document says nothing else than the defaults.
-/

set_option autoImplicit false

namespace DocComponents.Layout

variable {home stamp : Text} {disk middle after : Disk} {layout : Layout} {workspace : Path}
  {options : InitialOptions} {result : Initial} {table : Table}

/-- The layer of a command line that may name a log level. An empty name counts as none. -/
def flagLayer (logLevel? : Option Text) : Table :=
  Config.textLayer Config.logLevelField (logLevel?.filter (!·.isEmpty))

/-- The log level that the command line names, or else the environment. -/
def namedLevel? (environment : Environment) (logLevel? : Option Text) : Option Text :=
  (logLevel?.filter (!·.isEmpty)).or (Config.valueOf? environment Config.logLevelVariable)

theorem documentLayer_eq_ok_iff :
    layout.documentLayer disk = .ok table ↔
      disk.pathExists layout.document = .ok false ∧ table = [] ∨
        disk.pathExists layout.document = .ok true ∧
          ∃ text, disk.readText layout.document = .ok text ∧ Toml.read text = some table := by
  unfold documentLayer
  cases stands : disk.pathExists layout.document with
  | error fault => simp
  | ok answer =>
      cases answer with
      | false => simp [eq_comm]
      | true =>
          cases read : disk.readText layout.document with
          | error fault => cases fault <;> simp
          | ok text => cases parsed : Toml.read text <;> simp [parsed]

theorem documentLayer_of_grows {fresh : List Text → Prop} (grows : disk.Grows fresh after)
    (stands : disk.pathExists layout.document = .ok true)
    (loaded : layout.documentLayer disk = .ok table) : layout.documentLayer after = .ok table := by
  rcases documentLayer_eq_ok_iff.mp loaded with ⟨missing, -⟩ | ⟨-, text, read, parsed⟩
  · cases missing.symm.trans stands
  · exact documentLayer_eq_ok_iff.mpr
      (.inr ⟨grows.pathExists_eq_true stands, text, grows.readText_eq_ok read, parsed⟩)

/-- The document of a configuration is loaded as its entries once it was written. -/
theorem documentLayer_of_writeText {config : Config} {fresh : List Text → Prop}
    (written : disk.writeText layout.document config.document = .ok middle)
    (grows : middle.Grows fresh after) : layout.documentLayer after = .ok config.entries := by
  obtain ⟨place, located, stood⟩ := Disk.exists_file_of_writeFile written
  have reached := grows.place_eq_ok located
  have stands := grows.entryAt?_eq_some stood
  refine documentLayer_eq_ok_iff.mpr (.inr ⟨Disk.pathExists_of_stands reached stands,
    config.document, ?_, Config.read_document config true⟩)
  have noReturn : '\r' ∉ config.document :=
    Toml.carriageReturn_not_mem_writeLines fun _ => Config.isPlain_of_mem_lines
  simp only [Disk.readText, Disk.readBytes, reached, bind, Except.bind, stands,
    Utf8.decode_encode, Text.universalNewlines_of_not_mem noReturn]

theorem loadConfig_eq_ok_iff {environment commandLine : Table} {config : Config} :
    layout.loadConfig home disk environment commandLine = .ok config ↔
      ∃ document, layout.documentLayer disk = .ok document ∧
        Config.ofLayers home [Config.defaultsLayer, document, environment,
          layout.withWorkspace commandLine] = .ok config := by
  unfold loadConfig
  cases layout.documentLayer disk with
  | error fault => simp [bind, Except.bind]
  | ok document => simp [bind, Except.bind, mapError_eq_ok_iff]

theorem initialConfig_eq {environment : Environment}
    (layered : options.environment = Config.logLevelLayer environment) :
    layout.initialConfig home options =
      Config.ofLayers home (Config.layers [] (Config.valueOf? environment Config.logLevelVariable)
        (options.logLevel?.filter (!·.isEmpty)) layout) := by
  have merged : Table.merge [Config.defaultsLayer, options.environment,
      layout.commandLayer options.logLevel?] =
        Table.merge (Config.layers [] (Config.valueOf? environment Config.logLevelVariable)
          (options.logLevel?.filter (!·.isEmpty)) layout) := by
    simp only [Table.merge, Config.layers, List.foldl_cons, List.foldl_nil, Table.overlay_nil,
      layered]
    rfl
  rw [initialConfig, Config.ofLayers, Config.ofLayers, merged]

theorem initialConfig_of_homePath {environment : Environment} {path : Path}
    (layered : options.environment = Config.logLevelLayer environment)
    (located : Field.homePath home (.text layout.workspace.toText) = .ok (.ok path)) :
    layout.initialConfig home options =
      .ok
        { workspace := path
          logLevel :=
            ((namedLevel? environment options.logLevel?).map Config.levelOf).getD
              Config.defaultLevel
          components := {} } := by
  rw [initialConfig_eq layered, Config.ofLayers_of_named (Config.ofLayers_of_no_document located)]
  rfl

theorem componentsFolder_default {config : Config} {names : List Text}
    (components : config.components = {}) (located : layout.workspace = ['/'] :: names) :
    config.componentsFolder home layout.workspace =
      .ok (['/'] :: (names ++ ["components".toList])) := by
  rw [Config.componentsFolder, components, located]
  rfl

private theorem up_not_mem_concat {names : List Text} {name : Text} (noUp : Path.up ∉ names)
    (notUp : name ≠ Path.up) : Path.up ∉ names ++ [name] := by
  simp [noUp, Ne.symm notUp]

/-- Nothing that is made before the document of a workspace is the document. -/
private theorem grows_beside_document {names : List Text} {folders defaults : Disk}
    (located : layout.workspace = ['/'] :: names) (noUp : Path.up ∉ names)
    (made : layout.makeFolders disk = (.ok (), folders))
    (written : writeDocument layout.defaults Resource.defaultsText false folders =
      (.ok (), defaults)) :
    disk.Grows (fun place => place ≠ names ++ [Config.documentName]) defaults := by
  have path : layout.defaults = ['/'] :: (names ++ [Resource.defaultsName]) := by
    simp [Layout.defaults, located]
  have notFolder {name : Text} (apart : Config.documentName ≠ name) :
      ¬ names ++ [Config.documentName] <+: names ++ [name] := by
    intro isAbove
    have same := List.append_cancel_left (isAbove.eq_of_length (by simp))
    exact apart (List.singleton_inj.mp same)
  have first := grows_makeFolders located noUp disk
  have second := grows_writeDocument layout.defaults Resource.defaultsText folders
  rw [made] at first
  rw [written] at second
  refine (first.mono ?_).trans (second.mono ?_)
  · rintro place (isAbove | isAbove) rfl
    · exact notFolder (by decide) isAbove
    · exact notFolder (by decide) isAbove
  · intro place reached same
    rw [path] at reached
    have other := Disk.place_straight (up_not_mem_concat noUp (by decide)) reached
    exact absurd (List.append_cancel_left (same.symm.trans other)) (by decide)

/-- What making a workspace leaves of its document: the one that was there, or the one that it
wrote. -/
theorem documentLayer_cases_of_initialise (keeps : options.renew = false) (tree : disk.IsTree)
    (resolved : resolve home disk (some workspace) none = .ok layout)
    (ran : initialise home stamp workspace options disk = (.ok result, after)) :
    (disk.pathExists layout.document ≠ .ok false ∧
      ∀ table, layout.documentLayer disk = .ok table → layout.documentLayer after = .ok table) ∨
    (disk.pathExists layout.document ≠ .ok true ∧
      layout.documentLayer after = .ok result.config.entries) := by
  obtain ⟨_, again, built⟩ := exists_build_of_initialise keeps ran
  obtain rfl := Except.ok.inj (resolved.symm.trans again)
  obtain ⟨folders, defaults, documents, made, -, defaultsWritten, documentWritten, -,
    filled⟩ := exists_stages_of_build keeps built
  obtain ⟨names, located, noUp⟩ := exists_names_of_resolve resolved
  have document : layout.document = ['/'] :: (names ++ [Config.documentName]) := by
    simp [Layout.document, located]
  have early := grows_beside_document located noUp made defaultsWritten
  have late : documents.Grows (fun _ => True) after := by
    have last := grows_makeComponents result.componentsFolder options.seedExamples documents
    rw [filled] at last
    exact last
  rcases writeDocument_cases documentWritten with ⟨stands, rfl⟩ | ⟨missing, written⟩
  · have stood : disk.pathExists layout.document ≠ .ok false := by
      intro missing
      rw [document] at missing stands
      exact early.pathExists_ne_true tree (up_not_mem_concat noUp (by decide))
        (fun apart => apart rfl) missing stands
    refine .inl ⟨stood, fun table loaded => ?_⟩
    rcases documentLayer_eq_ok_iff.mp loaded with ⟨missing, -⟩ | ⟨standing, -⟩
    · exact absurd missing stood
    · exact documentLayer_of_grows ((early.mono fun _ _ => trivial).trans late) standing loaded
  · refine .inr ⟨?_, documentLayer_of_writeText written late⟩
    intro standing
    cases missing.symm.trans (early.pathExists_eq_true standing)

theorem documentLayer_of_initialise (keeps : options.renew = false) (tree : disk.IsTree)
    (resolved : resolve home disk (some workspace) none = .ok layout)
    (loaded : layout.documentLayer disk = .ok table)
    (ran : initialise home stamp workspace options disk = (.ok result, after)) :
    layout.documentLayer after = .ok table ∨
      table = [] ∧ layout.documentLayer after = .ok result.config.entries := by
  rcases documentLayer_cases_of_initialise keeps tree resolved ran with
    ⟨-, kept⟩ | ⟨missing, written⟩
  · exact .inl (kept table loaded)
  · rcases documentLayer_eq_ok_iff.mp loaded with ⟨-, empty⟩ | ⟨standing, -⟩
    · exact .inr ⟨empty, written⟩
    · exact absurd standing missing

theorem loadConfig_of_document {environment : Environment} {config : Config}
    (layered : options.environment = Config.logLevelLayer environment)
    (loaded : layout.documentLayer disk = .ok table)
    (plain : Config.ofLayers home (Config.layers table none none layout) = .ok config) :
    layout.loadConfig home disk options.environment (flagLayer options.logLevel?) =
      .ok { config with
        logLevel :=
          ((namedLevel? environment options.logLevel?).map Config.levelOf).getD
            config.logLevel } := by
  rw [layered]
  exact loadConfig_eq_ok_iff.mpr ⟨table, loaded, Config.ofLayers_of_named plain _ _⟩

/-- Making a workspace and using it agree on the configuration exactly when the workspace, as it was
found, has the settings by default, and its log level is the one by default or is named by the
command line or the environment. -/
theorem initialise_agrees_iff {environment : Environment} {known : Config}
    (keeps : options.renew = false)
    (layered : options.environment = Config.logLevelLayer environment) (tree : disk.IsTree)
    (resolved : resolve home disk (some workspace) none = .ok layout)
    (found : layout.loadConfig home disk [] [] = .ok known)
    (ran : initialise home stamp workspace options disk = (.ok result, after)) :
    ∃ loaded, layout.loadConfig home after options.environment (flagLayer options.logLevel?) =
        .ok loaded ∧
      result.config.componentsFolder home layout.workspace = .ok result.componentsFolder ∧
      (loaded = result.config ↔ known.components = {} ∧
        ((namedLevel? environment options.logLevel?).isSome ∨
          known.logLevel = Config.defaultLevel)) := by
  obtain ⟨_, again, built⟩ := exists_build_of_initialise keeps ran
  obtain rfl := Except.ok.inj (resolved.symm.trans again)
  obtain ⟨-, -, -, -, told, -, -, folder, -⟩ := exists_stages_of_build keeps built
  obtain ⟨document, loaded, plain⟩ := loadConfig_eq_ok_iff.mp found
  have knownPlain : Config.ofLayers home (Config.layers document none none layout) = .ok known :=
    plain
  obtain ⟨located, -, -⟩ := Config.ofLayers_eq_ok_iff.mp knownPlain
  have config := Except.ok.inj (told.symm.trans (initialConfig_of_homePath layered located))
  have components : result.config.components = {} := by rw [config]
  rcases documentLayer_of_initialise keeps tree resolved loaded ran with
    kept | ⟨empty, written⟩
  · refine ⟨_, loadConfig_of_document layered kept knownPlain, folder, ?_⟩
    rw [config]
    cases namedLevel? environment options.logLevel? with
    | some level => simp
    | none => simp [and_comm]
  · subst empty
    have knownDefault := Config.ofLayers_of_no_document located
    rw [knownPlain] at knownDefault
    have sameWorkspace : result.config.workspace = known.workspace := by rw [config]
    rw [← sameWorkspace] at located
    have writtenPlain := Config.ofLayers_entries located components
    refine ⟨_, loadConfig_of_document layered written writtenPlain, folder, ?_⟩
    have noChange : Config.levelOf Config.defaultLevel = Config.defaultLevel := by decide +kernel
    rw [Except.ok.inj knownDefault, config]
    cases namedLevel? environment options.logLevel? with
    | some level => simp
    | none => simp [noChange]

def documentDisk (document : Text) : Disk :=
  { entries := SortedMap.empty.insertAll
      [(["ws".toList], .folder),
        (["ws".toList, Config.documentName], .file (Utf8.encode document) 1)]
    now := 2 }

def documentWorkspace : Path :=
  [['/'], "ws".toList]

/-- The environment names the level, so a level in the document does no harm. -/
theorem initialise_agrees_iff_level_named :
    let environment : Environment := [(Config.logLevelVariable, "debug".toList)]
    let options : InitialOptions :=
      { environment := Config.logLevelLayer environment, seedExamples := false }
    let disk := documentDisk "log_level = \"ERROR\"\n".toList
    ∃ result after, initialise ['/'] [] documentWorkspace options disk = (.ok result, after) ∧
      result.config.logLevel = "DEBUG".toList ∧
      Layout.loadConfig ['/'] ⟨documentWorkspace⟩ after options.environment
        (flagLayer options.logLevel?) = .ok result.config := by
  intro environment options disk
  let result : Initial :=
    { config := { workspace := documentWorkspace, logLevel := "DEBUG".toList, components := {} }
      componentsFolder := documentWorkspace ++ ["components".toList]
      seeded := []
      archive? := none }
  let known : Config :=
    { workspace := documentWorkspace, logLevel := "ERROR".toList, components := {} }
  have answered : (initialise ['/'] [] documentWorkspace options disk).1 = .ok result := by
    decide +kernel
  have ran : initialise ['/'] [] documentWorkspace options disk =
      (.ok result, (initialise ['/'] [] documentWorkspace options disk).2) := by
    rw [← answered, Prod.eta]
  have found : Layout.loadConfig ['/'] ⟨documentWorkspace⟩ disk [] [] = .ok known := by
    decide +kernel
  have layered : options.environment = Config.logLevelLayer environment := rfl
  have resolved : resolve ['/'] disk (some documentWorkspace) none = .ok ⟨documentWorkspace⟩ := by
    decide +kernel
  obtain ⟨loaded, read, -, agrees⟩ :=
    initialise_agrees_iff rfl layered (by decide +kernel) resolved found ran
  have same : loaded = result.config := agrees.mpr ⟨rfl, .inl (by decide +kernel)⟩
  exact ⟨result, _, ran, rfl, same ▸ read⟩

/-- A document that names another folder of components is passed over when its workspace is made
once more. -/
theorem initialise_passes_over_document :
    let options : InitialOptions := { seedExamples := false }
    let ran := initialise ['/'] [] documentWorkspace options
      (documentDisk "[components]\nfolder = \"mine\"\n".toList)
    ran.1.toOption.map (·.componentsFolder) = some (documentWorkspace ++ ["components".toList]) ∧
      (Layout.loadConfig ['/'] ⟨documentWorkspace⟩ ran.2 [] []).toOption.map
        (fun config => config.componentsFolder ['/'] documentWorkspace) =
          some (.ok (documentWorkspace ++ ["mine".toList])) := by
  decide +kernel

end DocComponents.Layout
