import DocComponents.Proofs.Config.Layers
import DocComponents.Proofs.File.Path
import DocComponents.Proofs.Text.Capital

/-!
# Configurations that are read back

What a check has made of a value passes the check unchanged, so a written configuration is read back
with all its settings and its log level. The path of the workspace is an exception: blanks are taken
away from its text before the text is read as a path, and what is left of the text in reading may
have blanks at its ends again.
-/

set_option autoImplicit false

namespace DocComponents

/-! ### Checks -/

/-- Values that have passed a check, written as data, pass it unchanged. -/
def IsSettled {α : Type} (check : Data → Except FieldFault α) (write : α → Data) : Prop :=
  ∀ value checked, check value = .ok checked → check (write checked) = .ok checked

namespace Field

theorem isSettled_bool : IsSettled bool .bool := by
  intro value checked _
  rfl

theorem isSettled_displayMode : IsSettled displayMode fun mode => .text mode.name := by
  intro value mode _
  cases mode <;> rfl

theorem isSettled_text : IsSettled text .text := by
  intro value checked passed
  cases value with
  | text written =>
      cases passed
      exact congrArg Except.ok (Text.trimBoth_trimBoth Text.isSpace written)
  | _ => cases passed

theorem isSettled_folder : IsSettled folder .text := by
  intro value checked passed
  cases trimmed : text value with
  | error fault =>
      rw [folder, trimmed] at passed
      cases passed
  | ok written =>
      have again := isSettled_text value written trimmed
      cases written with
      | nil =>
          rw [folder, trimmed] at passed
          cases passed
          rfl
      | cons first rest =>
          rw [folder, trimmed] at passed
          cases passed
          rw [folder, again]

theorem isSettled_scriptRuntime : IsSettled scriptRuntime .text := by
  intro value checked passed
  have named : checked = ScriptRuntime.inProcess.name ∨ checked = ScriptRuntime.embedding.name := by
    unfold scriptRuntime at passed
    split at passed
    · cases passed
    · split at passed
      · next runtime known =>
          cases passed
          unfold ScriptRuntime.ofName at known
          dsimp only at known
          split at known
          · cases known
            exact .inl rfl
          · split at known
            · cases known
              exact .inr rfl
            · cases known
      · cases passed
  rcases named with rfl | rfl <;> rfl

theorem isSettled_logLevel : IsSettled logLevel .text := by
  intro value checked passed
  cases trimmed : text value with
  | error fault =>
      rw [logLevel, trimmed] at passed
      cases passed
  | ok written =>
      have again := isSettled_text value written trimmed
      rw [logLevel, trimmed] at passed
      cases passed
      have same : text (.text (Text.capitals written)) = .ok (Text.capitals written) := by
        have trimmed := Text.trimBoth_capitals (fun _ => Text.isBlank_of_isSpace) written
        exact congrArg Except.ok (trimmed.trans (congrArg Text.capitals (Except.ok.inj again)))
      rw [logLevel, same]
      exact congrArg Except.ok (Text.capitals_capitals written)

variable {α : Type} {check : Data → Except FieldFault α} {write : α → Data} {default checked : α}
  {table : Table} {name : Text}

/-- A field that was read passes its check when it is written, if the default does. -/
theorem check_of_read (settled : IsSettled check write)
    (byDefault : check (write default) = .ok default)
    (passed : read table name default check = .ok checked) :
    check (write checked) = .ok checked := by
  unfold read at passed
  split at passed
  · cases passed
    exact byDefault
  · split at passed
    · next passes =>
        cases passed
        exact settled _ _ passes
    · cases passed

theorem read_of_lookup {value : Data} (found : table.lookup name = some value)
    (passed : check value = .ok checked) : read table name default check = .ok checked := by
  rw [read, found]
  dsimp only
  rw [passed]

end Field

/-! ### Settings -/

namespace Settings

variable {table : Table} {settings : Settings}

/-- What the checks of the fields say of settings that a table gives. -/
structure IsRead (table : Table) (settings : Settings) : Prop where
  folder : Field.read table "folder".toList ({} : Settings).folder Field.folder =
    .ok settings.folder
  liveReload : Field.read table "live_reload".toList true Field.bool = .ok settings.liveReload
  enableScripts : Field.read table "enable_scripts".toList true Field.bool =
    .ok settings.enableScripts
  debugMode : Field.read table "debug_mode".toList false Field.bool = .ok settings.debugMode
  displayMode : Field.read table "display_mode".toList .inline Field.displayMode =
    .ok settings.displayMode
  scriptRuntime : Field.read table "script_runtime".toList ({} : Settings).scriptRuntime
    Field.scriptRuntime = .ok settings.scriptRuntime

theorem ofEntries_eq_ok_iff : ofEntries table = .ok settings ↔ IsRead table settings := by
  constructor
  · intro found
    unfold ofEntries at found
    dsimp only at found
    split at found
    · next folder liveReload enableScripts debugMode displayMode scriptRuntime =>
        cases found
        exact ⟨folder, liveReload, enableScripts, debugMode, displayMode, scriptRuntime⟩
    · cases found
  · intro fields
    simp only [ofEntries, fields.folder, fields.liveReload, fields.enableScripts, fields.debugMode,
      fields.displayMode, fields.scriptRuntime]

theorem ofData_eq_ok_iff {value : Data} :
    ofData value = .ok settings ↔
      ∃ entries, value.entries? = some entries ∧ ofEntries entries = .ok settings := by
  unfold ofData
  split
  · next entries given => simp [given]
  · next given => simp [given]

theorem IsRead.settingsEntries (fields : IsRead table settings) :
    IsRead (Config.settingsEntries settings) settings where
  folder := Field.read_of_lookup rfl (Field.check_of_read Field.isSettled_folder rfl fields.folder)
  liveReload :=
    Field.read_of_lookup rfl (Field.check_of_read Field.isSettled_bool rfl fields.liveReload)
  enableScripts :=
    Field.read_of_lookup rfl (Field.check_of_read Field.isSettled_bool rfl fields.enableScripts)
  debugMode :=
    Field.read_of_lookup rfl (Field.check_of_read Field.isSettled_bool rfl fields.debugMode)
  displayMode :=
    Field.read_of_lookup rfl
      (Field.check_of_read Field.isSettled_displayMode rfl fields.displayMode)
  scriptRuntime :=
    Field.read_of_lookup rfl
      (Field.check_of_read Field.isSettled_scriptRuntime rfl fields.scriptRuntime)

/-- Settings that were read are read from their entries again. -/
theorem ofEntries_settingsEntries (found : Config.readComponents table = .ok settings) :
    ofEntries (Config.settingsEntries settings) = .ok settings := by
  unfold Config.readComponents at found
  split at found
  · cases found
    rfl
  · next value _ =>
      have given : ofData value = .ok settings := by
        unfold Field.settings at found
        cases read : ofData value with
        | error faults =>
            rw [read] at found
            cases found
        | ok other =>
            rw [read] at found
            cases found
            rfl
      obtain ⟨entries, -, read⟩ := ofData_eq_ok_iff.mp given
      exact ofEntries_eq_ok_iff.mpr (ofEntries_eq_ok_iff.mp read).settingsEntries

end Settings

/-! ### Workspaces -/

namespace Config

variable {home : Text} {table : Table} {config : Config} {workspace : Path}

theorem exists_expandHome_of_readWorkspace
    (found : readWorkspace home table = .ok (.ok workspace)) :
    ∃ path : Path, path.IsWritten ∧ path.expandHome home = .ok workspace := by
  unfold readWorkspace at found
  split at found
  · cases expanded : defaultWorkspace.expandHome home with
    | error fault =>
        rw [expanded] at found
        cases found
    | ok path =>
        rw [expanded] at found
        cases found
        exact ⟨defaultWorkspace, by decide, expanded⟩
  · next value _ =>
      unfold Field.homePath at found
      split at found
      · cases found
      · next path isPath =>
          have written : path.IsWritten := by
            cases value with
            | text written =>
                cases isPath
                exact Path.isWritten_ofText _
            | _ => cases isPath
          split at found
          · next expanded =>
              cases found
              exact ⟨path, written, expanded⟩
          · cases found
          · cases found

/-- Trimming the text of a workspace leaves the path as it is, or it changes the text. -/
theorem expandHome_trim_iff (rooted : Path.IsRooted home) {path : Path} (written : path.IsWritten)
    (expanded : path.expandHome home = .ok workspace) :
    (Path.ofText (Text.trimBoth Text.isSpace workspace.toText)).expandHome home = .ok workspace ↔
      Text.trimBoth Text.isSpace workspace.toText = workspace.toText := by
  have isWritten := Path.isWritten_expandHome written expanded
  constructor
  · intro found
    have same : workspace = Path.ofText (Text.trimBoth Text.isSpace workspace.toText) := by
      rcases Path.expandHome_cases rooted found with same | ⟨root, parts, absolute⟩
      · exact same
      · obtain ⟨text, slash⟩ := Path.exists_toText_slash root parts
        have plain : Text.isSpace '/' = false := by decide
        obtain ⟨rest, trimmed⟩ := Text.exists_trimBoth_cons plain text
        rw [absolute, slash, trimmed, Path.expandHome_ofText_slash] at found
        rw [absolute, slash, trimmed]
        exact (Except.ok.inj found).symm
    have notEmpty : Text.trimBoth Text.isSpace workspace.toText ≠ [] := by
      -- No text at all is the path of a single dot, and trimming leaves a dot.
      intro empty
      rw [empty] at same
      rw [same] at empty
      cases empty
    have short := Path.length_toText_ofText_le notEmpty
    rw [← same] at short
    exact Text.trimBoth_eq_of_length_le short
  · intro trimmed
    rw [trimmed, isWritten]
    exact Path.expandHome_of_expandHome rooted expanded

theorem homePath_text_eq_ok_iff {written : Text} :
    Field.homePath home (.text written) = .ok (.ok workspace) ↔
      (Path.ofText (Text.trimBoth Text.isSpace written)).expandHome home = .ok workspace := by
  have isPath : Field.path (.text written) =
      .ok (Path.ofText (Text.trimBoth Text.isSpace written)) := rfl
  rw [Field.homePath, isPath]
  dsimp only
  cases (Path.ofText (Text.trimBoth Text.isSpace written)).expandHome home with
  | ok path => simp
  | error fault => cases fault <;> simp

/-! ### Documents -/

/-- The entries of a configuration give its settings and its log level, and as workspace the path
that is left of its text. -/
theorem ofLayers_entries_eq_ok_iff {layers : List Table} {other : Config}
    (found : ofLayers home layers = .ok config) :
    ofLayers home [config.entries] = .ok other ↔
      (Path.ofText (Text.trimBoth Text.isSpace config.workspace.toText)).expandHome home =
          .ok other.workspace ∧
        other.logLevel = config.logLevel ∧ other.components = config.components := by
  obtain ⟨-, level, components⟩ := ofTable_eq_ok_iff.mp found
  have readLevel : Field.read (Table.merge [config.entries]) logLevelField defaultLevel
      Field.logLevel = .ok config.logLevel :=
    Field.read_of_lookup rfl (Field.check_of_read Field.isSettled_logLevel rfl level)
  have readAgain : readComponents (Table.merge [config.entries]) = .ok config.components := by
    have settings := Settings.ofEntries_settingsEntries components
    have entry : readComponents (Table.merge [config.entries]) =
        Field.settings componentsField (.table (settingsEntries config.components)) := rfl
    rw [entry, Field.settings, Settings.ofData, Data.entries?]
    dsimp only
    rw [settings]
    rfl
  have workspaceEntry : (Table.merge [config.entries]).lookup workspaceField =
      some (.text config.workspace.toText) := rfl
  rw [ofLayers, ofTable_eq_ok_iff, readWorkspace_eq_ok_iff workspaceEntry, homePath_text_eq_ok_iff,
    readLevel, readAgain, Except.ok.injEq, Except.ok.injEq, eq_comm (a := config.logLevel),
    eq_comm (a := config.components)]

/-- A configuration is read back from its document with its settings and its log level, whether or
not the document has comments. Its workspace is read back too, unless the text of it begins or ends
with white space. -/
theorem document_read_back_iff {layers : List Table} (found : ofLayers home layers = .ok config)
    (comments : Bool) :
    ∃ table, Toml.read (config.document comments) = some table ∧
      (∀ other, ofLayers home [table] = .ok other ↔
        (Path.ofText (Text.trimBoth Text.isSpace config.workspace.toText)).expandHome home =
            .ok other.workspace ∧
          other.logLevel = config.logLevel ∧ other.components = config.components) ∧
      (Path.IsRooted home →
        (ofLayers home [table] = .ok config ↔
          Text.trimBoth Text.isSpace config.workspace.toText = config.workspace.toText)) := by
  have readBack : ∀ other, ofLayers home [config.entries] = .ok other ↔
      (Path.ofText (Text.trimBoth Text.isSpace config.workspace.toText)).expandHome home =
          .ok other.workspace ∧
        other.logLevel = config.logLevel ∧ other.components = config.components :=
    fun other => ofLayers_entries_eq_ok_iff found
  refine ⟨config.entries, read_document config comments, readBack, ?_⟩
  intro rooted
  obtain ⟨workspace, -, -⟩ := ofTable_eq_ok_iff.mp found
  obtain ⟨path, written, expanded⟩ := exists_expandHome_of_readWorkspace workspace
  rw [readBack config, and_iff_left ⟨rfl, rfl⟩]
  exact expandHome_trim_iff rooted written expanded

/-- Quotes, backslashes, number signs and control characters come back. -/
theorem document_read_back_iff_quoted :
    let home := "/home/me".toList
    let layers : List Table :=
      [[(workspaceField, .text " ~/a \"b\" # \\c\n".toList),
        (logLevelField, .text "\tno level \u0001".toList),
        (componentsField, .table [("folder".toList, .text " # [x]\\".toList)])]]
    let config : Config :=
      { workspace := ["/".toList, "home".toList, "me".toList, "a \"b\" # \\c".toList]
        logLevel := "NO LEVEL \u0001".toList
        components := { folder := "# [x]\\".toList } }
    ofLayers home layers = .ok config ∧
      ∃ table, Toml.read (config.document true) = some table ∧
        ofLayers home [table] = .ok config := by
  intro home layers config
  have found : ofLayers home layers = .ok config := rfl
  obtain ⟨table, read, -, back⟩ := document_read_back_iff found true
  exact ⟨found, table, read, (back (.inr rfl)).mpr rfl⟩

/-- A space in front of the last slash is lost on the way back. -/
theorem document_read_back_loses_space :
    let home := "/home/me".toList
    let layers : List Table := [[(workspaceField, .text "/srv/ws /".toList)]]
    let config : Config :=
      { workspace := ["/".toList, "srv".toList, "ws ".toList]
        logLevel := defaultLevel
        components := {} }
    ofLayers home layers = .ok config ∧
      ∃ table, Toml.read (config.document true) = some table ∧
        ofLayers home [table] =
          .ok { config with workspace := ["/".toList, "srv".toList, "ws".toList] } ∧
        ofLayers home [table] ≠ .ok config := by
  intro home layers config
  have back : ofLayers home [config.entries] =
      .ok { config with workspace := ["/".toList, "srv".toList, "ws".toList] } := rfl
  refine ⟨rfl, config.entries, read_document config true, back, ?_⟩
  intro same
  have workspaces := congrArg workspace (Except.ok.inj (back.symm.trans same))
  exact absurd workspaces (by decide)

end Config

end DocComponents
