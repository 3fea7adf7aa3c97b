import DocComponents.Proofs.Config.Document
import DocComponents.Proofs.Data.Table
import DocComponents.Workspace.Loading

/-!
# Configurations from layers

A configuration depends on three entries of the merged layers. The environment and the command line
name the log level and the workspace only, so the settings come from the document and the defaults,
and the log level comes from there when neither of the two names one.
-/

set_option autoImplicit false

namespace DocComponents.Config

variable {home : Text} {table : Table} {config : Config}

theorem ofTable_eq_ok_iff :
    ofTable home table = .ok config ↔
      readWorkspace home table = .ok (.ok config.workspace) ∧
        Field.read table logLevelField defaultLevel Field.logLevel = .ok config.logLevel ∧
        readComponents table = .ok config.components := by
  obtain ⟨workspace, logLevel, components⟩ := config
  unfold ofTable
  cases readWorkspace home table with
  | error fault => simp
  | ok workspace? =>
      cases workspace? with
      | error fault => simp
      | ok found =>
          cases Field.read table logLevelField defaultLevel Field.logLevel with
          | error fault => simp
          | ok level =>
              cases readComponents table with
              | error faults => simp
              | ok settings => simp

theorem readWorkspace_eq_ok_iff {value : Data} {workspace : Path}
    (given : table.lookup workspaceField = some value) :
    readWorkspace home table = .ok (.ok workspace) ↔
      Field.homePath home value = .ok (.ok workspace) := by
  rw [readWorkspace, given]
  dsimp only
  cases Field.homePath home value with
  | error fault => simp [Except.map]
  | ok checked => cases checked <;> simp [Except.map, Except.mapError]

def defaultsLines : List Toml.Line :=
  [.comment "Packaged defaults for mdcomponents.".toList,
    .comment "Workspace files (mdcomponents.toml) override these values.".toList, .blank,
    .string logLevelField defaultLevel, .blank, .header componentsField] ++ settingsLines {}

theorem defaultsLayer_eq :
    defaultsLayer =
      [(logLevelField, .text defaultLevel), (componentsField, .table (settingsEntries {}))] := by
  have written : Resource.defaultsText = Toml.writeLines defaultsLines := by decide +kernel
  have plain : ∀ line ∈ defaultsLines, line.IsPlain := by decide
  rw [defaultsLayer, written, Toml.read_writeLines plain]
  rfl

def layers (document : Table) (environment? flag? : Option Text) (layout : Layout) : List Table :=
  [defaultsLayer, document, textLayer logLevelField environment?,
    layout.withWorkspace (textLayer logLevelField flag?)]

def levelOf (written : Text) : Text :=
  Text.capitals (Text.trimBoth Text.isSpace written)

def readLevel (document : Table) (named? : Option Text) : Except FaultAt Text :=
  match named? with
  | some written => .ok (levelOf written)
  | none =>
    Field.read (Table.merge [defaultsLayer, document]) logLevelField defaultLevel Field.logLevel

theorem readLevel_none (document : Table) :
    readLevel document none =
      Field.read (Table.merge [defaultsLayer, document]) logLevelField defaultLevel
        Field.logLevel := rfl

/-! ### What the layers give -/

theorem lookup_overlay_textLayer (lower : Table) (field : Text) (value? : Option Text)
    (key : Text) :
    (Table.overlay lower (textLayer field value?)).lookup key =
      if key = field then (value?.map .text).or (lower.lookup key) else lower.lookup key := by
  cases value? with
  | none => simp [textLayer, Table.overlay_nil]
  | some value =>
      rw [textLayer, Table.overlay_text, Table.lookup_set]
      split <;> simp

theorem overlay_withWorkspace (lower : Table) (layout : Layout) (value? : Option Text) :
    Table.overlay lower (layout.withWorkspace (textLayer logLevelField value?)) =
      Table.set workspaceField (.text layout.workspace.toText)
        (Table.overlay lower (textLayer logLevelField value?)) := by
  cases value? with
  | none => rw [textLayer, Layout.withWorkspace, Table.set, Table.overlay_text, Table.overlay_nil]
  | some value =>
      have apart : logLevelField ≠ workspaceField := by decide
      rw [textLayer, Layout.withWorkspace, Table.set, if_neg apart, Table.set, Table.overlay_cons,
        Table.overlay_text, Table.overlay_text]

variable {document : Table} {environment? flag? : Option Text} {layout : Layout}

theorem lookup_merge_layers (document : Table) (environment? flag? : Option Text)
    (layout : Layout) (key : Text) :
    (Table.merge (layers document environment? flag? layout)).lookup key =
      if key = workspaceField then some (.text layout.workspace.toText)
      else if key = logLevelField then
        ((flag?.or environment?).map .text).or
          ((Table.merge [defaultsLayer, document]).lookup logLevelField)
      else (Table.merge [defaultsLayer, document]).lookup key := by
  have merged : Table.merge (layers document environment? flag? layout) =
      Table.overlay
        (Table.overlay (Table.merge [defaultsLayer, document])
          (textLayer logLevelField environment?))
        (layout.withWorkspace (textLayer logLevelField flag?)) := rfl
  rw [merged, overlay_withWorkspace, Table.lookup_set, lookup_overlay_textLayer,
    lookup_overlay_textLayer]
  by_cases isWorkspace : key = workspaceField
  · rw [if_pos isWorkspace, if_pos isWorkspace]
  · rw [if_neg isWorkspace, if_neg isWorkspace]
    by_cases isLevel : key = logLevelField
    · subst isLevel
      simp only [↓reduceIte]
      cases flag? <;> cases environment? <;> rfl
    · simp only [if_neg isLevel]

/-- A configuration from layers has its settings from the document and the defaults, and the log
level of the highest layer that names one. -/
theorem ofLayers_eq_ok_iff :
    ofLayers home (layers document environment? flag? layout) = .ok config ↔
      Field.homePath home (.text layout.workspace.toText) = .ok (.ok config.workspace) ∧
        readLevel document (flag?.or environment?) = .ok config.logLevel ∧
        readComponents (Table.merge [defaultsLayer, document]) = .ok config.components := by
  have workspace := lookup_merge_layers document environment? flag? layout workspaceField
  have level := lookup_merge_layers document environment? flag? layout logLevelField
  have components := lookup_merge_layers document environment? flag? layout componentsField
  rw [if_pos rfl] at workspace
  rw [if_neg (by decide), if_pos rfl] at level
  rw [if_neg (by decide), if_neg (by decide)] at components
  have readNamed : Field.read (Table.merge (layers document environment? flag? layout))
      logLevelField defaultLevel Field.logLevel =
        readLevel document (flag?.or environment?) := by
    rw [Field.read, level]
    cases flag?.or environment? with
    | none => rfl
    | some written => rfl
  have readAll : readComponents (Table.merge (layers document environment? flag? layout)) =
      readComponents (Table.merge [defaultsLayer, document]) := by
    rw [readComponents, readComponents, components]
  rw [ofLayers, ofTable_eq_ok_iff, readWorkspace_eq_ok_iff workspace, readNamed, readAll]

/-- Naming a log level above a document changes the log level and nothing else. -/
theorem ofLayers_of_named (found : ofLayers home (layers document none none layout) = .ok config)
    (environment? flag? : Option Text) :
    ofLayers home (layers document environment? flag? layout) =
      .ok { config with
        logLevel := ((flag?.or environment?).map levelOf).getD config.logLevel } := by
  obtain ⟨workspace, level, components⟩ := ofLayers_eq_ok_iff.mp found
  refine ofLayers_eq_ok_iff.mpr ⟨workspace, ?_, components⟩
  cases flag?.or environment? with
  | none => exact level
  | some written => rfl

/-- Without a document everything is as it is by default. -/
theorem ofLayers_of_no_document {workspace : Path}
    (located : Field.homePath home (.text layout.workspace.toText) = .ok (.ok workspace)) :
    ofLayers home (layers [] none none layout) =
      .ok { workspace, logLevel := defaultLevel, components := {} } := by
  refine ofLayers_eq_ok_iff.mpr ⟨located, ?_, ?_⟩
  · rw [Option.or_none, readLevel_none, defaultsLayer_eq]
    rfl
  · rw [defaultsLayer_eq]
    rfl

/-- A document that was written for settings by default gives them back, with its log level. -/
theorem ofLayers_entries
    (located : Field.homePath home (.text layout.workspace.toText) = .ok (.ok config.workspace))
    (components : config.components = {}) :
    ofLayers home (layers config.entries none none layout) =
      .ok { config with logLevel := levelOf config.logLevel } := by
  refine ofLayers_eq_ok_iff.mpr ⟨located, ?_, ?_⟩
  · rw [Option.or_none, readLevel_none, defaultsLayer_eq]
    rfl
  · rw [defaultsLayer_eq, entries, components]
    rfl

end DocComponents.Config
