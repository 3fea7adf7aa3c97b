import DocComponents.Config.Document
import DocComponents.Proofs.Toml.Written

/-!
# Configuration documents that were written

A document of a configuration is read as a table with the same values, whatever the texts in it
hold.
-/

set_option autoImplicit false

namespace DocComponents.Config

def settingsEntries (settings : Settings) : Table :=
  [("folder".toList, .text settings.folder), ("live_reload".toList, .bool settings.liveReload),
    ("enable_scripts".toList, .bool settings.enableScripts),
    ("debug_mode".toList, .bool settings.debugMode),
    ("display_mode".toList, .text settings.displayMode.name),
    ("script_runtime".toList, .text settings.scriptRuntime)]

def entries (config : Config) : Table :=
  [(workspaceField, .text config.workspace.toText), (logLevelField, .text config.logLevel),
    (componentsField, .table (settingsEntries config.components))]

theorem isPlain_of_mem_lines {config : Config} {comments : Bool} {line : Toml.Line}
    (member : line ∈ config.lines comments) : line.IsPlain := by
  have plain : (config.lines comments).all (fun line => decide line.IsPlain) = true := by
    cases comments <;> rfl
  exact of_decide_eq_true (List.all_eq_true.mp plain line member)

theorem applyLines_lines (config : Config) (comments : Bool) :
    (Toml.applyLines {} (config.lines comments)).map Toml.Reading.entries =
      some config.entries := by
  cases comments <;> rfl

theorem read_document (config : Config) (comments : Bool) :
    Toml.read (config.document comments) = some config.entries := by
  rw [document, Toml.read_writeLines fun _ => isPlain_of_mem_lines, applyLines_lines]

end DocComponents.Config
