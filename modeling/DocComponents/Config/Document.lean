import DocComponents.Config.Layers
import DocComponents.Toml.Writer

/-!
# Configuration documents

A configuration is written as a TOML document that reads back as the same configuration. Comments
explain where its values may come from.
-/

set_option autoImplicit false

namespace DocComponents.Config

def documentName : Text := "mdcomponents.toml".toList

def headComments : List Toml.Line :=
  [.comment "Generated by mdcomponents init".toList,
    .comment "Precedence: CLI flags > env vars > mdcomponents.toml > defaults".toList,
    .comment "Environment overrides:".toList,
    .comment ("  ".toList ++ workspaceVariable ++ "=/path/to/workspace".toList),
    .comment ("  ".toList ++ logLevelVariable ++ "=info".toList), .blank]

def settingsComments : List Toml.Line :=
  [.comment "Relative folders resolve against the workspace.".toList]

def settingsLines (settings : Settings) : List Toml.Line :=
  [.string "folder".toList settings.folder, .truth "live_reload".toList settings.liveReload,
    .truth "enable_scripts".toList settings.enableScripts,
    .truth "debug_mode".toList settings.debugMode,
    .string "display_mode".toList settings.displayMode.name,
    .string "script_runtime".toList settings.scriptRuntime]

def lines (config : Config) (comments : Bool) : List Toml.Line :=
  (if comments then headComments else []) ++
    [.string workspaceField config.workspace.toText, .string logLevelField config.logLevel, .blank,
      .header componentsField] ++
    (if comments then settingsComments else []) ++ settingsLines config.components

def document (config : Config) (comments : Bool := true) : Text :=
  Toml.writeLines (config.lines comments)

end DocComponents.Config
