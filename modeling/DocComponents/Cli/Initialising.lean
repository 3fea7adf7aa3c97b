import DocComponents.Cli.Basic
import DocComponents.Workspace.Initial

/-!
# The command that makes a workspace

The command makes a workspace, keeps an entry about it in the journal, and prints what there is now.
-/

set_option autoImplicit false

namespace DocComponents.Cli

def refreshSwitch : Switch :=
  { name := "refresh".toList, spellings := ["--refresh".toList], takesValue := false }

def logLevelSwitch : Switch :=
  { name := "log-level".toList, spellings := ["--log-level".toList, "-l".toList] }

def noExamplesSwitch : Switch :=
  { name := "no-examples".toList, spellings := ["--no-examples".toList], takesValue := false }

def initialSwitches : List Switch :=
  [workspaceSwitch, refreshSwitch, logLevelSwitch, noExamplesSwitch]

def initialEntry (initial : Layout.Initial) (refresh : Bool) : Log.Entry :=
  { level := .info
    event := "init-complete".toList
    fields :=
      [("command".toList, .text "init".toList),
        ("workspace".toList, .text initial.config.workspace.toText),
        ("refresh".toList, .bool refresh),
        ("components".toList, .text initial.componentsFolder.toText),
        ("seeded".toList, .list (initial.seeded.map fun path => .text path.name))] }

def initialNotes (existed refresh : Bool) : List Text :=
  if refresh then ["  note: archived previous workspace before refresh".toList]
  else if existed then ["  note: existing workspace detected; files left untouched".toList]
  else []

def initialLines (initial : Layout.Initial) (existed refresh : Bool) : List Text :=
  let config := initial.config
  ["Workspace initialized".toList, "  workspace: ".toList ++ config.workspace.toText,
    "  config: ".toList ++ (Layout.mk config.workspace).document.toText,
    "  defaults: packaged resource (".toList ++ Resource.defaultsName ++ [')'],
    "  components: ".toList ++ initial.componentsFolder.toText,
    "  log level: ".toList ++ config.logLevel] ++
    initialNotes existed refresh ++
    if initial.seeded.isEmpty then []
    else
      "Example components:".toList ::
        initial.seeded.map fun path => "  - ".toList ++ path.stemAndSuffix.1

def initialise (surroundings : Surroundings) (words : List Text) : Action Unit := do
  let arguments ← readArguments initialSwitches words
  if !arguments.operands.isEmpty then throw .usage
  let layout ← findLayout surroundings arguments
  let existed ← onDisk (.crash ∘ .file) (DiskAction.pathExists layout.workspace)
  let refresh := arguments.has refreshSwitch.name
  let options : Layout.InitialOptions :=
    { renew := refresh
      logLevel? := arguments.value? logLevelSwitch.name
      environment := Config.logLevelLayer surroundings.environment
      seedExamples := !arguments.has noExamplesSwitch.name }
  match ← tryOnDisk
    (Layout.initialise surroundings.home surroundings.stamp layout.workspace options) with
  | .error fault => fail ("Failed to initialize workspace: ".toList ++ fault.message)
  | .ok initial =>
    let config := initial.config
    let journal ← openJournal surroundings config (Layout.mk config.workspace).logs
    note surroundings journal [initialEntry initial refresh]
    (initialLines initial existed refresh).forM say

end DocComponents.Cli
