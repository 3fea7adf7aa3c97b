import DocComponents.Cli.Run

/-!
# What a run reads

Before a run the folders that it may read are known: the workspace that its words are about, and the
folder of the definitions that the configuration of the workspace names.
-/

set_option autoImplicit false

namespace DocComponents.Cli

def workspaceArguments (words : List Text) : Action Arguments := do
  match (← readArgumentsBefore [] words).operands with
  | [] => throw .usage
  | name :: rest =>
    if name = "init".toList then readArguments initialSwitches rest
    else readArgumentsBefore [workspaceSwitch] rest

def layoutOf? (surroundings : Surroundings) (words : List Text) (disk : Disk) : Option Layout :=
  let finding : Action Layout := do findLayout surroundings (← workspaceArguments words)
  (finding.run { disk }).1.toOption

def definitionsOf? (surroundings : Surroundings) (layout : Layout) (disk : Disk) : Option Path :=
  let environment := Config.logLevelLayer surroundings.environment
  match layout.loadConfig surroundings.home disk environment [] with
  | .ok config => (config.componentsFolder surroundings.home layout.workspace).toOption
  | .error _ => none

/-- The paths that words may name: a word itself, what follows an equals sign in it, and what
follows a short option in it. -/
def pathsNamed (words : List Text) : List Path :=
  (words.flatMap fun word => [word, (word.dropWhile (· != '=')).drop 1, word.drop 2]).map
    Path.ofText

end DocComponents.Cli
