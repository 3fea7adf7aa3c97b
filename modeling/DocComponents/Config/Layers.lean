import DocComponents.Config.Basic
import DocComponents.Resource
import DocComponents.Toml.Reader

/-!
# Configuration layers

A configuration is laid together from layers: the packaged defaults, the configuration file, the
environment and the command line, each of which wins over those before it.
-/

set_option autoImplicit false

namespace DocComponents

abbrev Environment := List (Text × Text)

namespace Config

def workspaceVariable : Text := "MDCOMPONENTS_WORKSPACE".toList

def logLevelVariable : Text := "MDCOMPONENTS_LOG_LEVEL".toList

/-- The value of a variable. An empty value counts as none. -/
def valueOf? (environment : Environment) (name : Text) : Option Text :=
  (environment.lookup name).filter fun value => !value.isEmpty

def textLayer (field : Text) (value? : Option Text) : Table :=
  match value? with
  | some value => [(field, .text value)]
  | none => []

/-- The layer of the environment, without the workspace. -/
def logLevelLayer (environment : Environment) : Table :=
  textLayer logLevelField (valueOf? environment logLevelVariable)

def environmentLayer (environment : Environment) : Table :=
  textLayer workspaceField (valueOf? environment workspaceVariable) ++ logLevelLayer environment

def defaultsLayer : Table :=
  (Toml.read Resource.defaultsText).getD []

end Config

end DocComponents
