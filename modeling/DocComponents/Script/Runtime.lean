import DocComponents.Data.Json
import DocComponents.Definition.Basic
import DocComponents.Script.Run
import DocComponents.Text.Scan

/-!
# Script runtimes

A runtime decides what becomes of a component's script. The in-process runtime runs it against the
inner element. The embedding runtime runs nothing; it appends a hook to the container, from which a
browser runs the script on the inner element with the props.
-/

set_option autoImplicit false

namespace DocComponents

def innerClass : Text := "mdc-inner".toList

structure ScriptCall where
  script : Text
  /-- The scope token of the container, or the empty text. -/
  scope : Text
  inner : Element Node
  props : Props
  definition : Definition

structure ScriptOutcome where
  inner : Element Node
  /-- Nodes to be appended to the container. -/
  hooks : List Node := []
  failure? : Option Script.Failure := none

structure ScriptRuntime where
  name : Text
  run : ScriptCall → ScriptOutcome

namespace ScriptRuntime

def inProcess : ScriptRuntime where
  name := "python".toList
  run call :=
    match Script.read call.script with
    | .error fault =>
      { inner := call.inner
        failure? := some (.rejected call.definition.name
          ("invalid script syntax: ".toList ++ fault.message)) }
    | .ok statements =>
      let (state, failure?) := Script.run statements ⟨call.inner, call.props⟩
      { inner := state.element, failure? }

/-- A text inside a script element, in which no closing tag may begin. -/
def escapeScript (text : Text) : Text :=
  Text.replace ['<', '/'] ['<', '\\', '/'] text

def payload (props : Props) : Text :=
  Json.write .unicode (.table (props.pairs.map fun pair => (pair.1, .text pair.2)))

def hook (script scope : Text) (props : Props) : Text :=
  let target := "[data-scope=\"".toList ++ scope ++ "\"] > .".toList ++ innerClass
  "<script>(function (el, props) \x7b\n".toList ++ escapeScript script ++
    "\n\x7d)(document.querySelector(".toList ++ Json.writeText .ascii target ++ "), ".toList ++
    escapeScript (payload props) ++ ");</script>".toList

def embedding : ScriptRuntime where
  name := "embed".toList
  run call :=
    { inner := call.inner, hooks := [.markup (hook call.script call.scope call.props)] }

structure Unknown where
  name : Text
  deriving DecidableEq

def Unknown.message (fault : Unknown) : Text :=
  "Unknown script runtime: ".toList ++ Text.quoted fault.name

/-- The runtime of a name, in letters of either case and with blanks around it. -/
def ofName (name : Text) : Except Unknown ScriptRuntime :=
  let normal := Text.lower (Text.trim name)
  if normal = inProcess.name then .ok inProcess
  else if normal = embedding.name then .ok embedding
  else .error ⟨name⟩

end ScriptRuntime

end DocComponents
