import DocComponents.Log
import DocComponents.Render.Options
import DocComponents.Render.Template
import DocComponents.Script.Runtime
import DocComponents.Style.Scope

/-!
# Rendering components

A component is rendered into a container: the container is marked with the component and with a
scope token of its own, and receives the scoped styles, the filled-in template, and what the script
adds. A script that fails is logged, and the markup stays.
-/

set_option autoImplicit false

namespace DocComponents

def containerClass : Text := "md-component".toList

def blockClass : Text := "mdc-block".toList

def errorClass : Text := "mdc-error".toList

/-- The scope token of one rendering of a component: six hexadecimal digits of a number make it
differ from others. -/
def scopeToken (name : Text) (number : Nat) : Text :=
  "mdc-".toList ++ name ++ '-' :: Text.hexadecimal 6 (number % 0x1000000)

/-- A rendered container, with what was logged and the scripts that were handed to a runtime. -/
structure Rendering where
  container : Element Node
  log : List Log.Entry := []
  calls : List ScriptCall := []

def markContainer (container : Element Node) (name token : Text) (mode : DisplayMode) :
    Element Node :=
  let classes := if mode = .block then [containerClass, blockClass] else [containerClass]
  ((container.addClasses classes).setAttribute "data-component".toList name).setAttribute
    "data-scope".toList token

def styleNodes (definition : Definition) (token : Text) : List Node :=
  let css := Style.scope definition.styles token
  if css.isEmpty then []
  else [({ tag := "style".toList, children := [.markup css] } : Element Node).toNode]

def innerElement (definition : Definition) (props : Props) : Element Node :=
  { classes := [innerClass]
    children := [.markup (Template.substitute definition.template props)] }

def scriptFailureEntry (definition : Definition) (token : Text) (failure : Script.Failure) :
    Log.Entry :=
  { level := .error
    event := "component-script-failed".toList
    fields :=
      [("component".toList, .text definition.name),
        ("source".toList, .text definition.sourcePath),
        ("scope".toList, .text (Style.scopeAttribute token)),
        ("error".toList, .text (failure.kind ++ ':' :: ' ' :: failure.message))] }

def render (runtime : ScriptRuntime) (token : Text) (options : RenderOptions)
    (definition : Definition) (overrides : Props) (container : Element Node) : Rendering :=
  let marked := markContainer container definition.name token options.displayMode
  let props := definition.props.overlay overrides
  let inner := innerElement definition props
  let styled := { marked with children := marked.children ++ styleNodes definition token }
  if definition.script.isEmpty || !options.enableScripts then
    { container := styled.append inner.toNode }
  else
    let call : ScriptCall :=
      { script := definition.script, scope := token, inner, props, definition }
    let outcome := runtime.run call
    { container :=
        { styled with children := styled.children ++ outcome.inner.toNode :: outcome.hooks }
      log := outcome.failure?.toList.map (scriptFailureEntry definition token)
      calls := [call] }

def errorIcon : Text := "⚠️".toList

def renderError (container : Element Node) (message : Text) : Element Node :=
  let span (name : Text) (content : Text) : Node :=
    ({ tag := "span".toList, classes := [name], children := [.text content] } : Element Node).toNode
  let content : Element Node :=
    { classes := ["mdc-error-content".toList]
      children :=
        [span "mdc-error-icon".toList errorIcon, span "mdc-error-text".toList message] }
  (container.clear.addClasses [containerClass, errorClass]).append content.toNode

end DocComponents
