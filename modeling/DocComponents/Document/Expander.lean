import DocComponents.Catalog.Loading
import DocComponents.Config.Settings
import DocComponents.Document.CodeSpan
import DocComponents.Document.Fence
import DocComponents.Invocation.Basic
import DocComponents.Render.Component

/-!
# Expanding documents

An expander renders the invocations that markdown texts hold: blocks of invocations in fences, and
inline markers in prose outside code. Everything else is kept as it is written. What rendering uses
up and leaves behind, besides its result, is a trace.
-/

set_option autoImplicit false

namespace DocComponents

def inlineWrapperClass : Text := "mdc-inline-wrapper".toList

def blockErrorMessage : Text :=
  "Could not parse component invocation. Format: component_name(prop=\"value\")".toList

/-- What rendering used up and left behind. -/
structure Trace where
  scopes : Nat := 0
  log : List Log.Entry := []
  calls : List ScriptCall := []

structure Expander where
  catalog : Catalog
  settings : Settings := {}
  runtime : ScriptRuntime
  /-- The number in each scope token, by how many tokens were made before. -/
  tokens : Nat → Nat := id

namespace Expander

def tell (level : Log.Level) (event : Text) (fields : Log.Fields) : StateM Trace Unit :=
  modify fun trace =>
    { trace with
      log := trace.log ++
        [{ level
           event
           fields :=
             Log.withContext [("component".toList, .text "component-service".toList)] fields }] }

def missingMessage (expander : Expander) (name : Text) : Text :=
  let available := expander.catalog.names
  "Component \"".toList ++ name ++ "\" not found. ".toList ++
    if available.isEmpty then
      "Create component definitions in the \"".toList ++ expander.settings.folder ++
        "\" folder first.".toList
    else "Available components: ".toList ++ Text.join [',', ' '] available

def renderDefinition (expander : Expander) (definition : Definition) (props : Props)
    (options : RenderOptions) (container : Element Node) : StateM Trace (Element Node) := do
  let trace ← get
  let token := scopeToken definition.name (expander.tokens trace.scopes)
  let rendering := render expander.runtime token options definition props container
  set
    ({ scopes := trace.scopes + 1
       log := trace.log ++ rendering.log
       calls := trace.calls ++ rendering.calls } : Trace)
  return rendering.container

/-- Render an invocation into a container. A name that is not registered gives an error block. -/
def renderInvocation (expander : Expander) (invocation : Invocation) (options : RenderOptions)
    (container : Element Node) : StateM Trace (Element Node) := do
  match expander.catalog.get? invocation.name with
  | none =>
    tell .warning "component-not-found".toList
      [("name".toList, .text invocation.name),
        ("available".toList, .integer expander.catalog.definitions.size)]
    return renderError container (expander.missingMessage invocation.name)
  | some definition =>
    tell .debug "component-rendering".toList
      [("name".toList, .text invocation.name),
        ("props".toList,
          .table (invocation.props.pairs.map fun pair => (pair.1, .text pair.2)))]
    expander.renderDefinition definition invocation.props options container

/-- The element of a block: a child for every invocation, or an error when there is none. -/
def blockElement (expander : Expander) (invocations : List Invocation)
    (options : RenderOptions) : StateM Trace (Element Node) := do
  if invocations.isEmpty then return renderError {} blockErrorMessage
  let children ← invocations.mapM fun invocation => do
    let child ← expander.renderInvocation invocation options {}
    return child.toNode
  return { children }

def options (expander : Expander) : RenderOptions :=
  { enableScripts := expander.settings.enableScripts
    displayMode := expander.settings.displayMode }

/-- The element of a block, shown as the settings say or as a named mode says. A mode that does not
exist is a fault when there is something to show. -/
def expandBlock (expander : Expander) (source : Text) (mode? : Option Text := none) :
    Except DisplayMode.Unknown (StateM Trace (Element Node)) :=
  let invocations := Invocation.readBlock source
  if invocations.isEmpty then .ok (expander.blockElement [] expander.options)
  else
    match expander.settings.options mode? with
    | .ok options => .ok (expander.blockElement invocations options)
    | .error fault => .error fault

/-- The text of an inline marker: the rendered component in a span, or the marker as it is written
when no such component is registered. -/
def expandMarker (expander : Expander) (source call : Text) : StateM Trace Text :=
  match Invocation.read? call with
  | none => return source
  | some invocation =>
    if expander.catalog.definitions.contains invocation.name then do
      let wrapper : Element Node := { tag := "span".toList, classes := [inlineWrapperClass] }
      let options := { expander.options with displayMode := .inline }
      let rendered ← expander.renderInvocation invocation options wrapper
      return rendered.html
    else return source

def expandPiece (expander : Expander) : Text.Piece Text → StateM Trace Text
  | .plain char => return [char]
  | .hit source call => expander.expandMarker source call

def expandInline (expander : Expander) (text : Text) : StateM Trace Text := do
  let parts ← (Text.scan recogniseMarker text).mapM expander.expandPiece
  return parts.flatten

def expandStretch (expander : Expander) : CodeSpan.Stretch → StateM Trace Text
  | .prose source => expander.expandInline source
  | .code source => return source

def expandProse (expander : Expander) (text : Text) : StateM Trace Text := do
  let parts ← (CodeSpan.stretches text).mapM expander.expandStretch
  return parts.flatten

def expandChunk (expander : Expander) : Chunk → StateM Trace Text
  | .prose source => expander.expandProse source
  | .code source => return source
  | .invocations _ body _ => do
    let element ← expander.blockElement (Invocation.readBlock body) expander.options
    return element.html ++ ['\n']

def expandDocument (expander : Expander) (markdown : Text) : StateM Trace Text := do
  let chunks := Chunk.split markdown
  let parts ← chunks.mapM expander.expandChunk
  tell .debug "document-rendered".toList [("chunks".toList, .integer chunks.length)]
  return parts.flatten

/-- The expander with its catalog brought up to date, if the settings ask for it. -/
def sync (expander : Expander) (disk : Disk) : ExceptT FileFault (StateM Trace) Expander := do
  if expander.settings.liveReload && expander.catalog.root.isSome then
    let step := expander.catalog.refresh disk
    modify fun trace => { trace with log := trace.log ++ step.log }
    match step.result with
    | .ok _ => return { expander with catalog := step.catalog }
    | .error fault => throw fault
  else return expander

end Expander

end DocComponents
