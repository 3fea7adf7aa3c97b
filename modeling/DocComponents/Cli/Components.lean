import DocComponents.Cli.Basic
import DocComponents.Document.Expander
import DocComponents.Invocation.Writer
import DocComponents.Workspace.Loading

/-!
# The commands about components

The commands list, show and render the components of a workspace, print how they are invoked, and
expand documents. All of them first load the configuration and the definitions of the workspace.
-/

set_option autoImplicit false

namespace DocComponents.Cli

structure Session where
  surroundings : Surroundings
  journal : Journal
  folder : Path
  expander : Expander

namespace Session

def note (session : Session) (level : Log.Level) (event action : Text) (fields : Log.Fields) :
    Action Unit :=
  let context : Log.Fields :=
    [("command".toList, .text "component".toList), ("action".toList, .text action)]
  Cli.note session.surroundings session.journal
    [{ level, event, fields := Log.withContext context fields }]

def fail {Result : Type} (session : Session) (action message : Text)
    (component? : Option Text := none) : Action Result := do
  say (action ++ " failed: ".toList ++ message)
  session.note .error "component-command-failed".toList action
    (("error".toList, .text message) ::
      component?.toList.map fun name => ("component".toList, .text name))
  throw .failed

def definition (session : Session) (action name : Text) : Action Definition :=
  match session.expander.catalog.require name with
  | .ok definition => pure definition
  | .error fault => session.fail action fault.message (some name)

def render {Result : Type} (session : Session) (rendering : StateM Trace Result) :
    Action Result := do
  let state ← get
  let (result, trace) := rendering.run { scopes := state.scopes }
  set { state with scopes := trace.scopes }
  Cli.note session.surroundings session.journal trace.log
  return result

end Session

def openSession (surroundings : Surroundings) (arguments : Arguments) : Action Session := do
  let home := surroundings.home
  let layout ← findLayout surroundings arguments
  if !(← onDisk (.crash ∘ .file) (DiskAction.pathExists layout.document)) then
    fail ("Workspace config not found at ".toList ++ layout.document.toText ++
      ". Run `mdcomponents init` first.".toList)
  let environment := Config.logLevelLayer surroundings.environment
  let config ←
    match layout.loadConfig home (← get).disk environment [] with
    | .ok config => pure config
    | .error (.encoding fault) => throw (.crash (.encoding fault))
    | .error (.home fault) => throw (.crash (.home fault))
    | .error (.hidden fault) => throw (.crash (.file fault))
    | .error fault => fail ("Failed to load workspace config: ".toList ++ fault.message)
  let journal ← openJournal surroundings config layout.logs
  let folder ← require (.crash ∘ .home) (config.componentsFolder home layout.workspace)
  let catalog : Catalog := { root := some folder }
  let step := catalog.loadDirectory (← get).disk
  note surroundings journal step.log
  let _ ← require (fun fault => .crash (.file { fault, path := folder })) step.result
  let runtime := (ScriptRuntime.ofName config.components.scriptRuntime).toOption.getD .inProcess
  return {
    surroundings, journal, folder
    expander :=
      { catalog := step.catalog
        settings := config.components
        runtime
        tokens := surroundings.tokens } }

def oneOperand (arguments : Arguments) : Action Text :=
  match arguments.operands with
  | [operand] => pure operand
  | _ => throw .usage

def listRow (definition : Definition) : List Text :=
  [definition.name, definition.description,
    Text.join [',', ' ']
      (definition.props.pairs.map fun pair => pair.1 ++ '=' :: Text.quoted pair.2),
    definition.sourcePath]

def list (session : Session) (words : List Text) : Action Unit := do
  let arguments ← readArguments [] words
  if !arguments.operands.isEmpty then throw .usage
  let definitions := session.expander.catalog.definitions.values
  if definitions.isEmpty then
    say ("No components found in ".toList ++ session.folder.toText ++ ['.'])
  else
    let heads := ["name".toList, "description".toList, "props".toList, "source".toList]
    printTable "Components".toList (heads :: definitions.map listRow)

def orElse (text otherwise : Text) : Text :=
  if text.isEmpty then otherwise else text

def showLines (definition : Definition) : List Text :=
  let part (title body : Text) : List Text := if body.isEmpty then [] else [title, body]
  ["component: ".toList ++ definition.name,
    "  description: ".toList ++ orElse definition.description "<none>".toList,
    "  source: ".toList ++ orElse definition.sourcePath "<memory>".toList] ++
    (if definition.props.pairs.isEmpty then ["  props: <none>".toList]
    else
      "  props:".toList ::
        definition.props.pairs.map fun pair =>
          "    ".toList ++ pair.1 ++ ": ".toList ++ Text.quoted pair.2) ++
    ["  template:".toList, definition.template] ++
    part "  styles:".toList definition.styles ++
    part "  script:".toList definition.script

def showComponent (session : Session) (words : List Text) : Action Unit := do
  let name ← oneOperand (← readArguments [] words)
  let definition ← session.definition "show".toList name
  (showLines definition).forM say

def inlineSwitch : Switch :=
  { name := "inline".toList, spellings := ["--inline".toList], takesValue := false }

def unquotableWarning (names : List Text) : Text :=
  "warning: default value of ".toList ++ Text.join [',', ' '] names ++
    " mixes ' and \" and cannot be passed as an argument; edit the snippet by hand.".toList

def snippet (session : Session) (words : List Text) : Action Unit := do
  let arguments ← readArguments [inlineSwitch] words
  let name ← oneOperand arguments
  let definition ← session.definition "snippet".toList name
  let unquotable := (definition.props.pairs.filter fun pair => !isQuotable pair.2).map Prod.fst
  if !unquotable.isEmpty then
    warn (unquotableWarning unquotable)
    session.note .warning "snippet-props-unquotable".toList "snippet".toList
      [("component".toList, .text definition.name), ("props".toList, .list (unquotable.map .text))]
  let written := Invocation.write definition.name definition.props
  if arguments.has inlineSwitch.name then say ("::".toList ++ written ++ "::".toList)
  else say (Invocation.writeBlock [written])

def displayModeSwitch : Switch :=
  { name := "display-mode".toList, spellings := ["--display-mode".toList, "-m".toList] }

def noScriptsSwitch : Switch :=
  { name := "no-scripts".toList, spellings := ["--no-scripts".toList], takesValue := false }

/-- The small form of a letter. The sign of the kelvin is a capital k. -/
def smallLetter (char : Char) : Char :=
  if char = 'K' then 'k' else char.toLower

def readMode (mode? : Option Text) : Action (Option DisplayMode) :=
  match mode? with
  | none => pure none
  | some written =>
    match DisplayMode.ofName? (written.map smallLetter) with
    | some mode => pure (some mode)
    | none => throw .usage

def renderInvocation (session : Session) (options : RenderOptions) (written : Text) :
    Action Unit := do
  match Invocation.read? written with
  | none =>
    session.fail "render".toList ("Could not parse invocation ".toList ++ Text.quoted written)
  | some invocation =>
    let _ ← session.definition "render".toList invocation.name
    let element ← session.render (session.expander.renderInvocation invocation options {})
    say element.html

def renderInvocations (session : Session) (words : List Text) : Action Unit := do
  let arguments ← readArguments [displayModeSwitch, noScriptsSwitch] words
  let mode? ← readMode (arguments.value? displayModeSwitch.name)
  if arguments.operands.isEmpty then throw .usage
  let configured := session.expander.options
  let options : RenderOptions :=
    { enableScripts := configured.enableScripts && !arguments.has noScriptsSwitch.name
      displayMode := mode?.getD configured.displayMode }
  arguments.operands.forM (renderInvocation session options)

def outputSwitch : Switch :=
  { name := "output".toList, spellings := ["--output".toList, "-o".toList], isPath := true }

def writeOutput (session : Session) (source output : Path) (document : Text) : Action Unit := do
  onDisk (.crash ∘ .file) (DiskAction.makeFolders output.parent)
  onDisk (.crash ∘ .file) (DiskAction.writeText output document)
  session.note .info "document-built".toList "build".toList
    [("source".toList, .text source.toText), ("output".toList, .text output.toText)]
  say ("Wrote ".toList ++ output.toText)

def build (session : Session) (words : List Text) : Action Unit := do
  let arguments ← readArguments [outputSwitch] words
  let source := Path.ofText (← oneOperand arguments)
  let disk := (← get).disk
  if (disk.isFile source).toOption != some true then throw .usage
  match disk.readText source with
  | .error fault => session.fail "build".toList fault.message
  | .ok markdown =>
    let rendered ← session.render (ExceptT.run do
      let synced ← session.expander.sync disk
      synced.expandDocument markdown)
    let document ← require (fun fault => .crash (.file { fault, path := session.folder })) rendered
    match arguments.value? outputSwitch.name with
    | none => printText document
    | some output => writeOutput session source (Path.ofText output) document

def componentCommand? (name : Text) : Option (Session → List Text → Action Unit) :=
  if name = "list".toList then some list
  else if name = "show".toList then some showComponent
  else if name = "snippet".toList then some snippet
  else if name = "render".toList then some renderInvocations
  else if name = "build".toList then some build
  else none

/-- Run a command about components. The workspace is loaded before the arguments of the command
itself are read. -/
def runComponents (surroundings : Surroundings) (words : List Text) : Action Unit := do
  let arguments ← readArgumentsBefore [workspaceSwitch] words
  match arguments.operands with
  | [] => throw .usage
  | name :: rest =>
    match componentCommand? name with
    | none => throw .usage
    | some command =>
      let session ← openSession surroundings arguments
      command session rest

end DocComponents.Cli
