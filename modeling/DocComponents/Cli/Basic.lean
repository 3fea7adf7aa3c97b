import DocComponents.Cli.Arguments
import DocComponents.Log.Journal
import DocComponents.Text.Terminal
import DocComponents.Workspace.Layout

/-!
# Commands

A command works on a disk, prints, warns, and may stop early: because its arguments are wrong,
because it failed and said so, or because of a fault that it does not handle. What it did and
printed before stays done and printed.
-/

set_option autoImplicit false

namespace DocComponents.Cli

structure Surroundings where
  environment : Environment
  /-- The present moment, as archives are named by it. -/
  stamp : Text
  /-- The present moment, as log entries tell it. -/
  time : Text
  /-- The number in each scope token, by how many tokens were made before. -/
  tokens : Nat → Nat := id

def homeVariable : Text := "HOME".toList

def Surroundings.home (surroundings : Surroundings) : Text :=
  (surroundings.environment.lookup homeVariable).getD []

inductive Output where
  | text (text : Text)
  /-- Rows of cells, of which the first one heads the columns. -/
  | table (title : Text) (rows : List (List Text))
  deriving DecidableEq, Repr

structure State where
  disk : Disk
  scopes : Nat := 0
  output : List Output := []
  warnings : List Text := []

/-- A fault that commands do not handle. -/
inductive Crash where
  | home (fault : Path.HomeFault)
  | level (fault : Log.UnsupportedLevel)
  | encoding (fault : Utf8.Fault)
  | file (fault : PathFault)
  deriving DecidableEq

def Crash.message : Crash → Text
  | .home fault => fault.message
  | .level fault => fault.message
  | .encoding fault => fault.message
  | .file fault => fault.message

def Crash.ofJournal : Journal.Fault → Crash
  | .level fault => .level fault
  | .home fault => .home fault
  | .file fault => .file fault

inductive Stop where
  | usage
  | help
  /-- The command failed and said why. -/
  | failed
  | crash (crash : Crash)
  deriving DecidableEq

abbrev Action (Result : Type) : Type := ExceptT Stop (StateM State) Result

def print (output : Output) : Action Unit :=
  modify fun state => { state with output := state.output ++ [output] }

def printTable (title : Text) (rows : List (List Text)) : Action Unit :=
  print (.table title (rows.map fun row => row.map Text.inCell))

/-- Print a text, without the sequences that would order a terminal about. -/
def printText (text : Text) : Action Unit :=
  print (.text text.withoutSequences)

def say (line : Text) : Action Unit :=
  printText (line ++ ['\n'])

def warn (warning : Text) : Action Unit :=
  modify fun state => { state with warnings := state.warnings ++ [warning.withoutSequences] }

def fail {Result : Type} (line : Text) : Action Result := do
  say line
  throw .failed

/-- The result of a computation that may fail, with its faults turned into reasons to stop. -/
def require {Fault Result : Type} (stop : Fault → Stop) : Except Fault Result → Action Result
  | .ok result => pure result
  | .error fault => throw (stop fault)

def tryOnDisk {Fault Result : Type} (action : DiskAction Fault Result) :
    Action (Except Fault Result) := do
  let state ← get
  let (result, disk) := action.run.run state.disk
  set { state with disk }
  return result

def onDisk {Fault Result : Type} (stop : Fault → Stop) (action : DiskAction Fault Result) :
    Action Result := do
  require stop (← tryOnDisk action)

def note (surroundings : Surroundings) (journal : Journal) (entries : List Log.Entry) :
    Action Unit :=
  modify fun state =>
    { state with disk := journal.append surroundings.time entries state.disk }

def helpSwitch : Switch :=
  { name := "help".toList, spellings := ["--help".toList], takesValue := false }

def workspaceSwitch : Switch :=
  { name := "workspace".toList, spellings := ["--workspace".toList, "-w".toList], isPath := true }

/-- Whether every path that options give can be one. -/
def hasPaths (switches : List Switch) (arguments : Arguments) : Bool :=
  switches.all fun switch =>
    !switch.isPath || (arguments.value? switch.name).all fun written => !written.contains '\x00'

/-- Take the arguments that were read from words, or stop when they are wrong or ask for help. -/
def accept (switches : List Switch) (arguments? : Option Arguments) : Action Arguments :=
  match arguments? with
  | none => throw .usage
  | some arguments =>
    if arguments.has helpSwitch.name then throw .help
    else if hasPaths switches arguments then pure arguments
    else throw .usage

def readArguments (switches : List Switch) (words : List Text) : Action Arguments :=
  accept switches (Arguments.read? (helpSwitch :: switches) words)

def readArgumentsBefore (switches : List Switch) (words : List Text) : Action Arguments :=
  accept switches (Arguments.readBefore? (helpSwitch :: switches) words)

def findLayout (surroundings : Surroundings) (arguments : Arguments) : Action Layout := do
  let home := surroundings.home
  let environment? ←
    match Config.valueOf? surroundings.environment Config.workspaceVariable with
    | none => pure none
    | some written =>
      some <$> require (.crash ∘ .home) ((Path.ofText written).expandHome home)
  let given? := (arguments.value? workspaceSwitch.name).map Path.ofText
  match Layout.resolve home (← get).disk given? environment? with
  | .ok layout => return layout
  | .error (.home fault) => throw (.crash (.home fault))
  | .error (.file fault) => throw (.crash (.file fault))
  | .error (.isFile workspace) =>
    fail ("Workspace error: ".toList ++ (Layout.Fault.isFile workspace).message)

def openJournal (surroundings : Surroundings) (config : Config) (folder : Path) : Action Journal :=
  onDisk (.crash ∘ .ofJournal)
    (Journal.openIn surroundings.home config.logLevel config.components.debugMode folder)

end DocComponents.Cli
