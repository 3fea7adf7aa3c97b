import DocComponents.Cli.Components
import DocComponents.Cli.Initialising

/-!
# Running the command line

The first operand of the command line names a command, and the words behind it belong to that
command. A run ends with a status: zero when all went well, two when the arguments were wrong, and
one otherwise.
-/

set_option autoImplicit false

namespace DocComponents.Cli

def dispatch (surroundings : Surroundings) (words : List Text) : Action Unit := do
  let arguments ← readArgumentsBefore [] words
  match arguments.operands with
  | [] => throw .usage
  | name :: rest =>
    if name = "init".toList then initialise surroundings rest
    else if name = "component".toList then runComponents surroundings rest
    else throw .usage

structure Outcome where
  status : Nat
  output : List Output := []
  warnings : List Text := []
  crash? : Option Crash := none
  deriving DecidableEq

def usage : Text :=
  Resource.ofLines [
    "Usage: mdcomponents init [-w DIR] [--refresh] [-l LEVEL] [--no-examples]",
    "       mdcomponents component [-w DIR] list",
    "       mdcomponents component [-w DIR] show NAME",
    "       mdcomponents component [-w DIR] snippet [--inline] NAME",
    "       mdcomponents component [-w DIR] render [-m MODE] [--no-scripts] INVOCATION...",
    "       mdcomponents component [-w DIR] build [-o FILE] INPUT"]

def Outcome.ofState (status : Nat) (state : State) (crash? : Option Crash := none) : Outcome :=
  { status, output := state.output, warnings := state.warnings, crash? }

/-- Run the command line on a disk, with the number of scope tokens made before. The answers are how
the run ended, the disk after it and the number of scope tokens made so far. -/
def run (surroundings : Surroundings) (words : List Text) (disk : Disk) (scopes : Nat := 0) :
    Outcome × Disk × Nat :=
  let (result, state) := (dispatch surroundings words).run { disk, scopes }
  let outcome : Outcome :=
    match result with
    | .ok () => .ofState 0 state
    | .error .help => { status := 0, output := [.text usage] }
    | .error .usage => .ofState 2 state
    | .error .failed => .ofState 1 state
    | .error (.crash crash) => .ofState 1 state (some crash)
  (outcome, state.disk, state.scopes)

end DocComponents.Cli
