import DocComponents.Data.Basic
import DocComponents.Text.Capital
import DocComponents.Text.Quoted

/-!
# Log entries

What happens while components are loaded and rendered is told in log entries: a level, the event,
and fields. A logger carries a context of fields that every entry of it receives; an entry's own
field wins over the context.
-/

set_option autoImplicit false

namespace DocComponents.Log

inductive Level where
  | debug
  | info
  | warning
  | error
  | critical
  deriving DecidableEq, Repr

namespace Level

/-- The number of a level. An entry passes a threshold that is not above its number. -/
def number : Level → Nat
  | .debug => 10
  | .info => 20
  | .warning => 30
  | .error => 40
  | .critical => 50

def name : Level → Text
  | .debug => "debug".toList
  | .info => "info".toList
  | .warning => "warning".toList
  | .error => "error".toList
  | .critical => "critical".toList

end Level

abbrev Fields := List (Text × Data)

structure Entry where
  level : Level
  event : Text
  fields : Fields

/-- Own fields together with those of the context that they do not name. -/
def withContext (context own : Fields) : Fields :=
  (context.filter fun field => !own.any fun other => other.1 == field.1) ++ own

def thresholds : List (Text × Nat) :=
  [("CRITICAL".toList, 50), ("FATAL".toList, 50), ("ERROR".toList, 40), ("WARN".toList, 30),
    ("WARNING".toList, 30), ("INFO".toList, 20), ("DEBUG".toList, 10), ("NOTSET".toList, 0)]

structure UnsupportedLevel where
  name : Text
  deriving DecidableEq

def UnsupportedLevel.message (fault : UnsupportedLevel) : Text :=
  "Unsupported log level: ".toList ++ Text.quoted fault.name

/-- The threshold of a name, in letters of either case and with blanks around it. Debugging sets it
to the level of debug entries whatever the name is. -/
def threshold (name : Text) (debug : Bool := false) : Except UnsupportedLevel Nat :=
  if debug then .ok Level.debug.number
  else
    match thresholds.lookup (Text.capitals (Text.trim name)) with
    | some number => .ok number
    | none => .error ⟨name⟩

end DocComponents.Log
