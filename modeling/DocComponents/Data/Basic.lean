import DocComponents.Data.Double

/-!
# Data

The values that configuration layers and log entries are made of. A table is a list of entries; of
equal keys the first one counts.
-/

set_option autoImplicit false

namespace DocComponents

inductive Data where
  | null
  | bool (value : Bool)
  | integer (value : Int)
  | double (value : Double)
  /-- An infinity or a number that is none. -/
  | nonFinite
  | text (value : Text)
  | list (items : List Data)
  | table (entries : List (Text × Data))
  /-- A date, a time of day, or both. -/
  | moment (written : Text)
  deriving Inhabited

namespace Data

def entries? : Data → Option (List (Text × Data))
  | .table entries => some entries
  | _ => none

/-- A whole number times a power of ten, with a sign and with double precision. A number that is too
great is an infinity. -/
def ofDecimal (negative : Bool) (number : Nat) (exponent : Int) : Data :=
  match Double.ofDecimal? negative number exponent with
  | some value => .double value
  | none => .nonFinite

end Data

end DocComponents
