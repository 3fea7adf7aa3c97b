import DocComponents.Invocation.Basic

/-!
# Writing invocations

An invocation is written with its values between double quotes, or between single quotes when a
value holds double quotes only. A value that holds both quotes cannot be an argument.
-/

set_option autoImplicit false

namespace DocComponents

/-- A value that can be written as an argument: it does not hold both quotes. -/
def isQuotable (value : Text) : Bool :=
  !(value.contains '"' && value.contains '\'')

def argumentQuote (value : Text) : Char :=
  if value.contains '"' && !value.contains '\'' then '\'' else '"'

def writeArgument (pair : Text × Text) : Text :=
  pair.1 ++ '=' :: argumentQuote pair.2 :: pair.2 ++ [argumentQuote pair.2]

namespace Invocation

/-- An invocation as text. Without props the name stands alone. -/
def write (name : Text) (props : Props) : Text :=
  if props.pairs.isEmpty then name
  else name ++ '(' :: Text.join [',', ' '] (props.pairs.map writeArgument) ++ [')']

def writeBlock (lines : List Text) : Text :=
  "```component\n".toList ++ Text.join ['\n'] lines ++ "\n```".toList

end Invocation

end DocComponents
