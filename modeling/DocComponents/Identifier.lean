import DocComponents.Text.Basic

/-!
# Names of components and of props

A component is referred to by an identifier: an ASCII letter or underscore, then letters, digits,
underscores and hyphens. The key of a prop may also begin with a digit. One grammar of keys serves
declarations, arguments and placeholders.
-/

set_option autoImplicit false

namespace DocComponents

def isNameStart (char : Char) : Bool :=
  char.isAlpha || char == '_'

def isNameChar (char : Char) : Bool :=
  Text.isAsciiWord char || char == '-'

/-- The longest name at the beginning of a text, with what follows it. -/
def takeName? (start : Char → Bool) : Text → Option (Text × Text)
  | [] => none
  | char :: rest =>
    if start char then some (char :: rest.takeWhile isNameChar, rest.dropWhile isNameChar)
    else none

def takeIdentifier? (text : Text) : Option (Text × Text) :=
  takeName? isNameStart text

def takeKey? (text : Text) : Option (Text × Text) :=
  takeName? Text.isAsciiWord text

def isName (start : Char → Bool) : Text → Bool
  | [] => false
  | char :: rest => start char && rest.all isNameChar

def isIdentifier (text : Text) : Bool :=
  isName isNameStart text

def isPropKey (text : Text) : Bool :=
  isName Text.isAsciiWord text

end DocComponents
