import DocComponents.Identifier
import DocComponents.Markup.Escape
import DocComponents.Props
import DocComponents.Text.Scan

/-!
# Templates

A template holds placeholders: a prop key between double braces, with blanks around it. Each gives
way to the escaped value of its prop, in one pass, so a value is never searched for placeholders.
-/

set_option autoImplicit false

namespace DocComponents.Template

def recognisePlaceholder (text : Text) : Option (Text × Nat) :=
  match text with
  | '{' :: '{' :: inside =>
    match takeKey? (inside.dropWhile Text.isAsciiBlank) with
    | none => none
    | some (key, afterKey) =>
      match afterKey.dropWhile Text.isAsciiBlank with
      | '}' :: '}' :: rest => some (key, text.length - rest.length)
      | _ => none
  | _ => none

/-- The template with its placeholders filled in. A prop that is missing is empty. -/
def substitute (template : Text) (props : Props) : Text :=
  Text.replaceHits (fun key => Markup.escape (props.get key))
    (Text.scan recognisePlaceholder template)

end DocComponents.Template
