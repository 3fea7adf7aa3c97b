import DocComponents.Text.Basic

/-!
# Escaping for markup

Plain text goes into markup with its ampersands, angle brackets and double quotes written as
entities. The entities are put in one after the other, the ampersand first, so no entity is escaped
again. Single quotes stay; templates enclose attributes in double quotes.
-/

set_option autoImplicit false

namespace DocComponents.Markup

/-- The escaped characters with their entities, in the order in which they are replaced. -/
def entities : List (Char × Text) :=
  [('&', "&amp;".toList), ('<', "&lt;".toList), ('>', "&gt;".toList), ('"', "&quot;".toList)]

def escape (text : Text) : Text :=
  entities.foldl (fun current entity => Text.replaceChar entity.1 entity.2 current) text

end DocComponents.Markup
