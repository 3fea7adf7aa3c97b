import DocComponents.Identifier
import DocComponents.Props

/-!
# Component definitions

A definition is what a component document declares: the name by which the component is invoked, the
template, the default props, and the styles and the script that go with the template.
-/

set_option autoImplicit false

namespace DocComponents

structure Definition where
  name : Text
  template : Text
  description : Text := []
  props : Props := .empty
  styles : Text := []
  script : Text := []
  /-- The path of the document, or the empty text for a definition made in memory. -/
  sourcePath : Text := []
  deriving DecidableEq

def Definition.isInvocable (definition : Definition) : Bool :=
  isIdentifier definition.name

end DocComponents
