import DocComponents.Text.Quoted

/-!
# Render options

How a component is shown, and whether its script is executed.
-/

set_option autoImplicit false

namespace DocComponents

inductive DisplayMode where
  | inline
  | block
  deriving DecidableEq, Repr

namespace DisplayMode

def name : DisplayMode → Text
  | .inline => "inline".toList
  | .block => "block".toList

def ofName? (name : Text) : Option DisplayMode :=
  if name = inline.name then some .inline
  else if name = block.name then some .block
  else none

structure Unknown where
  name : Text
  deriving DecidableEq

def Unknown.message (fault : Unknown) : Text :=
  Text.quoted fault.name ++ " is not a valid DisplayMode".toList

def ofName (name : Text) : Except Unknown DisplayMode :=
  match ofName? name with
  | some mode => .ok mode
  | none => .error ⟨name⟩

end DisplayMode

structure RenderOptions where
  enableScripts : Bool := true
  displayMode : DisplayMode := .inline
  deriving DecidableEq, Repr

end DocComponents
