import DocComponents.Markup.Element
import DocComponents.Script.Layout
import DocComponents.Text.Quoted

/-!
# Running scripts

A script runs against an element and a copy of the props. The first statement that fails ends it;
what the statements before it did stays.
-/

set_option autoImplicit false

namespace DocComponents.Script

inductive Failure where
  /-- The script could not be executed for a component at all. -/
  | rejected (component reason : Text)
  | raised (kind : Raised) (message : Text)
  | missingProp (key : Text)
  | unknownFunction (name : Text)
  | unknownMethod (name : Text)
  deriving DecidableEq, Repr

namespace Failure

def kind : Failure → Text
  | .rejected _ _ => "ComponentScriptError".toList
  | .raised .valueError _ => "ValueError".toList
  | .raised .exception _ => "Exception".toList
  | .missingProp _ => "KeyError".toList
  | .unknownFunction _ => "NameError".toList
  | .unknownMethod _ => "AttributeError".toList

def message : Failure → Text
  | .rejected component reason =>
    "Script for component ".toList ++ Text.quoted component ++ " failed: ".toList ++ reason
  | .raised _ message => message
  | .missingProp key => Text.quoted key
  | .unknownFunction name => "name '".toList ++ name ++ "' is not defined".toList
  | .unknownMethod name => "'Element' object has no attribute '".toList ++ name ++ "'".toList

end Failure

structure State where
  element : Element Node
  props : Props

def Expression.eval (props : Props) : Expression → Except Failure Text
  | .literal value => .ok value
  | .prop key =>
    match props.get? key with
    | some value => .ok value
    | none => .error (.missingProp key)

def evalAll (props : Props) : List Expression → Except Failure (List Text)
  | [] => .ok []
  | expression :: rest =>
    match expression.eval props with
    | .error failure => .error failure
    | .ok value =>
      match evalAll props rest with
      | .error failure => .error failure
      | .ok values => .ok (value :: values)

def Statement.step (state : State) : Statement → Except Failure State
  | .skip | .stop => .ok state
  | .setAttribute name value => do
    let name ← name.eval state.props
    let value ← value.eval state.props
    return { state with element := state.element.setAttribute name value }
  | .addClasses names => do
    let names ← evalAll state.props names
    return { state with element := state.element.addClasses names }
  | .append content => do
    let content ← content.eval state.props
    return { state with element := state.element.append (.text content) }
  | .appendMarkup html => do
    let html ← html.eval state.props
    return { state with element := state.element.append (.markup html) }
  | .clear => .ok { state with element := state.element.clear }
  | .setProp key value => do
    let value ← value.eval state.props
    return { state with props := state.props.put key value }
  | .raise kind message => .error (.raised kind message)
  | .callFunction name => .error (.unknownFunction name)
  | .callMethod name => .error (.unknownMethod name)

/-- The state in which statements end, with the failure that ended them early. -/
def run : List Statement → State → State × Option Failure
  | [], state => (state, none)
  | statement :: rest, state =>
    if statement = .stop then (state, none)
    else
      match statement.step state with
      | .ok next => run rest next
      | .error failure => (state, some failure)

end DocComponents.Script
