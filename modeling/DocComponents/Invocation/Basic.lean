import DocComponents.Identifier
import DocComponents.Props
import DocComponents.Text.Lines
import DocComponents.Text.Scan

/-!
# Component invocations

An invocation names a component and gives props that override its defaults. It is written
`name(key="value", …)`; the arguments are found by scanning for quoted pairs, so what stands between
two pairs does not matter and an unquoted value is passed over. A block holds one invocation on a
line, and running text holds invocations as `::name(…)::` markers.
-/

set_option autoImplicit false

namespace DocComponents

structure Invocation where
  name : Text
  props : Props := .empty
  deriving DecidableEq

/-- The pair at the beginning of a text, and its length: a key, an equals sign with blanks around
it, and a value between two equal quotes. -/
def recogniseArgument (text : Text) : Option ((Text × Text) × Nat) :=
  match takeKey? text with
  | none => none
  | some (key, afterKey) =>
    match afterKey.dropWhile Text.isAsciiBlank with
    | '=' :: afterSign =>
      match afterSign.dropWhile Text.isAsciiBlank with
      | quote :: afterQuote =>
        if quote = '"' || quote = '\'' then
          match afterQuote.dropWhile (· != quote) with
          | _ :: rest =>
            some ((key, afterQuote.takeWhile (· != quote)), text.length - rest.length)
          | [] => none
        else none
      | [] => none
    | _ => none

/-- The props that a text of arguments gives. Of equal keys the last value counts. -/
def arguments (text : Text) : Props :=
  .ofPairs (Text.hits (Text.scan recogniseArgument text))

namespace Invocation

def read? (text : Text) : Option Invocation :=
  match takeIdentifier? (Text.trim text) with
  | none => none
  | some (name, afterName) =>
    match afterName.dropWhile Text.isAsciiBlank with
    | [] => some { name }
    | '(' :: inside =>
      if inside.getLast? = some ')' then some { name, props := arguments inside.dropLast }
      else none
    | _ => none

/-- The invocations on the lines of a block. A line that is no invocation is dropped. -/
def readBlock (source : Text) : List Invocation :=
  (Text.lines source).filterMap read?

end Invocation

/-- The text of the call in a marker at the beginning of a text, and the length of the marker: the
call is an identifier with an optional list of arguments, between two pairs of colons. -/
def recogniseMarker : Text → Option (Text × Nat)
  | ':' :: ':' :: text =>
    match takeIdentifier? text with
    | none => none
    | some (name, afterName) =>
      match afterName with
      | ':' :: ':' :: _ => some (name, name.length + 4)
      | '(' :: inside =>
        match inside.dropWhile (· != ')') with
        | ')' :: ':' :: ':' :: _ =>
          let call := name ++ '(' :: inside.takeWhile (· != ')') ++ [')']
          some (call, call.length + 4)
        | _ => none
      | _ => none
  | _ => none

structure Marker where
  /-- The position of the first character of the marker. -/
  start : Nat
  /-- The position behind the last character of the marker. -/
  stop : Nat
  source : Text
  invocation : Option Invocation
  deriving DecidableEq

namespace Marker

/-- The markers among pieces of text, the first of which begins at a position. -/
def ofPieces : (position : Nat) → List (Text.Piece Text) → List Marker
  | _, [] => []
  | position, .plain _ :: rest => ofPieces (position + 1) rest
  | position, .hit source call :: rest =>
    { start := position
      stop := position + source.length
      source
      invocation := Invocation.read? call } ::
      ofPieces (position + source.length) rest

def findAll (text : Text) : List Marker :=
  ofPieces 0 (Text.scan recogniseMarker text)

end Marker

end DocComponents
