import DocComponents.Invocation.Basic
import DocComponents.Proofs.Identifier
import DocComponents.Proofs.Text.Scan
import Mathlib.Data.List.TakeWhile

/-!
# Inline markers as written

A marker is a call between two pairs of colons, and a call is an identifier, alone or with arguments
up to the first closing parenthesis. What stands around a marker does not matter.
-/

set_option autoImplicit false

namespace DocComponents

/-- The call in a marker. -/
inductive IsCall : Text → Prop where
  | bare {name : Text} (identifier : isIdentifier name = true) : IsCall name
  | withArguments {name arguments : Text} (identifier : isIdentifier name = true)
      (noParenthesis : ')' ∉ arguments) : IsCall (name ++ '(' :: (arguments ++ [')']))

/-- A text is the marker of a call, for the character before it and the text behind it. -/
def IsMarker (_ : Option Char) (source call _ : Text) : Prop :=
  source = "::".toList ++ call ++ "::".toList ∧ IsCall call

theorem takeIdentifier?_append_colons {name : Text} (identifier : isIdentifier name = true)
    (rest : Text) : takeIdentifier? (name ++ ':' :: rest) = some (name, ':' :: rest) :=
  takeName?_append identifier (endsName_cons (by decide) _)

theorem takeIdentifier?_append_arguments {name : Text} (identifier : isIdentifier name = true)
    (inside : Text) : takeIdentifier? (name ++ '(' :: inside) = some (name, '(' :: inside) :=
  takeName?_append identifier (endsName_cons (by decide) _)

theorem recogniseMarker_call {name arguments : Text} (identifier : isIdentifier name = true)
    (noParenthesis : ')' ∉ arguments) (rest : Text) :
    recogniseMarker (':' :: ':' :: (name ++ '(' :: (arguments ++ ')' :: ':' :: ':' :: rest))) =
      some (name ++ '(' :: (arguments ++ [')']), name.length + arguments.length + 6) := by
  simp only [recogniseMarker, takeIdentifier?_append_arguments identifier,
    Text.dropWhile_bne_append_cons noParenthesis, Text.takeWhile_bne_append_cons noParenthesis]
  simp
  omega

theorem IsCall.recogniseMarker_eq {call : Text} (isCall : IsCall call) (rest : Text) :
    recogniseMarker ("::".toList ++ call ++ "::".toList ++ rest) =
      some (call, ("::".toList ++ call ++ "::".toList).length) := by
  cases isCall with
  | bare identifier => simp [recogniseMarker, takeIdentifier?_append_colons identifier]
  | withArguments identifier noParenthesis =>
      have found := recogniseMarker_call identifier noParenthesis rest
      simpa [Nat.add_assoc] using found

theorem isCall_of_recogniseMarker {text call : Text} {size : Nat}
    (recognised : recogniseMarker text = some (call, size)) :
    ∃ rest, text = "::".toList ++ call ++ "::".toList ++ rest ∧ size = call.length + 4 ∧
      IsCall call := by
  unfold recogniseMarker at recognised
  split at recognised
  · next inner =>
      split at recognised
      · cases recognised
      · next name afterName taken =>
          obtain ⟨identifier, rfl⟩ := isName_of_takeName? taken
          split at recognised
          · next rest =>
              cases recognised
              exact ⟨rest, by simp, rfl, .bare identifier⟩
          · next inside =>
              split at recognised
              · next rest closed =>
                  have whole := List.takeWhile_append_dropWhile (p := (· != ')')) (l := inside)
                  have noParenthesis : ')' ∉ inside.takeWhile (· != ')') := by
                    intro member
                    simpa using List.mem_takeWhile_imp member
                  rw [closed] at whole
                  generalize inside.takeWhile (· != ')') = arguments at *
                  cases recognised
                  refine ⟨rest, by simp [← whole], rfl, ?_⟩
                  simpa using IsCall.withArguments identifier noParenthesis
              · cases recognised
          · cases recognised
  · cases recognised

theorem recognises_marker : Text.Recognises (fun _ => recogniseMarker) IsMarker where
  accepts_iff := by
    intro previous text call size
    constructor
    · intro recognised
      obtain ⟨rest, whole, rfl, isCall⟩ := isCall_of_recogniseMarker recognised
      exact ⟨_, rest, whole, by simp, rfl, isCall⟩
    · rintro ⟨_, rest, rfl, rfl, rfl, isCall⟩
      exact isCall.recogniseMarker_eq rest
  ne_nil := by
    rintro previous _ rest call ⟨rfl, -⟩
    simp

theorem cuts_scan_recogniseMarker (text : Text) :
    Text.Cuts IsMarker none text (Text.scan recogniseMarker text) :=
  recognises_marker.cuts_scanFrom text 0 none

end DocComponents
