import DocComponents.Proofs.Identifier
import DocComponents.Render.Component

/-! The characters of scope tokens. A token made for an identifier reads like an identifier from its
second character on, so it means nothing special wherever it is written. -/

set_option autoImplicit false

namespace DocComponents

private theorem isNameChar_digitChar {digit : Nat} (small : digit < 16) :
    isNameChar (Nat.digitChar digit) = true := by
  revert digit
  decide

private theorem isNameChar_of_mem_toDigitsCore {number fuel : Nat} {digits : Text}
    (known : ∀ char ∈ digits, isNameChar char = true) :
    ∀ char ∈ Nat.toDigitsCore 16 fuel number digits, isNameChar char = true := by
  induction fuel generalizing number digits with
  | zero => simpa [Nat.toDigitsCore] using known
  | succ fuel ih =>
      have extended : ∀ char ∈ Nat.digitChar (number % 16) :: digits, isNameChar char = true := by
        intro char member
        rcases List.mem_cons.mp member with rfl | earlier
        · exact isNameChar_digitChar (Nat.mod_lt number (by decide))
        · exact known char earlier
      unfold Nat.toDigitsCore
      dsimp only
      split
      · exact extended
      · exact ih extended

theorem isNameChar_of_mem_hexadecimal {width number : Nat} {char : Char}
    (member : char ∈ Text.hexadecimal width number) : isNameChar char = true := by
  rcases List.mem_append.mp member with filled | digit
  · have zero : char = '0' := (List.mem_replicate.mp filled).2
    subst zero
    decide
  · exact isNameChar_of_mem_toDigitsCore (by simp) char digit

/-- A scope token of a component that can be invoked holds name characters only. -/
theorem isNameChar_of_mem_scopeToken {name : Text} (identifier : isIdentifier name = true)
    {number : Nat} {char : Char} (member : char ∈ scopeToken name number) :
    isNameChar char = true := by
  have lead : "mdc-".toList.all isNameChar = true := by decide
  unfold scopeToken at member
  rcases List.mem_append.mp member with before | behind
  · rcases List.mem_append.mp before with inLead | inName
    · exact List.all_eq_true.mp lead char inLead
    · exact isNameChar_of_mem_identifier identifier inName
  · rcases List.mem_cons.mp behind with hyphen | digit
    · subst hyphen
      decide
    · exact isNameChar_of_mem_hexadecimal digit

end DocComponents
