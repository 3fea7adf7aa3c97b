import DocComponents.Text.Basic

/-! Beginnings of texts. What follows a lead is told exactly: there is such a rest when the text is
the lead with this rest behind it, and no other rest is answered. What stands before the first
occurrence of a character is a beginning that does not hold it. -/

set_option autoImplicit false

namespace DocComponents.Text

theorem afterLead?_eq_some_iff {lead text rest : Text} :
    afterLead? lead text = some rest ↔ text = lead ++ rest := by
  induction lead generalizing text with
  | nil => simp [afterLead?, eq_comm]
  | cons expected lead ih =>
      cases text with
      | nil => simp [afterLead?]
      | cons char text =>
          by_cases same : expected = char
          · subst same
            simp [afterLead?, ih]
          · simp [afterLead?, same, Ne.symm same]

theorem startsWith_eq_true_iff {text lead : Text} :
    startsWith text lead = true ↔ ∃ rest, text = lead ++ rest := by
  simp only [startsWith, Option.isSome_iff_exists, afterLead?_eq_some_iff]

@[simp]
theorem startsWith_append (lead rest : Text) : startsWith (lead ++ rest) lead = true :=
  startsWith_eq_true_iff.mpr ⟨rest, rfl⟩

/-- A lead goes no further than to a character that it does not hold. -/
theorem startsWith_append_cons {lead : Text} {char : Char} (apart : char ∉ lead)
    (text rest : Text) : startsWith (text ++ char :: rest) lead = startsWith text lead := by
  rw [Bool.eq_iff_iff, startsWith_eq_true_iff, startsWith_eq_true_iff]
  constructor
  · rintro ⟨behind, whole⟩
    rcases List.append_eq_append_iff.mp whole with ⟨more, isLead, rest_eq⟩ | ⟨more, isText, -⟩
    · cases more with
      | nil => exact ⟨[], by simp [isLead]⟩
      | cons first others =>
          have same : char = first := (List.cons.inj rest_eq).1
          exact absurd (by simp [isLead, same]) apart
    · exact ⟨more, isText⟩
  · rintro ⟨behind, rfl⟩
    exact ⟨behind ++ char :: rest, List.append_assoc _ _ _⟩

section UpToCharacter

variable {char : Char} {part : Text}

theorem forall_bne_of_not_mem (apart : char ∉ part) : ∀ other ∈ part, (other != char) = true := by
  intro other member
  have different : other ≠ char := by
    rintro rfl
    exact apart member
  simpa using different

theorem takeWhile_bne_append_cons (apart : char ∉ part) (rest : Text) :
    (part ++ char :: rest).takeWhile (· != char) = part := by
  rw [List.takeWhile_append_of_pos (forall_bne_of_not_mem apart),
    List.takeWhile_cons_of_neg (by simp), List.append_nil]

theorem dropWhile_bne_append_cons (apart : char ∉ part) (rest : Text) :
    (part ++ char :: rest).dropWhile (· != char) = char :: rest := by
  rw [List.dropWhile_append_of_pos (forall_bne_of_not_mem apart),
    List.dropWhile_cons_of_neg (by simp)]

end UpToCharacter

end DocComponents.Text
