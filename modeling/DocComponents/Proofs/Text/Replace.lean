import DocComponents.Proofs.Text.Cut
import DocComponents.Proofs.Text.Scan
import Mathlib.Data.List.Infix

/-!
# Replacing a pattern

Occurrences of a pattern are replaced from left to right. A character that the pattern does not hold
belongs to no occurrence, so what stands in front of it and what stands behind it are replaced
apart, and a text without an occurrence stays.
-/

set_option autoImplicit false

namespace DocComponents.Text

variable {pattern : Text} {char : Char}

theorem replace_cons_of_apart {rest : Text}
    (apart : startsWith (char :: rest) pattern = false) (replacement : Text) :
    replace pattern replacement (char :: rest) = char :: replace pattern replacement rest := by
  unfold replace
  rw [scan_cons_of_eq_none (by rw [apart]; rfl)]
  rfl

/-- A text in which the pattern does not occur stays. -/
theorem replace_of_absent {text : Text} (absent : ¬ pattern <:+: text) (replacement : Text) :
    replace pattern replacement text = text := by
  induction text with
  | nil => rfl
  | cons char rest ih =>
      have kept : startsWith (char :: rest) pattern = false := by
        rw [← Bool.not_eq_true, startsWith_eq_true_iff]
        rintro ⟨behind, whole⟩
        exact absent ⟨[], behind, whole.symm⟩
      have later : ¬ pattern <:+: rest := fun inside =>
        absent (inside.trans (List.suffix_cons char rest).isInfix)
      rw [replace_cons_of_apart kept, ih later]

theorem replace_of_not_mem {first : Char} {text : Text} (absent : first ∉ text)
    (more replacement : Text) : replace (first :: more) replacement text = text :=
  replace_of_absent (fun inside => absent (inside.subset List.mem_cons_self)) replacement

section

variable (notEmpty : pattern ≠ []) (replacement : Text)

include notEmpty

/-- Where the pattern begins, it is replaced, and the rest is replaced on its own. -/
theorem replace_append (rest : Text) :
    replace pattern replacement (pattern ++ rest) =
      replacement ++ replace pattern replacement rest := by
  unfold replace
  rw [scan_append_of_eq_some notEmpty (by rw [startsWith_append]; rfl)]
  rfl

theorem replace_cons_of_not_mem (apart : char ∉ pattern) (rest : Text) :
    replace pattern replacement (char :: rest) = char :: replace pattern replacement rest := by
  apply replace_cons_of_apart
  rw [← Bool.not_eq_true, startsWith_eq_true_iff]
  rintro ⟨behind, whole⟩
  obtain ⟨first, more, rfl⟩ := List.exists_cons_of_ne_nil notEmpty
  exact apart ((List.cons.inj whole).1 ▸ List.mem_cons_self)

/-- No occurrence goes over a character that the pattern does not hold. -/
theorem replace_append_cons (apart : char ∉ pattern) (left right : Text) :
    replace pattern replacement (left ++ char :: right) =
      replace pattern replacement left ++ char :: replace pattern replacement right := by
  rw [← replace_cons_of_not_mem notEmpty replacement apart]
  unfold replace
  rw [scan_append, replaceHits_append]
  · intro text _
    rw [startsWith_append_cons apart]
  · intro text value size accepted
    split at accepted
    · next begins =>
        obtain ⟨rest, rfl⟩ := startsWith_eq_true_iff.mp begins
        cases accepted
        simp
    · cases accepted

theorem replace_append_of_apart {left : Text} (apart : ∀ char ∈ left, char ∉ pattern)
    (right : Text) :
    replace pattern replacement (left ++ right) = left ++ replace pattern replacement right := by
  induction left with
  | nil => rfl
  | cons char rest ih =>
      have later := ih fun other member => apart other (List.mem_cons_of_mem _ member)
      rw [List.cons_append,
        replace_cons_of_not_mem notEmpty replacement (apart char List.mem_cons_self), later,
        List.cons_append]

theorem replace_join {mark : Char} {more : Text}
    (apart : ∀ char ∈ mark :: more, char ∉ pattern) (parts : List Text) :
    replace pattern replacement (join (mark :: more) parts) =
      join (mark :: more) (parts.map (replace pattern replacement)) := by
  induction parts with
  | nil => rfl
  | cons part rest ih =>
      cases rest with
      | nil => rfl
      | cons next others =>
          have between : ∀ char ∈ more, char ∉ pattern := fun char member =>
            apart char (List.mem_cons_of_mem _ member)
          rw [join_cons_cons, List.cons_append,
            replace_append_cons notEmpty replacement (apart mark List.mem_cons_self),
            replace_append_of_apart notEmpty replacement between, ih]
          exact (join_cons_cons (mark :: more) (replace pattern replacement part)
            (replace pattern replacement next) (others.map (replace pattern replacement))).symm

end

end DocComponents.Text
