import DocComponents.Text.Basic

/-! Cutting a text at a class of characters undoes joining parts that hold none of them, and parts of
a text that was cut are joined to a text that is no longer. -/

set_option autoImplicit false

namespace DocComponents.Text

variable {inClass : Char → Bool}

theorem cutAt_ne_nil (inClass : Char → Bool) (text : Text) : cutAt inClass text ≠ [] := by
  cases text with
  | nil => simp [cutAt]
  | cons char rest =>
      unfold cutAt
      split
      · simp
      · split <;> simp

theorem outside_of_mem_cutAt {text part : Text} (isPart : part ∈ cutAt inClass text) :
    ∀ char ∈ part, inClass char = false := by
  induction text generalizing part with
  | nil =>
      have empty : part = [] := by simpa [cutAt] using isPart
      simp [empty]
  | cons first rest ih =>
      unfold cutAt at isPart
      split at isPart
      · rcases List.mem_cons.mp isPart with rfl | later
        · simp
        · exact ih later
      · next outside =>
          split at isPart
          · next noParts => exact absurd noParts (cutAt_ne_nil _ _)
          · next head others found =>
              rcases List.mem_cons.mp isPart with rfl | later
              · intro char member
                rcases List.mem_cons.mp member with rfl | inside
                · simpa using outside
                · have isHead : head ∈ cutAt inClass rest := by
                    rw [found]
                    exact List.mem_cons_self
                  exact ih isHead char inside
              · exact ih (by rw [found]; simp [later])

theorem cutAt_of_outside {part : Text} (outside : ∀ char ∈ part, inClass char = false) :
    cutAt inClass part = [part] := by
  induction part with
  | nil => rfl
  | cons char rest ih =>
      have later := ih fun other member => outside other (List.mem_cons_of_mem _ member)
      simp [cutAt, outside char List.mem_cons_self, later]

theorem cutAt_append_cons {part : Text} (outside : ∀ char ∈ part, inClass char = false)
    {cut : Char} (inside : inClass cut = true) (rest : Text) :
    cutAt inClass (part ++ cut :: rest) = part :: cutAt inClass rest := by
  induction part with
  | nil => simp [cutAt, inside]
  | cons char others ih =>
      have later := ih fun other member => outside other (List.mem_cons_of_mem _ member)
      simp [cutAt, outside char List.mem_cons_self, later]

private theorem exists_cutAt_append {pattern : Text}
    (outside : ∀ char ∈ pattern, inClass char = false) (behind : Text) :
    ∃ more parts, cutAt inClass (pattern ++ behind) = (pattern ++ more) :: parts := by
  induction pattern with
  | nil => exact List.exists_cons_of_ne_nil (cutAt_ne_nil inClass behind)
  | cons char rest ih =>
      obtain ⟨more, parts, shape⟩ :=
        ih fun other member => outside other (List.mem_cons_of_mem _ member)
      refine ⟨more, parts, ?_⟩
      simp [cutAt, outside char List.mem_cons_self, shape]

/-- What a text holds without a cut, one of its parts holds. -/
theorem exists_part_holding {pattern text : Text}
    (outside : ∀ char ∈ pattern, inClass char = false) (inside : pattern <:+: text) :
    ∃ part ∈ cutAt inClass text, pattern <:+: part := by
  obtain ⟨before, behind, rfl⟩ := inside
  induction before with
  | nil =>
      obtain ⟨more, parts, shape⟩ := exists_cutAt_append outside behind
      rw [List.nil_append, shape]
      exact ⟨_, List.mem_cons_self, (List.prefix_append pattern more).isInfix⟩
  | cons char rest ih =>
      obtain ⟨part, isPart, held⟩ := ih
      rw [List.cons_append, List.cons_append]
      unfold cutAt
      split
      · exact ⟨part, List.mem_cons_of_mem _ isPart, held⟩
      · split
        · next noParts => exact absurd noParts (cutAt_ne_nil _ _)
        · next first others found =>
            rw [found] at isPart
            rcases List.mem_cons.mp isPart with rfl | later
            · exact ⟨_, List.mem_cons_self, held.trans (List.suffix_cons char part).isInfix⟩
            · exact ⟨part, List.mem_cons_of_mem _ later, held⟩

theorem join_cons_cons (separator first next : Text) (rest : List Text) :
    join separator (first :: next :: rest) =
      first ++ (separator ++ join separator (next :: rest)) := by
  simp [join]

theorem mem_join {separator : Text} {parts : List Text} {char : Char}
    (member : char ∈ join separator parts) : char ∈ separator ∨ ∃ part ∈ parts, char ∈ part := by
  induction parts with
  | nil => cases member
  | cons part rest ih =>
      cases rest with
      | nil => exact .inr ⟨part, List.mem_cons_self, member⟩
      | cons next others =>
          rw [join_cons_cons, List.mem_append, List.mem_append] at member
          rcases member with here | between | later
          · exact .inr ⟨part, List.mem_cons_self, here⟩
          · exact .inl between
          · rcases ih later with between | ⟨other, isPart, inside⟩
            · exact .inl between
            · exact .inr ⟨other, List.mem_cons_of_mem _ isPart, inside⟩

theorem infix_join (separator : Text) {parts : List Text} {part : Text} (isPart : part ∈ parts) :
    part <:+: join separator parts := by
  induction parts with
  | nil => cases isPart
  | cons first rest ih =>
      cases rest with
      | nil =>
          rw [List.mem_singleton.mp isPart]
          exact List.infix_refl first
      | cons next others =>
          rw [join_cons_cons]
          rcases List.mem_cons.mp isPart with rfl | later
          · exact (List.prefix_append part _).isInfix
          · exact ((ih later).trans (List.suffix_append separator _).isInfix).trans
              (List.suffix_append first _).isInfix

theorem suffix_join_append (separator : Text) (lead : List Text) {parts : List Text}
    (notEmpty : parts ≠ []) : join separator parts <:+ join separator (lead ++ parts) := by
  obtain ⟨part, rest, rfl⟩ := List.exists_cons_of_ne_nil notEmpty
  induction lead with
  | nil => exact List.suffix_refl _
  | cons first others ih =>
      obtain ⟨next, more, same⟩ := List.exists_cons_of_ne_nil (l := others ++ part :: rest) (by simp)
      rw [same] at ih
      rw [List.cons_append, same, join_cons_cons]
      exact (ih.trans (List.suffix_append separator _)).trans (List.suffix_append first _)

theorem join_append_cons (separator lead part : Text) (rest : List Text) :
    join separator ((lead ++ part) :: rest) = lead ++ join separator (part :: rest) := by
  cases rest <;> simp [join]

theorem head?_join_cons (separator : Text) {part : Text} (notEmpty : part ≠ [])
    (rest : List Text) : (join separator (part :: rest)).head? = part.head? := by
  obtain ⟨char, tail, rfl⟩ := List.exists_cons_of_ne_nil notEmpty
  cases rest with
  | nil => rfl
  | cons next others => rw [join_cons_cons, List.cons_append, List.head?_cons, List.head?_cons]

theorem exists_lead_join (separator : Text) (parts : List Text) :
    ∃ lead, ∀ part, join separator (parts ++ [part]) = lead ++ part := by
  induction parts with
  | nil => exact ⟨[], fun part => rfl⟩
  | cons first rest ih =>
      cases rest with
      | nil => exact ⟨first ++ separator, fun part => rfl⟩
      | cons next others =>
          obtain ⟨lead, later⟩ := ih
          refine ⟨first ++ (separator ++ lead), fun part => ?_⟩
          rw [List.cons_append, List.cons_append, join_cons_cons, ← List.cons_append, later]
          simp

theorem getLast?_join {separator : Text} {parts : List Text} {last : Text} (notEmpty : last ≠ [])
    (ends : parts.getLast? = some last) : (join separator parts).getLast? = last.getLast? := by
  obtain ⟨before, rfl⟩ := List.getLast?_eq_some_iff.mp ends
  obtain ⟨lead, joined⟩ := exists_lead_join separator before
  obtain ⟨char, isLast⟩ := Option.isSome_iff_exists.mp (List.getLast?_isSome.mpr notEmpty)
  rw [joined, List.getLast?_append, isLast]
  rfl

/-- A separator behind the last part is one more part, which is empty. -/
theorem join_concat_nil (separator : Text) {parts : List Text} (notEmpty : parts ≠ []) :
    join separator (parts ++ [[]]) = join separator parts ++ separator := by
  induction parts with
  | nil => exact absurd rfl notEmpty
  | cons first rest ih =>
      cases rest with
      | nil => simp [join]
      | cons next others =>
          have later := ih (List.cons_ne_nil next others)
          rw [List.cons_append, List.cons_append, join_cons_cons, ← List.cons_append, later,
            join_cons_cons]
          simp

/-- Joining undoes cutting at one character. -/
theorem join_cutAt (cut : Char) (text : Text) : join [cut] (cutAt (· == cut) text) = text := by
  induction text with
  | nil => rfl
  | cons char rest ih =>
      obtain ⟨part, parts, shape⟩ := List.exists_cons_of_ne_nil (cutAt_ne_nil (· == cut) rest)
      rw [shape] at ih
      unfold cutAt
      rw [shape]
      split
      · next isCut =>
          rw [join_cons_cons, ih, beq_iff_eq.mp isCut]
          rfl
      · have joined := join_append_cons [cut] [char] part parts
        rw [ih] at joined
        exact joined

theorem cutAt_join {cut : Char} (inside : inClass cut = true) {parts : List Text}
    (outside : ∀ part ∈ parts, ∀ char ∈ part, inClass char = false) (notEmpty : parts ≠ []) :
    cutAt inClass (join [cut] parts) = parts := by
  induction parts with
  | nil => exact absurd rfl notEmpty
  | cons part others ih =>
      have first := outside part List.mem_cons_self
      cases others with
      | nil => exact cutAt_of_outside first
      | cons next rest =>
          have later := ih (fun other member => outside other (List.mem_cons_of_mem _ member))
            (List.cons_ne_nil _ _)
          rw [join_cons_cons, List.singleton_append, cutAt_append_cons first inside, later]

/-! ### Lengths -/

/-- Parts with a separator before each of them. -/
def separated (separator : Char) (parts : List Text) : Text :=
  parts.flatMap fun part => separator :: part

theorem length_separated_cutAt (inClass : Char → Bool) (separator : Char) (text : Text) :
    (separated separator (cutAt inClass text)).length = text.length + 1 := by
  induction text with
  | nil => rfl
  | cons char rest ih =>
      unfold cutAt
      split
      · exact congrArg (· + 1) ih
      · obtain ⟨part, parts, shape⟩ := List.exists_cons_of_ne_nil (cutAt_ne_nil inClass rest)
        rw [shape] at ih ⊢
        exact congrArg (· + 1) ih

theorem length_separated_filter_le (separator : Char) (keep : Text → Bool) (parts : List Text) :
    (separated separator (parts.filter keep)).length ≤ (separated separator parts).length := by
  induction parts with
  | nil => exact Nat.le_refl _
  | cons part rest ih =>
      rw [List.filter_cons]
      simp only [separated, List.flatMap_cons, List.length_append, List.length_cons] at ih ⊢
      split
      · simp only [List.flatMap_cons, List.length_append, List.length_cons]
        omega
      · omega

theorem length_join_le (separator : Char) (parts : List Text) :
    (join [separator] parts).length ≤ (separated separator parts).length - 1 := by
  induction parts with
  | nil => exact Nat.zero_le _
  | cons part rest ih =>
      cases rest with
      | nil => simp [join, separated]
      | cons next others =>
          rw [join_cons_cons, List.length_append, List.length_append, List.length_singleton]
          simp only [separated, List.flatMap_cons, List.length_append, List.length_cons] at ih ⊢
          omega

/-- Leaving out parts of a text that was cut makes it no longer. -/
theorem length_join_filter_cutAt_le (inClass : Char → Bool) (keep : Text → Bool)
    (separator : Char) (text : Text) :
    (join [separator] ((cutAt inClass text).filter keep)).length ≤ text.length := by
  have fewer := length_separated_filter_le separator keep (cutAt inClass text)
  have whole := length_separated_cutAt inClass separator text
  have joined := length_join_le separator ((cutAt inClass text).filter keep)
  omega

end DocComponents.Text
