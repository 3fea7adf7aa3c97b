import DocComponents.Proofs.Text.Replace
import Mathlib.Data.List.Infix

/-!
# How often a pattern occurs

The occurrences of a pattern of two characters in texts that are put together are those of the
texts and those at their seams. So a writer that keeps both characters and brings in no first one
keeps the number of occurrences, and putting a character between the two leaves none.
-/

set_option autoImplicit false

namespace DocComponents.Text

/-- How often a pattern occurs in a text. -/
def occurrences (pattern text : Text) : Nat :=
  text.tails.countP fun rest => startsWith rest pattern

theorem occurrences_eq_zero_iff {pattern text : Text} :
    occurrences pattern text = 0 ↔ ¬ pattern <:+: text := by
  simp only [occurrences, List.countP_eq_zero, List.mem_tails, startsWith_eq_true_iff]
  constructor
  · rintro absent ⟨before, behind, rfl⟩
    rw [List.append_assoc] at absent
    exact absent _ (List.suffix_append _ _) ⟨behind, rfl⟩
  · rintro absent rest ⟨before, rfl⟩ ⟨behind, rfl⟩
    exact absent ⟨before, behind, List.append_assoc _ _ _⟩

theorem occurrences_cons (pattern : Text) (char : Char) (rest : Text) :
    occurrences pattern (char :: rest) =
      occurrences pattern rest + if startsWith (char :: rest) pattern then 1 else 0 := by
  rw [occurrences, List.tails_cons, List.countP_cons, occurrences]

/-- A text without the first character of a pattern does not hold the pattern. -/
theorem occurrences_of_not_mem {first : Char} {text : Text} (absent : first ∉ text)
    (more : Text) : occurrences (first :: more) text = 0 :=
  occurrences_eq_zero_iff.mpr fun inside => absent (inside.subset List.mem_cons_self)

section pair

variable {first second : Char}

theorem startsWith_pair {char : Char} {rest : Text} :
    startsWith (char :: rest) [first, second] = true ↔ char = first ∧ rest.head? = some second := by
  rw [startsWith_eq_true_iff]
  cases rest <;> simp

/-- The seam of two texts holds a pair when one ends and the other begins with its characters. -/
theorem occurrences_append {left right : Text}
    (apart : left.getLast? ≠ some first ∨ right.head? ≠ some second) :
    occurrences [first, second] (left ++ right) =
      occurrences [first, second] left + occurrences [first, second] right := by
  induction left with
  | nil => exact (Nat.zero_add _).symm
  | cons char rest ih =>
      cases rest with
      | nil =>
          have seam : ¬ startsWith (char :: right) [first, second] = true := by
            rw [startsWith_pair]
            rintro ⟨rfl, follows⟩
            exact apart.elim (fun other => other rfl) fun other => other follows
          have alone : occurrences [first, second] [char] = 0 := by
            rw [occurrences_cons, if_neg (by simp [startsWith_pair])]
            rfl
          rw [List.singleton_append, occurrences_cons, if_neg seam, alone, Nat.zero_add,
            Nat.add_zero]
      | cons next others =>
          have later := ih (by simpa using apart)
          have same : (startsWith (char :: (next :: others ++ right)) [first, second] = true) =
              (startsWith (char :: next :: others) [first, second] = true) := by
            rw [startsWith_pair, startsWith_pair]
            rfl
          rw [List.cons_append, occurrences_cons, occurrences_cons, later]
          simp only [same]
          omega

/-- A text that holds no pair and neither begins nor ends with a part of one. -/
structure KeepsApart (first second : Char) (mark : Text) : Prop where
  ne_nil : mark ≠ []
  head?_ne : mark.head? ≠ some second
  getLast?_ne : mark.getLast? ≠ some first
  occurrences_eq_zero : occurrences [first, second] mark = 0

theorem KeepsApart.occurrences_append {mark : Text} (apart : KeepsApart first second mark)
    (right : Text) :
    occurrences [first, second] (mark ++ right) = occurrences [first, second] right := by
  rw [Text.occurrences_append (.inl apart.getLast?_ne), apart.occurrences_eq_zero, Nat.zero_add]

/-- Such a text between two others keeps them apart. -/
theorem KeepsApart.occurrences_around {mark : Text} (apart : KeepsApart first second mark)
    (left right : Text) :
    occurrences [first, second] (left ++ (mark ++ right)) =
      occurrences [first, second] left + occurrences [first, second] right := by
  have begins : (mark ++ right).head? ≠ some second := by
    rw [List.head?_append_of_ne_nil _ apart.ne_nil]
    exact apart.head?_ne
  rw [Text.occurrences_append (.inr begins), apart.occurrences_append]

/-- What a writer of single characters must do to keep the pairs of a text. -/
structure KeepsPair (first second : Char) (write : Char → Text) : Prop where
  /-- The first character of the pair is written as it is. -/
  write_first : write first = [first]
  /-- No other character brings it in. -/
  not_mem : ∀ char, char ≠ first → first ∉ write char
  /-- What is written begins with the second character where that stood, and there only. -/
  head?_write : ∀ char, ∃ lead, (write char).head? = some lead ∧ (lead = second ↔ char = second)

theorem KeepsPair.occurrences_flatMap {write : Char → Text} (keeps : KeepsPair first second write)
    (text : Text) :
    occurrences [first, second] (text.flatMap write) = occurrences [first, second] text := by
  have head?_flatMap (rest : Text) :
      (rest.flatMap write).head? = some second ↔ rest.head? = some second := by
    cases rest with
    | nil => rfl
    | cons char others =>
        obtain ⟨lead, written, same⟩ := keeps.head?_write char
        simp [List.head?_append, written, same]
  induction text with
  | nil => rfl
  | cons char rest ih =>
      rw [List.flatMap_cons, occurrences_cons]
      by_cases isFirst : char = first
      · subst isFirst
        rw [keeps.write_first, List.singleton_append, occurrences_cons, ih]
        simp only [startsWith_pair, head?_flatMap]
      · have noFirst := keeps.not_mem char isFirst
        have apart : (write char).getLast? ≠ some first :=
          fun last => noFirst (List.mem_of_getLast? last)
        rw [occurrences_append (.inl apart), occurrences_of_not_mem noFirst, ih, Nat.zero_add,
          if_neg (by simp [startsWith_pair, isFirst]), Nat.add_zero]

/-- Putting a third character between the two of a pair leaves no pair and no new beginning. -/
theorem occurrences_replace {between : Char} (different : second ≠ first)
    (notFirst : between ≠ first) (notSecond : between ≠ second) (text : Text) :
    occurrences [first, second] (replace [first, second] [first, between, second] text) = 0 ∧
      (replace [first, second] [first, between, second] text).head? = text.head? := by
  -- The first characters carry the induction: they tell what stands behind one that is kept.
  induction text using List.twoStepInduction with
  | nil => exact ⟨rfl, rfl⟩
  | singleton char =>
      have kept : startsWith [char] [first, second] = false :=
        Bool.eq_false_iff.mpr (by simp [startsWith_pair])
      rw [replace_cons_of_apart kept]
      refine ⟨?_, rfl⟩
      rw [occurrences_cons, if_neg (by simp [startsWith_pair, replace, replaceHits])]
      rfl
  | cons_cons char next rest behind later =>
      by_cases isPair : char = first ∧ next = second
      · obtain ⟨rfl, rfl⟩ := isPair
        have replaced : replace [char, next] [char, between, next] (char :: next :: rest) =
            [char, between, next] ++ replace [char, next] [char, between, next] rest :=
          replace_append (List.cons_ne_nil char [next]) _ rest
        rw [replaced]
        refine ⟨?_, rfl⟩
        simp [occurrences_cons, startsWith_pair, different, notFirst, notSecond, behind.1]
      · have kept : startsWith (char :: next :: rest) [first, second] = false :=
          Bool.eq_false_iff.mpr (by simpa [startsWith_pair] using isPair)
        rw [replace_cons_of_apart kept]
        refine ⟨?_, rfl⟩
        rw [occurrences_cons, (later next).1, if_neg]
        rw [startsWith_pair, (later next).2]
        simpa using isPair

end pair

end DocComponents.Text
