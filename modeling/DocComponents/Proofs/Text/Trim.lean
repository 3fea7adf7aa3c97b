import DocComponents.Text.Basic
import Mathlib.Data.List.DropRight
import Mathlib.Data.List.TakeWhile

/-!
# Trimmed texts

Trimming takes away blanks at both ends and nothing else, and what it leaves begins and ends with
other characters. A text is told to be trimmed by these two characters, so padding can be taken away
from a text without looking into it.
-/

set_option autoImplicit false

namespace DocComponents.Text

/-- A text whose first and last characters are no blanks. The empty text is trimmed. -/
structure IsTrimmed (text : Text) : Prop where
  head : ∀ char, text.head? = some char → isBlank char = false
  last : ∀ char, text.getLast? = some char → isBlank char = false

def IsBlankText (text : Text) : Prop :=
  ∀ char ∈ text, isBlank char = true

instance (text : Text) : Decidable (IsBlankText text) :=
  List.decidableBAll (fun char => isBlank char = true) text

theorem isBlank_of_isSpace {char : Char} (space : isSpace char = true) : isBlank char = true := by
  rw [isBlank, space, Bool.true_or]

theorem isBlankText_nil : IsBlankText [] :=
  List.forall_mem_nil _

theorem isBlankText_replicate {char : Char} (blank : isBlank char = true) (count : Nat) :
    IsBlankText (List.replicate count char) := by
  intro other member
  rw [List.eq_of_mem_replicate member]
  exact blank

theorem isBlankText_lineFeed : IsBlankText ['\n'] :=
  isBlankText_replicate (by decide) 1

theorem IsBlankText.append {left right : Text} (blankLeft : IsBlankText left)
    (blankRight : IsBlankText right) : IsBlankText (left ++ right) := by
  intro char member
  rcases List.mem_append.mp member with inLeft | inRight
  · exact blankLeft char inLeft
  · exact blankRight char inRight

private theorem trim_eq_rdropWhile (text : Text) :
    trim text = (text.dropWhile isBlank).rdropWhile isBlank := rfl

private theorem head?_rdropWhile_of_some (inClass : Char → Bool) {text : Text} {char : Char}
    (found : (text.rdropWhile inClass).head? = some char) : text.head? = some char := by
  obtain ⟨after, whole⟩ := List.rdropWhile_prefix inClass text
  rw [← whole, List.head?_append, found]
  rfl

theorem isTrimmed_trim (text : Text) : IsTrimmed (trim text) := by
  constructor
  · intro char found
    have first : (text.dropWhile isBlank).head? = some char :=
      head?_rdropWhile_of_some isBlank found
    have outside := List.head?_dropWhile_not isBlank text
    simpa [first] using outside
  · intro char found
    have kept : (text.dropWhile isBlank).rdropWhile isBlank ≠ [] := by
      intro empty
      simp [trim_eq_rdropWhile, empty] at found
    have outside := List.rdropWhile_last_not isBlank (text.dropWhile isBlank) kept
    have last := List.getLast?_eq_some_getLast kept
    have same : ((text.dropWhile isBlank).rdropWhile isBlank).getLast kept = char :=
      Option.some.inj (last.symm.trans found)
    simpa [same] using outside

/-- A text is what is left of it between two texts of characters that are taken away. -/
theorem exists_around_trimBoth (inClass : Char → Bool) (text : Text) :
    ∃ before after, text = before ++ trimBoth inClass text ++ after ∧
      (∀ char ∈ before, inClass char = true) ∧ ∀ char ∈ after, inClass char = true := by
  refine ⟨text.takeWhile inClass, (text.dropWhile inClass).rtakeWhile inClass, ?_, ?_, ?_⟩
  · have start := List.takeWhile_append_dropWhile (p := inClass) (l := text)
    have finish := List.rdropWhile_append_rtakeWhile (p := inClass)
      (l := text.dropWhile inClass)
    rw [List.append_assoc]
    exact (start.symm.trans (congrArg _ finish.symm))
  · intro char member
    exact List.mem_takeWhile_imp member
  · intro char member
    exact List.mem_rtakeWhile_imp member

theorem exists_blanks_around_trim (text : Text) :
    ∃ before after, text = before ++ trim text ++ after ∧
      IsBlankText before ∧ IsBlankText after :=
  exists_around_trimBoth isBlank text

theorem infix_trim (text : Text) : trim text <:+: text := by
  obtain ⟨before, after, whole, -, -⟩ := exists_blanks_around_trim text
  exact ⟨before, after, whole.symm⟩

theorem mem_of_mem_trim {text : Text} {char : Char} (member : char ∈ trim text) : char ∈ text :=
  (infix_trim text).subset member

/-- Blanks around a trimmed text are what trimming takes away. -/
theorem trim_pad {before core after : Text} (blankBefore : IsBlankText before)
    (blankAfter : IsBlankText after) (trimmed : IsTrimmed core) :
    trim (before ++ core ++ after) = core := by
  cases core with
  | nil =>
      have blank : IsBlankText (before ++ [] ++ after) := by
        intro char member
        simp only [List.append_nil, List.mem_append] at member
        exact member.elim (blankBefore char) (blankAfter char)
      rw [trim_eq_rdropWhile, List.dropWhile_eq_nil_iff.mpr blank, List.rdropWhile_nil]
  | cons first rest =>
      have started : (before ++ (first :: rest) ++ after).dropWhile isBlank =
          (first :: rest) ++ after := by
        rw [List.append_assoc, List.dropWhile_append_of_pos blankBefore, List.cons_append,
          List.dropWhile_cons_of_neg (by simp [trimmed.head first rfl])]
      have finished : ((first :: rest) ++ after).rdropWhile isBlank = first :: rest := by
        have blanks : ∀ char ∈ after.reverse, isBlank char = true := by
          intro char member
          exact blankAfter char (List.mem_reverse.mp member)
        rw [List.rdropWhile, List.reverse_append, List.dropWhile_append_of_pos blanks]
        apply List.rdropWhile_eq_self_iff.mpr
        intro notEmpty
        have last := trimmed.last _ (List.getLast?_eq_some_getLast notEmpty)
        simp [last]
      rw [trim_eq_rdropWhile, started, finished]

theorem length_trim_le (text : Text) : (trim text).length ≤ text.length := by
  obtain ⟨before, after, whole, -, -⟩ := exists_blanks_around_trim text
  have lengths := congrArg List.length whole
  simp only [List.length_append] at lengths
  omega

theorem trim_append_of_blank {before : Text} (blanks : IsBlankText before) (text : Text) :
    trim (before ++ text) = trim text := by
  obtain ⟨lead, after, whole, blankLead, blankAfter⟩ := exists_blanks_around_trim text
  have shape : before ++ text = (before ++ lead) ++ trim text ++ after := by
    conv_lhs => rw [whole]
    simp
  rw [shape, trim_pad (blanks.append blankLead) blankAfter (isTrimmed_trim text)]

theorem trim_append_blanks (text : Text) {after : Text} (blanks : IsBlankText after) :
    trim (text ++ after) = trim text := by
  obtain ⟨before, trail, whole, blankBefore, blankTrail⟩ := exists_blanks_around_trim text
  have shape : text ++ after = before ++ trim text ++ (trail ++ after) := by
    conv_lhs => rw [whole]
    simp
  rw [shape, trim_pad blankBefore (blankTrail.append blanks) (isTrimmed_trim text)]

/-- Trimming takes away what was left by taking away some blanks only. -/
theorem trim_trimBoth {inClass : Char → Bool}
    (blanks : ∀ char, inClass char = true → isBlank char = true) (text : Text) :
    trim (trimBoth inClass text) = trim text := by
  obtain ⟨before, after, whole, inBefore, inAfter⟩ := exists_around_trimBoth inClass text
  have blankBefore : IsBlankText before := fun char member => blanks char (inBefore char member)
  have blankAfter : IsBlankText after := fun char member => blanks char (inAfter char member)
  conv_rhs => rw [whole]
  rw [trim_append_blanks _ blankAfter, trim_append_of_blank blankBefore]

theorem exists_blanks_behind_trimEnd (text : Text) :
    ∃ after, text = trimEnd isBlank text ++ after ∧ IsBlankText after := by
  refine ⟨text.rtakeWhile isBlank, ?_, fun char member => List.mem_rtakeWhile_imp member⟩
  exact (List.rdropWhile_append_rtakeWhile (p := isBlank) (l := text)).symm

theorem trim_trimEnd (text : Text) : trim (trimEnd isBlank text) = trim text := by
  obtain ⟨after, whole, blanks⟩ := exists_blanks_behind_trimEnd text
  conv_rhs => rw [whole]
  rw [trim_append_blanks _ blanks]

/-- Characters of the class at the end do not matter. -/
theorem trimEnd_append_of_forall {inClass : Char → Bool} {after : Text}
    (inside : ∀ char ∈ after, inClass char = true) (text : Text) :
    trimEnd inClass (text ++ after) = trimEnd inClass text := by
  have reversed : ∀ char ∈ after.reverse, inClass char = true := fun char member =>
    inside char (List.mem_reverse.mp member)
  rw [trimEnd, List.reverse_append, List.dropWhile_append_of_pos reversed, trimEnd]

theorem trimEnd_of_blanks {text : Text} (blanks : IsBlankText text) :
    trimEnd isBlank text = [] := by
  have reversed : ∀ char ∈ text.reverse, isBlank char = true := fun char member =>
    blanks char (List.mem_reverse.mp member)
  rw [trimEnd, List.dropWhile_eq_nil_iff.mpr reversed, List.reverse_nil]

/-- What stands before another character than a blank is not trimmed from the end. -/
theorem trimEnd_append_cons (left : Text) {char : Char} (plain : isBlank char = false)
    (right : Text) :
    trimEnd isBlank (left ++ char :: right) = left ++ char :: trimEnd isBlank right := by
  have start : (char :: left.reverse).dropWhile isBlank = char :: left.reverse :=
    List.dropWhile_cons_of_neg (by simp [plain])
  have shape : (left ++ char :: right).reverse = right.reverse ++ char :: left.reverse := by simp
  rw [trimEnd, trimEnd, shape, List.dropWhile_append, start]
  split
  · next empty => simp [List.isEmpty_iff.mp empty]
  · simp

theorem trimEnd_of_getLast? {text : Text}
    (lasts : ∀ last, text.getLast? = some last → isBlank last = false) :
    trimEnd isBlank text = text := by
  obtain rfl | ⟨start, last, rfl⟩ := text.eq_nil_or_concat
  · rfl
  · rw [List.concat_eq_append] at lasts ⊢
    exact trimEnd_append_cons start (lasts last (by simp)) []

theorem exists_trimEnd_cons {inClass : Char → Bool} {char : Char} (plain : inClass char = false)
    (text : Text) : ∃ rest, trimEnd inClass (char :: text) = char :: rest := by
  rw [trimEnd, List.reverse_cons, List.dropWhile_append]
  split
  · exact ⟨[], by simp [plain]⟩
  · exact ⟨(text.reverse.dropWhile inClass).reverse, by simp⟩

theorem exists_trimBoth_cons {inClass : Char → Bool} {char : Char} (plain : inClass char = false)
    (text : Text) : ∃ rest, trimBoth inClass (char :: text) = char :: rest := by
  have kept : trimStart inClass (char :: text) = char :: text :=
    List.dropWhile_cons_of_neg (by simp [plain])
  rw [trimBoth, kept]
  exact exists_trimEnd_cons plain text

theorem trimBoth_trimBoth (inClass : Char → Bool) (text : Text) :
    trimBoth inClass (trimBoth inClass text) = trimBoth inClass text := by
  have started : trimStart inClass (trimBoth inClass text) = trimBoth inClass text := by
    cases kept : text.dropWhile inClass with
    | nil =>
        rw [trimBoth, trimStart, trimStart, kept]
        rfl
    | cons first rest =>
        have plain : inClass first = false := by
          have outside := List.head?_dropWhile_not inClass text
          simpa [kept] using outside
        obtain ⟨more, shape⟩ := exists_trimEnd_cons plain rest
        rw [trimBoth, trimStart, trimStart, kept, shape]
        exact List.dropWhile_cons_of_neg (by simp [plain])
  have ended : trimEnd inClass (trimBoth inClass text) = trimBoth inClass text :=
    List.rdropWhile_idempotent inClass (trimStart inClass text)
  rw [trimBoth, started, ended]

/-- A text that is no longer than what trimming leaves of it is trimmed. -/
theorem trimBoth_eq_of_length_le {inClass : Char → Bool} {text : Text}
    (long : text.length ≤ (trimBoth inClass text).length) : trimBoth inClass text = text := by
  obtain ⟨before, after, whole, -, -⟩ := exists_around_trimBoth inClass text
  have lengths := congrArg List.length whole
  simp only [List.length_append] at lengths
  have noBefore : before = [] := List.eq_nil_of_length_eq_zero (by omega)
  have noAfter : after = [] := List.eq_nil_of_length_eq_zero (by omega)
  rw [noBefore, noAfter, List.nil_append, List.append_nil] at whole
  exact whole.symm

theorem trimStart_append_cons (left : Text) {char : Char} (plain : isBlank char = false)
    (right : Text) :
    trimStart isBlank (left ++ char :: right) = trimStart isBlank left ++ char :: right := by
  rw [trimStart, trimStart, List.dropWhile_append, List.dropWhile_cons_of_neg (by simp [plain])]
  split
  · next empty => simp [List.isEmpty_iff.mp empty]
  · rfl

theorem trim_append_cons (left : Text) {char : Char} (plain : isBlank char = false)
    (right : Text) :
    trim (left ++ char :: right) = trimStart isBlank left ++ char :: trimEnd isBlank right := by
  rw [trim, trimBoth, trimStart_append_cons _ plain, trimEnd_append_cons _ plain]

/-- Trimming at the end leaves the blanks at the beginning. -/
theorem exists_blanks_before_trim (text : Text) :
    ∃ before, IsBlankText before ∧ trimEnd isBlank text = before ++ trim text := by
  have whole := List.takeWhile_append_dropWhile (p := isBlank) (l := text)
  have blanks : IsBlankText (text.takeWhile isBlank) := fun char member =>
    List.mem_takeWhile_imp member
  cases found : text.dropWhile isBlank with
  | nil =>
      rw [found, List.append_nil] at whole
      rw [← whole, trimEnd_of_blanks blanks, trim, trimBoth, trimStart, whole, found]
      exact ⟨[], isBlankText_nil, rfl⟩
  | cons char rest =>
      have plain : isBlank char = false := by
        have first := List.head?_dropWhile_not isBlank text
        simpa [found] using first
      have trimmed : trim text = trimEnd isBlank (char :: rest) := by
        rw [trim, trimBoth, trimStart, found]
      refine ⟨_, blanks, ?_⟩
      conv_lhs => rw [← whole, found, trimEnd_append_cons _ plain]
      rw [trimmed]
      exact congrArg _ (trimEnd_append_cons [] plain rest).symm

theorem IsTrimmed.trim_eq {text : Text} (trimmed : IsTrimmed text) : trim text = text := by
  simpa using trim_pad isBlankText_nil isBlankText_nil trimmed

theorem trim_eq_iff {text : Text} : trim text = text ↔ IsTrimmed text :=
  ⟨fun same => same ▸ isTrimmed_trim text, IsTrimmed.trim_eq⟩

instance (text : Text) : Decidable (IsTrimmed text) :=
  decidable_of_iff _ trim_eq_iff

end DocComponents.Text
