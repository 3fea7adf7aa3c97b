import DocComponents.Proofs.Style.Rescoping

/-!
# Splitting a selector list

Splitting a list gives parts that are found again when they are joined, with or without attribute
selectors in front of them. It loses the commas that separate them and the white space next to these
commas and at the ends of the list, and nothing else. Which characters these are is told by what
stands in front of a place and behind it, without cutting the list.
-/

set_option autoImplicit false

namespace DocComponents.Selector

open Text (IsBlankText IsTrimmed)

/-! ## What splitting leaves out

The characters in front of a place are given with the last one first. -/

/-- What is open at a place of a list. -/
def Nesting.behind (seen : Text) : Nesting :=
  ({} : Nesting).after seen.reverse

/-- Nothing but white space stands in front of a place, back to the beginning of the list or to a
comma that separates. -/
def beginsPart : (seen : Text) → Bool
  | [] => true
  | char :: earlier =>
    if Text.isBlank char then beginsPart earlier else (Nesting.behind earlier).separates char

/-- Nothing but white space stands behind a place, up to the end of the list or to a comma that
separates. -/
def endsPart : (seen rest : Text) → Bool
  | _, [] => true
  | seen, char :: rest =>
    if Text.isBlank char then endsPart (char :: seen) rest
    else (Nesting.behind seen).separates char

/-- The commas that separate, and the white space next to them and at the ends of a list. -/
def isBetweenParts (seen : Text) (char : Char) (rest : Text) : Bool :=
  (Nesting.behind seen).separates char ||
    Text.isBlank char && (beginsPart seen || endsPart (char :: seen) rest)

/-- The rest of a list without the characters between its parts. -/
def partsText : (seen rest : Text) → Text
  | _, [] => []
  | seen, char :: rest =>
    if isBetweenParts seen char rest then partsText (char :: seen) rest
    else char :: partsText (char :: seen) rest

variable {seen part rest : Text} {char : Char}

theorem Nesting.behind_cons (char : Char) (seen : Text) :
    behind (char :: seen) = (behind seen).step char := by
  unfold behind
  rw [List.reverse_cons, after_append]
  rfl

theorem Nesting.behind_append (seen part : Text) :
    behind (part.reverse ++ seen) = (behind seen).after part := by
  unfold behind
  rw [List.reverse_append, List.reverse_reverse, after_append]

theorem partsText_append_of_begins (begins : beginsPart seen = true) (blanks : IsBlankText part)
    (rest : Text) :
    partsText seen (part ++ rest) = partsText (part.reverse ++ seen) rest ∧
      beginsPart (part.reverse ++ seen) = true := by
  induction part generalizing seen with
  | nil => exact ⟨rfl, begins⟩
  | cons char others ih =>
      have blank := blanks char List.mem_cons_self
      have goesOn : beginsPart (char :: seen) = true := by rw [beginsPart, if_pos blank, begins]
      have later := ih goesOn fun other member => blanks other (List.mem_cons_of_mem _ member)
      have left : isBetweenParts seen char (others ++ rest) = true := by
        simp [isBetweenParts, blank, begins]
      rw [List.cons_append, partsText, if_pos left, List.reverse_cons, List.append_assoc,
        List.singleton_append]
      exact later

theorem partsText_append_of_ends (blanks : IsBlankText part)
    (ends : endsPart (part.reverse ++ seen) rest = true) :
    partsText seen (part ++ rest) = partsText (part.reverse ++ seen) rest := by
  have endsHere (others seen : Text) (blanks : IsBlankText others)
      (ends : endsPart (others.reverse ++ seen) rest = true) :
      endsPart seen (others ++ rest) = true := by
    induction others generalizing seen with
    | nil => exact ends
    | cons char others ih =>
        rw [List.cons_append, endsPart, if_pos (blanks char List.mem_cons_self)]
        exact ih _ (fun other member => blanks other (List.mem_cons_of_mem _ member))
          (by simpa using ends)
  induction part generalizing seen with
  | nil => rfl
  | cons char others ih =>
      have blank := blanks char List.mem_cons_self
      have later : IsBlankText others := fun other member =>
        blanks other (List.mem_cons_of_mem _ member)
      rw [List.reverse_cons, List.append_assoc, List.singleton_append] at ends ⊢
      have left : isBetweenParts seen char (others ++ rest) = true := by
        simp [isBetweenParts, blank, endsHere others (char :: seen) later ends]
      rw [List.cons_append, partsText, if_pos left]
      exact ih later ends

theorem endsPart_append_of_holds (holds : (Nesting.behind seen).Holds part)
    (notBlank : ¬ IsBlankText part) (rest : Text) : endsPart seen (part ++ rest) = false := by
  induction part generalizing seen with
  | nil => exact absurd Text.isBlankText_nil notBlank
  | cons char others ih =>
      rw [List.cons_append, endsPart]
      by_cases blank : Text.isBlank char = true
      · rw [if_pos blank]
        refine ih (by rw [Nesting.behind_cons]; exact holds.2) fun blanks => notBlank ?_
        intro other member
        rcases List.mem_cons.mp member with rfl | later
        · exact blank
        · exact blanks other later
      · rw [if_neg blank]
        exact holds.1

/-- Once a part has begun, none begins before the next comma. -/
theorem beginsPart_cons_eq_false (inside : (Nesting.behind seen).separates char = false)
    (begun : beginsPart seen = false ∨ Text.isBlank char = false) :
    beginsPart (char :: seen) = false := by
  rw [beginsPart]
  split
  · next blank => exact begun.resolve_right (by simp [blank])
  · exact inside

/-- A trimmed text without a separating comma is kept. -/
theorem partsText_append_of_holds (holds : (Nesting.behind seen).Holds part)
    (last : ∀ char, part.getLast? = some char → Text.isBlank char = false)
    (first : beginsPart seen = false ∨
      ∀ char, part.head? = some char → Text.isBlank char = false) (rest : Text) :
    partsText seen (part ++ rest) = part ++ partsText (part.reverse ++ seen) rest := by
  induction part generalizing seen with
  | nil => rfl
  | cons char others ih =>
      obtain ⟨inside, holdsLater⟩ := holds
      rw [← Nesting.behind_cons] at holdsLater
      have begun : beginsPart seen = false ∨ Text.isBlank char = false :=
        first.imp_right fun notBlank => notBlank char rfl
      have goesOn (blank : Text.isBlank char = true) : ¬ IsBlankText others := fun blanks => by
        have found : (char :: others).getLast? = some (others.getLast?.getD char) :=
          List.getLast?_cons
        have all : IsBlankText (char :: others) := List.forall_mem_cons.mpr ⟨blank, blanks⟩
        exact absurd (last _ found) (by simp [all _ (List.mem_of_getLast? found)])
      -- Behind the first character no part begins, and white space has the last one behind it.
      have kept : isBetweenParts seen char (others ++ rest) = false := by
        by_cases blank : Text.isBlank char = true
        · have notEnded := endsPart_append_of_holds holdsLater (goesOn blank) rest
          simp [isBetweenParts, inside, begun.resolve_right (by simp [blank]), notEnded]
        · simp [isBetweenParts, inside, blank]
      have lastLater : ∀ other, others.getLast? = some other → Text.isBlank other = false := by
        intro other found
        exact last other (by rw [List.getLast?_cons, found]; rfl)
      rw [List.cons_append, partsText, kept,
        ih holdsLater lastLater (.inl (beginsPart_cons_eq_false inside begun))]
      simp

/-- Of a part between two separating commas, or between these and the ends, what trimming leaves is
kept. -/
theorem partsText_append (begins : beginsPart seen = true) (nothing : Nesting.behind seen = {})
    (holds : ({} : Nesting).Holds part) (ends : endsPart (part.reverse ++ seen) rest = true) :
    partsText seen (part ++ rest) =
      Text.trim part ++ partsText (part.reverse ++ seen) rest := by
  obtain ⟨before, after, whole, blankBefore, blankAfter⟩ := Text.exists_blanks_around_trim part
  have trimmed := Text.isTrimmed_trim part
  have holdsTrimmed := (Nesting.valid_empty.trim part).2.mpr holds
  rw [whole] at ends
  conv_lhs => rw [whole]
  conv_rhs => rw [whole, Text.trim_pad blankBefore blankAfter trimmed]
  simp only [List.reverse_append, List.append_assoc] at ends ⊢
  obtain ⟨start, beginsBehind⟩ := partsText_append_of_begins begins blankBefore
    (Text.trim part ++ (after ++ rest))
  have nothingBehind : Nesting.behind (before.reverse ++ seen) = {} := by
    rw [Nesting.behind_append, nothing]
    exact (Nesting.valid_empty.after_blanks blankBefore).1
  rw [start, partsText_append_of_holds (by rw [nothingBehind]; exact holdsTrimmed) trimmed.last
    (.inr trimmed.head), partsText_append_of_ends blankAfter ends]

theorem partsText_join {nesting : Nesting} {parts : List Text} (raw : RawParts nesting parts)
    (start : nesting = {}) (nothing : Nesting.behind seen = {}) (begins : beginsPart seen = true) :
    partsText seen (Text.join [','] parts) = (parts.map Text.trim).flatten := by
  induction raw generalizing seen with
  | @last nesting part holds =>
      subst start
      have ends : endsPart (part.reverse ++ seen) [] = true := rfl
      have kept := partsText_append begins nothing holds ends
      simpa [Text.join, partsText] using kept
  | @next nesting part parts holds closed later ih =>
      subst start
      obtain ⟨next, others, rfl⟩ : ∃ next others, parts = next :: others := by
        cases later <;> exact ⟨_, _, rfl⟩
      have nothingBehind : Nesting.behind (part.reverse ++ seen) = {} := by
        rw [Nesting.behind_append, nothing, closed]
      have separates : (Nesting.behind (part.reverse ++ seen)).separates ',' = true := by
        rw [nothingBehind]
        rfl
      have ends : endsPart (part.reverse ++ seen) (',' :: Text.join [','] (next :: others)) =
          true := separates
      have left : isBetweenParts (part.reverse ++ seen) ',' (Text.join [','] (next :: others)) =
          true := by
        rw [isBetweenParts, separates, Bool.true_or]
      rw [Text.join_cons_cons, List.singleton_append, partsText_append begins nothing holds ends,
        partsText, if_pos left, List.map_cons, List.flatten_cons]
      refine congrArg _ (ih rfl ?_ separates)
      rw [Nesting.behind_cons, nothingBehind]
      rfl

theorem flatten_split (selectors : Text) : (split selectors).flatten = partsText [] selectors := by
  have begins : beginsPart [] = true := rfl
  have whole := partsText_join (rawParts_spec {} selectors) rfl rfl begins
  rw [join_rawParts] at whole
  rw [whole, split, List.flatten_filter_not_isEmpty]

/-! ## Splitting again -/

/-- A selector as it is, or under the attribute selector of a token without double quotes. -/
def IsUnderAttribute (selector written : Text) : Prop :=
  written = selector ∨
    ∃ token, '"' ∉ token ∧ written = Style.scopeAttribute token ++ ' ' :: selector

theorem IsUnderAttribute.isLed {selector written : Text}
    (under : IsUnderAttribute selector written) : IsLed selector written := by
  rcases under with rfl | ⟨token, quoteFree, rfl⟩
  · exact .alone
  · exact .under (Style.isLead_scopeAttribute quoteFree)

/-- Splitting is stable and loses nothing. The parts of any list, however unbalanced, are trimmed
texts with characters; joined again, each as it is or under an attribute selector, they are the
parts of the joined list; and one after the other they are the list without the commas that separate
them and the white space next to these commas and at its ends. -/
theorem split_stable_and_lossless (selectors : Text) :
    (∀ part ∈ split selectors, part ≠ [] ∧ Text.trim part = part) ∧
      (∀ written, List.Forall₂ IsUnderAttribute (split selectors) written →
        split (Text.join [',', ' '] written) = written) ∧
      (split selectors).flatten = partsText [] selectors := by
  have separable := split_separable selectors
  refine ⟨fun part isPart => ?_, fun written under => ?_, flatten_split selectors⟩
  · have selector := separable.isSelector part isPart
    exact ⟨selector.notEmpty, selector.trimmed.trim_eq⟩
  · have led := separable.of_led (under.imp fun _ _ => IsUnderAttribute.isLed)
    simpa using split_join led Text.isBlankText_nil Text.isBlankText_nil

theorem split_stable_and_lossless_unbalanced :
    let selectors := " .a ,\t:is(.b, c] ) ,, [d='1,2' , \"e ".toList
    let parts := [".a".toList, ":is(.b, c] )".toList, "[d='1,2' , \"e".toList]
    let written := [".a".toList, "[data-scope=\"x'],(\"] :is(.b, c] )".toList,
      "[data-scope=\"t\"] [d='1,2' , \"e".toList]
    split selectors = parts ∧
      (∀ part ∈ parts, part ≠ [] ∧ Text.trim part = part) ∧
      List.Forall₂ IsUnderAttribute parts written ∧
      split (Text.join [',', ' '] written) = written ∧
      partsText [] selectors = parts.flatten := by
  intro selectors parts written
  have found : split selectors = parts := by decide
  obtain ⟨trimmed, stable, lossless⟩ := split_stable_and_lossless selectors
  rw [found] at trimmed stable lossless
  have under : List.Forall₂ IsUnderAttribute parts written :=
    .cons (.inl rfl) (.cons (.inr ⟨"x'],(".toList, by decide, by decide⟩)
      (.cons (.inr ⟨['t'], by decide, by decide⟩) .nil))
  exact ⟨found, trimmed, under, stable written under, lossless.symm⟩

end DocComponents.Selector
