import DocComponents.Proofs.Style.Attribute
import DocComponents.Proofs.Text.Replace

/-!
# Scoping under another token

Scoping decides by the stylesheet what it puts under the attribute selector, and looks at the token
only to see that it is there already. So a stylesheet that holds neither of two tokens is scoped
under both at the same places, and replacing one by the other in what was scoped is scoping under
the other.
-/

set_option autoImplicit false

namespace DocComponents.Style

/-- A word with two hyphens at least, as tokens are. -/
structure IsHyphenated (token : Text) : Prop where
  names : IsNameText token
  hyphens : 2 ≤ token.count '-'

/-- A text in which no word has two hyphens, as the markup around tokens is. -/
def HasPlainWords (text : Text) : Prop :=
  ∀ word ∈ Text.cutAt (fun char => !isNameChar char) text, word.count '-' < 2

instance (text : Text) : Decidable (HasPlainWords text) :=
  List.decidableBAll (fun word : Text => word.count '-' < 2) _

theorem scopeAttribute_append (token selector : Text) :
    scopeAttribute token ++ ' ' :: selector =
      "[data-scope=".toList ++ '"' :: (token ++ '"' :: ([']'] ++ ' ' :: selector)) := by
  have start : attributeStart = "[data-scope=".toList ++ ['"'] := by decide
  rw [scopeAttribute_eq, start]
  simp

section

variable {token other : Text} (hyphenated : IsHyphenated token)

include hyphenated

theorem IsHyphenated.ne_nil : token ≠ [] := by
  rintro rfl
  exact absurd hyphenated.hyphens (by decide)

theorem IsHyphenated.absent {text : Text} (plain : HasPlainWords text) :
    ¬ token <:+: text := by
  intro inside
  have unbroken : ∀ char ∈ token, (!isNameChar char) = false := fun char member => by
    simp [hyphenated.names char member]
  obtain ⟨word, isWord, held⟩ := Text.exists_part_holding unbroken inside
  have fewer := plain word isWord
  have notFewer := held.sublist.count_le '-'
  have hyphens := hyphenated.hyphens
  omega

/-- What stands around a token is replaced apart where a character that is in no word ends it. -/
theorem IsHyphenated.replace_append_cons {char : Char} (noName : isNameChar char = false)
    (left right : Text) :
    Text.replace token other (left ++ char :: right) =
      Text.replace token other left ++ char :: Text.replace token other right :=
  Text.replace_append_cons hyphenated.ne_nil other (not_mem_of_isNameText hyphenated.names noName)
    left right

theorem IsHyphenated.replace_plain_append_cons {left : Text} (plain : HasPlainWords left)
    {char : Char} (noName : isNameChar char = false) (right : Text) :
    Text.replace token other (left ++ char :: right) =
      left ++ char :: Text.replace token other right := by
  rw [hyphenated.replace_append_cons noName,
    Text.replace_of_absent (hyphenated.absent plain)]

/-- A token between double quotes gives way to the other one. -/
theorem IsHyphenated.replace_quoted {left : Text} (plain : HasPlainWords left) (right : Text) :
    Text.replace token other (left ++ '"' :: (token ++ '"' :: right)) =
      left ++ '"' :: (other ++ '"' :: Text.replace token other right) := by
  have noName : isNameChar '"' = false := by decide
  have apart := not_mem_of_isNameText hyphenated.names noName
  rw [hyphenated.replace_plain_append_cons plain noName,
    Text.replace_append hyphenated.ne_nil,
    Text.replace_cons_of_not_mem hyphenated.ne_nil other apart]

theorem replace_scopeAttribute_append (selector : Text) :
    Text.replace token other (scopeAttribute token ++ ' ' :: selector) =
      scopeAttribute other ++ ' ' :: Text.replace token other selector := by
  rw [scopeAttribute_append, scopeAttribute_append, hyphenated.replace_quoted (by decide),
    hyphenated.replace_plain_append_cons (by decide) (by decide)]

end

theorem startsWith_scopeAttribute_eq_false {token selector : Text}
    (absent : ¬ token <:+: selector) :
    Text.startsWith selector (scopeAttribute token) = false := by
  rw [← Bool.not_eq_true, Text.startsWith_eq_true_iff]
  rintro ⟨rest, rfl⟩
  rw [scopeAttribute_eq] at absent
  exact absent ⟨attributeStart, ['"', ']'] ++ rest, by simp⟩

/-- Both tokens are put in front of the same selectors. -/
theorem isExempt_scopeAttribute_congr {token other selector : Text}
    (absent : ¬ token <:+: selector) (absentOther : ¬ other <:+: selector) :
    Selector.isExempt (scopeAttribute token) selector =
      Selector.isExempt (scopeAttribute other) selector := by
  rw [Selector.isExempt, Selector.isExempt, startsWith_scopeAttribute_eq_false absent,
    startsWith_scopeAttribute_eq_false absentOther]

section

variable {token other : Text} (hyphenated : IsHyphenated token)

include hyphenated

theorem replace_scope_selector {selector : Text} (absent : ¬ token <:+: selector)
    (absentOther : ¬ other <:+: selector) :
    Text.replace token other (Selector.scope (scopeAttribute token) selector) =
      Selector.scope (scopeAttribute other) selector := by
  have same := isExempt_scopeAttribute_congr absent absentOther
  have kept := Text.replace_of_absent absent other
  by_cases exempt : Selector.isExempt (scopeAttribute token) selector = true
  · rw [Selector.scope, Selector.scope, if_pos exempt, if_pos (same ▸ exempt), kept]
  · rw [Selector.scope, Selector.scope, if_neg exempt, if_neg (same ▸ exempt),
      replace_scopeAttribute_append hyphenated, kept]

theorem replace_scopeList {text : Text} (absent : ¬ token <:+: text)
    (absentOther : ¬ other <:+: text) :
    Text.replace token other (scopeList (scopeAttribute token) text) =
      scopeList (scopeAttribute other) text := by
  by_cases noSelectors : Selector.split text = []
  · rw [scopeList_of_split_eq_nil noSelectors, scopeList_of_split_eq_nil noSelectors,
      Text.replace_of_absent absent]
  · have outside {char : Char} (noName : isNameChar char = false) : char ∉ token :=
      not_mem_of_isNameText hyphenated.names noName
    have blanks : ∀ char ∈ text.takeWhile Text.isBlank, char ∉ token := by
      intro char member inToken
      have isBlank := List.mem_takeWhile_imp member
      rw [isBlank_eq_false_of_isNameChar (hyphenated.names char inToken)] at isBlank
      cases isBlank
    have separator : ∀ char ∈ [',', ' '], char ∉ token := by
      simp [outside (by decide : isNameChar ',' = false),
        outside (by decide : isNameChar ' ' = false)]
    have selectors : ((Selector.split text).map (Selector.scope (scopeAttribute token))).map
          (Text.replace token other) =
        (Selector.split text).map (Selector.scope (scopeAttribute other)) := by
      rw [List.map_map]
      refine List.map_congr_left fun selector isSelector => ?_
      have inside := Selector.infix_of_mem_split isSelector
      exact replace_scope_selector hyphenated (fun held => absent (held.trans inside))
        fun held => absentOther (held.trans inside)
    rw [scopeList_of_split_ne_nil noSelectors, scopeList_of_split_ne_nil noSelectors,
      hyphenated.replace_append_cons (by decide),
      Text.replace_append_of_apart hyphenated.ne_nil other blanks,
      Text.replace_join hyphenated.ne_nil other separator, selectors]
    rfl

theorem replace_scopeSegments {segments : List Segment}
    (whole : ∀ segment ∈ segments, segment.IsWhole)
    (absent : ∀ segment ∈ segments, ¬ token <:+: segment.text ∧ ¬ other <:+: segment.text)
    {tail : Text} (absentTail : ¬ token <:+: tail) (free : Bool) :
    Text.replace token other
        (segmentsText (scopeSegments (scopeAttribute token) free segments) ++ tail) =
      segmentsText (scopeSegments (scopeAttribute other) free segments) ++ tail := by
  induction segments generalizing free with
  | nil => exact Text.replace_of_absent absentTail other
  | cons segment rest ih =>
      have later := ih (fun other member => whole other (List.mem_cons_of_mem _ member))
        fun other member => absent other (List.mem_cons_of_mem _ member)
      obtain ⟨absentHere, absentOther⟩ := absent segment List.mem_cons_self
      have noName : isNameChar segment.stop = false := by
        have delimiters := (whole segment List.mem_cons_self).stop
        simp only [isDelimiter, Bool.or_eq_true, beq_iff_eq] at delimiters
        rcases delimiters with (same | same) | same <;> rw [same] <;> decide
      have shape (text : Text) (others : List Segment) :
          segmentsText ({ segment with text } :: others) ++ tail =
            text ++ segment.stop :: (segmentsText others ++ tail) := by
        simp [segmentsText]
      rw [scopeSegments, scopeSegments]
      split
      · rw [shape, shape, hyphenated.replace_append_cons noName,
          replace_scopeList hyphenated absentHere absentOther, later]
      · rw [shape, shape, hyphenated.replace_append_cons noName,
          Text.replace_of_absent absentHere, later]

/-- Replacing one token by another in a scoped stylesheet is scoping it under the other. -/
theorem replace_scope {css : Text} (absent : ¬ token <:+: css) (absentOther : ¬ other <:+: css) :
    Text.replace token other (scope css token) = scope css other := by
  have whole := (cut_isWhole css).1
  have inside : ∀ segment ∈ (cut css).1, segment.text <:+: css := by
    intro segment member
    obtain ⟨left, right, shape⟩ := List.append_of_mem member
    have joined := segmentsText_cut css
    rw [shape] at joined
    exact ⟨segmentsText left, segment.stop :: (segmentsText right ++ (cut css).2), by
      simpa [segmentsText] using joined⟩
  have insideTail : (cut css).2 <:+: css :=
    ⟨segmentsText (cut css).1, [], by simpa using segmentsText_cut css⟩
  exact replace_scopeSegments hyphenated whole
    (fun segment member => ⟨fun held => absent (held.trans (inside segment member)),
      fun held => absentOther (held.trans (inside segment member))⟩)
    (fun held => absent (held.trans insideTail)) true

end

end DocComponents.Style
