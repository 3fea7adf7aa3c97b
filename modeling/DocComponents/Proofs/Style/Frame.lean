import DocComponents.Proofs.Style.Segments

/-!
# What scoping leaves alone

Scoping writes into selector lists only. Whatever a stylesheet holds, and however it is malformed,
it is cut into as many segments as before, at the same delimiters: declarations and the preludes of
at-rules are the same, and any other segment is the same or is a selector list with its selectors
under the lead.
-/

set_option autoImplicit false

namespace DocComponents.Style

/-- The segments of a text and what stands behind its last delimiter. -/
structure IsCut (text : Text) (segments : List Segment) (tail : Text) : Prop where
  whole : ∀ segment ∈ segments, segment.IsWhole
  uncut : IsUncut tail
  shape : segmentsText segments ++ tail = text

/-- A text is cut in one way. -/
theorem isCut_iff {text : Text} {segments : List Segment} {tail : Text} :
    IsCut text segments tail ↔ cut text = (segments, tail) := by
  constructor
  · intro isCut
    rw [← isCut.shape, cut_segmentsText isCut.whole isCut.uncut]
  · intro found
    obtain ⟨whole, uncut⟩ := cut_isWhole text
    have shape := segmentsText_cut text
    rw [found] at whole uncut shape
    exact ⟨whole, uncut, shape⟩

/-- A selector list with each of its selectors under a lead. -/
def listUnder (lead text : Text) : Text :=
  text.takeWhile Text.isBlank ++
    Text.join [',', ' '] ((Selector.split text).map (Selector.scope lead)) ++ [' ']

/-- What a segment can become under a lead. -/
structure Segment.Becomes (lead : Text) (old new : Segment) : Prop where
  stop_eq : new.stop = old.stop
  /-- Declarations stay. -/
  kept_of_stop : old.stop ≠ '{' → new = old
  /-- The preludes of at-rules stay. -/
  kept_of_at : '@' ∈ old.text ∨ '@' ∈ new.text → new = old
  kept_or_listUnder : new = old ∨ new.text = listUnder lead old.text

theorem Segment.becomes_self (lead : Text) (segment : Segment) : segment.Becomes lead segment where
  stop_eq := rfl
  kept_of_stop _ := rfl
  kept_of_at _ := rfl
  kept_or_listUnder := .inl rfl

theorem Segment.becomes_scopeList {lead : Text} (isLead : IsListText lead) {segment : Segment}
    (uncut : IsUncut segment.text) (opens : segment.opensRule = true) :
    segment.Becomes lead { segment with text := scopeList lead segment.text } := by
  simp only [opensRule, Bool.and_eq_true, beq_iff_eq, Bool.not_eq_true', List.contains_eq_mem,
    decide_eq_false_iff_not] at opens
  obtain ⟨⟨brace, -⟩, noAt⟩ := opens
  have isList : IsListText segment.text := isListText_iff.mpr ⟨uncut, noAt⟩
  refine ⟨rfl, fun other => absurd brace other, ?_, ?_⟩
  · rintro (before | after)
    · exact absurd before noAt
    · exact absurd after (isListText_scopeList isLead isList).noAt
  · by_cases noSelectors : Selector.split segment.text = []
    · rw [scopeList_of_split_eq_nil noSelectors]
      exact .inl rfl
    · exact .inr (scopeList_of_split_ne_nil noSelectors)

/-- Segment by segment, scoping leaves a segment alone or writes into its selector list. -/
theorem forall₂_becomes_scopeSegments {lead : Text} (isLead : IsListText lead)
    {segments : List Segment} (whole : ∀ segment ∈ segments, segment.IsWhole) (free : Bool) :
    List.Forall₂ (Segment.Becomes lead) segments (scopeSegments lead free segments) := by
  induction segments generalizing free with
  | nil => exact .nil
  | cons segment rest ih =>
      have later := ih fun other member => whole other (List.mem_cons_of_mem _ member)
      have uncut := (whole segment List.mem_cons_self).text
      rw [scopeSegments]
      by_cases rule : (free && segment.opensRule) = true
      · rw [if_pos rule]
        rw [Bool.and_eq_true] at rule
        exact .cons (Segment.becomes_scopeList isLead uncut rule.2) (later false)
      · rw [if_neg rule]
        exact .cons (Segment.becomes_self lead segment) (later true)

theorem map_stop_scopeSegments (lead : Text) (free : Bool) (segments : List Segment) :
    (scopeSegments lead free segments).map Segment.stop = segments.map Segment.stop := by
  induction segments generalizing free with
  | nil => rfl
  | cons segment rest ih =>
      rw [scopeSegments]
      split <;> simp [ih]

/-- A list is met where the segment before it opens no rule. -/
theorem getElem?_scopeSegments {left : List Segment} {segment : Segment}
    (opens : segment.opensRule = true) (hasSelectors : Selector.split segment.text ≠ [])
    (apart : ∀ previous, left.getLast? = some previous → previous.opensRule = false)
    (lead : Text) (right : List Segment) :
    (scopeSegments lead true (left ++ segment :: right))[left.length]? =
      some { segment with text := listUnder lead segment.text } := by
  have free : freeBehind true left = true := by
    rcases List.eq_nil_or_concat' left with rfl | ⟨earlier, previous, rfl⟩
    · rfl
    · rw [freeBehind_append, freeBehind, apart previous (by simp), Bool.and_false]
      rfl
  have length : (scopeSegments lead true left).length = left.length := by
    simpa using congrArg List.length (map_stop_scopeSegments lead true left)
  rw [scopeSegments_append, free, scopeSegments, if_pos (by rw [opens]; rfl),
    scopeList_of_split_ne_nil hasSelectors,
    List.getElem?_append_right (Nat.le_of_eq length), length, Nat.sub_self]
  rfl

/-- Scoping changes nothing but selector lists, in any text: it is cut at the same delimiters as
before, what stands behind the last of them stays, and so does each segment that does not end with
an opening brace or that holds an at sign; any other segment stays or becomes the list under the
lead. A list with selectors becomes it unless the segment right before it opens a rule as well. -/
theorem scope_changes_lists_only {token : Text} (isList : IsListText token) (css : Text) :
    ∃ before after tail,
      IsCut css before tail ∧ IsCut (scope css token) after tail ∧
        after.map Segment.stop = before.map Segment.stop ∧
        List.Forall₂ (Segment.Becomes (scopeAttribute token)) before after ∧
        ∀ left segment right, before = left ++ segment :: right → segment.opensRule = true →
          Selector.split segment.text ≠ [] →
          (∀ previous, left.getLast? = some previous → previous.opensRule = false) →
          after[left.length]? =
            some { segment with text := listUnder (scopeAttribute token) segment.text } := by
  have isLead := isListText_scopeAttribute isList
  have before : IsCut css (cut css).1 (cut css).2 := isCut_iff.mpr rfl
  have after : IsCut (scope css token)
      (scopeSegments (scopeAttribute token) true (cut css).1) (cut css).2 :=
    ⟨scopeSegments_isWhole isLead.isUncut before.whole true, before.uncut, rfl⟩
  refine ⟨_, _, _, before, after, map_stop_scopeSegments _ true _,
    forall₂_becomes_scopeSegments isLead before.whole true, ?_⟩
  intro left segment right shape opens hasSelectors apart
  rw [shape]
  exact getElem?_scopeSegments opens hasSelectors apart _ right

/-- A token that ends its quote, and a stylesheet with braces that match nothing. -/
theorem scope_changes_lists_only_malformed :
    let token := "a\"b".toList
    let css := "\x7d .a, , #b\x7b \x7b;\x7b @media .c\x7b x:y".toList
    IsListText token ∧
      ∃ before after tail,
        IsCut css before tail ∧ IsCut (scope css token) after tail ∧
          after.map Segment.stop = before.map Segment.stop ∧
          List.Forall₂ (Segment.Becomes (scopeAttribute token)) before after := by
  intro token css
  have isList : IsListText token := by decide
  obtain ⟨before, after, tail, cutBefore, cutAfter, stops, becomes, -⟩ :=
    scope_changes_lists_only isList css
  exact ⟨isList, before, after, tail, cutBefore, cutAfter, stops, becomes⟩

end DocComponents.Style
