import DocComponents.Proofs.Style.Rescoping

/-!
# Scoping part by part

A stylesheet is scoped part by part when every part but the last one ends with a delimiter. All that
a part leaves to the next one is whether its last brace was taken for the brace of a rule: then the
text behind that brace is no selector list.
-/

set_option autoImplicit false

namespace DocComponents.Style

/-- A text behind which a segment begins. -/
def IsClosed (text : Text) : Prop :=
  ∀ char, text.getLast? = some char → isDelimiter char = true

theorem isClosed_concat (text : Text) {stop : Char} (delimiter : isDelimiter stop = true) :
    IsClosed (text ++ [stop]) := by
  intro char found
  have last : stop = char := by simpa using found
  exact last ▸ delimiter

/-- Nothing stands behind the last delimiter of a closed text. -/
theorem IsClosed.cut_snd {text : Text} (closed : IsClosed text) : (cut text).2 = [] := by
  by_contra notEmpty
  have last := List.getLast?_eq_some_getLast notEmpty
  have found : text.getLast? = some ((cut text).2.getLast notEmpty) := by
    conv_lhs => rw [← segmentsText_cut text]
    rw [List.getLast?_append_of_ne_nil _ notEmpty, last]
  have inside := (cut_isWhole text).2 _ (List.getLast_mem notEmpty)
  rw [closed _ found] at inside
  cases inside

theorem segmentsText_append (left right : List Segment) :
    segmentsText (left ++ right) = segmentsText left ++ segmentsText right :=
  List.flatMap_append

theorem IsClosed.cut_append {left : Text} (closed : IsClosed left) (right : Text) :
    cut (left ++ right) = ((cut left).1 ++ (cut right).1, (cut right).2) := by
  obtain ⟨wholeLeft, -⟩ := cut_isWhole left
  obtain ⟨wholeRight, uncut⟩ := cut_isWhole right
  have whole : ∀ segment ∈ (cut left).1 ++ (cut right).1, segment.IsWhole := by
    intro segment member
    exact (List.mem_append.mp member).elim (wholeLeft segment) (wholeRight segment)
  have shape : left ++ right = segmentsText ((cut left).1 ++ (cut right).1) ++ (cut right).2 := by
    have leftText := segmentsText_cut left
    rw [closed.cut_snd, List.append_nil] at leftText
    rw [segmentsText_append, List.append_assoc, segmentsText_cut right, leftText]
  rw [shape, cut_segmentsText whole uncut]

theorem cut_of_isUncut {text : Text} (uncut : IsUncut text) : cut text = ([], text) := by
  simpa [segmentsText] using cut_segmentsText (List.forall_mem_nil Segment.IsWhole) uncut

/-- A delimiter ends the segment that holds what stands behind the last delimiter before it. -/
theorem cut_concat (text : Text) {stop : Char} (delimiter : isDelimiter stop = true) :
    cut (text ++ [stop]) = ((cut text).1 ++ [⟨(cut text).2, stop⟩], []) := by
  obtain ⟨whole, uncut⟩ := cut_isWhole text
  have wholeBoth : ∀ segment ∈ (cut text).1 ++ [(⟨(cut text).2, stop⟩ : Segment)],
      segment.IsWhole := by
    intro segment member
    rcases List.mem_append.mp member with earlier | last
    · exact whole segment earlier
    · rw [List.mem_singleton.mp last]
      exact ⟨uncut, delimiter⟩
  have shape : text ++ [stop] =
      segmentsText ((cut text).1 ++ [⟨(cut text).2, stop⟩]) ++ [] := by
    conv_lhs => rw [← segmentsText_cut text]
    simp [segmentsText]
  rw [shape, cut_segmentsText wholeBoth isUncut_nil]

/-- Whether a list can stand behind segments. -/
def freeBehind : (free : Bool) → List Segment → Bool
  | free, [] => free
  | free, segment :: rest => freeBehind (!(free && segment.opensRule)) rest

theorem freeBehind_append (free : Bool) (left right : List Segment) :
    freeBehind free (left ++ right) = freeBehind (freeBehind free left) right := by
  induction left generalizing free with
  | nil => rfl
  | cons segment rest ih => exact ih _

theorem scopeSegments_append (lead : Text) (free : Bool) (left right : List Segment) :
    scopeSegments lead free (left ++ right) =
      scopeSegments lead free left ++ scopeSegments lead (freeBehind free left) right := by
  induction left generalizing free with
  | nil => rfl
  | cons segment rest ih =>
      rw [List.cons_append, scopeSegments, scopeSegments, freeBehind]
      by_cases opens : (free && segment.opensRule) = true
      · rw [if_pos opens, if_pos opens, opens, ih]
        rfl
      · have others : (free && segment.opensRule) = false := by simpa using opens
        rw [if_neg opens, if_neg opens, others, ih]
        rfl

/-- What becomes of a text behind other text of a stylesheet. -/
def scopeFrom (lead : Text) (free : Bool) (css : Text) : Text :=
  segmentsText (scopeSegments lead free (cut css).1) ++ (cut css).2

theorem scope_eq_scopeFrom (css token : Text) :
    scope css token = scopeFrom (scopeAttribute token) true css := rfl

theorem IsClosed.scopeFrom_append {left : Text} (closed : IsClosed left) (lead : Text)
    (free : Bool) (right : Text) :
    scopeFrom lead free (left ++ right) =
      scopeFrom lead free left ++ scopeFrom lead (freeBehind free (cut left).1) right := by
  unfold scopeFrom
  rw [closed.cut_append, closed.cut_snd, scopeSegments_append, segmentsText_append,
    List.append_nil, List.append_assoc]

/-- The segment before a delimiter is scoped as a selector list, or it stays. -/
theorem scopeFrom_concat (lead : Text) (free : Bool) (text : Text) {stop : Char}
    (delimiter : isDelimiter stop = true) :
    scopeFrom lead free (text ++ [stop]) =
      segmentsText (scopeSegments lead free (cut text).1) ++
        (if (freeBehind free (cut text).1 &&
            (⟨(cut text).2, stop⟩ : Segment).opensRule) = true then
          scopeList lead (cut text).2 else (cut text).2) ++ [stop] := by
  unfold scopeFrom
  rw [cut_concat text delimiter, scopeSegments_append, segmentsText_append, scopeSegments]
  split <;> simp [scopeSegments, segmentsText]

/-- Where no brace opens, nothing is a selector list. -/
theorem scopeSegments_of_closing (lead : Text) (free : Bool) {segments : List Segment}
    (closing : ∀ segment ∈ segments, segment.opensRule = false) :
    scopeSegments lead free segments = segments := by
  induction segments generalizing free with
  | nil => rfl
  | cons segment rest ih =>
      have stays : (free && segment.opensRule) = false := by
        simp [closing segment List.mem_cons_self]
      rw [scopeSegments, if_neg (by simp [stays]),
        ih true fun other member => closing other (List.mem_cons_of_mem _ member)]

theorem freeBehind_of_closing {free : Bool} {segments : List Segment}
    (closing : ∀ segment ∈ segments, segment.opensRule = false)
    (free_or : free = true ∨ segments ≠ []) : freeBehind free segments = true := by
  induction segments generalizing free with
  | nil => simpa [freeBehind] using free_or
  | cons segment rest ih =>
      have stays : (free && segment.opensRule) = false := by
        simp [closing segment List.mem_cons_self]
      rw [freeBehind, stays]
      exact ih (fun other member => closing other (List.mem_cons_of_mem _ member)) (.inl rfl)

/-- A segment without a brace that opens is no list. -/
theorem opensRule_eq_false_of_not_mem {css : Text} (noBrace : '{' ∉ css) :
    ∀ segment ∈ (cut css).1, segment.opensRule = false := by
  intro segment member
  have apart : segment.stop ≠ '{' := by
    intro same
    apply noBrace
    rw [← segmentsText_cut css, ← same]
    have inside : segment.stop ∈ segmentsText (cut css).1 :=
      List.mem_flatMap.mpr ⟨segment, member, by simp⟩
    exact List.mem_append_left _ inside
  simp [Segment.opensRule, apart]

theorem scopeFrom_of_not_mem (lead : Text) (free : Bool) {css : Text} (noBrace : '{' ∉ css) :
    scopeFrom lead free css = css := by
  unfold scopeFrom
  rw [scopeSegments_of_closing lead free (opensRule_eq_false_of_not_mem noBrace),
    segmentsText_cut]

/-- Where no list opens a rule, a text stays, and a list can stand behind it. -/
theorem scopeFrom_append_of_closing (lead : Text) (free : Bool) {text : Text} {stop : Char}
    (delimiter : isDelimiter stop = true)
    (closing : ∀ segment ∈ (cut (text ++ [stop])).1, segment.opensRule = false) (rest : Text) :
    scopeFrom lead free (text ++ stop :: rest) = text ++ stop :: scopeFrom lead true rest := by
  have closed : IsClosed (text ++ [stop]) := isClosed_concat text delimiter
  have notEmpty : (cut (text ++ [stop])).1 ≠ [] := by
    intro empty
    have whole := segmentsText_cut (text ++ [stop])
    rw [closed.cut_snd, empty] at whole
    simp [segmentsText] at whole
  have stays : scopeFrom lead free (text ++ [stop]) = text ++ [stop] := by
    unfold scopeFrom
    rw [scopeSegments_of_closing lead free closing, segmentsText_cut]
  have shape : text ++ stop :: rest = (text ++ [stop]) ++ rest := by simp
  rw [shape, closed.scopeFrom_append, stays,
    freeBehind_of_closing closing (.inr notEmpty)]
  simp

/-- Declarations and statements stay. -/
theorem scopeFrom_append_of_not_mem (lead : Text) (free : Bool) {text : Text}
    (noBrace : '{' ∉ text) {stop : Char} (delimiter : isDelimiter stop = true)
    (other : stop ≠ '{') (rest : Text) :
    scopeFrom lead free (text ++ stop :: rest) = text ++ stop :: scopeFrom lead true rest := by
  apply scopeFrom_append_of_closing lead free delimiter
  apply opensRule_eq_false_of_not_mem
  simpa using ⟨noBrace, other.symm⟩

/-- The prelude of an at-rule stays. -/
theorem scopeFrom_append_of_mem_at (lead : Text) (free : Bool) {text : Text} (uncut : IsUncut text)
    (hasAt : '@' ∈ text) (rest : Text) :
    scopeFrom lead free (text ++ '{' :: rest) = text ++ '{' :: scopeFrom lead true rest := by
  apply scopeFrom_append_of_closing lead free (by decide)
  rw [cut_concat text (by decide), cut_of_isUncut uncut, List.nil_append]
  intro segment member
  rw [List.mem_singleton.mp member]
  simp [Segment.opensRule, hasAt]

/-- What is written into a selector list cuts it no further. -/
theorem isListText_scopeList {lead text : Text} (isLead : IsListText lead)
    (isList : IsListText text) : IsListText (scopeList lead text) := by
  intro char member
  rcases mem_scopeList member with inText | inLead | between
  · exact isList char inText
  · exact isLead char inLead
  · have plain : [',', ' '].all (!List.contains ['{', '}', ';', '@'] ·) = true := by decide
    simpa using List.all_eq_true.mp plain char between

theorem IsListText.scopeList {lead text : Text} (isLead : IsSafeLead lead)
    (isList : IsListText text) : IsListText (scopeList lead text) :=
  isListText_scopeList isLead.isListText isList

/-- A list is scoped where a list can stand. The empty list has no selectors. -/
theorem scopeFrom_list (lead : Text) (free : Bool) {text : Text} (isList : IsListText text) :
    scopeFrom lead free (text ++ ['{']) = (if free then scopeList lead text else text) ++ ['{'] := by
  rw [scopeFrom_concat lead free text (by decide), cut_of_isUncut isList.isUncut]
  cases text with
  | nil =>
      have same : Style.scopeList lead [] = [] := rfl
      simp [same, segmentsText, scopeSegments]
  | cons char rest =>
      have opens : (⟨char :: rest, '{'⟩ : Segment).opensRule = true := by
        simp only [Segment.opensRule, beq_self_eq_true, List.isEmpty_cons, Bool.not_false,
          Bool.true_and, Bool.not_eq_true', List.contains_eq_mem, decide_eq_false_iff_not]
        exact isList.noAt
      rw [opens, Bool.and_true]
      rfl

/-- White space in front of a list is none of its selectors. -/
theorem scopeList_append_of_blank {gap : Text} (blanks : Text.IsBlankText gap)
    (lead text : Text) : scopeList lead (gap ++ text) = gap ++ scopeList lead text := by
  have same := Selector.split_append_of_blank blanks text
  by_cases noSelectors : Selector.split text = []
  · rw [scopeList_of_split_eq_nil noSelectors, scopeList_of_split_eq_nil (same.trans noSelectors)]
  · rw [scopeList_of_split_ne_nil noSelectors,
      scopeList_of_split_ne_nil (by rw [same]; exact noSelectors), same,
      List.takeWhile_append_of_pos blanks]
    simp only [List.append_assoc]

theorem isListText_of_isBlankText {gap : Text} (blanks : Text.IsBlankText gap) :
    IsListText gap := by
  have noBlank : ['{', '}', ';', '@'].all (!Text.isBlank ·) = true := by decide
  intro char member special
  have apart := List.all_eq_true.mp noBlank char special
  simp [blanks char member] at apart

/-- White space in front of text that does not begin with a delimiter belongs to no list. -/
theorem scopeFrom_append_of_blank {gap : Text} (blanks : Text.IsBlankText gap) (lead : Text)
    (free : Bool) {char : Char} (plain : isDelimiter char = false) (rest : Text) :
    scopeFrom lead free (gap ++ char :: rest) = gap ++ scopeFrom lead free (char :: rest) := by
  have isList := isListText_of_isBlankText blanks
  have noAt := isList.noAt
  unfold scopeFrom
  rw [cut_append_uncut isList.isUncut, cut]
  rcases cut rest with ⟨segments, tail⟩
  cases segments with
  | nil => simp [plain, scopeSegments, segmentsText]
  | cons segment others =>
      have same : ({ segment with text := gap ++ char :: segment.text } : Segment).opensRule =
          ({ segment with text := char :: segment.text } : Segment).opensRule := by
        have notEmpty : (gap ++ char :: segment.text).isEmpty = false := by simp
        simp [Segment.opensRule, noAt, notEmpty]
      simp only [plain, Bool.false_eq_true, if_false, scopeSegments, same]
      split <;> simp [segmentsText, scopeList_append_of_blank blanks]

end DocComponents.Style
