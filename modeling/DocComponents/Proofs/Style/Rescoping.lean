import DocComponents.Proofs.Render.Token
import DocComponents.Proofs.Style.Selectors
import DocComponents.Proofs.Text.Cut

/-!
# Rescoping a stylesheet

A scoped stylesheet is cut where the stylesheet itself is cut: what scoping writes into a selector
list holds no delimiter and no at sign, so the same lists open rules in both. In each of them
splitting finds the selectors that scoping put there, and these carry their lead already. Scoping
twice is scoping once.
-/

set_option autoImplicit false

namespace DocComponents.Style

open Text (IsBlankText)

/-- A token that can stand in an attribute selector without ending it or cutting the stylesheet. -/
def IsPlainToken (token : Text) : Prop :=
  ∀ char ∈ token, char ∉ ['{', '}', ';', '@', '"']

instance (token : Text) : Decidable (IsPlainToken token) :=
  inferInstanceAs (Decidable (∀ char ∈ token, char ∉ ['{', '}', ';', '@', '"']))

/-- A text without the characters at which a stylesheet is cut. -/
def IsUncut (text : Text) : Prop :=
  ∀ char ∈ text, isDelimiter char = false

instance (text : Text) : Decidable (IsUncut text) :=
  List.decidableBAll (fun char => isDelimiter char = false) text

/-- A segment as cutting gives it: a text without delimiters, and the delimiter behind it. -/
structure Segment.IsWhole (segment : Segment) : Prop where
  text : IsUncut segment.text
  stop : isDelimiter segment.stop = true

/-- A text that can stand between two boundaries as a selector list. -/
def IsListText (text : Text) : Prop :=
  ∀ char ∈ text, char ∉ ['{', '}', ';', '@']

instance (text : Text) : Decidable (IsListText text) :=
  List.decidableBAll (fun char => char ∉ ['{', '}', ';', '@']) text

theorem isListText_iff {text : Text} : IsListText text ↔ IsUncut text ∧ '@' ∉ text := by
  constructor
  · intro isList
    refine ⟨fun char member => ?_, fun member => isList '@' member (by simp)⟩
    have apart := isList char member
    simp only [List.mem_cons, not_or] at apart
    simp [isDelimiter, apart.1, apart.2.1, apart.2.2.1]
  · rintro ⟨uncut, noAt⟩ char member
    have apart : char ≠ '@' := fun same => noAt (same ▸ member)
    simpa [isDelimiter, apart, and_assoc] using uncut char member

theorem IsListText.isUncut {text : Text} (isList : IsListText text) : IsUncut text :=
  (isListText_iff.mp isList).1

theorem IsListText.noAt {text : Text} (isList : IsListText text) : '@' ∉ text :=
  (isListText_iff.mp isList).2

theorem IsListText.append {left right : Text} (listLeft : IsListText left)
    (listRight : IsListText right) : IsListText (left ++ right) := by
  intro char member
  exact (List.mem_append.mp member).elim (listLeft char) (listRight char)

theorem IsPlainToken.isListText {token : Text} (plain : IsPlainToken token) :
    IsListText token := by
  intro char member
  have excluded := plain char member
  simp only [List.mem_cons, not_or] at excluded ⊢
  exact ⟨excluded.1, excluded.2.1, excluded.2.2.1, excluded.2.2.2.1, excluded.2.2.2.2.2⟩

theorem isUncut_nil : IsUncut [] := by
  simp [IsUncut]

theorem isUncut_cons {char : Char} {text : Text} (plain : isDelimiter char = false)
    (uncut : IsUncut text) : IsUncut (char :: text) := by
  intro other member
  rcases List.mem_cons.mp member with rfl | later
  · exact plain
  · exact uncut other later

theorem IsUncut.append {left right : Text} (uncutLeft : IsUncut left)
    (uncutRight : IsUncut right) : IsUncut (left ++ right) := by
  intro char member
  exact (List.mem_append.mp member).elim (uncutLeft char) (uncutRight char)

/-- Cutting gives whole segments, and no delimiter stands behind the last of them. -/
theorem cut_isWhole (css : Text) :
    (∀ segment ∈ (cut css).1, segment.IsWhole) ∧ IsUncut (cut css).2 := by
  induction css with
  | nil => exact ⟨by simp [cut], isUncut_nil⟩
  | cons char rest ih =>
      obtain ⟨whole, uncut⟩ := ih
      unfold cut
      rcases found : cut rest with ⟨segments, tail⟩
      rw [found] at whole uncut
      dsimp only at whole uncut ⊢
      by_cases delimiter : isDelimiter char = true
      · rw [if_pos delimiter]
        refine ⟨?_, uncut⟩
        intro segment member
        rcases List.mem_cons.mp member with rfl | later
        · exact ⟨isUncut_nil, delimiter⟩
        · exact whole segment later
      · rw [if_neg delimiter]
        have plain : isDelimiter char = false := by simpa using delimiter
        cases segments with
        | nil => exact ⟨by simp, isUncut_cons plain uncut⟩
        | cons first others =>
            have firstWhole := whole first List.mem_cons_self
            refine ⟨?_, uncut⟩
            intro segment member
            rcases List.mem_cons.mp member with rfl | later
            · exact ⟨isUncut_cons plain firstWhole.text, firstWhole.stop⟩
            · exact whole segment (List.mem_cons_of_mem _ later)

theorem cut_append_uncut {text : Text} (uncut : IsUncut text) (rest : Text) :
    cut (text ++ rest) =
      match cut rest with
      | ([], tail) => ([], text ++ tail)
      | (segment :: others, tail) =>
        ({ segment with text := text ++ segment.text } :: others, tail) := by
  induction text with
  | nil =>
      rw [List.nil_append]
      rcases cut rest with ⟨segments, tail⟩
      cases segments <;> rfl
  | cons char text ih =>
      have plain := uncut char List.mem_cons_self
      have later : IsUncut text := fun other member => uncut other (List.mem_cons_of_mem _ member)
      rw [List.cons_append, cut, ih later]
      rcases cut rest with ⟨segments, tail⟩
      cases segments <;> simp [plain]

/-- The text of whole segments is cut into these segments. -/
theorem cut_segmentsText {segments : List Segment} {tail : Text}
    (whole : ∀ segment ∈ segments, segment.IsWhole) (uncut : IsUncut tail) :
    cut (segmentsText segments ++ tail) = (segments, tail) := by
  induction segments with
  | nil =>
      have alone := cut_append_uncut uncut []
      simpa [segmentsText, cut] using alone
  | cons segment others ih =>
      have first := whole segment List.mem_cons_self
      have later := ih fun other member => whole other (List.mem_cons_of_mem _ member)
      have shape : segmentsText (segment :: others) ++ tail =
          segment.text ++ segment.stop :: (segmentsText others ++ tail) := by
        simp [segmentsText]
      rw [shape, cut_append_uncut first.text, cut, later]
      simp [first.stop]

/-- What a lead must be for scoping to keep the cuts of a stylesheet. -/
structure IsSafeLead (lead : Text) : Prop extends Selector.IsLead lead where
  uncut : IsUncut lead
  noAt : '@' ∉ lead

theorem IsSafeLead.isListText {lead : Text} (isLead : IsSafeLead lead) : IsListText lead :=
  isListText_iff.mpr ⟨isLead.uncut, isLead.noAt⟩

/-- What stands before the token in its attribute selector. -/
def attributeStart : Text :=
  ['[', 'd', 'a', 't', 'a', '-', 's', 'c', 'o', 'p', 'e', '=', '"']

theorem scopeAttribute_eq (token : Text) :
    scopeAttribute token = attributeStart ++ (token ++ ['"', ']']) := by
  have start : "[data-scope=\"".toList = attributeStart := by decide
  unfold scopeAttribute
  rw [start, List.append_assoc]

private theorem attributeStart_spec :
    ({} : Selector.Nesting).after attributeStart = ⟨some '"', [']']⟩ ∧
      ({} : Selector.Nesting).Holds attributeStart := by
  simp [attributeStart, Selector.Nesting.Holds, Selector.Nesting.separates,
    Selector.Nesting.step, Selector.closerOf?]

private theorem after_token {token : Text} (quoteFree : '"' ∉ token) :
    (⟨some '"', [']']⟩ : Selector.Nesting).after token = ⟨some '"', [']']⟩ ∧
      (⟨some '"', [']']⟩ : Selector.Nesting).Holds token :=
  Selector.Nesting.after_of_not_mem rfl quoteFree

private theorem attributeEnd_spec :
    (⟨some '"', [']']⟩ : Selector.Nesting).after ['"', ']'] = {} ∧
      (⟨some '"', [']']⟩ : Selector.Nesting).Holds ['"', ']'] := by
  simp [Selector.Nesting.Holds, Selector.Nesting.separates, Selector.Nesting.step,
    Selector.closerOf?]

theorem isListText_scopeAttribute {token : Text} (isList : IsListText token) :
    IsListText (scopeAttribute token) := by
  have start : IsListText attributeStart := by decide
  have finish : IsListText ['"', ']'] := by decide
  rw [scopeAttribute_eq]
  exact start.append (isList.append finish)

/-- The attribute selector closes its quote and its bracket, whatever else than double quotes the
token holds. -/
theorem isLead_scopeAttribute {token : Text} (quoteFree : '"' ∉ token) :
    Selector.IsLead (scopeAttribute token) where
  notEmpty := by simp [scopeAttribute_eq, attributeStart]
  head := by
    intro char found
    have first : char = '[' := by simpa [scopeAttribute_eq, attributeStart, eq_comm] using found
    subst first
    exact Selector.isBlank_of_special (by simp)
  holds := by
    obtain ⟨quoted, holds⟩ := after_token quoteFree
    rw [scopeAttribute_eq, Selector.Nesting.holds_append, Selector.Nesting.holds_append,
      attributeStart_spec.1, quoted]
    exact ⟨attributeStart_spec.2, holds, attributeEnd_spec.2⟩
  closed := by
    obtain ⟨quoted, -⟩ := after_token quoteFree
    rw [scopeAttribute_eq, Selector.Nesting.after_append, Selector.Nesting.after_append,
      attributeStart_spec.1, quoted, attributeEnd_spec.1]

theorem isSafeLead_scopeAttribute {token : Text} (plain : IsPlainToken token) :
    IsSafeLead (scopeAttribute token) where
  toIsLead := isLead_scopeAttribute fun member => plain '"' member (by simp)
  uncut := (isListText_scopeAttribute plain.isListText).isUncut
  noAt := (isListText_scopeAttribute plain.isListText).noAt

theorem scopeList_of_split_eq_nil {lead text : Text} (noSelectors : Selector.split text = []) :
    scopeList lead text = text := by
  unfold scopeList
  rw [noSelectors]

theorem scopeList_of_split_ne_nil {lead text : Text} (hasSelectors : Selector.split text ≠ []) :
    scopeList lead text = text.takeWhile Text.isBlank ++
      Text.join [',', ' '] ((Selector.split text).map (Selector.scope lead)) ++ [' '] := by
  unfold scopeList
  split
  · next noSelectors => exact absurd noSelectors hasSelectors
  · rfl

/-- Scoping a selector list brings in nothing but the lead, commas and spaces. -/
theorem mem_scopeList {lead text : Text} {char : Char} (member : char ∈ scopeList lead text) :
    char ∈ text ∨ char ∈ lead ∨ char ∈ [',', ' '] := by
  by_cases noSelectors : Selector.split text = []
  · rw [scopeList_of_split_eq_nil noSelectors] at member
    exact .inl member
  · rw [scopeList_of_split_ne_nil noSelectors, List.mem_append, List.mem_append] at member
    rcases member with (blank | joined) | last
    · exact .inl ((List.takeWhile_subset _) blank)
    · rcases Text.mem_join joined with between | ⟨part, isPart, inside⟩
      · exact .inr (.inr between)
      · obtain ⟨selector, isSelector, rfl⟩ := List.mem_map.mp isPart
        rcases Selector.scope_eq_or lead selector with same | led
        · rw [same] at inside
          exact .inl (Selector.mem_of_mem_split isSelector inside)
        · rw [led, List.mem_append, List.mem_cons] at inside
          rcases inside with inLead | space | inSelector
          · exact .inr (.inl inLead)
          · exact .inr (.inr (by simp [space]))
          · exact .inl (Selector.mem_of_mem_split isSelector inSelector)
    · have space : char = ' ' := by simpa using last
      exact .inr (.inr (by simp [space]))

/-- Splitting a selector list under a lead gives the selectors under the lead. -/
theorem split_scopeList {lead : Text} (isLead : Selector.IsLead lead) (text : Text) :
    Selector.split (scopeList lead text) = (Selector.split text).map (Selector.scope lead) := by
  by_cases noSelectors : Selector.split text = []
  · rw [scopeList_of_split_eq_nil noSelectors, noSelectors]
    rfl
  · have blanks : IsBlankText (text.takeWhile Text.isBlank) := fun char member =>
      List.mem_takeWhile_imp member
    have space : IsBlankText [' '] := Text.isBlankText_replicate (by decide) 1
    rw [scopeList_of_split_ne_nil noSelectors]
    exact Selector.split_join (isLead.separable_map_scope (Selector.split_separable text)) blanks
      space

private theorem takeWhile_blank_join {before after : Text} (blanks : IsBlankText before)
    {parts : List Text} (separable : Selector.Separable parts) (hasSelectors : parts ≠ []) :
    (before ++ Text.join [',', ' '] parts ++ after).takeWhile Text.isBlank = before := by
  have nonblank : ∀ (part rest : Text), Selector.IsSelector part →
      (before ++ (part ++ rest)).takeWhile Text.isBlank = before := by
    intro part rest selector
    cases part with
    | nil => exact absurd rfl selector.notEmpty
    | cons char others =>
        have first := selector.trimmed.head char rfl
        rw [List.takeWhile_append_of_pos blanks, List.cons_append,
          List.takeWhile_cons_of_neg (by simp [first]), List.append_nil]
  cases parts with
  | nil => exact absurd rfl hasSelectors
  | cons part others =>
      have selector := separable.isSelector part List.mem_cons_self
      rw [List.append_assoc]
      cases others with
      | nil => exact nonblank part after selector
      | cons next rest =>
          simpa [Text.join] using nonblank part _ selector

/-- A selector list under a lead is a list whose selectors are the scoped ones, so scoping it again
changes nothing. -/
theorem scopeList_scopeList {lead : Text} (isLead : Selector.IsLead lead) (text : Text) :
    scopeList lead (scopeList lead text) = scopeList lead text := by
  by_cases noSelectors : Selector.split text = []
  · rw [scopeList_of_split_eq_nil noSelectors, scopeList_of_split_eq_nil noSelectors]
  · have blanks : IsBlankText (text.takeWhile Text.isBlank) := fun char member =>
      List.mem_takeWhile_imp member
    have space : IsBlankText [' '] := Text.isBlankText_replicate (by decide) 1
    have separable := isLead.separable_map_scope (Selector.split_separable text)
    have hasSelectors : (Selector.split text).map (Selector.scope lead) ≠ [] := by
      simpa using noSelectors
    -- Joining the scoped selectors and splitting them again gives back the same parts.
    have again := Selector.split_join separable blanks space
    have fixed : ((Selector.split text).map (Selector.scope lead)).map (Selector.scope lead) =
        (Selector.split text).map (Selector.scope lead) := by
      rw [List.map_map]
      exact List.map_congr_left fun selector _ => Selector.scope_scope lead selector
    rw [scopeList_of_split_ne_nil noSelectors,
      scopeList_of_split_ne_nil (by rw [again]; exact hasSelectors), again, fixed,
      takeWhile_blank_join blanks separable hasSelectors]

theorem isUncut_scopeList {lead text : Text} (uncutLead : IsUncut lead) (uncut : IsUncut text) :
    IsUncut (scopeList lead text) := by
  intro char member
  rcases mem_scopeList member with inText | inLead | between
  · exact uncut char inText
  · exact uncutLead char inLead
  · have plain : [',', ' '].all (!isDelimiter ·) = true := by decide
    simpa using List.all_eq_true.mp plain char between

theorem opensRule_scopeList {lead : Text} (isLead : IsSafeLead lead) {segment : Segment}
    (opens : segment.opensRule = true) :
    ({ segment with text := scopeList lead segment.text } : Segment).opensRule = true := by
  obtain ⟨text, stop⟩ := segment
  simp only [Segment.opensRule, Bool.and_eq_true, Bool.not_eq_true', List.isEmpty_eq_false_iff,
    List.contains_eq_mem, decide_eq_false_iff_not] at opens ⊢
  obtain ⟨⟨brace, notEmpty⟩, noAt⟩ := opens
  refine ⟨⟨brace, ?_⟩, ?_⟩
  · by_cases noSelectors : Selector.split text = []
    · rwa [scopeList_of_split_eq_nil noSelectors]
    · simp [scopeList_of_split_ne_nil noSelectors]
  · intro member
    rcases mem_scopeList member with inText | inLead | between
    · exact noAt inText
    · exact isLead.noAt inLead
    · revert between
      decide

theorem scopeSegments_isWhole {lead : Text} (uncutLead : IsUncut lead) {segments : List Segment}
    (whole : ∀ segment ∈ segments, segment.IsWhole) (free : Bool) :
    ∀ segment ∈ scopeSegments lead free segments, segment.IsWhole := by
  induction segments generalizing free with
  | nil => simp [scopeSegments]
  | cons first rest ih =>
      have firstWhole := whole first List.mem_cons_self
      have later := ih fun segment member => whole segment (List.mem_cons_of_mem _ member)
      intro segment member
      unfold scopeSegments at member
      split at member
      · rcases List.mem_cons.mp member with rfl | behind
        · exact ⟨isUncut_scopeList uncutLead firstWhole.text, firstWhole.stop⟩
        · exact later false segment behind
      · rcases List.mem_cons.mp member with rfl | behind
        · exact firstWhole
        · exact later true segment behind

/-- The same segments open rules before and after scoping, so each list is met again. -/
theorem scopeSegments_scopeSegments {lead : Text} (isLead : IsSafeLead lead) (free : Bool)
    (segments : List Segment) :
    scopeSegments lead free (scopeSegments lead free segments) =
      scopeSegments lead free segments := by
  induction segments generalizing free with
  | nil => rfl
  | cons first rest ih =>
      by_cases rule : (free && first.opensRule) = true
      · have opens : free = true ∧ first.opensRule = true := by simpa using rule
        have again := opensRule_scopeList isLead opens.2
        rw [scopeSegments, if_pos rule, scopeSegments, if_pos (by simp [opens.1, again]), ih false,
          scopeList_scopeList isLead.toIsLead]
      · rw [scopeSegments, if_neg rule, scopeSegments, if_neg rule, ih true]

/-- A scoped stylesheet is cut into the scoped segments of the stylesheet. -/
theorem cut_scope {token : Text} (plain : IsPlainToken token) (css : Text) :
    cut (scope css token) =
      (scopeSegments (scopeAttribute token) true (cut css).1, (cut css).2) := by
  obtain ⟨whole, uncut⟩ := cut_isWhole css
  exact cut_segmentsText
    (scopeSegments_isWhole (isSafeLead_scopeAttribute plain).uncut whole true) uncut

theorem isPlainToken_of_isNameChar {token : Text}
    (names : ∀ char ∈ token, isNameChar char = true) : IsPlainToken token := by
  have noName : ['{', '}', ';', '@', '"'].all (!isNameChar ·) = true := by decide
  intro char member excluded
  have noNameChar := List.all_eq_true.mp noName char excluded
  simp [names char member] at noNameChar

/-- Scoping a scoped stylesheet again with its token changes nothing, whatever the stylesheet holds.
The tokens of components with an identifier for a name are all plain. -/
theorem rescoping_is_noop :
    (∀ token, IsPlainToken token → ∀ css, scope (scope css token) token = scope css token) ∧
      ∀ name number, isIdentifier name = true → IsPlainToken (scopeToken name number) := by
  constructor
  · intro token plain css
    have again := cut_scope plain css
    have fixed := scopeSegments_scopeSegments (isSafeLead_scopeAttribute plain) true (cut css).1
    rw [scope, again]
    dsimp only
    rw [fixed]
    rfl
  · intro name number identifier
    apply isPlainToken_of_isNameChar
    intro char member
    exact isNameChar_of_mem_scopeToken identifier member

/-- An open bracket and an open quote at the end of selector lists, an empty selector, a selector
that carries the lead, and a brace right behind a brace. -/
def unbalancedStyles : Text :=
  ("a, [b \x7b c, 'd \x7b \x7d \x7d, .e,\x7b\x7b " ++
    "[data-scope=\"t\"] f, :is(g, h \x7b x \x7d").toList

theorem rescoping_is_noop_unbalanced :
    IsPlainToken ['t'] ∧
      scope (scope unbalancedStyles ['t']) ['t'] = scope unbalancedStyles ['t'] :=
  have plain : IsPlainToken ['t'] := by simp [IsPlainToken]
  ⟨plain, rescoping_is_noop.1 ['t'] plain unbalancedStyles⟩

end DocComponents.Style
