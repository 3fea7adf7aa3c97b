import DocComponents.Proofs.Style.Comments

/-!
# Rules behind comments

Past its comments a scoped rule is a rule again, and what stands before its list is the lead or nothing.
So its first selector depends on where the lead was put. The other selectors are scoped when the scan
comes out of the comments with nothing open, for then it finds the commas between them. When it comes
out with a quote or a bracket open, it may put leads inside selectors, and whether a selector begins with
a lead stays as it was.
-/

set_option autoImplicit false

namespace DocComponents.Style

open Text (IsBlankText)
open Selector (rawParts)

variable {lead : Text}

/-- A rule whose selectors are exempt for those who pass over comments: each of them that does not
begin at the root element and is no stop of a keyframe animation begins with the lead. -/
def IsIsolated (lead head : Text) : Prop :=
  ∀ selector ∈ Selector.split (uncomment head), Selector.isExempt lead selector = true

theorem isIsolated_iff (lead head : Text) :
    IsIsolated lead head ↔ ∀ part ∈ rawParts {} (uncomment head), Selector.IsClear lead part :=
  Selector.isExempt_trimmedParts_iff

/-- The selector before the first comma of a list, if there is one. -/
def firstSelectors (list : Text) : List Text :=
  Selector.trimmedParts ((rawParts {} list).take 1)

/-- The selectors behind the first comma of a list. -/
def otherSelectors (list : Text) : List Text :=
  Selector.trimmedParts ((rawParts {} list).drop 1)

theorem split_eq_append (list : Text) :
    Selector.split list = firstSelectors list ++ otherSelectors list := by
  rw [firstSelectors, otherSelectors, ← Selector.trimmedParts_append, List.take_append_drop,
    Selector.split_eq_trimmedParts]

theorem splits_nil : Splits [] where
  even := by simp [cut, listsInRow]
  noAt := by simp [cut]
  closed := rfl

/-- A list without comments before it is isolated by its scope. -/
theorem isIsolated_scopeList (isLead : IsScopeLead lead) {list : Text}
    (bare : uncomment list = list) : IsIsolated lead (scopeList lead list) := by
  rw [IsIsolated, uncomment_scopeList isLead.toIsSteadyLead bare,
    split_scopeList isLead.toIsLead]
  intro selector member
  obtain ⟨source, -, rfl⟩ := List.mem_map.mp member
  exact Selector.isExempt_scope lead source

theorem IsScopeLead.isExempt_trim (isLead : IsScopeLead lead) (rest : Text) :
    Selector.isExempt lead (Text.trim (lead ++ rest)) = true := by
  have start : Text.trimStart Text.isBlank (lead ++ rest) = lead ++ rest := by
    obtain ⟨char, others, shape⟩ := List.exists_cons_of_ne_nil isLead.notEmpty
    have plain : Text.isBlank char = false := isLead.head char (by rw [shape]; rfl)
    have kept := Text.trimStart_append_cons [] plain (others ++ rest)
    rwa [← List.cons_append, ← shape] at kept
  simp [Selector.isExempt, Selector.startsWith_trim isLead.compact, start]

/-- What a reader sees before the list opens nothing in it. -/
theorem after_shownBefore (isLead : IsScopeLead lead) {comments gap body : Text}
    (isText : IsCommentText comments gap body) :
    ({} : Selector.Nesting).after (shownBefore lead comments gap body) = {} ∧
      ({} : Selector.Nesting).Holds (shownBefore lead comments gap body) := by
  have empty := Selector.Nesting.valid_empty
  obtain ⟨gapStays, gapHolds⟩ := empty.after_blanks isText.gap
  obtain ⟨shownStays, shownHolds⟩ := empty.after_blanks isText.blanks
  have leadStays : ({} : Selector.Nesting).after (leadBefore lead comments) = {} ∧
      ({} : Selector.Nesting).Holds (leadBefore lead comments) := by
    unfold leadBefore
    split
    · rw [Selector.Nesting.after_append, Selector.Nesting.holds_append, isLead.closed]
      exact ⟨rfl, isLead.holds, (empty.after_blanks (by decide)).2⟩
    · exact ⟨rfl, trivial⟩
  rw [shownBefore, Selector.Nesting.after_append, Selector.Nesting.after_append,
    Selector.Nesting.holds_append, Selector.Nesting.holds_append, gapStays, leadStays.1]
  exact ⟨shownStays, gapHolds, leadStays.2, shownHolds⟩

/-- Behind the lead every part is clear, and behind white space a part is what it is. -/
theorem isClear_shownBefore_append (isLead : IsScopeLead lead) {comments gap body : Text}
    (isText : IsCommentText comments gap body) (part : Text) :
    Selector.IsClear lead (shownBefore lead comments gap body ++ part) ↔
      leads comments = true ∨ Selector.IsClear lead part := by
  unfold shownBefore leadBefore
  split
  · next leading =>
      simp only [List.append_assoc]
      rw [Selector.IsClear, Text.trim_append_of_blank isText.gap]
      exact iff_of_true (.inr (isLead.isExempt_trim _)) (.inl leading)
  · next notLeading =>
      have blanks := isText.gap.append isText.blanks
      rw [List.nil_append, Selector.IsClear, Text.trim_append_of_blank blanks,
        or_iff_right notLeading]
      rfl

/-- The selectors of the list that are exempt behind comments. -/
theorem clear_listBehind (isLead : IsScopeLead lead) (comments : Text) {list : Text}
    (balanced : ({} : Selector.Nesting).balances list = true) {part : Text} {parts : List Text}
    (found : rawParts {} list = part :: parts) :
    ∃ first others, rawParts {} (listBehind lead comments list) = first :: others ∧
      (Selector.IsClear lead first ↔ Selector.IsClear lead part) ∧
      ((∀ other ∈ others, Selector.IsClear lead other) ↔
        Splits comments ∨ ∀ other ∈ parts, Selector.IsClear lead other) := by
  by_cases placed : freeBehind true (cut comments).1 = true ∧ '@' ∉ (cut comments).2
  · rw [listBehind, if_pos placed]
    by_cases closed : ({} : Selector.Nesting).after (cut comments).2 = {}
    · have splits : Splits comments :=
        ⟨(freeBehind_eq_true_iff _).mp placed.1, placed.2, closed⟩
      have raw := Selector.rawParts_spec {} list
      rw [found] at raw
      obtain ⟨first, others, behind, trimmed, ruled⟩ :=
        Selector.rawParts_carry isLead.toIsLead raw
      refine ⟨first, others, by rw [closed, found]; exact behind, ?_, ?_⟩
      · rw [Selector.IsClear, Selector.IsClear, trimmed]
      · refine iff_of_true ?_ (.inl splits)
        rw [← Selector.isExempt_trimmedParts_iff, ruled]
        intro selector member
        obtain ⟨source, -, rfl⟩ := List.mem_map.mp member
        exact Selector.isExempt_scope lead source
    · have same := Selector.sameClear_carry isLead.toIsQuotableLead
        (Selector.Nesting.valid_empty.after (cut comments).2) closed balanced
      rw [found] at same
      obtain ⟨first, others, firstSame, othersSame, behind⟩ := List.forall₂_cons_left_iff.mp same
      refine ⟨first, others, behind, firstSame.symm, ?_⟩
      rw [or_iff_right fun splits : Splits comments => closed splits.closed]
      exact (Selector.SameClear.forall_iff othersSame).symm
  · rw [listBehind, if_neg placed]
    refine ⟨part, parts, found, Iff.rfl, ?_⟩
    rw [or_iff_right fun splits : Splits comments =>
      placed ⟨(freeBehind_eq_true_iff _).mpr splits.even, splits.noAt⟩]

/-- A rule behind comments is isolated when its first selector is exempt or the lead stands before the
comments, and the other selectors are exempt or the comments let them be scoped. -/
theorem isIsolated_scopeHead_iff (isLead : IsScopeLead lead) {head : Head}
    (written : head.IsWritten) :
    IsIsolated lead (scopeHead lead head.text) ↔
      (leads head.commentText = true ∨
          ∀ selector ∈ firstSelectors head.list, Selector.isExempt lead selector = true) ∧
        (Splits head.commentText ∨
          ∀ selector ∈ otherSelectors head.list, Selector.isExempt lead selector = true) := by
  obtain ⟨part, parts, found⟩ := List.exists_cons_of_ne_nil (Selector.rawParts_ne_nil {} head.list)
  have firstIff : (∀ selector ∈ firstSelectors head.list, Selector.isExempt lead selector = true) ↔
      Selector.IsClear lead part := by
    rw [firstSelectors, Selector.isExempt_trimmedParts_iff, found]
    simp
  have othersIff : (∀ selector ∈ otherSelectors head.list, Selector.isExempt lead selector = true) ↔
      ∀ other ∈ parts, Selector.IsClear lead other := by
    rw [otherSelectors, Selector.isExempt_trimmedParts_iff, found]
    rfl
  rw [firstIff, othersIff]
  by_cases some : head.comments = []
  · obtain ⟨alone, text⟩ := Head.text_of_eq_nil some
    rw [alone, text, scopeHead_of_isListText written.isList]
    exact iff_of_true (isIsolated_scopeList isLead written.bare) ⟨.inl rfl, .inl splits_nil⟩
  · obtain ⟨gap, body, isText⟩ := exists_isCommentText written.comments some
    obtain ⟨first, others, behind, firstClear, othersClear⟩ :=
      clear_listBehind isLead head.commentText written.balanced found
    have seen := uncomment_scopeHead isLead.toIsSteadyLead isLead.notEmpty isText written.isList
      written.bare
    obtain ⟨stays, holds⟩ := after_shownBefore isLead isText
    rw [← firstClear, ← othersClear, isIsolated_iff, Head.text, Head.commentText, seen,
      Selector.rawParts_append_of_holds holds (by rw [stays]; exact behind), List.forall_mem_cons,
      isClear_shownBefore_append isLead isText]

/-! ## Stylesheets with comments -/

theorem isListText_listBehind (isLead : IsScopeLead lead) (comments : Text) {list : Text}
    (isList : IsListText list) : IsListText (listBehind lead comments list) := by
  have separator : IsListText [',', ' '] := by decide
  have space : IsListText [' '] := by decide
  unfold listBehind
  split
  · refine IsListText.append (fun char member => ?_) space
    rcases Selector.mem_carry member with inList | inLead | between
    · exact isList char inList
    · exact isLead.isListText char inLead
    · exact separator char between
  · exact isList

/-- Past its comments a scoped rule is opened by a selector list again. -/
theorem isListText_uncomment_scopeHead (isLead : IsScopeLead lead) {head : Head}
    (written : head.IsWritten) : IsListText (uncomment (scopeHead lead head.text)) := by
  by_cases some : head.comments = []
  · rw [(Head.text_of_eq_nil some).2, scopeHead_of_isListText written.isList,
      uncomment_scopeList isLead.toIsSteadyLead written.bare]
    exact written.isList.scopeList isLead.toIsSafeLead
  · obtain ⟨gap, body, isText⟩ := exists_isCommentText written.comments some
    have leadList : ∀ comments, IsListText (leadBefore lead comments) := by
      intro comments
      unfold leadBefore
      split
      · exact isLead.isListText.append (by decide)
      · exact List.forall_mem_nil _
    have gapList := isListText_of_isBlankText isText.gap
    have shownList := isListText_of_isBlankText isText.blanks
    have seen := uncomment_scopeHead isLead.toIsSteadyLead isLead.notEmpty isText written.isList
      written.bare
    rw [Head.text, Head.commentText, seen]
    exact (gapList.append ((leadList _).append shownList)).append
      (isListText_listBehind isLead _ written.isList)

theorem Head.IsWritten.isOpening {head : Head} (written : head.IsWritten) :
    IsOpening head.text := by
  by_cases some : head.comments = []
  · rw [(Head.text_of_eq_nil some).2]
    exact written.isList.isOpening
  · obtain ⟨gap, body, isText⟩ := exists_isCommentText written.comments some
    have slash : IsListText (gap ++ ['/']) :=
      (isListText_of_isBlankText isText.gap).append (by decide)
    have shape : head.text = (gap ++ ['/']) ++ ('*' :: (body ++ ['/']) ++ head.list) := by
      rw [Head.text, Head.commentText, isText.whole]
      simp
    intro char found
    rw [shape, List.head?_append_of_ne_nil _ (by simp)] at found
    exact slash.isOpening char found

/-- A stylesheet with comments before its selector lists is scoped rule by rule. The selectors of a
rule that a reader finds past the comments are all under the scope, or exempt, exactly when the first
of them is exempt or the comments before it let the lead stand before them, and when the others are
exempt or the comments let them be scoped. -/
theorem commented_rules_isolated_iff {name : Text} (identifier : isIdentifier name = true)
    (number : Nat) {sheet : Sheet Head} (written : sheet.IsWritten Head.IsWritten) :
    let token := scopeToken name number
    let lead := scopeAttribute token
    let placed := (sheet.map Head.text).map (scopeHead lead)
    scope (sheet.map Head.text).print token = placed.print ∧
      (placed.map uncomment).IsWritten IsListText ∧
      ∀ head ∈ sheet.heads,
        Selector.split head.list = firstSelectors head.list ++ otherSelectors head.list ∧
        (IsIsolated lead (scopeHead lead head.text) ↔
          (leads head.commentText = true ∨
              ∀ selector ∈ firstSelectors head.list, Selector.isExempt lead selector = true) ∧
            (Splits head.commentText ∨
              ∀ selector ∈ otherSelectors head.list, Selector.isExempt lead selector = true)) := by
  intro token lead placed
  have isLead : IsScopeLead lead :=
    isScopeLead_scopeAttribute fun _ => isNameChar_of_mem_scopeToken identifier
  refine ⟨?_, ?_, fun head member => ⟨split_eq_append head.list,
    isIsolated_scopeHead_iff isLead (written.isHead head member)⟩⟩
  · exact Sheet.scope_print (written.map fun _ isWritten => isWritten.isOpening) token
  · have opened : (sheet.map Head.text).IsWritten fun text =>
        IsListText (uncomment (scopeHead lead text)) :=
      written.map (f := Head.text) fun _ isWritten => isListText_uncomment_scopeHead isLead isWritten
    have placedWritten : placed.IsWritten fun text => IsListText (uncomment text) :=
      opened.map (f := scopeHead lead) fun _ isList => isList
    exact placedWritten.map (f := uncomment) fun _ isList => isList

/-- Comments with a brace and with a quote in them. -/
def commentedSheet : Sheet Head :=
  .block [] "@media x".toList
    (.rule [' '] ⟨[⟨[], " \x7b ".toList⟩, ⟨['\n'], []⟩], " .a, :root ".toList⟩ []
      (.rule [] ⟨[⟨[' '], " it's ".toList⟩], ".b[c=',']".toList⟩ " d: e ".toList (.done [' '])))
    (.done [])

theorem commented_rules_isolated_iff_quoting :
    isIdentifier ['x'] = true ∧ commentedSheet.IsWritten Head.IsWritten ∧
      ∀ head ∈ commentedSheet.heads,
        IsIsolated (scopeAttribute (scopeToken ['x'] 7))
          (scopeHead (scopeAttribute (scopeToken ['x'] 7)) head.text) := by
  have identifier : isIdentifier ['x'] = true := by decide
  have written : commentedSheet.IsWritten Head.IsWritten :=
    .block (by decide) (by decide)
      (.rule (by decide) (by decide) (by decide) (by decide)
        (.rule (by decide) (by decide) (by decide) (by decide) (.done (by decide))))
      (.done (by decide))
  refine ⟨identifier, written, fun head member => ?_⟩
  refine ((commented_rules_isolated_iff identifier 7 written).2.2 head member).2.mpr ?_
  have heads : commentedSheet.heads.all (fun head => leads head.commentText &&
      (otherSelectors head.list).all (Selector.isExempt (scopeAttribute (scopeToken ['x'] 7)))) =
      true := by decide +kernel
  have both := List.all_eq_true.mp heads head member
  rw [Bool.and_eq_true, List.all_eq_true] at both
  exact ⟨.inl both.1, .inr both.2⟩

/-- Behind a comment with a quote in it the second selector of a list is not scoped. -/
theorem second_selector_leaks :
    let head : Head := ⟨[⟨[], " it's ".toList⟩], " .a, .b ".toList⟩
    let sheet : Sheet Head := .rule [] head " color: red ".toList (.done [])
    let token := scopeToken ['x'] 0
    let lead := scopeAttribute token
    isIdentifier ['x'] = true ∧ sheet.IsWritten Head.IsWritten ∧
      scope (sheet.map Head.text).print token =
        (lead ++ " /* it's */ .a, .b \x7b color: red \x7d".toList) ∧
      ".b".toList ∈ Selector.split (uncomment (scopeHead lead head.text)) ∧
      Selector.isExempt lead ".b".toList = false := by
  refine ⟨by decide, ?_, ?_⟩
  · exact .rule (by decide) (by decide) (by decide) (by decide) (.done (by decide))
  · decide +kernel

end DocComponents.Style
