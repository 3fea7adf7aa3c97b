import DocComponents.Proofs.Style.Attribute
import DocComponents.Proofs.Style.Nested
import DocComponents.Proofs.Style.Sheet
import Mathlib.Data.List.Infix

/-!
# Comments before selector lists

A comment before a selector list is scoped together with the list. The lead of the first selector is
seen when it is put before the comment, and it is lost in the comment when something in the comment
ends what is taken for the list. The other selectors are scoped when the text of the comment
behind its last brace or semicolon is taken for a part of the list and leaves nothing open.
-/

set_option autoImplicit false

namespace DocComponents.Style

open Text (IsBlankText)
open Selector (carry rawParts)

/-- A comment with the white space before it. -/
structure Comment where
  gap : Text
  content : Text

def Comment.text (comment : Comment) : Text :=
  comment.gap ++ '/' :: '*' :: (comment.content ++ ['*', '/'])

/-- A comment that ends where it is closed. -/
structure Comment.IsWritten (comment : Comment) : Prop where
  gap : IsBlankText comment.gap
  content : ¬ ['*', '/'] <:+: comment.content

/-- What opens a rule: comments, and the selector list behind them. -/
structure Head where
  comments : List Comment
  list : Text

def Head.commentText (head : Head) : Text :=
  head.comments.flatMap Comment.text

def Head.text (head : Head) : Text :=
  head.commentText ++ head.list

theorem Head.text_of_eq_nil {head : Head} (none : head.comments = []) :
    head.commentText = [] ∧ head.text = head.list := by
  have alone : head.commentText = [] := by
    rw [Head.commentText, none, List.flatMap_nil]
  exact ⟨alone, by rw [Head.text, alone, List.nil_append]⟩

/-- A selector list that is balanced and holds no comments, behind comments. -/
structure Head.IsWritten (head : Head) : Prop where
  comments : ∀ comment ∈ head.comments, comment.IsWritten
  isList : IsListText head.list
  balanced : ({} : Selector.Nesting).balances head.list = true
  bare : uncomment head.list = head.list

instance (comment : Comment) : Decidable comment.IsWritten :=
  decidable_of_iff (IsBlankText comment.gap ∧ ¬ ['*', '/'] <:+: comment.content)
    ⟨fun ⟨gap, content⟩ => ⟨gap, content⟩, fun ⟨gap, content⟩ => ⟨gap, content⟩⟩

instance (head : Head) : Decidable head.IsWritten :=
  have : Decidable (∀ comment ∈ head.comments, comment.IsWritten) :=
    List.decidableBAll Comment.IsWritten head.comments
  decidable_of_iff
    ((∀ comment ∈ head.comments, comment.IsWritten) ∧ IsListText head.list ∧
      ({} : Selector.Nesting).balances head.list = true ∧ uncomment head.list = head.list)
    ⟨fun ⟨comments, isList, balanced, bare⟩ => ⟨comments, isList, balanced, bare⟩,
      fun ⟨comments, isList, balanced, bare⟩ => ⟨comments, isList, balanced, bare⟩⟩

/-! ## The text of comments -/

theorem code_sees {text : Text} (plain : Place.code.Plain text)
    (ends : Place.code.after text = .code) : Place.code.Sees text text .code := by
  have outside : Place.code.IsOutside := trivial
  have whole := outside.read_append_held plain
  rw [ends] at whole
  exact ⟨by simpa [Place.held] using whole, ends⟩

theorem code_sees_blanks {text : Text} (blanks : IsBlankText text) :
    Place.code.Sees text text .code := by
  have outside : Place.code.IsOutside := trivial
  obtain ⟨plain, ends⟩ := outside.after_of_isMark rfl fun char member =>
    isMark_of_isBlank (blanks char member)
  exact code_sees plain ends

/-- Of a comment only the white space before it is seen. -/
theorem Comment.IsWritten.sees {comment : Comment} (written : comment.IsWritten) :
    Place.code.Sees comment.text comment.gap .code := by
  obtain ⟨unseen, closed⟩ := Place.read_comment written.content
  have seen := (code_sees_blanks written.gap).append ⟨unseen, closed⟩
  rwa [List.append_nil] at seen

theorem code_sees_comments {comments : List Comment}
    (written : ∀ comment ∈ comments, comment.IsWritten) :
    Place.code.Sees (comments.flatMap Comment.text) (comments.flatMap Comment.gap) .code := by
  induction comments with
  | nil => exact ⟨rfl, rfl⟩
  | cons comment others ih =>
      rw [List.flatMap_cons, List.flatMap_cons]
      exact (written comment List.mem_cons_self).sees.append
        (ih fun other member => written other (List.mem_cons_of_mem _ member))

theorem isBlankText_gaps {comments : List Comment}
    (written : ∀ comment ∈ comments, comment.IsWritten) :
    IsBlankText (comments.flatMap Comment.gap) := by
  intro char member
  obtain ⟨comment, isOne, inside⟩ := List.mem_flatMap.mp member
  exact (written comment isOne).gap char inside

/-- The text of comments, from the white space before the first of them to the end of the last. -/
structure IsCommentText (comments gap body : Text) : Prop where
  whole : comments = gap ++ '/' :: '*' :: (body ++ ['/'])
  gap : IsBlankText gap
  blanks : IsBlankText (Place.comment.read (body ++ ['/']))
  closes : Place.comment.after (body ++ ['/']) = .code

theorem exists_isCommentText {comments : List Comment}
    (written : ∀ comment ∈ comments, comment.IsWritten) (some : comments ≠ []) :
    ∃ gap body, IsCommentText (comments.flatMap Comment.text) gap body := by
  obtain ⟨first, others, rfl⟩ := List.exists_cons_of_ne_nil some
  have firstWritten := written first List.mem_cons_self
  have othersWritten : ∀ comment ∈ others, comment.IsWritten := fun comment member =>
    written comment (List.mem_cons_of_mem _ member)
  have ends : ∃ body, first.content ++ ['*', '/'] ++ others.flatMap Comment.text = body ++ ['/'] := by
    obtain rfl | ⟨before, last, rfl⟩ := others.eq_nil_or_concat
    · exact ⟨first.content ++ ['*'], by simp⟩
    · refine ⟨first.content ++ ['*', '/'] ++ before.flatMap Comment.text ++
        (last.gap ++ '/' :: '*' :: (last.content ++ ['*'])), ?_⟩
      simp [Comment.text]
  obtain ⟨body, whole⟩ := ends
  -- The reader is in the first comment already.
  obtain ⟨unseen, closed⟩ := Place.read_comment firstWritten.content
  have inside : Place.comment.Sees (first.content ++ ['*', '/']) [] .code := ⟨unseen, closed⟩
  have seen := inside.append (code_sees_comments othersWritten)
  rw [whole] at seen
  refine ⟨first.gap, body, ?_, firstWritten.gap, ?_, seen.after⟩
  · rw [List.flatMap_cons, Comment.text, ← whole]
    simp
  · rw [seen.read]
    exact isBlankText_gaps othersWritten

/-! ## Scoping what opens a rule -/

/-- Whether no semicolon, closing brace or at sign stands in comments before their first opening
brace. -/
def leads (comments : Text) : Bool :=
  (comments.takeWhile (· != '{')).all (!List.contains ['}', ';', '@'] ·)

/-- What stands behind the last brace or semicolon of comments goes into the list behind them, and
leaves nothing open before it. -/
structure Splits (comments : Text) : Prop where
  even : Even (listsInRow (cut comments).1)
  noAt : '@' ∉ (cut comments).2
  closed : ({} : Selector.Nesting).after (cut comments).2 = {}

theorem cut_append_of_isUncut (left : Text) {right : Text} (uncut : IsUncut right) :
    cut (left ++ right) = ((cut left).1, (cut left).2 ++ right) := by
  obtain ⟨whole, leftUncut⟩ := cut_isWhole left
  conv_lhs => rw [← segmentsText_cut left, List.append_assoc]
  exact cut_segmentsText whole (leftUncut.append uncut)

/-- The segments of a text are scoped on their own, and the text behind them together with the list
that follows it. -/
theorem scopeHead_append (lead : Text) {text list : Text} (isList : IsListText list)
    (notEmpty : (cut text).2 ≠ []) :
    scopeHead lead (text ++ list) =
      segmentsText (scopeSegments lead true (cut text).1) ++
        (if freeBehind true (cut text).1 = true ∧ '@' ∉ (cut text).2 then
          scopeList lead ((cut text).2 ++ list) else (cut text).2 ++ list) := by
  have noAt := isList.noAt
  have opens : (⟨(cut text).2 ++ list, '{'⟩ : Segment).opensRule = true ↔ '@' ∉ (cut text).2 := by
    simp [Segment.opensRule, notEmpty, noAt]
  rw [scopeHead, scopeFrom_concat lead true _ (by decide), List.dropLast_concat,
    cut_append_of_isUncut text isList.isUncut]
  simp only [Bool.and_eq_true, opens]

variable {lead : Text}

theorem ne_of_isUncut {text : Text} (uncut : IsUncut text) {char : Char} (member : char ∈ text) :
    char ≠ '{' ∧ char ≠ '}' ∧ char ≠ ';' := by
  have plain := uncut char member
  simp only [isDelimiter, Bool.or_eq_false_iff, beq_eq_false_iff_ne] at plain
  exact ⟨plain.1.1, plain.1.2, plain.2⟩

theorem leads_of_isUncut {text : Text} (uncut : IsUncut text) :
    leads text = true ↔ '@' ∉ text := by
  have noBrace : ∀ char ∈ text, (char != '{') = true := fun char member => by
    simpa using (ne_of_isUncut uncut member).1
  rw [leads, List.takeWhile_eq_self_iff.mpr noBrace, List.all_eq_true]
  constructor
  · intro clear member
    exact absurd (clear '@' member) (by decide)
  · intro noAt char member
    have apart : char ≠ '@' := fun same => noAt (same ▸ member)
    obtain ⟨-, noClosing, noEnd⟩ := ne_of_isUncut uncut member
    simp [noClosing, noEnd, apart]

theorem leads_append_cons {text : Text} (uncut : IsUncut text) {stop : Char}
    (delimiter : isDelimiter stop = true) (rest : Text) :
    leads (text ++ stop :: rest) = true ↔ stop = '{' ∧ '@' ∉ text := by
  have noBrace : ∀ char ∈ text, (char != '{') = true := fun char member => by
    simpa using (ne_of_isUncut uncut member).1
  have alone := leads_of_isUncut uncut
  rw [leads, List.takeWhile_eq_self_iff.mpr noBrace] at alone
  rw [leads, List.takeWhile_append_of_pos noBrace, List.all_append, Bool.and_eq_true, alone,
    and_comm]
  apply and_congr_left
  intro _
  by_cases brace : stop = '{'
  · simp [brace]
  · have closing : stop = '}' ∨ stop = ';' := by
      simpa [isDelimiter, brace] using delimiter
    rcases closing with rfl | rfl <;> simp

/-! ## What is seen of a scoped rule -/

/-- The lead of a list that begins with a comment is put before the comment. -/
theorem scopeList_opened (harmless : IsHarmless lead) (notEmpty : lead ≠ []) (text : Text) :
    scopeList lead ('/' :: '*' :: text) =
      lead ++ ' ' :: '/' :: '*' :: (carry lead (rawParts {} text) ++ [' ']) := by
  obtain ⟨part, parts, found⟩ := List.exists_cons_of_ne_nil (Selector.rawParts_ne_nil {} text)
  have start : ({} : Selector.Nesting).Holds ['/', '*'] := by
    simp [Selector.Nesting.Holds, Selector.Nesting.separates]
  have opened : rawParts {} ('/' :: '*' :: text) = ('/' :: '*' :: part) :: parts :=
    Selector.rawParts_append_of_holds start found
  have slash : '/' ∈ '/' :: '*' :: text := List.mem_cons_self
  have hasSelectors := Selector.split_ne_nil slash (by decide) (by decide)
  have trimmed : Text.trim ('/' :: '*' :: part) =
      '/' :: '*' :: Text.trimEnd Text.isBlank part := by
    have slashKept := Text.trim_append_cons [] (by decide : Text.isBlank '/' = false) ('*' :: part)
    have starKept := Text.trimEnd_append_cons [] (by decide : Text.isBlank '*' = false) part
    rw [List.nil_append] at slashKept starKept
    rw [slashKept, starKept]
    rfl
  have slashAlone : '/' ∈ [] ++ ['/'] := List.mem_cons_self
  have exempt := Selector.isExempt_append_cons slashAlone (by decide) (by decide) harmless.2
    ('*' :: Text.trimEnd Text.isBlank part)
  have noLead : Text.startsWith [] lead = false := by
    cases lead with
    | nil => exact absurd rfl notEmpty
    | cons char rest => rfl
  have placed : Selector.scope lead (Text.trim ('/' :: '*' :: part)) =
      lead ++ ' ' :: '/' :: '*' :: Text.trimEnd Text.isBlank part := by
    rw [List.nil_append, noLead] at exempt
    rw [trimmed, Selector.scope, exempt]
    rfl
  have joined := Selector.follow_eq_join hasSelectors lead
  rw [opened, Selector.follow_cons (by simp [trimmed]), placed] at joined
  have first : Text.isBlank '/' = false := by decide
  rw [scopeList_of_split_ne_nil hasSelectors, Selector.split_eq_trimmedParts, opened,
    ← (List.cons.inj (List.cons.inj joined).2).2, List.takeWhile_cons_of_neg (by simp [first]),
    found, carry]
  simp

/-- What becomes of the list behind comments. -/
def listBehind (lead comments list : Text) : Text :=
  if freeBehind true (cut comments).1 = true ∧ '@' ∉ (cut comments).2 then
    carry lead (rawParts (({} : Selector.Nesting).after (cut comments).2) list) ++ [' ']
  else list

/-- What is seen of the lead of the first selector. -/
def leadBefore (lead comments : Text) : Text :=
  if leads comments = true then lead ++ [' '] else []

theorem code_sees_lead (isSteady : IsSteadyLead lead) :
    Place.code.Sees (lead ++ [' ']) (lead ++ [' ']) .code := by
  have outside : Place.code.IsOutside := trivial
  obtain ⟨plain, ends⟩ := isSteady.steady outside rfl
  exact (code_sees plain ends).append
    (code_sees_blanks (Text.isBlankText_replicate (by decide) 1))

theorem isUncut_opened {gap text : Text} (blanks : IsBlankText gap) (uncut : IsUncut text) :
    IsUncut (gap ++ '/' :: '*' :: text) :=
  (isListText_of_isBlankText blanks).isUncut.append
    (isUncut_cons (by decide) (isUncut_cons (by decide) uncut))

theorem after_opened {gap : Text} (blanks : IsBlankText gap) (text : Text) :
    ({} : Selector.Nesting).after (gap ++ '/' :: '*' :: text) =
      ({} : Selector.Nesting).after text := by
  rw [Selector.Nesting.after_append, (Selector.Nesting.valid_empty.after_blanks blanks).1]
  rfl

theorem comment_sees_append {text : Text} (closes : Place.comment.after (text ++ ['/']) = .code)
    (list : Text) :
    Place.comment.Sees (text ++ '/' :: list)
      (Place.comment.read (text ++ ['/']) ++ Place.code.read list) (Place.code.after list) := by
  have shape : text ++ '/' :: list = (text ++ ['/']) ++ list := by simp
  have closing : Place.comment.Sees (text ++ ['/']) (Place.comment.read (text ++ ['/'])) .code :=
    ⟨rfl, closes⟩
  rw [shape]
  exact closing.append ⟨rfl, rfl⟩

theorem code_sees_opened {gap : Text} (blanks : IsBlankText gap) {text seen : Text} {behind : Place}
    (inside : Place.comment.Sees text seen behind) :
    Place.code.Sees (gap ++ '/' :: '*' :: text) (gap ++ ([] ++ seen)) behind :=
  (code_sees_blanks blanks).append ⟨inside.read, inside.after⟩

theorem code_sees_scopeList (isSteady : IsSteadyLead lead) (notEmpty : lead ≠ []) {gap : Text}
    (blanks : IsBlankText gap) {text seen : Text} {behind : Place}
    (inside : Place.comment.Sees (carry lead (rawParts {} text) ++ [' ']) seen behind) :
    Place.code.Sees (scopeList lead (gap ++ '/' :: '*' :: text)) (gap ++ (lead ++ [' '] ++ seen))
      behind := by
  have opened : Place.code.Sees ('/' :: '*' :: (carry lead (rawParts {} text) ++ [' '])) seen
    behind := ⟨inside.read, inside.after⟩
  rw [scopeList_append_of_blank blanks, scopeList_opened isSteady.harmless notEmpty]
  have placed := (code_sees_blanks blanks).append ((code_sees_lead isSteady).append opened)
  simpa using placed

/-- What a reader sees of the comments before a scoped list. -/
def shownBefore (lead comments gap body : Text) : Text :=
  gap ++ (leadBefore lead comments ++ Place.comment.read (body ++ ['/']))

/-- Comments without braces and semicolons go into the list as a whole. -/
theorem code_sees_scopeHead_of_isUncut (isSteady : IsSteadyLead lead) (notEmpty : lead ≠ [])
    {comments gap body list : Text} (isText : IsCommentText comments gap body)
    (uncut : IsUncut comments) (isList : IsListText list) :
    Place.code.Sees (scopeHead lead (comments ++ list))
      (shownBefore lead comments gap body ++ Place.code.read (listBehind lead comments list))
      (Place.code.after (listBehind lead comments list)) := by
  have cutComments := cut_of_isUncut uncut
  have notEmptyText : (cut comments).2 ≠ [] := by
    rw [cutComments, isText.whole]
    simp
  have nesting : ({} : Selector.Nesting).after comments =
      ({} : Selector.Nesting).after (body ++ ['/']) := by
    rw [isText.whole, after_opened isText.gap]
  have shape : comments ++ list = gap ++ '/' :: '*' :: (body ++ '/' :: list) := by
    rw [isText.whole]
    simp
  rw [scopeHead_append lead isList notEmptyText, listBehind, shownBefore, leadBefore]
  simp only [cutComments, freeBehind, true_and, leads_of_isUncut uncut, scopeSegments]
  rw [shape, nesting, List.append_assoc, List.append_assoc]
  split
  · exact code_sees_scopeList isSteady notEmpty isText.gap
      (Place.comment_carry_append isSteady.harmless isText.blanks isText.closes list)
  · exact code_sees_opened isText.gap (comment_sees_append isText.closes list)

/-- Comments with braces or semicolons: the segment in which the first comment begins, the segments
inside of comments, and the text behind them in which the last comment ends. -/
structure IsCutComments (comments gap body : Text) (first : Segment) (others : List Segment)
    (tail : Text) : Prop where
  cut : cut comments =
    ({ first with text := gap ++ '/' :: '*' :: first.text } :: others, tail ++ ['/'])
  leads : ({ first with text := gap ++ '/' :: '*' :: first.text } : Segment).opensRule = true ↔
    leads comments = true
  gap : IsBlankText gap
  delimiter : isDelimiter first.stop = true
  whole : ∀ segment ∈ others, segment.IsWhole
  seen : Place.comment.read (body ++ ['/']) = Place.comment.read first.text ++
    (Place.comment.read (segmentsText others) ++ Place.comment.read (tail ++ ['/']))
  blanks : IsBlankText (Place.comment.read (body ++ ['/']))
  hidden : (Place.comment.after first.text).isHidden = true
  closes : Place.comment.after (tail ++ ['/']) = .code

theorem IsCommentText.isCutComments {comments gap body : Text}
    (isText : IsCommentText comments gap body) {first : Segment} {others : List Segment}
    (found : (cut body).1 = first :: others) :
    IsCutComments comments gap body first others (cut body).2 := by
  obtain ⟨whole, -⟩ := cut_isWhole body
  rw [found] at whole
  obtain ⟨firstUncut, delimiter⟩ := whole first List.mem_cons_self
  have othersWhole : ∀ segment ∈ others, segment.IsWhole := fun segment member =>
    whole segment (List.mem_cons_of_mem _ member)
  have bodyText : body ++ ['/'] =
      first.text ++ first.stop :: (segmentsText others ++ ((cut body).2 ++ ['/'])) := by
    conv_lhs => rw [← segmentsText_cut body, found]
    simp [segmentsText]
  have opening : IsUncut (gap ++ ['/', '*']) := isUncut_opened isText.gap isUncut_nil
  have openingShape : comments = (gap ++ ['/', '*']) ++ (body ++ ['/']) := by
    rw [isText.whole]
    simp
  have segmentShape : comments = (gap ++ '/' :: '*' :: first.text) ++
      first.stop :: (segmentsText others ++ ((cut body).2 ++ ['/'])) := by
    rw [isText.whole, bodyText]
    simp
  have blanks := isText.blanks
  have closes := isText.closes
  rw [bodyText] at blanks closes
  have hidden := Place.isHidden_of_read_blank blanks (Place.mem_of_isDelimiter delimiter)
  have behind := Place.read_delimiter hidden delimiter
    (segmentsText others ++ ((cut body).2 ++ ['/']))
  rw [Place.read_append, behind.1, Place.read_append] at blanks
  rw [Place.after_append, behind.2, Place.after_append] at closes
  have reached := Place.after_segmentsText othersWhole fun char member =>
    blanks char (List.mem_append_right _ (List.mem_append_left _ member))
  refine ⟨?_, ?_, isText.gap, delimiter, othersWhole, ?_, isText.blanks, hidden, ?_⟩
  · rw [openingShape, cut_append_uncut opening, cut_append_of_isUncut body (by decide), found]
    simp
  · rw [segmentShape, leads_append_cons (isUncut_opened isText.gap firstUncut) delimiter]
    simp [Segment.opensRule]
  · rw [bodyText, Place.read_append, behind.1, Place.read_append, reached]
  · rwa [reached] at closes

namespace IsCutComments

variable {comments gap body tail : Text} {first : Segment} {others : List Segment}

theorem blanks_first (isCut : IsCutComments comments gap body first others tail) :
    IsBlankText (Place.comment.read first.text) := fun char member =>
  isCut.blanks char (by rw [isCut.seen]; exact List.mem_append_left _ member)

theorem blanks_others (isCut : IsCutComments comments gap body first others tail) :
    IsBlankText (Place.comment.read (segmentsText others)) := fun char member =>
  isCut.blanks char (by
    rw [isCut.seen]
    exact List.mem_append_right _ (List.mem_append_left _ member))

theorem blanks_tail (isCut : IsCutComments comments gap body first others tail) :
    IsBlankText (Place.comment.read (tail ++ ['/'])) := fun char member =>
  isCut.blanks char (by
    rw [isCut.seen]
    exact List.mem_append_right _ (List.mem_append_right _ member))

/-- The lead is seen when the first segment is taken for a list. -/
theorem code_sees_segments (isCut : IsCutComments comments gap body first others tail)
    (isSteady : IsSteadyLead lead) (notEmpty : lead ≠ []) :
    Place.code.Sees (segmentsText (scopeSegments lead true (Style.cut comments).1))
      (gap ++ (leadBefore lead comments ++ Place.comment.read first.text) ++
        Place.comment.read (segmentsText others)) .comment := by
  have behind : ∀ {text seen : Text} {place : Place}, Place.code.Sees text seen place →
      place.isHidden = true → ∀ free,
        Place.code.Sees (segmentsText ({ first with text } :: scopeSegments lead free others))
          (seen ++ Place.comment.read (segmentsText others)) .comment := by
    intro text seen place start hidden free
    have stop : place.Sees [first.stop] [] .comment :=
      ⟨(Place.read_delimiter hidden isCut.delimiter []).1,
        (Place.read_delimiter hidden isCut.delimiter []).2⟩
    have inside := Place.read_scopeSegments isSteady.harmless isCut.whole isCut.blanks_others free
    simpa [segmentsText] using (start.append stop).append inside
  rw [isCut.cut, scopeSegments, Bool.true_and, leadBefore]
  by_cases leading : Style.leads comments = true
  · have carried := Place.comment_carry isSteady.harmless isCut.blanks_first isCut.hidden
    rw [if_pos (isCut.leads.mpr leading), if_pos leading]
    exact behind (code_sees_scopeList isSteady notEmpty isCut.gap ⟨carried.1, rfl⟩) carried.2 false
  · rw [if_neg (mt isCut.leads.mp leading), if_neg leading]
    exact behind (code_sees_opened isCut.gap ⟨rfl, rfl⟩) isCut.hidden true

/-- The list goes with the text behind the last segment. -/
theorem comment_sees_list (isCut : IsCutComments comments gap body first others tail)
    (isSteady : IsSteadyLead lead) (list : Text) :
    Place.comment.Sees
      (if freeBehind true (Style.cut comments).1 = true ∧ '@' ∉ (Style.cut comments).2 then
        scopeList lead ((Style.cut comments).2 ++ list) else (Style.cut comments).2 ++ list)
      (Place.comment.read (tail ++ ['/']) ++ Place.code.read (listBehind lead comments list))
      (Place.code.after (listBehind lead comments list)) := by
  have joined : (Style.cut comments).2 ++ list = tail ++ '/' :: list := by simp [isCut.cut]
  rw [listBehind, joined]
  split
  · rw [isCut.cut]
    exact Place.read_scopeList_append isSteady.harmless isCut.blanks_tail isCut.closes list
  · exact comment_sees_append isCut.closes list

end IsCutComments

/-- A reader sees the white space between the comments, the lead when it stands before them, and what
becomes of the list. -/
theorem code_sees_scopeHead (isSteady : IsSteadyLead lead) (notEmpty : lead ≠ [])
    {comments gap body list : Text} (isText : IsCommentText comments gap body)
    (isList : IsListText list) :
    Place.code.Sees (scopeHead lead (comments ++ list))
      (shownBefore lead comments gap body ++ Place.code.read (listBehind lead comments list))
      (Place.code.after (listBehind lead comments list)) := by
  cases found : (cut body).1 with
  | nil =>
      have bodyText := segmentsText_cut body
      rw [found] at bodyText
      have bodyUncut : IsUncut body := bodyText ▸ (cut_isWhole body).2
      have uncut : IsUncut comments := by
        rw [isText.whole]
        exact isUncut_opened isText.gap (bodyUncut.append (by decide))
      exact code_sees_scopeHead_of_isUncut isSteady notEmpty isText uncut isList
  | cons first others =>
      have isCut := isText.isCutComments found
      have seen := (isCut.code_sees_segments isSteady notEmpty).append
        (isCut.comment_sees_list isSteady list)
      rw [scopeHead_append lead isList (by simp [isCut.cut]), shownBefore, isCut.seen]
      simpa using seen

theorem uncomment_of_plain {text : Text} (plain : Place.code.Plain text) : uncomment text = text := by
  have outside : Place.code.IsOutside := trivial
  exact outside.read_append_held plain

/-- Scoping begins no comments in a list. -/
theorem plain_carry_space (isSteady : IsSteadyLead lead) {list : Text}
    (bare : uncomment list = list) (nesting : Selector.Nesting) :
    Place.code.Plain (carry lead (rawParts nesting list) ++ [' ']) := by
  have outside : Place.code.IsOutside := trivial
  have plain := plain_of_uncomment bare
  obtain ⟨part, parts, found⟩ :=
    List.exists_cons_of_ne_nil (Selector.rawParts_ne_nil nesting list)
  rw [Selector.eq_append_commaLed found] at plain
  have carried := outside.plain_carry isSteady plain
  have space : IsBlankText [' '] := by decide
  rw [found, Place.plain_append]
  exact ⟨carried, ((outside.after carried).settled_after_of_isMark fun char member =>
    isMark_of_isBlank (space char member)).1⟩

theorem uncomment_scopeHead (isSteady : IsSteadyLead lead) (notEmpty : lead ≠ [])
    {comments gap body list : Text} (isText : IsCommentText comments gap body)
    (isList : IsListText list) (bare : uncomment list = list) :
    uncomment (scopeHead lead (comments ++ list)) =
      shownBefore lead comments gap body ++ listBehind lead comments list := by
  have seen := code_sees_scopeHead isSteady notEmpty isText isList
  have shown : uncomment (listBehind lead comments list) = listBehind lead comments list := by
    unfold listBehind
    split
    · exact uncomment_of_plain (plain_carry_space isSteady bare _)
    · exact bare
  conv_rhs => rw [← shown]
  rw [uncomment, uncomment, seen.read, seen.after, List.append_assoc]

/-- A list without comments is scoped to a list without comments. -/
theorem uncomment_scopeList (isSteady : IsSteadyLead lead) {list : Text}
    (bare : uncomment list = list) : uncomment (scopeList lead list) = scopeList lead list := by
  by_cases noSelectors : Selector.split list = []
  · rw [scopeList_of_split_eq_nil noSelectors, bare]
  · have outside : Place.code.IsOutside := trivial
    have blanks : IsBlankText (list.takeWhile Text.isBlank) := fun char member =>
      List.mem_takeWhile_imp member
    obtain ⟨blankPlain, stays⟩ := outside.after_of_isMark rfl fun char member =>
      isMark_of_isBlank (blanks char member)
    have commaBare : uncomment (',' :: list) = ',' :: list :=
      uncomment_of_plain ⟨by decide, plain_of_uncomment bare⟩
    have followed := plain_carry_space isSteady commaBare {}
    rw [Place.carry_comma, Selector.follow_eq_join noSelectors] at followed
    rw [scopeList_of_split_ne_nil noSelectors, List.append_assoc]
    apply uncomment_of_plain
    rw [Place.plain_append, stays]
    exact ⟨blankPlain, followed.2.2⟩

end DocComponents.Style
