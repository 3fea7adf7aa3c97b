import DocComponents.Proofs.Style.Carrying
import DocComponents.Proofs.Style.Reading
import DocComponents.Proofs.Style.Segments

/-!
# Scoping what is not seen

Scoping writes commas, spaces and the lead where it finds a comma. When that comma stands in a
comment, so does all that is written there, and a reader sees what it saw before. When it stands
outside of comments, what is written begins none.
-/

set_option autoImplicit false

namespace DocComponents.Style

open Text (IsBlankText)
open Selector (carry commaLed follow rawParts)

/-- A lead that neither begins nor ends a comment, and that leaves a reader where it was. -/
structure IsSteadyLead (lead : Text) : Prop where
  harmless : IsHarmless lead
  steady : ∀ {place : Place}, place.IsOutside → place.settled = place →
    place.Plain lead ∧ place.after lead = place

namespace Place

/-- Places that are the same, or in a comment both. -/
def Like (place other : Place) : Prop :=
  place = other ∨ place.isHidden = true ∧ other.isHidden = true

theorem Like.isHidden {place other : Place} (like : place.Like other) :
    place.isHidden = other.isHidden := by
  rcases like with rfl | ⟨hidden, otherHidden⟩
  · rfl
  · rw [hidden, otherHidden]

theorem Like.trans {place other third : Place} (like : place.Like other)
    (again : other.Like third) : place.Like third := by
  rcases again with rfl | ⟨hidden, thirdHidden⟩
  · exact like
  · exact .inr ⟨like.isHidden.trans hidden, thirdHidden⟩

/-- Only a star takes a reader into a comment. -/
theorem isHidden_of_next {place : Place} {char : Char} (noStar : char ≠ '*')
    (hidden : (place.next char).isHidden = true) : place.isHidden = true := by
  have entered := (isOutside_entered char).isHidden
  cases place with
  | code => exact absurd hidden (by simp [next, entered])
  | quoted quote => by_cases same : char = quote <;> simp [next, same, isHidden] at hidden
  | slash => exact absurd hidden (by simp [next, noStar, entered])
  | comment | star => rfl

theorem isHidden_of_after_blanks {place : Place} {text : Text} (blanks : IsBlankText text)
    (hidden : (place.after text).isHidden = true) : place.isHidden = true := by
  induction text generalizing place with
  | nil => exact hidden
  | cons char rest ih =>
      have noStar : char ≠ '*' := by
        rintro rfl
        exact absurd (blanks '*' List.mem_cons_self) (by decide)
      exact isHidden_of_next noStar
        (ih (fun other member => blanks other (List.mem_cons_of_mem _ member)) hidden)

/-- A reader in a comment does not see that blanks at the end of a text are trimmed. -/
theorem read_trimEnd {place : Place} {text : Text} (hidden : (place.after text).isHidden = true) :
    place.read (Text.trimEnd Text.isBlank text) = place.read text ∧
      (place.after (Text.trimEnd Text.isBlank text)).isHidden = true := by
  obtain ⟨blanks, whole, isBlank⟩ := Text.exists_blanks_behind_trimEnd text
  have trimmedHidden : (place.after (Text.trimEnd Text.isBlank text)).isHidden = true := by
    apply isHidden_of_after_blanks isBlank
    rw [← after_append, ← whole]
    exact hidden
  refine ⟨?_, trimmedHidden⟩
  conv_rhs => rw [whole, read_append,
    (read_of_isHarmless trimmedHidden (isHarmless_of_isBlankText isBlank)).1, List.append_nil]

/-! ## Scoping in a comment -/

/-- Where scoping follows others inside a comment, it is as if it carried on. -/
theorem read_follow {lead : Text} (harmless : IsHarmless lead) {place : Place}
    (hidden : place.isHidden = true) (part : Text) (parts : List Text) :
    place.read (follow lead (part :: parts)) = comment.read (carry lead (part :: parts)) ∧
      (place.after (follow lead (part :: parts))).Like
        (comment.after (carry lead (part :: parts))) := by
  have comma := read_comma hidden
  obtain ⟨before, isBlank, trimmed⟩ := Text.exists_blanks_before_trim part
  have carried : comment.read (carry lead (part :: parts)) =
        comment.read (Text.trim part ++ follow lead parts) ∧
      comment.after (carry lead (part :: parts)) =
        comment.after (Text.trim part ++ follow lead parts) := by
    rw [carry, trimmed, List.append_assoc]
    exact comment_append (isHarmless_of_isBlankText isBlank) _
  rw [carried.1, carried.2]
  by_cases blank : Text.trim part = []
  · rw [Selector.follow_cons_of_blank blank, blank, List.nil_append]
    by_cases noSelectors : Selector.trimmedParts parts = []
    · have nothing : follow lead parts = [] := by rw [follow, noSelectors]; rfl
      rw [nothing]
      exact ⟨rfl, .inr ⟨hidden, rfl⟩⟩
    · rw [Selector.follow_eq_join noSelectors, (comma _).1, (comma _).2]
      exact ⟨rfl, .inl rfl⟩
  · have inserted : ∃ blanks, IsHarmless blanks ∧
        follow lead (part :: parts) = ',' :: (blanks ++ (Text.trim part ++ follow lead parts)) := by
      rw [Selector.follow_cons blank]
      rcases Selector.scope_eq_or lead (Text.trim part) with same | led
      · exact ⟨[' '], by decide, by simp [same]⟩
      · have spaced : IsHarmless ([' '] ++ lead ++ [' ']) :=
          (IsHarmless.append (by decide) harmless).append (by decide)
        exact ⟨[' '] ++ lead ++ [' '], spaced, by simp [led]⟩
    obtain ⟨blanks, spaced, shape⟩ := inserted
    obtain ⟨unseen, same⟩ := comment_append spaced (Text.trim part ++ follow lead parts)
    rw [shape, (comma _).1, (comma _).2, unseen, same]
    exact ⟨rfl, .inl rfl⟩

/-- What is seen of a text whose commas stand in comments is seen when it is scoped. -/
theorem read_carry {lead : Text} (harmless : IsHarmless lead) {part : Text} {parts : List Text}
    (blanks : IsBlankText (comment.read (part ++ commaLed parts)))
    (ends : (comment.after (part ++ commaLed parts)).isHidden = true ∨
      ∀ last, (part ++ commaLed parts).getLast? = some last → Text.isBlank last = false) :
    comment.read (carry lead (part :: parts)) = comment.read (part ++ commaLed parts) ∧
      (comment.after (carry lead (part :: parts))).Like
        (comment.after (part ++ commaLed parts)) := by
  induction parts generalizing part with
  | nil =>
      have alone : carry lead [part] = Text.trimEnd Text.isBlank part ∧ part ++ commaLed [] = part := by
        simp [carry, commaLed]
      rw [alone.2] at ends ⊢
      rw [alone.1]
      rcases ends with hidden | lasts
      · obtain ⟨same, trimmedHidden⟩ := read_trimEnd hidden
        exact ⟨same, .inr ⟨trimmedHidden, hidden⟩⟩
      · rw [Text.trimEnd_of_getLast? lasts]
        exact ⟨rfl, .inl rfl⟩
  | cons next others ih =>
      have shape : part ++ commaLed (next :: others) =
          part ++ ',' :: (next ++ commaLed others) := by simp [commaLed]
      rw [shape] at blanks ends ⊢
      have hidden := isHidden_of_read_blank blanks (by simp)
      have comma := read_comma hidden (next ++ commaLed others)
      obtain ⟨trimmed, trimmedHidden⟩ := read_trimEnd hidden
      obtain ⟨followed, followedLike⟩ := read_follow harmless trimmedHidden next others
      rw [read_append, comma.1] at blanks ⊢
      rw [after_append, comma.2] at ends ⊢
      have later := ih (fun char member => blanks char (List.mem_append_right _ member))
        (ends.imp_right fun lasts last found => lasts last (by
          rw [List.getLast?_append, List.getLast?_cons, found]
          rfl))
      rw [carry, read_append, after_append, trimmed, followed, later.1]
      exact ⟨rfl, followedLike.trans later.2⟩

/-! ## Scoping outside of comments -/

/-- No comment begins where scoping follows others, when none begins where it carries on. -/
theorem IsOutside.plain_follow {lead : Text} (isSteady : IsSteadyLead lead) {place : Place}
    (outside : place.IsOutside) {part : Text} {parts : List Text}
    (plain : place.settled.Plain (Text.trim part ++ follow lead parts)) :
    place.Plain (follow lead (part :: parts)) := by
  have settledOutside := outside.settled
  have behind : ∀ {char : Char} {rest : Text}, isMark char = false → place.settled.Plain rest →
      place.Plain (char :: rest) ∧ place.settled.Plain (char :: rest) := by
    intro char rest dull plainRest
    rw [Plain, Plain, outside.next_of_isMark dull, settledOutside.next_of_isMark dull,
      settled_settled]
    exact ⟨⟨settledOutside.ne_comment, plainRest⟩, settledOutside.ne_comment, plainRest⟩
  by_cases blank : Text.trim part = []
  · rw [blank, List.nil_append] at plain
    rw [Selector.follow_cons_of_blank blank]
    by_cases noSelectors : Selector.trimmedParts parts = []
    · rw [follow, noSelectors]
      trivial
    · rw [Selector.follow_eq_join noSelectors] at plain ⊢
      rw [Plain, settledOutside.next_of_isMark (by decide), settled_settled] at plain
      exact (behind (by decide) plain.2).1
  · rw [Selector.follow_cons blank]
    refine (behind (by decide) (behind (by decide) ?_).2).1
    rcases Selector.scope_eq_or lead (Text.trim part) with same | led
    · rwa [same]
    · obtain ⟨leadPlain, stays⟩ := isSteady.steady settledOutside place.settled_settled
      rw [led, List.append_assoc, plain_append, stays]
      exact ⟨leadPlain, (behind (by decide) plain).2⟩

/-- No comment begins in a scoped text when none begins in the text. -/
theorem IsOutside.plain_carry {lead : Text} (isSteady : IsSteadyLead lead) {place : Place}
    (outside : place.IsOutside) {part : Text} {parts : List Text}
    (plain : place.Plain (part ++ commaLed parts)) :
    place.Plain (carry lead (part :: parts)) := by
  induction parts generalizing place part with
  | nil =>
      obtain ⟨blanks, whole, -⟩ := Text.exists_blanks_behind_trimEnd part
      rw [whole, List.append_assoc, plain_append] at plain
      simpa [carry] using plain.1
  | cons next others ih =>
      obtain ⟨blanks, whole, isBlank⟩ := Text.exists_blanks_behind_trimEnd part
      obtain ⟨before, blankBefore, trimmed⟩ := Text.exists_blanks_before_trim next
      have shape : part ++ commaLed (next :: others) =
          Text.trimEnd Text.isBlank part ++
            (blanks ++ (',' :: (next ++ commaLed others))) := by
        conv_lhs => rw [whole]
        simp [commaLed]
      rw [shape, plain_append, plain_append] at plain
      obtain ⟨start, padding, -, later⟩ := plain
      have reached := outside.after start
      -- From here on the reader stands at the same place before and behind commas and blanks.
      have settledOutside := reached.settled
      have twice := (place.after (Text.trimEnd Text.isBlank part)).settled_settled
      have spaced := settledOutside.after_of_isMark twice fun char member =>
        isMark_of_isBlank (blankBefore char member)
      have behindComma : ∀ {other : Place}, other.IsOutside →
          other.next ',' = other.settled := fun outside => outside.next_of_isMark (by decide)
      rw [behindComma (reached.after padding), (reached.settled_after_of_isMark fun char member =>
        isMark_of_isBlank (isBlank char member)).2] at later
      have carried := ih settledOutside later
      rw [carry, trimmed, List.append_assoc, plain_append, spaced.2] at carried
      rw [carry, plain_append]
      refine ⟨start, ?_⟩
      exact reached.plain_follow isSteady carried.2

/-- What a reader sees of a text from one place to another. -/
structure Sees (place : Place) (text seen : Text) (behind : Place) : Prop where
  read : place.read text = seen
  after : place.after text = behind

theorem Sees.append {place behind other : Place} {left right seenLeft seenRight : Text}
    (first : place.Sees left seenLeft behind) (second : behind.Sees right seenRight other) :
    place.Sees (left ++ right) (seenLeft ++ seenRight) other where
  read := by rw [read_append, first.read, first.after, second.read]
  after := by rw [after_append, first.after, second.after]

/-! ## Selector lists in comments -/

variable {lead : Text}

/-- A text that ends in the comment it begins in. -/
theorem comment_carry (harmless : IsHarmless lead) {text : Text}
    (blanks : IsBlankText (comment.read text)) (hidden : (comment.after text).isHidden = true) :
    comment.read (carry lead (rawParts {} text) ++ [' ']) = comment.read text ∧
      (comment.after (carry lead (rawParts {} text) ++ [' '])).isHidden = true := by
  obtain ⟨part, parts, found⟩ :=
    List.exists_cons_of_ne_nil (Selector.rawParts_ne_nil {} text)
  have whole := Selector.eq_append_commaLed found
  rw [whole] at blanks hidden
  obtain ⟨same, like⟩ := read_carry harmless blanks (.inl hidden)
  have carriedHidden := like.isHidden.trans hidden
  have space : IsHarmless [' '] := by decide
  obtain ⟨unseen, still⟩ := read_of_isHarmless carriedHidden space
  rw [found, read_append, after_append, same, unseen, List.append_nil, ← whole]
  exact ⟨rfl, still⟩

/-- A text that ends the comment it begins in, with a selector list behind it. -/
theorem comment_carry_append (harmless : IsHarmless lead) {text : Text}
    (blanks : IsBlankText (comment.read (text ++ ['/'])))
    (closes : comment.after (text ++ ['/']) = .code) (list : Text) :
    let carried := carry lead (rawParts (({} : Selector.Nesting).after (text ++ ['/'])) list) ++ [' ']
    comment.Sees (carry lead (rawParts {} (text ++ '/' :: list)) ++ [' '])
      (comment.read (text ++ ['/']) ++ code.read carried) (code.after carried) := by
  intro carried
  obtain ⟨part, parts, found⟩ :=
    List.exists_cons_of_ne_nil (Selector.rawParts_ne_nil {} (text ++ ['/']))
  have whole := Selector.eq_append_commaLed found
  have lasts : ∀ last, (part ++ commaLed parts).getLast? = some last →
      Text.isBlank last = false := by
    intro last isLast
    have isSlash : '/' = last := by simpa [← whole] using isLast
    exact isSlash ▸ by decide
  rw [whole] at blanks closes
  obtain ⟨same, like⟩ := read_carry harmless blanks (.inr lasts)
  have closed : comment.Sees (carry lead (rawParts {} (text ++ ['/'])))
      (comment.read (text ++ ['/'])) .code := by
    rw [found, whole]
    rcases like with equal | ⟨-, hidden⟩
    · exact ⟨same, equal.trans closes⟩
    · rw [closes] at hidden
      cases hidden
  rw [Selector.carry_append_slash harmless.2, List.append_assoc]
  exact closed.append ⟨rfl, rfl⟩

theorem carry_comma (text : Text) :
    carry lead (rawParts {} (',' :: text)) = follow lead (rawParts {} text) := by
  have nothing : ({} : Selector.Nesting).Holds [] := trivial
  have first := Selector.rawParts_append_comma nothing rfl text
  rw [List.nil_append] at first
  rw [first]
  rfl

/-- In a comment a scoped list reads like one that is carried on behind a comma. -/
theorem comment_scopeList (lead text : Text) (hasSelectors : Selector.split text ≠ []) :
    comment.Sees (scopeList lead text)
      (comment.read (carry lead (rawParts {} (',' :: text)) ++ [' ']))
      (comment.after (carry lead (rawParts {} (',' :: text)) ++ [' '])) := by
  have blanks : IsBlankText (text.takeWhile Text.isBlank) := fun char member =>
    List.mem_takeWhile_imp member
  have start := comment_append (isHarmless_of_isBlankText blanks)
  have harmlessSeparator : IsHarmless [',', ' '] := by decide
  have separator := comment_append harmlessSeparator
  have joined : carry lead (rawParts {} (',' :: text)) ++ [' '] =
      [',', ' '] ++ (Text.join [',', ' '] ((Selector.split text).map (Selector.scope lead)) ++
        [' ']) := by
    rw [carry_comma, Selector.follow_eq_join hasSelectors, Selector.split_eq_trimmedParts]
    rfl
  rw [joined, scopeList_of_split_ne_nil hasSelectors, List.append_assoc]
  constructor
  · rw [(start _).1, (separator _).1]
  · rw [(start _).2, (separator _).2]

/-- A list that stands in a comment is scoped in the comment. -/
theorem read_scopeList (harmless : IsHarmless lead) {text : Text}
    (blanks : IsBlankText (comment.read text)) (hidden : (comment.after text).isHidden = true) :
    comment.read (scopeList lead text) = comment.read text ∧
      (comment.after (scopeList lead text)).isHidden = true := by
  by_cases noSelectors : Selector.split text = []
  · rw [scopeList_of_split_eq_nil noSelectors]
    exact ⟨rfl, hidden⟩
  · have inComment : comment.isHidden = true := rfl
    have comma := read_comma inComment text
    have listed := comment_scopeList lead text noSelectors
    rw [← comma.1] at blanks
    rw [← comma.2] at hidden
    obtain ⟨same, stillHidden⟩ := comment_carry harmless blanks hidden
    rw [listed.read, listed.after, same]
    exact ⟨comma.1, stillHidden⟩

theorem mem_of_isDelimiter {char : Char} (delimiter : isDelimiter char = true) :
    char ∈ [',', '{', '}', ';'] := by
  simp only [isDelimiter, Bool.or_eq_true, beq_iff_eq] at delimiter
  rcases delimiter with (rfl | rfl) | rfl <;> simp

/-- A delimiter in a comment is not seen. -/
theorem read_delimiter {place : Place} (hidden : place.isHidden = true) {stop : Char}
    (delimiter : isDelimiter stop = true) (rest : Text) :
    place.read (stop :: rest) = comment.read rest ∧
      place.after (stop :: rest) = comment.after rest := by
  apply read_cons_of_isHidden hidden
  · rintro rfl
    cases delimiter
  · rintro rfl
    cases delimiter

theorem segmentsText_cons (segment : Segment) (others : List Segment) :
    segmentsText (segment :: others) =
      segment.text ++ segment.stop :: segmentsText others := by
  simp [segmentsText]

/-- Segments that stand in comments are scoped in the comments. -/
theorem read_scopeSegments (harmless : IsHarmless lead) {segments : List Segment}
    (whole : ∀ segment ∈ segments, segment.IsWhole)
    (blanks : IsBlankText (comment.read (segmentsText segments))) (free : Bool) :
    comment.Sees (segmentsText (scopeSegments lead free segments))
      (comment.read (segmentsText segments)) .comment := by
  induction segments generalizing free with
  | nil => exact ⟨rfl, rfl⟩
  | cons segment others ih =>
      have delimiter := (whole segment List.mem_cons_self).stop
      rw [segmentsText_cons] at blanks ⊢
      have hidden := isHidden_of_read_blank blanks (mem_of_isDelimiter delimiter)
      have behind := read_delimiter hidden delimiter (segmentsText others)
      rw [read_append, behind.1] at blanks ⊢
      have later := ih (fun other member => whole other (List.mem_cons_of_mem _ member))
        fun char member => blanks char (List.mem_append_right _ member)
      have first : ∀ text, comment.read text = comment.read segment.text →
          (comment.after text).isHidden = true → ∀ free,
            comment.Sees
              (segmentsText ({ segment with text } :: scopeSegments lead free others))
              (comment.read segment.text ++ comment.read (segmentsText others)) .comment := by
        intro text same textHidden free
        have textBehind := read_delimiter textHidden delimiter
          (segmentsText (scopeSegments lead free others))
        constructor
        · rw [segmentsText_cons, read_append, textBehind.1, same, (later free).read]
        · rw [segmentsText_cons, after_append, textBehind.2, (later free).after]
      have inList := read_scopeList harmless
        (fun char member => blanks char (List.mem_append_left _ member)) hidden
      rw [scopeSegments]
      split
      · exact first _ inList.1 inList.2 false
      · exact first segment.text rfl hidden true

/-- A comment goes on behind segments that stand in it. -/
theorem after_segmentsText {segments : List Segment}
    (whole : ∀ segment ∈ segments, segment.IsWhole)
    (blanks : IsBlankText (comment.read (segmentsText segments))) :
    comment.after (segmentsText segments) = .comment := by
  induction segments with
  | nil => rfl
  | cons segment others ih =>
      have delimiter := (whole segment List.mem_cons_self).stop
      rw [segmentsText_cons] at blanks ⊢
      have hidden := isHidden_of_read_blank blanks (mem_of_isDelimiter delimiter)
      have behind := read_delimiter hidden delimiter (segmentsText others)
      rw [read_append, behind.1] at blanks
      rw [after_append, behind.2]
      exact ih (fun other member => whole other (List.mem_cons_of_mem _ member))
        fun char member => blanks char (List.mem_append_right _ member)

/-- The list behind the last delimiter of a comment, with the end of that comment before it. -/
theorem read_scopeList_append (harmless : IsHarmless lead) {text : Text}
    (blanks : IsBlankText (comment.read (text ++ ['/'])))
    (closes : comment.after (text ++ ['/']) = .code) (list : Text) :
    let carried := carry lead (rawParts (({} : Selector.Nesting).after (text ++ ['/'])) list) ++ [' ']
    comment.Sees (scopeList lead (text ++ '/' :: list))
      (comment.read (text ++ ['/']) ++ code.read carried) (code.after carried) := by
  intro carried
  have inComment : comment.isHidden = true := rfl
  have comma := read_comma inComment (text ++ ['/'])
  have slash : '/' ∈ text ++ '/' :: list := by simp
  have hasSelectors := Selector.split_ne_nil slash (by decide) (by decide)
  have listed := comment_scopeList lead _ hasSelectors
  have commaBlanks : IsBlankText (comment.read (',' :: text ++ ['/'])) := by
    rwa [List.cons_append, comma.1]
  have commaCloses : comment.after (',' :: text ++ ['/']) = .code := by
    rwa [List.cons_append, comma.2]
  -- The comma before the text opens and closes nothing.
  have closing := comment_carry_append harmless commaBlanks commaCloses list
  rw [← comma.1]
  exact ⟨listed.read.trans closing.read, listed.after.trans closing.after⟩

end Place

end DocComponents.Style
