import DocComponents.Document.CodeSpan
import DocComponents.Proofs.Text.Scan
import Mathlib.Data.List.TakeWhile

/-!
# Code spans between runs

A code span is a text between two runs of backticks of one length, without such a run and without a
blank line between them. A text is cut where code spans begin, from left to right, and the stretches
between the spans are prose.
-/

set_option autoImplicit false

namespace DocComponents.CodeSpan

def ticks (length : Nat) : Text :=
  List.replicate length '`'

@[simp] theorem length_ticks (length : Nat) : (ticks length).length = length :=
  List.length_replicate

theorem eq_tick_of_mem_ticks {length : Nat} {char : Char} (member : char ∈ ticks length) :
    char = '`' :=
  List.eq_of_mem_replicate member

/-- What stands between two runs of backticks of a length, the second of which is the nearest. -/
structure IsContent (length : Nat) (content : Text) : Prop where
  notEmpty : content ≠ []
  opened : content.head? ≠ some '`'
  closed : content.getLast? ≠ some '`'
  /-- As many backticks in it belong to a longer run. -/
  nearest : ∀ before behind, content = before ++ ticks length ++ behind →
    before.getLast? = some '`' ∨ behind.head? = some '`'
  noBlankLine : ∀ before blanks behind, content = before ++ '\n' :: (blanks ++ '\n' :: behind) →
    ∃ char ∈ blanks, Text.isSpaceOrTab char = false

/-- A text is a code span, for the character before it and the text behind it. -/
inductive IsSpan (previous : Option Char) : Text → Text → Prop where
  | intro {length : Nat} {content rest : Text} (positive : 0 < length)
      (isContent : IsContent length content) (before : previous ≠ some '`')
      (behind : rest.head? ≠ some '`') :
      IsSpan previous (ticks length ++ content ++ ticks length) rest

def Begins (previous : Option Char) (text : Text) : Prop :=
  ∃ source rest, text = source ++ rest ∧ IsSpan previous source rest

/-- How a text is cut into stretches. Prose goes on up to the next code span. -/
inductive Cuts : Option Char → Text → List Stretch → Prop where
  | done {previous : Option Char} : Cuts previous [] []
  | prose {previous : Option Char} {source rest : Text} {stretches : List Stretch}
      (notEmpty : source ≠ [])
      (plain : ∀ before behind, source = before ++ behind → behind ≠ [] →
        ¬ Begins (before.getLast?.or previous) (behind ++ rest))
      (ends : rest ≠ [] → Begins source.getLast? rest)
      (later : Cuts source.getLast? rest stretches) :
      Cuts previous (source ++ rest) (.prose source :: stretches)
  | code {previous : Option Char} {source rest : Text} {stretches : List Stretch}
      (isSpan : IsSpan previous source rest) (later : Cuts source.getLast? rest stretches) :
      Cuts previous (source ++ rest) (.code source :: stretches)

theorem runLength_ticks_append {length : Nat} {rest : Text} (ends : rest.head? ≠ some '`') :
    runLength (ticks length ++ rest) = length := by
  have run : ∀ char ∈ ticks length, (char == '`') = true := by
    intro char member
    simp [eq_tick_of_mem_ticks member]
  have stop : rest.takeWhile (· == '`') = [] := by
    cases rest with
    | nil => rfl
    | cons char others => simpa using ends
  rw [runLength, List.takeWhile_append_of_pos run, stop, List.append_nil, length_ticks]

theorem exists_ticks_append (text : Text) :
    ∃ rest, text = ticks (runLength text) ++ rest ∧ rest.head? ≠ some '`' := by
  have run : text.takeWhile (· == '`') = ticks (runLength text) := by
    refine List.eq_replicate_iff.mpr ⟨rfl, fun char member => ?_⟩
    simpa using List.mem_takeWhile_imp member
  refine ⟨text.dropWhile (· == '`'), ?_, ?_⟩
  · rw [← run, List.takeWhile_append_dropWhile]
  · intro more
    have notHere := List.head?_dropWhile_not (· == '`') text
    rw [more] at notHere
    simp at notHere

/-- The first run of just so many backticks behind a content, where the search goes on from the
character before the content. -/
structure ClosedBy (length : Nat) (previous : Char) (content rest : Text) : Prop where
  run : content.getLastD previous ≠ '`' ∧ runLength rest = length
  first : ∀ before behind, content = before ++ behind → behind ≠ [] →
    ¬ (before.getLastD previous ≠ '`' ∧ runLength (behind ++ rest) = length)
  noBlankLine : ∀ before behind, content = before ++ behind → behind ≠ [] →
    isBlankLine (behind ++ rest) = false

theorem closedBy_nil_iff {length : Nat} {previous : Char} {rest : Text} :
    ClosedBy length previous [] rest ↔ previous ≠ '`' ∧ runLength rest = length := by
  constructor
  · exact fun closedBy => closedBy.run
  · intro run
    have none (before behind : Text) (whole : [] = before ++ behind) : behind = [] :=
      (List.append_eq_nil_iff.mp whole.symm).2
    exact
      { run
        first := fun before behind whole notEmpty => absurd (none before behind whole) notEmpty
        noBlankLine := fun before behind whole notEmpty =>
          absurd (none before behind whole) notEmpty }

theorem closedBy_cons_iff {length : Nat} {previous char : Char} {content rest : Text} :
    ClosedBy length previous (char :: content) rest ↔
      ¬ (previous ≠ '`' ∧ runLength (char :: (content ++ rest)) = length) ∧
        isBlankLine (char :: (content ++ rest)) = false ∧ ClosedBy length char content rest := by
  constructor
  · rintro ⟨run, first, noBlankLine⟩
    rw [List.getLastD_cons] at run
    refine ⟨first [] _ rfl (List.cons_ne_nil _ _), noBlankLine [] _ rfl (List.cons_ne_nil _ _),
      run, ?_, ?_⟩
    · rintro before behind rfl notEmpty
      have later := first (char :: before) behind rfl notEmpty
      rwa [List.getLastD_cons] at later
    · rintro before behind rfl notEmpty
      exact noBlankLine (char :: before) behind rfl notEmpty
  · rintro ⟨notHere, notBlank, run, first, noBlankLine⟩
    refine ⟨by rwa [List.getLastD_cons], ?_, ?_⟩
    · intro before behind whole notEmpty
      rcases List.cons_eq_append_iff.mp whole with ⟨rfl, rfl⟩ | ⟨others, rfl, rfl⟩
      · exact notHere
      · rw [List.getLastD_cons]
        exact first others behind rfl notEmpty
    · intro before behind whole notEmpty
      rcases List.cons_eq_append_iff.mp whole with ⟨rfl, rfl⟩ | ⟨others, rfl, rfl⟩
      · exact notBlank
      · exact noBlankLine others behind rfl notEmpty

theorem closedBy_of_contentLength? {length size : Nat} {previous : Char} {text : Text}
    (found : contentLength? length previous text = some size) :
    ∃ content rest, text = content ++ rest ∧ content.length = size ∧
      ClosedBy length previous content rest := by
  fun_induction contentLength? length previous text generalizing size with
  | case1 => cases found
  | case2 previous char rest closes =>
      cases found
      refine ⟨[], char :: rest, rfl, rfl, closedBy_nil_iff.mpr ?_⟩
      simpa using closes
  | case3 => cases found
  | case4 previous char rest opened notBlank ih =>
      obtain ⟨shorter, inside, rfl⟩ := Option.map_eq_some_iff.mp found
      obtain ⟨content, behind, rfl, rfl, closedBy⟩ := ih inside
      refine ⟨char :: content, behind, rfl, rfl, closedBy_cons_iff.mpr ⟨?_, ?_, closedBy⟩⟩
      · simpa using opened
      · simpa using notBlank

theorem ClosedBy.contentLength?_eq {length : Nat} (positive : 0 < length) {previous : Char}
    {content rest : Text} (closedBy : ClosedBy length previous content rest) :
    contentLength? length previous (content ++ rest) = some content.length := by
  induction content generalizing previous with
  | nil =>
      obtain ⟨notTick, run⟩ := closedBy_nil_iff.mp closedBy
      cases rest with
      | nil => exact absurd run (Nat.ne_of_lt positive)
      | cons char others => simp [contentLength?, notTick, run]
  | cons char content ih =>
      obtain ⟨goesOn, notBlank, later⟩ := closedBy_cons_iff.mp closedBy
      have opened :
          ¬ ((previous != '`' && runLength (char :: (content ++ rest)) = length) = true) := by
        simpa using goesOn
      rw [List.cons_append, contentLength?, if_neg opened, notBlank, ih later]
      rfl

theorem isBlankLine_iff {text : Text} :
    isBlankLine text = true ↔
      ∃ blanks behind, text = '\n' :: (blanks ++ '\n' :: behind) ∧
        ∀ char ∈ blanks, Text.isSpaceOrTab char = true := by
  constructor
  · intro blank
    unfold isBlankLine at blank
    split at blank
    · next rest =>
        have whole := List.takeWhile_append_dropWhile (p := Text.isSpaceOrTab) (l := rest)
        obtain ⟨behind, found⟩ := List.head?_eq_some_iff.mp (beq_iff_eq.mp blank)
        rw [found] at whole
        exact ⟨_, behind, by rw [whole], fun char member => List.mem_takeWhile_imp member⟩
    · cases blank
  · rintro ⟨blanks, behind, rfl, inside⟩
    have stop : Text.isSpaceOrTab '\n' = false := by decide
    simp [isBlankLine, List.dropWhile_append_of_pos inside, stop]

theorem head?_ticks_append {length : Nat} (positive : 0 < length) (rest : Text) :
    (ticks length ++ rest).head? = some '`' := by
  obtain ⟨shorter, rfl⟩ := Nat.exists_eq_succ_of_ne_zero (Nat.ne_of_gt positive)
  rfl

theorem getLast?_append_ticks {length : Nat} (positive : 0 < length) (before : Text) :
    (before ++ ticks length).getLast? = some '`' := by
  rw [List.getLast?_append, ticks, List.getLast?_replicate, if_neg (Nat.ne_of_gt positive)]
  rfl

theorem getLastD_ne_tick_iff {text : Text} :
    text.getLastD '`' ≠ '`' ↔ text ≠ [] ∧ text.getLast? ≠ some '`' := by
  cases text with
  | nil => simp
  | cons char rest => simp [List.getLast?_cons, List.getLastD_eq_getLast?]

theorem head?_append_of_ne_nil {text : Text} (notEmpty : text ≠ []) (rest : Text) :
    (text ++ rest).head? = text.head? := by
  cases text with
  | nil => exact absurd rfl notEmpty
  | cons char others => rfl

theorem IsContent.of_closedBy {length : Nat} (positive : 0 < length) {content rest : Text}
    (opened : (content ++ rest).head? ≠ some '`') (closedBy : ClosedBy length '`' content rest) :
    IsContent length content := by
  obtain ⟨⟨stops, run⟩, first, noBlankLine⟩ := closedBy
  obtain ⟨notEmpty, closed⟩ := getLastD_ne_tick_iff.mp stops
  rw [head?_append_of_ne_nil notEmpty] at opened
  refine ⟨notEmpty, opened, closed, ?_, ?_⟩
  · intro before behind whole
    by_contra neither
    obtain ⟨notBefore, notBehind⟩ := not_or.mp neither
    have beforeNotEmpty : before ≠ [] := by
      rintro rfl
      rw [whole, List.nil_append, head?_ticks_append positive] at opened
      exact opened rfl
    have behindNotEmpty : behind ≠ [] := by
      rintro rfl
      rw [whole, List.append_nil, getLast?_append_ticks positive] at closed
      exact closed rfl
    rw [List.append_assoc] at whole
    have runNotEmpty : ticks length ++ behind ≠ [] := by
      simp [behindNotEmpty]
    refine first before (ticks length ++ behind) whole runNotEmpty
      ⟨getLastD_ne_tick_iff.mpr ⟨beforeNotEmpty, notBefore⟩, ?_⟩
    rw [List.append_assoc]
    exact runLength_ticks_append (by rwa [head?_append_of_ne_nil behindNotEmpty])
  · intro before blanks behind whole
    have notBlank := noBlankLine before _ whole (List.cons_ne_nil _ _)
    by_contra inside
    have blank : isBlankLine ('\n' :: (blanks ++ '\n' :: behind) ++ rest) = true := by
      refine isBlankLine_iff.mpr ⟨blanks, behind ++ rest, by simp, fun char member => ?_⟩
      by_contra other
      exact inside ⟨char, member, by simpa using other⟩
    rw [blank] at notBlank
    cases notBlank

/-- A blank line that begins in front of a run of backticks ends in front of it. -/
theorem exists_blankLine_of_append_ticks {length : Nat} (positive : 0 < length)
    {text rest : Text} (blank : isBlankLine (text ++ (ticks length ++ rest)) = true) :
    ∃ blanks behind, text = '\n' :: (blanks ++ '\n' :: behind) ∧
      ∀ char ∈ blanks, Text.isSpaceOrTab char = true := by
  obtain ⟨blanks, more, same, inside⟩ := isBlankLine_iff.mp blank
  have line : text ++ (ticks length ++ rest) = '\n' :: (blanks ++ ['\n']) ++ more := by
    rw [same]
    simp
  have noTick : '`' ∉ '\n' :: (blanks ++ ['\n']) := by
    intro member
    have among : '`' ∈ blanks := by simpa using member
    have notBlank : Text.isSpaceOrTab '`' = false := by decide
    rw [inside _ among] at notBlank
    cases notBlank
  -- A line that goes on behind the text holds the first backtick of the run.
  rcases List.append_eq_append_iff.mp line with ⟨tail, split, goesOn⟩ | ⟨tail, rfl, -⟩
  · cases tail with
    | nil => exact ⟨blanks, [], by simpa using split.symm, inside⟩
    | cons char others =>
        have tick := head?_ticks_append positive rest
        rw [goesOn] at tick
        cases tick
        exact absurd (by simp [split]) noTick
  · exact ⟨blanks, tail, by simp, inside⟩

/-- The nearest closing run stays the nearest whatever stands behind it: no run and no blank line
begins in a content and goes on behind it. -/
theorem IsContent.closedBy {length : Nat} (positive : 0 < length) {content rest : Text}
    (isContent : IsContent length content) (ends : rest.head? ≠ some '`') :
    ClosedBy length '`' content (ticks length ++ rest) where
  run := ⟨getLastD_ne_tick_iff.mpr ⟨isContent.notEmpty, isContent.closed⟩,
    runLength_ticks_append ends⟩
  first := by
    rintro before behind whole notEmpty ⟨stops, run⟩
    obtain ⟨notStart, notBefore⟩ := getLastD_ne_tick_iff.mp stops
    obtain ⟨tail, same, stopsThere⟩ := exists_ticks_append (behind ++ (ticks length ++ rest))
    rw [run] at same
    -- A run that reaches the end of the content would make a backtick its last character.
    rcases List.append_eq_append_iff.mp same with ⟨more, split, -⟩ | ⟨more, rfl, rfl⟩
    · have member : behind.getLast notEmpty ∈ ticks length := by
        rw [split]
        exact List.mem_append_left _ (List.getLast_mem notEmpty)
      have last : content.getLast? = some '`' := by
        rw [whole, List.getLast?_append, List.getLast?_eq_some_getLast notEmpty,
          eq_tick_of_mem_ticks member]
        rfl
      exact isContent.closed last
    · rw [← List.append_assoc] at whole
      rcases isContent.nearest before more whole with atEnd | longer
      · exact notBefore atEnd
      · obtain ⟨others, rfl⟩ := List.head?_eq_some_iff.mp longer
        exact stopsThere rfl
  noBlankLine := by
    intro before behind whole notEmpty
    by_contra blank
    obtain ⟨blanks, more, rfl, inside⟩ :=
      exists_blankLine_of_append_ticks positive (by simpa using blank)
    obtain ⟨char, member, other⟩ := isContent.noBlankLine before blanks more whole
    rw [inside char member] at other
    cases other

theorem contentLength?_eq_some_iff {length size : Nat} (positive : 0 < length) {text : Text}
    (opened : text.head? ≠ some '`') :
    contentLength? length '`' text = some size ↔
      ∃ content rest, text = content ++ (ticks length ++ rest) ∧ content.length = size ∧
        IsContent length content ∧ rest.head? ≠ some '`' := by
  constructor
  · intro found
    obtain ⟨content, behind, rfl, sized, closedBy⟩ := closedBy_of_contentLength? found
    obtain ⟨rest, whole, ends⟩ := exists_ticks_append behind
    rw [closedBy.run.2] at whole
    exact ⟨content, rest, by rw [whole], sized, .of_closedBy positive opened closedBy, ends⟩
  · rintro ⟨content, rest, rfl, rfl, isContent, ends⟩
    exact (isContent.closedBy positive ends).contentLength?_eq positive

theorem recognise_ticks_append {previous : Option Char} {length : Nat} (positive : 0 < length)
    (before : previous ≠ some '`') {text : Text} (opened : text.head? ≠ some '`') :
    recognise previous (ticks length ++ text) =
      (contentLength? length '`' text).map fun size => ((), length + size + length) := by
  have opens : ¬ ((decide (length = 0) || decide (previous = some '`')) = true) := by
    simp [before, Nat.ne_of_gt positive]
  simp only [recognise]
  rw [runLength_ticks_append opened, if_neg opens, List.drop_left' (length_ticks length)]
  cases contentLength? length '`' text <;> rfl

/-- Nothing is recognised but at the beginning of a run. -/
theorem opens_of_recognise {previous : Option Char} {text : Text} {found : Unit × Nat}
    (recognised : recognise previous text = some found) :
    0 < runLength text ∧ previous ≠ some '`' := by
  simp only [recognise] at recognised
  split at recognised
  · cases recognised
  · next opens =>
      simp only [Bool.or_eq_true, decide_eq_true_eq, not_or] at opens
      exact ⟨Nat.pos_of_ne_zero opens.1, opens.2⟩

theorem recognise_eq_some_iff {previous : Option Char} {text : Text} {size : Nat} :
    recognise previous text = some ((), size) ↔
      ∃ source rest, text = source ++ rest ∧ source.length = size ∧
        IsSpan previous source rest := by
  constructor
  · intro recognised
    obtain ⟨positive, before⟩ := opens_of_recognise recognised
    obtain ⟨behind, whole, opened⟩ := exists_ticks_append text
    generalize runLength text = length at *
    subst whole
    rw [recognise_ticks_append positive before opened] at recognised
    obtain ⟨inside, found, same⟩ := Option.map_eq_some_iff.mp recognised
    obtain ⟨content, rest, rfl, rfl, isContent, ends⟩ :=
      (contentLength?_eq_some_iff positive opened).mp found
    cases same
    exact ⟨ticks length ++ content ++ ticks length, rest, by simp, by simp; omega,
      .intro positive isContent before ends⟩
  · rintro ⟨source, rest, rfl, rfl, isSpan⟩
    cases isSpan with
    | @intro length content _ positive isContent before ends =>
        have opened : (content ++ (ticks length ++ rest)).head? ≠ some '`' := by
          rw [head?_append_of_ne_nil isContent.notEmpty]
          exact isContent.opened
        have found := (contentLength?_eq_some_iff positive opened).mpr
          ⟨content, rest, rfl, rfl, isContent, ends⟩
        have whole : ticks length ++ content ++ ticks length ++ rest =
            ticks length ++ (content ++ (ticks length ++ rest)) := by simp
        have size : (ticks length ++ content ++ ticks length).length =
            length + content.length + length := by simp; omega
        rw [whole, recognise_ticks_append positive before opened, found, size]
        rfl

theorem IsSpan.ne_nil {previous : Option Char} {source rest : Text}
    (isSpan : IsSpan previous source rest) : source ≠ [] := by
  cases isSpan with
  | intro positive isContent => simp [isContent.notEmpty]

theorem recognises_span :
    Text.Recognises recognise fun previous source _ rest => IsSpan previous source rest where
  accepts_iff := recognise_eq_some_iff
  ne_nil := IsSpan.ne_nil

theorem Cuts.begins {previous : Option Char} {text : Text} {stretches : List Stretch}
    (cuts : Cuts previous text stretches)
    (noProse : ∀ source others, stretches ≠ .prose source :: others) (notEmpty : text ≠ []) :
    Begins previous text := by
  cases cuts with
  | done => exact absurd rfl notEmpty
  | prose => exact absurd rfl (noProse _ _)
  | code isSpan => exact ⟨_, _, rfl, isSpan⟩

/-- A character in front of prose is a part of it. -/
theorem Cuts.cons_prose {previous : Option Char} {char : Char} {source text : Text}
    {stretches : List Stretch} (notHere : ¬ Begins previous (char :: text))
    (cuts : Cuts (some char) text (.prose source :: stretches)) :
    Cuts previous (char :: text) (.prose (char :: source) :: stretches) := by
  cases cuts with
  | @prose _ _ rest _ notEmpty plain ends later =>
      have last : (char :: source).getLast? = source.getLast? := by
        cases source with
        | nil => exact absurd rfl notEmpty
        | cons first others => exact List.getLast?_cons_cons
      rw [← last] at ends later
      refine .prose (List.cons_ne_nil char source) ?_ ends later
      intro before behind whole behindNotEmpty
      rcases List.cons_eq_append_iff.mp whole with ⟨rfl, rfl⟩ | ⟨others, rfl, split⟩
      · exact notHere
      · rw [Text.getLast?_cons_or]
        exact plain others behind split behindNotEmpty

/-- A character in front of a code span, or of nothing, is prose of its own. -/
theorem Cuts.cons_char {previous : Option Char} {char : Char} {text : Text}
    {stretches : List Stretch} (notHere : ¬ Begins previous (char :: text))
    (cuts : Cuts (some char) text stretches)
    (noProse : ∀ source others, stretches ≠ .prose source :: others) :
    Cuts previous (char :: text) (.prose [char] :: stretches) := by
  refine .prose (List.cons_ne_nil char []) ?_ (cuts.begins noProse) cuts
  intro before behind whole behindNotEmpty
  rcases List.singleton_eq_append_iff.mp whole with ⟨rfl, rfl⟩ | ⟨-, rfl⟩
  · exact notHere
  · exact absurd rfl behindNotEmpty

theorem cuts_gather {previous : Option Char} {text : Text} {pieces : List (Text.Piece Unit)}
    (cuts : Text.Cuts (fun previous source _ rest => IsSpan previous source rest)
      previous text pieces) :
    Cuts previous text (gather pieces) := by
  induction cuts with
  | done => exact .done
  | hit isSpan _ ih => exact .code isSpan ih
  | @plain previous char rest pieces noHit _ ih =>
      have notHere : ¬ Begins previous (char :: rest) := by
        rintro ⟨source, behind, whole, isSpan⟩
        exact noHit source () behind whole isSpan
      unfold gather
      split
      · next source others found =>
          rw [found] at ih
          exact ih.cons_prose notHere
      · next noProse => exact ih.cons_char notHere noProse

/-- The stretches of a text are its code spans and the prose between them. -/
theorem cuts_stretches (text : Text) : Cuts none text (stretches text) :=
  cuts_gather (recognises_span.cuts_scanFrom text 0 none)

theorem Cuts.flatMap_source {previous : Option Char} {text : Text} {stretches : List Stretch}
    (cuts : Cuts previous text stretches) : stretches.flatMap Stretch.source = text := by
  induction cuts with
  | done => rfl
  | prose _ _ _ _ ih => rw [List.flatMap_cons, ih, Stretch.source]
  | code _ _ ih => rw [List.flatMap_cons, ih, Stretch.source]

theorem flatMap_source_stretches (text : Text) :
    (stretches text).flatMap Stretch.source = text :=
  (cuts_stretches text).flatMap_source

end DocComponents.CodeSpan
