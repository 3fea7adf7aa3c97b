import DocComponents.Proofs.Document.CodeSpan
import DocComponents.Proofs.Text.LineEndings

/-!
# Runs left open

A run of backticks that opens no code span is left open: no run of its length stands behind it, or
a blank line stands between the two. In a text whose lines end in a carriage return and a line feed
there are no blank lines, since a blank line is two line feeds with nothing but spaces and tabs
between them. There a run of the length behind it closes every run, so such a text has the code
spans of its twin exactly when no run is left open because of a blank line.
-/

set_option autoImplicit false

namespace DocComponents

open Text

namespace CodeSpan

/-- A run of backticks begins here, and a run of its length stands somewhere behind it. -/
inductive IsPaired (previous : Option Char) : Text → Prop where
  | intro {length : Nat} {content rest : Text} (positive : 0 < length) (notEmpty : content ≠ [])
      (opened : content.head? ≠ some '`') (closed : content.getLast? ≠ some '`')
      (before : previous ≠ some '`') (behind : rest.head? ≠ some '`') :
      IsPaired previous (ticks length ++ (content ++ (ticks length ++ rest)))

/-- A run of backticks outside the code spans has a run of its length behind it. -/
def LeavesOpen (previous : Option Char) (pieces : List (Piece Unit)) : Prop :=
  ∃ before char after, pieces = before ++ .plain char :: after ∧
    IsPaired ((before.flatMap Piece.source).getLast?.or previous)
      (char :: after.flatMap Piece.source)

/-- The length of the text before the nearest run of `length` backticks. -/
def nearestRun? (length : Nat) : (previous : Char) → Text → Option Nat
  | _, [] => none
  | previous, char :: rest =>
    if previous != '`' && runLength (char :: rest) = length then some 0
    else (nearestRun? length char rest).map (· + 1)

theorem runLength_crlf (text : Text) : runLength (crlf text) = runLength text := by
  rw [runLength, takeWhile_crlf (by decide) (by decide), runLength]

/-- The twin has no blank lines. -/
theorem isBlankLine_crlf (text : Text) : isBlankLine (crlf text) = false := by
  have first := head?_crlf_ne text
  unfold isBlankLine
  split
  · next rest same =>
      rw [same] at first
      exact absurd rfl first
  · rfl

theorem isBlankLine_lineFeed_crlf (text : Text) : isBlankLine ('\n' :: crlf text) = false := by
  rw [isBlankLine, dropWhile_crlf (by decide) (by decide)]
  simpa using head?_crlf_ne _

/-- In the twin only the nearest run counts. -/
theorem contentLength?_crlf {length : Nat} (positive : 0 < length) (previous : Char)
    (text : Text) :
    contentLength? length previous (crlf text) =
      (nearestRun? length previous text).map fun size => (crlf (text.take size)).length := by
  induction text generalizing previous with
  | nil => rfl
  | cons char rest ih =>
      by_cases lineFeed : char = '\n'
      · subst lineFeed
        -- The twin takes two steps here, and neither of them ends the content.
        have goesOn (other : Char) (noTick : other ≠ '`') (behind : Text) (last : Char) :
            ¬ ((last != '`' && runLength (other :: behind) = length) = true) := by
          simp [runLength, noTick, Nat.ne_of_lt positive]
        have noBlank := isBlankLine_crlf ('\n' :: rest)
        rw [crlf_cons_lineFeed] at noBlank ⊢
        rw [contentLength?, if_neg (goesOn '\r' (by decide) _ _), noBlank, if_neg (by simp),
          contentLength?, if_neg (goesOn '\n' (by decide) _ _), isBlankLine_lineFeed_crlf,
          if_neg (by simp), ih, nearestRun?, if_neg (goesOn '\n' (by decide) _ _)]
        cases nearestRun? length '\n' rest with
        | none => rfl
        | some size => simp [crlf_cons_lineFeed]
      · have run := runLength_crlf (char :: rest)
        have noBlank := isBlankLine_crlf (char :: rest)
        rw [crlf_cons_of_ne lineFeed] at run noBlank ⊢
        rw [contentLength?, nearestRun?, run, noBlank]
        split
        · rfl
        · rw [if_neg (by simp), ih]
          cases nearestRun? length char rest with
          | none => rfl
          | some size => simp [crlf_cons_of_ne lineFeed]

theorem exists_of_nearestRun? {length size : Nat} {previous : Char} {text : Text}
    (found : nearestRun? length previous text = some size) :
    ∃ content rest, text = content ++ rest ∧ content.length = size ∧
      content.getLastD previous ≠ '`' ∧ runLength rest = length := by
  fun_induction nearestRun? length previous text generalizing size with
  | case1 => cases found
  | case2 previous char rest closes =>
      cases found
      exact ⟨[], char :: rest, rfl, rfl, by simpa using closes⟩
  | case3 previous char rest goesOn ih =>
      obtain ⟨shorter, inside, rfl⟩ := Option.map_eq_some_iff.mp found
      obtain ⟨content, behind, rfl, rfl, stops, run⟩ := ih inside
      exact ⟨char :: content, behind, rfl, rfl, by rwa [List.getLastD_cons], run⟩

theorem exists_nearestRun? {length : Nat} (positive : 0 < length) {previous : Char}
    {content rest : Text} (stops : content.getLastD previous ≠ '`')
    (run : runLength rest = length) :
    ∃ size, nearestRun? length previous (content ++ rest) = some size := by
  induction content generalizing previous with
  | nil =>
      cases rest with
      | nil => exact absurd run (Nat.ne_of_lt positive)
      | cons char others => exact ⟨0, by simpa [nearestRun?, run] using stops⟩
  | cons char content ih =>
      rw [List.getLastD_cons] at stops
      obtain ⟨size, found⟩ := ih stops
      rw [List.cons_append, nearestRun?, found]
      split
      · exact ⟨0, rfl⟩
      · exact ⟨size + 1, rfl⟩

theorem nearestRun?_of_contentLength? {length size : Nat} {previous : Char} {text : Text}
    (found : contentLength? length previous text = some size) :
    nearestRun? length previous text = some size := by
  fun_induction contentLength? length previous text generalizing size with
  | case1 => cases found
  | case2 previous char rest closes => rwa [nearestRun?, if_pos closes]
  | case3 => cases found
  | case4 previous char rest opened notBlank ih =>
      obtain ⟨shorter, inside, rfl⟩ := Option.map_eq_some_iff.mp found
      rw [nearestRun?, if_neg opened, ih inside]
      rfl

theorem crlf_ticks (length : Nat) : crlf (ticks length) = ticks length :=
  crlf_of_not_mem fun member => by cases eq_tick_of_mem_ticks member

section recognise

variable {previous : Option Char}

theorem recognise_crlf_ticks {length : Nat} (positive : 0 < length) (before : previous ≠ some '`')
    {text : Text} (opened : text.head? ≠ some '`') :
    recognise previous (crlf (ticks length ++ text)) =
      (nearestRun? length '`' text).map fun size =>
        ((), length + (crlf (text.take size)).length + length) := by
  have openedToo : (crlf text).head? ≠ some '`' := by
    cases text with
    | nil => simp
    | cons char rest =>
        by_cases lineFeed : char = '\n'
        · subst lineFeed
          simp [crlf_cons_lineFeed]
        · rw [crlf_cons_of_ne lineFeed]
          exact opened
  rw [crlf_append, crlf_ticks, recognise_ticks_append positive before openedToo,
    contentLength?_crlf positive, Option.map_map]
  rfl

/-- The twin of a code span is a code span. -/
theorem IsSpan.recognise_crlf {source rest : Text} (isSpan : IsSpan previous source rest) :
    recognise previous (crlf source ++ crlf rest) = some ((), (crlf source).length) := by
  cases isSpan with
  | @intro length content _ positive isContent before behind =>
      have opened : (content ++ (ticks length ++ rest)).head? ≠ some '`' := by
        rw [head?_append_of_ne_nil isContent.notEmpty]
        exact isContent.opened
      have found := (contentLength?_eq_some_iff positive opened).mpr
        ⟨content, rest, rfl, rfl, isContent, behind⟩
      have whole : ticks length ++ content ++ ticks length ++ rest =
          ticks length ++ (content ++ (ticks length ++ rest)) := by simp
      rw [← crlf_append, whole, recognise_crlf_ticks positive before opened,
        nearestRun?_of_contentLength? found, Option.map_some, List.take_left]
      simp [crlf_append, crlf_ticks]
      omega

theorem IsPaired.exists_nearestRun? {text : Text} (paired : IsPaired previous text) :
    ∃ length rest size, 0 < length ∧ previous ≠ some '`' ∧ text = ticks length ++ rest ∧
      rest.head? ≠ some '`' ∧ nearestRun? length '`' rest = some size := by
  obtain ⟨positive, notEmpty, opened, closed, before, behind⟩ := paired
  rw [← head?_append_of_ne_nil notEmpty] at opened
  obtain ⟨size, found⟩ := CodeSpan.exists_nearestRun? positive
    (getLastD_ne_tick_iff.mpr ⟨notEmpty, closed⟩) (runLength_ticks_append behind)
  exact ⟨_, _, size, positive, before, rfl, opened, found⟩

theorem isPaired_of_nearestRun? {length size : Nat} (positive : 0 < length)
    (before : previous ≠ some '`') {text : Text} (opened : text.head? ≠ some '`')
    (found : nearestRun? length '`' text = some size) :
    IsPaired previous (ticks length ++ text) := by
  obtain ⟨content, closing, rfl, -, stops, run⟩ := exists_of_nearestRun? found
  obtain ⟨notEmpty, closed⟩ := getLastD_ne_tick_iff.mp stops
  obtain ⟨rest, same, behind⟩ := exists_ticks_append closing
  rw [run] at same
  subst same
  rw [head?_append_of_ne_nil notEmpty] at opened
  exact .intro positive notEmpty opened closed before behind

/-- A run is a code span of the twin exactly when a run of its length stands behind it. -/
theorem isPaired_iff {text : Text} :
    IsPaired previous text ↔ ∃ size, recognise previous (crlf text) = some ((), size + 1) := by
  constructor
  · intro paired
    obtain ⟨length, rest, size, positive, before, rfl, opened, found⟩ := paired.exists_nearestRun?
    rw [recognise_crlf_ticks positive before opened, found, Option.map_some]
    exact ⟨_, congrArg some (Prod.ext rfl (Nat.succ_pred_eq_of_pos (by dsimp only; omega)).symm)⟩
  · rintro ⟨size, recognised⟩
    obtain ⟨positive, before⟩ := opens_of_recognise recognised
    rw [runLength_crlf] at positive
    obtain ⟨inside, whole, opened⟩ := exists_ticks_append text
    generalize runLength text = length at *
    subst whole
    rw [recognise_crlf_ticks positive before opened] at recognised
    obtain ⟨_, found, -⟩ := Option.map_eq_some_iff.mp recognised
    exact isPaired_of_nearestRun? positive before opened found

end recognise

section LeavesOpen

variable {previous : Option Char} {pieces : List (Piece Unit)}

theorem leavesOpen_plain_iff {char : Char} :
    LeavesOpen previous (.plain char :: pieces) ↔
      IsPaired previous (char :: pieces.flatMap Piece.source) ∨ LeavesOpen (some char) pieces := by
  constructor
  · rintro ⟨before, other, after, same, paired⟩
    rcases List.cons_eq_append_iff.mp same with ⟨rfl, split⟩ | ⟨others, rfl, rfl⟩
    · cases split
      exact .inl paired
    · rw [List.flatMap_cons, Piece.source, List.singleton_append, getLast?_cons_or] at paired
      exact .inr ⟨others, other, after, rfl, paired⟩
  · rintro (paired | ⟨before, other, after, rfl, paired⟩)
    · exact ⟨[], char, pieces, rfl, paired⟩
    · refine ⟨.plain char :: before, other, after, rfl, ?_⟩
      rwa [List.flatMap_cons, Piece.source, List.singleton_append, getLast?_cons_or]

theorem leavesOpen_hit_iff {source : Text} (notEmpty : source ≠ []) :
    LeavesOpen previous (.hit source () :: pieces) ↔ LeavesOpen source.getLast? pieces := by
  have last (rest : Text) : (source ++ rest).getLast?.or previous =
      rest.getLast?.or source.getLast? := by
    obtain ⟨start, final, rfl⟩ := List.eq_nil_or_concat source |>.resolve_left notEmpty
    rw [List.getLast?_append]
    cases rest.getLast? <;> simp
  constructor
  · rintro ⟨before, char, after, same, paired⟩
    rcases List.cons_eq_append_iff.mp same with ⟨rfl, split⟩ | ⟨others, rfl, rfl⟩
    · cases split
    · rw [List.flatMap_cons, Piece.source, last] at paired
      exact ⟨others, char, after, rfl, paired⟩
  · rintro ⟨before, char, after, rfl, paired⟩
    refine ⟨.hit source () :: before, char, after, rfl, ?_⟩
    rwa [List.flatMap_cons, Piece.source, last]

end LeavesOpen

/-- The twin has other pieces where a run that is left open is closed in it. -/
theorem scanFrom_crlf_iff {previous : Option Char} {text : Text} {pieces : List (Piece Unit)}
    (cuts : Text.Cuts (fun previous source _ rest => IsSpan previous source rest)
      previous text pieces) :
    scanFrom recognise 0 previous (crlf text) = pieces.flatMap (Piece.crlf id) ↔
      ¬ LeavesOpen previous pieces := by
  induction cuts with
  | done => simp [scanFrom, LeavesOpen]
  | @plain previous char rest pieces noHit later ih =>
      rw [leavesOpen_plain_iff, later.flatMap_source]
      by_cases paired : IsPaired previous (char :: rest)
      · -- The twin has a code span here, where the text has a plain character.
        obtain ⟨size, recognised⟩ := isPaired_iff.mp paired
        refine iff_of_false (fun same => ?_) (not_not_intro (.inl paired))
        obtain ⟨first, others, shape⟩ := exists_crlf_eq_cons char rest
        obtain ⟨only, more, begun⟩ := exists_crlf_eq_cons char []
        rw [shape] at recognised
        rw [shape, scanFrom, recognised, List.flatMap_cons, Piece.crlf, begun] at same
        cases same
      · have rejected (value : Unit) (size : Nat) :
            recognise previous (crlf (char :: rest)) ≠ some (value, size + 1) :=
          fun recognised => paired (isPaired_iff.mpr ⟨size, recognised⟩)
        have passes (previous : Option Char) (rest : Text) (value : Unit) (size : Nat) :
            recognise previous ('\n' :: rest) ≠ some (value, size + 1) := by
          simp [recognise, runLength]
        rw [scanFrom_crlf_cons passes rejected, List.flatMap_cons, Piece.crlf,
          List.append_cancel_left_eq, ih, or_iff_right paired]
  | @hit previous source rest value pieces isSpan later ih =>
      have notEmpty := isSpan.ne_nil
      rw [leavesOpen_hit_iff notEmpty, scanFrom_crlf_append notEmpty isSpan.recognise_crlf,
        List.flatMap_cons, Piece.crlf, List.singleton_append, List.cons_inj_right, ih]

namespace Stretch

def crlf : Stretch → Stretch
  | .prose source => .prose (Text.crlf source)
  | .code source => .code (Text.crlf source)

def pieces : Stretch → List (Piece Unit)
  | .prose source => source.map .plain
  | .code source => [.hit source ()]

end Stretch

theorem flatMap_pieces_gather (pieces : List (Piece Unit)) :
    (gather pieces).flatMap Stretch.pieces = pieces := by
  fun_induction gather pieces with
  | case1 => rfl
  | case2 source value rest ih => rw [List.flatMap_cons, ih, Stretch.pieces, List.singleton_append]
  | case3 char rest source others found ih =>
      rw [found] at ih
      exact congrArg (List.cons (.plain char)) ih
  | case4 char rest noProse ih =>
      rw [List.flatMap_cons, ih]
      rfl

/-- Prose in front of stretches, put together with the first of them if that is prose, too. -/
def putProse (chars : Text) : List Stretch → List Stretch
  | .prose source :: others => .prose (chars ++ source) :: others
  | others => .prose chars :: others

private theorem gather_plain (char : Char) (pieces : List (Piece Unit)) :
    gather (.plain char :: pieces) = putProse [char] (gather pieces) := by
  rw [gather]
  cases gather pieces with
  | nil => rfl
  | cons first others => cases first <;> rfl

private theorem putProse_putProse (char : Char) (chars : Text) (stretches : List Stretch) :
    putProse [char] (putProse chars stretches) = putProse (char :: chars) stretches := by
  cases stretches with
  | nil => rfl
  | cons first others => cases first <;> rfl

theorem gather_map_plain_append {chars : Text} (notEmpty : chars ≠ [])
    (pieces : List (Piece Unit)) :
    gather (chars.map .plain ++ pieces) = putProse chars (gather pieces) := by
  induction chars with
  | nil => exact absurd rfl notEmpty
  | cons char rest ih =>
      rw [List.map_cons, List.cons_append, gather_plain]
      cases rest with
      | nil => rfl
      | cons next others => rw [ih (List.cons_ne_nil next others), putProse_putProse]

private theorem putProse_crlf (chars : Text) (stretches : List Stretch) :
    putProse (crlf chars) (stretches.map Stretch.crlf) =
      (putProse chars stretches).map Stretch.crlf := by
  cases stretches with
  | nil => rfl
  | cons first others =>
      cases first with
      | prose source => simp [putProse, Stretch.crlf, crlf_append]
      | code source => rfl

theorem gather_crlf (pieces : List (Piece Unit)) :
    gather (pieces.flatMap (Piece.crlf id)) = (gather pieces).map Stretch.crlf := by
  induction pieces with
  | nil => rfl
  | cons piece rest ih =>
      cases piece with
      | plain char =>
          have twin : crlf [char] ≠ [] := crlf_eq_nil_iff.not.mpr (List.cons_ne_nil char [])
          rw [List.flatMap_cons, Piece.crlf, gather_map_plain_append twin, ih, putProse_crlf,
            gather_plain]
      | hit source value =>
          rw [List.flatMap_cons, Piece.crlf, List.singleton_append, gather, ih]
          rfl

/-- The stretches of the twin are the twins of the stretches exactly when no run of backticks that
is left open has a run of its length behind it. -/
theorem stretches_crlf_iff (text : Text) :
    stretches (crlf text) = (stretches text).map Stretch.crlf ↔
      ¬ LeavesOpen none (pieces text) := by
  have cuts : Text.Cuts (fun previous source _ rest => IsSpan previous source rest) none text
      (pieces text) := recognises_span.cuts_scanFrom text 0 none
  rw [← scanFrom_crlf_iff cuts]
  constructor
  · intro same
    rw [stretches, stretches, ← gather_crlf] at same
    have pieces := congrArg (List.flatMap Stretch.pieces) same
    rwa [flatMap_pieces_gather, flatMap_pieces_gather] at pieces
  · intro same
    rw [stretches, pieces, same, gather_crlf]
    rfl

def HasBlankLine (text : Text) : Prop :=
  ∃ before rest, text = before ++ rest ∧ isBlankLine rest = true

theorem HasBlankLine.append {text : Text} (hasBlankLine : HasBlankLine text) (before : Text) :
    HasBlankLine (before ++ text) := by
  obtain ⟨more, rest, rfl, blank⟩ := hasBlankLine
  exact ⟨before ++ more, rest, (List.append_assoc before more rest).symm, blank⟩

theorem contentLength?_eq_nearestRun? (length : Nat) (previous : Char) {text : Text}
    (noBlankLine : ¬ HasBlankLine text) :
    contentLength? length previous text = nearestRun? length previous text := by
  induction text generalizing previous with
  | nil => rfl
  | cons char rest ih =>
      have notHere : ¬ isBlankLine (char :: rest) = true := fun blank =>
        noBlankLine ⟨[], char :: rest, rfl, blank⟩
      have later := ih char fun hasBlankLine => noBlankLine (hasBlankLine.append [char])
      rw [contentLength?, nearestRun?, if_neg notHere, later]

theorem IsPaired.begins {previous : Option Char} {text : Text} (paired : IsPaired previous text)
    (noBlankLine : ¬ HasBlankLine text) : Begins previous text := by
  obtain ⟨length, rest, size, positive, before, rfl, opened, found⟩ := paired.exists_nearestRun?
  have noBlankLineBehind : ¬ HasBlankLine rest := fun hasBlankLine =>
    noBlankLine (hasBlankLine.append (ticks length))
  rw [← contentLength?_eq_nearestRun? _ _ noBlankLineBehind] at found
  have recognised := recognise_ticks_append positive before opened
  rw [found] at recognised
  obtain ⟨source, behind, whole, -, isSpan⟩ := recognise_eq_some_iff.mp recognised
  exact ⟨source, behind, whole, isSpan⟩

/-- A run is left open in front of a run of its length only because of a blank line. -/
theorem hasBlankLine_of_leavesOpen {previous : Option Char} {text : Text}
    {pieces : List (Piece Unit)}
    (cuts : Text.Cuts (fun previous source _ rest => IsSpan previous source rest)
      previous text pieces)
    (leavesOpen : LeavesOpen previous pieces) : HasBlankLine text := by
  induction cuts with
  | done => simp [LeavesOpen] at leavesOpen
  | @plain previous char rest pieces noHit later ih =>
      rw [leavesOpen_plain_iff, later.flatMap_source] at leavesOpen
      rcases leavesOpen with paired | behind
      -- Without a blank line the run would open a span, and its first character would not be plain.
      · by_contra noBlankLine
        obtain ⟨source, behind, whole, isSpan⟩ := paired.begins noBlankLine
        exact noHit source () behind whole isSpan
      · exact (ih behind).append [char]
  | hit isSpan _ ih =>
      rw [leavesOpen_hit_iff isSpan.ne_nil] at leavesOpen
      exact (ih leavesOpen).append _

end CodeSpan

end DocComponents
