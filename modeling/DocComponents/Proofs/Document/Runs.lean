import DocComponents.Proofs.Document.CodeSpan

/-!
# Code spans by runs

The code spans of a text can be told from its runs of backticks alone. Each run is as long as it can
be; from left to right a run is closed by the nearest later run of its length, unless a blank line
stands between the two, and the walk goes on behind the closing run.
-/

set_option autoImplicit false

namespace DocComponents.CodeSpan

/-- Where a run of backticks begins, and how long it is. -/
structure Run where
  start : Nat
  length : Nat
  deriving DecidableEq, Repr

def Run.stop (run : Run) : Nat :=
  run.start + run.length

/-- A run of a text that no backtick lengthens. -/
def Run.IsMaximal (text : Text) (run : Run) : Prop :=
  ∃ before behind, text = before ++ (ticks run.length ++ behind) ∧ run.start = before.length ∧
    0 < run.length ∧ before.getLast? ≠ some '`' ∧ behind.head? ≠ some '`'

/-- The runs of a text that begins at a position, for the character before it. -/
def runsFrom : (position : Nat) → (previous : Option Char) → Text → List Run
  | _, _, [] => []
  | position, previous, char :: rest =>
    if char = '`' ∧ previous ≠ some '`' then
      ⟨position, runLength (char :: rest)⟩ :: runsFrom (position + 1) (some char) rest
    else runsFrom (position + 1) (some char) rest

def runs (text : Text) : List Run :=
  runsFrom 0 none text

/-- Whether a blank line stands anywhere in a text. -/
def holdsBlankLine : Text → Bool
  | [] => false
  | char :: rest => isBlankLine (char :: rest) || holdsBlankLine rest

/-- The text between two runs. -/
def between (text : Text) (opening closing : Run) : Text :=
  (text.drop opening.stop).take (closing.start - opening.stop)

/-- The run that closes another one, among the runs behind it. -/
def closing? (text : Text) (opening : Run) (later : List Run) : Option Run :=
  later.find? fun closing =>
    closing.length = opening.length && !holdsBlankLine (between text opening closing)

/-- Where the code spans of a text begin and end that runs open from a position on. -/
def spansOfRuns (text : Text) : (resume : Nat) → List Run → List (Nat × Nat)
  | _, [] => []
  | resume, opening :: later =>
    if opening.start < resume then spansOfRuns text resume later
    else
      match closing? text opening later with
      | some closing => (opening.start, closing.stop) :: spansOfRuns text closing.stop later
      | none => spansOfRuns text resume later

/-- Where the hits among pieces begin and end, the first of which begins at a position. -/
def spansFrom : (position : Nat) → List (Text.Piece Unit) → List (Nat × Nat)
  | _, [] => []
  | position, .plain _ :: rest => spansFrom (position + 1) rest
  | position, .hit source _ :: rest =>
    (position, position + source.length) :: spansFrom (position + source.length) rest

def spans (text : Text) : List (Nat × Nat) :=
  spansFrom 0 (pieces text)

/-! ### Runs -/

theorem mem_runsFrom_cons {position : Nat} {previous : Option Char} {char : Char} {rest : Text}
    {run : Run} :
    run ∈ runsFrom position previous (char :: rest) ↔
      (char = '`' ∧ previous ≠ some '`' ∧ run = ⟨position, runLength (char :: rest)⟩) ∨
        run ∈ runsFrom (position + 1) (some char) rest := by
  rw [runsFrom]
  split
  · next begins => simp [begins]
  · next goesOn =>
      constructor
      · exact .inr
      · intro either
        exact either.resolve_left fun here => goesOn ⟨here.1, here.2.1⟩

/-- A run has neither a backtick before it nor one behind it. -/
theorem mem_runsFrom_iff {position : Nat} {previous : Option Char} {text : Text} {run : Run} :
    run ∈ runsFrom position previous text ↔
      ∃ before behind, text = before ++ (ticks run.length ++ behind) ∧
        run.start = position + before.length ∧ 0 < run.length ∧
        before.getLast?.or previous ≠ some '`' ∧ behind.head? ≠ some '`' := by
  induction text generalizing position previous with
  | nil =>
      constructor
      · intro member
        cases member
      · intro given
        obtain ⟨before, behind, whole, -, positive, -⟩ := given
        have lengths := congrArg List.length whole
        simp only [List.length_nil, List.length_append, length_ticks] at lengths
        omega
  | cons char rest ih =>
      rw [mem_runsFrom_cons]
      constructor
      · intro member
        rcases member with ⟨rfl, notBefore, rfl⟩ | later
        · obtain ⟨behind, whole, ends⟩ := exists_ticks_append ('`' :: rest)
          exact ⟨[], behind, whole, rfl, by simp [runLength], notBefore, ends⟩
        · obtain ⟨before, behind, rfl, start, positive, notBefore, ends⟩ := ih.mp later
          refine ⟨char :: before, behind, rfl, ?_, positive, ?_, ends⟩
          · rw [start, List.length_cons]
            omega
          · rwa [Text.getLast?_cons_or]
      · intro given
        obtain ⟨before, behind, whole, start, positive, notBefore, ends⟩ := given
        cases before with
        | nil =>
            have tick : char = '`' := by
              have first := congrArg List.head? whole
              rw [List.nil_append, head?_ticks_append positive] at first
              exact Option.some.inj first
            have sized : runLength (char :: rest) = run.length := by
              rw [whole, List.nil_append, runLength_ticks_append ends]
            refine .inl ⟨tick, notBefore, ?_⟩
            cases run
            cases start
            rw [sized]
        | cons first others =>
            rw [List.cons_append, List.cons.injEq] at whole
            obtain ⟨rfl, rfl⟩ := whole
            rw [Text.getLast?_cons_or] at notBefore
            refine .inr (ih.mpr ⟨others, behind, rfl, ?_, positive, notBefore, ends⟩)
            rw [start, List.length_cons]
            omega

theorem mem_runs_iff {text : Text} {run : Run} : run ∈ runs text ↔ run.IsMaximal text := by
  rw [runs, mem_runsFrom_iff, Run.IsMaximal]
  simp

theorem le_start_of_mem_runsFrom {position : Nat} {previous : Option Char} {text : Text} {run : Run}
    (member : run ∈ runsFrom position previous text) : position ≤ run.start := by
  obtain ⟨before, -, -, start, -⟩ := mem_runsFrom_iff.mp member
  omega

theorem pairwise_runsFrom (position : Nat) (previous : Option Char) (text : Text) :
    (runsFrom position previous text).Pairwise fun first second => first.start < second.start := by
  induction text generalizing position previous with
  | nil => exact .nil
  | cons char rest ih =>
      rw [runsFrom]
      split
      · exact .cons (fun run later => le_start_of_mem_runsFrom later) (ih _ _)
      · exact ih _ _

/-- The runs stand in their order. -/
theorem pairwise_runs (text : Text) :
    (runs text).Pairwise fun first second => first.start < second.start :=
  pairwise_runsFrom 0 none text

/-! ### Blank lines -/

theorem holdsBlankLine_append_of_isBlankLine {before behind : Text}
    (blank : isBlankLine behind = true) : holdsBlankLine (before ++ behind) = true := by
  induction before with
  | nil =>
      cases behind with
      | nil => cases blank
      | cons char rest => exact Bool.or_eq_true_iff.mpr (.inl blank)
  | cons char rest ih => exact Bool.or_eq_true_iff.mpr (.inr ih)

/-- A blank line anywhere is a line feed, spaces and tabs, and another line feed. -/
theorem holdsBlankLine_iff {text : Text} :
    holdsBlankLine text = true ↔
      ∃ before blanks behind, text = before ++ '\n' :: (blanks ++ '\n' :: behind) ∧
        ∀ char ∈ blanks, Text.isSpaceOrTab char = true := by
  constructor
  · intro holds
    induction text with
    | nil => cases holds
    | cons char rest ih =>
        rcases Bool.or_eq_true_iff.mp holds with here | later
        · obtain ⟨blanks, behind, whole, inside⟩ := isBlankLine_iff.mp here
          exact ⟨[], blanks, behind, whole, inside⟩
        · obtain ⟨before, blanks, behind, rfl, inside⟩ := ih later
          exact ⟨char :: before, blanks, behind, rfl, inside⟩
  · intro given
    obtain ⟨before, blanks, behind, rfl, inside⟩ := given
    exact holdsBlankLine_append_of_isBlankLine (isBlankLine_iff.mpr ⟨blanks, behind, rfl, inside⟩)

/-- No blank line has begun before what is left of a text. -/
def NoneBegun (walked left : Text) : Prop :=
  ∀ before behind, walked = before ++ behind → behind ≠ [] → isBlankLine (behind ++ left) = false

theorem NoneBegun.concat {walked rest : Text} {char : Char}
    (noneBegun : NoneBegun walked (char :: rest))
    (notHere : isBlankLine (char :: rest) = false) : NoneBegun (walked ++ [char]) rest := by
  intro before behind whole notEmpty
  rcases List.append_eq_append_iff.mp whole with ⟨more, rfl, split⟩ | ⟨more, rfl, rfl⟩
  · rcases List.singleton_eq_append_iff.mp split with ⟨rfl, rfl⟩ | ⟨rfl, rfl⟩
    · exact notHere
    · exact absurd rfl notEmpty
  · by_cases nothing : more = []
    · subst nothing
      exact notHere
    · have none := noneBegun before more rfl nothing
      rwa [List.append_assoc]

theorem NoneBegun.holdsBlankLine {walked left : Text} (noneBegun : NoneBegun walked left) :
    holdsBlankLine walked = false := by
  by_contra holds
  obtain ⟨before, blanks, behind, rfl, inside⟩ := holdsBlankLine_iff.mp (by simpa using holds)
  have none := noneBegun before _ rfl (List.cons_ne_nil _ _)
  have blank : isBlankLine ('\n' :: (blanks ++ '\n' :: behind) ++ left) = true :=
    isBlankLine_iff.mpr ⟨blanks, behind ++ left, by simp, inside⟩
  rw [none] at blank
  cases blank

/-! ### The closing run -/

theorem runLength_cons_pos_iff {char : Char} {rest : Text} :
    0 < runLength (char :: rest) ↔ char = '`' := by
  rw [runLength, List.takeWhile_cons]
  split
  · next tick => simpa using tick
  · next noTick => simpa using noTick

section search

variable {length : Nat} {walked text : Text}

/-- A run closes another one of a length, if no blank line stands before it in a text. -/
def closes (length origin : Nat) (text : Text) (run : Run) : Bool :=
  run.length = length && !holdsBlankLine (text.take (run.start - origin))

theorem closes_here (origin : Nat) (noneBegun : NoneBegun walked text) :
    closes length origin (walked ++ text) ⟨origin + walked.length, length⟩ = true := by
  simp [closes, noneBegun.holdsBlankLine]

/-- Behind a blank line no run closes one that stands before it. -/
theorem closes_behind_blankLine {origin : Nat} {previous : Char} {run : Run}
    (blank : isBlankLine text = true)
    (member : run ∈ runsFrom (origin + walked.length) (some previous) text) :
    closes length origin (walked ++ text) run = false := by
  obtain ⟨before, behind, rfl, start, positive, -, -⟩ := mem_runsFrom_iff.mp member
  obtain ⟨blanks, more, rfl, inside⟩ := exists_blankLine_of_append_ticks positive blank
  have upToRun : (walked ++ ('\n' :: (blanks ++ '\n' :: more) ++ (ticks run.length ++ behind))).take
      (run.start - origin) = walked ++ '\n' :: (blanks ++ '\n' :: more) := by
    rw [← List.append_assoc]
    refine List.take_left' ?_
    rw [start, List.length_append]
    omega
  have holds : holdsBlankLine (walked ++ '\n' :: (blanks ++ '\n' :: more)) = true :=
    holdsBlankLine_iff.mpr ⟨walked, blanks, more, rfl, inside⟩
  rw [closes, upToRun, holds]
  simp

/-- A run of another length closes nothing. -/
theorem find?_runsFrom_cons {position origin : Nat} {previous char : Char} {rest whole : Text}
    (goesOn : ¬ (previous ≠ '`' ∧ runLength (char :: rest) = length)) :
    (runsFrom position (some previous) (char :: rest)).find? (closes length origin whole) =
      (runsFrom (position + 1) (some char) rest).find? (closes length origin whole) := by
  rw [runsFrom]
  split
  · next begins =>
      have notBefore : previous ≠ '`' := by simpa using begins.2
      have other : runLength (char :: rest) ≠ length := fun sized => goesOn ⟨notBefore, sized⟩
      refine List.find?_cons_of_neg ?_
      simp [closes, other]
  · rfl

/-- A search for the closing run walks over a text, and meets the same run as a search among the
runs, for the text that was walked over so far. -/
theorem find?_runsFrom (positive : 0 < length) (origin : Nat) (previous : Char)
    (noneBegun : NoneBegun walked text) :
    (runsFrom (origin + walked.length) (some previous) text).find?
        (closes length origin (walked ++ text)) =
      (contentLength? length previous text).map fun size =>
        ⟨origin + walked.length + size, length⟩ := by
  induction text generalizing previous walked with
  | nil => rfl
  | cons char rest ih =>
      rw [contentLength?]
      split
      · next ends =>
          obtain ⟨notBefore, rfl⟩ : previous ≠ '`' ∧ runLength (char :: rest) = length := by
            simpa using ends
          have tick : char = '`' := runLength_cons_pos_iff.mp positive
          rw [runsFrom, if_pos ⟨tick, by simpa using notBefore⟩,
            List.find?_cons_of_pos (closes_here origin noneBegun)]
          rfl
      · next goesOn =>
          split
          · next blank =>
              refine List.find?_eq_none.mpr ?_
              intro run member
              simp [closes_behind_blankLine blank member]
          · next notBlank =>
              have later := ih char (noneBegun.concat (by simpa using notBlank))
              rw [List.length_append, List.length_singleton, ← Nat.add_assoc, List.append_assoc,
                List.singleton_append] at later
              rw [find?_runsFrom_cons (by simpa using goesOn), later, Option.map_map]
              congr 1
              funext size
              simp only [Function.comp_apply, Run.mk.injEq, and_true]
              omega

end search

/-- The backticks of a run begin no other run. -/
theorem runsFrom_ticks_append (position length : Nat) (text : Text) :
    runsFrom position (some '`') (ticks length ++ text) =
      runsFrom (position + length) (some '`') text := by
  induction length generalizing position with
  | zero => rfl
  | succ length ih =>
      have shape : ticks (length + 1) ++ text = '`' :: (ticks length ++ text) := rfl
      rw [shape, runsFrom, if_neg (by simp), ih, Nat.add_assoc, Nat.add_comm 1]

theorem runsFrom_run {length : Nat} (positive : 0 < length) {position : Nat}
    {previous : Option Char} (notBefore : previous ≠ some '`') {behind : Text}
    (opened : behind.head? ≠ some '`') :
    runsFrom position previous (ticks length ++ behind) =
      ⟨position, length⟩ :: runsFrom (position + length) (some '`') behind := by
  obtain ⟨shorter, rfl⟩ := Nat.exists_eq_add_one.mpr positive
  have run : runLength (ticks (shorter + 1) ++ behind) = shorter + 1 :=
    runLength_ticks_append opened
  have others := runsFrom_ticks_append (position + 1) shorter behind
  have shape : ticks (shorter + 1) ++ behind = '`' :: (ticks shorter ++ behind) := rfl
  rw [Nat.add_assoc, Nat.add_comm 1] at others
  rw [shape] at run ⊢
  rw [runsFrom, if_pos ⟨rfl, notBefore⟩, run, others]

theorem closing?_runsFrom {length : Nat} (positive : 0 < length) (before behind : Text) :
    closing? (before ++ (ticks length ++ behind)) ⟨before.length, length⟩
        (runsFrom (before.length + length) (some '`') behind) =
      (contentLength? length '`' behind).map fun size =>
        ⟨before.length + length + size, length⟩ := by
  have noneBegun : NoneBegun [] behind := by
    intro first second whole notEmpty
    exact absurd (List.append_eq_nil_iff.mp whole.symm).2 notEmpty
  have dropped : (before ++ (ticks length ++ behind)).drop (before.length + length) = behind := by
    rw [← List.append_assoc]
    exact List.drop_left' (by simp)
  have search : (fun closing : Run => closing.length = length &&
        !holdsBlankLine (between (before ++ (ticks length ++ behind)) ⟨before.length, length⟩
          closing)) =
      closes length (before.length + length) ([] ++ behind) := by
    funext closing
    rw [between, Run.stop, dropped, closes, List.nil_append]
  exact (congrArg (fun test => List.find? test _) search).trans
    (find?_runsFrom positive (before.length + length) '`' noneBegun)

/-- Runs before the position where the walk goes on are passed over. -/
theorem spansOfRuns_runsFrom_append (whole : Text) (position : Nat) (previous : Option Char)
    (left right : Text) :
    spansOfRuns whole (position + left.length) (runsFrom position previous (left ++ right)) =
      spansOfRuns whole (position + left.length)
        (runsFrom (position + left.length) (left.getLast?.or previous) right) := by
  induction left generalizing position previous with
  | nil => rfl
  | cons char rest ih =>
      have later := ih (position + 1) (some char)
      rw [Nat.add_assoc, Nat.add_comm 1] at later
      rw [List.cons_append, Text.getLast?_cons_or, List.length_cons, runsFrom]
      split
      · rw [spansOfRuns, if_pos (by simp), later]
      · exact later

/-! ### Spans -/

section walk

variable {before : Text} {resume : Nat}

theorem spansFrom_scanFrom_cons {char : Char} {rest : Text}
    (rejected : recognise before.getLast? (char :: rest) = none) :
    spansFrom before.length (Text.scanFrom recognise 0 before.getLast? (char :: rest)) =
      spansFrom (before.length + 1) (Text.scanFrom recognise 0 (some char) rest) := by
  have nothing (value : Unit) (size : Nat) :
      recognise before.getLast? (char :: rest) ≠ some (value, size + 1) := by
    simp [rejected]
  rw [Text.scanFrom_cons_of_rejected nothing, spansFrom]

/-- A character where no code span begins is passed over, and so is a run that begins there. -/
theorem spansOfRuns_runsFrom_cons {char : Char} {rest : Text} (atMost : resume ≤ before.length)
    (rejected : recognise before.getLast? (char :: rest) = none) :
    spansOfRuns (before ++ char :: rest) resume
        (runsFrom before.length before.getLast? (char :: rest)) =
      spansOfRuns (before ++ char :: rest) resume
        (runsFrom (before.length + 1) (some char) rest) := by
  by_cases begins : char = '`' ∧ before.getLast? ≠ some '`'
  · obtain ⟨rfl, notBefore⟩ := begins
    obtain ⟨behind, shape, opened⟩ := exists_ticks_append ('`' :: rest)
    have positive : 0 < runLength ('`' :: rest) := runLength_cons_pos_iff.mpr rfl
    have first : runsFrom before.length before.getLast? ('`' :: rest) =
        ⟨before.length, runLength ('`' :: rest)⟩ :: runsFrom (before.length + 1) (some '`') rest :=
      if_pos ⟨rfl, notBefore⟩
    generalize runLength ('`' :: rest) = length at *
    have run : runsFrom before.length before.getLast? ('`' :: rest) =
        ⟨before.length, length⟩ :: runsFrom (before.length + length) (some '`') behind := by
      rw [shape]
      exact runsFrom_run positive notBefore opened
    have unclosed : contentLength? length '`' behind = none := by
      rw [shape, recognise_ticks_append positive notBefore opened] at rejected
      exact Option.map_eq_none_iff.mp rejected
    have nothing : closing? (before ++ '`' :: rest) ⟨before.length, length⟩
        (runsFrom (before.length + length) (some '`') behind) = none := by
      rw [shape, closing?_runsFrom positive, unclosed]
      rfl
    have later := (List.cons.inj (first.symm.trans run)).2
    rw [first, spansOfRuns, if_neg (Nat.not_lt.mpr atMost), later, nothing]
  · rw [runsFrom, if_neg begins]

theorem spansFrom_scanFrom_span {source after : Text}
    (isSpan : IsSpan before.getLast? source after) :
    spansFrom before.length (Text.scanFrom recognise 0 before.getLast? (source ++ after)) =
      (before.length, before.length + source.length) ::
        spansFrom (before.length + source.length)
          (Text.scanFrom recognise 0 source.getLast? after) := by
  have accepted := recognise_eq_some_iff.mpr ⟨source, after, rfl, rfl, isSpan⟩
  have notEmpty : source ≠ [] := isSpan.ne_nil
  rw [Text.scanFrom_append_of_eq_some notEmpty accepted, spansFrom]

/-- A code span is taken as a whole, and the walk goes on behind it. -/
theorem spansOfRuns_runsFrom_span {source after : Text} (atMost : resume ≤ before.length)
    (isSpan : IsSpan before.getLast? source after) :
    spansOfRuns (before ++ (source ++ after)) resume
        (runsFrom before.length before.getLast? (source ++ after)) =
      (before.length, before.length + source.length) ::
        spansOfRuns (before ++ (source ++ after)) (before.length + source.length)
          (runsFrom (before.length + source.length) source.getLast? after) := by
  cases isSpan with
  | @intro length content _ positive isContent notBefore ends =>
      have opened : (content ++ (ticks length ++ after)).head? ≠ some '`' := by
        rw [head?_append_of_ne_nil isContent.notEmpty]
        exact isContent.opened
      have found : contentLength? length '`' (content ++ (ticks length ++ after)) =
          some content.length :=
        (contentLength?_eq_some_iff positive opened).mpr
          ⟨content, after, rfl, rfl, isContent, ends⟩
      have shape : ticks length ++ content ++ ticks length ++ after =
          ticks length ++ (content ++ (ticks length ++ after)) := by simp
      have closing := closing?_runsFrom positive before (content ++ (ticks length ++ after))
      have last : (content ++ ticks length).getLast? = some '`' :=
        getLast?_append_ticks positive content
      have passed := spansOfRuns_runsFrom_append
        (before ++ (ticks length ++ (content ++ (ticks length ++ after)))) (before.length + length)
        (some '`') (content ++ ticks length) after
      have sourceLast : (ticks length ++ content ++ ticks length).getLast? = some '`' :=
        getLast?_append_ticks positive _
      have stop : before.length + (ticks length ++ content ++ ticks length).length =
          before.length + length + (content ++ ticks length).length := by
        simp only [List.length_append, length_ticks]
        omega
      have closingStop : (⟨before.length + length + content.length, length⟩ : Run).stop =
          before.length + length + (content ++ ticks length).length := by
        simp only [Run.stop, List.length_append, length_ticks]
        omega
      rw [found] at closing
      rw [last, List.append_assoc] at passed
      rw [sourceLast, stop, shape, runsFrom_run positive notBefore opened, spansOfRuns,
        if_neg (Nat.not_lt.mpr atMost), closing]
      dsimp only [Option.map_some]
      rw [closingStop, passed]
      rfl

theorem spansFrom_scanFrom (text : Text) (atMost : resume ≤ before.length) :
    spansFrom before.length (Text.scanFrom recognise 0 before.getLast? text) =
      spansOfRuns (before ++ text) resume (runsFrom before.length before.getLast? text) := by
  -- A span takes many characters at once, so the induction is on the length of what is left.
  induction sized : text.length using Nat.strong_induction_on generalizing before text resume with
  | _ size ih =>
      cases recognised : recognise before.getLast? text with
      | none =>
          cases text with
          | nil => rfl
          | cons char rest =>
              have grown : resume ≤ (before ++ [char]).length := by
                rw [List.length_append]
                omega
              have onward := ih rest.length (by simp [← sized]) rest grown rfl
              rw [List.length_append, List.length_singleton, List.getLast?_concat,
                List.append_assoc, List.singleton_append] at onward
              rw [spansFrom_scanFrom_cons recognised, spansOfRuns_runsFrom_cons atMost recognised,
                onward]
      | some found =>
          obtain ⟨source, after, rfl, -, isSpan⟩ := recognise_eq_some_iff.mp recognised
          have notEmpty : source ≠ [] := isSpan.ne_nil
          have last : (before ++ source).getLast? = source.getLast? := by
            rw [List.getLast?_append, List.getLast?_eq_some_getLast notEmpty]
            rfl
          have shorter : after.length < size := by
            have some := List.length_pos_iff.mpr notEmpty
            rw [← sized, List.length_append]
            omega
          have onward := ih after.length shorter after (Nat.le_refl (before ++ source).length) rfl
          rw [List.length_append, last, List.append_assoc] at onward
          rw [spansFrom_scanFrom_span isSpan, spansOfRuns_runsFrom_span atMost isSpan, onward]

end walk

/-- The code spans of a text are those that its runs open and close. -/
theorem spans_eq_spansOfRuns (text : Text) :
    (∀ run, run ∈ runs text ↔ run.IsMaximal text) ∧
      ((runs text).Pairwise fun first second => first.start < second.start) ∧
      spans text = spansOfRuns text 0 (runs text) :=
  ⟨fun _ => mem_runs_iff, pairwise_runs text,
    spansFrom_scanFrom text (Nat.zero_le ([] : Text).length)⟩

example : spans "`` a ` b `` ` c\n \nd ` e ```".toList = [(0, 11)] := by decide

end DocComponents.CodeSpan
