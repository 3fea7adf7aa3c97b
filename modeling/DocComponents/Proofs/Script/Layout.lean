import DocComponents.Proofs.Script.Statement
import DocComponents.Proofs.Text.Cut
import DocComponents.Proofs.Text.Lines
import DocComponents.Script.Layout

/-!
# Indented statements

A script whose first line has no indentation shares none among its lines, so each line is read four
columns to the right of where it stands. Statements that stand below the first one are read in
order; further to the right, the second of them is out of place.
-/

set_option autoImplicit false

namespace DocComponents.Script

/-- A line behind a number of spaces. -/
def indented (count : Nat) (line : Text) : Text :=
  List.replicate count ' ' ++ line

@[simp] theorem indented_zero (line : Text) : indented 0 line = line := rfl

theorem indented_indented (first second : Nat) (line : Text) :
    indented first (indented second line) = indented (first + second) line := by
  rw [indented, indented, indented, List.replicate_add, List.append_assoc]

private theorem isGap_of_mem_spaces {count : Nat} {char : Char}
    (member : char ∈ List.replicate count ' ') : isGap char = true := by
  rw [List.eq_of_mem_replicate member]
  decide

/-- A line that stays a line of its own however it is joined with others and cut off again. -/
structure IsShownLine (line : Text) : Prop where
  oneLine : Text.IsOneLine line
  shown : ∃ char ∈ line, Text.isBlank char = false

namespace IsShownLine

variable {line : Text}

theorem indented (isShown : IsShownLine line) (count : Nat) :
    IsShownLine (indented count line) := by
  constructor
  · intro char member
    rcases List.mem_append.mp member with space | inLine
    · rw [List.eq_of_mem_replicate space]
      decide
    · exact isShown.oneLine char inLine
  · obtain ⟨char, inside, outside⟩ := isShown.shown
    exact ⟨char, List.mem_append_right _ inside, outside⟩

theorem ne_nil (isShown : IsShownLine line) : line ≠ [] := by
  obtain ⟨char, inside, -⟩ := isShown.shown
  exact List.ne_nil_of_mem inside

theorem not_all_isBlank (isShown : IsShownLine line) (behind : Text) :
    ¬ (line ++ behind).all Text.isBlank = true := by
  obtain ⟨char, inside, outside⟩ := isShown.shown
  intro blank
  rw [List.all_eq_true.mp blank char (List.mem_append_left _ inside)] at outside
  cases outside

theorem not_all_isSpaceOrTab (isShown : IsShownLine line) :
    ¬ line.all Text.isSpaceOrTab = true := by
  obtain ⟨char, inside, outside⟩ := isShown.shown
  intro blank
  have gap := isGap_of_isSpaceOrTab (List.all_eq_true.mp blank char inside)
  rw [isBlank_of_isGap gap] at outside
  cases outside

end IsShownLine

section Lines

variable {first : Text} {lines rest : List Text}

theorem cutAt_join_lines (areShown : ∀ line ∈ lines, IsShownLine line) (notEmpty : lines ≠ []) :
    Text.cutAt (· == '\n') (Text.join ['\n'] lines) = lines := by
  refine Text.cutAt_join (by decide) (fun line member char inside => ?_) notEmpty
  have apart : char ≠ '\n' := by
    rintro rfl
    exact (areShown line member).oneLine.not_mem (by decide) inside
  simpa using apart

private theorem foldl_commonLead_nil (others : List Text) : others.foldl commonLead [] = [] := by
  induction others with
  | nil => rfl
  | cons other rest ih => simpa [commonLead] using ih

/-- Lines share no indentation when the first one has none. -/
theorem dedent_join (areShown : ∀ line ∈ first :: rest, IsShownLine line)
    (noIndentation : indentation first = []) :
    dedent (Text.join ['\n'] (first :: rest)) = Text.join ['\n'] (first :: rest) := by
  have notEmpty : first ≠ [] := (areShown first List.mem_cons_self).ne_nil
  have kept : ∀ line ∈ first :: rest, (if line.all Text.isSpaceOrTab then [] else line) = line :=
    fun line member => if_neg (areShown line member).not_all_isSpaceOrTab
  have plain : plainLines (Text.join ['\n'] (first :: rest)) = first :: rest := by
    rw [plainLines, cutAt_join_lines areShown (List.cons_ne_nil _ _), List.map_congr_left kept]
    exact List.map_id _
  have noMargin : margin (first :: rest) = [] := by
    simp [margin, notEmpty, noIndentation, foldl_commonLead_nil]
  simp [dedent, plain, noMargin, Text.afterLead?]

theorem indent_join (areShown : ∀ line ∈ lines, IsShownLine line) :
    indent (Text.join ['\n'] lines) = Text.join ['\n'] (lines.map (indented 4)) := by
  have body (line : Text) : bodyIndentation ++ line = indented 4 line := rfl
  induction lines with
  | nil => rfl
  | cons line rest ih =>
      have isShown := areShown line List.mem_cons_self
      cases rest with
      | nil =>
          have alone := Text.fullLines_of_isOneLine isShown.oneLine isShown.ne_nil
          have here : ¬ line.all Text.isBlank = true := by simpa using isShown.not_all_isBlank []
          simp only [indent, Text.join, alone, List.flatMap_cons, List.flatMap_nil, if_neg here,
            List.map_cons, List.map_nil, List.append_nil, body]
      | cons next others =>
          have later := ih fun other member => areShown other (List.mem_cons_of_mem _ member)
          rw [List.map_cons, List.map_cons, Text.join_cons_cons, Text.join_cons_cons,
            ← List.map_cons, ← later, List.singleton_append]
          simp only [indent, Text.fullLines_append_lineFeed isShown.oneLine, List.flatMap_cons,
            if_neg (isShown.not_all_isBlank ['\n']), body]
          simp [indented]

/-- The lines of a script are read where they stand, four columns to the right. -/
theorem read_join (areShown : ∀ line ∈ first :: rest, IsShownLine line)
    (noIndentation : indentation first = [])
    (statements : ∀ line ∈ first :: rest, holdsStatement (indented 4 line) = true) :
    read (Text.join ['\n'] (first :: rest)) =
      readLines (columnOf (indented 4 first))
        ((first :: rest).map (indented 4)) := by
  have shownBody : ∀ line ∈ (first :: rest).map (indented 4), IsShownLine line :=
    List.forall_mem_map.mpr fun line member => (areShown line member).indented 4
  have noReturn : '\r' ∉ Text.join ['\n'] ((first :: rest).map (indented 4)) := by
    intro member
    rcases Text.mem_join member with lineFeed | ⟨line, isLine, inside⟩
    · revert lineFeed
      decide
    · exact (shownBody line isLine).oneLine.not_mem (by decide) inside
  have kept : ((first :: rest).map (indented 4)).filter holdsStatement =
      (first :: rest).map (indented 4) := by
    rw [List.filter_eq_self]
    exact List.forall_mem_map.mpr statements
  rw [read, dedent_join areShown noIndentation, indent_join areShown,
    Text.universalNewlines_of_not_mem noReturn, cutAt_join_lines shownBody (by simp)]
  simp only [kept]
  rfl

end Lines

/-- A line with a statement, without indentation. -/
structure IsStatementLine (line : Text) : Prop where
  oneLine : Text.IsOneLine line
  start : ∀ char, line.head? = some char → Text.isBlank char = false
  statement : ∃ statement, readStatement? line = some statement

private theorem all_head?_iff (line : Text) :
    line.head?.all (fun char => !Text.isBlank char) = true ↔
      ∀ char, line.head? = some char → Text.isBlank char = false := by
  cases line <;> simp

instance (line : Text) : Decidable (IsStatementLine line) :=
  decidable_of_iff
    (Text.IsOneLine line ∧ line.head?.all (fun char => !Text.isBlank char) = true ∧
      (readStatement? line).isSome = true)
    ⟨fun ⟨oneLine, start, statement⟩ =>
        ⟨oneLine, (all_head?_iff line).mp start, Option.isSome_iff_exists.mp statement⟩,
      fun isLine =>
        ⟨isLine.oneLine, (all_head?_iff line).mpr isLine.start,
          Option.isSome_iff_exists.mpr isLine.statement⟩⟩

namespace IsStatementLine

variable {line : Text}

theorem exists_cons (isLine : IsStatementLine line) :
    ∃ char rest, line = char :: rest ∧ Text.isBlank char = false ∧ char ≠ '#' := by
  obtain ⟨statement, read⟩ := isLine.statement
  cases line with
  | nil => cases read
  | cons char rest =>
      refine ⟨char, rest, rfl, isLine.start char rfl, ?_⟩
      rintro rfl
      rw [readStatement?_comment] at read
      cases read

theorem isShownLine (isLine : IsStatementLine line) : IsShownLine line := by
  obtain ⟨char, rest, rfl, outside, -⟩ := isLine.exists_cons
  exact ⟨isLine.oneLine, char, List.mem_cons_self, outside⟩

/-- A line with a statement begins with a token. -/
theorem exists_cons_not_gap (isLine : IsStatementLine line) :
    ∃ char rest, line = char :: rest ∧ isGap char = false := by
  obtain ⟨char, rest, shape, outside, -⟩ := isLine.exists_cons
  refine ⟨char, rest, shape, ?_⟩
  by_contra gap
  rw [isBlank_of_isGap (by simpa using gap)] at outside
  cases outside

theorem indentation_eq_nil (isLine : IsStatementLine line) : indentation line = [] := by
  obtain ⟨char, rest, rfl, noGap⟩ := isLine.exists_cons_not_gap
  have noSpace : ¬ Text.isSpaceOrTab char = true := by
    intro space
    rw [isGap_of_isSpaceOrTab space] at noGap
    cases noGap
  rw [indentation, List.takeWhile_cons_of_neg noSpace]

theorem takeWhile_and_dropWhile_isGap (isLine : IsStatementLine line) (count : Nat) :
    (indented count line).takeWhile isGap = List.replicate count ' ' ∧
      (indented count line).dropWhile isGap = line := by
  obtain ⟨char, rest, rfl, noGap⟩ := isLine.exists_cons_not_gap
  constructor
  · rw [indented, List.takeWhile_append_of_pos fun _ => isGap_of_mem_spaces]
    simp [noGap]
  · rw [indented, List.dropWhile_append_of_pos fun _ => isGap_of_mem_spaces]
    simp [noGap]

theorem holdsStatement_indented (isLine : IsStatementLine line) (count : Nat) :
    holdsStatement (indented count line) = true := by
  obtain ⟨char, rest, shape, -, noComment⟩ := isLine.exists_cons
  rw [holdsStatement, (isLine.takeWhile_and_dropWhile_isGap count).2, shape]
  simp [noComment]

theorem columnOf_indented (isLine : IsStatementLine line) (count : Nat) :
    columnOf (indented count line) = ⟨count, count⟩ := by
  have spaces (start : Column) :
      (List.replicate count ' ').foldl Column.step start =
        ⟨start.tabbed + count, start.plain + count⟩ := by
    induction count generalizing start with
    | zero => rfl
    | succ count ih =>
        rw [List.replicate_succ, List.foldl_cons, ih]
        simp [Column.step]
        omega
  rw [columnOf, (isLine.takeWhile_and_dropWhile_isGap count).1, spaces]
  simp

theorem readStatement?_indented (count : Nat) (line : Text) :
    readStatement? (indented count line) = readStatement? line :=
  readStatement?_gaps_append (fun _ => isGap_of_mem_spaces) line

end IsStatementLine

section Column

variable {first : Text} {rest : List Text}

private theorem read_join_indented (areLines : ∀ line ∈ first :: rest, IsStatementLine line)
    (count : Nat) :
    read (Text.join ['\n'] (first :: rest.map (indented count))) =
      readLines ⟨4, 4⟩ (indented 4 first :: rest.map (indented (4 + count))) := by
  have isLine := areLines first List.mem_cons_self
  have later : ∀ line ∈ rest, IsStatementLine line := fun line member =>
    areLines line (List.mem_cons_of_mem _ member)
  have areShown : ∀ line ∈ first :: rest.map (indented count), IsShownLine line := by
    refine List.forall_mem_cons.mpr ⟨isLine.isShownLine, List.forall_mem_map.mpr ?_⟩
    exact fun line member => (later line member).isShownLine.indented count
  have statements : ∀ line ∈ first :: rest.map (indented count),
      holdsStatement (indented 4 line) = true := by
    refine List.forall_mem_cons.mpr
      ⟨isLine.holdsStatement_indented 4, List.forall_mem_map.mpr fun line member => ?_⟩
    rw [indented_indented]
    exact (later line member).holdsStatement_indented _
  have moved : (rest.map (indented count)).map (indented 4) = rest.map (indented (4 + count)) := by
    rw [List.map_map]
    exact List.map_congr_left fun line _ => indented_indented 4 count line
  rw [read_join areShown isLine.indentation_eq_nil statements,
    isLine.columnOf_indented, List.map_cons, moved]

private theorem columnFault?_self (column : Column) : columnFault? column column = none := by
  simp [columnFault?]

private theorem readLines_indented {lines : List Text}
    (areLines : ∀ line ∈ lines, IsStatementLine line) :
    readLines ⟨4, 4⟩ (lines.map (indented 4)) = .ok (lines.filterMap readStatement?) := by
  induction lines with
  | nil => rfl
  | cons line rest ih =>
      have isLine := areLines line List.mem_cons_self
      have later := ih fun other member => areLines other (List.mem_cons_of_mem _ member)
      obtain ⟨statement, found⟩ := isLine.statement
      have here : readStatement? (indented 4 line) = some statement := by
        rw [IsStatementLine.readStatement?_indented, found]
      rw [List.map_cons, readLines, isLine.columnOf_indented, columnFault?_self]
      simp [here, later, found]

/-- Statements that stand below one another are read in order. -/
theorem read_aligned (areLines : ∀ line ∈ first :: rest, IsStatementLine line) :
    read (Text.join ['\n'] (first :: rest)) = .ok ((first :: rest).filterMap readStatement?) := by
  have aligned : rest.map (indented 0) = rest := by
    rw [List.map_congr_left fun line _ => indented_zero line]
    exact List.map_id _
  have layout := read_join_indented areLines 0
  rw [aligned] at layout
  rw [layout]
  exact readLines_indented areLines

/-- Statements further to the right than the first one are out of place. -/
theorem read_shifted (areLines : ∀ line ∈ first :: rest, IsStatementLine line)
    (several : rest ≠ []) {count : Nat} (right : 0 < count) :
    read (Text.join ['\n'] (first :: rest.map (indented count))) = .error .unexpectedIndent := by
  cases rest with
  | nil => exact absurd rfl several
  | cons next others =>
      have firstLine := areLines first List.mem_cons_self
      have nextLine := areLines next (List.mem_cons_of_mem _ List.mem_cons_self)
      obtain ⟨statement, found⟩ := firstLine.statement
      have here : readStatement? (indented 4 first) = some statement := by
        rw [IsStatementLine.readStatement?_indented, found]
      have outOfPlace : columnFault? ⟨4, 4⟩ ⟨4 + count, 4 + count⟩ = some .unexpectedIndent := by
        have apart : count ≠ 0 := Nat.ne_of_gt right
        have behind : 4 < 4 + count := by omega
        simp [columnFault?, apart, behind]
      have later : readLines ⟨4, 4⟩ ((next :: others).map (indented (4 + count))) =
          .error .unexpectedIndent := by
        rw [List.map_cons, readLines, nextLine.columnOf_indented, outOfPlace]
      rw [read_join_indented areLines, readLines, firstLine.columnOf_indented, columnFault?_self]
      simp only [here, later]

end Column

end DocComponents.Script
