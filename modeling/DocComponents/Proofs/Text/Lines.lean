import DocComponents.Proofs.Text.Trim
import DocComponents.Text.Lines
import Mathlib.Data.List.TakeWhile

/-!
# Lines of a text

The lines of a text, each with its boundary, are the text again, and only the last of them may lack
a boundary. A text without boundaries is one line. A line feed ends a line, so what stands behind it
is cut into lines by itself.
-/

set_option autoImplicit false

namespace DocComponents.Text

/-- A text in which no line ends. -/
def IsOneLine (text : Text) : Prop :=
  ∀ char ∈ text, isLineBreak char = false

instance (text : Text) : Decidable (IsOneLine text) :=
  List.decidableBAll (fun char => isLineBreak char = false) text

theorem flatten_consLine (char : Char) (lines : List Text) :
    (consLine char lines).flatten = char :: lines.flatten := by
  cases lines <;> rfl

theorem IsOneLine.not_mem {text : Text} (oneLine : IsOneLine text) {mark : Char}
    (breaks : isLineBreak mark = true) : mark ∉ text := by
  intro member
  rw [oneLine mark member] at breaks
  cases breaks

theorem IsOneLine.append {left right : Text} (oneLineLeft : IsOneLine left)
    (oneLineRight : IsOneLine right) : IsOneLine (left ++ right) := by
  intro char member
  rcases List.mem_append.mp member with inLeft | inRight
  · exact oneLineLeft char inLeft
  · exact oneLineRight char inRight

theorem universalNewlines_of_not_mem {text : Text} (noReturn : '\r' ∉ text) :
    universalNewlines text = text := by
  induction text with
  | nil => rfl
  | cons char rest ih =>
      rw [List.mem_cons, not_or] at noReturn
      rw [universalNewlines]
      · rw [if_neg (Ne.symm noReturn.1), ih noReturn.2]
      · intro _ same
        exact absurd same.symm noReturn.1

/-- Cutting a text into lines loses nothing. -/
theorem flatten_fullLines (text : Text) : (fullLines text).flatten = text := by
  fun_induction fullLines text with
  | case1 => rfl
  | case2 rest ih => simp [ih]
  | case3 char rest _ _ ih => simp [ih]
  | case4 char rest _ _ ih => rw [flatten_consLine, ih]

theorem fullLines_cons_of_ne {char : Char} (noReturn : char ≠ '\r') (rest : Text) :
    fullLines (char :: rest) =
      if isLineBreak char then [char] :: fullLines rest else consLine char (fullLines rest) := by
  rw [fullLines]
  simp [noReturn]

private theorem fullLines_cons_of_inside {char : Char} (inside : isLineBreak char = false)
    (rest : Text) : fullLines (char :: rest) = consLine char (fullLines rest) := by
  have noReturn : char ≠ '\r' := by
    rintro rfl
    revert inside
    decide
  rw [fullLines_cons_of_ne noReturn, if_neg (by simp [inside])]

theorem fullLines_of_isOneLine {text : Text} (oneLine : IsOneLine text) (notEmpty : text ≠ []) :
    fullLines text = [text] := by
  induction text with
  | nil => exact absurd rfl notEmpty
  | cons char rest ih =>
      rw [fullLines_cons_of_inside (oneLine char List.mem_cons_self)]
      cases rest with
      | nil => rfl
      | cons next others =>
          rw [ih (fun other member => oneLine other (List.mem_cons_of_mem _ member)) (by simp)]
          rfl

theorem fullLines_append_lineFeed {text : Text} (oneLine : IsOneLine text) (rest : Text) :
    fullLines (text ++ '\n' :: rest) = (text ++ ['\n']) :: fullLines rest := by
  induction text with
  | nil => simp [fullLines, isLineBreak, withinRanges]
  | cons char others ih =>
      have later := ih fun other member => oneLine other (List.mem_cons_of_mem _ member)
      rw [List.cons_append, fullLines_cons_of_inside (oneLine char List.mem_cons_self), later]
      rfl

theorem fullLines_cons_of_break {char : Char} (breaks : isLineBreak char = true) {rest : Text}
    (apart : char = '\r' → rest.head? ≠ some '\n') :
    fullLines (char :: rest) = [char] :: fullLines rest := by
  rw [fullLines]
  · rw [if_pos breaks]
  · rintro behind isReturn rfl
    exact apart isReturn rfl

theorem fullLines_ne_nil {text : Text} (notEmpty : text ≠ []) : fullLines text ≠ [] := by
  intro none
  have whole := flatten_fullLines text
  rw [none] at whole
  exact notEmpty whole.symm

private theorem consLine_append {char : Char} {lines : List Text} (notEmpty : lines ≠ [])
    (more : List Text) : consLine char (lines ++ more) = consLine char lines ++ more := by
  cases lines with
  | nil => exact absurd rfl notEmpty
  | cons line others => rfl

private theorem head?_append_ne {char : Char} {text : Text}
    (single : ∀ behind, char = '\r' → text = '\n' :: behind → False)
    (goesOn : ¬ (char = '\r' ∧ text = [])) (more : Text) :
    char = '\r' → (text ++ more).head? ≠ some '\n' := by
  intro isReturn
  cases text with
  | nil => exact absurd ⟨isReturn, rfl⟩ goesOn
  | cons next others =>
      rintro same
      cases same
      exact single others isReturn rfl

/-- A line feed ends a line, so what stands behind it is cut by itself. -/
theorem fullLines_append_cons (text rest : Text) :
    fullLines (text ++ '\n' :: rest) = fullLines (text ++ ['\n']) ++ fullLines rest := by
  fun_induction fullLines text with
  | case1 =>
      have breaks : isLineBreak '\n' = true := by decide
      have apart : '\n' ≠ '\r' := by decide
      simp only [List.nil_append, fullLines_cons_of_ne apart, if_pos breaks]
      rfl
  | case2 text ih => simp only [List.cons_append, fullLines, ih]
  | case3 char text single breaks ih =>
      by_cases alone : char = '\r' ∧ text = []
      · obtain ⟨rfl, rfl⟩ := alone
        rfl
      · have apart := head?_append_ne single alone
        simp only [List.cons_append, fullLines_cons_of_break breaks (apart _), ih]
  | case4 char text single notBreak ih =>
      have inside := Bool.eq_false_iff.mpr notBreak
      simp only [List.cons_append, fullLines_cons_of_inside inside, ih,
        consLine_append (fullLines_ne_nil (List.concat_ne_nil _ _))]

theorem lineBody_append_lineFeed {text : Text} (oneLine : IsOneLine text) :
    lineBody (text ++ ['\n']) = text := by
  unfold lineBody
  rw [List.takeWhile_append_of_pos (by simpa [IsOneLine] using oneLine)]
  simp [isLineBreak, withinRanges]

theorem lines_append_cons {text : Text} (oneLine : IsOneLine text) (rest : Text) :
    lines (text ++ '\n' :: rest) = text :: lines rest := by
  unfold lines
  rw [fullLines_append_lineFeed oneLine, List.map_cons, lineBody_append_lineFeed oneLine]

/-- One line and its line feed are read as this line. -/
theorem lines_append_lineFeed {text : Text} (oneLine : IsOneLine text) :
    lines (text ++ ['\n']) = [text] :=
  lines_append_cons oneLine []

theorem lines_of_isOneLine {text : Text} (oneLine : IsOneLine text) (notEmpty : text ≠ []) :
    lines text = [text] := by
  have body : lineBody text = text := by
    unfold lineBody
    rw [List.takeWhile_eq_self_iff]
    intro char member
    simp [oneLine char member]
  rw [lines, fullLines_of_isOneLine oneLine notEmpty, List.map_singleton, body]

theorem lines_cons_of_break {char : Char} (breaks : isLineBreak char = true) {rest : Text}
    (apart : char = '\r' → rest.head? ≠ some '\n') : lines (char :: rest) = [] :: lines rest := by
  unfold lines
  rw [fullLines_cons_of_break breaks apart, List.map_cons]
  simp [lineBody, breaks]

theorem lines_cons_of_inside {char : Char} (inside : isLineBreak char = false) (rest : Text) :
    lines (char :: rest) = consLine char (lines rest) := by
  unfold lines
  rw [fullLines_cons_of_inside inside]
  cases fullLines rest with
  | nil => simp [consLine, lineBody, inside]
  | cons line others => simp [consLine, lineBody, inside]

/-- The lines behind a line feed are those of what stands there. -/
theorem lines_append_lineFeed_append (text rest : Text) :
    lines (text ++ '\n' :: rest) = lines (text ++ ['\n']) ++ lines rest := by
  unfold lines
  rw [fullLines_append_cons, List.map_append]

/-- A line feed at the end of a text ends its last line, or it is an empty line. -/
theorem lines_concat_lineFeed (text : Text) :
    lines (text ++ ['\n']) = lines text ∨ lines (text ++ ['\n']) = lines text ++ [[]] := by
  fun_induction fullLines text with
  | case1 => exact .inr rfl
  | case2 text ih => exact ih.imp (congrArg (List.cons [])) (congrArg (List.cons []))
  | case3 char text single breaks ih =>
      by_cases alone : char = '\r' ∧ text = []
      · obtain ⟨rfl, rfl⟩ := alone
        exact .inl rfl
      · have apart := head?_append_ne single alone
        have notEnded := apart []
        rw [List.append_nil] at notEnded
        rw [List.cons_append, lines_cons_of_break breaks (apart _),
          lines_cons_of_break breaks notEnded]
        exact ih.imp (congrArg (List.cons [])) (congrArg (List.cons []))
  | case4 char text single notBreak ih =>
      have inside := Bool.eq_false_iff.mpr notBreak
      rw [List.cons_append, lines_cons_of_inside inside, lines_cons_of_inside inside]
      rcases ih with same | another
      · exact .inl (congrArg _ same)
      · rw [another]
        cases lines text with
        | nil => exact .inl rfl
        | cons line others => exact .inr rfl

/-- What stands in a line behind its body is blank. -/
theorem isBlankText_dropWhile_of_mem_fullLines {text line : Text} (member : line ∈ fullLines text) :
    IsBlankText (line.dropWhile fun char => !isLineBreak char) := by
  have blank {char : Char} (breaks : isLineBreak char = true) : isBlank char = true := by
    simp only [isLineBreak, isBlank, isSpace, withinRanges, List.any_cons, List.any_nil,
      Bool.or_eq_true, Bool.and_eq_true, decide_eq_true_eq, Bool.or_false] at breaks ⊢
    omega
  fun_induction fullLines text generalizing line with
  | case1 => cases member
  | case2 text ih =>
      rcases List.mem_cons.mp member with rfl | later
      · decide
      · exact ih later
  | case3 char text single breaks ih =>
      rcases List.mem_cons.mp member with rfl | later
      · intro other inside
        have among := List.dropWhile_subset _ inside
        rw [List.mem_singleton.mp among]
        exact blank breaks
      · exact ih later
  | case4 char text single notBreak ih =>
      have inside := Bool.eq_false_iff.mpr notBreak
      cases found : fullLines text with
      | nil =>
          rw [found, consLine, List.mem_singleton] at member
          subst member
          simp [inside, isBlankText_nil]
      | cons first others =>
          rw [found, consLine] at member
          rw [found] at ih
          rcases List.mem_cons.mp member with rfl | later
          · simpa [inside] using ih List.mem_cons_self
          · exact ih (List.mem_cons_of_mem _ later)

theorem trim_lineBody {text line : Text} (member : line ∈ fullLines text) :
    trim (lineBody line) = trim line := by
  have blanks := isBlankText_dropWhile_of_mem_fullLines member
  have whole : lineBody line ++ line.dropWhile (fun char => !isLineBreak char) = line :=
    List.takeWhile_append_dropWhile
  have trimmed := trim_append_blanks (lineBody line) blanks
  rw [whole] at trimmed
  exact trimmed.symm

theorem isOneLine_of_mem_lines {text line : Text} (member : line ∈ lines text) :
    IsOneLine line := by
  obtain ⟨full, -, rfl⟩ := List.mem_map.mp member
  intro char inside
  simpa using List.mem_takeWhile_imp inside

/-- Lines one below the other, each ended by a line feed. -/
def endLines (lines : List Text) : Text :=
  lines.flatMap fun line => line ++ ['\n']

@[simp] theorem endLines_nil : endLines [] = [] := rfl

theorem endLines_cons (line : Text) (rest : List Text) :
    endLines (line :: rest) = line ++ '\n' :: endLines rest := by
  simp [endLines]

/-- What is written line by line is read as these lines. -/
theorem lines_endLines {texts : List Text} (oneLine : ∀ line ∈ texts, IsOneLine line) :
    lines (endLines texts) = texts := by
  induction texts with
  | nil => rfl
  | cons line rest ih =>
      have here := oneLine line List.mem_cons_self
      have later := ih fun other member => oneLine other (List.mem_cons_of_mem _ member)
      rw [endLines_cons, lines_append_cons here, later]

end DocComponents.Text
