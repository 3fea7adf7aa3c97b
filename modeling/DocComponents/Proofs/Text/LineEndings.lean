import DocComponents.Proofs.Text.Lines
import DocComponents.Proofs.Text.Scan

/-!
# Line endings

A text whose lines end in line feeds has a twin whose lines end in a carriage return and a line
feed. The lines of the twin are the twins of the lines. A scan of the twin finds the twins of the
hits, if the recogniser accepts as much of every twin as of its text and no hit begins with a line
feed.
-/

set_option autoImplicit false

namespace DocComponents.Text

/-- The text with a carriage return in front of every line feed. -/
def crlf (text : Text) : Text :=
  replaceChar '\n' ['\r', '\n'] text

@[simp] theorem crlf_nil : crlf [] = [] := rfl

theorem crlf_append (left right : Text) : crlf (left ++ right) = crlf left ++ crlf right :=
  List.flatMap_append

theorem crlf_cons_lineFeed (rest : Text) : crlf ('\n' :: rest) = '\r' :: '\n' :: crlf rest := rfl

theorem crlf_cons_of_ne {char : Char} (other : char ≠ '\n') (rest : Text) :
    crlf (char :: rest) = char :: crlf rest := by
  simp [crlf, replaceChar, other]

theorem crlf_of_not_mem {text : Text} (absent : '\n' ∉ text) : crlf text = text := by
  induction text with
  | nil => rfl
  | cons char rest ih =>
      rw [List.mem_cons, not_or] at absent
      rw [crlf_cons_of_ne (Ne.symm absent.1), ih absent.2]

theorem crlf_flatten (lines : List Text) : crlf lines.flatten = (lines.map crlf).flatten := by
  induction lines with
  | nil => rfl
  | cons line rest ih => rw [List.flatten_cons, crlf_append, ih, List.map_cons, List.flatten_cons]

theorem head?_crlf_ne (text : Text) : (crlf text).head? ≠ some '\n' := by
  cases text with
  | nil => simp
  | cons char rest =>
      by_cases lineFeed : char = '\n'
      · subst lineFeed
        simp [crlf_cons_lineFeed]
      · rw [crlf_cons_of_ne lineFeed]
        simpa using lineFeed

theorem getLast?_crlf (text : Text) : (crlf text).getLast? = text.getLast? := by
  obtain rfl | ⟨start, last, rfl⟩ := text.eq_nil_or_concat
  · rfl
  · rw [List.concat_eq_append, crlf_append]
    by_cases lineFeed : last = '\n'
    · subst lineFeed
      simp [crlf_cons_lineFeed]
    · simp [crlf_cons_of_ne lineFeed]

theorem crlf_eq_nil_iff {text : Text} : crlf text = [] ↔ text = [] := by
  rw [← List.getLast?_eq_none_iff, getLast?_crlf, List.getLast?_eq_none_iff]

theorem exists_crlf_eq_cons (char : Char) (rest : Text) :
    ∃ first others, crlf (char :: rest) = first :: others :=
  List.exists_cons_of_ne_nil (crlf_eq_nil_iff.not.mpr (List.cons_ne_nil char rest))

theorem eq_return_or_mem_of_mem_crlf {text : Text} {char : Char} (member : char ∈ crlf text) :
    char = '\r' ∨ char ∈ text := by
  obtain ⟨other, inside, found⟩ := List.mem_flatMap.mp member
  split at found
  · next lineFeed =>
      rcases List.mem_cons.mp found with same | last
      · exact .inl same
      · rw [List.mem_singleton.mp last, ← lineFeed]
        exact .inr inside
  · rw [List.mem_singleton.mp found]
    exact .inr inside

/-- Reading every line end as a line feed takes the carriage returns out again. -/
theorem universalNewlines_crlf {text : Text} (noReturn : '\r' ∉ text) :
    universalNewlines (crlf text) = text := by
  induction text with
  | nil => rfl
  | cons char rest ih =>
      rw [List.mem_cons, not_or] at noReturn
      by_cases lineFeed : char = '\n'
      · subst lineFeed
        rw [crlf_cons_lineFeed, universalNewlines, ih noReturn.2]
      · rw [crlf_cons_of_ne lineFeed, universalNewlines]
        · rw [if_neg (Ne.symm noReturn.1), ih noReturn.2]
        · intro _ same
          exact absurd same.symm noReturn.1

theorem eq_lineFeed_or_mem_of_mem_universalNewlines {text : Text} {char : Char}
    (member : char ∈ universalNewlines text) : char = '\n' ∨ char ∈ text := by
  fun_induction universalNewlines text with
  | case1 => cases member
  | case2 rest ih =>
      rcases List.mem_cons.mp member with same | later
      · exact .inl same
      · exact (ih later).imp_right fun inside => by simp [inside]
  | case3 other rest _ ih =>
      rcases List.mem_cons.mp member with same | later
      · split at same
        · exact .inl same
        · exact .inr (by simp [same])
      · exact (ih later).imp_right (List.mem_cons_of_mem _)

/-- Two texts are read one after the other, unless a line ending stands across them. -/
theorem universalNewlines_append {left right : Text}
    (apart : left.getLast? = some '\r' → right.head? ≠ some '\n') :
    universalNewlines (left ++ right) = universalNewlines left ++ universalNewlines right := by
  have tail {char : Char} {rest : Text} (ends : rest.getLast? = some '\r') :
      (char :: rest).getLast? = some '\r' := by
    rw [List.getLast?_cons, ends]
    rfl
  fun_induction universalNewlines left with
  | case1 => rfl
  | case2 rest ih =>
      rw [List.cons_append, List.cons_append, universalNewlines, List.cons_append,
        ih fun ends => apart (tail (tail ends))]
  | case3 char rest single ih =>
      rw [List.cons_append, universalNewlines, List.cons_append, ih fun ends => apart (tail ends)]
      intro behind isReturn whole
      subst isReturn
      -- A carriage return at the end of the left text stays alone.
      cases rest with
      | nil =>
          rw [List.nil_append] at whole
          exact apart rfl (by rw [whole]; rfl)
      | cons next others =>
          rw [List.cons_append] at whole
          obtain ⟨rfl, -⟩ := List.cons.inj whole
          exact single others rfl rfl

section inClass

variable {inClass : Char → Bool} (outside : inClass '\n' = false)
  (outsideToo : inClass '\r' = false)

include outside outsideToo

theorem dropWhile_crlf (text : Text) :
    (crlf text).dropWhile inClass = crlf (text.dropWhile inClass) := by
  induction text with
  | nil => rfl
  | cons char rest ih =>
      by_cases lineFeed : char = '\n'
      · subst lineFeed
        simp [crlf_cons_lineFeed, outside, outsideToo]
      · by_cases inside : inClass char = true
        · rw [crlf_cons_of_ne lineFeed, List.dropWhile_cons_of_pos inside,
            List.dropWhile_cons_of_pos inside, ih]
        · rw [crlf_cons_of_ne lineFeed, List.dropWhile_cons_of_neg inside,
            List.dropWhile_cons_of_neg inside, crlf_cons_of_ne lineFeed]

theorem takeWhile_crlf (text : Text) :
    (crlf text).takeWhile inClass = text.takeWhile inClass := by
  induction text with
  | nil => rfl
  | cons char rest ih =>
      by_cases lineFeed : char = '\n'
      · subst lineFeed
        simp [crlf_cons_lineFeed, outside, outsideToo]
      · rw [crlf_cons_of_ne lineFeed, List.takeWhile_cons, List.takeWhile_cons, ih]

end inClass

/-- A lead without line endings stands before a text and before its twin. -/
theorem afterLead?_crlf {lead : Text} (noLineFeed : '\n' ∉ lead) (noReturn : '\r' ∉ lead)
    (text : Text) : afterLead? lead (crlf text) = (afterLead? lead text).map crlf := by
  induction lead generalizing text with
  | nil => rfl
  | cons expected others ih =>
      rw [List.mem_cons, not_or] at noLineFeed noReturn
      cases text with
      | nil => rfl
      | cons char rest =>
          by_cases lineFeed : char = '\n'
          · subst lineFeed
            rw [crlf_cons_lineFeed, afterLead?, afterLead?, if_neg (Ne.symm noReturn.1),
              if_neg (Ne.symm noLineFeed.1)]
            rfl
          · rw [crlf_cons_of_ne lineFeed, afterLead?, afterLead?]
            split
            · exact ih noLineFeed.2 noReturn.2 rest
            · rfl

theorem dropWhile_crlf_of_inside {inClass : Char → Bool} (inside : inClass '\n' = true)
    (insideToo : inClass '\r' = true) (text : Text) :
    (crlf text).dropWhile inClass = crlf (text.dropWhile inClass) := by
  induction text with
  | nil => rfl
  | cons char rest ih =>
      by_cases lineFeed : char = '\n'
      · subst lineFeed
        rw [crlf_cons_lineFeed, List.dropWhile_cons_of_pos insideToo,
          List.dropWhile_cons_of_pos inside, List.dropWhile_cons_of_pos inside, ih]
      · rw [crlf_cons_of_ne lineFeed, List.dropWhile_cons, List.dropWhile_cons]
        split
        · exact ih
        · exact (crlf_cons_of_ne lineFeed rest).symm

theorem IsBlankText.crlf {text : Text} (blank : IsBlankText text) : IsBlankText (crlf text) := by
  intro char member
  cases eq_return_or_mem_of_mem_crlf member with
  | inl isReturn =>
      rw [isReturn]
      decide
  | inr inside => exact blank char inside

theorem IsTrimmed.crlf {text : Text} (trimmed : IsTrimmed text) : IsTrimmed (crlf text) := by
  constructor
  · cases text with
    | nil => exact trimmed.head
    | cons first rest =>
        have notBlank := trimmed.head first rfl
        have other : first ≠ '\n' := by
          intro lineFeed
          rw [lineFeed] at notBlank
          cases notBlank
        rw [crlf_cons_of_ne other]
        exact trimmed.head
  · rw [getLast?_crlf]
    exact trimmed.last

theorem trim_crlf (text : Text) : trim (crlf text) = crlf (trim text) := by
  obtain ⟨before, after, whole, blankBefore, blankAfter⟩ := exists_blanks_around_trim text
  conv_lhs => rw [whole, crlf_append, crlf_append]
  exact trim_pad blankBefore.crlf blankAfter.crlf (isTrimmed_trim text).crlf

/-- What stands before the first line feed of the twin ends with blanks at most that the text does
not have there. -/
theorem exists_blanks_takeWhile_crlf (text : Text) :
    ∃ blanks, IsBlankText blanks ∧
      (crlf text).takeWhile (· != '\n') = text.takeWhile (· != '\n') ++ blanks := by
  induction text with
  | nil => exact ⟨[], isBlankText_nil, rfl⟩
  | cons char rest ih =>
      by_cases lineFeed : char = '\n'
      · subst lineFeed
        exact ⟨['\r'], by decide, rfl⟩
      · obtain ⟨blanks, blank, shape⟩ := ih
        refine ⟨blanks, blank, ?_⟩
        rw [crlf_cons_of_ne lineFeed]
        simp [lineFeed, shape]

theorem fullLines_crlf {text : Text} (noReturn : '\r' ∉ text) :
    fullLines (crlf text) = (fullLines text).map crlf := by
  induction text with
  | nil => rfl
  | cons char rest ih =>
      rw [List.mem_cons, not_or] at noReturn
      have notHere := Ne.symm noReturn.1
      have later := ih noReturn.2
      by_cases lineFeed : char = '\n'
      · subst lineFeed
        have breaks : isLineBreak '\n' = true := by decide
        rw [crlf_cons_lineFeed, fullLines, later, fullLines_cons_of_ne notHere, if_pos breaks]
        rfl
      · rw [crlf_cons_of_ne lineFeed, fullLines_cons_of_ne notHere, fullLines_cons_of_ne notHere,
          later]
        split
        · rw [List.map_cons, crlf_cons_of_ne lineFeed, crlf_nil]
        · cases fullLines rest with
          | nil => simp [consLine, crlf_cons_of_ne lineFeed]
          | cons line others => simp [consLine, crlf_cons_of_ne lineFeed]

theorem lines_crlf {text : Text} (noReturn : '\r' ∉ text) : lines (crlf text) = lines text := by
  rw [lines, lines, fullLines_crlf noReturn, List.map_map]
  apply List.map_congr_left
  intro line _
  exact takeWhile_crlf (by decide) (by decide) line

/-- A line feed stands nowhere in a line but at its end. -/
theorem exists_body_of_mem_fullLines {text line : Text} (member : line ∈ fullLines text) :
    ∃ body, '\n' ∉ body ∧ (line = body ∨ line = body ++ ['\n']) := by
  fun_induction fullLines text generalizing line with
  | case1 => cases member
  | case2 rest ih =>
      rcases List.mem_cons.mp member with rfl | later
      · exact ⟨['\r'], by decide, .inr rfl⟩
      · exact ih later
  | case3 char rest _ _ ih =>
      rcases List.mem_cons.mp member with rfl | later
      · by_cases lineFeed : char = '\n'
        · exact ⟨[], by simp, .inr (by rw [lineFeed]; rfl)⟩
        · exact ⟨[char], by simpa using Ne.symm lineFeed, .inl rfl⟩
      · exact ih later
  | case4 char rest _ inside ih =>
      have notHere : '\n' ≠ char := by
        rintro rfl
        exact inside (by decide)
      cases found : fullLines rest with
      | nil =>
          rw [found, consLine, List.mem_singleton] at member
          subst member
          exact ⟨[char], by simpa using notHere, .inl rfl⟩
      | cons first others =>
          rw [found, consLine] at member
          rw [found] at ih
          rcases List.mem_cons.mp member with rfl | later
          · obtain ⟨body, noLineFeed, shape⟩ := ih List.mem_cons_self
            refine ⟨char :: body, by simp [notHere, noLineFeed], ?_⟩
            exact shape.imp (congrArg (List.cons char)) (congrArg (List.cons char))
          · exact ih (List.mem_cons_of_mem _ later)

def Piece.crlf {Value Image : Type} (image : Value → Image) : Piece Value → List (Piece Image)
  | .plain char => (Text.crlf [char]).map .plain
  | .hit source value => [.hit (Text.crlf source) (image value)]

section flatMap

variable {Value Image : Type} {image : Value → Image}

theorem hits_flatMap_crlf (image : Value → Image) (pieces : List (Piece Value)) :
    hits (pieces.flatMap (Piece.crlf image)) = (hits pieces).map image := by
  induction pieces with
  | nil => rfl
  | cons piece rest ih =>
      rw [List.flatMap_cons, hits_append, ih]
      cases piece with
      | plain char => simp [Piece.crlf]
      | hit source value => simp [Piece.crlf]

theorem replaceHits_flatMap_crlf (write : Value → Text) (writeImage : Image → Text)
    (written : ∀ value, writeImage (image value) = crlf (write value))
    (pieces : List (Piece Value)) :
    replaceHits writeImage (pieces.flatMap (Piece.crlf image)) =
      crlf (replaceHits write pieces) := by
  induction pieces with
  | nil => rfl
  | cons piece rest ih =>
      rw [List.flatMap_cons, replaceHits_append, ih]
      cases piece with
      | plain char =>
          rw [Piece.crlf, replaceHits_map_plain, ← crlf_append]
          rfl
      | hit source value =>
          simp [Piece.crlf, replaceHits, written, crlf_append]

end flatMap

section scanFrom

variable {Value : Type} {recognise : Option Char → Text → Option (Value × Nat)}
  {previous : Option Char}

/-- Where no hit begins, a scan of the twin passes over the twin of one character. -/
theorem scanFrom_crlf_cons
    (passes : ∀ previous rest value size,
      recognise previous ('\n' :: rest) ≠ some (value, size + 1))
    {char : Char} {rest : Text}
    (rejected : ∀ value size, recognise previous (crlf (char :: rest)) ≠ some (value, size + 1)) :
    scanFrom recognise 0 previous (crlf (char :: rest)) =
      (crlf [char]).map .plain ++ scanFrom recognise 0 (some char) (crlf rest) := by
  by_cases lineFeed : char = '\n'
  · subst lineFeed
    rw [crlf_cons_lineFeed] at rejected ⊢
    rw [scanFrom_cons_of_rejected rejected, scanFrom_cons_of_rejected (passes _ _)]
    rfl
  · rw [crlf_cons_of_ne lineFeed] at rejected ⊢
    rw [scanFrom_cons_of_rejected rejected, crlf_cons_of_ne lineFeed]
    rfl

theorem scanFrom_crlf_append {source rest : Text} {value : Value} (notEmpty : source ≠ [])
    (accepted : recognise previous (crlf source ++ crlf rest) =
      some (value, (crlf source).length)) :
    scanFrom recognise 0 previous (crlf (source ++ rest)) =
      .hit (crlf source) value :: scanFrom recognise 0 source.getLast? (crlf rest) := by
  have twin : crlf source ≠ [] := crlf_eq_nil_iff.not.mpr notEmpty
  rw [crlf_append, scanFrom_append_of_eq_some twin accepted, getLast?_crlf]

end scanFrom

end DocComponents.Text
