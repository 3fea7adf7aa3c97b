import DocComponents.Proofs.Definition.Declared
import DocComponents.Proofs.Text.Lead

/-!
# Front matter that is written line by line

A value between double quotes is read back whatever it holds, as long as it stays on its line, and a
line that begins otherwise than a key is passed over in search of that key.
-/

set_option autoImplicit false

namespace DocComponents.FrontMatter

/-- A value as it is written: between double quotes, with nothing escaped. -/
def quote (value : Text) : Text :=
  '"' :: value ++ ['"']

def scalarLine (key value : Text) : Text :=
  key ++ ": ".toList ++ quote value

def entryLine (pair : Text × Text) : Text :=
  "  ".toList ++ scalarLine pair.1 pair.2

/-- A line that does not close the front matter. -/
structure IsInside (line : Text) : Prop where
  start : line.head? ≠ some '-'
  oneLine : Text.IsOneLine line

/-! ### Quotes -/

theorem isTrimmed_quote (value : Text) : Text.IsTrimmed (quote value) := by
  constructor
  · intro char first
    obtain rfl : '"' = char := by simpa [quote] using first
    decide
  · intro char last
    rw [quote, List.getLast?_concat] at last
    cases last
    decide

theorem stripQuotes_quote (value : Text) : stripQuotes (quote value) = value := by
  cases value with
  | nil => rfl
  | cons char rest =>
      have last : (char :: (rest ++ ['"'])).getLast? = some '"' :=
        List.getLast?_concat (l := char :: rest)
      have start : (char :: (rest ++ ['"'])).dropLast = char :: rest := by
        rw [← List.cons_append, List.dropLast_concat]
      simp [quote, stripQuotes, last, start]

theorem stripQuotes_trim_quote (value : Text) :
    stripQuotes (Text.trim (' ' :: quote value)) = value := by
  have space : Text.IsBlankText [' '] := Text.isBlankText_replicate (by decide) 1
  have trimmed : Text.trim ([' '] ++ quote value) = quote value := by
    rw [Text.trim_append_of_blank space, (isTrimmed_quote value).trim_eq]
  rw [← List.singleton_append, trimmed, stripQuotes_quote]

theorem isOneLine_quote {value : Text} (oneLine : Text.IsOneLine value) :
    Text.IsOneLine (quote value) := by
  have mark : Text.IsOneLine ['"'] := by decide
  exact (mark.append oneLine).append mark

theorem isOneLine_scalarLine {key value : Text} (keyOneLine : Text.IsOneLine key)
    (valueOneLine : Text.IsOneLine value) : Text.IsOneLine (scalarLine key value) := by
  have mark : Text.IsOneLine ": ".toList := by decide
  exact (keyOneLine.append mark).append (isOneLine_quote valueOneLine)

theorem isInside_entryLine {pair : Text × Text} (named : isPropKey pair.1 = true)
    (oneLine : Text.IsOneLine pair.2) : IsInside (entryLine pair) := by
  have indentation : Text.IsOneLine "  ".toList := by decide
  have key : Text.IsOneLine pair.1 := fun char member =>
    isLineBreak_eq_false_of_isNameChar (isNameChar_of_mem_propKey named member)
  exact ⟨by simp [entryLine], indentation.append (isOneLine_scalarLine key oneLine)⟩

/-! ### The closing line -/

theorem afterClosing?_eq_none {text : Text} (start : text.head? ≠ some '-') :
    afterClosing? text = none := by
  have noLead : Text.afterLead? ['-', '-', '-'] text = none := by
    cases text with
    | nil => rfl
    | cons char rest =>
        have apart : '-' ≠ char := by
          rintro rfl
          exact start rfl
        simp [Text.afterLead?, apart]
  rw [afterClosing?, afterRule?, noLead]

theorem splitAtClosing?_cons {lineStart : Bool} {char : Char} {rest : Text}
    (inside : lineStart = true → afterClosing? (char :: rest) = none) :
    splitAtClosing? lineStart (char :: rest) =
      (splitAtClosing? (char == '\n') rest).map fun (front, body) => (char :: front, body) := by
  rw [splitAtClosing?]
  cases lineStart with
  | false =>
      simp only [Bool.false_eq_true, ↓reduceIte]
      cases splitAtClosing? (char == '\n') rest <;> rfl
  | true =>
      simp only [↓reduceIte, inside rfl]
      cases splitAtClosing? (char == '\n') rest <;> rfl

theorem splitAtClosing?_append {lineStart : Bool} {line : Text} (noLineFeed : '\n' ∉ line)
    {rest : Text} (inside : lineStart = true → afterClosing? (line ++ '\n' :: rest) = none) :
    splitAtClosing? lineStart (line ++ '\n' :: rest) =
      (splitAtClosing? true rest).map fun (front, body) => (line ++ '\n' :: front, body) := by
  induction line generalizing lineStart with
  | nil => exact splitAtClosing?_cons inside
  | cons char others ih =>
      rw [List.mem_cons, not_or] at noLineFeed
      have sameLine : (char == '\n') = false := by simpa using Ne.symm noLineFeed.1
      rw [List.cons_append] at inside ⊢
      rw [splitAtClosing?_cons inside, sameLine, ih noLineFeed.2 (fun starts => by cases starts),
        Option.map_map]
      rfl

theorem splitAtClosing?_line {line : Text} (isInside : IsInside line) (rest : Text) :
    splitAtClosing? true (line ++ '\n' :: rest) =
      (splitAtClosing? true rest).map fun (front, body) => (line ++ '\n' :: front, body) := by
  apply splitAtClosing?_append (isInside.oneLine.not_mem (by decide))
  intro _
  apply afterClosing?_eq_none
  cases line with
  | nil => simp
  | cons char others => exact isInside.start

theorem splitAtClosing?_endLines {lines : List Text} (inside : ∀ line ∈ lines, IsInside line)
    (rest : Text) :
    splitAtClosing? true (Text.endLines lines ++ ("---\n".toList ++ rest)) =
      some (Text.endLines lines, '\n' :: rest) := by
  induction lines with
  | nil => rfl
  | cons line others ih =>
      have later := ih fun other member => inside other (List.mem_cons_of_mem _ member)
      rw [Text.endLines_cons, List.append_assoc, List.cons_append,
        splitAtClosing?_line (inside line List.mem_cons_self), later]
      rfl

/-- Lines between two rules are front matter, and what stands below is the body. -/
theorem split?_endLines {lines : List Text} (inside : ∀ line ∈ lines, IsInside line)
    (rest : Text) :
    split? ("---\n".toList ++ Text.endLines lines ++ ("---\n".toList ++ rest)) =
      some (Text.endLines lines, Text.trim rest) := by
  have opened (text : Text) : afterOpening? ("---\n".toList ++ text) = some text := rfl
  have start (text : Text) :
      (("---\n".toList ++ text).dropWhile (· == '\uFEFF')).dropWhile Text.isBlank =
        "---\n".toList ++ text := rfl
  have trimmed : Text.trim ('\n' :: rest) = Text.trim rest :=
    Text.trim_append_of_blank Text.isBlankText_lineFeed rest
  rw [split?, List.append_assoc, start, opened]
  simp only [splitAtClosing?_endLines inside, trimmed]

/-! ### Scalars -/

theorem scalarHere?_scalarLine (key : Text) {value : Text} (oneLine : Text.IsOneLine value)
    (rest : Text) : scalarHere? key (scalarLine key value ++ '\n' :: rest) = some value := by
  have shape : scalarLine key value ++ '\n' :: rest =
      (key ++ [':']) ++ (' ' :: '"' :: (value ++ ['"'] ++ '\n' :: rest)) := by
    simp [scalarLine, quote]
  have lead := Text.afterLead?_eq_some_iff.mpr shape
  have noLineFeed : '\n' ∉ value ++ ['"'] := fun member =>
    (isOneLine_quote oneLine).not_mem (by decide) (List.mem_cons_of_mem _ member)
  have line := Text.takeWhile_bne_append_cons noLineFeed rest
  have dropped : (' ' :: '"' :: (value ++ ['"'] ++ '\n' :: rest)).dropWhile Text.isSpaceOrTab =
      '"' :: (value ++ ['"'] ++ '\n' :: rest) := rfl
  have stripped : stripQuotes (Text.trim (quote value)) = value := by
    rw [(isTrimmed_quote value).trim_eq, stripQuotes_quote]
  rw [scalarHere?, lead]
  simp only [dropped, line]
  exact congrArg some stripped

theorem scalarFrom?_cons {key : Text} {lineStart : Bool} {char : Char} {rest : Text}
    (silent : lineStart = true → scalarHere? key (char :: rest) = none) :
    scalarFrom? key lineStart (char :: rest) = scalarFrom? key (char == '\n') rest := by
  rw [scalarFrom?]
  cases lineStart with
  | false => rfl
  | true =>
      simp only [↓reduceIte, silent rfl]

/-- A line that gives no value to a key is passed over. -/
theorem scalarFrom?_append {key : Text} {lineStart : Bool} {line : Text}
    (noLineFeed : '\n' ∉ line) {rest : Text}
    (silent : lineStart = true → scalarHere? key (line ++ '\n' :: rest) = none) :
    scalarFrom? key lineStart (line ++ '\n' :: rest) = scalarFrom? key true rest := by
  induction line generalizing lineStart with
  | nil => exact scalarFrom?_cons silent
  | cons char others ih =>
      rw [List.mem_cons, not_or] at noLineFeed
      have sameLine : (char == '\n') = false := by simpa using Ne.symm noLineFeed.1
      rw [List.cons_append] at silent ⊢
      rw [scalarFrom?_cons silent, sameLine]
      exact ih noLineFeed.2 fun starts => by cases starts

theorem scalarFrom?_scalarLine (key : Text) {value : Text} (oneLine : Text.IsOneLine value)
    (rest : Text) :
    scalarFrom? key true (scalarLine key value ++ '\n' :: rest) = some value := by
  have here := scalarHere?_scalarLine key oneLine rest
  cases whole : scalarLine key value ++ '\n' :: rest with
  | nil => simp at whole
  | cons char others =>
      rw [whole] at here
      rw [scalarFrom?]
      simp only [↓reduceIte, here]

/-! ### Maps -/

theorem mapEntry?_entryLine {pair : Text × Text} (named : isPropKey pair.1 = true) :
    mapEntry? (entryLine pair) = some pair := by
  obtain ⟨key, value⟩ := pair
  have ends : EndsName (": ".toList ++ quote value) := endsName_cons (by decide) _
  have taken : takeKey? (key ++ (": ".toList ++ quote value)) =
      some (key, ": ".toList ++ quote value) := takeName?_append named ends
  have shape : entryLine (key, value) = ' ' :: ' ' :: (key ++ (": ".toList ++ quote value)) := by
    simp [entryLine, scalarLine]
  cases key with
  | nil => cases named
  | cons first others =>
      have plain : Text.isAsciiBlank first = false :=
        isAsciiBlank_eq_false_of_isNameChar (isNameChar_of_mem_propKey named List.mem_cons_self)
      have blank : Text.isAsciiBlank ' ' = true := by decide
      rw [List.cons_append] at taken shape
      unfold mapEntry?
      rw [shape]
      simp only [List.takeWhile_cons, List.dropWhile_cons, blank, plain, Bool.false_eq_true,
        ↓reduceIte, taken]
      rw [if_neg (by simp)]
      exact congrArg (fun read => some (first :: others, read)) (stripQuotes_trim_quote value)

theorem isMapHeader_entryLine {char : Char} (notBlank : char ≠ ' ') (rest : Text)
    (pair : Text × Text) : isMapHeader (char :: rest) (entryLine pair) = false := by
  simp [isMapHeader, entryLine, Text.afterLead?, notBlank]

theorem mapPairs_entryLines {char : Char} (notBlank : char ≠ ' ') (name : Text)
    {pairs : List (Text × Text)} (named : ∀ pair ∈ pairs, isPropKey pair.1 = true) :
    mapPairs (char :: name) true (pairs.map entryLine) = pairs := by
  induction pairs with
  | nil => rfl
  | cons pair rest ih =>
      have entry := mapEntry?_entryLine (named pair List.mem_cons_self)
      have later := ih fun other member => named other (List.mem_cons_of_mem _ member)
      simp only [List.map_cons, mapPairs, isMapHeader_entryLine notBlank name, entry, later,
        Bool.false_eq_true, ↓reduceIte]

end DocComponents.FrontMatter
