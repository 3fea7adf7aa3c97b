import DocComponents.Proofs.Identifier
import DocComponents.Proofs.Text.Replace
import DocComponents.Toml.Reader
import DocComponents.Toml.Writer
import Mathlib.Tactic.SplitIfs

/-!
# TOML that was written

What is written line by line is read line by line: each line changes what was read so far as the
statement on it does, and comments and empty lines change nothing. A string is read back whatever it
holds.
-/

set_option autoImplicit false

namespace DocComponents.Toml

/-! ### Strings -/

theorem namedChar?_append {digits : Text} {count : Nat} (sized : digits.length = count)
    (rest : Text) : namedChar? count (digits ++ rest) = namedChar? count digits := by
  simp only [namedChar?, List.take_left' sized, List.take_of_length_le (Nat.le_of_eq sized)]

theorem namedChar?_hexadecimal : ∀ point < 0x80,
    (Text.hexadecimal 4 point).length = 4 ∧
      namedChar? 4 (Text.hexadecimal 4 point) = some (Char.ofNat point) := by
  decide

/-- A character of a string is written as an escape of it or as itself. -/
theorem writeChar_cases (char : Char) :
    (∃ escape, writeChar char = '\\' :: escape ∧
      ∀ rest, escape? (escape ++ rest) = some (char, escape.length)) ∨
    writeChar char = [char] ∧ char ≠ '"' ∧ char ≠ '\\' ∧ isIllegal char = false := by
  unfold writeChar
  split_ifs with quote backslash backspace tab lineFeed formFeed return_ control
  · exact .inl ⟨_, rfl, fun rest => by rw [quote]; rfl⟩
  · exact .inl ⟨_, rfl, fun rest => by rw [backslash]; rfl⟩
  · exact .inl ⟨_, rfl, fun rest => by rw [backspace]; rfl⟩
  · exact .inl ⟨_, rfl, fun rest => by rw [tab]; rfl⟩
  · exact .inl ⟨_, rfl, fun rest => by rw [lineFeed]; rfl⟩
  · exact .inl ⟨_, rfl, fun rest => by rw [formFeed]; rfl⟩
  · exact .inl ⟨_, rfl, fun rest => by rw [return_]; rfl⟩
  · refine .inl ⟨_, rfl, fun rest => ?_⟩
    have small : char.toNat < 0x80 := by
      simp at control
      omega
    obtain ⟨sized, named⟩ := namedChar?_hexadecimal char.toNat small
    rw [List.cons_append, escape?, namedChar?_append sized, named, Char.ofNat_toNat]
    simp [sized]
  · refine .inr ⟨rfl, quote, backslash, ?_⟩
    simp at control
    simp [isIllegal]
    omega

theorem basicFrom?_skip (skipped rest : Text) :
    basicFrom? skipped.length (skipped ++ rest) = basicFrom? 0 rest := by
  induction skipped with
  | nil => rfl
  | cons char others ih => exact ih

theorem basicFrom?_flatMap_writeChar (text rest : Text) :
    basicFrom? 0 (text.flatMap writeChar ++ '"' :: rest) = some (text, rest) := by
  induction text with
  | nil => simp [basicFrom?]
  | cons char others ih =>
      rw [List.flatMap_cons, List.append_assoc]
      rcases writeChar_cases char with ⟨escape, written, escapes⟩ | ⟨written, quote, slash, legal⟩
      · rw [written, List.cons_append, basicFrom?, if_neg (by decide), if_pos rfl, escapes]
        simp only [basicFrom?_skip, ih, Option.map_some]
      · rw [written, List.singleton_append, basicFrom?, if_neg quote, if_neg slash,
          if_neg (by simp [legal]), ih]
        rfl

/-- A written string is read back, unless another double quote follows it. -/
theorem string?_writeString (text : Text) {rest : Text} (notQuote : rest.head? ≠ some '"') :
    string? (writeString text ++ rest) = some (text, rest) := by
  have shape : writeString text ++ rest = '"' :: (text.flatMap writeChar ++ '"' :: rest) := by
    simp [writeString]
  rw [shape, string?]
  · exact basicFrom?_flatMap_writeChar text rest
  · intro behind three
    cases text with
    | nil =>
        obtain ⟨_, rfl⟩ := three
        exact notQuote rfl
    | cons char others =>
        rw [List.flatMap_cons] at three
        rcases writeChar_cases char with ⟨escape, written, -⟩ | ⟨written, quote, -⟩
        · simp [written] at three
        · simp [written] at three
          exact quote three.1

theorem legal_of_mem_hexadecimal : ∀ point < 0x80, ∀ digit ∈ Text.hexadecimal 4 point,
    isIllegal digit = false := by
  have legal : ∀ point < 0x80, (Text.hexadecimal 4 point).all (!isIllegal ·) = true := by
    decide
  intro point small digit member
  simpa using List.all_eq_true.mp (legal point small) digit member

theorem legal_of_mem_writeChar {char mark : Char} (member : mark ∈ writeChar char) :
    isIllegal mark = false := by
  have escaped {letter : Char} (legal : isIllegal letter = false)
      (inside : mark ∈ ['\\', letter]) : isIllegal mark = false := by
    simp only [List.mem_cons, List.not_mem_nil, or_false] at inside
    rcases inside with rfl | rfl
    · decide
    · exact legal
  unfold writeChar at member
  split_ifs at member with _ _ _ _ _ _ _ control
  · exact escaped (by decide) member
  · exact escaped (by decide) member
  · exact escaped (by decide) member
  · exact escaped (by decide) member
  · exact escaped (by decide) member
  · exact escaped (by decide) member
  · exact escaped (by decide) member
  · have small : char.toNat < 0x80 := by
      simp at control
      omega
    rcases List.mem_cons.mp member with rfl | later
    · decide
    · rcases List.mem_cons.mp later with rfl | digit
      · decide
      · exact legal_of_mem_hexadecimal _ small mark digit
  · obtain rfl := List.mem_singleton.mp member
    simp at control
    simp [isIllegal]
    omega

theorem legal_of_mem_writeString {text : Text} {mark : Char} (member : mark ∈ writeString text) :
    isIllegal mark = false := by
  simp only [writeString, List.cons_append, List.mem_cons, List.mem_append, List.mem_flatMap,
    List.not_mem_nil, or_false] at member
  rcases member with rfl | ⟨char, -, inside⟩ | rfl
  · decide
  · exact legal_of_mem_writeChar inside
  · decide

/-! ### Lines -/

/-- A key that is written without quotes. -/
structure IsBareKey (key : Text) : Prop where
  ne_nil : key ≠ []
  bare : ∀ char ∈ key, isBareKeyChar char = true

instance (key : Text) : Decidable (IsBareKey key) :=
  decidable_of_iff (key ≠ [] ∧ key.all isBareKeyChar = true)
    ⟨fun ⟨notEmpty, bare⟩ => ⟨notEmpty, List.all_eq_true.mp bare⟩,
      fun key => ⟨key.ne_nil, List.all_eq_true.mpr key.bare⟩⟩

/-- A line that is written as it should be read: a comment stays on its line, and keys need no
quotes. -/
def Line.IsPlain : Line → Prop
  | .comment text => ∀ char ∈ text, isIllegal char = false
  | .blank => True
  | .header key => IsBareKey key
  | .string key _ => IsBareKey key
  | .truth key _ => IsBareKey key

instance : DecidablePred Line.IsPlain
  | .comment text => List.decidableBAll (fun char => isIllegal char = false) text
  | .blank => isTrue trivial
  | .header key => inferInstanceAs (Decidable (IsBareKey key))
  | .string key _ => inferInstanceAs (Decidable (IsBareKey key))
  | .truth key _ => inferInstanceAs (Decidable (IsBareKey key))

/-- What a document is read as after one more line. -/
def Line.apply (reading : Reading) : Line → Option Reading
  | .comment _ => some reading
  | .blank => some reading
  | .header key => reading.settle.openTable [key]
  | .string key value => reading.assign [key] (.text value)
  | .truth key value => reading.assign [key] (.bool value)

theorem ne_of_bare {char mark : Char} (bare : isBareKeyChar char = true)
    (notBare : isBareKeyChar mark = false) : char ≠ mark := by
  rintro rfl
  rw [bare] at notBare
  cases notBare

theorem skipBlanks_cons {char : Char} (inside : Text.isSpaceOrTab char = false) (rest : Text) :
    skipBlanks (char :: rest) = char :: rest :=
  List.dropWhile_cons_of_neg (by simp [inside])

theorem isSpaceOrTab_of_bare {char : Char} (bare : isBareKeyChar char = true) :
    Text.isSpaceOrTab char = false := by
  have notSpace : char ≠ ' ' := ne_of_bare bare (by decide)
  have notTab : char ≠ '\t' := ne_of_bare bare (by decide)
  simp [Text.isSpaceOrTab, notSpace, notTab]

theorem keyPart?_bare {key : Text} (isBare : IsBareKey key) {mark : Char}
    (ends : isBareKeyChar mark = false) (rest : Text) :
    keyPart? (key ++ mark :: rest) = some (key, mark :: rest) := by
  have taken : (key ++ mark :: rest).takeWhile isBareKeyChar = key := by
    rw [List.takeWhile_append_of_pos isBare.bare, List.takeWhile_cons_of_neg (by simp [ends]),
      List.append_nil]
  have dropped : (key ++ mark :: rest).dropWhile isBareKeyChar = mark :: rest := by
    rw [List.dropWhile_append_of_pos isBare.bare, List.dropWhile_cons_of_neg (by simp [ends])]
  obtain ⟨first, others, rfl⟩ := List.exists_cons_of_ne_nil isBare.ne_nil
  have bare := isBare.bare first List.mem_cons_self
  rw [List.cons_append] at taken dropped ⊢
  unfold keyPart?
  split
  · next same => exact absurd (List.cons.inj same).1 (ne_of_bare bare (by decide))
  · next same => exact absurd (List.cons.inj same).1 (ne_of_bare bare (by decide))
  · next same =>
      obtain ⟨rfl, -⟩ := List.cons.inj same
      rw [if_pos bare, taken, dropped]
  · next same => cases same

theorem key?_bare {key : Text} (isBare : IsBareKey key) {mark : Char}
    (ends : isBareKeyChar mark = false) {rest behind : Text}
    (skipped : skipBlanks (mark :: rest) = behind) (noDot : behind.head? ≠ some '.')
    (fuel : Nat) : key? (fuel + 1) (key ++ mark :: rest) = some ([key], behind) := by
  rw [key?, keyPart?_bare isBare ends]
  simp only [skipped]
  split
  · next tail => exact absurd rfl noDot
  · rfl

theorem value?_writeString (text rest : Text) (fuel : Nat) :
    value? (fuel + 1) (writeString text ++ '\n' :: rest) = some (.text text, '\n' :: rest) := by
  have read : string? (writeString text ++ '\n' :: rest) = some (text, '\n' :: rest) :=
    string?_writeString text (by simp)
  have shape : writeString text ++ '\n' :: rest =
      '"' :: (text.flatMap writeChar ++ ['"'] ++ '\n' :: rest) := rfl
  rw [shape] at read ⊢
  rw [value?, read]
  rfl

theorem value?_writeBool (value : Bool) (rest : Text) (fuel : Nat) :
    value? (fuel + 1) (writeBool value ++ '\n' :: rest) = some (.bool value, '\n' :: rest) := by
  cases value with
  | true => rfl
  | false => rfl

theorem statement?_assignment {key written rest : Text} {value : Data} {fuel : Nat}
    (isBare : IsBareKey key)
    (read : value? (fuel + 1) (skipBlanks (written ++ '\n' :: rest)) = some (value, '\n' :: rest))
    (reading : Reading) :
    statement? (fuel + 1) reading (key ++ " = ".toList ++ written ++ '\n' :: rest) =
      (reading.assign [key] value).map fun next => (next, '\n' :: rest) := by
  have shape : key ++ " = ".toList ++ written ++ '\n' :: rest =
      key ++ ' ' :: ('=' :: ' ' :: (written ++ '\n' :: rest)) := by
    simp
  have skipped : skipBlanks (' ' :: ('=' :: ' ' :: (written ++ '\n' :: rest))) =
      '=' :: ' ' :: (written ++ '\n' :: rest) := rfl
  have taken := key?_bare isBare (by decide) skipped (by simp) fuel
  obtain ⟨first, others, rfl⟩ := List.exists_cons_of_ne_nil isBare.ne_nil
  have bare := isBare.bare first List.mem_cons_self
  rw [shape]
  rw [List.cons_append] at taken ⊢
  unfold statement?
  split
  · next same => exact absurd (List.cons.inj same).1 (ne_of_bare bare (by decide))
  · next same => exact absurd (List.cons.inj same).1 (ne_of_bare bare (by decide))
  · next same => exact absurd (List.cons.inj same).1 (ne_of_bare bare (by decide))
  · rw [taken]
    have sign : skipBlanks (' ' :: (written ++ '\n' :: rest)) =
        skipBlanks (written ++ '\n' :: rest) := rfl
    simp only [sign, read, Option.bind_eq_bind, Option.bind_some]
    cases reading.assign [first :: others] value <;> rfl

theorem statement?_header {key rest : Text} (isBare : IsBareKey key) (reading : Reading)
    (fuel : Nat) :
    statement? (fuel + 1) reading ('[' :: key ++ [']'] ++ '\n' :: rest) =
      (reading.settle.openTable [key]).map fun next => (next, '\n' :: rest) := by
  have ends : isBareKeyChar ']' = false := by decide
  have taken := key?_bare isBare ends (skipBlanks_cons (by decide) ('\n' :: rest)) (by simp) fuel
  have shape : '[' :: key ++ [']'] ++ '\n' :: rest = '[' :: (key ++ ']' :: '\n' :: rest) := by
    simp
  have opened : skipBlanks (key ++ ']' :: '\n' :: rest) = key ++ ']' :: '\n' :: rest := by
    obtain ⟨first, others, rfl⟩ := List.exists_cons_of_ne_nil isBare.ne_nil
    exact skipBlanks_cons (isSpaceOrTab_of_bare (isBare.bare first List.mem_cons_self)) _
  rw [shape]
  unfold statement?
  split
  · next same =>
      obtain ⟨first, others, rfl⟩ := List.exists_cons_of_ne_nil isBare.ne_nil
      have second := (List.cons.inj (List.cons.inj same).2).1
      exact absurd second (ne_of_bare (isBare.bare first List.mem_cons_self) (by decide))
  · next same =>
      obtain ⟨-, rfl⟩ := List.cons.inj same
      simp only [opened, taken, Option.bind_eq_bind, Option.bind_some]
      cases reading.settle.openTable [key] <;> rfl
  · next same => cases same
  · next _ opens _ => exact (opens _ rfl).elim

/-- Where a statement stands, it is read, and the reading goes on below it. -/
theorem statements?_statement {first : Char} {others behind rest : Text} {size : Nat}
    {reading : Reading} {applied : Option Reading} (notBlank : Text.isSpaceOrTab first = false)
    (notFeed : first ≠ '\n')
    (stated : statement? size reading (first :: others) =
      applied.map fun next => (next, behind))
    (below : afterComment? (skipBlanks behind) = some ('\n' :: rest)) (fuel : Nat) :
    statements? size (fuel + 1) reading (first :: others) =
      applied.bind fun next => statements? size fuel next rest := by
  rw [statements?, skipBlanks_cons notBlank]
  split
  · next same => cases same
  · next same => exact absurd (List.cons.inj same).1 notFeed
  · rw [stated]
    cases applied with
    | none => rfl
    | some next => simp only [Option.map_some, below, Option.bind_some]

theorem statements?_comment {text : Text} (legal : ∀ char ∈ text, isIllegal char = false)
    (reading : Reading) (rest : Text) (size fuel : Nat) :
    statements? size (fuel + 1) reading ('#' :: ' ' :: text ++ '\n' :: rest) =
      statements? size fuel reading rest := by
  have noLineFeed : '\n' ∉ ' ' :: text := by
    intro member
    rcases List.mem_cons.mp member with same | later
    · cases same
    · exact absurd (legal _ later) (by decide)
  have noIllegal : (' ' :: text).any isIllegal = false := by
    rw [List.any_eq_false]
    intro char member
    rcases List.mem_cons.mp member with rfl | later
    · decide
    · simp [legal char later]
  have below : afterComment? ('#' :: (' ' :: text ++ '\n' :: rest)) = some ('\n' :: rest) := by
    rw [afterComment?, Text.takeWhile_bne_append_cons noLineFeed,
      Text.dropWhile_bne_append_cons noLineFeed, if_neg (by simp [noIllegal])]
  have kept : skipBlanks ('#' :: (' ' :: text ++ '\n' :: rest)) =
      '#' :: (' ' :: text ++ '\n' :: rest) := skipBlanks_cons (by decide) _
  have stated : statement? size reading ('#' :: (' ' :: text ++ '\n' :: rest)) =
      (some reading).map fun next => (next, '#' :: (' ' :: text ++ '\n' :: rest)) := rfl
  exact statements?_statement (by decide) (by decide) stated (kept.symm ▸ below) fuel

/-- A line does to the document what the line is for. -/
theorem statements?_line {line : Line} (isPlain : line.IsPlain) (reading : Reading) (rest : Text)
    (size fuel : Nat) :
    statements? (size + 1) (fuel + 1) reading (line.write ++ '\n' :: rest) =
      (line.apply reading).bind fun next => statements? (size + 1) fuel next rest := by
  cases line with
  | comment text => exact statements?_comment isPlain reading rest (size + 1) fuel
  | blank => rfl
  | header key =>
      exact statements?_statement (by decide) (by decide)
        (statement?_header isPlain reading size) rfl fuel
  | string key value =>
      have skipped : skipBlanks (writeString value ++ '\n' :: rest) =
          writeString value ++ '\n' :: rest := skipBlanks_cons (by decide) _
      have stated := statement?_assignment isPlain
        (skipped.symm ▸ value?_writeString value rest size) reading
      obtain ⟨first, others, rfl⟩ := List.exists_cons_of_ne_nil isPlain.ne_nil
      have bare := isPlain.bare first List.mem_cons_self
      exact statements?_statement (isSpaceOrTab_of_bare bare) (ne_of_bare bare (by decide))
        stated rfl fuel
  | truth key value =>
      have skipped : skipBlanks (writeBool value ++ '\n' :: rest) =
          writeBool value ++ '\n' :: rest := by
        cases value <;> rfl
      have stated := statement?_assignment isPlain
        (skipped.symm ▸ value?_writeBool value rest size) reading
      obtain ⟨first, others, rfl⟩ := List.exists_cons_of_ne_nil isPlain.ne_nil
      have bare := isPlain.bare first List.mem_cons_self
      exact statements?_statement (isSpaceOrTab_of_bare bare) (ne_of_bare bare (by decide))
        stated rfl fuel

def applyLines (reading : Reading) (lines : List Line) : Option Reading :=
  lines.foldlM Line.apply reading

theorem statements?_writeLines {lines : List Line} (plain : ∀ line ∈ lines, line.IsPlain)
    (reading : Reading) {size fuel : Nat} (enough : lines.length < fuel) :
    statements? (size + 1) fuel reading (writeLines lines) = applyLines reading lines := by
  induction lines generalizing reading fuel with
  | nil =>
      obtain ⟨fuel, rfl⟩ := Nat.exists_eq_succ_of_ne_zero (Nat.ne_zero_of_lt enough)
      rfl
  | cons line others ih =>
      obtain ⟨fuel, rfl⟩ := Nat.exists_eq_succ_of_ne_zero (Nat.ne_zero_of_lt enough)
      have shape : writeLines (line :: others) = line.write ++ '\n' :: writeLines others := by
        simp [writeLines]
      rw [shape, statements?_line (plain line List.mem_cons_self), applyLines, List.foldlM_cons]
      congr 1
      funext next
      exact ih (fun other member => plain other (List.mem_cons_of_mem _ member)) next
        (Nat.lt_of_succ_lt_succ enough)

theorem legal_of_bare {char : Char} (bare : isBareKeyChar char = true) :
    isIllegal char = false := by
  have named : isNameChar char = true := by
    rw [← bare]
    exact Bool.or_right_comm _ _ _
  have points := isNameChar_eq_true_iff.mp named
  simp [isIllegal]
  omega

theorem legal_of_mem_assignment {key written : Text} (isBare : IsBareKey key)
    (legal : ∀ mark ∈ written, isIllegal mark = false) {char : Char}
    (member : char ∈ key ++ " = ".toList ++ written) : isIllegal char = false := by
  have sign : ∀ mark ∈ " = ".toList, isIllegal mark = false := by simp [isIllegal]
  rcases List.mem_append.mp member with lead | value
  · rcases List.mem_append.mp lead with inside | mark
    · exact legal_of_bare (isBare.bare char inside)
    · exact sign char mark
  · exact legal char value

theorem legal_of_mem_write {line : Line} (isPlain : line.IsPlain) {char : Char}
    (member : char ∈ line.write) : isIllegal char = false := by
  cases line with
  | comment text =>
      rcases List.mem_cons.mp member with rfl | later
      · decide
      · rcases List.mem_cons.mp later with rfl | inside
        · decide
        · exact isPlain char inside
  | blank => cases member
  | header key =>
      simp only [Line.write, List.cons_append, List.mem_cons, List.mem_append, List.not_mem_nil,
        or_false] at member
      rcases member with rfl | inside | rfl
      · decide
      · exact legal_of_bare (isPlain.bare char inside)
      · decide
  | string key value =>
      exact legal_of_mem_assignment isPlain (fun mark => legal_of_mem_writeString) member
  | truth key value =>
      have truths : ∀ mark ∈ writeBool value, isIllegal mark = false := by
        cases value <;> simp [writeBool, isIllegal]
      exact legal_of_mem_assignment isPlain truths member

theorem carriageReturn_not_mem_writeLines {lines : List Line}
    (plain : ∀ line ∈ lines, line.IsPlain) : '\r' ∉ writeLines lines := by
  intro member
  obtain ⟨line, isLine, inside⟩ := List.mem_flatMap.mp member
  rcases List.mem_append.mp inside with written | feed
  · exact absurd (legal_of_mem_write (plain line isLine) written) (by decide)
  · exact absurd feed (by decide)

theorem length_le_length_writeLines (lines : List Line) :
    lines.length ≤ (writeLines lines).length := by
  induction lines with
  | nil => exact Nat.le_refl _
  | cons line others ih =>
      have shape : writeLines (line :: others) = line.write ++ '\n' :: writeLines others := by
        simp [writeLines]
      rw [shape, List.length_append, List.length_cons, List.length_cons]
      omega

/-- Plain lines are read one after the other. -/
theorem read_writeLines {lines : List Line} (plain : ∀ line ∈ lines, line.IsPlain) :
    read (writeLines lines) = (applyLines {} lines).map Reading.entries := by
  have kept := Text.replace_of_not_mem (carriageReturn_not_mem_writeLines plain) ['\n'] ['\n']
  have bound := length_le_length_writeLines lines
  rw [read, kept, statements?_writeLines plain {} (by omega)]

end DocComponents.Toml
