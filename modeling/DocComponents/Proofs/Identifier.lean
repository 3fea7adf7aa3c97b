import DocComponents.Identifier
import DocComponents.Proofs.Text.Lines
import DocComponents.Proofs.Text.Trim

/-! Names as readers take them. A name is taken whole when no name character follows it, and none of
its characters is a blank or ends a line. -/

set_option autoImplicit false

namespace DocComponents

/-- What can stand behind a name without becoming a part of it. -/
def EndsName (rest : Text) : Prop :=
  ∀ char, rest.head? = some char → isNameChar char = false

theorem endsName_nil : EndsName [] := by
  simp [EndsName]

theorem endsName_cons {char : Char} (outside : isNameChar char = false) (rest : Text) :
    EndsName (char :: rest) := by
  intro first found
  cases found
  exact outside

theorem takeName?_append {start : Char → Bool} {name rest : Text}
    (named : isName start name = true) (ends : EndsName rest) :
    takeName? start (name ++ rest) = some (name, rest) := by
  cases name with
  | nil => simp [isName] at named
  | cons char others =>
      simp only [isName, Bool.and_eq_true, List.all_eq_true] at named
      obtain ⟨starts, continued⟩ := named
      have stop : rest.takeWhile isNameChar = [] ∧ rest.dropWhile isNameChar = rest := by
        cases rest with
        | nil => simp
        | cons next tail => simp [ends next rfl]
      rw [List.cons_append, takeName?, if_pos starts, List.takeWhile_append_of_pos continued,
        List.dropWhile_append_of_pos continued, stop.1, stop.2, List.append_nil]

theorem isName_of_takeName? {start : Char → Bool} {text name rest : Text}
    (taken : takeName? start text = some (name, rest)) :
    isName start name = true ∧ text = name ++ rest := by
  cases text with
  | nil => simp [takeName?] at taken
  | cons char others =>
      by_cases starts : start char = true
      · simp only [takeName?, starts, ↓reduceIte, Option.some.injEq, Prod.mk.injEq] at taken
        obtain ⟨rfl, rfl⟩ := taken
        constructor
        · simp only [isName, starts, Bool.true_and, List.all_eq_true]
          exact fun next member => List.mem_takeWhile_imp member
        · simp
      · simp [takeName?, starts] at taken

theorem takeName?_cons_of_not_start {start : Char → Bool} {char : Char}
    (outside : start char = false) (rest : Text) : takeName? start (char :: rest) = none := by
  simp [takeName?, outside]

/-- The code points of name characters: the hyphen, the digits, the letters and the underscore. -/
theorem isNameChar_eq_true_iff {char : Char} :
    isNameChar char = true ↔ char.toNat = 0x2D ∨ 0x30 ≤ char.toNat ∧ char.toNat ≤ 0x39 ∨
      0x41 ≤ char.toNat ∧ char.toNat ≤ 0x5A ∨ char.toNat = 0x5F ∨
        0x61 ≤ char.toNat ∧ char.toNat ≤ 0x7A := by
  have ofPoint (other : Char) : char = other ↔ char.toNat = other.toNat :=
    ⟨congrArg Char.toNat, Char.toNat_inj.mp⟩
  have alpha : char.isAlpha = (char.isUpper || char.isLower) := rfl
  have upper : char.isUpper = decide (char.val ≥ 'A'.val ∧ char.val ≤ 'Z'.val) := rfl
  have lower : char.isLower = (decide (char.val ≥ 'a'.val) && decide (char.val ≤ 'z'.val)) := rfl
  simp only [isNameChar, Text.isAsciiWord, Char.isAlphanum, alpha, upper, lower, Char.isDigit,
    Bool.or_eq_true, Bool.and_eq_true, decide_eq_true_eq, beq_iff_eq, ofPoint, ge_iff_le,
    UInt32.le_iff_toNat_le, Char.toNat]
  simp
  omega

theorem isBlank_eq_false_of_isNameChar {char : Char} (named : isNameChar char = true) :
    Text.isBlank char = false := by
  have points := isNameChar_eq_true_iff.mp named
  simp [Text.isBlank, Text.isSpace, Text.withinRanges]
  omega

theorem isAsciiBlank_eq_false_of_isNameChar {char : Char} (named : isNameChar char = true) :
    Text.isAsciiBlank char = false := by
  have points := isNameChar_eq_true_iff.mp named
  have noSpace : char ≠ ' ' := by
    rintro rfl
    simp at points
  simp [Text.isAsciiBlank, Text.withinRanges, noSpace]
  omega

theorem isLineBreak_eq_false_of_isNameChar {char : Char} (named : isNameChar char = true) :
    Text.isLineBreak char = false := by
  have points := isNameChar_eq_true_iff.mp named
  simp [Text.isLineBreak, Text.withinRanges]
  omega

theorem isNameChar_of_isNameStart {char : Char} (start : isNameStart char = true) :
    isNameChar char = true := by
  simp only [isNameStart, Bool.or_eq_true] at start
  simp only [isNameChar, Text.isAsciiWord, Char.isAlphanum, Bool.or_eq_true]
  rcases start with letter | underscore
  · exact .inl (.inl (.inl letter))
  · exact .inl (.inr underscore)

theorem isNameChar_of_isAsciiWord {char : Char} (word : Text.isAsciiWord char = true) :
    isNameChar char = true := by
  simp [isNameChar, word]

theorem isNameChar_of_mem_name {start : Char → Bool} {name : Text}
    (starts : ∀ char, start char = true → isNameChar char = true)
    (named : isName start name = true) {char : Char} (member : char ∈ name) :
    isNameChar char = true := by
  cases name with
  | nil => cases member
  | cons first rest =>
      simp only [isName, Bool.and_eq_true, List.all_eq_true] at named
      rcases List.mem_cons.mp member with rfl | later
      · exact starts char named.1
      · exact named.2 char later

theorem isNameChar_of_mem_identifier {name : Text} (identifier : isIdentifier name = true)
    {char : Char} (member : char ∈ name) : isNameChar char = true :=
  isNameChar_of_mem_name (fun _ => isNameChar_of_isNameStart) identifier member

theorem isNameChar_of_mem_propKey {key : Text} (named : isPropKey key = true) {char : Char}
    (member : char ∈ key) : isNameChar char = true :=
  isNameChar_of_mem_name (fun _ => isNameChar_of_isAsciiWord) named member

theorem ne_nil_of_isName {start : Char → Bool} {name : Text} (named : isName start name = true) :
    name ≠ [] := by
  rintro rfl
  simp [isName] at named

end DocComponents
