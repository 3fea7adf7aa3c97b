import DocComponents.Proofs.Identifier
import DocComponents.Proofs.Text.Lead
import DocComponents.Script.Statement

/-!
# Statements and the blanks around them

No token begins or ends with a blank, so blanks at either end of a line do not change the statement
on it. A line with a statement begins with a token and not with a comment.
-/

set_option autoImplicit false

namespace DocComponents.Script

theorem isBlank_of_isGap {char : Char} (gap : isGap char = true) : Text.isBlank char = true := by
  simp only [isGap, Bool.or_eq_true, beq_iff_eq] at gap
  rcases gap with (rfl | rfl) | rfl <;> decide

theorem isGap_of_isSpaceOrTab {char : Char} (space : Text.isSpaceOrTab char = true) :
    isGap char = true := by
  simp only [Text.isSpaceOrTab, Bool.or_eq_true, beq_iff_eq] at space
  rcases space with rfl | rfl <;> decide

private theorem marks_not_blank : "\"'#().,=[]".toList.any Text.isBlank = false := by
  decide

theorem not_mark_of_isBlank {char mark : Char} (blank : Text.isBlank char = true)
    (isMark : mark ∈ "\"'#().,=[]".toList) : char ≠ mark := by
  rintro rfl
  have found := List.any_eq_true.mpr ⟨char, isMark, blank⟩
  rw [marks_not_blank] at found
  cases found

theorem isAsciiWord_eq_false_of_isBlank {char : Char} (blank : Text.isBlank char = true) :
    Text.isAsciiWord char = false := by
  by_contra word
  have named := isNameChar_of_isAsciiWord (by simpa using word)
  rw [isBlank_eq_false_of_isNameChar named] at blank
  cases blank

theorem takeToken?_cons_of_isBlank {char : Char} (blank : Text.isBlank char = true) (rest : Text) :
    takeToken? (char :: rest) = none := by
  have double : char ≠ '"' := not_mark_of_isBlank blank (by decide)
  have single : char ≠ '\'' := not_mark_of_isBlank blank (by decide)
  have noSign : ¬ "().,=[]".toList.contains char = true := by
    have marks : "\"'#().,=[]".toList = "\"'#".toList ++ "().,=[]".toList := by decide
    rw [List.contains_iff_mem]
    intro sign
    have isMark : char ∈ "\"'#().,=[]".toList := marks ▸ List.mem_append_right _ sign
    exact not_mark_of_isBlank blank isMark rfl
  rw [takeToken?, if_neg (by simp [double, single]),
    if_neg (by simp [isAsciiWord_eq_false_of_isBlank blank]), if_neg noSign]

theorem tokensFrom?_blanks {blanks : Text} (allBlank : Text.IsBlankText blanks)
    {tokens : List Token} (read : tokensFrom? 0 blanks = some tokens) : tokens = [] := by
  induction blanks with
  | nil => exact (Option.some.inj read).symm
  | cons char rest ih =>
      have blank := allBlank char List.mem_cons_self
      unfold tokensFrom? at read
      rw [if_neg (not_mark_of_isBlank blank (by decide))] at read
      split at read
      · exact ih (fun other member => allBlank other (List.mem_cons_of_mem _ member)) read
      · rw [takeToken?_cons_of_isBlank blank] at read
        cases read

private theorem takeWhile_append_of_neg {inClass : Char → Bool} {text behind : Text}
    (outside : ∀ char ∈ behind, inClass char = false) :
    (text ++ behind).takeWhile inClass = text.takeWhile inClass := by
  induction text with
  | nil =>
      cases behind with
      | nil => rfl
      | cons char rest => simp [outside char List.mem_cons_self]
  | cons char rest ih => simp only [List.cons_append, List.takeWhile_cons, ih]

/-- A token ends before the blanks at the end of a line. -/
theorem takeToken?_append_blanks {char : Char} {rest blanks : Text} {token : Token} {size : Nat}
    (allBlank : Text.IsBlankText blanks)
    (taken : takeToken? (char :: (rest ++ blanks)) = some (token, size)) :
    takeToken? (char :: rest) = some (token, size) ∧ size ≤ rest.length + 1 := by
  rw [takeToken?] at taken ⊢
  split at taken
  · next quote =>
      rw [if_pos quote]
      have isQuote : char = '"' ∨ char = '\'' := by simpa using quote
      have outside : ∀ letter ∈ blanks, letter ≠ char := by
        intro letter member
        rcases isQuote with rfl | rfl
        · exact not_mark_of_isBlank (allBlank letter member) (by decide)
        · exact not_mark_of_isBlank (allBlank letter member) (by decide)
      by_cases closed : char ∈ rest
      · obtain ⟨value, behind, rfl, inside⟩ := List.eq_append_cons_of_mem closed
        simp only [List.append_assoc, List.cons_append,
          Text.takeWhile_bne_append_cons inside] at taken ⊢
        simp at taken ⊢
        exact ⟨taken, by omega⟩
      · have absent : char ∉ rest ++ blanks := by
          intro member
          rcases List.mem_append.mp member with before | behind
          · exact closed before
          · exact outside char behind rfl
        simp [List.takeWhile_eq_self_iff.mpr (Text.forall_bne_of_not_mem absent)] at taken
  · next noQuote =>
      rw [if_neg noQuote]
      split at taken
      · next word =>
          rw [if_pos word]
          rw [takeWhile_append_of_neg fun other member =>
            isAsciiWord_eq_false_of_isBlank (allBlank other member)] at taken
          refine ⟨taken, ?_⟩
          cases taken
          have short := (List.takeWhile_prefix (l := rest) Text.isAsciiWord).length_le
          simpa using short
      · next noWord =>
          rw [if_neg noWord]
          refine ⟨taken, ?_⟩
          split at taken
          · cases taken
            omega
          · cases taken

/-- The tokens of a line are the tokens before the blanks at its end. -/
theorem tokensFrom?_append_blanks {text blanks : Text} (allBlank : Text.IsBlankText blanks)
    {skip : Nat} {tokens : List Token} (inside : skip ≤ text.length)
    (read : tokensFrom? skip (text ++ blanks) = some tokens) :
    tokensFrom? skip text = some tokens := by
  induction text generalizing skip tokens with
  | nil =>
      obtain rfl : skip = 0 := Nat.le_zero.mp inside
      rw [tokensFrom?_blanks allBlank read]
      rfl
  | cons char rest ih =>
      cases skip with
      | succ skip => exact ih (Nat.le_of_succ_le_succ inside) read
      | zero =>
          rw [List.cons_append, tokensFrom?] at read
          rw [tokensFrom?]
          split at read
          · next comment => rwa [if_pos comment]
          · next noComment =>
              rw [if_neg noComment]
              split at read
              · next gap =>
                  rw [if_pos gap]
                  exact ih (Nat.zero_le _) read
              · next noGap =>
                  rw [if_neg noGap]
                  split at read
                  · cases read
                  · next token size taken =>
                      obtain ⟨sameToken, short⟩ := takeToken?_append_blanks allBlank taken
                      rw [sameToken]
                      split at read
                      · next others later =>
                          have short : size - 1 ≤ rest.length := by omega
                          rw [← read]
                          simp only [ih short later]
                      · cases read

theorem readStatement?_eq_some_iff {line : Text} {statement : Statement} :
    readStatement? line = some statement ↔
      '\x00' ∉ line ∧ (tokensFrom? 0 line).bind statement? = some statement := by
  rw [readStatement?, Option.ite_none_left_eq_some, List.contains_iff_mem]

/-- Blanks at the end of a line are no part of its statement. -/
theorem readStatement?_of_append_blanks {text blanks : Text} {statement : Statement}
    (allBlank : Text.IsBlankText blanks)
    (read : readStatement? (text ++ blanks) = some statement) :
    readStatement? text = some statement := by
  obtain ⟨noNull, read⟩ := readStatement?_eq_some_iff.mp read
  obtain ⟨tokens, found, meaning⟩ := Option.bind_eq_some_iff.mp read
  have same := tokensFrom?_append_blanks allBlank (Nat.zero_le _) found
  exact readStatement?_eq_some_iff.mpr ⟨fun inside => noNull (List.mem_append_left _ inside),
    Option.bind_eq_some_iff.mpr ⟨tokens, same, meaning⟩⟩

/-- The blanks between tokens may stand in front of a statement. -/
theorem readStatement?_gaps_append {gaps : Text} (allGaps : ∀ char ∈ gaps, isGap char = true)
    (text : Text) : readStatement? (gaps ++ text) = readStatement? text := by
  have noComment : ∀ char ∈ gaps, char ≠ '#' := by
    rintro char member rfl
    have gap := allGaps '#' member
    revert gap
    decide
  have tokens : tokensFrom? 0 (gaps ++ text) = tokensFrom? 0 text := by
    induction gaps with
    | nil => rfl
    | cons char rest ih =>
        rw [List.cons_append, tokensFrom?, if_neg (noComment char List.mem_cons_self),
          if_pos (allGaps char List.mem_cons_self)]
        exact ih (fun other member => allGaps other (List.mem_cons_of_mem _ member))
          fun other member => noComment other (List.mem_cons_of_mem _ member)
  have noNull : '\x00' ∉ gaps := by
    intro member
    have gap := allGaps '\x00' member
    revert gap
    decide
  have sameNull : (gaps ++ text).contains '\x00' = text.contains '\x00' := by
    simp [noNull]
  rw [readStatement?, tokens, sameNull, readStatement?]

theorem readStatement?_comment (rest : Text) : readStatement? ('#' :: rest) = none := by
  simp [readStatement?, tokensFrom?, statement?]

end DocComponents.Script
