import DocComponents.Proofs.Style.Rescoping

/-!
# Selector lists piece by piece

When the text before a selector list goes into it, the first selector of the list carries on the
last part of that text, and the parts behind it follow. What scoping makes of the list is then told
by the nesting that the text before it leaves open.
-/

set_option autoImplicit false

namespace DocComponents.Selector

open Text (IsBlankText)

/-! ## Parts of a text in two pieces -/

theorem Nesting.step_of_separates {nesting : Nesting} {char : Char}
    (separates : nesting.separates char = true) : nesting.step char = nesting := by
  have isComma : char = ',' := by
    simp only [Nesting.separates, Bool.and_eq_true, decide_eq_true_eq] at separates
    exact separates.1.1
  rw [Nesting.eq_empty_of_separates separates, isComma]
  rfl

/-- The last part of one text is carried on by the first part of the text behind it. -/
theorem rawParts_append {nesting : Nesting} {left right last part : Text}
    {before parts : List Text} (foundLeft : rawParts nesting left = before ++ [last])
    (foundRight : rawParts (nesting.after left) right = part :: parts) :
    rawParts nesting (left ++ right) = before ++ (last ++ part) :: parts := by
  induction left generalizing nesting before last with
  | nil =>
      have alone : before = [] ∧ last = [] := by
        cases before with
        | nil => simpa [rawParts, eq_comm] using foundLeft
        | cons first others => simp [rawParts] at foundLeft
      rw [alone.1, alone.2]
      exact foundRight
  | cons char rest ih =>
      unfold rawParts at foundLeft
      rw [List.cons_append, rawParts]
      split at foundLeft
      · next separates =>
          rw [if_pos separates]
          cases before with
          | nil => simp [rawParts_ne_nil] at foundLeft
          | cons first others =>
              obtain ⟨rfl, found⟩ := List.cons.inj foundLeft
              rw [Nesting.after_cons, Nesting.step_of_separates separates] at foundRight
              rw [ih found foundRight]
              rfl
      · next inside =>
          rw [if_neg inside]
          obtain ⟨head, tail, found⟩ :=
            List.exists_cons_of_ne_nil (rawParts_ne_nil (nesting.step char) rest)
          rw [found] at foundLeft
          cases before with
          | nil =>
              obtain ⟨same, nothing⟩ := List.cons.inj foundLeft
              have start : rawParts (nesting.step char) rest = [] ++ [head] := by
                rw [found, nothing]
                rfl
              rw [ih start foundRight, ← same]
              rfl
          | cons first others =>
              obtain ⟨same, later⟩ := List.cons.inj foundLeft
              have start : rawParts (nesting.step char) rest = (head :: others) ++ [last] := by
                rw [found, later]
                rfl
              rw [ih start foundRight, ← same]
              rfl

/-- The parts with a comma before each of them. -/
def commaLed (parts : List Text) : Text :=
  parts.flatMap fun part => ',' :: part

/-- A text is its parts with the separating commas between them. -/
theorem eq_append_commaLed {nesting : Nesting} {text part : Text} {parts : List Text}
    (found : rawParts nesting text = part :: parts) : text = part ++ commaLed parts := by
  induction text generalizing nesting part parts with
  | nil =>
      obtain ⟨rfl, rfl⟩ : part = [] ∧ parts = [] := by simpa [rawParts, eq_comm] using found
      rfl
  | cons char rest ih =>
      obtain ⟨head, tail, later⟩ := List.exists_cons_of_ne_nil (rawParts_ne_nil nesting rest)
      unfold rawParts at found
      split at found
      · next separates =>
          have isComma : char = ',' := by
            simp only [Nesting.separates, Bool.and_eq_true, decide_eq_true_eq] at separates
            exact separates.1.1
          obtain ⟨rfl, rfl⟩ := List.cons.inj found
          rw [later, isComma, ih later]
          rfl
      · obtain ⟨first, others, behind⟩ :=
          List.exists_cons_of_ne_nil (rawParts_ne_nil (nesting.step char) rest)
        rw [behind] at found
        obtain ⟨rfl, rfl⟩ := List.cons.inj found
        rw [ih behind]
        rfl

/-- A text that holds more than blanks and commas holds a selector. -/
theorem split_ne_nil {text : Text} {char : Char} (member : char ∈ text)
    (noComma : char ≠ ',') (plain : Text.isBlank char = false) : split text ≠ [] := by
  intro noSelectors
  have blank : ∀ part ∈ rawParts {} text, IsBlankText part := by
    intro part isPart
    obtain ⟨before, after, whole, blankBefore, blankAfter⟩ := Text.exists_blanks_around_trim part
    have empty : Text.trim part = [] := by
      by_contra notEmpty
      have kept : Text.trim part ∈ split text :=
        List.mem_filter.mpr ⟨List.mem_map_of_mem isPart, by simpa using notEmpty⟩
      rw [noSelectors] at kept
      cases kept
    rw [whole, empty, List.append_nil]
    exact blankBefore.append blankAfter
  obtain ⟨part, parts, found⟩ := List.exists_cons_of_ne_nil (rawParts_ne_nil {} text)
  have inParts : ∃ isPart ∈ part :: parts, char ∈ isPart := by
    rw [eq_append_commaLed found, List.mem_append, commaLed, List.mem_flatMap] at member
    rcases member with first | ⟨other, later, inside⟩
    · exact ⟨part, List.mem_cons_self, first⟩
    · exact ⟨other, List.mem_cons_of_mem _ later, List.mem_of_ne_of_mem noComma inside⟩
  obtain ⟨other, isPart, inside⟩ := inParts
  rw [blank other (found ▸ isPart) char inside] at plain
  cases plain

/-! ## What scoping makes of the parts -/

/-- The selectors of parts that stand behind others, scoped. -/
def follow (lead : Text) (parts : List Text) : Text :=
  (trimmedParts parts).flatMap fun selector => ',' :: ' ' :: scope lead selector

/-- The parts of a text that carries on a selector, scoped: its first part goes to that selector. -/
def carry (lead : Text) : List Text → Text
  | [] => []
  | part :: parts => Text.trimEnd Text.isBlank part ++ follow lead parts

@[simp]
theorem follow_nil (lead : Text) : follow lead [] = [] := rfl

theorem follow_cons_of_blank {part : Text} (blank : Text.trim part = []) (lead : Text)
    (parts : List Text) : follow lead (part :: parts) = follow lead parts := by
  rw [follow, trimmedParts_cons, if_pos (by simp [blank]), follow]

theorem follow_cons {part : Text} (plain : Text.trim part ≠ []) (lead : Text)
    (parts : List Text) :
    follow lead (part :: parts) =
      ',' :: ' ' :: (scope lead (Text.trim part) ++ follow lead parts) := by
  rw [follow, trimmedParts_cons, if_neg (by simpa using plain), List.flatMap_cons, follow]
  rfl

theorem trimmedParts_append (left right : List Text) :
    trimmedParts (left ++ right) = trimmedParts left ++ trimmedParts right := by
  simp [trimmedParts]

theorem follow_append (lead : Text) (left right : List Text) :
    follow lead (left ++ right) = follow lead left ++ follow lead right := by
  rw [follow, trimmedParts_append, List.flatMap_append, follow, follow]

theorem follow_eq_join {parts : List Text} (hasSelectors : trimmedParts parts ≠ [])
    (lead : Text) :
    follow lead parts =
      ',' :: ' ' :: Text.join [',', ' '] ((trimmedParts parts).map (scope lead)) := by
  unfold follow
  generalize trimmedParts parts = selectors at hasSelectors
  induction selectors with
  | nil => exact absurd rfl hasSelectors
  | cons selector others ih =>
      cases others with
      | nil => simp [Text.join]
      | cons next later =>
          rw [List.flatMap_cons, ih (by simp)]
          simp [Text.join]

/-- Scoping what carries on a selector brings in nothing but the lead, commas and spaces. -/
theorem mem_carry {lead text : Text} {nesting : Nesting} {char : Char}
    (member : char ∈ carry lead (rawParts nesting text)) :
    char ∈ text ∨ char ∈ lead ∨ char ∈ [',', ' '] := by
  have ofPart : ∀ part ∈ rawParts nesting text, char ∈ part → char ∈ text := fun part isPart =>
    mem_of_mem_rawParts isPart
  obtain ⟨part, parts, found⟩ := List.exists_cons_of_ne_nil (rawParts_ne_nil nesting text)
  rw [found] at ofPart
  rw [found, carry, List.mem_append] at member
  rcases member with first | behind
  · have inside : char ∈ part := by
      obtain ⟨blanks, whole, -⟩ := Text.exists_blanks_behind_trimEnd part
      rw [whole]
      exact List.mem_append_left _ first
    exact .inl (ofPart part List.mem_cons_self inside)
  · obtain ⟨selector, isSelector, inside⟩ := List.mem_flatMap.mp behind
    obtain ⟨source, isSource, rfl⟩ := List.mem_map.mp (List.mem_of_mem_filter isSelector)
    have ofSource : char ∈ Text.trim source → char ∈ text := fun here =>
      ofPart source (List.mem_cons_of_mem _ isSource) (Text.mem_of_mem_trim here)
    simp only [List.mem_cons] at inside ⊢
    rcases inside with comma | space | here
    · exact .inr (.inr (.inl comma))
    · exact .inr (.inr (.inr (.inl space)))
    · rcases scope_eq_or lead (Text.trim source) with same | led
      · exact .inl (ofSource (same ▸ here))
      · rw [led, List.mem_append, List.mem_cons] at here
        rcases here with inLead | space | inSource
        · exact .inr (.inl inLead)
        · exact .inr (.inr (.inr (.inl space)))
        · exact .inl (ofSource inSource)

/-! ## Selectors that hold more than a name -/

/-- The characters that no stop of a keyframe animation holds, besides others. -/
def isStopless (char : Char) : Bool :=
  ['"', '\'', '/', ','].contains char

private theorem apart_of_isStopless {char : Char} (stopless : isStopless char = true) :
    Text.isDigit char = false ∧ char ≠ '%' ∧ char ≠ '.' ∧
      char.toLower ∉ "from".toList ∧ char.toLower ∉ "to".toList := by
  have apart : ['"', '\'', '/', ','].all (fun other =>
      !Text.isDigit other && other != '%' && other != '.' &&
        !List.contains "from".toList other.toLower &&
          !List.contains "to".toList other.toLower) = true := by decide
  have isOne : char ∈ ['"', '\'', '/', ','] := by simpa [isStopless] using stopless
  simpa [and_assoc] using List.all_eq_true.mp apart char isOne

private theorem mem_dropWhile_isDigit {text : Text} {char : Char} (member : char ∈ text)
    (noDigit : Text.isDigit char = false) : char ∈ text.dropWhile Text.isDigit := by
  rw [← List.takeWhile_append_dropWhile (p := Text.isDigit) (l := text)] at member
  rcases List.mem_append.mp member with digits | behind
  · rw [List.mem_takeWhile_imp digits] at noDigit
    cases noDigit
  · exact behind

theorem isKeyframeStop_of_isStopless {selector : Text} {char : Char} (member : char ∈ selector)
    (stopless : isStopless char = true) : isKeyframeStop selector = false := by
  obtain ⟨noDigit, noPercent, noPoint, notFrom, notTo⟩ := apart_of_isStopless stopless
  have noWord : ∀ word : Text, char.toLower ∉ word → (Text.lower selector == word) = false := by
    intro word outside
    rw [beq_eq_false_iff_ne]
    rintro rfl
    exact outside (List.mem_map_of_mem member)
  have behind := mem_dropWhile_isDigit member noDigit
  have noPercentage : isPercentage selector = false := by
    unfold isPercentage
    split
    · next percent => simp [percent, noPercent] at behind
    · next fraction point =>
        have inFraction : char ∈ fraction := by simpa [point, noPoint] using behind
        have inTail := mem_dropWhile_isDigit inFraction noDigit
        have apart : (fraction.dropWhile Text.isDigit == ['%']) = false := by
          rw [beq_eq_false_iff_ne]
          intro percent
          simp [percent, noPercent] at inTail
        simp [apart]
    · simp
  rw [isKeyframeStop, noWord _ notFrom, noWord _ notTo, noPercentage]
  rfl

/-- Whether a selector with more than a name in it is exempt is told before any character that the
lead does not hold. -/
theorem isExempt_append_cons {selector : Text} {char other : Char}
    (member : char ∈ selector ++ [other]) (stopless : isStopless char = true) {lead : Text}
    (notRoot : other ∉ ":root".toList) (notLead : other ∉ lead) (rest : Text) :
    isExempt lead (selector ++ other :: rest) =
      (Text.startsWith selector ":root".toList || Text.startsWith selector lead) := by
  have inside : char ∈ selector ++ other :: rest := by
    simp only [List.mem_append, List.mem_cons] at member ⊢
    rcases member with before | here | nothing
    · exact .inl before
    · exact .inr (.inl here)
    · cases nothing
  rw [isExempt, isKeyframeStop_of_isStopless inside stopless,
    Text.startsWith_append_cons notRoot, Text.startsWith_append_cons notLead, Bool.or_false]

/-- What follows a slash in a selector follows it also when the selector is scoped. -/
theorem scope_append_slash {lead : Text} (noSlash : '/' ∉ lead) (selector rest : Text) :
    scope lead (selector ++ '/' :: rest) = scope lead (selector ++ ['/']) ++ rest := by
  have slash : '/' ∈ selector ++ ['/'] := by simp
  have exempt := isExempt_append_cons slash (by decide) (by decide) noSlash
  unfold scope
  rw [exempt, exempt]
  split <;> simp

theorem exists_last_rawParts (nesting : Nesting) (text : Text) :
    ∃ before last, rawParts nesting text = before ++ [last] := by
  obtain empty | ⟨before, last, found⟩ := (rawParts nesting text).eq_nil_or_concat
  · exact absurd empty (rawParts_ne_nil nesting text)
  · exact ⟨before, last, by simpa using found⟩

/-- Scoping a text that goes on behind a slash is scoping its two pieces, the second one as the
nesting behind the slash has it. -/
theorem carry_append_slash {lead : Text} (noSlash : '/' ∉ lead) (nesting : Nesting)
    (left right : Text) :
    carry lead (rawParts nesting (left ++ '/' :: right)) =
      carry lead (rawParts nesting (left ++ ['/'])) ++
        carry lead (rawParts (nesting.after (left ++ ['/'])) right) := by
  have plain : Text.isBlank '/' = false := by decide
  obtain ⟨before, last, found⟩ := exists_last_rawParts nesting left
  obtain ⟨part, parts, behind⟩ :=
    List.exists_cons_of_ne_nil (rawParts_ne_nil (nesting.after (left ++ ['/'])) right)
  have slashAlone : rawParts (nesting.after left) ['/'] = [['/']] :=
    rawParts_of_holds ⟨by simp [Nesting.separates], trivial⟩
  have start := rawParts_append found slashAlone
  have whole := rawParts_append start behind
  have shape : left ++ '/' :: right = (left ++ ['/']) ++ right := by simp
  have selector : ∀ rest, scope lead (Text.trim (last ++ '/' :: rest)) =
      scope lead (Text.trimStart Text.isBlank last ++ ['/']) ++
        Text.trimEnd Text.isBlank rest := by
    intro rest
    rw [Text.trim_append_cons _ plain, scope_append_slash noSlash]
  have notEmpty : ∀ rest, Text.trim (last ++ '/' :: rest) ≠ [] := by
    intro rest
    simp [Text.trim_append_cons _ plain]
  have nothing : Text.trimEnd Text.isBlank [] = [] := rfl
  rw [shape, start, whole, behind]
  cases before with
  | nil => simp [carry, Text.trimEnd_append_cons _ plain, nothing]
  | cons first others =>
      simp [carry, follow_append, follow_cons (notEmpty _), selector, nothing]

/-! ## Selectors of the result -/

/-- A part that is no selector, or one that stays as it is under a lead. -/
def IsClear (lead part : Text) : Prop :=
  Text.trim part = [] ∨ isExempt lead (Text.trim part) = true

theorem isExempt_trimmedParts_iff {lead : Text} {parts : List Text} :
    (∀ selector ∈ trimmedParts parts, isExempt lead selector = true) ↔
      ∀ part ∈ parts, IsClear lead part := by
  simp only [trimmedParts, List.mem_filter, List.mem_map, Bool.not_eq_true',
    List.isEmpty_eq_false_iff, IsClear, and_imp, forall_exists_index, forall_apply_eq_imp_iff₂,
    or_iff_not_imp_left]

/-- Where nothing is open before a list, its selectors behind the first comma are scoped. -/
theorem rawParts_carry {lead : Text} (isLead : IsLead lead) {part : Text} {parts : List Text}
    (raw : RawParts {} (part :: parts)) :
    ∃ first others, rawParts {} (carry lead (part :: parts) ++ [' ']) = first :: others ∧
      Text.trim first = Text.trim part ∧
      trimmedParts others = (trimmedParts parts).map (scope lead) := by
  have space : IsBlankText [' '] := Text.isBlankText_replicate (by decide) 1
  have holds : ({} : Nesting).Holds part := by
    cases raw <;> assumption
  obtain ⟨behind, whole, blanks⟩ := Text.exists_blanks_behind_trimEnd part
  have start : ({} : Nesting).Holds (Text.trimEnd Text.isBlank part) := by
    rw [whole, Nesting.holds_append] at holds
    exact holds.1
  have valid := Nesting.valid_empty.after (Text.trimEnd Text.isBlank part)
  by_cases noSelectors : trimmedParts parts = []
  · refine ⟨Text.trimEnd Text.isBlank part ++ [' '], [], ?_, ?_, by rw [noSelectors]; rfl⟩
    · have alone : carry lead (part :: parts) = Text.trimEnd Text.isBlank part := by
        simp [carry, follow, noSelectors]
      rw [alone]
      exact rawParts_of_holds ((Nesting.holds_append _ _ _).mpr
        ⟨start, (valid.after_blanks space).2⟩)
    · rw [Text.trim_append_blanks _ space, Text.trim_trimEnd]
  · cases raw with
    | last => exact absurd rfl noSelectors
    | next _ closed later =>
        have ends : ({} : Nesting).after (Text.trimEnd Text.isBlank part) = {} := by
          rw [whole, Nesting.after_append, (valid.after_blanks blanks).1] at closed
          exact closed
        have shape : carry lead (part :: parts) ++ [' '] =
            Text.trimEnd Text.isBlank part ++ ',' ::
              ([' '] ++ Text.join [',', ' '] ((trimmedParts parts).map (scope lead)) ++
                [' ']) := by
          simp [carry, follow_eq_join noSelectors]
        refine ⟨_, _, shape ▸ rawParts_append_comma start ends _, Text.trim_trimEnd part, ?_⟩
        exact split_join (isLead.separable_map_scope (separable_trimmedParts later rfl)) space space

end DocComponents.Selector
