import DocComponents.Proofs.Style.Carrying
import Mathlib.Data.List.Forall2

/-!
# Selector lists behind what is left open

The text before a list can leave a quote or a bracket open. Then what opens a quote in the list closes
one for the scan, and the other way round, so the scan is never outside of quotes where the list is:
it finds no comma between selectors, and those it does find stand in quotes. What scoping writes
there makes no selector exempt, and takes no exemption away.
-/

set_option autoImplicit false

namespace DocComponents.Selector

open Text (IsBlankText)

/-! ## Two scans of one text -/

def quoteBehind : Option Char → Char → Option Char
  | some quote, char => if char = quote then none else some quote
  | none, char => if char = '"' ∨ char = '\'' then some char else none

/-- What can stand for the open quote. -/
def IsQuoting (quoting : Option Char) : Prop :=
  quoting = none ∨ quoting = some '"' ∨ quoting = some '\''

/-- A character takes different quotes to different quotes. -/
theorem quoteBehind_ne {left right : Option Char} (quotingLeft : IsQuoting left)
    (quotingRight : IsQuoting right) (apart : left ≠ right) (char : Char) :
    quoteBehind left char ≠ quoteBehind right char := by
  by_cases double : char = '"'
  · rcases quotingLeft with rfl | rfl | rfl <;> rcases quotingRight with rfl | rfl | rfl <;>
      simp_all [quoteBehind]
  · by_cases single : char = '\''
    · rcases quotingLeft with rfl | rfl | rfl <;> rcases quotingRight with rfl | rfl | rfl <;>
        simp_all [quoteBehind]
    · rcases quotingLeft with rfl | rfl | rfl <;> rcases quotingRight with rfl | rfl | rfl <;>
        simp_all [quoteBehind]

theorem Nesting.quote_step (nesting : Nesting) (char : Char) :
    (nesting.step char).quote = quoteBehind nesting.quote char := by
  unfold Nesting.step
  cases found : nesting.quote with
  | some quote => by_cases same : char = quote <;> simp [quoteBehind, same, found]
  | none =>
      by_cases quoting : char = '"' ∨ char = '\''
      · simp [quoteBehind, quoting]
      · rw [quoteBehind, if_neg quoting]
        simp only [Bool.or_eq_true, decide_eq_true_eq, quoting, if_false]
        split
        · rfl
        · split
          · exact found
          · split
            · rfl
            · exact found

theorem Nesting.Valid.isQuoting {nesting : Nesting} (valid : nesting.Valid) :
    IsQuoting nesting.quote := by
  cases found : nesting.quote with
  | none => exact .inl rfl
  | some quote =>
      rcases valid.quote quote found with rfl | rfl
      · exact .inr (.inl rfl)
      · exact .inr (.inr rfl)

/-- Scans that stand in different quotes go on to different quotes. -/
theorem Nesting.Valid.quote_after_ne {left right : Nesting} (validLeft : left.Valid)
    (validRight : right.Valid) (apart : left.quote ≠ right.quote) (text : Text) :
    (left.after text).quote ≠ (right.after text).quote := by
  induction text generalizing left right with
  | nil => exact apart
  | cons char rest ih =>
      apply ih (validLeft.step char) (validRight.step char)
      rw [Nesting.quote_step, Nesting.quote_step]
      exact quoteBehind_ne validLeft.isQuoting validRight.isQuoting apart char

theorem Nesting.Valid.exists_quote_of_after {nesting : Nesting} (valid : nesting.Valid) {text : Text}
    (unquoted : nesting.quote = none) (quoted : (nesting.after text).quote ≠ none) :
    ∃ char ∈ text, char = '"' ∨ char = '\'' := by
  induction text generalizing nesting with
  | nil => exact absurd unquoted quoted
  | cons char rest ih =>
      by_cases quoting : char = '"' ∨ char = '\''
      · exact ⟨char, List.mem_cons_self, quoting⟩
      · have stays : (nesting.step char).quote = none := by
          rw [Nesting.quote_step, unquoted]
          exact if_neg quoting
        obtain ⟨other, member, found⟩ := ih (valid.step char) stays quoted
        exact ⟨other, List.mem_cons_of_mem _ member, found⟩

/-! ## Behind an open bracket -/

/-- Whether a character closes nothing, or what was opened last. -/
def Nesting.fits (nesting : Nesting) (char : Char) : Bool :=
  nesting.quote.isSome || (char != ')' && char != ']') || nesting.closers.head? == some char

/-- Whether a text closes what it opens, and nothing else. -/
def Nesting.balances : Nesting → Text → Bool
  | nesting, [] => nesting == {}
  | nesting, char :: rest => nesting.fits char && (nesting.step char).balances rest

/-- A nesting inside brackets. -/
def Nesting.inside (nesting : Nesting) (closers : List Char) : Nesting :=
  { nesting with closers := nesting.closers ++ closers }

theorem Nesting.step_inside {nesting : Nesting} {char : Char} (fits : nesting.fits char = true)
    {closers : List Char} (valid : ∀ closer ∈ closers, closer = ')' ∨ closer = ']') :
    (nesting.inside closers).step char = (nesting.step char).inside closers := by
  obtain ⟨quote, opened⟩ := nesting
  cases quote with
  | some quote => by_cases same : char = quote <;> simp [Nesting.step, Nesting.inside, same]
  | none =>
      simp only [Nesting.step, Nesting.inside]
      split
      · rfl
      · cases closerOf? char with
        | some closer => rfl
        | none =>
            cases opened with
            | cons closer others => by_cases same : char = closer <;> simp [same]
            | nil =>
                cases closers with
                | nil => rfl
                | cons closer others =>
                    have apart : char ≠ closer := by
                      rcases valid closer List.mem_cons_self with rfl | rfl <;>
                        rintro rfl <;> simp [Nesting.fits] at fits
                    simp [apart]

/-- A balanced text inside brackets holds no separating comma. -/
theorem Nesting.holds_inside {nesting : Nesting} {text : Text}
    (balances : nesting.balances text = true) {closers : List Char} (notEmpty : closers ≠ [])
    (valid : ∀ closer ∈ closers, closer = ')' ∨ closer = ']') :
    (nesting.inside closers).Holds text := by
  induction text generalizing nesting with
  | nil => trivial
  | cons char rest ih =>
      obtain ⟨fits, later⟩ : nesting.fits char = true ∧
          (nesting.step char).balances rest = true := by simpa [Nesting.balances] using balances
      refine ⟨by simp [Nesting.separates, Nesting.inside, notEmpty], ?_⟩
      rw [Nesting.step_inside fits valid]
      exact ih later

/-! ## Leads in quotes -/

/-- A lead that can be written into quotes of any kind. -/
structure IsQuotableLead (lead : Text) : Prop extends IsLead lead where
  compact : ∀ char ∈ lead, char ≠ ',' ∧ Text.isBlank char = false
  stays : ∀ {nesting : Nesting}, nesting.Valid → nesting.quote ≠ none →
    nesting.after lead = nesting ∧ nesting.Holds lead

/-- What a selector is exempt by does not reach over blanks and commas. -/
def IsLoose (text : Text) : Prop :=
  ∀ char, text.head? = some char → char = ',' ∨ Text.isBlank char = true

theorem startsWith_append_of_isLoose {mark : Text}
    (compact : ∀ char ∈ mark, char ≠ ',' ∧ Text.isBlank char = false) (text : Text)
    {rest : Text} (loose : IsLoose rest) :
    Text.startsWith (text ++ rest) mark = Text.startsWith text mark := by
  cases rest with
  | nil => rw [List.append_nil]
  | cons char others =>
      apply Text.startsWith_append_cons
      intro member
      obtain ⟨noComma, noBlank⟩ := compact char member
      rcases loose char rfl with isComma | blank
      · exact noComma isComma
      · rw [blank] at noBlank
        cases noBlank

theorem startsWith_trim {mark : Text}
    (compact : ∀ char ∈ mark, char ≠ ',' ∧ Text.isBlank char = false) (text : Text) :
    Text.startsWith (Text.trim text) mark =
      Text.startsWith (Text.trimStart Text.isBlank text) mark := by
  obtain ⟨after, whole, blanks⟩ :=
    Text.exists_blanks_behind_trimEnd (Text.trimStart Text.isBlank text)
  have loose : IsLoose after := fun char found => .inr (blanks char (List.mem_of_mem_head? found))
  conv_rhs => rw [whole, startsWith_append_of_isLoose compact _ loose]
  rfl

/-- Whether a part with a quote in it is exempt is told before the blanks and commas behind it. -/
theorem isClear_append_iff {lead : Text} (quotable : IsQuotableLead lead) {text : Text}
    {quote : Char} (member : quote ∈ text) (quoting : quote = '"' ∨ quote = '\'') {rest : Text}
    (loose : IsLoose rest) :
    IsClear lead (text ++ rest) ↔
      Text.startsWith (Text.trimStart Text.isBlank text) ":root".toList = true ∨
        Text.startsWith (Text.trimStart Text.isBlank text) lead = true := by
  obtain ⟨before, behind, rfl⟩ := List.append_of_mem member
  have stopless : isStopless quote = true := by rcases quoting with rfl | rfl <;> decide
  have plain : Text.isBlank quote = false := by rcases quoting with rfl | rfl <;> decide
  have root : ":root".toList.all (fun char => char != ',' && !Text.isBlank char) = true := by
    decide
  have start : ∀ mark : Text, (∀ char ∈ mark, char ≠ ',' ∧ Text.isBlank char = false) →
      Text.startsWith (Text.trim (before ++ quote :: (behind ++ rest))) mark =
        Text.startsWith (Text.trimStart Text.isBlank (before ++ quote :: behind)) mark := by
    intro mark compact
    rw [startsWith_trim compact, Text.trimStart_append_cons _ plain,
      Text.trimStart_append_cons _ plain, ← List.cons_append, ← List.append_assoc,
      startsWith_append_of_isLoose compact _ loose]
  have inside : quote ∈ Text.trim (before ++ quote :: (behind ++ rest)) := by
    rw [Text.trim_append_cons _ plain]
    simp
  have notEmpty : Text.trim (before ++ quote :: (behind ++ rest)) ≠ [] := List.ne_nil_of_mem inside
  have rootStart := start ":root".toList fun char here => by
    simpa using List.all_eq_true.mp root char here
  have leadStart := start lead quotable.compact
  rw [IsClear, List.append_assoc, List.cons_append, or_iff_right notEmpty, isExempt,
    isKeyframeStop_of_isStopless inside stopless, rootStart, leadStart, Bool.or_false,
    Bool.or_eq_true]

theorem isClear_append_blanks {lead : Text} (text : Text) {after : Text}
    (blanks : IsBlankText after) : IsClear lead (text ++ after) ↔ IsClear lead text := by
  rw [IsClear, IsClear, Text.trim_append_blanks _ blanks]

/-! ## What scoping writes into quotes -/

/-- Behind a separating comma the scan begins anew. -/
theorem after_last_rawParts {nesting : Nesting} {text last : Text} {before : List Text}
    (found : rawParts nesting text = before ++ [last]) (notFirst : before ≠ []) :
    ({} : Nesting).after last = nesting.after text := by
  induction text generalizing nesting before last with
  | nil =>
      cases before with
      | nil => exact absurd rfl notFirst
      | cons first others => simp [rawParts] at found
  | cons char rest ih =>
      obtain ⟨first, others, rfl⟩ := List.exists_cons_of_ne_nil notFirst
      unfold rawParts at found
      rw [Nesting.after_cons]
      split at found
      · next separates =>
          obtain ⟨rfl, later⟩ := List.cons.inj found
          rw [Nesting.step_of_separates separates]
          by_cases none : others = []
          · have whole := eq_append_commaLed (later.trans (by rw [none]; rfl))
            rw [whole, Nesting.eq_empty_of_separates separates, commaLed, List.flatMap_nil,
              List.append_nil]
          · exact ih later none
      · obtain ⟨head, tail, later⟩ :=
          List.exists_cons_of_ne_nil (rawParts_ne_nil (nesting.step char) rest)
        rw [later] at found
        obtain ⟨rfl, rfl⟩ := List.cons.inj found
        have shape : rawParts (nesting.step char) rest = (head :: others) ++ [last] := later
        exact ih shape (by simp)

/-- Parts of which the same ones are exempt. -/
def SameClear (lead : Text) (parts others : List Text) : Prop :=
  List.Forall₂ (fun part other => IsClear lead part ↔ IsClear lead other) parts others

theorem SameClear.append {lead : Text} (before : List Text) {parts others : List Text}
    (same : SameClear lead parts others) : SameClear lead (before ++ parts) (before ++ others) := by
  induction before with
  | nil => exact same
  | cons part rest ih => exact .cons Iff.rfl ih

theorem SameClear.forall_iff {lead : Text} {parts others : List Text}
    (same : SameClear lead parts others) :
    (∀ part ∈ parts, IsClear lead part) ↔ ∀ other ∈ others, IsClear lead other := by
  induction same with
  | nil => simp
  | cons first _ ih => rw [List.forall_mem_cons, List.forall_mem_cons, first, ih]

/-- Two texts behind one text are told apart only in the part that they carry on. -/
theorem rawParts_append_append {nesting : Nesting} {text left right : Text}
    {leftPart rightPart : Text} {leftParts rightParts : List Text}
    (foundLeft : rawParts (nesting.after text) left = leftPart :: leftParts)
    (foundRight : rawParts (nesting.after text) right = rightPart :: rightParts) :
    ∃ before last, rawParts nesting (text ++ left) = before ++ (last ++ leftPart) :: leftParts ∧
      rawParts nesting (text ++ right) = before ++ (last ++ rightPart) :: rightParts ∧
      (before ≠ [] ∨ nesting = {} → ({} : Nesting).after last = nesting.after text) := by
  obtain ⟨before, last, found⟩ := exists_last_rawParts nesting text
  refine ⟨before, last, rawParts_append found foundLeft, rawParts_append found foundRight, ?_⟩
  intro anew
  by_cases first : before = []
  · have whole : text = last := by
      have shape := eq_append_commaLed (found.trans (by rw [first]; rfl))
      simpa [commaLed] using shape
    rw [anew.resolve_left (not_not.mpr first), whole]
  · exact after_last_rawParts found first

theorem IsLoose.append {rest : Text} (loose : IsLoose rest) {blanks : Text}
    (isBlank : IsBlankText blanks) : IsLoose (blanks ++ rest) := by
  cases blanks with
  | nil => exact loose
  | cons char others =>
      intro first found
      cases found
      exact .inr (isBlank char List.mem_cons_self)

/-- Texts that differ in their first parts, and in which the same other parts are exempt. -/
def Alike (lead : Text) (nesting : Nesting) (left right : Text) : Prop :=
  ∃ leftPart leftParts rightPart rightParts,
    rawParts nesting left = leftPart :: leftParts ∧
      rawParts nesting right = rightPart :: rightParts ∧
      IsLoose leftPart ∧ IsLoose rightPart ∧ SameClear lead leftParts rightParts

/-- Behind a quote, blanks can go and texts can be exchanged for alike ones. -/
theorem Alike.append {lead : Text} (quotable : IsQuotableLead lead) {nesting : Nesting}
    (valid : nesting.Valid) {text left right : Text} (alike : Alike lead (nesting.after text) left right)
    {blanks : Text} (isBlank : IsBlankText blanks)
    (ends : (nesting.after text).quote ≠ none ∨ left = [] ∧ IsBlankText right) :
    ∃ before leftPart rightPart leftParts rightParts,
      rawParts nesting (text ++ (blanks ++ left)) = before ++ leftPart :: leftParts ∧
      rawParts nesting (text ++ right) = before ++ rightPart :: rightParts ∧
      SameClear lead leftParts rightParts ∧
      (before ≠ [] ∨ nesting = {} → (IsClear lead leftPart ↔ IsClear lead rightPart)) := by
  obtain ⟨leftPart, leftParts, rightPart, rightParts, foundLeft, foundRight, looseLeft, looseRight,
    same⟩ := alike
  obtain ⟨blank, stays⟩ := (valid.after text).after_blanks isBlank
  have padded := rawParts_append_of_holds stays (by rw [blank]; exact foundLeft)
  obtain ⟨before, last, wholeLeft, wholeRight, anew⟩ := rawParts_append_append padded foundRight
  refine ⟨before, _, _, _, _, wholeLeft, wholeRight, same, fun begins => ?_⟩
  have scanned := anew begins
  rcases ends with quoted | ⟨rfl, blankRight⟩
  · obtain ⟨quote, member, quoting⟩ := Nesting.valid_empty.exists_quote_of_after rfl
      (by rw [scanned]; exact quoted)
    rw [isClear_append_iff quotable member quoting (looseLeft.append isBlank),
      isClear_append_iff quotable member quoting looseRight]
  · obtain ⟨rfl, -⟩ : leftPart = [] ∧ leftParts = [] := by
      simpa [rawParts, eq_comm] using foundLeft
    rw [rawParts_of_holds ((valid.after text).after_blanks blankRight).2] at foundRight
    obtain ⟨rfl, -⟩ := List.cons.inj foundRight
    rw [List.append_nil, isClear_append_blanks _ isBlank, isClear_append_blanks _ blankRight]

def followOne (lead part : Text) : Text :=
  if Text.trim part = [] then [] else ',' :: ' ' :: scope lead (Text.trim part)

theorem follow_cons_eq (lead part : Text) (parts : List Text) :
    follow lead (part :: parts) = followOne lead part ++ follow lead parts := by
  unfold followOne
  split
  · next blank => exact follow_cons_of_blank blank lead parts
  · next plain => exact follow_cons plain lead parts

theorem Nesting.Valid.step_comma {nesting : Nesting} (valid : nesting.Valid)
    (quoted : nesting.quote ≠ none) :
    nesting.step ',' = nesting ∧ nesting.separates ',' = false := by
  cases found : nesting.quote with
  | none => exact absurd found quoted
  | some quote =>
      have apart : ',' ≠ quote := by
        rcases valid.quote quote found with rfl | rfl <;> decide
      simp [Nesting.step, Nesting.separates, found, apart]

theorem RawParts.exists_cons {nesting : Nesting} {parts : List Text}
    (raw : RawParts nesting parts) : ∃ part others, parts = part :: others := by
  cases raw <;> exact ⟨_, _, rfl⟩

/-- What scoping writes before a selector in quotes means nothing there. -/
theorem exists_followOne {lead : Text} (quotable : IsQuotableLead lead) {nesting : Nesting}
    (valid : nesting.Valid) (quoted : nesting.quote ≠ none) {part : Text}
    (plain : Text.trim part ≠ []) :
    ∃ inserted, followOne lead part = ',' :: (inserted ++ Text.trim part) ∧
      nesting.after (',' :: inserted) = nesting ∧ nesting.Holds (',' :: inserted) := by
  have blank : Text.isBlank ' ' = true := by decide
  obtain ⟨commaStays, commaHolds⟩ := valid.step_comma quoted
  have space := valid.step_blank blank
  have spaceHolds := nesting.separates_blank blank
  obtain ⟨leadStays, leadHolds⟩ := quotable.stays valid quoted
  have one : followOne lead part = ',' :: ' ' :: scope lead (Text.trim part) := if_neg plain
  rcases scope_eq_or lead (Text.trim part) with same | led
  · refine ⟨[' '], by simp [one, same], ?_⟩
    simp [Nesting.Holds, commaStays, commaHolds, space, spaceHolds]
  · refine ⟨' ' :: (lead ++ [' ']), by simp [one, led], ?_⟩
    simp [Nesting.Holds, commaStays, commaHolds, space, spaceHolds, Nesting.after_append,
      Nesting.holds_append, leadStays, leadHolds]

/-- In quotes a comma and blanks mean nothing. -/
theorem Nesting.Valid.after_comma_blanks {nesting : Nesting} (valid : nesting.Valid)
    (quoted : nesting.quote ≠ none) {blanks : Text} (isBlank : IsBlankText blanks) :
    nesting.after (',' :: blanks) = nesting ∧ nesting.Holds (',' :: blanks) := by
  obtain ⟨commaStays, commaHolds⟩ := valid.step_comma quoted
  obtain ⟨stays, holds⟩ := valid.after_blanks isBlank
  rw [Nesting.after_cons, Nesting.Holds, commaStays]
  exact ⟨stays, commaHolds, holds⟩

/-- What means nothing goes to the first part. -/
theorem rawParts_comma_append {nesting : Nesting} {inserted text first : Text} {others : List Text}
    (nothing : nesting.after (',' :: inserted) = nesting ∧ nesting.Holds (',' :: inserted))
    (found : rawParts nesting text = first :: others) :
    rawParts nesting (',' :: (inserted ++ text)) = (',' :: (inserted ++ first)) :: others :=
  rawParts_append_of_holds nothing.2 (by rw [nothing.1]; exact found)

theorem isLoose_comma (text : Text) : IsLoose (',' :: text) := by
  intro char found
  exact .inl (Option.some.inj found).symm

/-- A part inside quotes and what scoping makes of it, with alike texts behind them. -/
theorem Alike.follow {lead : Text} (quotable : IsQuotableLead lead) {nesting : Nesting}
    (valid : nesting.Valid) (quoted : nesting.quote ≠ none) {part left right : Text}
    (alike : Alike lead (nesting.after part) left right)
    (ends : (nesting.after part).quote ≠ none ∨ left = [] ∧ IsBlankText right) :
    Alike lead nesting (',' :: (part ++ left)) (followOne lead part ++ right) := by
  obtain ⟨before, after, whole, blankBefore, blankAfter⟩ := Text.exists_blanks_around_trim part
  by_cases blank : Text.trim part = []
  · have blanks : IsBlankText part := by
      rw [whole, blank, List.append_nil]
      exact blankBefore.append blankAfter
    have unscoped : followOne lead part = [] := if_pos blank
    rw [(valid.after_blanks blanks).1] at alike
    obtain ⟨first, others, _, _, foundLeft, foundRight, -, looseRight, same⟩ := alike
    have led := rawParts_comma_append (valid.after_comma_blanks quoted blanks) foundLeft
    rw [unscoped]
    exact ⟨_, _, _, _, led, foundRight, isLoose_comma _, looseRight, same⟩
  · obtain ⟨inserted, one, nothing⟩ := exists_followOne quotable valid quoted blank
    rw [← (valid.trim part).1] at alike ends
    obtain ⟨parts, leftPart, rightPart, leftParts, rightParts, foundLeft, foundRight, same, last⟩ :=
      alike.append quotable valid blankAfter ends
    have leftShape : ',' :: (part ++ left) =
        ',' :: (before ++ (Text.trim part ++ (after ++ left))) := by
      conv_lhs => rw [whole]
      simp
    have rightShape : followOne lead part ++ right =
        ',' :: (inserted ++ (Text.trim part ++ right)) := by simp [one]
    have blanksLed := valid.after_comma_blanks quoted blankBefore
    rw [leftShape, rightShape]
    cases parts with
    | nil =>
        exact ⟨_, _, _, _, rawParts_comma_append blanksLed foundLeft,
          rawParts_comma_append nothing foundRight, isLoose_comma _, isLoose_comma _, same⟩
    | cons first others =>
        have later : SameClear lead (others ++ leftPart :: leftParts)
            (others ++ rightPart :: rightParts) :=
          SameClear.append others (.cons (last (.inl (by simp))) same)
        exact ⟨_, _, _, _, rawParts_comma_append blanksLed foundLeft,
          rawParts_comma_append nothing foundRight, isLoose_comma _, isLoose_comma _, later⟩

theorem Nesting.Valid.alike_nil {nesting : Nesting} (valid : nesting.Valid) (lead : Text) :
    Alike lead nesting [] [' '] := by
  have space : IsBlankText [' '] := Text.isBlankText_replicate (by decide) 1
  exact ⟨[], [], [' '], [], rfl, rawParts_of_holds (valid.after_blanks space).2, by simp [IsLoose],
    fun char found => .inr (space char (List.mem_of_mem_head? found)), .nil⟩

/-- Scoping in quotes leaves the parts alike. -/
theorem alike_follow {lead : Text} (quotable : IsQuotableLead lead) {scanned : Nesting}
    {parts : List Text} (raw : RawParts scanned parts) (anew : scanned = {}) {nesting : Nesting}
    (valid : nesting.Valid) (quoted : nesting.quote ≠ none) :
    Alike lead nesting (commaLed parts) (follow lead parts ++ [' ']) := by
  have space : IsBlankText [' '] := Text.isBlankText_replicate (by decide) 1
  induction raw generalizing nesting with
  | @last scanned part holds =>
      have shapes : commaLed [part] = ',' :: (part ++ []) ∧
          follow lead [part] ++ [' '] = followOne lead part ++ [' '] := by
        simp [commaLed, follow_cons_eq]
      rw [shapes.1, shapes.2]
      exact ((valid.after part).alike_nil lead).follow quotable valid quoted (.inr ⟨rfl, space⟩)
  | @next scanned part parts holds closed later ih =>
      have shapes : commaLed (part :: parts) = ',' :: (part ++ commaLed parts) ∧
          follow lead (part :: parts) ++ [' '] =
            followOne lead part ++ (follow lead parts ++ [' ']) := by
        simp [commaLed, follow_cons_eq]
      have stillQuoted : (nesting.after part).quote ≠ none := by
        have apart := valid.quote_after_ne Nesting.valid_empty quoted part
        rw [← anew, closed] at apart
        exact apart
      rw [shapes.1, shapes.2]
      exact (ih rfl (valid.after part) stillQuoted).follow quotable valid quoted (.inl stillQuoted)

/-- Behind an open bracket a balanced text is one part. -/
theorem rawParts_of_balances {scanned : Nesting} (valid : scanned.Valid) (opened : scanned ≠ {})
    (unquoted : scanned.quote = none) {list : Text}
    (balances : ({} : Nesting).balances list = true) : rawParts scanned list = [list] := by
  have whole : scanned = ({} : Nesting).inside scanned.closers := by
    cases scanned
    simpa [Nesting.inside] using unquoted
  have notEmpty : scanned.closers ≠ [] := fun none => opened (by rw [whole, none]; rfl)
  have alone := Nesting.holds_inside balances notEmpty valid.closers
  rw [← whole] at alone
  exact rawParts_of_holds alone

/-- The first comma that is found behind something open stands in quotes. -/
theorem quoted_of_rawParts {scanned : Nesting} (valid : scanned.Valid) (opened : scanned ≠ {})
    {list : Text} (balances : ({} : Nesting).balances list = true) {part next : Text}
    {others : List Text} (found : rawParts scanned list = part :: next :: others) :
    (({} : Nesting).after part).quote ≠ none := by
  have quoted : scanned.quote ≠ none := by
    intro unquoted
    simp [rawParts_of_balances valid opened unquoted balances] at found
  have raw := rawParts_spec scanned list
  rw [found] at raw
  cases raw with
  | next holds closed later =>
      have apart := Nesting.valid_empty.quote_after_ne valid (Ne.symm quoted) part
      rw [closed] at apart
      exact apart

/-- A balanced text behind something open and what scoping makes of it: the same parts are exempt. -/
theorem sameClear_carry {lead : Text} (quotable : IsQuotableLead lead) {scanned : Nesting}
    (valid : scanned.Valid) (opened : scanned ≠ {}) {list : Text}
    (balances : ({} : Nesting).balances list = true) :
    SameClear lead (rawParts {} list)
      (rawParts {} (carry lead (rawParts scanned list) ++ [' '])) := by
  have empty := Nesting.valid_empty
  have space : IsBlankText [' '] := by decide
  obtain ⟨part, parts, found⟩ := List.exists_cons_of_ne_nil (rawParts_ne_nil scanned list)
  obtain ⟨blanks, trimmed, isBlank⟩ := Text.exists_blanks_behind_trimEnd part
  have reached : ({} : Nesting).after (Text.trimEnd Text.isBlank part) =
      ({} : Nesting).after part := by
    conv_rhs => rw [trimmed, Nesting.after_append, ((empty.after _).after_blanks isBlank).1]
  have ends : Alike lead (({} : Nesting).after part) (commaLed parts)
        (follow lead parts ++ [' ']) ∧
      ((({} : Nesting).after part).quote ≠ none ∨
        commaLed parts = [] ∧ IsBlankText (follow lead parts ++ [' '])) := by
    have raw := rawParts_spec scanned list
    rw [found] at raw
    cases raw with
    | last => exact ⟨(empty.after _).alike_nil lead, .inr ⟨rfl, space⟩⟩
    | next holds closed later =>
        obtain ⟨next, others, rfl⟩ := later.exists_cons
        have quoted := quoted_of_rawParts valid opened balances found
        exact ⟨alike_follow quotable later rfl (empty.after _) quoted, .inl quoted⟩
  rw [← reached] at ends
  obtain ⟨before, leftPart, rightPart, leftParts, rightParts, foundLeft, foundRight, same, last⟩ :=
    ends.1.append quotable empty isBlank ends.2
  have leftShape : list =
      Text.trimEnd Text.isBlank part ++ (blanks ++ commaLed parts) := by
    rw [← List.append_assoc, ← trimmed]
    exact eq_append_commaLed found
  have rightShape : carry lead (rawParts scanned list) ++ [' '] =
      Text.trimEnd Text.isBlank part ++ (follow lead parts ++ [' ']) := by
    rw [found, carry, List.append_assoc]
  rw [rightShape, foundRight]
  conv => arg 2; rw [leftShape, foundLeft]
  exact SameClear.append before (.cons (last (.inr rfl)) same)

end DocComponents.Selector
