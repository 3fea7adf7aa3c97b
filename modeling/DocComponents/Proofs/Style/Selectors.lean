import DocComponents.Proofs.Text.Cut
import DocComponents.Proofs.Text.Lead
import DocComponents.Proofs.Text.Trim
import DocComponents.Style.Selector
import Mathlib.Data.List.Forall2

/-!
# Selector lists

A selector list is cut at its commas only where nothing is open, so every part but the last one
leaves nothing open, and the last one holds no comma at which it could be cut. Lists of such parts
are exactly those that splitting gives back after they are joined, whatever is left open at the end.
A selector under a lead that closes what it opens is such a part again.
-/

set_option autoImplicit false

namespace DocComponents.Selector

open Text (IsBlankText IsTrimmed)

def Nesting.after (nesting : Nesting) (text : Text) : Nesting :=
  text.foldl Nesting.step nesting

/-- A text without a comma that separates, scanned from a nesting on. -/
def Nesting.Holds : Nesting → Text → Prop
  | _, [] => True
  | nesting, char :: rest => nesting.separates char = false ∧ (nesting.step char).Holds rest

/-- What is open in a selector list is open for a quote or a closing character. -/
structure Nesting.Valid (nesting : Nesting) : Prop where
  quote : ∀ char, nesting.quote = some char → char = '"' ∨ char = '\''
  closers : ∀ char ∈ nesting.closers, char = ')' ∨ char = ']'

@[simp]
theorem Nesting.after_nil (nesting : Nesting) : nesting.after [] = nesting := rfl

@[simp]
theorem Nesting.after_cons (nesting : Nesting) (char : Char) (rest : Text) :
    nesting.after (char :: rest) = (nesting.step char).after rest := rfl

theorem Nesting.after_append (nesting : Nesting) (left right : Text) :
    nesting.after (left ++ right) = (nesting.after left).after right :=
  List.foldl_append

theorem Nesting.holds_append (nesting : Nesting) (left right : Text) :
    nesting.Holds (left ++ right) ↔ nesting.Holds left ∧ (nesting.after left).Holds right := by
  induction left generalizing nesting with
  | nil => simp [Nesting.Holds]
  | cons char rest ih => simp [Nesting.Holds, ih, and_assoc]

theorem Nesting.valid_empty : ({} : Nesting).Valid := by
  constructor <;> simp

theorem closerOf?_eq_some {char closer : Char} (found : closerOf? char = some closer) :
    closer = ')' ∨ closer = ']' := by
  unfold closerOf? at found
  split at found
  · exact .inl (Option.some.inj found).symm
  · split at found
    · exact .inr (Option.some.inj found).symm
    · cases found

theorem Nesting.Valid.step {nesting : Nesting} (valid : nesting.Valid) (char : Char) :
    (nesting.step char).Valid := by
  unfold Nesting.step
  split
  · split
    · exact ⟨by simp, valid.closers⟩
    · exact valid
  · next unquoted =>
      split
      · next quoting =>
          refine ⟨?_, valid.closers⟩
          intro quote opened
          have same : char = quote := by simpa using opened
          simpa [same] using quoting
      · split
        · next closer found =>
            refine ⟨valid.quote, ?_⟩
            intro awaited member
            rcases List.mem_cons.mp member with rfl | earlier
            · exact closerOf?_eq_some found
            · exact valid.closers awaited earlier
        · split
          · exact valid
          · next closer closers opened =>
              split
              · refine ⟨by simp [unquoted], ?_⟩
                intro awaited member
                exact valid.closers awaited (by rw [opened]; exact List.mem_cons_of_mem _ member)
              · exact valid

theorem Nesting.Valid.after {nesting : Nesting} (valid : nesting.Valid) (text : Text) :
    (nesting.after text).Valid := by
  induction text generalizing nesting with
  | nil => exact valid
  | cons char rest ih => exact ih (valid.step char)

/-- The characters that mean nothing to the scan of a selector list. -/
theorem isBlank_of_special {char : Char}
    (special : char ∈ ['"', '\'', '(', ')', '[', ']', ',']) : Text.isBlank char = false := by
  have plain : ['"', '\'', '(', ')', '[', ']', ','].all (!Text.isBlank ·) = true := by decide
  simpa using List.all_eq_true.mp plain char special

/-- Most characters open and close nothing. -/
theorem Nesting.Valid.step_of_not_mem {nesting : Nesting} (valid : nesting.Valid) {char : Char}
    (plain : char ∉ ['"', '\'', '(', ')', '[', ']', ',']) : nesting.step char = nesting := by
  simp only [List.mem_cons, List.not_mem_nil, or_false, not_or] at plain
  obtain ⟨double, single, paren, closeParen, bracket, closeBracket, -⟩ := plain
  unfold Nesting.step
  split
  · next quote opened =>
      have apart : char ≠ quote := by
        rcases valid.quote quote opened with rfl | rfl
        · exact double
        · exact single
      rw [if_neg apart]
  · rw [if_neg (by simp [double, single]), closerOf?, if_neg paren, if_neg bracket]
    dsimp only
    split
    · rfl
    · next closer closers awaited =>
        have apart : char ≠ closer := by
          rcases valid.closers closer (by simp [awaited]) with rfl | rfl
          · exact closeParen
          · exact closeBracket
        rw [if_neg apart]

/-- Blanks open and close nothing. -/
theorem Nesting.Valid.step_blank {nesting : Nesting} (valid : nesting.Valid) {char : Char}
    (blank : Text.isBlank char = true) : nesting.step char = nesting := by
  apply valid.step_of_not_mem
  intro special
  rw [isBlank_of_special special] at blank
  cases blank

theorem Nesting.separates_blank (nesting : Nesting) {char : Char}
    (blank : Text.isBlank char = true) : nesting.separates char = false := by
  have apart : char ≠ ',' := by
    intro same
    subst same
    cases blank.symm.trans (isBlank_of_special (by simp))
  simp [Nesting.separates, apart]

theorem Nesting.Valid.after_blanks {nesting : Nesting} (valid : nesting.Valid) {text : Text}
    (blanks : IsBlankText text) : nesting.after text = nesting ∧ nesting.Holds text := by
  induction text with
  | nil => exact ⟨rfl, trivial⟩
  | cons char rest ih =>
      have blank := blanks char List.mem_cons_self
      have later := ih fun other member => blanks other (List.mem_cons_of_mem _ member)
      rw [Nesting.after_cons, Nesting.Holds, valid.step_blank blank]
      exact ⟨later.1, nesting.separates_blank blank, later.2⟩

/-- In quotes a text without the quote opens and closes nothing. -/
theorem Nesting.after_of_not_mem {nesting : Nesting} {quote : Char}
    (quoted : nesting.quote = some quote) {text : Text} (apart : quote ∉ text) :
    nesting.after text = nesting ∧ nesting.Holds text := by
  induction text with
  | nil => exact ⟨rfl, trivial⟩
  | cons char rest ih =>
      obtain ⟨notFirst, notLater⟩ := not_or.mp (mt List.mem_cons.mpr apart)
      have stays : nesting.step char = nesting := by
        simp [Nesting.step, quoted, Ne.symm notFirst]
      have later := ih notLater
      rw [Nesting.after_cons, Nesting.Holds, stays]
      exact ⟨later.1, by simp [Nesting.separates, quoted], later.2⟩

/-- Trimming a text changes neither what it leaves open nor whether it can be cut. -/
theorem Nesting.Valid.trim {nesting : Nesting} (valid : nesting.Valid) (text : Text) :
    nesting.after (Text.trim text) = nesting.after text ∧
      (nesting.Holds (Text.trim text) ↔ nesting.Holds text) := by
  obtain ⟨before, after, whole, blankBefore, blankAfter⟩ := Text.exists_blanks_around_trim text
  have first := valid.after_blanks blankBefore
  have last := (valid.after (Text.trim text)).after_blanks blankAfter
  constructor
  · conv_rhs => rw [whole]
    rw [Nesting.after_append, Nesting.after_append, first.1, last.1]
  · conv_rhs => rw [whole]
    rw [Nesting.holds_append, Nesting.holds_append, Nesting.after_append, first.1]
    simp [first.2, last.2]

/-- The raw parts of a list scanned from a nesting on: each part holds no separating comma, and each
but the last leaves nothing open. -/
inductive RawParts : Nesting → List Text → Prop where
  | last {nesting part} : nesting.Holds part → RawParts nesting [part]
  | next {nesting part parts} : nesting.Holds part → nesting.after part = {} →
      RawParts {} parts → RawParts nesting (part :: parts)

theorem Nesting.eq_empty_of_separates {nesting : Nesting} {char : Char}
    (separates : nesting.separates char = true) : nesting = {} := by
  obtain ⟨quote, closers⟩ := nesting
  simp only [Nesting.separates, Bool.and_eq_true, Option.isNone_iff_eq_none,
    List.isEmpty_iff] at separates
  simp [separates.1.2, separates.2]

theorem Nesting.eq_comma_of_separates {nesting : Nesting} {char : Char}
    (separates : nesting.separates char = true) : char = ',' := by
  simp only [Nesting.separates, Bool.and_eq_true, decide_eq_true_eq] at separates
  exact separates.1.1

theorem rawParts_ne_nil (nesting : Nesting) (text : Text) : rawParts nesting text ≠ [] := by
  cases text with
  | nil => simp [rawParts]
  | cons char rest =>
      unfold rawParts
      split
      · simp
      · split <;> simp

theorem rawParts_spec (nesting : Nesting) (text : Text) :
    RawParts nesting (rawParts nesting text) := by
  induction text generalizing nesting with
  | nil => exact .last trivial
  | cons char rest ih =>
      unfold rawParts
      split
      · next separates =>
          have nothing := Nesting.eq_empty_of_separates separates
          subst nothing
          exact .next trivial rfl (ih {})
      · next inside =>
          have inside : nesting.separates char = false := by simpa using inside
          have later := ih (nesting.step char)
          cases found : rawParts (nesting.step char) rest with
          | nil => exact absurd found (rawParts_ne_nil _ _)
          | cons part parts =>
              rw [found] at later
              cases later with
              | last holds => exact .last ⟨inside, holds⟩
              | next holds closed others => exact .next ⟨inside, holds⟩ closed others

/-- Cutting loses nothing but the commas it cuts at. -/
theorem join_rawParts (nesting : Nesting) (text : Text) :
    Text.join [','] (rawParts nesting text) = text := by
  induction text generalizing nesting with
  | nil => rfl
  | cons char rest ih =>
      unfold rawParts
      split
      · next separates =>
          obtain ⟨part, parts, found⟩ := List.exists_cons_of_ne_nil (rawParts_ne_nil nesting rest)
          have later := ih nesting
          rw [found] at later ⊢
          rw [Text.join_cons_cons, later, Nesting.eq_comma_of_separates separates]
          rfl
      · split
        · next noParts => exact absurd noParts (rawParts_ne_nil _ _)
        · next part parts found =>
            have later := ih (nesting.step char)
            rw [found] at later
            exact (Text.join_append_cons [','] [char] part parts).trans (congrArg _ later)

theorem infix_of_mem_rawParts {nesting : Nesting} {text part : Text}
    (isPart : part ∈ rawParts nesting text) : part <:+: text := by
  have inside := Text.infix_join [','] isPart
  rwa [join_rawParts] at inside

theorem mem_of_mem_rawParts {nesting : Nesting} {text part : Text} {char : Char}
    (isPart : part ∈ rawParts nesting text) (member : char ∈ part) : char ∈ text :=
  (infix_of_mem_rawParts isPart).subset member

theorem rawParts_of_holds {nesting : Nesting} {part : Text} (holds : nesting.Holds part) :
    rawParts nesting part = [part] := by
  induction part generalizing nesting with
  | nil => rfl
  | cons char rest ih => simp [rawParts, holds.1, ih holds.2]

/-- A text without a separating comma goes to the first part of what stands behind it. -/
theorem rawParts_append_of_holds {nesting : Nesting} {left : Text} (holds : nesting.Holds left)
    {right part : Text} {parts : List Text}
    (found : rawParts (nesting.after left) right = part :: parts) :
    rawParts nesting (left ++ right) = (left ++ part) :: parts := by
  induction left generalizing nesting with
  | nil => exact found
  | cons char rest ih =>
      rw [List.cons_append, rawParts, if_neg (by simp [holds.1]), ih holds.2 found]
      rfl

theorem rawParts_append_comma {nesting : Nesting} {part : Text} (holds : nesting.Holds part)
    (closed : nesting.after part = {}) (rest : Text) :
    rawParts nesting (part ++ ',' :: rest) = part :: rawParts {} rest := by
  induction part generalizing nesting with
  | nil =>
      rw [Nesting.after_nil] at closed
      subst closed
      rfl
  | cons char others ih =>
      rw [List.cons_append, rawParts, if_neg (by simp [holds.1]), ih holds.2 closed]

/-- A part that splitting gives: not empty, trimmed, and without a separating comma. -/
structure IsSelector (part : Text) : Prop where
  notEmpty : part ≠ []
  trimmed : IsTrimmed part
  holds : ({} : Nesting).Holds part

/-- Selectors of which each but the last leaves nothing open. -/
inductive Separable : List Text → Prop where
  | nil : Separable []
  | last {part} : IsSelector part → Separable [part]
  | next {part parts} : IsSelector part → ({} : Nesting).after part = {} → Separable parts →
      Separable (part :: parts)

theorem Separable.isSelector {parts : List Text} (separable : Separable parts) :
    ∀ part ∈ parts, IsSelector part := by
  induction separable with
  | nil => simp
  | last selector => simpa using selector
  | next selector _ _ ih => simpa using ⟨selector, ih⟩

def trimmedParts (parts : List Text) : List Text :=
  (parts.map Text.trim).filter fun part => !part.isEmpty

theorem trimmedParts_cons (part : Text) (parts : List Text) :
    trimmedParts (part :: parts) =
      if (Text.trim part).isEmpty then trimmedParts parts
      else Text.trim part :: trimmedParts parts := by
  by_cases empty : (Text.trim part).isEmpty = true <;> simp [trimmedParts, empty]

theorem split_eq_trimmedParts (selectors : Text) :
    split selectors = trimmedParts (rawParts {} selectors) := rfl

theorem isSelector_trim {part : Text} (notEmpty : (Text.trim part).isEmpty = false)
    (holds : ({} : Nesting).Holds part) : IsSelector (Text.trim part) where
  notEmpty := by simpa using notEmpty
  trimmed := Text.isTrimmed_trim part
  holds := (Nesting.valid_empty.trim part).2.mpr holds

theorem separable_trimmedParts {nesting : Nesting} {parts : List Text}
    (raw : RawParts nesting parts) (start : nesting = {}) : Separable (trimmedParts parts) := by
  induction raw with
  | @last nesting part holds =>
      subst start
      rw [trimmedParts_cons]
      split
      · exact .nil
      · next notEmpty => exact .last (isSelector_trim (by simpa using notEmpty) holds)
  | @next nesting part parts holds closed _ ih =>
      subst start
      rw [trimmedParts_cons]
      split
      · exact ih rfl
      · next notEmpty =>
          refine .next (isSelector_trim (by simpa using notEmpty) holds) ?_ (ih rfl)
          rw [(Nesting.valid_empty.trim part).1, closed]

theorem split_separable (selectors : Text) : Separable (split selectors) :=
  separable_trimmedParts (rawParts_spec {} selectors) rfl

theorem infix_of_mem_split {selectors part : Text} (isPart : part ∈ split selectors) :
    part <:+: selectors := by
  obtain ⟨raw, isRaw, rfl⟩ := List.mem_map.mp (List.mem_of_mem_filter isPart)
  exact (Text.infix_trim raw).trans (infix_of_mem_rawParts isRaw)

theorem mem_of_mem_split {selectors part : Text} {char : Char} (isPart : part ∈ split selectors)
    (member : char ∈ part) : char ∈ selectors :=
  (infix_of_mem_split isPart).subset member

theorem split_append_comma {part : Text} (holds : ({} : Nesting).Holds part)
    (closed : ({} : Nesting).after part = {}) (rest : Text) :
    split (part ++ ',' :: rest) = trimmedParts [part] ++ split rest := by
  rw [split_eq_trimmedParts, rawParts_append_comma holds closed, trimmedParts_cons,
    trimmedParts_cons, split_eq_trimmedParts]
  split <;> rfl

theorem split_append_of_blank {blanks : Text} (isBlank : IsBlankText blanks) (text : Text) :
    split (blanks ++ text) = split text := by
  obtain ⟨same, holds⟩ := Nesting.valid_empty.after_blanks isBlank
  obtain ⟨part, parts, found⟩ := List.exists_cons_of_ne_nil (rawParts_ne_nil {} text)
  rw [split_eq_trimmedParts, split_eq_trimmedParts, found,
    rawParts_append_of_holds holds (by rw [same]; exact found), trimmedParts_cons,
    trimmedParts_cons, Text.trim_append_of_blank isBlank]

theorem split_blanks {text : Text} (blanks : IsBlankText text) : split text = [] := by
  have trimmed : Text.trim text = [] := by
    have padded : Text.trim (text ++ [] ++ []) = [] :=
      Text.trim_pad blanks (by simp [IsBlankText]) ⟨by simp, by simp⟩
    simpa using padded
  rw [split_eq_trimmedParts, rawParts_of_holds (Nesting.valid_empty.after_blanks blanks).2,
    trimmedParts_cons, trimmed]
  rfl

/-- A selector with blanks around it: the scan sees the selector alone. -/
private theorem padded_spec {part before after : Text} (selector : IsSelector part)
    (blankBefore : IsBlankText before) (blankAfter : IsBlankText after) :
    ({} : Nesting).Holds (before ++ part ++ after) ∧
      ({} : Nesting).after (before ++ part ++ after) = ({} : Nesting).after part ∧
      trimmedParts [before ++ part ++ after] = [part] := by
  have trimmed := Text.trim_pad blankBefore blankAfter selector.trimmed
  have scanned := Nesting.valid_empty.trim (before ++ part ++ after)
  rw [trimmed] at scanned
  refine ⟨scanned.2.mp selector.holds, scanned.1.symm, ?_⟩
  rw [trimmedParts_cons, trimmed, if_neg (by simpa using selector.notEmpty)]
  rfl

private theorem split_padded {part before after : Text} (selector : IsSelector part)
    (blankBefore : IsBlankText before) (blankAfter : IsBlankText after) :
    split (before ++ part ++ after) = [part] := by
  obtain ⟨holds, -, parts⟩ := padded_spec selector blankBefore blankAfter
  rw [split_eq_trimmedParts, rawParts_of_holds holds, parts]

/-- Splitting takes apart what joining puts together, also with blanks around the whole. -/
theorem split_join {parts : List Text} (separable : Separable parts) {before after : Text}
    (blankBefore : IsBlankText before) (blankAfter : IsBlankText after) :
    split (before ++ Text.join [',', ' '] parts ++ after) = parts := by
  induction separable generalizing before with
  | nil =>
      apply split_blanks
      intro char member
      simp only [Text.join, List.append_nil, List.mem_append] at member
      exact member.elim (blankBefore char) (blankAfter char)
  | last selector => exact split_padded selector blankBefore blankAfter
  | @next part parts selector closed _ ih =>
      cases parts with
      | nil => exact split_padded selector blankBefore blankAfter
      | cons other others =>
          have oneBlank : IsBlankText [' '] := Text.isBlankText_replicate (by decide) 1
          obtain ⟨holds, ends, trimmed⟩ :=
            padded_spec selector blankBefore Text.isBlankText_nil
          have shape : before ++ Text.join [',', ' '] (part :: other :: others) ++ after =
              (before ++ part ++ []) ++
                ',' :: ([' '] ++ Text.join [',', ' '] (other :: others) ++ after) := by
            simp [Text.join]
          rw [shape, split_append_comma holds (ends.trans closed), trimmed, ih oneBlank]
          rfl

/-- A lead begins with no blank, holds no separating comma, and closes what it opens. -/
structure IsLead (lead : Text) : Prop where
  notEmpty : lead ≠ []
  head : ∀ char, lead.head? = some char → Text.isBlank char = false
  holds : ({} : Nesting).Holds lead
  closed : ({} : Nesting).after lead = {}

theorem IsLead.after_append {lead : Text} (isLead : IsLead lead) (part : Text) :
    ({} : Nesting).after (lead ++ ' ' :: part) = ({} : Nesting).after part := by
  rw [Nesting.after_append, isLead.closed]
  rfl

theorem IsLead.isSelector {lead : Text} (isLead : IsLead lead) {part : Text}
    (selector : IsSelector part) : IsSelector (lead ++ ' ' :: part) where
  notEmpty := by simp
  trimmed := by
    constructor
    · intro char found
      rw [List.head?_append_of_ne_nil _ isLead.notEmpty] at found
      exact isLead.head char found
    · intro char found
      apply selector.trimmed.last char
      have behind : (lead ++ [' ']) ++ part = lead ++ ' ' :: part := by simp
      rwa [← behind, List.getLast?_append_of_ne_nil _ selector.notEmpty] at found
  holds := by
    rw [Nesting.holds_append, isLead.closed]
    exact ⟨isLead.holds, rfl, selector.holds⟩

theorem scope_eq_or (lead selector : Text) :
    scope lead selector = selector ∨ scope lead selector = lead ++ ' ' :: selector := by
  unfold scope
  split
  · exact .inl rfl
  · exact .inr rfl

/-- A selector is put under a lead once only. -/
theorem scope_scope (lead selector : Text) :
    scope lead (scope lead selector) = scope lead selector := by
  by_cases exempt : isExempt lead selector = true
  · have stays : scope lead selector = selector := if_pos exempt
    rw [stays, stays]
  · have led : scope lead selector = lead ++ ' ' :: selector := if_neg exempt
    rw [led, scope, if_pos (by simp [isExempt])]

theorem isExempt_scope (lead selector : Text) : isExempt lead (scope lead selector) = true := by
  by_cases exempt : isExempt lead selector = true
  · rwa [scope, if_pos exempt]
  · rw [scope, if_neg exempt]
    simp [isExempt]

/-- A selector as it is, or under a lead. -/
inductive IsLed : (selector written : Text) → Prop where
  | alone {selector : Text} : IsLed selector selector
  | under {lead selector : Text} (isLead : IsLead lead) : IsLed selector (lead ++ ' ' :: selector)

theorem IsLed.isSelector {selector written : Text} (led : IsLed selector written)
    (isSelector : IsSelector selector) : IsSelector written := by
  cases led with
  | alone => exact isSelector
  | under isLead => exact isLead.isSelector isSelector

theorem IsLed.after_eq {selector written : Text} (led : IsLed selector written) :
    ({} : Nesting).after written = ({} : Nesting).after selector := by
  cases led with
  | alone => rfl
  | under isLead => exact isLead.after_append selector

/-- Leads in front of any of the parts of a list keep it a list that can be taken apart. -/
theorem Separable.of_led {parts written : List Text} (separable : Separable parts)
    (led : List.Forall₂ IsLed parts written) : Separable written := by
  induction separable generalizing written with
  | nil =>
      cases led
      exact .nil
  | last selector =>
      cases led with
      | cons first others =>
          cases others
          exact .last (first.isSelector selector)
  | next selector closed _ ih =>
      cases led with
      | cons first others =>
          exact .next (first.isSelector selector) (first.after_eq.trans closed) (ih others)

theorem IsLead.separable_map_scope {lead : Text} (isLead : IsLead lead) {parts : List Text}
    (separable : Separable parts) : Separable (parts.map (scope lead)) := by
  apply separable.of_led
  rw [List.forall₂_map_right_iff, List.forall₂_same]
  intro part _
  rcases scope_eq_or lead part with same | under
  · rw [same]
    exact .alone
  · rw [under]
    exact .under isLead

end DocComponents.Selector
