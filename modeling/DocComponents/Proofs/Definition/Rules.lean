import DocComponents.Proofs.Definition.FrontMatter
import DocComponents.Proofs.Text.Cut

/-!
# Documents divided at rules

Where front matter ends can be told by the lines of a document alone. A document that begins with a
rule and has another one below holds front matter between the two and its body behind the second;
every other document holds none. The reader, which goes through the characters one by one, gives
this answer for every text.
-/

set_option autoImplicit false

namespace DocComponents.FrontMatter

/-! ### Rules -/

/-- A line of three hyphens. Spaces and tabs may follow them, and one carriage return behind these
still belongs to the line. -/
def IsRule (line : Text) : Prop :=
  ∃ blanks ending : Text, line = ['-', '-', '-'] ++ blanks ++ ending ∧
    (∀ char ∈ blanks, Text.isSpaceOrTab char = true) ∧ (ending = [] ∨ ending = ['\r'])

/-- What may stand behind a whole line: nothing, or the line feed that ends it. -/
def EndsLine (behind : Text) : Prop :=
  ∀ char, behind.head? = some char → char = '\n'

theorem endsLine_nil : EndsLine [] := by
  intro char first
  cases first

theorem endsLine_lineFeed (rest : Text) : EndsLine ('\n' :: rest) := by
  intro char first
  cases first
  rfl

theorem EndsLine.dropWhile_eq {behind : Text} (ends : EndsLine behind) {inClass : Char → Bool}
    (outside : inClass '\n' = false) : behind.dropWhile inClass = behind := by
  cases behind with
  | nil => rfl
  | cons char rest =>
      obtain rfl := ends char rfl
      rw [List.dropWhile_cons_of_neg (by simp [outside])]

theorem exists_append_afterOptionalReturn (text : Text) :
    ∃ ending, (ending = [] ∨ ending = ['\r']) ∧ text = ending ++ afterOptionalReturn text := by
  unfold afterOptionalReturn
  split
  · exact ⟨['\r'], .inr rfl, rfl⟩
  · exact ⟨[], .inl rfl, rfl⟩

theorem exists_isRule_of_afterRule? {text rest : Text} (ruled : afterRule? text = some rest) :
    ∃ line, IsRule line ∧ text = line ++ rest := by
  unfold afterRule? at ruled
  cases found : Text.afterLead? ['-', '-', '-'] text with
  | none => simp [found] at ruled
  | some behind =>
      rw [found] at ruled
      cases ruled
      obtain ⟨ending, isEnding, tail⟩ :=
        exists_append_afterOptionalReturn (behind.dropWhile Text.isSpaceOrTab)
      have blanks : ∀ char ∈ behind.takeWhile Text.isSpaceOrTab, Text.isSpaceOrTab char = true :=
        fun char member => List.mem_takeWhile_imp member
      have whole : text = ['-', '-', '-'] ++
          (behind.takeWhile Text.isSpaceOrTab ++ behind.dropWhile Text.isSpaceOrTab) := by
        rw [List.takeWhile_append_dropWhile]
        exact Text.afterLead?_eq_some_iff.mp found
      rw [tail] at whole
      exact ⟨_, ⟨_, ending, rfl, blanks, isEnding⟩, by simpa using whole⟩

/-- A rule is taken in as far as its line goes. -/
theorem IsRule.afterRule?_append {line : Text} (isRule : IsRule line) {behind : Text}
    (ends : EndsLine behind) : afterRule? (line ++ behind) = some behind := by
  obtain ⟨blanks, ending, rfl, areBlank, isEnding⟩ := isRule
  have lead : Text.afterLead? ['-', '-', '-'] (['-', '-', '-'] ++ blanks ++ ending ++ behind) =
      some (blanks ++ (ending ++ behind)) :=
    Text.afterLead?_eq_some_iff.mpr (by simp)
  have stops : (ending ++ behind).dropWhile Text.isSpaceOrTab = ending ++ behind := by
    rcases isEnding with rfl | rfl
    · exact ends.dropWhile_eq (by decide)
    · rfl
  have returned : afterOptionalReturn (ending ++ behind) = behind := by
    rcases isEnding with rfl | rfl
    · cases behind with
      | nil => rfl
      | cons char rest =>
          obtain rfl := ends char rfl
          rfl
    · rfl
  rw [afterRule?, lead]
  simp only [List.dropWhile_append_of_pos areBlank, stops, returned]

theorem isRule_iff {line : Text} : IsRule line ↔ afterRule? line = some [] := by
  constructor
  · intro isRule
    simpa using isRule.afterRule?_append endsLine_nil
  · intro ruled
    obtain ⟨rule, isRule, rfl⟩ := exists_isRule_of_afterRule? ruled
    simpa using isRule

instance (line : Text) : Decidable (IsRule line) :=
  decidable_of_iff (afterRule? line = some []) isRule_iff.symm

theorem IsRule.ne_nil {line : Text} (isRule : IsRule line) : line ≠ [] := by
  obtain ⟨blanks, ending, rfl, -⟩ := isRule
  simp

theorem IsRule.noLineFeed {line : Text} (isRule : IsRule line) : '\n' ∉ line := by
  obtain ⟨blanks, ending, rfl, areBlank, isEnding⟩ := isRule
  have notBlank : '\n' ∉ blanks := fun member => absurd (areBlank '\n' member) (by decide)
  rcases isEnding with rfl | rfl <;> simp [notBlank]

/-! ### The first line of a text -/

theorem takeWhile_line {line : Text} (noLineFeed : '\n' ∉ line) {behind : Text}
    (ends : EndsLine behind) : (line ++ behind).takeWhile (· != '\n') = line := by
  cases behind with
  | nil =>
      rw [List.append_nil]
      exact List.takeWhile_eq_self_iff.mpr (Text.forall_bne_of_not_mem noLineFeed)
  | cons char rest =>
      obtain rfl := ends char rfl
      exact Text.takeWhile_bne_append_cons noLineFeed rest

/-- Whether a text begins with a rule is told by its first line. -/
theorem afterRule?_append_eq_some_iff {line : Text} (noLineFeed : '\n' ∉ line)
    {behind rest : Text} (ends : EndsLine behind) (restEnds : EndsLine rest) :
    afterRule? (line ++ behind) = some rest ↔ IsRule line ∧ behind = rest := by
  constructor
  · intro ruled
    obtain ⟨rule, isRule, whole⟩ := exists_isRule_of_afterRule? ruled
    have same : line = rule := by
      rw [← takeWhile_line noLineFeed ends, whole, takeWhile_line isRule.noLineFeed restEnds]
    subst same
    exact ⟨isRule, List.append_cancel_left whole⟩
  · rintro ⟨isRule, rfl⟩
    exact isRule.afterRule?_append ends

theorem afterOpening?_eq_some_iff {text rest : Text} :
    afterOpening? text = some rest ↔ afterRule? text = some ('\n' :: rest) := by
  unfold afterOpening?
  split
  · next behind ruled => simp [ruled]
  · next other =>
      constructor
      · intro opened
        cases opened
      · intro ruled
        exact absurd ruled (other rest)

theorem afterClosing?_eq_some_iff {text rest : Text} :
    afterClosing? text = some rest ↔ afterRule? text = some rest ∧ EndsLine rest := by
  unfold afterClosing?
  split
  · next ruled =>
      rw [ruled]
      exact ⟨fun same => ⟨same, by cases same; exact endsLine_nil⟩, And.left⟩
  · next behind ruled =>
      rw [ruled]
      exact ⟨fun same => ⟨same, by cases same; exact endsLine_lineFeed behind⟩, And.left⟩
  · next notEnd notLineFeed =>
      constructor
      · intro closed
        cases closed
      · rintro ⟨ruled, ends⟩
        cases rest with
        | nil => exact absurd ruled notEnd
        | cons char others =>
            obtain rfl := ends char rfl
            exact absurd ruled (notLineFeed others)

theorem afterOpening?_line {opening : Text} (noLineFeed : '\n' ∉ opening) (rest : Text) :
    afterOpening? (opening ++ '\n' :: rest) = if IsRule opening then some rest else none := by
  have ruled (found : Text) := afterRule?_append_eq_some_iff noLineFeed (endsLine_lineFeed rest)
    (endsLine_lineFeed found)
  split
  · next isRule => exact afterOpening?_eq_some_iff.mpr ((ruled rest).mpr ⟨isRule, rfl⟩)
  · next notRule =>
      rw [Option.eq_none_iff_forall_ne_some]
      intro found opened
      exact notRule ((ruled found).mp (afterOpening?_eq_some_iff.mp opened)).1

theorem afterOpening?_lastLine {opening : Text} (noLineFeed : '\n' ∉ opening) :
    afterOpening? opening = none := by
  rw [Option.eq_none_iff_forall_ne_some]
  intro found opened
  have ruled := afterOpening?_eq_some_iff.mp opened
  rw [← List.append_nil opening] at ruled
  have last := (afterRule?_append_eq_some_iff noLineFeed endsLine_nil
    (endsLine_lineFeed found)).mp ruled
  cases last.2

theorem afterClosing?_line {line : Text} (noLineFeed : '\n' ∉ line) {behind : Text}
    (ends : EndsLine behind) :
    afterClosing? (line ++ behind) = if IsRule line then some behind else none := by
  split
  · next isRule => exact afterClosing?_eq_some_iff.mpr ⟨isRule.afterRule?_append ends, ends⟩
  · next notRule =>
      rw [Option.eq_none_iff_forall_ne_some]
      intro found closed
      obtain ⟨ruled, foundEnds⟩ := afterClosing?_eq_some_iff.mp closed
      exact notRule ((afterRule?_append_eq_some_iff noLineFeed ends foundEnds).mp ruled).1

/-! ### The closing rule -/

/-- The lines above the first rule, each with its line feed, and the trimmed text below it. -/
def splitAtRule? (lines : List Text) : Option (Text × Text) :=
  if ∃ line ∈ lines, IsRule line then
    some (Text.endLines (lines.takeWhile fun line => ¬ IsRule line),
      Text.trim (Text.join ['\n'] (lines.dropWhile fun line => ¬ IsRule line).tail))
  else none

theorem splitAtRule?_cons_of_rule {line : Text} (isRule : IsRule line) (rest : List Text) :
    splitAtRule? (line :: rest) = some ([], Text.trim (Text.join ['\n'] rest)) := by
  simp [splitAtRule?, isRule]

theorem splitAtRule?_cons_of_not {line : Text} (notRule : ¬ IsRule line) (rest : List Text) :
    splitAtRule? (line :: rest) =
      (splitAtRule? rest).map fun (front, body) => (line ++ '\n' :: front, body) := by
  by_cases closes : ∃ other ∈ rest, IsRule other
  · simp [splitAtRule?, notRule, closes, Text.endLines_cons]
  · simp [splitAtRule?, notRule, closes]

theorem splitAtClosing?_line_of_rule {line : Text} (isRule : IsRule line) {behind : Text}
    (ends : EndsLine behind) : splitAtClosing? true (line ++ behind) = some ([], behind) := by
  have closed := afterClosing?_line isRule.noLineFeed ends
  rw [if_pos isRule] at closed
  obtain ⟨char, others, rfl⟩ := List.exists_cons_of_ne_nil isRule.ne_nil
  rw [List.cons_append] at closed ⊢
  simp only [splitAtClosing?, ↓reduceIte, closed]

theorem splitAtClosing?_of_noLineFeed {lineStart : Bool} {line : Text} (noLineFeed : '\n' ∉ line)
    (inside : lineStart = true → afterClosing? line = none) :
    splitAtClosing? lineStart line = none := by
  induction line generalizing lineStart with
  | nil => rfl
  | cons char rest ih =>
      rw [List.mem_cons, not_or] at noLineFeed
      have sameLine : (char == '\n') = false := by simpa using Ne.symm noLineFeed.1
      rw [splitAtClosing?_cons inside, sameLine, ih noLineFeed.2 (fun starts => by cases starts)]
      rfl

/-- The first line of joined lines, with what stands behind it. -/
theorem exists_join_cons (line : Text) (rest : List Text) :
    ∃ behind, EndsLine behind ∧ Text.join ['\n'] (line :: rest) = line ++ behind ∧
      Text.trim behind = Text.trim (Text.join ['\n'] rest) := by
  cases rest with
  | nil => exact ⟨[], endsLine_nil, (List.append_nil line).symm, rfl⟩
  | cons next others =>
      exact ⟨['\n'] ++ Text.join ['\n'] (next :: others), endsLine_lineFeed _,
        Text.join_cons_cons _ _ _ _, Text.trim_append_of_blank Text.isBlankText_lineFeed _⟩

/-- What the reader finds below the opening rule is told by the lines there. -/
theorem splitAtClosing?_join {lines : List Text} (noLineFeed : ∀ line ∈ lines, '\n' ∉ line) :
    (splitAtClosing? true (Text.join ['\n'] lines)).map
        (fun (front, behind) => (front, Text.trim behind)) = splitAtRule? lines := by
  induction lines with
  | nil => rfl
  | cons line rest ih =>
      have here := noLineFeed line List.mem_cons_self
      have later := ih fun other member => noLineFeed other (List.mem_cons_of_mem _ member)
      by_cases isRule : IsRule line
      · obtain ⟨behind, ends, joined, trimmed⟩ := exists_join_cons line rest
        rw [joined, splitAtClosing?_line_of_rule isRule ends, splitAtRule?_cons_of_rule isRule,
          ← trimmed]
        rfl
      · rw [splitAtRule?_cons_of_not isRule, ← later]
        cases rest with
        | nil =>
            have silent : afterClosing? line = none := by
              simpa [isRule] using afterClosing?_line here endsLine_nil
            have none := splitAtClosing?_of_noLineFeed here fun (_ : true = true) => silent
            simp [Text.join, none, splitAtClosing?]
        | cons next others =>
            have silent : afterClosing? (line ++ '\n' :: Text.join ['\n'] (next :: others)) =
                none := by
              rw [afterClosing?_line here (endsLine_lineFeed _), if_neg isRule]
            rw [Text.join_cons_cons, List.singleton_append,
              splitAtClosing?_append here fun _ => silent, Option.map_map, Option.map_map]
            rfl

/-! ### Documents -/

/-- The front matter and the body of a document by its lines. The first line has to be a rule, and
the next rule below it divides the other lines. -/
def splitLines? : List Text → Option (Text × Text)
  | [] => none
  | opening :: later => if IsRule opening then splitAtRule? later else none

/-- The reader of front matter divides every document as its lines tell. Byte order marks and then
blanks are left out at the beginning, and only a line feed ends a line. -/
theorem split?_eq_splitLines? (content : Text) :
    split? content =
      splitLines? (Text.cutAt (· == '\n')
        ((content.dropWhile (· == '\uFEFF')).dropWhile Text.isBlank)) := by
  unfold split?
  generalize (content.dropWhile (· == '\uFEFF')).dropWhile Text.isBlank = start
  have joined := Text.join_cutAt '\n' start
  have noLineFeed : ∀ line ∈ Text.cutAt (· == '\n') start, '\n' ∉ line := by
    intro line isLine member
    simpa using Text.outside_of_mem_cutAt isLine '\n' member
  obtain ⟨opening, later, shape⟩ :=
    List.exists_cons_of_ne_nil (Text.cutAt_ne_nil (· == '\n') start)
  rw [shape] at joined noLineFeed ⊢
  have noLineFeedOpening := noLineFeed opening List.mem_cons_self
  rw [splitLines?, ← joined]
  cases later with
  | nil =>
      have onlyLine : Text.join ['\n'] [opening] = opening := rfl
      have nothing : splitAtRule? [] = none := rfl
      rw [onlyLine, afterOpening?_lastLine noLineFeedOpening, nothing, ite_self]
  | cons next others =>
      have below := splitAtClosing?_join fun line member =>
        noLineFeed line (List.mem_cons_of_mem opening member)
      rw [Text.join_cons_cons, List.singleton_append, afterOpening?_line noLineFeedOpening,
        ← below]
      by_cases isRule : IsRule opening
      · simp only [if_pos isRule]
        cases splitAtClosing? true (Text.join ['\n'] (next :: others)) <;> rfl
      · simp only [if_neg isRule]

/-- Neither a longer row of hyphens nor a word behind three of them makes a rule. -/
example :
    split? "\n ---\n----\n--- x\n---\t\r\nbody\n---\n".toList =
      some ("----\n--- x\n".toList, "body\n---".toList) := by
  decide

end DocComponents.FrontMatter
