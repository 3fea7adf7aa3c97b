import DocComponents.Proofs.Style.Segments

/-!
# Stylesheets as trees

A stylesheet is made of rules, of at-rule blocks that hold stylesheets, and of at-rule statements.
Scoping its text is scoping its tree: each selector list is scoped on its own, and all other text
stays.
-/

set_option autoImplicit false

namespace DocComponents.Style

open Text (IsBlankText)

/-- A stylesheet: the white space before what stands first in it, this first item, and the rest.
What opens a rule, before its brace, is of the type `Head`. -/
inductive Sheet (Head : Type) where
  | done (gap : Text)
  | rule (gap : Text) (head : Head) (declarations : Text) (rest : Sheet Head)
  | block (gap prelude : Text) (inner rest : Sheet Head)
  | statement (gap prelude : Text) (rest : Sheet Head)

namespace Sheet

variable {Head Other : Type}

/-- The stylesheet with something else made of what opens its rules, at any depth. -/
def map (f : Head → Other) : Sheet Head → Sheet Other
  | done gap => done gap
  | rule gap head declarations rest => rule gap (f head) declarations (rest.map f)
  | block gap prelude inner rest => block gap prelude (inner.map f) (rest.map f)
  | statement gap prelude rest => statement gap prelude (rest.map f)

def heads : Sheet Head → List Head
  | done _ => []
  | rule _ head _ rest => head :: rest.heads
  | block _ _ inner rest => inner.heads ++ rest.heads
  | statement _ _ rest => rest.heads

def print : Sheet Text → Text
  | done gap => gap
  | rule gap head declarations rest =>
    gap ++ (head ++ '{' :: (declarations ++ '}' :: rest.print))
  | block gap prelude inner rest => gap ++ prelude ++ '{' :: (inner.print ++ '}' :: rest.print)
  | statement gap prelude rest => gap ++ prelude ++ ';' :: rest.print

structure IsPrelude (prelude : Text) : Prop where
  start : prelude.head? = some '@'
  uncut : IsUncut prelude

instance (prelude : Text) : Decidable (IsPrelude prelude) :=
  decidable_of_iff (prelude.head? = some '@' ∧ IsUncut prelude)
    ⟨fun ⟨start, uncut⟩ => ⟨start, uncut⟩, fun ⟨start, uncut⟩ => ⟨start, uncut⟩⟩

theorem IsPrelude.isUncut_append {gap prelude : Text} (isPrelude : IsPrelude prelude)
    (blanks : IsBlankText gap) : IsUncut (gap ++ prelude) := by
  intro char member
  exact (List.mem_append.mp member).elim
    ((isListText_of_isBlankText blanks).isUncut char) (isPrelude.uncut char)

/-- A stylesheet whose text can be told apart into its items: only white space stands between them,
declarations hold no braces, and preludes are preludes. -/
inductive IsWritten (IsHead : Head → Prop) : Sheet Head → Prop where
  | done {gap} : IsBlankText gap → IsWritten IsHead (done gap)
  | rule {gap head declarations rest} : IsBlankText gap → IsHead head →
      '{' ∉ declarations → '}' ∉ declarations → IsWritten IsHead rest →
      IsWritten IsHead (rule gap head declarations rest)
  | block {gap prelude inner rest} : IsBlankText gap → IsPrelude prelude →
      IsWritten IsHead inner → IsWritten IsHead rest →
      IsWritten IsHead (block gap prelude inner rest)
  | statement {gap prelude rest} : IsBlankText gap → IsPrelude prelude → IsWritten IsHead rest →
      IsWritten IsHead (statement gap prelude rest)

theorem IsWritten.isHead {IsHead : Head → Prop} {sheet : Sheet Head}
    (written : sheet.IsWritten IsHead) : ∀ head ∈ sheet.heads, IsHead head := by
  induction written with
  | done => simp [heads]
  | rule _ isHead _ _ _ ih =>
      intro head member
      rcases List.mem_cons.mp member with rfl | later
      · exact isHead
      · exact ih head later
  | block _ _ _ _ innerIH restIH =>
      intro head member
      exact (List.mem_append.mp member).elim (innerIH head) (restIH head)
  | statement _ _ _ ih => exact ih

theorem IsWritten.map {IsHead : Head → Prop} {IsOther : Other → Prop} {f : Head → Other}
    (keeps : ∀ head, IsHead head → IsOther (f head)) {sheet : Sheet Head}
    (written : sheet.IsWritten IsHead) : (sheet.map f).IsWritten IsOther := by
  induction written with
  | done blanks => exact .done blanks
  | rule blanks isHead noOpening noClosing _ ih =>
      exact .rule blanks (keeps _ isHead) noOpening noClosing ih
  | block blanks isPrelude _ _ innerIH restIH => exact .block blanks isPrelude innerIH restIH
  | statement blanks isPrelude _ ih => exact .statement blanks isPrelude ih

theorem map_id (sheet : Sheet Head) : sheet.map id = sheet := by
  induction sheet with
  | done gap => rfl
  | rule gap head declarations rest ih => rw [Sheet.map, ih, id]
  | block gap prelude inner rest innerIH restIH => rw [Sheet.map, innerIH, restIH]
  | statement gap prelude rest ih => rw [Sheet.map, ih]

theorem map_congr {f g : Head → Other} {sheet : Sheet Head}
    (same : ∀ head ∈ sheet.heads, f head = g head) : sheet.map f = sheet.map g := by
  induction sheet with
  | done gap => rfl
  | rule gap head declarations rest ih =>
      rw [Sheet.map, Sheet.map, same head List.mem_cons_self,
        ih fun other member => same other (List.mem_cons_of_mem _ member)]
  | block gap prelude inner rest innerIH restIH =>
      rw [Sheet.map, Sheet.map, innerIH fun head member => same head (List.mem_append_left _ member),
        restIH fun head member => same head (List.mem_append_right _ member)]
  | statement gap prelude rest ih => rw [Sheet.map, Sheet.map, ih same]

end Sheet

theorem not_mem_of_isUncut {text : Text} (uncut : IsUncut text) : '{' ∉ text := fun member =>
  absurd (uncut '{' member) (by decide)

/-- What scoping makes of the text that opens a rule, when nothing stands before it. -/
def scopeHead (lead head : Text) : Text :=
  (scopeFrom lead true (head ++ ['{'])).dropLast

theorem scopeFrom_head (lead head : Text) :
    scopeFrom lead true (head ++ ['{']) = scopeHead lead head ++ ['{'] := by
  rw [scopeHead, scopeFrom_concat lead true head (by decide), List.dropLast_concat]

/-- A text that opens a rule does not begin with the end of what stands before it. -/
def IsOpening (head : Text) : Prop :=
  ∀ char, head.head? = some char → isDelimiter char = false

theorem scopeFrom_gap_head {gap head : Text} (blanks : IsBlankText gap)
    (opening : IsOpening head) (lead : Text) :
    scopeFrom lead true (gap ++ (head ++ ['{'])) = gap ++ (scopeHead lead head ++ ['{']) := by
  rw [← scopeFrom_head]
  cases head with
  | nil =>
      have stays : scopeList lead gap = gap := by
        have same := scopeList_append_of_blank blanks lead []
        rw [List.append_nil] at same
        exact same.trans (List.append_nil gap)
      rw [List.nil_append, scopeFrom_list lead true (isListText_of_isBlankText blanks),
        if_pos rfl, stays]
      rfl
  | cons char rest =>
      exact scopeFrom_append_of_blank blanks lead true (opening char rfl) (rest ++ ['{'])

/-- A rule is scoped in what opens it. -/
theorem scopeFrom_rule {gap head declarations : Text} (blanks : IsBlankText gap)
    (opening : IsOpening head) (noBrace : '{' ∉ declarations) (lead rest : Text) :
    scopeFrom lead true (gap ++ (head ++ '{' :: (declarations ++ '}' :: rest))) =
      gap ++ (scopeHead lead head ++
        '{' :: (declarations ++ '}' :: scopeFrom lead true rest)) := by
  have shape : gap ++ (head ++ '{' :: (declarations ++ '}' :: rest)) =
      (gap ++ (head ++ ['{'])) ++ (declarations ++ '}' :: rest) := by simp
  have closed : IsClosed (gap ++ (head ++ ['{'])) := by
    rw [← List.append_assoc]
    exact isClosed_concat _ (by decide)
  rw [shape, closed.scopeFrom_append, scopeFrom_gap_head blanks opening,
    scopeFrom_append_of_not_mem _ _ noBrace (by decide) (by decide)]
  simp

theorem scopeFrom_closing (lead rest : Text) :
    scopeFrom lead true ('}' :: rest) = '}' :: scopeFrom lead true rest :=
  scopeFrom_append_of_not_mem lead true List.not_mem_nil (by decide) (by decide) rest

namespace Sheet

/-- Scoping the text of a stylesheet is scoping what opens its rules, each on its own. What stands
behind the stylesheet is nothing, or the brace that closes the block it stands in. -/
theorem scopeFrom_print_append {sheet : Sheet Text} (written : sheet.IsWritten IsOpening)
    (lead : Text) {behind : Text} (ends : behind = [] ∨ ∃ rest, behind = '}' :: rest) :
    scopeFrom lead true (sheet.print ++ behind) =
      (sheet.map (scopeHead lead)).print ++ scopeFrom lead true behind := by
  induction written generalizing behind with
  | @done gap blanks =>
      have noBrace := not_mem_of_isUncut (isListText_of_isBlankText blanks).isUncut
      rcases ends with rfl | ⟨rest, rfl⟩
      · rw [List.append_nil, print, scopeFrom_of_not_mem lead true noBrace]
        exact (List.append_nil gap).symm
      · have here : scopeFrom lead true (gap ++ '}' :: rest) =
            gap ++ '}' :: scopeFrom lead true rest :=
          scopeFrom_append_of_not_mem lead true noBrace (by decide) (by decide) rest
        rw [print, here, scopeFrom_closing]
        rfl
  | @rule gap head declarations rest blanks opening noOpening _ _ ih =>
      have shape : (rule gap head declarations rest).print ++ behind =
          gap ++ (head ++ '{' :: (declarations ++ '}' :: (rest.print ++ behind))) := by
        simp [print]
      rw [shape, scopeFrom_rule blanks opening noOpening, ih ends]
      simp [print, Sheet.map]
  | @block gap prelude inner rest blanks isPrelude _ _ innerIH restIH =>
      have shape : (block gap prelude inner rest).print ++ behind =
          (gap ++ prelude) ++ '{' :: (inner.print ++ '}' :: (rest.print ++ behind)) := by
        simp [print]
      have uncut := isPrelude.isUncut_append blanks
      have hasAt : '@' ∈ gap ++ prelude :=
        List.mem_append_right gap (List.mem_of_mem_head? isPrelude.start)
      rw [shape, scopeFrom_append_of_mem_at lead true uncut hasAt, innerIH (.inr ⟨_, rfl⟩),
        scopeFrom_closing, restIH ends]
      simp [print, Sheet.map]
  | @statement gap prelude rest blanks isPrelude _ ih =>
      have shape : (statement gap prelude rest).print ++ behind =
          (gap ++ prelude) ++ ';' :: (rest.print ++ behind) := by
        simp [print]
      have noBrace := not_mem_of_isUncut (isPrelude.isUncut_append blanks)
      rw [shape, scopeFrom_append_of_not_mem lead true noBrace (by decide) (by decide), ih ends]
      simp [print, Sheet.map]

/-- A scoped stylesheet is the stylesheet with each of its rules scoped in what opens it. -/
theorem scope_print {sheet : Sheet Text} (written : sheet.IsWritten IsOpening) (token : Text) :
    scope sheet.print token = (sheet.map (scopeHead (scopeAttribute token))).print := by
  have printed := sheet.scopeFrom_print_append written (scopeAttribute token) (.inl rfl)
  have empty : scopeFrom (scopeAttribute token) true [] = [] := rfl
  rw [List.append_nil, empty, List.append_nil] at printed
  exact (scope_eq_scopeFrom _ _).trans printed

end Sheet

theorem IsListText.isOpening {text : Text} (isList : IsListText text) : IsOpening text :=
  fun char found => isList.isUncut char (List.mem_of_mem_head? found)

theorem scopeHead_of_isListText {text : Text} (isList : IsListText text) (lead : Text) :
    scopeHead lead text = scopeList lead text := by
  rw [scopeHead, scopeFrom_list lead true isList, if_pos rfl, List.dropLast_concat]

/-- A scoped stylesheet is the stylesheet with its selector lists scoped, at any depth: the
selectors of a list are scoped one by one, and a list without selectors stays as it is. -/
theorem scope_print_eq_print_map (token : Text) {sheet : Sheet Text}
    (written : sheet.IsWritten IsListText) :
    let lead := scopeAttribute token
    scope sheet.print token = (sheet.map (scopeList lead)).print ∧
      ∀ list ∈ sheet.heads,
        (Selector.split list ≠ [] →
          scopeList lead list = list.takeWhile Text.isBlank ++
            Text.join [',', ' '] ((Selector.split list).map (Selector.scope lead)) ++ [' ']) ∧
        (Selector.split list = [] → scopeList lead list = list) := by
  intro lead
  have opening : sheet.IsWritten IsOpening := by
    rw [← sheet.map_id]
    exact written.map fun _ isList => isList.isOpening
  have lists : sheet.map (scopeHead lead) = sheet.map (scopeList lead) :=
    Sheet.map_congr fun list member => scopeHead_of_isListText (written.isHead list member) lead
  refine ⟨?_, fun list _ => ⟨scopeList_of_split_ne_nil, scopeList_of_split_eq_nil⟩⟩
  rw [Sheet.scope_print opening, lists]

/-- A statement and a block with three rules, of which the last one has no selectors. -/
def layeredSheet : Sheet Text :=
  .statement [] "@import url(x.css)".toList
    (.block ['\n'] "@media (a, b)".toList
      (.rule [' '] ".a, :is(b, c) > d ".toList " e: f; ".toList
        (.rule [] ":root ,, 50%,".toList "@".toList (.rule [' '] " , ".toList [] (.done [' ']))))
      (.done ['\n']))

theorem scope_print_eq_print_map_layered :
    layeredSheet.IsWritten IsListText ∧
      scope layeredSheet.print ['t'] =
        (layeredSheet.map (scopeList (scopeAttribute ['t']))).print ∧
      scope layeredSheet.print ['t'] =
        ("@import url(x.css);\n@media (a, b)\x7b [data-scope=\"t\"] .a, " ++
          "[data-scope=\"t\"] :is(b, c) > d \x7b e: f; \x7d:root, 50% \x7b@\x7d  , " ++
            "\x7b\x7d \x7d\n").toList := by
  have written : layeredSheet.IsWritten IsListText :=
    .statement (by decide) (by decide)
      (.block (by decide) (by decide)
        (.rule (by decide) (by decide) (by decide) (by decide)
          (.rule (by decide) (by decide) (by decide) (by decide)
            (.rule (by decide) (by decide) (by decide) (by decide) (.done (by decide)))))
        (.done (by decide)))
  exact ⟨written, (scope_print_eq_print_map ['t'] written).1, by decide +kernel⟩

/-- A list of commas is not replaced by its selectors, of which it has none. -/
theorem comma_list_not_replaced :
    let sheet : Sheet Text := .rule [] [','] [] (.done [])
    let token := scopeToken ['x'] 0
    let lead := scopeAttribute token
    isIdentifier ['x'] = true ∧ sheet.IsWritten IsListText ∧ ¬ IsBlankText [','] ∧
      ∀ gap, IsBlankText gap →
        scope sheet.print token ≠
          (sheet.map fun list =>
            Text.join [',', ' '] ((Selector.split list).map (Selector.scope lead)) ++ gap).print := by
  intro sheet token lead
  have stays : scope sheet.print token = ",\x7b\x7d".toList := by decide +kernel
  have noSelectors : Selector.split [','] = [] := by decide
  refine ⟨by decide, .rule Text.isBlankText_nil (by decide) (by simp) (by simp)
    (.done Text.isBlankText_nil), fun blank => absurd (blank ',' (by simp)) (by decide), ?_⟩
  intro gap blanks same
  have replaced : (sheet.map fun list =>
      Text.join [',', ' '] ((Selector.split list).map (Selector.scope lead)) ++ gap).print =
        gap ++ ['{', '}'] := by
    simp [sheet, Sheet.map, Sheet.print, noSelectors, Text.join]
  have first : (gap ++ ['{', '}']).head? = some ',' := by
    rw [← replaced, ← same, stays]
    decide
  cases gap with
  | nil => exact absurd first (by decide)
  | cons char rest =>
      have comma : char = ',' := Option.some.inj first
      exact absurd (blanks char List.mem_cons_self) (by rw [comma]; decide)

end DocComponents.Style
