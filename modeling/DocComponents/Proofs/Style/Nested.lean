import DocComponents.Proofs.Style.Segments
import Mathlib.Algebra.Group.Nat.Even
import Mathlib.Data.List.Induction

/-!
# Selector lists behind selector lists

A brace that ends a scoped list is not seen as the boundary before another list. So of the lists
that stand in a row, each right behind the brace of the one before it, every second one keeps its
selectors as they are.
-/

set_option autoImplicit false

namespace DocComponents.Style

/-- How many lists stand in a row at the end of segments, each right behind the brace of the one
before it. -/
def listsInRow (segments : List Segment) : Nat :=
  (segments.reverse.takeWhile Segment.opensRule).length

theorem listsInRow_concat (segments : List Segment) (last : Segment) :
    listsInRow (segments ++ [last]) = if last.opensRule then listsInRow segments + 1 else 0 := by
  unfold listsInRow
  rw [List.reverse_append, List.reverse_singleton, List.singleton_append, List.takeWhile_cons]
  split <;> simp

/-- The lists of a row take turns. -/
theorem freeBehind_eq_true_iff (segments : List Segment) :
    freeBehind true segments = true ↔ Even (listsInRow segments) := by
  induction segments using List.reverseRecOn with
  | nil => simp [freeBehind, listsInRow]
  | append_singleton before last ih =>
      rw [freeBehind_append, listsInRow_concat]
      cases opens : last.opensRule with
      | false => simp [freeBehind, opens]
      | true =>
          simp only [freeBehind, opens, Bool.and_true, Bool.not_eq_true', if_true,
            Nat.even_add_one, ← ih, Bool.not_eq_true]

/-- What becomes of a list behind text that ends with a delimiter. -/
theorem scope_list_append (token : Text) {before list : Text} (starts : IsClosed before)
    (isList : IsListText list) (after : Text) :
    let lead := scopeAttribute token
    let free := freeBehind true (cut before).1
    scope (before ++ list ++ '{' :: after) token =
      scope before token ++ (if free then scopeList lead list else list) ++
        '{' :: scopeFrom lead (freeBehind free (cut (list ++ ['{'])).1) after := by
  intro lead free
  have closed : IsClosed (list ++ ['{']) := isClosed_concat list (by decide)
  have shape : before ++ list ++ '{' :: after = before ++ ((list ++ ['{']) ++ after) := by simp
  rw [scope_eq_scopeFrom, scope_eq_scopeFrom, shape, starts.scopeFrom_append,
    closed.scopeFrom_append, scopeFrom_list _ _ isList]
  simp only [List.append_assoc, List.singleton_append]
  rfl

/-- A selector list that stands at the beginning of a stylesheet or right behind a brace or a
semicolon is scoped when an even number of lists stands in a row right before it, and stays as it is
otherwise. So its selectors are under the scope exactly then, or when all of them are exempt. -/
theorem selector_list_scoped_iff {name : Text} (identifier : isIdentifier name = true)
    (number : Nat) {before list : Text} (starts : IsClosed before) (isList : IsListText list)
    (after : Text) :
    let token := scopeToken name number
    let lead := scopeAttribute token
    let lists := listsInRow (cut before).1
    ∃ placed behind,
      scope (before ++ list ++ '{' :: after) token =
          scope before token ++ placed ++ '{' :: behind ∧
        IsListText placed ∧
        (Even lists → Selector.split placed = (Selector.split list).map (Selector.scope lead)) ∧
        (¬ Even lists → placed = list) ∧
        ((∀ selector ∈ Selector.split placed, Selector.isExempt lead selector = true) ↔
          Even lists ∨
            ∀ selector ∈ Selector.split list, Selector.isExempt lead selector = true) := by
  intro token lead lists
  have isLead : IsSafeLead lead := isSafeLead_scopeAttribute
    (isPlainToken_of_isNameChar fun _ => isNameChar_of_mem_scopeToken identifier)
  refine ⟨_, _, scope_list_append token starts isList after, ?_⟩
  by_cases even : Even lists
  · have split := split_scopeList isLead.toIsLead list
    have exempt : ∀ selector ∈ Selector.split (scopeList lead list),
        Selector.isExempt lead selector = true := by
      intro selector member
      rw [split] at member
      obtain ⟨source, -, rfl⟩ := List.mem_map.mp member
      exact Selector.isExempt_scope lead source
    rw [if_pos ((freeBehind_eq_true_iff _).mpr even)]
    exact ⟨isList.scopeList isLead, fun _ => split, fun odd => absurd even odd,
      iff_of_true exempt (.inl even)⟩
  · rw [if_neg (mt (freeBehind_eq_true_iff _).mp even)]
    exact ⟨isList, fun holds => absurd holds even, fun _ => rfl,
      ⟨.inr, fun given => given.resolve_left even⟩⟩

/-- The beginning of a stylesheet in which the list of the third rule stands behind two lists. -/
def nestedStyles : Text :=
  "@media x \x7b .a \x7b .b, :root \x7b".toList

theorem selector_list_scoped_iff_nested :
    isIdentifier ['x'] = true ∧ IsClosed nestedStyles ∧ IsListText " .c, 50%".toList ∧
      Even (listsInRow (cut nestedStyles).1) ∧
      ∃ placed behind,
        scope (nestedStyles ++ " .c, 50%".toList ++ '{' :: " \x7d\x7d\x7d\x7d".toList)
            (scopeToken ['x'] 7) =
          scope nestedStyles (scopeToken ['x'] 7) ++ placed ++ '{' :: behind ∧
        ∀ selector ∈ Selector.split placed,
          Selector.isExempt (scopeAttribute (scopeToken ['x'] 7)) selector = true := by
  have identifier : isIdentifier ['x'] = true := by decide
  have starts : IsClosed nestedStyles :=
    isClosed_concat "@media x \x7b .a \x7b .b, :root ".toList (by decide)
  have isList : IsListText " .c, 50%".toList := by decide
  have even : Even (listsInRow (cut nestedStyles).1) := by decide +kernel
  obtain ⟨placed, behind, rewritten, -, -, -, exempt⟩ :=
    selector_list_scoped_iff identifier 7 starts isList " \x7d\x7d\x7d\x7d".toList
  exact ⟨identifier, starts, isList, even, placed, behind, rewritten, exempt.mpr (.inl even)⟩

/-- The list of a rule right inside another rule keeps its selector. -/
theorem selector_list_not_scoped_inside_rule :
    let token := scopeToken ['x'] 0
    let list := " .b ".toList
    isIdentifier ['x'] = true ∧ IsClosed ".a \x7b".toList ∧ IsListText list ∧
      scope (".a \x7b".toList ++ list ++ '{' :: " color: red \x7d \x7d".toList) token =
        scope ".a \x7b".toList token ++ list ++ '{' :: " color: red \x7d \x7d".toList ∧
      ".b".toList ∈ Selector.split list ∧
      Selector.isExempt (scopeAttribute token) ".b".toList = false := by
  refine ⟨by decide, isClosed_concat ".a ".toList (by decide), ?_⟩
  decide +kernel

end DocComponents.Style
