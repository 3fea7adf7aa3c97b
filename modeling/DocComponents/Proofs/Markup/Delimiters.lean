import DocComponents.Markup.Element
import Mathlib.Data.List.Basic

/-!
# The delimiters of markup

Tags and attribute values are told apart by angle brackets and double quotes. Escaping is a map of
characters that writes none of them, so the delimiters of an element are those of its tags and of
the markup inside it.
-/

set_option autoImplicit false

namespace DocComponents

namespace Markup

def escapeChar (char : Char) : Text :=
  (entities.lookup char).getD [char]

/-- The characters that have entities. -/
theorem mem_entities_iff {char : Char} :
    char ∈ entities.map Prod.fst ↔ char = '&' ∨ char = '<' ∨ char = '>' ∨ char = '"' := by
  have escaped : entities.map Prod.fst = ['&', '<', '>', '"'] := rfl
  simp [escaped]

theorem escapeChar_of_not_mem {char : Char} (plain : char ∉ entities.map Prod.fst) :
    escapeChar char = [char] := by
  have absent : entities.lookup char = none := by
    rw [List.lookup_eq_none_iff]
    intro entity member
    have apart : char ≠ entity.1 := fun same =>
      plain (List.mem_map.mpr ⟨entity, member, same.symm⟩)
    simpa using apart
  simp [escapeChar, absent]

/-- The ampersand goes first, so the entities that are put in are not escaped again. -/
theorem escape_eq_flatMap (text : Text) : escape text = text.flatMap escapeChar := by
  unfold escape entities Text.replaceChar
  rw [List.foldl_cons, List.foldl_cons, List.foldl_cons, List.foldl_cons, List.foldl_nil,
    List.flatMap_assoc, List.flatMap_assoc, List.flatMap_assoc]
  refine List.flatMap_congr fun char _ => ?_
  by_cases escaped : char ∈ entities.map Prod.fst
  · rcases mem_entities_iff.mp escaped with rfl | rfl | rfl | rfl <;> decide
  · rw [escapeChar_of_not_mem escaped]
    simp only [mem_entities_iff, not_or] at escaped
    rw [if_neg escaped.1, List.flatMap_singleton, if_neg escaped.2.1, List.flatMap_singleton,
      if_neg escaped.2.2.1, List.flatMap_singleton, if_neg escaped.2.2.2]

theorem escape_of_not_mem {text : Text} (plain : ∀ char ∈ text, char ∉ entities.map Prod.fst) :
    escape text = text := by
  rw [escape_eq_flatMap]
  induction text with
  | nil => rfl
  | cons char rest ih =>
      rw [List.flatMap_cons, escapeChar_of_not_mem (plain char List.mem_cons_self),
        ih fun other member => plain other (List.mem_cons_of_mem _ member), List.singleton_append]

/-- The characters that delimit tags and attribute values. -/
def isDelimiter (char : Char) : Bool :=
  char == '<' || char == '>' || char == '"'

def delimiters (text : Text) : Text :=
  text.filter isDelimiter

@[simp]
theorem delimiters_append (left right : Text) :
    delimiters (left ++ right) = delimiters left ++ delimiters right :=
  List.filter_append left right

theorem delimiters_eq_nil_iff {text : Text} :
    delimiters text = [] ↔ ∀ char ∈ text, isDelimiter char = false := by
  simp [delimiters]

private theorem delimiters_escapeChar (char : Char) : delimiters (escapeChar char) = [] := by
  by_cases escaped : char ∈ entities.map Prod.fst
  · rcases mem_entities_iff.mp escaped with rfl | rfl | rfl | rfl <;> decide
  · rw [escapeChar_of_not_mem escaped, delimiters_eq_nil_iff]
    simp only [mem_entities_iff, not_or] at escaped
    simp [isDelimiter, escaped]

/-- Escaped text holds no delimiter. -/
@[simp]
theorem delimiters_escape (text : Text) : delimiters (escape text) = [] := by
  rw [escape_eq_flatMap, delimiters_eq_nil_iff]
  intro char member
  obtain ⟨source, -, written⟩ := List.mem_flatMap.mp member
  exact delimiters_eq_nil_iff.mp (delimiters_escapeChar source) char written

end Markup

theorem Node.htmlAll_append (left right : List Node) :
    Node.htmlAll (left ++ right) = Node.htmlAll left ++ Node.htmlAll right := by
  induction left with
  | nil => rfl
  | cons node rest ih => simp [Node.htmlAll, ih]

namespace Element

/-- An element shows no delimiters of its children but those in the markup they are written as. -/
theorem delimiters_html_congr (element : Element Node) {children others : List Node}
    (same : Markup.delimiters (Node.htmlAll children) = Markup.delimiters (Node.htmlAll others)) :
    Markup.delimiters ({ element with children := children } : Element Node).html =
      Markup.delimiters ({ element with children := others } : Element Node).html := by
  unfold Element.html Element.toNode Node.html
  split
  · rfl
  · simp only [Markup.delimiters_append, same]

end Element

end DocComponents
