import DocComponents.Definition.Reader
import DocComponents.Proofs.Identifier
import DocComponents.Proofs.Props

/-!
# What a document declares

Front matter is read line by line, so a default value never holds the end of a line, and its key is
a prop key. Whatever a component document holds, its definition has such props.
-/

set_option autoImplicit false

namespace DocComponents

/-- Props as front matter can declare them: each value stands on one line behind a prop key. -/
structure Props.AreDeclarable (props : Props) : Prop where
  key : ∀ pair ∈ props.pairs, isPropKey pair.1 = true
  value : ∀ pair ∈ props.pairs, Text.IsOneLine pair.2

namespace FrontMatter

theorem mem_of_mem_stripQuotes {text : Text} {char : Char} (member : char ∈ stripQuotes text) :
    char ∈ text := by
  unfold stripQuotes at member
  split at member
  · split at member
    · exact List.mem_cons_of_mem _ ((List.dropLast_sublist _).subset member)
    · exact member
  · exact member

theorem mapEntry?_spec {line key value : Text} (entry : mapEntry? line = some (key, value)) :
    isPropKey key = true ∧ ∀ char ∈ value, char ∈ line := by
  unfold mapEntry? at entry
  split at entry
  · cases entry
  · split at entry
    · next taken =>
        cases entry
        obtain ⟨named, shape⟩ := isName_of_takeName? taken
        refine ⟨named, ?_⟩
        intro char member
        have inRest := Text.mem_of_mem_trim (mem_of_mem_stripQuotes member)
        have inTail : char ∈ line.dropWhile Text.isAsciiBlank := by
          rw [shape]
          exact List.mem_append_right _ (List.mem_cons_of_mem _ inRest)
        exact (List.dropWhile_sublist _).subset inTail
    · cases entry

theorem exists_entry_of_mem_mapPairs {key : Text} {inMap : Bool} {lines : List Text}
    {pair : Text × Text} (member : pair ∈ mapPairs key inMap lines) :
    ∃ line ∈ lines, mapEntry? line = some pair := by
  induction lines generalizing inMap with
  | nil => cases member
  | cons first rest ih =>
      have later {inMap : Bool} (found : pair ∈ mapPairs key inMap rest) :
          ∃ line ∈ first :: rest, mapEntry? line = some pair := by
        obtain ⟨line, isLine, entry⟩ := ih found
        exact ⟨line, List.mem_cons_of_mem _ isLine, entry⟩
      unfold mapPairs at member
      split at member
      · exact later member
      · split at member
        · split at member
          · next entry =>
              rcases List.mem_cons.mp member with rfl | found
              · exact ⟨first, List.mem_cons_self, entry⟩
              · exact later found
          · exact later member
        · exact later member

theorem areDeclarable_map (front key : Text) : (map front key).AreDeclarable := by
  have spec : ∀ pair ∈ (map front key).pairs,
      isPropKey pair.1 = true ∧ Text.IsOneLine pair.2 := by
    intro pair member
    obtain ⟨line, isLine, entry⟩ := exists_entry_of_mem_mapPairs (Props.mem_ofPairs member)
    obtain ⟨named, inLine⟩ := mapEntry?_spec entry
    have oneLine := Text.isOneLine_of_mem_lines isLine
    exact ⟨named, fun char inside => oneLine char (inLine char inside)⟩
  exact ⟨fun pair member => (spec pair member).1, fun pair member => (spec pair member).2⟩

end FrontMatter

namespace Definition

/-- A document that is a definition has front matter, which holds the props, and a body, which
holds the script. -/
theorem exists_split_of_read? {content path : Text} {definition : Definition}
    (read : read? content path = some definition) :
    ∃ front body, FrontMatter.split? content = some (front, body) ∧
      definition.props = FrontMatter.map front "props".toList ∧
      definition.script = (Tag.script.extract (Tag.style.extract body).2).1 := by
  unfold read? at read
  split at read
  · cases read
  · next front body found =>
      dsimp only at read
      split at read
      · cases read
      · cases read
        exact ⟨front, body, found, rfl, rfl⟩

/-- The props of a definition that was read are declarable. -/
theorem areDeclarable_of_read? {content path : Text} {definition : Definition}
    (read : read? content path = some definition) : definition.props.AreDeclarable := by
  obtain ⟨front, body, -, props, -⟩ := exists_split_of_read? read
  rw [props]
  exact FrontMatter.areDeclarable_map front _

end Definition

end DocComponents
