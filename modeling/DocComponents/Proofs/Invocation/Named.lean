import DocComponents.Proofs.Invocation.Tiling
import Mathlib.Tactic.TFAE

/-!
# Names that texts invoke

The names that texts can invoke are the identifiers: read alone, with what stands around a call
trimmed, on a line of a block, and in a marker, which nothing is trimmed in.
-/

set_option autoImplicit false

namespace DocComponents

namespace Invocation

variable {text name : Text} {invocation : Invocation}

theorem isIdentifier_of_read? (read : read? text = some invocation) :
    isIdentifier invocation.name = true := by
  unfold read? at read
  split at read
  · cases read
  · next name afterName taken =>
      obtain ⟨identifier, -⟩ := isName_of_takeName? taken
      split at read
      · cases read
        exact identifier
      · split at read
        · cases read
          exact identifier
        · cases read
      · cases read

theorem isIdentifier_of_mem_readBlock (source : Text) :
    ∀ invocation ∈ readBlock source, isIdentifier invocation.name = true := by
  intro invocation member
  obtain ⟨line, -, read⟩ := List.mem_filterMap.mp member
  exact isIdentifier_of_read? read

theorem isOneLine_name (identifier : isIdentifier name = true) : Text.IsOneLine name := by
  intro char member
  exact isLineBreak_eq_false_of_isNameChar (isNameChar_of_mem_identifier identifier member)

theorem readBlock_name (identifier : isIdentifier name = true) : readBlock name = [{ name }] := by
  rw [readBlock, Text.lines_of_isOneLine (isOneLine_name identifier) (ne_nil_of_isName identifier)]
  simp [read?_name identifier]

end Invocation

def bareMarker (name : Text) : Text :=
  "::".toList ++ name ++ "::".toList

theorem recogniseMarker_bareMarker {name : Text} (identifier : isIdentifier name = true) :
    recogniseMarker (bareMarker name) = some (name, (bareMarker name).length) := by
  have recognised := (IsCall.bare identifier).recogniseMarker_eq []
  rwa [List.append_nil] at recognised

theorem bareMarker_ne_nil (name : Text) : bareMarker name ≠ [] := by
  simp [bareMarker]

theorem not_mem_bareMarker {name : Text} (identifier : isIdentifier name = true) {char : Char}
    (noColon : char ≠ ':') (outside : isNameChar char = false) : char ∉ bareMarker name := by
  have inName : char ∉ name := fun member => by
    rw [isNameChar_of_mem_identifier identifier member] at outside
    cases outside
  simp [bareMarker, noColon, inName]

namespace Marker

theorem isIdentifier_of_mem_findAll {text : Text} {marker : Marker} {invocation : Invocation}
    (member : marker ∈ findAll text) (holds : marker.invocation = some invocation) :
    isIdentifier invocation.name = true := by
  obtain ⟨call, -, read, -⟩ := exists_hit_of_mem_ofPieces member
  exact Invocation.isIdentifier_of_read? (read.symm.trans holds)

end Marker

theorem tfae_isInvocable (definition : Definition) :
    [definition.isInvocable = true,
      ∃ text invocation, Invocation.read? text = some invocation ∧
        invocation.name = definition.name,
      ∃ line, Text.IsOneLine line ∧
        ∃ invocation ∈ Invocation.readBlock line, invocation.name = definition.name,
      ∃ source, ∃ invocation ∈ Invocation.readBlock source, invocation.name = definition.name,
      ∃ text, ∃ marker ∈ Marker.findAll text, ∃ invocation,
        marker.invocation = some invocation ∧ invocation.name = definition.name].TFAE := by
  tfae_have 1 → 2 := fun identifier =>
    ⟨definition.name, _, Invocation.read?_name identifier, rfl⟩
  tfae_have 1 → 3 := by
    intro identifier
    have reads := Invocation.readBlock_name identifier
    exact ⟨definition.name, Invocation.isOneLine_name identifier, _,
      reads ▸ List.mem_singleton_self _, rfl⟩
  tfae_have 3 → 4 := by
    intro line
    obtain ⟨line, -, read⟩ := line
    exact ⟨line, read⟩
  tfae_have 1 → 5 := by
    intro identifier
    have found := Marker.findAll_of_recognised (bareMarker_ne_nil _)
      (recogniseMarker_bareMarker identifier)
    exact ⟨bareMarker definition.name, _, found ▸ List.mem_singleton_self _, _,
      Invocation.read?_name identifier, rfl⟩
  tfae_have 2 → 1 := by
    intro text
    obtain ⟨text, invocation, read, same⟩ := text
    rw [Definition.isInvocable, ← same]
    exact Invocation.isIdentifier_of_read? read
  tfae_have 4 → 1 := by
    intro source
    obtain ⟨source, invocation, member, same⟩ := source
    rw [Definition.isInvocable, ← same]
    exact Invocation.isIdentifier_of_mem_readBlock source invocation member
  tfae_have 5 → 1 := by
    intro text
    obtain ⟨text, marker, member, invocation, holds, same⟩ := text
    rw [Definition.isInvocable, ← same]
    exact Marker.isIdentifier_of_mem_findAll member holds
  tfae_finish

/-- A line feed is trimmed off a call, and is no part of a name. -/
example : (Invocation.read? "card\n".toList).map Invocation.name = some "card".toList ∧
    isIdentifier "card\n".toList = false := by
  decide

end DocComponents
