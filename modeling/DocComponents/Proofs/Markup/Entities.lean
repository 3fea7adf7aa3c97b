import DocComponents.Proofs.Markup.Delimiters
import DocComponents.Proofs.Text.Scan

/-!
# Reading entities back

The entities are put in one after the other, and yet each character of the text is escaped once: the
ampersand goes first, and the entities put in later hold nothing that is escaped after them. Read in
one pass, the entities give the text back, also where it held entities itself.
-/

set_option autoImplicit false

namespace DocComponents.Markup

/-- The character whose entity stands at the beginning of a text, and the length of the entity. -/
def recogniseEntity (text : Text) : Option (Char × Nat) :=
  (entities.find? fun entity => Text.startsWith text entity.2).map fun entity =>
    (entity.1, entity.2.length)

/-- The text with every entity read as the character it stands for, in one pass. -/
def unescape (text : Text) : Text :=
  Text.replaceHits (fun char => [char]) (Text.scan recogniseEntity text)

theorem head?_of_mem_entities : ∀ entity ∈ entities, entity.2.head? = some '&' := by
  decide

theorem recogniseEntity_append {char : Char} {entity : Text} (isEntity : (char, entity) ∈ entities)
    (rest : Text) : recogniseEntity (entity ++ rest) = some (char, entity.length) := by
  -- No entity is the beginning of another one, so the first one that fits is the one written.
  simp only [entities, List.mem_cons, List.not_mem_nil, or_false, Prod.mk.injEq] at isEntity
  rcases isEntity with ⟨rfl, rfl⟩ | ⟨rfl, rfl⟩ | ⟨rfl, rfl⟩ | ⟨rfl, rfl⟩ <;> rfl

theorem recogniseEntity_cons_of_ne {char : Char} (plain : char ≠ '&') (rest : Text) :
    recogniseEntity (char :: rest) = none := by
  have noEntity : ∀ entity ∈ entities, ¬ Text.startsWith (char :: rest) entity.2 = true := by
    intro entity isEntity begins
    obtain ⟨behind, whole⟩ := Text.startsWith_eq_true_iff.mp begins
    have first := head?_of_mem_entities entity isEntity
    have same := congrArg List.head? whole
    rw [List.head?_append, first] at same
    exact plain (Option.some.inj same)
  rw [recogniseEntity, List.find?_eq_none.mpr noEntity]
  rfl

theorem unescape_append {char : Char} {entity : Text} (isEntity : (char, entity) ∈ entities)
    (rest : Text) : unescape (entity ++ rest) = char :: unescape rest := by
  have notEmpty : entity ≠ [] := by
    rintro rfl
    cases head?_of_mem_entities _ isEntity
  unfold unescape
  rw [Text.scan_append_of_eq_some notEmpty (recogniseEntity_append isEntity rest)]
  rfl

theorem unescape_cons_of_ne {char : Char} (plain : char ≠ '&') (rest : Text) :
    unescape (char :: rest) = char :: unescape rest := by
  unfold unescape
  rw [Text.scan_cons_of_eq_none (recogniseEntity_cons_of_ne plain rest)]
  rfl

theorem unescape_escapeChar_append (char : Char) (rest : Text) :
    unescape (escapeChar char ++ rest) = char :: unescape rest := by
  by_cases escaped : char ∈ entities.map Prod.fst
  · have written : (char, escapeChar char) ∈ entities := by
      rcases mem_entities_iff.mp escaped with rfl | rfl | rfl | rfl <;> decide
    exact unescape_append written rest
  · have plain : char ≠ '&' := fun same => escaped (mem_entities_iff.mpr (.inl same))
    rw [escapeChar_of_not_mem escaped]
    exact unescape_cons_of_ne plain rest

/-- Reading the entities of an escaped text gives the text, whatever entities it held. -/
theorem unescape_escape (text : Text) : unescape (escape text) = text := by
  rw [escape_eq_flatMap]
  induction text with
  | nil => rfl
  | cons char rest ih => rw [List.flatMap_cons, unescape_escapeChar_append, ih]

theorem escapeChar_eq (char : Char) :
    escapeChar char =
      if char = '&' then "&amp;".toList
      else if char = '<' then "&lt;".toList
      else if char = '>' then "&gt;".toList
      else if char = '"' then "&quot;".toList
      else [char] := by
  by_cases escaped : char ∈ entities.map Prod.fst
  · rcases mem_entities_iff.mp escaped with rfl | rfl | rfl | rfl <;> rfl
  · rw [escapeChar_of_not_mem escaped]
    simp only [mem_entities_iff, not_or] at escaped
    rw [if_neg escaped.1, if_neg escaped.2.1, if_neg escaped.2.2.1, if_neg escaped.2.2.2]

/-- Escaping is a code: it writes each character by itself, leaves no delimiter of markup, and what
it writes is read back, so different texts are written differently. -/
theorem escape_is_code :
    (∀ text, escape text = text.flatMap fun char =>
        if char = '&' then "&amp;".toList
        else if char = '<' then "&lt;".toList
        else if char = '>' then "&gt;".toList
        else if char = '"' then "&quot;".toList
        else [char]) ∧
      (∀ text, '<' ∉ escape text ∧ '>' ∉ escape text ∧ '"' ∉ escape text) ∧
      (∀ text, unescape (escape text) = text) ∧
      Function.Injective escape := by
  have outside (text : Text) {char : Char} (delimits : isDelimiter char = true) :
      char ∉ escape text := fun member => by
    rw [delimiters_eq_nil_iff.mp (delimiters_escape text) char member] at delimits
    cases delimits
  refine ⟨fun text => ?_, fun text => ?_, unescape_escape, ?_⟩
  · rw [escape_eq_flatMap]
    exact List.flatMap_congr fun char _ => escapeChar_eq char
  · exact ⟨outside text rfl, outside text rfl, outside text rfl⟩
  · exact Function.LeftInverse.injective unescape_escape

/-- Entities in the text, whole and cut short, are text like any other. -/
example : escape "&lt;&am<".toList = "&amp;lt;&amp;am&lt;".toList := by
  decide

end DocComponents.Markup
