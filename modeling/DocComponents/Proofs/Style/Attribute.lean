import DocComponents.Proofs.Style.Quoted
import DocComponents.Proofs.Style.Unseen

/-!
# The attribute selector inside other text

The attribute selector of a scope token holds a pair of double quotes and a pair of brackets. Written
into single quotes it means nothing, and written into double quotes it closes and opens them again,
so the text behind it is read as it was before.
-/

set_option autoImplicit false

namespace DocComponents.Style

/-- A lead that can be written anywhere into a selector list and into comments. -/
structure IsScopeLead (lead : Text) : Prop
    extends IsSafeLead lead, Selector.IsQuotableLead lead, IsSteadyLead lead

def IsNameText (text : Text) : Prop :=
  ∀ char ∈ text, isNameChar char = true

theorem not_mem_of_isNameText {text : Text} (names : IsNameText text) {char : Char}
    (noName : isNameChar char = false) : char ∉ text := by
  intro member
  rw [names char member] at noName
  cases noName

theorem isMark_of_isNameChar {char : Char} (isName : isNameChar char = true) :
    Place.isMark char = false := by
  have noName : ['"', '\'', '/', '*'].all (!isNameChar ·) = true := by decide
  cases isMark : Place.isMark char with
  | false => rfl
  | true =>
      have isOne : char ∈ ['"', '\'', '/', '*'] := by simpa [Place.isMark] using isMark
      have apart := List.all_eq_true.mp noName char isOne
      simp [isName] at apart

/-! ## In the scan of a selector list -/

theorem after_of_isNameText {nesting : Selector.Nesting} (valid : nesting.Valid) {text : Text}
    (names : IsNameText text) : nesting.after text = nesting ∧ nesting.Holds text := by
  have noName : ['"', '\'', '(', ')', '[', ']', ','].all (!isNameChar ·) = true := by decide
  induction text with
  | nil => exact ⟨rfl, trivial⟩
  | cons char rest ih =>
      have isName := names char List.mem_cons_self
      have plain : char ∉ ['"', '\'', '(', ')', '[', ']', ','] := by
        intro special
        have apart := List.all_eq_true.mp noName char special
        simp [isName] at apart
      have noComma : char ≠ ',' := by
        rintro rfl
        exact plain (by simp)
      have later := ih fun other member => names other (List.mem_cons_of_mem _ member)
      rw [Selector.Nesting.after_cons, Selector.Nesting.Holds, valid.step_of_not_mem plain]
      exact ⟨later.1, by simp [Selector.Nesting.separates, noComma], later.2⟩

/-- In double quotes the attribute selector ends them and begins them again. -/
private theorem after_scopeAttribute {token : Text} (names : IsNameText token)
    {nesting : Selector.Nesting} (valid : nesting.Valid) (quoted : nesting.quote = some '"') :
    nesting.after (scopeAttribute token) = nesting ∧ nesting.Holds (scopeAttribute token) := by
  obtain ⟨quote, closers⟩ := nesting
  obtain rfl : quote = some '"' := quoted
  have validInside : (⟨none, closers⟩ : Selector.Nesting).Valid := ⟨by simp, valid.closers⟩
  obtain ⟨inside, insideHolds⟩ := after_of_isNameText validInside names
  rw [scopeAttribute_eq]
  simp [attributeStart, Selector.Nesting.after_append, Selector.Nesting.holds_append, inside,
    insideHolds, Selector.Nesting.Holds, Selector.Nesting.step, Selector.Nesting.separates]

theorem not_mem_scopeAttribute {token : Text} (names : IsNameText token) {char : Char}
    (noName : isNameChar char = false) (notAround : char ∉ attributeStart ++ ['"', ']']) :
    char ∉ scopeAttribute token := by
  have notInside := not_mem_of_isNameText names noName
  rw [List.mem_append, not_or] at notAround
  rw [scopeAttribute_eq, List.mem_append, List.mem_append, not_or, not_or]
  exact ⟨notAround.1, notInside, notAround.2⟩

/-! ## For a reader -/

theorem plain_of_not_mem {quote : Char} {text : Text} (apart : quote ∉ text) :
    (Place.quoted quote).Plain text ∧ (Place.quoted quote).after text = .quoted quote := by
  induction text with
  | nil => exact ⟨trivial, rfl⟩
  | cons char rest ih =>
      obtain ⟨notFirst, notLater⟩ := not_or.mp (mt List.mem_cons.mpr apart)
      have stays : (Place.quoted quote).next char = .quoted quote := if_neg (Ne.symm notFirst)
      have later := ih notLater
      rw [Place.Plain, Place.after_cons, stays]
      exact ⟨⟨by simp, later.1⟩, later.2⟩

private theorem plain_scopeAttribute {token : Text} (names : IsNameText token) {place : Place}
    (either : place = .code ∨ place = .quoted '"') :
    place.Plain (scopeAttribute token) ∧ place.after (scopeAttribute token) = place := by
  have inCode : Place.code.Plain token ∧ Place.code.after token = .code := by
    have outside : Place.code.IsOutside := trivial
    exact outside.after_of_isMark rfl fun char member => isMark_of_isNameChar (names char member)
  have inQuotes := plain_of_not_mem (not_mem_of_isNameText names (by decide : isNameChar '"' = false))
  rw [scopeAttribute_eq, Place.plain_append, Place.plain_append]
  rcases either with rfl | rfl
  · simp [attributeStart, Place.after_append, Place.after_cons, Place.Plain, Place.next,
      Place.entered, inQuotes]
  · simp [attributeStart, Place.after_append, Place.after_cons, Place.Plain, Place.next,
      Place.entered, inCode]

/-- The attribute selector of a token made of name characters can be written anywhere. -/
theorem isScopeLead_scopeAttribute {token : Text} (names : IsNameText token) :
    IsScopeLead (scopeAttribute token) where
  toIsSafeLead := isSafeLead_scopeAttribute (isPlainToken_of_isNameChar names)
  compact := by
    intro char member
    have around : (attributeStart ++ ['"', ']']).all (fun other =>
        other != ',' && !Text.isBlank other) = true := by decide
    have plainAround : char ∈ attributeStart ++ ['"', ']'] →
        char ≠ ',' ∧ Text.isBlank char = false := fun here => by
      simpa using List.all_eq_true.mp around char here
    rw [scopeAttribute_eq, List.mem_append, List.mem_append] at member
    rcases member with start | inside | finish
    · exact plainAround (List.mem_append_left _ start)
    · refine ⟨?_, isBlank_eq_false_of_isNameChar (names char inside)⟩
      rintro rfl
      exact absurd (names ',' inside) (by decide)
    · exact plainAround (List.mem_append_right _ finish)
  stays := by
    intro nesting valid quoted
    cases found : nesting.quote with
    | none => exact absurd found quoted
    | some quote =>
        rcases valid.quote quote found with rfl | rfl
        · exact after_scopeAttribute names valid found
        · exact Selector.Nesting.after_of_not_mem found (not_mem_scopeAttribute names (by decide) (by decide))
  harmless := ⟨not_mem_scopeAttribute names (by decide) (by decide),
    not_mem_scopeAttribute names (by decide) (by decide)⟩
  steady := by
    intro place outside isSettled
    cases place with
    | code => exact plain_scopeAttribute names (.inl rfl)
    | quoted quote =>
        rcases outside with rfl | rfl
        · exact plain_scopeAttribute names (.inr rfl)
        · exact plain_of_not_mem (not_mem_scopeAttribute names (by decide) (by decide))
    | slash => cases isSettled
    | comment | star => cases outside

end DocComponents.Style
