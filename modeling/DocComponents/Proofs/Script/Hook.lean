import DocComponents.Proofs.Render.Structure
import DocComponents.Proofs.Render.Token
import DocComponents.Proofs.Text.Occurrences

/-!
# Closing the script of a hook

A hook is one script element. The script and the props are escaped on their way into it, the
selector of the inner element is not: it is written as JSON, which keeps angle brackets and slashes.
So what could end the element early comes from the scope token alone.
-/

set_option autoImplicit false

namespace DocComponents

namespace Json

theorem exists_charEscape (char : Char) :
    ∃ digits, charEscape char = '\\' :: digits ∧ '<' ∉ digits := by
  have digit (width number : Nat) : '<' ∉ Text.hexadecimal width number := fun member =>
    absurd (isNameChar_of_mem_hexadecimal member) (by decide)
  have unit (value : Nat) : ∃ digits, unitEscape value = '\\' :: digits ∧ '<' ∉ digits :=
    ⟨'u' :: Text.hexadecimal 4 value, rfl, by simp [digit]⟩
  unfold charEscape
  generalize char.toNat = point
  dsimp only
  split
  · exact unit point
  · obtain ⟨high, written, absent⟩ := unit (0xD800 + (point - 0x10000) / 0x400)
    obtain ⟨low, writtenLow, absentLow⟩ := unit (0xDC00 + (point - 0x10000) % 0x400)
    exact ⟨high ++ '\\' :: low, by rw [written, writtenLow]; rfl, by simp [absent, absentLow]⟩

theorem writeChar_cases (charset : Charset) (char : Char) :
    writeChar charset char = [char] ∨
      ∃ digits, writeChar charset char = '\\' :: digits ∧ '<' ∉ digits := by
  have escaped := exists_charEscape char
  unfold writeChar
  split_ifs <;> first | exact .inl rfl | exact .inr escaped | exact .inr ⟨_, rfl, by decide⟩

/-- Strings keep angle brackets and slashes where they are. -/
theorem keepsPair_writeChar (charset : Charset) :
    Text.KeepsPair '<' '/' (writeChar charset) where
  write_first := by cases charset <;> decide
  not_mem char other := by
    rcases writeChar_cases charset char with kept | ⟨digits, escaped, absent⟩
    · simpa [kept] using Ne.symm other
    · simpa [escaped] using absent
  head?_write char := by
    by_cases slash : char = '/'
    · subst slash
      exact ⟨'/', by cases charset <;> decide, Iff.rfl⟩
    · rcases writeChar_cases charset char with kept | ⟨digits, escaped, -⟩
      · exact ⟨char, by rw [kept]; rfl, Iff.rfl⟩
      · exact ⟨'\\', by rw [escaped]; rfl, by simp [slash]⟩

theorem occurrences_writeText (charset : Charset) (text : Text) :
    Text.occurrences ['<', '/'] (writeText charset text) = Text.occurrences ['<', '/'] text := by
  have quote : Text.KeepsApart '<' '/' ['"'] := ⟨by decide, by decide, by decide, by decide⟩
  have shape : writeText charset text =
      ['"'] ++ (text.flatMap (writeChar charset) ++ (['"'] ++ [])) := rfl
  rw [shape, quote.occurrences_append, quote.occurrences_around,
    (keepsPair_writeChar charset).occurrences_flatMap]
  rfl

end Json

namespace ScriptRuntime

/-- What closing tags begin with. -/
abbrev closer : Text := ['<', '/']

theorem occurrences_escapeScript (text : Text) :
    Text.occurrences closer (escapeScript text) = 0 :=
  (Text.occurrences_replace (by decide) (by decide) (by decide) text).1

def beforeScript : Text := "<script>(function (el, props) \x7b\n".toList

def beforeSelector : Text := "\n\x7d)(document.querySelector(".toList

def beforeProps : Text := "), ".toList

def behindProps : Text := ");</script>".toList

def beforeScope : Text := "[data-scope=\"".toList

def behindScope : Text := "\"] > .mdc-inner".toList

theorem hook_eq (script scope : Text) (props : Props) :
    hook script scope props =
      beforeScript ++ (escapeScript script ++ (beforeSelector ++
        (Json.writeText .ascii (beforeScope ++ (scope ++ (behindScope ++ []))) ++ (beforeProps ++
          (escapeScript (payload props) ++ behindProps))))) := by
  have inner : "\"] > .".toList ++ innerClass = behindScope := by decide
  have selector : "[data-scope=\"".toList ++ scope ++ "\"] > .".toList ++ innerClass =
      beforeScope ++ (scope ++ (behindScope ++ [])) := by
    rw [List.append_assoc _ _ innerClass, inner, List.append_nil, List.append_assoc]
    rfl
  unfold hook
  dsimp only
  rw [selector]
  simp only [List.append_assoc]
  rfl

/-- Beside its own closing tag, a hook holds those that its scope brings in. -/
theorem occurrences_hook (script scope : Text) (props : Props) :
    Text.occurrences closer (hook script scope props) = Text.occurrences closer scope + 1 := by
  have opened : Text.KeepsApart '<' '/' beforeScript := by constructor <;> decide
  have called : Text.KeepsApart '<' '/' beforeSelector := by constructor <;> decide
  have passed : Text.KeepsApart '<' '/' beforeProps := by constructor <;> decide
  have named : Text.KeepsApart '<' '/' beforeScope := by constructor <;> decide
  have found : Text.KeepsApart '<' '/' behindScope := by constructor <;> decide
  have ends : behindProps.head? ≠ some '/' := by decide
  have closes : Text.occurrences closer behindProps = 1 := by decide
  have none : Text.occurrences closer [] = 0 := rfl
  rw [hook_eq, opened.occurrences_append, called.occurrences_around, passed.occurrences_around,
    Json.occurrences_writeText, named.occurrences_append, found.occurrences_around,
    Text.occurrences_append (.inr ends), occurrences_escapeScript, occurrences_escapeScript, closes,
    none, Nat.zero_add, Nat.zero_add, Nat.add_zero]

theorem occurrences_scopeToken (name : Text) (number : Nat) :
    Text.occurrences closer (scopeToken name number) = Text.occurrences closer name := by
  have lead : Text.KeepsApart '<' '/' "mdc-".toList := by constructor <;> decide
  have hyphen : Text.KeepsApart '<' '/' ['-'] := by constructor <;> decide
  have absent : '<' ∉ Text.hexadecimal 6 (number % 0x1000000) := fun member =>
    absurd (isNameChar_of_mem_hexadecimal member) (by decide)
  have shape : scopeToken name number =
      "mdc-".toList ++ (name ++ (['-'] ++ Text.hexadecimal 6 (number % 0x1000000))) :=
    List.append_assoc _ _ _
  rw [shape, lead.occurrences_append, hyphen.occurrences_around,
    Text.occurrences_of_not_mem absent, Nat.add_zero]

/-- The hook of a component that can be invoked is closed at its end only. -/
theorem occurrences_hook_of_isInvocable {definition : Definition}
    (invocable : definition.isInvocable = true) (script : Text) (number : Nat) (props : Props) :
    Text.occurrences closer (hook script (scopeToken definition.name number) props) = 1 := by
  have absent : '<' ∉ definition.name := fun member =>
    absurd (isNameChar_of_mem_identifier invocable member) (by decide)
  rw [occurrences_hook, occurrences_scopeToken, Text.occurrences_of_not_mem absent]

/-- An embedded script is appended as one script element. It holds what closing tags begin with
once, in its own closing tag, exactly when the scope token does not hold it; a token that was made
for the component holds it when the name does, and the name of a component that can be invoked does
not. -/
theorem hook_closes_once_iff {definition : Definition} {options : RenderOptions}
    (hasScript : definition.script ≠ []) (enabled : options.enableScripts = true) (token : Text)
    (overrides : Props) (container : Element Node) :
    let html := hook definition.script token (definition.props.overlay overrides)
    let silent := { options with enableScripts := false }
    (render embedding token options definition overrides container).container =
        (render embedding token silent definition overrides container).container.append
          (.markup html) ∧
      closingTag "script".toList <:+ html ∧
      Text.occurrences closer html = Text.occurrences closer token + 1 ∧
      (Text.occurrences closer html = 1 ↔ ¬ closer <:+: token) ∧
      ∀ number, token = scopeToken definition.name number →
        (Text.occurrences closer html = 1 ↔ ¬ closer <:+: definition.name) ∧
          (definition.isInvocable = true → Text.occurrences closer html = 1) := by
  intro html silent
  have counted : Text.occurrences closer html = Text.occurrences closer token + 1 :=
    occurrences_hook _ _ _
  have once : Text.occurrences closer html = 1 ↔ Text.occurrences closer token = 0 := by
    rw [counted]
    exact Nat.add_eq_right
  refine ⟨?_, ?_, counted, once.trans Text.occurrences_eq_zero_iff, ?_⟩
  · have runs : ¬ (definition.script.isEmpty || !options.enableScripts) = true := by
      simp [hasScript, enabled]
    have disabled : definition.script = [] ∨ silent.enableScripts = false := .inr rfl
    have skipped := container_render_of_noScript disabled embedding token overrides container
    rw [skipped, render, if_neg runs]
    simp [Element.append, embedding, html, silent]
  · have ends : behindProps = ");".toList ++ closingTag "script".toList := by decide +kernel
    simp only [html, hook_eq, ends, ← List.append_assoc]
    exact List.suffix_append _ _
  · rintro number rfl
    refine ⟨?_, fun invocable => occurrences_hook_of_isInvocable invocable _ number _⟩
    rw [once, occurrences_scopeToken, Text.occurrences_eq_zero_iff]

/-- A component whose name is a closing tag. -/
def closingNamed : Definition where
  name := "</script>".toList
  template := "<p></p>".toList
  script := "1".toList

/-- A script and props that would close the script element, under a name that does. -/
theorem hook_closes_once_iff_closing :
    let definition :=
      { closingNamed with
        script := "el.textContent = '</script>'".toList
        props := .ofPairs [("</".toList, "<</script>".toList)] }
    let token := scopeToken definition.name 7
    let html := hook definition.script token (definition.props.overlay .empty)
    definition.script ≠ [] ∧ ({} : RenderOptions).enableScripts = true ∧
      closer <:+: definition.name ∧ ¬ Text.occurrences closer html = 1 := by
  intro definition token html
  have hasScript : definition.script ≠ [] := by decide +kernel
  have named : closer <:+: definition.name := by decide +kernel
  have closes :=
    ((@hook_closes_once_iff definition {} hasScript rfl token .empty {}).2.2.2.2 7 rfl).1
  exact ⟨hasScript, rfl, named, fun once => closes.mp once named⟩

/-- The hook of such a component is closed by the selector of its inner element already. -/
theorem hook_closed_by_name :
    let token := scopeToken closingNamed.name 0
    let html := hook closingNamed.script token closingNamed.props
    (render embedding token {} closingNamed .empty {}).container.children.getLast? =
        some (.markup html) ∧
      Text.occurrences closer html = 2 :=
  ⟨rfl, by decide +kernel⟩

end ScriptRuntime

end DocComponents
