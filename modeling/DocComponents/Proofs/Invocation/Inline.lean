import DocComponents.Proofs.Invocation.Marker
import DocComponents.Proofs.Invocation.Written

/-!
# Inline markers of written invocations

A marker is closed by the first closing parenthesis behind the opening one, be it in a value or not,
while an invocation that stands alone is closed by the last. So the marker of a written invocation
is found as it was written exactly when no value holds a closing parenthesis.
-/

set_option autoImplicit false

namespace DocComponents

def Invocation.writeInline (name : Text) (props : Props) : Text :=
  "::".toList ++ write name props ++ "::".toList

namespace Marker

theorem le_start_of_mem_ofPieces {position : Nat} {pieces : List (Text.Piece Text)}
    {marker : Marker} (member : marker ∈ ofPieces position pieces) :
    position ≤ marker.start := by
  induction pieces generalizing position with
  | nil => cases member
  | cons piece rest ih =>
      cases piece with
      | plain char =>
          have later : position + 1 ≤ marker.start := ih member
          omega
      | hit source call =>
          rcases List.mem_cons.mp member with rfl | found
          · exact Nat.le_refl _
          · have later := ih found
            omega

/-- A text that is recognised as a whole holds one marker. -/
theorem findAll_of_recognised {text call : Text} (notEmpty : text ≠ [])
    (recognised : recogniseMarker text = some (call, text.length)) :
    findAll text =
      [{ start := 0
         stop := text.length
         source := text
         invocation := Invocation.read? call }] := by
  rw [findAll, Text.scan_of_eq_some notEmpty recognised]
  simp [ofPieces]

/-- A marker at the first position was recognised there. -/
theorem recognised_of_mem_findAll {text : Text} {marker : Marker} (member : marker ∈ findAll text)
    (first : marker.start = 0) :
    ∃ call size, recogniseMarker text = some (call, size) ∧ marker.source.length ≤ size := by
  cases text with
  | nil => cases member
  | cons char rest =>
      unfold findAll Text.scan Text.scanFrom at member
      split at member
      · next call size recognised =>
          refine ⟨call, size + 1, recognised, ?_⟩
          rcases List.mem_cons.mp member with rfl | later
          · exact Nat.succ_le_succ (List.length_take_le size rest)
          · have behind := le_start_of_mem_ofPieces later
            simp at behind
            omega
      · have behind : 1 ≤ marker.start := le_start_of_mem_ofPieces member
        omega

end Marker

namespace Invocation

variable {name : Text} {props : Props}

theorem writeInline_ne_nil : writeInline name props ≠ [] := by
  simp [writeInline]

theorem writeInline_of_eq_nil (none : props.pairs = []) :
    writeInline name props = ':' :: ':' :: (name ++ [':', ':']) := by
  simp [writeInline, write_of_eq_nil none]

theorem writeInline_of_ne_nil (some : props.pairs ≠ []) :
    writeInline name props =
      ':' :: ':' :: (name ++ '(' :: (argumentList props.pairs ++ [')', ':', ':'])) := by
  simp [writeInline, write_of_ne_nil some]

/-- A recognised marker ends behind its first closing parenthesis. -/
theorem size_of_recogniseMarker_call (identifier : isIdentifier name = true)
    {arguments behind call : Text} {size : Nat} (noParenthesis : ')' ∉ arguments)
    (recognised : recogniseMarker (':' :: ':' :: (name ++ '(' :: (arguments ++ ')' :: behind))) =
      some (call, size)) : size = name.length + arguments.length + 6 := by
  simp only [recogniseMarker, takeIdentifier?_append_arguments identifier,
    Text.dropWhile_bne_append_cons noParenthesis,
    Text.takeWhile_bne_append_cons noParenthesis] at recognised
  split at recognised
  · cases recognised
    simp
    omega
  · cases recognised

theorem recogniseMarker_writeInline (identifier : isIdentifier name = true)
    (noParenthesis : ')' ∉ argumentList props.pairs) :
    recogniseMarker (writeInline name props) =
      some (write name props, (writeInline name props).length) := by
  by_cases none : props.pairs = []
  · have taken : takeIdentifier? (name ++ [':', ':']) = some (name, [':', ':']) :=
      takeName?_append identifier (endsName_cons (by decide) _)
    rw [writeInline_of_eq_nil none, write_of_eq_nil none]
    simp [recogniseMarker, taken]
  · rw [writeInline_of_ne_nil none, write_of_ne_nil none]
    rw [recogniseMarker_call identifier noParenthesis]
    simp
    omega

theorem lt_length_writeInline_of_recognised (identifier : isIdentifier name = true)
    (parenthesis : ')' ∈ argumentList props.pairs) {call : Text} {size : Nat}
    (recognised : recogniseMarker (writeInline name props) = some (call, size)) :
    size < (writeInline name props).length := by
  have some : props.pairs ≠ [] := by
    intro none
    rw [none] at parenthesis
    cases parenthesis
  obtain ⟨before, after, whole, noParenthesis⟩ := List.eq_append_cons_of_mem parenthesis
  have shape : writeInline name props =
      ':' :: ':' :: (name ++ '(' :: (before ++ ')' :: (after ++ [')', ':', ':']))) := by
    rw [writeInline_of_ne_nil some, whole]
    simp
  rw [shape] at recognised ⊢
  rw [size_of_recogniseMarker_call identifier noParenthesis recognised]
  simp
  omega

end Invocation

/-- Written as a marker, the defaults of a component are read back exactly when none of them holds a
closing parenthesis. -/
theorem inline_defaults_found_iff {content path : Text} {definition : Definition}
    (read : Definition.read? content path = some definition)
    (identifier : isIdentifier definition.name = true)
    (quotable : ∀ pair ∈ definition.props.pairs, isQuotable pair.2 = true) :
    let marker := Invocation.writeInline definition.name definition.props
    Marker.findAll marker =
        [{ start := 0
           stop := marker.length
           source := marker
           invocation := some { name := definition.name, props := definition.props } }] ↔
      ∀ pair ∈ definition.props.pairs, ')' ∉ pair.2 := by
  intro marker
  have writable : definition.props.AreWritable :=
    { toAreDeclarable := Definition.areDeclarable_of_read? read, quotable }
  constructor
  · intro found pair isPair parenthesis
    obtain ⟨call, size, recognised, covers⟩ :=
      Marker.recognised_of_mem_findAll (found ▸ List.mem_singleton_self _) rfl
    have short := Invocation.lt_length_writeInline_of_recognised identifier
      (mem_argumentList_of_mem_value isPair parenthesis) recognised
    exact absurd short (Nat.not_lt.mpr covers)
  · intro noParenthesis
    have absent : ')' ∉ argumentList definition.props.pairs := by
      intro member
      rcases mem_argumentList member with special | ⟨pair, isPair, inKey | inValue⟩
      · revert special
        decide
      · have named := isNameChar_of_mem_propKey (writable.key pair isPair) inKey
        revert named
        decide
      · exact noParenthesis pair isPair inValue
    rw [Marker.findAll_of_recognised Invocation.writeInline_ne_nil
      (Invocation.recogniseMarker_writeInline identifier absent),
      Invocation.read?_write identifier writable]

/-- A component with defaults that hold quotes, colons, an opening parenthesis and a comma. -/
def punctuatedDocument : Text :=
  "---\nname: card\nprops:\n  text: say \"hi\", ::x::\n  note: it's (b=1,\n---\n<p></p>".toList

def punctuatedCard : Definition where
  name := "card".toList
  template := "<p></p>".toList
  props := .ofPairs
    [("text".toList, "say \"hi\", ::x::".toList), ("note".toList, "it's (b=1,".toList)]
  sourcePath := "card.md".toList

theorem inline_defaults_found_punctuated :
    let name := punctuatedCard.name
    let props := punctuatedCard.props
    let marker := Invocation.writeInline name props
    Definition.read? punctuatedDocument "card.md".toList = some punctuatedCard ∧
      Marker.findAll marker =
        [{ start := 0
           stop := marker.length
           source := marker
           invocation := some { name, props } }] := by
  intro name props marker
  have read : Definition.read? punctuatedDocument "card.md".toList = some punctuatedCard := by
    decide +kernel
  have noParenthesis : ∀ pair ∈ punctuatedCard.props.pairs, ')' ∉ pair.2 := by
    decide +kernel
  exact ⟨read, (inline_defaults_found_iff read (by decide +kernel) (by decide +kernel)).mpr
    noParenthesis⟩

/-- A component with a default that holds a closing parenthesis. -/
def smilingDocument : Text :=
  "---\nname: x\nprops:\n  text: Hi :)\n---\n<p></p>".toList

def smiling : Definition where
  name := "x".toList
  template := "<p></p>".toList
  props := .ofPairs [("text".toList, "Hi :)".toList)]
  sourcePath := "x.md".toList

/-- The marker of this component is not found at all, though its default can be quoted. -/
theorem inline_defaults_lost_smiling :
    Definition.read? smilingDocument "x.md".toList = some smiling ∧
      isIdentifier smiling.name = true ∧
      (∀ pair ∈ smiling.props.pairs, isQuotable pair.2 = true) ∧
      Invocation.writeInline smiling.name smiling.props = "::x(text=\"Hi :)\")::".toList ∧
      Marker.findAll (Invocation.writeInline smiling.name smiling.props) = [] := by
  decide +kernel

end DocComponents
