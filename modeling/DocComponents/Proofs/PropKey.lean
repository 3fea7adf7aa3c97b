import DocComponents.Proofs.Definition.FrontMatter
import DocComponents.Proofs.Invocation.Spelled
import DocComponents.Proofs.Render.Template

/-!
# One grammar of keys

A text declares a prop in front matter, passes one as an argument and is filled in as a placeholder
under the same condition: it is a prop key. So what a document declares can be overridden by a
caller and shown by the template, and a text that is no key reaches neither props nor templates.
-/

set_option autoImplicit false

namespace DocComponents

variable {key value : Text}

namespace Props

theorem mem_keys_ofPairs_singleton (key value : Text) :
    key ∈ (ofPairs [(key, value)]).pairs.map Prod.fst := by
  rw [keys_ofPairs]
  simp

end Props

/-! ### Declarations -/

namespace FrontMatter

theorem mapPairs_declaration (named : isPropKey key = true) (value : Text) :
    mapPairs "props".toList false ["props:".toList, entryLine (key, value)] = [(key, value)] := by
  have notBlank : 'p' ≠ ' ' := by decide
  have pairs : ∀ pair ∈ [(key, value)], isPropKey pair.1 = true := by simpa
  exact mapPairs_entryLines notBlank "rops".toList pairs

def declaration (key value : Text) : Text :=
  "props:".toList ++ '\n' :: ("  ".toList ++ (key ++ ": ".toList ++ '"' :: (value ++ ['"'])))

theorem map_declaration (named : isPropKey key = true) (oneLine : Text.IsOneLine value) :
    map (declaration key value) "props".toList = .ofPairs [(key, value)] := by
  have header : Text.IsOneLine "props:".toList := by decide
  have inside : IsInside (entryLine (key, value)) := isInside_entryLine named oneLine
  have notEmpty : entryLine (key, value) ≠ [] := by simp [entryLine]
  have shape : declaration key value = "props:".toList ++ '\n' :: entryLine (key, value) := rfl
  have lines : Text.lines (declaration key value) =
      ["props:".toList, entryLine (key, value)] := by
    rw [shape, Text.lines_append_cons header, Text.lines_of_isOneLine inside.oneLine notEmpty]
  rw [map, lines, mapPairs_declaration named]

theorem map_declaration_iff (key : Text) :
    (∀ value, Text.IsOneLine value →
      map (declaration key value) "props".toList = .ofPairs [(key, value)]) ↔
        isPropKey key = true := by
  constructor
  · intro declares
    have alone := Props.mem_keys_ofPairs_singleton key []
    rw [← declares [] (List.forall_mem_nil _)] at alone
    obtain ⟨pair, isPair, rfl⟩ := List.mem_map.mp alone
    exact (areDeclarable_map _ _).key pair isPair
  · intro named value
    exact map_declaration named

end FrontMatter

theorem isPropKey_of_read? {content path : Text} {definition : Definition}
    (read : Definition.read? content path = some definition)
    (member : key ∈ definition.props.pairs.map Prod.fst) : isPropKey key = true := by
  obtain ⟨pair, isPair, rfl⟩ := List.mem_map.mp member
  exact (Definition.areDeclarable_of_read? read).key pair isPair

/-- A document that declares one prop, which is empty. -/
def declaringDocument (key : Text) : Text :=
  "---\n".toList ++ Text.endLines ["props:".toList, FrontMatter.entryLine (key, [])] ++
    ("---\n".toList ++ "<p></p>".toList)

theorem exists_read?_declaringDocument (named : isPropKey key = true) (path : Text) :
    ∃ definition, Definition.read? (declaringDocument key) path = some definition ∧
      key ∈ definition.props.pairs.map Prod.fst := by
  have inside : ∀ line ∈ ["props:".toList, FrontMatter.entryLine (key, [])],
      FrontMatter.IsInside line := by
    simp only [List.forall_mem_cons]
    refine ⟨⟨by decide, by decide⟩, ?_, List.forall_mem_nil _⟩
    exact FrontMatter.isInside_entryLine named (List.forall_mem_nil _)
  have lines := Text.lines_endLines fun line member => (inside line member).oneLine
  have declared : FrontMatter.map
      (Text.endLines ["props:".toList, FrontMatter.entryLine (key, [])]) "props".toList =
        .ofPairs [(key, [])] := by
    rw [FrontMatter.map, lines, FrontMatter.mapPairs_declaration named]
  rw [Definition.read?, declaringDocument, FrontMatter.split?_endLines inside]
  refine ⟨_, rfl, ?_⟩
  dsimp only
  rw [declared]
  exact Props.mem_keys_ofPairs_singleton key []

theorem exists_declares_iff (key : Text) :
    (∃ content path definition, Definition.read? content path = some definition ∧
      key ∈ definition.props.pairs.map Prod.fst) ↔ isPropKey key = true := by
  constructor
  · intro document
    obtain ⟨content, path, definition, read, member⟩ := document
    exact isPropKey_of_read? read member
  · intro named
    exact ⟨_, [], exists_read?_declaringDocument named []⟩

/-! ### Arguments -/

theorem isPropKey_of_mem_arguments {text : Text}
    (member : key ∈ (arguments text).pairs.map Prod.fst) : isPropKey key = true := by
  obtain ⟨pair, isPair, rfl⟩ := List.mem_map.mp member
  obtain ⟨rest, size, recognised⟩ :=
    Text.exists_recognised_of_mem_hits (Props.mem_ofPairs isPair)
  obtain ⟨spelling, -, proper, rfl, -⟩ := exists_spelling_of_recogniseArgument recognised
  exact proper.key

def oneArgument (key value : Text) : Text :=
  key ++ ['=', '"'] ++ value ++ ['"']

theorem arguments_oneArgument (named : isPropKey key = true) (noQuote : '"' ∉ value) :
    arguments (oneArgument key value) = .ofPairs [(key, value)] := by
  let spelling : Spelling := { key, value }
  have proper : spelling.IsProper :=
    ⟨named, List.forall_mem_nil _, List.forall_mem_nil _, .inl rfl, noQuote⟩
  have written : spelling.text = oneArgument key value := by
    simp [spelling, Spelling.text, oneArgument]
  have scanned := Text.scan_append_of_eq_some spelling.text_ne_nil
    (proper.recogniseArgument_append [])
  rw [List.append_nil, written] at scanned
  rw [arguments, scanned]
  rfl

theorem arguments_oneArgument_iff (key : Text) :
    (∀ value, '"' ∉ value → arguments (oneArgument key value) = .ofPairs [(key, value)]) ↔
      isPropKey key = true := by
  constructor
  · intro passes
    have alone := Props.mem_keys_ofPairs_singleton key []
    rw [← passes [] List.not_mem_nil] at alone
    exact isPropKey_of_mem_arguments alone
  · intro named value
    exact arguments_oneArgument named

theorem exists_passes_iff (key : Text) :
    (∃ text, key ∈ (arguments text).pairs.map Prod.fst) ↔ isPropKey key = true := by
  constructor
  · intro text
    obtain ⟨text, member⟩ := text
    exact isPropKey_of_mem_arguments member
  · intro named
    refine ⟨oneArgument key [], ?_⟩
    rw [arguments_oneArgument named List.not_mem_nil]
    exact Props.mem_keys_ofPairs_singleton key []

/-! ### Placeholders -/

namespace Template

def placeholder (key : Text) : Text :=
  ['{', '{'] ++ key ++ ['}', '}']

theorem substitute_placeholder (named : isPropKey key = true) (props : Props) :
    substitute (placeholder key) props = Markup.escape (props.get key) := by
  have isPlaceholder : IsPlaceholder (placeholder key) key := by
    have spelled := IsPlaceholder.mk (List.forall_mem_nil _) named (List.forall_mem_nil _)
    simpa [placeholder] using spelled
  have notEmpty : placeholder key ≠ [] := by simp [placeholder]
  have scanned := Text.scan_append_of_eq_some notEmpty (isPlaceholder.recognise_append [])
  rw [List.append_nil] at scanned
  rw [substitute, scanned]
  simp [Text.replaceHits]

/-- A prop whose key is none is not filled in anywhere. -/
theorem substitute_put_of_not_propKey (unnamed : ¬ isPropKey key = true) (template : Text)
    (props : Props) (value : Text) :
    substitute template (props.put key value) = substitute template props := by
  have cuts := recognises_placeholder.cuts_scanFrom template 0 none
  unfold substitute Text.replaceHits
  apply List.flatMap_congr
  intro piece member
  cases piece with
  | plain char => rfl
  | hit source found =>
      obtain ⟨-, -, placeholder⟩ := cuts.isHit_of_mem member
      have apart : found ≠ key := by
        rintro rfl
        cases placeholder with
        | mk _ named _ => exact unnamed named
      simp only [Props.get, Props.get?_put, if_neg apart]

theorem substitute_placeholder_put (named : isPropKey key = true) (props : Props) (value : Text) :
    substitute (placeholder key) (props.put key value) = Markup.escape value := by
  rw [substitute_placeholder named, Props.get, Props.get?_put, if_pos rfl]
  rfl

theorem substitute_placeholder_iff (key : Text) :
    (∀ value, substitute (placeholder key) (.ofPairs [(key, value)]) = Markup.escape value) ↔
      isPropKey key = true := by
  constructor
  · intro substitutes
    by_contra unnamed
    -- Two values are filled in alike, though they are escaped differently.
    have same : Markup.escape [] = Markup.escape ['x'] := by
      rw [← substitutes [], ← substitutes ['x']]
      exact (substitute_put_of_not_propKey unnamed _ .empty []).trans
        (substitute_put_of_not_propKey unnamed _ .empty ['x']).symm
    exact absurd same (by decide)
  · intro named value
    exact substitute_placeholder_put named .empty value

theorem exists_fills_iff (key : Text) :
    (∃ template props value,
      substitute template (props.put key value) ≠ substitute template props) ↔
        isPropKey key = true := by
  constructor
  · intro template
    obtain ⟨template, props, value, differs⟩ := template
    by_contra unnamed
    exact differs (substitute_put_of_not_propKey unnamed template props value)
  · intro named
    have filledIn : Markup.escape ['x'] ≠ Markup.escape [] := by decide
    refine ⟨placeholder key, .empty, ['x'], ?_⟩
    rw [substitute_placeholder_put named, substitute_placeholder named]
    exact filledIn

end Template

/-- A text declares a prop, passes an argument and is filled in exactly when it is a prop key, and
no other text is declared by a document, passed by arguments or filled in by a template. What a
document declares is overridden by an argument and shown by a placeholder. -/
theorem one_grammar_of_keys (key : Text) :
    ((∀ value, Text.IsOneLine value →
        FrontMatter.map (FrontMatter.declaration key value) "props".toList =
          .ofPairs [(key, value)]) ↔ isPropKey key = true) ∧
      ((∀ value, Template.substitute (Template.placeholder key) (.ofPairs [(key, value)]) =
        Markup.escape value) ↔ isPropKey key = true) ∧
      ((∀ value, '"' ∉ value →
        arguments (oneArgument key value) = .ofPairs [(key, value)]) ↔ isPropKey key = true) ∧
      ((∃ content path definition, Definition.read? content path = some definition ∧
        key ∈ definition.props.pairs.map Prod.fst) ↔ isPropKey key = true) ∧
      ((∃ text, key ∈ (arguments text).pairs.map Prod.fst) ↔ isPropKey key = true) ∧
      ((∃ template props value, Template.substitute template (props.put key value) ≠
        Template.substitute template props) ↔ isPropKey key = true) ∧
      ∀ content path definition value, Definition.read? content path = some definition →
        key ∈ definition.props.pairs.map Prod.fst → '"' ∉ value →
          Template.substitute (Template.placeholder key)
            (definition.props.overlay (arguments (oneArgument key value))) =
              Markup.escape value := by
  refine ⟨FrontMatter.map_declaration_iff key, Template.substitute_placeholder_iff key,
    arguments_oneArgument_iff key, exists_declares_iff key, exists_passes_iff key,
    Template.exists_fills_iff key, ?_⟩
  intro content path definition value read member noQuote
  have named := isPropKey_of_read? read member
  rw [arguments_oneArgument named noQuote]
  exact Template.substitute_placeholder_put named definition.props value

end DocComponents
