import DocComponents.Proofs.Render.Frame
import DocComponents.Proofs.Style.Renaming

/-!
# Rendering under another token

A rendering without a script holds its scope token in one attribute and in the selectors of its
styles, between double quotes each time. So where the styles hold neither of two tokens and the
filled-in template does not hold the first one, replacing it by the second gives the rendering under
the second: nothing else of a rendering depends on its token.
-/

set_option autoImplicit false

namespace DocComponents

open Style (IsNameText IsHyphenated HasPlainWords)

theorem isHyphenated_scopeToken {name : Text} (identifier : isIdentifier name = true)
    (number : Nat) : IsHyphenated (scopeToken name number) where
  names _ member := isNameChar_of_mem_scopeToken identifier member
  hyphens := by
    have lead : "mdc-".toList.count '-' = 1 := by decide
    simp only [scopeToken, List.count_append, lead, List.count_cons_self]
    omega

/-- A token is longer than the name it is made for. -/
theorem scopeToken_absent_from_name (name : Text) (number : Nat) :
    ¬ scopeToken name number <:+: name := by
  intro inside
  have shorter := inside.length_le
  simp only [scopeToken, List.length_append, List.length_cons] at shorter
  omega

/-! ## The parts of a rendering as HTML -/

/-- The opening tag of a container up to the name of its component. -/
def openingLead (mode : DisplayMode) : Text :=
  '<' :: "div".toList ++ writeAttribute "class".toList (Text.join [' '] (modeClasses mode)) ++
    " data-component=".toList

theorem hasPlainWords_openingLead (mode : DisplayMode) : HasPlainWords (openingLead mode) := by
  cases mode <;> decide

theorem Element.html_of_not_void {element : Element Node}
    (notVoid : voidTags.contains element.tag = false) :
    element.html =
      openingTag element.tag element.attributes element.classes ++
        Node.htmlAll element.children ++ closingTag element.tag := by
  unfold Element.html Element.toNode Node.html
  rw [notVoid]
  rfl

theorem not_mem_voidTags :
    voidTags.contains "div".toList = false ∧ voidTags.contains "style".toList = false := by
  decide

theorem html_innerElement (definition : Definition) (props : Props) :
    (innerElement definition props).html =
      '<' :: ("div class=\"mdc-inner\"".toList ++
        '>' :: (Template.substitute definition.template props ++ '<' :: "/div>".toList)) := by
  have opening : openingTag "div".toList .empty [innerClass] =
      '<' :: ("div class=\"mdc-inner\"".toList ++ ['>']) := by decide
  have closing : closingTag "div".toList = '<' :: "/div>".toList := by decide
  have notVoid : voidTags.contains (innerElement definition props).tag = false :=
    not_mem_voidTags.1
  rw [Element.html_of_not_void notVoid, innerElement, opening, closing]
  simp [Node.htmlAll, Node.html]

theorem htmlAll_styleNodes (definition : Definition) (token : Text) :
    Node.htmlAll (styleNodes definition token) =
      if (Style.scope definition.styles token).isEmpty then []
      else '<' :: ("style".toList ++
        '>' :: (Style.scope definition.styles token ++ '<' :: "/style>".toList)) := by
  have opening : openingTag "style".toList .empty [] = '<' :: ("style".toList ++ ['>']) := by
    decide
  have closing : closingTag "style".toList = '<' :: "/style>".toList := by decide
  unfold styleNodes
  dsimp only
  split
  · rfl
  · rw [Node.htmlAll, ← Element.html, Element.html_of_not_void not_mem_voidTags.2, opening,
      closing]
    simp [Node.htmlAll, Node.html]

theorem openingTag_markContainer {name token : Text} (named : IsNameText name)
    (names : IsNameText token) (mode : DisplayMode) :
    let marked := markContainer {} name token mode
    openingTag marked.tag marked.attributes marked.classes =
      openingLead mode ++ '"' :: (name ++
        '"' :: (" data-scope=".toList ++ '"' :: (token ++ '"' :: ['>']))) := by
  have plain {text : Text} (isName : IsNameText text) : Markup.escape text = text :=
    Markup.escape_of_not_mem fun char member escaped => by
      have noName : (Markup.entities.map Prod.fst).all (!isNameChar ·) = true := by decide
      have apart := List.all_eq_true.mp noName char escaped
      simp [isName char member] at apart
  have classes : (Element.addClasses ({} : Element Node) (modeClasses mode)).classes =
      modeClasses mode := by
    cases mode <;> decide
  have some : (modeClasses mode).isEmpty = false := by
    cases mode <;> decide
  have pairs : (((Props.empty).put "data-component".toList name).put "data-scope".toList
      token).pairs = [("data-component".toList, name), ("data-scope".toList, token)] := rfl
  rw [markContainer_eq]
  simp only [classes, openingTag, some, pairs, List.flatMap_cons, List.flatMap_nil]
  simp [openingLead, writeAttribute, plain named, plain names]

/-- A rendering without a script into a bare container, cut at characters that are in no token. -/
theorem html_render_of_noScript {definition : Definition} {options : RenderOptions}
    (noScript : definition.script = [] ∨ options.enableScripts = false)
    (named : IsNameText definition.name) (runtime : ScriptRuntime) {token : Text}
    (names : IsNameText token) (props : Props) :
    (render runtime token options definition props {}).container.html =
      openingLead options.displayMode ++ '"' :: (definition.name ++
        '"' :: (" data-scope=".toList ++ '"' :: (token ++ '"' :: ([] ++
          '>' :: (Node.htmlAll (styleNodes definition token) ++
            '<' :: ("div class=\"mdc-inner\"".toList ++
              '>' :: (Template.substitute definition.template (definition.props.overlay props) ++
                '<' :: "/div></div>".toList))))))) := by
  have opening := openingTag_markContainer named names options.displayMode
  have inner := html_innerElement definition (definition.props.overlay props)
  have closing : closingTag "div".toList = '<' :: "/div>".toList := by decide
  have last (element : Element Node) : Node.htmlAll [element.toNode] = element.html :=
    List.append_nil _
  have bare : (markContainer {} definition.name token options.displayMode).tag = "div".toList ∧
      (markContainer {} definition.name token options.displayMode).children = [] := by
    rw [markContainer_eq]
    exact ⟨rfl, rfl⟩
  rw [container_render_of_noScript noScript,
    Element.html_of_not_void (by rw [bare.1, not_mem_voidTags.1])]
  dsimp only at opening ⊢
  rw [opening, bare.1, bare.2, closing, Node.htmlAll_append, last, inner]
  simp

/-! ## Replacing the token -/

section

variable {definition : Definition} {token other : Text} (hyphenated : IsHyphenated token)
  (hyphenatedOther : IsHyphenated other)

include hyphenated hyphenatedOther

/-- The styles are there under both tokens or under none. -/
theorem isEmpty_scope_congr {css : Text} (absent : ¬ token <:+: css)
    (absentOther : ¬ other <:+: css) :
    (Style.scope css token).isEmpty = (Style.scope css other).isEmpty := by
  have there := Style.replace_scope hyphenated absent absentOther
  have back := Style.replace_scope hyphenatedOther absentOther absent
  rw [Bool.eq_iff_iff, List.isEmpty_iff, List.isEmpty_iff]
  constructor
  · intro empty
    rw [← there, empty]
    rfl
  · intro empty
    rw [← back, empty]
    rfl

theorem replace_htmlAll_styleNodes (absent : ¬ token <:+: definition.styles)
    (absentOther : ¬ other <:+: definition.styles) (rest : Text) :
    Text.replace token other (Node.htmlAll (styleNodes definition token) ++ '<' :: rest) =
      Node.htmlAll (styleNodes definition other) ++ '<' :: Text.replace token other rest := by
  have replaced := Style.replace_scope hyphenated absent absentOther
  have noName : isNameChar '<' = false := by decide
  have noNameEnd : isNameChar '>' = false := by decide
  rw [hyphenated.replace_append_cons noName, htmlAll_styleNodes, htmlAll_styleNodes,
    isEmpty_scope_congr hyphenated hyphenatedOther absent absentOther]
  split
  · rfl
  · rw [← List.nil_append ('<' :: _), hyphenated.replace_plain_append_cons (by decide) noName,
      hyphenated.replace_plain_append_cons (by decide) noNameEnd,
      hyphenated.replace_append_cons noName, replaced,
      Text.replace_of_absent (hyphenated.absent (by decide))]
    rfl

end

/-- The scope token is all that differs between two renderings without a script: for two tokens made
for the identifier that names the component, neither of them in its styles and the first not in the
filled-in template, replacing the first by the second in one rendering gives the other. -/
theorem rendering_varies_in_token_only {definition : Definition} {options : RenderOptions}
    (noScript : definition.script = [] ∨ options.enableScripts = false)
    (identifier : isIdentifier definition.name = true) (runtime : ScriptRuntime) (props : Props)
    {number other : Nat} (absent : ¬ scopeToken definition.name number <:+: definition.styles)
    (absentOther : ¬ scopeToken definition.name other <:+: definition.styles)
    (absentMarkup : ¬ scopeToken definition.name number <:+:
      Template.substitute definition.template (definition.props.overlay props)) :
    let html (number : Nat) :=
      (render runtime (scopeToken definition.name number) options definition props
        {}).container.html
    Text.replace (scopeToken definition.name number) (scopeToken definition.name other)
      (html number) = html other := by
  intro html
  have hyphenated := isHyphenated_scopeToken identifier number
  have hyphenatedOther := isHyphenated_scopeToken identifier other
  have named : IsNameText definition.name := fun _ member =>
    isNameChar_of_mem_identifier identifier member
  have written (number : Nat) : html number = _ :=
    html_render_of_noScript noScript named runtime (isHyphenated_scopeToken identifier number).names
      props
  have quote : isNameChar '"' = false := by decide
  have opens : isNameChar '<' = false := by decide
  have closes : isNameChar '>' = false := by decide
  rw [written, written]
  -- From left to right: each piece is ended by a character that is in no token.
  rw [hyphenated.replace_plain_append_cons (hasPlainWords_openingLead _) quote,
    hyphenated.replace_append_cons quote,
    Text.replace_of_absent (scopeToken_absent_from_name definition.name number),
    hyphenated.replace_quoted (by decide),
    hyphenated.replace_plain_append_cons (by decide) closes,
    replace_htmlAll_styleNodes hyphenated hyphenatedOther absent absentOther,
    hyphenated.replace_plain_append_cons (by decide) closes,
    hyphenated.replace_append_cons opens, Text.replace_of_absent absentMarkup,
    Text.replace_of_absent (hyphenated.absent (by decide))]

/-- A component whose styles name another token, and whose template looks like the markup around. -/
def scopedCard : Definition where
  name := "card".toList
  template := "<p data-scope=\"mdc-card-\">\x7b\x7btext\x7d\x7d</p>".toList
  styles := (":root, .a , [data-scope=\"mdc-card-00000f\"] b \x7b\x7d" ++
    "@keyframes k \x7b from \x7b\x7d 50.5% \x7b\x7d \x7d [c \x7b").toList
  props := .ofPairs [("text".toList, "mdc-card-00000".toList)]
  script := "el.clear()".toList

theorem rendering_varies_in_token_only_lookalikes :
    let options : RenderOptions := { enableScripts := false, displayMode := .block }
    let html (number : Nat) :=
      (render .embedding (scopeToken scopedCard.name number) options scopedCard .empty
        {}).container.html
    options.enableScripts = false ∧ isIdentifier scopedCard.name = true ∧
      (¬ scopeToken scopedCard.name 1 <:+: scopedCard.styles) ∧
      (¬ scopeToken scopedCard.name 2 <:+: scopedCard.styles) ∧
      (¬ scopeToken scopedCard.name 1 <:+:
        Template.substitute scopedCard.template (scopedCard.props.overlay .empty)) ∧
      html 1 ≠ html 2 ∧
      Text.replace (scopeToken scopedCard.name 1) (scopeToken scopedCard.name 2) (html 1) =
        html 2 := by
  intro options html
  have identifier : isIdentifier scopedCard.name = true := by decide
  have absent : ¬ scopeToken scopedCard.name 1 <:+: scopedCard.styles := by decide +kernel
  have absentOther : ¬ scopeToken scopedCard.name 2 <:+: scopedCard.styles := by decide +kernel
  have absentMarkup : ¬ scopeToken scopedCard.name 1 <:+:
      Template.substitute scopedCard.template (scopedCard.props.overlay .empty) := by
    decide
  exact ⟨rfl, identifier, absent, absentOther, absentMarkup, by decide,
    rendering_varies_in_token_only (.inr rfl) identifier .embedding .empty absent absentOther
      absentMarkup⟩

end DocComponents
