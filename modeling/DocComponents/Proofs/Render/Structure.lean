import DocComponents.Proofs.Render.Template
import DocComponents.Render.Component

/-!
# The markup structure of a rendering

Props reach a rendering through the template only, and there they are escaped. A caller decides what
a component says, and never where a tag or an attribute value begins or ends.
-/

set_option autoImplicit false

namespace DocComponents

/-- Renderings without a script differ in what fills the template. -/
theorem container_render_of_noScript {definition : Definition} {options : RenderOptions}
    (noScript : definition.script = [] ∨ options.enableScripts = false) (runtime : ScriptRuntime)
    (token : Text) (props : Props) (container : Element Node) :
    (render runtime token options definition props container).container =
      let marked := markContainer container definition.name token options.displayMode
      { marked with
        children := marked.children ++ styleNodes definition token ++
          [(innerElement definition (definition.props.overlay props)).toNode] } := by
  have skipped : (definition.script.isEmpty || !options.enableScripts) = true := by
    rcases noScript with empty | disabled
    · simp [empty]
    · simp [disabled]
  unfold render
  rw [if_pos skipped]
  rfl

/-- The inner element has the delimiters of the template. -/
theorem delimiters_innerElement (definition : Definition) (props others : Props) :
    Markup.delimiters (innerElement definition props).html =
      Markup.delimiters (innerElement definition others).html := by
  have filled (given : Props) :
      Markup.delimiters (Node.htmlAll [.markup (Template.substitute definition.template given)]) =
        Markup.delimiters definition.template := by
    simp [Node.htmlAll, Node.html, Template.delimiters_substitute]
  exact Element.delimiters_html_congr { classes := [innerClass] }
    ((filled props).trans (filled others).symm)

/-- Where no script runs, the tags and the attribute delimiters of a rendering are the same for all
props of a caller. -/
theorem props_keep_markup_structure {definition : Definition} {options : RenderOptions}
    (noScript : definition.script = [] ∨ options.enableScripts = false) (runtime : ScriptRuntime)
    (token : Text) (container : Element Node) (props others : Props) :
    Markup.delimiters
        (render runtime token options definition props container).container.html =
      Markup.delimiters
        (render runtime token options definition others container).container.html := by
  have inner := delimiters_innerElement definition (definition.props.overlay props)
    (definition.props.overlay others)
  have last (element : Element Node) : Node.htmlAll [element.toNode] = element.html :=
    List.append_nil _
  rw [container_render_of_noScript noScript, container_render_of_noScript noScript]
  apply Element.delimiters_html_congr
  rw [Node.htmlAll_append, Node.htmlAll_append _ [_], Markup.delimiters_append,
    Markup.delimiters_append, last, last, inner]

/-- A component with placeholders in an attribute and between tags. -/
def titledLink : Definition where
  name := "link".toList
  template := "<a title=\"\x7b\x7b title \x7d\x7d\">\x7b\x7btext\x7d\x7d</a>".toList
  props := .ofPairs [("text".toList, "more".toList)]
  script := "el.clear()".toList

/-- Props that would close the attribute, the tag and the placeholder they stand in. -/
def intrudingProps : Props :=
  .ofPairs [("title".toList, "\" onclick=\"x\"><b>".toList),
    ("text".toList, "</a>&lt;\x7b\x7btitle\x7d\x7d\"".toList)]

theorem props_keep_markup_structure_intruding :
    let rendered (props : Props) :=
      (render .inProcess "mdc-link-000000".toList { enableScripts := false } titledLink props
        {}).container.html
    ({ enableScripts := false } : RenderOptions).enableScripts = false ∧
      rendered intrudingProps ≠ rendered .empty ∧
      Markup.delimiters (rendered intrudingProps) = Markup.delimiters (rendered .empty) :=
  ⟨rfl, by decide +kernel,
    props_keep_markup_structure (.inr rfl) .inProcess _ {} intrudingProps .empty⟩

end DocComponents
