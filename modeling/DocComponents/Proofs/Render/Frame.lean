import DocComponents.Proofs.Props
import DocComponents.Proofs.Render.Structure
import DocComponents.Proofs.Script.Effect

/-!
# What a rendering adds

A rendering adds to its container and takes nothing away: the children, the classes and the other
attributes that were there stay as they were. The styles, the inner element and the hooks of the
runtime come behind them, and a script reaches none of it but the inner element.
-/

set_option autoImplicit false

namespace DocComponents

namespace Element

variable {Child : Type}

/-- Adding different classes puts those that are missing behind the others. -/
theorem classes_addClasses {names : List Text} (distinct : names.Nodup)
    (filled : ∀ name ∈ names, name ≠ []) (element : Element Child) :
    (element.addClasses names).classes =
      element.classes ++ names.filter fun name => !element.classes.contains name := by
  unfold addClasses
  dsimp only
  generalize element.classes = classes
  -- Over any classes: each name is looked for among those that the earlier names have left.
  induction names generalizing classes with
  | nil => simp
  | cons name rest ih =>
      obtain ⟨fresh, others⟩ := List.nodup_cons.mp distinct
      have later := ih others fun other member => filled other (List.mem_cons_of_mem _ member)
      have notEmpty : name.isEmpty = false := by simpa using filled name List.mem_cons_self
      rw [List.foldl_cons, later]
      by_cases known : name ∈ classes
      · simp [withClass, known]
      · have added : withClass classes name = classes ++ [name] := by
          simp [withClass, notEmpty, known]
        -- The name that was added is none of the later ones, so it hides none of them.
        have same : (rest.filter fun other => !(classes ++ [name]).contains other) =
            rest.filter fun other => !classes.contains other := by
          refine List.filter_congr fun other member => ?_
          have apart : other ≠ name := by
            rintro rfl
            exact fresh member
          simp [apart]
        rw [added, same, List.filter_cons_of_pos (by simpa using known), List.append_assoc]
        rfl

theorem attributes_setAttribute {name : Text} (other : name ≠ "class".toList)
    (element : Element Child) (value : Text) :
    element.setAttribute name value =
      { element with attributes := element.attributes.put name value } :=
  if_neg other

end Element

/-- The attributes that a rendering leaves alone. -/
def isOtherAttribute (name : Text) : Bool :=
  name != "data-component".toList && name != "data-scope".toList

/-- The classes that a rendering adds in a mode. -/
def modeClasses (mode : DisplayMode) : List Text :=
  if mode = .block then [containerClass, blockClass] else [containerClass]

theorem nodup_modeClasses (mode : DisplayMode) : (modeClasses mode).Nodup := by
  cases mode <;> decide

theorem ne_nil_of_mem_modeClasses {mode : DisplayMode} :
    ∀ name ∈ modeClasses mode, name ≠ [] := by
  cases mode <;> decide

section markContainer

variable (container : Element Node) (name token : Text) (mode : DisplayMode)

theorem markContainer_eq :
    markContainer container name token mode =
      { container with
        classes := (container.addClasses (modeClasses mode)).classes
        attributes :=
          (container.attributes.put "data-component".toList name).put "data-scope".toList
            token } := by
  unfold markContainer
  dsimp only
  rw [Element.attributes_setAttribute (by decide), Element.attributes_setAttribute (by decide)]
  rfl

theorem attributes_markContainer :
    (markContainer container name token mode).attributes.get? "data-component".toList =
        some name ∧
      (markContainer container name token mode).attributes.get? "data-scope".toList =
        some token ∧
      ((markContainer container name token mode).attributes.pairs.filter
          fun pair => isOtherAttribute pair.1) =
        container.attributes.pairs.filter fun pair => isOtherAttribute pair.1 := by
  have apart : "data-component".toList ≠ "data-scope".toList := by decide
  rw [markContainer_eq]
  refine ⟨?_, ?_, ?_⟩
  · rw [Props.get?_put, if_neg apart, Props.get?_put, if_pos rfl]
  · rw [Props.get?_put, if_pos rfl]
  · exact (filter_putPair isOtherAttribute (by decide) token _).trans
      (filter_putPair isOtherAttribute (by decide) name _)

end markContainer

namespace ScriptRuntime

/-- A runtime that handles scripts in one of the three ways. -/
inductive IsKnown : ScriptRuntime → Prop where
  | inProcess : IsKnown inProcess
  | embedding : IsKnown embedding
  | refusing (name : Text) (failure : Script.Failure) : IsKnown (refusing name failure)

theorem IsKnown.handles {runtime : ScriptRuntime} (known : runtime.IsKnown) (call : ScriptCall) :
    Handles runtime call (runtime.run call) := by
  cases known with
  | inProcess => exact handles_inProcess call
  | embedding => exact .hooked
  | refusing name failure => exact .refused

end ScriptRuntime

/-- What becomes of the script of a component: it is passed over when there is none or when scripts
are disabled, and handled by the runtime otherwise. -/
inductive Executes (runtime : ScriptRuntime) (options : RenderOptions) (call : ScriptCall) :
    ScriptOutcome → Prop where
  | skipped (noScript : call.script = [] ∨ options.enableScripts = false) :
      Executes runtime options call { inner := call.inner }
  | handled {outcome : ScriptOutcome} (script : call.script ≠ [])
      (enabled : options.enableScripts = true) (handles : runtime.Handles call outcome) :
      Executes runtime options call outcome

theorem Executes.tag_eq {runtime : ScriptRuntime} {options : RenderOptions} {call : ScriptCall}
    {outcome : ScriptOutcome} (executes : Executes runtime options call outcome) :
    outcome.inner.tag = call.inner.tag := by
  cases executes with
  | skipped => rfl
  | handled script enabled handles => exact handles.tag_eq

def scriptCall (definition : Definition) (token : Text) (props : Props) : ScriptCall where
  script := definition.script
  scope := token
  inner := innerElement definition props
  props
  definition

theorem exists_outcome_of_render {runtime : ScriptRuntime} (known : runtime.IsKnown) (token : Text)
    (options : RenderOptions) (definition : Definition) (overrides : Props)
    (container : Element Node) :
    ∃ outcome : ScriptOutcome,
      Executes runtime options
          (scriptCall definition token (definition.props.overlay overrides)) outcome ∧
        let marked := markContainer container definition.name token options.displayMode
        let rendering := render runtime token options definition overrides container
        rendering.container =
            { marked with
              children := container.children ++ styleNodes definition token ++
                outcome.inner.toNode :: outcome.hooks } ∧
          rendering.log = outcome.failure?.toList.map (scriptFailureEntry definition token) := by
  have kept : (markContainer container definition.name token options.displayMode).children =
      container.children := by
    rw [markContainer_eq]
  by_cases noScript : definition.script = [] ∨ options.enableScripts = false
  · refine ⟨_, .skipped noScript, ?_⟩
    refine ⟨?_, ?_⟩
    · rw [container_render_of_noScript noScript]
      dsimp only
      rw [kept]
      rfl
    · have skipped : (definition.script.isEmpty || !options.enableScripts) = true := by
        simpa using noScript
      unfold render
      rw [if_pos skipped]
      rfl
  · obtain ⟨script, enabled⟩ := not_or.mp noScript
    have enabled : options.enableScripts = true := by simpa using enabled
    refine ⟨_, .handled script enabled (known.handles _), ?_⟩
    have runs : ¬ (definition.script.isEmpty || !options.enableScripts) = true := by
      simp [script, enabled]
    unfold render
    rw [if_neg runs]
    refine ⟨?_, rfl⟩
    dsimp only
    rw [kept]
    rfl

/-- A rendering keeps the container with its children and its attributes, and adds the styles that
there are, the inner element and a hook of the embedding runtime. The script changes nothing but the
inner element, and what it changed before a failure stays; the failure is logged. -/
theorem render_adds_only {runtime : ScriptRuntime} (known : runtime.IsKnown) (token : Text)
    (options : RenderOptions) (definition : Definition) (overrides : Props)
    (container : Element Node) :
    let css := Style.scope definition.styles token
    let rendering := render runtime token options definition overrides container
    let after := rendering.container
    ∃ (styles : List Node) (outcome : ScriptOutcome),
      after.tag = container.tag ∧
        after.children = container.children ++ styles ++ outcome.inner.toNode :: outcome.hooks ∧
        (css = [] ∧ styles = [] ∨
          css ≠ [] ∧ styles = [.element "style".toList .empty [] [.markup css]]) ∧
        outcome.inner.tag = "div".toList ∧
        Executes runtime options
          (scriptCall definition token (definition.props.overlay overrides)) outcome ∧
        rendering.log = outcome.failure?.toList.map (scriptFailureEntry definition token) ∧
        after.attributes.get? "data-component".toList = some definition.name ∧
        after.attributes.get? "data-scope".toList = some token ∧
        (after.attributes.pairs.filter fun pair => isOtherAttribute pair.1) =
          (container.attributes.pairs.filter fun pair => isOtherAttribute pair.1) ∧
        after.classes = container.classes ++
          (modeClasses options.displayMode).filter fun name =>
            !container.classes.contains name := by
  intro css rendering after
  obtain ⟨outcome, executes, whole, logged⟩ :=
    exists_outcome_of_render known token options definition overrides container
  obtain ⟨named, marked, others⟩ :=
    attributes_markContainer container definition.name token options.displayMode
  have shape : after = _ := whole
  have styles : css = [] ∧ styleNodes definition token = [] ∨
      css ≠ [] ∧ styleNodes definition token =
        [.element "style".toList .empty [] [.markup css]] := by
    by_cases empty : css = []
    · exact .inl ⟨empty, if_pos (List.isEmpty_iff.mpr empty)⟩
    · exact .inr ⟨empty, if_neg (by simpa using empty)⟩
  have classes := Element.classes_addClasses (nodup_modeClasses options.displayMode)
    ne_nil_of_mem_modeClasses container
  refine ⟨styleNodes definition token, outcome, ?_, ?_, styles, executes.tag_eq, executes, logged,
    ?_, ?_, ?_, ?_⟩
  · rw [shape, markContainer_eq]
  · rw [shape]
  · rw [shape]
    exact named
  · rw [shape]
    exact marked
  · rw [shape]
    exact others
  · rw [shape, markContainer_eq]
    exact classes

/-- A component whose script fails at its third statement. -/
def failingCounter : Definition where
  name := "counter".toList
  template := "<b>\x7b\x7bn\x7d\x7d</b>".toList
  styles := ".a \x7b\x7d".toList
  script :=
    "el.add_class('on')\nel.append(props['n'])\nel.append(props['step'])\nel.clear()".toList

/-- A container that has been used before. -/
def usedContainer : Element Node where
  tag := "section".toList
  attributes := .ofPairs [("data-scope".toList, "old".toList), ("id".toList, "a".toList)]
  classes := ["x".toList, containerClass]
  children := [.text "kept".toList]

theorem render_adds_only_before_failure :
    let rendering := render .inProcess "mdc-counter-000000".toList { displayMode := .block }
      failingCounter (.ofPairs [("n".toList, "3".toList)]) usedContainer
    ScriptRuntime.IsKnown .inProcess ∧
      (∃ added, rendering.container.children = usedContainer.children ++ added) ∧
      rendering.container.classes = ["x".toList, containerClass, blockClass] ∧
      rendering.log.length = 1 ∧
      rendering.container.html =
        ("<section class=\"x md-component mdc-block\" data-scope=\"mdc-counter-000000\" id=\"a\"" ++
          " data-component=\"counter\">kept" ++
          "<style>[data-scope=\"mdc-counter-000000\"] .a \x7b\x7d</style>" ++
          "<div class=\"mdc-inner on\"><b>3</b>3</div></section>").toList := by
  intro rendering
  obtain ⟨styles, outcome, -, children, -, -, -, -, -, -, -, classes⟩ :=
    render_adds_only .inProcess "mdc-counter-000000".toList { displayMode := .block }
      failingCounter (.ofPairs [("n".toList, "3".toList)]) usedContainer
  refine ⟨.inProcess, ⟨_, children.trans (List.append_assoc _ _ _)⟩, classes.trans ?_, ?_, ?_⟩
  · decide +kernel
  · decide +kernel
  · simp only [String.toList_append]
    decide +kernel

end DocComponents
