import DocComponents.Proofs.Catalog.History
import DocComponents.Proofs.Document.Answers
import DocComponents.Proofs.Document.Direct

/-!
# What texts can reach

The names that texts can invoke are the identifiers, on a line of their own as in running text. So
what is registered under another name is never rendered for a text, whatever it is, and what is
registered under an identifier is rendered for a block and for a marker.
-/

set_option autoImplicit false

namespace DocComponents

/-! ### Renderings -/

/-- The name of the component, for an entry that tells of a rendering. -/
def renderedName? (entry : Log.Entry) : Option Text :=
  if entry.event = "component-rendering".toList then
    match entry.fields.lookup "name".toList with
    | some (.text name) => some name
    | _ => none
  else none

/-- The names of the components that entries tell of, one for every rendering. -/
def renderedNames (entries : List Log.Entry) : List Text :=
  entries.filterMap renderedName?

/-- The trace behind renderings of registered components that can be invoked. Every scope token was
made for a rendering that an entry tells of, and every script belongs to one. -/
inductive Trace.Grows (catalog : Catalog) (before : Trace) : Trace → Prop where
  | intro (entries : List Log.Entry) (calls : List ScriptCall)
      (rendered : ∀ name ∈ renderedNames entries, ∃ definition,
        catalog.get? name = some definition ∧ definition.isInvocable = true)
      (called : ∀ call ∈ calls, ∃ name ∈ renderedNames entries,
        catalog.get? name = some call.definition) :
      Trace.Grows catalog before
        { scopes := before.scopes + (renderedNames entries).length
          log := before.log ++ entries
          calls := before.calls ++ calls }

section Grows

variable {catalog : Catalog} {Result Other : Type}

theorem renderedNames_append (entries others : List Log.Entry) :
    renderedNames (entries ++ others) = renderedNames entries ++ renderedNames others :=
  List.filterMap_append

theorem renderedNames_cons_of_ne {entry : Log.Entry}
    (apart : entry.event ≠ "component-rendering".toList) (entries : List Log.Entry) :
    renderedNames (entry :: entries) = renderedNames entries := by
  have none : renderedName? entry = none := if_neg apart
  exact List.filterMap_cons_none none

theorem Trace.Grows.refl (trace : Trace) : Trace.Grows catalog trace trace := by
  have nothing : Trace.Grows catalog trace _ :=
    .intro [] [] (List.forall_mem_nil _) (List.forall_mem_nil _)
  simpa [renderedNames] using nothing

theorem Trace.Grows.trans {first second third : Trace} (one : Trace.Grows catalog first second)
    (two : Trace.Grows catalog second third) : Trace.Grows catalog first third := by
  cases one with
  | intro entries calls rendered called =>
    cases two with
    | intro laterEntries laterCalls laterRendered laterCalled =>
      have allRendered : ∀ name ∈ renderedNames (entries ++ laterEntries), ∃ definition,
          catalog.get? name = some definition ∧ definition.isInvocable = true := by
        rw [renderedNames_append]
        exact List.forall_mem_append.mpr ⟨rendered, laterRendered⟩
      have allCalled : ∀ call ∈ calls ++ laterCalls,
          ∃ name ∈ renderedNames (entries ++ laterEntries),
            catalog.get? name = some call.definition := by
        rw [renderedNames_append]
        refine List.forall_mem_append.mpr ⟨fun call member => ?_, fun call member => ?_⟩
        · obtain ⟨name, told, found⟩ := called call member
          exact ⟨name, List.mem_append_left _ told, found⟩
        · obtain ⟨name, told, found⟩ := laterCalled call member
          exact ⟨name, List.mem_append_right _ told, found⟩
      have whole : Trace.Grows catalog first _ :=
        .intro (entries ++ laterEntries) (calls ++ laterCalls) allRendered allCalled
      simpa [renderedNames_append, Nat.add_assoc] using whole

/-- An action that renders nothing but registered components that can be invoked. -/
def RendersInvocable (catalog : Catalog) (action : StateM Trace Result) : Prop :=
  ∀ trace, Trace.Grows catalog trace (action.run trace).2

theorem rendersInvocable_pure (value : Result) :
    RendersInvocable catalog (pure value : StateM Trace Result) :=
  fun trace => .refl trace

theorem RendersInvocable.bind {action : StateM Trace Result} {next : Result → StateM Trace Other}
    (first : RendersInvocable catalog action)
    (rest : ∀ value, RendersInvocable catalog (next value)) :
    RendersInvocable catalog (action >>= next) :=
  fun trace => (first trace).trans (rest (action.run trace).1 (action.run trace).2)

end Grows

/-- Every definition is registered under its own name. -/
def Catalog.IsNamed (catalog : Catalog) : Prop :=
  ∀ name definition, catalog.get? name = some definition → definition.name = name

theorem Catalog.isNamed_of_history (root : Option Path) (history : History) :
    (history.run { root }).IsNamed :=
  (inOrder_of_history root history).named

namespace Expander

theorem rendersInvocable_tell {catalog : Catalog} {event : Text}
    (apart : event ≠ "component-rendering".toList) (level : Log.Level) (fields : Log.Fields) :
    RendersInvocable catalog (tell level event fields) := by
  intro trace
  have told (entry : Log.Entry) (same : entry.event = event) :
      Trace.Grows catalog trace { trace with log := trace.log ++ [entry] } := by
    have none : renderedNames [entry] = [] := renderedNames_cons_of_ne (same ▸ apart) []
    have added : Trace.Grows catalog trace _ :=
      .intro [entry] [] (none ▸ List.forall_mem_nil _) (List.forall_mem_nil _)
    rw [none, List.append_nil] at added
    exact added
  exact told _ rfl

theorem renderedNames_log_render (runtime : ScriptRuntime) (token : Text) (options : RenderOptions)
    (definition : Definition) (props : Props) (container : Element Node) :
    renderedNames (render runtime token options definition props container).log = [] := by
  unfold render
  dsimp only
  split
  · rfl
  · cases (runtime.run _).failure? with
    | none => rfl
    | some failure => rfl

theorem definition_eq_of_mem_calls_render {runtime : ScriptRuntime} {token : Text}
    {options : RenderOptions} {definition : Definition} {props : Props} {container : Element Node}
    {call : ScriptCall}
    (member : call ∈ (render runtime token options definition props container).calls) :
    call.definition = definition := by
  unfold render at member
  dsimp only at member
  split at member
  · cases member
  · rw [List.mem_singleton.mp member]

theorem grows_render {catalog : Catalog} {name : Text} {definition : Definition}
    (registered : catalog.get? name = some definition) (invocable : definition.isInvocable = true)
    {entry : Log.Entry} (told : renderedName? entry = some name) (runtime : ScriptRuntime)
    (token : Text) (options : RenderOptions) (props : Props) (container : Element Node)
    (before : Trace) :
    let rendering := render runtime token options definition props container
    Trace.Grows catalog before
      { scopes := before.scopes + 1
        log := before.log ++ [entry] ++ rendering.log
        calls := before.calls ++ rendering.calls } := by
  intro rendering
  have quiet : renderedNames rendering.log = [] := renderedNames_log_render ..
  have names : renderedNames (entry :: rendering.log) = [name] := by
    rw [renderedNames, List.filterMap_cons_some told]
    exact congrArg _ quiet
  have rendered : ∀ other ∈ renderedNames (entry :: rendering.log), ∃ definition,
      catalog.get? other = some definition ∧ definition.isInvocable = true := by
    rw [names]
    exact List.forall_mem_singleton.mpr ⟨definition, registered, invocable⟩
  have called : ∀ call ∈ rendering.calls, ∃ other ∈ renderedNames (entry :: rendering.log),
      catalog.get? other = some call.definition := by
    intro call member
    rw [names, definition_eq_of_mem_calls_render member]
    exact ⟨name, List.mem_singleton_self _, registered⟩
  have added : Trace.Grows catalog before _ :=
    .intro (entry :: rendering.log) rendering.calls rendered called
  rw [names, List.append_cons] at added
  exact added

section named

variable {expander : Expander} (named : expander.catalog.IsNamed)

include named

theorem rendersInvocable_renderInvocation {invocation : Invocation}
    (identifier : isIdentifier invocation.name = true) (options : RenderOptions)
    (container : Element Node) :
    RendersInvocable expander.catalog (expander.renderInvocation invocation options container) := by
  unfold renderInvocation
  split
  · exact (rendersInvocable_tell (by decide) _ _).bind fun _ => rendersInvocable_pure _
  · next definition registered =>
      have invocable : definition.isInvocable = true := by
        rwa [Definition.isInvocable, named _ _ registered]
      intro trace
      exact grows_render registered invocable rfl _ _ _ _ _ trace

theorem stepsRelated_rendersInvocable :
    StepsRelated expander expander fun action _ => RendersInvocable expander.catalog action where
  settings := rfl
  contains _ _ := rfl
  pure value := rendersInvocable_pure value
  bind first rest := first.bind rest
  told _ := rendersInvocable_tell (by decide) _ _
  rendered _ identifier _ _ := rendersInvocable_renderInvocation named identifier _ _

end named

end Expander

/-! ### Catalogs that differ out of reach -/

/-- Catalogs of the same names, with the same definitions under those that texts can invoke. -/
structure Catalog.AgreesWith (catalog other : Catalog) : Prop where
  names : other.names = catalog.names
  found : ∀ name, isIdentifier name = true → other.get? name = catalog.get? name

namespace Expander

variable {expander : Expander} {other : Catalog} (agrees : expander.catalog.AgreesWith other)

include agrees

theorem renderInvocation_of_agreesWith {invocation : Invocation}
    (identifier : isIdentifier invocation.name = true) (options : RenderOptions)
    (container : Element Node) :
    ({ expander with catalog := other } : Expander).renderInvocation invocation options container =
      expander.renderInvocation invocation options container := by
  have message : ({ expander with catalog := other } : Expander).missingMessage invocation.name =
      expander.missingMessage invocation.name := by
    unfold missingMessage
    rw [agrees.names]
  have size : other.definitions.size = expander.catalog.definitions.size := by
    simpa [Catalog.names, SortedMap.keys, SortedMap.size] using congrArg List.length agrees.names
  unfold renderInvocation
  rw [message, agrees.found invocation.name identifier, size]
  rfl

theorem stepsRelated_eq_of_agreesWith :
    StepsRelated ({ expander with catalog := other } : Expander) expander fun action next =>
      action = next where
  settings := rfl
  contains name identifier := (congrArg Option.isSome (agrees.found name identifier)).symm
  pure _ := rfl
  bind same rest := by rw [same, funext rest]
  told _ := rfl
  rendered _ identifier _ _ := renderInvocation_of_agreesWith agrees identifier _ _

end Expander

/-! ### What is reached -/

namespace Expander

variable {expander : Expander} {definition : Definition}
  (registered : expander.catalog.get? definition.name = some definition)
  (invocable : definition.isInvocable = true)

include registered invocable

theorem answer_block_of_registered (trace : Trace) :
    let token := scopeToken definition.name (expander.tokens trace.scopes)
    let rendering := render expander.runtime token expander.options definition .empty {}
    ((expander.answer (.document (Invocation.writeBlock [definition.name]))).run trace).1 =
      .ok (.text
        (({ children := [rendering.container.toNode] } : Element Node).html ++ ['\n'])) := by
  have split := Invocation.split_writeBlock invocable Props.areWritable_empty.toAreDeclarable
  have reads := Invocation.readBlock_write invocable Props.areWritable_empty
  rw [Invocation.write_of_eq_nil rfl] at split reads
  have shown := html_expandDocument_of_single split reads registered trace
  exact congrArg (fun text => Except.ok (Shown.text text)) shown

theorem answer_marker_of_registered (trace : Trace) :
    let token := scopeToken definition.name (expander.tokens trace.scopes)
    let rendering := render expander.runtime token
      { expander.options with displayMode := .inline } definition .empty
      { tag := "span".toList, classes := [inlineWrapperClass] }
    ((expander.answer (.document (bareMarker definition.name))).run trace).1 =
      .ok (.text rendering.container.html) := by
  intro token rendering
  have noTick : '`' ∉ bareMarker definition.name :=
    not_mem_bareMarker invocable (by decide) (by decide)
  have noTildes : ¬ "~~~".toList <:+: bareMarker definition.name := fun inside =>
    not_mem_bareMarker invocable (by decide) (by decide) (inside.subset List.mem_cons_self)
  have scanned := Text.scan_of_eq_some (bareMarker_ne_nil _) (recogniseMarker_bareMarker invocable)
  have contained : expander.catalog.definitions.contains definition.name = true :=
    congrArg Option.isSome registered
  have marker : ((expander.expandMarker (bareMarker definition.name) definition.name).run trace).1 =
      rendering.container.html := by
    unfold expandMarker renderInvocation
    rw [Invocation.read?_name invocable]
    dsimp only
    rw [contained, registered]
    rfl
  have inline : ((expander.expandInline (bareMarker definition.name)).run trace).1 =
      rendering.container.html := by
    rw [expandInline, scanned, ← marker]
    exact List.append_nil _
  rw [answer_document_of_running noTick noTildes]
  exact congrArg (fun text => Except.ok (Shown.text text)) inline

end Expander

/-- The names by which texts invoke components are exactly the identifiers: alone, on a line of a
block and in an inline marker. No other component of a catalog is rendered for a text, whatever it
holds, and every component with such a name is shown by a block and by a marker. -/
theorem invocable_iff_reached :
    (∀ definition : Definition,
      [definition.isInvocable = true,
        ∃ text invocation, Invocation.read? text = some invocation ∧
          invocation.name = definition.name,
        ∃ line, Text.IsOneLine line ∧
          ∃ invocation ∈ Invocation.readBlock line, invocation.name = definition.name,
        ∃ source, ∃ invocation ∈ Invocation.readBlock source, invocation.name = definition.name,
        ∃ text, ∃ marker ∈ Marker.findAll text, ∃ invocation,
          marker.invocation = some invocation ∧ invocation.name = definition.name].TFAE) ∧
      (∀ root history, (Catalog.History.run history { root }).IsNamed) ∧
      (∀ (expander : Expander) (request : Request) (trace : Trace), expander.catalog.IsNamed →
        request.followsFiles = true →
          Trace.Grows expander.catalog trace ((expander.answer request).run trace).2) ∧
      (∀ (expander : Expander) (other : Catalog) (request : Request),
        expander.catalog.AgreesWith other → request.followsFiles = true →
          ({ expander with catalog := other } : Expander).answer request =
            expander.answer request) ∧
      ∀ (expander : Expander) (definition : Definition) (trace : Trace),
        expander.catalog.get? definition.name = some definition → definition.isInvocable = true →
          let token := scopeToken definition.name (expander.tokens trace.scopes)
          let block := render expander.runtime token expander.options definition .empty {}
          let inline := render expander.runtime token
            { expander.options with displayMode := .inline } definition .empty
            { tag := "span".toList, classes := [inlineWrapperClass] }
          ((expander.answer (.document (Invocation.writeBlock [definition.name]))).run trace).1 =
              .ok (.text (({ children := [block.container.toNode] } : Element Node).html ++
                ['\n'])) ∧
            ((expander.answer (.document (bareMarker definition.name))).run trace).1 =
              .ok (.text inline.container.html) := by
  refine ⟨tfae_isInvocable, Catalog.isNamed_of_history, ?_, ?_, ?_⟩
  · intro expander request trace named follows
    exact (Expander.stepsRelated_rendersInvocable named).answer follows trace
  · intro expander other request agrees follows
    exact (Expander.stepsRelated_eq_of_agreesWith agrees).answer follows
  · intro expander definition trace registered invocable
    exact ⟨Expander.answer_block_of_registered registered invocable trace,
      Expander.answer_marker_of_registered registered invocable trace⟩

end DocComponents
