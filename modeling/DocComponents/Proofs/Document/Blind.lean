import DocComponents.Proofs.Document.Answers

/-!
# What answers depend on

A rendering looks at the trace to make its scope token and only adds to what was logged and called.
So an answer depends on the number of scope tokens that were made before it, and on nothing else
that happened before.
-/

set_option autoImplicit false

namespace DocComponents

/-- An action that depends on nothing of the trace but the number of scope tokens made. -/
def IsBlind {Result : Type} (action : StateM Trace Result) : Prop :=
  ∀ trace other : Trace, trace.scopes = other.scopes →
    (action.run trace).1 = (action.run other).1 ∧
      (action.run trace).2.scopes = (action.run other).2.scopes

section IsBlind

variable {Result Other : Type}

theorem isBlind_pure (value : Result) : IsBlind (pure value) :=
  fun _ _ same => ⟨rfl, same⟩

theorem IsBlind.bind {action : StateM Trace Result} {next : Result → StateM Trace Other}
    (blind : IsBlind action) (rest : ∀ value, IsBlind (next value)) :
    IsBlind (action >>= next) := by
  intro trace other same
  obtain ⟨sameValue, sameScopes⟩ := blind trace other same
  have behind := rest (action.run trace).1 (action.run trace).2 (action.run other).2 sameScopes
  have run (start : Trace) : (action >>= next).run start =
      (next (action.run start).1).run (action.run start).2 := rfl
  -- Both runs go on with one value.
  rw [run, run, ← sameValue]
  exact behind

end IsBlind

namespace Expander

variable (expander : Expander)

theorem isBlind_tell (level : Log.Level) (event : Text) (fields : Log.Fields) :
    IsBlind (tell level event fields) :=
  fun _ _ same => ⟨rfl, same⟩

theorem isBlind_renderDefinition (definition : Definition) (props : Props)
    (options : RenderOptions) (container : Element Node) :
    IsBlind (expander.renderDefinition definition props options container) := by
  intro trace other same
  have run (start : Trace) :
      (expander.renderDefinition definition props options container).run start =
        let token := scopeToken definition.name (expander.tokens start.scopes)
        let rendering := render expander.runtime token options definition props container
        (rendering.container,
          { scopes := start.scopes + 1
            log := start.log ++ rendering.log
            calls := start.calls ++ rendering.calls }) := rfl
  rw [run, run, same]
  exact ⟨rfl, rfl⟩

theorem isBlind_renderInvocation (invocation : Invocation) (options : RenderOptions)
    (container : Element Node) :
    IsBlind (expander.renderInvocation invocation options container) := by
  unfold renderInvocation
  split
  · exact (isBlind_tell _ _ _).bind fun _ => isBlind_pure _
  · exact (isBlind_tell _ _ _).bind fun _ => expander.isBlind_renderDefinition _ _ _ _

theorem stepsRelated_isBlind : StepsRelated expander expander fun action _ => IsBlind action where
  settings := rfl
  contains _ _ := rfl
  pure value := isBlind_pure value
  bind blind rest := blind.bind rest
  told _ := isBlind_tell _ _ _
  rendered _ _ _ _ := expander.isBlind_renderInvocation _ _ _

/-- No answer depends on what was logged or called before it. -/
theorem isBlind_answer (request : Request) : IsBlind (expander.answer request) := by
  cases request with
  | invocation invocation options? container =>
      exact (expander.isBlind_renderInvocation _ _ _).bind fun _ => isBlind_pure _
  | block source mode? => exact expander.stepsRelated_isBlind.answer rfl
  | inline text => exact expander.stepsRelated_isBlind.answer rfl
  | document markdown => exact expander.stepsRelated_isBlind.answer rfl

theorem isBlind_sync (expander : Expander) (disk : Disk) : IsBlind (expander.sync disk).run := by
  intro trace other same
  unfold sync
  split
  · dsimp only
    cases (expander.catalog.refresh disk).result with
    | ok changed => exact ⟨rfl, same⟩
    | error fault => exact ⟨rfl, same⟩
  · exact ⟨rfl, same⟩

theorem isBlind_serve (expander : Expander) (disk : Disk) (request : Request) :
    IsBlind (expander.serve disk request) := by
  unfold serve
  split
  · refine (expander.isBlind_sync disk).bind fun synced => ?_
    cases synced with
    | ok synced => exact (synced.isBlind_answer request).bind fun _ => isBlind_pure _
    | error fault => exact isBlind_pure _
  · exact (expander.isBlind_answer request).bind fun _ => isBlind_pure _

end Expander

end DocComponents
