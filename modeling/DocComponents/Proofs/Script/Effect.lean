import DocComponents.Script.Runtime

/-!
# The effect of a script

A run is told by the statements that it carries out: those in front of the first one that fails or
that ends the script. Each of them changes the element and the props by itself, so what a script did
is what these statements do one after the other.
-/

set_option autoImplicit false

namespace DocComponents

namespace Script

/-- Statements that are carried out one after the other, none of which fails or ends the script. -/
inductive Performs : List Statement → State → State → Prop where
  | nil {state : State} : Performs [] state state
  | cons {statement : Statement} {rest : List Statement} {state middle last : State}
      (goesOn : statement ≠ .stop) (step : statement.step state = .ok middle)
      (later : Performs rest middle last) : Performs (statement :: rest) state last

/-- Why a run ends in a state, in front of the statements that are left. -/
inductive Ends (state : State) : List Statement → Option Failure → Prop where
  | finished : Ends state [] none
  | stopped {rest : List Statement} : Ends state (.stop :: rest) none
  | failed {statement : Statement} {rest : List Statement} {failure : Failure}
      (step : statement.step state = .error failure) :
      Ends state (statement :: rest) (some failure)

theorem exists_performs (statements : List Statement) (state : State) :
    ∃ done rest, statements = done ++ rest ∧ Performs done state (run statements state).1 ∧
      Ends (run statements state).1 rest (run statements state).2 := by
  -- Over any state: the first statement hands another one to those behind it.
  induction statements generalizing state with
  | nil => exact ⟨[], [], rfl, .nil, .finished⟩
  | cons statement rest ih =>
      rw [run]
      split
      · next stops =>
          subst stops
          exact ⟨[], _, rfl, .nil, .stopped⟩
      · next goesOn =>
          split
          · next middle step =>
              obtain ⟨done, left, rfl, performs, ends⟩ := ih middle
              exact ⟨statement :: done, left, rfl, .cons goesOn step performs, ends⟩
          · next failure step => exact ⟨[], _, rfl, .nil, .failed step⟩

theorem Ends.run_eq {state : State} {rest : List Statement} {failure? : Option Failure}
    (ends : Ends state rest failure?) : run rest state = (state, failure?) := by
  cases ends with
  | finished => rfl
  | stopped => rw [run, if_pos rfl]
  | @failed statement rest failure step =>
      have goesOn : statement ≠ .stop := by
        rintro rfl
        cases step
      rw [run, if_neg goesOn, step]

theorem Performs.run_append {done : List Statement} {state last : State}
    (performs : Performs done state last) (rest : List Statement) :
    run (done ++ rest) state = run rest last := by
  induction performs with
  | nil => rfl
  | cons goesOn step later ih =>
      rw [List.cons_append, run, if_neg goesOn, step]
      exact ih

/-- A run carries out the statements in front of the first one that fails or ends the script. -/
theorem run_eq_iff {statements : List Statement} {state last : State}
    {failure? : Option Failure} :
    run statements state = (last, failure?) ↔
      ∃ done rest, statements = done ++ rest ∧ Performs done state last ∧
        Ends last rest failure? := by
  constructor
  · intro ran
    have performed := exists_performs statements state
    rwa [ran] at performed
  · rintro ⟨done, rest, rfl, performs, ends⟩
    rw [performs.run_append, ends.run_eq]

private theorem exists_ok_of_bind {Value Other : Type} {first : Except Failure Value}
    {next : Value → Except Failure Other} {result : Other}
    (succeeded : first >>= next = .ok result) : ∃ value, next value = .ok result := by
  cases first with
  | error failure => cases succeeded
  | ok value => exact ⟨value, succeeded⟩

theorem tag_setAttribute (element : Element Node) (name value : Text) :
    (element.setAttribute name value).tag = element.tag := by
  unfold Element.setAttribute
  split <;> rfl

/-- No statement changes the tag of the element. -/
theorem tag_of_step {statement : Statement} {state next : State}
    (step : statement.step state = .ok next) : next.element.tag = state.element.tag := by
  cases statement with
  | skip => cases step; rfl
  | stop => cases step; rfl
  | setAttribute name value =>
      obtain ⟨name, step⟩ := exists_ok_of_bind step
      obtain ⟨value, step⟩ := exists_ok_of_bind step
      cases step
      exact tag_setAttribute _ _ _
  | addClasses names =>
      obtain ⟨names, step⟩ := exists_ok_of_bind step
      cases step
      rfl
  | append content =>
      obtain ⟨content, step⟩ := exists_ok_of_bind step
      cases step
      rfl
  | appendMarkup html =>
      obtain ⟨html, step⟩ := exists_ok_of_bind step
      cases step
      rfl
  | clear => cases step; rfl
  | setProp key value =>
      obtain ⟨value, step⟩ := exists_ok_of_bind step
      cases step
      rfl
  | raise kind message => cases step
  | callFunction name => cases step
  | callMethod name => cases step

theorem Performs.tag_eq {done : List Statement} {state last : State}
    (performs : Performs done state last) : last.element.tag = state.element.tag := by
  induction performs with
  | nil => rfl
  | cons goesOn step later ih => exact ih.trans (tag_of_step step)

end Script

namespace ScriptRuntime

/-- A runtime that fails at every script and does nothing else. -/
def refusing (name : Text) (failure : Script.Failure) : ScriptRuntime where
  name
  run call := { inner := call.inner, failure? := some failure }

/-- What a runtime makes of a script: the embedding one leaves it to a hook, a refusing one does
nothing, and the in-process one carries its statements out, unless it cannot be read. -/
inductive Handles : ScriptRuntime → ScriptCall → ScriptOutcome → Prop where
  | hooked {call : ScriptCall} :
      Handles embedding call
        { inner := call.inner, hooks := [.markup (hook call.script call.scope call.props)] }
  | refused {name : Text} {failure : Script.Failure} {call : ScriptCall} :
      Handles (refusing name failure) call { inner := call.inner, failure? := some failure }
  | unreadable {call : ScriptCall} {fault : Script.LayoutFault}
      (unread : Script.read call.script = .error fault) :
      Handles inProcess call
        { inner := call.inner
          failure? := some (.rejected call.definition.name
            ("invalid script syntax: ".toList ++ fault.message)) }
  | performed {call : ScriptCall} {done rest : List Script.Statement} {last : Script.State}
      {failure? : Option Script.Failure} (read : Script.read call.script = .ok (done ++ rest))
      (performs : Script.Performs done ⟨call.inner, call.props⟩ last)
      (ends : Script.Ends last rest failure?) :
      Handles inProcess call { inner := last.element, failure? }

variable {runtime : ScriptRuntime} {call : ScriptCall} {outcome : ScriptOutcome}

theorem handles_inProcess (call : ScriptCall) : Handles inProcess call (inProcess.run call) := by
  cases read : Script.read call.script with
  | error fault =>
      have outcome : inProcess.run call =
          { inner := call.inner
            failure? := some (.rejected call.definition.name
              ("invalid script syntax: ".toList ++ fault.message)) } := by
        unfold inProcess
        dsimp only
        rw [read]
      rw [outcome]
      exact .unreadable read
  | ok statements =>
      have outcome : inProcess.run call =
          { inner := (Script.run statements ⟨call.inner, call.props⟩).1.element
            failure? := (Script.run statements ⟨call.inner, call.props⟩).2 } := by
        unfold inProcess
        dsimp only
        rw [read]
      obtain ⟨done, rest, rfl, performs, ends⟩ :=
        Script.run_eq_iff.mp (Prod.eta (Script.run statements ⟨call.inner, call.props⟩)).symm
      rw [outcome]
      exact .performed read performs ends

theorem Handles.tag_eq (handles : Handles runtime call outcome) :
    outcome.inner.tag = call.inner.tag := by
  cases handles with
  | hooked => rfl
  | refused => rfl
  | unreadable unread => rfl
  | performed read performs ends => exact performs.tag_eq

end ScriptRuntime

end DocComponents
