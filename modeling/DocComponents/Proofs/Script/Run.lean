import DocComponents.Render.Component

/-!
# Failures of running scripts

A statement that fails does so by itself: only a script that cannot be read is rejected. What is
logged about the two differs from the first letter on.
-/

set_option autoImplicit false

namespace DocComponents.Script

namespace Failure

/-- A failure of a script that was executed. -/
def IsOwn : Failure → Prop
  | .rejected _ _ => False
  | _ => True

end Failure

theorem isOwn_of_eval {expression : Expression} {props : Props} {failure : Failure}
    (failed : expression.eval props = .error failure) : failure.IsOwn := by
  cases expression with
  | literal value => cases failed
  | prop key =>
      simp only [Expression.eval] at failed
      split at failed
      · cases failed
      · cases failed
        trivial

theorem isOwn_of_evalAll {props : Props} {expressions : List Expression} {failure : Failure}
    (failed : evalAll props expressions = .error failure) : failure.IsOwn := by
  induction expressions with
  | nil => cases failed
  | cons expression rest ih =>
      unfold evalAll at failed
      split at failed
      · next other here =>
          cases failed
          exact isOwn_of_eval here
      · split at failed
        · next other later =>
            cases failed
            exact ih later
        · cases failed

private theorem eq_error_or_of_bind {Value Other : Type} {first : Except Failure Value}
    {next : Value → Except Failure Other} {failure : Failure}
    (failed : first >>= next = .error failure) :
    first = .error failure ∨ ∃ value, first = .ok value ∧ next value = .error failure := by
  cases first with
  | error other =>
      cases failed
      exact .inl rfl
  | ok value => exact .inr ⟨value, rfl, failed⟩

theorem isOwn_of_step {statement : Statement} {state : State} {failure : Failure}
    (failed : statement.step state = .error failure) : failure.IsOwn := by
  cases statement with
  | skip => cases failed
  | stop => cases failed
  | setAttribute name value =>
      rcases eq_error_or_of_bind failed with here | ⟨_, -, later⟩
      · exact isOwn_of_eval here
      · rcases eq_error_or_of_bind later with here | ⟨_, -, done⟩
        · exact isOwn_of_eval here
        · cases done
  | addClasses names =>
      rcases eq_error_or_of_bind failed with here | ⟨_, -, done⟩
      · exact isOwn_of_evalAll here
      · cases done
  | append content =>
      rcases eq_error_or_of_bind failed with here | ⟨_, -, done⟩
      · exact isOwn_of_eval here
      · cases done
  | appendMarkup html =>
      rcases eq_error_or_of_bind failed with here | ⟨_, -, done⟩
      · exact isOwn_of_eval here
      · cases done
  | clear => cases failed
  | setProp key value =>
      rcases eq_error_or_of_bind failed with here | ⟨_, -, done⟩
      · exact isOwn_of_eval here
      · cases done
  | raise kind message =>
      cases failed
      trivial
  | callFunction name =>
      cases failed
      trivial
  | callMethod name =>
      cases failed
      trivial

theorem isOwn_of_run {statements : List Statement} {state : State} {failure : Failure}
    (failed : (run statements state).2 = some failure) : failure.IsOwn := by
  induction statements generalizing state with
  | nil => cases failed
  | cons statement rest ih =>
      unfold run at failed
      split at failed
      · cases failed
      · split at failed
        · exact ih failed
        · next other here =>
            cases failed
            exact isOwn_of_step here

theorem head?_kind_of_isOwn {failure : Failure} (own : failure.IsOwn) :
    ∃ char, failure.kind.head? = some char ∧ char ≠ 'C' := by
  cases failure with
  | rejected component reason => exact own.elim
  | raised kind message =>
      cases kind with
      | valueError => exact ⟨'V', rfl, by decide⟩
      | exception => exact ⟨'E', rfl, by decide⟩
  | missingProp key => exact ⟨'K', rfl, by decide⟩
  | unknownFunction name => exact ⟨'N', rfl, by decide⟩
  | unknownMethod name => exact ⟨'A', rfl, by decide⟩

/-- What is logged tells a failure of the script from a script that was not executed. -/
theorem scriptFailureEntry_ne {definition other : Definition} {token component reason : Text}
    {failure : Failure} (own : failure.IsOwn) :
    scriptFailureEntry definition token failure ≠
      scriptFailureEntry other token (.rejected component reason) := by
  intro same
  have values := congrArg (fun entry => entry.fields.map Prod.snd) same
  have texts : failure.kind ++ ':' :: ' ' :: failure.message =
      (Failure.rejected component reason).kind ++
        ':' :: ' ' :: (Failure.rejected component reason).message := by
    simp only [scriptFailureEntry, List.map_cons, List.map_nil, List.cons.injEq,
      Data.text.injEq] at values
    exact values.2.2.2.1
  obtain ⟨char, first, apart⟩ := head?_kind_of_isOwn own
  have rejected : (Failure.rejected component reason).kind.head? = some 'C' := rfl
  have heads := congrArg List.head? texts
  rw [List.head?_append, List.head?_append, first, rejected] at heads
  exact apart (Option.some.inj heads)

end DocComponents.Script
