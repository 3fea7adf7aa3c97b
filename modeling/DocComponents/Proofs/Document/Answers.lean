import DocComponents.Document.Service
import DocComponents.Proofs.Invocation.Named

/-!
# Relations between answers

Two expanders with the same settings that know the same names answer a text in the same steps. A
relation between actions that holds of the steps, and that is kept by doing one after the other,
holds of the answers. What a text invokes are identifiers only, so nothing is asked of other names.
-/

set_option autoImplicit false

namespace DocComponents.Expander

/-- The element of a block is made under the options that are chosen for it, if any are. -/
theorem expandBlock_eq (expander : Expander) (source : Text) (mode? : Option Text) :
    expander.expandBlock source mode? =
      (if (Invocation.readBlock source).isEmpty then .ok expander.options
        else expander.settings.options mode?).map
          (expander.blockElement (Invocation.readBlock source)) := by
  unfold expandBlock
  cases Invocation.readBlock source with
  | nil => rfl
  | cons first others =>
      cases expander.settings.options mode? with
      | ok options => rfl
      | error fault => rfl

/-- A relation that the steps of two expanders have, one by one and one after the other. -/
structure StepsRelated (expander other : Expander)
    (Related : {Result : Type} → StateM Trace Result → StateM Trace Result → Prop) : Prop where
  settings : other.settings = expander.settings
  contains : ∀ name, isIdentifier name = true →
    other.catalog.definitions.contains name = expander.catalog.definitions.contains name
  pure : ∀ {Result : Type} (value : Result), Related (pure value) (pure value)
  bind : ∀ {First Second : Type} {action otherAction : StateM Trace First}
    {next otherNext : First → StateM Trace Second}, Related action otherAction →
      (∀ value, Related (next value) (otherNext value)) →
        Related (action >>= next) (otherAction >>= otherNext)
  told : ∀ fields, Related (tell .debug "document-rendered".toList fields)
    (tell .debug "document-rendered".toList fields)
  rendered : ∀ invocation, isIdentifier invocation.name = true → ∀ options container,
    Related (expander.renderInvocation invocation options container)
      (other.renderInvocation invocation options container)

namespace StepsRelated

variable {expander other : Expander}
  {Related : {Result : Type} → StateM Trace Result → StateM Trace Result → Prop}
  (steps : StepsRelated expander other Related)

include steps

theorem mapM {Item Result : Type} {action otherAction : Item → StateM Trace Result}
    {items : List Item} (each : ∀ item ∈ items, Related (action item) (otherAction item)) :
    Related (items.mapM action) (items.mapM otherAction) := by
  induction items with
  | nil => exact steps.pure []
  | cons item rest ih =>
      rw [List.mapM_cons, List.mapM_cons]
      refine steps.bind (each item List.mem_cons_self) fun first => ?_
      have later := ih fun next member => each next (List.mem_cons_of_mem _ member)
      exact steps.bind later fun others => steps.pure (first :: others)

theorem options_eq : other.options = expander.options := by
  rw [options, options, steps.settings]

theorem blockElement (source : Text) (options : RenderOptions) :
    Related (expander.blockElement (Invocation.readBlock source) options)
      (other.blockElement (Invocation.readBlock source) options) := by
  unfold Expander.blockElement
  by_cases empty : (Invocation.readBlock source).isEmpty = true
  · rw [if_pos empty, if_pos empty]
    exact steps.pure _
  · rw [if_neg empty, if_neg empty]
    refine steps.bind (steps.mapM fun invocation member => ?_) fun _ => steps.pure _
    have identifier := Invocation.isIdentifier_of_mem_readBlock source invocation member
    exact steps.bind (steps.rendered _ identifier _ _) fun _ => steps.pure _

theorem expandMarker (source call : Text) :
    Related (expander.expandMarker source call) (other.expandMarker source call) := by
  unfold Expander.expandMarker
  cases read : Invocation.read? call with
  | none => exact steps.pure _
  | some invocation =>
      have identifier := Invocation.isIdentifier_of_read? read
      dsimp only
      rw [steps.contains _ identifier, steps.options_eq]
      split
      · exact steps.bind (steps.rendered _ identifier _ _) fun _ => steps.pure _
      · exact steps.pure _

theorem expandInline (text : Text) :
    Related (expander.expandInline text) (other.expandInline text) := by
  refine steps.bind (steps.mapM fun piece _ => ?_) fun _ => steps.pure _
  cases piece with
  | plain char => exact steps.pure _
  | hit source call => exact steps.expandMarker source call

theorem expandProse (text : Text) :
    Related (expander.expandProse text) (other.expandProse text) := by
  refine steps.bind (steps.mapM fun stretch _ => ?_) fun _ => steps.pure _
  cases stretch with
  | prose source => exact steps.expandInline source
  | code source => exact steps.pure _

theorem expandDocument (markdown : Text) :
    Related (expander.expandDocument markdown) (other.expandDocument markdown) := by
  refine steps.bind (steps.mapM fun chunk _ => ?_) fun _ =>
    steps.bind (steps.told _) fun _ => steps.pure _
  cases chunk with
  | prose source => exact steps.expandProse source
  | code source => exact steps.pure _
  | invocations opening body closing =>
      unfold Expander.expandChunk
      dsimp only
      rw [steps.options_eq]
      exact steps.bind (steps.blockElement body _) fun _ => steps.pure _

theorem block (source : Text) (mode? : Option Text) :
    Related (expander.answer (.block source mode?)) (other.answer (.block source mode?)) := by
  unfold Expander.answer
  dsimp only
  rw [expandBlock_eq, expandBlock_eq, steps.settings, steps.options_eq]
  generalize (if (Invocation.readBlock source).isEmpty = true then _ else _) = chosen
  cases chosen with
  | error fault => exact steps.pure _
  | ok options => exact steps.bind (steps.blockElement source options) fun _ => steps.pure _

/-- What is related in every step is related in the answers to texts. -/
theorem answer {request : Request} (follows : request.followsFiles = true) :
    Related (expander.answer request) (other.answer request) := by
  cases request with
  | invocation invocation options? container => cases follows
  | block source mode? => exact steps.block source mode?
  | inline text => exact steps.bind (steps.expandInline text) fun _ => steps.pure _
  | document markdown =>
      exact steps.bind (steps.expandDocument markdown) fun _ => steps.pure _

end StepsRelated

end DocComponents.Expander
