import DocComponents.Proofs.Data.JsonReader
import DocComponents.Proofs.Script.Hook

/-!
# What a hook passes on

A hook calls the script with the props, which are written as JSON and escaped on their way into the
script element. Escaping changes the spelling of strings only: a less-than sign stands nowhere else
in JSON, and behind it a slash means the same with a backslash and without one.
-/

set_option autoImplicit false

namespace DocComponents

namespace ScriptRuntime

/-- Escaping a text for a script element keeps what it is read as. -/
theorem read?_escapeScript (text : Text) : Json.read? (escapeScript text) = Json.read? text := by
  rw [Json.read?, Json.read?, escapeScript, Json.run_replace]

theorem isReadBack_props (charset : Json.Charset) (props : Props) :
    Json.IsReadBack charset (.table (props.pairs.map fun pair => (pair.1, .text pair.2))) := by
  refine Json.isReadBack_table fun entry member => ?_
  obtain ⟨pair, -, rfl⟩ := List.mem_map.mp member
  exact Json.isReadBack_text charset pair.2

/-- A hook depends on the props in its payload alone, and the payload is read as the props, in
their order. -/
theorem payload_read_as_props (call : ScriptCall) :
    ∃ lead, ∀ props : Props,
      (embedding.run { call with props }).hooks =
          [.markup (lead ++ (escapeScript (payload props) ++ behindProps))] ∧
        Json.read? (escapeScript (payload props)) =
          some (.table (props.pairs.map fun pair => (pair.1, .text pair.2))) := by
  refine ⟨beforeScript ++ (escapeScript call.script ++ (beforeSelector ++
    (Json.writeText .ascii (beforeScope ++ (call.scope ++ behindScope)) ++ beforeProps))),
    fun props => ⟨?_, ?_⟩⟩
  · have written := hook_eq call.script call.scope props
    simp only [List.append_nil] at written
    simp only [embedding, written, List.append_assoc]
  · rw [read?_escapeScript, payload, (isReadBack_props .unicode props).read?]

example :
    let props := Props.ofPairs [("</".toList, "\\</\\/<\"".toList), ("é\n".toList, [])]
    escapeScript (payload props) =
        "\x7b\"<\\/\": \"\\\\<\\/\\\\/<\\\"\", \"é\\n\": \"\"\x7d".toList ∧
      Json.read? (escapeScript (payload props)) =
        some (.table [("</".toList, .text "\\</\\/<\"".toList), ("é\n".toList, .text [])]) :=
  ⟨by decide +kernel, by rfl⟩

end ScriptRuntime

end DocComponents
