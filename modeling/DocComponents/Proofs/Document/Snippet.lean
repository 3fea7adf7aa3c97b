import DocComponents.Document.Expander
import DocComponents.Proofs.Document.Fences
import DocComponents.Proofs.Invocation.Block
import DocComponents.Proofs.Invocation.Written

/-!
# Snippets

The snippet of a component is a fenced block with one invocation, which passes the defaults of the
component. The line of the invocation begins with the name of the component, so it closes no fence
whatever the defaults hold, and the snippet is one chunk. Passing the defaults overrides nothing.
-/

set_option autoImplicit false

namespace DocComponents

def blockFence : Fence where
  mark := '`'
  length := 3
  info := "component".toList

theorem Fence.open?_blockFence : Fence.open? "```component\n".toList = some blockFence := by
  decide

/-! ## Blocks -/

theorem Fence.closes_congr {fence : Fence} {line other : Text}
    (same : Text.trim line = Text.trim other) :
    fence.closes line = fence.closes other := by
  rw [closes, closes, same]

/-- A block that none of its lines closes is cut into one chunk. -/
theorem Chunk.split_writeBlock {body : Text}
    (inside : ∀ line ∈ Text.lines body, blockFence.closes line = false) :
    split (Invocation.writeBlock [body]) =
      [.invocations "```component\n".toList (body ++ ['\n']) "```".toList] := by
  have opening : Text.IsOneLine "```component".toList := by decide
  have closing : Text.fullLines "```".toList = ["```".toList] :=
    Text.fullLines_of_isOneLine (by decide) (by decide)
  have first : "```component\n".toList = "```component".toList ++ ['\n'] := by decide
  have lines : Text.fullLines (Invocation.writeBlock [body]) =
      "```component\n".toList :: (Text.fullLines (body ++ ['\n']) ++ "```".toList :: []) := by
    rw [Invocation.writeBlock_eq, Text.join, Text.fullLines_append_lineFeed opening,
      Text.fullLines_append_cons body, closing, first]
  have goesOn : ∀ line ∈ Text.fullLines (body ++ ['\n']), blockFence.closes line = false := by
    intro line member
    have bodies : Text.lineBody line ∈ Text.lines (body ++ ['\n']) := List.mem_map_of_mem member
    rw [← Fence.closes_congr (Text.trim_lineBody member)]
    rcases Text.lines_concat_lineFeed body with same | another
    · exact inside _ (same ▸ bodies)
    · rw [another, List.mem_append, List.mem_singleton] at bodies
      rcases bodies with earlier | empty
      · exact inside _ earlier
      · rw [empty]
        rfl
  have cuts := Cuts.closed Fence.open?_blockFence goesOn
    (show blockFence.closes "```".toList = true by decide) .done
  rw [← lines, Text.flatten_fullLines] at cuts
  have invocations : blockFence.holdsInvocations = true := by decide
  rw [← cuts_iff_eq_split.mp cuts, Fence.chunk, if_pos invocations]

/-- A document of one block is the block, on lines of its own. -/
theorem Expander.expandDocument_of_block {markdown opening body closing : Text}
    (single : Chunk.split markdown = [.invocations opening body closing]) (expander : Expander)
    (trace : Trace) :
    ((expander.expandDocument markdown).run trace).1 =
      ((expander.blockElement (Invocation.readBlock body) expander.options).run trace).1.html ++
        ['\n'] := by
  unfold expandDocument
  rw [single]
  exact List.append_nil _

/-! ## Written invocations -/

namespace Invocation

variable {name : Text}

theorem head?_write (identifier : isIdentifier name = true) (props : Props) :
    ∃ char, (write name props).head? = some char ∧ isNameChar char = true := by
  obtain ⟨behind, shape⟩ := exists_write_eq_append name props
  cases name with
  | nil => simp [isIdentifier, isName] at identifier
  | cons char rest =>
      refine ⟨char, by simp [shape], ?_⟩
      exact isNameChar_of_mem_identifier identifier List.mem_cons_self

theorem closes_write (identifier : isIdentifier name = true) (props : Props) :
    blockFence.closes (write name props) = false := by
  have trimmed : Text.trim (write name props) = write name props :=
    (isTrimmed_write identifier props).trim_eq
  obtain ⟨char, first, named⟩ := head?_write identifier props
  have apart : char ≠ '`' := by
    rintro rfl
    revert named
    decide
  obtain ⟨rest, shape⟩ := List.head?_eq_some_iff.mp first
  simp only [Fence.closes, trimmed]
  rw [shape]
  simp [blockFence, apart]

theorem split_writeBlock (identifier : isIdentifier name = true) {props : Props}
    (declarable : props.AreDeclarable) :
    Chunk.split (writeBlock [write name props]) =
      [.invocations "```component\n".toList (write name props ++ ['\n']) "```".toList] := by
  have notEmpty : write name props ≠ [] := by
    obtain ⟨char, first, -⟩ := head?_write identifier props
    rintro empty
    simp [empty] at first
  have oneLine := Text.fullLines_of_isOneLine (isOneLine_write identifier declarable) notEmpty
  apply Chunk.split_writeBlock
  intro line member
  obtain ⟨full, known, rfl⟩ := List.mem_map.mp member
  have same : full = write name props := by simpa [oneLine] using known
  rw [Fence.closes_congr (Text.trim_lineBody known), same]
  exact closes_write identifier props

end Invocation

theorem render_defaults (runtime : ScriptRuntime) (token : Text) (options : RenderOptions)
    (definition : Definition) (container : Element Node) :
    render runtime token options definition definition.props container =
      render runtime token options definition .empty container := by
  simp only [render, Props.overlay_self, Props.overlay_empty]

/-- A document of one invocation shows this component and nothing else. -/
theorem html_expandDocument_of_single {expander : Expander} {markdown opening body closing : Text}
    {invocation : Invocation} {definition : Definition}
    (single : Chunk.split markdown = [.invocations opening body closing])
    (reads : Invocation.readBlock body = [invocation])
    (registered : expander.catalog.get? invocation.name = some definition) (trace : Trace) :
    ((expander.expandDocument markdown).run trace).1 =
      let token := scopeToken definition.name (expander.tokens trace.scopes)
      let rendering :=
        render expander.runtime token expander.options definition invocation.props {}
      ({ children := [rendering.container.toNode] } : Element Node).html ++ ['\n'] := by
  have rendered : ((expander.renderInvocation invocation expander.options {}).run trace).1 =
      (render expander.runtime (scopeToken definition.name (expander.tokens trace.scopes))
        expander.options definition invocation.props {}).container := by
    unfold Expander.renderInvocation
    rw [registered]
    rfl
  have element : ((expander.blockElement [invocation] expander.options).run trace).1 =
      { children :=
          [((expander.renderInvocation invocation expander.options {}).run trace).1.toNode] } :=
    rfl
  rw [expander.expandDocument_of_block single, reads, element, rendered]

/-- The snippet of a component that was read is one block with one invocation, which passes the
defaults in order. It shows what the bare name shows. -/
theorem snippet_invokes_with_defaults {content path : Text} {definition : Definition}
    (read : Definition.read? content path = some definition)
    (identifier : isIdentifier definition.name = true)
    (quotable : ∀ pair ∈ definition.props.pairs, isQuotable pair.2 = true) :
    let call := Invocation.write definition.name definition.props
    let snippet := Invocation.writeBlock [call]
    let bare := Invocation.writeBlock [definition.name]
    Chunk.split snippet =
        [.invocations "```component\n".toList (call ++ ['\n']) "```".toList] ∧
      Invocation.readBlock (call ++ ['\n']) =
        [{ name := definition.name, props := definition.props }] ∧
      ∀ (expander : Expander) (first second : Trace),
        expander.catalog.get? definition.name = some definition →
        expander.tokens first.scopes = expander.tokens second.scopes →
        ((expander.expandDocument snippet).run first).1 =
          ((expander.expandDocument bare).run second).1 := by
  intro call snippet bare
  have writable : definition.props.AreWritable :=
    { toAreDeclarable := Definition.areDeclarable_of_read? read, quotable }
  have split := Invocation.split_writeBlock identifier writable.toAreDeclarable
  have reads := Invocation.readBlock_write identifier writable
  refine ⟨split, reads, fun expander first second registered sameToken => ?_⟩
  have none := Props.areWritable_empty
  have name : Invocation.write definition.name .empty = definition.name :=
    Invocation.write_of_eq_nil rfl
  have bareSplit := Invocation.split_writeBlock identifier none.toAreDeclarable
  have bareReads := Invocation.readBlock_write identifier none
  rw [name] at bareSplit bareReads
  rw [html_expandDocument_of_single split reads registered first,
    html_expandDocument_of_single bareSplit bareReads registered second, sameToken]
  simp only [render_defaults]

/-- A component with defaults that hold the characters by which blocks, calls and values end. -/
def fencedDocument : Text :=
  "---\nname: note\nprops:\n  text: ```) say \"hi\", a=(b\n  more: it's ~~~ ::\n---\n<p></p>".toList

def fencedNote : Definition where
  name := "note".toList
  template := "<p></p>".toList
  props := .ofPairs
    [("text".toList, "```) say \"hi\", a=(b".toList), ("more".toList, "it's ~~~ ::".toList)]
  sourcePath := "note.md".toList

def fencedNoteExpander : Expander where
  catalog := (({} : Catalog).register fencedNote).catalog
  runtime := .inProcess

theorem snippet_invokes_fenced_note :
    let snippet := Invocation.writeBlock [Invocation.write fencedNote.name fencedNote.props]
    let bare := Invocation.writeBlock [fencedNote.name]
    Definition.read? fencedDocument "note.md".toList = some fencedNote ∧
      fencedNoteExpander.catalog.get? fencedNote.name = some fencedNote ∧
      ((fencedNoteExpander.expandDocument snippet).run {}).1 =
        ((fencedNoteExpander.expandDocument bare).run {}).1 := by
  intro snippet bare
  have read : Definition.read? fencedDocument "note.md".toList = some fencedNote := by
    decide +kernel
  have registered : fencedNoteExpander.catalog.get? fencedNote.name = some fencedNote := by
    decide +kernel
  have facts := snippet_invokes_with_defaults read (by decide +kernel) (by decide +kernel)
  exact ⟨read, registered, facts.2.2 fencedNoteExpander {} {} registered rfl⟩

end DocComponents
