import DocComponents.Proofs.Document.Blind
import DocComponents.Proofs.Document.OpenRuns
import DocComponents.Proofs.Document.Parts
import DocComponents.Proofs.Document.Snippet
import DocComponents.Proofs.Invocation.Block

/-!
# Documents of one part

A text without backticks and without three tildes in a row has neither fences nor code spans, so as
a document it is running text. A body none of whose lines closes the fence around it is a document
of one block. An expander answers such a document as it answers the text or the body itself.
-/

set_option autoImplicit false

namespace DocComponents

variable {text line body : Text}

/-! ## Running text -/

namespace Fence

theorem infix_of_open? {fence : Fence} (opened : open? line = some fence) :
    (fence.mark = '`' ∨ fence.mark = '~') ∧ List.replicate 3 fence.mark <:+: line := by
  have shown : withoutLineFeed line <+: line := List.rdropWhile_prefix _ line
  unfold open? at opened
  dsimp only at opened
  generalize ((withoutLineFeed line).takeWhile (· == ' ')).length = indent at opened
  split at opened
  · cases opened
  · next mark rest cut =>
      have inLine : (withoutLineFeed line).drop indent <:+: line :=
        (List.drop_suffix _ _).isInfix.trans shown.isInfix
      generalize (withoutLineFeed line).drop indent = behind at opened inLine
      have run : behind.takeWhile (· == mark) =
          List.replicate (behind.takeWhile (· == mark)).length mark :=
        List.eq_replicate_iff.mpr ⟨rfl, fun char inside => by
          simpa using List.mem_takeWhile_imp inside⟩
      split at opened
      · cases opened
      · next enough =>
          have long : 3 ≤ (behind.takeWhile (· == mark)).length := by simp at enough; omega
          have three : List.replicate 3 mark <+: behind.takeWhile (· == mark) := by
            rw [run, List.prefix_replicate_iff]
            simpa using long
          have inside := (three.trans (List.takeWhile_prefix _)).isInfix.trans inLine
          split at opened
          · next isTick =>
              split at opened
              · cases opened
              · cases opened
                exact ⟨.inl isTick, inside⟩
          · split at opened
            · next isTilde =>
                cases opened
                exact ⟨.inr isTilde, inside⟩
            · cases opened

/-- Neither backticks nor three tildes, no fence. -/
theorem open?_eq_none (noTick : '`' ∉ line) (noTildes : ¬ "~~~".toList <:+: line) :
    open? line = none := by
  cases opened : open? line with
  | none => rfl
  | some fence =>
      obtain ⟨isTick | isTilde, run⟩ := infix_of_open? opened
      · rw [isTick] at run
        exact absurd (run.subset (by simp)) noTick
      · rw [isTilde] at run
        exact absurd run noTildes

end Fence

theorem Chunk.split_of_plain (plain : ∀ line ∈ Text.fullLines text, Fence.open? line = none)
    (notEmpty : text ≠ []) : split text = [.prose text] := by
  have cuts := Cuts.prose (Text.fullLines_ne_nil notEmpty) plain (by simp) .done
  rw [List.append_nil, Text.flatten_fullLines] at cuts
  exact (cuts_iff_eq_split.mp cuts).symm

namespace CodeSpan

theorem scanFrom_of_not_mem (noTick : '`' ∉ text) (previous : Option Char) :
    Text.scanFrom recognise 0 previous text = text.map .plain := by
  induction text generalizing previous with
  | nil => rfl
  | cons char rest ih =>
      rw [List.mem_cons, not_or] at noTick
      have noRun : runLength (char :: rest) = 0 := by simp [runLength, Ne.symm noTick.1]
      have rejected : ∀ value size, recognise previous (char :: rest) ≠ some (value, size + 1) := by
        simp [recognise, noRun]
      rw [Text.scanFrom_cons_of_rejected rejected, ih noTick.2, List.map_cons]

theorem stretches_of_not_mem (noTick : '`' ∉ text) (notEmpty : text ≠ []) :
    stretches text = [.prose text] := by
  have gathered := gather_map_plain_append notEmpty []
  rw [List.append_nil] at gathered
  rw [stretches, pieces, scanFrom_of_not_mem noTick, gathered]
  rfl

end CodeSpan

/-! ## Blocks -/

namespace Fence

theorem closes_blockFence_eq_false_iff :
    blockFence.closes line = false ↔
      ∀ count, 3 ≤ count → Text.trim line ≠ CodeSpan.ticks count := by
  have closes_iff : blockFence.closes line = true ↔
      3 ≤ (Text.trim line).length ∧ ∀ char ∈ Text.trim line, char = '`' := by
    change (decide (3 ≤ (Text.trim line).length) && (Text.trim line).all (· == '`')) = true ↔ _
    simp only [Bool.and_eq_true, decide_eq_true_eq, List.all_eq_true, beq_iff_eq]
  rw [Bool.eq_false_iff, Ne, closes_iff]
  constructor
  · rintro notClosed count long run
    rw [run, CodeSpan.length_ticks] at notClosed
    exact notClosed ⟨long, fun char => CodeSpan.eq_tick_of_mem_ticks⟩
  · rintro noRun ⟨long, ticks⟩
    exact noRun _ long (List.eq_replicate_iff.mpr ⟨rfl, ticks⟩)

end Fence

/-! ## Answers -/

namespace Expander

theorem answer_document_of_running (noTick : '`' ∉ text) (noTildes : ¬ "~~~".toList <:+: text)
    (expander : Expander) (trace : Trace) :
    ((expander.answer (.document text)).run trace).1 =
      ((expander.answer (.inline text)).run trace).1 := by
  by_cases empty : text = []
  · subst empty
    rfl
  · have plain : ∀ line ∈ Text.fullLines text, Fence.open? line = none := by
      intro line member
      have inside : line <:+: text := by
        simpa [Text.flatten_fullLines] using List.infix_of_mem_flatten member
      exact Fence.open?_eq_none (fun tick => noTick (inside.subset tick)) fun tildes =>
        noTildes (tildes.trans inside)
    have oneChunk := Chunk.split_of_plain plain empty
    have oneStretch := CodeSpan.stretches_of_not_mem noTick empty
    have prose : ((expander.expandProse text).run trace).1 =
        ((expander.expandInline text).run trace).1 := by
      unfold expandProse
      rw [oneStretch]
      exact List.append_nil _
    have document : ((expander.expandDocument text).run trace).1 =
        ((expander.expandProse text).run trace).1 := by
      unfold expandDocument
      rw [oneChunk]
      exact List.append_nil _
    have answered : ((expander.answer (.document text)).run trace).1 =
        .ok (.text ((expander.expandDocument text).run trace).1) := rfl
    rw [answered, document, prose]
    rfl

theorem expandBlock_without_mode (expander : Expander) (body : Text) :
    expander.expandBlock body =
      .ok (expander.blockElement (Invocation.readBlock body) expander.options) := by
  unfold expandBlock
  cases Invocation.readBlock body with
  | nil => rfl
  | cons first others => rfl

theorem answer_document_of_block
    (inside : ∀ line ∈ Text.lines body, blockFence.closes line = false) (expander : Expander)
    (trace : Trace) :
    ((expander.answer (.document (Invocation.writeBlock [body]))).run trace).1 =
      ((expander.answer (.block body none)).run trace).1.map fun shown =>
        .text (shown.written ++ ['\n']) := by
  have chunk := expander.expandDocument_of_block (Chunk.split_writeBlock inside) trace
  rw [Invocation.readBlock_concat_lineFeed] at chunk
  have block : ((expander.answer (.block body none)).run trace).1 =
      .ok (.element ((expander.blockElement (Invocation.readBlock body) expander.options).run
        trace).1) := by
    unfold answer
    dsimp only
    rw [expandBlock_without_mode]
    rfl
  have document : ((expander.answer (.document (Invocation.writeBlock [body]))).run trace).1 =
      .ok (.text ((expander.expandDocument (Invocation.writeBlock [body])).run trace).1) := rfl
  rw [document, block, chunk]
  rfl

/-- Requests that look at the files are served alike if they are answered alike. -/
theorem serve_of_answers (expander : Expander) (disk : Disk) {request other : Request}
    {change : Shown → Shown} {first second : Trace}
    (follows : request.followsFiles = true) (followsToo : other.followsFiles = true)
    (answers : ∀ (synced : Expander) (trace : Trace),
      ((synced.answer request).run trace).1 = ((synced.answer other).run trace).1.map change)
    (same : first.scopes = second.scopes) :
    ((expander.serve disk request).run first).1 =
      Prod.map id (Except.map change) ((expander.serve disk other).run second).1 := by
  rw [← ((expander.isBlind_serve disk other) first second same).1]
  unfold serve
  rw [follows, followsToo, if_pos rfl, if_pos rfl, StateT.run_bind, StateT.run_bind]
  rcases (expander.sync disk).run.run first with ⟨synced, noted⟩
  cases synced with
  | error fault => rfl
  | ok synced => exact congrArg (Prod.mk synced) (answers synced noted)

end Expander

/-- A text that has no fences and no code spans is answered as a document like it is answered as
running text, and a body in a fence that it does not close like the body as a block. -/
theorem document_answered_like_its_part (expander : Expander) (disk : Disk) {first second : Trace}
    (same : first.scopes = second.scopes) :
    (∀ text, '`' ∉ text → ¬ "~~~".toList <:+: text →
      ((expander.serve disk (.document text)).run first).1 =
        ((expander.serve disk (.inline text)).run second).1) ∧
    ∀ body,
      (∀ line ∈ Text.lines body, ∀ count, 3 ≤ count → Text.trim line ≠ CodeSpan.ticks count) →
      ((expander.serve disk
          (.document ("```component\n".toList ++ body ++ "\n```".toList))).run first).1 =
        Prod.map id (Except.map fun shown => .text (shown.written ++ ['\n']))
          ((expander.serve disk (.block body none)).run second).1 := by
  refine ⟨fun text noTick noTildes => ?_, fun body noFence => ?_⟩
  · have answers (synced : Expander) (trace : Trace) :
        ((synced.answer (.document text)).run trace).1 =
          ((synced.answer (.inline text)).run trace).1.map id := by
      rw [Except.map_id, id]
      exact Expander.answer_document_of_running noTick noTildes synced trace
    have served := expander.serve_of_answers disk rfl rfl answers same
    rwa [Except.map_id, Prod.map_id, id] at served
  · have inside : ∀ line ∈ Text.lines body, blockFence.closes line = false := fun line member =>
      Fence.closes_blockFence_eq_false_iff.mpr (noFence line member)
    exact expander.serve_of_answers disk rfl rfl (Expander.answer_document_of_block inside) same

/-- Lines that end in a vertical tab, in a line separator and in a lone carriage return, two
backticks, two tildes and a component that is not known. -/
theorem document_answered_like_its_part_parted :
    let text := "~~ ::card::\x0b::ghost:: ~~\u2028".toList
    let body := "ghost\x0b ``\u2028card\r".toList
    let before : Trace := { log := [⟨.info, "components-loaded".toList, []⟩] }
    ((cardExpander.serve {} (.document text)).run {}).1 =
        ((cardExpander.serve {} (.inline text)).run before).1 ∧
      ((cardExpander.serve {}
          (.document ("```component\n".toList ++ body ++ "\n```".toList))).run {}).1 =
        Prod.map id (Except.map fun shown => .text (shown.written ++ ['\n']))
          ((cardExpander.serve {} (.block body none)).run before).1 ∧
      (Invocation.readBlock body).map Invocation.name = ["ghost".toList, "card".toList] := by
  intro text body before
  have noFence : ∀ line ∈ Text.lines body, blockFence.closes line = false := by decide +kernel
  have facts := document_answered_like_its_part cardExpander {} (show ({} : Trace).scopes =
    before.scopes from rfl)
  exact ⟨facts.1 text (by decide +kernel) (by decide +kernel),
    facts.2 body fun line member => Fence.closes_blockFence_eq_false_iff.mp (noFence line member),
    by decide +kernel⟩

end DocComponents
