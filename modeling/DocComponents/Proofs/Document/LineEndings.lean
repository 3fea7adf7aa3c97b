import DocComponents.Proofs.Document.OpenRuns
import DocComponents.Proofs.Document.Parts
import DocComponents.Proofs.Invocation.Written
import DocComponents.Proofs.Text.Trim

/-!
# Documents with other line endings

A document is cut at the same fences and at the same markers when a carriage return stands before
every line feed. Code spans may grow: a blank line is two line feeds with nothing but spaces and
tabs between them, so no blank line of the document is one any more, and a run of backticks may be
closed by a run that stands behind it.
-/

set_option autoImplicit false

namespace DocComponents

open Text

/-- What does not look at the line ending reads a line and its twin alike. -/
private theorem read_crlf_of_mem_fullLines {Result : Type} {read : Text → Result}
    (ends : ∀ body after : Text, (∀ char ∈ after, char = '\r' ∨ char = '\n') →
      read (body ++ after) = read body)
    {text line : Text} (member : line ∈ fullLines text) : read (crlf line) = read line := by
  obtain ⟨body, noLineFeed, rfl | rfl⟩ := exists_body_of_mem_fullLines member
  · rw [crlf_of_not_mem noLineFeed]
  · have lineFeed : read (body ++ ['\n']) = read body := ends body ['\n'] (by simp)
    have both : read (body ++ ['\r', '\n']) = read body := ends body ['\r', '\n'] (by simp)
    rw [crlf_append, crlf_of_not_mem noLineFeed, crlf_cons_lineFeed, crlf_nil, both, lineFeed]

namespace Fence

variable {text line : Text}

theorem open?_crlf (member : line ∈ fullLines text) : open? (crlf line) = open? line := by
  have same : withoutLineFeed (crlf line) = withoutLineFeed line := by
    refine read_crlf_of_mem_fullLines (fun body after inside => ?_) member
    exact trimEnd_append_of_forall (fun char among => by simpa using inside char among) body
  rw [open?, open?, same]

theorem closes_crlf (member : line ∈ fullLines text) (fence : Fence) :
    fence.closes (crlf line) = fence.closes line := by
  have same : trim (crlf line) = trim line := by
    refine read_crlf_of_mem_fullLines (fun body after inside => ?_) member
    refine trim_append_blanks body fun char among => ?_
    rcases inside char among with rfl | rfl <;> decide
  rw [closes, closes, same]

end Fence

namespace Chunk

def crlf : Chunk → Chunk
  | .prose source => .prose (Text.crlf source)
  | .code source => .code (Text.crlf source)
  | .invocations opening body closing =>
    .invocations (Text.crlf opening) (Text.crlf body) (Text.crlf closing)

theorem crlf_chunk (fence : Fence) (opening body closing : Text) :
    (fence.chunk opening body closing).crlf =
      fence.chunk (Text.crlf opening) (Text.crlf body) (Text.crlf closing) := by
  unfold Fence.chunk
  split
  · rfl
  · rw [crlf, crlf_append, crlf_append]

private theorem inside_crlf {text : Text} {fence : Fence} {body : List Text}
    (inside : ∀ line ∈ body, fence.closes line = false)
    (among : ∀ line ∈ body, line ∈ fullLines text) :
    ∀ line ∈ body.map Text.crlf, fence.closes line = false := by
  intro twin member
  obtain ⟨line, within, rfl⟩ := List.mem_map.mp member
  exact (Fence.closes_crlf (among line within) fence).trans (inside line within)

/-- Lines are cut where their twins are. -/
theorem Cuts.crlf {text : Text} {lines : List Text} {chunks : List Chunk}
    (cuts : Cuts lines chunks) (among : ∀ line ∈ lines, line ∈ fullLines text) :
    Cuts (lines.map Text.crlf) (chunks.map Chunk.crlf) := by
  induction cuts with
  | done => exact .done
  | @prose lines rest chunks notEmpty plain ends later ih =>
      have noFence : ∀ line ∈ lines.map Text.crlf, Fence.open? line = none := by
        intro twin member
        obtain ⟨line, inside, rfl⟩ := List.mem_map.mp member
        rw [Fence.open?_crlf (among line (List.mem_append_left _ inside))]
        exact plain line inside
      have opened : ∀ twin, (rest.map Text.crlf).head? = some twin →
          ∃ fence, Fence.open? twin = some fence := by
        intro twin first
        rw [List.head?_map] at first
        obtain ⟨line, found, rfl⟩ := Option.map_eq_some_iff.mp first
        obtain ⟨fence, opens⟩ := ends line found
        have inside := among line (List.mem_append_right _ (List.mem_of_head? found))
        exact ⟨fence, (Fence.open?_crlf inside).trans opens⟩
      rw [List.map_append, List.map_cons, Chunk.crlf, crlf_flatten]
      exact .prose (by simpa using notEmpty) noFence opened
        (ih fun line member => among line (List.mem_append_right _ member))
  | @closed fence opening closing body rest chunks opens inside closes later ih =>
      have bodyAmong : ∀ line ∈ body, line ∈ fullLines text := fun line member =>
        among line (List.mem_cons_of_mem _ (List.mem_append_left _ member))
      have restAmong : ∀ line ∈ closing :: rest, line ∈ fullLines text := fun line member =>
        among line (List.mem_cons_of_mem _ (List.mem_append_right _ member))
      have opensToo := (Fence.open?_crlf (among opening List.mem_cons_self)).trans opens
      have closingAmong := restAmong closing List.mem_cons_self
      have closesToo := (Fence.closes_crlf closingAmong fence).trans closes
      rw [List.map_cons, List.map_append, List.map_cons, List.map_cons, crlf_chunk, crlf_flatten]
      exact .closed opensToo (inside_crlf inside bodyAmong) closesToo
        (ih fun line member => restAmong line (List.mem_cons_of_mem _ member))
  | @unclosed fence opening body opens inside =>
      have bodyAmong : ∀ line ∈ body, line ∈ fullLines text := fun line member =>
        among line (List.mem_cons_of_mem _ member)
      have opensToo := (Fence.open?_crlf (among opening List.mem_cons_self)).trans opens
      rw [List.map_cons, List.map_singleton, crlf_chunk, crlf_flatten]
      exact .unclosed opensToo (inside_crlf inside bodyAmong)

theorem split_crlf {text : Text} (noReturn : '\r' ∉ text) :
    split (Text.crlf text) = (split text).map Chunk.crlf := by
  have cuts : Cuts (fullLines text) (split text) := cuts_iff_eq_split.mpr rfl
  have twin := cuts.crlf fun _ member => member
  rw [← fullLines_crlf noReturn] at twin
  exact (cuts_iff_eq_split.mp twin).symm

end Chunk

theorem crlf_identifier {name : Text} (identifier : isIdentifier name = true) :
    Text.crlf name = name := by
  refine crlf_of_not_mem fun member => ?_
  have named := isNameChar_of_mem_identifier identifier member
  revert named
  decide

theorem crlf_call {name : Text} (identifier : isIdentifier name = true) (arguments : Text) :
    Text.crlf (name ++ '(' :: (arguments ++ [')'])) =
      name ++ '(' :: (Text.crlf arguments ++ [')']) := by
  rw [crlf_append, crlf_identifier identifier, crlf_cons_of_ne (by decide), crlf_append]
  rfl

theorem IsCall.crlf {call : Text} (isCall : IsCall call) : IsCall (Text.crlf call) := by
  cases isCall with
  | bare identifier =>
      rw [crlf_identifier identifier]
      exact .bare identifier
  | @withArguments name arguments identifier noParenthesis =>
      rw [crlf_call identifier]
      refine .withArguments identifier fun member => ?_
      rcases eq_return_or_mem_of_mem_crlf member with same | inside
      · cases same
      · exact noParenthesis inside

theorem IsCall.universalNewlines {call : Text} (isCall : IsCall call) :
    IsCall (Text.universalNewlines call) := by
  have name_eq {name : Text} (identifier : isIdentifier name = true) :
      Text.universalNewlines name = name := by
    refine universalNewlines_of_not_mem fun member => ?_
    have named := isNameChar_of_mem_identifier identifier member
    revert named
    decide
  cases isCall with
  | bare identifier =>
      rw [name_eq identifier]
      exact .bare identifier
  | @withArguments name arguments identifier noParenthesis =>
      have twin : Text.universalNewlines (name ++ '(' :: (arguments ++ [')'])) =
          name ++ '(' :: (Text.universalNewlines arguments ++ [')']) := by
        rw [universalNewlines_append (by simp), name_eq identifier, Text.universalNewlines,
          universalNewlines_append (by simp)]
        · rfl
        · simp
      rw [twin]
      refine .withArguments identifier fun member => ?_
      rcases eq_lineFeed_or_mem_of_mem_universalNewlines member with same | inside
      · cases same
      · exact noParenthesis inside

/-- A call and its twin name one component. -/
theorem IsCall.map_name_read?_crlf {call : Text} (isCall : IsCall call) :
    (Invocation.read? (Text.crlf call)).map Invocation.name =
      (Invocation.read? call).map Invocation.name := by
  cases isCall with
  | bare identifier => rw [crlf_identifier identifier]
  | withArguments identifier _ =>
      rw [crlf_call identifier, Invocation.read?_call identifier, Invocation.read?_call identifier]
      rfl

/-- A marker of the twin is the twin of a marker. -/
theorem exists_isMarker_of_crlf {text call behind : Text} (noReturn : '\r' ∉ text)
    (isCall : IsCall call)
    (whole : crlf text = "::".toList ++ call ++ "::".toList ++ behind) :
    ∃ source call rest, text = source ++ rest ∧ IsMarker none source call rest := by
  -- Taking the carriage returns out again leads from the twin back to the text.
  refine ⟨_, Text.universalNewlines call, Text.universalNewlines behind, ?_, rfl,
    isCall.universalNewlines⟩
  have ends : ("::".toList ++ call ++ "::".toList).getLast? = some ':' := by
    rw [List.getLast?_append]
    rfl
  have noReturnLast : ("::".toList ++ call ++ "::".toList).getLast? ≠ some '\r' := by
    rw [ends]
    decide
  rw [← universalNewlines_crlf noReturn, whole,
    universalNewlines_append fun last => absurd last noReturnLast,
    universalNewlines_append (by simp), universalNewlines_append (by simp)]
  rfl

theorem scanFrom_recogniseMarker_crlf {previous : Option Char} {text : Text}
    {pieces : List (Piece Text)} (cuts : Text.Cuts IsMarker previous text pieces)
    (noReturn : '\r' ∉ text) :
    scanFrom (fun _ => recogniseMarker) 0 previous (crlf text) =
      pieces.flatMap (Piece.crlf crlf) := by
  induction cuts with
  | done => rfl
  | @plain previous char rest pieces noHit later ih =>
      have rejected (value : Text) (size : Nat) :
          recogniseMarker (crlf (char :: rest)) ≠ some (value, size + 1) := by
        intro recognised
        obtain ⟨behind, whole, -, isCall⟩ := isCall_of_recogniseMarker recognised
        obtain ⟨source, call, after, same, isMarker⟩ :=
          exists_isMarker_of_crlf noReturn isCall whole
        exact noHit source call after same isMarker
      have passes (previous : Option Char) (rest : Text) (value : Text) (size : Nat) :
          recogniseMarker ('\n' :: rest) ≠ some (value, size + 1) := by
        simp [recogniseMarker]
      rw [scanFrom_crlf_cons passes rejected, List.flatMap_cons, Piece.crlf,
        ih fun member => noReturn (List.mem_cons_of_mem _ member)]
  | @hit previous source rest call pieces isMarker later ih =>
      obtain ⟨rfl, isCall⟩ := isMarker
      have twin : crlf ("::".toList ++ call ++ "::".toList) =
          "::".toList ++ crlf call ++ "::".toList := by
        rw [crlf_append, crlf_append]
        rfl
      have accepted := isCall.crlf.recogniseMarker_eq (crlf rest)
      rw [← twin] at accepted
      rw [scanFrom_crlf_append (by simp) accepted, List.flatMap_cons, Piece.crlf,
        List.singleton_append, ih fun member => noReturn (List.mem_append_right _ member)]

namespace DocumentPart

/-- The parts that stand for a part when a carriage return stands in front of every line feed. -/
def crlf : DocumentPart → List DocumentPart
  | .plain char => (Text.crlf [char]).map .plain
  | .marker call => [.marker (Text.crlf call)]
  | .code source => [.code (Text.crlf source)]
  | .block opening body closing => [.block (Text.crlf opening) (Text.crlf body) (Text.crlf closing)]

theorem ofStretch_crlf {stretch : CodeSpan.Stretch} (noReturn : '\r' ∉ stretch.source) :
    ofStretch stretch.crlf = (ofStretch stretch).flatMap crlf := by
  cases stretch with
  | prose source =>
      have scanned := scanFrom_recogniseMarker_crlf (cuts_scan_recogniseMarker source) noReturn
      rw [CodeSpan.Stretch.crlf, ofStretch, ofStretch, scan, scanned, List.map_flatMap,
        List.flatMap_map]
      refine List.flatMap_congr fun piece _ => ?_
      cases piece with
      | plain char => rw [Piece.crlf, List.map_map]; rfl
      | hit source call => rfl
  | code source => rfl

theorem ofChunk_crlf {chunk : Chunk} (noReturn : '\r' ∉ chunk.source)
    (closed : ∀ source, chunk = .prose source →
      ¬ CodeSpan.LeavesOpen none (CodeSpan.pieces source)) :
    ofChunk chunk.crlf = (ofChunk chunk).flatMap crlf := by
  cases chunk with
  | prose source =>
      have stretches := (CodeSpan.stretches_crlf_iff source).mpr (closed source rfl)
      rw [Chunk.crlf, ofChunk, ofChunk, stretches, List.flatMap_map, List.flatMap_assoc]
      refine List.flatMap_congr fun stretch member => ofStretch_crlf fun inside => noReturn ?_
      rw [Chunk.source, ← CodeSpan.flatMap_source_stretches source]
      exact List.mem_flatMap.mpr ⟨stretch, member, inside⟩
  | code source => rfl
  | invocations opening body closing => rfl

theorem isCall_of_mem_ofDocument {markdown call : Text}
    (member : .marker call ∈ ofDocument markdown) : IsCall call := by
  obtain ⟨chunk, -, inChunk⟩ := List.mem_flatMap.mp member
  cases chunk with
  | prose text =>
      obtain ⟨stretch, -, inStretch⟩ := List.mem_flatMap.mp inChunk
      cases stretch with
      | prose source =>
          obtain ⟨piece, found, same⟩ := List.mem_map.mp inStretch
          cases piece with
          | plain char => cases same
          | hit source call =>
              cases same
              obtain ⟨_, _, -, isCall⟩ := (cuts_scan_recogniseMarker _).isHit_of_mem found
              exact isCall
      | code source => cases List.mem_singleton.mp inStretch
  | code source => cases List.mem_singleton.mp inChunk
  | invocations opening body closing => cases List.mem_singleton.mp inChunk

theorem isKept_marker_iff {expander : Expander} {call : Text} :
    (DocumentPart.marker call).IsKept expander ↔
      ∀ name ∈ (Invocation.read? call).map Invocation.name, expander.catalog.get? name = none := by
  cases read : Invocation.read? call <;> simp [IsKept, read]

theorem isKept_marker_crlf_iff (expander : Expander) {markdown call : Text}
    (member : .marker call ∈ ofDocument markdown) :
    (DocumentPart.marker (Text.crlf call)).IsKept expander ↔
      (DocumentPart.marker call).IsKept expander := by
  rw [isKept_marker_iff, isKept_marker_iff,
    (isCall_of_mem_ofDocument member).map_name_read?_crlf]

/-- The parts of the twin are the twins of the parts, if no prose leaves a run open. -/
theorem ofDocument_crlf {markdown : Text} (noReturn : '\r' ∉ markdown)
    (closed : ∀ source, .prose source ∈ Chunk.split markdown →
      ¬ CodeSpan.LeavesOpen none (CodeSpan.pieces source)) :
    ofDocument (Text.crlf markdown) = (ofDocument markdown).flatMap crlf := by
  rw [ofDocument, ofDocument, Chunk.split_crlf noReturn, List.flatMap_map, List.flatMap_assoc]
  refine List.flatMap_congr fun chunk member => ofChunk_crlf (fun inside => noReturn ?_) ?_
  · rw [← Chunk.flatMap_source_split markdown]
    exact List.mem_flatMap.mpr ⟨chunk, member, inside⟩
  · rintro source rfl
    exact closed source member

end DocumentPart

/-- A document and the one with a carriage return in front of every line feed are cut at the same
fences. The code spans in its prose are the same exactly where no run of backticks is left open in
front of a run of its length, and only a blank line between the two leaves it open. Where all are
the same, all parts are, and the same markers are expanded. -/
theorem crlf_keeps_parts {markdown : Text} (noReturn : '\r' ∉ markdown) :
    Chunk.split (Text.crlf markdown) = (Chunk.split markdown).map Chunk.crlf ∧
      (∀ source, .prose source ∈ Chunk.split markdown →
        (CodeSpan.stretches (Text.crlf source) =
            (CodeSpan.stretches source).map CodeSpan.Stretch.crlf ↔
          ¬ CodeSpan.LeavesOpen none (CodeSpan.pieces source)) ∧
        (CodeSpan.LeavesOpen none (CodeSpan.pieces source) → CodeSpan.HasBlankLine source)) ∧
      ((∀ source, .prose source ∈ Chunk.split markdown →
          ¬ CodeSpan.LeavesOpen none (CodeSpan.pieces source)) →
        DocumentPart.ofDocument (Text.crlf markdown) =
            (DocumentPart.ofDocument markdown).flatMap DocumentPart.crlf ∧
          ∀ expander call, .marker call ∈ DocumentPart.ofDocument markdown →
            ((DocumentPart.marker (Text.crlf call)).IsKept expander ↔
              (DocumentPart.marker call).IsKept expander)) := by
  refine ⟨Chunk.split_crlf noReturn, ?_, ?_⟩
  · intro source _
    have cuts : Text.Cuts (fun previous source _ rest => CodeSpan.IsSpan previous source rest)
        none source (CodeSpan.pieces source) :=
      CodeSpan.recognises_span.cuts_scanFrom source 0 none
    exact ⟨CodeSpan.stretches_crlf_iff source, CodeSpan.hasBlankLine_of_leavesOpen cuts⟩
  · intro closed
    exact ⟨DocumentPart.ofDocument_crlf noReturn closed,
      fun expander call member => DocumentPart.isKept_marker_crlf_iff expander member⟩

/-- A document with code in fences and in spans, and with markers. -/
def mixedDocument : Text :=
  "Use `::card::` or\n\n~~~ md\n::card::\n~~~\n::card(a=\"1\n2\")::\n".toList

theorem crlf_keeps_parts_mixed_document :
    '\r' ∉ mixedDocument ∧
      DocumentPart.ofDocument (Text.crlf mixedDocument) =
        (DocumentPart.ofDocument mixedDocument).flatMap DocumentPart.crlf ∧
      .marker "card(a=\"1\r\n2\")".toList ∈
        DocumentPart.ofDocument (Text.crlf mixedDocument) := by
  have noReturn : '\r' ∉ mixedDocument := by decide +kernel
  obtain ⟨-, spans, parts⟩ := crlf_keeps_parts noReturn
  have same : ∀ chunk ∈ Chunk.split mixedDocument,
      CodeSpan.stretches (Text.crlf chunk.source) =
        (CodeSpan.stretches chunk.source).map CodeSpan.Stretch.crlf := by
    decide +kernel
  have closed : ∀ source, .prose source ∈ Chunk.split mixedDocument →
      ¬ CodeSpan.LeavesOpen none (CodeSpan.pieces source) :=
    fun source member => (spans source member).1.mp (same (.prose source) member)
  exact ⟨noReturn, (parts closed).1, by decide +kernel⟩

/-- A document in which a blank line leaves two runs open. -/
def openRunDocument : Text :=
  "a ` b\n\n::card::\n\nc ` d\n".toList

/-- With carriage returns these two runs are a code span, and the marker between them is kept. -/
theorem crlf_swallows_marker :
    '\r' ∉ openRunDocument ∧ Chunk.split openRunDocument = [.prose openRunDocument] ∧
      CodeSpan.stretches (Text.crlf openRunDocument) ≠
        (CodeSpan.stretches openRunDocument).map CodeSpan.Stretch.crlf ∧
      .marker "card".toList ∈ DocumentPart.ofDocument openRunDocument ∧
      .marker "card".toList ∉ DocumentPart.ofDocument (Text.crlf openRunDocument) ∧
      ((cardExpander.expandDocument openRunDocument).run {}).1 ≠ openRunDocument ∧
      ((cardExpander.expandDocument (Text.crlf openRunDocument)).run {}).1 =
        Text.crlf openRunDocument := by
  decide +kernel

end DocComponents
