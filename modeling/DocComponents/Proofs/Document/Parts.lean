import DocComponents.Document.Expander
import DocComponents.Proofs.Document.CodeSpan
import DocComponents.Proofs.Document.Fences
import DocComponents.Proofs.Invocation.Marker
import DocComponents.Proofs.SortedMap
import Mathlib.Data.List.Forall2

/-!
# Documents part by part

A document is prose, code and fenced blocks, and its prose is plain characters and inline markers.
These parts are all of its text. Expanding it shows its parts one after the other: blocks and the
markers of registered components give way to what is rendered, and every other part stays.
-/

set_option autoImplicit false

namespace DocComponents

inductive DocumentPart where
  /-- A character of prose that belongs to no marker. -/
  | plain (char : Char)
  | marker (call : Text)
  /-- A code span, or fenced code with its fences. -/
  | code (source : Text)
  | block (opening body closing : Text)
  deriving DecidableEq

namespace DocumentPart

def source : DocumentPart → Text
  | .plain char => [char]
  | .marker call => "::".toList ++ call ++ "::".toList
  | .code source => source
  | .block opening body closing => opening ++ body ++ closing

def ofPiece : Text.Piece Text → DocumentPart
  | .plain char => .plain char
  | .hit _ call => .marker call

def ofStretch : CodeSpan.Stretch → List DocumentPart
  | .prose source => (Text.scan recogniseMarker source).map ofPiece
  | .code source => [.code source]

def ofChunk : Chunk → List DocumentPart
  | .prose source => (CodeSpan.stretches source).flatMap ofStretch
  | .code source => [.code source]
  | .invocations opening body closing => [.block opening body closing]

def ofDocument (markdown : Text) : List DocumentPart :=
  (Chunk.split markdown).flatMap ofChunk

theorem source_ofPiece {text : Text} {piece : Text.Piece Text}
    (member : piece ∈ Text.scan recogniseMarker text) : (ofPiece piece).source = piece.source := by
  cases piece with
  | plain char => rfl
  | hit source call =>
      obtain ⟨_, _, written, -⟩ := (cuts_scan_recogniseMarker text).isHit_of_mem member
      exact written.symm

theorem flatMap_source_ofStretch (stretch : CodeSpan.Stretch) :
    (ofStretch stretch).flatMap source = stretch.source := by
  cases stretch with
  | prose text =>
      rw [ofStretch, List.flatMap_map, List.flatMap_congr fun piece => source_ofPiece]
      exact Text.source_scan recogniseMarker text
  | code text => simp [ofStretch, source, CodeSpan.Stretch.source]

theorem flatMap_source_ofChunk (chunk : Chunk) : (ofChunk chunk).flatMap source = chunk.source := by
  cases chunk with
  | prose text =>
      simp [ofChunk, List.flatMap_assoc, flatMap_source_ofStretch,
        CodeSpan.flatMap_source_stretches, Chunk.source]
  | code text => simp [ofChunk, source, Chunk.source]
  | invocations opening body closing => simp [ofChunk, source, Chunk.source]

/-- The parts of a document are all of its text. -/
theorem flatMap_source_ofDocument (markdown : Text) :
    (ofDocument markdown).flatMap source = markdown := by
  rw [ofDocument, List.flatMap_assoc]
  simp only [flatMap_source_ofChunk]
  exact Chunk.flatMap_source_split markdown

inductive CutsStretch : CodeSpan.Stretch → List DocumentPart → Prop where
  | prose {text : Text} {pieces : List (Text.Piece Text)}
      (markers : Text.Cuts IsMarker none text pieces) :
      CutsStretch (.prose text) (pieces.map ofPiece)
  | code (text : Text) : CutsStretch (.code text) [.code text]

inductive CutsChunk : Chunk → List DocumentPart → Prop where
  | prose {text : Text} {stretches : List CodeSpan.Stretch} {parts : List (List DocumentPart)}
      (spans : CodeSpan.Cuts none text stretches)
      (inside : List.Forall₂ CutsStretch stretches parts) :
      CutsChunk (.prose text) parts.flatten
  | code (text : Text) : CutsChunk (.code text) [.code text]
  | invocations (opening body closing : Text) :
      CutsChunk (.invocations opening body closing) [.block opening body closing]

/-- How a document is cut into parts: at its fences, at the code spans between them and at the
markers between those. -/
inductive Cuts (markdown : Text) : List DocumentPart → Prop where
  | intro {chunks : List Chunk} {parts : List (List DocumentPart)}
      (fences : Chunk.Cuts (Text.fullLines markdown) chunks)
      (inside : List.Forall₂ CutsChunk chunks parts) : Cuts markdown parts.flatten

theorem cutsStretch_ofStretch (stretch : CodeSpan.Stretch) :
    CutsStretch stretch (ofStretch stretch) := by
  cases stretch with
  | prose text => exact .prose (cuts_scan_recogniseMarker text)
  | code text => exact .code text

private theorem forall₂_map {Item Result : Type} {Related : Item → Result → Prop}
    {make : Item → Result} (related : ∀ item, Related item (make item)) (items : List Item) :
    List.Forall₂ Related items (items.map make) :=
  List.forall₂_map_right_iff.mpr (List.forall₂_same.mpr fun item _ => related item)

theorem cutsChunk_ofChunk (chunk : Chunk) : CutsChunk chunk (ofChunk chunk) := by
  cases chunk with
  | prose text =>
      rw [ofChunk, List.flatMap_def]
      exact .prose (CodeSpan.cuts_stretches text) (forall₂_map cutsStretch_ofStretch _)
  | code text => exact .code text
  | invocations opening body closing => exact .invocations opening body closing

theorem cuts_ofDocument (markdown : Text) : Cuts markdown (ofDocument markdown) := by
  rw [ofDocument, List.flatMap_def]
  exact .intro (Chunk.cuts_iff_eq_split.mpr rfl) (forall₂_map cutsChunk_ofChunk _)

/-- A part that stays as it is written: it is no block, and no marker of a registered component. -/
def IsKept (expander : Expander) : DocumentPart → Prop
  | .plain _ => True
  | .marker call =>
    ∀ invocation ∈ Invocation.read? call, expander.catalog.get? invocation.name = none
  | .code _ => True
  | .block _ _ _ => False

instance (expander : Expander) : (part : DocumentPart) → Decidable (part.IsKept expander)
  | .plain _ => inferInstanceAs (Decidable True)
  | .marker call =>
    inferInstanceAs (Decidable
      (∀ invocation ∈ Invocation.read? call, expander.catalog.get? invocation.name = none))
  | .code _ => inferInstanceAs (Decidable True)
  | .block _ _ _ => inferInstanceAs (Decidable False)

inductive Shows (expander : Expander) : DocumentPart → Text → Prop where
  | kept {part : DocumentPart} (isKept : part.IsKept expander) : Shows expander part part.source
  | marker {call : Text} {invocation : Invocation} {definition : Definition}
      (read : Invocation.read? call = some invocation)
      (registered : expander.catalog.get? invocation.name = some definition) (trace : Trace) :
      Shows expander (.marker call)
        (((expander.renderInvocation invocation { expander.options with displayMode := .inline }
          { tag := "span".toList, classes := [inlineWrapperClass] }).run trace).1.html)
  | block {opening body closing : Text} (trace : Trace) :
      Shows expander (.block opening body closing)
        (((expander.blockElement (Invocation.readBlock body) expander.options).run trace).1.html ++
          ['\n'])

inductive ShowsAll (expander : Expander) : List DocumentPart → Text → Prop where
  | nil : ShowsAll expander [] []
  | cons {part : DocumentPart} {parts : List DocumentPart} {text rest : Text}
      (first : Shows expander part text) (others : ShowsAll expander parts rest) :
      ShowsAll expander (part :: parts) (text ++ rest)

variable {expander : Expander}

theorem Shows.showsAll {part : DocumentPart} {text : Text} (shows : Shows expander part text) :
    ShowsAll expander [part] text := by
  simpa using ShowsAll.cons shows .nil

theorem showsAll_code (text : Text) : ShowsAll expander [.code text] text := by
  have shown : Shows expander (.code text) text := .kept trivial
  exact shown.showsAll

theorem ShowsAll.append {parts others : List DocumentPart} {text rest : Text}
    (first : ShowsAll expander parts text) (second : ShowsAll expander others rest) :
    ShowsAll expander (parts ++ others) (text ++ rest) := by
  induction first with
  | nil => exact second
  | cons shows _ ih =>
      rw [List.cons_append, List.append_assoc]
      exact .cons shows ih

theorem Shows.eq_source {part : DocumentPart} {text : Text} (shows : Shows expander part text)
    (isKept : part.IsKept expander) : text = part.source := by
  cases shows with
  | kept => rfl
  | marker read registered =>
      have missing := isKept _ read
      rw [registered] at missing
      cases missing
  | block => exact isKept.elim

/-- Where every part is kept, the text is what it was. -/
theorem ShowsAll.eq_source {parts : List DocumentPart} {text : Text}
    (shows : ShowsAll expander parts text) (kept : ∀ part ∈ parts, part.IsKept expander) :
    text = parts.flatMap source := by
  induction shows with
  | nil => rfl
  | @cons part parts text rest first others ih =>
      have later := ih fun other member => kept other (List.mem_cons_of_mem _ member)
      rw [List.flatMap_cons, first.eq_source (kept part List.mem_cons_self), later]

/-- Actions run one after the other show the parts of their items one after the other. -/
theorem showsAll_mapM {Item : Type} {action : Item → StateM Trace Text}
    {parts : Item → List DocumentPart} {items : List Item}
    (shows : ∀ item ∈ items, ∀ trace,
      ShowsAll expander (parts item) ((action item).run trace).1) (trace : Trace) :
    ShowsAll expander (items.flatMap parts) ((items.mapM action).run trace).1.flatten := by
  induction items generalizing trace with
  | nil => exact .nil
  | cons item items ih =>
      have first := shows item List.mem_cons_self trace
      have later := ih fun other member => shows other (List.mem_cons_of_mem _ member)
      rw [List.mapM_cons]
      exact first.append (later ((action item).run trace).2)

theorem shows_expandMarker {source call : Text}
    (written : (DocumentPart.marker call).source = source) (trace : Trace) :
    Shows expander (.marker call) ((expander.expandMarker source call).run trace).1 := by
  subst written
  have stays (absent : ∀ invocation ∈ Invocation.read? call,
      expander.catalog.get? invocation.name = none) :
      Shows expander (.marker call) (DocumentPart.marker call).source :=
    .kept absent
  unfold Expander.expandMarker
  split
  · next unread => exact stays (by simp [unread])
  · next invocation read =>
      split
      · next registered =>
          obtain ⟨definition, found⟩ := (SortedMap.contains_eq_true_iff _ _).mp registered
          exact .marker read found trace
      · next missing =>
          refine stays fun other same => ?_
          obtain rfl : invocation = other := Option.some.inj (read.symm.trans same)
          simpa [SortedMap.contains, Catalog.get?] using missing

theorem shows_expandPiece {text : Text} {piece : Text.Piece Text}
    (member : piece ∈ Text.scan recogniseMarker text) (trace : Trace) :
    Shows expander (ofPiece piece) ((expander.expandPiece piece).run trace).1 := by
  have written := source_ofPiece member
  cases piece with
  | plain char => exact .kept trivial
  | hit source call => exact shows_expandMarker written trace

theorem showsAll_expandStretch (stretch : CodeSpan.Stretch) (trace : Trace) :
    ShowsAll expander (ofStretch stretch) ((expander.expandStretch stretch).run trace).1 := by
  cases stretch with
  | prose text =>
      have pieces : ∀ piece ∈ Text.scan recogniseMarker text, ∀ trace,
          ShowsAll expander [ofPiece piece] ((expander.expandPiece piece).run trace).1 :=
        fun piece member trace => (shows_expandPiece member trace).showsAll
      rw [ofStretch, List.map_eq_flatMap]
      exact showsAll_mapM pieces trace
  | code text => exact showsAll_code text

theorem showsAll_expandChunk (chunk : Chunk) (trace : Trace) :
    ShowsAll expander (ofChunk chunk) ((expander.expandChunk chunk).run trace).1 := by
  cases chunk with
  | prose text => exact showsAll_mapM (fun stretch _ => showsAll_expandStretch stretch) trace
  | code text => exact showsAll_code text
  | invocations opening body closing => exact (Shows.block trace).showsAll

theorem showsAll_expandDocument (markdown : Text) (trace : Trace) :
    ShowsAll expander (ofDocument markdown) ((expander.expandDocument markdown).run trace).1 :=
  showsAll_mapM (fun chunk _ => showsAll_expandChunk chunk) trace

end DocumentPart

/-- Expanding a document shows all of its text but blocks and the markers of registered components,
each part at its place. -/
theorem expandDocument_shows_every_part (expander : Expander) (markdown : Text) (trace : Trace) :
    let chunks := Chunk.split markdown
    let parts := DocumentPart.ofDocument markdown
    let output := ((expander.expandDocument markdown).run trace).1
    Chunk.Cuts (Text.fullLines markdown) chunks ∧ chunks.flatMap Chunk.source = markdown ∧
      DocumentPart.Cuts markdown parts ∧ parts.flatMap DocumentPart.source = markdown ∧
      DocumentPart.ShowsAll expander parts output ∧
      ((∀ part ∈ parts, part.IsKept expander) → output = markdown) := by
  intro chunks parts output
  have cuts : Chunk.Cuts (Text.fullLines markdown) chunks := Chunk.cuts_iff_eq_split.mpr rfl
  have whole : parts.flatMap DocumentPart.source = markdown :=
    DocumentPart.flatMap_source_ofDocument markdown
  have shows : DocumentPart.ShowsAll expander parts output :=
    DocumentPart.showsAll_expandDocument markdown trace
  refine ⟨cuts, Chunk.flatMap_source_split markdown, DocumentPart.cuts_ofDocument markdown, whole,
    shows, fun kept => ?_⟩
  rw [shows.eq_source kept, whole]

def plainCard : Definition where
  name := "card".toList
  template := "<p></p>".toList

def cardExpander : Expander where
  catalog := (({} : Catalog).register plainCard).catalog
  runtime := .inProcess

/-- A document that uses this component in code only. Its last fence is not closed, and the line
before the marker opens none. -/
def quotingDocument : Text :=
  "Use `::card::` or\n~~~ md\n::card::\n~~~\n``` a`b\n::ghost(a=\"1\")::\n``` sh\n::card::".toList

theorem expandDocument_shows_quoting_document :
    .code "`::card::`".toList ∈ DocumentPart.ofDocument quotingDocument ∧
      .marker "ghost(a=\"1\")".toList ∈ DocumentPart.ofDocument quotingDocument ∧
      ((cardExpander.expandDocument quotingDocument).run {}).1 = quotingDocument := by
  have kept : ∀ part ∈ DocumentPart.ofDocument quotingDocument, part.IsKept cardExpander := by
    decide +kernel
  have facts := expandDocument_shows_every_part cardExpander quotingDocument {}
  exact ⟨by decide +kernel, by decide +kernel, facts.2.2.2.2.2 kept⟩

end DocComponents
