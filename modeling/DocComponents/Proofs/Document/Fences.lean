import DocComponents.Document.Fence
import DocComponents.Proofs.Text.Lines

/-!
# Fences as lines

How a markdown text is cut can be told by its lines alone: a fence runs from a line that opens it to
the next line that closes it, or to the end of the text, and prose is what stands between fences.
The chunks of a text are the only ones that are cut this way, and they hold all of its lines.
-/

set_option autoImplicit false

namespace DocComponents.Chunk

/-- How lines are cut into chunks. Prose goes on up to the next line that opens a fence. -/
inductive Cuts : List Text → List Chunk → Prop where
  | done : Cuts [] []
  | prose {lines rest : List Text} {chunks : List Chunk} (notEmpty : lines ≠ [])
      (plain : ∀ line ∈ lines, Fence.open? line = none)
      (ends : ∀ line, rest.head? = some line → ∃ fence, Fence.open? line = some fence)
      (later : Cuts rest chunks) : Cuts (lines ++ rest) (.prose lines.flatten :: chunks)
  | closed {fence : Fence} {opening closing : Text} {body rest : List Text} {chunks : List Chunk}
      (opens : Fence.open? opening = some fence)
      (inside : ∀ line ∈ body, fence.closes line = false)
      (closes : fence.closes closing = true) (later : Cuts rest chunks) :
      Cuts (opening :: (body ++ closing :: rest))
        (fence.chunk opening body.flatten closing :: chunks)
  | unclosed {fence : Fence} {opening : Text} {body : List Text}
      (opens : Fence.open? opening = some fence)
      (inside : ∀ line ∈ body, fence.closes line = false) :
      Cuts (opening :: body) [fence.chunk opening body.flatten []]

/-- The lines that have been read of the current chunk. -/
def Progress.lines : Progress → List Text
  | .prose lines => lines
  | .fence _ opening lines => opening :: lines

/-- The lines that have been read belong to one chunk, which may go on. -/
def Progress.IsOpen : Progress → Prop
  | .prose lines => ∀ line ∈ lines, Fence.open? line = none
  | .fence current opening lines =>
    Fence.open? opening = some current ∧ ∀ line ∈ lines, current.closes line = false

private theorem isOpen_nothing : (Progress.prose []).IsOpen :=
  List.forall_mem_nil _

private theorem forall_mem_concat {holds : Text → Prop} {lines : List Text} {line : Text}
    (before : ∀ other ∈ lines, holds other) (last : holds line) :
    ∀ other ∈ lines ++ [line], holds other := by
  intro other member
  rcases List.mem_append.mp member with earlier | same
  · exact before other earlier
  · rw [List.mem_singleton.mp same]
    exact last

theorem cuts_ofLines {progress : Progress} (isOpen : progress.IsOpen) (rest : List Text) :
    Cuts (progress.lines ++ rest) (ofLines progress rest) := by
  induction rest generalizing progress with
  | nil =>
      cases progress with
      | prose lines =>
          by_cases empty : lines = []
          · subst empty
            exact .done
          · have only := Cuts.prose empty isOpen (by simp) .done
            simpa [ofLines, ofProse, empty, Progress.lines] using only
      | fence fence opening lines =>
          have only := Cuts.unclosed isOpen.1 isOpen.2
          simpa [ofLines, Progress.lines] using only
  | cons line rest ih =>
      cases progress with
      | prose lines =>
          unfold ofLines
          split
          · next noFence =>
              have goesOn : (Progress.prose (lines ++ [line])).IsOpen :=
                forall_mem_concat isOpen noFence
              simpa [Progress.lines] using ih goesOn
          · next fence opens =>
              have begun : (Progress.fence fence line []).IsOpen := ⟨opens, by simp⟩
              have later := ih begun
              by_cases empty : lines = []
              · subst empty
                simpa [ofProse, Progress.lines] using later
              · have found : ∀ other, (line :: rest).head? = some other →
                    ∃ fence, Fence.open? other = some fence := by
                  intro other first
                  cases first
                  exact ⟨fence, opens⟩
                have chunk := Cuts.prose empty isOpen found later
                simpa [ofProse, empty, Progress.lines] using chunk
      | fence fence opening lines =>
          unfold ofLines
          split
          · next closes =>
              have chunk := Cuts.closed isOpen.1 isOpen.2 closes (ih isOpen_nothing)
              simpa [Progress.lines] using chunk
          · next stays =>
              have goesOn : (Progress.fence fence opening (lines ++ [line])).IsOpen :=
                ⟨isOpen.1, forall_mem_concat isOpen.2 (by simpa using stays)⟩
              simpa [Progress.lines] using ih goesOn

theorem ofLines_prose_append {lines : List Text} (plain : ∀ line ∈ lines, Fence.open? line = none)
    (before rest : List Text) :
    ofLines (.prose before) (lines ++ rest) = ofLines (.prose (before ++ lines)) rest := by
  induction lines generalizing before with
  | nil => simp
  | cons line others ih =>
      have later := ih (fun other member => plain other (List.mem_cons_of_mem _ member))
        (before ++ [line])
      rw [List.cons_append, ofLines, plain line List.mem_cons_self]
      simpa using later

theorem ofLines_fence_append {fence : Fence} {body : List Text}
    (inside : ∀ line ∈ body, fence.closes line = false) (opening : Text)
    (before rest : List Text) :
    ofLines (.fence fence opening before) (body ++ rest) =
      ofLines (.fence fence opening (before ++ body)) rest := by
  induction body generalizing before with
  | nil => simp
  | cons line others ih =>
      have later := ih (fun other member => inside other (List.mem_cons_of_mem _ member))
        (before ++ [line])
      rw [List.cons_append, ofLines, inside line List.mem_cons_self]
      simpa using later

theorem Cuts.eq_ofLines {lines : List Text} {chunks : List Chunk} (cuts : Cuts lines chunks) :
    chunks = ofLines (.prose []) lines := by
  induction cuts with
  | done => rfl
  | @prose lines rest chunks notEmpty plain ends later ih =>
      rw [ofLines_prose_append plain, ih, List.nil_append]
      cases rest with
      | nil => simp [ofLines, ofProse, notEmpty]
      | cons line tail =>
          obtain ⟨fence, opens⟩ := ends line rfl
          simp [ofLines, opens, ofProse, notEmpty]
  | @closed fence opening closing body rest chunks opens inside closes later ih =>
      rw [ofLines, opens]
      simp only [ofProse, List.isEmpty_nil, ↓reduceIte, List.nil_append]
      rw [ofLines_fence_append inside, List.nil_append, ofLines, if_pos closes, ih]
  | @unclosed fence opening body opens inside =>
      have whole := ofLines_fence_append inside opening [] []
      rw [List.append_nil, List.nil_append] at whole
      rw [ofLines, opens]
      simp only [ofProse, List.isEmpty_nil, ↓reduceIte, List.nil_append]
      rw [whole, ofLines]

/-- The chunks of a text are the only chunks that its lines are cut into. -/
theorem cuts_iff_eq_split {markdown : Text} {chunks : List Chunk} :
    Cuts (Text.fullLines markdown) chunks ↔ chunks = split markdown := by
  constructor
  · exact Cuts.eq_ofLines
  · rintro rfl
    exact cuts_ofLines isOpen_nothing _

theorem source_chunk (fence : Fence) (opening body closing : Text) :
    (fence.chunk opening body closing).source = opening ++ body ++ closing := by
  unfold Fence.chunk
  split <;> rfl

theorem Cuts.flatMap_source {lines : List Text} {chunks : List Chunk} (cuts : Cuts lines chunks) :
    chunks.flatMap source = lines.flatten := by
  induction cuts with
  | done => rfl
  | prose notEmpty plain ends later ih => simp [source, ih]
  | closed opens inside closes later ih => simp [source_chunk, ih]
  | unclosed opens inside => simp [source_chunk]

/-- Cutting a text into chunks loses nothing. -/
theorem flatMap_source_split (markdown : Text) : (split markdown).flatMap source = markdown := by
  have cuts := cuts_iff_eq_split.mpr (rfl : split markdown = split markdown)
  rw [cuts.flatMap_source, Text.flatten_fullLines]

end DocComponents.Chunk
