import DocComponents.Proofs.Invocation.Inline

/-!
# Markers in a text

The markers of a text stand one behind the other at the positions that are told of them, and with
what stands between them they are the text. What is found as a marker is always read as an
invocation, because a call is trimmed as it stands, so running text holds no marker without one.
-/

set_option autoImplicit false

namespace DocComponents

/-! ## Calls -/

/-- What the marker of a call is read as: the name behind the colons, with the arguments between its
parentheses. -/
inductive Marker.Reads : (source : Text) → Invocation → Prop
  | bare {name : Text} (identifier : isIdentifier name = true) :
      Reads ("::".toList ++ name ++ "::".toList) { name, props := arguments [] }
  | withArguments {name inside : Text} (identifier : isIdentifier name = true)
      (noParenthesis : ')' ∉ inside) :
      Reads ("::".toList ++ (name ++ '(' :: (inside ++ [')'])) ++ "::".toList)
        { name, props := arguments inside }

theorem IsMarker.exists_reads {previous : Option Char} {source call behind : Text}
    (isMarker : IsMarker previous source call behind) :
    ∃ invocation, Invocation.read? call = some invocation ∧ Marker.Reads source invocation := by
  obtain ⟨rfl, isCall⟩ := isMarker
  cases isCall with
  | bare identifier => exact ⟨_, Invocation.read?_name identifier, .bare identifier⟩
  | @withArguments name inside identifier noParenthesis =>
      exact ⟨_, Invocation.read?_call identifier inside, .withArguments identifier noParenthesis⟩

namespace Marker

variable {pieces : List (Text.Piece Text)} {position : Nat} {marker : Marker}

/-! ## Positions -/

theorem pairwise_ofPieces (position : Nat) (pieces : List (Text.Piece Text)) :
    (ofPieces position pieces).Pairwise fun first second => first.stop ≤ second.start := by
  induction pieces generalizing position with
  | nil => exact .nil
  | cons piece rest ih =>
      cases piece with
      | plain char => exact ih (position + 1)
      | hit source call =>
          exact .cons (fun later member => le_start_of_mem_ofPieces member) (ih _)

theorem exists_hit_of_mem_ofPieces (member : marker ∈ ofPieces position pieces) :
    ∃ call, .hit marker.source call ∈ pieces ∧ marker.invocation = Invocation.read? call ∧
      marker.stop = marker.start + marker.source.length := by
  induction pieces generalizing position with
  | nil => cases member
  | cons piece rest ih =>
      have behind {position : Nat} (later : marker ∈ ofPieces position rest) :
          ∃ call, .hit marker.source call ∈ piece :: rest ∧
            marker.invocation = Invocation.read? call ∧
            marker.stop = marker.start + marker.source.length := by
        obtain ⟨call, hit, read⟩ := ih later
        exact ⟨call, List.mem_cons_of_mem _ hit, read⟩
      cases piece with
      | plain char => exact behind member
      | hit source call =>
          rcases List.mem_cons.mp member with rfl | later
          · exact ⟨call, List.mem_cons_self, rfl, rfl⟩
          · exact behind later

/-- A marker stands in the text where its positions say. -/
theorem exists_around_of_mem_ofPieces (before : Text)
    (member : marker ∈ ofPieces before.length pieces) :
    ∃ front behind, before ++ pieces.flatMap Text.Piece.source = front ++ marker.source ++ behind ∧
      front.length = marker.start := by
  induction pieces generalizing before with
  | nil => cases member
  | cons piece rest ih =>
      have later (found : marker ∈ ofPieces (before ++ piece.source).length rest) :
          ∃ front behind, before ++ (piece :: rest).flatMap Text.Piece.source =
              front ++ marker.source ++ behind ∧ front.length = marker.start := by
        obtain ⟨front, behind, whole, sized⟩ := ih _ found
        refine ⟨front, behind, ?_, sized⟩
        rw [List.flatMap_cons, ← whole, List.append_assoc]
      cases piece with
      | plain char =>
          apply later
          simpa [ofPieces, Text.Piece.source] using member
      | hit source call =>
          rcases List.mem_cons.mp member with rfl | found
          · exact ⟨before, rest.flatMap Text.Piece.source, by simp [Text.Piece.source], rfl⟩
          · apply later
            simpa [Text.Piece.source] using found

/-- Every marker that is written in the text reaches into one that is found. -/
theorem exists_mem_ofPieces_of_isMarker {previous before : Option Char} {text : Text}
    (cuts : Text.Cuts IsMarker previous text pieces) {front source call behind : Text}
    (written : text = front ++ source ++ behind) (isMarker : IsMarker before source call behind)
    (position : Nat) :
    ∃ marker ∈ ofPieces position pieces,
      marker.start ≤ position + front.length ∧ position + front.length < marker.stop := by
  induction cuts generalizing front position with
  | done =>
      obtain ⟨rfl, -⟩ := isMarker
      simp at written
  | @plain previous char rest pieces noHit later ih =>
      cases front with
      | nil => exact absurd isMarker (noHit source call behind (by simpa using written))
      | cons first front =>
          simp only [List.cons_append, List.cons.injEq] at written
          obtain ⟨found, member, starts, stops⟩ := ih written.2 (position + 1)
          refine ⟨found, member, ?_, ?_⟩
          · simp only [List.length_cons]
            omega
          · simp only [List.length_cons]
            omega
  | @hit previous taken rest value pieces isHit later ih =>
      by_cases inside : front.length < taken.length
      · refine ⟨_, List.mem_cons_self, ?_, ?_⟩
        · exact Nat.le_add_right position front.length
        · exact Nat.add_lt_add_left inside position
      · have within : taken <+: front := by
          have whole : front <+: taken ++ rest := by
            rw [written, List.append_assoc]
            exact List.prefix_append front _
          exact List.prefix_of_prefix_length_le (List.prefix_append taken rest) whole
            (Nat.not_lt.mp inside)
        obtain ⟨more, rfl⟩ := within
        have behind : rest = more ++ source ++ behind := by simpa using written
        obtain ⟨found, member, starts, stops⟩ := ih behind (position + taken.length)
        refine ⟨found, List.mem_cons_of_mem _ member, ?_, ?_⟩
        · rw [List.length_append]
          omega
        · rw [List.length_append]
          omega

/-! ## Texts -/

/-- What stands in a text from a position on: what comes before each marker, each marker, and what
comes behind the last one. -/
def interleave (text : Text) : (position : Nat) → List Marker → Text
  | position, [] => text.drop position
  | position, marker :: rest =>
    text.extract position marker.start ++ marker.source ++ interleave text marker.stop rest

theorem extract_append_append (front source behind : Text) :
    (front ++ source ++ behind).extract front.length (front.length + source.length) = source := by
  rw [List.append_assoc, List.extract_eq_take_drop, List.drop_left, Nat.add_sub_cancel_left,
    List.take_left]

theorem extract_append_drop (text : Text) {start stop : Nat} (ordered : start ≤ stop) :
    text.extract start stop ++ text.drop stop = text.drop start := by
  have rest : text.drop stop = (text.drop start).drop (stop - start) := by
    rw [List.drop_drop, Nat.add_sub_cancel' ordered]
  rw [rest]
  exact List.take_append_drop (stop - start) (text.drop start)

/-- Markers in order that stand where their positions say leave out nothing. -/
theorem interleave_eq_drop {text : Text} {markers : List Marker}
    (ordered : markers.Pairwise fun first second => first.stop ≤ second.start)
    (stands : ∀ marker ∈ markers, marker.start ≤ marker.stop ∧
      text.extract marker.start marker.stop = marker.source)
    {position : Nat} (behind : ∀ marker ∈ markers, position ≤ marker.start) :
    interleave text position markers = text.drop position := by
  induction markers generalizing position with
  | nil => rfl
  | cons marker rest ih =>
      obtain ⟨before, later⟩ := List.pairwise_cons.mp ordered
      obtain ⟨forward, source⟩ := stands marker List.mem_cons_self
      have others := ih later (fun other member => stands other (List.mem_cons_of_mem _ member))
        before
      rw [interleave, others, ← source, List.append_assoc, extract_append_drop text forward,
        extract_append_drop text (behind marker List.mem_cons_self)]

/-! ## Found markers -/

theorem stands_of_mem_findAll {text : Text} (member : marker ∈ findAll text) :
    marker.start < marker.stop ∧ marker.stop ≤ text.length ∧
      text.extract marker.start marker.stop = marker.source := by
  obtain ⟨call, hit, -, stop⟩ := exists_hit_of_mem_ofPieces member
  obtain ⟨previous, rest, isMarker⟩ := (cuts_scan_recogniseMarker text).isHit_of_mem hit
  obtain ⟨front, behind, whole, start⟩ := exists_around_of_mem_ofPieces [] member
  rw [List.nil_append, Text.source_scan] at whole
  have notEmpty : 0 < marker.source.length :=
    List.length_pos_iff.mpr (recognises_marker.ne_nil isMarker)
  rw [stop, ← start, whole]
  refine ⟨Nat.lt_add_of_pos_right notEmpty, ?_, extract_append_append _ _ _⟩
  simp only [List.length_append]
  omega

theorem exists_reads_of_mem_findAll {text : Text} (member : marker ∈ findAll text) :
    ∃ invocation, marker.invocation = some invocation ∧ Reads marker.source invocation := by
  obtain ⟨call, hit, read, -⟩ := exists_hit_of_mem_ofPieces member
  obtain ⟨previous, rest, isMarker⟩ := (cuts_scan_recogniseMarker text).isHit_of_mem hit
  obtain ⟨invocation, found, reads⟩ := isMarker.exists_reads
  exact ⟨invocation, read.trans found, reads⟩

theorem interleave_findAll (text : Text) : interleave text 0 (findAll text) = text := by
  apply interleave_eq_drop (pairwise_ofPieces 0 (Text.scan recogniseMarker text))
  · intro marker member
    obtain ⟨forward, -, source⟩ := stands_of_mem_findAll member
    exact ⟨Nat.le_of_lt forward, source⟩
  · exact fun marker _ => Nat.zero_le marker.start

end Marker

/-- The markers of a text are in order and apart, each stands where its positions say and has the
invocation that its call spells, and with the text between them they are the whole text. Every
marker that is written reaches into a found one, and no hit of the scan is left without an
invocation. -/
theorem markers_parse_and_tile (text : Text) :
    let markers := Marker.findAll text
    (markers.Pairwise fun first second => first.stop ≤ second.start) ∧
      (∀ marker ∈ markers, marker.start < marker.stop ∧ marker.stop ≤ text.length ∧
        text.extract marker.start marker.stop = marker.source ∧
        ∃ invocation, marker.invocation = some invocation ∧
          Marker.Reads marker.source invocation) ∧
      Marker.interleave text 0 markers = text ∧
      (∀ front call behind, text = front ++ ("::".toList ++ call ++ "::".toList) ++ behind →
        IsCall call →
          ∃ marker ∈ markers, marker.start ≤ front.length ∧ front.length < marker.stop) ∧
      ∀ source call, .hit source call ∈ Text.scan recogniseMarker text →
        ∃ invocation, Invocation.read? call = some invocation := by
  intro markers
  have cuts := cuts_scan_recogniseMarker text
  refine ⟨Marker.pairwise_ofPieces 0 (Text.scan recogniseMarker text), fun marker member => ?_,
    Marker.interleave_findAll text, fun front call behind written isCall => ?_,
    fun source call hit => ?_⟩
  · obtain ⟨forward, inside, source⟩ := Marker.stands_of_mem_findAll member
    exact ⟨forward, inside, source, Marker.exists_reads_of_mem_findAll member⟩
  · have isMarker : IsMarker none ("::".toList ++ call ++ "::".toList) call behind := ⟨rfl, isCall⟩
    have found := Marker.exists_mem_ofPieces_of_isMarker cuts written isMarker 0
    simp only [Nat.zero_add] at found
    exact found
  · obtain ⟨previous, behind, isMarker⟩ := cuts.isHit_of_mem hit
    obtain ⟨invocation, found, -⟩ := isMarker.exists_reads
    exact ⟨invocation, found⟩

end DocComponents
