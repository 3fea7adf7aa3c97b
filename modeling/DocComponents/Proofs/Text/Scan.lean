import DocComponents.Proofs.Text.Lead
import DocComponents.Text.Scan

/-!
# How a scan cuts a text

A scan takes hits from left to right: a character is plain only where no hit begins. So the pieces
of a text can be told without the recogniser, by what a hit is. A scan with a recogniser that does
not look back goes on behind a hit as it would have begun there.
-/

set_option autoImplicit false

namespace DocComponents.Text

variable {α : Type} {recognise : Text → Option (α × Nat)}

@[simp] theorem scan_nil : scan recognise [] = [] := rfl

@[simp] theorem hits_nil : hits ([] : List (Piece α)) = [] := rfl

@[simp] theorem hits_plain (char : Char) (pieces : List (Piece α)) :
    hits (.plain char :: pieces) = hits pieces := rfl

@[simp] theorem hits_hit (source : Text) (value : α) (pieces : List (Piece α)) :
    hits (.hit source value :: pieces) = value :: hits pieces := rfl

private theorem scanFrom_eq_scan_drop (recognise : Text → Option (α × Nat)) (text : Text)
    (skip : Nat) (previous : Option Char) :
    scanFrom (fun _ => recognise) skip previous text = scan recognise (text.drop skip) := by
  induction text generalizing skip previous with
  | nil => simp [scanFrom]
  | cons char rest ih =>
      cases skip with
      | zero => rfl
      | succ skip => simpa [scanFrom] using ih skip (some char)

/-- Where nothing is recognised, the scan passes over one character. -/
theorem scan_cons_of_eq_none {char : Char} {rest : Text}
    (rejected : recognise (char :: rest) = none) :
    scan recognise (char :: rest) = .plain char :: scan recognise rest := by
  have later := scanFrom_eq_scan_drop recognise rest 0 (some char)
  rw [scan, scanFrom, rejected]
  simpa using later

/-- Where something is recognised, it is one hit, and the scan resumes behind it. -/
theorem scan_append_of_eq_some {source rest : Text} {value : α} (notEmpty : source ≠ [])
    (accepted : recognise (source ++ rest) = some (value, source.length)) :
    scan recognise (source ++ rest) = .hit source value :: scan recognise rest := by
  cases source with
  | nil => exact absurd rfl notEmpty
  | cons char others =>
      have later := scanFrom_eq_scan_drop recognise (others ++ rest) others.length (some char)
      rw [List.cons_append] at accepted ⊢
      rw [scan, scanFrom, accepted]
      simpa using later

/-- What is recognised as a whole is one hit. -/
theorem scan_of_eq_some {text : Text} {value : α} (notEmpty : text ≠ [])
    (accepted : recognise text = some (value, text.length)) :
    scan recognise text = [.hit text value] := by
  have whole : recognise (text ++ []) = some (value, text.length) := by rwa [List.append_nil]
  have scanned := scan_append_of_eq_some notEmpty whole
  rwa [List.append_nil] at scanned

theorem head?_hits_scan {char : Char} {rest : Text} {value : α} {size : Nat}
    (accepted : recognise (char :: rest) = some (value, size + 1)) :
    (hits (scan recognise (char :: rest))).head? = some value := by
  rw [scan, scanFrom, accepted]
  rfl

/-- The value of a hit is one that the recogniser gave somewhere in the text. -/
theorem exists_recognised_of_mem_hits {text : Text} {value : α}
    (member : value ∈ hits (scan recognise text)) :
    ∃ rest size, recognise rest = some (value, size) := by
  have found (rest : Text) (skip : Nat) (previous : Option Char)
      (inside : value ∈ hits (scanFrom (fun _ => recognise) skip previous rest)) :
      ∃ rest size, recognise rest = some (value, size) := by
    induction rest generalizing skip previous with
    | nil => simp [scanFrom] at inside
    | cons char rest ih =>
        cases skip with
        | succ skip => exact ih skip (some char) inside
        | zero =>
            rw [scanFrom] at inside
            split at inside
            · next other size accepted =>
                rcases List.mem_cons.mp inside with rfl | later
                · exact ⟨_, _, accepted⟩
                · exact ih size (some char) later
            · exact ih 0 (some char) inside
  exact found text 0 none member

private theorem scanFrom_append {after : Text}
    (same : ∀ text, text ≠ [] → recognise (text ++ after) = recognise text)
    (within : ∀ text value size, recognise text = some (value, size) → size ≤ text.length)
    (text : Text) (skip : Nat) (previous : Option Char) (inside : skip ≤ text.length) :
    scanFrom (fun _ => recognise) skip previous (text ++ after) =
      scanFrom (fun _ => recognise) skip previous text ++ scan recognise after := by
  induction text generalizing skip previous with
  | nil =>
      obtain rfl : skip = 0 := Nat.le_zero.mp inside
      exact scanFrom_eq_scan_drop recognise after 0 previous
  | cons char rest ih =>
      cases skip with
      | succ skip => exact ih skip (some char) (Nat.le_of_succ_le_succ inside)
      | zero =>
          have here := same (char :: rest) (List.cons_ne_nil _ _)
          rw [List.cons_append] at here ⊢
          rw [scanFrom, scanFrom, here]
          cases accepted : recognise (char :: rest) with
          | none => simpa using ih 0 (some char) (Nat.zero_le _)
          | some found =>
              obtain ⟨value, size⟩ := found
              cases size with
              | zero => simpa using ih 0 (some char) (Nat.zero_le _)
              | succ size =>
                  have bound := Nat.le_of_succ_le_succ (within _ _ _ accepted)
                  simpa [List.take_append_of_le_length bound] using ih size (some char) bound

/-- A text that no hit goes on into is scanned on its own. -/
theorem scan_append {after : Text}
    (same : ∀ text, text ≠ [] → recognise (text ++ after) = recognise text)
    (within : ∀ text value size, recognise text = some (value, size) → size ≤ text.length)
    (text : Text) : scan recognise (text ++ after) = scan recognise text ++ scan recognise after :=
  scanFrom_append same within text 0 none (Nat.zero_le _)

theorem replaceHits_append (write : α → Text) (left right : List (Piece α)) :
    replaceHits write (left ++ right) = replaceHits write left ++ replaceHits write right :=
  List.flatMap_append

@[simp] theorem hits_append (left right : List (Piece α)) :
    hits (left ++ right) = hits left ++ hits right :=
  List.filterMap_append

@[simp] theorem hits_map_plain (text : Text) :
    hits (text.map (.plain : Char → Piece α)) = [] := by
  induction text with
  | nil => rfl
  | cons char rest ih => exact ih

@[simp] theorem replaceHits_map_plain (write : α → Text) (text : Text) :
    replaceHits write (text.map .plain) = text := by
  induction text with
  | nil => rfl
  | cons char rest ih => exact congrArg (List.cons char) ih

theorem replaceHits_of_hits_eq_nil (write : α → Text) {pieces : List (Piece α)}
    (noHit : hits pieces = []) : replaceHits write pieces = pieces.flatMap Piece.source := by
  induction pieces with
  | nil => rfl
  | cons piece rest ih =>
      cases piece with
      | plain char => exact congrArg (List.cons char) (ih noHit)
      | hit source value => cases noHit

private theorem length_replaceHits_scanFrom (text : Text) (skip : Nat) (previous : Option Char) :
    (replaceHits (fun _ => []) (scanFrom (fun _ => recognise) skip previous text)).length +
      (hits (scanFrom (fun _ => recognise) skip previous text)).length ≤ text.length := by
  induction text generalizing skip previous with
  | nil => simp [scanFrom, replaceHits]
  | cons char rest ih =>
      cases skip with
      | succ skip => exact Nat.le_succ_of_le (ih skip (some char))
      | zero =>
          rw [scanFrom]
          split
          · next value size accepted =>
              have later := ih size (some char)
              simp only [replaceHits, List.flatMap_cons, List.nil_append, hits_hit,
                List.length_cons] at later ⊢
              omega
          · have later := ih 0 (some char)
            simp only [replaceHits, List.flatMap_cons, List.length_append, List.length_cons,
              List.length_nil, hits_plain] at later ⊢
            omega

/-- Taking the hits out makes a text shorter by at least one character for each hit. -/
theorem length_replaceHits_scan (recognise : Text → Option (α × Nat)) (text : Text) :
    (replaceHits (fun _ => []) (scan recognise text)).length +
      (hits (scan recognise text)).length ≤ text.length :=
  length_replaceHits_scanFrom text 0 none

/-- How a text is cut into pieces by what is a hit, for the character before it and the text behind
it. -/
inductive Cuts (IsHit : Option Char → Text → α → Text → Prop) :
    Option Char → Text → List (Piece α) → Prop where
  | done {previous : Option Char} : Cuts IsHit previous [] []
  | plain {previous : Option Char} {char : Char} {rest : Text} {pieces : List (Piece α)}
      (noHit : ∀ source value behind, char :: rest = source ++ behind →
        ¬ IsHit previous source value behind)
      (later : Cuts IsHit (some char) rest pieces) :
      Cuts IsHit previous (char :: rest) (.plain char :: pieces)
  | hit {previous : Option Char} {source rest : Text} {value : α} {pieces : List (Piece α)}
      (isHit : IsHit previous source value rest)
      (later : Cuts IsHit source.getLast? rest pieces) :
      Cuts IsHit previous (source ++ rest) (.hit source value :: pieces)

/-- A recogniser accepts the hits and nothing else, and no hit is empty. -/
structure Recognises (recognise : Option Char → Text → Option (α × Nat))
    (IsHit : Option Char → Text → α → Text → Prop) : Prop where
  accepts_iff {previous : Option Char} {text : Text} {value : α} {size : Nat} :
    recognise previous text = some (value, size) ↔
      ∃ source rest, text = source ++ rest ∧ source.length = size ∧
        IsHit previous source value rest
  ne_nil {previous : Option Char} {source rest : Text} {value : α} :
    IsHit previous source value rest → source ≠ []

theorem Recognises.eq_none {recognise : Option Char → Text → Option (α × Nat)}
    {IsHit : Option Char → Text → α → Text → Prop} (recognises : Recognises recognise IsHit)
    {previous : Option Char} {text : Text}
    (noHit : ∀ source value rest, text = source ++ rest → ¬ IsHit previous source value rest) :
    recognise previous text = none := by
  cases found : recognise previous text with
  | none => rfl
  | some accepted =>
      obtain ⟨source, rest, whole, -, isHit⟩ := recognises.accepts_iff.mp found
      exact absurd isHit (noHit source accepted.1 rest whole)

theorem getLast?_cons_or (char : Char) (text : Text) (previous : Option Char) :
    (char :: text).getLast?.or previous = text.getLast?.or (some char) := by
  rw [List.getLast?_cons]
  cases text.getLast? <;> rfl

section scanFrom

variable {recognise : Option Char → Text → Option (α × Nat)} {previous : Option Char}

private theorem scanFrom_length_append (recognise : Option Char → Text → Option (α × Nat))
    (source rest : Text) (previous : Option Char) :
    scanFrom recognise source.length previous (source ++ rest) =
      scanFrom recognise 0 (source.getLast?.or previous) rest := by
  induction source generalizing previous with
  | nil => rfl
  | cons char others ih =>
      rw [getLast?_cons_or]
      exact ih (some char)

theorem scanFrom_cons_of_rejected {char : Char} {rest : Text}
    (rejected : ∀ value size, recognise previous (char :: rest) ≠ some (value, size + 1)) :
    scanFrom recognise 0 previous (char :: rest) =
      .plain char :: scanFrom recognise 0 (some char) rest := by
  rw [scanFrom]
  split
  · next value size accepted => exact absurd accepted (rejected value size)
  · rfl

theorem scanFrom_append_of_eq_some {source rest : Text} {value : α} (notEmpty : source ≠ [])
    (accepted : recognise previous (source ++ rest) = some (value, source.length)) :
    scanFrom recognise 0 previous (source ++ rest) =
      .hit source value :: scanFrom recognise 0 source.getLast? rest := by
  cases source with
  | nil => exact absurd rfl notEmpty
  | cons char others =>
      have later := scanFrom_length_append recognise others rest (some char)
      rw [← getLast?_cons_or char others none, Option.or_none] at later
      rw [List.cons_append, List.length_cons] at accepted
      rw [List.cons_append, scanFrom, accepted]
      simpa using later

end scanFrom

/-- A scan goes on behind a hit with the last character of that hit. -/
theorem Recognises.cuts_scanFrom {recognise : Option Char → Text → Option (α × Nat)}
    {IsHit : Option Char → Text → α → Text → Prop} (recognises : Recognises recognise IsHit)
    (text : Text) (skip : Nat) (previous : Option Char) :
    Cuts IsHit ((text.take skip).getLast?.or previous) (text.drop skip)
      (scanFrom recognise skip previous text) := by
  induction text generalizing skip previous with
  | nil =>
      rw [List.drop_nil]
      exact .done
  | cons char rest ih =>
      cases skip with
      | succ skip =>
          rw [List.take_succ_cons, getLast?_cons_or]
          exact ih skip (some char)
      | zero =>
          rw [scanFrom]
          split
          · next value size accepted =>
              obtain ⟨source, behind, whole, sized, isHit⟩ := recognises.accepts_iff.mp accepted
              have parts : source = char :: rest.take size ∧ behind = rest.drop size := by
                have taken := congrArg (List.take (size + 1)) whole
                have dropped := congrArg (List.drop (size + 1)) whole
                rw [List.take_left' sized] at taken
                rw [List.drop_left' sized] at dropped
                exact ⟨taken.symm, dropped.symm⟩
              have later := ih size (some char)
              rw [← getLast?_cons_or char _ none, Option.or_none, ← parts.1, ← parts.2] at later
              rw [List.drop_zero, whole, ← parts.1]
              exact .hit isHit later
          · next rejected =>
              refine .plain (fun source value behind whole isHit => ?_) (ih 0 (some char))
              have accepted := recognises.accepts_iff.mpr ⟨source, behind, whole, rfl, isHit⟩
              have positive := List.length_pos_iff.mpr (recognises.ne_nil isHit)
              obtain ⟨size, sized⟩ := Nat.exists_eq_succ_of_ne_zero (Nat.ne_of_gt positive)
              rw [sized] at accepted
              exact rejected value size accepted

theorem Cuts.flatMap_source {IsHit : Option Char → Text → α → Text → Prop}
    {previous : Option Char} {text : Text} {pieces : List (Piece α)}
    (cuts : Cuts IsHit previous text pieces) : pieces.flatMap Piece.source = text := by
  induction cuts with
  | done => rfl
  | plain _ _ ih => rw [List.flatMap_cons, ih, Piece.source, List.singleton_append]
  | hit _ _ ih => rw [List.flatMap_cons, ih, Piece.source]

theorem Cuts.isHit_of_mem {IsHit : Option Char → Text → α → Text → Prop} {previous : Option Char}
    {text source : Text} {value : α} {pieces : List (Piece α)}
    (cuts : Cuts IsHit previous text pieces) (member : .hit source value ∈ pieces) :
    ∃ before behind, IsHit before source value behind := by
  induction cuts with
  | done => cases member
  | plain noHit later ih =>
      rcases List.mem_cons.mp member with same | inside
      · cases same
      · exact ih inside
  | @hit previous found rest result pieces isHit later ih =>
      rcases List.mem_cons.mp member with same | inside
      · cases same
        exact ⟨previous, rest, isHit⟩
      · exact ih inside

end DocComponents.Text
