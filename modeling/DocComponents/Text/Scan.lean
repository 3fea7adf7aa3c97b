import DocComponents.Text.Basic

/-!
# Left-to-right scanning

A scan walks over a text once. Where a recogniser accepts a non-empty beginning of what is left,
that beginning becomes one hit and the scan resumes behind it; every other character stands for
itself. The sources of the pieces, one after the other, are the scanned text.
-/

set_option autoImplicit false

namespace DocComponents.Text

/-- One piece of a scanned text: a character that belongs to no hit, or a hit with what the
recogniser made of it. -/
inductive Piece (α : Type) where
  | plain (char : Char)
  | hit (source : Text) (value : α)
  deriving Repr, DecidableEq

def Piece.source {α : Type} : Piece α → Text
  | .plain char => [char]
  | .hit source _ => source

/-- Scan with a recogniser that sees the character before what is left, and answers the value and
the length of what it accepts. The first argument counts the characters that still belong to the
last hit. -/
def scanFrom {α : Type} (recognise : Option Char → Text → Option (α × Nat)) :
    (skip : Nat) → (previous : Option Char) → Text → List (Piece α)
  | _, _, [] => []
  | skip + 1, _, char :: rest => scanFrom recognise skip (some char) rest
  | 0, previous, char :: rest =>
    match recognise previous (char :: rest) with
    | some (value, size + 1) =>
      .hit (char :: rest.take size) value :: scanFrom recognise size (some char) rest
    | _ => .plain char :: scanFrom recognise 0 (some char) rest

/-- The pieces of a text under a recogniser that does not look back. -/
def scan {α : Type} (recognise : Text → Option (α × Nat)) (text : Text) : List (Piece α) :=
  scanFrom (fun _ => recognise) 0 none text

def hits {α : Type} (pieces : List (Piece α)) : List α :=
  pieces.filterMap fun
    | .plain _ => none
    | .hit _ value => some value

/-- The text in which each hit gives way to what `write` makes of it. -/
def replaceHits {α : Type} (write : α → Text) (pieces : List (Piece α)) : Text :=
  pieces.flatMap fun
    | .plain char => [char]
    | .hit _ value => write value

/-- Every occurrence of a non-empty pattern, found from left to right, replaced by a text. -/
def replace (pattern replacement text : Text) : Text :=
  replaceHits (fun _ => replacement)
    (scan (fun rest => if startsWith rest pattern then some ((), pattern.length) else none) text)

theorem source_scanFrom {α : Type} (recognise : Option Char → Text → Option (α × Nat))
    (text : Text) : ∀ skip previous,
      (scanFrom recognise skip previous text).flatMap Piece.source = text.drop skip := by
  induction text with
  | nil => intro skip previous; simp [scanFrom]
  | cons char rest ih =>
      intro skip previous
      cases skip with
      | succ skip => simpa [scanFrom] using ih skip (some char)
      | zero =>
          simp only [scanFrom]
          split
          · simp [Piece.source, ih]
          · simp [Piece.source, ih]

/-- A scan loses nothing: the sources of its pieces are the text. -/
theorem source_scan {α : Type} (recognise : Text → Option (α × Nat)) (text : Text) :
    (scan recognise text).flatMap Piece.source = text := by
  simpa [scan] using source_scanFrom (fun _ => recognise) text 0 none

end DocComponents.Text
