import DocComponents.Invocation.Writer
import DocComponents.Proofs.Text.Cut
import DocComponents.Proofs.Text.Lines

/-!
# Blocks of invocations

A line feed between two texts ends the last line of the first one, or it is an empty line, and an
empty line is no invocation. So a block is read line by line: each line gives what it gives alone,
whatever stands above and below it, and the fences around the lines give nothing.
-/

set_option autoImplicit false

namespace DocComponents.Invocation

theorem readBlock_concat_lineFeed (body : Text) :
    readBlock (body ++ ['\n']) = readBlock body := by
  unfold readBlock
  rcases Text.lines_concat_lineFeed body with same | another
  · rw [same]
  · have noInvocation : read? [] = none := rfl
    rw [another, List.filterMap_append]
    simp [noInvocation]

theorem readBlock_append_cons (above below : Text) :
    readBlock (above ++ '\n' :: below) = readBlock above ++ readBlock below := by
  have ended : readBlock (above ++ '\n' :: below) =
      readBlock (above ++ ['\n']) ++ readBlock below := by
    unfold readBlock
    rw [Text.lines_append_lineFeed_append, List.filterMap_append]
  rw [ended, readBlock_concat_lineFeed]

theorem readBlock_join (lines : List Text) :
    readBlock (Text.join ['\n'] lines) = lines.flatMap readBlock := by
  induction lines with
  | nil => rfl
  | cons line rest ih =>
      cases rest with
      | nil => simp [Text.join]
      | cons next others =>
          rw [Text.join_cons_cons, List.singleton_append, readBlock_append_cons, ih]
          exact List.flatMap_cons.symm

theorem writeBlock_eq (lines : List Text) :
    writeBlock lines =
      "```component".toList ++ '\n' :: (Text.join ['\n'] lines ++ '\n' :: "```".toList) := by
  have opening : "```component\n".toList = "```component".toList ++ ['\n'] := by decide
  have closing : "\n```".toList = '\n' :: "```".toList := by decide
  unfold writeBlock
  rw [opening, closing]
  simp

theorem readBlock_writeBlock (lines : List Text) :
    readBlock (writeBlock lines) = readBlock (Text.join ['\n'] lines) := by
  have opening : readBlock "```component".toList = [] := by decide
  have closing : readBlock "```".toList = [] := by decide
  rw [writeBlock_eq, readBlock_append_cons, readBlock_append_cons, opening, closing,
    List.nil_append, List.append_nil]

/-- The lines of a block are independent. Two texts with a line feed between them are read like
either alone, at any seam; a written block gives what its lines give one by one; and a line that is
no invocation can be left out. -/
theorem block_lines_independent :
    (∀ above below, readBlock (above ++ '\n' :: below) = readBlock above ++ readBlock below) ∧
      (∀ lines, readBlock (writeBlock lines) = lines.flatMap readBlock) ∧
      ∀ lines, readBlock (writeBlock (lines.filter fun line => !(readBlock line).isEmpty)) =
        readBlock (writeBlock lines) := by
  have read (lines : List Text) : readBlock (writeBlock lines) = lines.flatMap readBlock :=
    (readBlock_writeBlock lines).trans (readBlock_join lines)
  refine ⟨readBlock_append_cons, read, fun lines => ?_⟩
  rw [read, read]
  induction lines with
  | nil => rfl
  | cons line rest ih =>
      by_cases noInvocation : (readBlock line).isEmpty = true
      · rw [List.filter_cons_of_neg (by simpa using noInvocation), ih, List.flatMap_cons,
          List.isEmpty_iff.mp noInvocation, List.nil_append]
      · rw [List.filter_cons_of_pos (by simpa using noInvocation), List.flatMap_cons, ih,
          List.flatMap_cons]

/-- A carriage return in front of the seam, a line that is no invocation, and one that ends with a
separator of its own. -/
example :
    (readBlock (writeBlock ["badge\r".toList, "card(".toList, "note\u2028".toList])).map name =
      ["badge".toList, "note".toList] := by
  decide

end DocComponents.Invocation
