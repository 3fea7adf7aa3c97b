import DocComponents.Definition.Reader
import DocComponents.Proofs.Definition.Declared
import DocComponents.Proofs.Script.Layout
import DocComponents.Proofs.Script.Run
import DocComponents.Proofs.Text.Trim

/-!
# Indented scripts

The inner text of a script block is trimmed as a whole, which takes the indentation away from its
first line and leaves it on the others. So what a script means depends on how far its lines are
indented: with several statements, only a script without indentation runs.
-/

set_option autoImplicit false

namespace DocComponents.Script

/-- The lines stand in a text, one on a line, each behind the same number of spaces. -/
def HoldsLines (count : Nat) (lines : List Text) (block : Text) : Prop :=
  ∃ before after, Text.IsBlankText before ∧ Text.IsBlankText after ∧
    block = before ++ Text.join ['\n'] (lines.map (indented count)) ++ after

/-- Trimmed, the last line of a script is still a line with the same statement. -/
theorem exists_trimmed_line {line : Text} (isLine : IsStatementLine line) :
    ∃ core after, line = core ++ after ∧ Text.IsBlankText after ∧ Text.IsTrimmed core ∧
      IsStatementLine core ∧ readStatement? core = readStatement? line := by
  obtain ⟨before, after, whole, blankBefore, blankAfter⟩ := Text.exists_blanks_around_trim line
  have none : before = [] := by
    cases before with
    | nil => rfl
    | cons char rest =>
        have first := isLine.start char (by rw [whole]; rfl)
        rw [blankBefore char List.mem_cons_self] at first
        cases first
  rw [none, List.nil_append] at whole
  obtain ⟨statement, read⟩ := isLine.statement
  have trimmed := Text.isTrimmed_trim line
  have same : readStatement? (Text.trim line) = some statement := by
    rw [whole] at read
    exact readStatement?_of_append_blanks blankAfter read
  have oneLine : Text.IsOneLine (Text.trim line) := fun char member =>
    isLine.oneLine char (Text.mem_of_mem_trim member)
  exact ⟨Text.trim line, after, whole, blankAfter, trimmed,
    ⟨oneLine, trimmed.head, statement, same⟩, same.trans read.symm⟩

theorem holdsLines_of_append_blanks {count : Nat} {initial : List Text} {last blanks block : Text}
    (allBlank : Text.IsBlankText blanks)
    (holds : HoldsLines count (initial ++ [last ++ blanks]) block) :
    HoldsLines count (initial ++ [last]) block := by
  obtain ⟨before, after, blankBefore, blankAfter, rfl⟩ := holds
  obtain ⟨lead, ends⟩ := Text.exists_lead_join ['\n'] (initial.map (indented count))
  refine ⟨before, blanks ++ after, blankBefore, allBlank.append blankAfter, ?_⟩
  rw [List.map_append, List.map_append, List.map_cons, List.map_cons, List.map_nil, ends, ends]
  simp [indented]

section Layout

variable {first : Text} {rest : List Text}

theorem isTrimmed_layout (areLines : ∀ line ∈ first :: rest, IsStatementLine line)
    (trimmedLast : ∀ last, (first :: rest).getLast? = some last → Text.IsTrimmed last)
    (count : Nat) : Text.IsTrimmed (Text.join ['\n'] (first :: rest.map (indented count))) := by
  have firstLine := areLines first List.mem_cons_self
  constructor
  · intro char found
    rw [Text.head?_join_cons ['\n'] firstLine.isShownLine.ne_nil] at found
    exact firstLine.start char found
  · intro char found
    rcases List.eq_nil_or_concat' rest with rfl | ⟨initial, last, rfl⟩
    · exact (trimmedLast first rfl).last char found
    · have lastLine := areLines last (by simp)
      have trimmed := trimmedLast last (by rw [← List.cons_append, List.getLast?_concat])
      obtain ⟨lead, ends⟩ := Text.exists_lead_join ['\n'] (first :: initial.map (indented count))
      have shape : first :: (initial ++ [last]).map (indented count) =
          first :: initial.map (indented count) ++ [indented count last] := by simp
      rw [shape, ends, indented, ← List.append_assoc,
        List.getLast?_append_of_ne_nil _ lastLine.isShownLine.ne_nil] at found
      exact trimmed.last char found

/-- Trimming a block takes the indentation away from its first line only. -/
theorem trim_of_holdsLines (areLines : ∀ line ∈ first :: rest, IsStatementLine line)
    (trimmedLast : ∀ last, (first :: rest).getLast? = some last → Text.IsTrimmed last)
    {count : Nat} {block : Text} (holds : HoldsLines count (first :: rest) block) :
    Text.trim block = Text.join ['\n'] (first :: rest.map (indented count)) := by
  obtain ⟨before, after, blankBefore, blankAfter, rfl⟩ := holds
  have spaces := Text.isBlankText_replicate (show Text.isBlank ' ' = true by decide) count
  have pad := Text.trim_pad (blankBefore.append spaces) blankAfter
    (isTrimmed_layout areLines trimmedLast count)
  rw [List.map_cons, indented, Text.join_append_cons]
  simpa using pad

end Layout

/-- A trimmed block has its first line without indentation and the others where they stood. -/
theorem exists_layout {lines : List Text} (areLines : ∀ line ∈ lines, IsStatementLine line)
    (notEmpty : lines ≠ []) :
    ∃ first rest, (∀ line ∈ first :: rest, IsStatementLine line) ∧
      (first :: rest).map readStatement? = lines.map readStatement? ∧
      ∀ count block, HoldsLines count lines block →
        Text.trim block = Text.join ['\n'] (first :: rest.map (indented count)) := by
  obtain ⟨initial, last, rfl⟩ := (List.eq_nil_or_concat' lines).resolve_left notEmpty
  obtain ⟨core, blanks, rfl, allBlank, trimmed, coreLine, same⟩ :=
    exists_trimmed_line (areLines last (by simp))
  have trimmedLines : ∀ line ∈ initial ++ [core], IsStatementLine line := by
    intro line member
    rcases List.mem_append.mp member with before | isCore
    · exact areLines line (List.mem_append_left _ before)
    · rw [List.mem_singleton.mp isCore]
      exact coreLine
  have statements : (initial ++ [core]).map readStatement? =
      (initial ++ [core ++ blanks]).map readStatement? := by
    simp [same]
  have trimmedLast : ∀ line, (initial ++ [core]).getLast? = some line → Text.IsTrimmed line := by
    intro line found
    rw [List.getLast?_concat] at found
    cases found
    exact trimmed
  have kept (count : Nat) (block : Text)
      (holds : HoldsLines count (initial ++ [core ++ blanks]) block) :
      HoldsLines count (initial ++ [core]) block := holdsLines_of_append_blanks allBlank holds
  obtain ⟨first, rest, layout⟩ := List.exists_cons_of_ne_nil (List.concat_ne_nil core initial)
  rw [layout] at trimmedLines statements trimmedLast kept
  exact ⟨first, rest, trimmedLines, statements, fun count block holds =>
    trim_of_holdsLines trimmedLines trimmedLast (kept count block holds)⟩

/-- The inner text of the first script block of a document. -/
def scriptBlock? (content : Text) : Option Text :=
  (FrontMatter.split? content).bind fun parts =>
    (Text.hits (Tag.script.pieces (Tag.style.extract parts.2).2)).head?

/-- The script block of a document holds the lines, each behind the same number of spaces. -/
def HoldsScript (content : Text) (count : Nat) (lines : List Text) : Prop :=
  ∃ block, scriptBlock? content = some block ∧ HoldsLines count lines block

theorem exists_block_of_holdsScript {content path : Text} {definition : Definition}
    {lines : List Text} {count : Nat} (read : Definition.read? content path = some definition)
    (holds : HoldsScript content count lines) :
    ∃ block, HoldsLines count lines block ∧ definition.script = Text.trim block := by
  obtain ⟨front, body, found, -, script⟩ := Definition.exists_split_of_read? read
  obtain ⟨block, first, holdsLines⟩ := holds
  rw [scriptBlock?, found, Option.bind_some] at first
  refine ⟨block, holdsLines, ?_⟩
  rw [script, Tag.extract, List.headD_eq_head?_getD, first]
  rfl

section Rendering

variable {definition : Definition} (token : Text) {options : RenderOptions} (overrides : Props)
  (container : Element Node)

theorem render_of_disabled {runtime : ScriptRuntime} (disabled : options.enableScripts = false)
    (script : Text) :
    render runtime token options { definition with script } overrides container =
      render runtime token options definition overrides container := by
  have skipped (text : Text) : (text.isEmpty || !options.enableScripts) = true := by
    simp [disabled]
  unfold render
  rw [if_pos (skipped _), if_pos (skipped _)]
  rfl

theorem log_of_read_eq_error {fault : LayoutFault} (notEmpty : definition.script ≠ [])
    (read : read definition.script = .error fault) (enabled : options.enableScripts = true) :
    (render .inProcess token options definition overrides container).log =
      [scriptFailureEntry definition token
        (.rejected definition.name ("invalid script syntax: ".toList ++ fault.message))] := by
  have runs : ¬ (definition.script.isEmpty || !options.enableScripts) = true := by
    simp [notEmpty, enabled]
  unfold render ScriptRuntime.inProcess
  dsimp only
  rw [if_neg runs, read]
  rfl

theorem isOwn_of_mem_log {statements : List Statement}
    (read : read definition.script = .ok statements) {entry : Log.Entry}
    (member : entry ∈ (render .inProcess token options definition overrides container).log) :
    ∃ failure : Failure, failure.IsOwn ∧ entry = scriptFailureEntry definition token failure := by
  unfold render ScriptRuntime.inProcess at member
  dsimp only at member
  split at member
  · cases member
  · rw [read] at member
    obtain ⟨failure, failed, rfl⟩ := List.mem_map.mp member
    exact ⟨failure, isOwn_of_run (Option.mem_toList.mp failed), rfl⟩

end Rendering

theorem trim_of_holdsLines_nil {count : Nat} {block : Text} (holds : HoldsLines count [] block) :
    Text.trim block = [] := by
  obtain ⟨before, after, blankBefore, blankAfter, rfl⟩ := holds
  exact Text.trim_pad blankBefore blankAfter ⟨by simp [Text.join], by simp [Text.join]⟩

/-- What two blocks with the same lines give: without indentation the lines are read in order, and
behind spaces the second of them is out of place. -/
theorem layouts_of_holdsLines {lines : List Text} (areLines : ∀ line ∈ lines, IsStatementLine line)
    {count : Nat} {block shifted : Text} (holds : HoldsLines 0 lines block)
    (holdsShifted : HoldsLines count lines shifted) :
    (count = 0 ∨ lines.length ≤ 1 → Text.trim shifted = Text.trim block) ∧
      (0 < count → 1 < lines.length →
        read (Text.trim block) = .ok (lines.filterMap readStatement?) ∧
          Text.trim shifted ≠ [] ∧ read (Text.trim shifted) = .error .unexpectedIndent) := by
  by_cases notEmpty : lines = []
  · subst notEmpty
    rw [trim_of_holdsLines_nil holds, trim_of_holdsLines_nil holdsShifted]
    simp
  · obtain ⟨first, rest, statements, same, layout⟩ := exists_layout areLines notEmpty
    have length : rest.length + 1 = lines.length := by
      simpa using congrArg List.length same
    have aligned : Text.trim block = Text.join ['\n'] (first :: rest) := by
      rw [layout 0 block holds, List.map_congr_left fun line _ => indented_zero line]
      simp
    rw [aligned, layout count shifted holdsShifted]
    constructor
    · rintro (rfl | short)
      · rw [List.map_congr_left fun line _ => indented_zero line]
        simp
      · have none : rest = [] := List.length_eq_zero_iff.mp (by omega)
        rw [none]
        rfl
    · intro right several
      have someRest : rest ≠ [] := by
        rintro rfl
        simp at length
        omega
      have shown := (statements first List.mem_cons_self).isShownLine
      refine ⟨?_, ?_, read_shifted statements someRest right⟩
      · rw [read_aligned statements]
        have values := congrArg (List.filterMap id) same
        rw [List.filterMap_map, List.filterMap_map] at values
        exact congrArg Except.ok values
      · have heads := Text.head?_join_cons ['\n'] shown.ne_nil (rest.map (indented count))
        intro empty
        rw [empty] at heads
        exact shown.ne_nil (List.head?_eq_none_iff.mp heads.symm)

/-- Two documents that declare the same but for the indentation of their scripts are rendered alike
exactly if scripts are not executed, if there is no more than one statement, or if there is no
indentation. Otherwise the second statement is out of place, and the failure is logged. -/
theorem indented_script_same_iff {content shiftedContent path : Text}
    {definition shifted : Definition} {lines : List Text} {count : Nat}
    (read : Definition.read? content path = some definition)
    (readShifted : Definition.read? shiftedContent path = some shifted)
    (others : shifted = { definition with script := shifted.script })
    (areLines : ∀ line ∈ lines, IsStatementLine line)
    (holds : HoldsScript content 0 lines) (holdsShifted : HoldsScript shiftedContent count lines)
    (token : Text) (options : RenderOptions) (overrides : Props) (container : Element Node) :
    let rendering := render .inProcess token options definition overrides container
    let shiftedRendering := render .inProcess token options shifted overrides container
    shiftedRendering.container.html = rendering.container.html ∧
        shiftedRendering.log = rendering.log ↔
      options.enableScripts = false ∨ count = 0 ∨ lines.length ≤ 1 := by
  intro rendering shiftedRendering
  obtain ⟨block, isBlock, script⟩ := exists_block_of_holdsScript read holds
  obtain ⟨shiftedBlock, isShiftedBlock, shiftedScript⟩ :=
    exists_block_of_holdsScript readShifted holdsShifted
  obtain ⟨sameScript, otherScript⟩ := layouts_of_holdsLines areLines isBlock isShiftedBlock
  rw [← script, ← shiftedScript] at sameScript otherScript
  constructor
  · rintro ⟨-, sameLog⟩
    by_contra differs
    simp only [not_or, Bool.not_eq_false, Nat.not_le] at differs
    obtain ⟨enabled, right, several⟩ := differs
    obtain ⟨readable, notEmpty, outOfPlace⟩ := otherScript (Nat.pos_of_ne_zero right) several
    have shiftedLog := log_of_read_eq_error token overrides container notEmpty outOfPlace enabled
    have logged := List.mem_singleton_self (scriptFailureEntry shifted token
      (.rejected shifted.name ("invalid script syntax: ".toList ++
        LayoutFault.unexpectedIndent.message)))
    rw [← shiftedLog] at logged
    obtain ⟨failure, own, entry⟩ :=
      isOwn_of_mem_log token overrides container readable (sameLog ▸ logged)
    exact scriptFailureEntry_ne own entry.symm
  · intro harmless
    have same : shiftedRendering = rendering := by
      rcases harmless with disabled | aligned
      · simp only [shiftedRendering, rendering]
        rw [others]
        exact render_of_disabled token overrides container disabled _
      · have equal : shifted = definition := by
          rw [others, sameScript aligned]
        simp only [shiftedRendering, rendering, equal]
    rw [same]
    exact ⟨rfl, rfl⟩

def scriptedDocument (count : Nat) (lines : List Text) : Text :=
  "---\nname: x\n---\n<p>hi</p>\n<script>\n".toList ++
    Text.join ['\n'] (lines.map (indented count)) ++ "\n</script>\n".toList

def scripted (script : String) : Definition where
  name := "x".toList
  template := "<p>hi</p>".toList
  script := script.toList
  sourcePath := "x.md".toList

theorem holdsScript_of_scriptBlock? {count : Nat} {lines : List Text}
    (found : scriptBlock? (scriptedDocument count lines) =
      some (['\n'] ++ Text.join ['\n'] (lines.map (indented count)) ++ ['\n'])) :
    HoldsScript (scriptedDocument count lines) count lines :=
  ⟨_, found, ['\n'], ['\n'], Text.isBlankText_lineFeed, Text.isBlankText_lineFeed, rfl⟩

/-- A script on two lines that does nothing to the element. -/
def quietLines : List Text :=
  ["pass".toList, "props['a'] = \"1\"  # kept ".toList]

theorem indented_script_differs_quiet :
    let definition := scripted "pass\nprops['a'] = \"1\"  # kept"
    let shifted := scripted "pass\n  props['a'] = \"1\"  # kept"
    let rendering := render .inProcess "mdc-x-000001".toList {} definition .empty {}
    let shiftedRendering := render .inProcess "mdc-x-000001".toList {} shifted .empty {}
    Definition.read? (scriptedDocument 0 quietLines) "x.md".toList = some definition ∧
      Definition.read? (scriptedDocument 2 quietLines) "x.md".toList = some shifted ∧
      ¬ (shiftedRendering.container.html = rendering.container.html ∧
        shiftedRendering.log = rendering.log) := by
  intro definition shifted rendering shiftedRendering
  have read : Definition.read? (scriptedDocument 0 quietLines) "x.md".toList =
      some definition := by
    decide +kernel
  have readShifted : Definition.read? (scriptedDocument 2 quietLines) "x.md".toList =
      some shifted := by
    decide +kernel
  have areLines : ∀ line ∈ quietLines, IsStatementLine line := by
    decide +kernel
  have same := indented_script_same_iff read readShifted rfl areLines
    (holdsScript_of_scriptBlock? (by decide +kernel))
    (holdsScript_of_scriptBlock? (by decide +kernel)) "mdc-x-000001".toList {} .empty {}
  refine ⟨read, readShifted, fun equal => ?_⟩
  have harmless := same.mp equal
  revert harmless
  decide

def classLines : List Text :=
  ["el.add_class('a')".toList, "el.add_class('b')".toList]

/-- Behind four spaces, this script does not run: it adds no class, and a failure is logged. -/
theorem indented_script_lost_two_classes :
    let definition := scripted "el.add_class('a')\nel.add_class('b')"
    let shifted := scripted "el.add_class('a')\n    el.add_class('b')"
    let rendering := render .inProcess "mdc-x-000001".toList {} definition .empty {}
    let shiftedRendering := render .inProcess "mdc-x-000001".toList {} shifted .empty {}
    (∀ line ∈ classLines, IsStatementLine line) ∧
      HoldsScript (scriptedDocument 0 classLines) 0 classLines ∧
      HoldsScript (scriptedDocument 4 classLines) 4 classLines ∧
      Definition.read? (scriptedDocument 0 classLines) "x.md".toList = some definition ∧
      Definition.read? (scriptedDocument 4 classLines) "x.md".toList = some shifted ∧
      shiftedRendering.container.html ≠ rendering.container.html ∧
      rendering.log = [] ∧ shiftedRendering.log.length = 1 := by
  refine ⟨by decide +kernel, holdsScript_of_scriptBlock? (by decide +kernel),
    holdsScript_of_scriptBlock? (by decide +kernel), ?_⟩
  decide +kernel

end DocComponents.Script
