import DocComponents.Proofs.Definition.FrontMatter
import DocComponents.Proofs.Definition.TagBlock

/-!
# Documents that are written for a definition

A definition is written with its values between double quotes, and its styles and its script as
blocks below the template. Such a document is read back as the definition exactly when neither block
is cut short by what it holds: the styles by a closing style tag, the script by a closing script tag
or by a block of styles in it.
-/

set_option autoImplicit false

namespace DocComponents.Definition

def frontLines (definition : Definition) : List Text :=
  FrontMatter.scalarLine "name".toList definition.name ::
    FrontMatter.scalarLine "description".toList definition.description ::
      "props:".toList :: definition.props.pairs.map FrontMatter.entryLine

/-- The template, with the blocks on lines of their own below it. -/
def body (definition : Definition) : Text :=
  definition.template ++
    '\n' :: (Tag.style.block definition.styles ++ '\n' :: Tag.script.block definition.script)

def write (definition : Definition) : Text :=
  "---\n".toList ++ Text.endLines definition.frontLines ++
    ("---\n".toList ++ (definition.body ++ ['\n']))

/-- A definition that a document can hold: what stands in the front matter stays on its line, what
stands in the body is trimmed, and the template is not empty and names neither tag. -/
structure IsWritable (definition : Definition) : Prop where
  named : definition.name ≠ []
  name : Text.IsOneLine definition.name
  description : Text.IsOneLine definition.description
  props : definition.props.AreDeclarable
  template : Text.IsTrimmed definition.template
  shown : definition.template ≠ []
  unnamed : ∀ tag : Tag, tag.isNamedIn definition.template = false
  styles : Text.IsTrimmed definition.styles
  script : Text.IsTrimmed definition.script

/-- A definition whose blocks end with the closing tags that are written behind them, and whose
script holds no block of styles. -/
structure IsClosedOnce (definition : Definition) : Prop where
  styles : Tag.style.splitAtClosing? definition.styles = none
  script : Tag.script.splitAtClosing? definition.script = none
  noStyles : Text.hits (Tag.style.pieces definition.script) = []

variable {definition : Definition}

theorem isInside_of_mem_frontLines (writable : definition.IsWritable) {line : Text}
    (member : line ∈ definition.frontLines) : FrontMatter.IsInside line := by
  simp only [frontLines, List.mem_cons, List.mem_map] at member
  rcases member with rfl | rfl | rfl | ⟨pair, declared, rfl⟩
  · exact ⟨by simp [FrontMatter.scalarLine],
      FrontMatter.isOneLine_scalarLine (by decide) writable.name⟩
  · exact ⟨by simp [FrontMatter.scalarLine],
      FrontMatter.isOneLine_scalarLine (by decide) writable.description⟩
  · exact ⟨by decide, by decide⟩
  · exact FrontMatter.isInside_entryLine (writable.props.key pair declared)
      (writable.props.value pair declared)

theorem scalar_name (writable : definition.IsWritable) :
    FrontMatter.scalar (Text.endLines definition.frontLines) "name".toList = definition.name := by
  rw [frontLines, Text.endLines_cons, FrontMatter.scalar,
    FrontMatter.scalarFrom?_scalarLine _ writable.name]
  rfl

theorem scalar_description (writable : definition.IsWritable) :
    FrontMatter.scalar (Text.endLines definition.frontLines) "description".toList =
      definition.description := by
  -- The line of the name gives no description, whatever the name is.
  have noLineFeed : '\n' ∉ FrontMatter.scalarLine "name".toList definition.name :=
    (FrontMatter.isOneLine_scalarLine (by decide) writable.name).not_mem (by decide)
  rw [frontLines, Text.endLines_cons, FrontMatter.scalar,
    FrontMatter.scalarFrom?_append noLineFeed (fun _ => rfl), Text.endLines_cons,
    FrontMatter.scalarFrom?_scalarLine _ writable.description]
  rfl

theorem map_props (writable : definition.IsWritable) :
    FrontMatter.map (Text.endLines definition.frontLines) "props".toList = definition.props := by
  have lines := Text.lines_endLines fun line member =>
    (isInside_of_mem_frontLines writable member).oneLine
  have notBlank : 'p' ≠ ' ' := by decide
  have entries := FrontMatter.mapPairs_entryLines notBlank "rops".toList writable.props.key
  have pairs : FrontMatter.mapPairs "props".toList false definition.frontLines =
      definition.props.pairs := entries
  rw [FrontMatter.map, lines, pairs, Props.ofPairs_pairs]

theorem split?_write (writable : definition.IsWritable) :
    FrontMatter.split? definition.write =
      some (Text.endLines definition.frontLines, definition.body) := by
  have inside : ∀ line ∈ definition.frontLines, FrontMatter.IsInside line := fun line =>
    isInside_of_mem_frontLines writable
  have trimmed : Text.IsTrimmed definition.body := by
    obtain ⟨first, rest, whole⟩ := List.exists_cons_of_ne_nil writable.shown
    constructor
    · intro char found
      apply writable.template.head char
      simpa [body, whole] using found
    · intro char found
      have last : definition.body.getLast? = some '>' := by
        have shape : definition.body = (definition.template ++ '\n' ::
            (Tag.style.block definition.styles ++ '\n' :: (Tag.script.opening ++
              definition.script ++ '<' :: '/' :: Tag.script.name))) ++ ['>'] := by
          simp [body, Tag.block, Tag.closing]
        rw [shape, List.getLast?_concat]
      rw [last] at found
      cases found
      decide
  rw [write, FrontMatter.split?_endLines inside,
    Text.trim_append_blanks _ Text.isBlankText_lineFeed, trimmed.trim_eq]

/-- The styles that are read end where the first closing style tag begins. -/
theorem extract_styles (writable : definition.IsWritable) :
    (Tag.style.extract definition.body).1 =
      Text.trim (Tag.style.beforeClosing definition.styles) :=
  Tag.extract_block_fst (writable.unnamed .style) definition.styles _

/-- Behind styles that end with their block, the script has lost its blocks of styles. -/
theorem body_without_styles (writable : definition.IsWritable)
    (open_ : Tag.style.splitAtClosing? definition.styles = none) :
    (Tag.style.extract definition.body).2 =
      definition.template ++ ['\n'] ++
        '\n' :: (Tag.script.block (Tag.style.extract definition.script).2 ++ []) := by
  have taken := Tag.extract_block_snd (writable.unnamed .style) open_
    ('\n' :: Tag.script.block definition.script)
  rw [Tag.extract_other_block (by decide)] at taken
  rw [body, taken]
  simp [Tag.block]

theorem unnamed_line (writable : definition.IsWritable) (tag : Tag) :
    tag.isNamedIn (definition.template ++ ['\n']) = false := by
  rw [Tag.isNamedIn_append_cons Tag.isOutside_lineFeed (by decide), writable.unnamed tag]
  rfl

theorem extract_script (writable : definition.IsWritable)
    (open_ : Tag.style.splitAtClosing? definition.styles = none) :
    (Tag.script.extract (Tag.style.extract definition.body).2).1 =
      Text.trim (Tag.script.beforeClosing (Tag.style.extract definition.script).2) := by
  rw [body_without_styles writable open_]
  exact Tag.extract_block_fst (unnamed_line writable .script) _ []

theorem extract_template (writable : definition.IsWritable) (once : definition.IsClosedOnce) :
    Text.trim (Tag.script.extract (Tag.style.extract definition.body).2).2 =
      definition.template := by
  have script : (Tag.style.extract definition.script).2 = definition.script :=
    Tag.extract_snd_of_hits_eq_nil once.noStyles
  have blanks : Text.IsBlankText ['\n', '\n'] := Text.isBlankText_replicate (by decide) 2
  have empty : (Tag.script.extract []).2 = [] := rfl
  have left : definition.template ++ ['\n'] ++ '\n' :: (Tag.script.extract []).2 =
      definition.template ++ ['\n', '\n'] := by
    rw [empty, List.append_assoc]
    rfl
  rw [body_without_styles writable once.styles, script,
    Tag.extract_block_snd (unnamed_line writable .script) once.script [], left,
    Text.trim_append_blanks _ blanks, writable.template.trim_eq]

theorem read?_write (writable : definition.IsWritable) (path : Text) :
    read? definition.write path =
      if (Text.trim (Tag.script.extract (Tag.style.extract definition.body).2).2).isEmpty then none
      else
        some
          { definition with
            template := Text.trim (Tag.script.extract (Tag.style.extract definition.body).2).2
            styles := (Tag.style.extract definition.body).1
            script := (Tag.script.extract (Tag.style.extract definition.body).2).1
            sourcePath := path } := by
  have declared : definition.name.isEmpty = false := by simpa using writable.named
  rw [read?, split?_write writable]
  simp only [scalar_name writable, scalar_description writable, map_props writable, declared,
    Bool.false_eq_true, ↓reduceIte]

/-- Styles that are read back as they are hold no closing style tag. -/
theorem styles_open_of_trim_eq {styles : Text}
    (same : Text.trim (Tag.style.beforeClosing styles) = styles) :
    Tag.style.splitAtClosing? styles = none := by
  have trimmed := Text.length_trim_le (Tag.style.beforeClosing styles)
  obtain ⟨shorter, open_⟩ := Tag.length_beforeClosing_le .style styles
  rw [same] at trimmed
  exact open_ (Nat.le_antisymm shorter trimmed)

theorem script_open_of_trim_eq {script : Text}
    (same : Text.trim (Tag.script.beforeClosing (Tag.style.extract script).2) = script) :
    Tag.script.splitAtClosing? script = none ∧ Text.hits (Tag.style.pieces script) = [] := by
  have trimmed := Text.length_trim_le (Tag.script.beforeClosing (Tag.style.extract script).2)
  obtain ⟨shorter, open_⟩ := Tag.length_beforeClosing_le .script (Tag.style.extract script).2
  have taken := Tag.length_extract_snd .style script
  rw [same] at trimmed
  -- Nothing is lost on the way, so there was nothing to take out and nothing to cut off.
  have noBlock : Text.hits (Tag.style.pieces script) = [] := by
    apply List.length_eq_zero_iff.mp
    omega
  rw [Tag.extract_snd_of_hits_eq_nil noBlock] at open_ trimmed shorter
  exact ⟨open_ (Nat.le_antisymm shorter trimmed), noBlock⟩

/-- The document of a definition is read back as this definition, found at the path, exactly when
its blocks are closed once. -/
theorem read?_write_iff (writable : definition.IsWritable) (path : Text) :
    read? definition.write path = some { definition with sourcePath := path } ↔
      definition.IsClosedOnce := by
  rw [read?_write writable]
  constructor
  · intro read
    split at read
    · cases read
    · have fields := Option.some.inj read
      have styles := congrArg Definition.styles fields
      have script := congrArg Definition.script fields
      dsimp only at styles script
      rw [extract_styles writable] at styles
      have open_ := styles_open_of_trim_eq styles
      rw [extract_script writable open_] at script
      obtain ⟨closedOnce, noStyles⟩ := script_open_of_trim_eq script
      exact ⟨open_, closedOnce, noStyles⟩
  · intro once
    have styles : (Tag.style.extract definition.body).1 = definition.styles := by
      rw [extract_styles writable, Tag.beforeClosing_of_eq_none once.styles,
        writable.styles.trim_eq]
    have script : (Tag.script.extract (Tag.style.extract definition.body).2).1 =
        definition.script := by
      rw [extract_script writable once.styles, Tag.extract_snd_of_hits_eq_nil once.noStyles,
        Tag.beforeClosing_of_eq_none once.script, writable.script.trim_eq]
    have shown : definition.template.isEmpty = false := by simpa using writable.shown
    rw [extract_template writable once, styles, script, shown]
    rfl

/-- A definition whose values look like keys, rules, quotes and tags. -/
def lookalikes : Definition where
  name := "--- name: \"x\"".toList
  template := "---\n<styl><b>{{name}}</b></script>".toList
  description := "props:".toList
  props := .ofPairs
    [("name".toList, "'---'".toList), ("2-b".toList, "  c: \"<style>\" ".toList)]
  styles := "name: .a { } </styl".toList
  script := "props['name'] = '<style></STYLE'".toList

theorem read?_write_lookalikes :
    lookalikes.IsWritable ∧ lookalikes.IsClosedOnce ∧
      read? lookalikes.write "x.md".toList =
        some { lookalikes with sourcePath := "x.md".toList } := by
  have writable : lookalikes.IsWritable :=
    ⟨by decide +kernel, by decide +kernel, by decide +kernel,
      ⟨by decide +kernel, by decide +kernel⟩, by decide +kernel, by decide +kernel,
      fun tag => by cases tag <;> decide +kernel, by decide +kernel, by decide +kernel⟩
  have once : lookalikes.IsClosedOnce :=
    ⟨by decide +kernel, by decide +kernel, by decide +kernel⟩
  exact ⟨writable, once, (read?_write_iff writable _).mpr once⟩

/-- A definition whose styles hold a closing tag in capitals. -/
def shouted : Definition where
  name := "x".toList
  template := "<p></p>".toList
  styles := "a{}</STYLE>b{}".toList

/-- A closing tag in capitals cuts the styles short as one in small letters does. -/
theorem read?_write_shouted :
    shouted.IsWritable ∧ ¬ "</style".toList <:+: shouted.styles ∧
      ¬ "</script".toList <:+: shouted.script ∧ ¬ "<style".toList <:+: shouted.script ∧
      read? shouted.write "x.md".toList ≠ some { shouted with sourcePath := "x.md".toList } := by
  have writable : shouted.IsWritable :=
    ⟨by decide +kernel, by decide +kernel, by decide +kernel,
      ⟨by decide +kernel, by decide +kernel⟩, by decide +kernel, by decide +kernel,
      fun tag => by cases tag <;> decide +kernel, by decide +kernel, by decide +kernel⟩
  exact ⟨writable, by decide +kernel, by decide +kernel, by decide +kernel, by decide +kernel⟩

end DocComponents.Definition
