import DocComponents.Proofs.Definition.Block
import DocComponents.Proofs.Definition.Rules
import DocComponents.Proofs.Text.LineEndings

/-!
# Line endings of component documents

Every reader of a component document answers the twin of its answer when each line feed of the
document has a carriage return before it: a rule takes one carriage return in, a scalar and a line
of a map lose it with the blanks around them, and no tag holds one in its name. So a document and
its twin declare one component, up to the line endings of its template, its styles and its script.
-/

set_option autoImplicit false

namespace DocComponents

/-! ### Front matter -/

namespace FrontMatter

/-- What a rule leaves of a twin: a line feed behind it has lost its carriage return. -/
def crlfBehind (text : Text) : Text :=
  afterOptionalReturn (Text.crlf text)

theorem trim_afterOptionalReturn (text : Text) :
    Text.trim (afterOptionalReturn text) = Text.trim text := by
  unfold afterOptionalReturn
  split
  · next rest =>
      have blank : Text.IsBlankText ['\r'] := by decide
      exact (Text.trim_append_of_blank blank rest).symm
  · rfl

theorem trim_crlfBehind (text : Text) :
    Text.trim (crlfBehind text) = Text.crlf (Text.trim text) := by
  rw [crlfBehind, trim_afterOptionalReturn, Text.trim_crlf]

theorem afterOptionalReturn_of_head? {text : Text} (other : text.head? ≠ some '\r') :
    afterOptionalReturn text = text := by
  unfold afterOptionalReturn
  split
  · exact absurd rfl other
  · rfl

theorem suffix_of_afterRule? {text rest : Text} (ruled : afterRule? text = some rest) :
    rest <:+ text := by
  obtain ⟨line, -, rfl⟩ := exists_isRule_of_afterRule? ruled
  exact List.suffix_append line rest

theorem afterRule?_crlf {text : Text} (noReturn : '\r' ∉ text) :
    afterRule? (Text.crlf text) = (afterRule? text).map crlfBehind := by
  have lead : Text.afterLead? ['-', '-', '-'] (Text.crlf text) =
      (Text.afterLead? ['-', '-', '-'] text).map Text.crlf :=
    Text.afterLead?_crlf (by decide) (by decide) text
  rw [afterRule?, afterRule?, lead]
  cases found : Text.afterLead? ['-', '-', '-'] text with
  | none => rfl
  | some rest =>
      have blanks : (Text.crlf rest).dropWhile Text.isSpaceOrTab =
          Text.crlf (rest.dropWhile Text.isSpaceOrTab) :=
        Text.dropWhile_crlf (by decide) (by decide) rest
      have other : (rest.dropWhile Text.isSpaceOrTab).head? ≠ some '\r' := by
        intro first
        have inside := (List.dropWhile_suffix _).subset (List.mem_of_head? first)
        rw [Text.afterLead?_eq_some_iff.mp found] at noReturn
        exact noReturn (List.mem_append_right _ inside)
      simp only [Option.map_some, blanks, afterOptionalReturn_of_head? other, crlfBehind]

theorem ne_return_of_afterRule? {text rest : Text} {char : Char} (noReturn : '\r' ∉ text)
    (ruled : afterRule? text = some (char :: rest)) : char ≠ '\r' := by
  intro isReturn
  exact noReturn ((suffix_of_afterRule? ruled).subset (by simp [isReturn]))

theorem crlfBehind_cons_of_ne {char : Char} (other : char ≠ '\n') (notReturn : char ≠ '\r')
    (rest : Text) : crlfBehind (char :: rest) = char :: Text.crlf rest := by
  rw [crlfBehind, Text.crlf_cons_of_ne other]
  exact afterOptionalReturn_of_head? (by simpa using notReturn)

theorem afterOpening?_crlf {text : Text} (noReturn : '\r' ∉ text) :
    afterOpening? (Text.crlf text) = (afterOpening? text).map Text.crlf := by
  rw [afterOpening?, afterOpening?, afterRule?_crlf noReturn]
  cases ruled : afterRule? text with
  | none => rfl
  | some rest =>
      cases rest with
      | nil => rfl
      | cons char others =>
          by_cases lineFeed : char = '\n'
          · subst lineFeed
            rfl
          · have notReturn := ne_return_of_afterRule? noReturn ruled
            simp [crlfBehind_cons_of_ne lineFeed notReturn, lineFeed]

theorem afterClosing?_crlf {text : Text} (noReturn : '\r' ∉ text) :
    afterClosing? (Text.crlf text) = (afterClosing? text).map crlfBehind := by
  rw [afterClosing?, afterClosing?, afterRule?_crlf noReturn]
  cases ruled : afterRule? text with
  | none => rfl
  | some rest =>
      cases rest with
      | nil => rfl
      | cons char others =>
          by_cases lineFeed : char = '\n'
          · subst lineFeed
            rfl
          · have notReturn := ne_return_of_afterRule? noReturn ruled
            simp [crlfBehind_cons_of_ne lineFeed notReturn, lineFeed]

theorem suffix_of_afterOpening? {text rest : Text} (opened : afterOpening? text = some rest) :
    rest <:+ text := by
  unfold afterOpening? at opened
  split at opened
  · next ruled =>
      cases opened
      exact (List.suffix_cons _ _).trans (suffix_of_afterRule? ruled)
  · cases opened

theorem prefix_of_splitAtClosing? {lineStart : Bool} {text front body : Text}
    (closed : splitAtClosing? lineStart text = some (front, body)) : front <+: text := by
  induction text generalizing lineStart front with
  | nil => cases closed
  | cons char rest ih =>
      rw [splitAtClosing?] at closed
      split at closed
      · cases closed
        exact List.nil_prefix
      · split at closed
        · next later =>
            cases closed
            exact List.prefix_cons_inj char |>.mpr (ih later)
        · cases closed

theorem mem_of_mem_front {content front body : Text} (split : split? content = some (front, body))
    {char : Char} (member : char ∈ front) : char ∈ content := by
  unfold split? at split
  cases opened : afterOpening? ((content.dropWhile (· == '\uFEFF')).dropWhile Text.isBlank) with
  | none => simp [opened] at split
  | some rest =>
      cases closed : splitAtClosing? true rest with
      | none => simp [opened, closed] at split
      | some found =>
          simp only [opened, closed, Option.some.injEq, Prod.mk.injEq] at split
          rw [← split.1] at member
          have inRest := (prefix_of_splitAtClosing? closed).subset member
          exact (List.dropWhile_suffix _).subset ((List.dropWhile_suffix _).subset
            ((suffix_of_afterOpening? opened).subset inRest))

/-- A rule closes the front matter of the twin where one closes that of the text. -/
theorem splitAtClosing?_crlf {text : Text} (noReturn : '\r' ∉ text) (lineStart : Bool) :
    splitAtClosing? lineStart (Text.crlf text) =
      (splitAtClosing? lineStart text).map fun (front, body) =>
        (Text.crlf front, crlfBehind body) := by
  induction text generalizing lineStart with
  | nil => rfl
  | cons char rest ih =>
      have later := ih (fun member => noReturn (List.mem_cons_of_mem _ member)) (char == '\n')
      by_cases lineFeed : char = '\n'
      · -- Neither the line feed nor the carriage return before it begins a rule.
        subst lineFeed
        have silent {mark : Char} (other : mark ≠ '-') (behind : Text) (starts : Bool) :
            starts = true → afterClosing? (mark :: behind) = none :=
          fun _ => afterClosing?_eq_none (by simpa using other)
        rw [Text.crlf_cons_lineFeed, splitAtClosing?_cons (silent (by decide) _ _),
          splitAtClosing?_cons (silent (by decide) _ _),
          splitAtClosing?_cons (silent (by decide) _ _), later, Option.map_map, Option.map_map,
          Option.map_map]
        rfl
      · have closing := afterClosing?_crlf noReturn
        rw [Text.crlf_cons_of_ne lineFeed] at closing ⊢
        rw [splitAtClosing?, splitAtClosing?, later, closing]
        cases lineStart with
        | false =>
            cases splitAtClosing? (char == '\n') rest with
            | none => rfl
            | some found => simp [Text.crlf_cons_of_ne lineFeed]
        | true =>
            cases afterClosing? (char :: rest) with
            | some body => rfl
            | none =>
                cases splitAtClosing? (char == '\n') rest with
                | none => rfl
                | some found => simp [Text.crlf_cons_of_ne lineFeed]

theorem split?_crlf {content : Text} (noReturn : '\r' ∉ content) :
    split? (Text.crlf content) =
      (split? content).map fun (front, body) => (Text.crlf front, Text.crlf body) := by
  have marks : (Text.crlf content).dropWhile (· == '\uFEFF') =
      Text.crlf (content.dropWhile (· == '\uFEFF')) :=
    Text.dropWhile_crlf (by decide) (by decide) content
  have blanks (text : Text) : (Text.crlf text).dropWhile Text.isBlank =
      Text.crlf (text.dropWhile Text.isBlank) :=
    Text.dropWhile_crlf_of_inside (by decide) (by decide) text
  have noReturnStart : '\r' ∉ (content.dropWhile (· == '\uFEFF')).dropWhile Text.isBlank :=
    fun member => noReturn ((List.dropWhile_suffix _).subset
      ((List.dropWhile_suffix _).subset member))
  rw [split?, split?, marks, blanks, afterOpening?_crlf noReturnStart]
  cases opened : afterOpening? ((content.dropWhile (· == '\uFEFF')).dropWhile Text.isBlank) with
  | none => rfl
  | some rest =>
      have noReturnRest : '\r' ∉ rest := fun member =>
        noReturnStart ((suffix_of_afterOpening? opened).subset member)
      simp only [Option.map_some, splitAtClosing?_crlf noReturnRest]
      cases splitAtClosing? true rest with
      | none => rfl
      | some found => simp [trim_crlfBehind]

/-! ### Scalars and maps -/

theorem scalarHere?_eq_none {key : Text} {char : Char} (other : char ∉ key) (notColon : char ≠ ':')
    (rest : Text) : scalarHere? key (char :: rest) = none := by
  have noLead : Text.afterLead? (key ++ [':']) (char :: rest) = none := by
    cases key with
    | nil => simp [Text.afterLead?, Ne.symm notColon]
    | cons first others =>
        rw [List.mem_cons, not_or] at other
        simp [Text.afterLead?, Ne.symm other.1]
  rw [scalarHere?, noLead]

theorem scalarHere?_crlf {key : Text} (noLineFeed : '\n' ∉ key) (noReturn : '\r' ∉ key)
    (text : Text) : scalarHere? key (Text.crlf text) = scalarHere? key text := by
  have lead : Text.afterLead? (key ++ [':']) (Text.crlf text) =
      (Text.afterLead? (key ++ [':']) text).map Text.crlf :=
    Text.afterLead?_crlf (by simpa using noLineFeed) (by simpa using noReturn) text
  rw [scalarHere?, scalarHere?, lead]
  cases Text.afterLead? (key ++ [':']) text with
  | none => rfl
  | some rest =>
      have blanks : (Text.crlf rest).dropWhile Text.isSpaceOrTab =
          Text.crlf (rest.dropWhile Text.isSpaceOrTab) :=
        Text.dropWhile_crlf (by decide) (by decide) rest
      simp only [Option.map_some, blanks]
      cases rest.dropWhile Text.isSpaceOrTab with
      | nil => rfl
      | cons char tail =>
          by_cases lineFeed : char = '\n'
          · subst lineFeed
            rfl
          · obtain ⟨behind, blank, line⟩ := Text.exists_blanks_takeWhile_crlf tail
            rw [Text.crlf_cons_of_ne lineFeed]
            simp only [line, ← List.cons_append, Text.trim_append_blanks _ blank]

theorem scalarFrom?_crlf {key : Text} (noLineFeed : '\n' ∉ key) (noReturn : '\r' ∉ key)
    (text : Text) (lineStart : Bool) :
    scalarFrom? key lineStart (Text.crlf text) = scalarFrom? key lineStart text := by
  induction text generalizing lineStart with
  | nil => rfl
  | cons char rest ih =>
      by_cases lineFeed : char = '\n'
      · subst lineFeed
        have silent {mark : Char} (other : mark ∉ key) (notColon : mark ≠ ':') (behind : Text)
            (starts : Bool) : starts = true → scalarHere? key (mark :: behind) = none :=
          fun _ => scalarHere?_eq_none other notColon behind
        rw [Text.crlf_cons_lineFeed, scalarFrom?_cons (silent noReturn (by decide) _ _),
          scalarFrom?_cons (silent noLineFeed (by decide) _ _),
          scalarFrom?_cons (silent noLineFeed (by decide) _ _), ih]
      · have here := scalarHere?_crlf noLineFeed noReturn (char :: rest)
        rw [Text.crlf_cons_of_ne lineFeed] at here ⊢
        rw [scalarFrom?, scalarFrom?, here, ih]

theorem scalar_crlf (front key : Text) (noLineFeed : '\n' ∉ key) (noReturn : '\r' ∉ key) :
    scalar (Text.crlf front) key = scalar front key := by
  rw [scalar, scalar, scalarFrom?_crlf noLineFeed noReturn]

theorem map_crlf {front : Text} (noReturn : '\r' ∉ front) (key : Text) :
    map (Text.crlf front) key = map front key := by
  rw [map, map, Text.lines_crlf noReturn]

end FrontMatter

/-! ### Blocks -/

namespace Tag

variable {tag : Tag}

theorem isOutside_return : IsOutside '\r' :=
  isOutside_of_all fun tag => by cases tag <;> rfl

theorem afterName?_crlf {name : Text} (outside : ∀ letter ∈ name, isCaseOf letter '\n' = false)
    (outsideToo : ∀ letter ∈ name, isCaseOf letter '\r' = false) (text : Text) :
    afterName? name (Text.crlf text) = (afterName? name text).map Text.crlf := by
  induction name generalizing text with
  | nil => rfl
  | cons letter others ih =>
      have later := ih (fun other member => outside other (List.mem_cons_of_mem _ member))
        fun other member => outsideToo other (List.mem_cons_of_mem _ member)
      cases text with
      | nil => rfl
      | cons char rest =>
          by_cases lineFeed : char = '\n'
          · subst lineFeed
            simp [Text.crlf_cons_lineFeed, afterName?, outside letter List.mem_cons_self,
              outsideToo letter List.mem_cons_self]
          · rw [Text.crlf_cons_of_ne lineFeed, afterName?, afterName?]
            split
            · exact later rest
            · rfl

theorem afterAttributes?_crlf (text : Text) :
    afterAttributes? (Text.crlf text) = (afterAttributes? text).map Text.crlf := by
  have sameHead : (Text.crlf text).head?.any Text.isWord = text.head?.any Text.isWord := by
    cases text with
    | nil => rfl
    | cons first rest =>
        by_cases lineFeed : first = '\n'
        · subst lineFeed
          have noWord : Text.isWord '\n' = false ∧ Text.isWord '\r' = false := by decide
          simp [Text.crlf_cons_lineFeed, noWord]
        · rw [Text.crlf_cons_of_ne lineFeed]
          rfl
  have dropped : (Text.crlf text).dropWhile (· != '>') = Text.crlf (text.dropWhile (· != '>')) :=
    Text.dropWhile_crlf_of_inside (by decide) (by decide) text
  rw [afterAttributes?, afterAttributes?, sameHead, dropped]
  split
  · rfl
  · cases found : text.dropWhile (· != '>') with
    | nil => rfl
    | cons mark rest =>
        have ends : mark = '>' := by
          have first := List.head?_dropWhile_not (· != '>') text
          simpa [found] using first
        rw [ends, Text.crlf_cons_of_ne (by decide)]
        rfl

theorem afterOpening?_crlf (text : Text) :
    tag.afterOpening? (Text.crlf text) = (tag.afterOpening? text).map Text.crlf := by
  cases text with
  | nil => rfl
  | cons char rest =>
      by_cases lineFeed : char = '\n'
      · subst lineFeed
        rfl
      · rw [Text.crlf_cons_of_ne lineFeed, afterOpening?_cons, afterOpening?_cons,
          afterName?_crlf (isOutside_lineFeed tag) (isOutside_return tag)]
        split
        · cases afterName? tag.name rest with
          | none => rfl
          | some behind => exact afterAttributes?_crlf behind
        · rfl

def afterBlanks? (text : Text) : Option Text :=
  match text.dropWhile Text.isBlank with
  | '>' :: tail => some tail
  | _ => none

theorem afterBlanks?_crlf (text : Text) :
    afterBlanks? (Text.crlf text) = (afterBlanks? text).map Text.crlf := by
  have dropped :
      (Text.crlf text).dropWhile Text.isBlank = Text.crlf (text.dropWhile Text.isBlank) :=
    Text.dropWhile_crlf_of_inside (by decide) (by decide) text
  rw [afterBlanks?, afterBlanks?, dropped]
  cases text.dropWhile Text.isBlank with
  | nil => rfl
  | cons char rest =>
      by_cases lineFeed : char = '\n'
      · subst lineFeed
        rfl
      · rw [Text.crlf_cons_of_ne lineFeed]
        by_cases ends : char = '>'
        · subst ends
          rfl
        · simp [ends]

theorem afterClosing?_eq (tag : Tag) (text : Text) :
    tag.afterClosing? text =
      (Text.afterLead? ['<', '/'] text).bind fun rest =>
        (afterName? tag.name rest).bind afterBlanks? := by
  cases lead : Text.afterLead? ['<', '/'] text with
  | none =>
      unfold afterClosing?
      split
      · cases lead
      · rfl
  | some rest =>
      rw [Text.afterLead?_eq_some_iff.mp lead]
      cases named : afterName? tag.name rest with
      | none => simp [afterClosing?, named]
      | some behind =>
          simp only [List.cons_append, List.nil_append, afterClosing?, named, Option.bind_some]
          rfl

theorem afterClosing?_crlf (tag : Tag) (text : Text) :
    tag.afterClosing? (Text.crlf text) = (tag.afterClosing? text).map Text.crlf := by
  rw [afterClosing?_eq, afterClosing?_eq, Text.afterLead?_crlf (by decide) (by decide)]
  cases Text.afterLead? ['<', '/'] text with
  | none => rfl
  | some rest =>
      rw [Option.map_some, Option.bind_some, Option.bind_some,
        afterName?_crlf (isOutside_lineFeed tag) (isOutside_return tag)]
      cases afterName? tag.name rest with
      | none => rfl
      | some behind => exact afterBlanks?_crlf behind

theorem splitAtClosing?_crlf (text : Text) :
    tag.splitAtClosing? (Text.crlf text) =
      (tag.splitAtClosing? text).map fun (inner, tail) => (Text.crlf inner, Text.crlf tail) := by
  induction text with
  | nil => rfl
  | cons char rest ih =>
      have here := tag.afterClosing?_crlf (char :: rest)
      by_cases lineFeed : char = '\n'
      · subst lineFeed
        have noTag (behind : Text) : tag.afterClosing? ('\n' :: behind) = none := rfl
        have noTagToo (behind : Text) : tag.afterClosing? ('\r' :: behind) = none := rfl
        rw [Text.crlf_cons_lineFeed, splitAtClosing?, noTagToo, splitAtClosing?, noTag, ih,
          splitAtClosing?, noTag]
        cases tag.splitAtClosing? rest with
        | none => rfl
        | some found => rfl
      · rw [Text.crlf_cons_of_ne lineFeed] at here ⊢
        rw [splitAtClosing?, splitAtClosing?, here, ih]
        cases tag.afterClosing? (char :: rest) with
        | some tail => rfl
        | none =>
            cases tag.splitAtClosing? rest with
            | none => rfl
            | some found => simp [Text.crlf_cons_of_ne lineFeed]

theorem recogniseBlock_crlf_eq_none {text : Text} (rejected : tag.recogniseBlock text = none) :
    tag.recogniseBlock (Text.crlf text) = none := by
  unfold recogniseBlock at rejected ⊢
  rw [afterOpening?_crlf]
  cases opened : tag.afterOpening? text with
  | none => rfl
  | some rest =>
      simp only [Option.map_some, splitAtClosing?_crlf]
      cases closed : tag.splitAtClosing? rest with
      | none => rfl
      | some found => simp [opened, closed] at rejected

/-- The twin of a block is a block with the twin of its inner text. -/
theorem recogniseBlock_crlf_append {source inner rest : Text}
    (recognised : tag.recogniseBlock (source ++ rest) = some (inner, source.length)) :
    tag.recogniseBlock (Text.crlf source ++ Text.crlf rest) =
      some (Text.crlf inner, (Text.crlf source).length) := by
  obtain ⟨behind, opened, closed⟩ := exists_of_recogniseBlock_append recognised
  rw [← Text.crlf_append, recogniseBlock, afterOpening?_crlf, opened]
  simp only [Option.map_some, splitAtClosing?_crlf, closed, Text.crlf_append, List.length_append,
    Nat.add_sub_cancel]

theorem scanFrom_recogniseBlock_crlf {previous : Option Char} {text : Text}
    {pieces : List (Text.Piece Text)} (cuts : Text.Cuts tag.IsHit previous text pieces) :
    Text.scanFrom (fun _ => tag.recogniseBlock) 0 previous (Text.crlf text) =
      pieces.flatMap (Text.Piece.crlf Text.crlf) := by
  induction cuts with
  | done => rfl
  | @plain previous char rest pieces noHit later ih =>
      have rejected : tag.recogniseBlock (Text.crlf (char :: rest)) = none :=
        recogniseBlock_crlf_eq_none ((recognises_block tag).eq_none noHit)
      have passes (rest : Text) : tag.recogniseBlock ('\n' :: rest) = none := rfl
      rw [Text.scanFrom_crlf_cons (by simp [passes]) (by simp [rejected]), ih]
      rfl
  | @hit previous source rest inner pieces isHit later ih =>
      have notEmpty := (recognises_block tag).ne_nil isHit
      rw [Text.scanFrom_crlf_append notEmpty (recogniseBlock_crlf_append isHit), ih]
      rfl

theorem pieces_crlf (tag : Tag) (body : Text) :
    tag.pieces (Text.crlf body) = (tag.pieces body).flatMap (Text.Piece.crlf Text.crlf) :=
  scanFrom_recogniseBlock_crlf (cuts_pieces tag body)

theorem extract_crlf (tag : Tag) (body : Text) :
    tag.extract (Text.crlf body) =
      (Text.crlf (tag.extract body).1, Text.crlf (tag.extract body).2) := by
  have inner : ((Text.hits (tag.pieces body)).map Text.crlf).headD [] =
      Text.crlf ((Text.hits (tag.pieces body)).headD []) := by
    cases Text.hits (tag.pieces body) <;> rfl
  have left : Text.replaceHits (fun _ => [])
      ((tag.pieces body).flatMap (Text.Piece.crlf Text.crlf)) =
        Text.crlf (Text.replaceHits (fun _ => []) (tag.pieces body)) :=
    Text.replaceHits_flatMap_crlf (fun _ => []) (fun _ => []) (fun _ => rfl) (tag.pieces body)
  simp only [extract, pieces_crlf, Text.hits_flatMap_crlf, inner, left, Text.trim_crlf]

end Tag

namespace Definition

/-- The definition with a carriage return in front of every line feed of its template, its styles
and its script. -/
def crlf (definition : Definition) : Definition :=
  { definition with
    template := Text.crlf definition.template
    styles := Text.crlf definition.styles
    script := Text.crlf definition.script }

/-- A document and the one with a carriage return in front of every line feed declare the same
component, up to these carriage returns in its template, its styles and its script. -/
theorem read?_crlf {content : Text} (noReturn : '\r' ∉ content) (path : Text) :
    read? (Text.crlf content) path = (read? content path).map crlf := by
  rw [read?, read?, FrontMatter.split?_crlf noReturn]
  cases split : FrontMatter.split? content with
  | none => rfl
  | some found =>
      obtain ⟨front, body⟩ := found
      have noReturnFront : '\r' ∉ front := fun member =>
        noReturn (FrontMatter.mem_of_mem_front split member)
      have name := FrontMatter.scalar_crlf front "name".toList (by decide) (by decide)
      have description := FrontMatter.scalar_crlf front "description".toList (by decide) (by decide)
      have props := FrontMatter.map_crlf noReturnFront "props".toList
      simp only [Option.map_some, Tag.extract_crlf, Text.trim_crlf, name, description, props]
      cases Text.trim (Tag.script.extract (Tag.style.extract body).2).2 with
      | nil => rfl
      | cons first rest =>
          obtain ⟨char, others, shape⟩ := Text.exists_crlf_eq_cons first rest
          simp [shape, crlf]

/-- A document with blanks behind its rules, a key without a value, and tags and blocks that go on
over lines. -/
def spreadDocument : Text :=
  ("\uFEFF\n--- \nname:\nname: 'x' \nprops: \t\n  a: \" b \"\n\n  c: 1\n---\t\n<p>\n</p>\n" ++
    "<style\n>\na \x7b\n\x7d\n</STYLE\n>\n<script>1</script>").toList

def spreadDefinition : Definition where
  name := "x".toList
  template := "<p>\n</p>".toList
  props := .ofPairs [("a".toList, " b ".toList)]
  styles := "a \x7b\n\x7d".toList
  script := "1".toList
  sourcePath := "ui/x.md".toList

theorem read?_crlf_spread :
    '\r' ∉ spreadDocument ∧
      read? spreadDocument "ui/x.md".toList = some spreadDefinition ∧
      read? (Text.crlf spreadDocument) "ui/x.md".toList = some spreadDefinition.crlf ∧
      spreadDefinition.crlf.template = "<p>\r\n</p>".toList := by
  have noReturn : '\r' ∉ spreadDocument := by decide +kernel
  have read : read? spreadDocument "ui/x.md".toList = some spreadDefinition := by decide +kernel
  have twin := read?_crlf noReturn "ui/x.md".toList
  rw [read] at twin
  exact ⟨noReturn, read, twin, by decide +kernel⟩

end Definition

end DocComponents
