import DocComponents.Definition.Reader
import DocComponents.Proofs.Definition.Block

/-!
# Blocks that are formed by taking others out

Taking a block out joins the text before it and the text behind it. What stands in a row before and
after was looked at and is no block, so a block that is left over was formed at such a seam: inside
the mark of its opening tag, where a block of its own tag was taken out, or, since scripts are taken
out of a text that was searched for styles before, inside the mark or the closing tag of a style.
-/

set_option autoImplicit false

namespace DocComponents

/-- A character that is left of a body, with the tag of the block that was last taken out right
before it. -/
structure Kept where
  char : Char
  seam : Option Tag := none
  deriving DecidableEq, Repr

namespace Kept

def shown (left : List Kept) : Text :=
  left.map Kept.char

@[simp] theorem shown_nil : shown [] = [] := rfl

@[simp] theorem shown_cons (kept : Kept) (left : List Kept) :
    shown (kept :: left) = kept.char :: shown left := rfl

@[simp] theorem shown_append (left right : List Kept) :
    shown (left ++ right) = shown left ++ shown right :=
  List.map_append

def behind (tag : Tag) (isBehind : Bool) (kept : Kept) : Kept :=
  if isBehind then { kept with seam := some tag } else kept

@[simp] theorem char_behind (tag : Tag) (isBehind : Bool) (kept : Kept) :
    (kept.behind tag isBehind).char = kept.char := by
  cases isBehind <;> rfl

/-- A block of the tag was taken out inside the part. -/
def IsCutBy (tag : Tag) (part : List Kept) : Prop :=
  ∃ kept ∈ part.tail, kept.seam = some tag

end Kept

open Kept

namespace Tag

variable {tag : Tag}

/-- What is left of a text without the hits among its pieces. -/
def takeOut (tag : Tag) : (isBehind : Bool) → List Kept → List (Text.Piece Text) → List Kept
  | isBehind, kept :: rest, .plain _ :: pieces =>
    kept.behind tag isBehind :: tag.takeOut false rest pieces
  | _, text, .hit source _ :: pieces => tag.takeOut true (text.drop source.length) pieces
  | _, _, _ => []

/-- What is left of a text without the blocks of the tag. -/
def cutOut (tag : Tag) (text : List Kept) : List Kept :=
  tag.takeOut false text (tag.pieces (shown text))

/-- A block stands in what is left, and one was taken out inside its opening mark, or, for a style,
a script was taken out there or inside its closing tag. -/
def HoldsJoined (tag : Tag) (left : List Kept) : Prop :=
  ∃ before mark attributes inner closing behind,
    left = before ++ (mark ++ (attributes ++ (inner ++ (closing ++ behind)))) ∧
      tag.IsBlock (shown mark) (shown attributes) (shown closing) ∧
      (IsCutBy tag mark ∨ tag = .style ∧ (IsCutBy .script mark ∨ IsCutBy .script closing))

/-- What is left of a text when its blocks are taken out one after the other. -/
inductive Leaves (tag : Tag) : (isBehind : Bool) → List Kept → List Kept → Prop where
  | done {isBehind : Bool} : Leaves tag isBehind [] []
  | keep {isBehind : Bool} {kept : Kept} {rest left : List Kept}
      (noBlock : tag.recogniseBlock (shown (kept :: rest)) = none)
      (later : Leaves tag false rest left) :
      Leaves tag isBehind (kept :: rest) (kept.behind tag isBehind :: left)
  | out {isBehind : Bool} {source rest left : List Kept} {inner : Text}
      (isHit : tag.IsHit none (shown source) inner (shown rest))
      (later : Leaves tag true rest left) : Leaves tag isBehind (source ++ rest) left

theorem takeOut_hit (tag : Tag) (isBehind : Bool) (source rest : List Kept) (inner : Text)
    (pieces : List (Text.Piece Text)) :
    tag.takeOut isBehind (source ++ rest) (.hit (shown source) inner :: pieces) =
      tag.takeOut true rest pieces := by
  have dropped : (source ++ rest).drop (shown source).length = rest :=
    List.drop_left' (List.length_map _).symm
  rw [takeOut, dropped]

theorem leaves_takeOut {previous : Option Char} {text : Text} {pieces : List (Text.Piece Text)}
    (cuts : Text.Cuts tag.IsHit previous text pieces) (isBehind : Bool) {marked : List Kept}
    (same : shown marked = text) :
    Leaves tag isBehind marked (tag.takeOut isBehind marked pieces) := by
  induction cuts generalizing isBehind marked with
  | done =>
      obtain rfl := List.map_eq_nil_iff.mp same
      exact .done
  | plain noHit later ih =>
      obtain ⟨kept, rest, rfl, rfl, rfl⟩ := List.map_eq_cons_iff.mp same
      exact .keep ((recognises_block tag).eq_none noHit) (ih false rfl)
  | hit isHit later ih =>
      obtain ⟨source, rest, rfl, rfl, rfl⟩ := List.map_eq_append_iff.mp same
      exact takeOut_hit tag isBehind source rest _ _ ▸ .out isHit (ih true rfl)

theorem leaves_cutOut (tag : Tag) (text : List Kept) : Leaves tag false text (tag.cutOut text) :=
  leaves_takeOut (cuts_pieces tag (shown text)) false rfl

theorem shown_takeOut {previous : Option Char} {text : Text} {pieces : List (Text.Piece Text)}
    (cuts : Text.Cuts tag.IsHit previous text pieces) (isBehind : Bool) {marked : List Kept}
    (same : shown marked = text) :
    shown (tag.takeOut isBehind marked pieces) = Text.replaceHits (fun _ => []) pieces := by
  induction cuts generalizing isBehind marked with
  | done =>
      obtain rfl := List.map_eq_nil_iff.mp same
      rfl
  | plain noHit later ih =>
      obtain ⟨kept, rest, rfl, rfl, rfl⟩ := List.map_eq_cons_iff.mp same
      rw [takeOut, shown_cons, char_behind, ih false rfl]
      rfl
  | hit isHit later ih =>
      obtain ⟨source, rest, rfl, rfl, rfl⟩ := List.map_eq_append_iff.mp same
      exact (congrArg shown (takeOut_hit tag isBehind source rest _ _)).trans (ih true rfl)

/-- Without the marks, what is left is what the reader goes on with. -/
theorem shown_cutOut (tag : Tag) (text : List Kept) :
    shown (tag.cutOut text) = (tag.extract (shown text)).2 :=
  shown_takeOut (cuts_pieces tag (shown text)) false rfl

namespace Leaves

variable {isBehind : Bool} {text left : List Kept}

/-- Where nothing was taken out, the text is what is left. Otherwise it holds a block. -/
theorem eq_or_holdsBlock (leaves : Leaves tag isBehind text left) :
    shown text = shown left ∨ tag.HoldsBlock (shown text) := by
  induction leaves with
  | done => exact .inl rfl
  | @keep isBehind kept rest left noBlock later ih =>
      rcases ih with same | ⟨before, mark, attributes, inner, closing, behind, isBlock, whole⟩
      · exact .inl (by simp [same])
      · exact .inr ⟨kept.char :: before, mark, attributes, inner, closing, behind, isBlock,
          congrArg (List.cons kept.char) whole⟩
  | @out isBehind source rest left inner isHit later ih =>
      obtain ⟨mark, attributes, closing, parts, whole⟩ := isHit.exists_isBlock
      exact .inr ⟨[], mark, attributes, inner, closing, shown rest, parts, by simp [whole]⟩

/-- A block that was taken out begins with no word character, so none is brought in. -/
theorem wordEnds {attributes rest : List Kept}
    (leaves : Leaves tag isBehind text (attributes ++ rest))
    (isAttributes : IsAttributes (shown attributes)) :
    (shown text).head?.any Text.isWord = false := by
  have ends := isAttributes.wordEnds_append (shown rest)
  rw [← shown_append] at ends
  generalize attributes ++ rest = left at leaves ends
  cases leaves with
  | done => exact ends
  | keep noBlock later => simpa using ends
  | @out _ source rest _ inner isHit later =>
      obtain ⟨mark, attributes, closing, parts, whole⟩ := isHit.exists_isBlock
      obtain ⟨spelled, -, rfl⟩ := parts.mark
      rw [shown_append, whole]
      rfl

/-- What is left behind some part of it was left of what stood behind that. -/
theorem exists_behind {before after : List Kept}
    (leaves : Leaves tag isBehind text (before ++ after)) :
    ∃ front rest isBehind, text = front ++ rest ∧ List.Sublist (shown before) (shown front) ∧
      Leaves tag isBehind rest after := by
  generalize whole : before ++ after = left at leaves
  induction leaves generalizing before with
  | done =>
      obtain ⟨rfl, rfl⟩ := List.append_eq_nil_iff.mp whole
      exact ⟨[], [], false, rfl, List.Sublist.refl _, .done⟩
  | @keep isBehind kept rest left noBlock later ih =>
      cases before with
      | nil =>
          subst whole
          exact ⟨[], _, _, rfl, List.Sublist.refl _, .keep noBlock later⟩
      | cons first others =>
          obtain ⟨rfl, below⟩ := List.cons.inj whole
          obtain ⟨front, behind, isBehind, rfl, stood, leaves⟩ := ih below
          exact ⟨kept :: front, behind, isBehind, rfl, by simpa using stood, leaves⟩
  | @out _ source rest left inner isHit later ih =>
      obtain ⟨front, behind, isBehind, rfl, stood, leaves⟩ := ih whole
      exact ⟨source ++ front, behind, isBehind, by simp,
        by simpa using stood.trans (List.sublist_append_right _ _), leaves⟩

/-- The first character that is left was looked at and is marked when blocks before it were taken
out. -/
theorem exists_first {first : Kept} {after : List Kept}
    (leaves : Leaves tag isBehind text (first :: after)) :
    ∃ skipped kept rest, text = skipped ++ kept :: rest ∧
      first = kept.behind tag (isBehind || !skipped.isEmpty) ∧
      tag.recogniseBlock (shown (kept :: rest)) = none ∧ Leaves tag false rest after := by
  generalize whole : first :: after = left at leaves
  induction leaves with
  | done => cases whole
  | @keep isBehind kept rest left noBlock later ih =>
      obtain ⟨rfl, rfl⟩ := List.cons.inj whole
      exact ⟨[], kept, rest, rfl, by simp, noBlock, later⟩
  | @out isBehind source rest left inner isHit later ih =>
      obtain ⟨skipped, kept, behind, rfl, marked, noBlock, later⟩ := ih whole
      have notEmpty : source ≠ [] := by
        rintro rfl
        exact (recognises_block tag).ne_nil isHit rfl
      obtain ⟨head, more, rfl⟩ := List.exists_cons_of_ne_nil notEmpty
      exact ⟨head :: more ++ skipped, kept, behind, by simp, by simpa using marked, noBlock, later⟩

/-- A part behind a character that is left, in which nothing was taken out, stood there before. -/
theorem exists_of_forall {part after : List Kept} (leaves : Leaves tag false text (part ++ after))
    (uncut : ∀ kept ∈ part, kept.seam ≠ some tag) :
    ∃ rest, text = part ++ rest ∧ Leaves tag false rest after := by
  induction part generalizing text with
  | nil => exact ⟨text, rfl, leaves⟩
  | cons first others ih =>
      obtain ⟨skipped, kept, rest, rfl, rfl, -, later⟩ := exists_first leaves
      cases skipped with
      | nil =>
          obtain ⟨behind, rfl, below⟩ :=
            ih later fun kept member => uncut kept (List.mem_cons_of_mem _ member)
          exact ⟨behind, rfl, below⟩
      | cons skippedFirst more => exact absurd rfl (uncut _ List.mem_cons_self)

/-- A part of what is left in which nothing was taken out stood in the text before, where no block
was recognised. -/
theorem exists_of_not_isCutBy {before part after : List Kept}
    (leaves : Leaves tag isBehind text (before ++ (part ++ after))) (notEmpty : shown part ≠ [])
    (uncut : ¬ IsCutBy tag part) :
    ∃ front stood rest, text = front ++ (stood ++ rest) ∧
      List.Sublist (shown before) (shown front) ∧
      shown stood = shown part ∧ stood.tail = part.tail ∧
      tag.recogniseBlock (shown (stood ++ rest)) = none ∧ Leaves tag false rest after := by
  obtain ⟨front, behind, _, rfl, sublist, leaves⟩ := exists_behind leaves
  cases part with
  | nil => exact absurd rfl notEmpty
  | cons first others =>
      obtain ⟨skipped, kept, rest, rfl, rfl, noBlock, later⟩ := exists_first leaves
      obtain ⟨rest, rfl, below⟩ := exists_of_forall later fun kept member same =>
        uncut ⟨kept, member, same⟩
      exact ⟨front ++ skipped, kept :: others, rest, by simp,
        by simpa using sublist.trans (List.sublist_append_left _ _), by simp, rfl, noBlock, below⟩

/-- A block of the tag that is left was formed by taking another one out inside its mark. -/
theorem isCutBy_of_isBlock {before mark attributes inner closing behind : List Kept}
    (leaves : Leaves tag isBehind text
      (before ++ (mark ++ (attributes ++ (inner ++ (closing ++ behind))))))
    (isBlock : tag.IsBlock (shown mark) (shown attributes) (shown closing)) :
    IsCutBy tag mark := by
  by_contra uncut
  obtain ⟨front, stood, rest, rfl, -, sameMark, -, noBlock, below⟩ :=
    exists_of_not_isCutBy leaves isBlock.mark.ne_nil uncut
  have wordEnds := below.wordEnds isBlock.attributes
  -- What was taken out behind the mark is a whole block, which ends the mark's tag and its block as
  -- well as what is left does.
  have closes : ∃ upto inner closing behind, tag.IsClosing closing ∧
      shown rest = upto ++ '>' :: (inner ++ (closing ++ behind)) := by
    rcases below.eq_or_holdsBlock with same | holds
    · obtain ⟨listed, -, ends⟩ := isBlock.attributes.ends
      exact ⟨listed, shown inner, shown closing, shown behind, isBlock.closing,
        by simp [same, ends]⟩
    · obtain ⟨before, mark, attributes, inner, closing, behind, whole, shape⟩ := holds
      obtain ⟨listed, -, ends⟩ := whole.attributes.ends
      exact ⟨before ++ (mark ++ listed), inner, closing, behind, whole.closing,
        by simp [shape, ends]⟩
  obtain ⟨upto, found, closer, last, isClosing, shape⟩ := closes
  rw [shape] at wordEnds
  have recognised := isSome_recogniseBlock (sameMark ▸ isBlock.mark) isClosing last wordEnds
  rw [shown_append, shape] at noBlock
  rw [noBlock] at recognised
  cases recognised

end Leaves

/-- A style that is left once the scripts are taken out as well was formed by taking out a style
inside its mark, or a script inside its mark or its closing tag. -/
theorem isCutBy_of_isBlock_style {body text : List Kept}
    {before mark attributes inner closing behind : List Kept}
    (styles : Leaves .style false body text)
    (scripts : Leaves .script false text
      (before ++ (mark ++ (attributes ++ (inner ++ (closing ++ behind))))))
    (isBlock : Tag.style.IsBlock (shown mark) (shown attributes) (shown closing)) :
    IsCutBy .style mark ∨ IsCutBy .script mark ∨ IsCutBy .script closing := by
  -- With neither cut by a script, the mark and the closing tag stood in the text that was searched
  -- for styles, and what stood between them held a `>` as well.
  by_contra! uncut
  obtain ⟨noStyle, noScript, noClosing⟩ := uncut
  obtain ⟨front, stood, rest, rfl, -, sameMark, sameTail, -, below⟩ :=
    scripts.exists_of_not_isCutBy isBlock.mark.ne_nil noScript
  have wordEnds := below.wordEnds isBlock.attributes
  rw [← List.append_assoc] at below
  obtain ⟨between, stoodClosing, last, rfl, sublist, sameClosing, -, -, -⟩ :=
    below.exists_of_not_isCutBy isBlock.closing.ne_nil noClosing
  have ends : '>' ∈ shown between := by
    obtain ⟨listed, -, ends⟩ := isBlock.attributes.ends
    exact sublist.subset (by simp [ends])
  obtain ⟨listed, others, shape, absent⟩ := List.eq_append_cons_of_mem ends
  obtain ⟨keptListed, keptBehind, rfl, rfl, whole⟩ := List.map_eq_append_iff.mp shape
  obtain ⟨ender, keptOthers, rfl, isEnder, rfl⟩ := List.map_eq_cons_iff.mp whole
  have standing : Tag.style.IsBlock (shown stood) (shown (keptListed ++ [ender]))
      (shown stoodClosing) := by
    refine ⟨sameMark ▸ isBlock.mark, ⟨?_, shown keptListed, absent, by simp [isEnder]⟩,
      sameClosing ▸ isBlock.closing⟩
    cases keptListed with
    | nil =>
        simp only [List.nil_append, shown_cons, isEnder]
        rfl
    | cons first more => simpa using wordEnds
  have cut := (show Leaves .style false body (front ++ (stood ++ ((keptListed ++ [ender]) ++
    (keptOthers ++ (stoodClosing ++ last))))) by simpa using styles).isCutBy_of_isBlock standing
  rw [IsCutBy, sameTail] at cut
  exact noStyle cut

/-! ## Templates -/

/-- What is left of a body when its styles and then its scripts are taken out. -/
def leftOf (body : Text) : List Kept :=
  Tag.script.cutOut (Tag.style.cutOut (body.map fun char => ⟨char, none⟩))

theorem shown_leftOf (body : Text) :
    shown (leftOf body) = (Tag.script.extract (Tag.style.extract body).2).2 := by
  have whole : shown (body.map fun char => (⟨char, none⟩ : Kept)) = body := by
    simp [shown, Function.comp_def]
  rw [leftOf, shown_cutOut, shown_cutOut, whole]

theorem holdsBlock_shown_iff {left : List Kept} :
    tag.HoldsBlock (shown left) ↔ ∃ before mark attributes inner closing behind,
      left = before ++ (mark ++ (attributes ++ (inner ++ (closing ++ behind)))) ∧
        tag.IsBlock (shown mark) (shown attributes) (shown closing) := by
  constructor
  · rintro ⟨before, mark, attributes, inner, closing, behind, isBlock, whole⟩
    obtain ⟨before, _, rfl, rfl, fromMark⟩ := List.map_eq_append_iff.mp whole
    obtain ⟨mark, _, rfl, rfl, fromAttributes⟩ := List.map_eq_append_iff.mp fromMark
    obtain ⟨attributes, _, rfl, rfl, fromInner⟩ := List.map_eq_append_iff.mp fromAttributes
    obtain ⟨inner, _, rfl, rfl, fromClosing⟩ := List.map_eq_append_iff.mp fromInner
    obtain ⟨closing, behind, rfl, rfl, rfl⟩ := List.map_eq_append_iff.mp fromClosing
    exact ⟨before, mark, attributes, inner, closing, behind, rfl, isBlock⟩
  · rintro ⟨before, mark, attributes, inner, closing, behind, rfl, isBlock⟩
    exact ⟨shown before, _, _, shown inner, _, shown behind, isBlock, by simp⟩

/-- What is left of a body holds a block exactly when one was formed by taking others out. -/
theorem holdsBlock_leftOf_iff (tag : Tag) (body : Text) :
    tag.HoldsBlock (shown (leftOf body)) ↔ tag.HoldsJoined (leftOf body) := by
  have styles := leaves_cutOut .style (body.map fun char => ⟨char, none⟩)
  have scripts := leaves_cutOut .script (Tag.style.cutOut (body.map fun char => ⟨char, none⟩))
  rw [holdsBlock_shown_iff]
  constructor
  · rintro ⟨before, mark, attributes, inner, closing, behind, whole, isBlock⟩
    rw [← leftOf, whole] at scripts
    refine ⟨before, mark, attributes, inner, closing, behind, whole, isBlock, ?_⟩
    cases tag with
    | style => exact (isCutBy_of_isBlock_style styles scripts isBlock).imp id fun cut => ⟨rfl, cut⟩
    | script => exact .inl (scripts.isCutBy_of_isBlock isBlock)
  · rintro ⟨before, mark, attributes, inner, closing, behind, whole, isBlock, -⟩
    exact ⟨before, mark, attributes, inner, closing, behind, whole, isBlock⟩

end Tag

namespace Definition

/-- The template of a definition holds a complete block exactly when taking blocks out of the body
formed one. -/
theorem template_holdsBlock_iff {content path : Text} {definition : Definition}
    (read : read? content path = some definition) (tag : Tag) :
    tag.HoldsBlock definition.template ↔
      ∃ front body, FrontMatter.split? content = some (front, body) ∧
        tag.HoldsJoined (Tag.leftOf body) := by
  rw [read?] at read
  cases split : FrontMatter.split? content with
  | none => simp [split] at read
  | some parts =>
      obtain ⟨front, body⟩ := parts
      have template : definition.template =
          Text.trim (Tag.script.extract (Tag.style.extract body).2).2 := by
        simp only [split] at read
        split at read
        · cases read
        · cases read
          rfl
      rw [template, Tag.holdsBlock_trim_iff, ← Tag.shown_leftOf, Tag.holdsBlock_leftOf_iff]
      constructor
      · intro joined
        exact ⟨front, body, rfl, joined⟩
      · rintro ⟨otherFront, otherBody, same, joined⟩
        obtain ⟨rfl, rfl⟩ := Prod.mk.inj (Option.some.inj same)
        exact joined

/-- A style whose closing tag holds a script. -/
def splitClosing : Text :=
  "---\nname: x\n---\n<p></p><style>a \x7b\x7d</sty<script></script>le>".toList

/-- A style whose opening tag holds another one. -/
def splitMark : Text :=
  "---\nname: x\n---\n<p></p><sty<style>a \x7b\x7d</style>le>b \x7b\x7d</style>".toList

theorem template_holdsBlock_iff_splitClosing :
    let definition : Definition :=
      { name := ['x'], template := "<p></p><style>a \x7b\x7d</style>".toList
        sourcePath := "x.md".toList }
    read? splitClosing "x.md".toList = some definition ∧
      Tag.style.HoldsBlock definition.template ∧
      ∃ front body, FrontMatter.split? splitClosing = some (front, body) ∧
        Tag.style.HoldsJoined (Tag.leftOf body) := by
  intro definition
  have read : read? splitClosing "x.md".toList = some definition := by decide +kernel
  have holds : Tag.style.HoldsBlock definition.template :=
    Tag.holdsBlock_iff_hits.mpr (by decide +kernel)
  exact ⟨read, holds, (template_holdsBlock_iff read .style).mp holds⟩

/-- The style that is taken out leaves another one in the template. -/
theorem splitMark_template_holdsBlock :
    ∃ definition, read? splitMark "x.md".toList = some definition ∧
      definition.styles = "a \x7b\x7d".toList ∧
      definition.template = "<p></p><style>b \x7b\x7d</style>".toList ∧
      Tag.style.HoldsBlock definition.template := by
  let definition : Definition :=
    { name := ['x'], template := "<p></p><style>b \x7b\x7d</style>".toList
      styles := "a \x7b\x7d".toList, sourcePath := "x.md".toList }
  have read : read? splitMark "x.md".toList = some definition := by decide +kernel
  exact ⟨definition, read, rfl, rfl, Tag.holdsBlock_iff_hits.mpr (by decide +kernel)⟩

end Definition

end DocComponents
