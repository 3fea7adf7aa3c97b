import DocComponents.Proofs.Definition.TagBlock
import Mathlib.Data.List.Forall2

/-!
# The shape of blocks

A block begins with `<` and the name of its tag in letters of either case, goes on with attributes
down to the next `>`, and ends with a closing tag. A block is recognised at the beginning of a text
exactly when one stands there.
-/

set_option autoImplicit false

namespace DocComponents.Tag

variable {tag : Tag}

/-- Letters of either case that spell a name. -/
def Spells (name spelled : Text) : Prop :=
  List.Forall₂ (fun letter char => isCaseOf letter char = true) name spelled

def IsMark (tag : Tag) (mark : Text) : Prop :=
  ∃ spelled, Spells tag.name spelled ∧ mark = '<' :: spelled

def IsClosing (tag : Tag) (closing : Text) : Prop :=
  ∃ spelled blanks, Spells tag.name spelled ∧ Text.IsBlankText blanks ∧
    closing = '<' :: '/' :: (spelled ++ (blanks ++ ['>']))

/-- What may stand behind the mark of an opening tag, down to the `>` that ends the tag. -/
structure IsAttributes (attributes : Text) : Prop where
  wordEnds : attributes.head?.any Text.isWord = false
  ends : ∃ listed, '>' ∉ listed ∧ attributes = listed ++ ['>']

/-- The parts of a block, of which the inner text may be any. -/
structure IsBlock (tag : Tag) (mark attributes closing : Text) : Prop where
  mark : tag.IsMark mark
  attributes : IsAttributes attributes
  closing : tag.IsClosing closing

def HoldsBlock (tag : Tag) (text : Text) : Prop :=
  ∃ before mark attributes inner closing behind, tag.IsBlock mark attributes closing ∧
    text = before ++ (mark ++ (attributes ++ (inner ++ (closing ++ behind))))

theorem IsMark.ne_nil {mark : Text} (isMark : tag.IsMark mark) : mark ≠ [] := by
  rintro rfl
  obtain ⟨spelled, -, whole⟩ := isMark
  cases whole

theorem IsClosing.ne_nil {closing : Text} (isClosing : tag.IsClosing closing) : closing ≠ [] := by
  rintro rfl
  obtain ⟨spelled, blanks, -, -, whole⟩ := isClosing
  cases whole

theorem IsAttributes.ne_nil {attributes : Text} (isAttributes : IsAttributes attributes) :
    attributes ≠ [] := by
  rintro rfl
  obtain ⟨listed, -, whole⟩ := isAttributes.ends
  simp at whole

theorem IsAttributes.wordEnds_append {attributes : Text} (isAttributes : IsAttributes attributes)
    (rest : Text) : (attributes ++ rest).head?.any Text.isWord = false := by
  obtain ⟨first, others, rfl⟩ := List.exists_cons_of_ne_nil isAttributes.ne_nil
  exact isAttributes.wordEnds

theorem afterName?_eq_some_iff {name text rest : Text} :
    afterName? name text = some rest ↔ ∃ spelled, Spells name spelled ∧ text = spelled ++ rest := by
  induction name generalizing text with
  | nil => simp [afterName?, Spells]
  | cons letter others ih =>
      cases text with
      | nil =>
          constructor
          · intro named
            cases named
          · rintro ⟨spelled, spells, whole⟩
            cases spells
            cases whole
      | cons char tail =>
          rw [afterName?]
          constructor
          · intro named
            split at named
            · next same =>
                obtain ⟨spelled, spells, whole⟩ := ih.mp named
                exact ⟨char :: spelled, .cons same spells, congrArg (List.cons char) whole⟩
            · cases named
          · rintro ⟨spelled, spells, whole⟩
            cases spells with
            | cons same later =>
                obtain ⟨rfl, rest_eq⟩ := List.cons.inj whole
                rw [if_pos same]
                exact ih.mpr ⟨_, later, rest_eq⟩

theorem afterClosing?_eq_some_iff {text tail : Text} :
    tag.afterClosing? text = some tail ↔
      ∃ closing, tag.IsClosing closing ∧ text = closing ++ tail := by
  constructor
  · intro closed
    unfold afterClosing? at closed
    split at closed
    · next others =>
        split at closed
        · next behind named =>
            split at closed
            · next rest dropped =>
                cases closed
                obtain ⟨spelled, spells, rfl⟩ := afterName?_eq_some_iff.mp named
                have whole := List.takeWhile_append_dropWhile (p := Text.isBlank) (l := behind)
                rw [dropped] at whole
                refine ⟨_, ⟨spelled, behind.takeWhile Text.isBlank, spells, ?_, rfl⟩, ?_⟩
                · intro char member
                  exact List.mem_takeWhile_imp member
                · conv_lhs => rw [← whole]
                  simp
            · cases closed
        · cases closed
    · cases closed
  · rintro ⟨closing, ⟨spelled, blanks, spells, blank, rfl⟩, rfl⟩
    have shape : '<' :: '/' :: (spelled ++ (blanks ++ ['>'])) ++ tail =
        '<' :: '/' :: (spelled ++ (blanks ++ '>' :: tail)) := by simp
    have named : afterName? tag.name (spelled ++ (blanks ++ '>' :: tail)) =
        some (blanks ++ '>' :: tail) := afterName?_eq_some_iff.mpr ⟨spelled, spells, rfl⟩
    have dropped : (blanks ++ '>' :: tail).dropWhile Text.isBlank = '>' :: tail := by
      rw [List.dropWhile_append_of_pos blank, List.dropWhile_cons_of_neg (by decide)]
    rw [shape, afterClosing?, named]
    simp only [dropped]

theorem exists_closing_of_splitAtClosing? {text inner tail : Text}
    (closed : tag.splitAtClosing? text = some (inner, tail)) :
    ∃ closing, tag.IsClosing closing ∧ text = inner ++ (closing ++ tail) := by
  induction text generalizing inner with
  | nil => cases closed
  | cons char rest ih =>
      rw [splitAtClosing?] at closed
      cases here : tag.afterClosing? (char :: rest) with
      | some behind =>
          rw [here] at closed
          cases closed
          exact afterClosing?_eq_some_iff.mp here
      | none =>
          rw [here] at closed
          cases later : tag.splitAtClosing? rest with
          | none => simp [later] at closed
          | some found =>
              obtain ⟨front, behind⟩ := found
              simp only [later, Option.some.injEq, Prod.mk.injEq] at closed
              obtain ⟨rfl, rfl⟩ := closed
              obtain ⟨closing, isClosing, whole⟩ := ih later
              exact ⟨closing, isClosing, congrArg (List.cons char) whole⟩

theorem isSome_splitAtClosing? {closing : Text} (isClosing : tag.IsClosing closing)
    (before behind : Text) : (tag.splitAtClosing? (before ++ (closing ++ behind))).isSome := by
  induction before with
  | nil =>
      have closed : tag.afterClosing? (closing ++ behind) = some behind :=
        afterClosing?_eq_some_iff.mpr ⟨closing, isClosing, rfl⟩
      cases whole : closing ++ behind with
      | nil =>
          rw [whole] at closed
          cases closed
      | cons char rest =>
          rw [whole] at closed
          rw [List.nil_append, splitAtClosing?, closed]
          rfl
  | cons char rest ih =>
      rw [List.cons_append, splitAtClosing?]
      cases tag.afterClosing? (char :: (rest ++ (closing ++ behind))) with
      | some tail => rfl
      | none =>
          obtain ⟨found, split⟩ := Option.isSome_iff_exists.mp ih
          rw [split]
          rfl

theorem afterAttributes?_eq_some_iff {text rest : Text} :
    afterAttributes? text = some rest ↔
      ∃ attributes, IsAttributes attributes ∧ text = attributes ++ rest := by
  unfold afterAttributes?
  constructor
  · intro attributed
    split at attributed
    · cases attributed
    · next wordEnds =>
        have whole := List.takeWhile_append_dropWhile (p := (· != '>')) (l := text)
        cases dropped : text.dropWhile (· != '>') with
        | nil => simp [dropped] at attributed
        | cons char tail =>
            have ends : char = '>' := by
              have first := List.head?_dropWhile_not (· != '>') text
              simpa [dropped] using first
            rw [dropped, List.tail?_cons, Option.some.injEq] at attributed
            rw [dropped, ends, attributed] at whole
            have shape : text = text.takeWhile (· != '>') ++ ['>'] ++ rest := by
              conv_lhs => rw [← whole]
              simp
            refine ⟨_, ⟨?_, text.takeWhile (· != '>'), ?_, rfl⟩, shape⟩
            · rw [shape] at wordEnds
              cases listed : text.takeWhile (· != '>') with
              | nil => decide
              | cons first others => simpa [listed] using wordEnds
            · intro member
              simpa using List.mem_takeWhile_imp member
  · rintro ⟨attributes, ⟨wordEnds, listed, inside, rfl⟩, rfl⟩
    have head : (listed ++ ['>'] ++ rest).head? = (listed ++ ['>']).head? := by
      cases listed <;> rfl
    rw [head, if_neg (Bool.eq_false_iff.mp wordEnds), List.append_assoc, List.singleton_append,
      Text.dropWhile_bne_append_cons inside]
    rfl

theorem afterOpening?_eq_some_iff {text rest : Text} :
    tag.afterOpening? text = some rest ↔ ∃ mark attributes, tag.IsMark mark ∧
      IsAttributes attributes ∧ text = mark ++ (attributes ++ rest) := by
  constructor
  · intro opened
    cases text with
    | nil => cases opened
    | cons char others =>
        rw [afterOpening?_cons] at opened
        split at opened
        · next less =>
            obtain ⟨behind, named, attributed⟩ := Option.bind_eq_some_iff.mp opened
            obtain ⟨spelled, spells, rfl⟩ := afterName?_eq_some_iff.mp named
            obtain ⟨attributes, isAttributes, rfl⟩ := afterAttributes?_eq_some_iff.mp attributed
            exact ⟨_, attributes, ⟨spelled, spells, rfl⟩, isAttributes, by rw [less]; rfl⟩
        · cases opened
  · rintro ⟨mark, attributes, ⟨spelled, spells, rfl⟩, isAttributes, rfl⟩
    rw [List.cons_append, afterOpening?_cons, if_pos rfl]
    apply Option.bind_eq_some_iff.mpr
    exact ⟨_, afterName?_eq_some_iff.mpr ⟨spelled, spells, rfl⟩,
      afterAttributes?_eq_some_iff.mpr ⟨attributes, isAttributes, rfl⟩⟩

/-- What is recognised is a block, of which the value is the inner text. -/
theorem exists_isBlock_of_recogniseBlock {text inner : Text} {size : Nat}
    (recognised : tag.recogniseBlock text = some (inner, size)) :
    ∃ mark attributes closing rest, tag.IsBlock mark attributes closing ∧
      text = mark ++ (attributes ++ (inner ++ (closing ++ rest))) ∧
      size = (mark ++ (attributes ++ (inner ++ closing))).length := by
  unfold recogniseBlock at recognised
  cases opened : tag.afterOpening? text with
  | none => simp [opened] at recognised
  | some behind =>
      cases closed : tag.splitAtClosing? behind with
      | none => simp [opened, closed] at recognised
      | some found =>
          obtain ⟨front, tail⟩ := found
          simp only [opened, closed, Option.some.injEq, Prod.mk.injEq] at recognised
          obtain ⟨rfl, sized⟩ := recognised
          obtain ⟨closing, isClosing, rfl⟩ := exists_closing_of_splitAtClosing? closed
          obtain ⟨mark, attributes, isMark, isAttributes, rfl⟩ :=
            afterOpening?_eq_some_iff.mp opened
          refine ⟨mark, attributes, closing, tail, ⟨isMark, isAttributes, isClosing⟩, rfl, ?_⟩
          simp only [List.length_append] at sized ⊢
          omega

theorem exists_of_recogniseBlock_append {source inner rest : Text}
    (recognised : tag.recogniseBlock (source ++ rest) = some (inner, source.length)) :
    ∃ behind, tag.afterOpening? (source ++ rest) = some behind ∧
      tag.splitAtClosing? behind = some (inner, rest) := by
  unfold recogniseBlock at recognised
  cases opened : tag.afterOpening? (source ++ rest) with
  | none => simp [opened] at recognised
  | some behind =>
      cases closed : tag.splitAtClosing? behind with
      | none => simp [opened, closed] at recognised
      | some found =>
          obtain ⟨front, tail⟩ := found
          simp only [opened, closed, Option.some.injEq, Prod.mk.injEq] at recognised
          obtain ⟨rfl, sized⟩ := recognised
          obtain ⟨closing, -, rfl⟩ := exists_closing_of_splitAtClosing? closed
          obtain ⟨mark, attributes, -, -, whole⟩ := afterOpening?_eq_some_iff.mp opened
          have lengths := congrArg List.length whole
          simp only [List.length_append] at lengths sized
          have shape : source ++ rest = (mark ++ (attributes ++ (front ++ closing))) ++ tail := by
            simpa using whole
          have same := (List.append_inj' shape (by omega)).2
          exact ⟨_, rfl, by rw [closed, same]⟩

/-- A block is recognised where a mark stands that no word character follows, and behind it a `>`
and a closing tag. -/
theorem isSome_recogniseBlock {mark upto inner closing : Text} (isMark : tag.IsMark mark)
    (isClosing : tag.IsClosing closing) (behind : Text)
    (wordEnds : (upto ++ '>' :: (inner ++ (closing ++ behind))).head?.any Text.isWord = false) :
    (tag.recogniseBlock (mark ++ (upto ++ '>' :: (inner ++ (closing ++ behind))))).isSome := by
  have attributed : ∃ more, afterAttributes? (upto ++ '>' :: (inner ++ (closing ++ behind))) =
      some (more ++ (closing ++ behind)) := by
    unfold afterAttributes?
    rw [if_neg (Bool.eq_false_iff.mp wordEnds), List.dropWhile_append]
    split
    · exact ⟨inner, by simp⟩
    · next notEmpty =>
        cases dropped : upto.dropWhile (· != '>') with
        | nil => simp [dropped] at notEmpty
        | cons char tail => exact ⟨tail ++ '>' :: inner, by simp⟩
  obtain ⟨more, attributed⟩ := attributed
  obtain ⟨attributes, isAttributes, whole⟩ := afterAttributes?_eq_some_iff.mp attributed
  have opened : tag.afterOpening? (mark ++ (upto ++ '>' :: (inner ++ (closing ++ behind)))) =
      some (more ++ (closing ++ behind)) :=
    afterOpening?_eq_some_iff.mpr ⟨mark, attributes, isMark, isAttributes, by rw [whole]⟩
  obtain ⟨found, closed⟩ :=
    Option.isSome_iff_exists.mp (isSome_splitAtClosing? isClosing more behind)
  rw [recogniseBlock, opened]
  simp [closed]

theorem IsBlock.isSome_recogniseBlock {mark attributes closing : Text}
    (isBlock : tag.IsBlock mark attributes closing) (inner behind : Text) :
    (tag.recogniseBlock (mark ++ (attributes ++ (inner ++ (closing ++ behind))))).isSome := by
  obtain ⟨listed, -, ends⟩ := isBlock.attributes.ends
  have shape : attributes ++ (inner ++ (closing ++ behind)) =
      listed ++ '>' :: (inner ++ (closing ++ behind)) := by simp [ends]
  have wordEnds := isBlock.attributes.wordEnds_append (inner ++ (closing ++ behind))
  rw [shape] at wordEnds ⊢
  exact Tag.isSome_recogniseBlock isBlock.mark isBlock.closing behind wordEnds

/-- A text before another one is recognised as a block. -/
def IsHit (tag : Tag) (_ : Option Char) (source inner rest : Text) : Prop :=
  tag.recogniseBlock (source ++ rest) = some (inner, source.length)

theorem IsHit.exists_isBlock {previous : Option Char} {source inner rest : Text}
    (isHit : tag.IsHit previous source inner rest) :
    ∃ mark attributes closing, tag.IsBlock mark attributes closing ∧
      source = mark ++ (attributes ++ (inner ++ closing)) := by
  obtain ⟨mark, attributes, closing, tail, isBlock, whole, sized⟩ :=
    exists_isBlock_of_recogniseBlock isHit
  have shape : source ++ rest = (mark ++ (attributes ++ (inner ++ closing))) ++ tail := by
    simpa using whole
  exact ⟨mark, attributes, closing, isBlock, (List.append_inj shape sized).1⟩

theorem recognises_block (tag : Tag) :
    Text.Recognises (fun _ => tag.recogniseBlock) tag.IsHit where
  accepts_iff := by
    intro _ text inner size
    constructor
    · intro recognised
      obtain ⟨mark, attributes, closing, rest, -, rfl, rfl⟩ :=
        exists_isBlock_of_recogniseBlock recognised
      exact ⟨mark ++ (attributes ++ (inner ++ closing)), rest, by simp, rfl,
        by simpa [IsHit] using recognised⟩
    · rintro ⟨source, rest, rfl, rfl, recognised⟩
      exact recognised
  ne_nil := by
    rintro _ source rest inner recognised rfl
    obtain ⟨mark, attributes, closing, -, isBlock, -, sized⟩ :=
      exists_isBlock_of_recogniseBlock recognised
    obtain ⟨spelled, -, rfl⟩ := isBlock.mark
    simp at sized

theorem cuts_pieces (tag : Tag) (body : Text) :
    Text.Cuts tag.IsHit none body (tag.pieces body) :=
  (recognises_block tag).cuts_scanFrom body 0 none

/-! ## Blocks inside texts -/

theorem HoldsBlock.around {text : Text} (holds : tag.HoldsBlock text) (before behind : Text) :
    tag.HoldsBlock (before ++ (text ++ behind)) := by
  obtain ⟨front, mark, attributes, inner, closing, rest, isBlock, rfl⟩ := holds
  exact ⟨before ++ front, mark, attributes, inner, closing, rest ++ behind, isBlock, by simp⟩

/-- A block begins and ends with no blank, so trimming takes none away. -/
theorem holdsBlock_trim_iff {text : Text} :
    tag.HoldsBlock (Text.trim text) ↔ tag.HoldsBlock text := by
  constructor
  · intro holds
    obtain ⟨before, behind, whole, -, -⟩ := Text.exists_blanks_around_trim text
    rw [whole, List.append_assoc]
    exact holds.around before behind
  · rintro ⟨before, mark, attributes, inner, closing, behind, isBlock, rfl⟩
    obtain ⟨spelled, -, isMark⟩ := isBlock.mark
    obtain ⟨closingName, blanks, -, -, isClosing⟩ := isBlock.closing
    have shape : before ++ (mark ++ (attributes ++ (inner ++ (closing ++ behind)))) =
        before ++ '<' :: ((spelled ++ (attributes ++ (inner ++ '<' :: '/' ::
          (closingName ++ blanks)))) ++ '>' :: behind) := by
      simp [isMark, isClosing]
    have trimmed := Text.trim_append_cons before (show Text.isBlank '<' = false by decide)
      ((spelled ++ (attributes ++ (inner ++ '<' :: '/' :: (closingName ++ blanks)))) ++
        '>' :: behind)
    rw [Text.trimEnd_append_cons _ (by decide)] at trimmed
    refine ⟨Text.trimStart Text.isBlank before, mark, attributes, inner, closing,
      Text.trimEnd Text.isBlank behind, isBlock, ?_⟩
    rw [shape, trimmed]
    simp [isMark, isClosing]

theorem Cuts.holdsBlock_iff {previous : Option Char} {text : Text} {pieces : List (Text.Piece Text)}
    (cuts : Text.Cuts tag.IsHit previous text pieces) :
    tag.HoldsBlock text ↔ Text.hits pieces ≠ [] := by
  induction cuts with
  | done =>
      refine iff_of_false ?_ (fun some_ => some_ rfl)
      rintro ⟨before, mark, attributes, inner, closing, behind, isBlock, whole⟩
      simp [isBlock.mark.ne_nil] at whole
  | @plain previous char rest pieces noHit later ih =>
      rw [Text.hits_plain, ← ih]
      constructor
      · rintro ⟨before, mark, attributes, inner, closing, behind, isBlock, whole⟩
        cases before with
        | nil =>
            have found := isBlock.isSome_recogniseBlock inner behind
            rw [← List.nil_append (mark ++ _), ← whole,
              (recognises_block tag).eq_none noHit] at found
            cases found
        | cons first others =>
            obtain ⟨rfl, below⟩ := List.cons.inj whole
            exact ⟨others, mark, attributes, inner, closing, behind, isBlock, below⟩
      · intro holds
        simpa using holds.around [char] []
  | @hit previous source rest inner pieces isHit later ih =>
      obtain ⟨mark, attributes, closing, isBlock, whole⟩ := isHit.exists_isBlock
      refine iff_of_true ?_ (by simp)
      exact ⟨[], mark, attributes, inner, closing, rest, isBlock, by simp [whole]⟩

/-- A block stands in a text exactly when a search for one has a hit. -/
theorem holdsBlock_iff_hits {text : Text} :
    tag.HoldsBlock text ↔ Text.hits (tag.pieces text) ≠ [] :=
  Cuts.holdsBlock_iff (cuts_pieces tag text)

end DocComponents.Tag
