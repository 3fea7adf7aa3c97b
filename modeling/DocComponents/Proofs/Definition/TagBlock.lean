import DocComponents.Definition.TagBlock
import DocComponents.Proofs.Text.Scan
import DocComponents.Proofs.Text.Trim

/-!
# Blocks behind a text

What is recognised in a text is recognised in the same place when a `<` or the end of a line comes
behind it, since no tag goes on over them unfinished. So a block that is written behind a text is
found there, up to the first closing tag of its own kind.
-/

set_option autoImplicit false

namespace DocComponents.Tag

variable {tag : Tag}

def opening (tag : Tag) : Text :=
  '<' :: tag.name ++ ['>']

def closing (tag : Tag) : Text :=
  '<' :: '/' :: tag.name ++ ['>']

def block (tag : Tag) (inner : Text) : Text :=
  tag.opening ++ inner ++ tag.closing

/-- Whether `<` and the name of the tag, in letters of either case, stand somewhere in a text. -/
def isNamedIn (tag : Tag) : Text → Bool
  | [] => false
  | char :: rest => char == '<' && (afterName? tag.name rest).isSome || tag.isNamedIn rest

def beforeClosing (tag : Tag) (text : Text) : Text :=
  match tag.splitAtClosing? text with
  | some (inner, _) => inner
  | none => text

/-- What follows the attributes of an opening tag, behind its name. -/
def afterAttributes? (text : Text) : Option Text :=
  if text.head?.any Text.isWord then none else (text.dropWhile (· != '>')).tail?

/-! ### Names -/

/-- A character that no name of a tag holds in any case. -/
def IsOutside (mark : Char) : Prop :=
  ∀ tag : Tag, ∀ letter ∈ tag.name, isCaseOf letter mark = false

theorem isOutside_of_all {mark : Char}
    (outside : ∀ tag : Tag, tag.name.all (fun letter => !isCaseOf letter mark) = true) :
    IsOutside mark := by
  intro tag letter member
  simpa using List.all_eq_true.mp (outside tag) letter member

theorem isOutside_lineFeed : IsOutside '\n' :=
  isOutside_of_all fun tag => by cases tag <;> rfl

theorem isOutside_less : IsOutside '<' :=
  isOutside_of_all fun tag => by cases tag <;> rfl

theorem isOutside_greater : IsOutside '>' :=
  isOutside_of_all fun tag => by cases tag <;> rfl

theorem afterName?_name (tag : Tag) (rest : Text) :
    afterName? tag.name (tag.name ++ rest) = some rest := by
  cases tag <;> rfl

theorem afterName?_append_cons {name : Text} {mark : Char}
    (outside : ∀ letter ∈ name, isCaseOf letter mark = false) (text rest : Text) :
    afterName? name (text ++ mark :: rest) = (afterName? name text).map (· ++ mark :: rest) := by
  induction name generalizing text with
  | nil => rfl
  | cons letter others ih =>
      have later := ih fun other member => outside other (List.mem_cons_of_mem _ member)
      cases text with
      | nil => simp [afterName?, outside letter List.mem_cons_self]
      | cons char tail =>
          by_cases same : isCaseOf letter char = true
          · simp [afterName?, same, later]
          · simp [afterName?, same]

theorem length_le_of_afterName? {name text rest : Text} (named : afterName? name text = some rest) :
    rest.length ≤ text.length := by
  induction name generalizing text with
  | nil =>
      cases named
      exact Nat.le_refl _
  | cons letter others ih =>
      cases text with
      | nil => cases named
      | cons char tail =>
          rw [afterName?] at named
          split at named
          · exact Nat.le_succ_of_le (ih named)
          · cases named

theorem isNamedIn_append_cons {mark : Char} (outside : IsOutside mark) (notLess : mark ≠ '<')
    (text rest : Text) :
    tag.isNamedIn (text ++ mark :: rest) = (tag.isNamedIn text || tag.isNamedIn rest) := by
  induction text with
  | nil => simp [isNamedIn, notLess]
  | cons char others ih =>
      rw [List.cons_append, isNamedIn, isNamedIn, ih, afterName?_append_cons (outside tag)]
      simp [Bool.or_assoc]

/-! ### Closing tags -/

theorem afterClosing?_closing (tag : Tag) (rest : Text) :
    tag.afterClosing? (tag.closing ++ rest) = some rest := by
  have close : ('>' :: rest).dropWhile Text.isBlank = '>' :: rest :=
    List.dropWhile_cons_of_neg (by decide)
  have shape : tag.closing ++ rest = '<' :: '/' :: (tag.name ++ '>' :: rest) := by
    simp [closing]
  rw [shape, afterClosing?, afterName?_name]
  dsimp only
  rw [close]
  rfl

theorem afterClosing?_append_less (tag : Tag) {text : Text} (notEmpty : text ≠ [])
    (rest : Text) :
    tag.afterClosing? (text ++ '<' :: rest) = (tag.afterClosing? text).map (· ++ '<' :: rest) := by
  match text with
  | [] => exact absurd rfl notEmpty
  | [char] => simp [afterClosing?]
  | first :: second :: others =>
      by_cases marks : first = '<' ∧ second = '/'
      · obtain ⟨rfl, rfl⟩ := marks
        rw [List.cons_append, List.cons_append, afterClosing?, afterClosing?,
          afterName?_append_cons (isOutside_less tag)]
        cases afterName? tag.name others with
        | none => rfl
        | some behind =>
            -- A name at the very end of the text is not closed by what follows, which is no `>`.
            have drop : (behind ++ '<' :: rest).dropWhile Text.isBlank =
                behind.dropWhile Text.isBlank ++ '<' :: rest := by
              rw [List.dropWhile_append, List.dropWhile_cons_of_neg (by decide)]
              split
              · next empty => rw [List.isEmpty_iff.mp empty, List.nil_append]
              · rfl
            rw [Option.map_some]
            simp only [drop]
            cases behind.dropWhile Text.isBlank with
            | nil => rfl
            | cons next tail =>
                by_cases closes : next = '>'
                · subst closes
                  rfl
                · simp [closes]
      · have noTag (tail : Text) : tag.afterClosing? (first :: second :: tail) = none := by
          unfold afterClosing?
          split
          · next same =>
              cases same
              exact absurd ⟨rfl, rfl⟩ marks
          · rfl
        rw [List.cons_append, List.cons_append, noTag, noTag]
        rfl

theorem splitAtClosing?_append_less (tag : Tag) (text rest : Text) :
    tag.splitAtClosing? (text ++ '<' :: rest) =
      match tag.splitAtClosing? text with
      | some (inner, tail) => some (inner, tail ++ '<' :: rest)
      | none =>
        (tag.splitAtClosing? ('<' :: rest)).map fun (inner, tail) => (text ++ inner, tail) := by
  induction text with
  | nil =>
      have noneHere : tag.splitAtClosing? [] = none := rfl
      rw [List.nil_append, noneHere]
      cases tag.splitAtClosing? ('<' :: rest) <;> rfl
  | cons char others ih =>
      have here := tag.afterClosing?_append_less (List.cons_ne_nil char others) rest
      rw [List.cons_append] at here ⊢
      rw [splitAtClosing?, splitAtClosing?, here, ih]
      cases tag.afterClosing? (char :: others) with
      | some tail => rfl
      | none =>
          cases tag.splitAtClosing? others with
          | some found => rfl
          | none => cases tag.splitAtClosing? ('<' :: rest) <;> rfl

theorem splitAtClosing?_closing (rest : Text) :
    tag.splitAtClosing? (tag.closing ++ rest) = some ([], rest) := by
  have closes := tag.afterClosing?_closing rest
  cases shape : tag.closing ++ rest with
  | nil => simp [closing] at shape
  | cons char others =>
      rw [shape] at closes
      rw [splitAtClosing?, closes]

theorem exists_splitAtClosing?_append_closing (tag : Tag) (inner rest : Text) :
    ∃ tail, tag.splitAtClosing? (inner ++ (tag.closing ++ rest)) =
      some (tag.beforeClosing inner, tail) := by
  have shape : tag.closing ++ rest = '<' :: ('/' :: tag.name ++ ['>'] ++ rest) := rfl
  have split := tag.splitAtClosing?_append_less inner ('/' :: tag.name ++ ['>'] ++ rest)
  rw [← shape, splitAtClosing?_closing] at split
  rw [split, beforeClosing]
  cases tag.splitAtClosing? inner with
  | some found => exact ⟨_, rfl⟩
  | none => exact ⟨rest, by simp⟩

theorem splitAtClosing?_append_closing {inner : Text} (open_ : tag.splitAtClosing? inner = none)
    (rest : Text) :
    tag.splitAtClosing? (inner ++ (tag.closing ++ rest)) = some (inner, rest) := by
  have shape : tag.closing ++ rest = '<' :: ('/' :: tag.name ++ ['>'] ++ rest) := rfl
  have split := tag.splitAtClosing?_append_less inner ('/' :: tag.name ++ ['>'] ++ rest)
  rw [← shape, splitAtClosing?_closing, open_] at split
  simpa using split

theorem beforeClosing_of_eq_none {text : Text} (open_ : tag.splitAtClosing? text = none) :
    tag.beforeClosing text = text := by
  rw [beforeClosing, open_]

theorem length_lt_of_afterClosing? {text tail : Text}
    (closed : tag.afterClosing? text = some tail) : tail.length < text.length := by
  unfold afterClosing? at closed
  split at closed
  · next others =>
      split at closed
      · next behind named =>
          have shorter := length_le_of_afterName? named
          have dropped := (List.dropWhile_sublist Text.isBlank (l := behind)).length_le
          split at closed
          · next closing found =>
              cases closed
              rw [found] at dropped
              simp only [List.length_cons] at dropped ⊢
              omega
          · cases closed
      · cases closed
  · cases closed

/-- The closing tag itself belongs neither to what stands before it nor to what stands behind. -/
theorem length_add_lt_of_splitAtClosing? {text inner tail : Text}
    (closed : tag.splitAtClosing? text = some (inner, tail)) :
    inner.length + tail.length < text.length := by
  induction text generalizing inner with
  | nil => cases closed
  | cons char rest ih =>
      rw [splitAtClosing?] at closed
      cases here : tag.afterClosing? (char :: rest) with
      | some behind =>
          rw [here] at closed
          cases closed
          simpa using length_lt_of_afterClosing? here
      | none =>
          rw [here] at closed
          cases later : tag.splitAtClosing? rest with
          | none => simp [later] at closed
          | some found =>
              obtain ⟨front, behind⟩ := found
              simp only [later, Option.some.injEq, Prod.mk.injEq] at closed
              obtain ⟨rfl, rfl⟩ := closed
              have shorter := ih later
              simp only [List.length_cons]
              omega

theorem length_beforeClosing_le (tag : Tag) (text : Text) :
    (tag.beforeClosing text).length ≤ text.length ∧
      ((tag.beforeClosing text).length = text.length → tag.splitAtClosing? text = none) := by
  unfold beforeClosing
  cases closed : tag.splitAtClosing? text with
  | none => exact ⟨Nat.le_refl _, fun _ => rfl⟩
  | some found =>
      have shorter := length_add_lt_of_splitAtClosing? closed
      constructor <;> dsimp only <;> omega

/-! ### Blocks -/

theorem afterOpening?_opening (rest : Text) :
    tag.afterOpening? (tag.opening ++ rest) = some rest := by
  have noWord : Text.isWord '>' = false := by decide
  have shape : tag.opening ++ rest = '<' :: (tag.name ++ '>' :: rest) := by
    simp [opening]
  rw [shape, afterOpening?, afterName?_name]
  simp [noWord]

theorem recogniseBlock_eq_none {char : Char} {text : Text}
    (notNamed : (char == '<' && (afterName? tag.name text).isSome) = false) :
    tag.recogniseBlock (char :: text) = none := by
  have noTag : tag.afterOpening? (char :: text) = none := by
    unfold afterOpening?
    split
    · next same =>
        cases same
        cases named : afterName? tag.name text with
        | none => rfl
        | some rest => simp [named] at notNamed
    · rfl
  rw [recogniseBlock, noTag]

/-- A text without the name of a tag behind a `<` is passed over. -/
theorem pieces_append_cons {lead : Text} {mark : Char} (notNamed : tag.isNamedIn lead = false)
    (outside : IsOutside mark) (notLess : mark ≠ '<') (rest : Text) :
    tag.pieces (lead ++ mark :: rest) = (lead ++ [mark]).map .plain ++ tag.pieces rest := by
  induction lead with
  | nil =>
      have rejected : tag.recogniseBlock (mark :: rest) = none :=
        recogniseBlock_eq_none (by simp [notLess])
      exact Text.scan_cons_of_eq_none rejected
  | cons char others ih =>
      rw [isNamedIn, Bool.or_eq_false_iff] at notNamed
      have rejected : tag.recogniseBlock (char :: (others ++ mark :: rest)) = none := by
        apply recogniseBlock_eq_none
        rw [afterName?_append_cons (outside tag), Option.isSome_map]
        exact notNamed.1
      have passed := Text.scan_cons_of_eq_none rejected
      exact passed.trans (congrArg _ (ih notNamed.2))

/-- A written block is recognised down to the first closing tag in it. -/
theorem exists_recogniseBlock_block (tag : Tag) (inner rest : Text) :
    ∃ size, tag.recogniseBlock (tag.block inner ++ rest) =
      some (tag.beforeClosing inner, size + 1) := by
  obtain ⟨tail, split⟩ := tag.exists_splitAtClosing?_append_closing inner rest
  have shorter := length_add_lt_of_splitAtClosing? split
  have longer : tail.length < (tag.opening ++ (inner ++ (tag.closing ++ rest))).length := by
    rw [List.length_append]
    omega
  refine ⟨(tag.opening ++ (inner ++ (tag.closing ++ rest))).length - tail.length - 1, ?_⟩
  rw [block, List.append_assoc, List.append_assoc, recogniseBlock, afterOpening?_opening]
  simp only [split]
  congr 2
  omega

theorem head?_hits_block (inner rest : Text) :
    (Text.hits (tag.pieces (tag.block inner ++ rest))).head? = some (tag.beforeClosing inner) := by
  obtain ⟨size, recognised⟩ := tag.exists_recogniseBlock_block inner rest
  exact Text.head?_hits_scan recognised

theorem pieces_block {inner : Text} (open_ : tag.splitAtClosing? inner = none) (rest : Text) :
    tag.pieces (tag.block inner ++ rest) = .hit (tag.block inner) inner :: tag.pieces rest := by
  apply Text.scan_append_of_eq_some
  · simp [block, opening]
  · rw [block, List.append_assoc, List.append_assoc, recogniseBlock, afterOpening?_opening]
    simp only [splitAtClosing?_append_closing open_]
    simp
    omega

theorem afterOpening?_cons (char : Char) (text : Text) :
    tag.afterOpening? (char :: text) =
      if char = '<' then (afterName? tag.name text).bind afterAttributes? else none := by
  by_cases less : char = '<'
  · subst less
    rw [afterOpening?, if_pos rfl]
    cases afterName? tag.name text <;> rfl
  · rw [if_neg less]
    unfold afterOpening?
    split
    · next same =>
        cases same
        exact absurd rfl less
    · rfl

/-- Attributes that a text leaves open can only end with the closing tag behind the text, and then
nothing is left. -/
theorem afterAttributes?_append_closing (tag : Tag) (text : Text) :
    afterAttributes? (text ++ tag.closing) = (afterAttributes? text).map (· ++ tag.closing) ∨
      afterAttributes? text = none ∧ afterAttributes? (text ++ tag.closing) = some [] := by
  have sameHead : ((text ++ tag.closing).head?).any Text.isWord = text.head?.any Text.isWord := by
    cases text with
    | nil => cases tag <;> decide
    | cons first rest => rfl
  have lastMark : tag.closing.dropWhile (· != '>') = ['>'] := by
    cases tag <;> rfl
  unfold afterAttributes?
  rw [sameHead, List.dropWhile_append, lastMark]
  split
  · exact .inl rfl
  · cases text.dropWhile (· != '>') with
    | nil => exact .inr ⟨rfl, rfl⟩
    | cons mark inner => exact .inl rfl

theorem afterOpening?_append_closing (tag other : Tag) {text : Text} (notEmpty : text ≠ []) :
    tag.afterOpening? (text ++ other.closing) =
        (tag.afterOpening? text).map (· ++ other.closing) ∨
      tag.afterOpening? text = none ∧ tag.afterOpening? (text ++ other.closing) = some [] := by
  obtain ⟨char, rest, rfl⟩ := List.exists_cons_of_ne_nil notEmpty
  have named := afterName?_append_cons (isOutside_less tag) rest ('/' :: other.name ++ ['>'])
  change afterName? tag.name (rest ++ other.closing) = _ at named
  rw [List.cons_append, afterOpening?_cons, afterOpening?_cons, named]
  split
  · cases afterName? tag.name rest with
    | none => exact .inl rfl
    | some behind => exact afterAttributes?_append_closing other behind
  · exact .inl rfl

/-- What is recognised in a text is not changed by the closing tag of another kind behind it. -/
theorem recogniseBlock_append_closing {other : Tag} (different : other ≠ tag) {text : Text}
    (notEmpty : text ≠ []) :
    tag.recogniseBlock (text ++ other.closing) = tag.recogniseBlock text := by
  have noClosing : tag.splitAtClosing? other.closing = none := by
    cases tag <;> cases other <;> first | exact absurd rfl different | decide
  rw [recogniseBlock, recogniseBlock]
  rcases tag.afterOpening?_append_closing other notEmpty with opened | ⟨closed, opened⟩
  · rw [opened]
    cases tag.afterOpening? text with
    | none => rfl
    | some inner =>
        have split := tag.splitAtClosing?_append_less inner ('/' :: other.name ++ ['>'])
        change tag.splitAtClosing? (inner ++ other.closing) = match _ with
          | some (inner, tail) => some (inner, tail ++ other.closing)
          | none => (tag.splitAtClosing? other.closing).map _ at split
        rw [noClosing] at split
        simp only [Option.map_some, split]
        cases tag.splitAtClosing? inner with
        | none => rfl
        | some found => simp [Nat.add_sub_add_right]
  · rw [opened, closed]
    rfl

theorem pieces_append_closing {other : Tag} (different : other ≠ tag) (text : Text) :
    tag.pieces (text ++ other.closing) = tag.pieces text ++ other.closing.map .plain := by
  have plain : tag.pieces other.closing = other.closing.map .plain := by
    cases tag <;> cases other <;> first | exact absurd rfl different | decide
  rw [← plain]
  apply Text.scan_append
  · intro left notEmpty
    exact recogniseBlock_append_closing different notEmpty
  · intro left inner size accepted
    unfold recogniseBlock at accepted
    split at accepted
    · cases accepted
    · split at accepted
      · cases accepted
        exact Nat.sub_le _ _
      · cases accepted

/-! ### Extraction -/

/-- Of a block that is written on a line below a text without such tags, the text before the first
closing tag is extracted. -/
theorem extract_block_fst {lead : Text} (notNamed : tag.isNamedIn lead = false)
    (inner rest : Text) :
    (tag.extract (lead ++ '\n' :: (tag.block inner ++ rest))).1 =
      Text.trim (tag.beforeClosing inner) := by
  have passed := pieces_append_cons notNamed isOutside_lineFeed (by decide)
    (tag.block inner ++ rest)
  have found := List.headD_eq_head?_getD (l := Text.hits (tag.pieces (tag.block inner ++ rest)))
    (a := [])
  rw [head?_hits_block] at found
  simp only [extract, passed, Text.hits_append, Text.hits_map_plain, List.nil_append]
  exact congrArg Text.trim found

/-- A block without another closing tag in it is taken out, and no more than this block. -/
theorem extract_block_snd {lead inner : Text} (notNamed : tag.isNamedIn lead = false)
    (open_ : tag.splitAtClosing? inner = none) (rest : Text) :
    (tag.extract (lead ++ '\n' :: (tag.block inner ++ rest))).2 =
      lead ++ '\n' :: (tag.extract rest).2 := by
  have passed := pieces_append_cons notNamed isOutside_lineFeed (by decide)
    (tag.block inner ++ rest)
  simp only [extract, passed, pieces_block open_, Text.replaceHits_append,
    Text.replaceHits_map_plain]
  simp [Text.replaceHits]

theorem extract_snd_of_hits_eq_nil {text : Text} (noBlock : Text.hits (tag.pieces text) = []) :
    (tag.extract text).2 = text := by
  simp only [extract]
  rw [Text.replaceHits_of_hits_eq_nil _ noBlock]
  exact Text.source_scan tag.recogniseBlock text

theorem length_extract_snd (tag : Tag) (text : Text) :
    (tag.extract text).2.length + (Text.hits (tag.pieces text)).length ≤ text.length :=
  Text.length_replaceHits_scan tag.recogniseBlock text

/-- Blocks of one tag are taken out of the block of another tag, which itself stays. -/
theorem extract_other_block {other : Tag} (different : other ≠ tag) (inner : Text) :
    (tag.extract ('\n' :: other.block inner)).2 =
      '\n' :: (other.opening ++ (tag.extract inner).2 ++ other.closing) := by
  have notNamed : tag.isNamedIn ('\n' :: '<' :: other.name) = false := by
    cases tag <;> cases other <;> first | exact absurd rfl different | decide
  have passed := pieces_append_cons notNamed isOutside_greater (by decide) (inner ++ other.closing)
  have shape : '\n' :: other.block inner =
      '\n' :: '<' :: other.name ++ '>' :: (inner ++ other.closing) := by
    simp [block, opening]
  rw [shape]
  simp only [extract, passed, pieces_append_closing different, Text.replaceHits_append,
    Text.replaceHits_map_plain]
  simp [opening]

end DocComponents.Tag
