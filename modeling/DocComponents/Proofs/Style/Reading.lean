import DocComponents.Proofs.Text.Trim

/-!
# Reading past comments

A reader of a stylesheet passes over its comments. A comment is begun by a slash and a star outside
of quotes, and ended by the first star and slash behind them; so a slash is held back until the next
character tells what it was. What is seen of a text depends on the place the reader has come to, and
text is read piece by piece from place to place.
-/

set_option autoImplicit false

namespace DocComponents.Style

open Text (IsBlankText)

/-- Where a reader stands: outside of quotes and comments, inside quotes, behind a slash that can
begin a comment, inside a comment, or behind a star in it. -/
inductive Place where
  | code
  | quoted (quote : Char)
  | slash
  | comment
  | star
  deriving DecidableEq, Repr

namespace Place

/-- The place behind a character that no comment begins or ends with. -/
def entered (char : Char) : Place :=
  if char = '"' ∨ char = '\'' then .quoted char else if char = '/' then .slash else .code

def next : Place → Char → Place
  | code, char => entered char
  | quoted quote, char => if char = quote then .code else .quoted quote
  | slash, char => if char = '*' then .comment else entered char
  | comment, char => if char = '*' then .star else .comment
  | star, char => if char = '/' then .code else if char = '*' then .star else .comment

def isHidden : Place → Bool
  | comment | star => true
  | _ => false

/-- What the reader holds back. -/
def held : Place → Text
  | slash => ['/']
  | _ => []

def seen (place : Place) (char : Char) : Text :=
  if place.isHidden then []
  else
    match place.next char with
    | slash => place.held
    | comment => []
    | _ => place.held ++ [char]

def read : Place → Text → Text
  | _, [] => []
  | place, char :: rest => place.seen char ++ (place.next char).read rest

def after (place : Place) (text : Text) : Place :=
  text.foldl next place

@[simp]
theorem read_nil (place : Place) : place.read [] = [] := rfl

@[simp]
theorem after_nil (place : Place) : place.after [] = place := rfl

theorem read_cons (place : Place) (char : Char) (rest : Text) :
    place.read (char :: rest) = place.seen char ++ (place.next char).read rest := rfl

theorem after_cons (place : Place) (char : Char) (rest : Text) :
    place.after (char :: rest) = (place.next char).after rest := rfl

theorem after_append (place : Place) (left right : Text) :
    place.after (left ++ right) = (place.after left).after right :=
  List.foldl_append

theorem read_append (place : Place) (left right : Text) :
    place.read (left ++ right) = place.read left ++ (place.after left).read right := by
  induction left generalizing place with
  | nil => rfl
  | cons char rest ih => rw [List.cons_append, read_cons, read_cons, after_cons, ih,
      List.append_assoc]

end Place

def uncomment (text : Text) : Text :=
  Place.code.read text ++ (Place.code.after text).held

/-- A text that ends no comment, whatever stands around it. -/
def IsHarmless (text : Text) : Prop :=
  '*' ∉ text ∧ '/' ∉ text

instance (text : Text) : Decidable (IsHarmless text) :=
  inferInstanceAs (Decidable (_ ∧ _))

theorem IsHarmless.append {left right : Text} (harmlessLeft : IsHarmless left)
    (harmlessRight : IsHarmless right) : IsHarmless (left ++ right) := by
  constructor
  · exact List.not_mem_append harmlessLeft.1 harmlessRight.1
  · exact List.not_mem_append harmlessLeft.2 harmlessRight.2

theorem isHarmless_of_isBlankText {text : Text} (blanks : IsBlankText text) : IsHarmless text :=
  ⟨fun member => absurd (blanks '*' member) (by decide),
    fun member => absurd (blanks '/' member) (by decide)⟩

namespace Place

/-! ## Inside a comment -/

theorem next_of_isHidden {place : Place} (hidden : place.isHidden = true) {char : Char}
    (noStar : char ≠ '*') (noSlash : char ≠ '/') : place.next char = .comment := by
  cases place with
  | comment => simp [next, noStar]
  | star => simp [next, noStar, noSlash]
  | _ => cases hidden

theorem seen_of_isHidden {place : Place} (hidden : place.isHidden = true) (char : Char) :
    place.seen char = [] :=
  if_pos hidden

theorem read_cons_of_isHidden {place : Place} (hidden : place.isHidden = true) {char : Char}
    (noStar : char ≠ '*') (noSlash : char ≠ '/') (rest : Text) :
    place.read (char :: rest) = comment.read rest ∧
      place.after (char :: rest) = comment.after rest := by
  rw [read_cons, after_cons, seen_of_isHidden hidden, next_of_isHidden hidden noStar noSlash]
  exact ⟨rfl, rfl⟩

theorem read_comma {place : Place} (hidden : place.isHidden = true) (rest : Text) :
    place.read (',' :: rest) = comment.read rest ∧
      place.after (',' :: rest) = comment.after rest :=
  read_cons_of_isHidden hidden (by decide) (by decide) rest

/-- Harmless text in a comment changes nothing for the reader. -/
theorem comment_append {text : Text} (harmless : IsHarmless text) (rest : Text) :
    comment.read (text ++ rest) = comment.read rest ∧
      comment.after (text ++ rest) = comment.after rest := by
  induction text with
  | nil => exact ⟨rfl, rfl⟩
  | cons char others ih =>
      obtain ⟨noStar, noSlash⟩ := harmless
      simp only [List.mem_cons, not_or] at noStar noSlash
      have hidden : comment.isHidden = true := rfl
      have behind := read_cons_of_isHidden hidden (Ne.symm noStar.1) (Ne.symm noSlash.1)
        (others ++ rest)
      rw [List.cons_append, behind.1, behind.2]
      exact ih ⟨noStar.2, noSlash.2⟩

/-- Behind harmless text the comment goes on. -/
theorem read_of_isHarmless {place : Place} (hidden : place.isHidden = true) {text : Text}
    (harmless : IsHarmless text) :
    place.read text = [] ∧ (place.after text).isHidden = true := by
  cases text with
  | nil => exact ⟨rfl, hidden⟩
  | cons char rest =>
      obtain ⟨noStar, noSlash⟩ := harmless
      simp only [List.mem_cons, not_or] at noStar noSlash
      have behind := read_cons_of_isHidden hidden (Ne.symm noStar.1) (Ne.symm noSlash.1) rest
      have inside := comment_append ⟨noStar.2, noSlash.2⟩ []
      rw [List.append_nil] at inside
      rw [behind.1, behind.2, inside.1, inside.2]
      exact ⟨rfl, rfl⟩

/-- A comment is not ended by what holds no star before a slash. -/
theorem read_of_not_infix {place : Place} (hidden : place.isHidden = true) {content : Text}
    (inside : ¬ ['*', '/'] <:+: content)
    (apart : place = .star → content.head? ≠ some '/') :
    place.read content = [] ∧ (place.after content).isHidden = true := by
  induction content generalizing place with
  | nil => exact ⟨rfl, hidden⟩
  | cons char rest ih =>
      have stays : (place.next char).isHidden = true ∧
          (place.next char = .star → char = '*') := by
        cases place with
        | comment => by_cases isStar : char = '*' <;> simp [next, isStar, isHidden]
        | star =>
            have noSlash : char ≠ '/' := by simpa using apart rfl
            by_cases isStar : char = '*' <;> simp [next, noSlash, isStar, isHidden]
        | _ => cases hidden
      have insideRest : ¬ ['*', '/'] <:+: rest := fun found =>
        inside (found.trans (List.suffix_cons char rest).isInfix)
      rw [read_cons, after_cons, seen_of_isHidden hidden, List.nil_append]
      refine ih stays.1 insideRest fun isStar first => inside ?_
      obtain ⟨others, whole⟩ := List.head?_eq_some_iff.mp first
      exact ⟨[], others, by rw [stays.2 isStar, whole]; rfl⟩

theorem read_close {place : Place} (hidden : place.isHidden = true) :
    place.read ['*', '/'] = [] ∧ place.after ['*', '/'] = .code := by
  cases place with
  | comment => exact ⟨rfl, rfl⟩
  | star => exact ⟨rfl, rfl⟩
  | _ => cases hidden

/-- A comment is not seen. -/
theorem read_comment {content : Text} (inside : ¬ ['*', '/'] <:+: content) :
    code.read ('/' :: '*' :: (content ++ ['*', '/'])) = [] ∧
      code.after ('/' :: '*' :: (content ++ ['*', '/'])) = .code := by
  have begun : comment.isHidden = true := rfl
  obtain ⟨unseen, hidden⟩ := read_of_not_infix begun inside (by simp)
  have opened : ∀ rest, code.read ('/' :: '*' :: rest) = comment.read rest ∧
      code.after ('/' :: '*' :: rest) = comment.after rest := fun _ => ⟨rfl, rfl⟩
  rw [(opened _).1, (opened _).2, read_append, after_append, unseen]
  exact read_close hidden

/-! ## Outside of comments -/

/-- What stands outside of comments is seen, when no comment can begin or end with it. -/
theorem mem_seen {place : Place} (shown : place.isHidden = false) {char : Char}
    (noStar : char ≠ '*') (noSlash : char ≠ '/') : char ∈ place.seen char := by
  have entered : entered char ≠ .slash ∧ entered char ≠ .comment := by
    unfold Place.entered
    rw [if_neg noSlash]
    split <;> simp
  have next : place.next char ≠ .slash ∧ place.next char ≠ .comment := by
    cases place with
    | code => exact entered
    | quoted quote => by_cases same : char = quote <;> simp [Place.next, same]
    | slash => simpa [Place.next, noStar] using entered
    | _ => cases shown
  rw [seen, shown, if_neg (by simp)]
  split
  · next isSlash => exact absurd isSlash next.1
  · next isComment => exact absurd isComment next.2
  · simp

/-- Where a reader sees blanks only, other characters stand in comments. -/
theorem isHidden_of_read_blank {place : Place} {before rest : Text} {char : Char}
    (blanks : IsBlankText (place.read (before ++ char :: rest)))
    (special : char ∈ [',', '{', '}', ';']) : (place.after before).isHidden = true := by
  have apart : [',', '{', '}', ';'].all (fun other =>
      !Text.isBlank other && other != '*' && other != '/') = true := by decide
  have plain := List.all_eq_true.mp apart char special
  simp only [Bool.and_eq_true, Bool.not_eq_true', bne_iff_ne] at plain
  by_contra shown
  have isSeen := mem_seen (by simpa using shown) plain.1.2 plain.2
  have blank := blanks char (by
    rw [read_append, read_cons]
    exact List.mem_append_right _ (List.mem_append_left _ isSeen))
  rw [plain.1.1] at blank
  cases blank

/-- A text in which no comment begins. -/
def Plain : Place → Text → Prop
  | _, [] => True
  | place, char :: rest => place.next char ≠ .comment ∧ (place.next char).Plain rest

theorem plain_append (place : Place) (left right : Text) :
    place.Plain (left ++ right) ↔ place.Plain left ∧ (place.after left).Plain right := by
  induction left generalizing place with
  | nil => simp [Plain]
  | cons char rest ih => simp [Plain, after_cons, ih, and_assoc]

/-- A place that is reached without a comment. -/
def IsOutside : Place → Prop
  | code | slash => True
  | quoted quote => quote = '"' ∨ quote = '\''
  | comment | star => False

theorem IsOutside.isHidden {place : Place} (outside : place.IsOutside) :
    place.isHidden = false := by
  cases place with
  | comment | star => cases outside
  | _ => rfl

theorem isOutside_entered (char : Char) : (entered char).IsOutside := by
  unfold entered
  split
  · next quoting => exact quoting
  · split <;> trivial

theorem IsOutside.next {place : Place} (outside : place.IsOutside) {char : Char}
    (plain : place.next char ≠ .comment) : (place.next char).IsOutside := by
  cases place with
  | code => exact isOutside_entered char
  | quoted quote =>
      by_cases same : char = quote
      · simp [Place.next, same, IsOutside]
      · simpa [Place.next, same] using outside
  | slash =>
      by_cases isStar : char = '*'
      · exact absurd (if_pos isStar) plain
      · simpa [Place.next, isStar] using isOutside_entered char
  | _ => cases outside

theorem IsOutside.after {place : Place} (outside : place.IsOutside) {text : Text}
    (plain : place.Plain text) : (place.after text).IsOutside := by
  induction text generalizing place with
  | nil => exact outside
  | cons char rest ih => exact ih (outside.next plain.1) plain.2

/-- Outside of comments every character is seen or held back. -/
theorem IsOutside.seen_append_held {place : Place} (outside : place.IsOutside) {char : Char}
    (plain : place.next char ≠ .comment) :
    place.seen char ++ (place.next char).held = place.held ++ [char] := by
  have slashOnly : place.next char = .slash → char = '/' := by
    have entered : entered char = .slash → char = '/' := by
      unfold Place.entered
      split
      · simp
      · split <;> simp_all
    intro isSlash
    cases place with
    | code => exact entered isSlash
    | quoted quote => by_cases same : char = quote <;> simp [Place.next, same] at isSlash
    | slash =>
        by_cases isStar : char = '*'
        · simp [Place.next, isStar] at isSlash
        · exact entered (by simpa [Place.next, isStar] using isSlash)
    | _ => cases outside
  have shown := (outside.next plain).isHidden
  rw [seen, outside.isHidden, if_neg (by simp)]
  cases found : place.next char with
  | slash => simp [held, slashOnly found]
  | comment => exact absurd found plain
  | star => exact absurd (found ▸ shown) (by decide)
  | code | quoted => simp [held]

theorem IsOutside.read_append_held {place : Place} (outside : place.IsOutside) {text : Text}
    (plain : place.Plain text) :
    place.read text ++ (place.after text).held = place.held ++ text := by
  induction text generalizing place with
  | nil => simp
  | cons char rest ih =>
      rw [read_cons, after_cons, List.append_assoc, ih (outside.next plain.1) plain.2,
        ← List.append_assoc, outside.seen_append_held plain.1, List.append_assoc]
      rfl

theorem length_seen_le (place : Place) (char : Char) :
    (place.seen char ++ (place.next char).held).length ≤ (place.held ++ [char]).length := by
  unfold seen
  split
  · cases place.next char <;> simp [held]
  · split
    · next isSlash => simp [isSlash, held]
    · next isComment => simp [isComment, held]
    · next noSlash _ =>
        have noneHeld : (place.next char).held = [] := by
          cases found : place.next char with
          | slash => exact absurd found noSlash
          | _ => rfl
        simp [noneHeld]

theorem length_read_le (place : Place) (text : Text) :
    (place.read text ++ (place.after text).held).length ≤ (place.held ++ text).length := by
  induction text generalizing place with
  | nil => simp
  | cons char rest ih =>
      have first := place.length_seen_le char
      have others := ih (place.next char)
      simp only [List.length_append, List.length_cons, List.length_nil, read_cons,
        after_cons] at first others ⊢
      omega

/-- When a reader passes over nothing, no comment begins. -/
theorem IsOutside.plain {place : Place} (outside : place.IsOutside) {text : Text}
    (whole : place.read text ++ (place.after text).held = place.held ++ text) :
    place.Plain text := by
  induction text generalizing place with
  | nil => trivial
  | cons char rest ih =>
      rw [read_cons, after_cons, List.append_assoc] at whole
      have plain : place.next char ≠ .comment := by
        intro isComment
        have unseen : place.seen char = [] := by simp [seen, isComment]
        have short := length_read_le comment rest
        rw [isComment, unseen, List.nil_append] at whole
        have noneHeld : comment.held = [] := rfl
        rw [whole, noneHeld] at short
        simp only [List.length_append, List.length_cons, List.nil_append] at short
        omega
      refine ⟨plain, ih (outside.next plain) (List.append_cancel_left (whole.trans ?_))⟩
      rw [← List.append_assoc, outside.seen_append_held plain, List.append_assoc]
      rfl

def settled : Place → Place
  | slash => .code
  | star => .comment
  | place => place

theorem settled_settled (place : Place) : place.settled.settled = place.settled := by
  cases place <;> rfl

def isMark (char : Char) : Bool :=
  ['"', '\'', '/', '*'].contains char

theorem IsOutside.settled {place : Place} (outside : place.IsOutside) :
    place.settled.IsOutside := by
  cases place <;> exact outside

theorem IsOutside.ne_comment {place : Place} (outside : place.IsOutside) :
    place ≠ .comment := by
  rintro rfl
  cases outside

theorem IsOutside.next_of_isMark {place : Place} (outside : place.IsOutside) {char : Char}
    (dull : isMark char = false) : place.next char = place.settled := by
  simp only [isMark, List.contains_eq_mem, decide_eq_false_iff_not, List.mem_cons,
    List.not_mem_nil, or_false, not_or] at dull
  obtain ⟨noDouble, noSingle, noSlash, noStar⟩ := dull
  have entered : entered char = .code := by simp [entered, noDouble, noSingle, noSlash]
  cases place with
  | code => exact entered
  | quoted quote =>
      have apart : char ≠ quote := by
        rcases outside with rfl | rfl
        · exact noDouble
        · exact noSingle
      exact if_neg apart
  | slash => exact (if_neg noStar).trans entered
  | _ => cases outside

/-- Text without marks leaves a reader where it was. -/
theorem IsOutside.after_of_isMark {place : Place} (outside : place.IsOutside)
    (isSettled : place.settled = place) {text : Text}
    (dull : ∀ char ∈ text, isMark char = false) :
    place.Plain text ∧ place.after text = place := by
  induction text with
  | nil => exact ⟨trivial, rfl⟩
  | cons char rest ih =>
      have stays := (outside.next_of_isMark (dull char List.mem_cons_self)).trans isSettled
      have others := ih fun other member => dull other (List.mem_cons_of_mem _ member)
      rw [Plain, after_cons, stays]
      exact ⟨⟨outside.ne_comment, others.1⟩, others.2⟩

theorem IsOutside.settled_after_of_isMark {place : Place} (outside : place.IsOutside) {text : Text}
    (dull : ∀ char ∈ text, isMark char = false) :
    place.Plain text ∧ (place.after text).settled = place.settled := by
  cases text with
  | nil => exact ⟨trivial, rfl⟩
  | cons char rest =>
      have first := outside.next_of_isMark (dull char List.mem_cons_self)
      have others := outside.settled.after_of_isMark place.settled_settled
        fun other member => dull other (List.mem_cons_of_mem _ member)
      rw [Plain, after_cons, first, others.2]
      exact ⟨⟨outside.settled.ne_comment, others.1⟩, place.settled_settled⟩

end Place

theorem isMark_of_isBlank {char : Char} (blank : Text.isBlank char = true) :
    Place.isMark char = false := by
  have noBlank : ['"', '\'', '/', '*'].all (!Text.isBlank ·) = true := by decide
  cases isMark : Place.isMark char with
  | false => rfl
  | true =>
      have isOne : char ∈ ['"', '\'', '/', '*'] := by simpa [Place.isMark] using isMark
      have apart := List.all_eq_true.mp noBlank char isOne
      simp [blank] at apart

/-- In a text without comments nothing is passed over. -/
theorem plain_of_uncomment {text : Text} (same : uncomment text = text) :
    Place.code.Plain text :=
  have outside : Place.code.IsOutside := trivial
  outside.plain same

end DocComponents.Style
