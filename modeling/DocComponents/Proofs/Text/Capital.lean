import DocComponents.Proofs.Text.Trim
import DocComponents.Text.Capital

/-!
# Capitals of texts

Characters that are not their own capitals are told by a table. None of them is a blank or a capital
of another one, so a text in capitals stays as it is when it is put in capitals, and trimming does
not mind. The table is compared as a whole: a set of code points is a number whose bits are set at
the points, and two sets are apart when their numbers have no bit in common.
-/

set_option autoImplicit false

namespace DocComponents.Text

/-! ## Sets of code points -/

/-- The number whose bits are set at points. -/
def mask (points : List Nat) : Nat :=
  points.foldr (fun point others => 1 <<< point ||| others) 0

variable {points others : List Nat} {point : Nat}

theorem testBit_mask_of_mem (member : point ∈ points) : (mask points).testBit point = true := by
  induction points with
  | nil => cases member
  | cons first rest ih =>
      rw [mask, List.foldr_cons, Nat.testBit_or]
      rcases List.mem_cons.mp member with rfl | inRest
      · simp
      · exact Bool.or_eq_true_iff.mpr (.inr (ih inRest))

theorem not_mem_of_mask_and_eq_zero (apart : mask points &&& mask others = 0)
    (member : point ∈ points) : point ∉ others := by
  intro inOthers
  have both : (mask points &&& mask others).testBit point = true := by
    rw [Nat.testBit_and, testBit_mask_of_mem member, testBit_mask_of_mem inOthers, Bool.and_self]
  rw [apart, Nat.zero_testBit] at both
  cases both

/-! ## The table -/

def runPoints (run : Nat × Nat × Nat × Int) : List Nat :=
  (List.range ((run.2.1 - run.1) / run.2.2.1 + 1)).map fun index => run.1 + run.2.2.1 * index

def movedPoints (run : Nat × Nat × Nat × Int) : List Nat :=
  (runPoints run).map fun (point : Nat) => Int.toNat ((point : Int) + run.2.2.2)

def smallPoints : List Nat :=
  longCapitals.map Prod.fst ++ capitalRuns.flatMap runPoints

def capitalPoints : List Nat :=
  longCapitals.flatMap Prod.snd ++ capitalRuns.flatMap movedPoints

def blankRanges : List (Nat × Nat) :=
  [(0x09, 0x0D), (0x20, 0x20), (0x85, 0x85), (0xA0, 0xA0), (0x1680, 0x1680), (0x2000, 0x200A),
    (0x2028, 0x2029), (0x202F, 0x202F), (0x205F, 0x205F), (0x3000, 0x3000), (0x1C, 0x1F)]

def blankPoints : List Nat :=
  blankRanges.flatMap fun range => List.range' range.1 (range.2 - range.1 + 1)

theorem small_apart :
    mask smallPoints &&& mask (capitalPoints ++ blankPoints) = 0 := by
  decide +kernel

theorem capital_apart : mask capitalPoints &&& mask blankPoints = 0 := by
  decide +kernel

theorem toNat_of_mem_capitalPoints : ∀ point ∈ capitalPoints, (Char.ofNat point).toNat = point := by
  decide +kernel

theorem longCapitals_ne_nil : ∀ entry ∈ longCapitals, entry.2 ≠ [] := by
  decide

theorem mem_blankPoints {char : Char} (blank : isBlank char = true) :
    char.toNat ∈ blankPoints := by
  have inRange : withinRanges blankRanges char.toNat = true := by
    rw [isBlank, isSpace, withinRanges, withinRanges, ← List.any_append] at blank
    exact blank
  obtain ⟨range, member, inside⟩ := List.any_eq_true.mp inRange
  obtain ⟨first, last⟩ : range.1 ≤ char.toNat ∧ char.toNat ≤ range.2 := by simpa using inside
  exact List.mem_flatMap.mpr ⟨range, member, List.mem_range'_1.mpr ⟨first, by omega⟩⟩

def moves (point : Nat) (run : Nat × Nat × Nat × Int) : Bool :=
  run.1 ≤ point && point ≤ run.2.1 && (point - run.1) % run.2.2.1 == 0

theorem mem_runPoints_of_moves {run : Nat × Nat × Nat × Int} (inside : moves point run = true) :
    point ∈ runPoints run := by
  simp only [moves, Bool.and_eq_true, decide_eq_true_eq, beq_iff_eq] at inside
  obtain ⟨⟨first, last⟩, step⟩ := inside
  have whole := Nat.div_add_mod (point - run.1) run.2.2.1
  refine List.mem_map.mpr ⟨(point - run.1) / run.2.2.1, List.mem_range.mpr ?_, by omega⟩
  have below : point - run.1 ≤ run.2.1 - run.1 := by omega
  exact Nat.lt_succ_of_le (Nat.div_le_div_right below)

/-! ## One character -/

/-- A capital form that the table tells of a character. -/
def IsTold (char : Char) : Prop :=
  char.toNat ∈ smallPoints ∧ ∃ points ≠ [], capital char = points.map Char.ofNat ∧
    ∀ point ∈ points, point ∈ capitalPoints

theorem isTold_of_run {char : Char} {run : Nat × Nat × Nat × Int} (known : run ∈ capitalRuns)
    (small : char.toNat ∈ runPoints run)
    (moved : capital char = [Char.ofNat (Int.toNat ((char.toNat : Int) + run.2.2.2))]) :
    IsTold char := by
  refine ⟨List.mem_append_right _ (List.mem_flatMap.mpr ⟨run, known, small⟩), _,
    List.cons_ne_nil _ [], moved, fun point member => ?_⟩
  cases List.mem_singleton.mp member
  exact List.mem_append_right _
    (List.mem_flatMap.mpr ⟨run, known, List.mem_map.mpr ⟨_, small, rfl⟩⟩)

theorem capital_of_ascii {char : Char} (ascii : char.toNat < 0x80) :
    capital char = [char] ∨ IsTold char := by
  have letters : ∀ point < 0x80, (Char.ofNat point).toUpper = Char.ofNat point ∨
      point ∈ runPoints (0x61, 0x7A, 1, -32) ∧
        (Char.ofNat point).toUpper = Char.ofNat (Int.toNat ((point : Int) + -32)) := by
    decide
  have whole : capital char = [char.toUpper] := if_pos ascii
  have letter := letters char.toNat ascii
  rw [Char.ofNat_toNat] at letter
  rcases letter with same | ⟨small, moved⟩
  · exact .inl (by rw [whole, same])
  · exact .inr (isTold_of_run (by decide) small (by rw [whole, moved]))

theorem capital_of_short {char : Char} (notAscii : ¬ char.toNat < 0x80)
    (short : longCapitals.lookup char.toNat = none) :
    capital char = (capitalRuns.find? (moves char.toNat)).elim [char] fun run =>
      [Char.ofNat (Int.toNat ((char.toNat : Int) + run.2.2.2))] := by
  unfold capital
  rw [if_neg notAscii, short]
  dsimp only
  unfold moves
  split
  · next found =>
      rw [found]
      rfl
  · next found =>
      rw [found]
      rfl

theorem capital_cases (char : Char) : capital char = [char] ∨ IsTold char := by
  by_cases ascii : char.toNat < 0x80
  · exact capital_of_ascii ascii
  · cases long : longCapitals.lookup char.toNat with
    | some points =>
        have told : capital char = points.map Char.ofNat := by
          unfold capital
          rw [if_neg ascii, long]
        obtain ⟨before, after, whole, -⟩ := List.lookup_eq_some_iff.mp long
        have known : (char.toNat, points) ∈ longCapitals := by
          rw [whole]
          simp
        refine .inr ⟨List.mem_append_left _ (List.mem_map.mpr ⟨_, known, rfl⟩), points,
          longCapitals_ne_nil _ known, told, fun point member => ?_⟩
        exact List.mem_append_left _ (List.mem_flatMap.mpr ⟨_, known, member⟩)
    | none =>
        have whole := capital_of_short ascii long
        cases found : capitalRuns.find? (moves char.toNat) with
        | none =>
            rw [found] at whole
            exact .inl whole
        | some run =>
            rw [found] at whole
            exact .inr (isTold_of_run (List.mem_of_find?_eq_some found)
              (mem_runPoints_of_moves (List.find?_some found)) whole)

theorem capital_of_not_mem {char : Char} (notSmall : char.toNat ∉ smallPoints) :
    capital char = [char] := by
  rcases capital_cases char with same | told
  · exact same
  · exact absurd told.1 notSmall

theorem capital_ne_nil (char : Char) : capital char ≠ [] := by
  rcases capital_cases char with same | ⟨-, points, some, told, -⟩
  · rw [same]
    exact List.cons_ne_nil char []
  · rw [told]
    simpa using some

theorem IsTold.mem_capitalPoints {char other : Char} (told : IsTold char)
    (member : other ∈ capital char) : other.toNat ∈ capitalPoints := by
  obtain ⟨-, points, -, form, known⟩ := told
  rw [form] at member
  obtain ⟨point, inside, rfl⟩ := List.mem_map.mp member
  rw [toNat_of_mem_capitalPoints point (known point inside)]
  exact known point inside

theorem capital_of_mem_capital {char other : Char} (member : other ∈ capital char) :
    capital other = [other] := by
  rcases capital_cases char with same | told
  · rw [same] at member
    cases List.mem_singleton.mp member
    exact same
  · apply capital_of_not_mem
    intro small
    exact not_mem_of_mask_and_eq_zero small_apart small
      (List.mem_append_left _ (told.mem_capitalPoints member))

theorem capital_of_isBlank {char : Char} (blank : isBlank char = true) :
    capital char = [char] := by
  apply capital_of_not_mem
  intro small
  exact not_mem_of_mask_and_eq_zero small_apart small
    (List.mem_append_right _ (mem_blankPoints blank))

theorem isBlank_of_mem_capital {char other : Char} (plain : isBlank char = false)
    (member : other ∈ capital char) : isBlank other = false := by
  rcases capital_cases char with same | told
  · rw [same] at member
    cases List.mem_singleton.mp member
    exact plain
  · by_contra blank
    exact not_mem_of_mask_and_eq_zero capital_apart (told.mem_capitalPoints member)
      (mem_blankPoints (Bool.not_eq_false _ ▸ blank))

/-! ## Texts -/

theorem capitals_append (left right : Text) :
    capitals (left ++ right) = capitals left ++ capitals right :=
  List.flatMap_append

theorem capitals_capitals (text : Text) : capitals (capitals text) = capitals text := by
  have settled : ∀ char ∈ capitals text, capital char = [char] := by
    intro char member
    obtain ⟨source, -, inside⟩ := List.mem_flatMap.mp member
    exact capital_of_mem_capital inside
  calc capitals (capitals text) = (capitals text).flatMap fun char => [char] :=
        List.flatMap_congr settled
    _ = capitals text := List.flatMap_singleton' _

/-! ### Trimming -/

variable {inClass : Char → Bool}

theorem not_inClass_of_mem_capital (blanks : ∀ char, inClass char = true → isBlank char = true)
    {char other : Char} (outside : inClass char = false) (member : other ∈ capital char) :
    inClass other = false := by
  cases blank : isBlank char with
  | true =>
      rw [capital_of_isBlank blank] at member
      cases List.mem_singleton.mp member
      exact outside
  | false =>
      by_contra inside
      cases (isBlank_of_mem_capital blank member).symm.trans
        (blanks other (Bool.not_eq_false _ ▸ inside))

theorem trimStart_capitals (blanks : ∀ char, inClass char = true → isBlank char = true)
    (text : Text) : trimStart inClass (capitals text) = capitals (trimStart inClass text) := by
  induction text with
  | nil => rfl
  | cons char rest ih =>
      cases inside : inClass char with
      | true =>
          have alone : capitals (char :: rest) = char :: capitals rest := by
            rw [capitals, List.flatMap_cons, capital_of_isBlank (blanks char inside)]
            rfl
          rw [trimStart, alone, List.dropWhile_cons_of_pos inside, trimStart,
            List.dropWhile_cons_of_pos inside]
          exact ih
      | false =>
          obtain ⟨first, more, shape⟩ := List.exists_cons_of_ne_nil (capital_ne_nil char)
          have outside : inClass first = false :=
            not_inClass_of_mem_capital blanks inside (by simp [shape])
          have whole : capitals (char :: rest) = first :: (more ++ capitals rest) := by
            rw [capitals, List.flatMap_cons, shape]
            rfl
          have kept : trimStart inClass (char :: rest) = char :: rest :=
            List.dropWhile_cons_of_neg (by simp [inside])
          rw [kept, whole]
          exact List.dropWhile_cons_of_neg (by simp [outside])

theorem trimEnd_concat_of_not {last : Char} (outside : inClass last = false) (text : Text) :
    trimEnd inClass (text ++ [last]) = text ++ [last] := by
  simp [trimEnd, outside]

theorem trimEnd_capitals (blanks : ∀ char, inClass char = true → isBlank char = true)
    (text : Text) : trimEnd inClass (capitals text) = capitals (trimEnd inClass text) := by
  induction text using List.reverseRecOn with
  | nil => rfl
  | append_singleton rest char ih =>
      have single : capitals [char] = capital char := List.flatMap_singleton ..
      rw [capitals_append, single]
      cases inside : inClass char with
      | true =>
          have onlyChar : ∀ other ∈ [char], inClass other = true := by simpa using inside
          rw [capital_of_isBlank (blanks char inside), trimEnd_append_of_forall onlyChar,
            trimEnd_append_of_forall onlyChar, ih]
      | false =>
          obtain ⟨more, last, shape⟩ := List.eq_nil_or_concat (capital char)
            |>.resolve_left (capital_ne_nil char)
          rw [List.concat_eq_append] at shape
          have outside : inClass last = false :=
            not_inClass_of_mem_capital blanks inside (by simp [shape])
          rw [shape, ← List.append_assoc, trimEnd_concat_of_not outside,
            trimEnd_concat_of_not inside, capitals_append, single, shape, List.append_assoc]

theorem trimBoth_capitals (blanks : ∀ char, inClass char = true → isBlank char = true)
    (text : Text) : trimBoth inClass (capitals text) = capitals (trimBoth inClass text) := by
  rw [trimBoth, trimStart_capitals blanks, trimEnd_capitals blanks, trimBoth]

end DocComponents.Text
