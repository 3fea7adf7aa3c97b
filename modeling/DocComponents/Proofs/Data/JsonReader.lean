import DocComponents.Data.Json
import DocComponents.Proofs.Text.Occurrences
import DocComponents.Toml.Scalar
import Mathlib.Tactic.SplitIfs

/-!
# Reading JSON

The other side of writing JSON: a reader that takes one character at a time. It is stated here for
what is proved about written data, so it holds to the whole of JSON: every value, blanks between
any two marks, every escape, and surrogates in pairs only. A string is kept as the code points it
spells until its closing quote, so that two spellings of a string are one state of the reader.
-/

set_option autoImplicit false

namespace DocComponents.Json

/-- What is open around a value: the items of a list before it, or the entries of a table before it
with its key. -/
inductive Frame where
  | list (items : List Data)
  | table (entries : List (Text × Data)) (key : Text)

inductive Place where
  | value
  /-- A key behind the entries of its table. -/
  | key (entries : List (Text × Data))

inductive Escape where
  | outside
  | begun
  /-- So many digits of a code unit are to come, behind those of a number. -/
  | digits (missing unit : Nat)

inductive Stage where
  /-- A value is to begin. -/
  | value
  /-- A list has been opened. -/
  | opened
  | behindItem (items : List Data)
  /-- The next key is to begin, or a table without entries to end. -/
  | key (entries : List (Text × Data))
  | behindKey (entries : List (Text × Data)) (key : Text)
  | behindEntry (entries : List (Text × Data))
  | string (place : Place) (points : List Nat) (escape : Escape)
  /-- A constant or a number. -/
  | word (read : Text)
  | finished (value : Data)

structure State where
  /-- What is open, the innermost first. -/
  frames : List Frame
  stage : Stage

def isGap (char : Char) : Bool :=
  Text.isSpaceOrTab char || char == '\n' || char == '\r'

def isWordChar (char : Char) : Bool :=
  char.isAlphanum || char == '+' || char == '-' || char == '.'

/-- The value of a constant or a number. Numbers are those of TOML, but for a plus sign. -/
def scalar? (word : Text) : Option Data :=
  if word = "null".toList then some .null
  else if word = "true".toList then some (.bool true)
  else if word = "false".toList then some (.bool false)
  else if word.head? = some '+' then none
  else
    match Toml.decimal? word with
    | some (value, []) => some value
    | _ => none

/-- The text of code points, in which surrogates stand in pairs. -/
def ofPoints? : List Nat → Option Text
  | [] => some []
  | [point] => if 0xD800 ≤ point && point < 0xE000 then none else some [Char.ofNat point]
  | point :: next :: rest =>
    if 0xD800 ≤ point && point < 0xDC00 && 0xDC00 ≤ next && next < 0xE000 then
      (ofPoints? rest).map fun text =>
        Char.ofNat (0x10000 + (point - 0xD800) * 0x400 + (next - 0xDC00)) :: text
    else if 0xD800 ≤ point && point < 0xE000 then none
    else (ofPoints? (next :: rest)).map fun text => Char.ofNat point :: text

def escaped? (letter : Char) : Option Char :=
  if letter = '"' || letter = '\\' || letter = '/' then some letter
  else if letter = 'b' then some '\x08'
  else if letter = 'f' then some '\x0C'
  else if letter = 'n' then some '\n'
  else if letter = 'r' then some '\r'
  else if letter = 't' then some '\t'
  else none

def settle (value : Data) : List Frame → State
  | [] => ⟨[], .finished value⟩
  | .list items :: frames => ⟨frames, .behindItem (items ++ [value])⟩
  | .table entries key :: frames => ⟨frames, .behindEntry (entries ++ [(key, value)])⟩

def stepValue (frames : List Frame) (char : Char) : Option State :=
  if isGap char then some ⟨frames, .value⟩
  else if char = '[' then some ⟨frames, .opened⟩
  else if char = '\x7b' then some ⟨frames, .key []⟩
  else if char = '"' then some ⟨frames, .string .value [] .outside⟩
  else if isWordChar char then some ⟨frames, .word [char]⟩
  else none

def stepBehind (state : State) (char : Char) : Option State :=
  if isGap char then some state
  else
    match state.stage with
    | .behindItem items =>
      if char = ',' then some ⟨.list items :: state.frames, .value⟩
      else if char = ']' then some (settle (.list items) state.frames)
      else none
    | .behindEntry entries =>
      if char = ',' then some ⟨state.frames, .key entries⟩
      else if char = '\x7d' then some (settle (.table entries) state.frames)
      else none
    | _ => none

def behindString (frames : List Frame) (text : Text) : Place → State
  | .value => settle (.text text) frames
  | .key entries => ⟨frames, .behindKey entries text⟩

def stepString (frames : List Frame) (place : Place) (points : List Nat) (char : Char) :
    Escape → Option State
  | .outside =>
    if char = '"' then (ofPoints? points).map fun text => behindString frames text place
    else if char = '\\' then some ⟨frames, .string place points .begun⟩
    else if char.toNat < 0x20 then none
    else some ⟨frames, .string place (points ++ [char.toNat]) .outside⟩
  | .begun =>
    if char = 'u' then some ⟨frames, .string place points (.digits 4 0)⟩
    else (escaped? char).map fun meant =>
      ⟨frames, .string place (points ++ [meant.toNat]) .outside⟩
  | .digits missing unit =>
    (Toml.hexDigit? char).map fun digit =>
      let unit := unit * 16 + digit
      if missing ≤ 1 then ⟨frames, .string place (points ++ [unit]) .outside⟩
      else ⟨frames, .string place points (.digits (missing - 1) unit)⟩

/-- The reader behind one more character, unless that cannot stand there. -/
def step (state : State) (char : Char) : Option State :=
  match state.stage with
  | .value => stepValue state.frames char
  | .opened =>
    if isGap char then some state
    else if char = ']' then some (settle (.list []) state.frames)
    else stepValue (.list [] :: state.frames) char
  | .key entries =>
    if isGap char then some state
    else if char = '"' then some ⟨state.frames, .string (.key entries) [] .outside⟩
    else if char = '\x7d' && entries.isEmpty then some (settle (.table []) state.frames)
    else none
  | .behindKey entries key =>
    if isGap char then some state
    else if char = ':' then some ⟨.table entries key :: state.frames, .value⟩
    else none
  | .string place points escape => stepString state.frames place points char escape
  | .word read =>
    if isWordChar char then some ⟨state.frames, .word (read ++ [char])⟩
    else (scalar? read).bind fun value => stepBehind (settle value state.frames) char
  | .behindItem _ => stepBehind state char
  | .behindEntry _ => stepBehind state char
  | .finished _ => stepBehind state char

def run (state : State) (text : Text) : Option State :=
  text.foldlM step state

def State.value? (state : State) : Option Data :=
  match state.frames, state.stage with
  | [], .finished value => some value
  | [], .word read => scalar? read
  | _, _ => none

def read? (text : Text) : Option Data :=
  (run ⟨[], .value⟩ text).bind State.value?

theorem run_cons (state : State) (char : Char) (rest : Text) :
    run state (char :: rest) = (step state char).bind fun next => run next rest :=
  List.foldlM_cons

theorem run_append (state : State) (left right : Text) :
    run state (left ++ right) = (run state left).bind fun next => run next right :=
  List.foldlM_append

/-! ## Closing tags inside strings -/

/-- A less-than sign stands in strings only, and not inside an escape. -/
theorem eq_string_of_step {state next : State} (stepped : step state '<' = some next) :
    ∃ place points, state.stage = .string place points .outside ∧
      next = ⟨state.frames, .string place (points ++ ['<'.toNat]) .outside⟩ := by
  have notBehind (state : State) : stepBehind state '<' = none := by
    cases stage : state.stage <;> simp [stepBehind, stage, isGap, Text.isSpaceOrTab]
  obtain ⟨frames, stage⟩ := state
  cases stage with
  | string place points escape =>
      cases escape with
      | outside => exact ⟨place, points, rfl, (Option.some.inj stepped).symm⟩
      | begun => cases stepped
      | digits missing unit => cases stepped
  | word read => simp [step, isWordChar, notBehind] at stepped
  | value => cases stepped
  | opened => cases stepped
  | behindItem items => cases stepped
  | key entries => simp [step, isGap, Text.isSpaceOrTab] at stepped
  | behindKey entries key => cases stepped
  | behindEntry entries => cases stepped
  | finished value => cases stepped

/-- Behind a less-than sign, a slash is read alike with and without a backslash before it. -/
theorem run_slash (state : State) : run state ['<', '\\', '/'] = run state ['<', '/'] := by
  rw [run_cons, run_cons state]
  cases stepped : step state '<' with
  | none => rfl
  | some next =>
      obtain ⟨place, points, -, rfl⟩ := eq_string_of_step stepped
      rfl

/-- Data is read alike with and without a backslash inside each beginning of a closing tag. -/
theorem run_replace (state : State) (text : Text) :
    run state (Text.replace ['<', '/'] ['<', '\\', '/'] text) = run state text := by
  -- Two characters at a time: a pair is replaced as a whole, and what follows it is read on from
  -- one state.
  induction text using List.twoStepInduction generalizing state with
  | nil => rfl
  | singleton char =>
      have kept : Text.startsWith [char] ['<', '/'] = false :=
        Bool.eq_false_iff.mpr (by simp [Text.startsWith_pair])
      rw [Text.replace_cons_of_apart kept]
      rfl
  | cons_cons char next rest behind later =>
      by_cases isPair : char = '<' ∧ next = '/'
      · obtain ⟨rfl, rfl⟩ := isPair
        have replaced : Text.replace ['<', '/'] ['<', '\\', '/'] ('<' :: '/' :: rest) =
            ['<', '\\', '/'] ++ Text.replace ['<', '/'] ['<', '\\', '/'] rest :=
          Text.replace_append (List.cons_ne_nil '<' ['/']) _ rest
        have split : '<' :: '/' :: rest = ['<', '/'] ++ rest := rfl
        rw [replaced, split, run_append, run_append, run_slash]
        simp only [behind]
      · have kept : Text.startsWith (char :: next :: rest) ['<', '/'] = false := by
          simpa [Bool.eq_false_iff, Text.startsWith_pair] using isPair
        rw [Text.replace_cons_of_apart kept, run_cons, run_cons]
        simp only [later]

/-! ## Written strings -/

theorem toNat_lt (char : Char) : char.toNat < 0x110000 :=
  char.valid.elim (fun small => Nat.lt_trans small (by decide)) And.right

theorem hexadecimal_succ {width : Nat} (positive : 0 < width) (number : Nat) :
    Text.hexadecimal (width + 1) number =
      Text.hexadecimal width (number / 16) ++ [Nat.digitChar (number % 16)] := by
  rcases Nat.lt_or_ge number 16 with small | great
  · obtain ⟨filled, rfl⟩ := Nat.exists_eq_succ_of_ne_zero (Nat.ne_of_gt positive)
    have zero : Text.hexadecimal (filled + 1) 0 = List.replicate (filled + 1) '0' :=
      List.replicate_succ'.symm
    rw [Nat.div_eq_of_lt small, Nat.mod_eq_of_lt small, zero, Text.hexadecimal,
      Nat.toDigits_of_lt_base small]
    rfl
  · have counted :
        width + 1 - (Nat.toDigits 16 (number / 16) ++ [Nat.digitChar (number % 16)]).length =
          width - (Nat.toDigits 16 (number / 16)).length := by
      simp
    rw [Text.hexadecimal, Nat.toDigits_of_base_le (by decide) great, counted, ← List.append_assoc]
    rfl

theorem hexadecimal_four {unit : Nat} (small : unit < 0x10000) :
    Text.hexadecimal 4 unit =
      [Nat.digitChar (unit / 16 / 16 / 16), Nat.digitChar (unit / 16 / 16 % 16),
        Nat.digitChar (unit / 16 % 16), Nat.digitChar (unit % 16)] := by
  have one : Text.hexadecimal 1 (unit / 16 / 16 / 16) = [Nat.digitChar (unit / 16 / 16 / 16)] := by
    rw [Text.hexadecimal, Nat.toDigits_of_lt_base (by omega)]
    rfl
  rw [hexadecimal_succ (by decide), hexadecimal_succ (by decide), hexadecimal_succ (by decide), one]
  rfl

theorem hexDigit?_digitChar {digit : Nat} (small : digit < 16) :
    Toml.hexDigit? (Nat.digitChar digit) = some digit := by
  revert digit
  decide

section string

variable (frames : List Frame) (place : Place) (points : List Nat)

theorem step_digit {digit : Nat} (small : digit < 16) (missing unit : Nat) :
    step ⟨frames, .string place points (.digits missing unit)⟩ (Nat.digitChar digit) =
      some ⟨frames, if missing ≤ 1 then .string place (points ++ [unit * 16 + digit]) .outside
        else .string place points (.digits (missing - 1) (unit * 16 + digit))⟩ := by
  simp only [step, stepString, hexDigit?_digitChar small, Option.map_some]
  split <;> rfl

theorem run_unitEscape {unit : Nat} (small : unit < 0x10000) :
    run ⟨frames, .string place points .outside⟩ (unitEscape unit) =
      some ⟨frames, .string place (points ++ [unit]) .outside⟩ := by
  have begun (rest : Text) : run ⟨frames, .string place points .outside⟩ ('\\' :: 'u' :: rest) =
      run ⟨frames, .string place points (.digits 4 0)⟩ rest := rfl
  have whole : (((0 * 16 + unit / 16 / 16 / 16) * 16 + unit / 16 / 16 % 16) * 16 +
      unit / 16 % 16) * 16 + unit % 16 = unit := by omega
  rw [unitEscape, hexadecimal_four small, begun, run_cons, step_digit _ _ _ (by omega),
    Option.bind_some, run_cons, if_neg (by decide), step_digit _ _ _ (by omega), Option.bind_some,
    run_cons, if_neg (by decide), step_digit _ _ _ (by omega), Option.bind_some, run_cons,
    if_neg (by decide), step_digit _ _ _ (by omega), Option.bind_some, whole]
  rfl

/-- What a character of a string is read as: itself, or its surrogates where those are written. -/
def spelled (charset : Charset) (char : Char) : List Nat :=
  if charset = .ascii ∧ 0x10000 ≤ char.toNat then
    [0xD800 + (char.toNat - 0x10000) / 0x400, 0xDC00 + (char.toNat - 0x10000) % 0x400]
  else [char.toNat]

theorem run_writeChar (charset : Charset) (char : Char) :
    run ⟨frames, .string place points .outside⟩ (writeChar charset char) =
      some ⟨frames, .string place (points ++ spelled charset char) .outside⟩ := by
  have basic (low : char.toNat < 0x10000) :
      run ⟨frames, .string place points .outside⟩ (charEscape char) =
        some ⟨frames, .string place (points ++ [char.toNat]) .outside⟩ := by
    rw [charEscape, if_pos low, run_unitEscape _ _ _ low]
  have plain (low : char.toNat < 0x10000) : spelled charset char = [char.toNat] :=
    if_neg fun high => Nat.not_le_of_lt low high.2
  unfold writeChar
  split_ifs with quote backslash feed return_ tab backspace formFeed control beyond
  · subst quote; rw [plain (by decide)]; rfl
  · subst backslash; rw [plain (by decide)]; rfl
  · subst feed; rw [plain (by decide)]; rfl
  · subst return_; rw [plain (by decide)]; rfl
  · subst tab; rw [plain (by decide)]; rfl
  · subst backspace; rw [plain (by decide)]; rfl
  · subst formFeed; rw [plain (by decide)]; rfl
  · rw [basic (by omega), plain (by omega)]
  · simp only [Bool.and_eq_true, decide_eq_true_eq] at beyond
    rcases Nat.lt_or_ge char.toNat 0x10000 with low | high
    · rw [basic low, plain low]
    · have greatest := toNat_lt char
      rw [charEscape, if_neg (Nat.not_lt_of_ge high), run_append, run_unitEscape _ _ _ (by omega),
        Option.bind_some, run_unitEscape _ _ _ (by omega), List.append_assoc, spelled,
        if_pos ⟨beyond.1, high⟩]
      rfl
  · have direct : spelled charset char = [char.toNat] :=
      if_neg fun high => beyond (by simp [high.1]; omega)
    simp [run_cons, step, stepString, quote, backslash, control, direct]
    rfl

theorem run_flatMap_writeChar (charset : Charset) (text : Text) :
    run ⟨frames, .string place points .outside⟩ (text.flatMap (writeChar charset)) =
      some ⟨frames, .string place (points ++ text.flatMap (spelled charset)) .outside⟩ := by
  induction text generalizing points with
  | nil => simp [run]
  | cons char rest ih =>
      rw [List.flatMap_cons, run_append, run_writeChar, Option.bind_some, ih, List.append_assoc,
        List.flatMap_cons]

end string

theorem ofPoints?_cons {point : Nat} (single : point < 0xD800 ∨ 0xE000 ≤ point)
    (rest : List Nat) :
    ofPoints? (point :: rest) = (ofPoints? rest).map fun text => Char.ofNat point :: text := by
  cases rest with
  | nil => exact if_neg (by simp; omega)
  | cons next others =>
      rw [ofPoints?, if_neg (by simp; omega), if_neg (by simp; omega)]

/-- The code points of a string spell it, as they are and as pairs of surrogates. -/
theorem ofPoints?_flatMap_spelled (charset : Charset) (text : Text) :
    ofPoints? (text.flatMap (spelled charset)) = some text := by
  induction text with
  | nil => rfl
  | cons char rest ih =>
      rw [List.flatMap_cons, spelled]
      split_ifs with pair
      · obtain ⟨-, high⟩ := pair
        have greatest := toNat_lt char
        have joined : 0x10000 + (0xD800 + (char.toNat - 0x10000) / 0x400 - 0xD800) * 0x400 +
            (0xDC00 + (char.toNat - 0x10000) % 0x400 - 0xDC00) = char.toNat := by omega
        rw [List.cons_append, List.singleton_append, ofPoints?, if_pos (by simp; omega), ih, joined,
          Char.ofNat_toNat]
        rfl
      · have single : char.toNat < 0xD800 ∨ 0xE000 ≤ char.toNat :=
          char.valid.imp id fun between => between.1
        rw [List.singleton_append, ofPoints?_cons single, ih, Char.ofNat_toNat]
        rfl

/-- A written string is read as its text behind the opening quote, whatever it is for. -/
theorem run_flatMap_writeChar_close (charset : Charset) (text : Text) (frames : List Frame)
    (place : Place) :
    run ⟨frames, .string place [] .outside⟩ (text.flatMap (writeChar charset) ++ ['"']) =
      some (behindString frames text place) := by
  have closed : step ⟨frames, .string place (text.flatMap (spelled charset)) .outside⟩ '"' =
      (ofPoints? (text.flatMap (spelled charset))).map fun read =>
        behindString frames read place := rfl
  rw [run_append, run_flatMap_writeChar, Option.bind_some, List.nil_append, run_cons, closed,
    ofPoints?_flatMap_spelled]
  rfl

/-! ## Written tables -/

/-- Data that is read from its written form, wherever that stands. -/
def IsReadBack (charset : Charset) (value : Data) : Prop :=
  ∀ frames, run ⟨frames, .value⟩ (write charset value) = some (settle value frames)

theorem isReadBack_text (charset : Charset) (text : Text) : IsReadBack charset (.text text) :=
  fun frames => run_flatMap_writeChar_close charset text frames .value

theorem IsReadBack.read? {charset : Charset} {value : Data} (back : IsReadBack charset value) :
    read? (write charset value) = some value := by
  rw [Json.read?, back]
  rfl

/-- An entry is read behind those before it. -/
theorem IsReadBack.run_entry {charset : Charset} {value : Data} (back : IsReadBack charset value)
    (frames : List Frame) (entries : List (Text × Data)) (key : Text) :
    run ⟨frames, .key entries⟩ (writeText charset key ++ ':' :: ' ' :: write charset value) =
      some ⟨frames, .behindEntry (entries ++ [(key, value)])⟩ := by
  have opened : run ⟨frames, .key entries⟩ (writeText charset key) =
      run ⟨frames, .string (.key entries) [] .outside⟩
        (key.flatMap (writeChar charset) ++ ['"']) := rfl
  have parted : run ⟨frames, .behindKey entries key⟩ (':' :: ' ' :: write charset value) =
      run ⟨.table entries key :: frames, .value⟩ (write charset value) := rfl
  rw [run_append, opened, run_flatMap_writeChar_close, Option.bind_some, behindString, parted, back]
  rfl

theorem run_join_writeEntries {charset : Charset} {more : List (Text × Data)}
    (back : ∀ entry ∈ more, IsReadBack charset entry.2) (notEmpty : more ≠ []) (frames : List Frame)
    (entries : List (Text × Data)) :
    run ⟨frames, .key entries⟩ (Text.join [',', ' '] (writeEntries charset more)) =
      some ⟨frames, .behindEntry (entries ++ more)⟩ := by
  induction more generalizing entries with
  | nil => exact absurd rfl notEmpty
  | cons entry others ih =>
      obtain ⟨key, value⟩ := entry
      have first : IsReadBack charset value := back (key, value) List.mem_cons_self
      cases others with
      | nil => exact first.run_entry frames entries key
      | cons second rest =>
          have later := ih (fun entry member => back entry (List.mem_cons_of_mem _ member))
            (List.cons_ne_nil _ _) (entries ++ [(key, value)])
          have parted (written : Text) :
              run ⟨frames, .behindEntry (entries ++ [(key, value)])⟩ ([',', ' '] ++ written) =
                run ⟨frames, .key (entries ++ [(key, value)])⟩ written := rfl
          have shape :
              Text.join [',', ' '] (writeEntries charset ((key, value) :: second :: rest)) =
                (writeText charset key ++ ':' :: ' ' :: write charset value) ++ ([',', ' '] ++
                  Text.join [',', ' '] (writeEntries charset (second :: rest))) := by
            rw [writeEntries, writeEntries, Text.join, List.append_assoc]
            exact List.cons_ne_nil _ _
          rw [shape, run_append, first.run_entry, Option.bind_some, parted, later,
            List.append_assoc]
          rfl

/-- A table is read back when the values of its entries are. -/
theorem isReadBack_table {charset : Charset} {entries : List (Text × Data)}
    (back : ∀ entry ∈ entries, IsReadBack charset entry.2) :
    IsReadBack charset (.table entries) := by
  intro frames
  have opened (written : Text) : run ⟨frames, .value⟩ ('\x7b' :: written) =
      run ⟨frames, .key []⟩ written := rfl
  rw [write, List.cons_append, opened]
  cases entries with
  | nil => rfl
  | cons first rest =>
      rw [run_append, run_join_writeEntries back (List.cons_ne_nil _ _)]
      rfl

example : read? "[-1, \x7b\"a\" : \"\\uD83D\\ude00\"\x7d]".toList =
    some (.list [.integer (-1), .table [("a".toList, .text "😀".toList)]]) := by cbv

example : read? "[1,]".toList = none ∧ read? "\"\\ud83d\"".toList = none := ⟨rfl, rfl⟩

end DocComponents.Json
