import DocComponents.Invocation.Writer
import DocComponents.Proofs.Definition.Declared
import DocComponents.Proofs.Invocation.Spelled

/-!
# Written invocations

What is written for an invocation is read as this invocation: the scan for arguments meets each key
at its first character, because the value before it was closed by the quote that encloses it. The
values may hold parentheses, commas, equals signs and the other quote.
-/

set_option autoImplicit false

namespace DocComponents

/-- Props that can be written as arguments on one line. -/
structure Props.AreWritable (props : Props) : Prop extends props.AreDeclarable where
  quotable : ∀ pair ∈ props.pairs, isQuotable pair.2 = true

theorem Props.areWritable_empty : Props.empty.AreWritable :=
  ⟨⟨List.forall_mem_nil _, List.forall_mem_nil _⟩, List.forall_mem_nil _⟩

def argumentList (pairs : List (Text × Text)) : Text :=
  Text.join [',', ' '] (pairs.map writeArgument)

theorem argumentList_cons_cons (first next : Text × Text) (rest : List (Text × Text)) :
    argumentList (first :: next :: rest) =
      writeArgument first ++ ',' :: ' ' :: argumentList (next :: rest) := by
  simp [argumentList, Text.join]

theorem argumentQuote_eq_or (value : Text) :
    argumentQuote value = '"' ∨ argumentQuote value = '\'' := by
  unfold argumentQuote
  split
  · exact .inr rfl
  · exact .inl rfl

theorem argumentQuote_not_mem {value : Text} (quotable : isQuotable value = true) :
    argumentQuote value ∉ value := by
  unfold isQuotable at quotable
  unfold argumentQuote
  by_cases double : '"' ∈ value
  · by_cases single : '\'' ∈ value
    · simp [double, single] at quotable
    · simp [double, single]
  · simp [double]

theorem recogniseArgument_writeArgument {pair : Text × Text} (named : isPropKey pair.1 = true)
    (quotable : isQuotable pair.2 = true) (rest : Text) :
    recogniseArgument (writeArgument pair ++ rest) =
      some (pair, (writeArgument pair).length) := by
  let spelling : Spelling := { key := pair.1, quote := argumentQuote pair.2, value := pair.2 }
  have proper : spelling.IsProper :=
    ⟨named, List.forall_mem_nil _, List.forall_mem_nil _, argumentQuote_eq_or pair.2,
      argumentQuote_not_mem quotable⟩
  have written : spelling.text = writeArgument pair := by
    simp [spelling, Spelling.text, writeArgument]
  rw [← written]
  exact proper.recogniseArgument_append rest

/-- The scan for arguments finds the pairs that were written, in order. -/
theorem hits_argumentList {pairs : List (Text × Text)}
    (named : ∀ pair ∈ pairs, isPropKey pair.1 = true)
    (quotable : ∀ pair ∈ pairs, isQuotable pair.2 = true) :
    Text.hits (Text.scan recogniseArgument (argumentList pairs)) = pairs := by
  induction pairs with
  | nil => rfl
  | cons first rest ih =>
      have later := ih (fun pair member => named pair (List.mem_cons_of_mem _ member))
        fun pair member => quotable pair (List.mem_cons_of_mem _ member)
      have notEmpty : writeArgument first ≠ [] := by simp [writeArgument]
      have recognised := recogniseArgument_writeArgument (named first List.mem_cons_self)
        (quotable first List.mem_cons_self)
      cases rest with
      | nil =>
          have alone : argumentList [first] = writeArgument first ++ [] := by
            simp [argumentList, Text.join]
          rw [alone, Text.scan_append_of_eq_some notEmpty (recognised [])]
          simp
      | cons next others =>
          rw [argumentList_cons_cons, Text.scan_append_of_eq_some notEmpty (recognised _),
            Text.scan_cons_of_eq_none (recogniseArgument_cons_of_not_word (by decide) _),
            Text.scan_cons_of_eq_none (recogniseArgument_cons_of_not_word (by decide) _)]
          simp [later]

theorem mem_argumentList {pairs : List (Text × Text)} {char : Char}
    (member : char ∈ argumentList pairs) :
    char ∈ [',', ' ', '=', '"', '\''] ∨ ∃ pair ∈ pairs, char ∈ pair.1 ∨ char ∈ pair.2 := by
  induction pairs with
  | nil => cases member
  | cons first rest ih =>
      have here (found : char ∈ writeArgument first) :
          char ∈ [',', ' ', '=', '"', '\''] ∨
            ∃ pair ∈ first :: rest, char ∈ pair.1 ∨ char ∈ pair.2 := by
        have isQuote := argumentQuote_eq_or first.2
        simp only [writeArgument, List.mem_append, List.mem_cons, List.not_mem_nil,
          or_false] at found
        rcases found with (inKey | sign | quote | inValue) | quote
        · exact .inr ⟨first, List.mem_cons_self, .inl inKey⟩
        · exact .inl (by simp [sign])
        · exact .inl (by rcases isQuote with same | same <;> simp [quote, same])
        · exact .inr ⟨first, List.mem_cons_self, .inr inValue⟩
        · exact .inl (by rcases isQuote with same | same <;> simp [quote, same])
      cases rest with
      | nil => exact here (by simpa [argumentList, Text.join] using member)
      | cons next others =>
          rw [argumentList_cons_cons, List.mem_append, List.mem_cons, List.mem_cons] at member
          rcases member with inFirst | comma | space | later
          · exact here inFirst
          · exact .inl (by simp [comma])
          · exact .inl (by simp [space])
          · rcases ih later with special | ⟨pair, isPair, inside⟩
            · exact .inl special
            · exact .inr ⟨pair, List.mem_cons_of_mem _ isPair, inside⟩

theorem mem_argumentList_of_mem_value {pairs : List (Text × Text)} {pair : Text × Text}
    (isPair : pair ∈ pairs) {char : Char} (member : char ∈ pair.2) :
    char ∈ argumentList pairs := by
  induction pairs with
  | nil => cases isPair
  | cons first rest ih =>
      have here : pair = first → char ∈ writeArgument first := by
        rintro rfl
        simp [writeArgument, member]
      cases rest with
      | nil =>
          have only : pair = first := by simpa using isPair
          simpa [argumentList, Text.join] using here only
      | cons next others =>
          rw [argumentList_cons_cons, List.mem_append]
          rcases List.mem_cons.mp isPair with same | later
          · exact .inl (here same)
          · exact .inr (List.mem_cons_of_mem _ (List.mem_cons_of_mem _ (ih later)))

namespace Invocation

variable {name : Text} {props : Props}

theorem write_of_eq_nil (none : props.pairs = []) : write name props = name := by
  simp [write, none]

theorem write_of_ne_nil (some : props.pairs ≠ []) :
    write name props = name ++ '(' :: (argumentList props.pairs ++ [')']) := by
  simp [write, some, argumentList]

theorem exists_write_eq_append (name : Text) (props : Props) :
    ∃ behind, write name props = name ++ behind := by
  by_cases none : props.pairs = []
  · exact ⟨[], by simp [write_of_eq_nil none]⟩
  · exact ⟨_, write_of_ne_nil none⟩

theorem isTrimmed_name (identifier : isIdentifier name = true) : Text.IsTrimmed name := by
  have notBlank : ∀ char ∈ name, Text.isBlank char = false := fun char member =>
    isBlank_eq_false_of_isNameChar (isNameChar_of_mem_identifier identifier member)
  exact ⟨fun char found => notBlank char (List.mem_of_head? found),
    fun char found => notBlank char (List.mem_of_getLast? found)⟩

/-- A call with arguments begins with its name and ends with a parenthesis. -/
theorem isTrimmed_call (identifier : isIdentifier name = true) (arguments : Text) :
    Text.IsTrimmed (name ++ '(' :: (arguments ++ [')'])) := by
  constructor
  · intro char found
    rw [List.head?_append_of_ne_nil _ (ne_nil_of_isName identifier)] at found
    exact (isTrimmed_name identifier).head char found
  · intro char found
    rw [← List.cons_append, ← List.append_assoc, List.getLast?_concat] at found
    cases found
    decide

theorem isTrimmed_write (identifier : isIdentifier name = true) (props : Props) :
    Text.IsTrimmed (write name props) := by
  by_cases none : props.pairs = []
  · rw [write_of_eq_nil none]
    exact isTrimmed_name identifier
  · rw [write_of_ne_nil none]
    exact isTrimmed_call identifier _

theorem isOneLine_write (identifier : isIdentifier name = true) (declarable : props.AreDeclarable) :
    Text.IsOneLine (write name props) := by
  have inName : ∀ char ∈ name, Text.isLineBreak char = false := fun char member =>
    isLineBreak_eq_false_of_isNameChar (isNameChar_of_mem_identifier identifier member)
  have signs : ['(', ')', ',', ' ', '=', '"', '\''].all (!Text.isLineBreak ·) = true := by decide
  have sign {char : Char} (member : char ∈ ['(', ')', ',', ' ', '=', '"', '\'']) :
      Text.isLineBreak char = false := by
    simpa using List.all_eq_true.mp signs char member
  intro char member
  by_cases none : props.pairs = []
  · rw [write_of_eq_nil none] at member
    exact inName char member
  · rw [write_of_ne_nil none, List.mem_append, List.mem_cons, List.mem_append,
      List.mem_singleton] at member
    rcases member with name | rfl | arguments | rfl
    · exact inName char name
    · exact sign (by simp)
    · rcases mem_argumentList arguments with special | ⟨pair, isPair, inKey | inValue⟩
      · exact sign (List.mem_cons_of_mem _ (List.mem_cons_of_mem _ special))
      · exact isLineBreak_eq_false_of_isNameChar
          (isNameChar_of_mem_propKey (declarable.key pair isPair) inKey)
      · exact declarable.value pair isPair char inValue
    · exact sign (by simp)

theorem read?_name (identifier : isIdentifier name = true) : read? name = some { name } := by
  have taken := takeName?_append identifier endsName_nil
  rw [List.append_nil] at taken
  rw [read?, (isTrimmed_name identifier).trim_eq, takeIdentifier?, taken]
  rfl

/-- The parentheses of a call are the first and the last one. -/
theorem read?_call (identifier : isIdentifier name = true) (text : Text) :
    read? (name ++ '(' :: (text ++ [')'])) = some { name, props := arguments text } := by
  have opens : ¬ Text.isAsciiBlank '(' = true := by decide
  rw [read?, (isTrimmed_call identifier text).trim_eq, takeIdentifier?,
    takeName?_append identifier (endsName_cons (by decide) _)]
  simp only [List.dropWhile_cons_of_neg opens]
  simp

/-- The name of a written invocation is read back, whatever the props hold. -/
theorem read?_write_eq (identifier : isIdentifier name = true) (props : Props) :
    read? (write name props) =
      some { name, props := arguments (argumentList props.pairs) } := by
  by_cases none : props.pairs = []
  · rw [write_of_eq_nil none, read?_name identifier, none]
    rfl
  · rw [write_of_ne_nil none, read?_call identifier]

/-- A written invocation is read back. -/
theorem read?_write (identifier : isIdentifier name = true) (writable : props.AreWritable) :
    read? (write name props) = some { name, props } := by
  rw [read?_write_eq identifier, arguments, hits_argumentList writable.key writable.quotable,
    Props.ofPairs_pairs]

/-- A block of one written invocation holds this invocation only. -/
theorem readBlock_write (identifier : isIdentifier name = true) (writable : props.AreWritable) :
    readBlock (write name props ++ ['\n']) = [{ name, props }] := by
  unfold readBlock
  rw [Text.lines_append_lineFeed (isOneLine_write identifier writable.toAreDeclarable)]
  simp [read?_write identifier writable]

end Invocation

end DocComponents
