import DocComponents.Invocation.Basic
import DocComponents.Proofs.Identifier
import DocComponents.Proofs.Props
import DocComponents.Proofs.Text.Scan

/-!
# Arguments in any spelling

A caller may put blanks around the equals sign of an argument, enclose its value in either quote,
and separate arguments by commas and blanks or by nothing. The scan for arguments still begins each
hit at the first character of a key: separators begin no key, and a hit ends with the quote that
closes its value.
-/

set_option autoImplicit false

namespace DocComponents

/-- An argument as a caller spells it. -/
structure Spelling where
  key : Text
  beforeSign : Text := []
  behindSign : Text := []
  quote : Char := '"'
  value : Text

namespace Spelling

def text (spelling : Spelling) : Text :=
  spelling.key ++ (spelling.beforeSign ++ '=' :: (spelling.behindSign ++
    spelling.quote :: (spelling.value ++ [spelling.quote])))

def pair (spelling : Spelling) : Text × Text :=
  (spelling.key, spelling.value)

structure IsProper (spelling : Spelling) : Prop where
  key : isPropKey spelling.key = true
  beforeSign : ∀ char ∈ spelling.beforeSign, Text.isAsciiBlank char = true
  behindSign : ∀ char ∈ spelling.behindSign, Text.isAsciiBlank char = true
  quote : spelling.quote = '"' ∨ spelling.quote = '\''
  value : spelling.quote ∉ spelling.value

instance (spelling : Spelling) : Decidable spelling.IsProper :=
  decidable_of_iff
    (isPropKey spelling.key = true ∧ spelling.beforeSign.all Text.isAsciiBlank = true ∧
      spelling.behindSign.all Text.isAsciiBlank = true ∧
      (spelling.quote = '"' ∨ spelling.quote = '\'') ∧ spelling.quote ∉ spelling.value)
    ⟨fun ⟨key, beforeSign, behindSign, quote, value⟩ =>
        ⟨key, List.all_eq_true.mp beforeSign, List.all_eq_true.mp behindSign, quote, value⟩,
      fun proper => ⟨proper.key, List.all_eq_true.mpr proper.beforeSign,
        List.all_eq_true.mpr proper.behindSign, proper.quote, proper.value⟩⟩

variable {spelling : Spelling}

theorem text_ne_nil (spelling : Spelling) : spelling.text ≠ [] := by
  simp [text]

theorem text_append (spelling : Spelling) (rest : Text) :
    spelling.text ++ rest = spelling.key ++ (spelling.beforeSign ++ '=' ::
      (spelling.behindSign ++ spelling.quote :: (spelling.value ++ spelling.quote :: rest))) := by
  simp [text]

theorem IsProper.endsName (proper : spelling.IsProper) (rest : Text) :
    EndsName (spelling.beforeSign ++ '=' :: rest) := by
  cases blanks : spelling.beforeSign with
  | nil => exact endsName_cons (by decide) rest
  | cons first others =>
      have blank : Text.isAsciiBlank first = true :=
        proper.beforeSign first (by rw [blanks]; exact List.mem_cons_self)
      apply endsName_cons
      cases named : isNameChar first with
      | false => rfl
      | true =>
          rw [isAsciiBlank_eq_false_of_isNameChar named] at blank
          cases blank

theorem IsProper.quote_not_blank (proper : spelling.IsProper) :
    Text.isAsciiBlank spelling.quote = false := by
  cases proper.quote with
  | inl double =>
      rw [double]
      decide
  | inr single =>
      rw [single]
      decide

/-- A spelled argument is one hit with its pair, whatever follows it. -/
theorem IsProper.recogniseArgument_append (proper : spelling.IsProper) (rest : Text) :
    recogniseArgument (spelling.text ++ rest) = some (spelling.pair, spelling.text.length) := by
  have taken := takeName?_append proper.key (proper.endsName
    (spelling.behindSign ++ spelling.quote :: (spelling.value ++ spelling.quote :: rest)))
  rw [← spelling.text_append] at taken
  have sign : ¬ Text.isAsciiBlank '=' = true := by decide
  have quote : ¬ Text.isAsciiBlank spelling.quote = true := by
    simp [proper.quote_not_blank]
  have isQuote : spelling.quote = '"' || spelling.quote = '\'' := by
    simpa using proper.quote
  unfold recogniseArgument takeKey?
  rw [taken]
  simp only [List.dropWhile_append_of_pos proper.beforeSign, List.dropWhile_cons_of_neg sign,
    List.dropWhile_append_of_pos proper.behindSign, List.dropWhile_cons_of_neg quote,
    Text.dropWhile_bne_append_cons proper.value, Text.takeWhile_bne_append_cons proper.value]
  rw [if_pos isQuote]
  simp [pair]

end Spelling

/-- What is recognised as an argument is one in some spelling. -/
theorem exists_spelling_of_recogniseArgument {text : Text} {pair : Text × Text} {size : Nat}
    (recognised : recogniseArgument text = some (pair, size)) :
    ∃ (spelling : Spelling) (rest : Text), spelling.IsProper ∧ spelling.pair = pair ∧
      text = spelling.text ++ rest := by
  unfold recogniseArgument at recognised
  split at recognised
  · cases recognised
  · next key afterKey taken =>
      obtain ⟨named, behindKey⟩ := isName_of_takeName? taken
      split at recognised
      · next afterSign sign =>
          have beforeSign :=
            List.takeWhile_append_dropWhile (p := Text.isAsciiBlank) (l := afterKey)
          rw [sign] at beforeSign
          split at recognised
          · next quote afterQuote opened =>
              have behindSign :=
                List.takeWhile_append_dropWhile (p := Text.isAsciiBlank) (l := afterSign)
              rw [opened] at behindSign
              split at recognised
              · next isQuote =>
                  split at recognised
                  · next closing rest closed =>
                      have inside :=
                        List.takeWhile_append_dropWhile (p := (· != quote)) (l := afterQuote)
                      rw [closed] at inside
                      -- The value was taken up to the quote that opened it.
                      obtain rfl : closing = quote := by
                        have stops := List.head?_dropWhile_not (· != quote) afterQuote
                        rw [closed] at stops
                        simpa using stops
                      cases recognised
                      have absent : closing ∉ afterQuote.takeWhile (· != closing) := by
                        intro member
                        simpa using List.mem_takeWhile_imp member
                      let spelling : Spelling :=
                        { key
                          beforeSign := afterKey.takeWhile Text.isAsciiBlank
                          behindSign := afterSign.takeWhile Text.isAsciiBlank
                          quote := closing
                          value := afterQuote.takeWhile (· != closing) }
                      have proper : spelling.IsProper :=
                        { key := named
                          beforeSign := fun _ => List.mem_takeWhile_imp
                          behindSign := fun _ => List.mem_takeWhile_imp
                          quote := by simpa using isQuote
                          value := absent }
                      refine ⟨spelling, rest, proper, rfl, ?_⟩
                      rw [spelling.text_append, inside, behindSign, beforeSign, behindKey]
                  · cases recognised
              · cases recognised
          · cases recognised
      · cases recognised

theorem recogniseArgument_cons_of_not_word {char : Char} (outside : Text.isAsciiWord char = false)
    (rest : Text) : recogniseArgument (char :: rest) = none := by
  unfold recogniseArgument takeKey?
  rw [takeName?_cons_of_not_start outside]

/-- What may stand between two arguments. -/
def isSeparator (char : Char) : Bool :=
  char == ',' || Text.isBlank char

theorem isAsciiWord_eq_false_of_isSeparator {char : Char} (separates : isSeparator char = true) :
    Text.isAsciiWord char = false := by
  cases word : Text.isAsciiWord char with
  | false => rfl
  | true =>
      have notBlank := isBlank_eq_false_of_isNameChar (isNameChar_of_isAsciiWord word)
      have comma : char = ',' := by simpa [isSeparator, notBlank] using separates
      rw [comma] at word
      revert word
      decide

/-- Spelled arguments with the separators behind each of them. -/
def spelledArguments (spellings : List (Spelling × Text)) : Text :=
  spellings.flatMap fun (spelling, gap) => spelling.text ++ gap

theorem hits_separators_append {gap : Text} (separates : ∀ char ∈ gap, isSeparator char = true)
    (rest : Text) :
    Text.hits (Text.scan recogniseArgument (gap ++ rest)) =
      Text.hits (Text.scan recogniseArgument rest) := by
  induction gap with
  | nil => rfl
  | cons char others ih =>
      have rejected := recogniseArgument_cons_of_not_word
        (isAsciiWord_eq_false_of_isSeparator (separates char List.mem_cons_self)) (others ++ rest)
      rw [List.cons_append, Text.scan_cons_of_eq_none rejected, Text.hits_plain]
      exact ih fun other member => separates other (List.mem_cons_of_mem _ member)

/-- The scan meets the arguments one after the other. -/
theorem hits_spelledArguments {spellings : List (Spelling × Text)}
    (proper : ∀ spelled ∈ spellings, spelled.1.IsProper)
    (separates : ∀ spelled ∈ spellings, ∀ char ∈ spelled.2, isSeparator char = true) :
    Text.hits (Text.scan recogniseArgument (spelledArguments spellings)) =
      spellings.map fun spelled => spelled.1.pair := by
  induction spellings with
  | nil => rfl
  | cons spelled others ih =>
      obtain ⟨spelling, gap⟩ := spelled
      have recognised := (proper (spelling, gap) List.mem_cons_self).recogniseArgument_append
        (gap ++ spelledArguments others)
      have shape : spelledArguments ((spelling, gap) :: others) =
          spelling.text ++ (gap ++ spelledArguments others) := by
        simp [spelledArguments]
      rw [shape, Text.scan_append_of_eq_some spelling.text_ne_nil recognised, Text.hits_hit,
        hits_separators_append (separates (spelling, gap) List.mem_cons_self), List.map_cons]
      apply congrArg (List.cons spelling.pair)
      apply ih
      · intro other member
        exact proper other (List.mem_cons_of_mem _ member)
      · intro other member
        exact separates other (List.mem_cons_of_mem _ member)

/-- Of arguments in any spelling, with any separators before, between and behind them, each key
stands where it first came in and has the value that came in last. -/
theorem arguments_of_spelled {lead : Text} {spellings : List (Spelling × Text)}
    (leads : ∀ char ∈ lead, isSeparator char = true)
    (proper : ∀ spelled ∈ spellings, spelled.1.IsProper)
    (separates : ∀ spelled ∈ spellings, ∀ char ∈ spelled.2, isSeparator char = true) :
    let pairs := spellings.map fun spelled => spelled.1.pair
    let props := arguments (lead ++ spelledArguments spellings)
    props.pairs.map Prod.fst = (pairs.map Prod.fst).eraseDups ∧
      ∀ key, props.get? key = pairs.reverse.lookup key := by
  intro pairs props
  have hits : Text.hits (Text.scan recogniseArgument (lead ++ spelledArguments spellings)) =
      pairs :=
    (hits_separators_append leads _).trans (hits_spelledArguments proper separates)
  have found : props = Props.ofPairs pairs := congrArg Props.ofPairs hits
  rw [found]
  exact ⟨Props.keys_ofPairs pairs, Props.get?_ofPairs pairs⟩

/-- A key that is given twice, with nothing before its second argument, and values that look like
arguments themselves. -/
def crowdedSpellings : List (Spelling × Text) :=
  [({ key := "a".toList, value := "b='2'".toList }, []),
    ({ key := "b".toList, beforeSign := "\t".toList, quote := '\'', value := "\"c".toList },
      " ,\u3000\n".toList),
    ({ key := "a".toList, behindSign := " \n".toList, value := "it's, c='3'".toList },
      ",,".toList)]

theorem arguments_of_spelled_crowded :
    let text := ", ".toList ++ spelledArguments crowdedSpellings
    text = ", a=\"b='2'\"b\t='\"c' ,\u3000\na= \n\"it's, c='3'\",,".toList ∧
      (arguments text).pairs.map Prod.fst = ["a".toList, "b".toList] ∧
      (arguments text).get? "a".toList = some "it's, c='3'".toList := by
  intro text
  have leads : ∀ char ∈ ", ".toList, isSeparator char = true := List.all_eq_true.mp rfl
  have proper : ∀ spelled ∈ crowdedSpellings, spelled.1.IsProper := by decide +kernel
  have separates : ∀ spelled ∈ crowdedSpellings, ∀ char ∈ spelled.2, isSeparator char = true := by
    intro spelled member
    have all : crowdedSpellings.all (fun spelled => spelled.2.all isSeparator) = true := rfl
    exact List.all_eq_true.mp (List.all_eq_true.mp all spelled member)
  obtain ⟨keys, values⟩ := arguments_of_spelled leads proper separates
  exact ⟨by decide +kernel, keys, values "a".toList⟩

end DocComponents
