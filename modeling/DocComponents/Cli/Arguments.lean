import DocComponents.Text.Scan

/-!
# Command-line arguments

The words behind a command are options and operands. An option has a long spelling or a short one,
and some take a value: after an equals sign, as the rest of a short option's word, or as the next
word, whatever it looks like. Two dashes alone end the options.
-/

set_option autoImplicit false

namespace DocComponents.Cli

structure Switch where
  /-- The name under which the option is found when it is given. -/
  name : Text
  /-- The spellings, each with its dashes. -/
  spellings : List Text
  takesValue : Bool := true
  isPath : Bool := false
  deriving DecidableEq, Repr

structure Arguments where
  /-- The options by name, as they were given. An option without a value has an empty one. -/
  options : List (Text × Text) := []
  operands : List Text := []
  deriving DecidableEq, Repr

namespace Arguments

def withOptions (given : List (Text × Text)) (arguments : Arguments) : Arguments :=
  { arguments with options := given ++ arguments.options }

def withOperand (operand : Text) (arguments : Arguments) : Arguments :=
  { arguments with operands := operand :: arguments.operands }

/-- The value of an option. The last one counts. -/
def value? (arguments : Arguments) (name : Text) : Option Text :=
  arguments.options.reverse.lookup name

def has (arguments : Arguments) (name : Text) : Bool :=
  (arguments.value? name).isSome

structure Reading where
  given : List (Text × Text)
  takesNext : Bool := false

/-- An option with a value from its own word or from the next one. -/
def readValue (name : Text) (own? next? : Option Text) : Option Reading :=
  match own?, next? with
  | some value, _ => some { given := [(name, value)] }
  | none, some value => some { given := [(name, value)], takesNext := true }
  | none, none => none

def find? (switches : List Switch) (spelling : Text) : Option Switch :=
  switches.find? fun switch => switch.spellings.contains spelling

/-- Short options in one word, of which the last one may take the rest of the word as its value. -/
def readShort (switches : List Switch) (next? : Option Text) : Text → Option Reading
  | [] => some { given := [] }
  | letter :: rest =>
    match find? switches ['-', letter] with
    | none => none
    | some switch =>
      if switch.takesValue then
        readValue switch.name (if rest.isEmpty then none else some rest) next?
      else
        (readShort switches next? rest).map fun reading =>
          { reading with given := (switch.name, []) :: reading.given }

/-- A long option, whose value may follow an equals sign. -/
def readLong (switches : List Switch) (next? : Option Text) (word : Text) : Option Reading :=
  let spelling := word.takeWhile (· != '=')
  let own? := if word.contains '=' then some (word.drop (spelling.length + 1)) else none
  match find? switches spelling with
  | none => none
  | some switch =>
    if switch.takesValue then readValue switch.name own? next?
    else if own?.isSome then none
    else some { given := [(switch.name, [])] }

def readOption (switches : List Switch) (next? : Option Text) (word : Text) : Option Reading :=
  if Text.startsWith word ['-', '-'] then readLong switches next? word
  else readShort switches next? (word.drop 1)

def isOption (word : Text) : Bool :=
  word.head? = some '-' && 1 < word.length

/-- The arguments that words give, if every option is known and has its value. Options may stand
behind operands when the two are mixed; otherwise all words from the first operand on are operands.
A word that is already taken as a value is passed over. -/
def readFrom (switches : List Switch) (mixed : Bool) : (taken : Bool) → List Text → Option Arguments
  | _, [] => some {}
  | true, _ :: rest => readFrom switches mixed false rest
  | false, word :: rest =>
    if word = ['-', '-'] then some { operands := rest }
    else if isOption word then
      match readOption switches rest.head? word with
      | none => none
      | some reading =>
        (readFrom switches mixed reading.takesNext rest).map (withOptions reading.given)
    else if mixed then (readFrom switches mixed false rest).map (withOperand word)
    else some { operands := word :: rest }

def read? (switches : List Switch) (words : List Text) : Option Arguments :=
  readFrom switches true false words

/-- The arguments in front of another command, with that command and its words as operands. -/
def readBefore? (switches : List Switch) (words : List Text) : Option Arguments :=
  readFrom switches false false words

end Arguments

end DocComponents.Cli
