import DocComponents.Data.Table
import DocComponents.Toml.Scalar
import DocComponents.Text.Scan

/-!
# Reading TOML

A document is a sequence of statements: assignments of values to dotted keys, and headers that open
a table or append one to a list of tables. What a later statement may still touch is kept in marks:
a namespace that was opened explicitly is not opened again, and a value that was written in one
piece is closed with all that is inside it.
-/

set_option autoImplicit false

namespace DocComponents.Toml

abbrev Key := List Text

/-- Entries with the table at a dotted key changed. Missing tables are made on the way; a list of
tables stands for its last one, if lists may be entered. -/
def changeTable (enterLists : Bool) (change : Table → Option Table) :
    Key → Table → Option Table
  | [], entries => change entries
  | part :: key, entries =>
    match entries.lookup part with
    | none =>
      (changeTable enterLists change key []).map fun inner =>
        Table.set part (.table inner) entries
    | some (.table inner) =>
      (changeTable enterLists change key inner).map fun inner =>
        Table.set part (.table inner) entries
    | some (.list items) =>
      match enterLists, items.getLast? with
      | true, some (.table inner) =>
        (changeTable enterLists change key inner).map fun inner =>
          Table.set part (.list (items.dropLast ++ [.table inner])) entries
      | _, _ => none
    | some _ => none

/-- A change that adds an entry, unless its key is there already. -/
def addEntry (key : Text) (value : Data) (entries : Table) : Option Table :=
  if (entries.lookup key).isSome then none else some (entries ++ [(key, value)])

def addToList (key : Text) (entries : Table) : Option Table :=
  match entries.lookup key with
  | none => some (entries ++ [(key, .list [.table []])])
  | some (.list items) => some (Table.set key (.list (items ++ [.table []])) entries)
  | some _ => none

inductive Mark where
  | opened (key : Key)
  /-- The value was written in one piece. -/
  | closed (key : Key)
  deriving DecidableEq, Repr

def Mark.key : Mark → Key
  | .opened key => key
  | .closed key => key

def isOpened (marks : List Mark) (key : Key) : Bool :=
  marks.contains (.opened key)

/-- Whether a namespace belongs to a value that was written in one piece. -/
def isClosed (marks : List Mark) (key : Key) : Bool :=
  marks.any fun
    | .closed other => other.isPrefixOf key
    | .opened _ => false

def isContainer : Data → Bool
  | .list _ => true
  | .table _ => true
  | _ => false

/-! ## Keys and values -/

def skipBlanks (text : Text) : Text :=
  text.dropWhile Text.isSpaceOrTab

/-- What follows a comment, if there is one, down to the end of its line. -/
def afterComment? (text : Text) : Option Text :=
  match text with
  | '#' :: rest =>
    if (rest.takeWhile (· != '\n')).any isIllegal then none else some (rest.dropWhile (· != '\n'))
  | _ => some text

/-- What follows blanks, line feeds and comments. The number bounds the comments. -/
def skipLines? : Nat → Text → Option Text
  | 0, text => some text
  | fuel + 1, text =>
    match text.dropWhile isBlankOrFeed with
    | '#' :: rest =>
      match afterComment? ('#' :: rest) with
      | some tail => skipLines? fuel tail
      | none => none
    | tail => some tail

/-- One part of a dotted key: bare, or a string on one line. -/
def keyPart? (text : Text) : Option (Text × Text) :=
  match text with
  | '"' :: rest => basicFrom? 0 rest
  | '\'' :: rest => literal? rest
  | char :: _ =>
    if isBareKeyChar char then some (text.takeWhile isBareKeyChar, text.dropWhile isBareKeyChar)
    else none
  | [] => none

/-- A dotted key, and what follows it and the blanks behind it. The number bounds the parts. -/
def key? : Nat → Text → Option (Key × Text)
  | 0, _ => none
  | fuel + 1, text =>
    match keyPart? text with
    | none => none
    | some (part, rest) =>
      match skipBlanks rest with
      | '.' :: tail => (key? fuel (skipBlanks tail)).map fun (key, last) => (part :: key, last)
      | tail => some ([part], tail)

/-- An inline table as it is read: its entries, and the marks of the values inside it. -/
structure Inline where
  entries : Table := []
  marks : List Mark := []

def Inline.add (inline : Inline) (key : Key) (value : Data) : Option Inline :=
  if isClosed inline.marks key then none
  else
    match changeTable false (addEntry (key.getLast?.getD []) value) key.dropLast inline.entries with
    | none => none
    | some entries =>
      some
        { entries
          marks := if isContainer value then .closed key :: inline.marks else inline.marks }

mutual

/-- A value of any kind. The number bounds the nesting and the length of lists and tables. -/
def value? : Nat → Text → Option (Data × Text)
  | 0, _ => none
  | fuel + 1, text =>
    match text with
    | '"' :: _ => (string? text).map fun (value, rest) => (.text value, rest)
    | '\'' :: _ => (string? text).map fun (value, rest) => (.text value, rest)
    | '[' :: rest =>
      match skipLines? fuel rest with
      | some inside => (items? fuel inside).map fun (items, tail) => (.list items, tail)
      | none => none
    | '\x7b' :: rest =>
      match skipBlanks rest with
      | '\x7d' :: tail => some (.table [], tail)
      | inside => (inline? fuel {} inside).map fun (entries, tail) => (.table entries, tail)
    | _ => scalar? text

def items? : Nat → Text → Option (List Data × Text)
  | 0, _ => none
  | fuel + 1, text =>
    match text with
    | ']' :: rest => some ([], rest)
    | _ =>
      match value? fuel text with
      | none => none
      | some (item, afterItem) =>
        match skipLines? fuel afterItem with
        | some (']' :: rest) => some ([item], rest)
        | some (',' :: rest) =>
          match skipLines? fuel rest with
          | some inside => (items? fuel inside).map fun (items, tail) => (item :: items, tail)
          | none => none
        | _ => none

/-- The entries of an inline table down to its closing brace, after those already read. -/
def inline? : Nat → Inline → Text → Option (Table × Text)
  | 0, _, _ => none
  | fuel + 1, inline, text =>
    match key? fuel text with
    | some (key, '=' :: afterSign) =>
      match value? fuel (skipBlanks afterSign) with
      | none => none
      | some (value, afterValue) =>
        match inline.add key value with
        | none => none
        | some inline =>
          match skipBlanks afterValue with
          | '\x7d' :: rest => some (inline.entries, rest)
          | ',' :: rest => inline? fuel inline (skipBlanks rest)
          | _ => none
    | _ => none

end

/-! ## Documents -/

structure Reading where
  entries : Table := []
  marks : List Mark := []
  /-- Namespaces that count as opened from the next header on. -/
  pending : List Key := []
  /-- The table that assignments belong to. -/
  header : Key := []

namespace Reading

/-- The namespaces that a dotted key opens below the current table. -/
def inner (header key : Key) : List Key :=
  (List.range (key.length - 1)).map fun count => header ++ key.take (count + 1)

def assign (reading : Reading) (key : Key) (value : Data) : Option Reading :=
  let table := reading.header ++ key.dropLast
  let inner := inner reading.header key
  if inner.any (isOpened reading.marks) || isClosed reading.marks table then none
  else
    match changeTable true (addEntry (key.getLast?.getD []) value) table reading.entries with
    | none => none
    | some entries =>
      some
        { reading with
          entries
          pending := reading.pending ++ inner
          marks :=
            if isContainer value then .closed (reading.header ++ key) :: reading.marks
            else reading.marks }

def settle (reading : Reading) : Reading :=
  { reading with marks := reading.pending.map .opened ++ reading.marks, pending := [] }

def openTable (reading : Reading) (key : Key) : Option Reading :=
  if isOpened reading.marks key || isClosed reading.marks key then none
  else
    (changeTable true some key reading.entries).map fun entries =>
      { reading with entries, marks := .opened key :: reading.marks, header := key }

def appendTable (reading : Reading) (key : Key) : Option Reading :=
  if isClosed reading.marks key then none
  else
    (changeTable true (addToList (key.getLast?.getD [])) key.dropLast reading.entries).map
      fun entries =>
        { reading with
          entries
          marks :=
            .opened key :: reading.marks.filter fun mark => !key.isPrefixOf mark.key
          header := key }

end Reading

def afterBrackets? (brackets : Text) (text : Text) : Option Text :=
  Text.afterLead? brackets text

def statement? (fuel : Nat) (reading : Reading) (text : Text) : Option (Reading × Text) :=
  match text with
  | '[' :: '[' :: rest => do
    let (key, tail) ← key? fuel (skipBlanks rest)
    let next ← reading.settle.appendTable key
    return (next, ← afterBrackets? [']', ']'] tail)
  | '[' :: rest => do
    let (key, tail) ← key? fuel (skipBlanks rest)
    let next ← reading.settle.openTable key
    return (next, ← afterBrackets? [']'] tail)
  | '#' :: _ => some (reading, text)
  | _ =>
    match key? fuel text with
    | some (key, '=' :: afterSign) => do
      let (value, rest) ← value? fuel (skipBlanks afterSign)
      return (← reading.assign key value, rest)
    | _ => none

/-- The document after the statements of a text. The number bounds the lines. -/
def statements? (size : Nat) : Nat → Reading → Text → Option Reading
  | 0, _, _ => none
  | fuel + 1, reading, text =>
    match skipBlanks text with
    | [] => some reading
    | '\n' :: rest => statements? size fuel reading rest
    | start =>
      match statement? size reading start with
      | none => none
      | some (next, afterStatement) =>
        match afterComment? (skipBlanks afterStatement) with
        | some [] => some next
        | some ('\n' :: rest) => statements? size fuel next rest
        | _ => none

/-- The table that a document is. A carriage return before a line feed belongs to the line end. -/
def read (document : Text) : Option Table :=
  let text := Text.replace ['\r', '\n'] ['\n'] document
  let size := 2 * text.length + 2
  (statements? size size {} text).map Reading.entries

end DocComponents.Toml
