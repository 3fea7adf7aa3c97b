import DocComponents.Text.Basic

/-!
# Script statements

A script changes the element that it is given, one statement on a line. An expression is a literal
or the value of a prop. A line is first cut into tokens; the tokens of a line are a statement as a
whole or nothing. Only a part of the language is read: the calls that change the element, and the
calls that fail because nothing has their name.
-/

set_option autoImplicit false

namespace DocComponents.Script

inductive Expression where
  | literal (value : Text)
  | prop (key : Text)
  deriving DecidableEq, Repr

inductive Raised where
  | valueError
  | exception
  deriving DecidableEq, Repr

inductive Statement where
  | skip
  | stop
  | setAttribute (name value : Expression)
  | addClasses (names : List Expression)
  | append (content : Expression)
  | appendMarkup (html : Expression)
  | clear
  /-- Set a prop, as the script sees it from then on. -/
  | setProp (key : Text) (value : Expression)
  | raise (kind : Raised) (message : Text)
  /-- Call a function that scripts cannot reach. -/
  | callFunction (name : Text)
  /-- Call a method that elements do not have. -/
  | callMethod (name : Text)
  deriving DecidableEq, Repr

inductive Token where
  | word (name : Text)
  | literal (value : Text)
  | sign (char : Char)
  deriving DecidableEq, Repr

def isGap (char : Char) : Bool :=
  char == ' ' || char == '\t' || char == '\x0C'

/-- The token at the beginning of a text, with its length. A literal holds no backslash. -/
def takeToken? : Text → Option (Token × Nat)
  | [] => none
  | char :: rest =>
    if char = '"' || char = '\'' then
      let value := rest.takeWhile (· != char)
      if (rest.drop value.length).isEmpty || value.contains '\\' then none
      else some (.literal value, value.length + 2)
    else if Text.isAsciiWord char && !char.isDigit then
      let name := char :: rest.takeWhile Text.isAsciiWord
      some (.word name, name.length)
    else if "().,=[]".toList.contains char then some (.sign char, 1)
    else none

/-- The tokens of a line down to its end or to a comment. The first argument counts the characters
that still belong to the last token. -/
def tokensFrom? : Nat → Text → Option (List Token)
  | _, [] => some []
  | skip + 1, _ :: rest => tokensFrom? skip rest
  | 0, char :: rest =>
    if char = '#' then some []
    else if isGap char then tokensFrom? 0 rest
    else
      match takeToken? (char :: rest) with
      | none => none
      | some (token, size) =>
        match tokensFrom? (size - 1) rest with
        | some tokens => some (token :: tokens)
        | none => none

/-- The arguments of a call, down to the closing parenthesis that ends the line. -/
def arguments? : List Token → Option (List Expression)
  | [.sign ')'] => some []
  | [.literal value, .sign ')'] => some [.literal value]
  | .literal value :: .sign ',' :: rest =>
    match arguments? rest with
    | some others => some (.literal value :: others)
    | none => none
  | .word name :: .sign '[' :: .literal key :: .sign ']' :: .sign ',' :: rest =>
    if name = "props".toList then
      match arguments? rest with
      | some others => some (.prop key :: others)
      | none => none
    else none
  | [.word name, .sign '[', .literal key, .sign ']', .sign ')'] =>
    if name = "props".toList then some [.prop key] else none
  | _ => none

/-- Words of the language, which name nothing. -/
def keywords : List Text :=
  ["False", "None", "True", "and", "as", "assert", "async", "await", "break", "class", "continue",
    "def", "del", "elif", "else", "except", "finally", "for", "from", "global", "if", "import", "in",
    "is", "lambda", "nonlocal", "not", "or", "pass", "raise", "return", "try", "while", "with",
    "yield"].map String.toList

def elementNames : List Text :=
  ["tag", "attributes", "classes", "children", "set_attribute", "get_attribute", "add_class",
    "has_class", "append", "append_markup", "create_child", "clear", "iter_elements", "find_class",
    "inner_html", "to_html"].map String.toList

/-- What scripts can reach by name: their arguments, what surrounds them and the built-in functions
that are left to them. -/
def reachableNames : List Text :=
  ["el", "props", "_component_script", "__builtins__", "__debug__", "abs", "all", "any", "bool",
    "dict", "enumerate", "Exception", "float", "int", "isinstance", "len", "list", "max", "min",
    "range", "reversed", "round", "set", "sorted", "str", "sum", "tuple", "ValueError",
    "zip"].map String.toList

/-- Whether a word is surely no attribute of elements. Names with two leading underscores are
reserved, and every object has some of them. -/
def isUnknownMethod (name : Text) : Bool :=
  !keywords.contains name && !elementNames.contains name && !"__".toList.isPrefixOf name

def isUnknownFunction (name : Text) : Bool :=
  !keywords.contains name && !reachableNames.contains name

/-- A call of a method of the element, as far as scripts are read: the methods that change it and
those that it does not have. -/
def methodCall? (name : Text) (values : List Expression) : Option Statement :=
  if name = "set_attribute".toList then
    match values with
    | [name, value] => some (.setAttribute name value)
    | _ => none
  else if name = "add_class".toList then some (.addClasses values)
  else if name = "append".toList then
    match values with
    | [content] => some (.append content)
    | _ => none
  else if name = "append_markup".toList then
    match values with
    | [html] => some (.appendMarkup html)
    | _ => none
  else if name = "clear".toList then if values.isEmpty then some .clear else none
  else if isUnknownMethod name then some (.callMethod name)
  else none

def expression? : List Token → Option Expression
  | [.literal value] => some (.literal value)
  | [.word name, .sign '[', .literal key, .sign ']'] =>
    if name = "props".toList then some (.prop key) else none
  | _ => none

def statement? : List Token → Option Statement
  | [.word word] =>
    if word = "pass".toList then some .skip
    else if word = "return".toList then some .stop
    else none
  | [.word word, .word kind, .sign '(', .literal message, .sign ')'] =>
    if word = "raise".toList then
      if kind = "ValueError".toList then some (.raise .valueError message)
      else if kind = "Exception".toList then some (.raise .exception message)
      else none
    else none
  | .word object :: .sign '.' :: .word method :: .sign '(' :: rest =>
    if object = "el".toList then (arguments? rest).bind (methodCall? method) else none
  | .word object :: .sign '[' :: .literal key :: .sign ']' :: .sign '=' :: rest =>
    if object = "props".toList then (expression? rest).map (.setProp key) else none
  | .word name :: .sign '(' :: rest =>
    if isUnknownFunction name then (arguments? rest).map fun _ => .callFunction name else none
  | _ => none

/-- The statement on a line, without its indentation. Null characters stand in no script, not even
in its literals and comments. -/
def readStatement? (line : Text) : Option Statement :=
  if line.contains '\x00' then none else (tokensFrom? 0 line).bind statement?

end DocComponents.Script
