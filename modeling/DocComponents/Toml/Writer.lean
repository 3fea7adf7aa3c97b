import DocComponents.Text.Basic

/-!
# Writing TOML

The few forms of TOML that a configuration is written in: comments, assignments of strings and truth
values, and table headers. A string is written on one line, with its quotes, backslashes and control
characters escaped.
-/

set_option autoImplicit false

namespace DocComponents.Toml

def writeChar (char : Char) : Text :=
  if char = '"' then ['\\', '"']
  else if char = '\\' then ['\\', '\\']
  else if char = '\x08' then ['\\', 'b']
  else if char = '\t' then ['\\', 't']
  else if char = '\n' then ['\\', 'n']
  else if char = '\x0C' then ['\\', 'f']
  else if char = '\r' then ['\\', 'r']
  else if char.toNat < 0x20 || char.toNat = 0x7F then
    '\\' :: 'u' :: Text.hexadecimal 4 char.toNat
  else [char]

def writeString (text : Text) : Text :=
  '"' :: text.flatMap writeChar ++ ['"']

def writeBool : Bool → Text
  | true => "true".toList
  | false => "false".toList

inductive Line where
  | comment (text : Text)
  | blank
  | header (key : Text)
  | string (key value : Text)
  | truth (key : Text) (value : Bool)
  deriving DecidableEq, Repr

def Line.write : Line → Text
  | .comment text => '#' :: ' ' :: text
  | .blank => []
  | .header key => '[' :: key ++ [']']
  | .string key value => key ++ " = ".toList ++ writeString value
  | .truth key value => key ++ " = ".toList ++ writeBool value

def writeLines (lines : List Line) : Text :=
  lines.flatMap fun line => line.write ++ ['\n']

end DocComponents.Toml
