import DocComponents.Script.Statement
import DocComponents.Text.Lines

/-!
# Script layout

A script is the body of a function. The indentation that all its lines share is taken away and four
spaces are put in front of each line; the function then ends with a statement of its own behind four
spaces. All statements of a body stand in one column.
-/

set_option autoImplicit false

namespace DocComponents.Script

inductive LayoutFault where
  | invalidSyntax
  | unexpectedIndent
  | unmatchedUnindent
  | mixedTabs
  deriving DecidableEq, Repr

def LayoutFault.message : LayoutFault → Text
  | .invalidSyntax => "invalid syntax".toList
  | .unexpectedIndent => "unexpected indent".toList
  | .unmatchedUnindent => "unindent does not match any outer indentation level".toList
  | .mixedTabs => "inconsistent use of tabs and spaces in indentation".toList

def indentation (line : Text) : Text :=
  line.takeWhile Text.isSpaceOrTab

def commonLead : Text → Text → Text
  | left :: lefts, right :: rights => if left = right then left :: commonLead lefts rights else []
  | _, _ => []

/-- The lines of a text that a line feed ends, with the lines of spaces and tabs emptied. -/
def plainLines (script : Text) : List Text :=
  (Text.cutAt (· == '\n') script).map fun line => if line.all Text.isSpaceOrTab then [] else line

/-- The indentation that all lines but the empty ones share. -/
def margin (lines : List Text) : Text :=
  match (lines.filter fun line => !line.isEmpty).map indentation with
  | [] => []
  | first :: others => others.foldl commonLead first

def dedent (script : Text) : Text :=
  let lines := plainLines script
  Text.join ['\n'] (lines.map fun line => (Text.afterLead? (margin lines) line).getD line)

def bodyIndentation : Text := "    ".toList

/-- The text with four spaces in front of each line that is not blank. -/
def indent (text : Text) : Text :=
  (Text.fullLines text).flatMap fun line =>
    if line.all Text.isBlank then line else bodyIndentation ++ line

/-- A column, counted once with tab stops at every eighth column and once with a tab as a single
column. Two indentations are comparable when both counts agree. -/
structure Column where
  tabbed : Nat := 0
  plain : Nat := 0
  deriving DecidableEq, Repr

/-- The column behind one more blank. A form feed begins the line anew. -/
def Column.step (column : Column) (char : Char) : Column :=
  if char = '\t' then ⟨(column.tabbed / 8 + 1) * 8, column.plain + 1⟩
  else if char = '\x0C' then {}
  else ⟨column.tabbed + 1, column.plain + 1⟩

def columnOf (line : Text) : Column :=
  (line.takeWhile isGap).foldl Column.step {}

/-- What is wrong with a line in a column, in a body whose statements stand in another one. -/
def columnFault? (body column : Column) : Option LayoutFault :=
  if column.tabbed = body.tabbed then
    if column.plain = body.plain then none else some .mixedTabs
  else if body.tabbed < column.tabbed then
    if body.plain < column.plain then some .unexpectedIndent else some .mixedTabs
  else some .unmatchedUnindent

/-- A line that is read: it is neither blank nor a comment, or it holds a null character. -/
def holdsStatement (line : Text) : Bool :=
  match line.dropWhile isGap with
  | [] => false
  | char :: _ => char != '#' || line.contains '\x00'

def readLines (body : Column) : List Text → Except LayoutFault (List Statement)
  | [] =>
    match columnFault? body (columnOf bodyIndentation) with
    | some fault => .error fault
    | none => .ok []
  | line :: rest =>
    match columnFault? body (columnOf line) with
    | some fault => .error fault
    | none =>
      match readStatement? line with
      | none => .error .invalidSyntax
      | some statement =>
        match readLines body rest with
        | .ok statements => .ok (statement :: statements)
        | .error fault => .error fault

def read (script : Text) : Except LayoutFault (List Statement) :=
  let source := Text.cutAt (· == '\n') (Text.universalNewlines (indent (dedent script)))
  match source.filter holdsStatement with
  | [] => .ok []
  | line :: rest => readLines (columnOf line) (line :: rest)

end DocComponents.Script
