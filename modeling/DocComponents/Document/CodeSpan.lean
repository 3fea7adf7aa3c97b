import DocComponents.Text.Scan

/-!
# Code spans

A run of backticks opens a code span if a later run of the same length closes it and no blank line
stands between the two; the nearest such run closes it. Any other run is plain text.
-/

set_option autoImplicit false

namespace DocComponents.CodeSpan

def runLength (text : Text) : Nat :=
  (text.takeWhile (· == '`')).length

/-- Whether a blank line begins here: a line feed, spaces and tabs, and another line feed. -/
def isBlankLine : Text → Bool
  | '\n' :: rest => (rest.dropWhile Text.isSpaceOrTab).head? == some '\n'
  | _ => false

/-- The length of the text before the run of `length` backticks that closes a span. -/
def contentLength? (length : Nat) : (previous : Char) → Text → Option Nat
  | _, [] => none
  | previous, char :: rest =>
    if previous != '`' && runLength (char :: rest) = length then some 0
    else if isBlankLine (char :: rest) then none
    else (contentLength? length char rest).map (· + 1)

/-- The length of the code span at the beginning of a text, for the character before it. -/
def recognise (previous : Option Char) (text : Text) : Option (Unit × Nat) :=
  let length := runLength text
  if length = 0 || previous = some '`' then none
  else
    match contentLength? length '`' (text.drop length) with
    | some content => some ((), length + content + length)
    | none => none

def pieces (text : Text) : List (Text.Piece Unit) :=
  Text.scanFrom recognise 0 none text

inductive Stretch where
  | prose (source : Text)
  | code (source : Text)
  deriving DecidableEq, Repr

def Stretch.source : Stretch → Text
  | .prose source => source
  | .code source => source

/-- Pieces with the characters between two code spans put together. -/
def gather : List (Text.Piece Unit) → List Stretch
  | [] => []
  | .hit source _ :: rest => .code source :: gather rest
  | .plain char :: rest =>
    match gather rest with
    | .prose source :: others => .prose (char :: source) :: others
    | others => .prose [char] :: others

def stretches (text : Text) : List Stretch :=
  gather (pieces text)

end DocComponents.CodeSpan
