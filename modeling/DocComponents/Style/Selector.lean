import DocComponents.Text.Alphabet

/-!
# Selectors

A selector list is split on its top-level commas: those outside quotes, parentheses and brackets.
A selector is scoped by putting a lead in front of it. Selectors that begin at the root element,
selectors that carry the lead already and the stops of keyframes stay as they are.
-/

set_option autoImplicit false

namespace DocComponents.Selector

/-- Where a scan of a selector list stands: the quote that is open, and the closing characters that
are awaited, innermost first. -/
structure Nesting where
  quote : Option Char := none
  closers : List Char := []
  deriving DecidableEq, Repr

def closerOf? (char : Char) : Option Char :=
  if char = '(' then some ')' else if char = '[' then some ']' else none

def Nesting.step (nesting : Nesting) (char : Char) : Nesting :=
  match nesting.quote with
  | some quote => if char = quote then { nesting with quote := none } else nesting
  | none =>
    if char = '"' || char = '\'' then { nesting with quote := some char }
    else
      match closerOf? char with
      | some closer => { nesting with closers := closer :: nesting.closers }
      | none =>
        match nesting.closers with
        | [] => nesting
        | closer :: closers => if char = closer then { nesting with closers } else nesting

/-- A comma separates selectors when nothing is open. -/
def Nesting.separates (nesting : Nesting) (char : Char) : Bool :=
  char = ',' && nesting.quote.isNone && nesting.closers.isEmpty

/-- The text between the separating commas, cut at each of them. -/
def rawParts : Nesting → Text → List Text
  | _, [] => [[]]
  | nesting, char :: rest =>
    if nesting.separates char then [] :: rawParts nesting rest
    else
      match rawParts (nesting.step char) rest with
      | [] => [[char]]
      | part :: parts => (char :: part) :: parts

/-- The selectors of a list, trimmed. Blank parts are no selectors. -/
def split (selectors : Text) : List Text :=
  ((rawParts {} selectors).map Text.trim).filter fun part => !part.isEmpty

/-- Digits, with an optional fraction, before a percent sign. -/
def isPercentage (selector : Text) : Bool :=
  !(selector.takeWhile Text.isDigit).isEmpty &&
    match selector.dropWhile Text.isDigit with
    | ['%'] => true
    | '.' :: fraction =>
      !(fraction.takeWhile Text.isDigit).isEmpty && fraction.dropWhile Text.isDigit == ['%']
    | _ => false

def isKeyframeStop (selector : Text) : Bool :=
  Text.lower selector == "from".toList || Text.lower selector == "to".toList ||
    isPercentage selector

def isExempt (lead selector : Text) : Bool :=
  Text.startsWith selector ":root".toList || Text.startsWith selector lead ||
    isKeyframeStop selector

def scope (lead selector : Text) : Text :=
  if isExempt lead selector then selector else lead ++ ' ' :: selector

end DocComponents.Selector
