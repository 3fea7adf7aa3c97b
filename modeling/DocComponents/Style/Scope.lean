import DocComponents.Style.Selector

/-!
# Scoped stylesheets

A stylesheet is cut at its braces and semicolons. The text before an opening brace is a selector
list unless it is empty or holds an at sign; each of its selectors is put under the attribute
selector of the scope. A brace that ends a selector list opens a rule body: the text right behind it
is taken for declarations even when it ends in a brace again.
-/

set_option autoImplicit false

namespace DocComponents.Style

def scopeAttribute (token : Text) : Text :=
  "[data-scope=\"".toList ++ token ++ ['"', ']']

def isDelimiter (char : Char) : Bool :=
  char == '{' || char == '}' || char == ';'

/-- A stretch of a stylesheet with the delimiter that ends it. -/
structure Segment where
  text : Text
  stop : Char
  deriving DecidableEq

/-- A stylesheet cut at its delimiters: the segments, and the text behind the last delimiter. -/
def cut : Text → List Segment × Text
  | [] => ([], [])
  | char :: rest =>
    match cut rest with
    | (segments, tail) =>
      if isDelimiter char then (⟨[], char⟩ :: segments, tail)
      else
        match segments with
        | [] => ([], char :: tail)
        | segment :: others => ({ segment with text := char :: segment.text } :: others, tail)

def segmentsText (segments : List Segment) : Text :=
  segments.flatMap fun segment => segment.text ++ [segment.stop]

/-- A segment that can be the selector list of a rule. -/
def Segment.opensRule (segment : Segment) : Bool :=
  segment.stop == '{' && !segment.text.isEmpty && !segment.text.contains '@'

/-- A selector list with each of its selectors under a lead. A list without selectors stays. -/
def scopeList (lead text : Text) : Text :=
  match Selector.split text with
  | [] => text
  | selectors =>
    text.takeWhile Text.isBlank ++ Text.join [',', ' '] (selectors.map (Selector.scope lead)) ++
      [' ']

/-- Segments with their selector lists under a lead. The flag tells that no rule was opened right
before the first segment. -/
def scopeSegments (lead : Text) : (free : Bool) → List Segment → List Segment
  | _, [] => []
  | free, segment :: rest =>
    if free && segment.opensRule then
      { segment with text := scopeList lead segment.text } :: scopeSegments lead false rest
    else segment :: scopeSegments lead true rest

def scope (css token : Text) : Text :=
  match cut css with
  | (segments, tail) =>
    segmentsText (scopeSegments (scopeAttribute token) true segments) ++ tail

/-- Cutting loses nothing: the segments and the tail are the stylesheet. -/
theorem segmentsText_cut (css : Text) : segmentsText (cut css).1 ++ (cut css).2 = css := by
  induction css with
  | nil => rfl
  | cons char rest ih =>
      unfold cut
      rcases found : cut rest with ⟨segments, tail⟩
      rw [found] at ih
      by_cases delimiter : isDelimiter char = true
      · simpa [delimiter, segmentsText] using ih
      · cases segments with
        | nil => simpa [delimiter, segmentsText] using ih
        | cons segment others => simpa [delimiter, segmentsText] using ih

end DocComponents.Style
