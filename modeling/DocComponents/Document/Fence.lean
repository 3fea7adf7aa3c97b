import DocComponents.Text.Lines

/-!
# Fences

A markdown text is cut into prose, fenced code and fenced blocks of component invocations. A fence
is opened by a run of at least three backticks or tildes and closed by a line of no fewer; one that
is not closed runs to the end of the text.
-/

set_option autoImplicit false

namespace DocComponents

structure Fence where
  /-- The character of which the fence is a run. -/
  mark : Char
  length : Nat
  /-- What stands behind the run, trimmed. -/
  info : Text
  deriving DecidableEq, Repr

inductive Chunk where
  | prose (source : Text)
  | code (source : Text)
  /-- A fenced block of invocations between its opening line and its closing line, which is empty
  when the fence is not closed. -/
  | invocations (opening body closing : Text)
  deriving DecidableEq, Repr

namespace Fence

def blockLanguage : Text := "component".toList

/-- A line without the carriage returns and line feeds at its end. -/
def withoutLineFeed (line : Text) : Text :=
  Text.trimEnd (fun char => char == '\r' || char == '\n') line

/-- The fence that a line opens. It is indented by three spaces at most, and no backtick stands
behind a run of backticks. -/
def open? (line : Text) : Option Fence :=
  let shown := withoutLineFeed line
  let indent := (shown.takeWhile (· == ' ')).length
  match shown.drop indent with
  | [] => none
  | mark :: _ =>
    let length := ((shown.drop indent).takeWhile (· == mark)).length
    let info := Text.trim (shown.drop (indent + length))
    if 3 < indent || length < 3 then none
    else if mark = '`' then if info.contains '`' then none else some { mark, length, info }
    else if mark = '~' then some { mark, length, info }
    else none

/-- Whether a line closes a fence: trimmed, it is a run of the fence's mark that is long enough. -/
def closes (fence : Fence) (line : Text) : Bool :=
  let shown := Text.trim line
  fence.length ≤ shown.length && shown.all (· == fence.mark)

/-- Whether what stands in a fence are invocations: the first word behind the run says so. -/
def holdsInvocations (fence : Fence) : Bool :=
  match Text.words fence.info with
  | [] => false
  | language :: _ => Text.lower language == blockLanguage

def chunk (fence : Fence) (opening body closing : Text) : Chunk :=
  if fence.holdsInvocations then .invocations opening body closing
  else .code (opening ++ body ++ closing)

end Fence

namespace Chunk

def source : Chunk → Text
  | .prose source => source
  | .code source => source
  | .invocations opening body closing => opening ++ body ++ closing

/-- What has been read of the current chunk: lines of prose, or an open fence with its opening line
and the lines inside. -/
inductive Progress where
  | prose (lines : List Text)
  | fence (fence : Fence) (opening : Text) (lines : List Text)

def ofProse (lines : List Text) : List Chunk :=
  if lines.isEmpty then [] else [.prose lines.flatten]

def ofLines : Progress → List Text → List Chunk
  | .prose lines, [] => ofProse lines
  | .fence fence opening lines, [] => [fence.chunk opening lines.flatten []]
  | .prose lines, line :: rest =>
    match Fence.open? line with
    | none => ofLines (.prose (lines ++ [line])) rest
    | some fence => ofProse lines ++ ofLines (.fence fence line []) rest
  | .fence fence opening lines, line :: rest =>
    if fence.closes line then
      fence.chunk opening lines.flatten line :: ofLines (.prose []) rest
    else ofLines (.fence fence opening (lines ++ [line])) rest

def split (markdown : Text) : List Chunk :=
  ofLines (.prose []) (Text.fullLines markdown)

end Chunk

end DocComponents
