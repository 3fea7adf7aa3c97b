import DocComponents.SortedMap

/-!
# Paths

A path is the list of its parts; the first part of an absolute path is its root, one slash or
exactly two. Reading a path drops empty parts and single dots, and keeps double dots. Paths are
ordered part by part.
-/

set_option autoImplicit false

namespace DocComponents

/-- A path as the list of its parts. -/
abbrev Path := List Text

namespace Path

def isRoot (part : Text) : Bool :=
  part == ['/'] || part == ['/', '/']

def rootOf : Text → Path
  | '/' :: '/' :: '/' :: _ => [['/']]
  | '/' :: '/' :: _ => [['/', '/']]
  | '/' :: _ => [['/']]
  | _ => []

def ofText (text : Text) : Path :=
  rootOf text ++ (Text.cutAt (· == '/') text).filter fun part => !part.isEmpty && part != ['.']

/-- A path as text. The empty path is a single dot. -/
def toText (path : Path) : Text :=
  match path with
  | [] => ['.']
  | part :: rest => if isRoot part then part ++ Text.join ['/'] rest else Text.join ['/'] path

def isAbsolute (path : Path) : Bool :=
  path.head?.any isRoot

/-- Whether a path can be one of a file system, where a null character ends a name. -/
def isValid (path : Path) : Bool :=
  !path.any fun part => part.contains '\x00'

/-- A path seen from another one. An absolute path stands for itself. -/
def under (base path : Path) : Path :=
  if path.isAbsolute then path else base ++ path

/-- The last part of a path. A root is no name. -/
def name (path : Path) : Text :=
  match path.getLast? with
  | some part => if isRoot part then [] else part
  | none => []

/-- The name of a path cut at its last dot, when there is something on both sides of the dot. -/
def stemAndSuffix (path : Path) : Text × Text :=
  let name := path.name
  let suffix := (name.reverse.takeWhile (· != '.')).reverse
  let stem := name.take (name.length - suffix.length - 1)
  if name.contains '.' && !suffix.isEmpty && !stem.isEmpty then (stem, '.' :: suffix)
  else (name, [])

/-- A path whose suffix is that of markdown files, in letters of either case. -/
def isMarkdown (path : Path) : Bool :=
  Text.lower path.stemAndSuffix.2 == ".md".toList

/-- The path without its last part. A root has no part to lose. -/
def parent (path : Path) : Path :=
  match path.getLast? with
  | some part => if isRoot part then path else path.dropLast
  | none => []

def up : Text := ['.', '.']

/-- Parts behind others, where going up takes away the last part so far, if there is one. -/
def settle : (settled parts : List Text) → List Text
  | settled, [] => settled
  | settled, part :: rest =>
    if part = up then settle settled.dropLast rest else settle (settled ++ [part]) rest

/-- An absolute path from a single slash on, without parts that lead up. -/
def normal (path : Path) : Path :=
  ['/'] :: settle [] path.tail

inductive HomeFault where
  /-- Nobody of that name is known, or the home folder refers to a home folder itself. -/
  | unknown
  | nullByte
  deriving DecidableEq, Repr

def nullByteMessage : Text := "embedded null byte".toList

def HomeFault.message : HomeFault → Text
  | .unknown => "Could not determine home directory.".toList
  | .nullByte => nullByteMessage

/-- The home folder of a user, as it is written. The own one, which has no name, is given; of all
others that of the administrator alone is known. -/
def homeOf (own user : Text) : Except HomeFault Text :=
  if user.contains '\x00' then .error .nullByte
  else if user.isEmpty then .ok (Text.trimEnd (· == '/') own)
  else if user = "root".toList then .ok "/root".toList
  else .error .unknown

/-- The path with a leading tilde, behind which a user may be named, replaced by a home folder. The
path of the own home folder is given as text. -/
def expandHome (own : Text) (path : Path) : Except HomeFault Path :=
  match path with
  | ('~' :: user) :: rest =>
    match homeOf own user with
    | .error fault => .error fault
    | .ok ('~' :: _) => .error .unknown
    | .ok [] => .ok (['/'] :: rest)
    | .ok home => .ok (ofText home ++ rest)
  | _ => .ok path

end Path

end DocComponents
