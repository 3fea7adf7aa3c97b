import DocComponents.Markup.Escape
import DocComponents.Props

/-!
# Elements

An element has a tag, attributes, classes and children. A child is an element, trusted markup that
is written as it is, or plain text that is escaped when it is written. The kind of children is a
parameter, so that a tree and a graph of elements share their operations.
-/

set_option autoImplicit false

namespace DocComponents

structure Element (Child : Type) where
  tag : Text := "div".toList
  attributes : Props := .empty
  classes : List Text := []
  children : List Child := []
  deriving DecidableEq

inductive Node where
  | element (tag : Text) (attributes : Props) (classes : List Text) (children : List Node)
  | markup (html : Text)
  | text (content : Text)

namespace Element

variable {Child : Type}

/-- The element with an attribute set. Setting `class` replaces the classes. -/
def setAttribute (element : Element Child) (name value : Text) : Element Child :=
  if name = "class".toList then { element with classes := Text.words value }
  else { element with attributes := element.attributes.put name value }

/-- The value of an attribute. The classes are the value of `class`, unless there are none. -/
def attribute? (element : Element Child) (name : Text) : Option Text :=
  if name = "class".toList then
    if element.classes.isEmpty then none else some (Text.join [' '] element.classes)
  else element.attributes.get? name

/-- The classes with one more, unless it is empty or there already. -/
def withClass (classes : List Text) (name : Text) : List Text :=
  if name.isEmpty || classes.contains name then classes else classes ++ [name]

def addClasses (element : Element Child) (names : List Text) : Element Child :=
  { element with classes := names.foldl withClass element.classes }

def hasClass (element : Element Child) (name : Text) : Bool :=
  element.classes.contains name

def append (element : Element Child) (child : Child) : Element Child :=
  { element with children := element.children ++ [child] }

def clear (element : Element Child) : Element Child :=
  { element with children := [] }

def ofTag (tag : Text) (classes : Text := []) : Element Child :=
  addClasses { tag } (Text.words classes)

def toNode (element : Element Node) : Node :=
  .element element.tag element.attributes element.classes element.children

end Element

/-- The tags of elements that are written without children and without a closing tag. -/
def voidTags : List Text :=
  ["area".toList, "br".toList, "col".toList, "hr".toList, "img".toList, "input".toList,
    "link".toList, "meta".toList, "source".toList, "wbr".toList]

/-- An attribute as it is written: its name as it is, its value escaped. -/
def writeAttribute (name value : Text) : Text :=
  ' ' :: name ++ '=' :: '"' :: Markup.escape value ++ ['"']

/-- The opening tag of an element, with its classes first. -/
def openingTag (tag : Text) (attributes : Props) (classes : List Text) : Text :=
  '<' :: tag ++
    (if classes.isEmpty then [] else writeAttribute "class".toList (Text.join [' '] classes)) ++
    (attributes.pairs.flatMap fun pair => writeAttribute pair.1 pair.2) ++ ['>']

def closingTag (tag : Text) : Text :=
  '<' :: '/' :: tag ++ ['>']

mutual

def Node.html : Node → Text
  | .element tag attributes classes children =>
    if voidTags.contains tag then openingTag tag attributes classes
    else openingTag tag attributes classes ++ Node.htmlAll children ++ closingTag tag
  | .markup html => html
  | .text content => Markup.escape content

def Node.htmlAll : List Node → Text
  | [] => []
  | node :: rest => node.html ++ Node.htmlAll rest

end

namespace Element

def innerHtml (element : Element Node) : Text :=
  Node.htmlAll element.children

def html (element : Element Node) : Text :=
  element.toNode.html

end Element

end DocComponents
