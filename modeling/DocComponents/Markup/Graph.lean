import DocComponents.Markup.Element

/-!
# Element graphs

Elements that are known by their numbers, so that one element can be changed wherever it is attached
and can be attached in several places. Reading a graph from an element down gives a tree; the number
of elements bounds its depth, as long as no element is attached below itself.
-/

set_option autoImplicit false

namespace DocComponents

/-- A child in a graph: the number of an element, markup, or plain text. -/
inductive Link where
  | element (number : Nat)
  | markup (html : Text)
  | text (content : Text)
  deriving DecidableEq

/-- Elements by number. The root has the number zero. -/
structure ElementGraph where
  elements : List (Element Link)
  deriving DecidableEq

namespace ElementGraph

def ofRoot (root : Element Link) : ElementGraph := ⟨[root]⟩

def get (graph : ElementGraph) (number : Nat) : Element Link :=
  (graph.elements[number]?).getD {}

def modify (graph : ElementGraph) (number : Nat) (change : Element Link → Element Link) :
    ElementGraph :=
  ⟨graph.elements.modify number change⟩

/-- The graph with a new element attached to another one, and the number of the new element. -/
def attachNew (graph : ElementGraph) (parent : Nat) (child : Element Link) : ElementGraph × Nat :=
  let number := graph.elements.length
  (⟨(graph.modify parent (·.append (.element number))).elements ++ [child]⟩, number)

mutual

/-- The tree below an element, down to a depth. -/
def nodeTo (graph : ElementGraph) : (depth number : Nat) → Node
  | 0, _ => .text []
  | depth + 1, number =>
    let element := graph.get number
    .element element.tag element.attributes element.classes
      (nodesTo graph depth element.children)

def nodesTo (graph : ElementGraph) (depth : Nat) : List Link → List Node
  | [] => []
  | .element number :: rest => nodeTo graph depth number :: nodesTo graph depth rest
  | .markup html :: rest => .markup html :: nodesTo graph depth rest
  | .text content :: rest => .text content :: nodesTo graph depth rest

end

def tree (graph : ElementGraph) (number : Nat) : Element Node :=
  let element := graph.get number
  { tag := element.tag
    attributes := element.attributes
    classes := element.classes
    children := nodesTo graph graph.elements.length element.children }

/-- The numbers of an element and of the elements below it, depth first, down to a depth. -/
def numbersTo (graph : ElementGraph) : (depth number : Nat) → List Nat
  | 0, _ => []
  | depth + 1, number =>
    number :: (graph.get number).children.flatMap fun
      | .element child => numbersTo graph depth child
      | _ => []

def numbers (graph : ElementGraph) (number : Nat) : List Nat :=
  graph.numbersTo (graph.elements.length + 1) number

/-- The first of an element and the elements below it that carries a class. -/
def findClass? (graph : ElementGraph) (number : Nat) (name : Text) : Option Nat :=
  (graph.numbers number).find? fun found => (graph.get found).hasClass name

end ElementGraph

end DocComponents
