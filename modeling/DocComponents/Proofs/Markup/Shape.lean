import DocComponents.Proofs.Markup.Delimiters

/-!
# Trees of one shape

Two trees have one shape when they differ in their plain texts, in the values of their attributes
and in the names of their classes only. All of these strings are escaped where they are written, so
trees of one shape are written with the same delimiters: no string opens or closes a tag or the
value of an attribute.
-/

set_option autoImplicit false

namespace DocComponents

mutual

/-- Two nodes that differ in strings only: elements of one tag with the same attributes in the same
order, both with or both without classes, and children of one shape; the same markup; or texts. -/
inductive Node.SameShape : Node → Node → Prop where
  | element {tag : Text} {attributes otherAttributes : Props} {classes otherClasses : List Text}
      {children otherChildren : List Node}
      (named : attributes.pairs.map Prod.fst = otherAttributes.pairs.map Prod.fst)
      (classed : classes = [] ↔ otherClasses = [])
      (inside : Node.SameShapes children otherChildren) :
      Node.SameShape (.element tag attributes classes children)
        (.element tag otherAttributes otherClasses otherChildren)
  | markup (html : Text) : Node.SameShape (.markup html) (.markup html)
  | text (content other : Text) : Node.SameShape (.text content) (.text other)

/-- Lists of nodes that have one shape node by node. -/
inductive Node.SameShapes : List Node → List Node → Prop where
  | nil : Node.SameShapes [] []
  | cons {node other : Node} {rest others : List Node} (first : Node.SameShape node other)
      (later : Node.SameShapes rest others) : Node.SameShapes (node :: rest) (other :: others)

end

/-- Of an attribute the name alone can bring in delimiters beside the two quotes. -/
theorem delimiters_writeAttribute (name value : Text) :
    Markup.delimiters (writeAttribute name value) = Markup.delimiters name ++ ['"', '"'] := by
  have shape : writeAttribute name value =
      [' '] ++ name ++ ['=', '"'] ++ Markup.escape value ++ ['"'] := by
    simp [writeAttribute]
  have space : Markup.delimiters [' '] = [] := by decide
  have opening : Markup.delimiters ['=', '"'] = ['"'] := by decide
  have closing : Markup.delimiters ['"'] = ['"'] := by decide
  rw [shape]
  simp only [Markup.delimiters_append, Markup.delimiters_escape, space, opening, closing,
    List.nil_append, List.append_assoc]
  rfl

/-- The delimiters of an opening tag depend on the tag, on the names of its attributes and on
whether it has classes. -/
theorem delimiters_openingTag (tag : Text) (attributes : Props) (classes : List Text) :
    Markup.delimiters (openingTag tag attributes classes) =
      '<' :: Markup.delimiters tag ++ (if classes = [] then [] else ['"', '"']) ++
        ((attributes.pairs.map Prod.fst).flatMap fun name =>
          Markup.delimiters name ++ ['"', '"']) ++ ['>'] := by
  have opening : Markup.delimiters ['<'] = ['<'] := by decide
  have closing : Markup.delimiters ['>'] = ['>'] := by decide
  have classNames : Markup.delimiters
      (if classes.isEmpty then [] else writeAttribute "class".toList (Text.join [' '] classes)) =
        if classes = [] then [] else ['"', '"'] := by
    have name : Markup.delimiters "class".toList = [] := by decide
    cases classes with
    | nil => rfl
    | cons first others =>
        rw [List.isEmpty_cons, if_neg Bool.false_ne_true, if_neg (List.cons_ne_nil first others),
          delimiters_writeAttribute, name, List.nil_append]
  have values : Markup.delimiters
      (attributes.pairs.flatMap fun pair => writeAttribute pair.1 pair.2) =
        (attributes.pairs.map Prod.fst).flatMap fun name =>
          Markup.delimiters name ++ ['"', '"'] := by
    rw [Markup.delimiters, List.filter_flatMap, List.flatMap_map]
    exact List.flatMap_congr fun pair _ => delimiters_writeAttribute pair.1 pair.2
  have shape : openingTag tag attributes classes =
      ['<'] ++ tag ++
        (if classes.isEmpty then [] else writeAttribute "class".toList (Text.join [' '] classes)) ++
        (attributes.pairs.flatMap fun pair => writeAttribute pair.1 pair.2) ++ ['>'] := rfl
  rw [shape]
  simp only [Markup.delimiters_append, opening, closing, classNames, values]
  rfl

mutual

theorem Node.SameShape.delimiters_html {node other : Node} (same : node.SameShape other) :
    Markup.delimiters node.html = Markup.delimiters other.html := by
  cases same with
  | @element tag attributes otherAttributes classes otherClasses _ _ named classed inside =>
      have opening : Markup.delimiters (openingTag tag attributes classes) =
          Markup.delimiters (openingTag tag otherAttributes otherClasses) := by
        rw [delimiters_openingTag, delimiters_openingTag, named]
        simp only [classed]
      unfold Node.html
      split
      · exact opening
      · simp only [Markup.delimiters_append, opening, inside.delimiters_htmlAll]
  | markup html => rfl
  | text content otherContent => simp [Node.html]

theorem Node.SameShapes.delimiters_htmlAll {nodes others : List Node}
    (same : Node.SameShapes nodes others) :
    Markup.delimiters (Node.htmlAll nodes) = Markup.delimiters (Node.htmlAll others) := by
  cases same with
  | nil => rfl
  | cons first later =>
      simp only [Node.htmlAll, Markup.delimiters_append, first.delimiters_html,
        later.delimiters_htmlAll]

end

/-- Elements of one shape are written with the same delimiters, whatever texts, attribute values and
class names they hold. -/
theorem strings_keep_tree_structure {element other : Element Node}
    (same : element.toNode.SameShape other.toNode) :
    Markup.delimiters element.html = Markup.delimiters other.html :=
  same.delimiters_html

/-- A text, an attribute and a class that try to close what they stand in, beside harmless ones. -/
theorem strings_keep_tree_structure_intruding :
    let element : Element Node :=
      { tag := "div".toList
        attributes := Props.empty.put "title".toList "\"><script>".toList
        classes := ["a\"b".toList]
        children := [.text "</div><p>".toList, .markup "<hr>".toList,
          .element "br".toList (Props.empty.put "id".toList "<".toList) [] [.text ">".toList]] }
    let other : Element Node :=
      { tag := "div".toList
        attributes := Props.empty.put "title".toList "plain".toList
        classes := ["a".toList, "b".toList]
        children := [.text "text".toList, .markup "<hr>".toList,
          .element "br".toList (Props.empty.put "id".toList []) [] [.text []]] }
    element.toNode.SameShape other.toNode ∧
      Markup.delimiters element.html = Markup.delimiters other.html := by
  intro element other
  have lineBreak : Node.SameShape
      (.element "br".toList (Props.empty.put "id".toList "<".toList) [] [.text ">".toList])
      (.element "br".toList (Props.empty.put "id".toList []) [] [.text []]) :=
    .element rfl Iff.rfl (.cons (.text _ _) .nil)
  have same : element.toNode.SameShape other.toNode :=
    .element rfl (by simp [element, other])
      (.cons (.text _ _) (.cons (.markup _) (.cons lineBreak .nil)))
  exact ⟨same, strings_keep_tree_structure same⟩

end DocComponents
