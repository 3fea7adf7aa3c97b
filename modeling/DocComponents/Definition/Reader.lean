import DocComponents.Definition.Basic
import DocComponents.Definition.FrontMatter
import DocComponents.Definition.TagBlock

/-!
# Reading component documents

A document is a definition when it has front matter and when something is left of its body once the
style and script blocks are taken out. Reading never fails otherwise: what the front matter does
not say is empty, and a missing name is taken from the path.
-/

set_option autoImplicit false

namespace DocComponents

/-- The text without a markdown suffix, in letters of either case, at its end or before the line
feed at its end. -/
def dropMarkdownSuffix (text : Text) : Text :=
  let withoutSuffix? (shown : Text) : Option Text :=
    if Text.endsWith (Text.lower shown) ['.', 'm', 'd'] then some (shown.take (shown.length - 3))
    else none
  match withoutSuffix? text with
  | some stem => stem
  | none =>
    if text.getLast? = some '\n' then
      match withoutSuffix? text.dropLast with
      | some stem => stem ++ ['\n']
      | none => text
    else text

/-- The last segment of a path, whatever slash separates its segments, without a markdown suffix. -/
def baseName (path : Text) : Text :=
  dropMarkdownSuffix
    ((Text.cutAt (fun char => char == '/' || char == '\\') path).getLast?.getD [])

namespace Definition

def read? (content path : Text) : Option Definition :=
  match FrontMatter.split? content with
  | none => none
  | some (front, body) =>
    let (styles, withoutStyles) := Tag.style.extract body
    let (script, withoutBlocks) := Tag.script.extract withoutStyles
    let template := Text.trim withoutBlocks
    if template.isEmpty then none
    else
      let declared := FrontMatter.scalar front "name".toList
      some
        { name := if declared.isEmpty then baseName path else declared
          template
          description := FrontMatter.scalar front "description".toList
          props := FrontMatter.map front "props".toList
          styles
          script
          sourcePath := path }

end Definition

end DocComponents
