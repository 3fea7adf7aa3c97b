import DocComponents.Definition.Basic
import DocComponents.File.Path
import DocComponents.Log
import DocComponents.SortedMap

/-!
# Catalogs

A catalog maps names to the definitions that are invoked by them. It also remembers which definition
came from which file and when that file was changed, so that changes of the files can be followed.
Of several files that define a name, another one takes over when the file behind the name goes away:
the last one in path order.
-/

set_option autoImplicit false

namespace DocComponents

/-- The definitions by name, and the files they came from. -/
structure Catalog where
  /-- The folder whose files are loaded. -/
  root : Option Path := none
  definitions : SortedMap Text Definition := .empty
  /-- The definition that each file gave when it was last read. -/
  files : SortedMap Path Definition := .empty
  /-- The time of the change of each file that was last seen. -/
  times : SortedMap Path Int := .empty
  deriving DecidableEq

namespace Catalog

/-- A catalog after an operation, with the answer of the operation and what it logged. -/
structure Step (Result : Type) where
  catalog : Catalog
  result : Result
  log : List Log.Entry := []

def Step.map {Result Other : Type} (change : Result → Other) (step : Step Result) : Step Other :=
  { step with result := change step.result }

def entry (level : Log.Level) (event : Text) (fields : Log.Fields) : Log.Entry :=
  { level, event, fields := Log.withContext [("component".toList, .text "registry".toList)] fields }

def get? (catalog : Catalog) (name : Text) : Option Definition :=
  catalog.definitions.get? name

def names (catalog : Catalog) : List Text :=
  catalog.definitions.keys

structure NotFound where
  name : Text
  available : List Text
  deriving DecidableEq

def NotFound.message (fault : NotFound) : Text :=
  "Component ".toList ++ Text.quoted fault.name ++ " not found.".toList ++
    if fault.available.isEmpty then []
    else " Available components: ".toList ++ Text.join [',', ' '] fault.available

/-- A missing name, with the available names put in order. -/
def NotFound.ofNames (name : Text) (available : List Text) : NotFound :=
  { name, available := available.mergeSort fun left right => !before right left }

def require (catalog : Catalog) (name : Text) : Except NotFound Definition :=
  match catalog.get? name with
  | some definition => .ok definition
  | none => .error (.ofNames name catalog.names)

/-- The definition of a name in the last file, in path order, that defines it. -/
def lastClaim? (files : SortedMap Path Definition) (name : Text) : Option Definition :=
  (files.values.filter fun definition => definition.name = name).getLast?

/-- The catalog without what it knows of a file, except the time of its change, and the name that
the file defined. When the definition in use came from the file, another file takes over. -/
def forget (catalog : Catalog) (path : Path) : Catalog × Option Text :=
  match catalog.files.get? path with
  | none => (catalog, none)
  | some previous =>
    let files := catalog.files.erase path
    let inUse := (catalog.get? previous.name).any fun current => current.sourcePath = path.toText
    let definitions :=
      if inUse then
        match lastClaim? files previous.name with
        | some successor => catalog.definitions.insert previous.name successor
        | none => catalog.definitions.erase previous.name
      else catalog.definitions
    ({ catalog with files, definitions }, some previous.name)

/-- The catalog with a definition registered, in place of one of the same name. The path is that of
the file from which the definition came. -/
def register (catalog : Catalog) (definition : Definition) (path? : Option Path := none) :
    Step Definition :=
  let known :=
    match path? with
    | none => catalog
    | some path =>
      let forgotten := (catalog.forget path).1
      { forgotten with files := forgotten.files.insert path definition }
  let warning :=
    if definition.isInvocable then []
    else
      [entry .warning "component-not-invocable".toList
        [("name".toList, .text definition.name), ("source".toList, .text definition.sourcePath)]]
  let registered :=
    entry .debug "component-registered".toList
      [("name".toList, .text definition.name),
        ("replaced".toList, .bool (known.definitions.contains definition.name))]
  { catalog :=
      { known with definitions := known.definitions.insert definition.name definition }
    result := definition
    log := warning ++ [registered] }

/-- The catalog without a name and without the files that define it. -/
def unregister (catalog : Catalog) (name : Text) : Step Bool :=
  let claims (path : Path) : Bool :=
    (catalog.files.get? path).any fun definition => definition.name = name
  { catalog :=
      { catalog with
        definitions := catalog.definitions.erase name
        files := catalog.files.filter fun path _ => !claims path
        times := catalog.times.filter fun path _ => !claims path }
    result := catalog.definitions.contains name }

/-- The catalog without definitions and files. The root stays. -/
def clear (catalog : Catalog) : Catalog :=
  { root := catalog.root }

end Catalog

end DocComponents
