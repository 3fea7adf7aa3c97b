import DocComponents.Data.Table
import DocComponents.File.Path
import DocComponents.Render.Options
import DocComponents.Script.Runtime

/-!
# Component settings

The settings say where definitions are found and how components are rendered. They are read from a
table of data: every field is checked by itself, and all faults are told in the order of the fields.
A field that is not given has its default, and a field that is not known is passed over.
-/

set_option autoImplicit false

namespace DocComponents

structure Settings where
  folder : Text := "components".toList
  liveReload : Bool := true
  enableScripts : Bool := true
  debugMode : Bool := false
  displayMode : DisplayMode := .inline
  scriptRuntime : Text := "python".toList
  deriving DecidableEq, Repr

inductive FieldFault where
  | notText
  | notPath
  | notBool
  /-- A text or an integer that stands for no truth value. -/
  | unreadableBool
  | notDisplayMode
  | notSettings
  | unknownRuntime
  /-- A home folder whose user is named with a null character. -/
  | nullByte
  | noSuchField (name : Text)
  /-- Assigning a field of settings, which never change. -/
  | frozen
  deriving DecidableEq, Repr

def FieldFault.code : FieldFault → Text
  | .notText => "string_type".toList
  | .notPath => "path_type".toList
  | .notBool => "bool_type".toList
  | .unreadableBool => "bool_parsing".toList
  | .notDisplayMode => "enum".toList
  | .notSettings => "model_type".toList
  | .unknownRuntime => "value_error".toList
  | .nullByte => "value_error".toList
  | .noSuchField _ => "no_such_attribute".toList
  | .frozen => "frozen_instance".toList

def FieldFault.message : FieldFault → Text
  | .notText => "Input should be a valid string".toList
  | .notPath => "Input is not a valid path for <class 'pathlib.Path'>".toList
  | .notBool => "Input should be a valid boolean".toList
  | .unreadableBool => "Input should be a valid boolean, unable to interpret input".toList
  | .notDisplayMode => "Input should be 'inline' or 'block'".toList
  | .notSettings => "Input should be a valid dictionary or instance of ComponentSettings".toList
  | .unknownRuntime => "Value error, script_runtime must be one of: python, embed.".toList
  | .nullByte => "Value error, ".toList ++ Path.nullByteMessage
  | .noSuchField name => "Object has no attribute '".toList ++ name ++ "'".toList
  | .frozen => "Instance is frozen".toList

structure FaultAt where
  location : List Text
  fault : FieldFault
  deriving DecidableEq, Repr

namespace Field

def text : Data → Except FieldFault Text
  | .text value => .ok (Text.trimBoth Text.isSpace value)
  | _ => .error .notText

/-- The texts that stand for false, in small letters. The case of a value does not matter. -/
def falseTexts : List Text :=
  ["0".toList, "off".toList, "f".toList, "false".toList, "n".toList, "no".toList]

def trueTexts : List Text :=
  ["1".toList, "on".toList, "t".toList, "true".toList, "y".toList, "yes".toList]

/-- A whole number as a truth value. Beyond 64 bits a number is not read at all. -/
def boolOfInteger (value : Int) : Except FieldFault Bool :=
  if value = 0 then .ok false
  else if value = 1 then .ok true
  else if -0x8000000000000000 ≤ value && value < 0x8000000000000000 then .error .unreadableBool
  else .error .notBool

/-- A double as a truth value. Only a whole number is read, and only inside 64 bits. -/
def boolOfDouble (value : Double) : Except FieldFault Bool :=
  match value.integer? with
  | some whole => if whole.natAbs < 0x8000000000000000 then boolOfInteger whole else .error .notBool
  | none => .error .notBool

/-- A truth value, given as such, as a number or as a text. -/
def bool : Data → Except FieldFault Bool
  | .bool value => .ok value
  | .integer value => boolOfInteger value
  | .double value => boolOfDouble value
  | .text value =>
    if falseTexts.contains (Text.lower value) then .ok false
    else if trueTexts.contains (Text.lower value) then .ok true
    else .error .unreadableBool
  | _ => .error .notBool

def displayMode : Data → Except FieldFault DisplayMode
  | .text value =>
    match DisplayMode.ofName? value with
    | some mode => .ok mode
    | none => .error .notDisplayMode
  | _ => .error .notDisplayMode

/-- The folder of definitions. An empty text means the default. -/
def folder (value : Data) : Except FieldFault Text :=
  match text value with
  | .ok [] => .ok ({} : Settings).folder
  | other => other

def scriptRuntime (value : Data) : Except FieldFault Text :=
  match text value with
  | .error fault => .error fault
  | .ok name =>
    match ScriptRuntime.ofName name with
    | .ok runtime => .ok runtime.name
    | .error _ => .error .unknownRuntime

/-- A field of a table with its default, or the fault at its name. -/
def read {α : Type} (entries : Table) (name : Text) (default : α)
    (check : Data → Except FieldFault α) : Except FaultAt α :=
  match entries.lookup name with
  | none => .ok default
  | some value =>
    match check value with
    | .ok checked => .ok checked
    | .error fault => .error ⟨[name], fault⟩

def fault? {α : Type} : Except FaultAt α → List FaultAt
  | .ok _ => []
  | .error fault => [fault]

end Field

namespace Settings

def ofEntries (entries : Table) : Except (List FaultAt) Settings :=
  let folder := Field.read entries "folder".toList ({} : Settings).folder Field.folder
  let liveReload := Field.read entries "live_reload".toList true Field.bool
  let enableScripts := Field.read entries "enable_scripts".toList true Field.bool
  let debugMode := Field.read entries "debug_mode".toList false Field.bool
  let displayMode := Field.read entries "display_mode".toList .inline Field.displayMode
  let scriptRuntime :=
    Field.read entries "script_runtime".toList ({} : Settings).scriptRuntime Field.scriptRuntime
  match folder, liveReload, enableScripts, debugMode, displayMode, scriptRuntime with
  | .ok folder, .ok liveReload, .ok enableScripts, .ok debugMode, .ok displayMode,
      .ok scriptRuntime =>
    .ok { folder, liveReload, enableScripts, debugMode, displayMode, scriptRuntime }
  | _, _, _, _, _, _ =>
    .error
      (Field.fault? folder ++ Field.fault? liveReload ++ Field.fault? enableScripts ++
        Field.fault? debugMode ++ Field.fault? displayMode ++ Field.fault? scriptRuntime)

def ofData (value : Data) : Except (List FaultAt) Settings :=
  match value.entries? with
  | some entries => ofEntries entries
  | none => .error [⟨[], .notSettings⟩]

/-- The options of a rendering under settings, with another display mode if one is named. An empty
name names none. -/
def options (settings : Settings) (mode? : Option Text := none) :
    Except DisplayMode.Unknown RenderOptions :=
  match mode? with
  | none | some [] =>
    .ok { enableScripts := settings.enableScripts, displayMode := settings.displayMode }
  | some name =>
    match DisplayMode.ofName name with
    | .ok mode => .ok { enableScripts := settings.enableScripts, displayMode := mode }
    | .error fault => .error fault

end Settings

end DocComponents
