import DocComponents.Config.Settings
import DocComponents.Text.Capital

/-!
# Configuration

A configuration names the workspace, the least level of logged entries and the settings of the
components. It is read from a table, field by field, and it stays valid: an assignment checks the
new value like a reading does, and a refused value changes nothing.
-/

set_option autoImplicit false

namespace DocComponents

structure Config where
  workspace : Path
  logLevel : Text
  components : Settings
  deriving DecidableEq, Repr

inductive ConfigFault where
  | invalid (faults : List FaultAt)
  /-- The workspace is given from a home folder that cannot be told. -/
  | home (fault : Path.HomeFault)
  deriving DecidableEq, Repr

def FaultAt.describe (fault : FaultAt) : Text :=
  '\n' :: Text.join ['.'] fault.location ++ "\n  ".toList ++ fault.fault.message ++
    " [type=".toList ++ fault.fault.code ++ [']']

def ConfigFault.message : ConfigFault → Text
  | .invalid faults =>
    Text.ofNat faults.length ++
      (if faults.length = 1 then " validation error for AppConfig".toList
      else " validation errors for AppConfig".toList) ++
      faults.flatMap FaultAt.describe
  | .home fault => fault.message

namespace Field

/-- A path, written without white space around it. -/
def path : Data → Except FieldFault Path
  | .text value => .ok (Path.ofText (Text.trimBoth Text.isSpace value))
  | _ => .error .notPath

/-- A path that may refer to a home folder. A home folder that cannot be told is more than a fault
of the field. -/
def homePath (home : Text) (value : Data) : Except Path.HomeFault (Except FieldFault Path) :=
  match path value with
  | .error fault => .ok (.error fault)
  | .ok path =>
    match path.expandHome home with
    | .ok expanded => .ok (.ok expanded)
    | .error .nullByte => .ok (.error .nullByte)
    | .error .unknown => .error .unknown

def logLevel (value : Data) : Except FieldFault Text :=
  (text value).map Text.capitals

/-- Settings inside a table, whose faults are found below a name. -/
def settings (name : Text) (value : Data) : Except (List FaultAt) Settings :=
  (Settings.ofData value).mapError fun faults =>
    faults.map fun fault => { fault with location := name :: fault.location }

end Field

namespace Config

def defaultFolder : Text := ".mdcomponents".toList

def defaultLevel : Text := "INFO".toList

def workspaceField : Text := "workspace".toList

def logLevelField : Text := "log_level".toList

def componentsField : Text := "components".toList

def defaultWorkspace : Path := [['~'], defaultFolder]

def readWorkspace (home : Text) (table : Table) : Except Path.HomeFault (Except FaultAt Path) :=
  match table.lookup workspaceField with
  | none => (defaultWorkspace.expandHome home).map .ok
  | some value =>
    (Field.homePath home value).map fun checked =>
      checked.mapError fun fault => ⟨[workspaceField], fault⟩

def readComponents (table : Table) : Except (List FaultAt) Settings :=
  match table.lookup componentsField with
  | none => .ok {}
  | some value => Field.settings componentsField value

/-- The configuration that a table gives. All faults of fields are told together; a home folder that
cannot be told comes before them. -/
def ofTable (home : Text) (table : Table) : Except ConfigFault Config :=
  match readWorkspace home table with
  | .error fault => .error (.home fault)
  | .ok workspace =>
    let logLevel := Field.read table logLevelField defaultLevel Field.logLevel
    let components := readComponents table
    match workspace, logLevel, components with
    | .ok workspace, .ok logLevel, .ok components => .ok { workspace, logLevel, components }
    | _, _, _ =>
      .error (.invalid (Field.fault? workspace ++ Field.fault? logLevel ++
        match components with
        | .ok _ => []
        | .error faults => faults))

def ofLayers (home : Text) (layers : List Table) : Except ConfigFault Config :=
  ofTable home (Table.merge layers)

inductive Target where
  | config
  | components
  deriving DecidableEq, Repr

/-- A configuration with a field assigned. Only the fields of the configuration itself can be
assigned; its settings are replaced as a whole. -/
def assign (home : Text) (config : Config) (target : Target) (field : Text) (value : Data) :
    Except ConfigFault Config :=
  let refuse (fault : FieldFault) : Except ConfigFault Config :=
    .error (.invalid [⟨[field], fault⟩])
  match target with
  | .components => refuse .frozen
  | .config =>
    if field = workspaceField then
      match Field.homePath home value with
      | .error fault => .error (.home fault)
      | .ok (.error fault) => refuse fault
      | .ok (.ok workspace) => .ok { config with workspace }
    else if field = logLevelField then
      match Field.logLevel value with
      | .ok logLevel => .ok { config with logLevel }
      | .error fault => refuse fault
    else if field = componentsField then
      match Field.settings field value with
      | .ok components => .ok { config with components }
      | .error faults => .error (.invalid faults)
    else refuse (.noSuchField field)

def componentsFolder (home : Text) (config : Config) (workspace : Path) :
    Except Path.HomeFault Path :=
  (Path.expandHome home (Path.ofText config.components.folder)).map workspace.under

end Config

end DocComponents
