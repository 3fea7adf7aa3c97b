import DocComponents.Workspace.Layout

/-!
# Loading the configuration of a workspace

The configuration document of a workspace is one layer among the packaged defaults, the environment
and the command line. Whatever the layers say, the workspace is the one at hand, so that a document
can be moved along with its workspace.
-/

set_option autoImplicit false

namespace DocComponents.Layout

inductive LoadFault where
  /-- It cannot be told whether the document is there. -/
  | hidden (fault : PathFault)
  /-- The document is there and cannot be read as a file. -/
  | unreadable (document : Path) (fault : FileFault)
  | notToml (document : Path)
  | invalid (document : Path) (faults : List FaultAt)
  | encoding (fault : Utf8.Fault)
  | home (fault : Path.HomeFault)
  deriving DecidableEq, Repr

def LoadFault.message : LoadFault → Text
  | .hidden fault => fault.message
  | .unreadable document fault =>
    "Could not read ".toList ++ document.toText ++ ": ".toList ++ fault.message
  | .notToml document => "Could not read ".toList ++ document.toText ++ ": invalid TOML".toList
  | .invalid document faults =>
    "Invalid configuration in ".toList ++ document.toText ++ ": ".toList ++
      (ConfigFault.invalid faults).message
  | .encoding fault => fault.message
  | .home fault => fault.message

/-- The layer of the configuration document. A document that is not there gives an empty one. -/
def documentLayer (layout : Layout) (disk : Disk) : Except LoadFault Table :=
  match disk.pathExists layout.document with
  | .error fault => .error (.hidden { fault, path := layout.document })
  | .ok false => .ok []
  | .ok true =>
    match disk.readText layout.document with
    | .error (.file fault) => .error (.unreadable layout.document fault)
    | .error (.encoding fault) => .error (.encoding fault)
    | .ok text =>
      match Toml.read text with
      | some table => .ok table
      | none => .error (.notToml layout.document)

/-- The configuration of a workspace, with the layers of the environment and of the command line. -/
def loadConfig (home : Text) (layout : Layout) (disk : Disk) (environment commandLine : Table) :
    Except LoadFault Config := do
  let document ← layout.documentLayer disk
  (Config.ofLayers home
    [Config.defaultsLayer, document, environment, layout.withWorkspace commandLine]).mapError
    fun
    | .invalid faults => .invalid layout.document faults
    | .home fault => .home fault

end DocComponents.Layout
