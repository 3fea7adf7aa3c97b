import DocComponents.Config.Document
import DocComponents.File.Disk

/-!
# The layout of a workspace

A workspace is a folder with the configuration document, the packaged defaults for comparison, the
log files and the archives of earlier contents. Where it lies is told by the caller, or else by the
environment, or else it lies in the home folder.
-/

set_option autoImplicit false

namespace DocComponents

structure Layout where
  workspace : Path
  deriving DecidableEq, Repr

namespace Layout

def logsName : Text := "logs".toList

def archivesName : Text := "archives".toList

def document (layout : Layout) : Path :=
  layout.workspace ++ [Config.documentName]

def defaults (layout : Layout) : Path :=
  layout.workspace ++ [Resource.defaultsName]

def logs (layout : Layout) : Path :=
  layout.workspace ++ [logsName]

def archives (layout : Layout) : Path :=
  layout.workspace ++ [archivesName]

def all (layout : Layout) : List Path :=
  [layout.workspace, layout.document, layout.logs, layout.archives]

/-- A layer that also says where the workspace is. -/
def withWorkspace (layout : Layout) (layer : Table) : Table :=
  Table.set Config.workspaceField (.text layout.workspace.toText) layer

/-- A folder of definitions, which is seen from the workspace unless it is absolute. -/
def componentsFolder (home : Text) (layout : Layout) (folder : Path) : Except Path.HomeFault Path :=
  (Path.expandHome home folder).map layout.workspace.under

inductive Fault where
  | home (fault : Path.HomeFault)
  /-- There is a file where the workspace should be. -/
  | isFile (workspace : Path)
  /-- There can be nothing at the path of the workspace. -/
  | file (fault : PathFault)
  deriving DecidableEq, Repr

def Fault.message : Fault → Text
  | .home fault => fault.message
  | .isFile workspace => "Workspace file path not allowed: ".toList ++ workspace.toText
  | .file fault => fault.message

/-- The layout of a workspace that is given by a caller or by the environment. Its path is made
absolute and straight. -/
def resolve (home : Text) (disk : Disk) (given? environment? : Option Path) :
    Except Fault Layout := do
  let chosen := (given?.or environment?).getD Config.defaultWorkspace
  let path ← (chosen.expandHome home).mapError .home
  let workspace ← (disk.resolve path).mapError .file
  match disk.isFile workspace with
  | .error fault => throw (.file { fault, path := workspace })
  | .ok true => throw (.isFile workspace)
  | .ok false => return { workspace }

end Layout

end DocComponents
