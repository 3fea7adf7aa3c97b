import DocComponents.File.Action
import DocComponents.Workspace.Archiving

/-!
# Making a workspace

A workspace is made by writing what is missing: the folders, the packaged defaults, a configuration
document, and a folder of definitions that receives the example components when it is new. What is
there already stays as it is, unless the workspace is to be made anew: then its contents are
archived first. The configuration that is written comes from the defaults, the environment and the
command line alone.
-/

set_option autoImplicit false

namespace DocComponents.Layout

structure Initial where
  config : Config
  componentsFolder : Path
  /-- The example components that were written. -/
  seeded : List Path
  /-- The archive of the earlier contents. -/
  archive? : Option Path
  deriving DecidableEq

inductive InitialFault where
  | layout (fault : Layout.Fault)
  | archive (fault : ArchiveFault)
  | config (fault : ConfigFault)
  | file (fault : PathFault)
  deriving DecidableEq, Repr

def InitialFault.message : InitialFault → Text
  | .layout fault => fault.message
  | .archive fault => fault.message
  | .config fault => fault.message
  | .file fault => fault.message

structure InitialOptions where
  /-- Archive what is there and make the workspace anew. -/
  renew : Bool := false
  logLevel? : Option Text := none
  environment : Table := []
  /-- Write the example components into a new folder of definitions. -/
  seedExamples : Bool := true

/-- Makes a folder and writes the example components that are missing in it. -/
def seed (folder : Path) : DiskAction PathFault (List Path) := do
  DiskAction.makeFolders folder
  DiskAction.writeMissing folder Resource.examples

def makeFolders (layout : Layout) : DiskAction PathFault Unit := do
  DiskAction.makeFolders layout.workspace
  DiskAction.makeFolders layout.logs
  DiskAction.makeFolders layout.archives

/-- Writes a text to a path, if the path is to be renewed or nothing stands there. -/
def writeDocument (path : Path) (text : Text) (renew : Bool) : DiskAction PathFault Unit := do
  if renew then DiskAction.writeText path text
  else if !(← DiskAction.pathExists path) then DiskAction.writeText path text

def commandLayer (layout : Layout) (logLevel? : Option Text) : Table :=
  layout.withWorkspace (Config.textLayer Config.logLevelField (logLevel?.filter (!·.isEmpty)))

def initialConfig (home : Text) (layout : Layout) (options : InitialOptions) :
    Except ConfigFault Config :=
  Config.ofLayers home
    [Config.defaultsLayer, options.environment, layout.commandLayer options.logLevel?]

/-- Makes the folder of definitions, and writes the example components if it is new and they are
wanted. -/
def makeComponents (folder : Path) (seedExamples : Bool) : DiskAction PathFault (List Path) := do
  let isNew := !(← DiskAction.pathExists folder)
  if isNew && seedExamples then seed folder
  else
    DiskAction.makeFolders folder
    return []

/-- Makes the workspace at a path. The stamp names the archive. -/
def initialise (home stamp : Text) (workspace : Path) (options : InitialOptions) :
    DiskAction InitialFault Initial := do
  let layout ← ExceptT.adapt .layout
    (DiskAction.check fun disk => resolve home disk (some workspace) none)
  let archive? ←
    if options.renew then
      ExceptT.adapt .archive (layout.archive stamp)
    else pure none
  ExceptT.adapt .file layout.makeFolders
  let config ← ExceptT.adapt .config
    (DiskAction.check fun _ => layout.initialConfig home options)
  ExceptT.adapt .file (writeDocument layout.defaults Resource.defaultsText options.renew)
  ExceptT.adapt .file (writeDocument layout.document config.document options.renew)
  let componentsFolder ← ExceptT.adapt (InitialFault.config ∘ .home)
    (DiskAction.check fun _ => config.componentsFolder home layout.workspace)
  let seeded ← ExceptT.adapt .file (makeComponents componentsFolder options.seedExamples)
  return { config, componentsFolder, seeded, archive? }

end DocComponents.Layout
