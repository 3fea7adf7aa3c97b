import DocComponents.Document.Expander

/-!
# Serving requests

An expander serves requests for single invocations, for blocks, for running text and for whole
documents. The catalog is brought up to date before a request is answered, except for a single
invocation, which is rendered from the catalog as it is.
-/

set_option autoImplicit false

namespace DocComponents

inductive Request where
  /-- An invocation rendered into a container, under the options of the settings unless others are
  given. -/
  | invocation (invocation : Invocation) (options? : Option RenderOptions)
    (container : Element Node)
  /-- A block of invocations, shown as the settings say or as a named mode says. -/
  | block (source : Text) (mode? : Option Text)
  | inline (text : Text)
  | document (markdown : Text)

def Request.followsFiles : Request → Bool
  | .invocation _ _ _ => false
  | .block _ _ | .inline _ | .document _ => true

inductive Shown where
  | element (shown : Element Node)
  | text (shown : Text)

def Shown.written : Shown → Text
  | .element shown => shown.html
  | .text shown => shown

inductive Refusal where
  | file (fault : FileFault)
  | mode (fault : DisplayMode.Unknown)
  deriving DecidableEq

namespace Expander

def answer (expander : Expander) : Request → StateM Trace (Except Refusal Shown)
  | .invocation invocation options? container => do
    let options := options?.getD expander.options
    let element ← expander.renderInvocation invocation options container
    return .ok (.element element)
  | .block source mode? =>
    match expander.expandBlock source mode? with
    | .ok action => do
      let element ← action
      return .ok (.element element)
    | .error fault => return .error (.mode fault)
  | .inline text => do
    let expanded ← expander.expandInline text
    return .ok (.text expanded)
  | .document markdown => do
    let expanded ← expander.expandDocument markdown
    return .ok (.text expanded)

def serve (expander : Expander) (disk : Disk) (request : Request) :
    StateM Trace (Expander × Except Refusal Shown) := do
  if request.followsFiles then
    match ← (expander.sync disk).run with
    | .ok synced =>
      let shown ← synced.answer request
      return (synced, shown)
    | .error fault => return (expander, .error (.file fault))
  else
    let shown ← expander.answer request
    return (expander, shown)

end Expander

end DocComponents
