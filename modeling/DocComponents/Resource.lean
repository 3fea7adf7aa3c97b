import DocComponents.File.Disk

/-!
# Packaged resources

The files that the program carries with itself: the default configuration, and the example
components that a new workspace receives. They stand in a folder of a small disk, so a resource is
found by its path from that folder.
-/

set_option autoImplicit false

namespace DocComponents.Resource

def ofLines (lines : List String) : Text :=
  lines.flatMap fun line => line.toList ++ ['\n']

def defaultsText : Text :=
  ofLines [
    "# Packaged defaults for mdcomponents.",
    "# Workspace files (mdcomponents.toml) override these values.",
    "",
    "log_level = \"INFO\"",
    "",
    "[components]",
    "folder = \"components\"",
    "live_reload = true",
    "enable_scripts = true",
    "debug_mode = false",
    "display_mode = \"inline\"",
    "script_runtime = \"python\""]

def badgeText : Text :=
  ofLines [
    "---",
    "name: badge",
    "description: A small pill-shaped label",
    "props:",
    "  text: NEW",
    "  color: \"#ef4444\"",
    "---",
    "",
    "<span class=\"mdc-badge\" style=\"background: \x7b\x7bcolor\x7d\x7d;\">\x7b\x7btext\x7d\x7d</span>",
    "",
    "<style>",
    ".mdc-badge \x7b",
    "  display: inline-block;",
    "  padding: 2px 10px;",
    "  border-radius: 999px;",
    "  color: white;",
    "  font-size: 11px;",
    "  font-weight: 700;",
    "  letter-spacing: 0.5px;",
    "  text-transform: uppercase;",
    "  vertical-align: middle;",
    "  line-height: 1.6;",
    "\x7d",
    "</style>"]

def buttonText : Text :=
  ofLines [
    "---",
    "name: button",
    "description: A customizable button",
    "props:",
    "  text: Click Me",
    "  color: \"#7c5cbf\"",
    "  size: medium",
    "---",
    "",
    "<button class=\"mdc-btn mdc-btn--\x7b\x7bsize\x7d\x7d\" style=\"background: \x7b\x7bcolor\x7d\x7d;\">",
    "  \x7b\x7btext\x7d\x7d",
    "</button>",
    "",
    "<style>",
    ".mdc-btn \x7b",
    "  border: none;",
    "  border-radius: 8px;",
    "  color: white;",
    "  cursor: pointer;",
    "  font-weight: 600;",
    "  letter-spacing: 0.3px;",
    "  transition: all 0.2s ease;",
    "  box-shadow: 0 2px 8px rgba(0, 0, 0, 0.15);",
    "  font-family: inherit;",
    "\x7d",
    ".mdc-btn--small \x7b padding: 4px 14px; font-size: 12px; \x7d",
    ".mdc-btn--medium \x7b padding: 8px 22px; font-size: 14px; \x7d",
    ".mdc-btn--large \x7b padding: 12px 32px; font-size: 16px; \x7d",
    ".mdc-btn:hover \x7b",
    "  filter: brightness(1.15);",
    "  transform: translateY(-1px);",
    "\x7d",
    ".mdc-btn:active \x7b",
    "  transform: translateY(0);",
    "\x7d",
    "</style>"]

def cardText : Text :=
  ofLines [
    "---",
    "name: card",
    "description: A card with a colored header and body text",
    "props:",
    "  title: Title",
    "  content: Card content goes here",
    "  color: \"#6366f1\"",
    "---",
    "",
    "<div class=\"mdc-card\">",
    "  <div class=\"mdc-card__header\" style=\"background: \x7b\x7bcolor\x7d\x7d;\">",
    "    <span class=\"mdc-card__title\">\x7b\x7btitle\x7d\x7d</span>",
    "  </div>",
    "  <div class=\"mdc-card__body\">",
    "    <p>\x7b\x7bcontent\x7d\x7d</p>",
    "  </div>",
    "</div>",
    "",
    "<style>",
    ".mdc-card \x7b",
    "  border-radius: 12px;",
    "  overflow: hidden;",
    "  box-shadow: 0 4px 16px rgba(0, 0, 0, 0.12);",
    "  max-width: 320px;",
    "  transition: transform 0.2s ease, box-shadow 0.2s ease;",
    "\x7d",
    ".mdc-card:hover \x7b",
    "  transform: translateY(-2px);",
    "\x7d",
    ".mdc-card__header \x7b padding: 16px 20px; color: white; \x7d",
    ".mdc-card__title \x7b font-size: 16px; font-weight: 700; \x7d",
    ".mdc-card__body \x7b padding: 16px 20px; font-size: 14px; line-height: 1.6; \x7d",
    ".mdc-card__body p \x7b margin: 0; \x7d",
    "</style>"]

def progressText : Text :=
  ofLines [
    "---",
    "name: progress",
    "description: A labelled progress bar with an animated stripe",
    "props:",
    "  label: Progress",
    "  value: \"60\"",
    "  color: \"#10b981\"",
    "---",
    "",
    "<div class=\"mdc-progress\" role=\"progressbar\" aria-valuenow=\"\x7b\x7bvalue\x7d\x7d\" aria-valuemin=\"0\" aria-valuemax=\"100\">",
    "  <span class=\"mdc-progress__label\">\x7b\x7blabel\x7d\x7d</span>",
    "  <div class=\"mdc-progress__track\">",
    "    <div class=\"mdc-progress__fill\" style=\"width: \x7b\x7bvalue\x7d\x7d%; background: \x7b\x7bcolor\x7d\x7d;\"></div>",
    "  </div>",
    "</div>",
    "",
    "<style>",
    ".mdc-progress \x7b max-width: 360px; font-size: 13px; \x7d",
    ".mdc-progress__track \x7b",
    "  height: 8px;",
    "  border-radius: 999px;",
    "  background: rgba(0, 0, 0, 0.08);",
    "  overflow: hidden;",
    "\x7d",
    ".mdc-progress__fill \x7b",
    "  height: 100%;",
    "  animation: mdc-progress-pulse 2s ease-in-out infinite;",
    "\x7d",
    "@keyframes mdc-progress-pulse \x7b",
    "  from \x7b opacity: 0.75; \x7d",
    "  50% \x7b opacity: 1; \x7d",
    "  to \x7b opacity: 0.75; \x7d",
    "\x7d",
    "</style>"]

def defaultsName : Text := "mdcomponents.defaults.toml".toList

/-- The example components by file name, in the order of their names. -/
def examples : List (Text × Text) :=
  [("badge.md".toList, badgeText), ("button.md".toList, buttonText), ("card.md".toList, cardText),
    ("progress.md".toList, progressText)]

def home : List Text := ["resources".toList]

def examplesFolder : Text := "examples".toList

def disk : Disk :=
  { current := home
    entries :=
      SortedMap.empty.insertAll
        ([(home, .folder), (home ++ [defaultsName], .file (Utf8.encode defaultsText) 0),
          (home ++ [examplesFolder], .folder)] ++
        examples.map fun file =>
          (home ++ [examplesFolder, file.1], .file (Utf8.encode file.2) 0)) }

inductive Fault where
  | missing (path : Text)
  | unreadable (fault : ReadFault)
  deriving DecidableEq, Repr

def Fault.message : Fault → Text
  | .missing path => path
  | .unreadable fault => fault.message

def read (path : Text) : Except Fault Text :=
  match disk.pathExists (Path.ofText path) with
  | .error fault => .error (.unreadable (.file fault))
  | .ok false => .error (.missing path)
  | .ok true => (disk.readText (Path.ofText path)).mapError .unreadable

end DocComponents.Resource
