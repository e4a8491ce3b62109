import ModalCursor.Buffer.Load
import ModalCursor.Session.Transcript
import ModalCursor.Settings.Directive
import ModalCursor.Settings.Document
import ModalCursor.Text.Lines
/-!
# ModalCursor.Drill

A **drill** feeds keys over the text of a file and reports where they lead. The settings come from a file and
from arguments, the keys from arguments and a script. Its parts are had in a fixed order (settings file,
arguments, text, script), and the first that cannot be had ends it.
-/

namespace ModalCursor

/-- What a drill works on. -/
structure Drill where
  text : Path
  /-- Keys, in the order of their arguments. -/
  keys : List Keys
  /-- A file with keys that come after those of the arguments. -/
  script : Option Path
  config : Option Path
  /-- Arguments that change settings. -/
  overrides : List Text
  trace : Bool
  deriving DecidableEq, Repr

/-- Why a drill ends without a report. -/
inductive DrillError
  | settings (e : SettingsError)
  | buffer (e : BufferError)
  | script (path : Path) (why : ReadFailure)
  deriving DecidableEq, Repr

/-- The reason in words. -/
def DrillError.message : DrillError → String
  | settings e => e.message
  | buffer e => e.message
  | script path why =>
      "cannot read script " ++ String.ofList path ++ ": " ++ why.message

namespace Drill

/-- The settings: those of the file, or the default ones, changed by the arguments in order. -/
def loadSettings (d : Drill) (f : Document.Format) (read : Reader) : Except SettingsError Settings := do
  let base ← match d.config with
    | some path => Settings.load f read path
    | none => .ok Settings.default
  base.applyAll d.overrides

/-- The keys of the script: its lines, without their endings. -/
def scriptKeys (d : Drill) (read : Reader) : Except DrillError Keys :=
  match d.script with
  | none => .ok []
  | some path =>
      match read path with
      | .ok t => .ok t.unbroken
      | .error why => .error (.script path why)

/-- The session at its start, and the keys to feed. -/
def prepare (d : Drill) (f : Document.Format) (read : Reader) : Except DrillError (Session × Keys) := do
  let settings ← (d.loadSettings f read).mapError .settings
  let buffer ← (Buffer.load read d.text).mapError .buffer
  let scripted ← d.scriptKeys read
  return (Session.start buffer settings, d.keys.flatten ++ scripted)

/-- What is reported of a session after keys: their transcript if it is to be shown, and the summary. -/
def report (d : Drill) (s : Session) (keys : Keys) : String :=
  let (after, shown) := s.replay keys d.trace
  shown ++ after.summary

def run (d : Drill) (f : Document.Format) (read : Reader) : Except DrillError String := do
  let (session, keys) ← d.prepare f read
  return d.report session keys

end Drill

end ModalCursor
