import ModalCursor.Folder
/-!
# ModalCursor.Settings.Error

The ways in which **settings cannot be had**: from a file, or from an argument.
-/

namespace ModalCursor

/-- Why settings are refused. -/
inductive SettingsError
  /-- The settings file gives no text. -/
  | unreadable (path : Path) (why : ReadFailure)
  /-- The settings file is no settings document. -/
  | malformed
  /-- No setting has this name. -/
  | unknown (name : Text)
  /-- The setting does not hold this value. -/
  | invalidValue (name value : Text)
  /-- The setting is a number, and was switched on, off or over. -/
  | notBoolean (name : Text)
  deriving DecidableEq, Repr

def SettingsError.message : SettingsError → String
  | unreadable path why => why.messageAt path
  | malformed => "invalid config"
  | unknown name => "unknown option: " ++ String.ofList name
  | invalidValue name value =>
      "invalid value for " ++ String.ofList name ++ ": " ++ String.ofList value
  | notBoolean name =>
      String.ofList name ++ " is a number option; use " ++ String.ofList name ++ "=N"

end ModalCursor
