import ModalCursor.Settings
import ModalCursor.Settings.Error
/-!
# ModalCursor.Settings.Document

**Settings documents**. A document is a table of keys with values, written in TOML. How that is read is not settled
here: the format is a parameter, in two parts. One reads a text as a table, and the other fills a record from a table as
the record's type declares it (`Document.Format`). What is settled here is the declaration of the settings: a document
may leave out any of them, and may not have any other key.
-/

namespace ModalCursor

/-- The key of a setting in documents. -/
def Setting.key : Setting → Text
  | startRow => "start_row".toList
  | centered => "start_centered".toList
  | trailLength => "trail_len".toList

namespace Document

/-- The values that a setting can have in a document. -/
inductive Value
  | integer (n : Int)
  | boolean (b : Bool)
  deriving DecidableEq, Repr

structure Entry where
  key : Text
  value : Value
  deriving DecidableEq, Repr

abbrev Table := List Entry

/-- What a record type declares about being filled from a table. -/
structure Declaration where
  /-- The record whose fields stand in for those that the table leaves out. Without one, none may be left out. -/
  defaults : Option Settings
  /-- A key of no field is refused, and not passed over. -/
  refusesUnknown : Bool
  deriving DecidableEq, Repr

/-- A way to read documents. -/
structure Format where
  /-- The table that a text is. -/
  table? : Text → Option Table
  /-- The record that a table gives. -/
  fill? : Declaration → Table → Option Settings

end Document

namespace Settings

/-- What is left out has its default value, and there are no other keys. -/
def declaration : Document.Declaration := { defaults := some .default, refusesUnknown := true }

end Settings

/-- The settings that a text gives, if it is a document of them. -/
def Document.Format.read? (f : Document.Format) (t : Text) : Option Settings := do
  f.fill? Settings.declaration (← f.table? t)

namespace Settings

def ofDocument (f : Document.Format) (t : Text) : Except SettingsError Settings :=
  match f.read? t with
  | some o => .ok o
  | none => .error .malformed

theorem ofDocument_eq_ok_iff {f : Document.Format} {t : Text} {o : Settings} :
    ofDocument f t = .ok o ↔ f.read? t = some o := by
  rw [ofDocument]
  cases f.read? t <;> simp

theorem ofDocument_eq_error_iff {f : Document.Format} {t : Text} {e : SettingsError} :
    ofDocument f t = .error e ↔ e = .malformed ∧ f.read? t = none := by
  rw [ofDocument]
  cases f.read? t <;> simp [eq_comm]

def load (f : Document.Format) (read : Reader) (path : Path) : Except SettingsError Settings :=
  match read path with
  | .ok t => ofDocument f t
  | .error why => .error (.unreadable path why)

end Settings

end ModalCursor
