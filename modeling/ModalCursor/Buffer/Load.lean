import ModalCursor.Buffer
import ModalCursor.Folder
/-!
# ModalCursor.Buffer.Load

**Buffers from files.** A file gives a buffer if it can be read and holds more than line endings.
-/

namespace ModalCursor

/-- Why a buffer cannot be had. -/
inductive BufferError
  /-- The file gives no text. -/
  | unreadable (path : Path) (why : ReadFailure)
  /-- The text holds nothing but line endings. -/
  | empty
  deriving DecidableEq, Repr

/-- The reason in words. -/
def BufferError.message : BufferError → String
  | unreadable path why => why.messageAt path
  | empty => "text is empty"

namespace Buffer

/-- The buffer of a text, or the error that it is empty. -/
def ofText (t : Text) : Except BufferError Buffer :=
  match ofText? t with
  | some b => .ok b
  | none => .error .empty

/-- The buffer of some lines, or the error that there are none. -/
def ofLines (lines : List Text) : Except BufferError Buffer :=
  match ofLines? lines with
  | some b => .ok b
  | none => .error .empty

theorem ofText_eq_ok_iff {t : Text} {b : Buffer} : ofText t = .ok b ↔ ofText? t = some b := by
  rw [ofText]
  cases ofText? t <;> simp

/-- The only error is that a text is empty, and it is one exactly when nothing but line endings is in it. -/
theorem ofText_eq_error_iff {t : Text} {e : BufferError} :
    ofText t = .error e ↔ e = .empty ∧ ∀ ch ∈ t, ch = '\n' ∨ ch = '\r' := by
  have hnone : ofText? t = none ↔ ∀ ch ∈ t, ch = '\n' ∨ ch = '\r' := by
    rw [ofText?_eq_none_iff]
    simp only [isRowEnd_iff]
  rw [← hnone, ofText]
  cases ofText? t with
  | none => simp [eq_comm]
  | some b => simp

theorem exists_ofText {t : Text} (h : ∃ ch ∈ t, ch ≠ '\n' ∧ ch ≠ '\r') : ∃ b, ofText t = .ok b := by
  cases hb : ofText t with
  | ok b => exact ⟨b, rfl⟩
  | error e =>
      obtain ⟨ch, hmem, hn, hr⟩ := h
      obtain ⟨-, hall⟩ := ofText_eq_error_iff.mp hb
      rcases hall ch hmem with hch | hch
      · exact absurd hch hn
      · exact absurd hch hr

/-- The buffer of a file. -/
def load (read : Reader) (path : Path) : Except BufferError Buffer :=
  match read path with
  | .ok t => ofText t
  | .error why => .error (.unreadable path why)

end Buffer

end ModalCursor
