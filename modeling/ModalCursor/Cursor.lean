import ModalCursor.Command
import ModalCursor.Marks
/-!
# ModalCursor.Cursor

The **cursor** is a position together with the marks and the jump mark. `Cursor.run` executes one command on it
over a buffer.

Execution does not bring columns back onto the row: after a vertical action the column is the one the cursor had
before, even where the new row is shorter. `Session` settles that.
-/

namespace ModalCursor

/-- A position, the marks set so far, and where the last jump came from. -/
structure Cursor where
  position : Position
  marks : Marks
  jump : JumpMark
  deriving DecidableEq

namespace Cursor

def start (p : Position) : Cursor := ⟨p, .empty, .empty⟩

/-- The cursor elsewhere, with its marks as they are. -/
def moveTo (s : Cursor) (p : Position) : Cursor := { s with position := p }

/-- The cursor elsewhere, with the position it left in the jump mark. -/
def jumpTo (s : Cursor) (p : Position) : Cursor :=
  { s with position := p, jump := s.jump.record s.position }

/-- The first ink of a row. A row past the end is brought back to the last. -/
def rowHead (b : Buffer) (row : Nat) : Position :=
  let row := Rows.goTo b.rowCount row
  ⟨row, (b.row row).firstInk⟩

/-- Executes a command. -/
def run (b : Buffer) (c : Command) (s : Cursor) : Cursor :=
  let p := s.position
  match c.action with
  | .move m => if m.isJump then s.jumpTo (m.run b c.times p) else s.moveTo (m.run b c.times p)
  | .first => s.jumpTo (p.withRow (Rows.goTo b.rowCount 0))
  | .last => s.jumpTo (p.withRow (Rows.goTo b.rowCount ((b.rowCount : Int) - 1)))
  | .goto => s.jumpTo (p.withRow (Rows.goTo b.rowCount ((c.count.getD 1 : Int) - 1)))
  | .firstNonBlank => s.moveTo (p.withCol (b.row p.row).firstInk)
  | .lineStart => s.moveTo (p.withCol 0)
  | .lineEnd => s.moveTo (p.withCol (b.lastCol p.row))
  | .setMark name => { s with marks := s.marks.set name p }
  | .jumpToMark name =>
      match s.marks.get? name with
      | some mark => s.jumpTo ⟨Rows.goTo b.rowCount mark.row, mark.col⟩
      | none => s
  | .jumpToMarkLine name =>
      match s.marks.get? name with
      | some mark => s.jumpTo (rowHead b mark.row)
      | none => s
  | .jumpPrevLine =>
      match s.jump.swap p with
      | (some origin, jump) => { s with position := rowHead b origin.row, jump := jump }
      | (none, _) => s

/-- Marks change only where the action sets one. -/
theorem run_marks (b : Buffer) (c : Command) (s : Cursor) :
    (s.run b c).marks =
      match c.action with
      | .setMark name => s.marks.set name s.position
      | _ => s.marks := by
  cases hc : c.action with
  | move m => by_cases hm : m.isJump <;> simp [run, hc, hm, jumpTo, moveTo]
  | setMark name => simp [run, hc]
  | jumpToMark name => cases hm : s.marks.get? name <;> simp [run, hc, hm, jumpTo]
  | jumpToMarkLine name => cases hm : s.marks.get? name <;> simp [run, hc, hm, jumpTo]
  | jumpPrevLine => cases hj : s.jump.saved <;> simp [run, hc, JumpMark.swap, hj]
  | _ => simp [run, hc, jumpTo, moveTo]

end Cursor

end ModalCursor
