import ModalCursor.Proofs.Grammar
/-!
# ModalCursor.Proofs.SavedPositions

**Going back to a saved position.** Three actions do (`Return`): one goes to a mark, one to the head of a mark's row,
and one to the head of the row that the last jump left. `Return.destination?` says where each of them ends, or that
the position it goes by is not saved.

A session saves positions of its text only, and the head of a row is one as well. So after such an action the
column has not to be settled: the cursor is exactly at the destination (`Session.Sound.execute_return`), or, without
one, exactly where it was.
-/

namespace ModalCursor

/-! ### The head of a row -/

/-- The position is on the row, at its first ink. -/
def Buffer.IsHead (b : Buffer) (row : Nat) (p : Position) : Prop :=
  p.row = row ∧ (b.row row).IsFirstInk p.col

namespace Cursor

variable {b : Buffer} {row : Nat}

theorem rowHead_holds (b : Buffer) (row : Nat) : b.Holds (rowHead b row) :=
  ⟨rowHead_row_lt b row, Row.firstInk_le_lastCol _⟩

theorem isHead_rowHead (h : row < b.rowCount) : b.IsHead row (rowHead b row) := by
  have hrow : Rows.goTo b.rowCount row = row := Rows.goTo_of_lt h
  rw [rowHead, hrow]
  exact ⟨rfl, Row.isFirstInk_firstInk _⟩

end Cursor

/-! ### Actions that go back -/

/-- A way to go by a position that was saved. -/
inductive Return
  | toMark (name : Char)
  | toMarkRow (name : Char)
  | toPrevRow

namespace Return

def action : Return → Action
  | toMark name => .jumpToMark name
  | toMarkRow name => .jumpToMarkLine name
  | toPrevRow => .jumpPrevLine

theorem action_isVertical (r : Return) : r.action.isVertical = false := by
  cases r with
  | toMark | toMarkRow | toPrevRow => rfl

/-- The saved position that it goes by, if there is one. -/
def saved? (s : Cursor) : Return → Option Position
  | toMark name | toMarkRow name => s.marks.get? name
  | toPrevRow => s.jump.saved

/-- Where it ends, if its position is saved. -/
def destination? (b : Buffer) (s : Cursor) : Return → Option Position
  | toMark name => s.marks.get? name
  | toMarkRow name => (s.marks.get? name).map fun p => Cursor.rowHead b p.row
  | toPrevRow => s.jump.saved.map fun p => Cursor.rowHead b p.row

end Return

/-- Wherever the saved position lies, going back leads to its row, brought back into the text. -/
theorem Cursor.run_return_row {b : Buffer} {s : Cursor} {r : Return} {p : Position} (hp : r.saved? s = some p)
    (count : Option Nat) : (s.run b ⟨r.action, count⟩).position.row = Rows.goTo b.rowCount p.row := by
  cases r with
  | toMark name | toMarkRow name =>
      have hmark : s.marks.get? name = some p := hp
      simp [Cursor.run, Return.action, hmark, Cursor.jumpTo, Cursor.rowHead]
  | toPrevRow =>
      have hsaved : s.jump.saved = some p := hp
      simp [Cursor.run, Return.action, JumpMark.swap, hsaved, Cursor.rowHead]

namespace Session

variable {s : Session} {c : Command} {count : Option Nat} {keys : Keys} {p : Position} {r : Return}

/-- After a command that is not vertical and ends on a position of the text, nothing has to be settled. -/
theorem execute_cursor_of_holds (hc : c.action.isVertical = false)
    (h : s.buffer.Holds (s.cursor.run s.buffer c).position) :
    (s.execute c).cursor = s.cursor.run s.buffer c := by
  simp only [execute, settledAt_of_holds hc h, Cursor.moveTo]

theorem Sound.destination_holds (h : s.Sound) (hp : r.destination? s.buffer s.cursor = some p) :
    s.buffer.Holds p := by
  cases r with
  | toMark name => exact h.marks_hold name p hp
  | toMarkRow | toPrevRow =>
      obtain ⟨q, -, rfl⟩ := Option.map_eq_some_iff.mp hp
      exact Cursor.rowHead_holds _ _

/-- Going back is a jump to the destination. The row of a mark is in the text, so it need not be brought back. -/
theorem Sound.run_return (h : s.Sound) (r : Return) (count : Option Nat) :
    s.cursor.run s.buffer ⟨r.action, count⟩ =
      (r.destination? s.buffer s.cursor).elim s.cursor s.cursor.jumpTo := by
  cases r with
  | toMark name =>
      cases hmark : s.cursor.marks.get? name with
      | none => simp [Cursor.run, Return.action, Return.destination?, hmark]
      | some mark =>
          have hrow : Rows.goTo s.buffer.rowCount mark.row = mark.row :=
            Rows.goTo_of_lt (h.marks_hold name mark hmark).1
          simp [Cursor.run, Return.action, Return.destination?, hmark, hrow]
  | toMarkRow name =>
      cases hmark : s.cursor.marks.get? name with
      | none => simp [Cursor.run, Return.action, Return.destination?, hmark]
      | some mark => simp [Cursor.run, Return.action, Return.destination?, hmark]
  | toPrevRow =>
      -- The swap leaves the position before it, as a jump does.
      cases hsaved : s.cursor.jump.saved with
      | none => simp [Cursor.run, Return.action, Return.destination?, JumpMark.swap, hsaved]
      | some origin =>
          simp [Cursor.run, Return.action, Return.destination?, JumpMark.swap, hsaved, Cursor.jumpTo,
            JumpMark.record]

/-- Going back brings the cursor to the destination, settled, or leaves it alone. -/
theorem Sound.execute_return (h : s.Sound) (r : Return) (count : Option Nat) :
    (s.execute ⟨r.action, count⟩).cursor =
      (r.destination? s.buffer s.cursor).elim s.cursor s.cursor.jumpTo := by
  have hrun := h.run_return r count
  have hholds : s.buffer.Holds (s.cursor.run s.buffer ⟨r.action, count⟩).position := by
    rw [hrun]
    cases hdest : r.destination? s.buffer s.cursor with
    | none => exact h.holds
    | some p => exact h.destination_holds hdest
  rw [execute_cursor_of_holds r.action_isVertical hholds, hrun]

/-! ### Typing them -/

/-- Typed where its position is saved, an action that goes back jumps to the destination, and the wanted column is
the one there. -/
theorem Sound.feedAll_return (h : s.Sound) (hpending : s.pending = []) (hkeys : Phrase [] keys ⟨r.action, none⟩)
    (hp : r.destination? s.buffer s.cursor = some p) :
    (s.feedAll keys).cursor = s.cursor.jumpTo p ∧ (s.feedAll keys).want = p.col := by
  have hcursor : (s.execute ⟨r.action, none⟩).cursor = s.cursor.jumpTo p := by
    rw [h.execute_return, hp]
    rfl
  rw [hkeys.feedAll_uncounted hpending]
  refine ⟨hcursor, ?_⟩
  rw [execute_want _ r.action_isVertical, hcursor]
  rfl

theorem Sound.feedAll_no_return (h : s.Sound) (hpending : s.pending = []) (hkeys : Phrase [] keys ⟨r.action, none⟩)
    (hp : r.destination? s.buffer s.cursor = none) : (s.feedAll keys).cursor = s.cursor := by
  rw [hkeys.feedAll_uncounted hpending, h.execute_return, hp]
  rfl

end Session

end ModalCursor
