import ModalCursor.Proofs.Bounds
import ModalCursor.Proofs.Typing
/-!
# ModalCursor.Proofs.Reachable

**What every session keeps true.** A session is worked on by three operations: a key, a restart, and the
replacement of its buffer, which may fail. `Session.Sound` collects what holds of a new session and after every
operation; `Session.Reachable` are the sessions that come about in this way.

The clauses of `Sound` need each other only at one place. A vertical action leaves the column of the cursor as it
was, so its position is no character of the new row until the session settles it; the marks, the jump mark and
the trail are written from settled positions only.
-/

namespace ModalCursor

/-- What is done to a session from outside. -/
inductive Operation
  /-- A key is fed. -/
  | key (key : Char)
  /-- The session goes back to its start. -/
  | restart
  /-- The buffer is replaced by that of another text, if the text has one. -/
  | replace (t : Text)
  deriving DecidableEq, Repr

theorem mem_of_mem_keepLast {α : Type} {n : Nat} {a : α} {l : List α} (h : a ∈ keepLast n l) : a ∈ l :=
  List.mem_of_mem_drop h

namespace Session

/-- The session after an operation. A replacement that fails leaves it as it was. -/
def perform (s : Session) : Operation → Session
  | .key key => (s.feed key).1
  | .restart => s.restart
  | .replace t => (s.replaceBuffer t).1

/-- The session after operations in order. -/
def performAll (s : Session) (ops : List Operation) : Session := ops.foldl perform s

/-- The sessions that operations lead to from a new one. -/
inductive Reachable : Session → Prop
  | start (b : Buffer) (o : Settings) : Reachable (start b o)
  | perform {s : Session} (h : Reachable s) (op : Operation) : Reachable (s.perform op)

theorem Reachable.performAll {s : Session} (h : s.Reachable) (ops : List Operation) :
    (s.performAll ops).Reachable := by
  induction ops generalizing s with
  | nil => exact h
  | cons op ops ih => exact ih (h.perform op)

/-- What is true of a session at all times. -/
structure Sound (s : Session) : Prop where
  /-- The cursor's row is in the text. -/
  row_lt : s.cursor.position.row < s.buffer.rowCount
  /-- The cursor stands on the wanted column, or on the last one if its row is shorter. -/
  col_eq : s.cursor.position.col = min s.want (s.buffer.lastCol s.cursor.position.row)
  /-- Marks are positions of the text, and so are the jump mark and the trail. -/
  marks_hold : ∀ name p, s.cursor.marks.get? name = some p → s.buffer.Holds p
  jump_holds : ∀ p, s.cursor.jump.saved = some p → s.buffer.Holds p
  trail_holds : ∀ p ∈ s.trail, s.buffer.Holds p
  /-- The pending keys can become a command. -/
  pending_unfinished : s.pending.Unfinished

variable {s : Session}

/-- The cursor is on a character of its row, or at the first column of an empty row. -/
theorem Sound.holds (h : s.Sound) : s.buffer.Holds s.cursor.position :=
  ⟨h.row_lt, h.col_eq ▸ Nat.min_le_right _ _⟩

/-! ### New sessions -/

/-- The middle of a row, rounded down, is not past its last column. -/
theorem startPosition_holds (b : Buffer) (o : Settings) : b.Holds (startPosition b o) := by
  have hlast := b.lastRow_lt
  refine ⟨?_, ?_⟩
  · simp only [startPosition]
    omega
  · simp only [startPosition, Buffer.rowLength, Buffer.lastCol, Row.lastCol]
    split <;> omega

theorem start_sound (b : Buffer) (o : Settings) : (start b o).Sound where
  row_lt := (startPosition_holds b o).1
  col_eq := (Nat.min_eq_left (startPosition_holds b o).2).symm
  marks_hold := by
    intro name p hp
    simp [start, Cursor.start] at hp
  jump_holds := by
    intro p hp
    simp [start, Cursor.start, JumpMark.empty] at hp
  trail_holds := by
    intro p hp
    simp [start] at hp
  pending_unfinished := .nil

/-- Restarting sets all that a new session sets. -/
theorem restart_eq_start (s : Session) : s.restart = start s.buffer s.settings := rfl

/-! ### Executing a command -/

theorem settledAt_holds {a : Action} {p : Position} (h : p.row < s.buffer.rowCount) :
    s.buffer.Holds (s.settledAt a p) :=
  ⟨h, Nat.min_le_right _ _⟩

theorem Sound.execute_holds (h : s.Sound) (c : Command) :
    s.buffer.Holds (s.execute c).cursor.position :=
  settledAt_holds (Cursor.run_row_lt h.row_lt)

/-- Settling puts the cursor at the wanted column, or makes its column the wanted one. -/
theorem execute_col (s : Session) (c : Command) :
    (s.execute c).cursor.position.col =
      min (s.execute c).want (s.buffer.lastCol (s.execute c).cursor.position.row) := by
  simp only [execute, settledAt, Cursor.moveTo]
  cases c.action.isVertical with
  | true => simp
  | false => simp

theorem Sound.execute_marks (h : s.Sound) (c : Command) {name : Char} {p : Position}
    (hp : (s.execute c).cursor.marks.get? name = some p) : s.buffer.Holds p := by
  have hmarks : (s.execute c).cursor.marks = (s.cursor.run s.buffer c).marks := rfl
  rw [hmarks, Cursor.run_marks] at hp
  cases hc : c.action with
  | setMark x =>
      -- The name that is set holds where the cursor was, and the others what they held.
      simp only [hc, Marks.get?_set] at hp
      split at hp
      · cases hp
        exact h.holds
      · exact h.marks_hold name p hp
  | _ =>
      simp only [hc] at hp
      exact h.marks_hold name p hp

theorem Sound.execute_jump (h : s.Sound) (c : Command) {p : Position}
    (hp : (s.execute c).cursor.jump.saved = some p) : s.buffer.Holds p := by
  have hjump : (s.execute c).cursor.jump = (s.cursor.run s.buffer c).jump := rfl
  rw [hjump, Cursor.run_jump_saved] at hp
  split at hp
  · cases hp
    exact h.holds
  · exact h.jump_holds p hp

theorem Sound.execute (h : s.Sound) (c : Command) : (s.execute c).Sound where
  row_lt := (h.execute_holds c).1
  col_eq := s.execute_col c
  marks_hold := fun _ _ => h.execute_marks c
  jump_holds := fun _ => h.execute_jump c
  trail_holds := by
    intro p hp
    rcases List.mem_append.mp (mem_of_mem_keepLast hp) with hold | hnew
    · exact h.trail_holds p hold
    · rw [List.mem_singleton.mp hnew]
      exact h.execute_holds c
  pending_unfinished := .nil

/-! ### Operations -/

theorem Sound.feed (h : s.Sound) (key : Char) : (s.feed key).1.Sound := by
  have hstep := s.keyStep key
  generalize s.feed key = r at *
  cases hstep with
  | ignored _ => exact h
  | pending hread => exact { h with pending_unfinished := h.pending_unfinished.snoc hread }
  | rejected _ _ => exact { h with pending_unfinished := .nil }
  | executed _ => exact h.execute _

theorem Sound.feedAll (h : s.Sound) (keys : Keys) : (s.feedAll keys).Sound := by
  induction keys generalizing s with
  | nil => exact h
  | cons key keys ih => exact ih (h.feed key)

theorem Sound.perform (h : s.Sound) (op : Operation) : (s.perform op).Sound := by
  cases op with
  | key key => exact h.feed key
  | restart =>
      rw [Session.perform, restart_eq_start]
      exact start_sound _ _
  | replace t =>
      rw [Session.perform, replaceBuffer]
      cases Buffer.ofText t with
      | error e => exact h
      | ok b => exact start_sound b s.settings

theorem Reachable.sound (h : s.Reachable) : s.Sound := by
  induction h with
  | start b o => exact start_sound b o
  | perform _ op ih => exact ih.perform op

/-- **Every session is sound.** Over any buffer and with any settings, keys, restarts and replaced buffers in any
order lead from a new session to one whose cursor is on a character (or at the first column of an empty row) and
at the wanted column as far as its row reaches, whose marks, jump mark and trail are positions of its present
buffer, and whose pending keys can become a command. -/
theorem performAll_start_sound (b : Buffer) (o : Settings) (ops : List Operation) :
    ((start b o).performAll ops).Sound ∧
      ((start b o).performAll ops).buffer.Holds ((start b o).performAll ops).cursor.position := by
  have hsound : ((start b o).performAll ops).Sound := ((Reachable.start b o).performAll ops).sound
  exact ⟨hsound, hsound.holds⟩

end Session

end ModalCursor
