import ModalCursor.Buffer.Paragraphs
import ModalCursor.Buffer.Words
import ModalCursor.Row.Search
import ModalCursor.Rows
/-!
# ModalCursor.Motion

A **motion** is a step that a count repeats: one row, one column, one word, one paragraph, or one occurrence
of a character. `Motion.step` is the single step, `Motion.run` the counted one. A counted motion stops early at
the first step that does not move, so a count far past the size of the text costs nothing.
-/

namespace ModalCursor

/-- The ways to search a row for a character. -/
inductive Search
  /-- To the next occurrence. -/
  | findForward
  /-- To the previous occurrence. -/
  | findBackward
  /-- To the column before the next occurrence. -/
  | tillForward
  /-- To the column after the previous occurrence. -/
  | tillBackward
  deriving DecidableEq, Repr

/-- The column that a search for `ch` reaches. -/
def Search.col (r : Row) (ch : Char) : Search → Nat → Nat
  | findForward => r.findForward ch
  | findBackward => r.findBackward ch
  | tillForward => r.tillForward ch
  | tillBackward => r.tillBackward ch

/-- A step that a count repeats. -/
inductive Motion
  | down
  | up
  | left
  | right
  | wordNext
  | wordEnd
  | wordPrev
  /-- To an occurrence of a character on the row. -/
  | search (way : Search) (ch : Char)
  /-- To the separating row above. -/
  | paragraphUp
  /-- To the separating row below. -/
  | paragraphDown
  deriving DecidableEq, Repr

/-- Takes up to `n` steps, and stops at the first that leads back to the same value. A step may fail, be counted, or
have whatever other effect `m` stands for. -/
@[specialize] def settleM {m : Type → Type} [Monad m] {α : Type} [DecidableEq α] (step : α → m α) : Nat → α → m α
  | 0, a => pure a
  | n + 1, a => do
      let next ← step a
      if next = a then return a else settleM step n next

/-- Applies `f` up to `n` times, and stops at the first value that `f` leaves as it is. -/
def settle {α : Type} [DecidableEq α] (f : α → α) (n : Nat) (a : α) : α := settleM (m := Id) f n a

namespace Motion

/-- The motion's single step. Motions on a row leave the row number, motions between rows the column. -/
def step (b : Buffer) (p : Position) : Motion → Position
  | down => p.withRow (Rows.down b.rowCount p.row)
  | up => p.withRow (Rows.up p.row)
  | left => p.withCol (Row.left p.col)
  | right => p.withCol ((b.row p.row).right p.col)
  | wordNext => b.nextWordStart p
  | wordEnd => b.nextWordEnd p
  | wordPrev => b.prevWordStart p
  | search way ch => p.withCol (way.col (b.row p.row) ch p.col)
  | paragraphUp => p.withRow (b.paragraphUp p.row)
  | paragraphDown => p.withRow (b.paragraphDown p.row)

/-- The motion repeated `n` times, or until it no longer moves. -/
def run (b : Buffer) (m : Motion) (n : Nat) (p : Position) : Position :=
  settle (fun q => m.step b q) n p

/-- Goes from row to row and leaves the column to be restored. -/
def isVertical : Motion → Bool
  | down | up | paragraphUp | paragraphDown => true
  | _ => false

/-- Leaves a trace in the jump mark: paragraph motions do. -/
def isJump : Motion → Bool
  | paragraphUp | paragraphDown => true
  | _ => false

end Motion

/-! ### Stopping early -/

section Settle

variable {α : Type} [DecidableEq α] (f : α → α)

@[simp] theorem settle_zero (a : α) : settle f 0 a = a := rfl

/-- Here a step is nothing but `f`. -/
theorem settle_step (n : Nat) (a : α) : settle f (n + 1) a = if f a = a then a else settle f n (f a) := rfl

theorem settle_of_fixed {a : α} (h : f a = a) (n : Nat) : settle f n a = a := by
  cases n with
  | zero => rfl
  | succ n => rw [settle_step, if_pos h]

/-- Stopping early changes nothing: the result is that of the full number of steps. -/
theorem settle_succ (n : Nat) (a : α) : settle f (n + 1) a = settle f n (f a) := by
  by_cases h : f a = a
  · rw [settle_of_fixed f h, h, settle_of_fixed f h]
  · rw [settle_step, if_neg h]

/-- What a single step keeps, any number of steps keeps. -/
theorem settle_induction {P : α → Prop} (step : ∀ a, P a → P (f a)) {a : α} (h : P a) (n : Nat) :
    P (settle f n a) := by
  induction n generalizing a with
  | zero => exact h
  | succ n ih =>
      rw [settle_succ]
      exact ih (step a h)

end Settle

end ModalCursor
