import ModalCursor.Cursor
/-!
# ModalCursor.Proofs.Bounds

**Where a step can end.** Every motion, and every command, keeps the row in the text, whatever the column is. A
motion that is not vertical also keeps a position that the text holds on a character of its row. A vertical one
leaves the column alone, and its row depends on the row only: this is what lets a counted vertical motion ignore
the columns it passes.

The position that a step leaves behind is one that it may come back to: `Cursor.jumps` says which commands save it as
the jump mark.
-/

namespace ModalCursor

/-! ### Searches stay on the row -/

namespace Row

variable {r : Row} {ch : Char} {col : Nat}

theorem next?_bounds {c : Nat} (h : r.next? ch col = some c) : col < c ∧ c ≤ r.lastCol := by
  obtain ⟨hlt, hch, -⟩ := next?_eq_some_iff.mp h
  obtain ⟨hc, -⟩ := List.getElem?_eq_some_iff.mp hch
  rw [lastCol]
  omega

theorem prev?_lt {c : Nat} (h : r.prev? ch col = some c) : c < col :=
  (prev?_eq_some_iff.mp h).1

end Row

namespace Search

variable {way : Search} {r : Row} {ch : Char} {col : Nat}

/-- Looks to the right. -/
def isForward : Search → Bool
  | findForward | tillForward => true
  | findBackward | tillBackward => false

/-- A search to the right does not go back, and from a column of the row it does not leave the row. -/
theorem col_bounds (hway : way.isForward = true) : col ≤ way.col r ch col ∧ way.col r ch col ≤ max col r.lastCol := by
  cases way with
  | findBackward | tillBackward => simp [isForward] at hway
  | findForward =>
      cases hc : r.next? ch col with
      | none =>
          simp only [Search.col, Row.findForward, hc, Option.getD_none]
          omega
      | some c =>
          have hbounds := Row.next?_bounds hc
          simp only [Search.col, Row.findForward, hc, Option.getD_some]
          omega
  | tillForward =>
      cases hc : r.next? ch col with
      | none =>
          simp only [Search.col, Row.tillForward, hc, Option.map_none, Option.getD_none]
          omega
      | some c =>
          have hbounds := Row.next?_bounds hc
          simp only [Search.col, Row.tillForward, hc, Option.map_some, Option.getD_some]
          omega

/-- A search to the left does not go ahead. -/
theorem col_le (hway : way.isForward = false) : way.col r ch col ≤ col := by
  cases way with
  | findForward | tillForward => simp [isForward] at hway
  | findBackward =>
      cases hc : r.prev? ch col with
      | none => simp [Search.col, Row.findBackward, hc]
      | some c => simpa [Search.col, Row.findBackward, hc] using Nat.le_of_lt (Row.prev?_lt hc)
  | tillBackward =>
      cases hc : r.prev? ch col with
      | none => simp [Search.col, Row.tillBackward, hc]
      | some c => simpa [Search.col, Row.tillBackward, hc] using Nat.succ_le_of_lt (Row.prev?_lt hc)

theorem col_le_lastCol (h : col ≤ r.lastCol) (ch : Char) (way : Search) : way.col r ch col ≤ r.lastCol := by
  cases hway : way.isForward with
  | true => exact Nat.le_trans (col_bounds hway).2 (Nat.max_le.mpr ⟨h, Nat.le_refl _⟩)
  | false => exact Nat.le_trans (col_le hway) h

end Search

/-! ### Word motions and rows -/

namespace Buffer

variable {b : Buffer} {p : Position}

theorem nextWordStart_row_lt (h : p.row < b.rowCount) : (b.nextWordStart p).row < b.rowCount := by
  rw [nextWordStart]
  split
  · next edge =>
      have := b.lastRow_lt
      simp only
      omega
  · exact h

theorem nextWordEnd_row_lt (h : p.row < b.rowCount) : (b.nextWordEnd p).row < b.rowCount := by
  rw [nextWordEnd]
  split
  · next edge =>
      have := b.lastRow_lt
      simp only
      omega
  · exact h

theorem prevWordStart_row_lt (h : p.row < b.rowCount) : (b.prevWordStart p).row < b.rowCount := by
  rw [prevWordStart]
  split
  · simp only
    omega
  · exact h

end Buffer

/-! ### Motions -/

namespace Motion

variable {b : Buffer} {m : Motion} {p : Position}

theorem step_row_lt (h : p.row < b.rowCount) : (m.step b p).row < b.rowCount := by
  cases m with
  | down => exact Rows.down_lt h
  | up => exact Nat.lt_of_le_of_lt (Rows.up_le _) h
  | left | right | search => exact h
  | wordNext => exact Buffer.nextWordStart_row_lt h
  | wordEnd => exact Buffer.nextWordEnd_row_lt h
  | wordPrev => exact Buffer.prevWordStart_row_lt h
  | paragraphUp => exact b.paragraphUp_lt _
  | paragraphDown => exact Nat.lt_of_le_of_lt (b.paragraphDown_le_lastRow _) b.lastRow_lt

theorem run_row_lt (h : p.row < b.rowCount) (n : Nat) : (m.run b n p).row < b.rowCount :=
  settle_induction (P := fun q : Position => q.row < b.rowCount) _ (fun _ => step_row_lt) h n

/-- A motion on the row, or along the text, stays on characters. -/
theorem step_holds (hm : m.isVertical = false) (h : b.Holds p) : b.Holds (m.step b p) := by
  cases m with
  | down | up | paragraphUp | paragraphDown => simp [isVertical] at hm
  | left => exact ⟨h.1, Nat.le_trans (Nat.sub_le _ _) h.2⟩
  | right => exact ⟨h.1, Row.right_le_lastCol h.2⟩
  | wordNext => exact Buffer.nextWordStart_holds h
  | wordEnd => exact Buffer.nextWordEnd_holds h
  | wordPrev => exact Buffer.prevWordStart_holds h
  | search way ch => exact ⟨h.1, Search.col_le_lastCol h.2 ch way⟩

theorem run_holds (hm : m.isVertical = false) (h : b.Holds p) (n : Nat) : b.Holds (m.run b n p) :=
  settle_induction _ (fun _ => step_holds hm) h n

/-- A vertical step neither reads nor writes the column. -/
theorem step_withCol (hm : m.isVertical = true) (col : Nat) :
    m.step b (p.withCol col) = (m.step b p).withCol col := by
  cases m with
  | down | up | paragraphUp | paragraphDown => rfl
  | _ => simp [isVertical] at hm

theorem step_col (hm : m.isVertical = true) : (m.step b p).col = p.col := by
  cases m with
  | down | up | paragraphUp | paragraphDown => rfl
  | _ => simp [isVertical] at hm

end Motion

/-! ### Commands -/

namespace Cursor

variable {b : Buffer} {c : Command} {s : Cursor}

theorem rowHead_row_lt (b : Buffer) (row : Nat) : (rowHead b row).row < b.rowCount :=
  Rows.goTo_lt b.rowCount_pos _

/-- Whatever the marks are, a command keeps the cursor's row in the text. -/
theorem run_row_lt (h : s.position.row < b.rowCount) : (s.run b c).position.row < b.rowCount := by
  have hgoto : ∀ target, Rows.goTo b.rowCount target < b.rowCount := Rows.goTo_lt b.rowCount_pos
  unfold run
  cases c.action with
  | move m =>
      dsimp only
      split
      · exact Motion.run_row_lt h _
      · exact Motion.run_row_lt h _
  | first | last | goto => exact hgoto _
  | firstNonBlank | lineStart | lineEnd | setMark => exact h
  | jumpToMark name =>
      dsimp only
      cases s.marks.get? name with
      | none => exact h
      | some mark => exact hgoto _
  | jumpToMarkLine name =>
      dsimp only
      cases s.marks.get? name with
      | none => exact h
      | some mark => exact rowHead_row_lt b mark.row
  | jumpPrevLine =>
      simp only [JumpMark.swap]
      cases s.jump.saved with
      | none => exact h
      | some origin => exact rowHead_row_lt b origin.row

/-- From here the command is a jump. A jump to a mark needs the mark to be set, and the way back needs a position to
go back to. -/
def jumps (s : Cursor) (c : Command) : Bool :=
  match c.action with
  | .first | .last | .goto | .move .paragraphUp | .move .paragraphDown => true
  | .jumpToMark name | .jumpToMarkLine name => (s.marks.get? name).isSome
  | .jumpPrevLine => s.jump.saved.isSome
  | _ => false

/-- Motions jump between paragraphs only. -/
theorem jumps_move (s : Cursor) (m : Motion) (count : Option Nat) : s.jumps ⟨.move m, count⟩ = m.isJump := by
  cases m <;> rfl

/-- A jump puts the position it started from into the jump mark, and every other command keeps the mark. -/
theorem run_jump_saved (b : Buffer) (c : Command) (s : Cursor) :
    (s.run b c).jump.saved = if s.jumps c then some s.position else s.jump.saved := by
  obtain ⟨a, count⟩ := c
  rw [run]
  cases a with
  | move m =>
      rw [jumps_move]
      dsimp only
      split <;> rfl
  | first | last | goto => rfl
  | firstNonBlank | lineStart | lineEnd | setMark => rfl
  | jumpToMark name | jumpToMarkLine name =>
      cases hmark : s.marks.get? name with
      | none => simp [jumps, hmark]
      | some mark => simp [jumps, hmark, jumpTo, JumpMark.record]
  | jumpPrevLine =>
      -- The swap leaves the position before it, as a jump does.
      cases hsaved : s.jump.saved with
      | none => simp [jumps, hsaved, JumpMark.swap]
      | some origin => simp [jumps, hsaved, JumpMark.swap]

end Cursor

end ModalCursor
