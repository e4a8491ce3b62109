import ModalCursor.Proofs.SavedPositions
import ModalCursor.Proofs.Vertical
/-!
# ModalCursor.Proofs.Clamping

**Counted steps and jumps to a row are clamped arithmetic.** A counted motion along the rows, or along the columns of
a row, takes one step after the other and stops at the edge of the text. Its end is that of plain arithmetic over the
integers: the count is added or taken away at once, and the result brought back into the text. The jumps to a row do
arithmetic on the row's number to begin with, also where the number is far past the last row or before the first.

A number may have to fit a signed word before it is brought into the text, so that a larger one is cut down first
(`Rows.signed`). Where such a word can count the rows of the text, this makes no difference (`Rows.goTo_signed_sub`).
-/

namespace ModalCursor

/-! ### Row numbers -/

namespace Rows

variable {total : Nat} {back : Int}

/-- Brought into the text from above and from below. -/
theorem goTo_eq_clamp (total : Nat) (target : Int) :
    (goTo total target : Int) = min (max target 0) ((total - 1 : Nat) : Int) := by
  unfold goTo
  omega

/-- The largest number that a signed word of 64 bits holds, which is one less than two to the power of 63. -/
def largestSigned : Nat := UInt64.size / 2 - 1

/-- A row's number in such a word, which holds no larger one. -/
def signed (row : Nat) : Int := min row largestSigned

/-- What is cut down to fit the word is past the last row before and after. -/
theorem goTo_signed_sub (htotal : total ≤ largestSigned) (hback : back ≤ 1) (row : Nat) :
    goTo total (signed row - back) = goTo total (row - back) := by
  unfold goTo signed
  omega

theorem goTo_signed (htotal : total ≤ largestSigned) (row : Nat) : goTo total (signed row) = goTo total row := by
  have hsub := goTo_signed_sub htotal (by decide : (0 : Int) ≤ 1) row
  rwa [Int.sub_zero, Int.sub_zero] at hsub

end Rows

/-! ### Columns of counted motions -/

namespace Motion

variable {b : Buffer} {p : Position}

/-- Counted to the right, but not past the last column. -/
theorem run_right (h : b.Holds p) (n : Nat) :
    Motion.right.run b n p = p.withCol (min (p.col + n) (b.lastCol p.row)) := by
  induction n with
  | zero =>
      have hcol : min (p.col + 0) (b.lastCol p.row) = p.col := Nat.min_eq_left h.2
      rw [hcol]
      rfl
  | succ n ih =>
      have hright : (b.row p.row).right (min (p.col + n) (b.lastCol p.row)) = min (p.col + (n + 1)) (b.lastCol p.row) := by
        unfold Buffer.lastCol Row.lastCol Row.right
        split <;> omega
      rw [run_succ, ih, step, Position.withCol_row, Position.withCol_col, hright]
      rfl

/-- Counted to the left, but not past the first column. -/
theorem run_left (b : Buffer) (p : Position) (n : Nat) : Motion.left.run b n p = p.withCol (p.col - n) := by
  induction n with
  | zero => rfl
  | succ n ih =>
      rw [run_succ, ih, step, Position.withCol_col, Row.left, Nat.sub_sub]
      rfl

end Motion

namespace Cursor

variable {b : Buffer} {s : Cursor} {count : Option Nat} {n : Nat}

/-! ### Commands -/

theorem run_last_row (b : Buffer) (s : Cursor) (count : Option Nat) :
    (s.run b ⟨.last, count⟩).position.row = b.lastRow := by
  have hpos := b.rowCount_pos
  show min ((b.rowCount : Int) - 1).toNat (b.rowCount - 1) = b.rowCount - 1
  omega

/-- A command that jumps to a row by its number ends on that row, also if the number has to fit a signed word. -/
theorem run_goto_signed (hrows : b.rowCount ≤ Rows.largestSigned) (s : Cursor) (count : Option Nat) :
    (s.run b ⟨.goto, count⟩).position.row = Rows.goTo b.rowCount (Rows.signed (count.getD 1) - 1) :=
  (Rows.goTo_signed_sub hrows (Int.le_refl 1) _).symm

theorem run_last_signed (hrows : b.rowCount ≤ Rows.largestSigned) (s : Cursor) (count : Option Nat) :
    (s.run b ⟨.last, count⟩).position.row = Rows.goTo b.rowCount (Rows.signed b.rowCount - 1) :=
  (Rows.goTo_signed_sub hrows (Int.le_refl 1) _).symm

theorem run_return_signed (hrows : b.rowCount ≤ Rows.largestSigned) {r : Return} {p : Position} (hp : r.saved? s = some p)
    (count : Option Nat) :
    (s.run b ⟨r.action, count⟩).position.row = Rows.goTo b.rowCount (Rows.signed p.row) := by
  rw [Rows.goTo_signed hrows]
  exact run_return_row hp count

/-- **Counted steps and jumps to a row are clamped arithmetic.** In a text whose rows a signed word of 64 bits can
count, let the cursor be on a position of the text, and let a count ask for `n` steps. Over the integers, the motions
down and right add `n` to the row and to the column, but do not go past the last one, and the motions up and left take
`n` away, but do not go before the first. The other coordinate stays. The jump to a row takes one from the count and
brings the result into the text, whatever the count is, and without a count it goes to the first row. Going back to a
saved position leads to its row, or to the last one where that is further up. All these rows are the same if the
numbers are held in signed words before they are brought into the text. -/
theorem counted_commands_clamp (hrows : b.rowCount ≤ Rows.largestSigned) (h : b.Holds s.position)
    (hn : Command.AsksFor count n) :
    let row : Int := s.position.row
    let col : Int := s.position.col
    let lastRow : Int := b.lastRow
    let lastCol : Int := max (b.rowLength s.position.row - 1) 0
    let after : Action → Position := fun a => (s.run b ⟨a, count⟩).position
    ((after (.move .down)).row = min (row + n) lastRow ∧ (after (.move .down)).col = col) ∧
      ((after (.move .up)).row = max (row - n) 0 ∧ (after (.move .up)).col = col) ∧
      ((after (.move .right)).row = row ∧ (after (.move .right)).col = min (col + n) lastCol) ∧
      ((after (.move .left)).row = row ∧ (after (.move .left)).col = max (col - n) 0) ∧
      (∀ m : Nat, count = some m → (after .goto).row = min (max ((m : Int) - 1) 0) lastRow) ∧
      (count = none → (after .goto).row = 0) ∧
      ((after .first).row = 0 ∧ (after .last).row = lastRow) ∧
      (∀ (r : Return) (p : Position), r.saved? s = some p → (after r.action).row = min (p.row : Int) lastRow) ∧
      ((after .goto).row = Rows.goTo b.rowCount (Rows.signed (count.getD 1) - 1) ∧
        (after .last).row = Rows.goTo b.rowCount (Rows.signed b.rowCount - 1) ∧
        ∀ (r : Return) (p : Position), r.saved? s = some p →
          (after r.action).row = Rows.goTo b.rowCount (Rows.signed p.row)) := by
  intro row col lastRow lastCol after
  have hafter : ∀ m : Motion, after (.move m) = m.run b n s.position := fun m => hn.run_move b m s
  refine ⟨?down, ?up, ?right, ?left, ?goto, ?uncounted, ?ends, ?returns, ?words⟩
  case down =>
    rw [hafter, Motion.run_down h.1]
    refine ⟨?_, rfl⟩
    show ((min (s.position.row + n) b.lastRow : Nat) : Int) = min ((s.position.row : Int) + n) b.lastRow
    omega
  case up =>
    rw [hafter, Motion.run_up]
    refine ⟨?_, rfl⟩
    show ((s.position.row - n : Nat) : Int) = max ((s.position.row : Int) - n) 0
    omega
  case right =>
    rw [hafter, Motion.run_right h]
    refine ⟨rfl, ?_⟩
    show ((min (s.position.col + n) ((b.row s.position.row).length - 1) : Nat) : Int) =
      min ((s.position.col : Int) + n) (max ((b.row s.position.row).length - 1) 0)
    omega
  case left =>
    rw [hafter, Motion.run_left]
    refine ⟨rfl, ?_⟩
    show ((s.position.col - n : Nat) : Int) = max ((s.position.col : Int) - n) 0
    omega
  case goto =>
    intro m hm
    subst hm
    exact Rows.goTo_eq_clamp _ _
  case uncounted =>
    intro hnone
    subst hnone
    rfl
  case ends => exact ⟨rfl, congrArg Nat.cast (run_last_row b s count)⟩
  case returns =>
    intro r p hp
    show (((s.run b ⟨r.action, count⟩).position.row : Nat) : Int) = _
    rw [run_return_row hp]
    show ((min p.row b.lastRow : Nat) : Int) = min (p.row : Int) b.lastRow
    omega
  case words =>
    exact ⟨run_goto_signed hrows s count, run_last_signed hrows s count, fun r p hp => run_return_signed hrows hp count⟩

/-- From the middle of the first row, with the largest count, a mark on a row that the text does not have, and a jump mark
past the end of an empty row. -/
theorem counted_commands_clamp_largest :
    let b := Buffer.ofWhole ['a', 'b', 'c', '\n', '\n', 'd']
    let s : Cursor := ⟨⟨0, 1⟩, Marks.empty.set 'm' ⟨9, 4⟩, ⟨some ⟨1, 8⟩⟩⟩
    let after : Action → Position := fun a => (s.run b ⟨a, some Numeral.largest⟩).position
    b.rowCount ≤ Rows.largestSigned ∧ b.Holds s.position ∧ Command.AsksFor (some Numeral.largest) Numeral.largest ∧
      ((after (.move .down)).row : Int) = 2 ∧ ((after (.move .right)).col : Int) = 2 ∧
      ((after (.move .left)).col : Int) = 0 ∧ ((after .goto).row : Int) = 2 ∧
      ((after (.jumpToMarkLine 'm')).row : Int) = 2 ∧ ((after .jumpPrevLine).row : Int) = 1 := by
  intro b s after
  have hrows : b.rowCount ≤ Rows.largestSigned := by decide
  have hholds : b.Holds s.position := by decide
  have hcount : Command.AsksFor (some Numeral.largest) Numeral.largest := .counted (by decide)
  obtain ⟨hdown, -, hright, hleft, hgoto, -, -, hreturn, -⟩ := counted_commands_clamp hrows hholds hcount
  exact ⟨hrows, hholds, hcount, hdown.1.trans (by decide), hright.2.trans (by decide), hleft.2.trans (by decide),
    (hgoto _ rfl).trans (by decide), (hreturn (.toMarkRow 'm') ⟨9, 4⟩ (by decide)).trans (by decide),
    (hreturn .toPrevRow ⟨1, 8⟩ rfl).trans (by decide)⟩

end Cursor

end ModalCursor
