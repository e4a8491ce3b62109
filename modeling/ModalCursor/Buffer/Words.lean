import ModalCursor.Buffer
import ModalCursor.Row.Words
/-!
# ModalCursor.Buffer.Words

**Word motions** over a whole text. Each works on its row as long as the row's scan finds a word before the
edge; from the edge it goes to the neighbouring row, one row at most. On the last row (the first, for the
motion to the left) it stays on the row.
-/

namespace ModalCursor.Buffer

/-- The start of the next word, or the first ink of the next row. -/
def nextWordStart (b : Buffer) (p : Position) : Position :=
  let row := b.row p.row
  let col := row.nextWordStart p.col
  if row.length ≤ col + 1 ∧ p.row < b.lastRow then
    ⟨p.row + 1, (b.row (p.row + 1)).firstInk⟩
  else
    p.withCol col

/-- The end of the next word, or the end of the first word of the next row. -/
def nextWordEnd (b : Buffer) (p : Position) : Position :=
  let row := b.row p.row
  let col := row.toNextWord p.col
  if row.length ≤ col + 1 ∧ p.row < b.lastRow then
    let next := b.row (p.row + 1)
    ⟨p.row + 1, next.wordEndFrom next.firstInk⟩
  else
    p.withCol (row.wordEndFrom col)

/-- The start of the previous word, or the start of the ink that ends the previous row. -/
def prevWordStart (b : Buffer) (p : Position) : Position :=
  let row := b.row p.row
  let col := row.toPrevWord p.col
  if col = 0 ∧ 0 < p.row then
    let prev := b.row (p.row - 1)
    ⟨p.row - 1, prev.wordStartFrom prev.lastCol⟩
  else
    p.withCol (row.wordStartFrom col)

/-! ### The motions stay in the text -/

theorem nextWordStart_holds {b : Buffer} {p : Position} (h : b.Holds p) :
    b.Holds (b.nextWordStart p) := by
  rw [nextWordStart]
  split
  · next edge => exact ⟨by have := b.lastRow_lt; simp only; omega, Row.firstInk_le_lastCol _⟩
  · exact ⟨h.1, Row.nextWordStart_le_lastCol h.2⟩

theorem nextWordEnd_holds {b : Buffer} {p : Position} (h : b.Holds p) :
    b.Holds (b.nextWordEnd p) := by
  rw [nextWordEnd]
  split
  · next edge =>
      exact ⟨by have := b.lastRow_lt; simp only; omega,
        Row.wordEndFrom_le_lastCol (Row.firstInk_le_lastCol _)⟩
  · exact ⟨h.1, Row.wordEndFrom_le_lastCol (Row.toNextWord_le_lastCol h.2)⟩

theorem prevWordStart_holds {b : Buffer} {p : Position} (h : b.Holds p) :
    b.Holds (b.prevWordStart p) := by
  have hrow := h.1
  rw [prevWordStart]
  split
  · exact ⟨by simp only; omega, Row.wordStartFrom_le _ _⟩
  · have hto := Row.toPrevWord_le (b.row p.row) p.col
    have hfrom := Row.wordStartFrom_le (b.row p.row) ((b.row p.row).toPrevWord p.col)
    exact ⟨hrow, by rw [Position.withCol_col, Position.withCol_row, lastCol]; omega⟩

end ModalCursor.Buffer
