import ModalCursor.Buffer
/-!
# ModalCursor.Buffer.Paragraphs

**Paragraph motions**: to the nearest row above or below that separates paragraphs, or to the first or last
row when there is none.
-/

namespace ModalCursor.Buffer

/-- Does not separate paragraphs. -/
def inParagraph (r : Row) : Bool := !r.all isWhiteSpace

/-- The nearest separating row above `row`, or the first row. A row past the end looks up from the end. -/
def paragraphUp (b : Buffer) (row : Nat) : Nat :=
  let above := b.rows.take row
  above.length - 1 - (above.reverse.takeWhile inParagraph).length

/-- The nearest separating row below `row`, or the last row. A row past the end is brought back to the last. -/
def paragraphDown (b : Buffer) (row : Nat) : Nat :=
  min (row + 1 + ((b.rows.drop (row + 1)).takeWhile inParagraph).length) b.lastRow

theorem paragraphUp_le (b : Buffer) (row : Nat) : b.paragraphUp row ≤ row - 1 := by
  rw [paragraphUp, List.length_take]
  omega

theorem paragraphUp_lt (b : Buffer) (row : Nat) : b.paragraphUp row < b.rowCount := by
  have := b.rowCount_pos
  rw [paragraphUp, List.length_take]
  rw [rowCount] at *
  omega

theorem paragraphDown_le_lastRow (b : Buffer) (row : Nat) : b.paragraphDown row ≤ b.lastRow :=
  Nat.min_le_right _ _

end ModalCursor.Buffer
