import ModalCursor.Row
/-!
# ModalCursor.Row.Words

**Word scans** on a row. A word is a run of ink between blanks. A scan goes to the next word's start, the
next word's end or the previous word's start. It cannot leave the row: a forward scan that finds no further
word ends at the last column, a backward one at the first.

The scans come in two parts, because a motion over several rows has to know where the first part ended before
it extends: `toNextWord` and `toPrevWord` reach a word, `wordEndFrom` and `wordStartFrom` go to its far end.
-/

namespace ModalCursor.Row

/-! ### Reaching a word -/

/-- Over the rest of the word at `col`, then over the blanks that follow. -/
def nextWordStart (r : Row) (col : Nat) : Nat := r.advance isBlank (r.advance isInk col)

/-- One column to the right, then over blanks. -/
def toNextWord (r : Row) (col : Nat) : Nat := r.advance isBlank (r.right col)

/-- One column to the left, then over blanks down to the first column. A column past the end counts as the
last one. -/
def toPrevWord (r : Row) (col : Nat) : Nat :=
  let start := min col r.lastCol - 1
  start - ((r.take (start + 1)).tail.reverse.takeWhile isBlank).length

/-! ### The ends of a word -/

/-- To the right as long as the next character is ink. -/
def wordEndFrom (r : Row) (col : Nat) : Nat :=
  col + ((r.drop (col + 1)).takeWhile isInk).length

/-- To the left as long as the character before is ink. -/
def wordStartFrom (r : Row) (col : Nat) : Nat :=
  col - ((r.take col).reverse.takeWhile isInk).length

def nextWordEnd (r : Row) (col : Nat) : Nat := r.wordEndFrom (r.toNextWord col)

def prevWordStart (r : Row) (col : Nat) : Nat := r.wordStartFrom (r.toPrevWord col)

/-! ### The scans stay on the row -/

theorem le_right (r : Row) (col : Nat) : col ≤ r.right col := by
  rw [right]
  split <;> omega

theorem right_of_lt {r : Row} {col : Nat} (h : col + 1 < r.length) : r.right col = col + 1 := if_pos h

theorem right_le_lastCol {r : Row} {col : Nat} (h : col ≤ r.lastCol) : r.right col ≤ r.lastCol := by
  rw [right]
  rw [lastCol] at *
  split <;> omega

theorem nextWordStart_le_lastCol {r : Row} {col : Nat} (h : col ≤ r.lastCol) :
    r.nextWordStart col ≤ r.lastCol :=
  advance_le_lastCol (advance_le_lastCol h)

theorem toNextWord_le_lastCol {r : Row} {col : Nat} (h : col ≤ r.lastCol) :
    r.toNextWord col ≤ r.lastCol :=
  advance_le_lastCol (right_le_lastCol h)

theorem toPrevWord_le (r : Row) (col : Nat) : r.toPrevWord col ≤ min col r.lastCol - 1 :=
  Nat.sub_le _ _

theorem wordStartFrom_le (r : Row) (col : Nat) : r.wordStartFrom col ≤ col :=
  Nat.sub_le _ _

theorem le_wordEndFrom (r : Row) (col : Nat) : col ≤ r.wordEndFrom col :=
  Nat.le_add_right _ _

theorem wordEndFrom_le_lastCol {r : Row} {col : Nat} (h : col ≤ r.lastCol) :
    r.wordEndFrom col ≤ r.lastCol := by
  have hle := (List.takeWhile_prefix isInk (l := r.drop (col + 1))).length_le
  rw [List.length_drop] at hle
  rw [wordEndFrom]
  rw [lastCol] at *
  omega

end ModalCursor.Row
