import ModalCursor.Position
import ModalCursor.Row
import ModalCursor.Text.Quoted
import ModalCursor.Text.WhiteSpace
/-!
# ModalCursor.Buffer

A **buffer** is a text held as its rows. There is always at least one row, although it may be empty.

A row ends at a line feed, at a carriage return, or at the two together, which are one ending. No other
character ends a row. Splitting keeps what follows the last ending as a row of its own, so a text that ends in
a line ending has an empty last row. `Buffer.ofText?` drops the line endings at the end of the text first,
`Buffer.ofLines?` keeps everything.
-/

namespace ModalCursor

/-- Ends a row, alone or as part of a pair. -/
def isRowEnd (c : Char) : Bool := c == '\n' || c == '\r'

theorem isRowEnd_iff {ch : Char} : isRowEnd ch = true ↔ ch = '\n' ∨ ch = '\r' := by
  simp [isRowEnd]

/-- The rows of a text, without their endings. -/
def splitRows : Text → List Row
  | [] => [[]]
  | '\r' :: '\n' :: rest => [] :: splitRows rest
  | '\n' :: rest => [] :: splitRows rest
  | '\r' :: rest => [] :: splitRows rest
  | c :: rest => (splitRows rest).modifyHead (c :: ·)

theorem splitRows_ne_nil (t : Text) : splitRows t ≠ [] := by
  fun_induction splitRows t with
  | case1 => simp
  | case2 => simp
  | case3 => simp
  | case4 => simp
  | case5 c rest _ _ _ ih =>
      cases h : splitRows rest with
      | nil => exact absurd h ih
      | cons row rows => simp

/-- A text as its rows, of which there is at least one. -/
structure Buffer where
  rows : List Row
  rows_ne_nil : rows ≠ []
  deriving DecidableEq

namespace Buffer

/-! ### Making a buffer -/

/-- The buffer that holds the whole of a text. -/
def ofWhole (t : Text) : Buffer := ⟨splitRows t, splitRows_ne_nil t⟩

/-- The buffer of a text without the line endings at its end, or none when nothing else is in it. -/
def ofText? (t : Text) : Option Buffer :=
  match t.dropEndWhile isRowEnd with
  | [] => none
  | kept => some (ofWhole kept)

/-- The buffer of some lines, joined by line feeds, or none without a line. A line may hold line endings. -/
def ofLines? : List Text → Option Buffer
  | [] => none
  | lines => some (ofWhole (List.intercalate ['\n'] lines))

/-! ### Reading rows -/

def rowCount (b : Buffer) : Nat := b.rows.length

def lastRow (b : Buffer) : Nat := b.rowCount - 1

/-- The row with this number, if there is one. -/
def row? (b : Buffer) (n : Nat) : Option Row := b.rows[n]?

/-- The row with this number. A missing row reads as empty. -/
def row (b : Buffer) (n : Nat) : Row := (b.row? n).getD []

/-- The number of characters of a row, zero for a missing one. -/
def rowLength (b : Buffer) (n : Nat) : Nat := (b.row n).length

/-- The last column of a row, zero for an empty or missing one. -/
def lastCol (b : Buffer) (n : Nat) : Nat := (b.row n).lastCol

/-- The row exists and holds nothing but white space, so that it separates paragraphs. -/
def isBreak (b : Buffer) (n : Nat) : Bool := (b.row? n).any fun row => row.all isWhiteSpace

/-- The position is a character of the text, or the first column of an empty row. -/
def Holds (b : Buffer) (p : Position) : Prop := p.row < b.rowCount ∧ p.col ≤ b.lastCol p.row

instance (b : Buffer) (p : Position) : Decidable (b.Holds p) :=
  inferInstanceAs (Decidable (p.row < b.rowCount ∧ p.col ≤ b.lastCol p.row))

/-- The rows as a bracketed list of quoted texts. -/
def text (b : Buffer) : String :=
  "[" ++ String.intercalate ", " (b.rows.map quotedText) ++ "]"

/-! ### Rows and their numbers -/

theorem rowCount_pos (b : Buffer) : 0 < b.rowCount :=
  List.length_pos_iff.mpr b.rows_ne_nil

theorem lastRow_lt (b : Buffer) : b.lastRow < b.rowCount := by
  have := b.rowCount_pos
  rw [lastRow]
  omega

theorem le_lastRow {b : Buffer} {n : Nat} (h : n < b.rowCount) : n ≤ b.lastRow :=
  Nat.le_sub_one_of_lt h

theorem row?_eq_none_iff {b : Buffer} {n : Nat} : b.row? n = none ↔ b.rowCount ≤ n :=
  List.getElem?_eq_none_iff

/-- A missing row reads as empty. -/
theorem row_eq_nil_of_le {b : Buffer} {n : Nat} (h : b.rowCount ≤ n) : b.row n = [] := by
  rw [row, row?_eq_none_iff.mpr h]
  rfl

/-- There is no buffer exactly when the text holds nothing but line endings. -/
theorem ofText?_eq_none_iff {t : Text} :
    ofText? t = none ↔ ∀ c ∈ t, isRowEnd c = true := by
  rw [ofText?, ← Text.dropEndWhile_eq_nil_iff]
  cases t.dropEndWhile isRowEnd <;> simp

end Buffer

end ModalCursor
