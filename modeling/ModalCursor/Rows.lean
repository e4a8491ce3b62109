/-!
# ModalCursor.Rows

Moving between **row numbers** of a text that has `total` rows. Rows count from zero, so the last one is
`total - 1`.
-/

namespace ModalCursor.Rows

/-- One row down, but not past the last. A row past the end stays. -/
def down (total row : Nat) : Nat :=
  if row + 1 < total then row + 1 else row

/-- One row up, but not past the first. -/
def up (row : Nat) : Nat := row - 1

/-- The row `target`, brought into the text: a negative target is the first row, one past the end the last. -/
def goTo (total : Nat) (target : Int) : Nat := min target.toNat (total - 1)

theorem down_lt {total row : Nat} (h : row < total) : down total row < total := by
  rw [down]
  split <;> omega

theorem up_le (row : Nat) : up row ≤ row := Nat.sub_le _ _

theorem goTo_lt {total : Nat} (h : 0 < total) (target : Int) : goTo total target < total := by
  rw [goTo]
  omega

/-- A target inside the text is where `goTo` goes. -/
theorem goTo_of_lt {total row : Nat} (h : row < total) : goTo total row = row := by
  rw [goTo]
  omega

end ModalCursor.Rows
