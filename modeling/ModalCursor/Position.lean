/-!
# ModalCursor.Position

A **position** in a text: a row and a column, both counted from zero. Columns count characters.
Positions are ordered row first, then column.
-/

namespace ModalCursor

/-- A row and a column, both counted from zero. -/
structure Position where
  row : Nat
  col : Nat
  deriving DecidableEq, Repr

namespace Position

def origin : Position := ⟨0, 0⟩

def withCol (p : Position) (col : Nat) : Position := ⟨p.row, col⟩

def withRow (p : Position) (row : Nat) : Position := ⟨row, p.col⟩

@[simp] theorem withCol_row (p : Position) (c : Nat) : (p.withCol c).row = p.row := rfl
@[simp] theorem withCol_col (p : Position) (c : Nat) : (p.withCol c).col = c := rfl
@[simp] theorem withRow_row (p : Position) (r : Nat) : (p.withRow r).row = r := rfl
@[simp] theorem withRow_col (p : Position) (r : Nat) : (p.withRow r).col = p.col := rfl

@[ext] protected theorem ext {a b : Position} (hr : a.row = b.row) (hc : a.col = b.col) :
    a = b := by
  cases a
  cases b
  simp_all

/-! ### Order -/

/-- An earlier row comes first; on one row, an earlier column. -/
instance : LT Position := ⟨fun a b => a.row < b.row ∨ (a.row = b.row ∧ a.col < b.col)⟩

/-- Not after: the same position or an earlier one. -/
instance : LE Position := ⟨fun a b => a.row < b.row ∨ (a.row = b.row ∧ a.col ≤ b.col)⟩

theorem lt_def {a b : Position} : a < b ↔ a.row < b.row ∨ (a.row = b.row ∧ a.col < b.col) :=
  Iff.rfl

theorem le_def {a b : Position} : a ≤ b ↔ a.row < b.row ∨ (a.row = b.row ∧ a.col ≤ b.col) :=
  Iff.rfl

instance (a b : Position) : Decidable (a < b) :=
  inferInstanceAs (Decidable (a.row < b.row ∨ (a.row = b.row ∧ a.col < b.col)))

instance (a b : Position) : Decidable (a ≤ b) :=
  inferInstanceAs (Decidable (a.row < b.row ∨ (a.row = b.row ∧ a.col ≤ b.col)))

instance : Ord Position := ⟨fun a b => compareOfLessAndEq a b⟩

/-- The later of two positions. -/
instance : Max Position := ⟨fun a b => if a < b then b else a⟩

theorem lt_irrefl (a : Position) : ¬ a < a := by
  rw [lt_def]
  omega

theorem lt_trans {a b c : Position} (hab : a < b) (hbc : b < c) : a < c := by
  rw [lt_def] at *
  omega

/-- Of two positions, one comes first or they are the same. -/
theorem lt_trichotomy (a b : Position) : a < b ∨ a = b ∨ b < a := by
  rw [Position.ext_iff, lt_def, lt_def]
  omega

theorem le_refl (a : Position) : a ≤ a := Or.inr ⟨rfl, Nat.le_refl _⟩

theorem le_of_lt {a b : Position} (h : a < b) : a ≤ b := by
  rw [lt_def] at h
  rw [le_def]
  omega

theorem lt_of_le_of_ne {a b : Position} (hle : a ≤ b) (hne : a ≠ b) : a < b := by
  rw [Ne, Position.ext_iff] at hne
  rw [le_def] at hle
  rw [lt_def]
  omega

/-! ### Moved to another column or row -/

section Moved

variable {p : Position} {n : Nat}

theorem le_withCol (h : p.col ≤ n) : p ≤ p.withCol n := Or.inr ⟨rfl, h⟩

theorem withCol_le (h : n ≤ p.col) : p.withCol n ≤ p := Or.inr ⟨rfl, h⟩

theorem le_withRow (h : p.row ≤ n) : p ≤ p.withRow n := by
  rw [le_def, withRow_row, withRow_col]
  omega

theorem withRow_le (h : n ≤ p.row) : p.withRow n ≤ p := by
  rw [le_def, withRow_row, withRow_col]
  omega

end Moved

/-! ### Written forms -/

/-- The position as a reader counts: rows and columns from one, as in `3:14`. -/
def text (p : Position) : String :=
  toString (p.row + 1) ++ ":" ++ toString (p.col + 1)

/-- The position as it is stored: `Pos(2:13)`, counted from zero. -/
def storedText (p : Position) : String :=
  "Pos(" ++ toString p.row ++ ":" ++ toString p.col ++ ")"

end Position

end ModalCursor
