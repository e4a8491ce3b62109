import ModalCursor.Row
/-!
# ModalCursor.Row.Search

**Character search** on a row: the nearest occurrence of a character to the right or to the left of a column.
*Finding* lands on the occurrence, *till* stops one column short of it. A search without an occurrence leaves
the column as it is.
-/

namespace ModalCursor.Row

/-- The least column to the right of `col` that holds `ch`. -/
def next? (r : Row) (ch : Char) (col : Nat) : Option Nat :=
  ((r.drop (col + 1)).findIdx? (· == ch)).map (· + (col + 1))

/-- The greatest column to the left of `col` that holds `ch`. -/
def prev? (r : Row) (ch : Char) (col : Nat) : Option Nat :=
  let before := r.take col
  (before.reverse.findIdx? (· == ch)).map (before.length - 1 - ·)

def findForward (r : Row) (ch : Char) (col : Nat) : Nat := (r.next? ch col).getD col

def findBackward (r : Row) (ch : Char) (col : Nat) : Nat := (r.prev? ch col).getD col

def tillForward (r : Row) (ch : Char) (col : Nat) : Nat := ((r.next? ch col).map (· - 1)).getD col

def tillBackward (r : Row) (ch : Char) (col : Nat) : Nat := ((r.prev? ch col).map (· + 1)).getD col

/-! ### What a search finds -/

/-- The next occurrence is to the right, holds the character, and none is between. -/
theorem next?_eq_some_iff {r : Row} {ch : Char} {col c : Nat} :
    r.next? ch col = some c ↔
      col < c ∧ r[c]? = some ch ∧ ∀ d, col < d → d < c → r[d]? ≠ some ch := by
  simp only [next?, Option.map_eq_some_iff, List.findIdx?_eq_some_iff_getElem, List.length_drop,
    List.getElem_drop, beq_iff_eq]
  constructor
  · rintro ⟨i, ⟨hi, hch, hmin⟩, rfl⟩
    refine ⟨by omega, ?_, ?_⟩
    · rw [List.getElem?_eq_getElem (by omega)]
      simpa [Nat.add_comm i] using hch
    · intro d hd hdi hdc
      obtain ⟨hlt, hdc⟩ := List.getElem?_eq_some_iff.mp hdc
      refine hmin (d - (col + 1)) (by omega) ?_
      simpa [show col + 1 + (d - (col + 1)) = d by omega] using hdc
  · rintro ⟨hlt, hch, hmin⟩
    obtain ⟨hc, hch⟩ := List.getElem?_eq_some_iff.mp hch
    refine ⟨c - (col + 1), ⟨by omega, ?_, ?_⟩, by omega⟩
    · simpa [show col + 1 + (c - (col + 1)) = c by omega] using hch
    · intro j hj hjc
      refine hmin (col + 1 + j) (by omega) (by omega) ?_
      rw [List.getElem?_eq_getElem (by omega), hjc]

/-- The previous occurrence is to the left, holds the character, and none is between. -/
theorem prev?_eq_some_iff {r : Row} {ch : Char} {col c : Nat} :
    r.prev? ch col = some c ↔
      c < col ∧ r[c]? = some ch ∧ ∀ d, c < d → d < col → r[d]? ≠ some ch := by
  simp only [prev?, Option.map_eq_some_iff, List.findIdx?_eq_some_iff_getElem, List.length_reverse,
    List.length_take, List.getElem_reverse, List.getElem_take, beq_iff_eq]
  constructor
  · rintro ⟨i, ⟨hi, hch, hmin⟩, rfl⟩
    refine ⟨by omega, ?_, ?_⟩
    · rw [List.getElem?_eq_getElem (by omega)]
      simpa using hch
    · intro d hd hdc hdch
      obtain ⟨hlt, hdch⟩ := List.getElem?_eq_some_iff.mp hdch
      refine hmin (min col r.length - 1 - d) (by omega) ?_
      simpa [show min col r.length - 1 - (min col r.length - 1 - d) = d by omega] using hdch
  · rintro ⟨hlt, hch, hmax⟩
    obtain ⟨hc, hch⟩ := List.getElem?_eq_some_iff.mp hch
    refine ⟨min col r.length - 1 - c, ⟨by omega, ?_, ?_⟩, by omega⟩
    · simpa [show min col r.length - 1 - (min col r.length - 1 - c) = c by omega] using hch
    · intro j hj hjc
      refine hmax (min col r.length - 1 - j) (by omega) (by omega) ?_
      rw [List.getElem?_eq_getElem (by omega), hjc]

end ModalCursor.Row
