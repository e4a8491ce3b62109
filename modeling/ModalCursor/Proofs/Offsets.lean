import ModalCursor.Buffer
import Mathlib.Algebra.BigOperators.Group.Finset.Sigma
import Mathlib.Algebra.Order.BigOperators.Group.Finset
import Mathlib.Data.Set.Card
/-!
# ModalCursor.Proofs.Offsets

**Positions in the order of the text.** A row has one position for each of its characters, and an empty row has one
all the same. `Buffer.size` adds them up, and `Buffer.offset` says how many of them come before a position. So the
offset turns the order of positions into the order of numbers below the size, which bounds every walk through the
text that goes one way.
-/

namespace ModalCursor.Buffer

variable {b : Buffer} {p q : Position}

/-- How many positions a row has. -/
def rowSize (b : Buffer) (n : Nat) : Nat := max 1 (b.rowLength n)

/-- How many positions the first `n` rows have. -/
def sizeAbove (b : Buffer) (n : Nat) : Nat := ∑ k ∈ Finset.range n, b.rowSize k

/-- How many positions the text has. -/
def size (b : Buffer) : Nat := ∑ k ∈ Finset.range b.rowCount, b.rowSize k

/-- How many positions of the text come before `p`. -/
def offset (b : Buffer) (p : Position) : Nat := b.sizeAbove p.row + p.col

theorem sizeAbove_rowCount (b : Buffer) : b.sizeAbove b.rowCount = b.size := rfl

theorem sizeAbove_succ (b : Buffer) (n : Nat) : b.sizeAbove (n + 1) = b.sizeAbove n + b.rowSize n :=
  Finset.sum_range_succ _ n

theorem sizeAbove_mono (b : Buffer) : Monotone b.sizeAbove :=
  monotone_nat_of_le_succ fun n => by
    rw [sizeAbove_succ]
    exact Nat.le_add_right _ _

/-- Every row has a position. -/
theorem rowCount_le_size (b : Buffer) : b.rowCount ≤ b.size := by
  have hone : ∑ _k ∈ Finset.range b.rowCount, 1 ≤ b.size :=
    Finset.sum_le_sum fun _ _ => Nat.le_max_left _ _
  simpa using hone

/-- The columns of a row's positions are those below its size. -/
theorem le_lastCol_iff {n col : Nat} : col ≤ b.lastCol n ↔ col < b.rowSize n := by
  rw [lastCol, Row.lastCol, rowSize, rowLength]
  omega

theorem offset_lt_sizeAbove (h : b.Holds p) {n : Nat} (hn : p.row < n) : b.offset p < b.sizeAbove n := by
  have hcol : p.col < b.rowSize p.row := le_lastCol_iff.mp h.2
  have hmono : b.sizeAbove (p.row + 1) ≤ b.sizeAbove n := b.sizeAbove_mono hn
  rw [sizeAbove_succ] at hmono
  rw [offset]
  omega

theorem offset_lt_size (h : b.Holds p) : b.offset p < b.size := by
  rw [← sizeAbove_rowCount]
  exact offset_lt_sizeAbove h h.1

/-- A later position has a larger offset. Only the earlier one has to be in the text. -/
theorem offset_lt_offset (h : b.Holds p) (hlt : p < q) : b.offset p < b.offset q := by
  rcases hlt with hrow | ⟨hrow, hcol⟩
  · exact Nat.lt_of_lt_of_le (offset_lt_sizeAbove h hrow) (Nat.le_add_right _ _)
  · rw [offset, offset, hrow]
    omega

/-- The size is the number of positions: they are pairs of a row and a column. -/
theorem ncard_holds (b : Buffer) : {p | b.Holds p}.ncard = b.size := by
  let pairs := (Finset.range b.rowCount).sigma fun n => Finset.range (b.rowSize n)
  let position : (_ : Nat) × Nat → Position := fun x => ⟨x.1, x.2⟩
  have himage : {p | b.Holds p} = position '' pairs := by
    ext p
    simp only [pairs, position, Set.mem_ofPred_eq, Holds, le_lastCol_iff, Set.mem_image, Finset.mem_coe,
      Finset.mem_sigma, Finset.mem_range]
    constructor
    · intro h
      exact ⟨⟨p.row, p.col⟩, h, rfl⟩
    · intro h
      obtain ⟨x, hx, rfl⟩ := h
      exact hx
  have hinjective : Function.Injective position := by
    intro x y hxy
    rw [Position.mk.injEq] at hxy
    exact Sigma.ext hxy.1 (heq_of_eq hxy.2)
  calc {p | b.Holds p}.ncard = pairs.card := by
        rw [himage, Set.ncard_image_of_injective _ hinjective, Set.ncard_coe_finset]
    _ = ∑ n ∈ Finset.range b.rowCount, (Finset.range (b.rowSize n)).card := Finset.card_sigma _ _
    _ = b.size := Finset.sum_congr rfl fun n _ => Finset.card_range (b.rowSize n)

end ModalCursor.Buffer
