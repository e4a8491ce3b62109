import ModalCursor.Buffer.Paragraphs
import Mathlib.Order.Bounds.Basic
/-!
# ModalCursor.Proofs.Paragraphs

**Paragraph motions go to the nearest separating row, and undo each other.** What a motion passes is a run of rows of
one paragraph, and it stops where that run ends: on a separating row, or at the latest on the row that the text ends
with in its direction (`Buffer.StopsAt`). So the motion down ends on the least such row below, and the motion up on the
greatest one above.

The rows where the two motions stop are the same but for the first and the last row of the text. That is why the way
back from a stop leads to the row that the motion started from, if that is a stop as well.
-/

namespace ModalCursor.Buffer

variable {b : Buffer} {row n : Nat}

/-- A paragraph motion stops at this row, because it separates paragraphs, or because it is the `edge`, the last row of
the text in the motion's direction. -/
def StopsAt (b : Buffer) (edge n : Nat) : Prop := b.isBreak n = true ∨ n = edge

theorem isBreak_of_row {r : Row} (hr : b.rows[n]? = some r) : b.isBreak n = !inParagraph r := by
  simp [isBreak, row?, hr, inParagraph]

/-! ### The stop below -/

/-- What the motion down passes is in a paragraph. -/
theorem not_isBreak_of_lt_paragraphDown (hlt : row < n) (hn : n < b.paragraphDown row) : b.isBreak n = false := by
  unfold paragraphDown at hn
  obtain ⟨r, hr, hin⟩ := Text.getElem?_of_lt_takeWhile (i := n - (row + 1)) (p := inParagraph)
    (t := b.rows.drop (row + 1)) (by omega)
  rw [List.getElem?_drop, Nat.add_sub_cancel' hlt] at hr
  rw [isBreak_of_row hr, hin]
  rfl

theorem stopsAt_paragraphDown (b : Buffer) (row : Nat) : b.StopsAt b.lastRow (b.paragraphDown row) := by
  rcases Nat.lt_or_eq_of_le (b.paragraphDown_le_lastRow row) with hlt | hlast
  · -- Before the last row only a separating row ends the run.
    have hrun : b.paragraphDown row = row + 1 + ((b.rows.drop (row + 1)).takeWhile inParagraph).length := by
      unfold paragraphDown at hlt ⊢
      omega
    obtain ⟨r, hr⟩ : ∃ r, b.rows[b.paragraphDown row]? = some r :=
      ⟨_, List.getElem?_eq_getElem (Nat.lt_trans hlt b.lastRow_lt)⟩
    have hstop : inParagraph r = false := by
      refine Text.not_of_getElem?_takeWhile (t := b.rows.drop (row + 1)) ?_
      rw [List.getElem?_drop, ← hrun, hr]
    refine Or.inl ?_
    rw [isBreak_of_row hr, hstop]
    rfl
  · exact Or.inr hlast

theorem isLeast_paragraphDown (h : row < b.lastRow) :
    IsLeast {n | row < n ∧ b.StopsAt b.lastRow n} (b.paragraphDown row) := by
  have hbelow : row < b.paragraphDown row := by
    unfold paragraphDown
    omega
  refine ⟨⟨hbelow, b.stopsAt_paragraphDown row⟩, ?_⟩
  intro n hn
  refine Nat.le_of_not_lt fun hpassed => ?_
  rcases hn.2 with hbreak | hlast
  · rw [not_isBreak_of_lt_paragraphDown hn.1 hpassed] at hbreak
    exact Bool.false_ne_true hbreak
  · have hle := b.paragraphDown_le_lastRow row
    omega

theorem paragraphDown_lastRow (b : Buffer) : b.paragraphDown b.lastRow = b.lastRow := by
  unfold paragraphDown
  omega

/-! ### The stop above -/

theorem length_take_rows (h : row ≤ b.lastRow) : (b.rows.take row).length = row :=
  List.length_take_of_le (Nat.le_trans h (Nat.sub_le _ _))

/-- From a row of the text, the motion goes to the row above and as many rows further as the run there is long. -/
theorem paragraphUp_eq (h : row ≤ b.lastRow) :
    b.paragraphUp row = row - 1 - ((b.rows.take row).reverse.takeWhile inParagraph).length := by
  simp only [paragraphUp, length_take_rows h]

/-- What the motion up passes is in a paragraph. -/
theorem not_isBreak_of_paragraphUp_lt (h : row ≤ b.lastRow) (hn : b.paragraphUp row < n) (hlt : n < row) :
    b.isBreak n = false := by
  have hlength := length_take_rows h
  rw [paragraphUp_eq h] at hn
  obtain ⟨r, hr, hin⟩ := Text.getElem?_of_le_endRun (i := n) (p := inParagraph) (t := b.rows.take row)
    (by omega) (by omega)
  rw [List.getElem?_take_of_lt hlt] at hr
  rw [isBreak_of_row hr, hin]
  rfl

theorem stopsAt_paragraphUp (h : row ≤ b.lastRow) : b.StopsAt 0 (b.paragraphUp row) := by
  rcases Nat.eq_zero_or_pos (b.paragraphUp row) with hfirst | hpos
  · exact Or.inr hfirst
  · -- After the first row only a separating row ends the run.
    have hlength := length_take_rows h
    have hle := b.paragraphUp_le row
    obtain ⟨r, hr⟩ : ∃ r, b.rows[b.paragraphUp row]? = some r :=
      ⟨_, List.getElem?_eq_getElem (b.paragraphUp_lt row)⟩
    have hstop : inParagraph r = false := by
      refine Text.not_of_getElem?_endRun (i := b.paragraphUp row) (t := b.rows.take row) ?_ ?_
      · rw [paragraphUp_eq h] at hpos ⊢
        omega
      · rw [List.getElem?_take_of_lt (by omega), hr]
    refine Or.inl ?_
    rw [isBreak_of_row hr, hstop]
    rfl

theorem isGreatest_paragraphUp (hpos : 0 < row) (h : row ≤ b.lastRow) :
    IsGreatest {n | n < row ∧ b.StopsAt 0 n} (b.paragraphUp row) := by
  have hle := b.paragraphUp_le row
  refine ⟨⟨by omega, stopsAt_paragraphUp h⟩, ?_⟩
  intro n hn
  refine Nat.le_of_not_lt fun hpassed => ?_
  rcases hn.2 with hbreak | hfirst
  · rw [not_isBreak_of_paragraphUp_lt h hpassed hn.1] at hbreak
    exact Bool.false_ne_true hbreak
  · omega

theorem paragraphUp_zero (b : Buffer) : b.paragraphUp 0 = 0 :=
  Nat.le_zero.mp (b.paragraphUp_le 0)

/-! ### There and back -/

/-- Between a stop and the next one below no row separates paragraphs, so the way back does not stop earlier. -/
theorem paragraphUp_paragraphDown (h : row < b.lastRow) (hstop : b.StopsAt 0 row) :
    b.paragraphUp (b.paragraphDown row) = row := by
  obtain ⟨⟨hbelow, -⟩, hleast⟩ := isLeast_paragraphDown h
  have hup := isGreatest_paragraphUp (Nat.zero_lt_of_lt hbelow) (b.paragraphDown_le_lastRow row)
  refine hup.unique ⟨⟨hbelow, hstop⟩, ?_⟩
  intro n hn
  refine Nat.le_of_not_lt fun hbetween => ?_
  have hbreak : b.isBreak n = true := hn.2.resolve_right (Nat.ne_zero_of_lt hbetween)
  exact Nat.not_le_of_lt hn.1 (hleast ⟨hbetween, Or.inl hbreak⟩)

theorem paragraphDown_paragraphUp (hpos : 0 < row) (h : row ≤ b.lastRow) (hstop : b.StopsAt b.lastRow row) :
    b.paragraphDown (b.paragraphUp row) = row := by
  obtain ⟨⟨habove, -⟩, hgreatest⟩ := isGreatest_paragraphUp hpos h
  have hdown := isLeast_paragraphDown (Nat.lt_of_lt_of_le habove h)
  refine hdown.unique ⟨⟨habove, hstop⟩, ?_⟩
  intro n hn
  refine Nat.le_of_not_lt fun hbetween => ?_
  have hbreak : b.isBreak n = true := hn.2.resolve_right (Nat.ne_of_lt (Nat.lt_of_lt_of_le hbetween h))
  exact Nat.not_le_of_lt hn.1 (hgreatest ⟨hbetween, Or.inl hbreak⟩)

/-- **Paragraph motions find the nearest break.** From a row of the text, the motion down goes to the least row below
that separates paragraphs or is the last one, and stays on the last row. The motion up goes to the greatest row above
that separates paragraphs or is the first one, and stays on the first row. From a separating row or the first one, the
motion up undoes the motion down, unless that cannot move. From a separating row or the last one, the motion down undoes
the motion up in the same way. -/
theorem paragraph_motions_nearest (h : row ≤ b.lastRow) :
    (row < b.lastRow → IsLeast {n | row < n ∧ (b.isBreak n = true ∨ n = b.lastRow)} (b.paragraphDown row)) ∧
      (row = b.lastRow → b.paragraphDown row = row) ∧
      (0 < row → IsGreatest {n | n < row ∧ (b.isBreak n = true ∨ n = 0)} (b.paragraphUp row)) ∧
      (row = 0 → b.paragraphUp row = 0) ∧
      (row < b.lastRow → b.isBreak row = true ∨ row = 0 → b.paragraphUp (b.paragraphDown row) = row) ∧
      (0 < row → b.isBreak row = true ∨ row = b.lastRow → b.paragraphDown (b.paragraphUp row) = row) := by
  refine ⟨isLeast_paragraphDown, ?_, fun hpos => isGreatest_paragraphUp hpos h, ?_, paragraphUp_paragraphDown,
    fun hpos => paragraphDown_paragraphUp hpos h⟩
  · intro hlast
    rw [hlast]
    exact b.paragraphDown_lastRow
  · intro hfirst
    rw [hfirst]
    exact b.paragraphUp_zero

/-- Over two separating rows next to each other, the second of white space, to the last row and back. -/
theorem paragraph_motions_nearest_adjacent :
    let b := ofWhole ['a', '\n', '\n', ' ', '\t', '\n', 'b']
    0 ≤ b.lastRow ∧ 3 ≤ b.lastRow ∧
      IsLeast {n | 0 < n ∧ (b.isBreak n = true ∨ n = b.lastRow)} (b.paragraphDown 0) ∧
      b.paragraphDown 3 = 3 ∧
      b.paragraphUp (b.paragraphDown 1) = 1 ∧
      b.paragraphDown (b.paragraphUp 3) = 3 := by
  intro b
  obtain ⟨hleast, -⟩ := paragraph_motions_nearest (show 0 ≤ b.lastRow by decide)
  obtain ⟨-, -, -, -, hback, -⟩ := paragraph_motions_nearest (show 1 ≤ b.lastRow by decide)
  obtain ⟨-, hlast, -, -, -, hforth⟩ := paragraph_motions_nearest (show 3 ≤ b.lastRow by decide)
  exact ⟨by decide, by decide, hleast (by decide), hlast (by decide), hback (by decide) (by decide),
    hforth (by decide) (by decide)⟩

end ModalCursor.Buffer
