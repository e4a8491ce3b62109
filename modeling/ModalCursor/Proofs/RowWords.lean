import ModalCursor.Proofs.NoFaults
/-!
# ModalCursor.Proofs.RowWords

**On its row, a word motion is that of the row alone.** A motion over several rows leaves its row from the edge, where a
neighbouring row is, and ends everywhere else on the column that the row alone leads to (`Buffer.StaysUnless`). So the
two may only differ where the row alone leads to its edge, and in a text of one row they do not differ at all.

This holds from anywhere. The column may lie past the end of the row, where a scan to the right does not move and a
scan to the left begins at the last column, and a row that is missing reads as empty. A machine only has to be able to
look at the next column for the motions to the right.
-/

namespace ModalCursor

namespace Row

variable {r : Row} {col : Nat}

/-! ### The edges of a row -/

/-- To the left, a column past the end counts as the last one. -/
theorem toPrevWord_min (r : Row) (col : Nat) : r.toPrevWord (min col r.lastCol) = r.toPrevWord col := by
  unfold toPrevWord
  rw [Nat.min_assoc, Nat.min_self]

theorem toPrevWord_eq_zero_iff : r.toPrevWord col = 0 ↔ ∀ s, ¬ r.InkBehind (min col r.lastCol) s := by
  rw [← toPrevWord_min]
  constructor
  · intro hzero s hs
    have hle := hs.le_toPrevWord (Nat.min_le_right _ _)
    exact Nat.not_lt_of_le (hzero ▸ hle) hs.1
  · exact toPrevWord_eq_zero

theorem lastCol_le_nextWordStart (h : ∀ c, ¬ r.StartsAhead col c) : r.lastCol ≤ r.nextWordStart col :=
  Nat.sub_le_of_le_add ((r.findsFirst_nextWordStart col).edge_le h)

theorem lastCol_le_nextWordEnd (h : ∀ s, ¬ r.InkAhead col s) : r.lastCol ≤ r.nextWordEnd col :=
  Nat.le_trans (Nat.sub_le_of_le_add ((r.findsFirst_toNextWord col).edge_le h)) (r.le_wordEndFrom _)

theorem prevWordStart_eq_zero (h : ∀ s, ¬ r.InkBehind (min col r.lastCol) s) : r.prevWordStart col = 0 := by
  rw [prevWordStart, toPrevWord_eq_zero_iff.mpr h]
  exact Nat.le_zero.mp (r.wordStartFrom_le 0)

end Row

namespace Buffer

variable {b : Buffer} {p q : Position} {edge : Prop} {col beyond : Nat}

/-! ### Staying and leaving -/

/-- A motion from `p` to `q` leaves for the row `beyond` where `edge` holds. Otherwise it stays on the row and ends
at `col`. -/
inductive StaysUnless (edge : Prop) (p q : Position) (col beyond : Nat) : Prop
  | stays (hedge : ¬ edge) (hq : q = p.withCol col) : StaysUnless edge p q col beyond
  | leaves (hedge : edge) (hrow : q.row = beyond) : StaysUnless edge p q col beyond

namespace StaysUnless

theorem eq_withCol (h : StaysUnless edge p q col beyond) (hedge : ¬ edge) : q = p.withCol col := by
  cases h with
  | stays _ hq => exact hq
  | leaves hleft _ => exact absurd hleft hedge

theorem row_ne_iff (h : StaysUnless edge p q col beyond) (hbeyond : edge → beyond ≠ p.row) : q.row ≠ p.row ↔ edge := by
  cases h with
  | stays hedge hq =>
      rw [hq, Position.withCol_row]
      exact iff_of_false (fun hne => hne rfl) hedge
  | leaves hedge hrow =>
      rw [hrow]
      exact iff_of_true (hbeyond hedge) hedge

/-- Where it leaves, whatever the edge says about the row holds. -/
theorem eq_or_leaves {P : Prop} (h : StaysUnless edge p q col beyond) (hP : edge → P) :
    q = p.withCol col ∨ q.row = beyond ∧ P := by
  cases h with
  | stays _ hq => exact Or.inl hq
  | leaves hedge hrow => exact Or.inr ⟨hrow, hP hedge⟩

/-- So the motion agrees with the one to `col`, if there is no such edge in a text of one row. -/
theorem agrees {P : Prop} (h : StaysUnless edge p q col beyond) (hP : edge → P) (hbeyond : edge → beyond ≠ p.row)
    (hone : b.rowCount = 1 → p.row = 0 → ¬ edge) :
    (q = p.withCol col ∨ q.row = beyond ∧ P) ∧ (q.row ≠ p.row ↔ edge) ∧
      (b.rowCount = 1 → p.row = 0 → q = ⟨0, col⟩) := by
  refine ⟨h.eq_or_leaves hP, h.row_ne_iff hbeyond, fun hcount hfirst => ?_⟩
  have hcol : p.withCol col = ⟨0, col⟩ := Position.ext hfirst rfl
  rw [← hcol]
  exact h.eq_withCol (hone hcount hfirst)

end StaysUnless

/-- A text of one row has no row after its first. -/
theorem not_lt_lastRow (hone : b.rowCount = 1) : ¬ p.row < b.lastRow := by
  rw [lastRow]
  omega

theorem nextWordStart_staysUnless (b : Buffer) (p : Position) :
    StaysUnless (p.row < b.lastRow ∧ ∀ c, ¬ (b.row p.row).StartsAhead p.col c) p (b.nextWordStart p)
      ((b.row p.row).nextWordStart p.col) (p.row + 1) := by
  rw [← ((b.row p.row).findsFirst_nextWordStart p.col).edge_le_iff, nextWordStart]
  split
  · next hcross => exact .leaves hcross.symm rfl
  · next hstay => exact .stays (fun hedge => hstay hedge.symm) rfl

theorem nextWordEnd_staysUnless (b : Buffer) (p : Position) :
    StaysUnless (p.row < b.lastRow ∧ ∀ s, ¬ (b.row p.row).InkAhead p.col s) p (b.nextWordEnd p)
      ((b.row p.row).nextWordEnd p.col) (p.row + 1) := by
  rw [← ((b.row p.row).findsFirst_toNextWord p.col).edge_le_iff, nextWordEnd]
  split
  · next hcross => exact .leaves hcross.symm rfl
  · next hstay => exact .stays (fun hedge => hstay hedge.symm) rfl

theorem prevWordStart_staysUnless (b : Buffer) (p : Position) :
    StaysUnless (0 < p.row ∧ ∀ s, ¬ (b.row p.row).InkBehind (min p.col (b.lastCol p.row)) s) p (b.prevWordStart p)
      ((b.row p.row).prevWordStart p.col) (p.row - 1) := by
  rw [lastCol, ← Row.toPrevWord_eq_zero_iff, prevWordStart]
  split
  · next hcross => exact .leaves hcross.symm rfl
  · next hstay => exact .stays (fun hedge => hstay hedge.symm) rfl

end Buffer

/-! ### One row and several -/

namespace Machine

variable {M : Machine} {b : Buffer}

/-- **Word motions on one row and over several agree.** Let a machine count the rows and the columns of a text, and let
a position lie anywhere, also outside the text, where a missing row reads as empty. For the next start and the next end
of a word let its column be below the largest number of a word; the previous start is had from every column. Then the
machine takes both motions without a fault, that over several rows and that of the row alone. The first either ends on
the row where the second does, or goes to the neighbouring row. Forward it goes there only from a row before the last,
where the row alone leads to its last column or past it, and back only from a row after the first, where the row alone
leads to its first column. It goes there exactly where the row has nothing more to go to: no further start of a word and
no further ink before the last column, no ink behind the cursor after the first. So in a text of one row the two are the
same. -/
theorem word_motions_agree_on_row (hb : M.Counts b) (p : Position) :
    let row := b.row p.row
    (b.rowCount ≤ p.row → row = []) ∧
      (p.col < M.largest →
        ∃ start col, M.nextWordStart b p = .ok start ∧ M.rowNextWordStart row p.col = .ok col ∧
          (start = p.withCol col ∨ start.row = p.row + 1 ∧ p.row < b.lastRow ∧ row.lastCol ≤ col) ∧
          (start.row ≠ p.row ↔ p.row < b.lastRow ∧ ∀ c, ¬ row.StartsAhead p.col c) ∧
          (b.rowCount = 1 → p.row = 0 → start = ⟨0, col⟩)) ∧
      (p.col < M.largest →
        ∃ stop col, M.nextWordEnd b p = .ok stop ∧ M.rowNextWordEnd row p.col = .ok col ∧
          (stop = p.withCol col ∨ stop.row = p.row + 1 ∧ p.row < b.lastRow ∧ row.lastCol ≤ col) ∧
          (stop.row ≠ p.row ↔ p.row < b.lastRow ∧ ∀ s, ¬ row.InkAhead p.col s) ∧
          (b.rowCount = 1 → p.row = 0 → stop = ⟨0, col⟩)) ∧
      ∃ prev col, prevWordStart b p = .ok prev ∧ rowPrevWordStart row p.col = .ok col ∧
        (prev = p.withCol col ∨ prev.row = p.row - 1 ∧ 0 < p.row ∧ col = 0) ∧
        (prev.row ≠ p.row ↔ 0 < p.row ∧ ∀ s, ¬ row.InkBehind (min p.col row.lastCol) s) ∧
        (b.rowCount = 1 → p.row = 0 → prev = ⟨0, col⟩) := by
  intro row
  have hlength : row.length ≤ M.largest := hb.length_row_le p.row
  have hstart := b.nextWordStart_staysUnless p
  have hstop := b.nextWordEnd_staysUnless p
  have hprev := b.prevWordStart_staysUnless p
  refine ⟨Buffer.row_eq_nil_of_le, fun hcol => ?start, fun hcol => ?stop, ?prev⟩
  case start =>
    refine ⟨_, _, nextWordStart_eq hb hcol, rowNextWordStart_eq hcol hlength, hstart.agrees ?_ ?_ ?_⟩
    · exact fun hedge => ⟨hedge.1, Row.lastCol_le_nextWordStart hedge.2⟩
    · exact fun _ => Nat.succ_ne_self _
    · exact fun hone _ hedge => Buffer.not_lt_lastRow hone hedge.1
  case stop =>
    refine ⟨_, _, nextWordEnd_eq hb hcol, rowNextWordEnd_eq hcol hlength, hstop.agrees ?_ ?_ ?_⟩
    · exact fun hedge => ⟨hedge.1, Row.lastCol_le_nextWordEnd hedge.2⟩
    · exact fun _ => Nat.succ_ne_self _
    · exact fun hone _ hedge => Buffer.not_lt_lastRow hone hedge.1
  case prev =>
    refine ⟨_, _, prevWordStart_eq b p, rowPrevWordStart_eq row p.col, hprev.agrees ?_ ?_ ?_⟩
    · exact fun hedge => ⟨hedge.1, Row.prevWordStart_eq_zero hedge.2⟩
    · exact fun hedge => Nat.ne_of_lt (Nat.sub_one_lt_of_lt hedge.1)
    · exact fun _ hfirst hedge => Nat.ne_of_gt hedge.1 hfirst

/-- A word of one character at the end of the row is where the row alone leads to, but with a row below it is passed.
From the largest column there still is a previous start of a word. -/
theorem word_motions_agree_on_row_short_word :
    let b := Buffer.ofWhole ['f', 'o', 'o', ' ', 'b', '\n', 'n']
    word64.Counts b ∧
      (∃ start col, word64.nextWordStart b ⟨0, 0⟩ = .ok start ∧ word64.rowNextWordStart (b.row 0) 0 = .ok col ∧
        start.row = 1 ∧ (b.row 0).lastCol ≤ col) ∧
      ∃ prev col, prevWordStart b ⟨0, Numeral.largest⟩ = .ok prev ∧
        rowPrevWordStart (b.row 0) Numeral.largest = .ok col ∧ prev = ⟨0, col⟩ := by
  intro b
  have hb : word64.Counts b := by decide
  refine ⟨hb, ?_, ?_⟩
  · obtain ⟨-, hstart, -⟩ := word_motions_agree_on_row hb ⟨0, 0⟩
    obtain ⟨start, col, hover, halone, hends, -⟩ := hstart (by decide)
    have hrow : start.row = 1 := by
      rw [Except.ok.inj (hover.symm.trans (nextWordStart_eq hb (by decide)))]
      decide
    rcases hends with hstays | ⟨-, -, hedge⟩
    · rw [hstays] at hrow
      cases hrow
    · exact ⟨start, col, hover, halone, hrow, hedge⟩
  · obtain ⟨-, -, -, prev, col, hover, halone, hends, -⟩ := word_motions_agree_on_row hb ⟨0, Numeral.largest⟩
    exact ⟨prev, col, hover, halone, hends.resolve_right fun hleft => Nat.lt_irrefl 0 hleft.2.1⟩

/-- At the largest column of a text of one row, neither motion has an end for the other to agree with. -/
theorem not_agreeing_at_largest_column :
    let b := Buffer.ofWhole ['a', 'b', 'a']
    let p : Position := ⟨0, Numeral.largest⟩
    word64.Counts b ∧ b.rowCount = 1 ∧ word64.nextWordStart b p = .error .tooLarge ∧
      ¬ ∃ start col, word64.nextWordStart b p = .ok start ∧ word64.rowNextWordStart (b.row 0) p.col = .ok col ∧
        start = ⟨0, col⟩ := by
  intro b p
  have hfault : word64.nextWordStart b p = .error .tooLarge :=
    step_eq_error (m := .wordNext) rfl (Nat.le_refl Numeral.largest) b
  refine ⟨by decide, by decide, hfault, ?_⟩
  rintro ⟨start, col, hover, -⟩
  rw [hfault] at hover
  cases hover

end Machine

end ModalCursor
