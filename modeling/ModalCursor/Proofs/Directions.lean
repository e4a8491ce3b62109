import ModalCursor.Proofs.Bounds
import ModalCursor.Proofs.WordLandings
/-!
# ModalCursor.Proofs.Directions

**Every motion goes one way.** The word motions do so from row to neighbouring row, and get stuck nowhere but at the
end of the text that they lead to (`Buffer.GoesOn`, `Buffer.GoesBack`). The other motions may stay elsewhere, such as a
search that finds nothing, but none of them turns round (`Motion.le_step`, `Motion.step_le`).
-/

namespace ModalCursor

/-! ### Scans that move -/

/-- A scan for a goal ahead moves, except at the edge. -/
theorem FindsFirst.lt_stop {goal : Nat → Prop} {edge stop col : Nat} (h : FindsFirst goal edge stop)
    (hahead : ∀ c, goal c → col < c) (hcol : col + 1 < edge) : col < stop := by
  rcases Nat.lt_or_ge (stop + 1) edge with hlt | hedge
  · exact hahead stop (h.goal_stop hlt)
  · omega

namespace Row

variable {r : Row} {col : Nat}

theorem le_nextWordStart (r : Row) (col : Nat) : col ≤ r.nextWordStart col :=
  Nat.le_trans (le_advance _ _ _) (le_advance _ _ _)

theorem le_toNextWord (r : Row) (col : Nat) : col ≤ r.toNextWord col :=
  Nat.le_trans (r.le_right col) (le_advance _ _ _)

theorem lt_nextWordStart (h : col + 1 < r.length) : col < r.nextWordStart col :=
  (r.findsFirst_nextWordStart col).lt_stop (fun _ hc => hc.1) h

theorem lt_toNextWord (h : col + 1 < r.length) : col < r.toNextWord col :=
  (r.findsFirst_toNextWord col).lt_stop (fun _ hc => hc.1) h

end Row

/-! ### From row to row -/

/-- What a step does that leads towards `goal`, where `further p q` says that `q` lies further on the way than `p`. -/
structure StepToward (further : Position → Position → Prop) (goal p q : Position) : Prop where
  /-- From anywhere else than the goal it gets further. -/
  moves : p ≠ goal → further p q
  /-- At the goal it stays. -/
  stays : p = goal → q = p
  /-- It does not go further than to a neighbouring row. -/
  near : q.row ≤ p.row + 1 ∧ p.row ≤ q.row + 1

/-- It gets stuck at the goal only. -/
theorem StepToward.eq_goal {further : Position → Position → Prop} {goal p q : Position}
    (h : StepToward further goal p q) (hirrefl : ¬ further p p) (hstuck : q = p) : p = goal := by
  by_cases hgoal : p = goal
  · exact hgoal
  · have hmoves := h.moves hgoal
    rw [hstuck] at hmoves
    exact absurd hmoves hirrefl

namespace Buffer

variable {b : Buffer} {p q : Position} {stop c : Nat}

/-- The last column of the last row. -/
def lastPosition (b : Buffer) : Position := ⟨b.lastRow, b.lastCol b.lastRow⟩

/-- What a step does that leads to the end of the text. -/
def GoesOn (b : Buffer) (p q : Position) : Prop := StepToward (fun p q => p < q) b.lastPosition p q

/-- What a step does that leads to the start of the text. -/
def GoesBack (p q : Position) : Prop := StepToward (fun p q => q < p) .origin p q

theorem GoesOn.le (h : b.GoesOn p q) : p ≤ q := by
  by_cases hlast : p = b.lastPosition
  · rw [h.stays hlast]
    exact Position.le_refl p
  · exact Position.le_of_lt (h.moves hlast)

theorem GoesBack.le (h : GoesBack p q) : q ≤ p := by
  by_cases hfirst : p = .origin
  · rw [h.stays hfirst]
    exact Position.le_refl p
  · exact Position.le_of_lt (h.moves hfirst)

/-- A motion that leaves for the next row. -/
theorem goesOn_below (hrow : p.row < b.lastRow) (hbelow : q.row = p.row + 1) : b.GoesOn p q where
  moves := fun _ => Or.inl (by omega)
  stays := by
    intro hlast
    rw [hlast] at hrow
    exact absurd hrow (Nat.lt_irrefl _)
  near := by omega

/-- A motion that does not leave the row. Its scan moves where there is a column to move to, and a scan at the edge of
a row before the last would have left. -/
theorem goesOn_withCol (h : b.Holds p) (hstay : ¬ ((b.row p.row).length ≤ stop + 1 ∧ p.row < b.lastRow))
    (hle : p.col ≤ stop) (hmoves : p.col + 1 < (b.row p.row).length → p.col < stop) (hstop : stop ≤ c)
    (hc : c ≤ b.lastCol p.row) : b.GoesOn p (p.withCol c) where
  moves := by
    intro hne
    refine Or.inr ⟨rfl, ?_⟩
    rcases Nat.lt_or_ge (p.col + 1) (b.row p.row).length with hinside | hedge
    · exact Nat.lt_of_lt_of_le (hmoves hinside) hstop
    · -- Only the last row has the scan end at its edge here, so the position is the last one.
      have hrow := le_lastRow h.1
      have hlast : p.row = b.lastRow := by omega
      have hend : p.col = b.lastCol p.row := by
        rw [lastCol, Row.lastCol] at *
        omega
      exact absurd (Position.ext hlast (hend.trans (congrArg b.lastCol hlast))) hne
  stays := by
    intro hlast
    have hend : p.col = b.lastCol p.row := by rw [hlast, lastPosition]
    exact Position.ext rfl (Nat.le_antisymm (hend ▸ hc) (Nat.le_trans hle hstop))
  near := ⟨Nat.le_succ _, Nat.le_succ _⟩

theorem goesOn_nextWordStart (h : b.Holds p) : b.GoesOn p (b.nextWordStart p) := by
  rw [nextWordStart]
  split
  · next hcross => exact goesOn_below hcross.2 rfl
  · next hstay =>
      exact goesOn_withCol h hstay (Row.le_nextWordStart _ _) Row.lt_nextWordStart (Nat.le_refl _)
        (Row.nextWordStart_le_lastCol h.2)

theorem goesOn_nextWordEnd (h : b.Holds p) : b.GoesOn p (b.nextWordEnd p) := by
  rw [nextWordEnd]
  split
  · next hcross => exact goesOn_below hcross.2 rfl
  · next hstay =>
      exact goesOn_withCol h hstay (Row.le_toNextWord _ _) Row.lt_toNextWord (Row.le_wordEndFrom _ _)
        (Row.wordEndFrom_le_lastCol (Row.toNextWord_le_lastCol h.2))

/-- A motion that leaves for the row above. -/
theorem goesBack_above (hrow : 0 < p.row) (habove : q.row = p.row - 1) : GoesBack p q where
  moves := fun _ => Or.inl (by omega)
  stays := by
    intro hfirst
    rw [hfirst] at hrow
    exact absurd hrow (Nat.lt_irrefl _)
  near := by omega

/-- A motion that does not leave the row. -/
theorem goesBack_withCol (hle : c ≤ p.col) (hmoves : p ≠ .origin → c < p.col) : GoesBack p (p.withCol c) where
  moves := fun hne => Or.inr ⟨rfl, hmoves hne⟩
  stays := by
    intro hfirst
    have hzero : p.col = 0 := by rw [hfirst, Position.origin]
    exact Position.ext rfl (Nat.le_antisymm hle (hzero ▸ Nat.zero_le c))
  near := ⟨Nat.le_succ _, Nat.le_succ _⟩

theorem goesBack_prevWordStart (b : Buffer) (p : Position) : GoesBack p (b.prevWordStart p) := by
  have hscan := (b.row p.row).toPrevWord_le p.col
  have hstart := (b.row p.row).wordStartFrom_le ((b.row p.row).toPrevWord p.col)
  rw [prevWordStart]
  split
  · next hcross => exact goesBack_above hcross.2 rfl
  · next hstay =>
      refine goesBack_withCol (by omega) fun hne => ?_
      -- The scan to the left moves at every column but the first, and at the first of a lower row it would have left.
      have hcol : p.col ≠ 0 := by
        intro hzero
        exact hne (Position.ext (show p.row = 0 by omega) hzero)
      omega

end Buffer

/-! ### Motions ahead and motions back -/

namespace Motion

variable {b : Buffer} {m : Motion} {p : Position}

/-- Goes to the right or down. -/
def isForward : Motion → Bool
  | down | right | wordNext | wordEnd | paragraphDown => true
  | up | left | wordPrev | paragraphUp => false
  | search way _ => way.isForward

/-- What a motion needs of a position: a row of the text, and unless it is vertical, a column of that row. -/
def Accepts (b : Buffer) (m : Motion) (p : Position) : Prop :=
  p.row < b.rowCount ∧ (m.isVertical = false → b.Holds p)

theorem accepts_of_holds (m : Motion) (h : b.Holds p) : m.Accepts b p := ⟨h.1, fun _ => h⟩

theorem Accepts.step (h : m.Accepts b p) : m.Accepts b (m.step b p) :=
  ⟨step_row_lt h.1, fun hm => step_holds hm (h.2 hm)⟩

/-- Forward motions never go back. -/
theorem le_step (hm : m.isForward = true) (h : m.Accepts b p) : p ≤ m.step b p := by
  cases m with
  | up | left | wordPrev | paragraphUp => simp [isForward] at hm
  | down =>
      refine Position.le_withRow ?_
      rw [Rows.down]
      split <;> omega
  | right => exact Position.le_withCol (Row.le_right _ _)
  | wordNext => exact (Buffer.goesOn_nextWordStart (h.2 rfl)).le
  | wordEnd => exact (Buffer.goesOn_nextWordEnd (h.2 rfl)).le
  | search way ch => exact Position.le_withCol (Search.col_bounds hm).1
  | paragraphDown =>
      have hrow := Buffer.le_lastRow h.1
      refine Position.le_withRow ?_
      rw [Buffer.paragraphDown]
      omega

/-- And the others never go ahead. -/
theorem step_le (hm : m.isForward = false) : m.step b p ≤ p := by
  cases m with
  | down | right | wordNext | wordEnd | paragraphDown => simp [isForward] at hm
  | up => exact Position.withRow_le (Rows.up_le _)
  | left => exact Position.withCol_le (Nat.sub_le _ _)
  | wordPrev => exact (b.goesBack_prevWordStart p).le
  | search way ch => exact Position.withCol_le (Search.col_le hm)
  | paragraphUp =>
      exact Position.withRow_le (Nat.le_trans (b.paragraphUp_le _) (Nat.sub_le _ _))

end Motion

end ModalCursor
