import ModalCursor.Proofs.Counts
import ModalCursor.Proofs.Directions
import ModalCursor.Proofs.Offsets
/-!
# ModalCursor.Proofs.Saturation

**Counts saturate within the size of the text.** A motion goes one way, so each of its steps that moves takes it
further along: by a position of the text, or, for a vertical motion, by a row. There is only so much room on its way
(`Motion.room`), and less than the text has positions. So the motion comes to rest after that many steps, a count
beyond it changes nothing, and `settle`, which stops there, takes one step more than it has moves to make.

The first part is about any loop with a measure (`Descends`). What is particular to motions is that every step that
moves leaves less room (`Motion.room_step_lt`), which is read off their directions.
-/

namespace ModalCursor

/-! ### Loops that come to rest -/

section Rest

variable {α : Type} [DecidableEq α] {f : α → α} {P : α → Prop} {μ : α → Nat} {a : α} {n : Nat}

/-- Without stopping early the result is the same. -/
theorem settle_eq_iterate (f : α → α) (n : Nat) (a : α) : settle f n a = f^[n] a := by
  induction n generalizing a with
  | zero => rfl
  | succ n ih => rw [settle_succ, ih, Function.iterate_succ_apply]

omit [DecidableEq α] in
/-- What is at rest stays so. -/
theorem iterate_eq_of_fixed {k : Nat} (hrest : f (f^[n] a) = f^[n] a) (hk : n ≤ k) : f^[k] a = f^[n] a := by
  obtain ⟨more, rfl⟩ := Nat.exists_eq_add_of_le hk
  rw [Nat.add_comm, Function.iterate_add_apply, Function.iterate_fixed hrest]

/-- Applies `f`, and counts that. -/
def counted (f : α → α) (a : α) : StateM Nat α := fun steps => (f a, steps + 1)

/-- The loop of `settle`, with the number of times that it applies `f`. -/
def settleCounting (f : α → α) (n : Nat) (a : α) : α × Nat := settleM (counted f) n a 0

theorem settleM_counted_step (f : α → α) (n : Nat) (a : α) (steps : Nat) :
    settleM (counted f) (n + 1) a steps =
      if f a = a then (a, steps + 1) else settleM (counted f) n (f a) (steps + 1) := by
  show (if f a = a then pure a else settleM (counted f) n (f a) : StateM Nat α) (steps + 1) = _
  split <;> rfl

/-- Counting does not change where the loop ends. -/
theorem settleM_counted_fst (f : α → α) (n : Nat) (a : α) (steps : Nat) :
    (settleM (counted f) n a steps).1 = settle f n a := by
  induction n generalizing a steps with
  | zero => rfl
  | succ n ih =>
      rw [settleM_counted_step, settle_step]
      split
      · rfl
      · exact ih (f a) (steps + 1)

/-- Steps stay within `P`, and there every step that moves lowers the measure. -/
structure Descends (f : α → α) (P : α → Prop) (μ : α → Nat) : Prop where
  keeps : ∀ a, P a → P (f a)
  lowers : ∀ a, P a → f a ≠ a → μ (f a) < μ a

/-- Such a loop is at rest after as many steps as the measure says. -/
theorem Descends.settle_fixed (h : Descends f P μ) (ha : P a) (hn : μ a ≤ n) : f (settle f n a) = settle f n a := by
  induction n generalizing a with
  | zero =>
      by_contra hmoves
      exact Nat.not_lt_zero _ (Nat.lt_of_lt_of_le (h.lowers a ha hmoves) hn)
  | succ n ih =>
      by_cases hrest : f a = a
      · rw [settle_of_fixed f hrest, hrest]
      · rw [settle_succ]
        exact ih (h.keeps a ha) (Nat.le_of_lt_succ (Nat.lt_of_lt_of_le (h.lowers a ha hrest) hn))

/-- Every step but the last one moves. -/
theorem Descends.settleM_counted_snd_le (h : Descends f P μ) (ha : P a) (n steps : Nat) :
    (settleM (counted f) n a steps).2 ≤ steps + (μ a + 1) := by
  induction n generalizing a steps with
  | zero => exact Nat.le_add_right _ _
  | succ n ih =>
      rw [settleM_counted_step]
      by_cases hrest : f a = a
      · rw [if_pos hrest]
        exact Nat.add_le_add_left (Nat.le_add_left 1 _) steps
      · have hlower := h.lowers a ha hrest
        have hsteps := ih (h.keeps a ha) (steps + 1)
        rw [if_neg hrest]
        omega

end Rest

/-! ### The room on a motion's way -/

namespace Motion

variable {b : Buffer} {m : Motion} {p q : Position}

theorem run_eq_iterate (b : Buffer) (m : Motion) (n : Nat) (p : Position) :
    m.run b n p = (fun q => m.step b q)^[n] p :=
  settle_eq_iterate _ n p

/-- How far along the text a position is for a motion: by rows for a vertical one, by positions for the others. -/
def place (b : Buffer) (m : Motion) (p : Position) : Nat :=
  if m.isVertical then p.row else b.offset p

/-- How much of the text lies ahead of a position on the motion's way. -/
def room (b : Buffer) (m : Motion) (p : Position) : Nat :=
  if m.isForward then b.size - 1 - m.place b p else m.place b p

theorem place_lt_size (h : m.Accepts b p) : m.place b p < b.size := by
  cases hm : m.isVertical with
  | true => simpa [place, hm] using Nat.lt_of_lt_of_le h.1 b.rowCount_le_size
  | false => simpa [place, hm] using Buffer.offset_lt_size (h.2 hm)

theorem room_lt_size (h : m.Accepts b p) : m.room b p < b.size := by
  have hplace := place_lt_size h
  rw [room]
  split <;> omega

/-- Going further along the text is seen in the place. A vertical motion can only do so by its row. -/
theorem place_lt_place (h : m.Accepts b p) (hcol : m.isVertical = true → p.col = q.col) (hlt : p < q) :
    m.place b p < m.place b q := by
  cases hm : m.isVertical with
  | true =>
      have hrow : p.row < q.row := by
        rcases hlt with hrow | ⟨-, hright⟩
        · exact hrow
        · exact absurd (hcol hm) (Nat.ne_of_lt hright)
      simpa [place, hm] using hrow
  | false => simpa [place, hm] using Buffer.offset_lt_offset (h.2 hm) hlt

/-- A step that moves leaves less room. -/
theorem room_step_lt (h : m.Accepts b p) (hmoves : m.step b p ≠ p) : m.room b (m.step b p) < m.room b p := by
  cases hdirection : m.isForward with
  | true =>
      have hlt : p < m.step b p := Position.lt_of_le_of_ne (le_step hdirection h) hmoves.symm
      have hplace := place_lt_place h (fun hm => (step_col hm).symm) hlt
      have hbound := place_lt_size h.step
      simp only [room, hdirection, if_true]
      omega
  | false =>
      have hlt : m.step b p < p := Position.lt_of_le_of_ne (step_le hdirection) hmoves
      have hplace := place_lt_place h.step step_col hlt
      simpa [room, hdirection] using hplace

theorem descends_step (b : Buffer) (m : Motion) : Descends (fun q => m.step b q) (m.Accepts b) (m.room b) where
  keeps := fun _ h => h.step
  lowers := fun _ h hmoves => room_step_lt h hmoves

/-- After as many steps as the text has positions, a motion is at rest. -/
theorem step_run (h : m.Accepts b p) {n : Nat} (hn : b.size ≤ n) : m.step b (m.run b n p) = m.run b n p :=
  (descends_step b m).settle_fixed h (Nat.le_trans (Nat.le_of_lt (room_lt_size h)) hn)

/-- So its loop does not take more steps than that. -/
theorem settleCounting_snd_le_size (h : m.Accepts b p) (n : Nat) :
    (settleCounting (fun q => m.step b q) n p).2 ≤ b.size := by
  have hsteps := (descends_step b m).settleM_counted_snd_le h n 0
  rw [Nat.zero_add] at hsteps
  exact Nat.le_trans hsteps (room_lt_size h)

end Motion

/-! ### Counted motions -/

namespace Cursor

/-- **Counts saturate within the size of the text.** From a position of the text, every motion repeated as many times
as the text has positions ends where one more step does not move it, and more repetitions end there too. So whatever
the count is, executing the motion takes no more steps than the text has positions, the last of which may find that
nothing moves any more, and although it stops there, it ends where the full number of steps does. -/
theorem counts_saturate {b : Buffer} {s : Cursor} (h : b.Holds s.position) (m : Motion) :
    let step := fun q => m.step b q
    step (step^[b.size] s.position) = step^[b.size] s.position ∧
      (∀ n, b.size ≤ n → step^[n] s.position = step^[b.size] s.position) ∧
      (∀ count, ∃ steps ≤ b.size, settleCounting step (Command.times ⟨.move m, count⟩) s.position =
        ((s.run b ⟨.move m, count⟩).position, steps)) ∧
      ∀ n, 1 ≤ n → (s.run b ⟨.move m, some n⟩).position = step^[n] s.position := by
  intro step
  have haccepts : m.Accepts b s.position := Motion.accepts_of_holds m h
  have hrest : step (step^[b.size] s.position) = step^[b.size] s.position := by
    rw [← Motion.run_eq_iterate]
    exact Motion.step_run haccepts (Nat.le_refl _)
  refine ⟨hrest, fun n hn => iterate_eq_of_fixed hrest hn, ?_, ?_⟩
  · intro count
    refine ⟨_, Motion.settleCounting_snd_le_size haccepts (Command.times ⟨.move m, count⟩), ?_⟩
    refine Prod.ext ?_ rfl
    rw [settleCounting, settleM_counted_fst, run_move_position]
    rfl
  · intro n hn
    have htimes : Command.times ⟨.move m, some n⟩ = n := Nat.max_eq_right hn
    rw [run_move_position, htimes, Motion.run_eq_iterate]

/-- Words over an empty row to the end of the text, with the largest count. -/
theorem counts_saturate_words :
    let b := Buffer.ofWhole ['a', 'b', ' ', 'c', '\n', '\n', 'd']
    let s := Cursor.start ⟨0, 0⟩
    let c : Command := ⟨.move .wordNext, some Numeral.largest⟩
    b.Holds s.position ∧ b.size = 6 ∧
      ∃ steps ≤ 6, settleCounting (fun q => Motion.wordNext.step b q) c.times s.position = (⟨2, 0⟩, steps) := by
  intro b s c
  have hsize : b.size = 6 := by decide
  obtain ⟨-, hsaturated, hsteps, hcounted⟩ := counts_saturate (b := b) (s := s) (by decide) .wordNext
  have hend : (s.run b c).position = ⟨2, 0⟩ := by
    rw [hcounted _ (by decide), hsaturated _ (hsize ▸ by decide), hsize]
    decide
  obtain ⟨steps, hle, hcounting⟩ := hsteps (some Numeral.largest)
  rw [hend] at hcounting
  exact ⟨by decide, hsize, steps, hsize ▸ hle, hcounting⟩

end Cursor

end ModalCursor
