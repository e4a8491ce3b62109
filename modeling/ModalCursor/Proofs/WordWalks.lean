import ModalCursor.Proofs.Saturation
/-!
# ModalCursor.Proofs.WordWalks

**Words lead through the whole text.** A word motion never gets stuck before the end of the text that it goes to, and
never skips a row (`Buffer.GoesOn`, `Buffer.GoesBack`). It comes to rest after as many steps as the text has positions
(`Motion.step_run`), and so it does at that end. And since the row changes by one at a time, no row on the way is left
out. All that is needed for this of a motion is collected in `Motion.WalksTo`.
-/

namespace ModalCursor

/-- Numbers that change by at most one at a time pass through all that lie between two of them. -/
theorem exists_eq_of_between {f : Nat → Nat} (hstep : ∀ k, f (k + 1) ≤ f k + 1 ∧ f k ≤ f (k + 1) + 1) {n r : Nat}
    (hr : (f 0 ≤ r ∧ r ≤ f n) ∨ (f n ≤ r ∧ r ≤ f 0)) : ∃ k ≤ n, f k = r := by
  induction n with
  | zero => exact ⟨0, Nat.le_refl _, by omega⟩
  | succ n ih =>
      by_cases hlast : f (n + 1) = r
      · exact ⟨n + 1, Nat.le_refl _, hlast⟩
      · have hn := hstep n
        obtain ⟨k, hk, hfk⟩ := ih (by omega)
        exact ⟨k, Nat.le_succ_of_le hk, hfk⟩

namespace Motion

variable {b : Buffer} {m : Motion} {goal p : Position} {n r : Nat}

/-- On the positions of the text, the motion is stuck at its goal only, and goes from row to neighbouring row. -/
structure WalksTo (b : Buffer) (m : Motion) (goal : Position) : Prop where
  holds : ∀ p, b.Holds p → b.Holds (m.step b p)
  stuck : ∀ p, b.Holds p → m.step b p = p → p = goal
  near : ∀ p, b.Holds p → (m.step b p).row ≤ p.row + 1 ∧ p.row ≤ (m.step b p).row + 1

namespace WalksTo

theorem run_holds (h : m.WalksTo b goal) (hp : b.Holds p) (n : Nat) : b.Holds (m.run b n p) :=
  settle_induction _ h.holds hp n

/-- Where the motion comes to rest is its goal. -/
theorem run_eq (h : m.WalksTo b goal) (hp : b.Holds p) (hn : b.size ≤ n) : m.run b n p = goal :=
  h.stuck _ (h.run_holds hp n) (step_run (accepts_of_holds m hp) hn)

theorem exists_run_row (h : m.WalksTo b goal) (hp : b.Holds p) (hn : b.size ≤ n)
    (hr : (p.row ≤ r ∧ r ≤ goal.row) ∨ (goal.row ≤ r ∧ r ≤ p.row)) : ∃ k ≤ n, (m.run b k p).row = r := by
  rw [← h.run_eq hp hn] at hr
  refine exists_eq_of_between (f := fun k => (m.run b k p).row) ?_ hr
  intro k
  rw [run_succ]
  exact h.near _ (h.run_holds hp k)

end WalksTo

theorem walksTo_of_stepToward (further : Position → Position → Prop) (hirrefl : ∀ p, ¬ further p p)
    (hholds : ∀ p, b.Holds p → b.Holds (m.step b p))
    (htoward : ∀ p, b.Holds p → StepToward further goal p (m.step b p)) : m.WalksTo b goal where
  holds := hholds
  stuck := fun p hp => (htoward p hp).eq_goal (hirrefl p)
  near := fun p hp => (htoward p hp).near

theorem walksTo_wordNext (b : Buffer) : wordNext.WalksTo b b.lastPosition :=
  walksTo_of_stepToward (fun p q => p < q) Position.lt_irrefl (fun _ => Buffer.nextWordStart_holds) fun _ =>
    Buffer.goesOn_nextWordStart

theorem walksTo_wordEnd (b : Buffer) : wordEnd.WalksTo b b.lastPosition :=
  walksTo_of_stepToward (fun p q => p < q) Position.lt_irrefl (fun _ => Buffer.nextWordEnd_holds) fun _ =>
    Buffer.goesOn_nextWordEnd

theorem walksTo_wordPrev (b : Buffer) : wordPrev.WalksTo b .origin :=
  walksTo_of_stepToward (fun p q => q < p) Position.lt_irrefl (fun _ => Buffer.prevWordStart_holds) fun p _ =>
    b.goesBack_prevWordStart p

end Motion

namespace Buffer

variable {b : Buffer} {p : Position}

/-- **Words lead through the whole text.** From a position of the text, each word motion ends on one. Those to the
right end on a later one, unless they start from the last position, where they stay; the one to the left on an earlier
one, unless it starts from the first. None of them goes further than to the neighbouring row. So repeated at least as
many times as the text has positions, they end exactly on the last position, and on the first one, and all rows on the
way are visited. -/
theorem word_motions_traverse (h : b.Holds p) :
    let prev := b.prevWordStart p
    (∀ q ∈ [b.nextWordStart p, b.nextWordEnd p],
        b.Holds q ∧ (p ≠ b.lastPosition → p < q) ∧ (p = b.lastPosition → q = p) ∧
          q.row ≤ p.row + 1 ∧ p.row ≤ q.row + 1) ∧
      (b.Holds prev ∧ (p ≠ .origin → prev < p) ∧ (p = .origin → prev = p) ∧
        prev.row ≤ p.row + 1 ∧ p.row ≤ prev.row + 1) ∧
      ∀ n, {q | b.Holds q}.ncard ≤ n →
        (∀ m ∈ [Motion.wordNext, .wordEnd],
            m.run b n p = b.lastPosition ∧
              ∀ r, p.row ≤ r → r ≤ b.lastRow → ∃ k ≤ n, (m.run b k p).row = r) ∧
          Motion.wordPrev.run b n p = .origin ∧
          ∀ r ≤ p.row, ∃ k ≤ n, (Motion.wordPrev.run b k p).row = r := by
  intro prev
  refine ⟨?_, ?_, ?_⟩
  · intro q hq
    have hgoes : b.Holds q ∧ b.GoesOn p q := by
      simp only [List.mem_cons, List.not_mem_nil, or_false] at hq
      rcases hq with rfl | rfl
      · exact ⟨nextWordStart_holds h, goesOn_nextWordStart h⟩
      · exact ⟨nextWordEnd_holds h, goesOn_nextWordEnd h⟩
    obtain ⟨hholds, hmoves, hstays, hnear⟩ := hgoes
    exact ⟨hholds, hmoves, hstays, hnear⟩
  · obtain ⟨hmoves, hstays, hnear⟩ := b.goesBack_prevWordStart p
    exact ⟨prevWordStart_holds h, hmoves, hstays, hnear⟩
  · intro n hn
    rw [ncard_holds] at hn
    have hprev := Motion.walksTo_wordPrev b
    refine ⟨?_, hprev.run_eq h hn, fun r hr => hprev.exists_run_row h hn (Or.inr ⟨Nat.zero_le r, hr⟩)⟩
    intro m hm
    have hwalks : m.WalksTo b b.lastPosition := by
      simp only [List.mem_cons, List.not_mem_nil, or_false] at hm
      rcases hm with rfl | rfl
      · exact Motion.walksTo_wordNext b
      · exact Motion.walksTo_wordEnd b
    exact ⟨hwalks.run_eq h hn, fun r hp hr => hwalks.exists_run_row h hn (Or.inl ⟨hp, hr⟩)⟩

/-- Over an empty row and one of blanks, in both directions from the middle. -/
theorem word_motions_traverse_blank_rows :
    let b := ofWhole ['a', ' ', 'b', '\n', '\n', ' ', ' ', '\n', 'c', 'd']
    let p : Position := ⟨2, 0⟩
    b.Holds p ∧ {q | b.Holds q}.ncard = 8 ∧ p < b.nextWordEnd p ∧ b.prevWordStart p < p ∧
      Motion.wordEnd.run b 8 p = ⟨3, 1⟩ ∧ Motion.wordPrev.run b 8 p = ⟨0, 0⟩ ∧
      ∃ k ≤ 8, (Motion.wordPrev.run b k p).row = 1 := by
  intro b p
  have hsize : {q | b.Holds q}.ncard = 8 := by
    rw [ncard_holds]
    decide
  obtain ⟨hahead, hbehind, hruns⟩ := word_motions_traverse (b := b) (p := p) (by decide)
  obtain ⟨hright, hleft, hrows⟩ := hruns 8 (Nat.le_of_eq hsize)
  exact ⟨by decide, hsize, (hahead _ (by simp)).2.1 (by decide), hbehind.2.1 (by decide),
    (hright .wordEnd (by simp)).1, hleft, hrows 1 (by decide)⟩

end Buffer

end ModalCursor
