import ModalCursor.Proofs.SavedPositions
/-!
# ModalCursor.Proofs.WayBack

**The way back alternates.** Two apostrophes go to the row that the last jump left, and leave the row that they come
from. So typed again and again they go to and fro between two rows.

The rows change places from the first time on, and this is what each step preserves (`Session.WentBack`). The columns
take longer to settle: the first time an exact position is left, wherever on its row it is, and only from the second
time on both ends are heads of their rows.
-/

namespace ModalCursor

/-- The keys of the way back. -/
def wayBack : Keys := ['\x27', '\x27']

theorem phrase_wayBack : Phrase [] wayBack ⟨.jumpPrevLine, none⟩ := .jumpPrevLine

namespace Session

variable {s t : Session} {j : Position} {k : Nat}

/-- The session `t` is what `s` is after the way back has been taken `k` times, the first time to the row of `j`. -/
structure WentBack (s : Session) (j : Position) (k : Nat) (t : Session) : Prop where
  sound : t.Sound
  buffer : t.buffer = s.buffer
  pending : t.pending = []
  marks : t.cursor.marks = s.cursor.marks
  row : t.cursor.position.row = if k % 2 = 0 then s.cursor.position.row else j.row
  saved : ∃ p, t.cursor.jump.saved = some p ∧ p.row = if k % 2 = 0 then j.row else s.cursor.position.row

theorem WentBack.zero (h : s.Sound) (hpending : s.pending = []) (hj : s.cursor.jump.saved = some j) :
    WentBack s j 0 s where
  sound := h
  buffer := rfl
  pending := hpending
  marks := rfl
  row := rfl
  saved := ⟨j, hj, rfl⟩

/-- The row that is saved is in the text. -/
theorem WentBack.saved_row_lt (h : WentBack s j k t) :
    (if k % 2 = 0 then j.row else s.cursor.position.row) < s.buffer.rowCount := by
  obtain ⟨p, hp, hrow⟩ := h.saved
  rw [← hrow, ← h.buffer]
  exact (h.sound.jump_holds p hp).1

/-- The way back goes to the head of the row that is saved. -/
theorem WentBack.feedAll_wayBack (h : WentBack s j k t) :
    (t.feedAll wayBack).cursor =
        t.cursor.jumpTo (Cursor.rowHead s.buffer (if k % 2 = 0 then j.row else s.cursor.position.row)) ∧
      (t.feedAll wayBack).want = (t.feedAll wayBack).cursor.position.col := by
  obtain ⟨p, hp, hrow⟩ := h.saved
  have hdest : Return.toPrevRow.destination? t.buffer t.cursor = some (Cursor.rowHead t.buffer p.row) := by
    simp [Return.destination?, hp]
  obtain ⟨hcursor, hwant⟩ := h.sound.feedAll_return h.pending phrase_wayBack hdest
  rw [← hrow, ← h.buffer]
  refine ⟨hcursor, ?_⟩
  rw [hwant, hcursor]
  rfl

theorem WentBack.isHead (h : WentBack s j k t) :
    s.buffer.IsHead (if k % 2 = 0 then j.row else s.cursor.position.row) (t.feedAll wayBack).cursor.position := by
  rw [h.feedAll_wayBack.1]
  exact Cursor.isHead_rowHead h.saved_row_lt

/-- What is left behind is saved. -/
theorem WentBack.jump_saved (h : WentBack s j k t) :
    (t.feedAll wayBack).cursor.jump.saved = some t.cursor.position := by
  rw [h.feedAll_wayBack.1]
  rfl

/-- Once more, and the rows change places. -/
theorem WentBack.succ (h : WentBack s j k t) : WentBack s j (k + 1) (t.feedAll wayBack) where
  sound := h.sound.feedAll wayBack
  buffer := (t.feedAll_buffer_settings wayBack).1.trans h.buffer
  pending := by
    rw [phrase_wayBack.feedAll_uncounted h.pending]
    rfl
  marks := by
    rw [h.feedAll_wayBack.1]
    exact h.marks
  row := by
    rw [h.isHead.1]
    rcases Nat.mod_two_eq_zero_or_one k with hk | hk <;> simp [hk, Nat.add_mod]
  saved := by
    refine ⟨t.cursor.position, h.jump_saved, ?_⟩
    rw [h.row]
    rcases Nat.mod_two_eq_zero_or_one k with hk | hk <;> simp [hk, Nat.add_mod]

/-- From the second time on, what is left behind is a head, because the time before ended there. -/
theorem WentBack.jump_saved_isHead (h : WentBack s j k t) :
    ∃ p, ((t.feedAll wayBack).feedAll wayBack).cursor.jump.saved = some p ∧
      s.buffer.IsHead (if k % 2 = 0 then j.row else s.cursor.position.row) p :=
  ⟨_, h.succ.jump_saved, h.isHead⟩

theorem WentBack.repeated (h : s.Sound) (hpending : s.pending = []) (hj : s.cursor.jump.saved = some j) (k : Nat) :
    WentBack s j k (s.feedAll (List.replicate k wayBack).flatten) := by
  induction k with
  | zero => exact .zero h hpending hj
  | succ k ih =>
      rw [feedAll_replicate_concat]
      exact ih.succ

/-- Without a jump mark there is no way back, however often it is tried. -/
theorem Sound.feedAll_no_wayBack (h : s.Sound) (hpending : s.pending = []) (hnone : s.cursor.jump.saved = none)
    (k : Nat) :
    (s.feedAll (List.replicate k wayBack).flatten).pending = [] ∧
      (s.feedAll (List.replicate k wayBack).flatten).cursor = s.cursor := by
  induction k with
  | zero => exact ⟨hpending, rfl⟩
  | succ k ih =>
      obtain ⟨ihpending, ihcursor⟩ := ih
      rw [feedAll_replicate_concat]
      have hsound := h.feedAll (List.replicate k wayBack).flatten
      generalize s.feedAll (List.replicate k wayBack).flatten = t at *
      have hdest : Return.toPrevRow.destination? t.buffer t.cursor = none := by
        simp [Return.destination?, ihcursor, hnone]
      refine ⟨?_, (hsound.feedAll_no_return ihpending phrase_wayBack hdest).trans ihcursor⟩
      rw [phrase_wayBack.feedAll_uncounted ihpending]
      rfl

/-- **The way back alternates.** Taken `k` times from a session without pending keys, the way back ends at the head
of the jump mark's row for odd `k`, and at the head of the row where it began for even `k`. The jump mark is then
exactly where it began if `k` is one, and later the head of the other row. The marks stay, and the wanted column is
the cursor's. Without a jump mark nothing moves at all. -/
theorem way_back_alternates {s : Session} (hs : s.Reachable) (hpending : s.pending = []) (k : Nat) :
    let t := s.feedAll (List.replicate k wayBack).flatten
    (∀ j, s.cursor.jump.saved = some j → 1 ≤ k →
      s.buffer.IsHead (if k % 2 = 1 then j.row else s.cursor.position.row) t.cursor.position ∧
        (k = 1 → t.cursor.jump.saved = some s.cursor.position) ∧
        (k % 2 = 0 → ∃ p, t.cursor.jump.saved = some p ∧ s.buffer.IsHead j.row p) ∧
        (k % 2 = 1 → 3 ≤ k →
          ∃ p, t.cursor.jump.saved = some p ∧ s.buffer.IsHead s.cursor.position.row p) ∧
        t.cursor.marks = s.cursor.marks ∧ t.want = t.cursor.position.col) ∧
      (s.cursor.jump.saved = none → t.cursor = s.cursor) := by
  intro t
  refine ⟨fun j hj hk => ?_, fun hnone => (hs.sound.feedAll_no_wayBack hpending hnone k).2⟩
  -- The last time is split off: where it ends follows from the rows before it.
  obtain ⟨n, rfl⟩ : ∃ n, k = n + 1 := ⟨k - 1, by omega⟩
  have hn := WentBack.repeated hs.sound hpending hj n
  have ht : t = (s.feedAll (List.replicate n wayBack).flatten).feedAll wayBack :=
    feedAll_replicate_concat s wayBack n
  have hparity : (n + 1) % 2 = 1 ↔ n % 2 = 0 := by omega
  have hsaved : ∀ m, n = m + 1 → ∃ p, t.cursor.jump.saved = some p ∧
      s.buffer.IsHead (if m % 2 = 0 then j.row else s.cursor.position.row) p := by
    intro m hm
    rw [ht, hm, feedAll_replicate_concat]
    exact (WentBack.repeated hs.sound hpending hj m).jump_saved_isHead
  refine ⟨?_, ?_, ?_, ?_, ?_, ?_⟩
  · simp only [ht, hparity]
    exact hn.isHead
  · intro hone
    obtain rfl : n = 0 := by omega
    rw [ht]
    exact hn.jump_saved
  · intro heven
    obtain ⟨p, hp, hhead⟩ := hsaved (n - 1) (by omega)
    rw [if_pos (by omega)] at hhead
    exact ⟨p, hp, hhead⟩
  · intro hodd hthree
    obtain ⟨p, hp, hhead⟩ := hsaved (n - 1) (by omega)
    rw [if_neg (by omega)] at hhead
    exact ⟨p, hp, hhead⟩
  · rw [ht]
    exact hn.succ.marks
  · rw [ht]
    exact hn.feedAll_wayBack.2

/-- Three times the way back, from the end of a last row that begins with a space. -/
theorem way_back_alternates_three :
    let s := (start (.ofWhole ['a', 'b', '\n', ' ', 'c', 'd']) {}).performAll [.key '$', .key 'k', .key 'G']
    let t := s.feedAll (List.replicate 3 wayBack).flatten
    s.cursor.jump.saved = some ⟨0, 1⟩ ∧ t.cursor.position.row = 0 ∧
      ∃ p, t.cursor.jump.saved = some p ∧ s.buffer.IsHead 1 p := by
  intro s
  have hs : s.Reachable := (Reachable.start _ _).performAll _
  dsimp only
  obtain ⟨halternates, -⟩ := way_back_alternates hs (by decide) 3
  obtain ⟨hhead, -, -, hodd, -⟩ := halternates ⟨0, 1⟩ (by decide) (by decide)
  exact ⟨by decide, hhead.1, hodd rfl (Nat.le_refl 3)⟩

end Session

end ModalCursor
