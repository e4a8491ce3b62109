import ModalCursor.Proofs.Reachable
/-!
# ModalCursor.Proofs.Counts

**A count repeats.** A counted motion runs its step many times and settles the column once; typing the motion
again and again settles after every step. Both end at the same place, for two reasons:

* a motion that is not vertical only passes positions that the text holds, and these are settled already;
* a vertical motion carries its column along unread, so it does not matter whether it was settled on the way.

`Session.Moved` says what a session looks like after `n` steps. It describes the counted command at once and the
repeated one by induction.
-/

namespace ModalCursor

/-- The key that a search begins with. -/
def Search.key : Search → Char
  | findForward => 'f'
  | findBackward => 'F'
  | tillForward => 't'
  | tillBackward => 'T'

/-- The keys that type a motion once. -/
def Motion.keys : Motion → Keys
  | down => ['j']
  | up => ['k']
  | left => ['h']
  | right => ['l']
  | wordNext => ['w']
  | wordEnd => ['e']
  | wordPrev => ['b']
  | search way ch => [way.key, ch]
  | paragraphUp => ['{']
  | paragraphDown => ['}']

/-! ### Counts in decimal -/

theorem isCount_toDigits (n : Nat) : IsCount (Nat.toDigits 10 n) := isDigit_toDigits n

theorem Reading.count?_toDigits {n : Nat} (h : n ≤ Numeral.largest) :
    Reading.count? (Nat.toDigits 10 n) = some n := by
  rw [Reading.count?, if_neg Nat.toDigits_ne_nil, Numeral.saturating_eq_min, Nat.ofDigitChars_ten_toDigits,
    Nat.min_eq_left h]

theorem Reading.ofKeys_motion {count : Keys} (hcount : IsCount count) (m : Motion) :
    Reading.ofKeys (count ++ m.keys) = .complete ((Action.move m).counted (Reading.count? count)) := by
  cases m with
  | search way ch => cases way <;> exact Reading.ofKeys_pair hcount rfl
  | _ => exact Reading.ofKeys_key hcount rfl

/-! ### The number of steps -/

/-- The number of steps that a count asks for: as many as it says, but one without a count and for a count of zero. -/
inductive Command.AsksFor : Option Nat → Nat → Prop
  | uncounted : AsksFor none 1
  | zero : AsksFor (some 0) 1
  | counted {n : Nat} (hn : 1 ≤ n) : AsksFor (some n) n

theorem Command.AsksFor.one_le {count : Option Nat} {n : Nat} (h : AsksFor count n) : 1 ≤ n := by
  cases h with
  | uncounted | zero => exact Nat.le_refl 1
  | counted hn => exact hn

theorem Command.AsksFor.times_eq {count : Option Nat} {n : Nat} (h : AsksFor count n) (a : Action) :
    Command.times ⟨a, count⟩ = n := by
  cases h with
  | uncounted | zero => rfl
  | counted hn => exact Nat.max_eq_right hn

/-! ### The last step of a run -/

theorem settle_succ_last {α : Type} [DecidableEq α] (f : α → α) (n : Nat) (a : α) :
    settle f (n + 1) a = f (settle f n a) := by
  induction n generalizing a with
  | zero => rw [settle_succ, settle_zero, settle_zero]
  | succ n ih => rw [settle_succ, ih, settle_succ]

theorem Motion.run_succ (b : Buffer) (m : Motion) (n : Nat) (p : Position) :
    m.run b (n + 1) p = m.step b (m.run b n p) :=
  settle_succ_last _ n p

theorem Cursor.run_move_position (b : Buffer) (m : Motion) (count : Option Nat) (s : Cursor) :
    (s.run b ⟨.move m, count⟩).position = m.run b (Command.times ⟨.move m, count⟩) s.position := by
  simp only [Cursor.run]
  split <;> rfl

theorem Command.AsksFor.run_move {count : Option Nat} {n : Nat} (h : AsksFor count n) (b : Buffer) (m : Motion)
    (s : Cursor) : (s.run b ⟨.move m, count⟩).position = m.run b n s.position := by
  rw [Cursor.run_move_position, h.times_eq]

theorem Cursor.run_move_jump (b : Buffer) (m : Motion) (count : Option Nat) (s : Cursor) :
    (s.run b ⟨.move m, count⟩).jump = if m.isJump then s.jump.record s.position else s.jump := by
  simp only [Cursor.run]
  split <;> rfl

namespace Session

variable {s t : Session} {m : Motion} {n : Nat} {a : Action} {p : Position}

/-! ### Settling -/

/-- A position that the text holds is settled, except by a vertical action. -/
theorem settledAt_of_holds (ha : a.isVertical = false) (h : s.buffer.Holds p) : s.settledAt a p = p := by
  have hcol : min p.col (s.buffer.lastCol p.row) = p.col := Nat.min_eq_left h.2
  simp [settledAt, ha, hcol, Position.withCol]

/-- Settling looks at the buffer, and for a vertical action at the wanted column. -/
theorem settledAt_congr (hbuffer : t.buffer = s.buffer) (hwant : a.isVertical = true → t.want = s.want) :
    t.settledAt a p = s.settledAt a p := by
  cases ha : a.isVertical with
  | true => simp [settledAt, ha, hbuffer, hwant ha]
  | false => simp [settledAt, ha, hbuffer]

/-- A step from a settled position settles where a step from the unsettled one does. -/
theorem settledAt_step (hp : m.isVertical = false → s.buffer.Holds p) :
    s.settledAt (.move m) (m.step s.buffer (s.settledAt (.move m) p)) =
      s.settledAt (.move m) (m.step s.buffer p) := by
  cases hm : m.isVertical with
  | true =>
      have hsettled : s.settledAt (.move m) p = p.withCol (s.settledAt (.move m) p).col := rfl
      rw [hsettled, Motion.step_withCol hm]
      simp [settledAt, Action.isVertical, hm, Position.withCol]
  | false => rw [settledAt_of_holds (a := .move m) hm (hp hm)]

/-! ### After some steps -/

/-- The session `t` is what `s` is after `n` steps of a motion, whether counted or typed one by one. The jump
mark is left open for the motions that set it: it tells the two apart. -/
structure Moved (s : Session) (m : Motion) (n : Nat) (t : Session) : Prop where
  buffer : t.buffer = s.buffer
  pending : t.pending = []
  position : t.cursor.position = s.settledAt (.move m) (m.run s.buffer n s.cursor.position)
  want : m.isVertical = true → t.want = s.want
  marks : t.cursor.marks = s.cursor.marks
  jump : m.isJump = false → t.cursor.jump = s.cursor.jump

/-- In a sound session nothing has to be settled before the first step. -/
theorem Moved.zero (h : s.Sound) (hpending : s.pending = []) : Moved s m 0 s where
  buffer := rfl
  pending := hpending
  position := by
    cases hm : m.isVertical with
    | true =>
        -- The column is already the wanted one, as far as the row reaches.
        have hcol := h.col_eq
        simp only [Motion.run, settle_zero, settledAt, Action.isVertical, hm, if_true]
        rw [← hcol]
        rfl
    | false => exact (settledAt_of_holds (a := .move m) hm h.holds).symm
  want := fun _ => rfl
  marks := rfl
  jump := fun _ => rfl

/-- A counted motion takes all its steps at once. -/
theorem Moved.execute (hn : 1 ≤ n) : Moved s m n (s.execute ⟨.move m, some n⟩) where
  buffer := rfl
  pending := rfl
  position := by
    have htimes : Command.times ⟨.move m, some n⟩ = n := Nat.max_eq_right hn
    simp only [Session.execute, Cursor.moveTo, Cursor.run_move_position, htimes]
  want := by
    intro hm
    simp [Session.execute, Action.isVertical, hm]
  marks := by
    simp only [Session.execute, Cursor.moveTo, Cursor.run_marks]
  jump := by
    intro hm
    simp [Session.execute, Cursor.moveTo, Cursor.run_move_jump, hm]

/-- One more step, typed by itself. -/
theorem Moved.step (hs : s.Sound) (h : Moved s m n t) :
    Moved s m (n + 1) (t.execute ⟨.move m, some 1⟩) := by
  have hone : Moved t m 1 (t.execute ⟨.move m, some 1⟩) := .execute (Nat.le_refl 1)
  have hrun : m.run t.buffer 1 t.cursor.position = m.step s.buffer t.cursor.position := by
    rw [Motion.run_succ, h.buffer]
    rfl
  have hholds : m.isVertical = false → s.buffer.Holds (m.run s.buffer n s.cursor.position) :=
    fun hm => Motion.run_holds hm hs.holds n
  exact
    { buffer := hone.buffer.trans h.buffer
      pending := hone.pending
      position := by
        rw [hone.position, settledAt_congr (a := .move m) h.buffer h.want, hrun, h.position, settledAt_step hholds,
          Motion.run_succ]
      want := fun hm => (hone.want hm).trans (h.want hm)
      marks := hone.marks.trans h.marks
      jump := fun hm => (hone.jump hm).trans (h.jump hm) }

/-! ### Typing a motion -/

theorem feedAll_motion (hpending : s.pending = []) (m : Motion) :
    s.feedAll m.keys = s.execute ⟨.move m, some 1⟩ := by
  have hread : Reading.ofKeys m.keys = .complete ⟨.move m, some 1⟩ :=
    @Reading.ofKeys_motion [] (by simp [IsCount]) m
  refine (feedAll_of_complete hpending hread fun hzero => ?_).1
  cases m with
  | search way ch => cases way <;> simp [Motion.keys, Search.key] at hzero
  | _ => simp [Motion.keys] at hzero

theorem feedAll_counted (hpending : s.pending = []) (m : Motion) (h1 : 1 ≤ n) (hn : n ≤ Numeral.largest) :
    s.feedAll (Nat.toDigits 10 n ++ m.keys) = s.execute ⟨.move m, some n⟩ := by
  have hread : Reading.ofKeys (Nat.toDigits 10 n ++ m.keys) = .complete ⟨.move m, some n⟩ := by
    rw [Reading.ofKeys_motion (isCount_toDigits n), Reading.count?_toDigits hn]
    simp [Action.counted, Action.isRepeatable, h1]
  refine (feedAll_of_complete hpending hread fun hzero => ?_).1
  rw [List.head?_append_of_ne_nil _ Nat.toDigits_ne_nil] at hzero
  exact absurd hzero (head?_toDigits h1)

/-- Keys typed once more come after all that was typed before. -/
theorem feedAll_replicate_concat (s : Session) (keys : Keys) (n : Nat) :
    s.feedAll (List.replicate (n + 1) keys).flatten =
      (s.feedAll (List.replicate n keys).flatten).feedAll keys := by
  rw [List.replicate_succ', List.flatten_append, feedAll_append, List.flatten_singleton]

/-- Typing a motion once more is one more step. -/
theorem feedAll_replicate_succ (m : Motion) (n : Nat)
    (hpending : (s.feedAll (List.replicate n m.keys).flatten).pending = []) :
    s.feedAll (List.replicate (n + 1) m.keys).flatten =
      (s.feedAll (List.replicate n m.keys).flatten).execute ⟨.move m, some 1⟩ := by
  rw [feedAll_replicate_concat, feedAll_motion hpending]

/-- A motion typed again and again takes one step each time. -/
theorem Moved.repeated (hs : s.Sound) (hpending : s.pending = []) (m : Motion) (n : Nat) :
    Moved s m n (s.feedAll (List.replicate n m.keys).flatten) := by
  induction n with
  | zero => exact .zero hs hpending
  | succ n ih =>
      rw [feedAll_replicate_succ m n ih.pending]
      exact ih.step hs

/-- After a motion that is not vertical, the wanted column is the cursor's. -/
theorem execute_want (c : Command) (hc : c.action.isVertical = false) :
    (s.execute c).want = (s.execute c).cursor.position.col := by
  simp [Session.execute, hc, Cursor.moveTo]

/-- **Count law.** From a session without pending keys, a count from one up, in decimal and then a motion's keys
end where typing the motion that many times does: at the same position, with the same wanted column and marks,
and with nothing pending. The jump mark is the same too, except after the paragraph motions. These mark every
position they leave, so the counted one remembers where the whole command started. -/
theorem counted_eq_repeated {s : Session} (hs : s.Reachable) (hpending : s.pending = []) (m : Motion) {n : Nat}
    (h1 : 1 ≤ n) (hn : n ≤ Numeral.largest) :
    let counted := s.feedAll (Nat.toDigits 10 n ++ m.keys)
    let repeated := s.feedAll (List.replicate n m.keys).flatten
    counted.cursor.position = repeated.cursor.position ∧
      counted.want = repeated.want ∧
      counted.cursor.marks = repeated.cursor.marks ∧
      counted.pending = [] ∧ repeated.pending = [] ∧
      (m ≠ .paragraphUp → m ≠ .paragraphDown → counted.cursor.jump = repeated.cursor.jump) ∧
      (m = .paragraphUp ∨ m = .paragraphDown →
        counted.cursor.jump.saved = some s.cursor.position) := by
  intro counted repeated
  have hsound := hs.sound
  have hcounted : counted = s.execute ⟨.move m, some n⟩ := feedAll_counted hpending m h1 hn
  have hc : Moved s m n counted := hcounted ▸ .execute h1
  have hr : Moved s m n repeated := .repeated hsound hpending m n
  have hposition : counted.cursor.position = repeated.cursor.position := hc.position.trans hr.position.symm
  refine ⟨hposition, ?_, hc.marks.trans hr.marks.symm, hc.pending, hr.pending, ?_, ?_⟩
  · cases hm : m.isVertical with
    | true => exact (hc.want hm).trans (hr.want hm).symm
    | false =>
        -- Only the last step decides the wanted column, so it is split off.
        obtain ⟨k, rfl⟩ : ∃ k, n = k + 1 := ⟨n - 1, by omega⟩
        have hk : Moved s m k (s.feedAll (List.replicate k m.keys).flatten) := .repeated hsound hpending m k
        have hlast : repeated = (s.feedAll (List.replicate k m.keys).flatten).execute ⟨.move m, some 1⟩ :=
          feedAll_replicate_succ m k hk.pending
        have hwantc : counted.want = counted.cursor.position.col := by
          rw [hcounted]
          exact execute_want _ hm
        have hwantr : repeated.want = repeated.cursor.position.col := by
          rw [hlast]
          exact execute_want _ hm
        rw [hwantc, hwantr, hposition]
  · intro hup hdown
    have hm : m.isJump = false := by
      cases m with
      | paragraphUp => exact absurd rfl hup
      | paragraphDown => exact absurd rfl hdown
      | _ => rfl
    exact (hc.jump hm).trans (hr.jump hm).symm
  · intro hparagraph
    have hm : m.isJump = true := by
      rcases hparagraph with rfl | rfl <;> rfl
    simp [hcounted, Session.execute, Cursor.moveTo, Cursor.run_move_jump, hm, JumpMark.record]

theorem counted_eq_repeated_paragraphs :
    ((start (.ofWhole ['a', '\n', '\n', 'b', '\n', '\n', 'c']) { startRow := 0 }).feedAll
        (Nat.toDigits 10 2 ++ Motion.paragraphDown.keys)).cursor.position =
      ((start (.ofWhole ['a', '\n', '\n', 'b', '\n', '\n', 'c']) { startRow := 0 }).feedAll
        (List.replicate 2 Motion.paragraphDown.keys).flatten).cursor.position :=
  (counted_eq_repeated (Reachable.start _ _) rfl .paragraphDown (by decide) (by decide)).1

end Session

end ModalCursor
