import ModalCursor.Proofs.Grammar
/-!
# ModalCursor.Proofs.Vertical

**Vertical excursions keep the column.** A vertical command leaves the wanted column as it is, and the cursor stands
on it as far as its row reaches. So rows that are too short on the way do no harm: as soon as an excursion is back on
the row where it began, it is back at the column too.

The first part is shown for one command and then for any number of them, at every key. The column of the cursor
follows from the invariant of sessions. That a counted excursion comes back to its row is arithmetic on row numbers
(`Motion.run_down`, `Motion.run_up`).
-/

namespace ModalCursor

/-! ### Keys that go from row to row -/

/-- The keys of one vertical command: a count that does not begin with `0`, or none, and then a vertical motion or
one of the jumps to a row. -/
def Keys.IsVertical (keys : Keys) : Prop :=
  ∃ count rest : Keys, keys = count ++ rest ∧ IsCount count ∧ count.head? ≠ some '0' ∧
    rest ∈ [['j'], ['k'], ['{'], ['}'], ['G'], ['g', 'g']]

theorem Command.toRow_isVertical (count : Option Nat) {other : Action} (h : other.isVertical = true) :
    (Command.toRow count other).action.isVertical = true := by
  cases count with
  | none => exact h
  | some n => rfl

/-- The grammar has a vertical command for them. -/
theorem Phrase.exists_vertical {rest : Keys} (count : Keys)
    (h : rest ∈ [['j'], ['k'], ['{'], ['}'], ['G'], ['g', 'g']]) :
    ∃ c, Phrase count rest c ∧ c.action.isVertical = true := by
  simp only [List.mem_cons, List.not_mem_nil, or_false] at h
  rcases h with rfl | rfl | rfl | rfl | rfl | rfl
  · exact ⟨_, .motion .down, rfl⟩
  · exact ⟨_, .motion .up, rfl⟩
  · exact ⟨_, .motion .paragraphUp, rfl⟩
  · exact ⟨_, .motion .paragraphDown, rfl⟩
  · exact ⟨_, .toRow_last, Command.toRow_isVertical _ rfl⟩
  · exact ⟨_, .toRow_first, Command.toRow_isVertical _ rfl⟩

/-! ### Rows of counted motions -/

namespace Motion

variable {b : Buffer} {p : Position}

/-- Counted down, but not past the last row. -/
theorem run_down (h : p.row < b.rowCount) (n : Nat) :
    Motion.down.run b n p = p.withRow (min (p.row + n) b.lastRow) := by
  induction n with
  | zero =>
      have hrow : min (p.row + 0) b.lastRow = p.row := by
        rw [Buffer.lastRow]
        omega
      rw [hrow]
      rfl
  | succ n ih =>
      have hdown : Rows.down b.rowCount (min (p.row + n) b.lastRow) = min (p.row + (n + 1)) b.lastRow := by
        rw [Rows.down, Buffer.lastRow]
        split <;> omega
      rw [run_succ, ih, step, Position.withRow_row, hdown]
      rfl

/-- Counted up, but not past the first row. -/
theorem run_up (b : Buffer) (p : Position) (n : Nat) : Motion.up.run b n p = p.withRow (p.row - n) := by
  induction n with
  | zero => rfl
  | succ n ih =>
      rw [run_succ, ih, step, Position.withRow_row, Rows.up, Nat.sub_sub]
      rfl

end Motion

namespace Session

variable {s : Session} {c : Command} {keys typed count : Keys} {commands : List Keys}

/-! ### The wanted column -/

theorem execute_vertical_want (hc : c.action.isVertical = true) : (s.execute c).want = s.want := by
  simp [execute, hc]

/-- One vertical command keeps the wanted column, at each of its keys. -/
theorem feedAll_vertical (hkeys : keys.IsVertical) (hpending : s.pending = []) :
    (s.feedAll keys).pending = [] ∧ ∀ typed, typed <+: keys → (s.feedAll typed).want = s.want := by
  obtain ⟨count, rest, rfl, hcount, hzero, hrest⟩ := hkeys
  obtain ⟨c, hphrase, hc⟩ := Phrase.exists_vertical count hrest
  have hwhole := hphrase.feedAll_eq hcount hzero hpending
  refine ⟨by rw [hwhole]; rfl, ?_⟩
  intro typed htyped
  by_cases hall : typed = count ++ rest
  · rw [hall, hwhole]
    exact execute_vertical_want hc
  · rw [hphrase.feedAll_earlier hcount hzero hpending htyped hall]

/-- And so do any number of them. -/
theorem want_feedAll_verticals (hcommands : ∀ keys ∈ commands, keys.IsVertical) (hpending : s.pending = [])
    (htyped : typed <+: commands.flatten) : (s.feedAll typed).want = s.want := by
  induction commands generalizing s typed with
  | nil =>
      obtain rfl : typed = [] := List.prefix_nil.mp htyped
      rfl
  | cons keys commands ih =>
      obtain ⟨hdone, hkept⟩ := feedAll_vertical (hcommands keys (by simp)) hpending
      rw [List.flatten_cons] at htyped
      -- What has been typed ends within the first command, or goes on after it.
      rcases List.prefix_or_prefix_of_prefix htyped (List.prefix_append keys _) with hwithin | hbeyond
      · exact hkept typed hwithin
      · obtain ⟨more, rfl⟩ := hbeyond
        have hmore : more <+: commands.flatten := (List.prefix_append_right_inj keys).mp htyped
        rw [feedAll_append, ih (fun k hk => hcommands k (by simp [hk])) hdone hmore]
        exact hkept keys (List.prefix_refl _)

/-- So the cursor stays on the column that it began with, as far as its row reaches, and is back at the position
where it is back on the row. -/
theorem Sound.feedAll_verticals (h : s.Sound) (hcommands : ∀ keys ∈ commands, keys.IsVertical)
    (hpending : s.pending = []) (htyped : typed <+: commands.flatten) :
    let t := s.feedAll typed
    t.cursor.position.col = min s.want (s.buffer.lastCol t.cursor.position.row) ∧
      (t.cursor.position.row = s.cursor.position.row → t.cursor.position = s.cursor.position) := by
  intro t
  have hwant : t.want = s.want := want_feedAll_verticals hcommands hpending htyped
  have hbuffer : t.buffer = s.buffer := (s.feedAll_buffer_settings typed).1
  have hcol : t.cursor.position.col = min s.want (s.buffer.lastCol t.cursor.position.row) := by
    rw [← hwant, ← hbuffer]
    exact (h.feedAll typed).col_eq
  refine ⟨hcol, fun hrow => Position.ext hrow ?_⟩
  rw [hcol, hrow]
  exact h.col_eq.symm

/-! ### There and back -/

theorem execute_move_row (s : Session) (m : Motion) (count : Option Nat) :
    (s.execute ⟨.move m, count⟩).cursor.position.row =
      (m.run s.buffer (Command.times ⟨.move m, count⟩) s.cursor.position).row := by
  rw [← Cursor.run_move_position]
  rfl

/-- Some rows down and as many up again end on the row where they began, if there are so many. Both motions are
repeated equally often, so it does not matter whether the count holds the number that is typed. -/
theorem Sound.feedAll_down_up (h : s.Sound) (hpending : s.pending = []) (hcount : IsCount count)
    (hzero : count.head? ≠ some '0') (hrow : s.cursor.position.row + max 1 count.number < s.buffer.rowCount) :
    (s.feedAll (count ++ ['j'] ++ count ++ ['k'])).cursor.position.row = s.cursor.position.row := by
  have hdown : s.feedAll (count ++ ['j']) = s.execute ⟨.move .down, some (max 1 count.number)⟩ :=
    (Phrase.motion .down).feedAll_eq hcount hzero hpending
  have hup : (s.execute ⟨.move .down, some (max 1 count.number)⟩).feedAll (count ++ ['k']) =
      (s.execute ⟨.move .down, some (max 1 count.number)⟩).execute ⟨.move .up, some (max 1 count.number)⟩ :=
    (Phrase.motion .up).feedAll_eq hcount hzero rfl
  have htimes : ∀ m : Motion, Command.times ⟨.move m, some (max 1 count.number)⟩ = max 1 count.number :=
    fun _ => Nat.max_eq_right (Nat.le_max_left _ _)
  rw [List.append_assoc (count ++ ['j']), feedAll_append, hdown, hup, execute_move_row, Motion.run_up,
    Position.withRow_row, execute_move_row, Motion.run_down h.row_lt, Position.withRow_row, htimes, htimes,
    Buffer.lastRow]
  omega

/-- **Vertical excursions keep the column.** While vertical commands are typed from a session without pending keys,
the wanted column never changes, and the cursor stands on it as far as its row reaches. So wherever they come back to
the row where they began, they are back at the position. In particular a number of rows down and the same number up
again restore the position and the wanted column, if the text has so many rows below. -/
theorem vertical_keeps_column {s : Session} (hs : s.Reachable) (hpending : s.pending = []) :
    (∀ commands : List Keys, (∀ keys ∈ commands, keys.IsVertical) →
      ∀ typed, typed <+: commands.flatten →
        let t := s.feedAll typed
        t.want = s.want ∧
          t.cursor.position.col = min s.want (s.buffer.lastCol t.cursor.position.row) ∧
          (t.cursor.position.row = s.cursor.position.row → t.cursor.position = s.cursor.position)) ∧
      ∀ n, 1 ≤ n → s.cursor.position.row + n < s.buffer.rowCount →
        let t := s.feedAll (Nat.toDigits 10 n ++ ['j'] ++ Nat.toDigits 10 n ++ ['k'])
        t.cursor.position = s.cursor.position ∧ t.want = s.want := by
  constructor
  · intro commands hcommands typed htyped t
    exact ⟨want_feedAll_verticals hcommands hpending htyped,
      hs.sound.feedAll_verticals hcommands hpending htyped⟩
  · intro n hn hrow t
    have hcount := isCount_toDigits n
    have hzero := head?_toDigits hn
    have hcommands : ∀ keys ∈ ([Nat.toDigits 10 n ++ ['j'], Nat.toDigits 10 n ++ ['k']] : List Keys),
        keys.IsVertical := by
      intro keys hkeys
      simp only [List.mem_cons, List.not_mem_nil, or_false] at hkeys
      rcases hkeys with rfl | rfl
      · exact ⟨_, _, rfl, hcount, hzero, by simp⟩
      · exact ⟨_, _, rfl, hcount, hzero, by simp⟩
    have htyped : Nat.toDigits 10 n ++ ['j'] ++ Nat.toDigits 10 n ++ ['k'] <+:
        ([Nat.toDigits 10 n ++ ['j'], Nat.toDigits 10 n ++ ['k']] : List Keys).flatten := by simp
    have hnumber : Keys.number (Nat.toDigits 10 n) ≤ n := by
      rw [Keys.number, Nat.ofDigitChars_ten_toDigits]
      exact Nat.min_le_left _ _
    have hback := hs.sound.feedAll_down_up hpending hcount hzero (by omega)
    exact ⟨(hs.sound.feedAll_verticals hcommands hpending htyped).2 hback,
      want_feedAll_verticals hcommands hpending htyped⟩

/-- From the end of a long row over an empty one and back, at last by way of the first row. -/
theorem vertical_keeps_column_short_rows :
    let s := (start (.ofWhole ['a', 'b', '\n', '\n', 'c', 'd', 'e']) {}).performAll [.key '$']
    let t := s.feedAll ['k', '9', 'k', '3', 'G']
    (s.feedAll ['k']).cursor.position = ⟨1, 0⟩ ∧ t.want = 2 ∧ t.cursor.position = s.cursor.position := by
  intro s
  have hs : s.Reachable := (Reachable.start _ _).performAll _
  dsimp only
  obtain ⟨hkept, -⟩ := vertical_keeps_column hs (by decide)
  have hcommands : ∀ keys ∈ [['k'], ['9', 'k'], ['3', 'G']], Keys.IsVertical keys := by
    intro keys hkeys
    simp only [List.mem_cons, List.not_mem_nil, or_false] at hkeys
    rcases hkeys with rfl | rfl | rfl
    · exact ⟨[], ['k'], rfl, by simp [IsCount], by simp, by simp⟩
    · exact ⟨['9'], ['k'], rfl, by simp [IsCount], by simp, by simp⟩
    · exact ⟨['3'], ['G'], rfl, by simp [IsCount], by simp, by simp⟩
  obtain ⟨hwant, -, hback⟩ := hkept _ hcommands ['k', '9', 'k', '3', 'G'] (List.prefix_refl _)
  exact ⟨by decide, hwant.trans (by decide), hback (by decide)⟩

end Session

end ModalCursor
