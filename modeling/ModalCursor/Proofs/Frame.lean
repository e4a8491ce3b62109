import ModalCursor.Proofs.NoFaults
import ModalCursor.Proofs.SavedPositions
/-!
# ModalCursor.Proofs.Frame

**What a command may change.** The cursor of a command may stand anywhere on a row of the text, also past the end of
the row, and its marks and its jump mark may lie outside the text: they may come from another text, or from a vertical
motion before. Even so a command keeps the row in the text, a vertical one leaves the column as it is, and no command
but the one that sets a mark touches the marks. Where the cursor and the marks are positions of the text to begin with,
every command that is not vertical ends on one as well, whatever the jump mark is.

Each part is one lemma by cases on the action, and what concerns a counted motion is shown for one step and lifted by
`settle_induction`. All of it is first shown over natural numbers (`Cursor.run_contract`). A machine does the same
(`Machine.execute_contract`), except that at its largest column it cannot execute the five commands that look at the
next one.
-/

namespace ModalCursor

/-- The actions that move on their row only, or not at all. -/
inductive Action.StaysOnRow : Action → Prop
  | left : StaysOnRow (.move .left)
  | right : StaysOnRow (.move .right)
  | search (way : Search) (ch : Char) : StaysOnRow (.move (.search way ch))
  | firstNonBlank : StaysOnRow .firstNonBlank
  | lineStart : StaysOnRow .lineStart
  | lineEnd : StaysOnRow .lineEnd
  | setMark (name : Char) : StaysOnRow (.setMark name)

namespace Motion

variable {b : Buffer} {m : Motion} {p : Position}

theorem run_col (hm : m.isVertical = true) (n : Nat) : (m.run b n p).col = p.col :=
  settle_induction (P := fun q : Position => q.col = p.col) _ (fun _ hq => (step_col hm).trans hq) rfl n

/-- A motion whose steps stay on the row stays on it. -/
theorem run_row (hstep : ∀ q, (m.step b q).row = q.row) (n : Nat) : (m.run b n p).row = p.row :=
  settle_induction (P := fun q : Position => q.row = p.row) _ (fun q hq => (hstep q).trans hq) rfl n

end Motion

namespace Cursor

variable {b : Buffer} {c : Command} {s : Cursor}

/-! ### The column and the row -/

theorem run_col (hc : c.action.isVertical = true) : (s.run b c).position.col = s.position.col := by
  obtain ⟨a, count⟩ := c
  cases a with
  | move m =>
      rw [run_move_position]
      exact Motion.run_col hc _
  | first | last | goto => rfl
  | firstNonBlank | lineStart | lineEnd | setMark | jumpToMark | jumpToMarkLine | jumpPrevLine =>
      simp [Action.isVertical] at hc

theorem run_row (hc : c.action.StaysOnRow) : (s.run b c).position.row = s.position.row := by
  obtain ⟨a, count⟩ := c
  cases hc with
  | left | right | search =>
      rw [run_move_position]
      exact Motion.run_row (fun _ => rfl) _
  | firstNonBlank | lineStart | lineEnd | setMark => rfl

/-! ### The marks -/

/-- A command keeps the marks, unless it sets one, and then it keeps the others. -/
theorem run_marks_frame (b : Buffer) (c : Command) (s : Cursor) :
    (s.run b c).marks = s.marks ∨
      ∃ x, c.action = .setMark x ∧ isMarkName x = true ∧
        ∀ name, name ≠ x → (s.run b c).marks.get? name = s.marks.get? name := by
  rw [run_marks]
  cases hc : c.action with
  | setMark x =>
      by_cases hx : isMarkName x
      · refine Or.inr ⟨x, rfl, hx, ?_⟩
        intro name hname
        rw [Marks.get?_set, if_neg fun heq => hname heq.1]
      · -- Under any other name nothing is set.
        exact Or.inl (if_neg hx)
  | _ => exact Or.inl rfl

/-! ### Positions of the text -/

/-- From a position of the text, with marks that are such, a command that is not vertical ends on one. -/
theorem run_holds (hs : b.Holds s.position) (hmarks : ∀ name p, s.marks.get? name = some p → b.Holds p)
    (hc : c.action.isVertical = false) : b.Holds (s.run b c).position := by
  obtain ⟨a, count⟩ := c
  cases a with
  | first | last | goto => simp [Action.isVertical] at hc
  | move m =>
      rw [run_move_position]
      exact Motion.run_holds hc hs _
  | firstNonBlank => exact ⟨hs.1, Row.firstInk_le_lastCol _⟩
  | lineStart => exact ⟨hs.1, Nat.zero_le _⟩
  | lineEnd => exact ⟨hs.1, Nat.le_refl _⟩
  | setMark => exact hs
  | jumpToMark name =>
      cases hmark : s.marks.get? name with
      | none => simpa [run, hmark] using hs
      | some mark =>
          have hholds := hmarks name mark hmark
          have hrow : Rows.goTo b.rowCount mark.row = mark.row := Rows.goTo_of_lt hholds.1
          simpa [run, hmark, jumpTo, hrow] using hholds
  | jumpToMarkLine name =>
      cases hmark : s.marks.get? name with
      | none => simpa [run, hmark] using hs
      | some mark => simpa [run, hmark, jumpTo] using rowHead_holds b mark.row
  | jumpPrevLine =>
      cases hsaved : s.jump.saved with
      | none => simpa [run, JumpMark.swap, hsaved] using hs
      | some origin => simpa [run, JumpMark.swap, hsaved] using rowHead_holds b origin.row

/-- What a command may change, where numbers have no bound. -/
theorem run_contract (h : s.position.row < b.rowCount) (c : Command) :
    let t := s.run b c
    t.position.row < b.rowCount ∧
      (c.action.isVertical = true → t.position.col = s.position.col) ∧
      (t.marks = s.marks ∨
        ∃ x, c.action = .setMark x ∧ ('a' ≤ x ∧ x ≤ 'z') ∧
          ∀ name, name ≠ x → t.marks.get? name = s.marks.get? name) ∧
      (s.position.col ≤ b.lastCol s.position.row → (∀ name p, s.marks.get? name = some p → b.Holds p) →
        c.action.isVertical = false → b.Holds t.position) ∧
      (c.action.StaysOnRow → t.position.row = s.position.row) := by
  intro t
  refine ⟨run_row_lt h, run_col, ?_, ?_, run_row⟩
  · rcases run_marks_frame b c s with hkept | ⟨x, hset, hname, hothers⟩
    · exact Or.inl hkept
    · have hletter : 'a' ≤ x ∧ x ≤ 'z' := by simpa [isMarkName] using hname
      exact Or.inr ⟨x, hset, hletter, hothers⟩
  · intro hcol hmarks hc
    exact run_holds ⟨h, hcol⟩ hmarks hc

end Cursor

/-! ### On a machine -/

namespace Machine

variable {M : Machine} {b : Buffer} {s : Cursor}

/-- In a text that the machine counts, only the column can be too large for a command. -/
theorem execute_eq_of_row_lt (hb : M.Counts b) (hrow : s.position.row < b.rowCount) {c : Command}
    (hcol : c.action.readsAhead = true → s.position.col < M.largest) : M.execute b c s = .ok (s.run b c) := by
  refine execute_eq hb fun m hm => ⟨fun _ => Nat.lt_of_lt_of_le hrow hb.rowCount_le, fun hahead => hcol ?_⟩
  rw [hm]
  exact hahead

/-- In a session it never is, because there the cursor is on its row. -/
theorem execute_eq_of_sound {s : Session} (hs : s.Sound) (hb : M.Counts s.buffer) (c : Command) :
    M.execute s.buffer c s.cursor = .ok (s.cursor.run s.buffer c) := by
  refine execute_eq_of_row_lt hb hs.row_lt fun _ => Nat.lt_of_le_of_lt hs.holds.2 ?_
  exact lastCol_lt (Nat.zero_lt_of_lt hb.lastRow_lt) (hb.length_row_le _)

/-- **What a command may change.** Let a machine count the rows and the columns of a text, and let the cursor be on a
row of the text, at any column, with any marks and any jump mark. For the five commands that look at the next column,
which are one column to the right, the next start and the next end of a word, and the searches to the right, the column
has to be below the largest number of a word. Then the machine executes the command. After it the row is in the text. A
vertical action leaves the column as it was. The marks are the same, unless the action sets a mark under a lower-case
letter, and then they are the same under every other name. If the column is on the row and all marks are positions of
the text, then after an action that is not vertical the cursor is on a position of the text. Actions on the row keep the
row. -/
theorem execute_contract (hb : M.Counts b) (hrow : s.position.row < b.rowCount) (c : Command)
    (hcol : c.action.readsAhead = true → s.position.col < M.largest) :
    ∃ t, M.execute b c s = .ok t ∧
      t.position.row < b.rowCount ∧
      (c.action.isVertical = true → t.position.col = s.position.col) ∧
      (t.marks = s.marks ∨
        ∃ x, c.action = .setMark x ∧ ('a' ≤ x ∧ x ≤ 'z') ∧
          ∀ name, name ≠ x → t.marks.get? name = s.marks.get? name) ∧
      (s.position.col ≤ b.lastCol s.position.row → (∀ name p, s.marks.get? name = some p → b.Holds p) →
        c.action.isVertical = false → b.Holds t.position) ∧
      (c.action.StaysOnRow → t.position.row = s.position.row) :=
  ⟨s.run b c, execute_eq_of_row_lt hb hrow hcol, Cursor.run_contract hrow c⟩

/-- From the largest column, with a mark and a jump mark outside the text, and from a position of the text. -/
theorem execute_contract_outside_and_inside :
    let b := Buffer.ofWhole ['a', 'b', '\n', '\n', 'c', 'd']
    let outside : Cursor := ⟨⟨0, Numeral.largest⟩, Marks.empty.set 'm' ⟨9, 9⟩, ⟨some ⟨8, 8⟩⟩⟩
    let inside : Cursor := ⟨⟨0, 1⟩, Marks.empty.set 'm' ⟨2, 1⟩, ⟨some ⟨8, 8⟩⟩⟩
    word64.Counts b ∧ outside.position.row < b.rowCount ∧
      (∃ t, word64.execute b ⟨.jumpToMark 'm', none⟩ outside = .ok t ∧ t.position.row < b.rowCount) ∧
      (∃ t, word64.execute b ⟨.move .down, some 5⟩ outside = .ok t ∧ t.position.col = Numeral.largest) ∧
      (∃ t, word64.execute b ⟨.jumpPrevLine, none⟩ inside = .ok t ∧ b.Holds t.position) ∧
      ∃ t, word64.execute b ⟨.move .right, some 5⟩ inside = .ok t ∧ t.position.row = 0 := by
  intro b outside inside
  have hb : word64.Counts b := by decide
  have hrow : outside.position.row < b.rowCount := by decide
  have hmarks : ∀ name p, inside.marks.get? name = some p → b.Holds p := by
    intro name p hp
    rw [Marks.get?_set, Marks.get?_empty, Option.ite_none_right_eq_some] at hp
    rw [← Option.some.inj hp.2]
    decide
  refine ⟨hb, hrow, ?_, ?_, ?_, ?_⟩
  · obtain ⟨t, ht, hlands, -⟩ := execute_contract hb (s := outside) hrow ⟨.jumpToMark 'm', none⟩ (by decide)
    exact ⟨t, ht, hlands⟩
  · obtain ⟨t, ht, -, hcol, -⟩ := execute_contract hb (s := outside) hrow ⟨.move .down, some 5⟩ (by decide)
    exact ⟨t, ht, hcol rfl⟩
  · obtain ⟨t, ht, -, -, -, hholds, -⟩ :=
      execute_contract hb (s := inside) (by decide) ⟨.jumpPrevLine, none⟩ (by decide)
    exact ⟨t, ht, hholds (by decide) hmarks rfl⟩
  · obtain ⟨t, ht, -, -, -, -, hstays⟩ :=
      execute_contract hb (s := inside) (by decide) ⟨.move .right, some 5⟩ (by decide)
    exact ⟨t, ht, hstays .right⟩

/-- From the largest column itself, the next start of a word is not to be had, although the row is in the text. -/
theorem not_executed_at_largest_column :
    let b := Buffer.ofWhole ['a', 'b', 'a']
    let s := Cursor.start ⟨0, Numeral.largest⟩
    word64.Counts b ∧ s.position.row < b.rowCount ∧
      word64.execute b ⟨.move .wordNext, none⟩ s = .error .tooLarge ∧
      ¬ ∃ t, word64.execute b ⟨.move .wordNext, none⟩ s = .ok t ∧ t.position.row < b.rowCount := by
  intro b s
  have hfault : word64.execute b ⟨.move .wordNext, none⟩ s = .error .tooLarge :=
    execute_eq_error rfl (Nat.le_refl Numeral.largest) b
  refine ⟨by decide, by decide, hfault, ?_⟩
  rintro ⟨t, ht, -⟩
  rw [hfault] at ht
  cases ht

end Machine

end ModalCursor
