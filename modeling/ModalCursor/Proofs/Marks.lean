import ModalCursor.Proofs.History
import ModalCursor.Proofs.SavedPositions
/-!
# ModalCursor.Proofs.Marks

**Marks remember exactly.** A mark is one of the slots that commands fill with the position they start from, so
after any run of a session it holds where it was last set (`savesOrigin_mark`). Only letters name marks.

Whatever the commands in between do to the cursor, the position stays in the text for as long as the mark is kept,
because a new text takes the marks with it. So the way to a mark ends exactly where the mark was set, and without a
mark it does not begin.
-/

namespace ModalCursor

/-! ### What a mark holds -/

/-- The command names the position with this name. -/
def Executed.sets (name : Char) (e : Executed) : Bool := e.command.action = .setMark name

/-- A condition that does not depend on the commands picks all that are picked, or none. -/
theorem lastOrigin_and (cond : Bool) (saves : Executed → Bool) (done : List Executed) :
    lastOrigin (fun e => cond && saves e) done = if cond then lastOrigin saves done else none := by
  cases cond with
  | true => simp
  | false => simp [lastOrigin]

/-- A mark is filled by the commands that set it, if its name is a letter. -/
theorem savesOrigin_mark (name : Char) :
    SavesOrigin (fun cursor => cursor.marks.get? name) (fun e => isMarkName name && e.sets name) where
  start := fun _ => Marks.get?_empty name
  execute := by
    intro s c
    have hrun : (s.execute c).cursor.marks = (s.cursor.run s.buffer c).marks := rfl
    rw [hrun, Cursor.run_marks]
    cases hc : c.action with
    | setMark x =>
        dsimp only
        rw [Marks.get?_set]
        by_cases hx : name = x
        · subst hx
          simp [Executed.sets, hc]
        · have hother : x ≠ name := fun h => hx h.symm
          simp [Executed.sets, hc, hx, hother]
    | _ => simp [Executed.sets, hc]

namespace Session

variable {s : Session} {name : Char} {p : Position}

/-! ### The ways to a mark -/

/-- With the mark set, the back-quote goes to it, and the apostrophe to the head of its row. -/
theorem Sound.feedAll_mark (h : s.Sound) (hpending : s.pending = []) (hmark : s.cursor.marks.get? name = some p) :
    (s.feedAll ['\x60', name]).cursor.position = p ∧ (s.feedAll ['\x60', name]).want = p.col ∧
      s.buffer.IsHead p.row (s.feedAll ['\x27', name]).cursor.position := by
  have hname : name ≠ '\x27' := by
    rintro rfl
    have hletter := Marks.isMarkName_of_get? hmark
    simp [isMarkName] at hletter
  have hhead : (Return.toMarkRow name).destination? s.buffer s.cursor = some (Cursor.rowHead s.buffer p.row) := by
    simp [Return.destination?, hmark]
  obtain ⟨hexact, hwant⟩ := h.feedAll_return (r := .toMark name) hpending (.jumpToMark name) hmark
  obtain ⟨hline, -⟩ := h.feedAll_return hpending (.jumpToMarkLine name hname) hhead
  refine ⟨?_, hwant, ?_⟩
  · rw [hexact]
    rfl
  · rw [hline]
    exact Cursor.isHead_rowHead (h.marks_hold name p hmark).1

/-- Without the mark, neither moves, and the marks and the jump mark are as they were. -/
theorem Sound.feedAll_no_mark (h : s.Sound) (hpending : s.pending = []) (hmark : s.cursor.marks.get? name = none) :
    (s.feedAll ['\x60', name]).cursor = s.cursor ∧
      (name ≠ '\x27' → (s.feedAll ['\x27', name]).cursor = s.cursor) := by
  constructor
  · exact h.feedAll_no_return (r := .toMark name) hpending (.jumpToMark name) hmark
  · intro hname
    have hhead : (Return.toMarkRow name).destination? s.buffer s.cursor = none := by
      simp [Return.destination?, hmark]
    exact h.feedAll_no_return hpending (.jumpToMarkLine name hname) hhead

/-- **Marks remember exactly.** After any run of a session, a letter's mark is the cursor at the last command that set
it since the session was last begun anew, if there was one, and nothing else has a mark. The list of marks has just
these, in alphabetical order and each once. When no key is pending, the back-quote and the name of a mark bring the
cursor and the wanted column exactly there, and the apostrophe brings the cursor to the first ink of the mark's row;
where the name has no mark, the cursor, the marks and the jump mark stay as they are. -/
theorem marks_remember (b : Buffer) (o : Settings) (ops : List Operation) (x : Char) :
    let s := (start b o).performAll ops
    let marks := s.cursor.marks
    (marks.get? x =
        if 'a' ≤ x ∧ x ≤ 'z' then lastOrigin (Executed.sets x) ((start b o).executed ops) else none) ∧
      (∀ name p, (name, p) ∈ marks.toList ↔ marks.get? name = some p) ∧
      (marks.toList.Pairwise fun m n => m.1 < n.1) ∧
      (s.pending = [] →
        (∀ p, marks.get? x = some p →
          (s.feedAll ['\x60', x]).cursor.position = p ∧ (s.feedAll ['\x60', x]).want = p.col ∧
            s.buffer.IsHead p.row (s.feedAll ['\x27', x]).cursor.position) ∧
        (marks.get? x = none →
          (s.feedAll ['\x60', x]).cursor = s.cursor ∧
            (x ≠ '\x27' → (s.feedAll ['\x27', x]).cursor = s.cursor))) := by
  intro s marks
  have hsound : s.Sound := ((Reachable.start b o).performAll ops).sound
  refine ⟨?_, fun _ _ => Marks.mem_toList_iff, marks.toList_pairwise, fun hpending =>
    ⟨fun _ => hsound.feedAll_mark hpending, hsound.feedAll_no_mark hpending⟩⟩
  have hlast := (savesOrigin_mark x).performAll_start b o ops
  rw [lastOrigin_and] at hlast
  simpa [isMarkName] using hlast

/-- A mark is set at the end of a row, moved away from, and found again from the row above. -/
theorem marks_remember_round_trip :
    let s := (start (.ofWhole ['a', 'b', '\n', ' ', 'c']) {}).performAll [.key 'm', .key 'x', .key 'k', .key 'h']
    s.cursor.position = ⟨0, 0⟩ ∧ (s.feedAll ['\x60', 'x']).cursor.position = ⟨1, 1⟩ ∧
      (s.feedAll ['\x60', 'y']).cursor = s.cursor := by
  intro s
  obtain ⟨-, -, -, hx⟩ := marks_remember (.ofWhole ['a', 'b', '\n', ' ', 'c']) {}
    [.key 'm', .key 'x', .key 'k', .key 'h'] 'x'
  obtain ⟨-, -, -, hy⟩ := marks_remember (.ofWhole ['a', 'b', '\n', ' ', 'c']) {}
    [.key 'm', .key 'x', .key 'k', .key 'h'] 'y'
  exact ⟨by decide, ((hx (by decide)).1 _ (by decide)).1, ((hy (by decide)).2 (by decide)).1⟩

end Session

end ModalCursor
