import ModalCursor.Machine
import ModalCursor.Proofs.Counts
import ModalCursor.Proofs.Paragraphs
import ModalCursor.Proofs.WordLandings
/-!
# ModalCursor.Proofs.NoFaults

**No motion runs into a fault.** A machine that checks every index, every difference and every sum (`Machine`) executes
all commands without a fault, and ends where this library says. The position may lie anywhere below the largest number
of a word, inside the text or outside of it, and the text may be any that the machine can count.

Most motions do not even need that. `Machine.Allows` has what each of them does need: those that look at the next column
have to start below the largest, and those that look at the next row below the largest row. At the largest column the
first ones do run into a fault (`Machine.execute_eq_error`).

Each loop is told by the run that it takes: to the right in `Machine.scanRight_eq`, and down in `Machine.descend_eq`,
which both the scans to the left and the paragraph motion up are made with. What a loop reads is in these lemmas a list,
one character for each column that it may pass, so that the induction goes along that list. A motion that is repeated
has to be allowed again after each of its steps (`Machine.Allows.step`).
-/

namespace ModalCursor

/-! ### What motions look at -/

/-- The motion looks at the column after the one that it starts from. -/
def Motion.readsAhead : Motion → Bool
  | right | wordNext | wordEnd | search .findForward _ | search .tillForward _ => true
  | _ => false

/-- The motion looks at the row after the one that it starts from, whether or not there is one. -/
def Motion.readsBelow : Motion → Bool
  | down | paragraphDown => true
  | _ => false

def Action.readsAhead : Action → Bool
  | move m => m.readsAhead
  | _ => false

theorem Motion.readsAhead_search (way : Search) (ch : Char) : (search way ch).readsAhead = way.isForward := by
  cases way <;> rfl

/-- What a machine needs for the motion from a position. -/
structure Machine.Allows (M : Machine) (m : Motion) (p : Position) : Prop where
  row_lt : m.readsBelow = true → p.row < M.largest
  col_lt : m.readsAhead = true → p.col < M.largest

/-! ### Checks that pass -/

theorem Row.read_eq_ok {r : Row} {i : Nat} {ch : Char} (h : r[i]? = some ch) : r.read i = .ok ch := by
  rw [read, h]

theorem checkDifference_of_le {m n : Nat} (h : n ≤ m) : checkDifference m n = .ok () := if_pos h

namespace Machine

variable {M : Machine} {b : Buffer} {r : Row} {q : Char → Bool} {p : Position} {ahead back col : Nat}

theorem checkSum_of_le {m n : Nat} (h : m + n ≤ M.largest) : M.checkSum m n = .ok () := if_pos h

/-- Taking one from a signed number cannot fail, not even at zero. -/
theorem checkSigned_signed (M : Machine) (n : Nat) : M.checkSigned (M.signed n) 1 = .ok () := by
  have hle : M.signed n ≤ M.largestSigned := Int.min_le_right _ _
  have hpos : 0 ≤ M.signed n := by
    unfold signed
    omega
  rw [checkSigned, if_neg (by omega), if_neg (by omega)]

/-! ### Loops take runs -/

/-- The loop to the right takes a run of what it reads. It never passes the last column, so that is one character less
than the row has left. -/
theorem scanRight_eq {passed : Text} (hcol : col < M.largest) (hrow : r.length ≤ M.largest)
    (hlength : passed.length = r.length - (col + 1))
    (hread : ∀ i ch, passed[i]? = some ch → r[col + i + ahead]? = some ch) :
    M.scanRight r q ahead col = .ok (col + (passed.takeWhile q).length) := by
  induction passed generalizing col with
  | nil =>
      have hedge : ¬ col + 1 < r.length := by
        rw [List.length_nil] at hlength
        omega
      rw [scanRight, checkSum_of_le hcol, Fault.ok_bind, if_neg hedge]
      rfl
  | cons ch passed ih =>
      rw [List.length_cons] at hlength
      have hinside : col + 1 < r.length := by omega
      have hhere : r.read (col + ahead) = .ok ch := Row.read_eq_ok (hread 0 ch rfl)
      have hrest : M.scanRight r q ahead (col + 1) = .ok (col + 1 + (passed.takeWhile q).length) := by
        refine ih (by omega) (by omega) fun i next hnext => ?_
        rw [← hread (i + 1) next hnext]
        congr 1
        omega
      rw [scanRight, checkSum_of_le hcol, Fault.ok_bind, if_pos hinside, hhere, Fault.ok_bind]
      by_cases hq : q ch
      · rw [if_pos hq, hrest, List.takeWhile_cons_of_pos hq, List.length_cons, Nat.add_assoc, Nat.add_comm 1]
      · rw [if_neg hq, List.takeWhile_cons_of_neg hq]
        rfl

/-- The loop down takes a run of what lies behind, the nearest first. -/
theorem descend_eq {α : Type} {q : α → Bool} {f : Nat → Except Fault Bool} {l : List α}
    (htest : ∀ i a, l[i]? = some a → f (l.length - i) = .ok (q a)) :
    descend f l.length = .ok (l.length - (l.takeWhile q).length) := by
  induction l with
  | nil =>
      rw [descend]
      rfl
  | cons a l ih =>
      have hhere : f (l.length + 1) = .ok (q a) := htest 0 a rfl
      have hrest : descend f l.length = .ok (l.length - (l.takeWhile q).length) := by
        refine ih fun i next hnext => ?_
        rw [← htest (i + 1) next hnext, List.length_cons, Nat.add_sub_add_right]
      rw [List.length_cons, descend, if_pos (Nat.succ_pos _), hhere, Fault.ok_bind]
      by_cases hq : q a
      · rw [if_pos hq, checkDifference_of_le (Nat.le_add_left 1 _), Fault.ok_bind, Nat.add_sub_cancel, hrest,
          List.takeWhile_cons_of_pos hq, List.length_cons, Nat.add_sub_add_right]
      · rw [if_neg hq, List.takeWhile_cons_of_neg hq]
        rfl

/-- A scan to the left takes a run at the end of what it reads. -/
theorem scanLeft_eq {t : Text} (hback : back ≤ 1)
    (hread : ∀ i ch, t[i]? = some ch → r[i + 1 - back]? = some ch) :
    scanLeft r q back t.length = .ok (t.length - (t.reverse.takeWhile q).length) := by
  have hscan := descend_eq (q := q) (l := t.reverse)
    (f := fun c => do checkDifference c back; return q (← r.read (c - back))) ?_
  · rw [List.length_reverse] at hscan
    exact hscan
  · intro i ch hch
    obtain ⟨hi, -⟩ := List.getElem?_eq_some_iff.mp hch
    rw [List.length_reverse] at hi ⊢
    rw [List.getElem?_reverse hi] at hch
    have hread : r.read (t.length - i - back) = .ok ch := by
      refine Row.read_eq_ok ?_
      rw [← hread _ ch hch]
      congr 1
      omega
    rw [checkDifference_of_le (by omega), Fault.ok_bind, hread]
    rfl

/-! ### Scans of a row -/

theorem scanRight_here (hcol : col < M.largest) (hrow : r.length ≤ M.largest) (q : Char → Bool) :
    M.scanRight r q 0 col = .ok (r.advance q col) := by
  refine scanRight_eq hcol hrow ?_ fun i ch hch => ?_
  · rw [List.length_drop, List.length_dropLast, Nat.sub_sub, Nat.add_comm 1]
  · rw [List.getElem?_drop, List.getElem?_dropLast, Option.ite_none_right_eq_some] at hch
    exact hch.2

theorem wordEndFrom_eq (hcol : col < M.largest) (hrow : r.length ≤ M.largest) :
    M.wordEndFrom r col = .ok (r.wordEndFrom col) := by
  refine scanRight_eq hcol hrow List.length_drop fun i ch hch => ?_
  rw [List.getElem?_drop] at hch
  rw [← hch, Nat.add_right_comm]

theorem wordStartFrom_eq (hcol : col ≤ r.length) : wordStartFrom r col = .ok (r.wordStartFrom col) := by
  have hlength : (r.take col).length = col := List.length_take_of_le hcol
  have hscan := scanLeft_eq (r := r) (q := isInk) (t := r.take col) (Nat.le_refl 1) fun i ch hch => by
    obtain ⟨hi, -⟩ := List.getElem?_eq_some_iff.mp hch
    rwa [List.getElem?_take_of_lt (hlength ▸ hi)] at hch
  rw [hlength] at hscan
  exact hscan

theorem toPrevWord_eq (r : Row) (col : Nat) : toPrevWord r col = .ok ⟨r.toPrevWord col, r.toPrevWord col == 0⟩ := by
  have hlength := r.length_tail_take col
  have hscan := scanLeft_eq (r := r) (q := isBlank) (t := (r.take (min col r.lastCol - 1 + 1)).tail)
    (Nat.zero_le 1) fun i ch hch => by
      obtain ⟨hi, -⟩ := List.getElem?_eq_some_iff.mp hch
      rwa [Row.getElem?_tail_take (hlength ▸ hi)] at hch
  rw [hlength] at hscan
  rw [toPrevWord, hscan]
  rfl

theorem lastCol_lt (hpos : 0 < M.largest) (hrow : r.length ≤ M.largest) : r.lastCol < M.largest := by
  rw [Row.lastCol]
  omega

/-- A scan that starts below the largest number ends below it. -/
theorem advance_lt (hcol : col < M.largest) (hrow : r.length ≤ M.largest) (q : Char → Bool) :
    r.advance q col < M.largest := by
  rcases Nat.le_total col r.lastCol with hon | hpast
  · exact Nat.lt_of_le_of_lt (Row.advance_le_lastCol hon) (lastCol_lt (Nat.zero_lt_of_lt hcol) hrow)
  · rw [Row.advance_of_lastCol_le hpast]
    exact hcol

theorem wordEndFrom_lt (hcol : col < M.largest) (hrow : r.length ≤ M.largest) : r.wordEndFrom col < M.largest := by
  have hle := (List.takeWhile_prefix isInk (l := r.drop (col + 1))).length_le
  rw [List.length_drop] at hle
  rw [Row.wordEndFrom]
  omega

theorem right_eq (hcol : col < M.largest) (r : Row) : M.right r col = .ok (r.right col) := by
  rw [right, checkSum_of_le hcol]
  rfl

theorem right_lt (hcol : col < M.largest) (hrow : r.length ≤ M.largest) : r.right col < M.largest := by
  rw [Row.right]
  split <;> omega

theorem toNextStart_eq (hcol : col < M.largest) (hrow : r.length ≤ M.largest) :
    M.toNextStart r col = .ok ⟨r.nextWordStart col, r.length ≤ r.nextWordStart col + 1⟩ := by
  have hblank := advance_lt hcol hrow isInk
  have hstop := advance_lt hblank hrow isBlank
  rw [toNextStart, scanRight_here hcol hrow, Fault.ok_bind, scanRight_here hblank hrow, Fault.ok_bind, land,
    checkSum_of_le hstop]
  rfl

theorem toNextWord_eq (hcol : col < M.largest) (hrow : r.length ≤ M.largest) :
    M.toNextWord r col = .ok ⟨r.toNextWord col, r.length ≤ r.toNextWord col + 1⟩ := by
  have hright := right_lt hcol hrow
  have hstop := advance_lt hright hrow isBlank
  rw [toNextWord, right_eq hcol, Fault.ok_bind, scanRight_here hright hrow, Fault.ok_bind, land, checkSum_of_le hstop]
  rfl

/-! ### Words -/

theorem toPrevWord_le_length (r : Row) (col : Nat) : r.toPrevWord col ≤ r.length := by
  have hle := r.toPrevWord_le col
  rw [Row.lastCol] at hle
  omega

theorem rowNextWordStart_eq (hcol : col < M.largest) (hrow : r.length ≤ M.largest) :
    M.rowNextWordStart r col = .ok (r.nextWordStart col) := by
  rw [rowNextWordStart, toNextStart_eq hcol hrow]
  rfl

theorem toNextWord_lt (hcol : col < M.largest) (hrow : r.length ≤ M.largest) : r.toNextWord col < M.largest :=
  advance_lt (right_lt hcol hrow) hrow isBlank

theorem rowNextWordEnd_eq (hcol : col < M.largest) (hrow : r.length ≤ M.largest) :
    M.rowNextWordEnd r col = .ok (r.nextWordEnd col) := by
  rw [rowNextWordEnd, toNextWord_eq hcol hrow, Fault.ok_bind]
  exact wordEndFrom_eq (toNextWord_lt hcol hrow) hrow

theorem rowPrevWordStart_eq (r : Row) (col : Nat) : rowPrevWordStart r col = .ok (r.prevWordStart col) := by
  rw [rowPrevWordStart, toPrevWord_eq, Fault.ok_bind]
  exact wordStartFrom_eq (toPrevWord_le_length r col)

theorem Counts.rowCount_le (hb : M.Counts b) : b.rowCount ≤ M.largest :=
  Nat.le_trans hb.1 (Nat.div_le_self _ _)

theorem Counts.length_row_le (hb : M.Counts b) (n : Nat) : (b.row n).length ≤ M.largest := by
  rw [Buffer.row, Buffer.row?]
  cases hn : b.rows[n]? with
  | none => exact Nat.zero_le _
  | some row => exact hb.2 row (List.mem_of_getElem? hn)

theorem Counts.lastRow_lt (hb : M.Counts b) : b.lastRow < M.largest := Nat.lt_of_lt_of_le b.lastRow_lt hb.rowCount_le

theorem Counts.firstInk_lt (hb : M.Counts b) (n : Nat) : (b.row n).firstInk < M.largest :=
  advance_lt (Nat.zero_lt_of_lt hb.lastRow_lt) (hb.length_row_le n) isBlank

theorem nextWordStart_eq (hb : M.Counts b) (hcol : p.col < M.largest) :
    M.nextWordStart b p = .ok (b.nextWordStart p) := by
  rw [nextWordStart, Buffer.nextWordStart, toNextStart_eq hcol (hb.length_row_le _), Fault.ok_bind]
  simp only [decide_eq_true_eq]
  split
  · next hcross =>
      rw [checkSum_of_le (Nat.lt_trans hcross.2 hb.lastRow_lt)]
      rfl
  · rfl

theorem nextWordEnd_eq (hb : M.Counts b) (hcol : p.col < M.largest) : M.nextWordEnd b p = .ok (b.nextWordEnd p) := by
  have hrow := hb.length_row_le
  rw [nextWordEnd, Buffer.nextWordEnd, toNextWord_eq hcol (hrow _), Fault.ok_bind]
  simp only [decide_eq_true_eq]
  split
  · next hcross =>
      rw [checkSum_of_le (Nat.lt_trans hcross.2 hb.lastRow_lt), Fault.ok_bind]
      split
      · next hempty =>
          rw [hempty]
          rfl
      · rw [wordEndFrom_eq (hb.firstInk_lt _) (hrow _)]
        rfl
  · rw [wordEndFrom_eq (toNextWord_lt hcol (hrow _)) (hrow _)]
    rfl

theorem prevWordStart_eq (b : Buffer) (p : Position) : prevWordStart b p = .ok (b.prevWordStart p) := by
  rw [prevWordStart, Buffer.prevWordStart, toPrevWord_eq, Fault.ok_bind]
  simp only [beq_iff_eq]
  split
  · next hcross =>
      have hlast : (b.row (p.row - 1)).lastCol ≤ (b.row (p.row - 1)).length := Nat.sub_le _ _
      rw [checkDifference_of_le hcross.2, Fault.ok_bind, wordStartFrom_eq hlast]
      rfl
  · rw [wordStartFrom_eq (toPrevWord_le_length _ _)]
    rfl

end Machine

/-! ### Paragraphs row by row -/

namespace Buffer

variable {b : Buffer} {row : Nat}

/-- Upward the row above decides: the motion stops there, or goes on as if from there. -/
theorem paragraphUp_succ (b : Buffer) (row : Nat) :
    b.paragraphUp (row + 1) = if b.isBreak row = true then row else b.paragraphUp row := by
  simp only [paragraphUp, List.take_add_one]
  cases hrow : b.rows[row]? with
  | none =>
      have hmissing : b.isBreak row = false := by simp [isBreak, row?, hrow]
      rw [hmissing, if_neg Bool.false_ne_true, Option.toList_none, List.append_nil]
  | some r =>
      have hlength : (b.rows.take row).length = row :=
        List.length_take_of_le (Nat.le_of_lt (List.getElem?_eq_some_iff.mp hrow).1)
      rw [isBreak_of_row hrow, Option.toList_some, List.reverse_append, List.reverse_singleton, List.singleton_append,
        List.length_append, List.length_singleton, hlength]
      cases hin : inParagraph r with
      | true =>
          rw [List.takeWhile_cons_of_pos hin, List.length_cons, Bool.not_true, if_neg Bool.false_ne_true]
          omega
      | false =>
          rw [List.takeWhile_cons_of_neg (by simp [hin]), List.length_nil, Bool.not_false, if_pos rfl]
          rfl

/-- Downward it is the row below, short of the last row. -/
theorem paragraphDown_of_lt (h : row + 1 < b.lastRow) :
    b.paragraphDown row = if b.isBreak (row + 1) = true then row + 1 else b.paragraphDown (row + 1) := by
  have hrow : row + 1 < b.rows.length := Nat.lt_trans h b.lastRow_lt
  simp only [paragraphDown]
  rw [isBreak_of_row (List.getElem?_eq_getElem hrow), List.drop_eq_getElem_cons hrow]
  cases hin : inParagraph b.rows[row + 1] with
  | true =>
      rw [List.takeWhile_cons_of_pos hin, List.length_cons, Bool.not_true, if_neg Bool.false_ne_true]
      omega
  | false =>
      rw [List.takeWhile_cons_of_neg (by simp [hin]), List.length_nil, Bool.not_false, if_pos rfl]
      omega

theorem paragraphDown_of_le (h : b.lastRow ≤ row + 1) : b.paragraphDown row = b.lastRow := by
  unfold paragraphDown
  omega

end Buffer

namespace Machine

variable {M : Machine} {b : Buffer} {m : Motion} {p : Position}

theorem descend_rows (b : Buffer) (row : Nat) :
    descend (fun n => return !b.isBreak n) row = .ok (b.paragraphUp (row + 1)) := by
  induction row with
  | zero =>
      have hfirst : b.paragraphUp (0 + 1) = 0 := Nat.le_zero.mp (b.paragraphUp_le 1)
      rw [descend, hfirst]
      rfl
  | succ row ih =>
      rw [descend, if_pos (Nat.succ_pos _), pure_bind, Buffer.paragraphUp_succ]
      cases b.isBreak (row + 1) with
      | true => rfl
      | false =>
          rw [Bool.not_false, if_pos rfl, checkDifference_of_le (Nat.le_add_left 1 _), Fault.ok_bind,
            Nat.add_sub_cancel, ih, if_neg Bool.false_ne_true]

theorem paragraphUp_eq (b : Buffer) (row : Nat) : paragraphUp b row = .ok (b.paragraphUp row) := by
  cases row with
  | zero =>
      rw [paragraphUp, if_pos rfl, b.paragraphUp_zero]
      rfl
  | succ row =>
      rw [paragraphUp, if_neg (Nat.succ_ne_zero _), checkDifference_of_le (Nat.le_add_left 1 _), Fault.ok_bind,
        Nat.add_sub_cancel]
      exact descend_rows b row

theorem ascend_rows (hb : M.Counts b) (row : Nat) :
    ∃ stop, M.ascend b.lastRow (fun n => !b.isBreak n) (row + 1) = .ok stop ∧
      min stop b.lastRow = b.paragraphDown row := by
  induction hleft : b.lastRow - (row + 1) generalizing row with
  | zero =>
      have hend : b.lastRow ≤ row + 1 := Nat.sub_eq_zero_iff_le.mp hleft
      refine ⟨row + 1, ?_, ?_⟩
      · rw [ascend, if_neg (Nat.not_lt_of_le hend)]
        rfl
      · rw [Buffer.paragraphDown_of_le hend, Nat.min_eq_right hend]
  | succ left ih =>
      have hbefore : row + 1 < b.lastRow := by omega
      have hlast := hb.lastRow_lt
      rw [ascend, if_pos hbefore, Buffer.paragraphDown_of_lt hbefore]
      cases b.isBreak (row + 1) with
      | true => exact ⟨row + 1, rfl, Nat.min_eq_left (Nat.le_of_lt hbefore)⟩
      | false =>
          obtain ⟨stop, hstop, hmin⟩ := ih (row + 1) (by omega)
          refine ⟨stop, ?_, hmin⟩
          rw [Bool.not_false, if_pos rfl, checkSum_of_le (by omega), Fault.ok_bind, hstop]

theorem paragraphDown_eq (hb : M.Counts b) {row : Nat} (hrow : row < M.largest) :
    M.paragraphDown b row = .ok (b.paragraphDown row) := by
  obtain ⟨stop, hstop, hmin⟩ := ascend_rows hb row
  rw [paragraphDown, checkSum_of_le hrow, Fault.ok_bind, hstop, ← hmin]
  rfl

/-! ### Searches -/

/-- Only the searches to the right have to look at the next column. -/
theorem search_eq {r : Row} {way : Search} {col : Nat} (hrow : r.length ≤ M.largest)
    (hcol : way.isForward = true → col < M.largest) (ch : Char) : M.search r ch col way = .ok (way.col r ch col) := by
  cases way with
  | findForward =>
      rw [search, checkSum_of_le (hcol rfl)]
      rfl
  | findBackward => rfl
  | tillForward =>
      rw [search, checkSum_of_le (hcol rfl), Fault.ok_bind]
      show (if r.findForward ch col = col then _ else _) = Except.ok (r.tillForward ch col)
      rw [Row.tillForward]
      cases hfound : r.next? ch col with
      | none =>
          have hstays : r.findForward ch col = col := by rw [Row.findForward, hfound, Option.getD_none]
          rw [if_pos hstays]
          rfl
      | some c =>
          have hlt := (Row.next?_bounds hfound).1
          have hgoes : r.findForward ch col = c := by rw [Row.findForward, hfound, Option.getD_some]
          rw [hgoes, if_neg (Nat.ne_of_gt hlt), checkDifference_of_le (Nat.one_le_of_lt hlt)]
          rfl
  | tillBackward =>
      show (if r.findBackward ch col = col then _ else _) = Except.ok (r.tillBackward ch col)
      rw [Row.tillBackward]
      cases hfound : r.prev? ch col with
      | none =>
          have hstays : r.findBackward ch col = col := by rw [Row.findBackward, hfound, Option.getD_none]
          rw [if_pos hstays]
          rfl
      | some c =>
          have hlt := Row.prev?_lt hfound
          -- What is found has a place on the row, so the next column has one in a word.
          obtain ⟨hlength, -⟩ := List.getElem?_eq_some_iff.mp (Row.prev?_eq_some_iff.mp hfound).2.1
          have hgoes : r.findBackward ch col = c := by rw [Row.findBackward, hfound, Option.getD_some]
          rw [hgoes, if_neg (Nat.ne_of_lt hlt), checkSum_of_le (Nat.le_trans hlength hrow)]
          rfl

/-! ### Motions -/

theorem Holds.allows (hp : M.Holds p) (m : Motion) : M.Allows m p := ⟨fun _ => hp.1, fun _ => hp.2⟩

theorem step_eq (hb : M.Counts b) (h : M.Allows m p) : M.step b p m = .ok (m.step b p) := by
  cases m with
  | down =>
      rw [step, down, checkSum_of_le (h.row_lt rfl)]
      rfl
  | right =>
      rw [step, right_eq (h.col_lt rfl)]
      rfl
  | up | left => rfl
  | wordNext => exact nextWordStart_eq hb (h.col_lt rfl)
  | wordEnd => exact nextWordEnd_eq hb (h.col_lt rfl)
  | wordPrev => exact prevWordStart_eq b p
  | search way ch =>
      have hcol := h.col_lt
      rw [Motion.readsAhead_search] at hcol
      rw [step, search_eq (hb.length_row_le _) hcol]
      rfl
  | paragraphUp =>
      rw [step, paragraphUp_eq]
      rfl
  | paragraphDown =>
      rw [step, paragraphDown_eq hb (h.row_lt rfl)]
      rfl

theorem step_row_lt (hb : M.Counts b) (hm : m.readsBelow = true) (hrow : p.row < M.largest) :
    (m.step b p).row < M.largest := by
  have hcount := hb.rowCount_le
  cases m with
  | down =>
      show Rows.down b.rowCount p.row < M.largest
      rw [Rows.down]
      split <;> omega
  | paragraphDown => exact Nat.lt_of_le_of_lt (b.paragraphDown_le_lastRow _) hb.lastRow_lt
  | up | left | right | wordNext | wordEnd | wordPrev | search | paragraphUp => simp [Motion.readsBelow] at hm

theorem step_col_lt (hb : M.Counts b) (hm : m.readsAhead = true) (hcol : p.col < M.largest) :
    (m.step b p).col < M.largest := by
  have hlength := hb.length_row_le
  have hlastCol : (b.row p.row).lastCol < M.largest := lastCol_lt (Nat.zero_lt_of_lt hcol) (hlength _)
  cases m with
  | right => exact right_lt hcol (hlength _)
  | wordNext =>
      show (b.nextWordStart p).col < M.largest
      rw [Buffer.nextWordStart]
      split
      · exact hb.firstInk_lt _
      · exact advance_lt (advance_lt hcol (hlength _) isInk) (hlength _) isBlank
  | wordEnd =>
      show (b.nextWordEnd p).col < M.largest
      rw [Buffer.nextWordEnd]
      split
      · exact wordEndFrom_lt (hb.firstInk_lt _) (hlength _)
      · exact wordEndFrom_lt (toNextWord_lt hcol (hlength _)) (hlength _)
  | search way ch =>
      rw [Motion.readsAhead_search] at hm
      exact Nat.lt_of_le_of_lt (Search.col_bounds hm).2 (Nat.max_lt.mpr ⟨hcol, hlastCol⟩)
  | down | up | left | wordPrev | paragraphUp | paragraphDown => simp [Motion.readsAhead] at hm

/-- What a step needs, the next one has, because the position is where it was or on the text. -/
theorem Allows.step (hb : M.Counts b) (h : M.Allows m p) : M.Allows m (m.step b p) where
  row_lt := fun hm => step_row_lt hb hm (h.row_lt hm)
  col_lt := fun hm => step_col_lt hb hm (h.col_lt hm)

theorem run_succ (M : Machine) (b : Buffer) (m : Motion) (n : Nat) (p : Position) :
    M.run b m (n + 1) p = M.step b p m >>= fun next => if next = p then pure p else M.run b m n next := rfl

theorem run_eq (hb : M.Counts b) (h : M.Allows m p) (n : Nat) : M.run b m n p = .ok (m.run b n p) := by
  induction n generalizing p with
  | zero => rfl
  | succ n ih =>
      rw [run_succ, step_eq hb h, Fault.ok_bind, ih (h.step hb)]
      show _ = Except.ok (if m.step b p = p then p else m.run b n (m.step b p))
      split <;> rfl

/-! ### Looking past the largest column -/

theorem checkSum_of_lt {m n : Nat} (h : M.largest < m + n) : M.checkSum m n = .error .tooLarge :=
  if_neg (Nat.not_le_of_lt h)

/-- From the largest column on there is no next column to look at. -/
theorem step_eq_error (hm : m.readsAhead = true) (hcol : M.largest ≤ p.col) (b : Buffer) :
    M.step b p m = .error .tooLarge := by
  have hnext : M.checkSum p.col 1 = .error .tooLarge := checkSum_of_lt (Nat.lt_succ_of_le hcol)
  cases m with
  | right =>
      rw [step, right, hnext]
      rfl
  | wordNext =>
      rw [step, nextWordStart, toNextStart, scanRight, hnext]
      rfl
  | wordEnd =>
      rw [step, nextWordEnd, toNextWord, right, hnext]
      rfl
  | search way ch =>
      cases way with
      | findForward | tillForward =>
          rw [step, search, hnext]
          rfl
      | findBackward | tillBackward => simp [Motion.readsAhead] at hm
  | down | up | left | wordPrev | paragraphUp | paragraphDown => simp [Motion.readsAhead] at hm

/-! ### Commands -/

theorem jumpBefore_eq (hb : M.Counts b) (s : Cursor) (number : Nat) :
    M.jumpBefore b s number = .ok (s.jumpTo (s.position.withRow (Rows.goTo b.rowCount ((number : Int) - 1)))) := by
  have hrow : Rows.goTo b.rowCount (M.signed number - 1) = Rows.goTo b.rowCount ((number : Int) - 1) := by
    have hrows := hb.1
    unfold Rows.goTo signed
    omega
  rw [jumpBefore, checkSigned_signed, Fault.ok_bind, hrow]
  rfl

/-- A command needs what its motion does. -/
theorem execute_eq (hb : M.Counts b) {c : Command} {s : Cursor}
    (hs : ∀ m, c.action = .move m → M.Allows m s.position) : M.execute b c s = .ok (s.run b c) := by
  obtain ⟨a, count⟩ := c
  cases a with
  | move m =>
      show (M.run b m _ s.position >>= fun q => pure (if m.isJump = true then s.jumpTo q else s.moveTo q)) = _
      rw [run_eq hb (hs m rfl), Fault.ok_bind, Cursor.run]
      dsimp only
      split <;> rfl
  | last | goto => exact jumpBefore_eq hb s _
  | _ => rfl

theorem execute_eq_error {c : Command} {s : Cursor} (hc : c.action.readsAhead = true)
    (hcol : M.largest ≤ s.position.col) (b : Buffer) : M.execute b c s = .error .tooLarge := by
  obtain ⟨a, count⟩ := c
  cases a with
  | move m =>
      have htimes : Command.times ⟨.move m, count⟩ ≠ 0 := Nat.ne_of_gt (Nat.le_max_left 1 _)
      obtain ⟨n, hn⟩ := Nat.exists_eq_succ_of_ne_zero htimes
      rw [execute, hn]
      dsimp only
      rw [run_succ, step_eq_error hc hcol]
      rfl
  | first | last | goto | firstNonBlank | lineStart | lineEnd | setMark | jumpToMark | jumpToMarkLine | jumpPrevLine =>
      simp [Action.readsAhead] at hc

/-- **No motion runs into a fault.** Let a machine count the rows and the columns of a text, and let both coordinates of
a position be below the largest number of its words. The position may lie outside the text. Then the machine takes the
word scans of a row from that column, every motion once or any number of times, and every command with whatever count,
marks and jump mark, and none of its checks fails: every index is on its row, no difference is below the least number
of its type, and no sum is above the largest. Each ends where the library says. -/
theorem no_motion_faults (hb : M.Counts b) (hp : M.Holds p) :
    (∀ r : Row, r.length ≤ M.largest →
        M.rowNextWordStart r p.col = .ok (r.nextWordStart p.col) ∧
        M.rowNextWordEnd r p.col = .ok (r.nextWordEnd p.col) ∧
        rowPrevWordStart r p.col = .ok (r.prevWordStart p.col)) ∧
      (∀ m : Motion, M.step b p m = .ok (m.step b p)) ∧
      (∀ (m : Motion) (n : Nat), M.run b m n p = .ok (m.run b n p)) ∧
      ∀ (c : Command) (s : Cursor), s.position = p → M.execute b c s = .ok (s.run b c) := by
  refine ⟨fun r hr => ?_, fun m => step_eq hb (hp.allows m), fun m => run_eq hb (hp.allows m), ?_⟩
  · exact ⟨rowNextWordStart_eq hp.2 hr, rowNextWordEnd_eq hp.2 hr, rowPrevWordStart_eq r p.col⟩
  · intro c s hs
    exact execute_eq hb fun m _ => hs ▸ hp.allows m

/-- From the last row and column that words of 64 bits allow, both far outside the text, and from inside. -/
theorem no_motion_faults_outside :
    let b := Buffer.ofWhole ['a', ' ', 'b', '\n', '\n', 'c']
    let outside : Position := ⟨Numeral.largest - 1, Numeral.largest - 1⟩
    let s : Cursor := Cursor.start outside
    word64.Counts b ∧ word64.Holds outside ∧ word64.Holds ⟨0, 0⟩ ∧
      word64.step b outside .wordPrev = .ok ⟨Numeral.largest - 2, 0⟩ ∧
      word64.step b outside .paragraphDown = .ok ⟨2, Numeral.largest - 1⟩ ∧
      word64.run b .wordNext 3 ⟨0, 0⟩ = .ok ⟨2, 0⟩ ∧
      word64.execute b ⟨.goto, some 0⟩ s = .ok (s.jumpTo ⟨0, Numeral.largest - 1⟩) := by
  intro b outside s
  have hb : word64.Counts b := by decide
  have houtside : word64.Holds outside := by decide
  have hinside : word64.Holds ⟨0, 0⟩ := by decide
  obtain ⟨-, hstep, -, hcommand⟩ := no_motion_faults hb houtside
  obtain ⟨-, -, hrun, -⟩ := no_motion_faults hb hinside
  have hprev : Motion.wordPrev.step b outside = ⟨Numeral.largest - 2, 0⟩ := rfl
  have hdown : Motion.paragraphDown.step b outside = ⟨2, Numeral.largest - 1⟩ := rfl
  have hwords : Motion.wordNext.run b 3 ⟨0, 0⟩ = ⟨2, 0⟩ := by decide
  have hgoto : s.run b ⟨.goto, some 0⟩ = s.jumpTo ⟨0, Numeral.largest - 1⟩ := rfl
  refine ⟨hb, houtside, hinside, ?_, ?_, ?_, ?_⟩
  · rw [hstep, hprev]
  · rw [hstep, hdown]
  · rw [hrun, hwords]
  · rw [hcommand _ s rfl, hgoto]

/-- One column further to the right than that is too far. -/
example : word64.step (Buffer.ofWhole ['a']) ⟨0, Numeral.largest⟩ .right = .error .tooLarge := rfl

end Machine

end ModalCursor
