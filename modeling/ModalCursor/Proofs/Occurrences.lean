import ModalCursor.Proofs.Frame
/-!
# ModalCursor.Proofs.Occurrences

**A counted search goes from occurrence to occurrence.** What lies on its way are the columns of the row that hold the
character, nearest first (`Search.Meets`). A step goes to the first of them, and what is left of the list lies on the
way from there. So a counted `find` ends at the occurrence with the count's number, or at the last one. A `till` stops a
column short of the first occurrence, has the same occurrence before it again, and stays there for the rest of the
count.

Searches to the right and to the left differ in the order of columns only (`Search.Before`), and everything here is
shown for both at once. The row may be missing and the column may lie past its end. Only for a machine the two are not
the same: a search to the right looks at the next column, and the largest column has none.
-/

namespace ModalCursor

/-! ### The columns of a character -/

namespace Row

/-- The columns that hold a character, from left to right. -/
def columnsOf (r : Row) (ch : Char) : List Nat := (List.range r.length).filter fun c => r[c]? = some ch

/-- Those to the right of `col`, nearest first. -/
def ahead (r : Row) (ch : Char) (col : Nat) : List Nat := (r.columnsOf ch).filter fun c => col < c

/-- Those to the left of `col`, nearest first. -/
def behind (r : Row) (ch : Char) (col : Nat) : List Nat := ((r.columnsOf ch).filter fun c => c < col).reverse

variable {r : Row} {ch : Char} {col c : Nat}

theorem mem_columnsOf : c ∈ r.columnsOf ch ↔ r[c]? = some ch := by
  rw [columnsOf, List.mem_filter, List.mem_range, decide_eq_true_eq, and_iff_right_iff_imp]
  intro hc
  exact (List.getElem?_eq_some_iff.mp hc).1

theorem columnsOf_pairwise (r : Row) (ch : Char) : (r.columnsOf ch).Pairwise (· < ·) :=
  List.pairwise_lt_range.filter _

end Row

/-! ### On the way of a search -/

namespace Search

variable {way : Search} {r : Row} {ch : Char} {col c d : Nat} {rest : List Nat}

/-- On its way the search comes to the column `a` before it comes to `b`. -/
def Before (way : Search) (a b : Nat) : Prop := if way.isForward then a < b else b < a

/-- The nearest occurrence on the way of the search. -/
def nearest? (way : Search) (r : Row) (ch : Char) (col : Nat) : Option Nat :=
  if way.isForward then r.next? ch col else r.prev? ch col

/-- The search from `col` meets these columns: all that lie on its way and hold the character, in this order. -/
structure Meets (way : Search) (r : Row) (ch : Char) (col : Nat) (columns : List Nat) : Prop where
  inOrder : columns.Pairwise way.Before
  mem_iff : ∀ c, c ∈ columns ↔ way.Before col c ∧ r[c]? = some ch

theorem before_of_isForward (hway : way.isForward = true) : way.Before = (· < ·) := by
  funext a b
  simp [Before, hway]

theorem before_of_not_isForward (hway : way.isForward = false) : way.Before = (· > ·) := by
  funext a b
  simp [Before, hway]

theorem nearest?_eq_some_iff : way.nearest? r ch col = some c ↔
    way.Before col c ∧ r[c]? = some ch ∧ ∀ d, way.Before col d → way.Before d c → r[d]? ≠ some ch := by
  cases hway : way.isForward with
  | true =>
      rw [before_of_isForward hway, nearest?, hway, if_pos rfl]
      exact Row.next?_eq_some_iff
  | false =>
      rw [before_of_not_isForward hway, nearest?, hway, if_neg Bool.false_ne_true, Row.prev?_eq_some_iff]
      constructor
      · intro h
        exact ⟨h.1, h.2.1, fun d hcol hc => h.2.2 d hc hcol⟩
      · intro h
        exact ⟨h.1, h.2.1, fun d hc hcol => h.2.2 d hcol hc⟩

theorem Before.trans (hcol : way.Before col c) (hc : way.Before c d) : way.Before col d := by
  cases hway : way.isForward with
  | true =>
      rw [before_of_isForward hway] at *
      exact Nat.lt_trans hcol hc
  | false =>
      rw [before_of_not_isForward hway] at *
      exact Nat.lt_trans hc hcol

theorem Before.asymm (h : way.Before c d) : ¬ way.Before d c := by
  cases hway : way.isForward with
  | true =>
      rw [before_of_isForward hway] at *
      exact Nat.lt_asymm h
  | false =>
      rw [before_of_not_isForward hway] at *
      exact Nat.lt_asymm h

/-- The lists of a row's occurrences to the right and to the left are what the searches meet. -/
theorem meets_ahead (hway : way.isForward = true) (r : Row) (ch : Char) (col : Nat) :
    way.Meets r ch col (r.ahead ch col) where
  inOrder := by
    rw [before_of_isForward hway]
    exact (r.columnsOf_pairwise ch).filter _
  mem_iff := by
    intro c
    rw [before_of_isForward hway, Row.ahead, List.mem_filter, Row.mem_columnsOf, decide_eq_true_eq]
    exact And.comm

theorem meets_behind (hway : way.isForward = false) (r : Row) (ch : Char) (col : Nat) :
    way.Meets r ch col (r.behind ch col) where
  inOrder := by
    rw [before_of_not_isForward hway]
    exact List.pairwise_reverse.mpr ((r.columnsOf_pairwise ch).filter _)
  mem_iff := by
    intro c
    rw [before_of_not_isForward hway, Row.behind, List.mem_reverse, List.mem_filter, Row.mem_columnsOf,
      decide_eq_true_eq]
    exact And.comm

namespace Meets

/-- The nearest occurrence is the first that the search meets. -/
theorem nearest?_eq {columns : List Nat} (h : way.Meets r ch col columns) :
    way.nearest? r ch col = columns.head? := by
  cases columns with
  | nil =>
      refine Option.eq_none_iff_forall_not_mem.mpr fun c hc => ?_
      obtain ⟨hbefore, hch, -⟩ := nearest?_eq_some_iff.mp hc
      exact List.not_mem_nil ((h.mem_iff c).mpr ⟨hbefore, hch⟩)
  | cons c rest =>
      obtain ⟨hbefore, hch⟩ := (h.mem_iff c).mp List.mem_cons_self
      refine nearest?_eq_some_iff.mpr ⟨hbefore, hch, ?_⟩
      intro d hcol hd hdch
      rcases List.mem_cons.mp ((h.mem_iff d).mpr ⟨hcol, hdch⟩) with heq | hmem
      · rw [heq] at hd
        exact hd.asymm hd
      · exact hd.asymm (List.rel_of_pairwise_cons h.inOrder hmem)

/-- From the first one it meets the others. -/
theorem tail (h : way.Meets r ch col (c :: rest)) : way.Meets r ch c rest where
  inOrder := h.inOrder.of_cons
  mem_iff := by
    intro d
    constructor
    · intro hd
      exact ⟨List.rel_of_pairwise_cons h.inOrder hd, ((h.mem_iff d).mp (List.mem_cons_of_mem c hd)).2⟩
    · intro hd
      have hcol : way.Before col c := ((h.mem_iff c).mp List.mem_cons_self).1
      rcases List.mem_cons.mp ((h.mem_iff d).mpr ⟨hcol.trans hd.1, hd.2⟩) with heq | hmem
      · rw [heq] at hd
        exact absurd hd.1 hd.1.asymm
      · exact hmem

end Meets

/-! ### Finding -/

/-- Goes to the occurrence itself. -/
def isFind : Search → Bool
  | findForward | findBackward => true
  | tillForward | tillBackward => false

theorem col_of_isFind (hfind : way.isFind = true) : way.col r ch col = (way.nearest? r ch col).getD col := by
  cases way with
  | findForward | findBackward => rfl
  | tillForward | tillBackward => simp [isFind] at hfind

/-! ### Stopping short -/

/-- The column beside an occurrence, on the side that the search comes from. -/
def short (way : Search) (c : Nat) : Nat := if way.isForward then c - 1 else c + 1

theorem col_of_not_isFind (htill : way.isFind = false) :
    way.col r ch col = ((way.nearest? r ch col).map way.short).getD col := by
  cases way with
  | findForward | findBackward => simp [isFind] at htill
  | tillForward | tillBackward => rfl

/-- From the column beside it, the nearest occurrence is the same again. -/
theorem nearest?_short (h : way.nearest? r ch col = some c) : way.nearest? r ch (way.short c) = some c := by
  obtain ⟨hbefore, hch, -⟩ := nearest?_eq_some_iff.mp h
  -- Nothing fits between a column and the one beside it.
  have hbeside : way.Before (way.short c) c ∧ ∀ d, way.Before (way.short c) d → ¬ way.Before d c := by
    cases hway : way.isForward with
    | true =>
        rw [before_of_isForward hway] at *
        have hlt : col < c := hbefore
        have hshort : way.short c = c - 1 := by simp [short, hway]
        rw [hshort]
        exact ⟨show c - 1 < c by omega, fun d hleft hright => by dsimp only at hleft hright; omega⟩
    | false =>
        rw [before_of_not_isForward hway] at *
        have hshort : way.short c = c + 1 := by simp [short, hway]
        rw [hshort]
        exact ⟨Nat.lt_succ_self c, fun d hright hleft => Nat.not_lt_of_le (Nat.le_of_lt_succ hright) hleft⟩
  exact nearest?_eq_some_iff.mpr ⟨hbeside.1, hch, fun d hshort hd => absurd hd (hbeside.2 d hshort)⟩

/-- So it does not move again. -/
theorem col_col_of_not_isFind (htill : way.isFind = false) :
    way.col r ch (way.col r ch col) = way.col r ch col := by
  cases hnearest : way.nearest? r ch col with
  | none =>
      have hcol : way.col r ch col = col := by rw [col_of_not_isFind htill, hnearest]; rfl
      rw [hcol, hcol]
  | some c =>
      have hcol : way.col r ch col = way.short c := by rw [col_of_not_isFind htill, hnearest]; rfl
      rw [hcol, col_of_not_isFind htill, nearest?_short hnearest]
      rfl

end Search

/-! ### Counted searches -/

/-- The last of the first `n` columns is the one with the number `n`, or the last of all. -/
theorem getLastD_take {n : Nat} (hn : 1 ≤ n) (columns : List Nat) (col : Nat) :
    (columns.take n).getLastD col = (columns[min n columns.length - 1]?).getD col := by
  rw [List.getLastD_eq_getLast?, List.getLast?_eq_getElem?, List.length_take, List.getElem?_take_of_lt (by omega)]

namespace Motion

variable {b : Buffer} {p : Position} {way : Search} {ch : Char} {columns : List Nat}

/-- Each step of a `find` goes to the next column of those that the search meets. -/
theorem run_find (hfind : way.isFind = true) (h : way.Meets (b.row p.row) ch p.col columns) (n : Nat) :
    (search way ch).run b n p = p.withCol ((columns.take n).getLastD p.col) := by
  induction n generalizing p columns with
  | zero => rfl
  | succ n ih =>
      have hstep : (search way ch).step b p = p.withCol (columns.head?.getD p.col) := by
        rw [step, Search.col_of_isFind hfind, h.nearest?_eq]
      cases columns with
      | nil => exact settle_of_fixed _ hstep _
      | cons c rest =>
          rw [run, settle_succ, hstep, List.take_succ_cons, List.getLastD_cons]
          exact ih (p := p.withCol c) h.tail

/-- All steps of a `till` but the first one stay where that ended. -/
theorem run_till {n : Nat} (htill : way.isFind = false) (hn : 1 ≤ n) :
    (search way ch).run b n p = (search way ch).step b p := by
  obtain ⟨more, rfl⟩ := Nat.exists_eq_succ_of_ne_zero (Nat.ne_of_gt hn)
  have hrest : (search way ch).step b ((search way ch).step b p) = (search way ch).step b p :=
    congrArg p.withCol (Search.col_col_of_not_isFind htill)
  rw [run, settle_succ, settle_of_fixed _ hrest]

end Motion

/-- A counted search changes nothing but the column. -/
theorem Cursor.run_search {count : Option Nat} {n : Nat} (hn : Command.AsksFor count n) (b : Buffer) (s : Cursor)
    (way : Search) (ch : Char) :
    s.run b ⟨.move (.search way ch), count⟩ = s.moveTo ((Motion.search way ch).run b n s.position) := by
  rw [← hn.times_eq (.move (.search way ch))]
  rfl

/-! ### On a machine -/

namespace Machine

variable {M : Machine} {b : Buffer} {s : Cursor} {way : Search} {ch : Char} {count : Option Nat} {n : Nat}
  {columns : List Nat}

theorem execute_search (hb : M.Counts b) (hn : Command.AsksFor count n)
    (hcol : way.isForward = true → s.position.col < M.largest) :
    M.execute b ⟨.move (.search way ch), count⟩ s =
      .ok (s.moveTo ((Motion.search way ch).run b n s.position)) := by
  rw [← Cursor.run_search hn]
  refine execute_eq hb fun m hm => ?_
  cases hm
  refine ⟨fun hbelow => absurd hbelow Bool.false_ne_true, ?_⟩
  rw [Motion.readsAhead_search]
  exact hcol

theorem execute_find (hb : M.Counts b) (hn : Command.AsksFor count n) (hfind : way.isFind = true)
    (hcol : way.isForward = true → s.position.col < M.largest)
    (h : way.Meets (b.row s.position.row) ch s.position.col columns) :
    M.execute b ⟨.move (.search way ch), count⟩ s =
      .ok (s.moveTo (s.position.withCol ((columns[min n columns.length - 1]?).getD s.position.col))) := by
  rw [execute_search hb hn hcol, Motion.run_find hfind h, getLastD_take hn.one_le]

theorem execute_till (hb : M.Counts b) (hn : Command.AsksFor count n) (htill : way.isFind = false)
    (hcol : way.isForward = true → s.position.col < M.largest)
    (h : way.Meets (b.row s.position.row) ch s.position.col columns) :
    M.execute b ⟨.move (.search way ch), count⟩ s =
      .ok (s.moveTo (s.position.withCol ((columns.head?.map way.short).getD s.position.col))) := by
  rw [execute_search hb hn hcol, Motion.run_till htill hn.one_le, Motion.step, Search.col_of_not_isFind htill,
    h.nearest?_eq]

/-- **Counted character search.** Let a machine count the rows and the columns of a text, and let a count ask for `n`
steps, from any row and column, also outside the text. Take the columns of the row that hold the character to the right
of the cursor, nearest first, and those to the left in the same way. To find the character to the left ends on the
column with the number `n` among those, or on the last of them, and to go till it ends one column after the nearest of
them, whatever the count is. If the cursor's column is below the largest number of a word, then to find the character to
the right ends in the same way on one of the columns there, and to go till it ends one column before the nearest of
them. Without such a column the cursor stays. None of the machine's checks fails, and nothing but the column changes:
neither the row nor the marks nor the jump mark. -/
theorem counted_searches (hb : M.Counts b) (s : Cursor) (ch : Char) (hn : Command.AsksFor count n) :
    let p := s.position
    let row := b.row p.row
    let ahead := row.ahead ch p.col
    let behind := row.behind ch p.col
    let endsOn : Search → Nat → Prop := fun way col =>
      M.execute b ⟨.move (.search way ch), count⟩ s = .ok (s.moveTo (p.withCol col))
    (ahead.Pairwise (· < ·) ∧ ∀ c, c ∈ ahead ↔ p.col < c ∧ row[c]? = some ch) ∧
      (behind.Pairwise (· > ·) ∧ ∀ c, c ∈ behind ↔ c < p.col ∧ row[c]? = some ch) ∧
      (p.col < M.largest →
        endsOn .findForward ((ahead[min n ahead.length - 1]?).getD p.col) ∧
          (∀ c, ahead.head? = some c → ∃ before, before + 1 = c ∧ endsOn .tillForward before) ∧
          (ahead = [] → endsOn .tillForward p.col)) ∧
      endsOn .findBackward ((behind[min n behind.length - 1]?).getD p.col) ∧
      (∀ c, behind.head? = some c → endsOn .tillBackward (c + 1)) ∧
      (behind = [] → endsOn .tillBackward p.col) := by
  intro p row ahead behind endsOn
  have hahead : ∀ way : Search, way.isForward = true → way.Meets row ch p.col ahead :=
    fun way hway => Search.meets_ahead hway row ch p.col
  have hbehind : ∀ way : Search, way.isForward = false → way.Meets row ch p.col behind :=
    fun way hway => Search.meets_behind hway row ch p.col
  refine ⟨⟨(hahead .findForward rfl).inOrder, (hahead .findForward rfl).mem_iff⟩,
    ⟨(hbehind .findBackward rfl).inOrder, (hbehind .findBackward rfl).mem_iff⟩, ?right, ?left⟩
  case right =>
    intro hcol
    have htill : endsOn .tillForward ((ahead.head?.map (· - 1)).getD p.col) :=
      execute_till hb hn rfl (fun _ => hcol) (hahead .tillForward rfl)
    refine ⟨execute_find hb hn rfl (fun _ => hcol) (hahead .findForward rfl), fun c hc => ?_, fun hnil => ?_⟩
    · have hlt : p.col < c := (((hahead .findForward rfl).mem_iff c).mp (List.mem_of_head? hc)).1
      rw [hc] at htill
      exact ⟨c - 1, Nat.sub_add_cancel (Nat.one_le_of_lt hlt), htill⟩
    · rw [hnil] at htill
      exact htill
  case left =>
    have htill : endsOn .tillBackward ((behind.head?.map (· + 1)).getD p.col) :=
      execute_till hb hn rfl (fun h => absurd h Bool.false_ne_true) (hbehind .tillBackward rfl)
    have hfind : endsOn .findBackward ((behind[min n behind.length - 1]?).getD p.col) :=
      execute_find hb hn rfl (fun h => absurd h Bool.false_ne_true) (hbehind .findBackward rfl)
    refine ⟨hfind, fun c hc => ?_, fun hnil => ?_⟩
    · rw [hc] at htill
      exact htill
    · rw [hnil] at htill
      exact htill

/-- Twice from the middle of a row, from the largest column, and on a row that is missing. -/
theorem counted_searches_three :
    let b := Buffer.ofWhole ['a', 'b', 'a', 'c', 'a', 'd']
    let endsOn : Position → Search → Nat → Prop := fun p way col =>
      word64.execute b ⟨.move (.search way 'a'), some 2⟩ (Cursor.start p) = .ok (Cursor.start (p.withCol col))
    word64.Counts b ∧ Command.AsksFor (some 2) 2 ∧
      endsOn ⟨0, 3⟩ .findForward 4 ∧ endsOn ⟨0, 3⟩ .findBackward 0 ∧
      (∃ before, before + 1 = 4 ∧ endsOn ⟨0, 3⟩ .tillForward before) ∧ endsOn ⟨0, 3⟩ .tillBackward 3 ∧
      endsOn ⟨0, Numeral.largest⟩ .findBackward 2 ∧ endsOn ⟨7, 3⟩ .tillForward 3 := by
  intro b endsOn
  have hb : word64.Counts b := by decide
  have hcount : Command.AsksFor (some 2) 2 := .counted (by decide)
  obtain ⟨-, -, hright, hback, htillBack, -⟩ := counted_searches hb (Cursor.start ⟨0, 3⟩) 'a' hcount
  obtain ⟨hfind, htill, -⟩ := hright (by decide)
  obtain ⟨-, -, -, hpast, -⟩ := counted_searches hb (Cursor.start ⟨0, Numeral.largest⟩) 'a' hcount
  obtain ⟨-, -, hmissing, -⟩ := counted_searches hb (Cursor.start ⟨7, 3⟩) 'a' hcount
  obtain ⟨-, -, hstays⟩ := hmissing (by decide)
  exact ⟨hb, hcount, hfind, hback, htill 4 (by decide), htillBack 2 (by decide), hpast, hstays (by decide)⟩

/-- From the largest column, to find a character to the right does not leave the cursor where it is. It is a fault. -/
theorem not_found_at_largest_column :
    let b := Buffer.ofWhole ['a', 'b', 'a']
    let s := Cursor.start ⟨0, Numeral.largest⟩
    word64.Counts b ∧ (∀ c, s.position.col < c → (b.row 0)[c]? ≠ some 'a') ∧
      word64.execute b ⟨.move (.search .findForward 'a'), none⟩ s = .error .tooLarge ∧
      word64.execute b ⟨.move (.search .findForward 'a'), none⟩ s ≠ .ok s := by
  intro b s
  have hfault : word64.execute b ⟨.move (.search .findForward 'a'), none⟩ s = .error .tooLarge :=
    execute_eq_error rfl (Nat.le_refl Numeral.largest) b
  refine ⟨by decide, fun c hc hch => ?_, hfault, ?_⟩
  · -- The row has three columns.
    obtain ⟨hlength, -⟩ := List.getElem?_eq_some_iff.mp hch
    have hthree : (b.row 0).length = 3 := by decide
    have hcol : Numeral.largest < c := hc
    have hlargest : 3 ≤ Numeral.largest := by decide
    omega
  · rw [hfault]
    intro h
    cases h

end Machine

end ModalCursor
