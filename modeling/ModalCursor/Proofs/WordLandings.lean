import ModalCursor.Buffer.Words
import Mathlib.Order.Bounds.Defs
/-!
# ModalCursor.Proofs.WordLandings

**Where the word motions land.** Each of them has a goal on its row, described by what stands in the columns: for the
next word it is the first ink after a blank, for the end of a word the first ink ahead and the last column of its run,
for the previous word the last ink behind and the first column of its run. If there is one before the edge of the row,
which is the last column going forward and the first one going back, the motion lands on it. Otherwise it goes to the
neighbouring row, or to the edge where there is no such row.

The forward scans are all of one kind (`FindsFirst`): one that stops before the last column stops on a goal, and no
goal lies before the place where it stops. So a goal keeps the scan from the edge, and a scan at the edge has none. The
backward scan is the run at the end of what stands before the cursor (`Text.getElem?_of_le_endRun`).
-/

namespace ModalCursor

/-! ### Scans for a goal -/

/-- The scan that ends at `stop` finds the first goal, or comes to the last column before the edge if there is none.
That column itself is never a goal. -/
structure FindsFirst (goal : Nat → Prop) (edge stop : Nat) : Prop where
  lt_edge : ∀ c, goal c → c + 1 < edge
  stop_le : ∀ c, goal c → stop ≤ c
  goal_stop : stop + 1 < edge → goal stop

namespace FindsFirst

variable {goal : Nat → Prop} {edge stop c : Nat}

/-- A goal keeps the scan from the edge. -/
theorem stop_lt_edge (h : FindsFirst goal edge stop) (hc : goal c) : stop + 1 < edge :=
  Nat.lt_of_le_of_lt (Nat.succ_le_succ (h.stop_le c hc)) (h.lt_edge c hc)

theorem isLeast (h : FindsFirst goal edge stop) (hc : goal c) : IsLeast {c | goal c} stop :=
  ⟨h.goal_stop (h.stop_lt_edge hc), fun c hc => h.stop_le c hc⟩

/-- Without a goal the scan comes to the edge. -/
theorem edge_le (h : FindsFirst goal edge stop) (hnone : ∀ c, ¬ goal c) : edge ≤ stop + 1 :=
  Nat.le_of_not_lt fun hlt => hnone stop (h.goal_stop hlt)

/-- And only then. -/
theorem edge_le_iff (h : FindsFirst goal edge stop) : edge ≤ stop + 1 ↔ ∀ c, ¬ goal c := by
  constructor
  · intro hedge c hc
    exact Nat.not_lt_of_le hedge (h.stop_lt_edge hc)
  · exact h.edge_le

end FindsFirst

namespace Row

variable {r : Row} {col c d s : Nat}

/-- The column holds a character that is no space. -/
def InkAt (r : Row) (col : Nat) : Prop := ∃ ch, r[col]? = some ch ∧ ch ≠ ' '

/-- The column holds a space. -/
def BlankAt (r : Row) (col : Nat) : Prop := r[col]? = some ' '

/-- Ahead of `col` and before the last column, `c` is where a word starts after a blank. -/
def StartsAhead (r : Row) (col c : Nat) : Prop := col < c ∧ c + 2 ≤ r.length ∧ r.InkAt c ∧ r.BlankAt (c - 1)

/-- Ahead of `col` and before the last column, `s` is ink. -/
def InkAhead (r : Row) (col s : Nat) : Prop := col < s ∧ s + 2 ≤ r.length ∧ r.InkAt s

/-- The columns from `s` to `c` are ink. -/
def InkThrough (r : Row) (s c : Nat) : Prop := s ≤ c ∧ ∀ d, s ≤ d → d ≤ c → r.InkAt d

/-- Behind `col` and after the first column, `s` is ink. -/
def InkBehind (r : Row) (col s : Nat) : Prop := 1 ≤ s ∧ s < col ∧ r.InkAt s

/-- The columns from `c` up to `col`, but not `col` itself, are ink. -/
def InkUpTo (r : Row) (col c : Nat) : Prop := c ≤ col ∧ ∀ d, c ≤ d → d < col → r.InkAt d

/-! ### Ink and blanks on the way of a scan -/

theorem InkAt.not_blankAt (h : r.InkAt col) : ¬ r.BlankAt col := by
  obtain ⟨ch, hch, hink⟩ := h
  intro hblank
  rw [BlankAt, hch, Option.some.injEq] at hblank
  exact hink hblank

theorem inkAt_iff : r.InkAt col ↔ ∃ ch, r[col]? = some ch ∧ isBlank ch = false := by
  simp [InkAt, isBlank]

theorem inkAt_of_lt_advance (hle : col ≤ d) (hlt : d < r.advance isInk col) : r.InkAt d := by
  obtain ⟨ch, hch, hink⟩ := getElem?_of_lt_advance hle hlt
  exact inkAt_iff.mpr ⟨ch, hch, by simpa [isInk] using hink⟩

theorem blankAt_of_lt_advance (hle : col ≤ d) (hlt : d < r.advance isBlank col) : r.BlankAt d := by
  obtain ⟨ch, hch, hblank⟩ := getElem?_of_lt_advance hle hlt
  rw [BlankAt, hch, eq_of_beq hblank]

theorem blankAt_advance (h : r.advance isInk col < r.lastCol) : r.BlankAt (r.advance isInk col) := by
  obtain ⟨ch, hch, hblank⟩ := advance_stopped h
  have hspace : ch = ' ' := by simpa [isInk, isBlank] using hblank
  rw [BlankAt, hch, hspace]

theorem inkAt_advance (h : r.advance isBlank col < r.lastCol) : r.InkAt (r.advance isBlank col) :=
  inkAt_iff.mpr (advance_stopped h)

/-! ### The next start of a word -/

/-- Over the ink the scan passes no start, because there is no blank, and over the blanks because there is no ink. -/
theorem StartsAhead.nextWordStart_le (h : r.StartsAhead col c) : r.nextWordStart col ≤ c := by
  obtain ⟨hcol, hlen, hink, hblank⟩ := h
  refine Nat.le_of_not_lt fun hpassed => ?_
  rw [nextWordStart] at hpassed
  rcases Nat.lt_or_ge c (r.advance isInk col + 1) with hword | hgap
  · have hbefore : col ≤ c - 1 := by omega
    exact (inkAt_of_lt_advance hbefore (by omega)).not_blankAt hblank
  · exact hink.not_blankAt (blankAt_of_lt_advance (by omega) hpassed)

theorem startsAhead_nextWordStart (h : r.nextWordStart col + 1 < r.length) :
    r.StartsAhead col (r.nextWordStart col) := by
  have hlast : r.nextWordStart col < r.lastCol := by
    rw [lastCol]
    omega
  have hle : r.advance isInk col ≤ r.nextWordStart col := le_advance _ _ _
  have hink : r.InkAt (r.nextWordStart col) := inkAt_advance hlast
  have hblank : r.BlankAt (r.advance isInk col) := blankAt_advance (Nat.lt_of_le_of_lt hle hlast)
  -- The blank that ends the word is not the ink where the scan stops.
  have hlt : r.advance isInk col < r.nextWordStart col := by
    refine Nat.lt_of_le_of_ne hle ?_
    intro heq
    rw [heq] at hblank
    exact hink.not_blankAt hblank
  have hcol : col ≤ r.advance isInk col := le_advance _ _ _
  have hbefore : r.advance isInk col ≤ r.nextWordStart col - 1 := by omega
  refine ⟨by omega, by omega, hink, blankAt_of_lt_advance hbefore ?_⟩
  show r.nextWordStart col - 1 < r.nextWordStart col
  omega

theorem findsFirst_nextWordStart (r : Row) (col : Nat) :
    FindsFirst (r.StartsAhead col) r.length (r.nextWordStart col) where
  lt_edge := fun _ h => h.2.1
  stop_le := fun _ h => h.nextWordStart_le
  goal_stop := startsAhead_nextWordStart

/-! ### The next ink -/

theorem InkAhead.toNextWord_le (h : r.InkAhead col s) : r.toNextWord col ≤ s := by
  obtain ⟨hcol, hlen, hink⟩ := h
  have hright : r.right col = col + 1 := right_of_lt (by omega)
  refine Nat.le_of_not_lt fun hpassed => ?_
  rw [toNextWord] at hpassed
  exact hink.not_blankAt (blankAt_of_lt_advance (by omega) hpassed)

theorem inkAhead_toNextWord (h : r.toNextWord col + 1 < r.length) : r.InkAhead col (r.toNextWord col) := by
  have hlast : r.toNextWord col < r.lastCol := by
    rw [lastCol]
    omega
  have hle : r.right col ≤ r.toNextWord col := le_advance _ _ _
  have hcol : col ≤ r.right col := r.le_right col
  have hright : r.right col = col + 1 := right_of_lt (by omega)
  exact ⟨by omega, by omega, inkAt_advance hlast⟩

theorem findsFirst_toNextWord (r : Row) (col : Nat) :
    FindsFirst (r.InkAhead col) r.length (r.toNextWord col) where
  lt_edge := fun _ h => h.2.1
  stop_le := fun _ h => h.toNextWord_le
  goal_stop := inkAhead_toNextWord

/-! ### The end of a word -/

theorem inkAt_of_le_wordEndFrom (hlt : s < d) (hle : d ≤ r.wordEndFrom s) : r.InkAt d := by
  rw [wordEndFrom] at hle
  obtain ⟨ch, hch, hink⟩ :=
    Text.getElem?_of_lt_takeWhile (i := d - (s + 1)) (p := isInk) (t := r.drop (s + 1)) (by omega)
  rw [List.getElem?_drop, Nat.add_sub_cancel' hlt] at hch
  exact inkAt_iff.mpr ⟨ch, hch, by simpa [isInk] using hink⟩

/-- What follows the end of a word is no ink. -/
theorem not_inkAt_wordEndFrom_succ (r : Row) (s : Nat) : ¬ r.InkAt (r.wordEndFrom s + 1) := by
  intro hink
  obtain ⟨ch, hch, hink⟩ := inkAt_iff.mp hink
  have hstop : isInk ch = false := by
    refine Text.not_of_getElem?_takeWhile (t := r.drop (s + 1)) ?_
    rw [List.getElem?_drop, ← hch, wordEndFrom]
    congr 1
    omega
  simp [isInk, hink] at hstop

theorem isGreatest_wordEndFrom (h : r.InkAt s) : IsGreatest {c | r.InkThrough s c} (r.wordEndFrom s) := by
  refine ⟨⟨r.le_wordEndFrom s, ?_⟩, ?_⟩
  · intro d hle hge
    rcases Nat.eq_or_lt_of_le hle with rfl | hlt
    · exact h
    · exact inkAt_of_le_wordEndFrom hlt hge
  · intro c hc
    refine Nat.le_of_not_lt fun hpassed => r.not_inkAt_wordEndFrom_succ s (hc.2 _ ?_ hpassed)
    exact Nat.le_succ_of_le (r.le_wordEndFrom s)

/-- At the last column there is nowhere to go. -/
theorem wordEndFrom_lastCol (r : Row) : r.wordEndFrom r.lastCol = r.lastCol :=
  Nat.le_antisymm (wordEndFrom_le_lastCol (Nat.le_refl _)) (r.le_wordEndFrom _)

/-! ### The previous ink -/

/-- What `toPrevWord` looks at: the columns after the first one that are left of the cursor. -/
theorem getElem?_tail_take (hd : d < min col r.lastCol - 1) :
    (r.take (min col r.lastCol - 1 + 1)).tail[d]? = r[d + 1]? := by
  rw [List.getElem?_tail, List.getElem?_take_of_lt (by omega)]

theorem length_tail_take (r : Row) (col : Nat) :
    (r.take (min col r.lastCol - 1 + 1)).tail.length = min col r.lastCol - 1 := by
  rw [List.length_tail, List.length_take, lastCol]
  omega

theorem blankAt_of_toPrevWord_lt (hlt : r.toPrevWord col < d) (hle : d ≤ min col r.lastCol - 1) : r.BlankAt d := by
  have hlength := r.length_tail_take col
  rw [toPrevWord] at hlt
  obtain ⟨ch, hch, hblank⟩ := Text.getElem?_of_le_endRun (i := d - 1) (p := isBlank)
    (t := (r.take (min col r.lastCol - 1 + 1)).tail) (by omega) (by omega)
  rw [getElem?_tail_take (by omega), Nat.sub_add_cancel (by omega)] at hch
  rw [BlankAt, hch, eq_of_beq hblank]

theorem inkAt_toPrevWord (h : 0 < r.toPrevWord col) : r.InkAt (r.toPrevWord col) := by
  have hlength := r.length_tail_take col
  have hle := r.toPrevWord_le col
  have hcol : r.toPrevWord col < r.length := by
    rw [lastCol] at hle
    omega
  refine inkAt_iff.mpr ⟨_, List.getElem?_eq_getElem hcol, ?_⟩
  refine Text.not_of_getElem?_endRun (i := r.toPrevWord col - 1) (t := (r.take (min col r.lastCol - 1 + 1)).tail) ?_ ?_
  · rw [toPrevWord] at h ⊢
    omega
  · rw [getElem?_tail_take (by omega), Nat.sub_add_cancel h, List.getElem?_eq_getElem hcol]

theorem inkBehind_toPrevWord (h : 0 < r.toPrevWord col) : r.InkBehind col (r.toPrevWord col) := by
  have hle := r.toPrevWord_le col
  exact ⟨h, by omega, inkAt_toPrevWord h⟩

theorem InkBehind.le_toPrevWord (h : r.InkBehind col s) (hcol : col ≤ r.lastCol) : s ≤ r.toPrevWord col := by
  obtain ⟨-, hlt, hink⟩ := h
  refine Nat.le_of_not_lt fun hpassed => ?_
  exact hink.not_blankAt (blankAt_of_toPrevWord_lt hpassed (by omega))

theorem InkBehind.isGreatest (h : r.InkBehind col s) (hcol : col ≤ r.lastCol) :
    IsGreatest {s | r.InkBehind col s} (r.toPrevWord col) :=
  ⟨inkBehind_toPrevWord (Nat.lt_of_lt_of_le h.1 (h.le_toPrevWord hcol)), fun _ hs => hs.le_toPrevWord hcol⟩

theorem toPrevWord_eq_zero (hnone : ∀ s, ¬ r.InkBehind col s) : r.toPrevWord col = 0 :=
  Nat.eq_zero_of_not_pos fun h => hnone _ (inkBehind_toPrevWord h)

/-! ### The start of a word -/

theorem inkAt_of_wordStartFrom_le (hcol : col ≤ r.length) (hle : r.wordStartFrom col ≤ d) (hlt : d < col) :
    r.InkAt d := by
  have hlength : (r.take col).length = col := List.length_take_of_le hcol
  rw [wordStartFrom] at hle
  obtain ⟨ch, hch, hink⟩ :=
    Text.getElem?_of_le_endRun (i := d) (p := isInk) (t := r.take col) (by omega) (by omega)
  rw [List.getElem?_take_of_lt hlt] at hch
  exact inkAt_iff.mpr ⟨ch, hch, by simpa [isInk] using hink⟩

/-- What comes before the start of a word is no ink. -/
theorem not_inkAt_of_wordStartFrom (hcol : col ≤ r.length) (hstart : r.wordStartFrom col = d + 1) : ¬ r.InkAt d := by
  intro hink
  obtain ⟨ch, hch, hink⟩ := inkAt_iff.mp hink
  have hlength : (r.take col).length = col := List.length_take_of_le hcol
  have hle := r.wordStartFrom_le col
  have hstop : isInk ch = false := by
    refine Text.not_of_getElem?_endRun (i := d) (t := r.take col) ?_ ?_
    · rw [wordStartFrom] at hstart
      omega
    · rw [List.getElem?_take_of_lt (by omega), hch]
  simp [isInk, hink] at hstop

theorem isLeast_wordStartFrom (hcol : col ≤ r.length) : IsLeast {c | r.InkUpTo col c} (r.wordStartFrom col) := by
  refine ⟨⟨r.wordStartFrom_le col, fun d hle hlt => inkAt_of_wordStartFrom_le hcol hle hlt⟩, ?_⟩
  intro c hc
  refine Nat.le_of_not_lt fun hbefore => ?_
  have hle := r.wordStartFrom_le col
  have hpred : r.wordStartFrom col = r.wordStartFrom col - 1 + 1 := by omega
  exact not_inkAt_of_wordStartFrom hcol hpred (hc.2 _ (by omega) (by omega))

/-- From ink, the run behind it goes on through that ink. -/
theorem InkAt.inkThrough_iff (h : r.InkAt s) : r.InkThrough c s ↔ r.InkUpTo s c := by
  constructor
  · intro hthrough
    exact ⟨hthrough.1, fun d hc hd => hthrough.2 d hc (Nat.le_of_lt hd)⟩
  · intro hupto
    refine ⟨hupto.1, fun d hc hd => ?_⟩
    rcases Nat.eq_or_lt_of_le hd with rfl | hlt
    · exact h
    · exact hupto.2 d hc hlt

theorem InkAt.isLeast_wordStartFrom (h : r.InkAt s) : IsLeast {c | r.InkThrough c s} (r.wordStartFrom s) := by
  obtain ⟨ch, hch, -⟩ := id h
  obtain ⟨hs, -⟩ := List.getElem?_eq_some_iff.mp hch
  simp only [h.inkThrough_iff]
  exact Row.isLeast_wordStartFrom (Nat.le_of_lt hs)

/-! ### The first word of a row -/

theorem IsFirstInk.isLeast (h : r.IsFirstInk col) (hink : r.InkAt s) : IsLeast {s | r.InkAt s} col := by
  rcases h with ⟨ch, hch, hhere, hbefore⟩ | ⟨hblank, -⟩
  · refine ⟨⟨ch, hch, hhere⟩, ?_⟩
    intro d hd
    exact Nat.le_of_not_lt fun hlt => hd.not_blankAt (hbefore d hlt)
  · obtain ⟨ch, hch, hhere⟩ := hink
    exact absurd (hblank ch (List.mem_of_getElem? hch)) hhere

theorem firstInk_of_blank (h : ∀ ch ∈ r, ch = ' ') : r.firstInk = r.lastCol :=
  (isFirstInk_iff.mp (Or.inr ⟨h, rfl⟩)).symm

end Row

namespace Buffer

variable {b : Buffer} {p : Position}

/-! ### The next word -/

/-- **The next word.** From a character of the text, the motion to the next word stays on the row if ahead and before
the last column a word starts after a blank, and lands on the first such start. Otherwise it lands on the first ink of
the next row, or, on the last row, on the last column. -/
theorem nextWordStart_lands (h : b.Holds p) :
    let row := b.row p.row
    let q := b.nextWordStart p
    ((∃ c, row.StartsAhead p.col c) → q.row = p.row ∧ IsLeast {c | row.StartsAhead p.col c} q.col) ∧
      ((∀ c, ¬ row.StartsAhead p.col c) → p.row ≠ b.lastRow →
        q.row = p.row + 1 ∧ (b.row (p.row + 1)).IsFirstInk q.col) ∧
      ((∀ c, ¬ row.StartsAhead p.col c) → p.row = b.lastRow → q = ⟨p.row, row.length - 1⟩) := by
  intro row q
  have hscan := row.findsFirst_nextWordStart p.col
  refine ⟨?_, ?_, ?_⟩
  · intro hahead
    obtain ⟨c, hc⟩ := hahead
    have hq : q = p.withCol (row.nextWordStart p.col) :=
      if_neg fun hcross => Nat.not_le_of_lt (hscan.stop_lt_edge hc) hcross.1
    rw [hq]
    exact ⟨rfl, hscan.isLeast hc⟩
  · intro hnone hrow
    have hq : q = ⟨p.row + 1, (b.row (p.row + 1)).firstInk⟩ :=
      if_pos ⟨hscan.edge_le hnone, Nat.lt_of_le_of_ne (le_lastRow h.1) hrow⟩
    rw [hq]
    exact ⟨rfl, Row.isFirstInk_firstInk _⟩
  · intro hnone hrow
    have hq : q = p.withCol (row.nextWordStart p.col) :=
      if_neg fun hcross => Nat.ne_of_lt hcross.2 hrow
    have hend : row.nextWordStart p.col = row.lastCol :=
      Nat.le_antisymm (Row.nextWordStart_le_lastCol h.2) (Nat.sub_le_of_le_add (hscan.edge_le hnone))
    rw [hq, hend]
    rfl

/-- From `ab cd` over the blank, from its last word to the first ink below, and there to the last column. -/
theorem nextWordStart_lands_three :
    let b := ofWhole ['a', 'b', ' ', 'c', 'd', '\n', ' ', 'x']
    b.Holds ⟨0, 0⟩ ∧ IsLeast {c | (b.row 0).StartsAhead 0 c} (b.nextWordStart ⟨0, 0⟩).col ∧
      (b.row 1).IsFirstInk (b.nextWordStart ⟨0, 3⟩).col ∧ b.nextWordStart ⟨1, 0⟩ = ⟨1, 1⟩ := by
  intro b
  have hlength : (b.row 0).length = 5 ∧ (b.row 1).length = 2 := by decide
  obtain ⟨hahead, -⟩ := nextWordStart_lands (b := b) (p := ⟨0, 0⟩) (by decide)
  obtain ⟨-, hbelow, -⟩ := nextWordStart_lands (b := b) (p := ⟨0, 3⟩) (by decide)
  obtain ⟨-, -, hlast⟩ := nextWordStart_lands (b := b) (p := ⟨1, 0⟩) (by decide)
  refine ⟨by decide, (hahead ⟨3, by decide, by decide, ⟨'c', rfl, by decide⟩, rfl⟩).2, ?_, ?_⟩
  · refine (hbelow ?_ (by decide)).2
    rintro c ⟨hcol, hlen, -⟩
    simp only [hlength] at hcol hlen
    omega
  · refine hlast ?_ (by decide)
    rintro c ⟨hcol, hlen, -⟩
    simp only [hlength] at hcol hlen
    omega

/-! ### The end of a word -/

/-- **The end of a word.** From a character of the text, the motion to the end of a word stays on the row if ahead and
before the last column there is ink, and lands on the end of the run that the first such ink is in. Otherwise it lands
on the end of the first word of the next row, which is its last column if it has no ink and the first one if it is
empty, or, on the last row, on the last column. -/
theorem nextWordEnd_lands (h : b.Holds p) :
    let row := b.row p.row
    let next := b.row (p.row + 1)
    let q := b.nextWordEnd p
    ((∃ s, row.InkAhead p.col s) →
        q.row = p.row ∧
          ∃ s, IsLeast {s | row.InkAhead p.col s} s ∧ IsGreatest {c | row.InkThrough s c} q.col) ∧
      ((∀ s, ¬ row.InkAhead p.col s) → p.row ≠ b.lastRow →
        q.row = p.row + 1 ∧
          (next = [] → q.col = 0) ∧
          ((∀ ch ∈ next, ch = ' ') → q.col = next.length - 1) ∧
          ((∃ s, next.InkAt s) →
            ∃ s, IsLeast {s | next.InkAt s} s ∧ IsGreatest {c | next.InkThrough s c} q.col)) ∧
      ((∀ s, ¬ row.InkAhead p.col s) → p.row = b.lastRow → q = ⟨p.row, row.length - 1⟩) := by
  intro row next q
  have hscan := row.findsFirst_toNextWord p.col
  refine ⟨?_, ?_, ?_⟩
  · intro hahead
    obtain ⟨s, hs⟩ := hahead
    have hq : q = p.withCol (row.wordEndFrom (row.toNextWord p.col)) :=
      if_neg fun hcross => Nat.not_le_of_lt (hscan.stop_lt_edge hs) hcross.1
    have hleast := hscan.isLeast hs
    rw [hq]
    exact ⟨rfl, _, hleast, Row.isGreatest_wordEndFrom hleast.1.2.2⟩
  · intro hnone hrow
    have hq : q = ⟨p.row + 1, next.wordEndFrom next.firstInk⟩ :=
      if_pos ⟨hscan.edge_le hnone, Nat.lt_of_le_of_ne (le_lastRow h.1) hrow⟩
    rw [hq]
    refine ⟨rfl, ?_, ?_, ?_⟩
    · intro hnil
      rw [hnil]
      rfl
    · intro hblank
      show next.wordEndFrom next.firstInk = next.length - 1
      rw [Row.firstInk_of_blank hblank, Row.wordEndFrom_lastCol, Row.lastCol]
    · intro hink
      obtain ⟨s, hs⟩ := hink
      have hleast := (Row.isFirstInk_firstInk next).isLeast hs
      exact ⟨_, hleast, Row.isGreatest_wordEndFrom hleast.1⟩
  · intro hnone hrow
    have hq : q = p.withCol (row.wordEndFrom (row.toNextWord p.col)) :=
      if_neg fun hcross => Nat.ne_of_lt hcross.2 hrow
    have hend : row.toNextWord p.col = row.lastCol :=
      Nat.le_antisymm (Row.toNextWord_le_lastCol h.2) (Nat.sub_le_of_le_add (hscan.edge_le hnone))
    rw [hq, hend, Row.wordEndFrom_lastCol]
    rfl

/-- From `a bc` to the end of its last word, from the column before that to the end of a row of spaces below, and there
nowhere. -/
theorem nextWordEnd_lands_three :
    let b := ofWhole ['a', ' ', 'b', 'c', '\n', ' ', ' ']
    b.Holds ⟨0, 0⟩ ∧ (b.nextWordEnd ⟨0, 0⟩).row = 0 ∧
      (∃ s, IsLeast {s | (b.row 0).InkAhead 0 s} s ∧
        IsGreatest {c | (b.row 0).InkThrough s c} (b.nextWordEnd ⟨0, 0⟩).col) ∧
      (b.nextWordEnd ⟨0, 2⟩).row = 1 ∧ (b.nextWordEnd ⟨0, 2⟩).col = 1 ∧
      b.nextWordEnd ⟨1, 1⟩ = ⟨1, 1⟩ := by
  intro b
  have hlength : (b.row 0).length = 4 ∧ (b.row 1).length = 2 := by decide
  obtain ⟨hahead, -⟩ := nextWordEnd_lands (b := b) (p := ⟨0, 0⟩) (by decide)
  obtain ⟨-, hbelow, -⟩ := nextWordEnd_lands (b := b) (p := ⟨0, 2⟩) (by decide)
  obtain ⟨-, -, hlast⟩ := nextWordEnd_lands (b := b) (p := ⟨1, 1⟩) (by decide)
  obtain ⟨hrow, hend⟩ := hahead ⟨2, by decide, by decide, 'b', rfl, by decide⟩
  have hnone : ∀ s, ¬ (b.row 0).InkAhead 2 s := by
    rintro s ⟨hcol, hlen, -⟩
    omega
  have hspaces : b.row 1 = [' ', ' '] := by decide
  obtain ⟨hnext, -, hblank, -⟩ := hbelow hnone (by decide)
  refine ⟨by decide, hrow, hend, hnext, hblank (by simp [hspaces]), hlast ?_ (by decide)⟩
  rintro s ⟨hcol, hlen, -⟩
  simp only [hlength] at hcol hlen
  omega

/-! ### The previous word -/

/-- **The previous word.** From a character of the text, the motion to the previous word stays on the row if behind and
after the first column there is ink, and lands on the start of the run that the last such ink is in. Otherwise it
enters the row above at its last column, whatever stands there, and lands on the start of the ink before that column,
which is the first column of an empty row. On the first row it ends at the first column. -/
theorem prevWordStart_lands (h : b.Holds p) :
    let row := b.row p.row
    let prev := b.row (p.row - 1)
    let q := b.prevWordStart p
    ((∃ s, row.InkBehind p.col s) →
        q.row = p.row ∧
          ∃ s, IsGreatest {s | row.InkBehind p.col s} s ∧ IsLeast {c | row.InkThrough c s} q.col) ∧
      ((∀ s, ¬ row.InkBehind p.col s) → 0 < p.row →
        q.row = p.row - 1 ∧ (prev = [] → q.col = 0) ∧ IsLeast {c | prev.InkUpTo (prev.length - 1) c} q.col) ∧
      ((∀ s, ¬ row.InkBehind p.col s) → p.row = 0 → q = ⟨0, 0⟩) := by
  intro row prev q
  refine ⟨?_, ?_, ?_⟩
  · intro hbehind
    obtain ⟨s, hs⟩ := hbehind
    have hgreatest := hs.isGreatest h.2
    have hq : q = p.withCol (row.wordStartFrom (row.toPrevWord p.col)) :=
      if_neg fun hcross => Nat.ne_of_gt hgreatest.1.1 hcross.1
    rw [hq]
    exact ⟨rfl, _, hgreatest, hgreatest.1.2.2.isLeast_wordStartFrom⟩
  · intro hnone hrow
    have hq : q = ⟨p.row - 1, prev.wordStartFrom prev.lastCol⟩ := if_pos ⟨Row.toPrevWord_eq_zero hnone, hrow⟩
    rw [hq]
    refine ⟨rfl, ?_, Row.isLeast_wordStartFrom (Nat.sub_le _ _)⟩
    intro hnil
    rw [hnil]
    rfl
  · intro hnone hrow
    have hq : q = p.withCol (row.wordStartFrom (row.toPrevWord p.col)) :=
      if_neg fun hcross => Nat.ne_of_gt hcross.2 hrow
    rw [hq, Row.toPrevWord_eq_zero hnone]
    exact Position.ext hrow (Nat.le_zero.mp (row.wordStartFrom_le 0))

/-- From the second column to the blank that ends the row above `foo b `, where the ink before it starts, from there to
the start of `foo`, and there nowhere. -/
theorem prevWordStart_lands_three :
    let b := ofWhole ['f', 'o', 'o', ' ', 'b', ' ', '\n', 'a', 'b']
    b.Holds ⟨1, 1⟩ ∧ (b.prevWordStart ⟨1, 1⟩).row = 0 ∧
      IsLeast {c | (b.row 0).InkUpTo 5 c} (b.prevWordStart ⟨1, 1⟩).col ∧
      (∃ s, IsGreatest {s | (b.row 0).InkBehind 4 s} s ∧
        IsLeast {c | (b.row 0).InkThrough c s} (b.prevWordStart ⟨0, 4⟩).col) ∧
      b.prevWordStart ⟨0, 1⟩ = ⟨0, 0⟩ := by
  intro b
  have hnone : ∀ n s, ¬ (b.row n).InkBehind 1 s := by
    intro n s hs
    exact Nat.not_lt_of_le hs.1 hs.2.1
  obtain ⟨-, habove, -⟩ := prevWordStart_lands (b := b) (p := ⟨1, 1⟩) (by decide)
  obtain ⟨hbehind, -⟩ := prevWordStart_lands (b := b) (p := ⟨0, 4⟩) (by decide)
  obtain ⟨-, -, hfirst⟩ := prevWordStart_lands (b := b) (p := ⟨0, 1⟩) (by decide)
  obtain ⟨hrow, -, hleast⟩ := habove (hnone 1) (by decide)
  exact ⟨by decide, hrow, hleast, (hbehind ⟨2, by decide, by decide, 'o', rfl, by decide⟩).2, hfirst (hnone 0) rfl⟩

end Buffer

end ModalCursor
