import ModalCursor.Text
/-!
# ModalCursor.Row

A **row** is the characters of one line of a text, without its ending. The functions here move a column on a
row. Only the ASCII space counts as blank: a tab or any other white space is ink.

A column is *on* a row when it is at most the row's last column. No function here needs that: they take any
natural number for a column. A machine has words for its numbers, and a largest column with them. What becomes of these
functions there is in `ModalCursor.Machine`.
-/

namespace ModalCursor

/-- The characters of one line. -/
abbrev Row := Text

/-- A blank, which separates words. -/
def isBlank (c : Char) : Bool := c == ' '

def isInk (c : Char) : Bool := !isBlank c

namespace Row

/-- The column of the last character, or zero on an empty row. -/
def lastCol (r : Row) : Nat := r.length - 1

/-- One column to the left, but not past the first. -/
def left (col : Nat) : Nat := col - 1

/-- One column to the right, but not past the last character. -/
def right (r : Row) (col : Nat) : Nat :=
  if col + 1 < r.length then col + 1 else col

/-- Steps right from `col` over characters that satisfy `p`, but not past the last column. -/
def advance (r : Row) (p : Char → Bool) (col : Nat) : Nat :=
  col + ((r.dropLast.drop col).takeWhile p).length

/-- The first column that is not blank; the last column if all are; zero on an empty row. -/
def firstInk (r : Row) : Nat := r.advance isBlank 0

/-- The column has the first character that is no space, or the last one of all if every character is a space.
On an empty row it is zero. -/
def IsFirstInk (r : Row) (col : Nat) : Prop :=
  (∃ ch, r[col]? = some ch ∧ ch ≠ ' ' ∧ ∀ d < col, r[d]? = some ' ') ∨
    ((∀ ch ∈ r, ch = ' ') ∧ col = r.length - 1)

/-! ### Where a scan ends -/

theorem le_advance (r : Row) (p : Char → Bool) (col : Nat) : col ≤ r.advance p col :=
  Nat.le_add_right _ _

/-- A scan that starts on the row stays on it. -/
theorem advance_le_lastCol {r : Row} {p : Char → Bool} {col : Nat} (h : col ≤ r.lastCol) :
    r.advance p col ≤ r.lastCol := by
  have hle := (List.takeWhile_prefix p (l := r.dropLast.drop col)).length_le
  rw [List.length_drop, List.length_dropLast] at hle
  rw [lastCol] at *
  rw [advance]
  omega

/-- A scan that starts at the last column or past the end does not move. -/
theorem advance_of_lastCol_le {r : Row} {p : Char → Bool} {col : Nat} (h : r.lastCol ≤ col) :
    r.advance p col = col := by
  have : r.dropLast.drop col = [] := by
    rw [List.drop_eq_nil_iff, List.length_dropLast]
    exact h
  simp [advance, this]

/-! ### What a scan passes -/

section Scan

variable {r : Row} {p : Char → Bool} {col d : Nat}

/-- What a scan passes satisfies `p`. -/
theorem getElem?_of_lt_advance (hle : col ≤ d) (hlt : d < r.advance p col) :
    ∃ ch, r[d]? = some ch ∧ p ch = true := by
  rw [advance] at hlt
  obtain ⟨ch, hch, hp⟩ :=
    Text.getElem?_of_lt_takeWhile (i := d - col) (p := p) (t := r.dropLast.drop col) (by omega)
  rw [List.getElem?_drop, Nat.add_sub_cancel' hle, List.getElem?_dropLast, Option.ite_none_right_eq_some] at hch
  exact ⟨ch, hch.2, hp⟩

/-- Before the last column a scan is stopped only by a character that does not satisfy `p`. -/
theorem advance_stopped (h : r.advance p col < r.lastCol) :
    ∃ ch, r[r.advance p col]? = some ch ∧ p ch = false := by
  rw [lastCol] at h
  obtain ⟨ch, hch⟩ : ∃ ch, r[r.advance p col]? = some ch := ⟨_, List.getElem?_eq_getElem (by omega)⟩
  refine ⟨ch, hch, Text.not_of_getElem?_takeWhile (t := r.dropLast.drop col) ?_⟩
  rw [List.getElem?_drop, List.getElem?_dropLast, ← advance, if_pos h, hch]

end Scan

/-! ### The first ink -/

theorem firstInk_le_lastCol (r : Row) : r.firstInk ≤ r.lastCol :=
  advance_le_lastCol (Nat.zero_le _)

@[simp] theorem firstInk_nil : firstInk [] = 0 := rfl

/-- Only spaces come before the first ink. -/
theorem getElem?_of_lt_firstInk {r : Row} {d : Nat} (h : d < r.firstInk) : r[d]? = some ' ' := by
  obtain ⟨ch, hch, hblank⟩ := getElem?_of_lt_advance (Nat.zero_le d) h
  rw [hch, eq_of_beq hblank]

theorem isFirstInk_firstInk (r : Row) : r.IsFirstInk r.firstInk := by
  have hbefore : ∀ d < r.firstInk, r[d]? = some ' ' := fun _ => getElem?_of_lt_firstInk
  rcases Nat.lt_or_eq_of_le r.firstInk_le_lastCol with hlt | hlast
  · obtain ⟨ch, hch, hink⟩ := advance_stopped hlt
    refine Or.inl ⟨ch, hch, ?_, hbefore⟩
    rintro rfl
    simp [isBlank] at hink
  · -- The scan came to the last column, so only the character there can be no space.
    by_cases hall : ∀ ch ∈ r, ch = ' '
    · exact Or.inr ⟨hall, hlast⟩
    · obtain ⟨ch, hmem, hch⟩ : ∃ ch ∈ r, ch ≠ ' ' := by simpa using hall
      obtain ⟨d, hhere⟩ := List.getElem?_of_mem hmem
      obtain ⟨hd, -⟩ := List.getElem?_eq_some_iff.mp hhere
      have hd_eq : d = r.firstInk := by
        rcases Nat.lt_or_ge d r.firstInk with hlt | hge
        · rw [hbefore d hlt, Option.some.injEq] at hhere
          exact absurd hhere.symm hch
        · rw [lastCol] at hlast
          omega
      rw [hd_eq] at hhere
      exact Or.inl ⟨ch, hhere, hch, hbefore⟩

/-- A row has one first ink. -/
theorem isFirstInk_iff {r : Row} {col : Nat} : r.IsFirstInk col ↔ col = r.firstInk := by
  constructor
  · intro h
    rcases h with ⟨ch, hch, hink, hbefore⟩ | ⟨hblank, hcol⟩
    · rcases r.isFirstInk_firstInk with ⟨ch', hch', hink', hbefore'⟩ | ⟨hblank', -⟩
      · rcases Nat.lt_trichotomy col r.firstInk with hlt | heq | hgt
        · rw [hbefore' col hlt, Option.some.injEq] at hch
          exact absurd hch.symm hink
        · exact heq
        · rw [hbefore r.firstInk hgt, Option.some.injEq] at hch'
          exact absurd hch'.symm hink'
      · exact absurd (hblank' ch (List.mem_of_getElem? hch)) hink
    · rcases r.isFirstInk_firstInk with ⟨ch', hch', hink', -⟩ | ⟨-, hcol'⟩
      · exact absurd (hblank ch' (List.mem_of_getElem? hch')) hink'
      · rw [hcol, hcol']
  · rintro rfl
    exact r.isFirstInk_firstInk

end Row

end ModalCursor
