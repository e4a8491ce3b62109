/-!
# ModalCursor.Text.Ranges

Classes of characters given as a table of **code point ranges**.
-/

namespace ModalCursor

/-- A first and a last code point, both in the range. -/
abbrev CodeRange := Nat × Nat

/-- The character's code point lies in one of the ranges. -/
def inRanges (ranges : List CodeRange) (c : Char) : Bool :=
  ranges.any fun r => r.1 ≤ c.toNat && c.toNat ≤ r.2

end ModalCursor
