import ModalCursor.Text
/-!
# ModalCursor.Text.WhiteSpace

The **white space** characters: those with the Unicode property `White_Space`. Rows that hold nothing else
separate paragraphs, and arguments are trimmed of them.
-/

namespace ModalCursor

/-- Has the Unicode property `White_Space`. -/
def isWhiteSpace (c : Char) : Bool :=
  let n := c.toNat
  (0x9 ≤ n && n ≤ 0xD) || n == 0x20 || n == 0x85 || n == 0xA0 || n == 0x1680
    || (0x2000 ≤ n && n ≤ 0x200A) || n == 0x2028 || n == 0x2029 || n == 0x202F || n == 0x205F
    || n == 0x3000

namespace Text

/-- The text without white space at either end. -/
def trim (t : Text) : Text :=
  dropEndWhile isWhiteSpace (t.dropWhile isWhiteSpace)

/-- What is trimmed away is white space at the front and at the back, and none is left at either end. -/
theorem trim_spec (t : Text) :
    ∃ front back : Text, t = front ++ t.trim ++ back ∧
      (∀ c ∈ front, isWhiteSpace c = true) ∧ (∀ c ∈ back, isWhiteSpace c = true) ∧
      (∀ c, t.trim.head? = some c → isWhiteSpace c = false) ∧
      ∀ c, t.trim.getLast? = some c → isWhiteSpace c = false := by
  obtain ⟨back, hrest, hback⟩ := exists_append_dropEndWhile isWhiteSpace (t.dropWhile isWhiteSpace)
  refine ⟨t.takeWhile isWhiteSpace, back, ?_, List.all_eq_true.mp List.all_takeWhile, hback, ?_,
    fun c => getLast?_dropEndWhile⟩
  · rw [List.append_assoc, trim, ← hrest, List.takeWhile_append_dropWhile]
  · intro c hc
    -- The first character left is the one that the run of white space stopped at.
    have hfirst : (t.dropWhile isWhiteSpace).head? = some c := by
      rw [hrest, List.head?_append, ← trim, hc, Option.some_or]
    have hstop := List.head?_dropWhile_not isWhiteSpace t
    rw [hfirst] at hstop
    exact hstop

end Text

end ModalCursor
