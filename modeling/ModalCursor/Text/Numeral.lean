import ModalCursor.Text
/-!
# ModalCursor.Text.Numeral

**Decimal numbers in text.** Counts and settings hold numbers up to `largest`. A count that grows past it stays
there (`saturating`); a setting's value past it is refused (`number?`).
-/

namespace ModalCursor

namespace Numeral

/-- The largest number that a count or a setting holds. -/
def largest : Nat := UInt64.size - 1

def digitValue (c : Char) : Nat := c.toNat - '0'.toNat

/-- The value of a run of decimal digits, held at `largest` digit by digit. -/
def saturating (digits : Text) : Nat :=
  digits.foldl (fun n d => min (10 * n + digitValue d) largest) 0

/-- A run of decimal digits, one at least, whose value is not past `largest`. -/
def digits? (t : Text) : Option Nat :=
  if t ≠ [] ∧ t.all Char.isDigit ∧ Nat.ofDigitChars 10 t 0 ≤ largest then
    some (Nat.ofDigitChars 10 t 0)
  else none

/-- Digits as for `digits?`, with or without one plus sign before them. -/
def number? : Text → Option Nat
  | '+' :: t => digits? t
  | t => digits? t

private theorem foldl_saturating (digits : Text) (n : Nat) :
    digits.foldl (fun n d => min (10 * n + digitValue d) largest) (min n largest) =
      min (Nat.ofDigitChars 10 digits n) largest := by
  induction digits generalizing n with
  | nil => rfl
  | cons d ds ih =>
      have hstep : min (10 * min n largest + digitValue d) largest =
          min (10 * n + digitValue d) largest := by omega
      rw [List.foldl_cons, hstep, ih, Nat.ofDigitChars_cons]
      rfl

/-- Holding the value digit by digit is holding the true value at the end. -/
theorem saturating_eq_min (digits : Text) :
    saturating digits = min (Nat.ofDigitChars 10 digits 0) largest :=
  foldl_saturating digits 0

end Numeral

theorem isDigit_toDigits (n : Nat) : ∀ d ∈ Nat.toDigits 10 n, d.isDigit = true :=
  fun _ hd => Nat.isDigit_of_mem_toDigits (by decide) (by decide) hd

/-- No number but zero starts with this digit. -/
theorem head?_toDigits {n : Nat} (h : 1 ≤ n) : (Nat.toDigits 10 n).head? ≠ some '0' := by
  induction n using Nat.strongRecOn with
  | ind n ih =>
      by_cases hsmall : n < 10
      · have hdigits : ∀ k < 10, 1 ≤ k → [Nat.digitChar k].head? ≠ some '0' := by decide
        rw [Nat.toDigits_of_lt_base hsmall]
        exact hdigits n hsmall h
      · rw [Nat.toDigits_of_base_le (by decide) (by omega), Ne, List.head?_append, Option.or_eq_some_iff]
        rintro (hzero | ⟨hnone, -⟩)
        · exact ih (n / 10) (by omega) (by omega) hzero
        · exact Nat.toDigits_ne_nil (List.head?_eq_none_iff.mp hnone)

end ModalCursor
