import RequestFlow.Number.Literal

/-!
# Digits of natural numbers

A natural number in decimal digits, and what is made of the digits again. The digits are those of
the library (`Nat.toDigits`), and so is their value (`Nat.ofDigitChars`); what is added here is how
the reader of numbers sees them.

* `digitsValue_padded`: digits stand for the number that they are of, also with zeros in front;
* `absorb_toDigits`: all digits of a number that fits in 64 bits count;
* `toDigits_head`: only zero begins with a zero.
-/

namespace RequestFlow.Number

theorem digitsValue_eq (ds : List Char) : digitsValue ds = Nat.ofDigitChars 10 ds 0 := rfl

/-- Zeros in front do not count. -/
theorem digitsValue_padded (count n : Nat) :
    digitsValue (List.replicate count '0' ++ Nat.toDigits 10 n) = n := by
  rw [digitsValue_eq, Nat.ofDigitChars_append, Nat.ofDigitChars_replicate_zero, Nat.mul_zero,
    Nat.ofDigitChars_ten_toDigits]

theorem le_ofDigitChars (ds : List Char) (n : Nat) : n ≤ Nat.ofDigitChars 10 ds n := by
  induction ds generalizing n with
  | nil => exact Nat.le_refl n
  | cons d ds ih =>
    rw [Nat.ofDigitChars_cons]
    have hrest := ih (10 * n + (d.toNat - '0'.toNat))
    omega

/-- Digits count as long as the number stays below the bound, which it does if it ends there. -/
theorem absorb_of_lt {ds : List Char} {n : Nat} (h : Nat.ofDigitChars 10 ds n < Nat.pow 2 64) :
    absorb n ds = (Nat.ofDigitChars 10 ds n, []) := by
  induction ds generalizing n with
  | nil => rfl
  | cons d ds ih =>
    have hnext : 10 * n + digitValue d < Nat.pow 2 64 := by
      have hle := le_ofDigitChars ds (10 * n + digitValue d)
      exact Nat.lt_of_le_of_lt hle h
    rw [absorb]
    simp only [hnext, if_true]
    exact ih h

theorem absorb_toDigits {n : Nat} (h : n < Nat.pow 2 64) :
    absorb 0 (Nat.toDigits 10 n) = (n, []) := by
  have hvalue := Nat.ofDigitChars_ten_toDigits (n := n)
  rw [absorb_of_lt (by rw [hvalue]; exact h), hvalue]

/-- Only the digits of zero begin with a zero. -/
theorem toDigits_head {n : Nat} (h : (Nat.toDigits 10 n).head? = some '0') : n = 0 := by
  induction n using Nat.strongRecOn with
  | ind n ih =>
    rw [Nat.toDigits_eq_if (by decide)] at h
    split at h
    · simpa using h
    · obtain ⟨d, ds, hds⟩ := List.exists_cons_of_ne_nil (Nat.toDigits_ne_nil (n := n / 10) (b := 10))
      have hhead : (Nat.toDigits 10 (n / 10)).head? = some '0' := by
        rw [hds] at h ⊢
        exact h
      have hzero := ih (n / 10) (by omega) hhead
      omega

end RequestFlow.Number
