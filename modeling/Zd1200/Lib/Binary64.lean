import Mathlib.Algebra.Ring.Nat
import Mathlib.Data.Nat.Log

/-!
# Integers in Binary64

Natural numbers as a language sees them whose only numbers are doubles.

A sum or a product of two of them is the exact one, rounded to 53 significant
bits, ties to even. Below `2^53` nothing is rounded, which is all that a
program with small numbers needs to know.

## Main definitions

* `double`: The nearest double.
* `addDouble`, `mulDouble`: Rounded arithmetic.

## Theorems

* `of_double_lt`: A small double is exact.
* `addDouble_of_lt`, `mulDouble_of_lt`: Small results are exact.
-/

namespace Zd1200

/-- The double nearest to a natural number, ties to even. -/
def double (n : Nat) : Nat :=
  if n < 2 ^ 53 then n
  else
    let unit := 2 ^ (Nat.log2 n - 52)
    let quotient := n / unit
    let rest := n % unit
    if 2 * rest < unit ∨ (2 * rest = unit ∧ quotient % 2 = 0) then quotient * unit
    else (quotient + 1) * unit

def addDouble (a b : Nat) : Nat := double (a + b)

def mulDouble (a b : Nat) : Nat := double (a * b)

/-- A small double is what was rounded. -/
theorem of_double_lt (n : Nat) (h : double n < 2 ^ 53) : double n = n := by
  by_cases hn : n < 2 ^ 53
  · exact if_pos hn
  · -- What is not small is rounded to something that is not small.
    have hlog : 53 ≤ Nat.log2 n := (Nat.le_log2 (by omega)).mpr (by omega)
    have hunit : 2 ^ (Nat.log2 n - 52) * 2 ^ 52 ≤ n := by
      rw [← Nat.pow_add, Nat.sub_add_cancel (by omega)]
      exact Nat.log2_self_le (by omega)
    have hquotient : 2 ^ 52 ≤ n / 2 ^ (Nat.log2 n - 52) :=
      (Nat.le_div_iff_mul_le (Nat.two_pow_pos _)).mpr (by rwa [Nat.mul_comm])
    have htwo : 2 ^ 1 ≤ 2 ^ (Nat.log2 n - 52) := Nat.pow_le_pow_right (by decide) (by omega)
    have hlarge : ∀ q, 2 ^ 52 ≤ q → 2 ^ 53 ≤ q * 2 ^ (Nat.log2 n - 52) := fun q hq =>
      calc 2 ^ 53 = 2 ^ 52 * 2 ^ 1 := by decide
        _ ≤ q * 2 ^ (Nat.log2 n - 52) := Nat.mul_le_mul hq htwo
    simp only [double, if_neg hn] at h
    split at h
    · have := hlarge _ hquotient
      omega
    · have := hlarge (n / 2 ^ (Nat.log2 n - 52) + 1) (by omega)
      omega

theorem addDouble_of_lt (a b : Nat) (h : a + b < 2 ^ 53) : addDouble a b = a + b := if_pos h

theorem mulDouble_of_lt (a b : Nat) (h : a * b < 2 ^ 53) : mulDouble a b = a * b := if_pos h

theorem of_addDouble_lt (a b : Nat) (h : addDouble a b < 2 ^ 53) : addDouble a b = a + b :=
  of_double_lt (a + b) h

theorem of_mulDouble_lt (a b : Nat) (h : mulDouble a b < 2 ^ 53) : mulDouble a b = a * b :=
  of_double_lt (a * b) h

/-- A small sum with a product in it: neither of them was rounded. -/
theorem of_addDouble_mulDouble_lt (a b c : Nat) (h : addDouble a (mulDouble b c) < 2 ^ 53) :
    addDouble a (mulDouble b c) = a + b * c := by
  have hsum := of_addDouble_lt a (mulDouble b c) h
  rw [hsum, of_mulDouble_lt b c (by omega)]

end Zd1200
