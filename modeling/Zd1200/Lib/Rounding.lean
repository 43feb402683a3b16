import Mathlib.Algebra.Order.Ring.Int
import Mathlib.Algebra.Order.BigOperators.Group.List
import Mathlib.Tactic.Linarith

/-!
# Rounded Quotients

Quotients rounded to the nearest integer, the way integer programs do it: half
of the divisor is added before a division that truncates.

A quotient multiplied by its divisor misses the dividend by at most half of the
divisor. Over many quotients the errors add up to no more than half of the sum
of the divisors, and that is what `abs_sum_roundDiv_le` says: however a total is
cut into shares, the rounded rates give the total back up to half of what it was
cut over.

## Main definitions

* `roundDiv`: A quotient rounded to the nearest integer.

## Theorems

* `two_mul_abs_roundDiv_le`: A rounded quotient misses by at most one half.
* `roundDiv_nonneg`, `roundDiv_le`: A rounded quotient keeps integer bounds.
* `abs_sum_roundDiv_le`: Rounded quotients miss a sum by at most half of the
  divisors.
-/

namespace Zd1200

/-- `(total + count / 2) / count`, with divisions that truncate. -/
def roundDiv (total count : Int) : Int := (total + count.tdiv 2).tdiv count

theorem roundDiv_eq (total count : Int) (ht : 0 ≤ total) (hc : 0 < count) :
    roundDiv total count = (total + count / 2) / count := by
  have hhalf : count.tdiv 2 = count / 2 := Int.tdiv_eq_ediv_of_nonneg hc.le
  rw [roundDiv, hhalf, Int.tdiv_eq_ediv_of_nonneg (by omega)]

theorem two_mul_abs_roundDiv_le (total count : Int) (ht : 0 ≤ total) (hc : 0 < count) :
    2 * |roundDiv total count * count - total| ≤ count := by
  rw [roundDiv_eq total count ht hc]
  have hmul := Int.mul_ediv_add_emod (total + count / 2) count
  have hlo := Int.emod_nonneg (total + count / 2) hc.ne'
  have hhi := Int.emod_lt_of_pos (total + count / 2) hc
  rw [mul_comm] at hmul
  rcases abs_cases ((total + count / 2) / count * count - total) with ⟨habs, -⟩ | ⟨habs, -⟩
  · rw [habs]
    omega
  · rw [habs]
    omega

theorem roundDiv_nonneg (total count : Int) (ht : 0 ≤ total) (hc : 0 < count) :
    0 ≤ roundDiv total count := by
  rw [roundDiv_eq total count ht hc]
  exact Int.ediv_nonneg (by omega) hc.le

theorem roundDiv_le (total count bound : Int) (ht : 0 ≤ total) (hc : 0 < count)
    (h : total ≤ bound * count) : roundDiv total count ≤ bound := by
  rw [roundDiv_eq total count ht hc]
  -- Half of the divisor is not enough for one more.
  refine Int.lt_add_one_iff.mp (Int.ediv_lt_of_lt_mul hc ?_)
  rw [add_mul, one_mul]
  omega

/-- Rounded quotients miss a sum by at most half of the divisors. -/
theorem abs_sum_roundDiv_le {α : Type} (total count rate : α → Int) (xs : List α)
    (h : ∀ x ∈ xs, 0 ≤ total x ∧ 0 < count x ∧ rate x = roundDiv (total x) (count x)) :
    2 * |(xs.map fun x => rate x * count x).sum - (xs.map total).sum| ≤ (xs.map count).sum := by
  induction xs with
  | nil => simp only [List.map_nil, List.sum_nil, sub_self, abs_zero, mul_zero, le_refl]
  | cons x xs ih =>
      rcases h x List.mem_cons_self with ⟨ht, hc, hrate⟩
      have hrest := ih fun y hy => h y (List.mem_cons_of_mem _ hy)
      have hfirst := two_mul_abs_roundDiv_le (total x) (count x) ht hc
      rw [List.map_cons, List.map_cons, List.map_cons, List.sum_cons, List.sum_cons, List.sum_cons,
        hrate, add_sub_add_comm]
      calc 2 * |roundDiv (total x) (count x) * count x - total x +
              ((xs.map fun x => rate x * count x).sum - (xs.map total).sum)|
          ≤ 2 * (|roundDiv (total x) (count x) * count x - total x| +
              |(xs.map fun x => rate x * count x).sum - (xs.map total).sum|) :=
            mul_le_mul_of_nonneg_left (abs_add_le _ _) (by decide)
        _ ≤ count x + (xs.map count).sum := by
            rw [mul_add]
            exact add_le_add hfirst hrest

end Zd1200
