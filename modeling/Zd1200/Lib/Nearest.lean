import Mathlib.Data.Int.Order.Basic
import Mathlib.Data.Nat.Basic

/-!
# The Nearest Value of a Scale

Quantizing a number to the nearest value of an ascending scale.

A position is nearest to a number if no other value is closer, and of two that
are equally close the lower one counts. So there is one such position at most,
and everything about a quantizer follows from its result being nearest: a
greater number gets no lower position, and a value of the scale gets its own.

An ascending scale is searched for the first value that is not below the
number. Only this value and the one in front of it can be nearest
(`isNearest_below`, `isNearest_above`).

## Main definitions

* `Ascends`: The values of the first positions increase.
* `IsNearest`: A position is nearest to a number.

## Theorems

* `isNearest_first`, `isNearest_below`, `isNearest_above`: Which position is
  nearest, by the neighbours of a number.
* `IsNearest.mono`: A greater number gets no lower position.
* `IsNearest.unique`: There is one nearest position.
* `isNearest_self`: A value is nearest to itself.
-/

namespace Zd1200

/-- The values of the first `n` positions increase. -/
def Ascends (value : Nat → Int) (n : Nat) : Prop :=
  ∀ i j, i < j → j < n → value i < value j

/-- Of the first `n` positions `k` is nearest to `x`, and no position in front
    of it is as near. -/
structure IsNearest (value : Nat → Int) (n : Nat) (x : Int) (k : Nat) : Prop where
  lt : k < n
  below : ∀ i < k, (x - value k).natAbs < (x - value i).natAbs
  le : ∀ i < n, (x - value k).natAbs ≤ (x - value i).natAbs

section Nearest

variable {value : Nat → Int} {n : Nat}

/-- A number that is not above the first value. -/
theorem isNearest_first (hasc : Ascends value n) (hn : 0 < n) (x : Int) (hx : x ≤ value 0) :
    IsNearest value n x 0 := by
  refine ⟨hn, fun i hi => absurd hi (Nat.not_lt_zero i), fun i hi => ?_⟩
  rcases Nat.eq_zero_or_pos i with rfl | hpos
  · exact le_rfl
  · have := hasc 0 i hpos hi
    omega

/-- A number between two values that is not closer to the upper one. -/
theorem isNearest_below (hasc : Ascends value n) (k : Nat) (hk : k + 1 < n) (x : Int)
    (hlow : value k ≤ x) (hclose : x - value k ≤ value (k + 1) - x) : IsNearest value n x k := by
  refine ⟨by omega, fun i hi => ?_, fun i hi => ?_⟩
  · have := hasc i k hi (by omega)
    omega
  · rcases Nat.lt_trichotomy i k with hlt | rfl | hgt
    · have := hasc i k hlt (by omega)
      omega
    · exact le_rfl
    -- Values above the upper neighbour are farther than it.
    · rcases Nat.eq_or_lt_of_le (show k + 1 ≤ i from hgt) with rfl | hfar
      · omega
      · have := hasc (k + 1) i hfar hi
        omega

/-- A number between two values that is closer to the upper one. -/
theorem isNearest_above (hasc : Ascends value n) (k : Nat) (hk : k + 1 < n) (x : Int)
    (hhigh : x ≤ value (k + 1)) (hclose : value (k + 1) - x < x - value k) :
    IsNearest value n x (k + 1) := by
  have hbelow : ∀ i < k + 1, (x - value (k + 1)).natAbs < (x - value i).natAbs := by
    intro i hi
    rcases Nat.eq_or_lt_of_le (Nat.le_of_lt_succ hi) with rfl | hlt
    · omega
    · have := hasc i k hlt (by omega)
      omega
  refine ⟨hk, hbelow, fun i hi => ?_⟩
  rcases Nat.lt_trichotomy i (k + 1) with hlt | rfl | hgt
  · exact Nat.le_of_lt (hbelow i hlt)
  · exact le_rfl
  · have := hasc (k + 1) i hgt hi
    omega

/-- A greater number gets no lower position. -/
theorem IsNearest.mono (hasc : Ascends value n) {x y : Int} {k l : Nat}
    (hk : IsNearest value n x k) (hl : IsNearest value n y l) (hxy : x ≤ y) : k ≤ l := by
  by_contra hlt
  rw [not_le] at hlt
  -- `x` is above the middle of the two values, `y` is not.
  have hvalues := hasc l k hlt hk.lt
  have hx := hk.below l hlt
  have hy := hl.le k hk.lt
  omega

theorem IsNearest.unique (hasc : Ascends value n) {x : Int} {k l : Nat}
    (hk : IsNearest value n x k) (hl : IsNearest value n x l) : k = l :=
  Nat.le_antisymm (hk.mono hasc hl le_rfl) (hl.mono hasc hk le_rfl)

theorem isNearest_self (hasc : Ascends value n) (k : Nat) (hk : k < n) :
    IsNearest value n (value k) k := by
  refine ⟨hk, fun i hi => ?_, fun i _ => ?_⟩
  · have := hasc i k hi hk
    omega
  · omega

end Nearest

end Zd1200
