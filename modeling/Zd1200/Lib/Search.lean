import Mathlib.Algebra.Ring.Nat
import Mathlib.Data.List.Sort
import Mathlib.Data.List.Perm.Basic

/-!
# Sorting and Searching

The two binary searches of C programs, and the sort they rely on.

`lowerBound` narrows an interval to the first position at which a predicate
fails. `search` stops as soon as a three-way comparison says equal. Both carry
fuel, and both specifications only ask for as much of it as the interval is
long. The array being searched does not occur: a search is about the answers
that its positions give, and `Monotone` orders are what sorted arrays answer
with.

A library sort promises order and nothing about equal elements, so `SortFn`
is any function that keeps the elements and orders them. A caller that takes
one as a parameter can not rely on more than that by accident.

## Main definitions

* `lowerBound`: The first position at which a predicate fails.
* `search`: A position at which a comparison says equal.
* `searchArray`: The same loop over an array, which has a fault for a read
  outside of it and one for not ending.
* `SortFn`: A sort, with no promise about equal elements.
* `insertionSortFn`: The stable instance.

## Theorems

* `lowerBound_spec`: Below the result the predicate holds, from it on it fails.
* `search_spec`: The search finds an equal position if there is one.
* `searchArray_eq`: Over an array that holds the interval there is no fault.
-/

namespace Zd1200

/-- The first position in `[low, high)` at which `below` fails, or `high`. -/
def lowerBound (below : Nat → Bool) : Nat → Nat → Nat → Nat
  | 0, low, _ => low
  | fuel + 1, low, high =>
      if low < high then
        let middle := low + (high - low) / 2
        if below middle then lowerBound below fuel (middle + 1) high
        else lowerBound below fuel low middle
      else low

/-- A position in `[low, high)` at which `order` says equal. -/
def search (order : Nat → Ordering) : Nat → Nat → Nat → Option Nat
  | 0, _, _ => none
  | fuel + 1, low, high =>
      if low < high then
        let middle := low + (high - low) / 2
        match order middle with
        | .eq => some middle
        | .lt => search order fuel low middle
        | .gt => search order fuel (middle + 1) high
      else none

theorem lowerBound_spec (below : Nat → Bool) (low high fuel : Nat)
    (hmono : ∀ i j, i ≤ j → j < high → below j = true → below i = true)
    (hle : low ≤ high) (hfuel : high - low ≤ fuel) :
    low ≤ lowerBound below fuel low high ∧ lowerBound below fuel low high ≤ high ∧
      (∀ i, low ≤ i → i < lowerBound below fuel low high → below i = true) ∧
      ∀ i, lowerBound below fuel low high ≤ i → i < high → below i = false := by
  induction fuel generalizing low high with
  | zero =>
      rw [lowerBound]
      exact ⟨le_rfl, hle, fun i hi hlt => absurd hlt (by omega), fun i hi hlt => absurd hlt (by omega)⟩
  | succ fuel ih =>
      by_cases hlt : low < high
      · cases hmid : below (low + (high - low) / 2) with
        | true =>
            have hrec := ih (low + (high - low) / 2 + 1) high hmono (by omega) (by omega)
            simp only [lowerBound, if_pos hlt, hmid, if_true]
            rcases hrec with ⟨hlo, hhi, hbelow, habove⟩
            refine ⟨by omega, hhi, fun i hi hir => ?_, habove⟩
            by_cases hcase : i ≤ low + (high - low) / 2
            · -- Up to the middle it holds because it holds there.
              exact hmono i _ hcase (by omega) hmid
            · exact hbelow i (by omega) hir
        | false =>
            have hrec := ih low (low + (high - low) / 2)
              (fun i j hij hj => hmono i j hij (by omega)) (by omega) (by omega)
            simp only [lowerBound, if_pos hlt, hmid, Bool.false_eq_true, if_false]
            rcases hrec with ⟨hlo, hhi, hbelow, habove⟩
            refine ⟨hlo, by omega, hbelow, fun i hi hih => ?_⟩
            by_cases hcase : i < low + (high - low) / 2
            · exact habove i hi hcase
            · -- From the middle on the predicate fails because it fails there.
              by_contra hi'
              rw [Bool.not_eq_false] at hi'
              have := hmono (low + (high - low) / 2) i (by omega) hih hi'
              rw [hmid] at this
              exact absurd this Bool.false_ne_true
      · simp only [lowerBound, if_neg hlt]
        exact ⟨le_rfl, hle, fun i hi hir => absurd hir (by omega),
          fun i hi hih => absurd hih (by omega)⟩

/-- An order that a sorted array answers with: greater before equal before
    less, as the key is compared with the elements. -/
def Descends (order : Nat → Ordering) (low high : Nat) : Prop :=
  ∀ i j, low ≤ i → i ≤ j → j < high →
    (order i = .lt → order j = .lt) ∧ (order j = .gt → order i = .gt)

theorem search_spec (order : Nat → Ordering) (low high fuel : Nat)
    (hdesc : Descends order low high) (hfuel : high - low ≤ fuel) :
    (∀ i, search order fuel low high = some i → low ≤ i ∧ i < high ∧ order i = .eq) ∧
      (search order fuel low high = none → ∀ i, low ≤ i → i < high → order i ≠ .eq) := by
  induction fuel generalizing low high with
  | zero =>
      refine ⟨fun i h => absurd h (by simp only [search, reduceCtorEq, not_false_eq_true]),
        fun _ i hi hih => absurd hih (by omega)⟩
  | succ fuel ih =>
      by_cases hlt : low < high
      · cases hmid : order (low + (high - low) / 2) with
        | eq =>
            simp only [search, if_pos hlt, hmid]
            refine ⟨fun i h => ?_, fun h => absurd h (by simp only [reduceCtorEq, not_false_eq_true])⟩
            rw [Option.some.injEq] at h
            exact ⟨by omega, by omega, h ▸ hmid⟩
        | lt =>
            have hrec := ih low (low + (high - low) / 2)
              (fun i j hi hij hj => hdesc i j hi hij (by omega)) (by omega)
            simp only [search, if_pos hlt, hmid]
            refine ⟨fun i h => ?_, fun h i hi hih => ?_⟩
            · rcases hrec.1 i h with ⟨hlo, hhi, heq⟩
              exact ⟨hlo, by omega, heq⟩
            · by_cases hcase : i < low + (high - low) / 2
              · exact hrec.2 h i hi hcase
              · -- From the middle on the key is less than every element.
                rw [(hdesc _ i (by omega) (by omega) hih).1 hmid]
                exact fun h => absurd h (by simp only [reduceCtorEq, not_false_eq_true])
        | gt =>
            have hrec := ih (low + (high - low) / 2 + 1) high
              (fun i j hi hij hj => hdesc i j (by omega) hij hj) (by omega)
            simp only [search, if_pos hlt, hmid]
            refine ⟨fun i h => ?_, fun h i hi hih => ?_⟩
            · rcases hrec.1 i h with ⟨hlo, hhi, heq⟩
              exact ⟨by omega, hhi, heq⟩
            · by_cases hcase : low + (high - low) / 2 < i
              · exact hrec.2 h i (by omega) hih
              · -- Up to the middle it is greater than every element.
                rw [(hdesc i _ hi (by omega) (by omega)).2 hmid]
                exact fun h => absurd h (by simp only [reduceCtorEq, not_false_eq_true])
      · simp only [search, if_neg hlt]
        exact ⟨fun i h => absurd h (by simp only [reduceCtorEq, not_false_eq_true]),
          fun _ i hi hih => absurd hih (by omega)⟩

/-- What may go wrong in a search loop. -/
inductive SearchFault
  | outside (index : Nat)
  | endless
  deriving DecidableEq, Repr

/-- The loop of `search` over an array, which answers at its positions only. -/
def searchArray (answer : Nat → Option Ordering) :
    Nat → Nat → Nat → Except SearchFault (Option Nat)
  | 0, low, high => if low < high then .error .endless else .ok none
  | fuel + 1, low, high =>
      if low < high then
        let middle := low + (high - low) / 2
        match answer middle with
        | none => .error (.outside middle)
        | some .eq => .ok (some middle)
        | some .lt => searchArray answer fuel low middle
        | some .gt => searchArray answer fuel (middle + 1) high
      else .ok none

theorem searchArray_eq (answer : Nat → Option Ordering) (low high fuel : Nat)
    (hinside : ∀ i, low ≤ i → i < high → (answer i).isSome = true) (hfuel : high - low ≤ fuel) :
    searchArray answer fuel low high
      = .ok (search (fun i => (answer i).getD .gt) fuel low high) := by
  induction fuel generalizing low high with
  | zero => rw [searchArray, search, if_neg (show ¬ low < high by omega)]
  | succ fuel ih =>
      by_cases hlt : low < high
      · -- The middle of a proper interval is one of its positions.
        rcases Option.isSome_iff_exists.mp
          (hinside (low + (high - low) / 2) (by omega) (by omega)) with ⟨order, horder⟩
        simp only [searchArray, search, if_pos hlt, horder, Option.getD_some]
        cases order with
        | eq => rfl
        | lt => exact ih low _ (fun i hi hih => hinside i hi (by omega)) (by omega)
        | gt => exact ih _ high (fun i hi hih => hinside i (by omega) hih) (by omega)
      · simp only [searchArray, search, if_neg hlt]

/-- A sort: it keeps the elements and puts them in order. Equal elements come
    in no particular order. -/
structure SortFn (α : Type) (le : α → α → Prop) where
  run : List α → List α
  perm : ∀ items, (run items).Perm items
  sorted : ∀ items, (run items).Pairwise le

/-- Insertion sort is a sort. -/
def insertionSortFn {α : Type} (le : α → α → Prop) [DecidableRel le] [Std.Total le] [IsTrans α le] :
    SortFn α le where
  run := List.insertionSort le
  perm := List.perm_insertionSort le
  sorted := List.pairwise_insertionSort le

end Zd1200
