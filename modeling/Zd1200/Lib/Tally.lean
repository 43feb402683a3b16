import Mathlib.Algebra.Ring.Nat
import Mathlib.Data.List.Basic
import Mathlib.Data.List.Perm.Basic
import Mathlib.Order.Lattice.Nat

/-!
# Tallies

Tables of counters that are filled in one pass.

A tally is a list of updates, each of which changes one cell. What a cell
holds in the end is what the updates of that cell make of it, whatever the
others do (`getElem?_tally`), so a table of cells is as many folds as it has
cells.

A counter of a fixed width wraps. It does not if what is counted is bounded,
and then a fold that wraps is the count, the sum, the maximum, the minimum or
the last value of what it went through. The first four do not depend on the
order, and the last does not if the values ascend.

What bounds a count here is time: numbers that ascend in an interval are no
more than the interval is long (`length_le_of_ascending`).

## Main definitions

* `tally`: Updates of the cells of a table, one after another.
* `greatest`, `least`: The maximum and the minimum of a list.

## Theorems

* `getElem?_tally`: What a cell holds in the end.
* `foldl_modify`, `foldl_tally`: Loops and loops of loops are tallies.
* `foldl_count`, `foldl_sum`, `foldl_greatest`, `foldl_least`, `foldl_last`:
  What the counters of a cell come to.
* `greatest_perm`, `least_perm`: The order does not matter.
* `length_le_of_ascending`: Ascending numbers in an interval.
-/

namespace Zd1200

section Tally

variable {α β γ : Type}

/-- Updates of the cells of a table, one after another. -/
def tally (updates : List (Nat × (α → α))) (cells : List α) : List α :=
  updates.foldl (fun cells update => cells.modify update.1 update.2) cells

theorem length_tally (updates : List (Nat × (α → α))) (cells : List α) :
    (tally updates cells).length = cells.length := by
  induction updates generalizing cells with
  | nil => rfl
  | cons update rest ih =>
      change (tally rest (cells.modify update.1 update.2)).length = _
      rw [ih, List.length_modify]

/-- A cell holds what its own updates make of it. -/
theorem getElem?_tally (updates : List (Nat × (α → α))) (cells : List α) (k : Nat) :
    (tally updates cells)[k]? = cells[k]?.map fun cell =>
      (updates.filter fun update => update.1 = k).foldl (fun cell update => update.2 cell) cell := by
  induction updates generalizing cells with
  | nil => simp only [tally, List.foldl_nil, List.filter_nil, Option.map_id']
  | cons update rest ih =>
      change (tally rest (cells.modify update.1 update.2))[k]? = _
      rw [ih, List.getElem?_modify]
      by_cases h : update.1 = k
      · rw [List.filter_cons_of_pos (by rw [decide_eq_true_eq]; exact h)]
        cases cells[k]? with
        | none => rfl
        | some cell => simp only [h, if_true, Option.map_eq_map, Option.map_some, List.foldl_cons]
      · rw [List.filter_cons_of_neg (by rw [decide_eq_true_eq]; exact h)]
        cases cells[k]? with
        | none => rfl
        | some cell => simp only [h, if_false, Option.map_eq_map, Option.map_some]

/-- A loop whose rounds are tallies is one tally. -/
theorem foldl_tally (xs : List β) (f : β → List (Nat × (α → α))) (cells : List α) :
    xs.foldl (fun cells x => tally (f x) cells) cells = tally (xs.flatMap f) cells := by
  induction xs generalizing cells with
  | nil => rfl
  | cons x xs ih =>
      rw [List.foldl_cons, ih, List.flatMap_cons, tally, tally, tally, List.foldl_append]

/-- A loop that changes one cell in some of its rounds is a tally. -/
theorem foldl_modify (xs : List β) (p : β → Bool) (index : β → Nat) (change : β → α → α)
    (cells : List α) :
    xs.foldl (fun cells x => if p x then cells.modify (index x) (change x) else cells) cells
      = tally ((xs.filter p).map fun x => (index x, change x)) cells := by
  induction xs generalizing cells with
  | nil => rfl
  | cons x xs ih =>
      rw [List.foldl_cons, ih]
      by_cases hx : p x = true
      · rw [if_pos hx, List.filter_cons_of_pos hx]
        rfl
      · rw [if_neg hx, List.filter_cons_of_neg hx]

/-! ### Counters -/

/-- The maximum of a list, and zero if it is empty. -/
def greatest (values : List Nat) : Nat := values.foldl max 0

/-- The minimum of a list and a bound. -/
def least (bound : Nat) (values : List Nat) : Nat := values.foldl min bound

/-- A part of a state that follows rules of its own. -/
theorem foldl_field (get : α → γ) (f : α → β → α) (step : γ → β → γ)
    (h : ∀ a b, get (f a b) = step (get a) b) (xs : List β) (a : α) :
    get (xs.foldl f a) = xs.foldl step (get a) := by
  induction xs generalizing a with
  | nil => rfl
  | cons x xs ih => rw [List.foldl_cons, List.foldl_cons, ih, h]

/-- A part of a state that updates leave alone. -/
theorem foldl_unchanged (get : α → γ) (f : α → β → α) (h : ∀ a b, get (f a b) = get a)
    (xs : List β) (a : α) : get (xs.foldl f a) = get a := by
  induction xs generalizing a with
  | nil => rfl
  | cons x xs ih => rw [List.foldl_cons, ih, h]

section Kinds

variable {δ ε : Type} (get : α → γ) (f : δ → α → α) (g : ε → α → α) (days : List β)
  (xs : β → List δ) (ys : β → List ε)

/-- Of two kinds of updates that take turns, a part of a state follows the
    first one. -/
theorem foldl_field_first (step : γ → δ → γ) (hf : ∀ x a, get (f x a) = step (get a) x)
    (hg : ∀ y a, get (g y a) = get a) (a : α) :
    get (days.foldl (fun a day => (ys day).foldl (fun a y => g y a)
        ((xs day).foldl (fun a x => f x a) a)) a)
      = (days.flatMap xs).foldl step (get a) := by
  induction days generalizing a with
  | nil => rfl
  | cons day days ih =>
      rw [List.foldl_cons, ih, List.flatMap_cons, List.foldl_append,
        foldl_unchanged get (fun a y => g y a) fun a y => hg y a,
        foldl_field get (fun a x => f x a) step fun a x => hf x a]

/-- And another part follows the second one. -/
theorem foldl_field_second (step : γ → ε → γ) (hf : ∀ x a, get (f x a) = get a)
    (hg : ∀ y a, get (g y a) = step (get a) y) (a : α) :
    get (days.foldl (fun a day => (ys day).foldl (fun a y => g y a)
        ((xs day).foldl (fun a x => f x a) a)) a)
      = (days.flatMap ys).foldl step (get a) := by
  induction days generalizing a with
  | nil => rfl
  | cons day days ih =>
      rw [List.foldl_cons, ih, List.flatMap_cons, List.foldl_append,
        foldl_field get (fun a y => g y a) step fun a y => hg y a,
        foldl_unchanged get (fun a x => f x a) fun a x => hf x a]

end Kinds

/-- A loop over some items is a loop over all of them. -/
theorem flatMap_filter (xs : List β) (p : β → Bool) (f : β → List α) :
    (xs.filter p).flatMap f = xs.flatMap fun x => if p x then f x else [] := by
  induction xs with
  | nil => rfl
  | cons x xs ih =>
      by_cases hx : p x = true
      · rw [List.filter_cons_of_pos hx, List.flatMap_cons, List.flatMap_cons, if_pos hx, ih]
      · rw [List.filter_cons_of_neg hx, List.flatMap_cons, if_neg hx, ih, List.nil_append]

/-- A counter that is not counted up further than it goes. -/
theorem foldl_count (p : β → Bool) (width : Nat) (xs : List β) (n : Nat)
    (h : n + xs.length < width) :
    xs.foldl (fun n x => if p x then (n + 1) % width else n) n = n + xs.countP p := by
  induction xs generalizing n with
  | nil => rfl
  | cons x xs ih =>
      rw [List.length_cons] at h
      rw [List.foldl_cons, List.countP_cons]
      by_cases hx : p x = true
      · rw [if_pos hx, if_pos hx, Nat.mod_eq_of_lt (by omega), ih _ (by omega)]
        omega
      · rw [if_neg hx, if_neg hx, ih _ (by omega)]
        rfl

/-- A sum of values below a bound that has room for all of them. -/
theorem foldl_sum (p : β → Bool) (value : β → Nat) (bound width : Nat) (xs : List β) (n : Nat)
    (hvalue : ∀ x ∈ xs, value x ≤ bound) (h : n + xs.length * bound < width) :
    xs.foldl (fun n x => if p x then (n + value x) % width else n) n
      = n + ((xs.filter p).map value).sum := by
  induction xs generalizing n with
  | nil => rfl
  | cons x xs ih =>
      have hx := hvalue x List.mem_cons_self
      have hrest := fun y hy => hvalue y (List.mem_cons_of_mem x hy)
      rw [List.length_cons, Nat.add_mul, Nat.one_mul] at h
      rw [List.foldl_cons]
      by_cases hp : p x = true
      · rw [if_pos hp, List.filter_cons_of_pos hp, List.map_cons, List.sum_cons,
          Nat.mod_eq_of_lt (by omega), ih _ hrest (by omega)]
        omega
      · rw [if_neg hp, List.filter_cons_of_neg hp, ih _ hrest (by omega)]

/-- Such a sum is what its bound says. -/
theorem sum_filter_le (p : β → Bool) (value : β → Nat) (bound : Nat) (xs : List β)
    (hvalue : ∀ x ∈ xs, value x ≤ bound) :
    ((xs.filter p).map value).sum ≤ xs.length * bound := by
  induction xs with
  | nil => exact Nat.zero_le _
  | cons x xs ih =>
      have hx := hvalue x List.mem_cons_self
      have hrest := ih fun y hy => hvalue y (List.mem_cons_of_mem x hy)
      rw [List.length_cons, Nat.add_mul, Nat.one_mul]
      by_cases hp : p x = true
      · rw [List.filter_cons_of_pos hp, List.map_cons, List.sum_cons]
        omega
      · rw [List.filter_cons_of_neg hp]
        omega

/-- A maximum of values that fit. -/
theorem foldl_greatest (p : β → Bool) (value : β → Nat) (width : Nat) (xs : List β) (n : Nat)
    (hvalue : ∀ x ∈ xs, value x < width) :
    xs.foldl (fun n x => if p x = true ∧ n < value x then value x % width else n) n
      = ((xs.filter p).map value).foldl max n := by
  induction xs generalizing n with
  | nil => rfl
  | cons x xs ih =>
      have hx := hvalue x List.mem_cons_self
      have hrest := fun y hy => hvalue y (List.mem_cons_of_mem x hy)
      rw [List.foldl_cons, ih _ hrest]
      by_cases hp : p x = true
      · rw [List.filter_cons_of_pos hp, List.map_cons, List.foldl_cons]
        by_cases hlt : n < value x
        · rw [if_pos ⟨hp, hlt⟩, Nat.mod_eq_of_lt hx, Nat.max_eq_right (by omega)]
        · rw [if_neg fun h => hlt h.2, Nat.max_eq_left (by omega)]
      · rw [if_neg fun h => hp h.1, List.filter_cons_of_neg hp]

/-- A minimum of values that fit. -/
theorem foldl_least (p : β → Bool) (value : β → Nat) (width : Nat) (xs : List β) (n : Nat)
    (hvalue : ∀ x ∈ xs, value x < width) :
    xs.foldl (fun n x => if p x = true ∧ value x < n then value x % width else n) n
      = ((xs.filter p).map value).foldl min n := by
  induction xs generalizing n with
  | nil => rfl
  | cons x xs ih =>
      have hx := hvalue x List.mem_cons_self
      have hrest := fun y hy => hvalue y (List.mem_cons_of_mem x hy)
      rw [List.foldl_cons, ih _ hrest]
      by_cases hp : p x = true
      · rw [List.filter_cons_of_pos hp, List.map_cons, List.foldl_cons]
        by_cases hlt : value x < n
        · rw [if_pos ⟨hp, hlt⟩, Nat.mod_eq_of_lt hx, Nat.min_eq_right (by omega)]
        · rw [if_neg fun h => hlt h.2, Nat.min_eq_left (by omega)]
      · rw [if_neg fun h => hp h.1, List.filter_cons_of_neg hp]

/-- The last of values that ascend is the greatest of them. -/
theorem foldl_last (p : β → Bool) (value : β → Nat) (width : Nat) (xs : List β) (n : Nat)
    (hvalue : ∀ x ∈ xs, value x < width) (hascending : xs.Pairwise fun x y => value x ≤ value y)
    (hn : ∀ x ∈ xs, n ≤ value x) :
    xs.foldl (fun n x => if p x then value x % width else n) n
      = ((xs.filter p).map value).foldl max n := by
  induction xs generalizing n with
  | nil => rfl
  | cons x xs ih =>
      have hx := hvalue x List.mem_cons_self
      have hrest := fun y hy => hvalue y (List.mem_cons_of_mem x hy)
      rcases List.pairwise_cons.mp hascending with ⟨hfirst, htail⟩
      rw [List.foldl_cons]
      by_cases hp : p x = true
      · rw [if_pos hp, List.filter_cons_of_pos hp, List.map_cons, List.foldl_cons,
          Nat.mod_eq_of_lt hx, Nat.max_eq_right (hn x List.mem_cons_self)]
        exact ih _ hrest htail hfirst
      · rw [if_neg hp, List.filter_cons_of_neg hp]
        exact ih _ hrest htail fun y hy => hn y (List.mem_cons_of_mem x hy)

theorem greatest_perm {values values' : List Nat} (h : values.Perm values') :
    greatest values = greatest values' := h.foldl_eq 0

theorem least_perm (bound : Nat) {values values' : List Nat} (h : values.Perm values') :
    least bound values = least bound values' := h.foldl_eq bound

/-- The greatest of some values is below what they all are below. -/
theorem greatest_lt (values : List Nat) (bound : Nat) (hpos : 0 < bound)
    (h : ∀ value ∈ values, value < bound) : greatest values < bound := by
  unfold greatest
  suffices hgen : ∀ n, n < bound → values.foldl max n < bound from hgen 0 hpos
  induction values with
  | nil => exact fun n hn => hn
  | cons value rest ih =>
      intro n hn
      exact ih (fun v hv => h v (List.mem_cons_of_mem _ hv)) _
        (Nat.max_lt.mpr ⟨hn, h value List.mem_cons_self⟩)

theorem least_le (bound : Nat) (values : List Nat) : least bound values ≤ bound := by
  unfold least
  induction values generalizing bound with
  | nil => exact Nat.le_refl _
  | cons value rest ih => exact Nat.le_trans (ih _) (Nat.min_le_left _ _)

/-- Numbers that ascend in an interval are no more than the interval is long. -/
theorem length_le_of_ascending (values : List Nat) (low width : Nat)
    (hascending : values.Pairwise (· < ·)) (h : ∀ value ∈ values, low ≤ value ∧ value < low + width) :
    values.length ≤ width := by
  induction values generalizing low width with
  | nil => exact Nat.zero_le _
  | cons value rest ih =>
      rcases List.pairwise_cons.mp hascending with ⟨hfirst, htail⟩
      rcases h value List.mem_cons_self with ⟨hlow, hhigh⟩
      -- The others lie behind the first one.
      have := ih (value + 1) (low + width - (value + 1)) htail fun v hv => by
        have := hfirst v hv
        have := (h v (List.mem_cons_of_mem _ hv)).2
        omega
      rw [List.length_cons]
      omega

end Tally

end Zd1200
