import Mathlib.Data.List.Basic
import Mathlib.Order.Defs.LinearOrder
import Zd1200.Lib.Overlay

/-!
# Slices and Searches

The sequence operations the tools lean on: slicing, overwriting a slice, and
searching for a substring.

`slice` and `setSlice` follow Python. Indices are integers, a negative one
counts from the end, and one that is out of range is clamped rather than
refused, so a slice never fails. The lemmas here are about the tame case, a
window that lies inside the sequence, because that is the only case a program
that checks its bounds ever reaches. `setSlice_eq_overlay` is the bridge to
the masked writes: overwriting a window is a write with no masked cell.

`findFrom` is the substring search of Python's `find` and of C's `strstr` and
`strchr` alike: the first occurrence at or after a start offset. It is total,
and `findFrom_eq_some_iff` and `findFrom_eq_none_iff` are all a caller needs
to know about it. The needle is never empty here, which spares the statements
the one case in which the two languages would disagree.

## Main definitions

* `Bytes`: A byte string.
* `sliceBound`: Where an integer index cuts a sequence.
* `slice`: The elements between two indices.
* `setSlice`: Replace the elements between two indices.
* `Occurs`: A needle occurs at an offset.
* `findFrom`: The first occurrence at or after an offset.

## Theorems

* `slice_window`: Slicing a window inside the sequence.
* `getElem?_slice_window`: The elements of such a window.
* `setSlice_eq_self_iff`: Overwriting a window with what it holds.
* `setSlice_eq_overlay`: Overwriting a window is an unmasked write.
* `findFrom_eq_some_iff`: The search finds the first occurrence.
* `findFrom_eq_none_iff`: The search fails when there is none.
* `Occurs.lt`: An occurrence of a proper needle starts inside.
* `findFrom_congr`: Searches that see the same occurrences end alike.
-/

namespace Zd1200

/-- A byte string. -/
abbrev Bytes := List UInt8

-- The equality of byte strings, texts and ordered values is lawful: named here, so that
-- every membership test above rests on the same proof.
instance lawfulBEq_bytes : LawfulBEq Bytes := inferInstance

instance lawfulBEq_text : LawfulBEq (List Char) := inferInstance

instance lawfulBEq_linearOrder {α : Type*} [LinearOrder α] : LawfulBEq α := inferInstance

section Slice

variable {α : Type}

/-- Where index `i` cuts a sequence of length `n`: from the end if negative,
    and clamped to the sequence. -/
def sliceBound (n : Nat) (i : Int) : Nat :=
  if i < 0 then (n + i).toNat else min i.toNat n

/-- The elements `xs[start:stop]`. -/
def slice (xs : List α) (start stop : Int) : List α :=
  (xs.take (sliceBound xs.length stop)).drop (sliceBound xs.length start)

/-- The assignment `xs[start:stop] = ys`. -/
def setSlice (xs : List α) (start stop : Int) (ys : List α) : List α :=
  let a := sliceBound xs.length start
  let b := max a (sliceBound xs.length stop)
  xs.take a ++ ys ++ xs.drop b

theorem sliceBound_of_le (n i : Nat) (h : i ≤ n) : sliceBound n (i : Int) = i := by
  rw [sliceBound, if_neg (by omega), Int.toNat_natCast, Nat.min_eq_left h]

theorem slice_window (xs : List α) (o l : Nat) (h : o + l ≤ xs.length) :
    slice xs (o : Int) ((o : Int) + l) = (xs.drop o).take l := by
  have hstop : ((o : Int) + l) = ((o + l : Nat) : Int) := by omega
  rw [slice, hstop, sliceBound_of_le _ _ h, sliceBound_of_le _ _ (by omega),
    List.drop_take, Nat.add_sub_cancel_left]

theorem slice_between (xs : List α) (a b : Nat) (hab : a ≤ b) (hb : b ≤ xs.length) :
    slice xs (a : Int) (b : Int) = (xs.drop a).take (b - a) := by
  have h := slice_window xs a (b - a) (by omega)
  rwa [show (a : Int) + ((b - a : Nat) : Int) = (b : Int) by omega] at h

-- The middle one of three parts.
theorem slice_append (xs ys zs : List α) (a b : Nat) (ha : a = xs.length)
    (hb : b = xs.length + ys.length) : slice (xs ++ ys ++ zs) (a : Int) (b : Int) = ys := by
  rw [slice_between _ a b (by omega)
      (by rw [List.length_append, List.length_append]; omega), List.append_assoc, ha,
    List.drop_left, hb, Nat.add_sub_cancel_left, List.take_left]

-- A slice that runs past the end stops there.
theorem length_slice_le (xs : List α) (a b : Nat) (ha : a ≤ xs.length) :
    (slice xs (a : Int) (b : Int)).length ≤ xs.length - a := by
  rw [slice, List.length_drop, List.length_take, sliceBound_of_le _ _ ha]
  omega

/-- A sequence cut after `m` and after another `n` elements. -/
theorem exists_parts (xs : List α) (m n : Nat) (h : m + n ≤ xs.length) :
    ∃ as bs cs, xs = as ++ bs ++ cs ∧ as.length = m ∧ bs.length = n := by
  refine ⟨xs.take m, (xs.drop m).take n, xs.drop (m + n), ?_, ?_, ?_⟩
  · rw [← List.drop_drop, List.append_assoc, List.take_append_drop, List.take_append_drop]
  · rw [List.length_take]
    omega
  · rw [List.length_take, List.length_drop]
    omega

theorem length_slice_window (xs : List α) (o l : Nat) (h : o + l ≤ xs.length) :
    (slice xs (o : Int) ((o : Int) + l)).length = l := by
  rw [slice_window xs o l h, List.length_take, List.length_drop]
  omega

theorem getElem?_slice_window (xs : List α) (o l k : Nat) (h : o + l ≤ xs.length) (hk : k < l) :
    (slice xs (o : Int) ((o : Int) + l))[k]? = xs[o + k]? := by
  rw [slice_window xs o l h, List.getElem?_take_of_lt hk, List.getElem?_drop]

/-- A part replaced by one of the same length: the length stays. -/
theorem length_replaced (xs ys : List α) (a b : Nat) (hab : a ≤ b) (hb : b ≤ xs.length)
    (hys : ys.length = b - a) : (xs.take a ++ ys ++ xs.drop b).length = xs.length := by
  rw [List.length_append, List.length_append, List.length_take, List.length_drop]
  omega

/-- A part replaced by one of the same length: everything else stays. -/
theorem getElem?_replaced (xs ys : List α) (a b i : Nat) (hab : a ≤ b) (hb : b ≤ xs.length)
    (hys : ys.length = b - a) (hi : ¬ (a ≤ i ∧ i < b)) :
    (xs.take a ++ ys ++ xs.drop b)[i]? = xs[i]? := by
  have htake : (xs.take a).length = a := by
    rw [List.length_take]
    omega
  by_cases hlow : i < a
  · rw [List.append_assoc, List.getElem?_append_left (by omega), List.getElem?_take_of_lt hlow]
  · rw [List.getElem?_append_right (by
      rw [List.length_append]
      omega), List.getElem?_drop, List.length_append]
    congr 1
    omega

theorem setSlice_window (xs ys : List α) (o : Nat) (h : o + ys.length ≤ xs.length) :
    setSlice xs (o : Int) ((o : Int) + ys.length) ys
      = xs.take o ++ ys ++ xs.drop (o + ys.length) := by
  have hstop : ((o : Int) + ys.length) = ((o + ys.length : Nat) : Int) := by omega
  simp only [setSlice]
  rw [hstop, sliceBound_of_le _ _ h, sliceBound_of_le _ _ (by omega),
    Nat.max_eq_right (by omega)]

/-- Overwriting a window changes nothing exactly when it holds the same. -/
theorem setSlice_eq_self_iff (xs ys : List α) (o : Nat) (h : o + ys.length ≤ xs.length) :
    setSlice xs (o : Int) ((o : Int) + ys.length) ys = xs ↔
      slice xs (o : Int) ((o : Int) + ys.length) = ys := by
  rw [setSlice_window xs ys o h, slice_window xs o ys.length h]
  have hxs : xs = xs.take o ++ (xs.drop o).take ys.length ++ xs.drop (o + ys.length) := by
    rw [← List.drop_drop, List.append_assoc, List.take_append_drop, List.take_append_drop]
  constructor
  · intro heq
    rw [← heq] at hxs
    conv_rhs at hxs => rw [heq]
    exact (List.append_right_inj _).mp ((List.append_left_inj _).mp hxs).symm
  · intro heq
    conv_rhs => rw [hxs, heq]

/-- Overwriting a window is a write with no masked cell. -/
theorem setSlice_eq_overlay (xs ys : List α) (o : Nat) (h : o + ys.length ≤ xs.length) :
    setSlice xs (o : Int) ((o : Int) + ys.length) ys = overlay xs ⟨o, ys.map some⟩ := by
  rw [setSlice_window xs ys o h]
  apply List.ext_getElem?
  intro i
  rw [getElem?_overlay]
  have htake : (xs.take o).length = o := by
    rw [List.length_take]
    omega
  by_cases hlo : i < o
  · -- Before the window.
    have hc : ¬ (MaskedWrite.mk o (ys.map some)).Covers i := fun hc => by
      have := hc.1
      simp only at this
      omega
    rw [MaskedWrite.cell_of_not_covers _ i hc, List.append_assoc,
      List.getElem?_append_left (by omega), List.getElem?_take_of_lt hlo]
    simp only [Option.getD_none, Option.map_id']
  · rcases Nat.exists_eq_add_of_le (Nat.le_of_not_lt hlo) with ⟨k, rfl⟩
    by_cases hk : k < ys.length
    · -- Inside the window.
      have hx : o + k < xs.length := by omega
      rw [List.getElem?_append_left (by rw [List.length_append]; omega),
        List.getElem?_append_right (by omega), htake, Nat.add_sub_cancel_left,
        MaskedWrite.cell_add ⟨o, ys.map some⟩ k, List.getElem?_map, List.getElem?_eq_getElem hk,
        List.getElem?_eq_getElem hx]
      simp only [Option.map_some, Option.join_some, Option.getD_some]
    · -- After the window.
      have hc : ¬ (MaskedWrite.mk o (ys.map some)).Covers (o + k) := fun hc => by
        have := hc.2
        simp only [List.length_map] at this
        omega
      rw [MaskedWrite.cell_of_not_covers _ _ hc,
        List.getElem?_append_right (by rw [List.length_append]; omega), List.length_append,
        htake, List.getElem?_drop]
      simp only [Option.getD_none, Option.map_id']
      congr 1
      omega

/-- The needle occurs in `xs` at offset `i`. -/
def Occurs (xs needle : List α) (i : Nat) : Prop := needle <+: xs.drop i

-- An occurrence, element by element.
theorem occurs_iff (xs needle : List α) (i : Nat) :
    Occurs xs needle i ↔ ∀ k, k < needle.length → xs[i + k]? = needle[k]? := by
  unfold Occurs
  rw [List.prefix_iff_getElem?]
  refine forall₂_congr fun k hk => ?_
  rw [List.getElem?_drop, List.getElem?_eq_getElem hk]

/-- Sequences that agree up to a common occurrence agree in the occurrences
    that start before it. -/
theorem occurs_before_iff (xs ys needle : List α) (a i : Nat) (hi : i < a)
    (hsame : ∀ j, j < a → xs[j]? = ys[j]?) (hxs : Occurs xs needle a) (hys : Occurs ys needle a) :
    Occurs xs needle i ↔ Occurs ys needle i := by
  have hall : ∀ k, k < needle.length → xs[i + k]? = ys[i + k]? := by
    intro k hk
    by_cases hlow : i + k < a
    · exact hsame _ hlow
    · -- Both hold the needle there.
      have hx := (occurs_iff xs needle a).mp hxs (i + k - a) (by omega)
      have hy := (occurs_iff ys needle a).mp hys (i + k - a) (by omega)
      rw [show a + (i + k - a) = i + k by omega] at hx hy
      rw [hx, hy]
  rw [occurs_iff, occurs_iff]
  exact forall₂_congr fun k hk => by rw [hall k hk]

/-- An occurrence of a needle with elements starts inside the sequence. -/
theorem Occurs.lt {xs needle : List α} {i : Nat} (h : Occurs xs needle i) (hn : needle ≠ []) :
    i < xs.length := by
  by_contra hc
  unfold Occurs at h
  rw [List.drop_eq_nil_of_le (Nat.le_of_not_lt hc), List.prefix_nil] at h
  exact hn h

end Slice

section Find

variable {α : Type} [DecidableEq α]

/-- The first offset at which the needle occurs. -/
def findIn (needle : List α) : List α → Option Nat
  | [] => if needle = [] then some 0 else none
  | x :: xs => if needle.isPrefixOf (x :: xs) then some 0 else (findIn needle xs).map (· + 1)

/-- The first offset, at or after `start`, at which the needle occurs. -/
def findFrom (xs needle : List α) (start : Nat) : Option Nat :=
  (findIn needle (xs.drop start)).map (start + ·)

theorem findIn_spec (needle xs : List α) (hn : needle ≠ []) :
    (∀ i, findIn needle xs = some i → needle <+: xs.drop i ∧ ∀ j, j < i → ¬ needle <+: xs.drop j) ∧
    (findIn needle xs = none → ∀ j, ¬ needle <+: xs.drop j) := by
  induction xs with
  | nil =>
      refine ⟨fun i h => ?_, fun _ j hj => ?_⟩
      · rw [findIn, if_neg hn] at h
        exact absurd h (by simp only [reduceCtorEq, not_false_eq_true])
      · rw [List.drop_nil, List.prefix_nil] at hj
        exact hn hj
  | cons x xs ih =>
      rcases ih with ⟨ihsome, ihnone⟩
      by_cases hp : needle.isPrefixOf (x :: xs) = true
      · -- The needle stands right here.
        refine ⟨fun i h => ?_, fun h => ?_⟩
        · rw [findIn, if_pos hp, Option.some.injEq] at h
          subst h
          exact ⟨List.isPrefixOf_iff_prefix.mp hp, fun j hj => absurd hj (Nat.not_lt_zero j)⟩
        · rw [findIn, if_pos hp] at h
          exact absurd h (by simp only [reduceCtorEq, not_false_eq_true])
      · have hhead : ¬ needle <+: (x :: xs) := fun h => hp (List.isPrefixOf_iff_prefix.mpr h)
        refine ⟨fun i h => ?_, fun h => ?_⟩
        · rw [findIn, if_neg hp, Option.map_eq_some_iff] at h
          rcases h with ⟨k, hk, rfl⟩
          rcases ihsome k hk with ⟨hocc, hfirst⟩
          refine ⟨hocc, fun j hj => ?_⟩
          cases j with
          | zero => exact hhead
          | succ j => exact hfirst j (by omega)
        · rw [findIn, if_neg hp, Option.map_eq_none_iff] at h
          intro j
          cases j with
          | zero => exact hhead
          | succ j => exact ihnone h j

/-- The search fails exactly when the needle occurs nowhere from `start` on. -/
theorem findFrom_eq_none_iff (xs needle : List α) (start : Nat) (hn : needle ≠ []) :
    findFrom xs needle start = none ↔ ∀ j, start ≤ j → ¬ Occurs xs needle j := by
  rcases findIn_spec needle (xs.drop start) hn with ⟨hsome, hnone⟩
  unfold findFrom Occurs
  constructor
  · intro h j hj
    rw [Option.map_eq_none_iff] at h
    have := hnone h (j - start)
    rwa [List.drop_drop, Nat.add_sub_cancel' hj] at this
  · intro h
    cases hf : findIn needle (xs.drop start) with
    | none => rfl
    | some k =>
        have := (hsome k hf).1
        rw [List.drop_drop] at this
        exact absurd this (h (start + k) (by omega))

/-- The search finds the first occurrence from `start` on. -/
theorem findFrom_eq_some_iff (xs needle : List α) (start i : Nat) (hn : needle ≠ []) :
    findFrom xs needle start = some i ↔
      start ≤ i ∧ Occurs xs needle i ∧ ∀ j, start ≤ j → j < i → ¬ Occurs xs needle j := by
  constructor
  · intro h
    unfold findFrom at h
    rw [Option.map_eq_some_iff] at h
    rcases h with ⟨k, hk, rfl⟩
    rcases (findIn_spec needle (xs.drop start) hn).1 k hk with ⟨hocc, hfirst⟩
    refine ⟨by omega, ?_, fun j hj hjk => ?_⟩
    · rwa [List.drop_drop] at hocc
    · have := hfirst (j - start) (by omega)
      rwa [List.drop_drop, Nat.add_sub_cancel' hj] at this
  · rintro ⟨hle, hocc, hfirst⟩
    cases hf : findFrom xs needle start with
    | none => exact absurd hocc ((findFrom_eq_none_iff xs needle start hn).mp hf i hle)
    | some k =>
        -- Two first occurrences are the same one.
        unfold findFrom at hf
        rw [Option.map_eq_some_iff] at hf
        rcases hf with ⟨m, hm, rfl⟩
        rcases (findIn_spec needle (xs.drop start) hn).1 m hm with ⟨hocc', hfirst'⟩
        rw [List.drop_drop] at hocc'
        rw [Option.some.injEq]
        rcases Nat.lt_trichotomy (start + m) i with hlt | heq | hgt
        · exact absurd hocc' (hfirst (start + m) (by omega) hlt)
        · exact heq
        · have := hfirst' (i - start) (by omega)
          rw [List.drop_drop, Nat.add_sub_cancel' hle] at this
          exact absurd hocc this

/-- Searches that see the same occurrences end alike. -/
theorem findFrom_congr (xs ys needle : List α) (start : Nat) (hn : needle ≠ [])
    (h : ∀ j, Occurs xs needle j ↔ Occurs ys needle j) :
    findFrom xs needle start = findFrom ys needle start := by
  apply Option.ext
  intro i
  rw [findFrom_eq_some_iff xs needle start i hn, findFrom_eq_some_iff ys needle start i hn]
  simp only [h]

end Find

end Zd1200
