import Mathlib.Algebra.Ring.Nat
import Mathlib.Data.List.Basic
import Mathlib.Data.List.Perm.Basic

/-!
# Masked Writes

Writing several masked blocks into one shared buffer.

A masked write puts values at some positions of a block and leaves the others
as they are. `overlay` performs one, and `overlays` performs a list of them in
order. Nothing here says where a block comes from or what the buffer holds.

Two writes whose blocks do not meet commute (`overlay_comm`), so pairwise
disjoint writes can be performed in any order (`overlays_perm`). The pointwise
reading is what a caller wants in the end: a position inside a block holds the
value of its cell, or what it held at the very beginning where the cell is
masked (`getElem?_overlays_of_covers`), and a position outside every block is
untouched (`getElem?_overlays_of_not_covered`). That second reading speaks of
the *initial* buffer, not of the one the write found, and this is where
disjointness is used.

`overlay_ne_iff` is the accounting behind a "something changed" flag kept
across the writes: disjoint writes cannot undo one another, so the buffer
differs from the initial one exactly when some single write changed it.

## Main definitions

* `MaskedWrite`: A block of optional values at a start position.
* `MaskedWrite.cell`: The value a write puts at a position, if any.
* `MaskedWrite.Covers`: A position lies inside the block.
* `MaskedWrite.Apart`: Two blocks share no position.
* `overlay`: Perform one write.
* `overlays`: Perform a list of writes in order.

## Theorems

* `length_overlays`: Writes keep the length.
* `getElem?_overlay`: One write, read pointwise.
* `overlay_comm`: Writes apart commute.
* `overlays_perm`: Pairwise apart writes can be performed in any order.
* `getElem?_overlays_of_not_covered`: Outside every block nothing changes.
* `getElem?_overlays_of_covers`: Inside a block the cell decides.
* `overlay_ne_iff`: Writes apart do not undo one another.
-/

namespace Zd1200

/-- A block of optional values; `none` leaves a position as it is. -/
structure MaskedWrite (α : Type) where
  start : Nat
  cells : List (Option α)

section Overlay

variable {α : Type}

/-- The value the write puts at position `i`, if it puts one there. -/
def MaskedWrite.cell (w : MaskedWrite α) (i : Nat) : Option α :=
  if w.start ≤ i then (w.cells[i - w.start]?).join else none

/-- Position `i` lies inside the block. -/
def MaskedWrite.Covers (w : MaskedWrite α) (i : Nat) : Prop :=
  w.start ≤ i ∧ i < w.start + w.cells.length

/-- The blocks share no position. -/
def MaskedWrite.Apart (w v : MaskedWrite α) : Prop :=
  ∀ i, ¬ (w.Covers i ∧ v.Covers i)

/-- Perform one write. -/
def overlay (xs : List α) (w : MaskedWrite α) : List α :=
  xs.mapIdx fun i x => (w.cell i).getD x

/-- Perform the writes in order. -/
def overlays (xs : List α) (ws : List (MaskedWrite α)) : List α :=
  ws.foldl overlay xs

theorem MaskedWrite.Apart.symm {w v : MaskedWrite α} (h : w.Apart v) : v.Apart w :=
  fun i hi => h i ⟨hi.2, hi.1⟩

theorem MaskedWrite.cell_of_not_covers (w : MaskedWrite α) (i : Nat) (h : ¬ w.Covers i) :
    w.cell i = none := by
  unfold MaskedWrite.cell
  by_cases hs : w.start ≤ i
  · have hlen : w.cells.length ≤ i - w.start := by
      by_contra hc
      exact h ⟨hs, by omega⟩
    rw [if_pos hs, List.getElem?_eq_none hlen]
    rfl
  · rw [if_neg hs]

theorem MaskedWrite.cell_add (w : MaskedWrite α) (k : Nat) :
    w.cell (w.start + k) = (w.cells[k]?).join := by
  rw [MaskedWrite.cell, if_pos (Nat.le_add_right _ _), Nat.add_sub_cancel_left]

@[simp] theorem length_overlay (xs : List α) (w : MaskedWrite α) :
    (overlay xs w).length = xs.length := by
  rw [overlay, List.length_mapIdx]

@[simp] theorem length_overlays (xs : List α) (ws : List (MaskedWrite α)) :
    (overlays xs ws).length = xs.length := by
  induction ws generalizing xs with
  | nil => rfl
  | cons w ws ih =>
      change (overlays (overlay xs w) ws).length = xs.length
      rw [ih, length_overlay]

theorem getElem?_overlay (xs : List α) (w : MaskedWrite α) (i : Nat) :
    (overlay xs w)[i]? = xs[i]?.map fun x => (w.cell i).getD x := by
  rw [overlay, List.getElem?_mapIdx]

theorem getElem?_overlay_of_not_covers (xs : List α) (w : MaskedWrite α) (i : Nat)
    (h : ¬ w.Covers i) : (overlay xs w)[i]? = xs[i]? := by
  rw [getElem?_overlay, w.cell_of_not_covers i h]
  simp only [Option.getD_none, Option.map_id']

/-- Writes apart commute: at every position at most one of them has a say. -/
theorem overlay_comm (xs : List α) (w v : MaskedWrite α) (h : w.Apart v) :
    overlay (overlay xs w) v = overlay (overlay xs v) w := by
  apply List.ext_getElem?
  intro i
  by_cases hw : w.Covers i
  · have hv : ¬ v.Covers i := fun hv => h i ⟨hw, hv⟩
    rw [getElem?_overlay_of_not_covers _ v i hv, getElem?_overlay, getElem?_overlay,
      getElem?_overlay_of_not_covers _ v i hv]
  · rw [getElem?_overlay, getElem?_overlay_of_not_covers xs w i hw,
      getElem?_overlay_of_not_covers _ w i hw, getElem?_overlay]

/-- Pairwise apart writes can be performed in any order. -/
theorem overlays_perm (xs : List α) (ws vs : List (MaskedWrite α))
    (hp : ws.Perm vs) (h : ws.Pairwise MaskedWrite.Apart) :
    overlays xs ws = overlays xs vs := by
  -- A write commutes with itself, so only distinct members need to be apart.
  have hcomm : ∀ w ∈ ws, ∀ v ∈ ws, ∀ ys : List α,
      overlay (overlay ys w) v = overlay (overlay ys v) w := by
    refine List.Pairwise.forall_of_forall_of_flip ?_ ?_ ?_
    · intro w _ ys
      rfl
    · exact h.imp fun hwv ys => overlay_comm ys _ _ hwv
    · exact h.imp fun hwv ys => (overlay_comm ys _ _ hwv).symm
  exact hp.foldl_eq' (fun w hw v hv ys => hcomm w hw v hv ys) xs

/-- Outside every block nothing changes. -/
theorem getElem?_overlays_of_not_covered (xs : List α) (ws : List (MaskedWrite α)) (i : Nat)
    (h : ∀ w ∈ ws, ¬ w.Covers i) : (overlays xs ws)[i]? = xs[i]? := by
  induction ws generalizing xs with
  | nil => rfl
  | cons w ws ih =>
      change (overlays (overlay xs w) ws)[i]? = xs[i]?
      rw [ih _ fun v hv => h v (List.mem_cons_of_mem w hv)]
      exact getElem?_overlay_of_not_covers xs w i (h w List.mem_cons_self)

/-- Inside a block the cell decides, over what the buffer held at the start:
    no other write of the list has touched the position. -/
theorem getElem?_overlays_of_covers (xs : List α) (ws : List (MaskedWrite α))
    (h : ws.Pairwise MaskedWrite.Apart) (w : MaskedWrite α) (hw : w ∈ ws) (i : Nat)
    (hi : w.Covers i) :
    (overlays xs ws)[i]? = xs[i]?.map fun x => (w.cell i).getD x := by
  induction ws generalizing xs with
  | nil => exact absurd hw List.not_mem_nil
  | cons v ws ih =>
      change (overlays (overlay xs v) ws)[i]? = _
      rcases List.pairwise_cons.mp h with ⟨hv, hrest⟩
      rcases List.mem_cons.mp hw with rfl | hmem
      · -- The write itself comes first; the later ones are apart from it.
        rw [getElem?_overlays_of_not_covered _ ws i fun u hu hc => hv u hu i ⟨hi, hc⟩]
        exact getElem?_overlay xs w i
      · rw [ih (overlay xs v) hrest hmem,
          getElem?_overlay_of_not_covers xs v i fun hc => hv w hmem i ⟨hc, hi⟩]

/-- Writes apart do not undo one another: after one more write the buffer
    differs from the initial one exactly when it did before, or when this
    write changed something. -/
theorem overlay_ne_iff (xs : List α) (ws : List (MaskedWrite α)) (w : MaskedWrite α)
    (h : ∀ v ∈ ws, v.Apart w) :
    overlay (overlays xs ws) w ≠ xs ↔
      overlays xs ws ≠ xs ∨ overlay (overlays xs ws) w ≠ overlays xs ws := by
  constructor
  · intro hne
    by_contra hc
    push Not at hc
    exact hne (hc.2.trans hc.1)
  · rintro hor heq
    -- Position by position: inside `w` the buffer is still the initial one.
    have hsame : overlays xs ws = xs := by
      apply List.ext_getElem?
      intro i
      by_cases hi : w.Covers i
      · exact getElem?_overlays_of_not_covered xs ws i fun v hv hc => h v hv i ⟨hc, hi⟩
      · rw [← getElem?_overlay_of_not_covers _ w i hi, heq]
    rcases hor with hne | hne
    · exact hne hsame
    · exact hne (heq.trans hsame.symm)

end Overlay

end Zd1200
