import Zd1200.Lib.Slice

/-!
# Fields of a Header

Windows of fixed place and width in a sequence, read and written like the
members of a packed structure.

A program that fills a header writes one field after another and a program that
checks it reads them back, so what is needed about a field is how its write
meets another read: a field holds what was last written to it, a write leaves
every field apart from it alone, and nothing outside the window moves. The
lemmas ask for the field to lie inside the sequence and for the written value
to have its width; `setSlice` alone would let a value of another length move
everything behind it.

## Main definitions

* `Field`: A place and a width.
* `Field.read`: The elements of a field.
* `Field.write`: Overwrite a field.
* `Field.Apart`: Two fields share no element.

## Theorems

* `Field.read_write`: A field holds what was written.
* `Field.read_write_apart`: Other fields hold what they held.
* `Field.write_write`: The last write to a field stays.
* `Field.write_eq_self_iff`: Writing what a field holds changes nothing.
* `Field.getElem?_write`: The sequence after a write, element by element.
-/

namespace Zd1200

/-- A window of fixed place and width. -/
structure Field where
  offset : Nat
  width : Nat
  deriving DecidableEq, Repr

namespace Field

variable {α : Type}

/-- The elements `xs[offset:offset + width]`. -/
def read (f : Field) (xs : List α) : List α := slice xs f.offset (f.offset + f.width)

/-- The assignment `xs[offset:offset + width] = ys`. -/
def write (f : Field) (xs ys : List α) : List α := setSlice xs f.offset (f.offset + f.width) ys

/-- The field lies inside the sequence. -/
def Inside (f : Field) (xs : List α) : Prop := f.offset + f.width ≤ xs.length

/-- Position `i` belongs to the field. -/
def Covers (f : Field) (i : Nat) : Prop := f.offset ≤ i ∧ i < f.offset + f.width

instance (f : Field) (i : Nat) : Decidable (f.Covers i) :=
  inferInstanceAs (Decidable (_ ∧ _))

/-- The fields share no position. -/
def Apart (f g : Field) : Prop :=
  f.offset + f.width ≤ g.offset ∨ g.offset + g.width ≤ f.offset

instance (f g : Field) : Decidable (f.Apart g) := inferInstanceAs (Decidable (_ ∨ _))

theorem Apart.symm {f g : Field} (h : f.Apart g) : g.Apart f := h.elim Or.inr Or.inl

theorem length_read (f : Field) (xs : List α) (h : f.Inside xs) : (f.read xs).length = f.width :=
  length_slice_window xs f.offset f.width h

theorem getElem?_read (f : Field) (xs : List α) (h : f.Inside xs) (k : Nat) (hk : k < f.width) :
    (f.read xs)[k]? = xs[f.offset + k]? :=
  getElem?_slice_window xs f.offset f.width k h hk

theorem write_eq (f : Field) (xs ys : List α) (h : f.Inside xs) (hy : ys.length = f.width) :
    f.write xs ys = xs.take f.offset ++ ys ++ xs.drop (f.offset + f.width) := by
  unfold write Inside at *
  rw [← hy] at h ⊢
  exact setSlice_window xs ys f.offset h

@[simp] theorem length_write (f : Field) (xs ys : List α) (h : f.Inside xs)
    (hy : ys.length = f.width) : (f.write xs ys).length = xs.length := by
  unfold Inside at h
  rw [write_eq f xs ys h hy, List.length_append, List.length_append, List.length_take,
    List.length_drop]
  omega

/-- A write keeps every field inside. -/
theorem Inside.write {f g : Field} {xs ys : List α} (hg : g.Inside xs) (h : f.Inside xs)
    (hy : ys.length = f.width) : g.Inside (f.write xs ys) := by
  unfold Inside at hg ⊢
  rwa [length_write f xs ys h hy]

/-- The sequence after a write, element by element. -/
theorem getElem?_write (f : Field) (xs ys : List α) (h : f.Inside xs)
    (hy : ys.length = f.width) (i : Nat) :
    (f.write xs ys)[i]? = if f.Covers i then ys[i - f.offset]? else xs[i]? := by
  unfold Inside at h
  have htake : (xs.take f.offset).length = f.offset := by
    rw [List.length_take]
    omega
  rw [write_eq f xs ys h hy]
  by_cases hlo : i < f.offset
  · -- Before the field.
    rw [if_neg (fun hc => absurd hc.1 (by omega)), List.append_assoc,
      List.getElem?_append_left (by omega), List.getElem?_take_of_lt hlo]
  · by_cases hhi : i < f.offset + f.width
    · -- Inside the field.
      rw [if_pos ⟨by omega, hhi⟩, List.getElem?_append_left (by rw [List.length_append]; omega),
        List.getElem?_append_right (by omega), htake]
    · -- After the field.
      rw [if_neg (fun hc => hhi hc.2),
        List.getElem?_append_right (by rw [List.length_append]; omega), List.length_append,
        htake, List.getElem?_drop]
      congr 1
      omega

-- Reads are compared element by element; past the width both end.
theorem read_ext (f : Field) (xs : List α) (ys : List α) (h : f.Inside xs)
    (hy : ys.length = f.width) (heq : ∀ k, k < f.width → xs[f.offset + k]? = ys[k]?) :
    f.read xs = ys := by
  apply List.ext_getElem?
  intro k
  by_cases hk : k < f.width
  · rw [getElem?_read f xs h k hk, heq k hk]
  · rw [List.getElem?_eq_none_iff.mpr (by rw [length_read f xs h]; omega),
      List.getElem?_eq_none_iff.mpr (by omega)]

/-- A field holds what was written to it. -/
theorem read_write (f : Field) (xs ys : List α) (h : f.Inside xs) (hy : ys.length = f.width) :
    f.read (f.write xs ys) = ys := by
  refine read_ext f _ ys (h.write h hy) hy fun k hk => ?_
  rw [getElem?_write f xs ys h hy, if_pos ⟨by omega, by omega⟩, Nat.add_sub_cancel_left]

/-- A write leaves the fields apart from it alone. -/
theorem read_write_apart (f g : Field) (xs ys : List α) (h : f.Inside xs) (hg : g.Inside xs)
    (hy : ys.length = f.width) (hap : f.Apart g) : g.read (f.write xs ys) = g.read xs := by
  refine read_ext g _ _ (hg.write h hy) (length_read g xs hg) fun k hk => ?_
  have hout : ¬ f.Covers (g.offset + k) := by
    unfold Apart at hap
    unfold Covers
    omega
  rw [getElem?_write f xs ys h hy, if_neg hout, getElem?_read g xs hg k hk]

/-- The last write to a field stays. -/
theorem write_write (f : Field) (xs ys zs : List α) (h : f.Inside xs) (hy : ys.length = f.width)
    (hz : zs.length = f.width) : f.write (f.write xs ys) zs = f.write xs zs := by
  apply List.ext_getElem?
  intro i
  rw [getElem?_write f _ zs (h.write h hy) hz, getElem?_write f xs ys h hy,
    getElem?_write f xs zs h hz]
  by_cases hc : f.Covers i
  · simp only [if_pos hc]
  · simp only [if_neg hc]

/-- Writing what a field holds changes nothing, and nothing else does. -/
theorem write_eq_self_iff (f : Field) (xs ys : List α) (h : f.Inside xs)
    (hy : ys.length = f.width) : f.write xs ys = xs ↔ f.read xs = ys := by
  unfold read write Inside at *
  rw [← hy] at h ⊢
  exact setSlice_eq_self_iff xs ys f.offset h

end Field

end Zd1200
