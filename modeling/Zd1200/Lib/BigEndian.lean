import Mathlib.Tactic.Ring
import Zd1200.Lib.LittleEndian

/-!
# Big Endian Numbers

Numbers as byte strings, most significant byte first, in terms of little endian
ones: a byte string is read backwards, and a number is written backwards.

## Main definitions

* `beNat`: The number a byte string stands for.
* `beBytes`: A number written into a width.

## Theorems

* `beNat_beBytes`: Reading back what was written.
* `beBytes_beNat`: Writing back what was read.
* `beNat_cons`: The first byte weighs most.
* `beNat_inj`: Numbers of the same width tell byte strings apart.
-/

namespace Zd1200

/-- The number a byte string stands for. -/
def beNat (bs : Bytes) : Nat := leNat bs.reverse

/-- The number `n` written into `width` bytes. -/
def beBytes (width n : Nat) : Bytes := (leBytes width n).reverse

@[simp] theorem length_beBytes (width n : Nat) : (beBytes width n).length = width := by
  rw [beBytes, List.length_reverse, length_leBytes]

theorem beNat_beBytes (width n : Nat) (h : n < 256 ^ width) : beNat (beBytes width n) = n := by
  rw [beNat, beBytes, List.reverse_reverse, leNat_leBytes width n h]

theorem beBytes_beNat (bs : Bytes) : beBytes bs.length (beNat bs) = bs := by
  have h := leBytes_leNat bs.reverse
  rw [List.length_reverse] at h
  rw [beBytes, beNat, h, List.reverse_reverse]

theorem beNat_cons (b : UInt8) (bs : Bytes) :
    beNat (b :: bs) = b.toNat * 256 ^ bs.length + beNat bs := by
  have happend : ∀ xs : Bytes, leNat (xs ++ [b]) = b.toNat * 256 ^ xs.length + leNat xs := by
    intro xs
    induction xs with
    | nil => simp only [List.nil_append, leNat, List.length_nil, Nat.pow_zero, Nat.mul_one,
        Nat.mul_zero, Nat.add_zero]
    | cons x xs ih =>
        rw [List.cons_append, leNat, leNat, ih, List.length_cons, Nat.pow_succ]
        ring
  rw [beNat, List.reverse_cons, happend, List.length_reverse, beNat]

/-- Numbers of the same width tell byte strings apart. -/
theorem beNat_inj {bs cs : Bytes} (hlength : bs.length = cs.length) (h : beNat bs = beNat cs) :
    bs = cs := by
  rw [← beBytes_beNat bs, ← beBytes_beNat cs, hlength, h]

theorem beNat_lt (bs : Bytes) : beNat bs < 256 ^ bs.length := by
  have h := leNat_lt bs.reverse
  rwa [List.length_reverse] at h

end Zd1200
