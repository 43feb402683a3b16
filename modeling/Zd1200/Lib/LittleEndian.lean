import Mathlib.Algebra.Ring.Int.Defs
import Mathlib.Data.Nat.Basic
import Zd1200.Lib.Slice

/-!
# Little Endian Numbers

Numbers as byte strings, least significant byte first.

`leNat` reads any byte string as a number and `leBytes` writes a number into
a fixed width. Writing truncates, as storing into a field of that width does,
so the round trip `leNat_leBytes` asks the number to fit; the other round trip
`leBytes_leNat` asks nothing, since the width is the string's own.

`signed32` reads a 32-bit pattern in two's complement, for the displacements
of relative jumps.

## Main definitions

* `leNat`: The number a byte string stands for.
* `leBytes`: A number written into a width.
* `signed32`: A 32-bit pattern as a signed number.

## Theorems

* `length_leBytes`: The width is the length.
* `leNat_leBytes`: Reading back what was written.
* `leBytes_leNat`: Writing back what was read.
* `leNat_lt`: A string of some width stands for a number below its bound.
-/

namespace Zd1200

/-- The number a byte string stands for. -/
def leNat : Bytes → Nat
  | [] => 0
  | b :: bs => b.toNat + 256 * leNat bs

/-- The number `n` written into `width` bytes. -/
def leBytes : Nat → Nat → Bytes
  | 0, _ => []
  | width + 1, n => n.toUInt8 :: leBytes width (n / 256)

/-- A 32-bit pattern in two's complement. -/
def signed32 (n : Nat) : Int := if n < 2 ^ 31 then n else (n : Int) - 2 ^ 32

@[simp] theorem length_leBytes (width n : Nat) : (leBytes width n).length = width := by
  induction width generalizing n with
  | zero => rfl
  | succ width ih => rw [leBytes, List.length_cons, ih]

theorem leNat_leBytes (width n : Nat) (h : n < 256 ^ width) : leNat (leBytes width n) = n := by
  induction width generalizing n with
  | zero =>
      rw [Nat.pow_zero] at h
      simp only [leBytes, leNat]
      omega
  | succ width ih =>
      have hdiv : n / 256 < 256 ^ width := by
        rw [Nat.pow_succ] at h
        exact Nat.div_lt_of_lt_mul (by rwa [Nat.mul_comm])
      rw [leBytes, leNat, ih _ hdiv]
      have hbyte : n.toUInt8.toNat = n % 256 := UInt8.toNat_ofNat'
      rw [hbyte]
      omega

theorem leNat_lt (bs : Bytes) : leNat bs < 256 ^ bs.length := by
  induction bs with
  | nil => exact Nat.one_pos
  | cons b bs ih =>
      have hb : b.toNat < 256 := b.toNat_lt
      rw [leNat, List.length_cons, Nat.pow_succ]
      omega

theorem leBytes_leNat (bs : Bytes) : leBytes bs.length (leNat bs) = bs := by
  induction bs with
  | nil => rfl
  | cons b bs ih =>
      have hb : b.toNat < 256 := b.toNat_lt
      have hdiv : (b.toNat + 256 * leNat bs) / 256 = leNat bs := by omega
      have hbyte : (b.toNat + 256 * leNat bs).toUInt8 = b := by
        apply UInt8.toNat_inj.mp
        change (UInt8.ofNat _).toNat = _
        rw [UInt8.toNat_ofNat']
        omega
      rw [List.length_cons, leNat, leBytes, hdiv, ih, hbyte]

end Zd1200
