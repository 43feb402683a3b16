import Mathlib.Data.Set.Function
import Zd1200.Release.Tac

/-!
# Chunks of a TAC Archive

What `decrypt_stream` writes, said without its chunks.

A word of the output depends on its own word of the input, on the one before
and on whether its number is even. The loop carries the last two of these
from chunk to chunk, and it rounds the size of a chunk down to whole words, so
that no word is ever cut. Whatever the size, the output is the one that
`decrypted` describes word by word.

Every word can be had: the word of the input follows from the word of the
output and the words before it, which is what encryption computes. So a
decryption of some length is undone by an encryption, and the other way
round.

## Main definitions

* `cipherWord`, `plainWord`: The words of an input and of its output.
* `decrypted`: The output, word by word.

## Theorems

* `decryptWords_eq`: The loop over words writes them.
* `encryptWords_decryptWords`: Encryption undoes decryption.
* `decryptStream_chunks`: Every size of the chunks writes the same.
-/

namespace Zd1200

/-- Word `i` of an input. -/
def cipherWord (c : Bytes) (i : Nat) : Nat := leNat ((c.drop (8 * i)).take 8)

/-- Word `i` of the output: the word of the input, combined with the one before
    it and with the initial constant flipped `i` times. -/
def plainWord (c : Bytes) (i : Nat) : Nat :=
  cipherWord c i ^^^ (if i = 0 then 0 else cipherWord c (i - 1)) ^^^
    (fun value => value ^^^ xorFlip)^[i] initialXor

/-- The output, word by word. -/
def decrypted (c : Bytes) : Bytes :=
  (List.range (c.length / 8)).flatMap fun i => leBytes 8 (plainWord c i)

theorem cipherWord_drop (c : Bytes) (i : Nat) : cipherWord (c.drop 8) i = cipherWord c (i + 1) := by
  rw [cipherWord, cipherWord, List.drop_drop, Nat.mul_add, Nat.mul_one, Nat.add_comm]

/-- The words that the loop writes, with the word before the first one and the
    value it starts with. -/
theorem decryptWords_eq_flatMap (n : Nat) (c : Bytes) (previousInput xorValue : Nat) :
    (decryptWords n c previousInput xorValue).1 = (List.range n).flatMap fun i =>
      leBytes 8 (cipherWord c i ^^^ (if i = 0 then previousInput else cipherWord c (i - 1)) ^^^
        (fun value => value ^^^ xorFlip)^[i] xorValue) := by
  induction n generalizing c previousInput xorValue with
  | zero => rfl
  | succ n ih =>
      rw [decryptWords, ih, List.range_succ_eq_map, List.flatMap_cons, List.flatMap_map]
      have hfirst : previousInput ^^^ xorValue ^^^ leNat (c.take 8)
          = cipherWord c 0 ^^^ previousInput ^^^ xorValue := by
        rw [Nat.xor_comm, ← Nat.xor_assoc]
        rfl
      rw [hfirst]
      refine congrArg₂ (· ++ ·) rfl ?_
      refine List.flatMap_congr fun i _ => ?_
      -- The word before word `i` of the rest is word `i` of the whole.
      rw [cipherWord_drop, if_neg (Nat.succ_ne_zero i), Nat.succ_sub_one, Function.iterate_succ_apply]
      by_cases hi : i = 0
      · rw [if_pos hi, hi]
        rfl
      · rw [if_neg hi, cipherWord_drop, Nat.sub_add_cancel (Nat.pos_of_ne_zero hi)]

theorem decryptWords_eq (c : Bytes) :
    (decryptWords (c.length / 8) c 0 initialXor).1 = decrypted c :=
  decryptWords_eq_flatMap (c.length / 8) c 0 initialXor

/-- Encryption undoes decryption. -/
theorem encryptWords_decryptWords (n : Nat) (c : Bytes) (previous xorValue : Nat)
    (hlen : c.length = 8 * n) (hprevious : previous < 2 ^ 64) (hxor : xorValue < 2 ^ 64) :
    encryptWords n (decryptWords n c previous xorValue).1 previous xorValue = c := by
  induction n generalizing c previous xorValue with
  | zero =>
      rw [encryptWords]
      exact (List.length_eq_zero_iff.mp hlen).symm
  | succ n ih =>
      have htake : (c.take 8).length = 8 := by
        rw [List.length_take]
        omega
      have hword : leNat (c.take 8) < 2 ^ 64 := by
        have := leNat_lt (c.take 8)
        rwa [htake] at this
      have hplain : previous ^^^ xorValue ^^^ leNat (c.take 8) < 256 ^ 8 :=
        Nat.xor_lt_two_pow (Nat.xor_lt_two_pow hprevious hxor) hword
      have hback : leBytes 8 (leNat (c.take 8)) = c.take 8 := by
        have := leBytes_leNat (c.take 8)
        rwa [htake] at this
      -- Combining the word of the output with both again leaves that of the input.
      have hcipher : previous ^^^ xorValue ^^^ leNat (c.take 8) ^^^ previous ^^^ xorValue
          = leNat (c.take 8) := by
        rw [Nat.xor_comm (previous ^^^ xorValue), Nat.xor_assoc _ previous, Nat.xor_assoc,
          Nat.xor_self, Nat.xor_zero]
      rw [decryptWords, encryptWords]
      simp only
      rw [List.take_left' (length_leBytes 8 _), List.drop_left' (length_leBytes 8 _),
        leNat_leBytes 8 _ hplain, hcipher, hback,
        ih (c.drop 8) _ _ (by rw [List.length_drop]; omega) hword
          (Nat.xor_lt_two_pow hxor xorFlip_lt), List.take_append_drop]

/-- Decryption is a bijection on the inputs of each length. -/
theorem bijOn_decrypted (n : Nat) :
    Set.BijOn decrypted {c : Bytes | c.length = 8 * n} {p : Bytes | p.length = 8 * n} := by
  have hwords : ∀ c : Bytes, c.length = 8 * n →
      decrypted c = (decryptWords n c 0 initialXor).1 := by
    intro c hc
    rw [← decryptWords_eq, hc, Nat.mul_div_cancel_left n (by decide)]
  have hinverse : Set.InvOn (fun p => encryptWords n p 0 initialXor) decrypted
      {c : Bytes | c.length = 8 * n} {p : Bytes | p.length = 8 * n} := by
    refine ⟨?_, ?_⟩
    · intro c hc
      rw [hwords c hc]
      exact encryptWords_decryptWords n c 0 initialXor hc (by decide) initialXor_lt
    · intro p hp
      simp only
      rw [hwords _ (length_encryptWords n p 0 initialXor)]
      exact decryptWords_encryptWords n p 0 initialXor hp (by decide) initialXor_lt
  refine hinverse.bijOn ?_ ?_
  · intro c hc
    rw [hwords c hc]
    exact length_decryptWords n c 0 initialXor
  · intro p _
    exact length_encryptWords n p 0 initialXor

/-- Whatever the size of the chunks, an input of whole words is decrypted word
    by word, and the map from inputs to outputs is a bijection. -/
theorem decryptStream_chunks (temporary : String) (content before : Bytes) (chunkSize : Nat)
    (files : String → Option Bytes) (hwords : content.length % 8 = 0) (hchunk : 8 ≤ chunkSize)
    (hold : files temporary = some before) :
    Completes (decryptStream temporary content chunkSize) files content.length
        (Function.update files temporary (some (before ++ decrypted content))) ∧
      ∀ n, Set.BijOn decrypted {c : Bytes | c.length = 8 * n} {p : Bytes | p.length = 8 * n} := by
  refine ⟨?_, bijOn_decrypted⟩
  have hloop := decryptLoop_completes temporary (chunkSize - chunkSize % 8) (content.length + 1)
    content before 0 initialXor 0 files (by omega) (by omega) hwords (Nat.lt_succ_self _) hold
  rw [decryptWords_eq, Nat.zero_add] at hloop
  exact (Completes.raiseWhen (by omega) _ files).bind hloop

/-- Two words, read in chunks of twelve bytes. -/
theorem decryptStream_chunks_words :
    Completes (decryptStream "image" (List.range 16 |>.map Nat.toUInt8) 12)
      (Function.update (fun _ => none) "image" (some [])) 16
      (Function.update (Function.update (fun _ => none) "image" (some [])) "image"
        (some ([] ++ decrypted (List.range 16 |>.map Nat.toUInt8)))) :=
  (decryptStream_chunks "image" (List.range 16 |>.map Nat.toUInt8) [] 12 _ (by decide) (by decide)
    (Function.update_self _ _ _)).1

end Zd1200
