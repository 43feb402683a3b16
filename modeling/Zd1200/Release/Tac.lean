import Mathlib.Data.Nat.Bitwise
import Zd1200.Lib.LittleEndian
import Zd1200.Lib.System

/-!
# TAC Archives

`ruckus_tac_decrypt.py` turns an archive as the vendor ships it into the
member that is inside.

The cipher goes word by word. A word of the output is a word of the input,
combined with the word before it and with a value that flips between two. The
previous input and the value are carried across the chunks a file is read in,
so the size of the chunks does not show.

A payload is padded to whole words before it is encrypted. How many bytes the
padding has stands in the low half of its last byte, so it is only known when
everything has been decrypted; the file is then opened a second time and cut.

All of this happens in a temporary file beside the destination, which is
renamed over it in the end. `decryptFile_correct` says what that is for: a run
that fails at any point, for whatever reason, leaves every file as it was.

The names a run works with are those of one directory, the destination's. What
is read from the source is given, and so is the size the system reports for
it, which is not always the same.

## Main definitions

* `decryptWords`, `encryptWords`: The cipher and its inverse.
* `decryptStream`: Decrypt what is read, chunk by chunk.
* `Decryption`: A source, and the name of a destination.
* `decryptFile`: Decrypt into a destination.

## Theorems

* `decryptWords_encryptWords`: Decryption undoes encryption.
* `decryptWords_append`: Chunks can be decrypted one after another.
* `decryptStream_completes`: What is in the temporary file.
* `decryptFile_correct`: A payload comes back, and a failure changes nothing.
-/

namespace Zd1200

/-! ### Words -/

/-- The constant `_INITIAL_XOR`. -/
def initialXor : Nat := leNat [0x29, 0x1a, 0x42, 0x05, 0xbd, 0x2c, 0xd6, 0xf2]

/-- The constant `_XOR_FLIP`. -/
def xorFlip : Nat := leNat [0x35, 0xad, 0xb8, 0xe0, 0x3f, 0x54, 0xc5, 0x38]

/-- The words of a chunk, with the previous input and the value to combine
    with before and after it. -/
def decryptWords : Nat → Bytes → Nat → Nat → Bytes × Nat × Nat
  | 0, _, previousInput, xorValue => ([], previousInput, xorValue)
  | n + 1, encrypted, previousInput, xorValue =>
      let currentInput := leNat (encrypted.take 8)
      let rest := decryptWords n (encrypted.drop 8) currentInput (xorValue ^^^ xorFlip)
      (leBytes 8 (previousInput ^^^ xorValue ^^^ currentInput) ++ rest.1, rest.2)

/-- The encryption of words that the tests have. -/
def encryptWords : Nat → Bytes → Nat → Nat → Bytes
  | 0, _, _, _ => []
  | n + 1, plain, previous, xorValue =>
      let currentCipher := leNat (plain.take 8) ^^^ previous ^^^ xorValue
      leBytes 8 currentCipher ++
        encryptWords n (plain.drop 8) currentCipher (xorValue ^^^ xorFlip)

/-- A whole payload encrypted. -/
def encryptBytes (plain : Bytes) : Bytes :=
  encryptWords (plain.length / 8) plain 0 initialXor

theorem length_encryptWords (n : Nat) (plain : Bytes) (previous xorValue : Nat) :
    (encryptWords n plain previous xorValue).length = 8 * n := by
  induction n generalizing plain previous xorValue with
  | zero => rfl
  | succ n ih =>
      rw [encryptWords, List.length_append, length_leBytes, ih]
      omega

theorem length_decryptWords (n : Nat) (encrypted : Bytes) (previousInput xorValue : Nat) :
    (decryptWords n encrypted previousInput xorValue).1.length = 8 * n := by
  induction n generalizing encrypted previousInput xorValue with
  | zero => rfl
  | succ n ih =>
      rw [decryptWords, List.length_append, length_leBytes, ih]
      omega

theorem xorFlip_lt : xorFlip < 2 ^ 64 := leNat_lt _

theorem initialXor_lt : initialXor < 2 ^ 64 := leNat_lt _

/-- Combining twice with the same two values changes nothing. -/
theorem xor_twice (a b c : Nat) : a ^^^ b ^^^ (c ^^^ a ^^^ b) = c := by
  rw [Nat.xor_assoc c a b, ← Nat.xor_assoc, Nat.xor_comm (a ^^^ b) c, Nat.xor_assoc,
    Nat.xor_self, Nat.xor_zero]

/-- Decryption undoes encryption. -/
theorem decryptWords_encryptWords (n : Nat) (plain : Bytes) (previous xorValue : Nat)
    (hlen : plain.length = 8 * n) (hprevious : previous < 2 ^ 64) (hxor : xorValue < 2 ^ 64) :
    (decryptWords n (encryptWords n plain previous xorValue) previous xorValue).1 = plain := by
  induction n generalizing plain previous xorValue with
  | zero =>
      rw [decryptWords]
      exact (List.length_eq_zero_iff.mp hlen).symm
  | succ n ih =>
      have htake : (plain.take 8).length = 8 := by
        rw [List.length_take]
        omega
      have hword : leNat (plain.take 8) < 2 ^ 64 := by
        have := leNat_lt (plain.take 8)
        rwa [htake] at this
      have hcipher : leNat (plain.take 8) ^^^ previous ^^^ xorValue < 2 ^ 64 :=
        Nat.xor_lt_two_pow (Nat.xor_lt_two_pow hword hprevious) hxor
      have hback : leBytes 8 (leNat (plain.take 8)) = plain.take 8 := by
        have := leBytes_leNat (plain.take 8)
        rwa [htake] at this
      rw [encryptWords, decryptWords]
      simp only
      rw [List.take_left' (length_leBytes 8 _), List.drop_left' (length_leBytes 8 _),
        leNat_leBytes 8 _ hcipher, xor_twice, hback,
        ih (plain.drop 8) _ _ (by rw [List.length_drop]; omega) hcipher
          (Nat.xor_lt_two_pow hxor xorFlip_lt), List.take_append_drop]

/-- Chunks can be decrypted one after another. -/
theorem decryptWords_append (n m : Nat) (xs ys : Bytes) (previousInput xorValue : Nat)
    (hlen : xs.length = 8 * n) :
    decryptWords (n + m) (xs ++ ys) previousInput xorValue =
      ((decryptWords n xs previousInput xorValue).1 ++
        (decryptWords m ys (decryptWords n xs previousInput xorValue).2.1
          (decryptWords n xs previousInput xorValue).2.2).1,
        (decryptWords m ys (decryptWords n xs previousInput xorValue).2.1
          (decryptWords n xs previousInput xorValue).2.2).2) := by
  induction n generalizing xs previousInput xorValue with
  | zero =>
      rw [List.length_eq_zero_iff.mp hlen, Nat.zero_add]
      rfl
  | succ n ih =>
      rw [show n + 1 + m = (n + m) + 1 by omega, decryptWords, decryptWords]
      simp only
      rw [List.take_append_of_le_length (by omega), List.drop_append_of_le_length (by omega),
        ih (xs.drop 8) _ _ (by rw [List.length_drop]; omega), List.append_assoc]

/-! ### Files -/

/-- The loop of `decrypt_stream`: one chunk of what remains to be read. -/
def decryptLoop (temporary : String) (chunkSize : Nat) :
    Nat → Bytes → Nat → Nat → Nat → System Nat
  | 0, _, _, _, written => pure written
  | fuel + 1, remaining, previousInput, xorValue, written => do
      consult
      let encrypted := remaining.take chunkSize
      if encrypted = [] then
        return written
      else do
        raiseWhen (encrypted.length % 8 ≠ 0)
          (.valueError "TAC input length is not a multiple of eight bytes")
        let words := decryptWords (encrypted.length / 8) encrypted previousInput xorValue
        alter temporary fun content => content.getD [] ++ words.1
        decryptLoop temporary chunkSize fuel (remaining.drop chunkSize) words.2.1 words.2.2
          (written + words.1.length)

/-- Decrypt what is read; the number of bytes that were written. -/
def decryptStream (temporary : String) (content : Bytes) (chunkSize : Nat) : System Nat := do
  raiseWhen (chunkSize < 8) (.valueError "chunk_size must be at least eight bytes")
  decryptLoop temporary (chunkSize - chunkSize % 8) (content.length + 1) content 0 initialXor 0

/-- A source and the name of a destination. `size` is what the system reports
    for the source, `content` what reading it gives. -/
structure Decryption where
  sameFile : Bool
  size : Nat
  content : Bytes
  name : String
  random : String

/-- The name of the temporary file. -/
def Decryption.temporary (r : Decryption) : String := "." ++ r.name ++ "." ++ r.random ++ ".tmp"

/-- The last byte of a file. There is none to go back to in an empty file. -/
def lastByte (name : String) : System UInt8 := fun w =>
  match (w.files name).bind List.getLast? with
  | some b => (.ok b, w)
  | none => (.error (.osError "Invalid argument"), w)

/-- Cut the padding off; the number of bytes that are left. -/
def cutPadding (temporary : String) (written : Nat) : System Nat := do
  consult
  closing consult do
    consult
    let last ← lastByte temporary
    let padding := last.toNat % 16
    if padding = 0 then
      return written
    else do
      raiseWhen (padding > written) (.valueError "TAC padding exceeds decrypted output length")
      alter temporary fun content => (content.getD []).take (written - padding)
      alter temporary fun content => content.getD []
      consult
      return written - padding

/-- Nothing is cut off an empty file. -/
def removePadding (temporary : String) (written : Nat) : System Nat :=
  if written = 0 then pure written else cutPadding temporary written

/-- Decrypt into the temporary file. -/
def writeTemporary (r : Decryption) : System Nat := do
  consult
  closing consult do
    consult
    -- What was written can still fail to reach the file.
    closing (alter r.temporary fun content => content.getD []) do
      let written ← decryptStream r.temporary r.content (1024 * 1024)
      alter r.temporary fun content => content.getD []
      consult
      return written

/-- The operation `os.replace`. -/
def replaceDestination (r : Decryption) : System Unit :=
  operate (fun _ files => files) fun files =>
    Function.update (Function.update files r.name (files r.temporary)) r.temporary none

/-- What happens while there is a temporary file. -/
def decryptBody (r : Decryption) : System Nat := do
  let written ← writeTemporary r
  let written ← removePadding r.temporary written
  replaceDestination r
  return written

/-- Decrypt into a temporary file beside the destination, and rename it. -/
def decryptFile (r : Decryption) : System Nat := do
  consult
  raiseWhen (r.sameFile = true) (.valueError "source and destination must be different files")
  consult
  raiseWhen (r.size % 8 ≠ 0) (.valueError "TAC input length is not a multiple of eight bytes")
  consult
  mkstemp r.temporary
  cleaning r.temporary (decryptBody r)

/-! ### What a failure leaves -/

theorem keeps_lastByte (name : String) : Keeps name (lastByte name) := by
  intro w other _
  unfold lastByte
  split
  · rfl
  · rfl

theorem keeps_decryptLoop (temporary : String) (chunkSize fuel : Nat) (remaining : Bytes)
    (previousInput xorValue written : Nat) :
    Keeps temporary
      (decryptLoop temporary chunkSize fuel remaining previousInput xorValue written) := by
  induction fuel generalizing remaining previousInput xorValue written with
  | zero => exact Keeps.pure _ _
  | succ fuel ih =>
      rw [decryptLoop]
      refine (Keeps.consult _).bind fun _ => ?_
      simp only
      split
      · exact Keeps.pure _ _
      · refine (Keeps.raiseWhen _ _ _).bind fun _ => ?_
        exact (Keeps.alter _ _).bind fun _ => ih _ _ _ _

theorem keeps_decryptStream (temporary : String) (content : Bytes) (chunkSize : Nat) :
    Keeps temporary (decryptStream temporary content chunkSize) :=
  (Keeps.raiseWhen _ _ _).bind fun _ => keeps_decryptLoop _ _ _ _ _ _ _

theorem keeps_removePadding (temporary : String) (written : Nat) :
    Keeps temporary (removePadding temporary written) := by
  unfold removePadding
  split
  · exact Keeps.pure _ _
  · refine (Keeps.consult _).bind fun _ => Keeps.closing (Keeps.consult _) ?_
    refine (Keeps.consult _).bind fun _ => (keeps_lastByte _).bind fun last => ?_
    simp only
    split
    · exact Keeps.pure _ _
    · refine (Keeps.raiseWhen _ _ _).bind fun _ => (Keeps.alter _ _).bind fun _ => ?_
      exact (Keeps.alter _ _).bind fun _ => (Keeps.consult _).bind fun _ => Keeps.pure _ _

theorem keeps_writeTemporary (r : Decryption) : Keeps r.temporary (writeTemporary r) := by
  refine (Keeps.consult _).bind fun _ => Keeps.closing (Keeps.consult _) ?_
  refine (Keeps.consult _).bind fun _ => Keeps.closing (Keeps.alter _ _) ?_
  refine (keeps_decryptStream _ _ _).bind fun _ => ?_
  exact (Keeps.alter _ _).bind fun _ => (Keeps.consult _).bind fun _ => Keeps.pure _ _

/-- The rename is the last thing to happen and the only one that shows. -/
theorem careful_decryptBody (r : Decryption) : Careful r.temporary (decryptBody r) := by
  refine (keeps_writeTemporary r).bind_careful fun written => ?_
  exact (keeps_removePadding _ written).bind_careful fun _ => (Careful.operate _ _).bind_pure _

/-- A run that fails changes no file. -/
theorem atomic_decryptFile (r : Decryption) : Atomic (decryptFile r) := by
  refine Silent.consult.bind_atomic fun _ => (Silent.raiseWhen _ _).bind_atomic fun _ => ?_
  refine Silent.consult.bind_atomic fun _ => (Silent.raiseWhen _ _).bind_atomic fun _ => ?_
  exact Silent.consult.bind_atomic fun _ => (careful_decryptBody r).atomic

/-! ### What a payload becomes -/

/-- The loop writes the words of what remains behind what has been written. -/
theorem decryptLoop_completes (temporary : String) (chunkSize fuel : Nat) (remaining before : Bytes)
    (previousInput xorValue written : Nat) (files : String → Option Bytes)
    (hchunk : chunkSize % 8 = 0) (hpos : 0 < chunkSize) (hwords : remaining.length % 8 = 0)
    (hfuel : remaining.length < fuel) (hold : files temporary = some before) :
    Completes (decryptLoop temporary chunkSize fuel remaining previousInput xorValue written) files
      (written + remaining.length)
      (Function.update files temporary (some (before ++
        (decryptWords (remaining.length / 8) remaining previousInput xorValue).1))) := by
  induction fuel generalizing remaining before previousInput xorValue written files with
  | zero => exact absurd hfuel (Nat.not_lt_zero _)
  | succ fuel ih =>
      rw [decryptLoop]
      refine (Completes.consult files).bind ?_
      simp only
      by_cases hempty : remaining.take chunkSize = []
      · have hnil : remaining = [] := by
          rw [List.take_eq_nil_iff] at hempty
          exact hempty.resolve_left (by omega)
        subst hnil
        rw [if_pos hempty, List.length_nil, Nat.add_zero]
        have hsame : Function.update files temporary (some (before ++
            (decryptWords (0 / 8) ([] : Bytes) previousInput xorValue).1)) = files := by
          change Function.update files temporary (some (before ++ [])) = files
          rw [List.append_nil, ← hold, Function.update_eq_self]
        rw [hsame]
        exact Completes.pure _ files
      · rw [if_neg hempty]
        -- The chunk and what comes after it, in words.
        rcases Nat.dvd_of_mod_eq_zero hwords with ⟨n, hn⟩
        have htake : (remaining.take chunkSize).length % 8 = 0 := by
          rw [List.length_take]
          omega
        rcases Nat.dvd_of_mod_eq_zero htake with ⟨m, hm⟩
        have hdrop : (remaining.drop chunkSize).length = 8 * (n - m) := by
          rw [List.length_take] at hm
          rw [List.length_drop]
          omega
        have hmle : m ≤ n := by
          rw [List.length_take] at hm
          omega
        have hmpos : 0 < (remaining.take chunkSize).length := List.length_pos_iff.mpr hempty
        have hsplit := decryptWords_append m (n - m) (remaining.take chunkSize)
          (remaining.drop chunkSize) previousInput xorValue hm
        rw [List.take_append_drop, Nat.add_sub_cancel' hmle] at hsplit
        have hm8 : (remaining.take chunkSize).length / 8 = m := by omega
        have hn8 : remaining.length / 8 = n := by omega
        have hd8 : (remaining.drop chunkSize).length / 8 = n - m := by omega
        refine (Completes.raiseWhen (by omega) _ files).bind ?_
        refine (Completes.alter hold _).bind ?_
        rw [hn8, hsplit, hm8, Option.getD_some]
        have hrest := ih (remaining.drop chunkSize)
          (before ++ (decryptWords m (remaining.take chunkSize) previousInput xorValue).1)
          (decryptWords m (remaining.take chunkSize) previousInput xorValue).2.1
          (decryptWords m (remaining.take chunkSize) previousInput xorValue).2.2
          (written + (decryptWords m (remaining.take chunkSize) previousInput xorValue).1.length)
          (Function.update files temporary (some (before ++
            (decryptWords m (remaining.take chunkSize) previousInput xorValue).1)))
          (by omega) (by omega) (Function.update_self _ _ _)
        rw [hd8, Function.update_idem, length_decryptWords] at hrest
        rw [length_decryptWords]
        rw [show written + remaining.length
          = written + 8 * m + (remaining.drop chunkSize).length by omega, ← List.append_assoc]
        exact hrest

/-- Where nothing fails the temporary file holds the words of the input. -/
theorem writeTemporary_completes (r : Decryption) (files : String → Option Bytes)
    (hwords : r.content.length % 8 = 0) (hold : files r.temporary = some []) :
    Completes (writeTemporary r) files r.content.length
      (Function.update files r.temporary
        (some (decryptWords (r.content.length / 8) r.content 0 initialXor).1)) := by
  have hloop := decryptLoop_completes r.temporary (1024 * 1024 - 1024 * 1024 % 8)
    (r.content.length + 1) r.content [] 0 initialXor 0 files (by decide) (by decide) hwords
    (Nat.lt_succ_self _) hold
  rw [List.nil_append, Nat.zero_add] at hloop
  have hflush := Completes.flush (Function.update_self r.temporary
    (some (decryptWords (r.content.length / 8) r.content 0 initialXor).1) files)
  refine (Completes.consult files).bind (Completes.closing ?_ (Completes.consult _))
  refine (Completes.consult files).bind (Completes.closing ?_ hflush)
  refine Completes.bind ?_ (hflush.bind ((Completes.consult _).bind (Completes.pure _ _)))
  exact (Completes.raiseWhen (by decide) _ files).bind hloop

/-- Where nothing fails the padding is cut off. -/
theorem removePadding_completes (temporary : String) (files : String → Option Bytes)
    (payload filler : Bytes) (last : UInt8) (k : Nat) (hfiller : filler.length + 1 = k)
    (hlast : last.toNat % 16 = k)
    (hold : files temporary = some (payload ++ filler ++ [last])) :
    Completes (removePadding temporary (payload.length + k)) files payload.length
      (Function.update files temporary (some payload)) := by
  rw [removePadding, if_neg (by omega)]
  have hbyte : Completes (lastByte temporary) files last files := by
    intro clock
    refine ⟨clock, ?_⟩
    rw [lastByte]
    simp only [hold, Option.bind_some, List.getLast?_append, List.getLast?_singleton,
      Option.some_or]
  have hcut := Completes.alter hold fun content =>
    (content.getD []).take (payload.length + k - last.toNat % 16)
  rw [Option.getD_some, hlast, Nat.add_sub_cancel, List.append_assoc, List.take_left] at hcut
  have hflush := Completes.flush (Function.update_self temporary (some payload) files)
  refine (Completes.consult files).bind (Completes.closing ?_ (Completes.consult _))
  refine (Completes.consult files).bind (hbyte.bind ?_)
  simp only
  rw [hlast, if_neg (by omega), Nat.add_sub_cancel]
  refine (Completes.raiseWhen (by omega) _ files).bind (hcut.bind ?_)
  exact hflush.bind ((Completes.consult _).bind (Completes.pure _ _))

theorem temporary_ne (r : Decryption) : r.temporary ≠ r.name := by
  intro h
  have hlen := congrArg String.length h
  rw [Decryption.temporary] at hlen
  simp only [String.length_append, show ".".length = 1 by decide,
    show ".tmp".length = 4 by decide] at hlen
  omega

/-- A payload that was padded and encrypted comes back, and nothing else is
    there; a run that fails has changed nothing at all. -/
theorem decryptFile_correct (r : Decryption) :
    (∀ (payload filler : Bytes) (last : UInt8) (k : Nat), 1 ≤ k → k ≤ 8 →
      (payload.length + k) % 8 = 0 → filler.length = k - 1 → last.toNat % 16 = k →
      r.sameFile = false → r.content = encryptBytes (payload ++ filler ++ [last]) →
      r.size = r.content.length → ∀ files, files r.temporary = none →
      Completes (decryptFile r) files payload.length
        (Function.update files r.name (some payload))) ∧
    ∀ w e, (decryptFile r w).1 = .error e → (decryptFile r w).2.files = w.files := by
  refine ⟨?_, atomic_decryptFile r⟩
  intro payload filler last k hpos _ hwords hfiller hlast hother hcontent hsize files hnew
  have hplain : (payload ++ filler ++ [last]).length = payload.length + k := by
    simp only [List.length_append, List.length_singleton]
    omega
  have hlen : r.content.length = payload.length + k := by
    rw [hcontent, encryptBytes, length_encryptWords, hplain]
    omega
  have hback : (decryptWords (r.content.length / 8) r.content 0 initialXor).1
      = payload ++ filler ++ [last] := by
    rw [hlen, hcontent, encryptBytes, hplain]
    exact decryptWords_encryptWords _ _ 0 initialXor (by omega) (by decide) initialXor_lt
  have hwrite := writeTemporary_completes r (Function.update files r.temporary (some []))
    (by omega) (Function.update_self _ _ _)
  rw [hback, Function.update_idem, hlen] at hwrite
  have hcut := removePadding_completes r.temporary
    (Function.update files r.temporary (some (payload ++ filler ++ [last]))) payload filler last k
    (by omega) hlast (Function.update_self _ _ _)
  rw [Function.update_idem] at hcut
  -- The rename, and the temporary name free again.
  have hreplace : Completes (replaceDestination r)
      (Function.update files r.temporary (some payload)) ()
      (Function.update files r.name (some payload)) := by
    have h := Completes.operate (fun _ files => files) (fun files =>
      Function.update (Function.update files r.name (files r.temporary)) r.temporary none)
      (Function.update files r.temporary (some payload))
    have hsame : Function.update (Function.update (Function.update files r.temporary (some payload))
        r.name (some payload)) r.temporary none = Function.update files r.name (some payload) := by
      rw [Function.update_comm (temporary_ne r).symm, Function.update_idem, ← hnew,
        Function.update_eq_self]
    rw [Function.update_self, hsame] at h
    exact h
  refine (Completes.consult files).bind ((Completes.raiseWhen ?_ _ files).bind ?_)
  · rw [hother]
    decide
  · refine (Completes.consult files).bind ((Completes.raiseWhen (by omega) _ files).bind ?_)
    refine (Completes.consult files).bind ((Completes.mkstemp hnew).bind ?_)
    exact (hwrite.bind (hcut.bind (hreplace.bind
      (Completes.pure payload.length (Function.update files r.name (some payload)))))).cleaning

/-- A payload of two bytes with six bytes of padding, and a source that is not
    made of words. -/
theorem decryptFile_correct_words :
    Completes (decryptFile ⟨false, 8, encryptBytes [0x1f, 0x8b, 0, 0, 0, 0, 0, 6], "image", "a"⟩)
        (fun _ => none) 2 (Function.update (fun _ => none) "image" (some [0x1f, 0x8b])) ∧
      (decryptFile ⟨false, 3, [1, 2, 3], "image", "a"⟩
        ⟨Function.update (fun _ => none) "image" (some [7]), 0, fun _ => none⟩).2.files
        = Function.update (fun _ => none) "image" (some [7]) :=
  ⟨(decryptFile_correct ⟨false, 8, encryptBytes [0x1f, 0x8b, 0, 0, 0, 0, 0, 6], "image", "a"⟩).1
      [0x1f, 0x8b] [0, 0, 0, 0, 0] 6 6 (by decide) (by decide) (by decide) (by decide) (by decide)
      rfl rfl (by decide) _ rfl,
    (decryptFile_correct ⟨false, 3, [1, 2, 3], "image", "a"⟩).2 _
      (.valueError "TAC input length is not a multiple of eight bytes") (by decide)⟩

end Zd1200
