import Mathlib.Data.Nat.Digits.Defs
import Zd1200.Lib.Frames
import Zd1200.Monitor.Text

/-!
# Bundles of Captures

The bundle of a completed day: a magic line and one framed record for each
capture, as `snapshot-index-publish.sh` writes it and `snapshotBundle` of
`ping-monitor.html` reads it. The line of a record is the time, the type and
the size, with blanks between.

The page's numbers are doubles. All of them here are times and sizes, which
doubles represent exactly, so they are natural numbers. `Number` also takes
spellings that the script does not write; of these only the empty one is
modelled.

## Main definitions

* `CaptureKind`: The three views that are captured.
* `bundle`: The script's bundle of some captures.
* `snapshotBundle`: The page's reader.

## Theorems

* `decimal_decimalText`: Numbers are read back.
* `snapshotBundle_bundle`: Bundles are read back.
-/

namespace Zd1200

/-- The type of a capture. -/
inductive CaptureKind
  | ap
  | client
  | mesh
  deriving DecidableEq, Repr

namespace CaptureKind

/-- `for kind in ap client mesh`. -/
def all : List CaptureKind := [ap, client, mesh]

theorem mem_all (kind : CaptureKind) : kind ∈ all := by cases kind <;> decide

/-- The type in a file name and in a record. -/
def text : CaptureKind → Bytes
  | ap => [97, 112]
  | client => [99, 108, 105, 101, 110, 116]
  | mesh => [109, 101, 115, 104]

/-- `['ap','client','mesh'].includes(type)`. -/
def ofText (bytes : Bytes) : Option CaptureKind := all.find? fun kind => kind.text = bytes

theorem ofText_text (kind : CaptureKind) : ofText kind.text = some kind := by
  cases kind <;> decide

end CaptureKind

/-- A capture is named by its time and its type. -/
abbrev CaptureName := Nat × CaptureKind

/-! ### Numbers in a line -/

/-- A number in decimal. -/
def decimalText (n : Nat) : Bytes :=
  if n = 0 then [48] else ((Nat.digits 10 n).map fun d => UInt8.ofNat (48 + d)).reverse

/-- `Number` on digits. -/
def number (text : Bytes) : Option Nat := if text.all isDigit then some (decimal text) else none

theorem toNat_digit (d : Nat) (h : d < 10) : (UInt8.ofNat (48 + d)).toNat = 48 + d :=
  UInt8.toNat_ofNat_of_lt' (by rw [UInt8.size]; omega)

theorem isDigit_digit (d : Nat) (h : d < 10) : isDigit (UInt8.ofNat (48 + d)) = true := by
  have hlow : (48 : UInt8) ≤ UInt8.ofNat (48 + d) := by
    rw [UInt8.le_iff_toNat_le, toNat_digit d h]
    exact Nat.le_add_right 48 d
  have hhigh : UInt8.ofNat (48 + d) ≤ 57 := by
    rw [UInt8.le_iff_toNat_le, toNat_digit d h]
    exact (by omega : 48 + d ≤ 57)
  exact decide_eq_true ⟨hlow, hhigh⟩

theorem isDigit_decimalText (n : Nat) : ∀ c ∈ decimalText n, isDigit c = true := by
  intro c hc
  unfold decimalText at hc
  split at hc
  · rw [List.mem_singleton.mp hc]
    decide
  · rcases List.mem_map.mp (List.mem_reverse.mp hc) with ⟨d, hd, rfl⟩
    exact isDigit_digit d (Nat.digits_lt_base (by decide) hd)

/-- Digits, the last one first, are those of their number in base 10. -/
theorem decimal_digits (digits : List Nat) (h : ∀ d ∈ digits, d < 10) :
    decimal (digits.map fun d => UInt8.ofNat (48 + d)).reverse = Nat.ofDigits 10 digits := by
  rw [decimal, List.foldl_reverse, List.foldr_map]
  induction digits with
  | nil => rfl
  | cons d rest ih =>
      rw [List.foldr_cons, ih fun e he => h e (List.mem_cons_of_mem _ he),
        toNat_digit d (h d List.mem_cons_self), Nat.ofDigits_cons, Nat.add_sub_cancel_left,
        Nat.add_comm]

/-- Numbers are read back. -/
theorem decimal_decimalText (n : Nat) : decimal (decimalText n) = n := by
  unfold decimalText
  split
  · next hzero => rw [hzero]; rfl
  · rw [decimal_digits _ fun d hd => Nat.digits_lt_base (by decide) hd, Nat.ofDigits_digits]

theorem number_decimalText (n : Nat) : number (decimalText n) = some n := by
  rw [number, if_pos (List.all_eq_true.mpr (isDigit_decimalText n)), decimal_decimalText]

/-- A number has neither blanks nor line feeds. -/
theorem ne_of_mem_decimalText (n : Nat) (c : UInt8) (hc : c ∈ decimalText n) :
    c ≠ 32 ∧ c ≠ 10 := by
  have hdigit := isDigit_decimalText n c hc
  exact ⟨fun h => absurd (h ▸ hdigit) (by decide), fun h => absurd (h ▸ hdigit) (by decide)⟩

theorem ne_of_mem_text (kind : CaptureKind) (c : UInt8) (hc : c ∈ kind.text) : c ≠ 32 ∧ c ≠ 10 := by
  have hall : ∀ c ∈ kind.text, c ≠ 32 ∧ c ≠ 10 := by cases kind <;> simp [CaptureKind.text]
  exact hall c hc

/-! ### Records -/

/-- `printf '%s %s %s\n'` without the line feed. -/
def captureLine (name : CaptureName) (size : Nat) : Bytes :=
  decimalText name.1 ++ 32 :: (name.2.text ++ 32 :: decimalText size)

/-- The three parts of a line. -/
def readCaptureLine (bytes : Bytes) : Option (CaptureName × Nat) :=
  match bytes.splitOn 32 with
  | [time, type, size] =>
      (number time).bind fun time =>
        (CaptureKind.ofText type).bind fun kind => (number size).map fun size => ((time, kind), size)
  | _ => none

/-- The parts of a line that was written. -/
theorem splitOn_captureLine (name : CaptureName) (size : Nat) :
    (captureLine name size).splitOn 32 =
      [decimalText name.1, name.2.text, decimalText size] := by
  rw [captureLine, List.splitOn_append_cons_self_of_not_mem fun h =>
      (ne_of_mem_decimalText _ 32 h).1 rfl,
    List.splitOn_append_cons_self_of_not_mem fun h => (ne_of_mem_text _ 32 h).1 rfl,
    List.splitOn_eq_singleton fun h => (ne_of_mem_decimalText _ 32 h).1 rfl]

theorem readCaptureLine_captureLine (name : CaptureName) (size : Nat) :
    readCaptureLine (captureLine name size) = some (name, size) := by
  unfold readCaptureLine
  rw [splitOn_captureLine]
  simp only [number_decimalText, CaptureKind.ofText_text, Option.bind_some, Option.map_some]

/-- The parts of a line that is read. -/
theorem readCaptureLine_eq_some (bytes : Bytes) (name : CaptureName) (size : Nat)
    (h : readCaptureLine bytes = some (name, size)) :
    ∃ time type digits, bytes.splitOn 32 = [time, type, digits] ∧ number time = some name.1 ∧
      CaptureKind.ofText type = some name.2 ∧ number digits = some size := by
  unfold readCaptureLine at h
  split at h
  · next time type digits heq =>
    rcases Option.bind_eq_some_iff.mp h with ⟨t, ht, h⟩
    rcases Option.bind_eq_some_iff.mp h with ⟨kind, hkind, h⟩
    rcases Option.map_eq_some_iff.mp h with ⟨n, hn, heqn⟩
    rcases Prod.mk.inj heqn with ⟨rfl, rfl⟩
    exact ⟨time, type, digits, heq, ht, hkind, hn⟩
  · exact absurd h (by simp only [reduceCtorEq, not_false_eq_true])

/-- The format of a record's line. -/
def captureFormat : HeaderLine CaptureName where
  write := captureLine
  read := readCaptureLine
  read_write := readCaptureLine_captureLine
  one_line := by
    intro name size c hc
    rcases List.mem_append.mp hc with htime | hc
    · exact (ne_of_mem_decimalText _ c htime).2
    · rcases List.mem_cons.mp hc with rfl | hc
      · decide
      · rcases List.mem_append.mp hc with hkind | hc
        · exact (ne_of_mem_text _ c hkind).2
        · rcases List.mem_cons.mp hc with rfl | hsize
          · decide
          · exact (ne_of_mem_decimalText _ c hsize).2

/-- `ZDSNAPSHOT1` and a line feed. -/
def bundleMagic : Bytes := [90, 68, 83, 78, 65, 80, 83, 72, 79, 84, 49, 10]

/-- The bundle of some captures. -/
def bundle (records : List (CaptureName × Bytes)) : Bytes :=
  bundleMagic ++ records.flatMap (frame captureFormat)

/-- The records that the page reads from a bundle, if it accepts it. -/
def snapshotBundle (bytes : Bytes) : Option (List (CaptureName × Bytes)) :=
  if bytes.take 12 = bundleMagic then readFrames captureFormat bytes.length (bytes.drop 12)
  else none

/-- Bundles are read back. -/
theorem snapshotBundle_bundle (records : List (CaptureName × Bytes)) :
    snapshotBundle (bundle records) = some records := by
  have hlength : bundleMagic.length = 12 := rfl
  rw [snapshotBundle, bundle, ← hlength, List.take_left, List.drop_left, if_pos rfl]
  refine readFrames_frames captureFormat records _ ?_
  rw [List.length_append]
  exact Nat.le_trans (length_le_frames captureFormat records) (Nat.le_add_left _ _)

end Zd1200
