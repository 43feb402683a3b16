import Zd1200.Export.Day

/-!
# Where the Parts of a Day File Lie

The offsets that the exporter computes are those at which it writes.

The layout is computed before anything is written, and padding is all that
connects the two. `offset_of_part` lists, for each part, the total length of
the parts before it. It is the only place where the sixteen parts are added
up; a read of the file is afterwards a read of one part.

## Main definitions

* `partOffset`: The total length of the parts before one.

## Theorems

* `length_dayParts`: The lengths of the parts.
* `offset_of_part`: The offsets of the layout are those of the parts.
* `readLe_header`: A field of the header.
-/

namespace Zd1200

theorem le_align4 (n : Nat) : n ≤ align4 n := by
  unfold align4
  omega

/-- Where part `k` begins. -/
def partOffset (db : Db) (start k : Nat) : Nat := ((dayParts db start).take k).flatten.length

/-- The layout of a day. -/
def dayLayout (db : Db) (start : Nat) : Layout :=
  layoutOf (loadRounds db start).length (loadTargets db start).length
    (loadApTargets db start).length

theorem length_fillRow (rounds : List Nat) (values : List (Nat × UInt8)) :
    (fillRow rounds values).length = rounds.length := by
  rw [fillRow, length_writeAll, List.length_replicate]

theorem mac_of_mem_selectTargets (rows : List TargetRow) (column : TargetRow → Option Bytes)
    (e : ExportTarget) (h : e ∈ selectTargets rows column) : e.mac.length = 6 := by
  rcases List.mem_filterMap.mp h with ⟨t, -, ht⟩
  rw [targetAppend, Option.map_eq_some_iff] at ht
  rcases ht with ⟨octets, hoctets, rfl⟩
  rcases Option.bind_eq_some_iff.mp hoctets with ⟨text, -, hparse⟩
  exact length_parseMac text octets hparse

theorem length_macs (rows : List TargetRow) (column : TargetRow → Option Bytes) :
    ((selectTargets rows column).flatMap ExportTarget.mac).length
      = (selectTargets rows column).length * 6 :=
  length_flatMap_row _ _ 6 (mac_of_mem_selectTargets rows column)

theorem length_resultMatrix (db : Db) (start : Nat) (rounds : List Nat)
    (byte : PingRow → Option UInt8) (targets : List ExportTarget) :
    (targets.flatMap (resultRowBytes db start rounds byte)).length
      = targets.length * rounds.length :=
  length_flatMap_row _ _ _ fun _ _ => length_fillRow _ _

theorem length_airMatrix (db : Db) (start : Nat) (rounds : List Nat) (fiveGhz : Bool)
    (aps : List ExportTarget) :
    (aps.flatMap (airRowBytes db start rounds fiveGhz)).length = aps.length * rounds.length :=
  length_flatMap_row _ _ _ fun _ _ => length_fillRow _ _

theorem length_meshMatrix (db : Db) (start : Nat) (rounds : List Nat) (aps : List ExportTarget) :
    (aps.flatMap (meshRowBytes db start rounds)).length = aps.length * rounds.length :=
  length_flatMap_row _ _ _ fun _ _ => length_fillRow _ _

/-- The lengths of the parts. -/
theorem length_dayParts (db : Db) (start : Nat) :
    (dayParts db start).map List.length =
      [8, 76, 48, 508, 4 * (loadRounds db start).length, (loadTargets db start).length * 6,
       (dayLayout db start).samples - ((dayLayout db start).macs + (loadTargets db start).length * 6),
       (loadTargets db start).length * (loadRounds db start).length,
       (loadTargets db start).length * (loadRounds db start).length,
       (loadTargets db start).length * (loadRounds db start).length,
       (dayLayout db start).apMacs - ((dayLayout db start).state +
         (loadTargets db start).length * (loadRounds db start).length),
       (loadApTargets db start).length * 6,
       (dayLayout db start).air24 - ((dayLayout db start).apMacs +
         (loadApTargets db start).length * 6),
       (loadApTargets db start).length * (loadRounds db start).length,
       (loadApTargets db start).length * (loadRounds db start).length,
       (loadApTargets db start).length * (loadRounds db start).length] := by
  have htargets : ((loadTargets db start).flatMap ExportTarget.mac).length
      = (loadTargets db start).length * 6 := length_macs _ _
  have haps : ((loadApTargets db start).flatMap ExportTarget.mac).length
      = (loadApTargets db start).length * 6 := length_macs _ _
  have hcodes : (encodeNumbers 2 codebook).length = 508 := by
    rw [length_encodeNumbers, length_codebook]
    rfl
  have hmagic : magic.length = 8 := rfl
  have hfields : ∀ rounds targets aps l,
      fieldsWidth (headerFields start rounds targets aps l) = 76 := fun _ _ _ _ => by
    simp only [fieldsWidth, headerFields, List.map_cons, List.map_nil, List.sum_cons,
      List.sum_nil, Nat.reduceAdd]
  simp only [dayParts, List.map_cons, List.map_nil, length_encodeFields, length_encodeNumbers 4,
    hmagic, hfields, hcodes, htargets, haps, length_resultMatrix, length_airMatrix,
    length_meshMatrix, padding, List.length_replicate, dayLayout]

theorem partOffset_eq (db : Db) (start k : Nat) :
    partOffset db start k = (((dayParts db start).map List.length).take k).sum := by
  rw [partOffset, List.length_flatten, List.map_take]

/-- The offsets of the layout are those of the parts. -/
theorem offset_of_part (db : Db) (start : Nat) :
    partOffset db start 1 = 8 ∧ partOffset db start 3 = 132 ∧
      partOffset db start 4 = headerSize ∧ partOffset db start 5 = (dayLayout db start).macs ∧
      partOffset db start 7 = (dayLayout db start).samples ∧
      partOffset db start 8 = (dayLayout db start).snr ∧
      partOffset db start 9 = (dayLayout db start).state ∧
      partOffset db start 11 = (dayLayout db start).apMacs ∧
      partOffset db start 13 = (dayLayout db start).air24 ∧
      partOffset db start 14 = (dayLayout db start).air5 ∧
      partOffset db start 15 = (dayLayout db start).meshSnr ∧
      partOffset db start 16 = (dayLayout db start).fileEnd := by
  have halign : ∀ n, n ≤ align4 n := le_align4
  simp only [partOffset_eq, length_dayParts, List.take_succ_cons, List.take_zero, List.sum_cons,
    List.sum_nil, dayLayout, layoutOf, headerSize]
  -- Products are opaque from here on, so that the rest is linear.
  generalize (loadTargets db start).length = targets
  generalize (loadRounds db start).length = rounds
  generalize (loadApTargets db start).length = aps
  have h₁ := halign (640 + rounds * 4 + targets * 6)
  generalize align4 (640 + rounds * 4 + targets * 6) = samples at h₁ ⊢
  generalize targets * rounds = matrix
  have h₂ := halign (samples + matrix + matrix + matrix)
  generalize align4 (samples + matrix + matrix + matrix) = apMacs at h₂ ⊢
  have h₃ := halign (apMacs + aps * 6)
  generalize align4 (apMacs + aps * 6) = air24 at h₃ ⊢
  generalize aps * rounds = apMatrix
  omega

/-- An export writes the file of the day or nothing. -/
theorem exportDay_eq (db : Db) (start : Nat) :
    exportDay db start =
      if (dayLayout db start).tooBig then { exit := 1, output := [] }
      else { exit := 0, output := dayBytes db start } := rfl

theorem exportDay_exit_zero (db : Db) (start : Nat) (h : (exportDay db start).exit = 0) :
    (dayLayout db start).tooBig = false ∧ (exportDay db start).output = dayBytes db start := by
  rw [exportDay_eq] at h ⊢
  cases hbig : (dayLayout db start).tooBig with
  | true =>
      rw [hbig, if_pos rfl] at h
      exact absurd h (by decide)
  | false => exact ⟨rfl, rfl⟩

/-! ### Reading the header -/

/-- The widths of the header's fields. -/
def headerWidths : List Nat := [2, 2, 4, 4, 4, 4, 4, 2, 2, 4, 4, 4, 4, 4, 4, 4, 4, 4, 4, 4, 4]

/-- The header fields of a day. -/
def dayHeader (db : Db) (start : Nat) : List (Nat × Nat) :=
  headerFields start (loadRounds db start) (loadTargets db start).length
    (loadApTargets db start).length (dayLayout db start)

/-- A field of the header. -/
theorem readLe_header (db : Db) (start k width value offset : Nat)
    (hk : (dayHeader db start)[k]? = some (width, value))
    (hoffset : 8 + (headerWidths.take k).sum = offset) (hfits : value < 256 ^ width) :
    readLe (dayBytes db start) offset width = some value := by
  have hwidth : fieldsWidth ((dayHeader db start).take k) = (headerWidths.take k).sum := by
    rw [fieldsWidth, List.map_take]
    rfl
  have hread := readLe_encodeFields (dayHeader db start) k width value hk hfits
  -- A field that is read back lies inside the header.
  have hinside : fieldsWidth ((dayHeader db start).take k) + width
      ≤ (encodeFields (dayHeader db start)).length := by
    by_contra hout
    rw [readLe, if_neg hout] at hread
    exact absurd hread (by simp only [reduceCtorEq, not_false_eq_true])
  have hpart := readLe_flatten (dayParts db start) 1 (encodeFields (dayHeader db start)) rfl _ _
    hinside
  -- The magic stands in front of the header.
  have h8 : ((dayParts db start).take 1).flatten.length = 8 := (offset_of_part db start).1
  rw [hread, h8, hwidth, hoffset] at hpart
  exact hpart

end Zd1200
