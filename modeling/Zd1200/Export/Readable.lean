import Mathlib.Data.List.Pairwise
import Zd1200.Export.Layout
import Zd1200.Export.ParseDay
import Zd1200.Monitor.Tick

/-!
# Which Day Files Can Be Read

The exporter and the reader agree on everything but two points.

The exporter computes the end of the day in 32 bits, the reader expects it
86400 seconds behind the start: they differ on the last day that has a start.
And the exporter writes a MAC for each target, the reader refuses two equal
ones. The database keeps stored texts apart by their bytes, and it keeps
access points and clients apart, so two targets can have texts of one MAC.
The order of the texts in the file is never the reason for a refusal: the
database sorts ignoring case, and the canonical texts are in lower case.

## Main definitions

* `readDay`: What the reader makes of the file of a day.
* `HasMac`: A target has a result in the day and is read as a MAC.

## Theorems

* `parseDay_dayBytes_iff`: When the reader accepts a file, and with what.
* `macs_accepted_iff`: The MACs of a query are accepted if no two are equal.
* `exportDay_readable_iff`: When an exported day can be read.
-/

namespace Zd1200

/-- What the reader makes of the file of a day. -/
def readDay (db : Db) (start : Nat) : Day where
  version := 2
  bytes := dayBytes db start
  codebook := codebook
  start := start
  stop := dayEnd start
  generation := (loadRounds db start).getLastD start
  roundCount := (loadRounds db start).length
  targetCount := (loadTargets db start).length
  timestamps := loadRounds db start
  macs := (loadTargets db start).map ExportTarget.macText
  samplesOffset := (dayLayout db start).samples
  snrOffset := (dayLayout db start).snr
  stateOffset := (dayLayout db start).state
  apCount := (loadApTargets db start).length
  apMacs := (loadApTargets db start).map ExportTarget.macText
  air24Offset := (dayLayout db start).air24
  air5Offset := (dayLayout db start).air5
  meshSnrOffset := (dayLayout db start).meshSnr

/-! ### Reads -/

theorem inDay_of_mem_loadRounds (db : Db) (start t : Nat) (h : t ∈ loadRounds db start) :
    InDay start t :=
  ((mem_loadRounds db start t).mp h).2

theorem lt_of_inDay (start t : Nat) (h : InDay start t) : t < 2 ^ 32 := by
  have : dayEnd start < 2 ^ 32 := Nat.mod_lt _ (by decide)
  exact h.2.trans this

theorem length_dayBytes (db : Db) (start : Nat) :
    (dayBytes db start).length = (dayLayout db start).fileEnd := by
  rcases offset_of_part db start with ⟨-, -, -, -, -, -, -, -, -, -, -, hend⟩
  exact hend

/-- A number of one of the parts that hold numbers. -/
theorem getUint_numbers (db : Db) (start k width : Nat) (values : List Nat)
    (hpart : (dayParts db start)[k]? = some (encodeNumbers width values))
    (i value : Nat) (hi : values[i]? = some value) (hfits : value < 256 ^ width) :
    getUint (dayBytes db start) (partOffset db start k + i * width) width = .ok value := by
  have hlt : i < values.length := (List.getElem?_eq_some_iff.mp hi).1
  have hinside : width * i + width ≤ (encodeNumbers width values).length := by
    rw [length_encodeNumbers, ← Nat.mul_succ]
    exact Nat.mul_le_mul_left width hlt
  have hread := readLe_flatten (dayParts db start) k _ hpart (width * i) width hinside
  rw [readLe_encodeNumbers width values i value hi hfits, Nat.mul_comm] at hread
  unfold getUint
  rw [dayBytes, partOffset, hread]

/-- A MAC of one of the parts that hold MACs. -/
theorem macAt_targets (db : Db) (start k : Nat) (targets : List ExportTarget)
    (hpart : (dayParts db start)[k]? = some (targets.flatMap ExportTarget.mac))
    (hsix : ∀ t ∈ targets, t.mac.length = 6) (i : Nat) (t : ExportTarget)
    (hi : targets[i]? = some t) :
    macAt (dayBytes db start) (partOffset db start k + i * 6) = .ok (macText t.mac) := by
  have hlt : i < targets.length := (List.getElem?_eq_some_iff.mp hi).1
  have hlen : (targets.flatMap ExportTarget.mac).length = targets.length * 6 :=
    length_flatMap_row _ _ 6 hsix
  have hread := take_drop_flatten (dayParts db start) k _ hpart (i * 6) 6 (by omega)
  -- The MAC lies inside its part, and the part inside the file.
  have hinside : partOffset db start k + i * 6 + 6 ≤ (dayBytes db start).length := by
    rw [dayBytes, flatten_around _ k _ hpart, List.length_append, List.length_append, partOffset]
    omega
  unfold macAt
  rw [if_pos hinside, dayBytes, partOffset, hread, take_drop_flatMap_row targets _ 6 hsix i t hi]

theorem macText_of_mem (rows : List TargetRow) (column : TargetRow → Option Bytes)
    (e : ExportTarget) (h : e ∈ selectTargets rows column) : e.macText = macText e.mac := by
  rcases List.mem_filterMap.mp h with ⟨t, -, ht⟩
  rw [targetAppend, Option.map_eq_some_iff] at ht
  rcases ht with ⟨octets, -, rfl⟩
  rfl

/-- A field of the header. -/
theorem getUint_header (db : Db) (start k width value offset : Nat)
    (hk : (dayHeader db start)[k]? = some (width, value))
    (hoffset : 8 + (headerWidths.take k).sum = offset) (hfits : value < 256 ^ width) :
    getUint (dayBytes db start) offset width = .ok value := by
  unfold getUint
  rw [readLe_header db start k width value offset hk hoffset hfits]

/-! ### The loops -/

/-- Ascending numbers in an interval are accepted. -/
theorem accepts_numbers (low high : Nat) (values : List Nat) (previous : Option Nat)
    (hasc : values.Pairwise (· < ·)) (hbounds : ∀ v ∈ values, low ≤ v ∧ v < high)
    (hprevious : ∀ p ∈ previous, ∀ v ∈ values, p < v) :
    Accepts (badNumber low high) previous values := by
  induction values generalizing previous with
  | nil => trivial
  | cons value rest ih =>
      rcases List.pairwise_cons.mp hasc with ⟨hfirst, hrest⟩
      rcases hbounds value List.mem_cons_self with ⟨hlow, hhigh⟩
      refine ⟨?_, ih (some value) hrest (fun v hv => hbounds v (List.mem_cons_of_mem _ hv)) ?_⟩
      · have hafter : previous.any (fun p => decide (value ≤ p)) = false := by
          cases previous with
          | none => rfl
          | some p =>
              have := hprevious p rfl value List.mem_cons_self
              rw [Option.any_some, decide_eq_false_iff_not]
              omega
        rw [badNumber, hafter, Bool.false_or, Bool.or_eq_false_iff, decide_eq_false_iff_not,
          decide_eq_false_iff_not]
        omega
      · intro p hp v hv
        rw [← Option.some.inj hp]
        exact hfirst v hv

/-- Texts that do not descend are accepted if no two are equal. -/
theorem accepts_texts_iff (values : List Bytes) (hsorted : values.Pairwise fun a b => textLe a b)
    (previous : Option Bytes) (hprevious : ∀ p ∈ previous, ∀ v ∈ values, textLe p v) :
    Accepts badMac previous values ↔ values.Nodup ∧ ∀ p ∈ previous, p ∉ values := by
  induction values generalizing previous with
  | nil => simp only [Accepts, List.nodup_nil, List.not_mem_nil, not_false_eq_true, implies_true,
      and_self]
  | cons value rest ih =>
      rcases List.pairwise_cons.mp hsorted with ⟨hfirst, hrest⟩
      -- Behind a text that is not greater, an entry is refused only if it is equal.
      have hbad : badMac previous value = false ↔ ∀ p ∈ previous, p ≠ value := by
        cases previous with
        | none => simp only [badMac, Option.any_none, Option.mem_def, reduceCtorEq, false_implies,
            implies_true]
        | some p =>
            have hle := hprevious p rfl value List.mem_cons_self
            simp only [badMac, Option.any_some, Option.mem_def, Option.some.injEq, forall_eq']
            constructor
            · rintro hnot rfl
              exact absurd hle (by rw [hnot]; decide)
            · intro hne
              by_contra htrue
              rw [Bool.not_eq_false] at htrue
              exact hne (Std.LawfulEqOrd.compare_eq_iff_eq.mp
                (Std.OrientedCmp.isLE_antisymm hle htrue))
      have htail := ih hrest (some value) (by
        intro p hp v hv
        rw [← Option.some.inj hp]
        exact hfirst v hv)
      simp only [Accepts, hbad, htail, Option.mem_def, Option.some.injEq, forall_eq',
        List.nodup_cons, List.mem_cons, not_or]
      constructor
      · rintro ⟨hne, hnodup, hnot⟩
        refine ⟨⟨hnot, hnodup⟩, fun p hp => ⟨hne p hp, fun hmem => ?_⟩⟩
        -- What is before `value` and behind it equals it.
        have hle := hprevious p hp value List.mem_cons_self
        exact hne p hp (Std.LawfulEqOrd.compare_eq_iff_eq.mp
          (Std.OrientedCmp.isLE_antisymm hle (hfirst p hmem)))
      · rintro ⟨⟨hnot, hnodup⟩, hall⟩
        exact ⟨fun p hp => (hall p hp).1, hnodup, hnot⟩

/-! ### The reader on an exported day -/

/-- Offsets that fit are offsets below `2^32`. -/
theorem fits_of_not_tooBig (l : Layout) (h : l.tooBig = false) :
    l.macs < 2 ^ 32 ∧ l.samples < 2 ^ 32 ∧ l.snr < 2 ^ 32 ∧ l.state < 2 ^ 32 ∧ l.apMacs < 2 ^ 32 ∧
      l.air24 < 2 ^ 32 ∧ l.air5 < 2 ^ 32 ∧ l.meshSnr < 2 ^ 32 ∧ l.fileEnd < 2 ^ 32 := by
  simp only [Layout.tooBig, List.any_cons, List.any_nil, Bool.or_false, Bool.or_eq_false_iff,
    decide_eq_false_iff_not, Nat.not_lt] at h
  unfold maxUInt32 at h
  omega

theorem take_dayBytes (db : Db) (start : Nat) : (dayBytes db start).take 8 = magicBytes := by
  rw [dayBytes, dayParts, List.flatten_cons, List.take_append_of_le_length (by decide)]
  rfl

theorem headerSize_le_fileEnd (db : Db) (start : Nat) :
    headerSize ≤ (dayLayout db start).fileEnd := by
  have h₁ := le_align4 ((dayLayout db start).macs + (loadTargets db start).length * 6)
  have h₂ := le_align4 ((dayLayout db start).state +
    (loadTargets db start).length * (loadRounds db start).length)
  have h₃ := le_align4 ((dayLayout db start).apMacs + (loadApTargets db start).length * 6)
  -- Aligning an offset does not lower it.
  simp only [dayLayout, layoutOf] at h₁ h₂ h₃ ⊢
  omega

/-- The counts and products that the offsets of a day contain. -/
theorem counts_of_fits (db : Db) (start : Nat) (h : (dayLayout db start).tooBig = false) :
    (loadRounds db start).length < 2 ^ 30 ∧ (loadTargets db start).length < 2 ^ 30 ∧
      (loadApTargets db start).length < 2 ^ 30 ∧
      (loadTargets db start).length * (loadRounds db start).length < 2 ^ 32 ∧
      (loadApTargets db start).length * (loadRounds db start).length < 2 ^ 32 := by
  have hfits := fits_of_not_tooBig _ h
  simp only [dayLayout, layoutOf, headerSize] at hfits
  have h₁ := le_align4 (640 + (loadRounds db start).length * 4 + (loadTargets db start).length * 6)
  have h₂ := le_align4 (align4 (640 + (loadRounds db start).length * 4 +
    (loadTargets db start).length * 6) + (loadTargets db start).length *
      (loadRounds db start).length + (loadTargets db start).length * (loadRounds db start).length +
      (loadTargets db start).length * (loadRounds db start).length)
  -- The products are atoms to the arithmetic that follows.
  generalize (loadTargets db start).length * (loadRounds db start).length = matrix at *
  generalize (loadApTargets db start).length * (loadRounds db start).length = apMatrix at *
  have h₃ := le_align4 (align4 (align4 (640 + (loadRounds db start).length * 4 +
    (loadTargets db start).length * 6) + matrix + matrix + matrix) +
      (loadApTargets db start).length * 6)
  omega

/-- The last round of a day, or its start. -/
theorem generation_lt (db : Db) (start : Nat) (hstart : start ≤ maxUInt32) :
    (loadRounds db start).getLastD start < 2 ^ 32 := by
  rw [List.getLastD_eq_getLast?]
  cases hlast : (loadRounds db start).getLast? with
  | none => exact Nat.lt_succ_of_le hstart
  | some t =>
      exact lt_of_inDay start t (inDay_of_mem_loadRounds db start t (List.mem_of_getLast? hlast))

/-- The MAC at a position of the list of targets or of access points. -/
theorem macs_read (db : Db) (start k : Nat) (rows : List TargetRow)
    (column : TargetRow → Option Bytes)
    (hpart : (dayParts db start)[k]? =
      some ((selectTargets rows column).flatMap ExportTarget.mac)) (i : Nat) (text : Bytes)
    (hi : ((selectTargets rows column).map ExportTarget.macText)[i]? = some text) :
    macAt (dayBytes db start) (partOffset db start k + (0 + i) * 6) = .ok text := by
  rw [List.getElem?_map, Option.map_eq_some_iff] at hi
  rcases hi with ⟨t, ht, rfl⟩
  rw [Nat.zero_add, macAt_targets db start k _ hpart (mac_of_mem_selectTargets rows column) i t ht,
    macText_of_mem rows column t (List.mem_of_getElem? ht)]

/-- The loop over the codebook. -/
theorem codebook_read (db : Db) (start : Nat) (result : List Nat) :
    readAscending (fun i => getUint (dayBytes db start) (132 + i * 2) 2) (badNumber 1 2001)
        "Invalid Performance History latency codebook." 254 0 none = .ok result ↔
      result = codebook := by
  rcases offset_of_part db start with ⟨-, h132, -⟩
  have hread : ∀ k value, codebook[k]? = some value →
      getUint (dayBytes db start) (132 + (0 + k) * 2) 2 = .ok value := by
    intro k value hk
    have hbound := (codebook_bound value (List.mem_of_getElem? hk)).2
    rw [Nat.zero_add, ← h132]
    exact getUint_numbers db start 3 2 codebook rfl k value hk (by omega)
  -- The codebook itself is ascending and within its bounds.
  have hacc : Accepts (badNumber 1 2001) none codebook :=
    accepts_numbers 1 2001 codebook none codebook_ascending
      (fun v hv => ⟨(codebook_bound v hv).1, Nat.lt_succ_of_le (codebook_bound v hv).2⟩)
      fun p hp => absurd hp (by simp only [Option.mem_def, reduceCtorEq, not_false_eq_true])
  rw [show 254 = codebook.length from length_codebook.symm]
  exact (readAscending_ok_iff _ _ _ _ 0 none hread result).trans (and_iff_left hacc)

/-- The loop over the rounds. -/
theorem timestamps_read (db : Db) (start : Nat) (result : List Nat) :
    readAscending (fun i => getUint (dayBytes db start) (640 + i * 4) 4)
        (badNumber start (dayEnd start)) "Invalid Performance History round timestamps."
        (loadRounds db start).length 0 none = .ok result ↔
      result = loadRounds db start := by
  rcases offset_of_part db start with ⟨-, -, h640, -⟩
  have hread : ∀ k value, (loadRounds db start)[k]? = some value →
      getUint (dayBytes db start) (640 + (0 + k) * 4) 4 = .ok value := by
    intro k value hk
    have hday := inDay_of_mem_loadRounds db start value (List.mem_of_getElem? hk)
    rw [Nat.zero_add, ← show headerSize = 640 from rfl, ← h640]
    exact getUint_numbers db start 4 4 (loadRounds db start) rfl k value hk
      (lt_of_inDay start value hday)
  -- So are the rounds.
  have hacc : Accepts (badNumber start (dayEnd start)) none (loadRounds db start) :=
    accepts_numbers _ _ _ none (loadRounds_ascending db start)
      (inDay_of_mem_loadRounds db start)
      fun p hp => absurd hp (by simp only [Option.mem_def, reduceCtorEq, not_false_eq_true])
  exact (readAscending_ok_iff _ _ _ _ 0 none hread result).trans (and_iff_left hacc)

/-- The loop over the MACs of the targets. -/
theorem targets_read (db : Db) (start : Nat) (result : List Bytes) :
    readAscending (fun i => macAt (dayBytes db start) ((dayLayout db start).macs + i * 6)) badMac
        "Invalid Performance History target order." (loadTargets db start).length 0 none
        = .ok result ↔
      result = (loadTargets db start).map ExportTarget.macText ∧
        Accepts badMac none ((loadTargets db start).map ExportTarget.macText) := by
  rcases offset_of_part db start with ⟨-, -, -, hmacs, -⟩
  rw [← hmacs, ← List.length_map ExportTarget.macText]
  exact readAscending_ok_iff _ _ _ _ 0 none (macs_read db start 5 _ _ rfl) result

/-- The loop over the MACs of the access points. -/
theorem aps_read (db : Db) (start : Nat) (result : List Bytes) :
    readAscending (fun i => macAt (dayBytes db start) ((dayLayout db start).apMacs + i * 6)) badMac
        "Invalid Performance History AP order." (loadApTargets db start).length 0 none
        = .ok result ↔
      result = (loadApTargets db start).map ExportTarget.macText ∧
        Accepts badMac none ((loadApTargets db start).map ExportTarget.macText) := by
  rcases offset_of_part db start with ⟨-, -, -, -, -, -, -, hmacs, -⟩
  rw [← hmacs, ← List.length_map ExportTarget.macText]
  exact readAscending_ok_iff _ _ _ _ 0 none (macs_read db start 11 _ _ rfl) result

/-- The offsets of the telemetry are those that the reader computes. -/
theorem readTelemetry_dayBytes (db : Db) (start : Nat)
    (hfits : (dayLayout db start).tooBig = false) :
    readTelemetry (dayBytes db start) 2 31 (loadRounds db start).length
        (dayLayout db start).samples
        (mulDouble (loadTargets db start).length (loadRounds db start).length) =
      .ok { snrOffset := (dayLayout db start).snr
            stateOffset := (dayLayout db start).state
            apCount := (loadApTargets db start).length
            apMacsOffset := (dayLayout db start).apMacs
            air24Offset := (dayLayout db start).air24
            air5Offset := (dayLayout db start).air5
            meshSnrOffset := (dayLayout db start).meshSnr
            fileEnd := (dayLayout db start).fileEnd } := by
  rcases fits_of_not_tooBig _ hfits with
    ⟨hmacs, hsamples, hsnr, hstate, hapMacs, hair24, hair5, hmesh, hend⟩
  rcases counts_of_fits db start hfits with ⟨hrounds, htargets, haps, hmatrix, hapMatrix⟩
  -- The fields behind the first 52 bytes.
  have h52 := getUint_header db start 13 4 (dayLayout db start).snr 52 rfl rfl hsnr
  have h56 := getUint_header db start 14 4 (dayLayout db start).state 56 rfl rfl hstate
  have h60 := getUint_header db start 15 4 (loadApTargets db start).length 60 rfl rfl (by omega)
  have h64 := getUint_header db start 16 4 (dayLayout db start).apMacs 64 rfl rfl hapMacs
  have h68 := getUint_header db start 17 4 (dayLayout db start).air24 68 rfl rfl hair24
  have h72 := getUint_header db start 18 4 (dayLayout db start).air5 72 rfl rfl hair5
  have h76 := getUint_header db start 19 4 (dayLayout db start).meshSnr 76 rfl rfl hmesh
  have h80 := getUint_header db start 20 4 (dayLayout db start).fileEnd 80 rfl rfl hend
  simp only [readTelemetry, ↓reduceIte, bind_ok_iff, raiseIf_ok_iff, pure_ok_iff, exists_const,
    h52, h56, h60, h64, h68, h72, h76, h80, Except.ok.injEq, exists_eq_left', and_true, not_or,
    Decidable.not_not, Nat.not_lt]
  -- Each sum is exact, because it is an offset or a length that fits.
  rw [mulDouble_of_lt _ _ (by omega), mulDouble_of_lt _ 6 (by omega),
    mulDouble_of_lt _ _ (by omega), addDouble_of_lt _ _ (by omega), addDouble_of_lt _ _ (by omega),
    addDouble_of_lt _ _ (by omega), addDouble_of_lt _ _ (by omega), addDouble_of_lt _ _ (by omega),
    addDouble_of_lt _ _ (by omega), addDouble_of_lt _ _ (by omega)]
  exact ⟨trivial, rfl, rfl, le_align4 _, le_align4 _, rfl, rfl, rfl⟩

/-- The reader accepts the file of a day exactly when the day has its length
    and the lists of MACs ascend, and returns what was exported. -/
theorem parseDay_dayBytes_iff (db : Db) (start : Nat) (hstart : start ≤ maxUInt32)
    (hfits : (dayLayout db start).tooBig = false) (day : Day) :
    parseDay (dayBytes db start) = .ok day ↔
      dayEnd start = start + 86400 ∧ day = readDay db start ∧
        Accepts badMac none ((loadTargets db start).map ExportTarget.macText) ∧
        Accepts badMac none ((loadApTargets db start).map ExportTarget.macText) := by
  rcases fits_of_not_tooBig _ hfits with ⟨hmacs, hsamples, -, -, -, -, -, -, hend⟩
  rcases counts_of_fits db start hfits with ⟨hrounds, htargets, haps, hmatrix, hapMatrix⟩
  have hstop : dayEnd start < 2 ^ 32 := Nat.mod_lt _ (by decide)
  -- The header, field by field.
  have h8 := getUint_header db start 0 2 2 8 rfl rfl (by decide)
  have h10 := getUint_header db start 1 2 640 10 rfl rfl (by decide)
  have h12 := getUint_header db start 2 4 31 12 rfl rfl (by decide)
  have h16 := getUint_header db start 3 4 start 16 rfl rfl (Nat.lt_succ_of_le hstart)
  have h20 := getUint_header db start 4 4 (dayEnd start) 20 rfl rfl hstop
  have h24 := getUint_header db start 5 4 (loadRounds db start).length 24 rfl rfl (by omega)
  have h28 := getUint_header db start 6 4 (loadTargets db start).length 28 rfl rfl (by omega)
  have h32 := getUint_header db start 7 2 2000 32 rfl rfl (by decide)
  have h34 := getUint_header db start 8 2 254 34 rfl rfl (by decide)
  have h36 := getUint_header db start 9 4 640 36 rfl rfl (by decide)
  have h40 := getUint_header db start 10 4 (dayLayout db start).macs 40 rfl rfl hmacs
  have h44 := getUint_header db start 11 4 (dayLayout db start).samples 44 rfl rfl hsamples
  have h48 := getUint_header db start 12 4 ((loadRounds db start).getLastD start) 48 rfl rfl
    (generation_lt db start hstart)
  have htelemetry := readTelemetry_dayBytes db start hfits
  -- None of the checks in front of the lists fires.
  have hmagic : (dayBytes db start).length < 576 ∨ (dayBytes db start).take 8 ≠ magicBytes ↔
      False := by
    have h640 : headerSize ≤ (dayLayout db start).fileEnd := headerSize_le_fileEnd db start
    rw [length_dayBytes, take_dayBytes]
    unfold headerSize at h640
    simp only [ne_eq, not_true_eq_false, or_false, iff_false]
    omega
  have hoffsets : (dayLayout db start).macs ≠
        addDouble 640 (mulDouble (loadRounds db start).length 4) ∨
      (dayLayout db start).samples <
        addDouble (dayLayout db start).macs (mulDouble (loadTargets db start).length 6) ∨
      (dayLayout db start).fileEnd ≠ (dayBytes db start).length ↔ False := by
    rw [mulDouble_of_lt _ 4 (by omega), mulDouble_of_lt _ 6 (by omega),
      addDouble_of_lt _ _ (by omega), addDouble_of_lt _ _ (by omega), iff_false, not_or, not_or,
      Decidable.not_not, Nat.not_lt, Decidable.not_not]
    exact ⟨rfl, le_align4 _, (length_dayBytes db start).symm⟩
  simp only [parseDay, bind_ok_iff, raiseIf_ok_iff, pure_ok_iff, exists_const, h8, h10, h12, h16,
    h20, h24, h28, h32, h34, h36, h40, h44, h48, htelemetry, Except.ok.injEq, exists_eq_left',
    exists_eq_left, Nat.reduceEqDiff, Nat.reduceAdd, ↓reduceIte, codebook_read, timestamps_read,
    targets_read, aps_read, and_assoc, hmagic, hoffsets, ne_eq, not_true_eq_false, and_false,
    false_and, false_or, not_false_eq_true, true_and, Decidable.not_not]
  constructor
  · rintro ⟨hlength, htargetMacs, hapMacs, rfl⟩
    exact ⟨by omega, rfl, htargetMacs, hapMacs⟩
  · rintro ⟨hlength, rfl, htargetMacs, hapMacs⟩
    exact ⟨by omega, htargetMacs, hapMacs, rfl⟩

/-! ### The order of the MACs -/

instance : Std.TransCmp strcasecmp := inferInstanceAs (Std.TransCmp (compareOn lowercase))

instance : Std.Total NocaseLe where
  total a b := by
    cases a with
    | none => exact Or.inl trivial
    | some x =>
        cases b with
        | none => exact Or.inr trivial
        | some y =>
            change (strcasecmp x y).isLE = true ∨ (strcasecmp y x).isLE = true
            rw [← Std.OrientedCmp.isGE_iff_isLE]
            cases strcasecmp y x with
            | lt => exact Or.inr rfl
            | eq => exact Or.inr rfl
            | gt => exact Or.inl rfl

instance : IsTrans (Option Bytes) NocaseLe where
  trans a b c hab hbc := by
    rcases a with - | a
    · trivial
    · rcases b with - | b
      · exact hab.elim
      · rcases c with - | c
        · exact hbc.elim
        · exact Std.TransCmp.isLE_trans hab hbc

/-- What a target of the file is, in terms of its row. -/
theorem targetAppend_eq_some (t : TargetRow) (text : Option Bytes) (e : ExportTarget)
    (h : targetAppend t text = some e) :
    text.bind parseMac = some e.mac ∧ e.id = t.id ∧ e.macText = macText e.mac ∧
      ∃ stored, text = some stored ∧ e.macText = lowercase stored := by
  rw [targetAppend, Option.map_eq_some_iff] at h
  rcases h with ⟨octets, hoctets, rfl⟩
  rcases Option.bind_eq_some_iff.mp hoctets with ⟨stored, hstored, hparse⟩
  exact ⟨hoctets, rfl, rfl, stored, hstored, macText_parseMac stored octets hparse⟩

/-- The canonical texts of a query do not descend. -/
theorem texts_sorted (rows : List TargetRow) (column : TargetRow → Option Bytes) :
    ((selectTargets rows column).map ExportTarget.macText).Pairwise fun a b => textLe a b := by
  rw [List.pairwise_map, selectTargets, List.pairwise_filterMap]
  refine (List.pairwise_insertionSort (fun a b => NocaseLe (column a) (column b)) rows).imp ?_
  intro t u htu e he e' he'
  rcases targetAppend_eq_some t _ e he with ⟨-, -, -, x, hx, hex⟩
  rcases targetAppend_eq_some u _ e' he' with ⟨-, -, -, y, hy, hey⟩
  rw [hx, hy] at htu
  rw [hex, hey]
  exact htu

/-- The texts of a query are distinct if no two of its rows are read as one
    MAC. -/
theorem texts_nodup_iff (rows : List TargetRow) (hrows : rows.Nodup)
    (column : TargetRow → Option Bytes) :
    ((selectTargets rows column).map ExportTarget.macText).Nodup ↔
      ∀ t ∈ rows, ∀ u ∈ rows, ∀ mac, (column t).bind parseMac = some mac →
        (column u).bind parseMac = some mac → t = u := by
  let differ (t u : TargetRow) : Prop := ∀ mac, (column t).bind parseMac = some mac →
    (column u).bind parseMac = some mac → False
  -- Equal texts are equal MACs, so only the rows have to be compared.
  have hpair : ((selectTargets rows column).map ExportTarget.macText).Nodup ↔
      (rows.insertionSort fun a b => NocaseLe (column a) (column b)).Pairwise differ := by
    rw [List.Nodup, List.pairwise_map, selectTargets, List.pairwise_filterMap]
    refine List.Pairwise.iff fun t u => ⟨?_, ?_⟩
    · intro hne mac ht hu
      refine hne { id := t.id, mac := mac, macText := macText mac } ?_
        { id := u.id, mac := mac, macText := macText mac } ?_ rfl
      · rw [targetAppend, ht, Option.map_some]
      · rw [targetAppend, hu, Option.map_some]
    · intro hdiffer e he e' he' heq
      rcases targetAppend_eq_some t _ e he with ⟨hmac, -, htext, -⟩
      rcases targetAppend_eq_some u _ e' he' with ⟨hmac', -, htext', -⟩
      rw [htext, htext'] at heq
      exact hdiffer e.mac hmac (by rw [macText_injective _ _ heq]; exact hmac')
  have hsymm : Std.Symm differ := ⟨fun t u h mac hu ht => h mac ht hu⟩
  rw [hpair, List.Perm.pairwise_iff (fun h => hsymm.symm _ _ h) (List.perm_insertionSort _ rows)]
  constructor
  · intro hpairwise t ht u hu mac htm hum
    by_contra hne
    exact hpairwise.forall ht hu hne mac htm hum
  · intro hall
    exact hrows.pairwise_of_forall_ne fun t ht u hu hne mac htm hum =>
      hne (hall t ht u hu mac htm hum)

/-- The MACs of a query are accepted if no two of its rows are read as one. -/
theorem macs_accepted_iff (rows : List TargetRow) (hrows : rows.Nodup)
    (column : TargetRow → Option Bytes) :
    Accepts badMac none ((selectTargets rows column).map ExportTarget.macText) ↔
      ∀ t ∈ rows, ∀ u ∈ rows, ∀ mac, (column t).bind parseMac = some mac →
        (column u).bind parseMac = some mac → t = u := by
  rw [accepts_texts_iff _ (texts_sorted rows column) none
    fun p hp => absurd hp (by simp only [Option.mem_def, reduceCtorEq, not_false_eq_true])]
  simp only [Option.mem_def, reduceCtorEq, false_implies, implies_true, and_true]
  exact texts_nodup_iff rows hrows column

theorem TargetTable.nodup (table : TargetTable) : table.rows.Nodup := table.key.of_map

/-- A target has a result in the day and is read as a MAC. -/
structure HasMac (db : Db) (start : Nat) (t : TargetRow) (mac : Bytes) : Prop where
  stored : t ∈ db.target.rows
  result : HasResult db start t
  reads : (identity t).bind parseMac = some mac

theorem identity_ap (t : TargetRow) (hap : t.kind = .ap) : identity t = t.apId := by
  rw [identity, if_neg (by rw [hap]; decide)]

/-- The access points are among the targets, with the same MACs. -/
theorem macs_of_day_iff (db : Db) (start : Nat) :
    (Accepts badMac none ((loadTargets db start).map ExportTarget.macText) ∧
      Accepts badMac none ((loadApTargets db start).map ExportTarget.macText)) ↔
      ∀ t u mac, HasMac db start t mac → HasMac db start u mac → t = u := by
  have hnodup := db.target.nodup
  rw [loadTargets, loadApTargets, macs_accepted_iff _ (hnodup.filter _),
    macs_accepted_iff _ (hnodup.filter _)]
  simp only [List.mem_filter, decide_eq_true_eq]
  constructor
  · rintro ⟨hall, -⟩ t u mac ht hu
    exact hall t ⟨ht.stored, ht.result⟩ u ⟨hu.stored, hu.result⟩ mac ht.reads hu.reads
  · intro hall
    refine ⟨fun t ht u hu mac htm hum => hall t u mac ⟨ht.1, ht.2, htm⟩ ⟨hu.1, hu.2, hum⟩, ?_⟩
    rintro t ⟨htstored, htap, htresult⟩ u ⟨hustored, huap, huresult⟩ mac htm hum
    exact hall t u mac ⟨htstored, htresult, by rw [identity_ap t htap]; exact htm⟩
      ⟨hustored, huresult, by rw [identity_ap u huap]; exact hum⟩

/-- An exported day can be read exactly when it does not end behind `2^32` and
    no two of its targets are read as one MAC. -/
theorem exportDay_readable_iff (db : Db) (start : Nat) (hday : AcceptedDay start)
    (hexit : (exportDay db start).exit = 0) :
    (∃ day, parseDay (exportDay db start).output = .ok day) ↔
      start + 86400 < 2 ^ 32 ∧
        ∀ t u mac, HasMac db start t mac → HasMac db start u mac → t = u := by
  rcases exportDay_exit_zero db start hexit with ⟨hfits, houtput⟩
  have hend : dayEnd start = start + 86400 ↔ start + 86400 < 2 ^ 32 := by
    unfold dayEnd
    constructor
    · intro h
      rw [← h]
      exact Nat.mod_lt _ (by decide)
    · exact Nat.mod_eq_of_lt
  simp only [houtput, parseDay_dayBytes_iff db start hday.1 hfits, hend, macs_of_day_iff]
  exact ⟨fun ⟨_, hlength, _, hmacs⟩ => ⟨hlength, hmacs⟩,
    fun ⟨hlength, hmacs⟩ => ⟨_, hlength, rfl, hmacs⟩⟩

/-- A round on the second of January 1970 without files, in which no probe is
    answered. -/
def quietRound : TickEnv where
  apList := none
  clientXml := none
  apDetail := none
  now := 90000
  replies := fun _ => none
  fails := fun _ => false
  sort := insertionSortFn clientCompare

/-- One client is added by hand. -/
def phoneCommands : List Command :=
  [.addClient (ascii "AA:BB:CC:DD:EE:01") (ascii "10.0.0.9") (ascii "Phone") 86400 false,
   .tick quietRound]

/-- The same client is added twice, in capitals and in small letters. -/
def twinCommands : List Command :=
  .addClient (ascii "aa:bb:cc:dd:ee:01") (ascii "10.0.0.9") (ascii "Phone") 86400 false ::
    phoneCommands

theorem exportDay_readable_phone :
    ∃ day, parseDay (exportDay (phoneCommands.foldl runCommand emptyDb) 86400).output = .ok day := by
  refine (exportDay_readable_iff _ 86400 ⟨by decide, by decide⟩ (by decide +kernel)).mpr
    ⟨by decide, fun t u mac ht hu => ?_⟩
  have hrows : (phoneCommands.foldl runCommand emptyDb).target.rows =
      [{ clientRow (ascii "AA:BB:CC:DD:EE:01") (ascii "10.0.0.9") (ascii "Phone") 86400 with
        id := 1 }] := by decide +kernel
  have hstored := ht.stored
  have hstored' := hu.stored
  rw [hrows, List.mem_singleton] at hstored hstored'
  exact hstored.trans hstored'.symm

/-- A client that was added in capitals and in small letters makes its days
    unreadable. -/
theorem exportDay_unreadable_twins :
    Reachable (twinCommands.foldl runCommand emptyDb) ∧ AcceptedDay 86400 ∧
      (exportDay (twinCommands.foldl runCommand emptyDb) 86400).exit = 0 ∧
      ∀ day, parseDay (exportDay (twinCommands.foldl runCommand emptyDb) 86400).output ≠ .ok day := by
  have hexit : (exportDay (twinCommands.foldl runCommand emptyDb) 86400).exit = 0 := by
    decide +kernel
  refine ⟨⟨twinCommands, rfl⟩, ⟨by decide, by decide⟩, hexit, fun day hday => ?_⟩
  rcases exportDay_exit_zero _ 86400 hexit with ⟨hfits, houtput⟩
  rw [houtput, parseDay_dayBytes_iff _ 86400 (by decide) hfits] at hday
  have hmacs := (macs_of_day_iff _ 86400).mp hday.2.2
  have hrows : (twinCommands.foldl runCommand emptyDb).target.rows =
      [{ clientRow (ascii "aa:bb:cc:dd:ee:01") (ascii "10.0.0.9") (ascii "Phone") 86400 with
         id := 1 },
       { clientRow (ascii "AA:BB:CC:DD:EE:01") (ascii "10.0.0.9") (ascii "Phone") 86400 with
         id := 2 }] := by decide +kernel
  have heq := hmacs
    { clientRow (ascii "aa:bb:cc:dd:ee:01") (ascii "10.0.0.9") (ascii "Phone") 86400 with id := 1 }
    { clientRow (ascii "AA:BB:CC:DD:EE:01") (ascii "10.0.0.9") (ascii "Phone") 86400 with id := 2 }
    [0xaa, 0xbb, 0xcc, 0xdd, 0xee, 0x01]
    ⟨by rw [hrows]; exact List.mem_cons_self, by decide +kernel, by decide +kernel⟩
    ⟨by rw [hrows]; exact List.mem_cons_of_mem _ List.mem_cons_self, by decide +kernel,
      by decide +kernel⟩
  exact absurd (congrArg TargetRow.id heq) (by decide)

end Zd1200
