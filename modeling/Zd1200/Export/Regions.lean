import Zd1200.Export.ParseDay

/-!
# Day Files From Anywhere

What `parseDay` guarantees about a file that nobody vouches for.

A file comes over the network and out of a decompressor, so the counts and
offsets of its header may be anything. The reader compares each offset with
the end of what is in front of it. These comparisons are between doubles, but
what is compared is a field of 32 bits or the length of a buffer, and a double
that is as small as that has not been rounded: a product of two counts that
was rounded would not have passed. So the parts of a file lie one behind the
other, inside the buffer.

Everything that is done with a file rests on that. The arrays are no longer
than the parts they are read from, and all of them are made after the offsets
have been checked; a file that is refused later has not asked for more either.
The positions that the page reads lie in the parts they belong to.

`readHeader` is the reader up to the check of the offsets and `readBody` what
comes after it.

## Main definitions

* `ArrayBuffer`: A buffer of the browser.
* `Header`: What is read before the offsets have been checked.
* `readHeader`, `readBody`: The two halves of the reader.
* `Header.regions`: The parts of a file, as offsets and lengths.
* `allocations`: The lengths of what is read into arrays.
* `Day.rowIndex`: The position of an entry of a matrix.
* `SafeDay`: What a day that was read promises.

## Theorems

* `parseDay_eq`: The reader is its two halves.
* `readHeader_ordered`: The parts lie one behind the other.
* `readAscending_ok`: What the loops return.
* `parseDay_safe`: No file makes the reader or the page go astray.
-/

namespace Zd1200

/-- A buffer of the browser. Its length is an exact number of the language. -/
structure ArrayBuffer where
  bytes : Bytes
  exact : bytes.length < 2 ^ 53

/-- What is read before the offsets have been checked. -/
structure Header where
  version : Nat
  headerSize : Nat
  start : Nat
  stop : Nat
  roundCount : Nat
  targetCount : Nat
  timeout : Nat
  codeCount : Nat
  timestampsOffset : Nat
  macsOffset : Nat
  samplesOffset : Nat
  generation : Nat
  telemetry : Telemetry
  deriving DecidableEq, Repr

/-- `parseDay` up to the check of the offsets. -/
def readHeader (bytes : Bytes) : Except JsError Header := do
  raiseIf (bytes.length < 576 ∨ bytes.take 8 ≠ magicBytes)
    (.error "Invalid Performance History daily file magic.")
  let version ← getUint bytes 8 2
  let headerSize ← getUint bytes 10 2
  let flags ← getUint bytes 12 4
  let start ← getUint bytes 16 4
  let stop ← getUint bytes 20 4
  let roundCount ← getUint bytes 24 4
  let targetCount ← getUint bytes 28 4
  let timeout ← getUint bytes 32 2
  let codeCount ← getUint bytes 34 2
  let timestampsOffset ← getUint bytes 36 4
  let macsOffset ← getUint bytes 40 4
  let samplesOffset ← getUint bytes 44 4
  let generation ← getUint bytes 48 4
  raiseIf ((version ≠ 1 ∧ version ≠ 2) ∨ headerSize ≠ (if version = 1 then 576 else 640) ∨
      codeCount ≠ 254 ∨ (stop : Int) - start ≠ 86400)
    (.error "Unsupported Performance History daily format.")
  raiseIf (version = 1 ∧ flags ≠ 1) (.error "Unsupported Performance History daily flags.")
  let matrixSize := mulDouble targetCount roundCount
  let telemetry ← readTelemetry bytes version flags roundCount samplesOffset matrixSize
  raiseIf (timestampsOffset ≠ headerSize ∨
      macsOffset ≠ addDouble timestampsOffset (mulDouble roundCount 4) ∨
      samplesOffset < addDouble macsOffset (mulDouble targetCount 6) ∨
      telemetry.fileEnd ≠ bytes.length)
    (.error "Invalid Performance History daily offsets.")
  return { version, headerSize, start, stop, roundCount, targetCount, timeout, codeCount,
           timestampsOffset, macsOffset, samplesOffset, generation, telemetry }

/-- `codebookOffset`. -/
def Header.codebookOffset (h : Header) : Nat := if h.version = 1 then 64 else 132

/-- The lists, once the offsets are known to be right. -/
def readBody (bytes : Bytes) (h : Header) : Except JsError Day := do
  let codebook ← readAscending (fun i => getUint bytes (h.codebookOffset + i * 2) 2)
    (badNumber 1 (h.timeout + 1)) "Invalid Performance History latency codebook." h.codeCount 0 none
  let timestamps ← readAscending (fun i => getUint bytes (h.timestampsOffset + i * 4) 4)
    (badNumber h.start h.stop) "Invalid Performance History round timestamps." h.roundCount 0 none
  let macs ← readAscending (fun i => macAt bytes (h.macsOffset + i * 6))
    badMac "Invalid Performance History target order." h.targetCount 0 none
  let apMacs ← readAscending (fun i => macAt bytes (h.telemetry.apMacsOffset + i * 6))
    badMac "Invalid Performance History AP order." h.telemetry.apCount 0 none
  return { version := h.version, bytes, codebook, start := h.start, stop := h.stop,
           generation := h.generation, roundCount := h.roundCount, targetCount := h.targetCount,
           timestamps, macs, samplesOffset := h.samplesOffset,
           snrOffset := h.telemetry.snrOffset, stateOffset := h.telemetry.stateOffset,
           apCount := h.telemetry.apCount, apMacs, air24Offset := h.telemetry.air24Offset,
           air5Offset := h.telemetry.air5Offset, meshSnrOffset := h.telemetry.meshSnrOffset }

/-- The reader is its two halves. -/
theorem parseDay_eq (bytes : Bytes) : parseDay bytes = readHeader bytes >>= readBody bytes := by
  simp only [parseDay, readHeader, readBody, Header.codebookOffset, bind_assoc, pure_bind]

/-! ### The header -/

/-- What the checks of the header come to, without the rounding. -/
structure Header.Valid (h : Header) (bytes : Bytes) : Prop where
  version : h.version = 1 ∨ h.version = 2
  codes : h.codeCount = 254
  stop : h.stop = h.start + 86400
  small : h.stop < 2 ^ 32 ∧ h.timeout < 2 ^ 16
  timestamps : h.timestampsOffset = if h.version = 1 then 576 else 640
  macs : h.macsOffset = h.timestampsOffset + h.roundCount * 4
  samples : h.macsOffset + h.targetCount * 6 ≤ h.samplesOffset
  one : h.version = 1 → h.telemetry.apCount = 0 ∧
    h.samplesOffset + h.targetCount * h.roundCount = bytes.length
  two : h.version = 2 →
    h.telemetry.snrOffset = h.samplesOffset + h.targetCount * h.roundCount ∧
    h.telemetry.stateOffset = h.telemetry.snrOffset + h.targetCount * h.roundCount ∧
    h.telemetry.stateOffset + h.targetCount * h.roundCount ≤ h.telemetry.apMacsOffset ∧
    h.telemetry.apMacsOffset + h.telemetry.apCount * 6 ≤ h.telemetry.air24Offset ∧
    h.telemetry.air5Offset = h.telemetry.air24Offset + h.telemetry.apCount * h.roundCount ∧
    h.telemetry.meshSnrOffset = h.telemetry.air5Offset + h.telemetry.apCount * h.roundCount ∧
    h.telemetry.meshSnrOffset + h.telemetry.apCount * h.roundCount = bytes.length

theorem getUint_lt (bytes : Bytes) (offset width value : Nat)
    (h : getUint bytes offset width = .ok value) : value < 256 ^ width := by
  unfold getUint readLe at h
  split at h
  · next found heq =>
    split at heq
    · rw [← Except.ok.inj h, ← Option.some.inj heq]
      refine Nat.lt_of_lt_of_le (leNat_lt _) (Nat.pow_le_pow_right (by decide) ?_)
      rw [List.length_take]
      exact Nat.min_le_left _ _
    · exact absurd heq (by simp only [reduceCtorEq, not_false_eq_true])
  · exact absurd h (by simp only [reduceCtorEq, not_false_eq_true])

/-- The telemetry offsets of version 2 follow one another. -/
theorem readTelemetry_ok (bytes : Bytes) (flags roundCount targetCount samplesOffset : Nat)
    (t : Telemetry) (h : readTelemetry bytes 2 flags roundCount samplesOffset
      (mulDouble targetCount roundCount) = .ok t) :
    t.snrOffset = samplesOffset + targetCount * roundCount ∧
      t.stateOffset = t.snrOffset + targetCount * roundCount ∧
      t.stateOffset + targetCount * roundCount ≤ t.apMacsOffset ∧
      t.apMacsOffset + t.apCount * 6 ≤ t.air24Offset ∧
      t.air5Offset = t.air24Offset + t.apCount * roundCount ∧
      t.meshSnrOffset = t.air5Offset + t.apCount * roundCount ∧
      t.fileEnd = t.meshSnrOffset + t.apCount * roundCount := by
  simp only [readTelemetry, if_true, bind_ok_iff, raiseIf_ok_iff, exists_const, pure_ok_iff,
    not_or, ne_eq, not_not, Nat.not_lt] at h
  rcases h with ⟨-, snr, hsnr, state, hstate, apCount, -, apMacs, hapMacs, air24, hair24, air5,
    hair5, mesh, hmesh, fileEnd, hend, ⟨h1, h2, h3, h4, h5, h6, h7⟩, rfl⟩
  have hsnr := getUint_lt _ _ _ _ hsnr
  have hstate := getUint_lt _ _ _ _ hstate
  have hapMacs := getUint_lt _ _ _ _ hapMacs
  have hair24 := getUint_lt _ _ _ _ hair24
  have hair5 := getUint_lt _ _ _ _ hair5
  have hmesh := getUint_lt _ _ _ _ hmesh
  have hend := getUint_lt _ _ _ _ hend
  -- Each side that was computed is as small as the field it was compared with.
  rw [of_addDouble_mulDouble_lt _ _ _ (by omega)] at h1 h2 h3 h4 h5 h6 h7
  exact ⟨h1, h2, h3, h4, h5, h6, h7⟩

/-- A header that is accepted is valid. -/
theorem readHeader_ok (buffer : ArrayBuffer) (h : Header)
    (hread : readHeader buffer.bytes = .ok h) : h.Valid buffer.bytes := by
  have hexact := buffer.exact
  simp only [readHeader, bind_ok_iff, raiseIf_ok_iff, exists_const, pure_ok_iff, not_or, ne_eq,
    not_not, Nat.not_lt] at hread
  rcases hread with ⟨-, version, -, headerSize, -, flags, -, start, -, stop, hstop, roundCount, -,
    targetCount, -, timeout, htimeout, codeCount, -, timestampsOffset, -, macsOffset, hmacs,
    samplesOffset, hsamples, generation, -, ⟨hversion, hheader, hcodes, hday⟩, -, telemetry,
    htelemetry, ⟨htimestamps, hmacsEnd, hsamplesEnd, hend⟩, rfl⟩
  have hstop := getUint_lt _ _ _ _ hstop
  have htimeout := getUint_lt _ _ _ _ htimeout
  have hmacs := getUint_lt _ _ _ _ hmacs
  have hsamples := getUint_lt _ _ _ _ hsamples
  rw [of_addDouble_mulDouble_lt _ _ _ (by omega)] at hmacsEnd hsamplesEnd
  have hcase : version = 1 ∨ version = 2 := by omega
  refine ⟨hcase, hcodes, by simp only; omega, ⟨hstop, htimeout⟩, by simp only; omega, hmacsEnd,
    hsamplesEnd, fun hone => ?_, fun htwo => ?_⟩
  · simp only at hone
    subst hone
    simp only [readTelemetry, Nat.reduceEqDiff, if_false, pure_ok_iff] at htelemetry
    subst htelemetry
    simp only at hend ⊢
    rw [of_addDouble_mulDouble_lt _ _ _ (by omega)] at hend
    exact ⟨trivial, hend⟩
  · simp only at htwo
    subst htwo
    rw [← hend]
    have := readTelemetry_ok _ _ _ _ _ _ htelemetry
    exact ⟨this.1, this.2.1, this.2.2.1, this.2.2.2.1, this.2.2.2.2.1, this.2.2.2.2.2.1,
      this.2.2.2.2.2.2.symm⟩

/-! ### Parts -/

/-- The parts of a file that are in use, as offsets and lengths. -/
def Header.regions (h : Header) : List (Nat × Nat) :=
  [(0, h.codebookOffset), (h.codebookOffset, 2 * h.codeCount),
   (h.timestampsOffset, 4 * h.roundCount), (h.macsOffset, 6 * h.targetCount),
   (h.samplesOffset, h.targetCount * h.roundCount)] ++
  if h.version = 2 then
    [(h.telemetry.snrOffset, h.targetCount * h.roundCount),
     (h.telemetry.stateOffset, h.targetCount * h.roundCount),
     (h.telemetry.apMacsOffset, 6 * h.telemetry.apCount),
     (h.telemetry.air24Offset, h.telemetry.apCount * h.roundCount),
     (h.telemetry.air5Offset, h.telemetry.apCount * h.roundCount),
     (h.telemetry.meshSnrOffset, h.telemetry.apCount * h.roundCount)]
  else []

/-- The position lies in the part. -/
def InRegion (region : Nat × Nat) (i : Nat) : Prop := region.1 ≤ i ∧ i < region.1 + region.2

/-- The parts have no position in common. -/
def RegionsApart (a b : Nat × Nat) : Prop := ∀ i, ¬ (InRegion a i ∧ InRegion b i)

/-- The first part ends before the second one begins. -/
def RegionBefore (a b : Nat × Nat) : Prop := a.1 + a.2 ≤ b.1

instance : IsTrans (Nat × Nat) RegionBefore where
  trans a b c hab hbc := by
    unfold RegionBefore at *
    omega

theorem RegionBefore.apart {a b : Nat × Nat} (h : RegionBefore a b) : RegionsApart a b := by
  rintro i ⟨⟨-, ha⟩, hb, -⟩
  unfold RegionBefore at h
  omega

/-- The parts lie one behind the other, and the last one ends with the
    buffer. -/
theorem regions_ordered (h : Header) (bytes : Bytes) (hvalid : h.Valid bytes) :
    h.regions.Pairwise RegionBefore ∧ ∀ region ∈ h.regions, region.1 + region.2 ≤ bytes.length := by
  rcases hvalid with ⟨hversion, hcodes, -, -, htimestamps, hmacs, hsamples, hone, htwo⟩
  rw [← List.isChain_iff_pairwise]
  rcases hversion with hv | hv
  · have h1 := hone hv
    rw [if_pos hv] at htimestamps
    simp only [Header.regions, Header.codebookOffset, hv, hcodes, if_true, Nat.reduceEqDiff,
      if_false, List.append_nil, List.isChain_cons_cons, List.IsChain.singleton, RegionBefore,
      List.forall_mem_cons, List.not_mem_nil, false_imp_iff, implies_true, and_true]
    omega
  · have h2 := htwo hv
    rw [if_neg (by omega)] at htimestamps
    simp only [Header.regions, Header.codebookOffset, hv, hcodes, if_true, Nat.reduceEqDiff,
      if_false, List.cons_append, List.nil_append, List.isChain_cons_cons, List.IsChain.singleton,
      RegionBefore, List.forall_mem_cons, List.not_mem_nil, false_imp_iff, implies_true, and_true]
    omega

/-- The lengths of what is read into the arrays that a run makes: none before
    the offsets have been checked. -/
def allocations (bytes : Bytes) : List Nat :=
  match readHeader bytes with
  | .error _ => []
  | .ok h => [2 * h.codeCount, 4 * h.roundCount, 6 * h.targetCount, 6 * h.telemetry.apCount]

theorem allocations_le (buffer : ArrayBuffer) :
    ∀ size ∈ allocations buffer.bytes, size ≤ buffer.bytes.length := by
  unfold allocations
  split
  · exact fun size hsize => absurd hsize List.not_mem_nil
  · next h hread =>
    have hvalid := readHeader_ok buffer h hread
    rcases regions_ordered h _ hvalid with ⟨-, hin⟩
    have hcodebook := hin (h.codebookOffset, 2 * h.codeCount) (by
      simp only [Header.regions, List.mem_append, List.mem_cons, true_or, or_true])
    have htimestamps := hin (h.timestampsOffset, 4 * h.roundCount) (by
      simp only [Header.regions, List.mem_append, List.mem_cons, true_or, or_true])
    have hmacs := hin (h.macsOffset, 6 * h.targetCount) (by
      simp only [Header.regions, List.mem_append, List.mem_cons, true_or, or_true])
    have haps : 6 * h.telemetry.apCount ≤ buffer.bytes.length := by
      rcases hvalid.version with hv | hv
      · rw [(hvalid.one hv).1]
        omega
      · have := hvalid.two hv
        omega
    simp only [List.forall_mem_cons, List.not_mem_nil, false_imp_iff, implies_true, and_true]
    omega

/-! ### The lists -/

/-- What a loop returns: as many entries as it was asked for, each of them
    accepted after the one before. -/
theorem readAscending_ok {α : Type} (read : Nat → Except JsError α) (bad : Option α → α → Bool)
    (message : String) (count i : Nat) (previous : Option α) (values : List α)
    (h : readAscending read bad message count i previous = .ok values) :
    values.length = count ∧ Accepts bad previous values := by
  induction count generalizing i previous values with
  | zero =>
      rw [readAscending, Except.ok.injEq] at h
      rw [← h]
      exact ⟨rfl, trivial⟩
  | succ count ih =>
      simp only [readAscending, bind_ok_iff, raiseIf_ok_iff, exists_const, pure_ok_iff,
        Bool.not_eq_true] at h
      rcases h with ⟨value, -, hgood, rest, hrest, rfl⟩
      rcases ih _ _ _ hrest with ⟨hlen, hacc⟩
      exact ⟨by rw [List.length_cons, hlen], hgood, hacc⟩

/-- Accepted entries ascend, where refusing what does not follow refuses what
    is not greater. -/
theorem pairwise_of_accepts {α : Type} (bad : Option α → α → Bool) (R : α → α → Prop)
    [IsTrans α R] (hbad : ∀ a b, bad (some a) b = false → R a b) (previous : Option α)
    (values : List α) (h : Accepts bad previous values) : values.Pairwise R := by
  rw [← List.isChain_iff_pairwise]
  induction values generalizing previous with
  | nil => exact List.IsChain.nil
  | cons value rest ih =>
      rcases h with ⟨-, hrest⟩
      have htail := ih _ hrest
      cases rest with
      | nil => exact List.IsChain.singleton _
      | cons next more => exact List.isChain_cons_cons.mpr ⟨hbad _ _ hrest.1, htail⟩

theorem badNumber_false (low high previous value : Nat)
    (h : badNumber low high (some previous) value = false) : previous < value := by
  simp only [badNumber, Option.any_some, Bool.or_eq_false_iff, decide_eq_false_iff_not] at h
  omega

theorem bounds_of_accepts (low high : Nat) (previous : Option Nat) (values : List Nat)
    (h : Accepts (badNumber low high) previous values) :
    ∀ value ∈ values, low ≤ value ∧ value < high := by
  induction values generalizing previous with
  | nil => exact fun value hvalue => absurd hvalue List.not_mem_nil
  | cons value rest ih =>
      rcases h with ⟨hgood, hrest⟩
      refine List.forall_mem_cons.mpr ⟨?_, ih _ hrest⟩
      simp only [badNumber, Bool.or_eq_false_iff, decide_eq_false_iff_not] at hgood
      omega

/-- One text comes before another. -/
def TextLt (a b : Bytes) : Prop := compare a b = .lt

instance : IsTrans Bytes TextLt where
  trans _ _ _ hab hbc := Std.TransCmp.lt_trans hab hbc

theorem badMac_false (previous value : Bytes) (h : badMac (some previous) value = false) :
    TextLt previous value := by
  simp only [badMac, Option.any_some, textLe] at h
  cases hcmp : compare value previous with
  | lt => simp only [hcmp, Ordering.isLE_lt, Bool.true_eq_false] at h
  | eq => simp only [hcmp, Ordering.isLE_eq, Bool.true_eq_false] at h
  | gt => exact Std.OrientedCmp.gt_iff_lt.mp hcmp

/-! ### What the page reads -/

/-- The position of an entry of a matrix, computed as `history` does. -/
def Day.rowIndex (day : Day) (offset source round : Nat) : Nat :=
  addDouble (addDouble offset (mulDouble source day.roundCount)) round

/-- An entry of a matrix inside the buffer lies in the matrix, and its position
    is computed without rounding. -/
theorem rowIndex_eq (day : Day) (offset count source round : Nat) (hsource : source < count)
    (hround : round < day.roundCount) (hin : offset + count * day.roundCount < 2 ^ 53) :
    day.rowIndex offset source round = offset + source * day.roundCount + round ∧
      InRegion (offset, count * day.roundCount) (day.rowIndex offset source round) := by
  have hrow : (source + 1) * day.roundCount ≤ count * day.roundCount :=
    Nat.mul_le_mul_right _ hsource
  rw [Nat.add_mul, Nat.one_mul] at hrow
  have heq : day.rowIndex offset source round = offset + source * day.roundCount + round := by
    rw [Day.rowIndex, mulDouble_of_lt _ _ (by omega), addDouble_of_lt offset _ (by omega),
      addDouble_of_lt _ round (by omega)]
  rw [heq]
  exact ⟨rfl, by simp only; omega, by simp only; omega⟩

/-- What a day that was read promises to the page. -/
structure SafeDay (bytes : Bytes) (h : Header) (day : Day) : Prop where
  version : day.version = 1 ∨ day.version = 2
  buffer : day.bytes = bytes
  -- Ascending lists, with one entry for each source and each round.
  codebook : day.codebook.Pairwise (· < ·)
  timestamps : day.timestamps.Pairwise (· < ·) ∧ day.timestamps.length = day.roundCount
  rounds : ∀ t ∈ day.timestamps, day.start ≤ t ∧ t < day.stop
  period : day.stop = day.start + 86400 ∧ day.stop < 2 ^ 32
  latencies : ∀ latency ∈ day.codebook, latency < 2 ^ 16
  macs : day.macs.Pairwise TextLt ∧ day.macs.length = day.targetCount
  apMacs : day.apMacs.Pairwise TextLt ∧ day.apMacs.length = day.apCount
  -- Parts of the buffer that do not meet.
  apart : h.regions.Pairwise RegionsApart
  inside : ∀ region ∈ h.regions, region.1 + region.2 ≤ bytes.length
  -- Positions that `history` reads.
  samples : ∀ source < day.targetCount, ∀ round < day.roundCount,
    day.rowIndex day.samplesOffset source round < bytes.length
  codes : ∀ code : UInt8, code ≠ 0 → code ≠ 255 → code.toNat - 1 < day.codebook.length
  telemetry : day.version = 2 → ∀ source < day.targetCount, ∀ round < day.roundCount,
    day.rowIndex day.snrOffset source round < bytes.length ∧
    day.rowIndex day.stateOffset source round < bytes.length
  radios : day.version = 2 → ∀ source < day.apCount, ∀ round < day.roundCount,
    day.rowIndex day.air24Offset source round < bytes.length ∧
    day.rowIndex day.air5Offset source round < bytes.length ∧
    day.rowIndex day.meshSnrOffset source round < bytes.length

/-- What a matrix inside the buffer lets the page read. -/
theorem rowIndex_lt (bytes : Bytes) (hexact : bytes.length < 2 ^ 53) (day : Day)
    (offset count : Nat) (hin : offset + count * day.roundCount ≤ bytes.length) :
    ∀ source < count, ∀ round < day.roundCount,
      day.rowIndex offset source round < bytes.length := by
  intro source hsource round hround
  have := (rowIndex_eq day offset count source round hsource hround (by omega)).2.2
  simp only at this
  omega

/-- A day that is returned can be read. -/
theorem safeDay_of_parseDay (buffer : ArrayBuffer) (day : Day)
    (hday : parseDay buffer.bytes = .ok day) :
    ∃ h, readHeader buffer.bytes = .ok h ∧ SafeDay buffer.bytes h day := by
  rw [parseDay_eq, bind_ok_iff] at hday
  rcases hday with ⟨h, hread, hbody⟩
  have hvalid := readHeader_ok buffer h hread
  rcases regions_ordered h _ hvalid with ⟨hordered, hinside⟩
  simp only [readBody, bind_ok_iff, pure_ok_iff] at hbody
  rcases hbody with ⟨codebook, hcodebook, timestamps, htimestamps, macs, hmacs, apMacs, hapMacs,
    rfl⟩
  have hcodebook := readAscending_ok _ _ _ _ _ _ _ hcodebook
  have htimestamps := readAscending_ok _ _ _ _ _ _ _ htimestamps
  have hmacs := readAscending_ok _ _ _ _ _ _ _ hmacs
  have hapMacs := readAscending_ok _ _ _ _ _ _ _ hapMacs
  have hsamples : h.samplesOffset + h.targetCount * h.roundCount ≤ buffer.bytes.length := by
    rcases hvalid.version with hv | hv
    · exact Nat.le_of_eq (hvalid.one hv).2
    · have := hvalid.two hv
      omega
  refine ⟨h, hread, ?_⟩
  constructor
  · exact hvalid.version
  · rfl
  · exact pairwise_of_accepts _ _ (badNumber_false _ _) _ _ hcodebook.2
  · exact ⟨pairwise_of_accepts _ _ (badNumber_false _ _) _ _ htimestamps.2, htimestamps.1⟩
  · exact bounds_of_accepts _ _ _ _ htimestamps.2
  · exact ⟨hvalid.stop, hvalid.small.1⟩
  · intro latency hlatency
    have := (bounds_of_accepts _ _ _ _ hcodebook.2 latency hlatency).2
    have := hvalid.small.2
    omega
  · exact ⟨pairwise_of_accepts _ _ badMac_false _ _ hmacs.2, hmacs.1⟩
  · exact ⟨pairwise_of_accepts _ _ badMac_false _ _ hapMacs.2, hapMacs.1⟩
  · exact hordered.imp RegionBefore.apart
  · exact hinside
  · exact rowIndex_lt _ buffer.exact _ _ _ hsamples
  · -- A code is a byte, and all but two of them are in the codebook.
    intro code hzero hlast
    have hlt : code.toNat < 256 := code.toNat_lt
    have hne : code.toNat ≠ 255 := fun heq => hlast (UInt8.toNat_inj.mp heq)
    have hpos : code.toNat ≠ 0 := fun heq => hzero (UInt8.toNat_inj.mp heq)
    simp only
    rw [hcodebook.1, hvalid.codes]
    omega
  · intro hv source hsource round hround
    have htwo := hvalid.two hv
    exact ⟨rowIndex_lt _ buffer.exact _ _ h.targetCount (by simp only; omega) source hsource round
        hround,
      rowIndex_lt _ buffer.exact _ _ h.targetCount (by simp only; omega) source hsource round
        hround⟩
  · intro hv source hsource round hround
    have htwo := hvalid.two hv
    have hget : ∀ offset, offset + h.telemetry.apCount * h.roundCount ≤ buffer.bytes.length →
        Day.rowIndex _ offset source round < buffer.bytes.length := fun offset hoffset =>
      rowIndex_lt _ buffer.exact _ offset h.telemetry.apCount hoffset source hsource round hround
    exact ⟨hget _ (by simp only; omega), hget _ (by simp only; omega), hget _ (by simp only; omega)⟩

/-- No file makes the reader or the page go astray: nothing is allocated that
    the buffer does not hold, and a day that is returned can be read. -/
theorem parseDay_safe (buffer : ArrayBuffer) :
    (∀ size ∈ allocations buffer.bytes, size ≤ buffer.bytes.length) ∧
      ∀ day, parseDay buffer.bytes = .ok day →
        ∃ h, readHeader buffer.bytes = .ok h ∧ SafeDay buffer.bytes h day :=
  ⟨allocations_le buffer, safeDay_of_parseDay buffer⟩

end Zd1200
