import Mathlib.Data.List.Dedup
import Mathlib.Data.List.GetD
import Mathlib.Data.Prod.Lex
import Zd1200.Lib.Records
import Zd1200.Monitor.Database
import Zd1200.Export.Mac
import Zd1200.Export.Codebook

/-!
# Day Files

`export_day`: one UTC day of the database as a file.

A file has a header, the codebook, the rounds of the day, the MACs of its
targets and, for each of several quantities, a matrix with a row for each
target and a column for each round. The offsets are computed first, in 64
bits, and the export fails before it writes anything if one of them does not
fit into the header. The parts are then written one after another, with
padding up to the offsets.

Every matrix row starts as zeros. The rows of a query are gone through in
order and each writes a byte at the position of its round, so of several rows
of one round the last one counts. Targets whose identity is not a MAC are left
out.

The end of the day is computed in 32 bits and wraps around on the last day
that has a start.

## Main definitions

* `loadRounds`, `findRound`: The rounds of a day.
* `loadTargets`, `loadApTargets`: The targets of a day.
* `Layout`: The offsets.
* `sampleByte`, `snrByte`, `stateByte`: What a result writes.
* `airWrites`: What the radios of one band write.
* `exportDay`: The export.

## Theorems

* `findRound_eq_some_iff`: A round is found at its position.
* `loadRounds_ascending`, `mem_loadRounds`: The rounds of a day.
-/

namespace Zd1200

def headerSize : Nat := 640

/-- `UINT32_MAX`. -/
def maxUInt32 : Nat := 2 ^ 32 - 1

/-- The day epochs that `main` accepts for `export-day`. -/
def AcceptedDay (start : Nat) : Prop := start ≤ maxUInt32 ∧ start % 86400 = 0

instance (start : Nat) : Decidable (AcceptedDay start) := inferInstanceAs (Decidable (_ ∧ _))

/-- `start+86400U`, in 32 bits. -/
def dayEnd (start : Nat) : Nat := (start + 86400) % 2 ^ 32

/-- `observed_at>=? AND observed_at<?`. -/
def InDay (start observedAt : Nat) : Prop := start ≤ observedAt ∧ observedAt < dayEnd start

instance (start observedAt : Nat) : Decidable (InDay start observedAt) :=
  inferInstanceAs (Decidable (_ ∧ _))

/-! ### Rounds -/

/-- `SELECT DISTINCT observed_at … ORDER BY observed_at`. -/
def loadRounds (db : Db) (start : Nat) : List Nat :=
  orderBy (fun t => t)
    ((db.pingResult.rows.map PingRow.observedAt).filter fun t => InDay start t).dedup

/-- The position of a round. -/
def findRound (rounds : List Nat) (timestamp : Nat) : Option Nat :=
  let low := lowerBound (fun i => decide (rounds.getD i 0 < timestamp)) rounds.length 0
    rounds.length
  if rounds[low]? = some timestamp then some low else none

/-! ### Targets -/

structure ExportTarget where
  id : Nat
  mac : Bytes
  macText : Bytes
  deriving DecidableEq, Repr

/-- A result of the target falls into the day. -/
def HasResult (db : Db) (start : Nat) (t : TargetRow) : Prop :=
  ∃ p ∈ db.pingResult.rows, p.targetId = t.id ∧ InDay start p.observedAt

instance (db : Db) (start : Nat) (t : TargetRow) : Decidable (HasResult db start t) :=
  inferInstanceAs (Decidable (∃ p ∈ _, _))

/-- `CASE WHEN t.kind='client' THEN t.client_mac ELSE t.ap_id END`. -/
def identity (t : TargetRow) : Option Bytes :=
  if t.kind = .client then t.clientMac else t.apId

/-- `COLLATE NOCASE`, with the nulls first. -/
def NocaseLe (a b : Option Bytes) : Prop :=
  match a, b with
  | none, _ => True
  | some _, none => False
  | some a, some b => (strcasecmp a b).isLE = true

instance : DecidableRel NocaseLe := fun a b => by
  cases a <;> cases b <;> (unfold NocaseLe; infer_instance)

/-- `target_append`: a target whose identity is not a MAC is left out. -/
def targetAppend (t : TargetRow) (mac : Option Bytes) : Option ExportTarget :=
  (mac.bind parseMac).map fun octets => { id := t.id, mac := octets, macText := macText octets }

/-- The targets of a query, in the order of their identity. -/
def selectTargets (rows : List TargetRow) (column : TargetRow → Option Bytes) :
    List ExportTarget :=
  (rows.insertionSort fun a b => NocaseLe (column a) (column b)).filterMap fun t =>
    targetAppend t (column t)

def loadTargets (db : Db) (start : Nat) : List ExportTarget :=
  selectTargets (db.target.rows.filter fun t => HasResult db start t) identity

def loadApTargets (db : Db) (start : Nat) : List ExportTarget :=
  selectTargets (db.target.rows.filter fun t => t.kind = .ap ∧ HasResult db start t) TargetRow.apId

/-! ### Layout -/

/-- Round up to a multiple of four. -/
def align4 (n : Nat) : Nat := (n + 3) / 4 * 4

/-- The offsets of the parts behind the rounds. -/
structure Layout where
  macs : Nat
  samples : Nat
  snr : Nat
  state : Nat
  apMacs : Nat
  air24 : Nat
  air5 : Nat
  meshSnr : Nat
  fileEnd : Nat
  deriving DecidableEq, Repr

/-- The offsets for some numbers of rounds, targets and access points. The
    64-bit numbers of the source do not wrap around: each count is that of a
    list in memory. -/
def layoutOf (rounds targets aps : Nat) : Layout :=
  let macs := headerSize + rounds * 4
  let samples := align4 (macs + targets * 6)
  let snr := samples + targets * rounds
  let state := snr + targets * rounds
  let apMacs := align4 (state + targets * rounds)
  let air24 := align4 (apMacs + aps * 6)
  let air5 := air24 + aps * rounds
  let meshSnr := air5 + aps * rounds
  { macs, samples, snr, state, apMacs, air24, air5, meshSnr, fileEnd := meshSnr + aps * rounds }

/-- An offset that does not fit into 32 bits. -/
def Layout.tooBig (l : Layout) : Bool :=
  [l.macs, l.samples, l.snr, l.state, l.apMacs, l.air24, l.air5, l.meshSnr, l.fileEnd].any
    fun offset => maxUInt32 < offset

/-! ### Matrices -/

/-- `encode_snr`. -/
def encodeSnr (value : Int) : UInt8 := ((max 0 (min value 100)) + 1).toNat.toUInt8

/-- `encode_percent_tenths`. -/
def encodePercentTenths (value : Int) : UInt8 :=
  ((max 0 (min value 1000) + 5).tdiv 10 + 1).toNat.toUInt8

/-- `is_five_ghz`. -/
def isFiveGhz (radioId : Int) (radioType : Option Bytes) : Bool :=
  let has (text : Bytes) (part : String) := (findFrom text (ascii part) 0).isSome
  (radioType.any fun type => has type "11a" || has type "ac" || has type "5G") || radioId = 1

/-- The sample byte of a result: a latency code, 255 or 0. -/
def sampleByte (p : PingRow) : UInt8 :=
  if p.responded ∧ p.state = .ok then (encodeLatency p.rttMs).toUInt8
  -- A probe that was not sent is no timeout.
  else if p.state = .timeout then 255
  else 0

/-- The SNR byte of a result, if it has one. -/
def snrByte (p : PingRow) : Option UInt8 := p.snrDb.map encodeSnr

/-- The state byte of a result. -/
def stateByte (p : PingRow) : UInt8 :=
  match p.state with
  | .notAssociated => 2
  | .unknown => 0
  | .ok => 1
  | .timeout => 1

/-- The results of a target in a day, `ORDER BY observed_at,id`. -/
def targetResults (db : Db) (start id : Nat) : List PingRow :=
  orderBy (fun p => toLex (p.observedAt, p.id))
    (db.pingResult.rows.filter fun p => p.targetId = id ∧ InDay start p.observedAt)

/-- A matrix row of zeros, written to at the positions of some rounds. -/
def fillRow (rounds : List Nat) (values : List (Nat × UInt8)) : Bytes :=
  writeAll (List.replicate rounds.length 0)
    (values.filterMap fun value => (findRound rounds value.1).map fun k => (k, value.2))

/-- A target's row of a matrix, from what its results write. -/
def resultRowBytes (db : Db) (start : Nat) (rounds : List Nat) (byte : PingRow → Option UInt8)
    (t : ExportTarget) : Bytes :=
  fillRow rounds ((targetResults db start t.id).filterMap fun p =>
    (byte p).map fun b => (p.observedAt, b))

/-- What is carried from one poll of a band to the next. -/
structure AirState where
  haveBase : Bool
  baseTotal : Int
  baseSamples : Int
  lastAverage : Int
  deriving DecidableEq, Repr

/-- The average that a poll shows: its own ratio after a reset, the previous
    average within one tick of the access point, and the ratio of the
    differences otherwise. The integers are exact here; `airStepInt` is the same
    in the program's `int`. -/
def airStep (s : AirState) (total samples : Int) : AirState :=
  if s.haveBase = false ∨ samples < s.baseSamples then
    { haveBase := true
      baseTotal := total
      baseSamples := samples
      lastAverage := (total + samples.tdiv 2).tdiv samples }
  -- The access point has not ticked since the last poll.
  else if samples = s.baseSamples then s
  else
    let deltaTotal := total - s.baseTotal
    let deltaSamples := samples - s.baseSamples
    { haveBase := true
      baseTotal := total
      baseSamples := samples
      lastAverage := (deltaTotal + deltaSamples.tdiv 2).tdiv deltaSamples }

/-- What the polls of one band write; polls of the other band and polls
    without counters are passed over. -/
def airWrites (fiveGhz : Bool) : AirState → List RadioRow → List (Nat × UInt8)
  | _, [] => []
  | s, r :: rest =>
      if isFiveGhz r.radioId r.radioType ≠ fiveGhz then airWrites fiveGhz s rest
      else
        match r.airtimeTotalTenths, r.rfSamples with
        | some total, some samples =>
            -- Counters that count nothing have no ratio.
            if samples ≤ 0 then airWrites fiveGhz s rest
            else
              let s := airStep s total samples
              (r.observedAt, encodePercentTenths s.lastAverage) :: airWrites fiveGhz s rest
        | _, _ => airWrites fiveGhz s rest

/-- An access point's row of an airtime matrix. -/
def airRowBytes (db : Db) (start : Nat) (rounds : List Nat) (fiveGhz : Bool) (ap : ExportTarget) :
    Bytes :=
  fillRow rounds (airWrites fiveGhz ⟨false, 0, 0, 0⟩
    (orderBy RadioRow.observedAt
      (db.apRadioSample.filter fun r => r.apMac = ap.macText ∧ InDay start r.observedAt)))

/-- The uplinks of an access point in a day, `ORDER BY observed_at`. -/
def uplinks (db : Db) (start : Nat) (macText : Bytes) : List MeshRow :=
  orderBy MeshRow.observedAt
    (db.meshLinkSample.filter fun m =>
      m.apMac = macText ∧ m.direction = .uplink ∧ InDay start m.observedAt)

/-- An access point's row of the mesh matrix. -/
def meshRowBytes (db : Db) (start : Nat) (rounds : List Nat) (ap : ExportTarget) : Bytes :=
  fillRow rounds ((uplinks db start ap.macText).filterMap fun m =>
    m.snrDb.map fun snr => (m.observedAt, encodeSnr snr))

/-! ### The file -/

/-- `"ZDPMDAY\0"`. -/
def magic : Bytes := ascii "ZDPMDAY" ++ [0]

/-- The header behind the magic: widths and values in the order of writing. -/
def headerFields (start : Nat) (rounds : List Nat) (targets aps : Nat) (l : Layout) :
    List (Nat × Nat) :=
  [(2, 2), (2, headerSize), (4, 31), (4, start), (4, dayEnd start), (4, rounds.length),
   (4, targets), (2, 2000), (2, codeCount), (4, headerSize), (4, l.macs), (4, l.samples),
   (4, rounds.getLastD start), (4, l.snr), (4, l.state), (4, aps), (4, l.apMacs), (4, l.air24),
   (4, l.air5), (4, l.meshSnr), (4, l.fileEnd)]

/-- The zeros from one offset up to another. -/
def padding (first last : Nat) : Bytes := List.replicate (last - first) 0

/-- The parts of the file in the order of writing. -/
def dayParts (db : Db) (start : Nat) : List Bytes :=
  let rounds := loadRounds db start
  let targets := loadTargets db start
  let aps := loadApTargets db start
  let l := layoutOf rounds.length targets.length aps.length
  let results byte := targets.flatMap (resultRowBytes db start rounds byte)
  [magic,
   -- The header, behind the magic, and its reserved bytes.
   encodeFields (headerFields start rounds targets.length aps.length l),
   List.replicate 48 0,
   encodeNumbers 2 codebook,
   encodeNumbers 4 rounds,
   targets.flatMap ExportTarget.mac,
   padding (l.macs + targets.length * 6) l.samples,
   -- The matrices of all targets.
   results fun p => some (sampleByte p),
   results snrByte,
   results fun p => some (stateByte p),
   padding (l.state + targets.length * rounds.length) l.apMacs,
   aps.flatMap ExportTarget.mac,
   padding (l.apMacs + aps.length * 6) l.air24,
   -- The matrices of the access points.
   aps.flatMap (airRowBytes db start rounds false),
   aps.flatMap (airRowBytes db start rounds true),
   aps.flatMap (meshRowBytes db start rounds)]

/-- Everything that is written. -/
def dayBytes (db : Db) (start : Nat) : Bytes := (dayParts db start).flatten

/-- The exit status of a command and what it wrote to its output. -/
structure Outcome where
  exit : Nat
  output : Bytes
  deriving DecidableEq, Repr

/-- `export_day`, on a database that can be read. -/
def exportDay (db : Db) (start : Nat) : Outcome :=
  let l := layoutOf (loadRounds db start).length (loadTargets db start).length
    (loadApTargets db start).length
  if l.tooBig then { exit := 1, output := [] } else { exit := 0, output := dayBytes db start }

/-- The command `export-day`. A negative epoch is read as one that wraps
    around, which is too large or no multiple of a day. -/
def exportDayCommand (db : Db) (epoch : Int) : Outcome :=
  if 0 ≤ epoch ∧ AcceptedDay epoch.toNat then exportDay db epoch.toNat
  else { exit := 2, output := [] }

/-! ### Rounds of a day -/

theorem mem_loadRounds (db : Db) (start t : Nat) :
    t ∈ loadRounds db start ↔ (∃ p ∈ db.pingResult.rows, p.observedAt = t) ∧ InDay start t := by
  rw [loadRounds, mem_orderBy, List.mem_dedup, List.mem_filter, List.mem_map, decide_eq_true_eq]

theorem loadRounds_ascending (db : Db) (start : Nat) : (loadRounds db start).Pairwise (· < ·) := by
  have hsorted := List.pairwise_insertionSort (fun a b : Nat => a ≤ b)
    ((db.pingResult.rows.map PingRow.observedAt).filter fun t => InDay start t).dedup
  -- The times are in order and distinct, so they ascend.
  have hnodup : (loadRounds db start).Nodup :=
    (List.perm_insertionSort _ _).nodup_iff.mpr (List.nodup_dedup _)
  exact (List.pairwise_and_iff.mpr ⟨hsorted, hnodup⟩).imp fun h => Nat.lt_of_le_of_ne h.1 h.2

/-- A round is found at its position. -/
theorem findRound_eq_some_iff (rounds : List Nat) (h : rounds.Pairwise (· < ·)) (timestamp k : Nat) :
    findRound rounds timestamp = some k ↔ rounds[k]? = some timestamp := by
  have hmono : ∀ i j, i ≤ j → j < rounds.length →
      decide (rounds.getD j 0 < timestamp) = true → decide (rounds.getD i 0 < timestamp) = true := by
    intro i j hij hj hlt
    rw [decide_eq_true_eq] at hlt ⊢
    rw [List.getD_eq_getElem _ _ hj] at hlt
    rw [List.getD_eq_getElem _ _ (by omega)]
    rcases Nat.eq_or_lt_of_le hij with rfl | hij
    · exact hlt
    · exact (List.pairwise_iff_getElem.mp h i j (by omega) hj hij).trans hlt
  -- The rounds ascend, so the search ends at the first that is not earlier.
  rcases lowerBound_spec _ 0 rounds.length rounds.length hmono (by omega) (by omega) with
    ⟨-, hhi, hbelow, habove⟩
  unfold findRound
  simp only
  generalize lowerBound (fun i => decide (rounds.getD i 0 < timestamp)) rounds.length 0
    rounds.length = low at hhi hbelow habove
  constructor
  · intro hfound
    split at hfound
    · next hlow => rw [← Option.some.inj hfound]; exact hlow
    · exact absurd hfound (by simp only [reduceCtorEq, not_false_eq_true])
  · intro hk
    rcases List.getElem?_eq_some_iff.mp hk with ⟨hlt, hval⟩
    -- Below the position the rounds are earlier, from it on they are not.
    have hlow : low = k := by
      rcases Nat.lt_trichotomy low k with hl | heq | hg
      · have hnot := habove low le_rfl (by omega)
        rw [decide_eq_false_iff_not, List.getD_eq_getElem _ _ (by omega)] at hnot
        have := List.pairwise_iff_getElem.mp h low k (by omega) hlt hl
        omega
      · exact heq
      · have := hbelow k (Nat.zero_le k) hg
        rw [decide_eq_true_eq, List.getD_eq_getElem _ _ hlt] at this
        omega
    rw [hlow, if_pos hk]

end Zd1200
