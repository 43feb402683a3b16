import Mathlib.Data.List.Nodup
import Zd1200.Export.Regions
import Zd1200.Lib.Tally

/-!
# Aggregating Day Files

`history` of the browser's worker.

A job names devices, a range and a width of buckets. The worker reads one day
file after another and adds each observation of a device it was asked for to
the cell of that device and bucket. The cells are typed arrays, so each of the
thirteen numbers of a cell has a width of its own and wraps when it is
exceeded. The arrays are kept side by side here, cell by cell.

What a cell should hold is `expectedCell`: a count, a sum, a maximum, a
minimum or the latest time, over all observations of the device in the bucket
and in no particular order.

The worker's loops run over files, devices and rounds, and leave a round out
if its device or its time is not asked for. As a list of updates of cells they
are one loop (`addDay_eq_tally`), and the updates of one cell are the
observations and readings of its device in its bucket, day by day
(`getElem?_addDays`). What they come to is `cellOf`, if there are no more of
them than the narrowest counter holds and their times ascend
(`cellAfter_eq`).

## Main definitions

* `HistoryJob`: What the page asks for.
* `HistoryCell`: What is counted for a device and a bucket.
* `Observation`, `RadioReading`: The entries of one round.
* `history`: The worker.
* `cellOf`, `expectedCell`: What a cell should hold.
* `SmallRows`: Observations and readings that the counters have room for.

## Theorems

* `addDay_eq_tally`: A day is a list of updates.
* `getElem?_addDays`: What a cell holds after some days.
* `addObservation_eq`, `addReading_eq`: The rule of each number.
* `cellAfter_eq`: The counters come to what they should.
* `cellOf_fits`, `cellOf_perm`: It fits the arrays, and no order matters.
-/

namespace Zd1200

/-- What the page asks for. -/
structure HistoryJob where
  targetMacs : List Bytes
  rangeStart : Int
  rangeEnd : Int
  bucketSeconds : Nat
  band : String
  deriving DecidableEq, Repr

/-- One cell of each of the arrays. -/
@[ext]
structure HistoryCell where
  attempts : Nat
  replies : Nat
  latencySum : Nat
  latencyMax : Nat
  snrSum : Nat
  snrCount : Nat
  snrMin : Nat
  associated : Nat
  associatedAt : Nat
  known : Nat
  airtimeSum : Nat
  airtimeCount : Nat
  meshSnrMin : Nat
  deriving DecidableEq, Repr

/-- A cell at the start. The minima are filled with 255. -/
def HistoryCell.empty : HistoryCell where
  attempts := 0
  replies := 0
  latencySum := 0
  latencyMax := 0
  snrSum := 0
  snrCount := 0
  snrMin := 255
  associated := 0
  associatedAt := 0
  known := 0
  airtimeSum := 0
  airtimeCount := 0
  meshSnrMin := 255

/-- The entries of a target in one round. -/
structure Observation where
  timestamp : Nat
  state : Nat
  code : Nat
  latency : Nat
  snrCode : Nat
  deriving DecidableEq, Repr

/-- The entries of an AP in one round. -/
structure RadioReading where
  timestamp : Nat
  air : Nat
  mesh : Nat
  deriving DecidableEq, Repr

/-- `day.bytes[index]`. -/
def Day.byteAt (day : Day) (index : Nat) : Nat := ((day.bytes[index]?).map UInt8.toNat).getD 0

/-- What the inner loop over rounds reads for a target. A file of version 1
    has no states and no signal strengths. -/
def Day.observation (day : Day) (source round : Nat) : Observation :=
  let code := day.byteAt (day.rowIndex day.samplesOffset source round)
  { timestamp := day.timestamps.getD round 0
    state :=
      if day.version = 1 then (if code ≠ 0 then 1 else 0)
      else day.byteAt (day.rowIndex day.stateOffset source round)
    code
    latency := day.codebook.getD (code - 1) 0
    snrCode := if day.version = 2 then day.byteAt (day.rowIndex day.snrOffset source round) else 0 }

/-- What the inner loop over rounds reads for an AP. -/
def Day.radioReading (day : Day) (band : String) (source round : Nat) : RadioReading :=
  let airOffset := if band = "g" then day.air24Offset else day.air5Offset
  { timestamp := day.timestamps.getD round 0
    air := day.byteAt (day.rowIndex airOffset source round)
    mesh := day.byteAt (day.rowIndex day.meshSnrOffset source round) }

namespace HistoryCell

/-- `known`, `associated` and `associatedAt`. -/
def addState (o : Observation) (c : HistoryCell) : HistoryCell :=
  if o.state ≠ 0 then
    let c := { c with known := (c.known + 1) % 2 ^ 16 }
    if o.state = 1 then
      { c with associated := (c.associated + 1) % 2 ^ 16, associatedAt := o.timestamp % 2 ^ 32 }
    else c
  else c

/-- `attempts`, `replies`, `latencySum` and `latencyMax`. -/
def addCode (o : Observation) (c : HistoryCell) : HistoryCell :=
  if o.code ≠ 0 then
    let c := { c with attempts := (c.attempts + 1) % 2 ^ 32 }
    if o.code ≠ 255 then
      let c := { c with replies := (c.replies + 1) % 2 ^ 32
                        latencySum := (c.latencySum + o.latency) % 2 ^ 32 }
      if o.latency > c.latencyMax then { c with latencyMax := o.latency % 2 ^ 16 } else c
    else c
  else c

/-- `snrSum`, `snrCount` and `snrMin`. -/
def addSnr (o : Observation) (c : HistoryCell) : HistoryCell :=
  if o.snrCode ≠ 0 then
    let snr := o.snrCode - 1
    let c := { c with snrSum := (c.snrSum + snr) % 2 ^ 32, snrCount := (c.snrCount + 1) % 2 ^ 16 }
    if snr < c.snrMin then { c with snrMin := snr % 2 ^ 8 } else c
  else c

/-- An observation of a target. -/
def addObservation (o : Observation) (c : HistoryCell) : HistoryCell :=
  addSnr o (addCode o (addState o c))

/-- A reading of an AP's radios. -/
def addReading (r : RadioReading) (c : HistoryCell) : HistoryCell :=
  let c :=
    if r.air ≠ 0 then
      { c with airtimeSum := (c.airtimeSum + (r.air - 1)) % 2 ^ 32
               airtimeCount := (c.airtimeCount + 1) % 2 ^ 16 }
    else c
  if r.mesh ≠ 0 ∧ r.mesh - 1 < c.meshSnrMin then { c with meshSnrMin := (r.mesh - 1) % 2 ^ 8 }
  else c

end HistoryCell

namespace HistoryJob

/-- `targetIndex.get(mac)`: of entries with one key the last one counts. -/
def targetIndex (job : HistoryJob) (mac : Bytes) : Option Nat :=
  (job.targetMacs.zipIdx.reverse.find? fun entry => entry.1 = mac).map Prod.snd

/-- `buckets`, rounded up. -/
def buckets (job : HistoryJob) : Int := - ((job.rangeStart - job.rangeEnd) / job.bucketSeconds)

/-- The timestamp is not skipped. -/
def inRange (job : HistoryJob) (timestamp : Nat) : Bool :=
  !(decide ((timestamp : Int) < job.rangeStart) || decide (job.rangeEnd ≤ timestamp))

/-- The index of the cell of a target and a timestamp. -/
def cellIndex (job : HistoryJob) (target timestamp : Nat) : Nat :=
  target * job.buckets.toNat + ((timestamp - job.rangeStart) / job.bucketSeconds).toNat

/-- One round of one target. -/
def addRound (job : HistoryJob) (day : Day) (target source : Nat) (cells : List HistoryCell)
    (round : Nat) : List HistoryCell :=
  let o := day.observation source round
  if job.inRange o.timestamp then
    cells.modify (job.cellIndex target o.timestamp) (HistoryCell.addObservation o)
  else cells

/-- One round of one AP. -/
def addRadioRound (job : HistoryJob) (day : Day) (target source : Nat) (cells : List HistoryCell)
    (round : Nat) : List HistoryCell :=
  let r := day.radioReading job.band source round
  if job.inRange r.timestamp then
    cells.modify (job.cellIndex target r.timestamp) (HistoryCell.addReading r)
  else cells

/-- One target of a day, if the job asks for it. -/
def addSource (job : HistoryJob) (day : Day) (cells : List HistoryCell) (source : Nat) :
    List HistoryCell :=
  match job.targetIndex (day.macs.getD source []) with
  | none => cells
  | some target => (List.range day.roundCount).foldl (job.addRound day target source) cells

/-- One AP of a day, if the job asks for it. -/
def addRadioSource (job : HistoryJob) (day : Day) (cells : List HistoryCell) (source : Nat) :
    List HistoryCell :=
  match job.targetIndex (day.apMacs.getD source []) with
  | none => cells
  | some target => (List.range day.roundCount).foldl (job.addRadioRound day target source) cells

/-- One day. Only version 2 has radios. -/
def addDay (job : HistoryJob) (cells : List HistoryCell) (day : Day) : List HistoryCell :=
  let cells := (List.range day.targetCount).foldl (job.addSource day) cells
  if day.version = 2 then (List.range day.apCount).foldl (job.addRadioSource day) cells else cells

end HistoryJob

/-- What the worker posts: the number of buckets and the arrays. -/
structure HistoryAnswer where
  buckets : Int
  cells : List HistoryCell
  deriving DecidableEq, Repr

/-- The worker, on the buffers of `job.files`. An array of a negative length
    cannot be made, nor one that is longer than the browser's `limit`. -/
def history (limit : Nat) (job : HistoryJob) (files : List Bytes) :
    Except JsError HistoryAnswer := do
  raiseIf (job.targetMacs.length * job.buckets < 0 ∨ limit < job.targetMacs.length * job.buckets)
    .rangeError
  let cells := List.replicate (job.targetMacs.length * job.buckets).toNat HistoryCell.empty
  let cells ← files.foldlM (fun cells file => do
    let day ← parseDay file
    return job.addDay cells day) cells
  return ⟨job.buckets, cells⟩

/-! ### What a cell should hold -/

/-- The observations of a device in a day. -/
def Day.observationsOf (day : Day) (mac : Bytes) : List Observation :=
  ((List.range day.targetCount).filter fun source => day.macs[source]? = some mac).flatMap
    fun source => (List.range day.roundCount).map (day.observation source)

/-- The readings of a device's radios in a day. -/
def Day.readingsOf (day : Day) (band : String) (mac : Bytes) : List RadioReading :=
  if day.version = 2 then
    ((List.range day.apCount).filter fun source => day.apMacs[source]? = some mac).flatMap
      fun source => (List.range day.roundCount).map (day.radioReading band source)
  else []

/-- The timestamp lies in the range and in bucket `b`. -/
def HistoryJob.inBucket (job : HistoryJob) (b timestamp : Nat) : Bool :=
  job.inRange timestamp &&
    (decide (job.rangeStart + b * job.bucketSeconds ≤ timestamp) &&
      decide (timestamp < job.rangeStart + (b + 1) * job.bucketSeconds))

/-- The observations of a device in a bucket. -/
def HistoryJob.observations (job : HistoryJob) (days : List Day) (mac : Bytes) (b : Nat) :
    List Observation :=
  (days.flatMap fun day => day.observationsOf mac).filter fun o => job.inBucket b o.timestamp

/-- The readings of a device's radios in a bucket. -/
def HistoryJob.readings (job : HistoryJob) (days : List Day) (mac : Bytes) (b : Nat) :
    List RadioReading :=
  (days.flatMap fun day => day.readingsOf job.band mac).filter fun r => job.inBucket b r.timestamp

/-- An answer arrived. -/
def Observation.replied (o : Observation) : Bool := o.code ≠ 0 && o.code ≠ 255

/-- What observations and readings come to, in no particular order. -/
def cellOf (observations : List Observation) (readings : List RadioReading) : HistoryCell where
  attempts := observations.countP fun o => o.code ≠ 0
  replies := observations.countP Observation.replied
  latencySum := ((observations.filter Observation.replied).map Observation.latency).sum
  latencyMax := greatest ((observations.filter Observation.replied).map Observation.latency)
  snrSum := ((observations.filter fun o => o.snrCode ≠ 0).map fun o => o.snrCode - 1).sum
  snrCount := observations.countP fun o => o.snrCode ≠ 0
  snrMin := least 255 ((observations.filter fun o => o.snrCode ≠ 0).map fun o => o.snrCode - 1)
  associated := observations.countP fun o => o.state = 1
  associatedAt := greatest ((observations.filter fun o => o.state = 1).map Observation.timestamp)
  known := observations.countP fun o => o.state ≠ 0
  airtimeSum := ((readings.filter fun r => r.air ≠ 0).map fun r => r.air - 1).sum
  airtimeCount := readings.countP fun r => r.air ≠ 0
  meshSnrMin := least 255 ((readings.filter fun r => r.mesh ≠ 0).map fun r => r.mesh - 1)

/-- What the cell of a device and a bucket should hold. -/
def expectedCell (job : HistoryJob) (days : List Day) (mac : Bytes) (b : Nat) : HistoryCell :=
  cellOf (job.observations days mac b) (job.readings days mac b)

/-- The numbers of a cell fit their arrays. -/
structure HistoryCell.Fits (c : HistoryCell) : Prop where
  wide : c.attempts < 2 ^ 32 ∧ c.replies < 2 ^ 32 ∧ c.latencySum < 2 ^ 32 ∧ c.snrSum < 2 ^ 32 ∧
    c.associatedAt < 2 ^ 32 ∧ c.airtimeSum < 2 ^ 32
  middle : c.latencyMax < 2 ^ 16 ∧ c.snrCount < 2 ^ 16 ∧ c.associated < 2 ^ 16 ∧
    c.known < 2 ^ 16 ∧ c.airtimeCount < 2 ^ 16
  narrow : c.snrMin < 2 ^ 8 ∧ c.meshSnrMin < 2 ^ 8

/-! ### Days as updates -/

/-- The observations and then the readings of a day, added to a cell. -/
def HistoryCell.addRows (os : List Observation) (rs : List RadioReading) (c : HistoryCell) :
    HistoryCell :=
  rs.foldl (fun c r => addReading r c) (os.foldl (fun c o => addObservation o c) c)

namespace HistoryJob

/-- The updates that the observations of a device make. -/
def updatesOf (job : HistoryJob) (target : Nat) (os : List Observation) :
    List (Nat × (HistoryCell → HistoryCell)) :=
  (os.filter fun o => job.inRange o.timestamp).map fun o =>
    (job.cellIndex target o.timestamp, HistoryCell.addObservation o)

/-- The updates that the readings of a device's radios make. -/
def radioUpdatesOf (job : HistoryJob) (target : Nat) (rs : List RadioReading) :
    List (Nat × (HistoryCell → HistoryCell)) :=
  (rs.filter fun r => job.inRange r.timestamp).map fun r =>
    (job.cellIndex target r.timestamp, HistoryCell.addReading r)

/-- The updates of a day. -/
def dayUpdates (job : HistoryJob) (day : Day) : List (Nat × (HistoryCell → HistoryCell)) :=
  ((List.range day.targetCount).flatMap fun source =>
    match job.targetIndex (day.macs.getD source []) with
    | none => []
    | some target =>
        job.updatesOf target ((List.range day.roundCount).map (day.observation source))) ++
  if day.version = 2 then
    (List.range day.apCount).flatMap fun source =>
      match job.targetIndex (day.apMacs.getD source []) with
      | none => []
      | some target => job.radioUpdatesOf target
          ((List.range day.roundCount).map (day.radioReading job.band source))
  else []

/-- A day is a list of updates. -/
theorem addDay_eq_tally (job : HistoryJob) (cells : List HistoryCell) (day : Day) :
    job.addDay cells day = tally (job.dayUpdates day) cells := by
  have hsource : ∀ cells source, job.addSource day cells source
      = tally (match job.targetIndex (day.macs.getD source []) with
        | none => []
        | some target => job.updatesOf target
            ((List.range day.roundCount).map (day.observation source))) cells := by
    intro cells source
    unfold addSource
    cases job.targetIndex (day.macs.getD source []) with
    | none => rfl
    | some target =>
        simp only
        rw [updatesOf, ← foldl_modify, List.foldl_map]
        rfl
  have hradio : ∀ cells source, job.addRadioSource day cells source
      = tally (match job.targetIndex (day.apMacs.getD source []) with
        | none => []
        | some target => job.radioUpdatesOf target
            ((List.range day.roundCount).map (day.radioReading job.band source))) cells := by
    intro cells source
    unfold addRadioSource
    cases job.targetIndex (day.apMacs.getD source []) with
    | none => rfl
    | some target =>
        simp only
        rw [radioUpdatesOf, ← foldl_modify, List.foldl_map]
        rfl
  have happend : ∀ us vs (cells : List HistoryCell), tally (us ++ vs) cells
      = tally vs (tally us cells) := fun us vs cells => List.foldl_append
  unfold addDay dayUpdates
  rw [happend, ← foldl_tally, ← funext₂ hsource]
  split
  · rw [← foldl_tally, ← funext₂ hradio]
  · rfl

/-- Where the devices of a job are different the index of one is its position. -/
theorem targetIndex_eq_some_iff (job : HistoryJob) (hmacs : job.targetMacs.Nodup) (mac : Bytes)
    (i : Nat) : job.targetIndex mac = some i ↔ job.targetMacs[i]? = some mac := by
  unfold targetIndex
  constructor
  · intro h
    rcases Option.map_eq_some_iff.mp h with ⟨⟨found, k⟩, hfind, rfl⟩
    have hmem := List.mem_of_find?_eq_some hfind
    have hkey := List.find?_some hfind
    rw [List.mem_reverse, List.mem_zipIdx_iff_getElem?] at hmem
    rw [decide_eq_true_eq] at hkey
    rw [← hkey]
    exact hmem
  · intro h
    have hmem : (mac, i) ∈ job.targetMacs.zipIdx.reverse := by
      rw [List.mem_reverse, List.mem_zipIdx_iff_getElem?]
      exact h
    cases hfind : job.targetMacs.zipIdx.reverse.find? fun entry => entry.1 = mac with
    | none =>
        have := List.find?_eq_none.mp hfind _ hmem
        exact absurd (decide_eq_true rfl) this
    | some entry =>
        rcases entry with ⟨found, k⟩
        have hfound := List.mem_of_find?_eq_some hfind
        have hkey := List.find?_some hfind
        rw [List.mem_reverse, List.mem_zipIdx_iff_getElem?] at hfound
        rw [decide_eq_true_eq] at hkey
        -- The device stands at one position only.
        rw [Option.map_some, Option.some.injEq]
        simp only at hkey hfound
        rw [hkey] at hfound
        exact (List.getElem?_inj (List.getElem?_eq_some_iff.mp hfound).1 hmacs).mp
          (hfound.trans h.symm)

/-- A timestamp of the range has the cell of a bucket exactly if it lies in
    that bucket. -/
theorem cellIndex_eq_iff (job : HistoryJob) (hwidth : 0 < job.bucketSeconds)
    (target i b timestamp : Nat) (hb : b < job.buckets.toNat)
    (hin : job.inRange timestamp = true) :
    job.cellIndex target timestamp = i * job.buckets.toNat + b ↔
      target = i ∧ job.inBucket b timestamp = true := by
  unfold inBucket
  rw [hin, Bool.true_and, Bool.and_eq_true, decide_eq_true_eq, decide_eq_true_eq]
  unfold inRange at hin
  rw [Bool.not_eq_true', Bool.or_eq_false_iff, decide_eq_false_iff_not, decide_eq_false_iff_not]
    at hin
  unfold cellIndex
  have hpos : (0 : Int) < job.bucketSeconds := by omega
  have hlow : 0 ≤ ((timestamp : Int) - job.rangeStart) / job.bucketSeconds :=
    Int.ediv_nonneg (by omega) (by omega)
  have hbucket : ((timestamp : Int) - job.rangeStart) / job.bucketSeconds = b ↔
      job.rangeStart + b * job.bucketSeconds ≤ timestamp ∧
        timestamp < job.rangeStart + (b + 1) * job.bucketSeconds := by
    rw [Int.ediv_eq_iff_of_pos hpos, Int.add_mul, Int.one_mul]
    omega
  -- The timestamp comes before the end of the range, so its bucket is one of them.
  have hhigh : ((timestamp : Int) - job.rangeStart) / job.bucketSeconds < job.buckets := by
    unfold buckets
    have := (Int.le_ediv_iff_mul_le hpos).mp (Int.le_refl
      ((job.rangeStart - job.rangeEnd) / job.bucketSeconds))
    have := (Int.le_ediv_iff_mul_le hpos).mp (Int.le_refl
      (((timestamp : Int) - job.rangeStart) / job.bucketSeconds))
    rw [← Int.mul_lt_mul_right hpos, Int.neg_mul]
    omega
  rw [← hbucket]
  generalize ((timestamp : Int) - job.rangeStart) / job.bucketSeconds = q at hlow hhigh
  have hsmall : q.toNat < job.buckets.toNat := by omega
  constructor
  · intro h
    have hmod := congrArg (· % job.buckets.toNat) h
    have hdiv := congrArg (· / job.buckets.toNat) h
    simp only [Nat.mul_add_mod_self_right, Nat.mod_eq_of_lt hsmall, Nat.mod_eq_of_lt hb] at hmod
    simp only [Nat.mul_comm _ job.buckets.toNat,
      Nat.mul_add_div (Nat.zero_lt_of_lt hb), Nat.div_eq_of_lt hsmall, Nat.div_eq_of_lt hb,
      Nat.add_zero] at hdiv
    exact ⟨hdiv, by omega⟩
  · rintro ⟨rfl, hq⟩
    rw [hq, Int.toNat_natCast]

/-- Of the updates of one source, a cell gets those of its bucket, if it is the
    source's device. -/
theorem filter_updates {α : Type} (job : HistoryJob) (hwidth : 0 < job.bucketSeconds)
    (hmacs : job.targetMacs.Nodup) (i b : Nat) (mac : Bytes)
    (hmac : job.targetMacs[i]? = some mac) (hb : b < job.buckets.toNat) (time : α → Nat)
    (add : α → HistoryCell → HistoryCell) (found : Bytes) (entries : List α) :
    ((match job.targetIndex found with
      | none => []
      | some target => (entries.filter fun x => job.inRange (time x)).map fun x =>
          (job.cellIndex target (time x), add x)).filter
        fun update => update.1 = i * job.buckets.toNat + b)
      = if found = mac then
          (entries.filter fun x => job.inBucket b (time x)).map fun x =>
            (i * job.buckets.toNat + b, add x)
        else [] := by
  have hindex := job.targetIndex_eq_some_iff hmacs found
  by_cases hfound : found = mac
  · subst hfound
    rw [(hindex i).mpr hmac, if_pos rfl]
    simp only
    rw [List.filter_map, List.filter_filter]
    have hkeep : ∀ x, (decide (job.cellIndex i (time x) = i * job.buckets.toNat + b) &&
        job.inRange (time x)) = job.inBucket b (time x) := by
      intro x
      cases hin : job.inRange (time x) with
      | false => rw [Bool.and_false, inBucket, hin, Bool.false_and]
      | true =>
          rw [Bool.and_true, Bool.eq_iff_iff, decide_eq_true_eq,
            job.cellIndex_eq_iff hwidth _ _ _ _ hb hin, and_iff_right rfl]
    simp only [Function.comp_apply, hkeep]
    refine List.map_congr_left fun x hx => ?_
    have hbucket := (List.mem_filter.mp hx).2
    have hin := ((Bool.and_eq_true _ _).mp hbucket).1
    rw [(job.cellIndex_eq_iff hwidth _ _ _ _ hb hin).mpr ⟨rfl, hbucket⟩]
  · rw [if_neg hfound]
    cases htarget : job.targetIndex found with
    | none => rfl
    | some target =>
        simp only
        rw [List.filter_eq_nil_iff]
        intro update hupdate
        rcases List.mem_map.mp hupdate with ⟨x, hx, rfl⟩
        rw [decide_eq_true_eq, job.cellIndex_eq_iff hwidth _ _ _ _ hb (List.mem_filter.mp hx).2]
        -- Another device has another position.
        rintro ⟨rfl, -⟩
        have := (hindex target).mp htarget
        rw [hmac, Option.some.injEq] at this
        exact hfound this.symm

/-- Of the updates of all sources, a cell gets those of its device in its
    bucket. -/
theorem filter_sources {α : Type} (job : HistoryJob) (hwidth : 0 < job.bucketSeconds)
    (hmacs : job.targetMacs.Nodup) (i b : Nat) (mac : Bytes)
    (hmac : job.targetMacs[i]? = some mac) (hb : b < job.buckets.toNat) (time : α → Nat)
    (add : α → HistoryCell → HistoryCell) (macs : List Bytes) (entries : Nat → List α) :
    ((List.range macs.length).flatMap fun source =>
      match job.targetIndex (macs.getD source []) with
      | none => []
      | some target => ((entries source).filter fun x => job.inRange (time x)).map fun x =>
          (job.cellIndex target (time x), add x)).filter
        (fun update => update.1 = i * job.buckets.toNat + b)
      = ((((List.range macs.length).filter fun source => macs[source]? = some mac).flatMap
          entries).filter fun x => job.inBucket b (time x)).map fun x =>
            (i * job.buckets.toNat + b, add x) := by
  rw [List.filter_flatMap, flatMap_filter, List.filter_flatMap, List.map_flatMap]
  refine List.flatMap_congr fun source hsource => ?_
  rw [job.filter_updates hwidth hmacs i b mac hmac hb time add]
  have hget : macs[source]? = some (macs.getD source []) := by
    rw [List.getD_eq_getElem?_getD, List.getElem?_eq_getElem (List.mem_range.mp hsource),
      Option.getD_some]
  simp only [hget, Option.some.injEq, decide_eq_true_eq]
  split
  · rfl
  · rfl

/-- The updates of a cell in a day: those of its device's observations in its
    bucket, and then those of its readings. -/
theorem filter_dayUpdates (job : HistoryJob) (hwidth : 0 < job.bucketSeconds)
    (hmacs : job.targetMacs.Nodup) (i b : Nat) (mac : Bytes)
    (hmac : job.targetMacs[i]? = some mac) (hb : b < job.buckets.toNat) (day : Day)
    (htargets : day.macs.length = day.targetCount) (haps : day.apMacs.length = day.apCount) :
    (job.dayUpdates day).filter (fun update => update.1 = i * job.buckets.toNat + b)
      = (((day.observationsOf mac).filter fun o => job.inBucket b o.timestamp).map fun o =>
          (i * job.buckets.toNat + b, HistoryCell.addObservation o)) ++
        ((day.readingsOf job.band mac).filter fun r => job.inBucket b r.timestamp).map fun r =>
          (i * job.buckets.toNat + b, HistoryCell.addReading r) := by
  unfold dayUpdates Day.observationsOf Day.readingsOf
  rw [List.filter_append, ← htargets, ← haps]
  congr 1
  · exact job.filter_sources hwidth hmacs i b mac hmac hb Observation.timestamp
      HistoryCell.addObservation _ _
  · split
    · exact job.filter_sources hwidth hmacs i b mac hmac hb RadioReading.timestamp
        HistoryCell.addReading _ _
    · rfl

/-- What a cell holds after some days: one day after another, the observations
    of its device in its bucket and then the readings. -/
theorem getElem?_addDays (job : HistoryJob) (hwidth : 0 < job.bucketSeconds)
    (hmacs : job.targetMacs.Nodup) (i b : Nat) (mac : Bytes)
    (hmac : job.targetMacs[i]? = some mac) (hb : b < job.buckets.toNat) (days : List Day)
    (hdays : ∀ day ∈ days, day.macs.length = day.targetCount ∧ day.apMacs.length = day.apCount)
    (cells : List HistoryCell) :
    (days.foldl job.addDay cells)[i * job.buckets.toNat + b]?
      = cells[i * job.buckets.toNat + b]?.map fun cell =>
        days.foldl (fun cell day =>
          cell.addRows ((day.observationsOf mac).filter fun o => job.inBucket b o.timestamp)
            ((day.readingsOf job.band mac).filter fun r => job.inBucket b r.timestamp)) cell := by
  rw [funext₂ job.addDay_eq_tally, foldl_tally, getElem?_tally, List.filter_flatMap]
  congr 1
  funext cell
  rw [List.foldl_flatMap]
  refine List.foldl_ext _ _ _ fun cell day hday => ?_
  rw [job.filter_dayUpdates hwidth hmacs i b mac hmac hb day (hdays day hday).1 (hdays day hday).2,
    List.foldl_append, List.foldl_map, List.foldl_map, HistoryCell.addRows]

end HistoryJob

/-! ### What the updates come to -/

namespace HistoryCell

/-- Each number follows a rule of its own. -/
theorem addState_eq (o : Observation) (c : HistoryCell) :
    c.addState o =
      { c with
        known := if decide (o.state ≠ 0) = true then (c.known + 1) % 2 ^ 16 else c.known
        associated := if decide (o.state = 1) = true then (c.associated + 1) % 2 ^ 16
          else c.associated
        associatedAt := if decide (o.state = 1) = true then o.timestamp % 2 ^ 32
          else c.associatedAt } := by
  unfold addState
  simp only [decide_eq_true_eq]
  by_cases hzero : o.state = 0
  · rw [if_neg (not_not_intro hzero), if_neg (not_not_intro hzero), if_neg (by omega),
      if_neg (by omega)]
  · rw [if_pos hzero, if_pos hzero]
    by_cases hone : o.state = 1
    · rw [if_pos hone, if_pos hone, if_pos hone]
    · rw [if_neg hone, if_neg hone, if_neg hone]

theorem addCode_eq (o : Observation) (c : HistoryCell) :
    c.addCode o =
      { c with
        attempts := if decide (o.code ≠ 0) = true then (c.attempts + 1) % 2 ^ 32 else c.attempts
        replies := if o.replied = true then (c.replies + 1) % 2 ^ 32 else c.replies
        latencySum := if o.replied = true then (c.latencySum + o.latency) % 2 ^ 32
          else c.latencySum
        latencyMax := if o.replied = true ∧ c.latencyMax < o.latency then o.latency % 2 ^ 16
          else c.latencyMax } := by
  unfold addCode
  simp only [Observation.replied, Bool.and_eq_true, decide_eq_true_eq]
  by_cases hzero : o.code = 0
  · simp only [hzero, ne_eq, not_true_eq_false, if_false, false_and]
  · by_cases hlast : o.code = 255
    · simp only [hlast, ne_eq, not_true_eq_false, if_false, and_false, false_and,
        Nat.reduceEqDiff, not_false_eq_true, if_true]
    · simp only [hzero, hlast, ne_eq, not_false_eq_true, if_true, true_and, gt_iff_lt]
      split
      · rfl
      · rfl

theorem addSnr_eq (o : Observation) (c : HistoryCell) :
    c.addSnr o =
      { c with
        snrSum := if decide (o.snrCode ≠ 0) = true then (c.snrSum + (o.snrCode - 1)) % 2 ^ 32
          else c.snrSum
        snrCount := if decide (o.snrCode ≠ 0) = true then (c.snrCount + 1) % 2 ^ 16
          else c.snrCount
        snrMin := if decide (o.snrCode ≠ 0) = true ∧ o.snrCode - 1 < c.snrMin
          then (o.snrCode - 1) % 2 ^ 8 else c.snrMin } := by
  unfold addSnr
  simp only [decide_eq_true_eq]
  by_cases hzero : o.snrCode = 0
  · simp only [hzero, ne_eq, not_true_eq_false, if_false, false_and]
  · simp only [hzero, ne_eq, not_false_eq_true, if_true, true_and]
    split
    · rfl
    · rfl

theorem addReading_eq (r : RadioReading) (c : HistoryCell) :
    c.addReading r =
      { c with
        airtimeSum := if decide (r.air ≠ 0) = true then (c.airtimeSum + (r.air - 1)) % 2 ^ 32
          else c.airtimeSum
        airtimeCount := if decide (r.air ≠ 0) = true then (c.airtimeCount + 1) % 2 ^ 16
          else c.airtimeCount
        meshSnrMin := if decide (r.mesh ≠ 0) = true ∧ r.mesh - 1 < c.meshSnrMin
          then (r.mesh - 1) % 2 ^ 8 else c.meshSnrMin } := by
  unfold addReading
  simp only [decide_eq_true_eq]
  by_cases hzero : r.air = 0
  · simp only [hzero, ne_eq, not_true_eq_false, if_false]
    split
    · rfl
    · rfl
  · simp only [hzero, ne_eq, not_false_eq_true, if_true]
    split
    · rfl
    · rfl

theorem addObservation_eq (o : Observation) (c : HistoryCell) :
    c.addObservation o =
      { c with
        known := if decide (o.state ≠ 0) = true then (c.known + 1) % 2 ^ 16 else c.known
        associated := if decide (o.state = 1) = true then (c.associated + 1) % 2 ^ 16
          else c.associated
        associatedAt := if decide (o.state = 1) = true then o.timestamp % 2 ^ 32
          else c.associatedAt
        attempts := if decide (o.code ≠ 0) = true then (c.attempts + 1) % 2 ^ 32 else c.attempts
        replies := if o.replied = true then (c.replies + 1) % 2 ^ 32 else c.replies
        latencySum := if o.replied = true then (c.latencySum + o.latency) % 2 ^ 32
          else c.latencySum
        latencyMax := if o.replied = true ∧ c.latencyMax < o.latency then o.latency % 2 ^ 16
          else c.latencyMax
        snrSum := if decide (o.snrCode ≠ 0) = true then (c.snrSum + (o.snrCode - 1)) % 2 ^ 32
          else c.snrSum
        snrCount := if decide (o.snrCode ≠ 0) = true then (c.snrCount + 1) % 2 ^ 16
          else c.snrCount
        snrMin := if decide (o.snrCode ≠ 0) = true ∧ o.snrCode - 1 < c.snrMin
          then (o.snrCode - 1) % 2 ^ 8 else c.snrMin } := by
  rw [addObservation, addSnr_eq, addCode_eq, addState_eq]

end HistoryCell

/-- What the observations and readings of a cell have to keep to. -/
structure SmallRows (observations : List Observation) (readings : List RadioReading) : Prop where
  count : observations.length ≤ 21600 ∧ readings.length ≤ 21600
  values : ∀ o ∈ observations, o.latency < 2 ^ 16 ∧ o.snrCode < 2 ^ 8 ∧ o.timestamp < 2 ^ 32
  radio : ∀ r ∈ readings, r.air < 2 ^ 8 ∧ r.mesh < 2 ^ 8
  ascending : observations.Pairwise fun o o' => o.timestamp ≤ o'.timestamp

section Days

variable (days : List Day) (os : Day → List Observation) (rs : Day → List RadioReading)

/-- The cell after the days. -/
def cellAfter : HistoryCell :=
  days.foldl (fun cell day => cell.addRows (os day) (rs day)) .empty

/-- A number that observations change and readings do not. -/
theorem cellAfter_observed (get : HistoryCell → Nat) (step : Nat → Observation → Nat)
    (hf : ∀ o c, get (HistoryCell.addObservation o c) = step (get c) o)
    (hg : ∀ r c, get (HistoryCell.addReading r c) = get c) :
    get (cellAfter days os rs) = (days.flatMap os).foldl step (get .empty) :=
  foldl_field_first get _ _ days os rs step hf hg .empty

/-- A number that readings change and observations do not. -/
theorem cellAfter_heard (get : HistoryCell → Nat) (step : Nat → RadioReading → Nat)
    (hf : ∀ o c, get (HistoryCell.addObservation o c) = get c)
    (hg : ∀ r c, get (HistoryCell.addReading r c) = step (get c) r) :
    get (cellAfter days os rs) = (days.flatMap rs).foldl step (get .empty) :=
  foldl_field_second get _ _ days os rs step hf hg .empty

/-- A counter of observations. -/
theorem cellAfter_count (get : HistoryCell → Nat) (p : Observation → Bool) (width : Nat)
    (hf : ∀ o c, get (HistoryCell.addObservation o c)
      = if p o = true then (get c + 1) % width else get c)
    (hg : ∀ r c, get (HistoryCell.addReading r c) = get c) (hzero : get .empty = 0)
    (hwidth : (days.flatMap os).length < width) :
    get (cellAfter days os rs) = (days.flatMap os).countP p := by
  rw [cellAfter_observed days os rs get (fun n o => if p o = true then (n + 1) % width else n) hf hg,
    hzero, foldl_count p width _ 0 (by omega), Nat.zero_add]

/-- A sum over observations. -/
theorem cellAfter_sum (get : HistoryCell → Nat) (p : Observation → Bool)
    (value : Observation → Nat) (bound width : Nat)
    (hf : ∀ o c, get (HistoryCell.addObservation o c)
      = if p o = true then (get c + value o) % width else get c)
    (hg : ∀ r c, get (HistoryCell.addReading r c) = get c) (hzero : get .empty = 0)
    (hvalue : ∀ o ∈ days.flatMap os, value o ≤ bound)
    (hwidth : (days.flatMap os).length * bound < width) :
    get (cellAfter days os rs) = (((days.flatMap os).filter p).map value).sum := by
  rw [cellAfter_observed days os rs get
    (fun n o => if p o = true then (n + value o) % width else n) hf hg, hzero,
    foldl_sum p value bound width _ 0 hvalue (by omega), Nat.zero_add]

/-- The counters of a cell come to what they should: none of them wraps, and
    the association written last is the latest. -/
theorem cellAfter_eq (hsmall : SmallRows (days.flatMap os) (days.flatMap rs)) :
    cellAfter days os rs = cellOf (days.flatMap os) (days.flatMap rs) := by
  rcases hsmall with ⟨⟨hcount, hradioCount⟩, hvalues, hradio, hascending⟩
  have hobs := HistoryCell.addObservation_eq
  have hread := HistoryCell.addReading_eq
  apply HistoryCell.ext
  · exact cellAfter_count days os rs HistoryCell.attempts _ _ (fun o c => by rw [hobs])
      (fun r c => by rw [hread]) rfl (by omega)
  · exact cellAfter_count days os rs HistoryCell.replies _ _ (fun o c => by rw [hobs])
      (fun r c => by rw [hread]) rfl (by omega)
  · exact cellAfter_sum days os rs HistoryCell.latencySum _ _ (2 ^ 16) _ (fun o c => by rw [hobs])
      (fun r c => by rw [hread]) rfl (fun o ho => Nat.le_of_lt (hvalues o ho).1) (by omega)
  · rw [cellAfter_observed days os rs HistoryCell.latencyMax (fun n o =>
      if o.replied = true ∧ n < o.latency then o.latency % 2 ^ 16 else n) (fun o c => by rw [hobs])
      (fun r c => by rw [hread])]
    exact foldl_greatest _ _ _ _ _ fun o ho => (hvalues o ho).1
  · exact cellAfter_sum days os rs HistoryCell.snrSum _ _ (2 ^ 8) _ (fun o c => by rw [hobs])
      (fun r c => by rw [hread]) rfl (fun o ho => by have := (hvalues o ho).2.1; omega) (by omega)
  · exact cellAfter_count days os rs HistoryCell.snrCount _ _ (fun o c => by rw [hobs])
      (fun r c => by rw [hread]) rfl (by omega)
  · rw [cellAfter_observed days os rs HistoryCell.snrMin (fun n o =>
      if decide (o.snrCode ≠ 0) = true ∧ o.snrCode - 1 < n then (o.snrCode - 1) % 2 ^ 8 else n)
      (fun o c => by rw [hobs]) (fun r c => by rw [hread])]
    exact foldl_least (fun o => decide (Observation.snrCode o ≠ 0)) (fun o => o.snrCode - 1) _ _ _
      fun o ho => by have := (hvalues o ho).2.1; omega
  · exact cellAfter_count days os rs HistoryCell.associated _ _ (fun o c => by rw [hobs])
      (fun r c => by rw [hread]) rfl (by omega)
  · -- The times ascend, so the last one is the greatest.
    rw [cellAfter_observed days os rs HistoryCell.associatedAt (fun n o =>
      if decide (o.state = 1) = true then o.timestamp % 2 ^ 32 else n) (fun o c => by rw [hobs])
      (fun r c => by rw [hread])]
    exact foldl_last (fun o => decide (Observation.state o = 1)) Observation.timestamp _ _ _
      (fun o ho => (hvalues o ho).2.2) hascending fun o _ => Nat.zero_le _
  · exact cellAfter_count days os rs HistoryCell.known _ _ (fun o c => by rw [hobs])
      (fun r c => by rw [hread]) rfl (by omega)
  · rw [cellAfter_heard days os rs HistoryCell.airtimeSum (fun n r =>
      if decide (r.air ≠ 0) = true then (n + (r.air - 1)) % 2 ^ 32 else n) (fun o c => by rw [hobs])
      (fun r c => by rw [hread])]
    have := foldl_sum (fun r => decide (RadioReading.air r ≠ 0)) (fun r => r.air - 1) (2 ^ 8)
      (2 ^ 32) (days.flatMap rs) 0 (fun r hr => by have := (hradio r hr).1; omega) (by omega)
    exact this.trans (Nat.zero_add _)
  · rw [cellAfter_heard days os rs HistoryCell.airtimeCount (fun n r =>
      if decide (r.air ≠ 0) = true then (n + 1) % 2 ^ 16 else n) (fun o c => by rw [hobs])
      (fun r c => by rw [hread])]
    have := foldl_count (fun r => decide (RadioReading.air r ≠ 0)) (2 ^ 16) (days.flatMap rs) 0
      (by omega)
    exact this.trans (Nat.zero_add _)
  · rw [cellAfter_heard days os rs HistoryCell.meshSnrMin (fun n r =>
      if decide (r.mesh ≠ 0) = true ∧ r.mesh - 1 < n then (r.mesh - 1) % 2 ^ 8 else n)
      (fun o c => by rw [hobs]) (fun r c => by rw [hread])]
    exact foldl_least (fun r => decide (RadioReading.mesh r ≠ 0)) (fun r => r.mesh - 1) _ _ _
      fun r hr => by have := (hradio r hr).2; omega

end Days

/-- What a cell should hold fits its arrays. -/
theorem cellOf_fits (os : List Observation) (rs : List RadioReading) (hsmall : SmallRows os rs) :
    (cellOf os rs).Fits := by
  rcases hsmall with ⟨⟨hcount, hradioCount⟩, hvalues, hradio, -⟩
  have hcountP : ∀ p : Observation → Bool, os.countP p ≤ 21600 := fun p =>
    Nat.le_trans List.countP_le_length hcount
  have hlatency := sum_filter_le Observation.replied Observation.latency (2 ^ 16) os fun o ho =>
    Nat.le_of_lt (hvalues o ho).1
  have hsnr := sum_filter_le (fun o => decide (Observation.snrCode o ≠ 0)) (fun o => o.snrCode - 1)
    (2 ^ 8) os fun o ho => by have := (hvalues o ho).2.1; omega
  have hair := sum_filter_le (fun r => decide (RadioReading.air r ≠ 0)) (fun r => r.air - 1)
    (2 ^ 8) rs fun r hr => by have := (hradio r hr).1; omega
  have hmax := greatest_lt ((os.filter Observation.replied).map Observation.latency) (2 ^ 16)
    (by decide) fun latency hlatency => by
      rcases List.mem_map.mp hlatency with ⟨o, ho, rfl⟩
      exact (hvalues o (List.mem_filter.mp ho).1).1
  have hlast := greatest_lt ((os.filter fun o => o.state = 1).map Observation.timestamp) (2 ^ 32)
    (by decide) fun timestamp htimestamp => by
      rcases List.mem_map.mp htimestamp with ⟨o, ho, rfl⟩
      exact (hvalues o (List.mem_filter.mp ho).1).2.2
  constructor
  · have h1 := hcountP fun o => o.code ≠ 0
    have h2 := hcountP Observation.replied
    simp only [cellOf]
    omega
  · have h1 := hcountP fun o => o.snrCode ≠ 0
    have h2 := hcountP fun o => o.state = 1
    have h3 := hcountP fun o => o.state ≠ 0
    have h4 := List.countP_le_length (p := fun r => decide (RadioReading.air r ≠ 0)) (l := rs)
    simp only [cellOf]
    omega
  · exact ⟨Nat.lt_succ_of_le (least_le 255 _), Nat.lt_succ_of_le (least_le 255 _)⟩

/-- The order of observations and readings does not matter. -/
theorem cellOf_perm {os os' : List Observation} {rs rs' : List RadioReading} (ho : os.Perm os')
    (hr : rs.Perm rs') : cellOf os rs = cellOf os' rs' := by
  apply HistoryCell.ext
  · exact ho.countP_eq _
  · exact ho.countP_eq _
  · exact ((ho.filter _).map _).sum_nat
  · exact greatest_perm ((ho.filter _).map _)
  · exact ((ho.filter _).map _).sum_nat
  · exact ho.countP_eq _
  · exact least_perm _ ((ho.filter _).map _)
  · exact ho.countP_eq _
  · exact greatest_perm ((ho.filter _).map _)
  · exact ho.countP_eq _
  · exact ((hr.filter _).map _).sum_nat
  · exact hr.countP_eq _
  · exact least_perm _ ((hr.filter _).map _)

end Zd1200
