import Mathlib.Data.List.GetD
import Zd1200.Export.Readable
import Zd1200.Page.Aggregate

/-!
# What the Page Shows of Some Days

The cells of the worker's answer, for files that the reader accepts.

If the files cover different times and none of them begins inside a bucket,
then the rounds that fall into a bucket belong to one file and ascend. So the
association written last is the latest, and there are no more rounds than the
bucket has seconds, which none of the counters can hold too few of. Then every
cell holds what it should, whichever way the files are ordered. Files of
different days of the calendar are such files, since their days begin at
midnight.

The reader does not ask that a day begins at midnight. Two files that overlap
have different starts and are both accepted, and then the order of the files
decides which association is the last: `history_overlap`.

## Main definitions

* `NoOverlap`: Files that cover different times and whole buckets.
* `plainBytes`: A file of version 1 with one round of one device.

## Theorems

* `observations_ascending`: The observations of a cell ascend.
* `noOverlap_of_midnight`: Days of the calendar do not overlap.
* `history_eq`: The worker on files that are read.
* `history_cells`: Every cell holds what it should, in any order of the files.
* `parseDay_plain`: What the reader makes of a plain file.
-/

namespace Zd1200

/-- The days cover different times, and none of them begins inside a bucket. -/
structure NoOverlap (job : HistoryJob) (days : List Day) : Prop where
  apart : days.Pairwise fun a b => a.stop ≤ b.start ∨ b.stop ≤ a.start
  aligned : ∀ day ∈ days, day.start % job.bucketSeconds = 0

/-! ### The observations of a bucket -/

/-- A time that buckets do not straddle has a bucket on one side. -/
theorem HistoryJob.before_of_inBucket (job : HistoryJob) (hwidth : 0 < job.bucketSeconds)
    (hstart : (job.bucketSeconds : Int) ∣ job.rangeStart) (b m t t' : Nat)
    (hm : job.bucketSeconds ∣ m) (ht : job.inBucket b t = true) (ht' : job.inBucket b t' = true)
    (hlt : t < m) : t' < m := by
  simp only [HistoryJob.inBucket, Bool.and_eq_true, decide_eq_true_eq] at ht ht'
  rcases hstart with ⟨k, hk⟩
  rcases hm with ⟨j, rfl⟩
  rw [hk] at ht ht'
  have hlow : (job.bucketSeconds : Int) * (k + b) < job.bucketSeconds * j := by
    rw [Int.mul_add, Int.mul_comm _ (b : Int), ← Int.natCast_mul]
    omega
  have hpos : (0 : Int) < job.bucketSeconds := by omega
  have hnext := Int.mul_le_mul_of_nonneg_left
    (Int.add_one_le_of_lt (Int.lt_of_mul_lt_mul_left hlow (Int.le_of_lt hpos))) (Int.le_of_lt hpos)
  rw [Int.add_assoc, Int.mul_add, Int.mul_comm _ ((b : Int) + 1), ← Int.natCast_mul] at hnext
  omega

/-- The entries of one device in a day ascend: it has one row, and the rounds
    ascend. -/
theorem rows_ascending {α : Type} (time : α → Nat) (day : Day)
    (hrounds : day.timestamps.Pairwise (· < ·) ∧ day.timestamps.length = day.roundCount)
    (macs : List Bytes) (hmacs : macs.Pairwise TextLt) (mac : Bytes) (entry : Nat → Nat → α)
    (htime : ∀ source round, time (entry source round) = day.timestamps.getD round 0) :
    (((List.range macs.length).filter fun source => macs[source]? = some mac).flatMap fun source =>
      (List.range day.roundCount).map (entry source)).Pairwise fun x y => time x < time y := by
  have hnodup : macs.Nodup := hmacs.imp fun {a b} hlt heq => by
    subst heq
    exact absurd (hlt.symm.trans Std.ReflCmp.compare_self)
      (by simp only [reduceCtorEq, not_false_eq_true])
  rw [List.pairwise_flatMap]
  constructor
  · intro source _
    rw [List.pairwise_map]
    refine List.pairwise_lt_range.imp_of_mem fun {r r'} hr hr' hlt => ?_
    rw [List.mem_range, ← hrounds.2] at hr hr'
    rw [htime, htime, List.getD_eq_getElem _ _ hr, List.getD_eq_getElem _ _ hr']
    exact List.pairwise_iff_getElem.mp hrounds.1 r r' hr hr' hlt
  · refine (List.pairwise_lt_range.filter _).imp_of_mem fun {s s'} hs hs' hlt => ?_
    -- Two sources of one device are one source.
    simp only [List.mem_filter, decide_eq_true_eq] at hs hs'
    have := (List.getElem?_inj (List.mem_range.mp hs.1) hnodup).mp (hs.2.trans hs'.2.symm)
    omega

/-- The entries of a device in a day lie in the day. -/
theorem rows_bounds {α : Type} (time : α → Nat) (day : Day)
    (hcount : day.timestamps.length = day.roundCount)
    (hbounds : ∀ t ∈ day.timestamps, day.start ≤ t ∧ t < day.stop) (sources : List Nat)
    (entry : Nat → Nat → α)
    (htime : ∀ source round, time (entry source round) = day.timestamps.getD round 0) :
    ∀ x ∈ sources.flatMap fun source => (List.range day.roundCount).map (entry source),
      day.start ≤ time x ∧ time x < day.stop := by
  intro x hx
  rcases List.mem_flatMap.mp hx with ⟨source, -, hx⟩
  rcases List.mem_map.mp hx with ⟨round, hround, rfl⟩
  rw [List.mem_range, ← hcount] at hround
  rw [htime, List.getD_eq_getElem _ _ hround]
  exact hbounds _ (List.getElem_mem hround)

/-- The entries of a device in a bucket ascend over the days as well: days
    that are apart and begin with a bucket do not share one. -/
theorem days_ascending {α : Type} (job : HistoryJob) (days : List Day) (time : α → Nat)
    (rows : Day → List α) (b : Nat) (hdivides : job.bucketSeconds ∣ 86400)
    (hstart : (job.bucketSeconds : Int) ∣ job.rangeStart) (hapart : NoOverlap job days)
    (hstop : ∀ day ∈ days, day.stop = day.start + 86400)
    (hrows : ∀ day ∈ days, (rows day).Pairwise fun x y => time x < time y)
    (hbounds : ∀ day ∈ days, ∀ x ∈ rows day, day.start ≤ time x ∧ time x < day.stop) :
    ((days.flatMap rows).filter fun x => job.inBucket b (time x)).Pairwise
      fun x y => time x < time y := by
  rw [List.filter_flatMap, List.pairwise_flatMap]
  refine ⟨fun day hday => (hrows day hday).filter _, ?_⟩
  refine hapart.apart.imp_of_mem fun {day day'} hday hday' hapartDays x hx y hy => ?_
  rcases List.mem_filter.mp hx with ⟨hx, hxBucket⟩
  rcases List.mem_filter.mp hy with ⟨hy, hyBucket⟩
  have hxDay := hbounds day hday x hx
  have hyDay := hbounds day' hday' y hy
  have hmultiple : ∀ day ∈ days, job.bucketSeconds ∣ day.stop := fun day hday => by
    rw [hstop day hday]
    exact Nat.dvd_add (Nat.dvd_of_mod_eq_zero (hapart.aligned day hday)) hdivides
  rcases hapartDays with hbefore | hafter
  · omega
  · -- The other way round the two would share a bucket with the end of a day in it.
    have := job.before_of_inBucket (Nat.pos_of_dvd_of_pos hdivides (by decide)) hstart b day'.stop
      (time y) (time x) (hmultiple day' hday') hyBucket hxBucket hyDay.2
    omega

/-- Times that ascend in a bucket are no more than it has seconds. -/
theorem length_le_bucketSeconds {α : Type} (job : HistoryJob) (time : α → Nat) (b : Nat)
    (entries : List α) (hascending : entries.Pairwise fun x y => time x < time y)
    (hin : ∀ x ∈ entries, job.inBucket b (time x) = true) :
    entries.length ≤ job.bucketSeconds := by
  rw [← List.length_map time]
  refine length_le_of_ascending _ (job.rangeStart + b * job.bucketSeconds).toNat _
    (List.pairwise_map.mpr hascending) fun t ht => ?_
  rcases List.mem_map.mp ht with ⟨x, hx, rfl⟩
  have := hin x hx
  simp only [HistoryJob.inBucket, Bool.and_eq_true, decide_eq_true_eq, Int.add_mul, Int.one_mul]
    at this
  omega

theorem Day.byteAt_lt (day : Day) (index : Nat) : day.byteAt index < 2 ^ 8 := by
  unfold Day.byteAt
  cases day.bytes[index]? with
  | none => decide
  | some byte => exact byte.toNat_lt

section Safe

variable (job : HistoryJob) (days : List Day) (mac : Bytes) (b : Nat)
  (hsafe : ∀ day ∈ days, ∃ bytes h, SafeDay bytes h day)
  (hdivides : job.bucketSeconds ∣ 86400) (hstart : (job.bucketSeconds : Int) ∣ job.rangeStart)
  (hapart : NoOverlap job days)

include hsafe in
theorem observationsOf_ascending : ∀ day ∈ days,
    ((day.observationsOf mac).Pairwise fun o o' => o.timestamp < o'.timestamp) ∧
      ∀ o ∈ day.observationsOf mac, day.start ≤ o.timestamp ∧ o.timestamp < day.stop := by
  intro day hday
  rcases hsafe day hday with ⟨_, _, hsafe⟩
  constructor
  · unfold Day.observationsOf
    rw [← hsafe.macs.2]
    exact rows_ascending Observation.timestamp day hsafe.timestamps _ hsafe.macs.1 mac _
      fun _ _ => rfl
  · exact rows_bounds Observation.timestamp day hsafe.timestamps.2 hsafe.rounds _ _ fun _ _ => rfl

include hsafe in
theorem readingsOf_ascending : ∀ day ∈ days,
    ((day.readingsOf job.band mac).Pairwise fun r r' => r.timestamp < r'.timestamp) ∧
      ∀ r ∈ day.readingsOf job.band mac, day.start ≤ r.timestamp ∧ r.timestamp < day.stop := by
  intro day hday
  rcases hsafe day hday with ⟨_, _, hsafe⟩
  unfold Day.readingsOf
  split
  · constructor
    · rw [← hsafe.apMacs.2]
      exact rows_ascending RadioReading.timestamp day hsafe.timestamps _ hsafe.apMacs.1 mac _
        fun _ _ => rfl
    · exact rows_bounds RadioReading.timestamp day hsafe.timestamps.2 hsafe.rounds _ _
        fun _ _ => rfl
  · exact ⟨List.Pairwise.nil, fun r hr => absurd hr List.not_mem_nil⟩

include hsafe hdivides hstart hapart in
/-- The observations of a cell ascend. -/
theorem observations_ascending :
    (job.observations days mac b).Pairwise fun o o' => o.timestamp < o'.timestamp :=
  days_ascending job days Observation.timestamp _ b hdivides hstart hapart
    (fun day hday => by rcases hsafe day hday with ⟨_, _, h⟩; exact h.period.1)
    (fun day hday => (observationsOf_ascending days mac hsafe day hday).1)
    (fun day hday => (observationsOf_ascending days mac hsafe day hday).2)

include hsafe hdivides hstart hapart in
/-- The readings of a cell ascend. -/
theorem readings_ascending :
    (job.readings days mac b).Pairwise fun r r' => r.timestamp < r'.timestamp :=
  days_ascending job days RadioReading.timestamp _ b hdivides hstart hapart
    (fun day hday => by rcases hsafe day hday with ⟨_, _, h⟩; exact h.period.1)
    (fun day hday => (readingsOf_ascending job days mac hsafe day hday).1)
    (fun day hday => (readingsOf_ascending job days mac hsafe day hday).2)

include hsafe hdivides hstart hapart in
/-- There are no more of them than the counters hold. -/
theorem smallRows_of_days (hsmall : job.bucketSeconds ≤ 21600) :
    SmallRows (job.observations days mac b) (job.readings days mac b) := by
  have hobservations := observations_ascending job days mac b hsafe hdivides hstart hapart
  have hreadings := readings_ascending job days mac b hsafe hdivides hstart hapart
  constructor
  · have h1 := length_le_bucketSeconds job Observation.timestamp b _ hobservations
      fun o ho => (List.mem_filter.mp ho).2
    have h2 := length_le_bucketSeconds job RadioReading.timestamp b _ hreadings
      fun r hr => (List.mem_filter.mp hr).2
    omega
  · intro o ho
    rcases List.mem_flatMap.mp (List.mem_filter.mp ho).1 with ⟨day, hday, ho⟩
    have htime := (observationsOf_ascending days mac hsafe day hday).2 o ho
    rcases hsafe day hday with ⟨_, _, hday⟩
    rcases List.mem_flatMap.mp ho with ⟨source, -, ho⟩
    rcases List.mem_map.mp ho with ⟨round, -, rfl⟩
    have := hday.period.2
    refine ⟨?_, ?_, by omega⟩
    · change day.codebook.getD _ 0 < 2 ^ 16
      rw [List.getD_eq_getElem?_getD]
      cases hcode : day.codebook[day.byteAt (day.rowIndex day.samplesOffset source round) - 1]? with
      | none => decide
      | some latency => exact hday.latencies latency (List.mem_of_getElem? hcode)
    · change (if day.version = 2 then _ else 0) < 2 ^ 8
      split
      · exact day.byteAt_lt _
      · decide
  · intro r hr
    rcases List.mem_flatMap.mp (List.mem_filter.mp hr).1 with ⟨day, -, hr⟩
    unfold Day.readingsOf at hr
    split at hr
    · rcases List.mem_flatMap.mp hr with ⟨source, -, hr⟩
      rcases List.mem_map.mp hr with ⟨round, -, rfl⟩
      exact ⟨day.byteAt_lt _, day.byteAt_lt _⟩
    · exact absurd hr List.not_mem_nil
  · exact hobservations.imp fun hlt => Nat.le_of_lt hlt

end Safe

/-- Different days that begin at midnight do not overlap. -/
theorem noOverlap_of_midnight (job : HistoryJob) (days : List Day)
    (hsafe : ∀ day ∈ days, ∃ bytes h, SafeDay bytes h day)
    (hdivides : job.bucketSeconds ∣ 86400) (hmidnight : ∀ day ∈ days, day.start % 86400 = 0)
    (hdays : days.Pairwise fun a b => a.start ≠ b.start) : NoOverlap job days where
  apart := hdays.imp_of_mem fun {a b} ha hb hne => by
    have hstart := hmidnight a ha
    have hstart' := hmidnight b hb
    rcases hsafe a ha with ⟨_, _, hsafeA⟩
    rcases hsafe b hb with ⟨_, _, hsafeB⟩
    have := hsafeA.period.1
    have := hsafeB.period.1
    omega
  aligned := fun day hday =>
    Nat.mod_eq_zero_of_dvd (Nat.dvd_trans hdivides (Nat.dvd_of_mod_eq_zero (hmidnight day hday)))

/-! ### The worker -/

/-- The worker on files that are read. -/
theorem history_eq (limit : Nat) (job : HistoryJob) (files : List ArrayBuffer) (days : List Day)
    (hparse : files.mapM (fun file => parseDay file.bytes) = .ok days) :
    history limit job (files.map ArrayBuffer.bytes) =
      if job.targetMacs.length * job.buckets < 0 ∨ limit < job.targetMacs.length * job.buckets then
        .error .rangeError
      else .ok ⟨job.buckets, days.foldl job.addDay
        (List.replicate (job.targetMacs.length * job.buckets).toNat .empty)⟩ := by
  have hloop : ∀ cells, (files.map ArrayBuffer.bytes).foldlM (fun cells file => do
      let day ← parseDay file
      return job.addDay cells day) cells = (.ok (days.foldl job.addDay cells) : Except JsError _) := by
    have hall := (mapM_ok_iff _ files days).mp hparse
    clear hparse
    induction hall with
    | nil => exact fun cells => rfl
    | @cons file day files days hday _ ih =>
        intro cells
        rw [List.map_cons, List.foldlM_cons, hday]
        exact ih (job.addDay cells day)
  unfold history
  split
  · next hlength =>
    rw [raiseIf_of hlength]
    rfl
  · next hlength =>
    simp only [raiseIf_of_not hlength, ok_bind, hloop]
    rfl

theorem length_addDays (job : HistoryJob) (days : List Day) (cells : List HistoryCell) :
    (days.foldl job.addDay cells).length = cells.length := by
  rw [funext₂ job.addDay_eq_tally, foldl_tally, length_tally]

/-- The order of the days does not matter to what a cell should hold. -/
theorem expectedCell_perm (job : HistoryJob) {days days' : List Day} (h : days.Perm days')
    (mac : Bytes) (b : Nat) : expectedCell job days mac b = expectedCell job days' mac b :=
  cellOf_perm ((h.flatMap_right _).filter _) ((h.flatMap_right _).filter _)

theorem NoOverlap.perm {job : HistoryJob} {days days' : List Day} (hapart : NoOverlap job days)
    (h : days'.Perm days) : NoOverlap job days' where
  apart := (h.pairwise_iff fun {_ _} hab => hab.symm).mpr hapart.apart
  aligned := fun day hday => hapart.aligned day (h.mem_iff.mp hday)

theorem toNat_natCast_mul (n : Nat) (z : Int) : ((n : Int) * z).toNat = n * z.toNat := by
  rcases Int.le_total 0 z with hz | hz
  · rcases Int.eq_ofNat_of_zero_le hz with ⟨m, rfl⟩
    rw [← Int.natCast_mul, Int.toNat_natCast, Int.toNat_natCast]
  · have := Int.mul_nonpos_of_nonneg_of_nonpos (Int.natCast_nonneg n) hz
    rw [Int.toNat_of_nonpos this, Int.toNat_of_nonpos hz, Nat.mul_zero]

/-- What a cell holds after days that were read, starting from empty cells. -/
theorem addDays_cell (job : HistoryJob) (days : List Day)
    (hsafe : ∀ day ∈ days, ∃ bytes h, SafeDay bytes h day)
    (hdivides : job.bucketSeconds ∣ 86400) (hsmall : job.bucketSeconds ≤ 21600)
    (hstart : (job.bucketSeconds : Int) ∣ job.rangeStart) (hmacs : job.targetMacs.Nodup)
    (hapart : NoOverlap job days) (i b : Nat) (mac : Bytes)
    (hmac : job.targetMacs[i]? = some mac) (hb : b < job.buckets.toNat) :
    (days.foldl job.addDay (List.replicate (job.targetMacs.length * job.buckets.toNat)
      .empty))[i * job.buckets.toNat + b]? = some (expectedCell job days mac b) := by
  have hwidth := Nat.pos_of_dvd_of_pos hdivides (by decide)
  have hi := (List.getElem?_eq_some_iff.mp hmac).1
  have hindex : i * job.buckets.toNat + b < job.targetMacs.length * job.buckets.toNat := by
    have := Nat.mul_le_mul_right job.buckets.toNat (Nat.succ_le_of_lt hi)
    rw [Nat.succ_mul] at this
    omega
  have hrows := smallRows_of_days job days mac b hsafe hdivides hstart hapart hsmall
  have hlengths : ∀ day ∈ days, day.macs.length = day.targetCount ∧
      day.apMacs.length = day.apCount := fun day hday => by
    rcases hsafe day hday with ⟨_, _, h⟩
    exact ⟨h.macs.2, h.apMacs.2⟩
  rw [job.getElem?_addDays hwidth hmacs i b mac hmac hb days hlengths, List.getElem?_replicate,
    if_pos hindex, Option.map_some]
  unfold HistoryJob.observations HistoryJob.readings at hrows
  rw [List.filter_flatMap, List.filter_flatMap] at hrows
  have := cellAfter_eq days _ _ hrows
  rw [← List.filter_flatMap, ← List.filter_flatMap] at this
  exact congrArg some this

/-- Every cell of the worker's answer holds what it should, and fits; the
    answer is the same in any order of the files. -/
theorem history_cells (limit : Nat) (job : HistoryJob) (files : List ArrayBuffer) (days : List Day)
    (hdivides : job.bucketSeconds ∣ 86400) (hsmall : job.bucketSeconds ≤ 21600)
    (hstart : (job.bucketSeconds : Int) ∣ job.rangeStart) (hmacs : job.targetMacs.Nodup)
    (hparse : files.mapM (fun file => parseDay file.bytes) = .ok days)
    (hapart : NoOverlap job days) :
    (job.rangeStart ≤ job.rangeEnd → job.targetMacs.length * job.buckets ≤ limit →
      ∃ result, history limit job (files.map ArrayBuffer.bytes) = .ok result) ∧
    ∀ result, history limit job (files.map ArrayBuffer.bytes) = .ok result →
      result.buckets = job.buckets ∧
      result.cells.length = job.targetMacs.length * job.buckets.toNat ∧
      (∀ (i : Nat) (mac : Bytes) (b : Nat), job.targetMacs[i]? = some mac →
        b < job.buckets.toNat →
        result.cells[i * job.buckets.toNat + b]? = some (expectedCell job days mac b) ∧
          (expectedCell job days mac b).Fits) ∧
      ∀ files' : List ArrayBuffer, files'.Perm files →
        history limit job (files'.map ArrayBuffer.bytes) = .ok result := by
  have hsafe : ∀ days' : List Day, days'.Perm days → ∀ day ∈ days', ∃ bytes h, SafeDay bytes h day := by
    intro days' hperm day hday
    rcases mapM_ok_mem _ _ _ hparse day (hperm.mem_iff.mp hday) with ⟨file, -, hfile⟩
    rcases safeDay_of_parseDay file day hfile with ⟨h, -, hday⟩
    exact ⟨file.bytes, h, hday⟩
  have hwidth := Nat.pos_of_dvd_of_pos hdivides (by decide)
  have hcell := fun days' (hperm : days'.Perm days) => addDays_cell job days' (hsafe days' hperm)
    hdivides hsmall hstart hmacs (hapart.perm hperm)
  rw [history_eq limit job files days hparse]
  constructor
  · intro hrange hlimit
    have : 0 ≤ job.buckets := by
      unfold HistoryJob.buckets
      have := Int.ediv_le_ediv (c := (job.bucketSeconds : Int)) (by omega)
        (show job.rangeStart - job.rangeEnd ≤ 0 by omega)
      rw [Int.zero_ediv] at this
      omega
    exact ⟨_, if_neg (not_or.mpr
      ⟨Int.not_lt.mpr (Int.mul_nonneg (by omega) this), Int.not_lt.mpr hlimit⟩)⟩
  · intro result hresult
    split at hresult
    · exact absurd hresult (by simp only [reduceCtorEq, not_false_eq_true])
    · next hnonneg =>
      rw [toNat_natCast_mul] at hresult
      have hresult := (Except.ok.inj hresult).symm
      subst hresult
      refine ⟨rfl, ?_, fun i mac b hmac hb => ⟨hcell days (List.Perm.refl _) i b mac hmac hb, ?_⟩, ?_⟩
      · rw [length_addDays, List.length_replicate]
      · exact cellOf_fits _ _ (smallRows_of_days job days mac b (hsafe days (List.Perm.refl _))
          hdivides hstart hapart hsmall)
      · intro files' hperm
        rcases mapM_ok_perm _ _ _ _ hperm hparse with ⟨days', hparse', hdays⟩
        rw [history_eq limit job files' days' hparse', if_neg hnonneg, toNat_natCast_mul]
        simp only [Except.ok.injEq, HistoryAnswer.mk.injEq, true_and]
        refine List.ext_getElem? fun k => ?_
        rcases Nat.lt_or_ge k (job.targetMacs.length * job.buckets.toNat) with hlt | hge
        · -- A position is a device and a bucket.
          have hbuckets : 0 < job.buckets.toNat :=
            Nat.pos_of_ne_zero fun h => by rw [h, Nat.mul_zero] at hlt; omega
          have hi := Nat.div_lt_of_lt_mul (Nat.mul_comm _ _ ▸ hlt)
          have hmac := List.getElem?_eq_getElem hi
          have hb := Nat.mod_lt k hbuckets
          rw [← Nat.div_add_mod' k job.buckets.toNat,
            hcell days' hdays _ _ _ hmac hb, hcell days (List.Perm.refl _) _ _ _ hmac hb,
            expectedCell_perm job hdays]
        · rw [List.getElem?_eq_none (by rw [length_addDays, List.length_replicate]; exact hge),
            List.getElem?_eq_none (by rw [length_addDays, List.length_replicate]; exact hge)]

/-! ### Files of version 1 -/

/-- The header of a file of version 1 with one round of one device. -/
def plainFields (start : Nat) : List (Nat × Nat) :=
  [(2, 1), (2, 576), (4, 1), (4, start), (4, start + 86400), (4, 1), (4, 1), (2, 254), (2, 254),
   (4, 576), (4, 580), (4, 586), (4, start), (12, 0)]

/-- The widths of its fields. -/
def plainWidths : List Nat := [2, 2, 4, 4, 4, 4, 4, 2, 2, 4, 4, 4, 4, 12]

def plainCodebook : List Nat := (List.range 254).map (· + 1)

/-- The parts of such a file. The device answered within a millisecond. -/
def plainParts (start round : Nat) : List Bytes :=
  [magicBytes, encodeFields (plainFields start), encodeNumbers 2 plainCodebook,
   encodeFields [(4, 0), (4, round)], [2, 0, 0, 0, 0, 1], [1]]

def plainBytes (start round : Nat) : Bytes := (plainParts start round).flatten

/-- What the reader makes of it. -/
def plainDay (start round : Nat) : Day where
  version := 1
  bytes := plainBytes start round
  codebook := plainCodebook
  start := start
  stop := start + 86400
  generation := start
  roundCount := 1
  targetCount := 1
  timestamps := [round]
  macs := [ascii "02:00:00:00:00:01"]
  samplesOffset := 586
  snrOffset := 0
  stateOffset := 0
  apCount := 0
  apMacs := []
  air24Offset := 0
  air5Offset := 0
  meshSnrOffset := 0

theorem fieldsWidth_plainFields (start : Nat) : fieldsWidth (plainFields start) = 56 := by
  change plainWidths.sum = 56
  decide

theorem length_plainCodebook : plainCodebook.length = 254 := by
  rw [plainCodebook, List.length_map, List.length_range]

theorem getElem?_plainCodebook (k value : Nat) (hk : plainCodebook[k]? = some value) :
    k < 254 ∧ value = k + 1 := by
  have hlt := (List.getElem?_eq_some_iff.mp hk).1
  rw [length_plainCodebook] at hlt
  rw [plainCodebook, List.getElem?_map, List.getElem?_range hlt] at hk
  exact ⟨hlt, (Option.some.inj hk).symm⟩

theorem plainCodebook_accepted : Accepts (badNumber 1 (254 + 1)) none plainCodebook := by
  refine accepts_numbers _ _ _ none ?_ ?_
    fun p hp => absurd hp (by simp only [Option.mem_def, reduceCtorEq, not_false_eq_true])
  · exact List.pairwise_map.mpr (List.pairwise_lt_range.imp fun hlt => Nat.succ_lt_succ hlt)
  · intro value hvalue
    rcases List.getElem?_of_mem hvalue with ⟨k, hk⟩
    have := getElem?_plainCodebook k value hk
    omega

/-- Where the parts begin. -/
theorem offset_plainParts (start round : Nat) :
    ((plainParts start round).take 1).flatten.length = 8 ∧
      ((plainParts start round).take 2).flatten.length = 64 ∧
      ((plainParts start round).take 3).flatten.length = 572 ∧
      ((plainParts start round).take 4).flatten.length = 580 ∧
      (plainBytes start round).length = 587 := by
  have hmagic : magicBytes.length = 8 := rfl
  have htime : fieldsWidth [(4, 0), (4, round)] = 8 := rfl
  simp only [plainBytes, plainParts, List.take_succ_cons, List.take_zero, List.flatten_cons,
    List.flatten_nil, List.length_append, length_encodeFields, length_encodeNumbers,
    length_plainCodebook, hmagic, fieldsWidth_plainFields, htime, List.length_cons, List.length_nil, Nat.reduceAdd,
    Nat.reduceMul, and_self]

/-- A field of the header. -/
theorem getUint_plain (start round k width value offset : Nat)
    (hk : (plainFields start)[k]? = some (width, value))
    (hoffset : 8 + (plainWidths.take k).sum = offset)
    (hinside : offset + width ≤ 64) (hfits : value < 256 ^ width) :
    getUint (plainBytes start round) offset width = .ok value := by
  have hwidth : fieldsWidth ((plainFields start).take k) = (plainWidths.take k).sum := by
    rw [fieldsWidth, List.map_take]
    rfl
  have hread := readLe_flatten (plainParts start round) 1 (encodeFields (plainFields start)) rfl
    (fieldsWidth ((plainFields start).take k)) width (by
      rw [length_encodeFields, hwidth, fieldsWidth_plainFields]
      omega)
  rw [readLe_encodeFields _ k width value hk hfits, (offset_plainParts start round).1, hwidth,
    hoffset] at hread
  unfold getUint plainBytes
  rw [hread]

/-- The reader accepts such a file. -/
theorem parseDay_plain (start round : Nat) (hin : start ≤ round ∧ round < start + 86400)
    (hsmall : start + 86400 < 2 ^ 32) :
    parseDay (plainBytes start round) = .ok (plainDay start round) := by
  have h8 := getUint_plain start round 0 2 1 8 rfl (by decide) (by decide) (by decide)
  have h10 := getUint_plain start round 1 2 576 10 rfl (by decide) (by decide) (by decide)
  have h12 := getUint_plain start round 2 4 1 12 rfl (by decide) (by decide) (by decide)
  have h16 := getUint_plain start round 3 4 start 16 rfl (by decide) (by decide) (by omega)
  have h20 := getUint_plain start round 4 4 (start + 86400) 20 rfl (by decide) (by decide) (by omega)
  have h24 := getUint_plain start round 5 4 1 24 rfl (by decide) (by decide) (by decide)
  have h28 := getUint_plain start round 6 4 1 28 rfl (by decide) (by decide) (by decide)
  have h32 := getUint_plain start round 7 2 254 32 rfl (by decide) (by decide) (by decide)
  have h34 := getUint_plain start round 8 2 254 34 rfl (by decide) (by decide) (by decide)
  have h36 := getUint_plain start round 9 4 576 36 rfl (by decide) (by decide) (by decide)
  have h40 := getUint_plain start round 10 4 580 40 rfl (by decide) (by decide) (by decide)
  have h44 := getUint_plain start round 11 4 586 44 rfl (by decide) (by decide) (by decide)
  have h48 := getUint_plain start round 12 4 start 48 rfl (by decide) (by decide) (by omega)
  rcases offset_plainParts start round with ⟨-, hcodes, htimes, hmac, hlength⟩
  have hcodebook : readAscending (fun i => getUint (plainBytes start round) (64 + i * 2) 2)
      (badNumber 1 (254 + 1)) "Invalid Performance History latency codebook." 254 0 none
      = .ok plainCodebook := by
    have hread : ∀ k value, plainCodebook[k]? = some value →
        getUint (plainBytes start round) (64 + (0 + k) * 2) 2 = .ok value := by
      intro k value hk
      have hvalue := getElem?_plainCodebook k value hk
      have hpart := readLe_flatten (plainParts start round) 2 (encodeNumbers 2 plainCodebook) rfl
        (2 * k) 2 (by rw [length_encodeNumbers, length_plainCodebook]; omega)
      rw [readLe_encodeNumbers 2 _ k value hk (by omega), hcodes] at hpart
      unfold getUint plainBytes
      rw [Nat.zero_add, Nat.mul_comm k, hpart]
    have hall := (readAscending_ok_iff (fun i => getUint (plainBytes start round) (64 + i * 2) 2)
      _ "Invalid Performance History latency codebook."
      plainCodebook 0 none hread plainCodebook).mpr ⟨rfl, plainCodebook_accepted⟩
    rw [length_plainCodebook] at hall
    exact hall
  have htimestamps : readAscending (fun i => getUint (plainBytes start round) (576 + i * 4) 4)
      (badNumber start (start + 86400)) "Invalid Performance History round timestamps." 1 0 none
      = .ok [round] := by
    have hpart := readLe_flatten (plainParts start round) 3 _ rfl 4 4 (Nat.le_refl 8)
    have hfield : readLe (encodeFields [(4, 0), (4, round)]) 4 4 = some round :=
      readLe_encodeFields [(4, 0), (4, round)] 1 4 round rfl (by omega)
    rw [htimes, hfield] at hpart
    have hread : getUint (plainBytes start round) (576 + 0 * 4) 4 = .ok round := by
      unfold getUint plainBytes
      rw [hpart]
    have hgood : badNumber start (start + 86400) none round = false := by
      rw [badNumber, Option.any_none, Bool.false_or, Bool.or_eq_false_iff, decide_eq_false_iff_not,
        decide_eq_false_iff_not]
      omega
    simp only [readAscending, hread, ok_bind, hgood, Bool.false_eq_true, raiseIf_of_not,
      not_false_eq_true]
    rfl
  have hmacs : readAscending (fun i => macAt (plainBytes start round) (580 + i * 6)) badMac
      "Invalid Performance History target order." 1 0 none
      = .ok [ascii "02:00:00:00:00:01"] := by
    have hpart := take_drop_flatten (plainParts start round) 4 [2, 0, 0, 0, 0, 1] rfl 0 6
      (Nat.le_refl 6)
    rw [hmac] at hpart
    have hread : macAt (plainBytes start round) (580 + 0 * 6) = .ok (ascii "02:00:00:00:00:01") := by
      unfold macAt
      rw [if_pos (by omega)]
      unfold plainBytes
      rw [hpart]
      decide +kernel
    simp only [readAscending, hread, ok_bind, badMac, Option.any_none, Bool.false_eq_true,
      raiseIf_of_not, not_false_eq_true]
    rfl
  have htelemetry : readTelemetry (plainBytes start round) 1 1 1 586 (mulDouble 1 1)
      = .ok { snrOffset := 0, stateOffset := 0, apCount := 0, apMacsOffset := 0, air24Offset := 0,
              air5Offset := 0, meshSnrOffset := 0, fileEnd := 587 } := by
    rw [readTelemetry, if_neg (by decide), mulDouble_of_lt _ _ (by decide),
      addDouble_of_lt _ _ (by decide)]
    rfl
  have hnone : readAscending (fun i => macAt (plainBytes start round) (0 + i * 6)) badMac
      "Invalid Performance History AP order." 0 0 none = .ok [] := rfl
  simp only [parseDay, bind_ok_iff, raiseIf_ok_iff, pure_ok_iff, exists_const, h8, h10, h12, h16,
    h20, h24, h28, h32, h34, h36, h40, h44, h48, Except.ok.injEq, exists_eq_left', if_true,
    htelemetry, hcodebook, htimestamps, hmacs, hnone, true_and, hlength]
  refine ⟨?_, by omega, by decide, ?_, rfl⟩
  · exact fun h => h.elim (by decide) fun hne => hne rfl
  · rw [mulDouble_of_lt 1 4 (by decide), mulDouble_of_lt 1 6 (by decide),
      addDouble_of_lt _ _ (by decide), addDouble_of_lt _ _ (by decide)]
    decide

def plainBuffer (start round : Nat) : ArrayBuffer where
  bytes := plainBytes start round
  exact := by
    rw [(offset_plainParts start round).2.2.2.2]
    decide

/-- One device, one bucket of six hours. -/
def plainJob : HistoryJob where
  targetMacs := [ascii "02:00:00:00:00:01"]
  rangeStart := 86400
  rangeEnd := 108000
  bucketSeconds := 21600
  band := "g"

/-- Two such files are read. -/
theorem mapM_plain (start start' round round' : Nat) (h : start ≤ round ∧ round < start + 86400)
    (h' : start' ≤ round' ∧ round' < start' + 86400) (hsmall : start + 86400 < 2 ^ 32)
    (hsmall' : start' + 86400 < 2 ^ 32) :
    [plainBuffer start round, plainBuffer start' round'].mapM (fun file => parseDay file.bytes)
      = .ok [plainDay start round, plainDay start' round'] := by
  rw [mapM_ok_iff]
  exact .cons (parseDay_plain start round h hsmall)
    (.cons (parseDay_plain start' round' h' hsmall') .nil)

theorem history_cells_plain :
    ∃ result, history 5000000 plainJob ([plainBuffer 86400 86401, plainBuffer 0 7].map ArrayBuffer.bytes)
        = .ok result ∧
      result.cells[0]? = some (expectedCell plainJob [plainDay 86400 86401, plainDay 0 7]
        (ascii "02:00:00:00:00:01") 0) ∧
      history 5000000 plainJob ([plainBuffer 0 7, plainBuffer 86400 86401].map ArrayBuffer.bytes)
        = .ok result := by
  have h := history_cells 5000000 plainJob [plainBuffer 86400 86401, plainBuffer 0 7]
    [plainDay 86400 86401, plainDay 0 7] (by decide) (by decide) (by decide) (by decide)
    (mapM_plain _ _ _ _ (by decide) (by decide) (by decide) (by decide))
    ⟨by simp [plainDay], by simp [plainDay, plainJob]⟩
  rcases h.1 (by decide) (by decide) with ⟨result, hresult⟩
  have hcells := h.2 result hresult
  exact ⟨result, hresult, (hcells.2.2.1 0 _ 0 rfl (by decide)).1,
    hcells.2.2.2 _ (List.Perm.swap _ _ _)⟩

/-- Days that begin at different times and on different days of the calendar
    may still overlap. Then the association that is kept is that of the last
    file, not the latest one. -/
theorem history_overlap :
    (plainJob.bucketSeconds ∣ 86400 ∧ plainJob.bucketSeconds ≤ 21600 ∧
      (plainJob.bucketSeconds : Int) ∣ plainJob.rangeStart ∧ plainJob.targetMacs.Nodup) ∧
    [plainBuffer 43200 86410, plainBuffer 86400 86401].mapM (fun file => parseDay file.bytes)
      = .ok [plainDay 43200 86410, plainDay 86400 86401] ∧
    (∃ result, history 5000000 plainJob
          ([plainBuffer 43200 86410, plainBuffer 86400 86401].map ArrayBuffer.bytes) = .ok result ∧
        result.cells.map HistoryCell.associatedAt = [86401]) ∧
    (∃ result, history 5000000 plainJob
          ([plainBuffer 86400 86401, plainBuffer 43200 86410].map ArrayBuffer.bytes) = .ok result ∧
        result.cells.map HistoryCell.associatedAt = [86410]) ∧
    (expectedCell plainJob [plainDay 43200 86410, plainDay 86400 86401]
      (ascii "02:00:00:00:00:01") 0).associatedAt = 86410 := by
  have hparse := mapM_plain 43200 86400 86410 86401 (by decide) (by decide) (by decide) (by decide)
  have hparse' := mapM_plain 86400 43200 86401 86410 (by decide) (by decide) (by decide) (by decide)
  have hrange : ¬ (plainJob.targetMacs.length * plainJob.buckets < 0 ∨
      ((5000000 : Nat) : Int) < plainJob.targetMacs.length * plainJob.buckets) := by decide
  refine ⟨by decide, hparse, ?_, ?_, by decide +kernel⟩
  · exact ⟨_, (history_eq _ _ _ _ hparse).trans (if_neg hrange), by decide +kernel⟩
  · exact ⟨_, (history_eq _ _ _ _ hparse').trans (if_neg hrange), by decide +kernel⟩

end Zd1200
