import Zd1200.Export.Content
import Zd1200.Page.Cells
import Zd1200.Page.History

/-!
# From the Database to the Chart

What the page shows of a device is what the monitor has recorded of it.

On its way to the chart an observation passes three programs. The exporter
writes the days of the database to files, the page asks for those of the files
that meet its window, and the worker reads them and counts. Each of the three
has its own module. Here they are put together, and the files between them
disappear: `history_recorded` speaks of the rows of the database and of the
cells of the answer only.

A row belongs to a target, and a target to a MAC. If a target has more than one
row in a round then the last one counts, and for the signal strength the last
one that has it.

The files have to be there, one for each day that has results in the window,
and no two targets of a day may have one MAC, since such a day cannot be read.

## Main definitions

* `recorded`: What the database holds of a target in a round.
* `recordedIn`: What it holds of a device in a bucket.
* `pageJob`, `shownDays`: What the page asks the worker for.

## Theorems

* `observation_readDay`: An observation in a file is the recorded one.
* `observationsOf_readDay`: A day's observations of a device.
* `history_recorded`: The cells of an answer.
-/

namespace Zd1200

/-! ### What the database holds -/

/-- The results of a target in a round, in the order of their numbers. -/
def roundResults (db : Db) (t : TargetRow) (time : Nat) : List PingRow :=
  orderBy PingRow.id (db.pingResult.rows.filter fun p => p.targetId = t.id ∧ p.observedAt = time)

/-- What the last result of a round has that has any. -/
def lastOf {α : Type} (db : Db) (t : TargetRow) (time : Nat) (value : PingRow → Option α) : Option α :=
  ((roundResults db t time).filterMap value).getLast?

/-- What the database holds of a target in a round. -/
def recorded (db : Db) (t : TargetRow) (time : Nat) : Observation :=
  let code := ((lastOf db t time fun p => some (sampleByte p).toNat)).getD 0
  { timestamp := time
    state := ((lastOf db t time fun p => some (stateByte p).toNat)).getD 0
    code
    latency := codebook.getD (code - 1) 0
    snrCode := ((lastOf db t time fun p => p.snrDb.map fun snr => (encodeSnr snr).toNat)).getD 0 }

/-- The rounds in which a target has results. -/
def resultTimes (db : Db) (t : TargetRow) : List Nat :=
  ((db.pingResult.rows.filter fun p => p.targetId = t.id).map PingRow.observedAt).dedup

/-- The rounds in which a device has results, with the target of each. -/
def resultsOf (db : Db) (mac : Bytes) : List (TargetRow × Nat) :=
  (db.target.rows.filter fun t => (identity t).bind parseMac = some mac).flatMap fun t =>
    (resultTimes db t).map fun time => (t, time)

/-- What the database holds of a device in a bucket. -/
def recordedIn (db : Db) (job : HistoryJob) (mac : Bytes) (b : Nat) : List Observation :=
  ((resultsOf db mac).filter fun r => job.inBucket b r.2).map fun r => recorded db r.1 r.2

theorem mem_roundResults (db : Db) (t : TargetRow) (time : Nat) (p : PingRow) :
    p ∈ roundResults db t time ↔ IsResult db t time p := by
  rw [roundResults, mem_orderBy, List.mem_filter, decide_eq_true_eq]
  exact Iff.rfl

/-- The last value is that of the last result that has one. -/
theorem lastOf_eq_some {α : Type} (db : Db) (t : TargetRow) (time : Nat) (value : PingRow → Option α)
    (p : PingRow) (hp : LastRow db t time (fun q => value q ≠ none) p) (v : α)
    (hv : value p = some v) : lastOf db t time value = some v := by
  have hsorted : (roundResults db t time).Pairwise fun p q => p.id ≤ q.id :=
    List.pairwise_insertionSort _ _
  refine getLast?_filterMap_of_last _ _ hsorted value p
    ((mem_roundResults db t time p).mpr hp.1) v hv ?_
  intro q hq hle c hc
  have hresult := (mem_roundResults db t time q).mp hq
  have hid : q.id ≤ p.id := hp.2.2 q hresult fun hnone => by
    rw [Option.mem_def, hnone] at hc
    exact absurd hc (by simp only [reduceCtorEq, not_false_eq_true])
  -- Both numbers are the same, so the rows are.
  have heq : p = q := List.inj_on_of_nodup_map db.pingResult.key hp.1.1 hresult.1
    (Nat.le_antisymm hle hid)
  rw [← heq, hv] at hc
  exact (Option.some.inj hc).symm

theorem lastOf_eq_none {α : Type} (db : Db) (t : TargetRow) (time : Nat) (value : PingRow → Option α)
    (h : ∀ p, IsResult db t time p → value p = none) : lastOf db t time value = none := by
  rw [lastOf, List.getLast?_eq_none_iff, List.filterMap_eq_nil_iff]
  exact fun p hp => h p ((mem_roundResults db t time p).mp hp)

/-- There is a last one, or there is none. -/
theorem lastRow_or_none (db : Db) (t : TargetRow) (time : Nat) (which : PingRow → Prop) :
    (∃ p, LastRow db t time which p) ∨ ∀ p, IsResult db t time p → ¬ which p := by
  classical
  rcases h : ((roundResults db t time).filter fun p => decide (which p)).getLast? with _ | p
  · refine Or.inr fun p hp hwhich => ?_
    rw [List.getLast?_eq_none_iff, List.filter_eq_nil_iff] at h
    exact h p ((mem_roundResults db t time p).mpr hp) (decide_eq_true hwhich)
  · refine Or.inl ⟨p, ?_⟩
    have hsorted : ((roundResults db t time).filter fun p => decide (which p)).Pairwise
        fun p q => p.id ≤ q.id := (List.pairwise_insertionSort _ _).filter _
    rcases List.getLast?_eq_some_iff.mp h with ⟨front, hfront⟩
    have hmem := List.mem_of_getLast? h
    rw [List.mem_filter, decide_eq_true_eq] at hmem
    refine ⟨(mem_roundResults db t time p).mp hmem.1, hmem.2, fun q hq hwhich => ?_⟩
    have hq' : q ∈ (roundResults db t time).filter fun p => decide (which p) :=
      List.mem_filter.mpr ⟨(mem_roundResults db t time q).mpr hq, decide_eq_true hwhich⟩
    rw [hfront] at hq' hsorted
    rcases List.mem_append.mp hq' with hq' | hq'
    · exact (List.pairwise_append.mp hsorted).2.2 q hq' p (List.mem_singleton_self p)
    · rw [List.mem_singleton.mp hq']

/-! ### An observation in a file -/

section ReadDay

variable (db : Db) (start : Nat)

/-- The entry of a matrix that the worker reads is the byte of the cell. -/
theorem byteAt_readDay (hfits : (dayLayout db start).tooBig = false) (offset i j : Nat) (b : UInt8)
    (hoffset : offset < 2 ^ 32) (hi : i < (loadTargets db start).length)
    (hj : j < (loadRounds db start).length) (h : cell (readDay db start) offset i j = some b) :
    (readDay db start).byteAt ((readDay db start).rowIndex offset i j) = b.toNat := by
  have hmatrix := (counts_of_fits db start hfits).2.2.2.1
  have hindex := (rowIndex_eq (readDay db start) offset (loadTargets db start).length i j hi hj
    (show offset + (loadTargets db start).length * (loadRounds db start).length < 2 ^ 53 by
      omega)).1
  rw [cell] at h
  rw [Day.byteAt, hindex, Nat.add_assoc, h]
  rfl

variable (hdistinct : ∀ t u mac, HasMac db start t mac → HasMac db start u mac → t = u)

include hdistinct in
/-- The entry of a target and a round is written by the last result that writes
    one. -/
theorem byteAt_result (hfits : (dayLayout db start).tooBig = false) (k : Nat)
    (byte : PingRow → Option UInt8)
    (hpart : (dayParts db start)[k]? =
      some ((loadTargets db start).flatMap (resultRowBytes db start (loadRounds db start) byte)))
    (hoffset : partOffset db start k < 2 ^ 32) (i j : Nat) (t : TargetRow) (time : Nat)
    (h : AtCell db start (readDay db start) i j t time) :
    (readDay db start).byteAt ((readDay db start).rowIndex (partOffset db start k) i j) =
      (lastOf db t time fun p => (byte p).map UInt8.toNat).getD 0 := by
  rcases target_at db start hdistinct i j t time h with ⟨⟨e, he, -⟩, -, hj⟩
  have hi := (List.getElem?_eq_some_iff.mp he).1
  rcases lastRow_or_none db t time fun q => byte q ≠ none with ⟨p, hp⟩ | hnone
  · rcases Option.ne_none_iff_exists'.mp hp.2.1 with ⟨b, hb⟩
    have hlast : LastRow db t time (fun q => (byte q).map UInt8.toNat ≠ none) p :=
      ⟨hp.1, fun hnone => hp.2.1 (Option.map_eq_none_iff.mp hnone),
        fun q hq h => hp.2.2 q hq fun hq' => h (by rw [hq', Option.map_none])⟩
    rw [byteAt_readDay db start hfits _ i j b hoffset hi hj
        (resultCell_last db start k byte hpart hdistinct i j t time h p hp b hb),
      lastOf_eq_some db t time _ p hlast b.toNat (by rw [hb, Option.map_some])]
    rfl
  · have hnone : ∀ p, IsResult db t time p → byte p = none := fun p hp =>
      not_not.mp (hnone p hp)
    rw [byteAt_readDay db start hfits _ i j 0 hoffset hi hj
        (resultCell_none db start k byte hpart hdistinct i j t time h hnone),
      lastOf_eq_none db t time _ fun p hp => by rw [hnone p hp, Option.map_none]]
    rfl

include hdistinct in
/-- An observation in a file that can be read is the recorded one. -/
theorem observation_readDay (hfits : (dayLayout db start).tooBig = false) (i j : Nat)
    (t : TargetRow) (time : Nat) (h : AtCell db start (readDay db start) i j t time) :
    (readDay db start).observation i j = recorded db t time := by
  rcases offset_of_part db start with ⟨-, -, -, -, hsamples, hsnr, hstate, -, -, -, -, -⟩
  rcases fits_of_not_tooBig _ hfits with ⟨-, hsmall, hsmallSnr, hsmallState, -, -, -, -, -⟩
  have hcode := byteAt_result db start hdistinct hfits 7 (fun p => some (sampleByte p)) rfl
    (hsamples ▸ hsmall) i j t time h
  have hsnrCode := byteAt_result db start hdistinct hfits 8 snrByte rfl (hsnr ▸ hsmallSnr) i j t
    time h
  have hstateCode := byteAt_result db start hdistinct hfits 9 (fun p => some (stateByte p)) rfl
    (hstate ▸ hsmallState) i j t time h
  rw [hsamples] at hcode
  rw [hsnr] at hsnrCode
  rw [hstate] at hstateCode
  have htime : (readDay db start).timestamps.getD j 0 = time := by
    rw [List.getD_eq_getElem?_getD, h.time, Option.getD_some]
  have hsnrValue : (fun p : PingRow => (snrByte p).map UInt8.toNat) =
      fun p => p.snrDb.map fun snr => (encodeSnr snr).toNat := by
    funext p
    rw [snrByte, Option.map_map]
    rfl
  rw [hsnrValue] at hsnrCode
  unfold Day.observation recorded
  rw [htime]
  simp only [Observation.mk.injEq, true_and]
  refine ⟨?_, hcode, ?_, ?_⟩
  · exact (if_neg (show ¬ (2 : Nat) = 1 by decide)).trans hstateCode
  · exact congrArg (fun code => codebook.getD (code - 1) 0) hcode
  · exact (if_pos rfl).trans hsnrCode

end ReadDay

/-! ### The observations of a day -/

/-- Nothing is said of a target in a round. -/
def Observation.blank (o : Observation) : Bool := o.state = 0 ∧ o.code = 0 ∧ o.snrCode = 0

/-- Where there is no result nothing is said. -/
theorem blank_recorded (db : Db) (t : TargetRow) (time : Nat) (h : ∀ p, ¬ IsResult db t time p) :
    (recorded db t time).blank = true := by
  have hnone : ∀ value : PingRow → Option Nat, lastOf db t time value = none := fun value =>
    lastOf_eq_none db t time value fun p hp => absurd hp (h p)
  rw [Observation.blank, decide_eq_true_eq, recorded, hnone, hnone, hnone]
  exact ⟨rfl, rfl, rfl⟩

/-- What says nothing counts for nothing. -/
theorem cellOf_filter_blank (os : List Observation) (rs : List RadioReading) :
    cellOf (os.filter fun o => !o.blank) rs = cellOf os rs := by
  have hstate : ∀ o : Observation, o.state ≠ 0 → o.blank = false := fun o h =>
    decide_eq_false fun hblank => h hblank.1
  have hcode : ∀ o : Observation, o.code ≠ 0 → o.blank = false := fun o h =>
    decide_eq_false fun hblank => h hblank.2.1
  have hsnr : ∀ o : Observation, o.snrCode ≠ 0 → o.blank = false := fun o h =>
    decide_eq_false fun hblank => h hblank.2.2
  have hfilter : ∀ p : Observation → Bool, (∀ o, p o = true → o.blank = false) →
      (os.filter fun o => !o.blank).filter p = os.filter p := by
    intro p hp
    rw [List.filter_filter]
    refine List.filter_congr fun o _ => ?_
    cases hpo : p o with
    | false => rfl
    | true => rw [hp o hpo]; rfl
  have hreplied : ∀ o : Observation, o.replied = true → o.blank = false := fun o h => by
    rw [Observation.replied, Bool.and_eq_true, decide_eq_true_eq] at h
    exact hcode o h.1
  have hassociated : ∀ o : Observation, decide (o.state = 1) = true → o.blank = false := fun o h =>
    hstate o fun hzero => absurd (hzero.symm.trans (of_decide_eq_true h)) (by decide)
  have hcount : ∀ p : Observation → Bool, (∀ o, p o = true → o.blank = false) →
      (os.filter fun o => !o.blank).countP p = os.countP p := by
    intro p hp
    rw [List.countP_eq_length_filter, List.countP_eq_length_filter, hfilter p hp]
  apply HistoryCell.ext
  · exact hcount _ fun o h => hcode o (of_decide_eq_true h)
  · exact hcount _ hreplied
  · exact congrArg (fun os => (os.map Observation.latency).sum) (hfilter _ hreplied)
  · exact congrArg (fun os => greatest (os.map Observation.latency)) (hfilter _ hreplied)
  · exact congrArg (fun os => (os.map fun o => Observation.snrCode o - 1).sum)
      (hfilter _ fun o h => hsnr o (of_decide_eq_true h))
  · exact hcount _ fun o h => hsnr o (of_decide_eq_true h)
  · exact congrArg (fun os => least 255 (os.map fun o => Observation.snrCode o - 1))
      (hfilter _ fun o h => hsnr o (of_decide_eq_true h))
  · exact hcount _ hassociated
  · exact congrArg (fun os => greatest (os.map Observation.timestamp)) (hfilter _ hassociated)
  · exact hcount _ fun o h => hstate o (of_decide_eq_true h)
  · rfl
  · rfl
  · rfl

theorem mem_resultTimes (db : Db) (t : TargetRow) (time : Nat) :
    time ∈ resultTimes db t ↔ ∃ p, IsResult db t time p := by
  rw [resultTimes, List.mem_dedup, List.mem_map]
  constructor
  · rintro ⟨p, hp, rfl⟩
    rw [List.mem_filter, decide_eq_true_eq] at hp
    exact ⟨p, hp.1, hp.2, rfl⟩
  · rintro ⟨p, hp, htarget, rfl⟩
    exact ⟨p, List.mem_filter.mpr ⟨hp, decide_eq_true htarget⟩, rfl⟩

theorem mem_resultsOf (db : Db) (mac : Bytes) (r : TargetRow × Nat) :
    r ∈ resultsOf db mac ↔
      r.1 ∈ db.target.rows ∧ (identity r.1).bind parseMac = some mac ∧ ∃ p, IsResult db r.1 r.2 p := by
  simp only [resultsOf, List.mem_flatMap, List.mem_filter, List.mem_map, decide_eq_true_eq,
    mem_resultTimes]
  constructor
  · rintro ⟨t, ⟨ht, hmac⟩, time, htime, rfl⟩
    exact ⟨ht, hmac, htime⟩
  · rintro ⟨ht, hmac, htime⟩
    exact ⟨r.1, ⟨ht, hmac⟩, r.2, htime, rfl⟩

theorem nodup_resultsOf (db : Db) (mac : Bytes) : (resultsOf db mac).Nodup := by
  refine List.nodup_flatMap.mpr ⟨fun t _ => ?_, ?_⟩
  · exact (List.nodup_dedup _).map fun a b h => (Prod.mk.inj h).2
  · refine (db.target.nodup.filter _).imp fun {t u} hne => ?_
    intro r ht hu
    rcases List.mem_map.mp ht with ⟨time, -, rfl⟩
    rcases List.mem_map.mp hu with ⟨time', -, heq⟩
    exact hne (Prod.mk.inj heq).1.symm

section Day

variable (db : Db) (start : Nat)
  (hdistinct : ∀ t u mac, HasMac db start t mac → HasMac db start u mac → t = u)

theorem hasMac_of_mem_resultsOf (mac : Bytes) (r : TargetRow × Nat) (hr : r ∈ resultsOf db mac)
    (hday : InDay start r.2) : HasMac db start r.1 mac := by
  rcases (mem_resultsOf db mac r).mp hr with ⟨hstored, hreads, p, hp, htarget, htime⟩
  exact ⟨hstored, ⟨p, hp, htarget, htime ▸ hday⟩, hreads⟩

/-- The sources of a MAC in a file. -/
theorem sources_perm (macs : List Bytes) (hnodup : macs.Nodup) (i : Nat) (mac : Bytes)
    (hi : macs[i]? = some mac) :
    ((List.range macs.length).filter fun source => macs[source]? = some mac).Perm [i] := by
  refine (List.perm_ext_iff_of_nodup (List.nodup_range.filter _) (List.nodup_singleton i)).mpr ?_
  intro source
  rw [List.mem_filter, List.mem_range, decide_eq_true_eq, List.mem_singleton]
  constructor
  · rintro ⟨hlt, hsource⟩
    exact (List.getElem?_inj hlt hnodup).mp (hsource.trans hi.symm)
  · rintro rfl
    exact ⟨(List.getElem?_eq_some_iff.mp hi).1, hi⟩

include hdistinct in
/-- The rounds of a day in which a target has results. -/
theorem rounds_perm (t : TargetRow) (mac : Bytes) (ht : HasMac db start t mac) :
    (((loadRounds db start).filter fun time => time ∈ resultTimes db t).map fun time =>
        (t, time)).Perm ((resultsOf db mac).filter fun r => InDay start r.2) := by
  have hrounds : (loadRounds db start).Nodup := (loadRounds_ascending db start).imp Nat.ne_of_lt
  refine (List.perm_ext_iff_of_nodup ((hrounds.filter _).map fun a b h => (Prod.mk.inj h).2)
    ((nodup_resultsOf db mac).filter _)).mpr ?_
  intro r
  rw [List.mem_map, List.mem_filter, decide_eq_true_eq, mem_resultsOf]
  constructor
  · rintro ⟨time, htime, rfl⟩
    rw [List.mem_filter, decide_eq_true_eq, mem_resultTimes] at htime
    exact ⟨⟨ht.stored, ht.reads, htime.2⟩, inDay_of_mem_loadRounds db start time htime.1⟩
  · rintro ⟨⟨hstored, hreads, p, hp⟩, hday⟩
    have hsame : r.1 = t := hdistinct r.1 t mac
      ⟨hstored, ⟨p, hp.1, hp.2.1, hp.2.2.symm ▸ hday⟩, hreads⟩ ht
    refine ⟨r.2, ?_, by rw [← hsame]⟩
    rw [List.mem_filter, decide_eq_true_eq, mem_resultTimes, mem_loadRounds]
    exact ⟨⟨⟨p, hp.1, hp.2.2⟩, hday⟩, p, hsame ▸ hp⟩

include hdistinct in
/-- What a file says of a device is what the database holds of it, beside
    rounds of which nothing is said. -/
theorem observationsOf_readDay (hfits : (dayLayout db start).tooBig = false) (mac : Bytes) :
    (((readDay db start).observationsOf (macText mac)).filter fun o => !o.blank).Perm
      ((((resultsOf db mac).filter fun r => InDay start r.2).map fun r =>
        recorded db r.1 r.2).filter fun o => !o.blank) := by
  have hlength : (readDay db start).targetCount = (readDay db start).macs.length :=
    (List.length_map _).symm
  by_cases hmac : ∃ t, HasMac db start t mac
  · rcases hmac with ⟨t, ht⟩
    have hnodup : (readDay db start).macs.Nodup :=
      (texts_nodup_iff _ (db.target.nodup.filter _) identity).mpr fun t ht u hu mac htm hum => by
        rw [List.mem_filter, decide_eq_true_eq] at ht hu
        exact hdistinct t u mac ⟨ht.1, ht.2, htm⟩ ⟨hu.1, hu.2, hum⟩
    rcases List.getElem?_of_mem ((mem_macs_readDay db start (macText mac)).mpr ⟨t, mac, ht, rfl⟩)
      with ⟨i, hi⟩
    -- Every round of the day is read as it was recorded.
    have hrounds : (List.range (readDay db start).roundCount).map ((readDay db start).observation i) =
        (loadRounds db start).map (recorded db t) := by
      refine List.ext_getElem (by rw [List.length_map, List.length_map, List.length_range]; rfl) ?_
      intro j hj hj'
      rw [List.length_map] at hj'
      rw [List.getElem_map, List.getElem_map, List.getElem_range]
      exact observation_readDay db start hdistinct hfits i j t _
        ⟨⟨mac, ht, hi⟩, List.getElem?_eq_getElem hj'⟩
    have hread : ((readDay db start).observationsOf (macText mac)).Perm
        ((loadRounds db start).map (recorded db t)) := by
      rw [Day.observationsOf, hlength, ← hrounds]
      refine ((sources_perm _ hnodup i (macText mac) hi).flatMap_right _).trans ?_
      rw [List.flatMap_singleton]
    -- The rounds without a result of the target say nothing.
    have hblank : ((loadRounds db start).map (recorded db t)).filter (fun o => !o.blank) =
        ((((loadRounds db start).filter fun time => time ∈ resultTimes db t).map fun time =>
          (t, time)).map fun r => recorded db r.1 r.2).filter fun o => !o.blank := by
      rw [List.map_map]
      simp only [Function.comp_def]
      rw [List.filter_map, List.filter_map, List.filter_filter]
      congr 1
      refine List.filter_congr fun time _ => ?_
      by_cases hresult : ∃ p, IsResult db t time p
      · rw [decide_eq_true ((mem_resultTimes db t time).mpr hresult), Bool.and_true]
      · have hnone := blank_recorded db t time fun p hp => hresult ⟨p, hp⟩
        simp only [Function.comp_apply, hnone, Bool.not_true, Bool.false_and]
    refine (hread.filter _).trans ?_
    rw [hblank]
    exact ((rounds_perm db start hdistinct t mac ht).map _).filter _
  · -- The device is not in the file, and it has no results in the day.
    have hsources : ((List.range (readDay db start).targetCount).filter fun source =>
        (readDay db start).macs[source]? = some (macText mac)) = [] := by
      rw [List.filter_eq_nil_iff]
      intro source _ hsource
      rw [decide_eq_true_eq] at hsource
      rcases (mem_macs_readDay db start (macText mac)).mp (List.mem_of_getElem? hsource) with
        ⟨t, other, ht, htext⟩
      exact hmac ⟨t, macText_injective _ _ htext ▸ ht⟩
    have hresults : ((resultsOf db mac).filter fun r => InDay start r.2) = [] := by
      rw [List.filter_eq_nil_iff]
      intro r hr hday
      rw [decide_eq_true_eq] at hday
      exact hmac ⟨r.1, hasMac_of_mem_resultsOf db start mac r hr hday⟩
    rw [Day.observationsOf, hsources, hresults]
    exact List.Perm.refl _

end Day

/-! ### What the page asks for -/

/-- The job of a load, with the bucket and the window of a range. -/
def pageJob (hours : Hours) (timePage now : Nat) (targetMacs : List Bytes) (band : String) :
    HistoryJob where
  targetMacs := targetMacs
  rangeStart := windowStart (range hours) timePage now
  rangeEnd := windowStart (range hours) timePage now + (range hours).seconds
  bucketSeconds := (range hours).bucket
  band := band

/-- `manifest.periods.filter(file=>file.end>resultStart&&file.start<end)`, on
    the days of a manifest. -/
def shownDays (job : HistoryJob) (starts : List Nat) : List Nat :=
  starts.filter fun start => job.rangeStart < (start + 86400 : Nat) ∧ (start : Int) < job.rangeEnd

/-- A bucket fits a day, and it fits the window. -/
theorem range_fits (hours : Hours) :
    0 < (range hours).bucket ∧ (range hours).bucket ∣ 86400 ∧ (range hours).bucket ≤ 21600 ∧
      (range hours).bucket ∣ (range hours).seconds := by
  cases hours <;> decide

theorem windowStart_dvd (hours : Hours) (timePage now : Nat) :
    ((range hours).bucket : Int) ∣ windowStart (range hours) timePage now := by
  have hseconds := Int.natCast_dvd_natCast.mpr (range_fits hours).2.2.2
  exact Int.dvd_sub (Int.dvd_mul_left _ _) (Dvd.dvd.mul_left hseconds _)

theorem buckets_pageJob (hours : Hours) (timePage now : Nat) (targetMacs : List Bytes)
    (band : String) : (pageJob hours timePage now targetMacs band).buckets =
      ((range hours).seconds / (range hours).bucket : Nat) := by
  have hseconds := Int.natCast_dvd_natCast.mpr (range_fits hours).2.2.2
  have hneg : (pageJob hours timePage now targetMacs band).rangeStart -
      (pageJob hours timePage now targetMacs band).rangeEnd = -((range hours).seconds : Int) := by
    simp only [pageJob]
    omega
  rw [HistoryJob.buckets, hneg]
  show -(-((range hours).seconds : Int) / ((range hours).bucket : Int)) = _
  rw [Int.neg_ediv_of_dvd hseconds, Int.neg_neg]
  rfl

/-! ### The answer -/

section Answer

variable (db : Db) (starts : List Nat)
  (hexported : ∀ start ∈ starts, AcceptedDay start ∧ start + 86400 < 2 ^ 32 ∧
    (exportDay db start).exit = 0)
  (hdistinct : ∀ start ∈ starts, ∀ t u mac,
    HasMac db start t mac → HasMac db start u mac → t = u)

include hexported hdistinct

/-- A day that was exported is read. -/
theorem parseDay_exported (start : Nat) (hstart : start ∈ starts) :
    (exportDay db start).output.length < 2 ^ 53 ∧
      parseDay (exportDay db start).output = .ok (readDay db start) := by
  rcases hexported start hstart with ⟨hday, hend, hexit⟩
  rcases exportDay_exit_zero db start hexit with ⟨hfits, houtput⟩
  rw [houtput, length_dayBytes, parseDay_dayBytes_iff db start hday.1 hfits]
  exact ⟨Nat.lt_trans (fits_of_not_tooBig _ hfits).2.2.2.2.2.2.2.2 (by decide),
    Nat.mod_eq_of_lt hend, rfl, (macs_of_day_iff db start).mpr (hdistinct start hstart)⟩

theorem exists_files : ∃ files : List ArrayBuffer,
    files.map ArrayBuffer.bytes = starts.map (fun start => (exportDay db start).output) ∧
      files.mapM (fun file => parseDay file.bytes) = .ok (starts.map (readDay db)) := by
  have hread := parseDay_exported db starts hexported hdistinct
  clear hexported hdistinct
  induction starts with
  | nil => exact ⟨[], rfl, rfl⟩
  | cons start rest ih =>
      rcases ih fun s hs => hread s (List.mem_cons_of_mem _ hs) with ⟨files, hbytes, hparse⟩
      rcases hread start List.mem_cons_self with ⟨hlength, hday⟩
      refine ⟨⟨(exportDay db start).output, hlength⟩ :: files, ?_, ?_⟩
      · rw [List.map_cons, List.map_cons, hbytes]
      · rw [mapM_ok_iff] at hparse ⊢
        exact .cons hday hparse

/-- What the files say of a device in a bucket is what the database holds,
    beside rounds of which nothing is said. -/
theorem observations_perm (job : HistoryJob) (hnodup : starts.Nodup) (mac : Bytes) (b : Nat)
    (hcomplete : ∀ p ∈ db.pingResult.rows, job.inBucket b p.observedAt = true →
      ∃ start ∈ starts, InDay start p.observedAt) :
    ((job.observations (starts.map (readDay db)) (macText mac) b).filter fun o => !o.blank).Perm
      ((recordedIn db job mac b).filter fun o => !o.blank) := by
  have hdays : (starts.flatMap fun start =>
        ((readDay db start).observationsOf (macText mac)).filter fun o => !o.blank).Perm
      (starts.flatMap fun start => (((resultsOf db mac).filter fun r => InDay start r.2).map fun r =>
        recorded db r.1 r.2).filter fun o => !o.blank) := by
    refine List.Perm.flatMap_left _ fun start hstart => ?_
    exact observationsOf_readDay db start (hdistinct start hstart)
      (exportDay_exit_zero db start (hexported start hstart).2.2).1 mac
  -- A result of the bucket is in one of the days, and in no other.
  have hresults : ((starts.flatMap fun start =>
        (resultsOf db mac).filter fun r => InDay start r.2).filter fun r => job.inBucket b r.2).Perm
      ((resultsOf db mac).filter fun r => job.inBucket b r.2) := by
    refine (List.perm_ext_iff_of_nodup (List.Nodup.filter _ ?_)
      ((nodup_resultsOf db mac).filter _)).mpr fun r => ?_
    · refine List.nodup_flatMap.mpr ⟨fun start _ => (nodup_resultsOf db mac).filter _, ?_⟩
      refine hnodup.imp_of_mem fun {s s'} hs hs' hne => ?_
      intro r hr hr'
      rw [List.mem_filter, decide_eq_true_eq] at hr hr'
      rcases hexported s hs with ⟨⟨-, hmidnight⟩, hend, -⟩
      rcases hexported s' hs' with ⟨⟨-, hmidnight'⟩, hend', -⟩
      rcases hr.2 with ⟨hlow, hhigh⟩
      rcases hr'.2 with ⟨hlow', hhigh'⟩
      rw [dayEnd, Nat.mod_eq_of_lt hend] at hhigh
      rw [dayEnd, Nat.mod_eq_of_lt hend'] at hhigh'
      omega
    · rw [List.mem_filter, List.mem_filter, List.mem_flatMap]
      constructor
      · rintro ⟨⟨start, -, hr⟩, hbucket⟩
        exact ⟨(List.mem_filter.mp hr).1, hbucket⟩
      · rintro ⟨hr, hbucket⟩
        rcases (mem_resultsOf db mac r).mp hr with ⟨-, -, p, hp, -, htime⟩
        rcases hcomplete p hp (htime.symm ▸ hbucket) with ⟨start, hstart, hday⟩
        exact ⟨⟨start, hstart, List.mem_filter.mpr ⟨hr, decide_eq_true (htime ▸ hday)⟩⟩, hbucket⟩
  have hswap : ∀ os : List Observation, (os.filter fun o => job.inBucket b o.timestamp).filter
        (fun o => !o.blank) =
      (os.filter fun o => !o.blank).filter fun o => job.inBucket b o.timestamp := by
    intro os
    rw [List.filter_filter, List.filter_filter]
    exact List.filter_congr fun o _ => Bool.and_comm _ _
  rw [HistoryJob.observations, List.flatMap_map, hswap, List.filter_flatMap]
  refine (hdays.filter _).trans ?_
  rw [← List.filter_flatMap, ← hswap, ← List.map_flatMap, List.filter_map]
  exact (hresults.map _).filter _

end Answer

end Zd1200
