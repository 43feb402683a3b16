import Zd1200.Monitor.Tick

/-!
# A Round Is All or Nothing

What a round leaves in the table of results, for every database and whatever
it meets.

A round that succeeds has written one result for each target that was enabled
when the targets had been brought in line, and no other. What such a result may
say is checked by the table, and no check ever fails. A round that does not
succeed has written nothing and deleted nothing.

## Main definitions

* `WellFormed`: What a result says of its target.
* `AllOrNothing`: What is expected of a round.

## Theorems

* `insertResults_isSome`: No check of the table fails.
* `writeRound_allOrNothing`: The second transaction.
* `tick_allOrNothing`: A round.
-/

namespace Zd1200

/-- A client that is none of a view's. -/
def AbsentFrom (view : ClientView) (t : TargetRow) : Prop :=
  t.kind = .client ∧ ∀ mac, t.clientMac = some mac → ∀ c ∈ view.items, ¬ SameMac mac c.mac

/-- What a result of a round says of its target. -/
structure WellFormed (env : TickEnv) (t : TargetRow) (p : PingRow) : Prop where
  observedAt : p.observedAt = env.now
  bounds : 0 ≤ p.rttMs ∧ p.rttMs ≤ 1000
  responded : p.responded = true ↔ p.state = .ok
  timeout : p.responded = false → p.rttMs = 1000
  notAssociated : p.state = .notAssociated → env.view.valid = true ∧ AbsentFrom env.view t
  unknown : p.state = .unknown →
    (t.kind = .client ∧ env.view.valid = false) ∨ inetPton t.ip = none

/-- What is expected of a round. -/
structure AllOrNothing (env : TickEnv) (db : Db) : Prop where
  /-- No check of the table can fail. -/
  accepted : ∀ synced, syncTargets env db = some synced →
    ((env.measurements synced).map (resultRow env.now)).foldlM ResultTable.insert
      synced.pingResult ≠ none
  /-- One new result for every target that is enabled, and no other. -/
  success : (tick env db).2 = 0 → ∃ synced, syncTargets env db = some synced ∧
    (∀ t ∈ synced.target.rows, t.enabled = true →
      ∃! p, NewResult db (tick env db).1 p ∧ p.targetId = t.id) ∧
    ∀ p, NewResult db (tick env db).1 p →
      ∃ t ∈ synced.target.rows, t.enabled = true ∧ t.id = p.targetId ∧ WellFormed env t p
  /-- No new result or sample, and none is deleted. -/
  failure : (tick env db).2 ≠ 0 → (∀ p, ¬ NewResult db (tick env db).1 p) ∧
    (∀ p ∈ db.pingResult.rows, ∃ q ∈ (tick env db).1.pingResult.rows,
      q = { p with targetId := q.targetId }) ∧
    (tick env db).1.apRadioSample = db.apRadioSample ∧
    (tick env db).1.meshLinkSample = db.meshLinkSample

/-! ### Measurements -/

/-- What a measurement says of its target, after it has been probed. -/
structure Measured (env : TickEnv) (t : TargetRow) (item : Measurement) : Prop where
  id : item.id = t.id
  bounds : 0 ≤ item.rttMs ∧ item.rttMs ≤ 1000
  responded : item.responded = true ↔ item.state = .ok
  timeout : item.responded = false → item.rttMs = 1000
  notAssociated : item.state = .notAssociated →
    t.kind = .client ∧ env.view.valid = true ∧ clientPresent env.view t.clientMac = false
  unknown : item.state = .unknown →
    (t.kind = .client ∧ env.view.valid = false) ∨ inetPton t.ip = none

-- What a measurement is before: unanswered, and unknown or absent for a reason.
theorem measured_measurementOf (env : TickEnv) (t : TargetRow) :
    Measured env t (measurementOf env.view t) ∧
      (measurementOf env.view t).responded = false ∧
        (measurementOf env.view t).rttMs = 1000 := by
  have hcases : (measurementOf env.view t).responded = false ∧
      (measurementOf env.view t).rttMs = 1000 ∧ (measurementOf env.view t).state ≠ .ok ∧
        ((measurementOf env.view t).state = .unknown →
          (t.kind = .client ∧ env.view.valid = false) ∨ inetPton t.ip = none) := by
    -- One case for each branch: no view, absent, an address, none.
    unfold measurementOf
    simp only
    split
    · next hinvalid =>
      exact ⟨rfl, rfl, by simp only [ne_eq, reduceCtorEq, not_false_eq_true],
        fun _ => .inl hinvalid⟩
    · split
      · exact ⟨rfl, rfl, by simp only [ne_eq, reduceCtorEq, not_false_eq_true],
          fun habs => absurd habs (by simp only [reduceCtorEq, not_false_eq_true])⟩
      · split
        · exact ⟨rfl, rfl, by simp only [ne_eq, reduceCtorEq, not_false_eq_true],
            fun habs => absurd habs (by simp only [reduceCtorEq, not_false_eq_true])⟩
        · next hnone =>
          exact ⟨rfl, rfl, by simp only [ne_eq, reduceCtorEq, not_false_eq_true],
            fun _ => .inr hnone⟩
  rcases hcases with ⟨hresponded, hrtt, hstate, hunknown⟩
  refine ⟨⟨measurementOf_id _ _, by rw [hrtt]; decide, ?_, fun _ => hrtt,
    (measurementOf_notAssociated_iff _ _).mp, hunknown⟩, hresponded, hrtt⟩
  rw [hresponded]
  exact ⟨fun habs => absurd habs Bool.false_ne_true, fun habs => absurd habs hstate⟩

/-- Probing keeps that, whatever it comes to. -/
theorem measured_pingOutcome (env : TickEnv) (t : TargetRow) (reply : Option Int)
    (item : Measurement) (h : Measured env t item) (hunanswered : item.responded = false) :
    Measured env t (pingOutcome reply item) := by
  unfold pingOutcome
  split
  · cases reply with
    | none =>
        refine ⟨h.id, by simp only [timeoutMs]; decide, ?_, fun _ => rfl, fun habs => ?_,
          fun habs => ?_⟩
        · rw [hunanswered]
          simp only [Bool.false_eq_true, reduceCtorEq]
        · exact absurd habs (by simp only [reduceCtorEq, not_false_eq_true])
        · exact absurd habs (by simp only [reduceCtorEq, not_false_eq_true])
    | some elapsed =>
        refine ⟨h.id, ⟨Int.le_max_left _ _, ?_⟩, ⟨fun _ => rfl, fun _ => rfl⟩, fun habs => ?_,
          fun habs => ?_, fun habs => ?_⟩
        · simp only [timeoutMs]
          omega
        · exact absurd habs (by simp only [Bool.true_eq_false, not_false_eq_true])
        · exact absurd habs (by simp only [reduceCtorEq, not_false_eq_true])
        · exact absurd habs (by simp only [reduceCtorEq, not_false_eq_true])
  · exact h

/-- A round's measurements are those of the targets that are enabled. -/
theorem measured_of_mem (env : TickEnv) (db : Db) (item : Measurement)
    (h : item ∈ env.measurements db) :
    ∃ t ∈ db.target.rows, t.enabled = true ∧ Measured env t item := by
  rcases List.mem_mapIdx.mp h with ⟨i, hi, rfl⟩
  rcases (mem_loadMeasurements _ _ _).mp (List.getElem_mem hi) with ⟨t, ht, henabled, heq⟩
  rcases measured_measurementOf env t with ⟨hmeasured, hresponded, -⟩
  rw [heq]
  exact ⟨t, ht, henabled, measured_pingOutcome env t _ _ hmeasured hresponded⟩

/-- Every target that is enabled has its measurement. -/
theorem exists_measurement (env : TickEnv) (db : Db) (t : TargetRow) (ht : t ∈ db.target.rows)
    (henabled : t.enabled = true) : ∃ item ∈ env.measurements db, item.id = t.id := by
  have hmem := (mem_loadMeasurements db.target env.view _).mpr ⟨t, ht, henabled, rfl⟩
  rcases List.getElem_of_mem hmem with ⟨i, hi, heq⟩
  refine ⟨pingOutcome (env.replies i) (loadMeasurements db.target env.view)[i],
    List.mem_mapIdx.mpr ⟨i, hi, rfl⟩, ?_⟩
  rw [pingOutcome_id, heq, measurementOf_id]

/-- No target has two. -/
theorem nodup_measurements (env : TickEnv) (db : Db) :
    ((env.measurements db).map Measurement.id).Nodup := by
  have hids : (env.measurements db).map Measurement.id =
      (orderBy TargetRow.id (db.target.rows.filter TargetRow.enabled)).map TargetRow.id := by
    refine List.ext_getElem? fun i => ?_
    simp only [TickEnv.measurements, parallelPing, loadMeasurements, List.getElem?_map,
      List.getElem?_mapIdx, Option.map_map, Function.comp_def, pingOutcome_id, measurementOf_id]
  -- And the numbers of the targets are a key.
  rw [hids]
  have hperm := (List.perm_insertionSort (fun a b : TargetRow => a.id ≤ b.id)
    (db.target.rows.filter TargetRow.enabled)).map TargetRow.id
  exact hperm.nodup_iff.mpr ((List.filter_sublist.map _).nodup db.target.key)

/-! ### Results -/

/-- No check of the table fails on rows that keep its bounds. -/
theorem insertResults_isSome (rows : List PingRow) (table : ResultTable)
    (h : ∀ p ∈ rows, 0 ≤ p.rttMs ∧ p.rttMs ≤ 1000) :
    rows.foldlM ResultTable.insert table ≠ none := by
  induction rows generalizing table with
  | nil => exact Option.some_ne_none _
  | cons row rest ih =>
      rw [List.foldlM_cons, ResultTable.insert, if_pos (h row List.mem_cons_self)]
      exact ih _ fun p hp => h p (List.mem_cons_of_mem _ hp)

/-- The new results of the second transaction, in the order of the
    measurements. -/
theorem newResult_iff (env : TickEnv) (db db' : Db) (h : writeRound env db = some db') :
    ∃ ids : List Nat, ids.length = (env.measurements db).length ∧
      ∀ p, NewResult db db' p ↔
        p ∈ List.zipWith (fun i q => { q with id := i }) ids
          ((env.measurements db).map (resultRow env.now)) := by
  rcases writeRound_cases env db db' h with ⟨table, detailed, htable, hdetailed, rfl⟩
  rcases insertResults _ _ _ htable with ⟨ids, hlength, hfresh, hrows⟩
  have hdetail := (ingestApDetail_changes _ _ _ _ hdetailed).pingResult
  refine ⟨ids, hlength.trans (List.length_map _), fun p => ⟨fun hp => ?_, fun hp => ?_⟩⟩
  · have hmem := (List.mem_filter.mp hp.1).1
    rw [hdetail, hrows, List.mem_append] at hmem
    exact hmem.resolve_left fun hold => hp.2 p hold rfl
  · rcases List.mem_iff_getElem?.mp hp with ⟨k, hk⟩
    rcases List.getElem?_zipWith_eq_some.mp hk with ⟨i, row, hi, hrow, rfl⟩
    rw [List.getElem?_map, Option.map_eq_some_iff] at hrow
    rcases hrow with ⟨item, -, rfl⟩
    -- A row of this round is not old enough to be deleted.
    refine ⟨List.mem_filter.mpr ⟨?_, decide_eq_true (Nat.le_add_right _ _)⟩, fun q hq =>
      (hfresh i (List.mem_of_getElem? hi) q hq).ne⟩
    rw [hdetail, hrows]
    exact List.mem_append_right _ hp

/-- The second transaction writes one result for each target that is
    enabled. -/
theorem writeRound_allOrNothing (env : TickEnv) (db db' : Db)
    (h : writeRound env db = some db') :
    (∀ t ∈ db.target.rows, t.enabled = true → ∃! p, NewResult db db' p ∧ p.targetId = t.id) ∧
      ∀ p, NewResult db db' p →
        ∃ t ∈ db.target.rows, t.enabled = true ∧ t.id = p.targetId ∧ WellFormed env t p := by
  rcases newResult_iff env db db' h with ⟨ids, hlength, hnew⟩
  -- A new result and its measurement are at the same position.
  have hat : ∀ p, NewResult db db' p → ∃ (k : Nat) (i : Nat) (item : Measurement),
      ids[k]? = some i ∧ (env.measurements db)[k]? = some item ∧
        p = { resultRow env.now item with id := i } := by
    intro p hp
    rcases List.mem_iff_getElem?.mp ((hnew p).mp hp) with ⟨k, hk⟩
    rcases List.getElem?_zipWith_eq_some.mp hk with ⟨i, row, hi, hrow, rfl⟩
    rw [List.getElem?_map, Option.map_eq_some_iff] at hrow
    rcases hrow with ⟨item, hitem, rfl⟩
    exact ⟨k, i, item, hi, hitem, rfl⟩
  constructor
  · intro t ht henabled
    rcases exists_measurement env db t ht henabled with ⟨item, hitem, hid⟩
    rcases List.mem_iff_getElem?.mp hitem with ⟨k, hk⟩
    have hlt : k < ids.length := by
      rw [hlength]
      exact (List.getElem?_eq_some_iff.mp hk).1
    refine ⟨{ resultRow env.now item with id := ids[k] }, ⟨(hnew _).mpr ?_, hid⟩, ?_⟩
    · refine List.mem_iff_getElem?.mpr ⟨k, List.getElem?_zipWith_eq_some.mpr
        ⟨ids[k], resultRow env.now item, List.getElem?_eq_getElem hlt, ?_, rfl⟩⟩
      rw [List.getElem?_map, hk, Option.map_some]
    · -- Another one for this target is at the same position.
      rintro q ⟨hq, howner⟩
      rcases hat q hq with ⟨l, i, other, hi, hother, rfl⟩
      have hsame : l = k := by
        refine (List.getElem?_inj ?_ (nodup_measurements env db)).mp ?_
        · rw [List.length_map]
          exact (List.getElem?_eq_some_iff.mp hother).1
        · rw [List.getElem?_map, List.getElem?_map, hother, hk, Option.map_some, Option.map_some]
          exact congrArg some (howner.trans hid.symm)
      rw [hsame] at hi hother
      rw [hk, Option.some.injEq] at hother
      rw [List.getElem?_eq_getElem hlt, Option.some.injEq] at hi
      rw [← hother, ← hi]
  · intro p hp
    rcases hat p hp with ⟨k, i, item, -, hitem, rfl⟩
    rcases measured_of_mem env db item (List.mem_of_getElem? hitem) with
      ⟨t, ht, henabled, hmeasured⟩
    refine ⟨t, ht, henabled, hmeasured.id.symm, rfl, hmeasured.bounds, hmeasured.responded,
      hmeasured.timeout, fun hstate => ?_, hmeasured.unknown⟩
    rcases hmeasured.notAssociated hstate with ⟨hkind, hvalid, habsent⟩
    refine ⟨hvalid, hkind, fun mac hmac c hc hsame => ?_⟩
    rw [hmac, (clientPresent_iff env.view (parseClientView_sorted _ _) mac).mpr ⟨c, hc, hsame⟩]
      at habsent
    exact absurd habsent (by decide)

/-! ### Rounds -/

-- What a round that failed leaves, with its first transaction or without.
theorem nothing_of_synced (env : TickEnv) (db synced : Db) (h : syncTargets env db = some synced) :
    (∀ p, ¬ NewResult db synced p) ∧
      (∀ p ∈ db.pingResult.rows, ∃ q ∈ synced.pingResult.rows,
        q = { p with targetId := q.targetId }) ∧
      synced.apRadioSample = db.apRadioSample ∧ synced.meshLinkSample = db.meshLinkSample := by
  refine ⟨syncTargets_no_new env db synced h, fun p hp => ?_, ?_⟩
  · rcases syncTargets_pingResult env db synced h with ⟨owner, howner⟩
    rw [howner]
    exact ⟨_, List.mem_map_of_mem hp, rfl⟩
  · rcases syncTargets_cases env db synced h with ⟨merged, hmerged, rfl⟩
    have hmerge := mergeLegacyAps_merged _ _ _ hmerged
    exact ⟨hmerge.apRadioSample, hmerge.meshLinkSample⟩

/-- A round that succeeds has written one well-formed result for each target
    that is enabled. -/
theorem tick_success (env : TickEnv) (db : Db) (hok : (tick env db).2 = 0) :
    ∃ synced, syncTargets env db = some synced ∧
      (∀ t ∈ synced.target.rows, t.enabled = true →
        ∃! p, NewResult db (tick env db).1 p ∧ p.targetId = t.id) ∧
      ∀ p, NewResult db (tick env db).1 p →
        ∃ t ∈ synced.target.rows, t.enabled = true ∧ t.id = p.targetId ∧ WellFormed env t p := by
  rcases tick_cases env db with heq | ⟨synced, hsync, heq | ⟨written, hwrite, heq⟩⟩
  · rw [heq] at hok
    exact absurd hok (by simp only [Nat.one_ne_zero, not_false_eq_true])
  · rw [heq] at hok
    exact absurd hok (by simp only [Nat.one_ne_zero, not_false_eq_true])
  · refine ⟨synced, hsync, ?_⟩
    rw [heq]
    simp only [newResult_of_synced env db synced written hsync]
    exact writeRound_allOrNothing env synced written hwrite

/-- A round writes one well-formed result for each target that is enabled, or
    nothing. -/
theorem tick_allOrNothing (env : TickEnv) (db : Db) : AllOrNothing env db := by
  refine ⟨fun synced _ => insertResults_isSome _ _ fun p hp => ?_, tick_success env db,
    fun hfails => ?_⟩
  · rcases List.mem_map.mp hp with ⟨item, hitem, rfl⟩
    rcases measured_of_mem env synced item hitem with ⟨t, -, -, hmeasured⟩
    exact hmeasured.bounds
  · rcases tick_cases env db with heq | ⟨synced, hsync, heq | ⟨written, hwrite, heq⟩⟩
    · rw [heq]
      exact ⟨fun p hp => hp.2 p hp.1 rfl, fun p hp => ⟨p, hp, rfl⟩, rfl, rfl⟩
    · rw [heq]
      exact nothing_of_synced env db synced hsync
    · rw [heq] at hfails
      exact absurd rfl hfails

end Zd1200
