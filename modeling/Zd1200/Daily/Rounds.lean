import Zd1200.Export.Unchanged
import Zd1200.Monitor.Settled

/-!
# Rounds and the Days Before

What a command of the monitor leaves of a day, and so of its export.

In a settled database a round changes nothing of a day that it leaves no row
in, as long as no row of the day is old enough to be deleted. The targets
that it adds have no results in the day, because a result belongs to a target
that was there before it.

## Main definitions

* `Recorded`: There is a row of a round.

## Theorems

* `sameDay_of_rows`: Agreement on the rows is agreement on the day.
* `tick_sameDay`: A round that leaves no row in a day.
* `onlyTargets_sameDay`: The other commands.
-/

namespace Zd1200

/-- There is a row of a round. -/
def Recorded (now : Nat) (db : Db) : Prop :=
  (∃ p ∈ db.pingResult.rows, p.observedAt = now) ∨ (∃ r ∈ db.apRadioSample, r.observedAt = now) ∨
    ∃ m ∈ db.meshLinkSample, m.observedAt = now

/-- Agreement on the rows is agreement on the day: the targets with results
    are old ones. -/
theorem sameDay_of_rows (db db' : Db) (start : Nat) (hdb : Settled db)
    (hgrows : db.target.Grows db'.target)
    (hresults : (db'.pingResult.rows.filter fun p => InDay start p.observedAt)
      = db.pingResult.rows.filter fun p => InDay start p.observedAt)
    (hradios : (db'.apRadioSample.filter fun r => InDay start r.observedAt)
      = db.apRadioSample.filter fun r => InDay start r.observedAt)
    (hmeshes : (db'.meshLinkSample.filter fun m => InDay start m.observedAt)
      = db.meshLinkSample.filter fun m => InDay start m.observedAt) : SameDay db db' start := by
  refine ⟨hresults, hradios, hmeshes, ?_⟩
  -- Having a result in the day is a question of the number and those rows.
  let has (key : Nat × Kind × Option Bytes × Option Bytes) : Bool :=
    (db.pingResult.rows.filter fun p => InDay start p.observedAt).any fun p => p.targetId = key.1
  have hmem : ∀ d : Db, ∀ t : TargetRow, decide (HasResult d start t) =
      (d.pingResult.rows.filter fun p => InDay start p.observedAt).any
        fun p => p.targetId = t.id := by
    intro d t
    rw [Bool.eq_iff_iff, decide_eq_true_eq, List.any_eq_true]
    simp only [List.mem_filter, decide_eq_true_eq]
    constructor
    · rintro ⟨p, hp, hid, hday⟩
      exact ⟨p, ⟨hp, hday⟩, hid⟩
    · rintro ⟨p, ⟨hp, hday⟩, hid⟩
      exact ⟨p, hp, hid, hday⟩
  -- So what identifies the targets of a day is a filtered list of keys.
  have hkeys : ∀ d : Db, (d.pingResult.rows.filter fun p => InDay start p.observedAt)
        = (db.pingResult.rows.filter fun p => InDay start p.observedAt) →
      (d.target.rows.filter fun t => HasResult d start t).map TargetRow.ident
        = (d.target.rows.map TargetRow.ident).filter has := by
    intro d hd
    rw [List.filter_map]
    refine congrArg _ (List.filter_congr fun t _ => ?_)
    rw [hmem, hd]
    rfl
  rw [hkeys db' hresults, hkeys db rfl]
  rcases hgrows with ⟨added, hadded⟩
  -- A target that was added has no result, for every result has its owner already.
  have hnone : added.filter has = [] := by
    refine List.filter_eq_nil_iff.mpr fun key hkey hhas => ?_
    rcases List.any_eq_true.mp hhas with ⟨p, hp, hid⟩
    rw [decide_eq_true_eq] at hid
    rcases hdb.owned p (List.mem_filter.mp hp).1 with ⟨t, ht, htid⟩
    have hids : (db.target.rows.map TargetRow.id ++ added.map Prod.fst).Nodup := by
      have := db'.target.key
      rw [show TargetRow.id = Prod.fst ∘ TargetRow.ident from rfl, ← List.map_map, ← hadded,
        List.map_append, List.map_map] at this
      exact this
    rw [List.nodup_append] at hids
    exact hids.2.2 t.id (List.mem_map_of_mem ht) key.1 (List.mem_map_of_mem hkey)
      (htid.trans hid)
  rw [← hadded, List.filter_append, hnone, List.append_nil]

/-- The rows of a day after a round that leaves none in it. -/
theorem filter_of_round {α : Type} (time : α → Nat) (old detailed : List α) (start now : Nat)
    (hretained : now ≤ start + retentionSeconds)
    (hsame : (detailed.filter fun r => time r ≠ now) = old.filter fun r => time r ≠ now)
    (hdetailed : ∀ r ∈ detailed, InDay start (time r) → time r ≠ now)
    (hold : ∀ r ∈ old, InDay start (time r) → time r ≠ now) :
    ((detailed.filter fun r => now ≤ time r + retentionSeconds).filter
        fun r => InDay start (time r)) = old.filter fun r => InDay start (time r) := by
  -- Leaving out the round is leaving out nothing of the day.
  have hother : ∀ rows : List α, (∀ r ∈ rows, InDay start (time r) → time r ≠ now) →
      (rows.filter fun r => InDay start (time r))
        = (rows.filter fun r => time r ≠ now).filter fun r => InDay start (time r) := by
    intro rows hrows
    rw [List.filter_filter]
    refine List.filter_congr fun r hr => ?_
    rw [← Bool.decide_and, decide_eq_decide]
    exact ⟨fun h => ⟨h, hrows r hr h⟩, fun h => h.1⟩
  -- Pruning takes no row of a day that is retained.
  have hkept : ((detailed.filter fun r => now ≤ time r + retentionSeconds).filter
      fun r => InDay start (time r)) = detailed.filter fun r => InDay start (time r) := by
    rw [List.filter_filter]
    refine List.filter_congr fun r _ => ?_
    rw [← Bool.decide_and, decide_eq_decide]
    exact ⟨fun h => h.1, fun h => ⟨h, by have := h.1; omega⟩⟩
  rw [hkept, hother detailed hdetailed, hother old hold, hsame]

/-- The second transaction of a round that leaves no row in a day. -/
theorem writeRound_sameDay (now : Nat) (db db' : Db) (start : Nat) (hdb : Settled db)
    (hwritten : RoundWritten now db db') (hretained : now ≤ start + retentionSeconds)
    (hother : InDay start now → ¬ Recorded now db') : SameDay db db' start := by
  rcases hwritten.detail with ⟨detailed, honly, hradio, hmesh⟩
  rcases hwritten.pingResult with ⟨new, hnew, hrows⟩
  have hstays : now ≤ now + retentionSeconds := Nat.le_add_right _ _
  -- No row of the round falls into the day, before or after.
  have hradios : ∀ r ∈ detailed.apRadioSample, InDay start r.observedAt → r.observedAt ≠ now := by
    rintro r hr hday rfl
    refine hother hday (Or.inr (Or.inl ⟨r, ?_, rfl⟩))
    rw [hradio, List.mem_filter, decide_eq_true_eq]
    exact ⟨hr, hstays⟩
  have hmeshes : ∀ m ∈ detailed.meshLinkSample, InDay start m.observedAt → m.observedAt ≠ now := by
    rintro m hm hday rfl
    refine hother hday (Or.inr (Or.inr ⟨m, ?_, rfl⟩))
    rw [hmesh, List.mem_filter, decide_eq_true_eq]
    exact ⟨hm, hstays⟩
  refine sameDay_of_rows db db' start hdb ?_ ?_ ?_ ?_
  · rw [hwritten.target]
    exact TargetTable.Grows.refl _
  · -- No new result is of the day.
    have hnone : new.filter (fun p => InDay start p.observedAt) = [] := by
      refine List.filter_eq_nil_iff.mpr fun p hp hday => ?_
      rw [decide_eq_true_eq, (hnew p hp).1] at hday
      refine hother hday (Or.inl ⟨p, ?_, (hnew p hp).1⟩)
      rw [hrows, List.mem_filter, decide_eq_true_eq, (hnew p hp).1]
      exact ⟨List.mem_append_right _ hp, hstays⟩
    rw [hrows, List.filter_filter, ← List.append_nil (List.filter _ db.pingResult.rows), ← hnone,
      ← List.filter_append]
    refine List.filter_congr fun p _ => ?_
    rw [← Bool.decide_and, decide_eq_decide]
    exact ⟨fun h => h.1, fun h => ⟨h, by have := h.1; omega⟩⟩
  · rw [hradio]
    refine filter_of_round RadioRow.observedAt db.apRadioSample _ start now hretained
      honly.apRadioSample hradios ?_
    rintro r hr hday rfl
    rcases honly.radioStays ⟨r, hr, rfl⟩ with ⟨r', hr', heq⟩
    exact hradios r' hr' (by rw [heq]; exact hday) heq
  · rw [hmesh]
    refine filter_of_round MeshRow.observedAt db.meshLinkSample _ start now hretained
      honly.meshLinkSample hmeshes ?_
    rintro m hm hday rfl
    rcases honly.meshStays ⟨m, hm, rfl⟩ with ⟨m', hm', heq⟩
    exact hmeshes m' hm' (by rw [heq]; exact hday) heq

/-- A round that leaves no row in a day. -/
theorem tick_sameDay (env : TickEnv) (db : Db) (start : Nat) (hdb : Settled db)
    (hretained : env.now ≤ start + retentionSeconds)
    (hother : InDay start env.now → ¬ Recorded env.now (tick env db).1) :
    SameDay db (tick env db).1 start := by
  -- The first transaction only touches targets.
  have hsync : ∀ synced, syncTargets env db = some synced →
      Settled synced ∧ SameDay db synced start := by
    intro synced h
    rcases syncTargets_settled env db synced hdb h with ⟨hsettled, hgrows, hrest⟩
    refine ⟨hsettled, sameDay_of_rows db synced start hdb hgrows ?_ ?_ ?_⟩
    · rw [hrest]
    · rw [hrest]
    · rw [hrest]
  rcases tick_cases env db with heq | ⟨synced, hsynced, heq | ⟨written, hwrite, heq⟩⟩
  · rw [heq]
    exact SameDay.refl db start
  · rw [heq]
    exact (hsync synced hsynced).2
  · rw [heq] at hother ⊢
    rcases hsync synced hsynced with ⟨hsettled, hsame⟩
    exact hsame.trans (writeRound_sameDay env.now synced written start hsettled
      (writeRound_written env synced written hwrite) hretained hother)

/-- Commands that add or rename targets. -/
theorem onlyTargets_sameDay (db db' : Db) (start : Nat) (hdb : Settled db)
    (h : OnlyTargets db db') : SameDay db db' start := by
  refine sameDay_of_rows db db' start hdb h.grows ?_ ?_ ?_
  · rw [h.rest]
  · rw [h.rest]
  · rw [h.rest]

end Zd1200
