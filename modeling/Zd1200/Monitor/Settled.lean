import Mathlib.Data.List.Infix
import Zd1200.Monitor.Tick

/-!
# Settled Databases

Databases without targets of the early version, in which every result belongs
to a target.

From such a database no command hands a result to another target, because the
only targets that are merged into others are those a round has just made and
deletes again. And no target goes: the targets before a command are the first
ones after it, with what identifies them unchanged.

## Main definitions

* `TargetRow.isLegacy`: A target of the early version.
* `Settled`: No such target, and no result without its target.
* `TargetTable.Grows`: The targets of one table are the first of another.

## Theorems

* `syncTargets_settled`, `writeRound_settled`: What the transactions of a round
  keep.
* `settled_runCommand`: Commands keep a database settled.
-/

namespace Zd1200

/-- `kind='ap' AND length(ap_id)<>17`. -/
def TargetRow.isLegacy (t : TargetRow) : Bool :=
  t.kind = .ap ∧ (t.apId.map sqliteLength).any (· ≠ 17)

theorem isLegacyAt_eq_true (t : TargetRow) (ip : Bytes) :
    t.isLegacyAt ip = true ↔ t.isLegacy = true ∧ t.ip = ip := by
  unfold TargetRow.isLegacyAt TargetRow.isLegacy
  rw [decide_eq_true_eq, decide_eq_true_eq, and_assoc]

theorem isLegacyAt_of_not_isLegacy (t : TargetRow) (ip : Bytes) (h : t.isLegacy = false) :
    t.isLegacyAt ip = false := by
  rw [← Bool.not_eq_true, isLegacyAt_eq_true, h]
  exact fun habs => Bool.false_ne_true habs.1

theorem isLegacy_of_ident (a b : TargetRow) (h : a.ident = b.ident) : a.isLegacy = b.isLegacy := by
  unfold TargetRow.ident at h
  simp only [Prod.mk.injEq] at h
  unfold TargetRow.isLegacy
  rw [h.2.1, h.2.2.2]

structure Settled (db : Db) : Prop where
  noLegacy : ∀ t ∈ db.target.rows, t.isLegacy = false
  owned : ∀ p ∈ db.pingResult.rows, ∃ t ∈ db.target.rows, t.id = p.targetId

theorem settled_empty : Settled emptyDb where
  noLegacy := fun _ h => absurd h List.not_mem_nil
  owned := fun _ h => absurd h List.not_mem_nil

/-! ### Targets -/

namespace TargetTable

/-- The targets of a table are the first ones of another. -/
def Grows (old new : TargetTable) : Prop :=
  old.rows.map TargetRow.ident <+: new.rows.map TargetRow.ident

theorem Grows.refl (table : TargetTable) : table.Grows table := List.prefix_refl _

theorem Grows.trans {a b c : TargetTable} (h : a.Grows b) (h' : b.Grows c) : a.Grows c :=
  List.IsPrefix.trans h h'

/-- A target is still there. -/
theorem Grows.mem {old new : TargetTable} (h : old.Grows new) (t : TargetRow) (ht : t ∈ old.rows) :
    ∃ t' ∈ new.rows, t'.ident = t.ident :=
  List.mem_map.mp (h.subset (List.mem_map_of_mem ht))

theorem grows_insertOrIgnore (table : TargetTable) (row : TargetRow) :
    table.Grows (table.insertOrIgnore row) := by
  unfold Grows insertOrIgnore insert
  split
  · exact List.prefix_refl _
  · rw [Option.getD_some, List.map_append]
    exact List.prefix_append _ _

theorem grows_update (table : TargetTable) (f : TargetRow → TargetRow)
    (same : ∀ t, SameTarget t (f t)) : table.Grows (table.update f same) := by
  have hident : TargetRow.ident ∘ f = TargetRow.ident :=
    funext fun t => (ident_of_same _ _ (same t)).symm
  unfold Grows update
  rw [List.map_map, hident]

/-- The first targets stay when later ones are deleted. -/
theorem grows_delete (old table : TargetTable) (which : TargetRow → Bool) (h : old.Grows table)
    (hkeep : ∀ t t' : TargetRow, t ∈ old.rows → t'.ident = t.ident → which t' = false) :
    old.Grows (table.delete which) := by
  rcases h with ⟨added, hadded⟩
  -- The update keeps positions: the old targets are the first rows.
  have hfirst : (table.rows.take old.rows.length).map TargetRow.ident
      = old.rows.map TargetRow.ident := by
    rw [List.map_take, ← hadded, ← List.length_map TargetRow.ident, List.take_left']
    rfl
  have hall : (table.rows.take old.rows.length).filter (fun t => !which t)
      = table.rows.take old.rows.length := by
    refine List.filter_eq_self.mpr fun t' ht' => ?_
    have hmem := List.mem_map_of_mem (f := TargetRow.ident) ht'
    rw [hfirst] at hmem
    rcases List.mem_map.mp hmem with ⟨t, ht, heq⟩
    rw [hkeep t t' ht heq.symm, Bool.not_false]
  -- So the deletion only takes from the rows behind them.
  have hrows : (table.delete which).rows = table.rows.take old.rows.length ++
      (table.rows.drop old.rows.length).filter fun t => !which t := by
    have hsplit := congrArg (List.filter fun t => !which t)
      (List.take_append_drop old.rows.length table.rows)
    rw [List.filter_append, hall] at hsplit
    exact hsplit.symm
  rw [Grows, hrows, List.map_append, hfirst]
  exact List.prefix_append _ _

end TargetTable

theorem grows_seed (aps : List ApTarget) (now : Nat) (target : TargetTable) :
    target.Grows (seed target aps now) := by
  unfold seed
  induction aps generalizing target with
  | nil => exact TargetTable.Grows.refl _
  | cons ap rest ih => exact (target.grows_insertOrIgnore _).trans (ih _)

theorem grows_syncClient (now : Nat) (target : TargetTable) (client : Client) :
    target.Grows (syncClient now target client) := by
  unfold syncClient
  split
  · next ip name _ _ =>
    by_cases hip : (inetPton ip).isSome = true
    · rw [if_pos hip]
      exact (target.grows_insertOrIgnore _).trans (TargetTable.grows_update _ _ _)
    · rw [if_neg hip]
      exact TargetTable.Grows.refl _
  · exact TargetTable.Grows.refl _

theorem grows_syncClients (view : ClientView) (now : Nat) (target : TargetTable) :
    target.Grows (syncClients view now target) := by
  unfold syncClients
  generalize view.items = items
  induction items generalizing target with
  | nil => exact TargetTable.Grows.refl _
  | cons client rest ih => exact (grows_syncClient now target client).trans (ih _)

/-- A new target of `seed` is at the address of its entry. -/
theorem mem_seed_ip (aps : List ApTarget) (now : Nat) (target : TargetTable) (t : TargetRow)
    (h : t ∈ (seed target aps now).rows) : t ∈ target.rows ∨ ∃ ap ∈ aps, t.ip = ap.ip := by
  unfold seed at h
  induction aps generalizing target with
  | nil => exact Or.inl h
  | cons ap rest ih =>
      rcases ih _ h with hmid | ⟨other, hother, hip⟩
      · rcases target.mem_insertOrIgnore _ t hmid with hold | hnew
        · exact Or.inl hold
        · exact Or.inr ⟨ap, List.mem_cons_self, by rw [hnew]; rfl⟩
      · exact Or.inr ⟨other, List.mem_cons_of_mem _ hother, hip⟩

/-- The synchronisation of the clients makes no target of the early version. -/
theorem noLegacy_syncClients (view : ClientView) (now : Nat) (target : TargetTable)
    (h : ∀ t ∈ target.rows, t.isLegacy = false) :
    ∀ t ∈ (syncClients view now target).rows, t.isLegacy = false := by
  unfold syncClients
  generalize view.items = items
  induction items generalizing target with
  | nil => exact h
  | cons client rest ih =>
      refine ih _ fun t ht => ?_
      unfold syncClient at ht
      split at ht
      · next ip name _ _ =>
        by_cases hip : (inetPton ip).isSome = true
        · rw [if_pos hip] at ht
          rcases List.mem_map.mp ht with ⟨t₁, ht₁, rfl⟩
          -- A refresh changes nothing that makes a target one of the early version.
          rw [← isLegacy_of_ident _ _ (ident_of_same _ _ (refreshClient_same client ip name t₁))]
          rcases target.mem_insertOrIgnore _ t₁ ht₁ with hold | hnew
          · exact h t₁ hold
          · rw [hnew]
            rfl
        · rw [if_neg hip] at ht
          exact h t ht
      · exact h t ht

/-! ### Merging -/

/-- Results that no owner changes for. -/
theorem setOwner_eq (table : ResultTable) (owner : PingRow → Nat)
    (h : ∀ p ∈ table.rows, owner p = p.targetId) : table.setOwner owner = table := by
  cases table with
  | mk rows key =>
      simp only [ResultTable.setOwner, ResultTable.mk.injEq]
      calc rows.map (fun p => { p with targetId := owner p })
          = rows.map id := List.map_congr_left fun p hp => by rw [h p hp]; rfl
        _ = rows := List.map_id _

/-- Every result belongs to a target that is not of the early version. -/
def OwnedWell (db : Db) : Prop :=
  ∀ p ∈ db.pingResult.rows, ∃ t ∈ db.target.rows, t.isLegacy = false ∧ t.id = p.targetId

/-- Then a merge deletes targets and does nothing else. -/
theorem mergeLegacyAp_ownedWell (db db' : Db) (ap : ApTarget) (hdb : OwnedWell db)
    (h : mergeLegacyAp db ap = some db') :
    db' = { db with target := db.target.delete (·.isLegacyAt ap.ip) } := by
  have hnone : ∀ p ∈ db.pingResult.rows, p.targetId ∉ legacyIds db.target ap.ip := by
    intro p hp hmem
    rcases hdb p hp with ⟨t, ht, hlegacy, hid⟩
    rcases List.mem_map.mp hmem with ⟨t', ht', hid'⟩
    rw [List.mem_filter] at ht'
    have heq : t = t' := db.target.eq_of_id t t' ht ht'.1 (by rw [hid, hid'])
    rw [heq, ((isLegacyAt_eq_true t' ap.ip).mp ht'.2).1] at hlegacy
    exact absurd hlegacy (by decide)
  -- No result is handed over, whether the merge finds a target or not.
  rcases mergeLegacyAp_cases db db' ap h with ⟨id, -, rfl⟩ | ⟨-, -, rfl⟩
  · rw [setOwner_eq _ _ fun p hp => if_neg (hnone p hp)]
  · rfl

theorem ownedWell_delete (db : Db) (hdb : OwnedWell db) (ip : Bytes) :
    OwnedWell { db with target := db.target.delete (·.isLegacyAt ip) } := by
  intro p hp
  rcases hdb p hp with ⟨t, ht, hlegacy, hid⟩
  refine ⟨t, List.mem_filter.mpr ⟨ht, ?_⟩, hlegacy, hid⟩
  simp only [isLegacyAt_of_not_isLegacy t ip hlegacy, Bool.not_false]

/-- All merges of a round: the targets of the early version at the entries'
    addresses are gone, and so is nothing else. -/
theorem mergeLegacyAps_ownedWell (aps : List ApTarget) (old : TargetTable)
    (hold : ∀ t ∈ old.rows, t.isLegacy = false) (db db' : Db) (hdb : OwnedWell db)
    (hgrows : old.Grows db.target) (h : mergeLegacyAps db aps = some db') :
    OwnedWell db' ∧ old.Grows db'.target ∧ db' = { db with target := db'.target } ∧
      ∀ t ∈ db'.target.rows, t ∈ db.target.rows ∧ ∀ ap ∈ aps, t.isLegacyAt ap.ip = false := by
  unfold mergeLegacyAps at h
  induction aps generalizing db with
  | nil =>
      rw [List.foldlM_nil] at h
      rw [← Option.some.inj h]
      exact ⟨hdb, hgrows, rfl, fun t ht => ⟨ht, fun ap hap => absurd hap List.not_mem_nil⟩⟩
  | cons ap rest ih =>
      rw [List.foldlM_cons, Option.bind_eq_bind, Option.bind_eq_some_iff] at h
      rcases h with ⟨mid, hmid, hrest⟩
      have heq := mergeLegacyAp_ownedWell db mid ap hdb hmid
      have hkeep : old.Grows (db.target.delete (·.isLegacyAt ap.ip)) := by
        -- What goes is of the early version, which no old target is.
        refine TargetTable.grows_delete old _ _ hgrows fun t t' ht hident => ?_
        refine isLegacyAt_of_not_isLegacy t' ap.ip ?_
        rw [isLegacy_of_ident t' t hident, hold t ht]
      subst heq
      rcases ih _ (ownedWell_delete db hdb ap.ip) hkeep hrest with ⟨howned, hgrows', hdb', hmem⟩
      refine ⟨howned, hgrows', hdb', fun t ht => ?_⟩
      rcases hmem t ht with ⟨htmid, hlegacy⟩
      rw [TargetTable.delete, List.mem_filter, Bool.not_eq_true'] at htmid
      refine ⟨htmid.1, fun other hother => ?_⟩
      rcases List.mem_cons.mp hother with rfl | hin
      · exact htmid.2
      · exact hlegacy other hin

/-! ### The transactions of a round -/

/-- The first transaction only adds targets. -/
theorem syncTargets_settled (env : TickEnv) (db synced : Db) (hdb : Settled db)
    (h : syncTargets env db = some synced) :
    Settled synced ∧ db.target.Grows synced.target ∧
      synced = { db with target := synced.target } := by
  rcases syncTargets_cases env db synced h with ⟨merged, hmerged, rfl⟩
  have hseeded := grows_seed (readAps env.apList) env.now db.target
  have howned : OwnedWell { db with target := seed db.target (readAps env.apList) env.now } := by
    intro p hp
    rcases hdb.owned p hp with ⟨t, ht, hid⟩
    rcases hseeded.mem t ht with ⟨t', ht', hident⟩
    refine ⟨t', ht', ?_, ?_⟩
    · rw [isLegacy_of_ident t' t hident]
      exact hdb.noLegacy t ht
    · rw [← hid]
      exact congrArg Prod.fst hident
  rcases mergeLegacyAps_ownedWell _ db.target hdb.noLegacy _ merged howned hseeded hmerged with
    ⟨howned', hgrows, hrest, hmem⟩
  -- A target that is left is one from before, or it was at an entry's address.
  have hnoLegacy : ∀ t ∈ merged.target.rows, t.isLegacy = false := by
    intro t ht
    rcases hmem t ht with ⟨hseed, hat⟩
    rcases mem_seed_ip _ _ _ t hseed with hold | ⟨ap, hap, hip⟩
    · exact hdb.noLegacy t hold
    · have := hat ap hap
      rw [← Bool.not_eq_true, isLegacyAt_eq_true] at this
      rw [← Bool.not_eq_true]
      exact fun hlegacy => this ⟨hlegacy, hip⟩
  have hsynced : db.target.Grows (if env.view.valid then syncClients env.view env.now merged.target
      else merged.target) := by
    split
    · exact hgrows.trans (grows_syncClients _ _ _)
    · exact hgrows
  rw [hrest]
  refine ⟨⟨?_, fun p hp => ?_⟩, hsynced, rfl⟩
  · split
    · exact noLegacy_syncClients _ _ _ hnoLegacy
    · exact hnoLegacy
  · rcases hdb.owned p hp with ⟨t, ht, hid⟩
    rcases hsynced.mem t ht with ⟨t', ht', hident⟩
    exact ⟨t', ht', by rw [← hid]; exact congrArg Prod.fst hident⟩

/-- What the second transaction of a round changes. -/
structure RoundWritten (now : Nat) (db db' : Db) : Prop where
  target : db'.target = db.target
  /-- Results of the round are added and old ones deleted. -/
  pingResult : ∃ new : List PingRow,
    (∀ p ∈ new, p.observedAt = now ∧ ∃ t ∈ db.target.rows, t.id = p.targetId) ∧
      db'.pingResult.rows = (db.pingResult.rows ++ new).filter
        fun p => now ≤ p.observedAt + retentionSeconds
  /-- Samples of the round are replaced and old ones deleted. -/
  detail : ∃ detailed, OnlySamplesOf now { db with pingResult := detailed.pingResult } detailed ∧
    db'.apRadioSample
      = (detailed.apRadioSample.filter fun r => now ≤ r.observedAt + retentionSeconds) ∧
    db'.meshLinkSample
      = detailed.meshLinkSample.filter fun m => now ≤ m.observedAt + retentionSeconds

theorem writeRound_written (env : TickEnv) (db db' : Db) (h : writeRound env db = some db') :
    RoundWritten env.now db db' := by
  rcases writeRound_cases env db db' h with ⟨table, detailed, htable, hdetailed, rfl⟩
  have hchanges := ingestApDetail_changes _ _ _ _ hdetailed
  rcases insertResults _ _ _ htable with ⟨ids, -, -, hrows⟩
  refine ⟨hchanges.target, ⟨List.zipWith (fun i p => { p with id := i }) ids
    ((env.measurements db).map (resultRow env.now)), fun p hp => ?_, ?_⟩, detailed, ?_, rfl, rfl⟩
  · -- A new row is that of a measurement, which is that of a target.
    rcases List.mem_iff_getElem.mp hp with ⟨k, hk, rfl⟩
    rw [List.length_zipWith, List.length_map] at hk
    have hmeasured : ∀ item ∈ env.measurements db, ∃ t ∈ db.target.rows, t.id = item.id := by
      intro item hitem
      rcases List.mem_mapIdx.mp hitem with ⟨i, hi, rfl⟩
      rw [pingOutcome_id]
      rcases (mem_loadMeasurements _ _ _).mp (List.getElem_mem hi) with ⟨t, ht, -, heq⟩
      exact ⟨t, ht, by rw [heq, measurementOf_id]⟩
    rw [List.getElem_zipWith, List.getElem_map]
    exact ⟨rfl, hmeasured _ (List.getElem_mem _)⟩
  · rw [← hrows]
    change (detailed.pingResult.filter _).rows = _
    rw [hchanges.pingResult]
    rfl
  · rw [hchanges.pingResult]
    exact hchanges

theorem writeRound_settled (env : TickEnv) (db db' : Db) (hdb : Settled db)
    (h : writeRound env db = some db') : Settled db' := by
  have hwritten := writeRound_written env db db' h
  rcases hwritten.pingResult with ⟨new, hnew, hrows⟩
  refine ⟨by rw [hwritten.target]; exact hdb.noLegacy, fun p hp => ?_⟩
  rw [hrows, List.mem_filter, List.mem_append] at hp
  rw [hwritten.target]
  rcases hp.1 with hold | hin
  · exact hdb.owned p hold
  · exact (hnew p hin).2

/-! ### Commands -/

/-- A round keeps a database settled and only adds targets. -/
theorem tick_settled (env : TickEnv) (db : Db) (hdb : Settled db) :
    Settled (tick env db).1 ∧ db.target.Grows (tick env db).1.target := by
  rcases tick_cases env db with heq | ⟨synced, hsync, heq | ⟨written, hwrite, heq⟩⟩
  · rw [heq]
    exact ⟨hdb, TargetTable.Grows.refl _⟩
  · rw [heq]
    rcases syncTargets_settled env db synced hdb hsync with ⟨hsettled, hgrows, -⟩
    exact ⟨hsettled, hgrows⟩
  · rw [heq]
    rcases syncTargets_settled env db synced hdb hsync with ⟨hsettled, hgrows, -⟩
    refine ⟨writeRound_settled env synced written hsettled hwrite, ?_⟩
    rw [writeRound_target env synced written hwrite]
    exact hgrows

/-- A command other than a round adds or renames targets. -/
structure OnlyTargets (db db' : Db) : Prop where
  grows : db.target.Grows db'.target
  legacy : ∀ t ∈ db'.target.rows, t.isLegacy = true → ∃ t₀ ∈ db.target.rows, t₀.isLegacy = true
  rest : db' = { db with target := db'.target }

theorem OnlyTargets.refl (db : Db) : OnlyTargets db db :=
  ⟨TargetTable.Grows.refl _, fun t ht h => ⟨t, ht, h⟩, rfl⟩

theorem onlyTargets_update (db : Db) (f : TargetRow → TargetRow) (same : ∀ t, SameTarget t (f t)) :
    OnlyTargets db { db with target := db.target.update f same } := by
  refine ⟨TargetTable.grows_update _ f same, fun t ht h => ?_, rfl⟩
  rcases List.mem_map.mp ht with ⟨t₀, ht₀, rfl⟩
  rw [← isLegacy_of_ident _ _ (ident_of_same _ _ (same t₀))] at h
  exact ⟨t₀, ht₀, h⟩

theorem addClient_onlyTargets (mac ip name : Bytes) (now : Nat) (fails : Bool) (db : Db) :
    OnlyTargets db (addClient mac ip name now fails db).1 := by
  unfold addClient
  split
  · exact OnlyTargets.refl db
  · split
    · exact OnlyTargets.refl db
    · split
      · exact onlyTargets_update db _ _
      · cases hinsert : db.target.insert (clientRow mac ip name now) with
        | none => exact OnlyTargets.refl db
        | some target =>
            have hgrows := db.target.grows_insertOrIgnore (clientRow mac ip name now)
            have hmem := db.target.mem_insertOrIgnore (clientRow mac ip name now)
            rw [TargetTable.insertOrIgnore, hinsert, Option.getD_some] at hgrows hmem
            refine ⟨hgrows, fun t ht h => ?_, rfl⟩
            rcases hmem t ht with hold | hnew
            · exact ⟨t, hold, h⟩
            · rw [hnew] at h
              exact absurd h Bool.false_ne_true

theorem setEnabled_onlyTargets (idText enabledText : Bytes) (fails : Bool) (db : Db) :
    OnlyTargets db (setEnabled idText enabledText fails db).1 := by
  unfold setEnabled
  simp only
  split
  · exact OnlyTargets.refl db
  · split
    · exact OnlyTargets.refl db
    · split
      · exact onlyTargets_update db _ _
      · exact OnlyTargets.refl db

theorem OnlyTargets.settled {db db' : Db} (h : OnlyTargets db db') (hdb : Settled db) :
    Settled db' := by
  refine ⟨fun t ht => ?_, fun p hp => ?_⟩
  · by_contra hlegacy
    rw [Bool.not_eq_false] at hlegacy
    rcases h.legacy t ht hlegacy with ⟨t₀, ht₀, hlegacy₀⟩
    rw [hdb.noLegacy t₀ ht₀] at hlegacy₀
    exact absurd hlegacy₀ (by decide)
  · rw [h.rest] at hp
    rcases hdb.owned p hp with ⟨t, ht, hid⟩
    rcases h.grows.mem t ht with ⟨t', ht', hident⟩
    exact ⟨t', ht', by rw [← hid]; exact congrArg Prod.fst hident⟩

/-- Commands keep a database settled. -/
theorem settled_runCommand (db : Db) (hdb : Settled db) (command : Command) :
    Settled (runCommand db command) := by
  cases command with
  | tick env => exact (tick_settled env db hdb).1
  | addClient mac ip name now fails => exact (addClient_onlyTargets mac ip name now fails db).settled hdb
  | setEnabled idText enabledText fails =>
      exact (setEnabled_onlyTargets idText enabledText fails db).settled hdb

end Zd1200
