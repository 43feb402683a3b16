import Zd1200.Monitor.Settled

/-!
# Results Stay with Their Devices

Which target a result belongs to, over a whole run of commands.

A result names its target by number only. Numbers are used again once they are
free at the end of the table, and a merge changes the number in a result, so
nothing in the table says what device a result was recorded for. The history of
a run keeps that beside the database: the target that a result belonged to when
it was written.

Results of the early version's targets can only be in a database that it has
made. `syncTargets_hands_over` says what a round does to those.

## Main definitions

* `History`: A database, and what each result was recorded for.
* `Attached`: Every result belongs to the device it was recorded for.

## Theorems

* `attached_next`: Commands keep the results attached.
* `attached_run`: Runs from an empty database.
* `mergeLegacyAp_keeps`, `mergeLegacyAp_hands`: What a merge does to a target's
  results.
* `syncTargets_hands_over`: Results of the early version's targets.
-/

namespace Zd1200

/-- The target that a result belongs to. -/
def ownerOf (db : Db) (p : PingRow) : Option TargetRow :=
  db.target.rows.find? fun t => t.id = p.targetId

/-- A database, and the target that each result belonged to when it was
    written, by the result's number. -/
structure History where
  db : Db
  device : Nat → Option TargetRow

namespace History

def empty : History := ⟨emptyDb, fun _ => none⟩

/-- A command. A number that was in use before is that of an old result. -/
def next (h : History) (command : Command) : History where
  db := runCommand h.db command
  device := fun id =>
    if id ∈ h.db.pingResult.rows.map PingRow.id then h.device id
    else
      ((runCommand h.db command).pingResult.rows.find? fun p => p.id = id).bind
        (ownerOf (runCommand h.db command))

end History

/-- Every result belongs to a target, and it is that of the device that the
    result was recorded for. -/
def Attached (h : History) : Prop :=
  ∀ p ∈ h.db.pingResult.rows, ∃ t ∈ h.db.target.rows, t.id = p.targetId ∧
    ∃ device, h.device p.id = some device ∧ t.kind = device.kind ∧
      t.clientMac = device.clientMac ∧ t.apId = device.apId

/-! ### Commands -/

/-- A result that was there before a round has not changed its target. -/
theorem writeRound_old (env : TickEnv) (db db' : Db) (h : writeRound env db = some db')
    (p q : PingRow) (hp : p ∈ db'.pingResult.rows) (hq : q ∈ db.pingResult.rows)
    (hid : q.id = p.id) : q = p := by
  rcases writeRound_cases env db db' h with ⟨table, detailed, htable, hdetailed, rfl⟩
  rcases insertResults _ _ _ htable with ⟨ids, -, hfresh, hrows⟩
  have hmem : p ∈ table.rows := by
    have := (List.mem_filter.mp hp).1
    rwa [(ingestApDetail_changes _ _ _ _ hdetailed).pingResult] at this
  rw [hrows] at hmem
  rcases List.mem_append.mp hmem with hold | hnew
  · exact List.inj_on_of_nodup_map db.pingResult.key hq hold hid
  · -- The numbers of new results are above all others.
    rcases List.mem_iff_getElem?.mp hnew with ⟨k, hk⟩
    rcases List.getElem?_zipWith_eq_some.mp hk with ⟨i, row, hi, -, rfl⟩
    exact absurd hid (hfresh i (List.mem_of_getElem? hi) q hq).ne

/-- Commands do not change the targets of results. -/
theorem runCommand_old (db : Db) (hdb : Settled db) (command : Command) (p q : PingRow)
    (hp : p ∈ (runCommand db command).pingResult.rows) (hq : q ∈ db.pingResult.rows)
    (hid : q.id = p.id) : q = p := by
  have hsame : ∀ db' : Db, db' = { db with target := db'.target } → p ∈ db'.pingResult.rows →
      q = p := by
    intro db' heq hp'
    rw [heq] at hp'
    exact List.inj_on_of_nodup_map db.pingResult.key hq hp' hid
  cases command with
  | tick env =>
      rw [runCommand] at hp
      rcases tick_cases env db with heq | ⟨synced, hsync, heq | ⟨written, hwrite, heq⟩⟩
      · rw [heq] at hp
        exact hsame db rfl hp
      · rw [heq] at hp
        exact hsame synced (syncTargets_settled env db synced hdb hsync).2.2 hp
      · rw [heq] at hp
        refine writeRound_old env synced written hwrite p q hp ?_ hid
        rw [(syncTargets_settled env db synced hdb hsync).2.2]
        exact hq
  | addClient mac ip name now fails =>
      exact hsame _ (addClient_onlyTargets mac ip name now fails db).rest hp
  | setEnabled idText enabledText fails =>
      exact hsame _ (setEnabled_onlyTargets idText enabledText fails db).rest hp

theorem runCommand_grows (db : Db) (hdb : Settled db) (command : Command) :
    db.target.Grows (runCommand db command).target := by
  cases command with
  | tick env => exact (tick_settled env db hdb).2
  | addClient mac ip name now fails => exact (addClient_onlyTargets mac ip name now fails db).grows
  | setEnabled idText enabledText fails =>
      exact (setEnabled_onlyTargets idText enabledText fails db).grows

/-- Commands keep the results attached. -/
theorem attached_next (h : History) (hdb : Settled h.db) (hattached : Attached h)
    (command : Command) : Attached (h.next command) := by
  intro p hp
  by_cases hold : p.id ∈ h.db.pingResult.rows.map PingRow.id
  · -- An old result keeps its target, and the target what identifies it.
    rcases List.mem_map.mp hold with ⟨q, hq, hid⟩
    have hqp := runCommand_old h.db hdb command p q hp hq hid
    rw [hqp] at hq
    rcases hattached p hq with ⟨t, ht, howner, device, hdevice, hkind, hmac, hap⟩
    rcases (runCommand_grows h.db hdb command).mem t ht with ⟨t', ht', hident⟩
    simp only [TargetRow.ident, Prod.mk.injEq] at hident
    refine ⟨t', ht', hident.1.trans howner, device, ?_, hident.2.1.trans hkind,
      hident.2.2.1.trans hmac, hident.2.2.2.trans hap⟩
    simp only [History.next]
    rw [if_pos hold, hdevice]
  · -- A new one belongs to a target that is there.
    have hsettled := settled_runCommand h.db hdb command
    have hfind := find?_number _ _ (runCommand h.db command).pingResult.key p hp p.id rfl
    rcases hsettled.owned p hp with ⟨t, ht, howner⟩
    have hdevice : ownerOf (runCommand h.db command) p = some t :=
      find?_number _ _ (runCommand h.db command).target.key t ht p.targetId howner
    refine ⟨t, ht, howner, t, ?_, rfl, rfl, rfl⟩
    simp only [History.next]
    rw [if_neg hold, hfind, Option.bind_some, hdevice]

/-- In every run from an empty database every result belongs to a target that
    is there, and it is that of the device that the result was recorded for. -/
theorem attached_run (commands : List Command) :
    Attached (commands.foldl History.next History.empty) := by
  have hgeneral : ∀ h : History, Settled h.db → Attached h →
      Attached (commands.foldl History.next h) := by
    induction commands with
    | nil => exact fun h _ hattached => hattached
    | cons command rest ih =>
        intro h hdb hattached
        exact ih (h.next command) (settled_runCommand h.db hdb command)
          (attached_next h hdb hattached command)
  exact hgeneral _ settled_empty fun p hp => absurd hp List.not_mem_nil

/-! ### Databases of the early version -/

/-- A result belongs to a target. -/
def Belongs (db : Db) (number : Nat) (t : TargetRow) : Prop :=
  t ∈ db.target.rows ∧ ∃ q ∈ db.pingResult.rows, q.id = number ∧ q.targetId = t.id

/-- A merge leaves a target and its results alone, unless the target is one
    of the early version at the entry's address. -/
theorem mergeLegacyAp_keeps (db db' : Db) (ap : ApTarget) (h : mergeLegacyAp db ap = some db')
    (number : Nat) (t : TargetRow) (ht : Belongs db number t) (hat : t.isLegacyAt ap.ip = false) :
    Belongs db' number t := by
  rcases ht with ⟨ht, q, hq, hnumber, howner⟩
  have hkeep : t ∈ (db.target.delete (·.isLegacyAt ap.ip)).rows :=
    List.mem_filter.mpr ⟨ht, by simp only [hat, Bool.not_false]⟩
  have hnone : q.targetId ∉ legacyIds db.target ap.ip := by
    intro hmem
    rcases List.mem_map.mp hmem with ⟨other, hother, hid⟩
    rw [List.mem_filter] at hother
    rw [db.target.eq_of_id other t hother.1 ht (hid.trans howner), hat] at hother
    exact Bool.false_ne_true hother.2
  -- Whether the merge moves results or not, it does not move these.
  rcases mergeLegacyAp_cases db db' ap h with ⟨id, -, rfl⟩ | ⟨-, -, rfl⟩
  · refine ⟨hkeep, _, List.mem_map_of_mem hq, hnumber, ?_⟩
    simp only [if_neg hnone]
    exact howner
  · exact ⟨hkeep, q, hq, hnumber, howner⟩

/-- A merge hands the results of a target of the early version to the entry at
    its address, if the entry's identity is that of a MAC. -/
theorem mergeLegacyAp_hands (db db' : Db) (ap : ApTarget) (h : mergeLegacyAp db ap = some db')
    (number : Nat) (t : TargetRow) (ht : Belongs db number t) (hat : t.isLegacyAt ap.ip = true)
    (hlength : sqliteLength ap.id = 17) :
    ∃ t', Belongs db' number t' ∧ t'.isLegacy = false ∧ t'.kind = .ap ∧ t'.apId = some ap.id := by
  rcases ht with ⟨ht, q, hq, hnumber, howner⟩
  have hmoved : q.targetId ∈ legacyIds db.target ap.ip := by
    rw [howner]
    exact List.mem_map_of_mem (List.mem_filter.mpr ⟨ht, hat⟩)
  -- The merge cannot have got by without a target, since it has results to move.
  rcases mergeLegacyAp_cases db db' ap h with ⟨id, hid, rfl⟩ | ⟨-, hnone, -⟩
  · rcases Option.map_eq_some_iff.mp hid with ⟨t', hfound, rfl⟩
    have hap : t'.kind = .ap ∧ t'.apId = some ap.id := by
      simpa only [decide_eq_true_eq] using List.find?_some hfound
    have hlegacy : t'.isLegacy = false := by
      simp only [TargetRow.isLegacy, hap.2, Option.map_some, hlength, Option.any_some, ne_eq,
        not_true_eq_false, decide_false, Bool.false_eq_true, and_false]
    refine ⟨t', ⟨List.mem_filter.mpr ⟨List.mem_of_find?_eq_some hfound, ?_⟩, _,
      List.mem_map_of_mem hq, hnumber, ?_⟩, hlegacy, hap⟩
    · simp only [isLegacyAt_of_not_isLegacy t' ap.ip hlegacy, Bool.not_false]
    · simp only [if_pos hmoved]
  · exact absurd hmoved (hnone q hq)

/-- Later merges leave a target alone that is not of the early version. -/
theorem mergeLegacyAps_keeps (aps : List ApTarget) (db db' : Db)
    (h : mergeLegacyAps db aps = some db') (number : Nat) (t : TargetRow)
    (ht : Belongs db number t) (hlegacy : t.isLegacy = false) : Belongs db' number t :=
  foldlM_keeps (P := fun mid => Belongs mid number t) mergeLegacyAp aps
    (fun ap _ mid next hmid hap => mergeLegacyAp_keeps mid next ap hap number t hmid
      (isLegacyAt_of_not_isLegacy t ap.ip hlegacy)) db db' ht h

/-- All merges together hand the results over. -/
theorem mergeLegacyAps_hands (aps : List ApTarget) (db db' : Db)
    (h : mergeLegacyAps db aps = some db') (hlengths : ∀ ap ∈ aps, sqliteLength ap.id = 17)
    (number : Nat) (t : TargetRow) (ht : Belongs db number t) (hlegacy : t.isLegacy = true)
    (hat : ∃ ap ∈ aps, t.ip = ap.ip) :
    ∃ t', Belongs db' number t' ∧ t'.kind = .ap ∧ ∃ ap ∈ aps, t.ip = ap.ip ∧ t'.apId = some ap.id := by
  induction aps generalizing db with
  | nil =>
      rcases hat with ⟨ap, hap, -⟩
      exact absurd hap List.not_mem_nil
  | cons ap rest ih =>
      rw [mergeLegacyAps, List.foldlM_cons, Option.bind_eq_bind, Option.bind_eq_some_iff] at h
      rcases h with ⟨next, hnext, hrest⟩
      by_cases hip : t.ip = ap.ip
      · -- Once the results are handed over, no later merge takes them away.
        rcases mergeLegacyAp_hands db next ap hnext number t ht
          ((isLegacyAt_eq_true t ap.ip).mpr ⟨hlegacy, hip⟩) (hlengths ap List.mem_cons_self)
          with ⟨t', ht', hnew, hkind, hap⟩
        exact ⟨t', mergeLegacyAps_keeps rest next db' hrest number t' ht' hnew, hkind, ap,
          List.mem_cons_self, hip, hap⟩
      · have hkeep : t.isLegacyAt ap.ip = false := by
          rw [← Bool.not_eq_true, isLegacyAt_eq_true]
          exact fun habs => hip habs.2
        have hrestAt : ∃ other ∈ rest, t.ip = other.ip := by
          rcases hat with ⟨other, hother, hotherIp⟩
          rcases List.mem_cons.mp hother with rfl | hin
          · exact absurd hotherIp hip
          · exact ⟨other, hin, hotherIp⟩
        rcases ih next hrest (fun other hother => hlengths other (List.mem_cons_of_mem _ hother))
          (mergeLegacyAp_keeps db next ap hnext number t ht hkeep) hrestAt with
          ⟨t', ht', hkind, other, hother, hresult⟩
        exact ⟨t', ht', hkind, other, List.mem_cons_of_mem _ hother, hresult⟩

-- The synchronisation of the clients keeps what identifies a target.
theorem belongs_syncClients (view : ClientView) (now : Nat) (db : Db) (number : Nat)
    (t : TargetRow) (ht : Belongs db number t) :
    ∃ t', Belongs { db with target := syncClients view now db.target } number t' ∧
      t'.ident = t.ident := by
  rcases ht with ⟨ht, q, hq, hnumber, howner⟩
  rcases (grows_syncClients view now db.target).mem t ht with ⟨t', ht', hident⟩
  exact ⟨t', ⟨ht', q, hq, hnumber, howner.trans (congrArg Prod.fst hident).symm⟩, hident⟩

/-- In a database of the early version, the results of a target that is merged
    go to an access point that is listed at its address, if the identities in
    the list are those of MACs. -/
theorem syncTargets_hands_over (env : TickEnv) (db synced : Db)
    (h : syncTargets env db = some synced)
    (hlist : ∀ ap ∈ readAps env.apList, sqliteLength ap.id = 17) (number : Nat) (t : TargetRow)
    (ht : Belongs db number t) (hlegacy : t.isLegacy = true)
    (hlisted : ∃ ap ∈ readAps env.apList, t.ip = ap.ip) :
    ∃ t', Belongs synced number t' ∧ t'.kind = .ap ∧
      ∃ ap ∈ readAps env.apList, t.ip = ap.ip ∧ t'.apId = some ap.id := by
  rcases syncTargets_cases env db synced h with ⟨merged, hmerged, rfl⟩
  have hseeded : Belongs { db with target := seed db.target (readAps env.apList) env.now }
      number t := ⟨subset_seed _ _ _ t ht.1, ht.2⟩
  rcases mergeLegacyAps_hands _ _ _ hmerged hlist number t hseeded hlegacy hlisted with
    ⟨t', ht', hkind, ap, hap, hip, hid⟩
  by_cases hvalid : env.view.valid = true
  · simp only [if_pos hvalid]
    rcases belongs_syncClients env.view env.now merged number t' ht' with ⟨t'', ht'', hident⟩
    simp only [TargetRow.ident, Prod.mk.injEq] at hident
    exact ⟨t'', ht'', hident.2.1.trans hkind, ap, hap, hip, hident.2.2.2.trans hid⟩
  · simp only [if_neg hvalid]
    exact ⟨t', ht', hkind, ap, hap, hip, hid⟩

end Zd1200
