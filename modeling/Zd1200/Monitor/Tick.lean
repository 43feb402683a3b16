import Zd1200.Monitor.Telemetry

/-!
# Rounds and Commands

A monitoring round, `tick`, and the two commands that edit the targets.

A round is two transactions. The first brings the targets in line with the
access point list and the client view; the second writes a result for every
target that is enabled then, with the samples of the round, and drops what is
older than thirty days. Each of them happens as a whole or not at all, so a
round leaves the database as it was, with new targets only, or finished.

What a round meets from outside is its `TickEnv`: the files it reads, the
clock, the probes' replies, and the stages at which a statement fails for
reasons that are not in the tables. A round that is killed is one of these: it
leaves what the last transaction committed.

## Main definitions

* `TickEnv`: What a round meets.
* `loadMeasurements`: What is to be measured.
* `parallelPing`: The outcome of the probes.
* `syncTargets`, `writeRound`: The two transactions.
* `tick`, `addClient`, `setEnabled`: The commands.
* `Command`, `runCommand`, `Reachable`: The databases the commands lead to.

## Theorems

* `mem_loadMeasurements`: Every enabled target is measured.
* `measurementOf_notAssociated_iff`: When a target is measured as not associated.
* `writeRound_new`, `writeRound_writes`: New results are the measurements.
* `syncTargets_client`, `syncTargets_keeps_client`: Clients across the first
  transaction.
* `tick_cases`: How a round ends.
-/

namespace Zd1200

/-- The texts of `stage` in the source. -/
inductive Stage
  | openDatabase
  | initializeSchema
  | beginTargetSync
  | syncAccessPoints
  | mergeLegacyAccessPoints
  | syncClients
  | commitTargetSync
  | loadTargets
  | sendProbes
  | beginResultWrite
  | prepareResultWrite
  | writeResults
  | storeTelemetry
  | pruneResults
  | commitResults
  deriving DecidableEq, Repr

/-- What a round meets. A file that cannot be read is `none`; `replies` gives
    the milliseconds after which a probe's first valid reply came, by the
    probe's position among the measurements. -/
structure TickEnv where
  apList : Option Bytes
  clientXml : Option Bytes
  apDetail : Option Bytes
  now : Nat
  replies : Nat → Option Int
  fails : Stage → Bool
  sort : ClientSort

def retentionSeconds : Nat := 30 * 24 * 60 * 60

def timeoutMs : Int := 1000

/-- One target's measurement. -/
structure Measurement where
  id : Nat
  address : Option (List Nat)
  state : PingState
  rttMs : Int
  responded : Bool
  snrDb : Option Int
  signalDbm : Option Int
  noiseFloorDbm : Option Int
  deriving DecidableEq, Repr

/-- A measurement is probed if an address was found for it. -/
def Measurement.pingable (item : Measurement) : Bool := item.address.isSome

/-- The measurement of a target before it is probed. -/
def measurementOf (view : ClientView) (t : TargetRow) : Measurement :=
  let client := if t.kind = .client then findClient view t.clientMac else none
  let base : Measurement :=
    { id := t.id
      address := none
      state := .unknown
      rttMs := timeoutMs
      responded := false
      snrDb := client.bind Client.snrDb
      signalDbm := client.bind Client.signalDbm
      noiseFloorDbm := client.bind Client.noiseFloorDbm }
  -- Without a view nobody knows where a client is, so it is not probed.
  if t.kind = .client ∧ view.valid = false then base
  -- A view that is there and does not list it is an answer.
  else if t.kind = .client ∧ clientPresent view t.clientMac = false then
    { base with state := .notAssociated }
  else
    match inetPton t.ip with
    | some address => { base with state := .timeout, address := some address }
    | none => base

/-- `SELECT … FROM target WHERE enabled=1 ORDER BY id`. -/
def loadMeasurements (target : TargetTable) (view : ClientView) : List Measurement :=
  (orderBy TargetRow.id (target.rows.filter TargetRow.enabled)).map (measurementOf view)

/-- What probing makes of one measurement. -/
def pingOutcome (reply : Option Int) (item : Measurement) : Measurement :=
  if item.pingable then
    match reply with
    | none => { item with state := .timeout, rttMs := timeoutMs }
    | some elapsed =>
        { item with
          state := .ok
          rttMs := max 0 (min elapsed timeoutMs)
          responded := true }
  else item

def parallelPing (replies : Nat → Option Int) (items : List Measurement) : List Measurement :=
  items.mapIdx fun i item => pingOutcome (replies i) item

/-- The row that a measurement becomes. -/
def resultRow (now : Nat) (item : Measurement) : PingRow where
  id := 0
  observedAt := now
  targetId := item.id
  rttMs := item.rttMs
  responded := item.responded
  state := item.state
  snrDb := item.snrDb
  signalDbm := item.signalDbm
  noiseFloorDbm := item.noiseFloorDbm

/-- The rows that are not older than thirty days. -/
def prune (db : Db) (now : Nat) : Db :=
  { db with
    pingResult := db.pingResult.filter fun p => now ≤ p.observedAt + retentionSeconds
    apRadioSample := db.apRadioSample.filter fun r => now ≤ r.observedAt + retentionSeconds
    meshLinkSample := db.meshLinkSample.filter fun r => now ≤ r.observedAt + retentionSeconds }

namespace TickEnv

/-- A stage's statements run. -/
def reach (env : TickEnv) (stage : Stage) : Option Unit :=
  if env.fails stage then none else some ()

def view (env : TickEnv) : ClientView := parseClientView env.sort env.clientXml

/-- The clients are only looked at if the view is valid. -/
def syncClientStage (env : TickEnv) (db : Db) : Option Db :=
  if env.view.valid then
    (env.reach .syncClients).map fun _ =>
      { db with target := syncClients env.view env.now db.target }
  else some db

end TickEnv

/-- The first transaction of a round. -/
def syncTargets (env : TickEnv) (db : Db) : Option Db := do
  let aps := readAps env.apList
  let _ ← env.reach .openDatabase
  let _ ← env.reach .initializeSchema
  let _ ← env.reach .beginTargetSync
  let _ ← env.reach .syncAccessPoints
  let _ ← env.reach .mergeLegacyAccessPoints
  let db ← mergeLegacyAps { db with target := seed db.target aps env.now } aps
  let db ← env.syncClientStage db
  let _ ← env.reach .commitTargetSync
  return db

/-- The second transaction of a round. -/
def writeRound (env : TickEnv) (db : Db) : Option Db := do
  let _ ← env.reach .loadTargets
  let _ ← env.reach .sendProbes
  let items := parallelPing env.replies (loadMeasurements db.target env.view)
  let _ ← env.reach .beginResultWrite
  let _ ← env.reach .prepareResultWrite
  let _ ← env.reach .writeResults
  let rows ← (items.map (resultRow env.now)).foldlM ResultTable.insert db.pingResult
  let _ ← env.reach .storeTelemetry
  let db ← ingestApDetail { db with pingResult := rows } env.apDetail env.now
  let _ ← env.reach .pruneResults
  let _ ← env.reach .commitResults
  return prune db env.now

/-- A round: the database it leaves and its exit status. -/
def tick (env : TickEnv) (db : Db) : Db × Nat :=
  match syncTargets env db with
  | none => (db, 1)
  | some synced =>
      match writeRound env synced with
      | none => (synced, 1)
      | some written => (written, 0)

/-- `UPDATE target SET ip=?,name=?,enabled=1 WHERE kind='client' AND client_mac=?`. -/
def renameClient (mac ip name : Bytes) (t : TargetRow) : TargetRow :=
  if t.kind = .client ∧ t.clientMac = some mac then { t with ip, name, enabled := true } else t

theorem renameClient_same (mac ip name : Bytes) (t : TargetRow) :
    SameTarget t (renameClient mac ip name t) := SameTarget.ite _ ⟨rfl, rfl, rfl, rfl⟩

/-- `add-client MAC IP NAME`. -/
def addClient (mac ip name : Bytes) (now : Nat) (fails : Bool) (db : Db) : Db × Nat :=
  if validMac mac = false ∨ inetPton ip = none ∨ name = [] then (db, 2)
  else if fails then (db, 1)
  else if ∃ t ∈ db.target.rows, t.kind = .client ∧ t.clientMac = some mac then
    ({ db with target := db.target.update (renameClient mac ip name) (renameClient_same mac ip name) },
      0)
  else
    match db.target.insert (clientRow mac ip name now) with
    -- Another kind of target has the identity.
    | none => (db, 1)
    | some target => ({ db with target }, 0)

/-- `UPDATE target SET enabled=? WHERE id=?`. -/
def switchTarget (id : Int) (enabled : Bool) (t : TargetRow) : TargetRow :=
  if t.id = id then { t with enabled } else t

theorem switchTarget_same (id : Int) (enabled : Bool) (t : TargetRow) :
    SameTarget t (switchTarget id enabled t) := SameTarget.ite _ ⟨rfl, rfl, rfl, rfl⟩

/-- `set-enabled ID 0|1`. -/
def setEnabled (idText enabledText : Bytes) (fails : Bool) (db : Db) : Db × Nat :=
  let (id, rest) := strtol idText
  if idText = [] ∨ rest ≠ [] ∨ id < 1 ∨ (enabledText ≠ ascii "0" ∧ enabledText ≠ ascii "1") then
    (db, 2)
  else if fails then (db, 1)
  else if ∃ t ∈ db.target.rows, (t.id : Int) = id then
    ({ db with
      target := db.target.update (switchTarget id (enabledText = ascii "1"))
        (switchTarget_same id _) }, 0)
  else (db, 1)

/-- The commands that write the tables. -/
inductive Command
  | tick (env : TickEnv)
  | addClient (mac ip name : Bytes) (now : Nat) (fails : Bool)
  | setEnabled (idText enabledText : Bytes) (fails : Bool)

def runCommand (db : Db) : Command → Db
  | .tick env => (tick env db).1
  | .addClient mac ip name now fails => (addClient mac ip name now fails db).1
  | .setEnabled idText enabledText fails => (setEnabled idText enabledText fails db).1

/-- The databases that commands lead to from an empty one. -/
def Reachable (db : Db) : Prop := ∃ commands : List Command, db = commands.foldl runCommand emptyDb

/-! ### Measurements -/

/-- Every enabled target is measured, and nothing else. -/
theorem mem_loadMeasurements (target : TargetTable) (view : ClientView) (item : Measurement) :
    item ∈ loadMeasurements target view ↔
      ∃ t ∈ target.rows, t.enabled = true ∧ item = measurementOf view t := by
  unfold loadMeasurements
  constructor
  · intro h
    rcases List.mem_map.mp h with ⟨t, ht, rfl⟩
    rw [mem_orderBy, List.mem_filter] at ht
    exact ⟨t, ht.1, ht.2, rfl⟩
  · rintro ⟨t, ht, hen, rfl⟩
    exact List.mem_map.mpr ⟨t, (mem_orderBy _ _ _).mpr (List.mem_filter.mpr ⟨ht, hen⟩), rfl⟩

theorem measurementOf_id (view : ClientView) (t : TargetRow) : (measurementOf view t).id = t.id := by
  unfold measurementOf
  simp only
  split
  · rfl
  · split
    · rfl
    · split
      · rfl
      · rfl

/-- A target is measured as not associated exactly if it is a client that a
    valid view does not list. -/
theorem measurementOf_notAssociated_iff (view : ClientView) (t : TargetRow) :
    (measurementOf view t).state = .notAssociated ↔
      t.kind = .client ∧ view.valid = true ∧ clientPresent view t.clientMac = false := by
  unfold measurementOf
  simp only
  by_cases hinvalid : t.kind = .client ∧ view.valid = false
  · rw [if_pos hinvalid, hinvalid.2]
    simp only [reduceCtorEq, Bool.false_eq_true, false_and, and_false]
  · rw [if_neg hinvalid]
    by_cases habsent : t.kind = .client ∧ clientPresent view t.clientMac = false
    · rw [if_pos habsent]
      simp only [true_iff]
      refine ⟨habsent.1, ?_, habsent.2⟩
      by_contra hv
      exact hinvalid ⟨habsent.1, Bool.not_eq_true _ ▸ hv⟩
    · rw [if_neg habsent]
      -- What is left is probed, or has an address that is none.
      have hno : ¬ (t.kind = .client ∧ view.valid = true ∧ clientPresent view t.clientMac = false) :=
        fun h => habsent ⟨h.1, h.2.2⟩
      simp only [hno, iff_false]
      split
      · simp only [reduceCtorEq, not_false_eq_true]
      · simp only [reduceCtorEq, not_false_eq_true]

/-- Only targets without an address are left as they are by the probes. -/
theorem measurementOf_notAssociated_address (view : ClientView) (t : TargetRow)
    (h : (measurementOf view t).state = .notAssociated) :
    (measurementOf view t).pingable = false := by
  unfold measurementOf at h ⊢
  simp only at h ⊢
  split at h
  · exact absurd h (by simp only [reduceCtorEq, not_false_eq_true])
  · next hvalid =>
    rw [if_neg hvalid]
    split at h
    · next habsent =>
      rw [if_pos habsent]
      rfl
    · split at h
      · exact absurd h (by simp only [reduceCtorEq, not_false_eq_true])
      · exact absurd h (by simp only [reduceCtorEq, not_false_eq_true])

theorem pingOutcome_id (reply : Option Int) (item : Measurement) :
    (pingOutcome reply item).id = item.id := by
  unfold pingOutcome
  split
  · split
    · rfl
    · rfl
  · rfl

/-- Probing neither finds nor hides that a target is not associated. -/
theorem pingOutcome_notAssociated_iff (reply : Option Int) (item : Measurement)
    (h : item.state = .notAssociated → item.pingable = false) :
    (pingOutcome reply item).state = .notAssociated ↔ item.state = .notAssociated := by
  unfold pingOutcome
  by_cases hping : item.pingable = true
  · rw [if_pos hping]
    have hno : item.state ≠ .notAssociated := fun hs => by
      rw [h hs] at hping
      exact absurd hping Bool.false_ne_true
    cases reply with
    | none => simp only [reduceCtorEq, hno]
    | some elapsed => simp only [reduceCtorEq, hno]
  · rw [if_neg hping]

/-! ### Results of a round -/

/-- The rows that a series of inserts adds: the given ones under new numbers. -/
theorem insertResults (items : List PingRow) (table table' : ResultTable)
    (h : items.foldlM ResultTable.insert table = some table') :
    ∃ ids : List Nat, ids.length = items.length ∧
      (∀ i ∈ ids, ∀ p ∈ table.rows, p.id < i) ∧
      table'.rows = table.rows ++ List.zipWith (fun i p => { p with id := i }) ids items := by
  induction items generalizing table with
  | nil =>
      rw [List.foldlM_nil] at h
      refine ⟨[], rfl, fun i hi => absurd hi List.not_mem_nil, ?_⟩
      rw [← Option.some.inj h, List.zipWith_nil_left, List.append_nil]
  | cons item rest ih =>
      rw [List.foldlM_cons, Option.bind_eq_bind, Option.bind_eq_some_iff] at h
      rcases h with ⟨mid, hitem, hrest⟩
      unfold ResultTable.insert at hitem
      by_cases hcheck : 0 ≤ item.rttMs ∧ item.rttMs ≤ 1000
      · -- The number is above all that are in use, and so are the later ones.
        rw [if_pos hcheck, Option.some.injEq] at hitem
        subst hitem
        rcases ih _ hrest with ⟨ids, hlen, hnew, hrows⟩
        refine ⟨nextId (table.rows.map PingRow.id) :: ids, by rw [List.length_cons,
          List.length_cons, hlen], fun i hi p hp => ?_, ?_⟩
        · rcases List.mem_cons.mp hi with rfl | hi
          · exact nextId_gt _ _ (List.mem_map_of_mem hp)
          · exact hnew i hi p (List.mem_append_left _ hp)
        · rw [hrows, List.append_assoc]
          rfl
      · -- A time out of range is refused by the check of its column.
        rw [if_neg hcheck] at hitem
        exact absurd hitem (by simp only [reduceCtorEq, not_false_eq_true])

/-- A result of the round that led from `db` to `db'`. -/
def NewResult (db db' : Db) (p : PingRow) : Prop :=
  p ∈ db'.pingResult.rows ∧ ∀ q ∈ db.pingResult.rows, q.id ≠ p.id

/-- The measurements of a round, after probing. -/
def TickEnv.measurements (env : TickEnv) (db : Db) : List Measurement :=
  parallelPing env.replies (loadMeasurements db.target env.view)

/-- What the second transaction leaves. -/
theorem writeRound_cases (env : TickEnv) (db db' : Db) (h : writeRound env db = some db') :
    ∃ (table : ResultTable) (detailed : Db),
      ((env.measurements db).map (resultRow env.now)).foldlM ResultTable.insert db.pingResult
        = some table ∧
      ingestApDetail { db with pingResult := table } env.apDetail env.now = some detailed ∧
      db' = prune detailed env.now := by
  simp only [writeRound, Option.bind_eq_bind, Option.bind_eq_some_iff, Option.pure_def,
    Option.some.injEq] at h
  rcases h with ⟨-, -, -, -, -, -, -, -, -, -, table, htable, -, -, detailed, hdetailed, -, -, -, -,
    heq⟩
  exact ⟨table, detailed, htable, hdetailed, heq.symm⟩

/-- The second transaction leaves the targets alone. -/
theorem writeRound_target (env : TickEnv) (db db' : Db) (h : writeRound env db = some db') :
    db'.target = db.target := by
  rcases writeRound_cases env db db' h with ⟨table, detailed, -, hdetailed, rfl⟩
  exact (ingestApDetail_changes _ _ _ _ hdetailed).target

/-- A new result is that of a measurement. -/
theorem writeRound_new (env : TickEnv) (db db' : Db) (h : writeRound env db = some db')
    (p : PingRow) (hp : NewResult db db' p) :
    ∃ item ∈ env.measurements db, p = { resultRow env.now item with id := p.id } := by
  rcases writeRound_cases env db db' h with ⟨table, detailed, htable, hdetailed, rfl⟩
  rcases insertResults _ _ _ htable with ⟨ids, -, -, hrows⟩
  -- Neither telemetry nor pruning adds a result.
  have hmem : p ∈ table.rows := by
    have := (List.mem_filter.mp hp.1).1
    rwa [(ingestApDetail_changes _ _ _ _ hdetailed).pingResult] at this
  rw [hrows] at hmem
  rcases List.mem_append.mp hmem with hold | hnew
  · exact absurd rfl (hp.2 p hold)
  · rcases List.mem_iff_getElem?.mp hnew with ⟨k, hk⟩
    rcases List.getElem?_zipWith_eq_some.mp hk with ⟨i, row, -, hrow, rfl⟩
    rw [List.getElem?_map, Option.map_eq_some_iff] at hrow
    rcases hrow with ⟨item, hitem, rfl⟩
    exact ⟨item, List.mem_of_getElem? hitem, rfl⟩

/-- Every measurement becomes a new result. -/
theorem writeRound_writes (env : TickEnv) (db db' : Db) (h : writeRound env db = some db')
    (item : Measurement) (hitem : item ∈ env.measurements db) :
    ∃ p, NewResult db db' p ∧ p = { resultRow env.now item with id := p.id } := by
  rcases writeRound_cases env db db' h with ⟨table, detailed, htable, hdetailed, rfl⟩
  rcases insertResults _ _ _ htable with ⟨ids, hlen, hfresh, hrows⟩
  rcases List.getElem_of_mem hitem with ⟨k, hk, rfl⟩
  -- The measurement at a position is inserted under the number at it.
  have hk' : k < ids.length := by rw [hlen, List.length_map]; exact hk
  have hmem : { resultRow env.now (env.measurements db)[k] with id := ids[k] } ∈ table.rows := by
    rw [hrows]
    refine List.mem_append_right _ (List.mem_iff_getElem?.mpr ⟨k, ?_⟩)
    rw [List.getElem?_zipWith_eq_some]
    refine ⟨ids[k], resultRow env.now (env.measurements db)[k], List.getElem?_eq_getElem hk', ?_, rfl⟩
    rw [List.getElem?_map, List.getElem?_eq_getElem hk, Option.map_some]
  refine ⟨{ resultRow env.now (env.measurements db)[k] with id := ids[k] },
    ⟨List.mem_filter.mpr ⟨?_, ?_⟩, fun q hq => ?_⟩, rfl⟩
  · rwa [(ingestApDetail_changes _ _ _ _ hdetailed).pingResult]
  · -- A row of this round is too young to be pruned.
    exact decide_eq_true (Nat.le_add_right _ _)
  · exact (hfresh _ (List.getElem_mem hk') q hq).ne

/-! ### Targets of a round -/

/-- The first transaction only changes the owners of results. -/
theorem syncTargets_cases (env : TickEnv) (db synced : Db) (h : syncTargets env db = some synced) :
    ∃ merged, mergeLegacyAps { db with target := seed db.target (readAps env.apList) env.now }
        (readAps env.apList) = some merged ∧
      synced = { merged with
        target := if env.view.valid then syncClients env.view env.now merged.target
          else merged.target } := by
  simp only [syncTargets, Option.bind_eq_bind, Option.bind_eq_some_iff, Option.pure_def,
    Option.some.injEq] at h
  rcases h with ⟨-, -, -, -, -, -, -, -, -, -, merged, hmerged, synced', hsync, -, -, rfl⟩
  refine ⟨merged, hmerged, ?_⟩
  unfold TickEnv.syncClientStage at hsync
  by_cases hvalid : env.view.valid = true
  · rw [if_pos hvalid, Option.map_eq_some_iff] at hsync
    rcases hsync with ⟨-, -, rfl⟩
    rw [if_pos hvalid]
  · rw [if_neg hvalid, Option.some.injEq] at hsync
    rw [if_neg hvalid, hsync]

theorem syncTargets_pingResult (env : TickEnv) (db synced : Db)
    (h : syncTargets env db = some synced) :
    ∃ owner : PingRow → Nat, synced.pingResult = db.pingResult.setOwner owner := by
  rcases syncTargets_cases env db synced h with ⟨merged, hmerged, rfl⟩
  exact (mergeLegacyAps_merged _ _ _ hmerged).pingResult

/-- The first transaction adds no results. -/
theorem syncTargets_no_new (env : TickEnv) (db synced : Db)
    (h : syncTargets env db = some synced) (p : PingRow) : ¬ NewResult db synced p := by
  intro hp
  rcases syncTargets_pingResult env db synced h with ⟨owner, howner⟩
  have hmem := hp.1
  rw [howner] at hmem
  rcases List.mem_map.mp hmem with ⟨q, hq, rfl⟩
  exact hp.2 q hq rfl

theorem newResult_of_synced (env : TickEnv) (db synced db' : Db)
    (h : syncTargets env db = some synced) (p : PingRow) :
    NewResult db db' p ↔ NewResult synced db' p := by
  rcases syncTargets_pingResult env db synced h with ⟨owner, howner⟩
  -- Handing results over does not renumber them.
  have hids : (∀ q ∈ db.pingResult.rows, q.id ≠ p.id) ↔
      ∀ q ∈ synced.pingResult.rows, q.id ≠ p.id := by
    rw [howner]
    simp only [ResultTable.setOwner, List.forall_mem_map]
  unfold NewResult
  rw [hids]

/-- An enabled client after the first transaction was one before, or is in
    the view. -/
theorem syncTargets_client (env : TickEnv) (db synced : Db) (h : syncTargets env db = some synced)
    (t : TargetRow) (ht : t ∈ synced.target.rows) (hkind : t.kind = .client) :
    (∃ t₀ ∈ db.target.rows, SameTarget t₀ t ∧ t₀.enabled = t.enabled) ∨
      ∃ c ∈ env.view.items, t.clientMac = some c.mac := by
  rcases syncTargets_cases env db synced h with ⟨merged, hmerged, rfl⟩
  -- Neither seeding nor merging adds a client.
  have hold : ∀ t₁ ∈ merged.target.rows, t₁.kind = .client → t₁ ∈ db.target.rows := by
    intro t₁ ht₁ hk
    rcases mem_seed _ _ _ t₁ ((mergeLegacyAps_merged _ _ _ hmerged).target.subset ht₁) with hdb | hap
    · exact hdb
    · rw [hk] at hap
      exact absurd hap (by simp only [reduceCtorEq, not_false_eq_true])
  by_cases hvalid : env.view.valid = true
  · simp only [if_pos hvalid] at ht
    rcases mem_syncClients env.view env.now merged.target t ht with ⟨t₁, ht₁, hsame, hen⟩ | hview
    · exact Or.inl ⟨t₁, hold t₁ ht₁ (hsame.kind.trans hkind), hsame, hen⟩
    · exact Or.inr hview
  · simp only [if_neg hvalid] at ht
    exact Or.inl ⟨t, hold t ht hkind, SameTarget.refl t, rfl⟩

/-- An enabled client before the first transaction is one after it. -/
theorem syncTargets_keeps_client (env : TickEnv) (db synced : Db)
    (h : syncTargets env db = some synced) (t : TargetRow) (ht : t ∈ db.target.rows)
    (hkind : t.kind = .client) :
    ∃ t' ∈ synced.target.rows, SameTarget t t' ∧ (t.enabled = true → t'.enabled = true) := by
  rcases syncTargets_cases env db synced h with ⟨merged, hmerged, rfl⟩
  have hmem := mergeLegacyAps_keeps_clients _ _ _ hmerged t (subset_seed _ _ _ t ht) hkind
  by_cases hvalid : env.view.valid = true
  · simp only [if_pos hvalid]
    exact syncClients_keeps env.view env.now merged.target t hmem
  · simp only [if_neg hvalid]
    exact ⟨t, hmem, SameTarget.refl t, fun hen => hen⟩

/-- How a round ends. -/
theorem tick_cases (env : TickEnv) (db : Db) :
    tick env db = (db, 1) ∨
      ∃ synced, syncTargets env db = some synced ∧
        (tick env db = (synced, 1) ∨
          ∃ written, writeRound env synced = some written ∧ tick env db = (written, 0)) := by
  unfold tick
  cases hsync : syncTargets env db with
  | none => exact Or.inl rfl
  | some synced =>
      refine Or.inr ⟨synced, rfl, ?_⟩
      cases hwrite : writeRound env synced with
      | none => exact Or.inl (by simp only [hwrite])
      | some written => exact Or.inr ⟨written, rfl, by simp only [hwrite]⟩

end Zd1200
