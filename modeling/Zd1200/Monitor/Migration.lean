import Mathlib.Data.List.Dedup
import Mathlib.Data.List.MinMax
import Zd1200.Lib.Checked
import Zd1200.Monitor.Database

/-!
# The Schema and Its Upgrades

`schema` of the monitor, on a database of an earlier version.

The first versions declared other columns unique, and some of them made several
targets for one access point. Such a table of targets is rebuilt in one
transaction. First the results of an access point are given to the target with
the least number among those with its identity, then the clients and these
targets are copied. Two statements choose the targets that stay, one for each
result and one by groups, and both must choose the same ones
(`mem_leastIds_iff`): the statement that repoints the results compares
identities, for which no null is equal to another, and the one that copies the
targets groups them, for which all nulls are. So a result of an access point
without an identity has no target that it could be given to, and the rebuild
fails.

A column that is missing is added afterwards, with the same value in every row.
A failure to add a column is ignored, since it is what happens with a column
that is there.

Row numbers are of any ordered type here.

## Main definitions

* `StoredTarget`, `StoredResult`, `StoredDb`: A database of some version.
* `isLegacy`: A table of targets is rebuilt, by the text that made it.
* `rebuild`: The transaction.
* `schema`: The schema is brought up to date.
* `observation`: What a result says of a device.
* `KeepsHistory`: What an upgrade keeps.

## Theorems

* `mem_leastIds_iff`: The targets of access points that stay.
* `newOwner_eq_some`: What a result is given to.
* `device_rebuild`: A result's device stays.
* `SameCore.observations_eq`: A column that is added changes no observation.
* `schema_settled`: A further upgrade changes nothing.
* `schema_keepsHistory`: An upgrade keeps the history, or the tables.
-/

namespace Zd1200

/-! ### A database of some version -/

/-- A value of a column. -/
inductive SqlValue
  | null
  | integer (value : Int)
  | text (value : Bytes)
  deriving DecidableEq, Repr

/-- A row of `target`. The values of columns that came later stand in `more`,
    with the names of the columns. -/
structure StoredTarget (ι : Type) where
  id : ι
  kind : Kind
  ip : Bytes
  clientMac : Option Bytes
  apId : Option Bytes
  name : Bytes
  enabled : Bool
  createdAt : Nat
  more : List (String × SqlValue)
  deriving DecidableEq

/-- A row of `ping_result`. The values of columns that came later stand in
    `more`, with the names of the columns. -/
structure StoredResult (ι : Type) where
  id : ι
  observedAt : Nat
  targetId : ι
  rttMs : Int
  responded : Bool
  more : List (String × SqlValue)
  deriving DecidableEq

/-- A database: the tables `target` and `ping_result`, the tables of the radios
    and the links, and the names of all other tables and indexes.
    `targetColumns` are all columns of `target`, `resultColumns` and
    `radioColumns` only those that came later. -/
structure StoredDb (ι : Type) where
  ddl : Bytes
  targets : List (StoredTarget ι)
  targetColumns : List String
  results : List (StoredResult ι)
  resultColumns : List String
  radios : List RadioRow
  radioColumns : List String
  links : List MeshRow
  names : List String
  targetKey : (targets.map StoredTarget.id).Nodup
  resultKey : (results.map StoredResult.id).Nodup
  resultNamed : ∀ r ∈ results, r.more.map Prod.fst = resultColumns

/-- Two targets agree in a column that is declared unique now. -/
def StoredTarget.conflicts {ι : Type} (a b : StoredTarget ι) : Prop :=
  (a.clientMac ≠ none ∧ a.clientMac = b.clientMac) ∨ (a.apId ≠ none ∧ a.apId = b.apId)

instance {ι : Type} (a b : StoredTarget ι) : Decidable (a.conflicts b) :=
  inferInstanceAs (Decidable (_ ∨ _))

/-! ### The program -/

/-- The text has a part. -/
def hasText (text : Bytes) (part : String) : Bool := (findFrom text (ascii part) 0).isSome

/-- `legacy`: what is looked for in the text that made the table. -/
def isLegacy (ddl : Bytes) : Bool :=
  hasText ddl "UNIQUE(kind,ip)" || !hasText ddl "ap_id TEXT UNIQUE"

/-- The text of the new table, after it has been renamed. -/
def newTargetDdl : Bytes :=
  ascii "CREATE TABLE \"target\"(id INTEGER PRIMARY KEY," ++
    (ascii "kind TEXT NOT NULL CHECK(kind IN('ap','client'))," ++
      (ascii "ip TEXT NOT NULL,client_mac TEXT UNIQUE,ap_id TEXT UNIQUE,name TEXT NOT NULL," ++
        ascii "enabled INTEGER NOT NULL DEFAULT 1,created_at INTEGER NOT NULL)"))

/-- The columns that are copied. -/
def copiedColumns : List String :=
  ["id", "kind", "ip", "client_mac", "ap_id", "name", "enabled", "created_at"]

/-- Why a statement fails. -/
inductive SqlError
  | tableExists
  | noColumn
  | notNull
  | unique
  deriving DecidableEq, Repr

section Schema

variable {ι : Type} [LinearOrder ι]

/-- `MIN(id)` of the access points with an identity. -/
def leastAp (targets : List (StoredTarget ι)) (apId : Option Bytes) : Option ι :=
  ((targets.filter fun t => t.kind = .ap ∧ t.apId = apId).map StoredTarget.id).argmin fun id => id

/-- What `UPDATE ping_result SET target_id` writes in place of a target's
    number: none is a null. -/
def newOwner (targets : List (StoredTarget ι)) (owner : ι) : Option ι :=
  if ∃ t ∈ targets, t.kind = .ap ∧ t.id = owner then
    match (targets.find? fun t => decide (t.id = owner)).bind StoredTarget.apId with
    -- No identity is equal to a null.
    | none => none
    | some apId => leastAp targets (some apId)
  else some owner

/-- `SELECT MIN(id) FROM target WHERE kind='ap' GROUP BY ap_id`. -/
def leastIds (targets : List (StoredTarget ι)) : List ι :=
  ((targets.filter fun t => t.kind = .ap).map StoredTarget.apId).dedup.filterMap (leastAp targets)

/-- The targets that are copied. -/
def stays (targets : List (StoredTarget ι)) (t : StoredTarget ι) : Bool :=
  t.kind = .client ∨ t.id ∈ leastIds targets

/-- The new table. Its later columns are not there. -/
def rebuiltTargets (targets : List (StoredTarget ι)) : List (StoredTarget ι) :=
  (targets.filter (stays targets)).map fun t => { t with more := [] }

/-- The statements from `BEGIN` to `COMMIT`. If one fails, the transaction is
    still open, and closing the connection undoes it. -/
def rebuild (db : StoredDb ι) : Except SqlError (StoredDb ι) := do
  raiseIf ("target_new" ∈ db.names) .tableExists
  raiseIf (∃ name ∈ copiedColumns, name ∉ db.targetColumns) .noColumn
  raiseIf (∃ r ∈ db.results, newOwner db.targets r.targetId = none) .notNull
  raiseIf (¬ (db.targets.filter (stays db.targets)).Pairwise fun a b => ¬ a.conflicts b) .unique
  return { db with
    ddl := newTargetDdl
    targets := rebuiltTargets db.targets
    targetColumns := copiedColumns
    results := db.results.map fun r =>
      { r with targetId := (newOwner db.targets r.targetId).getD r.targetId }
    targetKey := by
      rw [rebuiltTargets, List.map_map]
      exact db.targetKey.sublist (List.filter_sublist.map _)
    resultKey := by
      rw [List.map_map]
      exact db.resultKey
    resultNamed := by
      intro r hr
      rcases List.mem_map.mp hr with ⟨old, hold, rfl⟩
      exact db.resultNamed old hold }

/-- The tables that are dropped. -/
def prototypeNames : List String := ["sample", "hourly_summary"]

/-- The tables and indexes that are made if they are missing. -/
def schemaNames : List String :=
  ["ping_result_target_time", "ap_radio_sample", "ap_radio_sample_ap_time", "mesh_link_sample",
    "mesh_link_sample_ap_time", "zd_event", "zd_event_time"]

/-- The first statements. -/
def createMissing (db : StoredDb ι) : StoredDb ι :=
  { db with
    names := db.names.filter (· ∉ prototypeNames) ++ schemaNames.filter (· ∉ db.names) }

/-- `ALTER TABLE ping_result ADD COLUMN`. -/
def addResultColumn (name : String) (value : SqlValue) (db : StoredDb ι) : StoredDb ι :=
  if name ∈ db.resultColumns then db
  else
    { db with
      resultColumns := db.resultColumns ++ [name]
      results := db.results.map fun r => { r with more := r.more ++ [(name, value)] }
      resultKey := by
        rw [List.map_map]
        exact db.resultKey
      resultNamed := by
        intro r hr
        rcases List.mem_map.mp hr with ⟨old, hold, rfl⟩
        rw [List.map_append, db.resultNamed old hold]
        rfl }

/-- `ALTER TABLE target ADD COLUMN` of a text. It is added to the text of the
    table, in front of the bracket. -/
def addTargetColumn (name : String) (db : StoredDb ι) : StoredDb ι :=
  if name ∈ db.targetColumns then db
  else
    { db with
      ddl := db.ddl.dropLast ++ ascii (", " ++ name ++ " TEXT)")
      targetColumns := db.targetColumns ++ [name]
      targets := db.targets.map fun t => { t with more := t.more ++ [(name, .null)] }
      targetKey := by
        rw [List.map_map]
        exact db.targetKey }

/-- `ALTER TABLE ap_radio_sample ADD COLUMN`. -/
def addRadioColumn (name : String) (db : StoredDb ι) : StoredDb ι :=
  if name ∈ db.radioColumns then db
  else { db with radioColumns := db.radioColumns ++ [name] }

/-- The last statements, whose failures are ignored. -/
def addColumns (db : StoredDb ι) : StoredDb ι :=
  let db := addResultColumn "state" (.text (ascii "timeout")) db
  let db := addResultColumn "snr_db" .null db
  let db := addResultColumn "signal_dbm" .null db
  let db := addResultColumn "noise_floor_dbm" .null db
  let db := addTargetColumn "current_ap" db
  let db := addTargetColumn "current_ssid" db
  let db := addTargetColumn "current_radio" db
  addRadioColumn "rf_samples" db

/-- `schema`: whether it succeeds, and the database after the connection is
    closed. -/
def schema (db : StoredDb ι) : Bool × StoredDb ι :=
  let db := createMissing db
  if isLegacy db.ddl then
    match rebuild db with
    | .error _ => (false, db)
    | .ok db => (true, addColumns db)
  else (true, addColumns db)

/-! ### What an upgrade keeps -/

/-- A target without its later columns. -/
def StoredTarget.core (t : StoredTarget ι) : StoredTarget ι := { t with more := [] }

/-- A result without its later columns. -/
def StoredResult.core (r : StoredResult ι) : StoredResult ι := { r with more := [] }

/-- The MAC of a client, the identity of an access point. -/
def StoredTarget.identity (t : StoredTarget ι) : Kind × Option Bytes :=
  match t.kind with
  | .client => (.client, t.clientMac)
  | .ap => (.ap, t.apId)

/-- The device of a target's number. -/
def device (targets : List (StoredTarget ι)) (owner : ι) : Option (Kind × Option Bytes) :=
  (targets.find? fun t => decide (t.id = owner)).map StoredTarget.identity

/-- What a result says of a device. -/
def observation (targets : List (StoredTarget ι)) (r : StoredResult ι) :
    Nat × Int × Bool × Option (Kind × Option Bytes) :=
  (r.observedAt, r.rttMs, r.responded, device targets r.targetId)

/-- What the results say, each with its number. -/
def observations (db : StoredDb ι) :
    List (ι × Nat × Int × Bool × Option (Kind × Option Bytes)) :=
  db.results.map fun r => (r.id, observation db.targets r)

/-- What an upgrade keeps of a database. -/
structure KeepsHistory (db db' : StoredDb ι) : Prop where
  observations : observations db' = observations db
  /-- A result that named a target names one. -/
  named : ∀ r ∈ db.results, ∀ t ∈ db.targets, t.id = r.targetId →
    ∃ r' ∈ db'.results, r'.id = r.id ∧ ∃ t' ∈ db'.targets, t'.id = r'.targetId
  unique : db'.targets.Pairwise fun a b => ¬ a.conflicts b
  clients : ∀ t ∈ db.targets, t.kind = .client → ∃ t' ∈ db'.targets, t'.core = t.core
  settled : schema db' = (true, db')

/-! ### The targets that stay -/

theorem leastAp_eq_some (targets : List (StoredTarget ι)) (apId : Option Bytes) (id : ι)
    (h : leastAp targets apId = some id) :
    ∃ t ∈ targets, t.kind = .ap ∧ t.apId = apId ∧ t.id = id := by
  rcases List.mem_map.mp (List.argmin_mem h) with ⟨t, ht, hid⟩
  rw [List.mem_filter, decide_eq_true_eq] at ht
  exact ⟨t, ht.1, ht.2.1, ht.2.2, hid⟩

/-- The targets of access points that stay are the least ones of their
    identities, which the results are given to. -/
theorem mem_leastIds_iff (targets : List (StoredTarget ι)) (id : ι) :
    id ∈ leastIds targets ↔ ∃ apId, leastAp targets apId = some id := by
  rw [leastIds, List.mem_filterMap]
  constructor
  · rintro ⟨apId, -, h⟩
    exact ⟨apId, h⟩
  · rintro ⟨apId, h⟩
    rcases leastAp_eq_some targets apId id h with ⟨t, ht, hap, hapId, -⟩
    -- An identity with a least target is one of the groups.
    refine ⟨apId, List.mem_dedup.mpr (List.mem_map.mpr ⟨t, ?_, hapId⟩), h⟩
    exact List.mem_filter.mpr ⟨ht, decide_eq_true hap⟩

theorem mem_rebuiltTargets (targets : List (StoredTarget ι)) (t : StoredTarget ι) :
    t ∈ rebuiltTargets targets ↔ ∃ u ∈ targets, stays targets u = true ∧ u.core = t := by
  rw [rebuiltTargets, List.mem_map]
  simp only [List.mem_filter, and_assoc, StoredTarget.core]

/-- A target of the new table is an old one. -/
theorem id_mem_of_rebuilt (targets : List (StoredTarget ι)) (t : StoredTarget ι)
    (ht : t ∈ rebuiltTargets targets) : ∃ u ∈ targets, u.id = t.id := by
  rcases (mem_rebuiltTargets targets t).mp ht with ⟨u, hu, -, rfl⟩
  exact ⟨u, hu, rfl⟩

theorem client_rebuilt (targets : List (StoredTarget ι)) (t : StoredTarget ι) (ht : t ∈ targets)
    (hclient : t.kind = .client) : t.core ∈ rebuiltTargets targets :=
  (mem_rebuiltTargets targets _).mpr ⟨t, ht, decide_eq_true (.inl hclient), rfl⟩

theorem least_rebuilt (targets : List (StoredTarget ι)) (apId : Option Bytes) (id : ι)
    (h : leastAp targets apId = some id) :
    ∃ t : StoredTarget ι, t.core ∈ rebuiltTargets targets ∧ t.kind = .ap ∧ t.apId = apId ∧ t.id = id := by
  rcases leastAp_eq_some targets apId id h with ⟨t, ht, hap, hapId, hid⟩
  have hstays : t.id ∈ leastIds targets := (mem_leastIds_iff _ _).mpr ⟨apId, by rw [hid, h]⟩
  exact ⟨t, (mem_rebuiltTargets targets _).mpr ⟨t, ht, decide_eq_true (.inr hstays), rfl⟩, hap,
    hapId, hid⟩

/-! ### The owner of a result -/

section Owner

variable (targets : List (StoredTarget ι)) (hkey : (targets.map StoredTarget.id).Nodup)

include hkey

theorem device_of_mem (t : StoredTarget ι) (ht : t ∈ targets) :
    device targets t.id = some t.identity := by
  rw [device, find?_number StoredTarget.id targets hkey t ht t.id rfl, Option.map_some]

/-- What a result is given to: the least target of an access point's identity,
    or what it had. -/
theorem newOwner_eq_some (owner id : ι) (h : newOwner targets owner = some id) :
    (id = owner ∧ ∀ t ∈ targets, t.id = owner → t.kind = .client) ∨
    ∃ t ∈ targets, t.id = owner ∧ t.kind = .ap ∧ ∃ apId, t.apId = some apId ∧
      leastAp targets (some apId) = some id := by
  unfold newOwner at h
  by_cases hap : ∃ t ∈ targets, t.kind = .ap ∧ t.id = owner
  · rw [if_pos hap] at h
    rcases hap with ⟨t, ht, hkind, rfl⟩
    rw [find?_number StoredTarget.id targets hkey t ht t.id rfl, Option.bind_some] at h
    cases hapId : t.apId with
    | none =>
        rw [hapId] at h
        exact absurd h (by simp only [reduceCtorEq, not_false_eq_true])
    | some apId =>
        rw [hapId] at h
        exact .inr ⟨t, ht, rfl, hkind, apId, hapId, h⟩
  · rw [if_neg hap, Option.some.injEq] at h
    refine .inl ⟨h.symm, fun t ht hid => ?_⟩
    cases hkind : t.kind with
    | ap => exact absurd ⟨t, ht, hkind, hid⟩ hap
    | client => rfl

theorem rebuilt_key : ((rebuiltTargets targets).map StoredTarget.id).Nodup := by
  rw [rebuiltTargets, List.map_map]
  exact hkey.sublist (List.filter_sublist.map _)

/-- A result that has been given to a target says of the same device what it
    said before. -/
theorem device_rebuild (owner id : ι) (h : newOwner targets owner = some id) :
    device (rebuiltTargets targets) id = device targets owner := by
  have hnew := device_of_mem _ (rebuilt_key targets hkey)
  rcases newOwner_eq_some targets hkey owner id h with
    ⟨rfl, hclient⟩ | ⟨t, ht, rfl, hap, apId, hapId, hleast⟩
  · cases hfound : targets.find? fun t => decide (t.id = id) with
    | none =>
        -- A number without a target gets none.
        rw [device, device, hfound, List.find?_eq_none.mpr]
        intro t ht hid
        rcases id_mem_of_rebuilt targets t ht with ⟨u, hu, huid⟩
        refine List.find?_eq_none.mp hfound u hu (decide_eq_true ?_)
        rw [huid]
        exact of_decide_eq_true hid
    | some t =>
        have ht := List.mem_of_find?_eq_some hfound
        have hid : t.id = id := by simpa only [decide_eq_true_eq] using List.find?_some hfound
        rw [← hid, device_of_mem targets hkey t ht]
        exact hnew t.core (client_rebuilt targets t ht (hclient t ht hid))
  · rcases least_rebuilt targets _ _ hleast with ⟨u, hu, huap, huapId, rfl⟩
    -- Both are access points with the identity.
    have hsame : u.core.identity = t.identity := by
      simp only [StoredTarget.identity, StoredTarget.core, hap, hapId, huap, huapId]
    rw [device_of_mem targets hkey t ht, ← hsame]
    exact hnew u.core hu

/-- A result that named a target has been given to one that stays. -/
theorem named_rebuild (t : StoredTarget ι) (ht : t ∈ targets) (id : ι)
    (h : newOwner targets t.id = some id) : ∃ u ∈ rebuiltTargets targets, u.id = id := by
  rcases newOwner_eq_some targets hkey t.id id h with ⟨rfl, hclient⟩ | ⟨-, -, -, -, apId, -, hleast⟩
  · exact ⟨t.core, client_rebuilt targets t ht (hclient t ht rfl), rfl⟩
  · rcases least_rebuilt targets _ _ hleast with ⟨u, hu, -, -, hid⟩
    exact ⟨u.core, hu, hid⟩

end Owner

end Schema

/-! ### The columns that came later -/

section Columns

variable {ι : Type} (name : String) (value : SqlValue) (db : StoredDb ι)

/-- Nothing but the columns that came later differs. -/
structure SameCore {ι : Type} (db db' : StoredDb ι) : Prop where
  targets : db'.targets.map StoredTarget.core = db.targets.map StoredTarget.core
  results : db'.results.map StoredResult.core = db.results.map StoredResult.core

theorem SameCore.refl : SameCore db db := ⟨rfl, rfl⟩

theorem SameCore.trans {a b c : StoredDb ι} (h : SameCore a b) (h' : SameCore b c) :
    SameCore a c :=
  ⟨h'.targets.trans h.targets, h'.results.trans h.results⟩

theorem sameCore_addResultColumn :
    SameCore db (addResultColumn name value db) := by
  unfold addResultColumn
  split
  · exact SameCore.refl db
  · exact ⟨rfl, List.map_map⟩

theorem sameCore_addTargetColumn :
    SameCore db (addTargetColumn name db) := by
  unfold addTargetColumn
  split
  · exact SameCore.refl db
  · exact ⟨List.map_map, rfl⟩

theorem sameCore_addRadioColumn :
    SameCore db (addRadioColumn name db) := by
  unfold addRadioColumn
  split
  · exact SameCore.refl db
  · exact ⟨rfl, rfl⟩

theorem sameCore_addColumns : SameCore db (addColumns db) :=
  (sameCore_addResultColumn _ _ db).trans <|
  (sameCore_addResultColumn _ _ _).trans <|
  (sameCore_addResultColumn _ _ _).trans <|
  (sameCore_addResultColumn _ _ _).trans <|
  (sameCore_addTargetColumn _ _).trans <|
  (sameCore_addTargetColumn _ _).trans <|
  (sameCore_addTargetColumn _ _).trans (sameCore_addRadioColumn _ _)

theorem SameCore.target {db db' : StoredDb ι} (h : SameCore db db') (t : StoredTarget ι)
    (ht : t ∈ db.targets) : ∃ t' ∈ db'.targets, t'.core = t.core := by
  rw [← List.mem_map, h.targets]
  exact List.mem_map_of_mem ht

theorem SameCore.result {db db' : StoredDb ι} (h : SameCore db db') (r : StoredResult ι)
    (hr : r ∈ db.results) : ∃ r' ∈ db'.results, r'.core = r.core := by
  rw [← List.mem_map, h.results]
  exact List.mem_map_of_mem hr

theorem SameCore.unique {db db' : StoredDb ι} (h : SameCore db db')
    (hunique : db.targets.Pairwise fun a b => ¬ a.conflicts b) :
    db'.targets.Pairwise fun a b => ¬ a.conflicts b := by
  have hall : ∀ targets : List (StoredTarget ι),
      (targets.map StoredTarget.core).Pairwise (fun a b => ¬ a.conflicts b) ↔
        targets.Pairwise fun a b => ¬ a.conflicts b := fun targets => List.pairwise_map
  rwa [← hall, h.targets, hall]

theorem addResultColumn_of_mem (h : name ∈ db.resultColumns) : addResultColumn name value db = db :=
  if_pos h

theorem addTargetColumn_of_mem (h : name ∈ db.targetColumns) : addTargetColumn name db = db :=
  if_pos h

theorem addRadioColumn_of_mem (h : name ∈ db.radioColumns) : addRadioColumn name db = db :=
  if_pos h

@[simp] theorem mem_resultColumns_add (other : String) :
    other ∈ (addResultColumn name value db).resultColumns ↔
      other ∈ db.resultColumns ∨ other = name := by
  unfold addResultColumn
  split
  · next h => exact ⟨.inl, fun h' => h'.elim id fun heq => heq ▸ h⟩
  · rw [List.mem_append, List.mem_singleton]

@[simp] theorem mem_targetColumns_add (other : String) :
    other ∈ (addTargetColumn name db).targetColumns ↔
      other ∈ db.targetColumns ∨ other = name := by
  unfold addTargetColumn
  split
  · next h => exact ⟨.inl, fun h' => h'.elim id fun heq => heq ▸ h⟩
  · rw [List.mem_append, List.mem_singleton]

@[simp] theorem mem_radioColumns_add (other : String) :
    other ∈ (addRadioColumn name db).radioColumns ↔ other ∈ db.radioColumns ∨ other = name := by
  unfold addRadioColumn
  split
  · next h => exact ⟨.inl, fun h' => h'.elim id fun heq => heq ▸ h⟩
  · rw [List.mem_append, List.mem_singleton]

@[simp] theorem addResultColumn_targetColumns :
    (addResultColumn name value db).targetColumns = db.targetColumns := by
  unfold addResultColumn
  split <;> rfl

@[simp] theorem addResultColumn_ddl : (addResultColumn name value db).ddl = db.ddl := by
  unfold addResultColumn
  split <;> rfl

@[simp] theorem addResultColumn_names : (addResultColumn name value db).names = db.names := by
  unfold addResultColumn
  split <;> rfl

@[simp] theorem addTargetColumn_resultColumns :
    (addTargetColumn name db).resultColumns = db.resultColumns := by
  unfold addTargetColumn
  split <;> rfl

@[simp] theorem addTargetColumn_names : (addTargetColumn name db).names = db.names := by
  unfold addTargetColumn
  split <;> rfl

theorem addTargetColumn_ddl (h : name ∉ db.targetColumns) :
    (addTargetColumn name db).ddl = db.ddl.dropLast ++ ascii (", " ++ name ++ " TEXT)") := by
  rw [addTargetColumn, if_neg h]

@[simp] theorem addRadioColumn_resultColumns :
    (addRadioColumn name db).resultColumns = db.resultColumns := by
  unfold addRadioColumn
  split <;> rfl

@[simp] theorem addRadioColumn_targetColumns :
    (addRadioColumn name db).targetColumns = db.targetColumns := by
  unfold addRadioColumn
  split <;> rfl

@[simp] theorem addRadioColumn_ddl : (addRadioColumn name db).ddl = db.ddl := by
  unfold addRadioColumn
  split <;> rfl

@[simp] theorem addRadioColumn_names : (addRadioColumn name db).names = db.names := by
  unfold addRadioColumn
  split <;> rfl

/-- The columns are all there afterwards. -/
theorem mem_addColumns :
    (∀ other ∈ ["state", "snr_db", "signal_dbm", "noise_floor_dbm"],
      other ∈ (addColumns db).resultColumns) ∧
    (∀ other ∈ ["current_ap", "current_ssid", "current_radio"],
      other ∈ (addColumns db).targetColumns) ∧
    "rf_samples" ∈ (addColumns db).radioColumns := by
  simp [addColumns]

/-- Where all columns are there, none is added. -/
theorem addColumns_of_mem
    (hresult : ∀ other ∈ ["state", "snr_db", "signal_dbm", "noise_floor_dbm"],
      other ∈ db.resultColumns)
    (htarget : ∀ other ∈ ["current_ap", "current_ssid", "current_radio"],
      other ∈ db.targetColumns)
    (hradio : "rf_samples" ∈ db.radioColumns) : addColumns db = db := by
  simp only [List.mem_cons, List.not_mem_nil, or_false, forall_eq_or_imp, forall_eq] at hresult
  simp only [List.mem_cons, List.not_mem_nil, or_false, forall_eq_or_imp, forall_eq] at htarget
  rcases hresult with ⟨hstate, hsnr, hsignal, hnoise⟩
  rcases htarget with ⟨hap, hssid, hr⟩
  simp only [addColumns]
  rw [addResultColumn_of_mem _ _ db hstate, addResultColumn_of_mem _ _ db hsnr,
    addResultColumn_of_mem _ _ db hsignal, addResultColumn_of_mem _ _ db hnoise,
    addTargetColumn_of_mem _ db hap, addTargetColumn_of_mem _ db hssid,
    addTargetColumn_of_mem _ db hr, addRadioColumn_of_mem _ db hradio]

theorem addColumns_names : (addColumns db).names = db.names := by
  simp only [addColumns, addRadioColumn_names, addTargetColumn_names, addResultColumn_names]

/-- The text of a rebuilt table has all columns behind it. -/
theorem addColumns_ddl (hddl : db.ddl = newTargetDdl) (hcolumns : db.targetColumns = copiedColumns) :
    (addColumns db).ddl =
      ((newTargetDdl.dropLast ++ ascii ", current_ap TEXT)").dropLast ++
        ascii ", current_ssid TEXT)").dropLast ++ ascii ", current_radio TEXT)" := by
  simp only [addColumns, addRadioColumn_ddl]
  rw [addTargetColumn_ddl, addTargetColumn_ddl, addTargetColumn_ddl]
  · simp only [addResultColumn_ddl, hddl]
    rfl
  all_goals
    simp only [mem_targetColumns_add, addResultColumn_targetColumns, hcolumns]
    decide

/-- Where the names are those that are made, none is made. -/
theorem createMissing_of_names (db' : StoredDb ι) (h : db'.names = (createMissing db).names) :
    createMissing db' = db' := by
  have hdropped : ∀ name ∈ schemaNames, name ∉ prototypeNames := by decide
  have hnames : db'.names.filter (· ∉ prototypeNames) ++ schemaNames.filter (· ∉ db'.names) =
      db'.names := by
    have hkept : ∀ name ∈ db'.names, decide (name ∉ prototypeNames) = true := by
      intro name hname
      rw [h, createMissing, List.mem_append, List.mem_filter, List.mem_filter] at hname
      exact hname.elim And.right fun hnew => decide_eq_true (hdropped name hnew.1)
    have hmade : ∀ name ∈ schemaNames, ¬ decide (name ∉ db'.names) = true := by
      intro name hname
      rw [decide_eq_true_eq, not_not, h, createMissing, List.mem_append, List.mem_filter,
        List.mem_filter]
      -- A name that is made was there and stays, or was not there.
      by_cases hold : name ∈ db.names
      · exact .inl ⟨hold, decide_eq_true (hdropped name hname)⟩
      · exact .inr ⟨hname, decide_eq_true hold⟩
    rw [List.filter_eq_self.mpr hkept, List.filter_eq_nil_iff.mpr hmade, List.append_nil]
  rw [createMissing, hnames]

end Columns

section Upgrade

variable {ι : Type} [LinearOrder ι]

theorem device_core (targets : List (StoredTarget ι)) (owner : ι) :
    device (targets.map StoredTarget.core) owner = device targets owner := by
  rw [device, List.find?_map, Option.map_map]
  rfl

theorem observation_core (targets : List (StoredTarget ι)) (r : StoredResult ι) :
    observation (targets.map StoredTarget.core) r.core = observation targets r := by
  rw [observation, device_core]
  rfl

/-- Equal rows but for later columns say the same. -/
theorem SameCore.observations_eq {db db' : StoredDb ι} (h : SameCore db db') :
    observations db' = observations db := by
  have hall : ∀ d : StoredDb ι, observations d = (d.results.map StoredResult.core).map fun r =>
      (r.id, observation (d.targets.map StoredTarget.core) r) := by
    intro d
    rw [observations, List.map_map]
    refine List.map_congr_left fun r _ => ?_
    rw [Function.comp_apply, observation_core]
    rfl
  rw [hall, hall, h.targets, h.results]

/-- What the transaction has done when it is committed. -/
structure Rebuilt (db db' : StoredDb ι) : Prop where
  owned : ∀ r ∈ db.results, newOwner db.targets r.targetId ≠ none
  unique : (db.targets.filter (stays db.targets)).Pairwise fun a b => ¬ a.conflicts b
  ddl : db'.ddl = newTargetDdl
  targets : db'.targets = rebuiltTargets db.targets
  targetColumns : db'.targetColumns = copiedColumns
  results : db'.results = db.results.map fun r =>
    { r with targetId := (newOwner db.targets r.targetId).getD r.targetId }
  resultColumns : db'.resultColumns = db.resultColumns
  names : db'.names = db.names

theorem rebuild_ok (db db' : StoredDb ι) (h : rebuild db = .ok db') : Rebuilt db db' := by
  unfold rebuild at h
  simp only [bind_ok_iff, raiseIf_ok_iff, exists_and_left, not_exists, not_and, not_not,
    pure_ok_iff, exists_const] at h
  rcases h with ⟨-, -, howned, hunique, rfl⟩
  exact ⟨howned, hunique, by dsimp only, rfl, rfl, rfl, rfl, rfl⟩

/-- A rebuilt table keeps the history. -/
theorem Rebuilt.observations_eq {db db' : StoredDb ι} (h : Rebuilt db db') :
    observations db' = observations db := by
  rw [observations, observations, h.results, h.targets, List.map_map]
  refine List.map_congr_left fun r hr => ?_
  rcases Option.ne_none_iff_exists'.mp (h.owned r hr) with ⟨id, hid⟩
  simp only [Function.comp_apply, observation, hid, Option.getD_some]
  rw [device_rebuild db.targets db.targetKey r.targetId id hid]

theorem Rebuilt.named {db db' : StoredDb ι} (h : Rebuilt db db') (r : StoredResult ι)
    (hr : r ∈ db.results) (t : StoredTarget ι) (ht : t ∈ db.targets) (hid : t.id = r.targetId) :
    ∃ r' ∈ db'.results, r'.id = r.id ∧ ∃ t' ∈ db'.targets, t'.id = r'.targetId := by
  rcases Option.ne_none_iff_exists'.mp (h.owned r hr) with ⟨id, howner⟩
  rw [h.results, h.targets]
  refine ⟨_, List.mem_map_of_mem hr, rfl, ?_⟩
  rw [howner, Option.getD_some]
  rw [← hid] at howner
  exact named_rebuild db.targets db.targetKey t ht id howner

theorem Rebuilt.unique_targets {db db' : StoredDb ι} (h : Rebuilt db db') :
    db'.targets.Pairwise fun a b => ¬ a.conflicts b := by
  rw [h.targets, rebuiltTargets, List.pairwise_map]
  exact h.unique

/-! ### The whole upgrade -/

/-- A further upgrade changes nothing. -/
theorem schema_settled (db rebuilt : StoredDb ι) (h : Rebuilt (createMissing db) rebuilt) :
    schema (addColumns rebuilt) = (true, addColumns rebuilt) := by
  have hmissing : createMissing (addColumns rebuilt) = addColumns rebuilt :=
    createMissing_of_names db _ (by rw [addColumns_names, h.names])
  have hnew : isLegacy (addColumns rebuilt).ddl = false := by
    rw [addColumns_ddl rebuilt h.ddl h.targetColumns]
    decide +kernel
  rcases mem_addColumns rebuilt with ⟨hresult, htarget, hradio⟩
  simp only [schema, hmissing, hnew, Bool.false_eq_true, if_false]
  rw [addColumns_of_mem _ hresult htarget hradio]

/-- An upgrade of any version leaves what the results say. -/
theorem schema_observations (db db' : StoredDb ι) (h : schema db = (true, db')) :
    ∃ rebuilt, observations rebuilt = observations db ∧ rebuilt.resultColumns = db.resultColumns ∧
      db' = addColumns rebuilt := by
  simp only [schema] at h
  split at h
  · split at h
    · exact absurd h (by simp only [Prod.mk.injEq, Bool.false_eq_true, false_and, not_false_eq_true])
    · next rebuilt hrebuild =>
        have hrebuilt := rebuild_ok _ _ hrebuild
        exact ⟨rebuilt, hrebuilt.observations_eq, hrebuilt.resultColumns, (Prod.mk.inj h).2.symm⟩
  · exact ⟨createMissing db, rfl, rfl, (Prod.mk.inj h).2.symm⟩

/-- An upgrade of a table of targets of an earlier version keeps the history,
    or it fails and leaves the tables as they were. -/
theorem schema_keepsHistory (db : StoredDb ι) (h : isLegacy db.ddl = true) :
    (∀ db', schema db = (true, db') → KeepsHistory db db') ∧
    (∀ db', schema db = (false, db') →
      db'.ddl = db.ddl ∧ db'.targets = db.targets ∧ db'.targetColumns = db.targetColumns ∧
        db'.results = db.results ∧ db'.resultColumns = db.resultColumns) := by
  have hlegacy : isLegacy (createMissing db).ddl = true := h
  simp only [schema, hlegacy, if_true]
  cases hrebuild : rebuild (createMissing db) with
  | error e =>
      simp only [Prod.mk.injEq, Bool.false_eq_true, false_and, false_imp_iff, implies_true,
        true_and]
      rintro db' rfl
      exact ⟨rfl, rfl, rfl, rfl, rfl⟩
  | ok rebuilt =>
      have hrebuilt := rebuild_ok _ _ hrebuild
      have hcore := sameCore_addColumns rebuilt
      simp only [Prod.mk.injEq, reduceCtorEq, false_and, false_imp_iff, implies_true, and_true,
        true_and]
      rintro db' rfl
      refine ⟨?_, ?_, ?_, ?_, schema_settled db rebuilt hrebuilt⟩
      · exact hcore.observations_eq.trans hrebuilt.observations_eq
      · intro r hr t ht hid
        rcases hrebuilt.named r hr t ht hid with ⟨r', hr', hrid, t', ht', htid⟩
        -- The added columns move neither numbers nor owners.
        rcases hcore.result r' hr' with ⟨r'', hr'', hrcore⟩
        rcases hcore.target t' ht' with ⟨t'', ht'', htcore⟩
        have hnumber := congrArg StoredResult.id hrcore
        have howner := congrArg StoredResult.targetId hrcore
        have htarget := congrArg StoredTarget.id htcore
        exact ⟨r'', hr'', hnumber.trans hrid, t'', ht'',
          htarget.trans (htid.trans howner.symm)⟩
      · exact hcore.unique hrebuilt.unique_targets
      · intro t ht hclient
        have hcopy := client_rebuilt db.targets t ht hclient
        rw [← show rebuilt.targets = rebuiltTargets db.targets from hrebuilt.targets] at hcopy
        exact hcore.target t.core hcopy

end Upgrade

/-- Two targets of one access point, of which the second is the least, a client
    and a result without a target. -/
def duplicatedDb : StoredDb Int where
  ddl := ascii "CREATE TABLE target(id INTEGER PRIMARY KEY,kind TEXT,ip TEXT,UNIQUE(kind,ip))"
  targets :=
    [⟨7, .ap, ascii "10.0.0.7", none, some (ascii "ap1"), ascii "hall", true, 5, []⟩,
     ⟨-3, .ap, ascii "10.0.0.8", none, some (ascii "ap1"), ascii "hall", true, 6, []⟩,
     ⟨2, .client, ascii "10.0.0.9", some (ascii "aa:bb:cc:dd:ee:01"), none, ascii "phone", true, 7,
      []⟩]
  targetColumns := copiedColumns
  results := [⟨1, 60, 7, 12, true, []⟩, ⟨2, 60, 2, 0, false, []⟩, ⟨3, 120, -3, 4, true, []⟩,
    ⟨4, 120, 99, 4, true, []⟩]
  resultColumns := []
  radios := []
  radioColumns := []
  links := []
  names := ["sample"]
  targetKey := by decide
  resultKey := by decide
  resultNamed := by decide

theorem schema_keepsHistory_duplicates :
    (schema duplicatedDb).2.results.map StoredResult.targetId = [-3, 2, -3, 99] ∧
      KeepsHistory duplicatedDb (schema duplicatedDb).2 := by
  have hok : (schema duplicatedDb).1 = true := by decide +kernel
  refine ⟨by decide +kernel, ?_⟩
  exact (schema_keepsHistory duplicatedDb (by decide +kernel)).1 _ (Prod.ext hok rfl)

end Zd1200
