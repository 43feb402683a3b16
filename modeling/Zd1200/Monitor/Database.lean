import Mathlib.Data.List.Pairwise
import Mathlib.Data.List.Sort
import Zd1200.Monitor.Text

/-!
# The Monitor's Database

The tables of the monitor and the statements it runs on them.

A table is the list of its rows in the order of their row numbers, which is
the order they were inserted in. The keys of `target` and `ping_result` are
fields of the tables, so a table that violates one cannot be built and the
statements carry the proofs that they keep them. Uniqueness is SQLite's: it
compares texts byte by byte and takes no two nulls for equal. A new target or
result gets the largest number in use plus one, so a number that becomes free
at the end of the table is used again.

Times are seconds since 1970. The numbers in the other integer columns are C
integers, each of them stored from an `int`.

## Main definitions

* `TargetRow`, `PingRow`, `RadioRow`, `MeshRow`: The rows of the tables.
* `TargetTable`, `ResultTable`: The tables with a key, and their statements.
* `Db`: The tables.
* `TargetRow.ident`: What identifies a target.
* `orderBy`: The order of a query's rows.

## Theorems

* `nextId_gt`: A new number is a new number.
* `TargetTable.mem_insertOrIgnore`: What a new target adds.
* `TargetTable.eq_of_id`: A number names one target.
-/

namespace Zd1200

inductive Kind
  | ap
  | client
  deriving DecidableEq, Repr

/-- A row of the table `target`. -/
structure TargetRow where
  id : Nat
  kind : Kind
  ip : Bytes
  clientMac : Option Bytes
  apId : Option Bytes
  name : Bytes
  currentAp : Option Bytes
  currentSsid : Option Bytes
  currentRadio : Option Bytes
  enabled : Bool
  createdAt : Nat
  deriving DecidableEq, Repr

/-- The texts that the column `state` admits. -/
inductive PingState
  | ok
  | timeout
  | notAssociated
  | unknown
  deriving DecidableEq, Repr

/-- A row of the table `ping_result`. -/
structure PingRow where
  id : Nat
  observedAt : Nat
  targetId : Nat
  rttMs : Int
  responded : Bool
  state : PingState
  snrDb : Option Int
  signalDbm : Option Int
  noiseFloorDbm : Option Int
  deriving DecidableEq, Repr

/-- A row of the table `ap_radio_sample`. -/
structure RadioRow where
  observedAt : Nat
  apMac : Bytes
  radioId : Int
  radioType : Option Bytes
  channel : Option Int
  channelization : Option Int
  clients : Option Int
  noiseFloorDbm : Option Int
  avgSnrDb : Option Int
  airtimeTotalTenths : Option Int
  airtimeBusyTenths : Option Int
  airtimeRxTenths : Option Int
  airtimeTxTenths : Option Int
  rfSamples : Option Int
  deriving DecidableEq, Repr

inductive Direction
  | uplink
  | downlink
  deriving DecidableEq, Repr

/-- A row of the table `mesh_link_sample`. -/
structure MeshRow where
  observedAt : Nat
  apMac : Bytes
  peerMac : Bytes
  direction : Direction
  radioType : Option Bytes
  snrDb : Option Int
  deriving DecidableEq, Repr

/-- Two rows of `target` agree in a column that is declared unique. -/
def TargetRow.conflicts (a b : TargetRow) : Prop :=
  (a.clientMac ≠ none ∧ a.clientMac = b.clientMac) ∨ (a.apId ≠ none ∧ a.apId = b.apId)

instance (a b : TargetRow) : Decidable (a.conflicts b) := by
  unfold TargetRow.conflicts
  infer_instance

/-- Two rows of one target: what identifies it is the same. -/
structure SameTarget (a b : TargetRow) : Prop where
  id : a.id = b.id
  kind : a.kind = b.kind
  clientMac : a.clientMac = b.clientMac
  apId : a.apId = b.apId

theorem SameTarget.refl (t : TargetRow) : SameTarget t t := ⟨rfl, rfl, rfl, rfl⟩

theorem SameTarget.ite {t t' : TargetRow} (c : Prop) [Decidable c] (h : SameTarget t t') :
    SameTarget t (if c then t' else t) := by
  by_cases hc : c
  · rw [if_pos hc]
    exact h
  · rw [if_neg hc]
    exact SameTarget.refl t

theorem SameTarget.trans {a b c : TargetRow} (h : SameTarget a b) (h' : SameTarget b c) :
    SameTarget a c :=
  ⟨h.id.trans h'.id, h.kind.trans h'.kind, h.clientMac.trans h'.clientMac, h.apId.trans h'.apId⟩

/-- What identifies a target. -/
def TargetRow.ident (t : TargetRow) : Nat × Kind × Option Bytes × Option Bytes :=
  (t.id, t.kind, t.clientMac, t.apId)

theorem ident_of_same (a b : TargetRow) (h : SameTarget a b) : a.ident = b.ident := by
  rw [TargetRow.ident, TargetRow.ident, h.id, h.kind, h.clientMac, h.apId]

/-- The number a new row of a table gets. -/
def nextId (ids : List Nat) : Nat := ids.foldr max 0 + 1

theorem nextId_gt (ids : List Nat) (i : Nat) (h : i ∈ ids) : i < nextId ids := by
  unfold nextId
  induction ids with
  | nil => exact absurd h List.not_mem_nil
  | cons first rest ih =>
      rw [List.foldr_cons]
      rcases List.mem_cons.mp h with rfl | hrest
      · omega
      · have := ih hrest
        omega

theorem nodup_concat_nextId (ids : List Nat) (h : ids.Nodup) : (ids ++ [nextId ids]).Nodup := by
  rw [List.nodup_append]
  refine ⟨h, List.nodup_singleton _, fun i hi j hj => ?_⟩
  rw [List.mem_singleton.mp hj]
  exact (nextId_gt ids i hi).ne

/-- A row is found by its number. -/
theorem find?_number {α β : Type} [DecidableEq β] (number : α → β) (rows : List α)
    (hkey : (rows.map number).Nodup) (row : α) (hrow : row ∈ rows) (n : β) (hn : number row = n) :
    rows.find? (fun r => number r = n) = some row := by
  rcases hfound : rows.find? (fun r => number r = n) with _ | found
  · exact absurd (decide_eq_true hn) (List.find?_eq_none.mp hfound row hrow)
  · have hsame : number found = n := by
      simpa only [decide_eq_true_eq] using List.find?_some hfound
    rw [List.inj_on_of_nodup_map hkey (List.mem_of_find?_eq_some hfound) hrow (hsame.trans hn.symm)]

/-- The table `target` with its primary key and its unique columns. -/
structure TargetTable where
  rows : List TargetRow
  key : (rows.map TargetRow.id).Nodup
  unique : rows.Pairwise fun a b => ¬ a.conflicts b

/-- The table `ping_result` with its primary key. -/
structure ResultTable where
  rows : List PingRow
  key : (rows.map PingRow.id).Nodup

/-- The tables that a round reads and writes. -/
structure Db where
  target : TargetTable
  pingResult : ResultTable
  apRadioSample : List RadioRow
  meshLinkSample : List MeshRow

/-- The rows of a query in the order of a column; rows that agree there stay
    in the table's order. -/
def orderBy {α β : Type} [LinearOrder β] (column : α → β) (rows : List α) : List α :=
  rows.insertionSort fun a b => column a ≤ column b

theorem mem_orderBy {α β : Type} [LinearOrder β] (column : α → β) (rows : List α) (row : α) :
    row ∈ orderBy column rows ↔ row ∈ rows :=
  List.mem_insertionSort _

/-! ### Targets -/

namespace TargetTable

def empty : TargetTable := ⟨[], List.nodup_nil, List.Pairwise.nil⟩

/-- `DELETE FROM target`. -/
def delete (table : TargetTable) (which : TargetRow → Bool) : TargetTable where
  rows := table.rows.filter fun t => !which t
  key := (List.filter_sublist.map _).nodup table.key
  unique := table.unique.sublist List.filter_sublist

/-- `UPDATE target` of columns that do not identify a target. -/
def update (table : TargetTable) (f : TargetRow → TargetRow) (same : ∀ t, SameTarget t (f t)) :
    TargetTable where
  rows := table.rows.map f
  key := by
    have hid : TargetRow.id ∘ f = TargetRow.id := funext fun t => (same t).id.symm
    rw [List.map_map, hid]
    exact table.key
  unique := by
    rw [List.pairwise_map]
    refine table.unique.imp fun {a b} hab hconf => hab ?_
    unfold TargetRow.conflicts at hconf ⊢
    rwa [(same a).clientMac, (same a).apId, (same b).clientMac, (same b).apId]

/-- `INSERT INTO target`: none if the row violates a uniqueness constraint. -/
def insert (table : TargetTable) (row : TargetRow) : Option TargetTable :=
  if h : ∃ other ∈ table.rows, other.conflicts row then none
  else some
    { rows := table.rows ++ [{ row with id := nextId (table.rows.map TargetRow.id) }]
      key := by
        rw [List.map_append]
        exact nodup_concat_nextId _ table.key
      unique := by
        rw [List.pairwise_append]
        refine ⟨table.unique, List.pairwise_singleton _ _, fun other hother new hnew hc => ?_⟩
        rw [List.mem_singleton.mp hnew] at hc
        exact h ⟨other, hother, hc⟩ }

/-- `INSERT OR IGNORE INTO target`. -/
def insertOrIgnore (table : TargetTable) (row : TargetRow) : TargetTable :=
  (table.insert row).getD table

/-- What a new target adds. -/
theorem mem_insertOrIgnore (table : TargetTable) (row t : TargetRow)
    (h : t ∈ (table.insertOrIgnore row).rows) :
    t ∈ table.rows ∨ t = { row with id := nextId (table.rows.map TargetRow.id) } := by
  unfold insertOrIgnore insert at h
  split at h
  · exact Or.inl h
  · rcases List.mem_append.mp h with hold | hnew
    · exact Or.inl hold
    · exact Or.inr (List.mem_singleton.mp hnew)

theorem subset_insertOrIgnore (table : TargetTable) (row t : TargetRow) (h : t ∈ table.rows) :
    t ∈ (table.insertOrIgnore row).rows := by
  unfold insertOrIgnore insert
  split
  · exact h
  · exact List.mem_append_left _ h

/-- A number names one target. -/
theorem eq_of_id (table : TargetTable) (t t' : TargetRow) (h : t ∈ table.rows)
    (h' : t' ∈ table.rows) (hid : t.id = t'.id) : t = t' :=
  List.inj_on_of_nodup_map table.key h h' hid

/-- An identity or a MAC that is unique names one target. -/
theorem eq_of_conflicts (table : TargetTable) (t t' : TargetRow) (h : t ∈ table.rows)
    (h' : t' ∈ table.rows) (hconflict : t.conflicts t') : t = t' := by
  have hsymm : Std.Symm fun a b : TargetRow => ¬ a.conflicts b := by
    refine ⟨fun a b hab hba => hab ?_⟩
    rcases hba with ⟨hsome, heq⟩ | ⟨hsome, heq⟩
    · exact .inl ⟨heq ▸ hsome, heq.symm⟩
    · exact .inr ⟨heq ▸ hsome, heq.symm⟩
  -- Two targets that conflict are not both in the table.
  by_contra hne
  exact table.unique.forall h h' hne hconflict

end TargetTable

/-! ### Results -/

namespace ResultTable

def empty : ResultTable := ⟨[], List.nodup_nil⟩

/-- `DELETE FROM ping_result`, keeping the rows that `keep` holds of. -/
def filter (table : ResultTable) (keep : PingRow → Bool) : ResultTable where
  rows := table.rows.filter keep
  key := (List.filter_sublist.map _).nodup table.key

/-- `UPDATE ping_result SET target_id`. -/
def setOwner (table : ResultTable) (owner : PingRow → Nat) : ResultTable where
  rows := table.rows.map fun p => { p with targetId := owner p }
  key := by
    rw [List.map_map]
    exact table.key

/-- `INSERT INTO ping_result`: none if the row violates a check. -/
def insert (table : ResultTable) (row : PingRow) : Option ResultTable :=
  if 0 ≤ row.rttMs ∧ row.rttMs ≤ 1000 then
    some
      { rows := table.rows ++ [{ row with id := nextId (table.rows.map PingRow.id) }]
        key := by
          rw [List.map_append]
          exact nodup_concat_nextId _ table.key }
  else none

end ResultTable

def emptyDb : Db := ⟨TargetTable.empty, ResultTable.empty, [], []⟩

end Zd1200
