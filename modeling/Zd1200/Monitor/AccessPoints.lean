import Zd1200.Lib.Checked
import Zd1200.Monitor.Database

/-!
# Access Points

The access points of a round: `read_aps`, `seed` and `merge_legacy_aps`.

The controller's list is read tag by tag, each entry put in front of the ones
before. `seed` makes a target for every entry that has none. A target made by
an early version carries a number of the vendor's in place of the access
point's MAC, and is told by the length of its identity; `mergeLegacyAps` hands
its results to the target of the entry with the same address and deletes it.

The entries' identities are not checked, so an entry may itself have an
identity of another length. It is then deleted by its own merge, and if a
result is to be handed to it afterwards the statement fails, which fails the
round.

## Main definitions

* `ApTarget`: An entry of the controller's list.
* `readAps`: The entries of a list.
* `seed`: New targets for the entries.
* `mergeLegacyAps`: Old targets merged into them.

## Theorems

* `mem_seed`: The targets after seeding.
* `mergeLegacyAp_cases`: What one merge does.
* `mergeLegacyAps_merged`: Merging only deletes targets and changes the owners
  of results.
-/

namespace Zd1200

/-- An entry of the controller's list, the source's `struct target`. -/
structure ApTarget where
  id : Bytes
  name : Bytes
  ip : Bytes
  deriving DecidableEq, Repr

/-- The second value if the first is missing or empty. -/
def orIfEmpty (first second : Option Bytes) : Option Bytes :=
  if first = none ∨ first = some [] then second else first

/-- One tag of the list; an entry needs an identity, a name and an address. -/
def apOfTag (text : Bytes) (tag stop : Nat) : Option ApTarget := do
  let id ← attr text tag stop "mac"
  let name ← orIfEmpty (orIfEmpty (attr text tag stop "name") (attr text tag stop "ap-name"))
    (attr text tag stop "devname")
  let ip ← attr text tag stop "ip"
  let _ ← inetPton ip
  return ⟨id, name, ip⟩

/-- The entries of the list, the last one first. -/
def readAps (apList : Option Bytes) : List ApTarget :=
  match apList with
  | none => []
  | some contents =>
      let text := cText contents
      ((tags text (ascii "<ap ")).filterMap fun (tag, stop) => apOfTag text tag stop).reverse

/-- The row that `seed` inserts for an entry. -/
def apRow (ap : ApTarget) (now : Nat) : TargetRow where
  id := 0
  kind := .ap
  ip := ap.ip
  clientMac := none
  apId := some ap.id
  name := ap.name
  currentAp := none
  currentSsid := none
  currentRadio := none
  enabled := true
  createdAt := now

def seed (target : TargetTable) (aps : List ApTarget) (now : Nat) : TargetTable :=
  aps.foldl (fun target ap => target.insertOrIgnore (apRow ap now)) target

/-- `kind='ap' AND length(ap_id)<>17 AND ip=?`. -/
def TargetRow.isLegacyAt (t : TargetRow) (ip : Bytes) : Bool :=
  t.kind = .ap ∧ (t.apId.map sqliteLength).any (· ≠ 17) ∧ t.ip = ip

/-- `SELECT id FROM target WHERE kind='ap' AND ap_id=?`. -/
def apTargetId (target : TargetTable) (apId : Bytes) : Option Nat :=
  (target.rows.find? fun t => t.kind = .ap ∧ t.apId = some apId).map TargetRow.id

/-- The numbers of the legacy targets at an address. -/
def legacyIds (target : TargetTable) (ip : Bytes) : List Nat :=
  (target.rows.filter (·.isLegacyAt ip)).map TargetRow.id

/-- The results of the legacy targets at the entry's address handed to the
    entry's target, and those targets deleted. A result cannot be handed to a
    target that is not there: its column takes no null. -/
def mergeLegacyAp (db : Db) (ap : ApTarget) : Option Db :=
  let legacy := legacyIds db.target ap.ip
  let target := db.target.delete (·.isLegacyAt ap.ip)
  match apTargetId db.target ap.id with
  | some id =>
      some { db with
        target
        pingResult := db.pingResult.setOwner fun p =>
          if p.targetId ∈ legacy then id else p.targetId }
  | none =>
      if ∃ p ∈ db.pingResult.rows, p.targetId ∈ legacy then none else some { db with target }

def mergeLegacyAps (db : Db) (aps : List ApTarget) : Option Db := aps.foldlM mergeLegacyAp db

/-- A merge deletes targets and changes the owners of results, nothing else. -/
structure Merged (db db' : Db) : Prop where
  target : db'.target.rows.Sublist db.target.rows
  pingResult : ∃ owner : PingRow → Nat, db'.pingResult = db.pingResult.setOwner owner
  apRadioSample : db'.apRadioSample = db.apRadioSample
  meshLinkSample : db'.meshLinkSample = db.meshLinkSample

theorem setOwner_same (table : ResultTable) : table.setOwner PingRow.targetId = table := by
  cases table with
  | mk rows key =>
      simp only [ResultTable.setOwner, ResultTable.mk.injEq]
      exact List.map_id _

theorem Merged.refl (db : Db) : Merged db db where
  target := List.Sublist.refl _
  pingResult := ⟨PingRow.targetId, (setOwner_same _).symm⟩
  apRadioSample := rfl
  meshLinkSample := rfl

theorem Merged.trans {db db' db'' : Db} (h : Merged db db') (h' : Merged db' db'') :
    Merged db db'' where
  target := h'.target.trans h.target
  pingResult := by
    rcases h.pingResult with ⟨owner, hmap⟩
    rcases h'.pingResult with ⟨owner', hmap'⟩
    refine ⟨fun p => owner' { p with targetId := owner p }, ?_⟩
    rw [hmap', hmap]
    simp only [ResultTable.setOwner, List.map_map, Function.comp_def]
  apRadioSample := h'.apRadioSample.trans h.apRadioSample
  meshLinkSample := h'.meshLinkSample.trans h.meshLinkSample

/-- What a merge does: it hands the results over, or there are none. -/
theorem mergeLegacyAp_cases (db db' : Db) (ap : ApTarget) (h : mergeLegacyAp db ap = some db') :
    (∃ id, apTargetId db.target ap.id = some id ∧
      db' = { db with
        target := db.target.delete (·.isLegacyAt ap.ip)
        pingResult := db.pingResult.setOwner fun p =>
          if p.targetId ∈ legacyIds db.target ap.ip then id else p.targetId }) ∨
    (apTargetId db.target ap.id = none ∧
      (∀ p ∈ db.pingResult.rows, p.targetId ∉ legacyIds db.target ap.ip) ∧
      db' = { db with target := db.target.delete (·.isLegacyAt ap.ip) }) := by
  unfold mergeLegacyAp at h
  cases hid : apTargetId db.target ap.id with
  | some id =>
      simp only [hid, Option.some.injEq] at h
      exact .inl ⟨id, rfl, h.symm⟩
  | none =>
      simp only [hid] at h
      by_cases hmove : ∃ p ∈ db.pingResult.rows, p.targetId ∈ legacyIds db.target ap.ip
      · rw [if_pos hmove] at h
        exact absurd h (by simp only [reduceCtorEq, not_false_eq_true])
      · rw [if_neg hmove, Option.some.injEq] at h
        exact .inr ⟨rfl, fun p hp hmem => hmove ⟨p, hp, hmem⟩, h.symm⟩

theorem mergeLegacyAp_merged (db db' : Db) (ap : ApTarget) (h : mergeLegacyAp db ap = some db') :
    Merged db db' := by
  rcases mergeLegacyAp_cases db db' ap h with ⟨id, -, rfl⟩ | ⟨-, -, rfl⟩
  · exact ⟨List.filter_sublist, ⟨_, rfl⟩, rfl, rfl⟩
  · exact ⟨List.filter_sublist, ⟨PingRow.targetId, (setOwner_same _).symm⟩, rfl, rfl⟩

theorem mergeLegacyAps_merged (aps : List ApTarget) (db db' : Db)
    (h : mergeLegacyAps db aps = some db') : Merged db db' :=
  foldlM_keeps (P := Merged db) mergeLegacyAp aps
    (fun ap _ mid next hmid hap => hmid.trans (mergeLegacyAp_merged mid next ap hap))
    db db' (Merged.refl db) h

/-- The targets after seeding: the old ones and access points. -/
theorem mem_seed (aps : List ApTarget) (now : Nat) (target : TargetTable) (t : TargetRow)
    (h : t ∈ (seed target aps now).rows) : t ∈ target.rows ∨ t.kind = .ap := by
  unfold seed at h
  induction aps generalizing target with
  | nil => exact Or.inl h
  | cons ap rest ih =>
      rcases ih _ h with hmid | hap
      · rcases target.mem_insertOrIgnore _ t hmid with hold | hnew
        · exact Or.inl hold
        · exact Or.inr (by rw [hnew]; rfl)
      · exact Or.inr hap

theorem subset_seed (aps : List ApTarget) (now : Nat) (target : TargetTable) (t : TargetRow)
    (h : t ∈ target.rows) : t ∈ (seed target aps now).rows := by
  unfold seed
  induction aps generalizing target with
  | nil => exact h
  | cons ap rest ih => exact ih _ (target.subset_insertOrIgnore _ t h)

/-- What a merge leaves of the targets. -/
theorem mergeLegacyAp_target (db db' : Db) (ap : ApTarget) (h : mergeLegacyAp db ap = some db') :
    db'.target = db.target.delete (·.isLegacyAt ap.ip) := by
  rcases mergeLegacyAp_cases db db' ap h with ⟨id, -, rfl⟩ | ⟨-, -, rfl⟩
  · rfl
  · rfl

/-- A target that is not of the early version stays. -/
theorem mem_mergeLegacyAps (aps : List ApTarget) (db db' : Db)
    (h : mergeLegacyAps db aps = some db') (t : TargetRow) (ht : t ∈ db.target.rows)
    (hkeep : ∀ ip, t.isLegacyAt ip = false) : t ∈ db'.target.rows := by
  refine foldlM_keeps (P := fun mid : Db => t ∈ mid.target.rows) mergeLegacyAp aps ?_ db db' ht h
  intro ap _ mid next hmid hap
  rw [mergeLegacyAp_target mid next ap hap]
  exact List.mem_filter.mpr ⟨hmid, by simp only [hkeep ap.ip, Bool.not_false]⟩

/-- Clients are none of a merge's business. -/
theorem mergeLegacyAps_keeps_clients (aps : List ApTarget) (db db' : Db)
    (h : mergeLegacyAps db aps = some db') (t : TargetRow) (ht : t ∈ db.target.rows)
    (hkind : t.kind = .client) : t ∈ db'.target.rows := by
  refine mem_mergeLegacyAps aps db db' h t ht fun ip => ?_
  simp only [TargetRow.isLegacyAt, hkind, reduceCtorEq, false_and, decide_false]

end Zd1200
