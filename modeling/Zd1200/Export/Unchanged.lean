import Zd1200.Export.Layout

/-!
# What an Export Depends On

The export of a day is a function of the rows of that day and of what
identifies the targets that have results in it.

So a change of the database that leaves these alone leaves the export alone,
byte by byte: new targets without results in the day, new names and
addresses, and rows of other days.

## Main definitions

* `SameDay`: Two databases that agree on a day.

## Theorems

* `selectTargets_congr`: A list of targets depends on what identifies them.
* `exportDay_congr`: The export depends on the day.
-/

namespace Zd1200

/-- Two databases agree on a day: on its rows, and on the targets with a
    result in it. -/
structure SameDay (db db' : Db) (start : Nat) : Prop where
  results : (db'.pingResult.rows.filter fun p => InDay start p.observedAt)
    = db.pingResult.rows.filter fun p => InDay start p.observedAt
  radios : (db'.apRadioSample.filter fun r => InDay start r.observedAt)
    = db.apRadioSample.filter fun r => InDay start r.observedAt
  meshes : (db'.meshLinkSample.filter fun m => InDay start m.observedAt)
    = db.meshLinkSample.filter fun m => InDay start m.observedAt
  targets : (db'.target.rows.filter fun t => HasResult db' start t).map TargetRow.ident
    = (db.target.rows.filter fun t => HasResult db start t).map TargetRow.ident

theorem SameDay.refl (db : Db) (start : Nat) : SameDay db db start := ⟨rfl, rfl, rfl, rfl⟩

theorem SameDay.trans {db db' db'' : Db} {start : Nat} (h : SameDay db db' start)
    (h' : SameDay db' db'' start) : SameDay db db'' start :=
  ⟨h'.results.trans h.results, h'.radios.trans h.radios, h'.meshes.trans h.meshes,
    h'.targets.trans h.targets⟩

/-- A target's entry in the file, from what identifies it. -/
def entryOf (column : Nat × Kind × Option Bytes × Option Bytes → Option Bytes)
    (key : Nat × Kind × Option Bytes × Option Bytes) : Option ExportTarget :=
  ((column key).bind parseMac).map fun octets =>
    { id := key.1, mac := octets, macText := macText octets }

/-- A list of targets depends on what identifies them. -/
theorem selectTargets_congr (rows rows' : List TargetRow)
    (column : Nat × Kind × Option Bytes × Option Bytes → Option Bytes)
    (h : rows'.map TargetRow.ident = rows.map TargetRow.ident) :
    selectTargets rows' (fun t => column t.ident) = selectTargets rows fun t => column t.ident := by
  have hkeys : ∀ rows : List TargetRow, selectTargets rows (fun t => column t.ident) =
      ((rows.map TargetRow.ident).insertionSort fun a b =>
        NocaseLe (column a) (column b)).filterMap (entryOf column) := by
    intro rows
    rw [← List.map_insertionSort (fun a b : TargetRow =>
        NocaseLe (column a.ident) (column b.ident)) _ TargetRow.ident rows
        fun _ _ _ _ => Iff.rfl,
      List.filterMap_map]
    rfl
  rw [hkeys, hkeys, h]

-- A query for rows of the day filters them out first.
theorem filter_and {α : Type} (rows : List α) (p q : α → Prop) [DecidablePred p]
    [DecidablePred q] :
    (rows.filter fun r => p r ∧ q r) = (rows.filter fun r => q r).filter fun r => p r := by
  rw [List.filter_filter]
  refine List.filter_congr fun r _ => ?_
  simp only [Bool.decide_and]

/-! ### The parts of an export -/

section Parts

variable {db db' : Db} {start : Nat} (h : SameDay db db' start)

include h

theorem loadRounds_congr : loadRounds db' start = loadRounds db start := by
  have hrounds : ∀ db : Db,
      ((db.pingResult.rows.map PingRow.observedAt).filter fun t => InDay start t)
        = (db.pingResult.rows.filter fun p => InDay start p.observedAt).map PingRow.observedAt :=
    fun db => List.filter_map
  rw [loadRounds, loadRounds, hrounds, hrounds, h.results]

theorem loadTargets_congr : loadTargets db' start = loadTargets db start :=
  selectTargets_congr _ _
    (fun key => if key.2.1 = .client then key.2.2.1 else key.2.2.2) h.targets

theorem loadApTargets_congr : loadApTargets db' start = loadApTargets db start := by
  -- The kind is part of what identifies a target, so it can be filtered later.
  have hkinds : ∀ db : Db,
      ((db.target.rows.filter fun t => t.kind = .ap ∧ HasResult db start t).map TargetRow.ident)
        = ((db.target.rows.filter fun t => HasResult db start t).map TargetRow.ident).filter
          fun key => key.2.1 = .ap := by
    intro db
    rw [List.filter_map, filter_and]
    rfl
  exact selectTargets_congr _ _ (fun key => key.2.2.2) (by rw [hkinds, hkinds, h.targets])

theorem targetResults_congr (id : Nat) : targetResults db' start id = targetResults db start id := by
  rw [targetResults, targetResults, filter_and, filter_and, h.results]

theorem airRowBytes_congr (rounds : List Nat) (fiveGhz : Bool) (ap : ExportTarget) :
    airRowBytes db' start rounds fiveGhz ap = airRowBytes db start rounds fiveGhz ap := by
  rw [airRowBytes, airRowBytes, filter_and, filter_and, h.radios]

theorem uplinks_congr (apMac : Bytes) : uplinks db' start apMac = uplinks db start apMac := by
  simp only [uplinks, ← and_assoc]
  rw [filter_and db'.meshLinkSample, filter_and db.meshLinkSample, h.meshes]

/-- The export of a day depends on the day. -/
theorem exportDay_congr : exportDay db' start = exportDay db start := by
  have hresult : ∀ rounds byte, resultRowBytes db' start rounds byte
      = resultRowBytes db start rounds byte := by
    intro rounds byte
    funext t
    rw [resultRowBytes, resultRowBytes, targetResults_congr h]
  have hair : ∀ rounds fiveGhz, airRowBytes db' start rounds fiveGhz
      = airRowBytes db start rounds fiveGhz :=
    fun rounds fiveGhz => funext fun ap => airRowBytes_congr h rounds fiveGhz ap
  have hmesh : ∀ rounds, meshRowBytes db' start rounds = meshRowBytes db start rounds := by
    intro rounds
    funext ap
    rw [meshRowBytes, meshRowBytes, uplinks_congr h]
  have hparts : dayParts db' start = dayParts db start := by
    simp only [dayParts, loadRounds_congr h, loadTargets_congr h, loadApTargets_congr h, hresult,
      hair, hmesh]
  rw [exportDay_eq, exportDay_eq, dayBytes, dayBytes, hparts, dayLayout, dayLayout,
    loadRounds_congr h, loadTargets_congr h, loadApTargets_congr h]

end Parts

end Zd1200
