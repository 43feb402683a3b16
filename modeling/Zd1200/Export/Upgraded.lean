import Zd1200.Export.Content
import Zd1200.Export.Latency
import Zd1200.Monitor.Migration

/-!
# Days of an Upgraded Database

What `export_day` writes of results that are older than the column `state`.

Before there were states a result said only whether a reply came and how long
it took. The upgrade adds the column with the state of a lost probe in every
row. The exporter takes a result for a reply only if its state says so as
well, so every old result is exported as lost, and the chunks of the days
before the upgrade are never written again.

Results are compared across the upgrade by the device that they are about:
the upgrade gives them to other targets, but keeps the device
(`schema_observations`). The exporter shows a device by its one target
(`TargetTable.eq_of_device`).

## Main definitions

* `ReadAs`: What the exporter reads of a stored database.
* `LastOf`: The last result of a device in a round.
* `ShowsOutcomes`: A day shows the replies and losses that were recorded.

## Theorems

* `lookup_state`: Every result of an upgraded database has timed out.
* `exists_read`: A result and its device are read.
* `sample_upgraded`: What the day shows of a round with a result.
* `upgrade_showsOutcomes_iff`: A day shows what was recorded exactly when
  nothing but losses was.
-/

namespace Zd1200

/-! ### What the exporter reads -/

/-- `sqlite3_column_text`. -/
def SqlValue.asText : SqlValue → Option Bytes
  | .text value => some value
  | _ => none

/-- `sqlite3_column_int`, with a null apart. -/
def SqlValue.asInteger : SqlValue → Option Int
  | .integer value => some value
  | _ => none

/-- A column that came later. -/
def laterColumn (more : List (String × SqlValue)) (name : String) : SqlValue :=
  (more.lookup name).getD .null

/-- The state by its text. -/
def readPingState (value : SqlValue) : Option PingState :=
  if value = .text (ascii "ok") then some .ok
  else if value = .text (ascii "timeout") then some .timeout
  else if value = .text (ascii "not_associated") then some .notAssociated
  else if value = .text (ascii "unknown") then some .unknown
  else none

def readTarget (t : StoredTarget Nat) : TargetRow where
  id := t.id
  kind := t.kind
  ip := t.ip
  clientMac := t.clientMac
  apId := t.apId
  name := t.name
  currentAp := (laterColumn t.more "current_ap").asText
  currentSsid := (laterColumn t.more "current_ssid").asText
  currentRadio := (laterColumn t.more "current_radio").asText
  enabled := t.enabled
  createdAt := t.createdAt

def readResult (r : StoredResult Nat) : Option PingRow :=
  (readPingState (laterColumn r.more "state")).map fun state =>
    { id := r.id
      observedAt := r.observedAt
      targetId := r.targetId
      rttMs := r.rttMs
      responded := r.responded
      state
      snrDb := (laterColumn r.more "snr_db").asInteger
      signalDbm := (laterColumn r.more "signal_dbm").asInteger
      noiseFloorDbm := (laterColumn r.more "noise_floor_dbm").asInteger }

/-- The exporter reads a database as these tables. -/
structure ReadAs (db : StoredDb Nat) (d : Db) : Prop where
  target : d.target.rows = db.targets.map readTarget
  pingResult : d.pingResult.rows.map some = db.results.map readResult
  apRadioSample : d.apRadioSample = db.radios
  meshLinkSample : d.meshLinkSample = db.links

/-- The last result of a device in a round. -/
structure LastOf (db : StoredDb Nat) (ident : Kind × Option Bytes) (r : StoredResult Nat) :
    Prop where
  stored : r ∈ db.results
  device : device db.targets r.targetId = some ident
  last : ∀ q ∈ db.results, Zd1200.device db.targets q.targetId = some ident →
    q.observedAt = r.observedAt → q.id ≤ r.id

/-- The byte of a target and a round in the file of a day. -/
def exportedSample (d : Db) (start i j : Nat) : Option UInt8 :=
  (exportDay d start).output[(dayLayout d start).samples +
    (i * (loadRounds d start).length + j)]?

/-- The file of a day shows, for the rows of a database that is read as these
    tables by now, the last reply of a device in a round as its latency and a
    loss as a timeout. -/
def ShowsOutcomes (db : StoredDb Nat) (d : Db) (start : Nat) : Prop :=
  ∀ i j e t r, (loadTargets d start)[i]? = some e → t ∈ d.target.rows → e.id = t.id →
    (loadRounds d start)[j]? = some r.observedAt → LastOf db (t.kind, identity t) r →
    exportedSample d start i j =
      some (if r.responded then (encodeLatency r.rttMs).toUInt8 else 255)

/-! ### The added column -/

/-- A column that a row has keeps its value when another one is added. -/
theorem lookup_addResultColumn (name key : String) (value v : SqlValue) (db : StoredDb Nat)
    (h : ∀ r ∈ db.results, r.more.lookup key = some v) :
    ∀ r ∈ (addResultColumn name value db).results, r.more.lookup key = some v := by
  unfold addResultColumn
  split
  · exact h
  · intro r hr
    rcases List.mem_map.mp hr with ⟨old, hold, rfl⟩
    rw [List.lookup_append, h old hold, Option.some_or]

theorem addTargetColumn_results (name : String) (db : StoredDb Nat) :
    (addTargetColumn name db).results = db.results := by
  unfold addTargetColumn
  split <;> rfl

theorem addRadioColumn_results (name : String) (db : StoredDb Nat) :
    (addRadioColumn name db).results = db.results := by
  unfold addRadioColumn
  split <;> rfl

/-- The column that is added has its value in every row. -/
theorem lookup_newColumn (name : String) (value : SqlValue) (db : StoredDb Nat)
    (hnew : name ∉ db.resultColumns) :
    ∀ r ∈ (addResultColumn name value db).results, r.more.lookup name = some value := by
  rw [addResultColumn, if_neg hnew]
  intro r hr
  rcases List.mem_map.mp hr with ⟨old, hold, rfl⟩
  have hnone : old.more.lookup name = none := by
    rw [List.lookup_eq_none_iff]
    intro entry hentry
    rw [bne_iff_ne]
    rintro rfl
    rw [← db.resultNamed old hold] at hnew
    exact hnew (List.mem_map_of_mem hentry)
  rw [List.lookup_append, hnone, Option.none_or, List.lookup_cons_self]

/-- Every result of an upgraded database has timed out. -/
theorem lookup_state (db : StoredDb Nat) (hstate : "state" ∉ db.resultColumns) :
    ∀ r ∈ (addColumns db).results, r.more.lookup "state" = some (.text (ascii "timeout")) := by
  simp only [addColumns, addRadioColumn_results, addTargetColumn_results]
  exact lookup_addResultColumn _ _ _ _ _ <| lookup_addResultColumn _ _ _ _ _ <|
    lookup_addResultColumn _ _ _ _ _ <| lookup_newColumn _ _ db hstate

/-! ### Results across the upgrade -/

theorem identity_read (t : StoredTarget Nat) :
    ((readTarget t).kind, identity (readTarget t)) = t.identity := by
  rw [identity, StoredTarget.identity]
  cases hkind : t.kind with
  | ap => simp only [readTarget, hkind, reduceCtorEq, if_false]
  | client => simp only [readTarget, hkind, if_true]

/-- An identity that is there names one target. -/
theorem TargetTable.eq_of_device (table : TargetTable) (t u : TargetRow) (ht : t ∈ table.rows)
    (hu : u ∈ table.rows) (hsame : (t.kind, identity t) = (u.kind, identity u))
    (hsome : identity t ≠ none) : t = u := by
  rcases Prod.mk.inj hsame with ⟨hkind, hident⟩
  refine table.eq_of_conflicts t u ht hu ?_
  unfold identity at hident hsome
  rw [← hkind] at hident
  by_cases hclient : t.kind = .client
  · rw [if_pos hclient, if_pos hclient] at hident
    rw [if_pos hclient] at hsome
    exact .inl ⟨hsome, hident⟩
  · rw [if_neg hclient, if_neg hclient] at hident
    rw [if_neg hclient] at hsome
    exact .inr ⟨hsome, hident⟩

section Upgrade

variable (db db' : StoredDb Nat) (d : Db) (start : Nat) (hstate : "state" ∉ db.resultColumns)
  (hschema : schema db = (true, db')) (hread : ReadAs db' d)

include hschema hread in
/-- A result of a device is read as one of the device's target. -/
theorem exists_read (ident : Kind × Option Bytes) (r : StoredResult Nat) (hr : r ∈ db.results)
    (hdevice : device db.targets r.targetId = some ident) :
    ∃ p ∈ d.pingResult.rows, p.observedAt = r.observedAt ∧
      ∃ t ∈ d.target.rows, t.id = p.targetId ∧ (t.kind, identity t) = ident := by
  rcases schema_observations db db' hschema with ⟨rebuilt, hsame, -, rfl⟩
  have hobservations := (sameCore_addColumns rebuilt).observations_eq.trans hsame
  -- The upgraded database has a row that says the same.
  have hmem : (r.id, observation db.targets r) ∈ observations (addColumns rebuilt) := by
    rw [hobservations]
    exact List.mem_map_of_mem hr
  rcases List.mem_map.mp hmem with ⟨r', hr', hsays⟩
  simp only [observation, hdevice, Prod.mk.injEq] at hsays
  rcases hsays with ⟨-, htime, -, -, hdevice'⟩
  rcases Option.map_eq_some_iff.mp hdevice' with ⟨t', hfound, hident⟩
  have hid : t'.id = r'.targetId := by simpa only [decide_eq_true_eq] using List.find?_some hfound
  -- It is read as a row of its target.
  have hrow : readResult r' ∈ d.pingResult.rows.map some := by
    rw [hread.pingResult]
    exact List.mem_map_of_mem hr'
  rcases List.mem_map.mp hrow with ⟨p, hp, hpr⟩
  rcases Option.map_eq_some_iff.mp hpr.symm with ⟨state, -, rfl⟩
  refine ⟨_, hp, htime, readTarget t', ?_, hid, (identity_read t').trans hident⟩
  rw [hread.target]
  exact List.mem_map_of_mem (List.mem_of_find?_eq_some hfound)

include hstate hschema hread in
theorem state_upgraded (p : PingRow) (hp : p ∈ d.pingResult.rows) : p.state = .timeout := by
  rcases schema_observations db db' hschema with ⟨rebuilt, -, hcolumns, rfl⟩
  have hrow : some p ∈ (addColumns rebuilt).results.map readResult := by
    rw [← hread.pingResult]
    exact List.mem_map_of_mem hp
  rcases List.mem_map.mp hrow with ⟨r, hr, hpr⟩
  have hlookup := lookup_state rebuilt (by rwa [hcolumns]) r hr
  have htimeout : readPingState (laterColumn r.more "state") = some .timeout := by
    rw [laterColumn, hlookup]
    decide
  rw [readResult, htimeout, Option.map_some, Option.some.injEq] at hpr
  rw [← hpr]

include hstate hschema hread in
/-- A round with a result of a target shows a timeout. -/
theorem sample_upgraded (hexit : (exportDay d start).exit = 0) (i j : Nat) (e : ExportTarget)
    (p : PingRow) (he : (loadTargets d start)[i]? = some e)
    (hj : (loadRounds d start)[j]? = some p.observedAt) (hp : p ∈ d.pingResult.rows)
    (howner : p.targetId = e.id) : exportedSample d start i j = some 255 := by
  rcases offset_of_part d start with ⟨-, -, -, -, hsamples, -⟩
  have hcell := resultCell_row d start 7 (fun q => some (sampleByte q)) rfl i j e p.observedAt he hj
  rw [hsamples] at hcell
  rw [exportedSample, (exportDay_exit_zero d start hexit).2]
  refine hcell.trans ?_
  have hday : InDay start p.observedAt :=
    inDay_of_mem_loadRounds d start p.observedAt (List.mem_of_getElem? hj)
  cases hlast : (((targetResults d start e.id).filter fun q => q.observedAt = p.observedAt).filterMap
      fun q => some (sampleByte q)).getLast? with
  | none =>
      have hnil := List.filterMap_eq_nil_iff.mp (List.getLast?_eq_none_iff.mp hlast) p
        (by
          rw [List.mem_filter, targetResults, mem_orderBy, List.mem_filter, decide_eq_true_eq]
          exact ⟨⟨hp, howner, hday⟩, decide_eq_true rfl⟩)
      exact absurd hnil (by simp only [reduceCtorEq, not_false_eq_true])
  | some b =>
      rcases List.mem_filterMap.mp (List.mem_of_getLast? hlast) with ⟨q, hq, hb⟩
      rw [List.mem_filter, targetResults, mem_orderBy, List.mem_filter] at hq
      -- Whichever row is the last, its state is that of a timeout.
      have htimeout := state_upgraded db db' d hstate hschema hread q hq.1.1
      have hbyte : sampleByte q = 255 := by
        rw [sampleByte, htimeout]
        simp only [reduceCtorEq, and_false, if_false, if_true]
      rw [← Option.some.inj hb, hbyte]
      rfl

end Upgrade

/-- No latency is written as a timeout. -/
theorem encodeLatency_ne_timeout (milliseconds : Int) :
    (encodeLatency milliseconds).toUInt8 ≠ 255 := by
  intro h
  have hbounds := exporterCodebook.encodeLatencyIn_bounds milliseconds
  rw [← encodeLatency_eq] at hbounds
  have hnat := congrArg UInt8.toNat h
  rw [Nat.toUInt8, UInt8.toNat_ofNat', Nat.mod_eq_of_lt (by omega)] at hnat
  have : (255 : UInt8).toNat = 255 := rfl
  omega

/-- After the upgrade from a schema without states, a day that is exported
    shows what was recorded exactly when the last results of its devices that
    are read as MACs are all losses. -/
theorem upgrade_showsOutcomes_iff (db db' : StoredDb Nat) (d : Db) (start : Nat)
    (hstate : "state" ∉ db.resultColumns) (hschema : schema db = (true, db'))
    (hread : ReadAs db' d) (hexit : (exportDay d start).exit = 0) :
    ShowsOutcomes db d start ↔
      ∀ ident r, LastOf db ident r → InDay start r.observedAt → ident.2.bind parseMac ≠ none →
        r.responded = false := by
  constructor
  · intro hshows ident r hlast hday hmac
    rcases exists_read db db' d hschema hread ident r hlast.stored hlast.device with
      ⟨p, hp, htime, t, ht, howner, rfl⟩
    rcases Option.ne_none_iff_exists'.mp hmac with ⟨mac, hmac⟩
    have hresult : HasResult d start t := ⟨p, hp, howner.symm, by rwa [htime]⟩
    -- The device has a row in the file, and its round a column.
    rcases List.getElem?_of_mem ((mem_loadTargets d start ⟨t.id, mac, macText mac⟩).mpr
      ⟨t, ⟨ht, hresult, hmac⟩, rfl, rfl⟩) with ⟨i, hi⟩
    rcases List.getElem?_of_mem ((mem_loadRounds d start r.observedAt).mpr
      ⟨⟨p, hp, htime⟩, hday⟩) with ⟨j, hj⟩
    have hbyte := hshows i j _ t r hi ht rfl hj hlast
    rw [sample_upgraded db db' d start hstate hschema hread hexit i j _ p hi (by rwa [htime]) hp
      howner.symm, Option.some.injEq] at hbyte
    cases hresponded : r.responded with
    | false => rfl
    | true =>
        rw [hresponded, if_pos rfl] at hbyte
        exact absurd hbyte.symm (encodeLatency_ne_timeout r.rttMs)
  · intro hlosses i j e t r hi ht hid hj hlast
    rcases (mem_loadTargets d start e).mp (List.mem_of_getElem? hi) with ⟨u, hu, hue, -⟩
    have htu : u = t := d.target.eq_of_id u t hu.stored ht (hue.symm.trans hid)
    have hmac : (identity t).bind parseMac = some e.mac := htu ▸ hu.reads
    have hday := inDay_of_mem_loadRounds d start _ (List.mem_of_getElem? hj)
    rw [hlosses _ r hlast hday (by rw [hmac]; exact Option.some_ne_none _)]
    rcases exists_read db db' d hschema hread _ r hlast.stored hlast.device with
      ⟨p, hp, htime, v, hv, howner, hsame⟩
    -- The row is one of the target's, since the identity is a text.
    have hsome : identity v ≠ none := by
      rw [(Prod.mk.inj hsame).2]
      intro hnone
      rw [hnone] at hmac
      exact absurd hmac (by simp only [Option.bind_none, reduceCtorEq, not_false_eq_true])
    have hvt := d.target.eq_of_device v t hv ht hsame hsome
    exact sample_upgraded db db' d start hstate hschema hread hexit i j e p hi (by rwa [htime]) hp
      (by rw [← howner, hvt, hid])

/-- A client that answered in one round and not in the next, before there were
    states. -/
def recordedDb : StoredDb Nat where
  ddl := ascii "CREATE TABLE target(id INTEGER PRIMARY KEY,kind TEXT,ip TEXT,UNIQUE(kind,ip))"
  targets :=
    [⟨1, .client, ascii "10.0.0.9", some (ascii "aa:bb:cc:dd:ee:01"), none, ascii "phone", true,
      86400, []⟩]
  targetColumns := copiedColumns
  results := [⟨1, 86460, 1, 12, true, []⟩, ⟨2, 86760, 1, 0, false, []⟩]
  resultColumns := []
  radios := []
  radioColumns := []
  links := []
  names := []
  targetKey := by decide
  resultKey := by decide
  resultNamed := by decide

/-- What the exporter reads of it after the upgrade. -/
def upgradedDb : Db where
  target :=
    { rows := [{ clientRow (ascii "aa:bb:cc:dd:ee:01") (ascii "10.0.0.9") (ascii "phone") 86400 with
        id := 1 }]
      key := by decide
      unique := List.pairwise_singleton _ _ }
  pingResult :=
    { rows := [⟨1, 86460, 1, 12, true, .timeout, none, none, none⟩,
        ⟨2, 86760, 1, 0, false, .timeout, none, none, none⟩]
      key := by decide }
  apRadioSample := []
  meshLinkSample := []

theorem readAs_upgradedDb : ReadAs (schema recordedDb).2 upgradedDb :=
  ⟨by decide +kernel, by decide +kernel, rfl, rfl⟩

theorem schema_recordedDb : schema recordedDb = (true, (schema recordedDb).2) :=
  Prod.ext (by decide +kernel) rfl

/-- The reply of 12 milliseconds is shown as a timeout. -/
theorem upgrade_hidesReply :
    ¬ ∀ (db db' : StoredDb Nat) (d : Db) (start : Nat), "state" ∉ db.resultColumns →
      schema db = (true, db') → ReadAs db' d → AcceptedDay start → (exportDay d start).exit = 0 →
        ShowsOutcomes db d start := by
  intro h
  have hshows := h recordedDb _ upgradedDb 86400 (by decide) schema_recordedDb readAs_upgradedDb
    (by decide) (by decide +kernel)
  have hlast : LastOf recordedDb
      (.client, some (ascii "aa:bb:cc:dd:ee:01")) ⟨1, 86460, 1, 12, true, []⟩ :=
    ⟨by decide, by decide +kernel, by decide +kernel⟩
  have hbyte := hshows 0 0 ⟨1, [0xaa, 0xbb, 0xcc, 0xdd, 0xee, 0x01], ascii "aa:bb:cc:dd:ee:01"⟩ _ _
    (by decide +kernel) List.mem_cons_self rfl (by decide +kernel) hlast
  have htimeout : exportedSample upgradedDb 86400 0 0 = some 255 := by decide +kernel
  rw [htimeout, Option.some.injEq] at hbyte
  exact absurd hbyte (by decide +kernel)

/-- The day of the reply does not show what was recorded; the day after it, of
    which nothing was, does. -/
theorem upgrade_showsOutcomes_recorded :
    ¬ ShowsOutcomes recordedDb upgradedDb 86400 ∧ ShowsOutcomes recordedDb upgradedDb 172800 := by
  have hiff := fun start => upgrade_showsOutcomes_iff recordedDb _ upgradedDb start (by decide)
    schema_recordedDb readAs_upgradedDb
  constructor
  · rw [hiff 86400 (by decide +kernel)]
    intro hlosses
    have hreply := hlosses (.client, some (ascii "aa:bb:cc:dd:ee:01")) ⟨1, 86460, 1, 12, true, []⟩
      ⟨by decide, by decide +kernel, by decide +kernel⟩ (by decide) (by decide +kernel)
    exact absurd hreply.symm Bool.false_ne_true
  · rw [hiff 172800 (by decide +kernel)]
    intro ident r hlast hday
    have hrows : ∀ r ∈ recordedDb.results, ¬ InDay 172800 r.observedAt := by decide
    exact absurd hday (hrows r hlast.stored)

end Zd1200
