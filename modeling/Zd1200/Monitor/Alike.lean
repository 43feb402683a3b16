import Zd1200.Lib.Paired
import Zd1200.Monitor.Addresses
import Zd1200.Monitor.CaseOnly

/-!
# Runs That Differ in Case

Two runs of the monitor whose files and commands differ in the case of MACs,
and when their databases are alike all along.

Some steps compare MACs ignoring case and some by their text. The lookups in
the client view do the former. The uniqueness of targets, the update of a
client and the keys of the samples do the latter, so a device that is spelled
in two ways is two devices to them. What the two runs have to have in common is
therefore which texts are the same text: a `Spelling` is a change of texts from
the one run to the other that confuses none. It is a different one for each
column that is compared, since no two columns are compared with each other, and
for the samples one for each round. A sample is looked up by the MAC in lower
case, so there the two runs also have to agree on which texts are in lower
case.

`Spelling.Env` and `Spelling.Command` say that the files and commands of the
two runs are spelled so. `alike_run` is the simulation: the runs then have the
same targets and results, and samples that only differ in how they are spelled.

## Main definitions

* `TickEnv.SameButCase`, `SameButCase`: Rounds and commands that differ in the
  case of MACs.
* `Spelling`: A change of spelling.
* `Spelling.Env`, `Spelling.Command`: Rounds and commands that are spelled so.
* `Spelling.Alike`: Two databases that are.

## Theorems

* `alike_syncTargets`, `alike_writeRound`: The transactions of a round.
* `alike_runCommand`, `alike_run`: Commands and runs of commands.
-/

namespace Zd1200

/-! ### Inputs -/

/-- Two rounds that differ in the case of MACs. -/
structure TickEnv.SameButCase (env env' : TickEnv) : Prop where
  apList : Option.Rel CaseOnly env.apList env'.apList
  clientXml : Option.Rel CaseOnly env.clientXml env'.clientXml
  apDetail : Option.Rel CaseOnly env.apDetail env'.apDetail
  now : env.now = env'.now
  replies : env.replies = env'.replies
  fails : env.fails = env'.fails
  sort : env.sort = env'.sort

/-- Two commands that differ in the case of MACs. -/
inductive SameButCase : Command → Command → Prop
  | tick {env env' : TickEnv} (same : env.SameButCase env') : SameButCase (.tick env) (.tick env')
  | addClient {mac mac' : Bytes} (ip name : Bytes) (now : Nat) (fails : Bool)
      (same : SameId mac mac') :
      SameButCase (.addClient mac ip name now fails) (.addClient mac' ip name now fails)
  | setEnabled (idText enabledText : Bytes) (fails : Bool) :
      SameButCase (.setEnabled idText enabledText fails) (.setEnabled idText enabledText fails)

/-- The clients of a round's file. -/
def TickEnv.clientEntries (env : TickEnv) : List Client :=
  (env.clientXml.map fun contents => scanClients (cText contents)).getD []

/-- The statements of a round's detail listing. -/
def TickEnv.detailEntries (env : TickEnv) : List DetailRow :=
  (env.apDetail.map fun contents => detailRows (cText contents) env.now).getD []

/-- A change of spelling from one run to the other: of the identities of access
    points, of the MACs of clients, of the access points in the samples of a
    round and of the peers of an access point in them. -/
structure Spelling where
  ap : Bytes → Bytes → Prop
  client : Bytes → Bytes → Prop
  sampler : Nat → Bytes → Bytes → Prop
  peer : Nat → Bytes → Bytes → Bytes → Prop
  ap_one : OneToOne ap
  client_one : OneToOne client
  sampler_one : ∀ time, OneToOne (sampler time)
  sampler_lower : ∀ time a a', sampler time a a' → (lowercase a = a ↔ lowercase a' = a')
  peer_one : ∀ time apMac, OneToOne (peer time apMac)

namespace Spelling

variable (s : Spelling)

/-- A sample is spelled so. Downlinks are of no consequence. -/
def Detail : DetailRow → DetailRow → Prop
  | .radio _ r, .radio _ r' => s.sampler r.observedAt r.apMac r'.apMac
  | .mesh m, .mesh m' => m.direction = .uplink →
      s.sampler m.observedAt m.apMac m'.apMac ∧ s.peer m.observedAt m.apMac m.peerMac m'.peerMac
  | _, _ => True

/-- The MACs of a round are spelled so, wherever a target or a sample is made
    of them. -/
structure Env (env env' : TickEnv) : Prop where
  aps : List.Forall₂ (fun a a' => s.ap a.id a'.id) (readAps env.apList) (readAps env'.apList)
  clients : List.Forall₂ (fun c c' => (∃ ip name, c.usable ip name) → s.client c.mac c'.mac)
    env.clientEntries env'.clientEntries
  details : List.Forall₂ s.Detail env.detailEntries env'.detailEntries

/-- The MACs of a command are spelled so. -/
inductive Command : Zd1200.Command → Zd1200.Command → Prop
  | tick {env env' : TickEnv} (spelled : s.Env env env') : Command (.tick env) (.tick env')
  | addClient {mac mac' : Bytes} (ip name : Bytes) (now : Nat) (fails : Bool)
      (spelled : validMac mac = true → inetPton ip ≠ none → name ≠ [] → s.client mac mac') :
      Command (.addClient mac ip name now fails) (.addClient mac' ip name now fails)
  | setEnabled (idText enabledText : Bytes) (fails : Bool) :
      Command (.setEnabled idText enabledText fails) (.setEnabled idText enabledText fails)

/-! ### Databases -/

/-- The same target, spelled so. Its name and its association may be spelled
    in any way. -/
structure Target (t t' : TargetRow) : Prop where
  id : t.id = t'.id
  kind : t.kind = t'.kind
  ip : t.ip = t'.ip
  enabled : t.enabled = t'.enabled
  clientMac : Option.Rel (fun m m' => s.client m m' ∧ SameMac m m') t.clientMac t'.clientMac
  apId : Option.Rel (fun a a' => s.ap a a' ∧ SameId a a') t.apId t'.apId

/-- The same radio sample, spelled so. -/
structure Radio (r r' : RadioRow) : Prop where
  row : r.Alike r'
  apMac : s.sampler r.observedAt r.apMac r'.apMac

/-- The same mesh sample, spelled so. -/
structure Mesh (m m' : MeshRow) : Prop where
  row : m.Alike m'
  apMac : s.sampler m.observedAt m.apMac m'.apMac
  peerMac : s.peer m.observedAt m.apMac m.peerMac m'.peerMac

/-- The uplinks of a table. -/
def uplinkRows (rows : List MeshRow) : List MeshRow := rows.filter fun m => m.direction = .uplink

/-- Two databases alike: the same targets and results, and the same samples
    apart from downlinks. -/
structure Alike (db db' : Db) : Prop where
  target : List.Forall₂ s.Target db.target.rows db'.target.rows
  pingResult : db.pingResult = db'.pingResult
  apRadioSample : List.Forall₂ s.Radio db.apRadioSample db'.apRadioSample
  meshLinkSample : List.Forall₂ s.Mesh (uplinkRows db.meshLinkSample)
    (uplinkRows db'.meshLinkSample)

/-! ### Targets -/

variable {s}

/-- Texts that are equal in one run are equal in the other. -/
theorem eq_iff_of_rel {R : Bytes → Bytes → Prop} (hone : OneToOne R) {P : Bytes → Bytes → Prop}
    {a a' b b' : Option Bytes} (ha : Option.Rel (fun m m' => R m m' ∧ P m m') a a')
    (hb : Option.Rel (fun m m' => R m m' ∧ P m m') b b') : a = b ↔ a' = b' := by
  cases ha with
  | none =>
      cases hb with
      | none => simp only
      | some _ => simp only [reduceCtorEq]
  | some hm =>
      cases hb with
      | none => simp only [reduceCtorEq]
      | some hm' =>
          rw [Option.some.injEq, Option.some.injEq]
          exact hone _ _ _ _ hm.1 hm'.1

theorem none_iff_of_rel {P : Bytes → Bytes → Prop} {a a' : Option Bytes}
    (h : Option.Rel P a a') : a = none ↔ a' = none := by
  cases h with
  | none => simp only
  | some _ => simp only [reduceCtorEq]

theorem Target.conflicts_iff {t t' u u' : TargetRow} (h : s.Target t t') (h' : s.Target u u') :
    t.conflicts u ↔ t'.conflicts u' := by
  unfold TargetRow.conflicts
  -- Each column is compared with itself only, and its spelling confuses no texts.
  rw [eq_iff_of_rel s.client_one h.clientMac h'.clientMac, eq_iff_of_rel s.ap_one h.apId h'.apId,
    ne_eq, ne_eq, ne_eq, ne_eq, none_iff_of_rel h.clientMac, none_iff_of_rel h.apId]

theorem nextId_eq {rows rows' : List TargetRow} (h : List.Forall₂ s.Target rows rows') :
    nextId (rows.map TargetRow.id) = nextId (rows'.map TargetRow.id) := by
  rw [map_eq_of_forall₂ (fun _ _ hrow => hrow.id) h]

/-- An insert succeeds in both runs or in neither. -/
theorem rel_insert {table table' : TargetTable} {row row' : TargetRow}
    (h : List.Forall₂ s.Target table.rows table'.rows) (hrow : s.Target row row') :
    Option.Rel (fun t t' => List.Forall₂ s.Target t.rows t'.rows) (table.insert row)
      (table'.insert row') := by
  have hconflict : (∃ other ∈ table.rows, other.conflicts row) ↔
      ∃ other ∈ table'.rows, other.conflicts row' :=
    exists_iff_of_forall₂ (fun _ _ hother => hother.conflicts_iff hrow) h
  unfold TargetTable.insert
  by_cases hc : ∃ other ∈ table.rows, other.conflicts row
  · rw [dif_pos hc, dif_pos (hconflict.mp hc)]
    exact .none
  · rw [dif_neg hc, dif_neg fun hc' => hc (hconflict.mpr hc')]
    refine .some (List.rel_append h (.cons ?_ .nil))
    -- The new targets get the same number.
    rw [nextId_eq h]
    exact ⟨rfl, hrow.kind, hrow.ip, hrow.enabled, hrow.clientMac, hrow.apId⟩

theorem rel_insertOrIgnore {table table' : TargetTable} {row row' : TargetRow}
    (h : List.Forall₂ s.Target table.rows table'.rows) (hrow : s.Target row row') :
    List.Forall₂ s.Target (table.insertOrIgnore row).rows (table'.insertOrIgnore row').rows := by
  have hinsert := rel_insert h hrow
  unfold TargetTable.insertOrIgnore
  generalize table.insert row = a at hinsert
  generalize table'.insert row' = b at hinsert
  cases hinsert with
  | none => exact h
  | some hrows => exact hrows

theorem rel_update {table table' : TargetTable} {f f' : TargetRow → TargetRow}
    (same : ∀ t, SameTarget t (f t)) (same' : ∀ t, SameTarget t (f' t))
    (h : List.Forall₂ s.Target table.rows table'.rows)
    (hf : ∀ t t', s.Target t t' → s.Target (f t) (f' t')) :
    List.Forall₂ s.Target (table.update f same).rows (table'.update f' same').rows :=
  List.rel_map (fun t t' htt' => hf t t' htt') h

/-! ### Access points -/

theorem rel_seed {aps aps' : List ApTarget}
    (haps : List.Forall₂ (fun a a' => a.Alike a' ∧ s.ap a.id a'.id) aps aps') (now : Nat)
    {table table' : TargetTable} (h : List.Forall₂ s.Target table.rows table'.rows) :
    List.Forall₂ s.Target (seed table aps now).rows (seed table' aps' now).rows := by
  refine List.rel_foldl (P := fun t t' : TargetTable => List.Forall₂ s.Target t.rows t'.rows)
    (R := fun a a' => a.Alike a' ∧ s.ap a.id a'.id) ?_ h haps
  intro t t' ht a a' ha
  exact rel_insertOrIgnore ht ⟨rfl, rfl, ha.1.ip, rfl, .none, .some ⟨ha.2, ha.1.id⟩⟩

theorem SameId.sqliteLength {a b : Bytes} (h : SameId a b) :
    Zd1200.sqliteLength a = Zd1200.sqliteLength b := by
  rcases h with rfl | ⟨hvalid, hsame⟩
  · rfl
  · rw [sqliteLength_of_validMac a hvalid, sqliteLength_of_validMac b (hsame.validMac hvalid)]

theorem Target.isLegacyAt {t t' : TargetRow} (h : s.Target t t') (ip : Bytes) :
    t.isLegacyAt ip = t'.isLegacyAt ip := by
  -- Identities that differ in case have one length.
  have hlength : t.apId.map Zd1200.sqliteLength = t'.apId.map Zd1200.sqliteLength := by
    have hid := h.apId
    generalize t.apId = a at hid
    generalize t'.apId = b at hid
    cases hid with
    | none => rfl
    | some hab => rw [Option.map_some, Option.map_some, SameId.sqliteLength hab.2]
  simp only [TargetRow.isLegacyAt, h.kind, hlength, h.ip]

theorem legacyIds_eq {table table' : TargetTable}
    (h : List.Forall₂ s.Target table.rows table'.rows) (ip : Bytes) :
    legacyIds table ip = legacyIds table' ip := by
  unfold legacyIds
  refine map_eq_of_forall₂ (fun _ _ hrow => hrow.id) (List.rel_filter (R := s.Target) ?_ h)
  intro t t' ht
  simp only [ht.isLegacyAt ip]

theorem rel_deleteLegacy {table table' : TargetTable}
    (h : List.Forall₂ s.Target table.rows table'.rows) (ip : Bytes) :
    List.Forall₂ s.Target (table.delete (·.isLegacyAt ip)).rows
      (table'.delete (·.isLegacyAt ip)).rows := by
  refine List.rel_filter (R := s.Target) ?_ h
  intro t t' ht
  simp only [ht.isLegacyAt ip]

-- The first target that matches has the same number.
theorem find?_id_eq {p p' : TargetRow → Bool} (hp : ∀ t t', s.Target t t' → p t = p' t')
    {rows rows' : List TargetRow} (h : List.Forall₂ s.Target rows rows') :
    (rows.find? p).map TargetRow.id = (rows'.find? p').map TargetRow.id := by
  induction h with
  | nil => rfl
  | @cons t t' rows rows' ht _ ih =>
      rw [List.find?_cons, List.find?_cons, hp t t' ht]
      cases p' t' with
      | true => exact congrArg some ht.id
      | false => exact ih

theorem apTargetId_eq {table table' : TargetTable}
    (h : List.Forall₂ s.Target table.rows table'.rows) {id id' : Bytes} (hid : s.ap id id')
    (hsame : SameId id id') : apTargetId table id = apTargetId table' id' := by
  unfold apTargetId
  refine find?_id_eq (fun t t' ht => ?_) h
  rw [ht.kind, decide_eq_decide,
    eq_iff_of_rel s.ap_one ht.apId (.some (And.intro hid hsame))]

theorem rel_mergeLegacyAp {db db' : Db} (h : s.Alike db db') {a a' : ApTarget}
    (ha : a.Alike a' ∧ s.ap a.id a'.id) :
    Option.Rel s.Alike (mergeLegacyAp db a) (mergeLegacyAp db' a') := by
  have hids := legacyIds_eq h.target a.ip
  have hdelete := rel_deleteLegacy h.target a.ip
  rw [ha.1.ip] at hids hdelete
  unfold mergeLegacyAp
  rw [ha.1.ip, apTargetId_eq h.target ha.2 ha.1.id, hids, h.pingResult]
  -- Without a target to hand the results to, both merges fail or neither.
  cases apTargetId db'.target a'.id with
  | some id => exact .some ⟨hdelete, rfl, h.apRadioSample, h.meshLinkSample⟩
  | none =>
      by_cases hmove : ∃ p ∈ db'.pingResult.rows, p.targetId ∈ legacyIds db'.target a'.ip
      · simp only [if_pos hmove]
        exact .none
      · simp only [if_neg hmove]
        exact .some ⟨hdelete, rfl, h.apRadioSample, h.meshLinkSample⟩

theorem rel_mergeLegacyAps {aps aps' : List ApTarget}
    (haps : List.Forall₂ (fun a a' => a.Alike a' ∧ s.ap a.id a'.id) aps aps') {db db' : Db}
    (h : s.Alike db db') :
    Option.Rel s.Alike (mergeLegacyAps db aps) (mergeLegacyAps db' aps') :=
  rel_foldlM (R := fun a a' => a.Alike a' ∧ s.ap a.id a'.id) (P := s.Alike)
    (fun _ _ _ _ hdb ha => rel_mergeLegacyAp hdb ha) haps h

/-! ### Clients -/

/-- Two clients that differ in case and are spelled so. -/
def Entry (s : Spelling) (c c' : Client) : Prop :=
  c.Alike c' ∧ ((∃ ip name, c.usable ip name) → s.client c.mac c'.mac)

theorem rel_refreshClient {c c' : Client} (hmac : s.client c.mac c'.mac)
    (hsame : SameMac c.mac c'.mac) (ip name name' : Bytes) {t t' : TargetRow}
    (h : s.Target t t') :
    s.Target (refreshClient c ip name t) (refreshClient c' ip name' t') := by
  -- The update compares the text of the MAC.
  have hiff : (t.kind = .client ∧ t.clientMac = some c.mac) ↔
      (t'.kind = .client ∧ t'.clientMac = some c'.mac) := by
    rw [h.kind, eq_iff_of_rel s.client_one h.clientMac (.some (And.intro hmac hsame))]
  unfold refreshClient
  by_cases hc : t.kind = .client ∧ t.clientMac = some c.mac
  · rw [if_pos hc, if_pos (hiff.mp hc)]
    exact ⟨h.id, h.kind, rfl, rfl, h.clientMac, h.apId⟩
  · rw [if_neg hc, if_neg fun hc' => hc (hiff.mpr hc')]
    exact h

theorem rel_clientRow {mac mac' : Bytes} (hmac : s.client mac mac') (hsame : SameMac mac mac')
    (ip name name' : Bytes) (now : Nat) :
    s.Target (clientRow mac ip name now) (clientRow mac' ip name' now) :=
  ⟨rfl, rfl, rfl, rfl, .some ⟨hmac, hsame⟩, .none⟩

theorem rel_syncClient (now : Nat) {table table' : TargetTable}
    (h : List.Forall₂ s.Target table.rows table'.rows) {c c' : Client} (hc : s.Entry c c') :
    List.Forall₂ s.Target (syncClient now table c).rows (syncClient now table' c').rows := by
  rcases hc with ⟨halike, hspelled⟩
  have hip := halike.ip
  have hname := halike.name
  unfold syncClient
  rw [← hip]
  cases hci : c.ip with
  | none => exact h
  | some ip =>
      cases hcn : c.name with
      | none =>
          rw [hname.mp hcn]
          exact h
      | some name =>
          cases hcn' : c'.name with
          | none =>
              rw [hname.mpr hcn'] at hcn
              exact absurd hcn (by simp only [reduceCtorEq, not_false_eq_true])
          | some name' =>
              by_cases haddr : (inetPton ip).isSome = true
              · simp only [if_pos haddr]
                -- Only here a target is made or changed, so only here the spelling counts.
                have hmac := hspelled ⟨ip, name, hci, hcn, haddr⟩
                exact rel_update (refreshClient_same c ip name) (refreshClient_same c' ip name')
                  (rel_insertOrIgnore h (rel_clientRow hmac halike.mac ip name name' now))
                  fun t t' ht => rel_refreshClient hmac halike.mac ip name name' ht
              · simp only [if_neg haddr]
                exact h

/-! ### The client view -/

/-- Two views of which the clients differ in case and are spelled so. -/
structure View (s : Spelling) (view view' : ClientView) : Prop where
  items : List.Forall₂ s.Entry view.items view'.items
  valid : view.valid = view'.valid

theorem rel_syncClients (now : Nat) {view view' : ClientView} (hview : s.View view view')
    {table table' : TargetTable} (h : List.Forall₂ s.Target table.rows table'.rows) :
    List.Forall₂ s.Target (syncClients view now table).rows
      (syncClients view' now table').rows :=
  List.rel_foldl (P := fun t t' : TargetTable => List.Forall₂ s.Target t.rows t'.rows)
    (R := s.Entry) (fun _ _ ht _ _ hc => rel_syncClient now ht hc) h hview.items

/-- The sort arranges the clients of both files the same way. -/
theorem rel_view {env env' : TickEnv} (hsame : env.SameButCase env') (hspelled : s.Env env env')
    (hsort : env.sort.Generic) : s.View env.view env'.view := by
  have hclients := hspelled.clients
  unfold TickEnv.view
  rw [← hsame.sort]
  unfold TickEnv.clientEntries at hclients
  have hfile := hsame.clientXml
  generalize env.clientXml = file at hfile hclients
  generalize env'.clientXml = file' at hfile hclients
  cases hfile with
  | none => exact ⟨.nil, rfl⟩
  | some htext =>
      -- The comparison of the sort ignores case.
      refine ⟨hsort s.Entry (fun a a' b b' ha hb => ?_) _ _ ?_, rfl⟩
      · unfold clientCompare strcasecmp
        rw [ha.1.mac, hb.1.mac]
      · exact forall₂_and (scanClients_caseOnly (cText_caseOnly htext)) hclients

theorem clientPosition_eq {view view' : ClientView} (hview : s.View view view') {mac mac' : Bytes}
    (hmac : SameMac mac mac') : clientPosition view mac = clientPosition view' mac' := by
  have hmacs : view.items.map (fun c => lowercase c.mac)
      = view'.items.map fun c => lowercase c.mac :=
    map_eq_of_forall₂ (fun _ _ hc => hc.1.mac) hview.items
  -- The search sees the MACs in lower case.
  have horder : ∀ (v : ClientView) (m : Bytes) (i : Nat),
      v.items[i]?.map (fun c => strcasecmp m c.mac)
        = (v.items.map fun c => lowercase c.mac)[i]?.map (compare (lowercase m)) := by
    intro v m i
    rw [List.getElem?_map, Option.map_map]
    rfl
  unfold clientPosition
  simp only [horder, hmacs, hview.items.length_eq]
  rw [hmac]

theorem clientPresent_eq {view view' : ClientView} (hview : s.View view view')
    {mac mac' : Option Bytes} (hmac : Option.Rel (fun m m' => s.client m m' ∧ SameMac m m') mac mac') :
    clientPresent view mac = clientPresent view' mac' := by
  cases hmac with
  | none => rfl
  | some h => simp only [clientPresent, clientPosition_eq hview h.2]

theorem rel_findClient {view view' : ClientView} (hview : s.View view view')
    {mac mac' : Option Bytes} (hmac : Option.Rel (fun m m' => s.client m m' ∧ SameMac m m') mac mac') :
    Option.Rel s.Entry (findClient view mac) (findClient view' mac') := by
  cases hmac with
  | none => exact .none
  | some h =>
      simp only [findClient, clientPosition_eq hview h.2]
      refine rel_bind (P := Eq) ?_ fun i _ hi => ?_
      · cases clientPosition view' _ with
        | none => exact .none
        | some i => exact .some rfl
      · subst hi
        have hitems := hview.items
        by_cases hi : i < view.items.length
        · rw [List.getElem?_eq_getElem hi,
            List.getElem?_eq_getElem (by rw [← hitems.length_eq]; exact hi)]
          exact .some (hitems.get hi (by rw [← hitems.length_eq]; exact hi))
        · rw [List.getElem?_eq_none_iff.mpr (by omega),
            List.getElem?_eq_none_iff.mpr (by rw [← hitems.length_eq]; omega)]
          exact .none

/-! ### Measurements -/

theorem measurementOf_eq {view view' : ClientView} (hview : s.View view view') {t t' : TargetRow}
    (h : s.Target t t') : measurementOf view t = measurementOf view' t' := by
  have hclient : Option.Rel s.Entry
      (if t.kind = .client then findClient view t.clientMac else none)
      (if t'.kind = .client then findClient view' t'.clientMac else none) := by
    rw [h.kind]
    by_cases hk : t'.kind = .client
    · rw [if_pos hk, if_pos hk]
      exact rel_findClient hview h.clientMac
    · rw [if_neg hk, if_neg hk]
      exact .none
  unfold measurementOf
  simp only
  generalize (if t.kind = .client then findClient view t.clientMac else none) = a at hclient
  generalize (if t'.kind = .client then findClient view' t'.clientMac else none) = b at hclient
  rw [clientPresent_eq hview h.clientMac, hview.valid, h.kind, h.ip, h.id]
  cases hclient with
  | none => rfl
  | some hc =>
      simp only [Option.bind_some, hc.1.snrDb, hc.1.signalDbm, hc.1.noiseFloorDbm]

/-- Both runs measure the same. -/
theorem loadMeasurements_eq {table table' : TargetTable}
    (h : List.Forall₂ s.Target table.rows table'.rows) {view view' : ClientView}
    (hview : s.View view view') :
    loadMeasurements table view = loadMeasurements table' view' := by
  unfold loadMeasurements orderBy
  refine map_eq_of_forall₂ (R := s.Target) (fun _ _ ht => measurementOf_eq hview ht)
    (forall₂_insertionSort (fun t t' u u' ht hu => ?_) (List.rel_filter (R := s.Target) ?_ h))
  · rw [ht.id, hu.id]
  · intro t t' ht
    simp only [ht.enabled]

/-! ### Rounds -/

/-- A stage is reached in both runs or in neither. -/
theorem rel_reach {α β : Type} {P : α → β → Prop} {env env' : TickEnv}
    (h : env.fails = env'.fails) (stage : Stage) {later : Option α} {later' : Option β}
    (hlater : Option.Rel P later later') :
    Option.Rel P ((env.reach stage).bind fun _ => later)
      ((env'.reach stage).bind fun _ => later') := by
  unfold TickEnv.reach
  rw [h]
  by_cases hfails : env'.fails stage = true
  · rw [if_pos hfails]
    exact .none
  · rw [if_neg hfails]
    exact hlater

/-- The first transaction leaves the databases alike. -/
theorem alike_syncTargets {env env' : TickEnv} (hsame : env.SameButCase env')
    (hspelled : s.Env env env') (hsort : env.sort.Generic) {db db' : Db} (h : s.Alike db db') :
    Option.Rel s.Alike (syncTargets env db) (syncTargets env' db') := by
  have hview := rel_view hsame hspelled hsort
  have haps := forall₂_and (readAps_caseOnly hsame.apList) hspelled.aps
  unfold syncTargets
  simp only [Option.bind_eq_bind]
  refine rel_reach hsame.fails _ ?_
  refine rel_reach hsame.fails _ ?_
  refine rel_reach hsame.fails _ ?_
  refine rel_reach hsame.fails _ ?_
  refine rel_reach hsame.fails _ ?_
  rw [hsame.now]
  refine rel_bind (rel_mergeLegacyAps haps
    ⟨rel_seed haps env'.now h.target, h.pingResult, h.apRadioSample, h.meshLinkSample⟩)
    fun merged merged' hmerged => ?_
  refine rel_bind (P := s.Alike) ?_ fun synced synced' hsynced =>
    rel_reach hsame.fails _ (.some hsynced)
  unfold TickEnv.syncClientStage
  rw [hview.valid]
  by_cases hvalid : env'.view.valid = true
  · rw [if_pos hvalid, if_pos hvalid, Option.map_eq_bind, Option.map_eq_bind]
    refine rel_reach hsame.fails _ ?_
    rw [hsame.now]
    exact .some ⟨rel_syncClients env'.now hview hmerged.target, hmerged.pingResult,
      hmerged.apRadioSample, hmerged.meshLinkSample⟩
  · rw [if_neg hvalid, if_neg hvalid]
    exact .some hmerged

theorem Radio.sameKey {r r' u u' : RadioRow} (h : s.Radio r r') (h' : s.Radio u u') :
    r.sameKey u = r'.sameKey u' := by
  have htime : r'.observedAt = r.observedAt := by rw [h.row.rest]
  have htime' : u'.observedAt = u.observedAt := by rw [h'.row.rest]
  have hid : r'.radioId = r.radioId := by rw [h.row.rest]
  have hid' : u'.radioId = u.radioId := by rw [h'.row.rest]
  unfold RadioRow.sameKey
  rw [decide_eq_decide, htime, htime', hid, hid']
  refine and_congr_right fun heq => and_congr_left fun _ => ?_
  -- Samples of one time have one spelling.
  have hmac := h.apMac
  rw [heq] at hmac
  exact s.sampler_one _ _ _ _ _ hmac h'.apMac

theorem Mesh.sameKey {m m' u u' : MeshRow} (h : s.Mesh m m') (h' : s.Mesh u u') :
    m.sameKey u = m'.sameKey u' := by
  have htime : m'.observedAt = m.observedAt := by rw [h.row.rest]
  have htime' : u'.observedAt = u.observedAt := by rw [h'.row.rest]
  have hdirection : m'.direction = m.direction := by rw [h.row.rest]
  have hdirection' : u'.direction = u.direction := by rw [h'.row.rest]
  unfold MeshRow.sameKey
  rw [decide_eq_decide, htime, htime', hdirection, hdirection', ← and_assoc, ← and_assoc,
    ← and_assoc, ← and_assoc]
  refine and_congr_left fun _ => ?_
  rw [and_assoc, and_assoc]
  refine and_congr_right fun heq => ?_
  have hmac := h.apMac
  have hpeer := h.peerMac
  rw [heq] at hmac hpeer
  -- Of the peers only those of one access point are compared.
  have happ := s.sampler_one _ _ _ _ _ hmac h'.apMac
  rw [happ]
  refine and_congr_right fun heq' => ?_
  rw [happ.mpr heq'] at hpeer
  exact s.peer_one _ _ _ _ _ _ hpeer h'.peerMac

-- An uplink replaces uplinks.
theorem uplinkRows_put (rows : List MeshRow) (m : MeshRow) (hup : m.direction = .uplink) :
    uplinkRows ((rows.filter fun r => !r.sameKey m) ++ [m])
      = ((uplinkRows rows).filter fun r => !r.sameKey m) ++ [m] := by
  unfold uplinkRows
  rw [List.filter_append, List.filter_comm]
  simp only [List.filter_cons, hup, decide_true, if_true, List.filter_nil]

-- A downlink replaces none.
theorem uplinkRows_put_downlink (rows : List MeshRow) (m : MeshRow)
    (hdown : m.direction ≠ .uplink) :
    uplinkRows ((rows.filter fun r => !r.sameKey m) ++ [m]) = uplinkRows rows := by
  unfold uplinkRows
  rw [List.filter_append, List.filter_comm]
  simp only [List.filter_cons, hdown, decide_false, Bool.false_eq_true, if_false, List.filter_nil,
    List.append_nil]
  rw [List.filter_eq_self]
  intro r hr
  have hup : r.direction = .uplink := of_decide_eq_true (List.mem_filter.mp hr).2
  have hkey : r.sameKey m = false := by
    unfold MeshRow.sameKey
    rw [decide_eq_false_iff_not]
    exact fun hsame => hdown (hsame.2.2.2 ▸ hup)
  rw [hkey]
  rfl

/-- A statement of the ingestion leaves the databases alike. -/
theorem rel_putDetail {db db' : Db} (h : s.Alike db db') {row row' : DetailRow}
    (halike : row.Alike row') (hspelled : s.Detail row row') :
    Option.Rel s.Alike (putDetail db row) (putDetail db' row') := by
  cases halike with
  | @radio radioId r r' hrow =>
      -- Without a number of the radio both inserts fail.
      cases radioId with
      | none => exact .none
      | some number =>
          have hr : s.Radio r r' := ⟨hrow, hspelled⟩
          refine .some ⟨h.target, h.pingResult, ?_, h.meshLinkSample⟩
          refine List.rel_append (List.rel_filter (R := s.Radio) ?_ h.apRadioSample)
            (.cons hr .nil)
          intro u u' hu
          simp only [hu.sameKey hr]
  | @mesh m m' hrow =>
      refine .some ⟨h.target, h.pingResult, h.apRadioSample, ?_⟩
      have hdirection : m'.direction = m.direction := by rw [hrow.rest]
      by_cases hup : m.direction = .uplink
      · have hm : s.Mesh m m' := ⟨hrow, (hspelled hup).1, (hspelled hup).2⟩
        simp only [uplinkRows_put _ m hup, uplinkRows_put _ m' (hdirection.trans hup)]
        refine List.rel_append (List.rel_filter (R := s.Mesh) ?_ h.meshLinkSample)
          (.cons hm .nil)
        intro u u' hu
        simp only [hu.sameKey hm]
      · have hup' : m'.direction ≠ .uplink := fun habs => hup (hdirection.symm.trans habs)
        simp only [uplinkRows_put_downlink _ m hup, uplinkRows_put_downlink _ m' hup']
        exact h.meshLinkSample

/-- Ingestion fails in both runs or in neither, and leaves the databases alike. -/
theorem rel_ingestApDetail {env env' : TickEnv} (hsame : env.SameButCase env')
    (hspelled : s.Env env env') {db db' : Db} (h : s.Alike db db') :
    Option.Rel s.Alike (ingestApDetail db env.apDetail env.now)
      (ingestApDetail db' env'.apDetail env'.now) := by
  have hdetails := hspelled.details
  unfold TickEnv.detailEntries at hdetails
  have hfile := hsame.apDetail
  rw [← hsame.now] at hdetails ⊢
  generalize env.apDetail = file at hfile hdetails
  generalize env'.apDetail = file' at hfile hdetails
  cases hfile with
  | none => exact .some h
  | some htext =>
      simp only [Option.map_some, Option.getD_some] at hdetails
      have hrows := forall₂_and (detailRows_caseOnly (cText_caseOnly htext) env.now) hdetails
      exact rel_foldlM (P := s.Alike)
        (fun _ _ _ _ hdb hrow => rel_putDetail hdb hrow.1 hrow.2) hrows h

theorem alike_prune {db db' : Db} (h : s.Alike db db') (now : Nat) :
    s.Alike (prune db now) (prune db' now) := by
  refine ⟨h.target, ?_, ?_, ?_⟩
  · simp only [prune, h.pingResult]
  · refine List.rel_filter (R := s.Radio) ?_ h.apRadioSample
    intro r r' hr
    have htime : r'.observedAt = r.observedAt := by rw [hr.row.rest]
    simp only [htime]
  · unfold uplinkRows
    simp only [prune]
    rw [List.filter_comm, List.filter_comm (l := db'.meshLinkSample)]
    refine List.rel_filter (R := s.Mesh) ?_ h.meshLinkSample
    intro m m' hm
    have htime : m'.observedAt = m.observedAt := by rw [hm.row.rest]
    simp only [htime]

/-- The second transaction leaves the databases alike. -/
theorem alike_writeRound {env env' : TickEnv} (hsame : env.SameButCase env')
    (hspelled : s.Env env env') (hsort : env.sort.Generic) {db db' : Db} (h : s.Alike db db') :
    Option.Rel s.Alike (writeRound env db) (writeRound env' db') := by
  have hview := rel_view hsame hspelled hsort
  unfold writeRound
  simp only [Option.bind_eq_bind]
  refine rel_reach hsame.fails _ ?_
  refine rel_reach hsame.fails _ ?_
  refine rel_reach hsame.fails _ ?_
  refine rel_reach hsame.fails _ ?_
  refine rel_reach hsame.fails _ ?_
  rw [loadMeasurements_eq h.target hview, hsame.replies, h.pingResult]
  have hnow := hsame.now
  refine rel_bind (P := Eq) ?_ fun rows rows' hrows => ?_
  · rw [hnow]
    cases List.foldlM ResultTable.insert db'.pingResult _ with
    | none => exact .none
    | some rows => exact .some rfl
  refine rel_reach hsame.fails _ ?_
  refine rel_bind (rel_ingestApDetail hsame hspelled
    ⟨h.target, hrows, h.apRadioSample, h.meshLinkSample⟩) fun done done' hdone => ?_
  refine rel_reach hsame.fails _ ?_
  refine rel_reach hsame.fails _ ?_
  rw [hnow]
  exact .some (alike_prune hdone _)

theorem alike_tick {env env' : TickEnv} (hsame : env.SameButCase env')
    (hspelled : s.Env env env') (hsort : env.sort.Generic) {db db' : Db} (h : s.Alike db db') :
    s.Alike (tick env db).1 (tick env' db').1 := by
  have hsync := alike_syncTargets hsame hspelled hsort h
  unfold tick
  generalize syncTargets env db = a at hsync
  generalize syncTargets env' db' = b at hsync
  cases hsync with
  | none => exact h
  | @some synced synced' hsynced =>
      have hwrite := alike_writeRound hsame hspelled hsort hsynced
      simp only
      generalize writeRound env synced = a at hwrite
      generalize writeRound env' synced' = b at hwrite
      cases hwrite with
      | none => exact hsynced
      | some hwritten => exact hwritten

/-! ### Commands -/

theorem rel_renameClient {mac mac' : Bytes} (hmac : s.client mac mac') (hsame : SameMac mac mac')
    (ip name : Bytes) {t t' : TargetRow} (h : s.Target t t') :
    s.Target (renameClient mac ip name t) (renameClient mac' ip name t') := by
  have hiff : (t.kind = .client ∧ t.clientMac = some mac) ↔
      (t'.kind = .client ∧ t'.clientMac = some mac') := by
    rw [h.kind, eq_iff_of_rel s.client_one h.clientMac (.some (And.intro hmac hsame))]
  unfold renameClient
  by_cases hc : t.kind = .client ∧ t.clientMac = some mac
  · rw [if_pos hc, if_pos (hiff.mp hc)]
    exact ⟨h.id, h.kind, rfl, rfl, h.clientMac, h.apId⟩
  · rw [if_neg hc, if_neg fun hc' => hc (hiff.mpr hc')]
    exact h

theorem alike_addClient {mac mac' ip name : Bytes} (now : Nat) (fails : Bool)
    (hsame : SameId mac mac')
    (hspelled : validMac mac = true → inetPton ip ≠ none → name ≠ [] → s.client mac mac')
    {db db' : Db} (h : s.Alike db db') :
    s.Alike (addClient mac ip name now fails db).1 (addClient mac' ip name now fails db').1 := by
  have hvalid : validMac mac = validMac mac' := Bool.eq_iff_iff.mpr hsame.validMac_iff
  unfold addClient
  rw [hvalid]
  by_cases hrefused : validMac mac' = false ∨ inetPton ip = none ∨ name = []
  · rw [if_pos hrefused, if_pos hrefused]
    exact h
  · rw [if_neg hrefused, if_neg hrefused]
    by_cases hfails : fails = true
    · rw [if_pos hfails, if_pos hfails]
      exact h
    · rw [if_neg hfails, if_neg hfails]
      simp only [not_or, Bool.not_eq_false] at hrefused
      have hmac : s.client mac mac' :=
        hspelled (hvalid.trans hrefused.1) hrefused.2.1 hrefused.2.2
      have hexists : (∃ t ∈ db.target.rows, t.kind = .client ∧ t.clientMac = some mac) ↔
          ∃ t ∈ db'.target.rows, t.kind = .client ∧ t.clientMac = some mac' :=
        exists_iff_of_forall₂ (fun t t' ht => by
          rw [ht.kind, eq_iff_of_rel s.client_one ht.clientMac
            (.some (And.intro hmac hsame.sameMac))]) h.target
      by_cases hthere : ∃ t ∈ db.target.rows, t.kind = .client ∧ t.clientMac = some mac
      · rw [if_pos hthere, if_pos (hexists.mp hthere)]
        exact ⟨rel_update (renameClient_same mac ip name) (renameClient_same mac' ip name) h.target
          fun t t' ht => rel_renameClient hmac hsame.sameMac ip name ht,
          h.pingResult, h.apRadioSample, h.meshLinkSample⟩
      · rw [if_neg hthere, if_neg fun hthere' => hthere (hexists.mpr hthere')]
        have hinsert := rel_insert h.target (rel_clientRow hmac hsame.sameMac ip name name now)
        generalize db.target.insert (clientRow mac ip name now) = a at hinsert
        generalize db'.target.insert (clientRow mac' ip name now) = b at hinsert
        cases hinsert with
        | none => exact h
        | some htable => exact ⟨htable, h.pingResult, h.apRadioSample, h.meshLinkSample⟩

theorem alike_setEnabled (idText enabledText : Bytes) (fails : Bool) {db db' : Db}
    (h : s.Alike db db') :
    s.Alike (setEnabled idText enabledText fails db).1
      (setEnabled idText enabledText fails db').1 := by
  unfold setEnabled
  rcases strtol idText with ⟨id, rest⟩
  simp only
  by_cases hrefused : idText = [] ∨ rest ≠ [] ∨ id < 1 ∨
      (enabledText ≠ ascii "0" ∧ enabledText ≠ ascii "1")
  · rw [if_pos hrefused, if_pos hrefused]
    exact h
  · rw [if_neg hrefused, if_neg hrefused]
    by_cases hfails : fails = true
    · rw [if_pos hfails, if_pos hfails]
      exact h
    · rw [if_neg hfails, if_neg hfails]
      have hexists : (∃ t ∈ db.target.rows, (t.id : Int) = id) ↔
          ∃ t ∈ db'.target.rows, (t.id : Int) = id :=
        exists_iff_of_forall₂ (fun t t' ht => by rw [ht.id]) h.target
      by_cases hthere : ∃ t ∈ db.target.rows, (t.id : Int) = id
      · rw [if_pos hthere, if_pos (hexists.mp hthere)]
        refine ⟨rel_update (switchTarget_same id _) (switchTarget_same id _) h.target
          fun t t' ht => ?_, h.pingResult, h.apRadioSample, h.meshLinkSample⟩
        unfold switchTarget
        rw [ht.id]
        by_cases hid : (t'.id : Int) = id
        · rw [if_pos hid, if_pos hid]
          exact ⟨rfl, ht.kind, ht.ip, rfl, ht.clientMac, ht.apId⟩
        · rw [if_neg hid, if_neg hid]
          exact ht
      · rw [if_neg hthere, if_neg fun hthere' => hthere (hexists.mpr hthere')]
        exact h

/-- A command leaves the databases alike. -/
theorem alike_runCommand {command command' : Zd1200.Command} (hsame : SameButCase command command')
    (hspelled : s.Command command command')
    (hsort : ∀ env, command = .tick env → env.sort.Generic) {db db' : Db} (h : s.Alike db db') :
    s.Alike (runCommand db command) (runCommand db' command') := by
  cases hsame with
  | tick same =>
      cases hspelled with
      | tick spelled => exact alike_tick same spelled (hsort _ rfl) h
  | addClient ip name now fails same =>
      cases hspelled with
      | addClient _ _ _ _ spelled => exact alike_addClient now fails same spelled h
  | setEnabled idText enabledText fails => exact alike_setEnabled idText enabledText fails h

theorem alike_empty : s.Alike emptyDb emptyDb := ⟨.nil, rfl, .nil, .nil⟩

/-- A run of commands leaves the databases alike. -/
theorem alike_run {commands commands' : List Zd1200.Command}
    (hsame : List.Forall₂ SameButCase commands commands')
    (hspelled : List.Forall₂ s.Command commands commands')
    (hsort : ∀ env, .tick env ∈ commands → env.sort.Generic) {db db' : Db} (h : s.Alike db db') :
    s.Alike (commands.foldl runCommand db) (commands'.foldl runCommand db') := by
  induction hsame generalizing db db' with
  | nil => exact h
  | @cons command command' rest rest' hfirst _ ih =>
      cases hspelled with
      | cons hspelledFirst hspelledRest =>
          refine ih hspelledRest (fun env henv => hsort env (List.mem_cons_of_mem _ henv)) ?_
          refine alike_runCommand hfirst hspelledFirst (fun env heq => ?_) h
          exact hsort env (heq ▸ List.mem_cons_self)

end Spelling

end Zd1200
