import Zd1200.Export.Readable
import Zd1200.Monitor.Alike

/-!
# Exports of Runs That Differ in Case

What the case of MACs does to the exports: `export_day` and `targets_json`.

Both exports write a MAC from its six bytes and put the targets in order
ignoring case, so databases that are alike make the same files
(`exportDay_alike`) and list the same devices (`targetsJson_alike`). Two runs
whose inputs differ in case leave such databases whenever there is a spelling
that leads from the one run to the other. Without one they need not: a client
that is added in capitals the second time becomes another target, and its
samples are divided between the two.

## Main definitions

* `Device`, `targetsJson`: The listing of the targets.
* `SameExports`: Two databases make the same files and list the same devices.

## Theorems

* `parseMac_lowercase`: A MAC is read the same in either case.
* `exportDay_alike`: The files of databases that are alike.
* `targetsJson_alike`: Their devices.
* `sameExports_of_spelled`: Runs of commands.
-/

namespace Zd1200

/-! ### The listing -/

/-- An entry of the listing. A text that is null is written as an empty one. -/
structure Device where
  mac : Bytes
  kind : Kind
  ip : Bytes
  apId : Option Bytes
  name : Bytes
  enabled : Bool
  upstreamAp : Option Bytes
  ssid : Option Bytes
  radio : Option Bytes
  deriving DecidableEq, Repr

/-- An entry for a target; a target whose identity is not a MAC has none. -/
def deviceOf (t : TargetRow) : Option Device :=
  ((identity t).bind parseMac).map fun mac =>
    { mac := macText mac
      kind := t.kind
      ip := t.ip
      apId := t.apId
      name := t.name
      enabled := t.enabled
      upstreamAp := t.currentAp
      ssid := t.currentSsid
      radio := t.currentRadio }

/-- `targets_json`: the entries, `ORDER BY lower(…)`. -/
def targetsJson (db : Db) : List Device :=
  (db.target.rows.insertionSort fun a b => NocaseLe (identity a) (identity b)).filterMap deviceOf

/-- The listing has a device. -/
def ListsDevice (db : Db) (mac : Bytes) (kind : Kind) : Prop :=
  ∃ device ∈ targetsJson db, device.mac = mac ∧ device.kind = kind

/-- Two databases make the same files and list the same devices. -/
def SameExports (db db' : Db) : Prop :=
  (∀ start, exportDay db start = exportDay db' start) ∧
    ∀ mac kind, ListsDevice db mac kind ↔ ListsDevice db' mac kind

/-! ### MACs -/

theorem hexValue_tolower (c : UInt8) : hexValue (tolower c) = hexValue c := by
  have hall : ∀ i : Fin 256, hexValue (tolower (UInt8.ofFin i)) = hexValue (UInt8.ofFin i) := by
    decide +kernel
  exact hall c.toFin

theorem parseOctets_lowercase (text : Bytes) : parseOctets (lowercase text) = parseOctets text := by
  unfold lowercase
  induction text using parseOctets.induct with
  | case1 high low =>
      simp only [List.map_cons, List.map_nil, parseOctets, parseOctet, hexValue_tolower]
  | case2 high low rest ih =>
      have hcolon : tolower 58 = 58 := by decide
      simp only [List.map_cons, parseOctets, parseOctet, hexValue_tolower, hcolon, if_true, ih]
  | case3 high low sep rest hsep =>
      have hcolon : tolower sep ≠ 58 := fun habs => hsep ((tolower_eq_colon sep).mp habs)
      simp only [List.map_cons, parseOctets, if_neg hsep, if_neg hcolon]
  | case4 text h2 h3 =>
      rcases text with - | ⟨a, - | ⟨b, - | ⟨c, rest⟩⟩⟩
      · rfl
      · rfl
      · exact absurd rfl (h2 a b)
      · exact absurd rfl (h3 a b c rest)

/-- A MAC is read the same in either case. -/
theorem parseMac_lowercase (text : Bytes) : parseMac (lowercase text) = parseMac text := by
  unfold parseMac
  rw [parseOctets_lowercase, lowercase, List.length_map]

theorem parseMac_sameMac {a b : Bytes} (h : SameMac a b) : parseMac a = parseMac b := by
  rw [← parseMac_lowercase a, h, parseMac_lowercase]

theorem lowercase_lowercase (text : Bytes) : lowercase (lowercase text) = lowercase text := by
  have hall : ∀ i : Fin 256, tolower (tolower (UInt8.ofFin i)) = tolower (UInt8.ofFin i) := by
    decide +kernel
  have hidem : tolower ∘ tolower = tolower := funext fun c => hall c.toFin
  rw [lowercase, lowercase, List.map_map, hidem]

/-! ### Databases that are alike -/

section Alike

variable {s : Spelling} {db db' : Db}

theorem Spelling.Target.identity {t t' : TargetRow} (h : s.Target t t') :
    Option.Rel SameMac (Zd1200.identity t) (Zd1200.identity t') := by
  unfold Zd1200.identity
  rw [h.kind]
  by_cases hk : t'.kind = .client
  · rw [if_pos hk, if_pos hk]
    exact rel_imp (fun _ _ hmac => hmac.2) h.clientMac
  · rw [if_neg hk, if_neg hk]
    exact rel_imp (fun _ _ hid => hid.2.sameMac) h.apId

theorem Spelling.Target.apIdSame {t t' : TargetRow} (h : s.Target t t') :
    Option.Rel SameMac t.apId t'.apId :=
  rel_imp (fun _ _ hid => hid.2.sameMac) h.apId

-- The order ignores case.
theorem nocaseLe_iff {a a' b b' : Option Bytes} (ha : Option.Rel SameMac a a')
    (hb : Option.Rel SameMac b b') : NocaseLe a b ↔ NocaseLe a' b' := by
  cases ha with
  | none => rfl
  | some hm =>
      cases hb with
      | none => rfl
      | some hm' =>
          simp only [NocaseLe, strcasecmp]
          rw [hm, hm']

theorem bind_parseMac_eq {a a' : Option Bytes} (h : Option.Rel SameMac a a') :
    a.bind parseMac = a'.bind parseMac := by
  cases h with
  | none => rfl
  | some hm => exact parseMac_sameMac hm

-- The targets of a query come in the same order and are written the same.
theorem selectTargets_eq {rows rows' : List TargetRow} (h : List.Forall₂ s.Target rows rows')
    {column : TargetRow → Option Bytes}
    (hcolumn : ∀ t t', s.Target t t' → Option.Rel SameMac (column t) (column t')) :
    selectTargets rows column = selectTargets rows' column := by
  have hsorted : List.Forall₂ s.Target
      (rows.insertionSort fun a b => NocaseLe (column a) (column b))
      (rows'.insertionSort fun a b => NocaseLe (column a) (column b)) :=
    forall₂_insertionSort (fun t t' u u' ht hu => nocaseLe_iff (hcolumn t t' ht) (hcolumn u u' hu)) h
  have happend : ∀ t t', s.Target t t' →
      targetAppend t (column t) = targetAppend t' (column t') := by
    intro t t' ht
    unfold targetAppend
    rw [bind_parseMac_eq (hcolumn t t' ht), ht.id]
  exact filterMap_eq_of_forall₂ happend hsorted

theorem hasResult_iff (h : s.Alike db db') (start : Nat) {t t' : TargetRow} (ht : s.Target t t') :
    HasResult db start t ↔ HasResult db' start t' := by
  unfold HasResult
  rw [h.pingResult, ht.id]

theorem loadTargets_eq (h : s.Alike db db') (start : Nat) :
    loadTargets db start = loadTargets db' start := by
  unfold loadTargets
  refine selectTargets_eq (List.rel_filter (R := s.Target) ?_ h.target)
    fun t t' ht => ht.identity
  intro t t' ht
  simp only [hasResult_iff h start ht]

theorem loadApTargets_eq (h : s.Alike db db') (start : Nat) :
    loadApTargets db start = loadApTargets db' start := by
  unfold loadApTargets
  refine selectTargets_eq (List.rel_filter (R := s.Target) ?_ h.target)
    fun t t' ht => ht.apIdSame
  intro t t' ht
  simp only [hasResult_iff h start ht, ht.kind]

/-! ### Samples -/

-- A text in lower case names the same samples in both runs.
theorem apMac_eq_iff {time : Nat} {a a' text : Bytes} (hsame : SameMac a a')
    (hspelled : s.sampler time a a') (hlower : lowercase text = text) :
    (a = text ↔ a' = text) ∧ (a = text → a = a') := by
  have hiff := s.sampler_lower time a a' hspelled
  have hto : a = text → a' = text := by
    intro ha
    have ha' : lowercase a' = a' := hiff.mp (by rw [ha, hlower])
    rw [← ha', ← hsame, ha, hlower]
  have hfrom : a' = text → a = text := by
    intro ha'
    have ha : lowercase a = a := hiff.mpr (by rw [ha', hlower])
    rw [← ha, hsame, ha', hlower]
  exact ⟨⟨hto, hfrom⟩, fun ha => ha.trans (hto ha).symm⟩

theorem airRowBytes_eq (h : s.Alike db db') (start : Nat) (rounds : List Nat) (fiveGhz : Bool)
    (ap : ExportTarget) (hlower : lowercase ap.macText = ap.macText) :
    airRowBytes db start rounds fiveGhz ap = airRowBytes db' start rounds fiveGhz ap := by
  have hrows : (db.apRadioSample.filter fun r => r.apMac = ap.macText ∧ InDay start r.observedAt)
      = db'.apRadioSample.filter fun r => r.apMac = ap.macText ∧ InDay start r.observedAt := by
    refine filter_eq_of_forall₂ (fun r r' hr => ?_) h.apRadioSample
    have hmac := apMac_eq_iff hr.row.apMac hr.apMac hlower
    have htime : r'.observedAt = r.observedAt := by rw [hr.row.rest]
    refine ⟨by rw [decide_eq_decide, htime, hmac.1], fun hkept => ?_⟩
    have happ := hmac.2 (of_decide_eq_true hkept).1
    rw [hr.row.rest, ← happ]
  unfold airRowBytes
  rw [hrows]

theorem meshRowBytes_eq (h : s.Alike db db') (start : Nat) (rounds : List Nat)
    (ap : ExportTarget) (hlower : lowercase ap.macText = ap.macText) :
    meshRowBytes db start rounds ap = meshRowBytes db' start rounds ap := by
  have hfilter : ∀ rows : List MeshRow, (rows.filter fun m =>
        m.apMac = ap.macText ∧ m.direction = .uplink ∧ InDay start m.observedAt)
      = (Spelling.uplinkRows rows).filter fun m => m.apMac = ap.macText ∧ InDay start m.observedAt := by
    intro rows
    unfold Spelling.uplinkRows
    rw [List.filter_filter]
    refine List.filter_congr fun m _ => ?_
    rw [← Bool.decide_and, decide_eq_decide, and_assoc]
    exact and_congr_right fun _ => and_comm
  have hrows : List.Forall₂ s.Mesh (uplinks db start ap.macText) (uplinks db' start ap.macText) := by
    unfold uplinks
    rw [hfilter, hfilter]
    refine forall₂_insertionSort (fun m m' u u' hm hu => ?_)
      (List.rel_filter (R := s.Mesh) ?_ h.meshLinkSample)
    · have htime : m'.observedAt = m.observedAt := by rw [hm.row.rest]
      have htime' : u'.observedAt = u.observedAt := by rw [hu.row.rest]
      simp only [htime, htime']
    · intro m m' hm
      have htime : m'.observedAt = m.observedAt := by rw [hm.row.rest]
      simp only [(apMac_eq_iff hm.row.apMac hm.apMac hlower).1, htime]
  -- A peer is not written.
  unfold meshRowBytes
  rw [filterMap_eq_of_forall₂ (fun m m' hm => ?_) hrows]
  rw [hm.row.rest]

/-! ### Exports -/

theorem lower_of_mem_loadApTargets (db : Db) (start : Nat) (ap : ExportTarget)
    (h : ap ∈ loadApTargets db start) : lowercase ap.macText = ap.macText := by
  rcases List.mem_filterMap.mp h with ⟨t, -, ht⟩
  rcases targetAppend_eq_some t _ ap ht with ⟨-, -, -, stored, -, htext⟩
  rw [htext, lowercase_lowercase]

-- Matrices of access points.
theorem flatMap_aps_eq {start : Nat} {row row' : ExportTarget → Bytes}
    (hrow : ∀ ap, lowercase ap.macText = ap.macText → row ap = row' ap) :
    (loadApTargets db start).flatMap row = (loadApTargets db start).flatMap row' := by
  rw [List.flatMap_def, List.flatMap_def]
  refine congrArg List.flatten (List.map_congr_left fun ap hap => ?_)
  exact hrow ap (lower_of_mem_loadApTargets db start ap hap)

theorem resultRowBytes_eq (h : s.Alike db db') (start : Nat) (rounds : List Nat)
    (byte : PingRow → Option UInt8) :
    resultRowBytes db start rounds byte = resultRowBytes db' start rounds byte := by
  funext t
  unfold resultRowBytes targetResults
  rw [h.pingResult]

/-- Databases that are alike make the same files. -/
theorem exportDay_alike (h : s.Alike db db') (start : Nat) :
    exportDay db start = exportDay db' start := by
  have hrounds : loadRounds db start = loadRounds db' start := by
    unfold loadRounds
    rw [h.pingResult]
  have hair : ∀ fiveGhz, (loadApTargets db start).flatMap
        (airRowBytes db start (loadRounds db start) fiveGhz)
      = (loadApTargets db start).flatMap (airRowBytes db' start (loadRounds db start) fiveGhz) :=
    fun fiveGhz => flatMap_aps_eq fun ap hlower => airRowBytes_eq h start _ fiveGhz ap hlower
  have hmesh : (loadApTargets db start).flatMap (meshRowBytes db start (loadRounds db start))
      = (loadApTargets db start).flatMap (meshRowBytes db' start (loadRounds db start)) :=
    flatMap_aps_eq fun ap hlower => meshRowBytes_eq h start _ ap hlower
  have hparts : dayParts db start = dayParts db' start := by
    unfold dayParts
    simp only [hair, hmesh, resultRowBytes_eq h]
    rw [hrounds, loadTargets_eq h, loadApTargets_eq h]
  unfold exportDay dayBytes
  rw [hparts, hrounds, loadTargets_eq h, loadApTargets_eq h]

/-- Databases that are alike list the same devices. -/
theorem targetsJson_alike (h : s.Alike db db') (mac : Bytes) (kind : Kind) :
    ListsDevice db mac kind ↔ ListsDevice db' mac kind := by
  have hdevice : ∀ t t', s.Target t t' →
      (deviceOf t).map (fun d => (d.mac, d.kind)) = (deviceOf t').map fun d => (d.mac, d.kind) := by
    intro t t' ht
    unfold deviceOf
    rw [bind_parseMac_eq ht.identity, Option.map_map, Option.map_map, ht.kind]
    rfl
  have hlists : (targetsJson db).map (fun d => (d.mac, d.kind))
      = (targetsJson db').map fun d => (d.mac, d.kind) := by
    unfold targetsJson
    rw [List.map_filterMap, List.map_filterMap]
    exact filterMap_eq_of_forall₂ hdevice
      (forall₂_insertionSort (fun t t' u u' ht hu => nocaseLe_iff ht.identity hu.identity) h.target)
  have hmem : ∀ db : Db, ListsDevice db mac kind ↔
      (mac, kind) ∈ (targetsJson db).map fun d => (d.mac, d.kind) := by
    intro db
    simp only [ListsDevice, List.mem_map, Prod.mk.injEq]
  rw [hmem, hmem, hlists]

end Alike

/-! ### Runs -/

/-- Runs that differ in case make the same files and list the same devices, if
    there is a spelling that leads from the one to the other. -/
theorem sameExports_of_spelled (s : Spelling) (commands commands' : List Command)
    (hsame : List.Forall₂ SameButCase commands commands')
    (hspelled : List.Forall₂ s.Command commands commands')
    (hsort : ∀ env, .tick env ∈ commands → env.sort.Generic) :
    SameExports (commands.foldl runCommand emptyDb) (commands'.foldl runCommand emptyDb) := by
  have halike := Spelling.alike_run hsame hspelled hsort (Spelling.alike_empty (s := s))
  exact ⟨exportDay_alike halike, targetsJson_alike halike⟩

/-- The client file of a round with one client. -/
def phoneXml (mac : Bytes) : Bytes :=
  ascii "<response><client" ++ (attrOpening "mac" ++ (mac ++ 34 ::
    ascii " ip=\"10.0.0.9\" hostname=\"Phone\" /></response>"))

/-- A round with that file. -/
def phoneRound (mac : Bytes) : TickEnv := { quietRound with clientXml := some (phoneXml mac) }

/-- A client is added by hand and is then seen by a round, spelled in one way. -/
def spelledCommands (mac : Bytes) : List Command :=
  [.addClient mac (ascii "10.0.0.9") (ascii "Phone") 86400 false, .tick (phoneRound mac)]

/-- A client's MAC in capitals. -/
def phoneUpper : Bytes := ascii "AA:BB:CC:DD:EE:01"

/-- The same MAC in small letters. -/
def phoneLower : Bytes := ascii "aa:bb:cc:dd:ee:01"

/-- The client is spelled in capitals in one run and in small letters in the
    other. -/
def phoneSpelling : Spelling where
  ap := Eq
  client a a' := a = phoneUpper ∧ a' = phoneLower
  sampler _ := Eq
  peer _ _ := Eq
  ap_one := by rintro a a' b b' rfl rfl; rfl
  client_one := by rintro a a' b b' ⟨rfl, rfl⟩ ⟨rfl, rfl⟩; exact iff_of_true rfl rfl
  sampler_one := by rintro _ a a' b b' rfl rfl; rfl
  sampler_lower := by rintro _ a a' rfl; rfl
  peer_one := by rintro _ _ a a' b b' rfl rfl; rfl

theorem sameButCase_phoneRound {mac mac' : Bytes} (hvalid : validMac mac = true)
    (hsame : SameMac mac mac') : (phoneRound mac).SameButCase (phoneRound mac') := by
  have hxml : CaseOnly (phoneXml mac) (phoneXml mac') :=
    .append_left _ (.mac List.mem_cons_self hvalid hsame (.refl _))
  exact ⟨.none, .some hxml, .none, rfl, rfl, rfl, rfl⟩

theorem spelled_phoneRound : phoneSpelling.Env (phoneRound phoneUpper) (phoneRound phoneLower) := by
  have hclients : (phoneRound phoneUpper).clientEntries.map Client.mac = [phoneUpper] ∧
      (phoneRound phoneLower).clientEntries.map Client.mac = [phoneLower] := by
    constructor <;> decide +kernel
  have hall : List.Forall₂ phoneSpelling.client
      ((phoneRound phoneUpper).clientEntries.map Client.mac)
      ((phoneRound phoneLower).clientEntries.map Client.mac) := by
    rw [hclients.1, hclients.2]
    exact .cons ⟨rfl, rfl⟩ .nil
  rw [List.forall₂_map_left_iff, List.forall₂_map_right_iff] at hall
  refine ⟨.nil, ?_, .nil⟩
  refine List.Forall₂.imp (fun c c' hmac => ?_) hall
  exact fun _ => hmac

theorem spelledCommands_sort (mac : Bytes) (env : TickEnv)
    (henv : .tick env ∈ spelledCommands mac) : env.sort.Generic := by
  simp only [spelledCommands, List.mem_cons, reduceCtorEq, List.not_mem_nil, or_false, false_or,
    Command.tick.injEq] at henv
  rw [henv]
  exact insertionSortFn_generic

theorem sameExports_phone :
    phoneUpper ≠ phoneLower ∧
      SameExports ((spelledCommands phoneUpper).foldl runCommand emptyDb)
        ((spelledCommands phoneLower).foldl runCommand emptyDb) := by
  have hvalid : validMac phoneUpper = true := by decide +kernel
  have hsame : SameMac phoneUpper phoneLower := by decide +kernel
  refine ⟨by decide +kernel, sameExports_of_spelled phoneSpelling _ _ ?_ ?_
    (spelledCommands_sort phoneUpper)⟩
  · exact .cons (.addClient _ _ _ _ (.inr ⟨hvalid, hsame⟩))
      (.cons (.tick (sameButCase_phoneRound hvalid hsame)) .nil)
  · exact .cons (.addClient _ _ _ _ fun _ _ _ => ⟨rfl, rfl⟩) (.cons (.tick spelled_phoneRound) .nil)

/-- A client that is added twice is two targets if the second time is in
    capitals. -/
theorem exports_differ_twins :
    ¬ ∀ commands commands', List.Forall₂ SameButCase commands commands' →
      (∀ command ∈ commands, ∀ id enabled fails, command ≠ .setEnabled id enabled fails) →
      (∀ env, .tick env ∈ commands → env.sort.Generic) →
      SameExports (commands.foldl runCommand emptyDb) (commands'.foldl runCommand emptyDb) := by
  intro hclaim
  have hsame := hclaim
    [.addClient phoneLower (ascii "10.0.0.9") (ascii "Phone") 86400 false,
     .addClient phoneLower (ascii "10.0.0.9") (ascii "Phone") 86400 false, .tick quietRound]
    twinCommands
    (.cons (.addClient _ _ _ _ (.inl rfl)) (.cons
      (.addClient _ _ _ _ (.inr ⟨by decide +kernel, by decide +kernel⟩))
      (.cons (.tick ⟨.none, .none, .none, rfl, rfl, rfl, rfl⟩) .nil)))
    (by simp [quietRound])
    (by
      intro env henv
      simp only [List.mem_cons, reduceCtorEq, List.not_mem_nil, or_false, false_or,
        Command.tick.injEq] at henv
      rw [henv]
      exact insertionSortFn_generic)
  exact absurd (hsame.1 86400) (by decide +kernel)

end Zd1200
