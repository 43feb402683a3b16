import Zd1200.Lib.Checked
import Zd1200.Monitor.Clients

/-!
# Access Point Telemetry

`ingest_ap_detail`: the radio and mesh samples of a round, from the detail
listing.

The listing is cut into sections from an `<ap ` to the next `</ap>`, and a
section with a valid MAC is searched twice, for its radios and for its mesh
links. Both searches run over the whole text and are stopped by the section's
end only when a hit lies behind it. What they find is first turned into
statements and then executed one after another, since no search depends on
what a statement did; the first one that fails ends the round.

A sample replaces the one with the same primary key. The only statement that
can violate a constraint is that of a radio without a number, because
`radio_id` takes no null.

## Main definitions

* `apSections`: The sections of a listing.
* `radioTags`, `meshTags`: The radios and mesh links of a section.
* `DetailRow`: A statement.
* `ingestApDetail`: Executing all of them.

## Theorems

* `ingestApDetail_changes`: Only samples of the round come and go.
-/

namespace Zd1200

/-- The sections of a listing: where one starts, where its head ends and where
    its `</ap>` is. -/
def apSections (text : Bytes) : Nat → Nat → List (Nat × Nat × Nat)
  | 0, _ => []
  | fuel + 1, start =>
      match findFrom text (ascii "<ap ") start with
      | none => []
      | some tag =>
          match findFrom text (ascii ">") tag with
          | none => []
          | some headEnd =>
              match findFrom text (ascii "</ap>") headEnd with
              | none => []
              -- The next section is looked for behind this `</ap>`.
              | some apEnd => (tag, headEnd, apEnd) :: apSections text fuel (apEnd + 5)

/-- The loop over `<radio ` inside a section that ends at `apEnd`. -/
def radioTags (text : Bytes) (apEnd : Nat) : Nat → Nat → List (Nat × Nat)
  | 0, _ => []
  | fuel + 1, cursor =>
      match findFrom text (ascii "<radio ") cursor with
      | none => []
      | some tag =>
          -- The search does not stop at the section's end by itself.
          if apEnd ≤ tag then []
          else
            match findFrom text (ascii ">") tag with
            | none => []
            | some stop =>
                if apEnd < stop then [] else (tag, stop) :: radioTags text apEnd fuel (stop + 1)

/-- The next mesh link: an uplink unless a downlink comes before it. -/
def nextMeshTag (text : Bytes) (apEnd cursor : Nat) : Option (Nat × Direction) :=
  let up := findFrom text (ascii "<uplink-ap ") cursor
  let down := findFrom text (ascii "<downlink-ap ") cursor
  match up, down with
  | some up, none => if up < apEnd then some (up, .uplink) else none
  | some up, some down =>
      -- An uplink behind the section gives way to a downlink inside it.
      if up < apEnd ∧ up < down then some (up, .uplink)
      else if down < apEnd then some (down, .downlink) else none
  | none, some down => if down < apEnd then some (down, .downlink) else none
  | none, none => none

/-- The loop over the mesh links inside a section that ends at `apEnd`. -/
def meshTags (text : Bytes) (apEnd : Nat) : Nat → Nat → List (Nat × Nat × Direction)
  | 0, _ => []
  | fuel + 1, cursor =>
      if apEnd ≤ cursor then []
      else
        match nextMeshTag text apEnd cursor with
        | none => []
        | some (tag, direction) =>
            match findFrom text (ascii ">") tag with
            | none => []
            | some stop =>
                if apEnd < stop then []
                else (tag, stop, direction) :: meshTags text apEnd fuel (stop + 1)

/-- A statement of the ingestion. A radio's number may be null. -/
inductive DetailRow
  | radio (radioId : Option Int) (sample : RadioRow)
  | mesh (sample : MeshRow)
  deriving DecidableEq, Repr

def radioOfTag (text : Bytes) (observedAt : Nat) (apMac : Bytes) (tag stop : Nat) : DetailRow :=
  let number name := optionalInt (attr text tag stop name)
  .radio (number "radio-id")
    { observedAt, apMac
      -- Without a number the statement fails, so the value is never stored.
      radioId := (number "radio-id").getD 0
      radioType := attr text tag stop "radio-type"
      channel := number "channel"
      channelization := number "channelization"
      clients := number "assoc-stas"
      noiseFloorDbm := number "noisefloor"
      avgSnrDb := number "avg-rssi"
      airtimeTotalTenths := number "airtime-total"
      airtimeBusyTenths := number "airtime-busy"
      airtimeRxTenths := number "airtime-rx"
      airtimeTxTenths := number "airtime-tx"
      rfSamples := number "rf-samples" }

/-- A mesh link needs a peer with a valid MAC. -/
def meshOfTag (text : Bytes) (observedAt : Nat) (apMac : Bytes) (tag stop : Nat)
    (direction : Direction) : Option DetailRow := do
  let peerMac ← attr text tag stop "ap"
  if validMac peerMac then
    some (.mesh
      { observedAt, apMac, peerMac, direction
        radioType := attr text tag stop "radio-type"
        snrDb := optionalInt (attr text tag stop "rssi") })
  else none

/-- The statements of a section, in order. -/
def sectionRows (text : Bytes) (observedAt : Nat) (apSection : Nat × Nat × Nat) : List DetailRow :=
  let (tag, headEnd, apEnd) := apSection
  match attr text tag headEnd "mac" with
  | none => []
  | some apMac =>
      if validMac apMac then
        ((radioTags text apEnd (text.length + 1) (headEnd + 1)).map fun (tag, stop) =>
            radioOfTag text observedAt apMac tag stop) ++
          (meshTags text apEnd (text.length + 1) (headEnd + 1)).filterMap
            fun (tag, stop, direction) => meshOfTag text observedAt apMac tag stop direction
      else []

def detailRows (text : Bytes) (observedAt : Nat) : List DetailRow :=
  (apSections text (text.length + 1) 0).flatMap (sectionRows text observedAt)

def RadioRow.sameKey (a b : RadioRow) : Bool :=
  a.observedAt = b.observedAt ∧ a.apMac = b.apMac ∧ a.radioId = b.radioId

def MeshRow.sameKey (a b : MeshRow) : Bool :=
  a.observedAt = b.observedAt ∧ a.apMac = b.apMac ∧ a.peerMac = b.peerMac ∧
    a.direction = b.direction

/-- `INSERT OR REPLACE`; a null in a column that takes none is an error. -/
def putDetail (db : Db) (row : DetailRow) : Option Db :=
  match row with
  | .radio none _ => none
  | .radio (some _) sample =>
      some { db with
        apRadioSample := (db.apRadioSample.filter fun r => !r.sameKey sample) ++ [sample] }
  | .mesh sample =>
      some { db with
        meshLinkSample := (db.meshLinkSample.filter fun r => !r.sameKey sample) ++ [sample] }

/-- A missing file is no error: the round goes without telemetry. -/
def ingestApDetail (db : Db) (apDetail : Option Bytes) (observedAt : Nat) : Option Db :=
  match apDetail with
  | none => some db
  | some contents => (detailRows (cText contents) observedAt).foldlM putDetail db

/-! ### What ingestion changes -/

/-- Targets and results stay, and so do the samples of other rounds, in their
    order. -/
structure OnlySamplesOf (observedAt : Nat) (db db' : Db) : Prop where
  target : db'.target = db.target
  pingResult : db'.pingResult = db.pingResult
  apRadioSample : (db'.apRadioSample.filter fun r => r.observedAt ≠ observedAt)
    = db.apRadioSample.filter fun r => r.observedAt ≠ observedAt
  meshLinkSample : (db'.meshLinkSample.filter fun r => r.observedAt ≠ observedAt)
    = db.meshLinkSample.filter fun r => r.observedAt ≠ observedAt
  /-- Samples of the round are replaced, never taken away. -/
  radioStays : (∃ r ∈ db.apRadioSample, r.observedAt = observedAt) →
    ∃ r ∈ db'.apRadioSample, r.observedAt = observedAt
  meshStays : (∃ m ∈ db.meshLinkSample, m.observedAt = observedAt) →
    ∃ m ∈ db'.meshLinkSample, m.observedAt = observedAt

theorem OnlySamplesOf.refl (observedAt : Nat) (db : Db) : OnlySamplesOf observedAt db db :=
  ⟨rfl, rfl, rfl, rfl, id, id⟩

theorem OnlySamplesOf.trans {observedAt : Nat} {db db' db'' : Db}
    (h : OnlySamplesOf observedAt db db') (h' : OnlySamplesOf observedAt db' db'') :
    OnlySamplesOf observedAt db db'' :=
  ⟨h'.target.trans h.target, h'.pingResult.trans h.pingResult,
    h'.apRadioSample.trans h.apRadioSample, h'.meshLinkSample.trans h.meshLinkSample,
    fun hex => h'.radioStays (h.radioStays hex), fun hex => h'.meshStays (h.meshStays hex)⟩

/-- The round a statement is about. -/
def DetailRow.observedAt : DetailRow → Nat
  | .radio _ sample => sample.observedAt
  | .mesh sample => sample.observedAt

theorem filter_replace {α : Type} (rows : List α) (row : α) (same other : α → Bool)
    (hrow : other row = false) (hsame : ∀ r, same r = true → other r = false) :
    ((rows.filter fun r => !same r) ++ [row]).filter other = rows.filter other := by
  rw [List.filter_append, List.filter_filter, List.filter_cons, hrow]
  simp only [Bool.false_eq_true, if_false, List.filter_nil, List.append_nil]
  refine List.filter_congr fun r _ => ?_
  -- A row that gives way is one that the filter passes over anyway.
  cases hs : same r with
  | false => simp only [Bool.not_false, Bool.and_true]
  | true => simp only [hsame r hs, Bool.false_and]

theorem putDetail_changes (db db' : Db) (row : DetailRow) (h : putDetail db row = some db') :
    OnlySamplesOf row.observedAt db db' := by
  cases row with
  | radio radioId sample =>
      cases radioId with
      | none => exact absurd h (by simp only [putDetail, reduceCtorEq, not_false_eq_true])
      -- What is replaced and what is added are of the same round.
      | some _ =>
          rw [putDetail, Option.some.injEq] at h
          subst h
          refine ⟨rfl, rfl, ?_, rfl,
            fun _ => ⟨sample, List.mem_append_right _ List.mem_cons_self, rfl⟩, id⟩
          refine filter_replace _ _ (fun r : RadioRow => r.sameKey sample) _ ?_ fun r hr => ?_
          · simp only [DetailRow.observedAt, ne_eq, not_true_eq_false, decide_false]
          · simp only [RadioRow.sameKey, decide_eq_true_eq] at hr
            simp only [DetailRow.observedAt, hr.1, ne_eq, not_true_eq_false, decide_false]
  | mesh sample =>
      rw [putDetail, Option.some.injEq] at h
      subst h
      refine ⟨rfl, rfl, rfl, ?_, id,
        fun _ => ⟨sample, List.mem_append_right _ List.mem_cons_self, rfl⟩⟩
      refine filter_replace _ _ (fun r : MeshRow => r.sameKey sample) _ ?_ fun r hr => ?_
      · simp only [DetailRow.observedAt, ne_eq, not_true_eq_false, decide_false]
      · simp only [MeshRow.sameKey, decide_eq_true_eq] at hr
        simp only [DetailRow.observedAt, hr.1, ne_eq, not_true_eq_false, decide_false]

theorem observedAt_of_mem_detailRows (text : Bytes) (observedAt : Nat) (row : DetailRow)
    (h : row ∈ detailRows text observedAt) : row.observedAt = observedAt := by
  rcases List.mem_flatMap.mp h with ⟨⟨tag, headEnd, apEnd⟩, -, hrow⟩
  unfold sectionRows at hrow
  simp only at hrow
  split at hrow
  · exact absurd hrow List.not_mem_nil
  · split at hrow
    · rcases List.mem_append.mp hrow with hradio | hmesh
      · rcases List.mem_map.mp hradio with ⟨⟨_, _⟩, -, rfl⟩
        rfl
      · rcases List.mem_filterMap.mp hmesh with ⟨⟨_, _, _⟩, -, hmesh⟩
        simp only [meshOfTag, Option.bind_eq_bind, Option.bind_eq_some_iff] at hmesh
        rcases hmesh with ⟨peerMac, -, hpeer⟩
        split at hpeer
        · rw [← Option.some.inj hpeer]
          rfl
        · exact absurd hpeer (by simp only [reduceCtorEq, not_false_eq_true])
    · exact absurd hrow List.not_mem_nil

theorem ingestApDetail_changes (db db' : Db) (apDetail : Option Bytes) (observedAt : Nat)
    (h : ingestApDetail db apDetail observedAt = some db') : OnlySamplesOf observedAt db db' := by
  cases apDetail with
  | none =>
      rw [← Option.some.inj h]
      exact OnlySamplesOf.refl observedAt db
  | some contents =>
      rw [ingestApDetail] at h
      refine foldlM_keeps (P := OnlySamplesOf observedAt db) putDetail _ ?_ db db'
        (OnlySamplesOf.refl observedAt db) h
      -- Every statement of a listing is about its round.
      intro row hrow mid next hmid hput
      rw [← observedAt_of_mem_detailRows (cText contents) observedAt row hrow] at hmid ⊢
      exact hmid.trans (putDetail_changes mid next row hput)

end Zd1200
