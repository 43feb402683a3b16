import Zd1200.Monitor.AllOrNothing

/-!
# Telemetry Beside Results

What the text of the detail listing can do to the round it is stored with.

The samples of a listing are stored in the transaction of the round's results,
so a statement of theirs that fails takes the results along. Only one can: a
mesh link whose peer has no valid MAC is passed over, and every other value is
stored as a null if its attribute is missing, but a radio is inserted whatever
its tag says and its number is a column that takes no null. A round in which
nothing else goes wrong therefore stores its results exactly if every radio of
a section with a valid MAC has a number.

## Main definitions

* `RadiosNumbered`: Every radio of a listing has its number.
* `StoresResults`: What is expected of a round.

## Theorems

* `ingestApDetail_isSome_iff`: When a listing is stored.
* `tick_storesResults_iff`: When a round keeps its results.
-/

namespace Zd1200

/-- Every radio in a section with a valid MAC has a `radio-id` that is not
    empty. -/
def RadiosNumbered (text : Bytes) : Prop :=
  ∀ apSection ∈ apSections text (text.length + 1) 0, ∀ apMac,
    attr text apSection.1 apSection.2.1 "mac" = some apMac → validMac apMac = true →
      ∀ radio ∈ radioTags text apSection.2.2 (text.length + 1) (apSection.2.1 + 1),
        ∃ number, attr text radio.1 radio.2 "radio-id" = some number ∧ number ≠ []

/-- A round stores a result for each of its measurements and returns 0. -/
structure StoresResults (env : TickEnv) (db synced : Db) : Prop where
  status : (tick env db).2 = 0
  stored : ∀ item ∈ env.measurements synced, ∃ p, NewResult db (tick env db).1 p ∧
    p = { resultRow env.now item with id := p.id }

/-! ### Statements -/

/-- A statement that violates no constraint: not that of a radio without a
    number. -/
def DetailRow.Accepted : DetailRow → Prop
  | .radio radioId _ => radioId.isSome = true
  | .mesh _ => True

theorem putDetail_isSome_iff (db : Db) (row : DetailRow) :
    (putDetail db row).isSome = true ↔ row.Accepted := by
  cases row with
  | radio radioId sample =>
      cases radioId with
      | none => rfl
      | some number => rfl
  | mesh sample => simp only [putDetail, Option.isSome_some, DetailRow.Accepted]

/-- A number is bound unless its text is missing or empty. -/
theorem optionalInt_isSome_iff (value : Option Bytes) :
    (optionalInt value).isSome = true ↔ ∃ text, value = some text ∧ text ≠ [] := by
  cases value with
  | none => simp only [optionalInt, Option.isSome_none, Bool.false_eq_true, reduceCtorEq, false_and,
      exists_false]
  | some text =>
      rw [optionalInt]
      by_cases h : text = []
      · rw [if_pos h]
        simp only [Option.isSome_none, Bool.false_eq_true, Option.some.injEq, exists_eq_left', h,
          ne_eq, not_true_eq_false]
      · rw [if_neg h]
        simp only [Option.isSome_some, Option.some.injEq, exists_eq_left', ne_eq, h,
          not_false_eq_true]

/-- A mesh link is a statement of its own kind. -/
theorem accepted_of_meshOfTag (text : Bytes) (observedAt : Nat) (apMac : Bytes) (tag stop : Nat)
    (direction : Direction) (row : DetailRow)
    (h : meshOfTag text observedAt apMac tag stop direction = some row) : row.Accepted := by
  simp only [meshOfTag, Option.bind_eq_bind, Option.bind_eq_some_iff] at h
  rcases h with ⟨peerMac, -, hpeer⟩
  split at hpeer
  · rw [← Option.some.inj hpeer]
    trivial
  · exact absurd hpeer (by simp only [reduceCtorEq, not_false_eq_true])

/-- The statements of a section are accepted if its radios have numbers. -/
theorem sectionRows_accepted_iff (text : Bytes) (observedAt : Nat) (apSection : Nat × Nat × Nat) :
    (∀ row ∈ sectionRows text observedAt apSection, row.Accepted) ↔
      ∀ apMac, attr text apSection.1 apSection.2.1 "mac" = some apMac → validMac apMac = true →
        ∀ radio ∈ radioTags text apSection.2.2 (text.length + 1) (apSection.2.1 + 1),
          ∃ number, attr text radio.1 radio.2 "radio-id" = some number ∧ number ≠ [] := by
  rcases apSection with ⟨tag, headEnd, apEnd⟩
  unfold sectionRows
  simp only
  cases hmac : attr text tag headEnd "mac" with
  | none => simp only [List.not_mem_nil, false_implies, implies_true, reduceCtorEq]
  | some apMac =>
      simp only [Option.some.injEq, forall_eq']
      by_cases hvalid : validMac apMac = true
      · rw [if_pos hvalid, List.forall_mem_append, List.forall_mem_map]
        constructor
        · intro h _ radio hradio
          exact (optionalInt_isSome_iff _).mp (h.1 radio hradio)
        · refine fun h => ⟨fun radio hradio => (optionalInt_isSome_iff _).mpr (h hvalid radio hradio),
            fun row hrow => ?_⟩
          rcases List.mem_filterMap.mp hrow with ⟨⟨start, stop, direction⟩, -, heq⟩
          exact accepted_of_meshOfTag text observedAt apMac start stop direction row heq
      · rw [if_neg hvalid]
        simp only [List.not_mem_nil, false_implies, implies_true, hvalid, Bool.false_eq_true]

/-! ### Rounds -/

/-- A listing is stored exactly if its radios have numbers. -/
theorem ingestApDetail_isSome_iff (db : Db) (apDetail : Option Bytes) (observedAt : Nat) :
    (ingestApDetail db apDetail observedAt).isSome = true ↔
      ∀ contents, apDetail = some contents → RadiosNumbered (cText contents) := by
  cases apDetail with
  | none => simp only [ingestApDetail, Option.isSome_some, reduceCtorEq, false_implies, implies_true]
  | some contents =>
      rw [ingestApDetail, foldlM_isSome_iff putDetail DetailRow.Accepted putDetail_isSome_iff,
        detailRows, List.forall_mem_flatMap]
      simp only [sectionRows_accepted_iff, Option.some.injEq, forall_eq', RadiosNumbered]

/-- Where no stage fails, the second transaction is its statements. -/
theorem writeRound_isSome_iff (env : TickEnv) (db : Db) (hruns : ∀ stage, env.fails stage = false) :
    (writeRound env db).isSome = true ↔
      ∀ contents, env.apDetail = some contents → RadiosNumbered (cText contents) := by
  have hreach : ∀ stage, env.reach stage = some () := fun stage => by
    rw [TickEnv.reach, hruns stage]
    rfl
  unfold writeRound
  simp only [hreach, Option.bind_eq_bind, Option.bind_some]
  -- The results themselves are always within the bounds of the table.
  cases hrows : (List.map (resultRow env.now)
      (parallelPing env.replies (loadMeasurements db.target env.view))).foldlM
        ResultTable.insert db.pingResult with
  | none =>
      refine absurd hrows (insertResults_isSome _ _ fun p hp => ?_)
      rcases List.mem_map.mp hp with ⟨item, hitem, rfl⟩
      rcases measured_of_mem env db item hitem with ⟨t, -, -, hmeasured⟩
      exact hmeasured.bounds
  | some rows =>
      rw [← ingestApDetail_isSome_iff { db with pingResult := rows } env.apDetail env.now]
      simp only [Option.bind_some]
      cases ingestApDetail { db with pingResult := rows } env.apDetail env.now with
      | none => rfl
      | some detailed => rfl

/-- A round in which nothing fails but what the listing brings about stores
    its results exactly if every radio of the listing has a number. -/
theorem tick_storesResults_iff (env : TickEnv) (db synced : Db)
    (hruns : ∀ stage, env.fails stage = false) (hsync : syncTargets env db = some synced) :
    StoresResults env db synced ↔
      ∀ contents, env.apDetail = some contents → RadiosNumbered (cText contents) := by
  rw [← writeRound_isSome_iff env synced hruns]
  cases hwrite : writeRound env synced with
  | none =>
      have htick : tick env db = (synced, 1) := by
        rw [tick, hsync]
        simp only [hwrite]
      refine ⟨fun h => ?_, fun h => absurd h Bool.false_ne_true⟩
      have hstatus := h.status
      rw [htick] at hstatus
      exact absurd hstatus Nat.one_ne_zero
  | some written =>
      have htick : tick env db = (written, 0) := by
        rw [tick, hsync]
        simp only [hwrite]
      refine ⟨fun _ => rfl, fun _ => ⟨by rw [htick], fun item hitem => ?_⟩⟩
      rw [htick]
      rcases writeRound_writes env synced written hwrite item hitem with ⟨p, hp, heq⟩
      exact ⟨p, (newResult_of_synced env db synced written hsync p).mpr hp, heq⟩

/-- A round that finds one access point, with its radios in the given tags. -/
def radioRound (radios : String) : TickEnv where
  apList := some (ascii "<ap mac=\"aa:bb:cc:dd:ee:0a\" name=\"Hall\" ip=\"10.0.0.1\"/>")
  clientXml := none
  apDetail := some (ascii ("<ap mac=\"aa:bb:cc:dd:ee:0a\">" ++ radios ++ "</ap>"))
  now := 86400
  replies := fun _ => some 3
  fails := fun _ => false
  sort := insertionSortFn clientCompare

/-- A radio with its number costs the round nothing. -/
theorem tick_storesResults_numbered :
    ∃ synced, syncTargets (radioRound "<radio radio-id=\"0\"/>") emptyDb = some synced ∧
      StoresResults (radioRound "<radio radio-id=\"0\"/>") emptyDb synced := by
  have hsync : (syncTargets (radioRound "<radio radio-id=\"0\"/>") emptyDb).isSome = true := by
    decide +kernel
  rcases Option.isSome_iff_exists.mp hsync with ⟨synced, hsynced⟩
  refine ⟨synced, hsynced, (tick_storesResults_iff _ emptyDb synced (fun _ => rfl) hsynced).mpr ?_⟩
  refine fun contents heq => (ingestApDetail_isSome_iff emptyDb (some contents) 86400).mp ?_
    contents rfl
  rw [← heq]
  decide +kernel

/-- The answer of an access point whose radio has no number is lost. -/
theorem tick_storesResults_numberless :
    ∃ synced, syncTargets (radioRound "<radio channel=\"6\"/>") emptyDb = some synced ∧
      ((radioRound "<radio channel=\"6\"/>").measurements synced).map
        (fun item => (item.id, item.state)) = [(1, .ok)] ∧
      (tick (radioRound "<radio channel=\"6\"/>") emptyDb).2 = 1 ∧
      (tick (radioRound "<radio channel=\"6\"/>") emptyDb).1.pingResult.rows = [] ∧
      ¬ StoresResults (radioRound "<radio channel=\"6\"/>") emptyDb synced := by
  have hsync : (syncTargets (radioRound "<radio channel=\"6\"/>") emptyDb).map (fun synced =>
      ((radioRound "<radio channel=\"6\"/>").measurements synced).map
        fun item => (item.id, item.state)) = some [(1, .ok)] := by decide +kernel
  have hstatus : (tick (radioRound "<radio channel=\"6\"/>") emptyDb).2 = 1 := by decide +kernel
  rcases Option.map_eq_some_iff.mp hsync with ⟨synced, hsynced, hitems⟩
  refine ⟨synced, hsynced, hitems, hstatus, by decide +kernel, fun h => ?_⟩
  exact absurd (hstatus.symm.trans h.status) Nat.one_ne_zero

end Zd1200
