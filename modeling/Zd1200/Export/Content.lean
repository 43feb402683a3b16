import Zd1200.Export.Readable

/-!
# What a Day File Says

A day file that can be read says what the database holds of the day.

`DayContent` relates the decoded day to the tables, in terms of rows: a byte
of a matrix belongs to a target and a round, and of the rows of that pair the
last one counts, for the SNR the last one that has an SNR. Without a row the
byte is zero.

On the way from a row to its byte there are three positions: that of the
result among the writes to a matrix row (`getElem?_fillRow`), that of the
matrix row in the matrix, and that of the matrix in the file
(`cell_of_matrix`).

## Main definitions

* `cell`: A byte of a matrix of a decoded day.
* `LastRow`: The last row of a target and a round.
* `DayContent`: What the decoded day says.

## Theorems

* `readDay_content`: The day that the reader returns says what the database
  holds.
* `exportDay_content`: An exported day that is read, and a day that is too big.
-/

namespace Zd1200

/-- A byte of a matrix. -/
def cell (day : Day) (offset i j : Nat) : Option UInt8 :=
  day.bytes[offset + (i * day.roundCount + j)]?

/-- The results of a target in a round. -/
def IsResult (db : Db) (t : TargetRow) (time : Nat) (p : PingRow) : Prop :=
  p ∈ db.pingResult.rows ∧ p.targetId = t.id ∧ p.observedAt = time

/-- The last result of a target in a round among those that `which` holds of. -/
def LastRow (db : Db) (t : TargetRow) (time : Nat) (which : PingRow → Prop) (p : PingRow) : Prop :=
  IsResult db t time p ∧ which p ∧ ∀ q, IsResult db t time q → which q → q.id ≤ p.id

/-- The uplinks of an access point in a round. -/
def IsUplink (db : Db) (apMac : Bytes) (time : Nat) (m : MeshRow) : Prop :=
  m ∈ db.meshLinkSample ∧ m.apMac = apMac ∧ m.direction = .uplink ∧ m.observedAt = time

/-- The target in row `i` of the matrices and the round in column `j`. -/
structure AtCell (db : Db) (start : Nat) (day : Day) (i j : Nat) (t : TargetRow) (time : Nat) :
    Prop where
  mac : ∃ mac, HasMac db start t mac ∧ day.macs[i]? = some (macText mac)
  time : day.timestamps[j]? = some time

/-- What a decoded day says of the database. -/
structure DayContent (db : Db) (start : Nat) (day : Day) : Prop where
  /-- The timestamps are the distinct times of the day. -/
  mem_timestamps : ∀ time, time ∈ day.timestamps ↔
    (∃ p ∈ db.pingResult.rows, p.observedAt = time) ∧ start ≤ time ∧ time < start + 86400
  nodup_timestamps : day.timestamps.Nodup
  /-- The MACs are those of the targets with a result. -/
  mem_macs : ∀ text, text ∈ day.macs ↔ ∃ t mac, HasMac db start t mac ∧ text = macText mac
  nodup_macs : day.macs.Nodup
  /-- A reply shows its latency. -/
  sample_reply : ∀ i j t time p, AtCell db start day i j t time →
    LastRow db t time (fun _ => True) p → p.responded = true → p.state = .ok →
    cell day day.samplesOffset i j = some (encodeLatency p.rttMs).toUInt8
  sample_timeout : ∀ i j t time p, AtCell db start day i j t time →
    LastRow db t time (fun _ => True) p → p.state = .timeout →
    ¬ (p.responded = true ∧ p.state = .ok) →
    cell day day.samplesOffset i j = some 255
  sample_other : ∀ i j t time p, AtCell db start day i j t time →
    LastRow db t time (fun _ => True) p → p.state ≠ .timeout →
    ¬ (p.responded = true ∧ p.state = .ok) →
    cell day day.samplesOffset i j = some 0
  sample_none : ∀ i j t time, AtCell db start day i j t time →
    (∀ p, ¬ IsResult db t time p) → cell day day.samplesOffset i j = some 0
  /-- The last SNR shows its clamped value. -/
  snr_last : ∀ i j t time p snr, AtCell db start day i j t time →
    LastRow db t time (fun q => q.snrDb ≠ none) p → p.snrDb = some snr →
    cell day day.snrOffset i j = some ((max 0 (min snr 100) + 1).toNat.toUInt8)
  snr_none : ∀ i j t time, AtCell db start day i j t time →
    (∀ p, IsResult db t time p → p.snrDb = none) → cell day day.snrOffset i j = some 0
  state_notAssociated : ∀ i j t time p, AtCell db start day i j t time →
    LastRow db t time (fun _ => True) p → p.state = .notAssociated →
    cell day day.stateOffset i j = some 2
  state_unknown : ∀ i j t time p, AtCell db start day i j t time →
    LastRow db t time (fun _ => True) p → p.state = .unknown →
    cell day day.stateOffset i j = some 0
  state_other : ∀ i j t time p, AtCell db start day i j t time →
    LastRow db t time (fun _ => True) p → p.state ≠ .notAssociated → p.state ≠ .unknown →
    cell day day.stateOffset i j = some 1
  state_none : ∀ i j t time, AtCell db start day i j t time →
    (∀ p, ¬ IsResult db t time p) → cell day day.stateOffset i j = some 0
  /-- The access points are the targets of their kind. -/
  mem_apMacs : ∀ text, text ∈ day.apMacs ↔
    ∃ t mac, HasMac db start t mac ∧ t.kind = .ap ∧ text = macText mac
  /-- An uplink of the round with an SNR shows it, if there is one. -/
  mesh_some : ∀ i j apMac time, day.apMacs[i]? = some apMac → day.timestamps[j]? = some time →
    (∃ m, IsUplink db apMac time m ∧ m.snrDb ≠ none) →
    ∃ m snr, IsUplink db apMac time m ∧ m.snrDb = some snr ∧
      cell day day.meshSnrOffset i j = some ((max 0 (min snr 100) + 1).toNat.toUInt8)
  mesh_none : ∀ i j apMac time, day.apMacs[i]? = some apMac → day.timestamps[j]? = some time →
    (∀ m, IsUplink db apMac time m → m.snrDb = none) →
    cell day day.meshSnrOffset i j = some 0

/-! ### Rows of a matrix -/

/-- A byte of a matrix row: the last write to its round, or zero. -/
theorem getElem?_fillRow (rounds : List Nat) (hasc : rounds.Pairwise (· < ·))
    (values : List (Nat × UInt8)) (j time : Nat) (hj : rounds[j]? = some time) :
    (fillRow rounds values)[j]? =
      some ((((values.filter fun value => value.1 = time).map Prod.snd).getLast?).getD 0) := by
  have hlt : j < rounds.length := (List.getElem?_eq_some_iff.mp hj).1
  -- A write reaches the position exactly when it is of the round.
  have hat : ∀ value : Nat × UInt8, findRound rounds value.1 = some j ↔ value.1 = time := by
    intro value
    rw [findRound_eq_some_iff rounds hasc, hj, Option.some.injEq, eq_comm]
  -- The writes that are made at the position are those of the round.
  have hwrites : (values.filterMap fun value => (findRound rounds value.1).map
        fun k => (k, value.2)).filter (fun write => write.1 = j)
      = (values.filter fun value => value.1 = time).map fun value => (j, value.2) := by
    induction values with
    | nil => rfl
    | cons value rest ih =>
        rw [List.filterMap_cons, List.filter_cons]
        cases hfind : findRound rounds value.1 with
        | none =>
            have hne : ¬ value.1 = time := fun h => by
              rw [(hat value).mpr h] at hfind
              exact absurd hfind (by simp only [reduceCtorEq, not_false_eq_true])
            rw [if_neg (by rw [decide_eq_true_eq]; exact hne)]
            exact ih
        | some k =>
            rw [Option.map_some]
            simp only [List.filter_cons]
            by_cases hk : k = j
            · have htime : value.1 = time := (hat value).mp (by rw [hfind, hk])
              rw [if_pos (by rw [decide_eq_true_eq]; exact hk),
                if_pos (by rw [decide_eq_true_eq]; exact htime), List.map_cons, ih, hk]
            · have hne : ¬ value.1 = time := fun h => by
                rw [(hat value).mpr h] at hfind
                exact hk (Option.some.inj hfind).symm
              rw [if_neg (by rw [decide_eq_true_eq]; exact hk),
                if_neg (by rw [decide_eq_true_eq]; exact hne), ih]
  rw [fillRow, getElem?_writeAll _ _ j (by rw [List.length_replicate]; exact hlt), hwrites,
    List.getElem?_replicate_of_lt hlt, List.getLast?_map, List.getLast?_map, Option.map_map]
  cases (values.filter fun value => decide (value.1 = time)).getLast? <;> rfl

/-- The bytes that the rows of a query write to a round, in their order. -/
theorem values_of_round {α : Type} (rows : List α) (timeOf : α → Nat) (byte : α → Option UInt8)
    (time : Nat) :
    ((rows.filterMap fun p => (byte p).map fun b => (timeOf p, b)).filter
        fun value => value.1 = time).map Prod.snd
      = (rows.filter fun p => timeOf p = time).filterMap byte := by
  induction rows with
  | nil => rfl
  | cons p rest ih =>
      rw [List.filterMap_cons, List.filter_cons]
      -- A row that writes nothing is passed over on both sides.
      cases hbyte : byte p with
      | none =>
          rw [Option.map_none]
          simp only
          by_cases htime : timeOf p = time
          · rw [if_pos (by rw [decide_eq_true_eq]; exact htime), List.filterMap_cons_none hbyte, ih]
          · rw [if_neg (by rw [decide_eq_true_eq]; exact htime), ih]
      | some b =>
          rw [Option.map_some]
          simp only [List.filter_cons]
          by_cases htime : timeOf p = time
          · rw [if_pos (by rw [decide_eq_true_eq]; exact htime),
              if_pos (by rw [decide_eq_true_eq]; exact htime), List.map_cons,
              List.filterMap_cons_some hbyte, ih]
          · rw [if_neg (by rw [decide_eq_true_eq]; exact htime),
              if_neg (by rw [decide_eq_true_eq]; exact htime), ih]

/-- A byte of a matrix row, from the rows of a query. -/
theorem getElem?_fillRow_rows {α : Type} (rounds : List Nat) (hasc : rounds.Pairwise (· < ·))
    (rows : List α) (timeOf : α → Nat) (byte : α → Option UInt8) (j time : Nat)
    (hj : rounds[j]? = some time) :
    (fillRow rounds (rows.filterMap fun p => (byte p).map fun b => (timeOf p, b)))[j]? =
      some ((((rows.filter fun p => timeOf p = time).filterMap byte).getLast?).getD 0) := by
  rw [getElem?_fillRow rounds hasc _ j time hj, values_of_round]

/-- A byte of a matrix of the file. -/
theorem cell_of_matrix {α : Type} (db : Db) (start k : Nat) (rows : List α) (f : α → Bytes)
    (hpart : (dayParts db start)[k]? = some (rows.flatMap f))
    (hlength : ∀ row ∈ rows, (f row).length = (loadRounds db start).length)
    (i j : Nat) (row : α) (hi : rows[i]? = some row) (hj : j < (loadRounds db start).length) :
    cell (readDay db start) (partOffset db start k) i j = (f row)[j]? := by
  have hinside : i * (loadRounds db start).length + j < (rows.flatMap f).length := by
    rw [length_flatMap_row rows f _ hlength]
    have hlt : i < rows.length := (List.getElem?_eq_some_iff.mp hi).1
    -- A row that is there ends inside the matrix.
    calc i * (loadRounds db start).length + j
        < i * (loadRounds db start).length + (loadRounds db start).length := by omega
      _ = (i + 1) * (loadRounds db start).length := (Nat.succ_mul _ _).symm
      _ ≤ rows.length * (loadRounds db start).length := Nat.mul_le_mul_right _ hlt
  unfold cell
  change (dayParts db start).flatten[partOffset db start k +
    (i * (loadRounds db start).length + j)]? = _
  rw [partOffset, getElem?_flatten (dayParts db start) k _ hpart _ hinside,
    getElem?_flatMap_row rows f _ hlength i j hj, hi]
  rfl

/-! ### Results -/

/-- The rows of a query for a target and a round. -/
theorem mem_results (db : Db) (start : Nat) (t : TargetRow) (time : Nat) (hday : InDay start time)
    (p : PingRow) :
    p ∈ (targetResults db start t.id).filter (fun p => p.observedAt = time) ↔
      IsResult db t time p := by
  rw [List.mem_filter, targetResults, mem_orderBy, List.mem_filter, decide_eq_true_eq,
    decide_eq_true_eq]
  constructor
  · rintro ⟨⟨hmem, htarget, -⟩, htime⟩
    exact ⟨hmem, htarget, htime⟩
  · rintro ⟨hmem, htarget, rfl⟩
    exact ⟨⟨hmem, htarget, hday⟩, rfl⟩

/-- A target of the file has its row in the list of targets. -/
theorem mem_loadTargets (db : Db) (start : Nat) (e : ExportTarget) :
    e ∈ loadTargets db start ↔
      ∃ t, HasMac db start t e.mac ∧ e.id = t.id ∧ e.macText = macText e.mac := by
  unfold loadTargets selectTargets
  rw [List.mem_filterMap]
  simp only [List.mem_insertionSort, List.mem_filter, decide_eq_true_eq]
  constructor
  · rintro ⟨t, ⟨hstored, hresult⟩, he⟩
    rcases targetAppend_eq_some t _ e he with ⟨hreads, hid, htext, -⟩
    exact ⟨t, ⟨hstored, hresult, hreads⟩, hid, htext⟩
  · rintro ⟨t, ⟨hstored, hresult, hreads⟩, hid, htext⟩
    refine ⟨t, ⟨hstored, hresult⟩, ?_⟩
    rw [targetAppend, hreads, Option.map_some, ← hid, ← htext]

/-- The row of a matrix that shows a target, in a file that can be read. -/
theorem target_at (db : Db) (start : Nat)
    (hdistinct : ∀ t u mac, HasMac db start t mac → HasMac db start u mac → t = u)
    (i j : Nat) (t : TargetRow) (time : Nat)
    (h : AtCell db start (readDay db start) i j t time) :
    (∃ e, (loadTargets db start)[i]? = some e ∧ e.id = t.id) ∧ InDay start time ∧
      j < (loadRounds db start).length := by
  rcases h with ⟨⟨mac, hmac, hi⟩, hj⟩
  have hmacs : ((loadTargets db start).map ExportTarget.macText)[i]? = some (macText mac) := hi
  rw [List.getElem?_map, Option.map_eq_some_iff] at hmacs
  rcases hmacs with ⟨e, he, htext⟩
  rcases (mem_loadTargets db start e).mp (List.mem_of_getElem? he) with ⟨u, hu, hid, htext'⟩
  rw [htext'] at htext
  -- A text of the file is that of one MAC only.
  rw [macText_injective _ _ htext] at hu
  exact ⟨⟨e, he, by rw [hid, hdistinct u t mac hu hmac]⟩,
    inDay_of_mem_loadRounds db start time (List.mem_of_getElem? hj),
    (List.getElem?_eq_some_iff.mp hj).1⟩

/-- The byte of a target's row and a round's column, from the rows of the
    target's query. -/
theorem resultCell_row (db : Db) (start k : Nat) (byte : PingRow → Option UInt8)
    (hpart : (dayParts db start)[k]? =
      some ((loadTargets db start).flatMap (resultRowBytes db start (loadRounds db start) byte)))
    (i j : Nat) (e : ExportTarget) (time : Nat) (he : (loadTargets db start)[i]? = some e)
    (hj : (loadRounds db start)[j]? = some time) :
    cell (readDay db start) (partOffset db start k) i j =
      some (((((targetResults db start e.id).filter fun p => p.observedAt = time).filterMap
        byte).getLast?).getD 0) := by
  rw [cell_of_matrix db start k _ _ hpart (fun _ _ => length_fillRow _ _) i j e he
      (List.getElem?_eq_some_iff.mp hj).1,
    resultRowBytes,
    getElem?_fillRow_rows _ (loadRounds_ascending db start) _ PingRow.observedAt byte j time hj]

section Matrix

variable (db : Db) (start k : Nat) (byte : PingRow → Option UInt8)
  (hpart : (dayParts db start)[k]? =
    some ((loadTargets db start).flatMap (resultRowBytes db start (loadRounds db start) byte)))
  (hdistinct : ∀ t u mac, HasMac db start t mac → HasMac db start u mac → t = u)
  (i j : Nat) (t : TargetRow) (time : Nat)

include hpart hdistinct

/-- The byte of a target and a round, from the rows of the target's query. -/
theorem resultCell (h : AtCell db start (readDay db start) i j t time) :
    cell (readDay db start) (partOffset db start k) i j =
      some (((((targetResults db start t.id).filter fun p => p.observedAt = time).filterMap
        byte).getLast?).getD 0) := by
  rcases target_at db start hdistinct i j t time h with ⟨⟨e, he, hid⟩, -, -⟩
  rw [resultCell_row db start k byte hpart i j e time he h.time, hid]

/-- The last row that writes a byte decides. -/
theorem resultCell_last (h : AtCell db start (readDay db start) i j t time) (p : PingRow)
    (hp : LastRow db t time (fun q => byte q ≠ none) p) (b : UInt8) (hb : byte p = some b) :
    cell (readDay db start) (partOffset db start k) i j = some b := by
  have hday : InDay start time := (target_at db start hdistinct i j t time h).2.1
  -- The rows of the round are in the order of their numbers.
  have hsorted : ((targetResults db start t.id).filter fun p => p.observedAt = time).Pairwise
      fun p q => toLex (p.observedAt, p.id) ≤ toLex (q.observedAt, q.id) :=
    List.Pairwise.filter _ (List.pairwise_insertionSort _ _)
  rw [resultCell db start k byte hpart hdistinct i j t time h,
    getLast?_filterMap_of_last _ _ hsorted byte p
      ((mem_results db start t time hday p).mpr hp.1) b hb]
  · rfl
  -- A row that the query lists behind `p` and that writes a byte is `p`.
  · intro q hq hle c hc
    have hresult := (mem_results db start t time hday q).mp hq
    have hid : q.id ≤ p.id := hp.2.2 q hresult fun hnone => by
      rw [Option.mem_def, hnone] at hc
      exact absurd hc (by simp only [reduceCtorEq, not_false_eq_true])
    have hid' : p.id ≤ q.id := by
      rw [Prod.Lex.toLex_le_toLex, hp.1.2.2, hresult.2.2] at hle
      rcases hle with hlt | ⟨-, hle⟩
      · exact absurd hlt (lt_irrefl _)
      · exact hle
    -- Both numbers are the same, so the rows are.
    have heq : p = q := List.inj_on_of_nodup_map db.pingResult.key hp.1.1 hresult.1
      (Nat.le_antisymm hid' hid)
    rw [← heq, hb] at hc
    exact (Option.some.inj hc).symm

/-- Without a row that writes a byte it is zero. -/
theorem resultCell_none (h : AtCell db start (readDay db start) i j t time)
    (hnone : ∀ p, IsResult db t time p → byte p = none) :
    cell (readDay db start) (partOffset db start k) i j = some 0 := by
  have hday : InDay start time := (target_at db start hdistinct i j t time h).2.1
  rw [resultCell db start k byte hpart hdistinct i j t time h, List.filterMap_eq_nil_iff.mpr]
  · rfl
  · intro p hp
    exact hnone p ((mem_results db start t time hday p).mp hp)

end Matrix

/-- Where every row writes a byte, the last of all rows decides. -/
theorem resultCell_every (db : Db) (start k : Nat) (byte : PingRow → UInt8)
    (hpart : (dayParts db start)[k]? = some ((loadTargets db start).flatMap
      (resultRowBytes db start (loadRounds db start) fun p => some (byte p))))
    (hdistinct : ∀ t u mac, HasMac db start t mac → HasMac db start u mac → t = u)
    (i j : Nat) (t : TargetRow) (time : Nat) (p : PingRow)
    (h : AtCell db start (readDay db start) i j t time)
    (hp : LastRow db t time (fun _ => True) p) :
    cell (readDay db start) (partOffset db start k) i j = some (byte p) := by
  refine resultCell_last db start k (fun q => some (byte q)) hpart hdistinct i j t time h p ?_ _ rfl
  exact ⟨hp.1, by simp only [ne_eq, reduceCtorEq, not_false_eq_true],
    fun q hq _ => hp.2.2 q hq trivial⟩

/-! ### Uplinks -/

/-- The rows of an access point's query for a round. -/
theorem mem_uplinks (db : Db) (start : Nat) (apMac : Bytes) (time : Nat) (hday : InDay start time)
    (m : MeshRow) :
    m ∈ (uplinks db start apMac).filter (fun m => m.observedAt = time) ↔
      IsUplink db apMac time m := by
  rw [List.mem_filter, uplinks, mem_orderBy, List.mem_filter, decide_eq_true_eq, decide_eq_true_eq]
  constructor
  · rintro ⟨⟨hmem, hap, hdirection, -⟩, htime⟩
    exact ⟨hmem, hap, hdirection, htime⟩
  · rintro ⟨hmem, hap, hdirection, rfl⟩
    exact ⟨⟨hmem, hap, hdirection, hday⟩, rfl⟩

/-- The byte of an access point and a round. -/
theorem meshCell (db : Db) (start i j : Nat) (apMac : Bytes) (time : Nat)
    (hi : (readDay db start).apMacs[i]? = some apMac)
    (hj : (readDay db start).timestamps[j]? = some time) :
    cell (readDay db start) (partOffset db start 15) i j =
      some (((((uplinks db start apMac).filter fun m => m.observedAt = time).filterMap
        fun m => m.snrDb.map encodeSnr).getLast?).getD 0) := by
  have hmacs : ((loadApTargets db start).map ExportTarget.macText)[i]? = some apMac := hi
  rw [List.getElem?_map, Option.map_eq_some_iff] at hmacs
  rcases hmacs with ⟨e, he, rfl⟩
  have hrow := cell_of_matrix db start 15 (loadApTargets db start)
    (meshRowBytes db start (loadRounds db start)) rfl (fun _ _ => length_fillRow _ _) i j e he
    (List.getElem?_eq_some_iff.mp hj).1
  -- An SNR is encoded before or after it is paired with its time.
  have hvalues : (uplinks db start e.macText).filterMap (fun m =>
        m.snrDb.map fun snr => (m.observedAt, encodeSnr snr))
      = (uplinks db start e.macText).filterMap fun m =>
        (m.snrDb.map encodeSnr).map fun b => (m.observedAt, b) := by
    simp only [Option.map_map]
    rfl
  rw [hrow, meshRowBytes, hvalues, getElem?_fillRow_rows _ (loadRounds_ascending db start) _
    MeshRow.observedAt (fun m => m.snrDb.map encodeSnr) j time hj]

/-- An uplink with an SNR is shown. -/
theorem meshCell_some (db : Db) (start i j : Nat) (apMac : Bytes) (time : Nat)
    (hi : (readDay db start).apMacs[i]? = some apMac)
    (hj : (readDay db start).timestamps[j]? = some time)
    (hsome : ∃ m, IsUplink db apMac time m ∧ m.snrDb ≠ none) :
    ∃ m snr, IsUplink db apMac time m ∧ m.snrDb = some snr ∧
      cell (readDay db start) (partOffset db start 15) i j = some (encodeSnr snr) := by
  have hday : InDay start time := inDay_of_mem_loadRounds db start time (List.mem_of_getElem? hj)
  rw [meshCell db start i j apMac time hi hj]
  cases hlast : (((uplinks db start apMac).filter fun m => m.observedAt = time).filterMap
      fun m => m.snrDb.map encodeSnr).getLast? with
  | none =>
      rcases hsome with ⟨m, hm, hsnr⟩
      -- A row that wrote nothing would leave the uplink without an SNR.
      have hnil := List.filterMap_eq_nil_iff.mp (List.getLast?_eq_none_iff.mp hlast) m
        ((mem_uplinks db start apMac time hday m).mpr hm)
      exact absurd (Option.map_eq_none_iff.mp hnil) hsnr
  | some b =>
      rcases List.mem_filterMap.mp (List.mem_of_getLast? hlast) with ⟨m, hm, hb⟩
      rcases Option.map_eq_some_iff.mp hb with ⟨snr, hsnr, rfl⟩
      exact ⟨m, snr, (mem_uplinks db start apMac time hday m).mp hm, hsnr, rfl⟩

/-- Without an SNR the byte is zero. -/
theorem meshCell_none (db : Db) (start i j : Nat) (apMac : Bytes) (time : Nat)
    (hi : (readDay db start).apMacs[i]? = some apMac)
    (hj : (readDay db start).timestamps[j]? = some time)
    (hnone : ∀ m, IsUplink db apMac time m → m.snrDb = none) :
    cell (readDay db start) (partOffset db start 15) i j = some 0 := by
  have hday : InDay start time := inDay_of_mem_loadRounds db start time (List.mem_of_getElem? hj)
  rw [meshCell db start i j apMac time hi hj, List.filterMap_eq_nil_iff.mpr]
  · rfl
  · intro m hm
    rw [hnone m ((mem_uplinks db start apMac time hday m).mp hm), Option.map_none]

/-! ### The day -/

theorem mem_loadApTargets (db : Db) (start : Nat) (e : ExportTarget) :
    e ∈ loadApTargets db start ↔
      ∃ t, HasMac db start t e.mac ∧ t.kind = .ap ∧ e.id = t.id ∧ e.macText = macText e.mac := by
  unfold loadApTargets selectTargets
  rw [List.mem_filterMap]
  simp only [List.mem_insertionSort, List.mem_filter, decide_eq_true_eq]
  constructor
  · rintro ⟨t, ⟨hstored, hap, hresult⟩, he⟩
    rcases targetAppend_eq_some t _ e he with ⟨hreads, hid, htext, -⟩
    exact ⟨t, ⟨hstored, hresult, by rw [identity_ap t hap]; exact hreads⟩, hap, hid, htext⟩
  · rintro ⟨t, ⟨hstored, hresult, hreads⟩, hap, hid, htext⟩
    rw [identity_ap t hap] at hreads
    refine ⟨t, ⟨hstored, hap, hresult⟩, ?_⟩
    rw [targetAppend, hreads, Option.map_some, ← hid, ← htext]

theorem mem_macs_readDay (db : Db) (start : Nat) (text : Bytes) :
    text ∈ (readDay db start).macs ↔ ∃ t mac, HasMac db start t mac ∧ text = macText mac := by
  change text ∈ (loadTargets db start).map ExportTarget.macText ↔ _
  rw [List.mem_map]
  constructor
  · rintro ⟨e, he, rfl⟩
    rcases (mem_loadTargets db start e).mp he with ⟨t, ht, -, htext⟩
    exact ⟨t, e.mac, ht, htext⟩
  · rintro ⟨t, mac, ht, rfl⟩
    exact ⟨⟨t.id, mac, macText mac⟩, (mem_loadTargets db start _).mpr ⟨t, ht, rfl, rfl⟩, rfl⟩

theorem mem_apMacs_readDay (db : Db) (start : Nat) (text : Bytes) :
    text ∈ (readDay db start).apMacs ↔
      ∃ t mac, HasMac db start t mac ∧ t.kind = .ap ∧ text = macText mac := by
  change text ∈ (loadApTargets db start).map ExportTarget.macText ↔ _
  rw [List.mem_map]
  constructor
  · rintro ⟨e, he, rfl⟩
    rcases (mem_loadApTargets db start e).mp he with ⟨t, ht, hap, -, htext⟩
    exact ⟨t, e.mac, ht, hap, htext⟩
  · rintro ⟨t, mac, ht, hap, rfl⟩
    exact ⟨⟨t.id, mac, macText mac⟩, (mem_loadApTargets db start _).mpr ⟨t, ht, hap, rfl, rfl⟩, rfl⟩

/-- The day that the reader returns says what the database holds. -/
theorem readDay_content (db : Db) (start : Nat) (hend : dayEnd start = start + 86400)
    (hdistinct : ∀ t u mac, HasMac db start t mac → HasMac db start u mac → t = u) :
    DayContent db start (readDay db start) := by
  rcases offset_of_part db start with ⟨-, -, -, -, hsamples, hsnr, hstate, -, -, -, hmesh, -⟩
  have hmacs : (readDay db start).macs.Nodup :=
    (texts_nodup_iff _ (db.target.nodup.filter _) identity).mpr fun t ht u hu mac htm hum => by
      rw [List.mem_filter, decide_eq_true_eq] at ht hu
      exact hdistinct t u mac ⟨ht.1, ht.2, htm⟩ ⟨hu.1, hu.2, hum⟩
  have hsample := resultCell_every db start 7 sampleByte rfl hdistinct
  have hstateByte := resultCell_every db start 9 stateByte rfl hdistinct
  rw [hsamples] at hsample
  rw [hstate] at hstateByte
  constructor
  case mem_timestamps =>
    intro time
    rw [← hend]
    exact mem_loadRounds db start time
  case nodup_timestamps => exact (loadRounds_ascending db start).imp Nat.ne_of_lt
  case mem_macs => exact mem_macs_readDay db start
  case nodup_macs => exact hmacs
  case sample_reply =>
    intro i j t time p hcell hp hresponded hok
    rw [← show sampleByte p = (encodeLatency p.rttMs).toUInt8 from if_pos ⟨hresponded, hok⟩]
    exact hsample i j t time p hcell hp
  case sample_timeout =>
    intro i j t time p hcell hp htimeout hreply
    rw [← show sampleByte p = 255 from (if_neg hreply).trans (if_pos htimeout)]
    exact hsample i j t time p hcell hp
  case sample_other =>
    intro i j t time p hcell hp htimeout hreply
    rw [← show sampleByte p = 0 from (if_neg hreply).trans (if_neg htimeout)]
    exact hsample i j t time p hcell hp
  case sample_none =>
    intro i j t time hcell hnone
    have := resultCell_none db start 7 (fun p => some (sampleByte p)) rfl hdistinct i j t time hcell
      fun p hp => absurd hp (hnone p)
    rwa [hsamples] at this
  case snr_last =>
    intro i j t time p snr hcell hp hsnrDb
    have := resultCell_last db start 8 snrByte rfl hdistinct i j t time hcell p
      ⟨hp.1, fun h => hp.2.1 (Option.map_eq_none_iff.mp h),
        fun q hq h => hp.2.2 q hq fun h' => h (by rw [snrByte, h', Option.map_none])⟩
      (encodeSnr snr) (by rw [snrByte, hsnrDb, Option.map_some])
    rwa [hsnr] at this
  case snr_none =>
    intro i j t time hcell hnone
    have := resultCell_none db start 8 snrByte rfl hdistinct i j t time hcell
      fun p hp => by rw [snrByte, hnone p hp, Option.map_none]
    rwa [hsnr] at this
  case state_notAssociated =>
    intro i j t time p hcell hp hp'
    rw [← show stateByte p = 2 by rw [stateByte, hp']]
    exact hstateByte i j t time p hcell hp
  case state_unknown =>
    intro i j t time p hcell hp hp'
    rw [← show stateByte p = 0 by rw [stateByte, hp']]
    exact hstateByte i j t time p hcell hp
  case state_other =>
    intro i j t time p hcell hp hassociated hknown
    have hone : stateByte p = 1 := by
      unfold stateByte
      cases hp' : p.state with
      | ok => rfl
      | timeout => rfl
      | notAssociated => exact absurd hp' hassociated
      | unknown => exact absurd hp' hknown
    rw [← hone]
    exact hstateByte i j t time p hcell hp
  case state_none =>
    intro i j t time hcell hnone
    have := resultCell_none db start 9 (fun p => some (stateByte p)) rfl hdistinct i j t time hcell
      fun p hp => absurd hp (hnone p)
    rwa [hstate] at this
  case mem_apMacs => exact mem_apMacs_readDay db start
  case mesh_some =>
    intro i j apMac time hi hj hsome
    rcases meshCell_some db start i j apMac time hi hj hsome with ⟨m, snr, hm, hsnrDb, hcell⟩
    rw [hmesh] at hcell
    exact ⟨m, snr, hm, hsnrDb, hcell⟩
  case mesh_none =>
    intro i j apMac time hi hj hnone
    have := meshCell_none db start i j apMac time hi hj hnone
    rwa [hmesh] at this

/-- An exported day that can be read says what the database holds. A day with
    an offset that does not fit is not exported. -/
theorem exportDay_content (db : Db) (start : Nat) (hday : AcceptedDay start) :
    ((exportDay db start).exit = 0 →
      ∀ day, parseDay (exportDay db start).output = .ok day → DayContent db start day) ∧
    ((∃ offset ∈ [(dayLayout db start).macs, (dayLayout db start).samples,
        (dayLayout db start).snr, (dayLayout db start).state, (dayLayout db start).apMacs,
        (dayLayout db start).air24, (dayLayout db start).air5, (dayLayout db start).meshSnr,
        (dayLayout db start).fileEnd], 2 ^ 32 ≤ offset) →
      (exportDay db start).exit ≠ 0 ∧ (exportDay db start).output = []) := by
  constructor
  · intro hexit day hparse
    rcases exportDay_exit_zero db start hexit with ⟨hfits, houtput⟩
    rw [houtput, parseDay_dayBytes_iff db start hday.1 hfits] at hparse
    rcases hparse with ⟨hend, rfl, hmacs⟩
    exact readDay_content db start hend ((macs_of_day_iff db start).mp hmacs)
  · rintro ⟨offset, hmem, hbig⟩
    have htooBig : (dayLayout db start).tooBig = true :=
      List.any_eq_true.mpr ⟨offset, hmem, by
        rw [decide_eq_true_eq]
        unfold maxUInt32
        omega⟩
    rw [exportDay_eq, htooBig]
    exact ⟨Nat.one_ne_zero, rfl⟩

theorem exportDay_content_phone :
    ∃ day, parseDay (exportDay (phoneCommands.foldl runCommand emptyDb) 86400).output = .ok day ∧
      DayContent (phoneCommands.foldl runCommand emptyDb) 86400 day := by
  have hexit : (exportDay (phoneCommands.foldl runCommand emptyDb) 86400).exit = 0 := by
    decide +kernel
  rcases exportDay_exit_zero _ 86400 hexit with ⟨hfits, houtput⟩
  have htargets : (loadTargets (phoneCommands.foldl runCommand emptyDb) 86400).map
      ExportTarget.macText = [ascii "aa:bb:cc:dd:ee:01"] := by decide +kernel
  have haps : (loadApTargets (phoneCommands.foldl runCommand emptyDb) 86400).map
      ExportTarget.macText = [] := by decide +kernel
  have hparse := (parseDay_dayBytes_iff _ 86400 (by decide) hfits _).mpr
    ⟨rfl, rfl, by rw [htargets]; exact ⟨rfl, trivial⟩, by rw [haps]; trivial⟩
  rw [← houtput] at hparse
  exact ⟨_, hparse, (exportDay_content _ 86400 ⟨by decide, by decide⟩).1 hexit _ hparse⟩

end Zd1200
