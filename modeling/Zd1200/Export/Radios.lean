import Zd1200.Export.Airtime
import Zd1200.Export.Content

/-!
# Radios of a Band

Whose counters an airtime average is made of.

The export goes through the polls of one band of an access point in the order
of their times and keeps one base for them. Which radio a poll is of does not
enter: the band is a test on the type and the number of a radio, and several
radios can pass it. Where two of them alternate, the counters of one are
subtracted from those of the other, unless the samples drop, which the export
takes for a reset.

An average is a number and does not show what it is made of. So the state of
the export is run along with the poll that its base is from (`basePoll`), and
the base is that poll's counters (`stateBefore_base`). What each average is
made of is then a `AirSource`.

The counters are signed and may lie anywhere in an `int`, and then a difference
of two need not fit into one. The program's own arithmetic is `airStepInt`: a
sum or a difference that does not fit has no value in C, and a row with such a
step has none. Where it has one it is that of the exact integers
(`airRowInt_eq_airRowBytes`), and it has one exactly if the quotients that the
polls call for fit (`airWritesInt_isSome_iff`).

The bytes are then there and are those of one radio each exactly if the export
sees a reset wherever the radio changes, and every quotient fits
(`ownAirtime_iff`).

## Main definitions

* `airStepInt`: A poll in the arithmetic of C.
* `RadioPoll`: A poll of a band with its radio.
* `airRowInt`: A row of an airtime matrix in the arithmetic of C.
* `basePoll`: The poll that the base is from.
* `AirSource`: What an average is made of.
* `FromOwn`: The values that a radio's own polls give.
* `OwnAirtime`: Every average and every byte is of one radio.
* `SwitchesAtResets`: The export sees a reset where the radio changes.
* `QuotientsFit`: No sum or difference that the polls call for overflows.

## Theorems

* `stateBefore_base`: The base is the counters of the base poll.
* `shownAverage_eq`: An average is made of its source.
* `airWritesInt_isSome_iff`: When the row has a value in C.
* `mem_airWritesInt`: What is written is the average of a poll.
* `airRowInt_eq_airRowBytes`: The row is that of the exact integers.
* `ownAirtime_iff`: When the averages are of one radio each.
* `dualRadio_mixes`: Two radios in one band.
-/

namespace Zd1200

/-! ### The arithmetic of C -/

/-- A value that a C `int` of 32 bits can have. -/
def FitsInt (v : Int) : Prop := -2 ^ 31 ≤ v ∧ v < 2 ^ 31

instance (v : Int) : Decidable (FitsInt v) := inferInstanceAs (Decidable (_ ∧ _))

/-- The result of an operation on `int`s. One that does not fit has none. -/
def cInt (v : Int) : Option Int := if FitsInt v then some v else none

/-- `sqlite3_column_int`: the lower 32 bits of what is stored. -/
def columnInt (v : Int) : Int := v.bmod (2 ^ 32)

/-- `(total+samples/2)/samples`. The quotient always fits. -/
def roundDivInt (total samples : Int) : Option Int :=
  (cInt (total + samples.tdiv 2)).map fun numerator => numerator.tdiv samples

/-- `airStep` as the program computes it. -/
def airStepInt (s : AirState) (total samples : Int) : Option AirState :=
  if s.haveBase = false ∨ samples < s.baseSamples then do
    let average ← roundDivInt total samples
    return ⟨true, total, samples, average⟩
  else if samples = s.baseSamples then some s
  else do
    let deltaTotal ← cInt (total - s.baseTotal)
    let deltaSamples ← cInt (samples - s.baseSamples)
    let average ← roundDivInt deltaTotal deltaSamples
    return ⟨true, total, samples, average⟩

/-- A poll of a band with the radio that it is of. -/
structure RadioPoll where
  radioId : Int
  poll : AirPoll
  deriving DecidableEq, Repr

/-- A row as its columns are read. -/
def RadioRow.columns (r : RadioRow) : RadioRow :=
  { r with
    radioId := columnInt r.radioId
    airtimeTotalTenths := r.airtimeTotalTenths.map columnInt
    rfSamples := r.rfSamples.map columnInt }

def radioPoll (fiveGhz : Bool) (r : RadioRow) : Option RadioPoll :=
  (airPoll fiveGhz r.columns).map fun p => ⟨r.radioId, p⟩

/-- The rows of an access point's query. -/
def airRows (db : Db) (start : Nat) (ap : ExportTarget) : List RadioRow :=
  orderBy RadioRow.observedAt
    (db.apRadioSample.filter fun r => r.apMac = ap.macText ∧ InDay start r.observedAt)

/-- The polls of a band that have counters, in the order of the query. -/
def radioPolls (db : Db) (start : Nat) (fiveGhz : Bool) (ap : ExportTarget) : List RadioPoll :=
  (airRows db start ap).filterMap (radioPoll fiveGhz)

/-- What the polls of a band write, if all of it has a value. -/
def airWritesInt : AirState → List RadioPoll → Option (List (Nat × UInt8))
  | _, [] => some []
  | s, p :: rest => do
      let s ← airStepInt s p.poll.total p.poll.samples
      let values ← airWritesInt s rest
      return (p.poll.observedAt, encodePercentTenths s.lastAverage) :: values

/-- An access point's row of an airtime matrix. -/
def airRowInt (db : Db) (start : Nat) (fiveGhz : Bool) (ap : ExportTarget) : Option Bytes :=
  (airWritesInt noBase (radioPolls db start fiveGhz ap)).map (fillRow (loadRounds db start))

/-- The state of the export behind some polls. -/
def stateBefore (before : List RadioPoll) : AirState :=
  airRun noBase (before.map RadioPoll.poll)

/-- The average that is shown for a poll behind others. -/
def shownAverage (before : List RadioPoll) (p : RadioPoll) : Int :=
  (airStep (stateBefore before) p.poll.total p.poll.samples).lastAverage

/-! ### What an average is made of -/

/-- A poll becomes the base unless it has the samples of the base. -/
def baseStep (base : Option RadioPoll) (p : RadioPoll) : Option RadioPoll :=
  match base with
  | none => some p
  | some b => if p.poll.samples = b.poll.samples then some b else some p

/-- The poll that the base is from. -/
def basePoll (before : List RadioPoll) : Option RadioPoll := before.foldl baseStep none

inductive AirSource
  /-- The counters of the poll itself. -/
  | ratio
  /-- What was counted since another poll. -/
  | delta (base : RadioPoll)
  /-- The average that another poll was given. -/
  | held (origin : RadioPoll)
  deriving DecidableEq, Repr

def airSource (before : List RadioPoll) (p : RadioPoll) : AirSource :=
  match basePoll before with
  | none => .ratio
  | some b =>
      if p.poll.samples < b.poll.samples then .ratio
      else if p.poll.samples = b.poll.samples then .held b
      else .delta b

/-- The poll is the first of its radio, or its radio was reset since the one
    before. -/
def IsReset (before : List RadioPoll) (p : RadioPoll) : Prop :=
  ∀ last ∈ (before.filter fun q => q.radioId = p.radioId).getLast?, p.poll.samples < last.poll.samples

instance (before : List RadioPoll) (p : RadioPoll) : Decidable (IsReset before p) :=
  inferInstanceAs (Decidable (∀ last ∈ _, _))

/-- The average of a poll is made of polls of the same radio. -/
def OwnSource (before : List RadioPoll) (p : RadioPoll) : Prop :=
  match airSource before p with
  | .ratio => IsReset before p
  | .delta base => base.radioId = p.radioId
  | .held origin => origin.radioId = p.radioId

/-- The values that a radio's own polls give for a poll. -/
inductive FromOwn (before : List RadioPoll) (p : RadioPoll) : Int → Prop
  | ratio (hreset : IsReset before p) : FromOwn before p (roundDiv p.poll.total p.poll.samples)
  | delta (base : RadioPoll) (hmem : base ∈ before) (hradio : base.radioId = p.radioId)
      (hsamples : base.poll.samples < p.poll.samples) :
      FromOwn before p
        (roundDiv (p.poll.total - base.poll.total) (p.poll.samples - base.poll.samples))
  | held (earlier between : List RadioPoll) (last : RadioPoll)
      (hbefore : before = earlier ++ last :: between) (hradio : last.radioId = p.radioId)
      (hother : ∀ q ∈ between, q.radioId ≠ p.radioId)
      (hsamples : last.poll.samples = p.poll.samples) :
      FromOwn before p (shownAverage earlier last)

/-- Every row of the airtime matrices has a value, every average of a day is
    made of polls of one radio, and every byte that is not zero shows such an
    average. -/
def OwnAirtime (db : Db) (start : Nat) : Prop :=
  ∀ ap ∈ loadApTargets db start, ∀ fiveGhz, ∃ row, airRowInt db start fiveGhz ap = some row ∧
    (∀ before p after, radioPolls db start fiveGhz ap = before ++ p :: after →
      OwnSource before p ∧ FromOwn before p (shownAverage before p)) ∧
    ∀ (k : Nat) (byte : UInt8), row[k]? = some byte → byte ≠ 0 →
      ∃ before p after, radioPolls db start fiveGhz ap = before ++ p :: after ∧
        (loadRounds db start)[k]? = some p.poll.observedAt ∧
        byte = encodePercentTenths (shownAverage before p) ∧
        FromOwn before p (shownAverage before p)

/-- Where two polls in a row are of different radios, the export sees a reset,
    and the radio of the later one was reset. -/
def SwitchesAtResets (run : List RadioPoll) : Prop :=
  ∀ before last p after, run = before ++ last :: p :: after → last.radioId ≠ p.radioId →
    p.poll.samples < last.poll.samples ∧ IsReset (before ++ [last]) p

/-- A total, a number of samples and what is divided for their average fit into
    an `int`. -/
def QuotientFits (total samples : Int) : Prop :=
  FitsInt total ∧ FitsInt samples ∧ FitsInt (total + samples.tdiv 2)

/-- A poll is the first of those at the end that have the same samples. -/
def FirstOfTick (before : List RadioPoll) (b : RadioPoll) : Prop :=
  ∃ front same, before = front ++ b :: same ∧
    (∀ q ∈ same, q.poll.samples = b.poll.samples) ∧
    ∀ last ∈ front.getLast?, last.poll.samples ≠ b.poll.samples

/-- No operation overflows on the counters of a poll that begins the day or has
    fewer samples than the poll before, nor on the differences between a poll
    and the first poll of the tick before it where the samples go up. -/
def StepFits (before : List RadioPoll) (p : RadioPoll) : Prop :=
  ((∀ last ∈ before.getLast?, p.poll.samples < last.poll.samples) →
      QuotientFits p.poll.total p.poll.samples) ∧
    ∀ b, FirstOfTick before b → b.poll.samples < p.poll.samples →
      QuotientFits (p.poll.total - b.poll.total) (p.poll.samples - b.poll.samples)

/-- No operation on the polls overflows. -/
def QuotientsFit (run : List RadioPoll) : Prop :=
  ∀ before p after, run = before ++ p :: after → StepFits before p

/-! ### The base -/

theorem basePoll_append (before : List RadioPoll) (p : RadioPoll) :
    basePoll (before ++ [p]) = baseStep (basePoll before) p := by
  rw [basePoll, List.foldl_append]
  rfl

theorem stateBefore_append (before : List RadioPoll) (p : RadioPoll) :
    stateBefore (before ++ [p]) = airStep (stateBefore before) p.poll.total p.poll.samples := by
  rw [stateBefore, List.map_append, airRun, List.foldl_append]
  rfl

/-- The base is the counters of the base poll. -/
theorem stateBefore_base (before : List RadioPoll) :
    (basePoll before = none → stateBefore before = noBase) ∧
      ∀ b, basePoll before = some b → (stateBefore before).haveBase = true ∧
        (stateBefore before).baseTotal = b.poll.total ∧
        (stateBefore before).baseSamples = b.poll.samples := by
  induction before using List.reverseRecOn with
  | nil => exact ⟨fun _ => rfl, fun b h => absurd h (by simp [basePoll])⟩
  | append_singleton before p ih =>
      rw [basePoll_append, stateBefore_append]
      cases hbase : basePoll before with
      | none =>
          rw [ih.1 hbase]
          refine ⟨fun h => absurd h (by simp [baseStep]), fun b h => ?_⟩
          rw [baseStep, Option.some.injEq] at h
          rw [← h]
          exact ⟨rfl, rfl, rfl⟩
      | some b₀ =>
          rcases ih.2 b₀ hbase with ⟨hhave, htotal, hsamples⟩
          rw [baseStep]
          refine ⟨fun h => absurd h (by split <;> simp), fun b h => ?_⟩
          rcases lt_trichotomy p.poll.samples b₀.poll.samples with hlt | heq | hlt
          · -- A drop: the poll is the base.
            rw [if_neg hlt.ne, Option.some.injEq] at h
            rw [airStep, if_pos (Or.inr (hsamples ▸ hlt)), ← h]
            exact ⟨rfl, rfl, rfl⟩
          · rw [if_pos heq, Option.some.injEq] at h
            rw [heq, ← hsamples, airStep_same _ _ hhave, ← h]
            exact ⟨hhave, htotal, hsamples⟩
          · rw [if_neg hlt.ne', Option.some.injEq] at h
            rw [airStep_advance _ _ _ hhave (hsamples ▸ hlt), ← h]
            exact ⟨rfl, rfl, rfl⟩

/-- The base has the samples of the last poll. -/
theorem basePoll_samples (before : List RadioPoll) (last : RadioPoll) :
    ∃ b, basePoll (before ++ [last]) = some b ∧ b.poll.samples = last.poll.samples := by
  rw [basePoll_append]
  cases basePoll before with
  | none => exact ⟨last, rfl, rfl⟩
  | some b =>
      rw [baseStep]
      by_cases h : last.poll.samples = b.poll.samples
      · exact ⟨b, if_pos h, h.symm⟩
      · exact ⟨last, if_neg h, rfl⟩

/-- The base poll is one of the polls. -/
theorem basePoll_mem (before : List RadioPoll) :
    ∀ b, basePoll before = some b → b ∈ before := by
  induction before using List.reverseRecOn with
  | nil => exact fun b h => absurd h (by simp [basePoll])
  | append_singleton before p ih =>
      intro b h
      rw [basePoll_append] at h
      cases hbase : basePoll before with
      | none =>
          rw [hbase, baseStep, Option.some.injEq] at h
          rw [← h]
          exact List.mem_append_right _ List.mem_cons_self
      | some b₀ =>
          rw [hbase, baseStep] at h
          split at h
          · rw [← Option.some.inj h]
            exact List.mem_append_left _ (ih b₀ hbase)
          · rw [← Option.some.inj h]
            exact List.mem_append_right _ List.mem_cons_self

/-- The base poll is the first of its tick. -/
theorem basePoll_eq_some_iff (before : List RadioPoll) (b : RadioPoll) :
    basePoll before = some b ↔ FirstOfTick before b := by
  constructor
  · intro h
    induction before using List.reverseRecOn with
    | nil => exact absurd h (by simp [basePoll])
    | append_singleton before p ih =>
        rw [basePoll_append] at h
        cases hbase : basePoll before with
        | none =>
            rcases List.eq_nil_or_concat before with rfl | ⟨front, last, rfl⟩
            · rw [hbase, baseStep, Option.some.injEq] at h
              exact ⟨[], [], by rw [h], by simp, by simp⟩
            · rcases basePoll_samples front last with ⟨c, hc, -⟩
              rw [List.concat_eq_append, hc] at hbase
              exact absurd hbase (by simp)
        | some c =>
            rw [hbase, baseStep] at h
            split at h
            · next hsame =>
              rw [Option.some.inj h] at hbase hsame
              rcases ih hbase with ⟨front, same, rfl, hall, hfront⟩
              refine ⟨front, same ++ [p], by simp, fun q hq => ?_, hfront⟩
              rcases List.mem_append.mp hq with hq | hq
              · exact hall q hq
              · rw [List.mem_singleton.mp hq, hsame]
            · next hother =>
              rw [← Option.some.inj h]
              refine ⟨before, [], rfl, by simp, fun last hlast => ?_⟩
              rcases List.eq_nil_or_concat before with rfl | ⟨front, x, rfl⟩
              · exact absurd hlast (by simp)
              · rw [List.concat_eq_append] at hbase hlast
                rw [List.getLast?_concat, Option.mem_some_iff] at hlast
                rcases basePoll_samples front x with ⟨d, hd, hsamples⟩
                rw [hbase, Option.some.injEq] at hd
                rw [← hlast, ← hsamples, ← hd]
                exact fun heq => hother heq.symm
  · rintro ⟨front, same, rfl, hall, hfront⟩
    have hfirst : basePoll (front ++ [b]) = some b := by
      rw [basePoll_append]
      rcases List.eq_nil_or_concat front with rfl | ⟨rest, last, rfl⟩
      · rfl
      · rw [List.concat_eq_append] at hfront ⊢
        rcases basePoll_samples rest last with ⟨c, hc, hsamples⟩
        have hne := hfront last (by rw [List.getLast?_concat]; rfl)
        rw [hc, baseStep, if_neg (hsamples ▸ hne.symm)]
    -- Polls of the same tick leave the base.
    induction same using List.reverseRecOn with
    | nil => exact hfirst
    | append_singleton same q ih =>
        have hbase := ih fun q hq => hall q (List.mem_append_left _ hq)
        rw [← List.cons_append, ← List.append_assoc, basePoll_append, hbase, baseStep,
          if_pos (hall q (List.mem_append_right _ List.mem_cons_self))]

/-- An average is made of its source. -/
theorem shownAverage_eq (before : List RadioPoll) (p : RadioPoll) :
    shownAverage before p =
      match airSource before p with
      | .ratio => roundDiv p.poll.total p.poll.samples
      | .delta base => roundDiv (p.poll.total - base.poll.total) (p.poll.samples - base.poll.samples)
      | .held _ => (stateBefore before).lastAverage := by
  rw [shownAverage, airSource]
  cases hbase : basePoll before with
  | none =>
      rw [(stateBefore_base before).1 hbase]
      rfl
  | some b =>
      rcases (stateBefore_base before).2 b hbase with ⟨hhave, htotal, hsamples⟩
      simp only
      -- The three branches of a step: a drop, the same tick, and an advance.
      rcases lt_trichotomy p.poll.samples b.poll.samples with hlt | heq | hlt
      · rw [if_pos hlt, airStep, if_pos (Or.inr (hsamples ▸ hlt))]
        rfl
      · rw [if_neg (not_lt.mpr heq.ge), if_pos heq, heq, ← hsamples, airStep_same _ _ hhave]
      · rw [if_neg (not_lt.mpr hlt.le), if_neg hlt.ne', airStep_advance _ _ _ hhave (hsamples ▸ hlt),
          htotal, hsamples]

/-! ### What has a value in C -/

theorem cInt_eq_some_iff (v w : Int) : cInt v = some w ↔ FitsInt v ∧ v = w := by
  rw [cInt]
  split
  · next h => rw [Option.some.injEq, and_iff_right h]
  · next h => exact ⟨fun hnone => absurd hnone (by simp), fun hfits => absurd hfits.1 h⟩

theorem roundDivInt_eq_some_iff (total samples v : Int) :
    roundDivInt total samples = some v ↔
      FitsInt (total + samples.tdiv 2) ∧ (total + samples.tdiv 2).tdiv samples = v := by
  rw [roundDivInt, Option.map_eq_some_iff]
  constructor
  · rintro ⟨numerator, h, rfl⟩
    rcases (cInt_eq_some_iff _ _).mp h with ⟨hfits, rfl⟩
    exact ⟨hfits, rfl⟩
  · rintro ⟨hfits, rfl⟩
    exact ⟨_, (cInt_eq_some_iff _ _).mpr ⟨hfits, rfl⟩, rfl⟩

/-- A step that has a value is the step over the integers, and it has one if
    what it divides fits. -/
theorem airStepInt_eq_some_iff (s s' : AirState) (total samples : Int) :
    airStepInt s total samples = some s' ↔
      ((s.haveBase = false ∨ samples < s.baseSamples → FitsInt (total + samples.tdiv 2)) ∧
        (s.haveBase = true ∧ s.baseSamples < samples →
          QuotientFits (total - s.baseTotal) (samples - s.baseSamples))) ∧
      airStep s total samples = s' := by
  rw [airStepInt, airStep]
  by_cases hreset : s.haveBase = false ∨ samples < s.baseSamples
  · have hno : ¬ (s.haveBase = true ∧ s.baseSamples < samples) := by
      rintro ⟨hhave, hlt⟩
      rcases hreset with hnone | hlow
      · exact absurd (hhave.symm.trans hnone) (by decide)
      · omega
    rw [if_pos hreset, if_pos hreset]
    -- A reset divides the counters themselves.
    simp only [Option.bind_eq_bind, Option.bind_eq_some_iff, roundDivInt_eq_some_iff, hreset,
      hno, true_imp_iff, false_imp_iff, and_true]
    constructor
    · rintro ⟨average, ⟨hfits, rfl⟩, h⟩
      exact ⟨hfits, Option.some.inj h⟩
    · rintro ⟨hfits, h⟩
      exact ⟨_, ⟨hfits, rfl⟩, congrArg some h⟩
  · rw [if_neg hreset, if_neg hreset]
    by_cases hsame : samples = s.baseSamples
    -- In the same tick nothing is computed.
    · rw [if_pos hsame, if_pos hsame, Option.some.injEq]
      exact ⟨fun h => ⟨⟨fun h => absurd h hreset, fun h => absurd hsame (by omega)⟩, h⟩,
        fun h => h.2⟩
    · have hadvance : s.haveBase = true ∧ s.baseSamples < samples := by
        rw [not_or, Bool.not_eq_false] at hreset
        exact ⟨hreset.1, by omega⟩
      rw [if_neg hsame, if_neg hsame]
      simp only [Option.bind_eq_bind, Option.bind_eq_some_iff, cInt_eq_some_iff,
        roundDivInt_eq_some_iff]
      constructor
      · rintro ⟨_, ⟨htotal, rfl⟩, _, ⟨hsamples, rfl⟩, average, ⟨hfits, rfl⟩, h⟩
        exact ⟨⟨fun h => absurd h hreset, fun _ => ⟨htotal, hsamples, hfits⟩⟩, Option.some.inj h⟩
      · rintro ⟨⟨-, hquotient⟩, h⟩
        rcases hquotient hadvance with ⟨htotal, hsamples, hfits⟩
        exact ⟨_, ⟨htotal, rfl⟩, _, ⟨hsamples, rfl⟩, _, ⟨hfits, rfl⟩, congrArg some h⟩

theorem fitsInt_columnInt (v : Int) : FitsInt (columnInt v) := by
  have hlow := Int.le_bmod (x := v) (m := 2 ^ 32) (by decide)
  have hhigh := Int.bmod_lt (x := v) (m := 2 ^ 32) (by decide)
  rw [FitsInt, columnInt]
  omega

/-- The counters of a poll are values of columns. -/
theorem radioPoll_fits (fiveGhz : Bool) (r : RadioRow) (p : RadioPoll)
    (h : radioPoll fiveGhz r = some p) : FitsInt p.poll.total ∧ FitsInt p.poll.samples := by
  rw [radioPoll, Option.map_eq_some_iff] at h
  rcases h with ⟨poll, hpoll, rfl⟩
  rw [airPoll] at hpoll
  split at hpoll
  · exact absurd hpoll (by simp)
  · simp only [RadioRow.columns] at hpoll
    rcases htotal : r.airtimeTotalTenths with _ | total
    · rw [htotal] at hpoll
      exact absurd hpoll (by simp)
    · rcases hsamples : r.rfSamples with _ | samples
      · rw [htotal, hsamples] at hpoll
        exact absurd hpoll (by simp)
      · rw [htotal, hsamples, Option.map_some, Option.map_some] at hpoll
        simp only at hpoll
        split at hpoll
        · exact absurd hpoll (by simp)
        · rw [← Option.some.inj hpoll]
          exact ⟨fitsInt_columnInt total, fitsInt_columnInt samples⟩

/-- Behind some polls, the step has a value if what the polls call for fits. -/
theorem airStepInt_stateBefore (before : List RadioPoll) (p : RadioPoll)
    (hfits : FitsInt p.poll.total ∧ FitsInt p.poll.samples) (s' : AirState) :
    airStepInt (stateBefore before) p.poll.total p.poll.samples = some s' ↔
      StepFits before p ∧ stateBefore (before ++ [p]) = s' := by
  rw [airStepInt_eq_some_iff, ← stateBefore_append]
  refine and_congr_left fun _ => ?_
  rw [StepFits]
  rcases List.eq_nil_or_concat before with rfl | ⟨front, last, rfl⟩
  · -- The first poll of the day.
    have hno : ∀ b, ¬ FirstOfTick [] b := fun b hb =>
      absurd ((basePoll_eq_some_iff [] b).mpr hb) (by simp [basePoll])
    have hstate : stateBefore [] = noBase := rfl
    rw [hstate]
    simp only [noBase, true_or, true_imp_iff, Bool.false_eq_true, false_and,
      and_true, List.getLast?_nil, Option.mem_def, reduceCtorEq, IsEmpty.forall_iff, implies_true,
      QuotientFits, hfits.1, hfits.2, true_and, hno]
  · rw [List.concat_eq_append]
    rcases basePoll_samples front last with ⟨b, hbase, hsamples⟩
    rcases (stateBefore_base _).2 b hbase with ⟨hhave, htotal, hbaseSamples⟩
    have hfirst := (basePoll_eq_some_iff _ b).mp hbase
    -- Only the first poll of the last tick is the base.
    have honly : ∀ c, FirstOfTick (front ++ [last]) c → c = b := fun c hc =>
      Option.some.inj (((basePoll_eq_some_iff _ c).mpr hc).symm.trans hbase)
    rw [hhave, htotal, hbaseSamples]
    simp only [Bool.true_eq_false, false_or, true_and, List.getLast?_concat, Option.mem_some_iff,
      forall_eq', ← hsamples]
    refine and_congr ⟨fun h hlt => ⟨hfits.1, hfits.2, h hlt⟩, fun h hlt => (h hlt).2.2⟩
      ⟨fun h c hc hlt => ?_, fun h hlt => h b hfirst hlt⟩
    rw [honly c hc] at hlt ⊢
    exact h hlt

/-- A row has a value if every poll's step has one. -/
theorem airWritesInt_isSome_iff (before run : List RadioPoll)
    (hfits : ∀ p ∈ run, FitsInt p.poll.total ∧ FitsInt p.poll.samples) :
    (∃ values, airWritesInt (stateBefore before) run = some values) ↔
      ∀ between p after, run = between ++ p :: after → StepFits (before ++ between) p := by
  induction run generalizing before with
  | nil =>
      refine ⟨fun _ between p after h => absurd (congrArg List.length h) (by simp), fun _ => ⟨[], rfl⟩⟩
  | cons p run ih =>
      have hp := hfits p List.mem_cons_self
      have ih := ih (before ++ [p]) fun q hq => hfits q (List.mem_cons_of_mem p hq)
      constructor
      · rintro ⟨values, hvalues⟩ between q after hsplit
        simp only [airWritesInt, Option.bind_eq_bind, Option.bind_eq_some_iff] at hvalues
        rcases hvalues with ⟨s', hstep, rest, hrest, -⟩
        rcases (airStepInt_stateBefore before p hp s').mp hstep with ⟨hfit, rfl⟩
        rcases between with _ | ⟨x, between⟩
        · rw [List.nil_append, List.cons.injEq] at hsplit
          rw [List.append_nil, ← hsplit.1]
          exact hfit
        · rw [List.cons_append, List.cons.injEq] at hsplit
          have := ih.mp ⟨rest, hrest⟩ between q after hsplit.2
          rwa [← hsplit.1, List.append_cons]
      · intro h
        have hstep := (airStepInt_stateBefore before p hp _).mpr
          ⟨by simpa using h [] p run rfl, rfl⟩
        rcases ih.mpr fun between q after hsplit => by
          simpa using h (p :: between) q after (by rw [hsplit]; rfl) with ⟨rest, hrest⟩
        rw [airWritesInt, hstep, Option.bind_eq_bind, Option.bind_some, hrest]
        exact ⟨_, rfl⟩

/-! ### What is written -/

/-- What is written is the average of a poll. -/
theorem mem_airWritesInt (before run : List RadioPoll) (values : List (Nat × UInt8))
    (hfits : ∀ p ∈ run, FitsInt p.poll.total ∧ FitsInt p.poll.samples)
    (h : airWritesInt (stateBefore before) run = some values) (v : Nat × UInt8) (hv : v ∈ values) :
    ∃ between p after, run = between ++ p :: after ∧
      v = (p.poll.observedAt, encodePercentTenths (shownAverage (before ++ between) p)) := by
  induction run generalizing before values with
  | nil =>
      rw [← Option.some.inj h] at hv
      exact absurd hv List.not_mem_nil
  | cons p run ih =>
      simp only [airWritesInt, Option.bind_eq_bind, Option.bind_eq_some_iff] at h
      rcases h with ⟨s', hstep, rest, hrest, heq⟩
      rcases (airStepInt_stateBefore before p (hfits p List.mem_cons_self) s').mp hstep with
        ⟨-, rfl⟩
      rw [← Option.some.inj heq] at hv
      rcases List.mem_cons.mp hv with rfl | hv
      · refine ⟨[], p, run, rfl, ?_⟩
        rw [List.append_nil, shownAverage, ← stateBefore_append]
      · rcases ih (before ++ [p]) rest (fun q hq => hfits q (List.mem_cons_of_mem p hq)) hrest hv with
          ⟨between, q, after, rfl, rfl⟩
        exact ⟨p :: between, q, after, rfl, by rw [List.append_assoc, List.singleton_append]⟩

theorem radioPolls_fit (db : Db) (start : Nat) (fiveGhz : Bool) (ap : ExportTarget) :
    ∀ p ∈ radioPolls db start fiveGhz ap, FitsInt p.poll.total ∧ FitsInt p.poll.samples := by
  intro p hp
  rcases List.mem_filterMap.mp hp with ⟨r, -, hr⟩
  exact radioPoll_fits fiveGhz r p hr

/-- Where the columns hold `int`s, a row that has a value is that of the exact
    integers. -/
theorem airRowInt_eq_airRowBytes (db : Db) (start : Nat) (fiveGhz : Bool) (ap : ExportTarget)
    (hcolumns : ∀ r ∈ db.apRadioSample, r.columns = r) (row : Bytes)
    (h : airRowInt db start fiveGhz ap = some row) :
    row = airRowBytes db start (loadRounds db start) fiveGhz ap := by
  have hwrites : ∀ (rows : List RadioRow) (s : AirState) (values : List (Nat × UInt8)),
      (∀ r ∈ rows, r.columns = r) →
      airWritesInt s (rows.filterMap (radioPoll fiveGhz)) = some values →
      values = airWrites fiveGhz s rows := by
    intro rows
    induction rows with
    | nil => exact fun s values _ hvalues => (Option.some.inj hvalues).symm
    | cons r rows ih =>
        intro s values hr hvalues
        rw [airWrites_cons]
        rw [List.filterMap_cons, radioPoll, hr r List.mem_cons_self] at hvalues
        have ih := fun s values => ih s values fun x hx => hr x (List.mem_cons_of_mem r hx)
        cases hpoll : airPoll fiveGhz r with
        | none =>
            rw [hpoll] at hvalues
            exact ih s values hvalues
        | some p =>
            rw [hpoll] at hvalues
            simp only [Option.map_some, airWritesInt, Option.bind_eq_bind,
              Option.bind_eq_some_iff] at hvalues
            rcases hvalues with ⟨s', hstep, rest, hrest, heq⟩
            -- A step that has a value is the step over the integers.
            have hexact := ((airStepInt_eq_some_iff _ _ _ _).mp hstep).2
            simp only
            rw [hexact, ← ih s' rest hrest]
            exact (Option.some.inj heq).symm
  rw [airRowInt, Option.map_eq_some_iff] at h
  rcases h with ⟨values, hvalues, rfl⟩
  rw [airRowBytes, ← airRows, hwrites (airRows db start ap) noBase values ?_ hvalues]
  · rfl
  · intro r hr
    rw [airRows, mem_orderBy, List.mem_filter] at hr
    exact hcolumns r hr.1

/-- A byte that is not zero shows the average of a poll of its round. -/
theorem airRowInt_shown (db : Db) (start : Nat) (fiveGhz : Bool) (ap : ExportTarget) (row : Bytes)
    (hrow : airRowInt db start fiveGhz ap = some row) (k : Nat) (byte : UInt8)
    (h : row[k]? = some byte) (hne : byte ≠ 0) :
    ∃ before p after, radioPolls db start fiveGhz ap = before ++ p :: after ∧
      (loadRounds db start)[k]? = some p.poll.observedAt ∧
      byte = encodePercentTenths (shownAverage before p) := by
  rw [airRowInt, Option.map_eq_some_iff] at hrow
  rcases hrow with ⟨values, hvalues, rfl⟩
  have hlt : k < (loadRounds db start).length := by
    have := (List.getElem?_eq_some_iff.mp h).1
    rwa [length_fillRow] at this
  rcases hround : (loadRounds db start)[k]? with _ | time
  · exact absurd (List.getElem?_eq_none_iff.mp hround) (by omega)
  rw [getElem?_fillRow _ (loadRounds_ascending db start) _ k time hround, Option.some.injEq] at h
  -- A byte that is not zero was written.
  cases hlast : ((values.filter fun value => value.1 = time).map Prod.snd).getLast? with
  | none =>
      rw [hlast] at h
      exact absurd h.symm hne
  | some b =>
      rw [hlast, Option.getD_some] at h
      rcases List.mem_map.mp (List.mem_of_getLast? hlast) with ⟨v, hv, rfl⟩
      rcases List.mem_filter.mp hv with ⟨hwrite, htime⟩
      rcases mem_airWritesInt [] _ values (radioPolls_fit db start fiveGhz ap) hvalues v hwrite with
        ⟨before, p, after, hsplit, rfl⟩
      exact ⟨before, p, after, hsplit, congrArg some (decide_eq_true_eq.mp htime).symm, h.symm⟩

/-! ### Switches -/

/-- Up to any poll, the base is from the radio of the poll before. -/
theorem SwitchesAtResets.base {run : List RadioPoll} (h : SwitchesAtResets run)
    (before after : List RadioPoll) (hrun : run = before ++ after) :
    ∀ b, basePoll before = some b → ∀ last ∈ before.getLast?, b.radioId = last.radioId := by
  induction before using List.reverseRecOn generalizing after with
  | nil => exact fun b hb => absurd hb (by simp [basePoll])
  | append_singleton before p ih =>
      intro b hb last hlast
      rw [List.getLast?_concat, Option.mem_some_iff] at hlast
      rw [← hlast]
      rw [basePoll_append] at hb
      cases hbase : basePoll before with
      | none =>
          rw [hbase, baseStep, Option.some.injEq] at hb
          rw [hb]
      | some b₀ =>
          rw [hbase, baseStep] at hb
          split at hb
          · -- The base stays, so the samples are those of the poll before.
            next hsame =>
            rcases List.eq_nil_or_concat before with rfl | ⟨front, previous, rfl⟩
            · exact absurd hbase (by simp [basePoll])
            rw [List.concat_eq_append] at hbase hrun ih
            rcases basePoll_samples front previous with ⟨b₁, hb₁, hsamples⟩
            rw [hbase, Option.some.injEq] at hb₁
            have hprevious := ih (p :: after) (by rw [hrun, List.append_assoc]; rfl) b₀ hbase
              previous (by rw [List.getLast?_concat]; rfl)
            rw [← Option.some.inj hb, hprevious]
            -- A poll with the samples of the one before is no drop.
            by_contra hne
            have hdrop := (h front previous p after (by simp [hrun]) hne).1
            rw [hsame, hb₁, hsamples] at hdrop
            exact lt_irrefl _ hdrop
          · rw [Option.some.inj hb]

/-- The last of the polls is the last one of its own radio. -/
theorem getLast?_filter_concat (front : List RadioPoll) (last p : RadioPoll)
    (h : last.radioId = p.radioId) :
    ((front ++ [last]).filter fun q => q.radioId = p.radioId).getLast? = some last := by
  rw [List.filter_append, List.filter_cons_of_pos (by rw [decide_eq_true_eq]; exact h),
    List.filter_nil, List.getLast?_concat]

/-- Then every average is made of polls of one radio. -/
theorem SwitchesAtResets.own {run : List RadioPoll} (h : SwitchesAtResets run)
    (before : List RadioPoll) (p : RadioPoll) (after : List RadioPoll)
    (hrun : run = before ++ p :: after) :
    OwnSource before p ∧ FromOwn before p (shownAverage before p) := by
  rcases List.eq_nil_or_concat before with rfl | ⟨front, last, rfl⟩
  · have hreset : IsReset [] p := fun last hlast => absurd hlast (by simp)
    exact ⟨hreset, FromOwn.ratio hreset⟩
  rw [List.concat_eq_append] at hrun ⊢
  rcases basePoll_samples front last with ⟨b, hbase, hsamples⟩
  have hradio := h.base (front ++ [last]) (p :: after) hrun b hbase last
    (by rw [List.getLast?_concat]; rfl)
  have hvalue := shownAverage_eq (front ++ [last]) p
  have hsource : airSource (front ++ [last]) p =
      if p.poll.samples < b.poll.samples then .ratio
      else if p.poll.samples = b.poll.samples then .held b
      else .delta b := by
    rw [airSource, hbase]
  rw [OwnSource]
  by_cases hown : last.radioId = p.radioId
  · rcases lt_trichotomy p.poll.samples b.poll.samples with hlt | heq | hlt
    · -- The radio's own counter dropped.
      rw [if_pos hlt] at hsource
      have hreset : IsReset (front ++ [last]) p := by
        rw [IsReset, getLast?_filter_concat front last p hown]
        intro l hl
        rw [Option.mem_some_iff] at hl
        rwa [← hl, ← hsamples]
      simp only [hsource] at hvalue ⊢
      rw [hvalue]
      exact ⟨hreset, FromOwn.ratio hreset⟩
    · rw [if_neg (not_lt.mpr heq.ge), if_pos heq] at hsource
      simp only [hsource] at hvalue ⊢
      rw [hvalue, stateBefore_append]
      exact ⟨hradio.trans hown, FromOwn.held front [] last rfl hown
        (fun q hq => absurd hq List.not_mem_nil) (hsamples.symm.trans heq.symm)⟩
    · rw [if_neg (not_lt.mpr hlt.le), if_neg hlt.ne'] at hsource
      simp only [hsource] at hvalue ⊢
      rw [hvalue]
      exact ⟨hradio.trans hown, FromOwn.delta b (basePoll_mem _ b hbase) (hradio.trans hown) hlt⟩
  · -- Another radio: the export sees a reset, and there was one.
    rcases h front last p after (by rw [hrun, List.append_assoc]; rfl) hown with ⟨hdrop, hreset⟩
    rw [if_pos (hsamples ▸ hdrop)] at hsource
    simp only [hsource] at hvalue ⊢
    rw [hvalue]
    exact ⟨hreset, FromOwn.ratio hreset⟩

/-- If every average is made of polls of one radio, the radio changes at
    resets only. -/
theorem switchesAtResets_of_own (run : List RadioPoll)
    (h : ∀ before p after, run = before ++ p :: after → OwnSource before p) :
    SwitchesAtResets run := by
  intro before last p after hrun hne
  rcases basePoll_samples before last with ⟨b, hbase, hsamples⟩
  -- The base is of the radio of the last poll, which it is or which repeated it.
  have hradio : b.radioId = last.radioId := by
    have hown := h before last (p :: after) hrun
    rw [basePoll_append] at hbase
    cases hbefore : basePoll before with
    | none =>
        rw [hbefore, baseStep, Option.some.injEq] at hbase
        rw [hbase]
    | some b₀ =>
        rw [hbefore, baseStep] at hbase
        split at hbase
        · next hsame =>
          rw [Option.some.injEq] at hbase
          rw [OwnSource, airSource, hbefore] at hown
          simp only [if_neg (not_lt.mpr hsame.ge), if_pos hsame] at hown
          rwa [← hbase]
        · rw [Option.some.inj hbase]
  have hown := h (before ++ [last]) p after (by rw [hrun, List.append_assoc]; rfl)
  rw [OwnSource, airSource, hbase] at hown
  have hother : b.radioId ≠ p.radioId := hradio ▸ hne
  rcases lt_trichotomy p.poll.samples b.poll.samples with hlt | heq | hlt
  · simp only [if_pos hlt] at hown
    exact ⟨hsamples ▸ hlt, hown⟩
  · simp only [if_neg (not_lt.mpr heq.ge), if_pos heq] at hown
    exact absurd hown hother
  · simp only [if_neg (not_lt.mpr hlt.le), if_neg hlt.ne'] at hown
    exact absurd hown hother

/-- Where a band has one radio, it never changes. -/
theorem switchesAtResets_of_oneRadio (run : List RadioPoll)
    (h : ∀ p ∈ run, ∀ q ∈ run, p.radioId = q.radioId) : SwitchesAtResets run := by
  intro before last p after hrun hne
  refine absurd (h last ?_ p ?_) hne
  · rw [hrun]
    exact List.mem_append_right _ List.mem_cons_self
  · rw [hrun]
    exact List.mem_append_right _ (List.mem_cons_of_mem _ List.mem_cons_self)

/-- The airtime of a day is that of one radio each exactly if, in every band of
    every access point, the radio changes at resets only and no operation
    overflows. -/
theorem ownAirtime_iff (db : Db) (start : Nat) :
    OwnAirtime db start ↔ ∀ ap ∈ loadApTargets db start, ∀ fiveGhz,
      SwitchesAtResets (radioPolls db start fiveGhz ap) ∧
        QuotientsFit (radioPolls db start fiveGhz ap) := by
  have hvalue : ∀ fiveGhz ap, (∃ row, airRowInt db start fiveGhz ap = some row) ↔
      QuotientsFit (radioPolls db start fiveGhz ap) := by
    intro fiveGhz ap
    have h := airWritesInt_isSome_iff [] _ (radioPolls_fit db start fiveGhz ap)
    simp only [List.nil_append] at h
    rw [QuotientsFit, ← h]
    constructor
    · rintro ⟨row, hrow⟩
      rw [airRowInt, Option.map_eq_some_iff] at hrow
      rcases hrow with ⟨values, hvalues, -⟩
      exact ⟨values, hvalues⟩
    · rintro ⟨values, hvalues⟩
      exact ⟨_, congrArg (Option.map _) hvalues⟩
  constructor
  · intro h ap hap fiveGhz
    rcases h ap hap fiveGhz with ⟨row, hrow, hown, -⟩
    exact ⟨switchesAtResets_of_own _ fun before p after hsplit => (hown before p after hsplit).1,
      (hvalue fiveGhz ap).mp ⟨row, hrow⟩⟩
  · intro h ap hap fiveGhz
    rcases h ap hap fiveGhz with ⟨hswitches, hfit⟩
    rcases (hvalue fiveGhz ap).mpr hfit with ⟨row, hrow⟩
    refine ⟨row, hrow, fun before p after hsplit => hswitches.own before p after hsplit,
      fun k byte hbyte hne => ?_⟩
    rcases airRowInt_shown db start fiveGhz ap row hrow k byte hbyte hne with
      ⟨before, p, after, hsplit, hround, hshown⟩
    exact ⟨before, p, after, hsplit, hround, hshown, (hswitches.own before p after hsplit).2⟩

/-- A row with counters. -/
def bandRow (radioId : Int) (radioType : Bytes) (observedAt : Nat) (total samples : Int) : RadioRow :=
  ⟨observedAt, ascii "00:00:00:00:00:0a", radioId, some radioType, none, none, none, none, none,
    some total, none, none, none, some samples⟩

/-- An access point with a result at the beginning of 1970, and its rows. -/
def accessPointDb (rows : List RadioRow) : Db where
  target :=
    { rows := [⟨1, .ap, ascii "10.0.0.2", none, some (ascii "00:00:00:00:00:0a"), ascii "AP", none,
        none, none, true, 0⟩]
      key := List.nodup_singleton 1
      unique := List.pairwise_singleton _ _ }
  pingResult :=
    { rows := [⟨1, 0, 1, 3, true, .ok, none, none, none⟩]
      key := List.nodup_singleton 1 }
  apRadioSample := rows
  meshLinkSample := []

def accessPoint : ExportTarget := ⟨1, [0, 0, 0, 0, 0, 10], ascii "00:00:00:00:00:0a"⟩

/-- Two radios of the 5 GHz band at one time: 100 in 10 samples, and 9000 in 20
    samples. -/
def dualRows : List RadioRow :=
  [bandRow 1 (ascii "11ac") 0 100 10, bandRow 2 (ascii "11ac") 0 9000 20]

/-- The byte says 89 percent, which is the difference of the two radios. The one
    was at 1 percent and the other at 45. -/
theorem dualRadio_mixes :
    accessPoint ∈ loadApTargets (accessPointDb dualRows) 0 ∧
      (∃ row, airRowInt (accessPointDb dualRows) 0 true accessPoint = some row ∧
        row[0]? = some 90) ∧
      (∀ before p after average,
        radioPolls (accessPointDb dualRows) 0 true accessPoint = before ++ p :: after →
        FromOwn before p average → encodePercentTenths average ≠ 90) ∧
      ¬ OwnAirtime (accessPointDb dualRows) 0 := by
  have hap : accessPoint ∈ loadApTargets (accessPointDb dualRows) 0 := by decide +kernel
  have hpolls : radioPolls (accessPointDb dualRows) 0 true accessPoint
      = [⟨1, 0, 100, 10⟩, ⟨2, 0, 9000, 20⟩] := by decide +kernel
  have hrow : airRowInt (accessPointDb dualRows) 0 true accessPoint = some [90] := by
    decide +kernel
  refine ⟨hap, ⟨_, hrow, rfl⟩, fun before p after average hsplit hown => ?_, fun h => ?_⟩
  · rw [hpolls] at hsplit
    rcases before with _ | ⟨first, _ | ⟨second, rest⟩⟩
    · rw [List.nil_append, List.cons.injEq] at hsplit
      rw [← hsplit.1] at hown
      cases hown with
      | ratio => decide +kernel
      | delta base hmem => exact absurd hmem List.not_mem_nil
      | held earlier between last hbefore => exact absurd hbefore.symm (by simp)
    · rw [List.cons_append, List.nil_append, List.cons.injEq, List.cons.injEq] at hsplit
      rw [← hsplit.1, ← hsplit.2.1] at hown
      cases hown with
      | ratio => decide +kernel
      | delta base hmem hradio =>
          rw [List.mem_singleton.mp hmem] at hradio
          exact absurd hradio (by decide)
      | held earlier between last hbefore hradio =>
          have hlast : last ∈ [(⟨1, 0, 100, 10⟩ : RadioPoll)] := by
            rw [hbefore]
            exact List.mem_append_right _ List.mem_cons_self
          rw [List.mem_singleton.mp hlast] at hradio
          exact absurd hradio (by decide)
    · exact absurd (congrArg List.length hsplit) (by simp)
  · rcases h accessPoint hap true with ⟨row, -, hown, -⟩
    -- The base of the second radio's poll is the first radio's.
    have hbase : (1 : Int) = 2 := (hown [⟨1, 0, 100, 10⟩] ⟨2, 0, 9000, 20⟩ [] hpolls).1
    exact absurd hbase (by decide)

end Zd1200
