import Zd1200.Export.Day
import Zd1200.Lib.Rounding

/-!
# Airtime Averages

What the averages of an airtime matrix say about the counters that they are
made of.

An access point counts airtime and samples, and its counters start again from
time to time. The export shows for each poll what was counted since the base,
the last poll that advanced the counter of samples, and it takes a drop of that
counter for a reset. As long as a run of polls begins where the export sees a
reset, the averages give the counter back: each multiplied by the samples it
stands for, they add up to the total, up to half of the samples
(`Conserves`). The counters are then a total cut into shares, and
`abs_sum_roundDiv_le` does the rest.

A total that drops while the samples go on is no reset for the export. The first
average behind it is made of a difference that goes backwards, and the sum that
starts there is wrong; `airWrites_conserve` counts such a run from its first
poll on.

## Main definitions

* `polls`: The polls of a band that have counters.
* `averages`: The averages of polls.
* `advances`: The polls that advance the samples, with what they stand for.
* `Conserves`: The averages give the total back.
* `BeginsAtReset`: The export sees a reset where a run begins.

## Theorems

* `airWrites_eq`: What is written for the polls.
* `advances_round`: An average is a rounded quotient of what was counted.
* `advances_total`: What was counted adds up to the total.
* `airWrites_conserve`: The averages of a run.
-/

namespace Zd1200

/-- A poll of a radio that has counters. -/
structure AirPoll where
  observedAt : Nat
  total : Int
  samples : Int
  deriving DecidableEq, Repr

/-- A row is a poll of the band if its counters are there and count something. -/
def airPoll (fiveGhz : Bool) (r : RadioRow) : Option AirPoll :=
  if isFiveGhz r.radioId r.radioType ≠ fiveGhz then none
  else
    match r.airtimeTotalTenths, r.rfSamples with
    | some total, some samples => if samples ≤ 0 then none else some ⟨r.observedAt, total, samples⟩
    | _, _ => none

def polls (fiveGhz : Bool) (rows : List RadioRow) : List AirPoll := rows.filterMap (airPoll fiveGhz)

/-- The averages of polls, before they are encoded. -/
def averages : AirState → List AirPoll → List Int
  | _, [] => []
  | s, p :: rest =>
      let s := airStep s p.total p.samples
      s.lastAverage :: averages s rest

/-- The state before the first poll of a day. -/
def noBase : AirState := ⟨false, 0, 0, 0⟩

/-- The polls of a band and their averages. -/
def published (fiveGhz : Bool) (rows : List RadioRow) : List (AirPoll × Int) :=
  (polls fiveGhz rows).zip (averages noBase (polls fiveGhz rows))

/-! ### What should hold -/

/-- A poll that advances the samples, its average and what it counted since the
    one before. -/
structure Advance where
  poll : AirPoll
  average : Int
  gained : Int
  increase : Int
  deriving DecidableEq, Repr

/-- The polls that advance the samples, counted from a total and a number of
    samples on. -/
def advances (total samples : Int) : List (AirPoll × Int) → List Advance
  | [] => []
  | (p, average) :: rest =>
      if samples < p.samples then
        ⟨p, average, p.total - total, p.samples - samples⟩ :: advances p.total p.samples rest
      else advances total samples rest

/-- The samples never decrease, and the total is not negative and never
    decreases. -/
def CountsUp (run : List AirPoll) : Prop :=
  run.Pairwise (fun p q => p.samples ≤ q.samples ∧ p.total ≤ q.total) ∧ ∀ p ∈ run, 0 ≤ p.total

instance (run : List AirPoll) : Decidable (CountsUp run) := inferInstanceAs (Decidable (_ ∧ _))

/-- The averages, each as often as it stands for a sample, add up to the total
    of the last poll that advanced, up to half of its samples. -/
def Conserves (total samples : Int) (run : List (AirPoll × Int)) : Prop :=
  ∀ a ∈ (advances total samples run).getLast?,
    2 * |((advances total samples run).map fun a => a.average * a.increase).sum -
      (a.poll.total - total)| ≤ a.poll.samples - samples

/-- No poll counts more than 1000 per sample since the one before. -/
def WithinScale (total samples : Int) (run : List (AirPoll × Int)) : Prop :=
  ∀ a ∈ advances total samples run, a.gained ≤ 1000 * a.increase

/-- A poll without new samples repeats the average of the one before. -/
def Repeats (run : List (AirPoll × Int)) : Prop :=
  run.IsChain fun x y => y.1.samples = x.1.samples → y.2 = x.2

/-- The run starts the day or has fewer samples at its start than there were
    before. -/
def BeginsAtReset (before run : List (AirPoll × Int)) : Prop :=
  ∀ last ∈ before.getLast?, ∀ first ∈ run.head?, first.1.samples < last.1.samples

/-! ### What is written -/

theorem length_averages (s : AirState) (ps : List AirPoll) : (averages s ps).length = ps.length := by
  induction ps generalizing s with
  | nil => rfl
  | cons p ps ih => rw [averages, List.length_cons, List.length_cons, ih]

/-- A row is passed over or is a poll that writes its average. -/
theorem airWrites_cons (fiveGhz : Bool) (s : AirState) (r : RadioRow) (rows : List RadioRow) :
    airWrites fiveGhz s (r :: rows) =
      match airPoll fiveGhz r with
      | none => airWrites fiveGhz s rows
      | some p =>
          (p.observedAt, encodePercentTenths (airStep s p.total p.samples).lastAverage) ::
            airWrites fiveGhz (airStep s p.total p.samples) rows := by
  rw [airWrites, airPoll]
  by_cases hband : isFiveGhz r.radioId r.radioType ≠ fiveGhz
  · rw [if_pos hband, if_pos hband]
  · rw [if_neg hband, if_neg hband]
    rcases r.airtimeTotalTenths with _ | total
    · rfl
    · rcases r.rfSamples with _ | samples
      · rfl
      · by_cases hsamples : samples ≤ 0
        · simp only [if_pos hsamples]
        · simp only [if_neg hsamples]

/-- The rows write the averages of their polls. -/
theorem airWrites_eq (fiveGhz : Bool) (s : AirState) (rows : List RadioRow) :
    airWrites fiveGhz s rows =
      ((polls fiveGhz rows).zip (averages s (polls fiveGhz rows))).map fun x =>
        (x.1.observedAt, encodePercentTenths x.2) := by
  induction rows generalizing s with
  | nil => rfl
  | cons r rows ih =>
      rw [airWrites_cons]
      rcases h : airPoll fiveGhz r with _ | p
      · have hpolls : polls fiveGhz (r :: rows) = polls fiveGhz rows := List.filterMap_cons_none h
        rw [hpolls, ← ih]
      · have hpolls : polls fiveGhz (r :: rows) = p :: polls fiveGhz rows :=
          List.filterMap_cons_some h
        rw [hpolls, averages, List.zip_cons_cons, List.map_cons, ← ih]

/-! ### What an average stands for -/

/-- A step up from a base. -/
theorem airStep_advance (s : AirState) (total samples : Int) (h : s.haveBase = true)
    (hlt : s.baseSamples < samples) :
    airStep s total samples = ⟨true, total, samples,
      roundDiv (total - s.baseTotal) (samples - s.baseSamples)⟩ := by
  rw [airStep, if_neg (by rw [h]; simp only [Bool.true_eq_false, false_or]; omega),
    if_neg (by omega)]
  rfl

/-- No step: the state stays. -/
theorem airStep_same (s : AirState) (total : Int) (h : s.haveBase = true) :
    airStep s total s.baseSamples = s := by
  rw [airStep, if_neg (by rw [h]; simp only [Bool.true_eq_false, false_or]; omega), if_pos rfl]

/-- Along a run, an average is a rounded quotient of what was counted. -/
theorem advances_round (s : AirState) (h : s.haveBase = true) (run : List AirPoll)
    (hbase : ∀ p ∈ run, s.baseSamples ≤ p.samples ∧ s.baseTotal ≤ p.total)
    (hrun : run.Pairwise fun p q => p.samples ≤ q.samples ∧ p.total ≤ q.total) :
    ∀ a ∈ advances s.baseTotal s.baseSamples (run.zip (averages s run)),
      0 ≤ a.gained ∧ 0 < a.increase ∧ a.average = roundDiv a.gained a.increase := by
  induction run generalizing s with
  | nil => exact fun a ha => absurd ha List.not_mem_nil
  | cons p run ih =>
      rcases List.pairwise_cons.mp hrun with ⟨hfirst, hrest⟩
      rcases hbase p List.mem_cons_self with ⟨hsamples, htotal⟩
      rw [averages, List.zip_cons_cons, advances]
      by_cases hlt : s.baseSamples < p.samples
      · -- The poll becomes the base of the next.
        rw [if_pos hlt, airStep_advance s p.total p.samples h hlt]
        intro a ha
        rcases List.mem_cons.mp ha with rfl | ha
        · exact ⟨by simp only; omega, by simp only; omega, rfl⟩
        · exact ih ⟨true, p.total, p.samples, _⟩ rfl hfirst hrest a ha
      · have hsame : p.samples = s.baseSamples := by omega
        rw [if_neg hlt, hsame, airStep_same s p.total h]
        exact ih s h (fun q hq => hbase q (List.mem_cons_of_mem _ hq)) hrest

/-- What was counted adds up to the total of the last poll that advanced. -/
theorem advances_total (total samples : Int) (run : List (AirPoll × Int)) :
    ∀ a ∈ (advances total samples run).getLast?,
      ((advances total samples run).map Advance.gained).sum = a.poll.total - total ∧
      ((advances total samples run).map Advance.increase).sum = a.poll.samples - samples := by
  induction run generalizing total samples with
  | nil => exact fun a ha => absurd ha (by simp [advances])
  | cons x run ih =>
      rcases x with ⟨p, average⟩
      rw [advances]
      by_cases hlt : samples < p.samples
      · rw [if_pos hlt]
        intro a ha
        rw [List.map_cons, List.map_cons, List.sum_cons, List.sum_cons]
        rcases hnil : advances p.total p.samples run with _ | ⟨b, bs⟩
        · rw [hnil, List.getLast?_singleton, Option.mem_some_iff] at ha
          rw [← ha]
          simp only [List.map_nil, List.sum_nil, add_zero, and_self]
        · have hlast : a ∈ (advances p.total p.samples run).getLast? := by
            rw [hnil] at ha ⊢
            rwa [List.getLast?_cons_cons] at ha
          rcases ih p.total p.samples a hlast with ⟨hgained, hincrease⟩
          rw [← hnil, hgained, hincrease]
          simp only
          constructor <;> omega
      · rw [if_neg hlt]
        exact ih total samples

/-- Along a run that starts at a base, the averages give the counters back. -/
theorem conserves_of_base (s : AirState) (h : s.haveBase = true) (run : List AirPoll)
    (hbase : ∀ p ∈ run, s.baseSamples ≤ p.samples ∧ s.baseTotal ≤ p.total)
    (hrun : run.Pairwise fun p q => p.samples ≤ q.samples ∧ p.total ≤ q.total) :
    Conserves s.baseTotal s.baseSamples (run.zip (averages s run)) := by
  intro a ha
  rcases advances_total _ _ _ a ha with ⟨hgained, hincrease⟩
  rw [← hgained, ← hincrease]
  exact abs_sum_roundDiv_le Advance.gained Advance.increase Advance.average _
    (advances_round s h run hbase hrun)

/-- Along a run that starts at a base, averages stay within the scale. -/
theorem averages_le_of_base (s : AirState) (h : s.haveBase = true) (run : List AirPoll)
    (hbase : ∀ p ∈ run, s.baseSamples ≤ p.samples ∧ s.baseTotal ≤ p.total)
    (hrun : run.Pairwise fun p q => p.samples ≤ q.samples ∧ p.total ≤ q.total)
    (hscale : WithinScale s.baseTotal s.baseSamples (run.zip (averages s run)))
    (hlast : 0 ≤ s.lastAverage ∧ s.lastAverage ≤ 1000) :
    ∀ average ∈ averages s run, 0 ≤ average ∧ average ≤ 1000 := by
  induction run generalizing s with
  | nil => exact fun a ha => absurd ha List.not_mem_nil
  | cons p run ih =>
      rcases List.pairwise_cons.mp hrun with ⟨hfirst, hrest⟩
      rcases hbase p List.mem_cons_self with ⟨hsamples, htotal⟩
      rw [averages, List.zip_cons_cons, WithinScale, advances] at hscale
      rw [averages]
      by_cases hlt : s.baseSamples < p.samples
      · rw [if_pos hlt, airStep_advance s p.total p.samples h hlt] at hscale
        rw [airStep_advance s p.total p.samples h hlt]
        have hgained := hscale _ List.mem_cons_self
        have hin : 0 ≤ roundDiv (p.total - s.baseTotal) (p.samples - s.baseSamples) ∧
            roundDiv (p.total - s.baseTotal) (p.samples - s.baseSamples) ≤ 1000 :=
          ⟨roundDiv_nonneg _ _ (by omega) (by omega),
            roundDiv_le _ _ 1000 (by omega) (by omega) hgained⟩
        intro average ha
        rcases List.mem_cons.mp ha with rfl | ha
        · exact hin
        · exact ih ⟨true, p.total, p.samples, _⟩ rfl hfirst hrest
            (fun a ha => hscale a (List.mem_cons_of_mem _ ha)) hin average ha
      · have hsame : p.samples = s.baseSamples := by omega
        rw [if_neg hlt, hsame, airStep_same s p.total h] at hscale
        rw [hsame, airStep_same s p.total h]
        intro average ha
        rcases List.mem_cons.mp ha with rfl | ha
        · exact hlast
        · exact ih s h (fun q hq => hbase q (List.mem_cons_of_mem _ hq)) hrest hscale hlast average ha

/-! ### The polls of a day -/

theorem polls_pos (fiveGhz : Bool) (rows : List RadioRow) : ∀ p ∈ polls fiveGhz rows, 0 < p.samples := by
  intro p hp
  rcases List.mem_filterMap.mp hp with ⟨r, -, h⟩
  unfold airPoll at h
  split at h
  · exact absurd h (by simp only [reduceCtorEq, not_false_eq_true])
  · split at h
    · split at h
      · exact absurd h (by simp only [reduceCtorEq, not_false_eq_true])
      · next hsamples =>
        rw [← Option.some.inj h]
        exact not_le.mp hsamples
    · exact absurd h (by simp only [reduceCtorEq, not_false_eq_true])

/-- The state after some polls. -/
def airRun (s : AirState) (ps : List AirPoll) : AirState :=
  ps.foldl (fun s p => airStep s p.total p.samples) s

theorem averages_append (s : AirState) (ps qs : List AirPoll) :
    averages s (ps ++ qs) = averages s ps ++ averages (airRun s ps) qs := by
  induction ps generalizing s with
  | nil => rfl
  | cons p ps ih =>
      rw [List.cons_append, averages, averages, ih]
      rfl

/-- After a poll there is a base with its samples. -/
theorem airStep_base (s : AirState) (total samples : Int) :
    (airStep s total samples).haveBase = true ∧ (airStep s total samples).baseSamples = samples := by
  by_cases hreset : s.haveBase = false ∨ samples < s.baseSamples
  · rw [airStep, if_pos hreset]
    exact ⟨rfl, rfl⟩
  · rw [not_or, Bool.not_eq_false, not_lt] at hreset
    rcases hreset.2.eq_or_lt with heq | hlt
    · rw [← heq, airStep_same s total hreset.1]
      exact ⟨hreset.1, rfl⟩
    · rw [airStep_advance s total samples hreset.1 hlt]
      exact ⟨rfl, rfl⟩

theorem airRun_base (s : AirState) (ps : List AirPoll) :
    ∀ last ∈ ps.getLast?, (airRun s ps).haveBase = true ∧ (airRun s ps).baseSamples = last.samples := by
  intro last hlast
  rcases List.getLast?_eq_some_iff.mp hlast with ⟨ps', rfl⟩
  rw [airRun, List.foldl_append]
  exact airStep_base _ _ _

/-- A poll without new samples repeats the average of the one before. -/
theorem repeats_zip (s : AirState) (ps : List AirPoll) : Repeats (ps.zip (averages s ps)) := by
  unfold Repeats
  induction ps generalizing s with
  | nil => exact List.IsChain.nil
  | cons p ps ih =>
      cases ps with
      | nil => exact List.IsChain.singleton _
      | cons q ps =>
          rcases airStep_base s p.total p.samples with ⟨hhave, hbase⟩
          have hrest := ih (airStep s p.total p.samples)
          rw [averages, List.zip_cons_cons] at hrest ⊢
          rw [averages, List.zip_cons_cons]
          refine List.IsChain.cons_cons (fun hsame => ?_) hrest
          simp only at hsame ⊢
          rw [hsame.trans hbase.symm, airStep_same _ q.total hhave]

/-- At a reset it is as if nothing had been counted before. -/
theorem averages_of_reset (s : AirState) (p : AirPoll) (ps : List AirPoll) (hp : 0 < p.samples)
    (h : s.haveBase = false ∨ p.samples < s.baseSamples) :
    averages s (p :: ps) = averages ⟨true, 0, 0, 0⟩ (p :: ps) := by
  have hreset : airStep s p.total p.samples = airStep ⟨true, 0, 0, 0⟩ p.total p.samples := by
    rw [airStep_advance ⟨true, 0, 0, 0⟩ _ _ rfl hp, airStep, if_pos h, sub_zero, sub_zero, roundDiv]
  rw [averages, averages, hreset]

/-- A part of what is published, by itself. -/
theorem published_part (fiveGhz : Bool) (rows : List RadioRow) (before run after : List (AirPoll × Int))
    (h : published fiveGhz rows = before ++ run ++ after) :
    run = (run.map Prod.fst).zip
        (averages (airRun noBase (before.map Prod.fst)) (run.map Prod.fst)) ∧
      ∀ x ∈ run, 0 < x.1.samples := by
  have hlength := length_averages noBase (polls fiveGhz rows)
  have hpolls : polls fiveGhz rows =
      before.map Prod.fst ++ run.map Prod.fst ++ after.map Prod.fst := by
    rw [← List.map_append, ← List.map_append, ← h, published, List.map_fst_zip hlength.ge]
  have haverages : averages noBase (polls fiveGhz rows) =
      before.map Prod.snd ++ run.map Prod.snd ++ after.map Prod.snd := by
    rw [← List.map_append, ← List.map_append, ← h, published, List.map_snd_zip hlength.le]
  -- The averages are split where the polls are.
  rw [hpolls, List.append_assoc, List.append_assoc, averages_append, averages_append] at haverages
  rcases List.append_inj haverages (by rw [length_averages, List.length_map, List.length_map]) with
    ⟨-, hrest⟩
  rcases List.append_inj hrest (by rw [length_averages, List.length_map, List.length_map]) with
    ⟨hrun, -⟩
  refine ⟨List.zip_of_prod rfl hrun.symm, fun x hx => polls_pos fiveGhz rows x.1 ?_⟩
  rw [hpolls]
  exact List.mem_append_left _ (List.mem_append_right _ (List.mem_map_of_mem hx))

/-- What is within the scale is not clamped. -/
theorem encodePercentTenths_of_le (value : Int) (h : 0 ≤ value ∧ value ≤ 1000) :
    encodePercentTenths value = ((value + 5).tdiv 10 + 1).toNat.toUInt8 := by
  rw [encodePercentTenths, min_eq_left h.2, max_eq_right h.1]

/-- The rows write the averages of their polls, and a poll without new samples
    repeats the one before. The averages of a run that begins at a reset give
    its total back, and stay within the scale if the total does. A run that
    begins otherwise is counted from its first poll on. -/
theorem airWrites_conserve (fiveGhz : Bool) (rows : List RadioRow)
    (before run after : List (AirPoll × Int))
    (hsplit : published fiveGhz rows = before ++ run ++ after)
    (hrun : CountsUp (run.map Prod.fst)) :
    airWrites fiveGhz noBase rows = (published fiveGhz rows).map (fun x =>
        (x.1.observedAt, encodePercentTenths x.2)) ∧
      Repeats (published fiveGhz rows) ∧
      (BeginsAtReset before run → Conserves 0 0 run ∧
        (WithinScale 0 0 run → ∀ x ∈ run, 0 ≤ x.2 ∧ x.2 ≤ 1000 ∧
          encodePercentTenths x.2 = ((x.2 + 5).tdiv 10 + 1).toNat.toUInt8)) ∧
      ∀ last ∈ before.getLast?, ∀ x rest, run = x :: rest → last.1.samples < x.1.samples →
        Conserves x.1.total x.1.samples rest := by
  rcases published_part fiveGhz rows before run after hsplit with ⟨hzip, hpos⟩
  have hlast : ∀ last ∈ before.getLast?,
      (airRun noBase (before.map Prod.fst)).haveBase = true ∧
        (airRun noBase (before.map Prod.fst)).baseSamples = last.1.samples := by
    intro last hlast
    refine airRun_base noBase (before.map Prod.fst) last.1 ?_
    rw [List.getLast?_map, Option.mem_def.mp hlast]
    rfl
  refine ⟨airWrites_eq fiveGhz noBase rows, repeats_zip noBase _, fun hreset => ?_, ?_⟩
  · -- From a reset on, everything is counted from zero.
    have hzero : run = (run.map Prod.fst).zip (averages ⟨true, 0, 0, 0⟩ (run.map Prod.fst)) := by
      cases run with
      | nil => rfl
      | cons x rest =>
          refine hzip.trans (congrArg _ (averages_of_reset _ _ _ (hpos x List.mem_cons_self) ?_))
          rcases hbefore : before.getLast? with _ | last
          · rw [List.getLast?_eq_none_iff.mp hbefore]
            exact Or.inl rfl
          · rw [(hlast last hbefore).2]
            exact Or.inr (hreset last hbefore x rfl)
    have hbase : ∀ p ∈ run.map Prod.fst, 0 ≤ p.samples ∧ 0 ≤ p.total := fun p hp => by
      rcases List.mem_map.mp hp with ⟨x, hx, rfl⟩
      exact ⟨(hpos x hx).le, hrun.2 _ hp⟩
    refine ⟨?_, fun hscale x hx => ?_⟩
    · rw [hzero]
      exact conserves_of_base ⟨true, 0, 0, 0⟩ rfl _ hbase hrun.1
    · rw [hzero] at hscale
      have hin := averages_le_of_base ⟨true, 0, 0, 0⟩ rfl _ hbase hrun.1 hscale ⟨le_rfl, by decide⟩
      rw [hzero] at hx
      have hx' := hin x.2 (List.of_mem_zip hx).2
      exact ⟨hx'.1, hx'.2, encodePercentTenths_of_le x.2 hx'⟩
  · rintro last hmem x rest rfl hlt
    rcases hlast last hmem with ⟨hhave, hsamples⟩
    rcases List.pairwise_cons.mp hrun.1 with ⟨hfirst, hrest⟩
    rw [List.map_cons, averages, List.zip_cons_cons, List.cons.injEq] at hzip
    rw [airStep_advance _ _ _ hhave (by rw [hsamples]; exact hlt)] at hzip
    rw [hzip.2]
    exact conserves_of_base ⟨true, x.1.total, x.1.samples, _⟩ rfl _ hfirst hrest

/-- A poll of the second radio of an access point. -/
def pollRow (observedAt : Nat) (total samples : Int) : RadioRow :=
  ⟨observedAt, [], 1, none, none, none, none, none, none, some total, none, none, none, some samples⟩

theorem airWrites_conserve_oneRun :
    Conserves 0 0 [(⟨0, 100, 10⟩, 10), (⟨30, 190, 20⟩, 9), (⟨60, 190, 20⟩, 9)] ∧
      Repeats (published true [pollRow 0 100 10, pollRow 30 190 20, pollRow 60 190 20]) :=
  have h := airWrites_conserve true [pollRow 0 100 10, pollRow 30 190 20, pollRow 60 190 20]
    [] [(⟨0, 100, 10⟩, 10), (⟨30, 190, 20⟩, 9), (⟨60, 190, 20⟩, 9)] [] (by decide +kernel) (by decide)
  ⟨(h.2.2.1 fun last hlast => absurd hlast (by simp)).1, h.2.1⟩

/-- A run that goes as far as it can. -/
def IsMaximalRun (before run after : List (AirPoll × Int)) : Prop :=
  CountsUp (run.map Prod.fst) ∧
    (∀ last ∈ before.getLast?, ¬ CountsUp (last.1 :: run.map Prod.fst)) ∧
    ∀ next ∈ after.head?, ¬ CountsUp (run.map Prod.fst ++ [next.1])

/-- The total can drop while the samples go on. The averages behind the drop do
    not add up to the total. -/
theorem airWrites_conserve_totalDrops :
    published true [pollRow 0 100 10, pollRow 30 50 20, pollRow 60 60 30] =
        [(⟨0, 100, 10⟩, 10)] ++ [(⟨30, 50, 20⟩, -4), (⟨60, 60, 30⟩, 1)] ++ [] ∧
      IsMaximalRun [(⟨0, 100, 10⟩, 10)] [(⟨30, 50, 20⟩, -4), (⟨60, 60, 30⟩, 1)] [] ∧
      ¬ Conserves 0 0 [(⟨30, 50, 20⟩, -4), (⟨60, 60, 30⟩, 1)] := by
  refine ⟨by decide +kernel, ⟨by decide, ?_, ?_⟩, ?_⟩
  · intro last hlast
    rw [← Option.some.inj hlast]
    decide
  · exact fun next hnext => absurd hnext (by simp)
  · intro h
    exact absurd (h ⟨⟨60, 60, 30⟩, 1, 10, 10⟩ rfl) (by decide +kernel)

end Zd1200
