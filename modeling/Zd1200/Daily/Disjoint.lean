import Zd1200.Daily.Label

/-!
# Periods of a Manifest

A manifest lists disjoint periods as long as no day has both a file of its own
and the current file.

Two kinds of runs can give a day both. A publishing run exports its day
without looking whether the day has a file already; it has one when the clock
has been stepped back behind a rollover. And the backfill exports every day
before its own, also that of the current file.

## Main definitions

* `Separate`: No day has both files.
* `Overlaps`: A run that gives a day both.
* `CompletedRun`, `Daily.completed`: Completed runs.

## Theorems

* `dailyManifest_disjoint`: The manifest of a separate directory.
* `publish_separate`, `backfill_separate`: What a completed run keeps.
* `disjoint_of_meets`: Manifests over sequences of runs.
-/

namespace Zd1200

/-- No moment lies in both periods. -/
def Period.Disjoint (a b : Period) : Prop := a.stop ≤ b.start ∨ b.stop ≤ a.start

instance : DecidableRel Period.Disjoint := fun _ _ => inferInstanceAs (Decidable (_ ∨ _))

/-- The published manifest lists disjoint periods. -/
def DisjointManifest (s : Daily) : Prop :=
  ∀ periods, s.manifest = some periods → periods.Pairwise Period.Disjoint

/-- Files are of whole days, and the day of the current file has no other one.
    The manifest does not list day 0 as the current one. -/
structure Separate (s : Daily) : Prop where
  whole : ∀ day ∈ s.dated, day % 86400 = 0
  marker : ∀ day, s.current.isSome → s.marker = some day →
    day % 86400 = 0 ∧ (day ≠ 0 → day ∉ s.dated)

/-- A run of the script that was completed. -/
inductive CompletedRun
  | publish (env : DailyEnv)
  | backfill (env : DailyEnv)

/-- The directory that a run leaves, if it is completed. -/
def Daily.completed (s : Daily) : CompletedRun → Option Daily
  | .publish env => (publish env).complete s
  | .backfill env => (backfill env).complete s

/-- The run gives a day both files: a publishing run its own day, the backfill
    the day of the current file. -/
def Overlaps (s : Daily) : CompletedRun → Prop
  | .publish env => dayOf env.now ≠ 0 ∧ dayOf env.now ∈ s.dated
  | .backfill env =>
      s.backfilled = false ∧ s.current.isSome ∧ ∃ day : Nat, s.marker = some day ∧ day ≠ 0 ∧
        (day : Int) ∈ historicalDays env ∧ 640 < (exportDayCommand env.db day).output.length

/-! ### The manifest -/

theorem dayOf_mod (now : Nat) : dayOf now % 86400 = 0 := Nat.mul_mod_left _ _

/-- Different whole days are disjoint. -/
theorem disjoint_of_whole (a b : Period) (ha : a.start % 86400 = 0) (hb : b.start % 86400 = 0)
    (hastop : a.stop = a.start + 86400) (hbstop : b.stop = b.start + 86400)
    (hne : a.start ≠ b.start) : a.Disjoint b := by
  unfold Period.Disjoint
  omega

/-- The manifest of a directory in which no day has both files. -/
theorem dailyManifest_disjoint (readDir : ReadDir) (s : Daily) (hs : Separate s) :
    (dailyManifest readDir s).Pairwise Period.Disjoint := by
  unfold dailyManifest
  simp only
  -- The listed days are those of files, each once.
  have hsub : ∀ day ∈ orderBy (fun start => start)
      (((readDir.list s.dated.keys).filter fun start => start ≤ maxUInt32).take 64),
      day ∈ s.dated := by
    intro day hday
    rw [mem_orderBy] at hday
    exact (readDir.perm _).mem_iff.mp (List.mem_filter.mp (List.mem_of_mem_take hday)).1
  have hnodup : (orderBy (fun start => start)
      (((readDir.list s.dated.keys).filter fun start => start ≤ maxUInt32).take 64)).Nodup := by
    refine (List.perm_insertionSort _ _).nodup_iff.mpr ?_
    refine List.Nodup.sublist ((List.take_sublist _ _).trans List.filter_sublist) ?_
    exact (readDir.perm _).nodup_iff.mpr s.dated.nodupKeys
  rw [List.pairwise_append, List.pairwise_map]
  refine ⟨?_, ?_, ?_⟩
  · refine List.Pairwise.imp_of_mem (fun {a b} ha hb hne => ?_) hnodup
    exact disjoint_of_whole _ _ (hs.whole a (hsub a ha)) (hs.whole b (hsub b hb)) rfl rfl hne
  · unfold currentPeriod
    split
    · split
      · exact List.pairwise_singleton _ _
      · exact List.Pairwise.nil
    · exact List.Pairwise.nil
  · intro period hperiod current hcurrent
    rcases List.mem_map.mp hperiod with ⟨day, hday, rfl⟩
    unfold currentPeriod at hcurrent
    split at hcurrent
    · next bytes marker hbytes hmarker =>
      split at hcurrent
      · next hstart =>
        rw [List.mem_singleton] at hcurrent
        rcases hs.marker marker (by rw [hbytes]; rfl) hmarker with ⟨hwhole, hnot⟩
        -- The current period is of a day that has no file of its own.
        subst hcurrent
        refine disjoint_of_whole _ _ (hs.whole day (hsub day hday)) hwhole rfl rfl ?_
        intro heq
        rw [show day = marker from heq] at hday
        exact hnot hstart.1 (hsub marker hday)
      · exact absurd hcurrent List.not_mem_nil
    · exact absurd hcurrent List.not_mem_nil

/-! ### What a completed run keeps -/

/-- The part of `Separate` that is about the dated files. -/
def Whole (s : Daily) : Prop := ∀ day ∈ s.dated, day % 86400 = 0

/-- The run's day has no file of its own. -/
def Clear (env : DailyEnv) (s : Daily) : Prop :=
  dayOf env.now ≠ 0 → dayOf env.now ∉ s.dated

theorem rollover_clear (env : DailyEnv) :
    Triple (fun s => Separate s ∧ Clear env s) (rollover env) (fun s => Whole s ∧ Clear env s)
      fun _ => True := by
  refine Triple.dyn _ fun s ⟨hs, hclear⟩ => ?_
  cases hrolls : rollsOver env s with
  | none =>
      refine Triple.skip fun t ht => ?_
      rw [ht]
      exact ⟨hs.whole, hclear⟩
  | some previous =>
      rcases rollsOver_cases env s previous hrolls with ⟨hmarker, hne, hcurrent⟩
      refine Triple.cmd _ (fun _ _ => trivial) fun t t' ht hrename => ?_
      rw [ht, renameCurrent, Option.map_eq_some_iff] at hrename
      rcases hrename with ⟨bytes, -, rfl⟩
      refine ⟨fun day hday => ?_, fun hzero hday => ?_⟩
      · -- The file of the marker's day is new.
        rcases (AList.mem_insert _).mp hday with rfl | hold
        · exact (hs.marker day hcurrent hmarker).1
        · exact hs.whole day hold
      · rcases (AList.mem_insert _).mp hday with heq | hold
        · exact hne heq.symm
        · exact hclear hzero hold

theorem separate_erase (s : Daily) (day : Nat) (hs : Separate s) :
    Separate { s with dated := s.dated.erase day } where
  whole := fun other hother => hs.whole other (AList.mem_erase.mp hother).2
  marker := fun other hcurrent hmarker =>
    ⟨(hs.marker other hcurrent hmarker).1,
      fun hzero hother => (hs.marker other hcurrent hmarker).2 hzero (AList.mem_erase.mp hother).2⟩

theorem pruneDated_separate (env : DailyEnv) :
    Triple Separate (pruneDated env) Separate fun _ => True := by
  refine Triple.dyn _ fun s hs => ?_
  refine Triple.pre (P := Separate) _ ?_ fun t ht => ht ▸ hs
  refine Triple.forEach _ _ (fun _ => Separate) fun value _ => ?_
  split
  · exact Triple.act _ (fun _ _ => trivial) fun t ht => separate_erase t value ht
  · exact Triple.skip fun _ ht => ht

/-- The manifest of a separate directory is that of disjoint periods. -/
theorem publishManifest_disjoint (env : DailyEnv) :
    Triple Separate (publishManifest env) (fun s => Separate s ∧ DisjointManifest s)
      fun _ => True :=
  Triple.act _ (fun _ _ => trivial) fun t ht =>
    ⟨⟨ht.whole, ht.marker⟩, fun periods hperiods => by
      rw [← Option.some.inj hperiods]
      exact dailyManifest_disjoint env.readDir t ht⟩

/-- A completed publishing run whose day has no file of its own. -/
theorem publish_separate (env : DailyEnv) :
    Triple (fun s => Separate s ∧ Clear env s) (publish env)
      (fun s => Separate s ∧ DisjointManifest s) fun _ => True := by
  -- The current file is no dated file.
  have hplace : Triple (fun s => Whole s ∧ Clear env s) (placeCurrent env)
      (fun s => Whole s ∧ Clear env s) fun _ => True :=
    Triple.seq _ _ (Triple.require _ fun _ _ => trivial)
      (Triple.act _ (fun _ _ => trivial) fun _ hs => hs.1)
  have hmark : Triple (fun s => Whole s ∧ Clear env s) (placeMarker env) Separate fun _ => True := by
    refine Triple.act _ (fun _ _ => trivial) fun s hs => ⟨hs.1, fun day _ hday => ?_⟩
    rw [← Option.some.inj hday]
    exact ⟨dayOf_mod env.now, hs.2⟩
  exact Triple.seq _ _ (Triple.seq _ _ (rollover_clear env) hplace)
    (Triple.seq _ _ hmark
      (Triple.seq _ _ (pruneDated_separate env) (publishManifest_disjoint env)))

theorem historicalDays_mod (env : DailyEnv) (historical : Int) (h : historical ∈ historicalDays env) :
    historical.toNat % 86400 = 0 := by
  rcases List.mem_map.mp h with ⟨i, -, rfl⟩
  unfold cutoffOf dayOf
  omega

theorem exportDayCommand_nonneg (db : Db) (epoch : Int) (h : (exportDayCommand db epoch).exit = 0) :
    0 ≤ epoch := by
  unfold exportDayCommand at h
  by_contra hneg
  rw [if_neg fun hand => hneg hand.1] at h
  exact absurd h (by decide)

/-- A completed backfill that spares the day of the current file. -/
theorem backfill_separate (env : DailyEnv) (s : Daily) (hs : Separate s)
    (hnot : ¬ Overlaps s (.backfill env)) :
    Triple (fun t => t = s) (backfill env) (fun t => Separate t ∧ DisjointManifest t)
      fun _ => True := by
  -- The files of the current day and what is left to do.
  let kept (days : List Int) (t : Daily) : Prop :=
    (∀ day ∈ days, day ∈ historicalDays env) ∧ Separate t ∧ t.current = s.current ∧
      t.marker = s.marker
  refine Triple.seq (Q := Separate) _ _ (Triple.ifThen _ _ ?_ fun t ht _ => by rw [ht]; exact hs)
    (publishManifest_disjoint env)
  by_cases hbackfilled : s.backfilled = true
  · rintro t ⟨rfl, ht⟩
    rw [hbackfilled] at ht
    exact absurd ht (by decide)
  rw [Bool.not_eq_true] at hbackfilled
  have hloop : Triple (kept (historicalDays env))
      (Script.forEach (historicalDays env) (backfillDay env)) (kept []) fun _ => True := by
    refine Triple.forEach _ _ kept fun historical rest => ?_
    refine Triple.seq _ _ (Triple.require _ fun _ _ => trivial) (Triple.act _ (fun _ _ => trivial) ?_)
    rintro t ⟨⟨hdays, hsep, hcurrent, hmarker⟩, hexit⟩
    have hmem : historical ∈ historicalDays env := hdays historical List.mem_cons_self
    refine ⟨fun day hday => hdays day (List.mem_cons_of_mem _ hday), ?_, hcurrent, hmarker⟩
    split
    · next hlong =>
      refine ⟨fun day hday => ?_, fun day hcur hmark => ?_⟩
      · rcases (AList.mem_insert _).mp hday with rfl | hold
        · exact historicalDays_mod env historical hmem
        · exact hsep.whole day hold
      · refine ⟨(hsep.marker day hcur hmark).1, fun hzero hday => ?_⟩
        rcases (AList.mem_insert _).mp hday with heq | hold
        · have hnonneg := exportDayCommand_nonneg env.db historical hexit
          -- A day of the current file that is exported as well is what is excluded.
          have hcast : (day : Int) = historical := by
            rw [heq]
            omega
          refine hnot ⟨hbackfilled, by rw [← hcurrent]; exact hcur, day, ?_, hzero, ?_, ?_⟩
          · rw [← hmarker]
            exact hmark
          · rw [hcast]
            exact hmem
          · rw [hcast]
            exact hlong
        · exact (hsep.marker day hcur hmark).2 hzero hold
    · exact separate_erase t _ hsep
  refine Triple.pre _ (Triple.seq _ _ hloop (Triple.act _ (fun _ _ => trivial) fun t ht =>
    (⟨ht.2.1.whole, ht.2.1.marker⟩ : Separate { t with backfilled := true }))) ?_
  rintro t ⟨rfl, -⟩
  exact ⟨fun _ hday => hday, hs, rfl, rfl⟩

/-! ### Sequences of completed runs -/

/-- A completed run that gives no day both files leaves none with both, and
    its manifest is that of disjoint periods. -/
theorem completed_separate (s s' : Daily) (run : CompletedRun) (hs : Separate s)
    (hnot : ¬ Overlaps s run) (h : s.completed run = some s') :
    Separate s' ∧ DisjointManifest s' := by
  cases run with
  | publish env =>
      refine Triple.complete _ (publish_separate env) s s' ⟨hs, fun hzero hday => ?_⟩ h
      exact hnot ⟨hzero, hday⟩
  | backfill env => exact Triple.complete _ (backfill_separate env s hs hnot) s s' rfl h

/-- The directory after a run. -/
def Daily.next (s : Daily) (run : CompletedRun) : Daily := (s.completed run).getD s

/-- The manifests are of disjoint periods in every state that completed runs
    lead to of which none gives a day both files. -/
theorem disjoint_of_meets (s : Daily) (hs : Separate s) (hmanifest : DisjointManifest s)
    (runs : List CompletedRun)
    (h : Meets Daily.next (fun s run => (s.completed run).isSome ∧ ¬ Overlaps s run) s runs) :
    DisjointManifest (runs.foldl Daily.next s) := by
  refine (invariant_of_meets Daily.next _ (fun s => Separate s ∧ DisjointManifest s) ?_ s runs
    ⟨hs, hmanifest⟩ h).2
  rintro s run ⟨hs, -⟩ ⟨hsome, hnot⟩
  rcases Option.isSome_iff_exists.mp hsome with ⟨s', hs'⟩
  rw [Daily.next, hs', Option.getD_some]
  exact completed_separate s s' run hs hnot hs'

theorem separate_empty : Separate Daily.empty where
  whole := fun day h => absurd h (AList.notMem_empty day)
  marker := fun day h => absurd h (by simp only [Daily.empty, Option.isSome_none, Bool.false_eq_true,
    not_false_eq_true])

theorem disjoint_two_days :
    DisjointManifest ([CompletedRun.publish (emptyEnv 86400), .publish (emptyEnv 172800)].foldl
      Daily.next Daily.empty) := by
  refine disjoint_of_meets _ separate_empty (fun _ h => ?_) _
    ⟨⟨by decide +kernel, fun h => ?_⟩, ⟨by decide +kernel, fun h => ?_⟩, trivial⟩
  · exact absurd h (by simp only [Daily.empty, reduceCtorEq, not_false_eq_true])
  · exact absurd h.2 (by decide +kernel)
  · exact absurd h.2 (by decide +kernel)

/-- The clock is stepped back by a day and forward again, and the manifest
    lists the later day twice. -/
theorem disjoint_clock_back :
    ¬ DisjointManifest ([CompletedRun.publish (emptyEnv 172800), .publish (emptyEnv 86400),
      .publish (emptyEnv 172800)].foldl Daily.next Daily.empty) := by
  have hmanifest : ([CompletedRun.publish (emptyEnv 172800), .publish (emptyEnv 86400),
      .publish (emptyEnv 172800)].foldl Daily.next Daily.empty).manifest =
      some [datedPeriod 86400, datedPeriod 172800,
        { start := 172800, stop := 259200, immutable := false }] := by decide +kernel
  intro h
  exact absurd (h _ hmanifest) (by decide)

end Zd1200
