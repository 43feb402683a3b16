import Zd1200.Daily.Publish
import Zd1200.Export.Layout

/-!
# Labels of Day Files

A day file carries its day in its header. The name of the file says it a
second time, for the current file the marker does.

The two names of the current file are changed by two renames. A run that is
killed between them leaves a current file with the marker of another day, and
the next run renames it to that other day's file. Everywhere else a run can
be killed without harm, because a file is always renamed together with its
label or labelled by an export: `publish_labelled` goes through the script.

## Main definitions

* `headerDay`: The day in a file's header.
* `Labelled`: Every file is what its name says.
* `KilledBetweenRenames`: A run that is killed between the two renames.

## Theorems

* `headerDay_exportDayCommand`: An exported day carries its day.
* `publish_labelled`, `backfill_labelled`: What a run keeps.
* `publish_mislabelled`: What a run that is killed between the renames leaves.
* `labelled_of_meets`: Labels over sequences of runs.
-/

namespace Zd1200

/-- The day in the header of a file. -/
def headerDay (bytes : Bytes) : Option Nat := readLe bytes 16 4

/-- Every file is what its name says. -/
structure Labelled (s : Daily) : Prop where
  dated : ∀ day bytes, s.dated.lookup day = some bytes → headerDay bytes = some day
  current : ∀ bytes, s.current = some bytes →
    ∃ day, s.marker = some day ∧ headerDay bytes = some day

/-- A run of the script, killed after some commands if it has more. -/
inductive DailyRun
  | publish (env : DailyEnv) (commands : Nat)
  | backfill (env : DailyEnv) (commands : Nat)

/-- The directory that a run leaves. -/
def Daily.after (s : Daily) : DailyRun → Daily
  | .publish env commands => ((publish env).run commands s).1
  | .backfill env commands => ((backfill env).run commands s).1

/-- The run has just the commands up to the rename of the current file, and
    the marker names another day than its own. -/
def KilledBetweenRenames (s : Daily) : DailyRun → Prop
  | .publish env commands =>
      ((Script.seq (rollover env) (placeCurrent env)).run commands s).2 = some 0 ∧
        s.marker ≠ some (dayOf env.now)
  | .backfill _ _ => False

/-! ### What each part of a run keeps -/

/-- An exported day carries its day. -/
theorem headerDay_exportDayCommand (db : Db) (epoch : Int)
    (h : (exportDayCommand db epoch).exit = 0) :
    headerDay (exportDayCommand db epoch).output = some epoch.toNat := by
  unfold exportDayCommand at h ⊢
  by_cases haccepted : 0 ≤ epoch ∧ AcceptedDay epoch.toNat
  · rw [if_pos haccepted] at h ⊢
    rw [(exportDay_exit_zero db _ h).2]
    exact readLe_header db epoch.toNat 3 4 epoch.toNat 16 rfl rfl
      (Nat.lt_succ_of_le haccepted.2.1)
  · rw [if_neg haccepted] at h
    exact absurd h (by decide)

theorem labelled_insert (s : Daily) (day : Nat) (bytes : Bytes) (hs : Labelled s)
    (hday : headerDay bytes = some day) :
    Labelled { s with dated := s.dated.insert day bytes } where
  dated := by
    intro other contents hlookup
    rcases of_lookup_insert _ _ _ _ _ hlookup with ⟨rfl, rfl⟩ | ⟨-, hold⟩
    · exact hday
    · exact hs.dated other contents hold
  current := hs.current

theorem labelled_erase (s : Daily) (day : Nat) (hs : Labelled s) :
    Labelled { s with dated := s.dated.erase day } where
  dated := by
    intro other contents hlookup
    exact hs.dated other contents (of_lookup_erase _ _ _ _ hlookup).2
  current := hs.current

/-- Files keep their labels if the manifest or the note of the backfill
    changes. -/
theorem labelled_congr (s s' : Daily) (hs : Labelled s) (hdated : s'.dated = s.dated)
    (hcurrent : s'.current = s.current) (hmarker : s'.marker = s.marker) : Labelled s' where
  dated := by rw [hdated]; exact hs.dated
  current := by rw [hcurrent, hmarker]; exact hs.current

/-- The rename of the completed day: the marker stays. -/
theorem rollover_labelled (env : DailyEnv) (marker : Option Nat) :
    Triple (fun s => Labelled s ∧ s.marker = marker) (rollover env)
      (fun s => Labelled s ∧ s.marker = marker) Labelled := by
  refine Triple.dyn _ fun s ⟨hs, hmarker⟩ => ?_
  cases hrolls : rollsOver env s with
  | none =>
      refine Triple.skip fun t ht => ?_
      rw [ht]
      exact ⟨hs, hmarker⟩
  | some previous =>
      have hprevious : s.marker = some previous := (rollsOver_cases env s previous hrolls).1
      refine Triple.cmd _ (fun t ht => by rw [ht]; exact hs) fun t t' ht hrename => ?_
      rw [ht, renameCurrent, Option.map_eq_some_iff] at hrename
      rcases hrename with ⟨bytes, hcurrent, rfl⟩
      -- The current file carries the day of the marker, which becomes its name.
      rcases hs.current bytes hcurrent with ⟨day, hday, hheader⟩
      rw [hprevious, Option.some.injEq] at hday
      rw [← hday] at hheader
      have hlabelled := labelled_insert s previous bytes hs hheader
      refine ⟨⟨hlabelled.dated, fun _ h => ?_⟩, hmarker⟩
      exact absurd h (by simp only [reduceCtorEq, not_false_eq_true])

/-- What is there between the two renames. -/
structure Placed (env : DailyEnv) (s : Daily) : Prop where
  dated : ∀ day bytes, s.dated.lookup day = some bytes → headerDay bytes = some day
  current : ∃ bytes, s.current = some bytes ∧ headerDay bytes = some (dayOf env.now)

theorem placeCurrent_placed (env : DailyEnv) (marker : Option Nat) :
    Triple (fun s => Labelled s ∧ s.marker = marker) (placeCurrent env)
      (fun s => Placed env s ∧ s.marker = marker) Labelled := by
  refine Triple.seq _ _ (Triple.require _ fun s hs => hs.1) (Triple.act _ (fun s hs => hs.1.1) ?_)
  rintro s ⟨⟨hs, hmarker⟩, hexit⟩
  exact ⟨⟨hs.dated, _, rfl, headerDay_exportDayCommand env.db _ hexit⟩, hmarker⟩

/-- With the marker's rename the labels are complete. -/
theorem labelled_of_placed (env : DailyEnv) (s : Daily) (hs : Placed env s) :
    Labelled { s with marker := some (dayOf env.now) } where
  dated := hs.dated
  current := by
    rcases hs.current with ⟨bytes, hcurrent, hheader⟩
    intro contents hcontents
    rw [hcurrent, Option.some.injEq] at hcontents
    exact ⟨dayOf env.now, rfl, by rw [← hcontents]; exact hheader⟩

theorem pruneDated_labelled (env : DailyEnv) :
    Triple Labelled (pruneDated env) Labelled Labelled := by
  refine Triple.dyn _ fun s hs => ?_
  refine Triple.pre (P := Labelled) _ ?_ fun t ht => ht ▸ hs
  refine Triple.forEach _ _ (fun _ => Labelled) fun value _ => ?_
  split
  · exact Triple.act _ (fun _ ht => ht) fun t ht => labelled_erase t value ht
  · exact Triple.skip fun _ ht => ht

theorem publishManifest_labelled (env : DailyEnv) :
    Triple Labelled (publishManifest env) Labelled Labelled :=
  Triple.act _ (fun _ ht => ht) fun t ht => labelled_congr t _ ht rfl rfl rfl

/-- The first two renames. -/
theorem renames_placed (env : DailyEnv) (marker : Option Nat) :
    Triple (fun s => Labelled s ∧ s.marker = marker)
      (Script.seq (rollover env) (placeCurrent env))
      (fun s => Placed env s ∧ s.marker = marker) Labelled :=
  Triple.seq _ _ (rollover_labelled env marker) (placeCurrent_placed env marker)

/-! ### Runs -/

/-- A publishing run keeps the labels unless it is killed between the
    renames. -/
theorem publish_labelled (env : DailyEnv) (commands : Nat) (s : Daily) (hs : Labelled s)
    (hnot : ¬ KilledBetweenRenames s (.publish env commands)) :
    Labelled ((publish env).run commands s).1 := by
  have hfirst := renames_placed env s.marker
  have hrest : Triple Labelled (Script.seq (pruneDated env) (publishManifest env)) Labelled
      Labelled := Triple.seq _ _ (pruneDated_labelled env) (publishManifest_labelled env)
  by_cases hmarker : s.marker = some (dayOf env.now)
  · -- The marker is right all the time.
    refine Ends.state _ (Triple.seq _ _ hfirst (Triple.seq _ _ ?_ hrest) s ⟨hs, rfl⟩ commands)
    refine Triple.act _ (fun t ht => ?_) fun t ht => labelled_of_placed env t ht.1
    refine labelled_congr _ t (labelled_of_placed env t ht.1) rfl rfl ?_
    rw [ht.2, hmarker]
  · -- Otherwise the run must not end between the renames.
    refine Ends.state _ (run_seq_unless _ _ hfirst (fun t ht k => ?_) s ⟨hs, rfl⟩ commands
      fun hzero => hnot ⟨hzero, hmarker⟩)
    exact hrest _ (labelled_of_placed env t ht.1) k

/-- A run that is killed between the renames leaves a file with another day's
    marker. -/
theorem publish_mislabelled (env : DailyEnv) (commands : Nat) (s : Daily) (hs : Labelled s)
    (hkilled : KilledBetweenRenames s (.publish env commands)) :
    ¬ Labelled ((publish env).run commands s).1 := by
  have hfirst := renames_placed env s.marker
  rcases hkilled with ⟨hzero, hmarker⟩
  have hends := hfirst s ⟨hs, rfl⟩ commands
  cases hrun : (Script.seq (rollover env) (placeCurrent env)).run commands s with
  | mk t left =>
      rw [hrun] at hzero hends
      subst hzero
      have hstate : ((publish env).run commands s).1 = t := by
        rw [publish, Script.run, hrun]
        rfl
      rw [hstate]
      rcases hends with ⟨hplaced, hmark⟩
      rcases hplaced.current with ⟨bytes, hcurrent, hheader⟩
      intro hlabelled
      -- The header is of the run's day, and the marker is the one from before.
      rcases hlabelled.current bytes hcurrent with ⟨day, hday, hheader'⟩
      rw [hheader, Option.some.injEq] at hheader'
      rw [hmark, ← hheader'] at hday
      exact hmarker hday

theorem backfill_labelled (env : DailyEnv) : Triple Labelled (backfill env) Labelled Labelled := by
  refine Triple.seq _ _ (Triple.ifThen _ _ ?_ fun _ ht _ => ht) (publishManifest_labelled env)
  refine Triple.seq (Q := Labelled) _ _ ?_
    (Triple.act _ (fun _ ht => ht) fun t ht => labelled_congr t _ ht rfl rfl rfl)
  refine Triple.pre _ (Triple.forEach _ _ (fun _ => Labelled) fun historical _ => ?_) fun _ ht => ht.1
  refine Triple.seq _ _ (Triple.require _ fun _ ht => ht) (Triple.act _ (fun _ ht => ht.1) ?_)
  rintro t ⟨ht, hexit⟩
  -- A file that is too short is deleted, one that is not has the day's header.
  split
  · exact labelled_insert t _ _ ht (headerDay_exportDayCommand env.db historical hexit)
  · exact labelled_erase t _ ht

/-- A run keeps the labels exactly if it is not killed between the renames. -/
theorem labelled_after_iff (s : Daily) (hs : Labelled s) (run : DailyRun) :
    Labelled (s.after run) ↔ ¬ KilledBetweenRenames s run := by
  cases run with
  | publish env commands =>
      exact ⟨fun h hkilled => publish_mislabelled env commands s hs hkilled h,
        publish_labelled env commands s hs⟩
  | backfill env commands =>
      exact iff_of_true (Ends.state _ (backfill_labelled env s hs commands)) not_false

/-- The labels hold in every state that runs lead to of which none is killed
    between the renames. -/
theorem labelled_of_meets (s : Daily) (hs : Labelled s) (runs : List DailyRun)
    (h : Meets Daily.after (fun s run => ¬ KilledBetweenRenames s run) s runs) :
    Labelled (runs.foldl Daily.after s) :=
  invariant_of_meets _ _ Labelled
    (fun s run hs hnot => (labelled_after_iff s hs run).mpr hnot) s runs hs h

theorem labelled_empty : Labelled Daily.empty where
  dated := by
    intro day bytes h
    exact absurd h (by simp only [Daily.empty, AList.lookup_empty, reduceCtorEq, not_false_eq_true])
  current := fun bytes h => absurd h (by simp only [Daily.empty, reduceCtorEq, not_false_eq_true])

/-- Directories are read in the order they are kept in. -/
def plainReadDir : ReadDir := ⟨fun names => names, fun _ => .refl _⟩

/-- A run without observations. -/
def emptyEnv (now : Nat) : DailyEnv := ⟨emptyDb, now, plainReadDir⟩

theorem labelled_two_days :
    Labelled ([DailyRun.publish (emptyEnv 86400) 9, .publish (emptyEnv 172800) 9].foldl Daily.after
      Daily.empty) := by
  refine labelled_of_meets _ labelled_empty _ ⟨fun h => ?_, fun h => ?_, trivial⟩
  · exact absurd h.1 (by decide +kernel)
  · exact absurd h.1 (by decide +kernel)

/-- The second day's run is killed between the renames, and the next run makes
    its file the first day's. -/
theorem labelled_overwritten :
    let s := [DailyRun.publish (emptyEnv 86400) 9, .publish (emptyEnv 172800) 3,
      .publish (emptyEnv 172800) 9].foldl Daily.after Daily.empty
    (s.dated.lookup 86400).bind headerDay = some 172800 ∧ ¬ Labelled s := by
  have hlookup : ((([DailyRun.publish (emptyEnv 86400) 9, .publish (emptyEnv 172800) 3,
      .publish (emptyEnv 172800) 9].foldl Daily.after Daily.empty).dated.lookup 86400).bind
      headerDay) = some 172800 := by decide +kernel
  refine ⟨hlookup, fun hlabelled => ?_⟩
  rcases Option.bind_eq_some_iff.mp hlookup with ⟨bytes, hbytes, hheader⟩
  have := hlabelled.dated 86400 bytes hbytes
  rw [hheader] at this
  exact absurd this (by decide)

end Zd1200
