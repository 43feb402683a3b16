import Zd1200.Snapshot.Retrievable

/-!
# Removed Captures

Captures are removed in two places. The monitor removes those that are older
than thirty days, and the index script those of a day whose bundle is in
place. The bundle is not removed before its whole day is older than thirty
days, so what a run removes can be accounted for at any moment of the run, in
particular where it is killed.

## Main definitions

* `Accounted`: What is removed is old or in the bundle of its day.

## Theorems

* `addSnapshot_accounted`, `rebuildIndex_accounted`: The index script.
* `onlyBundledRemoved_after`: What a run removes.
* `retrievable_of_meets`: Listed and removed captures over sequences of runs.
-/

namespace Zd1200

/-- What was there and is removed is old or in the bundle of its day. -/
structure Accounted (before : Snapshots) (old : Nat → Prop) (t : Snapshots) : Prop where
  days : ∀ day times, t.timestamps.lookup day = some times → ∀ time ∈ times, time / 86400 = day
  removed : ∀ time kind, (before.captures.lookup (time, kind)).isSome →
    (t.captures.lookup (time, kind)).isSome ∨ old time ∨ InBundle t time

variable {before : Snapshots} {old : Nat → Prop}

/-- A step removes nothing that it cannot account for. -/
theorem Accounted.step (t t' : Snapshots) (ht : Accounted before old t)
    (hdays : ∀ day times, t'.timestamps.lookup day = some times → ∀ time ∈ times,
      time / 86400 = day)
    (hcaptures : ∀ time kind, (t.captures.lookup (time, kind)).isSome →
      (t'.captures.lookup (time, kind)).isSome ∨ old time ∨ InBundle t' time)
    (hbundles : ∀ time, InBundle t time → old time ∨ InBundle t' time) :
    Accounted before old t' where
  days := hdays
  removed := by
    intro time kind hbefore
    rcases ht.removed time kind hbefore with hthere | hold | hin
    · exact hcaptures time kind hthere
    · exact .inr (.inl hold)
    · exact .inr (hbundles time hin)

-- Indexes and the manifest do not matter.
theorem Accounted.congr (t t' : Snapshots) (ht : Accounted before old t)
    (hcaptures : t'.captures = t.captures) (hbundles : t'.bundles = t.bundles)
    (htimestamps : t'.timestamps = t.timestamps) : Accounted before old t' := by
  refine ht.step t t' ?_ ?_ ?_
  · rw [htimestamps]
    exact ht.days
  · intro time kind hthere
    rw [hcaptures]
    exact .inl hthere
  · exact fun time hin => .inr (inBundle_congr t t' time (by rw [hbundles]) hin)

theorem publishDay_accounted (day : Nat) :
    Triple (Accounted before old) (publishDay day) (Accounted before old)
      (Accounted before old) := by
  refine Triple.dyn _ fun s hs => ?_
  cases s.timestamps.lookup day with
  | none => exact Triple.skip fun t ht => ht ▸ hs
  | some times =>
      exact Triple.act _ (fun t ht => ht ▸ hs) fun t ht => hs.congr s _ (by rw [ht]) (by rw [ht])
        (by rw [ht])

theorem appendTime_accounted (time : Nat) (t : Snapshots) (ht : Accounted before old t) :
    Accounted before old (appendTime time t) := by
  refine ht.step t _ ?_ (fun _ _ h => .inl h) fun _ h => .inr h
  intro day times htimes other hother
  rcases mem_appendTime time t day times other htimes hother with ⟨rfl, hday⟩ | ⟨all, hall, hmem⟩
  · exact hday.symm
  · exact ht.days day all hall other hmem

/-- A day's captures are removed when they are in its bundle. -/
theorem bundleDay_accounted (active day : Nat) :
    Triple (Accounted before old) (bundleDay active day) (Accounted before old)
      (Accounted before old) := by
  refine Triple.dyn _ fun s hs => ?_
  cases hdue : dueTimes active day s with
  | none => exact Triple.skip fun t ht => ht ▸ hs
  | some times =>
      rcases dueTimes_cases active day s times hdue with ⟨htimes, hnone, hall⟩
      have hdays := hs.days day times htimes
      refine Triple.seq (Q := fun t => Accounted before old t ∧ ∀ time ∈ times, InBundle t time)
        _ _ ?_ ?_
      · refine Triple.act _ (fun t ht => ht ▸ hs) fun t ht => ?_
        subst ht
        refine ⟨hs.step t _ hs.days (fun _ _ h => .inl h) ?_, fun time htime =>
          placeBundle_inBundle t day times time htime (hdays time htime) (hall time htime)⟩
        intro time hin
        refine .inr (inBundle_congr t _ time ?_ hin)
        -- The day had no bundle before.
        have hne : time / 86400 ≠ day := by
          intro heq
          rcases hin with ⟨bytes, _, hbytes, -⟩
          rw [heq, hnone] at hbytes
          exact absurd hbytes (by simp only [reduceCtorEq, not_false_eq_true])
        rw [placeBundle, AList.lookup_insert_ne hne]
      · refine Triple.seq (Q := Accounted before old) _ _ ?_ (publishDay_accounted day)
        refine Triple.weaken _ (Triple.forEach times _
          (fun rest t => Accounted before old t ∧ ∀ time ∈ rest, InBundle t time) ?_)
          (fun _ h => h) (fun _ h => h.1) fun _ h => h
        intro time rest
        refine Triple.act _ (fun _ h => h.1) fun t ht => ?_
        refine ⟨ht.1.step t _ ht.1.days ?_ fun _ h => .inr h, fun other hother =>
          ht.2 other (List.mem_cons_of_mem _ hother)⟩
        intro other kind hthere
        rw [lookup_removeCaptures]
        by_cases heq : other = time
        · exact .inr (.inr (heq ▸ ht.2 time List.mem_cons_self))
        · rw [if_neg heq]
          exact .inl hthere

theorem pruneDay_accounted (now day : Nat) (hold : ∀ time, time + 30 * 86400 < now → old time) :
    Triple (Accounted before old) (pruneDay now day) (Accounted before old)
      (Accounted before old) := by
  refine Triple.dyn _ fun s hs => ?_
  cases htimes : s.timestamps.lookup day with
  | none => exact Triple.skip fun t ht => ht ▸ hs
  | some times =>
      simp only
      split
      · next hday =>
        refine Triple.seq (Q := Accounted before old) _ _ ?_ ?_
        · refine Triple.act _ (fun t ht => ht ▸ hs) fun t ht => ?_
          subst ht
          exact hs.step t _ (fun other all hall =>
            hs.days other all (of_lookup_erase _ day other all hall).2) (fun _ _ h => .inl h)
            fun _ h => .inr h
        · refine Triple.act _ (fun _ h => h) fun t ht => ?_
          refine ht.step t _ ht.days (fun _ _ h => .inl h) fun time hin => ?_
          by_cases heq : time / 86400 = day
          · -- All that the bundle has is older.
            refine .inl (hold time ?_)
            unfold pruneCutoff at hday
            omega
          · exact .inr (inBundle_congr t _ time (AList.lookup_erase_ne heq) hin)
      · split
        · refine Triple.seq (Q := Accounted before old) _ _ ?_ (publishDay_accounted day)
          refine Triple.act _ (fun t ht => ht ▸ hs) fun t ht => ?_
          subst ht
          refine hs.step t _ ?_ (fun _ _ h => .inl h) fun _ h => .inr h
          intro other all hall time htime
          rcases of_lookup_insert _ _ _ _ _ hall with ⟨rfl, rfl⟩ | ⟨-, hold⟩
          · exact hs.days other times htimes time (List.mem_filter.mp htime).1
          · exact hs.days other all hold time htime
        · exact Triple.skip fun t ht => ht ▸ hs

-- A loop over the days that have a list.
theorem forEach_accounted (days : Snapshots → List Nat) (body : Nat → Script Snapshots)
    (hbody : ∀ day, Triple (Accounted before old) (body day) (Accounted before old)
      (Accounted before old)) :
    Triple (Accounted before old) (.dyn fun s => .forEach (days s) body) (Accounted before old)
      (Accounted before old) := by
  refine Triple.dyn _ fun s hs => ?_
  refine Triple.pre (P := Accounted before old) _ ?_ fun t ht => ht ▸ hs
  exact Triple.forEach _ _ (fun _ => Accounted before old) fun day _ => hbody day

-- Both modes of the index script end in the same way.
theorem pruneAndPublish_accounted (env : IndexEnv)
    (hold : ∀ time, time + 30 * 86400 < env.now → old time) :
    Triple (Accounted before old) (Script.seq (pruneIndex env) (publishSnapshotManifest env))
      (Accounted before old) (Accounted before old) :=
  Triple.seq _ _ (forEach_accounted _ _ fun day => pruneDay_accounted env.now day hold)
    (Triple.act _ (fun _ h => h) fun t ht => ht.congr t _ rfl rfl rfl)

theorem addSnapshot_accounted (env : IndexEnv) (time : Nat)
    (hold : ∀ time, time + 30 * 86400 < env.now → old time) :
    Triple (Accounted before old) (addSnapshot env time) (Accounted before old)
      (Accounted before old) := by
  refine Triple.seq (Q := Accounted before old) _ _ ?_ (Triple.seq (Q := Accounted before old) _ _
    (forEach_accounted _ _ fun day => bundleDay_accounted _ day)
    (pruneAndPublish_accounted env hold))
  refine Triple.seq (Q := Accounted before old) _ _ ?_ (publishDay_accounted _)
  refine Triple.act _ (fun _ h => h) fun t ht => ?_
  unfold appendUnlessLast
  split
  · exact ht
  · exact appendTime_accounted time t ht

theorem rebuildIndex_accounted (env : IndexEnv)
    (hold : ∀ time, time + 30 * 86400 < env.now → old time) :
    Triple (Accounted before old) (rebuildIndex env) (Accounted before old)
      (Accounted before old) := by
  refine Triple.seq (Q := Accounted before old) _ _ ?_ (pruneAndPublish_accounted env hold)
  refine Triple.ifThen _ _ ?_ fun _ h _ => h
  refine Triple.seq (Q := Accounted before old) _ _ ?_ (Triple.seq (Q := Accounted before old) _ _
    (forEach_accounted _ _ publishDay_accounted)
    (Triple.act _ (fun _ h => h) fun t ht => ht.congr t _ rfl rfl rfl))
  refine Triple.act _ (fun _ h => h.1) fun t ht => ?_
  exact List.foldlRecOn _ _ ht.1 fun s hs time _ => appendTime_accounted time s hs

theorem collect_accounted (timestamp : Nat) (answer : CaptureKind → Option Bytes) :
    Triple (Accounted before old) (collect timestamp answer) (Accounted before old)
      (Accounted before old) := by
  refine Triple.forEach _ _ (fun _ => Accounted before old) fun kind _ => ?_
  refine Triple.cmd _ (fun _ h => h) fun s t hs hstep => ?_
  rcases Option.map_eq_some_iff.mp hstep with ⟨body, -, rfl⟩
  refine hs.step s _ hs.days ?_ fun _ h => .inr h
  intro time kind' hthere
  left
  by_cases heq : (time, kind') = (timestamp, kind)
  · rw [heq, AList.lookup_insert, Option.isSome_some]
  · rwa [AList.lookup_insert_ne heq]

theorem pruneSnapshots_accounted (now : Nat) (order : FileOrder (CaptureName × Bool))
    (hold : ∀ time, time + 30 * 86400 < now → old time) :
    Triple (Accounted before old) (pruneSnapshots now order) (Accounted before old)
      (Accounted before old) := by
  refine Triple.dyn _ fun s hs => ?_
  refine Triple.pre (P := Accounted before old) _ ?_ fun t ht => ht ▸ hs
  refine Triple.forEach _ _ (fun _ => Accounted before old) fun file _ => ?_
  split
  · next hisOld =>
    refine Triple.act _ (fun _ h => h) fun t ht => ?_
    unfold unlinkCapture
    split
    · refine ht.step t _ ht.days ?_ fun _ h => .inr h
      intro time kind hthere
      rw [lookup_erase_ite]
      by_cases heq : (time, kind) = file.1
      · refine .inr (.inl (hold time ?_))
        have hlt := old_of_isOld now file.1.1 hisOld
        rwa [← heq] at hlt
      · rw [if_neg heq]
        exact .inl hthere
    · exact ht.congr t _ rfl rfl rfl
  · exact Triple.skip fun _ h => h

/-! ### Runs -/

/-- What a run removes, wherever it is killed. -/
theorem onlyBundledRemoved_after (a : Archive)
    (hdays : ∀ day times, a.files.timestamps.lookup day = some times → ∀ time ∈ times,
      time / 86400 = day) (run : SnapshotRun) : OnlyBundledRemoved a run := by
  have hstart : Accounted a.files (fun time => ∃ now ∈ run.clock, time + 30 * 86400 < now)
      a.files := ⟨hdays, fun _ _ h => .inl h⟩
  have hold : ∀ now ∈ run.clock, ∀ time, time + 30 * 86400 < now →
      ∃ now ∈ run.clock, time + 30 * 86400 < now := fun now hnow _ hlt => ⟨now, hnow, hlt⟩
  suffices Accounted a.files (fun time => ∃ now ∈ run.clock, time + 30 * 86400 < now)
      (a.after run).files from this.removed
  cases run with
  | collect timestamp answer commands =>
      exact Ends.state _ (collect_accounted timestamp answer _ hstart commands)
  | add env timestamp commands =>
      exact Ends.state _ (addSnapshot_accounted env timestamp (hold _ rfl) _ hstart commands)
  | rebuild env commands =>
      exact Ends.state _ (rebuildIndex_accounted env (hold _ rfl) _ hstart commands)
  | prune now order commands =>
      exact Ends.state _ (pruneSnapshots_accounted now order (hold _ rfl) _ hstart commands)

/-- In every state that orderly runs lead to, listed times are where the page
    looks for them, and no run can remove what is young and not bundled. -/
theorem retrievable_of_meets (a : Archive) (ha : Sound a.latest a.collected a.files)
    (runs : List SnapshotRun) (h : Meets Archive.after Orderly a runs) :
    Retrievable (runs.foldl Archive.after a) ∧
      ∀ run, OnlyBundledRemoved (runs.foldl Archive.after a) run := by
  have hsound := invariant_of_meets Archive.after Orderly
    (fun a => Sound a.latest a.collected a.files) (fun a run ha horderly =>
      after_sound a ha run horderly) a runs ha h
  refine ⟨hsound.retrievable, fun run => onlyBundledRemoved_after _ ?_ run⟩
  exact fun day times htimes time htime => (hsound.listed day times htimes time htime).1

/-- No capture, no list and no index. -/
def Archive.empty : Archive := ⟨Snapshots.empty, [], 0⟩

theorem empty_sound : Sound Archive.empty.latest Archive.empty.collected Archive.empty.files := by
  refine ⟨?_, ?_, ?_, ?_, ?_⟩ <;> intro _ _ <;>
    simp only [Archive.empty, Snapshots.empty, AList.lookup_empty, reduceCtorEq, false_implies,
      implies_true]

-- Without a bundle of its day a time can be listed when its captures are there.
theorem kept_of_captures (s : Snapshots) (time : Nat)
    (hnone : s.bundles.lookup (time / 86400) = none) (h : hasCaptures s time = true) :
    Kept s time := by
  rw [Kept, hnone, if_neg (by decide)]
  exact h

/-- Files in the order they are kept in. -/
def plainOrder {α : Type} : FileOrder α := ⟨fun files => files, fun _ => .refl _⟩

/-- The loop's collection of a time and its run of the index script, which may
    be killed. -/
def collectAndAdd (time commands : Nat) : List SnapshotRun :=
  [.collect time (fun kind => some kind.text) 3, .add ⟨time, plainOrder⟩ time commands]

theorem retrievable_two_days :
    Retrievable ((collectAndAdd 86410 9 ++ collectAndAdd 172810 9).foldl Archive.after
        Archive.empty) ∧
      ∀ run, OnlyBundledRemoved ((collectAndAdd 86410 9 ++ collectAndAdd 172810 9).foldl
        Archive.after Archive.empty) run := by
  refine retrievable_of_meets _ empty_sound _ ⟨⟨?_, ?_⟩, ⟨?_, ?_⟩, ⟨?_, ?_⟩, ⟨?_, ?_⟩, trivial⟩
  · exact fun time htime => absurd htime List.not_mem_nil
  · exact not_false
  · intro time htime _
    rw [List.mem_singleton.mp htime]
    exact kept_of_captures _ _ (by decide +kernel) (by decide +kernel)
  · decide +kernel
  · exact fun time htime => absurd htime List.not_mem_nil
  · exact not_false
  · intro time htime _
    rw [List.mem_singleton.mp htime]
    exact kept_of_captures _ _ (by decide +kernel) (by decide +kernel)
  · decide +kernel

/-- The second day's run is killed between the removal of the first day's
    captures and the first day's index, and a run that nothing disturbs lists a
    time of a day that has been bundled. -/
theorem retrievable_killed_or_late :
    ¬ Retrievable ((collectAndAdd 86410 9 ++ collectAndAdd 172810 4 ++
        collectAndAdd 172870 9).foldl Archive.after Archive.empty) ∧
      ¬ Retrievable ((collectAndAdd 86410 9 ++ collectAndAdd 172810 9 ++
        collectAndAdd 86420 9).foldl Archive.after Archive.empty) := by
  constructor
  · intro h
    rcases h [⟨none, [86410]⟩] (fun value hvalue => ⟨1, List.mem_singleton.mp hvalue ▸
      (by decide +kernel)⟩) _ List.mem_cons_self 86410 List.mem_cons_self (by decide +kernel) .ap
      with ⟨body, hbody, -⟩
    have hnone : snapshotText ((collectAndAdd 86410 9 ++ collectAndAdd 172810 4 ++
        collectAndAdd 172870 9).foldl Archive.after Archive.empty).files [⟨none, [86410]⟩] 86410 .ap
          = none := by decide +kernel
    rw [hnone] at hbody
    exact absurd hbody (by simp only [reduceCtorEq, not_false_eq_true])
  · intro h
    rcases h [⟨some 1, [86410, 86420]⟩] (fun value hvalue => ⟨1, List.mem_singleton.mp hvalue ▸
      (by decide +kernel)⟩) _ List.mem_cons_self 86420 (by decide) (by decide +kernel) .ap
      with ⟨body, hbody, -⟩
    have hnone : snapshotText ((collectAndAdd 86410 9 ++ collectAndAdd 172810 9 ++
        collectAndAdd 86420 9).foldl Archive.after Archive.empty).files
          [⟨some 1, [86410, 86420]⟩] 86420 .ap = none := by decide +kernel
    rw [hnone] at hbody
    exact absurd hbody (by simp only [reduceCtorEq, not_false_eq_true])

end Zd1200
