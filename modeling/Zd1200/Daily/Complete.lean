import Zd1200.Daily.Label
import Zd1200.Daily.Rounds
import Zd1200.Export.Readable

/-!
# Completed Days

The loop of the monitor: rounds, the backfill and publishing runs, each of
which may fail or be killed.

A completed day's file is the last current file of that day, renamed. It is
the export of the day if no row of the day came after that file. The loop
publishes after every round, but it ignores failures, and after midnight the
next run renames whatever is there.

To say when this is harmless the state keeps, beside the tables and the
directory, what happened so far: the days that a current file was put in
place for, and those of them that have changed since. `Prompt` asks a run that
renames the current file that its day has not changed. `Complete` is the
invariant.

## Main definitions

* `Loop`, `LoopEvent`, `Loop.after`: The loop.
* `Timely`, `Prompt`: Conditions on its events.
* `DaysComplete`: Earlier days are exported with all their rows.
* `Complete`: The invariant.

## Theorems

* `publish_cases`: What a publishing run leaves.
* `complete_after`: Events keep the invariant.
* `daysComplete_of_meets`: Completed days over runs of the loop.
-/

namespace Zd1200

/-- The loop: the tables, the directory, the loop's `now`, the last reading of
    the clock, and the days a current file was put in place for, those that
    have changed since, and those a publishing run was completed on. -/
structure Loop where
  db : Db
  daily : Daily
  now : Nat
  clock : Nat
  published : Nat → Prop
  changed : Nat → Prop
  finished : Nat → Prop

/-- What happens in the loop. A run has as many commands as it gets to before
    it fails or the controller stops. -/
inductive LoopEvent
  | begin (now : Nat)
  | command (c : Command)
  | backfill (readDir : ReadDir) (commands : Nat)
  | publish (readDir : ReadDir) (commands : Nat)

namespace Loop

def env (s : Loop) (readDir : ReadDir) : DailyEnv := ⟨s.db, s.now, readDir⟩

/-- The publishing run gets to put its current file in place. -/
def Places (s : Loop) (readDir : ReadDir) (commands : Nat) : Prop :=
  ((Script.seq (rollover (s.env readDir)) (placeCurrent (s.env readDir))).run commands s.daily).2
    ≠ none

/-- The publishing run is completed. -/
def Finishes (s : Loop) (readDir : ReadDir) (commands : Nat) : Prop :=
  ((publish (s.env readDir)).run commands s.daily).2 ≠ none

/-- The clock after a command. -/
def clockAfter (s : Loop) : Command → Nat
  | .tick env => env.now
  | _ => s.clock

/-- The day is that of a round that leaves a row. -/
def Records (s : Loop) (day : Nat) : Command → Prop
  | .tick env => day = dayOf env.now ∧ Recorded env.now (tick env s.db).1
  | _ => False

def after (s : Loop) : LoopEvent → Loop
  | .begin now => { s with now, clock := now }
  | .command c =>
      { s with
        db := runCommand s.db c
        clock := s.clockAfter c
        changed := fun day => s.changed day ∨ s.Records day c }
  | .backfill readDir commands =>
      { s with daily := s.daily.after (.backfill (s.env readDir) commands) }
  | .publish readDir commands =>
      { s with
        daily := s.daily.after (.publish (s.env readDir) commands)
        published := fun day => s.published day ∨ (day = dayOf s.now ∧ s.Places readDir commands)
        changed := fun day => s.changed day ∧ ¬ (day = dayOf s.now ∧ s.Places readDir commands)
        finished := fun day => s.finished day ∨ (day = dayOf s.now ∧ s.Finishes readDir commands) }

end Loop

/-- Time does not go back. -/
def Timely (s : Loop) : LoopEvent → Prop
  | .begin now => s.clock ≤ now
  | .command (.tick env) => s.clock ≤ env.now
  | _ => True

/-- A publishing run is not killed between its two renames, and the current
    file that it renames to a completed day's is not of a day that has changed
    since. -/
def Prompt (s : Loop) : LoopEvent → Prop
  | .publish readDir commands =>
      ¬ KilledBetweenRenames s.daily (.publish (s.env readDir) commands) ∧
        (0 < commands → ∀ previous, rollsOver (s.env readDir) s.daily = some previous →
          ¬ s.changed previous)
  | _ => True

/-- The bytes are the export of the day. -/
def IsExport (db : Db) (day : Nat) (bytes : Bytes) : Prop :=
  (exportDay db day).exit = 0 ∧ bytes = (exportDay db day).output

/-- Once a later day's run has been completed, the file of an earlier day that
    a current file was put in place for is the export of that day, as long as
    no row of the day is too old. -/
def DaysComplete (s : Loop) : Prop :=
  ∀ day later, s.published day → s.finished later → day < later →
    s.clock ≤ day + retentionSeconds →
    ∃ bytes, s.daily.dated.lookup day = some bytes ∧ IsExport s.db day bytes

/-- A loop that begins: the backfill has been done and no current file is
    there. -/
structure Begins (s : Loop) : Prop where
  settled : Settled s.db
  backfilled : s.daily.backfilled = true
  current : s.daily.current = none
  published : ∀ day, ¬ s.published day
  finished : ∀ day, ¬ s.finished day
  clock : s.now ≤ s.clock

/-- The invariant. -/
structure Complete (s : Loop) : Prop where
  settled : Settled s.db
  backfilled : s.daily.backfilled = true
  clock : s.now ≤ s.clock
  whole : ∀ day, s.published day → day % 86400 = 0
  /-- The current file is the export of its day, unless that has changed. -/
  current : ∀ bytes, s.daily.current = some bytes →
    ∃ day, s.daily.marker = some day ∧ s.published day ∧ day ≤ dayOf s.now ∧
      (¬ s.changed day → s.clock ≤ day + retentionSeconds → IsExport s.db day bytes)
  /-- Every other day is over, and its file is the export of it. -/
  completed : ∀ day, s.published day → ¬ (s.daily.current.isSome ∧ s.daily.marker = some day) →
    day < dayOf s.now ∧ (s.clock ≤ day + retentionSeconds →
      ∃ bytes, s.daily.dated.lookup day = some bytes ∧ IsExport s.db day bytes)
  finished : ∀ day, s.finished day →
    day ≤ dayOf s.now ∧ ∃ marker, s.daily.marker = some marker ∧ day ≤ marker

/-! ### Publishing runs -/

/-- The directory behind the rename of the completed day. -/
def Rolled (env : DailyEnv) (s rolled : Daily) : Prop :=
  match rollsOver env s with
  | none => rolled = s
  | some previous => renameCurrent previous s = some rolled

/-- What a publishing run leaves that put its current file in place. -/
structure Placing (env : DailyEnv) (s : Daily) (t : Daily) : Prop where
  exit : (exportDayCommand env.db (dayOf env.now)).exit = 0
  rolled : ∃ rolled, Rolled env s rolled ∧ t.backfilled = rolled.backfilled ∧
    ∀ day : Nat, cutoffOf env.now ≤ day → t.dated.lookup day = rolled.dated.lookup day
  current : t.current = some (exportDayCommand env.db (dayOf env.now)).output

theorem rolled_marker (env : DailyEnv) (s rolled : Daily) (h : Rolled env s rolled) :
    rolled.marker = s.marker ∧ rolled.backfilled = s.backfilled := by
  unfold Rolled at h
  split at h
  · rw [h]
    exact ⟨rfl, rfl⟩
  · rw [renameCurrent, Option.map_eq_some_iff] at h
    rcases h with ⟨bytes, -, rfl⟩
    exact ⟨rfl, rfl⟩

/-- The two halves of a run up to the current file. -/
theorem placing_first (env : DailyEnv) (s : Daily) :
    Triple (fun t => t = s) (Script.seq (rollover env) (placeCurrent env))
      (fun t => Placing env s t ∧ t.marker = s.marker) fun t => t = s ∨ Rolled env s t := by
  refine Triple.seq (Q := Rolled env s) _ _ ?_ ?_
  · refine Triple.dyn _ ?_
    rintro t rfl
    cases hrolls : rollsOver env t with
    | none =>
        refine Triple.skip ?_
        rintro u rfl
        rw [Rolled, hrolls]
    | some previous =>
        refine Triple.cmd _ (fun u hu => Or.inl hu) ?_
        rintro u u' rfl hrename
        rw [Rolled, hrolls]
        exact hrename
  · refine Triple.seq _ _ (Triple.require _ fun t ht => Or.inr ht)
      (Triple.act _ (fun t ht => Or.inr ht.1) ?_)
    rintro t ⟨ht, hexit⟩
    rcases rolled_marker env s t ht with ⟨hmarker, -⟩
    exact ⟨⟨hexit, ⟨t, ht, rfl, fun _ _ => rfl⟩, rfl⟩, hmarker⟩

theorem pruneDated_placing (env : DailyEnv) (s : Daily) :
    Triple (fun t => Placing env s t ∧ t.marker = some (dayOf env.now)) (pruneDated env)
      (fun t => Placing env s t ∧ t.marker = some (dayOf env.now))
      fun t => Placing env s t ∧ t.marker = some (dayOf env.now) := by
  refine Triple.dyn _ fun t ht => ?_
  refine Triple.pre (P := fun t => Placing env s t ∧ t.marker = some (dayOf env.now)) _ ?_
    fun u hu => hu ▸ ht
  refine Triple.forEach _ _ (fun _ t => Placing env s t ∧ t.marker = some (dayOf env.now)) ?_
  intro value _
  split
  · next hold =>
    refine Triple.act _ (fun _ hu => hu) fun u ⟨hu, hmarker⟩ => ⟨⟨hu.exit, ?_, hu.current⟩, hmarker⟩
    rcases hu.rolled with ⟨rolled, hrolled, hbackfilled, hlookup⟩
    refine ⟨rolled, hrolled, hbackfilled, fun day hday => ?_⟩
    -- A file that is deleted is older than the cutoff.
    have hne : day ≠ value := by
      rintro rfl
      omega
    rw [AList.lookup_erase_ne hne]
    exact hlookup day hday
  · exact Triple.skip fun _ hu => hu

/-- What a publishing run leaves that is not killed between its renames. -/
theorem publish_cases (env : DailyEnv) (commands : Nat) (s : Daily)
    (hnot : ¬ KilledBetweenRenames s (.publish env commands)) :
    (((Script.seq (rollover env) (placeCurrent env)).run commands s).2 = none ∧
      ((publish env).run commands s).2 = none ∧
      (((publish env).run commands s).1 = s ∨ Rolled env s ((publish env).run commands s).1)) ∨
    (((Script.seq (rollover env) (placeCurrent env)).run commands s).2 ≠ none ∧
      Placing env s ((publish env).run commands s).1 ∧
      ((publish env).run commands s).1.marker = some (dayOf env.now)) := by
  have hfirst := placing_first env s s rfl commands
  have hmanifest : Triple (fun t => Placing env s t ∧ t.marker = some (dayOf env.now))
      (publishManifest env) (fun t => Placing env s t ∧ t.marker = some (dayOf env.now))
      fun t => Placing env s t ∧ t.marker = some (dayOf env.now) :=
    Triple.act _ (fun _ ht => ht) fun t ht => ⟨⟨ht.1.exit, ht.1.rolled, ht.1.current⟩, ht.2⟩
  have hrest := Triple.seq _ _ (pruneDated_placing env s) hmanifest
  cases hrun : (Script.seq (rollover env) (placeCurrent env)).run commands s with
  | mk t left =>
      rw [hrun] at hfirst
      cases left with
      | none =>
          refine Or.inl ⟨rfl, ?_⟩
          rw [publish, Script.run, hrun]
          exact ⟨rfl, hfirst⟩
      | some left =>
          refine Or.inr ⟨by simp only [ne_eq, reduceCtorEq, not_false_eq_true], ?_⟩
          rw [publish, Script.run, hrun]
          rcases hfirst with ⟨hplacing, hmarker⟩
          cases left with
          | zero =>
              -- Killed at the marker's rename, which has nothing to change.
              refine ⟨hplacing, ?_⟩
              change t.marker = _
              rw [hmarker]
              by_contra hne
              exact hnot ⟨by rw [hrun], hne⟩
          | succ left =>
              exact Ends.state _ (hrest { t with marker := some (dayOf env.now) }
                ⟨⟨hplacing.exit, hplacing.rolled, hplacing.current⟩, rfl⟩ left)

/-! ### Commands -/

theorem dayOf_le (now : Nat) : dayOf now ≤ now := Nat.div_mul_le_self _ _

theorem dayOf_mono (a b : Nat) (h : a ≤ b) : dayOf a ≤ dayOf b :=
  Nat.mul_le_mul_right _ (Nat.div_le_div_right h)

/-- A whole day that a time falls into is the day of that time. -/
theorem dayOf_of_inDay (day time : Nat) (hwhole : day % 86400 = 0) (h : InDay day time) :
    day = dayOf time := by
  have hend : dayEnd day ≤ day + 86400 := Nat.mod_le _ _
  have hlt := h.2
  have hle := h.1
  unfold dayOf
  omega

/-- The same day has the same export. -/
theorem isExport_congr (db db' : Db) (day : Nat) (bytes : Bytes) (h : SameDay db db' day)
    (hexport : IsExport db day bytes) : IsExport db' day bytes := by
  unfold IsExport at hexport ⊢
  rwa [exportDay_congr h]

/-- A command leaves a day alone that it records nothing in. -/
theorem command_sameDay (s : Loop) (c : Command) (day : Nat) (hsettled : Settled s.db)
    (hwhole : day % 86400 = 0) (hretained : s.clockAfter c ≤ day + retentionSeconds)
    (hnot : ¬ s.Records day c) : SameDay s.db (runCommand s.db c) day := by
  cases c with
  | tick env =>
      exact tick_sameDay env s.db day hsettled hretained fun hday hrecorded =>
        hnot ⟨dayOf_of_inDay day env.now hwhole hday, hrecorded⟩
  | addClient mac ip name now fails =>
      exact onlyTargets_sameDay _ _ day hsettled (addClient_onlyTargets mac ip name now fails s.db)
  | setEnabled idText enabledText fails =>
      exact onlyTargets_sameDay _ _ day hsettled (setEnabled_onlyTargets idText enabledText fails s.db)

theorem complete_command (s : Loop) (c : Command) (hs : Complete s)
    (htime : Timely s (.command c)) : Complete (s.after (.command c)) := by
  have hclock : s.clock ≤ s.clockAfter c := by
    cases c with
    | tick env => exact htime
    | addClient mac ip name now fails => exact Nat.le_refl _
    | setEnabled idText enabledText fails => exact Nat.le_refl _
  refine ⟨settled_runCommand s.db hs.settled c, hs.backfilled, hs.clock.trans hclock, hs.whole,
    fun bytes hbytes => ?_, fun day hday hother => ?_, hs.finished⟩
  · rcases hs.current bytes hbytes with ⟨day, hmarker, hpublished, hle, hexport⟩
    refine ⟨day, hmarker, hpublished, hle, fun hunchanged hretained => ?_⟩
    exact isExport_congr _ _ _ _
      (command_sameDay s c day hs.settled (hs.whole day hpublished) hretained
        fun hrecords => hunchanged (Or.inr hrecords))
      (hexport (fun hchanged => hunchanged (Or.inl hchanged)) (hclock.trans hretained))
  · rcases hs.completed day hday hother with ⟨hover, hfile⟩
    refine ⟨hover, fun hretained => ?_⟩
    rcases hfile (hclock.trans hretained) with ⟨bytes, hbytes, hexport⟩
    refine ⟨bytes, hbytes, isExport_congr _ _ _ _
      (command_sameDay s c day hs.settled (hs.whole day hday) hretained fun hrecords => ?_) hexport⟩
    -- A round is never of a day that is over.
    cases c with
    | tick env =>
        have hlater : dayOf s.now ≤ dayOf env.now := dayOf_mono _ _ (hs.clock.trans htime)
        have := hrecords.1
        omega
    | addClient mac ip name now fails => exact hrecords
    | setEnabled idText enabledText fails => exact hrecords

/-! ### Runs of the script -/

theorem complete_begin (s : Loop) (now : Nat) (hs : Complete s) (htime : s.clock ≤ now) :
    Complete (s.after (.begin now)) := by
  have hlater : dayOf s.now ≤ dayOf now := dayOf_mono _ _ (hs.clock.trans htime)
  refine ⟨hs.settled, hs.backfilled, Nat.le_refl _, hs.whole, fun bytes hbytes => ?_,
    fun day hday hother => ?_, fun day hday => ?_⟩
  · rcases hs.current bytes hbytes with ⟨day, hmarker, hpublished, hle, hexport⟩
    exact ⟨day, hmarker, hpublished, hle.trans hlater,
      fun hunchanged hretained => hexport hunchanged (htime.trans hretained)⟩
  · rcases hs.completed day hday hother with ⟨hover, hfile⟩
    exact ⟨hover.trans_le hlater, fun hretained => hfile (htime.trans hretained)⟩
  · rcases hs.finished day hday with ⟨hle, hmarker⟩
    exact ⟨hle.trans hlater, hmarker⟩

/-- Two directories that differ in the manifest at most. -/
structure SameFiles (s t : Daily) : Prop where
  dated : t.dated = s.dated
  current : t.current = s.current
  marker : t.marker = s.marker
  backfilled : t.backfilled = s.backfilled

/-- A backfill that has been done before only writes the manifest. -/
theorem backfill_done (env : DailyEnv) (s : Daily) (hs : s.backfilled = true) :
    Triple (fun t => t = s) (backfill env) (SameFiles s) (SameFiles s) := by
  refine Triple.seq (Q := fun t => t = s) _ _ (Triple.ifThen _ _ ?_ fun _ ht _ => ht) ?_
  · rintro t ⟨rfl, ht⟩
    rw [hs] at ht
    exact absurd ht (by decide)
  · exact Triple.act _ (fun t ht => ht ▸ ⟨rfl, rfl, rfl, rfl⟩) fun t ht => ht ▸ ⟨rfl, rfl, rfl, rfl⟩

theorem complete_sameFiles (s : Loop) (t : Daily) (hs : Complete s) (h : SameFiles s.daily t) :
    Complete { s with daily := t } where
  settled := hs.settled
  backfilled := h.backfilled.trans hs.backfilled
  clock := hs.clock
  whole := hs.whole
  current := by
    intro bytes hbytes
    rcases hs.current bytes (h.current.symm.trans hbytes) with ⟨day, hmarker, hrest⟩
    exact ⟨day, h.marker.trans hmarker, hrest⟩
  completed := by
    intro day hday hother
    simp only [h.current, h.marker] at hother
    simp only [h.dated]
    exact hs.completed day hday hother
  finished := by
    intro day hday
    simp only [h.marker]
    exact hs.finished day hday

/-- The days that are over, behind the rename of the current file. -/
theorem completed_of_rolled (s : Loop) (env : DailyEnv) (hnow : env.now = s.now) (rolled : Daily)
    (hs : Complete s) (hrolled : Rolled env s.daily rolled)
    (hprompt : ∀ previous, rollsOver env s.daily = some previous → ¬ s.changed previous)
    (day : Nat) (hday : s.published day)
    (hother : ¬ (rolled.current.isSome ∧ rolled.marker = some day) ∨ day ≠ dayOf s.now) :
    day < dayOf s.now ∧ (s.clock ≤ day + retentionSeconds →
      ∃ bytes, rolled.dated.lookup day = some bytes ∧ IsExport s.db day bytes) := by
  unfold Rolled at hrolled
  cases hrolls : rollsOver env s.daily with
  | none =>
      rw [hrolls] at hrolled
      subst hrolled
      refine hs.completed day hday fun hcurrent => ?_
      rcases hother with hnot | hne
      · exact hnot hcurrent
      -- The current file of another day would have been renamed.
      · have hsome : rollsOver env s.daily = some day := by
          unfold rollsOver
          rw [hcurrent.2]
          exact if_pos ⟨by rw [hnow]; exact hne, hcurrent.1⟩
        rw [hrolls] at hsome
        exact absurd hsome (by simp only [reduceCtorEq, not_false_eq_true])
  | some previous =>
      rw [hrolls] at hrolled
      rcases rollsOver_cases env s.daily previous hrolls with ⟨hmarker, hne, -⟩
      change renameCurrent previous s.daily = some rolled at hrolled
      rw [renameCurrent, Option.map_eq_some_iff] at hrolled
      rcases hrolled with ⟨bytes, hbytes, rfl⟩
      rcases hs.current bytes hbytes with ⟨marked, hmarked, -, hle, hexport⟩
      rw [hmarker, Option.some.injEq] at hmarked
      subst hmarked
      rw [hnow] at hne
      by_cases heq : day = previous
      · subst heq
        refine ⟨Nat.lt_of_le_of_ne hle hne, fun hretained => ⟨bytes, AList.lookup_insert _, ?_⟩⟩
        exact hexport (hprompt day hrolls) hretained
      · have hcompleted := hs.completed day hday fun hcurrent => heq <| by
          rw [hmarker] at hcurrent
          exact (Option.some.inj hcurrent.2).symm
        refine ⟨hcompleted.1, fun hretained => ?_⟩
        rcases hcompleted.2 hretained with ⟨contents, hcontents, hisExport⟩
        exact ⟨contents, by rw [AList.lookup_insert_ne heq]; exact hcontents, hisExport⟩

/-- A run that is stopped behind the rename. -/
theorem complete_rolled (s : Loop) (env : DailyEnv) (hnow : env.now = s.now) (rolled : Daily)
    (hs : Complete s) (hrolled : Rolled env s.daily rolled)
    (hprompt : ∀ previous, rollsOver env s.daily = some previous → ¬ s.changed previous) :
    Complete { s with daily := rolled } := by
  rcases rolled_marker env s.daily rolled hrolled with ⟨hmarker, hbackfilled⟩
  refine ⟨hs.settled, hbackfilled.trans hs.backfilled, hs.clock, hs.whole, fun bytes hbytes => ?_,
    fun day hday hother => ?_, fun day hday => ?_⟩
  · unfold Rolled at hrolled
    split at hrolled
    · subst hrolled
      exact hs.current bytes hbytes
    · rw [renameCurrent, Option.map_eq_some_iff] at hrolled
      rcases hrolled with ⟨contents, -, rfl⟩
      exact absurd hbytes (by simp only [reduceCtorEq, not_false_eq_true])
  · exact completed_of_rolled s env hnow rolled hs hrolled hprompt day hday (Or.inl hother)
  · simp only [hmarker]
    exact hs.finished day hday

/-- The export that a run puts in place is that of its day. -/
theorem isExport_command (db : Db) (day : Nat) (h : (exportDayCommand db day).exit = 0) :
    IsExport db day (exportDayCommand db day).output := by
  unfold exportDayCommand at h ⊢
  by_cases haccepted : 0 ≤ (day : Int) ∧ AcceptedDay (day : Int).toNat
  · rw [if_pos haccepted] at h ⊢
    exact ⟨h, rfl⟩
  · rw [if_neg haccepted] at h
    exact absurd h (by decide)

-- A day that is retained is not behind the cutoff.
theorem cutoffOf_le (now clock day : Nat) (hclock : now ≤ clock)
    (hretained : clock ≤ day + retentionSeconds) : cutoffOf now ≤ day := by
  have hle : dayOf now ≤ now := dayOf_le now
  unfold retentionSeconds at hretained
  unfold cutoffOf
  omega

/-- A run that puts its current file in place. -/
theorem complete_placed (s : Loop) (readDir : ReadDir) (commands : Nat) (hs : Complete s)
    (hprompt : ∀ previous, rollsOver (s.env readDir) s.daily = some previous → ¬ s.changed previous)
    (hplaced : ((Script.seq (rollover (s.env readDir)) (placeCurrent (s.env readDir))).run commands
      s.daily).2 ≠ none)
    (hplacing : Placing (s.env readDir) s.daily ((publish (s.env readDir)).run commands s.daily).1)
    (hmarker : ((publish (s.env readDir)).run commands s.daily).1.marker = some (dayOf s.now)) :
    Complete (s.after (.publish readDir commands)) := by
  rcases hplacing.rolled with ⟨rolled, hrolled, hbackfilled, hlookup⟩
  refine ⟨hs.settled, ?_, hs.clock, ?_, ?_, ?_, ?_⟩
  · exact (hbackfilled.trans (rolled_marker _ _ _ hrolled).2).trans hs.backfilled
  · rintro day (hday | ⟨rfl, -⟩)
    · exact hs.whole day hday
    · exact Nat.mul_mod_left _ _
  · intro bytes hbytes
    refine ⟨dayOf s.now, hmarker, Or.inr ⟨rfl, hplaced⟩, Nat.le_refl _, fun _ _ => ?_⟩
    rw [← Option.some.inj (hplacing.current.symm.trans hbytes)]
    exact isExport_command s.db _ hplacing.exit
  · intro day hday hother
    have hne : day ≠ dayOf s.now := by
      rintro rfl
      exact hother ⟨Option.isSome_iff_exists.mpr ⟨_, hplacing.current⟩, hmarker⟩
    have hpublished : s.published day := hday.resolve_right fun h => hne h.1
    rcases completed_of_rolled s (s.env readDir) rfl rolled hs hrolled hprompt day hpublished
      (Or.inr hne) with ⟨hover, hfile⟩
    refine ⟨hover, fun hretained => ?_⟩
    rcases hfile hretained with ⟨bytes, hbytes, hexport⟩
    have hkept : cutoffOf (s.env readDir).now ≤ day := cutoffOf_le _ _ _ hs.clock hretained
    exact ⟨bytes, (hlookup day hkept).trans hbytes, hexport⟩
  · rintro day (hday | ⟨rfl, -⟩)
    · exact ⟨(hs.finished day hday).1, _, hmarker, (hs.finished day hday).1⟩
    · exact ⟨Nat.le_refl _, _, hmarker, Nat.le_refl _⟩

theorem complete_publish (s : Loop) (readDir : ReadDir) (commands : Nat) (hs : Complete s)
    (hprompt : Prompt s (.publish readDir commands)) :
    Complete (s.after (.publish readDir commands)) := by
  rcases hprompt with ⟨hnot, hprompt⟩
  rcases publish_cases (s.env readDir) commands s.daily hnot with
    ⟨hstop, hunfinished, hleft⟩ | ⟨hplaced, hplacing, hmarker⟩
  · -- The run does not get to the current file, and nothing of the past changes.
    have hpast : s.after (.publish readDir commands) =
        { s with daily := ((publish (s.env readDir)).run commands s.daily).1 } := by
      unfold Loop.after Loop.Places Loop.Finishes
      simp only [hstop, hunfinished, ne_eq, not_true_eq_false, and_false, or_false,
        not_false_eq_true, and_true]
      rfl
    rw [hpast]
    rcases hleft with hsame | hrolled
    · rw [hsame]
      exact hs
    · rcases Nat.eq_zero_or_pos commands with rfl | hpos
      · rw [(Script.run_zero _ _).1]
        exact hs
      · exact complete_rolled s (s.env readDir) rfl _ hs hrolled (hprompt hpos)
  · -- The run has a first command, so it is asked to be prompt.
    have hpos : 0 < commands := by
      rcases Nat.eq_zero_or_pos commands with rfl | hpos
      · refine absurd ?_ hplaced
        simp only [rollover, Script.run]
        cases rollsOver (s.env readDir) s.daily with
        | none => rfl
        | some previous => rfl
      · exact hpos
    exact complete_placed s readDir commands hs (hprompt hpos) hplaced hplacing hmarker

/-- Events keep the invariant. -/
theorem complete_after (s : Loop) (event : LoopEvent) (hs : Complete s)
    (hok : Timely s event ∧ Prompt s event) : Complete (s.after event) := by
  cases event with
  | begin now => exact complete_begin s now hs hok.1
  | command c => exact complete_command s c hs hok.1
  | backfill readDir commands =>
      exact complete_sameFiles s _ hs (Ends.state _
        (backfill_done (s.env readDir) s.daily hs.backfilled s.daily rfl commands))
  | publish readDir commands => exact complete_publish s readDir commands hs hok.2

/-! ### Runs of the loop -/

theorem complete_of_begins (s : Loop) (hs : Begins s) : Complete s where
  settled := hs.settled
  backfilled := hs.backfilled
  clock := hs.clock
  whole := fun day hday => absurd hday (hs.published day)
  current := fun bytes hbytes => absurd hbytes
    (by rw [hs.current]; simp only [reduceCtorEq, not_false_eq_true])
  completed := fun day hday => absurd hday (hs.published day)
  finished := fun day hday => absurd hday (hs.finished day)

/-- The marker names the last day on which a run was completed, or a later
    one, so an earlier day is not that of the current file. -/
theorem daysComplete_of_complete (s : Loop) (hs : Complete s) : DaysComplete s := by
  intro day later hday hlater hlt hretained
  rcases (hs.finished later hlater).2 with ⟨marker, hmarker, hle⟩
  refine (hs.completed day hday fun hcurrent => ?_).2 hretained
  rw [hmarker, Option.some.injEq] at hcurrent
  omega

/-- Completed days are exported with all their rows in every state that the
    loop leads to, if no run is killed between its renames and none renames
    the current file of a day that has changed since. -/
theorem daysComplete_of_meets (s : Loop) (hs : Begins s) (events : List LoopEvent)
    (h : Meets Loop.after (fun s event => Timely s event ∧ Prompt s event) s events) :
    DaysComplete (events.foldl Loop.after s) :=
  daysComplete_of_complete _
    (invariant_of_meets _ _ Complete complete_after s events (complete_of_begins s hs) h)

/-- A loop that begins with the database of one client and no current file. -/
def phoneLoop : Loop where
  db := runCommand emptyDb
    (.addClient (ascii "aa:bb:cc:dd:ee:01") (ascii "10.0.0.9") (ascii "Phone") 86400 false)
  daily := { Daily.empty with backfilled := true }
  now := 0
  clock := 0
  published := fun _ => False
  changed := fun _ => False
  finished := fun _ => False

theorem begins_phoneLoop : Begins phoneLoop where
  settled := settled_runCommand emptyDb settled_empty
    (.addClient (ascii "aa:bb:cc:dd:ee:01") (ascii "10.0.0.9") (ascii "Phone") 86400 false)
  backfilled := rfl
  current := rfl
  published := fun _ h => h
  finished := fun _ h => h
  clock := Nat.le_refl _

/-- A round, and a publishing run of so many commands. -/
def iteration (now commands : Nat) : List LoopEvent :=
  [.begin now, .command (.tick { quietRound with now }), .publish plainReadDir commands]

theorem daysComplete_two_days :
    DaysComplete ((iteration 90000 9 ++ iteration 176400 9).foldl Loop.after phoneLoop) := by
  refine daysComplete_of_meets _ begins_phoneLoop _ ⟨⟨Nat.zero_le _, trivial⟩,
    ⟨Nat.le_refl _, trivial⟩, ⟨trivial, fun h => ?_, fun _ previous h => ?_⟩,
    ⟨show 90000 ≤ 176400 by decide, trivial⟩, ⟨Nat.le_refl _, trivial⟩,
    ⟨trivial, fun h => ?_, fun _ previous h hchanged => ?_⟩, trivial⟩
  · exact absurd h.1 (by decide +kernel)
  · exact absurd h (by simp only [rollsOver, Loop.after, phoneLoop, Daily.empty, reduceCtorEq,
      not_false_eq_true])
  · exact absurd h.1 (by decide +kernel)
  · -- The first day was published after its round.
    have hprevious : rollsOver (Loop.env (((iteration 90000 9 ++ [LoopEvent.begin 176400,
        .command (.tick { quietRound with now := 176400 })]).foldl Loop.after phoneLoop))
        plainReadDir) ((iteration 90000 9 ++ [LoopEvent.begin 176400,
        .command (.tick { quietRound with now := 176400 })]).foldl Loop.after phoneLoop).daily
        = some 86400 := by decide +kernel
    have heq : previous = 86400 := Option.some.inj (h.symm.trans hprevious)
    subst heq
    rcases hchanged with ⟨-, hnot⟩ | hrecords
    · exact hnot ⟨rfl, fun hnone => absurd hnone (by decide +kernel)⟩
    · exact absurd hrecords.1 (by decide)

/-- The last round of the first day is not published, and the file of that day
    misses it. -/
theorem daysComplete_unpublished_round :
    ¬ DaysComplete ((iteration 90000 9 ++ iteration 90060 0 ++ iteration 176400 9).foldl Loop.after
      phoneLoop) := by
  have hdiffers : ((iteration 90000 9 ++ iteration 90060 0 ++ iteration 176400 9).foldl Loop.after
      phoneLoop).daily.dated.lookup 86400 ≠
      some (exportDay ((iteration 90000 9 ++ iteration 90060 0 ++ iteration 176400 9).foldl
        Loop.after phoneLoop).db 86400).output := by decide +kernel
  have hpublished : ((iteration 90000 9 ++ iteration 90060 0 ++ iteration 176400 9).foldl Loop.after
      phoneLoop).published 86400 :=
    Or.inl (Or.inl (Or.inr ⟨rfl, fun hnone => absurd hnone (by decide +kernel)⟩))
  have hfinished : ((iteration 90000 9 ++ iteration 90060 0 ++ iteration 176400 9).foldl Loop.after
      phoneLoop).finished 172800 :=
    Or.inr ⟨rfl, fun hnone => absurd hnone (by decide +kernel)⟩
  have hclock : 176400 ≤ 86400 + retentionSeconds := by decide
  intro h
  rcases h 86400 172800 hpublished hfinished (by decide) hclock with ⟨bytes, hbytes, -, hexport⟩
  exact hdiffers (by rw [hbytes, hexport])

end Zd1200
