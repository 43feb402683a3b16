import Zd1200.Snapshot.Publish

/-!
# Archives of Snapshots

What the page looks for and where, and what runs do to an archive.

The page looks for a listed time in the bundle that the index names, and for
its three captures otherwise. Both can go wrong. While a day is bundled its
captures are removed before the index names the bundle, and a run that is
killed in between leaves an index of captures that are gone; later runs leave
the day alone, because it has a bundle. And a time that is listed for a day
that has been bundled already is not in the bundle that the index names.

## Main definitions

* `snapshotText`: Where the page looks for a capture.
* `Archive`, `SnapshotRun`: Runs, with what was collected.
* `Retrievable`: Listed times of the last thirty days have their captures.
* `OnlyBundledRemoved`: What a run may remove.
* `Orderly`: A run in which nothing goes wrong.

## Theorems

* `Stays.kept`, `Stays.shown`: Captures that stay where they are looked for.
-/

namespace Zd1200

/-! ### The page -/

/-- `snapshotBundles`: the bundle of a time, from the indexes that are
    loaded. -/
def snapshotBundles (values : List DayIndex) (time : Nat) : Option Nat :=
  (values.reverse.find? fun value =>
    value.bundle.isSome && value.snapshots.contains time).bind (·.bundle)

/-- `snapshotText`: a capture from the bundle of its time, if it has one, and
    from its own file otherwise. -/
def snapshotText (s : Snapshots) (values : List DayIndex) (time : Nat) (kind : CaptureKind) :
    Option Bytes :=
  match snapshotBundles values time with
  | some day =>
      ((s.bundles.lookup day).bind snapshotBundle).bind fun files => lastRecord files (time, kind)
  | none => s.captures.lookup (time, kind)

/-- `loadSnapshotRange`: the indexes of the periods that meet a range. -/
def loadSnapshotRange (s : Snapshots) (start stop : Nat) : Option (List DayIndex) :=
  ((s.manifest.getD []).filter fun p => start < p.stop ∧ p.start < stop).mapM fun p =>
    s.published.lookup p.day

/-! ### Runs -/

/-- The files, the captures that were ever collected and the latest reading of
    the clock. -/
structure Archive where
  files : Snapshots
  collected : List (CaptureName × Bytes)
  latest : Nat

/-- A collection or a run of one of the programs, killed after some commands
    if it has more. -/
inductive SnapshotRun
  | collect (timestamp : Nat) (answer : CaptureKind → Option Bytes) (commands : Nat)
  | add (env : IndexEnv) (timestamp : Nat) (commands : Nat)
  | rebuild (env : IndexEnv) (commands : Nat)
  | prune (now : Nat) (order : FileOrder (CaptureName × Bool)) (commands : Nat)

namespace SnapshotRun

/-- The run's reading of the clock. -/
def clock : SnapshotRun → Option Nat
  | .collect .. => none
  | .add env .. => some env.now
  | .rebuild env _ => some env.now
  | .prune now .. => some now

/-- The captures that the run collects. -/
def answers : SnapshotRun → List (CaptureName × Bytes)
  | .collect timestamp answer _ =>
      CaptureKind.all.filterMap fun kind => (answer kind).map fun body => ((timestamp, kind), body)
  | _ => []

end SnapshotRun

/-- The files that a run leaves. -/
def Snapshots.after (s : Snapshots) : SnapshotRun → Snapshots
  | .collect timestamp answer commands => ((collect timestamp answer).run commands s).1
  | .add env timestamp commands => ((addSnapshot env timestamp).run commands s).1
  | .rebuild env commands => ((rebuildIndex env).run commands s).1
  | .prune now order commands => ((pruneSnapshots now order).run commands s).1

/-- What a run leaves. -/
def Archive.after (a : Archive) (run : SnapshotRun) : Archive where
  files := a.files.after run
  collected := a.collected ++ run.answers
  latest := max a.latest (run.clock.getD 0)

/-- A time of the last thirty days. -/
def Young (latest time : Nat) : Prop := latest ≤ time + 30 * 86400

instance (latest time : Nat) : Decidable (Young latest time) := inferInstanceAs (Decidable (_ ≤ _))

/-- Whatever indexes are loaded, the page finds the captures of each listed
    time of the last thirty days, as they were collected. -/
def Retrievable (a : Archive) : Prop :=
  ∀ values : List DayIndex,
    (∀ value ∈ values, ∃ day, a.files.published.lookup day = some value) →
    ∀ value ∈ values, ∀ time ∈ value.snapshots, Young a.latest time →
      ∀ kind, ∃ body, snapshotText a.files values time kind = some body ∧
        ((time, kind), body) ∈ a.collected

/-- The bundle of the time's day has its three captures. -/
def InBundle (s : Snapshots) (time : Nat) : Prop :=
  ∃ bytes records, s.bundles.lookup (time / 86400) = some bytes ∧
    snapshotBundle bytes = some records ∧ ∀ kind, (lastRecord records (time, kind)).isSome

/-- A capture that a run removes is older than thirty days or in the bundle of
    its day. -/
def OnlyBundledRemoved (a : Archive) (run : SnapshotRun) : Prop :=
  ∀ time kind, (a.files.captures.lookup (time, kind)).isSome →
    ((a.after run).files.captures.lookup (time, kind)).isSome ∨
      (∃ now ∈ run.clock, time + 30 * 86400 < now) ∨ InBundle (a.after run).files time

/-- The captures of a time are where an index that is published now has the
    page look for them. -/
def Kept (s : Snapshots) (time : Nat) : Prop :=
  if (s.bundles.lookup (time / 86400)).isSome then InBundle s time else hasCaptures s time = true

/-- The bundling of a day is stopped after the first removal of a listed time
    and before the index of the day is published. -/
def CutsListed (latest active day : Nat) (s : Snapshots) (commands : Nat) : Prop :=
  ∃ times index, dueTimes active day s = some times ∧ s.published.lookup day = some index ∧
    commands ≤ times.length + 1 ∧
      ∃ time ∈ times.take (commands - 1), time ∈ index.snapshots ∧ Young latest time

-- Both lookups have at most one result.
theorem cutsListed_iff (latest active day : Nat) (s : Snapshots) (commands : Nat) :
    CutsListed latest active day s commands ↔
      ∃ times ∈ (dueTimes active day s).toList, ∃ index ∈ (s.published.lookup day).toList,
        commands ≤ times.length + 1 ∧
          ∃ time ∈ times.take (commands - 1), time ∈ index.snapshots ∧ Young latest time := by
  simp only [CutsListed, Option.mem_toList, exists_and_left]

instance (latest active day : Nat) (s : Snapshots) (commands : Nat) :
    Decidable (CutsListed latest active day s commands) :=
  decidable_of_iff _ (cutsListed_iff latest active day s commands).symm

/-- The run is killed while it bundles a day, where `CutsListed` says. -/
def KilledWhileRemoving (latest : Nat) (s : Snapshots) : SnapshotRun → Prop
  | .add env timestamp commands =>
      ∃ s' left, (addToDay timestamp).run commands s = (s', some left) ∧
        StopsIn (bundleDay (timestamp / 86400))
          (fun day t k => CutsListed latest (timestamp / 86400) day t k)
          (env.order.list s'.timestamps.keys) s' left
  | _ => False

instance (latest : Nat) (s : Snapshots) : ∀ run, Decidable (KilledWhileRemoving latest s run)
  | .add env timestamp commands =>
      match hrun : (addToDay timestamp).run commands s with
      | (s', some left) =>
          decidable_of_iff (StopsIn (bundleDay (timestamp / 86400))
            (fun day t k => CutsListed latest (timestamp / 86400) day t k)
            (env.order.list s'.timestamps.keys) s' left) <| by
              rw [KilledWhileRemoving, hrun]
              simp only [Prod.mk.injEq, Option.some.injEq, and_assoc, exists_and_left,
                exists_eq_left']
      | (s', none) => isFalse <| by
          rw [KilledWhileRemoving, hrun]
          simp only [Prod.mk.injEq, reduceCtorEq, and_false, false_and, exists_false,
            not_false_eq_true]
  | .collect .. => isFalse not_false
  | .rebuild .. => isFalse not_false
  | .prune .. => isFalse not_false

/-- The times that a run lists. -/
def listedTimes (s : Snapshots) : SnapshotRun → List Nat
  | .add _ timestamp commands => if commands = 0 then [] else [timestamp]
  | .rebuild _ commands => if commands = 0 ∨ s.migrated then [] else snapshotTimes s
  | _ => []

/-- The run lists times only where the page will find them, and it is not
    killed while it removes listed captures. -/
structure Orderly (a : Archive) (run : SnapshotRun) : Prop where
  kept : ∀ time ∈ listedTimes a.files run, Young (max a.latest (run.clock.getD 0)) time →
    Kept a.files time
  whole : ¬ KilledWhileRemoving (max a.latest (run.clock.getD 0)) a.files run

/-! ### Where captures are looked for -/

/-- The page finds a time that this index lists. -/
def Shown (s : Snapshots) (index : DayIndex) (time : Nat) : Prop :=
  if index.bundle.isSome then InBundle s time else hasCaptures s time = true

-- All three captures are there.
theorem hasCaptures_iff (s : Snapshots) (time : Nat) :
    hasCaptures s time = true ↔ ∀ kind, (s.captures.lookup (time, kind)).isSome := by
  rw [hasCaptures, List.all_eq_true]
  exact ⟨fun h kind => h kind (CaptureKind.mem_all kind), fun h kind _ => h kind⟩

-- What can be published is shown by the index that is published.
theorem shown_of_kept (s : Snapshots) (index : DayIndex) (time : Nat)
    (hindex : index.bundle.isSome = (s.bundles.lookup (time / 86400)).isSome) (h : Kept s time) :
    Shown s index time := by
  unfold Shown
  rw [hindex]
  exact h

theorem inBundle_congr (s t : Snapshots) (time : Nat)
    (hbundle : t.bundles.lookup (time / 86400) = s.bundles.lookup (time / 86400))
    (h : InBundle s time) : InBundle t time := by
  rcases h with ⟨bytes, records, hbytes, hrest⟩
  exact ⟨bytes, records, hbundle.trans hbytes, hrest⟩

/-- Captures stay where they are looked for while the bundle of their day stays
    and they are not removed. -/
structure Stays (s t : Snapshots) (time : Nat) : Prop where
  bundle : t.bundles.lookup (time / 86400) = s.bundles.lookup (time / 86400)
  captures : hasCaptures s time = true → hasCaptures t time = true

theorem Stays.kept (s t : Snapshots) (time : Nat) (hstays : Stays s t time) (h : Kept s time) :
    Kept t time := by
  unfold Kept at h ⊢
  rw [hstays.bundle]
  split
  · next hsome =>
    rw [if_pos hsome] at h
    exact inBundle_congr s t time hstays.bundle h
  · next hnone =>
    rw [if_neg hnone] at h
    exact hstays.captures h

theorem Stays.shown (s t : Snapshots) (index : DayIndex) (time : Nat) (hstays : Stays s t time)
    (h : Shown s index time) : Shown t index time := by
  unfold Shown at h ⊢
  split
  · next hsome =>
    rw [if_pos hsome] at h
    exact inBundle_congr s t time hstays.bundle h
  · next hnone =>
    rw [if_neg hnone] at h
    exact hstays.captures h

end Zd1200
