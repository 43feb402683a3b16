import Zd1200.Lib.Directory
import Zd1200.Lib.Script
import Zd1200.Monitor.Database
import Zd1200.Snapshot.Bundle

/-!
# Publishing Snapshots

The scripts `network-snapshot-collect.sh` and `snapshot-index-publish.sh`,
and `snapshot-times` and `prune-snapshots` of the monitor.

A capture is a compressed file that is named by its time and its type. The
times of a day are listed in a file of their own, from which the index of the
day is published for the page. When a day is completed, its captures are
moved into a bundle, in four steps: the bundle is put in place, the captures
are removed, one time after the other, and the index is published again, now
with the name of the bundle. A day that has a bundle is left alone from then
on.

Compressed files are what they decompress to. Temporary files carry the
number of the process in their names and are written by a run before it reads
them, so they are values here, and the commands that write nothing else or
only set a mode are left out. A command that fails ends a script, just as a
kill before it does.

## Main definitions

* `Snapshots`: The captures, bundles, lists and indexes.
* `collect`: `network-snapshot-collect TIMESTAMP`.
* `addSnapshot`, `rebuildIndex`: The two modes of the index script.
* `pruneSnapshots`: `prune-snapshots` of the monitor.
-/

namespace Zd1200

/-- The published index of a day. It names the bundle of a day, if any. -/
structure DayIndex where
  bundle : Option Nat
  snapshots : List Nat
  deriving DecidableEq, Repr

/-- A period of the manifest; its file is the index of the day. -/
structure SnapshotPeriod where
  start : Nat
  stop : Nat
  count : Nat
  day : Nat
  deriving DecidableEq, Repr

/-- The directories of the captures and of the indexes, and the manifest. An
    earlier version has left captures that are not compressed, and a file
    marks that their times have been listed. -/
structure Snapshots where
  captures : AList fun _ : CaptureName => Bytes
  uncompressed : List CaptureName
  bundles : AList fun _ : Nat => Bytes
  timestamps : AList fun _ : Nat => List Nat
  published : AList fun _ : Nat => DayIndex
  migrated : Bool
  manifest : Option (List SnapshotPeriod)

/-- The empty directories. -/
def Snapshots.empty : Snapshots := ⟨∅, [], ∅, ∅, ∅, false, none⟩

/-- An order in which files are read. -/
structure FileOrder (α : Type) where
  list : List α → List α
  perm : ∀ files, (list files).Perm files

/-- What a run of the index script works with. -/
structure IndexEnv where
  now : Nat
  order : FileOrder Nat

/-! ### Collections -/

/-- `collect kind`: the answer of the controller, without key material, if
    there is one. -/
def collectKind (timestamp : Nat) (answer : CaptureKind → Option Bytes) (kind : CaptureKind) :
    Script Snapshots :=
  .cmd fun s =>
    (answer kind).map fun body => { s with captures := s.captures.insert (timestamp, kind) body }

def collect (timestamp : Nat) (answer : CaptureKind → Option Bytes) : Script Snapshots :=
  .forEach CaptureKind.all (collectKind timestamp answer)

/-! ### The monitor -/

/-- `strtol` of the digits in front of a name. -/
def longOf (timestamp : Nat) : Nat := min timestamp (2 ^ 31 - 1)

/-- `complete_snapshot(time, ".gz")`. -/
def hasCaptures (s : Snapshots) (timestamp : Nat) : Bool :=
  CaptureKind.all.all fun kind => (s.captures.lookup (timestamp, kind)).isSome

/-- `complete_snapshot(time, "")`. -/
def hasUncompressed (s : Snapshots) (timestamp : Nat) : Bool :=
  CaptureKind.all.all fun kind => (timestamp, kind) ∈ s.uncompressed

/-- `snapshot-times`: the times of complete snapshots, in order. -/
def snapshotTimes (s : Snapshots) : List Nat :=
  let views := (s.captures.keys ++ s.uncompressed).filter fun name => name.2 = .ap
  -- Several names can stand for one time, which is cut off at 31 bits.
  let times := (views.map fun name => longOf name.1).filter fun time =>
    0 < time ∧ (hasCaptures s time ∨ hasUncompressed s time)
  orderBy (fun time => time) times.dedup

/-- `t>0&&t<cut` for a name, with 32 bits. -/
def isOld (now : Nat) (timestamp : Nat) : Bool :=
  0 < timestamp ∧ (longOf timestamp : Int) < Int.bmod (now - 2592000) (2 ^ 32)

/-- The names of captures, compressed or not. -/
def captureFiles (s : Snapshots) : List (CaptureName × Bool) :=
  s.captures.keys.map (·, true) ++ s.uncompressed.map (·, false)

def unlinkCapture (file : CaptureName × Bool) (s : Snapshots) : Snapshots :=
  if file.2 then { s with captures := s.captures.erase file.1 }
  else { s with uncompressed := s.uncompressed.filter fun name => name ≠ file.1 }

/-- `prune-snapshots`. -/
def pruneSnapshots (now : Nat) (order : FileOrder (CaptureName × Bool)) : Script Snapshots :=
  .dyn fun s =>
    .forEach (order.list (captureFiles s)) fun file =>
      if isOld now file.1.1 then .act (unlinkCapture file) else .skip

/-! ### Indexes -/

/-- `publish_day`. -/
def publishDay (day : Nat) : Script Snapshots :=
  .dyn fun s =>
    match s.timestamps.lookup day with
    | none => .skip
    | some times =>
        .act fun s =>
          { s with
            published := s.published.insert day
              { bundle := if (s.bundles.lookup day).isSome then some day else none
                snapshots := times } }

/-- `publish_manifest`. -/
def publishSnapshotManifest (env : IndexEnv) : Script Snapshots :=
  .act fun s =>
    { s with
      manifest := some ((env.order.list s.timestamps.keys).map fun day =>
        { start := day * 86400
          stop := (day + 1) * 86400
          count := ((s.timestamps.lookup day).getD []).length
          day }) }

/-- A completed day without a bundle whose captures are all there. -/
def dueTimes (active day : Nat) (s : Snapshots) : Option (List Nat) :=
  match s.timestamps.lookup day with
  | none => none
  | some times =>
      if day < active ∧ s.bundles.lookup day = none ∧ times.all (hasCaptures s) then some times
      else none

/-- The records of a bundle. -/
def bundleRecords (s : Snapshots) (times : List Nat) : List (CaptureName × Bytes) :=
  times.flatMap fun time =>
    CaptureKind.all.filterMap fun kind =>
      (s.captures.lookup (time, kind)).map fun body => ((time, kind), body)

/-- `mv -f "$archive" "$destination"`. -/
def placeBundle (day : Nat) (times : List Nat) (s : Snapshots) : Snapshots :=
  { s with bundles := s.bundles.insert day (bundle (bundleRecords s times)) }

/-- `rm -f` of the three captures of a time. -/
def removeCaptures (time : Nat) (s : Snapshots) : Snapshots :=
  { s with
    captures := ((s.captures.erase (time, .ap)).erase (time, .client)).erase (time, .mesh) }

/-- The bundle of a day, if it is due. -/
def bundleDay (active day : Nat) : Script Snapshots :=
  .dyn fun s =>
    match dueTimes active day s with
    | none => .skip
    | some times =>
        -- The bundle is in its place before the first capture is deleted.
        .seq (.act (placeBundle day times))
          (.seq (.forEach times fun time => .act (removeCaptures time)) (publishDay day))

/-- `bundle_completed_days`. -/
def bundleCompletedDays (env : IndexEnv) (active : Nat) : Script Snapshots :=
  .dyn fun s => .forEach (env.order.list s.timestamps.keys) (bundleDay active)

/-- Thirty days before. -/
def pruneCutoff (now : Nat) : Int := now - 30 * 86400

/-- One day of `prune_index`: a day that is wholly older is dropped, one that
    is partly older loses its older times. -/
def pruneDay (now day : Nat) : Script Snapshots :=
  .dyn fun s =>
    match s.timestamps.lookup day with
    | none => .skip
    | some times =>
        if ((day + 1) * 86400 : Nat) ≤ pruneCutoff now then
          -- The index goes before the bundle that it names.
          .seq
            (.act fun s =>
              { s with timestamps := s.timestamps.erase day, published := s.published.erase day })
            (.act fun s => { s with bundles := s.bundles.erase day })
        else if (day * 86400 : Nat) < pruneCutoff now then
          .seq
            (.act fun s =>
              { s with
                timestamps := s.timestamps.insert day
                  (times.filter fun time => pruneCutoff now ≤ (time : Int)) })
            (publishDay day)
        else .skip

/-- `prune_index`. -/
def pruneIndex (env : IndexEnv) : Script Snapshots :=
  .dyn fun s => .forEach (env.order.list s.timestamps.keys) (pruneDay env.now)

/-- The list of a time's day, with the time. -/
def appendTime (time : Nat) (s : Snapshots) : Snapshots :=
  { s with
    timestamps := s.timestamps.insert (time / 86400)
      ((s.timestamps.lookup (time / 86400)).getD [] ++ [time]) }

/-- `[ "$last" = "$timestamp" ] || printf '%s\n' "$timestamp" >> "$source"`. -/
def appendUnlessLast (time : Nat) (s : Snapshots) : Snapshots :=
  if ((s.timestamps.lookup (time / 86400)).bind List.getLast?) = some time then s
  else appendTime time s

/-- `snapshot-index-publish add TIMESTAMP`, up to the index of its day. -/
def addToDay (timestamp : Nat) : Script Snapshots :=
  .seq (.act (appendUnlessLast timestamp)) (publishDay (timestamp / 86400))

/-- `snapshot-index-publish add TIMESTAMP`. -/
def addSnapshot (env : IndexEnv) (timestamp : Nat) : Script Snapshots :=
  .seq (addToDay timestamp)
    (.seq (bundleCompletedDays env (timestamp / 86400))
      -- The manifest is the last file that is written.
      (.seq (pruneIndex env) (publishSnapshotManifest env)))

/-- The times of an installation that has no lists yet. -/
def appendTimes (s : Snapshots) : Snapshots :=
  (snapshotTimes s).foldl (fun s time => appendTime time s) s

/-- `snapshot-index-publish rebuild`. -/
def rebuildIndex (env : IndexEnv) : Script Snapshots :=
  .seq
    (.ifThen (fun s => !s.migrated)
      (.seq (.act appendTimes)
        (.seq (.dyn fun s => .forEach (env.order.list s.timestamps.keys) publishDay)
          (.act fun s => { s with migrated := true }))))
    (.seq (pruneIndex env) (publishSnapshotManifest env))

end Zd1200
