import Zd1200.Lib.Directory
import Zd1200.Lib.Script
import Zd1200.Export.Day

/-!
# Publishing Days

The script `ping-daily-publish.sh` and the manifest it publishes.

The directory holds a file for each completed day, the file of the current
day and a marker that names it. A publishing run renames the current file
first, if the marker names another day, then exports its own day and renames
the result to the current file and the new marker to the marker. Files that
are too old are deleted and the manifest is written. A backfilling run
exports the thirty days before its own, once.

Files are compressed on the way; here they are what they decompress to. The
temporary files carry the number of the process in their names and are
written by a run before it reads them, so they are values here, and the
commands that write nothing else are left out.

## Main definitions

* `Daily`: The directory and the manifest.
* `publish`, `backfill`: The two modes of the script.
* `dailyManifest`: The periods of a manifest.
-/

namespace Zd1200

/-- `now / 86400 * 86400`. -/
def dayOf (now : Nat) : Nat := now / 86400 * 86400

/-- The day thirty days before. -/
def cutoffOf (now : Nat) : Int := dayOf now - 30 * 86400

/-- A period of the manifest; an immutable one has a file of its own, the
    other one is in the current file. -/
structure Period where
  start : Nat
  stop : Nat
  immutable : Bool
  deriving DecidableEq, Repr

/-- The directory of the days and the manifest beside it. -/
structure Daily where
  dated : AList fun _ : Nat => Bytes
  current : Option Bytes
  marker : Option Nat
  backfilled : Bool
  manifest : Option (List Period)

/-- The empty directory. -/
def Daily.empty : Daily := ⟨∅, none, none, false, none⟩

/-- The order in which a directory is read. -/
structure ReadDir where
  list : List Nat → List Nat
  perm : ∀ names, (list names).Perm names

/-- What a run of the script works with. -/
structure DailyEnv where
  db : Db
  now : Nat
  readDir : ReadDir

/-- A period of a completed day. -/
def datedPeriod (start : Nat) : Period := { start, stop := start + 86400, immutable := true }

/-- The current period, if its file is there and the marker names a day. -/
def currentPeriod (s : Daily) : List Period :=
  match s.current, s.marker with
  | some _, some start =>
      if start ≠ 0 ∧ start ≤ maxUInt32 then [{ start, stop := start + 86400, immutable := false }]
      else []
  | _, _ => []

/-- `daily_manifest`: at most 64 completed days, in order, and the current
    one. -/
def dailyManifest (readDir : ReadDir) (s : Daily) : List Period :=
  -- The 64 periods are the first that the directory gives, not the earliest.
  let starts := ((readDir.list s.dated.keys).filter fun start => start ≤ maxUInt32).take 64
  (orderBy (fun start => start) starts).map datedPeriod ++ currentPeriod s

/-- `mv current ping-previous.bin.gz`. -/
def renameCurrent (previous : Nat) (s : Daily) : Option Daily :=
  s.current.map fun bytes => { s with dated := s.dated.insert previous bytes, current := none }

/-- The day that a publishing run completes: that of the marker, if it is
    another day and the current file is there. -/
def rollsOver (env : DailyEnv) (s : Daily) : Option Nat :=
  match s.marker with
  | some previous =>
      if previous ≠ dayOf env.now ∧ s.current.isSome then some previous else none
  | none => none

theorem rollsOver_cases (env : DailyEnv) (s : Daily) (previous : Nat)
    (h : rollsOver env s = some previous) :
    s.marker = some previous ∧ previous ≠ dayOf env.now ∧ s.current.isSome := by
  unfold rollsOver at h
  split at h
  · next other hother =>
    split at h
    · next hand =>
      rw [← Option.some.inj h]
      exact ⟨hother, hand⟩
    · exact absurd h (by simp only [reduceCtorEq, not_false_eq_true])
  · exact absurd h (by simp only [reduceCtorEq, not_false_eq_true])

/-- The completed day's file. -/
def rollover (env : DailyEnv) : Script Daily :=
  .dyn fun s =>
    match rollsOver env s with
    | some previous => .cmd (renameCurrent previous)
    | none => .skip

/-- The export of the day, up to the new current file. -/
def placeCurrent (env : DailyEnv) : Script Daily :=
  let outcome := exportDayCommand env.db (dayOf env.now)
  .seq (.require (outcome.exit = 0)) (.act fun s => { s with current := some outcome.output })

/-- `mv marker_tmp marker`. -/
def placeMarker (env : DailyEnv) : Script Daily :=
  .act fun s => { s with marker := some (dayOf env.now) }

/-- The files that are too old. -/
def pruneDated (env : DailyEnv) : Script Daily :=
  .dyn fun s =>
    .forEach s.dated.keys fun value =>
      if (value : Int) < cutoffOf env.now then .act fun s => { s with dated := s.dated.erase value }
      else .skip

def publishManifest (env : DailyEnv) : Script Daily :=
  .act fun s => { s with manifest := some (dailyManifest env.readDir s) }

/-- `ping-daily-publish NOW`. -/
def publish (env : DailyEnv) : Script Daily :=
  -- Between the second and the third rename the file and the marker may differ.
  .seq (.seq (rollover env) (placeCurrent env))
    (.seq (placeMarker env) (.seq (pruneDated env) (publishManifest env)))

/-- One day of the backfill. A file without observations is not kept. -/
def backfillDay (env : DailyEnv) (historical : Int) : Script Daily :=
  let outcome := exportDayCommand env.db historical
  .seq (.require (outcome.exit = 0))
    (.act fun s =>
      { s with
        dated :=
          -- A header alone is a day without rounds.
          if 640 < outcome.output.length then s.dated.insert historical.toNat outcome.output
          else s.dated.erase historical.toNat })

/-- The days before the one of the run. -/
def historicalDays (env : DailyEnv) : List Int :=
  (List.range 30).map fun i => cutoffOf env.now + 86400 * i

/-- `ping-daily-publish backfill NOW`. -/
def backfill (env : DailyEnv) : Script Daily :=
  .seq
    (.ifThen (fun s => !s.backfilled)
      (.seq (.forEach (historicalDays env) (backfillDay env))
        (.act fun s => { s with backfilled := true })))
    (publishManifest env)

end Zd1200
