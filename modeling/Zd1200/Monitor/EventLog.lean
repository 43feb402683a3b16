import Zd1200.Lib.Pages
import Zd1200.Monitor.Events

/-!
# Collecting the Event Log

`collect_events` of `network-snapshot-collect.sh`: the controller's event log
is read page by page, the newest events first, until a page has an event older
than the newest one that was stored before.

What makes that right is that all older events have been stored as well. This
is so after a run that came to its end. It is not so after a run that stored a
page and failed, or that stopped at its hundredth page: its newest events are
stored, and those behind its last page are not. The next run stops when it
gets to the newest events of that run, and the events in between are never
asked for again.

A page ends the run too if fewer than three hundred of its events were
counted. The log need not end there, since an event without a time is not
counted.

New events come in at any time, in front of all others, so that the pages
move. `page_split` is why no event is missed for that reason.

## Main definitions

* `EventWorld`: The log, the clock, the table and the stage of a run.
* `step`: What can happen next.
* `Kept`: An event is stored, unless it is old.
* `Allowed`: A step that leaves no gap.
* `Complete`: The events that a run should have stored are stored.
* `Settled`: There is nothing missing below the newest event of the table.

## Theorems

* `sound_step`: What steps preserve.
* `collected_complete`: Without such steps a run stores all events.
* `collected_gap`: A run that fails after a page leaves a gap for the next one.
-/

namespace Zd1200

/-- The variables of the script's loop. -/
structure EventRun where
  watermark : Int
  cutoff : Int
  start : Nat
  pages : Nat
  totalSeen : Nat
  totalInserted : Nat
  newest : Int
  deriving DecidableEq, Repr

/-- Why the loop ended: a page that is not full, one with old events, one with
    events that are stored already, or the hundredth one. -/
inductive Ending
  | short
  | cutoff
  | overlap
  | limit
  deriving DecidableEq, Repr

/-- Where the script is. Between two runs, also after one that failed, it is
    nowhere. -/
inductive EventStage
  | idle
  | asking (run : EventRun)
  | replied (run : EventRun) (contents : Bytes)
  | counted (run : EventRun) (result : IngestResult)
  | closing (run : EventRun) (why : Ending)
  | finished (run : EventRun) (why : Ending)
  deriving DecidableEq, Repr

/-- The controller's log, the newest event first, the clock, the table
    `zd_event`, the script, and the log as it was when the latest run began. -/
structure EventWorld where
  log : List Bytes
  now : Int
  rows : List EventRow
  stage : EventStage
  began : List Bytes
  deriving DecidableEq, Repr

/-- What can happen: an event comes in, time passes, and the script goes on or
    fails. -/
inductive EventAct
  | arrive (entry : Bytes)
  | wait (seconds : Nat)
  | begin (readable : Bool)
  | reply (contents : Bytes)
  | ingest
  | decide
  | report
  | fail
  deriving DecidableEq, Repr

def pageSize : Nat := 300

/-- The second event is no newer than the first. -/
def NotNewer (entry older : Bytes) : Prop :=
  ∀ time ∈ entryTime entry, ∀ time' ∈ entryTime older, time' ≤ time

instance (entry older : Bytes) : Decidable (NotNewer entry older) := by
  unfold NotNewer
  infer_instance

/-- What the loop does after a page. -/
def afterPage (run : EventRun) (result : IngestResult) : EventStage :=
  -- A minus sign is not among the characters that the script expects.
  if result.oldest < 0 ∨ result.newest < 0 then .idle
  else
    let run' : EventRun :=
      { run with
        newest := if run.newest = 0 then result.newest else run.newest
        totalSeen := run.totalSeen + result.count
        totalInserted := run.totalInserted + result.inserted
        pages := run.pages + 1 }
    if result.count < pageSize then .closing run' .short
    else if result.oldest ≤ run.cutoff then .closing run' .cutoff
    else if 0 < run.watermark ∧ result.oldest < run.watermark then .closing run' .overlap
    else if run.pages + 1 < 100 then .asking { run' with start := run.start + result.count }
    else .closing { run' with start := run.start + result.count } .limit

/-- The watermark as the script gets it, zero if it cannot be read. -/
def readWatermark (readable : Bool) (rows : List EventRow) : Int :=
  if readable ∧ 0 ≤ eventWatermark rows then eventWatermark rows else 0

/-- The variables at the beginning of a run. -/
def firstRun (readable : Bool) (now : Int) (rows : List EventRow) : EventRun :=
  ⟨readWatermark readable rows, now - 2592000, 0, 0, 0, 0, 0⟩

namespace EventWorld

/-- One step. The controller serves the log from an offset on. -/
def step (w : EventWorld) (act : EventAct) : Option EventWorld :=
  match act, w.stage with
  | .arrive entry, _ =>
      if ∀ older ∈ w.log, NotNewer entry older then some { w with log := entry :: w.log } else none
  | .wait seconds, _ => some { w with now := w.now + seconds }
  | .begin readable, .idle | .begin readable, .finished _ _ =>
      some { w with stage := .asking (firstRun readable w.now w.rows), began := w.log }
  | .reply contents, .asking run =>
      if Serves contents (page run.start pageSize w.log) ∧
          ascii "<ajax-response>" <:+: contents then
        some { w with stage := .replied run contents }
      else none
  | .ingest, .replied run contents =>
      let (rows, result) := ingestEvents contents w.now w.rows
      some { w with rows, stage := .counted run result }
  | .decide, .counted run result => some { w with stage := afterPage run result }
  | .report, .closing run why => some { w with stage := .finished run why }
  | .fail, .asking _ | .fail, .replied _ _ | .fail, .counted _ _ | .fail, .closing _ _ =>
      some { w with stage := .idle }
  | _, _ => none

/-- The worlds that are reached from one by steps of some kind. -/
inductive Leads (allowed : EventWorld → EventAct → Prop) (w : EventWorld) : EventWorld → Prop
  | refl : Leads allowed w w
  | step {w' w'' : EventWorld} (act : EventAct) (h : Leads allowed w w') (hact : allowed w' act)
      (hstep : w'.step act = some w'') : Leads allowed w w''

/-! ### What should be stored -/

/-- An event is stored, unless it has no time or is thirty days old. -/
def Kept (w : EventWorld) (entry : Bytes) : Prop :=
  ∀ time, entryTime entry = some time → w.now - retentionSeconds < time →
    ∃ row ∈ w.rows, entryRow entry = some row

/-- When a run is finished, and has not been stopped by one of its limits, what
    was in the log when it began is stored. -/
def Complete (w : EventWorld) : Prop :=
  ∀ run why, w.stage = .finished run why → why ≠ .cutoff → why ≠ .limit →
    ∀ entry ∈ w.began, Kept w entry

/-- A new event can be told from the others, and its time is an `int`. -/
structure Distinguished (log : List Bytes) (entry : Bytes) : Prop where
  int : ∀ time, entryTime entry = some time → - 2 ^ 31 ≤ time ∧ time < 2 ^ 31
  key : ∀ other ∈ log, ∀ row row', entryRow entry = some row → entryRow other = some row' →
    row.sameKey row' → row = row'

/-- A first world: an empty table, and a log that is sorted by time. -/
structure First (w : EventWorld) : Prop where
  rows : w.rows = []
  stage : w.stage = .idle
  sorted : w.log.Pairwise NotNewer
  distinguished : ∀ entry ∈ w.log, Distinguished w.log entry

/-- The part of the log behind the last page of a run that has stored one. -/
def behind (w : EventWorld) : List Bytes :=
  match w.stage with
  | .asking run | .replied run _ => if run.pages = 0 then [] else w.log.drop run.start
  | .counted run _ => w.log.drop (run.start + pageSize)
  | _ => []

/-- A step that leaves no gap. A run fails, or stops at its hundredth page,
    only if what is behind its last page is stored. The same holds when a full
    page shows an event without a time. -/
def Allowed (w : EventWorld) : EventAct → Prop
  | .arrive entry => Distinguished w.log entry
  | .reply _ =>
      ∀ run, w.stage = .asking run →
        (∃ entry ∈ page run.start pageSize w.log, entryTime entry = none) →
        ∀ entry ∈ w.log.drop (run.start + pageSize), Kept w entry
  | .fail => ∀ entry ∈ w.behind, Kept w entry
  | .decide =>
      ∀ run result, w.stage = .counted run result →
        (afterPage run result = .idle ∨ ∃ run', afterPage run result = .closing run' .limit) →
        ∀ entry ∈ w.behind, Kept w entry
  | _ => True

/-! ### What steps preserve -/

/-- There is nothing missing below the newest event of the table. -/
def Settled (w : EventWorld) : Prop :=
  ∀ entry ∈ w.log, ∀ time, entryTime entry = some time →
    (∃ row ∈ w.rows, time < row.eventTime) → Kept w entry

/-- While a run reads, the log is what came in since, a stretch that has been
    read, and the rest. Below the watermark everything is stored. -/
structure Reading (w : EventWorld) (run : EventRun) (front read rest : List Bytes) : Prop where
  log : w.log = front ++ read ++ rest
  began : w.began <:+ read ++ rest
  newer : ∀ entry ∈ front, ∀ time, entryTime entry = some time →
    ∀ row ∈ w.rows, row.eventTime ≤ time
  below : 0 < run.watermark → ∀ entry ∈ w.log, ∀ time, entryTime entry = some time →
    time < run.watermark → Kept w entry
  mark : 0 < run.watermark → ∃ entry ∈ w.log, entryTime entry = some run.watermark
  cutoff : run.cutoff ≤ w.now - retentionSeconds

/-- Before a page is asked for. -/
structure Asking (w : EventWorld) (run : EventRun) (front read rest : List Bytes) : Prop
    extends Reading w run front read rest where
  kept : ∀ entry ∈ read, Kept w entry
  start : run.start ≤ (front ++ read).length
  first : run.pages = 0 → Settled w

/-- With a page that is not stored yet. -/
structure Replied (w : EventWorld) (run : EventRun) (contents : Bytes)
    (front read rest entries : List Bytes) : Prop
    extends Reading w run front read rest where
  serves : Serves contents entries
  entries_read : ∀ entry ∈ entries, entry ∈ read
  pending : ∀ entry ∈ entries, entry ∈ w.log.drop run.start
  kept : ∀ entry ∈ read, Kept w entry ∨ entry ∈ entries
  reached : run.start + pageSize ≤ (front ++ read).length ∨ rest = [] ∧ entries.length < pageSize
  full : (entries.countP fun entry => (entryWhen entry).isSome) < pageSize →
    ∀ entry ∈ rest, Kept w entry
  size : entries.length ≤ pageSize
  first : run.pages = 0 → Settled w

/-- After a page has been stored. -/
structure Counted (w : EventWorld) (run : EventRun) (result : IngestResult)
    (front read rest : List Bytes) : Prop
    extends Reading w run front read rest where
  kept : ∀ entry ∈ read, Kept w entry
  reached : run.start + pageSize ≤ (front ++ read).length ∨ rest = [] ∧ result.count < pageSize
  full : result.count < pageSize → ∀ entry ∈ rest, Kept w entry
  size : result.count ≤ pageSize
  oldest : result.count = pageSize → ∀ entry ∈ rest, ∀ time, entryTime entry = some time →
    time ≤ result.oldest

/-- What holds at a stage. -/
def StageSound (w : EventWorld) : Prop :=
  match w.stage with
  | .idle => Settled w
  | .asking run => ∃ front read rest, Asking w run front read rest
  | .replied run contents =>
      ∃ front read rest entries, Replied w run contents front read rest entries
  | .counted run result => ∃ front read rest, Counted w run result front read rest
  | .closing _ why | .finished _ why =>
      Settled w ∧ (why ≠ .cutoff → why ≠ .limit → ∀ entry ∈ w.began, Kept w entry)

/-- The log is sorted, its events can be told apart, and all rows are theirs. -/
structure Sound (w : EventWorld) : Prop where
  sorted : w.log.Pairwise NotNewer
  int : ∀ entry ∈ w.log, ∀ time, entryTime entry = some time → - 2 ^ 31 ≤ time ∧ time < 2 ^ 31
  key : ∀ entry ∈ w.log, ∀ other ∈ w.log, ∀ row row', entryRow entry = some row →
    entryRow other = some row' → row.sameKey row' → row = row'
  origin : ∀ row ∈ w.rows, ∃ entry ∈ w.log, entryRow entry = some row
  stage : StageSound w

/-- A time that is an `int` is the one of the row. -/
theorem eventTime_entryRow (entry : Bytes) (row : EventRow) (time : Int)
    (hrow : entryRow entry = some row) (htime : entryTime entry = some time)
    (hint : - 2 ^ 31 ≤ time ∧ time < 2 ^ 31) : row.eventTime = time := by
  rw [entryRow, Option.map_eq_some_iff] at hrow
  rcases hrow with ⟨text, hwhen, rfl⟩
  rw [entryTime, hwhen, Option.map_some, Option.some.injEq] at htime
  change atoi text = time
  unfold strtoll at htime
  -- The number was not clamped, so it does not wrap around either.
  have hvalue : (readInteger text).1 = time := by omega
  rw [atoi, hvalue, Int.bmod_eq_of_le (by omega) (by omega)]

theorem entryTime_of_row (entry : Bytes) (row : EventRow) (h : entryRow entry = some row) :
    ∃ time, entryTime entry = some time := by
  rw [entryRow, Option.map_eq_some_iff] at h
  rcases h with ⟨text, hwhen, -⟩
  exact ⟨strtoll text, by rw [entryTime, hwhen, Option.map_some]⟩

theorem entryRow_of_time (entry : Bytes) (time : Int) (h : entryTime entry = some time) :
    ∃ row, entryRow entry = some row := by
  rw [entryTime, Option.map_eq_some_iff] at h
  rcases h with ⟨text, hwhen, -⟩
  exact ⟨_, by rw [entryRow, hwhen, Option.map_some]⟩

section Steps

variable {w : EventWorld}

/-- A row's event is in the log, and has its time. -/
theorem Sound.event (h : Sound w) (row : EventRow) (hrow : row ∈ w.rows) :
    ∃ entry ∈ w.log, entryRow entry = some row ∧ entryTime entry = some row.eventTime := by
  rcases h.origin row hrow with ⟨entry, hmem, heq⟩
  rcases entryTime_of_row entry row heq with ⟨time, htime⟩
  refine ⟨entry, hmem, heq, ?_⟩
  rw [htime, eventTime_entryRow entry row time heq htime (h.int entry hmem time htime)]

/-- What comes in is no older than what is stored. -/
theorem Sound.arrived (h : Sound w) (entry : Bytes) (hnew : ∀ older ∈ w.log, NotNewer entry older)
    (time : Int) (htime : entryTime entry = some time) (row : EventRow) (hrow : row ∈ w.rows) :
    row.eventTime ≤ time := by
  rcases h.event row hrow with ⟨older, hmem, -, holder⟩
  exact hnew older hmem time htime row.eventTime holder

theorem Settled.arrive (hs : Settled w) (h : Sound w) (entry : Bytes)
    (hnew : ∀ older ∈ w.log, NotNewer entry older) : Settled { w with log := entry :: w.log } := by
  intro other hmem time htime hrow
  rcases List.mem_cons.mp hmem with rfl | hmem
  · rcases hrow with ⟨row, hrow, hlt⟩
    exact absurd (h.arrived other hnew time htime row hrow) (by omega)
  · exact hs other hmem time htime hrow

theorem Reading.arrive {run : EventRun} {front read rest : List Bytes}
    (hr : Reading w run front read rest) (h : Sound w) (entry : Bytes)
    (hnew : ∀ older ∈ w.log, NotNewer entry older) :
    Reading { w with log := entry :: w.log } run (entry :: front) read rest where
  log := by
    change entry :: w.log = _
    rw [hr.log]
    rfl
  began := hr.began
  newer other hmem time htime row hrow := by
    rcases List.mem_cons.mp hmem with rfl | hmem
    · exact h.arrived other hnew time htime row hrow
    · exact hr.newer other hmem time htime row hrow
  below hpos other hmem time htime hlt := by
    rcases List.mem_cons.mp hmem with rfl | hmem
    · -- The event of the watermark would be newer.
      rcases hr.mark hpos with ⟨older, holder, hmark⟩
      exact absurd (hnew older holder time htime _ hmark) (by omega)
    · exact hr.below hpos other hmem time htime hlt
  mark hpos := by
    rcases hr.mark hpos with ⟨older, holder, hmark⟩
    exact ⟨older, List.mem_cons_of_mem entry holder, hmark⟩
  cutoff := hr.cutoff

theorem Kept.wait {entry : Bytes} (hk : Kept w entry) (seconds : Nat) :
    Kept { w with now := w.now + seconds } entry := by
  intro time htime hyoung
  refine hk time htime ?_
  change w.now + seconds - retentionSeconds < time at hyoung
  omega

theorem Settled.wait (hs : Settled w) (seconds : Nat) :
    Settled { w with now := w.now + seconds } :=
  fun entry hmem time htime hrow => (hs entry hmem time htime hrow).wait seconds

theorem Reading.wait {run : EventRun} {front read rest : List Bytes}
    (hr : Reading w run front read rest) (seconds : Nat) :
    Reading { w with now := w.now + seconds } run front read rest where
  log := hr.log
  began := hr.began
  newer := hr.newer
  below hpos entry hmem time htime hlt := (hr.below hpos entry hmem time htime hlt).wait seconds
  mark := hr.mark
  cutoff := by
    have hcutoff := hr.cutoff
    change run.cutoff ≤ w.now + seconds - retentionSeconds
    omega

/-- The watermark is the time of a row. -/
theorem eventWatermark_pos (rows : List EventRow) (h : 0 < eventWatermark rows) :
    ∃ row ∈ rows, row.eventTime = eventWatermark rows := by
  unfold eventWatermark at h ⊢
  cases hmax : (rows.map EventRow.eventTime).max? with
  | none =>
      rw [hmax] at h
      exact absurd h (by decide)
  | some newest =>
      exact List.mem_map.mp (List.max?_mem hmax)

/-- A run begins. -/
theorem Settled.begin (hs : Settled w) (h : Sound w) (readable : Bool) :
    Asking { w with stage := .asking (firstRun readable w.now w.rows), began := w.log }
      (firstRun readable w.now w.rows) [] [] w.log := by
  have hmark : 0 < (firstRun readable w.now w.rows).watermark →
      ∃ row ∈ w.rows, row.eventTime = (firstRun readable w.now w.rows).watermark := by
    intro hpos
    change 0 < readWatermark readable w.rows at hpos
    change ∃ row ∈ w.rows, row.eventTime = readWatermark readable w.rows
    unfold readWatermark at hpos ⊢
    split at hpos
    · next hread =>
        rw [if_pos hread]
        exact eventWatermark_pos w.rows hpos
    · exact absurd hpos (by decide)
  exact
    { log := rfl
      began := List.suffix_rfl
      newer := fun entry hmem => absurd hmem List.not_mem_nil
      below := by
        intro hpos entry hmem time htime hlt
        rcases hmark hpos with ⟨row, hrow, heq⟩
        exact hs entry hmem time htime ⟨row, hrow, by rw [heq]; exact hlt⟩
      mark := by
        intro hpos
        rcases hmark hpos with ⟨row, hrow, heq⟩
        rcases h.event row hrow with ⟨entry, hmem, -, htime⟩
        exact ⟨entry, hmem, by rw [htime, heq]⟩
      cutoff := Int.le_refl _
      kept := fun entry hmem => absurd hmem List.not_mem_nil
      start := Nat.le_refl 0
      first := fun _ => hs }

/-- A page is shown. -/
theorem Asking.reply {run : EventRun} {front read rest : List Bytes}
    (ha : Asking w run front read rest) (contents : Bytes)
    (hserves : Serves contents (page run.start pageSize w.log))
    (hallowed : (∃ entry ∈ page run.start pageSize w.log, entryTime entry = none) →
      ∀ entry ∈ w.log.drop (run.start + pageSize), Kept w entry) :
    ∃ front' read' rest', Replied { w with stage := .replied run contents } run contents
      front' read' rest' (page run.start pageSize w.log) := by
  rcases page_split front read rest run.start pageSize ha.start with
    ⟨front', read', rest', hlog, hfront, hbegan, hread, hpage, hrest, hreached⟩
  rw [← ha.log] at hlog hread hpage hrest hreached
  refine ⟨front', read', rest', ?_⟩
  exact
    { log := hlog
      began := ha.began.trans hbegan
      newer := fun entry hmem => ha.newer entry (hfront.subset hmem)
      below := ha.below
      mark := ha.mark
      cutoff := ha.cutoff
      serves := hserves
      entries_read := hpage
      pending := fun entry hmem => List.mem_of_mem_take hmem
      kept := fun entry hmem => (hread entry hmem).imp_left (ha.kept entry)
      reached := hreached
      full := by
        intro hcount entry hmem
        rw [hrest] at hmem
        refine hallowed ?_ entry hmem
        -- There is a rest, so the page is full, and not all of it was counted.
        have hlength : (page run.start pageSize w.log).length = pageSize := by
          have hpos := List.length_pos_of_mem hmem
          rw [List.length_drop] at hpos
          rw [page, List.length_take, List.length_drop]
          omega
        by_contra hnone
        have hall : ∀ other ∈ page run.start pageSize w.log, (entryWhen other).isSome = true := by
          intro other hother
          by_contra huntimed
          refine hnone ⟨other, hother, ?_⟩
          rw [entryTime, Option.not_isSome_iff_eq_none.mp huntimed, Option.map_none]
        rw [List.countP_eq_length.mpr hall, hlength] at hcount
        exact absurd hcount (Nat.lt_irrefl _)
      size := List.length_take_le _ _
      first := ha.first }

/-- A page that the controller shows. -/
theorem step_reply (run : EventRun) (contents : Bytes) (hstage : w.stage = .asking run)
    (hserves : Serves contents (page run.start pageSize w.log))
    (hcontains : ascii "<ajax-response>" <:+: contents) :
    w.step (.reply contents) = some { w with stage := .replied run contents } := by
  unfold step
  rw [hstage]
  exact if_pos ⟨hserves, hcontains⟩

/-- The table after a page. -/
def stored (w : EventWorld) (entries : List Bytes) : List EventRow :=
  (scanEntries entries (w.rows, ⟨0, 0, 0, 0⟩)).1.filter fun row =>
    w.now - retentionSeconds ≤ row.eventTime

/-- A page that is stored. -/
theorem step_ingest (run : EventRun) (contents : Bytes) (entries : List Bytes)
    (scanned : List EventRow) (result : IngestResult)
    (hstage : w.stage = .replied run contents) (hserves : Serves contents entries)
    (hscan : scanEntries entries (w.rows, ⟨0, 0, 0, 0⟩) = (scanned, result)) :
    w.step .ingest = some { w with
      rows := scanned.filter fun row => w.now - retentionSeconds ≤ row.eventTime
      stage := .counted run result } := by
  unfold step
  rw [hstage]
  simp only [ingestEvents_serves contents entries hserves, hscan]

theorem origin_stored (h : Sound w) (entries : List Bytes) (hentries : ∀ e ∈ entries, e ∈ w.log)
    (row : EventRow) (hrow : row ∈ (scanEntries entries (w.rows, ⟨0, 0, 0, 0⟩)).1) :
    ∃ entry ∈ w.log, entryRow entry = some row := by
  rcases mem_scanEntries entries _ row hrow with hold | ⟨entry, hmem, heq⟩
  · exact h.origin row hold
  · exact ⟨entry, hentries entry hmem, heq⟩

/-- What was kept is kept, and so are the events of the page. -/
theorem kept_stored (h : Sound w) (entries : List Bytes) (hentries : ∀ e ∈ entries, e ∈ w.log)
    (stage : EventStage) (entry : Bytes) (hmem : entry ∈ w.log)
    (hk : Kept w entry ∨ entry ∈ entries) :
    Kept { w with rows := w.stored entries, stage } entry := by
  intro time htime hyoung
  have hscan : ∃ row ∈ (scanEntries entries (w.rows, ⟨0, 0, 0, 0⟩)).1,
      entryRow entry = some row := by
    rcases hk with hk | hk
    · rcases hk time htime hyoung with ⟨row, hrow, heq⟩
      exact ⟨row, subset_scanEntries entries _ row hrow, heq⟩
    · rcases entryRow_of_time entry time htime with ⟨row, heq⟩
      rcases sameKey_scanEntries entries (w.rows, ⟨0, 0, 0, 0⟩) entry hk row heq with
        ⟨old, hold, hkey⟩
      -- The row with this key is that of the event itself.
      rcases origin_stored h entries hentries old hold with ⟨other, hother, hrow⟩
      have hsame := h.key entry hmem other hother row old heq hrow hkey
      exact ⟨old, hold, by rw [heq, hsame]⟩
  rcases hscan with ⟨row, hrow, heq⟩
  refine ⟨row, List.mem_filter.mpr ⟨hrow, decide_eq_true ?_⟩, heq⟩
  rw [eventTime_entryRow entry row time heq htime (h.int entry hmem time htime)]
  exact Int.le_of_lt hyoung

/-- A page is stored. -/
theorem Replied.ingest {run : EventRun} {contents : Bytes} {front read rest entries : List Bytes}
    (hr : Replied w run contents front read rest entries) (h : Sound w) :
    Counted
      { w with
        rows := w.stored entries
        stage := .counted run (scanEntries entries (w.rows, ⟨0, 0, 0, 0⟩)).2 }
      run (scanEntries entries (w.rows, ⟨0, 0, 0, 0⟩)).2 front read rest := by
  have hin : ∀ entry ∈ read ++ rest, entry ∈ w.log := by
    intro entry hmem
    rw [hr.log, List.append_assoc]
    exact List.mem_append_right _ hmem
  have hentries : ∀ entry ∈ entries, entry ∈ w.log := fun entry hmem =>
    hin entry (List.mem_append_left _ (hr.entries_read entry hmem))
  have hsorted := h.sorted
  rw [hr.log, List.pairwise_append] at hsorted
  have hcount := scanEntries_count entries (w.rows, ⟨0, 0, 0, 0⟩)
  rw [Nat.zero_add] at hcount
  exact
    { log := hr.log
      began := hr.began
      newer := by
        intro entry hmem time htime row hrow
        rcases mem_scanEntries entries _ row (List.mem_filter.mp hrow).1 with hold | ⟨other, ho, heq⟩
        · exact hr.newer entry hmem time htime row hold
        · -- The page is behind the front.
          rcases entryTime_of_row other row heq with ⟨time', htime'⟩
          rw [eventTime_entryRow other row time' heq htime' (h.int other (hentries other ho) _ htime')]
          exact (List.pairwise_append.mp hsorted.1).2.2 entry hmem other (hr.entries_read other ho)
            time htime time' htime'
      below := fun hpos entry hmem time htime hlt =>
        kept_stored h entries hentries _ entry hmem (Or.inl (hr.below hpos entry hmem time htime hlt))
      mark := hr.mark
      cutoff := hr.cutoff
      kept := fun entry hmem =>
        kept_stored h entries hentries _ entry (hin entry (List.mem_append_left _ hmem))
          (hr.kept entry hmem)
      reached := hr.reached.imp_right fun hnil => ⟨hnil.1, by
        rw [hcount]
        exact Nat.lt_of_le_of_lt List.countP_le_length hnil.2⟩
      full := fun hshort entry hmem =>
        kept_stored h entries hentries _ entry (hin entry (List.mem_append_right _ hmem))
          (Or.inl (hr.full (by rw [← hcount]; exact hshort) entry hmem))
      size := by
        rw [hcount]
        exact (List.countP_le_length).trans hr.size
      oldest := by
        intro hfull entry hmem time htime
        have holdest := (scanEntries_oldest entries (w.rows, ⟨0, 0, 0, 0⟩) rfl rfl).2
          (by rw [hfull]; decide)
        rcases holdest with ⟨other, ho, hother⟩
        exact hsorted.2.2 other (List.mem_append_right _ (hr.entries_read other ho)) entry hmem
          _ hother time htime }

/-- If everything behind the front is kept, then nothing is missing. -/
theorem Reading.settled {run : EventRun} {front read rest : List Bytes}
    (hr : Reading w run front read rest) (hread : ∀ entry ∈ read, Kept w entry)
    (hrest : ∀ entry ∈ rest, Kept w entry) : Settled w := by
  intro entry hmem time htime hrow
  rw [hr.log] at hmem
  rcases List.mem_append.mp hmem with hmem | hmem
  · rcases List.mem_append.mp hmem with hmem | hmem
    · rcases hrow with ⟨row, hrow, hlt⟩
      exact absurd (hr.newer entry hmem time htime row hrow) (by omega)
    · exact hread entry hmem
  · exact hrest entry hmem

/-- The rest is behind the page. -/
theorem Reading.mem_drop {run : EventRun} {front read rest : List Bytes}
    (hr : Reading w run front read rest) (offset : Nat)
    (hoffset : offset ≤ (front ++ read).length ∨ rest = []) (entry : Bytes) (hmem : entry ∈ rest) :
    entry ∈ w.log.drop offset := by
  rcases hoffset with hle | hnil
  · rw [hr.log, List.drop_append_of_le_length hle]
    exact List.mem_append_right _ hmem
  · rw [hnil] at hmem
    exact absurd hmem List.not_mem_nil

/-- What was in the log when the run began is behind the front. -/
theorem Reading.closed {run : EventRun} {front read rest : List Bytes}
    (hr : Reading w run front read rest) (hread : ∀ entry ∈ read, Kept w entry)
    (hrest : ∀ entry ∈ rest, Kept w entry) :
    Settled w ∧ ∀ entry ∈ w.began, Kept w entry := by
  refine ⟨hr.settled hread hrest, fun entry hmem => ?_⟩
  rcases List.mem_append.mp (hr.began.subset hmem) with hmem | hmem
  · exact hread entry hmem
  · exact hrest entry hmem

/-- The loop goes on, or ends. -/
theorem Counted.decide {run : EventRun} {result : IngestResult} {front read rest : List Bytes}
    (hc : Counted w run result front read rest) (hstage : w.stage = .counted run result)
    (hallowed : (afterPage run result = .idle ∨ ∃ run', afterPage run result = .closing run' .limit) →
      ∀ entry ∈ w.behind, Kept w entry) :
    StageSound { w with stage := afterPage run result } := by
  have hbehind : (afterPage run result = .idle ∨
      ∃ run', afterPage run result = .closing run' .limit) → ∀ entry ∈ rest, Kept w entry := by
    intro hend entry hmem
    refine hallowed hend entry ?_
    rw [behind, hstage]
    exact hc.mem_drop _ (hc.reached.imp_right And.left) entry hmem
  have hold : result.count = pageSize → ∀ bound, result.oldest ≤ bound → ∀ entry ∈ rest,
      ∀ time, entryTime entry = some time → time ≤ bound := by
    intro hfull bound hle entry hmem time htime
    exact Int.le_trans (hc.oldest hfull entry hmem time htime) hle
  unfold afterPage at hbehind ⊢
  simp only at hbehind ⊢
  by_cases hsign : result.oldest < 0 ∨ result.newest < 0
  · rw [if_pos hsign] at hbehind ⊢
    exact hc.settled hc.kept (hbehind (Or.inl rfl))
  rw [if_neg hsign] at hbehind ⊢
  by_cases hcount : result.count < pageSize
  · rw [if_pos hcount]
    have hclosed := hc.closed hc.kept (hc.full hcount)
    exact ⟨hclosed.1, fun _ _ => hclosed.2⟩
  rw [if_neg hcount] at hbehind ⊢
  have hfull : result.count = pageSize := Nat.le_antisymm hc.size (Nat.le_of_not_lt hcount)
  by_cases hcutoff : result.oldest ≤ run.cutoff
  · -- The rest is thirty days old.
    rw [if_pos hcutoff]
    refine ⟨hc.settled hc.kept fun entry hmem time htime hyoung => ?_,
      fun hne => absurd rfl hne⟩
    have hle := hold hfull run.cutoff hcutoff entry hmem time htime
    exact absurd hyoung (by have := hc.cutoff; omega)
  rw [if_neg hcutoff] at hbehind ⊢
  by_cases hoverlap : 0 < run.watermark ∧ result.oldest < run.watermark
  · -- The rest is below the watermark.
    rw [if_pos hoverlap]
    have hclosed := hc.closed hc.kept fun entry hmem time htime => by
      refine hc.below hoverlap.1 entry ?_ time htime ?_ time htime
      · rw [hc.log]
        exact List.mem_append_right _ hmem
      · exact Int.lt_of_le_of_lt (hc.oldest hfull entry hmem time htime) hoverlap.2
    exact ⟨hclosed.1, fun _ _ => hclosed.2⟩
  rw [if_neg hoverlap] at hbehind ⊢
  by_cases hpages : run.pages + 1 < 100
  · rw [if_pos hpages]
    have hreached : run.start + pageSize ≤ (front ++ read).length :=
      hc.reached.resolve_right fun hnil => absurd hnil.2 hcount
    exact ⟨front, read, rest,
      { hc.toReading with
        kept := hc.kept
        start := by rw [hfull]; exact hreached
        first := fun hzero => absurd hzero (Nat.succ_ne_zero _) }⟩
  · rw [if_neg hpages] at hbehind ⊢
    exact ⟨hc.settled hc.kept (hbehind (Or.inr ⟨_, rfl⟩)), fun _ hne => absurd rfl hne⟩

theorem stageSound_arrive (h : Sound w) (entry : Bytes)
    (hnew : ∀ older ∈ w.log, NotNewer entry older) :
    StageSound { w with log := entry :: w.log } := by
  have hs := h.stage
  unfold StageSound at hs ⊢
  simp only
  cases hstage : w.stage with
  | idle =>
      rw [hstage] at hs
      exact Settled.arrive hs h entry hnew
  | asking run =>
      rw [hstage] at hs
      rcases hs with ⟨front, read, rest, ha⟩
      exact ⟨entry :: front, read, rest,
        { ha.toReading.arrive h entry hnew with
          kept := ha.kept
          start := Nat.le_succ_of_le ha.start
          first := fun hzero => (ha.first hzero).arrive h entry hnew }⟩
  | replied run contents =>
      rw [hstage] at hs
      rcases hs with ⟨front, read, rest, entries, hr⟩
      exact ⟨entry :: front, read, rest, entries,
        { hr.toReading.arrive h entry hnew with
          serves := hr.serves
          entries_read := hr.entries_read
          pending := fun other hmem =>
            (List.drop_suffix 1 ((entry :: w.log).drop run.start)).subset (by
              rw [List.drop_drop, Nat.add_comm, ← List.drop_drop]
              exact hr.pending other hmem)
          kept := hr.kept
          reached := hr.reached.imp_left Nat.le_succ_of_le
          full := hr.full
          size := hr.size
          first := fun hzero => (hr.first hzero).arrive h entry hnew }⟩
  | counted run result =>
      rw [hstage] at hs
      rcases hs with ⟨front, read, rest, hc⟩
      exact ⟨entry :: front, read, rest,
        { hc.toReading.arrive h entry hnew with
          kept := hc.kept
          reached := hc.reached.imp_left Nat.le_succ_of_le
          full := hc.full
          size := hc.size
          oldest := hc.oldest }⟩
  | closing run why =>
      rw [hstage] at hs
      exact ⟨Settled.arrive hs.1 h entry hnew, hs.2⟩
  | finished run why =>
      rw [hstage] at hs
      exact ⟨Settled.arrive hs.1 h entry hnew, hs.2⟩

theorem stageSound_wait (hs : StageSound w) (seconds : Nat) :
    StageSound { w with now := w.now + seconds } := by
  unfold StageSound at hs ⊢
  simp only
  cases hstage : w.stage with
  | idle =>
      rw [hstage] at hs
      exact Settled.wait hs seconds
  | asking run =>
      rw [hstage] at hs
      rcases hs with ⟨front, read, rest, ha⟩
      exact ⟨front, read, rest,
        { ha.toReading.wait seconds with
          kept := fun entry hmem => (ha.kept entry hmem).wait seconds
          start := ha.start
          first := fun hzero => (ha.first hzero).wait seconds }⟩
  | replied run contents =>
      rw [hstage] at hs
      rcases hs with ⟨front, read, rest, entries, hr⟩
      exact ⟨front, read, rest, entries,
        { hr.toReading.wait seconds with
          serves := hr.serves
          entries_read := hr.entries_read
          pending := hr.pending
          kept := fun entry hmem => (hr.kept entry hmem).imp_left fun hk => hk.wait seconds
          reached := hr.reached
          full := fun hshort entry hmem => (hr.full hshort entry hmem).wait seconds
          size := hr.size
          first := fun hzero => (hr.first hzero).wait seconds }⟩
  | counted run result =>
      rw [hstage] at hs
      rcases hs with ⟨front, read, rest, hc⟩
      exact ⟨front, read, rest,
        { hc.toReading.wait seconds with
          kept := fun entry hmem => (hc.kept entry hmem).wait seconds
          reached := hc.reached
          full := fun hshort entry hmem => (hc.full hshort entry hmem).wait seconds
          size := hc.size
          oldest := hc.oldest }⟩
  | closing run why =>
      rw [hstage] at hs
      exact ⟨hs.1.wait seconds, fun h1 h2 entry hmem => (hs.2 h1 h2 entry hmem).wait seconds⟩
  | finished run why =>
      rw [hstage] at hs
      exact ⟨hs.1.wait seconds, fun h1 h2 entry hmem => (hs.2 h1 h2 entry hmem).wait seconds⟩

/-- A run fails. -/
theorem settled_fail (h : Sound w) (hstage : w.stage ≠ .idle ∧ ∀ run why, w.stage ≠ .finished run why)
    (hallowed : ∀ entry ∈ w.behind, Kept w entry) : Settled w := by
  have hs := h.stage
  unfold StageSound at hs
  unfold behind at hallowed
  cases hst : w.stage with
  | idle => exact absurd hst hstage.1
  | asking run =>
      rw [hst] at hs hallowed
      rcases hs with ⟨front, read, rest, ha⟩
      by_cases hzero : run.pages = 0
      · exact ha.first hzero
      · simp only [if_neg hzero] at hallowed
        exact ha.settled ha.kept fun entry hmem =>
          hallowed entry (ha.mem_drop _ (Or.inl ha.start) entry hmem)
  | replied run contents =>
      rw [hst] at hs hallowed
      rcases hs with ⟨front, read, rest, entries, hr⟩
      by_cases hzero : run.pages = 0
      · exact hr.first hzero
      · -- The page is not stored, so its events are among those that must be.
        simp only [if_neg hzero] at hallowed
        have hreached : run.start ≤ (front ++ read).length ∨ rest = [] :=
          hr.reached.imp (Nat.le_trans (Nat.le_add_right _ _)) And.left
        exact hr.settled
          (fun entry hmem => (hr.kept entry hmem).elim id fun hentry =>
            hallowed entry (hr.pending entry hentry))
          fun entry hmem => hallowed entry (hr.mem_drop _ hreached entry hmem)
  | counted run result =>
      rw [hst] at hs hallowed
      rcases hs with ⟨front, read, rest, hc⟩
      exact hc.settled hc.kept fun entry hmem =>
        hallowed entry (hc.mem_drop _ (hc.reached.imp_right And.left) entry hmem)
  | closing run why =>
      rw [hst] at hs
      exact hs.1
  | finished run why => exact absurd hst (hstage.2 run why)

/-- What steps preserve. -/
theorem sound_step {w' : EventWorld} (h : Sound w) (act : EventAct) (hallowed : Allowed w act)
    (hstep : w.step act = some w') : Sound w' := by
  have hs := h.stage
  unfold StageSound at hs
  unfold step at hstep
  split at hstep
  · next _ entry =>
      -- An event comes in.
      split at hstep
      · next hnew =>
          rw [← Option.some.inj hstep]
          exact
            { sorted := List.pairwise_cons.mpr ⟨hnew, h.sorted⟩
              int := List.forall_mem_cons.mpr ⟨hallowed.int, h.int⟩
              key := by
                intro a ha b hb row row' hrow hrow' hkey
                rcases List.mem_cons.mp ha with rfl | hin
                · rcases List.mem_cons.mp hb with rfl | hin'
                  · exact Option.some.inj (hrow.symm.trans hrow')
                  · exact hallowed.key b hin' row row' hrow hrow' hkey
                · rcases List.mem_cons.mp hb with rfl | hin'
                  · exact (hallowed.key a hin row' row hrow' hrow ⟨hkey.1.symm, hkey.2.symm⟩).symm
                  · exact h.key a hin b hin' row row' hrow hrow' hkey
              origin := fun row hrow => by
                rcases h.origin row hrow with ⟨older, hmem, heq⟩
                exact ⟨older, List.mem_cons_of_mem entry hmem, heq⟩
              stage := stageSound_arrive h entry hnew }
      · exact absurd hstep (by simp only [reduceCtorEq, not_false_eq_true])
  · next _ seconds =>
      rw [← Option.some.inj hstep]
      exact { h with stage := stageSound_wait h.stage seconds }
  · next readable hstage =>
      rw [hstage] at hs
      rw [← Option.some.inj hstep]
      exact { h with stage := ⟨[], [], w.log, Settled.begin hs h readable⟩ }
  · next readable run why hstage =>
      rw [hstage] at hs
      rw [← Option.some.inj hstep]
      exact { h with stage := ⟨[], [], w.log, Settled.begin hs.1 h readable⟩ }
  · next contents run hstage =>
      rw [hstage] at hs
      rcases hs with ⟨front, read, rest, ha⟩
      split at hstep
      · next hserves =>
          rw [← Option.some.inj hstep]
          rcases ha.reply contents hserves.1 (hallowed run hstage) with
            ⟨front', read', rest', hr⟩
          exact { h with stage := ⟨front', read', rest', _, hr⟩ }
      · exact absurd hstep (by simp only [reduceCtorEq, not_false_eq_true])
  · next run contents hstage =>
      rw [hstage] at hs
      rcases hs with ⟨front, read, rest, entries, hr⟩
      rw [ingestEvents_serves contents entries hr.serves] at hstep
      rw [← Option.some.inj hstep]
      have hentries : ∀ entry ∈ entries, entry ∈ w.log := fun entry hmem =>
        List.mem_of_mem_drop (hr.pending entry hmem)
      exact
        { h with
          origin := fun row hrow => origin_stored h entries hentries row (List.mem_filter.mp hrow).1
          stage := ⟨front, read, rest, hr.ingest h⟩ }
  · next run result hstage =>
      rw [hstage] at hs
      rcases hs with ⟨front, read, rest, hc⟩
      rw [← Option.some.inj hstep]
      exact { h with stage := hc.decide hstage (hallowed run result hstage) }
  · next run why hstage =>
      rw [hstage] at hs
      rw [← Option.some.inj hstep]
      exact { h with stage := hs }
  all_goals first
    | exact absurd hstep (by simp only [reduceCtorEq, not_false_eq_true])
    | next hstage =>
        rw [← Option.some.inj hstep]
        have hactive : w.stage ≠ .idle ∧ ∀ run why, w.stage ≠ .finished run why := by
          rw [hstage]
          simp only [ne_eq, reduceCtorEq, not_false_eq_true, implies_true, and_self]
        have hsettled : Settled w := settled_fail h hactive hallowed
        exact { h with stage := hsettled }

end Steps

/-- The first world. -/
theorem First.sound {w : EventWorld} (h : First w) : Sound w where
  sorted := h.sorted
  int entry hmem := (h.distinguished entry hmem).int
  key entry hmem other hother := (h.distinguished entry hmem).key other hother
  origin row hrow := by
    rw [h.rows] at hrow
    exact absurd hrow List.not_mem_nil
  stage := by
    unfold StageSound
    rw [h.stage]
    intro entry _ time _ hrow
    rcases hrow with ⟨row, hrow, -⟩
    rw [h.rows] at hrow
    exact absurd hrow List.not_mem_nil

theorem Leads.sound {w w' : EventWorld} (h : First w) (hleads : Leads Allowed w w') : Sound w' := by
  induction hleads with
  | refl => exact h.sound
  | step act _ hact hstep ih => exact sound_step ih act hact hstep

/-- In every sequence of runs without a step that leaves a gap, a run that ends
    by itself has stored what was there when it began. -/
theorem collected_complete (w w' : EventWorld) (h : First w) (hleads : Leads Allowed w w') :
    Complete w' := by
  intro run why hstage hcutoff hlimit
  have hs := (Leads.sound h hleads).stage
  unfold StageSound at hs
  rw [hstage] at hs
  exact hs.2 hcutoff hlimit

/-! ### A gap -/

def lastEvent : Bytes := ascii "<xevent time=\"1800000030\"/>"

def nextEvent : Bytes := ascii "<xevent time=\"1800000020\"/>"

def missedEvent : Bytes := ascii "<xevent time=\"1800000010\"/>"

/-- A log of a page and one more event. -/
def gapPage : List Bytes := [lastEvent, nextEvent] ++ List.replicate 298 nextEvent

def gapLog : List Bytes := gapPage ++ [missedEvent]

/-- The rows of the page. -/
def gapRows : List EventRow :=
  [eventRow (fun _ => none) (eventHash lastEvent) (ascii "1800000030"),
   eventRow (fun _ => none) (eventHash nextEvent) (ascii "1800000020")]

theorem length_gapPage : gapPage.length = pageSize := by
  rw [gapPage, List.length_append, List.length_replicate]
  rfl

theorem page_gapLog : page 0 pageSize gapLog = gapPage := by
  rw [page, List.drop_zero, gapLog, ← length_gapPage, List.take_left]

theorem mem_gapLog (entry : Bytes) (h : entry ∈ gapLog) :
    entry = lastEvent ∨ entry = nextEvent ∨ entry = missedEvent := by
  rw [gapLog, gapPage, List.mem_append, List.mem_append, List.mem_replicate, List.mem_cons,
    List.mem_singleton, List.mem_singleton] at h
  rcases h with ((h | h) | h) | h
  · exact Or.inl h
  · exact Or.inr (Or.inl h)
  · exact Or.inr (Or.inl h.2)
  · exact Or.inr (Or.inr h)

theorem serves_gapPage : Serves (replyText gapPage) gapPage := by
  refine serves_replyText gapPage fun entry hmem => ?_
  rcases mem_gapLog entry (List.mem_append_left _ hmem) with rfl | rfl | rfl
  all_goals decide

/-- The page is stored, or was stored before. -/
theorem scanEntries_gapPage (rows : List EventRow) (inserted : Nat)
    (hrows : (rows, inserted) = ([], 2) ∨ (rows, inserted) = (gapRows, 0)) :
    scanEntries gapPage (rows, ⟨0, 0, 0, 0⟩) =
      (gapRows, ⟨pageSize, inserted, 1800000020, 1800000030⟩) := by
  have hagain : ∀ inserted ∈ [0, 2],
      ingestTag (entryAttr nextEvent) (eventHash nextEvent)
        (gapRows, ⟨2, inserted, 1800000020, 1800000030⟩) =
        (gapRows, ⟨3, inserted, 1800000020, 1800000030⟩) := by
    decide +kernel
  rcases hrows with heq | heq
  · rcases Prod.mk.inj heq with ⟨rfl, rfl⟩
    have hfirst : scanEntries [lastEvent, nextEvent] ([], ⟨0, 0, 0, 0⟩) =
        (gapRows, ⟨2, 2, 1800000020, 1800000030⟩) := by
      decide +kernel
    rw [gapPage, scanEntries_append, hfirst, scanEntries_replicate _ _ _ (hagain 2 (by decide))]
    rfl
  · rcases Prod.mk.inj heq with ⟨rfl, rfl⟩
    have hfirst : scanEntries [lastEvent, nextEvent] (gapRows, ⟨0, 0, 0, 0⟩) =
        (gapRows, ⟨2, 0, 1800000020, 1800000030⟩) := by
      decide +kernel
    rw [gapPage, scanEntries_append, hfirst, scanEntries_replicate _ _ _ (hagain 0 (by decide))]
    rfl

/-- A world in which the log is that one. -/
def gapWorld (rows : List EventRow) (stage : EventStage) (began : List Bytes) : EventWorld :=
  ⟨gapLog, 1800000100, rows, stage, began⟩

def gapRun (watermark : Int) : EventRun := ⟨watermark, 1797408100, 0, 0, 0, 0, 0⟩

theorem first_gapWorld : First (gapWorld [] .idle []) where
  rows := rfl
  stage := rfl
  sorted := by
    have hnext : NotNewer nextEvent nextEvent := by decide
    refine List.pairwise_append.mpr ⟨List.pairwise_append.mpr
      ⟨by decide, List.pairwise_replicate.mpr (Or.inr hnext), ?_⟩, List.pairwise_singleton _ _, ?_⟩
    · intro entry hmem other hother
      rw [(List.mem_replicate.mp hother).2]
      revert entry
      decide
    · intro entry hmem other hother
      rw [List.mem_singleton.mp hother]
      rcases mem_gapLog entry (List.mem_append_left _ hmem) with rfl | rfl | rfl
      all_goals decide
  distinguished := by
    have hint : ∀ entry ∈ [lastEvent, nextEvent, missedEvent], ∀ time ∈ entryTime entry,
        - 2 ^ 31 ≤ time ∧ time < 2 ^ 31 := by
      decide +kernel
    have hkey : ∀ entry ∈ [lastEvent, nextEvent, missedEvent],
        ∀ other ∈ [lastEvent, nextEvent, missedEvent], ∀ row ∈ entryRow entry,
        ∀ row' ∈ entryRow other, row.sameKey row' → row = row' := by
      decide +kernel
    have hmem : ∀ entry ∈ gapLog, entry ∈ [lastEvent, nextEvent, missedEvent] := by
      intro entry hentry
      rcases mem_gapLog entry hentry with rfl | rfl | rfl
      all_goals decide
    exact fun entry hentry =>
      { int := hint entry (hmem entry hentry)
        key := fun other hother row row' hrow hrow' =>
          hkey entry (hmem entry hentry) other (hmem other hother) row hrow row' hrow' }

/-- The controller shows the page, which is stored. -/
theorem leads_gapPage {allowed : EventWorld → EventAct → Prop} {w : EventWorld}
    (rows : List EventRow) (inserted : Nat)
    (hrows : (rows, inserted) = ([], 2) ∨ (rows, inserted) = (gapRows, 0)) (watermark : Int)
    (hleads : Leads allowed w (gapWorld rows (.asking (gapRun watermark)) gapLog))
    (hreply : allowed (gapWorld rows (.asking (gapRun watermark)) gapLog)
      (.reply (replyText gapPage)))
    (hingest : allowed (gapWorld rows (.replied (gapRun watermark) (replyText gapPage)) gapLog)
      .ingest) :
    Leads allowed w (gapWorld gapRows
      (.counted (gapRun watermark) ⟨pageSize, inserted, 1800000020, 1800000030⟩) gapLog) := by
  have hcontains : ascii "<ajax-response>" <:+: replyText gapPage :=
    List.infix_append' [] (ascii "<ajax-response>") _
  have hserves : Serves (replyText gapPage) (page 0 pageSize gapLog) := by
    rw [page_gapLog]
    exact serves_gapPage
  have hreplied := hleads.step (.reply (replyText gapPage)) hreply
    (step_reply (gapRun watermark) _ rfl hserves hcontains)
  have hcounted := hreplied.step .ingest hingest
    (step_ingest (gapRun watermark) (replyText gapPage) gapPage gapRows _ rfl serves_gapPage
      (scanEntries_gapPage rows inserted hrows))
  have hkept : (gapRows.filter fun row => (1800000100 : Int) - retentionSeconds ≤ row.eventTime) =
      gapRows := by
    decide
  rw [← hkept]
  exact hcounted

theorem allowed_reply (rows : List EventRow) (run : EventRun) (contents : Bytes) :
    Allowed (gapWorld rows (.asking run) gapLog) (.reply contents) := by
  intro run' _ huntimed
  rcases huntimed with ⟨entry, hmem, hnone⟩
  have htimed : ∀ entry ∈ [lastEvent, nextEvent, missedEvent], (entryTime entry).isSome := by
    decide
  have hsome : (entryTime entry).isSome := by
    rcases mem_gapLog entry (List.mem_of_mem_drop (List.mem_of_mem_take hmem)) with
      rfl | rfl | rfl
    all_goals exact htimed _ (by decide)
  rw [hnone] at hsome
  exact absurd hsome (by decide)

theorem allowed_decide (rows : List EventRow) (run : EventRun) (result : IngestResult)
    (hidle : afterPage run result ≠ .idle)
    (hlimit : ∀ run', afterPage run result ≠ .closing run' .limit) :
    Allowed (gapWorld rows (.counted run result) gapLog) .decide := by
  intro run' result' hstage hend
  rcases EventStage.counted.inj hstage with ⟨rfl, rfl⟩
  rcases hend with hend | ⟨run'', hend⟩
  · exact absurd hend hidle
  · exact absurd hend (hlimit run'')

/-- The variables after the first page. -/
def secondRun : EventRun := ⟨0, 1797408100, 300, 1, 300, 2, 1800000030⟩

def lastRun : EventRun := ⟨0, 1797408100, 300, 2, 301, 3, 1800000030⟩

def missedRow : EventRow :=
  eventRow (fun _ => none) (eventHash missedEvent) (ascii "1800000010")

/-- A run that does not fail gets to the end of the log. -/
theorem collected_complete_gapLog :
    Complete (gapWorld (gapRows ++ [missedRow]) (.finished lastRun .short) gapLog) := by
  have hbegin : Leads Allowed (gapWorld [] .idle [])
      (gapWorld [] (.asking (gapRun 0)) gapLog) := Leads.refl.step (.begin true) trivial rfl
  have hstored := leads_gapPage [] 2 (Or.inl rfl) 0 hbegin (allowed_reply _ _ _) trivial
  have hafter : afterPage (gapRun 0) ⟨pageSize, 2, 1800000020, 1800000030⟩ = .asking secondRun := by
    decide
  have hasking : Leads Allowed (gapWorld [] .idle [])
      (gapWorld gapRows (.asking secondRun) gapLog) := by
    rw [← hafter]
    refine hstored.step .decide (allowed_decide _ _ _ ?_ fun run => ?_) rfl
    all_goals
      rw [hafter]
      simp only [ne_eq, reduceCtorEq, not_false_eq_true]
  have hserves : Serves (replyText [missedEvent]) [missedEvent] :=
    serves_replyText [missedEvent] (by decide)
  have hpage : page 300 pageSize gapLog = [missedEvent] := by
    have hlength : (300 : Nat) = gapPage.length := length_gapPage.symm
    rw [page, gapLog, hlength, List.drop_left]
    rfl
  have hreplied := hasking.step (.reply (replyText [missedEvent])) (allowed_reply _ _ _)
    (step_reply secondRun _ rfl (by
      change Serves _ (page 300 pageSize gapLog)
      rw [hpage]
      exact hserves) (List.infix_append' [] (ascii "<ajax-response>") _))
  have hcounted := hreplied.step .ingest trivial
    (step_ingest secondRun _ [missedEvent] (gapRows ++ [missedRow])
      ⟨1, 1, 1800000010, 1800000010⟩ rfl hserves (by
        change scanEntries [missedEvent] (gapRows, ⟨0, 0, 0, 0⟩) = _
        decide +kernel))
  have hkept : ((gapRows ++ [missedRow]).filter fun row =>
      (1800000100 : Int) - retentionSeconds ≤ row.eventTime) = gapRows ++ [missedRow] := by
    decide
  have hcounted' : Leads Allowed (gapWorld [] .idle [])
      (gapWorld (gapRows ++ [missedRow])
        (.counted secondRun ⟨1, 1, 1800000010, 1800000010⟩) gapLog) := by
    rw [← hkept]
    exact hcounted
  have hlast : afterPage secondRun ⟨1, 1, 1800000010, 1800000010⟩ = .closing lastRun .short := by
    decide
  have hclosing : Leads Allowed (gapWorld [] .idle [])
      (gapWorld (gapRows ++ [missedRow]) (.closing lastRun .short) gapLog) := by
    rw [← hlast]
    refine hcounted'.step .decide (allowed_decide _ _ _ ?_ fun run => ?_) rfl
    all_goals
      rw [hlast]
      simp only [ne_eq, reduceCtorEq, EventStage.closing.injEq, and_false, not_false_eq_true]
  exact collected_complete _ _ first_gapWorld (hclosing.step .report trivial rfl)

/-- A run that fails after a page leaves a gap: the next run stops when it sees
    the page again, and the event behind it stays missing. -/
theorem collected_gap :
    ¬ ∀ w w' : EventWorld, First w → Leads (fun _ _ => True) w w' → Complete w' := by
  intro hall
  have hbegin : Leads (fun _ _ => True) (gapWorld [] .idle [])
      (gapWorld [] (.asking (gapRun 0)) gapLog) := Leads.refl.step (.begin true) trivial rfl
  have hstored := leads_gapPage [] 2 (Or.inl rfl) 0 hbegin trivial trivial
  have hfailed : Leads (fun _ _ => True) (gapWorld [] .idle []) (gapWorld gapRows .idle gapLog) :=
    hstored.step .fail trivial rfl
  have hagain : Leads (fun _ _ => True) (gapWorld [] .idle [])
      (gapWorld gapRows (.asking (gapRun 1800000030)) gapLog) :=
    hfailed.step (.begin true) trivial rfl
  have hcounted := leads_gapPage gapRows 0 (Or.inr rfl) 1800000030 hagain trivial trivial
  obtain ⟨run, hafter⟩ : ∃ run,
      afterPage (gapRun 1800000030) ⟨pageSize, 0, 1800000020, 1800000030⟩ = .closing run .overlap :=
    ⟨_, rfl⟩
  have hclosing := hcounted.step .decide trivial (congrArg (fun stage => some
    (gapWorld gapRows stage gapLog)) hafter)
  have hfinished : Leads (fun _ _ => True) (gapWorld [] .idle [])
      (gapWorld gapRows (.finished run .overlap) gapLog) := hclosing.step .report trivial rfl
  have hyoung : (1800000100 : Int) - retentionSeconds < 1800000010 := by decide
  have hmissing : ¬ ∃ row ∈ gapRows, entryRow missedEvent = some row := by decide
  exact hmissing (hall _ _ first_gapWorld hfinished run .overlap rfl (by decide) (by decide)
    missedEvent (List.mem_append_right _ (List.mem_singleton_self _)) 1800000010 (by decide) hyoung)

end EventWorld

end Zd1200
