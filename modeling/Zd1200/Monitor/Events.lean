import Mathlib.Algebra.BigOperators.Group.List.Basic
import Mathlib.Data.UInt
import Zd1200.Monitor.Clients
import Zd1200.Monitor.Tick

/-!
# Events

`ingest_events` of `zd1200-ping-monitor.c`: one page of the controller's event
log is read into the table `zd_event`.

An event is a tag. Its row has the time and a hash of the tag as its key, and
an event that is in the table already is not stored again. So it does not
matter that pages overlap, unless two events of one second have the same hash.

Only the tag is looked at. An attribute is searched for in the whole page, but
what is found behind the tag does not count, so an event has the same row
wherever it stands.

The time is read twice. The row has it as an `int`, while the page's oldest
and newest times, which decide whether another page is wanted, are 64 bits
wide.

## Main definitions

* `EventRow`: A row of the table `zd_event`.
* `ingestEvents`: A page is stored, and old events are deleted.
* `eventWatermark`: The newest time in the table.
* `entryRow`, `entryTime`: The row and the time of an event.
* `Serves`: The events that a page shows.

## Theorems

* `attr_entry`: An attribute of a tag can be read off the tag alone.
* `ingestEvents_serves`: A page is its events.
* `mem_scanEntries`: What the table holds after a page.
* `scanEntries_count`, `scanEntries_oldest`: What is reported about it.
-/

namespace Zd1200

/-- `strtoll` in base 10: a 64-bit integer, which is clamped. -/
def strtoll (text : Bytes) : Int := max (- 2 ^ 63) (min (readInteger text).1 (2 ^ 63 - 1))

/-- `event_hash`. -/
def eventHash (tag : Bytes) : UInt64 :=
  tag.foldl (fun hash c => (hash ^^^ c.toUInt64) * 1099511628211) 1469598103934665603

/-- A row of the table `zd_event`. The hash is stored in hexadecimal. -/
structure EventRow where
  eventTime : Int
  eventHash : UInt64
  severity : Option Int
  category : Option Bytes
  messageId : Option Bytes
  apMac : Option Bytes
  apName : Option Bytes
  clientMac : Option Bytes
  wlan : Option Bytes
  reason : Option Bytes
  details : Option Bytes
  deriving DecidableEq, Repr

/-- The primary key. -/
def EventRow.sameKey (a b : EventRow) : Prop :=
  a.eventTime = b.eventTime ∧ a.eventHash = b.eventHash

instance (a b : EventRow) : Decidable (a.sameKey b) := inferInstanceAs (Decidable (_ ∧ _))

/-- What a page's ingestion reports. -/
structure IngestResult where
  count : Nat
  inserted : Nat
  oldest : Int
  newest : Int
  deriving DecidableEq, Repr

/-- The values of a statement: the attributes of a tag that has a time. -/
def eventRow (read : String → Option Bytes) (hash : UInt64) (time : Bytes) : EventRow :=
  let ap := read "ap"
  let apName := read "ap-name"
  { eventTime := atoi time
    eventHash := hash
    severity := optionalInt (read "severity")
    category := read "c"
    messageId := read "msg"
    apMac := ap.filter validMac
    apName :=
      if apName.any fun name => name ≠ [] then apName else ap.filter fun mac => ¬ validMac mac
    clientMac := read "mac"
    wlan := read "wlan"
    reason := read "reason"
    details := read "lmsg" }

/-- `INSERT OR IGNORE`. -/
def insertEvent (rows : List EventRow) (row : EventRow) : List EventRow :=
  if ∃ old ∈ rows, row.sameKey old then rows else rows ++ [row]

/-- One tag, from its attributes and its hash. A tag without a time is left
    out. -/
def ingestTag (read : String → Option Bytes) (hash : UInt64)
    (state : List EventRow × IngestResult) : List EventRow × IngestResult :=
  let (rows, result) := state
  match read "time" with
  | none => state
  | some [] => state
  | some (c :: rest) =>
      let time := strtoll (c :: rest)
      let rows' := insertEvent rows (eventRow read hash (c :: rest))
      (rows',
        { count := result.count + 1
          inserted := result.inserted + (rows'.length - rows.length)
          oldest := if result.oldest = 0 ∨ time < result.oldest then time else result.oldest
          newest := if result.newest < time then time else result.newest })

/-- A tag and everything up to its `>`. -/
def tagText (text : Bytes) (tag stop : Nat) : Bytes := (text.drop tag).take (stop + 1 - tag)

def xevents (text : Bytes) : List (Nat × Nat) := tags text (ascii "<xevent ")

/-- `ingest_events`, if no statement fails. -/
def ingestEvents (contents : Bytes) (now : Int) (rows : List EventRow) :
    List EventRow × IngestResult :=
  let text := cText contents
  let (rows, result) := (xevents text).foldl
    (fun state (tag, stop) =>
      ingestTag (attr text tag stop) (eventHash (tagText text tag stop)) state)
    (rows, ⟨0, 0, 0, 0⟩)
  (rows.filter fun row => now - retentionSeconds ≤ row.eventTime, result)

/-- `event_watermark`. -/
def eventWatermark (rows : List EventRow) : Int := ((rows.map EventRow.eventTime).max?).getD 0

/-! ### An event by itself -/

/-- An attribute of an event. -/
def entryAttr (entry : Bytes) (name : String) : Option Bytes := attr entry 0 (entry.length - 1) name

/-- The text of an event's time. -/
def entryWhen (entry : Bytes) : Option Bytes := (entryAttr entry "time").filter fun text => text ≠ []

def entryTime (entry : Bytes) : Option Int := (entryWhen entry).map strtoll

def entryRow (entry : Bytes) : Option EventRow :=
  (entryWhen entry).map (eventRow (entryAttr entry) (eventHash entry))

/-- A page shows these events: they are its tags. -/
def Serves (contents : Bytes) (entries : List Bytes) : Prop :=
  (xevents (cText contents)).map (fun (tag, stop) => tagText (cText contents) tag stop) = entries

instance (contents : Bytes) (entries : List Bytes) : Decidable (Serves contents entries) :=
  inferInstanceAs (Decidable (_ = _))

/-- The events of a page, one after another. -/
def scanEntries (entries : List Bytes) (state : List EventRow × IngestResult) :
    List EventRow × IngestResult :=
  entries.foldl (fun state entry => ingestTag (entryAttr entry) (eventHash entry) state) state

section Tag

variable {text : Bytes} {tag stop : Nat}

theorem getElem?_tagText (hle : tag ≤ stop) (k : Nat) :
    (tagText text tag stop)[k]? = if tag + k ≤ stop then text[tag + k]? else none := by
  rw [tagText, List.getElem?_take, List.getElem?_drop]
  exact if_congr (by omega) rfl rfl

/-- A tag ends at the first `>`. -/
theorem tag_stop (hstop : findFrom text (ascii ">") tag = some stop) :
    tag ≤ stop ∧ text[stop]? = some 62 ∧ stop < text.length := by
  rcases (findFrom_eq_some_iff text _ tag stop (by decide)).mp hstop with ⟨hle, hocc, -⟩
  exact ⟨hle, (occurs_iff text _ stop).mp hocc 0 (by decide), hocc.lt (by decide)⟩

theorem length_tagText (hstop : findFrom text (ascii ">") tag = some stop) :
    (tagText text tag stop).length = stop + 1 - tag := by
  have hlt := (tag_stop hstop).2.2
  rw [tagText, List.length_take, List.length_drop]
  omega

/-- What has no `>` occurs in a tag where it occurs in the text in front of the
    tag's end. -/
theorem occurs_tagText (hstop : findFrom text (ascii ">") tag = some stop) {needle : Bytes}
    (hne : needle ≠ []) (hneedle : 62 ∉ needle) (k : Nat) :
    Occurs (tagText text tag stop) needle k ↔ tag + k < stop ∧ Occurs text needle (tag + k) := by
  rcases tag_stop hstop with ⟨hle, hend, -⟩
  have hpos := List.length_pos_iff.mpr hne
  have hnot : ∀ i : Nat, needle[i]? ≠ some 62 := fun i h => hneedle (List.mem_of_getElem? h)
  rw [occurs_iff, occurs_iff]
  constructor
  · intro hocc
    have hinside : ∀ i, i < needle.length →
        tag + (k + i) ≤ stop ∧ text[tag + (k + i)]? = needle[i]? := by
      intro i hi
      have h := hocc i hi
      rw [getElem?_tagText hle, List.getElem?_eq_getElem hi] at h
      split at h
      · next hin => exact ⟨hin, by rw [h, List.getElem?_eq_getElem hi]⟩
      · exact absurd h (by simp only [reduceCtorEq, not_false_eq_true])
    refine ⟨?_, fun i hi => ?_⟩
    · rcases Nat.lt_or_ge (tag + k) stop with hlt | hge
      · exact hlt
      · -- The first character would be the `>`.
        have hfirst := hinside 0 hpos
        have heq : tag + (k + 0) = stop := by omega
        rw [heq, hend] at hfirst
        exact absurd hfirst.2.symm (hnot 0)
    · rw [Nat.add_assoc]
      exact (hinside i hi).2
  · rintro ⟨hlt, hocc⟩ i hi
    have hin : tag + (k + i) ≤ stop := by
      by_contra hout
      -- The `>` would be among the characters.
      have hcross := hocc (stop - (tag + k)) (by omega)
      have heq : tag + k + (stop - (tag + k)) = stop := by omega
      rw [heq, hend] at hcross
      exact hnot _ hcross.symm
    rw [getElem?_tagText hle, if_pos hin, ← Nat.add_assoc]
    exact hocc i hi

/-- A search in a tag is one in the text that ends with the tag. -/
theorem findFrom_tagText (hstop : findFrom text (ascii ">") tag = some stop) {needle : Bytes}
    (hne : needle ≠ []) (hneedle : 62 ∉ needle) (start : Nat) :
    findFrom (tagText text tag stop) needle start =
      (findFrom text needle (tag + start)).bind fun hit =>
        if hit < stop then some (hit - tag) else none := by
  have hoccurs := occurs_tagText hstop hne hneedle
  cases hfind : findFrom text needle (tag + start) with
  | none =>
      rw [Option.bind_none, findFrom_eq_none_iff _ _ _ hne]
      intro j hj hocc
      exact (findFrom_eq_none_iff text needle _ hne).mp hfind (tag + j) (by omega)
        ((hoccurs j).mp hocc).2
  | some hit =>
      rcases (findFrom_eq_some_iff text needle _ hit hne).mp hfind with ⟨hge, hocc, hfirst⟩
      rw [Option.bind_some]
      by_cases hlt : hit < stop
      · have hsum : tag + (hit - tag) = hit := by omega
        rw [if_pos hlt, findFrom_eq_some_iff _ _ _ _ hne]
        refine ⟨by omega, (hoccurs _).mpr (by rw [hsum]; exact ⟨hlt, hocc⟩), ?_⟩
        intro j hj hjlt hjocc
        exact hfirst (tag + j) (by omega) (by omega) ((hoccurs j).mp hjocc).2
      · rw [if_neg hlt, findFrom_eq_none_iff _ _ _ hne]
        intro j hj hjocc
        have hj' := (hoccurs j).mp hjocc
        exact hfirst (tag + j) (by omega) (by omega) hj'.2

/-- An attribute of a tag can be read off the tag alone. -/
theorem attr_entry (hstop : findFrom text (ascii ">") tag = some stop) (name : String)
    (hname : 62 ∉ ascii (" " ++ name ++ "=\"")) (hne : ascii (" " ++ name ++ "=\"") ≠ []) :
    attr text tag stop name = entryAttr (tagText text tag stop) name := by
  rcases tag_stop hstop with ⟨hle, hend, -⟩
  have hlast : (tagText text tag stop).length - 1 = stop - tag := by
    rw [length_tagText hstop]
    omega
  unfold entryAttr attr
  simp only [hlast]
  rw [findFrom_tagText hstop hne hname, Nat.add_zero]
  cases hfind : findFrom text (ascii (" " ++ name ++ "=\"")) tag with
  | none => rfl
  | some hit =>
      rw [Option.bind_some]
      have hhit := ((findFrom_eq_some_iff text _ _ hit hne).mp hfind).1
      by_cases hlt : hit < stop
      · rw [if_pos hlt]
        simp only [if_neg (Nat.not_le_of_lt hlt), if_neg (by omega : ¬ stop - tag ≤ hit - tag)]
        have hsum : tag + (hit - tag + (ascii (" " ++ name ++ "=\"")).length) =
            hit + (ascii (" " ++ name ++ "=\"")).length := by omega
        rw [findFrom_tagText hstop (by decide) (by decide), hsum]
        cases hquote : findFrom text (ascii "\"")
            (hit + (ascii (" " ++ name ++ "=\"")).length) with
        | none => rfl
        | some quote =>
            rw [Option.bind_some]
            rcases (findFrom_eq_some_iff text _ _ quote (by decide)).mp hquote with ⟨hge, hocc, -⟩
            have hquoted : text[quote]? = some 34 := (occurs_iff text _ quote).mp hocc 0 (by decide)
            have hneq : quote ≠ stop := by
              rintro rfl
              rw [hend] at hquoted
              exact absurd hquoted (by decide)
            by_cases hin : quote < stop
            · rw [if_pos hin]
              simp only [if_neg (Nat.not_lt_of_le (Nat.le_of_lt hin)),
                if_neg (by omega : ¬ stop - tag < quote - tag), Option.some.injEq]
              rw [tagText, List.drop_take, List.drop_drop, List.take_take, hsum]
              congr 1
              omega
            · rw [if_neg hin]
              exact if_pos (by omega)
      · rw [if_neg hlt]
        exact if_pos (Nat.le_of_not_lt hlt)

end Tag

/-! ### A page by its events -/

/-- The attributes that are read. -/
def eventNames : List String :=
  ["time", "severity", "c", "msg", "ap", "ap-name", "mac", "wlan", "reason", "lmsg"]

theorem ingestTag_congr (read read' : String → Option Bytes) (hash : UInt64)
    (state : List EventRow × IngestResult) (h : ∀ name ∈ eventNames, read name = read' name) :
    ingestTag read hash state = ingestTag read' hash state := by
  unfold ingestTag eventRow
  rw [h "time" (by decide), h "severity" (by decide), h "c" (by decide), h "msg" (by decide),
    h "ap" (by decide), h "ap-name" (by decide), h "mac" (by decide), h "wlan" (by decide),
    h "reason" (by decide), h "lmsg" (by decide)]

theorem not_mem_needle : ∀ name ∈ eventNames,
    62 ∉ ascii (" " ++ name ++ "=\"") ∧ ascii (" " ++ name ++ "=\"") ≠ [] := by
  decide

/-- A page is its events. -/
theorem ingestEvents_serves (contents : Bytes) (entries : List Bytes) (h : Serves contents entries)
    (now : Int) (rows : List EventRow) :
    ingestEvents contents now rows =
      ((scanEntries entries (rows, ⟨0, 0, 0, 0⟩)).1.filter fun row =>
          now - retentionSeconds ≤ row.eventTime,
        (scanEntries entries (rows, ⟨0, 0, 0, 0⟩)).2) := by
  have hscan : (xevents (cText contents)).foldl
      (fun state (tag, stop) => ingestTag (attr (cText contents) tag stop)
        (eventHash (tagText (cText contents) tag stop)) state) (rows, ⟨0, 0, 0, 0⟩) =
      scanEntries entries (rows, ⟨0, 0, 0, 0⟩) := by
    rw [← h, scanEntries, List.foldl_map]
    refine List.foldl_ext _ _ _ fun state (tag, stop) hmem => ?_
    have hstop := (mem_tagsFrom _ _ (by decide) _ _ tag stop hmem).2.2
    refine ingestTag_congr _ _ _ _ fun name hname => ?_
    exact attr_entry hstop name (not_mem_needle name hname).1 (not_mem_needle name hname).2
  simp only [ingestEvents, hscan]

theorem scanEntries_append (entries others : List Bytes) (state : List EventRow × IngestResult) :
    scanEntries (entries ++ others) state = scanEntries others (scanEntries entries state) :=
  List.foldl_append

theorem scanEntries_concat (entries : List Bytes) (entry : Bytes)
    (state : List EventRow × IngestResult) :
    scanEntries (entries ++ [entry]) state =
      ingestTag (entryAttr entry) (eventHash entry) (scanEntries entries state) :=
  scanEntries_append entries [entry] state

/-- An event without a time is left out. -/
theorem ingestTag_untimed (entry : Bytes) (state : List EventRow × IngestResult)
    (h : entryWhen entry = none) : ingestTag (entryAttr entry) (eventHash entry) state = state := by
  unfold entryWhen at h
  unfold ingestTag
  cases htime : entryAttr entry "time" with
  | none => rfl
  | some text =>
      cases text with
      | nil => rfl
      | cons c rest =>
          rw [htime] at h
          exact absurd h (by simp only [Option.filter_some, ne_eq, reduceCtorEq, not_false_eq_true,
            decide_true, if_true])

/-- An event with a time has a row, which is stored unless its key is there. -/
theorem ingestTag_timed (entry text : Bytes) (state : List EventRow × IngestResult)
    (h : entryWhen entry = some text) :
    (ingestTag (entryAttr entry) (eventHash entry) state).1 =
        insertEvent state.1 (eventRow (entryAttr entry) (eventHash entry) text) ∧
      (ingestTag (entryAttr entry) (eventHash entry) state).2.count = state.2.count + 1 ∧
      (ingestTag (entryAttr entry) (eventHash entry) state).2.oldest =
        if state.2.oldest = 0 ∨ strtoll text < state.2.oldest then strtoll text
        else state.2.oldest := by
  unfold entryWhen at h
  rw [Option.filter_eq_some_iff] at h
  rcases h with ⟨htime, hne⟩
  unfold ingestTag
  rw [htime]
  cases text with
  | nil => exact absurd hne (by decide)
  | cons c rest => exact ⟨rfl, rfl, rfl⟩

theorem mem_insertEvent (rows : List EventRow) (row old : EventRow) (h : old ∈ rows) :
    old ∈ insertEvent rows row := by
  unfold insertEvent
  split
  · exact h
  · exact List.mem_append_left _ h

theorem of_mem_insertEvent (rows : List EventRow) (row new : EventRow)
    (h : new ∈ insertEvent rows row) : new ∈ rows ∨ new = row := by
  unfold insertEvent at h
  split at h
  · exact Or.inl h
  · rcases List.mem_append.mp h with h | h
    · exact Or.inl h
    · exact Or.inr (List.mem_singleton.mp h)

theorem insertEvent_sameKey (rows : List EventRow) (row : EventRow) :
    ∃ old ∈ insertEvent rows row, row.sameKey old := by
  unfold insertEvent
  split
  · next h => exact h
  · exact ⟨row, List.mem_append_right _ (List.mem_singleton_self row), rfl, rfl⟩

section Scan

variable (entries : List Bytes) (state : List EventRow × IngestResult)

/-- Rows stay. -/
theorem subset_scanEntries (row : EventRow) (h : row ∈ state.1) :
    row ∈ (scanEntries entries state).1 := by
  induction entries using List.reverseRecOn with
  | nil => exact h
  | append_singleton entries entry ih =>
      rw [scanEntries_concat]
      cases hwhen : entryWhen entry with
      | none => rwa [ingestTag_untimed _ _ hwhen]
      | some text =>
          rw [(ingestTag_timed _ _ _ hwhen).1]
          exact mem_insertEvent _ _ _ ih

/-- New rows are those of events. -/
theorem mem_scanEntries (row : EventRow) (h : row ∈ (scanEntries entries state).1) :
    row ∈ state.1 ∨ ∃ entry ∈ entries, entryRow entry = some row := by
  induction entries using List.reverseRecOn with
  | nil => exact Or.inl h
  | append_singleton entries entry ih =>
      rw [scanEntries_concat] at h
      have hbefore : row ∈ (scanEntries entries state).1 →
          row ∈ state.1 ∨ ∃ other ∈ entries ++ [entry], entryRow other = some row := by
        intro hrow
        rcases ih hrow with hold | ⟨other, hother, heq⟩
        · exact Or.inl hold
        · exact Or.inr ⟨other, List.mem_append_left _ hother, heq⟩
      cases hwhen : entryWhen entry with
      | none =>
          rw [ingestTag_untimed _ _ hwhen] at h
          exact hbefore h
      | some text =>
          rw [(ingestTag_timed _ _ _ hwhen).1] at h
          rcases of_mem_insertEvent _ _ _ h with hrow | heq
          · exact hbefore hrow
          · refine Or.inr ⟨entry, List.mem_append_right _ (List.mem_singleton_self entry), ?_⟩
            rw [entryRow, hwhen, Option.map_some, heq]

/-- Every event with a time is there, at least by its key. -/
theorem sameKey_scanEntries (entry : Bytes) (hentry : entry ∈ entries) (row : EventRow)
    (hrow : entryRow entry = some row) :
    ∃ old ∈ (scanEntries entries state).1, row.sameKey old := by
  induction entries using List.reverseRecOn with
  | nil => exact absurd hentry List.not_mem_nil
  | append_singleton entries last ih =>
      rw [scanEntries_concat]
      rcases List.mem_append.mp hentry with hmem | hmem
      · rcases ih hmem with ⟨old, hold, hkey⟩
        cases hwhen : entryWhen last with
        | none =>
            rw [ingestTag_untimed _ _ hwhen]
            exact ⟨old, hold, hkey⟩
        | some text =>
            rw [(ingestTag_timed _ _ _ hwhen).1]
            exact ⟨old, mem_insertEvent _ _ _ hold, hkey⟩
      · rw [List.mem_singleton.mp hmem, entryRow, Option.map_eq_some_iff] at hrow
        rcases hrow with ⟨text, hwhen, rfl⟩
        rw [(ingestTag_timed _ _ _ hwhen).1]
        exact insertEvent_sameKey _ _

/-- The events with a time are counted. -/
theorem scanEntries_count :
    (scanEntries entries state).2.count =
      state.2.count + entries.countP fun entry => (entryWhen entry).isSome := by
  induction entries using List.reverseRecOn with
  | nil => rfl
  | append_singleton entries entry ih =>
      rw [scanEntries_concat, List.countP_append, List.countP_singleton]
      cases hwhen : entryWhen entry with
      | none =>
          rw [ingestTag_untimed _ _ hwhen, ih]
          rfl
      | some text =>
          rw [(ingestTag_timed _ _ _ hwhen).2.1, ih]
          rfl

/-- The oldest time is that of an event. -/
theorem scanEntries_oldest (hcount : state.2.count = 0) (holdest : state.2.oldest = 0) :
    ((scanEntries entries state).2.count = 0 → (scanEntries entries state).2.oldest = 0) ∧
      ((scanEntries entries state).2.count ≠ 0 →
        ∃ entry ∈ entries, entryTime entry = some (scanEntries entries state).2.oldest) := by
  induction entries using List.reverseRecOn with
  | nil => exact ⟨fun _ => holdest, fun h => absurd hcount h⟩
  | append_singleton entries entry ih =>
      rcases ih with ⟨hnone, hsome⟩
      rw [scanEntries_concat]
      cases hwhen : entryWhen entry with
      | none =>
          rw [ingestTag_untimed _ _ hwhen]
          refine ⟨hnone, fun h => ?_⟩
          rcases hsome h with ⟨other, hother, htime⟩
          exact ⟨other, List.mem_append_left _ hother, htime⟩
      | some text =>
          rcases ingestTag_timed entry text (scanEntries entries state) hwhen with
            ⟨-, hcount', holdest'⟩
          rw [hcount', holdest']
          refine ⟨fun h => absurd h (Nat.succ_ne_zero _), fun _ => ?_⟩
          split
          · exact ⟨entry, List.mem_append_right _ (List.mem_singleton_self entry), by
              rw [entryTime, hwhen, Option.map_some]⟩
          · next hkeep =>
              -- The time is kept, so it is not zero, and there was an event before.
              rcases hsome fun h => hkeep (Or.inl (hnone h)) with ⟨other, hother, htime⟩
              exact ⟨other, List.mem_append_left _ hother, htime⟩

end Scan

/-- An event that is stored already is only counted. -/
theorem ingestTag_again (entry : Bytes) (rows : List EventRow) (result : IngestResult)
    (h : ingestTag (entryAttr entry) (eventHash entry) (rows, result) =
      (rows, { result with count := result.count + 1 })) (k : Nat) :
    ingestTag (entryAttr entry) (eventHash entry) (rows, { result with count := k }) =
      (rows, { result with count := k + 1 }) := by
  unfold ingestTag at h ⊢
  simp only at h ⊢
  cases htime : entryAttr entry "time" with
  | none =>
      rw [htime] at h
      exact absurd (congrArg (fun state => state.2.count) h) (Nat.ne_of_lt (Nat.lt_succ_self _))
  | some text =>
      rw [htime] at h
      cases text with
      | nil =>
          exact absurd (congrArg (fun state => state.2.count) h) (Nat.ne_of_lt (Nat.lt_succ_self _))
      | cons c rest =>
          simp only [Prod.mk.injEq, IngestResult.mk.injEq, true_and] at h ⊢
          exact h

theorem scanEntries_replicate (entry : Bytes) (rows : List EventRow) (result : IngestResult)
    (h : ingestTag (entryAttr entry) (eventHash entry) (rows, result) =
      (rows, { result with count := result.count + 1 })) (n : Nat) :
    scanEntries (List.replicate n entry) (rows, result) =
      (rows, { result with count := result.count + n }) := by
  induction n with
  | zero => rfl
  | succ n ih =>
      rw [List.replicate_succ', scanEntries_concat, ih, ingestTag_again entry rows result h,
        Nat.add_assoc]

/-! ### A reply -/

/-- The text of an event: one tag. -/
structure IsXevent (entry : Bytes) : Prop where
  opening : ascii "<xevent " <+: entry
  closing : entry.getLast? = some 62
  single : 62 ∉ entry.dropLast
  noZero : 0 ∉ entry

instance (entry : Bytes) : Decidable (IsXevent entry) :=
  decidable_of_iff (ascii "<xevent " <+: entry ∧ entry.getLast? = some 62 ∧ 62 ∉ entry.dropLast ∧
      0 ∉ entry)
    ⟨fun h => ⟨h.1, h.2.1, h.2.2.1, h.2.2.2⟩, fun h => ⟨h.opening, h.closing, h.single, h.noZero⟩⟩

/-- Events in a response. -/
def replyText (entries : List Bytes) : Bytes :=
  ascii "<ajax-response>" ++ entries.flatten ++ ascii "</ajax-response>"

theorem findFrom_skip {text needle : Bytes} {start : Nat} (hne : needle ≠ [])
    (h : ∀ j < start, ¬ Occurs text needle j) :
    findFrom text needle 0 = findFrom text needle start := by
  apply Option.ext
  intro hit
  rw [findFrom_eq_some_iff _ _ _ _ hne, findFrom_eq_some_iff _ _ _ _ hne]
  constructor
  · rintro ⟨-, hocc, hfirst⟩
    exact ⟨Nat.le_of_not_lt fun hlt => h hit hlt hocc, hocc, fun j _ => hfirst j (Nat.zero_le j)⟩
  · rintro ⟨-, hocc, hfirst⟩
    refine ⟨Nat.zero_le hit, hocc, fun j _ hlt hjocc => ?_⟩
    exact hfirst j (Nat.le_of_not_lt fun hj => h j hj hjocc) hlt hjocc

theorem findIn_of_prefix {needle text : Bytes} (hne : needle ≠ []) (h : needle <+: text) :
    findIn needle text = some 0 := by
  cases text with
  | nil => exact absurd (List.prefix_nil.mp h) hne
  | cons c rest => rw [findIn, if_pos (List.isPrefixOf_iff_prefix.mpr h)]

/-- The first `>` of an event is its last character. -/
theorem findFrom_close (before entry after : Bytes) (h : IsXevent entry) :
    findFrom (before ++ (entry ++ after)) (ascii ">") before.length =
      some (before.length + (entry.length - 1)) := by
  have hne : entry ≠ [] := by
    rintro rfl
    exact absurd h.closing (by decide)
  have hpos := List.length_pos_iff.mpr hne
  have hget : ∀ k : Nat, k < entry.length →
      (before ++ (entry ++ after))[before.length + k]? = entry[k]? := by
    intro k hk
    rw [List.getElem?_append_right (Nat.le_add_right _ _), Nat.add_sub_cancel_left,
      List.getElem?_append_left hk]
  rw [findFrom_eq_some_iff _ _ _ _ (by decide)]
  refine ⟨Nat.le_add_right _ _, (occurs_iff _ _ _).mpr fun k hk => ?_, fun j hge hlt hocc => ?_⟩
  · have hzero : k = 0 := by
      change k < 1 at hk
      omega
    rw [hzero, Nat.add_zero, hget _ (by omega), ← List.getLast?_eq_getElem?, h.closing]
    rfl
  · have hfirst := (occurs_iff _ _ _).mp hocc 0 (by decide)
    have hsum : j + 0 = before.length + (j - before.length) := by omega
    rw [hsum, hget _ (by omega)] at hfirst
    have hinit : entry.dropLast[j - before.length]? = some 62 := by
      rw [List.dropLast_eq_take, List.getElem?_take, if_pos (by omega)]
      exact hfirst
    exact h.single (List.mem_of_getElem? hinit)

/-- The tags of a sequence of events are the events. -/
theorem tagsFrom_flatten (after : Bytes) (hafter : findIn (ascii "<xevent ") after = none)
    (entries : List Bytes) (hentries : ∀ entry ∈ entries, IsXevent entry) (fuel : Nat)
    (hfuel : entries.length < fuel) (before : Bytes) :
    (tagsFrom (before ++ (entries.flatten ++ after)) (ascii "<xevent ") fuel before.length).map
      (fun (tag, stop) => tagText (before ++ (entries.flatten ++ after)) tag stop) = entries := by
  induction entries generalizing fuel before with
  | nil =>
      rcases Nat.exists_eq_succ_of_ne_zero (Nat.ne_of_gt hfuel) with ⟨fuel, rfl⟩
      have hnone : findFrom (before ++ (([] : List Bytes).flatten ++ after)) (ascii "<xevent ")
          before.length = none := by
        rw [findFrom, List.drop_left, List.flatten_nil, List.nil_append, hafter, Option.map_none]
      rw [tagsFrom, hnone]
      rfl
  | cons entry entries ih =>
      rcases Nat.exists_eq_succ_of_ne_zero (Nat.ne_of_gt (Nat.zero_lt_of_lt hfuel)) with
        ⟨fuel, rfl⟩
      rcases List.forall_mem_cons.mp hentries with ⟨hentry, hrest⟩
      have hpos : 0 < entry.length :=
        Nat.lt_of_lt_of_le (by decide : 0 < (ascii "<xevent ").length) hentry.opening.length_le
      have htext : before ++ ((entry :: entries).flatten ++ after) =
          before ++ (entry ++ (entries.flatten ++ after)) := by
        rw [List.flatten_cons, List.append_assoc]
      have hopen : findFrom (before ++ (entry ++ (entries.flatten ++ after))) (ascii "<xevent ")
          before.length = some before.length := by
        rw [findFrom, List.drop_left, findIn_of_prefix (by decide)
          (hentry.opening.trans (List.prefix_append _ _)), Option.map_some, Nat.add_zero]
      have htag : tagText (before ++ (entry ++ (entries.flatten ++ after))) before.length
          (before.length + (entry.length - 1)) = entry := by
        have hlength : before.length + (entry.length - 1) + 1 - before.length = entry.length := by
          omega
        rw [tagText, List.drop_left, hlength, List.take_left]
      have hnext : before.length + (entry.length - 1) + 1 = (before ++ entry).length := by
        rw [List.length_append]
        omega
      rw [htext, tagsFrom, hopen]
      simp only [findFrom_close before entry _ hentry, List.map_cons, htag, hnext]
      rw [← List.append_assoc before, ih hrest fuel (by rw [List.length_cons] at hfuel; omega)]

/-- A response shows its events. -/
theorem serves_replyText (entries : List Bytes) (hentries : ∀ entry ∈ entries, IsXevent entry) :
    Serves (replyText entries) entries := by
  have hzero : cText (replyText entries) = replyText entries := by
    refine List.takeWhile_eq_self_iff.mpr fun c hc => decide_eq_true ?_
    rintro rfl
    rcases List.mem_append.mp hc with hc | hc
    · rcases List.mem_append.mp hc with hc | hc
      · exact absurd hc (by decide)
      · rcases List.mem_flatten.mp hc with ⟨entry, hmem, hc⟩
        exact (hentries entry hmem).noZero hc
    · exact absurd hc (by decide)
  have hreply : replyText entries =
      ascii "<ajax-response>" ++ (entries.flatten ++ ascii "</ajax-response>") :=
    List.append_assoc _ _ _
  have hfuel : entries.length < (replyText entries).length + 1 := by
    have hlength : entries.length ≤ entries.flatten.length := by
      rw [List.length_flatten, ← List.length_map]
      refine List.length_le_sum_of_one_le _ fun n hn => ?_
      rcases List.mem_map.mp hn with ⟨entry, hmem, rfl⟩
      exact Nat.le_trans (by decide) (hentries entry hmem).opening.length_le
    rw [hreply, List.length_append, List.length_append]
    omega
  have hskip : findFrom (replyText entries) (ascii "<xevent ") 0 =
      findFrom (replyText entries) (ascii "<xevent ") (ascii "<ajax-response>").length := by
    refine findFrom_skip (by decide) fun j hj hocc => ?_
    -- In front of the events there is only one `<`, and no `x` behind it.
    have hget : ∀ k : Nat, k < 15 →
        (replyText entries)[k]? = (ascii "<ajax-response>")[k]? := by
      intro k hk
      rw [hreply, List.getElem?_append_left hk]
    have hfirst := (occurs_iff _ _ _).mp hocc 0 (by decide)
    have hsecond := (occurs_iff _ _ _).mp hocc 1 (by decide)
    rw [Nat.add_zero, hget j hj] at hfirst
    have hzero : j = 0 := by
      have hall : ∀ k < 15, (ascii "<ajax-response>")[k]? = (ascii "<xevent ")[0]? → k = 0 := by
        decide
      exact hall j hj hfirst
    rw [hzero, hget _ (by decide)] at hsecond
    exact absurd hsecond (by decide)
  have hstart : tags (replyText entries) (ascii "<xevent ") =
      tagsFrom (replyText entries) (ascii "<xevent ") ((replyText entries).length + 1)
        (ascii "<ajax-response>").length := by
    rw [tags, tagsFrom, tagsFrom, hskip]
  unfold Serves xevents
  rw [hzero, hstart]
  rw [hreply] at hfuel ⊢
  exact tagsFrom_flatten (ascii "</ajax-response>") (by decide) entries hentries _ hfuel _

end Zd1200
