import Zd1200.Lib.Redirect
import Zd1200.Lib.Sed
import Zd1200.Host.Signature

/-!
# The Saved Settings of the Monitor

`ping-monitor-settings-sync.sh`, which looks for the settings of the monitor in
the controller's journal and keeps the last ones that were valid.

The page saves its settings as one element, and the controller writes the
request into a journal. The script takes the element out of the last record of
its kind. What it accepts goes to a cache, over a file under another name, and
what it prints comes from the cache. So a journal that was cut short, or a
record that makes no sense, leaves the settings as they were.

The cache is refined by an optional setting: `acceptedAfter` is what the
script's runs come to if nothing is known of files, and `settingsSync_refines`
says that the cache holds its text and nothing else. A run that is killed
before the file is moved counts for nothing.

The journal is written by the controller, and so its text is arbitrary. Zero
bytes in it are left out.

## Main definitions

* `NativeSettings`: Settings that have passed the checks.
* `preference`: What the script takes out of a journal.
* `settingsSync`: The script.
* `acceptedAfter`: What is accepted after some runs.
* `savedElement`: The element that the page saves.

## Theorems

* `NativeSettings.parseSettings_text`: The cache is read back.
* `settingsSync_refines`: The cache over sequences of runs.
* `preference_saved`: What the page saved is what the script takes.
-/

namespace Zd1200

/-! ### The checks -/

/-- `case "$value" in ''|*[!0-9]*)` does not hold. -/
def isDigits (value : Bytes) : Bool := value ≠ [] ∧ value.all isDigit = true

/-- Digits between the bounds of the script. Numbers that are too large for a
    comparison fail it. -/
def isPollInterval (value : Bytes) : Bool :=
  isDigits value = true ∧ 30 ≤ decimal value ∧ decimal value ≤ 3600

/-- Settings that have passed the checks. -/
structure NativeSettings where
  enabled : Bytes
  interval : Bytes
  updated : Bytes
  enabled_switch : isSwitch enabled = true
  interval_valid : isPollInterval interval = true
  updated_digits : isDigits updated = true
  deriving DecidableEq

/-- The checks of `emit_if_valid`. -/
def emitIfValid (enabled interval updated : Bytes) : Option NativeSettings :=
  if h : isSwitch enabled = true ∧ isPollInterval interval = true ∧ isDigits updated = true then
    some ⟨enabled, interval, updated, h.1, h.2.1, h.2.2⟩
  else none

/-- The lines that `emit_if_valid` prints. -/
def NativeSettings.fields (s : NativeSettings) : List (Bytes × Bytes) :=
  [(ascii "HAS_NATIVE_SETTINGS=", [49]), (ascii "MONITORING_ENABLED=", s.enabled),
    (ascii "MONITOR_INTERVAL_SECONDS=", s.interval), (ascii "PREFERENCE_UPDATED_AT=", s.updated)]

def NativeSettings.text (s : NativeSettings) : Bytes := fieldText 10 s.fields

theorem NativeSettings.emitIfValid_eq (s : NativeSettings) :
    emitIfValid s.enabled s.interval s.updated = some s := by
  rw [emitIfValid, dif_pos ⟨s.enabled_switch, s.interval_valid, s.updated_digits⟩]

/-! ### The journal -/

/-- The line passes both `grep`s. -/
def isSettingsRecord (line : Bytes) : Bool :=
  ascii "updater=\"zd1200-ping-monitor\"" <:+: line ∧ ascii "action=\"setpref\"" <:+: line

/-- The last record, or none. -/
def settingsRecord (journal : Bytes) : Bytes :=
  ((journal.splitOn 10).filter isSettingsRecord).getLast?.getD []

/-- `<zd1200-ping-monitor [^>]*\/>` at the front of a text. -/
def elementAt (line : Bytes) : Option Bytes :=
  ((ascii "<zd1200-ping-monitor ").isPrefixOf? line).bind fun after =>
    let body := after.takeWhile (· ≠ 62)
    if 62 ∈ after ∧ body.getLast? = some 47 then
      some (ascii "<zd1200-ping-monitor " ++ (body ++ [62]))
    else none

/-- The element of a record. -/
def settingsElement (record : Bytes) : Bytes := (lastMatch elementAt record).getD []

/-- `attribute "$element" name`. -/
def attributeOf (element : Bytes) (name : String) : Bytes :=
  (lastMatch (quotedBehind 34 (32 :: (ascii name ++ [61, 34]))) element).getD []

/-- The switch of an element. An earlier page had two of them. -/
def enabledOf (element : Bytes) : Bytes :=
  let enabled := attributeOf element "enabled"
  if enabled ≠ [] then enabled
  else
    match attributeOf element "ping-enabled", attributeOf element "snapshot-enabled" with
    | [48], [48] => [48]
    | [48], [49] | [49], [48] | [49], [49] => [49]
    | _, _ => []

/-- What the script takes out of a journal. -/
def preference (journal : Bytes) : Option NativeSettings :=
  let element := settingsElement (settingsRecord journal)
  if element = [] then none
  else
    (emitIfValid (enabledOf element) (attributeOf element "interval")
      (attributeOf element "updated-at")).or
    (emitIfValid (enabledOf element) (attributeOf element "ping-interval")
      (attributeOf element "updated-at"))

/-! ### The script -/

inductive SettingsFile
  | cache
  | temporary (pid : Nat)
  deriving DecidableEq

/-- A run that may be killed. The journal may not be there. -/
structure SyncEvent where
  journal : Option Bytes
  pid : Nat
  steps : Nat

/-- What a run would accept. -/
def SyncEvent.accepts (e : SyncEvent) : Option NativeSettings := e.journal.bind preference

/-- What the script does to the files. -/
def settingsSync (e : SyncEvent) : Script (Files SettingsFile UInt8) :=
  match e.accepts with
  | none => .skip
  | some s =>
      (redirect (.temporary e.pid) s.text).seq (.cmd (moveFile (.temporary e.pid) .cache))

/-- The settings of a text that was printed. -/
def parseSettings (text : Bytes) : Option NativeSettings :=
  emitIfValid (firstField 10 (ascii "MONITORING_ENABLED=") text)
    (firstField 10 (ascii "MONITOR_INTERVAL_SECONDS=") text)
    (firstField 10 (ascii "PREFERENCE_UPDATED_AT=") text)

/-- What a run prints that comes to its end. -/
def settingsPrinted (files : Files SettingsFile UInt8) : Bytes :=
  (((files.lookup .cache).bind parseSettings).map NativeSettings.text).getD []

/-- The files after some runs. -/
def settingsFiles (events : List SyncEvent) : Files SettingsFile UInt8 :=
  events.foldl (fun files e => ((settingsSync e).run e.steps files).1) ∅

/-! ### What the runs come to -/

/-- The run gets to the end of what it does to the files. -/
def SyncEvent.completes (e : SyncEvent) : Bool :=
  e.accepts.all fun s => s.text.length + 2 ≤ e.steps

/-- What is accepted after some runs. -/
def acceptedAfter (events : List SyncEvent) : Option NativeSettings :=
  events.foldl (fun s e => if e.completes then e.accepts.or s else s) none

theorem not_mem_of_isDigits {value : Bytes} (h : isDigits value = true) (c : UInt8)
    (hc : isDigit c = false) : c ∉ value := by
  intro hmem
  rw [isDigits, decide_eq_true_eq, List.all_eq_true] at h
  exact absurd (h.2 c hmem) (by rw [hc]; exact Bool.false_ne_true)

theorem isDigits_of_isPollInterval {value : Bytes} (h : isPollInterval value = true) :
    isDigits value = true := by
  rw [isPollInterval, decide_eq_true_eq] at h
  exact h.1

/-- The fields of a setting are told apart, and have no line ends in them. -/
theorem NativeSettings.fields_readable (s : NativeSettings) :
    (∀ field ∈ s.fields, (10 : UInt8) ∉ field.1 ∧ (10 : UInt8) ∉ field.2) ∧
      KeysApart (s.fields.map Prod.fst) := by
  have hinterval := not_mem_of_isDigits (isDigits_of_isPollInterval s.interval_valid) 10 (by decide)
  have hupdated := not_mem_of_isDigits s.updated_digits 10 (by decide)
  constructor
  · intro field hfield
    simp only [fields, List.mem_cons, List.not_mem_nil, or_false] at hfield
    rcases hfield with rfl | rfl | rfl | rfl
    · decide
    · exact ⟨(by decide : (10 : UInt8) ∉ ascii "MONITORING_ENABLED="),
        not_mem_of_isSwitch s.enabled_switch⟩
    · exact ⟨(by decide : (10 : UInt8) ∉ ascii "MONITOR_INTERVAL_SECONDS="), hinterval⟩
    · exact ⟨(by decide : (10 : UInt8) ∉ ascii "PREFERENCE_UPDATED_AT="), hupdated⟩
  · exact (by decide : KeysApart [ascii "HAS_NATIVE_SETTINGS=", ascii "MONITORING_ENABLED=",
      ascii "MONITOR_INTERVAL_SECONDS=", ascii "PREFERENCE_UPDATED_AT="])

/-- The cache is read back. -/
theorem NativeSettings.parseSettings_text (s : NativeSettings) : parseSettings s.text = some s := by
  rcases s.fields_readable with ⟨hlines, hapart⟩
  have hread := firstField_fieldText 10 s.fields hlines hapart
  rw [parseSettings, text, hread _ s.enabled (by simp only [fields, List.mem_cons, true_or, or_true]),
    hread _ s.interval (by simp only [fields, List.mem_cons, true_or, or_true]),
    hread _ s.updated (by simp only [fields, List.mem_cons, true_or, or_true]), s.emitIfValid_eq]

/-- A run moves its setting to the cache, or leaves the cache as it was. -/
theorem run_settingsSync (e : SyncEvent) (files : Files SettingsFile UInt8) :
    (((settingsSync e).run e.steps files).1).lookup .cache =
      if e.completes then (e.accepts.map NativeSettings.text).or (files.lookup .cache)
      else files.lookup .cache := by
  rcases haccepts : e.accepts with _ | s
  · simp only [settingsSync, haccepts, Script.run, Option.map_none, Option.none_or, ite_self]
  · have hcompletes : e.completes = decide (s.text.length + 2 ≤ e.steps) := by
      rw [SyncEvent.completes, haccepts, Option.all_some]
    have hother : ∀ contents, (files.insert (SettingsFile.temporary e.pid) contents).lookup .cache =
        files.lookup .cache := fun contents => AList.lookup_insert_ne (by
      simp only [ne_eq, reduceCtorEq, not_false_eq_true])
    rw [hcompletes]
    simp only [settingsSync, haccepts, Script.run, run_redirect, Option.map_some, Option.some_or,
      decide_eq_true_eq]
    cases hsteps : e.steps with
    | zero => rw [if_neg (by omega)]
    | succ k =>
        simp only
        by_cases hlength : s.text.length ≤ k
        · rw [if_pos hlength, List.take_of_length_le hlength]
          simp only
          -- The file is complete, and one command is left for the move or none.
          cases hleft : k - s.text.length with
          | zero => rw [if_neg (by omega)]; exact hother _
          | succ left =>
              rw [if_pos (by omega), Script.run, moveFile, AList.lookup_insert, Option.map_some]
              simp only
              rw [AList.lookup_erase_ne (by simp only [ne_eq, reduceCtorEq, not_false_eq_true]),
                AList.lookup_insert]
        · rw [if_neg hlength, if_neg (by omega)]
          exact hother _

theorem settingsFiles_concat (events : List SyncEvent) (e : SyncEvent) :
    settingsFiles (events ++ [e]) = ((settingsSync e).run e.steps (settingsFiles events)).1 := by
  rw [settingsFiles, List.foldl_append, List.foldl_cons, List.foldl_nil, ← settingsFiles]

theorem acceptedAfter_concat (events : List SyncEvent) (e : SyncEvent) :
    acceptedAfter (events ++ [e]) =
      if e.completes then e.accepts.or (acceptedAfter events) else acceptedAfter events := by
  rw [acceptedAfter, List.foldl_append, List.foldl_cons, List.foldl_nil, ← acceptedAfter]

/-- The cache over sequences of runs: it has the text of what is accepted, and
    that is what a run prints. -/
theorem settingsSync_refines (events : List SyncEvent) :
    (settingsFiles events).lookup .cache = (acceptedAfter events).map NativeSettings.text ∧
      settingsPrinted (settingsFiles events) =
        ((acceptedAfter events).map NativeSettings.text).getD [] := by
  have hcache : (settingsFiles events).lookup .cache =
      (acceptedAfter events).map NativeSettings.text := by
    -- The runs one after another, from the last one.
    induction events using List.reverseRecOn with
    | nil => rfl
    | append_singleton events e ih =>
        rw [settingsFiles_concat, acceptedAfter_concat, run_settingsSync, ih]
        split
        · rw [Option.map_or]
        · rfl
  refine ⟨hcache, ?_⟩
  rw [settingsPrinted, hcache]
  cases acceptedAfter events with
  | none => rfl
  | some s => rw [Option.map_some, Option.bind_some, s.parseSettings_text, Option.map_some]

/-! ### What the page saves -/

def switchBit (on : Bool) : Bytes := if on then [49] else [48]

/-- The attributes of the element that `saveSettings` sends. -/
def savedAttributes (enabled : Bool) (interval updatedAt : Nat) : List (Bytes × Bytes) :=
  [(ascii "enabled", switchBit enabled), (ascii "interval", decimalText interval),
    (ascii "updated-at", decimalText updatedAt), (ascii "IS_PARTIAL", ascii "true")]

def savedElement (enabled : Bool) (interval updatedAt : Nat) : Bytes :=
  ascii "<zd1200-ping-monitor" ++
    ((savedAttributes enabled interval updatedAt).flatMap (attributeText 32 61 34) ++ ascii "/>")

/-- The body of the request that `saveSettings` sends. -/
def savedRequest (enabled : Bool) (interval updatedAt : Nat) : Bytes :=
  ascii "<ajax-request action=\"setpref\" updater=\"zd1200-ping-monitor\" " ++
    (ascii "comp=\"user-perf-zd1200-ping-monitor\">" ++
      (savedElement enabled interval updatedAt ++ ascii "</ajax-request>"))

theorem isSwitch_switchBit (on : Bool) : isSwitch (switchBit on) = true := by
  cases on <;> decide

theorem isDigits_decimalText (n : Nat) : isDigits (decimalText n) = true := by
  have hne : decimalText n ≠ [] := by
    unfold decimalText
    split
    · decide
    · next hzero =>
      rw [ne_eq, List.reverse_eq_nil_iff, List.map_eq_nil_iff]
      exact Nat.digits_ne_nil_iff_ne_zero.mpr hzero
  rw [isDigits, decide_eq_true_eq]
  exact ⟨hne, List.all_eq_true.mpr (isDigit_decimalText n)⟩

theorem isPollInterval_decimalText (n : Nat) (h : 30 ≤ n ∧ n ≤ 3600) :
    isPollInterval (decimalText n) = true := by
  rw [isPollInterval, decide_eq_true_eq, decimal_decimalText]
  exact ⟨isDigits_decimalText n, h⟩

/-- What is saved by the page, with an interval that it lets through. -/
def savedSettings (enabled : Bool) (interval updatedAt : Nat) (h : 30 ≤ interval ∧ interval ≤ 3600) :
    NativeSettings where
  enabled := switchBit enabled
  interval := decimalText interval
  updated := decimalText updatedAt
  enabled_switch := isSwitch_switchBit enabled
  interval_valid := isPollInterval_decimalText interval h
  updated_digits := isDigits_decimalText updatedAt

/-- A byte that is in none of the names is in none of the attributes. -/
theorem not_mem_savedAttributes (enabled : Bool) (interval updatedAt : Nat) (c : UInt8)
    (hdigit : isDigit c = false) (hnames : c ∉ ascii "enabledintervalupdated-atIS_PARTIALtrue") :
    ∀ a ∈ savedAttributes enabled interval updatedAt, c ∉ a.1 ∧ c ∉ a.2 := by
  have hnumber : ∀ n, c ∉ decimalText n := fun n =>
    not_mem_of_isDigits (isDigits_decimalText n) c hdigit
  have hname : ∀ name : Bytes, name <:+: ascii "enabledintervalupdated-atIS_PARTIALtrue" →
      c ∉ name := fun name hinside hc => hnames (hinside.subset hc)
  have hswitch : c ∉ switchBit enabled := by
    intro hc
    have hdigits : ∀ d ∈ switchBit enabled, isDigit d = true := by
      cases enabled with
      | false => exact List.all_eq_true.mp (by decide)
      | true => exact List.all_eq_true.mp (by decide)
    exact absurd (hdigits c hc) (by rw [hdigit]; exact Bool.false_ne_true)
  intro a ha
  simp only [savedAttributes, List.mem_cons, List.not_mem_nil, or_false] at ha
  rcases ha with rfl | rfl | rfl | rfl
  · exact ⟨hname (ascii "enabled") (by decide), hswitch⟩
  · exact ⟨hname (ascii "interval") (by decide), hnumber interval⟩
  · exact ⟨hname (ascii "updated-at") (by decide), hnumber updatedAt⟩
  · exact ⟨hname (ascii "IS_PARTIAL") (by decide), hname (ascii "true") (by decide)⟩

/-- An attribute of the page's element. -/
theorem attributeOf_savedElement (enabled : Bool) (interval updatedAt : Nat) (name : String)
    (hname : (61 : UInt8) ∉ ascii name) :
    attributeOf (savedElement enabled interval updatedAt) name =
      (((savedAttributes enabled interval updatedAt).reverse.find? fun a =>
        a.1 = ascii name).map Prod.snd).getD [] := by
  have hno := fun c hc hn => not_mem_savedAttributes enabled interval updatedAt c hc hn
  have hattrs : ∀ a ∈ savedAttributes enabled interval updatedAt,
      (61 : UInt8) ∉ a.1 ∧ (34 : UInt8) ∉ a.2 ∧ (32 : UInt8) ∉ a.1 ∧ (32 : UInt8) ∉ a.2 := fun a ha =>
    ⟨(hno 61 (by decide) (by decide) a ha).1, (hno 34 (by decide) (by decide) a ha).2,
      hno 32 (by decide) (by decide) a ha⟩
  have htail := lastMatch_quotedBehind_eq_none 32 34 (ascii name ++ [61, 34]) (ascii "/>") (by decide)
  have hlast := lastMatch_attributes 32 61 34 (ascii name) _ (ascii "/>") (by decide) hname hattrs
    htail
  have hfront : ∀ c ∈ ascii "<zd1200-ping-monitor", ∀ rest,
      quotedBehind 34 (32 :: (ascii name ++ [61, 34])) (c :: rest) = none := by
    intro c hc rest
    have hne : (32 : UInt8) ≠ c := by
      rintro rfl
      exact absurd hc (by decide)
    rw [quotedBehind, List.isPrefixOf?, if_neg (by simpa only [beq_iff_eq] using hne),
      Option.bind_none]
  rw [attributeOf, savedElement, lastMatch_skip _ _ hfront, hlast]

/-- The page's element passes the checks as it is. -/
theorem emitIfValid_savedElement (enabled : Bool) (interval updatedAt : Nat)
    (h : 30 ≤ interval ∧ interval ≤ 3600) :
    emitIfValid (enabledOf (savedElement enabled interval updatedAt))
        (attributeOf (savedElement enabled interval updatedAt) "interval")
        (attributeOf (savedElement enabled interval updatedAt) "updated-at") =
      some (savedSettings enabled interval updatedAt h) := by
  have hread := attributeOf_savedElement enabled interval updatedAt
  have henabled : attributeOf (savedElement enabled interval updatedAt) "enabled" =
      switchBit enabled := hread _ (by decide)
  have hinterval : attributeOf (savedElement enabled interval updatedAt) "interval" =
      decimalText interval := hread _ (by decide)
  have hupdated : attributeOf (savedElement enabled interval updatedAt) "updated-at" =
      decimalText updatedAt := hread _ (by decide)
  have hne : switchBit enabled ≠ [] := by cases enabled <;> decide
  rw [enabledOf, henabled, hinterval, hupdated]
  simp only [hne, ne_eq, not_false_eq_true, if_true]
  exact (savedSettings enabled interval updatedAt h).emitIfValid_eq

/-- The page's element is found where it stands. -/
theorem elementAt_savedElement (enabled : Bool) (interval updatedAt : Nat) (rest : Bytes) :
    elementAt (savedElement enabled interval updatedAt ++ rest) =
      some (savedElement enabled interval updatedAt) := by
  rcases hattrs : (savedAttributes enabled interval updatedAt).flatMap (attributeText 32 61 34) with
    _ | ⟨blank, inner⟩
  · exact absurd hattrs (by simp only [savedAttributes, List.flatMap_cons, attributeText,
      List.cons_append, reduceCtorEq, not_false_eq_true])
  · have hblank : blank = 32 := by
      simp only [savedAttributes, List.flatMap_cons, attributeText, List.cons_append,
        List.cons.injEq] at hattrs
      exact hattrs.1.symm
    have hinner : (62 : UInt8) ∉ inner ++ [47] := by
      have hno := not_mem_attributes 32 61 34 62 _ (by decide)
        (not_mem_savedAttributes enabled interval updatedAt 62 (by decide) (by decide))
      rw [hattrs] at hno
      intro hmem
      exact (List.mem_append.mp hmem).elim (fun h => hno (List.mem_cons_of_mem blank h)) (by decide)
    have helement : savedElement enabled interval updatedAt =
        ascii "<zd1200-ping-monitor " ++ ((inner ++ [47]) ++ [62]) := by
      rw [savedElement, hattrs, hblank, show ascii "/>" = [47, 62] from by decide,
        show ascii "<zd1200-ping-monitor " = ascii "<zd1200-ping-monitor" ++ [32] from by decide]
      simp only [List.append_assoc, List.cons_append, List.nil_append]
    have hprefix : (ascii "<zd1200-ping-monitor ").isPrefixOf?
        (savedElement enabled interval updatedAt ++ rest) = some ((inner ++ [47]) ++ 62 :: rest) := by
      rw [List.isPrefixOf?_eq_some_iff_append_eq, helement]
      simp only [List.append_assoc, List.cons_append, List.nil_append]
    have hbody : ((inner ++ [47]) ++ 62 :: rest).takeWhile (fun c => decide (c ≠ 62)) =
        inner ++ [47] := by
      have hfront : ∀ c ∈ inner ++ [47], decide (c ≠ 62) = true := fun c hc =>
        decide_eq_true fun heq => hinner (heq ▸ hc)
      rw [List.takeWhile_append_of_pos hfront, List.takeWhile_cons_of_neg (by simp only [ne_eq,
        not_true_eq_false, decide_false, Bool.false_eq_true, not_false_eq_true]), List.append_nil]
    rw [elementAt, hprefix, Option.bind_some]
    simp only [hbody]
    rw [if_pos ⟨List.mem_append_right _ List.mem_cons_self, List.getLast?_concat⟩, helement]

/-- It is the last element of the record if there is none behind it. -/
theorem settingsElement_saved (enabled : Bool) (interval updatedAt : Nat) (front post : Bytes)
    (hpost : lastMatch elementAt post = none) :
    settingsElement (front ++ (savedRequest enabled interval updatedAt ++ post)) =
      savedElement enabled interval updatedAt := by
  have hopens : ∀ c : UInt8, c ≠ 60 → ∀ rest, elementAt (c :: rest) = none := by
    intro c hc rest
    rw [elementAt, show ascii "<zd1200-ping-monitor " = 60 :: ascii "zd1200-ping-monitor " from
      by decide, List.isPrefixOf?, if_neg (by simpa only [beq_iff_eq] using hc.symm),
      Option.bind_none]
  have hend : lastMatch elementAt (ascii "</ajax-request>" ++ post) = none := by
    have hclose : ascii "</ajax-request>" = 60 :: ascii "/ajax-request>" := by decide
    rw [hclose, List.cons_append, lastMatch_cons]
    · rw [lastMatch_skip _ _ fun c hc => hopens c fun heq => absurd (heq ▸ hc) (by decide), hpost]
    · rfl
  have helement := elementAt_savedElement enabled interval updatedAt
    (ascii "</ajax-request>" ++ post)
  have hlast : lastMatch elementAt (savedElement enabled interval updatedAt ++
      (ascii "</ajax-request>" ++ post)) = some (savedElement enabled interval updatedAt) := by
    rcases hcons : savedElement enabled interval updatedAt with _ | ⟨c, inner⟩
    · exact absurd hcons (List.append_ne_nil_of_left_ne_nil (by decide) _)
    · have hinner : (60 : UInt8) ∉ inner := by
        have hno := not_mem_attributes 32 61 34 60 _ (by decide)
          (not_mem_savedAttributes enabled interval updatedAt 60 (by decide) (by decide))
        rw [savedElement, show ascii "<zd1200-ping-monitor" = 60 :: ascii "zd1200-ping-monitor" from
          by decide, List.cons_append, List.cons.injEq] at hcons
        rw [← hcons.2]
        intro hmem
        rcases List.mem_append.mp hmem with h | h
        · exact absurd h (by decide)
        · exact (List.mem_append.mp h).elim hno (by decide)
      rw [hcons] at helement
      rw [List.cons_append] at helement ⊢
      rw [lastMatch_self, helement]
      rw [lastMatch_skip _ _ fun d hd => hopens d fun heq => hinner (heq ▸ hd), hend]
  have hrecord : front ++ (savedRequest enabled interval updatedAt ++ post) =
      (front ++ (ascii "<ajax-request action=\"setpref\" updater=\"zd1200-ping-monitor\" " ++
        ascii "comp=\"user-perf-zd1200-ping-monitor\">")) ++
          (savedElement enabled interval updatedAt ++ (ascii "</ajax-request>" ++ post)) := by
    rw [savedRequest]
    simp only [List.append_assoc]
  rw [settingsElement, hrecord, lastMatch_append _ _ _ hlast]
  rfl

/-- What the page saved is what the script takes, if no record follows it. -/
theorem preference_saved (enabled : Bool) (interval updatedAt : Nat)
    (h : 30 ≤ interval ∧ interval ≤ 3600) (journal front post : Bytes) (before after : List Bytes)
    (hjournal : journal.splitOn 10 =
      before ++ (front ++ (savedRequest enabled interval updatedAt ++ post)) :: after)
    (hpost : lastMatch elementAt post = none)
    (hafter : ∀ line ∈ after, isSettingsRecord line = false) :
    preference journal = some (savedSettings enabled interval updatedAt h) := by
  have hmatches : isSettingsRecord
      (front ++ (savedRequest enabled interval updatedAt ++ post)) = true := by
    have hinside : ∀ text, text <:+: ascii
        "<ajax-request action=\"setpref\" updater=\"zd1200-ping-monitor\" " →
        text <:+: front ++ (savedRequest enabled interval updatedAt ++ post) := fun text htext =>
      htext.trans ⟨front, _, by rw [savedRequest, List.append_assoc, List.append_assoc]⟩
    rw [isSettingsRecord, decide_eq_true_eq]
    exact ⟨hinside _ (by decide), hinside _ (by decide)⟩
  have hrecord : settingsRecord journal =
      front ++ (savedRequest enabled interval updatedAt ++ post) := by
    have hnone : after.filter isSettingsRecord = [] :=
      List.filter_eq_nil_iff.mpr fun line hline => Bool.not_eq_true _ ▸ hafter line hline
    rw [settingsRecord, hjournal, List.filter_append, List.filter_cons_of_pos hmatches, hnone,
      List.getLast?_concat]
    rfl
  have helement := settingsElement_saved enabled interval updatedAt front post hpost
  have hne : savedElement enabled interval updatedAt ≠ [] :=
    List.append_ne_nil_of_left_ne_nil (by decide) _
  rw [preference, hrecord, helement]
  simp only [hne, if_false]
  rw [emitIfValid_savedElement enabled interval updatedAt h, Option.some_or]

end Zd1200
