import Zd1200.Export.Json
import Zd1200.Monitor.Settings

/-!
# The Loop of the Monitor

`S99zd_ping_monitor`, which collects while monitoring is switched on.

Every round runs the settings script, takes over what it prints if that is
valid, publishes the settings for the page, collects if a collection is due,
and sleeps until the next one is. The variables of the loop are lost when it is
started anew, and the cache of the settings script is not. So the monitor is a
loop that starts anew at any time on top of files that stay: `MonitorSystem`.
The script may be stopped at any of its commands, and what its commands have
written is there then. What the loop knows after any run of its script is what
was accepted last, `monitorSystem_settings`, whatever was stopped before.

And what the page has saved is what it finds in the next document that is
published (`saved_acknowledged`).

A number with a leading zero is octal in `$((…))` and decimal elsewhere. The
settings script lets such intervals pass. With a digit above seven in it the
loop ends with an error.

## Main definitions

* `MonitorLoop`: The variables of the loop.
* `applyNativeSettings`, `settingsJson`, `loopRound`: A round.
* `monitorRounds`: The rounds of a loop that is not started anew.
* `MonitorSystem`, `monitorSystem`: The loop and the files under stopped scripts.
* `acknowledges`: What the page waits for.

## Theorems

* `monitorSystem_settings`: The settings of the loop are those accepted last.
* `saved_acknowledged`: From the page to the page.
-/

namespace Zd1200

/-! ### The variables -/

inductive SettingsSource
  | defaults
  | zdPreference
  deriving DecidableEq

def SettingsSource.text : SettingsSource → Bytes
  | .defaults => ascii "defaults"
  | .zdPreference => ascii "zd-preference"

/-- The variables of the loop. Monitoring is off as long as nobody has saved a
    setting. -/
structure MonitorLoop where
  monitoringEnabled : Bytes
  monitoringInterval : Bytes
  preferenceUpdatedAt : Bytes
  settingsSource : SettingsSource
  lastCollection : Nat
  enabled_switch : isSwitch monitoringEnabled = true
  interval_valid : isPollInterval monitoringInterval = true
  initial : settingsSource = .defaults → monitoringEnabled = [48] ∧ preferenceUpdatedAt = []
  saved : settingsSource = .zdPreference → isDigits preferenceUpdatedAt = true

/-- What the loop knows of the saved settings. -/
def MonitorLoop.settings (m : MonitorLoop) : Option NativeSettings :=
  if h : m.settingsSource = .zdPreference then
    some ⟨m.monitoringEnabled, m.monitoringInterval, m.preferenceUpdatedAt, m.enabled_switch,
      m.interval_valid, m.saved h⟩
  else none

/-- An interval, or the default if it is none. -/
def validInterval (configured : Bytes) : Bytes :=
  if isPollInterval configured then configured else ascii "60"

theorem isPollInterval_validInterval (configured : Bytes) :
    isPollInterval (validInterval configured) = true := by
  rw [validInterval]
  split
  · assumption
  · decide

/-- The interval in `intervals.conf`, if that is there. -/
def configuredInterval (intervals : Option Bytes) : Bytes :=
  match intervals with
  | none => ascii "60"
  | some text =>
      let monitor := firstField 10 (ascii "MONITOR_INTERVAL_SECONDS=") text
      validInterval
        (if monitor ≠ [] then monitor else firstField 10 (ascii "PING_INTERVAL_SECONDS=") text)

theorem isPollInterval_configured (intervals : Option Bytes) :
    isPollInterval (configuredInterval intervals) = true := by
  rcases intervals with _ | text
  · decide
  · exact isPollInterval_validInterval _

/-- The variables before the first settings are read. -/
def initialLoop (intervals : Option Bytes) : MonitorLoop where
  monitoringEnabled := [48]
  monitoringInterval := configuredInterval intervals
  preferenceUpdatedAt := []
  settingsSource := .defaults
  lastCollection := 0
  enabled_switch := by decide
  interval_valid := isPollInterval_configured intervals
  initial := fun _ => ⟨rfl, rfl⟩
  saved := fun h => absurd h (by simp only [reduceCtorEq, not_false_eq_true])

/-- The settings in what the script has printed. -/
def readNative (native : Bytes) : Option NativeSettings :=
  if native = [] then none
  else if firstField 10 (ascii "HAS_NATIVE_SETTINGS=") (native ++ [10]) = [49] then
    parseSettings (native ++ [10])
  else none

/-- The variables with these settings. -/
def MonitorLoop.take (m : MonitorLoop) (s : NativeSettings) : MonitorLoop where
  monitoringEnabled := s.enabled
  monitoringInterval := s.interval
  preferenceUpdatedAt := s.updated
  settingsSource := .zdPreference
  lastCollection := m.lastCollection
  enabled_switch := s.enabled_switch
  interval_valid := s.interval_valid
  initial := fun h => absurd h (by simp only [reduceCtorEq, not_false_eq_true])
  saved := fun _ => s.updated_digits

/-- The variables with another time of the last collection. -/
def MonitorLoop.collectedAt (m : MonitorLoop) (time : Nat) : MonitorLoop :=
  { m with lastCollection := time }

/-- `apply_native_settings`. Where monitoring is switched on, a collection is
    due at once. -/
def applyNativeSettings (native : Bytes) (m : MonitorLoop) : MonitorLoop :=
  let applied := ((readNative native).map m.take).getD m
  if m.monitoringEnabled = [48] ∧ applied.monitoringEnabled = [49] then applied.collectedAt 0
  else applied

/-- The document of `publish_settings`. -/
def settingsJson (m : MonitorLoop) (checkedAt : Nat) : Bytes :=
  ascii "\x7b\"status\":\"ok\",\"monitoring_enabled\":" ++
    ((if m.monitoringEnabled = [49] then ascii "true" else ascii "false") ++
    (ascii ",\"interval\":" ++ (m.monitoringInterval ++
    (ascii ",\"source\":\"" ++ (m.settingsSource.text ++
    (ascii "\",\"preference_updated_at\":" ++
      ((if m.preferenceUpdatedAt ≠ [] then m.preferenceUpdatedAt else ascii "null") ++
    (ascii ",\"checked_at\":" ++ (decimalText checkedAt ++ ascii "\x7d\n")))))))))

/-! ### A round -/

/-- A number in `$((…))`. -/
def shellNumber (digits : Bytes) : Option Nat :=
  if digits.head? = some 48 then
    if digits.all (· < 56) then some (digits.foldl (fun n c => 8 * n + (c.toNat - 48)) 0) else none
  else some (decimal digits)

/-- What a round meets: what the script prints, and the time when the settings
    are published, when the round begins and when it is over. -/
structure LoopRound where
  native : Bytes
  checkedAt : Nat
  now : Nat
  after : Nat

/-- What a round leaves. Without a delay the loop has ended. -/
structure RoundResult where
  round : LoopRound
  loop : MonitorLoop
  published : Bytes
  collected : Bool
  delay : Option Int

/-- The sleep at the end of a round. -/
def nextDelay (m : MonitorLoop) (after : Nat) : Option Int :=
  if m.monitoringEnabled = [49] then
    (shellNumber m.monitoringInterval).map fun (interval : Nat) =>
      let remaining : Int := m.lastCollection + interval - after
      let remaining := if remaining < 1 then 1 else remaining
      if remaining < 30 then remaining else 30
  else some 30

/-- A collection is due. -/
def MonitorLoop.due (m : MonitorLoop) (now : Nat) : Bool :=
  m.monitoringEnabled = [49] ∧ (decimal m.monitoringInterval : Int) ≤ (now : Int) - m.lastCollection

def loopRound (r : LoopRound) (m : MonitorLoop) : RoundResult :=
  let applied := applyNativeSettings r.native m
  let left := if applied.due r.now then applied.collectedAt r.now else applied
  ⟨r, left, settingsJson applied r.checkedAt, applied.due r.now, nextDelay left r.after⟩

/-- The rounds of a loop that is not started anew. -/
def monitorRounds : MonitorLoop → List LoopRound → List RoundResult
  | _, [] => []
  | m, r :: rest =>
      let result := loopRound r m
      result :: match result.delay with
        | none => []
        | some _ => monitorRounds result.loop rest

/-! ### The loop and the files -/

/-- The loop is started anew, or it makes a round. A run of the script may be
    killed before it has printed anything. -/
inductive MonitorEvent
  | start (intervals : Option Bytes) (sync : SyncEvent) (finished : Bool)
  | round (sync : SyncEvent) (finished : Bool) (checkedAt now after : Nat)

/-- The files, the loop if it runs, and the runs of the script so far. -/
structure MonitorSystem where
  files : Files SettingsFile UInt8
  loop : Option MonitorLoop
  syncs : List SyncEvent

/-- What the shell gets from a run of the script. -/
def syncOutput (e : SyncEvent) (finished : Bool) (files : Files SettingsFile UInt8) : Bytes :=
  if e.completes && finished then commandOutput (settingsPrinted files) else []

def monitorStep (σ : MonitorSystem) : MonitorEvent → MonitorSystem
  | .start intervals e finished =>
      let files := ((settingsSync e).run e.steps σ.files).1
      ⟨files, some (applyNativeSettings (syncOutput e finished files) (initialLoop intervals)),
        σ.syncs ++ [e]⟩
  | .round e finished checkedAt now after =>
      match σ.loop with
      | none => σ
      | some m =>
          let files := ((settingsSync e).run e.steps σ.files).1
          let result := loopRound ⟨syncOutput e finished files, checkedAt, now, after⟩ m
          ⟨files, result.delay.map fun _ => result.loop, σ.syncs ++ [e]⟩

def monitorSystem (events : List MonitorEvent) : MonitorSystem :=
  events.foldl monitorStep ⟨∅, none, []⟩

/-- The run of the script gets to its end. -/
def MonitorEvent.finishes : MonitorEvent → Bool
  | .start _ e finished => e.completes && finished
  | .round e finished _ _ _ => e.completes && finished

/-! ### The settings of the loop -/

namespace MonitorLoop

variable (m : MonitorLoop)

@[simp] theorem settings_take (s : NativeSettings) : (m.take s).settings = some s := rfl

@[simp] theorem settings_collectedAt (time : Nat) : (m.collectedAt time).settings = m.settings := rfl

@[simp] theorem enabled_collectedAt (time : Nat) :
    (m.collectedAt time).monitoringEnabled = m.monitoringEnabled := rfl

@[simp] theorem interval_collectedAt (time : Nat) :
    (m.collectedAt time).monitoringInterval = m.monitoringInterval := rfl

theorem settings_eq_some (s : NativeSettings) (h : m.settings = some s) :
    m.monitoringEnabled = s.enabled ∧ m.monitoringInterval = s.interval ∧
      m.preferenceUpdatedAt = s.updated ∧ m.settingsSource = .zdPreference := by
  rw [settings] at h
  split at h
  · next hsource =>
    rw [Option.some.injEq] at h
    subst h
    exact ⟨rfl, rfl, rfl, hsource⟩
  · exact absurd h (by simp only [reduceCtorEq, not_false_eq_true])

/-- Monitoring is on only with saved settings. -/
theorem settings_of_enabled (h : m.monitoringEnabled = [49]) :
    ∃ s, m.settings = some s ∧ s.enabled = [49] := by
  cases hsource : m.settingsSource with
  | defaults =>
      rw [(m.initial hsource).1] at h
      exact absurd h (by decide)
  | zdPreference =>
      rw [settings, dif_pos hsource]
      exact ⟨_, rfl, h⟩

end MonitorLoop

theorem settings_initialLoop (intervals : Option Bytes) : (initialLoop intervals).settings = none := rfl

theorem settings_applyNativeSettings (native : Bytes) (m : MonitorLoop) :
    (applyNativeSettings native m).settings = (readNative native).or m.settings := by
  have happlied : (((readNative native).map m.take).getD m).settings =
      (readNative native).or m.settings := by
    cases readNative native with
    | none => rfl
    | some s => rfl
  rw [applyNativeSettings]
  split
  · rw [MonitorLoop.settings_collectedAt, happlied]
  · exact happlied

theorem settings_loopRound (r : LoopRound) (m : MonitorLoop) :
    (loopRound r m).loop.settings = (readNative r.native).or m.settings := by
  have hloop : (loopRound r m).loop =
      if (applyNativeSettings r.native m).due r.now then
        (applyNativeSettings r.native m).collectedAt r.now
      else applyNativeSettings r.native m := rfl
  rw [hloop, ← settings_applyNativeSettings]
  split
  · rfl
  · rfl

theorem isDigit_switch {value : Bytes} (h : value = [48] ∨ value = [49]) :
    ∀ c ∈ value, isDigit c = true := by
  rcases h with rfl | rfl
  · exact List.all_eq_true.mp (by decide)
  · exact List.all_eq_true.mp (by decide)

/-- There are only digits in the values. -/
theorem isDigit_of_mem_fields (s : NativeSettings) :
    ∀ field ∈ s.fields, ∀ c ∈ field.2, isDigit c = true := by
  have hdigits : ∀ value, isDigits value = true → ∀ c ∈ value, isDigit c = true := fun value h =>
    List.all_eq_true.mp (of_decide_eq_true h).2
  intro field hfield
  simp only [NativeSettings.fields, List.mem_cons, List.not_mem_nil, or_false] at hfield
  rcases hfield with rfl | rfl | rfl | rfl
  · exact isDigit_switch (Or.inr rfl)
  · exact isDigit_switch (of_decide_eq_true s.enabled_switch)
  · exact hdigits _ (isDigits_of_isPollInterval s.interval_valid)
  · exact hdigits _ s.updated_digits

/-- The shell takes the last end of a line away, and the loop puts it back. -/
theorem commandOutput_text (s : NativeSettings) : commandOutput s.text ++ [10] = s.text := by
  have hzero : ∀ c ∈ s.text, decide (c ≠ 0) = true := by
    intro c hc
    refine decide_eq_true ?_
    rintro rfl
    rcases List.mem_flatMap.mp hc with ⟨field, hfield, hc⟩
    simp only [List.mem_append, List.mem_singleton] at hc
    rcases hc with (hkey | hvalue) | hend
    · simp only [NativeSettings.fields, List.mem_cons, List.not_mem_nil, or_false] at hfield
      rcases hfield with rfl | rfl | rfl | rfl
      · exact absurd hkey (by decide : (0 : UInt8) ∉ ascii "HAS_NATIVE_SETTINGS=")
      · exact absurd hkey (by decide : (0 : UInt8) ∉ ascii "MONITORING_ENABLED=")
      · exact absurd hkey (by decide : (0 : UInt8) ∉ ascii "MONITOR_INTERVAL_SECONDS=")
      · exact absurd hkey (by decide : (0 : UInt8) ∉ ascii "PREFERENCE_UPDATED_AT=")
    · exact absurd (isDigit_of_mem_fields s field hfield 0 hvalue) (by decide)
    · exact absurd hend (by decide)
  -- The last line ends with a digit.
  have hne : s.updated ≠ [] := (of_decide_eq_true s.updated_digits).1
  have hlast : decide (s.updated.getLast hne = 10) = false := by
    refine decide_eq_false fun heq => ?_
    have hdigit := List.all_eq_true.mp (of_decide_eq_true s.updated_digits).2 _ (List.getLast_mem hne)
    rw [heq] at hdigit
    exact absurd hdigit (by decide)
  have hfront : ∃ front, s.text = front ++ s.updated ++ [10] := by
    refine ⟨fieldText 10 (s.fields.take 3) ++ ascii "PREFERENCE_UPDATED_AT=", ?_⟩
    simp only [NativeSettings.text, fieldText, NativeSettings.fields, List.take_succ_cons,
      List.take_zero, List.flatMap_cons, List.flatMap_nil, List.append_nil, List.append_assoc]
  rcases hfront with ⟨front, hfront⟩
  rw [commandOutput, List.filter_eq_self.mpr hzero, hfront,
    List.rdropWhile_concat_pos (fun c : UInt8 => decide (c = 10)) _ 10 (by decide),
    ← List.dropLast_append_getLast hne, ← List.append_assoc,
    List.rdropWhile_concat_neg (fun c : UInt8 => decide (c = 10)) _ _
      (by rw [hlast]; exact Bool.false_ne_true)]

/-- What the script prints is read as it was meant. -/
theorem readNative_text (s : NativeSettings) : readNative (commandOutput s.text) = some s := by
  rcases s.fields_readable with ⟨hlines, hapart⟩
  have hne : commandOutput s.text ≠ [] := by
    intro hnil
    have htext := congrArg List.head? (commandOutput_text s)
    rw [hnil, NativeSettings.text, NativeSettings.fields, fieldText, List.flatMap_cons,
      show ascii "HAS_NATIVE_SETTINGS=" = 72 :: ascii "AS_NATIVE_SETTINGS=" from by decide] at htext
    simp only [List.nil_append, List.cons_append, List.head?_cons, Option.some.injEq] at htext
    exact absurd htext (by decide)
  have hhas : firstField 10 (ascii "HAS_NATIVE_SETTINGS=") s.text = [49] :=
    firstField_fieldText 10 s.fields hlines hapart _ [49] List.mem_cons_self
  rw [readNative, if_neg hne, commandOutput_text, if_pos hhas, s.parseSettings_text]

/-! ### Stopped scripts -/

/-- What the shell gets from a run that comes to its end is what was accepted. -/
theorem readNative_syncOutput (e : SyncEvent) (finished : Bool) (syncs : List SyncEvent) :
    readNative (syncOutput e finished (settingsFiles (syncs ++ [e]))) =
      if e.completes && finished then acceptedAfter (syncs ++ [e]) else none := by
  rw [syncOutput]
  split
  · rw [(settingsSync_refines (syncs ++ [e])).2]
    cases acceptedAfter (syncs ++ [e]) with
    | none => rfl
    | some s => exact readNative_text s
  · rfl

/-- What was accepted is not lost. -/
theorem acceptedAfter_append_eq_none (syncs more : List SyncEvent)
    (h : acceptedAfter (syncs ++ more) = none) : acceptedAfter syncs = none := by
  induction more using List.reverseRecOn with
  | nil => rwa [List.append_nil] at h
  | append_singleton more e ih =>
      rw [← List.append_assoc, acceptedAfter_concat] at h
      split at h
      · exact ih (Option.or_eq_none_iff.mp h).2
      · exact ih h

/-- The files are those of the script's runs, and the loop knows what was
    accepted at some time. -/
structure MonitorSystem.Consistent (σ : MonitorSystem) : Prop where
  files : σ.files = settingsFiles σ.syncs
  known : ∀ m, σ.loop = some m → ∃ seen, seen <+: σ.syncs ∧ m.settings = acceptedAfter seen

/-- A run of the script that comes to its end makes the loop know all of it,
    and another one leaves what the loop knew. -/
theorem or_acceptedAfter (syncs : List SyncEvent) (e : SyncEvent) (done : Bool)
    (known : Option NativeSettings) (hknown : ∃ seen, seen <+: syncs ∧ known = acceptedAfter seen) :
    (done = true → (if done then acceptedAfter (syncs ++ [e]) else none).or known =
        acceptedAfter (syncs ++ [e])) ∧
      ∃ seen, seen <+: syncs ++ [e] ∧
        (if done then acceptedAfter (syncs ++ [e]) else none).or known = acceptedAfter seen := by
  rcases hknown with ⟨seen, hseen, rfl⟩
  have hdone : (acceptedAfter (syncs ++ [e])).or (acceptedAfter seen) =
      acceptedAfter (syncs ++ [e]) := by
    cases haccepted : acceptedAfter (syncs ++ [e]) with
    | some s => rfl
    | none =>
        -- Nothing was accepted before either.
        rcases hseen with ⟨more, rfl⟩
        rw [Option.none_or]
        rw [List.append_assoc] at haccepted
        exact acceptedAfter_append_eq_none seen _ haccepted
  cases done with
  | true => exact ⟨fun _ => hdone, syncs ++ [e], List.prefix_rfl, hdone⟩
  | false =>
      exact ⟨fun h => absurd h Bool.false_ne_true, seen, hseen.trans (List.prefix_append _ _),
        Option.none_or⟩

/-- A step keeps the files and the loop consistent. -/
theorem monitorStep_consistent (σ : MonitorSystem) (event : MonitorEvent) (h : σ.Consistent) :
    (monitorStep σ event).Consistent ∧ ∀ m, (monitorStep σ event).loop = some m →
      event.finishes = true → m.settings = acceptedAfter (monitorStep σ event).syncs := by
  cases event with
  | start intervals e finished =>
      have hfiles : ((settingsSync e).run e.steps σ.files).1 = settingsFiles (σ.syncs ++ [e]) := by
        rw [settingsFiles_concat, h.files]
      have hstep := or_acceptedAfter σ.syncs e (e.completes && finished) none
        ⟨[], List.nil_prefix, rfl⟩
      have hsettings : (applyNativeSettings (syncOutput e finished
          (settingsFiles (σ.syncs ++ [e]))) (initialLoop intervals)).settings =
          (if e.completes && finished then acceptedAfter (σ.syncs ++ [e]) else none).or none := by
        rw [settings_applyNativeSettings, readNative_syncOutput, settings_initialLoop]
      rw [monitorStep]
      simp only [hfiles]
      refine ⟨⟨rfl, ?_⟩, ?_⟩
      · rintro m hm
        rw [← Option.some.inj hm, hsettings]
        exact hstep.2
      · rintro m hm hfinishes
        rw [← Option.some.inj hm, hsettings]
        exact hstep.1 hfinishes
  | round e finished checkedAt now after =>
      rcases hloop : σ.loop with _ | m
      · rw [monitorStep]
        simp only [hloop]
        exact ⟨h, fun m hm => absurd hm (by simp only [reduceCtorEq, not_false_eq_true])⟩
      · have hfiles : ((settingsSync e).run e.steps σ.files).1 = settingsFiles (σ.syncs ++ [e]) := by
          rw [settingsFiles_concat, h.files]
        have hstep := or_acceptedAfter σ.syncs e (e.completes && finished) m.settings
          (h.known m hloop)
        have hsettings : ∀ checkedAt now after, (loopRound ⟨syncOutput e finished
            (settingsFiles (σ.syncs ++ [e])), checkedAt, now, after⟩ m).loop.settings =
            (if e.completes && finished then acceptedAfter (σ.syncs ++ [e]) else none).or
              m.settings := fun checkedAt now after => by
          rw [settings_loopRound, readNative_syncOutput]
        rw [monitorStep]
        simp only [hloop, hfiles]
        refine ⟨⟨rfl, ?_⟩, ?_⟩
        · rintro left hleft
          rcases Option.map_eq_some_iff.mp hleft with ⟨d, -, rfl⟩
          rw [hsettings]
          exact hstep.2
        · rintro left hleft hfinishes
          rcases Option.map_eq_some_iff.mp hleft with ⟨d, -, rfl⟩
          rw [hsettings]
          exact hstep.1 hfinishes

theorem monitorSystem_concat (events : List MonitorEvent) (event : MonitorEvent) :
    monitorSystem (events ++ [event]) = monitorStep (monitorSystem events) event := by
  rw [monitorSystem, List.foldl_append, List.foldl_cons, List.foldl_nil, ← monitorSystem]

theorem monitorSystem_consistent (events : List MonitorEvent) : (monitorSystem events).Consistent := by
  induction events using List.reverseRecOn with
  | nil => exact ⟨rfl, fun m hm => absurd hm (by simp only [monitorSystem, List.foldl_nil,
      reduceCtorEq, not_false_eq_true])⟩
  | append_singleton events event ih =>
      rw [monitorSystem_concat]
      exact (monitorStep_consistent _ event ih).1

/-- Whatever was stopped, the cache holds the settings that were accepted last,
    the loop knows those of some time, and after a run of the script that came
    to its end it knows the last ones. -/
theorem monitorSystem_settings (events : List MonitorEvent) :
    (monitorSystem events).files.lookup .cache =
        (acceptedAfter (monitorSystem events).syncs).map NativeSettings.text ∧
      ∀ m, (monitorSystem events).loop = some m →
        (∃ seen, seen <+: (monitorSystem events).syncs ∧ m.settings = acceptedAfter seen) ∧
        ∀ event ∈ events.getLast?, event.finishes = true →
          m.settings = acceptedAfter (monitorSystem events).syncs := by
  have h := monitorSystem_consistent events
  refine ⟨by rw [h.files]; exact (settingsSync_refines _).1, fun m hm => ⟨h.known m hm, ?_⟩⟩
  intro event hlast hfinishes
  rcases List.getLast?_eq_some_iff.mp hlast with ⟨before, rfl⟩
  rw [monitorSystem_concat] at hm ⊢
  exact (monitorStep_consistent _ event (monitorSystem_consistent before)).2 m hm hfinishes

/-! ### The sleep -/

/-- An interval as it is written is read as it is meant. -/
theorem shellNumber_decimalText (n : Nat) (h : 0 < n) : shellNumber (decimalText n) = some n := by
  have hhead : (decimalText n).head? ≠ some 48 := by
    intro hhead
    have hlength := length_decimalText_of_head n hhead
    rcases List.length_eq_one_iff.mp hlength with ⟨c, hc⟩
    have hn := decimal_decimalText n
    rw [hc, List.head?_cons, Option.some.injEq] at hhead
    rw [hc, hhead, show decimal [48] = 0 from rfl] at hn
    omega
  rw [shellNumber, if_neg hhead, decimal_decimalText]

/-- The sleep ends when the next collection is due, if that is within thirty
    seconds. -/
theorem nextDelay_of_enabled (m : MonitorLoop) (after interval : Nat) (hpos : 0 < interval)
    (hon : m.monitoringEnabled = [49]) (hinterval : m.monitoringInterval = decimalText interval) :
    ∃ d, nextDelay m after = some d ∧ 1 ≤ d ∧
      (d ≤ 1 ∨ (after : Int) + d ≤ m.lastCollection + interval) := by
  rw [nextDelay, if_pos hon, hinterval, shellNumber_decimalText interval hpos, Option.map_some]
  refine ⟨_, rfl, ?_⟩
  dsimp only
  split <;> split <;> omega

/-! ### What the page waits for -/

/-- A member of an object. -/
def memberOf (value : JsonValue) (name : String) : Option JsonValue :=
  match value with
  | .object members => (members.reverse.find? fun m => m.1 = ascii name).map Prod.snd
  | _ => none

/-- The text of a value that is one. -/
def JsonValue.text? : JsonValue → Option Bytes
  | .string text => some text
  | _ => none

/-- The number of a value that is a number of digits. -/
def JsonValue.number? : JsonValue → Option Nat
  | .number text => Zd1200.number text
  | _ => none

def JsonValue.bool? : JsonValue → Option Bool
  | .bool b => some b
  | _ => none

/-- The condition of `waitForAppliedSettings`. -/
def acknowledges (enabled : Bool) (interval updatedAt : Nat) (value : JsonValue) : Bool :=
  (memberOf value "source").bind JsonValue.text? = some (ascii "zd-preference") ∧
    (((memberOf value "preference_updated_at").bind JsonValue.number?).any (updatedAt ≤ ·)) ∧
    (memberOf value "monitoring_enabled").bind JsonValue.bool? = some enabled ∧
    (memberOf value "interval").bind JsonValue.number? = some interval

/-- What the document is meant to be. -/
def settingsDocument (enabled : Bool) (interval updatedAt checkedAt : Nat) : JsonValue :=
  .object [(ascii "status", .string (ascii "ok")), (ascii "monitoring_enabled", .bool enabled),
    (ascii "interval", .number (decimalText interval)),
    (ascii "source", .string (ascii "zd-preference")),
    (ascii "preference_updated_at", .number (decimalText updatedAt)),
    (ascii "checked_at", .number (decimalText checkedAt))]

theorem acknowledges_settingsDocument (enabled : Bool) (interval updatedAt checkedAt : Nat) :
    acknowledges enabled interval updatedAt
      (settingsDocument enabled interval updatedAt checkedAt) = true := by
  have hsource : memberOf (settingsDocument enabled interval updatedAt checkedAt) "source" =
      some (.string (ascii "zd-preference")) := rfl
  have hupdated : memberOf (settingsDocument enabled interval updatedAt checkedAt)
      "preference_updated_at" = some (.number (decimalText updatedAt)) := rfl
  have henabled : memberOf (settingsDocument enabled interval updatedAt checkedAt)
      "monitoring_enabled" = some (.bool enabled) := rfl
  have hinterval : memberOf (settingsDocument enabled interval updatedAt checkedAt) "interval" =
      some (.number (decimalText interval)) := rfl
  rw [acknowledges, hsource, hupdated, henabled, hinterval, decide_eq_true_eq, Option.bind_some,
    Option.bind_some, Option.bind_some, Option.bind_some, JsonValue.number?, JsonValue.number?,
    number_decimalText, number_decimalText, Option.any_some, decide_eq_true_eq]
  exact ⟨rfl, Nat.le_refl updatedAt, rfl, rfl⟩

/-- The document of a loop with settings that the page has saved. -/
theorem readDocument_settingsJson (m : MonitorLoop) (checkedAt : Nat) (enabled : Bool)
    (interval updatedAt : Nat) (h : 30 ≤ interval ∧ interval ≤ 3600)
    (hm : m.settings = some (savedSettings enabled interval updatedAt h)) :
    readDocument (settingsJson m checkedAt) =
      some (settingsDocument enabled interval updatedAt checkedAt) := by
  rcases m.settings_eq_some _ hm with ⟨henabled, hinterval, hupdated, hsource⟩
  have hswitch : (if m.monitoringEnabled = [49] then ascii "true" else ascii "false") =
      if enabled then ascii "true" else ascii "false" := by
    rw [henabled]
    cases enabled <;> rfl
  have hbool : Reads (if enabled then ascii "true" else ascii "false") (.bool enabled) := by
    cases enabled
    · exact reads_false
    · exact reads_true
  have hreads : Reads _ (settingsDocument enabled interval updatedAt checkedAt) := reads_object
    [valueMember (ascii "status") (by decide)
        (Reads.string (stringToken_name (ascii "ok") (by decide))),
      valueMember (ascii "monitoring_enabled") (by decide) hbool,
      valueMember (ascii "interval") (by decide) (reads_decimalText interval),
      valueMember (ascii "source") (by decide)
        (Reads.string (stringToken_name (ascii "zd-preference") (by decide))),
      valueMember (ascii "preference_updated_at") (by decide) (reads_decimalText updatedAt),
      valueMember (ascii "checked_at") (by decide) (reads_decimalText checkedAt)] rfl rfl
  have hblanks : ∀ c ∈ ([10] : Bytes), isJsonBlank c = true := List.all_eq_true.mp (by decide)
  have hdocument := readDocument_of_reads hreads hblanks
  have hne : (savedSettings enabled interval updatedAt h).updated ≠ [] := decimalText_ne_nil updatedAt
  rw [settingsJson, hswitch, hinterval, hupdated, hsource, if_pos hne]
  refine Eq.trans ?_ hdocument
  refine congrArg readDocument ?_
  rw [show ascii "\x7b\"status\":\"ok\",\"monitoring_enabled\":" =
      123 :: 34 :: (ascii "status" ++ [34, 58]) ++ 34 :: (ascii "ok" ++ [34]) ++
        44 :: 34 :: (ascii "monitoring_enabled" ++ [34, 58]) from by decide,
    show ascii ",\"interval\":" = 44 :: 34 :: (ascii "interval" ++ [34, 58]) from by decide,
    show ascii ",\"source\":\"" = 44 :: 34 :: (ascii "source" ++ [34, 58, 34]) from by decide,
    show ascii "\",\"preference_updated_at\":" =
      34 :: 44 :: 34 :: (ascii "preference_updated_at" ++ [34, 58]) from by decide,
    show ascii ",\"checked_at\":" = 44 :: 34 :: (ascii "checked_at" ++ [34, 58]) from by decide,
    show ascii "\x7d\n" = [125, 10] from by decide]
  simp only [List.map_cons, List.map_nil, commaSeparated, valueMember_text, savedSettings,
    SettingsSource.text, List.append_assoc, List.cons_append, List.nil_append]

/-- What the page saves is what it waits for: if the journal has the request as
    its last one, a round publishes a document that says so, whatever the files
    and the loop were before it. And the loop goes on. -/
theorem saved_acknowledged (enabled : Bool) (interval updatedAt : Nat)
    (h : 30 ≤ interval ∧ interval ≤ 3600) (journal front post : Bytes) (before after : List Bytes)
    (hjournal : journal.splitOn 10 =
      before ++ (front ++ (savedRequest enabled interval updatedAt ++ post)) :: after)
    (hpost : lastMatch elementAt post = none)
    (hafter : ∀ line ∈ after, isSettingsRecord line = false)
    (files : Files SettingsFile UInt8) (m : MonitorLoop) (pid steps checkedAt now stop : Nat)
    (hsteps : (savedSettings enabled interval updatedAt h).text.length + 2 ≤ steps) :
    let sync : SyncEvent := ⟨some journal, pid, steps⟩
    let native := syncOutput sync true ((settingsSync sync).run steps files).1
    let result := loopRound ⟨native, checkedAt, now, stop⟩ m
    (∃ value, readDocument result.published = some value ∧
      acknowledges enabled interval updatedAt value = true) ∧ result.delay ≠ none := by
  intro sync native result
  have haccepts : sync.accepts = some (savedSettings enabled interval updatedAt h) :=
    preference_saved enabled interval updatedAt h journal front post before after hjournal hpost
      hafter
  have hcompletes : sync.completes = true := by
    rw [SyncEvent.completes, haccepts, Option.all_some]
    exact decide_eq_true hsteps
  have hcache := run_settingsSync sync files
  rw [hcompletes, if_pos rfl, haccepts, Option.map_some, Option.some_or] at hcache
  have hnative : readNative native = some (savedSettings enabled interval updatedAt h) := by
    have hprinted : settingsPrinted ((settingsSync sync).run steps files).1 =
        (savedSettings enabled interval updatedAt h).text := by
      rw [settingsPrinted, hcache, Option.bind_some, NativeSettings.parseSettings_text]
      rfl
    rw [show native = syncOutput sync true _ from rfl, syncOutput, hcompletes, Bool.and_self,
      if_pos rfl, hprinted, readNative_text]
  have happlied : (applyNativeSettings native m).settings =
      some (savedSettings enabled interval updatedAt h) := by
    rw [settings_applyNativeSettings, hnative, Option.some_or]
  constructor
  · exact ⟨_, readDocument_settingsJson _ checkedAt enabled interval updatedAt h happlied,
      acknowledges_settingsDocument enabled interval updatedAt checkedAt⟩
  · have hloop : result.loop.settings = some (savedSettings enabled interval updatedAt h) := by
      rw [settings_loopRound, hnative, Option.some_or]
    have hinterval := (result.loop.settings_eq_some _ hloop).2.1
    show nextDelay result.loop stop ≠ none
    by_cases hon : result.loop.monitoringEnabled = [49]
    · rcases nextDelay_of_enabled result.loop stop interval (by omega) hon hinterval with ⟨d, hd, -⟩
      rw [hd]
      simp only [ne_eq, reduceCtorEq, not_false_eq_true]
    · rw [nextDelay, if_neg hon]
      simp only [ne_eq, reduceCtorEq, not_false_eq_true]

/-- A journal with a record before the request and text behind it in its line. -/
theorem saved_acknowledged_example :
    let sync : SyncEvent := ⟨some (ascii "started\n10:02 " ++ (savedRequest true 60 1700000000 ++
      ascii " from=\"10.0.0.2\"\n")), 7, 400⟩
    let native := syncOutput sync true ((settingsSync sync).run 400 ∅).1
    let result := loopRound ⟨native, 1700000009, 1700000009, 1700000012⟩ (initialLoop none)
    (∃ value, readDocument result.published = some value ∧
      acknowledges true 60 1700000000 value = true) ∧ result.delay ≠ none :=
  saved_acknowledged true 60 1700000000 (by decide) _ (ascii "10:02 ")
    (ascii " from=\"10.0.0.2\"") [ascii "started"] [[]] (by decide +kernel) (by decide +kernel)
    (by decide) ∅ _ 7 400 _ _ _ (by decide +kernel)

end Zd1200
