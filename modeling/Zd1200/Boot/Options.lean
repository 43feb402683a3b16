import Zd1200.Boot.Access
import Zd1200.Boot.Payload
import Zd1200.Boot.Vendor
import Zd1200.Monitor.Loop
import Zd1200.Release.Source

/-!
# Options on Their Way

What becomes of the options of the container, and of the profile of a release,
in the controller.

The options are checked when the initramfs is built, and are written into a
small file of it. The boot handoff does not trust that file: it reads every
option line by line, checks it again, and falls back to a default. Some options
go further, into a file for the monitor and into one for the support
entitlement, and are checked there a third time. `options_delivered` says that
nothing is lost on the way: what the last reader works with is what the
environment said. Only an interval that does not fit a number of the shell gets
through the first check, and then the monitor takes its default.

The profile of a release comes with the payload. For every release that the
manifest can have, the handoff finds what the manifest says and never takes its
fallback (`release_profile`).

## Main definitions

* `HandoffOptions`, `readOptions`: The options of the handoff.
* `supportOption`, `supportEnd`: The date of the entitlement.
* `intervalsConf`: The file for the monitor.
* `accessOptions`: What the boot is asked for.
* `payloadFtpBootstrap`, `payloadRootSsh`: The profile.

## Theorems

* `lookup_optionFiles`: What of them is in the image.
* `supportEnd_supportOption`, `configuredInterval_runtimeOptions`: The later readers.
* `options_delivered`: The options arrive.
* `release_profile`: The profile arrives.
-/

namespace Zd1200

/-! ### The options of the handoff -/

/-- The options, with the values that their checks leave. -/
structure HandoffOptions where
  enableEcdsaSsh : Bool
  enableRootCli : Bool
  supportEntitlementEndEpoch : Bytes
  virtualBuildId : Bytes
  deriving DecidableEq

/-- `sed -n 's/^KEY=//p' /zd-runtime-options | head -n 1`. -/
def runtimeOption (text : Bytes) (key : String) : Bytes :=
  commandOutput (firstField 10 (ascii key) text)

/-- A switch is off unless it is set. -/
def switchOption (value : Bytes) : Bool := value = [49]

/-- A date in seconds. -/
def epochOption (value : Bytes) : Bytes := if isDigits value = true then value else [48]

/-- What the handoff takes from the file, if there is one. -/
def readOptions (options : Option Bytes) : HandoffOptions :=
  match options with
  | none => ⟨false, false, [48], []⟩
  | some text =>
      let id := runtimeOption text "VIRTUAL_BUILD_ID="
      { enableEcdsaSsh := switchOption (runtimeOption text "ENABLE_ECDSA_SSH=")
        enableRootCli := switchOption (runtimeOption text "ENABLE_ROOT_CLI=")
        supportEntitlementEndEpoch :=
          epochOption (runtimeOption text "SUPPORT_ENTITLEMENT_END_EPOCH=")
        virtualBuildId := if isBuildId id = true then id else [] }

/-- `/etc/zd1200-support-entitlement-end`, as a boot leaves it. -/
def supportOption (o : HandoffOptions) : Option Bytes :=
  if o.supportEntitlementEndEpoch ≠ [48] then some (o.supportEntitlementEndEpoch ++ [10]) else none

/-- What the wrapper of the controller takes from it. Nothing is done without a
    date. -/
def supportEnd (file : Option Bytes) : Option Bytes :=
  file.bind fun text =>
    let date := commandOutput ((text.splitOn 10).headD [])
    if isDigits date = true ∧ date ≠ [48] then some date else none

/-- `sed -n '/^PING_INTERVAL_SECONDS=/p;/^SNAPSHOT_INTERVAL_SECONDS=/p'`. -/
def intervalsConf (text : Bytes) : Bytes :=
  ((text.splitOn 10).filter fun line =>
    (ascii "PING_INTERVAL_SECONDS=").isPrefixOf line ||
      (ascii "SNAPSHOT_INTERVAL_SECONDS=").isPrefixOf line).flatMap (· ++ [10])

/-! ### The profile of a release -/

/-- What the builder writes of a release of the manifest. -/
def ReleaseManifest.payloadRelease (release : ReleaseManifest) : Release where
  releaseId := release.releaseId.toList
  version := release.version.toList
  build := release.build
  runtimeFtpBootstrap := ((release.features.lookup "runtime_ftp_bootstrap").getD "").toList
  runtimeRootSsh := ((release.features.lookup "runtime_root_ssh").getD "").toList

def payloadFtpBootstrap (payload : Payload) : List Char :=
  let value := infoField payload "RUNTIME_FTP_BOOTSTRAP=".toList
  if value ∈ ["vendor_state".toList, "not_required".toList] then value else "not_required".toList

def payloadRootSsh (payload : Payload) : List Char :=
  let value := infoField payload "RUNTIME_ROOT_SSH=".toList
  if value ∈ ["vendor_dropbear_root_key".toList, "not_supported".toList] then value
  else "not_supported".toList

/-- What the boot of an image is asked for. -/
def accessOptions (file : Bytes → Option Bytes) (payload : Payload) : AccessOptions where
  enableRootCli := (readOptions (file (ascii "zd-runtime-options"))).enableRootCli
  rootKey := file (ascii "zd-root-authorized_keys")
  payloadRootSsh := payloadRootSsh payload = "vendor_dropbear_root_key".toList

/-! ### The file of the options -/

/-- The fields of the file. -/
def optionFields (s : Settings) : List (Bytes × Bytes) :=
  [(ascii "ENABLE_ECDSA_SSH=", s.enableEcdsaSsh), (ascii "ENABLE_ROOT_CLI=", s.enableRootCli),
    (ascii "SUPPORT_ENTITLEMENT_END_EPOCH=", decimalText s.supportEntitlementEndEpoch.toNat),
    (ascii "PING_INTERVAL_SECONDS=", s.pingIntervalSeconds),
    (ascii "SNAPSHOT_INTERVAL_SECONDS=", s.snapshotIntervalSeconds),
    (ascii "VIRTUAL_BUILD_ID=", s.virtualBuildId)]

theorem runtimeOptions_eq (s : Settings) : runtimeOptions s = fieldText 10 (optionFields s) := by
  have hline : ∀ (name : String) (value : Bytes),
      optionLine name value = ascii name ++ [61] ++ value ++ [10] := by
    intro name value
    rw [optionLine, List.append_assoc, List.append_assoc]
    rfl
  simp only [runtimeOptions, hline, fieldText, optionFields, List.flatMap_cons, List.flatMap_nil,
    List.append_nil]
  rfl

theorem isHexByte_of_isDigit {c : UInt8} (h : isDigit c = true) : isHexByte c = true := by
  simp only [isDigit, isHexByte, decide_eq_true_eq] at h ⊢
  exact Or.inl h

theorem hexBytes_of_digits {value : Bytes} (h : value.all isDigit = true) :
    ∀ c ∈ value, isHexByte c = true :=
  fun c hc => isHexByte_of_isDigit (List.all_eq_true.mp h c hc)

theorem hexBytes_of_isSwitch {value : Bytes} (h : isSwitch value = true) :
    ∀ c ∈ value, isHexByte c = true := by
  rcases of_decide_eq_true h with rfl | rfl
  · exact List.all_eq_true.mp (by decide)
  · exact List.all_eq_true.mp (by decide)

/-- Values of options are made of digits and letters. -/
theorem optionFields_values (s : Settings) :
    ∀ field ∈ optionFields s, ∀ c ∈ field.2, isHexByte c = true := by
  intro field hfield
  simp only [optionFields, List.mem_cons, List.not_mem_nil, or_false] at hfield
  rcases hfield with rfl | rfl | rfl | rfl | rfl | rfl
  · exact hexBytes_of_isSwitch s.ecdsa
  · exact hexBytes_of_isSwitch s.rootCli
  · exact hexBytes_of_digits (of_decide_eq_true (isDigits_decimalText _)).2
  · exact hexBytes_of_digits (of_decide_eq_true s.pingInterval).2.1
  · exact hexBytes_of_digits (of_decide_eq_true s.snapshotInterval).2.1
  · exact List.all_eq_true.mp (of_decide_eq_true s.buildId).2

theorem optionFields_readable (s : Settings) :
    (∀ field ∈ optionFields s, (10 : UInt8) ∉ field.1 ∧ (10 : UInt8) ∉ field.2) ∧
      KeysApart ((optionFields s).map Prod.fst) := by
  have hkeys : ∀ key ∈ [ascii "ENABLE_ECDSA_SSH=", ascii "ENABLE_ROOT_CLI=",
      ascii "SUPPORT_ENTITLEMENT_END_EPOCH=", ascii "PING_INTERVAL_SECONDS=",
      ascii "SNAPSHOT_INTERVAL_SECONDS=", ascii "VIRTUAL_BUILD_ID="], (10 : UInt8) ∉ key := by
    decide
  constructor
  · exact fun field hfield => ⟨hkeys _ (List.mem_map_of_mem (f := Prod.fst) hfield),
      fun h => absurd (optionFields_values s field hfield 10 h) (by decide)⟩
  · exact (by decide : KeysApart [ascii "ENABLE_ECDSA_SSH=", ascii "ENABLE_ROOT_CLI=",
      ascii "SUPPORT_ENTITLEMENT_END_EPOCH=", ascii "PING_INTERVAL_SECONDS=",
      ascii "SNAPSHOT_INTERVAL_SECONDS=", ascii "VIRTUAL_BUILD_ID="])

/-- An option is read as it was written. -/
theorem runtimeOption_runtimeOptions (s : Settings) (key : String) (value : Bytes)
    (h : (ascii key, value) ∈ optionFields s) : runtimeOption (runtimeOptions s) key = value := by
  rcases optionFields_readable s with ⟨hlines, hapart⟩
  rw [runtimeOption, runtimeOptions_eq, firstField_fieldText 10 _ hlines hapart _ value h]
  refine commandOutput_eq_self value fun c hc => ?_
  have hhex := optionFields_values s _ h c hc
  exact ⟨not_hexByte_of_eq (by decide) hhex, not_hexByte_of_eq (by decide) hhex⟩

/-! ### Behind the handoff -/

/-- The fields that are for the monitor. -/
def intervalFields (s : Settings) : List (Bytes × Bytes) :=
  [(ascii "PING_INTERVAL_SECONDS=", s.pingIntervalSeconds),
    (ascii "SNAPSHOT_INTERVAL_SECONDS=", s.snapshotIntervalSeconds)]

theorem intervalsConf_runtimeOptions (s : Settings) :
    intervalsConf (runtimeOptions s) = fieldText 10 (intervalFields s) := by
  rw [intervalsConf, runtimeOptions_eq, splitOn_fieldText 10 _ (optionFields_readable s).1]
  rfl

/-- The monitor finds the line of its interval, and none of its later name. -/
theorem configuredInterval_runtimeOptions (s : Settings) :
    configuredInterval (some (intervalsConf (runtimeOptions s))) =
      validInterval s.pingIntervalSeconds := by
  have hsub : ∀ field ∈ intervalFields s, field ∈ optionFields s := by
    intro field hfield
    simp only [intervalFields, List.mem_cons, List.not_mem_nil, or_false] at hfield
    rcases hfield with rfl | rfl
    · simp only [optionFields, List.mem_cons, true_or, or_true]
    · simp only [optionFields, List.mem_cons, true_or, or_true]
  have hlines : ∀ field ∈ intervalFields s, (10 : UInt8) ∉ field.1 ∧ (10 : UInt8) ∉ field.2 :=
    fun field hfield => (optionFields_readable s).1 field (hsub field hfield)
  have hother : ∀ key ∈ [ascii "PING_INTERVAL_SECONDS=", ascii "SNAPSHOT_INTERVAL_SECONDS="],
      ¬ ascii "MONITOR_INTERVAL_SECONDS=" <+: key ∧
        ¬ key <+: ascii "MONITOR_INTERVAL_SECONDS=" := by
    decide
  have hmonitor := firstField_absent 10 (intervalFields s) hlines
    (ascii "MONITOR_INTERVAL_SECONDS=") (by decide)
    fun field hfield => hother _ (List.mem_map_of_mem (f := Prod.fst) hfield)
  have hping := firstField_fieldText 10 (intervalFields s) hlines
    (by decide : KeysApart [ascii "PING_INTERVAL_SECONDS=", ascii "SNAPSHOT_INTERVAL_SECONDS="])
    (ascii "PING_INTERVAL_SECONDS=") s.pingIntervalSeconds List.mem_cons_self
  rw [configuredInterval, intervalsConf_runtimeOptions, hmonitor, hping]
  rfl

/-- A date that was checked is taken, and no date is none. -/
theorem supportEnd_supportOption (o : HandoffOptions)
    (h : isDigits o.supportEntitlementEndEpoch = true) :
    supportEnd (supportOption o) =
      if o.supportEntitlementEndEpoch = [48] then none else some o.supportEntitlementEndEpoch := by
  have hdigit : ∀ c ∈ o.supportEntitlementEndEpoch, isHexByte c = true :=
    hexBytes_of_digits (of_decide_eq_true h).2
  rw [supportOption]
  split
  · next hne =>
    have hline : (o.supportEntitlementEndEpoch ++ [10]).splitOn 10 =
        [o.supportEntitlementEndEpoch, []] := by
      have hlines := splitOn_lines 10 [o.supportEntitlementEndEpoch] fun line hline hmem =>
        absurd (hdigit 10 (List.mem_singleton.mp hline ▸ hmem)) (by decide)
      rwa [List.flatMap_singleton] at hlines
    have hread : commandOutput o.supportEntitlementEndEpoch = o.supportEntitlementEndEpoch :=
      commandOutput_eq_self _ fun c hc =>
        ⟨not_hexByte_of_eq (by decide) (hdigit c hc), not_hexByte_of_eq (by decide) (hdigit c hc)⟩
    rw [supportEnd, Option.bind_some, hline, List.headD_cons]
    simp only [hread, h, hne, true_and, ne_eq, not_false_eq_true, if_true]
  · next heq =>
    rw [if_pos (not_not.mp heq)]
    rfl

/-! ### In front of the handoff -/

section Delivered

variable (workDir : Bytes) (tools : InitrdTools) (inv : Invocation)

/-- What the checked options are in terms of the environment. -/
theorem settings_eq (s : Settings) (h : settings workDir tools inv = some s) :
    s.enableEcdsaSsh = orDefault inv.env.zdEnableEcdsaSsh [48] ∧
      s.enableRootCli = orDefault inv.env.zdEnableRootCli [48] ∧
      s.pingIntervalSeconds = orDefault inv.env.zdPingIntervalSeconds (ascii "60") ∧
      s.supportEntitlementEnd = inv.env.zdSupportEntitlementEnd ∧
      virtualBuildId workDir inv = some s.virtualBuildId ∧
      authorizedKey workDir tools inv = some s.rootSshPublicKey ∧
      s.pingClientTargets = inv.env.zdPingClientTargets := by
  unfold settings at h
  rcases Option.bind_eq_some_iff.mp h with ⟨id, hid, h⟩
  split at h
  · split at h
    · split at h
      · rcases Option.bind_eq_some_iff.mp h with ⟨epoch, hepoch, h⟩
        rcases Option.bind_eq_some_iff.mp h with ⟨key, hkey, h⟩
        split at h
        · split at h
          · rw [← Option.some.inj h]
            exact ⟨rfl, rfl, rfl, rfl, hid, hkey, rfl⟩
          · exact absurd h (by simp only [reduceCtorEq, not_false_eq_true])
        · exact absurd h (by simp only [reduceCtorEq, not_false_eq_true])
      · exact absurd h (by simp only [reduceCtorEq, not_false_eq_true])
    · exact absurd h (by simp only [reduceCtorEq, not_false_eq_true])
  · exact absurd h (by simp only [reduceCtorEq, not_false_eq_true])

/-- A date is none, or one behind the start of the support. -/
theorem supportEntitlementEndEpoch_eq_zero (s : Settings)
    (h : settings workDir tools inv = some s) :
    decimalText s.supportEntitlementEndEpoch.toNat = [48] ↔
      inv.env.zdSupportEntitlementEnd = [] := by
  have hepoch := settings_checked workDir tools inv s h
  rw [(settings_eq workDir tools inv s h).2.2.2.1, entitlementEpoch] at hepoch
  split at hepoch
  · next hstop =>
    rw [← Option.some.inj hepoch]
    exact iff_of_true (by decide) hstop
  · next hstop =>
    refine iff_of_false (fun hzero => ?_) hstop
    rcases Option.bind_eq_some_iff.mp hepoch with ⟨day, -, hepoch⟩
    split at hepoch
    · rcases Option.bind_eq_some_iff.mp hepoch with ⟨epoch, -, hepoch⟩
      split at hepoch
      · exact absurd hepoch (by simp only [reduceCtorEq, not_false_eq_true])
      · next hlate =>
        rw [← Option.some.inj hepoch] at hzero
        have hval := congrArg decimal hzero
        rw [decimal_decimalText, show decimal [48] = 0 by decide] at hval
        omega
    · exact absurd hepoch (by simp only [reduceCtorEq, not_false_eq_true])

/-- Every result is some item's. -/
theorem mapM_some_mem {α β : Type} {f : α → Option β} :
    ∀ {xs : List α} {ys : List β}, xs.mapM f = some ys → ∀ y ∈ ys, ∃ x ∈ xs, f x = some y
  | [], ys, h, y, hy => by
      rw [List.mapM_nil] at h
      rw [← Option.some.inj h] at hy
      exact absurd hy List.not_mem_nil
  | x :: xs, ys, h, y, hy => by
      rw [List.mapM_cons] at h
      rcases Option.bind_eq_some_iff.mp h with ⟨first, hfirst, h⟩
      rcases Option.bind_eq_some_iff.mp h with ⟨rest, hrest, h⟩
      rw [← Option.some.inj h] at hy
      rcases List.mem_cons.mp hy with rfl | hy
      · exact ⟨x, List.mem_cons_self, hfirst⟩
      · rcases mapM_some_mem hrest y hy with ⟨z, hz, heq⟩
        exact ⟨z, List.mem_cons_of_mem _ hz, heq⟩

/-- The files that come from options. -/
def optionFiles (s : Settings) : List (Bytes × Bytes) :=
  stageLine "zd-root-authorized_keys" (s.rootSshPublicKey.getD []) ++
    (stageLine "zd-ping-client-targets" s.pingClientTargets ++
      [(ascii "zd-runtime-options", runtimeOptions s)])

/-- The names of these files. -/
def optionNames : List Bytes :=
  [ascii "zd-root-authorized_keys", ascii "zd-ping-client-targets", ascii "zd-runtime-options"]

/-- Nothing else in the image has the name of such a file. -/
theorem lookup_staging (s : Settings) (entries : List (Bytes × Bytes))
    (h : staging workDir tools inv s = some entries) (name : Bytes) (hname : name ∈ optionNames) :
    entries.lookup name = (optionFiles s).lookup name := by
  rcases Option.bind_eq_some_iff.mp h with ⟨copied, hcopied, h⟩
  rcases Option.bind_eq_some_iff.mp h with ⟨archive, -, h⟩
  rcases Option.bind_eq_some_iff.mp h with ⟨stock, hstock, h⟩
  rcases Option.map_eq_some_iff.mp h with ⟨payload, hpayload, rfl⟩
  have hfixed : ∀ names ∈ copiedFiles ++ stockFiles, name ≠ ascii names.2 := by
    have hall : ∀ name ∈ optionNames, ∀ names ∈ copiedFiles ++ stockFiles,
        name ≠ ascii names.2 := by
      decide
    exact hall name hname
  have hinside : ¬ ascii "zd-payload/" <+: name := by
    have hall : ∀ name ∈ optionNames, ¬ ascii "zd-payload/" <+: name := by decide
    exact hall name hname
  have hfront : ∀ entry ∈ copied ++ stock ++ payload, (name != entry.1) = true := by
    intro entry hentry
    refine bne_iff_ne.mpr ?_
    rcases List.mem_append.mp hentry with hentry | hentry
    · rcases List.mem_append.mp hentry with hentry | hentry
      · rcases mapM_some_mem hcopied entry hentry with ⟨names, hnames, heq⟩
        rcases Option.map_eq_some_iff.mp heq with ⟨contents, -, rfl⟩
        exact hfixed names (List.mem_append_left _ hnames)
      · rcases mapM_some_mem hstock entry hentry with ⟨names, hnames, heq⟩
        rcases Option.bind_eq_some_iff.mp heq with ⟨contents, -, heq⟩
        split at heq
        · exact absurd heq (by simp only [reduceCtorEq, not_false_eq_true])
        · rw [← Option.some.inj heq]
          exact hfixed names (List.mem_append_right _ hnames)
    · rw [stagePayload] at hpayload
      split at hpayload
      · rw [← Option.some.inj hpayload] at hentry
        exact absurd hentry List.not_mem_nil
      · rcases Option.map_eq_some_iff.mp hpayload with ⟨inside, -, rfl⟩
        rcases List.mem_map.mp hentry with ⟨file, -, rfl⟩
        exact fun heq => hinside ⟨file.1, heq.symm⟩
  have hnone : (copied ++ stock ++ payload).lookup name = none :=
    List.lookup_eq_none_iff.mpr hfront
  rw [List.append_assoc, List.append_assoc, List.lookup_append, hnone, Option.none_or, optionFiles]

theorem lookup_stageLine (name : String) (value : Bytes) :
    (stageLine name value).lookup (ascii name) =
      if value = [] then none else some (value ++ [10]) := by
  rw [stageLine]
  split
  · rfl
  · rw [List.lookup_cons_self]

theorem lookup_stageLine_ne (name : String) (value other : Bytes) (h : other ≠ ascii name) :
    (stageLine name value).lookup other = none := by
  rw [stageLine]
  split
  · rfl
  · rw [List.lookup_cons, beq_eq_false_iff_ne.mpr h]
    rfl

/-- What the boot finds of the options. -/
theorem lookup_optionFiles (s : Settings) (entries : List (Bytes × Bytes))
    (h : staging workDir tools inv s = some entries) :
    entries.lookup (ascii "zd-runtime-options") = some (runtimeOptions s) ∧
      entries.lookup (ascii "zd-root-authorized_keys") =
        (if s.rootSshPublicKey.getD [] = [] then none
        else some (s.rootSshPublicKey.getD [] ++ [10])) ∧
      entries.lookup (ascii "zd-ping-client-targets") =
        (if s.pingClientTargets = [] then none else some (s.pingClientTargets ++ [10])) := by
  refine ⟨?_, ?_, ?_⟩
  · rw [lookup_staging workDir tools inv s entries h _ (by decide), optionFiles, List.lookup_append,
      lookup_stageLine_ne _ _ _ (by decide), Option.none_or, List.lookup_append,
      lookup_stageLine_ne _ _ _ (by decide), Option.none_or, List.lookup_cons_self]
  · rw [lookup_staging workDir tools inv s entries h _ (by decide), optionFiles, List.lookup_append,
      lookup_stageLine, List.lookup_append, lookup_stageLine_ne _ _ _ (by decide), Option.none_or,
      List.lookup_cons,
      (by decide : (ascii "zd-root-authorized_keys" == ascii "zd-runtime-options") = false)]
    exact Option.or_none
  · rw [lookup_staging workDir tools inv s entries h _ (by decide), optionFiles, List.lookup_append,
      lookup_stageLine_ne _ _ _ (by decide), Option.none_or, List.lookup_append, lookup_stageLine,
      List.lookup_cons,
      (by decide : (ascii "zd-ping-client-targets" == ascii "zd-runtime-options") = false)]
    exact Option.or_none

/-- What the monitor makes of an interval that the builder has accepted. -/
theorem validInterval_of_isInterval {value : Bytes} (h : isInterval value = true) :
    validInterval value = if 2 ^ 63 ≤ decimal value then ascii "60" else value := by
  have haccepted := of_decide_eq_true h
  rw [validInterval]
  by_cases hlarge : 2 ^ 63 ≤ decimal value
  · have hbad : ¬ isPollInterval value = true := fun hpoll => by
      have := (of_decide_eq_true hpoll).2.2
      omega
    rw [if_neg hbad, if_pos hlarge]
  · have hpoll : isPollInterval value = true := decide_eq_true
      ⟨decide_eq_true ⟨haccepted.1, haccepted.2.1⟩, haccepted.2.2.resolve_left hlarge⟩
    rw [if_pos hpoll, if_neg hlarge]

/-- The options of an invocation arrive: in the handoff, in the wrapper of the
    controller, in the monitor, and at the service for the key. -/
theorem options_delivered (s : Settings) (entries : List (Bytes × Bytes))
    (hs : settings workDir tools inv = some s)
    (hentries : staging workDir tools inv s = some entries) :
    let options := entries.lookup (ascii "zd-runtime-options")
    readOptions options =
        { enableEcdsaSsh := inv.env.zdEnableEcdsaSsh = [49]
          enableRootCli := inv.env.zdEnableRootCli = [49]
          supportEntitlementEndEpoch := decimalText s.supportEntitlementEndEpoch.toNat
          virtualBuildId := s.virtualBuildId } ∧
      supportEnd (supportOption (readOptions options)) =
        (if inv.env.zdSupportEntitlementEnd = [] then none
        else some (decimalText s.supportEntitlementEndEpoch.toNat)) ∧
      (initialLoop (options.map intervalsConf)).monitoringInterval =
        (if 2 ^ 63 ≤ decimal (orDefault inv.env.zdPingIntervalSeconds (ascii "60")) then ascii "60"
        else orDefault inv.env.zdPingIntervalSeconds (ascii "60")) ∧
      ∀ payload, accessOptions (fun name => entries.lookup name) payload =
        { enableRootCli := inv.env.zdEnableRootCli = [49]
          rootKey := if s.rootSshPublicKey.getD [] = [] then none
            else some (s.rootSshPublicKey.getD [] ++ [10])
          payloadRootSsh := payloadRootSsh payload = "vendor_dropbear_root_key".toList } := by
  intro options
  rcases lookup_optionFiles workDir tools inv s entries hentries with ⟨hoptions, hkey, -⟩
  rcases settings_eq workDir tools inv s hs with ⟨hecdsa, hcli, hping, -⟩
  have hswitch : ∀ value : Bytes, decide (orDefault value [48] = [49]) = decide (value = [49]) := by
    intro value
    rw [orDefault]
    split
    · next hnil =>
      rw [hnil]
      decide
    · rfl
  have hfield : ∀ (key : String) (value : Bytes), (ascii key, value) ∈ optionFields s →
      runtimeOption (runtimeOptions s) key = value := runtimeOption_runtimeOptions s
  have hdate : isDigits (decimalText s.supportEntitlementEndEpoch.toNat) = true :=
    isDigits_decimalText _
  have hread : readOptions options =
      { enableEcdsaSsh := inv.env.zdEnableEcdsaSsh = [49]
        enableRootCli := inv.env.zdEnableRootCli = [49]
        supportEntitlementEndEpoch := decimalText s.supportEntitlementEndEpoch.toNat
        virtualBuildId := s.virtualBuildId } := by
    rw [show options = some (runtimeOptions s) from hoptions, readOptions,
      hfield "ENABLE_ECDSA_SSH=" s.enableEcdsaSsh
        (by simp only [optionFields, List.mem_cons, true_or]),
      hfield "ENABLE_ROOT_CLI=" s.enableRootCli
        (by simp only [optionFields, List.mem_cons, true_or, or_true]),
      hfield "SUPPORT_ENTITLEMENT_END_EPOCH=" (decimalText s.supportEntitlementEndEpoch.toNat)
        (by simp only [optionFields, List.mem_cons, true_or, or_true]),
      hfield "VIRTUAL_BUILD_ID=" s.virtualBuildId
        (by simp only [optionFields, List.mem_cons, true_or, or_true])]
    simp only [switchOption, hecdsa, hcli, hswitch, epochOption, hdate, s.buildId, if_true]
  refine ⟨hread, ?_, ?_, fun payload => ?_⟩
  · rw [hread, supportEnd_supportOption _ hdate]
    simp only [supportEntitlementEndEpoch_eq_zero workDir tools inv s hs]
  · rw [show options = some (runtimeOptions s) from hoptions, Option.map_some, ← hping,
      ← validInterval_of_isInterval s.pingInterval]
    exact configuredInterval_runtimeOptions s
  · rw [accessOptions, hkey,
      show entries.lookup (ascii "zd-runtime-options") = options from rfl, hread]

end Delivered

/-- An invocation with a date, a shell and an interval. -/
def datedInvocation : Invocation where
  env :=
    { stateDir := [], baseInitrd := [], zdRootfsArchive := [], runtimeInitrd := [], zdPayload := []
      zd1051Payload := [], zdEnableEcdsaSsh := [], zdEnableRootCli := ascii "1"
      zdSupportEntitlementEnd := ascii "2030-01-01", zdRootSshPublicKey := []
      zdPingClientTargets := [], zdPingIntervalSeconds := ascii "30"
      zdSnapshotIntervalSeconds := [] }
  file := fun path =>
    if path = ascii "/image/virtual-build-id" then some (ascii "0123abc\n") else some (ascii "#")
  revision := none

/-- The programs, where every archive is empty and the date is the only one. -/
def datedTools : InitrdTools where
  digest := fun _ => []
  day := some
  epoch := fun _ => some 1893456000
  normalizeKey := fun _ _ => none
  stock := fun _ _ => some (ascii "#")
  unpack := fun _ => some []
  pack := fun _ base entries => some (base ++ entries.flatMap Prod.snd)

def datedSettings : Settings where
  virtualBuildId := ascii "0123abc"
  enableEcdsaSsh := ascii "0"
  enableRootCli := ascii "1"
  supportEntitlementEnd := ascii "2030-01-01"
  supportEntitlementEndEpoch := 1893456000
  rootSshPublicKey := none
  pingClientTargets := []
  pingIntervalSeconds := ascii "30"
  snapshotIntervalSeconds := ascii "300"
  buildId := by decide
  ecdsa := by decide
  rootCli := by decide
  pingInterval := by decide
  snapshotInterval := by decide

def datedEntries : List (Bytes × Bytes) :=
  (staging [] datedTools datedInvocation datedSettings).getD []

/-- The shell, the date and the interval arrive. -/
theorem options_delivered_dated :
    readOptions (datedEntries.lookup (ascii "zd-runtime-options")) =
        ⟨false, true, ascii "1893456000", ascii "0123abc"⟩ ∧
      supportEnd (supportOption (readOptions (datedEntries.lookup (ascii "zd-runtime-options")))) =
        some (ascii "1893456000") ∧
      (initialLoop ((datedEntries.lookup (ascii "zd-runtime-options")).map
        intervalsConf)).monitoringInterval = ascii "30" := by
  have hs : settings [] datedTools datedInvocation = some datedSettings := by rfl
  have hentries : staging [] datedTools datedInvocation datedSettings = some datedEntries := by
    have hsome : (staging [] datedTools datedInvocation datedSettings).isSome = true := by
      decide +kernel
    rcases Option.isSome_iff_exists.mp hsome with ⟨entries, hentries⟩
    rw [datedEntries, hentries, Option.getD_some]
  have hdate : decimalText datedSettings.supportEntitlementEndEpoch.toNat = ascii "1893456000" := by
    decide +kernel
  rcases options_delivered [] datedTools datedInvocation datedSettings datedEntries hs hentries with
    ⟨hread, hend, hinterval, -⟩
  rw [hdate] at hread hend
  exact ⟨hread, hend, hinterval⟩

/-! ### The profile arrives -/

theorem newline_not_mem_of_isIdentifier {text : String} (h : isIdentifier text = true) :
    '\n' ∉ text.toList := by
  rw [isIdentifier] at h
  split at h
  · exact absurd h Bool.false_ne_true
  · next first rest heq =>
    rw [heq]
    rw [Bool.and_eq_true, List.all_eq_true] at h
    intro hmem
    rcases List.mem_cons.mp hmem with hfirst | hrest
    · exact absurd h.1 (by rw [← hfirst]; decide)
    · exact absurd (h.2 _ hrest) (by decide)

theorem newline_not_mem_of_isVersion {text : String} (h : isVersion text = true) :
    '\n' ∉ text.toList := by
  intro hmem
  rw [isVersion, Bool.and_eq_true, List.all_eq_true] at h
  -- A character of the text separates two numbers, or it is in one of them.
  have hsplit : ['.'].intercalate (text.toList.splitOn '.') = text.toList :=
    List.intercalate_splitOn '.'
  rw [← hsplit] at hmem
  rcases mem_intercalate hmem with hsep | ⟨number, hnumber, hmem⟩
  · exact absurd hsep (by decide)
  · have hdigits := h.2 number hnumber
    rw [Bool.and_eq_true, List.all_eq_true] at hdigits
    exact absurd (hdigits.2 _ hmem) (by decide)

theorem newline_not_mem_toDigits (n : Nat) : '\n' ∉ Nat.toDigits 10 n := by
  intro hmem
  exact absurd (Nat.isDigit_of_mem_toDigits (by decide) (by decide) hmem) (by decide)

/-- The texts of a release that is accepted have no line ends in them. -/
theorem releaseLines_readable {artifacts : List String} {release : ReleaseManifest}
    (h : release.WellFormed artifacts) (hasAidfs : Bool) :
    ∀ line ∈ releaseLines release.payloadRelease hasAidfs, '\n' ∉ line := by
  rcases h.ftpBootstrap with ⟨ftp, hftp, hftpvalue⟩
  rcases h.rootSsh with ⟨ssh, hssh, hsshvalue⟩
  have hfixed : ∀ value ∈ runtimeFtpBootstrapValues ++ runtimeRootSshValues,
      '\n' ∉ value.toList := by
    decide
  have hline : ∀ (key value : List Char), '\n' ∉ key → '\n' ∉ value → '\n' ∉ key ++ value :=
    fun key value hkey hvalue hmem => (List.mem_append.mp hmem).elim hkey hvalue
  intro line hmem
  simp only [releaseLines, ReleaseManifest.payloadRelease, hftpvalue, hsshvalue, Option.getD_some,
    List.mem_cons, List.not_mem_nil, or_false] at hmem
  rcases hmem with rfl | rfl | rfl | rfl | rfl | rfl
  · exact hline _ _ (by decide) (newline_not_mem_of_isIdentifier h.releaseId)
  · exact hline _ _ (by decide) (newline_not_mem_of_isVersion h.version)
  · exact hline _ _ (by decide) (newline_not_mem_toDigits release.build)
  · cases hasAidfs
    · exact (by decide : '\n' ∉ "HAS_AIDFS=".toList ++ ['0'])
    · exact (by decide : '\n' ∉ "HAS_AIDFS=".toList ++ ['1'])
  · exact hline _ _ (by decide) (hfixed ftp (List.mem_append_left _ hftp))
  · exact hline _ _ (by decide) (hfixed ssh (List.mem_append_right _ hssh))

/-- The profile is read as it was written. -/
theorem infoField_profile (source : SourceDir) (release : Release)
    (hlines : ∀ line ∈ releaseLines release source.aidfs.isSome, '\n' ∉ line) :
    infoField (makePayload source release) "RUNTIME_FTP_BOOTSTRAP=".toList =
        release.runtimeFtpBootstrap ∧
      infoField (makePayload source release) "RUNTIME_ROOT_SSH=".toList =
        release.runtimeRootSsh := by
  have hread : ∀ key, infoField (makePayload source release) key =
      (((releaseLines release source.aidfs.isSome) ++ [[]]).findSome? key.isPrefixOf?).getD [] := by
    intro key
    rw [infoField, makePayload, Option.bind_some, linesOf_flatMap _ hlines]
  constructor
  · rw [hread]
    simp [releaseLines, List.isPrefixOf?]
  · rw [hread]
    simp [releaseLines, List.isPrefixOf?]

/-- What the manifest says of a release is what the handoff works with. Its
    fallbacks are not taken. -/
theorem release_profile {artifacts : List String} {releases : List ReleaseManifest}
    (h : Loadable artifacts releases) (release : ReleaseManifest) (hmem : release ∈ releases)
    (source : SourceDir) :
    let payload := makePayload source release.payloadRelease
    payloadVersion payload = release.version.toList ∧
      payloadBuild payload = Nat.toDigits 10 release.build ∧
      payloadHasAidfs payload = source.aidfs.isSome ∧
      release.features.lookup "runtime_ftp_bootstrap" =
        some (String.ofList (payloadFtpBootstrap payload)) ∧
      release.features.lookup "runtime_root_ssh" =
        some (String.ofList (payloadRootSsh payload)) := by
  intro payload
  have hform := h.wellFormed release hmem
  have hlines := releaseLines_readable hform source.aidfs.isSome
  rcases hform.ftpBootstrap with ⟨ftp, hftp, hftpvalue⟩
  rcases hform.rootSsh with ⟨ssh, hssh, hsshvalue⟩
  rcases infoField_makePayload source release.payloadRelease hlines with ⟨hversion, hbuild, haidfs⟩
  rcases infoField_profile source release.payloadRelease hlines with ⟨hftpread, hsshread⟩
  have hversion_ne : release.version.toList ≠ [] := by
    intro hnil
    exact absurd (hform.version) (by rw [isVersion, hnil]; decide)
  refine ⟨?_, ?_, haidfs, ?_, ?_⟩
  · rw [payloadVersion, hversion]
    exact if_neg hversion_ne
  · rw [payloadBuild, hbuild]
    exact if_neg (List.ne_nil_of_length_pos (Nat.length_toDigits_pos))
  · have hvalue : release.payloadRelease.runtimeFtpBootstrap = ftp.toList := by
      rw [ReleaseManifest.payloadRelease, hftpvalue, Option.getD_some]
    have hallowed : ∀ value ∈ runtimeFtpBootstrapValues,
        value.toList ∈ ["vendor_state".toList, "not_required".toList] := by
      decide
    simp only [payload, payloadFtpBootstrap, hftpread, hvalue, hallowed ftp hftp, if_true,
      String.ofList_toList, hftpvalue]
  · have hvalue : release.payloadRelease.runtimeRootSsh = ssh.toList := by
      rw [ReleaseManifest.payloadRelease, hsshvalue, Option.getD_some]
    have hallowed : ∀ value ∈ runtimeRootSshValues,
        value.toList ∈ ["vendor_dropbear_root_key".toList, "not_supported".toList] := by
      decide
    simp only [payload, payloadRootSsh, hsshread, hvalue, hallowed ssh hssh, if_true,
      String.ofList_toList, hsshvalue]

/-- A release without trees. -/
theorem release_profile_zero :
    payloadVersion (makePayload ⟨∅, [], [], none⟩ zeroRelease.payloadRelease) =
        "10.5.1.0".toList ∧
      payloadBuild (makePayload ⟨∅, [], [], none⟩ zeroRelease.payloadRelease) =
        Nat.toDigits 10 282 ∧
      payloadHasAidfs (makePayload ⟨∅, [], [], none⟩ zeroRelease.payloadRelease) = false ∧
      zeroRelease.features.lookup "runtime_ftp_bootstrap" = some (String.ofList
        (payloadFtpBootstrap (makePayload ⟨∅, [], [], none⟩ zeroRelease.payloadRelease))) ∧
      zeroRelease.features.lookup "runtime_root_ssh" = some (String.ofList
        (payloadRootSsh (makePayload ⟨∅, [], [], none⟩ zeroRelease.payloadRelease))) :=
  release_profile loadable_zeroRelease zeroRelease (List.mem_singleton_self _) ⟨∅, [], [], none⟩

end Zd1200
