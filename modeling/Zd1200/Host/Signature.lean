import Mathlib.Data.List.DropRight
import Zd1200.Lib.Checksums
import Zd1200.Monitor.Text
import Zd1200.Snapshot.Bundle

/-!
# What the Runtime Initramfs Is Made Of

The options and the source files of `make-runtime-initrd.sh`, what of them
gets into the image, and the signature that the script computes for them.

The text behind the signature has the lines of `sha256sum` for the sources and
one line for each option. It has to show everything that gets into the image.
Two things make that less than obvious. A source that is missing has no line,
so the lines are not in fixed places. And the ping targets are free text, so
they may hold lines that look like those of other options. `signatureText` can
still be taken apart: the lines of the sources start like no option, the
options in front of the targets have no line ends, and those behind them are
found from the end.

The programs that the script calls are parameters, and so are the contents of
the files.

## Main definitions

* `Invocation`: The environment and the files of an invocation.
* `InitrdTools`: The programs that the script calls.
* `settings`: The options, checked.
* `signatureText`: What is behind the signature.
* `initrdImage`: The image.

## Theorems

* `settings_checked`: What the checks leave.
* `optionLines_injective`: The options can be read from their lines.
* `initrdImage_eq`: The text shows everything that gets into the image.
-/

namespace Zd1200

/-- The environment of an invocation. A variable that is not set is empty. -/
structure InitrdEnv where
  stateDir : Bytes
  baseInitrd : Bytes
  zdRootfsArchive : Bytes
  runtimeInitrd : Bytes
  zdPayload : Bytes
  zd1051Payload : Bytes
  zdEnableEcdsaSsh : Bytes
  zdEnableRootCli : Bytes
  zdSupportEntitlementEnd : Bytes
  zdRootSshPublicKey : Bytes
  zdPingClientTargets : Bytes
  zdPingIntervalSeconds : Bytes
  zdSnapshotIntervalSeconds : Bytes

/-- An invocation: its environment, the files it finds, and what
    `resolve-source-revision.sh` prints if it succeeds. -/
structure Invocation where
  env : InitrdEnv
  file : Bytes → Option Bytes
  revision : Option Bytes

/-- The programs that the script calls. -/
structure InitrdTools where
  /-- `sha256sum`. -/
  digest : Bytes → Bytes
  /-- `date -u -d text +%F`. -/
  day : Bytes → Option Bytes
  /-- `date -u -d "text 00:00:00" +%s`. -/
  epoch : Bytes → Option Int
  /-- `zd_root_ssh.py`, with its own text. -/
  normalizeKey : Bytes → Bytes → Option Bytes
  /-- `gzip -dc` and `debugfs -R dump`: a file of a root file system. -/
  stock : Bytes → Bytes → Option Bytes
  /-- `tar -xzf`: the entries of an archive. -/
  unpack : Bytes → Option (List (Bytes × Bytes))
  /-- `cpio` and `gzip` behind the base image. Times are in the archive, so
      runs differ by a number. -/
  pack : Nat → Bytes → List (Bytes × Bytes) → Option Bytes

/-- `${value:-default}`. -/
def orDefault (value fallback : Bytes) : Bytes := if value = [] then fallback else value

/-- `$(command)`, where the command prints `text`. -/
def commandOutput (text : Bytes) : Bytes := (text.filter (· ≠ 0)).rdropWhile (· = 10)

/-- Seven hexadecimal digits in lower case. -/
def isBuildId (id : Bytes) : Bool := id.length = 7 ∧ id.all isHexByte = true

def isSwitch (value : Bytes) : Bool := value = [48] ∨ value = [49]

/-- An interval in seconds. On a number that does not fit both comparisons of
    the shell fail, so it is not refused. -/
def isInterval (value : Bytes) : Bool :=
  value ≠ [] ∧ value.all isDigit = true ∧
    (2 ^ 63 ≤ decimal value ∨ (30 ≤ decimal value ∧ decimal value ≤ 3600))

/-- The options after the checks. -/
@[ext]
structure Settings where
  virtualBuildId : Bytes
  enableEcdsaSsh : Bytes
  enableRootCli : Bytes
  supportEntitlementEnd : Bytes
  supportEntitlementEndEpoch : Int
  /-- None if no key is given. -/
  rootSshPublicKey : Option Bytes
  pingClientTargets : Bytes
  pingIntervalSeconds : Bytes
  snapshotIntervalSeconds : Bytes
  buildId : isBuildId virtualBuildId = true
  ecdsa : isSwitch enableEcdsaSsh = true
  rootCli : isSwitch enableRootCli = true
  pingInterval : isInterval pingIntervalSeconds = true
  snapshotInterval : isInterval snapshotIntervalSeconds = true

section Signature

variable (workDir : Bytes) (tools : InitrdTools) (inv : Invocation)

/-! ### Options -/

def baseInitrd : Bytes :=
  orDefault inv.env.baseInitrd (workDir ++ ascii "/image/bootinitramfs.gz")

def rootfsArchive : Bytes :=
  orDefault inv.env.zdRootfsArchive (workDir ++ ascii "/image/rootfs.ext2")

def payloadPath : Bytes :=
  orDefault inv.env.zdPayload
    (orDefault inv.env.zd1051Payload (workDir ++ ascii "/image/zd-payload.tar.gz"))

/-- The path of the output. -/
def outputPath : Bytes :=
  orDefault inv.env.runtimeInitrd
    (orDefault inv.env.stateDir workDir ++ ascii "/bootinitramfs.runtime.gz")

def virtualBuildId : Option Bytes :=
  match inv.file (workDir ++ ascii "/image/virtual-build-id") with
  | some text => some (commandOutput (text.filter fun c => c ≠ 13 ∧ c ≠ 10))
  | none =>
      if (inv.file (workDir ++ ascii "/resolve-source-revision.sh")).isSome then
        inv.revision.map commandOutput
      else some []

/-- The end of the support, in seconds. -/
def entitlementEpoch (stop : Bytes) : Option Int :=
  if stop = [] then some 0
  else
    (tools.day stop).bind fun parsed =>
      if parsed = stop then
        (tools.epoch stop).bind fun epoch => if epoch ≤ 1262304000 then none else some epoch
      else none

/-- The key of the root account, if one is given. -/
def authorizedKey : Option (Option Bytes) :=
  if inv.env.zdRootSshPublicKey = [] then some none
  else
    (inv.file (workDir ++ ascii "/zd_root_ssh.py")).bind fun script =>
      (tools.normalizeKey script inv.env.zdRootSshPublicKey).map fun key => some (commandOutput key)

/-- The options, checked. -/
def settings : Option Settings :=
  (virtualBuildId workDir inv).bind fun id =>
  if hid : isBuildId id = true then
  if hecdsa : isSwitch (orDefault inv.env.zdEnableEcdsaSsh [48]) = true then
  if hcli : isSwitch (orDefault inv.env.zdEnableRootCli [48]) = true then
  (entitlementEpoch tools inv.env.zdSupportEntitlementEnd).bind fun epoch =>
  (authorizedKey workDir tools inv).bind fun key =>
  if hping : isInterval (orDefault inv.env.zdPingIntervalSeconds (ascii "60")) = true then
  if hsnap : isInterval (orDefault inv.env.zdSnapshotIntervalSeconds (ascii "300")) = true then
    some
      { virtualBuildId := id
        enableEcdsaSsh := _
        enableRootCli := _
        supportEntitlementEnd := inv.env.zdSupportEntitlementEnd
        supportEntitlementEndEpoch := epoch
        rootSshPublicKey := key
        pingClientTargets := inv.env.zdPingClientTargets
        pingIntervalSeconds := _
        snapshotIntervalSeconds := _
        buildId := hid
        ecdsa := hecdsa
        rootCli := hcli
        pingInterval := hping
        snapshotInterval := hsnap }
  else none
  else none
  else none
  else none
  else none

/-! ### The signature -/

/-- The sources in the working directory. -/
def sourceNames : List String :=
  ["/make-runtime-initrd.sh", "/resolve-source-revision.sh", "/boot-initrd-handoff",
    "/zd-controller-wrapper.sh", "/zd-memory-snapshot.sh", "/zd_root_ssh.py",
    "/analytics/ping-monitor.html", "/analytics/ping-monitor-worker.js",
    "/analytics/network-snapshot-collect.sh", "/analytics/snapshot-index-publish.sh",
    "/analytics/ping-monitor-settings-sync.sh", "/analytics/ping-daily-publish.sh",
    "/zd1200-ping-monitor", "/zd1200-ping-export", "/zd1200-local-getstat"]

/-- A file that is there, with its name. -/
def namedFile (path : Bytes) : Option (Bytes × Bytes) :=
  (inv.file path).map fun contents => (path, contents)

/-- The sources of which `sha256sum` writes a line. -/
def presentSources : List (Bytes × Bytes) :=
  [baseInitrd workDir inv, rootfsArchive workDir inv].filterMap (namedFile inv) ++
    ((sourceNames.map fun name => workDir ++ ascii name).filterMap (namedFile inv) ++
      (namedFile inv (payloadPath workDir inv)).toList)

/-- `root_ssh_public_key_sha256`. -/
def keyDigest (s : Settings) : Bytes :=
  match s.rootSshPublicKey with
  | none => []
  | some key => tools.digest key

/-- A line for an option. -/
def optionLine (name : String) (value : Bytes) : Bytes := ascii name ++ 61 :: (value ++ [10])

/-- The lines behind those of the sources. -/
def optionLines (s : Settings) : Bytes :=
  optionLine "ZD_ENABLE_ECDSA_SSH" s.enableEcdsaSsh ++
    (optionLine "ZD_ENABLE_ROOT_CLI" s.enableRootCli ++
    (optionLine "ZD_SUPPORT_ENTITLEMENT_END" s.supportEntitlementEnd ++
    (optionLine "ZD_ROOT_SSH_PUBLIC_KEY_SHA256" (keyDigest tools s) ++
    (optionLine "ZD_PING_CLIENT_TARGETS" s.pingClientTargets ++
    (optionLine "ZD_PING_INTERVAL_SECONDS" s.pingIntervalSeconds ++
    (optionLine "ZD_SNAPSHOT_INTERVAL_SECONDS" s.snapshotIntervalSeconds ++
    (optionLine "ZD_VIRTUAL_BUILD_ID" s.virtualBuildId ++
      optionLine "ZD_RUNTIME_OPTIONS_FORMAT" [50])))))))

/-- What is behind the signature. -/
def signatureText (s : Settings) : Bytes :=
  sumLines tools.digest (presentSources workDir inv) ++ optionLines tools s

/-! ### The image -/

/-- The sources that are copied, with their names in the image. -/
def copiedFiles : List (String × String) :=
  [("/boot-initrd-handoff", "bin/boot-handoff"),
    ("/zd-controller-wrapper.sh", "zd-controller-wrapper.sh"),
    ("/zd-memory-snapshot.sh", "zd-memory-snapshot.sh"),
    ("/analytics/ping-monitor.html", "zd-analytics/ping-monitor.html"),
    ("/analytics/ping-monitor-worker.js", "zd-analytics/ping-monitor-worker.js"),
    ("/analytics/network-snapshot-collect.sh", "zd-analytics/network-snapshot-collect.sh"),
    ("/analytics/snapshot-index-publish.sh", "zd-analytics/snapshot-index-publish.sh"),
    ("/analytics/ping-monitor-settings-sync.sh", "zd-analytics/ping-monitor-settings-sync.sh"),
    ("/analytics/ping-daily-publish.sh", "zd-analytics/ping-daily-publish.sh"),
    ("/zd1200-ping-monitor", "zd-analytics/ping-monitor"),
    ("/zd1200-ping-export", "zd-analytics/ping-export"),
    ("/zd1200-local-getstat", "zd-analytics/zd1200-local-getstat")]

/-- The files that are taken from the root file system. -/
def stockFiles : List (String × String) :=
  [("/web/build/app.js", "zd-stock-web/app.js"),
    ("/web/build/ruckus.js", "zd-stock-web/ruckus.js"),
    ("/web/scripts/utilOld.js", "zd-stock-web/utilOld.js"),
    ("/web/build/scripts.min.js", "zd-stock-web/scripts.min.js")]

def copySource (names : String × String) : Option (Bytes × Bytes) :=
  (inv.file (workDir ++ ascii names.1)).map fun contents => (ascii names.2, contents)

/-- A file that cannot be taken or is empty is an error. -/
def dumpStock (archive : Bytes) (names : String × String) : Option (Bytes × Bytes) :=
  (tools.stock archive (ascii names.1)).bind fun contents =>
    if contents = [] then none else some (ascii names.2, contents)

/-- The entries of the payload, if there is one. -/
def stagePayload : Option (List (Bytes × Bytes)) :=
  match inv.file (payloadPath workDir inv) with
  | none => some []
  | some payload =>
      (tools.unpack payload).map fun entries =>
        entries.map fun entry => (ascii "zd-payload/" ++ entry.1, entry.2)

/-- A file with a line, unless it would be empty. -/
def stageLine (name : String) (value : Bytes) : List (Bytes × Bytes) :=
  if value = [] then [] else [(ascii name, value ++ [10])]

/-- The file that the boot handoff reads. -/
def runtimeOptions (s : Settings) : Bytes :=
  optionLine "ENABLE_ECDSA_SSH" s.enableEcdsaSsh ++
    (optionLine "ENABLE_ROOT_CLI" s.enableRootCli ++
    (optionLine "SUPPORT_ENTITLEMENT_END_EPOCH" (decimalText s.supportEntitlementEndEpoch.toNat) ++
    (optionLine "PING_INTERVAL_SECONDS" s.pingIntervalSeconds ++
    (optionLine "SNAPSHOT_INTERVAL_SECONDS" s.snapshotIntervalSeconds ++
      optionLine "VIRTUAL_BUILD_ID" s.virtualBuildId))))

/-- What the image has beside the base image. -/
def staging (s : Settings) : Option (List (Bytes × Bytes)) :=
  (copiedFiles.mapM (copySource workDir inv)).bind fun copied =>
  (inv.file (rootfsArchive workDir inv)).bind fun archive =>
  (stockFiles.mapM (dumpStock tools archive)).bind fun stock =>
  (stagePayload workDir tools inv).map fun payload =>
    copied ++ stock ++ payload ++ stageLine "zd-root-authorized_keys" (s.rootSshPublicKey.getD []) ++
      stageLine "zd-ping-client-targets" s.pingClientTargets ++
      [(ascii "zd-runtime-options", runtimeOptions s)]

/-- The image that is built of the options and the sources. -/
def initrdImage (s : Settings) (nonce : Nat) : Option Bytes :=
  (staging workDir tools inv s).bind fun entries =>
  (inv.file (baseInitrd workDir inv)).bind fun base => tools.pack nonce base entries

/-! ### Reading the options -/

theorem optionLine_append_injective (name : String) (value value' rest rest' : Bytes)
    (hv : (10 : UInt8) ∉ value) (hv' : (10 : UInt8) ∉ value')
    (h : optionLine name value ++ rest = optionLine name value' ++ rest') :
    value = value' ∧ rest = rest' := by
  unfold optionLine at h
  rw [List.append_assoc, List.append_assoc, List.cons_append, List.cons_append, List.append_assoc,
    List.append_assoc] at h
  have hvalues := (List.cons.inj (List.append_cancel_left h)).2
  exact delimited_injective value value' rest rest' 10 hv hv' hvalues

/-- An option whose value has no equals sign is found from the end. -/
theorem append_optionLine_injective (name : String) (value value' front front' : Bytes)
    (hv : (61 : UInt8) ∉ value) (hv' : (61 : UInt8) ∉ value')
    (h : front ++ optionLine name value = front' ++ optionLine name value') :
    value = value' ∧ front = front' := by
  have hline : ∀ v : Bytes, (61 : UInt8) ∉ v → (61 : UInt8) ∉ v ++ [10] := fun v hv hmem =>
    (List.mem_append.mp hmem).elim hv (by decide)
  unfold optionLine at h
  rw [← List.append_assoc, ← List.append_assoc] at h
  rcases delimited_last_injective _ _ _ _ 61 (hline value hv) (hline value' hv') h with
    ⟨hfront, hvalue⟩
  exact ⟨List.append_cancel_right hvalue, List.append_cancel_right hfront⟩

theorem not_mem_of_isSwitch {value : Bytes} (h : isSwitch value = true) : (10 : UInt8) ∉ value := by
  rcases of_decide_eq_true h with rfl | rfl
  · decide
  · decide

theorem not_mem_of_isInterval {value : Bytes} (h : isInterval value = true) :
    (61 : UInt8) ∉ value := by
  intro hmem
  exact absurd (List.all_eq_true.mp (of_decide_eq_true h).2.1 61 hmem) (by decide)

theorem not_mem_of_isBuildId {id : Bytes} (h : isBuildId id = true) : (61 : UInt8) ∉ id := by
  intro hmem
  exact absurd (List.all_eq_true.mp (of_decide_eq_true h).2 61 hmem) (by decide)

/-- The end of the support is one that `date` has printed. -/
theorem not_mem_of_entitlementEpoch
    (hday : ∀ text day, tools.day text = some day → (10 : UInt8) ∉ day)
    (stop : Bytes) (epoch : Int) (h : entitlementEpoch tools stop = some epoch) :
    (10 : UInt8) ∉ stop := by
  unfold entitlementEpoch at h
  split at h
  · next hstop =>
    rw [hstop]
    exact List.not_mem_nil
  · rcases Option.bind_eq_some_iff.mp h with ⟨parsed, hparsed, h⟩
    split at h
    · next heq => exact heq ▸ hday stop parsed hparsed
    · exact absurd h (by simp only [reduceCtorEq, not_false_eq_true])

theorem keyDigest_noNewline (hdigest : HexDigest tools.digest) (s : Settings) :
    (10 : UInt8) ∉ keyDigest tools s := by
  unfold keyDigest
  split
  · exact List.not_mem_nil
  · next key _ => exact fun hmem => not_hexByte_of_eq (by decide) (hdigest.hex key _ hmem) rfl

/-- The keys that are given. -/
def keyTexts (s : Settings) : List Bytes := s.rootSshPublicKey.toList

theorem rootSshPublicKey_eq (hdigest : HexDigest tools.digest) (s s' : Settings)
    (happart : TellsApart tools.digest (keyTexts s ++ keyTexts s'))
    (h : keyDigest tools s = keyDigest tools s') : s.rootSshPublicKey = s'.rootSshPublicKey := by
  have hlen : ∀ key, tools.digest key ≠ [] := fun key hnil =>
    absurd (hdigest.length key) (by rw [hnil]; decide)
  unfold keyDigest at h
  unfold keyTexts at happart
  rcases hs : s.rootSshPublicKey with _ | key
  · rcases hs' : s'.rootSshPublicKey with _ | key'
    · rfl
    · rw [hs, hs'] at h
      exact absurd h.symm (hlen key')
  · rcases hs' : s'.rootSshPublicKey with _ | key'
    · rw [hs, hs'] at h
      exact absurd h (hlen key)
    · rw [hs, hs'] at h happart
      rw [happart key List.mem_cons_self key' (List.mem_cons_of_mem _ List.mem_cons_self) h]

/-- The options can be read from their lines. -/
theorem optionLines_injective (hdigest : HexDigest tools.digest) (s s' : Settings)
    (hs : (10 : UInt8) ∉ s.supportEntitlementEnd) (hs' : (10 : UInt8) ∉ s'.supportEntitlementEnd)
    (hepoch : entitlementEpoch tools s.supportEntitlementEnd = some s.supportEntitlementEndEpoch)
    (hepoch' : entitlementEpoch tools s'.supportEntitlementEnd = some s'.supportEntitlementEndEpoch)
    (happart : TellsApart tools.digest (keyTexts s ++ keyTexts s'))
    (h : optionLines tools s = optionLines tools s') : s = s' := by
  unfold optionLines at h
  rcases optionLine_append_injective _ _ _ _ _ (not_mem_of_isSwitch s.ecdsa)
    (not_mem_of_isSwitch s'.ecdsa) h with ⟨hecdsa, h⟩
  rcases optionLine_append_injective _ _ _ _ _ (not_mem_of_isSwitch s.rootCli)
    (not_mem_of_isSwitch s'.rootCli) h with ⟨hcli, h⟩
  rcases optionLine_append_injective _ _ _ _ _ hs hs' h with ⟨hend, h⟩
  rcases optionLine_append_injective _ _ _ _ _ (keyDigest_noNewline tools hdigest s)
    (keyDigest_noNewline tools hdigest s') h with ⟨hkey, h⟩
  -- The targets may hold anything, so the rest is read from the end.
  simp only [← List.append_assoc] at h
  rcases append_optionLine_injective _ _ _ _ _ (by decide) (by decide) h with ⟨-, h⟩
  rcases append_optionLine_injective _ _ _ _ _ (not_mem_of_isBuildId s.buildId)
    (not_mem_of_isBuildId s'.buildId) h with ⟨hid, h⟩
  rcases append_optionLine_injective _ _ _ _ _ (not_mem_of_isInterval s.snapshotInterval)
    (not_mem_of_isInterval s'.snapshotInterval) h with ⟨hsnap, h⟩
  rcases append_optionLine_injective _ _ _ _ _ (not_mem_of_isInterval s.pingInterval)
    (not_mem_of_isInterval s'.pingInterval) h with ⟨hping, h⟩
  unfold optionLine at h
  have htargets := List.append_cancel_right (List.cons.inj (List.append_cancel_left h)).2
  rw [hend, hepoch', Option.some.injEq] at hepoch
  exact Settings.ext hid hecdsa hcli hend hepoch.symm
    (rootSshPublicKey_eq tools hdigest s s' happart hkey) htargets hping hsnap

/-! ### What the checks leave -/

theorem settings_checked (s : Settings) (h : settings workDir tools inv = some s) :
    entitlementEpoch tools s.supportEntitlementEnd = some s.supportEntitlementEndEpoch := by
  unfold settings at h
  rcases Option.bind_eq_some_iff.mp h with ⟨id, -, h⟩
  split at h
  · split at h
    · split at h
      · rcases Option.bind_eq_some_iff.mp h with ⟨epoch, hepoch, h⟩
        rcases Option.bind_eq_some_iff.mp h with ⟨key, -, h⟩
        split at h
        · split at h
          · rw [← Option.some.inj h]
            exact hepoch
          · exact absurd h (by simp only [reduceCtorEq, not_false_eq_true])
        · exact absurd h (by simp only [reduceCtorEq, not_false_eq_true])
      · exact absurd h (by simp only [reduceCtorEq, not_false_eq_true])
    · exact absurd h (by simp only [reduceCtorEq, not_false_eq_true])
  · exact absurd h (by simp only [reduceCtorEq, not_false_eq_true])

/-! ### Reading the sources -/

variable {workDir inv}

theorem mem_presentSources {path contents : Bytes}
    (h : (path, contents) ∈ presentSources workDir inv) : inv.file path = some contents := by
  have hnamed : ∀ p, namedFile inv p = some (path, contents) → inv.file path = some contents := by
    intro p hp
    rcases Option.map_eq_some_iff.mp hp with ⟨found, hfile, heq⟩
    rw [← (Prod.mk.inj heq).1, ← (Prod.mk.inj heq).2]
    exact hfile
  rcases List.mem_append.mp h with h | h
  · rcases List.mem_filterMap.mp h with ⟨p, -, hp⟩
    exact hnamed p hp
  · rcases List.mem_append.mp h with h | h
    · rcases List.mem_filterMap.mp h with ⟨p, -, hp⟩
      exact hnamed p hp
    · exact hnamed _ (Option.mem_toList.mp h)

/-- A source in the working directory that is there is shown. -/
theorem presentSources_mem {name : String} (hname : name ∈ sourceNames) {contents : Bytes}
    (h : inv.file (workDir ++ ascii name) = some contents) :
    (workDir ++ ascii name, contents) ∈ presentSources workDir inv :=
  List.mem_append_right _ (List.mem_append_left _ (List.mem_filterMap.mpr
    ⟨_, List.mem_map_of_mem hname, by rw [namedFile, h, Option.map_some]⟩))

/-- Sources that are shown alike are alike, also where they are missing. -/
theorem file_eq_of_presentSources {inv' : Invocation}
    (h : presentSources workDir inv = presentSources workDir inv') {name : String}
    (hname : name ∈ sourceNames) :
    inv.file (workDir ++ ascii name) = inv'.file (workDir ++ ascii name) := by
  rcases hfile : inv.file (workDir ++ ascii name) with _ | contents
  · rcases hfile' : inv'.file (workDir ++ ascii name) with _ | contents
    · rfl
    · have hmem := mem_presentSources (h ▸ presentSources_mem hname hfile')
      exact absurd (hfile.symm.trans hmem) (by simp only [reduceCtorEq, not_false_eq_true])
  · exact (mem_presentSources (h ▸ presentSources_mem hname hfile)).symm

/-- What the image takes from the files. -/
theorem image_files_eq {inv' : Invocation} {base base' archive archive' : Bytes}
    (hbase : inv.file (baseInitrd workDir inv) = some base)
    (hbase' : inv'.file (baseInitrd workDir inv') = some base')
    (harchive : inv.file (rootfsArchive workDir inv) = some archive)
    (harchive' : inv'.file (rootfsArchive workDir inv') = some archive')
    (h : presentSources workDir inv = presentSources workDir inv') :
    base = base' ∧ archive = archive' ∧
      inv.file (payloadPath workDir inv) = inv'.file (payloadPath workDir inv') := by
  have hfixed : (sourceNames.map fun name => workDir ++ ascii name).filterMap (namedFile inv) =
      (sourceNames.map fun name => workDir ++ ascii name).filterMap (namedFile inv') := by
    refine List.filterMap_congr fun path hpath => ?_
    rcases List.mem_map.mp hpath with ⟨name, hname, rfl⟩
    rw [namedFile, namedFile, file_eq_of_presentSources h hname]
  have hlines := h
  unfold presentSources at hlines
  rw [hfixed] at hlines
  simp only [List.filterMap_cons, List.filterMap_nil, namedFile, hbase, hbase', harchive,
    harchive', Option.map_some, List.cons_append, List.nil_append, List.cons.injEq,
    Prod.mk.injEq, List.append_cancel_left_eq] at hlines
  rcases hlines with ⟨⟨-, hb⟩, ⟨-, ha⟩, hpayload⟩
  refine ⟨hb, ha, ?_⟩
  rcases hp : inv.file (payloadPath workDir inv) with _ | payload
  · rcases hp' : inv'.file (payloadPath workDir inv') with _ | payload'
    · rfl
    · rw [hp, hp'] at hpayload
      exact absurd hpayload (by simp only [Option.map_none, Option.toList_none, Option.map_some,
        Option.toList_some, reduceCtorEq, not_false_eq_true])
  · rcases hp' : inv'.file (payloadPath workDir inv') with _ | payload'
    · rw [hp, hp'] at hpayload
      exact absurd hpayload (by simp only [Option.map_none, Option.toList_none, Option.map_some,
        Option.toList_some, reduceCtorEq, not_false_eq_true])
    · rw [hp, hp'] at hpayload
      simp only [Option.map_some, Option.toList_some, List.cons.injEq, Prod.mk.injEq,
        and_true] at hpayload
      rw [hpayload.2]

theorem mapM_congr {α β : Type} (f g : α → Option β) (xs : List α) (h : ∀ x ∈ xs, f x = g x) :
    xs.mapM f = xs.mapM g := by
  induction xs with
  | nil => rfl
  | cons x xs ih =>
      rw [List.mapM_cons, List.mapM_cons, h x List.mem_cons_self,
        ih fun y hy => h y (List.mem_cons_of_mem x hy)]

/-- All that is copied is a source. -/
theorem copiedFiles_sources : ∀ names ∈ copiedFiles, names.1 ∈ sourceNames := by decide

/-- The image shows in the sources and in the options. -/
theorem initrdImage_congr {inv' : Invocation} {base base' archive archive' : Bytes}
    (hbase : inv.file (baseInitrd workDir inv) = some base)
    (hbase' : inv'.file (baseInitrd workDir inv') = some base')
    (harchive : inv.file (rootfsArchive workDir inv) = some archive)
    (harchive' : inv'.file (rootfsArchive workDir inv') = some archive')
    (h : presentSources workDir inv = presentSources workDir inv') (s : Settings) :
    initrdImage workDir tools inv s = initrdImage workDir tools inv' s := by
  rcases image_files_eq hbase hbase' harchive harchive' h with ⟨rfl, rfl, hpayload⟩
  have hcopied : copiedFiles.mapM (copySource workDir inv)
      = copiedFiles.mapM (copySource workDir inv') := by
    refine mapM_congr _ _ _ fun names hnames => ?_
    rw [copySource, copySource, file_eq_of_presentSources h (copiedFiles_sources names hnames)]
  funext nonce
  unfold initrdImage staging stagePayload
  rw [hcopied, hbase, hbase', harchive, harchive', hpayload]

/-- What the documentation says of the programs. -/
structure Documented : Prop where
  digest : HexDigest tools.digest
  /-- A date is one line. -/
  day : ∀ text day, tools.day text = some day → (10 : UInt8) ∉ day

/-- All texts of which an invocation takes the digest. -/
def digestedTexts (workDir : Bytes) (inv : Invocation) (s : Settings) : List Bytes :=
  signatureText workDir tools inv s ::
    (keyTexts s ++ (presentSources workDir inv).map Prod.snd)

/-- The text of the signature shows everything that gets into the image. -/
theorem initrdImage_eq (htools : Documented tools) {inv' : Invocation} {s s' : Settings}
    (hs : settings workDir tools inv = some s) (hs' : settings workDir tools inv' = some s')
    (hbase : (inv.file (baseInitrd workDir inv)).isSome = true)
    (hbase' : (inv'.file (baseInitrd workDir inv')).isSome = true)
    (harchive : (inv.file (rootfsArchive workDir inv)).isSome = true)
    (harchive' : (inv'.file (rootfsArchive workDir inv')).isSome = true)
    (happart : TellsApart tools.digest
      (digestedTexts tools workDir inv s ++ digestedTexts tools workDir inv' s'))
    (h : signatureText workDir tools inv s = signatureText workDir tools inv' s') :
    initrdImage workDir tools inv s = initrdImage workDir tools inv' s' := by
  have hepoch := settings_checked workDir tools inv s hs
  have hepoch' := settings_checked workDir tools inv' s' hs'
  -- The digests are those of the sources and of the keys.
  have hsourceTexts : TellsApart tools.digest ((presentSources workDir inv).map Prod.snd ++
      (presentSources workDir inv').map Prod.snd) :=
    happart.mono fun text htext => (List.mem_append.mp htext).elim
      (fun h => List.mem_append_left _ (List.mem_cons_of_mem _ (List.mem_append_right _ h)))
      fun h => List.mem_append_right _ (List.mem_cons_of_mem _ (List.mem_append_right _ h))
  have hkeyTexts : TellsApart tools.digest (keyTexts s ++ keyTexts s') :=
    happart.mono fun text htext => (List.mem_append.mp htext).elim
      (fun h => List.mem_append_left _ (List.mem_cons_of_mem _ (List.mem_append_left _ h)))
      fun h => List.mem_append_right _ (List.mem_cons_of_mem _ (List.mem_append_left _ h))
  have hstart : ∀ t : Settings, ∃ rest, optionLines tools t = 90 :: rest := fun t => ⟨_, rfl⟩
  rcases hstart s with ⟨rest, hrest⟩
  rcases hstart s' with ⟨rest', hrest'⟩
  unfold signatureText at h
  rw [hrest, hrest'] at h
  rcases sumLines_injective tools.digest htools.digest _ _ 90 90 rest rest' (by decide) (by decide)
    hsourceTexts h with ⟨hsources, hoptions⟩
  rw [← hrest, ← hrest'] at hoptions
  have hsettings := optionLines_injective tools htools.digest s s'
    (not_mem_of_entitlementEpoch tools htools.day _ _ hepoch)
    (not_mem_of_entitlementEpoch tools htools.day _ _ hepoch') hepoch hepoch' hkeyTexts hoptions
  rw [← hsettings]
  rcases Option.isSome_iff_exists.mp hbase with ⟨base, hbase⟩
  rcases Option.isSome_iff_exists.mp hbase' with ⟨base', hbase'⟩
  rcases Option.isSome_iff_exists.mp harchive with ⟨archive, harchive⟩
  rcases Option.isSome_iff_exists.mp harchive' with ⟨archive', harchive'⟩
  exact initrdImage_congr tools hbase hbase' harchive harchive' hsources s

/-! ### Signatures in a file -/

theorem length_commandOutput_le (text : Bytes) : (commandOutput text).length ≤ text.length :=
  (List.rdropWhile_prefix _ _).length_le.trans (List.length_filter_le _ _)

/-- One line of text is read as it is. -/
theorem commandOutput_eq_self (text : Bytes) (h : ∀ c ∈ text, c ≠ 0 ∧ c ≠ 10) :
    commandOutput text = text := by
  have hfilter : text.filter (· ≠ 0) = text :=
    List.filter_eq_self.mpr fun c hc => decide_eq_true (h c hc).1
  unfold commandOutput
  rw [hfilter, List.rdropWhile_eq_self_iff]
  intro hnil hlast
  exact (h _ (List.getLast_mem hnil)).2 (of_decide_eq_true hlast)

theorem commandOutput_digest (hdigest : HexDigest tools.digest) (text : Bytes) :
    commandOutput (tools.digest text) = tools.digest text :=
  commandOutput_eq_self _ fun c hc =>
    ⟨not_hexByte_of_eq (by decide) (hdigest.hex text c hc),
      not_hexByte_of_eq (by decide) (hdigest.hex text c hc)⟩

theorem commandOutput_line (text : Bytes) : commandOutput (text ++ [10]) = commandOutput text := by
  unfold commandOutput
  rw [List.filter_append, show [(10 : UInt8)].filter (· ≠ 0) = [10] by decide,
    List.rdropWhile_concat_pos (fun c : UInt8 => decide (c = 10)) _ 10 (decide_eq_true rfl)]

/-- A file of a digest that is long enough shows it. -/
theorem commandOutput_of_front (hdigest : HexDigest tools.digest) (text part : Bytes)
    (hpre : part <+: tools.digest text ++ [10]) (hlen : 64 ≤ part.length) :
    commandOutput part = tools.digest text := by
  rcases List.prefix_concat_iff.mp hpre with rfl | hpre
  · rw [commandOutput_line, commandOutput_digest tools hdigest]
  · rw [hpre.eq_of_length_le (by rw [hdigest.length]; exact hlen),
      commandOutput_digest tools hdigest]

end Signature

end Zd1200
