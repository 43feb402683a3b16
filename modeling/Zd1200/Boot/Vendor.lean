import Zd1200.Lib.Backup
import Zd1200.Lib.Sed
import Zd1200.Monitor.Text

/-!
# The Vendor's Startup Scripts

What the boot handoff does to `/etc/init.d` of the installed system, at every
boot.

It keeps a copy of the vendor's launcher of Dropbear, puts the launcher back
from the copy, and adds the ECDSA host key to it if the option is set. A script
that makes this key is there exactly if the launcher names it. It keeps a copy
of the vendor's controller script too, and puts its own wrapper in the place of
it. The wrapper runs the copy.

A boot can be stopped after any command. `startup_files` says what a boot that
was not stopped leaves after any boots before it: the option of the last one is
all that matters, and switching it off gives the vendor's launcher back. That
is as good as the copies are, and `startup_copies` describes them: each is as
much of the vendor's script as the first boot that came to it wrote. A boot that
was stopped within its first copy has cut off the vendor's script for good.

## Main definitions

* `launcher`: The launcher with or without the key.
* `startupBoot`: What a boot does to the scripts.
* `vendorScripts`: The scripts as the vendor delivers them.

## Theorems

* `grep_launcher`: When the launcher names the key.
* `startup_copies`: What the copies are.
* `startup_files`: What a completed boot leaves.
-/

namespace Zd1200

/-! ### The launcher of Dropbear -/

/-- `grep -q -- pattern`, for a pattern without special characters. -/
def grep (pattern text : Bytes) : Bool :=
  (text.splitOn 10).any fun line => decide (pattern <:+: line)

def ecdsaKey : Bytes := ascii "/etc/airespider/dropbear/dropbear_host_ecdsa_key"

/-- The argument of the launcher that names the RSA key. -/
def rsaArgument : Bytes := ascii " -r /etc/airespider/dropbear/dropbear_host_rsa_key"

/-- `sed -i "s| -r RSA| -r RSA -r $ecdsa_key|"`. -/
def addEcdsa (text : Bytes) : Bytes :=
  [10].intercalate
    ((text.splitOn 10).map (substitute rsaArgument (rsaArgument ++ (ascii " -r " ++ ecdsaKey))))

/-- The launcher that the vendor's becomes. -/
def launcher (enableEcdsaSsh : Bool) (text : Bytes) : Bytes :=
  if enableEcdsaSsh = true ∧ grep ecdsaKey text = false ∧
      grep (ascii "dropbear_host_rsa_key") text = true then
    addEcdsa text
  else text

/-- `S59zd_ecdsa_hostkey`. -/
@[irreducible]
def ecdsaInit : Bytes :=
  ascii ("#!/bin/sh\n" ++
    "key=/etc/airespider/dropbear/dropbear_host_ecdsa_key\n" ++
    "log=/writable/zd1200-ssh-recovery.log\n" ++
    "if [ ! -s \"$key\" ] && [ -x /usr/local/libexec/zd1200/dropbearkey ]; then\n" ++
    "    mkdir -p /etc/airespider/dropbear\n" ++
    "    if /usr/local/libexec/zd1200/dropbearkey -t ecdsa -f \"$key\" >> \"$log\" 2>&1; then\n" ++
    "        chmod 600 \"$key\" 2>/dev/null || true\n" ++
    "        echo \"ECDSA host key generated before administrative SSH startup\" >> \"$log\"\n" ++
    "    else\n" ++
    "        echo \"ECDSA host-key generation failed before administrative SSH startup\" >> \"$log\"\n" ++
    "    fi\n" ++
    "fi\n")

theorem not_newline_rsaArgument : (10 : UInt8) ∉ rsaArgument ++ (ascii " -r " ++ ecdsaKey) := by
  decide

/-- A line names the ECDSA key afterwards if it did before, or named the RSA
    key. -/
theorem ecdsaKey_substitute (line : Bytes) :
    ecdsaKey <:+: substitute rsaArgument (rsaArgument ++ (ascii " -r " ++ ecdsaKey)) line ↔
      ecdsaKey <:+: line ∨ rsaArgument <:+: line := by
  by_cases hrsa : rsaArgument <:+: line
  · rcases substitute_of_infix rsaArgument (rsaArgument ++ (ascii " -r " ++ ecdsaKey)) line hrsa with
      ⟨front, back, -, hresult⟩
    rw [hresult]
    have hinside : ecdsaKey <:+: front ++ (rsaArgument ++ (ascii " -r " ++ ecdsaKey) ++ back) :=
      ⟨front ++ (rsaArgument ++ ascii " -r "), back, by simp only [List.append_assoc]⟩
    exact ⟨fun _ => Or.inr hrsa, fun _ => hinside⟩
  · rw [substitute_of_not _ _ line hrsa]
    exact ⟨Or.inl, fun h => h.resolve_right hrsa⟩

/-- The lines of the launcher stay lines. -/
theorem splitOn_addEcdsa (text : Bytes) :
    (addEcdsa text).splitOn 10 =
      (text.splitOn 10).map (substitute rsaArgument (rsaArgument ++ (ascii " -r " ++ ecdsaKey))) := by
  refine List.splitOn_intercalate 10 ?_ ?_
  · intro line hline
    rcases List.mem_map.mp hline with ⟨old, hold, rfl⟩
    have hnot : (10 : UInt8) ∉ old := fun h => (mem_splitOn hold h).2 rfl
    by_cases hrsa : rsaArgument <:+: old
    · rcases substitute_of_infix rsaArgument (rsaArgument ++ (ascii " -r " ++ ecdsaKey)) old hrsa with
        ⟨front, back, hold', hresult⟩
      rw [hresult]
      rw [hold'] at hnot
      simp only [List.mem_append, not_or] at hnot
      intro h
      rcases List.mem_append.mp h with hfront | h
      · exact hnot.1 hfront
      · rcases List.mem_append.mp h with hnew | hback
        · exact not_newline_rsaArgument hnew
        · exact hnot.2.2 hback
    · rwa [substitute_of_not _ _ old hrsa]
  · simp only [ne_eq, List.map_eq_nil_iff]
    exact List.splitOn_ne_nil 10 text

/-- The launcher names the ECDSA key if the vendor's does, or if the option is
    set and the vendor's takes the RSA key as an argument. -/
theorem grep_launcher (enableEcdsaSsh : Bool) (text : Bytes) :
    grep ecdsaKey (launcher enableEcdsaSsh text) =
      (grep ecdsaKey text || enableEcdsaSsh && grep rsaArgument text) := by
  have hadd : grep ecdsaKey (addEcdsa text) = (grep ecdsaKey text || grep rsaArgument text) := by
    rw [Bool.eq_iff_iff, Bool.or_eq_true]
    simp only [grep, splitOn_addEcdsa, List.any_map, List.any_eq_true, Function.comp_apply,
      decide_eq_true_eq, ecdsaKey_substitute]
    constructor
    · rintro ⟨line, hline, h | h⟩
      · exact Or.inl ⟨line, hline, h⟩
      · exact Or.inr ⟨line, hline, h⟩
    · rintro (⟨line, hline, h⟩ | ⟨line, hline, h⟩)
      · exact ⟨line, hline, Or.inl h⟩
      · exact ⟨line, hline, Or.inr h⟩
  -- The argument has the name in it that is looked for.
  have hname : grep rsaArgument text = true → grep (ascii "dropbear_host_rsa_key") text = true := by
    intro h
    rcases List.any_eq_true.mp h with ⟨line, hline, hrsa⟩
    refine List.any_eq_true.mpr ⟨line, hline, decide_eq_true ?_⟩
    exact List.IsInfix.trans (by decide) (of_decide_eq_true hrsa)
  rw [launcher]
  split
  · next h => rw [hadd, h.1, Bool.true_and]
  · next h =>
    cases hkey : grep ecdsaKey text with
    | true => rfl
    | false =>
        cases enableEcdsaSsh with
        | false => rfl
        | true =>
            have hrsa : grep rsaArgument text = false := by
              by_contra hrsa
              exact h ⟨rfl, hkey, hname (eq_true_of_ne_false hrsa)⟩
            rw [hrsa]
            rfl

/-! ### A boot -/

/-- The files of `/etc/init.d` that the handoff works on. -/
inductive StartupFile
  | dropbear
  | dropbearVendor
  | ecdsaHostkey
  | controller
  | controllerVendor
  deriving DecidableEq

abbrev StartupFiles := Files StartupFile UInt8

/-- `grep -q -- pattern "$dropbear_script"`. -/
def launcherHas (pattern : Bytes) (s : StartupFiles) : Bool := (s.lookup .dropbear).any (grep pattern)

/-- `sed -i`, which puts a new file in the place of the launcher. -/
def sedLauncher (s : StartupFiles) : Option StartupFiles :=
  (s.lookup .dropbear).map fun text => s.insert .dropbear (addEcdsa text)

/-- The launcher is changed unless it names the key already, and the script
    that makes the key is written if it names it now. -/
def enableEcdsa : Script StartupFiles :=
  (Script.ifThen
    (fun s => !launcherHas ecdsaKey s && launcherHas (ascii "dropbear_host_rsa_key") s)
    (Script.attempt sedLauncher)).seq
    (Script.ifThen (launcherHas ecdsaKey) (redirect .ecdsaHostkey ecdsaInit))

/-- From the copy on. -/
def dropbearFromCopy (enableEcdsaSsh : Bool) : Script StartupFiles :=
  (copyFile .dropbearVendor .dropbear).seq
    ((Script.act fun s => s.erase .ecdsaHostkey).seq
      (Script.ifThen (fun s => enableEcdsaSsh && (s.lookup .dropbear).isSome) enableEcdsa))

def dropbearStartup (enableEcdsaSsh : Bool) : Script StartupFiles :=
  (Script.ifThen (fun s => (s.lookup .dropbear).isSome) (keepCopy .dropbear .dropbearVendor)).seq
    (dropbearFromCopy enableEcdsaSsh)

def controllerStartup (wrapper : Bytes) : Script StartupFiles :=
  (keepCopy .controller .controllerVendor).seq (redirect .controller wrapper)

/-- What a boot does, with the wrapper that is in its initramfs. -/
def startupBoot (wrapper : Bytes) (enableEcdsaSsh : Bool) : Script StartupFiles :=
  (dropbearStartup enableEcdsaSsh).seq (controllerStartup wrapper)

/-- The scripts as the vendor delivers them. -/
def vendorScripts (dropbear controller : Bytes) : StartupFiles :=
  AList.insert .dropbear dropbear (AList.insert .controller controller ∅)

/-- The scripts after a sequence of boots, each with its option and the number
    of commands after which it was stopped. -/
def startupAfter (wrapper dropbear controller : Bytes) (boots : List (Bool × Nat)) : StartupFiles :=
  afterRuns (startupBoot wrapper) (vendorScripts dropbear controller) boots

/-! ### What is not written to -/

theorem leaves_enableEcdsa (name : StartupFile) (h : name ≠ .dropbear ∧ name ≠ .ecdsaHostkey) :
    Leaves name enableEcdsa := by
  refine Preserves.seq (Preserves.ifThen (Preserves.act _ fun s => ?_))
    (Preserves.ifThen (Leaves.redirect _ _ h.2))
  rw [sedLauncher]
  cases s.lookup StartupFile.dropbear with
  | none => rfl
  | some text => exact AList.lookup_insert_ne h.1

theorem leaves_dropbearFromCopy (enableEcdsaSsh : Bool) (name : StartupFile)
    (h : name ≠ .dropbear ∧ name ≠ .ecdsaHostkey) : Leaves name (dropbearFromCopy enableEcdsaSsh) :=
  (Leaves.copyFile _ _ h.1).seq
    ((Preserves.act _ fun _ => AList.lookup_erase_ne h.2).seq (leaves_enableEcdsa name h).ifThen)

theorem leaves_dropbearStartup (enableEcdsaSsh : Bool) (name : StartupFile)
    (h : name = .controller ∨ name = .controllerVendor) :
    Leaves name (dropbearStartup enableEcdsaSsh) := by
  have hne : name ≠ .dropbear ∧ name ≠ .dropbearVendor ∧ name ≠ .ecdsaHostkey := by
    rcases h with rfl | rfl
    · decide
    · decide
  exact (Leaves.keepCopy _ _ hne.2.1).ifThen.seq
    (leaves_dropbearFromCopy enableEcdsaSsh name ⟨hne.1, hne.2.2⟩)

theorem leaves_controllerStartup (wrapper : Bytes) (name : StartupFile)
    (h : name ≠ .controller ∧ name ≠ .controllerVendor) :
    Leaves name (controllerStartup wrapper) :=
  (Leaves.keepCopy _ _ h.2).seq (Leaves.redirect _ _ h.1)

/-! ### The copies -/

/-- The launcher's copy comes first in a boot. -/
theorem run_startupBoot (wrapper : Bytes) (enableEcdsaSsh : Bool) (k : Nat) (s : StartupFiles) :
    (startupBoot wrapper enableEcdsaSsh).run k s =
      (keeping .dropbear .dropbearVendor (fun _ => Script.skip)
        (fun enable => (dropbearFromCopy enable).seq (controllerStartup wrapper))
        enableEcdsaSsh).run k s := by
  -- Without a launcher there is nothing to copy.
  have hguard : ∀ k s, (Script.ifThen (fun s : StartupFiles => (s.lookup .dropbear).isSome)
      (keepCopy .dropbear .dropbearVendor)).run k s =
      (keepCopy .dropbear .dropbearVendor).run k s := by
    intro k s
    rcases hlive : s.lookup StartupFile.dropbear with _ | text
    · by_cases hnone : (s.lookup StartupFile.dropbearVendor).isNone = true
      · simp only [Script.ifThen, Script.run, keepCopy, copyFile, hlive, Option.isSome_none, hnone,
          Bool.false_eq_true, if_false, if_true]
      · simp only [Script.ifThen, Script.run, keepCopy, hlive, Option.isSome_none, hnone,
          Bool.false_eq_true, if_false]
    · simp only [Script.ifThen, Script.run, hlive, Option.isSome_some, if_true]
  rw [startupBoot, dropbearStartup, run_seq_assoc, keeping]
  simp only [Script.run, hguard]

theorem leaves_behindCopy (wrapper : Bytes) (enableEcdsaSsh : Bool) :
    Leaves StartupFile.dropbearVendor
      ((dropbearFromCopy enableEcdsaSsh).seq (controllerStartup wrapper)) :=
  (leaves_dropbearFromCopy enableEcdsaSsh _ (by decide)).seq
    (leaves_controllerStartup wrapper _ (by decide))

theorem startupAfter_eq (wrapper dropbear controller : Bytes) (boots : List (Bool × Nat)) :
    startupAfter wrapper dropbear controller boots =
      afterRuns (keeping .dropbear .dropbearVendor (fun _ => Script.skip)
        fun enable => (dropbearFromCopy enable).seq (controllerStartup wrapper))
        (vendorScripts dropbear controller) boots :=
  afterRuns_congr _ _ (run_startupBoot wrapper) _ boots

theorem startup_copies_controller (wrapper dropbear controller : Bytes)
    (boots : List (Bool × Nat)) :
    let state := startupAfter wrapper dropbear controller
    (state boots).lookup .controllerVendor = none ∧
        (state boots).lookup .controller = some controller ∨
      ∃ front boot rest left, boots = front ++ boot :: rest ∧
        (state front).lookup .controllerVendor = none ∧
        ((dropbearStartup boot.1).run boot.2 (state front)).2 = some (left + 1) ∧
        (state boots).lookup .controllerVendor = some (controller.take left) :=
  backup_runs (fun enable => leaves_dropbearStartup enable _ (Or.inr rfl))
    (fun enable => leaves_dropbearStartup enable _ (Or.inl rfl))
    (fun _ => Leaves.redirect _ _ (by decide)) controller _ rfl rfl boots

/-- Each copy is there as soon as a boot has come to it, and it is as much of
    the vendor's script as this boot had commands left for. -/
theorem startup_copies (wrapper dropbear controller : Bytes) (boots : List (Bool × Nat)) :
    let state := startupAfter wrapper dropbear controller
    (state boots).lookup .dropbearVendor =
        (boots.find? fun boot => boot.2 ≠ 0).map (fun boot => dropbear.take (boot.2 - 1)) ∧
      ((state boots).lookup .controllerVendor = none ∧
          (state boots).lookup .controller = some controller ∨
        ∃ front boot rest left, boots = front ++ boot :: rest ∧
          (state front).lookup .controllerVendor = none ∧
          ((dropbearStartup boot.1).run boot.2 (state front)).2 = some (left + 1) ∧
          (state boots).lookup .controllerVendor = some (controller.take left)) := by
  intro state
  constructor
  · have hstate : state boots = _ := startupAfter_eq wrapper dropbear controller boots
    rw [hstate]
    exact backup_runs_first (leaves_behindCopy wrapper) dropbear _ rfl rfl boots
  · exact startup_copies_controller wrapper dropbear controller boots

/-- As long as a copy has not been made, the vendor's script is where it was. -/
theorem startup_originals (wrapper dropbear controller : Bytes) (boots : List (Bool × Nat)) :
    let s := startupAfter wrapper dropbear controller boots
    (s.lookup .dropbearVendor = none → s.lookup .dropbear = some dropbear) ∧
      (s.lookup .controllerVendor = none → s.lookup .controller = some controller) := by
  intro s
  have hskip : ∀ name, ∀ _ : Bool, Leaves name (Script.skip : Script StartupFiles) :=
    fun _ _ => Preserves.skip
  constructor
  · intro hnone
    have hs : s = _ := startupAfter_eq wrapper dropbear controller boots
    rw [hs] at hnone ⊢
    rcases backup_runs (hskip .dropbearVendor) (hskip .dropbear) (leaves_behindCopy wrapper) dropbear
      (vendorScripts dropbear controller) rfl rfl boots with h | ⟨_, _, _, _, -, -, -, hpart⟩
    · exact h.2
    · exact absurd (hnone.symm.trans hpart) (by simp only [reduceCtorEq, not_false_eq_true])
  · intro hnone
    rcases (startup_copies_controller wrapper dropbear controller boots) with
      h | ⟨_, _, _, _, -, -, -, hpart⟩
    · exact h.2
    · exact absurd (hnone.symm.trans hpart) (by simp only [reduceCtorEq, not_false_eq_true])

/-! ### A completed boot -/

/-- What the launcher's part leaves, made of the copy. -/
def LauncherFrom (copy : Bytes) (enableEcdsaSsh : Bool) (s : StartupFiles) : Prop :=
  s.lookup .dropbearVendor = some copy ∧
    s.lookup .dropbear = some (launcher enableEcdsaSsh copy) ∧
    s.lookup .ecdsaHostkey =
      if enableEcdsaSsh && grep ecdsaKey (launcher enableEcdsaSsh copy) then some ecdsaInit else none

/-- The launcher of the option is made of a launcher that is the copy. -/
theorem triple_enableEcdsa (copy : Bytes) :
    Triple
      (fun s : StartupFiles => s.lookup .dropbearVendor = some copy ∧
        s.lookup .dropbear = some copy ∧ s.lookup .ecdsaHostkey = none)
      enableEcdsa (LauncherFrom copy true) (fun _ => True) := by
  refine Triple.seq (Q := fun s => s.lookup .dropbearVendor = some copy ∧
    s.lookup .dropbear = some (launcher true copy) ∧ s.lookup .ecdsaHostkey = none) _ _ ?_ ?_
  · refine Triple.ifThen _ _ (Triple.act _ (fun _ _ => trivial) ?_) ?_
    · rintro s ⟨⟨hvendor, hlauncher, hinit⟩, hc⟩
      simp only [launcherHas, hlauncher, Option.any_some, Bool.and_eq_true, Bool.not_eq_true'] at hc
      have hsed : sedLauncher s = some (s.insert .dropbear (addEcdsa copy)) := by
        rw [sedLauncher, hlauncher, Option.map_some]
      rw [hsed, Option.getD_some, launcher, if_pos ⟨rfl, hc⟩]
      exact ⟨(AList.lookup_insert_ne (by decide)).trans hvendor, AList.lookup_insert s,
        (AList.lookup_insert_ne (by decide)).trans hinit⟩
    · rintro s ⟨hvendor, hlauncher, hinit⟩ hc
      simp only [launcherHas, hlauncher, Option.any_some] at hc
      have hnot : ¬ (true = true ∧ grep ecdsaKey copy = false ∧
          grep (ascii "dropbear_host_rsa_key") copy = true) := by
        rintro ⟨-, hkey, hname⟩
        rw [hkey, hname] at hc
        exact absurd hc (by decide)
      rw [launcher, if_neg hnot]
      exact ⟨hvendor, hlauncher, hinit⟩
  · refine Triple.ifThen _ _ ?_ ?_
    · refine Triple.redirect _ _ (fun _ _ => trivial) (fun _ _ _ _ => trivial) ?_
      rintro s ⟨⟨hvendor, hlauncher, -⟩, hc⟩
      rw [launcherHas, hlauncher, Option.any_some] at hc
      refine ⟨(AList.lookup_insert_ne (by decide)).trans hvendor,
        (AList.lookup_insert_ne (by decide)).trans hlauncher, ?_⟩
      rw [hc, Bool.and_self, if_pos rfl]
      exact AList.lookup_insert s
    · rintro s ⟨hvendor, hlauncher, hinit⟩ hc
      rw [launcherHas, hlauncher, Option.any_some] at hc
      refine ⟨hvendor, hlauncher, ?_⟩
      rw [hc, Bool.and_false, if_neg Bool.false_ne_true]
      exact hinit

theorem triple_dropbearStartup (enableEcdsaSsh : Bool) (copy : Bytes) :
    Triple
      (fun s : StartupFiles => s.lookup .dropbearVendor = some copy ∨
        s.lookup .dropbearVendor = none ∧ s.lookup .dropbear = some copy)
      (dropbearStartup enableEcdsaSsh) (LauncherFrom copy enableEcdsaSsh) (fun _ => True) := by
  -- The copy, which is there or is made.
  refine Triple.seq (Q := fun s => s.lookup .dropbearVendor = some copy) _ _ ?_ ?_
  · refine Triple.ifThen _ _ (Triple.pre _ (Triple.keepCopy _ _ copy) fun _ h => h.1) ?_
    rintro s (hvendor | ⟨-, hlauncher⟩) hc
    · exact hvendor
    · rw [hlauncher, Option.isSome_some] at hc
      exact absurd hc (by simp only [reduceCtorEq, not_false_eq_true])
  -- The launcher is put back from it.
  refine Triple.seq (Q := fun s => s.lookup .dropbearVendor = some copy ∧
    s.lookup .dropbear = some copy) _ _ ?_ ?_
  · exact Triple.copyFile _ _ copy (fun _ h => h) (fun _ _ => trivial) (fun _ _ _ _ => trivial)
      fun s h => ⟨(AList.lookup_insert_ne (by decide)).trans h, AList.lookup_insert s⟩
  refine Triple.seq (Q := fun s => s.lookup .dropbearVendor = some copy ∧
    s.lookup .dropbear = some copy ∧ s.lookup .ecdsaHostkey = none) _ _ ?_ ?_
  · exact Triple.act _ (fun _ _ => trivial) fun s h =>
      ⟨(AList.lookup_erase_ne (by decide)).trans h.1,
        (AList.lookup_erase_ne (by decide)).trans h.2, AList.lookup_erase _ _⟩
  cases enableEcdsaSsh with
  | true =>
      refine Triple.ifThen _ _ (Triple.pre _ (triple_enableEcdsa copy) fun _ h => h.1) ?_
      rintro s ⟨-, hlauncher, -⟩ hc
      rw [hlauncher, Option.isSome_some] at hc
      exact absurd hc (by decide)
  | false =>
      refine Triple.ifThen _ _ (fun s hs => ?_) fun s h _ => h
      exact absurd hs.2 (by simp only [Bool.false_and, Bool.false_eq_true, not_false_eq_true])

theorem triple_controllerStartup (wrapper part : Bytes) :
    Triple
      (fun s : StartupFiles => s.lookup .controllerVendor = some part ∨
        s.lookup .controllerVendor = none ∧ s.lookup .controller = some part)
      (controllerStartup wrapper)
      (fun s => s.lookup .controllerVendor = some part ∧ s.lookup .controller = some wrapper)
      (fun _ => True) :=
  Triple.seq _ _ (Triple.keepCopy _ _ part)
    (Triple.redirect _ _ (fun _ _ => trivial) (fun _ _ _ _ => trivial) fun s h =>
      ⟨(AList.lookup_insert_ne (by decide)).trans h, AList.lookup_insert s⟩)

/-- What the next boot takes for the vendor's script. -/
theorem copy_or_original (live backup : StartupFile) (original : Bytes) (s : StartupFiles)
    (h : s.lookup backup = none → s.lookup live = some original) :
    s.lookup backup = some ((s.lookup backup).getD original) ∨
      s.lookup backup = none ∧ s.lookup live = some ((s.lookup backup).getD original) := by
  rcases hcopy : s.lookup backup with _ | found
  · exact Or.inr ⟨rfl, h hcopy⟩
  · exact Or.inl rfl

/-- A boot that was not stopped leaves the launcher of its option and the
    wrapper. What the boots before it did shows in the copies only. -/
theorem startup_files (wrapper dropbear controller : Bytes) (boots : List (Bool × Nat))
    (enableEcdsaSsh : Bool) (k : Nat)
    (hfinished : ((startupBoot wrapper enableEcdsaSsh).run k
      (startupAfter wrapper dropbear controller boots)).2 ≠ none) :
    let before := startupAfter wrapper dropbear controller boots
    let after := startupAfter wrapper dropbear controller (boots ++ [(enableEcdsaSsh, k)])
    let copy := (before.lookup .dropbearVendor).getD dropbear
    after.lookup .dropbearVendor = some copy ∧
      after.lookup .dropbear = some (launcher enableEcdsaSsh copy) ∧
      after.lookup .ecdsaHostkey =
        (if enableEcdsaSsh && (grep ecdsaKey copy || grep rsaArgument copy) then some ecdsaInit
          else none) ∧
      after.lookup .controllerVendor =
        some ((before.lookup .controllerVendor).getD controller) ∧
      after.lookup .controller = some wrapper := by
  intro before after copy
  rcases startup_originals wrapper dropbear controller boots with ⟨hdropbear, hcontroller⟩
  rcases run_seq_finished _ _ k before hfinished with ⟨s, left, hfirst, hsecond⟩
  have hafter : after = ((controllerStartup wrapper).run left s).1 :=
    (afterRuns_concat _ _ boots _).trans (congrArg Prod.fst hsecond)
  have hdone : ((controllerStartup wrapper).run left s).2 ≠ none := by
    rw [← hsecond]
    exact hfinished
  -- The launcher, and then what the controller's part leaves alone.
  have hpre := copy_or_original .dropbear .dropbearVendor dropbear before hdropbear
  rcases (triple_dropbearStartup enableEcdsaSsh copy).finished before s k left hpre hfirst with
    ⟨hvendor, hlauncher, hinit⟩
  have hleaves := fun name h => leaves_controllerStartup wrapper name h left s
  rw [hafter, hleaves _ (by decide), hleaves _ (by decide), hleaves _ (by decide)]
  refine ⟨hvendor, hlauncher, ?_, ?_⟩
  · rw [hinit, grep_launcher]
    cases enableEcdsaSsh with
    | false => rfl
    | true => rw [Bool.true_and, Bool.true_and, Bool.true_and]
  -- The controller's script is what it was when the boot began.
  have hsame := fun name h => leaves_dropbearStartup enableEcdsaSsh name h k before
  rw [hfirst] at hsame
  have hpart := copy_or_original .controller .controllerVendor controller before hcontroller
  rw [← hsame _ (Or.inl rfl), ← hsame _ (Or.inr rfl)] at hpart
  rcases hrun : (controllerStartup wrapper).run left s with ⟨t, _ | spare⟩
  · rw [hrun] at hdone
    exact absurd rfl hdone
  · exact (triple_controllerStartup wrapper _).finished s t left spare
      (by rwa [hsame _ (Or.inr rfl)] at hpart ⊢) hrun

/-- A boot that is stopped within its first copy, and a second one. -/
theorem startup_files_cut_off :
    let before := startupAfter (ascii "wrapper") (ascii "dropbear -r rsa_key\n") (ascii "controller")
      [(true, 9)]
    let after := startupAfter (ascii "wrapper") (ascii "dropbear -r rsa_key\n") (ascii "controller")
      ([(true, 9)] ++ [(false, 60)])
    let copy := (before.lookup .dropbearVendor).getD (ascii "dropbear -r rsa_key\n")
    after.lookup .dropbearVendor = some copy ∧
      after.lookup .dropbear = some (launcher false copy) ∧
      after.lookup .ecdsaHostkey =
        (if false && (grep ecdsaKey copy || grep rsaArgument copy) then some ecdsaInit else none) ∧
      after.lookup .controllerVendor =
        some ((before.lookup .controllerVendor).getD (ascii "controller")) ∧
      after.lookup .controller = some (ascii "wrapper") :=
  startup_files (ascii "wrapper") (ascii "dropbear -r rsa_key\n") (ascii "controller") [(true, 9)]
    false 60 (by decide +kernel)

end Zd1200
