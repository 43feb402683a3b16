import Zd1200.Lib.Backup
import Zd1200.Monitor.Text

/-!
# Root Access

The three ways in which the boot handoff gives root access, and how it takes it
back.

A link in the vendor's script directory makes the command line of the
controller offer a root shell. A link at `authorized_keys` and a startup script
run a second SSH service with the operator's key. And a helper of the hardware
appliance is replaced by a link to a script that does nothing. Each is there
for the boots whose options ask for it.

A boot can be stopped after any command. The keys of an operator who has made an
`authorized_keys` of his own are never touched, and no service is started with
them (`root_ssh`). The operator's script at the place of the first link survives
until a boot asks for the root shell, and not longer (`root_cli`). The vendor's
helper is never lost, but it comes back only if there is a link in its place: a
boot that is stopped between the removal and the link leaves none, and the boots
without the option leave it so (`sesame2_restored`).

## Main definitions

* `AccessFiles`: The files and links.
* `AccessOptions`: What a boot is asked for.
* `rootCliHook`, `rootSsh`, `sesame2Helper`: The three parts.
* `accessBoot`: A boot.

## Theorems

* `root_ssh`: Who has a service.
* `root_cli`: Who has a shell.
* `sesame2_restored`: Where the vendor's helper is.
-/

namespace Zd1200

/-! ### The files -/

/-- A file, or a link with what `readlink` prints. -/
inductive DiskEntry
  | file (body : Bytes)
  | link (target : Bytes)
  deriving DecidableEq

structure AccessFiles where
  rootCliLink : Option DiskEntry
  rootCliTarget : Option Bytes
  rootSshLink : Option DiskEntry
  rootSshStore : Option Bytes
  rootSshInit : Option Bytes
  sesame2 : Option DiskEntry
  sesame2Vendor : Option Bytes
  sesame2Disabled : Option Bytes

/-- What a boot is asked for: the root shell, and the key that is in its
    initramfs. The release has to support the key. -/
structure AccessOptions where
  enableRootCli : Bool
  rootKey : Option Bytes
  payloadRootSsh : Bool

def AccessOptions.rootSshRequested (o : AccessOptions) : Bool := o.rootKey.isSome && o.payloadRootSsh

def rootCliPath : DiskEntry := .link (ascii "/etc/persistent-scripts/.zd1200-root.sh")

def rootSshTarget : DiskEntry := .link (ascii "/writable/zd1200-root-ssh/authorized_keys")

def sesame2Link : DiskEntry := .link (ascii "sesame2.disabled")

@[irreducible]
def rootCliScript : Bytes := ascii "#!/bin/sh\n#RUCKUS#\n/bin/stty echo\nexec /bin/sh\n"

@[irreducible]
def noOpScript : Bytes := ascii "#!/bin/sh\nexit 0\n"

/-- `S61zd_root_ssh`. -/
@[irreducible]
def rootSshInitText : Bytes :=
  ascii ("#!/bin/sh\n" ++
    "key=/root/.ssh/authorized_keys\n" ++
    "hostkey=/etc/airespider/dropbear/dropbear_host_rsa_key\n" ++
    "[ -r \"$key\" ] && [ -r \"$hostkey\" ] || exit 0\n" ++
    "exec /usr/sbin/dropbear -p 2222 -P /var/run/zd1200-root-dropbear.pid \\\n" ++
    "    -s -j -k -e /bin/sh -r \"$hostkey\"\n")

namespace AccessFiles

def setRootCliLink (e : Option DiskEntry) (s : AccessFiles) : AccessFiles :=
  { s with rootCliLink := e }

def setRootCliTarget (file : Option Bytes) (s : AccessFiles) : AccessFiles :=
  { s with rootCliTarget := file }

def setRootSshLink (e : Option DiskEntry) (s : AccessFiles) : AccessFiles :=
  { s with rootSshLink := e }

def setRootSshStore (file : Option Bytes) (s : AccessFiles) : AccessFiles :=
  { s with rootSshStore := file }

def setRootSshInit (file : Option Bytes) (s : AccessFiles) : AccessFiles :=
  { s with rootSshInit := file }

def setSesame2 (e : Option DiskEntry) (s : AccessFiles) : AccessFiles :=
  { s with sesame2 := e }

def setSesame2Disabled (file : Option Bytes) (s : AccessFiles) : AccessFiles :=
  { s with sesame2Disabled := file }

/-- `mv "$sesame2" "$sesame2_vendor"`, for a file. -/
def backUpSesame2 (body : Bytes) (s : AccessFiles) : AccessFiles :=
  { s with sesame2 := none, sesame2Vendor := some body }

/-- `mv "$sesame2_vendor" "$sesame2"`. -/
def restoreSesame2 (body : Bytes) (s : AccessFiles) : AccessFiles :=
  { s with sesame2 := some (.file body), sesame2Vendor := none }

end AccessFiles

/-! ### A boot -/

open AccessFiles

def rootCliHook (enableRootCli : Bool) : Script AccessFiles :=
  if enableRootCli then
    (writeInto setRootCliTarget rootCliScript).seq
      ((Script.act (setRootCliLink none)).seq (Script.act (setRootCliLink (some rootCliPath))))
  else
    Script.ifThen (fun s => s.rootCliLink = some rootCliPath)
      ((Script.act (setRootCliLink none)).seq (Script.act (setRootCliTarget none)))

/-- The key of the option is stored, and without one the stored key is removed. -/
def rootSshKey (o : AccessOptions) : Script AccessFiles :=
  match o.rootKey with
  | some key => if o.payloadRootSsh then writeInto setRootSshStore key else Script.skip
  | none => Script.act (setRootSshStore none)

/-- The service is asked for, and an `authorized_keys` of somebody else does not
    stand in the way. -/
def startsRootSsh (requested : Bool) (s : AccessFiles) : Bool :=
  requested && (s.rootSshLink = none || s.rootSshLink = some rootSshTarget)

def rootSshService (requested : Bool) : Script AccessFiles :=
  (Script.act (setRootSshInit none)).seq <|
    Script.dyn fun s =>
      if startsRootSsh requested s then
        (Script.ifThen (fun s => s.rootSshLink = none)
          (Script.act (setRootSshLink (some rootSshTarget)))).seq
          (writeInto setRootSshInit rootSshInitText)
      else
        Script.ifThen (fun s => s.rootSshLink = some rootSshTarget)
          (Script.act (setRootSshLink none))

def rootSsh (o : AccessOptions) : Script AccessFiles :=
  (rootSshKey o).seq (rootSshService o.rootSshRequested)

/-- A helper that is a file is moved away, unless one has been before. -/
def keepSesame2 : Script AccessFiles :=
  Script.dyn fun s =>
    match s.sesame2, s.sesame2Vendor with
    | some (.file body), none => Script.act (backUpSesame2 body)
    | _, _ => Script.skip

def sesame2Helper (enableRootCli : Bool) : Script AccessFiles :=
  if enableRootCli then
    keepSesame2.seq
      ((writeInto setSesame2Disabled noOpScript).seq
        ((Script.act (setSesame2 none)).seq (Script.act (setSesame2 (some sesame2Link)))))
  else
    Script.dyn fun s =>
      match s.sesame2Vendor with
      | some body =>
          Script.ifThen (fun s => s.sesame2 = some sesame2Link)
            ((Script.act (setSesame2 none)).seq
              ((Script.act (setSesame2Disabled none)).seq (Script.act (restoreSesame2 body))))
      | none => Script.skip

def accessBoot (o : AccessOptions) : Script AccessFiles :=
  (rootCliHook o.enableRootCli).seq ((rootSsh o).seq (sesame2Helper o.enableRootCli))

/-- The files after boots, each with the number of commands after which it was
    stopped. -/
def accessAfter (s : AccessFiles) (boots : List (AccessOptions × Nat)) : AccessFiles :=
  afterRuns accessBoot s boots

/-- A controller whose operator has a script and a key of his own. -/
def operatorFiles : AccessFiles where
  rootCliLink := some (.file [35])
  rootCliTarget := none
  rootSshLink := some (.file [107])
  rootSshStore := none
  rootSshInit := none
  sesame2 := some (.file [127])
  sesame2Vendor := none
  sesame2Disabled := none

/-! ### The parts leave each other alone -/

section Frames

variable {τ : Type} {f : AccessFiles → τ}

theorem preserves_rootCliHook (enableRootCli : Bool) (hlink : ∀ e s, f (setRootCliLink e s) = f s)
    (htarget : ∀ file s, f (setRootCliTarget file s) = f s) :
    Preserves f (rootCliHook enableRootCli) := by
  cases enableRootCli with
  | true =>
      exact (Preserves.writeInto _ _ htarget).seq
        ((Preserves.act _ (hlink _)).seq (Preserves.act _ (hlink _)))
  | false => exact Preserves.ifThen ((Preserves.act _ (hlink _)).seq (Preserves.act _ (htarget _)))

theorem preserves_rootSshKey (o : AccessOptions)
    (hstore : ∀ file s, f (setRootSshStore file s) = f s) : Preserves f (rootSshKey o) := by
  rw [rootSshKey]
  cases o.rootKey with
  | none => exact Preserves.act _ (hstore _)
  | some key =>
      cases o.payloadRootSsh with
      | true => exact Preserves.writeInto _ _ hstore
      | false => exact Preserves.skip

theorem preserves_rootSshService (requested : Bool) (hlink : ∀ e s, f (setRootSshLink e s) = f s)
    (hinit : ∀ file s, f (setRootSshInit file s) = f s) : Preserves f (rootSshService requested) := by
  refine Preserves.seq (Preserves.act _ (hinit _)) (Preserves.dyn fun s => ?_)
  by_cases h : startsRootSsh requested s = true
  · rw [if_pos h]
    exact Preserves.seq (Preserves.ifThen (Preserves.act _ (hlink _))) (Preserves.writeInto _ _ hinit)
  · rw [if_neg h]
    exact Preserves.ifThen (Preserves.act _ (hlink _))

theorem preserves_sesame2Helper (enableRootCli : Bool) (hhelper : ∀ e s, f (setSesame2 e s) = f s)
    (hdisabled : ∀ file s, f (setSesame2Disabled file s) = f s)
    (hbackUp : ∀ body s, f (backUpSesame2 body s) = f s)
    (hrestore : ∀ body s, f (restoreSesame2 body s) = f s) :
    Preserves f (sesame2Helper enableRootCli) := by
  cases enableRootCli with
  | true =>
      refine Preserves.seq (Preserves.dyn fun s => ?_) ((Preserves.writeInto _ _ hdisabled).seq
        ((Preserves.act _ (hhelper _)).seq (Preserves.act _ (hhelper _))))
      split
      · exact Preserves.act _ (hbackUp _)
      · exact Preserves.skip
  | false =>
      refine Preserves.dyn fun s => ?_
      split
      · exact Preserves.ifThen ((Preserves.act _ (hhelper _)).seq
          ((Preserves.act _ (hdisabled _)).seq (Preserves.act _ (hrestore _))))
      · exact Preserves.skip

end Frames

/-! ### The key of the operator -/

/-- The files of the service. -/
def sshFiles (s : AccessFiles) : Option DiskEntry × Option Bytes × Option Bytes :=
  (s.rootSshLink, s.rootSshInit, s.rootSshStore)

theorem preserves_cli_sshFiles (o : AccessOptions) :
    Preserves sshFiles (rootCliHook o.enableRootCli) :=
  preserves_rootCliHook _ (fun _ _ => rfl) fun _ _ => rfl

theorem preserves_sesame2_sshFiles (o : AccessOptions) :
    Preserves sshFiles (sesame2Helper o.enableRootCli) :=
  preserves_sesame2Helper _ (fun _ _ => rfl) (fun _ _ => rfl) (fun _ _ => rfl) fun _ _ => rfl

/-- There is a service with the key of the option, or there is none. -/
def RootSshOf (o : AccessOptions) (s : AccessFiles) : Prop :=
  if o.rootSshRequested = true then
    s.rootSshLink = some rootSshTarget ∧ s.rootSshInit = some rootSshInitText ∧
      s.rootSshStore = o.rootKey
  else s.rootSshLink = none ∧ s.rootSshInit = none

/-- An `authorized_keys` of somebody else stays. -/
theorem triple_rootSsh_foreign (o : AccessOptions) (e : DiskEntry) (he : e ≠ rootSshTarget) :
    Triple (fun s => s.rootSshLink = some e) (rootSsh o)
      (fun s => s.rootSshLink = some e ∧ s.rootSshInit = none) (fun s => s.rootSshLink = some e) := by
  have hkey : Preserves AccessFiles.rootSshLink (rootSshKey o) :=
    preserves_rootSshKey o fun _ _ => rfl
  refine Triple.seq _ _ (hkey.triple fun link => link = some e) ?_
  refine Triple.seq (Q := fun s => s.rootSshLink = some e ∧ s.rootSshInit = none) _ _
    (Triple.act _ (fun _ h => h) fun s h => ⟨h, rfl⟩) ?_
  refine Triple.dyn _ fun s hs => ?_
  have hnot : startsRootSsh o.rootSshRequested s = false := by
    simp only [startsRootSsh, hs.1, reduceCtorEq, decide_false, Option.some.injEq, he, Bool.or_self,
      Bool.and_false]
  rw [hnot, if_neg Bool.false_ne_true]
  refine Triple.ifThen _ _ (fun t ht => ?_) fun t ht _ => ht ▸ hs
  rcases ht with ⟨rfl, hlink⟩
  rw [hs.1] at hlink
  exact absurd (Option.some.inj (of_decide_eq_true hlink)) he

/-- There is no `authorized_keys` but the link. -/
def OwnRootSsh (s : AccessFiles) : Prop := ∀ e ∈ s.rootSshLink, e = rootSshTarget

theorem OwnRootSsh.cases {s : AccessFiles} (h : OwnRootSsh s) :
    s.rootSshLink = none ∨ s.rootSshLink = some rootSshTarget := by
  rcases hlink : s.rootSshLink with _ | e
  · exact Or.inl rfl
  · exact Or.inr (congrArg some (h e hlink))

theorem triple_rootSshKey (o : AccessOptions) :
    Triple OwnRootSsh (rootSshKey o)
      (fun s => OwnRootSsh s ∧ (o.rootSshRequested = true → s.rootSshStore = o.rootKey))
      OwnRootSsh := by
  rw [rootSshKey, AccessOptions.rootSshRequested]
  cases o.rootKey with
  | none =>
      exact Triple.act _ (fun _ h => h) fun s h => ⟨h, fun hreq => absurd hreq (by
        simp only [Option.isSome_none, Bool.false_and, Bool.false_eq_true, not_false_eq_true])⟩
  | some key =>
      cases o.payloadRootSsh with
      | true =>
          exact Triple.writeInto _ _ (fun _ _ h => h) (fun _ h => h) fun s h => ⟨h, fun _ => rfl⟩
      | false =>
          exact Triple.skip fun s h => ⟨h, fun hreq => absurd hreq (by
            simp only [Bool.and_false, Bool.false_eq_true, not_false_eq_true])⟩

/-- Without one of somebody else the service is that of the option. -/
theorem triple_rootSsh_own (o : AccessOptions) :
    Triple OwnRootSsh (rootSsh o) (fun s => OwnRootSsh s ∧ RootSshOf o s) OwnRootSsh := by
  refine Triple.seq _ _ (triple_rootSshKey o) ?_
  refine Triple.seq (Q := fun s => (OwnRootSsh s ∧
    (o.rootSshRequested = true → s.rootSshStore = o.rootKey)) ∧ s.rootSshInit = none) _ _
    (Triple.act _ (fun _ h => h.1) fun s h => ⟨h, rfl⟩) (Triple.dyn _ fun s hs => ?_)
  rcases hs with ⟨⟨hown, hstore⟩, hinit⟩
  cases hrequested : o.rootSshRequested with
  | true =>
      have hstarts : startsRootSsh true s = true := by
        rcases hown.cases with hlink | hlink
        · rw [startsRootSsh, hlink]
          rfl
        · rw [startsRootSsh, hlink, decide_eq_true rfl, Bool.or_true]
          rfl
      rw [hstarts, if_pos rfl]
      -- The link is made or is there, and the script is written behind it.
      refine Triple.seq (Q := fun t => t.rootSshLink = some rootSshTarget ∧
        t.rootSshStore = o.rootKey) _ _ ?_ ?_
      · refine Triple.ifThen _ _ (Triple.act _ (fun t ht => ht.1 ▸ hown) ?_) ?_
        · rintro t ⟨rfl, -⟩
          exact ⟨rfl, hstore hrequested⟩
        · rintro t rfl hlink
          exact ⟨hown.cases.resolve_left (of_decide_eq_false hlink), hstore hrequested⟩
      · have hkept : ∀ t : AccessFiles, t.rootSshLink = some rootSshTarget → OwnRootSsh t :=
          fun t hlink e he => (Option.some.inj (hlink.symm.trans he)).symm
        refine Triple.writeInto setRootSshInit rootSshInitText (fun _ _ ht => ⟨ht.1, ht.2⟩)
          (fun t ht => hkept t ht.1) fun t ht => ⟨hkept (setRootSshInit _ t) ht.1, ?_⟩
        rw [RootSshOf, hrequested, if_pos rfl]
        exact ⟨ht.1, rfl, ht.2⟩
  | false =>
      have hstarts : startsRootSsh false s = false := rfl
      rw [hstarts, if_neg Bool.false_ne_true]
      have hnone : ∀ t : AccessFiles, t.rootSshLink = none → t.rootSshInit = none →
          OwnRootSsh t ∧ RootSshOf o t := by
        intro t hlink hinit
        refine ⟨fun e he => absurd (hlink.symm.trans he) (by
          simp only [reduceCtorEq, not_false_eq_true]), ?_⟩
        rw [RootSshOf, hrequested, if_neg Bool.false_ne_true]
        exact ⟨hlink, hinit⟩
      refine Triple.ifThen _ _ (Triple.act _ (fun t ht => ht.1 ▸ hown) ?_) ?_
      · rintro t ⟨rfl, -⟩
        exact hnone _ rfl hinit
      · rintro t rfl hlink
        exact hnone t (hown.cases.resolve_right (of_decide_eq_false hlink)) hinit

/-- Whoever has made an `authorized_keys` of his own keeps it after any boots,
    and there is no service with it. Otherwise a boot that was not stopped
    starts a service exactly if its options ask for one, with their key. -/
theorem root_ssh (s : AccessFiles) (boots : List (AccessOptions × Nat)) (o : AccessOptions) (k : Nat)
    (hfinished : ((accessBoot o).run k (accessAfter s boots)).2 ≠ none) :
    let after := accessAfter s (boots ++ [(o, k)])
    (∀ e, s.rootSshLink = some e → e ≠ rootSshTarget →
      (accessAfter s boots).rootSshLink = some e ∧ after.rootSshLink = some e ∧
        after.rootSshInit = none) ∧
      (OwnRootSsh s → RootSshOf o after) := by
  intro after
  have hafter : after = ((accessBoot o).run k (accessAfter s boots)).1 :=
    afterRuns_concat accessBoot s boots (o, k)
  -- The parts before and behind do not touch the files of the service.
  have hcli := fun o => (preserves_cli_sshFiles o).triple
  have hsesame := fun o => (preserves_sesame2_sshFiles o).triple
  rw [hafter]
  constructor
  · intro e hlink he
    have hboot : ∀ o, Triple (fun s => s.rootSshLink = some e) (accessBoot o)
        (fun s => s.rootSshLink = some e ∧ s.rootSshInit = none) (fun s => s.rootSshLink = some e) :=
      fun o => Triple.seq _ _ (hcli o fun x => x.1 = some e)
        (Triple.seq _ _ (triple_rootSsh_foreign o e he)
          (Triple.weaken _ (hsesame o fun x => x.1 = some e ∧ x.2.1 = none) (fun _ h => h)
            (fun _ h => h) fun _ h => h.1))
    have hkept : (accessAfter s boots).rootSshLink = some e :=
      Triple.afterRuns s hlink boots fun boot _ =>
        Triple.weaken _ (hboot boot.1) (fun _ h => h) (fun _ h => h.1) fun _ h => h
    exact ⟨hkept, (hboot o).finished_state _ k hkept hfinished⟩
  · intro hown
    let own (x : Option DiskEntry × Option Bytes × Option Bytes) : Prop :=
      ∀ e ∈ x.1, e = rootSshTarget
    let done (o : AccessOptions) (x : Option DiskEntry × Option Bytes × Option Bytes) : Prop :=
      own x ∧ if o.rootSshRequested = true then
        x.1 = some rootSshTarget ∧ x.2.1 = some rootSshInitText ∧ x.2.2 = o.rootKey
      else x.1 = none ∧ x.2.1 = none
    have hboot : ∀ o, Triple OwnRootSsh (accessBoot o) (fun s => OwnRootSsh s ∧ RootSshOf o s)
        OwnRootSsh :=
      fun o => Triple.seq _ _ (hcli o own)
        (Triple.seq _ _ (triple_rootSsh_own o)
          (Triple.weaken _ (hsesame o (done o)) (fun _ h => h) (fun _ h => h) fun _ h => h.1))
    have hkept : OwnRootSsh (accessAfter s boots) :=
      Triple.afterRuns s hown boots fun boot _ =>
        Triple.weaken _ (hboot boot.1) (fun _ h => h) (fun _ h => h.1) fun _ h => h
    exact ((hboot o).finished_state _ k hkept hfinished).2

/-- A key is given to a controller that has one, and to one that has none; and
    then there is a boot without a key. -/
theorem root_ssh_operator :
    let foreign := accessAfter operatorFiles
      ([(⟨true, none, true⟩, 60)] ++ [(⟨false, some [1], true⟩, 9)])
    let started := accessAfter { operatorFiles with rootSshLink := none }
      ([(⟨true, none, true⟩, 60)] ++ [(⟨false, some [1], true⟩, 400)])
    let stopped := accessAfter { operatorFiles with rootSshLink := none }
      ([(⟨false, some [1], true⟩, 400)] ++ [(⟨false, none, true⟩, 9)])
    (foreign.rootSshLink = some (.file [107]) ∧ foreign.rootSshInit = none) ∧
      (started.rootSshLink = some rootSshTarget ∧ started.rootSshInit = some rootSshInitText ∧
        started.rootSshStore = some [1]) ∧
      stopped.rootSshLink = none ∧ stopped.rootSshInit = none := by
  have hown : OwnRootSsh { operatorFiles with rootSshLink := none } :=
    fun e he => absurd he (by simp only [Option.mem_def, reduceCtorEq, not_false_eq_true])
  have hforeign := (root_ssh operatorFiles [(⟨true, none, true⟩, 60)] ⟨false, some [1], true⟩ 9
    (by decide +kernel)).1 (.file [107]) rfl (by simp only [rootSshTarget, ne_eq, reduceCtorEq,
      not_false_eq_true])
  have hstarted := (root_ssh { operatorFiles with rootSshLink := none } [(⟨true, none, true⟩, 60)]
    ⟨false, some [1], true⟩ 400 (by decide +kernel)).2 hown
  have hstopped := (root_ssh { operatorFiles with rootSshLink := none }
    [(⟨false, some [1], true⟩, 400)] ⟨false, none, true⟩ 9 (by decide +kernel)).2 hown
  exact ⟨hforeign.2, hstarted, hstopped⟩

/-! ### The root shell -/

/-- The files of the shell. -/
def cliFiles (s : AccessFiles) : Option DiskEntry × Option Bytes := (s.rootCliLink, s.rootCliTarget)

theorem preserves_behind_cliFiles (o : AccessOptions) :
    Preserves cliFiles ((rootSsh o).seq (sesame2Helper o.enableRootCli)) :=
  ((preserves_rootSshKey o fun _ _ => rfl).seq
    (preserves_rootSshService _ (fun _ _ => rfl) fun _ _ => rfl)).seq
    (preserves_sesame2Helper _ (fun _ _ => rfl) (fun _ _ => rfl) (fun _ _ => rfl) fun _ _ => rfl)

/-- There is a shell exactly if the option asks for it. -/
def RootCliOf (enableRootCli : Bool) (x : Option DiskEntry × Option Bytes) : Prop :=
  if enableRootCli = true then x.1 = some rootCliPath ∧ x.2 = some rootCliScript
  else x.1 ≠ some rootCliPath

/-- A boot whose first part has a triple. -/
theorem triple_accessBoot_cli (o : AccessOptions) (P Q C : Option DiskEntry × Option Bytes → Prop)
    (h : Triple (fun s => P (cliFiles s)) (rootCliHook o.enableRootCli) (fun s => Q (cliFiles s))
      fun s => C (cliFiles s)) (hQ : ∀ x, Q x → C x) :
    Triple (fun s => P (cliFiles s)) (accessBoot o) (fun s => Q (cliFiles s))
      fun s => C (cliFiles s) :=
  Triple.seq _ _ h (Triple.weaken _ ((preserves_behind_cliFiles o).triple Q) (fun _ h => h)
    (fun _ h => h) fun _ h => hQ _ h)

theorem triple_rootCliHook (enableRootCli : Bool) :
    Triple (fun _ => True) (rootCliHook enableRootCli) (fun s => RootCliOf enableRootCli (cliFiles s))
      (fun _ => True) := by
  cases enableRootCli with
  | true =>
      refine Triple.seq (Q := fun s => s.rootCliTarget = some rootCliScript) _ _
        (Triple.writeInto _ _ (fun _ _ h => h) (fun _ h => h) fun _ _ => rfl) ?_
      exact Triple.seq (Q := fun s => s.rootCliTarget = some rootCliScript) _ _
        (Triple.act _ (fun _ _ => trivial) fun _ h => h)
        (Triple.act _ (fun _ _ => trivial) fun _ h => ⟨rfl, h⟩)
  | false =>
      refine Triple.ifThen _ _ ?_ fun s _ hlink => of_decide_eq_false hlink
      exact Triple.seq (Q := fun s => s.rootCliLink = none) _ _
        (Triple.act _ (fun _ _ => trivial) fun _ _ => rfl)
        (Triple.act _ (fun _ _ => trivial) fun _ h heq => absurd (h.symm.trans heq) (by
          simp only [reduceCtorEq, not_false_eq_true]))

/-- What is not the project's link stays as long as no shell is asked for. -/
theorem triple_rootCliHook_foreign (link : Option DiskEntry) (hlink : link ≠ some rootCliPath) :
    Triple (fun s => s.rootCliLink = link) (rootCliHook false) (fun s => s.rootCliLink = link)
      (fun s => s.rootCliLink = link) := by
  refine Triple.ifThen _ _ ?_ fun s h _ => h
  intro s hs
  exact absurd (hs.1.symm.trans (of_decide_eq_true hs.2)) hlink

/-- Nothing but the project's link is there. -/
def OwnRootCli (x : Option DiskEntry × Option Bytes) : Prop := x.1 = none ∨ x.1 = some rootCliPath

/-- What was there before the project's link does not come back. -/
theorem triple_rootCliHook_own (enableRootCli : Bool) :
    Triple (fun s => OwnRootCli (cliFiles s)) (rootCliHook enableRootCli)
      (fun s => OwnRootCli (cliFiles s)) (fun s => OwnRootCli (cliFiles s)) := by
  cases enableRootCli with
  | true =>
      refine Triple.seq (Q := fun s => OwnRootCli (cliFiles s)) _ _
        (Triple.writeInto _ _ (fun _ _ h => h) (fun _ h => h) fun _ h => h) ?_
      exact Triple.seq (Q := fun s => s.rootCliLink = none) _ _
        (Triple.act _ (fun _ h => h) fun _ _ => rfl)
        (Triple.act _ (fun _ h => Or.inl h) fun _ _ => Or.inr rfl)
  | false =>
      refine Triple.ifThen _ _ ?_ fun s h _ => h
      exact Triple.seq (Q := fun s => s.rootCliLink = none) _ _
        (Triple.act _ (fun _ h => h.1) fun _ _ => rfl)
        (Triple.act _ (fun _ h => Or.inl h) fun _ h => Or.inl h)

/-- A boot that was not stopped leaves the link of the shell exactly if its
    options ask for it. What an operator has put in its place is there until a
    boot asks for the shell, and is gone for good after one that did. -/
theorem root_cli (s : AccessFiles) (boots : List (AccessOptions × Nat)) (o : AccessOptions) (k : Nat)
    (hfinished : ((accessBoot o).run k (accessAfter s boots)).2 ≠ none) :
    let after := accessAfter s (boots ++ [(o, k)])
    RootCliOf o.enableRootCli (cliFiles after) ∧
      ((∀ boot ∈ boots ++ [(o, k)], boot.1.enableRootCli = false) →
        s.rootCliLink ≠ some rootCliPath → after.rootCliLink = s.rootCliLink) ∧
      ∀ front boot rest, boots = front ++ boot :: rest → boot.1.enableRootCli = true →
        ((accessBoot boot.1).run boot.2 (accessAfter s front)).2 ≠ none →
        after.rootCliLink = if o.enableRootCli = true then some rootCliPath else none := by
  intro after
  have hafter : after = ((accessBoot o).run k (accessAfter s boots)).1 :=
    afterRuns_concat accessBoot s boots (o, k)
  have hshell : ∀ o, Triple (fun _ => True) (accessBoot o)
      (fun s => RootCliOf o.enableRootCli (cliFiles s)) (fun _ => True) := fun o =>
    triple_accessBoot_cli o (fun _ => True) _ _ (triple_rootCliHook o.enableRootCli) fun _ _ => trivial
  have hof : RootCliOf o.enableRootCli (cliFiles after) := by
    rw [hafter]
    exact (hshell o).finished_state _ k trivial hfinished
  refine ⟨hof, ?_, ?_⟩
  · intro hoff hforeign
    let kept (x : Option DiskEntry × Option Bytes) : Prop := x.1 = s.rootCliLink
    refine Triple.afterRuns (I := fun t => kept (cliFiles t)) s rfl (boots ++ [(o, k)])
      fun boot hboot => triple_accessBoot_cli boot.1 kept kept kept ?_ fun _ h => h
    rw [hoff boot hboot]
    exact triple_rootCliHook_foreign _ hforeign
  · intro front boot rest hsplit henabled hdone
    have hown : ∀ o, Triple (fun s => OwnRootCli (cliFiles s)) (accessBoot o)
        (fun s => OwnRootCli (cliFiles s)) (fun s => OwnRootCli (cliFiles s)) := fun o =>
      triple_accessBoot_cli o OwnRootCli _ _ (triple_rootCliHook_own o.enableRootCli) fun _ h => h
    -- The boot that gave the shell, and those after it.
    have hgave := (hshell boot.1).finished_state _ boot.2 trivial hdone
    rw [RootCliOf, if_pos henabled] at hgave
    have hend : OwnRootCli (cliFiles after) := by
      have hruns : boots ++ [(o, k)] = (front ++ [boot]) ++ (rest ++ [(o, k)]) := by
        rw [hsplit, List.append_assoc, List.append_assoc, List.cons_append, List.singleton_append]
      have happend : after = accessAfter (accessAfter s (front ++ [boot])) (rest ++ [(o, k)]) := by
        rw [show after = accessAfter s (boots ++ [(o, k)]) from rfl, hruns]
        exact afterRuns_append accessBoot s _ _
      rw [happend]
      refine Triple.afterRuns (I := fun s => OwnRootCli (cliFiles s)) _ (Or.inr ?_) _
        fun r _ => hown r.1
      rw [accessAfter, afterRuns_concat]
      exact hgave.1
    cases henable : o.enableRootCli with
    | true =>
        rw [henable, RootCliOf, if_pos rfl] at hof
        rw [if_pos rfl]
        exact hof.1
    | false =>
        rw [henable, RootCliOf, if_neg Bool.false_ne_true] at hof
        rw [if_neg Bool.false_ne_true]
        exact hend.resolve_right hof

/-- A shell is asked for once. -/
theorem root_cli_once :
    let after := accessAfter operatorFiles ([(⟨true, none, true⟩, 80)] ++ [(⟨false, none, true⟩, 20)])
    RootCliOf false (cliFiles after) ∧
      ((∀ boot ∈ ([(⟨true, none, true⟩, 80)] ++ [(⟨false, none, true⟩, 20)] :
          List (AccessOptions × Nat)), boot.1.enableRootCli = false) →
        operatorFiles.rootCliLink ≠ some rootCliPath →
        after.rootCliLink = operatorFiles.rootCliLink) ∧
      ∀ front boot rest, [(⟨true, none, true⟩, 80)] = front ++ boot :: rest →
        boot.1.enableRootCli = true →
        ((accessBoot boot.1).run boot.2 (accessAfter operatorFiles front)).2 ≠ none →
        after.rootCliLink = if false = true then some rootCliPath else none :=
  root_cli operatorFiles [(⟨true, none, true⟩, 80)] ⟨false, none, true⟩ 20 (by decide +kernel)

/-! ### The helper of the appliance -/

/-- The files of the helper. -/
def sesame2Files (s : AccessFiles) : Option DiskEntry × Option Bytes × Option Bytes :=
  (s.sesame2, s.sesame2Vendor, s.sesame2Disabled)

theorem preserves_before_sesame2Files (o : AccessOptions) :
    Preserves sesame2Files ((rootCliHook o.enableRootCli).seq (rootSsh o)) :=
  (preserves_rootCliHook _ (fun _ _ => rfl) fun _ _ => rfl).seq
    ((preserves_rootSshKey o fun _ _ => rfl).seq
      (preserves_rootSshService _ (fun _ _ => rfl) fun _ _ => rfl))

/-- The vendor's helper is in its place, or it has been moved away and there is
    at most the link in its place. -/
def HasSesame2 (body : Bytes) (x : Option DiskEntry × Option Bytes × Option Bytes) : Prop :=
  x.1 = some (.file body) ∧ x.2.1 = none ∨
    x.2.1 = some body ∧ (x.1 = none ∨ x.1 = some sesame2Link)

/-- Where the helper is after a boot, given what was in its place before. -/
def Sesame2Of (body : Bytes) (enableRootCli : Bool) (before : Option DiskEntry)
    (x : Option DiskEntry × Option Bytes × Option Bytes) : Prop :=
  if enableRootCli = true then
    x.1 = some sesame2Link ∧ x.2.1 = some body ∧ x.2.2 = some noOpScript
  else if before = none then x.1 = none ∧ x.2.1 = some body
  else x.1 = some (.file body) ∧ x.2.1 = none

theorem HasSesame2.of_sesame2Of {body : Bytes} {enableRootCli : Bool} {before : Option DiskEntry}
    {x : Option DiskEntry × Option Bytes × Option Bytes}
    (h : Sesame2Of body enableRootCli before x) : HasSesame2 body x := by
  rw [Sesame2Of] at h
  split at h
  · exact Or.inr ⟨h.2.1, Or.inr h.1⟩
  · split at h
    · exact Or.inr ⟨h.2, Or.inl h.1⟩
    · exact Or.inl h

theorem triple_sesame2Helper_enabled (body : Bytes) (before : Option DiskEntry) :
    Triple (fun s => HasSesame2 body (sesame2Files s)) (sesame2Helper true)
      (fun s => Sesame2Of body true before (sesame2Files s))
      (fun s => HasSesame2 body (sesame2Files s)) := by
  -- The helper is moved away, and from then on it is where the copy is.
  refine Triple.seq (Q := fun s => s.sesame2Vendor = some body ∧
    (s.sesame2 = none ∨ s.sesame2 = some sesame2Link)) _ _ ?_ ?_
  · refine Triple.dyn _ fun s hs => ?_
    rcases hs with ⟨hhelper, hvendor⟩ | ⟨hvendor, hlink⟩
    · simp only [sesame2Files] at hhelper hvendor
      rw [hhelper, hvendor]
      refine Triple.act _ (fun t ht => ht ▸ Or.inl ⟨hhelper, hvendor⟩) fun t ht => ?_
      exact ⟨rfl, Or.inl rfl⟩
    · simp only [sesame2Files] at hvendor
      rw [hvendor]
      split
      · next hnone => exact absurd hnone (by simp only [reduceCtorEq, not_false_eq_true])
      · exact Triple.skip fun t ht => ht ▸ ⟨hvendor, hlink⟩
  refine Triple.seq (Q := fun s => (s.sesame2Vendor = some body ∧
    (s.sesame2 = none ∨ s.sesame2 = some sesame2Link)) ∧ s.sesame2Disabled = some noOpScript) _ _
    (Triple.writeInto _ _ (fun _ _ h => h) (fun _ h => Or.inr h) fun _ h => ⟨h, rfl⟩) ?_
  refine Triple.seq (Q := fun s => (s.sesame2Vendor = some body ∧ s.sesame2 = none) ∧
    s.sesame2Disabled = some noOpScript) _ _
    (Triple.act _ (fun _ h => Or.inr h.1) fun _ h => ⟨⟨h.1.1, rfl⟩, h.2⟩) ?_
  refine Triple.act _ (fun _ h => Or.inr ⟨h.1.1, Or.inl h.1.2⟩) fun s h => ?_
  rw [Sesame2Of, if_pos rfl]
  exact ⟨rfl, h.1.1, h.2⟩

theorem triple_sesame2Helper_disabled (body : Bytes) (before : Option DiskEntry) :
    Triple (fun s => HasSesame2 body (sesame2Files s) ∧ s.sesame2 = before) (sesame2Helper false)
      (fun s => Sesame2Of body false before (sesame2Files s))
      (fun s => HasSesame2 body (sesame2Files s)) := by
  refine Triple.dyn _ fun s hs => ?_
  rcases hs with ⟨⟨hhelper, hvendor⟩ | ⟨hvendor, hlink⟩, hbefore⟩
  · simp only [sesame2Files] at hhelper hvendor
    rw [hvendor]
    refine Triple.skip fun t ht => ?_
    rw [ht, Sesame2Of, if_neg Bool.false_ne_true, ← hbefore, hhelper, if_neg (Option.some_ne_none _)]
    exact ⟨hhelper, hvendor⟩
  · simp only [sesame2Files] at hvendor hlink
    rw [hvendor]
    refine Triple.ifThen _ _ ?_ ?_
    · have hhas : ∀ t : AccessFiles, t.sesame2Vendor = some body → t.sesame2 = none →
          HasSesame2 body (sesame2Files t) := fun t hv hn => Or.inr ⟨hv, Or.inl hn⟩
      refine Triple.seq (Q := fun t => (t.sesame2Vendor = some body ∧ t.sesame2 = none) ∧
        before = some sesame2Link) _ _ (Triple.act _ (fun t ht => ?_) fun t ht => ?_) ?_
      · rw [ht.1]
        exact Or.inr ⟨hvendor, hlink⟩
      · rcases ht with ⟨rfl, hc⟩
        exact ⟨⟨hvendor, rfl⟩, hbefore ▸ of_decide_eq_true hc⟩
      refine Triple.seq (Q := fun t => (t.sesame2Vendor = some body ∧ t.sesame2 = none) ∧
        before = some sesame2Link) _ _
        (Triple.act _ (fun t ht => hhas t ht.1.1 ht.1.2) fun t ht => ⟨ht.1, ht.2⟩) ?_
      refine Triple.act _ (fun t ht => hhas t ht.1.1 ht.1.2) fun t ht => ?_
      rw [Sesame2Of, if_neg Bool.false_ne_true, ht.2, if_neg (Option.some_ne_none _)]
      exact ⟨rfl, rfl⟩
    · -- Without the link nothing is put back.
      intro t ht hnot
      rw [ht] at hnot ⊢
      have hnone := hlink.resolve_right (of_decide_eq_false hnot)
      rw [Sesame2Of, if_neg Bool.false_ne_true, if_pos (hbefore ▸ hnone)]
      exact ⟨hnone, hvendor⟩

theorem triple_sesame2Helper (body : Bytes) (enableRootCli : Bool) (before : Option DiskEntry) :
    Triple (fun s => HasSesame2 body (sesame2Files s) ∧ s.sesame2 = before)
      (sesame2Helper enableRootCli) (fun s => Sesame2Of body enableRootCli before (sesame2Files s))
      (fun s => HasSesame2 body (sesame2Files s)) := by
  cases enableRootCli with
  | true => exact Triple.pre _ (triple_sesame2Helper_enabled body before) fun _ h => h.1
  | false => exact triple_sesame2Helper_disabled body before

/-- The vendor's helper is never lost. A boot that was not stopped leaves the
    link if its options ask for it, and else puts the helper back, unless there
    was nothing in its place. -/
theorem sesame2_restored (s : AccessFiles) (body : Bytes) (hhelper : s.sesame2 = some (.file body))
    (hvendor : s.sesame2Vendor = none) (boots : List (AccessOptions × Nat)) (o : AccessOptions)
    (k : Nat) (hfinished : ((accessBoot o).run k (accessAfter s boots)).2 ≠ none) :
    HasSesame2 body (sesame2Files (accessAfter s boots)) ∧
      Sesame2Of body o.enableRootCli (accessAfter s boots).sesame2
        (sesame2Files (accessAfter s (boots ++ [(o, k)]))) := by
  have hboot : ∀ o before, Triple
      (fun s => HasSesame2 body (sesame2Files s) ∧ s.sesame2 = before) (accessBoot o)
      (fun s => Sesame2Of body o.enableRootCli before (sesame2Files s))
      (fun s => HasSesame2 body (sesame2Files s)) := by
    intro o before s hs k
    rw [accessBoot, ← run_seq_assoc]
    exact Triple.seq _ _
      (Triple.weaken _ ((preserves_before_sesame2Files o).triple
        fun x => HasSesame2 body x ∧ x.1 = before) (fun _ h => h) (fun _ h => h) fun _ h => h.1)
      (triple_sesame2Helper body o.enableRootCli before) s hs k
  have hhas : HasSesame2 body (sesame2Files (accessAfter s boots)) := by
    refine Triple.afterRuns (I := fun s => HasSesame2 body (sesame2Files s)) s
      (Or.inl ⟨hhelper, hvendor⟩) boots fun boot _ => ?_
    intro t ht k
    exact Triple.weaken _ (hboot boot.1 t.sesame2) (fun _ h => h)
      (fun _ h => HasSesame2.of_sesame2Of h) (fun _ h => h) t ⟨ht, rfl⟩ k
  have hafter : accessAfter s (boots ++ [(o, k)]) = ((accessBoot o).run k (accessAfter s boots)).1 :=
    afterRuns_concat accessBoot s boots (o, k)
  rw [hafter]
  exact ⟨hhas, (hboot o _).finished_state _ k ⟨hhas, rfl⟩ hfinished⟩

/-- A boot that is stopped between the removal of the helper and the link, and
    one without the option. -/
theorem sesame2_restored_missing :
    HasSesame2 [127] (sesame2Files (accessAfter operatorFiles [(⟨true, none, true⟩, 72)])) ∧
      Sesame2Of [127] false (accessAfter operatorFiles [(⟨true, none, true⟩, 72)]).sesame2
        (sesame2Files (accessAfter operatorFiles
          ([(⟨true, none, true⟩, 72)] ++ [(⟨false, none, true⟩, 20)]))) :=
  sesame2_restored operatorFiles [127] rfl rfl [(⟨true, none, true⟩, 72)] ⟨false, none, true⟩ 20
    (by decide +kernel)

end Zd1200
