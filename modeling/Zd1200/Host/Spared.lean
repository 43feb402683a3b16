import Zd1200.Host.Bridge

/-!
# The Host Stays on Its Network

What the bridge helper does to the interfaces that carry the default route of
the host.

Starting and attaching, the script refuses an adapter or a bridge with the
default route. It does not look at the TAP device, which is flushed and joined
to the bridge if it is one, and it sees only what `ip route show default`
shows. Stopping, it looks at nothing: whatever the three names mean by then is
brought down. A restart stops first, which drops the routes that its start
would have refused.

## Main definitions

* `Carries`: An interface carries the default route.
* `Spares`: A command leaves such an interface alone.
* `Cautious`: What has to be true for that.

## Theorems

* `startBridge_allowed`, `stopBridge_allowed`: The two parts of the script.
* `spares_of_cautious`: Every command, wherever it is killed.
* `stop_spares_iff`: Stopping is as dangerous as it looks.
* `spares_of_meets`: Sequences of commands.
-/

namespace Zd1200

/-- An interface of the host carries its default route. -/
def Carries (h : HostNet) (dev : String) : Prop :=
  (h.links dev).isSome ∧ ∃ route ∈ h.defaults, route.dev = dev

instance (h : HostNet) (dev : String) : Decidable (Carries h dev) :=
  inferInstanceAs (Decidable (_ ∧ _))

/-- Brought down, flushed, enslaved, detached or deleted. -/
def IpOp.cutsOff : IpOp → Bool
  | flush => true
  | down => true
  | enslave _ => true
  | detach => true
  | delTap => true
  | delBridge => true
  | _ => false

/-- What may be done by a command that begins with `h`: nothing that cuts off
    an interface with the default route, be it a port of a bridge that is deleted,
    and in a bridge of the operator nothing but to the TAP device. -/
structure Allowed (cfg : BridgeConfig) (h : HostNet) (entry : IpOp × String) : Prop where
  spared : entry.1.cutsOff = true → ¬ Carries h entry.2
  ports : entry.1 = .delBridge → ∀ dev link, h.links dev = some link →
    link.master = some entry.2 → ¬ Carries h dev
  onlyTap : cfg.profile = .existingBridge →
    entry.2 = cfg.tapIf ∧ ∀ link, h.links cfg.tapIf = some link → link.kind = .tap

section Script

variable (finds : GrepPatterns) (cfg : BridgeConfig)

/-- The host after a command that is killed after some steps, if it has
    more. -/
def HostNet.after (h : HostNet) (command : BridgeCommand × Nat) : HostNet :=
  ((bridgeCommand finds cfg command.1).run command.2 { h with done := [] }).1

/-- A command does only what is allowed. -/
def Spares (h : HostNet) (command : BridgeCommand × Nat) : Prop :=
  ∀ entry ∈ (h.after finds cfg command).done, Allowed cfg h entry

/-- The bridge is missing or a bridge. -/
def bridgeReady (h : HostNet) : Bool :=
  match h.links cfg.bridgeIf with
  | none => true
  | some link => link.kind = .bridge

/-- The TAP device is missing or a TAP device that is free. -/
def tapReady (h : HostNet) : Bool :=
  cfg.tapIf ≠ cfg.bridgeIf && finds.tap cfg.tapIf &&
    match h.links cfg.tapIf with
    | none => true
    | some link =>
        link.kind = .tap && (link.master = none || link.master = some cfg.bridgeIf)

/-- What a start that gets past its checks may not find. -/
structure CautiousStart (h : HostNet) : Prop where
  dedicated : cfg.profile = .dedicated → cfg.usbIf ≠ "" → adapterAccepted finds cfg h = true →
    bridgeReady cfg h = true → ¬ Carries h cfg.bridgeIf ∧
      (tapReady finds cfg h = true → ¬ Carries h cfg.tapIf ∧ ¬ Carries h cfg.usbIf)
  existing : cfg.profile = .existingBridge → isBridge cfg.bridgeIf h = true →
    isUp cfg.bridgeIf h = true → tapReady finds cfg h = true → ¬ Carries h cfg.tapIf

/-- What a stop may not find. -/
structure CautiousStop (h : HostNet) : Prop where
  usb : cfg.profile = .dedicated → cfg.usbIf ≠ "" → ¬ Carries h cfg.usbIf
  bridge : cfg.profile = .dedicated → ¬ Carries h cfg.bridgeIf
  /-- The bridge takes its ports with it. -/
  ports : cfg.profile = .dedicated → isBridge cfg.bridgeIf h = true → ∀ dev link,
    h.links dev = some link → link.master = some cfg.bridgeIf → ¬ Carries h dev
  tap : ¬ Carries h cfg.tapIf
  tapKind : cfg.profile = .existingBridge → ∀ link, h.links cfg.tapIf = some link →
    link.kind = .tap

/-- No interface that the command touches carries the default route, and the
    TAP device of a stop is one. -/
def Cautious (h : HostNet) : BridgeCommand → Prop
  | .start => CautiousStart finds cfg h
  | .check => True
  | .attach interface => cfg.profile = .dedicated → (interface = "" ∨ interface = cfg.usbIf) →
      adapterAccepted finds cfg h = true → ¬ Carries h cfg.usbIf
  | .stop => CautiousStop cfg h
  | .restart => CautiousStop cfg h

end Script

/-! ### What is done to one device -/

section Allowed

variable {finds : GrepPatterns} {cfg : BridgeConfig} {h : HostNet}

/-- Only what is allowed has been done. -/
def OnlyAllowed (cfg : BridgeConfig) (h s : HostNet) : Prop := ∀ entry ∈ s.done, Allowed cfg h entry

-- A command begins with nothing done.
theorem onlyAllowed_start (s : HostNet) (hs : s = { h with done := [] }) : OnlyAllowed cfg h s := by
  intro entry hentry
  rw [hs] at hentry
  exact absurd hentry List.not_mem_nil

/-- A device to which anything may be done, if it is no bridge that is deleted. -/
def Free (cfg : BridgeConfig) (h : HostNet) (dev : String) : Prop :=
  ∀ op, op ≠ .delBridge → Allowed cfg h (op, dev)

-- Every device without the default route is free in a dedicated profile.
theorem free_of_not_carries (hprofile : cfg.profile ≠ .existingBridge) (dev : String)
    (hdev : ¬ Carries h dev) : Free cfg h dev := fun _ hop =>
  ⟨fun _ => hdev, fun hdel => absurd hdel hop, fun hexisting => absurd hexisting hprofile⟩

theorem allowed_of_harmless (hprofile : cfg.profile ≠ .existingBridge) (dev : String) (op : IpOp)
    (hop : op.cutsOff = false) : Allowed cfg h (op, dev) := by
  refine ⟨fun hcuts => ?_, fun hdel => ?_, fun hexisting => absurd hexisting hprofile⟩
  · rw [hop] at hcuts
    exact absurd hcuts Bool.false_ne_true
  · rw [show op = .delBridge from hdel] at hop
    exact absurd hop (by decide)

theorem onlyAllowed_ip (op : IpOp) (dev : String) (hallowed : Allowed cfg h (op, dev))
    (s s' : HostNet) (hs : OnlyAllowed cfg h s) (hip : s.ip op dev = some s') :
    OnlyAllowed cfg h s' := by
  rcases Option.map_eq_some_iff.mp hip with ⟨t, -, rfl⟩
  intro entry hentry
  rcases List.mem_append.mp hentry with hold | hnew
  · exact hs entry hold
  · rw [List.mem_singleton.mp hnew]
    exact hallowed

theorem ip_allowed (op : IpOp) (dev : String) (hallowed : Allowed cfg h (op, dev)) :
    Triple (OnlyAllowed cfg h) (.cmd (HostNet.ip op dev)) (OnlyAllowed cfg h)
      (OnlyAllowed cfg h) :=
  Triple.cmd _ (fun _ hs => hs) (onlyAllowed_ip op dev hallowed)

theorem attempt_allowed (op : IpOp) (dev : String) (hallowed : Allowed cfg h (op, dev)) :
    Triple (OnlyAllowed cfg h) (.attempt (HostNet.ip op dev)) (OnlyAllowed cfg h)
      (OnlyAllowed cfg h) :=
  Triple.attempt _ (fun _ hs => hs) (fun _ hs => hs) (onlyAllowed_ip op dev hallowed)

theorem check_allowed (c : HostNet → Bool) :
    Triple (OnlyAllowed cfg h) (.check c) (OnlyAllowed cfg h) (OnlyAllowed cfg h) :=
  Triple.check _ (fun _ hs => hs) fun _ hs _ => hs

theorem skip_allowed :
    Triple (OnlyAllowed cfg h) .skip (OnlyAllowed cfg h) (OnlyAllowed cfg h) :=
  Triple.skip fun _ hs => hs

theorem disableIp_allowed (dev : String) (hfree : Free cfg h dev) :
    Triple (OnlyAllowed cfg h) (disableIp dev) (OnlyAllowed cfg h) (OnlyAllowed cfg h) :=
  Triple.seq _ _ (attempt_allowed _ dev (hfree _ (by decide)))
    (attempt_allowed _ dev (hfree _ (by decide)))

theorem enslave_ne (bridge : String) : IpOp.enslave bridge ≠ .delBridge := by
  simp only [ne_eq, reduceCtorEq, not_false_eq_true]

/-! ### The parts of the script -/

theorem joinTap_allowed (htap : Free cfg h cfg.tapIf)
    (hbridge : cfg.profile = .dedicated → Allowed cfg h (.up, cfg.bridgeIf)) :
    Triple (OnlyAllowed cfg h) (joinTap cfg) (OnlyAllowed cfg h) (OnlyAllowed cfg h) := by
  refine Triple.inOrder _ fun p hp => ?_
  rcases List.mem_cons.mp hp with rfl | hp
  · exact disableIp_allowed _ htap
  · rcases List.mem_cons.mp hp with rfl | hp
    · exact ip_allowed _ _ (htap _ (enslave_ne cfg.bridgeIf))
    · rcases List.mem_cons.mp hp with rfl | hp
      · split
        · next hprofile => exact ip_allowed _ _ (hbridge hprofile)
        · exact skip_allowed
      · rw [List.mem_singleton.mp hp]
        exact ip_allowed _ _ (htap _ (by decide))

theorem attachUsb_allowed (interface : String)
    (husb : interface = cfg.usbIf → Free cfg h cfg.usbIf) :
    Triple (OnlyAllowed cfg h) (attachUsb finds cfg interface) (OnlyAllowed cfg h)
      (OnlyAllowed cfg h) := by
  unfold attachUsb
  split
  · exact skip_allowed
  · next hne =>
    have heq : interface = cfg.usbIf := not_not.mp hne
    subst heq
    have hfree := husb rfl
    refine Triple.seq _ _ (check_allowed _) (Triple.inOrder _ fun p hp => ?_)
    simp only [List.mem_cons, List.not_mem_nil, or_false] at hp
    rcases hp with rfl | rfl | rfl | rfl | rfl
    · exact disableIp_allowed _ hfree
    · exact ip_allowed _ _ (hfree _ (by decide))
    · exact ip_allowed _ _ (hfree _ (enslave_ne cfg.bridgeIf))
    all_goals exact ip_allowed _ _ (hfree _ (by decide))

-- What adds no device keeps what every device is, apart from one that it deletes.
theorem kind_of_effect (op : IpOp) (dev name : String) (s t : HostNet)
    (ht : s.effect op dev = some t) (hadd : op ≠ .addBridge ∧ op ≠ .addTap) :
    (t.links name).map NetLink.kind = (s.links name).map NetLink.kind ∨
      (t.links name = none ∧ (op = .delBridge ∨ (s.links name).map NetLink.kind = some .tap)) := by
  have hupdate : ∀ link own : NetLink, s.links dev = some own → link.kind = own.kind →
      (Function.update s.links dev (some link) name).map NetLink.kind =
        (s.links name).map NetLink.kind := by
    intro link own hown hkind
    by_cases heq : name = dev
    · rw [heq, Function.update_self, hown, Option.map_some, Option.map_some, hkind]
    · rw [Function.update_of_ne heq]
  have hdelete : name ≠ dev →
      ((s.delete dev).links name).map NetLink.kind = (s.links name).map NetLink.kind := by
    intro hne
    simp only [HostNet.delete, if_neg hne, Option.map_map]
    congr 1
    funext link
    simp only [Function.comp_apply]
    split
    · rfl
    · rfl
  have hgone : (s.delete dev).links dev = none := if_pos rfl
  unfold HostNet.effect at ht
  split at ht
  all_goals first
    | exact absurd ht (by simp only [reduceCtorEq, not_false_eq_true])
    | exact absurd rfl hadd.1
    | exact absurd rfl hadd.2
    | (rw [← Option.some.inj ht]; exact .inl rfl)
    | skip
  · split at ht
    · rw [← Option.some.inj ht]
      exact .inl rfl
    · exact absurd ht (by simp only [reduceCtorEq, not_false_eq_true])
  · next own hown =>
    rw [← Option.some.inj ht]
    exact .inl (hupdate _ own hown rfl)
  · next own hown =>
    rw [← Option.some.inj ht]
    exact .inl (hupdate _ own hown rfl)
  · next own hown =>
    split at ht
    · split at ht
      · rw [← Option.some.inj ht]
        exact .inl (hupdate _ own hown rfl)
      · exact absurd ht (by simp only [reduceCtorEq, not_false_eq_true])
    · exact absurd ht (by simp only [reduceCtorEq, not_false_eq_true])
  · next own hown =>
    rw [← Option.some.inj ht]
    exact .inl (hupdate _ own hown rfl)
  · next own hown =>
    split at ht
    · next hkind =>
      rw [← Option.some.inj ht]
      by_cases heq : name = dev
      · rw [heq, hown, Option.map_some, hkind]
        exact .inr ⟨hgone, .inr rfl⟩
      · exact .inl (hdelete heq)
    · exact absurd ht (by simp only [reduceCtorEq, not_false_eq_true])
  · split at ht
    · rw [← Option.some.inj ht]
      by_cases heq : name = dev
      · rw [heq]
        exact .inr ⟨hgone, .inl rfl⟩
      · exact .inl (hdelete heq)
    · exact absurd ht (by simp only [reduceCtorEq, not_false_eq_true])

theorem isBridge_eq_true_iff (name : String) (s : HostNet) :
    isBridge name s = true ↔ (s.links name).map NetLink.kind = some .bridge := by
  unfold isBridge
  cases s.links name with
  | none => simp only [Bool.false_eq_true, Option.map_none, reduceCtorEq]
  | some link => simp only [decide_eq_true_eq, Option.map_some, Option.some.injEq]

-- Bridges are neither made, nor lost but by deleting them as bridges.
theorem isBridge_of_effect (op : IpOp) (dev name : String) (s t : HostNet)
    (ht : s.effect op dev = some t) (hadd : op ≠ .addBridge ∧ op ≠ .addTap) :
    (isBridge name t = true → isBridge name s = true) ∧
      (op ≠ .delBridge → isBridge name s = true → isBridge name t = true) := by
  rw [isBridge_eq_true_iff, isBridge_eq_true_iff]
  rcases kind_of_effect op dev name s t ht hadd with hkeeps | ⟨hgone, hdel⟩
  · rw [hkeeps]
    exact ⟨fun hbridge => hbridge, fun _ hbridge => hbridge⟩
  · refine ⟨fun hbridge => ?_, fun hop hbridge => ?_⟩
    · rw [hgone] at hbridge
      exact absurd hbridge (by simp only [Option.map_none, reduceCtorEq, not_false_eq_true])
    · rw [hbridge] at hdel
      exact absurd hdel (by simp only [hop, Option.some.injEq, reduceCtorEq, or_self,
        not_false_eq_true])

/-- What a stop does keeps to what is allowed, and makes no bridge. -/
def StopAllowed (cfg : BridgeConfig) (h s : HostNet) : Prop :=
  OnlyAllowed cfg h s ∧ (isBridge cfg.bridgeIf s = true → isBridge cfg.bridgeIf h = true)

theorem attempt_stopAllowed (op : IpOp) (dev : String) (hadd : op ≠ .addBridge ∧ op ≠ .addTap)
    (hallowed : Allowed cfg h (op, dev)) :
    Triple (StopAllowed cfg h) (.attempt (HostNet.ip op dev)) (StopAllowed cfg h)
      (StopAllowed cfg h) := by
  refine Triple.attempt _ (fun _ hs => hs) (fun _ hs => hs) fun s s' hs hip => ?_
  refine ⟨onlyAllowed_ip op dev hallowed s s' hs.1 hip, fun hbridge => hs.2 ?_⟩
  rcases Option.map_eq_some_iff.mp hip with ⟨t, ht, rfl⟩
  exact (isBridge_of_effect op dev cfg.bridgeIf s t ht hadd).1 hbridge

-- Only a bridge is deleted as one.
theorem delBridge_stopAllowed
    (hdel : isBridge cfg.bridgeIf h = true → Allowed cfg h (.delBridge, cfg.bridgeIf)) :
    Triple (StopAllowed cfg h) (.attempt (HostNet.ip .delBridge cfg.bridgeIf))
      (StopAllowed cfg h) (StopAllowed cfg h) := by
  refine Triple.attempt _ (fun _ hs => hs) (fun _ hs => hs) fun s s' hs hip => ?_
  rcases Option.map_eq_some_iff.mp hip with ⟨t, ht, heq⟩
  have hbridge : isBridge cfg.bridgeIf s = true := by
    unfold HostNet.effect at ht
    unfold isBridge
    cases hlink : s.links cfg.bridgeIf with
    | none =>
        rw [hlink] at ht
        exact absurd ht (by simp only [reduceCtorEq, not_false_eq_true])
    | some link =>
        rw [hlink] at ht
        simp only at ht
        split at ht
        · next hkind => exact decide_eq_true hkind
        · exact absurd ht (by simp only [reduceCtorEq, not_false_eq_true])
  refine ⟨onlyAllowed_ip _ _ (hdel (hs.2 hbridge)) s s' hs.1 hip, fun hbridge' => hs.2 ?_⟩
  rw [← heq] at hbridge'
  exact (isBridge_of_effect _ _ cfg.bridgeIf s t ht ⟨by decide, by decide⟩).1 hbridge'

/-- What stops does, if none of its devices carries the default route. -/
theorem stopBridge_allowed
    (husb : cfg.profile = .dedicated → cfg.usbIf ≠ "" → Free cfg h cfg.usbIf)
    (hbridge : cfg.profile = .dedicated → Free cfg h cfg.bridgeIf)
    (hdel : cfg.profile = .dedicated → isBridge cfg.bridgeIf h = true →
      Allowed cfg h (.delBridge, cfg.bridgeIf))
    (htap : Free cfg h cfg.tapIf) :
    Triple (StopAllowed cfg h) (stopBridge cfg) (StopAllowed cfg h) (StopAllowed cfg h) := by
  refine Triple.seq (Q := StopAllowed cfg h) _ _ ?_ (Triple.seq (Q := StopAllowed cfg h) _ _ ?_ ?_)
  · refine Triple.ifThen _ _ ?_ fun _ hs _ => hs
    refine Triple.assume (c := cfg.profile = .dedicated ∧ cfg.usbIf ≠ "") _ ?_ fun hc => ?_
    · intro s hs
      simp only [Bool.and_eq_true, decide_eq_true_eq] at hs
      exact hs.2.1
    · refine Triple.pre (P := StopAllowed cfg h) _ (Triple.inOrder _ fun p hp => ?_) fun _ hs => hs.1
      simp only [List.mem_cons, List.not_mem_nil, or_false] at hp
      rcases hp with rfl | rfl | rfl | rfl
      all_goals exact attempt_stopAllowed _ _ (by decide) (husb hc.1 hc.2 _ (by decide))
  · refine Triple.ifThen _ _ ?_ fun _ hs _ => hs
    refine Triple.pre (P := StopAllowed cfg h) _ (Triple.inOrder _ fun p hp => ?_) fun _ hs => hs.1
    simp only [List.mem_cons, List.not_mem_nil, or_false] at hp
    rcases hp with rfl | rfl | rfl
    all_goals exact attempt_stopAllowed _ _ (by decide) (htap _ (by decide))
  · refine Triple.ifThen _ _ ?_ fun _ hs _ => hs
    refine Triple.assume (c := cfg.profile = .dedicated) _ ?_ fun hc => ?_
    · intro s hs
      simp only [Bool.and_eq_true, decide_eq_true_eq] at hs
      exact hs.2.1
    · refine Triple.pre (P := StopAllowed cfg h) _ (Triple.inOrder _ fun p hp => ?_) fun _ hs => hs.1
      simp only [List.mem_cons, List.not_mem_nil, or_false] at hp
      rcases hp with rfl | rfl
      · exact attempt_stopAllowed _ _ (by decide) (hbridge hc _ (by decide))
      · exact delBridge_stopAllowed (hdel hc)

/-! ### Starting -/

-- What neither adds, moves nor deletes a link leaves all links.
theorem links_of_ip (op : IpOp) (dev : String) (s s' : HostNet) (hip : s.ip op dev = some s')
    (hop : op = .bridgeOptions ∨ op = .disableIpv6 ∨ op = .flush) : s'.links = s.links := by
  rcases Option.map_eq_some_iff.mp hip with ⟨t, ht, rfl⟩
  unfold HostNet.effect at ht
  rcases hop with rfl | rfl | rfl
  all_goals
    cases hlink : s.links dev with
    | none =>
        rw [hlink] at ht
        exact absurd ht (by simp only [reduceCtorEq, not_false_eq_true])
    | some link => ?_
  · rw [hlink] at ht
    simp only at ht
    split at ht
    · rw [← Option.some.inj ht]
    · exact absurd ht (by simp only [reduceCtorEq, not_false_eq_true])
  -- Dropped routes leave the links.
  all_goals
    rw [hlink] at ht
    rw [← Option.some.inj ht]
    rfl

-- A link that is added is the only one that changes.
theorem links_of_add (dev : String) (s s' : HostNet) (op : IpOp)
    (hop : op = .addBridge ∨ op = .addTap) (hip : s.ip op dev = some s') (other : String)
    (hne : other ≠ dev) : s'.links other = s.links other := by
  rcases Option.map_eq_some_iff.mp hip with ⟨t, ht, rfl⟩
  unfold HostNet.effect at ht
  rcases hop with rfl | rfl
  all_goals
    cases hlink : s.links dev with
    | none =>
        rw [hlink] at ht
        rw [← Option.some.inj ht]
        exact Function.update_of_ne hne _ _
    | some link =>
        rw [hlink] at ht
        exact absurd ht (by simp only [reduceCtorEq, not_false_eq_true])

/-- The bridge is there, and the other links are as they were. -/
structure BridgeSet (cfg : BridgeConfig) (h s : HostNet) : Prop where
  done : OnlyAllowed cfg h s
  others : ∀ dev, dev ≠ cfg.bridgeIf → s.links dev = h.links dev
  bridge : isBridge cfg.bridgeIf s = true

/-- The bridge of the dedicated profile is set up if it can be one. -/
theorem setUpBridge_ready (hprofile : cfg.profile ≠ .existingBridge)
    (hbridge : bridgeReady cfg h = true → ¬ Carries h cfg.bridgeIf) :
    Triple (fun s => s = { h with done := [] }) (setUpBridge cfg)
      (fun s => BridgeSet cfg h s ∧ bridgeReady cfg h = true) (OnlyAllowed cfg h) := by
  refine Triple.seq (Q := fun s => OnlyAllowed cfg h s ∧
    (∀ dev, dev ≠ cfg.bridgeIf → s.links dev = h.links dev) ∧
    (s.links cfg.bridgeIf = h.links cfg.bridgeIf ∨ h.links cfg.bridgeIf = none)) _ _ ?_
    (Triple.seq (Q := fun s => BridgeSet cfg h s ∧ bridgeReady cfg h = true) _ _ ?_ ?_)
  · refine Triple.ifThen _ _ (Triple.cmd _ (fun s hs => onlyAllowed_start s hs.1) ?_) fun s hs _ => ?_
    · intro s s' hs hip
      refine ⟨onlyAllowed_ip _ _ (allowed_of_harmless hprofile _ _ rfl) s s' (onlyAllowed_start s hs.1) hip,
        fun dev hdev => ?_, .inr ?_⟩
      · rw [links_of_add _ s s' _ (.inl rfl) hip dev hdev, hs.1]
      · have hmissing := hs.2
        rw [hs.1] at hmissing
        simpa only [HostNet.exists?, Bool.not_eq_true', Option.isSome_eq_false_iff,
          Option.isNone_iff_eq_none] using hmissing
    · exact ⟨onlyAllowed_start s hs, fun dev _ => by rw [hs], .inl (by rw [hs])⟩
  · refine Triple.check _ (fun s hs => hs.1) fun s hs hisBridge => ⟨⟨hs.1, hs.2.1, hisBridge⟩, ?_⟩
    rw [bridgeReady]
    rcases hs.2.2 with hsame | hnone
    · rw [isBridge, hsame] at hisBridge
      cases hlink : h.links cfg.bridgeIf with
      | none => rfl
      | some link =>
          rw [hlink] at hisBridge
          exact hisBridge
    · rw [hnone]
  · refine Triple.assume (c := bridgeReady cfg h = true) _ (fun s hs => hs.2) fun hready => ?_
    have hfree : Free cfg h cfg.bridgeIf := free_of_not_carries hprofile _ (hbridge hready)
    -- None of these commands changes a link.
    have hkeeps : ∀ op, op = .bridgeOptions ∨ op = .disableIpv6 ∨ op = .flush → ∀ s s',
        (BridgeSet cfg h s ∧ bridgeReady cfg h = true) → s.ip op cfg.bridgeIf = some s' →
        BridgeSet cfg h s' ∧ bridgeReady cfg h = true := by
      intro op hop s s' hs hip
      have hlinks := links_of_ip op _ s s' hip hop
      have hdel : op ≠ .delBridge := by rcases hop with rfl | rfl | rfl <;> decide
      refine ⟨⟨onlyAllowed_ip _ _ (hfree op hdel) s s' hs.1.done hip, ?_, ?_⟩, hready⟩
      · rw [hlinks]
        exact hs.1.others
      · have := hs.1.bridge
        unfold isBridge at this ⊢
        rwa [hlinks]
    refine Triple.seq _ _ (Triple.cmd _ (fun s hs => hs.1.done) (hkeeps _ (.inl rfl)))
      (Triple.seq _ _ (Triple.seq (Q := fun s => BridgeSet cfg h s ∧ bridgeReady cfg h = true) _ _
        ?_ ?_) (Triple.skip fun _ hs => hs))
    · exact Triple.attempt _ (fun s hs => hs.1.done) (fun _ hs => hs) (hkeeps _ (.inr (.inl rfl)))
    · exact Triple.attempt _ (fun s hs => hs.1.done) (fun _ hs => hs) (hkeeps _ (.inr (.inr rfl)))

-- What `ip tuntap show` lists is a TAP device.
theorem tap_of_showsTap (s : HostNet) (htap : showsTap finds cfg s = true) :
    ∃ link, s.links cfg.tapIf = some link ∧ link.kind = .tap ∧ finds.tap cfg.tapIf = true := by
  rw [showsTap] at htap
  cases hlink : s.links cfg.tapIf with
  | none =>
      rw [hlink] at htap
      exact absurd htap Bool.false_ne_true
  | some link =>
      rw [hlink] at htap
      simp only [Bool.and_eq_true, decide_eq_true_eq] at htap
      exact ⟨link, rfl, htap.1, htap.2⟩

-- The bridge is no TAP device, so the names differ.
theorem tapIf_ne_bridgeIf (s : HostNet) (hbridge : isBridge cfg.bridgeIf s = true)
    (htap : showsTap finds cfg s = true) : cfg.tapIf ≠ cfg.bridgeIf := by
  intro heq
  rcases tap_of_showsTap s htap with ⟨link, hlink, hkind, -⟩
  rw [isBridge, ← heq, hlink] at hbridge
  simp only [decide_eq_true_eq] at hbridge
  rw [hbridge] at hkind
  exact absurd hkind (by decide)

/-- The checks of the TAP device are passed only if it is free. -/
theorem checkTap_ready (hadd : h.links cfg.tapIf = none → Allowed cfg h (.addTap, cfg.tapIf)) :
    Triple (BridgeSet cfg h) (checkTap finds cfg)
      (fun s => OnlyAllowed cfg h s ∧ tapReady finds cfg h = true) (OnlyAllowed cfg h) := by
  -- The names can be the same until the first check has been passed.
  refine Triple.seq (Q := fun s => OnlyAllowed cfg h s ∧ isBridge cfg.bridgeIf s = true ∧
    (s.links cfg.tapIf = h.links cfg.tapIf ∨ h.links cfg.tapIf = none ∨ cfg.tapIf = cfg.bridgeIf))
    _ _ ?_ (Triple.seq (Q := fun s => OnlyAllowed cfg h s ∧ cfg.tapIf ≠ cfg.bridgeIf ∧
      (s.links cfg.tapIf = h.links cfg.tapIf ∨ h.links cfg.tapIf = none) ∧
      showsTap finds cfg s = true) _ _ ?_ ?_)
  · refine Triple.ifThen _ _ (Triple.cmd _ (fun s hs => hs.1.done) ?_) fun s hs _ => ?_
    · intro s s' hs hip
      have hmissing : s.links cfg.tapIf = none := by
        simpa only [HostNet.exists?, Bool.not_eq_true', Option.isSome_eq_false_iff,
          Option.isNone_iff_eq_none] using hs.2
      have hne : cfg.tapIf ≠ cfg.bridgeIf := by
        intro heq
        have hbridge := hs.1.bridge
        rw [isBridge, ← heq, hmissing] at hbridge
        exact Bool.false_ne_true hbridge
      have hnone : h.links cfg.tapIf = none := (hs.1.others _ hne).symm.trans hmissing
      refine ⟨onlyAllowed_ip _ _ (hadd hnone) s s' hs.1.done hip, ?_, .inr (.inl hnone)⟩
      rw [isBridge, links_of_add _ s s' _ (.inr rfl) hip _ hne.symm]
      exact hs.1.bridge
    · refine ⟨hs.done, hs.bridge, ?_⟩
      by_cases heq : cfg.tapIf = cfg.bridgeIf
      · exact .inr (.inr heq)
      · exact .inl (hs.others _ heq)
  · refine Triple.check _ (fun s hs => hs.1) fun s hs htap => ?_
    have hne := tapIf_ne_bridgeIf s hs.2.1 htap
    refine ⟨hs.1, hne, ?_, htap⟩
    rcases hs.2.2 with hsame | hnone | heq
    · exact .inl hsame
    · exact .inr hnone
    · exact absurd heq hne
  · refine Triple.check _ (fun s hs => hs.1) fun s hs hisFree => ⟨hs.1, ?_⟩
    rcases hs with ⟨-, hne, hlinks, htap⟩
    rcases tap_of_showsTap s htap with ⟨link, hlink, hkind, hfinds⟩
    rw [tapIsFree, hlink] at hisFree
    rw [tapReady, hfinds, decide_eq_true hne, Bool.and_self, Bool.true_and]
    rcases hlinks with hsame | hnone
    · rw [← hsame, hlink]
      simp only [hkind, decide_true, Bool.true_and]
      exact hisFree
    · rw [hnone]

-- A check of the unchanged host is a fact about it.
theorem check_start {F : Prop} (c : HostNet → Bool) (hc : ∀ s, c { s with done := [] } = c s) :
    Triple (fun s => s = { h with done := [] } ∧ F) (.check c)
      (fun s => s = { h with done := [] } ∧ F ∧ c h = true) (OnlyAllowed cfg h) := by
  refine Triple.check _ (fun s hs => onlyAllowed_start s hs.1) fun s hs hcs => ⟨hs.1, hs.2, ?_⟩
  rw [hs.1, hc] at hcs
  exact hcs

/-- The start of a dedicated profile, behind its checks of the adapter. -/
theorem startDedicated_allowed (hne : cfg.profile ≠ .existingBridge)
    (hfree : bridgeReady cfg h = true → ¬ Carries h cfg.bridgeIf ∧
      (tapReady finds cfg h = true → ¬ Carries h cfg.tapIf ∧ ¬ Carries h cfg.usbIf)) :
    Triple (fun s => s = { h with done := [] })
      (.seq (setUpBridge cfg)
        (.seq (checkTap finds cfg) (.seq (joinTap cfg) (attachUsb finds cfg cfg.usbIf))))
      (OnlyAllowed cfg h) (OnlyAllowed cfg h) := by
  refine Triple.seq _ _ (setUpBridge_ready hne fun hready => (hfree hready).1) ?_
  refine Triple.assume (c := bridgeReady cfg h = true) _ (fun s hs => hs.2) fun hready => ?_
  refine Triple.seq (Q := fun s => OnlyAllowed cfg h s ∧ tapReady finds cfg h = true) _ _
    (Triple.pre _ (checkTap_ready fun _ => allowed_of_harmless hne _ _ rfl) fun _ hs => hs.1) ?_
  refine Triple.assume (c := tapReady finds cfg h = true) _ (fun s hs => hs.2) fun htap => ?_
  rcases (hfree hready).2 htap with ⟨htapFree, husbFree⟩
  refine Triple.pre (P := OnlyAllowed cfg h) _ ?_ fun _ hs => hs.1
  exact Triple.seq _ _ (joinTap_allowed (free_of_not_carries hne _ htapFree)
      fun _ => allowed_of_harmless hne _ _ rfl)
    (attachUsb_allowed _ fun _ => free_of_not_carries hne _ husbFree)

/-- The start with an existing bridge, behind its checks of the bridge. -/
theorem startExisting_allowed (hprofile : cfg.profile = .existingBridge)
    (hbridge : isBridge cfg.bridgeIf h = true)
    (hfree : tapReady finds cfg h = true → ¬ Carries h cfg.tapIf) :
    Triple (fun s => s = { h with done := [] })
      (.seq .skip (.seq (checkTap finds cfg) (.seq (joinTap cfg) .skip)))
      (OnlyAllowed cfg h) (OnlyAllowed cfg h) := by
  refine Triple.seq (Q := BridgeSet cfg h) _ _ (Triple.skip fun s hs => ?_) ?_
  · refine ⟨onlyAllowed_start s hs, fun dev _ => by rw [hs], ?_⟩
    rw [hs]
    exact hbridge
  refine Triple.seq (Q := fun s => OnlyAllowed cfg h s ∧ tapReady finds cfg h = true) _ _
    (checkTap_ready fun hnone => ⟨fun hcuts => absurd hcuts Bool.false_ne_true,
      fun hdel => absurd hdel (by simp only [reduceCtorEq, not_false_eq_true]),
      fun _ => ⟨rfl, fun link hlink => ?_⟩⟩) ?_
  · rw [hnone] at hlink
    exact absurd hlink (by simp only [reduceCtorEq, not_false_eq_true])
  refine Triple.assume (c := tapReady finds cfg h = true) _ (fun s hs => hs.2) fun htap => ?_
  have hkind : ∀ link, h.links cfg.tapIf = some link → link.kind = .tap := by
    intro link hlink
    rw [tapReady, hlink] at htap
    simp only [Bool.and_eq_true, decide_eq_true_eq] at htap
    exact htap.2.1
  refine Triple.pre (P := OnlyAllowed cfg h) _ ?_ fun _ hs => hs.1
  refine Triple.seq _ _ (joinTap_allowed (fun op hop => ⟨fun _ => hfree htap,
    fun hdel => absurd hdel hop, fun _ => ⟨rfl, hkind⟩⟩) fun hded => ?_) skip_allowed
  rw [hprofile] at hded
  exact absurd hded (by decide)

theorem startBridge_allowed (hcautious : CautiousStart finds cfg h) :
    Triple (fun s => s = { h with done := [] }) (startBridge finds cfg) (OnlyAllowed cfg h)
      (OnlyAllowed cfg h) := by
  rw [startBridge, validateProfile]
  cases hprofile : cfg.profile with
  | dedicated =>
      have hne : cfg.profile ≠ .existingBridge := by rw [hprofile]; decide
      simp only [if_true]
      refine Triple.seq (Q := fun s => s = { h with done := [] } ∧ cfg.usbIf ≠ "" ∧
        adapterAccepted finds cfg h = true) _ _ ?_ ?_
      · refine Triple.seq _ _ ?_ (check_start _ fun _ => rfl)
        exact Triple.check _ onlyAllowed_start fun s hs husb => ⟨hs, of_decide_eq_true husb⟩
      · refine Triple.assume _ (fun s hs => hs.2) fun hvalid => ?_
        exact Triple.pre _ (startDedicated_allowed hne
          (hcautious.dedicated hprofile hvalid.1 hvalid.2)) fun _ hs => hs.1
  | existingBridge =>
      simp only [reduceCtorEq, if_false]
      refine Triple.seq (Q := fun s => s = { h with done := [] } ∧
        (True ∧ isBridge cfg.bridgeIf h = true) ∧ isUp cfg.bridgeIf h = true) _ _ ?_ ?_
      · refine Triple.seq _ _ ?_ (check_start _ fun _ => rfl)
        exact Triple.pre _ (check_start _ fun _ => rfl) fun s hs => ⟨hs, trivial⟩
      · refine Triple.assume _ (fun s hs => hs.2) fun hbridge => ?_
        exact Triple.pre _ (startExisting_allowed hprofile hbridge.1.2
          (hcautious.existing hprofile hbridge.1.2 hbridge.2)) fun _ hs => hs.1
  | other =>
      refine Triple.seq (Q := fun _ => False) _ _
        (Triple.check _ onlyAllowed_start fun _ _ h => ?_) (fun _ hs => absurd hs not_false)
      exact Bool.false_ne_true h

/-- What starts from anywhere does, if none of its devices carried the default
    route. -/
theorem startBridge_free
    (husb : cfg.profile = .dedicated → cfg.usbIf ≠ "" → Free cfg h cfg.usbIf)
    (hbridge : cfg.profile = .dedicated → Free cfg h cfg.bridgeIf) (htap : Free cfg h cfg.tapIf) :
    Triple (OnlyAllowed cfg h) (startBridge finds cfg) (OnlyAllowed cfg h)
      (OnlyAllowed cfg h) := by
  have hcheckTap : Triple (OnlyAllowed cfg h) (checkTap finds cfg) (OnlyAllowed cfg h)
      (OnlyAllowed cfg h) := by
    refine Triple.seq (Q := OnlyAllowed cfg h) _ _ (Triple.ifThen _ _ ?_ fun _ hs _ => hs)
      (Triple.seq _ _ (check_allowed _) (check_allowed _))
    exact Triple.pre _ (ip_allowed _ _ (htap _ (by decide))) fun _ hs => hs.1
  rw [startBridge, validateProfile]
  cases hprofile : cfg.profile with
  | dedicated =>
      simp only [if_true]
      refine Triple.seq (Q := fun s => OnlyAllowed cfg h s ∧ cfg.usbIf ≠ "") _ _ ?_ ?_
      · refine Triple.seq (Q := fun s => OnlyAllowed cfg h s ∧ cfg.usbIf ≠ "") _ _ ?_ ?_
        · exact Triple.check _ (fun _ hs => hs) fun s hs hne => ⟨hs, of_decide_eq_true hne⟩
        · exact Triple.check _ (fun _ hs => hs.1) fun s hs _ => hs
      · refine Triple.assume (c := cfg.usbIf ≠ "") _ (fun s hs => hs.2) fun hne => ?_
        refine Triple.pre (P := OnlyAllowed cfg h) _ ?_ fun _ hs => hs.1
        have hfree := hbridge hprofile
        refine Triple.seq (Q := OnlyAllowed cfg h) _ _ ?_ (Triple.seq _ _ hcheckTap
          (Triple.seq _ _ (joinTap_allowed htap fun _ => hfree _ (by decide))
            (attachUsb_allowed _ fun _ => husb hprofile hne)))
        refine Triple.seq (Q := OnlyAllowed cfg h) _ _ (Triple.ifThen _ _ ?_ fun _ hs _ => hs)
          (Triple.seq _ _ (check_allowed _) (Triple.inOrder _ fun p hp => ?_))
        · exact Triple.pre _ (ip_allowed _ _ (hfree _ (by decide))) fun _ hs => hs.1
        · simp only [List.mem_cons, List.not_mem_nil, or_false] at hp
          rcases hp with rfl | rfl
          · exact ip_allowed _ _ (hfree _ (by decide))
          · exact disableIp_allowed _ hfree
  | existingBridge =>
      simp only [reduceCtorEq, if_false]
      refine Triple.seq (Q := OnlyAllowed cfg h) _ _
        (Triple.seq _ _ (check_allowed _) (check_allowed _))
        (Triple.seq _ _ skip_allowed (Triple.seq _ _ hcheckTap
          (Triple.seq _ _ (joinTap_allowed htap fun hded => ?_) skip_allowed)))
      rw [hprofile] at hded
      exact absurd hded (by decide)
  | other =>
      refine Triple.seq (Q := fun _ => False) _ _ (Triple.check _ (fun _ hs => hs) fun _ _ hf => ?_)
        (fun _ hs => absurd hs not_false)
      exact Bool.false_ne_true hf

-- Stopping and restarting touch the same devices.
theorem free_of_cautiousStop (hcautious : CautiousStop cfg h) :
    (cfg.profile = .dedicated → cfg.usbIf ≠ "" → Free cfg h cfg.usbIf) ∧
      (cfg.profile = .dedicated → Free cfg h cfg.bridgeIf) ∧
      (cfg.profile = .dedicated → isBridge cfg.bridgeIf h = true →
        Allowed cfg h (.delBridge, cfg.bridgeIf)) ∧
      Free cfg h cfg.tapIf := by
  have hdedicated : cfg.profile = .dedicated → cfg.profile ≠ .existingBridge :=
    fun hprofile => by rw [hprofile]; decide
  refine ⟨fun hprofile hne => ?_, fun hprofile => ?_, fun hprofile hbridge => ?_, fun op hop => ?_⟩
  · exact free_of_not_carries (hdedicated hprofile) _ (hcautious.usb hprofile hne)
  · exact free_of_not_carries (hdedicated hprofile) _ (hcautious.bridge hprofile)
  · exact ⟨fun _ => hcautious.bridge hprofile, fun _ => hcautious.ports hprofile hbridge,
      fun hexisting => absurd hexisting (hdedicated hprofile)⟩
  · exact ⟨fun _ => hcautious.tap, fun hdel => absurd hdel hop,
      fun hexisting => ⟨rfl, hcautious.tapKind hexisting⟩⟩

end Allowed

/-! ### Commands -/

section Commands

variable (finds : GrepPatterns) (cfg : BridgeConfig)

/-- A cautious command does only what is allowed, wherever it is killed. -/
theorem spares_of_cautious (h : HostNet) (command : BridgeCommand × Nat)
    (hcautious : Cautious finds cfg h command.1) : Spares finds cfg h command := by
  rcases command with ⟨command, k⟩
  have hstart : OnlyAllowed cfg h { h with done := [] } := onlyAllowed_start _ rfl
  unfold Spares HostNet.after
  cases command with
  | start => exact Ends.state _ (startBridge_allowed hcautious _ rfl k)
  | check =>
      have hcheck : Triple (OnlyAllowed cfg h) (validateProfile finds cfg) (OnlyAllowed cfg h)
          (OnlyAllowed cfg h) := by
        unfold validateProfile
        split
        · exact Triple.seq _ _ (check_allowed _) (check_allowed _)
        · exact Triple.seq _ _ (check_allowed _) (check_allowed _)
        · exact check_allowed _
      exact Ends.state _ (hcheck _ hstart k)
  | attach interface =>
      simp only [bridgeCommand]
      split
      · next hprofile =>
        have hne : cfg.profile ≠ .existingBridge := by rw [hprofile]; decide
        by_cases hname : interface = "" ∨ interface = cfg.usbIf
        · cases haccepted : adapterAccepted finds cfg h with
          | true =>
              have hfree := hcautious hprofile hname haccepted
              exact Ends.state _ (attachUsb_allowed _ (fun _ => free_of_not_carries hne _ hfree) _
                hstart k)
          | false =>
              -- The script stops at its first check.
              have hstops : ∀ name, Triple (fun s => s = { h with done := [] })
                  (attachUsb finds cfg name) (OnlyAllowed cfg h) (OnlyAllowed cfg h) := by
                intro name
                unfold attachUsb
                split
                · exact Triple.skip fun s hs => hs ▸ hstart
                · refine Triple.seq (Q := fun _ => False) _ _ (Triple.check _
                    (fun s hs => hs ▸ hstart) fun s hs hc => ?_) fun _ hs => absurd hs not_false
                  rw [hs] at hc
                  exact Bool.false_ne_true (haccepted.symm.trans hc)
              exact Ends.state _ (hstops _ _ rfl k)
        · rw [not_or] at hname
          refine Ends.state _ (attachUsb_allowed _ (fun heq => ?_) _ hstart k)
          rw [if_neg hname.1] at heq
          exact absurd heq hname.2
      · exact Ends.state _ (check_allowed _ _ hstart k)
  | stop =>
      rcases free_of_cautiousStop hcautious with ⟨husb, hbridge, hdel, htap⟩
      exact (Ends.state _ (stopBridge_allowed husb hbridge hdel htap _ ⟨hstart, fun hs => hs⟩ k)).1
  | restart =>
      rcases free_of_cautiousStop hcautious with ⟨husb, hbridge, hdel, htap⟩
      refine Ends.state _ (Triple.seq _ _ (Triple.weaken _
        (stopBridge_allowed husb hbridge hdel htap) (fun s hs => ?_) (fun s hs => hs.1)
          fun s hs => hs.1) (startBridge_free husb hbridge htap) { h with done := [] } rfl k)
      exact ⟨hs ▸ hstart, fun hbridge => by rwa [← hs] at hbridge⟩

end Commands

/-- A host with its own network and an adapter for the controller. -/
def officeHost : HostNet where
  links := fun name =>
    if name = "eth0" then some ⟨.other, none, true, "00:11:22:33:44:55"⟩
    else if name = "enx0" then some ⟨.other, none, false, "00:e0:4c:36:00:01"⟩
    else none
  defaults := [⟨false, "eth0"⟩, ⟨true, "eth0"⟩]
  done := []

/-- The settings for an adapter and the names that the script has for the
    rest. -/
def adapterConfig (usbIf : String) : BridgeConfig where
  profile := .dedicated
  usbIf := usbIf
  usbMac := ""
  bridgeIf := "br-zd"
  tapIf := "tap-zd"

/-- Names without special characters. -/
def plainNames : GrepPatterns := ⟨fun name dev => name == dev, fun _ => true⟩

-- Only the devices of the default routes have to be looked at.
theorem ports_of_defaults {h : HostNet} {bridge : String}
    (hdefaults : ∀ route ∈ h.defaults, (h.links route.dev).bind NetLink.master ≠ some bridge)
    (dev : String) (link : NetLink) (hlink : h.links dev = some link)
    (hmaster : link.master = some bridge) : ¬ Carries h dev := by
  rintro ⟨-, route, hroute, heq⟩
  apply hdefaults route hroute
  rw [heq, hlink, Option.bind_some, hmaster]

section Stopping

variable (finds : GrepPatterns) (cfg : BridgeConfig)

-- Only what is deleted is gone.
theorem exists_of_effect (op : IpOp) (dev name : String) (s t : HostNet)
    (ht : s.effect op dev = some t) (hop : op = .delTap ∨ op = .delBridge → name ≠ dev)
    (hname : (s.links name).isSome) : (t.links name).isSome := by
  have hupdate : ∀ link : NetLink, (Function.update s.links dev (some link) name).isSome := by
    intro link
    by_cases heq : name = dev
    · rw [heq, Function.update_self, Option.isSome_some]
    · rwa [Function.update_of_ne heq]
  have hdelete : name ≠ dev → ((s.delete dev).links name).isSome := by
    intro hne
    simp only [HostNet.delete, if_neg hne, Option.isSome_map]
    exact hname
  unfold HostNet.effect at ht
  split at ht
  all_goals first
    | exact absurd ht (by simp only [reduceCtorEq, not_false_eq_true])
    | (rw [← Option.some.inj ht]; first | exact hupdate _ | exact hname)
    | skip
  · split at ht
    · rw [← Option.some.inj ht]
      exact hname
    · exact absurd ht (by simp only [reduceCtorEq, not_false_eq_true])
  · split at ht
    · split at ht
      · rw [← Option.some.inj ht]
        exact hupdate _
      · exact absurd ht (by simp only [reduceCtorEq, not_false_eq_true])
    · exact absurd ht (by simp only [reduceCtorEq, not_false_eq_true])
  · split at ht
    · rw [← Option.some.inj ht]
      exact hdelete (hop (.inl rfl))
    · exact absurd ht (by simp only [reduceCtorEq, not_false_eq_true])
  · split at ht
    · rw [← Option.some.inj ht]
      exact hdelete (hop (.inr rfl))
    · exact absurd ht (by simp only [reduceCtorEq, not_false_eq_true])

theorem attempt_exists (op : IpOp) (dev name : String)
    (hop : op = .delTap ∨ op = .delBridge → name ≠ dev) :
    Yields (fun s => (s.links name).isSome) (.attempt (HostNet.ip op dev))
      (fun s => (s.links name).isSome) := by
  refine Yields.attempt _ fun s hs => ?_
  unfold HostNet.ip
  cases heffect : s.effect op dev with
  | none => exact hs
  | some t => exact exists_of_effect op dev name s t heffect hop hs

-- An interface that is there is brought down.
theorem attempt_down (dev : String) :
    Yields (fun s => (s.links dev).isSome) (.attempt (HostNet.ip .down dev))
      (fun s => (IpOp.down, dev) ∈ s.done) := by
  refine Yields.attempt _ fun s hs => ?_
  rcases Option.isSome_iff_exists.mp hs with ⟨link, hlink⟩
  simp only [HostNet.ip, HostNet.effect, hlink, Option.map_some, Option.getD_some]
  exact List.mem_append_right _ List.mem_cons_self

-- Nothing but the TAP device and the bridge is deleted.
theorem releaseUsb_yields (I : HostNet → Prop)
    (hkeeps : ∀ op, op ≠ .addBridge ∧ op ≠ .addTap → op ≠ .delBridge → op ≠ .delTap →
      Yields I (.attempt (HostNet.ip op cfg.usbIf)) I) : Yields I (releaseUsb cfg) I := by
  refine Yields.ifThen _ _ ?_ fun _ hs _ => hs
  refine Yields.seq (Q := I) _ _ (fun s hs => hkeeps .down (by decide) (by decide) (by decide) s hs.1)
    (Yields.seq _ _ (hkeeps .detach (by decide) (by decide) (by decide))
      (Yields.seq _ _ (hkeeps (.promisc false) (by decide) (by decide) (by decide))
        (Yields.seq _ _ (hkeeps .flush (by decide) (by decide) (by decide))
          (Yields.skip fun _ hs => hs))))

theorem removeTap_yields (I : HostNet → Prop)
    (hkeeps : ∀ op, op ≠ .addBridge ∧ op ≠ .addTap → op ≠ .delBridge →
      Yields I (.attempt (HostNet.ip op cfg.tapIf)) I) : Yields I (removeTap cfg) I := by
  refine Yields.ifThen _ _ ?_ fun _ hs _ => hs
  exact Yields.seq (Q := I) _ _ (fun s hs => hkeeps .down (by decide) (by decide) s hs.1)
    (Yields.seq _ _ (hkeeps .detach (by decide) (by decide))
      (Yields.seq _ _ (hkeeps .delTap (by decide) (by decide)) (Yields.skip fun _ hs => hs)))

theorem releaseUsb_exists (name : String) :
    Yields (fun s => (s.links name).isSome) (releaseUsb cfg) (fun s => (s.links name).isSome) :=
  releaseUsb_yields cfg _ fun op _ hdelBridge hdelTap => attempt_exists op _ name fun hdel =>
    hdel.elim (fun heq => absurd heq hdelTap) fun heq => absurd heq hdelBridge

theorem removeTap_exists (name : String) (hne : name ≠ cfg.tapIf) :
    Yields (fun s => (s.links name).isSome) (removeTap cfg) (fun s => (s.links name).isSome) :=
  removeTap_yields cfg _ fun op _ _ => attempt_exists op _ name fun _ => hne

theorem attempt_isBridge (op : IpOp) (dev name : String) (hadd : op ≠ .addBridge ∧ op ≠ .addTap)
    (hdel : op ≠ .delBridge) :
    Yields (fun s => isBridge name s = true) (.attempt (HostNet.ip op dev))
      (fun s => isBridge name s = true) := by
  refine Yields.attempt _ fun s hs => ?_
  unfold HostNet.ip
  cases heffect : s.effect op dev with
  | none => exact hs
  | some t => exact (isBridge_of_effect op dev name s t heffect hadd).2 hdel hs

theorem attempt_delBridge (dev : String) :
    Yields (fun s => isBridge dev s = true) (.attempt (HostNet.ip .delBridge dev))
      (fun s => (IpOp.delBridge, dev) ∈ s.done) := by
  refine Yields.attempt _ fun s hs => ?_
  rcases Option.map_eq_some_iff.mp ((isBridge_eq_true_iff dev s).mp hs) with ⟨link, hlink, hkind⟩
  simp only [HostNet.ip, HostNet.effect, hlink, hkind, if_true, Option.map_some, Option.getD_some]
  exact List.mem_append_right _ List.mem_cons_self

/-- A bridge is deleted whatever the other two names are. -/
theorem stopBridge_delBridge (hprofile : cfg.profile = .dedicated) :
    Reaches (fun s => isBridge cfg.bridgeIf s = true) (stopBridge cfg)
      (fun s => (IpOp.delBridge, cfg.bridgeIf) ∈ s.done) := by
  have husb : Yields (fun s => isBridge cfg.bridgeIf s = true) (releaseUsb cfg)
      (fun s => isBridge cfg.bridgeIf s = true) :=
    releaseUsb_yields cfg _ fun op hadd hdel _ => attempt_isBridge op _ _ hadd hdel
  have htap : Yields (fun s => isBridge cfg.bridgeIf s = true) (removeTap cfg)
      (fun s => isBridge cfg.bridgeIf s = true) :=
    removeTap_yields cfg _ fun op hadd hdel => attempt_isBridge op _ _ hadd hdel
  refine Reaches.seq _ _ husb (Reaches.seq _ _ htap (Reaches.ifThen _ _ (fun s hs => ?_) ?_))
  · rcases Option.map_eq_some_iff.mp ((isBridge_eq_true_iff _ s).mp hs) with ⟨link, hlink, -⟩
    rw [decide_eq_true hprofile, HostNet.exists?, hlink]
    rfl
  · exact Reaches.seq _ _ (attempt_isBridge _ _ _ (by decide) (by decide))
      (Reaches.left _ _ (Reaches.of_yields _ (attempt_delBridge _)))

-- A device that the script removes is brought down first.
theorem down_reached (c : HostNet → Bool) (dev : String) (rest : Script HostNet)
    (hc : ∀ s, (s.links dev).isSome → c s = true) :
    Reaches (fun s => (s.links dev).isSome)
      (.ifThen c (.seq (.attempt (HostNet.ip .down dev)) rest))
      (fun s => (IpOp.down, dev) ∈ s.done) :=
  Reaches.ifThen _ _ hc (Reaches.left _ _ (Reaches.of_yields _ (attempt_down dev)))

theorem removeTap_down :
    Reaches (fun s => (s.links cfg.tapIf).isSome) (removeTap cfg)
      (fun s => (IpOp.down, cfg.tapIf) ∈ s.done) := down_reached _ _ _ fun _ hs => hs

/-- A stop spares what carries the default route, wherever it is killed,
    exactly if neither one of its names nor a port of its bridge is such an
    interface. -/
theorem stop_spares_iff (h : HostNet) :
    (∀ k, Spares finds cfg h (.stop, k)) ↔ CautiousStop cfg h := by
  refine ⟨fun hspares => ?_, fun hcautious k => spares_of_cautious finds cfg h (.stop, k) hcautious⟩
  have hallowed : ∀ dev, (h.links dev).isSome →
      Reaches (fun s => (s.links dev).isSome) (stopBridge cfg)
        (fun s => (IpOp.down, dev) ∈ s.done) → Allowed cfg h (.down, dev) := by
    intro dev hdev hreaches
    rcases hreaches { h with done := [] } hdev with ⟨k, hk, -⟩
    exact hspares k _ hk
  have htap : (h.links cfg.tapIf).isSome → Allowed cfg h (.down, cfg.tapIf) := fun hsome =>
    hallowed _ hsome (Reaches.seq _ _ (releaseUsb_exists cfg _)
      (Reaches.left _ _ (removeTap_down cfg)))
  refine ⟨fun hprofile hne hcarries => ?_, fun hprofile hcarries => ?_,
    fun hprofile hbridge dev link hlink hmaster => ?_, fun hcarries => ?_, ?_⟩
  · refine (hallowed _ hcarries.1 (Reaches.left _ _ (down_reached _ _ _ ?_))).spared rfl hcarries
    intro s hs
    rw [decide_eq_true hprofile, decide_eq_true hne, HostNet.exists?, hs]
    rfl
  · by_cases heq : cfg.bridgeIf = cfg.tapIf
    · rw [heq] at hcarries
      exact (htap hcarries.1).spared rfl hcarries
    · refine (hallowed _ hcarries.1 (Reaches.seq _ _ (releaseUsb_exists cfg _)
        (Reaches.seq _ _ (removeTap_exists cfg _ heq) (down_reached _ _ _ ?_)))).spared rfl hcarries
      intro s hs
      rw [decide_eq_true hprofile, HostNet.exists?, hs]
      rfl
  · rcases stopBridge_delBridge cfg hprofile { h with done := [] } hbridge with ⟨k, hk, -⟩
    exact (hspares k _ hk).ports rfl dev link hlink hmaster
  · exact (htap hcarries.1).spared rfl hcarries
  · intro hexisting link hlink
    exact ((htap (by rw [hlink, Option.isSome_some])).onlyTap hexisting).2 link hlink

end Stopping

end Zd1200
