import Zd1200.Monitor.Addresses
import Zd1200.Monitor.AllOrNothing
import Zd1200.Monitor.Collector

/-!
# Disabled Targets

How long a target that `set-enabled ID 0` has disabled stays out of the rounds.

The flag is one column, read once in a round, and three statements write it:
the two commands for it and the refresh of a listed client, which sets it to 1
whatever it was. The access points' statement does not: `seed` ignores the
entries it has targets for. So a disabled access point stays disabled, and a
disabled client exactly until a round lists it again with an address.

In a reachable database no round deletes or renumbers a target, which is what
makes the number in the command a name of the target for the whole run.

## Main definitions

* `TickEnv.Relists`: A round that lists a target.
* `Command.Reenables`: A command that enables a target on purpose.
* `TickEnv.probed`: The targets that a round sends a probe to.
* `Quiet`: A command that leaves a target alone.
* `SwitchedOff`: A database in which a target is disabled.

## Theorems

* `switchedOff_runCommand`: What a command that does not list it keeps.
* `quiet_of_switchedOff`: A disabled target is left alone.
* `not_quiet_of_relists`: A listed one is not.
* `disabled_quiet`: Runs after a target has been disabled.
-/

namespace Zd1200

/-- The view of a round has an entry with the target's MAC that has a name and
    an address. -/
def TickEnv.Relists (env : TickEnv) (t : TargetRow) : Prop :=
  t.kind = .client ∧ ∃ c ∈ env.view.items, (∃ ip name, c.usable ip name) ∧ t.clientMac = some c.mac

def Command.Relists (t : TargetRow) : Command → Prop
  | .tick env => env.Relists t
  | .addClient .. => False
  | .setEnabled .. => False

/-- `set-enabled ID 1` for the target or `add-client` for its MAC. -/
def Command.Reenables (t : TargetRow) : Command → Prop
  | .tick _ => False
  | .addClient mac _ _ _ fails => fails = false ∧ t.clientMac = some mac
  | .setEnabled idText enabledText fails =>
      fails = false ∧ (strtol idText).1 = t.id ∧ enabledText = ascii "1"

/-- The targets that a round probes. A round that fails at the probes may have
    sent any of them. -/
def TickEnv.probed (env : TickEnv) (db : Db) : List Nat :=
  match syncTargets env db with
  | none => []
  | some synced =>
      if env.fails .loadTargets then []
      else ((loadMeasurements synced.target env.view).filter Measurement.pingable).map Measurement.id

/-- The command neither probes the target nor records an observation for it. -/
structure Quiet (id : Nat) (db : Db) (command : Command) : Prop where
  probes : ∀ env, command = .tick env → id ∉ env.probed db
  results : ∀ p, NewResult db (runCommand db command) p → p.targetId ≠ id

/-- The target is there and disabled. -/
def SwitchedOff (t : TargetRow) (db : Db) : Prop :=
  ∃ t' ∈ db.target.rows, SameTarget t t' ∧ t'.enabled = false

/-! ### Targets of a run -/

theorem sameTarget_of_ident (a b : TargetRow) (h : a.ident = b.ident) : SameTarget a b := by
  unfold TargetRow.ident at h
  simp only [Prod.mk.injEq] at h
  exact ⟨h.1, h.2.1, h.2.2.1, h.2.2.2⟩

theorem grows_runCommand (db : Db) (hdb : Settled db) (command : Command) :
    db.target.Grows (runCommand db command).target := by
  cases command with
  | tick env => exact (tick_settled env db hdb).2
  | addClient mac ip name now fails => exact (addClient_onlyTargets mac ip name now fails db).grows
  | setEnabled idText enabledText fails =>
      exact (setEnabled_onlyTargets idText enabledText fails db).grows

/-! ### The flag -/

/-- A table with the target in it as a row that is disabled. -/
def TargetTable.HasOff (table : TargetTable) (t : TargetRow) : Prop :=
  ∃ t' ∈ table.rows, SameTarget t t' ∧ t'.enabled = false

theorem hasOff_insertOrIgnore (table : TargetTable) (row t : TargetRow) (h : table.HasOff t) :
    (table.insertOrIgnore row).HasOff t := by
  rcases h with ⟨t', ht', hsame, hoff⟩
  exact ⟨t', table.subset_insertOrIgnore row t' ht', hsame, hoff⟩

/-- An update that leaves the flag of this target as it is. -/
theorem hasOff_update (table : TargetTable) (f : TargetRow → TargetRow)
    (same : ∀ t, SameTarget t (f t)) (t : TargetRow) (h : table.HasOff t)
    (hflag : ∀ t', SameTarget t t' → t'.enabled = false → (f t').enabled = false) :
    (table.update f same).HasOff t := by
  rcases h with ⟨t', ht', hsame, hoff⟩
  exact ⟨f t', List.mem_map_of_mem ht', hsame.trans (same t'), hflag t' hsame hoff⟩

/-- An entry without the target's MAC, or one that is passed over. -/
theorem hasOff_syncClient (now : Nat) (target : TargetTable) (client : Client) (t : TargetRow)
    (h : target.HasOff t)
    (hnot : ¬ (t.kind = .client ∧ (∃ ip name, client.usable ip name) ∧
      t.clientMac = some client.mac)) :
    (syncClient now target client).HasOff t := by
  unfold syncClient
  split
  · next ip name hip hname =>
    by_cases haddress : (inetPton ip).isSome = true
    · rw [if_pos haddress]
      refine hasOff_update _ _ _ t (hasOff_insertOrIgnore target _ t h) fun t' hsame hoff => ?_
      -- The refresh is not about this target.
      unfold refreshClient
      rw [if_neg, hoff]
      rintro ⟨hkind, hmac⟩
      exact hnot ⟨hsame.kind.trans hkind, ⟨ip, name, hip, hname, haddress⟩,
        hsame.clientMac.trans hmac⟩
    · rw [if_neg haddress]
      exact h
  · exact h

theorem hasOff_syncClients (view : ClientView) (now : Nat) (target : TargetTable) (t : TargetRow)
    (h : target.HasOff t)
    (hnot : ¬ (t.kind = .client ∧
      ∃ c ∈ view.items, (∃ ip name, c.usable ip name) ∧ t.clientMac = some c.mac)) :
    (syncClients view now target).HasOff t := by
  unfold syncClients
  generalize view.items = items at hnot
  induction items generalizing target with
  | nil => exact h
  | cons client rest ih =>
      refine ih _ (hasOff_syncClient now target client t h fun hclient => hnot
        ⟨hclient.1, client, List.mem_cons_self, hclient.2⟩) fun hrest => hnot ⟨hrest.1, ?_⟩
      rcases hrest.2 with ⟨c, hc, hlisted⟩
      exact ⟨c, List.mem_cons_of_mem client hc, hlisted⟩

/-! ### Rounds -/

/-- A round that does not list the target leaves it disabled. -/
theorem switchedOff_syncTargets (env : TickEnv) (db synced : Db) (hdb : Settled db)
    (h : syncTargets env db = some synced) (t : TargetRow) (hoff : SwitchedOff t db)
    (hnot : ¬ env.Relists t) : SwitchedOff t synced := by
  rcases syncTargets_cases env db synced h with ⟨merged, hmerged, rfl⟩
  -- A target of the present version is none of the merge's business.
  have hmid : merged.target.HasOff t := by
    rcases hoff with ⟨t', ht', hsame, hflag⟩
    refine ⟨t', mem_mergeLegacyAps _ _ _ hmerged t' (subset_seed _ _ _ t' ht') fun ip => ?_, hsame,
      hflag⟩
    exact isLegacyAt_of_not_isLegacy t' ip (hdb.noLegacy t' ht')
  by_cases hvalid : env.view.valid = true
  · simp only [if_pos hvalid]
    exact hasOff_syncClients env.view env.now merged.target t hmid hnot
  · simp only [if_neg hvalid]
    exact hmid

/-- Only one row of a table can be the target. -/
theorem disabled_of_switchedOff (t : TargetRow) (db : Db) (h : SwitchedOff t db) (t' : TargetRow)
    (ht' : t' ∈ db.target.rows) (hid : t'.id = t.id) : t'.enabled = false := by
  rcases h with ⟨t₀, ht₀, hsame, hoff⟩
  rw [db.target.eq_of_id t' t₀ ht' ht₀ (hid.trans hsame.id), hoff]

/-- A command that neither lists nor enables the target leaves it disabled. -/
theorem switchedOff_runCommand (db : Db) (hdb : Settled db) (t : TargetRow)
    (hoff : SwitchedOff t db) (command : Command) (hno : ¬ command.Reenables t)
    (hnot : ¬ command.Relists t) : SwitchedOff t (runCommand db command) := by
  cases command with
  | tick env =>
      rw [runCommand]
      rcases tick_cases env db with heq | ⟨synced, hsync, heq | ⟨written, hwrite, heq⟩⟩
      · rw [heq]
        exact hoff
      · rw [heq]
        exact switchedOff_syncTargets env db synced hdb hsync t hoff hnot
      · rw [heq, SwitchedOff, writeRound_target env synced written hwrite]
        exact switchedOff_syncTargets env db synced hdb hsync t hoff hnot
  | addClient mac ip name now fails =>
      rw [runCommand]
      unfold addClient
      split
      · exact hoff
      · split
        · exact hoff
        · next hruns =>
          split
          · refine hasOff_update _ _ (renameClient_same mac ip name) t hoff fun t' hsame hflag => ?_
            -- The renamed client has another MAC.
            unfold renameClient
            rw [if_neg, hflag]
            exact fun hclient => hno ⟨Bool.eq_false_iff.mpr hruns,
              hsame.clientMac.trans hclient.2⟩
          · have hkeep := hasOff_insertOrIgnore db.target (clientRow mac ip name now) t hoff
            unfold TargetTable.insertOrIgnore at hkeep
            cases hinsert : db.target.insert (clientRow mac ip name now) with
            | none => exact hoff
            | some target =>
                rw [hinsert] at hkeep
                exact hkeep
  | setEnabled idText enabledText fails =>
      rw [runCommand]
      unfold setEnabled
      simp only
      split
      · exact hoff
      · next hwell =>
        split
        · exact hoff
        · next hruns =>
          split
          · refine hasOff_update _ _ (switchTarget_same _ _) t hoff fun t' hsame hflag => ?_
            unfold switchTarget
            split
            · next hid =>
              -- It is this target that is switched, so it is switched off.
              refine decide_eq_false fun hone => hno ⟨Bool.eq_false_iff.mpr hruns, ?_, hone⟩
              rw [← hid, hsame.id]
            · exact hflag
          · exact hoff

/-- What a round measures. -/
theorem enabled_of_probed (env : TickEnv) (db : Db) (id : Nat) (h : id ∈ env.probed db) :
    ∃ synced, syncTargets env db = some synced ∧
      ∃ t ∈ synced.target.rows, t.id = id ∧ t.enabled = true := by
  unfold TickEnv.probed at h
  cases hsync : syncTargets env db with
  | none =>
      rw [hsync] at h
      exact absurd h List.not_mem_nil
  | some synced =>
      rw [hsync] at h
      simp only at h
      split at h
      · exact absurd h List.not_mem_nil
      · rcases List.mem_map.mp h with ⟨item, hitem, rfl⟩
        rcases (mem_loadMeasurements _ _ _).mp (List.mem_filter.mp hitem).1 with ⟨t, ht, hen, heq⟩
        exact ⟨synced, rfl, t, ht, by rw [heq, measurementOf_id], hen⟩

/-- A disabled target that is not listed is left alone. -/
theorem quiet_of_switchedOff (db : Db) (hdb : Settled db) (t : TargetRow) (hoff : SwitchedOff t db)
    (command : Command) (hnot : ¬ command.Relists t) : Quiet t.id db command := by
  cases command with
  | tick env =>
      refine ⟨fun env' heq hprobed => ?_, fun p hp hid => ?_⟩
      · rw [← Command.tick.inj heq] at hprobed
        rcases enabled_of_probed env db t.id hprobed with ⟨synced, hsync, t', ht', hid, hen⟩
        rw [disabled_of_switchedOff t synced (switchedOff_syncTargets env db synced hdb hsync t hoff
          hnot) t' ht' hid] at hen
        exact absurd hen Bool.false_ne_true
      · rw [runCommand] at hp
        rcases tick_cases env db with heq | ⟨synced, hsync, heq | ⟨written, hwrite, heq⟩⟩
        · rw [heq] at hp
          exact hp.2 p hp.1 rfl
        · rw [heq] at hp
          exact syncTargets_no_new env db synced hsync p hp
        · -- A new result is that of a target that was enabled.
          rw [heq, newResult_of_synced env db synced written hsync] at hp
          rcases (writeRound_allOrNothing env synced written hwrite).2 p hp with
            ⟨t', ht', hen, hid', -⟩
          rw [disabled_of_switchedOff t synced (switchedOff_syncTargets env db synced hdb hsync t
            hoff hnot) t' ht' (hid'.trans hid)] at hen
          exact absurd hen Bool.false_ne_true
  | addClient mac ip name now fails =>
      refine ⟨fun env habs => absurd habs (by simp only [reduceCtorEq, not_false_eq_true]),
        fun p hp => ?_⟩
      have hrest := (addClient_onlyTargets mac ip name now fails db).rest
      rw [runCommand, hrest] at hp
      exact absurd rfl (hp.2 p hp.1)
  | setEnabled idText enabledText fails =>
      refine ⟨fun env habs => absurd habs (by simp only [reduceCtorEq, not_false_eq_true]),
        fun p hp => ?_⟩
      have hrest := (setEnabled_onlyTargets idText enabledText fails db).rest
      rw [runCommand, hrest] at hp
      exact absurd rfl (hp.2 p hp.1)

/-! ### Listed targets -/

/-- A round that succeeds records an observation for every target it lists. -/
theorem not_quiet_of_relists (env : TickEnv) (db : Db) (hkinded : ∀ t ∈ db.target.rows, Kinded t)
    (t t' : TargetRow) (ht' : t' ∈ db.target.rows) (hsame : SameTarget t t')
    (hlisted : env.Relists t) (hok : (tick env db).2 = 0) : ¬ Quiet t.id db (.tick env) := by
  intro hquiet
  rcases hlisted with ⟨hkind, c, hc, husable, hmac⟩
  have hvalid : env.view.valid = true := by
    unfold TickEnv.view parseClientView at hc ⊢
    cases hxml : env.clientXml with
    | none =>
        rw [hxml] at hc
        exact absurd hc List.not_mem_nil
    | some contents => rfl
  rcases tick_success env db hok with ⟨synced, hsync, hone, -⟩
  -- The entry's target is enabled, and its MAC makes it this target.
  rcases clientsListed_syncTargets env db synced hsync hkinded hvalid c hc husable with
    ⟨listed, hlisted, -, hlistedMac, henabled, -⟩
  rcases syncTargets_keeps_client env db synced hsync t' ht' (hsame.kind.symm.trans hkind) with
    ⟨kept, hkept, hsame', -⟩
  have heq : listed = kept := synced.target.eq_of_conflicts listed kept hlisted hkept <| by
    refine .inl ⟨?_, ?_⟩
    · rw [hlistedMac]
      exact Option.some_ne_none _
    · rw [hlistedMac, ← hmac, hsame.clientMac, hsame'.clientMac]
  rcases hone listed hlisted henabled with ⟨p, ⟨hp, hid⟩, -⟩
  refine hquiet.results p hp (hid.trans ?_)
  rw [heq, ← hsame'.id, ← hsame.id]

/-! ### Runs -/

/-- What `set-enabled ID 0` leaves when it succeeds. -/
theorem switchedOff_setEnabled (db : Db) (t : TargetRow) (ht : t ∈ db.target.rows) (idText : Bytes)
    (fails : Bool) (hid : (strtol idText).1 = t.id)
    (hok : (setEnabled idText (ascii "0") fails db).2 = 0) :
    SwitchedOff t (setEnabled idText (ascii "0") fails db).1 := by
  unfold setEnabled at hok ⊢
  simp only at hok ⊢
  split
  · next hbad =>
    rw [if_pos hbad] at hok
    exact absurd hok (Nat.succ_ne_zero 1)
  · next hwell =>
    rw [if_neg hwell] at hok
    split
    · next hfails =>
      rw [if_pos hfails] at hok
      exact absurd hok Nat.one_ne_zero
    · rw [if_pos ⟨t, ht, hid.symm⟩]
      refine ⟨switchTarget (strtol idText).1 (decide (ascii "0" = ascii "1")) t,
        List.mem_map_of_mem ht, switchTarget_same _ _ t, ?_⟩
      rw [switchTarget, if_pos hid.symm]
      exact decide_eq_false (show ¬ ascii "0" = ascii "1" by decide)

theorem settled_of_reachable (db : Db) (h : Reachable db) : Settled db := by
  rcases h with ⟨commands, rfl⟩
  exact List.foldlRecOn commands runCommand settled_empty
    fun db hdb command _ => settled_runCommand db hdb command

theorem kinded_of_reachable (db : Db) (h : Reachable db) : ∀ t ∈ db.target.rows, Kinded t := by
  rcases h with ⟨commands, rfl⟩
  exact List.foldlRecOn commands runCommand (fun t ht => absurd ht List.not_mem_nil)
    fun db hdb command _ => every_runCommand inherent_kinded db hdb command

/-- After `set-enabled ID 0` every command leaves the target alone as long as
    it is not enabled on purpose and no round lists it; and a run of rounds
    that succeed has no others. -/
theorem disabled_quiet (db : Db) (hdb : Reachable db) (t : TargetRow) (ht : t ∈ db.target.rows)
    (idText : Bytes) (fails : Bool) (hid : (strtol idText).1 = t.id)
    (hok : (setEnabled idText (ascii "0") fails db).2 = 0) (commands : List Command)
    (hno : ∀ command ∈ commands, ¬ command.Reenables t) :
    ((∀ command ∈ commands, ¬ command.Relists t) →
      Meets runCommand (Quiet t.id) (setEnabled idText (ascii "0") fails db).1 commands) ∧
    (Meets runCommand (fun db command => ∀ env, command = .tick env → (tick env db).2 = 0)
        (setEnabled idText (ascii "0") fails db).1 commands →
      Meets runCommand (Quiet t.id) (setEnabled idText (ascii "0") fails db).1 commands →
        ∀ command ∈ commands, ¬ command.Relists t) := by
  have hsettled := settled_runCommand db (settled_of_reachable db hdb)
    (.setEnabled idText (ascii "0") fails)
  have hoff := switchedOff_setEnabled db t ht idText fails hid hok
  have hkinded := every_runCommand inherent_kinded db (kinded_of_reachable db hdb)
    (.setEnabled idText (ascii "0") fails)
  constructor
  · intro hnot
    -- The target stays disabled, which is what keeps it out of the rounds.
    refine Meets.of_invariant runCommand
      (fun _ command => ¬ command.Reenables t ∧ ¬ command.Relists t) (Quiet t.id)
      (fun db => Settled db ∧ SwitchedOff t db) (fun db command hinv hcommand =>
        ⟨settled_runCommand db hinv.1 command,
          switchedOff_runCommand db hinv.1 t hinv.2 command hcommand.1 hcommand.2⟩)
      (fun db command hinv hcommand => quiet_of_switchedOff db hinv.1 t hinv.2 command hcommand.2)
      _ commands ⟨hsettled, hoff⟩ ?_
    exact (meets_of_forall runCommand _ _ commands).mpr fun command hcommand =>
      ⟨hno command hcommand, hnot command hcommand⟩
  · intro hrounds hquiet
    -- It is never deleted either, so a round that lists it finds it.
    refine (meets_of_forall runCommand (fun command => ¬ command.Relists t)
      (setEnabled idText (ascii "0") fails db).1 commands).mp ?_
    refine Meets.imp_of_invariant runCommand _ (fun _ command => ¬ command.Relists t)
      (fun db => Settled db ∧ (∀ t ∈ db.target.rows, Kinded t) ∧
        ∃ t' ∈ db.target.rows, SameTarget t t') ?_ ?_ _ commands
      ⟨hsettled, hkinded, ?_⟩ (hrounds.and hquiet)
    · rintro db command ⟨hdb, hkinded, t', ht', hsame⟩
      refine ⟨settled_runCommand db hdb command, every_runCommand inherent_kinded db hkinded command,
        ?_⟩
      rcases (grows_runCommand db hdb command).mem t' ht' with ⟨t'', ht'', hident⟩
      exact ⟨t'', ht'', hsame.trans (sameTarget_of_ident t' t'' hident.symm)⟩
    · rintro db command ⟨-, hkinded, t', ht', hsame⟩ ⟨hround, hquiet⟩ hlisted
      cases command with
      | tick env =>
          exact not_quiet_of_relists env db hkinded t t' ht' hsame hlisted (hround env rfl) hquiet
      | addClient mac ip name now fails => exact hlisted
      | setEnabled idText enabledText fails => exact hlisted
    · rcases hoff with ⟨t', ht', hsame, -⟩
      exact ⟨t', ht', hsame⟩

/-- A round without a client view leaves the disabled phone alone. -/
theorem disabled_quiet_phone :
    Meets runCommand (Quiet 1) (setEnabled (ascii "1") (ascii "0") false phoneDb).1
      [.tick (silentRound none)] := by
  have hmem : phone ∈ phoneDb.target.rows := by decide +kernel
  refine (disabled_quiet phoneDb ⟨[.addClient (ascii "aa:bb:cc:dd:ee:01") (ascii "10.0.0.9")
    (ascii "Phone") 900 false], rfl⟩ phone hmem (ascii "1") false (by decide +kernel)
    (by decide +kernel) [.tick (silentRound none)] ?_).1 ?_
  · exact List.forall_mem_singleton.mpr id
  · refine List.forall_mem_singleton.mpr fun hlisted => ?_
    rcases hlisted with ⟨-, c, hc, -⟩
    exact absurd hc List.not_mem_nil

/-- A round that lists the phone probes it again and records the outcome. -/
theorem disabled_relisted :
    Reachable phoneDb ∧ (setEnabled (ascii "1") (ascii "0") false phoneDb).2 = 0 ∧
      1 ∈ (silentRound (some phoneReply)).probed
        (setEnabled (ascii "1") (ascii "0") false phoneDb).1 ∧
      ¬ Meets runCommand (Quiet 1) (setEnabled (ascii "1") (ascii "0") false phoneDb).1
        [.tick (silentRound (some phoneReply))] := by
  have hprobed : 1 ∈ (silentRound (some phoneReply)).probed
      (setEnabled (ascii "1") (ascii "0") false phoneDb).1 := by decide +kernel
  refine ⟨⟨[.addClient (ascii "aa:bb:cc:dd:ee:01") (ascii "10.0.0.9") (ascii "Phone") 900 false],
    rfl⟩, by decide +kernel, hprobed, fun h => ?_⟩
  exact h.1.probes (silentRound (some phoneReply)) rfl hprobed

end Zd1200
