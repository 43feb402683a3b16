import Zd1200.Lib.Script
import Zd1200.Monitor.Settled

/-!
# Probes Go to Listed Addresses

Whether a round probes its targets at the addresses that are listed in it.

Clients and access points are brought in line by different statements. For a
client the round inserts a target if there is none and then updates it, so the
target has the address and name of one of the client's entries. For an access
point it only inserts. A target that is there already keeps the address and
name that were listed when it was made, and the access point is probed there
for ever.

## Main definitions

* `ApsListed`, `ClientsListed`: Targets have the addresses that are listed.
* `ProbesListed`: What is expected of a command.
* `Unmoved`: No access point has moved since its target was made.

## Theorems

* `every_runCommand`: What holds of all targets.
* `clientsListed_syncClients`: Clients are probed where they are listed.
* `apsListed_iff`: When access points are.
* `probesListed_iff`: Runs of commands.
-/

namespace Zd1200

/-- A target is probed at its own address, if it is enabled. -/
def ProbedAt (env : TickEnv) (target : TargetTable) (t : TargetRow) : Prop :=
  t.enabled = true → (inetPton t.ip).isSome ∧
    ∃ item ∈ loadMeasurements target env.view, item.id = t.id ∧ item.address = inetPton t.ip

/-- Every listed access point with a MAC has a target with the address and the
    name of one of its entries. -/
def ApsListed (env : TickEnv) (target : TargetTable) : Prop :=
  ∀ ap ∈ readAps env.apList, validMac ap.id = true → ∃ t ∈ target.rows, t.kind = .ap ∧
    t.apId = some ap.id ∧ ProbedAt env target t ∧
      ∃ entry ∈ readAps env.apList, entry.id = ap.id ∧ t.ip = entry.ip ∧ t.name = entry.name

/-- An entry has a name and an address. -/
def Client.usable (client : Client) (ip name : Bytes) : Prop :=
  client.ip = some ip ∧ client.name = some name ∧ (inetPton ip).isSome = true

/-- Every listed client with a name and an address has an enabled target with
    those of one of its entries. -/
def ClientsListed (env : TickEnv) (target : TargetTable) : Prop :=
  env.view.valid = true → ∀ client ∈ env.view.items, (∃ ip name, client.usable ip name) →
    ∃ t ∈ target.rows, t.kind = .client ∧ t.clientMac = some client.mac ∧ t.enabled = true ∧
      ProbedAt env target t ∧
        ∃ entry ∈ env.view.items, entry.mac = client.mac ∧ entry.usable t.ip t.name

/-- A round that succeeds probes what is listed where it is listed. -/
def ProbesListed (db : Db) : Command → Prop
  | .tick env => (tick env db).2 = 0 → ∀ synced, syncTargets env db = some synced →
      ApsListed env synced.target ∧ ClientsListed env synced.target
  | _ => True

/-- The target that a listed access point has already has the address and the
    name of one of its entries. -/
def Unmoved (db : Db) : Command → Prop
  | .tick env => (tick env db).2 = 0 → ∀ ap ∈ readAps env.apList, validMac ap.id = true →
      ∀ t ∈ db.target.rows, t.apId = some ap.id →
        ∃ entry ∈ readAps env.apList, entry.id = ap.id ∧ t.ip = entry.ip ∧ t.name = entry.name
  | _ => True

/-! ### What holds of all targets -/

section Every

variable (P : TargetRow → Prop)

/-- A property of what identifies a target, its number apart, that new targets
    have. -/
structure Inherent : Prop where
  same : ∀ a b : TargetRow, a.kind = b.kind → a.clientMac = b.clientMac → a.apId = b.apId →
    P a → P b
  ap : ∀ ap now, P (apRow ap now)
  client : ∀ mac ip name now, validMac mac = true → P (clientRow mac ip name now)

variable {P}

theorem every_insertOrIgnore (hP : Inherent P) (target : TargetTable) (row : TargetRow)
    (hrow : P row) (h : ∀ t ∈ target.rows, P t) : ∀ t ∈ (target.insertOrIgnore row).rows, P t := by
  intro t ht
  rcases target.mem_insertOrIgnore row t ht with hold | hnew
  · exact h t hold
  · rw [hnew]
    exact hP.same row _ rfl rfl rfl hrow

theorem every_update (hP : Inherent P) (target : TargetTable) (f : TargetRow → TargetRow)
    (same : ∀ t, SameTarget t (f t)) (h : ∀ t ∈ target.rows, P t) :
    ∀ t ∈ (target.update f same).rows, P t := by
  intro t ht
  rcases List.mem_map.mp ht with ⟨t₀, ht₀, rfl⟩
  exact hP.same t₀ _ (same t₀).kind (same t₀).clientMac (same t₀).apId (h t₀ ht₀)

theorem every_seed (hP : Inherent P) (aps : List ApTarget) (now : Nat) (target : TargetTable)
    (h : ∀ t ∈ target.rows, P t) : ∀ t ∈ (seed target aps now).rows, P t := by
  unfold seed
  induction aps generalizing target with
  | nil => exact h
  | cons ap rest ih => exact ih _ (every_insertOrIgnore hP target _ (hP.ap ap now) h)

-- An entry of the view has a valid MAC.
theorem validMac_of_mem (sort : ClientSort) (file : Option Bytes) (client : Client)
    (h : client ∈ (parseClientView sort file).items) : validMac client.mac = true := by
  cases file with
  | none => exact absurd h List.not_mem_nil
  | some contents =>
      rw [mem_parseClientView] at h
      rcases List.mem_filterMap.mp h with ⟨⟨tag, stop⟩, -, hclient⟩
      simp only [clientOfTag, Option.bind_eq_bind, Option.bind_eq_some_iff] at hclient
      rcases hclient with ⟨mac, -, hmac⟩
      split at hmac
      · next hvalid =>
        rw [← Option.some.inj hmac]
        exact hvalid
      · exact absurd hmac (by simp only [reduceCtorEq, not_false_eq_true])

theorem every_syncClients (hP : Inherent P) (view : ClientView)
    (hview : ∀ client ∈ view.items, validMac client.mac = true) (now : Nat)
    (target : TargetTable) (h : ∀ t ∈ target.rows, P t) :
    ∀ t ∈ (syncClients view now target).rows, P t := by
  unfold syncClients
  generalize view.items = items at hview
  induction items generalizing target with
  | nil => exact h
  | cons client rest ih =>
      refine ih _ ?_ fun other hother => hview other (List.mem_cons_of_mem _ hother)
      unfold syncClient
      split
      · next ip name _ _ =>
        by_cases hip : (inetPton ip).isSome = true
        · rw [if_pos hip]
          exact every_update hP _ _ _ (every_insertOrIgnore hP target _
            (hP.client _ _ _ _ (hview client List.mem_cons_self)) h)
        · rw [if_neg hip]
          exact h
      · exact h

theorem every_syncTargets (hP : Inherent P) (env : TickEnv) (db synced : Db)
    (hsync : syncTargets env db = some synced) (h : ∀ t ∈ db.target.rows, P t) :
    ∀ t ∈ synced.target.rows, P t := by
  rcases syncTargets_cases env db synced hsync with ⟨merged, hmerged, rfl⟩
  have hmergedP : ∀ t ∈ merged.target.rows, P t := fun t ht =>
    every_seed hP _ _ _ h t ((mergeLegacyAps_merged _ _ _ hmerged).target.subset ht)
  by_cases hvalid : env.view.valid = true
  · simp only [if_pos hvalid]
    exact every_syncClients hP _ (validMac_of_mem _ _) _ _ hmergedP
  · simp only [if_neg hvalid]
    exact hmergedP

/-- Commands keep a property that new targets have. -/
theorem every_runCommand (hP : Inherent P) (db : Db) (h : ∀ t ∈ db.target.rows, P t)
    (command : Command) : ∀ t ∈ (runCommand db command).target.rows, P t := by
  cases command with
  | tick env =>
      rw [runCommand]
      rcases tick_cases env db with heq | ⟨synced, hsync, heq | ⟨written, hwrite, heq⟩⟩
      · rw [heq]
        exact h
      · rw [heq]
        exact every_syncTargets hP env db synced hsync h
      · rw [heq, writeRound_target env synced written hwrite]
        exact every_syncTargets hP env db synced hsync h
  | addClient mac ip name now fails =>
      rw [runCommand]
      unfold addClient
      split
      · exact h
      · next hargs =>
        split
        · exact h
        · split
          · exact every_update hP _ _ (renameClient_same mac ip name) h
          · have hmac : validMac mac = true := by
              rw [← Bool.not_eq_false]
              exact fun hno => hargs (.inl hno)
            have hinsert := every_insertOrIgnore hP db.target _ (hP.client mac ip name now hmac) h
            unfold TargetTable.insertOrIgnore at hinsert
            split
            · exact h
            · next target heq =>
              rw [heq, Option.getD_some] at hinsert
              exact hinsert
  | setEnabled idText enabledText fails =>
      rw [runCommand]
      unfold setEnabled
      simp only
      split
      · exact h
      · split
        · exact h
        · split
          · exact every_update hP _ _ (switchTarget_same _ _) h
          · exact h

end Every

/-- A target with an identity of an access point is one, and a target with a
    client's MAC is a client. -/
def Kinded (t : TargetRow) : Prop :=
  (t.apId ≠ none → t.kind = .ap) ∧ (t.clientMac ≠ none → t.kind = .client)

theorem inherent_kinded : Inherent Kinded where
  same a b hkind hmac hap h := by
    unfold Kinded at h ⊢
    rwa [← hkind, ← hmac, ← hap]
  ap ap now := ⟨fun _ => rfl, fun h => absurd rfl h⟩
  client mac ip name now _ := ⟨fun h => absurd rfl h, fun _ => rfl⟩

/-! ### Probes -/

/-- A target with an address is probed there, a client if the view has it. -/
theorem probedAt_of_mem (env : TickEnv) (target : TargetTable) (t : TargetRow)
    (ht : t ∈ target.rows) (hip : (inetPton t.ip).isSome = true)
    (hclient : t.kind = .client → env.view.valid = true ∧
      clientPresent env.view t.clientMac = true) : ProbedAt env target t := by
  intro henabled
  refine ⟨hip, measurementOf env.view t, (mem_loadMeasurements _ _ _).mpr ⟨t, ht, henabled, rfl⟩,
    measurementOf_id _ _, ?_⟩
  have hvalid : ¬ (t.kind = .client ∧ env.view.valid = false) := by
    rintro ⟨hkind, hno⟩
    rw [(hclient hkind).1] at hno
    exact absurd hno (by decide)
  have hpresent : ¬ (t.kind = .client ∧ clientPresent env.view t.clientMac = false) := by
    rintro ⟨hkind, hno⟩
    rw [(hclient hkind).2] at hno
    exact absurd hno (by decide)
  -- Of the branches of a measurement, the one with the address is left.
  unfold measurementOf
  simp only
  rw [if_neg hvalid, if_neg hpresent]
  rcases Option.isSome_iff_exists.mp hip with ⟨address, haddress⟩
  rw [haddress]

/-! ### Clients -/

/-- A client has an enabled target with the name and address of an entry. -/
def HasEntry (items : List Client) (mac : Bytes) (target : TargetTable) : Prop :=
  ∃ t ∈ target.rows, t.kind = .client ∧ t.clientMac = some mac ∧ t.enabled = true ∧
    ∃ entry ∈ items, entry.mac = mac ∧ entry.usable t.ip t.name

-- The update of another client, or of this one.
theorem hasEntry_syncClient (items : List Client) (now : Nat) (target : TargetTable)
    (client : Client) (hclient : client ∈ items) (mac : Bytes) (h : HasEntry items mac target) :
    HasEntry items mac (syncClient now target client) := by
  rcases h with ⟨t, ht, hkind, hmac, henabled, entry, hentry, hentryMac, husable⟩
  unfold syncClient
  split
  · next ip name hip hname =>
    by_cases haddress : (inetPton ip).isSome = true
    · rw [if_pos haddress]
      refine ⟨refreshClient client ip name t,
        List.mem_map_of_mem (target.subset_insertOrIgnore _ t ht), ?_⟩
      have hsame := refreshClient_same client ip name t
      refine ⟨hsame.kind.symm.trans hkind, hsame.clientMac.symm.trans hmac, ?_⟩
      -- The update of this client writes an entry of it; another leaves it alone.
      by_cases hthis : client.mac = mac
      · have hrefresh : t.kind = .client ∧ t.clientMac = some client.mac :=
          ⟨hkind, hmac.trans (congrArg some hthis.symm)⟩
        unfold refreshClient
        rw [if_pos hrefresh]
        exact ⟨rfl, client, hclient, hthis, hip, hname, haddress⟩
      · have hother : ¬ (t.kind = .client ∧ t.clientMac = some client.mac) := by
          rintro ⟨-, habs⟩
          exact hthis (Option.some.inj (habs.symm.trans hmac))
        unfold refreshClient
        rw [if_neg hother]
        exact ⟨henabled, entry, hentry, hentryMac, husable⟩
    · rw [if_neg haddress]
      exact ⟨t, ht, hkind, hmac, henabled, entry, hentry, hentryMac, husable⟩
  · exact ⟨t, ht, hkind, hmac, henabled, entry, hentry, hentryMac, husable⟩

-- A client has a target once it is inserted, if only because it had one.
theorem hasEntry_syncClient_self (items : List Client) (now : Nat) (target : TargetTable)
    (hkinded : ∀ t ∈ target.rows, Kinded t) (client : Client) (hclient : client ∈ items)
    (ip name : Bytes) (husable : client.usable ip name) :
    HasEntry items client.mac (syncClient now target client) := by
  have hrow : ∃ t ∈ (target.insertOrIgnore (clientRow client.mac ip name now)).rows,
      t.kind = .client ∧ t.clientMac = some client.mac := by
    unfold TargetTable.insertOrIgnore TargetTable.insert
    split
    · next hconflict =>
      rcases hconflict with ⟨other, hother, ⟨hsome, hmac⟩ | ⟨hsome, hap⟩⟩
      · exact ⟨other, hother, (hkinded other hother).2 hsome, hmac⟩
      · exact absurd hap hsome
    · exact ⟨_, List.mem_append_right _ List.mem_cons_self, rfl, rfl⟩
  rcases hrow with ⟨t, ht, hkind, hmac⟩
  unfold syncClient
  simp only [husable.1, husable.2.1]
  rw [if_pos husable.2.2]
  refine ⟨refreshClient client ip name t, List.mem_map_of_mem ht, ?_⟩
  unfold refreshClient
  rw [if_pos ⟨hkind, hmac⟩]
  exact ⟨hkind, hmac, rfl, client, hclient, rfl, husable⟩

/-- Every entry of the view with a name and an address has its target. -/
theorem hasEntry_syncClients (view : ClientView) (now : Nat) (target : TargetTable)
    (hview : ∀ client ∈ view.items, validMac client.mac = true)
    (hkinded : ∀ t ∈ target.rows, Kinded t) (client : Client) (hclient : client ∈ view.items)
    (ip name : Bytes) (husable : client.usable ip name) :
    HasEntry view.items client.mac (syncClients view now target) := by
  have hkept : ∀ (rest : List Client) (table : TargetTable), (∀ c ∈ rest, c ∈ view.items) →
      HasEntry view.items client.mac table →
        HasEntry view.items client.mac (rest.foldl (syncClient now) table) := by
    intro rest
    induction rest with
    | nil => exact fun _ _ h => h
    | cons c rest ih =>
        intro table hrest h
        exact ih _ (fun other hother => hrest other (List.mem_cons_of_mem _ hother))
          (hasEntry_syncClient _ now table c (hrest c List.mem_cons_self) _ h)
  -- The entry makes the target, and those behind it keep it.
  rcases List.append_of_mem hclient with ⟨before, later, hsplit⟩
  have hbefore : ∀ t ∈ (syncClients ⟨before, view.valid⟩ now target).rows, Kinded t :=
    every_syncClients inherent_kinded ⟨before, view.valid⟩
      (fun c hc => hview c (by rw [hsplit]; exact List.mem_append_left _ hc)) now target hkinded
  unfold syncClients at hbefore ⊢
  have hfold : view.items.foldl (syncClient now) target =
      later.foldl (syncClient now) (syncClient now (before.foldl (syncClient now) target)
        client) := by
    rw [hsplit, List.foldl_append, List.foldl_cons]
  rw [hfold]
  refine hkept later _ (fun c hc => ?_) ?_
  · rw [hsplit]
    exact List.mem_append_right _ (List.mem_cons_of_mem _ hc)
  · exact hasEntry_syncClient_self view.items now _ hbefore client hclient ip name husable

/-- Clients are probed where they are listed. -/
theorem clientsListed_syncTargets (env : TickEnv) (db synced : Db)
    (h : syncTargets env db = some synced) (hkinded : ∀ t ∈ db.target.rows, Kinded t) :
    ClientsListed env synced.target := by
  intro hvalid client hclient husable
  rcases husable with ⟨ip, name, husable⟩
  rcases syncTargets_cases env db synced h with ⟨merged, hmerged, rfl⟩
  have hmergedK : ∀ t ∈ merged.target.rows, Kinded t := fun t ht =>
    every_seed inherent_kinded _ _ _ hkinded t ((mergeLegacyAps_merged _ _ _ hmerged).target.subset ht)
  simp only [if_pos hvalid]
  rcases hasEntry_syncClients env.view env.now merged.target (validMac_of_mem _ _) hmergedK client
    hclient ip name husable with ⟨t, ht, hkind, hmac, henabled, entry, hentry, hentryMac, hused⟩
  refine ⟨t, ht, hkind, hmac, henabled, probedAt_of_mem env _ t ht hused.2.2 fun _ => ⟨hvalid, ?_⟩,
    entry, hentry, hentryMac, hused⟩
  rw [hmac]
  exact (clientPresent_iff env.view (parseClientView_sorted _ _) client.mac).mpr
    ⟨client, hclient, rfl⟩

/-! ### Access points -/

theorem inetPton_of_mem_readAps (apList : Option Bytes) (ap : ApTarget) (h : ap ∈ readAps apList) :
    (inetPton ap.ip).isSome = true := by
  cases apList with
  | none => exact absurd h List.not_mem_nil
  | some contents =>
      simp only [readAps, List.mem_reverse, List.mem_filterMap, Prod.exists] at h
      rcases h with ⟨tag, stop, -, hap⟩
      simp only [apOfTag, Option.bind_eq_bind, Option.bind_eq_some_iff, Option.pure_def,
        Option.some.injEq] at hap
      rcases hap with ⟨id, -, name, -, ip, -, address, haddress, rfl⟩
      rw [haddress, Option.isSome_some]

/-- A target after seeding was there before or has what an entry lists. -/
theorem mem_seed_entry (aps : List ApTarget) (now : Nat) (target : TargetTable) (t : TargetRow)
    (h : t ∈ (seed target aps now).rows) :
    t ∈ target.rows ∨ ∃ entry ∈ aps, t.apId = some entry.id ∧ t.ip = entry.ip ∧
      t.name = entry.name := by
  unfold seed at h
  induction aps generalizing target with
  | nil => exact .inl h
  | cons ap rest ih =>
      rcases ih _ h with hmid | ⟨entry, hentry, hrow⟩
      · rcases target.mem_insertOrIgnore _ t hmid with hold | hnew
        · exact .inl hold
        · exact .inr ⟨ap, List.mem_cons_self, by rw [hnew]; exact ⟨rfl, rfl, rfl⟩⟩
      · exact .inr ⟨entry, List.mem_cons_of_mem _ hentry, hrow⟩

/-- Every entry has a target after seeding. -/
theorem seed_has (aps : List ApTarget) (now : Nat) (target : TargetTable) (ap : ApTarget)
    (hap : ap ∈ aps) : ∃ t ∈ (seed target aps now).rows, t.apId = some ap.id := by
  rcases List.append_of_mem hap with ⟨before, later, rfl⟩
  have hrow : ∀ table : TargetTable, ∃ t ∈ (table.insertOrIgnore (apRow ap now)).rows,
      t.apId = some ap.id := by
    intro table
    unfold TargetTable.insertOrIgnore TargetTable.insert
    split
    · next hconflict =>
      rcases hconflict with ⟨other, hother, ⟨hsome, hmac⟩ | ⟨-, hid⟩⟩
      · exact absurd hmac hsome
      · exact ⟨other, hother, hid⟩
    · exact ⟨_, List.mem_append_right _ List.mem_cons_self, rfl⟩
  rcases hrow (seed target before now) with ⟨t, ht, hid⟩
  refine ⟨t, ?_, hid⟩
  have hfold : seed target (before ++ ap :: later) now =
      seed ((seed target before now).insertOrIgnore (apRow ap now)) later now := by
    unfold seed
    rw [List.foldl_append, List.foldl_cons]
  rw [hfold]
  exact subset_seed _ _ _ t ht

-- Characters of one byte each.
theorem charCount_of_lt (text : Bytes) (h : ∀ c ∈ text, c < 128) :
    charCount false text = text.length := by
  induction text with
  | nil => rfl
  | cons c rest ih =>
      have hlead : decide (0xc0 ≤ c) = false := by
        have hc := h c List.mem_cons_self
        rw [decide_eq_false_iff_not, UInt8.le_iff_toNat_le]
        rw [UInt8.lt_iff_toNat_lt] at hc
        simp only [UInt8.reduceToNat] at hc ⊢
        omega
      rw [charCount, Bool.false_and, if_neg Bool.false_ne_true, hlead,
        ih fun c' hc' => h c' (List.mem_cons_of_mem _ hc'), List.length_cons]

/-- A valid MAC has the length of one. -/
theorem sqliteLength_of_validMac (mac : Bytes) (h : validMac mac = true) :
    sqliteLength mac = 17 := by
  unfold validMac at h
  rw [decide_eq_true_eq] at h
  rw [sqliteLength, charCount_of_lt, h.1]
  intro c hc
  rcases List.getElem_of_mem hc with ⟨i, hi, rfl⟩
  have hmem : (mac[i], i) ∈ mac.zipIdx := by
    rw [List.mem_zipIdx_iff_getElem?, List.getElem?_eq_getElem hi]
  have hchar := List.all_eq_true.mp h.2 _ hmem
  simp only at hchar
  split at hchar
  · rw [of_decide_eq_true hchar]
    decide
  · unfold isxdigit isDigit at hchar
    simp only [decide_eq_true_eq, UInt8.le_iff_toNat_le, UInt8.reduceToNat] at hchar
    rw [UInt8.lt_iff_toNat_lt]
    simp only [UInt8.reduceToNat]
    omega

-- Access points are none of the clients' business.
theorem mem_syncClients_ap (view : ClientView) (now : Nat) (target : TargetTable) (t : TargetRow)
    (ht : t ∈ target.rows) (hkind : t.kind = .ap) : t ∈ (syncClients view now target).rows := by
  unfold syncClients
  generalize view.items = items
  induction items generalizing target with
  | nil => exact ht
  | cons client rest ih =>
      refine ih _ ?_
      unfold syncClient
      split
      · next ip name _ _ =>
        split
        · have hnot : ¬ (t.kind = .client ∧ t.clientMac = some client.mac) := by
            rw [hkind]
            exact fun habs => absurd habs.1 (by decide)
          have hrefresh : refreshClient client ip name t = t := by
            unfold refreshClient
            rw [if_neg hnot]
          rw [← hrefresh]
          exact List.mem_map_of_mem (target.subset_insertOrIgnore _ t ht)
        · exact ht
      · exact ht

/-- Access points are probed where they are listed exactly if the targets that
    they have already are at an address that is listed for them. -/
theorem apsListed_iff (env : TickEnv) (db synced : Db) (h : syncTargets env db = some synced)
    (hkinded : ∀ t ∈ db.target.rows, Kinded t) :
    ApsListed env synced.target ↔ ∀ ap ∈ readAps env.apList, validMac ap.id = true →
      ∀ t ∈ db.target.rows, t.apId = some ap.id →
        ∃ entry ∈ readAps env.apList, entry.id = ap.id ∧ t.ip = entry.ip ∧ t.name = entry.name := by
  -- The target of an access point with a MAC gets through the transaction.
  have hstays : ∀ ap : ApTarget, validMac ap.id = true →
      ∀ t ∈ (seed db.target (readAps env.apList) env.now).rows, t.apId = some ap.id →
        t.kind = .ap ∧ t ∈ synced.target.rows := by
    intro ap hmac t ht hid
    have hkind : t.kind = .ap :=
      (every_seed inherent_kinded _ _ _ hkinded t ht).1 (by rw [hid]; exact Option.some_ne_none _)
    rcases syncTargets_cases env db synced h with ⟨merged, hmerged, rfl⟩
    have hmem : t ∈ merged.target.rows := by
      -- Its identity has the length of a MAC, so no merge deletes it.
      refine mem_mergeLegacyAps _ _ _ hmerged t ht fun ip => ?_
      simp only [TargetRow.isLegacyAt, hid, Option.map_some, sqliteLength_of_validMac ap.id hmac,
        Option.any_some, ne_eq, not_true_eq_false, decide_false, Bool.false_eq_true, false_and,
        and_false]
    refine ⟨hkind, ?_⟩
    by_cases hvalid : env.view.valid = true
    · simp only [if_pos hvalid]
      exact mem_syncClients_ap _ _ _ t hmem hkind
    · simp only [if_neg hvalid]
      exact hmem
  constructor
  · intro hlisted ap hap hmac t ht hid
    rcases hstays ap hmac t (subset_seed _ _ _ t ht) hid with ⟨hkind, hmem⟩
    rcases hlisted ap hap hmac with ⟨t', ht', -, hid', -, hentry⟩
    -- An identity is that of one target.
    have hsame : t = t' := synced.target.eq_of_conflicts t t' hmem ht'
      (.inr ⟨by rw [hid]; exact Option.some_ne_none _, hid.trans hid'.symm⟩)
    rw [hsame]
    exact hentry
  · intro hunmoved ap hap hmac
    rcases seed_has (readAps env.apList) env.now db.target ap hap with ⟨t, ht, hid⟩
    rcases hstays ap hmac t ht hid with ⟨hkind, hmem⟩
    have hentry : ∃ entry ∈ readAps env.apList, entry.id = ap.id ∧ t.ip = entry.ip ∧
        t.name = entry.name := by
      -- A target that was there has the old address; a new one has an entry's.
      rcases mem_seed_entry _ _ _ t ht with hold | ⟨entry, hentry, hentryId, hip, hname⟩
      · exact hunmoved ap hap hmac t hold hid
      · exact ⟨entry, hentry, Option.some.inj (hentryId.symm.trans hid), hip, hname⟩
    refine ⟨t, hmem, hkind, hid, ?_, hentry⟩
    rcases hentry with ⟨entry, hin, -, hip, -⟩
    refine probedAt_of_mem env _ t hmem ?_ fun hclient => ?_
    · rw [hip]
      exact inetPton_of_mem_readAps _ entry hin
    · rw [hkind] at hclient
      exact absurd hclient (by decide)

/-! ### Runs -/

/-- A round that succeeds probes what is listed where it is listed exactly if
    no access point has moved since its target was made. -/
theorem probesListed_iff_unmoved (db : Db) (hkinded : ∀ t ∈ db.target.rows, Kinded t)
    (command : Command) : ProbesListed db command ↔ Unmoved db command := by
  cases command with
  | tick env =>
      constructor
      · intro hlisted hok
        rcases tick_cases env db with heq | ⟨synced, hsync, -⟩
        · rw [heq] at hok
          exact absurd hok (by simp only [Nat.one_ne_zero, not_false_eq_true])
        · exact (apsListed_iff env db synced hsync hkinded).mp (hlisted hok synced hsync).1
      · intro hunmoved hok synced hsync
        exact ⟨(apsListed_iff env db synced hsync hkinded).mpr (hunmoved hok),
          clientsListed_syncTargets env db synced hsync hkinded⟩
  | addClient mac ip name now fails => exact Iff.rfl
  | setEnabled idText enabledText fails => exact Iff.rfl

/-- In a run of commands every round probes what is listed where it is listed,
    exactly if at each of them no listed access point has moved. -/
theorem probesListed_iff (commands : List Command) :
    Meets runCommand ProbesListed emptyDb commands ↔
      Meets runCommand Unmoved emptyDb commands := by
  have hempty : ∀ t ∈ emptyDb.target.rows, Kinded t := fun t ht => absurd ht List.not_mem_nil
  have hstep : ∀ (db : Db) (command : Command), (∀ t ∈ db.target.rows, Kinded t) →
      ∀ t ∈ (runCommand db command).target.rows, Kinded t :=
    fun db command h => every_runCommand inherent_kinded db h command
  exact ⟨Meets.imp_of_invariant _ _ _ _ hstep
      (fun db command h => (probesListed_iff_unmoved db h command).mp) _ _ hempty,
    Meets.imp_of_invariant _ _ _ _ hstep
      (fun db command h => (probesListed_iff_unmoved db h command).mpr) _ _ hempty⟩

/-- A round that finds one access point at an address. -/
def apRound (ip : String) : TickEnv where
  apList := some (ascii ("<ap mac=\"aa:bb:cc:dd:ee:0a\" name=\"Hall\" ip=\"" ++ ip ++ "\"/>"))
  clientXml := none
  apDetail := none
  now := 86400
  replies := fun _ => none
  fails := fun _ => false
  sort := insertionSortFn clientCompare

/-- An access point that gets another address is probed at the old one. -/
theorem probesListed_moved :
    ¬ Meets runCommand ProbesListed emptyDb
      [.tick (apRound "10.0.0.1"), .tick (apRound "10.0.0.2")] := by
  intro h
  have hok : (tick (apRound "10.0.0.2") (runCommand emptyDb (.tick (apRound "10.0.0.1")))).2 = 0 := by
    decide +kernel
  have hrows : (syncTargets (apRound "10.0.0.2")
      (runCommand emptyDb (.tick (apRound "10.0.0.1")))).map (fun synced =>
        synced.target.rows.map TargetRow.ip) = some [ascii "10.0.0.1"] := by decide +kernel
  have hlist : readAps (apRound "10.0.0.2").apList =
      [⟨ascii "aa:bb:cc:dd:ee:0a", ascii "Hall", ascii "10.0.0.2"⟩] := by decide +kernel
  rcases Option.map_eq_some_iff.mp hrows with ⟨synced, hsync, hips⟩
  have hlisted := (h.2.1 hok synced hsync).1
  rw [ApsListed, hlist] at hlisted
  rcases hlisted _ List.mem_cons_self (by decide) with ⟨t, ht, -, -, -, entry, hentry, -, hip, -⟩
  have hold := List.mem_map_of_mem (f := TargetRow.ip) ht
  rw [hips, List.mem_singleton, hip, List.mem_singleton.mp hentry] at hold
  exact absurd hold (by decide)

end Zd1200
