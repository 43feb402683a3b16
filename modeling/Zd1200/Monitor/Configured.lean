import Zd1200.Boot.Options
import Zd1200.Monitor.Disabled

/-!
# Configured Targets

The clients that the environment of the container names, and what becomes of
them in the table of the monitor.

The names are free text of one variable, with a semicolon between targets and
bars inside of them. The text gets into the image and from there to the
controller as a file. When the monitor starts it takes the file apart with the
fields of the shell and calls itself for every target. Every call stands alone:
one that fails leaves the table as it was, and the next one is made.

A field that is not quoted is a pattern of file names for the shell. What such a
pattern stands for is a parameter, and so the targets here are those without
one (`ConfiguredClient.Plain`).

The same MAC may be named twice. `configured_clients` says that the last of
these targets is the one in the table, whatever targets the table had before,
that every later round records a result for it, and that nothing else in the
table has changed.

## Main definitions

* `splitFields`: The fields of the shell.
* `addConfigured`: The calls when the monitor starts.
* `ConfiguredClient`: A target as the environment names it.
* `Has`: A target is in the table.

## Theorems

* `splitFields_intercalate`: Fields that were put together.
* `addClient_spec`: What a call leaves.
* `configureClients_spec`: What the calls leave.
* `afterRounds_keeps_client`, `tick_records_client`: The rounds after that.
* `configured_clients`: From the environment to the table.
-/

namespace Zd1200

/-! ### The start of the monitor -/

/-- The fields of a text with a separator that is not a blank. The last one is
    not there if it is empty. -/
def splitFields (separator : UInt8) (text : Bytes) : List Bytes :=
  let fields := text.splitOn separator
  if fields.getLast? = some [] then fields.dropLast else fields

/-- A call for every field with three parts, with its time and whether it
    fails. -/
def addConfigured (expand : Bytes → List Bytes) (calls : Nat → Nat × Bool) :
    Nat → List Bytes → Db → Db
  | _, [], db => db
  | n, target :: rest, db =>
      match (splitFields 124 target).flatMap expand with
      | [mac, ip, name] =>
          addConfigured expand calls (n + 1) rest
            (addClient mac ip name (calls n).1 (calls n).2 db).1
      | _ => addConfigured expand calls (n + 1) rest db

/-- What the monitor does with `client-targets.conf` when it starts. -/
def startClients (expand : Bytes → List Bytes) (calls : Nat → Nat × Bool) (file : Option Bytes)
    (db : Db) : Db :=
  match file with
  | none => db
  | some text =>
      addConfigured expand calls 0 ((splitFields 59 (commandOutput text)).flatMap expand) db

/-! ### Targets -/

structure ConfiguredClient where
  mac : Bytes
  ip : Bytes
  name : Bytes
  deriving DecidableEq

/-- `MAC|IP|NAME`. -/
def ConfiguredClient.text (c : ConfiguredClient) : Bytes := [124].intercalate [c.mac, c.ip, c.name]

/-- What the variable of the environment holds for these targets. -/
def clientTargets (clients : List ConfiguredClient) : Bytes :=
  [59].intercalate (clients.map ConfiguredClient.text)

/-- `*`, `?`, `[` and the backslash make a pattern. -/
def patternBytes : List UInt8 := [42, 63, 91, 92]

/-- Characters that the shell does not hand on: zero, the line end, those of
    patterns and the separators. -/
def isSpecial (c : UInt8) : Bool := c ∈ 0 :: 10 :: 59 :: 124 :: patternBytes

/-- A target that the monitor takes, with a name without special characters. -/
structure ConfiguredClient.Plain (c : ConfiguredClient) : Prop where
  mac : validMac c.mac = true
  ip : inetPton c.ip ≠ none
  name : c.name ≠ []
  noSpecial : ∀ byte ∈ c.name, isSpecial byte = false

/-- A word that is no pattern. -/
def NoPattern (word : Bytes) : Prop := ∀ c ∈ word, c ∉ patternBytes

/-- The target is in the table and is switched on. -/
def Has (db : Db) (c : ConfiguredClient) : Prop :=
  ∃ t ∈ db.target.rows, t.kind = .client ∧ t.clientMac = some c.mac ∧ t.ip = c.ip ∧
    t.name = c.name ∧ t.enabled = true

/-! ### One call -/

/-- A table where a MAC belongs to a client. -/
def ClientMacs (db : Db) : Prop := ∀ t ∈ db.target.rows, Kinded t

/-- What a call leaves. -/
theorem addClient_spec (c : ConfiguredClient) (hc : c.Plain) (now : Nat) (fails : Bool) (db : Db)
    (hkinded : ClientMacs db) :
    let after := (addClient c.mac c.ip c.name now fails db).1
    (fails = false → Has after c) ∧
      (∀ t, t.clientMac ≠ some c.mac → (t ∈ after.target.rows ↔ t ∈ db.target.rows)) ∧
      after.pingResult = db.pingResult ∧ after.apRadioSample = db.apRadioSample ∧
      after.meshLinkSample = db.meshLinkSample := by
  have hvalid : ¬ (validMac c.mac = false ∨ inetPton c.ip = none ∨ c.name = []) := by
    rintro (h | h | h)
    · exact absurd hc.mac (by rw [h]; exact Bool.false_ne_true)
    · exact hc.ip h
    · exact hc.name h
  intro after
  have hafter : after = (addClient c.mac c.ip c.name now fails db).1 := rfl
  rw [addClient, if_neg hvalid] at hafter
  cases fails with
  | true =>
      rw [if_pos rfl] at hafter
      rw [hafter]
      exact ⟨fun h => absurd h.symm Bool.false_ne_true, fun t _ => Iff.rfl, rfl, rfl, rfl⟩
  | false =>
      rw [if_neg Bool.false_ne_true] at hafter
      by_cases hthere : ∃ t ∈ db.target.rows, t.kind = .client ∧ t.clientMac = some c.mac
      · -- The target is there, and gets the address and the name.
        rw [if_pos hthere] at hafter
        rw [hafter]
        refine ⟨fun _ => ?_, fun t hother => ?_, rfl, rfl, rfl⟩
        · rcases hthere with ⟨t, ht, hkind, hmac⟩
          refine ⟨renameClient c.mac c.ip c.name t, List.mem_map_of_mem ht, ?_⟩
          rw [renameClient, if_pos ⟨hkind, hmac⟩]
          exact ⟨hkind, hmac, rfl, rfl, rfl⟩
        · have hrename : ∀ u, renameClient c.mac c.ip c.name u = t → u = t := by
            intro u hu
            rw [renameClient] at hu
            split at hu
            · next hclient =>
              rw [← hu] at hother
              exact absurd hclient.2 hother
            · exact hu
          constructor
          · intro h
            rcases List.mem_map.mp h with ⟨u, hu, heq⟩
            exact hrename u heq ▸ hu
          · intro h
            refine List.mem_map.mpr ⟨t, h, ?_⟩
            rw [renameClient, if_neg fun hclient => hother hclient.2]
      · rw [if_neg hthere] at hafter
        -- No target has the MAC, so a new one can have it.
        have hfree : ¬ ∃ other ∈ db.target.rows,
            other.conflicts (clientRow c.mac c.ip c.name now) := by
          rintro ⟨other, hmem, ⟨hsome, hmac⟩ | ⟨hsome, hap⟩⟩
          · exact hthere ⟨other, hmem, (hkinded other hmem).2 hsome, hmac⟩
          · exact hsome hap
        rw [TargetTable.insert, dif_neg hfree] at hafter
        rw [hafter]
        have hnew : Has after c := by
          rw [hafter]
          exact ⟨_, List.mem_append_right _ (List.mem_singleton_self _), rfl, rfl, rfl, rfl, rfl⟩
        refine ⟨fun _ => hafter ▸ hnew, fun t hother => ?_, rfl, rfl, rfl⟩
        constructor
        · intro h
          rcases List.mem_append.mp h with h | h
          · exact h
          · rw [List.mem_singleton.mp h] at hother
            exact absurd rfl hother
        · exact fun h => List.mem_append_left _ h

/-! ### All calls -/

/-- The calls for targets that are taken apart already. -/
def configureClients (calls : Nat → Nat × Bool) : Nat → List ConfiguredClient → Db → Db
  | _, [], db => db
  | n, c :: rest, db =>
      configureClients calls (n + 1) rest (addClient c.mac c.ip c.name (calls n).1 (calls n).2 db).1

theorem clientMacs_addClient (db : Db) (h : ClientMacs db) (c : ConfiguredClient) (now : Nat)
    (fails : Bool) : ClientMacs (addClient c.mac c.ip c.name now fails db).1 :=
  every_runCommand inherent_kinded db h (.addClient c.mac c.ip c.name now fails)

/-- What other calls leave alone. -/
theorem has_addClient (db : Db) (hkinded : ClientMacs db) (c other : ConfiguredClient)
    (hother : other.Plain) (hmac : other.mac ≠ c.mac) (now : Nat) (fails : Bool) (h : Has db c) :
    Has (addClient other.mac other.ip other.name now fails db).1 c := by
  rcases h with ⟨t, ht, hkind, htmac, hip, hname, henabled⟩
  have hspec := addClient_spec other hother now fails db hkinded
  refine ⟨t, (hspec.2.1 t ?_).mpr ht, hkind, htmac, hip, hname, henabled⟩
  rw [htmac]
  exact fun heq => hmac (Option.some.inj heq).symm

theorem has_configureClients (calls : Nat → Nat × Bool) (clients : List ConfiguredClient)
    (hclients : ∀ c ∈ clients, c.Plain) (c : ConfiguredClient)
    (hmac : ∀ other ∈ clients, other.mac ≠ c.mac) (n : Nat) (db : Db) (hkinded : ClientMacs db)
    (h : Has db c) : Has (configureClients calls n clients db) c := by
  induction clients generalizing n db with
  | nil => exact h
  | cons other rest ih =>
      rw [configureClients]
      exact ih (fun d hd => hclients d (List.mem_cons_of_mem _ hd))
        (fun d hd => hmac d (List.mem_cons_of_mem _ hd)) (n + 1) _
        (clientMacs_addClient db hkinded other _ _)
        (has_addClient db hkinded c other (hclients other List.mem_cons_self)
          (hmac other List.mem_cons_self) _ _ h)

/-- The last target with a MAC is in the table if its call did not fail. -/
theorem configureClients_has (calls : Nat → Nat × Bool) (front : List ConfiguredClient)
    (c : ConfiguredClient) (back : List ConfiguredClient)
    (hclients : ∀ d ∈ front ++ c :: back, d.Plain) (hmac : ∀ later ∈ back, later.mac ≠ c.mac)
    (n : Nat) (hcall : (calls (n + front.length)).2 = false) (db : Db) (hkinded : ClientMacs db) :
    Has (configureClients calls n (front ++ c :: back) db) c := by
  induction front generalizing n db with
  | nil =>
      rw [List.nil_append, configureClients]
      have hspec := addClient_spec c (hclients c (List.mem_append_right _ List.mem_cons_self))
        (calls n).1 (calls n).2 db hkinded
      have hback : ∀ d ∈ back, d.Plain := fun d hd =>
        hclients d (List.mem_append_right _ (List.mem_cons_of_mem _ hd))
      exact has_configureClients calls back hback c hmac (n + 1) _
        (clientMacs_addClient db hkinded c _ _) (hspec.1 hcall)
  | cons first rest ih =>
      rw [List.cons_append, configureClients]
      refine ih (fun d hd => hclients d (List.mem_cons_of_mem _ hd)) (n + 1) ?_ _
        (clientMacs_addClient db hkinded first _ _)
      rw [List.length_cons] at hcall
      rwa [Nat.add_right_comm]

/-- The rest of the database is as it was. -/
theorem configureClients_others (calls : Nat → Nat × Bool) (clients : List ConfiguredClient)
    (hclients : ∀ c ∈ clients, c.Plain) (n : Nat) (db : Db) (hkinded : ClientMacs db) :
    let after := configureClients calls n clients db
    (∀ t, (∀ c ∈ clients, t.clientMac ≠ some c.mac) →
        (t ∈ after.target.rows ↔ t ∈ db.target.rows)) ∧
      after.pingResult = db.pingResult ∧ after.apRadioSample = db.apRadioSample ∧
      after.meshLinkSample = db.meshLinkSample := by
  induction clients generalizing n db with
  | nil => exact ⟨fun t _ => Iff.rfl, rfl, rfl, rfl⟩
  | cons c rest ih =>
      have hspec := addClient_spec c (hclients c List.mem_cons_self) (calls n).1 (calls n).2 db
        hkinded
      have ih := ih (fun d hd => hclients d (List.mem_cons_of_mem _ hd)) (n + 1) _
        (clientMacs_addClient db hkinded c (calls n).1 (calls n).2)
      rw [configureClients]
      refine ⟨fun t ht => ?_, ih.2.1.trans hspec.2.2.1, ih.2.2.1.trans hspec.2.2.2.1,
        ih.2.2.2.trans hspec.2.2.2.2⟩
      exact (ih.1 t fun d hd => ht d (List.mem_cons_of_mem _ hd)).trans
        (hspec.2.1 t (ht c List.mem_cons_self))

/-! ### The text of the targets -/

/-- Characters of a class without special ones. -/
theorem isSpecial_eq_false (ok : UInt8 → Bool)
    (h : ((0 : UInt8) :: 10 :: 59 :: 124 :: patternBytes).all (fun d => !ok d) = true) {c : UInt8}
    (hc : ok c = true) : isSpecial c = false := by
  by_contra hspecial
  rw [Bool.not_eq_false, isSpecial, decide_eq_true_eq] at hspecial
  have hnot := List.all_eq_true.mp h c hspecial
  rw [hc] at hnot
  exact absurd hnot (by decide)

/-- A pattern has a special character in it that is no bar. -/
theorem isSpecial_of_pattern {c : UInt8} (h : c ∈ patternBytes) :
    isSpecial c = true ∧ c ≠ 124 := by
  have hall : patternBytes.all (fun d => isSpecial d && d != 124) = true := by decide
  have hc := List.all_eq_true.mp hall c h
  rw [Bool.and_eq_true, bne_iff_ne] at hc
  exact hc

theorem noSpecial_of_validMac {mac : Bytes} (h : validMac mac = true) :
    ∀ c ∈ mac, isSpecial c = false := by
  intro c hc
  rw [validMac, decide_eq_true_eq, List.all_eq_true] at h
  rcases List.mem_iff_getElem.mp hc with ⟨i, hi, rfl⟩
  have hbyte := h.2 (mac[i], i) (List.mem_zipIdx_iff_getElem?.mpr (List.getElem?_eq_getElem hi))
  by_cases hcolon : i % 3 = 2
  · simp only [hcolon, if_true, decide_eq_true_eq] at hbyte
    rw [hbyte]
    decide
  · simp only [hcolon, if_false] at hbyte
    exact isSpecial_eq_false isxdigit (by decide) hbyte

/-- Every item has its result. -/
theorem mapM_some_isSome {α β : Type} {f : α → Option β} :
    ∀ {xs : List α} {ys : List β}, xs.mapM f = some ys → ∀ x ∈ xs, ∃ y, f x = some y
  | [], _, _, x, hx => absurd hx List.not_mem_nil
  | first :: xs, ys, h, x, hx => by
      rw [List.mapM_cons] at h
      rcases Option.bind_eq_some_iff.mp h with ⟨y, hy, h⟩
      rcases Option.bind_eq_some_iff.mp h with ⟨rest, hrest, -⟩
      rcases List.mem_cons.mp hx with rfl | hx
      · exact ⟨y, hy⟩
      · exact mapM_some_isSome hrest x hx

theorem noSpecial_of_inetPton {ip : Bytes} (h : inetPton ip ≠ none) :
    ∀ c ∈ ip, isSpecial c = false := by
  intro c hc
  rcases Option.ne_none_iff_exists'.mp h with ⟨octets, hoctets⟩
  rw [inetPton] at hoctets
  split at hoctets
  · -- A character separates two octets, or it is in one of them.
    have hsplit : [46].intercalate (ip.splitOn 46) = ip := List.intercalate_splitOn 46
    rw [← hsplit] at hc
    rcases mem_intercalate hc with rfl | ⟨part, hpart, hc⟩
    · decide
    · rcases mapM_some_isSome hoctets part hpart with ⟨n, hn⟩
      rw [octet] at hn
      split at hn
      · next hoctet =>
        exact isSpecial_eq_false isDigit (by decide) (List.all_eq_true.mp hoctet.1 c hc)
      · exact absurd hn (by simp only [reduceCtorEq, not_false_eq_true])
  · exact absurd hoctets (by simp only [reduceCtorEq, not_false_eq_true])

/-- The three parts of a target. -/
theorem noSpecial_parts {c : ConfiguredClient} (hc : c.Plain) :
    ∀ part ∈ [c.mac, c.ip, c.name], ∀ byte ∈ part, isSpecial byte = false := by
  intro part hpart
  simp only [List.mem_cons, List.not_mem_nil, or_false] at hpart
  rcases hpart with rfl | rfl | rfl
  · exact noSpecial_of_validMac hc.mac
  · exact noSpecial_of_inetPton hc.ip
  · exact hc.noSpecial

/-- What is in the text of the targets: separators and characters without a
    meaning. -/
theorem mem_clientTargets {clients : List ConfiguredClient} (hclients : ∀ c ∈ clients, c.Plain)
    {byte : UInt8} (h : byte ∈ clientTargets clients) :
    byte = 59 ∨ byte = 124 ∨ isSpecial byte = false := by
  rcases mem_intercalate h with hsep | ⟨line, hline, hbyte⟩
  · exact Or.inl hsep
  · rcases List.mem_map.mp hline with ⟨c, hc, rfl⟩
    rcases mem_intercalate hbyte with hbar | ⟨part, hpart, hbyte⟩
    · exact Or.inr (Or.inl hbar)
    · exact Or.inr (Or.inr (noSpecial_parts (hclients c hc) part hpart byte hbyte))

/-- Fields that were put together come back, as long as the last one is not
    empty. -/
theorem splitFields_intercalate (separator : UInt8) (fields : List Bytes)
    (hsep : ∀ field ∈ fields, separator ∉ field) (hne : fields ≠ [])
    (hlast : fields.getLast? ≠ some []) :
    splitFields separator ([separator].intercalate fields) = fields := by
  rw [splitFields, List.splitOn_intercalate separator hsep hne]
  exact if_neg hlast

/-- Words without patterns stand for themselves. -/
theorem flatMap_expand {expand : Bytes → List Bytes}
    (hexpand : ∀ word, NoPattern word → expand word = [word]) (words : List Bytes)
    (h : ∀ word ∈ words, NoPattern word) : words.flatMap expand = words := by
  induction words with
  | nil => rfl
  | cons word rest ih =>
      rw [List.flatMap_cons, hexpand word (h word List.mem_cons_self),
        ih fun other hother => h other (List.mem_cons_of_mem _ hother), List.singleton_append]

/-- A target is taken apart into its three parts. -/
theorem expand_text {expand : Bytes → List Bytes}
    (hexpand : ∀ word, NoPattern word → expand word = [word]) {c : ConfiguredClient}
    (hc : c.Plain) :
    (splitFields 124 c.text).flatMap expand = [c.mac, c.ip, c.name] := by
  have hparts := noSpecial_parts hc
  have hfields : splitFields 124 c.text = [c.mac, c.ip, c.name] := by
    refine splitFields_intercalate 124 _ (fun part hpart hmem => ?_) (List.cons_ne_nil _ _) ?_
    · exact absurd (hparts part hpart 124 hmem) (by decide)
    · exact fun h => hc.name (Option.some.inj h)
  rw [hfields]
  refine flatMap_expand hexpand _ fun part hpart byte hbyte hpattern => ?_
  have hplain := hparts part hpart byte hbyte
  exact absurd (isSpecial_of_pattern hpattern).1 (by rw [hplain]; exact Bool.false_ne_true)

theorem addConfigured_text {expand : Bytes → List Bytes}
    (hexpand : ∀ word, NoPattern word → expand word = [word]) (calls : Nat → Nat × Bool)
    (clients : List ConfiguredClient) (hclients : ∀ c ∈ clients, c.Plain) (n : Nat) (db : Db) :
    addConfigured expand calls n (clients.map ConfiguredClient.text) db =
      configureClients calls n clients db := by
  induction clients generalizing n db with
  | nil => rfl
  | cons c rest ih =>
      rw [List.map_cons, addConfigured, expand_text hexpand (hclients c List.mem_cons_self),
        configureClients]
      exact ih (fun d hd => hclients d (List.mem_cons_of_mem _ hd)) (n + 1) _

theorem mem_text {c : ConfiguredClient} (hc : c.Plain) {byte : UInt8} (h : byte ∈ c.text) :
    byte = 124 ∨ isSpecial byte = false := by
  rcases mem_intercalate h with hbar | ⟨part, hpart, hbyte⟩
  · exact Or.inl hbar
  · exact Or.inr (noSpecial_parts hc part hpart byte hbyte)

theorem text_ne_nil (c : ConfiguredClient) : c.text ≠ [] := by
  have hbar : (124 : UInt8) ∈ c.text := by
    rw [ConfiguredClient.text, List.intercalate_cons_cons]
    exact List.mem_append_left _ (List.mem_append_right _ (List.mem_singleton_self _))
  exact List.ne_nil_of_mem hbar

theorem splitFields_clientTargets (clients : List ConfiguredClient)
    (hclients : ∀ c ∈ clients, c.Plain) (hne : clients ≠ []) :
    splitFields 59 (clientTargets clients) = clients.map ConfiguredClient.text := by
  refine splitFields_intercalate 59 _ (fun text htext hmem => ?_) ?_ fun hlast => ?_
  · rcases List.mem_map.mp htext with ⟨c, hc, rfl⟩
    rcases mem_text (hclients c hc) hmem with hbar | hplain
    · exact absurd hbar (by decide)
    · exact absurd hplain (by decide)
  · exact fun hnil => hne (List.map_eq_nil_iff.mp hnil)
  · rcases List.mem_map.mp (List.mem_of_getLast? hlast) with ⟨c, -, hnil⟩
    exact text_ne_nil c hnil

/-- The file of the image is taken apart into the targets that the environment
    names. -/
theorem startClients_clientTargets {expand : Bytes → List Bytes}
    (hexpand : ∀ word, NoPattern word → expand word = [word]) (calls : Nat → Nat × Bool)
    (clients : List ConfiguredClient) (hclients : ∀ c ∈ clients, c.Plain) (db : Db) :
    startClients expand calls
        (if clientTargets clients = [] then none else some (clientTargets clients ++ [10])) db =
      configureClients calls 0 clients db := by
  by_cases hclients_nil : clients = []
  · rw [hclients_nil]
    rfl
  · have hfields := splitFields_clientTargets clients hclients hclients_nil
    have hne : clientTargets clients ≠ [] := by
      intro hnil
      rw [hnil] at hfields
      exact hclients_nil (List.map_eq_nil_iff.mp hfields.symm)
    have hread : commandOutput (clientTargets clients) = clientTargets clients := by
      refine commandOutput_eq_self _ fun byte hbyte => ?_
      rcases mem_clientTargets hclients hbyte with rfl | rfl | hplain
      · decide
      · decide
      · exact ⟨fun h => absurd (h ▸ hplain) (by decide), fun h => absurd (h ▸ hplain) (by decide)⟩
    have hwords : ∀ word ∈ clients.map ConfiguredClient.text, NoPattern word := by
      intro word hword byte hbyte hpattern
      rcases List.mem_map.mp hword with ⟨c, hc, rfl⟩
      rcases mem_text (hclients c hc) hbyte with hbar | hplain
      · exact (isSpecial_of_pattern hpattern).2 hbar
      · exact absurd (isSpecial_of_pattern hpattern).1 (by rw [hplain]; exact Bool.false_ne_true)
    rw [if_neg hne, startClients, commandOutput_line, hread, hfields,
      flatMap_expand hexpand _ hwords]
    exact addConfigured_text hexpand calls clients hclients 0 db

/-! ### The rounds after the start -/

/-- The database after some rounds. -/
def afterRounds (rounds : List TickEnv) (db : Db) : Db :=
  rounds.foldl (fun db round => (tick round db).1) db

/-- A round keeps a client, and leaves it enabled. -/
theorem tick_keeps_client (round : TickEnv) (db : Db) (t : TargetRow) (ht : t ∈ db.target.rows)
    (hkind : t.kind = .client) (henabled : t.enabled = true) :
    ∃ t' ∈ (tick round db).1.target.rows, SameTarget t t' ∧ t'.enabled = true := by
  rcases tick_cases round db with hfail | ⟨synced, hsync, hend⟩
  · rw [hfail]
    exact ⟨t, ht, SameTarget.refl t, henabled⟩
  · rcases syncTargets_keeps_client round db synced hsync t ht hkind with ⟨t', ht', hsame, hen⟩
    rcases hend with hfail | ⟨written, hwrite, hok⟩
    · rw [hfail]
      exact ⟨t', ht', hsame, hen henabled⟩
    · rw [hok, writeRound_target round synced written hwrite]
      exact ⟨t', ht', hsame, hen henabled⟩

theorem afterRounds_keeps_client (rounds : List TickEnv) (db : Db) (t : TargetRow)
    (ht : t ∈ db.target.rows) (hkind : t.kind = .client) (henabled : t.enabled = true) :
    ∃ t' ∈ (afterRounds rounds db).target.rows, SameTarget t t' ∧ t'.enabled = true := by
  induction rounds generalizing db t with
  | nil => exact ⟨t, ht, SameTarget.refl t, henabled⟩
  | cons round rest ih =>
      rcases tick_keeps_client round db t ht hkind henabled with ⟨mid, hmid, hsame, hen⟩
      rcases ih _ mid hmid (hsame.kind.symm.trans hkind) hen with ⟨t', ht', hsame', hen'⟩
      exact ⟨t', ht', hsame.trans hsame', hen'⟩

/-- A round that succeeds records a result for an enabled client. -/
theorem tick_records_client (round : TickEnv) (db : Db) (t : TargetRow) (ht : t ∈ db.target.rows)
    (hkind : t.kind = .client) (henabled : t.enabled = true) (hok : (tick round db).2 = 0) :
    ∃ p, NewResult db (tick round db).1 p ∧ p.targetId = t.id := by
  rcases tick_success round db hok with ⟨synced, hsync, hone, -⟩
  rcases syncTargets_keeps_client round db synced hsync t ht hkind with ⟨t', ht', hsame, hen⟩
  rcases hone t' ht' (hen henabled) with ⟨p, ⟨hp, hid⟩, -⟩
  exact ⟨p, hp, hid.trans hsame.id.symm⟩

/-! ### From the environment to the table -/

/-- The targets that the environment names are in the table when the monitor has
    started, the last one of those with one MAC, and every later round that
    succeeds records a result for each. What the table has of other targets
    stays. -/
theorem configured_clients (workDir : Bytes) (tools : InitrdTools) (inv : Invocation) (s : Settings)
    (entries : List (Bytes × Bytes)) (hs : settings workDir tools inv = some s)
    (hentries : staging workDir tools inv s = some entries) (clients : List ConfiguredClient)
    (hclients : ∀ c ∈ clients, c.Plain)
    (htargets : inv.env.zdPingClientTargets = clientTargets clients)
    (expand : Bytes → List Bytes) (hexpand : ∀ word, NoPattern word → expand word = [word])
    (calls : Nat → Nat × Bool) (db : Db) (hdb : Reachable db) :
    let after := startClients expand calls (entries.lookup (ascii "zd-ping-client-targets")) db
    (∀ front c back, clients = front ++ c :: back → (∀ later ∈ back, later.mac ≠ c.mac) →
        (calls front.length).2 = false →
        ∃ t ∈ after.target.rows, t.kind = .client ∧ t.clientMac = some c.mac ∧ t.ip = c.ip ∧
          t.name = c.name ∧
          ∀ rounds round, (tick round (afterRounds rounds after)).2 = 0 →
            ∃ p, NewResult (afterRounds rounds after) (tick round (afterRounds rounds after)).1 p ∧
              p.targetId = t.id) ∧
      (∀ t, (∀ c ∈ clients, t.clientMac ≠ some c.mac) →
        (t ∈ after.target.rows ↔ t ∈ db.target.rows)) ∧
      after.pingResult = db.pingResult ∧ after.apRadioSample = db.apRadioSample ∧
      after.meshLinkSample = db.meshLinkSample := by
  intro after
  have hfile := (lookup_optionFiles workDir tools inv s entries hentries).2.2
  have hname := (settings_eq workDir tools inv s hs).2.2.2.2.2.2
  have hkinded : ClientMacs db := kinded_of_reachable db hdb
  have hafter : after = configureClients calls 0 clients db := by
    rw [← startClients_clientTargets hexpand calls clients hclients db, ← htargets, ← hname,
      ← hfile]
  rw [hafter]
  refine ⟨?_, configureClients_others calls clients hclients 0 db hkinded⟩
  rintro front c back rfl hlater hcall
  rcases configureClients_has calls front c back hclients hlater 0 (by rwa [Nat.zero_add]) db
    hkinded with ⟨t, ht, hkind, hmac, hip, htname, henabled⟩
  refine ⟨t, ht, hkind, hmac, hip, htname, fun rounds round hok => ?_⟩
  rcases afterRounds_keeps_client rounds _ t ht hkind henabled with ⟨t', ht', hsame, hen⟩
  rcases tick_records_client round _ t' ht' (hsame.kind.symm.trans hkind) hen hok with ⟨p, hp, hid⟩
  exact ⟨p, hp, hid.trans hsame.id.symm⟩

/-- A phone that is named twice, and a tablet. -/
def namedClients : List ConfiguredClient :=
  [⟨ascii "aa:bb:cc:dd:ee:01", ascii "10.0.0.7", ascii "Phone"⟩,
    ⟨ascii "aa:bb:cc:dd:ee:02", ascii "10.0.0.8", ascii "Tablet"⟩,
    ⟨ascii "aa:bb:cc:dd:ee:01", ascii "10.0.0.9", ascii "New phone"⟩]

theorem namedClients_plain : ∀ c ∈ namedClients, c.Plain := by
  have hall : ∀ c ∈ namedClients, validMac c.mac = true ∧ (inetPton c.ip).isSome = true ∧
      c.name ≠ [] ∧ c.name.all (fun byte => !isSpecial byte) = true := by
    decide +kernel
  intro c hc
  rcases hall c hc with ⟨hmac, hip, hname, hplain⟩
  refine ⟨hmac, fun hnone => ?_, hname, fun byte hbyte => ?_⟩
  · rw [hnone] at hip
    exact absurd hip Bool.false_ne_true
  · exact (Bool.not_eq_true' _).mp (List.all_eq_true.mp hplain byte hbyte)

/-- The invocation with these targets. -/
def namedInvocation : Invocation :=
  { datedInvocation with
    env := { datedInvocation.env with zdPingClientTargets := clientTargets namedClients } }

def namedSettings : Settings :=
  { datedSettings with pingClientTargets := clientTargets namedClients }

def namedEntries : List (Bytes × Bytes) :=
  (staging [] datedTools namedInvocation namedSettings).getD []

/-- The phone gets the second address, and the third round has a result for
    it. -/
theorem configured_clients_named :
    let after := startClients (fun word => [word]) (fun n => (n, false))
      (namedEntries.lookup (ascii "zd-ping-client-targets")) emptyDb
    let before := afterRounds [silentRound none, silentRound (some [])] after
    ∃ t ∈ after.target.rows,
      t.kind = .client ∧ t.clientMac = some (ascii "aa:bb:cc:dd:ee:01") ∧
        t.ip = ascii "10.0.0.9" ∧ t.name = ascii "New phone" ∧
        ∃ p, NewResult before (tick (silentRound none) before).1 p ∧ p.targetId = t.id := by
  have hs : settings [] datedTools namedInvocation = some namedSettings := by rfl
  have hentries : staging [] datedTools namedInvocation namedSettings = some namedEntries := by
    have hsome : (staging [] datedTools namedInvocation namedSettings).isSome = true := by
      decide +kernel
    rcases Option.isSome_iff_exists.mp hsome with ⟨entries, hentries⟩
    rw [namedEntries, hentries, Option.getD_some]
  rcases (configured_clients [] datedTools namedInvocation namedSettings namedEntries hs hentries
    namedClients namedClients_plain rfl (fun word => [word]) (fun _ _ => rfl) (fun n => (n, false))
    emptyDb ⟨[], rfl⟩).1 (namedClients.take 2) ⟨ascii "aa:bb:cc:dd:ee:01", ascii "10.0.0.9",
      ascii "New phone"⟩ [] rfl (fun _ h => absurd h List.not_mem_nil) rfl with
    ⟨t, ht, hkind, hmac, hip, hname, hrounds⟩
  exact ⟨t, ht, hkind, hmac, hip, hname, hrounds _ _ (by decide +kernel)⟩

end Zd1200
