import Zd1200.Monitor.Tick

/-!
# From a Reply to a Round

How a reply of the controller reaches a round, and when a client that it
leaves out is recorded as not associated.

The helper puts whatever body it finds between a prefix and a suffix of its
own, and the collector then looks for the opening tag of the reply. The
opening tag is part of the prefix, so the check passes for every body
(`collectLive_eq`), and a view is valid as soon as its file can be read. A
body that was cut short is therefore a shorter listing like any other, and
the clients behind the cut are recorded as not associated. Only a missing
body makes them unknown.

`gapSafe_iff` says when this does no harm: the body is missing, or the cut
loses no client, or there is no client left out to be recorded. A tag that is
cut behind its MAC is no loss, because the suffix closes it.

## Main definitions

* `copyResponse`: The helper's wrapping of a body.
* `collectLive`: The collector's check of the wrapped file.
* `Listed`: A reply has a client's tag.
* `GapSafe`: No gap is recorded as a disassociation.

## Theorems

* `collectLive_eq`: The check passes for every body.
* `gapSafe_iff`: When no gap is recorded as a disassociation.
-/

namespace Zd1200

/-- The constant `prefix` of `copy_response`. -/
def responsePrefix : Bytes :=
  ascii "<?xml version=\"1.0\" encoding=\"utf-8\"?><!DOCTYPE ajax-response><ajax-response><response type=\"object\" id=\"zd1200.snapshot\">"

/-- The constant `suffix` of `copy_response`. -/
def responseSuffix : Bytes := ascii "</response></ajax-response>"

/-- The file that the helper writes. Without a body, or if it cannot be copied,
    there is none. -/
def copyResponse (body : Option Bytes) : Option Bytes :=
  body.map fun contents => responsePrefix ++ contents ++ responseSuffix

/-- The file that the collector hands to a round: the helper's file if
    `grep -q '<ajax-response>'` finds something in it. -/
def collectLive (body : Option Bytes) : Option Bytes :=
  match copyResponse body with
  | none => none
  | some file => if (findFrom file (ascii "<ajax-response>") 0).isSome then some file else none

/-- The check passes for every body. -/
theorem collectLive_eq (body : Option Bytes) : collectLive body = copyResponse body := by
  cases body with
  | none => rfl
  | some contents =>
      have hfound : findFrom (responsePrefix ++ contents ++ responseSuffix)
          (ascii "<ajax-response>") 0 ≠ none := by
        rw [ne_eq, findFrom_eq_none_iff _ _ _ (by decide +kernel)]
        intro h
        -- The prefix itself has the tag.
        refine h 62 (Nat.zero_le _) ?_
        unfold Occurs
        rw [List.append_assoc, List.drop_append_of_le_length (by decide +kernel)]
        have htag : ascii "<ajax-response>" <+: responsePrefix.drop 62 := by decide +kernel
        exact htag.trans (List.prefix_append _ _)
      simp only [collectLive, copyResponse, Option.map_some]
      rw [if_pos (Option.isSome_iff_ne_none.mpr hfound)]

/-- The reply has a `<client>` tag with this MAC. -/
def Listed (reply mac : Bytes) : Prop := ∃ c ∈ scanClients (cText reply), SameMac mac c.mac

/-- The view has an entry with this MAC. -/
def InView (view : ClientView) (mac : Bytes) : Prop := ∃ c ∈ view.items, SameMac mac c.mac

/-- The view lists every client of the reply. -/
def CompleteView (reply : Bytes) (view : ClientView) : Prop :=
  ∀ c ∈ scanClients (cText reply), InView view c.mac

/-- Every client that the round records as not associated is missing from the
    reply, and the view of the round is a complete listing without it. -/
def GapSafe (reply : Bytes) (env : TickEnv) (db : Db) : Prop :=
  ∀ p, NewResult db (tick env db).1 p → p.state = .notAssociated →
    ∀ t ∈ (tick env db).1.target.rows, t.id = p.targetId → ∀ mac, t.clientMac = some mac →
      ¬ Listed reply mac ∧ CompleteView reply env.view ∧ ¬ InView env.view mac

/-- The listing that a body amounts to, once it is wrapped. -/
def wrappedClients (contents : Bytes) : List Client :=
  scanClients (cText (responsePrefix ++ contents ++ responseSuffix))

/-- No client is lost: the body is missing, or its listing has every client of
    the reply, or it has every client that is enabled in the database. -/
def NothingLost (reply : Bytes) (body : Option Bytes) (db : Db) : Prop :=
  ∀ contents, body = some contents →
    (∀ c ∈ scanClients (cText reply), ∃ c' ∈ wrappedClients contents, SameMac c.mac c'.mac) ∨
      ∀ t ∈ db.target.rows, t.kind = .client → t.enabled = true → ∀ mac, t.clientMac = some mac →
        ∃ c ∈ wrappedClients contents, SameMac mac c.mac

theorem inView_iff (env : TickEnv) (contents mac : Bytes)
    (h : env.clientXml = collectLive (some contents)) :
    InView env.view mac ↔ ∃ c ∈ wrappedClients contents, SameMac mac c.mac := by
  unfold InView TickEnv.view wrappedClients
  rw [h, collectLive_eq]
  simp only [copyResponse, Option.map_some, mem_parseClientView]

theorem view_valid_iff (env : TickEnv) (body : Option Bytes) (h : env.clientXml = collectLive body) :
    env.view.valid = true ↔ body ≠ none := by
  unfold TickEnv.view
  rw [h, collectLive_eq]
  cases body with
  | none => simp only [copyResponse, Option.map_none, parseClientView, ne_eq, not_true_eq_false,
      Bool.false_eq_true]
  | some contents => simp only [copyResponse, Option.map_some, parseClientView, ne_eq, reduceCtorEq,
      not_false_eq_true]

/-- A client that is recorded as not associated is an enabled target that the
    view leaves out. -/
theorem notAssociated_of_new (env : TickEnv) (synced written : Db)
    (hwrite : writeRound env synced = some written) (p : PingRow) (hp : NewResult synced written p)
    (hstate : p.state = .notAssociated) (t : TargetRow) (ht : t ∈ written.target.rows)
    (hid : t.id = p.targetId) :
    t ∈ synced.target.rows ∧ t.enabled = true ∧ t.kind = .client ∧ env.view.valid = true ∧
      clientPresent env.view t.clientMac = false := by
  rcases writeRound_new env synced written hwrite p hp with ⟨item, hitem, hrow⟩
  unfold TickEnv.measurements parallelPing at hitem
  rcases List.mem_mapIdx.mp hitem with ⟨i, hi, rfl⟩
  have hmem := List.getElem_mem hi
  rcases (mem_loadMeasurements _ _ _).mp hmem with ⟨t₀, ht₀, hen, heq⟩
  rw [heq] at hrow
  rw [hrow] at hstate hid
  have hnot : (measurementOf env.view t₀).state = .notAssociated :=
    (pingOutcome_notAssociated_iff _ _ (measurementOf_notAssociated_address env.view t₀)).mp hstate
  rw [writeRound_target env synced written hwrite] at ht
  -- The result carries the number of its target, which names one target.
  have hsame : t = t₀ := synced.target.eq_of_id t t₀ ht ht₀ <| hid.trans <|
    (pingOutcome_id _ _).trans (measurementOf_id env.view t₀)
  rw [hsame]
  exact ⟨ht₀, hen, (measurementOf_notAssociated_iff env.view t₀).mp hnot⟩

/-- An enabled client that a valid view leaves out is recorded as not
    associated. -/
theorem new_of_notAssociated (env : TickEnv) (synced written : Db)
    (hwrite : writeRound env synced = some written) (t : TargetRow) (ht : t ∈ synced.target.rows)
    (hen : t.enabled = true) (hkind : t.kind = .client) (hvalid : env.view.valid = true)
    (habsent : clientPresent env.view t.clientMac = false) :
    t ∈ written.target.rows ∧
      ∃ p, NewResult synced written p ∧ p.state = .notAssociated ∧ t.id = p.targetId := by
  refine ⟨by rwa [writeRound_target env synced written hwrite], ?_⟩
  have hnot := (measurementOf_notAssociated_iff env.view t).mpr ⟨hkind, hvalid, habsent⟩
  have hmem := (mem_loadMeasurements synced.target env.view _).mpr ⟨t, ht, hen, rfl⟩
  rcases List.getElem_of_mem hmem with ⟨i, hi, hget⟩
  have hitem : pingOutcome (env.replies i) (measurementOf env.view t) ∈ env.measurements synced :=
    List.mem_mapIdx.mpr ⟨i, hi, by rw [hget]⟩
  rcases writeRound_writes env synced written hwrite _ hitem with ⟨p, hp, hrow⟩
  refine ⟨p, hp, ?_, ?_⟩
  · rw [hrow]
    exact (pingOutcome_notAssociated_iff _ _
      (measurementOf_notAssociated_address env.view t)).mpr hnot
  · rw [hrow]
    exact ((pingOutcome_id _ _).trans (measurementOf_id env.view t)).symm

/-- A round records no gap as a disassociation exactly when no client is lost:
    always if it writes no results, and otherwise if the body is missing, if
    it lists every client of the reply, or if it lists every client that the
    database has enabled. -/
theorem gapSafe_iff (reply : Bytes) (body : Option Bytes) (env : TickEnv) (db : Db) :
    ((tick { env with clientXml := collectLive body } db).2 ≠ 0 →
      GapSafe reply { env with clientXml := collectLive body } db) ∧
    ((tick { env with clientXml := collectLive body } db).2 = 0 →
      (GapSafe reply { env with clientXml := collectLive body } db ↔ NothingLost reply body db)) := by
  generalize henv : { env with clientXml := collectLive body } = round
  have hxml : round.clientXml = collectLive body := by rw [← henv]
  unfold GapSafe
  rcases tick_cases round db with hfail | ⟨synced, hsync, hfail | ⟨written, hwrite, hok⟩⟩
  · rw [hfail]
    exact ⟨fun _ p hp => absurd rfl (hp.2 p hp.1),
      fun h => absurd h Nat.one_ne_zero⟩
  · rw [hfail]
    exact ⟨fun _ p hp => absurd hp (syncTargets_no_new round db synced hsync p),
      fun h => absurd h Nat.one_ne_zero⟩
  rw [hok]
  refine ⟨fun h => absurd rfl h, fun _ => ?_⟩
  have hsorted : round.view.items.Pairwise clientCompare := parseClientView_sorted _ _
  have habsent_iff : ∀ mac, clientPresent round.view (some mac) = false ↔ ¬ InView round.view mac :=
    fun mac => by rw [InView, ← clientPresent_iff round.view hsorted mac, Bool.not_eq_true]
  constructor
  · -- A client that is left out gets a result, which says that the listing is complete.
    rintro hsafe contents rfl
    by_contra hlost
    rw [not_or] at hlost
    rcases hlost with ⟨hgap, hleft⟩
    apply hleft
    intro t ht hkind hen mac hmac
    by_contra hout
    have hnotin : ¬ InView round.view mac := fun hin =>
      hout ((inView_iff round contents mac hxml).mp hin)
    rcases syncTargets_keeps_client round db synced hsync t ht hkind with ⟨t', ht', hsame, hen'⟩
    have hmac' : t'.clientMac = some mac := hsame.clientMac ▸ hmac
    rcases new_of_notAssociated round synced written hwrite t' ht' (hen' hen)
        (hsame.kind ▸ hkind) ((view_valid_iff round _ hxml).mpr (Option.some_ne_none _))
        (by rw [hmac']; exact (habsent_iff mac).mpr hnotin) with ⟨hmem, p, hp, hstate, hid⟩
    have hcomplete := (hsafe p ((newResult_of_synced round db synced written hsync p).mpr hp)
      hstate t' hmem hid mac hmac').2.1
    exact hgap fun c hc => (inView_iff round contents c.mac hxml).mp (hcomplete c hc)
  · intro hkeep p hp hstate t ht hid mac hmac
    rw [newResult_of_synced round db synced written hsync p] at hp
    rcases notAssociated_of_new round synced written hwrite p hp hstate t ht hid with
      ⟨hmem, hen, hkind, hvalid, habsent⟩
    rw [hmac, habsent_iff] at habsent
    rcases Option.ne_none_iff_exists'.mp ((view_valid_iff round body hxml).mp hvalid) with
      ⟨contents, rfl⟩
    -- The two ways in which nothing is lost.
    rcases hkeep contents rfl with hall | hevery
    · have hcomplete : CompleteView reply round.view := fun c hc =>
        (inView_iff round contents c.mac hxml).mpr (hall c hc)
      refine ⟨fun ⟨c, hc, hsame⟩ => ?_, hcomplete, habsent⟩
      rcases hcomplete c hc with ⟨c', hc', hsame'⟩
      exact habsent ⟨c', hc', hsame.trans hsame'⟩
    · -- Every enabled client is listed, also this one.
      rcases syncTargets_client round db synced hsync t hmem hkind with
        ⟨t₀, ht₀, hsame, hen₀⟩ | ⟨c, hc, hmac'⟩
      · exact absurd ((inView_iff round contents mac hxml).mpr
          (hevery t₀ ht₀ (hsame.kind.trans hkind) (hen₀.trans hen) mac
            (hsame.clientMac.trans hmac))) habsent
      · rw [hmac, Option.some.injEq] at hmac'
        exact absurd ⟨c, hc, congrArg lowercase hmac'⟩ habsent

/-- A round at second 1000 without files, in which no probe is answered. -/
def silentRound (clientXml : Option Bytes) : TickEnv where
  apList := none
  clientXml := clientXml
  apDetail := none
  now := 1000
  replies := fun _ => none
  fails := fun _ => false
  sort := insertionSortFn clientCompare

/-- The target of a client that was added by hand. -/
def phone : TargetRow :=
  { clientRow (ascii "aa:bb:cc:dd:ee:01") (ascii "10.0.0.9") (ascii "Phone") 900 with id := 1 }

/-- The database with that client alone. -/
def phoneDb : Db :=
  (addClient (ascii "aa:bb:cc:dd:ee:01") (ascii "10.0.0.9") (ascii "Phone") 900 false emptyDb).1

/-- A reply that lists the client. -/
def phoneReply : Bytes := ascii "<client mac=\"aa:bb:cc:dd:ee:01\" ip=\"10.0.0.9\"/>"

/-- The reply lists the client, the body that arrives is empty, and the client
    is recorded as not associated. -/
theorem gapSafe_empty_body :
    [] <+: phoneReply ∧ [] ≠ phoneReply ∧
      ¬ GapSafe phoneReply (silentRound (collectLive (some []))) phoneDb := by
  refine ⟨List.nil_prefix, by decide, fun hsafe => ?_⟩
  have hrows : (tick (silentRound (collectLive (some []))) phoneDb).1.pingResult.rows
      = [⟨1, 1000, 1, 1000, false, .notAssociated, none, none, none⟩] := by decide +kernel
  have htargets : (tick (silentRound (collectLive (some []))) phoneDb).1.target.rows = [phone] := by
    decide +kernel
  have hlisted : (scanClients (cText phoneReply)).map Client.mac = [ascii "aa:bb:cc:dd:ee:01"] := by
    decide +kernel
  have hnew : NewResult phoneDb (tick (silentRound (collectLive (some []))) phoneDb).1
      ⟨1, 1000, 1, 1000, false, .notAssociated, none, none, none⟩ :=
    ⟨hrows ▸ List.mem_singleton_self _, fun q hq => absurd hq List.not_mem_nil⟩
  refine (hsafe _ hnew rfl phone (htargets ▸ List.mem_singleton_self _) rfl
    (ascii "aa:bb:cc:dd:ee:01") rfl).1 ?_
  rcases List.mem_map.mp (hlisted ▸ List.mem_singleton_self (ascii "aa:bb:cc:dd:ee:01")) with
    ⟨c, hc, hmac⟩
  exact ⟨c, hc, congrArg lowercase hmac.symm⟩

end Zd1200
