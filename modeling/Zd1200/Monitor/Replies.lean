import Mathlib.Data.List.Count
import Mathlib.Data.List.Nodup
import Zd1200.Monitor.Probes

/-!
# Replies Go to Their Requests

What probing makes of the items, whatever the network does.

Every reply carries the index of its request. In a batch that is open it can
only be taken for a request of this batch, and only once, so an item is
answered by the first reply to its own request that is received while its batch
is open. A batch counts what has been sent and is not answered, and the count
is right as long as nothing answers a request that could not be sent.

## Main definitions

* `Genuine`: A message that is a reply to something that was sent, or none of
  this program's.
* `Waiting`: The requests of a batch that are sent and not answered.
* `Settles`: How far a batch has come.
* `BatchEnds`: The loop of a batch has a last turn.
* `Attributed`: What is expected of probing.

## Theorems

* `replyPosition_echo`: A reply tells its request.
* `settles_sendBatch`, `settles_listenOnce`: The loops over a batch.
* `probe_isSome`: Probing comes to its end.
* `attributed_of_probe`: What it comes to then.
* `probe_eq_parallelPing`: Probing is what a round takes it for.
* `probe_attributed`: All items, under any order of messages.
-/

namespace Zd1200

/-! ### Messages -/

/-- A reply tells the index of its request. -/
theorem replyPosition_echo (identifier : UInt16) (i : Nat) (hi : i < 2 ^ 32) (header : Bytes)
    (checksum : Bytes) (hheader : 20 ≤ header.length)
    (hlength : header.length = ((header.headD 0).toNat % 16) * 4) (hchecksum : checksum.length = 2) :
    replyPosition identifier (header ++ ([0, 0] ++ checksum ++ echoTail identifier i)) = some i := by
  have hhead : (header ++ ([0, 0] ++ checksum ++ echoTail identifier i)).headD 0 =
      header.headD 0 := by
    cases header with
    | nil => exact absurd hheader (by decide)
    | cons first rest => rfl
  have htail : (echoTail identifier i).length = 12 := by
    simp only [echoTail, List.length_append, length_beBytes]
  unfold replyPosition
  simp only
  rw [hhead, ← hlength, List.drop_left]
  have hid : beNat (beBytes 2 identifier.toNat) = identifier.toNat :=
    beNat_beBytes 2 _ identifier.toNat_lt
  have hmagic : beNat (beBytes 4 icmpMagic) = icmpMagic := beNat_beBytes 4 _ (by decide)
  have hindex : beNat (beBytes 4 i) = i := beNat_beBytes 4 i (by omega)
  -- The fields of the packet are where they were written.
  have hfour : ([0, 0] ++ checksum ++ echoTail identifier i).drop 4 = echoTail identifier i :=
    List.drop_left' (by rw [List.length_append, hchecksum]; rfl)
  have height : ([0, 0] ++ checksum ++ echoTail identifier i).drop 8 =
      beBytes 4 icmpMagic ++ beBytes 4 i := by
    rw [show 8 = 4 + 4 from rfl, ← List.drop_drop, hfour, echoTail, List.append_assoc]
    exact List.drop_left' (by simp only [List.length_append, length_beBytes])
  have htwelve : ([0, 0] ++ checksum ++ echoTail identifier i).drop 12 = beBytes 4 i := by
    rw [show 12 = 8 + 4 from rfl, ← List.drop_drop, height]
    exact List.drop_left' (by simp only [length_beBytes])
  rw [hfour, height, htwelve]
  have hidField : (echoTail identifier i).take 2 = beBytes 2 identifier.toNat := by
    rw [echoTail, List.append_assoc, List.append_assoc]
    exact List.take_left' (by simp only [length_beBytes])
  have hmagicField : (beBytes 4 icmpMagic ++ beBytes 4 i).take 4 = beBytes 4 icmpMagic :=
    List.take_left' (by simp only [length_beBytes])
  have hindexField : (beBytes 4 i).take 4 = beBytes 4 i :=
    List.take_of_length_le (by simp only [length_beBytes, Nat.le_refl])
  have hlen : (header ++ ([0, 0] ++ checksum ++ echoTail identifier i)).length =
      header.length + 16 := by
    simp only [List.length_append, htail, hchecksum, List.length_cons, List.length_nil]
  rw [hidField, hmagicField, hindexField, hid, hmagic, hindex,
    if_pos ⟨by omega, by omega, rfl, rfl, rfl⟩]

/-- A message that is received when the requests below `sent` have been sent:
    a reply to one of them from where it was sent, or a message that is not
    taken for one, because its identifier or its magic number differs. -/
inductive Genuine (env : PingEnv) (address : Nat → Option (List Nat)) (sent : Nat) :
    Datagram → Prop
  | echo (i : Nat) (source : List Nat) (header checksum : Bytes) (hsent : i < sent)
      (hsends : env.sends i = true) (haddress : address i = some source)
      (hheader : 20 ≤ header.length)
      (hlength : header.length = ((header.headD 0).toNat % 16) * 4)
      (hchecksum : checksum.length = 2) :
      Genuine env address sent
        ⟨source, header ++ ([0, 0] ++ checksum ++ echoTail env.identifier i)⟩
  | other (d : Datagram) (hother : replyPosition env.identifier d.bytes = none) :
      Genuine env address sent d

/-- What is taken for a reply is one to a request that was sent. -/
theorem Genuine.sends {env : PingEnv} {address : Nat → Option (List Nat)} {sent : Nat}
    {d : Datagram} (h : Genuine env address sent d) (hsize : sent ≤ 2 ^ 32) (i : Nat)
    (hi : replyPosition env.identifier d.bytes = some i) : env.sends i = true := by
  cases h with
  | echo j source header checksum hsent hsends haddress hheader hlength hchecksum =>
      rw [replyPosition_echo env.identifier j (by omega) header checksum hheader hlength hchecksum,
        Option.some.injEq] at hi
      rw [← hi]
      exact hsends
  | other _ hother =>
      rw [hother] at hi
      exact absurd hi (by simp only [reduceCtorEq, not_false_eq_true])

/-! ### One batch -/

theorem pingOutcome_address (reply : Option Int) (item : Measurement) :
    (pingOutcome reply item).address = item.address := by
  unfold pingOutcome
  split
  · cases reply <;> rfl
  · rfl

-- An item is answered exactly if there is a reply to it.
theorem pingOutcome_responded (reply : Option Int) (item : Measurement)
    (hping : item.pingable = true) (hunanswered : item.responded = false) :
    (pingOutcome reply item).responded = reply.isSome := by
  unfold pingOutcome
  rw [if_pos hping]
  cases reply with
  | none => exact hunanswered
  | some elapsed => rfl

section Batch

variable (env : PingEnv) (indices : List Nat) (base : List Measurement) (k : Nat)

/-- Where a request is sent. -/
def addressAt (i : Nat) : Option (List Nat) :=
  (indices[i]?.bind fun n => base[n]?).bind Measurement.address

/-- A request is sent and not answered. -/
def waiting (messages : List (Datagram × Int)) (i : Nat) : Bool :=
  env.sends i && (replyAmong env messages i (addressAt indices base i)).isNone

/-- How far a batch has come: its items are answered by the first replies
    among the messages, the others are as they were, and the count is that of
    what is sent and not answered. -/
structure Settles (messages : List (Datagram × Int)) (b : Batch) : Prop where
  length : b.items.length = base.length
  other : ∀ n, (∀ i ∈ batchRange indices k, indices[i]? ≠ some n) → b.items[n]? = base[n]?
  probed : ∀ i ∈ batchRange indices k, ∀ n item, indices[i]? = some n → base[n]? = some item →
    b.items[n]? = some (pingOutcome (replyAmong env messages i item.address) item)
  pending : b.pending = ((batchRange indices k).countP (waiting env indices base messages) : Nat)

/-- The items that a batch is about can be probed and are not answered. -/
structure Fresh : Prop where
  nodup : indices.Nodup
  probed : ∀ i ∈ batchRange indices k, ∀ n, indices[i]? = some n →
    ∃ item, base[n]? = some item ∧ item.pingable = true ∧ item.responded = false

variable {env indices base k}

theorem mem_batchRange (i : Nat) : i ∈ batchRange indices k ↔
    i < indices.length ∧ k * pingBatchSize ≤ i ∧ i < (k + 1) * pingBatchSize := by
  simp only [batchRange, List.mem_filter, List.mem_range, decide_eq_true_eq]

theorem nodup_batchRange : (batchRange indices k).Nodup := List.nodup_range.filter _

theorem addressAt_eq (i n : Nat) (item : Measurement) (hn : indices[i]? = some n)
    (hitem : base[n]? = some item) : addressAt indices base i = item.address := by
  rw [addressAt, hn, Option.bind_some, hitem, Option.bind_some]

/-- A request that is sent. -/
def Measurement.sent (item : Measurement) : Measurement :=
  { item with state := .timeout, rttMs := timeoutMs }

theorem sent_eq_pingOutcome (item : Measurement) (h : item.pingable = true) :
    item.sent = pingOutcome none item := by
  unfold pingOutcome
  rw [if_pos h]
  rfl

-- What requests do to the items, wherever they come from.
theorem sendOne_fold (positions : List Nat) (b : Batch) :
    (positions.foldl (sendOne env indices) b).items.length = b.items.length ∧
      (∀ n, (∀ i ∈ positions, indices[i]? ≠ some n) →
        (positions.foldl (sendOne env indices) b).items[n]? = b.items[n]?) ∧
      (∀ i ∈ positions, ∀ n item, indices[i]? = some n → b.items[n]? = some item →
        (positions.foldl (sendOne env indices) b).items[n]? = some item.sent) := by
  induction positions generalizing b with
  | nil =>
      exact ⟨rfl, fun _ _ => rfl, fun i hi => absurd hi List.not_mem_nil⟩
  | cons first rest ih =>
      rcases ih (sendOne env indices b first) with ⟨hlength, hother, hsent⟩
      have hone : (sendOne env indices b first).items.length = b.items.length ∧
          ∀ n, (sendOne env indices b first).items[n]? =
            if indices[first]? = some n then b.items[n]?.map Measurement.sent else b.items[n]? := by
        unfold sendOne
        rcases hfirst : indices[first]? with _ | m
        · exact ⟨rfl, fun n => (if_neg (Option.some_ne_none n).symm).symm⟩
        · refine ⟨List.length_modify _ _ _, fun n => ?_⟩
          by_cases heq : m = n
          · rw [if_pos (congrArg some heq), heq]
            exact List.getElem?_modify_eq _ n _
          · rw [if_neg fun habs => heq (Option.some.inj habs)]
            exact List.getElem?_modify_ne _ _ heq
      rw [List.foldl_cons]
      refine ⟨hlength.trans hone.1, fun n hn => ?_, fun i hi n item hin hitem => ?_⟩
      · rw [hother n fun i hi => hn i (List.mem_cons_of_mem _ hi), hone.2 n,
          if_neg (hn first List.mem_cons_self)]
      · -- An item may be sent to by the first request, a later one or both.
        have hstep : (sendOne env indices b first).items[n]? = some item ∨
            (sendOne env indices b first).items[n]? = some item.sent := by
          rw [hone.2 n, hitem]
          by_cases hfirst : indices[first]? = some n
          · rw [if_pos hfirst]
            exact .inr rfl
          · rw [if_neg hfirst]
            exact .inl rfl
        by_cases hlater : ∃ j ∈ rest, indices[j]? = some n
        · rcases hlater with ⟨j, hj, hjn⟩
          rcases hstep with hsame | hdone
          · exact hsent j hj n item hjn hsame
          · exact hsent j hj n item.sent hjn hdone
        · have hnone : ∀ j ∈ rest, indices[j]? ≠ some n := fun j hj hjn => hlater ⟨j, hj, hjn⟩
          have hfirst : indices[first]? = some n := by
            rcases List.mem_cons.mp hi with rfl | hrest
            · exact hin
            · exact absurd hin (hnone i hrest)
          rw [hother n hnone, hone.2 n, if_pos hfirst, hitem, Option.map_some]

-- What requests do to the count.
theorem sendOne_pending (positions : List Nat) (b : Batch)
    (hpositions : ∀ i ∈ positions, i < indices.length) :
    (positions.foldl (sendOne env indices) b).pending =
      b.pending + (positions.countP env.sends : Nat) := by
  induction positions generalizing b with
  | nil => exact (Int.add_zero _).symm
  | cons first rest ih =>
      rw [List.foldl_cons, ih _ fun i hi => hpositions i (List.mem_cons_of_mem _ hi),
        List.countP_cons]
      have hfirst := List.getElem?_eq_getElem (hpositions first List.mem_cons_self)
      unfold sendOne
      rw [hfirst]
      cases hsends : env.sends first with
      | true =>
          simp only [if_true]
          push_cast
          omega
      | false => simp only [Bool.false_eq_true, if_false, Nat.add_zero]

/-- A batch whose requests have been sent. -/
theorem settles_sendBatch (hfresh : Fresh indices base k) :
    Settles env indices base k [] (sendBatch env indices base k) := by
  rcases @sendOne_fold env indices (batchRange indices k) ⟨base, 0, 0, false⟩
    with ⟨hlength, hother, hsent⟩
  refine ⟨hlength, hother, fun i hi n item hn hitem => ?_, ?_⟩
  · rcases hfresh.probed i hi n hn with ⟨item', hitem', hping, -⟩
    rw [hitem, Option.some.injEq] at hitem'
    rw [← hitem'] at hping
    exact (hsent i hi n item hn hitem).trans
      (congrArg some (sent_eq_pingOutcome item hping))
  · have hpending := @sendOne_pending env indices (batchRange indices k)
      ⟨base, 0, 0, false⟩ fun i hi => ((mem_batchRange i).mp hi).1
    refine hpending.trans ?_
    rw [Int.zero_add]
    refine congrArg Nat.cast (List.countP_congr fun i _ => ?_)
    rw [waiting, replyAmong, List.find?_nil, Option.map_none, Option.isNone_none, Bool.and_true]

-- A count that one element leaves.
theorem countP_leave {α : Type} (l : List α) (hl : l.Nodup) (p q : α → Bool) (a : α) (ha : a ∈ l)
    (hp : p a = true) (hq : q a = false) (hother : ∀ b ∈ l, b ≠ a → q b = p b) :
    l.countP p = l.countP q + 1 := by
  induction l with
  | nil => exact absurd ha List.not_mem_nil
  | cons b rest ih =>
      rw [List.nodup_cons] at hl
      rw [List.countP_cons, List.countP_cons]
      by_cases heq : b = a
      · rw [heq, hp, hq]
        have hrest : rest.countP p = rest.countP q := by
          refine List.countP_congr fun c hc => ?_
          rw [hother c (List.mem_cons_of_mem _ hc) fun habs => hl.1 (heq ▸ habs ▸ hc)]
        simp only [hrest, if_true, Bool.false_eq_true, if_false, Nat.add_zero]
      · have hin : a ∈ rest := (List.mem_cons.mp ha).resolve_left (Ne.symm heq)
        rw [ih hl.2 hin fun c hc => hother c (List.mem_cons_of_mem _ hc),
          hother b List.mem_cons_self heq]
        omega

-- What another message changes of the first reply.
theorem replyAmong_append (messages : List (Datagram × Int)) (message : Datagram × Int) (i : Nat)
    (address : Option (List Nat)) :
    replyAmong env (messages ++ [message]) i address =
      match replyAmong env messages i address with
      | some elapsed => some elapsed
      | none => if isReply env i address message then some (message.2 - env.sentMs i) else none := by
  unfold replyAmong
  rw [List.find?_append]
  rcases messages.find? (isReply env i address) with _ | found
  · rw [Option.none_or, List.find?_cons]
    cases isReply env i address message <;> rfl
  · rfl

theorem replyAmong_append_other (messages : List (Datagram × Int)) (message : Datagram × Int)
    (i : Nat) (address : Option (List Nat)) (h : isReply env i address message = false) :
    replyAmong env (messages ++ [message]) i address = replyAmong env messages i address := by
  rw [replyAmong_append, h]
  cases replyAmong env messages i address <;> rfl

-- A message that is nobody's first reply changes nothing.
theorem settles_unanswered (messages : List (Datagram × Int)) (message : Datagram × Int)
    (b : Batch) (hb : Settles env indices base k messages b)
    (h : ∀ i ∈ batchRange indices k, replyAmong env (messages ++ [message]) i
      (addressAt indices base i) = replyAmong env messages i (addressAt indices base i)) :
    Settles env indices base k (messages ++ [message]) b := by
  refine ⟨hb.length, hb.other, fun i hi n item hn hitem => ?_, ?_⟩
  · have hsame := h i hi
    rw [addressAt_eq i n item hn hitem] at hsame
    rw [hsame]
    exact hb.probed i hi n item hn hitem
  · rw [hb.pending]
    refine congrArg Nat.cast (List.countP_congr fun i hi => ?_)
    rw [waiting, waiting, h i hi]

/-- The first reply to a request answers its item and nothing else. -/
theorem settles_answer (hfresh : Fresh indices base k) (messages : List (Datagram × Int))
    (message : Datagram × Int) (b : Batch) (hb : Settles env indices base k messages b)
    {i n : Nat} {item : Measurement} (hi : i ∈ batchRange indices k) (hn : indices[i]? = some n)
    (hitem : base[n]? = some item) (hping : item.pingable = true) (hsent : env.sends i = true)
    (hreply : replyAmong env messages i item.address = none)
    (hnew : replyAmong env (messages ++ [message]) i item.address =
      some (message.2 - env.sentMs i))
    (hothers : ∀ j, j ≠ i → ∀ address, isReply env j address message = false) :
    Settles env indices base k (messages ++ [message])
      { b with
        items := b.items.modify n (answer (message.2 - env.sentMs i))
        pending := b.pending - 1 } := by
  -- No other request is about the same item.
  have hdistinct : ∀ j, indices[j]? = some n → j = i := by
    intro j hj
    have hjlt := (List.getElem?_eq_some_iff.mp hj).1
    exact (List.getElem?_inj hjlt hfresh.nodup).mp (hj.trans hn.symm)
  have haddress := addressAt_eq i n item hn hitem
  refine ⟨(List.length_modify _ _ _).trans hb.length, fun m hm => ?_,
    fun j hj m item' hjm hitem' => ?_, ?_⟩
  · have hne : n ≠ m := by
      rintro rfl
      exact hm i hi hn
    exact (List.getElem?_modify_ne _ _ hne).trans (hb.other m hm)
  · by_cases hji : j = i
    · rw [hji, hn, Option.some.injEq] at hjm
      rw [← hjm, hitem, Option.some.injEq] at hitem'
      rw [← hjm, ← hitem', hji, hnew]
      have hmodify := List.getElem?_modify_eq (answer (message.2 - env.sentMs i)) n b.items
      rw [hb.probed i hi n item hn hitem, hreply] at hmodify
      refine hmodify.trans (congrArg some ?_)
      unfold pingOutcome
      rw [if_pos hping, if_pos hping]
      rfl
    · have hne : n ≠ m := fun habs => hji (hdistinct j (habs ▸ hjm))
      rw [List.getElem?_modify_ne _ _ hne, replyAmong_append_other _ _ _ _ (hothers j hji _)]
      exact hb.probed j hj m item' hjm hitem'
  · -- One request fewer is waited for.
    have hcount := countP_leave (batchRange indices k) nodup_batchRange
      (waiting env indices base messages)
      (waiting env indices base (messages ++ [message])) i hi
      (by rw [waiting, haddress, hreply, hsent]; rfl)
      (by rw [waiting, haddress, hnew, Option.isNone_some, Bool.and_false])
      (fun j _ hji => by
        rw [waiting, waiting, replyAmong_append_other _ _ _ _ (hothers j hji _)])
    simp only
    rw [hb.pending, hcount]
    push_cast
    omega

/-- A message that is received. -/
theorem settles_receive (hfresh : Fresh indices base k) (messages : List (Datagram × Int))
    (message : Datagram × Int)
    (hsends : ∀ i, replyPosition env.identifier message.1.bytes = some i → env.sends i = true)
    (b : Batch) (hb : Settles env indices base k messages b) :
    Settles env indices base k (messages ++ [message]) (receive env indices k b message) := by
  unfold receive
  -- A message can only be a reply to the request that it names.
  have hnames : ∀ i address, replyPosition env.identifier message.1.bytes ≠ some i →
      isReply env i address message = false := by
    intro i address hne
    rw [isReply, decide_eq_false hne, Bool.false_and]
  rcases hposition : replyPosition env.identifier message.1.bytes with _ | i
  · refine settles_unanswered messages message b hb fun i _ => replyAmong_append_other _ _ _ _ ?_
    exact hnames i _ (by rw [hposition]; exact Option.some_ne_none i |>.symm)
  have hothers : ∀ j, j ≠ i → ∀ address, isReply env j address message = false := by
    intro j hne address
    refine hnames j address fun habs => hne ?_
    rw [hposition, Option.some.injEq] at habs
    exact habs.symm
  simp only
  by_cases hi : i ∈ batchRange indices k
  · rw [if_pos hi]
    rcases hn : indices[i]? with _ | n
    · exact absurd ((mem_batchRange i).mp hi).1 (by
        rw [List.getElem?_eq_none_iff] at hn
        omega)
    rcases hfresh.probed i hi n hn with ⟨item, hitem, hping, hunanswered⟩
    have haddress := addressAt_eq i n item hn hitem
    simp only [hb.probed i hi n item hn hitem, Option.any_some]
    rw [pingOutcome_responded _ item hping hunanswered, pingOutcome_address]
    rcases hreply : replyAmong env messages i item.address with _ | elapsed
    · by_cases hfrom : item.address = some message.1.source
      · -- The first reply.
        have hisReply : isReply env i item.address message = true := by
          rw [isReply, hposition, decide_eq_true rfl, decide_eq_true hfrom, Bool.and_self]
        have hnew : replyAmong env (messages ++ [message]) i item.address =
            some (message.2 - env.sentMs i) := by
          rw [replyAmong_append, hreply]
          simp only [hisReply, if_true]
        rw [if_pos (by rw [decide_eq_true hfrom]; rfl)]
        exact settles_answer hfresh messages message b hb hi hn hitem hping (hsends i hposition)
          hreply hnew hothers
      · -- A message from elsewhere.
        rw [if_neg (by
          rw [decide_eq_false hfrom, Bool.and_false]
          exact Bool.false_ne_true)]
        refine settles_unanswered messages message b hb fun j _ =>
          replyAmong_append_other _ _ _ _ ?_
        by_cases hji : j = i
        · rw [hji, haddress, isReply, decide_eq_false hfrom, Bool.and_false]
        · exact hothers j hji _
    · -- Another reply.
      rw [if_neg (by
        rw [Option.isSome_some, Bool.not_true, Bool.false_and]
        exact Bool.false_ne_true)]
      refine settles_unanswered messages message b hb fun j _ => ?_
      by_cases hji : j = i
      · rw [hji, haddress, replyAmong_append, hreply]
      · exact replyAmong_append_other _ _ _ _ (hothers j hji _)
  · -- A reply to another batch.
    rw [if_neg hi]
    refine settles_unanswered messages message b hb fun j hj => replyAmong_append_other _ _ _ _ ?_
    exact hothers j (fun habs => hi (habs ▸ hj)) _

/-- A turn through the loop. -/
theorem settles_listenOnce (hfresh : Fresh indices base k) (messages : List (Datagram × Int))
    (turn : Turn)
    (hsends : ∀ message, turn.poll = .ready (some message) → ∀ i,
      replyPosition env.identifier message.1.bytes = some i → env.sends i = true)
    (b : Batch) (hb : Settles env indices base k messages b) :
    Settles env indices base k (messages ++ (b.receives turn).toList)
      (listenOnce env indices k b turn) := by
  have hclosed : Settles env indices base k (messages ++ (none : Option (Datagram × Int)).toList)
      { b with closed := true } := by
    rw [Option.toList_none, List.append_nil]
    exact ⟨hb.length, hb.other, hb.probed, hb.pending⟩
  have hsame : Settles env indices base k (messages ++ (none : Option (Datagram × Int)).toList)
      b := by
    rw [Option.toList_none, List.append_nil]
    exact hb
  unfold listenOnce Batch.receives
  by_cases hopen : b.isOpen = true
  · by_cases hdeadline : b.deadline ≤ turn.current
    · rw [if_pos hopen, if_pos hdeadline, if_neg fun habs => by omega]
      exact hclosed
    · rw [if_pos hopen, if_neg hdeadline, if_pos ⟨hopen, by omega⟩]
      rcases hpoll : turn.poll with _ | _ | _ | _ | message
      · exact hclosed
      · exact hsame
      · exact hclosed
      · exact hsame
      · exact settles_receive hfresh messages message (hsends message hpoll) b hb
  · rw [if_neg hopen, if_neg fun habs => hopen habs.1]
    exact hsame

/-- The turns of a batch. -/
theorem settles_turns (hfresh : Fresh indices base k) (turns : List Turn)
    (hsends : ∀ turn ∈ turns, ∀ message, turn.poll = .ready (some message) → ∀ i,
      replyPosition env.identifier message.1.bytes = some i → env.sends i = true)
    (messages : List (Datagram × Int)) (b : Batch)
    (hb : Settles env indices base k messages b) :
    Settles env indices base k (messages ++ heard env indices k b turns)
      (turns.foldl (listenOnce env indices k) b) := by
  induction turns generalizing messages b with
  | nil =>
      rw [heard, List.append_nil]
      exact hb
  | cons turn rest ih =>
      rw [heard, ← List.append_assoc, List.foldl_cons]
      exact ih (fun other hother => hsends other (List.mem_cons_of_mem _ hother)) _ _
        (settles_listenOnce hfresh messages turn (hsends turn List.mem_cons_self) b hb)

/-- The deadline of a batch is not after a time at which nothing that was sent
    is waited for. -/
theorem sendOne_fold_deadline (late : Int) (positions : List Nat) (b : Batch)
    (hb : b.deadline ≤ late) (h : ∀ i ∈ positions, env.sentMs i + timeoutMs ≤ late) :
    (positions.foldl (sendOne env indices) b).deadline ≤ late := by
  induction positions generalizing b with
  | nil => exact hb
  | cons i rest ih =>
      rw [List.forall_mem_cons] at h
      refine ih _ ?_ h.2
      unfold sendOne
      split
      · exact hb
      · show (if env.sends i then max b.deadline (env.sentMs i + timeoutMs) else b.deadline) ≤ late
        split
        · exact max_le hb h.1
        · exact hb

-- Receiving a message does not close a batch.
theorem receive_keeps (b : Batch) (message : Datagram × Int) :
    (receive env indices k b message).closed = b.closed ∧
      (receive env indices k b message).deadline = b.deadline := by
  unfold receive
  split
  · exact ⟨rfl, rfl⟩
  · split
    · split
      · exact ⟨rfl, rfl⟩
      · split <;> exact ⟨rfl, rfl⟩
    · exact ⟨rfl, rfl⟩

theorem listenOnce_deadline (b : Batch) (turn : Turn) :
    (listenOnce env indices k b turn).deadline = b.deadline := by
  unfold listenOnce
  split
  · split
    · rfl
    · split
      · rfl
      · rfl
      · rfl
      · rfl
      · exact (receive_keeps b _).2
  · rfl

/-- A turn after the deadline, or one in which the wait fails or runs out, is
    the last one. -/
theorem closed_of_ending (turns : List Turn) (b : Batch)
    (h : b.isOpen = false ∨ ∃ turn ∈ turns,
      turn.poll = .failed ∨ turn.poll = .timedOut ∨ b.deadline ≤ turn.current) :
    (turns.foldl (listenOnce env indices k) b).isOpen = false := by
  induction turns generalizing b with
  | nil => exact h.resolve_right (by simp only [List.not_mem_nil, false_and, exists_false,
      not_false_eq_true])
  | cons turn rest ih =>
      rw [List.foldl_cons]
      refine ih _ ?_
      rw [listenOnce_deadline]
      by_cases hopen : b.isOpen = true
      · rcases h.resolve_left (by rw [hopen]; decide) with
          ⟨last, hlast, hends⟩
        rcases List.mem_cons.mp hlast with rfl | hrest
        · refine .inl ?_
          unfold listenOnce
          rw [if_pos hopen]
          by_cases hdeadline : b.deadline ≤ last.current
          · rw [if_pos hdeadline]
            rfl
          · rw [if_neg hdeadline]
            rcases hends with hpoll | hpoll | hlate
            · rw [hpoll]
              rfl
            · rw [hpoll]
              rfl
            · exact absurd hlate hdeadline
        · exact .inr ⟨last, hrest, hends⟩
      · refine .inl ?_
        unfold listenOnce
        rw [if_neg hopen]
        exact Bool.not_eq_true _ ▸ hopen

/-- A batch that is open goes on, unless all is answered, its deadline has
    passed or the wait for a message has failed or run out. -/
theorem listenOnce_closes (b : Batch) (turn : Turn) (hopen : b.isOpen = true)
    (hcloses : (listenOnce env indices k b turn).isOpen = false) :
    (listenOnce env indices k b turn).pending ≤ 0 ∨ b.deadline ≤ turn.current ∨
      turn.poll = .failed ∨ turn.poll = .timedOut := by
  unfold listenOnce at hcloses ⊢
  rw [if_pos hopen] at hcloses ⊢
  by_cases hdeadline : b.deadline ≤ turn.current
  · exact .inr (.inl hdeadline)
  · rw [if_neg hdeadline] at hcloses ⊢
    rcases hpoll : turn.poll with _ | _ | _ | _ | message
    · exact .inr (.inr (.inl rfl))
    · rw [hpoll] at hcloses
      exact absurd (hcloses.symm.trans hopen) Bool.false_ne_true
    · exact .inr (.inr (.inr rfl))
    · rw [hpoll] at hcloses
      exact absurd (hcloses.symm.trans hopen) Bool.false_ne_true
    · rw [hpoll] at hcloses
      simp only at hcloses ⊢
      have hkept := (@receive_keeps env indices k b message).1
      rw [Batch.isOpen, Bool.and_eq_true, Bool.not_eq_true'] at hopen
      rw [Batch.isOpen, hkept, hopen.1, Bool.not_false, Bool.true_and, decide_eq_false_iff_not]
        at hcloses
      exact .inl (by omega)

end Batch

/-! ### All batches -/

section Probe

variable (env : PingEnv) (items : List Measurement)

/-- The milliseconds after which the first reply to a request was received
    while its batch was open. -/
def firstReply (i : Nat) : Option Int :=
  replyAmong env (heardIn env items (i / pingBatchSize)) i
    (addressAt (pingIndices items) items i)

/-- The messages are genuine, in every batch. -/
def GenuineRun : Prop :=
  ∀ k, ∀ turn ∈ env.turns k, ∀ message, turn.poll = .ready (some message) →
    Genuine env (addressAt (pingIndices items) items)
      (min ((k + 1) * pingBatchSize) (pingIndices items).length) message.1

/-- The loop of a batch has a last turn: the wait for a message fails or runs
    out in it, or the clock has come to where no reply is waited for. -/
def BatchEnds (k : Nat) : Prop :=
  ∃ turn ∈ env.turns k, turn.poll = .failed ∨ turn.poll = .timedOut ∨
    (0 ≤ turn.current ∧
      ∀ i ∈ batchRange (pingIndices items) k, env.sentMs i + timeoutMs ≤ turn.current)

/-- The items before a batch: the batches before are done, the others are to
    come. -/
structure Done (before : List Measurement) (k : Nat) : Prop where
  length : before.length = items.length
  other : ∀ n, n ∉ pingIndices items → before[n]? = items[n]?
  later : ∀ i n, (pingIndices items)[i]? = some n → k * pingBatchSize ≤ i → before[n]? = items[n]?
  settled : ∀ i n item, (pingIndices items)[i]? = some n → i < k * pingBatchSize →
    items[n]? = some item → before[n]? = some (pingOutcome (firstReply env items i) item)

variable {env items}

theorem nodup_pingIndices : (pingIndices items).Nodup := List.nodup_range.filter _

theorem mem_pingIndices (n : Nat) :
    n ∈ pingIndices items ↔ ∃ item, items[n]? = some item ∧ item.pingable = true := by
  rw [pingIndices, List.mem_filter, List.mem_range, Option.any_eq_true]
  constructor
  · rintro ⟨-, item, hitem, hping⟩
    exact ⟨item, hitem, hping⟩
  · rintro ⟨item, hitem, hping⟩
    exact ⟨(List.getElem?_eq_some_iff.mp hitem).1, item, hitem, hping⟩

theorem fresh_of_done (hitems : ∀ item ∈ items, item.responded = false)
    (before : List Measurement) (k : Nat) (hdone : Done env items before k) :
    Fresh (pingIndices items) before k := by
  refine ⟨nodup_pingIndices, fun i hi n hn => ?_⟩
  rcases (mem_pingIndices n).mp (List.mem_of_getElem? hn) with ⟨item, hitem, hping⟩
  exact ⟨item, (hdone.later i n hn ((mem_batchRange i).mp hi).2.1).trans hitem, hping,
    hitems item (List.mem_of_getElem? hitem)⟩

theorem sends_of_genuine (hsize : items.length < 2 ^ 32) (hgenuine : GenuineRun env items) (k : Nat) :
    ∀ turn ∈ env.turns k, ∀ message, turn.poll = .ready (some message) → ∀ i,
      replyPosition env.identifier message.1.bytes = some i → env.sends i = true := by
  intro turn hturn message hpoll i hi
  refine (hgenuine k turn hturn message hpoll).sends ?_ i hi
  have hlength : (pingIndices items).length ≤ items.length := by
    refine (List.length_filter_le _ _).trans ?_
    rw [List.length_range]
  omega

/-- A batch adds what it settles. -/
theorem done_probeBatch (hsize : items.length < 2 ^ 32)
    (hitems : ∀ item ∈ items, item.responded = false) (hgenuine : GenuineRun env items)
    (before next : List Measurement) (k : Nat) (hbefore : itemsBefore env items k = some before)
    (hdone : Done env items before k)
    (hnext : probeBatch env (pingIndices items) before k = some next) :
    Done env items next (k + 1) := by
  have hfresh := fresh_of_done hitems before k hdone
  have hsettles := settles_turns hfresh (env.turns k) (sends_of_genuine hsize hgenuine k) _ _
    (settles_sendBatch hfresh)
  rw [List.nil_append] at hsettles
  have hheard : heardIn env items k = heard env (pingIndices items) k
      (sendBatch env (pingIndices items) before k) (env.turns k) := by
    rw [heardIn, hbefore]
  rw [← hheard] at hsettles
  unfold probeBatch at hnext
  simp only at hnext
  split at hnext
  · exact absurd hnext (by simp only [reduceCtorEq, not_false_eq_true])
  rw [Option.some.injEq] at hnext
  rcases hsettles with ⟨hlength, hother, hprobed, -⟩
  rw [hnext] at hlength
  simp only [hnext] at hother hprobed
  -- A number is at one position only.
  have houtside : ∀ i n, (pingIndices items)[i]? = some n → i ∉ batchRange (pingIndices items) k →
      next[n]? = before[n]? := by
    intro i n hn hi
    refine hother n fun j hj hjn => hi ?_
    have hjlt := (List.getElem?_eq_some_iff.mp hjn).1
    rwa [← (List.getElem?_inj hjlt nodup_pingIndices).mp (hjn.trans hn.symm)]
  refine ⟨hlength.trans hdone.length, fun n hn => ?_, fun i n hin hi => ?_,
    fun i n item hin hi hitem => ?_⟩
  · exact (hother n fun i _ habs => hn (List.mem_of_getElem? habs)).trans (hdone.other n hn)
  · rw [houtside i n hin fun habs => by
      have := ((mem_batchRange i).mp habs).2.2
      omega]
    exact hdone.later i n hin (by rw [Nat.succ_mul] at hi; omega)
  · by_cases hthis : k * pingBatchSize ≤ i
    · have hrange : i ∈ batchRange (pingIndices items) k :=
        (mem_batchRange i).mpr ⟨(List.getElem?_eq_some_iff.mp hin).1, hthis, hi⟩
      have hbatch : i / pingBatchSize = k := by
        rw [Nat.div_eq_iff (by decide)]
        rw [Nat.succ_mul] at hi
        omega
      rw [hprobed i hrange n item hin ((hdone.later i n hin hthis).trans hitem), firstReply,
        hbatch, addressAt_eq i n item hin hitem]
    · rw [houtside i n hin fun habs => hthis ((mem_batchRange i).mp habs).2.1]
      exact hdone.settled i n item hin (by omega) hitem

/-- Batch by batch. -/
theorem done_itemsBefore (hsize : items.length < 2 ^ 32)
    (hitems : ∀ item ∈ items, item.responded = false) (hgenuine : GenuineRun env items) (k : Nat)
    (before : List Measurement) (h : itemsBefore env items k = some before) :
    Done env items before k := by
  induction k generalizing before with
  | zero =>
      rw [itemsBefore, List.range_zero, List.foldlM_nil] at h
      rw [← Option.some.inj h]
      exact ⟨rfl, fun _ _ => rfl, fun _ _ _ _ => rfl, fun i n item _ hi _ => by omega⟩
  | succ k ih =>
      rw [itemsBefore, List.range_succ, List.foldlM_append, Option.bind_eq_bind,
        Option.bind_eq_some_iff] at h
      rcases h with ⟨mid, hmid, hnext⟩
      rw [List.foldlM_cons, Option.bind_eq_bind, Option.bind_eq_some_iff] at hnext
      rcases hnext with ⟨next, hnext, hnil⟩
      rw [List.foldlM_nil] at hnil
      rw [← Option.some.inj hnil]
      exact done_probeBatch hsize hitems hgenuine mid next k hmid (ih mid hmid) hnext

/-- If every batch has a last turn, probing comes to its end. -/
theorem probe_isSome
    (hends : ∀ k, k * pingBatchSize < (pingIndices items).length → BatchEnds env items k) :
    (probe env items).isSome := by
  have hall : ∀ k ≤ ((pingIndices items).length + (pingBatchSize - 1)) / pingBatchSize,
      (itemsBefore env items k).isSome := by
    intro k hk
    induction k with
    | zero => rfl
    | succ k ih =>
        rcases Option.isSome_iff_exists.mp (ih (Nat.le_of_succ_le hk)) with ⟨before, hbefore⟩
        rcases hends k (by unfold pingBatchSize at hk ⊢; omega) with ⟨turn, hturn, hlast⟩
        have hclosed := @closed_of_ending env (pingIndices items) k (env.turns k)
          (sendBatch env (pingIndices items) before k) (.inr ⟨turn, hturn, by
            rcases hlast with hpoll | hpoll | ⟨hpos, hlate⟩
            · exact .inl hpoll
            · exact .inr (.inl hpoll)
            · exact .inr (.inr (sendOne_fold_deadline turn.current _ _ hpos hlate))⟩)
        rw [itemsBefore] at hbefore
        rw [itemsBefore, List.range_succ, List.foldlM_append, hbefore, Option.bind_eq_bind,
          Option.bind_some, List.foldlM_cons, probeBatch]
        simp only [hclosed, Bool.false_eq_true, if_false]
        rfl
  exact hall _ (Nat.le_refl _)

/-- The number of batches is enough for all positions. -/
theorem lt_batches (i : Nat) (hi : i < (pingIndices items).length) :
    i < ((pingIndices items).length + (pingBatchSize - 1)) / pingBatchSize * pingBatchSize := by
  unfold pingBatchSize
  omega

/-- Probing is what a round takes it for: every item that is probed is answered
    by the first reply to it, if there is one. -/
theorem probe_eq_parallelPing (hsize : items.length < 2 ^ 32)
    (hitems : ∀ item ∈ items, item.responded = false) (hgenuine : GenuineRun env items)
    (final : List Measurement) (h : probe env items = some final) :
    final = parallelPing
      (fun n => if n ∈ pingIndices items then firstReply env items ((pingIndices items).idxOf n)
        else none) items := by
  have hdone := done_itemsBefore hsize hitems hgenuine _ final h
  refine List.ext_getElem? fun n => ?_
  rw [parallelPing, List.getElem?_mapIdx]
  rcases hitem : items[n]? with _ | item
  · rw [Option.map_none, List.getElem?_eq_none_iff, hdone.length]
    exact List.getElem?_eq_none_iff.mp hitem
  rw [Option.map_some]
  by_cases hmem : n ∈ pingIndices items
  · have hlt := List.idxOf_lt_length_of_mem hmem
    have hin : (pingIndices items)[(pingIndices items).idxOf n]? = some n := by
      rw [List.getElem?_eq_getElem hlt, List.getElem_idxOf]
    rw [if_pos hmem]
    exact hdone.settled _ n item hin (lt_batches _ hlt) hitem
  · have hping : item.pingable = false := by
      rw [← Bool.not_eq_true]
      exact fun hping => hmem ((mem_pingIndices n).mpr ⟨item, hitem, hping⟩)
    refine ((hdone.other n hmem).trans hitem).trans (congrArg some ?_)
    unfold pingOutcome
    rw [if_neg (by rw [hping]; exact Bool.false_ne_true)]

/-! ### Attribution -/

variable (env items)

/-- A batch after some of its turns. -/
def batchAfter (k : Nat) (seen : List Turn) : Option Batch :=
  (itemsBefore env items k).map fun before =>
    seen.foldl (listenOnce env (pingIndices items) k) (sendBatch env (pingIndices items) before k)

/-- A request of a batch is sent, and its item is not answered. -/
def unanswered (b : Batch) (i : Nat) : Bool :=
  env.sends i && ((pingIndices items)[i]?.bind fun n => b.items[n]?).any fun item => !item.responded

/-- What is expected of probing. -/
structure Attributed (final : List Measurement) : Prop where
  /-- An item is answered exactly if a reply to its request was received while
      its batch was open, and the first one counts. -/
  probed : ∀ i n item, (pingIndices items)[i]? = some n → items[n]? = some item →
    ∃ result, final[n]? = some result ∧ 0 ≤ result.rttMs ∧ result.rttMs ≤ 1000 ∧
      ((result.responded = true ∧ result.state = .ok) ↔
        ∃ message ∈ heardIn env items (i / pingBatchSize), isReply env i item.address message) ∧
      (∀ elapsed, firstReply env items i = some elapsed → result = answer elapsed item) ∧
      (firstReply env items i = none → result = item.sent)
  other : ∀ (n : Nat) (item : Measurement), items[n]? = some item → item.pingable = false →
    final[n]? = some item
  pending : ∀ k seen b, seen <+: env.turns k → batchAfter env items k seen = some b →
    b.pending = ((batchRange (pingIndices items) k).countP (unanswered env items b) : Nat)
  closes : ∀ k seen turn b, (seen ++ [turn]) <+: env.turns k → batchAfter env items k seen = some b →
    b.isOpen = true → (listenOnce env (pingIndices items) k b turn).isOpen = false →
      (listenOnce env (pingIndices items) k b turn).pending = 0 ∨ b.deadline ≤ turn.current ∨
        turn.poll = .failed ∨ turn.poll = .timedOut

variable {env items}

/-- The count of a batch is that of what is sent and not answered. -/
theorem pending_batchAfter (hsize : items.length < 2 ^ 32)
    (hitems : ∀ item ∈ items, item.responded = false) (hgenuine : GenuineRun env items) (k : Nat)
    (seen : List Turn) (b : Batch) (hseen : seen <+: env.turns k)
    (h : batchAfter env items k seen = some b) :
    b.pending = ((batchRange (pingIndices items) k).countP (unanswered env items b) : Nat) := by
  rcases Option.map_eq_some_iff.mp h with ⟨before, hbefore, rfl⟩
  have hdone := done_itemsBefore hsize hitems hgenuine k before hbefore
  have hfresh := fresh_of_done hitems before k hdone
  have hsettles := settles_turns hfresh seen
    (fun turn hturn => sends_of_genuine hsize hgenuine k turn (hseen.subset hturn)) _ _
    (settles_sendBatch hfresh)
  rw [hsettles.pending]
  refine congrArg Nat.cast (List.countP_congr fun i hi => ?_)
  have hlt := ((mem_batchRange i).mp hi).1
  have hn := List.getElem?_eq_getElem hlt
  rcases hfresh.probed i hi _ hn with ⟨item, hitem, hping, hfreshItem⟩
  have hcurrent := hsettles.probed i hi _ item hn hitem
  rw [waiting, unanswered, addressAt_eq i _ item hn hitem, hn, Option.bind_some, hcurrent,
    Option.any_some, pingOutcome_responded _ item hping hfreshItem, Option.not_isSome]

/-- What probing comes to is what is expected of it. -/
theorem attributed_of_probe (hsize : items.length < 2 ^ 32)
    (hitems : ∀ item ∈ items, item.responded = false) (hgenuine : GenuineRun env items)
    (final : List Measurement) (h : probe env items = some final) :
    Attributed env items final := by
  have hdone := done_itemsBefore hsize hitems hgenuine _ final h
  refine ⟨fun i n item hin hitem => ?_, fun n item hitem hping => ?_,
    pending_batchAfter hsize hitems hgenuine, fun k seen turn b hseen hb hopen hcloses => ?_⟩
  · rcases (mem_pingIndices n).mp (List.mem_of_getElem? hin) with ⟨item', hitem', hping⟩
    rw [hitem, Option.some.injEq] at hitem'
    rw [← hitem'] at hping
    have hunanswered := hitems item (List.mem_of_getElem? hitem)
    refine ⟨_, hdone.settled i n item hin (lt_batches i (List.getElem?_eq_some_iff.mp hin).1) hitem,
      ?_⟩
    have hfound : (firstReply env items i).isSome ↔
        ∃ message ∈ heardIn env items (i / pingBatchSize), isReply env i item.address message := by
      rw [firstReply, replyAmong, addressAt_eq i n item hin hitem, Option.isSome_map,
        List.find?_isSome]
    rw [← hfound]
    cases hreply : firstReply env items i with
    | none =>
        have houtcome := (sent_eq_pingOutcome item hping).symm
        rw [houtcome]
        have hrtt : item.sent.rttMs = 1000 := rfl
        refine ⟨by rw [hrtt]; decide, hrtt.le, ⟨fun habs => ?_, fun habs => ?_⟩, fun _ habs => ?_,
          fun _ => rfl⟩
        · exact absurd (hunanswered.symm.trans habs.1) Bool.false_ne_true
        · exact absurd habs Bool.false_ne_true
        · exact absurd habs (Option.some_ne_none _).symm
    | some elapsed =>
        have houtcome : pingOutcome (some elapsed) item = answer elapsed item := by
          unfold pingOutcome
          rw [if_pos hping]
          rfl
        rw [houtcome]
        refine ⟨?_, ?_, ⟨fun _ => rfl, fun _ => ⟨rfl, rfl⟩⟩, fun other hother => ?_, fun habs => ?_⟩
        · exact Int.le_max_left _ _
        · simp only [answer, timeoutMs]
          omega
        · rw [Option.some.inj hother]
        · exact absurd habs (Option.some_ne_none _)
  · rw [hdone.other n fun habs => ?_]
    · exact hitem
    · rcases (mem_pingIndices n).mp habs with ⟨item', hitem', hping'⟩
      rw [hitem, Option.some.injEq] at hitem'
      rw [hitem', hping'] at hping
      exact absurd hping.symm Bool.false_ne_true
  · rcases listenOnce_closes b turn hopen hcloses with hpending | hrest
    · -- The count is not negative.
      have hnext : batchAfter env items k (seen ++ [turn]) =
          some (listenOnce env (pingIndices items) k b turn) := by
        rcases Option.map_eq_some_iff.mp hb with ⟨before, hbefore, rfl⟩
        rw [batchAfter, hbefore, Option.map_some, List.foldl_append, List.foldl_cons,
          List.foldl_nil]
      have hcount := pending_batchAfter hsize hitems hgenuine k _ _ hseen hnext
      exact .inl (by omega)
    · exact .inr hrest

/-- Whatever the network and the clock do, probing comes to its end, and replies
    are taken for what they are. -/
theorem probe_attributed (hsize : items.length < 2 ^ 32)
    (hitems : ∀ item ∈ items, item.responded = false) (hgenuine : GenuineRun env items)
    (hends : ∀ k, k * pingBatchSize < (pingIndices items).length → BatchEnds env items k) :
    ∃ final, probe env items = some final ∧ Attributed env items final := by
  rcases Option.isSome_iff_exists.mp (probe_isSome hends) with ⟨final, hfinal⟩
  exact ⟨final, hfinal, attributed_of_probe hsize hitems hgenuine final hfinal⟩

end Probe

/-- A target that is probed at an address that others have too. -/
def sharedItem (id : Nat) : Measurement where
  id := id
  address := some [10, 0, 0, 1]
  state := .timeout
  rttMs := 1000
  responded := false
  snrDb := none
  signalDbm := none
  noiseFloorDbm := none

/-- The reply to a request. -/
def sampleReply (i : Nat) : Datagram where
  source := [10, 0, 0, 1]
  bytes := (0x45 :: List.replicate 19 0) ++ ([0, 0] ++ [0, 0] ++ echoTail 7 i)

/-- Three requests, of which the last can not be sent, and replies in another
    order, one of them twice and among messages of others. -/
def sampleNetwork : PingEnv where
  identifier := 7
  sentMs := fun i => i
  sends := fun i => i != 2
  turns := fun k =>
    if k = 0 then
      [⟨10, .ready (some (⟨[10, 0, 0, 9], [0x45]⟩, 11))⟩, ⟨12, .ready (some (sampleReply 1, 13))⟩,
        ⟨14, .interrupted⟩, ⟨15, .ready (some (sampleReply 1, 16))⟩,
        ⟨17, .ready (some (sampleReply 0, 18))⟩, ⟨19, .timedOut⟩]
    else []

theorem genuine_sampleNetwork :
    GenuineRun sampleNetwork [sharedItem 1, sharedItem 2, sharedItem 3] := by
  intro k turn hturn message hpoll
  have hreply : ∀ i, i < 2 → k = 0 → Genuine sampleNetwork
      (addressAt (pingIndices [sharedItem 1, sharedItem 2, sharedItem 3])
        [sharedItem 1, sharedItem 2, sharedItem 3])
      (min ((k + 1) * pingBatchSize)
        (pingIndices [sharedItem 1, sharedItem 2, sharedItem 3]).length) (sampleReply i) := by
    intro i hi hk
    rw [hk]
    refine Genuine.echo i _ (0x45 :: List.replicate 19 0) [0, 0] ?_ ?_ ?_ (by decide) (by decide) rfl
    · exact Nat.lt_of_lt_of_le hi (by decide)
    · exact bne_iff_ne.mpr (by omega)
    · rcases Nat.le_one_iff_eq_zero_or_eq_one.mp (Nat.le_of_lt_succ hi) with rfl | rfl <;> decide
  by_cases hk : k = 0
  · simp only [sampleNetwork, if_pos hk, List.mem_cons, List.not_mem_nil, or_false] at hturn
    rcases hturn with rfl | rfl | rfl | rfl | rfl | rfl
    · rw [← Option.some.inj (PollResult.ready.inj hpoll)]
      exact Genuine.other _ (by decide)
    · rw [← Option.some.inj (PollResult.ready.inj hpoll)]
      exact hreply 1 (by decide) hk
    · exact absurd hpoll (by simp only [reduceCtorEq, not_false_eq_true])
    · rw [← Option.some.inj (PollResult.ready.inj hpoll)]
      exact hreply 1 (by decide) hk
    · rw [← Option.some.inj (PollResult.ready.inj hpoll)]
      exact hreply 0 (by decide) hk
    · exact absurd hpoll (by simp only [reduceCtorEq, not_false_eq_true])
  · simp only [sampleNetwork, if_neg hk] at hturn
    exact absurd hturn List.not_mem_nil

theorem probe_attributed_shared :
    probe sampleNetwork [sharedItem 1, sharedItem 2, sharedItem 3] =
        some [answer 18 (sharedItem 1), answer 12 (sharedItem 2), sharedItem 3] ∧
      Attributed sampleNetwork [sharedItem 1, sharedItem 2, sharedItem 3]
        [answer 18 (sharedItem 1), answer 12 (sharedItem 2), sharedItem 3] := by
  have hprobe : probe sampleNetwork [sharedItem 1, sharedItem 2, sharedItem 3] =
      some [answer 18 (sharedItem 1), answer 12 (sharedItem 2), sharedItem 3] := by decide +kernel
  have hgenuine : GenuineRun sampleNetwork [sharedItem 1, sharedItem 2, sharedItem 3] :=
    genuine_sampleNetwork
  have hends : ∀ k, k * pingBatchSize <
      (pingIndices [sharedItem 1, sharedItem 2, sharedItem 3]).length →
      BatchEnds sampleNetwork [sharedItem 1, sharedItem 2, sharedItem 3] k := by
    intro k hk
    have hthree : (pingIndices [sharedItem 1, sharedItem 2, sharedItem 3]).length = 3 := by decide
    rw [hthree, pingBatchSize] at hk
    have hzero : k = 0 := by omega
    exact ⟨⟨19, .timedOut⟩, by rw [hzero]; decide, .inr (.inl rfl)⟩
  rcases probe_attributed (by decide) (by decide) hgenuine hends with ⟨final, hfinal, hall⟩
  rw [hprobe, Option.some.injEq] at hfinal
  exact ⟨hprobe, hfinal ▸ hall⟩

end Zd1200
