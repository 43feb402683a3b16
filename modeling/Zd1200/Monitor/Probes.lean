import Zd1200.Lib.BigEndian
import Zd1200.Monitor.Tick

/-!
# Probes

The probes of a round: `parallel_ping`, request by request and reply by reply.

The targets are probed in batches of 512, all through one raw socket. Such a
socket gets every ICMP message that the system receives, those to other
programs among them, and replies to a batch that is over. A batch is closed
when all that was sent is answered, at its deadline, or when the wait for a
message fails or runs out.

What the network and the clock do is the `PingEnv`: a batch's turns through
its loop, each with the time at its beginning and what the wait for a message
came to. The index of a request is its position among the targets that are
probed. It is written into 32 bits, which is the width of a count of items in
the controller.

## Main definitions

* `echoRequest`, `replyPosition`: Requests, and how a reply is told.
* `PingEnv`: What probing meets.
* `Batch`: A batch that is under way.
* `sendBatch`, `listenOnce`: The two loops over a batch.
* `probe`: All batches.
* `heard`: What was received while a batch was open.
-/

namespace Zd1200

/-! ### Messages -/

def icmpMagic : Nat := 0x5a443132

def pingBatchSize : Nat := 512

/-- The loop of `icmp_checksum`: the sum of the words in the order of the
    machine. -/
def icmpSum : Bytes → Nat
  | [] => 0
  | [last] => last.toNat
  | low :: high :: rest => low.toNat + 256 * high.toNat + icmpSum rest

/-- `icmp_checksum`: carries are added until there are none, for which two
    rounds are enough in 32 bits. -/
def icmpChecksum (data : Bytes) : Nat :=
  let folded := icmpSum data % 65536 + icmpSum data / 65536
  65535 - (folded % 65536 + folded / 65536)

/-- What follows the checksum in a request and in its reply. -/
def echoTail (identifier : UInt16) (i : Nat) : Bytes :=
  beBytes 2 identifier.toNat ++ beBytes 2 (i + 1) ++ beBytes 4 icmpMagic ++ beBytes 4 i

/-- The `struct echo_packet` of the request with an index. -/
def echoRequest (identifier : UInt16) (i : Nat) : Bytes :=
  let blank := [8, 0] ++ [0, 0] ++ echoTail identifier i
  [8, 0] ++ leBytes 2 (icmpChecksum blank) ++ echoTail identifier i

/-- A message as it is received, with the header of its IP packet. -/
structure Datagram where
  source : List Nat
  bytes : Bytes
  deriving DecidableEq, Repr

/-- The index of the request that a message is a reply to. -/
def replyPosition (identifier : UInt16) (buffer : Bytes) : Option Nat :=
  let offset := ((buffer.headD 0).toNat % 16) * 4
  let packet := buffer.drop offset
  if 20 + 16 ≤ buffer.length ∧ offset + 16 ≤ buffer.length ∧ packet.headD 0 = 0 ∧
      beNat ((packet.drop 4).take 2) = identifier.toNat ∧
      beNat ((packet.drop 8).take 4) = icmpMagic then
    some (beNat ((packet.drop 12).take 4))
  else none

/-! ### Batches -/

/-- What the wait for a message comes to. A message is read with the time at
    which it is looked at, if reading it does not fail. -/
inductive PollResult
  | failed
  | interrupted
  | timedOut
  | ready (received : Option (Datagram × Int))
  deriving DecidableEq, Repr

/-- A turn through the loop of a batch. -/
structure Turn where
  current : Int
  poll : PollResult
  deriving DecidableEq, Repr

/-- What probing meets: the time at which a request is sent and whether that
    succeeds, by the request's index, and the turns of each batch. Turns after
    the end of a batch are not looked at. -/
structure PingEnv where
  identifier : UInt16
  sentMs : Nat → Int
  sends : Nat → Bool
  turns : Nat → List Turn

/-- A batch that is under way, with all items. -/
structure Batch where
  items : List Measurement
  pending : Int
  deadline : Int
  closed : Bool
  deriving DecidableEq, Repr

/-- The loop of the batch goes on. -/
def Batch.isOpen (b : Batch) : Bool := !b.closed && decide (0 < b.pending)

/-- The numbers of the items that are probed. -/
def pingIndices (items : List Measurement) : List Nat :=
  (List.range items.length).filter fun n => items[n]?.any Measurement.pingable

section Probes

variable (env : PingEnv) (indices : List Nat)

/-- One request: what it does to the item and to the batch. -/
def sendOne (b : Batch) (i : Nat) : Batch :=
  match indices[i]? with
  | none => b
  | some n =>
      { b with
        items := b.items.modify n fun item => { item with state := .timeout, rttMs := timeoutMs }
        pending := if env.sends i then b.pending + 1 else b.pending
        deadline := if env.sends i then max b.deadline (env.sentMs i + timeoutMs) else b.deadline }

/-- The indices of a batch. -/
def batchRange (k : Nat) : List Nat :=
  (List.range indices.length).filter fun i =>
    k * pingBatchSize ≤ i ∧ i < (k + 1) * pingBatchSize

/-- The requests of a batch. -/
def sendBatch (items : List Measurement) (k : Nat) : Batch :=
  (batchRange indices k).foldl (sendOne env indices) ⟨items, 0, 0, false⟩

/-- An item that is answered. -/
def answer (elapsed : Int) (item : Measurement) : Measurement :=
  { item with state := .ok, rttMs := max 0 (min elapsed timeoutMs), responded := true }

/-- A message that was received in a batch. -/
def receive (k : Nat) (b : Batch) (message : Datagram × Int) : Batch :=
  match replyPosition env.identifier message.1.bytes with
  | none => b
  | some i =>
      if i ∈ batchRange indices k then
        match indices[i]? with
        | none => b
        | some n =>
            if b.items[n]?.any fun item => !item.responded && item.address = some message.1.source
            then
              { b with
                items := b.items.modify n (answer (message.2 - env.sentMs i))
                pending := b.pending - 1 }
            else b
      else b

/-- What is received in a turn. -/
def Batch.receives (b : Batch) (turn : Turn) : Option (Datagram × Int) :=
  if b.isOpen ∧ turn.current < b.deadline then
    match turn.poll with
    | .ready received => received
    | _ => none
  else none

/-- A turn through the loop of a batch. -/
def listenOnce (k : Nat) (b : Batch) (turn : Turn) : Batch :=
  if b.isOpen then
    if b.deadline ≤ turn.current then { b with closed := true }
    else
      match turn.poll with
      | .failed => { b with closed := true }
      | .interrupted => b
      | .timedOut => { b with closed := true }
      | .ready none => b
      | .ready (some message) => receive env indices k b message
  else b

/-- The items after a batch, if its loop has come to its end. -/
def probeBatch (items : List Measurement) (k : Nat) : Option (List Measurement) :=
  let b := (env.turns k).foldl (listenOnce env indices k) (sendBatch env indices items k)
  if b.isOpen then none else some b.items

/-- The items before a batch. -/
def itemsBefore (items : List Measurement) (k : Nat) : Option (List Measurement) :=
  (List.range k).foldlM (probeBatch env (pingIndices items)) items

/-- `parallel_ping`, after the socket has been opened. -/
def probe (items : List Measurement) : Option (List Measurement) :=
  itemsBefore env items
    (((pingIndices items).length + (pingBatchSize - 1)) / pingBatchSize)

/-! ### What was heard -/

/-- What is received in the turns of a batch. -/
def heard (k : Nat) : Batch → List Turn → List (Datagram × Int)
  | _, [] => []
  | b, turn :: rest => (b.receives turn).toList ++ heard k (listenOnce env indices k b turn) rest

/-- What is received while a batch is open. -/
def heardIn (items : List Measurement) (k : Nat) : List (Datagram × Int) :=
  match itemsBefore env items k with
  | none => []
  | some before =>
      heard env (pingIndices items) k (sendBatch env (pingIndices items) before k) (env.turns k)

/-- A message is a reply to a request, and it comes from where that was sent. -/
def isReply (i : Nat) (address : Option (List Nat)) (message : Datagram × Int) : Bool :=
  replyPosition env.identifier message.1.bytes = some i && address = some message.1.source

/-- The milliseconds after which the first reply to a request came. -/
def replyAmong (messages : List (Datagram × Int)) (i : Nat) (address : Option (List Nat)) :
    Option Int :=
  (messages.find? (isReply env i address)).map fun message => message.2 - env.sentMs i

end Probes

end Zd1200
