import Zd1200.Lib.Binary64
import Zd1200.Lib.Checked
import Zd1200.Lib.Records
import Zd1200.Export.Mac

/-!
# Reading Day Files

`parseDay` of the browser.

The reader takes nothing for granted. It recomputes the offsets from the
counts in the header and refuses a file whose own offsets differ, and it goes
through the codebook, the rounds and both lists of MACs and refuses them
unless they ascend. Numbers are doubles, so a product of two counts is
rounded before it is compared. A read behind the end of the buffer throws as
well.

The four loops over ascending entries are one loop here. It stops at the
first entry that cannot be read or that does not follow the one before.

## Main definitions

* `JsError`: What the reader throws.
* `Day`: What it returns.
* `readAscending`: The loop over ascending entries.
* `parseDay`: The reader.

## Theorems

* `readAscending_ok_iff`: When the loop ends, and with what.
-/

namespace Zd1200

/-- What the reader throws: an error of its own, a read behind the end of a
    view, or a use of a byte that is not there. -/
inductive JsError
  | error (message : String)
  | rangeError
  | typeError
  deriving DecidableEq, Repr

structure Day where
  version : Nat
  bytes : Bytes
  codebook : List Nat
  start : Nat
  stop : Nat
  generation : Nat
  roundCount : Nat
  targetCount : Nat
  timestamps : List Nat
  macs : List Bytes
  samplesOffset : Nat
  snrOffset : Nat
  stateOffset : Nat
  apCount : Nat
  apMacs : List Bytes
  air24Offset : Nat
  air5Offset : Nat
  meshSnrOffset : Nat
  deriving DecidableEq, Repr

/-- `view.getUint16` and `view.getUint32`. -/
def getUint (bytes : Bytes) (offset width : Nat) : Except JsError Nat :=
  match readLe bytes offset width with
  | some value => .ok value
  | none => .error .rangeError

/-- `macAt`. -/
def macAt (bytes : Bytes) (offset : Nat) : Except JsError Bytes :=
  if offset + 6 ≤ bytes.length then .ok (macText ((bytes.drop offset).take 6))
  else .error .typeError

/-- The loop over entries `i`, `i+1`, …: each one is read and refused if
    `bad` says so of it and the one before. -/
def readAscending {α : Type} (read : Nat → Except JsError α) (bad : Option α → α → Bool)
    (message : String) : Nat → Nat → Option α → Except JsError (List α)
  | 0, _, _ => .ok []
  | count + 1, i, previous => do
      let value ← read i
      raiseIf (bad previous value = true) (.error message)
      let rest ← readAscending read bad message count (i + 1) (some value)
      return value :: rest

/-- `value<=previous` for texts. -/
def textLe (a b : Bytes) : Bool := (compare a b).isLE

/-- A number that does not follow `previous`, or does not lie in `[low, high)`. -/
def badNumber (low high : Nat) (previous : Option Nat) (value : Nat) : Bool :=
  previous.any (fun previous => value ≤ previous) || value < low || high ≤ value

/-- A MAC that does not follow `previous`. -/
def badMac (previous : Option Bytes) (value : Bytes) : Bool :=
  previous.any fun previous => textLe value previous

/-- The telemetry part of a header of version 2. -/
structure Telemetry where
  snrOffset : Nat
  stateOffset : Nat
  apCount : Nat
  apMacsOffset : Nat
  air24Offset : Nat
  air5Offset : Nat
  meshSnrOffset : Nat
  fileEnd : Nat
  deriving DecidableEq, Repr

/-- The telemetry offsets of version 2, or the defaults of version 1. -/
def readTelemetry (bytes : Bytes) (version flags roundCount samplesOffset matrixSize : Nat) :
    Except JsError Telemetry := do
  if version = 2 then do
    raiseIf (flags ≠ 31) (.error "Unsupported Performance History telemetry flags.")
    let snrOffset ← getUint bytes 52 4
    let stateOffset ← getUint bytes 56 4
    let apCount ← getUint bytes 60 4
    let apMacsOffset ← getUint bytes 64 4
    let air24Offset ← getUint bytes 68 4
    let air5Offset ← getUint bytes 72 4
    let meshSnrOffset ← getUint bytes 76 4
    let fileEnd ← getUint bytes 80 4
    -- Sizes are numbers of the language, which are doubles.
    let apMatrix := mulDouble apCount roundCount
    raiseIf (snrOffset ≠ addDouble samplesOffset matrixSize ∨
        stateOffset ≠ addDouble snrOffset matrixSize ∨
        apMacsOffset < addDouble stateOffset matrixSize ∨
        air24Offset < addDouble apMacsOffset (mulDouble apCount 6) ∨
        air5Offset ≠ addDouble air24Offset apMatrix ∨
        meshSnrOffset ≠ addDouble air5Offset apMatrix ∨
        fileEnd ≠ addDouble meshSnrOffset apMatrix)
      (.error "Invalid Performance History telemetry offsets.")
    return { snrOffset, stateOffset, apCount, apMacsOffset, air24Offset, air5Offset,
             meshSnrOffset, fileEnd }
  else
    -- A file of version 1 ends behind its samples.
    return { snrOffset := 0, stateOffset := 0, apCount := 0, apMacsOffset := 0, air24Offset := 0,
             air5Offset := 0, meshSnrOffset := 0, fileEnd := addDouble samplesOffset matrixSize }

/-- The constant `MAGIC`. -/
def magicBytes : Bytes := [0x5a, 0x44, 0x50, 0x4d, 0x44, 0x41, 0x59, 0x00]

def parseDay (bytes : Bytes) : Except JsError Day := do
  raiseIf (bytes.length < 576 ∨ bytes.take 8 ≠ magicBytes)
    (.error "Invalid Performance History daily file magic.")
  let version ← getUint bytes 8 2
  let headerSize ← getUint bytes 10 2
  let flags ← getUint bytes 12 4
  let start ← getUint bytes 16 4
  let stop ← getUint bytes 20 4
  let roundCount ← getUint bytes 24 4
  let targetCount ← getUint bytes 28 4
  let timeout ← getUint bytes 32 2
  let codeCount ← getUint bytes 34 2
  let timestampsOffset ← getUint bytes 36 4
  let macsOffset ← getUint bytes 40 4
  let samplesOffset ← getUint bytes 44 4
  let generation ← getUint bytes 48 4
  -- The version also says how long the header is.
  raiseIf ((version ≠ 1 ∧ version ≠ 2) ∨ headerSize ≠ (if version = 1 then 576 else 640) ∨
      codeCount ≠ 254 ∨ (stop : Int) - start ≠ 86400)
    (.error "Unsupported Performance History daily format.")
  raiseIf (version = 1 ∧ flags ≠ 1) (.error "Unsupported Performance History daily flags.")
  let matrixSize := mulDouble targetCount roundCount
  let t ← readTelemetry bytes version flags roundCount samplesOffset matrixSize
  raiseIf (timestampsOffset ≠ headerSize ∨
      macsOffset ≠ addDouble timestampsOffset (mulDouble roundCount 4) ∨
      samplesOffset < addDouble macsOffset (mulDouble targetCount 6) ∨
      t.fileEnd ≠ bytes.length)
    (.error "Invalid Performance History daily offsets.")
  -- The codebook stands at the end of either header.
  let codebookOffset := if version = 1 then 64 else 132
  let codebook ← readAscending (fun i => getUint bytes (codebookOffset + i * 2) 2)
    (badNumber 1 (timeout + 1)) "Invalid Performance History latency codebook." codeCount 0 none
  let timestamps ← readAscending (fun i => getUint bytes (timestampsOffset + i * 4) 4)
    (badNumber start stop) "Invalid Performance History round timestamps." roundCount 0 none
  let macs ← readAscending (fun i => macAt bytes (macsOffset + i * 6))
    badMac "Invalid Performance History target order." targetCount 0 none
  let apMacs ← readAscending (fun i => macAt bytes (t.apMacsOffset + i * 6))
    badMac "Invalid Performance History AP order." t.apCount 0 none
  return { version, bytes, codebook, start, stop, generation, roundCount, targetCount, timestamps,
           macs, samplesOffset, snrOffset := t.snrOffset, stateOffset := t.stateOffset,
           apCount := t.apCount, apMacs, air24Offset := t.air24Offset, air5Offset := t.air5Offset,
           meshSnrOffset := t.meshSnrOffset }

/-- No entry is refused after the one before. -/
def Accepts {α : Type} (bad : Option α → α → Bool) : Option α → List α → Prop
  | _, [] => True
  | previous, value :: rest => bad previous value = false ∧ Accepts bad (some value) rest

/-- The loop ends with the entries it reads, if each follows the one before. -/
theorem readAscending_ok_iff {α : Type} (read : Nat → Except JsError α)
    (bad : Option α → α → Bool) (message : String) (values : List α) (i : Nat)
    (previous : Option α) (hread : ∀ k value, values[k]? = some value → read (i + k) = .ok value)
    (result : List α) :
    readAscending read bad message values.length i previous = .ok result ↔
      result = values ∧ Accepts bad previous values := by
  induction values generalizing i previous result with
  | nil =>
      simp only [List.length_nil, readAscending, Except.ok.injEq, Accepts, and_true]
      exact eq_comm
  | cons value rest ih =>
      have hfirst : read i = .ok value := hread 0 value rfl
      -- The rest is read from the next index on.
      have hrest : ∀ k v, rest[k]? = some v → read (i + 1 + k) = .ok v := by
        intro k v hk
        rw [Nat.add_assoc, Nat.add_comm 1 k]
        exact hread (k + 1) v (by rwa [List.getElem?_cons_succ])
      simp only [List.length_cons, readAscending, bind_ok_iff, raiseIf_ok_iff, exists_const,
        pure_ok_iff, hfirst, Except.ok.injEq, Accepts, Bool.not_eq_true]
      constructor
      · rintro ⟨v, rfl, hgood, tail, htail, rfl⟩
        rcases (ih (i + 1) (some value) hrest tail).mp htail with ⟨rfl, hacc⟩
        exact ⟨rfl, hgood, hacc⟩
      · rintro ⟨rfl, hgood, hacc⟩
        exact ⟨value, rfl, hgood, rest, (ih (i + 1) (some value) hrest rest).mpr ⟨rfl, hacc⟩, rfl⟩

end Zd1200
