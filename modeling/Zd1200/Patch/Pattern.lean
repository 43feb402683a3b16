import Mathlib.Data.List.Basic
import Mathlib.Data.List.Infix
import Mathlib.Data.List.TakeWhile
import Zd1200.Lib.Checked
import Zd1200.Lib.Python
import Zd1200.Lib.Slice

/-!
# Masked Byte Patterns

The pattern language of `patch_binary_artifact.py`: hexadecimal bytes with
`??` for a byte that may be anything, and the search for such a pattern in a
binary.

A pattern keeps two columns of the same length, the byte values and whether
each is required. The equality of the lengths is a field, so no lemma about a
pattern has to carry it. `MaskedBytes.cell` reads the two columns as one
optional byte, which is how every statement about a pattern is phrased.

Parsing is Python's, not a cleaned-up grammar. White space of any kind goes
first, the rest is cut into pairs, and a pair that is not `??` is given to
`int(token, 16)`, which takes a sign and any Unicode decimal digit besides the
ASCII hexadecimal ones. A negative result is then refused by `bytearray`.

`findMasked` does not compare the pattern at every offset. It looks for the
longest run of required bytes, the anchor, with a substring search, and tests
the pattern only where the anchor occurs. `mem_findMasked` says that nothing
is missed: if the pattern matches somewhere then the anchor occurs there, and
a pattern without an anchor has nothing to require. The scan is given one
unit of fuel for every offset, which the same lemma shows to be enough.

## Main definitions

* `PyError`: The exceptions the patcher raises.
* `MaskedBytes`: A pattern: byte values and whether each is required.
* `MaskedBytes.cell`: The required byte at a position, if there is one.
* `parseMaskedHex`: Reading a pattern from its text.
* `matchesAt`: A pattern matches the data at an offset.
* `longestExactAnchor`: The longest run of required bytes.
* `findMasked`: Every offset at which a pattern matches.
* `overlayPattern`: A signature with a replacement written into it.
* `renderReplacement`: The bytes a replacement writes over given ones.

## Theorems

* `matchesAt_iff`: Matching, read byte by byte.
* `anchorLoop_run`: The anchor is a run of required bytes.
* `anchorLoop_empty`: No anchor means no required byte.
* `mem_findMasked`: The search finds exactly the matching offsets.
* `renderReplacement_ok`: A rendered byte is the required or the old one.
* `setSlice_render`: Writing rendered bytes is a masked write.
-/

namespace Zd1200

/-- The exceptions the patcher raises, with their messages. -/
inductive PyError
  | valueError (message : String)
  | assertionError (message : String)
  deriving DecidableEq, Repr

/-- A byte pattern. A byte that is not required matches anything. -/
structure MaskedBytes where
  values : Bytes
  exact : List Bool
  same : exact.length = values.length

namespace MaskedBytes

def length (p : MaskedBytes) : Nat := p.values.length

/-- The byte the pattern requires at position `k`, if it requires one. -/
def cell (p : MaskedBytes) (k : Nat) : Option UInt8 :=
  if p.exact[k]? = some true then p.values[k]? else none

/-- The columns of a pattern as one list of optional bytes. -/
def cells (p : MaskedBytes) : List (Option UInt8) :=
  List.zipWith (fun value required => if required then some value else none) p.values p.exact

theorem cell_eq_some_iff (p : MaskedBytes) (k : Nat) (v : UInt8) :
    p.cell k = some v ↔ p.exact[k]? = some true ∧ p.values[k]? = some v := by
  unfold cell
  by_cases h : p.exact[k]? = some true
  · rw [if_pos h]
    exact ⟨fun hv => ⟨h, hv⟩, fun hv => hv.2⟩
  · rw [if_neg h]
    exact ⟨fun hv => absurd hv (by simp only [reduceCtorEq, not_false_eq_true]),
      fun hv => absurd hv.1 h⟩

theorem cell_lt (p : MaskedBytes) (k : Nat) (v : UInt8) (h : p.cell k = some v) :
    k < p.length := by
  rcases (p.cell_eq_some_iff k v).mp h with ⟨_, hv⟩
  rcases List.getElem?_eq_some_iff.mp hv with ⟨hlt, _⟩
  exact hlt

theorem length_cells (p : MaskedBytes) : p.cells.length = p.length := by
  rw [cells, List.length_zipWith, p.same, Nat.min_self]
  rfl

theorem getElem?_cells (p : MaskedBytes) (k : Nat) : (p.cells[k]?).join = p.cell k := by
  rw [cells, List.getElem?_zipWith]
  by_cases hk : k < p.values.length
  · have hk' : k < p.exact.length := by rw [p.same]; exact hk
    rw [List.getElem?_eq_getElem hk, List.getElem?_eq_getElem hk', cell,
      List.getElem?_eq_getElem hk, List.getElem?_eq_getElem hk']
    simp only [Option.join_some, Option.some.injEq]
  · rw [List.getElem?_eq_none (Nat.le_of_not_lt hk), cell,
      List.getElem?_eq_none (Nat.le_of_not_lt hk)]
    simp only [Option.join_none, ite_self]

end MaskedBytes

/-! ### Reading a pattern -/

/-- The characters Python's `str.split` takes for white space. -/
def isSpace (c : Char) : Bool :=
  let n := c.toNat
  (9 ≤ n && n ≤ 13) || (0x1c ≤ n && n ≤ 0x20) || n == 0x85 || n == 0xa0 || n == 0x1680 ||
    (0x2000 ≤ n && n ≤ 0x200a) || n == 0x2028 || n == 0x2029 || n == 0x202f || n == 0x205f ||
    n == 0x3000

/-- The zeros of the Unicode decimal digit blocks; each block is ten code
    points in numerical order (Unicode 15.1, which Python 3.13 has). -/
def decimalZeros : List Nat :=
  [0x30, 0x660, 0x6f0, 0x7c0, 0x966, 0x9e6, 0xa66, 0xae6, 0xb66, 0xbe6, 0xc66, 0xce6, 0xd66,
   0xde6, 0xe50, 0xed0, 0xf20, 0x1040, 0x1090, 0x17e0, 0x1810, 0x1946, 0x19d0, 0x1a80, 0x1a90,
   0x1b50, 0x1bb0, 0x1c40, 0x1c50, 0xa620, 0xa8d0, 0xa900, 0xa9d0, 0xa9f0, 0xaa50, 0xabf0,
   0xff10, 0x104a0, 0x10d30, 0x11066, 0x110f0, 0x11136, 0x111d0, 0x112f0, 0x11450, 0x114d0,
   0x11650, 0x116c0, 0x11730, 0x118e0, 0x11950, 0x11c50, 0x11d50, 0x11da0, 0x11f50, 0x16a60,
   0x16ac0, 0x16b50, 0x1d7ce, 0x1d7d8, 0x1d7e2, 0x1d7ec, 0x1d7f6, 0x1e140, 0x1e2f0, 0x1e4f0,
   0x1e950, 0x1fbf0]

/-- The value of a digit in base 16. Letters count in ASCII only, decimal
    digits in every script. -/
def digitValue (c : Char) : Option Nat :=
  let n := c.toNat
  if 0x61 ≤ n ∧ n ≤ 0x66 then some (n - 0x61 + 10)
  else if 0x41 ≤ n ∧ n ≤ 0x46 then some (n - 0x41 + 10)
  else (decimalZeros.find? fun z => z ≤ n && n < z + 10).map (n - ·)

/-- `int(token, 16)` on a token of two characters. An underscore or a `0x`
    prefix would need a third one. -/
def intBase16 (token : Char × Char) : Option Int :=
  match token with
  | ('+', digit) => (digitValue digit).map Int.ofNat
  | ('-', digit) => (digitValue digit).map fun n => - Int.ofNat n
  | (high, low) => do
      let h ← digitValue high
      let l ← digitValue low
      return Int.ofNat (16 * h + l)

/-- One pair of characters as a byte value and whether it is required. -/
def parseToken (token : Char × Char) : Except PyError (UInt8 × Bool) :=
  if token = ('?', '?') then .ok (0, false)
  else match intBase16 token with
    | none => .error (.valueError ("invalid byte token " ++ reprText [token.1, token.2]))
    | some value =>
        if 0 ≤ value ∧ value < 256 then .ok (value.toNat.toUInt8, true)
        else .error (.valueError "byte must be in range(0, 256)")

/-- The characters two by two. -/
def tokens : List Char → List (Char × Char)
  | a :: b :: rest => (a, b) :: tokens rest
  | _ => []

def parseMaskedHex (text : String) : Except PyError MaskedBytes := do
  let compact := text.toList.filter fun c => !isSpace c
  raiseIf (compact = []) (.valueError "empty byte pattern")
  raiseIf (compact.length % 2 ≠ 0) (.valueError "byte pattern has an odd number of characters")
  let columns ← (tokens compact).mapM parseToken
  return ⟨columns.map Prod.fst, columns.map Prod.snd, by simp only [List.length_map]⟩

/-! ### Matching -/

def matchesAt (data : Bytes) (offset : Int) (pattern : MaskedBytes) : Bool :=
  if offset < 0 ∨ offset + pattern.length > data.length then false
  else
    let candidate := slice data offset (offset + pattern.length)
    (candidate.zip (pattern.values.zip pattern.exact)).all
      fun (got, want, required) => !required || got == want

/-- Matching, read byte by byte. -/
theorem matchesAt_iff (data : Bytes) (offset : Nat) (pattern : MaskedBytes) :
    matchesAt data offset pattern = true ↔
      offset + pattern.length ≤ data.length ∧
        ∀ k v, pattern.cell k = some v → data[offset + k]? = some v := by
  unfold matchesAt
  by_cases hout : offset + pattern.length ≤ data.length
  · rw [if_neg (by omega), List.all_eq_true]
    have hlen : (slice data (offset : Int) ((offset : Int) + pattern.length)).length
        = pattern.length := length_slice_window data offset pattern.length hout
    constructor
    · intro h
      refine ⟨hout, fun k v hcell => ?_⟩
      have hk := pattern.cell_lt k v hcell
      have hx : offset + k < data.length := by omega
      rcases (pattern.cell_eq_some_iff k v).mp hcell with ⟨hexact, hvalue⟩
      -- The three columns side by side at position `k`.
      have hmem := h (data[offset + k], v, true) (by
        rw [List.mem_iff_getElem?]
        refine ⟨k, ?_⟩
        rw [List.getElem?_zip_eq_some]
        refine ⟨?_, ?_⟩
        · rw [getElem?_slice_window data offset pattern.length k hout hk,
            List.getElem?_eq_getElem (by omega)]
        · rw [List.getElem?_zip_eq_some]
          exact ⟨hvalue, hexact⟩)
      simp only [Bool.not_true, Bool.false_or, beq_iff_eq] at hmem
      rw [List.getElem?_eq_getElem (by omega), hmem]
    · rintro ⟨_, h⟩ ⟨got, want, required⟩ hmem
      rcases List.mem_iff_getElem?.mp hmem with ⟨k, hk⟩
      rw [List.getElem?_zip_eq_some, List.getElem?_zip_eq_some] at hk
      rcases hk with ⟨hgot, hvalue, hexact⟩
      cases required with
      | false => rfl
      | true =>
          have hcell : pattern.cell k = some want :=
            (pattern.cell_eq_some_iff k want).mpr ⟨hexact, hvalue⟩
          have hklt := pattern.cell_lt k want hcell
          rw [getElem?_slice_window data offset pattern.length k hout hklt, h k want hcell,
            Option.some.injEq] at hgot
          simp only [hgot, Bool.not_true, Bool.false_or, beq_self_eq_true]
  · rw [if_pos (Or.inr (by omega))]
    simp only [Bool.false_eq_true, hout, false_and]

/-- A match at an integer offset is a match at a natural one. -/
theorem matchesAt_nonneg (data : Bytes) (offset : Int) (pattern : MaskedBytes)
    (h : matchesAt data offset pattern = true) : 0 ≤ offset := by
  by_contra hc
  rw [matchesAt, if_pos (Or.inl (by omega))] at h
  exact absurd h Bool.false_ne_true

/-- Matching at an integer offset, read byte by byte. -/
theorem matchesAt_iff_int (data : Bytes) (offset : Int) (pattern : MaskedBytes) :
    matchesAt data offset pattern = true ↔
      0 ≤ offset ∧ offset + pattern.length ≤ data.length ∧
        ∀ k v, pattern.cell k = some v → data[offset.toNat + k]? = some v := by
  constructor
  · intro h
    have hnn := matchesAt_nonneg data offset pattern h
    rw [← Int.toNat_of_nonneg hnn, matchesAt_iff] at h
    exact ⟨hnn, by omega, h.2⟩
  · rintro ⟨hnn, hfit, hbytes⟩
    rw [← Int.toNat_of_nonneg hnn, matchesAt_iff]
    exact ⟨by omega, hbytes⟩

/-! ### Searching -/

/-- The first inner loop of `_longest_exact_anchor`: the next required byte. -/
def runStart (pattern : MaskedBytes) (start : Nat) : Nat :=
  start + ((pattern.exact.drop start).takeWhile (! ·)).length

/-- The second inner loop: the end of the required bytes. -/
def runStop (pattern : MaskedBytes) (start : Nat) : Nat :=
  start + ((pattern.exact.drop start).takeWhile (·)).length

/-- The outer loop of `_longest_exact_anchor`, keeping the longest run. -/
def anchorLoop (pattern : MaskedBytes) : Nat → Nat → Nat × Bytes → Nat × Bytes
  | 0, _, best => best
  | fuel + 1, start, best =>
      if start < pattern.length then
        let start := runStart pattern start
        let stop := runStop pattern start
        let best := if stop - start > best.2.length
          then (start, (pattern.values.take stop).drop start) else best
        anchorLoop pattern fuel (stop + 1) best
      else best

def longestExactAnchor (pattern : MaskedBytes) : Nat × Bytes :=
  anchorLoop pattern pattern.length 0 (0, [])

/-- The scanning loop of `find_masked`. -/
def findMaskedLoop (data : Bytes) (pattern : MaskedBytes) (anchorOffset : Nat) (anchor : Bytes) :
    Nat → Nat → List Nat
  | 0, _ => []
  | fuel + 1, searchFrom =>
      match findFrom data anchor searchFrom with
      | none => []
      | some anchorHit =>
          let candidate : Int := (anchorHit : Int) - anchorOffset
          -- The search goes on behind the start of the anchor, so matches may overlap.
          let later := findMaskedLoop data pattern anchorOffset anchor fuel (anchorHit + 1)
          -- A candidate before the data does not match.
          if matchesAt data candidate pattern then candidate.toNat :: later else later

def findMasked (data : Bytes) (pattern : MaskedBytes) : List Nat :=
  let anchor := longestExactAnchor pattern
  if anchor.2 = [] then List.range (data.length + 1 - pattern.length)
  else findMaskedLoop data pattern anchor.1 anchor.2 (data.length + 1) 0

/-- `anchor` stands at position `start` of the pattern, all of it required. -/
def IsRun (pattern : MaskedBytes) (anchor : Nat × Bytes) : Prop :=
  ∀ k, k < anchor.2.length → pattern.cell (anchor.1 + k) = anchor.2[k]?

/-- Inside a `takeWhile` every element passes, and is the list's own. -/
theorem getElem?_of_lt_takeWhile {α : Type} (f : α → Bool) (xs : List α) (k : Nat)
    (h : k < (xs.takeWhile f).length) : ∃ b, xs[k]? = some b ∧ f b = true := by
  refine ⟨(xs.takeWhile f)[k], ?_, List.mem_takeWhile_imp (List.getElem_mem h)⟩
  exact List.prefix_iff_getElem?.mp (List.takeWhile_prefix f) k h

/-- The element just after a `takeWhile` does not pass. -/
theorem getElem?_length_takeWhile {α : Type} (f : α → Bool) (xs : List α) (b : α)
    (h : xs[(xs.takeWhile f).length]? = some b) : f b = false := by
  induction xs with
  | nil =>
      rw [List.getElem?_nil] at h
      exact absurd h (by simp only [reduceCtorEq, not_false_eq_true])
  | cons x xs ih =>
      by_cases hx : f x = true
      · rw [List.takeWhile_cons_of_pos hx, List.length_cons, List.getElem?_cons_succ] at h
        exact ih h
      · rw [List.takeWhile_cons_of_neg hx, List.length_nil, List.getElem?_cons_zero,
          Option.some.injEq] at h
        rw [← h, Bool.not_eq_true] at *
        exact hx

/-- A position inside the run is required. -/
theorem exact_of_lt_runStop (pattern : MaskedBytes) (start k : Nat) (hs : start ≤ k)
    (hk : k < runStop pattern start) : pattern.exact[k]? = some true := by
  unfold runStop at hk
  rcases getElem?_of_lt_takeWhile (·) (pattern.exact.drop start) (k - start) (by omega) with
    ⟨b, hb, hbt⟩
  rw [List.getElem?_drop, Nat.add_sub_cancel' hs] at hb
  rw [hb, show b = true from hbt]

theorem runStop_le (pattern : MaskedBytes) (start : Nat) (h : start ≤ pattern.length) :
    runStop pattern start ≤ pattern.length := by
  have hlen := (List.takeWhile_prefix (l := pattern.exact.drop start) (·)).length_le
  rw [List.length_drop, pattern.same] at hlen
  change start ≤ pattern.values.length at h
  change runStop pattern start ≤ pattern.values.length
  unfold runStop
  omega

/-- A position before the run is not required. -/
theorem cell_of_lt_runStart (pattern : MaskedBytes) (start k : Nat) (hs : start ≤ k)
    (hk : k < runStart pattern start) : pattern.cell k = none := by
  unfold runStart at hk
  rcases getElem?_of_lt_takeWhile (! ·) (pattern.exact.drop start) (k - start) (by omega) with
    ⟨b, hb, hbt⟩
  rw [List.getElem?_drop, Nat.add_sub_cancel' hs] at hb
  rw [MaskedBytes.cell, hb, if_neg]
  rw [Option.some.injEq]
  rintro rfl
  exact absurd hbt (by decide)

theorem runStart_le (pattern : MaskedBytes) (start : Nat) (h : start ≤ pattern.length) :
    runStart pattern start ≤ pattern.length := by
  have hlen := (List.takeWhile_prefix (l := pattern.exact.drop start) (! ·)).length_le
  rw [List.length_drop, pattern.same] at hlen
  change start ≤ pattern.values.length at h
  change runStart pattern start ≤ pattern.values.length
  unfold runStart
  omega

/-- An empty run means that its start is not required either. -/
theorem cell_of_runStop_le (pattern : MaskedBytes) (start : Nat)
    (h : runStop pattern start ≤ start) : pattern.cell start = none := by
  rcases hc : pattern.cell start with _ | v
  · rfl
  · rcases (pattern.cell_eq_some_iff start v).mp hc with ⟨hexact, _⟩
    have hzero : ((pattern.exact.drop start).takeWhile (·)).length = 0 := by
      unfold runStop at h
      omega
    have hstop := getElem?_length_takeWhile (·) (pattern.exact.drop start) true (by
      rw [hzero, List.getElem?_drop, Nat.add_zero]
      exact hexact)
    exact absurd hstop (by decide)

theorem length_run (pattern : MaskedBytes) (start : Nat) (h : start ≤ pattern.length) :
    ((pattern.values.take (runStop pattern start)).drop start).length
      = runStop pattern start - start := by
  have := runStop_le pattern start h
  unfold MaskedBytes.length at this
  rw [List.length_drop, List.length_take]
  omega

/-- The bytes of a run, as an anchor. -/
theorem isRun_run (pattern : MaskedBytes) (start : Nat) (h : start ≤ pattern.length) :
    IsRun pattern (start, (pattern.values.take (runStop pattern start)).drop start) := by
  intro k hk
  rw [length_run pattern start h] at hk
  rw [MaskedBytes.cell, exact_of_lt_runStop pattern start (start + k) (by omega) (by omega),
    if_pos rfl, List.getElem?_drop, List.getElem?_take_of_lt (by omega)]

/-- The anchor is a run of required bytes. -/
theorem anchorLoop_run (pattern : MaskedBytes) (fuel start : Nat) (best : Nat × Bytes)
    (h : IsRun pattern best) : IsRun pattern (anchorLoop pattern fuel start best) := by
  induction fuel generalizing start best with
  | zero => exact h
  | succ fuel ih =>
      rw [anchorLoop]
      by_cases hs : start < pattern.length
      · rw [if_pos hs]
        apply ih
        split
        · exact isRun_run pattern _ (runStart_le pattern start (by omega))
        · exact h
      · rw [if_neg hs]
        exact h

/-- The loop never forgets a longer run. -/
theorem anchorLoop_length (pattern : MaskedBytes) (fuel start : Nat) (best : Nat × Bytes) :
    best.2.length ≤ (anchorLoop pattern fuel start best).2.length := by
  induction fuel generalizing start best with
  | zero => exact Nat.le_refl _
  | succ fuel ih =>
      rw [anchorLoop]
      by_cases hs : start < pattern.length
      · rw [if_pos hs]
        refine Nat.le_trans ?_ (ih _ _)
        split
        next hlonger =>
          rw [length_run pattern _ (runStart_le pattern start (by omega))]
          omega
        next => exact Nat.le_refl _
      · rw [if_neg hs]

/-- No anchor means no required byte from where the loop started. -/
theorem anchorLoop_empty (pattern : MaskedBytes) (fuel start : Nat) (best : Nat × Bytes)
    (hfuel : pattern.length ≤ start + fuel) (h : (anchorLoop pattern fuel start best).2 = []) :
    ∀ k, start ≤ k → pattern.cell k = none := by
  have hbeyond : ∀ k, pattern.length ≤ k → pattern.cell k = none := fun k hk => by
    rcases hc : pattern.cell k with _ | v
    · rfl
    · have := pattern.cell_lt k v hc
      omega
  induction fuel generalizing start best with
  | zero => exact fun k hk => hbeyond k (by omega)
  | succ fuel ih =>
      intro k hk
      rw [anchorLoop] at h
      by_cases hs : start < pattern.length
      · rw [if_pos hs] at h
        -- The run of this round is empty, or the result would not be.
        have hshort := anchorLoop_length pattern fuel (runStop pattern (runStart pattern start) + 1)
          (if runStop pattern (runStart pattern start) - runStart pattern start > best.2.length
            then (runStart pattern start,
              (pattern.values.take (runStop pattern (runStart pattern start))).drop
                (runStart pattern start)) else best)
        have hempty : runStop pattern (runStart pattern start) ≤ runStart pattern start := by
          by_contra hc
          have hresult := congrArg List.length h
          rw [List.length_nil] at hresult
          rw [hresult] at hshort
          split at hshort
          next hlonger =>
            rw [length_run pattern _ (runStart_le pattern start (by omega))] at hshort
            omega
          next hlonger => omega
        -- Before, at and behind the start of the run.
        by_cases hlt : k < runStart pattern start
        · exact cell_of_lt_runStart pattern start k hk hlt
        · have hstart : start ≤ runStart pattern start := Nat.le_add_right _ _
          have hstop : runStart pattern start ≤ runStop pattern (runStart pattern start) :=
            Nat.le_add_right _ _
          by_cases heq : k = runStart pattern start
          · rw [heq]
            exact cell_of_runStop_le pattern _ hempty
          · exact ih _ _ (by omega) h k (by omega)
      · exact hbeyond k (by omega)

/-- A match brings the anchor with it. -/
theorem occurs_of_matchesAt (data : Bytes) (pattern : MaskedBytes) (anchor : Nat × Bytes)
    (hrun : IsRun pattern anchor) (o : Nat) (h : matchesAt data o pattern = true) :
    Occurs data anchor.2 (o + anchor.1) := by
  rcases (matchesAt_iff data o pattern).mp h with ⟨_, hbytes⟩
  refine List.prefix_iff_getElem?.mpr fun k hk => ?_
  rw [List.getElem?_drop, Nat.add_assoc]
  apply hbytes
  rw [hrun k hk, List.getElem?_eq_getElem hk]

/-- The scan finds the matches whose anchor lies at or after its position. The
    induction is on the fuel, one unit for every offset still ahead. -/
theorem mem_findMaskedLoop (data : Bytes) (pattern : MaskedBytes) (anchor : Nat × Bytes)
    (hrun : IsRun pattern anchor) (hne : anchor.2 ≠ []) (fuel searchFrom o : Nat)
    (hfuel : data.length + 1 ≤ searchFrom + fuel) :
    o ∈ findMaskedLoop data pattern anchor.1 anchor.2 fuel searchFrom ↔
      matchesAt data o pattern = true ∧ searchFrom ≤ o + anchor.1 := by
  induction fuel generalizing searchFrom with
  | zero =>
      simp only [findMaskedLoop, List.not_mem_nil, false_iff, not_and]
      intro hmatch hle
      have := (occurs_of_matchesAt data pattern anchor hrun o hmatch).lt hne
      omega
  | succ fuel ih =>
      rw [findMaskedLoop]
      cases hfind : findFrom data anchor.2 searchFrom with
      | none =>
          simp only [List.not_mem_nil, false_iff, not_and]
          intro hmatch hle
          exact (findFrom_eq_none_iff data anchor.2 searchFrom hne).mp hfind _ hle
            (occurs_of_matchesAt data pattern anchor hrun o hmatch)
      | some hit =>
          rcases (findFrom_eq_some_iff data anchor.2 searchFrom hit hne).mp hfind with
            ⟨hle, hocc, hfirst⟩
          have hlt := hocc.lt hne
          have hrest := ih (hit + 1) (by omega)
          simp only []
          -- The only offset between the two positions is the candidate.
          have hsplit : matchesAt data o pattern = true →
              (searchFrom ≤ o + anchor.1 ↔ (o : Int) = (hit : Int) - anchor.1 ∨
                hit + 1 ≤ o + anchor.1) := fun hmatch => by
            constructor
            · intro hs
              have hocc' := occurs_of_matchesAt data pattern anchor hrun o hmatch
              rcases Nat.lt_trichotomy (o + anchor.1) hit with h1 | h1 | h1
              · exact absurd hocc' (hfirst _ hs h1)
              · exact Or.inl (by omega)
              · exact Or.inr (by omega)
            · rintro (h1 | h1) <;> omega
          by_cases hcand : matchesAt data ((hit : Int) - anchor.1) pattern = true
          · have hnn := matchesAt_nonneg data _ pattern hcand
            rw [if_pos hcand, List.mem_cons, hrest]
            constructor
            · rintro (rfl | ⟨hmatch, hs⟩)
              · refine ⟨by rwa [Int.toNat_of_nonneg hnn], by omega⟩
              · exact ⟨hmatch, (hsplit hmatch).mpr (Or.inr hs)⟩
            · rintro ⟨hmatch, hs⟩
              rcases (hsplit hmatch).mp hs with h1 | h1
              · exact Or.inl (by omega)
              · exact Or.inr ⟨hmatch, h1⟩
          · rw [if_neg hcand, hrest]
            refine and_congr_right fun hmatch => ?_
            rw [hsplit hmatch]
            constructor
            · exact Or.inr
            · rintro (h1 | h1)
              · exact absurd (h1 ▸ hmatch) hcand
              · exact h1

/-- The anchored search finds exactly the matching offsets. -/
theorem mem_findMasked (data : Bytes) (pattern : MaskedBytes) (o : Nat) :
    o ∈ findMasked data pattern ↔ matchesAt data o pattern = true := by
  have hrun : IsRun pattern (longestExactAnchor pattern) :=
    anchorLoop_run pattern _ _ _ fun k hk => absurd hk (Nat.not_lt_zero k)
  rw [findMasked]
  by_cases hempty : (longestExactAnchor pattern).2 = []
  · -- Nothing is required, so every offset at which the pattern fits is a match.
    have hnone := anchorLoop_empty pattern pattern.length 0 (0, []) (by omega) hempty
    rw [if_pos hempty, List.mem_range, matchesAt_iff]
    constructor
    · intro h
      refine ⟨by omega, fun k v hv => ?_⟩
      rw [hnone k (Nat.zero_le k)] at hv
      exact absurd hv (by simp only [reduceCtorEq, not_false_eq_true])
    · intro h
      have := h.1
      omega
  · rw [if_neg hempty, mem_findMaskedLoop data pattern _ hrun hempty _ _ _ (by omega)]
    simp only [Nat.zero_le, and_true]

/-! ### Replacing -/

/-- Require byte `v` at position `i`. -/
def MaskedBytes.require (p : MaskedBytes) (i : Nat) (v : UInt8) : MaskedBytes :=
  ⟨p.values.set i v, p.exact.set i true, by rw [List.length_set, List.length_set, p.same]⟩

/-- Require nothing at position `i`. -/
def MaskedBytes.forget (p : MaskedBytes) (i : Nat) : MaskedBytes :=
  ⟨p.values, p.exact.set i false, by rw [List.length_set, p.same]⟩

def overlayPattern (signature : MaskedBytes) (patchOffset : Int) (replacement : MaskedBytes)
    (preserveWildcards : Bool) : Except PyError MaskedBytes := do
  raiseIf (patchOffset < 0 ∨ patchOffset + replacement.length > signature.length)
    (.valueError "replacement lies outside signature")
  return (replacement.values.zip replacement.exact).zipIdx.foldl
    (fun overlaid ((value, required), index) =>
      if required then overlaid.require (patchOffset.toNat + index) value
      else if preserveWildcards then overlaid
      else overlaid.forget (patchOffset.toNat + index))
    signature

def renderReplacement (original : Bytes) (replacement : MaskedBytes) : Except PyError Bytes := do
  raiseIf (original.length ≠ replacement.length) (.valueError "replacement length mismatch")
  return List.zipWith (fun old cell => cell.getD old) original replacement.cells

/-- A rendered byte is the required one, or the old one where nothing is. -/
theorem renderReplacement_ok (original : Bytes) (replacement : MaskedBytes) (new : Bytes) :
    renderReplacement original replacement = .ok new ↔
      original.length = replacement.length ∧
        new = List.zipWith (fun old cell => cell.getD old) original replacement.cells := by
  unfold renderReplacement
  simp only [bind_ok_iff, raiseIf_ok_iff, ne_eq, not_not, pure_ok_iff, exists_const]
  exact and_congr_right fun _ => eq_comm

/-- Writing the rendered bytes back over the window they were rendered from
    is the masked write of the replacement. -/
theorem setSlice_render (data : Bytes) (replacement : MaskedBytes) (new : Bytes) (o : Nat)
    (hfit : o + replacement.length ≤ data.length)
    (h : renderReplacement (slice data o (o + replacement.length)) replacement = .ok new) :
    setSlice data o (o + new.length) new = overlay data ⟨o, replacement.cells⟩ := by
  rcases (renderReplacement_ok _ _ _).mp h with ⟨hlen, rfl⟩
  have hnew : (List.zipWith (fun old cell => Option.getD cell old)
      (slice data (o : Int) ((o : Int) + replacement.length)) replacement.cells).length
        = replacement.length := by
    rw [List.length_zipWith, hlen, MaskedBytes.length_cells, Nat.min_self]
  rw [setSlice_eq_overlay data _ o (by omega)]
  apply List.ext_getElem?
  intro i
  rw [getElem?_overlay, getElem?_overlay]
  by_cases hi : (MaskedWrite.mk o replacement.cells).Covers i
  · have hstart : o ≤ i := hi.1
    -- A position in the window, counted from its start.
    rcases Nat.exists_eq_add_of_le hstart with ⟨k, rfl⟩
    have hk : k < replacement.length := by
      have hstop : o + k < o + replacement.cells.length := hi.2
      rw [MaskedBytes.length_cells] at hstop
      omega
    have hk' : k < replacement.cells.length := by rwa [MaskedBytes.length_cells]
    have hx : o + k < data.length := by omega
    rw [MaskedWrite.cell_add ⟨o, _⟩ k, MaskedWrite.cell_add ⟨o, _⟩ k, List.getElem?_map,
      List.getElem?_zipWith, getElem?_slice_window data o replacement.length k hfit hk,
      List.getElem?_eq_getElem hx, List.getElem?_eq_getElem hk']
    simp only [Option.map_some, Option.join_some, Option.getD_some]
  · rw [MaskedWrite.cell_of_not_covers _ i hi, MaskedWrite.cell_of_not_covers]
    intro hc
    apply hi
    refine ⟨hc.1, ?_⟩
    have hstop := hc.2
    simp only [List.length_map, hnew] at hstop
    rw [MaskedBytes.length_cells]
    exact hstop

end Zd1200
