import Zd1200.Patch.Pattern

/-!
# Patched Signatures

What a patch leaves behind, seen through the signature of its rule.

A wildcard means something else in each of the three patterns. In a signature
and in expected bytes it stands for any byte, and in a replacement for the byte
that is there. So a replacement written into a signature has two modes. Where
the old byte is kept, the signature still says what it was. Where the byte is
computed from the source, as in a jump that is moved, nothing is known of it,
and the signature has to forget what it required.

`cell_overlayPattern` reads both modes byte by byte, and everything else is a
comparison of cells.

## Main definitions

* `PatchedAt`: The bytes at the patch match the patched signature.
* `Conflicts`: A replacement requires what the signature rules out.

## Theorems

* `cell_overlayPattern`: The cells of a patched signature.
* `patchedAt_of_cells`: Bytes that have the required cells.
* `matchesAt_written`: What the two modes write matches.
-/

namespace Zd1200

/-! ### The cells of a patched signature -/

theorem MaskedBytes.length_require (p : MaskedBytes) (i : Nat) (v : UInt8) :
    (p.require i v).length = p.length := List.length_set ..

theorem MaskedBytes.cell_require (p : MaskedBytes) (i : Nat) (v : UInt8) (hi : i < p.length)
    (k : Nat) : (p.require i v).cell k = if i = k then some v else p.cell k := by
  have hexact : i < p.exact.length := by
    rw [p.same]
    exact hi
  unfold cell require
  rw [List.getElem?_set, List.getElem?_set]
  by_cases hk : i = k
  · simp only [if_pos hk, if_pos hexact, if_pos (show i < p.values.length from hi), if_true]
  · simp only [if_neg hk]

theorem MaskedBytes.cell_forget (p : MaskedBytes) (i k : Nat) :
    (p.forget i).cell k = if i = k then none else p.cell k := by
  unfold cell forget
  rw [List.getElem?_set]
  by_cases hk : i = k
  · rw [if_pos hk, if_pos hk]
    by_cases hi : i < p.exact.length
    · rw [if_pos hi]
      exact if_neg (by simp only [Option.some.injEq, Bool.false_eq_true, not_false_eq_true])
    · rw [if_neg hi]
      exact if_neg (by simp only [reduceCtorEq, not_false_eq_true])
  · rw [if_neg hk, if_neg hk]

/-- What a column of a replacement makes of a cell of the signature. -/
def overlaidCell (preserveWildcards : Bool) (column : UInt8 × Bool) (old : Option UInt8) :
    Option UInt8 :=
  if column.2 then some column.1 else if preserveWildcards then old else none

/-- One column of a replacement, written into a signature. -/
def overlayColumn (patchOffset : Nat) (preserveWildcards : Bool) (overlaid : MaskedBytes)
    (column : (UInt8 × Bool) × Nat) : MaskedBytes :=
  if column.1.2 then overlaid.require (patchOffset + column.2) column.1.1
  else if preserveWildcards then overlaid
  else overlaid.forget (patchOffset + column.2)

theorem overlayColumn_spec (patchOffset : Nat) (preserveWildcards : Bool) (p : MaskedBytes)
    (column : (UInt8 × Bool) × Nat) (hfit : patchOffset + column.2 < p.length) :
    (overlayColumn patchOffset preserveWildcards p column).length = p.length ∧
      ∀ k, (overlayColumn patchOffset preserveWildcards p column).cell k =
        if patchOffset + column.2 = k then overlaidCell preserveWildcards column.1 (p.cell k)
        else p.cell k := by
  unfold overlayColumn overlaidCell
  by_cases hrequired : column.1.2 = true
  · simp only [if_pos hrequired]
    exact ⟨p.length_require _ _, p.cell_require _ _ hfit⟩
  · simp only [if_neg hrequired]
    cases preserveWildcards with
    | true =>
        simp only [if_true]
        exact ⟨trivial, fun k => (ite_self _).symm⟩
    | false =>
        simp only [Bool.false_eq_true, if_false]
        exact ⟨rfl, p.cell_forget _⟩

/-- The columns are written one after the other, each at its own place. -/
theorem foldl_overlayColumn (patchOffset : Nat) (preserveWildcards : Bool)
    (columns : List (UInt8 × Bool)) (n : Nat) (p : MaskedBytes)
    (hfit : patchOffset + n + columns.length ≤ p.length) :
    ((columns.zipIdx n).foldl (overlayColumn patchOffset preserveWildcards) p).length = p.length ∧
      (∀ k column, columns[k]? = some column →
        ((columns.zipIdx n).foldl (overlayColumn patchOffset preserveWildcards) p).cell
          (patchOffset + n + k) =
            overlaidCell preserveWildcards column (p.cell (patchOffset + n + k))) ∧
      ∀ i, (i < patchOffset + n ∨ patchOffset + n + columns.length ≤ i) →
        ((columns.zipIdx n).foldl (overlayColumn patchOffset preserveWildcards) p).cell i =
          p.cell i := by
  induction columns generalizing n p with
  | nil => exact ⟨rfl, fun k column h => absurd h (by simp only [List.getElem?_nil, reduceCtorEq,
      not_false_eq_true]), fun i _ => rfl⟩
  | cons column columns ih =>
      rw [List.length_cons] at hfit
      rcases overlayColumn_spec patchOffset preserveWildcards p (column, n) (by simp only; omega) with
        ⟨hlen, hcell⟩
      rcases ih (n + 1) (overlayColumn patchOffset preserveWildcards p (column, n))
        (by rw [hlen]; omega) with ⟨hlen', hinside, houtside⟩
      rw [List.zipIdx_cons, List.foldl_cons]
      refine ⟨hlen'.trans hlen, fun k other hk => ?_, fun i hi => ?_⟩
      · cases k with
        | zero =>
            -- The later columns leave the first place alone.
            rw [List.getElem?_cons_zero, Option.some.injEq] at hk
            rw [houtside _ (Or.inl (by omega)), hcell, Nat.add_zero, if_pos rfl, hk]
        | succ k =>
            rw [List.getElem?_cons_succ] at hk
            have h := hinside k other hk
            rw [show patchOffset + (n + 1) + k = patchOffset + n + (k + 1) by omega] at h
            rw [h, hcell, if_neg (by simp only; omega)]
      · rw [List.length_cons] at hi
        rw [houtside i (by omega), hcell, if_neg (by simp only; omega)]

/-- The cells of a patched signature: inside the patch those of the replacement,
    and behind its wildcards what the mode keeps. -/
theorem cell_overlayPattern (signature replacement : MaskedBytes) (patchOffset : Int)
    (preserveWildcards : Bool) (hnn : 0 ≤ patchOffset)
    (hfit : patchOffset + replacement.length ≤ signature.length) :
    ∃ patched, overlayPattern signature patchOffset replacement preserveWildcards = .ok patched ∧
      patched.length = signature.length ∧
      (∀ k < replacement.length, patched.cell (patchOffset.toNat + k) =
        match replacement.cell k with
        | some v => some v
        | none => if preserveWildcards then signature.cell (patchOffset.toNat + k) else none) ∧
      ∀ i, (i < patchOffset.toNat ∨ patchOffset.toNat + replacement.length ≤ i) →
        patched.cell i = signature.cell i := by
  have hlen : (replacement.values.zip replacement.exact).length = replacement.length := by
    rw [List.length_zip, replacement.same, Nat.min_self]
    rfl
  rcases foldl_overlayColumn patchOffset.toNat preserveWildcards
    (replacement.values.zip replacement.exact) 0 signature (by rw [hlen]; omega) with
    ⟨hlen', hinside, houtside⟩
  refine ⟨_, ?_, hlen', fun k hk => ?_, fun i hi => houtside i (by rw [hlen]; omega)⟩
  · unfold overlayPattern
    rw [raiseIf, if_neg (by omega)]
    rfl
  · have hk' : k < replacement.exact.length := by
      rw [replacement.same]
      exact hk
    have hcolumn : (replacement.values.zip replacement.exact)[k]?
        = some (replacement.values[k], replacement.exact[k]) :=
      List.getElem?_zip_eq_some.mpr ⟨List.getElem?_eq_getElem hk, List.getElem?_eq_getElem hk'⟩
    have h := hinside k _ hcolumn
    rw [Nat.add_zero] at h
    have hcell : replacement.cell k
        = if replacement.exact[k] = true then some replacement.values[k] else none := by
      rw [MaskedBytes.cell, List.getElem?_eq_getElem hk', List.getElem?_eq_getElem (l := replacement.values) hk]
      simp only [Option.some.injEq]
    rw [h, hcell, overlaidCell]
    by_cases hrequired : replacement.exact[k] = true
    · rw [if_pos hrequired, if_pos hrequired]
    · rw [if_neg hrequired, if_neg hrequired]

/-! ### Writing a patch -/

/-- Some byte that the replacement requires is one that the signature rules
    out. -/
def Conflicts (signature replacement : MaskedBytes) (patchOffset : Int) : Prop :=
  ∃ k r s, replacement.cell k = some r ∧ signature.cell (patchOffset.toNat + k) = some s ∧ r ≠ s

/-- With `new` written at the patch, the patched signature matches, and the old
    one does not if the two are told apart. -/
def PatchedAt (data : Bytes) (o : Int) (signature replacement : MaskedBytes) (patchOffset : Int)
    (rel32 : Bool) (new : Bytes) : Prop :=
  let site := o + patchOffset
  let result := setSlice data site (site + new.length) new
  ∃ patched, overlayPattern signature patchOffset replacement (!rel32) = .ok patched ∧
    matchesAt result o patched = true ∧
    (Conflicts signature replacement patchOffset → matchesAt result o signature = false)

/-- The elements of a window that was overwritten, and those around it. -/
theorem getElem?_setSlice (data new : Bytes) (site : Nat) (hfit : site + new.length ≤ data.length) :
    (∀ k < new.length, (setSlice data (site : Int) (site + new.length) new)[site + k]? = new[k]?) ∧
      ∀ i, (i < site ∨ site + new.length ≤ i) →
        (setSlice data (site : Int) (site + new.length) new)[i]? = data[i]? := by
  rw [setSlice_eq_overlay data new site hfit]
  refine ⟨fun k hk => ?_, fun i hi => ?_⟩
  · rw [getElem?_overlay, MaskedWrite.cell_add ⟨site, new.map some⟩ k, List.getElem?_map,
      List.getElem?_eq_getElem hk, List.getElem?_eq_getElem (show site + k < data.length by omega)]
    rfl
  · refine getElem?_overlay_of_not_covers data _ i fun hcovers => ?_
    have hstart := hcovers.1
    have hstop := hcovers.2
    simp only [List.length_map] at hstart hstop
    omega

/-- Bytes that are what the replacement requires, and the old ones behind its
    wildcards where these are kept. -/
theorem patchedAt_of_cells (data new : Bytes) (o patchOffset : Int)
    (signature replacement : MaskedBytes) (rel32 : Bool) (hnn : 0 ≤ patchOffset)
    (hfit : patchOffset + replacement.length ≤ signature.length)
    (hmatch : matchesAt data o signature = true) (hlen : new.length = replacement.length)
    (hrequired : ∀ k v, replacement.cell k = some v → new[k]? = some v)
    (hkept : rel32 = false → ∀ k < replacement.length, replacement.cell k = none →
      new[k]? = data[(o + patchOffset).toNat + k]?) :
    PatchedAt data o signature replacement patchOffset rel32 new := by
  rcases (matchesAt_iff_int data o signature).mp hmatch with ⟨ho, hinside, hbytes⟩
  rcases cell_overlayPattern signature replacement patchOffset (!rel32) hnn hfit with
    ⟨patched, hpatched, hplen, hcells, hothers⟩
  -- The site as a natural number.
  rcases Int.eq_ofNat_of_zero_le ho with ⟨start, rfl⟩
  rcases Int.eq_ofNat_of_zero_le hnn with ⟨off, rfl⟩
  have hsite : ((start : Int) + (off : Int)) = ((start + off : Nat) : Int) := by omega
  rcases getElem?_setSlice data new (start + off) (by omega) with ⟨hwritten, haround⟩
  have hsize : (setSlice data ((start + off : Nat) : Int) ((start + off : Nat) + new.length) new).length
      = data.length := by
    rw [setSlice_eq_overlay data new (start + off) (by omega), length_overlay]
  simp only [hsite, Int.toNat_natCast] at hbytes hcells hothers hkept
  refine ⟨patched, hpatched, ?_, ?_⟩
  · rw [hsite, matchesAt_iff, hsize]
    refine ⟨by omega, fun i v hv => ?_⟩
    by_cases hi : i < off ∨ off + replacement.length ≤ i
    · -- Around the patch everything is as before.
      rw [haround _ (by omega)]
      exact hbytes i v (hothers i hi ▸ hv)
    · rcases Nat.exists_eq_add_of_le (show off ≤ i by omega) with ⟨k, rfl⟩
      have hk : k < replacement.length := by omega
      rw [← Nat.add_assoc, hwritten k (by omega)]
      rw [hcells k hk] at hv
      rcases hcell : replacement.cell k with _ | r
      · rw [hcell] at hv
        cases rel32 with
        | true => exact absurd hv (by simp only [Bool.not_true, Bool.false_eq_true, if_false,
            reduceCtorEq, not_false_eq_true])
        | false =>
            simp only [Bool.not_false, if_true] at hv
            rw [hkept rfl k hk hcell, Nat.add_assoc]
            exact hbytes (off + k) v hv
      · rw [hcell] at hv
        exact hrequired k v (hcell.trans hv)
  · rintro ⟨k, r, s, hr, hs, hne⟩
    have hk := replacement.cell_lt k r hr
    rw [hsite, ← Bool.not_eq_true, matchesAt_iff]
    rintro ⟨-, h⟩
    have hold := h (off + k) s hs
    rw [← Nat.add_assoc, hwritten k (by omega), hrequired k r hr, Option.some.injEq] at hold
    exact hne hold

/-- What either mode writes matches the patched signature. -/
theorem matchesAt_written (data : Bytes) (o patchOffset : Int)
    (signature expected replacement : MaskedBytes) (hlen : expected.length = replacement.length)
    (hnn : 0 ≤ patchOffset) (hfit : patchOffset + expected.length ≤ signature.length)
    (hmatch : matchesAt data o signature = true) :
    (∃ new, renderReplacement
        (slice data (o + patchOffset) (o + patchOffset + replacement.length)) replacement = .ok new ∧
      PatchedAt data o signature replacement patchOffset false new) ∧
    (replacement.cells = [some 0xe9, none, none, none, none] → ∀ rest : Bytes, rest.length = 4 →
      PatchedAt data o signature replacement patchOffset true (0xe9 :: rest)) := by
  rw [hlen] at hfit
  rcases (matchesAt_iff_int data o signature).mp hmatch with ⟨ho, hinside, -⟩
  have hcellAt : ∀ k, replacement.cell k = (replacement.cells[k]?).join := fun k =>
    (replacement.getElem?_cells k).symm
  constructor
  · have hwindow : (o + patchOffset) = (((o + patchOffset).toNat : Nat) : Int) := by omega
    have hold : (slice data (o + patchOffset) (o + patchOffset + replacement.length)).length
        = replacement.length := by
      rw [hwindow]
      exact length_slice_window data _ _ (by omega)
    refine ⟨_, (renderReplacement_ok _ _ _).mpr ⟨hold, rfl⟩, ?_⟩
    -- A rendered byte, by what the replacement has there.
    have hrendered : ∀ k < replacement.length,
        (List.zipWith (fun old cell => Option.getD cell old)
          (slice data (o + patchOffset) (o + patchOffset + replacement.length))
          replacement.cells)[k]? =
            (data[(o + patchOffset).toNat + k]?).map fun old => (replacement.cell k).getD old := by
      intro k hk
      have hslice : (slice data (o + patchOffset) (o + patchOffset + replacement.length))[k]?
          = data[(o + patchOffset).toNat + k]? := by
        rw [hwindow]
        exact getElem?_slice_window data _ _ k (by omega) hk
      rw [List.getElem?_zipWith, hslice, hcellAt,
        List.getElem?_eq_getElem (show k < replacement.cells.length by
          rw [replacement.length_cells]; exact hk)]
      cases data[(o + patchOffset).toNat + k]? with
      | none => rfl
      | some old => rfl
    refine patchedAt_of_cells data _ o patchOffset signature replacement false hnn hfit hmatch
      (by rw [List.length_zipWith, hold, replacement.length_cells, Nat.min_self])
      (fun k v hv => ?_) fun _ k hk hnone => ?_
    · have hk := replacement.cell_lt k v hv
      rw [hrendered k hk, hv, List.getElem?_eq_getElem (by omega), Option.map_some,
        Option.getD_some]
    · rw [hrendered k hk, hnone]
      simp only [Option.getD_none, Option.map_id']
  · intro hcells rest hrest
    have hfive : replacement.length = 5 := by
      rw [← replacement.length_cells, hcells]
      rfl
    refine patchedAt_of_cells data _ o patchOffset signature replacement true hnn hfit hmatch
      (by rw [List.length_cons, hrest, hfive]) (fun k v hv => ?_)
      fun h => absurd h.symm Bool.false_ne_true
    rw [hcellAt, hcells] at hv
    -- Only the opcode is required.
    match k, hv with
    | 0, hv => exact hv
    | 1, hv | 2, hv | 3, hv | 4, hv => exact nomatch hv
    | n + 5, hv => exact nomatch hv

theorem matchesAt_written_jump :
    let data : Bytes := [0x00, 0x55, 0x74, 0x0a, 0x90, 0x31, 0xc0, 0xc3]
    let signature : MaskedBytes := ⟨[0x55, 0x74, 0, 0x90, 0, 0xc0, 0xc3],
      [true, true, false, true, false, true, true], rfl⟩
    let replacement : MaskedBytes := ⟨[0xe9, 0, 0, 0, 0], [true, false, false, false, false], rfl⟩
    (∃ new, renderReplacement (slice data (1 + 1) (1 + 1 + 5)) replacement = .ok new ∧
      PatchedAt data 1 signature replacement 1 false new) ∧
    (replacement.cells = [some 0xe9, none, none, none, none] → ∀ rest : Bytes, rest.length = 4 →
      PatchedAt data 1 signature replacement 1 true (0xe9 :: rest)) :=
  matchesAt_written [0x00, 0x55, 0x74, 0x0a, 0x90, 0x31, 0xc0, 0xc3] 1 1
    ⟨[0x55, 0x74, 0, 0x90, 0, 0xc0, 0xc3], [true, true, false, true, false, true, true], rfl⟩
    ⟨[0x74, 0, 0x90, 0, 0], [true, false, true, false, false], rfl⟩
    ⟨[0xe9, 0, 0, 0, 0], [true, false, false, false, false], rfl⟩ rfl (by decide) (by decide)
    (by decide)

-- The replacement of a moved jump, as it is written in a rule.
example : (parseMaskedHex "e9 ?? ?? ?? ??").map MaskedBytes.cells
    = .ok [some 0xe9, none, none, none, none] := by rfl

end Zd1200
