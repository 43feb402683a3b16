import Mathlib.Data.List.Sort
import Zd1200.Patch.Pattern

/-!
# The Plain Scan

The anchored search of `find_masked` returns what trying every offset would.

`findMasked` and `longestExactAnchor` carry fuel for their loops. Here the
loops are also given as relations between the state at the head of the loop
and the result, with no bound on the number of rounds: a derivation is a run
that ends. The functions compute such runs (`anchorLoop_runs`,
`findMaskedLoop_runs`), and a run ends with what the functions return whatever
fuel is left (`AnchorRuns.eq`, `ScanRuns.eq`), so the fuel is no part of the
result.

Every hit of the anchor lies behind the one before it, so the matches come in
ascending order. Two ascending lists with the same members are equal, which
leaves `mem_findMasked`.

## Main definitions

* `AnchorRuns`, `ScanRuns`, `FindMaskedRuns`: Runs of the loops that end.
* `plainScan`: The offsets at which the pattern matches, tried one by one.

## Theorems

* `findMaskedRuns_iff`: The search ends, with one result.
* `FindMaskedRuns.ascending`: The matches ascend.
* `findMasked_eq_plainScan`: The search returns what the plain scan does.
-/

namespace Zd1200

/-- The outer loop of `_longest_exact_anchor` ends. -/
inductive AnchorRuns (pattern : MaskedBytes) : Nat → Nat × Bytes → Nat × Bytes → Prop
  | done {start : Nat} {best : Nat × Bytes} (h : pattern.length ≤ start) :
      AnchorRuns pattern start best best
  | step {start : Nat} {best result : Nat × Bytes} (h : start < pattern.length)
      (rest : AnchorRuns pattern (runStop pattern (runStart pattern start) + 1)
        (if runStop pattern (runStart pattern start) - runStart pattern start > best.2.length then
          (runStart pattern start, (pattern.values.take
            (runStop pattern (runStart pattern start))).drop (runStart pattern start))
        else best) result) :
      AnchorRuns pattern start best result

/-- The scanning loop of `find_masked` ends. -/
inductive ScanRuns (data : Bytes) (pattern : MaskedBytes) (anchor : Nat × Bytes) :
    Nat → List Nat → Prop
  | done {searchFrom : Nat} (h : findFrom data anchor.2 searchFrom = none) :
      ScanRuns data pattern anchor searchFrom []
  | hit {searchFrom anchorHit : Nat} {later : List Nat}
      (h : findFrom data anchor.2 searchFrom = some anchorHit)
      (rest : ScanRuns data pattern anchor (anchorHit + 1) later) :
      ScanRuns data pattern anchor searchFrom
        (if matchesAt data ((anchorHit : Int) - anchor.1) pattern then
          ((anchorHit : Int) - anchor.1).toNat :: later
        else later)

/-- `find_masked` ends. -/
inductive FindMaskedRuns (data : Bytes) (pattern : MaskedBytes) : List Nat → Prop
  | noAnchor {anchor : Nat × Bytes} (h : AnchorRuns pattern 0 (0, []) anchor)
      (hempty : anchor.2 = []) :
      FindMaskedRuns data pattern (List.range (data.length + 1 - pattern.length))
  | scan {anchor : Nat × Bytes} {found : List Nat} (h : AnchorRuns pattern 0 (0, []) anchor)
      (hne : anchor.2 ≠ []) (hscan : ScanRuns data pattern anchor 0 found) :
      FindMaskedRuns data pattern found

/-- The offsets at which the pattern matches, tried one by one. -/
def plainScan (data : Bytes) (pattern : MaskedBytes) : List Nat :=
  (List.range (data.length + 1)).filter fun o => matchesAt data o pattern

/-! ### Runs -/

theorem le_runStart (pattern : MaskedBytes) (start : Nat) : start ≤ runStart pattern start :=
  Nat.le_add_right _ _

theorem lt_runStop (pattern : MaskedBytes) (start : Nat) : start ≤ runStop pattern start :=
  Nat.le_add_right _ _

/-- The next round starts behind this one. -/
theorem start_lt_next (pattern : MaskedBytes) (start : Nat) :
    start < runStop pattern (runStart pattern start) + 1 := by
  have h₁ := le_runStart pattern start
  have h₂ := lt_runStop pattern (runStart pattern start)
  omega

/-- With fuel for what is ahead, the loop for the anchor has run to its end. -/
theorem anchorLoop_runs (pattern : MaskedBytes) (fuel start : Nat) (best : Nat × Bytes)
    (hfuel : pattern.length ≤ start + fuel) :
    AnchorRuns pattern start best (anchorLoop pattern fuel start best) := by
  induction fuel generalizing start best with
  | zero => exact .done hfuel
  | succ fuel ih =>
      rw [anchorLoop]
      by_cases hlt : start < pattern.length
      · rw [if_pos hlt]
        have hnext := start_lt_next pattern start
        exact .step hlt (ih _ _ (by omega))
      · rw [if_neg hlt]
        exact .done (by omega)

/-- A run ends with what the loop returns. -/
theorem AnchorRuns.eq {pattern : MaskedBytes} {start : Nat} {best result : Nat × Bytes}
    (h : AnchorRuns pattern start best result) (fuel : Nat)
    (hfuel : pattern.length ≤ start + fuel) : anchorLoop pattern fuel start best = result := by
  induction h generalizing fuel with
  | done h =>
      cases fuel with
      | zero => rfl
      | succ fuel => rw [anchorLoop, if_neg (by omega)]
  | @step start best result h rest ih =>
      have hnext := start_lt_next pattern start
      cases fuel with
      | zero => exact absurd h (by omega)
      | succ fuel =>
          rw [anchorLoop, if_pos h]
          exact ih fuel (by omega)

theorem longestExactAnchor_runs_iff (pattern : MaskedBytes) (anchor : Nat × Bytes) :
    AnchorRuns pattern 0 (0, []) anchor ↔ anchor = longestExactAnchor pattern := by
  constructor
  · exact fun h => (h.eq pattern.length (by omega)).symm
  · rintro rfl
    exact anchorLoop_runs pattern pattern.length 0 (0, []) (by omega)

section Scan

variable (data : Bytes) (pattern : MaskedBytes) (anchor : Nat × Bytes) (hne : anchor.2 ≠ [])

include hne

/-- A hit lies inside the data, at the search position or behind it. -/
theorem hit_bounds (searchFrom anchorHit : Nat)
    (h : findFrom data anchor.2 searchFrom = some anchorHit) :
    searchFrom ≤ anchorHit ∧ anchorHit < data.length := by
  rcases (findFrom_eq_some_iff data anchor.2 searchFrom anchorHit hne).mp h with ⟨hle, hocc, -⟩
  exact ⟨hle, hocc.lt hne⟩

theorem findMaskedLoop_runs (fuel searchFrom : Nat) (hfuel : data.length + 1 ≤ searchFrom + fuel) :
    ScanRuns data pattern anchor searchFrom
      (findMaskedLoop data pattern anchor.1 anchor.2 fuel searchFrom) := by
  induction fuel generalizing searchFrom with
  | zero =>
      refine .done ?_
      cases hfind : findFrom data anchor.2 searchFrom with
      | none => rfl
      | some anchorHit =>
          have := hit_bounds data anchor hne searchFrom anchorHit hfind
          omega
  | succ fuel ih =>
      rw [findMaskedLoop]
      cases hfind : findFrom data anchor.2 searchFrom with
      | none => exact .done hfind
      | some anchorHit =>
          have := hit_bounds data anchor hne searchFrom anchorHit hfind
          exact .hit hfind (ih (anchorHit + 1) (by omega))

theorem ScanRuns.eq {searchFrom : Nat} {found : List Nat}
    (h : ScanRuns data pattern anchor searchFrom found) (fuel : Nat)
    (hfuel : data.length + 1 ≤ searchFrom + fuel) :
    findMaskedLoop data pattern anchor.1 anchor.2 fuel searchFrom = found := by
  induction h generalizing fuel with
  | done h =>
      cases fuel with
      | zero => rfl
      | succ fuel => rw [findMaskedLoop, h]
  | @hit searchFrom anchorHit later h rest ih =>
      have := hit_bounds data anchor hne searchFrom anchorHit h
      cases fuel with
      | zero => omega
      | succ fuel =>
          rw [findMaskedLoop, h]
          simp only
          rw [ih fuel (by omega)]

end Scan

/-- The search ends, and always with what `findMasked` returns. -/
theorem findMaskedRuns_iff (data : Bytes) (pattern : MaskedBytes) (found : List Nat) :
    FindMaskedRuns data pattern found ↔ found = findMasked data pattern := by
  have hanchor := longestExactAnchor_runs_iff pattern
  constructor
  · rintro (⟨h, hempty⟩ | ⟨h, hne, hscan⟩)
    · rw [findMasked, ← (hanchor _).mp h, if_pos hempty]
    · have heq := (hanchor _).mp h
      subst heq
      rw [findMasked, if_neg hne]
      exact (hscan.eq data pattern _ hne (data.length + 1) (by omega)).symm
  · rintro rfl
    rw [findMasked]
    by_cases hempty : (longestExactAnchor pattern).2 = []
    · rw [if_pos hempty]
      exact .noAnchor ((hanchor _).mpr rfl) hempty
    · rw [if_neg hempty]
      exact .scan ((hanchor _).mpr rfl) hempty
        (findMaskedLoop_runs data pattern _ hempty (data.length + 1) 0 (by omega))

/-! ### The order of the matches -/

/-- The matches of a scan ascend, from the first that its position allows. -/
theorem ScanRuns.ascending {data : Bytes} {pattern : MaskedBytes} {anchor : Nat × Bytes}
    (hne : anchor.2 ≠ []) {searchFrom : Nat} {found : List Nat}
    (h : ScanRuns data pattern anchor searchFrom found) :
    found.Pairwise (· < ·) ∧ ∀ o ∈ found, searchFrom ≤ o + anchor.1 := by
  induction h with
  | done h => exact ⟨List.Pairwise.nil, fun o ho => absurd ho List.not_mem_nil⟩
  | @hit searchFrom anchorHit later h rest ih =>
      rcases ih with ⟨hlater, hbehind⟩
      have hbounds := hit_bounds data anchor hne searchFrom anchorHit h
      split
      · next hmatch =>
          have hnn := matchesAt_nonneg data _ pattern hmatch
          refine ⟨List.pairwise_cons.mpr ⟨fun o ho => ?_, hlater⟩, fun o ho => ?_⟩
          · have := hbehind o ho
            omega
          · rcases List.mem_cons.mp ho with rfl | ho
            · omega
            · have := hbehind o ho
              omega
      · refine ⟨hlater, fun o ho => ?_⟩
        have := hbehind o ho
        omega

theorem FindMaskedRuns.ascending {data : Bytes} {pattern : MaskedBytes} {found : List Nat}
    (h : FindMaskedRuns data pattern found) : found.Pairwise (· < ·) := by
  cases h with
  | noAnchor => exact List.pairwise_lt_range
  | scan _ hne hscan => exact (hscan.ascending hne).1

theorem mem_plainScan (data : Bytes) (pattern : MaskedBytes) (o : Nat) :
    o ∈ plainScan data pattern ↔ matchesAt data o pattern = true := by
  rw [plainScan, List.mem_filter, List.mem_range, and_iff_right_iff_imp]
  intro h
  have := ((matchesAt_iff data o pattern).mp h).1
  omega

/-- The anchored search ends and returns exactly the offsets at which the
    pattern matches, in ascending order. -/
theorem findMasked_eq_plainScan (data : Bytes) (pattern : MaskedBytes) :
    (∀ found, FindMaskedRuns data pattern found ↔ found = plainScan data pattern) ∧
      findMasked data pattern = plainScan data pattern ∧
      (plainScan data pattern).Pairwise (· < ·) ∧
      ∀ o : Int, matchesAt data o pattern = true ↔ ∃ n ∈ plainScan data pattern, o = n := by
  have hordered : (plainScan data pattern).Pairwise (· < ·) :=
    (List.pairwise_lt_range).filter _
  have hfound : (findMasked data pattern).Pairwise (· < ·) :=
    ((findMaskedRuns_iff data pattern _).mpr rfl).ascending
  -- Ascending lists with the same members are equal.
  have heq : findMasked data pattern = plainScan data pattern := by
    have hperm : (findMasked data pattern).Perm (plainScan data pattern) := by
      rw [List.perm_ext_iff_of_nodup (hfound.imp Nat.ne_of_lt) (hordered.imp Nat.ne_of_lt)]
      exact fun o => (mem_findMasked data pattern o).trans (mem_plainScan data pattern o).symm
    exact hperm.eq_of_pairwise' hfound hordered
  refine ⟨fun found => ?_, heq, hordered, fun o => ?_⟩
  · rw [← heq]
    exact findMaskedRuns_iff data pattern found
  · constructor
    · intro h
      have hnn := matchesAt_nonneg data o pattern h
      refine ⟨o.toNat, (mem_plainScan data pattern _).mpr ?_, (Int.toNat_of_nonneg hnn).symm⟩
      rwa [Int.toNat_of_nonneg hnn]
    · rintro ⟨n, hn, rfl⟩
      exact (mem_plainScan data pattern n).mp hn

end Zd1200
