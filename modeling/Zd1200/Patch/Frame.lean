import Zd1200.Patch.Rules

/-!
# What Patching Changes

The result of `applyRules`, described without the engine.

`applyRules_cases` opens a successful run once and for all: the rules resolve,
their writes are pairwise apart, and the result is the source under those
writes. Everything else here is read off that. The writes being apart is what
makes each byte's fate a matter of one rule and the pristine source, even
though the engine performs the writes one after another on a shared buffer,
and it is also what makes the order of the rules immaterial: resolution,
the overlap check and the verification each succeed in any order, and writes
apart commute.

A rule contributes bytes exactly when `Patches` holds of it, so the frame of
the result is stated over the rules and not over anything the engine computes.

## Main definitions

* `InRange`: A position lies in the range a rule replaces.

## Theorems

* `applyRules_cases`: A successful run, opened up.
* `applyRules_perm`: The order of the rules does not matter.
* `applyRules_frame`: Length, frame, contents, flag and order at once.
-/

namespace Zd1200

/-- Position `i` lies in the range that `rule`, matching at `o`, replaces. -/
def InRange (rule : PatchRule) (o : Nat) (bytes : MaskedBytes) (i : Nat) : Prop :=
  o + rule.patchOffset ≤ i ∧ (i : Int) < o + rule.patchOffset + bytes.length

/-- Resolved rules that pass the overlap check write apart. -/
theorem writes_apart (source : Bytes) (resolved : List Resolved)
    (hfit : ∀ r ∈ resolved, r.Fits source) (h : checkOverlaps resolved [] = .ok ()) :
    (resolved.filterMap Resolved.write).Pairwise MaskedWrite.Apart := by
  have hranges := ((checkOverlaps_iff resolved []).mp h).1
  rw [List.pairwise_filterMap] at hranges ⊢
  refine List.Pairwise.imp_of_mem ?_ hranges
  intro r r' hr hr' hapart w hw w' hw'
  refine Resolved.apart_of_range source r r' (hfit r hr) (hfit r' hr') w w' hw hw' ?_
  intro x hx x' hx'
  exact hapart x hx x' hx'

theorem resolved_fits (source : Bytes) (rules : List PatchRule) (resolved : List Resolved)
    (h : rules.mapM (resolveRule source) = .ok resolved) : ∀ r ∈ resolved, r.Fits source := by
  intro r hr
  rcases mapM_ok_mem _ _ _ h r hr with ⟨rule, -, hok⟩
  exact resolveRule_fits source rule r hok

/-- A successful run, opened up. -/
theorem applyRules_cases (source : Bytes) (rules : List PatchRule) (result : Bytes)
    (changed : Bool) (h : applyRules source rules = .ok (result, changed)) :
    ∃ resolved, rules.mapM (resolveRule source) = .ok resolved ∧
      checkOverlaps resolved [] = .ok () ∧
      (resolved.filterMap Resolved.write).Pairwise MaskedWrite.Apart ∧
      result = overlays source (resolved.filterMap Resolved.write) ∧
      changed = decide (result ≠ source) ∧
      ((rules.map PatchRule.artifactId).dedup.length ≤ 1) ∧
      ∀ rule ∈ rules, verifyRule result rule = .ok () := by
  simp only [applyRules, bind_ok_iff, raiseIf_ok_iff, exists_const, pure_ok_iff] at h
  rcases h with ⟨hids, resolved, hres, ⟨⟩, hover, ⟨final, flag⟩, hwrite, ⟨⟩, hverify, heq⟩
  rw [Prod.mk.injEq] at heq
  rcases heq with ⟨rfl, rfl⟩
  have hfit := resolved_fits source rules resolved hres
  have hapart := writes_apart source resolved hfit hover
  have hrun := foldlM_writeOne source resolved [] hfit (by rwa [List.nil_append])
  have hstart : decide (overlays source [] ≠ source) = false := decide_eq_false (not_not.mpr rfl)
  rw [hstart, List.nil_append] at hrun
  rw [show (overlays source [], false) = (source, false) from rfl, hwrite, Except.ok.injEq,
    Prod.mk.injEq] at hrun
  rcases hrun with ⟨rfl, hflag⟩
  exact ⟨resolved, hres, hover, hapart, rfl, hflag, by omega, (forM_ok_iff _ _ _).mp hverify⟩

/-- The order of the rules does not matter. -/
theorem applyRules_perm (source : Bytes) (rules rules' : List PatchRule) (result : Bytes)
    (changed : Bool) (h : applyRules source rules = .ok (result, changed))
    (hp : rules'.Perm rules) : applyRules source rules' = .ok (result, changed) := by
  rcases applyRules_cases source rules result changed h with
    ⟨resolved, hres, hover, hapart, rfl, rfl, hids, hverify⟩
  rcases mapM_ok_perm _ _ _ _ hp hres with ⟨resolved', hres', hperm⟩
  have hfit' := resolved_fits source rules' resolved' hres'
  -- The overlap check only asks the ranges to be pairwise apart.
  have hover' : checkOverlaps resolved' [] = .ok () := by
    rw [checkOverlaps_iff] at hover ⊢
    refine ⟨?_, fun x _ y hy => absurd hy List.not_mem_nil⟩
    exact ((hperm.filterMap Resolved.range).pairwise_iff fun hxy => hxy.symm).mpr hover.1
  have hapart' := writes_apart source resolved' hfit' hover'
  have hresult : overlays source (resolved'.filterMap Resolved.write)
      = overlays source (resolved.filterMap Resolved.write) :=
    overlays_perm source _ _ (hperm.filterMap _) hapart'
  have hrun := foldlM_writeOne source resolved' [] hfit' (by rwa [List.nil_append])
  have hstart : decide (overlays source [] ≠ source) = false := decide_eq_false (not_not.mpr rfl)
  rw [hstart, List.nil_append, hresult] at hrun
  have hids' : (rules'.map PatchRule.artifactId).dedup.length ≤ 1 := by
    rw [((hp.map PatchRule.artifactId).dedup).length_eq]
    exact hids
  simp only [applyRules, bind_ok_iff, raiseIf_ok_iff, exists_const, pure_ok_iff]
  refine ⟨by omega, resolved', hres', (), hover', _, hrun, (), ?_, rfl⟩
  exact (forM_ok_iff _ _ _).mpr fun rule hrule => hverify rule (hp.mem_iff.mp hrule)

/-- The write of a rule that patches is among the writes of the run. -/
theorem write_mem_of_patches (source : Bytes) (rules : List PatchRule) (resolved : List Resolved)
    (hres : rules.mapM (resolveRule source) = .ok resolved) (rule : PatchRule)
    (hrule : rule ∈ rules) (o : Nat) (bytes : MaskedBytes) (hp : Patches source rule o bytes) :
    ∃ site : Nat, (site : Int) = o + rule.patchOffset ∧ site + bytes.length ≤ source.length ∧
      (⟨site, bytes.cells⟩ : MaskedWrite UInt8) ∈ resolved.filterMap Resolved.write := by
  rcases mapM_ok_of_mem _ _ _ hres rule hrule with ⟨r, hmem, hr⟩
  rcases resolved_of_patches source _ r hr o bytes hp with ⟨ho, hb, hs⟩
  rcases (resolveRule_fits source _ r hr).2 bytes hb hs with ⟨hsite, hfit⟩
  have hrule' := resolveRule_rule source _ r hr
  refine ⟨r.site.toNat, ?_, hfit, ?_⟩
  · rw [Int.toNat_of_nonneg hsite, Resolved.site, ho, hrule']
  · exact List.mem_filterMap.mpr ⟨r, hmem, (r.write_eq_some_iff _).mpr ⟨bytes, hb, hs, rfl⟩⟩

/-- Every write of the run is that of a rule that patches. -/
theorem patches_of_write_mem (source : Bytes) (rules : List PatchRule) (resolved : List Resolved)
    (hres : rules.mapM (resolveRule source) = .ok resolved) (w : MaskedWrite UInt8)
    (hw : w ∈ resolved.filterMap Resolved.write) :
    ∃ rule ∈ rules, ∃ o bytes, Patches source rule o bytes ∧
      (w.start : Int) = o + rule.patchOffset ∧ w.cells = bytes.cells := by
  rcases List.mem_filterMap.mp hw with ⟨r, hr, hwrite⟩
  rcases mapM_ok_mem _ _ _ hres r hr with ⟨rule, hrule, hok⟩
  rcases (r.write_eq_some_iff w).mp hwrite with ⟨bytes, hb, hs, rfl⟩
  refine ⟨rule, hrule, _, bytes, patches_of_resolved source _ _ hok bytes hb hs, ?_, rfl⟩
  rcases (resolveRule_fits source _ _ hok).2 bytes hb hs with ⟨hsite, -⟩
  simp only
  rw [Int.toNat_of_nonneg hsite, Resolved.site, resolveRule_rule source rule r hok]

theorem length_of_applyRules (source : Bytes) (rules : List PatchRule) (result : Bytes)
    (changed : Bool) (h : applyRules source rules = .ok (result, changed)) :
    result.length = source.length := by
  rcases applyRules_cases source rules result changed h with ⟨resolved, -, -, -, hresult, -, -, -⟩
  rw [hresult, length_overlays]

/-- What a successful run of the engine does to the binary: the length stays,
    bytes change only where a rule whose unpatched signature matched replaces
    them, there they are the rule's bytes or the source's own, the flag is
    honest, and the rules could have come in any order. -/
theorem applyRules_frame (source : Bytes) (rules : List PatchRule) (result : Bytes)
    (changed : Bool) (h : applyRules source rules = .ok (result, changed)) :
    result.length = source.length ∧
    (∀ i : Nat, result[i]? ≠ source[i]? →
      ∃ rule ∈ rules, ∃ o bytes, Patches source rule o bytes ∧ InRange rule o bytes i) ∧
    (∀ rule ∈ rules, ∀ o bytes, Patches source rule o bytes → ∀ k, k < bytes.length →
      ∃ i : Nat, (i : Int) = o + rule.patchOffset + k ∧ i < source.length ∧
        result[i]? = if bytes.exact[k]? = some true then bytes.values[k]? else source[i]?) ∧
    (changed = true ↔ result ≠ source) ∧
    (∀ rules' : List PatchRule, rules'.Perm rules →
      applyRules source rules' = .ok (result, changed)) := by
  rcases applyRules_cases source rules result changed h with
    ⟨resolved, hres, -, hapart, hresult, hchanged, -, -⟩
  refine ⟨length_of_applyRules source rules result changed h, fun i hi => ?_,
    fun rule hrule o bytes hp k hk => ?_, ?_, fun rules' hp => ?_⟩
  · -- A byte that differs is covered by some write, and that is some rule's.
    by_contra hnone
    apply hi
    rw [hresult]
    apply getElem?_overlays_of_not_covered
    rintro w hw ⟨hlo, hhi⟩
    rcases patches_of_write_mem source rules resolved hres w hw with
      ⟨rule, hrule, o, bytes, hp, hstart, hcells⟩
    rw [hcells, MaskedBytes.length_cells] at hhi
    exact hnone ⟨rule, hrule, o, bytes, hp, by omega, by omega⟩
  · rcases write_mem_of_patches source rules resolved hres rule hrule o bytes hp with
      ⟨site, hsite, hfit, hmem⟩
    refine ⟨site + k, by omega, by omega, ?_⟩
    have hcov : (⟨site, bytes.cells⟩ : MaskedWrite UInt8).Covers (site + k) :=
      ⟨Nat.le_add_right site k, by simp only [MaskedBytes.length_cells]; omega⟩
    rw [hresult, getElem?_overlays_of_covers source _ hapart _ hmem _ hcov,
      MaskedWrite.cell_add ⟨site, bytes.cells⟩ k, MaskedBytes.getElem?_cells,
      List.getElem?_eq_getElem (show site + k < source.length by omega)]
    unfold MaskedBytes.cell
    by_cases hexact : bytes.exact[k]? = some true
    · rw [if_pos hexact, if_pos hexact, List.getElem?_eq_getElem hk]
      rfl
    · rw [if_neg hexact, if_neg hexact]
      rfl
  · rw [hchanged, decide_eq_true_eq]
  · exact applyRules_perm source rules rules' result changed h hp

/-- A jump moved to the start, a plain replacement and a validation, applied
    in the opposite order. -/
theorem applyRules_frame_three_rules :
    applyRules
      [0x90, 0x90, 0xaa, 0x00, 0xe9, 0x02, 0x00, 0x00, 0x00, 0xbb, 0xcc, 0xee, 0xff]
      [⟨"a", "check", "ee ff", 0, "ee", none, "", 0⟩,
       ⟨"a", "plain", "bb cc", 1, "cc", some "dd", "", 0⟩,
       ⟨"a", "move", "90 90 aa ?? e9 ?? ?? ?? ?? bb", 0, "90 90 aa ?? e9",
          some "e9 ?? ?? ?? ??", "", 4⟩]
      = .ok
        ([0xe9, 0x06, 0x00, 0x00, 0x00, 0x02, 0x00, 0x00, 0x00, 0xbb, 0xdd, 0xee, 0xff], true) :=
  (applyRules_frame _
    [⟨"a", "move", "90 90 aa ?? e9 ?? ?? ?? ?? bb", 0, "90 90 aa ?? e9",
        some "e9 ?? ?? ?? ??", "", 4⟩,
     ⟨"a", "plain", "bb cc", 1, "cc", some "dd", "", 0⟩,
     ⟨"a", "check", "ee ff", 0, "ee", none, "", 0⟩] _ _ (by decide)).2.2.2.2 _ (by decide)

end Zd1200
