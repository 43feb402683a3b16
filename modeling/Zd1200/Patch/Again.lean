import Zd1200.Patch.Frame

/-!
# Patching Again

The launcher applies the kernel rules at every start, to a kernel that may
carry them already, so a second run on the result of a first one has to go
through and change nothing.

For a replacement rule it does. The verification pass of the first run leaves
exactly one patched signature and no original one, and that is what the second
run needs to find the rule already applied: `resolveRule_already`. No such
rule writes, so nothing changes.

A validation rule is another matter. Resolution asks for its signature *and*
for its expected bytes at the match, but verification looks for the signature
alone. The expected bytes may be stricter than the signature, which can leave
a wildcard over them, and then another rule can overwrite them unnoticed. The
second run does notice, and refuses the binary that the first one produced:
`applyRules_again_refused` is such a case on three bytes.

`applyRules_again_iff` says exactly when the second run goes through. The
condition is about the source and the rules: `HoldsAfter` reads off them which
byte a position will hold once the rules that match have been written, and
`ValidationSurvives` asks that where a validation rule's signature matches
those bytes, its expected bytes do as well.

## Main definitions

* `Written`: Some rule writes a byte at a position.
* `HoldsAfter`: A position holds a byte once the rules are written.
* `MatchesAfter`: A pattern matches once the rules are written.
* `ValidationSurvives`: The expected bytes of the validations will hold.

## Theorems

* `getElem?_result`: What a position of the result holds.
* `resolveRule_already`: A verified replacement resolves to no write.
* `resolveRule_validation_iff`: When a verified validation resolves.
* `applyRules_again_iff`: When a second run goes through.
-/

namespace Zd1200

/-- Some rule that matches the source writes byte `b` at position `i`. -/
def Written (source : Bytes) (rules : List PatchRule) (i : Nat) (b : UInt8) : Prop :=
  ∃ rule ∈ rules, ∃ (o : Nat) (bytes : MaskedBytes) (k : Nat), Patches source rule o bytes ∧
    (i : Int) = o + rule.patchOffset + k ∧ bytes.cell k = some b

/-- Position `i` holds byte `b` once the matching rules have been written. -/
def HoldsAfter (source : Bytes) (rules : List PatchRule) (i : Nat) (b : UInt8) : Prop :=
  Written source rules i b ∨ (source[i]? = some b ∧ ∀ c, ¬ Written source rules i c)

/-- The pattern matches at `o` once the matching rules have been written. -/
def MatchesAfter (source : Bytes) (rules : List PatchRule) (o : Int) (pattern : MaskedBytes) :
    Prop :=
  0 ≤ o ∧ o + pattern.length ≤ source.length ∧
    ∀ k v, pattern.cell k = some v → HoldsAfter source rules (o.toNat + k) v

/-- Wherever a validation rule's signature will match, its expected bytes
    will stand as well. -/
def ValidationSurvives (source : Bytes) (rules : List PatchRule) : Prop :=
  ∀ rule ∈ rules, rule.replacementHex = none → ∀ signature expected,
    parseMaskedHex rule.signatureHex = .ok signature →
    parseMaskedHex rule.expectedHex = .ok expected →
    ∀ o : Nat, MatchesAfter source rules o signature →
      MatchesAfter source rules (o + rule.patchOffset) expected

/-- What a position of the result holds, read off the source and the rules. -/
theorem getElem?_result (source : Bytes) (rules : List PatchRule) (result : Bytes)
    (changed : Bool) (h : applyRules source rules = .ok (result, changed)) (i : Nat) (b : UInt8) :
    result[i]? = some b ↔ HoldsAfter source rules i b := by
  rcases applyRules_cases source rules result changed h with
    ⟨resolved, hres, -, hapart, hresult, -, -, -⟩
  -- A written byte is the one the result holds.
  have hwritten : ∀ c, Written source rules i c → result[i]? = some c := by
    rintro c ⟨rule, hrule, o, bytes, k, hp, hi, hcell⟩
    rcases write_mem_of_patches source rules resolved hres rule hrule o bytes hp with
      ⟨site, hsite, hfit, hmem⟩
    have hk := bytes.cell_lt k c hcell
    obtain rfl : i = site + k := by omega
    have hcov : (⟨site, bytes.cells⟩ : MaskedWrite UInt8).Covers (site + k) :=
      ⟨Nat.le_add_right site k, by simp only [MaskedBytes.length_cells]; omega⟩
    rw [hresult, getElem?_overlays_of_covers source _ hapart _ hmem _ hcov,
      MaskedWrite.cell_add ⟨site, bytes.cells⟩ k, MaskedBytes.getElem?_cells, hcell,
      List.getElem?_eq_getElem (show site + k < source.length by omega)]
    rfl
  -- Where no rule writes, the result holds the source's byte.
  have hkept : (∀ c, ¬ Written source rules i c) → result[i]? = source[i]? := by
    intro hnone
    rw [hresult]
    by_cases hcov : ∃ w ∈ resolved.filterMap Resolved.write, w.Covers i
    · rcases hcov with ⟨w, hw, hi⟩
      rcases patches_of_write_mem source rules resolved hres w hw with
        ⟨rule, hrule, o, bytes, hp, hstart, hcells⟩
      rw [getElem?_overlays_of_covers source _ hapart w hw i hi]
      rcases Nat.exists_eq_add_of_le hi.1 with ⟨k, rfl⟩
      have hcell : w.cell (w.start + k) = none := by
        rw [MaskedWrite.cell_add, hcells, MaskedBytes.getElem?_cells]
        rcases hc : bytes.cell k with _ | c
        · rfl
        · exact absurd ⟨rule, hrule, o, bytes, k, hp, by omega, hc⟩ (hnone c)
      rw [hcell]
      simp only [Option.getD_none, Option.map_id']
    · push Not at hcov
      exact getElem?_overlays_of_not_covered source _ i hcov
  constructor
  · intro hb
    by_cases hw : ∃ c, Written source rules i c
    · rcases hw with ⟨c, hc⟩
      rw [hwritten c hc, Option.some.injEq] at hb
      exact Or.inl (hb ▸ hc)
    · push Not at hw
      exact Or.inr ⟨(hkept hw) ▸ hb, hw⟩
  · rintro (hw | ⟨hb, hnone⟩)
    · exact hwritten b hw
    · rw [hkept hnone, hb]

theorem matchesAt_result (source : Bytes) (rules : List PatchRule) (result : Bytes)
    (changed : Bool) (h : applyRules source rules = .ok (result, changed)) (o : Int)
    (pattern : MaskedBytes) :
    matchesAt result o pattern = true ↔ MatchesAfter source rules o pattern := by
  have hlen := length_of_applyRules source rules result changed h
  rw [matchesAt_iff_int, hlen, MatchesAfter]
  simp only [getElem?_result source rules result changed h]

/-- A replacement that has been verified resolves again, to no write. -/
theorem resolveRule_already (source result : Bytes) (rule : PatchRule) (text : String)
    (htext : rule.replacementHex = some text) (r : Resolved)
    (h : resolveRule source rule = .ok r) (hv : verifyRule result rule = .ok ()) :
    ∃ r', resolveRule result rule = .ok r' ∧ r'.state = .already := by
  rcases resolveRule_cases source rule r h with ⟨signature, expected, hsig, hexp, hfit, hcase⟩
  rcases hcase with ⟨_, hnone, -⟩ | ⟨text', replacement, patched, htext', hrep, hlen, hover, -⟩
  · rw [htext] at hnone
    exact absurd hnone (by simp only [reduceCtorEq, not_false_eq_true])
  · rw [htext, Option.some.injEq] at htext'
    subst htext'
    simp only [verifyRule, htext, hsig, hrep, hover, bind_ok_iff, Except.ok.injEq,
      exists_eq_left', raiseIf_ok_iff, exists_const, ne_eq, not_not] at hv
    rcases hv with ⟨horiginal, hunique⟩
    rcases List.length_eq_one_iff.mp hunique with ⟨o, ho⟩
    refine ⟨⟨rule, o, expected, some replacement, .already⟩, ?_, rfl⟩
    simp only [resolveRule, hsig, hexp, htext, bind_ok_iff, Except.ok.injEq, exists_eq_left',
      raiseIf_ok_iff, exists_const]
    refine ⟨by omega, ?_⟩
    simp only [resolveReplacement, hrep, hover, bind_ok_iff, Except.ok.injEq, exists_eq_left',
      raiseIf_ok_iff, exists_const]
    refine ⟨not_not.mpr hlen, ?_⟩
    rw [horiginal, ho]
    rfl

/-- A validation that has been verified resolves again exactly when its
    expected bytes stand wherever its signature matches. -/
theorem resolveRule_validation_iff (source result : Bytes) (rule : PatchRule)
    (hnone : rule.replacementHex = none) (r : Resolved)
    (h : resolveRule source rule = .ok r) (hv : verifyRule result rule = .ok ()) :
    (∃ r', resolveRule result rule = .ok r' ∧ r'.state = .validated) ↔
      ∀ signature expected, parseMaskedHex rule.signatureHex = .ok signature →
        parseMaskedHex rule.expectedHex = .ok expected → ∀ o : Nat,
        matchesAt result o signature = true →
        matchesAt result (o + rule.patchOffset) expected = true := by
  rcases resolveRule_cases source rule r h with ⟨signature, expected, hsig, hexp, hfit, -⟩
  simp only [verifyRule, hnone, hsig, bind_ok_iff, Except.ok.injEq, exists_eq_left',
    raiseIf_ok_iff, ne_eq, not_not] at hv
  rcases List.length_eq_one_iff.mp hv with ⟨o, ho⟩
  -- Verification left a single match, so the two sides speak of the same one.
  have hiff : (∃ r', resolveRule result rule = .ok r' ∧ r'.state = .validated) ↔
      matchesAt result (o + rule.patchOffset) expected = true := by
    simp only [resolveRule, hsig, hexp, hnone, bind_ok_iff, Except.ok.injEq, exists_eq_left',
      raiseIf_ok_iff, exists_const, resolveValidation_ok, ho]
    constructor
    · rintro ⟨r', ⟨-, o', ho', hm, -⟩, -⟩
      rw [List.cons.injEq] at ho'
      rw [ho'.1]
      exact hm
    · intro hm
      exact ⟨_, ⟨by omega, o, rfl, hm, rfl⟩, rfl⟩
  rw [hiff]
  constructor
  · intro hm signature' expected' hsig' hexp' o' hmatch
    rw [hsig, Except.ok.injEq] at hsig'
    rw [hexp, Except.ok.injEq] at hexp'
    subst hsig' hexp'
    have hmem := (mem_findMasked result signature o').mpr hmatch
    rw [ho, List.mem_singleton] at hmem
    rw [hmem]
    exact hm
  · intro hall
    refine hall signature expected hsig hexp o ?_
    exact (mem_findMasked result signature o).mp (ho ▸ List.mem_singleton_self o)

/-- Rules that resolve without a write leave the binary alone. -/
theorem applyRules_of_no_writes (data : Bytes) (rules : List PatchRule)
    (hids : (rules.map PatchRule.artifactId).dedup.length ≤ 1)
    (hres : ∀ rule ∈ rules, ∃ r, resolveRule data rule = .ok r ∧ r.state ≠ .patch)
    (hverify : ∀ rule ∈ rules, verifyRule data rule = .ok ()) :
    applyRules data rules = .ok (data, false) := by
  have hmap : ∃ resolved, rules.mapM (resolveRule data) = .ok resolved ∧
      ∀ r ∈ resolved, r.state ≠ .patch := by
    clear hids hverify
    induction rules with
    | nil => exact ⟨[], rfl, fun r hr => absurd hr List.not_mem_nil⟩
    | cons rule rest ih =>
        rcases ih fun x hx => hres x (List.mem_cons_of_mem rule hx) with ⟨rs, hrs, hall⟩
        rcases hres rule List.mem_cons_self with ⟨r, hr, hstate⟩
        refine ⟨r :: rs, ?_, List.forall_mem_cons.mpr ⟨hstate, hall⟩⟩
        rw [List.mapM_cons, hr, hrs]
        rfl
  rcases hmap with ⟨resolved, hmap, hall⟩
  have hrange : resolved.filterMap Resolved.range = [] := by
    rw [List.filterMap_eq_nil_iff]
    intro r hr
    unfold Resolved.range
    split
    next bytes hb hs => exact absurd hs (hall r hr)
    next => rfl
  have hwrite : resolved.filterMap Resolved.write = [] := by
    rw [List.filterMap_eq_nil_iff]
    intro r hr
    unfold Resolved.write
    split
    next bytes hb hs => exact absurd hs (hall r hr)
    next => rfl
  have hover : checkOverlaps resolved [] = .ok () := by
    rw [checkOverlaps_iff, hrange]
    exact ⟨List.Pairwise.nil, fun x hx => absurd hx List.not_mem_nil⟩
  have hrun := foldlM_writeOne data resolved [] (resolved_fits data rules resolved hmap)
    (by rw [hwrite]; exact List.Pairwise.nil)
  have hstart : decide (overlays data [] ≠ data) = false := decide_eq_false (not_not.mpr rfl)
  rw [hwrite, List.append_nil, hstart] at hrun
  simp only [applyRules, bind_ok_iff, raiseIf_ok_iff, exists_const, pure_ok_iff]
  exact ⟨by omega, resolved, hmap, (), hover, _, hrun, (), (forM_ok_iff _ _ _).mpr hverify, rfl⟩

/-- When a second run goes through: the first run verified every replacement,
    so all that is left to ask is that the validations survive it. -/
theorem applyRules_again_iff (source : Bytes) (rules : List PatchRule) (result : Bytes)
    (changed : Bool) (h : applyRules source rules = .ok (result, changed)) :
    applyRules result rules = .ok (result, false) ↔ ValidationSurvives source rules := by
  rcases applyRules_cases source rules result changed h with
    ⟨resolved, hres, -, -, -, -, hids, hverify⟩
  have hmatch := matchesAt_result source rules result changed h
  constructor
  · intro hagain rule hrule hnone signature expected hsig hexp o ho
    rcases applyRules_cases result rules result false hagain with ⟨resolved', hres', -⟩
    rcases mapM_ok_of_mem _ _ _ hres rule hrule with ⟨r, -, hr⟩
    rcases mapM_ok_of_mem _ _ _ hres' rule hrule with ⟨r', -, hr'⟩
    have hstate : r'.state = .validated := by
      rcases resolveRule_cases result rule r' hr' with ⟨_, _, -, -, -, hcase⟩
      rcases hcase with ⟨_, -, -, -, rfl⟩ | ⟨text, _, _, htext, -⟩
      · rfl
      · rw [hnone] at htext
        exact absurd htext (by simp only [reduceCtorEq, not_false_eq_true])
    rw [← hmatch] at ho ⊢
    exact (resolveRule_validation_iff source result rule hnone r hr (hverify rule hrule)).mp
      ⟨r', hr', hstate⟩ signature expected hsig hexp o ho
  · intro hsurvives
    refine applyRules_of_no_writes result rules hids (fun rule hrule => ?_) hverify
    rcases mapM_ok_of_mem _ _ _ hres rule hrule with ⟨r, -, hr⟩
    cases hrep : rule.replacementHex with
    | none =>
        have hok := (resolveRule_validation_iff source result rule hrep r hr
          (hverify rule hrule)).mpr fun signature expected hsig hexp o ho => by
            rw [hmatch] at ho ⊢
            exact hsurvives rule hrule hrep signature expected hsig hexp o ho
        rcases hok with ⟨r', hr', hstate⟩
        exact ⟨r', hr', by rw [hstate]; decide⟩
    | some text =>
        rcases resolveRule_already source result rule text hrep r hr (hverify rule hrule) with
          ⟨r', hr', hstate⟩
        exact ⟨r', hr', by rw [hstate]; decide⟩

/-- A rule that writes inside a validated window but not over the expected
    byte: a second run goes through. -/
theorem applyRules_again_kept :
    ValidationSurvives [0xaa, 0xcc, 0xbb]
      [⟨"a", "check", "aa ?? bb", 0, "aa", none, "", 0⟩,
       ⟨"a", "write", "cc bb", 0, "cc", some "dd", "", 0⟩] :=
  (applyRules_again_iff _ _ [0xaa, 0xdd, 0xbb] true (by decide)).mp (by decide)

/-- A rule that overwrites an expected byte of a validation whose signature
    does not require it: the first run succeeds and the second is refused. -/
theorem applyRules_again_refused :
    applyRules [0xaa, 0xcc, 0xbb]
      [⟨"a", "check", "aa ?? bb", 1, "cc", none, "", 0⟩,
       ⟨"a", "write", "cc bb", 0, "cc", some "dd", "", 0⟩] = .ok ([0xaa, 0xdd, 0xbb], true) ∧
    applyRules [0xaa, 0xdd, 0xbb]
      [⟨"a", "check", "aa ?? bb", 1, "cc", none, "", 0⟩,
       ⟨"a", "write", "cc bb", 0, "cc", some "dd", "", 0⟩]
      = .error (.valueError "check: validation bytes mismatch") := by
  decide

end Zd1200
