import Zd1200.Patch.Again

/-!
# Jumps to the Exit

Where the jump goes that a rule with a `rel32_exit` puts at its site.

Such a rule moves a jump: the code at its site is replaced by a jump to
wherever the jump at its exit goes. A run that performs the rule reads the exit
from the source and computes the displacement, and the jump is right for every
displacement and all offsets, since both are taken modulo 2^32.

A run that finds the rule already applied computes nothing. The displacement
is a wildcard of the patched signature, and nothing else of the exit is looked
at, so whatever jump stands at the site is accepted. Whether it is the right
one is left to the source: a jump is right that has the displacement which the
other branch would have computed (`kept_iff_rel32`), and of a site that no rule
writes into that is a congruence between the two displacements that the source
stores (`AlikeStored`). A site may also be written into by other rules, since
only the sites of rules that are performed are kept apart; then the bytes that
they write have to be those of the right jump, and so does the rest of the
source (`JumpStands`).

## Main definitions

* `JumpsTo`: A jump with some target.
* `ExitKept`: The jump at the site goes where the one at the exit goes.
* `JumpStands`: The bytes that a rewriting would write are there anyway.
* `AlikeStored`: The displacements of two jumps of the source agree.

## Theorems

* `kept_iff_rel32`: A jump goes to the exit's target if it is the computed one.
* `jumpStands_iff_alikeStored`: A site that no rule writes into.
* `exitKept_iff`: When the exit is kept.
-/

namespace Zd1200

/-- The displacement that a jump at `n` stores. -/
def displacementAt (data : Bytes) (n : Nat) : Nat := leNat ((data.drop (n + 1)).take 4)

/-- The five bytes at a site are an `e9` jump to a target, modulo 2^32. -/
def JumpsTo (data : Bytes) (site target : Int) : Prop :=
  ∃ n : Nat, (n : Int) = site ∧ n + 5 ≤ data.length ∧ data[n]? = some 0xe9 ∧
    (n + 5 + signed32 (displacementAt data n)) % 2 ^ 32 = target

/-- The result has a jump at the rule's site to where the jump at its exit goes
    in the source; the rule matches at `o`. -/
def ExitKept (source result : Bytes) (rule : PatchRule) (o : Nat) : Prop :=
  ∃ target, JumpsTo source (o + rule.rel32Exit) target ∧
    JumpsTo result (o + rule.patchOffset) target

/-- The source has a jump at the rule's exit, and at its site there are the
    bytes that a rewriting would write: a rule that is performed writes no other
    ones there, and where none writes the source has them. -/
def JumpStands (source : Bytes) (rules : List PatchRule) (rule : PatchRule) (o : Nat) : Prop :=
  ∃ n e : Nat, (n : Int) = o + rule.patchOffset ∧ (e : Int) = o + rule.rel32Exit ∧
    n + 5 ≤ source.length ∧ e + 5 ≤ source.length ∧ source[e]? = some 0xe9 ∧
    ∀ k b, (rel32Jump source n e).cell k = some b →
      (∀ c, Written source rules (n + k) c → c = b) ∧
      ((∀ c, ¬ Written source rules (n + k) c) → source[n + k]? = some b)

/-- The source has jumps at the rule's site and at its exit, and what they store
    differs by the distance between them. -/
def AlikeStored (source : Bytes) (rule : PatchRule) (o : Nat) : Prop :=
  ∃ n e : Nat, (n : Int) = o + rule.patchOffset ∧ (e : Int) = o + rule.rel32Exit ∧
    n + 5 ≤ source.length ∧ e + 5 ≤ source.length ∧
    source[n]? = some 0xe9 ∧ source[e]? = some 0xe9 ∧
    (rule.patchOffset + displacementAt source n) % 2 ^ 32 =
      (rule.rel32Exit + displacementAt source e) % 2 ^ 32

/-- No rule that is performed writes into the five bytes of the rule's site. -/
def SiteUnwritten (source : Bytes) (rules : List PatchRule) (rule : PatchRule) (o : Nat) : Prop :=
  ∀ n k : Nat, (n : Int) = o + rule.patchOffset → k < 5 → ∀ c, ¬ Written source rules (n + k) c

/-! ### The computed jump -/

theorem displacementAt_lt (data : Bytes) (n : Nat) : displacementAt data n < 2 ^ 32 := by
  have hlt := leNat_lt ((data.drop (n + 1)).take 4)
  have hle : ((data.drop (n + 1)).take 4).length ≤ 4 := List.length_take_le _ _
  calc displacementAt data n < 256 ^ ((data.drop (n + 1)).take 4).length := hlt
    _ ≤ 256 ^ 4 := Nat.pow_le_pow_right (by decide) hle
    _ = 2 ^ 32 := by decide

-- A pattern and its number differ by a multiple of the modulus.
theorem add_signed32_emod (a : Int) (n : Nat) : (a + signed32 n) % 2 ^ 32 = (a + n) % 2 ^ 32 := by
  unfold signed32
  split
  · rfl
  · omega

/-- The displacement that a rewriting computes, modulo 2^32. -/
def exitDisplacement (source : Bytes) (n e : Nat) : Nat :=
  ((((e : Int) + 5 + signed32 (displacementAt source e)) - (n + 5)) % 2 ^ 32).toNat

theorem exitDisplacement_lt (source : Bytes) (n e : Nat) :
    exitDisplacement source n e < 2 ^ 32 := by
  rw [exitDisplacement]
  omega

/-- The bytes of the computed jump. -/
theorem rel32Jump_cell (source : Bytes) (n e : Nat) (he : e + 5 ≤ source.length) (k : Nat)
    (b : UInt8) :
    (rel32Jump source n e).cell k = some b ↔
      (0xe9 :: leBytes 4 (exitDisplacement source n e))[k]? = some b := by
  have hslice : slice source ((e : Int) + 1) ((e : Int) + 5) = (source.drop (e + 1)).take 4 := by
    have hwindow := slice_window source (e + 1) 4 (by omega)
    rwa [show ((e + 1 : Nat) : Int) + (4 : Nat) = (e : Int) + 5 by omega,
      show ((e + 1 : Nat) : Int) = (e : Int) + 1 by omega] at hwindow
  rw [MaskedBytes.cell_eq_some_iff, rel32Jump, hslice, ← displacementAt, ← exitDisplacement]
  -- All five bytes of the jump are exact.
  refine and_iff_right_of_imp fun h => ?_
  have hlt := (List.getElem?_eq_some_iff.mp h).1
  rw [List.length_cons, length_leBytes] at hlt
  simp only [List.getElem?_replicate, if_pos hlt]

/-- Five bytes are the computed jump if they have its opcode and its
    displacement. -/
theorem stands_iff (source data : Bytes) (n e : Nat) (hn : n + 5 ≤ data.length)
    (he : e + 5 ≤ source.length) :
    (∀ k b, (rel32Jump source n e).cell k = some b → data[n + k]? = some b) ↔
      data[n]? = some 0xe9 ∧ displacementAt data n = exitDisplacement source n e := by
  simp only [rel32Jump_cell source n e he]
  have hlen : ((data.drop (n + 1)).take 4).length = 4 := by
    rw [List.length_take, List.length_drop]
    omega
  have hget : ∀ k, k < 4 → ((data.drop (n + 1)).take 4)[k]? = data[n + (k + 1)]? := by
    intro k hk
    rw [List.getElem?_take_of_lt hk, List.getElem?_drop, Nat.add_right_comm, Nat.add_assoc]
  constructor
  · intro h
    refine ⟨h 0 _ rfl, ?_⟩
    have hbytes : (data.drop (n + 1)).take 4 = leBytes 4 (exitDisplacement source n e) := by
      refine List.ext_getElem? fun k => ?_
      by_cases hk : k < 4
      · have hk' : k < (leBytes 4 (exitDisplacement source n e)).length := by
          rwa [length_leBytes]
        rw [hget k hk, List.getElem?_eq_getElem hk']
        exact h (k + 1) _ (by rw [List.getElem?_cons_succ, List.getElem?_eq_getElem hk'])
      · rw [List.getElem?_eq_none (by omega), List.getElem?_eq_none (by rw [length_leBytes]; omega)]
    rw [displacementAt, hbytes, leNat_leBytes 4 _ (exitDisplacement_lt source n e)]
  · rintro ⟨hopcode, hdisplacement⟩ k b hb
    cases k with
    | zero => rw [Nat.add_zero, hopcode, ← hb, List.getElem?_cons_zero]
    | succ k =>
        have hbytes := leBytes_leNat ((data.drop (n + 1)).take 4)
        rw [hlen, ← displacementAt, hdisplacement] at hbytes
        rw [List.getElem?_cons_succ, hbytes] at hb
        have hk := (List.getElem?_eq_some_iff.mp hb).1
        rw [← hget k (by omega), hb]

/-- A jump goes to where the jump at the exit goes exactly if it is the one that
    a rewriting computes. -/
theorem kept_iff_rel32 (source data : Bytes) (rule : PatchRule) (o : Nat) :
    ExitKept source data rule o ↔
      ∃ n e : Nat, (n : Int) = o + rule.patchOffset ∧ (e : Int) = o + rule.rel32Exit ∧
        n + 5 ≤ data.length ∧ e + 5 ≤ source.length ∧ source[e]? = some 0xe9 ∧
        ∀ k b, (rel32Jump source n e).cell k = some b → data[n + k]? = some b := by
  constructor
  · rintro ⟨target, ⟨e, hexit, he, hexitOpcode, hfrom⟩, n, hsite, hn, hopcode, hto⟩
    refine ⟨n, e, hsite, hexit, hn, he, hexitOpcode, (stands_iff source data n e hn he).mpr
      ⟨hopcode, ?_⟩⟩
    have hlt := displacementAt_lt data n
    -- Both jumps have one target, and a displacement is below the modulus.
    have htargets := hto.trans hfrom.symm
    rw [add_signed32_emod] at htargets
    rw [exitDisplacement]
    omega
  · rintro ⟨n, e, hsite, hexit, hn, he, hexitOpcode, hbytes⟩
    rcases (stands_iff source data n e hn he).mp hbytes with ⟨hopcode, hdisplacement⟩
    refine ⟨_, ⟨e, hexit, he, hexitOpcode, rfl⟩, n, hsite, hn, hopcode, ?_⟩
    rw [hdisplacement, add_signed32_emod, exitDisplacement]
    omega

/-! ### Jumps that are written -/

/-- What was checked of the exit of a rule that is performed. -/
theorem exit_of_patch (source : Bytes) (rule : PatchRule) (r : Resolved)
    (h : resolveRule source rule = .ok r) (hstate : r.state = .patch) (hexit : rule.rel32Exit ≠ 0) :
    ∃ e : Nat, (e : Int) = r.matchOffset + rule.rel32Exit ∧ e + 5 ≤ source.length ∧
      source[e]? = some 0xe9 := by
  simp only [resolveRule, bind_ok_iff, raiseIf_ok_iff, exists_const] at h
  rcases h with ⟨signature, -, expected, -, -, h⟩
  split at h
  · rcases (resolveValidation_ok _ _ _ _ _).mp h with ⟨o, -, -, rfl⟩
    exact absurd hstate (by simp only [reduceCtorEq, not_false_eq_true])
  · simp only [resolveReplacement, bind_ok_iff, raiseIf_ok_iff, exists_const] at h
    rcases h with ⟨replacement, -, -, patched, -, h⟩
    split at h
    · next o hhits hnone =>
      simp only [bind_ok_iff, raiseIf_ok_iff, exists_const, pure_ok_iff] at h
      rcases h with ⟨-, bytes, hbytes, rfl⟩
      rw [resolveBytes, if_neg hexit] at hbytes
      simp only [resolveExit, bind_ok_iff, raiseIf_ok_iff, exists_const, not_or, Int.not_lt,
        gt_iff_lt, ne_eq, not_not] at hbytes
      rcases hbytes with ⟨-, ⟨hlow, hhigh⟩, hopcode, -⟩
      -- The exit lies inside the signature, which lies inside the source.
      have hmatch := (mem_findMasked source signature o).mp (hhits ▸ List.mem_singleton_self o)
      have hin := ((matchesAt_iff source o signature).mp hmatch).1
      exact ⟨(o + rule.rel32Exit).toNat, Int.toNat_of_nonneg (by omega), by omega, hopcode⟩
    · rw [pure_ok_iff] at h
      rw [← h] at hstate
      exact absurd hstate (by simp only [reduceCtorEq, not_false_eq_true])
    · exact absurd h (by simp only [reduceCtorEq, not_false_eq_true])

/-- Where a rule is performed, what it writes at its site is the computed jump. -/
theorem holdsAfter_of_patches (source : Bytes) (rules : List PatchRule) (rule : PatchRule)
    (hrule : rule ∈ rules) (hexit : rule.rel32Exit ≠ 0) (o : Nat) (bytes : MaskedBytes)
    (hp : Patches source rule o bytes) (n e : Nat) (hsite : (n : Int) = o + rule.patchOffset)
    (he : (e : Int) = o + rule.rel32Exit) (k : Nat) (b : UInt8)
    (hb : (rel32Jump source n e).cell k = some b) : HoldsAfter source rules (n + k) b := by
  have hbytes : bytes = rel32Jump source n e := by
    rcases hp with ⟨signature, text, replacement, -, -, -, -, hbytes⟩
    rw [hbytes, if_neg hexit, hsite, he]
  exact Or.inl ⟨rule, hrule, o, bytes, k, hp, by omega, hbytes ▸ hb⟩

/-! ### Jumps that stand -/

/-- Of a site that no rule writes into, the source tells by what the two jumps
    store. -/
theorem jumpStands_iff_alikeStored (source : Bytes) (rules : List PatchRule) (rule : PatchRule)
    (o : Nat) (hunwritten : SiteUnwritten source rules rule o) :
    JumpStands source rules rule o ↔ AlikeStored source rule o := by
  refine exists_congr fun n => exists_congr fun e => and_congr_right fun hsite =>
    and_congr_right fun hexit => and_congr_right fun hn => and_congr_right fun he => ?_
  have hbytes : (∀ k b, (rel32Jump source n e).cell k = some b →
      (∀ c, Written source rules (n + k) c → c = b) ∧
      ((∀ c, ¬ Written source rules (n + k) c) → source[n + k]? = some b)) ↔
      source[n]? = some 0xe9 ∧ displacementAt source n = exitDisplacement source n e := by
    rw [← stands_iff source source n e hn he]
    refine forall_congr' fun k => forall_congr' fun b => imp_congr_right fun hcell => ?_
    have hk := (rel32Jump source n e).cell_lt k b hcell
    rw [length_rel32Jump] at hk
    have hnone := hunwritten n k hsite hk
    exact ⟨fun h => h.2 hnone, fun h => ⟨fun c hc => absurd hc (hnone c), fun _ => h⟩⟩
  have hsame : displacementAt source n = exitDisplacement source n e ↔
      (rule.patchOffset + displacementAt source n) % 2 ^ 32 =
        (rule.rel32Exit + displacementAt source e) % 2 ^ 32 := by
    have hlt := displacementAt_lt source n
    have hmod := add_signed32_emod ((e : Int) - n) (displacementAt source e)
    rw [exitDisplacement]
    omega
  rw [hbytes, hsame]
  tauto

/-- The exit of a rule is kept exactly if the rule is performed or the right
    jump stands at its site anyway; of a site that no rule writes into, that is
    so if the displacements of the source agree. -/
theorem exitKept_iff (source : Bytes) (rules : List PatchRule) (result : Bytes) (changed : Bool)
    (h : applyRules source rules = .ok (result, changed)) (rule : PatchRule) (hrule : rule ∈ rules)
    (hexit : rule.rel32Exit ≠ 0) (r : Resolved) (hr : resolveRule source rule = .ok r) :
    (ExitKept source result rule r.matchOffset ↔
      (∃ bytes, Patches source rule r.matchOffset bytes) ∨
        JumpStands source rules rule r.matchOffset) ∧
    (SiteUnwritten source rules rule r.matchOffset →
      (ExitKept source result rule r.matchOffset ↔ AlikeStored source rule r.matchOffset)) := by
  have hholds := getElem?_result source rules result changed h
  have hlen := length_of_applyRules source rules result changed h
  have hiff : ExitKept source result rule r.matchOffset ↔
      (∃ bytes, Patches source rule r.matchOffset bytes) ∨
        JumpStands source rules rule r.matchOffset := by
    rw [kept_iff_rel32, hlen]
    constructor
    · rintro ⟨n, e, hsite, hto, hn, he, hopcode, hbytes⟩
      refine Or.inr ⟨n, e, hsite, hto, hn, he, hopcode, fun k b hb => ⟨fun c hc => ?_, fun hnone => ?_⟩⟩
      -- What is written is in the result, and so is the jump.
      · have hwritten := (hholds (n + k) c).mpr (Or.inl hc)
        rw [hbytes k b hb, Option.some.injEq] at hwritten
        exact hwritten.symm
      · rcases (hholds (n + k) b).mp (hbytes k b hb) with hw | ⟨hb', -⟩
        · exact absurd hw (hnone b)
        · exact hb'
    · rintro (⟨bytes, hp⟩ | ⟨n, e, hsite, hto, hn, he, hopcode, hstands⟩)
      -- The rule is performed, and its own jump is what it writes.
      · rcases resolved_of_patches source rule r hr r.matchOffset bytes hp with ⟨-, hb, hstate⟩
        rcases exit_of_patch source rule r hr hstate hexit with ⟨e, hto, he, hopcode⟩
        rcases (resolveRule_fits source rule r hr).2 bytes hb hstate with ⟨hsite, hfit⟩
        have hsite' : (r.site.toNat : Int) = r.matchOffset + rule.patchOffset := by
          rw [Int.toNat_of_nonneg hsite, Resolved.site, resolveRule_rule source rule r hr]
        have hfive : bytes.length = 5 := by
          rcases hp with ⟨_, _, _, -, -, -, -, rfl⟩
          rw [if_neg hexit, length_rel32Jump]
        refine ⟨r.site.toNat, e, hsite', hto, by omega, he, hopcode, fun k b hcell => ?_⟩
        exact (hholds _ b).mpr (holdsAfter_of_patches source rules rule hrule hexit r.matchOffset
          bytes hp r.site.toNat e hsite' hto k b hcell)
      · refine ⟨n, e, hsite, hto, hn, he, hopcode, fun k b hcell => (hholds _ b).mpr ?_⟩
        rcases hstands k b hcell with ⟨hwritten, hkept⟩
        -- A byte of the result is one that is written, or the source's own.
        by_cases hw : ∃ c, Written source rules (n + k) c
        · rcases hw with ⟨c, hc⟩
          exact Or.inl (hwritten c hc ▸ hc)
        · push Not at hw
          exact Or.inr ⟨hkept hw, hw⟩
  refine ⟨hiff, fun hunwritten => ?_⟩
  rw [hiff, jumpStands_iff_alikeStored source rules rule _ hunwritten]
  refine or_iff_right ?_
  -- The rule itself would write into its site.
  rintro ⟨bytes, hp⟩
  rcases resolved_of_patches source rule r hr r.matchOffset bytes hp with ⟨-, hb, hstate⟩
  rcases (resolveRule_fits source rule r hr).2 bytes hb hstate with ⟨hsite, -⟩
  have hsite' : (r.site.toNat : Int) = r.matchOffset + rule.patchOffset := by
    rw [Int.toNat_of_nonneg hsite, Resolved.site, resolveRule_rule source rule r hr]
  refine hunwritten r.site.toNat 0 hsite' (by decide) 0xe9
    ⟨rule, hrule, r.matchOffset, bytes, 0, hp, by omega, ?_⟩
  rcases hp with ⟨_, _, _, -, -, -, -, rfl⟩
  rw [if_neg hexit]
  rfl

/-- Five bytes to be replaced by the jump behind them. -/
def movedJump : PatchRule :=
  ⟨"a", "move", "90 90 90 90 90 e9 ?? ?? ?? ??", 0, "90 90 90 90 90", some "e9 ?? ?? ?? ??", "", 5⟩

/-- The rule performed: the jump at 0 goes where the one at 5 goes. -/
theorem exitKept_performed :
    ExitKept [0x90, 0x90, 0x90, 0x90, 0x90, 0xe9, 0x02, 0x00, 0x00, 0x00]
      [0xe9, 0x07, 0x00, 0x00, 0x00, 0xe9, 0x02, 0x00, 0x00, 0x00] movedJump 0 := by
  have hrun : applyRules [0x90, 0x90, 0x90, 0x90, 0x90, 0xe9, 0x02, 0x00, 0x00, 0x00] [movedJump]
      = .ok ([0xe9, 0x07, 0x00, 0x00, 0x00, 0xe9, 0x02, 0x00, 0x00, 0x00], true) := by
    decide +kernel
  rcases applyRules_cases _ _ _ _ hrun with ⟨resolved, hresolved, -⟩
  rcases mapM_ok_of_mem _ _ _ hresolved movedJump List.mem_cons_self with ⟨r, -, hr⟩
  have hmatch : (resolveRule [0x90, 0x90, 0x90, 0x90, 0x90, 0xe9, 0x02, 0x00, 0x00, 0x00]
      movedJump).toOption.map Resolved.matchOffset = some 0 := by decide +kernel
  have hoffset : r.matchOffset = 0 := by
    rw [hr] at hmatch
    exact Option.some.inj hmatch
  have hkept := (exitKept_iff _ [movedJump] _ true hrun movedJump List.mem_cons_self (by decide) r
    hr).1.mpr (Or.inl ?_)
  · rwa [hoffset] at hkept
  · have hstate : (resolveRule [0x90, 0x90, 0x90, 0x90, 0x90, 0xe9, 0x02, 0x00, 0x00, 0x00]
        movedJump).toOption.map Resolved.state = some .patch := by decide +kernel
    rw [hr] at hstate
    have hs : r.state = .patch := Option.some.inj hstate
    have hb : (resolveRule [0x90, 0x90, 0x90, 0x90, 0x90, 0xe9, 0x02, 0x00, 0x00, 0x00]
        movedJump).toOption.any (fun r => r.replacement.isSome) = true := by decide +kernel
    rw [hr] at hb
    rcases Option.isSome_iff_exists.mp hb with ⟨bytes, hbytes⟩
    exact ⟨bytes, patches_of_resolved _ movedJump r hr bytes hbytes hs⟩

/-- A jump to 14 stands at the site and the exit goes to 10: the rule counts as
    applied and the source is left as it is. -/
theorem exitKept_accepted :
    applyRules [0xe9, 0x09, 0x00, 0x00, 0x00, 0xe9, 0x00, 0x00, 0x00, 0x00] [movedJump]
        = .ok ([0xe9, 0x09, 0x00, 0x00, 0x00, 0xe9, 0x00, 0x00, 0x00, 0x00], false) ∧
      (resolveRule [0xe9, 0x09, 0x00, 0x00, 0x00, 0xe9, 0x00, 0x00, 0x00, 0x00]
        movedJump).toOption.map (fun r => (r.matchOffset, r.state)) = some (0, .already) ∧
      ¬ ExitKept [0xe9, 0x09, 0x00, 0x00, 0x00, 0xe9, 0x00, 0x00, 0x00, 0x00]
        [0xe9, 0x09, 0x00, 0x00, 0x00, 0xe9, 0x00, 0x00, 0x00, 0x00] movedJump 0 := by
  refine ⟨by decide +kernel, by decide +kernel, ?_⟩
  rintro ⟨target, ⟨e, he, -, -, hexit⟩, n, hn, -, -, hsite⟩
  obtain rfl : e = 5 := by
    simp only [movedJump] at he
    omega
  obtain rfl : n = 0 := by
    simp only [movedJump] at hn
    omega
  rw [← hsite] at hexit
  exact absurd hexit (by decide)

end Zd1200
