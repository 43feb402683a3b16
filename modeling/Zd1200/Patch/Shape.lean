import Zd1200.Patch.Catalog
import Zd1200.Patch.Frame

/-!
# Errors About a Rule's Shape

A catalog is read at startup, before any vendor image is, so that what is
wrong with a rule is found there and not while an image is being patched.

`load_catalog` and `apply_rules` check the same things, one about the texts of
a document and the other about the patterns of a rule: that the patterns can
be read, that the expected bytes and the replacement lie inside the signature
and that they are as long as each other. All of this the loader covers:
`loadCatalog_fits` is what an accepted document has passed.

A rule with a `rel32_exit` is not covered. The engine wants its replacement to
be a jump of five bytes and its exit to lie inside the signature, and the
loader asks only that the exit is not negative. Such a rule loads, and raises
once its signature is found in an image.

`JumpsFit` is what is missing. A rule that is never reached because another
one failed before it, or that is not to be patched in this source, does not
raise, so the condition speaks of the rules that are due.

## Main definitions

* `ShapeError`: The errors about the shape of a rule.
* `Due`: A rule is to be patched.
* `JumpShape`: The exit of a rule and its replacement are as they should be.
* `Located`: A rule is found in the source.
* `JumpsFit`: The rules that are due have the right shape.

## Theorems

* `not_shapeError_of_content`: Messages about the contents are no others.
* `resolveRule_shape`: When a rule of an accepted document raises about its
  shape.
* `resolves_iff`: When it resolves.
* `applyRules_shape_iff`: When the engine raises about the shape of a rule.
-/

namespace Zd1200

/-- The errors about the shape of a rule. -/
inductive ShapeError : PyError → Prop
  | pattern (text : String) (e : PyError) (h : parseMaskedHex text = .error e) : ShapeError e
  | expectedOutside (name : String) :
      ShapeError (.valueError s!"{name}: expected bytes lie outside signature")
  | replacementOutside : ShapeError (.valueError "replacement lies outside signature")
  | replacementLength : ShapeError (.valueError "replacement length mismatch")
  | lengths (name : String) :
      ShapeError (.valueError s!"{name}: expected/replacement length mismatch")
  | jump (name : String) :
      ShapeError (.valueError s!"{name}: rel32 patch must be a five-byte e9 jump")
  | exit (name : String) :
      ShapeError (.valueError s!"{name}: rel32 exit lies outside signature")

/-- How the messages about a rule's shape end. -/
def shapeEndings : List String :=
  ["empty byte pattern", "byte pattern has an odd number of characters", "'",
   "\"", "byte must be in range(0, 256)", ": expected bytes lie outside signature",
   "replacement lies outside signature", "replacement length mismatch",
   ": expected/replacement length mismatch", ": rel32 patch must be a five-byte e9 jump",
   ": rel32 exit lies outside signature"]

/-- How the messages about the contents of a source end. -/
def contentEndings : List String :=
  [" places (expected exactly one)", ": validation bytes mismatch",
   ": expected instruction mismatch", " places; refusing ambiguous or unknown input",
   ": rel32 exit is not an e9 jump", ": patch overlaps another patch"]

/-- The patterns of a rule with a replacement are found where the unpatched
    instructions are. -/
structure Due (source : Bytes) (rule : PatchRule) (signature replacement : MaskedBytes)
    (o : Nat) : Prop where
  signatureHex : parseMaskedHex rule.signatureHex = .ok signature
  replacementHex : ∃ text, rule.replacementHex = some text ∧
    parseMaskedHex text = .ok replacement
  original : findMasked source signature = [o]
  patched : ∃ pattern,
    overlayPattern signature rule.patchOffset replacement (rule.rel32Exit = 0) = .ok pattern ∧
    findMasked source pattern = []
  expected : ∃ pattern, parseMaskedHex rule.expectedHex = .ok pattern ∧
    matchesAt source (o + rule.patchOffset) pattern = true

/-- A rule with an exit replaces a jump of five bytes and has its exit inside
    the signature. -/
def JumpShape (rule : PatchRule) (signature replacement : MaskedBytes) : Prop :=
  rule.rel32Exit ≠ 0 → replacement.length = 5 ∧ replacement.values[0]? = some 0xe9 ∧
    rule.rel32Exit + 5 ≤ signature.length

/-- A rule is found in the source: as a validation, to be patched or already
    patched. -/
inductive Located (source : Bytes) (rule : PatchRule) : Prop
  | validation (signature expected : MaskedBytes) (o : Nat)
      (hnone : rule.replacementHex = none)
      (hsignature : parseMaskedHex rule.signatureHex = .ok signature)
      (hexpected : parseMaskedHex rule.expectedHex = .ok expected)
      (horiginal : findMasked source signature = [o])
      (hmatch : matchesAt source (o + rule.patchOffset) expected = true)
  | patch (signature replacement : MaskedBytes) (o : Nat)
      (hdue : Due source rule signature replacement o)
      (hshape : JumpShape rule signature replacement)
      (hjump : rule.rel32Exit ≠ 0 → source[(o + rule.rel32Exit).toNat]? = some 0xe9)
  | already (signature replacement pattern : MaskedBytes) (text : String) (o : Nat)
      (hsignature : parseMaskedHex rule.signatureHex = .ok signature)
      (hreplacement : rule.replacementHex = some text)
      (htext : parseMaskedHex text = .ok replacement)
      (hpattern : overlayPattern signature rule.patchOffset replacement (rule.rel32Exit = 0)
        = .ok pattern)
      (horiginal : findMasked source signature = [])
      (hpatched : findMasked source pattern = [o])

/-- Of the rules that are due, those all of whose predecessors are found have
    the right shape. -/
def JumpsFit (source : Bytes) (rules : List PatchRule) : Prop :=
  ∀ before rule after, rules = before ++ rule :: after →
    (∀ earlier ∈ before, Located source earlier) →
    ∀ signature replacement o, Due source rule signature replacement o →
      JumpShape rule signature replacement

/-! ### Messages -/

theorem ending_self (text ending : String) : ending.toList <:+ (text ++ ending).toList := by
  rw [String.toList_append]
  exact List.suffix_append _ _

theorem ending_append (text rest ending : String) (h : ending.toList <:+ rest.toList) :
    ending.toList <:+ (text ++ rest).toList := by
  rw [String.toList_append]
  exact h.trans (List.suffix_append _ _)

theorem parseToken_error (token : Char × Char) (e : PyError) (h : parseToken token = .error e) :
    ∃ message, e = .valueError message ∧ ∃ s ∈ shapeEndings, s.toList <:+ message.toList := by
  unfold parseToken at h
  split at h
  · exact absurd h (by simp only [reduceCtorEq, not_false_eq_true])
  · split at h
    · refine ⟨_, (Except.error.inj h).symm, ?_⟩
      rcases reprText_ends [token.1, token.2] with hend | hend
      · exact ⟨"'", by decide, ending_append _ _ _ hend⟩
      · exact ⟨"\"", by decide, ending_append _ _ _ hend⟩
    · split at h
      · exact absurd h (by simp only [reduceCtorEq, not_false_eq_true])
      · exact ⟨_, (Except.error.inj h).symm, _, by decide, List.suffix_rfl⟩

theorem ShapeError.ending (e : PyError) (h : ShapeError e) :
    ∃ message, e = .valueError message ∧ ∃ s ∈ shapeEndings, s.toList <:+ message.toList := by
  cases h with
  | pattern text _ hparse =>
      simp only [parseMaskedHex, bind_error_iff, raiseIf_error_iff, pure_error_iff, and_false,
        exists_false, or_false] at hparse
      rcases hparse with ⟨-, rfl⟩ | ⟨-, -, ⟨-, rfl⟩ | ⟨-, -, hparse⟩⟩
      · exact ⟨_, rfl, _, by decide, List.suffix_rfl⟩
      · exact ⟨_, rfl, _, by decide, List.suffix_rfl⟩
      · rcases (mapM_error_iff _ _ _).mp hparse with ⟨_, token, _, -, -, htoken⟩
        exact parseToken_error token e htoken
  | expectedOutside name => exact ⟨_, rfl, _, by decide, ending_self _ _⟩
  | replacementOutside => exact ⟨_, rfl, _, by decide, List.suffix_rfl⟩
  | replacementLength => exact ⟨_, rfl, _, by decide, List.suffix_rfl⟩
  | lengths name => exact ⟨_, rfl, _, by decide, ending_self _ _⟩
  | jump name => exact ⟨_, rfl, _, by decide, ending_self _ _⟩
  | exit name => exact ⟨_, rfl, _, by decide, ending_self _ _⟩

/-- Messages about the contents are no messages about a rule's shape: of two
    endings of one text the shorter would end the longer. -/
theorem not_shapeError_of_content (message ending : String) (hending : ending ∈ contentEndings)
    (h : ending.toList <:+ message.toList) : ¬ ShapeError (.valueError message) := by
  intro hshape
  rcases hshape.ending with ⟨message', heq, s, hs, hsuffix⟩
  rw [← PyError.valueError.inj heq] at hsuffix
  have happart : ∀ c ∈ contentEndings, ∀ s ∈ shapeEndings,
      ¬ c.toList <:+ s.toList ∧ ¬ s.toList <:+ c.toList := by decide
  rcases List.suffix_or_suffix_of_suffix h hsuffix with hc | hc
  · exact (happart ending hending s hs).1 hc
  · exact (happart ending hending s hs).2 hc

/-! ### One rule -/

theorem resolveValidation_content (source : Bytes) (rule : PatchRule) (expected : MaskedBytes)
    (hits : List Nat) (e : PyError) (h : resolveValidation source rule expected hits = .error e) :
    ¬ ShapeError e := by
  unfold resolveValidation at h
  split at h
  · simp only [bind_error_iff, raiseIf_error_iff, pure_error_iff, and_false, exists_false,
      or_false] at h
    rw [← h.2]
    exact not_shapeError_of_content _ ": validation bytes mismatch" (by decide)
      (ending_self _ _)
  · rw [← Except.error.inj h]
    exact not_shapeError_of_content _ " places (expected exactly one)" (by decide)
      (ending_self _ _)

/-- What is raised for the exit of a rule that is due: about its shape unless
    there is no jump in the source. -/
theorem resolveExit_error (source : Bytes) (rule : PatchRule) (signature replacement : MaskedBytes)
    (o : Nat) (site : Int) (hexit : 0 ≤ rule.rel32Exit) :
    (∃ e, resolveExit source rule signature replacement o site = .error e ∧ ShapeError e) ↔
      ¬ (replacement.length = 5 ∧ replacement.values[0]? = some 0xe9 ∧
        rule.rel32Exit + 5 ≤ signature.length) := by
  simp only [resolveExit, bind_error_iff, raiseIf_error_iff, raiseIf_ok_iff, pure_error_iff,
    and_false, exists_false, or_false, exists_const]
  constructor
  · -- The last check is about the source.
    rintro ⟨e, ⟨hjump, -⟩ | ⟨-, ⟨hout, -⟩ | ⟨-, -, rfl⟩⟩, hshape⟩ ⟨hlen, hvalue, hin⟩
    · exact hjump.elim (fun h => h hlen) fun h => h hvalue
    · omega
    · exact not_shapeError_of_content _ ": rel32 exit is not an e9 jump" (by decide)
        (ending_self _ _) hshape
  · intro h
    by_cases hjump : replacement.length ≠ 5 ∨ replacement.values[0]? ≠ some 0xe9
    · exact ⟨_, .inl ⟨hjump, rfl⟩, .jump rule.name⟩
    · rw [not_or, not_not, not_not] at hjump
      have hout : ¬ rule.rel32Exit + 5 ≤ signature.length := fun hin => h ⟨hjump.1, hjump.2, hin⟩
      exact ⟨_, .inr ⟨not_or.mpr ⟨not_not.mpr hjump.1, not_not.mpr hjump.2⟩,
        .inl ⟨.inr (by omega), rfl⟩⟩, .exit rule.name⟩

theorem overlayPattern_of_fits (signature replacement : MaskedBytes) (patchOffset : Int)
    (preserveWildcards : Bool) (hoffset : 0 ≤ patchOffset)
    (hfit : patchOffset + replacement.length ≤ signature.length) :
    ∃ pattern, overlayPattern signature patchOffset replacement preserveWildcards = .ok pattern := by
  simp only [overlayPattern, bind_ok_iff, raiseIf_ok_iff, pure_ok_iff, exists_const]
  exact ⟨_, by omega, rfl⟩

/-- A replacement whose patterns fit, after the checks the loader has made. -/
theorem resolveReplacement_of_fits (source : Bytes) (rule : PatchRule)
    (signature expected replacement pattern : MaskedBytes) (hits : List Nat) (text : String)
    (hrep : parseMaskedHex text = .ok replacement) (hlen : replacement.length = expected.length)
    (hpattern : overlayPattern signature rule.patchOffset replacement (rule.rel32Exit = 0)
      = .ok pattern) (e : PyError) :
    (resolveReplacement source rule signature expected hits text = .error e ∧ ShapeError e) ↔
      ∃ o, hits = [o] ∧ findMasked source pattern = [] ∧
        matchesAt source (o + rule.patchOffset) expected = true ∧
        resolveBytes source rule signature replacement o (o + rule.patchOffset) = .error e ∧
        ShapeError e := by
  have hsame : ¬ (expected.length ≠ replacement.length) := not_not.mpr hlen.symm
  simp only [resolveReplacement, hrep, hpattern, ok_bind, raiseIf_of_not hsame]
  constructor
  · rintro ⟨he, hshape⟩
    split at he
    next o hpatched =>
      simp only [bind_error_iff, raiseIf_error_iff, raiseIf_ok_iff, pure_error_iff, and_false,
        exists_false, or_false, exists_const, Bool.not_eq_false] at he
      rcases he with ⟨-, rfl⟩ | ⟨hmatch, hbytes⟩
      · exact absurd hshape (not_shapeError_of_content _ ": expected instruction mismatch"
          (by decide) (ending_self _ _))
      · exact ⟨o, rfl, hpatched, hmatch, hbytes, hshape⟩
    next => exact absurd he (by simp only [pure_error_iff, not_false_eq_true])
    next =>
      rw [← Except.error.inj he] at hshape
      exact absurd hshape (not_shapeError_of_content _
        " places; refusing ambiguous or unknown input" (by decide)
        (ending_append _ _ _ (ending_self _ _)))
  · rintro ⟨o, rfl, hpatched, hmatch, hbytes, hshape⟩
    simp only [hpatched, hmatch, Bool.true_eq_false, raiseIf_of_not not_false, ok_bind, hbytes]
    exact ⟨rfl, hshape⟩

/-- A rule of an accepted document raises about its shape exactly if it is due
    and its exit does not fit. -/
theorem resolveRule_shape (source : Bytes) (rule : PatchRule) (hfits : rule.Fits) :
    (∃ e, resolveRule source rule = .error e ∧ ShapeError e) ↔
      ∃ signature replacement o, Due source rule signature replacement o ∧
        ¬ JumpShape rule signature replacement := by
  rcases hfits with ⟨hoffset, hexit, signature, expected, hsig, hexp, hfit, hreplacement⟩
  have hin : ¬ (rule.patchOffset + expected.length > signature.length) := by omega
  cases htext : rule.replacementHex with
  | none =>
      simp only [resolveRule, hsig, hexp, htext, ok_bind, raiseIf_of_not hin]
      constructor
      · rintro ⟨e, he, hshape⟩
        exact absurd hshape (resolveValidation_content source rule expected _ e he)
      · rintro ⟨_, _, _, hdue, -⟩
        rcases hdue.replacementHex with ⟨text, htext', -⟩
        rw [htext] at htext'
        exact absurd htext' (by simp only [reduceCtorEq, not_false_eq_true])
  | some text =>
      rcases hreplacement text htext with ⟨replacement, hrep, hlen⟩
      rcases overlayPattern_of_fits signature replacement rule.patchOffset (rule.rel32Exit = 0)
        hoffset (by omega) with ⟨pattern, hpattern⟩
      simp only [resolveRule, hsig, hexp, htext, ok_bind, raiseIf_of_not hin,
        resolveReplacement_of_fits source rule signature expected replacement pattern _ text hrep
          hlen hpattern]
      constructor
      · rintro ⟨e, o, horiginal, hpatched, hmatch, hbytes, hshape⟩
        refine ⟨signature, replacement, o, ⟨hsig, ⟨text, htext, hrep⟩, horiginal,
          ⟨pattern, hpattern, hpatched⟩, ⟨expected, hexp, hmatch⟩⟩, fun hjump => ?_⟩
        unfold resolveBytes at hbytes
        by_cases hzero : rule.rel32Exit = 0
        · rw [if_pos hzero] at hbytes
          exact absurd hbytes (by simp only [reduceCtorEq, not_false_eq_true])
        · rw [if_neg hzero] at hbytes
          exact (resolveExit_error source rule signature replacement o _ hexit).mp
            ⟨e, hbytes, hshape⟩ (hjump hzero)
      · rintro ⟨signature', replacement', o, hdue, hjump⟩
        rcases hdue with ⟨hsig', ⟨text', htext', hrep'⟩, horiginal, ⟨pattern', hpattern', hpatched⟩,
          expected', hexp', hmatch⟩
        rw [hsig, Except.ok.injEq] at hsig'
        rw [hexp, Except.ok.injEq] at hexp'
        rw [htext, Option.some.injEq] at htext'
        subst hsig' hexp' htext'
        rw [hrep, Except.ok.injEq] at hrep'
        subst hrep'
        rw [hpattern, Except.ok.injEq] at hpattern'
        subst hpattern'
        rw [JumpShape, Classical.not_imp] at hjump
        rcases (resolveExit_error source rule signature replacement o (o + rule.patchOffset)
          hexit).mpr hjump.2 with ⟨e, he, hshape⟩
        refine ⟨e, o, horiginal, hpatched, hmatch, ?_, hshape⟩
        rw [resolveBytes, if_neg hjump.1, he]

/-- The bytes of a rule that is due can be made exactly if its shape is right
    and there is a jump at its exit. -/
theorem resolveBytes_iff (source : Bytes) (rule : PatchRule) (signature replacement : MaskedBytes)
    (o : Nat) (site : Int) (hexit : 0 ≤ rule.rel32Exit) :
    (∃ bytes, resolveBytes source rule signature replacement o site = .ok bytes) ↔
      JumpShape rule signature replacement ∧
        (rule.rel32Exit ≠ 0 → source[(o + rule.rel32Exit).toNat]? = some 0xe9) := by
  unfold resolveBytes JumpShape
  by_cases hzero : rule.rel32Exit = 0
  · rw [if_pos hzero]
    exact ⟨fun _ => ⟨fun h => absurd hzero h, fun h => absurd hzero h⟩, fun _ => ⟨_, rfl⟩⟩
  · rw [if_neg hzero]
    simp only [resolveExit, bind_ok_iff, raiseIf_ok_iff, pure_ok_iff, exists_const, not_or,
      ne_eq, not_not, hzero, not_false_eq_true, true_imp_iff]
    constructor
    · rintro ⟨_, ⟨hlen, hvalue⟩, ⟨-, hin⟩, hjump, -⟩
      exact ⟨⟨hlen, hvalue, by omega⟩, hjump⟩
    · rintro ⟨⟨hlen, hvalue, hin⟩, hjump⟩
      exact ⟨_, ⟨hlen, hvalue⟩, ⟨by omega, by omega⟩, hjump, rfl⟩

/-- A rule resolves exactly if it is found. -/
theorem resolves_iff (source : Bytes) (rule : PatchRule) (hfits : rule.Fits) :
    (∃ r, resolveRule source rule = .ok r) ↔ Located source rule := by
  rcases hfits with ⟨hoffset, hexit, signature, expected, hsig, hexp, hfit, hreplacement⟩
  have hin : ¬ (rule.patchOffset + expected.length > signature.length) := by omega
  cases htext : rule.replacementHex with
  | none =>
      simp only [resolveRule, hsig, hexp, htext, ok_bind, raiseIf_of_not hin, resolveValidation_ok]
      constructor
      · rintro ⟨r, o, horiginal, hmatch, -⟩
        exact .validation signature expected o htext hsig hexp horiginal hmatch
      · rintro (⟨signature', expected', o, -, hsig', hexp', horiginal, hmatch⟩ |
          ⟨_, _, _, hdue, -, -⟩ | ⟨_, _, _, text, _, -, htext', -⟩)
        · rw [hsig, Except.ok.injEq] at hsig'
          rw [hexp, Except.ok.injEq] at hexp'
          subst hsig' hexp'
          exact ⟨_, o, horiginal, hmatch, rfl⟩
        · rcases hdue.replacementHex with ⟨text, htext', -⟩
          rw [htext] at htext'
          exact absurd htext' (by simp only [reduceCtorEq, not_false_eq_true])
        · rw [htext] at htext'
          exact absurd htext' (by simp only [reduceCtorEq, not_false_eq_true])
  | some text =>
      rcases hreplacement text htext with ⟨replacement, hrep, hlen⟩
      rcases overlayPattern_of_fits signature replacement rule.patchOffset (rule.rel32Exit = 0)
        hoffset (by omega) with ⟨pattern, hpattern⟩
      have hsame : ¬ (expected.length ≠ replacement.length) := not_not.mpr hlen.symm
      simp only [resolveRule, hsig, hexp, htext, ok_bind, raiseIf_of_not hin, resolveReplacement,
        hrep, hpattern, raiseIf_of_not hsame]
      constructor
      · rintro ⟨r, hr⟩
        split at hr
        next o horiginal hpatched =>
          simp only [bind_ok_iff, raiseIf_ok_iff, exists_const, Bool.not_eq_false] at hr
          rcases hr with ⟨hmatch, bytes, hbytes, -⟩
          rcases (resolveBytes_iff source rule signature replacement o _ hexit).mp
            ⟨bytes, hbytes⟩ with ⟨hshape, hjump⟩
          exact .patch signature replacement o ⟨hsig, ⟨text, htext, hrep⟩, horiginal,
            ⟨pattern, hpattern, hpatched⟩, ⟨expected, hexp, hmatch⟩⟩ hshape hjump
        next o horiginal hpatched =>
          exact .already signature replacement pattern text o hsig htext hrep hpattern horiginal
            hpatched
        next => exact absurd hr (by simp only [reduceCtorEq, not_false_eq_true])
      · rintro (⟨_, _, _, hnone, -⟩ | ⟨signature', replacement', o, hdue, hshape, hjump⟩ |
          ⟨signature', replacement', pattern', text', o, hsig', htext', hrep', hpattern',
            horiginal, hpatched⟩)
        · rw [htext] at hnone
          exact absurd hnone (by simp only [reduceCtorEq, not_false_eq_true])
        · rcases hdue with ⟨hsig', ⟨text', htext', hrep'⟩, horiginal,
            ⟨pattern', hpattern', hpatched⟩, expected', hexp', hmatch⟩
          rw [hsig, Except.ok.injEq] at hsig'
          rw [hexp, Except.ok.injEq] at hexp'
          rw [htext, Option.some.injEq] at htext'
          subst hsig' hexp' htext'
          rw [hrep, Except.ok.injEq] at hrep'
          subst hrep'
          rw [hpattern, Except.ok.injEq] at hpattern'
          subst hpattern'
          rcases (resolveBytes_iff source rule signature replacement o (o + rule.patchOffset)
            hexit).mpr ⟨hshape, hjump⟩ with ⟨bytes, hbytes⟩
          simp only [horiginal, hpatched, hmatch, Bool.true_eq_false,
            raiseIf_of_not not_false, ok_bind, hbytes]
          exact ⟨_, rfl⟩
        · rw [hsig, Except.ok.injEq] at hsig'
          rw [htext, Option.some.injEq] at htext'
          subst hsig' htext'
          rw [hrep, Except.ok.injEq] at hrep'
          subst hrep'
          rw [hpattern, Except.ok.injEq] at hpattern'
          subst hpattern'
          simp only [horiginal, hpatched]
          exact ⟨_, rfl⟩

/-! ### All rules of an artifact -/

theorem checkOverlaps_content (rs : List Resolved) (ranges : List (Int × Int)) (e : PyError)
    (h : checkOverlaps rs ranges = .error e) : ¬ ShapeError e := by
  induction rs generalizing ranges with
  | nil => exact absurd h (by simp only [checkOverlaps, reduceCtorEq, not_false_eq_true])
  | cons r rest ih =>
      rw [checkOverlaps] at h
      split at h
      · simp only [bind_error_iff, raiseIf_error_iff] at h
        rcases h with ⟨-, rfl⟩ | ⟨-, -, h⟩
        · exact not_shapeError_of_content _ ": patch overlaps another patch" (by decide)
            (ending_self _ _)
        · exact ih _ h
      · exact ih _ h

/-- After a rule has been resolved its verification raises an assertion only. -/
theorem verifyRule_content (source final : Bytes) (rule : PatchRule) (r : Resolved)
    (hr : resolveRule source rule = .ok r) (e : PyError) (h : verifyRule final rule = .error e) :
    ¬ ShapeError e := by
  have hassert : ∃ message, e = .assertionError message := by
    rcases resolveRule_cases source rule r hr with ⟨signature, expected, hsig, -, -, hcase⟩
    rcases hcase with ⟨_, hnone, -⟩ | ⟨text, replacement, pattern, htext, hrep, -, hpattern, -⟩
    · simp only [verifyRule, hsig, hnone, ok_bind, raiseIf_error_iff] at h
      exact ⟨_, h.2.symm⟩
    · simp only [verifyRule, hsig, htext, hrep, hpattern, ok_bind, bind_error_iff,
        raiseIf_error_iff] at h
      rcases h with ⟨-, rfl⟩ | ⟨-, -, -, rfl⟩
      · exact ⟨_, rfl⟩
      · exact ⟨_, rfl⟩
  rcases hassert with ⟨message, rfl⟩
  intro hshape
  rcases hshape.ending with ⟨_, heq, -⟩
  exact absurd heq (by simp only [reduceCtorEq, not_false_eq_true])

/-- The only errors about a shape come from resolving a rule. -/
theorem applyRules_shape_of_resolve (source : Bytes) (rules : List PatchRule)
    (hids : (rules.map PatchRule.artifactId).dedup.length ≤ 1) (e : PyError)
    (hshape : ShapeError e) :
    applyRules source rules = .error e ↔ rules.mapM (resolveRule source) = .error e := by
  have hone : ¬ ((rules.map PatchRule.artifactId).dedup.length > 1) := by omega
  simp only [applyRules, raiseIf_of_not hone, ok_bind, bind_error_iff, pure_error_iff, and_false,
    exists_false, or_false]
  constructor
  · rintro (h | ⟨resolved, hres, h | ⟨_, hover, h | ⟨final, -, h⟩⟩⟩)
    · exact h
    · exact absurd hshape (checkOverlaps_content _ _ e h)
    · -- Resolved rules that are apart are performed.
      have hfit := resolved_fits source rules resolved hres
      have hrun := foldlM_writeOne source resolved [] hfit (by
        rw [List.nil_append]
        exact writes_apart source resolved hfit hover)
      have hstart : decide (overlays source [] ≠ source) = false :=
        decide_eq_false (not_not.mpr rfl)
      rw [hstart, show (overlays source [], false) = (source, false) from rfl, h] at hrun
      exact absurd hrun (by simp only [reduceCtorEq, not_false_eq_true])
    · rcases forM_error _ _ _ h with ⟨rule, hrule, hverify⟩
      rcases mapM_ok_of_mem _ _ _ hres rule hrule with ⟨r, -, hr⟩
      exact absurd hshape (verifyRule_content source final.1 rule r hr e hverify)
  · exact .inl

theorem rulesOf_artifactIds (patches : List PatchRule) (artifactId : String) :
    ((rulesOf patches artifactId).map PatchRule.artifactId).dedup.length ≤ 1 := by
  have hall : ∀ id ∈ ((rulesOf patches artifactId).map PatchRule.artifactId).dedup,
      id = artifactId := by
    intro id hid
    rcases List.mem_map.mp (List.mem_dedup.mp hid) with ⟨rule, hrule, rfl⟩
    exact of_decide_eq_true (List.mem_filter.mp hrule).2
  have hnodup := List.nodup_dedup ((rulesOf patches artifactId).map PatchRule.artifactId)
  rw [List.eq_replicate_of_mem hall] at hnodup
  exact List.nodup_replicate.mp hnodup

/-- The engine raises nothing about the shape of a rule of an accepted
    document exactly if the rules with an exit that are due fit. -/
theorem applyRules_shape_iff (document : Json) (artifacts : List Artifact)
    (patches : List PatchRule) (h : loadCatalog document = .ok (artifacts, patches))
    (artifactId : String) (source : Bytes) :
    (∀ e, applyRules source (rulesOf patches artifactId) = .error e → ¬ ShapeError e) ↔
      JumpsFit source (rulesOf patches artifactId) := by
  have hfits : ∀ rule ∈ rulesOf patches artifactId, rule.Fits := fun rule hrule =>
    loadCatalog_fits document artifacts patches h rule (List.mem_filter.mp hrule).1
  have hids := rulesOf_artifactIds patches artifactId
  generalize rulesOf patches artifactId = rules at hfits hids
  constructor
  · intro hall before rule after heq hbefore signature replacement o hdue
    by_contra hshape
    have hmem : rule ∈ rules := by
      rw [heq]
      exact List.mem_append_right _ List.mem_cons_self
    rcases (resolveRule_shape source rule (hfits rule hmem)).mpr
      ⟨signature, replacement, o, hdue, hshape⟩ with ⟨e, he, hbad⟩
    refine hall e ?_ hbad
    rw [applyRules_shape_of_resolve source rules hids e hbad, mapM_error_iff]
    refine ⟨before, rule, after, heq, fun earlier hearlier => ?_, he⟩
    refine (resolves_iff source earlier (hfits earlier ?_)).mpr (hbefore earlier hearlier)
    rw [heq]
    exact List.mem_append_left _ hearlier
  · intro hjumps e he hbad
    rw [applyRules_shape_of_resolve source rules hids e hbad, mapM_error_iff] at he
    rcases he with ⟨before, rule, after, heq, hbefore, he⟩
    have hmem : ∀ earlier ∈ before, earlier ∈ rules := by
      rw [heq]
      exact fun earlier hearlier => List.mem_append_left _ hearlier
    rcases (resolveRule_shape source rule (hfits rule (by
      rw [heq]
      exact List.mem_append_right _ List.mem_cons_self))).mp ⟨e, he, hbad⟩ with
      ⟨signature, replacement, o, hdue, hshape⟩
    refine hshape (hjumps before rule after heq (fun earlier hearlier => ?_) signature replacement
      o hdue)
    exact (resolves_iff source earlier (hfits earlier (hmem earlier hearlier))).mp
      (hbefore earlier hearlier)

/-- A document with one artifact and one rule, which has an exit. -/
def exitCatalog (signatureHex expectedHex replacementHex : String) (rel32Exit : Int) : Json :=
  .object
    [("catalog_version", .int 1),
     ("artifacts", .array [.object
       [("artifact_id", .string "ko"), ("description", .string "module"),
        ("handler", .string "raw")]]),
     ("patches", .array [.object
       [("artifact_id", .string "ko"), ("name", .string "skip"),
        ("signature_hex", .string signatureHex), ("patch_offset", .int 0),
        ("expected_hex", .string expectedHex), ("replacement_hex", .string replacementHex),
        ("description", .string "skip a check"), ("rel32_exit", .int rel32Exit)]])]

/-- A document whose exit fits: its jump is moved and nothing is raised. -/
theorem applyRules_shape_fits :
    JumpsFit [0x90, 0x90, 0x90, 0x90, 0x90, 0xe9, 0x02, 0x00, 0x00, 0x00]
      (rulesOf [⟨"ko", "skip", "90 90 90 90 90 e9 ?? ?? ?? ??", 0, "90 90 90 90 90",
        some "e9 ?? ?? ?? ??", "skip a check", 5⟩] "ko") :=
  (applyRules_shape_iff
    (exitCatalog "90 90 90 90 90 e9 ?? ?? ?? ??" "90 90 90 90 90" "e9 ?? ?? ?? ??" 5)
    [⟨"ko", "module", "raw"⟩] _ (by decide) "ko" _).mp (by
      have hok : applyRules [0x90, 0x90, 0x90, 0x90, 0x90, 0xe9, 0x02, 0x00, 0x00, 0x00]
          (rulesOf [⟨"ko", "skip", "90 90 90 90 90 e9 ?? ?? ?? ??", 0, "90 90 90 90 90",
            some "e9 ?? ?? ?? ??", "skip a check", 5⟩] "ko")
          = .ok ([0xe9, 0x07, 0x00, 0x00, 0x00, 0xe9, 0x02, 0x00, 0x00, 0x00], true) := by decide
      intro e he
      rw [hok] at he
      exact absurd he (by simp only [reduceCtorEq, not_false_eq_true]))

/-- A document whose only rule has an exit and a replacement of one byte: it
    loads, and the engine raises about the rule. -/
theorem loadCatalog_misses_jump :
    loadCatalog (exitCatalog "aa bb" "aa" "90" 1)
      = .ok ([⟨"ko", "module", "raw"⟩],
          [⟨"ko", "skip", "aa bb", 0, "aa", some "90", "skip a check", 1⟩]) ∧
    applyRules [0xaa, 0xbb]
        (rulesOf [⟨"ko", "skip", "aa bb", 0, "aa", some "90", "skip a check", 1⟩] "ko")
      = .error (.valueError "skip: rel32 patch must be a five-byte e9 jump") ∧
    ShapeError (.valueError "skip: rel32 patch must be a five-byte e9 jump") :=
  ⟨by decide, by decide, .jump "skip"⟩

end Zd1200
