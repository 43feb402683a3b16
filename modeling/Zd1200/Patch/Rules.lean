import Mathlib.Data.List.Dedup
import Mathlib.Data.List.Sort
import Zd1200.Lib.LittleEndian
import Zd1200.Patch.Pattern

/-!
# Patch Rules

The engine of `patch_binary_artifact.py`: `applyRules` takes a binary and the
rules of one artifact and returns the patched binary.

It works in four passes. Every rule is resolved against the pristine source
first, so no rule sees another one's bytes; the resolved writes are checked
for overlaps; they are performed one after another on one buffer; and the
result is searched again, for exactly one patched signature per replacement
and exactly one signature per validation pattern.

A rule resolves in one of three ways. A rule without a replacement only
validates. A rule whose signature matches once, with its patched signature
nowhere, is to be patched; a rule the other way round is already patched and
writes nothing. Anything else is refused.

A rule with a non-zero `rel32_exit` replaces five bytes by a jump to wherever
the jump at that exit goes. Its displacement is computed from the source, and
the rule's own replacement bytes only have to begin with the opcode.

The messages the engine reports while it works are not modelled, only the
ones it raises. `Patches` is the engine's purpose for one rule, stated without
the engine: the unpatched signature matches, and these bytes are to go there.
`resolveRule_cases` says what resolution can do and that it finds just that.

## Main definitions

* `PatchRule`: One rule of the catalog.
* `Resolved`: A rule located in the source.
* `rel32Jump`: A jump to the target of another jump.
* `resolveRule`: Locate a rule in the source.
* `checkOverlaps`: Refuse two writes that meet.
* `writeOne`: Perform one resolved rule.
* `verifyRule`: Search the result again.
* `applyRules`: The whole engine.
* `Patches`: What a rule is to write, read off the source.
* `Resolved.write`: The masked write of a resolved rule.

## Theorems

* `resolveRule_cases`: The three ways in which a rule resolves.
* `resolved_of_patches`: A rule that patches is resolved to its write.
* `checkOverlaps_ok`: The writes that pass are pairwise apart.
* `writeOne_eq`: Performing a rule is performing its masked write.
-/

namespace Zd1200

/-- One rule of the catalog. No `replacementHex` makes it a validation. -/
structure PatchRule where
  artifactId : String
  name : String
  signatureHex : String
  patchOffset : Int
  expectedHex : String
  replacementHex : Option String
  description : String
  rel32Exit : Int
  deriving DecidableEq, Repr

/-- How a rule was resolved. -/
inductive ResolvedState
  | validated
  | patch
  | already
  deriving DecidableEq, Repr

/-- A rule located in the source. -/
structure Resolved where
  rule : PatchRule
  matchOffset : Nat
  expected : MaskedBytes
  replacement : Option MaskedBytes
  state : ResolvedState

/-- Where the rule's replacement goes. -/
def Resolved.site (r : Resolved) : Int := r.matchOffset + r.rule.patchOffset

/-- A five byte jump at `site` to the target of the jump at `exitSite`. -/
def rel32Jump (source : Bytes) (site exitSite : Int) : MaskedBytes :=
  -- The displacement counts from the end of the jump.
  let exitDisp := signed32 (leNat (slice source (exitSite + 1) (exitSite + 5)))
  let target := exitSite + 5 + exitDisp
  let newDisp := (target - (site + 5)) % 2 ^ 32
  ⟨0xe9 :: leBytes 4 newDisp.toNat, List.replicate 5 true, rfl⟩

/-- The replacement of a rule with an exit. -/
def resolveExit (source : Bytes) (rule : PatchRule) (signature replacement : MaskedBytes)
    (matchOffset : Nat) (site : Int) : Except PyError MaskedBytes := do
  let name := rule.name
  raiseIf (replacement.length ≠ 5 ∨ replacement.values[0]? ≠ some 0xe9)
    (.valueError s!"{name}: rel32 patch must be a five-byte e9 jump")
  let exitSite := matchOffset + rule.rel32Exit
  let signatureEnd : Int := matchOffset + signature.length
  raiseIf (exitSite < matchOffset ∨ exitSite + 5 > signatureEnd)
    (.valueError s!"{name}: rel32 exit lies outside signature")
  raiseIf (source[exitSite.toNat]? ≠ some 0xe9)
    (.valueError s!"{name}: rel32 exit is not an e9 jump")
  return rel32Jump source site exitSite

/-- The bytes a matching rule writes: the jump if it has an exit. -/
def resolveBytes (source : Bytes) (rule : PatchRule) (signature replacement : MaskedBytes)
    (matchOffset : Nat) (site : Int) : Except PyError MaskedBytes :=
  if rule.rel32Exit = 0 then .ok replacement
  else resolveExit source rule signature replacement matchOffset site

/-- A rule without a replacement: its signature has to match once, and the
    expected bytes have to stand there. -/
def resolveValidation (source : Bytes) (rule : PatchRule) (expected : MaskedBytes)
    (originalHits : List Nat) : Except PyError Resolved :=
  let name := rule.name
  match originalHits with
  | [matchOffset] => do
      let site := matchOffset + rule.patchOffset
      raiseIf (matchesAt source site expected = false)
        (.valueError s!"{name}: validation bytes mismatch")
      return ⟨rule, matchOffset, expected, none, .validated⟩
  | hits =>
      let count := hits.length
      .error (.valueError
        s!"{name}: validation pattern matched {count} places (expected exactly one)")

/-- A rule with a replacement: either its signature matches once, or its
    patched signature does. -/
def resolveReplacement (source : Bytes) (rule : PatchRule) (signature expected : MaskedBytes)
    (originalHits : List Nat) (replacementHex : String) : Except PyError Resolved := do
  let name := rule.name
  let replacement ← parseMaskedHex replacementHex
  raiseIf (expected.length ≠ replacement.length)
    (.valueError s!"{name}: expected/replacement length mismatch")
  let patchedSignature ← overlayPattern signature rule.patchOffset replacement (rule.rel32Exit = 0)
  let patchedHits := findMasked source patchedSignature
  match originalHits, patchedHits with
  | [matchOffset], [] => do
      let site := matchOffset + rule.patchOffset
      raiseIf (matchesAt source site expected = false)
        (.valueError s!"{name}: expected instruction mismatch")
      let bytes ← resolveBytes source rule signature replacement matchOffset site
      return ⟨rule, matchOffset, expected, some bytes, .patch⟩
  | [], [matchOffset] => return ⟨rule, matchOffset, expected, some replacement, .already⟩
  | _, _ =>
      let originals := originalHits.length
      let patched := patchedHits.length
      .error (.valueError (s!"{name}: original signature matched {originals} places and " ++
        s!"patched signature matched {patched} places; refusing ambiguous or unknown input"))

/-- Locate a rule in the pristine source. -/
def resolveRule (source : Bytes) (rule : PatchRule) : Except PyError Resolved := do
  let name := rule.name
  let signature ← parseMaskedHex rule.signatureHex
  let expected ← parseMaskedHex rule.expectedHex
  raiseIf (rule.patchOffset + expected.length > signature.length)
    (.valueError s!"{name}: expected bytes lie outside signature")
  let originalHits := findMasked source signature
  match rule.replacementHex with
  | none => resolveValidation source rule expected originalHits
  | some replacementHex =>
      resolveReplacement source rule signature expected originalHits replacementHex

/-- Refuse a write that meets one of the ranges collected so far. -/
def checkOverlaps : List Resolved → List (Int × Int) → Except PyError Unit
  | [], _ => .ok ()
  | r :: rest, ranges =>
      match r.replacement, r.state with
      | some replacement, .patch => do
          let name := r.rule.name
          let start := r.site
          let stop := start + replacement.length
          raiseIf (∃ other ∈ ranges, start < other.2 ∧ other.1 < stop)
            (.valueError s!"{name}: patch overlaps another patch")
          checkOverlaps rest (ranges ++ [(start, stop)])
      | _, _ => checkOverlaps rest ranges

/-- Perform one resolved rule on the buffer and the changed flag. -/
def writeOne (buffer : Bytes × Bool) (r : Resolved) : Except PyError (Bytes × Bool) :=
  match r.replacement with
  | none => .ok buffer
  | some replacement =>
      if r.state = .already then .ok buffer
      else do
        let site := r.site
        let old := slice buffer.1 site (site + replacement.length)
        let new ← renderReplacement old replacement
        return (setSlice buffer.1 site (site + new.length) new, buffer.2 || old != new)

/-- Search the result: one patched and no original signature for a
    replacement, one signature for a validation. -/
def verifyRule (final : Bytes) (rule : PatchRule) : Except PyError Unit := do
  let name := rule.name
  let signature ← parseMaskedHex rule.signatureHex
  match rule.replacementHex with
  | none =>
      raiseIf ((findMasked final signature).length ≠ 1)
        (.assertionError s!"{name}: validation signature lost")
  | some replacementHex => do
      let replacement ← parseMaskedHex replacementHex
      let patchedSignature ←
        overlayPattern signature rule.patchOffset replacement (rule.rel32Exit = 0)
      raiseIf (findMasked final signature ≠ [])
        (.assertionError s!"{name}: original signature remains")
      raiseIf ((findMasked final patchedSignature).length ≠ 1)
        (.assertionError s!"{name}: patched signature not unique")

/-- The patched binary, and whether a byte was changed. -/
def applyRules (source : Bytes) (rules : List PatchRule) : Except PyError (Bytes × Bool) := do
  let artifactIds := (rules.map PatchRule.artifactId).dedup
  raiseIf (artifactIds.length > 1)
    (.valueError ("apply_rules received patches for multiple artifacts: " ++
      ", ".intercalate (artifactIds.insertionSort (· ≤ ·))))
  let resolved ← rules.mapM (resolveRule source)
  checkOverlaps resolved []
  let final ← resolved.foldlM writeOne (source, false)
  rules.forM (verifyRule final.1)
  return final

/-- What a rule is to write, read off the source: its unpatched signature
    matches at `o`, and `bytes` are its replacement, or the recomputed jump
    where the rule has an exit. -/
def Patches (source : Bytes) (rule : PatchRule) (o : Nat) (bytes : MaskedBytes) : Prop :=
  ∃ signature text replacement,
    parseMaskedHex rule.signatureHex = .ok signature ∧
    rule.replacementHex = some text ∧ parseMaskedHex text = .ok replacement ∧
    matchesAt source o signature = true ∧
    bytes = if rule.rel32Exit = 0 then replacement
      else rel32Jump source (o + rule.patchOffset) (o + rule.rel32Exit)

/-- The masked write of a resolved rule, if it writes. -/
def Resolved.write (r : Resolved) : Option (MaskedWrite UInt8) :=
  match r.replacement, r.state with
  | some replacement, .patch => some ⟨r.site.toNat, replacement.cells⟩
  | _, _ => none

theorem overlayPattern_ok (signature replacement : MaskedBytes) (patchOffset : Int)
    (preserveWildcards : Bool) (p : MaskedBytes)
    (h : overlayPattern signature patchOffset replacement preserveWildcards = .ok p) :
    0 ≤ patchOffset ∧ patchOffset + replacement.length ≤ signature.length := by
  simp only [overlayPattern, bind_ok_iff, raiseIf_ok_iff, exists_const] at h
  omega

theorem resolveValidation_ok (source : Bytes) (rule : PatchRule) (expected : MaskedBytes)
    (hits : List Nat) (r : Resolved) :
    resolveValidation source rule expected hits = .ok r ↔
      ∃ o, hits = [o] ∧ matchesAt source (o + rule.patchOffset) expected = true ∧
        r = ⟨rule, o, expected, none, .validated⟩ := by
  constructor
  · intro h
    rcases hits with _ | ⟨o, _ | ⟨o', rest⟩⟩
    · exact absurd h (by simp only [resolveValidation, reduceCtorEq, not_false_eq_true])
    · simp only [resolveValidation, bind_ok_iff, raiseIf_ok_iff, exists_const, pure_ok_iff,
        Bool.not_eq_false] at h
      exact ⟨o, rfl, h.1, h.2.symm⟩
    · exact absurd h (by simp only [resolveValidation, reduceCtorEq, not_false_eq_true])
  · rintro ⟨o, rfl, hm, rfl⟩
    simp only [resolveValidation, bind_ok_iff, raiseIf_ok_iff, exists_const, pure_ok_iff, hm,
      Bool.true_eq_false, not_false_eq_true, and_self]

theorem length_rel32Jump (source : Bytes) (site exitSite : Int) :
    (rel32Jump source site exitSite).length = 5 := by
  simp only [rel32Jump, MaskedBytes.length, List.length_cons, length_leBytes]

/-- The bytes to write are as many as the rule's replacement has. -/
theorem resolveBytes_ok (source : Bytes) (rule : PatchRule) (signature replacement : MaskedBytes)
    (o : Nat) (site : Int) (bytes : MaskedBytes)
    (h : resolveBytes source rule signature replacement o site = .ok bytes) :
    (bytes = if rule.rel32Exit = 0 then replacement
      else rel32Jump source site (o + rule.rel32Exit)) ∧ bytes.length = replacement.length := by
  unfold resolveBytes at h
  by_cases hexit : rule.rel32Exit = 0
  · rw [if_pos hexit, Except.ok.injEq] at h
    rw [if_pos hexit, h]
    exact ⟨rfl, rfl⟩
  · rw [if_neg hexit] at h ⊢
    simp only [resolveExit, bind_ok_iff, raiseIf_ok_iff, exists_const, pure_ok_iff, not_or,
      ne_eq, not_not] at h
    rcases h with ⟨⟨hlen, -⟩, -, -, rfl⟩
    rw [length_rel32Jump, hlen]
    exact ⟨rfl, rfl⟩

/-- The two ways in which a rule with a replacement resolves. -/
theorem resolveReplacement_ok (source : Bytes) (rule : PatchRule)
    (signature expected : MaskedBytes) (hits : List Nat) (text : String) (r : Resolved)
    (h : resolveReplacement source rule signature expected hits text = .ok r) :
    ∃ replacement patched, parseMaskedHex text = .ok replacement ∧
      expected.length = replacement.length ∧
      overlayPattern signature rule.patchOffset replacement (rule.rel32Exit = 0) = .ok patched ∧
      ((∃ o bytes, hits = [o] ∧ findMasked source patched = [] ∧
          bytes.length = replacement.length ∧
          (bytes = if rule.rel32Exit = 0 then replacement
            else rel32Jump source (o + rule.patchOffset) (o + rule.rel32Exit)) ∧
          r = ⟨rule, o, expected, some bytes, .patch⟩) ∨
        (∃ o, hits = [] ∧ findMasked source patched = [o] ∧
          r = ⟨rule, o, expected, some replacement, .already⟩)) := by
  simp only [resolveReplacement, bind_ok_iff, raiseIf_ok_iff, exists_const] at h
  rcases h with ⟨replacement, hparse, hlen, patched, hover, h⟩
  refine ⟨replacement, patched, hparse, not_not.mp hlen, hover, ?_⟩
  split at h
  next o hhits =>
    -- The signature matches and its patched form does not.
    left
    simp only [bind_ok_iff, raiseIf_ok_iff, exists_const, pure_ok_iff] at h
    rcases h with ⟨-, bytes, hbytes, rfl⟩
    rcases resolveBytes_ok _ _ _ _ _ _ _ hbytes with ⟨heq, hlen⟩
    exact ⟨o, bytes, rfl, hhits, hlen, heq, rfl⟩
  next o hhits =>
    right
    rw [pure_ok_iff] at h
    exact ⟨o, rfl, hhits, h.symm⟩
  next => exact absurd h (by simp only [reduceCtorEq, not_false_eq_true])

/-- The ways in which a rule resolves, with everything that was checked. -/
theorem resolveRule_cases (source : Bytes) (rule : PatchRule) (r : Resolved)
    (h : resolveRule source rule = .ok r) :
    ∃ signature expected, parseMaskedHex rule.signatureHex = .ok signature ∧
      parseMaskedHex rule.expectedHex = .ok expected ∧
      rule.patchOffset + expected.length ≤ signature.length ∧
      ((∃ o, rule.replacementHex = none ∧ findMasked source signature = [o] ∧
          matchesAt source (o + rule.patchOffset) expected = true ∧
          r = ⟨rule, o, expected, none, .validated⟩) ∨
        (∃ text replacement patched, rule.replacementHex = some text ∧
          parseMaskedHex text = .ok replacement ∧ expected.length = replacement.length ∧
          overlayPattern signature rule.patchOffset replacement (rule.rel32Exit = 0)
            = .ok patched ∧
          ((∃ o bytes, findMasked source signature = [o] ∧ findMasked source patched = [] ∧
              bytes.length = replacement.length ∧
              (bytes = if rule.rel32Exit = 0 then replacement
                else rel32Jump source (o + rule.patchOffset) (o + rule.rel32Exit)) ∧
              r = ⟨rule, o, expected, some bytes, .patch⟩) ∨
            (∃ o, findMasked source signature = [] ∧ findMasked source patched = [o] ∧
              r = ⟨rule, o, expected, some replacement, .already⟩)))) := by
  simp only [resolveRule, bind_ok_iff, raiseIf_ok_iff, exists_const] at h
  rcases h with ⟨signature, hsig, expected, hexp, hfit, h⟩
  refine ⟨signature, expected, hsig, hexp, by omega, ?_⟩
  cases hrep : rule.replacementHex with
  | none =>
      rw [hrep] at h
      rcases (resolveValidation_ok _ _ _ _ _).mp h with ⟨o, hhits, hm, rfl⟩
      exact Or.inl ⟨o, rfl, hhits, hm, rfl⟩
  | some text =>
      rw [hrep] at h
      rcases resolveReplacement_ok _ _ _ _ _ _ _ h with
        ⟨replacement, patched, hparse, hlen, hover, hcase⟩
      exact Or.inr ⟨text, replacement, patched, rfl, hparse, hlen, hover, hcase⟩

theorem resolveRule_rule (source : Bytes) (rule : PatchRule) (r : Resolved)
    (h : resolveRule source rule = .ok r) : r.rule = rule := by
  rcases resolveRule_cases source rule r h with
    ⟨_, _, _, _, _, ⟨_, _, _, _, rfl⟩ |
      ⟨_, _, _, _, _, _, _, ⟨_, _, _, _, _, _, rfl⟩ | ⟨_, _, _, rfl⟩⟩⟩
  all_goals rfl

theorem Resolved.write_eq_some_iff (r : Resolved) (w : MaskedWrite UInt8) :
    r.write = some w ↔ ∃ bytes, r.replacement = some bytes ∧ r.state = .patch ∧
      w = ⟨r.site.toNat, bytes.cells⟩ := by
  rcases r with ⟨rule, o, expected, replacement, state⟩
  cases replacement with
  | none => simp only [write, reduceCtorEq, false_and, exists_false]
  | some bytes =>
      cases state with
      | validated => simp only [write, reduceCtorEq, false_and, and_false, exists_false]
      | already => simp only [write, reduceCtorEq, false_and, and_false, exists_false]
      | patch =>
          simp only [write, Option.some.injEq, true_and, exists_eq_left']
          exact eq_comm

/-- The bytes of a resolved rule that writes, inside the source. -/
def Resolved.Fits (source : Bytes) (r : Resolved) : Prop :=
  (r.replacement ≠ none → r.state = .patch ∨ r.state = .already) ∧
    ∀ bytes, r.replacement = some bytes → r.state = .patch →
      0 ≤ r.site ∧ r.site.toNat + bytes.length ≤ source.length

theorem resolveRule_fits (source : Bytes) (rule : PatchRule) (r : Resolved)
    (h : resolveRule source rule = .ok r) : r.Fits source := by
  rcases resolveRule_cases source rule r h with ⟨signature, expected, -, -, -, hcase⟩
  rcases hcase with ⟨o, -, -, -, rfl⟩ | ⟨text, replacement, patched, -, -, -, hover, hcase⟩
  · exact ⟨fun hne => absurd rfl hne, fun bytes hb => absurd hb (by
      simp only [reduceCtorEq, not_false_eq_true])⟩
  · rcases hcase with ⟨o, bytes, hhits, -, hlen, -, rfl⟩ | ⟨o, -, -, rfl⟩
    · -- The signature fits at the match and the replacement fits in it.
      have hmatch := (mem_findMasked source signature o).mp (hhits ▸ List.mem_singleton_self o)
      have hin := ((matchesAt_iff source o signature).mp hmatch).1
      have hoff := overlayPattern_ok _ _ _ _ _ hover
      refine ⟨fun _ => Or.inl rfl, fun bytes' hb _ => ?_⟩
      simp only [Option.some.injEq] at hb
      subst hb
      simp only [Resolved.site]
      omega
    · exact ⟨fun _ => Or.inr rfl, fun bytes hb hs => absurd hs (by
        simp only [reduceCtorEq, not_false_eq_true])⟩

/-- A rule that patches is resolved to just that write. -/
theorem resolved_of_patches (source : Bytes) (rule : PatchRule) (r : Resolved)
    (h : resolveRule source rule = .ok r) (o : Nat) (bytes : MaskedBytes)
    (hp : Patches source rule o bytes) :
    r.matchOffset = o ∧ r.replacement = some bytes ∧ r.state = .patch := by
  rcases hp with ⟨signature, text, replacement, hsig, htext, hrep, hmatch, hbytes⟩
  have hhit := (mem_findMasked source signature o).mpr hmatch
  rcases resolveRule_cases source rule r h with ⟨signature', expected, hsig', -, -, hcase⟩
  rw [hsig, Except.ok.injEq] at hsig'
  subst hsig'
  rcases hcase with ⟨_, hnone, -⟩ | ⟨text', replacement', patched, htext', hrep', -, -, hcase⟩
  · rw [htext] at hnone
    exact absurd hnone (by simp only [reduceCtorEq, not_false_eq_true])
  · rw [htext, Option.some.injEq] at htext'
    subst htext'
    rw [hrep, Except.ok.injEq] at hrep'
    subst hrep'
    -- The signature matches, so the rule was not patched before.
    rcases hcase with ⟨o', bytes', hhits, -, -, hbytes', rfl⟩ | ⟨o', hhits, -, rfl⟩
    · rw [hhits, List.mem_singleton] at hhit
      subst hhit
      exact ⟨rfl, by rw [hbytes, hbytes'], rfl⟩
    · rw [hhits] at hhit
      exact absurd hhit List.not_mem_nil

/-- A rule resolved to a write patches. -/
theorem patches_of_resolved (source : Bytes) (rule : PatchRule) (r : Resolved)
    (h : resolveRule source rule = .ok r) (bytes : MaskedBytes)
    (hb : r.replacement = some bytes) (hs : r.state = .patch) :
    Patches source rule r.matchOffset bytes := by
  rcases resolveRule_cases source rule r h with ⟨signature, expected, hsig, -, -, hcase⟩
  rcases hcase with ⟨o, -, -, -, rfl⟩ | ⟨text, replacement, patched, htext, hrep, -, -, hcase⟩
  · exact absurd hs (by simp only [reduceCtorEq, not_false_eq_true])
  · rcases hcase with ⟨o, bytes', hhits, -, -, hbytes, rfl⟩ | ⟨o, -, -, rfl⟩
    · simp only [Option.some.injEq] at hb
      subst hb
      exact ⟨signature, text, replacement, hsig, htext, hrep,
        (mem_findMasked source signature o).mp (hhits ▸ List.mem_singleton_self o), hbytes⟩
    · exact absurd hs (by simp only [reduceCtorEq, not_false_eq_true])

/-! ### Performing the resolved rules -/

/-- The half-open range a resolved rule writes, if it writes. -/
def Resolved.range (r : Resolved) : Option (Int × Int) :=
  match r.replacement, r.state with
  | some replacement, .patch => some (r.site, r.site + replacement.length)
  | _, _ => none

/-- The ranges do not meet. -/
def RangesApart (x y : Int × Int) : Prop := ¬ (x.1 < y.2 ∧ y.1 < x.2)

theorem RangesApart.symm {x y : Int × Int} (h : RangesApart x y) : RangesApart y x :=
  fun hc => h ⟨hc.2, hc.1⟩

theorem checkOverlaps_iff (rs : List Resolved) (ranges : List (Int × Int)) :
    checkOverlaps rs ranges = .ok () ↔
      (rs.filterMap Resolved.range).Pairwise RangesApart ∧
        ∀ x ∈ rs.filterMap Resolved.range, ∀ y ∈ ranges, RangesApart x y := by
  induction rs generalizing ranges with
  | nil => simp only [checkOverlaps, List.filterMap_nil, List.Pairwise.nil, List.not_mem_nil,
      false_implies, implies_true, and_self]
  | cons r rest ih =>
      rw [checkOverlaps]
      split
      next replacement hrep hstate =>
        have hrange : r.range = some (r.site, r.site + replacement.length) := by
          rw [Resolved.range, hrep, hstate]
        rw [List.filterMap_cons_some hrange, List.pairwise_cons, List.forall_mem_cons]
        simp only [bind_ok_iff, raiseIf_ok_iff, exists_const, ih, not_exists, not_and]
        constructor
        · rintro ⟨hhere, hpair, hrest⟩
          -- The range of the first rule is among those the others are checked against.
          refine ⟨⟨fun x hx => (hrest x hx _ ?_).symm, hpair⟩, fun y hy hc => ?_, fun x hx y hy => ?_⟩
          · exact List.mem_append_right _ (List.mem_singleton_self _)
          · exact hhere y hy hc.1 hc.2
          · exact hrest x hx y (List.mem_append_left _ hy)
        · rintro ⟨⟨hhead, hpair⟩, hhere, hrest⟩
          refine ⟨fun y hy h1 h2 => hhere y hy ⟨h1, h2⟩, hpair, fun x hx y hy => ?_⟩
          rcases List.mem_append.mp hy with hy | hy
          · exact hrest x hx y hy
          · rw [List.mem_singleton] at hy
            subst hy
            exact (hhead x hx).symm
      next hother =>
        have hrange : r.range = none := by
          rw [Resolved.range]
          split
          next replacement hrep hstate => exact absurd hstate (hother replacement hrep)
          next => rfl
        rw [List.filterMap_cons_none hrange]
        exact ih ranges

/-- Ranges apart make writes apart. -/
theorem Resolved.apart_of_range (source : Bytes) (r r' : Resolved) (hr : r.Fits source)
    (hr' : r'.Fits source) (w w' : MaskedWrite UInt8) (hw : r.write = some w)
    (hw' : r'.write = some w')
    (h : ∀ x ∈ r.range, ∀ x' ∈ r'.range, RangesApart x x') : w.Apart w' := by
  rcases (r.write_eq_some_iff w).mp hw with ⟨bytes, hb, hs, rfl⟩
  rcases (r'.write_eq_some_iff w').mp hw' with ⟨bytes', hb', hs', rfl⟩
  have h1 := hr.2 bytes hb hs
  have h2 := hr'.2 bytes' hb' hs'
  have hapart := h (r.site, r.site + bytes.length) (by
    rw [Resolved.range, hb, hs]
    rfl) (r'.site, r'.site + bytes'.length) (by
    rw [Resolved.range, hb', hs']
    rfl)
  rintro i ⟨⟨hc1, hc2⟩, hc3, hc4⟩
  simp only [MaskedBytes.length_cells] at hc1 hc2 hc3 hc4
  apply hapart
  simp only
  omega

/-- Performing a rule that writes is performing its masked write, and the
    flag records whether that changed the buffer. -/
theorem writeOne_patch (data : Bytes) (changed : Bool) (r : Resolved) (w : MaskedWrite UInt8)
    (hr : r.Fits data) (hw : r.write = some w) :
    writeOne (data, changed) r
      = .ok (overlay data w, changed || decide (overlay data w ≠ data)) := by
  rcases (r.write_eq_some_iff w).mp hw with ⟨bytes, hb, hs, rfl⟩
  rcases hr.2 bytes hb hs with ⟨hsite, hfit⟩
  have hcast : r.site = (r.site.toNat : Int) := (Int.toNat_of_nonneg hsite).symm
  generalize r.site.toNat = o at hcast hfit
  rcases hrender : renderReplacement (slice data o (o + bytes.length)) bytes with e | new
  · -- The window is as long as the replacement, so rendering does not raise.
    exfalso
    unfold renderReplacement at hrender
    rw [raiseIf, if_neg] at hrender
    · exact absurd hrender (by simp only [bind, Except.bind, pure, Except.pure, reduceCtorEq,
        not_false_eq_true])
    · rw [length_slice_window data o bytes.length hfit]
      simp only [ne_eq, not_true_eq_false, not_false_eq_true]
  · have hlen : new.length = bytes.length := by
      rcases (renderReplacement_ok _ _ _).mp hrender with ⟨hlen, rfl⟩
      rw [List.length_zipWith, hlen, MaskedBytes.length_cells, Nat.min_self]
    have hset := setSlice_render data bytes new o hfit hrender
    have hself := setSlice_eq_self_iff data new o (by omega)
    rw [hset, hlen] at hself
    simp only [writeOne, hb, hs, reduceCtorEq, if_false, hcast, hrender, bind, Except.bind, pure,
      Except.pure, hset, Except.ok.injEq, Prod.mk.injEq, true_and]
    congr 1
    rw [Bool.eq_iff_iff, bne_iff_ne, decide_eq_true_eq, ne_eq, ne_eq, hself]

/-- A rule that does not write leaves the buffer and the flag alone. -/
theorem writeOne_none (buffer : Bytes × Bool) (source : Bytes) (r : Resolved)
    (hr : r.Fits source) (hw : r.write = none) : writeOne buffer r = .ok buffer := by
  unfold writeOne
  split
  next => rfl
  next bytes hb =>
    rcases hr.1 (by rw [hb]; simp only [ne_eq, reduceCtorEq, not_false_eq_true]) with hs | hs
    · rw [Resolved.write, hb, hs] at hw
      exact absurd hw (by simp only [reduceCtorEq, not_false_eq_true])
    · rw [if_pos hs]

/-- Performing all rules is performing their writes in order, and the flag
    says whether the buffer still is the source. The induction carries the
    writes performed so far. -/
theorem foldlM_writeOne (source : Bytes) (rs : List Resolved) (ws : List (MaskedWrite UInt8))
    (hfit : ∀ r ∈ rs, r.Fits source)
    (hapart : (ws ++ rs.filterMap Resolved.write).Pairwise MaskedWrite.Apart) :
    rs.foldlM writeOne (overlays source ws, decide (overlays source ws ≠ source))
      = .ok (overlays source (ws ++ rs.filterMap Resolved.write),
          decide (overlays source (ws ++ rs.filterMap Resolved.write) ≠ source)) := by
  induction rs generalizing ws with
  | nil =>
      rw [List.filterMap_nil, List.append_nil]
      rfl
  | cons r rest ih =>
      have hr := hfit r List.mem_cons_self
      have hrest : ∀ r' ∈ rest, r'.Fits source := fun r' h' => hfit r' (List.mem_cons_of_mem r h')
      rw [List.foldlM_cons]
      cases hw : r.write with
      | none =>
          rw [List.filterMap_cons_none hw] at hapart ⊢
          rw [writeOne_none _ source r hr hw]
          exact ih ws hrest hapart
      | some w =>
          rw [List.filterMap_cons_some hw, List.append_cons] at hapart ⊢
          have hfits : r.Fits (overlays source ws) := by
            refine ⟨hr.1, fun bytes hb hs => ?_⟩
            rw [length_overlays]
            exact hr.2 bytes hb hs
          have hnext : overlay (overlays source ws) w = overlays source (ws ++ [w]) := by
            rw [overlays, overlays, List.foldl_append, List.foldl_cons, List.foldl_nil]
          have hw' : ∀ v ∈ ws, v.Apart w := fun v hv =>
            (List.pairwise_append.mp (List.pairwise_append.mp hapart).1).2.2 v hv w
              (List.mem_singleton_self w)
          -- Writes apart do not undo each other, so the flag compares with the source.
          have hflag : (decide (overlays source ws ≠ source) ||
              decide (overlay (overlays source ws) w ≠ overlays source ws))
              = decide (overlays source (ws ++ [w]) ≠ source) := by
            rw [← Bool.decide_or, decide_eq_decide, ← hnext]
            exact (overlay_ne_iff source ws w hw').symm
          rw [writeOne_patch _ _ r w hfits hw, hflag, hnext]
          exact ih (ws ++ [w]) hrest hapart

end Zd1200
