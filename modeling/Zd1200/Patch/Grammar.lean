import Zd1200.Patch.Catalog

/-!
# The Two Grammars of Byte Patterns

A pattern is checked when the catalog is loaded, by a regular expression, and
read when a rule is applied, by `int(token, 16)`.

The check is meant to accept what the reader accepts. It accepts the tokens of
two ASCII hexadecimal digits, besides `??`. Python's `int` also takes decimal
digits of any script, a plus sign in front of a digit and a minus sign in
front of a zero, and the reader refuses none of them. So the two agree on a
text exactly when it has no such token, or is refused for something else
anyway.

## Main definitions

* `StrictToken`: A token of the documented grammar.
* `LenientToken`: A token that `int` makes a byte of.
* `GrammarsAgree`: The reader and the check agree on a text.

## Theorems

* `parseToken_ok_iff`, `parseMaskedHex_ok_iff`: What the reader accepts.
* `validateMaskedHex_ok_iff`: What the check accepts.
* `parseMaskedHex_strict`: The bytes of a text of the documented grammar.
* `grammarsAgree_iff`: When the two agree.
-/

namespace Zd1200

/-- `"".join(text.split())`. -/
def compactText (text : String) : List Char := text.toList.filter fun c => !isSpace c

/-- `??` or two ASCII hexadecimal digits. -/
def StrictToken (token : Char × Char) : Prop :=
  token = ('?', '?') ∨ (isHexDigit token.1 = true ∧ isHexDigit token.2 = true)

instance : DecidablePred StrictToken := fun _ => inferInstanceAs (Decidable (_ ∨ _))

/-- `??`, a sign and a digit that make no negative number, or two digits. -/
def LenientToken (token : Char × Char) : Prop :=
  token = ('?', '?') ∨
  (token.1 = '+' ∧ (digitValue token.2).isSome) ∨
  (token.1 = '-' ∧ digitValue token.2 = some 0) ∨
  ((digitValue token.1).isSome ∧ (digitValue token.2).isSome)

instance : DecidablePred LenientToken := fun _ => inferInstanceAs (Decidable (_ ∨ _))

/-- A text that is cut into tokens of a kind, at least one. -/
def MadeOf (kind : Char × Char → Prop) (text : String) : Prop :=
  compactText text ≠ [] ∧ (compactText text).length % 2 = 0 ∧
    ∀ token ∈ tokens (compactText text), kind token

/-- The reader and the check of a field agree on a text: both accept the
    documented grammar, with the length and the bytes that the tokens say. -/
structure GrammarsAgree (text field : String) : Prop where
  same : (∃ pattern, parseMaskedHex text = .ok pattern) ↔ ∃ n, validateMaskedHex text field = .ok n
  parses : (∃ pattern, parseMaskedHex text = .ok pattern) ↔ MadeOf StrictToken text
  validates : (∃ n, validateMaskedHex text field = .ok n) ↔ MadeOf StrictToken text
  bytes : ∀ pattern n, parseMaskedHex text = .ok pattern → validateMaskedHex text field = .ok n →
    pattern.length = n ∧
      pattern.values = (tokens (compactText text)).map (fun token => (tokenByte token).1) ∧
      pattern.exact = (tokens (compactText text)).map fun token => (tokenByte token).2

/-! ### Tokens -/

/-- A token that is not `??` is read if `int` makes a byte of it. -/
theorem parseToken_ok_iff_int (token : Char × Char) (hmasked : token ≠ ('?', '?')) :
    (∃ cell, parseToken token = .ok cell) ↔
      ∃ value, intBase16 token = some value ∧ 0 ≤ value ∧ value < 256 := by
  unfold parseToken
  rw [if_neg hmasked]
  cases intBase16 token with
  | none => simp only [reduceCtorEq, exists_false, false_and]
  | some value =>
      by_cases hv : 0 ≤ value ∧ value < 256
      · simp only [hv, and_self, if_true, Except.ok.injEq, exists_eq', Option.some.injEq,
          exists_eq_left']
      · simp only [hv, if_false, reduceCtorEq, exists_false, Option.some.injEq, exists_eq_left']

/-- The reader takes the tokens that `int` makes a byte of. -/
theorem parseToken_ok_iff (token : Char × Char) :
    (∃ cell, parseToken token = .ok cell) ↔ LenientToken token := by
  by_cases hmasked : token = ('?', '?')
  · rw [parseToken, if_pos hmasked]
    exact ⟨fun _ => .inl hmasked, fun _ => ⟨_, rfl⟩⟩
  rw [parseToken_ok_iff_int token hmasked, intBase16_eq, LenientToken]
  have hplus : digitValue '+' = none := by decide
  have hminus : digitValue '-' = none := by decide
  -- A token begins with one of the signs or with neither.
  by_cases hp : token.1 = '+'
  · rw [if_pos hp, hp, hplus]
    cases hlow : digitValue token.2 with
    | none => simp [hmasked]
    | some n =>
        have := digitValue_lt _ n hlow
        simp [hmasked]
        omega
  · rw [if_neg hp]
    by_cases hm : token.1 = '-'
    · rw [if_pos hm, hm, hminus]
      cases hlow : digitValue token.2 with
      | none => simp [hmasked]
      | some n =>
          simp [hmasked]
          omega
    · rw [if_neg hm]
      cases hhigh : digitValue token.1 with
      | none => simp [hmasked, hp, hm]
      | some a =>
          cases hlow : digitValue token.2 with
          | none => simp [hmasked, hp, hm]
          | some b =>
              have := digitValue_lt _ a hhigh
              have := digitValue_lt _ b hlow
              simp [hmasked, hp, hm]
              omega

theorem LenientToken.of_strict (token : Char × Char) (h : StrictToken token) :
    LenientToken token :=
  (parseToken_ok_iff token).mp ⟨_, parseToken_of_hex token h⟩

/-! ### Texts -/

theorem parseMaskedHex_ok_iff (text : String) :
    (∃ pattern, parseMaskedHex text = .ok pattern) ↔ MadeOf LenientToken text := by
  simp only [parseMaskedHex, bind_ok_iff, raiseIf_ok_iff, exists_const, pure_ok_iff, ne_eq,
    not_not]
  constructor
  · rintro ⟨-, hne, heven, columns, hcolumns, -⟩
    refine ⟨hne, heven, fun token htoken => (parseToken_ok_iff token).mp ?_⟩
    rcases mapM_ok_of_mem parseToken _ _ hcolumns token htoken with ⟨cell, -, hcell⟩
    exact ⟨cell, hcell⟩
  · rintro ⟨hne, heven, htokens⟩
    rcases exists_mapM_ok parseToken _ fun token htoken =>
      (parseToken_ok_iff token).mpr (htokens token htoken) with ⟨columns, hcolumns⟩
    exact ⟨_, hne, heven, columns, hcolumns, rfl⟩

theorem validateMaskedHex_ok_iff (text field : String) (n : Nat) :
    validateMaskedHex text field = .ok n ↔
      MadeOf StrictToken text ∧ (compactText text).length / 2 = n := by
  simp only [validateMaskedHex, bind_ok_iff, raiseIf_ok_iff, exists_const, pure_ok_iff, not_or,
    not_not, forM_ok_iff, not_and_not_right, ne_eq, MadeOf, StrictToken, compactText]
  constructor
  · rintro ⟨⟨hne, heven⟩, htokens, hn⟩
    refine ⟨⟨hne, heven, fun token htoken => ?_⟩, hn⟩
    by_cases hmasked : token = ('?', '?')
    · exact .inl hmasked
    · exact .inr (htokens token htoken hmasked)
  · rintro ⟨⟨hne, heven, htokens⟩, hn⟩
    refine ⟨⟨hne, heven⟩, fun token htoken hmasked => ?_, hn⟩
    exact (htokens token htoken).resolve_left hmasked

/-- The columns of a pattern of the documented grammar. -/
theorem parseMaskedHex_strict (text : String) (h : MadeOf StrictToken text)
    (pattern : MaskedBytes) (hparse : parseMaskedHex text = .ok pattern) :
    pattern.values = (tokens (compactText text)).map (fun token => (tokenByte token).1) ∧
      pattern.exact = (tokens (compactText text)).map fun token => (tokenByte token).2 := by
  have hcolumns : (tokens (compactText text)).mapM parseToken =
      .ok ((tokens (compactText text)).map tokenByte) := by
    rw [mapM_ok_iff, List.forall₂_map_right_iff, List.forall₂_same]
    exact fun token htoken => parseToken_of_hex token (h.2.2 token htoken)
  simp only [parseMaskedHex, bind_ok_iff, raiseIf_ok_iff, exists_const, pure_ok_iff] at hparse
  rcases hparse with ⟨-, -, columns, hread, rfl⟩
  rw [show columns = (tokens (compactText text)).map tokenByte from
    Except.ok.inj (hread.symm.trans hcolumns)]
  exact ⟨List.map_map, List.map_map⟩

/-- The reader and the check agree on a text exactly when, if all its tokens
    are such that `int` makes bytes of them, they are of the documented
    grammar. -/
theorem grammarsAgree_iff (text field : String) :
    GrammarsAgree text field ↔ (MadeOf LenientToken text → MadeOf StrictToken text) := by
  have hvalidates : (∃ n, validateMaskedHex text field = .ok n) ↔ MadeOf StrictToken text := by
    simp only [validateMaskedHex_ok_iff, exists_and_left, exists_eq', and_true]
  constructor
  · intro h hlenient
    exact h.parses.mp ((parseMaskedHex_ok_iff text).mpr hlenient)
  · intro h
    have hstrict : MadeOf LenientToken text ↔ MadeOf StrictToken text :=
      ⟨h, fun hs => ⟨hs.1, hs.2.1, fun token htoken => .of_strict token (hs.2.2 token htoken)⟩⟩
    have hparses := (parseMaskedHex_ok_iff text).trans hstrict
    refine ⟨hparses.trans hvalidates.symm, hparses, hvalidates, fun pattern n hp hn => ?_⟩
    rcases (validateMaskedHex_ok_iff text field n).mp hn with ⟨hmade, hlength⟩
    rcases parseMaskedHex_strict text hmade pattern hp with ⟨hvalues, hexact⟩
    refine ⟨?_, hvalues, hexact⟩
    rw [MaskedBytes.length, hvalues, List.length_map, length_tokens, hlength]

/-- A plus sign in front of a digit is read as a byte and not accepted by the
    check. -/
theorem grammars_differ_sign : ¬ ∀ text field, GrammarsAgree text field := by
  intro h
  have hagree := (h "+1" "expected_hex").same
  have hparse : ∃ pattern, parseMaskedHex "+1" = .ok pattern := by
    rw [parseMaskedHex_ok_iff]
    exact ⟨by decide, by decide, by decide⟩
  rcases hagree.mp hparse with ⟨n, hn⟩
  rcases (validateMaskedHex_ok_iff _ _ _).mp hn with ⟨⟨-, -, htokens⟩, -⟩
  exact absurd (htokens ('+', '1') (by decide)) (by decide)

end Zd1200
