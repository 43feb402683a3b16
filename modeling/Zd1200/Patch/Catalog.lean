import Zd1200.Patch.Rules

/-!
# The Patch Catalog

`load_catalog` of `binary_patch_catalog.py`, on the value that the JSON reader
makes of the file.

A document has the members of an object as they stand in the text, where a
name may be there twice; what the loader works on is the dictionary that the
reader makes of them. A truth value counts as a number where the loader asks
for one by `isinstance`, and a field that is not there reads as null.

## Main definitions

* `Json`: The values of a document.
* `Artifact`: An artifact of the catalog.
* `validateMaskedHex`: The grammar of byte patterns.
* `loadCatalog`: The loader.
* `rulesForArtifact`: The rules of one artifact.
* `PatchRule.Fits`: The patterns of a rule fit one another.

## Theorems

* `parseMaskedHex_of_validate`: A validated text is a pattern of its length.
* `loadCatalog_fits`: The rules of an accepted document fit.
-/

namespace Zd1200

/-- A JSON document, an object with its members in the order of the text.
    Numbers with a fraction are never looked at. -/
inductive Json
  | null
  | bool (value : Bool)
  | int (value : Int)
  | float
  | string (value : String)
  | array (items : List Json)
  | object (members : List (String × Json))

/-- An artifact of the catalog. -/
structure Artifact where
  artifactId : String
  description : String
  handler : String
  deriving DecidableEq, Repr

/-- The constant `SUPPORTED_HANDLERS`. -/
def supportedHandlers : List String := ["raw", "zd1200_bzimage_gzip_elf"]

/-- The constant `TOP_LEVEL_FIELDS`. -/
def topLevelFields : List String := ["catalog_version", "artifacts", "patches"]

/-- The constant `ARTIFACT_FIELDS`. -/
def artifactFields : List String := ["artifact_id", "description", "handler"]

/-- The constant `PATCH_FIELDS`. -/
def patchFields : List String :=
  ["artifact_id", "name", "signature_hex", "patch_offset", "expected_hex", "replacement_hex",
   "description", "rel32_exit"]

/-- `IDENTIFIER_RE.fullmatch`. -/
def isIdentifier (text : String) : Bool :=
  match text.toList with
  | [] => false
  | first :: rest =>
      first.isLower && rest.all fun c => c.isLower || c.isDigit || c = '_'

/-- `item.get(field)`. -/
def getField (item : Dict String Json) (field : String) : Json :=
  (item.lookup field).getD .null

/-- An integer as `isinstance(value, int)` has it. -/
def asInt : Json → Option Int
  | .int value => some value
  | .bool value => some (if value then 1 else 0)
  | _ => none

def requiredString (item : Dict String Json) (field : String) : Except PyError String :=
  match getField item field with
  | .string value =>
      if value = "" then .error (.valueError s!"catalog {reprText field.toList} must be a non-empty string")
      else .ok value
  | _ => .error (.valueError s!"catalog {reprText field.toList} must be a non-empty string")

/-- `[0-9a-fA-F]`. -/
def isHexDigit (c : Char) : Bool :=
  c.isDigit || (0x61 ≤ c.toNat && c.toNat ≤ 0x66) || (0x41 ≤ c.toNat && c.toNat ≤ 0x46)

/-- The grammar of byte patterns. -/
def validateMaskedHex (value : String) (field : String) : Except PyError Nat := do
  let compact := value.toList.filter fun c => !isSpace c
  raiseIf (compact = [] ∨ compact.length % 2 ≠ 0)
    (.valueError s!"catalog {reprText field.toList} is not a byte pattern")
  (tokens compact).forM fun token =>
    raiseIf (token ≠ ('?', '?') ∧ ¬ (isHexDigit token.1 ∧ isHexDigit token.2))
      (.valueError (s!"catalog {reprText field.toList} has invalid byte token " ++
        reprText [token.1, token.2]))
  return compact.length / 2

def checkFields (item : Dict String Json) (allowed : List String) (kind : String) :
    Except PyError Unit :=
  let unexpected := (item.keys.filter (· ∉ allowed)).insertionSort (· ≤ ·)
  raiseIf (unexpected ≠ [])
    (.valueError (s!"catalog {kind} has unknown fields: " ++ ", ".intercalate unexpected))

/-- One round of the loop over artifacts. -/
def loadArtifact (artifacts : List Artifact) (item : Json) : Except PyError (List Artifact) := do
  match item with
  | .object members => do
      let fields := Dict.ofList members
      checkFields fields artifactFields "artifact"
      let artifactId ← requiredString fields "artifact_id"
      let description ← requiredString fields "description"
      let handler ← requiredString fields "handler"
      raiseIf (isIdentifier artifactId = false)
        (.valueError s!"invalid artifact id {reprText artifactId.toList}")
      raiseIf (handler ∉ supportedHandlers)
        (.valueError s!"{artifactId}: unknown handler {reprText handler.toList}")
      raiseIf (artifactId ∈ artifacts.map Artifact.artifactId)
        (.valueError s!"duplicate artifact id {reprText artifactId.toList}")
      return artifacts ++ [(⟨artifactId, description, handler⟩ : Artifact)]
  | _ => .error (.valueError "catalog artifact must be an object")

/-- A field that has to be a number that is not negative. -/
def naturalField (value : Json) (field : String) : Except PyError Int :=
  match asInt value with
  | some n =>
      if n < 0 then .error (.valueError s!"catalog {field} must be a non-negative integer")
      else .ok n
  | none => .error (.valueError s!"catalog {field} must be a non-negative integer")

/-- The field `replacement_hex`. -/
def replacementField : Json → Except PyError (Option String)
  | .null => .ok none
  | .string value => .ok (some value)
  | _ => .error (.valueError "catalog replacement_hex must be a string or null")

/-- The checks of a rule's patterns against each other. -/
def checkRule (rule : PatchRule) : Except PyError Unit := do
  raiseIf (isIdentifier rule.name = false)
    (.valueError s!"invalid patch name {reprText rule.name.toList}")
  let signatureLength ← validateMaskedHex rule.signatureHex "signature_hex"
  let expectedLength ← validateMaskedHex rule.expectedHex "expected_hex"
  raiseIf (rule.patchOffset + expectedLength > signatureLength)
    (.valueError "catalog expected_hex lies outside signature_hex")
  match rule.replacementHex with
  | none => return
  | some replacementHex => do
      let replacementLength ← validateMaskedHex replacementHex "replacement_hex"
      raiseIf (replacementLength ≠ expectedLength)
        (.valueError "catalog replacement_hex length differs from expected_hex")

/-- One round of the loop over patches. -/
def loadPatch (artifacts : List Artifact) (patches : List PatchRule) (item : Json) :
    Except PyError (List PatchRule) := do
  match item with
  | .object members => do
      let fields := Dict.ofList members
      checkFields fields patchFields "patch"
      let artifactId ← requiredString fields "artifact_id"
      raiseIf (artifactId ∉ artifacts.map Artifact.artifactId)
        (.valueError s!"patch references unknown artifact {reprText artifactId.toList}")
      let patchOffset ← naturalField (getField fields "patch_offset") "patch_offset"
      let rel32Exit ← naturalField ((fields.lookup "rel32_exit").getD (.int 0)) "rel32_exit"
      let replacementHex ← replacementField (getField fields "replacement_hex")
      let name ← requiredString fields "name"
      let signatureHex ← requiredString fields "signature_hex"
      let expectedHex ← requiredString fields "expected_hex"
      let description ← requiredString fields "description"
      let rule : PatchRule :=
        { artifactId, name, signatureHex, patchOffset, expectedHex, replacementHex, description,
          rel32Exit }
      checkRule rule
      raiseIf (name ∈ patches.map PatchRule.name)
        (.valueError s!"duplicate patch name {reprText name.toList}")
      return patches ++ [rule]
  | _ => .error (.valueError "catalog patch must be an object")

/-- The catalog of a document. -/
def loadCatalog (source : Json) : Except PyError (List Artifact × List PatchRule) := do
  match source with
  | .object members => do
      let fields := Dict.ofList members
      checkFields fields topLevelFields "root"
      match getField fields "catalog_version" with
      | .int 1 => do
          match getField fields "artifacts", getField fields "patches" with
          | .array artifactItems, .array patchItems => do
              let artifacts ← artifactItems.foldlM loadArtifact []
              let patches ← patchItems.foldlM (loadPatch artifacts) []
              raiseIf (artifacts = [] ∨ patches = [])
                (.valueError "catalog must contain artifacts and patches")
              return (artifacts, patches)
          | _, _ => .error (.valueError "catalog artifacts and patches must be arrays")
      | _ => .error (.valueError "unsupported or missing catalog_version")
  | _ => .error (.valueError "catalog root must be an object")

/-- The rules of the catalog that are one artifact's. -/
def rulesOf (patches : List PatchRule) (artifactId : String) : List PatchRule :=
  patches.filter fun rule => rule.artifactId = artifactId

def rulesForArtifact (artifacts : List Artifact) (patches : List PatchRule) (artifactId : String) :
    Except PyError (List PatchRule) := do
  raiseIf (artifactId ∉ artifacts.map Artifact.artifactId)
    (.valueError s!"unknown artifact id {reprText artifactId.toList}")
  let rules := rulesOf patches artifactId
  raiseIf (rules = []) (.valueError s!"artifact {reprText artifactId.toList} has no patches")
  return rules

/-! ### Patterns -/

/-- The value of an ASCII hexadecimal digit. -/
def asciiHexValue (c : Char) : Nat :=
  if c.toNat ≤ 0x39 then c.toNat - 0x30
  else if c.toNat ≤ 0x46 then c.toNat - 0x41 + 10
  else c.toNat - 0x61 + 10

/-- The byte that a token says: none is required for `??`. -/
def tokenByte (token : Char × Char) : UInt8 × Bool :=
  if token = ('?', '?') then (0, false)
  else ((16 * asciiHexValue token.1 + asciiHexValue token.2).toUInt8, true)

theorem digitValue_lt (c : Char) (n : Nat) (h : digitValue c = some n) : n < 16 := by
  unfold digitValue at h
  simp only at h
  split at h
  · rw [Option.some.injEq] at h
    omega
  · split at h
    · rw [Option.some.injEq] at h
      omega
    · rcases Option.map_eq_some_iff.mp h with ⟨first, hfirst, rfl⟩
      have := List.find?_some hfirst
      simp only [Bool.and_eq_true, decide_eq_true_eq] at this
      omega

/-- A hexadecimal digit has its value in both readings. -/
theorem digitValue_hex (c : Char) (h : isHexDigit c = true) :
    digitValue c = some (asciiHexValue c) := by
  simp only [isHexDigit, Bool.or_eq_true, Bool.and_eq_true, decide_eq_true_eq] at h
  unfold digitValue asciiHexValue
  simp only
  by_cases hlower : 0x61 ≤ c.toNat ∧ c.toNat ≤ 0x66
  · rw [if_pos hlower, if_neg (by omega), if_neg (by omega)]
  · by_cases hupper : 0x41 ≤ c.toNat ∧ c.toNat ≤ 0x46
    · rw [if_neg hlower, if_pos hupper, if_neg (by omega), if_pos (by omega)]
    · have hdigit : 48 ≤ c.toNat ∧ c.toNat ≤ 57 := by
        have hd : c.isDigit = true := by
          rcases h with (h | h) | h
          · exact h
          · exact absurd h hlower
          · exact absurd h hupper
        simpa [Char.isDigit, UInt32.le_iff_toNat_le, ← Char.toNat_val] using hd
      rw [if_neg hlower, if_neg hupper, if_pos (by omega), decimalZeros,
        List.find?_cons_of_pos (by simp; omega), Option.map_some]

theorem asciiHexValue_lt (c : Char) (h : isHexDigit c = true) : asciiHexValue c < 16 :=
  digitValue_lt c _ (digitValue_hex c h)

/-- What `int` makes of a token. -/
theorem intBase16_eq (token : Char × Char) :
    intBase16 token =
      if token.1 = '+' then (digitValue token.2).map Int.ofNat
      else if token.1 = '-' then (digitValue token.2).map fun n => - Int.ofNat n
      else (digitValue token.1).bind fun h => (digitValue token.2).map fun l =>
        Int.ofNat (16 * h + l) := by
  rcases token with ⟨high, low⟩
  by_cases hplus : high = '+'
  · subst hplus
    rw [if_pos rfl]
    rfl
  · by_cases hminus : high = '-'
    · subst hminus
      rw [if_neg (show ¬ '-' = '+' by decide), if_pos rfl]
      rfl
    · rw [if_neg hplus, if_neg hminus]
      unfold intBase16
      split
      · next heq => exact absurd (Prod.mk.inj heq).1 hplus
      · next heq => exact absurd (Prod.mk.inj heq).1 hminus
      · next heq =>
          rw [← (Prod.mk.inj heq).1, ← (Prod.mk.inj heq).2]
          cases digitValue high with
          | none => rfl
          | some h =>
              cases digitValue low with
              | none => rfl
              | some l => rfl

/-- A token of the grammar is a byte of a pattern. -/
theorem parseToken_of_hex (token : Char × Char)
    (h : token = ('?', '?') ∨ (isHexDigit token.1 = true ∧ isHexDigit token.2 = true)) :
    parseToken token = .ok (tokenByte token) := by
  unfold parseToken tokenByte
  by_cases hmasked : token = ('?', '?')
  · rw [if_pos hmasked, if_pos hmasked]
  · rw [if_neg hmasked, if_neg hmasked]
    rcases h.resolve_left hmasked with ⟨hhigh, hlow⟩
    have hhighLt := asciiHexValue_lt token.1 hhigh
    have hlowLt := asciiHexValue_lt token.2 hlow
    -- A sign is no digit.
    have hplus : token.1 ≠ '+' := fun h => by
      rw [h] at hhigh
      exact absurd hhigh (by decide)
    have hminus : token.1 ≠ '-' := fun h => by
      rw [h] at hhigh
      exact absurd hhigh (by decide)
    rw [intBase16_eq, if_neg hplus, if_neg hminus, digitValue_hex token.1 hhigh,
      digitValue_hex token.2 hlow, Option.bind_some, Option.map_some]
    simp only [Int.ofNat_eq_natCast]
    rw [if_pos (by omega), Int.toNat_natCast]

theorem length_tokens (chars : List Char) : (tokens chars).length = chars.length / 2 := by
  induction chars using tokens.induct with
  | case1 a b rest ih =>
      rw [tokens, List.length_cons, ih, List.length_cons, List.length_cons]
      omega
  | case2 chars hshort =>
      unfold tokens
      split
      · next a b rest => exact absurd rfl (hshort a b rest)
      · rcases chars with _ | ⟨a, _ | ⟨b, rest⟩⟩
        · rfl
        · simp only [List.length_nil, List.length_cons]
        · exact absurd rfl (hshort a b rest)

/-- A validated text is a pattern, of the length that was counted. -/
theorem parseMaskedHex_of_validate (value field : String) (n : Nat)
    (h : validateMaskedHex value field = .ok n) :
    ∃ pattern, parseMaskedHex value = .ok pattern ∧ pattern.length = n := by
  simp only [validateMaskedHex, bind_ok_iff, raiseIf_ok_iff, exists_const, pure_ok_iff,
    not_or, not_not] at h
  rcases h with ⟨⟨hempty, heven⟩, _, htokens, rfl⟩
  rw [forM_ok_iff] at htokens
  rcases exists_mapM_ok parseToken (tokens (value.toList.filter fun c => !isSpace c))
    (fun token htoken => ⟨_, parseToken_of_hex token (by
      have := htokens token htoken
      rw [raiseIf_ok_iff, not_and, not_not] at this
      by_cases hmasked : token = ('?', '?')
      · exact .inl hmasked
      · exact .inr (this hmasked))⟩) with ⟨columns, hcolumns⟩
  refine ⟨⟨columns.map Prod.fst, columns.map Prod.snd, by simp only [List.length_map]⟩, ?_, ?_⟩
  · simp only [parseMaskedHex, bind_ok_iff, raiseIf_ok_iff, exists_const, pure_ok_iff]
    exact ⟨hempty, by omega, columns, hcolumns, rfl⟩
  · rw [MaskedBytes.length, List.length_map, ← ((mapM_ok_iff _ _ _).mp hcolumns).length_eq,
      length_tokens]

/-! ### Accepted documents -/

/-- The patterns of a rule fit one another. -/
structure PatchRule.Fits (rule : PatchRule) : Prop where
  offset : 0 ≤ rule.patchOffset
  exit : 0 ≤ rule.rel32Exit
  patterns : ∃ signature expected, parseMaskedHex rule.signatureHex = .ok signature ∧
    parseMaskedHex rule.expectedHex = .ok expected ∧
    rule.patchOffset + expected.length ≤ signature.length ∧
    ∀ text, rule.replacementHex = some text → ∃ replacement,
      parseMaskedHex text = .ok replacement ∧ replacement.length = expected.length

theorem naturalField_ok (value : Json) (field : String) (n : Int)
    (h : naturalField value field = .ok n) : 0 ≤ n := by
  unfold naturalField at h
  split at h
  · split at h
    · exact absurd h (by simp only [reduceCtorEq, not_false_eq_true])
    · next hn =>
      rw [← Except.ok.inj h]
      omega
  · exact absurd h (by simp only [reduceCtorEq, not_false_eq_true])

theorem checkRule_fits (rule : PatchRule) (hoffset : 0 ≤ rule.patchOffset)
    (hexit : 0 ≤ rule.rel32Exit) (h : checkRule rule = .ok ()) : rule.Fits := by
  simp only [checkRule, bind_ok_iff, raiseIf_ok_iff, exists_const] at h
  rcases h with ⟨-, n, hn, m, hm, hin, h⟩
  rcases parseMaskedHex_of_validate _ _ n hn with ⟨signature, hsig, rfl⟩
  rcases parseMaskedHex_of_validate _ _ m hm with ⟨expected, hexp, rfl⟩
  refine ⟨hoffset, hexit, signature, expected, hsig, hexp, by omega, fun text htext => ?_⟩
  simp only [htext, bind_ok_iff, raiseIf_ok_iff, ne_eq, not_not] at h
  rcases h with ⟨k, hk, heq⟩
  rcases parseMaskedHex_of_validate _ _ k hk with ⟨replacement, hrep, rfl⟩
  exact ⟨replacement, hrep, heq⟩

theorem loadPatch_fits (artifacts : List Artifact) (patches patches' : List PatchRule)
    (item : Json) (hpatches : ∀ rule ∈ patches, rule.Fits)
    (h : loadPatch artifacts patches item = .ok patches') : ∀ rule ∈ patches', rule.Fits := by
  cases item with
  | object fields =>
      simp only [loadPatch, bind_ok_iff, raiseIf_ok_iff, exists_const, pure_ok_iff] at h
      rcases h with ⟨_, -, _, -, -, offset, hoffset, exit, hexit, _, -, _, -, _, -, _, -, _, -, ⟨⟩,
        hcheck, -, rfl⟩
      intro rule hrule
      rcases List.mem_append.mp hrule with hold | hnew
      · exact hpatches rule hold
      · rw [List.mem_singleton.mp hnew]
        exact checkRule_fits _ (naturalField_ok _ _ _ hoffset) (naturalField_ok _ _ _ hexit) hcheck
  | _ => exact absurd h (by simp only [loadPatch, reduceCtorEq, not_false_eq_true])

/-- The rules of an accepted document fit. -/
theorem loadCatalog_fits (source : Json) (artifacts : List Artifact) (patches : List PatchRule)
    (h : loadCatalog source = .ok (artifacts, patches)) : ∀ rule ∈ patches, rule.Fits := by
  unfold loadCatalog at h
  split at h
  · rw [bind_ok_iff] at h
    rcases h with ⟨-, -, h⟩
    split at h
    · split at h
      · simp only [bind_ok_iff, raiseIf_ok_iff, exists_const, pure_ok_iff, Prod.mk.injEq] at h
        rcases h with ⟨artifacts', -, patches', hpatches, -, rfl, rfl⟩
        exact foldlM_ok_keeps (P := fun patches => ∀ rule ∈ patches, rule.Fits) _ _
          (fun item _ patches patches' hfits hitem =>
            loadPatch_fits artifacts' patches patches' item hfits hitem) _ _
          (fun rule hrule => absurd hrule List.not_mem_nil) hpatches
      · exact absurd h (by simp only [reduceCtorEq, not_false_eq_true])
    · exact absurd h (by simp only [reduceCtorEq, not_false_eq_true])
  · exact absurd h (by simp only [reduceCtorEq, not_false_eq_true])

end Zd1200
