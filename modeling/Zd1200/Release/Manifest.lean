import Mathlib.Data.List.Nodup
import Zd1200.Patch.Catalog

/-!
# The Release Manifest

`release_manifest.py`: which releases there are, and which one an input is.

The loader goes over a document of JSON and refuses it at the first thing that
is not as it should be. Where an object names a member twice the last one
counts, and the metadata and the features of a release are dictionaries, with
every name once. What the loader accepts is exactly what `Loadable` says
(`loadReleaseManifest_iff`): every list of releases of this kind is read from
its own document as it was, and nothing else comes out of any document.

A release is looked up by its name or by the digest of an input. The loader
does not compare the digests of two releases, so the second one may be
ambiguous, and then it is refused: `releaseByInputSha256_iff`.

## Main definitions

* `ReleaseManifest`: A release.
* `loadRelease`, `loadReleaseManifest`: The loader.
* `releaseById`, `releaseByInputSha256`: The selection.
* `ReleaseManifest.WellFormed`, `Loadable`: What the loader accepts.
* `releaseManifestDocument`: A document for a list of releases.

## Theorems

* `loadReleaseManifest_iff`: What comes out of the loader.
* `releaseById_iff`, `releaseByInputSha256_iff`: What is selected.
-/

namespace Zd1200

/-! ### The loader -/

/-- A release of the manifest. -/
structure ReleaseManifest where
  releaseId : String
  product : String
  version : String
  build : Nat
  supportStatus : String
  encryptedSha256 : Option String
  decryptedSha256 : Option String
  archiveFormat : String
  metadata : Dict String String
  requiredPaths : List String
  artifactIds : List String
  features : Dict String String
  deriving DecidableEq, Repr

/-- The constant `ROOT_FIELDS`. -/
def rootFields : List String := ["manifest_version", "releases"]

/-- The constant `RELEASE_FIELDS`. -/
def releaseFields : List String :=
  ["release_id", "product", "version", "build", "support_status", "encrypted_sha256",
    "decrypted_sha256", "archive_format", "metadata", "required_paths", "artifact_ids", "features"]

/-- The constant `RUNTIME_FTP_BOOTSTRAP_VALUES`, sorted. -/
def runtimeFtpBootstrapValues : List String := ["not_required", "vendor_state"]

/-- The constant `RUNTIME_ROOT_SSH_VALUES`, sorted. -/
def runtimeRootSshValues : List String := ["not_supported", "vendor_dropbear_root_key"]

def supportStatuses : List String := ["known", "experimental", "awaiting_fixture"]

/-- `SHA256_RE.fullmatch`. -/
def isSha256 (text : String) : Bool :=
  text.toList.length = 64 &&
    text.toList.all fun c => c.isDigit || (0x61 ≤ c.toNat && c.toNat ≤ 0x66)

/-- `VERSION_RE.fullmatch`. -/
def isVersion (text : String) : Bool :=
  let numbers := text.toList.splitOn '.'
  numbers.length = 4 && numbers.all fun number => number ≠ [] && number.all Char.isDigit

/-- `_fields`. -/
def manifestFields (value : Dict String Json) (allowed : List String) (kind : String) :
    Except PyError Unit :=
  let unknown := (value.keys.filter (· ∉ allowed)).insertionSort (· ≤ ·)
  raiseIf (unknown ≠ [])
    (.valueError (s!"release manifest {kind} has unknown fields: " ++ ", ".intercalate unknown))

/-- `_string`. -/
def manifestString (value : Dict String Json) (field : String) : Except PyError String :=
  match getField value field with
  | .string result =>
      if result = "" then
        .error (.valueError s!"release manifest {reprText field.toList} must be a non-empty string")
      else .ok result
  | _ => .error (.valueError s!"release manifest {reprText field.toList} must be a non-empty string")

/-- `_optional_hash`. -/
def optionalHash (value : Dict String Json) (field : String) :
    Except PyError (Option String) :=
  match getField value field with
  | .null => .ok none
  | .string result =>
      if isSha256 result then .ok (some result)
      else .error (.valueError s!"release manifest {reprText field.toList} must be a lowercase SHA-256")
  | _ => .error (.valueError s!"release manifest {reprText field.toList} must be a lowercase SHA-256")

/-- A field that has to have one value. -/
def constantField (value : Json) (expected : String) (message : String) : Except PyError String :=
  match value with
  | .string result => if result = expected then .ok result else .error (.valueError message)
  | _ => .error (.valueError message)

def buildField (value : Json) (message : String) : Except PyError Nat :=
  match value with
  | .int n => if n < 0 then .error (.valueError message) else .ok n.toNat
  | _ => .error (.valueError message)

/-- A field that has to be an object of texts. -/
def stringMap (value : Json) (message : String) : Except PyError (Dict String String) :=
  match value with
  | .object members => do
      let items ← (Dict.ofList members).entries.mapM fun field =>
        match field.2 with
        | .string text => .ok (field.1, text)
        | _ => .error (.valueError message)
      return Dict.ofList items
  | _ => .error (.valueError message)

/-- A field that has to be an array of texts of a kind. -/
def stringArray (ok : String → Bool) (value : Json) (message : String) :
    Except PyError (List String) :=
  match value with
  | .array items => items.mapM fun item =>
      match item with
      | .string text => if ok text then .ok text else .error (.valueError message)
      | _ => .error (.valueError message)
  | _ => .error (.valueError message)

/-- `features.get(name)` has to be one of some values. -/
def featureField (features : Dict String String) (name : String) (values : List String)
    (releaseId : String) : Except PyError Unit :=
  raiseIf (¬ (features.lookup name).any (· ∈ values) = true)
    (.valueError (s!"{releaseId}: {name} must be one of " ++ ", ".intercalate values))

/-- One round of the loop over releases. -/
def loadRelease (artifacts : List String) (parsed : List ReleaseManifest) (item : Json) :
    Except PyError (List ReleaseManifest) := do
  match item with
  | .object members => do
      let fields := Dict.ofList members
      manifestFields fields releaseFields "release"
      let releaseId ← manifestString fields "release_id"
      raiseIf (isIdentifier releaseId = false ∨ releaseId ∈ parsed.map ReleaseManifest.releaseId)
        (.valueError s!"invalid or duplicate release_id {reprText releaseId.toList}")
      let product ← constantField (getField fields "product") "zd1200"
        s!"{releaseId}: unsupported product"
      let version ← manifestString fields "version"
      raiseIf (isVersion version = false) (.valueError s!"{releaseId}: invalid version")
      let build ← buildField (getField fields "build")
        s!"{releaseId}: build must be a non-negative integer"
      let supportStatus ← manifestString fields "support_status"
      raiseIf (supportStatus ∉ supportStatuses)
        (.valueError s!"{releaseId}: invalid support_status")
      let archiveFormat ← constantField (getField fields "archive_format") "gzip_tar"
        s!"{releaseId}: unsupported archive_format"
      let metadata ← stringMap (getField fields "metadata")
        s!"{releaseId}: metadata must be a string map"
      let features ← stringMap (getField fields "features")
        s!"{releaseId}: features must be a string map"
      featureField features "runtime_ftp_bootstrap" runtimeFtpBootstrapValues releaseId
      featureField features "runtime_root_ssh" runtimeRootSshValues releaseId
      let requiredPaths ← stringArray (fun text => text ≠ "") (getField fields "required_paths")
        s!"{releaseId}: required_paths must be a non-empty string array"
      raiseIf (requiredPaths = [])
        (.valueError s!"{releaseId}: required_paths must be a non-empty string array")
      let artifactIds ← stringArray isIdentifier (getField fields "artifact_ids")
        s!"{releaseId}: artifact_ids must be an identifier array"
      let missing := (artifactIds.dedup.filter (· ∉ artifacts)).insertionSort (· ≤ ·)
      raiseIf (missing ≠ [])
        (.valueError (s!"{releaseId}: unknown artifact ids: " ++ ", ".intercalate missing))
      let encryptedSha256 ← optionalHash fields "encrypted_sha256"
      let decryptedSha256 ← optionalHash fields "decrypted_sha256"
      let release : ReleaseManifest :=
        { releaseId, product, version, build, supportStatus, encryptedSha256, decryptedSha256,
          archiveFormat, metadata, requiredPaths, artifactIds, features }
      return parsed ++ [release]
  | _ => .error (.valueError "release manifest release must be an object")

/-- The releases of a document, where `artifacts` are those of the catalog. -/
def loadReleaseManifest (artifacts : List String) (source : Json) :
    Except PyError (List ReleaseManifest) := do
  match source with
  | .object members => do
      let fields := Dict.ofList members
      manifestFields fields rootFields "root"
      match getField fields "manifest_version" with
      | .int 1 => do
          match getField fields "releases" with
          | .array items => do
              raiseIf (items.isEmpty = true)
                (.valueError "release manifest releases must be a non-empty array")
              items.foldlM (loadRelease artifacts) []
          | _ => .error (.valueError "release manifest releases must be a non-empty array")
      | _ => .error (.valueError "unsupported or missing manifest_version")
  | _ => .error (.valueError "release manifest root must be an object")

/-! ### The selection -/

def releaseById (releaseId : String) (releases : List ReleaseManifest) :
    Except PyError ReleaseManifest :=
  match releases.find? fun release => release.releaseId = releaseId with
  | some release => .ok release
  | none => .error (.valueError s!"unknown release_id {reprText releaseId.toList}")

/-- `digest in {release.encrypted_sha256, release.decrypted_sha256}`. -/
def ReleaseManifest.records (release : ReleaseManifest) (digest : String) : Bool :=
  release.encryptedSha256 = some digest || release.decryptedSha256 = some digest

def releaseByInputSha256 (digest : String) (releases : List ReleaseManifest) :
    Except PyError ReleaseManifest :=
  match releases.filter fun release => release.records digest with
  | [release] => .ok release
  | [] => .error (.valueError
      s!"input SHA-256 is not an exact supported ZoneDirector archive: {digest}")
  | matched => .error (.valueError ("input SHA-256 is ambiguously recorded for: " ++
      ", ".intercalate (matched.map ReleaseManifest.releaseId)))

/-! ### What the loader accepts -/

/-- A release as the loader accepts it. -/
structure ReleaseManifest.WellFormed (artifacts : List String) (release : ReleaseManifest) :
    Prop where
  releaseId : isIdentifier release.releaseId = true
  product : release.product = "zd1200"
  version : isVersion release.version = true
  supportStatus : release.supportStatus ∈ supportStatuses
  encrypted : ∀ digest ∈ release.encryptedSha256, isSha256 digest = true
  decrypted : ∀ digest ∈ release.decryptedSha256, isSha256 digest = true
  archiveFormat : release.archiveFormat = "gzip_tar"
  ftpBootstrap : ∃ value ∈ runtimeFtpBootstrapValues,
    release.features.lookup "runtime_ftp_bootstrap" = some value
  rootSsh : ∃ value ∈ runtimeRootSshValues,
    release.features.lookup "runtime_root_ssh" = some value
  paths : release.requiredPaths ≠ [] ∧ ∀ path ∈ release.requiredPaths, path ≠ ""
  artifacts : ∀ id ∈ release.artifactIds, isIdentifier id = true ∧ id ∈ artifacts

/-- Releases that are accepted together. -/
structure Loadable (artifacts : List String) (releases : List ReleaseManifest) : Prop where
  nonempty : releases ≠ []
  wellFormed : ∀ release ∈ releases, release.WellFormed artifacts
  nodup : (releases.map ReleaseManifest.releaseId).Nodup

def stringDocument (fields : Dict String String) : Json :=
  .object (fields.entries.map fun field => (field.1, .string field.2))

def hashDocument (digest : Option String) : Json :=
  match digest with
  | some text => .string text
  | none => .null

/-- A document for a release. -/
def releaseDocument (release : ReleaseManifest) : Json :=
  .object [("release_id", .string release.releaseId), ("product", .string release.product),
    ("version", .string release.version), ("build", .int release.build),
    ("support_status", .string release.supportStatus),
    ("encrypted_sha256", hashDocument release.encryptedSha256),
    ("decrypted_sha256", hashDocument release.decryptedSha256),
    ("archive_format", .string release.archiveFormat),
    ("metadata", stringDocument release.metadata),
    ("required_paths", .array (release.requiredPaths.map .string)),
    ("artifact_ids", .array (release.artifactIds.map .string)),
    ("features", stringDocument release.features)]

/-- A document for a list of releases. -/
def releaseManifestDocument (releases : List ReleaseManifest) : Json :=
  .object [("manifest_version", .int 1), ("releases", .array (releases.map releaseDocument))]

/-! ### Single fields -/

theorem manifestFields_ok_iff (value : Dict String Json) (allowed : List String)
    (kind : String) (u : Unit) :
    manifestFields value allowed kind = .ok u ↔ ∀ name ∈ value.keys, name ∈ allowed := by
  have hsorted : ∀ names : List String, names.insertionSort (· ≤ ·) = [] ↔ names = [] := by
    intro names
    rw [← List.length_eq_zero_iff, List.length_insertionSort, List.length_eq_zero_iff]
  simp only [manifestFields, raiseIf_ok_iff, ne_eq, not_not, hsorted, List.filter_eq_nil_iff,
    decide_eq_true_eq]

theorem manifestString_ok_iff (value : Dict String Json) (field result : String) :
    manifestString value field = .ok result ↔
      getField value field = .string result ∧ result ≠ "" := by
  unfold manifestString
  split
  · next text heq =>
    rw [heq, Json.string.injEq]
    split
    · next hempty =>
      simp only [reduceCtorEq, false_iff, not_and, not_not]
      exact fun h => h ▸ hempty
    · next hne =>
      rw [Except.ok.injEq]
      exact ⟨fun h => ⟨h, h ▸ hne⟩, fun h => h.1⟩
  · next hnot =>
    simp only [reduceCtorEq, false_iff, not_and]
    exact fun h => absurd h (hnot result)

theorem optionalHash_ok_iff (value : Dict String Json) (field : String)
    (result : Option String) :
    optionalHash value field = .ok result ↔
      getField value field = hashDocument result ∧ ∀ digest ∈ result, isSha256 digest = true := by
  unfold optionalHash
  split
  · next heq =>
    rw [heq, Except.ok.injEq]
    cases result with
    | none => simp [hashDocument]
    | some digest => simp [hashDocument]
  · next text heq =>
    rw [heq]
    cases result with
    | none =>
        split
        · simp [hashDocument]
        · simp [hashDocument]
    | some digest =>
        split
        · next hsha =>
          simp only [Except.ok.injEq, Option.some.injEq, hashDocument, Json.string.injEq,
            Option.mem_def, forall_eq']
          exact ⟨fun h => ⟨h, h ▸ hsha⟩, fun h => h.1⟩
        · next hsha =>
          simp only [reduceCtorEq, hashDocument, Json.string.injEq, Option.mem_def,
            Option.some.injEq, forall_eq', false_iff, not_and]
          exact fun h => h ▸ hsha
  · next hnull hstring =>
    simp only [reduceCtorEq, false_iff, not_and]
    intro h
    cases result with
    | none => exact absurd h hnull
    | some digest => exact absurd h (hstring digest)

theorem constantField_ok_iff (value : Json) (expected message result : String) :
    constantField value expected message = .ok result ↔
      value = .string expected ∧ result = expected := by
  unfold constantField
  split
  · next text =>
    rw [Json.string.injEq]
    split
    · next heq =>
      rw [Except.ok.injEq]
      exact ⟨fun h => ⟨heq, h ▸ heq⟩, fun h => h.1.trans h.2.symm⟩
    · next hne => simp only [reduceCtorEq, false_iff, not_and, hne, false_implies]
  · next hnot =>
    simp only [reduceCtorEq, false_iff, not_and]
    exact fun h => absurd h (hnot expected)

theorem buildField_ok_iff (value : Json) (message : String) (n : Nat) :
    buildField value message = .ok n ↔ value = .int n := by
  unfold buildField
  split
  · next i =>
    rw [Json.int.injEq]
    split
    · next hneg =>
      simp only [reduceCtorEq, false_iff]
      omega
    · next hpos =>
      rw [Except.ok.injEq]
      omega
  · next hnot =>
    simp only [reduceCtorEq, false_iff]
    exact hnot n

theorem getField_ofList (members : List (String × Json)) (field : String) :
    getField (Dict.ofList members) field = (members.reverse.lookup field).getD .null := by
  rw [getField, Dict.lookup_ofList]

/-- A dictionary of texts is read from its own document. -/
theorem stringMap_document (fields : Dict String String) (message : String) :
    stringMap (stringDocument fields) message = .ok fields := by
  have hdistinct : ((fields.entries.map fun field => (field.1, Json.string field.2)).map
      Prod.fst).Nodup := by
    rw [List.map_map]
    exact fields.distinct
  simp only [stringMap, stringDocument, Dict.ofList_entries _ hdistinct, bind_ok_iff, pure_ok_iff,
    mapM_ok_iff]
  refine ⟨fields.entries, ?_, fields.ofList_self⟩
  rw [List.forall₂_map_left_iff, List.forall₂_same]
  exact fun field _ => rfl

theorem stringArray_ok_iff (ok : String → Bool) (value : Json) (message : String)
    (result : List String) :
    stringArray ok value message = .ok result ↔
      value = .array (result.map .string) ∧ ∀ text ∈ result, ok text = true := by
  unfold stringArray
  split
  · next items =>
    rw [Json.array.injEq, mapM_ok_iff]
    have hitem : ∀ (item : Json) (text : String),
        (match item with
          | .string text => if ok text then .ok text else .error (.valueError message)
          | _ => .error (.valueError message) : Except PyError String) = .ok text ↔
        item = .string text ∧ ok text = true := by
      intro item text
      cases item with
      | string old =>
          simp only [Json.string.injEq]
          split
          · next hok =>
            rw [Except.ok.injEq]
            exact ⟨fun h => ⟨h, h ▸ hok⟩, fun h => h.1⟩
          · next hnot =>
            simp only [reduceCtorEq, false_iff, not_and]
            exact fun h => h ▸ hnot
      | _ => simp only [reduceCtorEq, false_and]
    constructor
    · intro h
      induction h with
      | nil => exact ⟨rfl, fun text h => absurd h List.not_mem_nil⟩
      | cons hfirst _ ih =>
          rcases (hitem _ _).mp hfirst with ⟨rfl, hok⟩
          exact ⟨by rw [List.map_cons, ← ih.1], List.forall_mem_cons.mpr ⟨hok, ih.2⟩⟩
    · rintro ⟨rfl, hok⟩
      induction result with
      | nil => exact List.Forall₂.nil
      | cons first rest ih =>
          rw [List.forall_mem_cons] at hok
          exact List.Forall₂.cons ((hitem _ _).mpr ⟨rfl, hok.1⟩) (ih hok.2)
  · next hnot =>
    simp only [reduceCtorEq, false_iff, not_and]
    exact fun h => absurd h (hnot _)

theorem featureField_ok_iff (features : Dict String String) (name : String)
    (values : List String) (releaseId : String) (u : Unit) :
    featureField features name values releaseId = .ok u ↔
      ∃ value ∈ values, features.lookup name = some value := by
  simp only [featureField, raiseIf_ok_iff, not_not, Option.any_eq_true, decide_eq_true_eq]
  constructor
  · rintro ⟨value, hlookup, hvalue⟩
    exact ⟨value, hvalue, hlookup⟩
  · rintro ⟨value, hvalue, hlookup⟩
    exact ⟨value, hlookup, hvalue⟩

/-! ### Whole documents -/

theorem isIdentifier_ne_empty {text : String} (h : isIdentifier text = true) : text ≠ "" := by
  rintro rfl
  exact absurd h (by decide)

theorem isVersion_ne_empty {text : String} (h : isVersion text = true) : text ≠ "" := by
  rintro rfl
  exact absurd h (by decide)

theorem missing_eq_nil (ids artifacts : List String) :
    (ids.dedup.filter (· ∉ artifacts)).insertionSort (· ≤ ·) = [] ↔ ∀ id ∈ ids, id ∈ artifacts := by
  rw [← List.length_eq_zero_iff, List.length_insertionSort, List.length_eq_zero_iff]
  simp only [List.filter_eq_nil_iff, List.mem_dedup, decide_eq_true_eq, not_not]

/-- What a round of the loop accepts is well formed, and its name is new. -/
theorem loadRelease_wellFormed (artifacts : List String) (parsed parsed' : List ReleaseManifest)
    (item : Json) (h : loadRelease artifacts parsed item = .ok parsed') :
    ∃ release, parsed' = parsed ++ [release] ∧ release.WellFormed artifacts ∧
      release.releaseId ∉ parsed.map ReleaseManifest.releaseId := by
  cases item with
  | object fields =>
      simp only [loadRelease, bind_ok_iff, raiseIf_ok_iff, exists_const, pure_ok_iff,
        manifestFields_ok_iff, manifestString_ok_iff, constantField_ok_iff, buildField_ok_iff,
        stringArray_ok_iff, featureField_ok_iff, optionalHash_ok_iff, ne_eq, not_not,
        missing_eq_nil, decide_eq_true_eq] at h
      rcases h with ⟨-, id, -, hid, product, ⟨-, hproduct⟩, version, -, hversion, build, -, status,
        -, hstatus, format, ⟨-, hformat⟩, metadata, -, features, -, hftp, hssh, paths, ⟨-, hpaths⟩,
        hnonempty, ids, ⟨-, hids⟩, hknown, encrypted, ⟨-, hencrypted⟩, decrypted, ⟨-, hdecrypted⟩,
        rfl⟩
      rw [not_or, Bool.not_eq_false] at hid
      refine ⟨_, rfl, ?_, hid.2⟩
      exact
        { releaseId := hid.1
          product := hproduct
          version := eq_true_of_ne_false hversion
          supportStatus := hstatus
          encrypted := hencrypted
          decrypted := hdecrypted
          archiveFormat := hformat
          ftpBootstrap := hftp
          rootSsh := hssh
          paths := ⟨hnonempty, hpaths⟩
          artifacts := fun id hid => ⟨hids id hid, hknown id hid⟩ }
  | _ => exact absurd h (by simp only [loadRelease, reduceCtorEq, not_false_eq_true])

/-- A release that is well formed is read from its own document. -/
theorem loadRelease_document (artifacts : List String) (parsed : List ReleaseManifest)
    (release : ReleaseManifest) (h : release.WellFormed artifacts)
    (hid : release.releaseId ∉ parsed.map ReleaseManifest.releaseId) :
    loadRelease artifacts parsed (releaseDocument release) = .ok (parsed ++ [release]) := by
  have hstatus : release.supportStatus ≠ "" := by
    intro hempty
    have hmem := h.supportStatus
    rw [hempty] at hmem
    exact absurd hmem (by decide)
  rcases release with ⟨id, product, version, build, status, encrypted, decrypted, format, metadata,
    paths, ids, features⟩
  simp only [loadRelease, releaseDocument, bind_ok_iff, raiseIf_ok_iff, exists_const, pure_ok_iff,
    manifestFields_ok_iff, manifestString_ok_iff, constantField_ok_iff, buildField_ok_iff,
    getField_ofList, stringArray_ok_iff, featureField_ok_iff, optionalHash_ok_iff, ne_eq,
    not_not, missing_eq_nil, decide_eq_true_eq]
  refine ⟨?_, id, ⟨rfl, isIdentifier_ne_empty h.releaseId⟩, ?_, product, ⟨?_, h.product⟩, version,
    ⟨rfl, isVersion_ne_empty h.version⟩, ?_, build, rfl, status, ⟨rfl, hstatus⟩, h.supportStatus,
    format, ⟨?_, h.archiveFormat⟩, metadata, stringMap_document metadata _, features,
    stringMap_document features _, h.ftpBootstrap, h.rootSsh, paths,
    ⟨rfl, h.paths.2⟩, h.paths.1, ids, ⟨rfl, fun id hid => (h.artifacts id hid).1⟩,
    fun id hid => (h.artifacts id hid).2, encrypted, ⟨rfl, h.encrypted⟩, decrypted,
    ⟨rfl, h.decrypted⟩, rfl⟩
  · exact fun name hname => (Dict.mem_keys_ofList _ name).mp hname
  · exact not_or.mpr ⟨fun hbad => Bool.false_ne_true (hbad.symm.trans h.releaseId), hid⟩
  · exact congrArg Json.string h.product
  · exact fun hbad => Bool.false_ne_true (hbad.symm.trans h.version)
  · exact congrArg Json.string h.archiveFormat

/-- The loop over releases keeps what is accepted together. -/
theorem foldlM_loadRelease (artifacts : List String) (items : List Json)
    (parsed releases : List ReleaseManifest)
    (hparsed : (∀ release ∈ parsed, release.WellFormed artifacts) ∧
      (parsed.map ReleaseManifest.releaseId).Nodup)
    (h : items.foldlM (loadRelease artifacts) parsed = .ok releases) :
    ((∀ release ∈ releases, release.WellFormed artifacts) ∧
      (releases.map ReleaseManifest.releaseId).Nodup) ∧
      releases.length = parsed.length + items.length := by
  induction items generalizing parsed with
  | nil =>
      rw [List.foldlM_nil, pure_ok_iff] at h
      exact ⟨h ▸ hparsed, by rw [← h]; rfl⟩
  | cons item rest ih =>
      rw [List.foldlM_cons, bind_ok_iff] at h
      rcases h with ⟨mid, hitem, hrest⟩
      rcases loadRelease_wellFormed artifacts parsed mid item hitem with ⟨release, rfl, hwell, hnew⟩
      have hmid : (∀ r ∈ parsed ++ [release], r.WellFormed artifacts) ∧
          ((parsed ++ [release]).map ReleaseManifest.releaseId).Nodup := by
        constructor
        · intro r hr
          rcases List.mem_append.mp hr with hold | hlast
          · exact hparsed.1 r hold
          · exact List.mem_singleton.mp hlast ▸ hwell
        · rw [List.map_append, List.map_singleton, List.nodup_append]
          exact ⟨hparsed.2, List.nodup_singleton _, fun id hid other hother heq =>
            hnew (List.mem_singleton.mp hother ▸ heq ▸ hid)⟩
      rcases ih _ hmid hrest with ⟨hgood, hlength⟩
      refine ⟨hgood, ?_⟩
      rw [hlength, List.length_append, List.length_singleton, List.length_cons]
      omega

theorem foldlM_documents (artifacts : List String) (releases parsed : List ReleaseManifest)
    (hwell : ∀ release ∈ releases, release.WellFormed artifacts)
    (hnodup : ((parsed ++ releases).map ReleaseManifest.releaseId).Nodup) :
    (releases.map releaseDocument).foldlM (loadRelease artifacts) parsed =
      .ok (parsed ++ releases) := by
  induction releases generalizing parsed with
  | nil => rw [List.map_nil, List.foldlM_nil, List.append_nil]; rfl
  | cons release rest ih =>
      rw [List.forall_mem_cons] at hwell
      have hnew : release.releaseId ∉ parsed.map ReleaseManifest.releaseId := by
        rw [List.map_append, List.map_cons, List.nodup_append] at hnodup
        exact fun hmem => hnodup.2.2 _ hmem _ List.mem_cons_self rfl
      rw [List.map_cons, List.foldlM_cons, loadRelease_document artifacts parsed release hwell.1 hnew,
        ok_bind, ih (parsed ++ [release]) hwell.2 (by rwa [List.append_assoc]), List.append_assoc,
        List.singleton_append]

theorem loadReleaseManifest_loadable (artifacts : List String) (source : Json)
    (releases : List ReleaseManifest) (h : loadReleaseManifest artifacts source = .ok releases) :
    Loadable artifacts releases := by
  unfold loadReleaseManifest at h
  split at h
  · rw [bind_ok_iff] at h
    rcases h with ⟨-, -, h⟩
    split at h
    · split at h
      · next items _ =>
        rw [bind_ok_iff] at h
        rcases h with ⟨u, hitems, hloop⟩
        rw [raiseIf_ok_iff, List.isEmpty_iff, ← List.length_eq_zero_iff] at hitems
        rcases foldlM_loadRelease artifacts items [] releases
          ⟨fun release h => absurd h List.not_mem_nil, List.nodup_nil⟩ hloop with
          ⟨⟨hwell, hnodup⟩, hlength⟩
        rw [List.length_nil, Nat.zero_add] at hlength
        exact ⟨fun hempty => hitems (hlength ▸ List.length_eq_zero_iff.mpr hempty), hwell, hnodup⟩
      · exact absurd h (by simp only [reduceCtorEq, not_false_eq_true])
    · exact absurd h (by simp only [reduceCtorEq, not_false_eq_true])
  · exact absurd h (by simp only [reduceCtorEq, not_false_eq_true])

theorem loadReleaseManifest_document (artifacts : List String) (releases : List ReleaseManifest)
    (h : Loadable artifacts releases) :
    loadReleaseManifest artifacts (releaseManifestDocument releases) = .ok releases := by
  have hfields : ∀ u, manifestFields (Dict.ofList
      [("manifest_version", Json.int 1), ("releases", .array (releases.map releaseDocument))])
      rootFields "root" = .ok u := by
    intro u
    rw [manifestFields_ok_iff]
    exact fun name hname => (Dict.mem_keys_ofList _ name).mp hname
  have hitems : ¬ (releases.map releaseDocument).isEmpty = true := by
    rw [List.isEmpty_iff, List.map_eq_nil_iff]
    exact h.nonempty
  simp only [loadReleaseManifest, releaseManifestDocument, bind_ok_iff]
  refine ⟨(), hfields (), ?_⟩
  rw [getField_ofList, getField_ofList]
  -- Both members are there once.
  show (do
    raiseIf ((releases.map releaseDocument).isEmpty = true)
      (.valueError "release manifest releases must be a non-empty array")
    (releases.map releaseDocument).foldlM (loadRelease artifacts) []) = Except.ok releases
  simp only [bind_ok_iff]
  exact ⟨(), (raiseIf_ok_iff _ _ _).mpr hitems,
    foldlM_documents artifacts releases [] h.wellFormed h.nodup⟩

/-- What comes out of the loader for some document, and what it makes of a
    document for that. -/
theorem loadReleaseManifest_iff (artifacts : List String) (releases : List ReleaseManifest) :
    ((∃ source, loadReleaseManifest artifacts source = .ok releases) ↔
        Loadable artifacts releases) ∧
      (Loadable artifacts releases →
        loadReleaseManifest artifacts (releaseManifestDocument releases) = .ok releases) := by
  have hdocument := loadReleaseManifest_document artifacts releases
  refine ⟨⟨?_, fun h => ⟨_, hdocument h⟩⟩, hdocument⟩
  rintro ⟨source, h⟩
  exact loadReleaseManifest_loadable artifacts source releases h

/-! ### What is selected -/

theorem releaseById_iff (releaseId : String) (releases : List ReleaseManifest)
    (hnodup : (releases.map ReleaseManifest.releaseId).Nodup) (release : ReleaseManifest) :
    releaseById releaseId releases = .ok release ↔
      release ∈ releases ∧ release.releaseId = releaseId := by
  unfold releaseById
  constructor
  · intro h
    split at h
    · next found hfound =>
      have hid := List.find?_some hfound
      rw [← Except.ok.inj h]
      exact ⟨List.mem_of_find?_eq_some hfound, of_decide_eq_true hid⟩
    · exact absurd h (by simp only [reduceCtorEq, not_false_eq_true])
  · rintro ⟨hmem, rfl⟩
    split
    · next found hfound =>
      have hid := List.find?_some hfound
      exact congrArg Except.ok (List.inj_on_of_nodup_map hnodup
        (List.mem_of_find?_eq_some hfound) hmem (of_decide_eq_true hid))
    · next hnone =>
      exact absurd (decide_eq_true rfl) (List.find?_eq_none.mp hnone release hmem)

theorem releaseByInputSha256_iff (digest : String) (releases : List ReleaseManifest)
    (hnodup : releases.Nodup) (release : ReleaseManifest) :
    releaseByInputSha256 digest releases = .ok release ↔
      release ∈ releases ∧ release.records digest = true ∧
        ∀ other ∈ releases, other.records digest = true → other = release := by
  have hmem : ∀ r, r ∈ releases.filter (fun release => release.records digest) ↔
      r ∈ releases ∧ r.records digest = true := fun r => List.mem_filter
  have hfilter := hnodup.filter fun release => release.records digest
  rcases hmatched : releases.filter (fun release => release.records digest) with
    _ | ⟨first, _ | ⟨second, rest⟩⟩
  · rw [hmatched] at hmem
    simp only [releaseByInputSha256, hmatched, reduceCtorEq, false_iff]
    exact fun h => absurd ((hmem release).mpr ⟨h.1, h.2.1⟩) List.not_mem_nil
  · rw [hmatched] at hmem
    simp only [releaseByInputSha256, hmatched, Except.ok.injEq]
    constructor
    · rintro rfl
      rcases (hmem first).mp List.mem_cons_self with ⟨hin, hrecords⟩
      exact ⟨hin, hrecords, fun other hother h =>
        List.mem_singleton.mp ((hmem other).mpr ⟨hother, h⟩)⟩
    · rintro ⟨hin, hrecords, -⟩
      exact (List.mem_singleton.mp ((hmem release).mpr ⟨hin, hrecords⟩)).symm
  · rw [hmatched] at hmem hfilter
    simp only [releaseByInputSha256, hmatched, reduceCtorEq, false_iff]
    rintro ⟨-, -, honly⟩
    -- Two releases that both are the only one would be the same.
    rcases (hmem first).mp List.mem_cons_self with ⟨hfirst, hrf⟩
    rcases (hmem second).mp (List.mem_cons_of_mem _ List.mem_cons_self) with ⟨hsecond, hrs⟩
    have heq := (honly first hfirst hrf).trans (honly second hsecond hrs).symm
    exact (List.nodup_cons.mp hfilter).1 (heq ▸ List.mem_cons_self)

end Zd1200
