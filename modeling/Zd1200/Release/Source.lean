import Zd1200.Release.Manifest
import Zd1200.Release.Members
import Zd1200.Release.Tac

/-!
# What a Bundle Is Built Of

The beginning of `build_zd1200_bundle.py`: how a release is selected for an
input, and what has to be true of the input before anything is taken out of it.

An input is the download as the vendor encrypts it, or the archive that is
inside. The first three bytes tell them apart. The download has to have the
recorded digest, and so has the archive, whichever way it was come by. Then the
members are gone over, and the metadata is compared.

`bundleSource_correct` says what all this amounts to, and that the download and
its archive are as good as one another.

The digest and the reader of archives are parameters.

## Main definitions

* `parseMetadata`: The metadata of an archive.
* `verifyEncryptedInput`, `verifyDecryptedArchive`: The checks.
* `bundleSource`: The release and the archive for an input.
* `Verified`: What is true of an archive that was verified.

## Theorems

* `bundleSource_correct`: When there is something to build a bundle of.
-/

namespace Zd1200

/-! ### Metadata -/

/-- The line ends of `str.splitlines` that are ASCII. -/
def isLineEnd (c : Char) : Bool :=
  c ∈ ['\n', '\r', '\x0b', '\x0c', '\x1c', '\x1d', '\x1e']

/-- `text.splitlines()`, in the middle of a line. -/
def splitlines (line : Text) : Text → List Text
  | [] => if line = [] then [] else [line]
  | '\r' :: '\n' :: rest => line :: splitlines [] rest
  | c :: rest => if isLineEnd c then line :: splitlines [] rest else splitlines (line ++ [c]) rest

/-- `raw.decode("ascii")`. -/
def decodeAscii (raw : Bytes) : Option Text :=
  if raw.all fun b => b < 128 then some (raw.map fun b => Char.ofNat b.toNat) else none

/-- One round of the loop over lines. -/
def metadataLine (values : Dict String String) (line : Text) :
    Except PyError (Dict String String) := do
  if line = [] then
    return values
  else do
    let key := line.takeWhile (· ≠ '=')
    raiseIf ('=' ∉ line ∨ key = []) (.valueError "metadata has an invalid line")
    return values.insert (String.ofList key) (String.ofList (line.drop (key.length + 1)))

def parseMetadata (raw : Bytes) : Except PyError (Dict String String) :=
  match decodeAscii raw with
  | some text => (splitlines [] text).foldlM metadataLine Dict.empty
  | none => .error (.valueError "metadata is not ASCII")

/-! ### The checks -/

section Verify

variable (sha256 : Bytes → String) (readTar : Bytes → Option (List TarMember))

def verifyEncryptedInput (input : Bytes) (release : ReleaseManifest) : Except PyError String :=
  match release.encryptedSha256 with
  | none => .error (.valueError s!"{release.releaseId}: no encrypted input hash is recorded")
  | some recorded => do
      let actualHash := sha256 input
      raiseIf (actualHash ≠ recorded)
        (.valueError s!"{release.releaseId}: encrypted SHA-256 mismatch: {actualHash}")
      return actualHash

/-- The result of `verify_decrypted_archive`. -/
structure VerifiedArchive where
  releaseId : String
  sha256 : String
  members : Nat
  metadata : Dict String String
  deriving DecidableEq, Repr

/-- `item.rstrip("/") in names`. -/
def hasPath (names : List Text) (item : String) : Bool := rstripSlash item.toList ∈ names

def reprOption (value : Option String) : String :=
  match value with
  | some text => reprText text.toList
  | none => "None"

def verifyDecryptedArchive (archive : Bytes) (release : ReleaseManifest) :
    Except PyError VerifiedArchive :=
  match release.decryptedSha256 with
  | none => .error (.valueError s!"{release.releaseId}: no decrypted archive hash is recorded")
  | some recorded => do
      let actualHash := sha256 archive
      raiseIf (actualHash ≠ recorded)
        (.valueError s!"{release.releaseId}: decrypted SHA-256 mismatch: {actualHash}")
      match readTar archive with
      | none => .error (.valueError s!"{release.releaseId}: not a readable gzip TAR archive")
      | some members => do
          let seen ← checkMembers members
          let missing := release.requiredPaths.filter fun item => !hasPath seen.names item
          raiseIf (missing ≠ [])
            (.valueError (s!"{release.releaseId}: archive lacks required paths: " ++
              ", ".intercalate missing))
          match seen.metadataRaw with
          | none => .error (.valueError s!"{release.releaseId}: archive lacks metadata")
          | some raw => do
              let metadata ← parseMetadata raw
              let mismatch := release.metadata.entries.filter fun item =>
                metadata.lookup item.1 ≠ some item.2
              raiseIf (mismatch ≠ [])
                (.valueError (s!"{release.releaseId}: metadata mismatch: " ++
                  ", ".intercalate (mismatch.map fun item =>
                    item.1 ++ "=" ++ reprOption (metadata.lookup item.1))))
              return ⟨release.releaseId, actualHash, seen.names.length, metadata⟩

/-! ### The source of a bundle -/

inductive InputKind
  | decryptedGzipTar
  | encryptedTac
  deriving DecidableEq, Repr

/-- What a bundle is built of. -/
structure BundleSource where
  release : ReleaseManifest
  inputKind : InputKind
  archive : Bytes
  verified : VerifiedArchive

def isGzip (input : Bytes) : Bool := [0x1f, 0x8b, 0x08].isPrefixOf input

/-- `decrypt_file` from the input into a file of an empty directory. -/
def decryptInput (input : Bytes) : Option Bytes :=
  let r : Decryption := ⟨false, input.length, input, "decrypted.img.tgz", "0"⟩
  match decryptFile r ⟨fun _ => none, 0, fun _ => none⟩ with
  | (.ok _, w) => w.files r.name
  | (.error _, _) => none

/-- The release of the option, if it is given, and else that of the input. -/
def selectRelease (releases : List ReleaseManifest) (option : String) (input : Bytes) :
    Except PyError ReleaseManifest :=
  if option ≠ "" then releaseById option releases
  else releaseByInputSha256 (sha256 input) releases

/-- The release and the archive for an input, if nothing is wrong with them. -/
def bundleSource (releases : List ReleaseManifest) (option : String) (input : Bytes) :
    Option BundleSource := do
  let release ← (selectRelease sha256 releases option input).toOption
  if isGzip input then do
    let verified ← (verifyDecryptedArchive sha256 readTar input release).toOption
    return ⟨release, .decryptedGzipTar, input, verified⟩
  else do
    let _ ← (verifyEncryptedInput sha256 input release).toOption
    let archive ← decryptInput input
    let verified ← (verifyDecryptedArchive sha256 readTar archive release).toOption
    return ⟨release, .encryptedTac, archive, verified⟩

end Verify

/-! ### The members of a verified archive -/

/-- With names of their own there is at most one `metadata`. -/
theorem metadataContents_eq_some_iff (pairs : List (TarMember × Text))
    (hnodup : (pairs.map Prod.snd).Nodup) (raw : Bytes) :
    metadataContents none pairs = some raw ↔
      ∃ member, (member, "metadata".toList) ∈ pairs ∧ member.contents = raw := by
  have hkept : ∀ (pairs : List (TarMember × Text)) (before : Option Bytes),
      "metadata".toList ∉ pairs.map Prod.snd → metadataContents before pairs = before := by
    intro pairs
    induction pairs with
    | nil => exact fun _ _ => rfl
    | cons pair rest ih =>
        intro before hnot
        rw [List.map_cons, List.mem_cons, not_or] at hnot
        rw [metadataContents, if_neg (Ne.symm hnot.1), ih before hnot.2]
  induction pairs with
  | nil =>
      simp only [metadataContents, reduceCtorEq, List.not_mem_nil, false_and, exists_false]
  | cons pair rest ih =>
      rcases pair with ⟨member, name⟩
      rw [List.map_cons, List.nodup_cons] at hnodup
      rw [metadataContents]
      by_cases hname : name = "metadata".toList
      · rw [if_pos hname, hkept rest _ (hname ▸ hnodup.1), Option.some.injEq]
        constructor
        · rintro rfl
          exact ⟨member, hname ▸ List.mem_cons_self, rfl⟩
        · rintro ⟨other, hmem, rfl⟩
          rcases List.mem_cons.mp hmem with heq | hrest
          · rw [(Prod.mk.inj heq).1]
          · exact absurd (List.mem_map_of_mem hrest) (hname ▸ hnodup.1)
      · rw [if_neg hname]
        refine (ih hnodup.2).trans ?_
        constructor
        · rintro ⟨other, hmem, heq⟩
          exact ⟨other, List.mem_cons_of_mem _ hmem, heq⟩
        · rintro ⟨other, hmem, heq⟩
          refine ⟨other, (List.mem_cons.mp hmem).resolve_left fun hsame => ?_, heq⟩
          exact hname (Prod.mk.inj hsame).2.symm

/-! ### What is true of a source -/

section Verified

variable (sha256 : Bytes → String) (readTar : Bytes → Option (List TarMember))

/-- An archive of a release, with the members that are in it, the names they are
    accepted under, and the metadata. -/
structure Verified (archive : Bytes) (release : ReleaseManifest) (members : List TarMember)
    (names : List Text) (metadata : Dict String String) : Prop where
  digest : release.decryptedSha256 = some (sha256 archive)
  readable : readTar archive = some members
  accepted : List.Forall₂ MemberOk members names
  nodup : names.Nodup
  paths : ∀ item ∈ release.requiredPaths, rstripSlash item.toList ∈ names
  metadataMember : ∃ member, (member, "metadata".toList) ∈ members.zip names ∧
    parseMetadata member.contents = .ok metadata
  values : ∀ item ∈ release.metadata.entries, metadata.lookup item.1 = some item.2

theorem verifyEncryptedInput_ok_iff (input : Bytes) (release : ReleaseManifest) (digest : String) :
    verifyEncryptedInput sha256 input release = .ok digest ↔
      release.encryptedSha256 = some (sha256 input) ∧ digest = sha256 input := by
  unfold verifyEncryptedInput
  split
  · next hnone => simp only [reduceCtorEq, hnone, false_and]
  · next recorded hsome =>
    simp only [bind_ok_iff, raiseIf_ok_iff, exists_const, pure_ok_iff, ne_eq, not_not, hsome,
      Option.some.injEq]
    exact ⟨fun h => ⟨h.1.symm, h.2.symm⟩, fun h => ⟨h.1.symm, h.2.symm⟩⟩

theorem verifyDecryptedArchive_ok_iff (archive : Bytes) (release : ReleaseManifest)
    (result : VerifiedArchive) :
    verifyDecryptedArchive sha256 readTar archive release = .ok result ↔
      ∃ members names metadata, Verified sha256 readTar archive release members names metadata ∧
        result = ⟨release.releaseId, sha256 archive, names.length, metadata⟩ := by
  have hpaths : ∀ names : List Text,
      (release.requiredPaths.filter fun item => !hasPath names.reverse item) = [] ↔
        ∀ item ∈ release.requiredPaths, rstripSlash item.toList ∈ names := by
    intro names
    simp only [List.filter_eq_nil_iff, hasPath, List.mem_reverse, Bool.not_eq_true',
      decide_eq_false_iff_not, not_not]
  have hvalues : ∀ metadata : Dict String String,
      (release.metadata.entries.filter fun item => decide (metadata.lookup item.1 ≠ some item.2)) = [] ↔
        ∀ item ∈ release.metadata.entries, metadata.lookup item.1 = some item.2 := by
    intro metadata
    simp only [List.filter_eq_nil_iff, decide_eq_true_eq, ne_eq, not_not]
  constructor
  · intro h
    unfold verifyDecryptedArchive at h
    split at h
    · exact absurd h (by simp only [reduceCtorEq, not_false_eq_true])
    · next recorded hrecorded =>
      simp only [bind_ok_iff, raiseIf_ok_iff, exists_const, ne_eq, not_not] at h
      rcases h with ⟨hdigest, h⟩
      split at h
      · exact absurd h (by simp only [reduceCtorEq, not_false_eq_true])
      · next members hread =>
        simp only [bind_ok_iff, raiseIf_ok_iff, exists_const, not_not] at h
        rcases h with ⟨seen, hseen, hmissing, h⟩
        rcases (foldlM_checkMember_iff members _ seen).mp hseen with
          ⟨names, haccepted, hnodup, -, rfl⟩
        simp only [List.append_nil] at hmissing h
        split at h
        · exact absurd h (by simp only [reduceCtorEq, not_false_eq_true])
        · next raw hraw =>
          simp only [bind_ok_iff, raiseIf_ok_iff, exists_const, pure_ok_iff, not_not] at h
          rcases h with ⟨metadata, hmetadata, hmismatch, rfl⟩
          have hzip : ((members.zip names).map Prod.snd).Nodup := by
            rw [List.map_snd_zip (haccepted.length_eq ▸ Nat.le_refl _)]
            exact hnodup
          rcases (metadataContents_eq_some_iff _ hzip raw).mp hraw with ⟨member, hmember, rfl⟩
          refine ⟨members, names, metadata, ?_, by rw [List.length_reverse]⟩
          exact
            { digest := by rw [hrecorded, hdigest]
              readable := hread
              accepted := haccepted
              nodup := hnodup
              paths := (hpaths names).mp hmissing
              metadataMember := ⟨member, hmember, hmetadata⟩
              values := (hvalues metadata).mp hmismatch }
  · rintro ⟨members, names, metadata, hverified, rfl⟩
    rcases hverified.metadataMember with ⟨member, hmember, hmetadata⟩
    have hzip : ((members.zip names).map Prod.snd).Nodup := by
      rw [List.map_snd_zip (hverified.accepted.length_eq ▸ Nat.le_refl _)]
      exact hverified.nodup
    have hraw := (metadataContents_eq_some_iff _ hzip member.contents).mpr ⟨member, hmember, rfl⟩
    have hseen : checkMembers members = .ok ⟨names.reverse, some member.contents⟩ := by
      refine (foldlM_checkMember_iff members _ _).mpr ⟨names, hverified.accepted, hverified.nodup,
        fun _ _ h => absurd h List.not_mem_nil, ?_⟩
      rw [hraw, List.append_nil]
    simp only [verifyDecryptedArchive, hverified.digest, hverified.readable, bind_ok_iff,
      raiseIf_ok_iff, exists_const, ne_eq, not_not, not_true_eq_false, not_false_eq_true, true_and]
    refine ⟨_, hseen, (hpaths names).mpr hverified.paths, ?_⟩
    simp only [bind_ok_iff, raiseIf_ok_iff, exists_const, pure_ok_iff, not_not]
    exact ⟨metadata, hmetadata, (hvalues metadata).mpr hverified.values, by
      rw [List.length_reverse]⟩

theorem toOption_eq_some {ε α : Type} (x : Except ε α) (a : α) :
    x.toOption = some a ↔ x = .ok a := by
  cases x with
  | error e => simp only [Except.toOption, reduceCtorEq]
  | ok b => simp only [Except.toOption, Option.some.injEq, Except.ok.injEq]

/-- The release of the option, or else the only one that records the digest of
    the input. -/
def Selected (releases : List ReleaseManifest) (option : String) (input : Bytes)
    (release : ReleaseManifest) : Prop :=
  release ∈ releases ∧
    if option ≠ "" then release.releaseId = option
    else release.records (sha256 input) = true ∧
      ∀ other ∈ releases, other.records (sha256 input) = true → other = release

/-- Where the archive of a source is from. -/
def Origin (input : Bytes) (source : BundleSource) : Prop :=
  if isGzip input = true then source.inputKind = .decryptedGzipTar ∧ source.archive = input
  else source.inputKind = .encryptedTac ∧
    source.release.encryptedSha256 = some (sha256 input) ∧
    decryptInput input = some source.archive

variable {artifacts : List String} {releases : List ReleaseManifest}
  (hreleases : Loadable artifacts releases)

include hreleases

theorem selectRelease_ok_iff (option : String) (input : Bytes) (release : ReleaseManifest) :
    selectRelease sha256 releases option input = .ok release ↔
      Selected sha256 releases option input release := by
  unfold selectRelease Selected
  by_cases hoption : option ≠ ""
  · rw [if_pos hoption, if_pos hoption]
    exact releaseById_iff option releases hreleases.nodup release
  · rw [if_neg hoption, if_neg hoption]
    exact releaseByInputSha256_iff (sha256 input) releases hreleases.nodup.of_map release

/-- A source is there exactly for the inputs that are what the manifest says:
    the download and its archive have the digests of the selected release, and
    in the archive there are only acceptable members, the required ones among
    them, and the metadata. -/
theorem bundleSource_some_iff (option : String) (input : Bytes) (source : BundleSource) :
    bundleSource sha256 readTar releases option input = some source ↔
      Selected sha256 releases option input source.release ∧ Origin sha256 input source ∧
        ∃ members names metadata,
          Verified sha256 readTar source.archive source.release members names metadata ∧
            source.verified =
              ⟨source.release.releaseId, sha256 source.archive, names.length, metadata⟩ := by
  rcases source with ⟨release, kind, archive, verified⟩
  rw [Origin]
  by_cases hgzip : isGzip input = true
  · rw [if_pos hgzip]
    simp only [bundleSource, if_pos hgzip, bind, Option.bind_eq_some_iff, toOption_eq_some, pure,
      Option.some.injEq, selectRelease_ok_iff sha256 hreleases, verifyDecryptedArchive_ok_iff]
    constructor
    · rintro ⟨release, hselected, verified, ⟨members, names, metadata, hverified, rfl⟩, ⟨⟩⟩
      exact ⟨hselected, ⟨rfl, rfl⟩, members, names, metadata, hverified, rfl⟩
    · rintro ⟨hselected, ⟨rfl, rfl⟩, members, names, metadata, hverified, rfl⟩
      exact ⟨release, hselected, _, ⟨members, names, metadata, hverified, rfl⟩, rfl⟩
  · rw [if_neg hgzip]
    simp only [bundleSource, if_neg hgzip, bind, Option.bind_eq_some_iff, toOption_eq_some, pure,
      Option.some.injEq, selectRelease_ok_iff sha256 hreleases, verifyEncryptedInput_ok_iff,
      verifyDecryptedArchive_ok_iff]
    constructor
    · rintro ⟨release, hselected, _, ⟨hencrypted, -⟩, archive, hdecrypted, verified,
        ⟨members, names, metadata, hverified, rfl⟩, ⟨⟩⟩
      exact ⟨hselected, ⟨rfl, hencrypted, hdecrypted⟩, members, names, metadata, hverified, rfl⟩
    · rintro ⟨hselected, ⟨rfl, hencrypted, hdecrypted⟩, members, names, metadata, hverified, rfl⟩
      exact ⟨release, hselected, _, ⟨hencrypted, rfl⟩, archive, hdecrypted, _,
        ⟨members, names, metadata, hverified, rfl⟩, rfl⟩

/-- What is built of a download is built of the archive inside as well, unless
    no release was asked for and a second one records the archive. -/
theorem bundleSource_archive (hgzip : ∀ archive members, readTar archive = some members →
      isGzip archive = true) (option : String) (input : Bytes) (source : BundleSource)
    (hsource : bundleSource sha256 readTar releases option input = some source) :
    bundleSource sha256 readTar releases option source.archive =
      if option = "" ∧ ∃ other ∈ releases, other.records (sha256 source.archive) = true ∧
          other ≠ source.release then none
      else some { source with inputKind := .decryptedGzipTar } := by
  have hiff := bundleSource_some_iff sha256 readTar hreleases option source.archive
  rcases (bundleSource_some_iff sha256 readTar hreleases option input source).mp hsource with
    ⟨hselected, -, members, names, metadata, hverified, hresult⟩
  have hmagic := hgzip source.archive members hverified.readable
  have hrecords : ∀ release : ReleaseManifest,
      release.decryptedSha256 = some (sha256 source.archive) →
      release.records (sha256 source.archive) = true := by
    intro release h
    rw [ReleaseManifest.records, h, decide_eq_true rfl, Bool.or_true]
  split
  · next hsecond =>
    rcases hsecond with ⟨hoption, other, hother, hdigest, hne⟩
    rcases hnone : bundleSource sha256 readTar releases option source.archive with _ | found
    · rfl
    · -- Both releases would be the one that was selected.
      rcases (hiff found).mp hnone with ⟨⟨-, hfound⟩, -⟩
      rw [if_neg (not_not.mpr hoption)] at hfound
      have hsame := hfound.2 source.release hselected.1 (hrecords _ hverified.digest)
      exact absurd ((hfound.2 other hother hdigest).trans hsame.symm) hne
  · next honly =>
    refine (hiff _).mpr ⟨⟨hselected.1, ?_⟩, ?_, members, names, metadata, hverified, hresult⟩
    · by_cases hoption : option ≠ ""
      · have h := hselected.2
        rw [if_pos hoption] at h ⊢
        exact h
      · rw [if_neg hoption]
        refine ⟨hrecords _ hverified.digest, fun other hother hdigest => ?_⟩
        by_contra hne
        exact honly ⟨not_not.mp hoption, other, hother, hdigest, hne⟩
    · rw [Origin, if_pos hmagic]
      exact ⟨rfl, rfl⟩

/-- There is something to build a bundle of exactly for the inputs that are what
    the manifest says, and then the download is as good as its archive. -/
theorem bundleSource_correct (hgzip : ∀ archive members, readTar archive = some members →
      isGzip archive = true) (option : String) (input : Bytes) (source : BundleSource) :
    (bundleSource sha256 readTar releases option input = some source ↔
      Selected sha256 releases option input source.release ∧ Origin sha256 input source ∧
        ∃ members names metadata,
          Verified sha256 readTar source.archive source.release members names metadata ∧
            source.verified =
              ⟨source.release.releaseId, sha256 source.archive, names.length, metadata⟩) ∧
      (bundleSource sha256 readTar releases option input = some source →
        bundleSource sha256 readTar releases option source.archive =
          if option = "" ∧ ∃ other ∈ releases, other.records (sha256 source.archive) = true ∧
              other ≠ source.release then none
          else some { source with inputKind := .decryptedGzipTar }) :=
  ⟨bundleSource_some_iff sha256 readTar hreleases option input source,
    bundleSource_archive sha256 readTar hreleases hgzip option input source⟩

end Verified

/-- A release whose archive has the digest of zeros. -/
def zeroRelease : ReleaseManifest where
  releaseId := "zd1200_0"
  product := "zd1200"
  version := "10.5.1.0"
  build := 282
  supportStatus := "known"
  encryptedSha256 := none
  decryptedSha256 := some (String.ofList (List.replicate 64 '0'))
  archiveFormat := "gzip_tar"
  metadata := Dict.ofList [("VERSION", "10.5.1.0")]
  requiredPaths := ["metadata"]
  artifactIds := []
  features := Dict.ofList
    [("runtime_ftp_bootstrap", "vendor_state"), ("runtime_root_ssh", "not_supported")]

theorem loadable_zeroRelease : Loadable [] [zeroRelease] where
  nonempty := List.cons_ne_nil _ _
  nodup := List.nodup_singleton _
  wellFormed := fun release h => by
    rw [List.mem_singleton.mp h]
    exact
      { releaseId := by decide +kernel
        product := rfl
        version := by decide +kernel
        supportStatus := List.mem_cons_self
        encrypted := fun digest h => absurd h (by simp only [zeroRelease, Option.mem_def,
          reduceCtorEq, not_false_eq_true])
        decrypted := fun digest h => by
          rw [← Option.some.inj h]
          decide +kernel
        archiveFormat := rfl
        ftpBootstrap := ⟨"vendor_state", by decide +kernel⟩
        rootSsh := ⟨"not_supported", by decide +kernel⟩
        paths := ⟨List.cons_ne_nil _ _, fun path h => by
          rw [List.mem_singleton.mp h]
          decide⟩
        artifacts := fun id h => absurd h List.not_mem_nil }

/-- The digest of the one archive, and a reader that knows it. -/
def zeroSha256 (file : Bytes) : String :=
  String.ofList (List.replicate 64 (if file = [0x1f, 0x8b, 8] then '0' else '1'))

def zeroReader (file : Bytes) : Option (List TarMember) :=
  if file = [0x1f, 0x8b, 8] then
    some [⟨"metadata".toList, .file, [],
      "VERSION=10.5.1.0\n".toList.map fun c => c.toNat.toUInt8⟩]
  else none

def zeroSource : BundleSource where
  release := zeroRelease
  inputKind := .decryptedGzipTar
  archive := [0x1f, 0x8b, 8]
  verified := ⟨"zd1200_0", String.ofList (List.replicate 64 '0'), 1, (Dict.ofList [("VERSION", "10.5.1.0")])⟩

/-- An archive without a download. -/
theorem bundleSource_correct_archive :
    (bundleSource zeroSha256 zeroReader [zeroRelease] "" [0x1f, 0x8b, 8] = some zeroSource ↔
      Selected zeroSha256 [zeroRelease] "" [0x1f, 0x8b, 8] zeroRelease ∧
        Origin zeroSha256 [0x1f, 0x8b, 8] zeroSource ∧
        ∃ members names metadata,
          Verified zeroSha256 zeroReader [0x1f, 0x8b, 8] zeroRelease members names metadata ∧
            zeroSource.verified =
              ⟨zeroRelease.releaseId, zeroSha256 [0x1f, 0x8b, 8], names.length, metadata⟩) ∧
      (bundleSource zeroSha256 zeroReader [zeroRelease] "" [0x1f, 0x8b, 8] = some zeroSource →
        bundleSource zeroSha256 zeroReader [zeroRelease] "" [0x1f, 0x8b, 8] =
          if "" = "" ∧ ∃ other ∈ [zeroRelease], other.records (zeroSha256 [0x1f, 0x8b, 8]) = true ∧
              other ≠ zeroRelease then none
          else some { zeroSource with inputKind := .decryptedGzipTar }) := by
  refine bundleSource_correct zeroSha256 zeroReader loadable_zeroRelease ?_ "" [0x1f, 0x8b, 8]
    zeroSource
  intro archive members h
  rw [zeroReader] at h
  split at h
  · next harchive =>
    rw [harchive]
    rfl
  · exact absurd h (by simp only [reduceCtorEq, not_false_eq_true])

example : (bundleSource zeroSha256 zeroReader [zeroRelease] "" [0x1f, 0x8b, 8]).map
    BundleSource.verified = some zeroSource.verified := by decide +kernel

end Zd1200
