import Mathlib.Data.List.Sort
import Zd1200.Host.Signature
import Zd1200.Lib.Redirect

/-!
# The Prepared Runtime

The script `prepare-compose-runtime.sh`, which fills the runtime directory with
what is built from a vendor archive.

A run that finds the fingerprint of an archive beside the two boot files takes
the directory as it is if the fingerprint is that of its own archive, and
refuses if it is not. Otherwise it builds everything elsewhere, empties the
directory, and fills it file by file. The fingerprint is the last file but one.

So a fingerprint seals a directory that is complete. This is the invariant
`Sealed`, and it holds wherever a run is killed. It carries both halves: what a
run accepts is complete, and what a run does not find sealed it fills again.
The fingerprint itself is written in place. A run that is killed while it is
written leaves a seal that is not whole, and nothing that runs later can tell
it from the seal of another archive.

The programs that make the bundle are a parameter. What else they depend on,
such as the date in a certificate, is the number of the event. The files that
are made under `/tmp` and removed are left out.

## Main definitions

* `RuntimeFile`: The files of the runtime directory.
* `PrepareEvent`: A run that may be killed.
* `prepareRuntime`: The script.
* `Sealed`: A fingerprint is beside a complete output.
* `Prepared`: The complete output of an archive.
* `TornFingerprint`: Killed while the fingerprint is written.

## Theorems

* `triple_fillRuntime`: What is there wherever the filling is stopped.
* `prepareStep_spec`: One run keeps the invariant, and a success is complete.
* `prepareRuntime_recovers`: Sequences of runs, and a run behind them.
* `prepareRuntime_refuses`: A run behind that of another archive, and one behind
  a fingerprint that is not whole.
-/

namespace Zd1200

open Script

/-! ### The script -/

/-- The files of the directory `image` of a bundle, as `build_bundle` fills it. -/
inductive ImageFile
  | restoreInitrd
  | rootfs
  | bzImage
  | vmlinux
  | bootInitrd
  | payload
  deriving DecidableEq

def ImageFile.all : List ImageFile := [restoreInitrd, rootfs, bzImage, vmlinux, bootInitrd, payload]

def ImageFile.text : ImageFile → String
  | restoreInitrd => "restoreinitramfs.gz"
  | rootfs => "rootfs.ext2"
  | bzImage => "bzImage"
  | vmlinux => "vmlinux"
  | bootInitrd => "bootinitramfs.gz"
  | payload => "zd-payload.tar.gz"

/-- The files of the runtime directory. -/
inductive RuntimeFile
  | image (file : ImageFile)
  | buildReport
  | sourceSha256
  | sourceName
  | preparationInput
  | virtualBuildIdTmp
  | virtualBuildId
  deriving DecidableEq

def RuntimeFile.text : RuntimeFile → String
  | image file => file.text
  | buildReport => "build-report.json"
  | sourceSha256 => "source-archive.sha256"
  | sourceName => "source-archive.name"
  | preparationInput => "preparation-input.sha256"
  | virtualBuildIdTmp => "virtual-build-id.tmp"
  | virtualBuildId => "virtual-build-id"

def RuntimeFile.all : List RuntimeFile :=
  ImageFile.all.map image ++
    [buildReport, sourceSha256, sourceName, preparationInput, virtualBuildIdTmp, virtualBuildId]

theorem ImageFile.mem_all (file : ImageFile) : file ∈ ImageFile.all := by
  cases file <;> decide

theorem RuntimeFile.mem_all (file : RuntimeFile) : file ∈ RuntimeFile.all := by
  cases file with
  | image file => exact List.mem_append_left _ (List.mem_map_of_mem (ImageFile.mem_all file))
  | _ => exact List.mem_append_right _ (by decide)

/-- No file of the bundle has the name of a file that the script writes itself. -/
theorem RuntimeFile.text_injective (file file' : RuntimeFile) (h : file.text = file'.text) :
    file = file' := by
  have hall : ∀ f ∈ RuntimeFile.all, ∀ g ∈ RuntimeFile.all, f.text = g.text → f = g := by decide
  exact hall file (mem_all file) file' (mem_all file') h

/-- What the builder leaves: the files of `image`, and the report it prints. -/
structure RuntimeBundle where
  image : ImageFile → Option Bytes
  report : Bytes

/-- A run of the script: `ZD_VENDOR_ARCHIVE`, the contents of the file of that
    name, what `resolve-source-revision.sh` prints, the order in which
    directories are read, and after how many commands the run is killed. -/
structure PrepareEvent where
  archiveName : Bytes
  /-- A value of the environment has no zero byte. -/
  noNul : (0 : UInt8) ∉ archiveName
  archive : Option Bytes
  revision : Option Bytes
  nonce : Nat
  order : RuntimeFile → Nat
  steps : Nat

/-- `safe_basename`. -/
def safeBasename (name : Bytes) : Bool :=
  name ≠ [] ∧ name ≠ [46] ∧ name ≠ [46, 46] ∧ (47 : UInt8) ∉ name

/-- `$vendor_dir/$archive_name`. -/
def archivePath (name : Bytes) : Bytes := ascii "/vendor/" ++ name

/-- What is at the front of the script: the archive and the virtual build id. -/
def prepareInput (e : PrepareEvent) : Option (Bytes × Bytes) :=
  if safeBasename e.archiveName then
    e.archive.bind fun contents => e.revision.map fun revision => (contents, revision)
  else none

section Prepare

variable (digest : Bytes → Bytes) (build : Nat → Bytes → Bytes → Option RuntimeBundle)

/-- `input_fingerprint`. -/
def inputFingerprint (name contents : Bytes) : Bytes :=
  commandOutput (sumLine digest (archivePath name) contents ++ [10])

/-- `write_virtual_build_id`. -/
def writeVirtualBuildId (revision : Bytes) : Script (Files RuntimeFile UInt8) :=
  (redirect .virtualBuildIdTmp (revision ++ [10])).seq
    (Script.cmd (moveFile .virtualBuildIdTmp .virtualBuildId))

/-- The files by which a directory is known to be ready. -/
def isReady (files : Files RuntimeFile UInt8) : Bool :=
  (files.lookup .preparationInput).isSome && (files.lookup (.image .bzImage)).isSome &&
    (files.lookup (.image .bootInitrd)).isSome

def inReadOrder (e : PrepareEvent) (names : List RuntimeFile) : List RuntimeFile :=
  names.insertionSort fun a b => e.order a ≤ e.order b

/-- `find "$runtime_dir" … -exec rm -rf -- {} +`. -/
def emptyRuntime (e : PrepareEvent) : Script (Files RuntimeFile UInt8) :=
  Script.dyn fun files =>
    Script.forEach (inReadOrder e files.keys) fun name => Script.act fun s => s.erase name

/-- `cp -a` of one file. -/
def copyImage (bundle : RuntimeBundle) (name : RuntimeFile) : Script (Files RuntimeFile UInt8) :=
  match name with
  | .image file =>
      match bundle.image file with
      | some contents => redirect (.image file) contents
      | none => Script.skip
  | _ => Script.skip

/-- `cp -a "$temporary/extracted/image/."`. -/
def copyImages (e : PrepareEvent) (bundle : RuntimeBundle) : Script (Files RuntimeFile UInt8) :=
  Script.forEach (inReadOrder e (ImageFile.all.map .image)) (copyImage bundle)

/-- From the removal of the old files to the end. -/
def fillRuntime (e : PrepareEvent) (contents revision : Bytes) (bundle : RuntimeBundle) :
    Script (Files RuntimeFile UInt8) :=
  (emptyRuntime e).seq <| (copyImages e bundle).seq <|
  (redirect .buildReport bundle.report).seq <|
  (redirect .sourceSha256 (sumLine digest (archivePath e.archiveName) contents ++ [10])).seq <|
  (redirect .sourceName (e.archiveName ++ [10])).seq <|
  (redirect .preparationInput (inputFingerprint digest e.archiveName contents ++ [10])).seq
  (writeVirtualBuildId revision)

/-- The bundle has a kernel and an initramfs. -/
def RuntimeBundle.isBootable (bundle : RuntimeBundle) : Bool :=
  (bundle.image .bzImage).isSome && (bundle.image .bootInitrd).isSome

/-- The bundle that a run fills the directory with, if it comes to that. -/
def runtimeBundle (e : PrepareEvent) (contents : Bytes) : Option RuntimeBundle :=
  (build e.nonce (archivePath e.archiveName) contents).filter RuntimeBundle.isBootable

/-- The script. -/
def prepareRuntime (e : PrepareEvent) : Script (Files RuntimeFile UInt8) :=
  match prepareInput e with
  | none => Script.cmd fun _ => none
  | some (contents, revision) => Script.dyn fun files =>
      if isReady files then
        if (files.lookup .preparationInput).map commandOutput
            = some (inputFingerprint digest e.archiveName contents) then
          writeVirtualBuildId revision
        else Script.cmd fun _ => none
      else
        match runtimeBundle build e contents with
        | none => Script.cmd fun _ => none
        | some bundle => fillRuntime digest e contents revision bundle

/-- The directory after a run. -/
def prepareStep (files : Files RuntimeFile UInt8) (e : PrepareEvent) : Files RuntimeFile UInt8 :=
  ((prepareRuntime digest build e).run e.steps files).1

/-- The run exits with success. -/
def preparesWell (files : Files RuntimeFile UInt8) (e : PrepareEvent) : Bool :=
  ((prepareRuntime digest build e).run e.steps files).2.isSome

/-! ### What a directory should hold -/

/-- The complete output for an archive. -/
def preparedFile (name contents revision : Bytes) (bundle : RuntimeBundle) :
    RuntimeFile → Option Bytes
  | .image file => bundle.image file
  | .buildReport => some bundle.report
  | .sourceSha256 => some (sumLine digest (archivePath name) contents ++ [10])
  | .sourceName => some (name ++ [10])
  | .preparationInput => some (inputFingerprint digest name contents ++ [10])
  | .virtualBuildIdTmp => none
  | .virtualBuildId => some (revision ++ [10])

/-- The files that are there before the fingerprint is. -/
def isSealed : RuntimeFile → Bool
  | .preparationInput => false
  | .virtualBuildIdTmp => false
  | .virtualBuildId => false
  | _ => true

/-- The sealed files are those that are built from an archive. -/
def HoldsOutput (name contents : Bytes) (files : Files RuntimeFile UInt8) : Prop :=
  ∃ nonce bundle revision, build nonce (archivePath name) contents = some bundle ∧
    bundle.isBootable = true ∧ ∀ file, isSealed file = true →
      files.lookup file = preparedFile digest name contents revision bundle file

/-- A fingerprint is beside the output for an archive of some event, and is a
    front part of the fingerprint of that archive. Under `whole` it is all of
    it. -/
def Sealed (whole : Prop) (events : List PrepareEvent) (files : Files RuntimeFile UInt8) : Prop :=
  ∀ text, files.lookup .preparationInput = some text →
    ∃ e ∈ events, ∃ contents revision, prepareInput e = some (contents, revision) ∧
      text <+: inputFingerprint digest e.archiveName contents ++ [10] ∧
      (whole → commandOutput text = inputFingerprint digest e.archiveName contents) ∧
      HoldsOutput digest build e.archiveName contents files

/-- The directory holds the complete output for the archive of a run. Under
    `whole` the name of the source is that of the archive, too. -/
def Prepared (whole : Prop) (e : PrepareEvent) (files : Files RuntimeFile UInt8) : Prop :=
  ∃ contents revision, prepareInput e = some (contents, revision) ∧
    ∃ name nonce bundle, (whole → name = e.archiveName) ∧
      build nonce (archivePath name) contents = some bundle ∧ bundle.isBootable = true ∧
      (files.lookup .preparationInput).map commandOutput
        = some (inputFingerprint digest e.archiveName contents) ∧
      ∀ file, file ≠ .preparationInput →
        files.lookup file = preparedFile digest name contents revision bundle file

/-- A run is killed while it writes the fingerprint, which is then not whole. -/
def TornFingerprint (files : Files RuntimeFile UInt8) (e : PrepareEvent) : Prop :=
  ∃ contents revision, prepareInput e = some (contents, revision) ∧
    ∃ text, (prepareStep digest build files e).lookup .preparationInput = some text ∧
      files.lookup .preparationInput ≠ some text ∧
      commandOutput text ≠ inputFingerprint digest e.archiveName contents

/-! ### Fingerprints -/

section Fingerprints

variable {digest} (hdigest : HexDigest digest)

include hdigest

theorem sumLine_archive {name : Bytes} (hname : (0 : UInt8) ∉ name) (contents : Bytes) :
    ∀ c ∈ sumLine digest (archivePath name) contents, c ≠ 0 ∧ c ≠ 10 := by
  have hpath : (0 : UInt8) ∉ archivePath name := by
    rw [archivePath, List.mem_append, not_or]
    exact ⟨by decide, hname⟩
  refine fun c hc => ⟨?_, ?_⟩
  · rintro rfl
    exact sumLine_noNul digest hdigest _ contents hpath hc
  · rintro rfl
    exact sumLine_noNewline digest hdigest _ contents hc

/-- The fingerprint of an archive is its line. -/
theorem inputFingerprint_eq {name : Bytes} (hname : (0 : UInt8) ∉ name) (contents : Bytes) :
    inputFingerprint digest name contents = sumLine digest (archivePath name) contents := by
  rw [inputFingerprint, commandOutput_line,
    commandOutput_eq_self _ (sumLine_archive hdigest hname contents)]

/-- What is read of a front part of a fingerprint is a front part of it. -/
theorem commandOutput_fingerprint_front {name : Bytes} (hname : (0 : UInt8) ∉ name)
    (contents text : Bytes) (hpre : text <+: inputFingerprint digest name contents ++ [10]) :
    commandOutput text <+: inputFingerprint digest name contents := by
  have hline := sumLine_archive hdigest hname contents
  rw [inputFingerprint_eq hdigest hname] at hpre ⊢
  rcases List.prefix_concat_iff.mp hpre with rfl | hpre
  · rw [commandOutput_line, commandOutput_eq_self _ hline]
  · rw [commandOutput_eq_self text fun c hc => hline c (hpre.subset hc)]
    exact hpre

/-- A fingerprint that another one begins with is of the same contents. -/
theorem contents_of_fingerprint_front {name name' contents contents' : Bytes}
    (hname : (0 : UInt8) ∉ name) (hname' : (0 : UInt8) ∉ name') {texts : List Bytes}
    (happart : TellsApart digest texts) (hmem : contents ∈ texts) (hmem' : contents' ∈ texts)
    (hpre : inputFingerprint digest name contents <+: inputFingerprint digest name' contents') :
    contents = contents' := by
  rw [inputFingerprint_eq hdigest hname, inputFingerprint_eq hdigest hname'] at hpre
  exact happart _ hmem _ hmem' (digest_of_sumLine_front digest hdigest _ _ _ _ hpre)

/-- A fingerprint shows the name. -/
theorem name_of_fingerprint {name name' contents contents' : Bytes}
    (hname : (0 : UInt8) ∉ name) (hname' : (0 : UInt8) ∉ name')
    (heq : inputFingerprint digest name contents = inputFingerprint digest name' contents') :
    name = name' := by
  rw [inputFingerprint_eq hdigest hname, inputFingerprint_eq hdigest hname'] at heq
  exact List.append_cancel_left (sumLine_injective digest hdigest _ _ _ _ heq).1

end Fingerprints

/-! ### Filling the directory -/

/-- The directory holds these files and no others. -/
def Holds (g : RuntimeFile → Option Bytes) (files : Files RuntimeFile UInt8) : Prop :=
  ∀ file, files.lookup file = g file

theorem Holds.insert {g : RuntimeFile → Option Bytes} {files : Files RuntimeFile UInt8}
    (h : Holds g files) (name : RuntimeFile) (contents : Bytes) :
    Holds (Function.update g name (some contents)) (files.insert name contents) := by
  intro file
  by_cases hfile : file = name
  · rw [hfile, AList.lookup_insert, Function.update_self]
  · rw [AList.lookup_insert_ne hfile, Function.update_of_ne hfile, h file]

/-- As far as there is a fingerprint, it is that of the output beside it. -/
def SealsOutput (name contents revision : Bytes) (bundle : RuntimeBundle)
    (files : Files RuntimeFile UInt8) : Prop :=
  ∀ text, files.lookup .preparationInput = some text →
    text <+: inputFingerprint digest name contents ++ [10] ∧
      ∀ file, isSealed file = true →
        files.lookup file = preparedFile digest name contents revision bundle file

section Filling

variable {digest} {name contents revision : Bytes} {bundle : RuntimeBundle}

theorem SealsOutput.of_none {files : Files RuntimeFile UInt8}
    (h : files.lookup .preparationInput = none) :
    SealsOutput digest name contents revision bundle files := by
  intro text htext
  rw [h] at htext
  exact absurd htext (by simp only [reduceCtorEq, not_false_eq_true])

/-- A file in front of the fingerprint. -/
theorem triple_early (g : RuntimeFile → Option Bytes) (hg : g .preparationInput = none)
    (file : RuntimeFile) (hfile : file ≠ .preparationInput) (text : Bytes) :
    Triple (Holds g) (redirect file text) (Holds (Function.update g file (some text)))
      (SealsOutput digest name contents revision bundle) := by
  refine Triple.redirect _ _ (fun s hs => ?_) (fun s hs part _ => ?_) fun s hs =>
    hs.insert file text
  · exact SealsOutput.of_none ((hs _).trans hg)
  · exact SealsOutput.of_none (by rw [AList.lookup_insert_ne hfile.symm, hs, hg])

theorem triple_emptyRuntime (e : PrepareEvent) :
    Triple (fun s => s.lookup .preparationInput = none) (emptyRuntime e) (Holds fun _ => none)
      (SealsOutput digest name contents revision bundle) := by
  refine Triple.dyn _ fun files hfiles => ?_
  -- What is there is still to be removed.
  refine (Triple.forEach (inReadOrder e files.keys) _
    (fun rest s => s.lookup .preparationInput = none ∧
      ∀ file, s.lookup file ≠ none → file ∈ rest) fun file rest => ?_).weaken _ ?_ ?_ fun _ h => h
  · refine Triple.act _ (fun s hs => SealsOutput.of_none hs.1) fun s hs =>
      ⟨?_, fun other hother => ?_⟩
    · by_cases hfile : RuntimeFile.preparationInput = file
      · rw [hfile, AList.lookup_erase]
      · rw [AList.lookup_erase_ne hfile, hs.1]
    · by_cases hfile : other = file
      · rw [hfile, AList.lookup_erase] at hother
        exact absurd rfl hother
      · rw [AList.lookup_erase_ne hfile] at hother
        exact List.mem_of_ne_of_mem hfile (hs.2 other hother)
  · rintro s rfl
    refine ⟨hfiles, fun file hfile => (List.perm_insertionSort _ _).mem_iff.mpr ?_⟩
    exact AList.lookup_isSome.mp (Option.isSome_iff_ne_none.mpr hfile)
  · rintro s ⟨-, hs⟩ file
    by_contra hfile
    exact absurd (hs file hfile) List.not_mem_nil

/-- Only the files of the bundle. -/
def imageFiles (bundle : RuntimeBundle) : RuntimeFile → Option Bytes
  | .image file => bundle.image file
  | _ => none

/-- A file of the bundle is there, or is still to be copied. -/
structure ImagesLeft (bundle : RuntimeBundle) (rest : List RuntimeFile)
    (files : Files RuntimeFile UInt8) : Prop where
  images : ∀ file, files.lookup (.image file) = bundle.image file ∨
    (RuntimeFile.image file ∈ rest ∧ files.lookup (.image file) = none)
  others : ∀ file, (∀ i, file ≠ .image i) → files.lookup file = none

theorem triple_copyImage (file : RuntimeFile) (rest : List RuntimeFile) :
    Triple (ImagesLeft bundle (file :: rest)) (copyImage bundle file) (ImagesLeft bundle rest)
      (SealsOutput digest name contents revision bundle) := by
  have hnone : ∀ s, ImagesLeft bundle (file :: rest) s → s.lookup .preparationInput = none :=
    fun s hs => hs.others _ fun i => by simp only [ne_eq, reduceCtorEq, not_false_eq_true]
  -- Without a file of the bundle there is nothing to copy.
  have hskip : (∀ i, file = .image i → bundle.image i = none) →
      Triple (ImagesLeft bundle (file :: rest)) Script.skip (ImagesLeft bundle rest)
        (SealsOutput digest name contents revision bundle) := by
    refine fun hfile => Triple.skip fun s hs => ⟨fun i => ?_, hs.others⟩
    rcases hs.images i with himage | ⟨hmem, himage⟩
    · exact Or.inl himage
    · rcases List.mem_cons.mp hmem with heq | hmem
      · exact Or.inl (himage.trans (hfile i heq.symm).symm)
      · exact Or.inr ⟨hmem, himage⟩
  unfold copyImage
  split
  · next i =>
    split
    · next text htext =>
      refine Triple.redirect _ _ (fun s hs => SealsOutput.of_none (hnone s hs))
        (fun s hs part _ => SealsOutput.of_none ?_) fun s hs =>
          ⟨fun j => ?_, fun other hother => ?_⟩
      · rw [AList.lookup_insert_ne (by simp only [ne_eq, reduceCtorEq, not_false_eq_true]),
          hnone s hs]
      · by_cases hj : j = i
        · exact Or.inl (by rw [hj, AList.lookup_insert, htext])
        · have hne : RuntimeFile.image j ≠ .image i := fun h => hj (RuntimeFile.image.inj h)
          rw [AList.lookup_insert_ne hne]
          exact (hs.images j).imp_right fun h => ⟨List.mem_of_ne_of_mem hne h.1, h.2⟩
      · rw [AList.lookup_insert_ne (hother i), hs.others other hother]
    · next htext =>
      refine hskip fun j hj => ?_
      rw [← RuntimeFile.image.inj hj]
      exact htext
  · next hfile => exact hskip fun i hi => absurd hi (hfile i)

theorem triple_copyImages (e : PrepareEvent) :
    Triple (Holds fun _ => none) (copyImages e bundle) (Holds (imageFiles bundle))
      (SealsOutput digest name contents revision bundle) := by
  refine (Triple.forEach (inReadOrder e (ImageFile.all.map .image)) _ (ImagesLeft bundle)
    triple_copyImage).weaken _ (fun s hs => ⟨fun file => Or.inr ⟨?_, hs _⟩, fun file _ => hs file⟩)
    (fun s hs file => ?_) fun _ h => h
  · exact (List.perm_insertionSort _ _).mem_iff.mpr (List.mem_map_of_mem (ImageFile.mem_all file))
  · cases file with
    | image file =>
        rcases hs.images file with himage | ⟨hmem, -⟩
        · exact himage
        · exact absurd hmem List.not_mem_nil
    | _ => exact hs.others _ fun i => by simp only [ne_eq, reduceCtorEq, not_false_eq_true]

/-- The virtual build id is new, and the files of the output are as they were. -/
structure IdWritten (revision : Bytes) (files files' : Files RuntimeFile UInt8) : Prop where
  id : files'.lookup .virtualBuildId = some (revision ++ [10])
  temporary : files'.lookup .virtualBuildIdTmp = none
  others : ∀ file, file ≠ .virtualBuildIdTmp → file ≠ .virtualBuildId →
    files'.lookup file = files.lookup file

/-- Directories that differ in the files of the virtual build id only. -/
def SameOutput (files files' : Files RuntimeFile UInt8) : Prop :=
  ∀ file, file ≠ .virtualBuildIdTmp → file ≠ .virtualBuildId →
    files'.lookup file = files.lookup file

theorem triple_writeVirtualBuildId (revision : Bytes) (files : Files RuntimeFile UInt8) :
    Triple (fun s => s = files) (writeVirtualBuildId revision) (IdWritten revision files)
      (SameOutput files) := by
  have hinsert : ∀ part, SameOutput files (files.insert .virtualBuildIdTmp part) :=
    fun part file htmp _ => AList.lookup_insert_ne htmp
  refine Triple.seq _ _
    (Triple.redirect (Q := fun s => s = files.insert .virtualBuildIdTmp (revision ++ [10])) _ _
      ?_ ?_ ?_) (Triple.cmd _ ?_ ?_)
  · rintro s rfl file - -
    rfl
  · rintro s rfl part -
    exact hinsert part
  · rintro s rfl
    rfl
  · rintro s rfl
    exact hinsert _
  · rintro s s' rfl hmove
    rcases lookup_moveFile _ _ (by decide) _ _ hmove with ⟨hid, htmp, hothers⟩
    refine ⟨by rw [hid, AList.lookup_insert], htmp, fun file hne hne' => ?_⟩
    rw [hothers file hne hne', hinsert _ file hne hne']

variable (digest) in
/-- What is there before the fingerprint is. -/
def outputFiles (name contents : Bytes) (bundle : RuntimeBundle) : RuntimeFile → Option Bytes :=
  Function.update
    (Function.update
      (Function.update (imageFiles bundle) .buildReport (some bundle.report)) .sourceSha256
      (some (sumLine digest (archivePath name) contents ++ [10])))
    .sourceName (some (name ++ [10]))

theorem outputFiles_sealed (name contents revision : Bytes) (bundle : RuntimeBundle)
    (file : RuntimeFile) (h : isSealed file = true) :
    outputFiles digest name contents bundle file
      = preparedFile digest name contents revision bundle file := by
  cases file with
  | preparationInput => exact absurd h (by decide)
  | virtualBuildIdTmp => exact absurd h (by decide)
  | virtualBuildId => exact absurd h (by decide)
  | _ => rfl

/-- A fingerprint, as far as it is written, over the output. -/
theorem SealsOutput.of_output {files : Files RuntimeFile UInt8}
    (h : Holds (outputFiles digest name contents bundle) files) (part : Bytes)
    (hpart : part <+: inputFingerprint digest name contents ++ [10]) :
    SealsOutput digest name contents revision bundle (files.insert .preparationInput part) := by
  intro text htext
  rw [AList.lookup_insert, Option.some.injEq] at htext
  refine ⟨htext ▸ hpart, fun file hfile => ?_⟩
  have hne : file ≠ .preparationInput := by
    rintro rfl
    exact absurd hfile (by decide)
  rw [AList.lookup_insert_ne hne, h file, outputFiles_sealed _ _ _ _ file hfile]

/-- The files of the virtual build id are not sealed. -/
theorem SealsOutput.congr {files files' : Files RuntimeFile UInt8}
    (h : SealsOutput digest name contents revision bundle files) (hsame : SameOutput files files') :
    SealsOutput digest name contents revision bundle files' := by
  intro text htext
  rw [hsame _ (by decide) (by decide)] at htext
  refine ⟨(h text htext).1, fun file hfile => ?_⟩
  rw [hsame file (by rintro rfl; exact absurd hfile (by decide))
    (by rintro rfl; exact absurd hfile (by decide))]
  exact (h text htext).2 file hfile

variable (digest) in
/-- The fingerprint is there only over the complete output. -/
theorem triple_fillRuntime (e : PrepareEvent) (contents revision : Bytes) (bundle : RuntimeBundle) :
    Triple (fun s => s.lookup .preparationInput = none)
      (fillRuntime digest e contents revision bundle)
      (Holds (preparedFile digest e.archiveName contents revision bundle))
      (SealsOutput digest e.archiveName contents revision bundle) := by
  refine Triple.seq _ _ (triple_emptyRuntime e) <| Triple.seq _ _ (triple_copyImages e) <|
    Triple.seq _ _ (triple_early _ rfl _ (by decide) _) <|
    Triple.seq _ _ (triple_early _ rfl _ (by decide) _) <|
    Triple.seq _ _ (triple_early _ rfl _ (by decide) _) <|
    Triple.seq _ _
      (Triple.redirect (Q := fun s => ∃ s', s = s'.insert .preparationInput
        (inputFingerprint digest e.archiveName contents ++ [10]) ∧
          Holds (outputFiles digest e.archiveName contents bundle) s') _ _
        (fun s hs => SealsOutput.of_none (hs _)) (fun s hs part hpart => ?_)
        fun s hs => ⟨s, rfl, hs⟩) ?_
  · exact SealsOutput.of_output hs part hpart
  · -- The virtual build id is written over a whole fingerprint.
    rintro s ⟨s', rfl, hs⟩ k
    refine ((triple_writeVirtualBuildId revision _).weaken _ (fun _ h => h) (fun t ht file => ?_)
      fun t ht => (SealsOutput.of_output hs _ (List.prefix_refl _)).congr ht) _ rfl k
    cases file with
    | virtualBuildId => exact ht.id
    | virtualBuildIdTmp => exact ht.temporary
    | preparationInput => rw [ht.others _ (by decide) (by decide), AList.lookup_insert]; rfl
    | _ =>
        rw [ht.others _ (by simp only [ne_eq, reduceCtorEq, not_false_eq_true])
          (by simp only [ne_eq, reduceCtorEq, not_false_eq_true]),
          AList.lookup_insert_ne (by simp only [ne_eq, reduceCtorEq, not_false_eq_true]), hs]
        rfl

end Filling

/-! ### One run -/

variable {digest build} {whole : Prop} {events : List PrepareEvent}

/-- A sealed directory is ready. -/
theorem Sealed.ready {files : Files RuntimeFile UInt8}
    (h : Sealed digest build whole events files) {text : Bytes}
    (htext : files.lookup .preparationInput = some text) : isReady files = true := by
  rcases h text htext with ⟨e, -, contents, revision, -, -, -, nonce, bundle, revision', -, hboot,
    hfiles⟩
  have hboot := Bool.and_eq_true_iff.mp hboot
  rw [isReady, htext, hfiles _ rfl, hfiles _ rfl]
  exact Bool.and_eq_true_iff.mpr ⟨Bool.and_eq_true_iff.mpr ⟨rfl, hboot.1⟩, hboot.2⟩

/-- What a run comes to: nothing, a new virtual build id, or a new output. -/
theorem prepareRuntime_cases (files : Files RuntimeFile UInt8) (e : PrepareEvent) (k : Nat) :
    (prepareRuntime digest build e).run k files = (files, none) ∨
    ∃ contents revision, prepareInput e = some (contents, revision) ∧
      ((isReady files = true ∧ (files.lookup .preparationInput).map commandOutput
            = some (inputFingerprint digest e.archiveName contents) ∧
          (prepareRuntime digest build e).run k files
            = (writeVirtualBuildId revision).run k files) ∨
        (isReady files = false ∧ ∃ bundle, runtimeBundle build e contents = some bundle ∧
          (prepareRuntime digest build e).run k files
            = (fillRuntime digest e contents revision bundle).run k files)) := by
  rcases hinput : prepareInput e with _ | ⟨contents, revision⟩
  · refine Or.inl ?_
    unfold prepareRuntime
    rw [hinput]
    exact run_failing _ _
  · unfold prepareRuntime
    simp only [hinput, Script.run]
    rcases hready : isReady files with _ | _
    · rcases hbundle : runtimeBundle build e contents with _ | bundle
      · refine Or.inl ?_
        simp only [Bool.false_eq_true, if_false]
        exact run_failing _ _
      · refine Or.inr ⟨contents, revision, rfl, Or.inr ⟨rfl, bundle, hbundle, ?_⟩⟩
        simp only [Bool.false_eq_true, if_false]
    · by_cases hsame : (files.lookup .preparationInput).map commandOutput
          = some (inputFingerprint digest e.archiveName contents)
      · refine Or.inr ⟨contents, revision, rfl, Or.inl ⟨rfl, hsame, ?_⟩⟩
        simp only [if_true, hsame]
      · refine Or.inl ?_
        simp only [if_true, if_neg hsame]
        exact run_failing _ _

/-- A directory with a new virtual build id is sealed as it was. -/
theorem Sealed.congr {files files' : Files RuntimeFile UInt8}
    (h : Sealed digest build whole events files) (hsame : SameOutput files files') :
    Sealed digest build whole events files' := by
  intro text htext
  rw [hsame _ (by decide) (by decide)] at htext
  rcases h text htext with ⟨e, he, contents, revision, hinput, hpre, hwhole, nonce, bundle,
    revision', hbuild, hboot, hfiles⟩
  refine ⟨e, he, contents, revision, hinput, hpre, hwhole, nonce, bundle, revision', hbuild, hboot,
    fun file hfile => ?_⟩
  rw [hsame file (by rintro rfl; exact absurd hfile (by decide))
    (by rintro rfl; exact absurd hfile (by decide))]
  exact hfiles file hfile

/-- What a run leaves that fills the directory. -/
theorem SealsOutput.sealed {e : PrepareEvent} (he : e ∈ events) {contents revision : Bytes}
    (hinput : prepareInput e = some (contents, revision)) {bundle : RuntimeBundle}
    (hbundle : runtimeBundle build e contents = some bundle) {files : Files RuntimeFile UInt8}
    (h : SealsOutput digest e.archiveName contents revision bundle files)
    (hwhole : whole → ∀ text, files.lookup .preparationInput = some text →
      commandOutput text = inputFingerprint digest e.archiveName contents) :
    Sealed digest build whole events files := by
  intro text htext
  rcases Option.filter_eq_some_iff.mp hbundle with ⟨hbuild, hboot⟩
  exact ⟨e, he, contents, revision, hinput, (h text htext).1, fun hw => hwhole hw text htext,
    e.nonce, bundle, revision, hbuild, hboot, (h text htext).2⟩

theorem prepareInput_archive {e : PrepareEvent} {contents revision : Bytes}
    (h : prepareInput e = some (contents, revision)) : e.archive = some contents := by
  unfold prepareInput at h
  split at h
  · rcases Option.bind_eq_some_iff.mp h with ⟨text, harchive, h⟩
    rcases Option.map_eq_some_iff.mp h with ⟨id, -, h⟩
    rw [harchive, (Prod.mk.inj h).1]
  · exact absurd h (by simp only [reduceCtorEq, not_false_eq_true])

/-- A directory whose seal is that of the archive is taken as it is. -/
theorem Sealed.prepared (hdigest : HexDigest digest)
    (happart : TellsApart digest (events.filterMap PrepareEvent.archive))
    {files files' : Files RuntimeFile UInt8} (h : Sealed digest build whole events files)
    {e : PrepareEvent} (he : e ∈ events) {contents revision : Bytes}
    (hinput : prepareInput e = some (contents, revision))
    (hsame : (files.lookup .preparationInput).map commandOutput
      = some (inputFingerprint digest e.archiveName contents))
    (hid : IdWritten revision files files') : Prepared digest build whole e files' := by
  rcases Option.map_eq_some_iff.mp hsame with ⟨text, htext, hread⟩
  rcases h text htext with ⟨e', he', contents', revision', hinput', hpre, hwhole, nonce, bundle,
    revision'', hbuild, hboot, hfiles⟩
  have hmem : ∀ f ∈ events, ∀ c r, prepareInput f = some (c, r) →
      c ∈ events.filterMap PrepareEvent.archive := fun f hf c r hc =>
    List.mem_filterMap.mpr ⟨f, hf, prepareInput_archive hc⟩
  have hcontents : contents = contents' := by
    refine contents_of_fingerprint_front hdigest e.noNul e'.noNul happart
      (hmem e he _ _ hinput) (hmem e' he' _ _ hinput') ?_
    rw [← hread]
    exact commandOutput_fingerprint_front hdigest e'.noNul contents' text hpre
  refine ⟨contents, revision, hinput, e'.archiveName, nonce, bundle, fun hw => ?_,
    hcontents ▸ hbuild, hboot, ?_, fun file hfile => ?_⟩
  · exact name_of_fingerprint hdigest e'.noNul e.noNul ((hwhole hw).symm.trans hread)
  · rw [hid.others _ (by decide) (by decide)]
    exact hsame
  · cases file with
    | preparationInput => exact absurd rfl hfile
    | virtualBuildIdTmp => exact hid.temporary
    | virtualBuildId => exact hid.id
    | _ =>
        rw [hid.others _ (by simp only [ne_eq, reduceCtorEq, not_false_eq_true])
          (by simp only [ne_eq, reduceCtorEq, not_false_eq_true]), hfiles _ rfl, hcontents]
        rfl

/-- A directory that a run has filled to the end. -/
theorem Holds.prepared (hdigest : HexDigest digest) {e : PrepareEvent} {contents revision : Bytes}
    (hinput : prepareInput e = some (contents, revision)) {bundle : RuntimeBundle}
    (hbundle : runtimeBundle build e contents = some bundle) {files : Files RuntimeFile UInt8}
    (h : Holds (preparedFile digest e.archiveName contents revision bundle) files) :
    Prepared digest build whole e files := by
  rcases Option.filter_eq_some_iff.mp hbundle with ⟨hbuild, hboot⟩
  refine ⟨contents, revision, hinput, e.archiveName, e.nonce, bundle, fun _ => rfl, hbuild, hboot,
    ?_, fun file _ => h file⟩
  rw [h, preparedFile, Option.map_some, commandOutput_line, inputFingerprint_eq hdigest e.noNul,
    commandOutput_eq_self _ (sumLine_archive hdigest e.noNul contents)]

/-- One run keeps the directory sealed, and a success leaves the complete
    output. -/
theorem prepareStep_spec (hdigest : HexDigest digest)
    (happart : TellsApart digest (events.filterMap PrepareEvent.archive))
    {files : Files RuntimeFile UInt8} (hfiles : Sealed digest build whole events files)
    {e : PrepareEvent} (he : e ∈ events) (hnot : whole → ¬ TornFingerprint digest build files e) :
    Sealed digest build whole events (prepareStep digest build files e) ∧
      (preparesWell digest build files e = true →
        Prepared digest build whole e (prepareStep digest build files e)) := by
  unfold preparesWell
  rcases prepareRuntime_cases files e e.steps with hrun | ⟨contents, revision, hinput,
    ⟨hready, hsame, hrun⟩ | ⟨hready, bundle, hbundle, hrun⟩⟩
  · rw [prepareStep, hrun]
    exact ⟨hfiles, fun h => absurd h (by simp only [Option.isSome_none, Bool.false_eq_true,
      not_false_eq_true])⟩
  · have hends := triple_writeVirtualBuildId revision files files rfl e.steps
    rw [prepareStep, hrun]
    generalize (writeVirtualBuildId revision).run e.steps files = r at hends
    rcases r with ⟨t, left⟩
    cases left with
    | some left =>
        exact ⟨hfiles.congr hends.others, fun _ =>
          hfiles.prepared hdigest happart he hinput hsame hends⟩
    | none =>
        exact ⟨hfiles.congr hends, fun h => absurd h (by simp only [Option.isSome_none,
          Bool.false_eq_true, not_false_eq_true])⟩
  · -- Without a seal the directory is filled, and there is a seal only over the output.
    have hnone : files.lookup .preparationInput = none := by
      rcases htext : files.lookup .preparationInput with _ | text
      · exact htext
      · exact absurd (hfiles.ready htext) (by rw [hready]; exact Bool.false_ne_true)
    have hwhole : whole → ∀ text,
        (prepareStep digest build files e).lookup .preparationInput = some text →
          commandOutput text = inputFingerprint digest e.archiveName contents := by
      intro hw text htext
      by_contra hne
      exact hnot hw ⟨contents, revision, hinput, text, htext, by
        rw [hnone]
        simp only [ne_eq, reduceCtorEq, not_false_eq_true], hne⟩
    have hends := triple_fillRuntime digest e contents revision bundle files hnone e.steps
    rw [prepareStep, hrun] at hwhole ⊢
    generalize (fillRuntime digest e contents revision bundle).run e.steps files = r at hends hwhole
    rcases r with ⟨t, left⟩
    cases left with
    | some left =>
        refine ⟨SealsOutput.sealed he hinput hbundle (fun text htext => ?_) hwhole, fun _ =>
          Holds.prepared hdigest hinput hbundle hends⟩
        rw [hends, preparedFile, Option.some.injEq] at htext
        exact ⟨htext ▸ List.prefix_refl _, fun file _ => hends file⟩
    | none =>
        exact ⟨SealsOutput.sealed he hinput hbundle hends hwhole, fun h => absurd h (by
          simp only [Option.isSome_none, Bool.false_eq_true, not_false_eq_true])⟩

/-! ### A run behind others -/

theorem yields_writeVirtualBuildId (revision : Bytes) :
    Yields (fun _ => True) (writeVirtualBuildId revision) fun _ => True := by
  refine Yields.seq _ _ (Yields.redirect (Q := fun s => (s.lookup .virtualBuildIdTmp).isSome = true)
    _ _ fun s _ => ?_) (Yields.cmd _ fun s hs => ?_)
  · rw [AList.lookup_insert, Option.isSome_some]
  · rcases Option.isSome_iff_exists.mp hs with ⟨text, htext⟩
    exact ⟨_, by rw [moveFile, htext, Option.map_some], trivial⟩

variable (digest) in
/-- Filling the directory cannot fail, wherever it begins. -/
theorem yields_fillRuntime (e : PrepareEvent) (contents revision : Bytes) (bundle : RuntimeBundle) :
    Yields (fun _ => True) (fillRuntime digest e contents revision bundle) fun _ => True := by
  have hredirect : ∀ file text, Yields (fun _ : Files RuntimeFile UInt8 => True)
      (redirect file text) fun _ => True := fun file text =>
    Yields.redirect _ _ fun _ _ => trivial
  have hremoved : Yields (fun _ => True) (emptyRuntime e) fun _ => True :=
    Yields.dyn _ fun files _ s _ => Yields.forEach _ _ (fun _ _ => True)
      (fun _ _ => Yields.act _ fun _ _ => trivial) s trivial
  have himages : Yields (fun _ => True) (copyImages e bundle) fun _ => True := by
    refine Yields.forEach _ _ (fun _ _ => True) fun file _ => ?_
    unfold copyImage
    split
    · split
      · exact hredirect _ _
      · exact Yields.skip fun _ _ => trivial
    · exact Yields.skip fun _ _ => trivial
  exact Yields.seq _ _ hremoved <| Yields.seq _ _ himages <|
    Yields.seq _ _ (hredirect _ _) <| Yields.seq _ _ (hredirect _ _) <|
    Yields.seq _ _ (hredirect _ _) <| Yields.seq _ _ (hredirect _ _) <|
    yields_writeVirtualBuildId revision

variable (build) in
/-- An archive that can be found and built. -/
def CanBePrepared (e : PrepareEvent) : Prop :=
  ∃ contents revision, prepareInput e = some (contents, revision) ∧
    (runtimeBundle build e contents).isSome = true

variable (digest build events) in
/-- The directory has the complete output for the archive of another event, and
    a run changes nothing and does not succeed. -/
def RefusesOther (files : Files RuntimeFile UInt8) (e : PrepareEvent) : Prop :=
  (∃ e' ∈ events, ∃ contents revision, prepareInput e' = some (contents, revision) ∧
    (e'.archiveName ≠ e.archiveName ∨ e'.archive ≠ e.archive) ∧
    HoldsOutput digest build e'.archiveName contents files) ∧
  ∀ k, (prepareRuntime digest build e).run k files = (files, none)

/-- Over a directory whose seal is whole a run finishes, or the seal is that of
    another archive. -/
theorem Sealed.recovers {files : Files RuntimeFile UInt8}
    (h : Sealed digest build True events files) {e : PrepareEvent} (he : CanBePrepared build e) :
    ((prepareRuntime digest build e).complete files).isSome = true ∨
      RefusesOther digest build events files e := by
  rcases he with ⟨contents, revision, hinput, hbundle⟩
  rcases Option.isSome_iff_exists.mp hbundle with ⟨bundle, hbundle⟩
  have hrun : (prepareRuntime digest build e) = Script.dyn fun files =>
      if isReady files then
        if (files.lookup .preparationInput).map commandOutput
            = some (inputFingerprint digest e.archiveName contents) then
          writeVirtualBuildId revision
        else Script.cmd fun _ => none
      else fillRuntime digest e contents revision bundle := by
    unfold prepareRuntime
    simp only [hinput, hbundle]
  rcases hready : isReady files with _ | _
  · -- The directory is filled.
    rcases yields_fillRuntime digest e contents revision bundle files trivial with
      ⟨files', hdone, -⟩
    refine Or.inl ?_
    rw [hrun]
    simp only [Script.complete, hready, Bool.false_eq_true, if_false]
    rw [hdone, Option.isSome_some]
  · by_cases hsame : (files.lookup .preparationInput).map commandOutput
        = some (inputFingerprint digest e.archiveName contents)
    · rcases yields_writeVirtualBuildId revision files trivial with ⟨files', hdone, -⟩
      refine Or.inl ?_
      rw [hrun]
      simp only [Script.complete, hready, if_true, hsame]
      rw [hdone, Option.isSome_some]
    · refine Or.inr ⟨?_, fun k => ?_⟩
      · rcases Option.isSome_iff_exists.mp
          (Bool.and_eq_true_iff.mp (Bool.and_eq_true_iff.mp hready).1).1 with ⟨text, htext⟩
        rcases h text htext with ⟨e', he', contents', revision', hinput', -, hwhole, houtput⟩
        refine ⟨e', he', contents', revision', hinput', ?_, houtput⟩
        by_contra hother
        rw [not_or, not_not, not_not] at hother
        -- With the same name and contents the seal would be that of the run.
        have hcontents : contents' = contents := Option.some.inj
          ((prepareInput_archive hinput').symm.trans (hother.2.trans (prepareInput_archive hinput)))
        exact hsame (by rw [htext, Option.map_some, hwhole trivial, hother.1, hcontents])
      · rw [hrun]
        simp only [Script.run, hready, if_true, if_neg hsame]
        exact run_failing _ _

end Prepare

/-- Runs that may be killed anywhere: every success leaves the complete output
    for the contents of the run's archive. If no run is killed while it writes
    the fingerprint, the source has the name of the archive, too, and a further
    run that is not killed succeeds with every archive that can be built, unless
    the directory has the complete output for another archive, which stays. -/
theorem prepareRuntime_recovers (digest : Bytes → Bytes) (hdigest : HexDigest digest)
    (build : Nat → Bytes → Bytes → Option RuntimeBundle) (events : List PrepareEvent)
    (happart : TellsApart digest (events.filterMap PrepareEvent.archive)) :
    Meets (prepareStep digest build) (fun files e => preparesWell digest build files e = true →
        Prepared digest build False e (prepareStep digest build files e)) ∅ events ∧
      (Meets (prepareStep digest build) (fun files e => ¬ TornFingerprint digest build files e)
          ∅ events →
        Meets (prepareStep digest build) (fun files e => preparesWell digest build files e = true →
            Prepared digest build True e (prepareStep digest build files e)) ∅ events ∧
          ∀ e, CanBePrepared build e →
            ((prepareRuntime digest build e).complete
              (events.foldl (prepareStep digest build) ∅)).isSome = true ∨
            RefusesOther digest build events (events.foldl (prepareStep digest build) ∅) e) := by
  have hevents := (meets_of_forall (prepareStep digest build) (· ∈ events) ∅ events).mpr
    fun _ he => he
  have hempty : ∀ whole, Sealed digest build whole events ∅ := fun whole text htext =>
    absurd htext (by simp only [AList.lookup_empty, reduceCtorEq, not_false_eq_true])
  refine ⟨?_, fun hmeets => ⟨?_, fun e he => Sealed.recovers ?_ he⟩⟩
  · exact Meets.of_invariant _ _ _ (Sealed digest build False events)
      (fun files e hfiles h => (prepareStep_spec hdigest happart hfiles h False.elim).1)
      (fun files e hfiles h => (prepareStep_spec hdigest happart hfiles h False.elim).2)
      ∅ events (hempty False) hevents
  · exact Meets.of_invariant _ _ _ (Sealed digest build True events)
      (fun files e hfiles h => (prepareStep_spec hdigest happart hfiles h.1 fun _ => h.2).1)
      (fun files e hfiles h => (prepareStep_spec hdigest happart hfiles h.1 fun _ => h.2).2)
      ∅ events (hempty True) (hevents.and hmeets)
  · exact invariant_of_meets _ _ (Sealed digest build True events)
      (fun files e hfiles h => (prepareStep_spec hdigest happart hfiles h.1 fun _ => h.2).1)
      ∅ events (hempty True) (hevents.and hmeets)

/-! ### Two archives -/

/-- A digest that tells two contents apart. -/
def twoDigest (text : Bytes) : Bytes :=
  if text = [1] then List.replicate 64 97 else List.replicate 64 98

theorem twoDigest_hex : HexDigest twoDigest := by
  unfold twoDigest
  refine ⟨fun text => ?_, fun text c hc => ?_⟩
  · split <;> exact List.length_replicate
  · split at hc <;> rw [List.eq_of_mem_replicate hc] <;> decide

/-- Every file of the bundle has the contents of the archive. -/
def twoBuild (_ : Nat) (_ contents : Bytes) : Option RuntimeBundle :=
  some ⟨fun _ => some contents, []⟩

def archiveRun (contents : Bytes) (steps : Nat) : PrepareEvent where
  archiveName := [97]
  noNul := by decide
  archive := some contents
  revision := some [48]
  nonce := 0
  order := fun _ => 0
  steps := steps

/-- A run that is killed in front of the fingerprint. -/
theorem prepareRuntime_recovers_killed :
    ((prepareRuntime twoDigest twoBuild (archiveRun [1] 0)).complete
        ([archiveRun [1] 90].foldl (prepareStep twoDigest twoBuild) ∅)).isSome = true ∨
      RefusesOther twoDigest twoBuild [archiveRun [1] 90]
        ([archiveRun [1] 90].foldl (prepareStep twoDigest twoBuild) ∅) (archiveRun [1] 0) :=
  ((prepareRuntime_recovers twoDigest twoDigest_hex twoBuild [archiveRun [1] 90] (by
      intro a ha b hb _
      rw [List.mem_singleton.mp ha, List.mem_singleton.mp hb])).2 ⟨by
        rintro ⟨contents, revision, -, text, htext, -, -⟩
        have hnone : (prepareStep twoDigest twoBuild ∅ (archiveRun [1] 90)).lookup .preparationInput
            = none := by decide +kernel
        rw [hnone] at htext
        exact absurd htext (by simp only [reduceCtorEq, not_false_eq_true]), trivial⟩).2
    (archiveRun [1] 0) ⟨[1], [48], by decide, by decide⟩

/-- A directory that is ready for one archive refuses another one, whose run was
    killed before it did anything. A fingerprint that is not whole refuses the
    archive that it is of. -/
theorem prepareRuntime_refuses :
    (((prepareRuntime twoDigest twoBuild (archiveRun [2] 0)).complete ∅).isSome = true ∧
      ((prepareRuntime twoDigest twoBuild (archiveRun [2] 0)).complete
        ([archiveRun [1] 174, archiveRun [2] 0].foldl (prepareStep twoDigest twoBuild) ∅)).isSome
          = false) ∧
    ((prepareRuntime twoDigest twoBuild (archiveRun [1] 0)).complete ∅).isSome = true ∧
      ((prepareRuntime twoDigest twoBuild (archiveRun [1] 0)).complete
        ([archiveRun [1] 120].foldl (prepareStep twoDigest twoBuild) ∅)).isSome = false := by
  decide +kernel

end Zd1200
