import Mathlib.Data.List.Sort
import Zd1200.Firmware.Repack
import Zd1200.Lib.Delimited
import Zd1200.Snapshot.Bundle

/-!
# Control Files of Access Points

`patch_scorpion_payload` of `build_zd1200_bundle.py`.

The release has a directory for each model and version, with the image, its
backup and a control file that states their sizes. Models of one platform
share the images through links. The builder patches the images that R600's
directory links to, looks for all models that share one of them, and writes a
size into their control files.

It is one size, that of the first image. What the tools make of the backup may
be longer or shorter, an image of another version may not have been patched at
all, and all of them are given that size. And the models are remembered by
their names in lower case, which need not be the names of their directories:
then the control file keeps the old sizes.

A control file states what it should if and only if neither matters to it.
`SizesFit` says so in terms of the release as it was, and of the images that
the tools make.

## Main definitions

* `VendorTree`: The files of a release that the builder looks at.
* `scorpionPayloadPaths`: The images, and the models that share them.
* `updateScorpionControlFiles`: The sizes are written.
* `patchScorpionPayload`: The builder's step.
* `controlFields`: The sizes that a control file states, and of what.
* `Describes`: The control files state the sizes of the images.
* `SizesFit`: When the builder has them do so.

## Theorems

* `controlFields_subSizes`: What a control file states after the change.
* `patchScorpionPayload_ok`: What the files hold after the step.
* `describes_iff`: When the control files state the sizes of the images.
* `patchScorpionPayload_misdescribes`: A backup that became longer.
-/

namespace Zd1200

/-- A path `*/*/*` below `firmwares` that is a file, and what it resolves to. -/
structure VendorEntry (F : Type) where
  model : Bytes
  version : Bytes
  name : Bytes
  file : F
  deriving DecidableEq

/-- The files of a release: the paths, links included, and the contents of what
    they resolve to. -/
structure VendorTree (F : Type) where
  entries : List (VendorEntry F)
  contents : F → Bytes

/-- `str.lower`, and `relative_to(source_dir)` where it does not raise. -/
structure BuildEnv (F : Type) where
  lower : Bytes → Bytes
  relativeTo : F → Option String
  artifacts : List Artifact
  patches : List PatchRule

/-- The local image or the tools, as far as they were given. -/
inductive ScorpionRequest (F : Type)
  | override (replacement : Bytes)
  | tools (tools : Option (SquashTools F))

def scorpionImageNames : List Bytes := [ascii "rcks_fw.bl7", ascii "rcks_fw.bl7.bkup"]

/-- `*_cntrl.rcks`. -/
def isControlName (name : Bytes) : Bool := (ascii "_cntrl.rcks").isSuffixOf name

section Build

variable {F : Type} [LinearOrder F]

/-- The images and the models that share one of them, in lower case. -/
def scorpionPayloadPaths (env : BuildEnv F) (tree : VendorTree F) :
    Except BuildError (List F × List Bytes) := do
  let r600Paths := tree.entries.filter fun path =>
    path.model = ascii "r600" ∧ path.name ∈ scorpionImageNames
  raiseIf (r600Paths = [])
    (.valueError "vendor payload contains no R600 ap-11n-scorpion BL7 image")
  let targets := (r600Paths.map VendorEntry.file).dedup
  let aliases := tree.entries.filter fun path =>
    path.name ∈ scorpionImageNames ∧ path.file ∈ targets
  return (targets.insertionSort (· ≤ ·),
    (ascii "r600" :: aliases.map fun path => env.lower path.model).dedup)

/-- `path.relative_to(source_dir)`. -/
def BuildEnv.relative (env : BuildEnv F) (path : F) : Except BuildError String :=
  match env.relativeTo path with
  | some text => .ok text
  | none => .error .notBelow

/-- `read_text(encoding="ascii")` makes one line feed of each line end. -/
def newlines : Bytes → Bytes
  | [] => []
  | 13 :: 10 :: rest => 10 :: newlines rest
  | c :: rest => (if c = 13 then 10 else c) :: newlines rest

def readText (bytes : Bytes) : Except BuildError Bytes :=
  if bytes.all fun c => c < 128 then .ok (newlines bytes) else .error .unicodeError

/-- A line that the expression `^\d+$` matches. -/
def isSizeLine (line : Bytes) : Bool := line ≠ [] && line.all isDigit

/-- `re.subn` of these lines. -/
def subSizes (size : Nat) (contents : Bytes) : Bytes × Nat :=
  let lines := contents.splitOn 10
  ([10].intercalate (lines.map fun line => if isSizeLine line then decimalText size else line),
    lines.countP isSizeLine)

/-- The control files of some models. -/
def controlFiles (tree : VendorTree F) (models : List Bytes) : List F :=
  ((models.flatMap fun model => tree.entries.filter fun path =>
    path.model = model ∧ isControlName path.name).map VendorEntry.file).dedup.insertionSort (· ≤ ·)

/-- The change of one control file. -/
def updateControl (env : BuildEnv F) (size : Nat) (control : F) (bytes : Bytes) :
    Except BuildError Bytes := do
  let contents ← readText bytes
  let (updated, count) := subSizes size contents
  let shown ← env.relative control
  raiseIf (count ≠ 2)
    (.valueError s!"expected two image-size fields in {shown}, found {count}")
  return updated

/-- The sizes of the images are written to the control files of some models. -/
def updateScorpionControlFiles (env : BuildEnv F) (tree : VendorTree F) (models : List Bytes)
    (size : Nat) : Except BuildError (VendorTree F) := do
  let controls := controlFiles tree models
  raiseIf (controls = []) (.valueError "vendor payload contains no ap-11n-scorpion control file")
  let contents ← controls.foldlM (fun contents control => do
    let updated ← updateControl env size control (contents control)
    return Function.update contents control updated) tree.contents
  return { tree with contents }

/-- The loop over the images. -/
def replaceImages (image : F → Bytes → Except BuildError Bytes) (candidates : List F)
    (tree : VendorTree F) : Except BuildError (VendorTree F) := do
  let contents ← candidates.foldlM (fun contents path => do
    let replacement ← image path (contents path)
    return Function.update contents path replacement) tree.contents
  return { tree with contents }

/-- `patch_scorpion_payload`. -/
def patchScorpionPayload (env : BuildEnv F) (tree : VendorTree F) (request : ScorpionRequest F) :
    Except BuildError (VendorTree F × List Bytes) := do
  let (candidates, aliases) ← scorpionPayloadPaths env tree
  match request with
  | .override replacement => do
      let _ ← (parseBl7 replacement).mapError .bl7
      let tree ← replaceImages (fun path _ => do
        let _ ← env.relative path
        return replacement) candidates tree
      let tree ← updateScorpionControlFiles env tree aliases replacement.length
      return (tree, aliases)
  | .tools none =>
      .error (.valueError
        "ap-11n-scorpion payload patching requires SquashFS tools or --r600-bl7")
  | .tools (some tools) => do
      let tree ← replaceImages (fun path bytes => do
        let _ ← env.relative path
        patchImage env.artifacts env.patches tools path bytes) candidates tree
      match candidates with
      | [] => .error .indexError
      | first :: _ => do
          let tree ← updateScorpionControlFiles env tree aliases (tree.contents first).length
          return (tree, aliases)

end Build

/-! ### What a control file states -/

/-- The name in a line `[name]`. -/
def sectionName (line : Bytes) : Option Bytes :=
  if line.head? = some 91 ∧ line.getLast? = some 93 then some (line.drop 1).dropLast else none

/-- The sizes in some lines, each with the section that it is in. -/
def fieldsFrom (current : Option Bytes) : List Bytes → List (Option Bytes × Bytes)
  | [] => []
  | line :: lines =>
      if isSizeLine line then (current, line) :: fieldsFrom current lines
      else fieldsFrom ((sectionName line).or current) lines

/-- The image-size fields of a control file. -/
def controlFields (contents : Bytes) : List (Option Bytes × Bytes) :=
  fieldsFrom none ((newlines contents).splitOn 10)

/-- The image that a section is about: the main image, or the backup. -/
def imageOfSection (current : Option Bytes) : Option Bytes :=
  if current = some (ascii "rcks_fw.bl7.main") then some (ascii "rcks_fw.bl7")
  else if current = some (ascii "rcks_fw.bl7.bkup") then some (ascii "rcks_fw.bl7.bkup")
  else none

/-! ### Lines -/

/-- Text without a carriage return is read as it is. -/
theorem newlines_eq_self {bytes : Bytes} (h : 13 ∉ bytes) : newlines bytes = bytes := by
  induction bytes with
  | nil => rfl
  | cons c rest ih =>
      rcases not_or.mp (List.mem_cons.not.mp h) with ⟨hc, hrest⟩
      rw [newlines, if_neg (Ne.symm hc), ih hrest]
      rintro _ rfl
      exact absurd rfl hc

theorem not_mem_newlines (bytes : Bytes) : 13 ∉ newlines bytes := by
  fun_induction newlines bytes with
  | case1 => exact List.not_mem_nil
  | case2 rest ih => exact List.mem_cons.not.mpr (not_or.mpr ⟨by decide, ih⟩)
  | case3 c rest _ ih =>
      refine List.mem_cons.not.mpr (not_or.mpr ⟨?_, ih⟩)
      split
      · decide
      · next hc => exact Ne.symm hc

/-! ### The sizes that were written -/

theorem isSizeLine_decimalText (n : Nat) : isSizeLine (decimalText n) = true := by
  unfold isSizeLine
  rw [Bool.and_eq_true]
  refine ⟨decide_eq_true fun hnil => ?_, List.all_eq_true.mpr (isDigit_decimalText n)⟩
  unfold decimalText at hnil
  split at hnil
  · exact absurd hnil (List.cons_ne_nil 48 [])
  · next hn =>
      rw [List.reverse_eq_nil_iff, List.map_eq_nil_iff, Nat.digits_eq_nil_iff_eq_zero] at hnil
      exact hn hnil

/-- The sections stay, and each has the new size. -/
theorem fieldsFrom_map (size : Nat) (current : Option Bytes) (lines : List Bytes) :
    fieldsFrom current (lines.map fun line => if isSizeLine line then decimalText size else line) =
      (fieldsFrom current lines).map fun field => (field.1, decimalText size) := by
  induction lines generalizing current with
  | nil => rfl
  | cons line lines ih =>
      rw [List.map_cons, fieldsFrom, fieldsFrom]
      by_cases h : isSizeLine line = true
      · rw [if_pos h, if_pos h, if_pos (isSizeLine_decimalText size), List.map_cons, ih]
      · rw [if_neg h, if_neg h, if_neg h, ih]

/-- After the change a control file has the same sections, all with the one
    size. -/
theorem controlFields_subSizes (size : Nat) (bytes : Bytes) :
    controlFields (subSizes size (newlines bytes)).1 =
      (controlFields bytes).map fun field => (field.1, decimalText size) := by
  have hline : ∀ line ∈ ((newlines bytes).splitOn 10).map
      (fun line => if isSizeLine line then decimalText size else line), ∀ c ∈ line,
      c ≠ 10 ∧ c ≠ 13 := by
    intro line hmem c hc
    rcases List.mem_map.mp hmem with ⟨old, hold, rfl⟩
    split at hc
    · have hdigit := isDigit_decimalText size c hc
      exact ⟨(ne_of_mem_decimalText size c hc).2, fun h => absurd (h ▸ hdigit) (by decide)⟩
    · have hc := mem_splitOn hold hc
      exact ⟨hc.2, fun h => not_mem_newlines bytes (h ▸ hc.1)⟩
  have hreturn : 13 ∉ (subSizes size (newlines bytes)).1 := by
    intro hmem
    rcases mem_intercalate hmem with h | ⟨line, hmem, hc⟩
    · exact absurd h (by decide)
    · exact (hline line hmem 13 hc).2 rfl
  rw [controlFields, newlines_eq_self hreturn, subSizes, List.splitOn_intercalate 10
    (fun line hmem hc => (hline line hmem 10 hc).1 rfl)
    (fun h => List.splitOn_ne_nil _ _ (List.map_eq_nil_iff.mp h)), fieldsFrom_map, controlFields]

/-! ### The builder's step -/

section Sizes

variable {F : Type} [LinearOrder F]

/-- The images that R600's directory links to, in the order of their paths. -/
def r600Images (tree : VendorTree F) : List F :=
  ((tree.entries.filter fun path =>
    path.model = ascii "r600" ∧ path.name ∈ scorpionImageNames).map
      VendorEntry.file).dedup.insertionSort (· ≤ ·)

/-- The models that share one of them, in lower case. -/
def sharingModels (env : BuildEnv F) (tree : VendorTree F) : List Bytes :=
  (ascii "r600" :: (tree.entries.filter fun path =>
    path.name ∈ scorpionImageNames ∧ path.file ∈ r600Images tree).map
      fun path => env.lower path.model).dedup

/-- An image that the builder makes of an old one. -/
def newImage (env : BuildEnv F) (tree : VendorTree F) : ScorpionRequest F → F → Bytes
  | .override replacement, _ => replacement
  | .tools none, _ => []
  | .tools (some tools), path =>
      (patchImage env.artifacts env.patches tools path (tree.contents path)).toOption.getD []

/-- The contents of the files before the sizes are written. -/
def patched (env : BuildEnv F) (tree : VendorTree F) (request : ScorpionRequest F) (path : F) :
    Bytes :=
  if path ∈ r600Images tree then newImage env tree request path else tree.contents path

/-- The size that is written, that of the first image. -/
def writtenSize (env : BuildEnv F) (tree : VendorTree F) (request : ScorpionRequest F) : Nat :=
  match r600Images tree with
  | [] => 0
  | first :: _ => (newImage env tree request first).length

/-- The control files that it is written to. -/
def writtenControls (env : BuildEnv F) (tree : VendorTree F) : List F :=
  controlFiles tree (sharingModels env tree)

/-- The contents of the files in the end. -/
def delivered (env : BuildEnv F) (tree : VendorTree F) (request : ScorpionRequest F) (path : F) :
    Bytes :=
  if path ∈ writtenControls env tree then
    (subSizes (writtenSize env tree request) (newlines (patched env tree request path))).1
  else patched env tree request path

theorem scorpionPayloadPaths_ok (env : BuildEnv F) (tree : VendorTree F) (candidates : List F)
    (aliases : List Bytes) (h : scorpionPayloadPaths env tree = .ok (candidates, aliases)) :
    candidates = r600Images tree ∧ aliases = sharingModels env tree ∧ r600Images tree ≠ [] := by
  unfold scorpionPayloadPaths at h
  simp only [bind_ok_iff, raiseIf_ok_iff, exists_const, pure_ok_iff, Prod.mk.injEq] at h
  rcases h with ⟨hne, rfl, rfl⟩
  refine ⟨rfl, ?_, fun hnil => hne ?_⟩
  · -- To be among the images does not depend on the order.
    simp only [sharingModels, r600Images, List.mem_insertionSort]
  · have hlength := congrArg List.length hnil
    rw [r600Images, List.length_insertionSort, List.length_nil, List.length_eq_zero_iff,
      List.dedup_eq_nil, List.map_eq_nil_iff] at hlength
    exact hlength

theorem nodup_r600Images (tree : VendorTree F) : (r600Images tree).Nodup :=
  (List.perm_insertionSort _ _).nodup_iff.mpr (List.nodup_dedup _)

theorem nodup_controlFiles (tree : VendorTree F) (models : List Bytes) :
    (controlFiles tree models).Nodup :=
  (List.perm_insertionSort _ _).nodup_iff.mpr (List.nodup_dedup _)

/-- The images hold what was made of them. -/
theorem replaceImages_ok_iff (image : F → Bytes → Except BuildError Bytes) (candidates : List F)
    (hcandidates : candidates.Nodup) (tree tree' : VendorTree F) :
    replaceImages image candidates tree = .ok tree' ↔
      tree'.entries = tree.entries ∧
      (∀ path ∈ candidates, image path (tree.contents path) = .ok (tree'.contents path)) ∧
      ∀ path, path ∉ candidates → tree'.contents path = tree.contents path := by
  unfold replaceImages
  rw [bind_ok_iff]
  constructor
  · rintro ⟨contents, hrun, htree⟩
    rw [pure_ok_iff] at htree
    subst htree
    exact ⟨rfl, (foldlM_update_ok_iff image candidates hcandidates _ _).mp hrun⟩
  · rintro ⟨hentries, hrun⟩
    refine ⟨tree'.contents, (foldlM_update_ok_iff image candidates hcandidates _ _).mpr hrun, ?_⟩
    rw [← hentries]
    rfl

/-- The control files have the size, and nothing else changes. -/
theorem updateScorpionControlFiles_ok (env : BuildEnv F) (tree tree' : VendorTree F)
    (models : List Bytes) (size : Nat)
    (h : updateScorpionControlFiles env tree models size = .ok tree') :
    tree'.entries = tree.entries ∧ ∀ path, tree'.contents path =
      if path ∈ controlFiles tree models then (subSizes size (newlines (tree.contents path))).1
      else tree.contents path := by
  unfold updateScorpionControlFiles at h
  simp only [bind_ok_iff, raiseIf_ok_iff, exists_const] at h
  rcases h with ⟨-, contents, hrun, htree⟩
  rw [pure_ok_iff] at htree
  subst htree
  rcases (foldlM_update_ok_iff (updateControl env size) _ (nodup_controlFiles tree models)
    _ _).mp hrun with ⟨hin, hout⟩
  refine ⟨rfl, fun path => ?_⟩
  by_cases hmem : path ∈ controlFiles tree models
  · rw [if_pos hmem]
    have hupdate := hin path hmem
    unfold updateControl readText at hupdate
    simp only [bind_ok_iff, raiseIf_ok_iff, exists_const, pure_ok_iff] at hupdate
    rcases hupdate with ⟨text, htext, -, -, -, hnew⟩
    split at htext
    · rw [Except.ok.inj htext]
      exact hnew.symm
    · exact absurd htext (by simp only [reduceCtorEq, not_false_eq_true])
  · rw [if_neg hmem]
    exact hout path hmem

/-- What the files hold after the step. -/
theorem patchScorpionPayload_ok (env : BuildEnv F) (tree tree' : VendorTree F)
    (request : ScorpionRequest F) (aliases : List Bytes)
    (h : patchScorpionPayload env tree request = .ok (tree', aliases)) :
    tree'.entries = tree.entries ∧ aliases = sharingModels env tree ∧
      ∀ path, tree'.contents path = delivered env tree request path := by
  unfold patchScorpionPayload at h
  rw [bind_ok_iff] at h
  rcases h with ⟨⟨candidates, models⟩, hpaths, h⟩
  rcases scorpionPayloadPaths_ok env tree candidates models hpaths with ⟨rfl, rfl, hne⟩
  -- Both requests end alike, with the contents that `patched` describes.
  have hwritten : ∀ middle : VendorTree F, middle.entries = tree.entries →
      (∀ path, middle.contents path = patched env tree request path) →
      updateScorpionControlFiles env middle (sharingModels env tree)
        (writtenSize env tree request) = .ok tree' →
      tree'.entries = tree.entries ∧ ∀ path, tree'.contents path =
        delivered env tree request path := by
    intro middle hentries hcontents hupdate
    rcases updateScorpionControlFiles_ok env middle tree' _ _ hupdate with ⟨hentries', hall⟩
    have hcontrols : controlFiles middle (sharingModels env tree) = writtenControls env tree := by
      rw [writtenControls, controlFiles, hentries]
      rfl
    refine ⟨hentries'.trans hentries, fun path => ?_⟩
    rw [hall path, hcontrols, hcontents path, delivered]
  have hpatched : ∀ middle : VendorTree F,
      (∀ path ∈ r600Images tree, middle.contents path = newImage env tree request path) →
      (∀ path, path ∉ r600Images tree → middle.contents path = tree.contents path) →
      ∀ path, middle.contents path = patched env tree request path := by
    intro middle hin hout path
    unfold patched
    split
    · next hmem => exact hin path hmem
    · next hmem => exact hout path hmem
  rcases hfirst : r600Images tree with _ | ⟨first, rest⟩
  · exact absurd hfirst hne
  cases request with
  | override replacement =>
      simp only [bind_ok_iff, pure_ok_iff, Prod.mk.injEq] at h
      rcases h with ⟨-, -, middle, himages, last, hupdate, rfl, rfl⟩
      rcases (replaceImages_ok_iff _ _ (nodup_r600Images tree) tree middle).mp himages
        with ⟨hentries, hin, hout⟩
      have hsize : writtenSize env tree (.override replacement) = replacement.length := by
        rw [writtenSize, hfirst]
        rfl
      have hnew : ∀ path ∈ r600Images tree,
          middle.contents path = newImage env tree (.override replacement) path := by
        intro path hmem
        have himage := hin path hmem
        simp only [bind_ok_iff, pure_ok_iff] at himage
        rcases himage with ⟨-, -, heq⟩
        exact heq.symm
      rw [← hsize] at hupdate
      rcases hwritten middle hentries (hpatched middle hnew hout) hupdate with ⟨hentries', hall⟩
      exact ⟨hentries', rfl, hall⟩
  | tools tools =>
      cases tools with
      | none => exact absurd h (by simp only [reduceCtorEq, not_false_eq_true])
      | some tools =>
          rw [bind_ok_iff] at h
          rcases h with ⟨middle, himages, h⟩
          rcases (replaceImages_ok_iff _ _ (nodup_r600Images tree) tree middle).mp himages
        with ⟨hentries, hin, hout⟩
          have hnew : ∀ path ∈ r600Images tree,
              middle.contents path = newImage env tree (.tools (some tools)) path := by
            intro path hmem
            have himage := hin path hmem
            rw [bind_ok_iff] at himage
            rcases himage with ⟨-, -, heq⟩
            rw [newImage, heq]
            rfl
          have hsize : writtenSize env tree (.tools (some tools)) = (middle.contents first).length := by
            rw [hnew first (hfirst ▸ List.mem_cons_self), writtenSize, hfirst]
          rw [hfirst] at h
          simp only [bind_ok_iff, pure_ok_iff, Prod.mk.injEq] at h
          rcases h with ⟨last, hupdate, rfl, rfl⟩
          rw [← hsize] at hupdate
          rcases hwritten middle hentries (hpatched middle hnew hout) hupdate with ⟨hentries', hall⟩
          exact ⟨hentries', rfl, hall⟩

/-! ### The sizes that control files state -/

/-- A control file of a model that shares an image has a size in the section of
    an image beside it. -/
structure States (tree : VendorTree F) (contents : F → Bytes) (control image : VendorEntry F)
    (field : Option Bytes × Bytes) : Prop where
  control_mem : control ∈ tree.entries
  image_mem : image ∈ tree.entries
  shared : ∃ path ∈ tree.entries, path.model = control.model ∧ path.name ∈ scorpionImageNames ∧
    path.file ∈ r600Images tree
  controlName : isControlName control.name = true
  field_mem : field ∈ controlFields (contents control.file)
  beside : image.model = control.model ∧ image.version = control.version
  named : imageOfSection field.1 = some image.name

/-- The sizes that the control files state are those of the images. -/
def Describes (tree : VendorTree F) (contents : F → Bytes) : Prop :=
  ∀ control image field, States tree contents control image field →
    decimal field.2 = (contents image.file).length

/-- The length of an image: that of what was made of it, unless it is a link
    to a control file. -/
def imageLength (env : BuildEnv F) (tree : VendorTree F) (request : ScorpionRequest F) (path : F) :
    Nat :=
  if path ∈ writtenControls env tree then
    (subSizes (writtenSize env tree request) (newlines (patched env tree request path))).1.length
  else (patched env tree request path).length

theorem length_delivered (env : BuildEnv F) (tree : VendorTree F) (request : ScorpionRequest F)
    (path : F) :
    (delivered env tree request path).length = imageLength env tree request path := by
  rw [delivered, imageLength, apply_ite List.length]

/-- The images whose size is written have that size, and the others the size
    that their control file has stated all along. -/
def SizesFit (env : BuildEnv F) (tree : VendorTree F) (request : ScorpionRequest F) : Prop :=
  ∀ control image field, States tree (patched env tree request) control image field →
    imageLength env tree request image.file =
      if control.file ∈ writtenControls env tree then writtenSize env tree request
      else decimal field.2

/-- The control files describe the images that are delivered if and only if
    one size fits all. -/
theorem describes_iff (env : BuildEnv F) (tree tree' : VendorTree F) (request : ScorpionRequest F)
    (aliases : List Bytes) (h : patchScorpionPayload env tree request = .ok (tree', aliases)) :
    Describes tree tree'.contents ↔ SizesFit env tree request := by
  rcases patchScorpionPayload_ok env tree tree' request aliases h with ⟨-, -, hall⟩
  constructor
  · intro hdescribes control image field hstates
    rw [← length_delivered, ← hall image.file]
    by_cases hmem : control.file ∈ writtenControls env tree
    · -- The field has its section still, and now the size that was written.
      have hfield : (field.1, decimalText (writtenSize env tree request)) ∈
          controlFields (tree'.contents control.file) := by
        rw [hall, delivered, if_pos hmem, controlFields_subSizes]
        exact List.mem_map.mpr ⟨field, hstates.field_mem, rfl⟩
      rw [if_pos hmem, ← hdescribes control image _ { hstates with field_mem := hfield },
        decimal_decimalText]
    · have hfield : field ∈ controlFields (tree'.contents control.file) := by
        rw [hall, delivered, if_neg hmem]
        exact hstates.field_mem
      rw [if_neg hmem, ← hdescribes control image _ { hstates with field_mem := hfield }]
  · intro hfit control image field hstates
    have hfield := hstates.field_mem
    rw [hall, delivered] at hfield
    rw [hall, length_delivered]
    by_cases hmem : control.file ∈ writtenControls env tree
    · rw [if_pos hmem, controlFields_subSizes] at hfield
      rcases List.mem_map.mp hfield with ⟨old, hold, rfl⟩
      rw [hfit control image old { hstates with field_mem := hold }, if_pos hmem,
        decimal_decimalText]
    · rw [if_neg hmem] at hfield
      rw [hfit control image field { hstates with field_mem := hfield }, if_neg hmem]

end Sizes

/-! ### A release whose backup becomes longer -/

def scorpionControl : Bytes :=
  ascii "[rcks_fw.bl7.main]\n0.0.0.0\nmain\n166\n\n[rcks_fw.bl7.bkup]\n0.0.0.0\nbkup\n166\n"

def scorpionModule : Bytes := [0x34, 0x02, 0x81, 0x00, 0x54, 0x62, 0x00, 0x10]

/-- A rule for the module. -/
def meshRule : PatchRule :=
  ⟨"ap_11n_scorpion_wlan_ko", "mesh_vlan_rx", "34 02 81 00 54 62 ?? ??", 4, "54 62 ?? ??",
    some "10 00 ?? ??", "bypass the removal", 0⟩

/-- The main image, the backup and the control file of R600. -/
def scorpionTree : VendorTree Nat where
  entries :=
    [⟨ascii "r600", ascii "10.5", ascii "rcks_fw.bl7", 0⟩,
     ⟨ascii "r600", ascii "10.5", ascii "rcks_fw.bl7.bkup", 1⟩,
     ⟨ascii "r600", ascii "10.5", ascii "r600_1051_cntrl.rcks", 2⟩]
  contents path := if path = 2 then scorpionControl else smallImage

def scorpionEnv : BuildEnv Nat where
  lower := id
  relativeTo _ := some "firmwares/r600"
  artifacts := [⟨"ap_11n_scorpion_wlan_ko", "module of the access point", "raw"⟩]
  patches := [meshRule]

def scorpionRootFs : RootFs :=
  [([ascii "lib", ascii "modules", ascii "2.6", ascii "net", ascii "wlan.ko"], scorpionModule)]

/-- Tools that pack the root file system of the backup one byte longer. -/
def scorpionTools : SquashTools Nat where
  unsquashfs _ := .ok scorpionRootFs
  mksquashfs path _ := .ok (if path = 0 then [0x68, 0x73] else [0x68, 0x73, 0x71])

theorem modules_scorpionRootFs : scorpionRootFs.modules =
    [([ascii "lib", ascii "modules", ascii "2.6", ascii "net", ascii "wlan.ko"], scorpionModule)] := by
  decide +kernel

theorem applyRules_scorpionModule :
    applyRules scorpionModule [meshRule] =
      .ok ([0x34, 0x02, 0x81, 0x00, 0x10, 0x00, 0x00, 0x10], true) := by
  decide +kernel

theorem patchImage_sample (path : Nat) (h : path ≠ 2) :
    ∃ out, patchImage scorpionEnv.artifacts scorpionEnv.patches scorpionTools path
        (scorpionTree.contents path) = .ok out ∧
      out.length = if path = 0 then 65538 else 65539 := by
  have hcontents : scorpionTree.contents path = smallImage := if_neg h
  rw [hcontents]
  let rootfs : Bytes := if path = 0 then [0x68, 0x73] else [0x68, 0x73, 0x71]
  have hrootfs : rootfs.length = if path = 0 then 2 else 3 := by
    rw [apply_ite List.length]
    rfl
  have hfits : Fits smallParts.kernel rootfs := by
    rw [Fits, List.length_append, length_paddedKernel, hrootfs]
    split <;> decide
  have himage := ((parseBl7_ok_iff _ _).mp parseBl7_smallImage).1.imageType
  obtain ⟨out, hbuilt⟩ : ∃ out, smallParts.rebuild none (some rootfs) = .ok out :=
    ⟨_, (rebuild_ok_iff smallParts none (some rootfs) _).mpr ⟨himage, hfits, rfl⟩⟩
  refine ⟨out, ?_, ?_⟩
  · exact patchImage_of_unsigned _ _ scorpionTools path smallImage smallParts scorpionRootFs
      _ [meshRule] _ rootfs out (by decide +kernel) parseBl7_smallImage rfl modules_scorpionRootFs
      (by decide +kernel) applyRules_scorpionModule rfl hbuilt
  · rw [length_rebuild _ _ _ hbuilt, length_paddedKernel, hrootfs]
    split <;> decide

/-- The control file that is written for it. -/
def writtenControl : Bytes :=
  ascii "[rcks_fw.bl7.main]\n0.0.0.0\nmain\n65538\n\n[rcks_fw.bl7.bkup]\n0.0.0.0\nbkup\n65538\n"

theorem patchScorpionPayload_sample :
    ∃ tree', patchScorpionPayload scorpionEnv scorpionTree (.tools (some scorpionTools)) =
        .ok (tree', [ascii "r600"]) ∧
      (tree'.contents 1).length = 65539 ∧ tree'.contents 2 = writtenControl := by
  rcases patchImage_sample 0 (by decide) with ⟨main, hmain, hmainLength⟩
  rcases patchImage_sample 1 (by decide) with ⟨backup, hbackup, hbackupLength⟩
  let middle : VendorTree Nat := ⟨scorpionTree.entries,
    Function.update (Function.update scorpionTree.contents 0 main) 1 backup⟩
  let last : VendorTree Nat := ⟨scorpionTree.entries,
    Function.update middle.contents 2 writtenControl⟩
  have himages : replaceImages (fun path bytes => do
      let _ ← scorpionEnv.relative path
      patchImage scorpionEnv.artifacts scorpionEnv.patches scorpionTools path bytes) [0, 1] scorpionTree =
        .ok middle := by
    refine (replaceImages_ok_iff _ [0, 1] (by decide) scorpionTree middle).mpr
      ⟨rfl, ?_, fun path hpath => ?_⟩
    · have hzero : middle.contents 0 = main := rfl
      have hone : middle.contents 1 = backup := rfl
      rw [List.forall_mem_cons, List.forall_mem_singleton, hzero, hone]
      exact ⟨(bind_ok_iff _ _ _).mpr ⟨_, rfl, hmain⟩, (bind_ok_iff _ _ _).mpr ⟨_, rfl, hbackup⟩⟩
    · rcases not_or.mp (List.mem_cons.not.mp hpath) with ⟨hne, hpath⟩
      have hne' : path ≠ 1 := fun h => hpath (List.mem_singleton.mpr h)
      exact (Function.update_of_ne hne' _ _).trans (Function.update_of_ne hne _ _)
  have hupdate : updateScorpionControlFiles scorpionEnv middle [ascii "r600"] 65538 = .ok last := by
    have hcontrols : controlFiles scorpionTree [ascii "r600"] = [2] := by decide
    have hcontrols' : controlFiles middle [ascii "r600"] = [2] := hcontrols
    unfold updateScorpionControlFiles
    rw [hcontrols']
    refine (bind_ok_iff _ _ _).mpr ⟨(), rfl, (bind_ok_iff _ _ _).mpr ⟨last.contents,
      (foldlM_update_ok_iff (updateControl scorpionEnv 65538) [2] (by decide) _ _).mpr
        ⟨?_, fun path hpath => ?_⟩, rfl⟩⟩
    · rw [List.forall_mem_singleton]
      change updateControl scorpionEnv 65538 2 scorpionControl = .ok writtenControl
      decide +kernel
    · exact Function.update_of_ne (fun h => hpath (List.mem_singleton.mpr h)) _ _
  refine ⟨last, ?_, hbackupLength, rfl⟩
  unfold patchScorpionPayload
  refine (bind_ok_iff _ _ _).mpr ⟨([0, 1], [ascii "r600"]), by decide, ?_⟩
  refine (bind_ok_iff _ _ _).mpr ⟨middle, himages, ?_⟩
  have hlength : (middle.contents 0).length = 65538 := hmainLength
  refine (bind_ok_iff _ _ _).mpr ⟨last, ?_, rfl⟩
  rw [hlength]
  exact hupdate

/-- A local image takes the place of both, so one size fits them. -/
theorem describes_iff_sample :
    ∃ tree', patchScorpionPayload scorpionEnv scorpionTree (.override smallImage) =
        .ok (tree', [ascii "r600"]) ∧
      Describes scorpionTree tree'.contents := by
  have haliases : (patchScorpionPayload scorpionEnv scorpionTree (.override smallImage)).map
      Prod.snd = .ok [ascii "r600"] := by decide +kernel
  have hsizes : ∀ control ∈ scorpionTree.entries, ∀ image ∈ scorpionTree.entries,
      ∀ field ∈ controlFields (patched scorpionEnv scorpionTree (.override smallImage) control.file),
        isControlName control.name = true → imageOfSection field.1 = some image.name →
        imageLength scorpionEnv scorpionTree (.override smallImage) image.file =
          if control.file ∈ writtenControls scorpionEnv scorpionTree then
            writtenSize scorpionEnv scorpionTree (.override smallImage)
          else decimal field.2 := by decide +kernel
  cases hrun : patchScorpionPayload scorpionEnv scorpionTree (.override smallImage) with
  | error e =>
      rw [hrun] at haliases
      exact absurd haliases (by simp only [Except.map, reduceCtorEq, not_false_eq_true])
  | ok result =>
      rw [hrun] at haliases
      refine ⟨result.1, congrArg Except.ok (Prod.ext rfl (Except.ok.inj haliases)),
        (describes_iff scorpionEnv scorpionTree result.1 _ result.2 hrun).mpr ?_⟩
      exact fun control image field h =>
        hsizes control h.control_mem image h.image_mem field h.field_mem h.controlName h.named

/-- The field of the backup has the size of the main image. -/
theorem patchScorpionPayload_misdescribes :
    ¬ ∀ (env : BuildEnv Nat) (tree tree' : VendorTree Nat) (request : ScorpionRequest Nat)
      (aliases : List Bytes), patchScorpionPayload env tree request = .ok (tree', aliases) →
      Describes tree tree'.contents := by
  intro hall
  rcases patchScorpionPayload_sample with ⟨tree', hrun, hlength, hcontrol⟩
  have hdescribes := hall scorpionEnv scorpionTree tree' _ _ hrun
    ⟨ascii "r600", ascii "10.5", ascii "r600_1051_cntrl.rcks", 2⟩
    ⟨ascii "r600", ascii "10.5", ascii "rcks_fw.bl7.bkup", 1⟩
    (some (ascii "rcks_fw.bl7.bkup"), ascii "65538")
    { control_mem := by decide
      image_mem := by decide
      shared := by decide
      controlName := by decide
      field_mem := by
        rw [hcontrol]
        decide +kernel
      beside := by decide
      named := by decide }
  rw [hlength] at hdescribes
  exact absurd hdescribes (by decide)

end Zd1200
