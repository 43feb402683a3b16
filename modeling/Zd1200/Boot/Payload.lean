import Mathlib.Data.List.AList
import Zd1200.Lib.LinkTree
import Zd1200.Lib.Script
import Zd1200.Lib.Slice

/-!
# The Payload of a Bundle

How the builder packs the images for the access points into a bundle, and how
the boot handoff installs them on the data partition.

The handoff leaves a marker on the partition when it has installed a payload,
and skips the installation if it finds the marker of the bundle that it boots.
The marker's name is made of the version, the build and the digest of one
control file of the payload.

A command of the handoff that fails does not stop it. What such a command
leaves is arbitrary, so every command of an installation comes with what it
left if it failed. The digest is a parameter. A link of the payload may lead
out of its tree, and whether a file is there is a parameter of the boot.

The tree of web pages is installed too. The handoff's other work is not
modelled.

## Main definitions

* `Payload`: The payload of a bundle.
* `makePayload`: The payload that the builder makes of a release.
* `payloadMarker`: The name of the marker.
* `DataPartition`: What the handoff finds and leaves.
* `payloadHandoff`: The installation.

## Theorems

* `infoField_makePayload`: What the handoff reads from the builder's text.
* `payloadMarker_congr`: What a marker does not tell apart.
-/

namespace Zd1200

/-- A path below the root of a tree. -/
abbrev FilePath := List String

/-- What lies at a path. -/
inductive FileEntry
  | directory
  | file (body : Bytes)
  | link (target : Option (List (Move String)))
  deriving DecidableEq

/-- The entries of a tree, in the order in which a search comes to them. -/
abbrev FileTree := AList fun _ : FilePath => FileEntry

namespace FileTree

def nodeOf : FileEntry → Node String
  | .directory => .directory
  | .file _ => .file
  | .link target => .link target

/-- The tree without the bodies of its files. -/
def shape (tree : FileTree) : Tree String := fun path => (tree.lookup path).map nodeOf

/-- What a path leads to, through the links of the tree. -/
def resolve (tree : FileTree) (path : FilePath) : Place String :=
  walk tree.shape 40 [] (path.map .down)

/-- `[ -f "$tree/$path" ]`, if `elsewhere` says so of a path that leads out. -/
def isFile (tree : FileTree) (elsewhere : Bool) (path : FilePath) : Bool :=
  match tree.resolve path with
  | .inside found => (tree.shape found).any (· = .file)
  | .outside => elsewhere
  | .nowhere => false

/-- `[ -d "$tree/$path" ]`. -/
def isDirectory (tree : FileTree) (elsewhere : Bool) (path : FilePath) : Bool :=
  match tree.resolve path with
  | .inside found => (tree.shape found).any (· = .directory)
  | .outside => elsewhere
  | .nowhere => false

end FileTree

/-- The payload as the handoff finds it. -/
structure Payload where
  releaseInfo : Option (List Char)
  firmwares : Option FileTree
  apModels : Option Bytes
  fileList : Option Bytes
  aidfs : Option FileTree

/-! ### The builder -/

/-- What the builder knows of a release. -/
structure Release where
  releaseId : List Char
  version : List Char
  build : Nat
  runtimeFtpBootstrap : List Char
  runtimeRootSsh : List Char

/-- The lines of the file `release-info`. -/
def releaseLines (release : Release) (hasAidfs : Bool) : List (List Char) :=
  ["RELEASE_ID=".toList ++ release.releaseId,
    "VERSION=".toList ++ release.version,
    "BUILD=".toList ++ Nat.toDigits 10 release.build,
    "HAS_AIDFS=".toList ++ (if hasAidfs then ['1'] else ['0']),
    "RUNTIME_FTP_BOOTSTRAP=".toList ++ release.runtimeFtpBootstrap,
    "RUNTIME_ROOT_SSH=".toList ++ release.runtimeRootSsh]

/-- The release texts and trees from which a payload is made. -/
structure SourceDir where
  firmwares : FileTree
  apModels : Bytes
  fileList : Bytes
  aidfs : Option FileTree

/-- `make_payload`. -/
def makePayload (source : SourceDir) (release : Release) : Payload where
  releaseInfo := some ((releaseLines release source.aidfs.isSome).flatMap (· ++ ['\n']))
  firmwares := some source.firmwares
  apModels := some source.apModels
  fileList := some source.fileList
  aidfs := source.aidfs

/-! ### The marker -/

/-- The lines of a text. -/
def linesOf : List Char → List (List Char)
  | [] => [[]]
  | c :: rest =>
      if c = '\n' then [] :: linesOf rest
      else
        match linesOf rest with
        | [] => [[c]]
        | line :: lines => (c :: line) :: lines

/-- `sed -n "s/^$key//p" "$payload/release-info" | head -n 1`. -/
def infoField (payload : Payload) (key : List Char) : List Char :=
  (payload.releaseInfo.bind fun text => (linesOf text).findSome? key.isPrefixOf?).getD []

/-- `[ -n "$value" ] || value=unknown`. -/
def orUnknown (value : List Char) : List Char := if value = [] then "unknown".toList else value

def payloadVersion (payload : Payload) : List Char :=
  orUnknown (infoField payload "VERSION=".toList)

def payloadBuild (payload : Payload) : List Char := orUnknown (infoField payload "BUILD=".toList)

def payloadHasAidfs (payload : Payload) : Bool := infoField payload "HAS_AIDFS=".toList = ['1']

/-- The body of a file with a control file's name in the directory `r600`. -/
def controlBody : FilePath × FileEntry → Option Bytes
  | ("r600" :: rest, .file body) =>
      if rest.getLast?.any (fun name => "_cntrl.rcks".toList.isSuffixOf name.toList) then some body
      else none
  | _ => none

/-- `find "$payload/firmwares/r600" -type f -name '*_cntrl.rcks' | head -n 1`. -/
def r600Control (payload : Payload) : Option Bytes :=
  payload.firmwares.bind fun tree =>
    tree.entries.findSome? fun entry => controlBody (entry.1, entry.2)

/-- `payload_marker`. -/
def payloadMarker (md5 : Bytes → List Char) (payload : Payload) : List Char :=
  let head := ".zd-".toList ++ payloadVersion payload ++ ['.'] ++ payloadBuild payload
  match r600Control payload with
  | some body => head ++ "-payload-".toList ++ md5 body ++ "-installed".toList
  | none => head ++ "-payload-installed".toList

/-! ### The handoff -/

/-- The images on the data partition. -/
structure ApImages where
  firmwares : FileTree
  apModels : Option Bytes
  aidfs : Option FileTree

/-- What the handoff uses of the data partition. -/
structure DataPartition where
  images : ApImages
  markers : List (List Char)

/-- A boot, which is cut off after some steps if it has more. -/
structure Boot where
  payload : Payload
  steps : Nat
  /-- What a command left, if it failed. -/
  fault : Nat → Option ApImages
  elsewhere : Bool

/-- `rm -rf "$firmware_target" /data/aidfs`. -/
def removeImages (images : ApImages) : ApImages := { images with firmwares := ∅, aidfs := none }

/-- `cp -a "$payload/firmwares/." "$firmware_target/"`. -/
def copyFirmwares (tree : FileTree) (images : ApImages) : ApImages :=
  { images with firmwares := tree ∪ images.firmwares }

/-- `cp -a "$payload/aidfs/." /data/aidfs/`, if there is such a tree. -/
def copyAidfs (payload : Payload) (images : ApImages) : ApImages :=
  match payload.aidfs with
  | some tree =>
      if payloadHasAidfs payload then
        { images with aidfs := some (tree ∪ images.aidfs.getD ∅) }
      else images
  | none => images

/-- `cp -f "$payload/file_list.txt" "$firmware_target/file_list.txt"`. -/
def copyFileList (body : Bytes) (images : ApImages) : ApImages :=
  { images with firmwares := images.firmwares.insert ["file_list.txt"] (.file body) }

/-- `cp -f "$payload/ap-models" /data/etc/airespider-images/ap-models`. -/
def copyApModels (body : Bytes) (images : ApImages) : ApImages :=
  { images with apModels := some body }

section Handoff

variable (md5 : Bytes → List Char) (boot : Boot)

/-- A command whose failure is not noticed. -/
def busybox (number : Nat) (change : ApImages → ApImages) : Script DataPartition :=
  .act fun data => { data with images := (boot.fault number).getD (change data.images) }

/-- The installation looks complete. -/
def installed (data : DataPartition) : Bool :=
  data.images.firmwares.isFile boot.elsewhere ["r600", "control"] &&
    (!payloadHasAidfs boot.payload ||
      data.images.aidfs.any fun tree => tree.isDirectory boot.elsewhere ["web", "help"])

/-- `touch "$payload_marker"`. -/
def touchMarker (data : DataPartition) : DataPartition :=
  { data with markers := payloadMarker md5 boot.payload :: data.markers }

/-- The installation of a payload that has its three parts. -/
def installPayload (tree : FileTree) (models list : Bytes) : Script DataPartition :=
  .inOrder [busybox boot 0 removeImages, busybox boot 1 (copyFirmwares tree),
    busybox boot 2 (copyAidfs boot.payload), busybox boot 3 (copyFileList list),
    busybox boot 4 (copyApModels models),
    .ifThen (installed boot) (.act (touchMarker md5 boot))]

/-- The marker of the payload is on the partition. -/
def marked (payload : Payload) (data : DataPartition) : Bool :=
  data.markers.contains (payloadMarker md5 payload)

/-- The part of the handoff that installs the payload. -/
def payloadHandoff : Script DataPartition :=
  .ifThen (fun data => !marked md5 boot.payload data)
    (match boot.payload.firmwares, boot.payload.apModels, boot.payload.fileList with
    | some tree, some models, some list => installPayload md5 boot tree models list
    | _, _, _ => .skip)

end Handoff

/-! ### What is read and what is compared -/

/-- The lines of a text are those that were put into it. -/
theorem linesOf_flatMap (lines : List (List Char)) (hlines : ∀ line ∈ lines, '\n' ∉ line) :
    linesOf (lines.flatMap (· ++ ['\n'])) = lines ++ [[]] := by
  induction lines with
  | nil => rfl
  | cons line rest ih =>
      have ih := ih fun other hother => hlines other (List.mem_cons_of_mem _ hother)
      have hline := hlines line List.mem_cons_self
      rw [List.flatMap_cons]
      clear hlines
      -- The first line is read up to its end.
      induction line with
      | nil =>
          rw [List.nil_append, List.singleton_append, linesOf, if_pos rfl, ih]
          rfl
      | cons c line ihl =>
          rw [List.mem_cons, not_or] at hline
          have ihl := ihl hline.2
          rw [List.cons_append, List.cons_append, linesOf, if_neg (Ne.symm hline.1), ihl]
          rfl

/-- The handoff reads the version, the build and the layout that the builder
    has written. -/
theorem infoField_makePayload (source : SourceDir) (release : Release)
    (hlines : ∀ line ∈ releaseLines release source.aidfs.isSome, '\n' ∉ line) :
    infoField (makePayload source release) "VERSION=".toList = release.version ∧
      infoField (makePayload source release) "BUILD=".toList = Nat.toDigits 10 release.build ∧
        payloadHasAidfs (makePayload source release) = source.aidfs.isSome := by
  have hread : ∀ key, infoField (makePayload source release) key =
      (((releaseLines release source.aidfs.isSome) ++ [[]]).findSome? key.isPrefixOf?).getD [] := by
    intro key
    rw [infoField, makePayload, Option.bind_some, linesOf_flatMap _ hlines]
  refine ⟨(hread _).trans ?_, (hread _).trans ?_, ?_⟩
  · simp [releaseLines, List.isPrefixOf?]
  · simp [releaseLines, List.isPrefixOf?]
  · rw [payloadHasAidfs, hread]
    cases source.aidfs.isSome <;> simp [releaseLines, List.isPrefixOf?]

/-- Payloads with one version, build and control file have one marker,
    whatever else is in them. -/
theorem payloadMarker_congr (md5 : Bytes → List Char) (payload other : Payload)
    (hversion : payloadVersion payload = payloadVersion other)
    (hbuild : payloadBuild payload = payloadBuild other)
    (hcontrol : r600Control payload = r600Control other) :
    payloadMarker md5 payload = payloadMarker md5 other := by
  rw [payloadMarker, payloadMarker, hversion, hbuild, hcontrol]

end Zd1200
