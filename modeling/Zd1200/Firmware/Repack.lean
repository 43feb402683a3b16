import Zd1200.Firmware.Rebuild
import Zd1200.Monitor.Text
import Zd1200.Patch.Catalog

/-!
# Patching an Image

`patch_image` of `patch_r600_bl7.py`: an image is taken apart, its root file
system is unpacked, the one wireless module in it is patched, and everything
is put together again.

The root file system is packed and unpacked by the SquashFS tools, which are
not part of the repository. How long the result is depends on them, so two
images that were as long as each other need not be so afterwards. What a tool
packs may depend on more than what it is given, so it is told which image it
packs for.

## Main definitions

* `BuildError`: The exceptions of the builder.
* `signedToUi`: An unsigned image made from a signed one.
* `SquashTools`: The SquashFS tools.
* `patchImage`: A patched image.

## Theorems

* `patchImage_of_unsigned`: An unsigned image is patched.
* `length_rebuild`: How long a rebuilt image is.
-/

namespace Zd1200

/-- The exceptions of the builder: those of the image and of the patcher, its
    own, and those of the library and of the tools it runs. -/
inductive BuildError
  | bl7 (e : Bl7Error)
  | patch (e : PyError)
  | valueError (message : String)
  | unicodeError
  | notBelow
  | indexError
  | tool
  deriving DecidableEq, Repr

/-- `signed_to_ui`: the trailer is dropped and the header is that of an
    unsigned image. -/
def signedToUi (data : Bytes) : Except Bl7Error Bytes := do
  let header ← bl7Header data
  let hdrLen := header.hdrLen
  raiseIf (hdrLen ≠ bl7HeaderSize) (.valueError s!"unsupported BL7 header length: {hdrLen}")
  raiseIf (header.imageType ≠ 1 ∧ header.imageType ≠ 2)
    (.valueError "expected signed ISI/FSI BL7 image")
  let payloadEnd := bl7HeaderSize + header.binl7Len
  raiseIf (header.nextImage < bl7HeaderSize ∨ header.nextImage > payloadEnd ∨
      payloadEnd ≥ data.length)
    (.valueError "signed BL7 offsets or signature trailer are invalid")
  let payload := slice data bl7HeaderSize payloadEnd
  raiseIf (md5 payload ≠ md5Field.read header.val) (.valueError "signed BL7 payload MD5 mismatch")
  raiseIf (internetChecksum (checksumField.write header.val [0, 0]) ≠ header.checksum)
    (.valueError "signed BL7 header checksum mismatch")
  return withChecksum (imageTypeField.write header.val (beBytes 4 uiImageType)) ++ payload

/-- The files of an unpacked root file system, by path. -/
abbrev RootFs := List (List Bytes × Bytes)

/-- `glob("lib/modules/*/net/wlan.ko")`. -/
def RootFs.modules (rootfs : RootFs) : RootFs :=
  rootfs.filter fun file =>
    match file.1 with
    | [lib, modules, _, net, name] =>
        lib = ascii "lib" ∧ modules = ascii "modules" ∧ net = ascii "net" ∧ name = ascii "wlan.ko"
    | _ => False

/-- `module.write_bytes(contents)`. -/
def RootFs.write (rootfs : RootFs) (path : List Bytes) (contents : Bytes) : RootFs :=
  rootfs.map fun file => if file.1 = path then (path, contents) else file

/-- The SquashFS tools. The second one is told which image it packs for. -/
structure SquashTools (F : Type) where
  unsquashfs : Bytes → Except BuildError RootFs
  mksquashfs : F → RootFs → Except BuildError Bytes

/-- `patch_image`, with the rules of the catalog. -/
def patchImage {F : Type} (artifacts : List Artifact) (patches : List PatchRule)
    (tools : SquashTools F) (source : F) (original : Bytes) : Except BuildError Bytes := do
  let signed := original.length < 0x88 ∨ beNat (imageTypeField.read original) ≠ 0
  let original ← if signed then (signedToUi original).mapError .bl7 else .ok original
  let image ← (parseBl7 original).mapError .bl7
  let rootfs ← tools.unsquashfs image.rootfs
  match rootfs.modules with
  | [module] =>
      let rules ← (rulesForArtifact artifacts patches "ap_11n_scorpion_wlan_ko").mapError .patch
      let (patched, _) ← (applyRules module.2 rules).mapError .patch
      let rebuilt ← tools.mksquashfs source (rootfs.write module.1 patched)
      (image.rebuild none (some rebuilt)).mapError .bl7
  | modules =>
      .error (.valueError
        s!"expected exactly one ap-11n-scorpion wlan.ko, found {modules.length}")

/-- An unsigned image is patched if each of the steps succeeds. -/
theorem patchImage_of_unsigned {F : Type} (artifacts : List Artifact) (patches : List PatchRule)
    (tools : SquashTools F) (source : F) (original : Bytes) (image : Bl7Image) (rootfs : RootFs)
    (module : List Bytes × Bytes) (rules : List PatchRule) (result : Bytes × Bool)
    (rebuilt out : Bytes)
    (hunsigned : ¬ (original.length < 0x88 ∨ beNat (imageTypeField.read original) ≠ 0))
    (himage : parseBl7 original = .ok image) (hrootfs : tools.unsquashfs image.rootfs = .ok rootfs)
    (hmodule : rootfs.modules = [module])
    (hrules : rulesForArtifact artifacts patches "ap_11n_scorpion_wlan_ko" = .ok rules)
    (hresult : applyRules module.2 rules = .ok result)
    (hrebuilt : tools.mksquashfs source (rootfs.write module.1 result.1) = .ok rebuilt)
    (hout : image.rebuild none (some rebuilt) = .ok out) :
    patchImage artifacts patches tools source original = .ok out := by
  unfold patchImage
  simp only [if_neg hunsigned, himage, Except.mapError, ok_bind, hrootfs, hmodule, hrules, hresult,
    hrebuilt, hout]

/-- How long a rebuilt image is. -/
theorem length_rebuild (im : Bl7Image) (rootfs out : Bytes)
    (h : im.rebuild none (some rootfs) = .ok out) :
    out.length = bl7HeaderSize + (paddedKernel im.kernel).length + rootfs.length := by
  have hout := ((rebuild_ok_iff im none (some rootfs) out).mp h).2.2
  rw [Option.getD_none, Option.getD_some] at hout
  have hheader := (im.rebuilt im.kernel rootfs).header.property
  rw [hout, List.length_append, hheader, rebuilt_payload, List.length_append, Nat.add_assoc]

end Zd1200
