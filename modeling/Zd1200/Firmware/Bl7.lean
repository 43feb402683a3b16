import Mathlib.Data.List.DropRight
import Zd1200.Lib.BigEndian
import Zd1200.Lib.Checked
import Zd1200.Lib.Fields
import Zd1200.Lib.Md5

/-!
# BL7 Images

The container of an access point's firmware, as `ruckus_bl7.py` reads it.

An image is a header of 160 bytes, a kernel padded with 0xff, and a root file
system. The header holds the offset of the root file system, the length of
everything behind the header, an MD5 digest of that and a checksum of itself.
Where the kernel ends is stored nowhere: `parseBl7` takes the bytes in front of
the root file system and strips every 0xff off their end.

`Bl7Image.Sound` says what a parsed image has to satisfy without reference to
any offset in the input: the header describes the parts. `parseBl7_ok_iff` is
the whole of parsing in these terms. What parses is a sound image written out
part by part, and then anything at all, since nothing behind the declared
payload is looked at.

## Main definitions

* `Bl7Error`: The exceptions of the tool.
* `internetChecksum`: The checksum of a header.
* `rstrip`: Drop a byte from the end as often as it stands there.
* `Bl7Header`: A header, which has its length.
* `Bl7Image`: The parts of an image.
* `parseBl7`: Split an image into its parts.
* `Bl7Image.Sound`: The header describes the parts.

## Theorems

* `foldCarries_lt`: The last loop of the checksum has ended.
* `rstrip_append_replicate`: Padding is stripped off again.
* `parseBl7_ok_iff`: What parses, and as what.
-/

namespace Zd1200

/-- The exceptions of the tool. `struct.pack` refuses a number too wide. -/
inductive Bl7Error
  | valueError (message : String)
  | structError
  deriving DecidableEq, Repr

def bl7HeaderSize : Nat := 160

/-- The four bytes `RCKS`. -/
def bl7Magic : Bytes := [0x52, 0x43, 0x4b, 0x53]

def uiImageType : Nat := 0

def bl7PageSize : Nat := 0x10000

/-! ### The fields -/

def magicField : Field := ⟨0, 4⟩

def nextImageField : Field := ⟨4, 4⟩

def binl7LenField : Field := ⟨0x10, 4⟩

def md5Field : Field := ⟨0x18, 16⟩

def checksumField : Field := ⟨0x2A, 2⟩

def imageTypeField : Field := ⟨0x84, 4⟩

/-! ### The checksum -/

/-- `(total & 0xFFFF) + (total >> 16)`. -/
def foldCarry (total : Nat) : Nat := total % 0x10000 + total / 0x10000

/-- The loop over the words, an odd byte at the end counting as a high one. -/
def sumWords : Nat → Bytes → Nat
  | total, [] => total
  | total, [b] => foldCarry (total + beNat [b, 0])
  | total, b :: c :: rest => sumWords (foldCarry (total + beNat [b, c])) rest

/-- The loop `while total >> 16`, with as many rounds as it can need. -/
def foldCarries : Nat → Nat → Nat
  | 0, total => total
  | rounds + 1, total =>
      if total / 0x10000 = 0 then total else foldCarries rounds (foldCarry total)

/-- The checksum of a header, `~total & 0xFFFF`. -/
def internetChecksum (data : Bytes) : Nat :=
  let total := sumWords 0 data
  0xFFFF - foldCarries total total % 0x10000

-- A carry is worth less once it is folded in.
theorem foldCarry_lt (total : Nat) (h : total / 0x10000 ≠ 0) : foldCarry total < total := by
  unfold foldCarry
  omega

/-- The last loop has ended when its rounds have. -/
theorem foldCarries_lt (rounds total : Nat) (h : total ≤ rounds) :
    foldCarries rounds total < 0x10000 := by
  induction rounds generalizing total with
  | zero =>
      rw [foldCarries]
      omega
  | succ rounds ih =>
      rw [foldCarries]
      by_cases hz : total / 0x10000 = 0
      · rw [if_pos hz]
        omega
      · have := foldCarry_lt total hz
        rw [if_neg hz]
        exact ih _ (by omega)

theorem internetChecksum_lt (data : Bytes) : internetChecksum data < 256 ^ 2 := by
  simp only [internetChecksum]
  omega

/-! ### Stripping -/

/-- `bs.rstrip(b)`. -/
def rstrip (bs : Bytes) (b : UInt8) : Bytes := bs.rdropWhile (· == b)

/-- Padding is stripped off again, with what the bytes ended in. -/
theorem rstrip_append_replicate (bs : Bytes) (b : UInt8) (n : Nat) :
    rstrip (bs ++ List.replicate n b) b = rstrip bs b := by
  induction n with
  | zero => rw [List.replicate_zero, List.append_nil]
  | succ n ih =>
      have hb : (b == b) = true := beq_self_eq_true b
      rw [List.replicate_succ', ← List.append_assoc]
      unfold rstrip at ih ⊢
      rw [List.rdropWhile_concat_pos (fun x => x == b) _ b hb, ih]

/-- What was stripped stands behind what is left. -/
theorem rstrip_append_drop (bs : Bytes) (b : UInt8) :
    rstrip bs b ++ bs.drop (rstrip bs b).length = bs :=
  List.prefix_iff_eq_append.mp (List.rdropWhile_prefix _ _)

-- Only that byte was stripped.
theorem drop_rstrip (bs : Bytes) (b : UInt8) :
    bs.drop (rstrip bs b).length
      = List.replicate (bs.length - (rstrip bs b).length) b := by
  have hsplit : rstrip bs b ++ bs.rtakeWhile (· == b) = bs := List.rdropWhile_append_rtakeWhile
  have hdrop : bs.drop (rstrip bs b).length = bs.rtakeWhile (· == b) :=
    List.append_cancel_left ((rstrip_append_drop bs b).trans hsplit.symm)
  rw [List.eq_replicate_iff]
  refine ⟨by rw [List.length_drop], fun x hx => ?_⟩
  rw [hdrop] at hx
  exact beq_iff_eq.mp (List.mem_rtakeWhile_imp (p := fun y => y == b) hx)

/-! ### Images -/

/-- A header, which has its length. -/
abbrev Bl7Header := { header : Bytes // header.length = bl7HeaderSize }

namespace Bl7Header

/-- `header[9]`. -/
def hdrLen (header : Bl7Header) : Nat := (header.val.getD 9 0).toNat

def nextImage (header : Bl7Header) : Nat := beNat (nextImageField.read header.val)

def binl7Len (header : Bl7Header) : Nat := beNat (binl7LenField.read header.val)

def imageType (header : Bl7Header) : Nat := beNat (imageTypeField.read header.val)

def checksum (header : Bl7Header) : Nat := beNat (checksumField.read header.val)

end Bl7Header

/-- The parts of an image. -/
structure Bl7Image where
  header : Bl7Header
  kernel : Bytes
  rootfs : Bytes
  kernelPadding : Bytes
  deriving DecidableEq

def Bl7Image.imageType (im : Bl7Image) : Nat := im.header.imageType

/-- The header of some data that starts with the magic number. -/
def bl7Header (data : Bytes) : Except Bl7Error Bl7Header :=
  if h : data.length < bl7HeaderSize ∨ magicField.read data ≠ bl7Magic then
    .error (.valueError "not a Ruckus BL7 image")
  else
    .ok ⟨data.take bl7HeaderSize, by
      rw [List.length_take, Nat.min_eq_left (Nat.le_of_not_lt (fun hc => h (Or.inl hc)))]⟩

/-- Split an unsigned image into header, kernel and root file system. -/
def parseBl7 (data : Bytes) : Except Bl7Error Bl7Image := do
  let header ← bl7Header data
  let hdrLen := header.hdrLen
  raiseIf (hdrLen ≠ bl7HeaderSize) (.valueError s!"unsupported BL7 header length: {hdrLen}")
  let nextImage := header.nextImage
  raiseIf (header.imageType ≠ uiImageType)
    (.valueError "signed ISI/FSI BL7 images are not supported")
  let payloadEnd := bl7HeaderSize + header.binl7Len
  raiseIf (nextImage < bl7HeaderSize ∨ nextImage > payloadEnd ∨ payloadEnd > data.length)
    (.valueError "BL7 offsets exceed image bounds")
  let kernelPadded := slice data bl7HeaderSize nextImage
  let kernel := rstrip kernelPadded 0xff
  let padding := kernelPadded.drop kernel.length
  let rootfs := slice data nextImage payloadEnd
  let payload := kernelPadded ++ rootfs
  raiseIf (md5 payload ≠ md5Field.read header.val) (.valueError "BL7 payload MD5 mismatch")
  raiseIf (internetChecksum (checksumField.write header.val [0, 0]) ≠ header.checksum)
    (.valueError "BL7 header checksum mismatch")
  return ⟨header, kernel, rootfs, padding⟩

namespace Bl7Image

/-- Everything behind the header. -/
def payload (im : Bl7Image) : Bytes := im.kernel ++ im.kernelPadding ++ im.rootfs

/-- The header describes the parts. -/
structure Sound (im : Bl7Image) : Prop where
  magic : magicField.read im.header.val = bl7Magic
  hdrLen : im.header.hdrLen = bl7HeaderSize
  imageType : im.imageType = uiImageType
  nextImage : im.header.nextImage = bl7HeaderSize + (im.kernel ++ im.kernelPadding).length
  binl7Len : im.header.binl7Len = im.payload.length
  md5 : md5 im.payload = md5Field.read im.header.val
  checksum : internetChecksum (checksumField.write im.header.val [0, 0]) = im.header.checksum
  stripped : im.kernel = rstrip (im.kernel ++ im.kernelPadding) 0xff

end Bl7Image

/-- A field of the header is read off it, whatever stands behind the header. -/
theorem read_append_header (f : Field) (header : Bl7Header) (rest : Bytes)
    (hf : f.offset + f.width ≤ bl7HeaderSize) :
    f.read (header.val ++ rest) = f.read header.val := by
  have hlen := header.property
  have hin : f.Inside header.val := by
    unfold Field.Inside
    rwa [hlen]
  refine Field.read_ext _ _ _ ?_ (Field.length_read _ _ hin) fun k hk => ?_
  · unfold Field.Inside at hin ⊢
    rw [List.length_append]
    omega
  · rw [Field.getElem?_read _ _ hin k hk, List.getElem?_append_left (by rw [hlen]; omega)]

theorem bl7Header_ok_iff (data : Bytes) (header : Bl7Header) :
    bl7Header data = .ok header ↔
      magicField.read header.val = bl7Magic ∧ ∃ rest, data = header.val ++ rest := by
  unfold bl7Header
  constructor
  · intro h
    by_cases hc : data.length < bl7HeaderSize ∨ magicField.read data ≠ bl7Magic
    · rw [dif_pos hc] at h
      exact absurd h (by simp only [reduceCtorEq, not_false_eq_true])
    · rw [dif_neg hc, Except.ok.injEq] at h
      have hdata : data = header.val ++ data.drop bl7HeaderSize := by
        rw [← h, List.take_append_drop]
      have hmagic : magicField.read data = bl7Magic := Decidable.not_not.mp fun hn => hc (Or.inr hn)
      rw [hdata, read_append_header magicField header _ (by decide)] at hmagic
      exact ⟨hmagic, _, hdata⟩
  · rintro ⟨hmagic, rest, rfl⟩
    have hlen := header.property
    have hc : ¬ ((header.val ++ rest).length < bl7HeaderSize ∨
        magicField.read (header.val ++ rest) ≠ bl7Magic) := by
      rw [read_append_header magicField header rest (by decide), hmagic, List.length_append, hlen]
      simp only [ne_eq, not_true_eq_false, or_false]
      omega
    rw [dif_neg hc, Except.ok.injEq, Subtype.mk.injEq]
    exact List.take_left' hlen

-- The two slices of some data of which the parts are known.
theorem slice_parts (header : Bl7Header) (padded rootfs tail : Bytes) (nextImage payloadEnd : Nat)
    (hnext : nextImage = bl7HeaderSize + padded.length)
    (hend : payloadEnd = nextImage + rootfs.length) :
    slice (header.val ++ (padded ++ rootfs ++ tail)) (bl7HeaderSize : Int) (nextImage : Int)
        = padded ∧
      slice (header.val ++ (padded ++ rootfs ++ tail)) (nextImage : Int) (payloadEnd : Int)
        = rootfs := by
  have hlen := header.property
  constructor
  · rw [List.append_assoc, ← List.append_assoc]
    exact slice_append _ _ _ _ _ hlen.symm (by rw [hlen, hnext])
  · rw [← List.append_assoc, ← List.append_assoc]
    exact slice_append _ _ _ _ _ (by rw [List.length_append, hlen, hnext])
      (by rw [List.length_append, hlen, hend, hnext])

/-- What parses is a sound image part by part, and then anything. -/
theorem parseBl7_ok_iff (data : Bytes) (im : Bl7Image) :
    parseBl7 data = .ok im ↔
      im.Sound ∧ ∃ tail, data = im.header.val ++ (im.payload ++ tail) := by
  unfold parseBl7
  simp only [bind_ok_iff, raiseIf_ok_iff, pure_ok_iff, bl7Header_ok_iff, exists_const,
    Decidable.not_not, not_or, Nat.not_lt, ne_eq]
  constructor
  · rintro ⟨header, ⟨hmagic, rest, rfl⟩, hlen, htype, ⟨hlo, hmid, hhi⟩, hmd5, hsum, rfl⟩
    -- Cut the rest of the data where the header says.
    rw [List.length_append, header.property] at hhi
    rcases exists_parts rest (header.nextImage - bl7HeaderSize)
      (bl7HeaderSize + header.binl7Len - header.nextImage) (by omega) with
      ⟨padded, rootfs, tail, rfl, hpadded, hrootfs⟩
    rcases slice_parts header padded rootfs tail header.nextImage
      (bl7HeaderSize + header.binl7Len) (by omega) (by omega) with ⟨hkernel, hroot⟩
    rw [hkernel, hroot] at hmd5 ⊢
    have hsplit := rstrip_append_drop padded 0xff
    refine ⟨⟨hmagic, hlen, htype, ?_, ?_, ?_, hsum, ?_⟩, tail, ?_⟩
    · simp only [hsplit]
      omega
    · simp only [Bl7Image.payload, hsplit, List.length_append]
      omega
    · simp only [Bl7Image.payload, hsplit, hmd5]
    · simp only [hsplit]
    · simp only [Bl7Image.payload, hsplit]
  · rintro ⟨hs, tail, rfl⟩
    rcases im with ⟨header, kernel, rootfs, padding⟩
    have hnext := hs.nextImage
    have hlen := hs.binl7Len
    simp only [Bl7Image.payload, List.length_append] at hnext hlen
    rcases slice_parts header (kernel ++ padding) rootfs tail header.nextImage
      (bl7HeaderSize + header.binl7Len) (by rw [List.length_append]; omega) (by omega) with
      ⟨hkernel, hroot⟩
    have hstrip : rstrip (kernel ++ padding) 0xff = kernel := hs.stripped.symm
    refine ⟨header, ⟨hs.magic, _, rfl⟩, hs.hdrLen, hs.imageType, ⟨?_, ?_, ?_⟩, ?_, hs.checksum, ?_⟩
    · omega
    · omega
    · simp only [Bl7Image.payload, List.length_append, header.property]
      omega
    · simp only [Bl7Image.payload, hkernel, hroot]
      exact hs.md5
    · simp only [Bl7Image.payload, hkernel, hroot, hstrip, List.drop_left]

end Zd1200
