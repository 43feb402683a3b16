import Zd1200.Firmware.Bl7

/-!
# Rebuilding Images

`Bl7Image.rebuild`: an image written out again, with a new kernel or a new root
file system in the place of its own.

Rebuilding pads the kernel to the next page, header included, and derives five
fields from the result: the offset of the root file system, the length of the
payload, its digest, and the checksum over the header that holds all of them.
`Bl7Header.describe` is that derivation, and `sound_rebuilt` says that it makes
the parts sound, so that `parseBl7_ok_iff` reads them back. Because `parseBl7`
strips whatever the padded kernel ends in, a kernel that ends in 0xff comes
back shorter, and its padding longer by as much.

Padding is recomputed and not kept. An image parses with its root file system
at any offset at all, and rebuilding moves it to the first page boundary behind
the stripped kernel. `rebuild_reproduces_iff` says for which images that is
where it was: those on a page boundary with less than a page of 0xff in front.

## Main definitions

* `packI`: A number as four bytes.
* `kernelPaddingLength`: How far it is to the next page.
* `withChecksum`: A header with its checksum filled in.
* `Bl7Image.rebuild`: Write an image with new parts.
* `Bl7Header.describe`: The header of a rebuilt image.
* `Fits`: The sizes of the parts fit their fields.
* `Bl7Image.PageLaid`: The image is laid out as rebuilding would.

## Theorems

* `kernelPaddingLength_eq_iff`: The padding is what reaches the page boundary.
* `rebuild_ok_iff`: What rebuilding does, and when.
* `sound_rebuilt`: The parts written are sound.
* `parseBl7_rebuild`: Parsing reads back what was rebuilt.
* `rebuild_reproduces_iff`: Which images are reproduced.
-/

namespace Zd1200

/-- `struct.pack(">I", n)`. -/
def packI (n : Nat) : Except Bl7Error Bytes :=
  if n < 256 ^ 4 then .ok (beBytes 4 n) else .error .structError

/-- `(-(HEADER_SIZE + len(kernel))) % PAGE_SIZE`. -/
def kernelPaddingLength (kernel : Bytes) : Nat :=
  ((-((bl7HeaderSize : Int) + kernel.length)) % (bl7PageSize : Int)).toNat

/-- A header with its checksum filled in, which counts as zero in the sum. -/
def withChecksum (header : Bytes) : Bytes :=
  let zeroed := checksumField.write header [0, 0]
  checksumField.write zeroed (beBytes 2 (internetChecksum zeroed))

/-- Write an image, with recomputed offsets, digest and checksum. -/
def Bl7Image.rebuild (im : Bl7Image) (kernel rootfs : Option Bytes) : Except Bl7Error Bytes := do
  raiseIf (im.imageType ≠ uiImageType)
    (.valueError "refusing to rebuild signed ISI/FSI BL7 image")
  let newKernel := kernel.getD im.kernel
  let newRootfs := rootfs.getD im.rootfs
  let padding := List.replicate (kernelPaddingLength newKernel) 0xff
  let payload := newKernel ++ padding ++ newRootfs
  let nextImage ← packI (bl7HeaderSize + newKernel.length + padding.length)
  let header := nextImageField.write im.header.val nextImage
  let binl7Len ← packI payload.length
  let header := binl7LenField.write header binl7Len
  let header := md5Field.write header (md5 payload)
  return withChecksum header ++ payload

/-! ### The padding -/

/-- The padding is less than a page and ends on a page boundary. -/
theorem kernelPaddingLength_eq_iff (kernel : Bytes) (n : Nat) :
    kernelPaddingLength kernel = n ↔
      n < bl7PageSize ∧ bl7PageSize ∣ bl7HeaderSize + kernel.length + n := by
  simp only [kernelPaddingLength, bl7PageSize, bl7HeaderSize]
  omega

/-! ### The header -/

/-- The fields that rebuilding derives. -/
def derivedFields : List Field := [nextImageField, binl7LenField, md5Field, checksumField]

-- A field that fits the header lies inside whatever has its length.
theorem inside_header (f : Field) (header : Bytes) (h : header.length = bl7HeaderSize)
    (hf : f.offset + f.width ≤ bl7HeaderSize) : f.Inside header := by
  unfold Field.Inside
  rwa [h]

theorem checksumField_inside (header : Bytes) (h : header.length = bl7HeaderSize) :
    checksumField.Inside header :=
  inside_header checksumField header h (by decide)

theorem width_checksum (n : Nat) : (beBytes 2 n).length = checksumField.width :=
  length_beBytes 2 n

@[simp] theorem length_withChecksum (header : Bytes) (h : header.length = bl7HeaderSize) :
    (withChecksum header).length = bl7HeaderSize := by
  have hin := checksumField_inside header h
  have hin' : checksumField.Inside (checksumField.write header [0, 0]) := hin.write hin rfl
  simp only [withChecksum]
  rw [Field.length_write _ _ _ hin' (width_checksum _), Field.length_write _ _ _ hin rfl, h]

/-- Zeroing the checksum again leaves what was summed up. -/
theorem write_withChecksum (header : Bytes) (h : header.length = bl7HeaderSize) :
    checksumField.write (withChecksum header) [0, 0] = checksumField.write header [0, 0] := by
  have hin := checksumField_inside header h
  simp only [withChecksum]
  rw [Field.write_write _ _ _ _ (hin.write hin rfl) (width_checksum _) rfl,
    Field.write_write _ _ _ _ hin rfl rfl]

theorem read_withChecksum (header : Bytes) (h : header.length = bl7HeaderSize) :
    checksumField.read (withChecksum header)
      = beBytes 2 (internetChecksum (checksumField.write header [0, 0])) := by
  have hin := checksumField_inside header h
  simp only [withChecksum]
  exact Field.read_write _ _ _ (hin.write hin rfl) (width_checksum _)

/-- A header whose checksum is right is left alone. -/
theorem withChecksum_eq_self (header : Bytes) (h : header.length = bl7HeaderSize)
    (hsum : internetChecksum (checksumField.write header [0, 0])
      = beNat (checksumField.read header)) : withChecksum header = header := by
  have hin := checksumField_inside header h
  have hread : beBytes 2 (beNat (checksumField.read header)) = checksumField.read header := by
    have := beBytes_beNat (checksumField.read header)
    rwa [Field.length_read _ _ hin] at this
  simp only [withChecksum]
  rw [hsum, hread, Field.write_write _ _ _ _ hin rfl (Field.length_read _ _ hin)]
  exact (Field.write_eq_self_iff _ _ _ hin (Field.length_read _ _ hin)).mpr rfl

-- The checksum is the only field filled in.
theorem getElem?_withChecksum (header : Bytes) (h : header.length = bl7HeaderSize) (i : Nat)
    (hi : ¬ checksumField.Covers i) : (withChecksum header)[i]? = header[i]? := by
  have hin := checksumField_inside header h
  simp only [withChecksum]
  rw [Field.getElem?_write _ _ _ (hin.write hin rfl) (width_checksum _), if_neg hi,
    Field.getElem?_write _ _ _ hin rfl, if_neg hi]

theorem read_withChecksum_apart (f : Field) (header : Bytes) (h : header.length = bl7HeaderSize)
    (hf : f.offset + f.width ≤ bl7HeaderSize) (hap : checksumField.Apart f) :
    f.read (withChecksum header) = f.read header := by
  have hin := checksumField_inside header h
  have hfin := inside_header f header h hf
  simp only [withChecksum]
  rw [Field.read_write_apart _ _ _ _ (hin.write hin rfl) (hfin.write hin rfl)
      (width_checksum _) hap, Field.read_write_apart _ _ _ _ hin hfin rfl hap]

/-- The header of a rebuilt image. -/
def Bl7Header.describe (header : Bl7Header) (nextImage : Nat) (payload : Bytes) : Bytes :=
  withChecksum (md5Field.write (binl7LenField.write (nextImageField.write header.val
    (beBytes 4 nextImage)) (beBytes 4 payload.length)) (md5 payload))

section Describe

variable (header : Bl7Header) (nextImage : Nat) (payload : Bytes)

-- The three writes below the checksum, each into a header of the same length.
theorem describe_writes :
    (nextImageField.write header.val (beBytes 4 nextImage)).length = bl7HeaderSize ∧
    (binl7LenField.write (nextImageField.write header.val (beBytes 4 nextImage))
      (beBytes 4 payload.length)).length = bl7HeaderSize ∧
    (md5Field.write (binl7LenField.write (nextImageField.write header.val (beBytes 4 nextImage))
      (beBytes 4 payload.length)) (md5 payload)).length = bl7HeaderSize := by
  have h₁ := Field.length_write nextImageField header.val (beBytes 4 nextImage)
    (inside_header _ _ header.property (by decide)) (length_beBytes 4 _)
  rw [header.property] at h₁
  have h₂ := Field.length_write binl7LenField _ (beBytes 4 payload.length)
    (inside_header _ _ h₁ (by decide)) (length_beBytes 4 _)
  rw [h₁] at h₂
  have h₃ := Field.length_write md5Field _ (md5 payload)
    (inside_header _ _ h₂ (by decide)) (length_md5 _)
  rw [h₂] at h₃
  exact ⟨h₁, h₂, h₃⟩

@[simp] theorem length_describe : (header.describe nextImage payload).length = bl7HeaderSize :=
  length_withChecksum _ (describe_writes header nextImage payload).2.2

/-- Outside the derived fields a rebuilt header is the old one. -/
theorem getElem?_describe (i : Nat) (hi : ∀ f ∈ derivedFields, ¬ f.Covers i) :
    (header.describe nextImage payload)[i]? = header.val[i]? := by
  rcases describe_writes header nextImage payload with ⟨h₁, h₂, h₃⟩
  simp only [derivedFields, List.forall_mem_cons, List.not_mem_nil, false_implies, implies_true,
    and_true] at hi
  rcases hi with ⟨hnext, hlen, hmd5, hsum⟩
  unfold Bl7Header.describe
  rw [getElem?_withChecksum _ h₃ i hsum,
    Field.getElem?_write md5Field _ _ (inside_header _ _ h₂ (by decide)) (length_md5 _),
    if_neg hmd5,
    Field.getElem?_write binl7LenField _ _ (inside_header _ _ h₁ (by decide)) (length_beBytes 4 _),
    if_neg hlen,
    Field.getElem?_write nextImageField _ _ (inside_header _ _ header.property (by decide))
      (length_beBytes 4 _), if_neg hnext]

-- So a field apart from them reads as before.
theorem read_describe (f : Field) (hf : f.offset + f.width ≤ bl7HeaderSize)
    (hap : ∀ g ∈ derivedFields, g.Apart f) :
    f.read (header.describe nextImage payload) = f.read header.val := by
  have hin := inside_header f _ header.property hf
  refine Field.read_ext _ _ _ (inside_header f _ (length_describe _ _ _) hf)
    (Field.length_read _ _ hin) fun k hk => ?_
  rw [getElem?_describe header nextImage payload (f.offset + k), Field.getElem?_read f _ hin k hk]
  intro g hg hc
  have := hap g hg
  unfold Field.Apart at this
  unfold Field.Covers at hc
  omega

theorem read_describe_nextImage :
    nextImageField.read (header.describe nextImage payload) = beBytes 4 nextImage := by
  rcases describe_writes header nextImage payload with ⟨h₁, h₂, h₃⟩
  unfold Bl7Header.describe
  rw [read_withChecksum_apart _ _ h₃ (by decide) (by decide),
    Field.read_write_apart md5Field _ _ _ (inside_header _ _ h₂ (by decide))
      (inside_header _ _ h₂ (by decide)) (length_md5 _) (by decide),
    Field.read_write_apart binl7LenField _ _ _ (inside_header _ _ h₁ (by decide))
      (inside_header _ _ h₁ (by decide)) (length_beBytes 4 _) (by decide),
    Field.read_write nextImageField _ _ (inside_header _ _ header.property (by decide))
      (length_beBytes 4 _)]

theorem read_describe_binl7Len :
    binl7LenField.read (header.describe nextImage payload) = beBytes 4 payload.length := by
  rcases describe_writes header nextImage payload with ⟨h₁, h₂, h₃⟩
  unfold Bl7Header.describe
  rw [read_withChecksum_apart _ _ h₃ (by decide) (by decide),
    Field.read_write_apart md5Field _ _ _ (inside_header _ _ h₂ (by decide))
      (inside_header _ _ h₂ (by decide)) (length_md5 _) (by decide),
    Field.read_write binl7LenField _ _ (inside_header _ _ h₁ (by decide)) (length_beBytes 4 _)]

theorem read_describe_md5 :
    md5Field.read (header.describe nextImage payload) = md5 payload := by
  rcases describe_writes header nextImage payload with ⟨h₁, h₂, h₃⟩
  unfold Bl7Header.describe
  rw [read_withChecksum_apart _ _ h₃ (by decide) (by decide),
    Field.read_write md5Field _ _ (inside_header _ _ h₂ (by decide)) (length_md5 _)]

/-- The checksum of a rebuilt header is right. -/
theorem checksum_describe :
    internetChecksum (checksumField.write (header.describe nextImage payload) [0, 0])
      = beNat (checksumField.read (header.describe nextImage payload)) := by
  rcases describe_writes header nextImage payload with ⟨h₁, h₂, h₃⟩
  unfold Bl7Header.describe
  rw [write_withChecksum _ h₃, read_withChecksum _ h₃, beNat_beBytes 2 _ (internetChecksum_lt _)]

end Describe

/-! ### Rebuilding -/

/-- The kernel with its padding up to the page boundary. -/
def paddedKernel (kernel : Bytes) : Bytes :=
  kernel ++ List.replicate (kernelPaddingLength kernel) 0xff

@[simp] theorem length_paddedKernel (kernel : Bytes) :
    (paddedKernel kernel).length = kernel.length + kernelPaddingLength kernel := by
  rw [paddedKernel, List.length_append, List.length_replicate]

/-- The sizes of the parts fit the two fields that hold them. -/
def Fits (kernel rootfs : Bytes) : Prop :=
  bl7HeaderSize + (paddedKernel kernel).length < 256 ^ 4 ∧
    (paddedKernel kernel ++ rootfs).length < 256 ^ 4

/-- The image that rebuilding writes. -/
def Bl7Image.rebuilt (im : Bl7Image) (kernel rootfs : Bytes) : Bl7Image :=
  let padded := paddedKernel kernel
  ⟨⟨im.header.describe (bl7HeaderSize + padded.length) (padded ++ rootfs),
    length_describe _ _ _⟩, rstrip padded 0xff, rootfs, padded.drop (rstrip padded 0xff).length⟩

theorem rebuilt_header (im : Bl7Image) (kernel rootfs : Bytes) :
    (im.rebuilt kernel rootfs).header.val
      = im.header.describe (bl7HeaderSize + (paddedKernel kernel).length)
          (paddedKernel kernel ++ rootfs) := rfl

theorem rebuilt_padded (im : Bl7Image) (kernel rootfs : Bytes) :
    (im.rebuilt kernel rootfs).kernel ++ (im.rebuilt kernel rootfs).kernelPadding
      = paddedKernel kernel :=
  rstrip_append_drop _ _

theorem rebuilt_payload (im : Bl7Image) (kernel rootfs : Bytes) :
    (im.rebuilt kernel rootfs).payload = paddedKernel kernel ++ rootfs := by
  rw [Bl7Image.payload, rebuilt_padded]
  rfl

theorem packI_ok_iff (n : Nat) (bs : Bytes) :
    packI n = .ok bs ↔ n < 256 ^ 4 ∧ bs = beBytes 4 n := by
  unfold packI
  by_cases h : n < 256 ^ 4
  · rw [if_pos h, Except.ok.injEq, eq_comm]
    exact ⟨fun heq => ⟨h, heq⟩, fun heq => heq.2⟩
  · rw [if_neg h]
    simp only [reduceCtorEq, h, false_and]

/-- What rebuilding does, and when it does. -/
theorem rebuild_ok_iff (im : Bl7Image) (kernel rootfs : Option Bytes) (out : Bytes) :
    im.rebuild kernel rootfs = .ok out ↔
      im.imageType = uiImageType ∧ Fits (kernel.getD im.kernel) (rootfs.getD im.rootfs) ∧
        out = (im.rebuilt (kernel.getD im.kernel) (rootfs.getD im.rootfs)).header.val
          ++ (im.rebuilt (kernel.getD im.kernel) (rootfs.getD im.rootfs)).payload := by
  rw [rebuilt_payload, rebuilt_header]
  unfold Bl7Image.rebuild Bl7Header.describe
  simp only [bind_ok_iff, raiseIf_ok_iff, pure_ok_iff, packI_ok_iff, exists_const, ne_eq,
    Decidable.not_not]
  have hlen : ∀ k : Bytes, bl7HeaderSize + k.length
      + (List.replicate (kernelPaddingLength k) (0xff : UInt8)).length
        = bl7HeaderSize + (paddedKernel k).length := by
    intro k
    rw [length_paddedKernel, List.length_replicate]
    omega
  have hpadded : ∀ k : Bytes,
      k ++ List.replicate (kernelPaddingLength k) (0xff : UInt8) = paddedKernel k := fun _ => rfl
  simp only [hlen, hpadded, Fits]
  constructor
  · rintro ⟨htype, next, ⟨hnext, rfl⟩, len, ⟨hlen', rfl⟩, heq⟩
    exact ⟨htype, ⟨hnext, hlen'⟩, heq.symm⟩
  · rintro ⟨htype, ⟨hnext, hlen'⟩, heq⟩
    exact ⟨htype, _, ⟨hnext, rfl⟩, _, ⟨hlen', rfl⟩, heq.symm⟩

/-- The parts written are sound. -/
theorem sound_rebuilt (im : Bl7Image) (kernel rootfs : Bytes) (h : im.Sound)
    (hfits : Fits kernel rootfs) : (im.rebuilt kernel rootfs).Sound := by
  rcases hfits with ⟨hnext, hlen⟩
  refine ⟨?_, ?_, ?_, ?_, ?_, ?_, ?_, ?_⟩
  · rw [rebuilt_header, read_describe _ _ _ magicField (by decide) (by decide)]
    exact h.magic
  · have hold := h.hdrLen
    simp only [Bl7Header.hdrLen, List.getD_eq_getElem?_getD] at hold ⊢
    rw [rebuilt_header, getElem?_describe _ _ _ 9 (by decide)]
    exact hold
  · have hold := h.imageType
    unfold Bl7Image.imageType Bl7Header.imageType at hold ⊢
    rw [rebuilt_header, read_describe _ _ _ imageTypeField (by decide) (by decide)]
    exact hold
  · unfold Bl7Header.nextImage
    rw [rebuilt_padded, rebuilt_header, read_describe_nextImage, beNat_beBytes 4 _ hnext]
  · unfold Bl7Header.binl7Len
    rw [rebuilt_payload, rebuilt_header, read_describe_binl7Len, beNat_beBytes 4 _ hlen]
  · rw [rebuilt_payload, rebuilt_header, read_describe_md5]
  · unfold Bl7Header.checksum
    rw [rebuilt_header]
    exact checksum_describe _ _ _
  · rw [rebuilt_padded]
    rfl

/-- Parsing reads back what was rebuilt. -/
theorem parseBl7_rebuild (data : Bytes) (im : Bl7Image) (kernel rootfs : Option Bytes)
    (h : parseBl7 data = .ok im)
    (hfits : Fits (kernel.getD im.kernel) (rootfs.getD im.rootfs)) :
    ∃ out im', im.rebuild kernel rootfs = .ok out ∧ parseBl7 out = .ok im' ∧
      im'.rootfs = rootfs.getD im.rootfs ∧
      im'.kernel = rstrip (kernel.getD im.kernel) 0xff ∧
      (∃ n, im'.kernel ++ im'.kernelPadding = kernel.getD im.kernel ++ List.replicate n 0xff ∧
        n < bl7PageSize ∧ bl7PageSize ∣ bl7HeaderSize + (kernel.getD im.kernel).length + n) ∧
      ∀ i, (∀ f ∈ derivedFields, ¬ f.Covers i) → im'.header.val[i]? = im.header.val[i]? := by
  have hs := ((parseBl7_ok_iff data im).mp h).1
  refine ⟨_, im.rebuilt (kernel.getD im.kernel) (rootfs.getD im.rootfs),
    (rebuild_ok_iff im kernel rootfs _).mpr ⟨hs.imageType, hfits, rfl⟩,
    (parseBl7_ok_iff _ _).mpr ⟨sound_rebuilt im _ _ hs hfits, [], ?_⟩, rfl, ?_, ?_, ?_⟩
  · rw [List.append_nil]
  · exact rstrip_append_replicate _ _ _
  · have hpad := (kernelPaddingLength_eq_iff (kernel.getD im.kernel) _).mp rfl
    exact ⟨kernelPaddingLength (kernel.getD im.kernel), rebuilt_padded im _ _, hpad⟩
  · exact getElem?_describe _ _ _

/-- Some image: two bytes of kernel, two of padding and two of root file system. -/
def smallHeader : Bl7Header :=
  ⟨[0x52, 0x43, 0x4b, 0x53, 0, 0, 0, 164, 0, 160, 0, 0, 0, 0, 0, 0, 0, 0, 0, 6, 0, 0, 0, 0,
    0xae, 0x86, 0xbf, 0xeb, 0x8b, 0x7b, 0x82, 0xd8, 0xa5, 0xa2, 0xb1, 0x7e, 0xec, 0xc3, 0x28, 0x42,
    0, 0, 0x78, 0x31] ++ List.replicate 116 0, by decide +kernel⟩

def smallParts : Bl7Image := ⟨smallHeader, [0x27, 0x05], [0x68, 0x73], [0xff, 0xff]⟩

def smallImage : Bytes := smallHeader.val ++ smallParts.payload

theorem parseBl7_smallImage : parseBl7 smallImage = .ok smallParts := by
  decide +kernel

/-- The small image with a kernel that ends in 0xff, which comes back without. -/
theorem parseBl7_rebuild_small :
    ∃ out im', smallParts.rebuild (some [0x27, 0xff]) none = .ok out ∧ parseBl7 out = .ok im' ∧
      im'.rootfs = [0x68, 0x73] ∧ im'.kernel = [0x27] ∧
      (∃ n, im'.kernel ++ im'.kernelPadding = [0x27, 0xff] ++ List.replicate n 0xff ∧
        n < bl7PageSize ∧ bl7PageSize ∣ bl7HeaderSize + 2 + n) ∧
      ∀ i, (∀ f ∈ derivedFields, ¬ f.Covers i) → im'.header.val[i]? = smallParts.header.val[i]? :=
  parseBl7_rebuild smallImage smallParts (some [0x27, 0xff]) none parseBl7_smallImage
    ⟨by rw [length_paddedKernel]; decide, by
      rw [List.length_append, length_paddedKernel]; decide⟩

/-! ### Rebuilding an unmodified image -/

/-- The image is laid out as rebuilding would: its root file system starts on a
    page boundary, with less than a page of padding in front. -/
def Bl7Image.PageLaid (im : Bl7Image) : Prop :=
  bl7PageSize ∣ im.header.nextImage ∧ im.kernelPadding.length < bl7PageSize

section Reproduce

variable {im : Bl7Image}

/-- Then its padding is the one rebuilding computes. -/
theorem pageLaid_iff (h : im.Sound) :
    im.PageLaid ↔ kernelPaddingLength im.kernel = im.kernelPadding.length := by
  rw [kernelPaddingLength_eq_iff, Bl7Image.PageLaid, h.nextImage, List.length_append, Nat.add_assoc,
    and_comm]

-- The padding of a sound image is nothing but 0xff.
theorem kernelPadding_eq (h : im.Sound) :
    im.kernelPadding = List.replicate im.kernelPadding.length 0xff := by
  have hdrop := drop_rstrip (im.kernel ++ im.kernelPadding) 0xff
  rw [← h.stripped, List.drop_left, List.length_append, Nat.add_sub_cancel_left] at hdrop
  exact hdrop

-- What the fields of a sound image hold does not exceed them.
theorem fits_of_sound (h : im.Sound) (rootfs : Bytes)
    (hpad : kernelPaddingLength im.kernel ≤ im.kernelPadding.length)
    (hroot : rootfs.length ≤ im.rootfs.length) : Fits im.kernel rootfs := by
  have hnext := beNat_lt (nextImageField.read im.header.val)
  have hlen := beNat_lt (binl7LenField.read im.header.val)
  rw [Field.length_read _ _ (inside_header _ _ im.header.property (by decide))] at hnext hlen
  have hn := h.nextImage
  have hl := h.binl7Len
  simp only [Bl7Image.payload, List.length_append] at hn hl
  simp only [Fits, length_paddedKernel, List.length_append]
  constructor
  · change im.header.nextImage < 256 ^ 4 at hnext
    omega
  · change im.header.binl7Len < 256 ^ 4 at hlen
    omega

/-- A sound header describes its own parts. -/
theorem describe_self (h : im.Sound) :
    im.header.describe im.header.nextImage im.payload = im.header.val := by
  have hin : ∀ f : Field, f.offset + f.width ≤ bl7HeaderSize → f.Inside im.header.val :=
    fun f hf => inside_header f _ im.header.property hf
  have hnext : beBytes 4 im.header.nextImage = nextImageField.read im.header.val := by
    have := beBytes_beNat (nextImageField.read im.header.val)
    rwa [Field.length_read _ _ (hin _ (by decide))] at this
  have hlen : beBytes 4 im.header.binl7Len = binl7LenField.read im.header.val := by
    have := beBytes_beNat (binl7LenField.read im.header.val)
    rwa [Field.length_read _ _ (hin _ (by decide))] at this
  have hself : ∀ f : Field, f.offset + f.width ≤ bl7HeaderSize →
      f.write im.header.val (f.read im.header.val) = im.header.val := fun f hf =>
    (Field.write_eq_self_iff f _ _ (hin f hf) (Field.length_read f _ (hin f hf))).mpr rfl
  unfold Bl7Header.describe
  rw [hnext, hself _ (by decide), ← h.binl7Len, hlen, hself _ (by decide), h.md5,
    hself _ (by decide)]
  exact withChecksum_eq_self _ im.header.property h.checksum

/-- An image on its pages is rebuilt as it was. -/
theorem rebuild_of_pageLaid (h : im.Sound) (hlaid : im.PageLaid) :
    im.rebuild none none = .ok (im.header.val ++ im.payload) := by
  have hpad := (pageLaid_iff h).mp hlaid
  have hpadded : paddedKernel im.kernel = im.kernel ++ im.kernelPadding := by
    rw [paddedKernel, hpad, ← kernelPadding_eq h]
  refine (rebuild_ok_iff im none none _).mpr ⟨h.imageType, ?_, ?_⟩
  · exact fits_of_sound h im.rootfs (Nat.le_of_eq hpad) (Nat.le_refl _)
  · rw [rebuilt_payload, rebuilt_header]
    simp only [Option.getD_none]
    rw [hpadded, ← h.nextImage]
    change _ = im.header.describe im.header.nextImage im.payload ++ im.payload
    rw [describe_self h]

-- Only an image on its pages keeps its length.
theorem pageLaid_of_rebuild (h : im.Sound) (out : Bytes) (hout : im.rebuild none none = .ok out)
    (hlen : out.length = bl7HeaderSize + im.payload.length) : im.PageLaid := by
  have heq := ((rebuild_ok_iff im none none out).mp hout).2.2
  simp only [Option.getD_none] at heq
  rw [heq, rebuilt_payload, rebuilt_header] at hlen
  simp only [List.length_append, length_describe, length_paddedKernel, Bl7Image.payload] at hlen
  exact (pageLaid_iff h).mpr (by omega)

/-- The kernel area of a rebuilt image, when the padding has not shrunk. -/
theorem slice_rebuilt_kernel (h : im.Sound) (rootfs : Bytes)
    (hpad : im.kernelPadding.length ≤ kernelPaddingLength im.kernel) :
    slice ((im.rebuilt im.kernel rootfs).header.val ++ (im.rebuilt im.kernel rootfs).payload)
        (bl7HeaderSize : Int) (im.header.nextImage : Int)
      = im.kernel ++ im.kernelPadding := by
  have hsplit : paddedKernel im.kernel = (im.kernel ++ im.kernelPadding)
      ++ List.replicate (kernelPaddingLength im.kernel - im.kernelPadding.length) 0xff := by
    have hp := kernelPadding_eq h
    rw [paddedKernel, List.append_assoc, hp, List.length_replicate, ← List.replicate_add,
      Nat.add_sub_cancel' hpad]
  rw [rebuilt_payload, hsplit, List.append_assoc]
  have hparts := slice_parts (im.rebuilt im.kernel rootfs).header (im.kernel ++ im.kernelPadding)
    (List.replicate (kernelPaddingLength im.kernel - im.kernelPadding.length) 0xff) rootfs
    im.header.nextImage _ h.nextImage rfl
  rw [List.append_assoc (im.kernel ++ im.kernelPadding)] at hparts
  exact hparts.1

-- With nothing behind it, a kernel area that has shrunk falls short.
theorem padding_le_of_kept (h : im.Sound)
    (hkept : ∀ out, im.rebuild none (some []) = .ok out →
      (slice out (bl7HeaderSize : Int) (im.header.nextImage : Int)).length
        = (im.kernel ++ im.kernelPadding).length) :
    im.kernelPadding.length ≤ kernelPaddingLength im.kernel := by
  by_contra hc
  have hfits : Fits im.kernel [] :=
    fits_of_sound h [] (Nat.le_of_lt (Nat.lt_of_not_le hc)) (Nat.zero_le _)
  have hout := hkept _ ((rebuild_ok_iff im none (some []) _).mpr ⟨h.imageType, hfits, rfl⟩)
  simp only [Option.getD_none, Option.getD_some] at hout
  have hnext := h.nextImage
  rw [List.length_append] at hnext hout
  have hle := length_slice_le ((im.rebuilt im.kernel []).header.val
    ++ (im.rebuilt im.kernel []).payload) bl7HeaderSize im.header.nextImage
    (by rw [List.length_append, rebuilt_header, length_describe]; omega)
  rw [hout, List.length_append, rebuilt_header, length_describe, rebuilt_payload,
    List.append_nil, length_paddedKernel] at hle
  omega

end Reproduce

/-- Rebuilding reproduces exactly the images that are laid out on their pages.
    With another root file system it leaves the kernel area as it was exactly
    when the area has no more padding than it would be given. -/
theorem rebuild_reproduces_iff (data : Bytes) (im : Bl7Image) (h : parseBl7 data = .ok im) :
    (im.rebuild none none = .ok (data.take (bl7HeaderSize + im.header.binl7Len)) ↔
      im.PageLaid) ∧
    ((∀ rootfs out, im.rebuild none (some rootfs) = .ok out →
        slice out (bl7HeaderSize : Int) (im.header.nextImage : Int)
          = slice data (bl7HeaderSize : Int) (im.header.nextImage : Int)) ↔
      im.kernelPadding.length ≤ kernelPaddingLength im.kernel) := by
  rcases (parseBl7_ok_iff data im).mp h with ⟨hs, tail, rfl⟩
  have htake : (im.header.val ++ (im.payload ++ tail)).take (bl7HeaderSize + im.header.binl7Len)
      = im.header.val ++ im.payload := by
    rw [← List.append_assoc]
    exact List.take_left' (by rw [List.length_append, im.header.property, hs.binl7Len])
  have hslice : slice (im.header.val ++ (im.payload ++ tail)) (bl7HeaderSize : Int)
      (im.header.nextImage : Int) = im.kernel ++ im.kernelPadding :=
    (slice_parts im.header (im.kernel ++ im.kernelPadding) im.rootfs tail im.header.nextImage _
      hs.nextImage rfl).1
  rw [htake, hslice]
  refine ⟨⟨fun hout => ?_, rebuild_of_pageLaid hs⟩, fun hkept => ?_, fun hpad rootfs out hout => ?_⟩
  · exact pageLaid_of_rebuild hs _ hout (by rw [List.length_append, im.header.property])
  · exact padding_le_of_kept hs fun out hout => by rw [hkept [] out hout]
  · rw [((rebuild_ok_iff im none (some rootfs) out).mp hout).2.2]
    exact slice_rebuilt_kernel hs rootfs hpad

/-- The small image is not on a page, so rebuilding does not reproduce it; but
    its kernel area stays with every root file system. -/
theorem rebuild_reproduces_small :
    smallParts.rebuild none none
        ≠ .ok (smallImage.take (bl7HeaderSize + smallParts.header.binl7Len)) ∧
    ∀ rootfs out, smallParts.rebuild none (some rootfs) = .ok out →
      slice out (bl7HeaderSize : Int) (smallParts.header.nextImage : Int)
        = slice smallImage (bl7HeaderSize : Int) (smallParts.header.nextImage : Int) := by
  rcases rebuild_reproduces_iff smallImage smallParts parseBl7_smallImage with ⟨hsame, hkernel⟩
  exact ⟨fun h => absurd (hsame.mp h).1 (by decide +kernel), hkernel.mpr (by decide)⟩

/-- Its rebuilding is not its declared part, so not every image is reproduced. -/
theorem rebuild_moves_small :
    ¬ ∀ data im, parseBl7 data = .ok im →
      im.rebuild none none = .ok (data.take (bl7HeaderSize + im.header.binl7Len)) ∧
      ∀ rootfs out, im.rebuild none (some rootfs) = .ok out →
        slice out (bl7HeaderSize : Int) (im.header.nextImage : Int)
          = slice data (bl7HeaderSize : Int) (im.header.nextImage : Int) := by
  intro hall
  have hs := ((parseBl7_ok_iff _ _).mp parseBl7_smallImage).1
  have hlaid := pageLaid_of_rebuild hs _ (hall _ _ parseBl7_smallImage).1 (by decide +kernel)
  exact absurd hlaid.1 (by decide +kernel)

end Zd1200
