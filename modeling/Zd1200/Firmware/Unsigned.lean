import Zd1200.Firmware.Repack

/-!
# Signature Removal

`signed_to_ui` beside `parse_bl7`.

Both validate an image on their own. They read the same header and check it in
another order, and their bounds differ by one comparison: behind a signed
payload there has to be something, the signature, and behind an unsigned one
there may be. What is left of a signed image has nothing behind its payload,
so its length is exactly what the other validator asks for at least. The
digest is of the payload, which stays; the checksum covers the field that
changes and is made anew.

## Main definitions

* `SignedImage`: What a signed image has to satisfy.
* `unsignedHeader`: The header of what is left of it.
* `Converted`: What is expected of the conversion.

## Theorems

* `signedToUi_ok_iff`: What is converted, and into what.
* `parseBl7_unsigned`: What is left parses.
* `signedToUi_converts`: Conversion as a whole.
-/

namespace Zd1200

/-- A signed image, part by part: the header describes the payload, and behind
    the payload stands a signature. -/
structure SignedImage (header : Bl7Header) (payload signature : Bytes) : Prop where
  magic : magicField.read header.val = bl7Magic
  hdrLen : header.hdrLen = bl7HeaderSize
  imageType : header.imageType = 1 ∨ header.imageType = 2
  nextImage : bl7HeaderSize ≤ header.nextImage ∧
    header.nextImage ≤ bl7HeaderSize + header.binl7Len
  binl7Len : header.binl7Len = payload.length
  signed : signature ≠ []
  md5 : md5 payload = md5Field.read header.val
  checksum : internetChecksum (checksumField.write header.val [0, 0]) = header.checksum

/-- The header without the signature's type, and with a checksum again. -/
def unsignedHeader (header : Bl7Header) : Bytes :=
  withChecksum (imageTypeField.write header.val (beBytes 4 uiImageType))

/-- What becomes of an image that is converted. -/
structure Converted (data out : Bytes) : Prop where
  length : out.length = bl7HeaderSize + beNat (binl7LenField.read data)
  parses : ∃ im, parseBl7 out = .ok im ∧
    im.payload = slice data bl7HeaderSize (bl7HeaderSize + beNat (binl7LenField.read data) : Nat)
  payload : out.drop bl7HeaderSize =
    slice data bl7HeaderSize (bl7HeaderSize + beNat (binl7LenField.read data) : Nat)
  header : ∀ i, i < bl7HeaderSize → ¬ imageTypeField.Covers i → ¬ checksumField.Covers i →
    out[i]? = data[i]?
  /-- There were bytes behind the payload, and they are gone. -/
  signature : out.length < data.length

/-! ### The new header -/

theorem imageTypeField_inside (header : Bl7Header) : imageTypeField.Inside header.val :=
  inside_header imageTypeField header.val header.property (by decide)

theorem length_imageType_write (header : Bl7Header) :
    (imageTypeField.write header.val (beBytes 4 uiImageType)).length = bl7HeaderSize := by
  rw [Field.length_write _ _ _ (imageTypeField_inside header) (length_beBytes 4 _), header.property]

theorem length_unsignedHeader (header : Bl7Header) :
    (unsignedHeader header).length = bl7HeaderSize :=
  length_withChecksum _ (length_imageType_write header)

/-- The two fields are the only ones that change. -/
theorem getElem?_unsignedHeader (header : Bl7Header) (i : Nat) (htype : ¬ imageTypeField.Covers i)
    (hsum : ¬ checksumField.Covers i) : (unsignedHeader header)[i]? = header.val[i]? := by
  rw [unsignedHeader, getElem?_withChecksum _ (length_imageType_write header) i hsum,
    Field.getElem?_write _ _ _ (imageTypeField_inside header) (length_beBytes 4 _), if_neg htype]

theorem read_unsignedHeader (f : Field) (header : Bl7Header)
    (hf : f.offset + f.width ≤ bl7HeaderSize) (htype : imageTypeField.Apart f)
    (hsum : checksumField.Apart f) : f.read (unsignedHeader header) = f.read header.val := by
  rw [unsignedHeader, read_withChecksum_apart f _ (length_imageType_write header) hf hsum,
    Field.read_write_apart _ _ _ _ (imageTypeField_inside header)
      (inside_header f header.val header.property hf) (length_beBytes 4 _) htype]

theorem read_unsignedHeader_imageType (header : Bl7Header) :
    beNat (imageTypeField.read (unsignedHeader header)) = uiImageType := by
  rw [unsignedHeader, read_withChecksum_apart imageTypeField _ (length_imageType_write header)
    (by decide) (by decide), Field.read_write _ _ _ (imageTypeField_inside header)
    (length_beBytes 4 _)]
  exact beNat_beBytes 4 uiImageType (by decide)

theorem checksum_unsignedHeader (header : Bl7Header) :
    internetChecksum (checksumField.write (unsignedHeader header) [0, 0])
      = beNat (checksumField.read (unsignedHeader header)) := by
  rw [unsignedHeader, write_withChecksum _ (length_imageType_write header),
    read_withChecksum _ (length_imageType_write header), beNat_beBytes 2 _ (internetChecksum_lt _)]

/-! ### The two validators -/

/-- What is converted is a signed image part by part. -/
theorem signedToUi_ok_iff (data out : Bytes) :
    signedToUi data = .ok out ↔
      ∃ header payload signature, data = header.val ++ (payload ++ signature) ∧
        SignedImage header payload signature ∧ out = unsignedHeader header ++ payload := by
  unfold signedToUi
  simp only [bind_ok_iff, raiseIf_ok_iff, pure_ok_iff, bl7Header_ok_iff, exists_const,
    Decidable.not_not, not_or, Nat.not_lt, ne_eq, not_and_or]
  constructor
  · rintro ⟨header, ⟨hmagic, rest, rfl⟩, hlen, htype, ⟨hlo, hmid, hhi⟩, hmd5, hsum, hout⟩
    -- The payload is as long as the header says, and something is left behind it.
    rw [List.length_append, header.property] at hhi
    have hslice : slice (header.val ++ rest) (bl7HeaderSize : Int)
        ((bl7HeaderSize + header.binl7Len : Nat) : Int) = rest.take header.binl7Len := by
      conv_lhs => rw [← List.take_append_drop header.binl7Len rest, ← List.append_assoc]
      refine slice_append _ _ _ _ _ header.property.symm ?_
      rw [header.property, List.length_take]
      omega
    rw [hslice] at hmd5 hout
    refine ⟨header, rest.take header.binl7Len, rest.drop header.binl7Len, ?_,
      ⟨hmagic, hlen, htype, ⟨hlo, by omega⟩, ?_, fun hnil => ?_, hmd5, hsum⟩, hout.symm⟩
    · rw [List.take_append_drop]
    · rw [List.length_take]
      omega
    · rw [List.drop_eq_nil_iff] at hnil
      omega
  · rintro ⟨header, payload, signature, rfl, h, hout⟩
    have hlen := h.binl7Len
    have hsigned := List.length_pos_iff.mpr h.signed
    have hslice : slice (header.val ++ (payload ++ signature)) (bl7HeaderSize : Int)
        ((bl7HeaderSize + header.binl7Len : Nat) : Int) = payload := by
      rw [← List.append_assoc]
      exact slice_append _ _ _ _ _ header.property.symm (by rw [header.property, hlen])
    refine ⟨header, ⟨h.magic, _, rfl⟩, h.hdrLen, h.imageType,
      ⟨h.nextImage.1, h.nextImage.2, ?_⟩, by rw [hslice]; exact h.md5, h.checksum, by
        rw [hslice, hout]; rfl⟩
    · rw [List.length_append, List.length_append, header.property]
      omega

/-- What is left of a signed image parses, with the payload it had. -/
theorem parseBl7_unsigned (header : Bl7Header) (payload signature : Bytes)
    (h : SignedImage header payload signature) :
    ∃ im, parseBl7 (unsignedHeader header ++ payload) = .ok im ∧ im.payload = payload := by
  have hlen := h.binl7Len
  have hnext := h.nextImage
  -- Cut the payload where the root file system starts.
  rcases exists_parts payload (header.nextImage - bl7HeaderSize)
    (bl7HeaderSize + header.binl7Len - header.nextImage) (by omega) with
    ⟨padded, rootfs, tail, rfl, hpadded, hrootfs⟩
  have htail : tail = [] := by
    rw [List.length_append, List.length_append] at hlen
    exact List.length_eq_zero_iff.mp (by omega)
  subst htail
  rw [List.append_nil] at hlen h ⊢
  have hsplit := rstrip_append_drop padded 0xff
  refine ⟨⟨⟨unsignedHeader header, length_unsignedHeader header⟩, rstrip padded 0xff, rootfs,
    padded.drop (rstrip padded 0xff).length⟩, (parseBl7_ok_iff _ _).mpr ⟨?_, [], ?_⟩, ?_⟩
  · refine ⟨?_, ?_, read_unsignedHeader_imageType header, ?_, ?_, ?_,
      checksum_unsignedHeader header, ?_⟩
    · exact (read_unsignedHeader magicField header (by decide) (by decide) (by decide)).trans h.magic
    · have hbyte := getElem?_unsignedHeader header 9 (by decide) (by decide)
      refine Eq.trans ?_ h.hdrLen
      rw [Bl7Header.hdrLen, Bl7Header.hdrLen, List.getD_eq_getElem?_getD,
        List.getD_eq_getElem?_getD, hbyte]
    · rw [hsplit, Bl7Header.nextImage, read_unsignedHeader nextImageField header (by decide)
        (by decide) (by decide)]
      change header.nextImage = _
      omega
    · rw [Bl7Header.binl7Len, read_unsignedHeader binl7LenField header (by decide) (by decide)
        (by decide), Bl7Image.payload, hsplit]
      exact hlen
    · rw [Bl7Image.payload, hsplit]
      exact h.md5.trans (read_unsignedHeader md5Field header (by decide) (by decide)
        (by decide)).symm
    · rw [hsplit]
  · rw [Bl7Image.payload, hsplit, List.append_nil]
  · rw [Bl7Image.payload, hsplit]

/-- An image is converted exactly if it is a signed one, and then into an
    unsigned one with the same payload. -/
theorem signedToUi_converts (data : Bytes) :
    ((∃ out, signedToUi data = .ok out) ↔
      ∃ header payload signature, data = header.val ++ (payload ++ signature) ∧
        SignedImage header payload signature) ∧
    ∀ out, signedToUi data = .ok out → Converted data out := by
  constructor
  · constructor
    · rintro ⟨out, hout⟩
      rcases (signedToUi_ok_iff data out).mp hout with ⟨header, payload, signature, hdata, h, -⟩
      exact ⟨header, payload, signature, hdata, h⟩
    · rintro ⟨header, payload, signature, hdata, h⟩
      exact ⟨_, (signedToUi_ok_iff data _).mpr ⟨header, payload, signature, hdata, h, rfl⟩⟩
  · intro out hout
    rcases (signedToUi_ok_iff data out).mp hout with
      ⟨header, payload, signature, rfl, h, hout⟩
    rw [hout]
    -- The length of the payload is read off the data and off the header alike.
    have hread : binl7LenField.read (header.val ++ (payload ++ signature))
        = binl7LenField.read header.val :=
      read_append_header binl7LenField header _ (by decide)
    have hlen : beNat (binl7LenField.read header.val) = payload.length := h.binl7Len
    have hslice : slice (header.val ++ (payload ++ signature)) (bl7HeaderSize : Int)
        ((bl7HeaderSize + payload.length : Nat) : Int) = payload := by
      rw [← List.append_assoc]
      exact slice_append _ _ _ _ _ header.property.symm (by rw [header.property])
    refine ⟨?_, ?_, ?_, fun i hi htype hsum => ?_, ?_⟩
    · rw [hread, hlen, List.length_append, length_unsignedHeader]
    · rw [hread, hlen, hslice]
      exact parseBl7_unsigned header payload signature h
    · rw [hread, hlen, hslice]
      exact List.drop_left' (length_unsignedHeader header)
    · rw [List.getElem?_append_left (by rw [length_unsignedHeader]; exact hi),
        List.getElem?_append_left (by rw [header.property]; exact hi)]
      exact getElem?_unsignedHeader header i htype hsum
    · have hsigned := List.length_pos_iff.mpr h.signed
      simp only [List.length_append, length_unsignedHeader, header.property]
      omega

/-- The small image with a signature behind it. -/
def signedHeader : Bl7Header :=
  ⟨withChecksum (imageTypeField.write smallHeader.val [0, 0, 0, 1]), by decide +kernel⟩

/-- What is left of it is the small image. -/
theorem signedToUi_converts_small :
    signedToUi (signedHeader.val ++ (smallParts.payload ++ [0x55])) = .ok smallImage ∧
      Converted (signedHeader.val ++ (smallParts.payload ++ [0x55])) smallImage := by
  have hout : signedToUi (signedHeader.val ++ (smallParts.payload ++ [0x55])) = .ok smallImage := by
    decide +kernel
  exact ⟨hout, (signedToUi_converts _).2 smallImage hout⟩

end Zd1200
