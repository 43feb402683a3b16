import Zd1200.Board.Identity
import Zd1200.Lib.Filling

/-!
# The Board Data Records

`write-boarddata.py`: the two records from which the kernel takes the serial
number and the addresses of the board, and where they go on the disk.

The program fills each record by assignments to slices. An assignment to a slice
of another length would move everything behind it. That does not happen, since
the two addresses have six bytes each and a text is put where its own length
says; so the records are filled field by field, which is `buildRksBoarddata_eq`
and `buildAr531xBoarddata_eq`.

What the records then say rests on the identity. The serial fits into its
fields, with a zero behind it, because of what a serial may look like, and the
second address is the successor of the first because the first does not end the
range. Whether the second address is one that a board may use was checked when
the first was accepted, if it was.

## Main definitions

* `buildRksBoarddata`, `buildAr531xBoarddata`: The records.
* `writeBoarddata`: The disk with the records.
* `CarriesIdentity`: What the records and the disk should say.

## Theorems

* `macPlusOne_eq`: The second address is the successor of the first.
* `buildRksBoarddata_eq`, `buildAr531xBoarddata_eq`: The records field by field.
* `carriesIdentity_of`: A valid serial and a usable address are carried.
* `writeBoarddata_carriesIdentity_iff`: When they carry the identity of a run.
-/

namespace Zd1200

namespace Board

def rksBdMagic : Nat := 0x52434B53
def ar531xBdMagic : Nat := 0x35333131
def rksBootrecMagic : Nat := 0x524B4254
def rksBdRev : Nat := 4
def ar531xBdRev : Nat := 5
def region2Start : Nat := 3920881
def sector : Nat := 512
def rksBdOffset : Nat := 0x8000
def rksStructSize : Nat := 0xd0
def ar531xStructSize : Nat := 0x80

/-- `str.encode`. -/
def encode (text : List Char) : Bytes := text.flatMap String.utf8EncodeChar

/-- `parse_mac` of this program. -/
def parseMacArgument (mac : List Char) : Except PyError Bytes := do
  let m ← octetsOf (mac.splitOn ':')
  raiseIf (m.length ≠ 6) (.assertionError ("bad MAC " ++ reprText mac))
  return m

def macPlusOne (mac : Bytes) : Bytes :=
  let octet (i : Nat) : Nat := (mac.getD i 0).toNat
  let v := octet 0 <<< 40 ||| octet 1 <<< 32 ||| octet 2 <<< 24 ||| octet 3 <<< 16 |||
    octet 4 <<< 8 ||| octet 5
  beBytes 6 ((v + 1) &&& 0xFFFFFFFFFFFF)

/-- `sum(work) & 0xFFFF`. -/
def rksCksum (blob : Bytes) : Except PyError Nat := do
  raiseIf (blob.length ≠ rksStructSize) (.assertionError "")
  let work := setSlice blob 4 6 [0x00, 0x00]
  return (work.map UInt8.toNat).sum &&& 0xFFFF

/-- `struct.pack_into` of one unsigned number in little endian. -/
def packInto (width : Nat) (b : Bytes) (offset value : Nat) : Bytes :=
  setSlice b offset (offset + width) (leBytes width value)

/-- `b[i] = value`, for a position in the array. -/
def setItem (b : Bytes) (i : Nat) (value : UInt8) : Bytes := setSlice b i (i + 1) [value]

/-- `build_rks_boarddata` up to the checksum. -/
def rksWithoutCksum (serial : List Char) (mac1 mac2 : Bytes) (model customer : List Char) : Bytes :=
  let b := List.replicate rksStructSize 0
  let b := packInto 4 b 0x00 rksBdMagic
  let b := packInto 2 b 0x06 rksBdRev
  let sn := (encode serial).take 15
  let b := setSlice b 0x08 (0x08 + sn.length) sn
  let cn := (encode customer).take 31
  let b := setSlice b 0x18 (0x18 + cn.length) cn
  let md := (encode model).take 15
  let b := setSlice b 0x38 (0x38 + md.length) md
  let b := setSlice b 0x58 0x5e mac1
  let b := setSlice b 0x5e 0x64 mac2
  let b := setItem b 0x70 0
  let b := setSlice b 0x78 0x7c (leBytes 4 0x80)
  let b := packInto 2 b 0x7c 2
  let b := setSlice b 0x7e 0x84 mac1
  let b := packInto 4 b 0x90 rksBootrecMagic
  let b := setItem b 0x98 1
  let sn32 := (encode serial).take 31
  setSlice b 0x9c (0x9c + sn32.length) sn32

def buildRksBoarddata (serial : List Char) (mac1 mac2 : Bytes) (model customer : List Char) :
    Except PyError Bytes := do
  let b := rksWithoutCksum serial mac1 mac2 model customer
  let ck ← rksCksum b
  return packInto 2 b 0x04 ck

def buildAr531xBoarddata (mac1 mac2 : Bytes) (model : List Char) : Bytes :=
  let b := List.replicate ar531xStructSize 0
  let b := packInto 4 b 0x00 ar531xBdMagic
  let b := packInto 2 b 0x06 ar531xBdRev
  let nm := (encode model).take 63
  let b := setSlice b 0x08 (0x08 + nm.length) nm
  let b := setSlice b 0x60 0x66 mac1
  let b := setSlice b 0x66 0x6c mac1
  let b := setSlice b 0x6c 0x72 mac2
  setSlice b 0x76 0x7c mac2

/-- `f.seek(offset)` and `f.write(bytes)`. A file that ends before is filled up
    with zeros. -/
def writeAt (file : Bytes) (offset : Nat) (bytes : Bytes) : Bytes :=
  setSlice (file ++ List.replicate (offset + bytes.length - file.length) 0)
    offset (offset + bytes.length) bytes

/-- `region2` in `main`. -/
def region2 (platform : Fin 2) : Nat := if platform = 0 then 3981601 else region2Start

/-- The byte offset of the first record on the disk. -/
def ar531xOff (platform : Fin 2) : Nat := region2 platform * sector

/-- The byte offset of the second record on the disk. -/
def rksOff (platform : Fin 2) : Nat := (region2 platform + rksBdOffset / sector) * sector

/-- The records of `main`, behind the arguments. -/
def boardRecords (serial mac model customer : List Char) : Except PyError (Bytes × Bytes) := do
  let mac1 ← parseMacArgument mac
  let mac2 := macPlusOne mac1
  let rbd ← buildRksBoarddata serial mac1 mac2 model customer
  let abd := buildAr531xBoarddata mac1 mac2 model
  return (abd, rbd)

/-- The disk after `main`. -/
def writeBoarddata (platform : Fin 2) (disk : Bytes) (serial mac model customer : List Char) :
    Except PyError Bytes := do
  let (abd, rbd) ← boardRecords serial mac model customer
  return writeAt (writeAt disk (ar531xOff platform) abd) (rksOff platform) rbd

/-! ### The fields -/

def rksMagicField : Field := ⟨0x00, 4⟩
def rksCksumField : Field := ⟨0x04, 2⟩
def rksRevField : Field := ⟨0x06, 2⟩
def rksSerialNumber : Field := ⟨0x08, 16⟩
def rksCustomerID : Field := ⟨0x18, 32⟩
def rksModel : Field := ⟨0x38, 16⟩
def rksEnetxMac0 : Field := ⟨0x58, 6⟩
def rksEnetxMac1 : Field := ⟨0x5e, 6⟩
def rksBoardType : Field := ⟨0x70, 1⟩
def rksV54Config : Field := ⟨0x78, 4⟩
def rksMACcnt : Field := ⟨0x7c, 2⟩
def rksMACbase : Field := ⟨0x7e, 6⟩
def rksBootrec : Field := ⟨0x90, 4⟩
def rksEthPort : Field := ⟨0x98, 1⟩
def rksSerialNumber32 : Field := ⟨0x9c, 32⟩

def rksFields : List Field :=
  [rksMagicField, rksRevField, rksSerialNumber, rksCustomerID, rksModel, rksEnetxMac0,
    rksEnetxMac1, rksBoardType, rksV54Config, rksMACcnt, rksMACbase, rksBootrec, rksEthPort,
    rksSerialNumber32, rksCksumField]

def ar531xMagicField : Field := ⟨0x00, 4⟩
def ar531xRevField : Field := ⟨0x06, 2⟩
def ar531xBoardName : Field := ⟨0x08, 64⟩
def ar531xWlan0Mac : Field := ⟨0x60, 6⟩
def ar531xEnet0Mac : Field := ⟨0x66, 6⟩
def ar531xEnet1Mac : Field := ⟨0x6c, 6⟩
def ar531xWlan1Mac : Field := ⟨0x76, 6⟩

def ar531xFields : List Field :=
  [ar531xMagicField, ar531xRevField, ar531xBoardName, ar531xWlan0Mac, ar531xEnet0Mac,
    ar531xEnet1Mac, ar531xWlan1Mac]

/-- A text up to its terminating zero. -/
def cString (bytes : Bytes) : Bytes := bytes.takeWhile (· ≠ 0)

/-! ### What the records and the disk should say -/

/-- The records carry a serial and an address, and are written to the disk and
    nowhere else. -/
structure CarriesIdentity (platform : Fin 2) (disk : Bytes) (serial mac model customer : List Char)
    (mac1 mac2 abd rbd disk' : Bytes) : Prop where
  written : boardRecords serial mac model customer = .ok (abd, rbd)
  onDisk : writeBoarddata platform disk serial mac model customer = .ok disk'
  /-- The address that the network card is given. -/
  nic : mac1.length = 6 ∧ mac = formatMac mac1
  successor : mac2.length = 6 ∧ beNat mac1 + 1 < 2 ^ 48 ∧ beNat mac2 = beNat mac1 + 1
  usable : isLocalUnicast mac2 ∧ mac2 ≠ mac1
  sizes : rbd.length = 0xd0 ∧ abd.length = 0x80
  apart : rksFields.Pairwise Field.Apart ∧ ar531xFields.Pairwise Field.Apart
  serials : ∀ f ∈ [rksSerialNumber, rksSerialNumber32], cString (f.read rbd) = encode serial
  first : (∀ f ∈ [rksEnetxMac0, rksMACbase], f.read rbd = mac1) ∧
    ∀ f ∈ [ar531xWlan0Mac, ar531xEnet0Mac], f.read abd = mac1
  second : rksEnetxMac1.read rbd = mac2 ∧
    ∀ f ∈ [ar531xWlan1Mac, ar531xEnet1Mac], f.read abd = mac2
  checksum : leNat (rksCksumField.read rbd) =
    ((rksCksumField.write rbd [0, 0]).map UInt8.toNat).sum % 2 ^ 16
  placed : (Field.mk (ar531xOff platform) 0x80).read disk' = abd ∧
    (Field.mk (rksOff platform) 0xd0).read disk' = rbd
  /-- A byte past the end of the disk reads as zero. -/
  elsewhere : ∀ i, ¬ (Field.mk (ar531xOff platform) 0x80).Covers i →
    ¬ (Field.mk (rksOff platform) 0xd0).Covers i → disk'.getD i 0 = disk.getD i 0
  length : disk'.length = max disk.length (rksOff platform + 0xd0)

/-! ### The second address -/

theorem shiftLeft_or (x y k : Nat) (h : y < 2 ^ k) : x <<< k ||| y = x * 2 ^ k + y := by
  rw [Nat.shiftLeft_eq, Nat.mul_comm, ← Nat.two_pow_add_eq_or_of_lt h]

/-- The second address is the successor of the first. -/
theorem macPlusOne_eq (mac : Bytes) (hlength : mac.length = 6) (h : beNat mac + 1 < 256 ^ 6) :
    macPlusOne mac = nextMac mac := by
  match mac, hlength with
  | [a, b, c, d, e, f], _ =>
    have ha := a.toNat_lt
    have hb := b.toNat_lt
    have hc := c.toNat_lt
    have hd := d.toNat_lt
    have he := e.toNat_lt
    have hf := f.toNat_lt
    have hvalue : a.toNat <<< 40 ||| b.toNat <<< 32 ||| c.toNat <<< 24 ||| d.toNat <<< 16 |||
        e.toNat <<< 8 ||| f.toNat = beNat [a, b, c, d, e, f] := by
      -- The octets are put together from the last one on.
      rw [Nat.or_assoc, Nat.or_assoc, Nat.or_assoc, Nat.or_assoc, shiftLeft_or e.toNat _ 8 (by omega),
        shiftLeft_or d.toNat _ 16 (by omega), shiftLeft_or c.toNat _ 24 (by omega),
        shiftLeft_or b.toNat _ 32 (by omega), shiftLeft_or a.toNat _ 40 (by omega)]
      simp only [beNat_cons, List.length_cons, List.length_nil]
      have hnil : beNat [] = 0 := rfl
      rw [hnil]
      omega
    have hmask : ∀ n, n < 256 ^ 6 → n &&& 0xFFFFFFFFFFFF = n := fun n hn => by
      rw [Nat.and_two_pow_sub_one_eq_mod n 48, Nat.mod_eq_of_lt (by omega)]
    change beBytes 6 ((_ + 1) &&& 0xFFFFFFFFFFFF) = beBytes 6 (beNat [a, b, c, d, e, f] + 1)
    rw [← hvalue] at h ⊢
    rw [← hmask _ h]
    rfl

/-! ### The records field by field -/

/-- What is written into the first record, but for the checksum. -/
def rksEntries (serial : List Char) (mac1 mac2 : Bytes) (model customer : List Char) :
    List (Entry UInt8) :=
  [⟨rksMagicField, leBytes 4 rksBdMagic⟩, ⟨rksRevField, leBytes 2 rksBdRev⟩,
    ⟨rksSerialNumber, (encode serial).take 15⟩, ⟨rksCustomerID, (encode customer).take 31⟩,
    ⟨rksModel, (encode model).take 15⟩, ⟨rksEnetxMac0, mac1⟩, ⟨rksEnetxMac1, mac2⟩,
    ⟨rksBoardType, [0]⟩, ⟨rksV54Config, leBytes 4 0x80⟩, ⟨rksMACcnt, leBytes 2 2⟩,
    ⟨rksMACbase, mac1⟩, ⟨rksBootrec, leBytes 4 rksBootrecMagic⟩, ⟨rksEthPort, [1]⟩,
    ⟨rksSerialNumber32, (encode serial).take 31⟩]

def ar531xEntries (mac1 mac2 : Bytes) (model : List Char) : List (Entry UInt8) :=
  [⟨ar531xMagicField, leBytes 4 ar531xBdMagic⟩, ⟨ar531xRevField, leBytes 2 ar531xBdRev⟩,
    ⟨ar531xBoardName, (encode model).take 63⟩, ⟨ar531xWlan0Mac, mac1⟩, ⟨ar531xEnet0Mac, mac1⟩,
    ⟨ar531xEnet1Mac, mac2⟩, ⟨ar531xWlan1Mac, mac2⟩]

theorem ar531x_fitting (mac1 mac2 : Bytes) (model : List Char) (h1 : mac1.length = 6)
    (h2 : mac2.length = 6) : Fitting ar531xStructSize (ar531xEntries mac1 mac2 model) := by
  refine Fitting.of_fields ar531xFields rfl (by decide) (by decide) fun e he => ?_
  simp only [ar531xEntries, List.mem_cons, List.not_mem_nil, or_false] at he
  rcases he with rfl | rfl | rfl | rfl | rfl | rfl | rfl
  · exact (length_leBytes _ _).le
  · exact (length_leBytes _ _).le
  · exact (List.length_take_le _ _).trans (by decide : 63 ≤ 64)
  · exact h1.le
  · exact h1.le
  · exact h2.le
  · exact h2.le

/-- The first record with its checksum. -/
def rksRecord (serial : List Char) (mac1 mac2 : Bytes) (model customer : List Char) (ck : Nat) :
    List (Entry UInt8) :=
  rksEntries serial mac1 mac2 model customer ++ [⟨rksCksumField, leBytes 2 ck⟩]

theorem rks_fitting (serial : List Char) (mac1 mac2 : Bytes) (model customer : List Char) (ck : Nat)
    (h1 : mac1.length = 6) (h2 : mac2.length = 6) :
    Fitting rksStructSize (rksRecord serial mac1 mac2 model customer ck) := by
  refine Fitting.of_fields rksFields rfl (by decide) (by decide) fun e he => ?_
  simp only [rksRecord, rksEntries, List.cons_append, List.nil_append, List.mem_cons,
    List.not_mem_nil, or_false] at he
  rcases he with rfl | rfl | rfl | rfl | rfl | rfl | rfl | rfl | rfl | rfl | rfl | rfl | rfl |
    rfl | rfl
  · exact (length_leBytes _ _).le
  · exact (length_leBytes _ _).le
  · exact (List.length_take_le _ _).trans (by decide : 15 ≤ 16)
  · exact (List.length_take_le _ _).trans (by decide : 31 ≤ 32)
  · exact (List.length_take_le _ _).trans (by decide : 15 ≤ 16)
  · exact h1.le
  · exact h2.le
  · exact Nat.le_refl 1
  · exact (length_leBytes _ _).le
  · exact (length_leBytes _ _).le
  · exact h1.le
  · exact (length_leBytes _ _).le
  · exact Nat.le_refl 1
  · exact (List.length_take_le _ _).trans (by decide : 31 ≤ 32)
  · exact (length_leBytes _ _).le

theorem buildAr531xBoarddata_eq (mac1 mac2 : Bytes) (model : List Char) (h1 : mac1.length = 6)
    (h2 : mac2.length = 6) :
    buildAr531xBoarddata mac1 mac2 model =
      fill ar531xStructSize 0 (ar531xEntries mac1 mac2 model) := by
  simp only [buildAr531xBoarddata, fill, writeEntries, ar531xEntries, List.foldl_cons, List.foldl_nil,
    Field.write, Entry.window, h1, h2, length_leBytes, packInto]
  rfl

theorem rksWithoutCksum_eq (serial : List Char) (mac1 mac2 : Bytes) (model customer : List Char)
    (h1 : mac1.length = 6) (h2 : mac2.length = 6) :
    rksWithoutCksum serial mac1 mac2 model customer =
      fill rksStructSize 0 (rksEntries serial mac1 mac2 model customer) := by
  simp only [rksWithoutCksum, fill, writeEntries, rksEntries, List.foldl_cons, List.foldl_nil,
    Field.write, Entry.window, h1, h2, length_leBytes, packInto, setItem]
  rfl

/-- The first record is made, and holds the checksum of its other bytes. -/
theorem buildRksBoarddata_eq (serial : List Char) (mac1 mac2 : Bytes) (model customer : List Char)
    (h1 : mac1.length = 6) (h2 : mac2.length = 6) :
    ∃ ck, ck < 256 ^ 2 ∧
      buildRksBoarddata serial mac1 mac2 model customer =
        .ok (fill rksStructSize 0 (rksRecord serial mac1 mac2 model customer ck)) ∧
      ck = ((rksCksumField.write (fill rksStructSize 0 (rksRecord serial mac1 mac2 model customer ck))
        [0, 0]).map UInt8.toNat).sum % 2 ^ 16 := by
  let b := fill rksStructSize 0 (rksEntries serial mac1 mac2 model customer)
  let ck := ((rksCksumField.write b [0, 0]).map UInt8.toNat).sum % 2 ^ 16
  have hb : rksWithoutCksum serial mac1 mac2 model customer = b :=
    rksWithoutCksum_eq serial mac1 mac2 model customer h1 h2
  have hrecord : fill rksStructSize 0 (rksRecord serial mac1 mac2 model customer ck) =
      rksCksumField.write b (leBytes 2 ck) := by
    rw [fill, rksRecord, writeEntries, List.foldl_append]
    rfl
  have hlength : b.length = rksStructSize :=
    ((rks_fitting serial mac1 mac2 model customer 0 h1 h2).sublist
      (List.sublist_append_left _ _)).length_fill 0
  have hinside : rksCksumField.Inside b := by
    unfold Field.Inside
    rw [hlength]
    decide
  refine ⟨ck, Nat.mod_lt _ (by decide), ?_, ?_⟩
  · rw [buildRksBoarddata, hb, rksCksum, raiseIf_of_not (by rw [hlength, ne_eq, not_not]), ok_bind,
      hrecord]
    have hmask := Nat.and_two_pow_sub_one_eq_mod
      ((rksCksumField.write b [0, 0]).map UInt8.toNat).sum 16
    exact congrArg (fun n => Except.ok (packInto 2 b 4 n)) hmask
  · rw [hrecord, Field.write_write _ _ _ _ hinside (length_leBytes 2 ck) rfl]

/-! ### Texts -/

/-- A character of a serial is one byte, and not zero. -/
theorem utf8EncodeChar_serial (c : Char) (h : c.isAlphanum ∨ c = '_' ∨ c = '-') :
    ∃ b : UInt8, String.utf8EncodeChar c = [b] ∧ b ≠ 0 := by
  have hrange : 45 ≤ c.toNat ∧ c.toNat < 128 := by
    rcases h with h | rfl | rfl
    · delta Char.isAlphanum Char.isAlpha Char.isUpper Char.isLower Char.isDigit at h
      simp only [Bool.or_eq_true, Bool.and_eq_true, decide_eq_true_eq, ge_iff_le,
        UInt32.le_iff_toNat_le, Char.reduceVal, UInt32.reduceToNat] at h
      have hval : c.toNat = c.val.toNat := rfl
      omega
    · decide
    · decide
  refine ⟨c.toNat.toUInt8, ?_, ?_⟩
  · have hle : c.val.toNat ≤ 127 := Nat.le_of_lt_succ hrange.2
    simp only [String.utf8EncodeChar, hle, if_true]
    rfl
  · intro hzero
    have hcast : c.toNat.toUInt8.toNat = c.toNat % 256 := UInt8.toNat_ofNat'
    have hzero' : c.toNat.toUInt8.toNat = 0 := by rw [hzero]; rfl
    omega

/-- A serial has no more bytes than characters, and no zero among them. -/
theorem encode_serial (serial : List Char) (h : IsSerial serial) :
    (encode serial).length ≤ 15 ∧ ∀ b ∈ encode serial, b ≠ 0 := by
  rcases h with ⟨-, hlength, hchars⟩
  constructor
  · have hones : serial.map (fun c => (String.utf8EncodeChar c).length) = serial.map fun _ => 1 :=
      List.map_congr_left fun c hc => by
        rcases utf8EncodeChar_serial c (hchars c hc) with ⟨b, hb, -⟩
        rw [hb, List.length_singleton]
    rw [encode, List.length_flatMap, hones, List.map_const', List.sum_replicate_nat, Nat.mul_one]
    exact hlength
  · intro b hb
    rcases List.mem_flatMap.mp hb with ⟨c, hc, hbc⟩
    rcases utf8EncodeChar_serial c (hchars c hc) with ⟨b', hb', hne⟩
    rw [hb', List.mem_singleton] at hbc
    rwa [hbc]

theorem cString_append_zeros (text : Bytes) (n : Nat) (h : ∀ b ∈ text, b ≠ 0) :
    cString (text ++ List.replicate n 0) = text := by
  rw [cString, List.takeWhile_append_of_pos (fun b hb => decide_eq_true (h b hb))]
  cases n with
  | zero => rw [List.replicate_zero, List.takeWhile_nil, List.append_nil]
  | succ n =>
      rw [List.replicate_succ, List.takeWhile_cons_of_neg (by decide), List.append_nil]

/-! ### The disk -/

theorem length_writeAt (file : Bytes) (offset : Nat) (bytes : Bytes) :
    (writeAt file offset bytes).length = max file.length (offset + bytes.length) := by
  have hinside : (Field.mk offset bytes.length).Inside
      (file ++ List.replicate (offset + bytes.length - file.length) 0) := by
    unfold Field.Inside
    rw [List.length_append, List.length_replicate]
    simp only
    omega
  have hlength := Field.length_write _ _ bytes hinside rfl
  rw [List.length_append, List.length_replicate] at hlength
  refine Eq.trans (hlength : (writeAt file offset bytes).length = _) ?_
  omega

theorem getElem?_writeAt (file : Bytes) (offset : Nat) (bytes : Bytes) (i : Nat) :
    (writeAt file offset bytes)[i]? =
      if (Field.mk offset bytes.length).Covers i then bytes[i - offset]?
      else (file ++ List.replicate (offset + bytes.length - file.length) 0)[i]? := by
  have hinside : (Field.mk offset bytes.length).Inside
      (file ++ List.replicate (offset + bytes.length - file.length) 0) := by
    unfold Field.Inside
    rw [List.length_append, List.length_replicate]
    simp only
    omega
  exact Field.getElem?_write _ _ bytes hinside rfl i

/-- A written file shows what was written, and elsewhere what it showed. -/
theorem getD_writeAt (file : Bytes) (offset : Nat) (bytes : Bytes) (i : Nat)
    (h : ¬ (Field.mk offset bytes.length).Covers i) :
    (writeAt file offset bytes).getD i 0 = file.getD i 0 := by
  rw [List.getD_eq_getElem?_getD, List.getD_eq_getElem?_getD, getElem?_writeAt, if_neg h]
  by_cases hi : i < file.length
  · rw [List.getElem?_append_left hi]
  · rw [List.getElem?_append_right (Nat.le_of_not_lt hi), List.getElem?_eq_none (Nat.le_of_not_lt hi),
      List.getElem?_replicate]
    split
    · rfl
    · rfl

theorem read_writeAt (file : Bytes) (offset : Nat) (bytes : Bytes) :
    (Field.mk offset bytes.length).read (writeAt file offset bytes) = bytes := by
  refine Field.read_ext _ _ _ ?_ rfl fun k hk => ?_
  · unfold Field.Inside
    rw [length_writeAt]
    exact Nat.le_max_right _ _
  · rw [getElem?_writeAt, if_pos ⟨Nat.le_add_right _ _, Nat.add_lt_add_left hk _⟩,
      Nat.add_sub_cancel_left]

/-- Both records are on the disk, since the second does not reach into the
    first. -/
theorem read_writeAt_writeAt (platform : Fin 2) (disk abd rbd : Bytes) (ha : abd.length = 0x80) :
    (Field.mk (ar531xOff platform) 0x80).read
      (writeAt (writeAt disk (ar531xOff platform) abd) (rksOff platform) rbd) = abd := by
  have hbehind : ar531xOff platform + 0x80 ≤ rksOff platform := by
    unfold ar531xOff rksOff sector rksBdOffset
    omega
  have hlength := length_writeAt disk (ar531xOff platform) abd
  refine Field.read_ext _ _ _ ?_ ha fun k hk => ?_
  · unfold Field.Inside
    rw [length_writeAt, hlength, ha]
    exact (Nat.le_max_right _ _).trans (Nat.le_max_left _ _)
  · simp only at hk ⊢
    rw [getElem?_writeAt, if_neg (fun hc => by have := hc.1; simp only at this; omega),
      List.getElem?_append_left (by omega), getElem?_writeAt, ha,
      if_pos ⟨Nat.le_add_right _ _, Nat.add_lt_add_left hk _⟩, Nat.add_sub_cancel_left]

/-! ### The records of an identity -/

/-- The records are made of any six octets that have a successor. -/
theorem boardRecords_eq (serial : List Char) (mac1 : Bytes) (model customer : List Char)
    (hlength : mac1.length = 6) (hlt : beNat mac1 + 1 < 256 ^ 6) :
    ∃ ck abd rbd, ck < 256 ^ 2 ∧
      abd = fill ar531xStructSize 0 (ar531xEntries mac1 (nextMac mac1) model) ∧
      rbd = fill rksStructSize 0 (rksRecord serial mac1 (nextMac mac1) model customer ck) ∧
      ck = ((rksCksumField.write rbd [0, 0]).map UInt8.toNat).sum % 2 ^ 16 ∧
      boardRecords serial (formatMac mac1) model customer = .ok (abd, rbd) := by
  have hne : mac1 ≠ [] := fun h => absurd hlength (by rw [h]; decide)
  have hnext : (nextMac mac1).length = 6 := length_beBytes _ _
  rcases buildRksBoarddata_eq serial mac1 (nextMac mac1) model customer hlength hnext with
    ⟨ck, hck, hbuild, hsum⟩
  refine ⟨ck, _, _, hck, rfl, rfl, hsum, ?_⟩
  have hparse : parseMacArgument (formatMac mac1) = .ok mac1 := by
    simp only [parseMacArgument, octetsOf_formatMac mac1 hne, bind_ok_iff, raiseIf_ok_iff,
      exists_const, pure_ok_iff, Except.ok.injEq, hlength, ne_eq, not_true_eq_false,
      not_false_eq_true, true_and, exists_eq_left']
  simp only [boardRecords, hparse, bind_ok_iff, pure_ok_iff, Except.ok.injEq, exists_eq_left',
    macPlusOne_eq mac1 hlength hlt, hbuild, buildAr531xBoarddata_eq mac1 _ model hlength hnext]

/-- A valid serial and an address with a usable successor are carried. -/
theorem carriesIdentity_of (platform : Fin 2) (disk : Bytes) (serial : List Char) (mac1 : Bytes)
    (model customer : List Char) (hserial : IsSerial serial) (hlength : mac1.length = 6) (hlocal : isLocalUnicast mac1)
    (husable : isLocalUnicast (nextMac mac1)) :
    ∃ abd rbd disk', CarriesIdentity platform disk serial (formatMac mac1) model customer mac1
      (nextMac mac1) abd rbd disk' := by
  rcases beNat_nextMac mac1 hlength hlocal with ⟨hlt, hvalue⟩
  have hnext : (nextMac mac1).length = 6 := length_beBytes _ _
  rcases boardRecords_eq serial mac1 model customer hlength hlt with
    ⟨ck, abd, rbd, hck, habd, hrbd, hsum, hmake⟩
  rcases encode_serial serial hserial with ⟨hshort, hnozero⟩
  have hrks := rks_fitting serial mac1 (nextMac mac1) model customer ck hlength hnext
  have har := ar531x_fitting mac1 (nextMac mac1) model hlength hnext
  have hrbdSize : rbd.length = 0xd0 := by rw [hrbd]; exact hrks.length_fill 0
  have habdSize : abd.length = 0x80 := by rw [habd]; exact har.length_fill 0
  -- An address fills its field, and nothing stays of the zeros.
  have filled : ∀ mac : Bytes, mac.length = 6 →
      mac ++ List.replicate (6 - mac.length) 0 = mac := fun mac h => by
    rw [h, Nat.sub_self, List.replicate_zero, List.append_nil]
  have inRks : ∀ f : Field, ∀ mac : Bytes, mac.length = 6 → f.width = 6 →
      ⟨f, mac⟩ ∈ rksRecord serial mac1 (nextMac mac1) model customer ck → f.read rbd = mac := by
    intro f mac hmac hwidth hmem
    rw [hrbd, hrks.read_fill 0 ⟨f, mac⟩ hmem]
    simp only [hwidth, filled mac hmac]
  have inAr : ∀ f : Field, ∀ mac : Bytes, mac.length = 6 → f.width = 6 →
      ⟨f, mac⟩ ∈ ar531xEntries mac1 (nextMac mac1) model → f.read abd = mac := by
    intro f mac hmac hwidth hmem
    rw [habd, har.read_fill 0 ⟨f, mac⟩ hmem]
    simp only [hwidth, filled mac hmac]
  refine ⟨abd, rbd, writeAt (writeAt disk (ar531xOff platform) abd) (rksOff platform) rbd, {
    written := hmake
    onDisk := by rw [writeBoarddata, hmake, ok_bind, pure_ok_iff]
    nic := ⟨hlength, rfl⟩
    successor := ⟨hnext, hlt, hvalue⟩
    usable := ⟨husable, fun h => ?_⟩
    sizes := ⟨hrbdSize, habdSize⟩
    apart := by decide
    serials := ?_
    first := ?_
    second := ?_
    checksum := ?_
    placed := ⟨read_writeAt_writeAt platform disk abd rbd habdSize, ?_⟩
    elsewhere := fun i hfirst hsecond => ?_
    length := ?_ }⟩
  · rw [h] at hvalue
    omega
  · intro f hf
    -- A serial has at most 15 bytes, so its fields hold all of it and a zero.
    rcases List.mem_cons.mp hf with rfl | hf
    · rw [hrbd, hrks.read_fill 0 ⟨rksSerialNumber, (encode serial).take 15⟩ (by simp [rksRecord,
        rksEntries]), List.take_of_length_le hshort]
      exact cString_append_zeros _ _ hnozero
    · rw [List.mem_singleton.mp hf, hrbd, hrks.read_fill 0
        ⟨rksSerialNumber32, (encode serial).take 31⟩ (by simp [rksRecord, rksEntries]),
        List.take_of_length_le (hshort.trans (by decide : 15 ≤ 31))]
      exact cString_append_zeros _ _ hnozero
  · refine ⟨fun f hf => ?_, fun f hf => ?_⟩
    · rcases List.mem_cons.mp hf with rfl | hf
      · exact inRks _ mac1 hlength rfl (by simp [rksRecord, rksEntries])
      · rw [List.mem_singleton.mp hf]
        exact inRks _ mac1 hlength rfl (by simp [rksRecord, rksEntries])
    · rcases List.mem_cons.mp hf with rfl | hf
      · exact inAr _ mac1 hlength rfl (by simp [ar531xEntries])
      · rw [List.mem_singleton.mp hf]
        exact inAr _ mac1 hlength rfl (by simp [ar531xEntries])
  · refine ⟨inRks _ _ hnext rfl (by simp [rksRecord, rksEntries]), fun f hf => ?_⟩
    rcases List.mem_cons.mp hf with rfl | hf
    · exact inAr _ _ hnext rfl (by simp [ar531xEntries])
    · rw [List.mem_singleton.mp hf]
      exact inAr _ _ hnext rfl (by simp [ar531xEntries])
  · rw [← hsum, hrbd, hrks.read_fill 0 ⟨rksCksumField, leBytes 2 ck⟩ (by simp [rksRecord])]
    exact (congrArg leNat (List.append_nil _)).trans (leNat_leBytes 2 ck hck)
  · have hread := read_writeAt (writeAt disk (ar531xOff platform) abd) (rksOff platform) rbd
    rwa [hrbdSize] at hread
  · rw [← hrbdSize] at hsecond
    rw [← habdSize] at hfirst
    rw [getD_writeAt _ _ rbd i hsecond, getD_writeAt _ _ abd i hfirst]
  · rw [length_writeAt, length_writeAt, hrbdSize, habdSize]
    unfold ar531xOff rksOff sector rksBdOffset
    omega

/-- Records that carry an address have its successor as the second one. -/
theorem CarriesIdentity.isLocalUnicast_nextMac {platform : Fin 2} {disk : Bytes}
    {serial model customer : List Char} {mac mac1 mac2 abd rbd disk' : Bytes}
    (h : CarriesIdentity platform disk serial (formatMac mac) model customer mac1 mac2 abd rbd disk')
    (hlength : mac.length = 6) : isLocalUnicast (nextMac mac) := by
  rcases h.nic with ⟨hlength1, hformat⟩
  rcases h.successor with ⟨hlength2, hlt, hvalue⟩
  have hne : ∀ m : Bytes, m.length = 6 → m ≠ [] := fun m hm h => absurd hm (by rw [h]; decide)
  have hsame : mac = mac1 := by
    have hread := octetsOf_formatMac mac (hne mac hlength)
    rwa [hformat, octetsOf_formatMac mac1 (hne mac1 hlength1), Except.ok.injEq, eq_comm] at hread
  have hnext : nextMac mac1 = mac2 := by
    refine beNat_inj ?_ ?_
    · rw [nextMac, length_beBytes, hlength2]
    · rw [hvalue]
      exact beNat_beBytes 6 _ hlt
  rw [hsame, hnext]
  exact h.usable.1

/-- The records carry the identity of a run, unless it was made up and its
    address is the last that begins with `02`. -/
theorem writeBoarddata_carriesIdentity_iff (env : IdentityEnv)
    (serialOverride macOverride : List Char) (identity : BoardIdentity) (file : Option Bytes)
    (h : resolveIdentity env serialOverride macOverride = .ok (identity, file))
    (platform : Fin 2) (disk : Bytes) (model customer : List Char) :
    (∃ mac1 mac2 abd rbd disk', CarriesIdentity platform disk identity.serial identity.mac model
      customer mac1 mac2 abd rbd disk') ↔ ¬ MakesUpLast env serialOverride macOverride := by
  rcases resolveIdentity_ok env serialOverride macOverride identity file h with
    ⟨hserial, mac, hmac, hlength, hlocal, hiff⟩
  rw [← hiff, hmac]
  constructor
  · rintro ⟨mac1, mac2, abd, rbd, disk', hcarries⟩
    exact hcarries.isLocalUnicast_nextMac hlength
  · intro husable
    exact ⟨mac, nextMac mac, carriesIdentity_of platform disk identity.serial mac model customer
      hserial hlength hlocal husable⟩

/-- A run without overrides and without a file. -/
def firstRun (token : Bytes) (h : token.length = 5) : IdentityEnv :=
  ⟨"board-identity.env", none, 123456000789, token, h⟩

theorem writeBoarddata_carriesIdentity_firstRun :
    ∃ mac1 mac2 abd rbd disk', CarriesIdentity 1 [] "123456000789".toList
      "02:52:54:12:00:01".toList "ZD1200".toList "ruckus".toList mac1 mac2 abd rbd disk' :=
  (writeBoarddata_carriesIdentity_iff (firstRun [0x52, 0x54, 0x12, 0x00, 0x01] rfl) [] []
    ⟨"123456000789".toList, "02:52:54:12:00:01".toList, .generated⟩
    (some (writeIdentity "123456000789".toList "02:52:54:12:00:01".toList))
    (by decide +kernel) 1 [] "ZD1200".toList "ruckus".toList).mpr
    (fun h => absurd h.2.2.2 (by decide))

/-- The random bytes of an address can be all ones. The second address is then
    `03:00:00:00:00:00`, which stands for a group. -/
theorem writeBoarddata_carriesIdentity_lastMac :
    ∃ identity file,
      resolveIdentity (firstRun (List.replicate 5 0xff) rfl) [] [] = .ok (identity, file) ∧
      ¬ ∃ mac1 mac2 abd rbd disk', CarriesIdentity 1 [] identity.serial identity.mac
        "ZD1200".toList "ruckus".toList mac1 mac2 abd rbd disk' := by
  refine ⟨_, _, rfl, ?_⟩
  rintro ⟨mac1, mac2, abd, rbd, disk', h⟩
  have hunicast : isLocalUnicast (nextMac (0x02 :: List.replicate 5 0xff)) :=
    h.isLocalUnicast_nextMac rfl
  exact absurd hunicast (by decide +kernel)

end Board

end Zd1200
