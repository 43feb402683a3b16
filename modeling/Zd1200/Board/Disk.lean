import Zd1200.Board.Records
import Zd1200.Monitor.Text

/-!
# The Synthetic Disk

`make-synthetic-cf.py`: a disk with four partitions around a root filesystem,
and the sectors of board data that it seeds.

The root filesystem is written to the beginning of every partition, in their
order, and then the board data. Three sizes meet in this: the second partition
is as large as the root filesystem asks for, the fourth gets what is left, and
the first and the third are 160 MiB whatever the root filesystem. The only
check is that something is left for the fourth.

So it is the two fixed sizes that decide. Up to 160 MiB the copies stay where
they belong and far in front of the board data, and from there on the first
partition cannot hold its copy: what does not fit is in the second partition,
where the next copy replaces it.

What the partitions are is read from the table on the finished disk, and not
taken from the variables of the program.

## Main definitions

* `makeSyntheticCf`: The disk for a root filesystem.
* `partitions`: The partitions by the table on a disk.
* `Consistent`: What the layout should be.

## Theorems

* `read_writeAll`: Writes that share nothing are all there.
* `partitions_writeAll`: The table says what the program computed.
* `makeSyntheticCf_consistent_iff`: Consistency is up to 160 MiB.
* `makeSyntheticCf_oversized`: One byte more.
-/

namespace Zd1200

namespace Board

/-! ### The program -/

inductive DiskError
  | badGzipFile
  | systemExit (message : String)
  deriving DecidableEq, Repr

def diskSize : Nat := 2 * 1024 * 1024 * 1024

def alignSectors : Nat := 16 * 1024 * 1024 / sector

/-- Where a partition starts and how many sectors it has. -/
structure Partition where
  start : Nat
  sectors : Nat
  deriving DecidableEq, Repr

def rootfsSectors (size : Nat) : Nat := (size + sector - 1) / sector

def p1 : Partition := { start := 2048, sectors := 327680 }

/-- The partition of the root filesystem, rounded up to 16 MiB. -/
def p2 (size : Nat) : Partition :=
  { start := p1.start + p1.sectors
    sectors := (rootfsSectors size + alignSectors - 1) / alignSectors * alignSectors }

def p3 (size : Nat) : Partition :=
  { start := (p2 size).start + (p2 size).sectors, sectors := 327680 }

/-- What is left; without the check it could be nothing. -/
def p4 (size : Nat) : Partition :=
  { start := (p3 size).start + (p3 size).sectors
    sectors := diskSize / sector - ((p3 size).start + (p3 size).sectors) }

/-- The four partitions in their order. -/
def layoutOf (size : Nat) : List Partition := [p1, p2 size, p3 size, p4 size]

/-- The flag and the type in front of each partition. -/
def tableEntries (size : Nat) : List (UInt8 × UInt8 × Partition) :=
  [(0x00, 0x83, p1), (0x80, 0x83, p2 size), (0x00, 0x83, p3 size), (0x00, 0x83, p4 size)]

/-- One round of the loop over the entries. -/
def writeTableEntry (mbr : Bytes) (index : Nat) (entry : UInt8 × UInt8 × Partition) : Bytes :=
  let offset := 446 + index * 16
  let mbr := setItem mbr offset entry.1
  let mbr := setSlice mbr (offset + 1 : Nat) (offset + 4 : Nat) [0xfe, 0xff, 0xff]
  let mbr := setItem mbr (offset + 4) entry.2.1
  let mbr := setSlice mbr (offset + 5 : Nat) (offset + 8 : Nat) [0xfe, 0xff, 0xff]
  let mbr := packInto 4 mbr (offset + 8) entry.2.2.start
  packInto 4 mbr (offset + 12) entry.2.2.sectors

def mbr (size : Nat) : Bytes :=
  let mbr := (tableEntries size).zipIdx.foldl (fun mbr e => writeTableEntry mbr e.2 e.1)
    (List.replicate sector 0)
  setSlice mbr 510 512 [0x55, 0xaa]

/-- The root filesystem, which may be compressed. -/
def rootfsData (decompress : Bytes → Option Bytes) (rootfs : Bytes) : Except DiskError Bytes :=
  if rootfs.take 3 = [0x1f, 0x8b, 0x08] then
    match decompress rootfs with
    | none => .error .badGzipFile
    | some data => .ok data
  else .ok rootfs

def baseSector : Nat := 0x3BD3F1

def deltas : List Nat :=
  [16, 32, 64, 128, 0x8000 / 9, 0x8000 / 10, 0x8000 / 11, 0x8000 / 12]

/-- `handle.truncate(size)` of a new file. Not to be unfolded, as the disk is
    large. -/
@[irreducible] def truncate (size : Nat) : Bytes := List.replicate size 0

/-- The disk for the contents of `image/rootfs.ext2`. -/
def makeSyntheticCf (decompress : Bytes → Option Bytes) (rootfs : Bytes) :
    Except DiskError Bytes := do
  let data ← rootfsData decompress rootfs
  let size := data.length
  raiseIf ((p4 size).sectors ≤ 0) (.systemExit "rootfs leaves no writable synthetic CF partition")
  let disk := writeAt (truncate diskSize) 0 (mbr size)
  let disk := (layoutOf size).foldl (fun disk p => writeAt disk (p.start * sector) data) disk
  let disk := deltas.foldl
    (fun disk delta => writeAt disk ((baseSector + delta) * sector) (ascii "SKCR")) disk
  return writeAt disk (baseSector * sector) (ascii "1135")

/-! ### What the layout should be -/

def Partition.field (p : Partition) : Field := ⟨p.start * sector, p.sectors * sector⟩

def Partition.contents (p : Partition) (disk : Bytes) : Bytes := p.field.read disk

def startField (index : Nat) : Field := ⟨446 + index * 16 + 8, 4⟩

def sectorsField (index : Nat) : Field := ⟨446 + index * 16 + 12, 4⟩

/-- A partition by the table on a disk. -/
def partition (disk : Bytes) (index : Nat) : Partition :=
  { start := leNat ((startField index).read disk)
    sectors := leNat ((sectorsField index).read disk) }

def partitions (disk : Bytes) : List Partition := (List.range 4).map (partition disk)

/-- The sectors with board data: the ones seeded here and the ones of the two
    records, on either platform. -/
def boardSectors : List Nat :=
  baseSector :: deltas.map (baseSector + ·) ++
    (List.finRange 2).flatMap fun platform =>
      [ar531xOff platform / sector, rksOff platform / sector]

/-- The layout of a disk around a root filesystem. -/
structure Consistent (data disk : Bytes) : Prop where
  size : disk.length = 2 * 1024 * 1024 * 1024
  disjoint : (partitions disk).Pairwise fun p q => p.field.Apart q.field
  inside : ∀ p ∈ partitions disk, p.field.Inside disk
  copies : ∀ p ∈ partitions disk, data <+: p.contents disk
  /-- No sector with board data reaches into a copy. -/
  clear : ∀ p ∈ partitions disk, ∀ s ∈ boardSectors,
    (Field.mk (s * sector) sector).Apart ⟨p.start * sector, data.length⟩
  /-- The records leave the table and the copies as they are. -/
  recorded : ∀ platform serial mac model customer disk',
    writeBoarddata platform disk serial mac model customer = .ok disk' →
      disk'.length = disk.length ∧ partitions disk' = partitions disk ∧
        ∀ p ∈ partitions disk', data <+: p.contents disk'

/-! ### Writes to a file -/

/-- Writes to places in a file, one after another. -/
def writeAll (file : Bytes) (writes : List (Nat × Bytes)) : Bytes :=
  writes.foldl (fun file w => writeAt file w.1 w.2) file

theorem writeAll_cons (file : Bytes) (w : Nat × Bytes) (writes : List (Nat × Bytes)) :
    writeAll file (w :: writes) = writeAll (writeAt file w.1 w.2) writes := rfl

/-- The bytes that a write is about. -/
def window (w : Nat × Bytes) : Field := ⟨w.1, w.2.length⟩

theorem inside_writeAt (f : Field) (file : Bytes) (offset : Nat) (bytes : Bytes)
    (h : f.Inside file) : f.Inside (writeAt file offset bytes) := by
  unfold Field.Inside at h ⊢
  rw [length_writeAt]
  exact h.trans (Nat.le_max_left _ _)

theorem inside_writeAll (f : Field) (file : Bytes) (writes : List (Nat × Bytes))
    (h : f.Inside file) : f.Inside (writeAll file writes) := by
  induction writes generalizing file with
  | nil => exact h
  | cons w writes ih => exact ih _ (inside_writeAt f file w.1 w.2 h)

/-- A write leaves the fields apart from it alone. -/
theorem read_writeAt_apart (f : Field) (file : Bytes) (offset : Nat) (bytes : Bytes)
    (h : f.Inside file) (hap : f.Apart ⟨offset, bytes.length⟩) :
    f.read (writeAt file offset bytes) = f.read file := by
  refine Field.read_ext f _ _ (inside_writeAt f file offset bytes h) (Field.length_read f file h)
    fun k hk => ?_
  have hout : ¬ (Field.mk offset bytes.length).Covers (f.offset + k) := by
    unfold Field.Apart at hap
    unfold Field.Covers
    simp only at hap ⊢
    omega
  unfold Field.Inside at h
  rw [getElem?_writeAt, if_neg hout, List.getElem?_append_left (by omega),
    Field.getElem?_read f file h k hk]

theorem read_writeAll_apart (f : Field) (file : Bytes) (writes : List (Nat × Bytes))
    (h : f.Inside file) (hap : ∀ w ∈ writes, f.Apart (window w)) :
    f.read (writeAll file writes) = f.read file := by
  induction writes generalizing file with
  | nil => rfl
  | cons w writes ih =>
      rw [writeAll_cons]
      exact (ih _ (inside_writeAt f file _ _ h)
        fun w' hw' => hap w' (List.mem_cons_of_mem _ hw')).trans
          (read_writeAt_apart f file _ _ h (hap w List.mem_cons_self))

/-- A write is there if the later ones do not reach into it. -/
theorem read_writeAll_cons (file : Bytes) (w : Nat × Bytes) (writes : List (Nat × Bytes))
    (hap : ∀ v ∈ writes, (window w).Apart (window v)) :
    (window w).read (writeAll file (w :: writes)) = w.2 := by
  rw [writeAll_cons]
  refine (read_writeAll_apart (window w) _ writes ?_ hap).trans (read_writeAt file w.1 w.2)
  unfold Field.Inside window
  rw [length_writeAt]
  exact Nat.le_max_right _ _

/-- Writes that share nothing are all there. -/
theorem read_writeAll (file : Bytes) (writes : List (Nat × Bytes))
    (hap : writes.Pairwise fun w v => (window w).Apart (window v)) (w : Nat × Bytes)
    (hw : w ∈ writes) : (window w).read (writeAll file writes) = w.2 := by
  induction writes generalizing file with
  | nil => exact absurd hw List.not_mem_nil
  | cons v writes ih =>
      rcases List.pairwise_cons.mp hap with ⟨hfirst, hrest⟩
      rcases List.mem_cons.mp hw with rfl | hw'
      · exact read_writeAll_cons file w writes hfirst
      · rw [writeAll_cons]
        exact ih _ hrest hw'

/-- Writes inside of a file keep its length. -/
theorem length_writeAll (file : Bytes) (writes : List (Nat × Bytes))
    (h : ∀ w ∈ writes, (window w).Inside file) :
    (writeAll file writes).length = file.length := by
  induction writes generalizing file with
  | nil => rfl
  | cons w writes ih =>
      have hw : w.1 + w.2.length ≤ file.length := h w List.mem_cons_self
      have hlength : (writeAt file w.1 w.2).length = file.length := by
        rw [length_writeAt]
        exact Nat.max_eq_left hw
      rw [writeAll_cons]
      refine (ih _ fun v hv => ?_).trans hlength
      unfold Field.Inside
      rw [hlength]
      exact h v (List.mem_cons_of_mem _ hv)

/-! ### The table -/

/-- What is written for one entry of the table. -/
def slotEntries (index : Nat) (entry : UInt8 × UInt8 × Partition) : List (Entry UInt8) :=
  let offset := 446 + index * 16
  [⟨⟨offset, 1⟩, [entry.1]⟩, ⟨⟨offset + 1, 3⟩, [0xfe, 0xff, 0xff]⟩, ⟨⟨offset + 4, 1⟩, [entry.2.1]⟩,
    ⟨⟨offset + 5, 3⟩, [0xfe, 0xff, 0xff]⟩, ⟨startField index, leBytes 4 entry.2.2.start⟩,
    ⟨sectorsField index, leBytes 4 entry.2.2.sectors⟩]

def mbrEntries (size : Nat) : List (Entry UInt8) :=
  (tableEntries size).zipIdx.flatMap (fun e => slotEntries e.2 e.1) ++ [⟨⟨510, 2⟩, [0x55, 0xaa]⟩]

def mbrFields : List Field :=
  (List.range 4).flatMap (fun index =>
    let offset := 446 + index * 16
    [⟨offset, 1⟩, ⟨offset + 1, 3⟩, ⟨offset + 4, 1⟩, ⟨offset + 5, 3⟩, startField index,
      sectorsField index]) ++ [⟨510, 2⟩]

theorem writeTableEntry_eq (record : Bytes) (index : Nat) (entry : UInt8 × UInt8 × Partition) :
    writeTableEntry record index entry = writeEntries record (slotEntries index entry) := by
  simp only [writeTableEntry, writeEntries, slotEntries, List.foldl_cons, List.foldl_nil, Field.write,
    Entry.window, setItem, packInto, startField, sectorsField, length_leBytes, List.length_cons,
    List.length_nil, Nat.cast_add, Nat.cast_mul, Nat.cast_ofNat, Nat.cast_one, add_assoc, Int.reduceAdd, Nat.reduceAdd]

theorem mbr_eq (size : Nat) : mbr size = fill sector 0 (mbrEntries size) := by
  -- The rounds of the loop write the slots, and the signature comes behind them.
  have hslots : ∀ record : Bytes, (tableEntries size).zipIdx.foldl
      (fun mbr e => writeTableEntry mbr e.2 e.1) record = writeEntries record
        ((tableEntries size).zipIdx.flatMap fun e => slotEntries e.2 e.1) := fun record => by
    rw [writeEntries, List.foldl_flatMap]
    simp only [writeTableEntry_eq, writeEntries]
  have hsignature : ∀ record : Bytes, setSlice record 510 512 [0x55, 0xaa]
      = writeEntries record [⟨⟨510, 2⟩, [0x55, 0xaa]⟩] := fun _ => rfl
  have happend : ∀ (record : Bytes) (front back : List (Entry UInt8)),
      writeEntries (writeEntries record front) back = writeEntries record (front ++ back) :=
    fun _ _ _ => List.foldl_append.symm
  rw [fill, mbrEntries, ← happend, ← hslots, ← hsignature, mbr]

theorem mbr_fitting (size : Nat) : Fitting sector (mbrEntries size) := by
  refine Fitting.of_fields mbrFields rfl (by decide) (by decide) fun e he => ?_
  rcases List.mem_append.mp he with h | h
  · rcases List.mem_flatMap.mp h with ⟨entry, -, hslot⟩
    simp only [slotEntries, List.mem_cons, List.not_mem_nil, or_false] at hslot
    rcases hslot with rfl | rfl | rfl | rfl | rfl | rfl
    · exact Nat.le_refl 1
    · exact Nat.le_refl 3
    · exact Nat.le_refl 1
    · exact Nat.le_refl 3
    · exact (length_leBytes _ _).le
    · exact (length_leBytes _ _).le
  · rw [List.mem_singleton.mp h]
    exact Nat.le_refl 2

theorem length_mbr (size : Nat) : (mbr size).length = sector := by
  rw [mbr_eq, (mbr_fitting size).length_fill]

/-- A number in the table is the one that was put there. -/
theorem leNat_read_mbr (size : Nat) (f : Field) (n : Nat) (hn : n < 256 ^ 4)
    (hwidth : f.width = 4) (h : ⟨f, leBytes 4 n⟩ ∈ mbrEntries size) :
    leNat (f.read (mbr size)) = n := by
  rw [mbr_eq, (mbr_fitting size).read_fill 0 _ h, hwidth, length_leBytes, Nat.sub_self,
    List.replicate_zero, List.append_nil, leNat_leBytes 4 n hn]

/-- The partitions by the table are the ones that were computed. -/
theorem partitions_mbr (size : Nat)
    (h : ∀ e ∈ tableEntries size, e.2.2.start < 256 ^ 4 ∧ e.2.2.sectors < 256 ^ 4) :
    partitions (mbr size) = (tableEntries size).map fun e => e.2.2 := by
  have hslot : ∀ entry index, (entry, index) ∈ (tableEntries size).zipIdx →
      partition (mbr size) index = entry.2.2 := by
    intro entry index hmem
    rcases h entry (List.fst_mem_of_mem_zipIdx hmem) with ⟨hstart, hsectors⟩
    have hin : ∀ e ∈ slotEntries index entry, e ∈ mbrEntries size := fun e he =>
      List.mem_append_left _ (List.mem_flatMap.mpr ⟨(entry, index), hmem, he⟩)
    unfold partition
    rw [leNat_read_mbr size (startField index) _ hstart rfl (hin _ (by simp [slotEntries])),
      leNat_read_mbr size (sectorsField index) _ hsectors rfl (hin _ (by simp [slotEntries]))]
  have h1 : partition (mbr size) 0 = p1 := hslot (0x00, 0x83, p1) 0 (by simp [tableEntries])
  have h2 : partition (mbr size) 1 = p2 size :=
    hslot (0x80, 0x83, p2 size) 1 (by simp [tableEntries])
  have h3 : partition (mbr size) 2 = p3 size :=
    hslot (0x00, 0x83, p3 size) 2 (by simp [tableEntries])
  have h4 : partition (mbr size) 3 = p4 size :=
    hslot (0x00, 0x83, p4 size) 3 (by simp [tableEntries])
  have hrange : List.range 4 = [0, 1, 2, 3] := rfl
  simp only [partitions, hrange, tableEntries, List.map_cons, List.map_nil, h1, h2, h3, h4]

/-- The table is read from the first sector of a disk. -/
theorem partitions_eq_of_read (disk disk' : Bytes)
    (h : ∀ f : Field, f.offset + f.width ≤ sector → f.read disk' = f.read disk) :
    partitions disk' = partitions disk := by
  refine List.map_congr_left fun index hindex => ?_
  have hlt := List.mem_range.mp hindex
  unfold partition
  rw [h (startField index) (by unfold startField sector; simp only; omega),
    h (sectorsField index) (by unfold sectorsField sector; simp only; omega)]

/-! ### The disk as writes -/

def copies (data : Bytes) : List (Nat × Bytes) :=
  (layoutOf data.length).map fun p => (p.start * sector, data)

def seeds : List (Nat × Bytes) :=
  deltas.map (fun delta => ((baseSector + delta) * sector, ascii "SKCR")) ++
    [(baseSector * sector, ascii "1135")]

/-- The empty disk with its table. -/
def tableDisk (size : Nat) : Bytes := writeAt (truncate diskSize) 0 (mbr size)

/-- The three loops of the program are one list of writes. -/
theorem writeAll_copies_seeds (disk data : Bytes) :
    writeAll disk (copies data ++ seeds) = writeAt (deltas.foldl
      (fun disk delta => writeAt disk ((baseSector + delta) * sector) (ascii "SKCR"))
      ((layoutOf data.length).foldl (fun disk p => writeAt disk (p.start * sector) data) disk))
      (baseSector * sector) (ascii "1135") := by
  rw [writeAll, copies, seeds, List.foldl_append, List.foldl_append, List.foldl_map, List.foldl_map,
    List.foldl_cons, List.foldl_nil]

theorem makeSyntheticCf_ok_iff (decompress : Bytes → Option Bytes) (rootfs disk : Bytes) :
    makeSyntheticCf decompress rootfs = .ok disk ↔
      ∃ data, rootfsData decompress rootfs = .ok data ∧ 0 < (p4 data.length).sectors ∧
        disk = writeAll (tableDisk data.length) (copies data ++ seeds) := by
  rw [makeSyntheticCf, bind_ok_iff]
  refine exists_congr fun data => and_congr_right fun _ => ?_
  rw [writeAll_copies_seeds, bind_ok_iff, eq_comm (a := disk)]
  refine ⟨fun ⟨u, hcheck, h⟩ => ⟨?_, ?_⟩, fun ⟨hcheck, h⟩ => ⟨(), ?_, ?_⟩⟩
  · exact Nat.not_le.mp ((raiseIf_ok_iff _ _ _).mp hcheck)
  · exact (pure_ok_iff _ _).mp h
  · exact (raiseIf_ok_iff _ _ _).mpr (Nat.not_le_of_lt hcheck)
  · exact (pure_ok_iff _ _).mpr h

theorem length_truncate (size : Nat) : (truncate size).length = size := by
  unfold truncate
  exact List.length_replicate

theorem length_tableDisk (size : Nat) : (tableDisk size).length = diskSize := by
  rw [tableDisk, length_writeAt, length_mbr, length_truncate]
  exact Nat.max_eq_left (by decide)

/-- Where the second partition ends, and what that leaves for the fourth. -/
theorem layout (size : Nat) :
    (p2 size).start = 329728 ∧ (p3 size).start = 329728 + (p2 size).sectors ∧
      (p4 size).start = 657408 + (p2 size).sectors ∧
      (p4 size).sectors = 4194304 - (657408 + (p2 size).sectors) ∧
      size ≤ (p2 size).sectors * 512 ∧
      (size ≤ 167772160 → (p2 size).sectors ≤ 327680) := by
  have h2 : (p2 size).start = 329728 := rfl
  have h3 : (p3 size).start = (p2 size).start + (p2 size).sectors := rfl
  have h4 : (p4 size).start = (p3 size).start + 327680 := rfl
  have hrest : (p4 size).sectors = diskSize / sector - (p4 size).start := rfl
  have hdisk : diskSize / sector = 4194304 := by decide
  have hround : (p2 size).sectors = ((size + 512 - 1) / 512 + 32768 - 1) / 32768 * 32768 := rfl
  refine ⟨h2, ?_, ?_, ?_, ?_, fun h => ?_⟩
  · omega
  · omega
  · omega
  · omega
  · omega

theorem read_tableDisk (size : Nat) (f : Field) (h : f.offset + f.width ≤ sector) :
    f.read (tableDisk size) = f.read (mbr size) := by
  have hinside : f.Inside (mbr size) := by
    unfold Field.Inside
    rwa [length_mbr]
  have hlarge : f.Inside (tableDisk size) := by
    unfold Field.Inside
    rw [length_tableDisk]
    exact h.trans (by decide)
  refine Field.read_ext f _ _ hlarge (Field.length_read f _ hinside) fun k hk => ?_
  rw [Field.getElem?_read f _ hinside k hk, tableDisk, getElem?_writeAt, if_pos, Nat.sub_zero]
  refine ⟨Nat.zero_le _, ?_⟩
  rw [length_mbr]
  simp only
  omega

/-- The table says what the program computed, whatever is written behind it. -/
theorem partitions_writeAll (size : Nat) (writes : List (Nat × Bytes))
    (hsize : 0 < (p4 size).sectors) (hwrites : ∀ w ∈ writes, sector ≤ w.1) :
    partitions (writeAll (tableDisk size) writes) = layoutOf size := by
  rcases layout size with ⟨h2, h3, h4, hrest, -, -⟩
  have hmbr : partitions (mbr size) = (tableEntries size).map fun e => e.2.2 := by
    refine partitions_mbr size fun e he => ?_
    simp only [tableEntries, List.mem_cons, List.not_mem_nil, or_false] at he
    have hp1 : p1 = { start := 2048, sectors := 327680 } := rfl
    have hp3 : (p3 size).sectors = 327680 := rfl
    rcases he with rfl | rfl | rfl | rfl
    · simp only [hp1]; omega
    · simp only; omega
    · simp only; omega
    · simp only; omega
  refine (partitions_eq_of_read (mbr size) _ fun f hf => ?_).trans hmbr
  rw [← read_tableDisk size f hf]
  refine read_writeAll_apart f _ writes ?_ fun w hw => Or.inl (hf.trans (hwrites w hw))
  unfold Field.Inside
  rw [length_tableDisk]
  exact hf.trans (by decide)

/-! ### Consistency -/

/-- What begins at the start of a partition and fits is a copy. -/
theorem prefix_contents (data disk : Bytes) (p : Partition)
    (hread : (window (p.start * sector, data)).read disk = data)
    (hfit : data.length ≤ p.sectors * sector) (hinside : p.field.Inside disk) :
    data <+: p.contents disk := by
  have hsmall : p.start * sector + data.length ≤ disk.length :=
    (Nat.add_le_add_left hfit _).trans hinside
  have hcopy : (window (p.start * sector, data)).read disk
      = (disk.drop (p.start * sector)).take data.length := slice_window disk _ _ hsmall
  have hcontents : p.contents disk = (disk.drop (p.start * sector)).take (p.sectors * sector) :=
    slice_window disk _ _ hinside
  rw [List.prefix_iff_eq_take, hcontents, List.take_take, Nat.min_eq_left hfit, ← hcopy, hread]

/-- The seeds lie behind the first 1.8 GiB and inside the disk. -/
theorem seeds_place : ∀ w ∈ seeds, 3920881 * 512 ≤ w.1 ∧ w.1 + w.2.length ≤ diskSize := by decide

theorem seeds_apart : seeds.Pairwise fun w v => (window w).Apart (window v) := by decide

theorem boardSectors_place : ∀ s ∈ boardSectors, 3920881 ≤ s := by decide

/-- Where the copies end, if the root filesystem has at most 160 MiB. -/
theorem partition_place (size : Nat) (h : size ≤ 167772160) (p : Partition)
    (hp : p ∈ layoutOf size) :
    2048 ≤ p.start ∧ p.start ≤ 985088 ∧ size ≤ p.sectors * 512 ∧
      (p.start + p.sectors) * 512 ≤ 4194304 * 512 := by
  rcases layout size with ⟨h2, h3, h4, hrest, hlarge, hsmall⟩
  have hsmall := hsmall h
  have hp1 : p1 = { start := 2048, sectors := 327680 } := rfl
  have hp3 : (p3 size).sectors = 327680 := rfl
  simp only [layoutOf, List.mem_cons, List.not_mem_nil, or_false] at hp
  rcases hp with rfl | rfl | rfl | rfl
  · simp only [hp1]; omega
  · omega
  · omega
  · omega

/-- The copies and the seeds share nothing. -/
theorem copies_seeds_apart (data : Bytes) (h : data.length ≤ 167772160) :
    (copies data ++ seeds).Pairwise fun w v => (window w).Apart (window v) := by
  rcases layout data.length with ⟨h2, h3, h4, -, hlarge, -⟩
  have hp1 : p1.start = 2048 := rfl
  refine List.pairwise_append.mpr ⟨?_, seeds_apart, fun w hw v hv => ?_⟩
  · simp only [copies, layoutOf, List.map_cons, List.map_nil, List.pairwise_cons, List.mem_cons,
      List.not_mem_nil, or_false, forall_eq_or_imp, forall_eq, window, Field.Apart, sector, h2, h3,
      h4, hp1, List.Pairwise.nil, and_true, false_implies, implies_true]
    omega
  · rcases List.mem_map.mp hw with ⟨p, hp, rfl⟩
    have hv := (seeds_place v hv).1
    have hplace := (partition_place data.length h p hp).2.1
    refine Or.inl ?_
    simp only [window, sector]
    omega

/-- The lengths of the records, whatever they say. -/
theorem length_boardRecords (serial mac model customer : List Char) (abd rbd : Bytes)
    (h : boardRecords serial mac model customer = .ok (abd, rbd)) :
    abd.length = 0x80 ∧ rbd.length = 0xd0 := by
  simp only [boardRecords, bind_ok_iff, pure_ok_iff, Prod.mk.injEq] at h
  rcases h with ⟨mac1, hmac, rbd', hrbd, rfl, rfl⟩
  have h1 : mac1.length = 6 := by
    simp only [parseMacArgument, bind_ok_iff, raiseIf_ok_iff, pure_ok_iff, exists_const,
      ne_eq, not_not] at hmac
    rcases hmac with ⟨m, -, hm, rfl⟩
    exact hm
  have h2 : (macPlusOne mac1).length = 6 := length_beBytes _ _
  rcases buildRksBoarddata_eq serial mac1 (macPlusOne mac1) model customer h1 h2 with
    ⟨ck, -, hbuild, -⟩
  rw [hbuild, Except.ok.injEq] at hrbd
  rw [buildAr531xBoarddata_eq _ _ _ h1 h2, (ar531x_fitting _ _ _ h1 h2).length_fill, ← hrbd,
    (rks_fitting _ _ _ _ _ ck h1 h2).length_fill]
  exact ⟨rfl, rfl⟩

/-- The records are two writes behind the first 1.8 GiB. -/
theorem writeBoarddata_eq (platform : Fin 2) (disk disk' : Bytes)
    (serial mac model customer : List Char)
    (h : writeBoarddata platform disk serial mac model customer = .ok disk') :
    ∃ records : List (Nat × Bytes), disk' = writeAll disk records ∧
      ∀ w ∈ records, 3920881 * 512 ≤ w.1 ∧ w.1 + w.2.length ≤ diskSize := by
  simp only [writeBoarddata, bind_ok_iff, pure_ok_iff] at h
  rcases h with ⟨⟨abd, rbd⟩, hrecords, rfl⟩
  rcases length_boardRecords serial mac model customer abd rbd hrecords with ⟨habd, hrbd⟩
  have hplace : 3920881 * 512 ≤ ar531xOff platform ∧ ar531xOff platform + 0x80 ≤ diskSize ∧
      3920881 * 512 ≤ rksOff platform ∧ rksOff platform + 0xd0 ≤ diskSize := by
    revert platform
    decide
  refine ⟨[(ar531xOff platform, abd), (rksOff platform, rbd)], rfl, fun w hw => ?_⟩
  simp only [List.mem_cons, List.not_mem_nil, or_false] at hw
  rcases hw with rfl | rfl
  · exact ⟨hplace.1, habd ▸ hplace.2.1⟩
  · exact ⟨hplace.2.2.1, hrbd ▸ hplace.2.2.2⟩

/-- Up to 160 MiB the layout is as it should be. -/
theorem consistent_of_le (data : Bytes) (h : data.length ≤ 167772160) :
    Consistent data (writeAll (tableDisk data.length) (copies data ++ seeds)) := by
  have hplace := partition_place data.length h
  have hinside : ∀ p ∈ layoutOf data.length, p.start * sector + p.sectors * sector ≤ diskSize := by
    have hbytes : diskSize = 4194304 * 512 := by decide
    intro p hp
    rw [hbytes, ← Nat.add_mul]
    exact (hplace p hp).2.2.2
  have hp4 : p4 data.length ∈ layoutOf data.length := by simp [layoutOf]
  have hsize : 0 < (p4 data.length).sectors := by
    have := (hplace _ hp4).2.1
    rcases layout data.length with ⟨-, -, h4, hrest, -⟩
    omega
  have hcopy : ∀ p ∈ layoutOf data.length, (p.start * sector, data) ∈ copies data ++ seeds :=
    fun p hp => List.mem_append_left _ (List.mem_map.mpr ⟨p, hp, rfl⟩)
  have hwrites : ∀ w ∈ copies data ++ seeds, sector ≤ w.1 ∧ w.1 + w.2.length ≤ diskSize := by
    have hbytes : diskSize = 4194304 * 512 := by decide
    intro w hw
    rcases List.mem_append.mp hw with hw | hw
    · rcases List.mem_map.mp hw with ⟨p, hp, rfl⟩
      rcases hplace p hp with ⟨hlow, hhigh, -, -⟩
      simp only [sector]
      omega
    · have := seeds_place w hw
      simp only [sector]
      omega
  have hlength : (writeAll (tableDisk data.length) (copies data ++ seeds)).length = diskSize := by
    rw [length_writeAll, length_tableDisk]
    intro w hw
    unfold Field.Inside
    rw [length_tableDisk]
    exact (hwrites w hw).2
  have hpartitions := partitions_writeAll data.length (copies data ++ seeds) hsize
    fun w hw => (hwrites w hw).1
  have hread : ∀ p ∈ layoutOf data.length, (window (p.start * sector, data)).read
      (writeAll (tableDisk data.length) (copies data ++ seeds)) = data := fun p hp =>
    read_writeAll _ _ (copies_seeds_apart data h) _ (hcopy p hp)
  have hcontents : ∀ p ∈ layoutOf data.length, ∀ disk : Bytes, disk.length = diskSize →
      (window (p.start * sector, data)).read disk = data → data <+: p.contents disk := by
    intro p hp disk hdisk hdata
    refine prefix_contents data disk p hdata (hplace p hp).2.2.1 ?_
    unfold Field.Inside
    rw [hdisk]
    exact hinside p hp
  refine ⟨hlength, ?_, fun p hp => ?_, fun p hp => ?_, fun p hp s hs => ?_,
    fun platform serial mac model customer disk' hwrite => ?_⟩
  · rw [hpartitions]
    rcases layout data.length with ⟨h2, h3, h4, -, -, -⟩
    have hp1 : p1 = { start := 2048, sectors := 327680 } := rfl
    have hp3 : (p3 data.length).sectors = 327680 := rfl
    simp only [layoutOf, List.pairwise_cons, List.mem_cons, List.not_mem_nil, or_false,
      forall_eq_or_imp, forall_eq, Partition.field, Field.Apart, sector, h2, h3, h4, hp1, hp3,
      List.Pairwise.nil, and_true, false_implies, implies_true]
    omega
  · rw [hpartitions] at hp
    unfold Field.Inside
    rw [hlength]
    exact hinside p hp
  · rw [hpartitions] at hp
    exact hcontents p hp _ hlength (hread p hp)
  · rw [hpartitions] at hp
    have hstart := (hplace p hp).2.1
    have hs := boardSectors_place s hs
    refine Or.inr ?_
    simp only [sector]
    omega
  · rcases writeBoarddata_eq platform _ disk' serial mac model customer hwrite with
      ⟨records, rfl, hrecords⟩
    have hlength' : (writeAll (writeAll (tableDisk data.length) (copies data ++ seeds))
        records).length = diskSize := by
      rw [length_writeAll _ _ fun w hw => ?_, hlength]
      unfold Field.Inside
      rw [hlength]
      exact (hrecords w hw).2
    -- A field in front of the records is what it was.
    have hkeep : ∀ f : Field, f.offset + f.width ≤ 3920881 * 512 →
        f.read (writeAll (writeAll (tableDisk data.length) (copies data ++ seeds)) records)
          = f.read (writeAll (tableDisk data.length) (copies data ++ seeds)) := by
      intro f hf
      refine read_writeAll_apart f _ records ?_ fun w hw => Or.inl (hf.trans (hrecords w hw).1)
      unfold Field.Inside
      rw [hlength]
      exact hf.trans (by decide)
    have hsame := partitions_eq_of_read (writeAll (tableDisk data.length) (copies data ++ seeds)) _
      fun f hf => hkeep f (hf.trans (by decide))
    refine ⟨hlength'.trans hlength.symm, hsame, fun p hp => ?_⟩
    rw [hsame, hpartitions] at hp
    have hstart := (hplace p hp).2.1
    refine hcontents p hp _ hlength' ((hkeep _ ?_).trans (hread p hp))
    simp only [window, sector]
    omega

/-- The first partition holds no more than 160 MiB. -/
theorem le_of_consistent (data : Bytes) (writes : List (Nat × Bytes))
    (hsize : 0 < (p4 data.length).sectors) (hwrites : ∀ w ∈ writes, sector ≤ w.1)
    (h : Consistent data (writeAll (tableDisk data.length) writes)) :
    data.length ≤ 160 * 1024 * 1024 := by
  have hp : p1 ∈ partitions (writeAll (tableDisk data.length) writes) := by
    rw [partitions_writeAll data.length writes hsize hwrites]
    exact List.mem_cons_self
  have hle := (h.copies p1 hp).length_le
  rw [Partition.contents, Field.length_read _ _ (h.inside p1 hp)] at hle
  exact hle.trans (by decide)

/-- Every write goes behind the table. -/
theorem sector_le_of_mem (data : Bytes) : ∀ w ∈ copies data ++ seeds, sector ≤ w.1 := by
  intro w hw
  rcases List.mem_append.mp hw with hw | hw
  · rcases List.mem_map.mp hw with ⟨p, hp, rfl⟩
    rcases layout data.length with ⟨h2, h3, h4, -, -, -⟩
    have hp1 : p1.start = 2048 := rfl
    simp only [layoutOf, List.mem_cons, List.not_mem_nil, or_false] at hp
    simp only [sector]
    rcases hp with rfl | rfl | rfl | rfl
    · omega
    · omega
    · omega
    · omega
  · exact le_trans (by decide) (seeds_place w hw).1

/-- A disk that is made is laid out consistently exactly if the root filesystem
    has at most 160 MiB. -/
theorem makeSyntheticCf_consistent_iff (decompress : Bytes → Option Bytes) (rootfs disk : Bytes)
    (h : makeSyntheticCf decompress rootfs = .ok disk) :
    ∃ data, rootfsData decompress rootfs = .ok data ∧
      (Consistent data disk ↔ data.length ≤ 160 * 1024 * 1024) := by
  rcases (makeSyntheticCf_ok_iff decompress rootfs disk).mp h with ⟨data, hdata, hsize, hdisk⟩
  rw [hdisk]
  exact ⟨data, hdata, le_of_consistent data _ hsize (sector_le_of_mem data), consistent_of_le data⟩

theorem makeSyntheticCf_consistent_small :
    ∃ disk, makeSyntheticCf some [0x53, 0xef] = .ok disk ∧ Consistent [0x53, 0xef] disk := by
  have hmake := (makeSyntheticCf_ok_iff some [0x53, 0xef] _).mpr
    ⟨[0x53, 0xef], rfl, by decide, rfl⟩
  rcases makeSyntheticCf_consistent_iff some [0x53, 0xef] _ hmake with ⟨data, hdata, hiff⟩
  have hsame : data = [0x53, 0xef] := (Except.ok.inj hdata).symm
  rw [hsame] at hiff
  exact ⟨_, hmake, hiff.mpr (by decide)⟩

/-- A root filesystem with one byte more than the first partition holds. -/
def oversizedRootfs : Bytes := 1 :: List.replicate (160 * 1024 * 1024) 0

theorem length_oversizedRootfs : oversizedRootfs.length = 167772161 := by
  rw [oversizedRootfs, List.length_cons, List.length_replicate]

/-- The copy in the second partition is complete, as no later one reaches it. -/
theorem read_second_copy (data disk : Bytes) (h : data.length = 167772161) :
    (window ((p2 data.length).start * sector, data)).read (writeAll disk (copies data ++ seeds))
      = data := by
  rcases layout data.length with ⟨h2, h3, h4, -, hlarge, -⟩
  have hsectors : (p2 data.length).sectors = 360448 := by
    rw [h]
    decide
  rw [copies, layoutOf, List.map_cons, List.map_cons, List.cons_append, List.cons_append,
    writeAll_cons]
  refine read_writeAll_cons _ _ _ fun v hv => Or.inl ?_
  rcases List.mem_append.mp hv with hv | hv
  · rcases List.mem_map.mp hv with ⟨p, hp, rfl⟩
    simp only [List.mem_cons, List.not_mem_nil, or_false] at hp
    simp only [window, sector]
    rcases hp with rfl | rfl
    · omega
    · omega
  · have := (seeds_place v hv).1
    simp only [window, sector]
    omega

/-- Right behind the first partition stands the first byte of the second copy. -/
theorem getElem?_second_copy (data : Bytes) (h : data.length = 167772161) :
    (writeAll (tableDisk data.length) (copies data ++ seeds))[329728 * sector]? = data[0]? := by
  have hstart := (layout data.length).1
  have hbytes : diskSize = 2147483648 := rfl
  have hinside : (window ((p2 data.length).start * sector, data)).Inside
      (writeAll (tableDisk data.length) (copies data ++ seeds)) := by
    refine inside_writeAll _ _ _ ?_
    unfold Field.Inside window
    rw [length_tableDisk, hbytes]
    simp only [sector]
    omega
  have hfirst := Field.getElem?_read _ _ hinside 0 (by unfold window; simp only; omega)
  have hoffset : (window ((p2 data.length).start * sector, data)).offset + 0 = 329728 * sector := by
    rw [Nat.add_zero, window, hstart]
  rw [read_second_copy data _ h, hoffset] at hfirst
  exact hfirst.symm

/-- Of the copy in the first partition the last byte is lost: where it belongs
    stands the first byte of the next copy. -/
theorem makeSyntheticCf_oversized :
    ∃ disk, makeSyntheticCf some oversizedRootfs = .ok disk ∧
      disk[p1.start * sector + 160 * 1024 * 1024]? = some 1 ∧
      oversizedRootfs[160 * 1024 * 1024]? = some 0 ∧ ¬ Consistent oversizedRootfs disk := by
  have hsize : 0 < (p4 oversizedRootfs.length).sectors := by
    rw [length_oversizedRootfs]
    decide
  have hdata : rootfsData some oversizedRootfs = .ok oversizedRootfs := by
    refine if_neg fun h => ?_
    rw [oversizedRootfs, List.take_succ_cons, List.cons.injEq] at h
    exact absurd h.1 (by decide)
  have hlast : ∀ n, 0 < n → ((1 : UInt8) :: List.replicate n 0)[n]? = some 0 := fun n hn => by
    rw [List.getElem?_cons, if_neg (Nat.pos_iff_ne_zero.mp hn), List.getElem?_replicate,
      if_pos (Nat.sub_lt hn Nat.one_pos)]
  refine ⟨_, (makeSyntheticCf_ok_iff some oversizedRootfs _).mpr ⟨_, hdata, hsize, rfl⟩, ?_,
    hlast _ (by decide), fun h => ?_⟩
  · have hplace : p1.start * sector + 160 * 1024 * 1024 = 329728 * sector := by decide
    rw [hplace, getElem?_second_copy oversizedRootfs length_oversizedRootfs, oversizedRootfs,
      List.getElem?_cons_zero]
  · have := le_of_consistent oversizedRootfs _ hsize (sector_le_of_mem oversizedRootfs) h
    rw [length_oversizedRootfs] at this
    exact absurd this (by decide)

end Board

end Zd1200
