import Mathlib.Data.List.Nodup
import Zd1200.Export.ParseDay
import Zd1200.Snapshot.Bundle

/-!
# The Page's Reader of Bundles

`snapshotBundle` of `ping-monitor.html`, offset by offset, and the shell's
output that it reads.

A bundle has no index and no checksum. What protects a reader is the size in
front of each capture: it says where the capture ends, whatever is in it, and
the line feed behind it has to be there. So a capture may hold line feeds and
lines that look like those of a bundle, and a bundle that was cut off is
noticed, unless it was cut between two records.

`Number` and the texts of numbers are modelled for digits, which is all that
the script writes. What the language does with other spellings is left open
(`Numerals`).

## Main definitions

* `Numerals`: Numbers that are not written as digits.
* `snapshotRecord`, `snapshotFiles`: One record, and the whole bundle.
* `bundleOutput`: What the shell writes.
* `filesOf`: The files of some records.

## Theorems

* `bundleOutput_eq`: The shell's output is a bundle.
* `snapshotRecord_frame`: A record is read, whatever it holds.
* `snapshotRecord_cut`: The beginning of a record is refused.
* `snapshotFiles_of_snapshotBundle`: It finds what `snapshotBundle` finds.
* `snapshotFiles_bundle`: Bundles are read back, and cut ones refused.
-/

namespace Zd1200

/-- What `Number` makes of texts that are not digits, if it is an integer, and
    the texts of integers that are not digits: signs, fractions, exponents,
    other bases and white space. -/
structure Numerals where
  number : Bytes → Option Int
  text : Int → Bytes

/-- `2 ^ 1024`, which the language rounds to infinity. -/
def infinity : Nat := (2 ^ 256) ^ 4

namespace Numerals

variable (numerals : Numerals)

/-- `Number` of a text, where it is an integer. The empty text counts as digits,
    and what is not finite is not an integer. -/
def integer (text : Bytes) : Option Int :=
  if text.all isDigit then
    if double (decimal text) < infinity then some (double (decimal text) : Int) else none
  else numerals.number text

/-- `${time}`. -/
def numberText (n : Int) : Bytes :=
  if 0 ≤ n ∧ n < 10 ^ 21 then decimalText n.toNat else numerals.text n

/-- `${time}-${type}.xml`. -/
def fileName (time : Int) (kind : CaptureKind) : Bytes :=
  numerals.numberText time ++ ascii "-" ++ kind.text ++ ascii ".xml"

end Numerals

/-- `files.set(name,body)`. -/
def setFile (files : List (Bytes × Bytes)) (name body : Bytes) : List (Bytes × Bytes) :=
  if files.any fun file => file.1 = name then
    files.map fun file => if file.1 = name then (name, body) else file
  else files ++ [(name, body)]

/-- One record: its name, what it holds, and the offset behind it. -/
def snapshotRecord (numerals : Numerals) (bytes : Bytes) (offset : Nat) :
    Except JsError ((Bytes × Bytes) × Nat) :=
  match findFrom bytes [10] offset with
  | none => .error (.error "Invalid daily snapshot record header.")
  | some newline =>
      match (slice bytes offset newline).splitOn 32 with
      | [time, type, size] =>
          match numerals.integer time, CaptureKind.ofText type, numerals.integer size with
          | some time, some kind, some size =>
              let start := newline + 1
              let stop := addDouble start size.toNat
              if size < 0 ∨ bytes.length ≤ stop ∨ bytes[stop]? ≠ some 10 then
                .error (.error "Invalid daily snapshot record.")
              else .ok ((numerals.fileName time kind, slice bytes start stop), stop + 1)
          | _, _, _ => .error (.error "Invalid daily snapshot record.")
      | _ => .error (.error "Invalid daily snapshot record.")

/-- `while(offset<bytes.length)`, for at most as many records as allowed. -/
def snapshotRecords (numerals : Numerals) (bytes : Bytes) :
    Nat → Nat → List (Bytes × Bytes) → Except JsError (List (Bytes × Bytes))
  | 0, offset, files => if offset < bytes.length then .error .rangeError else .ok files
  | allowed + 1, offset, files =>
      if offset < bytes.length then do
        let (file, offset) ← snapshotRecord numerals bytes offset
        snapshotRecords numerals bytes allowed offset (setFile files file.1 file.2)
      else .ok files

/-- `snapshotBundle` on the decompressed bytes. No bundle has more records than
    bytes. -/
def snapshotFiles (numerals : Numerals) (bytes : Bytes) :
    Except JsError (List (Bytes × Bytes)) := do
  raiseIf (bytes.take 12 ≠ bundleMagic) (.error "Invalid daily snapshot bundle.")
  snapshotRecords numerals bytes bytes.length 12 []

/-- `timestamp-kind.xml`. -/
def captureFile (name : CaptureName) : Bytes :=
  decimalText name.1 ++ ascii "-" ++ name.2.text ++ ascii ".xml"

/-- The commands in front of `gzip -6 -c`: for each time and kind a line with
    the size of the capture, the capture, and a line feed. -/
def bundleOutput (records : List (CaptureName × Bytes)) : Bytes :=
  ascii "ZDSNAPSHOT1\n" ++ records.flatMap fun ((timestamp, kind), input) =>
    let size := decimalText input.length
    (decimalText timestamp ++ ascii " " ++ kind.text ++ ascii " " ++ size ++ ascii "\n") ++ input ++
      ascii "\n"

/-- The shell's output is a bundle. -/
theorem bundleOutput_eq (records : List (CaptureName × Bytes)) :
    bundleOutput records = bundle records := by
  have hblank : ascii " " = [32] := by decide
  have hfeed : ascii "\n" = [10] := by decide
  have hmagic : ascii "ZDSNAPSHOT1\n" = bundleMagic := by decide
  unfold bundleOutput bundle
  rw [hmagic]
  congr 1
  refine List.flatMap_congr fun record _ => ?_
  simp only [frame, captureFormat, captureLine, hblank, hfeed, List.append_assoc, List.cons_append,
    List.nil_append]

/-! ### Names -/

theorem integer_of_number (numerals : Numerals) (text : Bytes) (n : Nat) (hn : number text = some n)
    (h : n < 2 ^ 53) : numerals.integer text = some (n : Int) := by
  have hfinite : n < infinity := Nat.lt_trans h (by decide)
  rw [number] at hn
  split at hn
  · next hdigits =>
    rw [Option.some.injEq] at hn
    subst hn
    have hdouble : double (decimal text) = decimal text := if_pos h
    rw [Numerals.integer, if_pos hdigits, hdouble, if_pos hfinite]
  · exact absurd hn (by simp only [reduceCtorEq, not_false_eq_true])

theorem fileName_natCast (numerals : Numerals) (n : Nat) (kind : CaptureKind) (h : n < 2 ^ 53) :
    numerals.fileName n kind = captureFile (n, kind) := by
  rw [Numerals.fileName, Numerals.numberText, if_pos (by omega), Int.toNat_natCast, captureFile]

/-- The name of a file says whose it is. -/
theorem captureFile_injective : Function.Injective captureFile := by
  have htime : ∀ name : CaptureName, (captureFile name).takeWhile isDigit = decimalText name.1 := by
    intro name
    rw [captureFile, List.append_assoc, List.append_assoc,
      List.takeWhile_append_of_pos (isDigit_decimalText name.1)]
    exact List.append_nil _
  rintro ⟨n, kind⟩ ⟨m, kind'⟩ h
  have hdigits := (htime (n, kind)).symm.trans ((congrArg (List.takeWhile isDigit) h).trans
    (htime (m, kind')))
  have hn : n = m := by
    rw [← decimal_decimalText n, ← decimal_decimalText m]
    exact congrArg decimal hdigits
  subst hn
  rw [captureFile, captureFile, List.append_assoc, List.append_assoc, List.append_assoc,
    List.append_assoc] at h
  have hkind : kind.text = kind'.text :=
    List.append_cancel_right (List.append_cancel_left (List.append_cancel_left h))
  have := CaptureKind.ofText_text kind
  rw [hkind, CaptureKind.ofText_text, Option.some.injEq] at this
  rw [this]

/-! ### One record -/

/-- A line feed is found behind a line. -/
theorem findFrom_line (before line rest : Bytes) (hline : ∀ c ∈ line, c ≠ 10) :
    findFrom (before ++ (line ++ 10 :: rest)) [10] before.length
      = some (before.length + line.length) := by
  have hocc : ∀ i, Occurs (before ++ (line ++ 10 :: rest)) [10] i ↔
      (before ++ (line ++ 10 :: rest))[i]? = some 10 := by
    intro i
    rw [occurs_iff]
    simp only [List.length_singleton, Nat.lt_one_iff, forall_eq, Nat.add_zero,
      List.getElem?_cons_zero]
  rw [findFrom_eq_some_iff _ _ _ _ (by simp only [ne_eq, reduceCtorEq, not_false_eq_true])]
  refine ⟨Nat.le_add_right _ _, ?_, fun j hj hlt => ?_⟩
  · rw [hocc, List.getElem?_append_right (Nat.le_add_right _ _), Nat.add_sub_cancel_left,
      List.getElem?_append_right (Nat.le_refl _), Nat.sub_self, List.getElem?_cons_zero]
  · rw [hocc, List.getElem?_append_right hj, List.getElem?_append_left (by omega)]
    intro hten
    exact hline 10 (List.mem_of_getElem? hten) rfl

/-- What is done with a record whose line is whole: it is read if its body and
    a line feed are there. -/
theorem snapshotRecord_line (numerals : Numerals) (before rest line : Bytes) (name : CaptureName)
    (size : Nat) (hline : ∀ c ∈ line, c ≠ 10) (hread : readCaptureLine line = some (name, size))
    (htime : name.1 < 2 ^ 53) (hsize : before.length + line.length + 1 + size < 2 ^ 53) :
    snapshotRecord numerals (before ++ (line ++ 10 :: rest)) before.length
      = if rest[size]? = some 10 then
          .ok ((captureFile name, rest.take size), before.length + line.length + 1 + size + 1)
        else .error (.error "Invalid daily snapshot record.") := by
  have hparts : before ++ (line ++ 10 :: rest) = (before ++ line ++ [10]) ++ rest := by
    simp only [List.append_assoc, List.cons_append, List.nil_append]
  have hlength : (before ++ line ++ [10]).length = before.length + line.length + 1 := by
    simp only [List.length_append, List.length_singleton]
  rcases readCaptureLine_eq_some line name size hread with ⟨time, type, digits, hsplit, hnumber,
    hkind, hdigits⟩
  unfold snapshotRecord
  rw [findFrom_line _ _ _ hline]
  simp only
  rw [← List.append_assoc, slice_append _ _ _ _ _ rfl rfl, hsplit, List.append_assoc, hparts]
  simp only [integer_of_number numerals _ _ hnumber htime, hkind,
    integer_of_number numerals _ _ hdigits (by omega : size < 2 ^ 53), Int.toNat_natCast,
    addDouble_of_lt _ _ hsize, fileName_natCast numerals _ _ htime]
  have hbyte : ((before ++ line ++ [10]) ++ rest)[before.length + line.length + 1 + size]?
      = rest[size]? := by
    rw [← hlength, List.getElem?_append_right (Nat.le_add_right _ _), Nat.add_sub_cancel_left]
  rw [hbyte]
  by_cases hend : rest[size]? = some 10
  · have hlt : size < rest.length := (List.getElem?_eq_some_iff.mp hend).1
    rw [if_pos hend, if_neg (by
      rw [List.length_append, hlength]
      exact fun h => h.elim (by omega) fun h => h.elim (by omega) fun h => h hend)]
    rw [← List.take_append_drop size rest, ← List.append_assoc,
      slice_append _ (rest.take size) _ _ _ (by rw [hlength])
        (by rw [hlength, List.length_take, Nat.min_eq_left (Nat.le_of_lt hlt)]),
      List.take_append_drop]
  · rw [if_neg hend, if_pos (Or.inr (Or.inr hend))]

/-- A record is read, whatever it holds and whatever is around it. -/
theorem snapshotRecord_frame (numerals : Numerals) (before rest : Bytes)
    (record : CaptureName × Bytes) (htime : record.1.1 < 2 ^ 53)
    (hexact : (before ++ (frame captureFormat record ++ rest)).length < 2 ^ 53) :
    snapshotRecord numerals (before ++ (frame captureFormat record ++ rest)) before.length
      = .ok ((captureFile record.1, record.2),
          before.length + (frame captureFormat record).length) := by
  rcases record with ⟨name, body⟩
  have hframe : frame captureFormat (name, body) ++ rest
      = captureLine name body.length ++ 10 :: (body ++ 10 :: rest) := by
    simp only [frame, captureFormat, List.append_assoc, List.cons_append, List.nil_append]
  have hlength : (frame captureFormat (name, body)).length
      = (captureLine name body.length).length + 1 + body.length + 1 := by
    simp only [frame, captureFormat, List.length_append, List.length_cons, List.length_nil]
    omega
  have hend : (body ++ 10 :: rest)[body.length]? = some 10 := by
    rw [List.getElem?_append_right (Nat.le_refl _), Nat.sub_self, List.getElem?_cons_zero]
  rw [List.length_append, List.length_append, hlength] at hexact
  rw [hframe, snapshotRecord_line numerals before _ (captureLine name body.length) name body.length
    (captureFormat.one_line name body.length) (readCaptureLine_captureLine name body.length) htime
    (by omega), if_pos hend, List.take_left, hlength]
  simp only [Nat.add_assoc]

/-- The beginning of a record is refused. -/
theorem snapshotRecord_cut (numerals : Numerals) (before part : Bytes)
    (record : CaptureName × Bytes) (htime : record.1.1 < 2 ^ 53)
    (hexact : (before ++ frame captureFormat record).length < 2 ^ 53)
    (hpart : part <+: frame captureFormat record)
    (hshort : part.length < (frame captureFormat record).length) :
    ∃ message, snapshotRecord numerals (before ++ part) before.length
      = .error (.error message) := by
  rcases record with ⟨name, body⟩
  have hframe : frame captureFormat (name, body)
      = captureLine name body.length ++ 10 :: (body ++ [10]) := rfl
  rw [hframe] at hpart hshort hexact
  simp only [List.length_append, List.length_cons, List.length_nil] at hshort hexact
  by_cases hline : part.length ≤ (captureLine name body.length).length
  · -- Without a line feed there is no header.
    have hpart : part <+: captureLine name body.length :=
      List.prefix_of_prefix_length_le hpart (List.prefix_append _ _) hline
    have hnone : findFrom (before ++ part) [10] before.length = none := by
      rw [findFrom_eq_none_iff _ _ _ (by simp only [ne_eq, reduceCtorEq, not_false_eq_true])]
      intro j hj hocc
      have hten := (occurs_iff _ _ _).mp hocc 0 Nat.zero_lt_one
      rw [Nat.add_zero, List.getElem?_append_right hj, List.getElem?_cons_zero] at hten
      exact captureFormat.one_line name body.length 10
        (hpart.subset (List.mem_of_getElem? hten)) rfl
    exact ⟨_, by rw [snapshotRecord, hnone]⟩
  · have hwhole : captureLine name body.length ++ [10] <+: part :=
      List.prefix_of_prefix_length_le
        (by rw [List.append_cons _ 10 (body ++ [10])]; exact List.prefix_append _ _) hpart
        (by rw [List.length_append, List.length_singleton]; omega)
    rcases hwhole with ⟨rest, rfl⟩
    simp only [List.length_append, List.length_singleton] at hshort
    -- The line feed behind the body is missing.
    refine ⟨"Invalid daily snapshot record.", ?_⟩
    rw [List.append_assoc, List.cons_append, List.nil_append,
      snapshotRecord_line numerals before rest (captureLine name body.length) name body.length
        (captureFormat.one_line name body.length) (readCaptureLine_captureLine name body.length)
        htime (by omega),
      if_neg (by
        rw [List.getElem?_eq_none (by omega)]
        simp only [reduceCtorEq, not_false_eq_true])]

/-! ### Bundles -/

theorem setFile_new (files : List (Bytes × Bytes)) (name body : Bytes)
    (h : name ∉ files.map Prod.fst) : setFile files name body = files ++ [(name, body)] := by
  refine if_neg fun hany => ?_
  rcases List.any_eq_true.mp hany with ⟨file, hfile, hname⟩
  exact h (List.mem_map.mpr ⟨file, hfile, of_decide_eq_true hname⟩)

/-- The files of some records. -/
def filesOf (records : List (CaptureName × Bytes)) : List (Bytes × Bytes) :=
  records.map fun record => (captureFile record.1, record.2)

/-- At the end of the bytes the loop ends. -/
theorem snapshotRecords_end (numerals : Numerals) (bytes : Bytes) (allowed : Nat)
    (files : List (Bytes × Bytes)) :
    snapshotRecords numerals bytes allowed bytes.length files = .ok files := by
  cases allowed with
  | zero => exact if_neg (Nat.lt_irrefl _)
  | succ allowed => exact if_neg (Nat.lt_irrefl _)

/-- The records that a reader of frames finds are those that this one finds. -/
theorem snapshotRecords_of_readFrames (numerals : Numerals) (stream before : Bytes)
    (allowed more : Nat) (files : List (Bytes × Bytes)) (records : List (CaptureName × Bytes))
    (h : readFrames captureFormat allowed stream = some records) (hmore : allowed ≤ more)
    (htimes : ∀ record ∈ records, record.1.1 < 2 ^ 53)
    (hexact : (before ++ stream).length < 2 ^ 53) :
    snapshotRecords numerals (before ++ stream) more before.length files
      = .ok (records.foldl (fun files record => setFile files (captureFile record.1) record.2)
          files) := by
  induction allowed generalizing stream before more files records with
  | zero =>
      cases stream with
      | nil =>
          rw [← Option.some.inj h, List.append_nil]
          exact snapshotRecords_end numerals before more files
      | cons c rest => exact absurd h (by simp only [readFrames, reduceCtorEq, not_false_eq_true])
  | succ allowed ih =>
      cases stream with
      | nil =>
          rw [← Option.some.inj h, List.append_nil]
          exact snapshotRecords_end numerals before more files
      | cons c bytes =>
          rw [readFrames] at h
          cases hframe : readFrame captureFormat (c :: bytes) with
          | none =>
              rw [hframe] at h
              exact absurd h (by simp only [reduceCtorEq, not_false_eq_true])
          | some found =>
              rcases found with ⟨record, rest⟩
              rw [hframe] at h
              rcases Option.map_eq_some_iff.mp h with ⟨later, hlater, rfl⟩
              rw [List.forall_mem_cons] at htimes
              rcases readFrame_eq_some captureFormat _ record rest hframe with
                ⟨line, hline, hread, hstream⟩
              rcases Nat.exists_eq_succ_of_ne_zero (by omega : more ≠ 0) with ⟨more', rfl⟩
              rw [hstream, List.length_append, List.length_append, List.length_cons,
                List.length_append, List.length_cons] at hexact
              have hmove : before ++ (c :: bytes)
                  = (before ++ (line ++ 10 :: (record.2 ++ [10]))) ++ rest := by
                rw [hstream]
                simp only [List.append_assoc, List.cons_append, List.nil_append]
              have hrecord : snapshotRecord numerals (before ++ (c :: bytes)) before.length
                  = .ok ((captureFile record.1, record.2),
                      (before ++ (line ++ 10 :: (record.2 ++ [10]))).length) := by
                have hend : (record.2 ++ 10 :: rest)[record.2.length]? = some 10 := by
                  rw [List.getElem?_append_right (Nat.le_refl _), Nat.sub_self,
                    List.getElem?_cons_zero]
                rw [hstream, snapshotRecord_line numerals before _ line record.1 record.2.length hline
                  hread htimes.1 (by omega), if_pos hend, List.take_left]
                simp only [List.length_append, List.length_cons, List.length_nil]
                congr 2
                omega
              -- The next record begins where this one ends.
              rw [snapshotRecords, if_pos (by rw [List.length_append, List.length_cons]; omega),
                hrecord, ok_bind, List.foldl_cons, hmove]
              exact ih rest _ more' _ later hlater (by omega) htimes.2 (by
                rw [← hmove, hstream, List.length_append, List.length_append, List.length_cons,
                  List.length_append, List.length_cons]
                exact hexact)

/-- What `snapshotBundle` reads from a bundle is what the page keeps of it. -/
theorem snapshotFiles_of_snapshotBundle (numerals : Numerals) (bytes : Bytes)
    (records : List (CaptureName × Bytes)) (h : snapshotBundle bytes = some records)
    (htimes : ∀ record ∈ records, record.1.1 < 2 ^ 53) (hexact : bytes.length < 2 ^ 53) :
    snapshotFiles numerals bytes
      = .ok (records.foldl (fun files record => setFile files (captureFile record.1) record.2)
          []) := by
  rw [snapshotBundle] at h
  split at h
  · next hmagic =>
    have hbytes : bytes = bundleMagic ++ bytes.drop 12 := by
      rw [← hmagic, List.take_append_drop]
    rw [snapshotFiles, raiseIf_of_not (not_not.mpr hmagic), ok_bind]
    have hrecords := snapshotRecords_of_readFrames numerals (bytes.drop 12) bundleMagic bytes.length
      bytes.length [] records h (Nat.le_refl _) htimes (by rw [← hbytes]; exact hexact)
    rw [← hbytes] at hrecords
    exact hrecords
  · exact absurd h (by simp only [reduceCtorEq, not_false_eq_true])

/-- Whole records are read one after another, whatever comes behind them. -/
theorem snapshotRecords_frames (numerals : Numerals) (records : List (CaptureName × Bytes))
    (before tail : Bytes) (allowed : Nat) (files : List (Bytes × Bytes))
    (htimes : ∀ record ∈ records, record.1.1 < 2 ^ 53)
    (hexact : (before ++ (records.flatMap (frame captureFormat) ++ tail)).length < 2 ^ 53)
    (hnames : (files.map Prod.fst ++ (filesOf records).map Prod.fst).Nodup)
    (hallowed : records.length ≤ allowed) :
    snapshotRecords numerals (before ++ (records.flatMap (frame captureFormat) ++ tail)) allowed
        before.length files
      = snapshotRecords numerals (before ++ (records.flatMap (frame captureFormat) ++ tail))
          (allowed - records.length) (before ++ records.flatMap (frame captureFormat)).length
          (files ++ filesOf records) := by
  induction records generalizing before allowed files with
  | nil => simp only [List.flatMap_nil, List.append_nil, List.length_nil, Nat.sub_zero, filesOf,
      List.map_nil]
  | cons record rest ih =>
      cases allowed with
      | zero => exact absurd hallowed (Nat.not_succ_le_zero _)
      | succ allowed =>
          have hpos := List.length_pos_iff.mpr (frame_ne_nil captureFormat record)
          have hbytes : before ++ ((record :: rest).flatMap (frame captureFormat) ++ tail)
              = before ++ (frame captureFormat record ++
                (rest.flatMap (frame captureFormat) ++ tail)) := by
            rw [List.flatMap_cons, List.append_assoc]
          rw [hbytes] at hexact ⊢
          have hinside : before.length < (before ++ (frame captureFormat record ++
              (rest.flatMap (frame captureFormat) ++ tail))).length := by
            rw [List.length_append, List.length_append]
            omega
          have hread := snapshotRecord_frame numerals before
            (rest.flatMap (frame captureFormat) ++ tail) record
            (htimes record List.mem_cons_self) hexact
          have hnew : captureFile record.1 ∉ files.map Prod.fst := by
            intro hmem
            have := (List.nodup_append.mp hnames).2.2 _ hmem (captureFile record.1)
              (by rw [filesOf, List.map_cons, List.map_cons]; exact List.mem_cons_self)
            exact this rfl
          have hmove : before ++ (frame captureFormat record ++
                (rest.flatMap (frame captureFormat) ++ tail))
              = (before ++ frame captureFormat record) ++
                (rest.flatMap (frame captureFormat) ++ tail) := by
            rw [List.append_assoc]
          -- The next record begins where this one ends.
          have hrest := ih (before ++ frame captureFormat record) allowed
            (files ++ [(captureFile record.1, record.2)])
            (fun r hr => htimes r (List.mem_cons_of_mem _ hr)) (hmove ▸ hexact)
            (by
              rw [List.map_append, List.append_assoc]
              exact hnames) (Nat.le_of_succ_le_succ hallowed)
          rw [← hmove] at hrest
          conv_lhs => rw [snapshotRecords]
          rw [if_pos hinside]
          simp only [hread, ok_bind]
          rw [setFile_new _ _ _ hnew, ← List.length_append, hrest, List.append_assoc,
            List.append_assoc, List.length_cons, Nat.succ_sub_succ, List.flatMap_cons]
          rfl

/-- The reader behind the whole records of a bundle. -/
theorem snapshotFiles_frames (numerals : Numerals) (records : List (CaptureName × Bytes))
    (tail : Bytes) (hnames : (records.map Prod.fst).Nodup)
    (htimes : ∀ record ∈ records, record.1.1 < 2 ^ 53)
    (hexact : (bundle records ++ tail).length < 2 ^ 53) :
    snapshotFiles numerals (bundle records ++ tail)
      = snapshotRecords numerals (bundle records ++ tail)
          ((bundle records ++ tail).length - records.length) (bundle records).length
          (filesOf records) := by
  have hmagic : bundleMagic.length = 12 := rfl
  have hcount := length_le_frames captureFormat records
  have hbytes : bundle records ++ tail
      = bundleMagic ++ (records.flatMap (frame captureFormat) ++ tail) := by
    rw [bundle, List.append_assoc]
  have hdistinct : ((filesOf records).map Prod.fst).Nodup := by
    rw [filesOf, List.map_map]
    have := List.Nodup.map captureFile_injective hnames
    rwa [List.map_map] at this
  rw [hbytes] at hexact ⊢
  rw [snapshotFiles, raiseIf_of_not (by rw [← hmagic, List.take_left, ne_eq, not_not]), ok_bind,
    ← hmagic]
  refine snapshotRecords_frames numerals records bundleMagic tail _ [] htimes hexact hdistinct ?_
  rw [List.length_append, List.length_append]
  omega

/-- A bundle continues with the next record. -/
theorem bundle_take_record (records : List (CaptureName × Bytes)) (j : Nat)
    (record : CaptureName × Bytes) (hrecord : records[j]? = some record) :
    bundle (records.take j) ++ frame captureFormat record <+: bundle records := by
  have hnext : bundle (records.take j) ++ frame captureFormat record
      = bundle (records.take (j + 1)) := by
    rw [List.take_add_one, hrecord, bundle, bundle, List.flatMap_append]
    simp only [Option.toList_some, List.flatMap_cons, List.flatMap_nil, List.append_nil,
      List.append_assoc]
  rw [hnext, bundle, bundle, List.prefix_append_right_inj]
  conv_rhs => rw [← List.take_append_drop (j + 1) records, List.flatMap_append]
  exact List.prefix_append _ _

/-- A bundle is read back, and what is left of one that was cut is refused,
    unless it was cut between two records. -/
theorem snapshotFiles_bundle (numerals : Numerals) (records : List (CaptureName × Bytes))
    (hnames : (records.map Prod.fst).Nodup) (htimes : ∀ record ∈ records, record.1.1 < 2 ^ 53)
    (hexact : (bundleOutput records).length < 2 ^ 53) :
    snapshotFiles numerals (bundleOutput records) = .ok (filesOf records) ∧
      ∀ cut, cut <+: bundleOutput records → (∀ j, cut ≠ bundleOutput (records.take j)) →
        ∃ message, snapshotFiles numerals cut = .error (.error message) := by
  simp only [bundleOutput_eq] at *
  constructor
  · have hread := snapshotFiles_frames numerals records [] hnames htimes
      (by rw [List.append_nil]; exact hexact)
    rw [List.append_nil] at hread
    rw [hread, snapshotRecords_end]
  · intro cut hcut hboundary
    by_cases hmagic : bundleMagic <+: cut
    · rcases hmagic with ⟨rest, rfl⟩
      rcases prefix_flatMap _ records rest ((List.prefix_append_right_inj _).mp hcut) with
        ⟨j, rfl⟩ | ⟨j, record, part, hrecord, rfl, hne, hpart, hshort⟩
      · exact absurd rfl (hboundary j)
      · -- The whole records are read, and then the rest is refused.
        have hbytes : bundleMagic ++ ((records.take j).flatMap (frame captureFormat) ++ part)
            = bundle (records.take j) ++ part := by rw [bundle, List.append_assoc]
        rw [hbytes] at hcut ⊢
        have hmem := List.mem_of_getElem? hrecord
        have hlength := hcut.length_le
        have hread := snapshotFiles_frames numerals (records.take j) part
          (hnames.sublist ((List.take_sublist _ _).map _))
          (fun r hr => htimes r (List.mem_of_mem_take hr)) (by omega)
        have hwhole : (bundle (records.take j) ++ frame captureFormat record).length < 2 ^ 53 :=
          Nat.lt_of_le_of_lt (bundle_take_record records j record hrecord).length_le hexact
        rcases snapshotRecord_cut numerals (bundle (records.take j)) part record
          (htimes record hmem) hwhole hpart hshort with ⟨message, hmessage⟩
        have hcount := length_le_frames captureFormat (records.take j)
        have hpos := List.length_pos_iff.mpr hne
        have hallowed : (bundle (records.take j) ++ part).length - (records.take j).length ≠ 0 := by
          rw [bundle, List.length_append, List.length_append]
          omega
        rcases Nat.exists_eq_succ_of_ne_zero hallowed with ⟨allowed, hallowed⟩
        refine ⟨message, ?_⟩
        rw [hread, hallowed, snapshotRecords, if_pos (by rw [List.length_append]; omega), hmessage]
        rfl
    · refine ⟨"Invalid daily snapshot bundle.", ?_⟩
      have htake : cut.take 12 ≠ bundleMagic := fun htake =>
        hmagic (by rw [← htake]; exact List.take_prefix _ _)
      rw [snapshotFiles, raiseIf_of htake]
      rfl

/-- Captures that are empty, that hold line feeds and that look like records. -/
def trickyRecords : List (CaptureName × Bytes) :=
  [((1814313610, .ap), []), ((1814313610, .client), [10, 10]),
   ((1814313610, .mesh), ascii "1814313640 ap 0\n\n")]

theorem snapshotFiles_bundle_tricky :
    snapshotFiles ⟨fun _ => none, fun _ => []⟩ (bundleOutput trickyRecords)
        = .ok (filesOf trickyRecords) ∧
      ∃ message, snapshotFiles ⟨fun _ => none, fun _ => []⟩
        ((bundleOutput trickyRecords).take 35) = .error (.error message) := by
  have h := snapshotFiles_bundle ⟨fun _ => none, fun _ => []⟩ trickyRecords (by decide) (by decide)
    (by decide +kernel)
  refine ⟨h.1, h.2 _ (List.take_prefix _ _) fun j hj => ?_⟩
  have hlength := congrArg List.length hj
  -- No boundary stands there.
  match j with
  | 0 | 1 | 2 => exact absurd hlength (by decide +kernel)
  | j + 3 =>
      have htake : trickyRecords.take (j + 3) = trickyRecords :=
        List.take_of_length_le (Nat.le_add_left 3 j)
      rw [htake] at hlength
      exact absurd hlength (by decide +kernel)

end Zd1200
