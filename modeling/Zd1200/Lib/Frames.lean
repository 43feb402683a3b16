import Zd1200.Lib.Slice

/-!
# Streams of Framed Records

A record is a line with a key and a size, that many bytes and a line feed. A
stream is one record behind the other, so a reader finds each record by the
size in the line before it and the bytes of a record may be any.

What the line looks like is a parameter. All that is needed of it is that it
can be read back and that it is one line.

## Main definitions

* `HeaderLine`: How keys and sizes are written in a line.
* `frame`, `readFrame`: One record.
* `readFrames`: The records of a stream.
* `lastRecord`: The last record with a key.

## Theorems

* `readFrames_frames`: A stream is read back.
* `readFrame_eq_some`: What is taken for a record.
* `prefix_flatMap`: What is left of a stream that was cut.
* `lastRecord_isSome`, `mem_of_lastRecord`: Records of a key.
-/

namespace Zd1200

/-- A line for a key and a size, and its reader. -/
structure HeaderLine (κ : Type) where
  write : κ → Nat → Bytes
  read : Bytes → Option (κ × Nat)
  read_write : ∀ key size, read (write key size) = some (key, size)
  one_line : ∀ key size, ∀ c ∈ write key size, c ≠ 10

section Frames

variable {κ : Type} (line : HeaderLine κ)

/-- A record. -/
def frame (record : κ × Bytes) : Bytes :=
  line.write record.1 record.2.length ++ 10 :: (record.2 ++ [10])

/-- The record at the front of a stream, and the rest. -/
def readFrame (stream : Bytes) : Option ((κ × Bytes) × Bytes) :=
  match stream.dropWhile (· ≠ 10) with
  | [] => none
  | _ :: rest =>
      match line.read (stream.takeWhile (· ≠ 10)) with
      | none => none
      | some (key, size) =>
          if rest[size]? = some 10 then some ((key, rest.take size), rest.drop (size + 1))
          else none

/-- The records of a stream, at most as many as allowed. -/
def readFrames : Nat → Bytes → Option (List (κ × Bytes))
  | _, [] => some []
  | 0, _ :: _ => none
  | allowed + 1, stream@(_ :: _) =>
      match readFrame line stream with
      | none => none
      | some (record, rest) => (readFrames allowed rest).map (record :: ·)

/-- A record is read back, whatever comes behind it. -/
theorem readFrame_frame (record : κ × Bytes) (rest : Bytes) :
    readFrame line (frame line record ++ rest) = some (record, rest) := by
  rcases record with ⟨key, bytes⟩
  have hline : ∀ c ∈ line.write key bytes.length, decide (c ≠ 10) = true :=
    fun c hc => decide_eq_true (line.one_line key bytes.length c hc)
  have hstream : frame line (key, bytes) ++ rest =
      line.write key bytes.length ++ 10 :: (bytes ++ 10 :: rest) := by
    simp only [frame, List.append_assoc, List.cons_append, List.nil_append]
  have hhead : (frame line (key, bytes) ++ rest).takeWhile (· ≠ 10) =
      line.write key bytes.length := by
    rw [hstream, List.takeWhile_append_of_pos hline, List.takeWhile_cons_of_neg (by decide),
      List.append_nil]
  have htail : (frame line (key, bytes) ++ rest).dropWhile (· ≠ 10) =
      10 :: (bytes ++ 10 :: rest) := by
    rw [hstream, List.dropWhile_append_of_pos hline, List.dropWhile_cons_of_neg (by decide)]
  have hend : (bytes ++ 10 :: rest)[bytes.length]? = some 10 := by
    rw [List.getElem?_append_right (Nat.le_refl _), Nat.sub_self, List.getElem?_cons_zero]
  have hafter : (bytes ++ 10 :: rest).drop (bytes.length + 1) = rest := by
    rw [← List.drop_drop, List.drop_left, List.drop_one, List.tail_cons]
  unfold readFrame
  rw [htail, hhead, line.read_write]
  simp only [hend, if_true, List.take_left, hafter]

/-- What a reader takes for a record: a line that is read, as many bytes as it
    says, and a line feed. -/
theorem readFrame_eq_some (stream : Bytes) (record : κ × Bytes) (rest : Bytes)
    (h : readFrame line stream = some (record, rest)) :
    ∃ text, (∀ c ∈ text, c ≠ 10) ∧ line.read text = some (record.1, record.2.length) ∧
      stream = text ++ 10 :: (record.2 ++ 10 :: rest) := by
  have hsplit : stream = stream.takeWhile (· ≠ 10) ++ stream.dropWhile (· ≠ 10) :=
    List.takeWhile_append_dropWhile.symm
  have htext : ∀ c ∈ stream.takeWhile (· ≠ 10), c ≠ 10 :=
    fun c hc => of_decide_eq_true (List.all_eq_true.mp List.all_takeWhile c hc)
  unfold readFrame at h
  cases hdrop : stream.dropWhile (· ≠ 10) with
  | nil =>
      rw [hdrop] at h
      exact absurd h (by simp only [reduceCtorEq, not_false_eq_true])
  | cons c behind =>
      have hc : c = 10 := by
        have hhead := List.head?_dropWhile_not (fun c : UInt8 => c ≠ 10) stream
        rw [hdrop] at hhead
        simpa using hhead
      rw [hdrop] at h hsplit
      simp only at h
      cases hread : line.read (stream.takeWhile (· ≠ 10)) with
      | none =>
          rw [hread] at h
          exact absurd h (by simp only [reduceCtorEq, not_false_eq_true])
      | some entry =>
          rcases entry with ⟨key, size⟩
          rw [hread] at h
          simp only at h
          split at h
          · next hend =>
            rcases List.getElem?_eq_some_iff.mp hend with ⟨hlt, hten⟩
            rw [Option.some.injEq, Prod.mk.injEq] at h
            rcases h with ⟨rfl, rfl⟩
            refine ⟨_, htext, ?_, ?_⟩
            · rw [hread, List.length_take, Nat.min_eq_left (Nat.le_of_lt hlt)]
            · -- Behind the body stands the line feed.
              have hbehind : behind = behind.take size ++ 10 :: behind.drop (size + 1) := by
                rw [← hten, List.getElem_cons_drop, List.take_append_drop]
              rw [← hbehind]
              rw [hc] at hsplit
              exact hsplit
          · exact absurd h (by simp only [reduceCtorEq, not_false_eq_true])

theorem frame_ne_nil (record : κ × Bytes) : frame line record ≠ [] := by
  unfold frame
  exact List.append_ne_nil_of_right_ne_nil _ (List.cons_ne_nil _ _)

/-- A stream is read back if its number of records is allowed. -/
theorem readFrames_frames (records : List (κ × Bytes)) (allowed : Nat)
    (h : records.length ≤ allowed) :
    readFrames line allowed (records.flatMap (frame line)) = some records := by
  induction records generalizing allowed with
  | nil =>
      cases allowed with
      | zero => rfl
      | succ allowed => rfl
  | cons record rest ih =>
      cases allowed with
      | zero => exact absurd h (Nat.not_succ_le_zero _)
      | succ allowed =>
          rw [List.flatMap_cons]
          cases hstream : frame line record ++ rest.flatMap (frame line) with
          | nil => exact absurd (List.append_eq_nil_iff.mp hstream).1 (frame_ne_nil line record)
          | cons c bytes =>
              -- The front of the stream is the first record.
              rw [readFrames, ← hstream, readFrame_frame]
              simp only
              rw [ih allowed (Nat.le_of_succ_le_succ h), Option.map_some]

/-- A stream has at least as many bytes as records. -/
theorem length_le_frames (records : List (κ × Bytes)) :
    records.length ≤ (records.flatMap (frame line)).length := by
  induction records with
  | nil => exact Nat.le_refl _
  | cons record rest ih =>
      have hpos := List.length_pos_iff.mpr (frame_ne_nil line record)
      rw [List.flatMap_cons, List.length_append, List.length_cons]
      omega

end Frames

/-- A stream that was cut: some whole pieces, and perhaps the beginning of
    another one. -/
theorem prefix_flatMap {α β : Type} (f : β → List α) (xs : List β) (cut : List α)
    (h : cut <+: xs.flatMap f) :
    (∃ j, cut = (xs.take j).flatMap f) ∨
      ∃ j x part, xs[j]? = some x ∧ cut = (xs.take j).flatMap f ++ part ∧ part ≠ [] ∧
        part <+: f x ∧ part.length < (f x).length := by
  induction xs generalizing cut with
  | nil => exact Or.inl ⟨0, List.prefix_nil.mp h⟩
  | cons x xs ih =>
      rw [List.flatMap_cons] at h
      by_cases hlen : cut.length < (f x).length
      · -- The first piece is not whole.
        rcases List.eq_nil_or_concat cut with rfl | ⟨front, last, hcut⟩
        · exact Or.inl ⟨0, rfl⟩
        · refine Or.inr ⟨0, x, cut, rfl, rfl, ?_, ?_, hlen⟩
          · rw [hcut, List.concat_eq_append]
            exact List.append_ne_nil_of_right_ne_nil _ (List.cons_ne_nil _ _)
          · exact List.prefix_of_prefix_length_le h (List.prefix_append _ _) (Nat.le_of_lt hlen)
      · have hwhole : f x <+: cut :=
          List.prefix_of_prefix_length_le (List.prefix_append _ _) h (Nat.le_of_not_lt hlen)
        rcases hwhole with ⟨rest, rfl⟩
        rcases ih rest ((List.prefix_append_right_inj _).mp h) with
          ⟨j, rfl⟩ | ⟨j, y, part, hy, rfl, hne, hpart, hshort⟩
        · exact Or.inl ⟨j + 1, by rw [List.take_succ_cons, List.flatMap_cons]⟩
        · refine Or.inr ⟨j + 1, y, part, by rwa [List.getElem?_cons_succ], ?_, hne, hpart, hshort⟩
          rw [List.take_succ_cons, List.flatMap_cons, List.append_assoc]

/-! ### Records of a key -/

section Keys

variable {κ β : Type} [DecidableEq κ]

/-- The last record of a key, which is what is left of them in a map. -/
def lastRecord (records : List (κ × β)) (key : κ) : Option β := records.reverse.lookup key

theorem lastRecord_isSome (records : List (κ × β)) (key : κ) (value : β)
    (h : (key, value) ∈ records) : (lastRecord records key).isSome := by
  rw [lastRecord, List.lookup_isSome_iff]
  exact ⟨(key, value), List.mem_reverse.mpr h, beq_self_eq_true key⟩

theorem mem_of_lastRecord (records : List (κ × β)) (key : κ) (value : β)
    (h : lastRecord records key = some value) : (key, value) ∈ records := by
  rcases List.lookup_eq_some_iff.mp h with ⟨before, after, heq, -⟩
  rw [← List.mem_reverse, heq]
  exact List.mem_append_right _ List.mem_cons_self

end Keys

end Zd1200
