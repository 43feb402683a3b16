import Mathlib.Data.List.Basic
import Zd1200.Lib.LittleEndian

/-!
# Records and Matrices

Reading numbers back out of a byte string that was put together from parts.

A reader knows offsets, a writer knows the order of the parts. `readLe` reads
at an offset and fails behind the end, as a bounds-checked view does.
`readLe_append_right` and `readLe_append_left` move a read into the part it
falls into, and `readLe_encodeFields` answers it there: a record is a list of
widths and values, and the offset of a field is the total width of those
before it.

A matrix is written row by row. `getElem?_flatMap_row` finds an entry by its
row and column. A row is filled by writes in some order, of which the last
one at a position counts (`getElem?_writeAll`).

## Main definitions

* `readLe`: The number at an offset.
* `encodeFields`: A record, from widths and values.
* `writeAll`: A row after a series of writes.

## Theorems

* `readLe_flatten`, `getElem?_flatten`: Reads inside one of several parts.
* `readLe_encodeFields`: A field is read back at the width of those before it.
* `getElem?_flatMap_row`: An entry of a matrix.
* `getElem?_writeAll`: The last write at a position counts.
* `getLast?_filterMap_of_last`: The last value in a sorted list.
-/

namespace Zd1200

/-- The number in the `width` bytes at an offset, if they are all there. -/
def readLe (bytes : Bytes) (offset width : Nat) : Option Nat :=
  if offset + width ≤ bytes.length then some (leNat ((bytes.drop offset).take width)) else none

theorem readLe_append_right (a b : Bytes) (offset width : Nat) :
    readLe (a ++ b) (a.length + offset) width = readLe b offset width := by
  unfold readLe
  have hlen : a.length + offset + width ≤ (a ++ b).length ↔ offset + width ≤ b.length := by
    rw [List.length_append]
    omega
  rw [List.drop_append, List.drop_eq_nil_of_le (by omega), List.nil_append,
    Nat.add_sub_cancel_left]
  by_cases h : offset + width ≤ b.length
  · rw [if_pos h, if_pos (hlen.mpr h)]
  · rw [if_neg h, if_neg fun h' => h (hlen.mp h')]

theorem readLe_append_left (a b : Bytes) (offset width : Nat) (h : offset + width ≤ a.length) :
    readLe (a ++ b) offset width = readLe a offset width := by
  unfold readLe
  rw [if_pos h, if_pos (by rw [List.length_append]; omega),
    List.drop_append_of_le_length (by omega),
    List.take_append_of_le_length (by rw [List.length_drop]; omega)]

/-- A concatenation around one of its parts. -/
theorem flatten_around {α : Type} (parts : List (List α)) (k : Nat) (part : List α)
    (hk : parts[k]? = some part) :
    parts.flatten = (parts.take k).flatten ++ (part ++ (parts.drop (k + 1)).flatten) := by
  rcases List.getElem?_eq_some_iff.mp hk with ⟨hlt, hget⟩
  conv_lhs => rw [← List.take_append_drop k parts, List.drop_eq_getElem_cons hlt, hget]
  rw [List.flatten_append, List.flatten_cons]

/-- A read inside one of the parts. -/
theorem readLe_flatten (parts : List Bytes) (k : Nat) (part : Bytes) (hk : parts[k]? = some part)
    (offset width : Nat) (h : offset + width ≤ part.length) :
    readLe parts.flatten ((parts.take k).flatten.length + offset) width
      = readLe part offset width := by
  rw [flatten_around parts k part hk, readLe_append_right, readLe_append_left _ _ _ _ h]

/-- A piece of one of the parts. -/
theorem take_drop_flatten {α : Type} (parts : List (List α)) (k : Nat) (part : List α)
    (hk : parts[k]? = some part) (offset count : Nat) (h : offset + count ≤ part.length) :
    (parts.flatten.drop ((parts.take k).flatten.length + offset)).take count
      = (part.drop offset).take count := by
  rw [flatten_around parts k part hk, List.drop_append, List.drop_eq_nil_of_le (by omega),
    List.nil_append, Nat.add_sub_cancel_left, List.drop_append_of_le_length (by omega),
    List.take_append_of_le_length (by rw [List.length_drop]; omega)]

/-- An element of one of the parts. -/
theorem getElem?_flatten {α : Type} (parts : List (List α)) (k : Nat) (part : List α)
    (hk : parts[k]? = some part) (offset : Nat) (h : offset < part.length) :
    parts.flatten[(parts.take k).flatten.length + offset]? = part[offset]? := by
  rw [flatten_around parts k part hk, List.getElem?_append_right (by omega),
    Nat.add_sub_cancel_left, List.getElem?_append_left h]

/-- A record: each value in its width. -/
def encodeFields (fields : List (Nat × Nat)) : Bytes :=
  fields.flatMap fun field => leBytes field.1 field.2

/-- The total width of a record. -/
def fieldsWidth (fields : List (Nat × Nat)) : Nat := (fields.map Prod.fst).sum

theorem length_encodeFields (fields : List (Nat × Nat)) :
    (encodeFields fields).length = fieldsWidth fields := by
  induction fields with
  | nil => rfl
  | cons field rest ih =>
      rw [encodeFields, List.flatMap_cons, List.length_append, length_leBytes]
      rw [encodeFields] at ih
      rw [ih]
      rfl

/-- A field that fits is read back at the width of those before it. -/
theorem readLe_encodeFields (fields : List (Nat × Nat)) (k width value : Nat)
    (hk : fields[k]? = some (width, value)) (hfits : value < 256 ^ width) :
    readLe (encodeFields fields) (fieldsWidth (fields.take k)) width = some value := by
  have hlt : k < fields.length := (List.getElem?_eq_some_iff.mp hk).1
  -- The record is split in front of the field and behind it.
  have hsplit : fields = fields.take k ++ (width, value) :: fields.drop (k + 1) := by
    have hget : fields[k] = (width, value) := (List.getElem?_eq_some_iff.mp hk).2
    rw [← hget, ← List.drop_eq_getElem_cons hlt, List.take_append_drop]
  have hbytes : encodeFields fields = encodeFields (fields.take k) ++
      (leBytes width value ++ encodeFields (fields.drop (k + 1))) := by
    conv_lhs => rw [hsplit]
    rw [encodeFields, List.flatMap_append, List.flatMap_cons]
    rfl
  -- A read at the field's offset is one at the start of its bytes.
  rw [hbytes, ← length_encodeFields, ← Nat.add_zero (encodeFields (fields.take k)).length,
    readLe_append_right, readLe_append_left _ _ _ _ (by rw [length_leBytes]; omega)]
  unfold readLe
  rw [if_pos (by rw [length_leBytes]; omega), List.drop_zero,
    List.take_of_length_le (by rw [length_leBytes]), leNat_leBytes width value hfits]

/-- Numbers of one width, one after another. -/
def encodeNumbers (width : Nat) (values : List Nat) : Bytes :=
  encodeFields (values.map fun value => (width, value))

theorem length_encodeNumbers (width : Nat) (values : List Nat) :
    (encodeNumbers width values).length = width * values.length := by
  rw [encodeNumbers, length_encodeFields, fieldsWidth, List.map_map]
  have hconst : (Prod.fst ∘ fun value : Nat => (width, value)) = fun _ => width := rfl
  rw [hconst, List.map_const', List.sum_replicate_nat, Nat.mul_comm]

theorem readLe_encodeNumbers (width : Nat) (values : List Nat) (k value : Nat)
    (hk : values[k]? = some value) (hfits : value < 256 ^ width) :
    readLe (encodeNumbers width values) (width * k) width = some value := by
  have hlt : k < values.length := (List.getElem?_eq_some_iff.mp hk).1
  have hwidth : fieldsWidth ((values.map fun value => (width, value)).take k) = width * k := by
    rw [← List.map_take, fieldsWidth, List.map_map]
    have hconst : (Prod.fst ∘ fun value : Nat => (width, value)) = fun _ => width := rfl
    rw [hconst, List.map_const', List.sum_replicate_nat, List.length_take,
      Nat.min_eq_left (by omega), Nat.mul_comm]
  have := readLe_encodeFields (values.map fun value => (width, value)) k width value
    (by rw [List.getElem?_map, hk, Option.map_some]) hfits
  rwa [hwidth] at this

section Matrix

variable {α β : Type}

theorem length_flatMap_row (rows : List α) (f : α → List β) (columns : Nat)
    (h : ∀ row ∈ rows, (f row).length = columns) :
    (rows.flatMap f).length = rows.length * columns := by
  induction rows with
  | nil => rw [List.flatMap_nil, List.length_nil, List.length_nil, Nat.zero_mul]
  | cons row rest ih =>
      rw [List.flatMap_cons, List.length_append, h row List.mem_cons_self,
        ih fun r hr => h r (List.mem_cons_of_mem _ hr), List.length_cons, Nat.succ_mul,
        Nat.add_comm]

/-- An entry of a matrix. -/
theorem getElem?_flatMap_row (rows : List α) (f : α → List β) (columns : Nat)
    (h : ∀ row ∈ rows, (f row).length = columns) (i j : Nat) (hj : j < columns) :
    (rows.flatMap f)[i * columns + j]? = (rows[i]?).bind fun row => (f row)[j]? := by
  induction rows generalizing i with
  | nil => rfl
  | cons row rest ih =>
      have hrow := h row List.mem_cons_self
      rw [List.flatMap_cons]
      cases i with
      | zero =>
          -- The first row holds the first columns.
          rw [Nat.zero_mul, Nat.zero_add, List.getElem?_append_left (by omega)]
          rfl
      | succ i =>
          -- A later row is a row of the rest.
          rw [List.getElem?_append_right (by rw [hrow, Nat.succ_mul]; omega), hrow,
            show (i + 1) * columns + j - columns = i * columns + j by rw [Nat.succ_mul]; omega,
            ih (fun r hr => h r (List.mem_cons_of_mem _ hr)) i]
          rfl

/-- A row of a matrix. -/
theorem take_drop_flatMap_row (rows : List α) (f : α → List β) (columns : Nat)
    (h : ∀ row ∈ rows, (f row).length = columns) (i : Nat) (row : α) (hi : rows[i]? = some row) :
    ((rows.flatMap f).drop (i * columns)).take columns = f row := by
  have hlen : (f row).length = columns := h row (List.mem_of_getElem? hi)
  -- The rows in front take up their share of the columns.
  have hbefore : ((rows.map f).take i).flatten.length = i * columns := by
    rw [← List.map_take, ← List.flatMap_def,
      length_flatMap_row _ _ columns fun r hr => h r (List.mem_of_mem_take hr), List.length_take,
      Nat.min_eq_left (Nat.le_of_lt (List.getElem?_eq_some_iff.mp hi).1)]
  have hpart := take_drop_flatten (rows.map f) i (f row)
    (by rw [List.getElem?_map, hi, Option.map_some]) 0 columns (by omega)
  rwa [hbefore, Nat.add_zero, List.drop_zero, List.take_of_length_le (Nat.le_of_eq hlen),
    ← List.flatMap_def] at hpart

/-- A row after a series of writes, each to a position. -/
def writeAll (row : List α) (writes : List (Nat × α)) : List α :=
  writes.foldl (fun row write => row.set write.1 write.2) row

theorem length_writeAll (row : List α) (writes : List (Nat × α)) :
    (writeAll row writes).length = row.length := by
  unfold writeAll
  induction writes generalizing row with
  | nil => rfl
  | cons write rest ih => rw [List.foldl_cons, ih, List.length_set]

/-- The last write at a position counts. -/
theorem getElem?_writeAll (row : List α) (writes : List (Nat × α)) (k : Nat)
    (hk : k < row.length) :
    (writeAll row writes)[k]?
      = (((writes.filter fun write => write.1 = k).getLast?).map Prod.snd).or row[k]? := by
  unfold writeAll
  induction writes generalizing row with
  | nil => rfl
  | cons write rest ih =>
      rw [List.foldl_cons, ih _ (by rw [List.length_set]; exact hk), List.filter_cons]
      by_cases hw : write.1 = k
      · rw [if_pos (by rw [decide_eq_true_eq]; exact hw), List.getLast?_cons, hw,
          List.getElem?_set_self hk]
        -- A later write at the position covers this one.
        cases hlast : (rest.filter fun write => write.1 = k).getLast? with
        | none => rfl
        | some last => rfl
      · rw [if_neg (by rw [decide_eq_true_eq]; exact hw), List.getElem?_set_ne hw]

/-- Of the values that the entries of a sorted list have, the last one is that
    of an entry that no other one follows. -/
theorem getLast?_filterMap_of_last (R : α → α → Prop) (entries : List α)
    (hsorted : entries.Pairwise R) (value : α → Option β) (last : α) (hlast : last ∈ entries)
    (b : β) (hb : value last = some b) (hmax : ∀ q ∈ entries, R last q → ∀ c ∈ value q, c = b) :
    (entries.filterMap value).getLast? = some b := by
  rcases List.append_of_mem hlast with ⟨before, after, rfl⟩
  have hafter := (List.pairwise_cons.mp (List.pairwise_append.mp hsorted).2.1).1
  -- What comes behind the last entry has no other value.
  have hall : ∀ c ∈ after.filterMap value, c = b := by
    intro c hc
    rcases List.mem_filterMap.mp hc with ⟨q, hq, hqc⟩
    exact hmax q (List.mem_append_right _ (List.mem_cons_of_mem _ hq)) (hafter q hq) c hqc
  rw [List.filterMap_append, List.filterMap_cons_some hb, List.getLast?_append, List.getLast?_cons]
  cases hend : (after.filterMap value).getLast? with
  | none => rfl
  | some c =>
      rw [hall c (List.mem_of_getLast? hend)]
      rfl

end Matrix

end Zd1200
