import Zd1200.Lib.Fields

/-!
# Records Filled Field by Field

A record of fixed size that starts out as zeros and into which contents are
written, each at the front of a field of its own.

A content may be shorter than its field. What is left of the field then keeps
its zeros, and that is how a text in such a record comes to be terminated. If
the fields share no byte and every content fits, the order of the writes does
not matter, and `Fitting.read_fill` says that a field holds its content and zeros
behind it.

## Main definitions

* `Entry`: A field and the content written to it.
* `fill`: Writing entries into zeros.
* `Fitting`: What makes entries fit together.

## Theorems

* `Fitting.length_fill`: A record keeps its size.
* `Fitting.read_fill`: What a field holds.
-/

namespace Zd1200

variable {α : Type}

/-- A content and the field at whose front it is written. -/
structure Entry (α : Type) where
  field : Field
  content : List α

/-- The bytes that are written. -/
def Entry.window (e : Entry α) : Field := ⟨e.field.offset, e.content.length⟩

/-- Writing entries, one after another. -/
def writeEntries (record : List α) (entries : List (Entry α)) : List α :=
  entries.foldl (fun record e => e.window.write record e.content) record

/-- Writing entries into a record that holds one element all over. -/
def fill (size : Nat) (zero : α) (entries : List (Entry α)) : List α :=
  writeEntries (List.replicate size zero) entries

/-- Contents that fit into fields that lie in the record and share nothing. -/
structure Fitting (size : Nat) (entries : List (Entry α)) : Prop where
  fits : ∀ e ∈ entries, e.content.length ≤ e.field.width
  inside : ∀ e ∈ entries, e.field.offset + e.field.width ≤ size
  apart : entries.Pairwise fun e e' => e.field.Apart e'.field

theorem length_writeEntries (record : List α) (entries : List (Entry α))
    (h : ∀ e ∈ entries, e.window.Inside record) :
    (writeEntries record entries).length = record.length := by
  induction entries generalizing record with
  | nil => rfl
  | cons e entries ih =>
      have he := h e List.mem_cons_self
      have hlength := Field.length_write e.window record e.content he rfl
      rw [writeEntries, List.foldl_cons]
      refine (ih _ fun e' he' => ?_).trans hlength
      exact (h e' (List.mem_cons_of_mem _ he')).write he rfl

/-- A position that no entry writes keeps what it holds. -/
theorem getElem?_writeEntries (record : List α) (entries : List (Entry α))
    (h : ∀ e ∈ entries, e.window.Inside record) (i : Nat)
    (hout : ∀ e ∈ entries, ¬ e.window.Covers i) :
    (writeEntries record entries)[i]? = record[i]? := by
  induction entries generalizing record with
  | nil => rfl
  | cons e entries ih =>
      have he := h e List.mem_cons_self
      rw [writeEntries, List.foldl_cons]
      refine (ih _ (fun e' he' => (h e' (List.mem_cons_of_mem _ he')).write he rfl)
        fun e' he' => hout e' (List.mem_cons_of_mem _ he')).trans ?_
      rw [Field.getElem?_write _ _ _ he rfl, if_neg (hout e List.mem_cons_self)]

/-- The fields are looked at once for all contents. -/
theorem Fitting.of_fields {size : Nat} {entries : List (Entry α)} (fields : List Field)
    (hfields : entries.map Entry.field = fields)
    (hinside : ∀ f ∈ fields, f.offset + f.width ≤ size) (hapart : fields.Pairwise Field.Apart)
    (hfits : ∀ e ∈ entries, e.content.length ≤ e.field.width) : Fitting size entries := by
  subst hfields
  exact ⟨hfits, fun e he => hinside _ (List.mem_map_of_mem he), List.pairwise_map.mp hapart⟩

/-- Fewer entries fit as well. -/
theorem Fitting.sublist {size : Nat} {some all : List (Entry α)} (hsub : some.Sublist all)
    (h : Fitting size all) : Fitting size some :=
  ⟨fun e he => h.fits e (hsub.subset he), fun e he => h.inside e (hsub.subset he),
    h.apart.sublist hsub⟩

namespace Fitting

variable {size : Nat} {entries : List (Entry α)} (h : Fitting size entries)

include h

theorem window_inside (record : List α) (hsize : record.length = size) :
    ∀ e ∈ entries, e.window.Inside record := by
  intro e he
  have hfits := h.fits e he
  have hinside := h.inside e he
  unfold Field.Inside Entry.window
  simp only
  omega

theorem length_fill (zero : α) : (fill size zero entries).length = size := by
  have hsize : (List.replicate size zero).length = size := List.length_replicate
  rw [fill, length_writeEntries _ _ (h.window_inside _ hsize), hsize]

/-- What stands at a position of a field after all entries are written. -/
theorem getElem?_writeEntries_mem (record : List α) (hsize : record.length = size) (e : Entry α)
    (he : e ∈ entries) (k : Nat) (hk : k < e.field.width) :
    (writeEntries record entries)[e.field.offset + k]? =
      if k < e.content.length then e.content[k]? else record[e.field.offset + k]? := by
  induction entries generalizing record with
  | nil => exact absurd he List.not_mem_nil
  | cons first entries ih =>
      have hrest : Fitting size entries :=
        ⟨fun e' he' => h.fits e' (List.mem_cons_of_mem _ he'),
          fun e' he' => h.inside e' (List.mem_cons_of_mem _ he'), (List.pairwise_cons.mp h.apart).2⟩
      have hin := h.window_inside record hsize first List.mem_cons_self
      have hsize' := (Field.length_write first.window record first.content hin rfl).trans hsize
      have happart := (List.pairwise_cons.mp h.apart).1
      have hwidth := h.fits first List.mem_cons_self
      rw [writeEntries, List.foldl_cons]
      rcases List.mem_cons.mp he with rfl | he'
      · -- The later entries do not reach into this field.
        refine (getElem?_writeEntries _ entries (hrest.window_inside _ hsize') _
          fun e' he' hc => ?_).trans ?_
        · have hfits := hrest.fits e' he'
          have hap := happart e' he'
          unfold Field.Apart at hap
          unfold Field.Covers Entry.window at hc
          simp only at hc
          omega
        · rw [Field.getElem?_write _ _ _ hin rfl]
          by_cases hlt : k < e.content.length
          · rw [if_pos ⟨Nat.le_add_right _ _, Nat.add_lt_add_left hlt _⟩, if_pos hlt]
            unfold Entry.window
            rw [Nat.add_sub_cancel_left]
          · rw [if_neg (fun hc => hlt (Nat.lt_of_add_lt_add_left hc.2)), if_neg hlt]
      · refine (ih hrest _ hsize' he').trans ?_
        by_cases hlt : k < e.content.length
        · rw [if_pos hlt, if_pos hlt]
        · -- The first entry does not reach there either.
          have hap := happart e he'
          have hout : ¬ first.window.Covers (e.field.offset + k) := fun hc => by
            unfold Field.Apart at hap
            unfold Field.Covers Entry.window at hc
            simp only at hc
            omega
          rw [if_neg hlt, if_neg hlt, Field.getElem?_write _ _ _ hin rfl, if_neg hout]

/-- A field holds its content, and zeros behind it. -/
theorem read_fill (zero : α) (e : Entry α) (he : e ∈ entries) :
    e.field.read (fill size zero entries) =
      e.content ++ List.replicate (e.field.width - e.content.length) zero := by
  have hfits := h.fits e he
  have hinside := h.inside e he
  refine Field.read_ext _ _ _ ?_ ?_ fun k hk => ?_
  · unfold Field.Inside
    rw [h.length_fill zero]
    exact hinside
  · rw [List.length_append, List.length_replicate]
    omega
  · rw [fill, h.getElem?_writeEntries_mem _ List.length_replicate e he k hk]
    split
    · next hlt => rw [List.getElem?_append_left hlt]
    · next hge =>
      rw [List.getElem?_append_right (Nat.le_of_not_lt hge), List.getElem?_replicate,
        List.getElem?_replicate, if_pos (by omega), if_pos (by omega)]

end Fitting

end Zd1200
