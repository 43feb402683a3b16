import Zd1200.Lib.Slice

/-!
# Searches in Delimited Text

Substring searches in a text that is cut into segments by a delimiter.

A needle that ends in the delimiter, and has it nowhere else, can only occur
where a segment ends: an occurrence is the end of a segment with the delimiter
behind it. So a search walks over the segments, and `findIn_delimited` is one
step of that walk. It either stops in the segment, or goes on behind the
delimiter as if the text began there.

The searches here start at the front. `findFrom_append` moves any other search
there, by cutting off what lies before its start.

## Theorems

* `exists_first`: A list cut at the first element of some kind.
* `mem_splitOn`, `mem_intercalate`: What the segments of a text hold.
* `delimited_injective`, `delimited_last_injective`: The first and the last
  delimiter of a text.
* `findIn_delimited`: A search steps over one segment.
* `findIn_behind`: A search steps over text in which it cannot begin.
* `findFrom_append`: A search starts at the front of what it looks at.
* `not_occurs_before`: No needle ends in front of a stop.
-/

namespace Zd1200

variable {α : Type}

/-- A list up to the first element of which something is known. -/
theorem exists_first {β : Type} (f : α → Option β) (xs : List α) :
    (∀ x ∈ xs, f x = none) ∨
      ∃ front x back y, xs = front ++ x :: back ∧ (∀ z ∈ front, f z = none) ∧ f x = some y := by
  induction xs with
  | nil => exact Or.inl fun x hx => absurd hx List.not_mem_nil
  | cons x xs ih =>
      cases hx : f x with
      | some y =>
          exact Or.inr ⟨[], x, xs, y, rfl, fun z hz => absurd hz List.not_mem_nil, hx⟩
      | none =>
          rcases ih with hnone | ⟨front, z, back, y, heq, hfront, hz⟩
          · exact Or.inl (List.forall_mem_cons.mpr ⟨hx, hnone⟩)
          · exact Or.inr ⟨x :: front, z, back, y, by rw [heq, List.cons_append],
              List.forall_mem_cons.mpr ⟨hx, hfront⟩, hz⟩

/-- A text that is put together has the characters of its segments, and
    separators. -/
theorem mem_intercalate {sep c : α} {lines : List (List α)} (h : c ∈ [sep].intercalate lines) :
    c = sep ∨ ∃ line ∈ lines, c ∈ line := by
  rw [List.intercalate, List.mem_flatten] at h
  rcases h with ⟨piece, hpiece, hc⟩
  induction lines with
  | nil => exact absurd hpiece List.not_mem_nil
  | cons line rest ih =>
      cases rest with
      | nil =>
          rw [List.intersperse_singleton, List.mem_singleton] at hpiece
          exact Or.inr ⟨line, List.mem_cons_self, hpiece ▸ hc⟩
      | cons next others =>
          rw [List.intersperse_cons_cons] at hpiece
          rcases List.mem_cons.mp hpiece with rfl | hpiece
          · exact Or.inr ⟨piece, List.mem_cons_self, hc⟩
          · rcases List.mem_cons.mp hpiece with rfl | hpiece
            · exact Or.inl (List.mem_singleton.mp hc)
            · rcases ih hpiece with hsep | ⟨other, hother, hmem⟩
              · exact Or.inl hsep
              · exact Or.inr ⟨other, List.mem_cons_of_mem line hother, hmem⟩

/-- The segments of a text have its characters, separators apart. -/
theorem mem_splitOn [BEq α] [LawfulBEq α] {sep : α} {text line : List α}
    (hline : line ∈ text.splitOn sep) {c : α} (hc : c ∈ line) : c ∈ text ∧ c ≠ sep := by
  induction text generalizing line with
  | nil =>
      rw [List.splitOn_nil, List.mem_singleton] at hline
      exact absurd (hline ▸ hc) List.not_mem_nil
  | cons d rest ih =>
      rw [List.splitOn_cons_eq_if_modifyHead] at hline
      by_cases hd : (d == sep) = true
      · rw [if_pos hd] at hline
        rcases List.mem_cons.mp hline with rfl | hline
        · exact absurd hc List.not_mem_nil
        · exact ⟨List.mem_cons_of_mem d (ih hline hc).1, (ih hline hc).2⟩
      · rw [if_neg hd] at hline
        rcases List.exists_cons_of_ne_nil (List.splitOn_ne_nil sep rest) with ⟨first, others, hrest⟩
        rw [hrest, List.modifyHead_cons] at hline
        rcases List.mem_cons.mp hline with rfl | hline
        · -- The first line begins with the character in front of the rest.
          rcases List.mem_cons.mp hc with rfl | hc
          · exact ⟨List.mem_cons_self, fun h => hd (beq_iff_eq.mpr h)⟩
          · have hfirst := ih (hrest ▸ List.mem_cons_self) hc
            exact ⟨List.mem_cons_of_mem d hfirst.1, hfirst.2⟩
        · have hother := ih (hrest ▸ List.mem_cons_of_mem first hline) hc
          exact ⟨List.mem_cons_of_mem d hother.1, hother.2⟩

/-- A needle that ends in the delimiter stands at the front exactly if it is
    the whole segment. -/
theorem prefix_delimited_iff (p s rest : List α) (d : α) (hp : d ∉ p) (hs : d ∉ s) :
    p ++ [d] <+: s ++ d :: rest ↔ p = s := by
  constructor
  · intro h
    induction p generalizing s with
    | nil =>
        cases s with
        | nil => rfl
        | cons c s =>
            rw [List.nil_append, List.cons_append, List.cons_prefix_cons] at h
            exact absurd (h.1 ▸ List.mem_cons_self) hs
    | cons b p ih =>
        cases s with
        | nil =>
            rw [List.cons_append, List.nil_append, List.cons_prefix_cons] at h
            exact absurd (h.1 ▸ List.mem_cons_self) hp
        | cons c s =>
            rw [List.cons_append, List.cons_append, List.cons_prefix_cons] at h
            rw [h.1, ih s (fun hd => hp (List.mem_cons_of_mem _ hd))
              (fun hd => hs (List.mem_cons_of_mem _ hd)) h.2]
  · rintro rfl
    exact ⟨rest, by rw [List.append_assoc, List.singleton_append]⟩

/-- A text up to a delimiter, and what is behind it. -/
theorem delimited_injective (s s' rest rest' : List α) (d : α) (hs : d ∉ s) (hs' : d ∉ s')
    (h : s ++ d :: rest = s' ++ d :: rest') : s = s' ∧ rest = rest' := by
  have hpre : s ++ [d] <+: s' ++ d :: rest' := ⟨rest, by rw [← h, List.append_assoc,
    List.singleton_append]⟩
  have heq := (prefix_delimited_iff s s' rest' d hs hs').mp hpre
  rw [heq] at h
  exact ⟨heq, (List.cons.inj (List.append_cancel_left h)).2⟩

/-- A text behind its last delimiter, and what is in front of it. -/
theorem delimited_last_injective (front front' s s' : List α) (d : α) (hs : d ∉ s) (hs' : d ∉ s')
    (h : front ++ d :: s = front' ++ d :: s') : front = front' ∧ s = s' := by
  have hrev := congrArg List.reverse h
  rw [List.reverse_append, List.reverse_append, List.reverse_cons, List.reverse_cons,
    List.append_assoc, List.append_assoc, List.singleton_append, List.singleton_append] at hrev
  rcases delimited_injective _ _ _ _ d (fun hd => hs (List.mem_reverse.mp hd))
    (fun hd => hs' (List.mem_reverse.mp hd)) hrev with ⟨hback, hfront⟩
  exact ⟨List.reverse_injective hfront, List.reverse_injective hback⟩

/-- A needle that ends in `d` and has no `e` does not start in front of the
    first `e` if there is no `d` either. -/
theorem not_occurs_before (p s rest : List α) (d e : α) (hp : e ∉ p ++ [d]) (hs : d ∉ s) (i : Nat)
    (hi : i < s.length) : ¬ Occurs (s ++ e :: rest) (p ++ [d]) i := by
  intro hocc
  unfold Occurs at hocc
  rw [List.drop_append_of_le_length (Nat.le_of_lt hi)] at hocc
  rcases Nat.lt_or_ge (s.drop i).length (p ++ [d]).length with hlong | hshort
  · -- The needle would reach over the `e`.
    refine hp (List.mem_of_getElem? (i := (s.drop i).length) ?_)
    rw [List.getElem?_eq_getElem hlong, ← List.prefix_iff_getElem?.mp hocc _ hlong, List.getElem?_append_right (Nat.le_refl _), Nat.sub_self,
      List.getElem?_cons_zero]
  · have hin := List.prefix_of_prefix_length_le hocc (List.prefix_append _ _) hshort
    exact hs (List.mem_of_mem_drop (hin.subset
      (List.mem_append_right _ List.mem_cons_self)))

variable [DecidableEq α]

/-- A search for a needle that ends in the delimiter, over one segment: it
    stops where the segment ends in the needle, or goes on behind it. -/
theorem findIn_delimited (p s rest : List α) (d : α) (hp : d ∉ p) (hs : d ∉ s) :
    findIn (p ++ [d]) (s ++ d :: rest) =
      if p <:+ s then some (s.length - p.length)
      else (findIn (p ++ [d]) rest).map (s.length + 1 + ·) := by
  induction s with
  | nil =>
      rw [List.nil_append, findIn]
      by_cases hnil : p = []
      · have hhead : ([] ++ [d]).isPrefixOf (d :: rest) = true :=
          List.isPrefixOf_iff_prefix.mpr ⟨rest, rfl⟩
        rw [hnil, if_pos hhead, if_pos List.nil_suffix, List.length_nil]
      · have hhead : ¬ (p ++ [d]).isPrefixOf (d :: rest) = true := fun h =>
          hnil ((prefix_delimited_iff p [] rest d hp hs).mp (List.isPrefixOf_iff_prefix.mp h))
        rw [if_neg hhead, if_neg (fun h => hnil (List.suffix_nil.mp h))]
        congr 1
        funext i
        rw [List.length_nil]
        omega
  | cons c s ih =>
      have hs' : d ∉ s := fun h => hs (List.mem_cons_of_mem _ h)
      rw [List.cons_append, findIn]
      by_cases hwhole : p = c :: s
      · -- The needle is this whole segment.
        have hhead : (p ++ [d]).isPrefixOf (c :: (s ++ d :: rest)) = true :=
          List.isPrefixOf_iff_prefix.mpr
            ((prefix_delimited_iff p (c :: s) rest d hp hs).mpr hwhole)
        rw [if_pos hhead, if_pos (hwhole ▸ List.suffix_rfl), hwhole, Nat.sub_self]
      · have hhead : ¬ (p ++ [d]).isPrefixOf (c :: (s ++ d :: rest)) = true := fun h =>
          hwhole ((prefix_delimited_iff p (c :: s) rest d hp hs).mp
            (List.isPrefixOf_iff_prefix.mp h))
        have hsuffix : p <:+ c :: s ↔ p <:+ s := by
          rw [List.suffix_cons_iff]
          exact or_iff_right hwhole
        rw [if_neg hhead, ih hs']
        simp only [hsuffix, List.length_cons]
        by_cases hin : p <:+ s
        · have hle := hin.length_le
          rw [if_pos hin, if_pos hin, Option.map_some]
          congr 1
          omega
        · rw [if_neg hin, if_neg hin, Option.map_map]
          congr 1
          funext i
          simp only [Function.comp_apply]
          omega

/-- A search steps over text without the needle's first element. -/
theorem findIn_behind (c : α) (p s rest : List α) (hs : c ∉ s) :
    findIn (c :: p) (s ++ rest) = (findIn (c :: p) rest).map (s.length + ·) := by
  induction s with
  | nil =>
      simp only [List.nil_append, List.length_nil, Nat.zero_add]
      exact Option.map_id'.symm ▸ rfl
  | cons b s ih =>
      have hhead : ¬ (c :: p).isPrefixOf (b :: (s ++ rest)) = true := by
        rw [List.isPrefixOf_iff_prefix, List.cons_prefix_cons]
        exact fun h => hs (h.1 ▸ List.mem_cons_self)
      rw [List.cons_append, findIn, if_neg hhead, ih fun h => hs (List.mem_cons_of_mem _ h),
        Option.map_map]
      congr 1
      funext i
      simp only [Function.comp_apply, List.length_cons]
      omega

/-- A search for a delimiter finds the end of the first segment. -/
theorem findIn_segment (s rest : List α) (d : α) (hs : d ∉ s) :
    findIn [d] (s ++ d :: rest) = some s.length := by
  have h := findIn_delimited [] s rest d List.not_mem_nil hs
  rwa [List.nil_append, if_pos List.nil_suffix, List.length_nil, Nat.sub_zero] at h

/-- A search that starts behind a part of the text does not see that part. -/
theorem findFrom_append (front xs needle : List α) (i : Nat) :
    findFrom (front ++ xs) needle (front.length + i) =
      (findFrom xs needle i).map (front.length + ·) := by
  rw [findFrom, findFrom, ← List.drop_drop, List.drop_left, Option.map_map]
  congr 1
  funext j
  simp only [Function.comp_apply]
  omega

theorem findFrom_zero (xs needle : List α) : findFrom xs needle 0 = findIn needle xs := by
  rw [findFrom, List.drop_zero]
  simp only [Nat.zero_add]
  exact Option.map_id' ▸ rfl

end Zd1200
