import Mathlib.Data.List.Forall2
import Mathlib.Data.List.Sort
import Zd1200.Lib.Search

/-!
# Two Runs Side by Side

Rules for comparing two runs of one program on inputs that correspond.

The inputs of the two runs are related item by item, and so are their states.
Each rule is about one way in which a program goes through its input: it takes
the items out that match, goes on until one of them fails, or sorts them. If
the single steps keep the relation, so does the whole. Mathlib has the rules
for maps, filters and folds that cannot fail.

Names that a program compares for equality may be changed from one run to the
other as long as no two of them are confused, which is `OneToOne`. A relation
of that kind keeps every outcome of a comparison.

## Main definitions

* `OneToOne`: A change of names that confuses none.
* `SortFn.Generic`: A sort that looks at its order only.

## Theorems

* `rel_bind`, `rel_foldlM`: What may fail fails in both runs or in neither.
* `map_eq_of_forall₂`, `filter_eq_of_forall₂`: What corresponding items agree
  in.
* `forall₂_insertionSort`: Insertion sort looks at its order only.
-/

namespace Zd1200

section Paired

variable {α β γ δ σ τ : Type}

/-- A change of names that confuses none. -/
def OneToOne (R : α → α → Prop) : Prop :=
  ∀ a a' b b', R a a' → R b b' → (a = b ↔ a' = b')

theorem rel_imp {P Q : α → β → Prop} (himp : ∀ a b, P a b → Q a b) {x : Option α} {y : Option β}
    (h : Option.Rel P x y) : Option.Rel Q x y := by
  cases h with
  | some hab => exact .some (himp _ _ hab)
  | none => exact .none

theorem rel_bind {P : α → β → Prop} {Q : γ → δ → Prop} {x : Option α} {y : Option β}
    {f : α → Option γ} {g : β → Option δ} (hxy : Option.Rel P x y)
    (hfg : ∀ a b, P a b → Option.Rel Q (f a) (g b)) : Option.Rel Q (x.bind f) (y.bind g) := by
  cases hxy with
  | some hab => exact hfg _ _ hab
  | none => exact .none

theorem rel_foldlM {R : α → β → Prop} {P : σ → τ → Prop} {f : σ → α → Option σ}
    {g : τ → β → Option τ} (hstep : ∀ s t a b, P s t → R a b → Option.Rel P (f s a) (g t b))
    {xs : List α} {ys : List β} (h : List.Forall₂ R xs ys) {s : σ} {t : τ} (hst : P s t) :
    Option.Rel P (xs.foldlM f s) (ys.foldlM g t) := by
  induction h generalizing s t with
  | nil => exact .some hst
  | cons hab _ ih =>
      rw [List.foldlM_cons, List.foldlM_cons]
      exact rel_bind (hstep _ _ _ _ hst hab) fun _ _ => ih

theorem forall₂_and {R S : α → β → Prop} {xs : List α} {ys : List β}
    (h : List.Forall₂ R xs ys) (h' : List.Forall₂ S xs ys) :
    List.Forall₂ (fun a b => R a b ∧ S a b) xs ys := by
  induction h with
  | nil => exact .nil
  | cons hab _ ih =>
      cases h' with
      | cons hab' hrest => exact .cons ⟨hab, hab'⟩ (ih hrest)

/-- What corresponding items agree in. -/
theorem map_eq_of_forall₂ {R : α → β → Prop} {f : α → γ} {g : β → γ}
    (hfg : ∀ a b, R a b → f a = g b) {xs : List α} {ys : List β} (h : List.Forall₂ R xs ys) :
    xs.map f = ys.map g := by
  have hmap : List.Forall₂ Eq (xs.map f) (ys.map g) := List.rel_map hfg h
  rwa [List.forall₂_eq_eq_eq] at hmap

theorem filterMap_eq_of_forall₂ {R : α → β → Prop} {f : α → Option γ} {g : β → Option γ}
    (hfg : ∀ a b, R a b → f a = g b) {xs : List α} {ys : List β} (h : List.Forall₂ R xs ys) :
    xs.filterMap f = ys.filterMap g := by
  induction h with
  | nil => rfl
  | cons hab _ ih => rw [List.filterMap_cons, List.filterMap_cons, hfg _ _ hab, ih]

theorem exists_iff_of_forall₂ {R : α → β → Prop} {p : α → Prop} {q : β → Prop}
    (hpq : ∀ a b, R a b → (p a ↔ q b)) {xs : List α} {ys : List β} (h : List.Forall₂ R xs ys) :
    (∃ a ∈ xs, p a) ↔ ∃ b ∈ ys, q b := by
  induction h with
  | nil => simp only [List.not_mem_nil, false_and, exists_false]
  | cons hab _ ih => simp only [List.exists_mem_cons_iff, hpq _ _ hab, ih]

-- Items that are kept and do not differ.
theorem filter_eq_of_forall₂ {R : α → α → Prop} {p : α → Bool}
    (hp : ∀ a b, R a b → p a = p b ∧ (p a = true → a = b)) {xs ys : List α}
    (h : List.Forall₂ R xs ys) : xs.filter p = ys.filter p := by
  induction h with
  | nil => rfl
  | @cons a b xs ys hab _ ih =>
      rcases hp a b hab with ⟨hsame, heq⟩
      rw [List.filter_cons, List.filter_cons, ← hsame, ih]
      by_cases ha : p a = true
      · rw [if_pos ha, if_pos ha, heq ha]
      · rw [if_neg ha, if_neg ha]

/-! ### Sorting -/

section Sorting

variable {le : α → α → Prop}

/-- A sort that looks at its order only: if two inputs give the same answers
    to every comparison, it arranges them the same way. -/
def SortFn.Generic (sort : SortFn α le) : Prop :=
  ∀ S : α → α → Prop, (∀ a a' b b', S a a' → S b b' → (le a b ↔ le a' b')) →
    ∀ xs ys, List.Forall₂ S xs ys → List.Forall₂ S (sort.run xs) (sort.run ys)

variable [DecidableRel le] {le' : β → β → Prop} [DecidableRel le'] {S : α → β → Prop}

theorem forall₂_orderedInsert (hle : ∀ a a' b b', S a a' → S b b' → (le a b ↔ le' a' b')) {a : α}
    {a' : β} (ha : S a a') {xs : List α} {ys : List β} (h : List.Forall₂ S xs ys) :
    List.Forall₂ S (xs.orderedInsert le a) (ys.orderedInsert le' a') := by
  induction h with
  | nil => exact .cons ha .nil
  | @cons b b' xs ys hb hrest ih =>
      rw [List.orderedInsert_cons, List.orderedInsert_cons]
      by_cases hab : le a b
      · rw [if_pos hab, if_pos ((hle a a' b b' ha hb).mp hab)]
        exact .cons ha (.cons hb hrest)
      · rw [if_neg hab, if_neg fun hab' => hab ((hle a a' b b' ha hb).mpr hab')]
        exact .cons hb ih

/-- Insertion sort looks at its order only. -/
theorem forall₂_insertionSort (hle : ∀ a a' b b', S a a' → S b b' → (le a b ↔ le' a' b'))
    {xs : List α} {ys : List β} (h : List.Forall₂ S xs ys) :
    List.Forall₂ S (xs.insertionSort le) (ys.insertionSort le') := by
  induction h with
  | nil => exact .nil
  | cons hab _ ih => exact forall₂_orderedInsert hle hab ih

theorem insertionSortFn_generic [Std.Total le] [IsTrans α le] :
    (insertionSortFn le).Generic := fun _ hS _ _ h => forall₂_insertionSort hS h

end Sorting

end Paired

end Zd1200
