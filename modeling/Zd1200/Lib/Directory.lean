import Mathlib.Data.List.AList

/-!
# Directories

A directory of files that are found by name is an association list. What is
found after a file has been written or deleted was written just now or was
there before.

## Theorems

* `of_lookup_insert`: What is found after a write.
* `of_lookup_erase`, `lookup_erase_ite`: What is found after a deletion.
-/

namespace Zd1200

variable {α β : Type} [DecidableEq α]

/-- What is found after a write is the file that was written or another one. -/
theorem of_lookup_insert (files : AList fun _ : α => β) (written name : α) (value found : β)
    (h : (files.insert written value).lookup name = some found) :
    (name = written ∧ value = found) ∨ (name ≠ written ∧ files.lookup name = some found) := by
  by_cases heq : name = written
  · rw [heq, AList.lookup_insert, Option.some.injEq] at h
    exact .inl ⟨heq, h⟩
  · rw [AList.lookup_insert_ne heq] at h
    exact .inr ⟨heq, h⟩

theorem lookup_erase_ite (files : AList fun _ : α => β) (erased name : α) :
    (files.erase erased).lookup name = if name = erased then none else files.lookup name := by
  by_cases heq : name = erased
  · rw [if_pos heq, heq, AList.lookup_erase]
  · rw [if_neg heq, AList.lookup_erase_ne heq]

/-- What is found after a deletion is another file. -/
theorem of_lookup_erase (files : AList fun _ : α => β) (erased name : α) (found : β)
    (h : (files.erase erased).lookup name = some found) :
    name ≠ erased ∧ files.lookup name = some found := by
  rw [lookup_erase_ite] at h
  split at h
  · exact absurd h (by simp only [reduceCtorEq, not_false_eq_true])
  · next hne => exact ⟨hne, h⟩

end Zd1200
