import Mathlib.Data.List.Basic

/-!
# Deleting Matches

A text with every match of a pattern taken out, from left to right.

The pattern is a function that says how long a match at the front of a text is,
so what follows holds for whatever can be matched. Two rules carry a deletion
over a text that is known in parts: a part in which no match begins is copied,
and a match is dropped. A text can also be cut at a separator: if no match
reaches over it, both sides are done apart, and that is how a program that works
line by line does what one that works on the whole text would do.

## Main definitions

* `deleteMatches`: A text without the matches.
* `KeepsInside`: No match reaches over a separator.

## Theorems

* `deleteMatches_copy`: A part in which no match begins stays.
* `deleteMatches_match`: A match is dropped.
* `deleteMatches_separated`: Both sides of a separator are done apart.
* `deleteMatches_lines`: Lines are done one by one.
-/

namespace Zd1200

variable {α : Type}

/-- A text without the matches. The first `skip` elements belong to a match that
    was found before. -/
def deleteMatches (matchLength : List α → Option Nat) : Nat → List α → List α
  | _, [] => []
  | skip + 1, _ :: rest => deleteMatches matchLength skip rest
  | 0, c :: rest =>
      match matchLength (c :: rest) with
      | some n => deleteMatches matchLength (n - 1) rest
      | none => c :: deleteMatches matchLength 0 rest

variable (matchLength : List α → Option Nat)

/-- The rest of a match is dropped. -/
theorem deleteMatches_skip (xs ys : List α) :
    deleteMatches matchLength xs.length (xs ++ ys) = deleteMatches matchLength 0 ys := by
  induction xs with
  | nil => rfl
  | cons x xs ih => rw [List.length_cons, List.cons_append, deleteMatches, ih]

/-- A match is dropped. -/
theorem deleteMatches_match (xs ys : List α) (hne : xs ≠ [])
    (h : matchLength (xs ++ ys) = some xs.length) :
    deleteMatches matchLength 0 (xs ++ ys) = deleteMatches matchLength 0 ys := by
  cases xs with
  | nil => exact absurd rfl hne
  | cons x xs =>
      rw [List.cons_append] at h ⊢
      rw [deleteMatches, h]
      simp only [List.length_cons, Nat.add_sub_cancel]
      exact deleteMatches_skip matchLength xs ys

/-- A part in which no match begins stays. -/
theorem deleteMatches_copy (xs ys : List α)
    (h : ∀ i < xs.length, matchLength (xs.drop i ++ ys) = none) :
    deleteMatches matchLength 0 (xs ++ ys) = xs ++ deleteMatches matchLength 0 ys := by
  induction xs with
  | nil => rfl
  | cons x xs ih =>
      have hfirst : matchLength (x :: (xs ++ ys)) = none := h 0 (Nat.zero_lt_succ _)
      rw [List.cons_append, deleteMatches, hfirst]
      simp only
      rw [ih fun i hi => h (i + 1) (Nat.succ_lt_succ hi), List.cons_append]

theorem deleteMatches_sublist (skip : Nat) (xs : List α) :
    (deleteMatches matchLength skip xs).Sublist xs := by
  induction xs generalizing skip with
  | nil => rw [deleteMatches]
  | cons x xs ih =>
      cases skip with
      | succ skip =>
          rw [deleteMatches]
          exact (ih skip).cons x
      | zero =>
          rw [deleteMatches]
          split
          · exact (ih _).cons x
          · exact (ih 0).cons_cons x

/-- No match reaches over a separator. -/
def KeepsInside (separator : α) : Prop :=
  ∀ xs, separator ∉ xs → (∀ ys, matchLength (xs ++ separator :: ys) = matchLength xs) ∧
    ∀ n, matchLength xs = some n → n ≤ xs.length ∧ 0 < n

variable {matchLength}

/-- Both sides of a separator are done apart. -/
theorem deleteMatches_separated {separator : α} (hkeeps : KeepsInside matchLength separator)
    (xs ys : List α) (hsep : separator ∉ xs) (skip : Nat) (hskip : skip ≤ xs.length) :
    deleteMatches matchLength skip (xs ++ separator :: ys) =
      deleteMatches matchLength skip xs ++ separator :: deleteMatches matchLength 0 ys := by
  induction xs generalizing skip with
  | nil =>
      -- A match at the separator would be one of nothing.
      rcases hkeeps [] List.not_mem_nil with ⟨hsame, hlength⟩
      have hnone : matchLength (separator :: ys) = none := by
        refine (hsame ys).trans (Option.eq_none_iff_forall_ne_some.mpr fun n hn => ?_)
        have hn' := hlength n hn
        rw [List.length_nil] at hn'
        omega
      have hempty : deleteMatches matchLength 0 [] = [] := rfl
      rw [Nat.le_zero.mp hskip, List.nil_append, hempty, List.nil_append, deleteMatches, hnone]
  | cons x xs ih =>
      have hsep' : separator ∉ xs := fun h => hsep (List.mem_cons_of_mem _ h)
      cases skip with
      | succ skip =>
          rw [List.cons_append, deleteMatches, deleteMatches]
          exact ih hsep' skip (Nat.le_of_succ_le_succ hskip)
      | zero =>
          rcases hkeeps (x :: xs) hsep with ⟨hsame, hlength⟩
          have hsame' := hsame ys
          rw [List.cons_append] at hsame'
          rw [List.cons_append, deleteMatches, deleteMatches, hsame']
          cases hmatch : matchLength (x :: xs) with
          | none =>
              simp only
              rw [ih hsep' 0 (Nat.zero_le _), List.cons_append]
          | some n =>
              have hn := (hlength n hmatch).1
              rw [List.length_cons] at hn
              exact ih hsep' (n - 1) (by omega)

/-- Lines are done one by one. -/
theorem deleteMatches_lines {separator : α} (hkeeps : KeepsInside matchLength separator)
    (lines : List (List α)) (hlines : ∀ line ∈ lines, separator ∉ line) :
    deleteMatches matchLength 0 ([separator].intercalate lines) =
      [separator].intercalate (lines.map (deleteMatches matchLength 0)) := by
  induction lines with
  | nil => rfl
  | cons line lines ih =>
      have hline := hlines line List.mem_cons_self
      have hrest := ih fun l hl => hlines l (List.mem_cons_of_mem _ hl)
      cases lines with
      | nil => simp only [List.intercalate_singleton, List.map_cons, List.map_nil]
      | cons next lines =>
          rw [List.map_cons, List.map_cons] at *
          rw [List.intercalate_cons_cons, List.intercalate_cons_cons, List.append_assoc,
            List.singleton_append, deleteMatches_separated hkeeps line _ hline 0 (Nat.zero_le _),
            hrest, List.append_assoc, List.singleton_append]

end Zd1200
