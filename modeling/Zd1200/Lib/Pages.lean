import Mathlib.Data.List.Infix
import Mathlib.Data.List.TakeWhile

/-!
# Pages of a Growing Sequence

A sequence that grows at its front is read page by page, each page by its
offset from the front.

Whatever is added in the meantime moves everything else away from the front,
so a page may repeat what has been read already, or show something that was
not there when the reading began. It does not skip anything: what has been
read is always one stretch, with what is still to come behind it, and in front
of it only what has been added.

## Main definitions

* `page`: A page at an offset.

## Theorems

* `page_split`: What has been read after another page.
-/

namespace Zd1200

section Pages

variable {α : Type}

/-- At most `n` elements from an offset on. -/
def page (start n : Nat) (xs : List α) : List α := (xs.drop start).take n

/-- After the front and the stretch that has been read, the rest is to be read.
    A page that starts in front of the rest makes the stretch longer, or starts
    it anew, further in front. -/
theorem page_split (front read rest : List α) (start n : Nat)
    (hstart : start ≤ (front ++ read).length) :
    ∃ front' read' rest', front ++ read ++ rest = front' ++ read' ++ rest' ∧
      front' <+: front ∧ read ++ rest <:+ read' ++ rest' ∧
      (∀ x ∈ read', x ∈ read ∨ x ∈ page start n (front ++ read ++ rest)) ∧
      (∀ x ∈ page start n (front ++ read ++ rest), x ∈ read') ∧
      rest' = (front ++ read ++ rest).drop (start + n) ∧
      (start + n ≤ (front' ++ read').length ∨
        rest' = [] ∧ (page start n (front ++ read ++ rest)).length < n) := by
  have hshort : ¬ start + n ≤ (front ++ read ++ rest).length →
      (front ++ read ++ rest).drop (start + n) = [] ∧
        (page start n (front ++ read ++ rest)).length < n := by
    intro hend
    refine ⟨List.drop_eq_nil_of_le (Nat.le_of_not_le hend), ?_⟩
    rw [List.length_append] at hend
    rw [page, List.length_take, List.length_drop, List.length_append]
    omega
  by_cases hfront : start < front.length
  · -- The page starts in what was added: only the page has been read behind it.
    have hdrop : (front ++ read ++ rest).drop start = front.drop start ++ read ++ rest := by
      rw [List.append_assoc, List.drop_append_of_le_length (Nat.le_of_lt hfront),
        List.append_assoc]
    have hsplit : front ++ read ++ rest =
        front.take start ++ (front.drop start ++ read ++ rest) := by
      rw [← List.append_assoc, ← List.append_assoc, List.take_append_drop]
    refine ⟨front.take start, page start n (front ++ read ++ rest),
      (front ++ read ++ rest).drop (start + n), ?_, List.take_prefix _ _, ?_,
      fun x hx => Or.inr hx, fun x hx => hx, rfl, ?_⟩
    · rw [page, ← List.drop_drop, List.append_assoc (front.take start), List.take_append_drop,
        hdrop]
      exact hsplit
    · rw [page, ← List.drop_drop, List.take_append_drop, hdrop, List.append_assoc]
      exact List.suffix_append _ _
    · by_cases hend : start + n ≤ (front ++ read ++ rest).length
      · left
        rw [List.length_append, page, List.length_take, List.length_take, List.length_drop]
        omega
      · exact Or.inr (hshort hend)
  · -- The page starts in what has been read, and goes on from there.
    have hle : front.length ≤ start := Nat.le_of_not_lt hfront
    have hlength : (front ++ read).length = front.length + read.length := List.length_append
    have hrest : (front ++ read ++ rest).drop (start + n) =
        (read ++ rest).drop (start + n - front.length) := by
      rw [List.append_assoc, List.drop_append, List.drop_eq_nil_of_le (by omega), List.nil_append]
    have hpage : page start n (front ++ read ++ rest) =
        ((read ++ rest).drop (start - front.length)).take n := by
      rw [page, List.append_assoc, List.drop_append, List.drop_eq_nil_of_le hle, List.nil_append]
    refine ⟨front, (read ++ rest).take (start + n - front.length),
      (front ++ read ++ rest).drop (start + n), ?_, List.prefix_rfl, ?_, fun x hx => ?_,
      fun x hx => ?_, rfl, ?_⟩
    · rw [hrest, List.append_assoc, List.append_assoc, List.take_append_drop]
    · rw [hrest, List.take_append_drop]
    · have hsum : start + n - front.length = (start - front.length) + n := by omega
      rw [hsum, List.take_add, List.mem_append] at hx
      rcases hx with hx | hx
      · left
        rw [List.take_append_of_le_length (by omega)] at hx
        exact List.mem_of_mem_take hx
      · right
        rw [hpage]
        exact hx
    · have hsum : start + n - front.length = (start - front.length) + n := by omega
      rw [hsum, List.take_add]
      rw [hpage] at hx
      exact List.mem_append_right _ hx
    · by_cases hend : start + n ≤ (front ++ read ++ rest).length
      · left
        rw [List.length_append, List.length_append] at hend
        rw [List.length_append, List.length_take, List.length_append]
        omega
      · exact Or.inr (hshort hend)

end Pages

end Zd1200
