import Mathlib.Data.List.AList
import Zd1200.Lib.Script

/-!
# Files Written in Place

What scripts do to the files of a directory with `>` and with `mv`.

A redirection empties its file when it opens it, and then the contents follow
one element after another. So a script that is stopped in the middle leaves a
front part of them, which may be nothing. A script that is stopped before it
leaves the old file. `run_redirect` says which of the two it is.

A file that is written under another name and then moved is found complete or
not at all.

## Main definitions

* `Files`: Files by name.
* `redirect`: `command > name`.
* `moveFile`: `mv -f`.

## Theorems

* `run_redirect`: What is there wherever the redirection is stopped.
* `Triple.redirect`, `Yields.redirect`: The rules.
* `ends_redirect_succ`: The rule where the file was opened.
-/

namespace Zd1200

/-- Files by name. -/
abbrev Files (ν α : Type) := AList fun _ : ν => List α

section Redirect

variable {ν α : Type} [DecidableEq ν]

def appendTo (name : ν) (x : α) (s : Files ν α) : Files ν α :=
  s.insert name ((s.lookup name).getD [] ++ [x])

/-- `command > name`, where the command writes `contents`. -/
def redirect (name : ν) (contents : List α) : Script (Files ν α) :=
  (Script.act fun s => s.insert name []).seq
    (Script.forEach contents fun x => Script.act (appendTo name x))

/-- `mv -f source target`. -/
def moveFile (source target : ν) (s : Files ν α) : Option (Files ν α) :=
  (s.lookup source).map fun contents => (s.insert target contents).erase source

theorem foldl_appendTo (name : ν) (xs done : List α) (s : Files ν α) :
    xs.foldl (fun s x => appendTo name x s) (s.insert name done) = s.insert name (done ++ xs) := by
  induction xs generalizing done with
  | nil => rw [List.foldl_nil, List.append_nil]
  | cons x xs ih =>
      rw [List.foldl_cons, appendTo, AList.lookup_insert, Option.getD_some, AList.insert_insert, ih,
        List.append_assoc, List.singleton_append]

/-- Stopped before it the file is as it was, and later it has as much of the
    contents as there were commands. -/
theorem run_redirect (name : ν) (contents : List α) (k : Nat) (s : Files ν α) :
    (redirect name contents).run k s =
      match k with
      | 0 => (s, none)
      | k + 1 =>
          (s.insert name (contents.take k),
            if contents.length ≤ k then some (k - contents.length) else none) := by
  cases k with
  | zero => rfl
  | succ k =>
      have h := run_forEach_act contents (appendTo name) k (s.insert name [])
      rw [foldl_appendTo, List.nil_append] at h
      exact h

/-- With enough commands the file is complete. -/
theorem run_redirect_of_le (name : ν) (contents : List α) (k : Nat) (s : Files ν α)
    (h : contents.length ≤ k) :
    (redirect name contents).run (k + 1) s = (s.insert name contents, some (k - contents.length)) := by
  rw [run_redirect]
  simp only [List.take_of_length_le h, if_pos h]

/-- Where the file was opened. -/
theorem ends_redirect_succ {Q C : Files ν α → Prop} (name : ν) (contents : List α) (s : Files ν α)
    (hpart : ∀ part, part <+: contents → C (s.insert name part)) (hdone : Q (s.insert name contents))
    (k : Nat) : Ends Q C ((redirect name contents).run (k + 1) s) := by
  rw [run_redirect]
  by_cases h : contents.length ≤ k
  · simp only [if_pos h, List.take_of_length_le h]
    exact hdone
  · simp only [if_neg h]
    exact hpart _ (List.take_prefix k contents)

theorem Triple.redirect {P Q C : Files ν α → Prop} (name : ν) (contents : List α)
    (hstop : ∀ s, P s → C s)
    (hpart : ∀ s, P s → ∀ part, part <+: contents → C (s.insert name part))
    (hdone : ∀ s, P s → Q (s.insert name contents)) :
    Triple P (redirect name contents) Q C := by
  intro s hs k
  cases k with
  | zero => exact hstop s hs
  | succ k => exact ends_redirect_succ name contents s (hpart s hs) (hdone s hs) k

theorem complete_redirect (name : ν) (contents : List α) (s : Files ν α) :
    (redirect name contents).complete s = some (s.insert name contents) := by
  have h := run_redirect_of_le name contents contents.length s (Nat.le_refl _)
  exact Script.complete_of_run _ _ _ s _ h

theorem Yields.redirect {P Q : Files ν α → Prop} (name : ν) (contents : List α)
    (h : ∀ s, P s → Q (s.insert name contents)) : Yields P (redirect name contents) Q :=
  fun s hs => ⟨_, complete_redirect name contents s, h s hs⟩

/-- A file is moved, and the others stay. -/
theorem lookup_moveFile (source target : ν) (hne : source ≠ target) (s s' : Files ν α)
    (h : moveFile source target s = some s') :
    s'.lookup target = s.lookup source ∧ s'.lookup source = none ∧
      ∀ name, name ≠ source → name ≠ target → s'.lookup name = s.lookup name := by
  rcases Option.map_eq_some_iff.mp h with ⟨contents, hsource, rfl⟩
  refine ⟨?_, AList.lookup_erase _ _, fun name hs ht => ?_⟩
  · rw [AList.lookup_erase_ne hne.symm, AList.lookup_insert, hsource]
  · rw [AList.lookup_erase_ne hs, AList.lookup_insert_ne ht]

end Redirect

end Zd1200
