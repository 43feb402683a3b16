import Mathlib.Data.List.Perm.Basic
import Mathlib.Data.List.Forall2
import Mathlib.Logic.Function.Basic

/-!
# Checked Sequences

Computations that stop at the first failed check, in `Except`.

A validator reads as a list of checks: parse this, raise if that, then go on.
Written with `raiseIf` and binds, such a function is a chain of `bind`s with
no control flow of its own, so one lemma peels it apart. `bind_ok_iff` is that
lemma, and `raiseIf_ok_iff` says what a check that did not raise has told us.

A validator that runs over a list of items is `List.mapM` or `List.forM`.
`mapM_ok_iff` turns a completed run into a pointwise relation between the
items and the results, which is the form in which an order of the items can
be exchanged for another: `mapM_ok_perm` says that a permutation of the items
succeeds as well, with the results permuted the same way. The first error is
of course a different one; only success is independent of the order.

## Main definitions

* `raiseIf`: Fail with an error if a condition holds.

## Theorems

* `raiseIf_ok_iff`: A check passes exactly when its condition is false.
* `bind_ok_iff`: A sequence succeeds exactly when both halves do.
* `bind_error_iff`: A sequence fails in one of its halves.
* `mapM_ok_iff`: A mapped run succeeds exactly when every item does.
* `mapM_ok_of_mem`: Every item has its result.
* `mapM_ok_mem`: Every result is some item's.
* `mapM_ok_perm`: A permutation of the items permutes the results.
* `forM_ok_iff`: A checking run succeeds exactly when every item passes.
* `mapM_error_iff`: A mapped run fails as its first failing item does.
* `foldlM_ok_keeps`, `foldlM_keeps`: What every step of a run keeps holds at
  its end.
* `foldlM_update_ok_iff`: A run over different places changes each on its own.
* `foldlM_isSome_iff`: A run whose steps fail by their items alone.
-/

namespace Zd1200

section Checked

variable {ε α β : Type}

/-- Fail with `e` if the condition holds, as `if c: raise e` does. -/
def raiseIf (c : Prop) [Decidable c] (e : ε) : Except ε Unit :=
  if c then .error e else .ok ()

@[simp] theorem raiseIf_ok_iff (c : Prop) [Decidable c] (e : ε) (u : Unit) :
    raiseIf c e = .ok u ↔ ¬ c := by
  unfold raiseIf
  by_cases h : c
  · rw [if_pos h]
    simp only [reduceCtorEq, h, not_true_eq_false]
  · rw [if_neg h]
    simp only [h, not_false_eq_true]

@[simp] theorem bind_ok_iff (x : Except ε α) (f : α → Except ε β) (b : β) :
    (x >>= f) = .ok b ↔ ∃ a, x = .ok a ∧ f a = .ok b := by
  cases x with
  | error e => simp only [bind, Except.bind, reduceCtorEq, false_and, exists_false]
  | ok a => simp only [bind, Except.bind, Except.ok.injEq, exists_eq_left']

@[simp] theorem pure_ok_iff (a b : α) : (pure a : Except ε α) = .ok b ↔ a = b := by
  simp only [pure, Except.pure, Except.ok.injEq]

theorem ok_bind (a : α) (f : α → Except ε β) : (Except.ok a >>= f) = f a := rfl

/-- A check that passes does nothing. -/
theorem raiseIf_of_not {c : Prop} [Decidable c] (h : ¬ c) (e : ε) : raiseIf c e = .ok () :=
  if_neg h

/-- A check that does not pass raises. -/
theorem raiseIf_of {c : Prop} [Decidable c] (h : c) (e : ε) : raiseIf c e = .error e :=
  if_pos h

theorem raiseIf_error_iff (c : Prop) [Decidable c] (e e' : ε) :
    raiseIf c e = .error e' ↔ c ∧ e = e' := by
  unfold raiseIf
  by_cases h : c
  · rw [if_pos h, Except.error.injEq]
    exact ⟨fun he => ⟨h, he⟩, fun he => he.2⟩
  · rw [if_neg h]
    exact ⟨fun he => absurd he (by simp only [reduceCtorEq, not_false_eq_true]),
      fun he => absurd he.1 h⟩

/-- A sequence fails in its first half or, if that succeeds, in its second. -/
theorem bind_error_iff (x : Except ε α) (f : α → Except ε β) (e : ε) :
    (x >>= f) = .error e ↔ x = .error e ∨ ∃ a, x = .ok a ∧ f a = .error e := by
  cases x with
  | error e' => simp only [bind, Except.bind, Except.error.injEq, reduceCtorEq, false_and,
      exists_false, or_false]
  | ok a => simp only [bind, Except.bind, reduceCtorEq, Except.ok.injEq, exists_eq_left',
      false_or]

theorem pure_error_iff (a : α) (e : ε) : (pure a : Except ε α) = .error e ↔ False := by
  simp only [pure, Except.pure, reduceCtorEq]

/-- A mapped run succeeds exactly when every item does, and its results are
    the items' own. -/
theorem mapM_ok_iff (f : α → Except ε β) (xs : List α) (ys : List β) :
    xs.mapM f = .ok ys ↔ List.Forall₂ (fun x y => f x = .ok y) xs ys := by
  induction xs generalizing ys with
  | nil =>
      rw [List.mapM_nil, pure_ok_iff, List.forall₂_nil_left_iff, eq_comm]
  | cons x xs ih =>
      rw [List.mapM_cons, bind_ok_iff, List.forall₂_cons_left_iff]
      constructor
      · rintro ⟨y, hy, hrest⟩
        rcases (bind_ok_iff _ _ _).mp hrest with ⟨zs, hzs, heq⟩
        rw [pure_ok_iff] at heq
        exact ⟨y, zs, hy, (ih zs).mp hzs, heq.symm⟩
      · rintro ⟨y, zs, hy, hzs, rfl⟩
        refine ⟨y, hy, (bind_ok_iff _ _ _).mpr ⟨zs, (ih zs).mpr hzs, ?_⟩⟩
        rw [pure_ok_iff]

/-- Every item of a completed run has its result among the results. -/
theorem mapM_ok_of_mem (f : α → Except ε β) (xs : List α) (ys : List β)
    (h : xs.mapM f = .ok ys) (x : α) (hx : x ∈ xs) : ∃ y ∈ ys, f x = .ok y := by
  have hall := (mapM_ok_iff f xs ys).mp h
  clear h
  induction hall with
  | nil => exact absurd hx List.not_mem_nil
  | @cons a b as bs hab _ ih =>
      rcases List.mem_cons.mp hx with rfl | hmem
      · exact ⟨b, List.mem_cons_self, hab⟩
      · rcases ih hmem with ⟨y, hy, hxy⟩
        exact ⟨y, List.mem_cons_of_mem b hy, hxy⟩

/-- Every result of a completed run is some item's. -/
theorem mapM_ok_mem (f : α → Except ε β) (xs : List α) (ys : List β)
    (h : xs.mapM f = .ok ys) (y : β) (hy : y ∈ ys) : ∃ x ∈ xs, f x = .ok y := by
  have hall := (mapM_ok_iff f xs ys).mp h
  clear h
  induction hall with
  | nil => exact absurd hy List.not_mem_nil
  | @cons a b as bs hab _ ih =>
      rcases List.mem_cons.mp hy with rfl | hmem
      · exact ⟨a, List.mem_cons_self, hab⟩
      · rcases ih hmem with ⟨x, hx, hxy⟩
        exact ⟨x, List.mem_cons_of_mem a hx, hxy⟩

/-- A permutation of the items succeeds as well, with permuted results. -/
theorem mapM_ok_perm (f : α → Except ε β) (xs xs' : List α) (ys : List β)
    (hp : xs'.Perm xs) (h : xs.mapM f = .ok ys) :
    ∃ ys', xs'.mapM f = .ok ys' ∧ ys'.Perm ys := by
  rcases List.perm_comp_forall₂ hp ((mapM_ok_iff f xs ys).mp h) with ⟨ys', hys', hperm⟩
  exact ⟨ys', (mapM_ok_iff f xs' ys').mpr hys', hperm⟩

/-- A checking run succeeds exactly when every item passes. -/
theorem forM_ok_iff (f : α → Except ε Unit) (xs : List α) (u : Unit) :
    xs.forM f = .ok u ↔ ∀ x ∈ xs, f x = .ok () := by
  induction xs with
  | nil =>
      change (pure () : Except ε Unit) = .ok u ↔ _
      rw [pure_ok_iff]
      simp only [List.not_mem_nil, false_implies, implies_true]
  | cons x xs ih =>
      change (f x >>= fun _ => xs.forM f) = .ok u ↔ _
      rw [bind_ok_iff, List.forall_mem_cons, ← ih]
      constructor
      · rintro ⟨a, ha, hrest⟩
        exact ⟨ha, hrest⟩
      · rintro ⟨ha, hrest⟩
        exact ⟨(), ha, hrest⟩

/-- A checking run fails with some item's error. -/
theorem forM_error (f : α → Except ε Unit) (xs : List α) (e : ε) (h : xs.forM f = .error e) :
    ∃ x ∈ xs, f x = .error e := by
  induction xs with
  | nil =>
      change (pure () : Except ε Unit) = .error e at h
      exact absurd h (by simp only [pure_error_iff, not_false_eq_true])
  | cons x xs ih =>
      change (f x >>= fun _ => xs.forM f) = .error e at h
      rcases (bind_error_iff _ _ _).mp h with hx | ⟨_, -, hrest⟩
      · exact ⟨x, List.mem_cons_self, hx⟩
      · rcases ih hrest with ⟨y, hy, hfy⟩
        exact ⟨y, List.mem_cons_of_mem x hy, hfy⟩

/-- A mapped run succeeds if every item does. -/
theorem exists_mapM_ok (f : α → Except ε β) (xs : List α) (h : ∀ x ∈ xs, ∃ y, f x = .ok y) :
    ∃ ys, xs.mapM f = .ok ys := by
  induction xs with
  | nil => exact ⟨[], rfl⟩
  | cons x xs ih =>
      rcases h x List.mem_cons_self with ⟨y, hy⟩
      rcases ih fun z hz => h z (List.mem_cons_of_mem x hz) with ⟨ys, hys⟩
      exact ⟨y :: ys, by rw [List.mapM_cons, hy, hys]; rfl⟩

/-- A mapped run fails with the error of the first item that does. -/
theorem mapM_error_iff (f : α → Except ε β) (xs : List α) (e : ε) :
    xs.mapM f = .error e ↔
      ∃ before x after, xs = before ++ x :: after ∧ (∀ y ∈ before, ∃ r, f y = .ok r) ∧
        f x = .error e := by
  induction xs with
  | nil =>
      rw [List.mapM_nil]
      constructor
      · exact fun h => absurd h (by simp only [pure, Except.pure, reduceCtorEq, not_false_eq_true])
      · rintro ⟨before, x, after, h, -⟩
        exact absurd h (by simp only [List.nil_eq, List.append_eq_nil_iff, reduceCtorEq, and_false,
          not_false_eq_true])
  | cons x xs ih =>
      rw [List.mapM_cons]
      cases hx : f x with
      | error e' =>
          simp only [bind, Except.bind, Except.error.injEq]
          constructor
          · rintro rfl
            exact ⟨[], x, xs, rfl, fun y hy => absurd hy List.not_mem_nil, hx⟩
          · rintro ⟨before, y, after, heq, hbefore, hy⟩
            cases before with
            | nil =>
                rw [List.nil_append, List.cons.injEq] at heq
                rw [← heq.1, hx, Except.error.injEq] at hy
                exact hy
            | cons first rest =>
                -- The first item would have a result.
                rw [List.cons_append, List.cons.injEq] at heq
                rcases hbefore first List.mem_cons_self with ⟨r, hr⟩
                rw [← heq.1, hx] at hr
                exact absurd hr (by simp only [reduceCtorEq, not_false_eq_true])
      | ok r =>
          have hrest : (do let rs ← xs.mapM f; pure (r :: rs) : Except ε (List β)) = .error e ↔
              xs.mapM f = .error e := by
            cases xs.mapM f with
            | error e' => simp only [bind, Except.bind, Except.error.injEq]
            | ok rs => simp only [bind, Except.bind, pure, Except.pure, reduceCtorEq]
          change (do let rs ← xs.mapM f; pure (r :: rs) : Except ε (List β)) = .error e ↔ _
          rw [hrest, ih]
          constructor
          · rintro ⟨before, y, after, rfl, hbefore, hy⟩
            exact ⟨x :: before, y, after, rfl, List.forall_mem_cons.mpr ⟨⟨r, hx⟩, hbefore⟩, hy⟩
          · rintro ⟨before, y, after, heq, hbefore, hy⟩
            cases before with
            | nil =>
                rw [List.nil_append, List.cons.injEq] at heq
                rw [← heq.1, hx] at hy
                exact absurd hy (by simp only [reduceCtorEq, not_false_eq_true])
            | cons first rest =>
                rw [List.cons_append, List.cons.injEq] at heq
                exact ⟨rest, y, after, heq.2, fun z hz => hbefore z (List.mem_cons_of_mem _ hz), hy⟩

/-- What every step of a run that succeeds keeps holds at its end. -/
theorem foldlM_ok_keeps {P : β → Prop} (f : β → α → Except ε β) (xs : List α)
    (hstep : ∀ x ∈ xs, ∀ b b', P b → f b x = .ok b' → P b') (b b' : β) (hb : P b)
    (h : xs.foldlM f b = .ok b') : P b' := by
  induction xs generalizing b with
  | nil =>
      rw [List.foldlM_nil, pure_ok_iff] at h
      rwa [← h]
  | cons x xs ih =>
      rw [List.foldlM_cons, bind_ok_iff] at h
      rcases h with ⟨mid, hmid, hrest⟩
      exact ih (fun y hy => hstep y (List.mem_cons_of_mem x hy)) mid
        (hstep x List.mem_cons_self b mid hb hmid) hrest

/-- What every step of a run keeps holds at its end. -/
theorem foldlM_keeps {P : β → Prop} (f : β → α → Option β) (xs : List α)
    (hstep : ∀ x ∈ xs, ∀ b b', P b → f b x = some b' → P b') (b b' : β) (hb : P b)
    (h : xs.foldlM f b = some b') : P b' := by
  induction xs generalizing b with
  | nil =>
      rw [List.foldlM_nil] at h
      rwa [← Option.some.inj h]
  | cons x xs ih =>
      rw [List.foldlM_cons, Option.bind_eq_bind, Option.bind_eq_some_iff] at h
      rcases h with ⟨mid, hmid, hrest⟩
      exact ih (fun y hy => hstep y (List.mem_cons_of_mem x hy)) mid
        (hstep x List.mem_cons_self b mid hb hmid) hrest

/-- A run whose steps succeed or fail whatever the state is: every item is
    one that succeeds. -/
theorem foldlM_isSome_iff (f : β → α → Option β) (accepts : α → Prop)
    (hstep : ∀ b x, (f b x).isSome = true ↔ accepts x) (xs : List α) (b : β) :
    (xs.foldlM f b).isSome = true ↔ ∀ x ∈ xs, accepts x := by
  induction xs generalizing b with
  | nil =>
      rw [List.foldlM_nil]
      simp only [Option.pure_def, Option.isSome_some, List.not_mem_nil, false_implies, implies_true]
  | cons x xs ih =>
      rw [List.foldlM_cons, List.forall_mem_cons, ← hstep b x]
      cases hx : f b x with
      | none => simp only [Option.bind_eq_bind, Option.bind_none, Option.isSome_none,
          Bool.false_eq_true, false_and]
      | some mid => simp only [Option.bind_eq_bind, Option.bind_some, Option.isSome_some, true_and,
          ih mid]

/-- A run over different places, each step of which changes its own place and
    looks at nothing else. -/
theorem foldlM_update_ok_iff [DecidableEq α] (f : α → β → Except ε β) (places : List α)
    (hplaces : places.Nodup) (state state' : α → β) :
    places.foldlM (fun state place => do
        let value ← f place (state place)
        return Function.update state place value) state = .ok state' ↔
      (∀ place ∈ places, f place (state place) = .ok (state' place)) ∧
        ∀ place, place ∉ places → state' place = state place := by
  induction places generalizing state with
  | nil =>
      rw [List.foldlM_nil, pure_ok_iff]
      simp only [List.not_mem_nil, false_implies, implies_true, not_false_eq_true, true_implies,
        true_and]
      exact ⟨fun h place => by rw [h], fun h => (funext h).symm⟩
  | cons place places ih =>
      rcases List.nodup_cons.mp hplaces with ⟨hnew, hrest⟩
      have hother : ∀ value other, other ∈ places →
          Function.update state place value other = state other := by
        intro value other hmem
        exact Function.update_of_ne (fun heq => hnew (by rw [← heq]; exact hmem)) _ _
      rw [List.foldlM_cons, bind_ok_iff]
      simp only [bind_ok_iff, pure_ok_iff, ih hrest]
      constructor
      · rintro ⟨_, ⟨value, hvalue, rfl⟩, hin, hout⟩
        have hself : state' place = value := by
          rw [hout place hnew, Function.update_self]
        refine ⟨List.forall_mem_cons.mpr ⟨by rw [hself]; exact hvalue, fun other hmem => ?_⟩,
          fun other hmem => ?_⟩
        · rw [← hin other hmem, hother value other hmem]
        · rcases not_or.mp (List.mem_cons.not.mp hmem) with ⟨hne, hmem⟩
          rw [hout other hmem, Function.update_of_ne hne]
      · rintro ⟨hin, hout⟩
        rcases List.forall_mem_cons.mp hin with ⟨hfirst, hin⟩
        refine ⟨_, ⟨state' place, hfirst, rfl⟩, fun other hmem => ?_, fun other hmem => ?_⟩
        · rw [hother _ other hmem]
          exact hin other hmem
        · -- The place that was just changed is not changed again.
          by_cases heq : other = place
          · rw [heq, Function.update_self]
          · rw [Function.update_of_ne heq]
            exact hout other (List.mem_cons.not.mpr (not_or.mpr ⟨heq, hmem⟩))

end Checked

end Zd1200
