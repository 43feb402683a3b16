import Mathlib.Data.List.Basic

/-!
# Scripts That Can Be Interrupted

A script is a sequence of commands on a state. A command may fail, which ends
the script, and the script may be killed between any two commands. Which
commands come next can depend on the state, so a loop over files is a loop
over those that are there when it begins.

`run` allows a script a number of commands. It tells where the script stands
afterwards and how many commands are left, if it finished. A run with too few
commands is a killed one, so a statement about every number is one about every
interruption.

`Triple P p Q C` says of a script that starts in `P` that it ends in `Q` if it
finishes and in `C` if it does not. `C` has to hold wherever the script can be
stopped. `run_seq_unless` is the rule for a script that must not be stopped at
one place.

## Main definitions

* `Script`: Scripts.
* `Script.run`: A run with a number of commands.
* `Script.complete`: A run to the end.
* `Ends`, `Triple`: What holds after a run.
* `Yields`, `Reaches`: What a script that finishes yields, and what it comes
  to.
* `StopsIn`: A loop that is stopped in some place of a body.
* `Meets`: A condition on every event of a sequence.

## Theorems

* `Triple.cmd`, `Triple.seq`, `Triple.dyn`, `Triple.forEach`: The rules.
* `Triple.complete`: A triple on a completed run.
* `run_seq_unless`: A script that is not stopped between its two halves.
* `ends_forEach_unless`: A loop that is not stopped in some place of a body.
* `run_forEach_act`: A loop of commands that do not fail.
* `Meets.imp_of_invariant`, `invariant_of_meets`: Invariants of sequences of runs.
-/

namespace Zd1200

/-- Scripts over a state. A command that gives none fails. -/
inductive Script (σ : Type) : Type
  | skip
  | cmd (f : σ → Option σ)
  | seq (p q : Script σ)
  | dyn (next : σ → Script σ)

namespace Script

variable {σ : Type} {ι : Type}

/-- A command that does not fail. -/
def act (f : σ → σ) : Script σ := cmd fun s => some (f s)

/-- A command that changes nothing and fails unless `c`. -/
def require (c : Prop) [Decidable c] : Script σ := cmd fun s => if c then some s else none

/-- A command that changes nothing and fails unless `c` holds of the state. -/
def check (c : σ → Bool) : Script σ := cmd fun s => if c s then some s else none

def ifThen (c : σ → Bool) (p : Script σ) : Script σ := dyn fun s => if c s then p else skip

def forEach (items : List ι) (body : ι → Script σ) : Script σ :=
  items.foldr (fun item rest => (body item).seq rest) skip

/-- A command whose failure is ignored. -/
def attempt (f : σ → Option σ) : Script σ := cmd fun s => some ((f s).getD s)

def inOrder (scripts : List (Script σ)) : Script σ := forEach scripts fun p => p

/-- A run of at most `k` commands: the state it leaves, and the number of
    commands left if it finished. -/
def run : Script σ → Nat → σ → σ × Option Nat
  | skip, k, s => (s, some k)
  | cmd _, 0, s => (s, none)
  | cmd f, k + 1, s =>
      match f s with
      | some s' => (s', some k)
      | none => (s, none)
  | seq p q, k, s =>
      match p.run k s with
      | (s', some k') => q.run k' s'
      | (s', none) => (s', none)
  | dyn next, k, s => (next s).run k s

/-- The state that a run to the end leaves. -/
def complete : Script σ → σ → Option σ
  | skip, s => some s
  | cmd f, s => f s
  | seq p q, s => (p.complete s).bind q.complete
  | dyn next, s => (next s).complete s

/-- A run without commands changes nothing. -/
theorem run_zero (p : Script σ) (s : σ) : (p.run 0 s).1 = s ∧ ∀ left ∈ (p.run 0 s).2, left = 0 := by
  induction p generalizing s with
  | skip => exact ⟨rfl, fun left h => (Option.some.inj h).symm⟩
  | cmd f => exact ⟨rfl, fun left h => absurd h (by simp only [run, Option.mem_def, reduceCtorEq,
      not_false_eq_true])⟩
  | seq p q ihp ihq =>
      rcases ihp s with ⟨hstate, hleft⟩
      rw [run]
      split
      · next s' k' heq =>
        rw [heq] at hstate hleft
        -- Nothing is left for the second half either.
        rw [hleft k' rfl, ← hstate]
        exact ihq s'
      · next s' heq =>
        rw [heq] at hstate
        exact ⟨hstate, fun left h => absurd h (by simp only [Option.mem_def, reduceCtorEq,
          not_false_eq_true])⟩
  | dyn next ih => exact ih s s

/-- A command that fails changes nothing. -/
theorem run_failing (k : Nat) (s : σ) :
    (Script.cmd fun _ : σ => none).run k s = (s, none) := by
  cases k with
  | zero => rfl
  | succ k => rfl

/-- A run to the end is a run with enough commands. -/
theorem run_of_complete (p : Script σ) (s s' : σ) (h : p.complete s = some s') :
    ∃ k, ∀ spare, p.run (k + spare) s = (s', some spare) := by
  induction p generalizing s s' with
  | skip =>
      rw [complete, Option.some.injEq] at h
      exact ⟨0, fun spare => by rw [Nat.zero_add, run, h]⟩
  | cmd f =>
      rw [complete] at h
      exact ⟨1, fun spare => by rw [Nat.add_comm, run, h]⟩
  | seq p q ihp ihq =>
      rw [complete, Option.bind_eq_some_iff] at h
      rcases h with ⟨mid, hp, hq⟩
      rcases ihp s mid hp with ⟨k, hk⟩
      rcases ihq mid s' hq with ⟨l, hl⟩
      -- What the first half does not need is what the second half starts with.
      exact ⟨k + l, fun spare => by rw [Nat.add_assoc, run, hk]; exact hl spare⟩
  | dyn next ih => exact ih s s s' h

/-- A run that finishes does what a run to the end does. -/
theorem complete_of_run (p : Script σ) (k k' : Nat) (s s' : σ) (h : p.run k s = (s', some k')) :
    p.complete s = some s' := by
  induction p generalizing s s' k k' with
  | skip =>
      rw [run, Prod.mk.injEq] at h
      rw [complete, h.1]
  | cmd f =>
      cases k with
      | zero => exact absurd h (by simp only [run, Prod.mk.injEq, reduceCtorEq, and_false,
          not_false_eq_true])
      | succ k =>
          rw [complete]
          rw [run] at h
          split at h
          · next mid hf => rw [hf, (Prod.mk.inj h).1]
          · exact absurd h (by simp only [Prod.mk.injEq, reduceCtorEq, and_false,
              not_false_eq_true])
  | seq p q ihp ihq =>
      rw [run] at h
      split at h
      · next mid left hp =>
        rw [complete, ihp k left s mid hp]
        exact ihq left k' mid s' h
      · exact absurd h (by simp only [Prod.mk.injEq, reduceCtorEq, and_false, not_false_eq_true])
  | dyn next ih => exact ih s k k' s s' h

end Script

open Script

variable {σ : Type} {ι : Type}

/-- `Q` holds of a run that finished, `C` of one that did not. -/
def Ends (Q C : σ → Prop) : σ × Option Nat → Prop
  | (s, some _) => Q s
  | (s, none) => C s

/-- What holds in both cases holds of the state that is left. -/
theorem Ends.state {C : σ → Prop} (r : σ × Option Nat) (h : Ends C C r) : C r.1 := by
  cases r with
  | mk s left =>
      cases left with
      | none => exact h
      | some _ => exact h

/-- From `P`, the script ends in `Q` if it finishes and in `C` if not. -/
def Triple (P : σ → Prop) (p : Script σ) (Q C : σ → Prop) : Prop :=
  ∀ s, P s → ∀ k, Ends Q C (p.run k s)

namespace Triple

variable {P Q R C : σ → Prop}

theorem skip (h : ∀ s, P s → Q s) : Triple P Script.skip Q C := fun s hs _ => h s hs

theorem cmd (f : σ → Option σ) (hstop : ∀ s, P s → C s)
    (hstep : ∀ s s', P s → f s = some s' → Q s') : Triple P (Script.cmd f) Q C := by
  intro s hs k
  cases k with
  | zero => exact hstop s hs
  | succ k =>
      rw [run]
      split
      · next s' hf => exact hstep s s' hs hf
      · exact hstop s hs

theorem act (f : σ → σ) (hstop : ∀ s, P s → C s) (hstep : ∀ s, P s → Q (f s)) :
    Triple P (Script.act f) Q C :=
  cmd _ hstop fun s s' hs h => by
    rw [← Option.some.inj h]
    exact hstep s hs

/-- Behind a requirement it holds. -/
theorem require (c : Prop) [Decidable c] (hstop : ∀ s, P s → C s) :
    Triple P (Script.require c) (fun s => P s ∧ c) C := by
  refine cmd _ hstop fun s s' hs h => ?_
  by_cases hc : c
  · rw [if_pos hc] at h
    rw [← Option.some.inj h]
    exact ⟨hs, hc⟩
  · rw [if_neg hc] at h
    exact absurd h (by simp only [reduceCtorEq, not_false_eq_true])

theorem check (c : σ → Bool) (hstop : ∀ s, P s → C s) (hstep : ∀ s, P s → c s = true → Q s) :
    Triple P (Script.check c) Q C := by
  refine cmd _ hstop fun s s' hs h => ?_
  cases hc : c s with
  | true =>
      rw [hc, if_pos rfl] at h
      rw [← Option.some.inj h]
      exact hstep s hs hc
  | false =>
      rw [hc, if_neg Bool.false_ne_true] at h
      exact absurd h (by simp only [reduceCtorEq, not_false_eq_true])

theorem seq (p q : Script σ) (hp : Triple P p Q C) (hq : Triple Q q R C) :
    Triple P (p.seq q) R C := by
  intro s hs k
  have hfirst := hp s hs k
  rw [run]
  split
  · next s' k' heq =>
    rw [heq] at hfirst
    exact hq s' hfirst k'
  · next s' heq =>
    rw [heq] at hfirst
    exact hfirst

theorem dyn (next : σ → Script σ) (h : ∀ s, P s → Triple (fun t => t = s) (next s) Q C) :
    Triple P (Script.dyn next) Q C :=
  fun s hs k => h s hs s rfl k

theorem ifThen (c : σ → Bool) (p : Script σ) (hp : Triple (fun s => P s ∧ c s = true) p Q C)
    (hskip : ∀ s, P s → c s = false → Q s) : Triple P (Script.ifThen c p) Q C := by
  refine dyn _ fun s hs => ?_
  rintro t rfl k
  cases hc : c t with
  | true =>
      rw [if_pos rfl]
      exact hp t ⟨hs, hc⟩ k
  | false =>
      rw [if_neg Bool.false_ne_true]
      exact hskip t hs hc

theorem weaken {P' Q' C' : σ → Prop} (p : Script σ) (h : Triple P p Q C) (hP : ∀ s, P' s → P s)
    (hQ : ∀ s, Q s → Q' s) (hC : ∀ s, C s → C' s) : Triple P' p Q' C' := by
  intro s hs k
  have hends := h s (hP s hs) k
  -- Either way of ending is weakened on its own.
  cases hrun : p.run k s with
  | mk s' left =>
      rw [hrun] at hends
      cases left with
      | none => exact hC s' hends
      | some _ => exact hQ s' hends

/-- What starts from less starts from more. -/
theorem pre {P' : σ → Prop} (p : Script σ) (h : Triple P p Q C) (hP : ∀ s, P' s → P s) :
    Triple P' p Q C := fun s hs => h s (hP s hs)

/-- A loop, with an invariant of the items that are left. -/
theorem forEach (items : List ι) (body : ι → Script σ) (I : List ι → σ → Prop)
    (hbody : ∀ item rest, Triple (I (item :: rest)) (body item) (I rest) C) :
    Triple (I items) (Script.forEach items body) (I []) C := by
  induction items with
  | nil => exact skip fun _ hs => hs
  | cons item rest ih => exact seq _ _ (hbody item rest) ih

/-- What a state has to be for the script to start there can be used. -/
theorem assume {c : Prop} (p : Script σ) (hc : ∀ s, P s → c) (h : c → Triple P p Q C) :
    Triple P p Q C :=
  fun s hs k => h (hc s hs) s hs k

theorem attempt (f : σ → Option σ) (hstop : ∀ s, P s → C s) (hnone : ∀ s, P s → Q s)
    (hstep : ∀ s s', P s → f s = some s' → Q s') : Triple P (Script.attempt f) Q C := by
  refine cmd _ hstop fun s s' hs h => ?_
  cases hf : f s with
  | none =>
      rw [hf] at h
      rw [← Option.some.inj h]
      exact hnone s hs
  | some t =>
      rw [hf] at h
      rw [← Option.some.inj h]
      exact hstep s t hs hf

/-- An invariant of every part is one of all of them in order. -/
theorem inOrder (scripts : List (Script σ)) (h : ∀ p ∈ scripts, Triple P p P C) :
    Triple P (Script.inOrder scripts) P C := by
  induction scripts with
  | nil => exact skip fun _ hs => hs
  | cons p rest ih =>
      exact seq _ _ (h p List.mem_cons_self) (ih fun q hq => h q (List.mem_cons_of_mem _ hq))

/-- A triple on a completed run. -/
theorem complete (p : Script σ) (h : Triple P p Q C) (s s' : σ) (hs : P s)
    (hc : p.complete s = some s') : Q s' := by
  rcases run_of_complete p s s' hc with ⟨k, hk⟩
  have := h s hs (k + 0)
  rwa [hk 0] at this

end Triple

/-- A script that is not stopped between its two halves. -/
theorem run_seq_unless {P Q R C : σ → Prop} (p q : Script σ) (hp : Triple P p Q C)
    (hq : ∀ s, Q s → ∀ k, Ends R C (q.run (k + 1) s)) (s : σ) (hs : P s) (k : Nat)
    (hnot : (p.run k s).2 ≠ some 0) : Ends R C ((p.seq q).run k s) := by
  have hfirst := hp s hs k
  rw [run]
  split
  · next s' k' heq =>
    rw [heq] at hfirst hnot
    cases k' with
    -- Stopped between the halves, which is excluded.
    | zero => exact absurd rfl hnot
    | succ k' => exact hq s' hfirst k'
  · next s' heq =>
    rw [heq] at hfirst
    exact hfirst

/-! ### Scripts that finish -/

/-- From `P`, the script finishes in `Q`. -/
def Yields (P : σ → Prop) (p : Script σ) (Q : σ → Prop) : Prop :=
  ∀ s, P s → ∃ s', p.complete s = some s' ∧ Q s'

namespace Yields

variable {P Q R : σ → Prop}

theorem skip (h : ∀ s, P s → Q s) : Yields P Script.skip Q := fun s hs => ⟨s, rfl, h s hs⟩

theorem cmd (f : σ → Option σ) (h : ∀ s, P s → ∃ s', f s = some s' ∧ Q s') :
    Yields P (Script.cmd f) Q := h

theorem require (c : Prop) [Decidable c] (h : ∀ s, P s → c ∧ Q s) :
    Yields P (Script.require c) Q :=
  fun s hs => ⟨s, if_pos (h s hs).1, (h s hs).2⟩

theorem act (f : σ → σ) (h : ∀ s, P s → Q (f s)) : Yields P (Script.act f) Q :=
  fun s hs => ⟨f s, rfl, h s hs⟩

theorem check (c : σ → Bool) (h : ∀ s, P s → c s = true ∧ Q s) : Yields P (Script.check c) Q :=
  fun s hs => ⟨s, if_pos (h s hs).1, (h s hs).2⟩

theorem attempt (f : σ → Option σ) (h : ∀ s, P s → Q ((f s).getD s)) :
    Yields P (Script.attempt f) Q := fun s hs => ⟨_, rfl, h s hs⟩

theorem seq (p q : Script σ) (hp : Yields P p Q) (hq : Yields Q q R) : Yields P (p.seq q) R := by
  intro s hs
  rcases hp s hs with ⟨mid, hmid, hQ⟩
  rcases hq mid hQ with ⟨s', hs', hR⟩
  exact ⟨s', by rw [Script.complete, hmid]; exact hs', hR⟩

/-- A loop, with an invariant of the items that are left. -/
theorem forEach (items : List ι) (body : ι → Script σ) (I : List ι → σ → Prop)
    (hbody : ∀ item rest, Yields (I (item :: rest)) (body item) (I rest)) :
    Yields (I items) (Script.forEach items body) (I []) := by
  induction items with
  | nil => exact skip fun _ hs => hs
  | cons item rest ih => exact seq _ _ (hbody item rest) ih

theorem dyn (next : σ → Script σ) (h : ∀ s, P s → Yields (fun t => t = s) (next s) Q) :
    Yields P (Script.dyn next) Q := fun s hs => h s hs s rfl

theorem ifThen (c : σ → Bool) (p : Script σ) (hp : Yields (fun s => P s ∧ c s = true) p Q)
    (hskip : ∀ s, P s → c s = false → Q s) : Yields P (Script.ifThen c p) Q := by
  refine dyn _ fun s hs => ?_
  rintro t rfl
  cases hc : c t with
  | true =>
      rw [if_pos rfl]
      exact hp t ⟨hs, hc⟩
  | false =>
      rw [if_neg Bool.false_ne_true]
      exact ⟨t, rfl, hskip t hs hc⟩

end Yields

/-- From `P`, the script comes to `R`, where it can be stopped. -/
def Reaches (P : σ → Prop) (p : Script σ) (R : σ → Prop) : Prop :=
  ∀ s, P s → ∃ k, R (p.run k s).1 ∧ ∀ left ∈ (p.run k s).2, left = 0

namespace Reaches

variable {P Q R : σ → Prop}

theorem of_yields (p : Script σ) (h : Yields P p R) : Reaches P p R := by
  intro s hs
  rcases h s hs with ⟨s', hs', hR⟩
  rcases run_of_complete p s s' hs' with ⟨k, hk⟩
  refine ⟨k, ?_⟩
  rw [show p.run k s = (s', some 0) from hk 0]
  exact ⟨hR, fun left hleft => (Option.some.inj hleft).symm⟩

theorem left (p q : Script σ) (h : Reaches P p R) : Reaches P (p.seq q) R := by
  intro s hs
  rcases h s hs with ⟨k, hR, hleft⟩
  refine ⟨k, ?_⟩
  rw [run]
  split
  · next s' k' heq =>
    rw [heq] at hR hleft
    -- The state of the first half is left as it is by a second half without commands.
    rw [hleft k' rfl, (run_zero q s').1]
    exact ⟨hR, (run_zero q s').2⟩
  · next s' heq =>
    rw [heq] at hR
    exact ⟨hR, fun left h => absurd h (by simp only [Option.mem_def, reduceCtorEq,
      not_false_eq_true])⟩

theorem seq (p q : Script σ) (hp : Yields P p Q) (hq : Reaches Q q R) : Reaches P (p.seq q) R := by
  intro s hs
  rcases hp s hs with ⟨s', hs', hQ⟩
  rcases run_of_complete p s s' hs' with ⟨k, hk⟩
  rcases hq s' hQ with ⟨l, hl⟩
  refine ⟨k + l, ?_⟩
  rw [run, hk l]
  exact hl

theorem ifThen (c : σ → Bool) (p : Script σ) (hc : ∀ s, P s → c s = true) (hp : Reaches P p R) :
    Reaches P (Script.ifThen c p) R := by
  intro s hs
  rw [Script.ifThen]
  simp only [run, hc s hs, if_true]
  exact hp s hs

end Reaches

/-! ### Loops that are stopped in a body -/

/-- The loop comes to an item with a state and a number of commands of which
    `stops` holds. -/
def StopsIn (body : ι → Script σ) (stops : ι → σ → Nat → Prop) : List ι → σ → Nat → Prop
  | [], _, _ => False
  | item :: rest, s, k =>
      stops item s k ∨ ∃ s' k', (body item).run k s = (s', some k') ∧ StopsIn body stops rest s' k'

instance StopsIn.decidable (body : ι → Script σ) (stops : ι → σ → Nat → Prop)
    [∀ item s k, Decidable (stops item s k)] :
    ∀ items s k, Decidable (StopsIn body stops items s k)
  | [], _, _ => isFalse not_false
  | item :: rest, s, k =>
      match hrun : (body item).run k s with
      | (s', some k') =>
          -- The body determines the state and the number that the rest starts with.
          have := StopsIn.decidable body stops rest s' k'
          decidable_of_iff (stops item s k ∨ StopsIn body stops rest s' k') <| by
            rw [StopsIn, hrun]
            simp only [Prod.mk.injEq, Option.some.injEq, and_assoc, exists_and_left, exists_eq_left']
      | (s', none) =>
          decidable_of_iff (stops item s k) <| by
            rw [StopsIn, hrun]
            simp only [Prod.mk.injEq, reduceCtorEq, and_false, false_and, exists_false, or_false]

/-- A loop whose bodies must not be stopped in some places. -/
theorem ends_forEach_unless {I C : σ → Prop} (body : ι → Script σ) (stops : ι → σ → Nat → Prop)
    (hbody : ∀ item s, I s → ∀ k, ¬ stops item s k → Ends I C ((body item).run k s))
    (items : List ι) (s : σ) (hs : I s) (k : Nat) (hnot : ¬ StopsIn body stops items s k) :
    Ends I C ((forEach items body).run k s) := by
  induction items generalizing s k with
  | nil => exact hs
  | cons item rest ih =>
      rw [StopsIn, not_or] at hnot
      have hfirst := hbody item s hs k hnot.1
      rw [forEach, List.foldr_cons, run]
      split
      · next s' k' heq =>
        rw [heq] at hfirst
        -- The body finished, and the rest starts with what it left.
        exact ih s' hfirst k' fun h => hnot.2 ⟨s', k', heq, h⟩
      · next s' heq =>
        rw [heq] at hfirst
        exact hfirst

/-- A loop of commands that do not fail gets as far as there are commands. -/
theorem run_forEach_act (items : List ι) (f : ι → σ → σ) (k : Nat) (s : σ) :
    (forEach items fun item => Script.act (f item)).run k s =
      ((items.take k).foldl (fun s item => f item s) s,
        if items.length ≤ k then some (k - items.length) else none) := by
  induction items generalizing k s with
  | nil => rw [List.take_nil, List.length_nil, if_pos (Nat.zero_le k)]; rfl
  | cons item rest ih =>
      rw [forEach, List.foldr_cons, run]
      cases k with
      | zero => rfl
      | succ k =>
          -- One command is used up by the first item.
          rw [Script.act, run]
          simp only
          rw [List.take_succ_cons, List.foldl_cons, List.length_cons, Nat.add_sub_add_right]
          simp only [Nat.add_le_add_iff_right]
          exact ih k (f item s)

/-! ### Sequences of runs -/

/-- Every event meets `ok` in the state it comes to. -/
def Meets {ε : Type} (step : σ → ε → σ) (ok : σ → ε → Prop) : σ → List ε → Prop
  | _, [] => True
  | s, event :: rest => ok s event ∧ Meets step ok (step s event) rest

/-- A condition that implies another one in every state. -/
theorem Meets.imp {ε : Type} (step : σ → ε → σ) (ok ok' : σ → ε → Prop)
    (h : ∀ s event, ok s event → ok' s event) (s : σ) (events : List ε)
    (hmeets : Meets step ok s events) : Meets step ok' s events := by
  induction events generalizing s with
  | nil => trivial
  | cons event rest ih => exact ⟨h s event hmeets.1, ih (step s event) hmeets.2⟩

/-- A condition that keeps an invariant and implies another one where it
    holds. -/
theorem Meets.of_invariant {ε : Type} (step : σ → ε → σ) (ok ok' : σ → ε → Prop)
    (I : σ → Prop) (hstep : ∀ s event, I s → ok s event → I (step s event))
    (h : ∀ s event, I s → ok s event → ok' s event) (s : σ) (events : List ε) (hs : I s)
    (hmeets : Meets step ok s events) : Meets step ok' s events := by
  induction events generalizing s with
  | nil => trivial
  | cons event rest ih =>
      exact ⟨h s event hs hmeets.1, ih (step s event) (hstep s event hs hmeets.1) hmeets.2⟩

/-- A condition that implies another one in every state of an invariant. -/
theorem Meets.imp_of_invariant {ε : Type} (step : σ → ε → σ) (ok ok' : σ → ε → Prop)
    (I : σ → Prop) (hstep : ∀ s event, I s → I (step s event))
    (h : ∀ s event, I s → ok s event → ok' s event) (s : σ) (events : List ε) (hs : I s)
    (hmeets : Meets step ok s events) : Meets step ok' s events :=
  Meets.of_invariant step ok ok' I (fun s event hs _ => hstep s event hs) h s events hs hmeets

/-- Every event meets what all of them meet in every state. -/
theorem meets_of_forall {ε : Type} (step : σ → ε → σ) (ok : ε → Prop) (s : σ) (events : List ε) :
    Meets step (fun _ event => ok event) s events ↔ ∀ event ∈ events, ok event := by
  induction events generalizing s with
  | nil => simp only [Meets, List.not_mem_nil, false_implies, implies_true]
  | cons event rest ih => rw [Meets, ih, List.forall_mem_cons]

/-- Two conditions that every event meets. -/
theorem Meets.and {ε : Type} {step : σ → ε → σ} {ok ok' : σ → ε → Prop} {s : σ} {events : List ε}
    (h : Meets step ok s events) (h' : Meets step ok' s events) :
    Meets step (fun s event => ok s event ∧ ok' s event) s events := by
  induction events generalizing s with
  | nil => trivial
  | cons event rest ih => exact ⟨⟨h.1, h'.1⟩, ih h.2 h'.2⟩

/-- What each event keeps holds in the end. -/
theorem invariant_of_meets {ε : Type} (step : σ → ε → σ) (ok : σ → ε → Prop) (I : σ → Prop)
    (hstep : ∀ s event, I s → ok s event → I (step s event)) (s : σ) (events : List ε) (hs : I s)
    (h : Meets step ok s events) : I (events.foldl step s) := by
  induction events generalizing s with
  | nil => exact hs
  | cons event rest ih => exact ih (step s event) (hstep s event hs h.1) h.2

end Zd1200
