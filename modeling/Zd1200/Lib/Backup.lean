import Mathlib.Data.List.Induction
import Zd1200.Lib.Redirect

/-!
# Copies That Are Made Once

Scripts that keep a copy of a file before they change it.

Such a script is run again and again, and makes the copy only if there is none.
It takes from then on that what it finds under the name of the copy is the
original. `cp` writes in place, so a script that is stopped in the middle of its
first copy leaves a front part of the original there, and that is what every
later run takes for it.

`backup_runs` says of any sequence of runs, stopped wherever, which part of the
original the copy is: as much as the first run that came to the copy had
commands left for. What the script does before and behind the copy is arbitrary,
as long as it does not write to the copy, and not to the original before the
copy is made. `Preserves` and `Leaves` say so.

## Main definitions

* `Preserves`, `Leaves`: A script that does not change something, or does not
  write to a file.
* `copyFile`: `cp -f`.
* `keepCopy`: `[ -f backup ] || cp -f live backup`.
* `writeInto`: A file of a state, written in place.
* `afterRuns`: The state after a sequence of runs.

## Theorems

* `Preserves.seq`, `Preserves.triple`, `Leaves.copyFile`: The rules.
* `run_keepCopy`: What a run that makes a copy leaves.
* `backup_runs`, `backup_runs_first`: What the copy is.
-/

namespace Zd1200

/-! ### What a script does not change -/

section Preserves

variable {σ τ : Type} {f : σ → τ}

/-- However far the script gets, `f` gives what it gave. -/
def Preserves (f : σ → τ) (p : Script σ) : Prop := ∀ k s, f (p.run k s).1 = f s

namespace Preserves

theorem skip : Preserves f Script.skip := fun _ _ => rfl

theorem act (g : σ → σ) (h : ∀ s, f (g s) = f s) : Preserves f (Script.act g) := by
  intro k s
  cases k with
  | zero => rfl
  | succ k => exact h s

theorem seq {p q : Script σ} (hp : Preserves f p) (hq : Preserves f q) : Preserves f (p.seq q) := by
  intro k s
  have hfirst := hp k s
  rw [Script.run]
  split
  · next s' k' heq =>
    rw [heq] at hfirst
    rw [hq k' s', hfirst]
  · next s' heq =>
    rw [heq] at hfirst
    exact hfirst

theorem dyn {next : σ → Script σ} (h : ∀ s, Preserves f (next s)) :
    Preserves f (Script.dyn next) := fun k s => h s k s

theorem ifThen {c : σ → Bool} {p : Script σ} (h : Preserves f p) :
    Preserves f (Script.ifThen c p) := by
  refine dyn fun s => ?_
  by_cases hc : c s = true
  · rw [if_pos hc]
    exact h
  · rw [if_neg hc]
    exact skip

theorem forEach {ι : Type} (items : List ι) {body : ι → Script σ}
    (h : ∀ item, Preserves f (body item)) : Preserves f (Script.forEach items body) := by
  induction items with
  | nil => exact skip
  | cons item rest ih => exact (h item).seq ih

/-- What is said of `f` alone holds as before. -/
theorem triple {p : Script σ} (h : Preserves f p) (P : τ → Prop) :
    Triple (fun s => P (f s)) p (fun s => P (f s)) (fun s => P (f s)) := by
  intro s hs k
  have hsame : P (f (p.run k s).1) := by rwa [h k s]
  rcases hrun : p.run k s with ⟨s', _ | left⟩
  · rw [hrun] at hsame
    exact hsame
  · rw [hrun] at hsame
    exact hsame

end Preserves

end Preserves

/-! ### Files that are not written to -/

section Leaves

variable {ν α : Type} [DecidableEq ν]

/-- However far the script gets, the file is as it was. -/
abbrev Leaves (name : ν) (p : Script (Files ν α)) : Prop := Preserves (AList.lookup name) p

theorem Leaves.redirect {name : ν} (target : ν) (contents : List α) (h : name ≠ target) :
    Leaves name (redirect target contents) := by
  intro k s
  rw [run_redirect]
  cases k with
  | zero => rfl
  | succ k => exact AList.lookup_insert_ne h

end Leaves

/-! ### Copies -/

section Copies

variable {ν α : Type} [DecidableEq ν]

/-- `cp -f source target`. The target is emptied first and written in place.
    Without a source nothing happens. -/
def copyFile (source target : ν) : Script (Files ν α) :=
  Script.dyn fun s =>
    match s.lookup source with
    | some contents => redirect target contents
    | none => Script.skip

/-- A copy is made unless there is one. -/
def keepCopy (live backup : ν) : Script (Files ν α) :=
  Script.ifThen (fun s => (s.lookup backup).isNone) (copyFile live backup)

theorem run_copyFile (source target : ν) (contents : List α) (k : Nat) (s : Files ν α)
    (h : s.lookup source = some contents) :
    (copyFile source target).run k s = (redirect target contents).run k s := by
  rw [copyFile, Script.run, h]

theorem Leaves.copyFile {name : ν} (source target : ν) (h : name ≠ target) :
    Leaves name (copyFile source target : Script (Files ν α)) := by
  refine Preserves.dyn fun s => ?_
  cases s.lookup source with
  | none => exact Preserves.skip
  | some contents => exact Leaves.redirect target contents h

theorem Leaves.keepCopy {name : ν} (live backup : ν) (h : name ≠ backup) :
    Leaves name (keepCopy live backup : Script (Files ν α)) :=
  Preserves.ifThen (Leaves.copyFile live backup h)

/-- A copy that is there stays. -/
theorem run_keepCopy_of_some (live backup : ν) (part : List α) (k : Nat) (s : Files ν α)
    (h : s.lookup backup = some part) : (keepCopy live backup).run k s = (s, some k) := by
  have hfound : ¬ (s.lookup backup).isNone = true := by
    rw [h, Option.isNone_some]
    exact Bool.false_ne_true
  rw [keepCopy, Script.ifThen, Script.run, if_neg hfound, Script.run]

/-- A copy that is made has as much of the original as there were commands. -/
theorem run_keepCopy (live backup : ν) (original : List α) (k : Nat) (s : Files ν α)
    (hbackup : s.lookup backup = none) (hlive : s.lookup live = some original) :
    (keepCopy live backup).run k s = (redirect backup original).run k s := by
  rw [keepCopy, Script.ifThen, Script.run, hbackup, Option.isNone_none, if_pos rfl,
    run_copyFile live backup original k s hlive]

theorem Triple.copyFile {P Q C : Files ν α → Prop} (source target : ν) (contents : List α)
    (hsource : ∀ s, P s → s.lookup source = some contents) (hstop : ∀ s, P s → C s)
    (hpart : ∀ s, P s → ∀ part, part <+: contents → C (s.insert target part))
    (hdone : ∀ s, P s → Q (s.insert target contents)) :
    Triple P (copyFile source target) Q C := by
  intro s hs k
  rw [run_copyFile source target contents k s (hsource s hs)]
  exact Triple.redirect target contents hstop hpart hdone s hs k

/-- A copy that is kept is the one that was there, or else the original. -/
theorem Triple.keepCopy (live backup : ν) (copy : List α) :
    Triple
      (fun s : Files ν α => s.lookup backup = some copy ∨
        s.lookup backup = none ∧ s.lookup live = some copy)
      (keepCopy live backup) (fun s => s.lookup backup = some copy) (fun _ => True) := by
  rintro s (hbackup | ⟨hnone, hlive⟩) k
  · rw [run_keepCopy_of_some live backup copy k s hbackup]
    exact hbackup
  · rw [run_keepCopy live backup copy k s hnone hlive]
    exact Triple.redirect (P := fun t => t = s) backup copy (fun _ _ => trivial)
      (fun _ _ _ _ => trivial) (fun t _ => AList.lookup_insert t) s rfl k

end Copies

/-! ### Scripts that finish -/

section Finished

variable {σ : Type}

/-- A script that finished began its second half where the first one ended. -/
theorem run_seq_finished (p q : Script σ) (k : Nat) (s : σ) (h : ((p.seq q).run k s).2 ≠ none) :
    ∃ s' k', p.run k s = (s', some k') ∧ (p.seq q).run k s = q.run k' s' := by
  rcases hp : p.run k s with ⟨s', _ | k'⟩
  · rw [Script.run, hp] at h
    exact absurd rfl h
  · exact ⟨s', k', rfl, by rw [Script.run, hp]⟩

theorem run_seq_assoc (p q r : Script σ) (k : Nat) (s : σ) :
    ((p.seq q).seq r).run k s = (p.seq (q.seq r)).run k s := by
  rcases hp : p.run k s with ⟨s', _ | k'⟩
  · simp only [Script.run, hp]
  · simp only [Script.run, hp]

/-- What is left by a script that finished. -/
theorem Triple.finished {P Q C : σ → Prop} {p : Script σ} (h : Triple P p Q C) (s s' : σ)
    (k k' : Nat) (hs : P s) (hrun : p.run k s = (s', some k')) : Q s' := by
  have hends := h s hs k
  rw [hrun] at hends
  exact hends

/-- The state that is left by a script that finished. -/
theorem Triple.finished_state {P Q C : σ → Prop} {p : Script σ} (h : Triple P p Q C) (s : σ)
    (k : Nat) (hs : P s) (hdone : (p.run k s).2 ≠ none) : Q (p.run k s).1 := by
  rcases hrun : p.run k s with ⟨s', _ | left⟩
  · rw [hrun] at hdone
    exact absurd rfl hdone
  · exact h.finished s s' k left hs hrun

end Finished

/-! ### Files that are a part of the state -/

section WriteFile

variable {σ α : Type}

/-- A file that is written in place: it is emptied, and then it has longer and
    longer front parts of the contents. -/
def writeInto (set : Option (List α) → σ → σ) (contents : List α) : Script σ :=
  (Script.forEach (List.range contents.length) fun n =>
    Script.act (set (some (contents.take n)))).seq (Script.act (set (some contents)))

theorem Preserves.writeInto {τ : Type} {f : σ → τ} (set : Option (List α) → σ → σ)
    (contents : List α) (h : ∀ file s, f (set file s) = f s) :
    Preserves f (writeInto set contents) :=
  (Preserves.forEach _ fun _ => Preserves.act _ (h _)).seq (Preserves.act _ (h _))

/-- The rule for what does not depend on the file. -/
theorem Triple.writeInto {P Q C : σ → Prop} (set : Option (List α) → σ → σ) (contents : List α)
    (hset : ∀ file s, P s → P (set file s)) (hstop : ∀ s, P s → C s)
    (hdone : ∀ s, P s → Q (set (some contents) s)) : Triple P (writeInto set contents) Q C :=
  Triple.seq _ _
    (Triple.forEach _ _ (fun _ => P) fun _ _ => Triple.act _ hstop fun s hs => hset _ s hs)
    (Triple.act _ hstop hdone)

end WriteFile

/-! ### Sequences of runs -/

section Runs

variable {σ ι : Type}

/-- The state after runs of scripts of a family, each with a number of
    commands. -/
def afterRuns (script : ι → Script σ) (s : σ) (runs : List (ι × Nat)) : σ :=
  runs.foldl (fun s r => ((script r.1).run r.2 s).1) s

theorem afterRuns_concat (script : ι → Script σ) (s : σ) (runs : List (ι × Nat)) (r : ι × Nat) :
    afterRuns script s (runs ++ [r]) = ((script r.1).run r.2 (afterRuns script s runs)).1 := by
  rw [afterRuns, List.foldl_append]
  rfl

/-- Scripts that run alike. -/
theorem afterRuns_congr (script other : ι → Script σ)
    (h : ∀ i k s, (script i).run k s = (other i).run k s) (s : σ) (runs : List (ι × Nat)) :
    afterRuns script s runs = afterRuns other s runs := by
  induction runs using List.reverseRecOn with
  | nil => rfl
  | append_singleton runs r ih => rw [afterRuns_concat, afterRuns_concat, ih, h]

theorem afterRuns_append (script : ι → Script σ) (s : σ) (runs more : List (ι × Nat)) :
    afterRuns script s (runs ++ more) = afterRuns script (afterRuns script s runs) more :=
  List.foldl_append

/-- What each run keeps holds in the end. -/
theorem Triple.afterRuns {I : σ → Prop} {script : ι → Script σ} (s : σ) (hs : I s)
    (runs : List (ι × Nat)) (h : ∀ r ∈ runs, Triple I (script r.1) I I) :
    I (afterRuns script s runs) := by
  induction runs using List.reverseRecOn with
  | nil => exact hs
  | append_singleton runs r ih =>
      rw [afterRuns_concat]
      have hbefore := ih fun r' hr' => h r' (List.mem_append_left _ hr')
      exact Ends.state _ (h r (List.mem_append_right _ List.mem_cons_self) _ hbefore r.2)

end Runs

section Backup

variable {ν α ι : Type} [DecidableEq ν] (live backup : ν) (before behind : ι → Script (Files ν α))

/-- A script that keeps a copy. -/
def keeping (i : ι) : Script (Files ν α) :=
  (before i).seq ((keepCopy live backup).seq (behind i))

variable {live backup before behind}

/-- A copy is never made again, and what is there stays. -/
theorem lookup_backup_of_some (hbefore : ∀ i, Leaves backup (before i))
    (hbehind : ∀ i, Leaves backup (behind i)) (part : List α) (i : ι) (k : Nat) (s : Files ν α)
    (h : s.lookup backup = some part) :
    ((keeping live backup before behind i).run k s).1.lookup backup = some part := by
  have hfirst := hbefore i k s
  rw [h] at hfirst
  rw [keeping, Script.run]
  split
  · next s' k' heq =>
    rw [heq] at hfirst
    rw [Script.run, run_keepCopy_of_some live backup part k' s' hfirst]
    exact (hbehind i k' s').trans hfirst
  · next s' heq =>
    rw [heq] at hfirst
    exact hfirst

/-- The run that comes to the copy makes it, as far as it has commands. A run
    that does not come there changes neither of the files. -/
theorem run_keeping_of_none (hbefore : ∀ i, Leaves backup (before i))
    (hlive : ∀ i, Leaves live (before i)) (hbehind : ∀ i, Leaves backup (behind i))
    (original : List α) (i : ι) (k : Nat) (s : Files ν α) (hnone : s.lookup backup = none)
    (horiginal : s.lookup live = some original) :
    let r := (keeping live backup before behind i).run k s
    (∃ left, ((before i).run k s).2 = some (left + 1) ∧
        r.1.lookup backup = some (original.take left) ∧ (r.2 ≠ none → original.length ≤ left)) ∨
      (∀ left, ((before i).run k s).2 ≠ some (left + 1)) ∧ r.2 = none ∧
        r.1.lookup backup = none ∧ r.1.lookup live = some original := by
  intro r
  have hr : r = (keeping live backup before behind i).run k s := rfl
  have hb := hbefore i k s
  have hl := hlive i k s
  rw [hnone] at hb
  rw [horiginal] at hl
  rw [keeping, Script.run] at hr
  rcases hrun : (before i).run k s with ⟨s', _ | left⟩
  · rw [hrun] at hr hb hl
    refine Or.inr ⟨fun left h => absurd h (by simp only [reduceCtorEq, not_false_eq_true]), ?_⟩
    rw [hr]
    exact ⟨rfl, hb, hl⟩
  rw [hrun] at hr hb hl
  simp only at hr hb hl
  rw [Script.run, run_keepCopy live backup original left s' hb hl, run_redirect] at hr
  cases left with
  | zero =>
      refine Or.inr ⟨fun left h => absurd h (by simp), ?_⟩
      rw [hr]
      exact ⟨rfl, hb, hl⟩
  | succ left =>
      refine Or.inl ⟨left, rfl, ?_⟩
      by_cases henough : original.length ≤ left
      · -- The copy is complete, and what follows leaves it alone.
        simp only [if_pos henough] at hr
        rw [hr]
        exact ⟨(hbehind i _ _).trans (AList.lookup_insert _), fun _ => henough⟩
      · simp only [if_neg henough] at hr
        rw [hr]
        exact ⟨AList.lookup_insert _, fun h => absurd rfl h⟩

/-- The copy is made by the first run that comes to it, and it is what this run
    had commands for. -/
theorem backup_runs (hbefore : ∀ i, Leaves backup (before i)) (hlive : ∀ i, Leaves live (before i))
    (hbehind : ∀ i, Leaves backup (behind i)) (original : List α) (s : Files ν α)
    (hnone : s.lookup backup = none) (horiginal : s.lookup live = some original)
    (runs : List (ι × Nat)) :
    let state := afterRuns (keeping live backup before behind) s
    (state runs).lookup backup = none ∧ (state runs).lookup live = some original ∨
      ∃ front r rest left, runs = front ++ r :: rest ∧ (state front).lookup backup = none ∧
        ((before r.1).run r.2 (state front)).2 = some (left + 1) ∧
        (state runs).lookup backup = some (original.take left) := by
  intro state
  induction runs using List.reverseRecOn with
  | nil => exact Or.inl ⟨hnone, horiginal⟩
  | append_singleton runs r ih =>
      have hstep : state (runs ++ [r]) =
          ((keeping live backup before behind r.1).run r.2 (state runs)).1 :=
        afterRuns_concat _ s runs r
      rw [hstep]
      rcases ih with ⟨hb, hl⟩ | ⟨front, first, rest, left, hsplit, hb, hleft, hpart⟩
      · rcases run_keeping_of_none hbefore hlive hbehind original r.1 r.2 (state runs) hb hl with
          ⟨left, hleft, hpart, -⟩ | ⟨-, -, hb', hl'⟩
        · exact Or.inr ⟨runs, r, [], left, rfl, hb, hleft, hpart⟩
        · exact Or.inl ⟨hb', hl'⟩
      · refine Or.inr ⟨front, first, rest ++ [r], left, ?_, hb, hleft, ?_⟩
        · rw [hsplit, List.append_assoc, List.cons_append]
        · exact lookup_backup_of_some hbefore hbehind _ r.1 r.2 (state runs) hpart

/-- Where the copy comes first, it is made by the first run that does anything. -/
theorem backup_runs_first (hbehind : ∀ i, Leaves backup (behind i)) (original : List α)
    (s : Files ν α) (hnone : s.lookup backup = none) (horiginal : s.lookup live = some original)
    (runs : List (ι × Nat)) :
    (afterRuns (keeping live backup (fun _ => Script.skip) behind) s runs).lookup backup =
      (runs.find? fun r => r.2 ≠ 0).map fun r => original.take (r.2 - 1) := by
  have hskip : ∀ _ : ι, Leaves backup (Script.skip : Script (Files ν α)) := fun _ => Preserves.skip
  have hlive : ∀ _ : ι, Leaves live (Script.skip : Script (Files ν α)) := fun _ => Preserves.skip
  -- As long as there is no copy, the original is where it was.
  suffices h : let state := afterRuns (keeping live backup (fun _ => Script.skip) behind) s runs
      let first := runs.find? fun r => r.2 ≠ 0
      state.lookup backup = first.map (fun r => original.take (r.2 - 1)) ∧
        (first = none → state.lookup live = some original) from h.1
  induction runs using List.reverseRecOn with
  | nil => exact ⟨hnone, fun _ => horiginal⟩
  | append_singleton runs r ih =>
      intro state first
      rcases ih with ⟨hcopy, hkept⟩
      have hstate : state = _ := afterRuns_concat _ s runs r
      rw [hstate]
      rcases hfirst : runs.find? (fun r => decide (r.2 ≠ 0)) with _ | found
      · rw [hfirst, Option.map_none] at hcopy
        have hfirst' : first = if r.2 ≠ 0 then some r else none := by
          simp only [first, List.find?_append, hfirst, Option.none_or, List.find?_singleton,
            decide_eq_true_eq]
        rcases run_keeping_of_none hskip hlive hbehind original r.1 r.2 _ hcopy (hkept hfirst) with
          ⟨left, hleft, hpart, -⟩ | ⟨hnot, -, hb, hl⟩
        · -- The script begins with the copy, so all commands are left for it.
          have hcount : r.2 = left + 1 := Option.some.inj hleft
          have hne : r.2 ≠ 0 := by omega
          rw [hfirst', if_pos hne, Option.map_some, hpart, hcount, Nat.add_sub_cancel]
          exact ⟨rfl, fun h => absurd h (by simp only [reduceCtorEq, not_false_eq_true])⟩
        · have hzero : ¬ r.2 ≠ 0 := by
            intro hne
            exact hnot (r.2 - 1) (congrArg some (by omega))
          rw [hfirst', if_neg hzero]
          exact ⟨hb, fun _ => hl⟩
      · rw [hfirst, Option.map_some] at hcopy
        have hfirst' : first = some found := by
          simp only [first, List.find?_append, hfirst, Option.some_or]
        rw [hfirst']
        exact ⟨lookup_backup_of_some hskip hbehind _ r.1 r.2 _ hcopy,
          fun h => absurd h (by simp only [reduceCtorEq, not_false_eq_true])⟩

end Backup

end Zd1200
