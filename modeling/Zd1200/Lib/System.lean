import Mathlib.Logic.Function.Basic
import Zd1200.Lib.Slice

/-!
# Operations That Can Fail

Programs that work on the files of a directory, where every operation of the
system can fail.

Which operations fail is a plan, a function of how many operations came
before, so that a statement about every plan is one about every point at which
a program can fail. An operation that fails leaves what the fault says in the
file it was working on, and nothing is assumed about that.

A program that only ever touches one file of its own is described by
`Keeps`, and `cleaning` is what removes that file when it fails. A program may
end with one operation that changes something else, as long as nothing can
fail after it: `Careful`. On a new file, and cleaned up, such a program is
`Atomic`.

## Main definitions

* `Fault`, `World`: What can go wrong, and the files.
* `System`: A program with operations that can fail.
* `operate`: One operation.
* `cleaning`: A program whose file is removed if it fails.
* `Keeps`: A program changes one file only.
* `Careful`: A program that fails has changed one file only.
* `Atomic`: A program that fails has changed nothing.
* `Completes`: What a program does where nothing fails.

## Theorems

* `Keeps.bind`, `Keeps.bind_careful`, `Silent.bind_atomic`: The rules for
  programs one after the other.
* `Careful.atomic`: A program that cleans up after itself is atomic.
* `Completes.bind`: What two programs do one after the other.
-/

namespace Zd1200

/-- The exceptions of a program. -/
inductive SystemError
  | valueError (message : String)
  | osError (message : String)
  deriving DecidableEq, Repr

/-- An operation fails, and leaves a content in the file it works on. -/
structure Fault where
  message : String
  left : Bytes

/-- The files of a directory, and which operations are going to fail. -/
structure World where
  files : String → Option Bytes
  clock : Nat
  faults : Nat → Option Fault

/-- A program with operations that can fail. -/
def System (α : Type) : Type := World → Except SystemError α × World

namespace System

variable {α β : Type}

/-- One program after another, unless the first one fails. -/
def andThen (x : System α) (f : α → System β) : System β := fun w =>
  match x w with
  | (.ok a, w') => f a w'
  | (.error e, w') => (.error e, w')

instance : Monad System where
  pure a := fun w => (.ok a, w)
  bind := andThen

def raise (e : SystemError) : System α := fun w => (.error e, w)

end System

section Operations

variable {α β : Type}

/-- One operation: its effect on the files, or what a fault leaves of them. -/
def operate (torn : Fault → (String → Option Bytes) → String → Option Bytes)
    (effect : (String → Option Bytes) → String → Option Bytes) : System Unit := fun w =>
  match w.faults w.clock with
  | none => (.ok (), { w with files := effect w.files, clock := w.clock + 1 })
  | some fault =>
      (.error (.osError fault.message),
        { w with files := torn fault w.files, clock := w.clock + 1 })

/-- An operation that changes no file. -/
def consult : System Unit := operate (fun _ files => files) id

/-- An operation on one file. -/
def alter (name : String) (content : Option Bytes → Bytes) : System Unit :=
  operate (fun fault files => Function.update files name (some fault.left))
    (fun files => Function.update files name (some (content (files name))))

/-- A file that was not there before. -/
def mkstemp (name : String) : System Unit := fun w =>
  if w.files name ≠ none then (.error (.osError "File exists"), w)
  else operate (fun _ files => files) (fun files => Function.update files name (some [])) w

/-- A check of a program. -/
def raiseWhen (c : Prop) [Decidable c] (e : SystemError) : System Unit :=
  if c then System.raise e else pure ()

/-- The program, and an operation after it in any case. An error of the
    operation is the one that is raised. -/
def closing (close : System Unit) (x : System α) : System α := fun w =>
  match x w with
  | (.ok a, w') =>
      match close w' with
      | (.ok _, w'') => (.ok a, w'')
      | (.error e, w'') => (.error e, w'')
  | (.error e, w') =>
      match close w' with
      | (.ok _, w'') => (.error e, w'')
      | (.error e', w'') => (.error e', w'')

/-- The program, and its file removed if it fails. -/
def cleaning (name : String) (x : System α) : System α := fun w =>
  match x w with
  | (.ok a, w') => (.ok a, w')
  | (.error e, w') => (.error e, { w' with files := Function.update w'.files name none })

/-! ### What a program changes -/

/-- The program changes one file only. -/
def Keeps (name : String) (x : System α) : Prop :=
  ∀ w other, other ≠ name → (x w).2.files other = w.files other

/-- The program changes no file. -/
def Silent (x : System α) : Prop := ∀ w, (x w).2.files = w.files

/-- If the program fails it has changed no file. -/
def Atomic (x : System α) : Prop :=
  ∀ w e, (x w).1 = .error e → (x w).2.files = w.files

/-- If the program fails it has changed one file only. -/
def Careful (name : String) (x : System α) : Prop :=
  ∀ w e, (x w).1 = .error e → ∀ other, other ≠ name → (x w).2.files other = w.files other

theorem Keeps.pure (name : String) (a : α) : Keeps name (Pure.pure a : System α) :=
  fun _ _ _ => rfl

theorem Keeps.raise (name : String) (e : SystemError) : Keeps name (System.raise e : System α) :=
  fun _ _ _ => rfl

theorem Keeps.bind {name : String} {x : System α} {f : α → System β} (hx : Keeps name x)
    (hf : ∀ a, Keeps name (f a)) : Keeps name (x >>= f) := by
  intro w other hother
  have hfirst := hx w other hother
  change (System.andThen x f w).2.files other = _
  unfold System.andThen
  split
  · next a w' heq =>
    rw [heq] at hfirst
    rw [hf a w' other hother, hfirst]
  · next e w' heq =>
    rw [heq] at hfirst
    exact hfirst

theorem Keeps.bind_careful {name : String} {x : System α} {f : α → System β} (hx : Keeps name x)
    (hf : ∀ a, Careful name (f a)) : Careful name (x >>= f) := by
  intro w e he other hother
  have hfirst := hx w other hother
  change (System.andThen x f w).1 = _ at he
  change (System.andThen x f w).2.files other = _
  unfold System.andThen at he ⊢
  split at he
  · next a w' heq =>
    simp only [heq] at hfirst ⊢
    rw [hf a w' e he other hother, hfirst]
  · next e' w' heq =>
    simp only [heq] at hfirst ⊢
    exact hfirst

theorem Keeps.operate {name : String}
    {torn : Fault → (String → Option Bytes) → String → Option Bytes}
    {effect : (String → Option Bytes) → String → Option Bytes}
    (htorn : ∀ fault files other, other ≠ name → torn fault files other = files other)
    (heffect : ∀ files other, other ≠ name → effect files other = files other) :
    Keeps name (operate torn effect) := by
  intro w other hother
  unfold Zd1200.operate
  split
  · exact heffect _ _ hother
  · exact htorn _ _ _ hother

theorem Keeps.consult (name : String) : Keeps name consult :=
  Keeps.operate (fun _ _ _ _ => rfl) fun _ _ _ => rfl

theorem Keeps.alter (name : String) (content : Option Bytes → Bytes) :
    Keeps name (alter name content) :=
  Keeps.operate (fun _ _ _ hother => Function.update_of_ne hother _ _)
    fun _ _ hother => Function.update_of_ne hother _ _

theorem Keeps.closing {name : String} {close : System Unit} {x : System α}
    (hclose : Keeps name close) (h : Keeps name x) : Keeps name (closing close x) := by
  intro w other hother
  have hx := h w other hother
  unfold Zd1200.closing
  split
  all_goals
    next w' heq =>
    rw [heq] at hx
    have hafter := hclose w' other hother
    split
    all_goals
      next heq' =>
      rw [heq'] at hafter
      rw [hafter, hx]

theorem Keeps.raiseWhen (name : String) (c : Prop) [Decidable c] (e : SystemError) :
    Keeps name (raiseWhen c e) := by
  unfold Zd1200.raiseWhen
  split
  · exact Keeps.raise name e
  · exact Keeps.pure name ()

/-- An operation that leaves everything as it is when it fails. -/
theorem Careful.operate (name : String) (effect : (String → Option Bytes) → String → Option Bytes) :
    Careful name (operate (fun _ files => files) effect) := by
  intro w e he other _
  unfold Zd1200.operate at he ⊢
  split
  · next heq =>
    rw [heq] at he
    exact absurd he (by simp only [reduceCtorEq, not_false_eq_true])
  · rfl

/-- Nothing fails after a careful program that is the last to do anything. -/
theorem Careful.bind_pure {name : String} {x : System α} (hx : Careful name x) (f : α → β) :
    Careful name (x >>= fun a => Pure.pure (f a)) := by
  intro w e he other hother
  have hfirst := hx w
  change (System.andThen x _ w).1 = _ at he
  change (System.andThen x _ w).2.files other = _
  unfold System.andThen at he ⊢
  split at he
  · exact absurd he (by simp only [Pure.pure, reduceCtorEq, not_false_eq_true])
  · next e' w' heq =>
    simp only [heq] at hfirst ⊢
    exact hfirst e' rfl other hother

theorem Silent.consult : Silent consult := by
  intro w
  unfold Zd1200.consult operate
  split
  · rfl
  · rfl

theorem Silent.raiseWhen (c : Prop) [Decidable c] (e : SystemError) :
    Silent (raiseWhen c e) := by
  intro w
  unfold Zd1200.raiseWhen
  split
  · rfl
  · rfl

theorem Silent.bind_atomic {x : System α} {f : α → System β} (hx : Silent x)
    (hf : ∀ a, Atomic (f a)) : Atomic (x >>= f) := by
  intro w e he
  have hfirst := hx w
  change (System.andThen x f w).1 = _ at he
  change (System.andThen x f w).2.files = _
  unfold System.andThen at he ⊢
  split at he
  · next a w' heq =>
    simp only [heq] at hfirst ⊢
    rw [hf a w' e he, hfirst]
  · next e' w' heq =>
    simp only [heq] at hfirst ⊢
    exact hfirst

/-- Making a new file fails and changes nothing, or there is a new file. -/
theorem mkstemp_cases (name : String) (w : World) :
    (∃ e w', mkstemp name w = (.error e, w') ∧ w'.files = w.files) ∨
    (w.files name = none ∧ mkstemp name w
      = (.ok (), { w with files := Function.update w.files name (some []), clock := w.clock + 1 })) := by
  unfold mkstemp
  by_cases hold : w.files name = none
  · rw [if_neg (not_not.mpr hold)]
    unfold Zd1200.operate
    split
    · exact .inr ⟨hold, rfl⟩
    · exact .inl ⟨_, _, rfl, rfl⟩
  · rw [if_pos hold]
    exact .inl ⟨_, w, rfl, rfl⟩

/-- A careful program that failed and cleaned up left no other trace. -/
theorem cleaning_error {name : String} {x : System α} (hx : Careful name x) (w : World)
    (e : SystemError) (h : (cleaning name x w).1 = .error e) :
    (cleaning name x w).2.files = Function.update w.files name none := by
  unfold cleaning at h ⊢
  split at h
  · exact absurd h (by simp only [reduceCtorEq, not_false_eq_true])
  · next e' w' heq =>
    have hcare := hx w e' (by rw [heq])
    simp only [heq] at hcare ⊢
    funext other
    by_cases hother : other = name
    · rw [hother, Function.update_self, Function.update_self]
    · rw [Function.update_of_ne hother, Function.update_of_ne hother, hcare other hother]

/-- A careful program on a new file that is removed if it fails: a failure
    leaves nothing. -/
theorem Careful.atomic {name : String} {x : System α} (hx : Careful name x) :
    Atomic (mkstemp name >>= fun _ => cleaning name x) := by
  intro w e he
  change (System.andThen (mkstemp name) _ w).1 = _ at he
  change (System.andThen (mkstemp name) _ w).2.files = _
  unfold System.andThen at he ⊢
  rcases mkstemp_cases name w with ⟨e', w', heq, hsame⟩ | ⟨hnew, heq⟩
  · rw [heq]
    exact hsame
  · simp only [heq] at he ⊢
    rw [cleaning_error hx _ e he, Function.update_idem, ← hnew, Function.update_eq_self]

/-! ### Without faults -/

/-- Where nothing fails the program ends with this result and these files. -/
def Completes (x : System α) (files : String → Option Bytes) (a : α)
    (files' : String → Option Bytes) : Prop :=
  ∀ clock, ∃ clock', x ⟨files, clock, fun _ => none⟩ = (.ok a, ⟨files', clock', fun _ => none⟩)

theorem Completes.pure (a : α) (files : String → Option Bytes) :
    Completes (Pure.pure a : System α) files a files := fun clock => ⟨clock, rfl⟩

theorem Completes.bind {x : System α} {f : α → System β} {files files' files'' : String → Option Bytes}
    {a : α} {b : β} (hx : Completes x files a files') (hf : Completes (f a) files' b files'') :
    Completes (x >>= f) files b files'' := by
  intro clock
  rcases hx clock with ⟨middle, hmiddle⟩
  rcases hf middle with ⟨clock', hend⟩
  refine ⟨clock', ?_⟩
  change System.andThen x f _ = _
  rw [System.andThen, hmiddle]
  exact hend

theorem Completes.operate (torn : Fault → (String → Option Bytes) → String → Option Bytes)
    (effect : (String → Option Bytes) → String → Option Bytes) (files : String → Option Bytes) :
    Completes (operate torn effect) files () (effect files) := fun clock => ⟨clock + 1, rfl⟩

theorem Completes.consult (files : String → Option Bytes) : Completes consult files () files :=
  Completes.operate _ _ files

theorem Completes.raiseWhen {c : Prop} [Decidable c] (hc : ¬ c) (e : SystemError)
    (files : String → Option Bytes) : Completes (raiseWhen c e) files () files := by
  unfold Zd1200.raiseWhen
  rw [if_neg hc]
  exact Completes.pure () files

theorem Completes.mkstemp {name : String} {files : String → Option Bytes}
    (hnew : files name = none) :
    Completes (mkstemp name) files () (Function.update files name (some [])) := by
  intro clock
  refine ⟨clock + 1, ?_⟩
  rw [Zd1200.mkstemp, if_neg (not_not.mpr hnew)]
  rfl

theorem Completes.alter {name : String} {files : String → Option Bytes} {old : Bytes}
    (hold : files name = some old) (content : Option Bytes → Bytes) :
    Completes (alter name content) files ()
      (Function.update files name (some (content (some old)))) := by
  rw [← hold]
  exact Completes.operate _ _ files

/-- Writing out what has been written changes nothing. -/
theorem Completes.flush {name : String} {files : String → Option Bytes} {old : Bytes}
    (hold : files name = some old) :
    Completes (Zd1200.alter name fun content => content.getD []) files () files := by
  have h := Completes.alter hold fun content => content.getD []
  rwa [Option.getD_some, ← hold, Function.update_eq_self] at h

theorem Completes.closing {close : System Unit} {x : System α}
    {files files' files'' : String → Option Bytes} {a : α} (hx : Completes x files a files')
    (hclose : Completes close files' () files'') : Completes (closing close x) files a files'' := by
  intro clock
  rcases hx clock with ⟨middle, hmiddle⟩
  rcases hclose middle with ⟨clock', hend⟩
  refine ⟨clock', ?_⟩
  rw [Zd1200.closing, hmiddle]
  simp only [hend]

theorem Completes.cleaning {name : String} {x : System α} {files files' : String → Option Bytes}
    {a : α} (hx : Completes x files a files') : Completes (cleaning name x) files a files' := by
  intro clock
  rcases hx clock with ⟨clock', hend⟩
  exact ⟨clock', by rw [Zd1200.cleaning, hend]⟩

end Operations

end Zd1200
