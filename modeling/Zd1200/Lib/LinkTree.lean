import Mathlib.Data.List.Basic
import Mathlib.Logic.Function.Basic

/-!
# Trees with Symbolic Links

How a path is followed in a tree that contains symbolic links, and when it
can leave the tree.

A path is a list of moves, each of which goes up or down by one name. Going
up from the root leaves the tree. Going down to a link continues with the
link's own moves, read from the directory the link lies in, before the rest
of the path. Every link met costs one unit of the budget, as a system's limit
on the links of one resolution does, and a path that runs out of it leads
nowhere. A name that is not there yet is taken for a directory that could be
made, so a path is judged by where it would lead.

The reason for the file is `walk_ne_outside_of_descends`: if no link of the
tree leads out of it from where it lies, then no path without upward moves
does. The obstacle is that a link is followed in the middle of a longer path
and with less than the full budget, which `walk_append_outside` and
`walk_outside_mono` take care of. A path leaves the tree in its first half or
in its second half, and a larger budget can only make it leave sooner.

## Main definitions

* `Move`: One step of a path, up or down.
* `Tree`: What lies at each place: a directory, a file or a link.
* `walk`: Following a path with a budget of links.
* `Contained`: No link of the tree leads out of it.
* `Grown`: Only directories and files were added.

## Theorems

* `walk_outside_mono`: A larger budget does not keep a path inside.
* `walk_append_outside`: A path leaves the tree in one of its halves.
* `walk_ne_outside_of_descends`: Contained links keep descending paths inside.
-/

namespace Zd1200

section LinkTree

variable {α : Type}

/-- One step of a path. -/
inductive Move (α : Type)
  | up
  | down (name : α)
  deriving DecidableEq

/-- What lies at a place. A link holds the moves of its target, or none if the
    target starts at the file system's own root. -/
inductive Node (α : Type)
  | directory
  | file
  | link (target : Option (List (Move α)))
  deriving DecidableEq

/-- A tree gives what lies at each place, named by the path down from the root. -/
abbrev Tree (α : Type) := List α → Option (Node α)

/-- Where a path leads. -/
inductive Place (α : Type)
  | inside (path : List α)
  | outside
  | nowhere
  deriving DecidableEq

/-- Follow a path from the directory `dir`, handing over to `follow` at the
    first link. -/
def walkWith (follow : List α → List (Move α) → Place α) (t : Tree α) :
    List α → List (Move α) → Place α
  | dir, [] => .inside dir
  | dir, .up :: rest => if dir = [] then .outside else walkWith follow t dir.dropLast rest
  | dir, .down name :: rest =>
      match t (dir ++ [name]) with
      | some (.link none) => .outside
      | some (.link (some target)) => follow dir (target ++ rest)
      | some .file => if rest = [] then .inside (dir ++ [name]) else .nowhere
      | some .directory => walkWith follow t (dir ++ [name]) rest
      | none => walkWith follow t (dir ++ [name]) rest

/-- Follow a path from the directory `dir`, through at most `budget` links. -/
def walk (t : Tree α) : Nat → List α → List (Move α) → Place α
  | 0 => walkWith (fun _ _ => .nowhere) t
  | budget + 1 => walkWith (walk t budget) t

/-- No link, read from the directory it lies in, leads out of the tree. -/
def Contained (budget : Nat) (t : Tree α) : Prop :=
  ∀ path target, t path = some (.link target) →
    ∃ moves, target = some moves ∧ walk t budget path.dropLast moves ≠ .outside

/-- Only directories and files were added to the tree. -/
def Grown (t t' : Tree α) : Prop :=
  ∀ path, t' path = t path ∨
    (t path = none ∧ (t' path = some .directory ∨ t' path = some .file))

/-- What one budget unit does: following is handed over with one unit less. -/
theorem walkWith_outside_imp (follow follow' : List α → List (Move α) → Place α) (t : Tree α)
    (hf : ∀ dir moves, follow dir moves = .outside → follow' dir moves = .outside)
    (moves : List (Move α)) :
    ∀ dir, walkWith follow t dir moves = .outside → walkWith follow' t dir moves = .outside := by
  induction moves with
  | nil => intro dir h; exact h
  | cons m rest ih =>
      intro dir h
      cases m with
      | up =>
          by_cases hdir : dir = []
          · simp only [walkWith, if_pos hdir]
          · simp only [walkWith, if_neg hdir] at h ⊢
            exact ih _ h
      | down name =>
          simp only [walkWith] at h ⊢
          rcases hnode : t (dir ++ [name]) with _ | (_ | _ | (_ | target))
          · simp only [hnode] at h ⊢
            exact ih _ h
          · simp only [hnode] at h ⊢
            exact ih _ h
          · simp only [hnode] at h ⊢
            exact h
          · rfl
          · simp only [hnode] at h ⊢
            exact hf _ _ h

/-- A larger budget does not keep a path inside. -/
theorem walk_outside_succ (t : Tree α) (budget : Nat) :
    ∀ dir moves, walk t budget dir moves = .outside → walk t (budget + 1) dir moves = .outside := by
  induction budget with
  | zero =>
      intro dir moves h
      exact walkWith_outside_imp _ _ t
        (fun _ _ h => absurd h (by simp only [reduceCtorEq, not_false_eq_true])) moves dir h
  | succ budget ih =>
      intro dir moves h
      exact walkWith_outside_imp _ _ t ih moves dir h

theorem walk_outside_mono (t : Tree α) (budget budget' : Nat) (hle : budget ≤ budget')
    (dir : List α) (moves : List (Move α)) (h : walk t budget dir moves = .outside) :
    walk t budget' dir moves = .outside := by
  induction hle with
  | refl => exact h
  | step _ ih => exact walk_outside_succ t _ dir moves ih

/-- The halves of a path, given the halves of what is left at the first link. -/
theorem walkWith_append_outside (follow walkAll : List α → List (Move α) → Place α) (t : Tree α)
    (hall : ∀ dir moves, walkWith follow t dir moves = .outside → walkAll dir moves = .outside)
    (hf : ∀ dir first second, follow dir (first ++ second) = .outside →
      follow dir first = .outside ∨
        ∃ d, follow dir first = .inside d ∧ walkAll d second = .outside)
    (first second : List (Move α)) :
    ∀ dir, walkWith follow t dir (first ++ second) = .outside →
      walkWith follow t dir first = .outside ∨
        ∃ d, walkWith follow t dir first = .inside d ∧ walkAll d second = .outside := by
  induction first with
  | nil => intro dir h; exact Or.inr ⟨dir, rfl, hall dir second h⟩
  | cons m rest ih =>
      intro dir h
      cases m with
      | up =>
          by_cases hdir : dir = []
          · exact Or.inl (by simp only [walkWith, if_pos hdir])
          · simp only [List.cons_append, walkWith, if_neg hdir] at h ⊢
            exact ih _ h
      | down name =>
          simp only [List.cons_append, walkWith] at h ⊢
          rcases hnode : t (dir ++ [name]) with _ | (_ | _ | (_ | target))
          · simp only [hnode] at h ⊢
            exact ih _ h
          · simp only [hnode] at h ⊢
            exact ih _ h
          · -- A file ends the path, so the second half was not entered.
            simp only [hnode] at h
            by_cases hrest : rest ++ second = []
            · rw [if_pos hrest] at h
              exact absurd h (by simp only [reduceCtorEq, not_false_eq_true])
            · rw [if_neg hrest] at h
              exact absurd h (by simp only [reduceCtorEq, not_false_eq_true])
          · exact Or.inl rfl
          · simp only [hnode] at h ⊢
            rw [← List.append_assoc] at h
            exact hf dir (target ++ rest) second h

/-- A path leaves the tree in its first half or, from where that leads, in its
    second. -/
theorem walk_append_outside (t : Tree α) (budget : Nat) :
    ∀ dir first second, walk t budget dir (first ++ second) = .outside →
      walk t budget dir first = .outside ∨
        ∃ d, walk t budget dir first = .inside d ∧ walk t budget d second = .outside := by
  induction budget with
  | zero =>
      intro dir first second
      exact walkWith_append_outside _ _ t (fun _ _ h => h)
        (fun _ _ _ h => absurd h (by simp only [reduceCtorEq, not_false_eq_true])) first second dir
  | succ budget ih =>
      intro dir first second
      refine walkWith_append_outside _ _ t (fun _ _ h => h) ?_ first second dir
      intro dir first second h
      rcases ih dir first second h with h | ⟨d, hd, h⟩
      · exact Or.inl h
      · exact Or.inr ⟨d, hd, walk_outside_succ t budget d second h⟩

theorem descends_map_down (names : List α) : ∀ m ∈ names.map Move.down, m ≠ .up := by
  intro m hm
  rcases List.mem_map.mp hm with ⟨name, -, rfl⟩
  exact fun heq => absurd heq (by simp only [reduceCtorEq, not_false_eq_true])

/-- If no link leads out of the tree, no path without upward moves does. -/
theorem walk_ne_outside_of_descends (t : Tree α) (limit : Nat) (hc : Contained limit t)
    (moves : List (Move α)) (hdown : ∀ m ∈ moves, m ≠ .up) :
    ∀ budget, budget ≤ limit → ∀ dir, walk t budget dir moves ≠ .outside := by
  induction moves with
  | nil =>
      intro budget _ dir
      cases budget with
      | zero => simp only [walk, walkWith, ne_eq, reduceCtorEq, not_false_eq_true]
      | succ budget => simp only [walk, walkWith, ne_eq, reduceCtorEq, not_false_eq_true]
  | cons m rest ih =>
      intro budget hle dir h
      have ih := ih fun m hm => hdown m (List.mem_cons_of_mem _ hm)
      cases m with
      | up => exact hdown .up List.mem_cons_self rfl
      | down name =>
          rcases hnode : t (dir ++ [name]) with _ | (_ | _ | target)
          · cases budget <;> simp only [walk, walkWith, hnode] at h <;> exact ih _ hle _ h
          · cases budget <;> simp only [walk, walkWith, hnode] at h <;> exact ih _ hle _ h
          · by_cases hrest : rest = []
            · cases budget <;> simp only [walk, walkWith, hnode, if_pos hrest, reduceCtorEq] at h
            · cases budget <;> simp only [walk, walkWith, hnode, if_neg hrest, reduceCtorEq] at h
          · rcases hc _ target hnode with ⟨own, rfl, hown⟩
            rw [List.dropLast_concat] at hown
            cases budget with
            | zero => simp only [walk, walkWith, hnode, reduceCtorEq] at h
            | succ budget =>
                simp only [walk, walkWith, hnode] at h
                -- The link stays inside, so the path would have to leave after it.
                rcases walk_append_outside t budget dir own rest h with h | ⟨d, -, h⟩
                · exact hown (walk_outside_mono t budget limit (by omega) dir own h)
                · exact ih budget (by omega) d h

theorem Grown.trans {t t' t'' : Tree α} (h : Grown t t') (h' : Grown t' t'') : Grown t t'' := by
  intro path
  -- A place is filled at most once.
  rcases h' path with hsame' | ⟨hnone', hnew'⟩
  · rw [hsame']
    exact h path
  · rcases h path with hsame | ⟨hnone, hnew⟩
    · exact Or.inr ⟨hsame ▸ hnone', hnew'⟩
    · exact Or.inr ⟨hnone, hnew'⟩

end LinkTree

end Zd1200
