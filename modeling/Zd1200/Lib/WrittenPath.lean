import Zd1200.Lib.LinkTree

/-!
# Paths as They Are Written

What can be said of a path without following the links on its way.

A path can be taken as if nothing on its way was a link. That reading is right
where no link is passed (`walk_of_clear`). Where links are passed it still bounds
the path, if every link stays inside as it is written and nothing goes up again
behind a link (`walk_ne_outside_of_straight`).

Where the links are need not be known. It is enough to know of places where a
link may be: a predicate `links` that holds at least of those where one is.

A path whose upward moves all stand in front passes no link before it has gone
up. So if it goes up too far it leads out, whatever the tree is
(`walk_of_not_stays`).

## Main definitions

* `reads`: Where a path leads if it passes no link.
* `StaysIn`: It never goes up from the root.
* `ClearOf`: It passes no link.
* `DescendsBehind`: It does not go up behind a link.
* `UpwardFirst`: All its upward moves stand in front.
* `StraightLinks`: Links that stay inside as they are written.

## Theorems

* `walk_ne_outside_of_straight`: No straight path leads out of straight links.
* `walk_of_clear`: A path without a link on the way leads where it reads.
* `walk_not_link`: No path ends at a link.
* `walk_of_not_stays`: A path that goes up too far in front leads out.
* `walk_of_directories`: A path through directories.
-/

namespace Zd1200

section WrittenPath

variable {α : Type}

/-- Where a path leads if nothing on the way is a link. -/
def reads (dir : List α) (path : List (Move α)) : List α :=
  path.foldl (fun dir m => match m with | .up => dir.dropLast | .down name => dir ++ [name]) dir

/-- The path, as it is written, never goes up from the root. -/
def StaysIn : List α → List (Move α) → Prop
  | _, [] => True
  | dir, .up :: rest => dir ≠ [] ∧ StaysIn dir.dropLast rest
  | dir, .down name :: rest => StaysIn (dir ++ [name]) rest

/-- The path, as it is written, goes down to no link. -/
def ClearOf (links : List α → Prop) : List α → List (Move α) → Prop
  | _, [] => True
  | dir, .up :: rest => ClearOf links dir.dropLast rest
  | dir, .down name :: rest => ¬ links (dir ++ [name]) ∧ ClearOf links (dir ++ [name]) rest

/-- Behind a link the path only goes down. -/
def DescendsBehind (links : List α → Prop) : List α → List (Move α) → Prop
  | _, [] => True
  | dir, .up :: rest => DescendsBehind links dir.dropLast rest
  | dir, .down name :: rest =>
      (links (dir ++ [name]) → ∀ m ∈ rest, m ≠ .up) ∧ DescendsBehind links (dir ++ [name]) rest

/-- The path goes up only in front. -/
def UpwardFirst : List (Move α) → Prop
  | [] => True
  | .up :: rest => UpwardFirst rest
  | .down _ :: rest => ∀ m ∈ rest, m ≠ .up

/-- Every link of the tree is where one may be, and none of them leads out of the
    tree as it is written or goes up behind another one. -/
def StraightLinks (links : List α → Prop) (t : Tree α) : Prop :=
  ∀ path target, t path = some (.link target) →
    links path ∧ ∃ moves, target = some moves ∧ StaysIn path.dropLast moves ∧
      DescendsBehind links path.dropLast moves

instance decidableStaysIn [DecidableEq α] :
    (dir : List α) → (path : List (Move α)) → Decidable (StaysIn dir path)
  | _, [] => isTrue trivial
  | dir, .up :: rest =>
      have := decidableStaysIn dir.dropLast rest
      inferInstanceAs (Decidable (dir ≠ [] ∧ StaysIn dir.dropLast rest))
  | dir, .down name :: rest => decidableStaysIn (dir ++ [name]) rest

instance decidableClearOf (links : List α → Prop) [DecidablePred links] :
    (dir : List α) → (path : List (Move α)) → Decidable (ClearOf links dir path)
  | _, [] => isTrue trivial
  | dir, .up :: rest => decidableClearOf links dir.dropLast rest
  | dir, .down name :: rest =>
      have := decidableClearOf links (dir ++ [name]) rest
      inferInstanceAs (Decidable (¬ links (dir ++ [name]) ∧ ClearOf links (dir ++ [name]) rest))

instance decidableDescendsBehind [DecidableEq α] (links : List α → Prop) [DecidablePred links] :
    (dir : List α) → (path : List (Move α)) → Decidable (DescendsBehind links dir path)
  | _, [] => isTrue trivial
  | dir, .up :: rest => decidableDescendsBehind links dir.dropLast rest
  | dir, .down name :: rest =>
      have := decidableDescendsBehind links (dir ++ [name]) rest
      inferInstanceAs (Decidable ((links (dir ++ [name]) → ∀ m ∈ rest, m ≠ .up) ∧
        DescendsBehind links (dir ++ [name]) rest))

instance decidableUpwardFirst [DecidableEq α] :
    (path : List (Move α)) → Decidable (UpwardFirst path)
  | [] => isTrue trivial
  | .up :: rest => decidableUpwardFirst rest
  | .down _ :: rest => inferInstanceAs (Decidable (∀ m ∈ rest, m ≠ .up))

theorem stays_of_descends (path : List (Move α)) (h : ∀ m ∈ path, m ≠ .up) (dir : List α) :
    StaysIn dir path := by
  induction path generalizing dir with
  | nil => exact trivial
  | cons m rest ih =>
      cases m with
      | up => exact absurd rfl (h .up List.mem_cons_self)
      | down name => exact ih (fun m hm => h m (List.mem_cons_of_mem _ hm)) _

theorem descendsBehind_of_descends (links : List α → Prop) (path : List (Move α))
    (h : ∀ m ∈ path, m ≠ .up) (dir : List α) : DescendsBehind links dir path := by
  induction path generalizing dir with
  | nil => exact trivial
  | cons m rest ih =>
      have hrest := fun m hm => h m (List.mem_cons_of_mem _ hm)
      cases m with
      | up => exact absurd rfl (h .up List.mem_cons_self)
      | down name => exact ⟨fun _ => hrest, ih hrest _⟩

/-- A path without upward moves goes on behind one that is straight. -/
theorem descendsBehind_append (links : List α → Prop) (first second : List (Move α))
    (hsecond : ∀ m ∈ second, m ≠ .up) (dir : List α) (h : DescendsBehind links dir first) :
    DescendsBehind links dir (first ++ second) := by
  induction first generalizing dir with
  | nil => exact descendsBehind_of_descends links second hsecond dir
  | cons m rest ih =>
      cases m with
      | up => exact ih _ h
      | down name =>
          refine ⟨fun hplace m hm => ?_, ih _ h.2⟩
          rcases List.mem_append.mp hm with hm | hm
          · exact h.1 hplace m hm
          · exact hsecond m hm

theorem stays_append (first second : List (Move α)) (hsecond : ∀ m ∈ second, m ≠ .up)
    (dir : List α) (h : StaysIn dir first) : StaysIn dir (first ++ second) := by
  induction first generalizing dir with
  | nil => exact stays_of_descends second hsecond dir
  | cons m rest ih =>
      cases m with
      | up => exact ⟨h.1, ih _ h.2⟩
      | down name => exact ih _ h

theorem stays_front (first second : List (Move α)) (dir : List α)
    (h : StaysIn dir (first ++ second)) : StaysIn dir first := by
  induction first generalizing dir with
  | nil => exact trivial
  | cons m rest ih =>
      cases m with
      | up => exact ⟨h.1, ih _ h.2⟩
      | down name => exact ih _ h

theorem descendsBehind_front (links : List α → Prop) (first second : List (Move α)) (dir : List α)
    (h : DescendsBehind links dir (first ++ second)) : DescendsBehind links dir first := by
  induction first generalizing dir with
  | nil => exact trivial
  | cons m rest ih =>
      cases m with
      | up => exact ih _ h
      | down name =>
          exact ⟨fun hlink m hm => h.1 hlink m (List.mem_append_left _ hm), ih _ h.2⟩

-- What goes up in front goes up behind nothing.
theorem descendsBehind_of_upwardFirst (links : List α → Prop) (path : List (Move α))
    (h : UpwardFirst path) (dir : List α) : DescendsBehind links dir path := by
  induction path generalizing dir with
  | nil => exact trivial
  | cons m rest ih =>
      cases m with
      | up => exact ih h _
      | down name => exact ⟨fun _ => h, descendsBehind_of_descends links rest h _⟩

theorem descends_of_upwardFirst (path : List (Move α)) (h : UpwardFirst path)
    (hhead : path.head? ≠ some .up) : ∀ m ∈ path, m ≠ .up := by
  cases path with
  | nil => exact fun m hm => absurd hm List.not_mem_nil
  | cons m rest =>
      cases m with
      | up => exact absurd rfl hhead
      | down name =>
          intro m hm
          rcases List.mem_cons.mp hm with rfl | hm
          · exact fun heq => absurd heq (by simp only [reduceCtorEq, not_false_eq_true])
          · exact h m hm

theorem exists_names (path : List (Move α)) (h : ∀ m ∈ path, m ≠ .up) :
    ∃ names : List α, path = names.map .down := by
  induction path with
  | nil => exact ⟨[], rfl⟩
  | cons m rest ih =>
      rcases ih fun m hm => h m (List.mem_cons_of_mem _ hm) with ⟨names, rfl⟩
      cases m with
      | up => exact absurd rfl (h .up List.mem_cons_self)
      | down name => exact ⟨name :: names, rfl⟩

-- A path down is clear if no place on it is a link.
theorem clearOf_down (links : List α → Prop) (names dir : List α)
    (h : ∀ p, p <+: names → p ≠ [] → ¬ links (dir ++ p)) : ClearOf links dir (names.map .down) := by
  induction names generalizing dir with
  | nil => exact trivial
  | cons name names ih =>
      refine ⟨h [name] ⟨names, rfl⟩ (List.cons_ne_nil _ _), ih _ fun p hp _ => ?_⟩
      rw [List.append_assoc, List.singleton_append]
      exact h (name :: p) (List.cons_prefix_cons.mpr ⟨rfl, hp⟩) (List.cons_ne_nil _ _)

theorem clearOf_mono {links links' : List α → Prop} (h : ∀ p, links p → links' p)
    (path : List (Move α)) (dir : List α) (hclear : ClearOf links' dir path) :
    ClearOf links dir path := by
  induction path generalizing dir with
  | nil => exact trivial
  | cons m rest ih =>
      cases m with
      | up => exact ih _ hclear
      | down name => exact ⟨fun hlink => hclear.1 (h _ hlink), ih _ hclear.2⟩

theorem clear_concat_up (links : List α → Prop) (path : List (Move α)) (dir : List α)
    (h : ClearOf links dir path) : ClearOf links dir (path ++ [.up]) := by
  induction path generalizing dir with
  | nil => exact trivial
  | cons m rest ih =>
      cases m with
      | up => exact ih _ h
      | down name => exact ⟨h.1, ih _ h.2⟩

theorem reads_append (first second : List (Move α)) (dir : List α) :
    reads dir (first ++ second) = reads (reads dir first) second := List.foldl_append

theorem reads_down (names dir : List α) : reads dir (names.map .down) = dir ++ names := by
  induction names generalizing dir with
  | nil => exact (List.append_nil dir).symm
  | cons name names ih =>
      refine (ih (dir ++ [name])).trans ?_
      rw [List.append_assoc, List.singleton_append]

/-- In a tree of straight links, no straight path leads out. -/
theorem walk_ne_outside_of_straight (links : List α → Prop) (t : Tree α)
    (hlinks : StraightLinks links t) (budget : Nat) :
    ∀ dir path, StaysIn dir path → DescendsBehind links dir path →
      walk t budget dir path ≠ .outside := by
  -- What follows a link is straight again: the link's own moves, and downward moves behind them.
  have hstep : ∀ follow : List α → List (Move α) → Place α,
      (∀ dir path, StaysIn dir path → DescendsBehind links dir path →
        follow dir path ≠ .outside) →
      ∀ path dir, StaysIn dir path → DescendsBehind links dir path →
        walkWith follow t dir path ≠ .outside := by
    intro follow hfollow path
    induction path with
    | nil => exact fun dir _ _ => by simp only [walkWith, ne_eq, reduceCtorEq, not_false_eq_true]
    | cons m rest ih =>
        intro dir hstays hdescends
        cases m with
        | up =>
            rw [walkWith, if_neg hstays.1]
            exact ih _ hstays.2 hdescends
        | down name =>
            rw [walkWith]
            rcases hnode : t (dir ++ [name]) with _ | (_ | _ | target)
            · exact ih _ hstays hdescends.2
            · exact ih _ hstays hdescends.2
            · simp only
              split
              · exact fun h => absurd h (by simp only [reduceCtorEq, not_false_eq_true])
              · exact fun h => absurd h (by simp only [reduceCtorEq, not_false_eq_true])
            -- A link: its moves go on from its directory, and the rest only goes down.
            · rcases hlinks _ target hnode with ⟨hplace, own, rfl, hown, hbehind⟩
              rw [List.dropLast_concat] at hown hbehind
              have hrest := hdescends.1 hplace
              exact hfollow dir (own ++ rest) (stays_append own rest hrest dir hown)
                (descendsBehind_append links own rest hrest dir hbehind)
  -- The induction on the budget follows links, that inside it the parts of one path.
  induction budget with
  | zero =>
      exact fun dir path => hstep _ (fun _ _ _ _ h => absurd h
        (by simp only [reduceCtorEq, not_false_eq_true])) path dir
  | succ budget ih => exact fun dir path => hstep _ ih path dir

/-- Straight links stay inside. -/
theorem contained_of_straight (links : List α → Prop) (t : Tree α)
    (hlinks : StraightLinks links t) (limit : Nat) : Contained limit t := by
  intro path target h
  rcases hlinks path target h with ⟨-, moves, hmoves, hstays, hbehind⟩
  exact ⟨moves, hmoves, walk_ne_outside_of_straight links t hlinks limit _ moves hstays hbehind⟩

/-- A path without a link on the way leads where it reads, if it leads anywhere
    inside. -/
theorem walk_of_clear (links : List α → Prop) (t : Tree α)
    (hlinks : ∀ path target, t path = some (.link target) → links path) (budget : Nat)
    (path : List (Move α)) : ∀ dir d, ClearOf links dir path → walk t budget dir path = .inside d →
      d = reads dir path := by
  have hstep : ∀ follow : List α → List (Move α) → Place α, ∀ path dir d,
      ClearOf links dir path → walkWith follow t dir path = .inside d → d = reads dir path := by
    intro follow path
    induction path with
    | nil => exact fun dir d _ h => (Place.inside.inj h).symm
    | cons m rest ih =>
        intro dir d hclear h
        cases m with
        | up =>
            rw [walkWith] at h
            split at h
            · exact absurd h (by simp only [reduceCtorEq, not_false_eq_true])
            · exact ih _ d hclear h
        | down name =>
            rw [walkWith] at h
            rcases hnode : t (dir ++ [name]) with _ | (_ | _ | target)
            · rw [hnode] at h
              exact ih _ d hclear.2 h
            · rw [hnode] at h
              exact ih _ d hclear.2 h
            · rw [hnode] at h
              simp only at h
              split at h
              · next hrest =>
                rw [hrest]
                exact (Place.inside.inj h).symm
              · exact absurd h (by simp only [reduceCtorEq, not_false_eq_true])
            -- A clear path meets no link.
            · exact absurd (hlinks _ target hnode) hclear.1
  cases budget with
  | zero => exact hstep _ path
  | succ budget => exact hstep _ path

/-- No path ends at a link, nor below one. -/
theorem walk_not_link (t : Tree α) (budget : Nat) :
    ∀ path dir d, (∀ p, p <+: dir → ∀ target, t p ≠ some (.link target)) →
      walk t budget dir path = .inside d → ∀ p, p <+: d → ∀ target, t p ≠ some (.link target) := by
  have hstep : ∀ follow : List α → List (Move α) → Place α,
      (∀ path dir d, (∀ p, p <+: dir → ∀ target, t p ≠ some (.link target)) →
        follow dir path = .inside d → ∀ p, p <+: d → ∀ target, t p ≠ some (.link target)) →
      ∀ path dir d, (∀ p, p <+: dir → ∀ target, t p ≠ some (.link target)) →
        walkWith follow t dir path = .inside d →
          ∀ p, p <+: d → ∀ target, t p ≠ some (.link target) := by
    intro follow hfollow path
    induction path with
    | nil => exact fun dir d hdir h => Place.inside.inj h ▸ hdir
    | cons m rest ih =>
        intro dir d hdir h
        cases m with
        | up =>
            rw [walkWith] at h
            split at h
            · exact absurd h (by simp only [reduceCtorEq, not_false_eq_true])
            · exact ih _ d (fun p hp => hdir p (hp.trans (List.dropLast_prefix dir))) h
        | down name =>
            have hdown : (∀ target, t (dir ++ [name]) ≠ some (.link target)) →
                ∀ p, p <+: dir ++ [name] → ∀ target, t p ≠ some (.link target) := by
              intro hnew p hp
              rcases List.prefix_concat_iff.mp hp with rfl | hp
              · exact hnew
              · exact hdir p hp
            rw [walkWith] at h
            rcases hnode : t (dir ++ [name]) with _ | (_ | _ | target)
            · rw [hnode] at h
              exact ih _ d (hdown fun target heq => by
                rw [hnode] at heq
                exact absurd heq (by simp only [reduceCtorEq, not_false_eq_true])) h
            · rw [hnode] at h
              exact ih _ d (hdown fun target heq => by
                rw [hnode] at heq
                exact absurd heq (by simp only [Option.some.injEq, reduceCtorEq,
                  not_false_eq_true])) h
            · rw [hnode] at h
              simp only at h
              split at h
              · rw [← Place.inside.inj h]
                exact hdown fun target heq => by
                  rw [hnode] at heq
                  exact absurd heq (by simp only [Option.some.injEq, reduceCtorEq,
                    not_false_eq_true])
              · exact absurd h (by simp only [reduceCtorEq, not_false_eq_true])
            · rw [hnode] at h
              cases target with
              | none => exact absurd h (by simp only [reduceCtorEq, not_false_eq_true])
              -- Following a link starts again in the directory that it is in.
              | some own => exact hfollow (own ++ rest) dir d hdir h
  induction budget with
  | zero =>
      exact hstep _ fun _ _ _ _ h => absurd h (by simp only [reduceCtorEq, not_false_eq_true])
  | succ budget ih => exact hstep _ ih

/-- A path that goes up too far in front leads out, whatever is in the tree. -/
theorem walk_of_not_stays (t : Tree α) (budget : Nat) (path : List (Move α))
    (hfront : UpwardFirst path) (dir : List α) (h : ¬ StaysIn dir path) :
    walk t budget dir path = .outside := by
  have hup : ∀ dir rest, walk t budget dir (.up :: rest) =
      if dir = [] then .outside else walk t budget dir.dropLast rest := by
    intro dir rest
    cases budget <;> rfl
  induction path generalizing dir with
  | nil => exact absurd trivial h
  | cons m rest ih =>
      cases m with
      | up =>
          rw [hup]
          split
          · rfl
          · next hdir => exact ih hfront _ fun hstays => h ⟨hdir, hstays⟩
      -- Once it goes down it only goes down, and cannot have left.
      | down name => exact absurd (stays_of_descends rest hfront _) h

/-- A path through directories, and places where one can be made, leads where it
    reads. -/
theorem walk_of_directories (t : Tree α) (budget : Nat) (names dir : List α)
    (h : ∀ p, p <+: names → p ≠ [] → t (dir ++ p) = none ∨ t (dir ++ p) = some .directory) :
    walk t budget dir (names.map .down) = .inside (dir ++ names) := by
  have hdown : ∀ dir name rest, t (dir ++ [name]) = none ∨ t (dir ++ [name]) = some .directory →
      walk t budget dir (.down name :: rest) = walk t budget (dir ++ [name]) rest := by
    intro dir name rest hnode
    rcases hnode with hnode | hnode
    · cases budget <;> simp only [walk, walkWith, hnode]
    · cases budget <;> simp only [walk, walkWith, hnode]
  induction names generalizing dir with
  | nil =>
      rw [List.append_nil]
      cases budget <;> rfl
  | cons name names ih =>
      have hfirst : [name] <+: name :: names := ⟨names, rfl⟩
      rw [List.map_cons, hdown dir name _ (h [name] hfirst (List.cons_ne_nil _ _)), ih]
      · rw [List.append_assoc, List.singleton_append]
      · intro p hp _
        rw [List.append_assoc, List.singleton_append]
        exact h (name :: p) (List.cons_prefix_cons.mpr ⟨rfl, hp⟩) (List.cons_ne_nil _ _)

end WrittenPath

end Zd1200
