import Zd1200.Lib.LinkTree
import Zd1200.Release.Members

/-!
# Extracting What the Preflight Accepted

The members of an archive, extracted one after another.

The extraction root is a `Tree`. A member's name is followed from the root
through the symbolic links stored so far. A symbolic link is stored as given
and is later read from the directory it really lies in. A hard link's target
is read from the root, and its last name is not followed, so a hard link to a
symbolic link is a second copy of that link in another directory.

Files and directories lead nowhere new. Once no link leads out, every member's
own name stays inside, having no upward parts (`place_ne_outside`). What the
links do is in the module behind this one.

## Main definitions

* `moves`: A path text as the system reads it.
* `place`, `follow`: Where a text leads in a tree.
* `extract`: One member extracted.
* `Escapes`: A member creates, writes or links to a place outside.

## Theorems

* `extract_grown`: Files and directories only add to the tree.
* `moves_name`: The moves of an accepted name.
* `place_ne_outside`: An accepted name stays inside if the links do.
-/

namespace Zd1200

/-- How many links one resolution may follow, as Linux has it. -/
def maxSymlinks : Nat := 40

/-- One part of a path text as a move. -/
def moveOf (part : Text) : Option (Move Text) :=
  if part = [] ∨ part = ['.'] then none
  else if part = ['.', '.'] then some .up
  else some (.down part)

/-- A path text as the system reads it: none if it starts at the root of the
    whole file system. -/
def moves (text : Text) : Option (List (Move Text)) :=
  if ['/'].isPrefixOf text then none else some ((splitSlash text).filterMap moveOf)

/-- Where a text leads from the extraction root, all links followed. -/
def follow (t : Tree Text) (text : Text) : Place Text :=
  match moves text with
  | none => .outside
  | some path => walk t maxSymlinks [] path

/-- Where the last part of a text lies, that part itself not followed. -/
def place (t : Tree Text) (text : Text) : Place Text :=
  match moves text with
  | none => .outside
  | some path =>
      match path.getLast? with
      | some (.down name) =>
          -- The directories on the way are followed, the last part is not.
          match walk t maxSymlinks [] path.dropLast with
          | .inside dir => if t dir = some .file then .nowhere else .inside (dir ++ [name])
          | .outside => .outside
          | .nowhere => .nowhere
      | _ => walk t maxSymlinks [] path

/-- The tree before extraction: the root directory alone. -/
def emptyRoot : Tree Text := fun path => if path = [] then some .directory else none

/-- Make the directories on the way to `dir` that are not there. -/
def makeDirectories (t : Tree Text) (dir : List Text) : Tree Text :=
  fun path => if t path = none ∧ path.isPrefixOf dir = true then some .directory else t path

/-- Store `node` at `path` unless a directory is there. -/
def store (t : Tree Text) (path : List Text) (node : Node Text) : Tree Text :=
  let t := makeDirectories t path.dropLast
  if t path = some .directory then t else Function.update t path (some node)

/-- Create or rewrite the file at `path`. -/
def writeFile (t : Tree Text) (path : List Text) : Tree Text :=
  let t := makeDirectories t path.dropLast
  if t path = none then Function.update t path (some .file) else t

/-- One member extracted. A member that cannot be extracted changes nothing.
    A link replaces what it finds, except a directory. -/
def extract (t : Tree Text) (member : TarMember) : Tree Text :=
  match member.type with
  | .file =>
      -- A file is written through a link, and a link takes the place of one.
      match follow t member.name with
      | .inside path => writeFile t path
      | _ => t
  | .dir =>
      match place t member.name with
      | .inside path => makeDirectories t path
      | _ => t
  | .sym =>
      match place t member.name with
      | .inside path => store t path (.link (moves member.linkname))
      | _ => t
  | .lnk =>
      match place t member.name, place t member.linkname with
      | .inside path, .inside target =>
          match t target with
          | some .file => store t path .file
          | some (.link text) => store t path (.link text)
          | _ => t
      | _, _ => t
  | .other => t

def extractAll (t : Tree Text) (members : List TarMember) : Tree Text := members.foldl extract t

/-- The tree after the first `k` members. -/
def treeAfter (members : List TarMember) (k : Nat) : Tree Text :=
  extractAll emptyRoot (members.take k)

/-- Extracting `member` creates or writes a place outside the root, reads a
    hard link from outside, or leaves a symbolic link that leads outside. -/
def Escapes (t : Tree Text) (member : TarMember) : Prop :=
  place t member.name = .outside ∨
    (member.type = .file ∧ follow t member.name = .outside) ∨
    (member.type = .lnk ∧ place t member.linkname = .outside) ∨
    ¬ Contained maxSymlinks (extract t member)

/-! ### Files and directories -/

theorem grown_refl (t : Tree Text) : Grown t t := fun _ => Or.inl rfl

theorem grown_makeDirectories (t : Tree Text) (dir : List Text) :
    Grown t (makeDirectories t dir) := by
  intro path
  unfold makeDirectories
  by_cases h : t path = none ∧ path.isPrefixOf dir = true
  · rw [if_pos h]
    exact Or.inr ⟨h.1, Or.inl rfl⟩
  · rw [if_neg h]
    exact Or.inl rfl

theorem grown_writeFile (t : Tree Text) (path : List Text) : Grown t (writeFile t path) := by
  refine (grown_makeDirectories t path.dropLast).trans ?_
  intro other
  simp only [writeFile]
  by_cases hnone : makeDirectories t path.dropLast path = none
  · rw [if_pos hnone]
    by_cases hpath : other = path
    · rw [hpath, Function.update_self]
      exact Or.inr ⟨hnone, Or.inr rfl⟩
    · rw [Function.update_of_ne hpath]
      exact Or.inl rfl
  · rw [if_neg hnone]
    exact Or.inl rfl

/-- Files and directories only add to the tree. -/
theorem extract_grown (t : Tree Text) (member : TarMember)
    (htype : member.type ≠ .sym ∧ member.type ≠ .lnk) : Grown t (extract t member) := by
  unfold extract
  cases hkind : member.type with
  | file =>
      cases follow t member.name with
      | inside path => exact grown_writeFile t path
      | outside => exact grown_refl t
      | nowhere => exact grown_refl t
  | dir =>
      cases place t member.name with
      | inside path => exact grown_makeDirectories t path
      | outside => exact grown_refl t
      | nowhere => exact grown_refl t
  | sym => exact absurd hkind htype.1
  | lnk => exact absurd hkind htype.2
  | other => exact grown_refl t

/-- The moves of an accepted name. -/
theorem moves_name (name normalized : Text) (h : safeMemberName name = .ok normalized) :
    moves name = some ((namePath name).map .down) := by
  rcases safeMemberName_parts name normalized h with ⟨hroot, hup⟩
  have hrel := (slashRoot_eq_nil_iff name).mp hroot
  rw [moves, hrel, if_neg Bool.false_ne_true, Option.some.injEq, namePath, purePosixPath]
  -- Part by part, nothing goes up.
  generalize splitSlash name = parts at hup
  induction parts with
  | nil => rfl
  | cons part rest ih =>
      rw [List.mem_cons, not_or] at hup
      have ih := ih hup.2
      by_cases hskip : part = [] ∨ part = ['.']
      · rw [List.filterMap_cons_none (by rw [moveOf, if_pos hskip]), ih, List.filter_cons_of_neg]
        rw [decide_eq_true_eq, ← not_or, not_not]
        exact hskip
      · rw [List.filterMap_cons_some (by rw [moveOf, if_neg hskip, if_neg (Ne.symm hup.1)]), ih,
          List.filter_cons_of_pos, List.map_cons]
        rw [decide_eq_true_eq, ← not_or]
        exact hskip

/-- An accepted name stays inside if the links do, followed to the end or not. -/
theorem place_ne_outside (t : Tree Text) (hc : Contained maxSymlinks t) (name normalized : Text)
    (h : safeMemberName name = .ok normalized) :
    place t name ≠ .outside ∧ follow t name ≠ .outside := by
  have hpath := moves_name name normalized h
  have hdown := descends_map_down (namePath name)
  generalize (namePath name).map Move.down = path at hpath hdown
  have hall := walk_ne_outside_of_descends t maxSymlinks hc path hdown maxSymlinks le_rfl []
  have hinit := walk_ne_outside_of_descends t maxSymlinks hc path.dropLast
    (fun m hm => hdown m (List.dropLast_subset _ hm)) maxSymlinks le_rfl []
  refine ⟨?_, by simp only [follow, hpath]; exact hall⟩
  simp only [place, hpath]
  split
  · split
    · split
      · exact fun h => absurd h (by simp only [reduceCtorEq, not_false_eq_true])
      · exact fun h => absurd h (by simp only [reduceCtorEq, not_false_eq_true])
    · next hout => exact absurd hout hinit
    · exact fun h => absurd h (by simp only [reduceCtorEq, not_false_eq_true])
  · exact hall

theorem no_link_emptyRoot (path : List Text) (target : Option (List (Move Text))) :
    emptyRoot path ≠ some (.link target) := by
  unfold emptyRoot
  by_cases hpath : path = []
  · rw [if_pos hpath]
    simp only [ne_eq, Option.some.injEq, reduceCtorEq, not_false_eq_true]
  · rw [if_neg hpath]
    simp only [ne_eq, reduceCtorEq, not_false_eq_true]

theorem treeAfter_succ (members : List TarMember) (k : Nat) (hk : k < members.length) :
    treeAfter members (k + 1) = extract (treeAfter members k) members[k] := by
  rw [treeAfter, treeAfter, extractAll, extractAll, List.take_succ_eq_append_getElem hk,
    List.foldl_append]
  rfl

end Zd1200
