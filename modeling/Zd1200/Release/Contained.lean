import Zd1200.Lib.WrittenPath
import Zd1200.Release.Extract

/-!
# Archives That Stay Inside

What the preflight says about where the members of an archive go.

The verifier reads every target from the directory part of the link's own
name, with every `..` taken back with the name in front of it. Extraction reads
a hard link's target from the root, a symbolic link's from wherever the link has
come to lie, and both of them through the links on the way. So the two readings
differ in a `..` only: one that a hard link's target begins with, one that stands
behind a link, and one in the text of a link that lies elsewhere than its name
says. `checkMembers_escape` is the shortest archive that is accepted and leaves
the root.

`LinksStraight` excludes these, in terms of the names and texts of the archive.
A link lies where its name says if the name goes through no place where a link
may be (`NamedLink`). One that may lie elsewhere still has the last part of its
name there, and this is enough to know where links may be: `treeLinks_treeAfter`
holds of every archive that is accepted.

The verifier's check is right for symbolic links that lie where they should
(`safeLinkTarget_stays`). What it misses is left to hard links: a target that
leads out, and a copy of a symbolic link in a directory from which its text leads
out. In an archive of the usual layout (`PlainArchive`) they are all that can go
wrong, so that the condition is exact.

## Main definitions

* `NamedLink`: A link that an archive names.
* `MayBeLink`: Where a link may be.
* `linksNamed`: The links of an archive.
* `LinksStraight`: No `..` is read in two ways.
* `PlainArchive`: Only directories have members below them, and every `..` stands
  in front.

## Theorems

* `safeLinkTarget_stays`: An accepted target stays inside as it is written.
* `treeLinks_treeAfter`: The links of the tree are those that are named.
* `plainTree_treeAfter`: In a plain archive they are all there.
* `checkMembers_contained`: An accepted archive whose links are straight stays
  inside, and a plain one only then.
-/

namespace Zd1200

/-! ### Links as the archive names them -/

/-- A link that an archive names: a symbolic link, or a hard link to one. -/
structure NamedLink where
  path : List Text
  text : List (Move Text)
  /-- It is a hard link. -/
  isCopy : Bool
  /-- It lies where its name says. -/
  isPlaced : Bool
  deriving DecidableEq

/-- A link may be there. One that lies elsewhere than its name says has the last
    part of its name there. -/
def MayBeLink (links : List NamedLink) (path : List Text) : Prop :=
  ∃ l ∈ links, (l.isPlaced = true ∧ l.path = path) ∨
    (l.isPlaced = false ∧ l.path.getLast? = path.getLast?)

instance (links : List NamedLink) : DecidablePred (MayBeLink links) := fun _ =>
  inferInstanceAs (Decidable (∃ l ∈ links, _))

/-- The path comes to its last part without a link. -/
def Reached (links : List NamedLink) (path : List (Move Text)) : Prop :=
  ClearOf (MayBeLink links) [] path.dropLast

instance (links : List NamedLink) (path : List (Move Text)) : Decidable (Reached links path) :=
  inferInstanceAs (Decidable (ClearOf _ _ _))

/-- A hard link's target may be the link. -/
def NamedLink.MeantBy (links : List NamedLink) (path : List (Move Text)) (l : NamedLink) : Prop :=
  (Reached links path ∧ l.isPlaced = true ∧ l.path = reads [] path) ∨
    (¬ (Reached links path ∧ l.isPlaced = true) ∧ l.path.getLast?.map .down = path.getLast?)

instance (links : List NamedLink) (path : List (Move Text)) :
    DecidablePred (NamedLink.MeantBy links path) := fun _ =>
  inferInstanceAs (Decidable (_ ∨ _))

/-- The moves of a link's target. -/
def linkText (member : TarMember) : List (Move Text) := (moves member.linkname).getD []

/-- The links that are named once a member has been stored. A hard link to a link
    is another link with the same text. -/
def nameLink (links : List NamedLink) (member : TarMember) : List NamedLink :=
  let path := namePath member.name
  let isPlaced := decide (Reached links (path.map .down))
  match member.type with
  | .sym => ⟨path, linkText member, false, isPlaced⟩ :: links
  | .lnk =>
      ((links.filter fun l => decide (l.MeantBy links (linkText member))).map fun l =>
        ⟨path, l.text, true, isPlaced⟩) ++ links
  | _ => links

/-- The links that an archive names. -/
def linksNamed (members : List TarMember) : List NamedLink := members.foldl nameLink []

/-- Wherever the verifier and the extraction may read a target in two ways, it does
    not go up. This is said of the names and texts of the archive. -/
structure LinksStraight (members : List TarMember) : Prop where
  /-- A link that may lie elsewhere than its name says only goes down. -/
  astray : ∀ l ∈ linksNamed members, l.isPlaced = false → ∀ m ∈ l.text, m ≠ .up
  /-- No link's text goes up behind a link. -/
  texts : ∀ l ∈ linksNamed members,
    DescendsBehind (MayBeLink (linksNamed members)) l.path.dropLast l.text
  /-- The text of a link does not lead out of a hard link to it. -/
  copies : ∀ l ∈ linksNamed members, l.isCopy = true → StaysIn l.path.dropLast l.text
  /-- A hard link's target does not lead out, and does not go up behind a link. -/
  targets : ∀ m ∈ members, m.type = .lnk →
    StaysIn [] (linkText m) ∧ DescendsBehind (MayBeLink (linksNamed members)) [] (linkText m)

theorem linksStraight_iff (members : List TarMember) : LinksStraight members ↔
    (∀ l ∈ linksNamed members, l.isPlaced = false → ∀ m ∈ l.text, m ≠ .up) ∧
      (∀ l ∈ linksNamed members,
        DescendsBehind (MayBeLink (linksNamed members)) l.path.dropLast l.text) ∧
      (∀ l ∈ linksNamed members, l.isCopy = true → StaysIn l.path.dropLast l.text) ∧
      ∀ m ∈ members, m.type = .lnk →
        StaysIn [] (linkText m) ∧ DescendsBehind (MayBeLink (linksNamed members)) [] (linkText m) :=
  ⟨fun h => ⟨h.astray, h.texts, h.copies, h.targets⟩, fun h => ⟨h.1, h.2.1, h.2.2.1, h.2.2.2⟩⟩

instance (members : List TarMember) : Decidable (LinksStraight members) :=
  decidable_of_iff' _ (linksStraight_iff members)

/-- Only directories have members below them, every `..` of a target stands in
    front, and no hard link's target goes through a link. -/
structure PlainArchive (members : List TarMember) : Prop where
  layout : ∀ m ∈ members, ∀ below ∈ members, namePath m.name <+: namePath below.name →
    namePath m.name ≠ namePath below.name → m.type = .dir
  upwardFirst : ∀ m ∈ members, m.type = .sym ∨ m.type = .lnk → UpwardFirst (linkText m)
  reached : ∀ m ∈ members, m.type = .lnk → Reached (linksNamed members) (linkText m)

/-! ### What the preflight knows of links -/

/-- A target that leads out as it is written keeps an upward part in front. -/
theorem foldl_normStep_of_not_stays (parts dir : List Text) (hdir : ['.', '.'] ∉ dir)
    (h : ¬ StaysIn dir (parts.filterMap moveOf)) :
    (parts.foldl (normStep false) dir).head? = some ['.', '.'] := by
  induction parts generalizing dir with
  | nil => exact absurd trivial h
  | cons part rest ih =>
      rw [List.foldl_cons]
      by_cases hskip : part = [] ∨ part = ['.']
      · rw [List.filterMap_cons_none (by rw [moveOf, if_pos hskip])] at h
        rw [normStep, if_pos hskip]
        exact ih dir hdir h
      -- Both readings skip the same parts, and differ only above the root.
      · by_cases hup : part = ['.', '.']
        · rw [List.filterMap_cons_some (by rw [moveOf, if_neg hskip, if_pos hup])] at h
          by_cases hnil : dir = []
          · refine foldl_normStep_up rest _ ?_
            rw [normStep, if_neg hskip, if_pos (Or.inr (Or.inl ⟨rfl, hnil⟩)), hnil, hup]
            rfl
          · have hlast : dir.getLast? ≠ some ['.', '.'] := fun heq =>
              hdir (List.mem_of_getLast? heq)
            have hkeep : ¬ (part ≠ ['.', '.'] ∨ (false = false ∧ dir = []) ∨
                dir.getLast? = some ['.', '.']) := by
              rintro (hne | ⟨-, heq⟩ | heq)
              · exact hne hup
              · exact hnil heq
              · exact hlast heq
            rw [normStep, if_neg hskip, if_neg hkeep]
            exact ih _ (fun hmem => hdir (List.dropLast_subset _ hmem)) fun hstays =>
              h ⟨hnil, hstays⟩
        · rw [List.filterMap_cons_some (by rw [moveOf, if_neg hskip, if_neg hup])] at h
          rw [normStep, if_neg hskip, if_pos (Or.inl hup)]
          refine ih _ (fun hmem => ?_) h
          rcases List.mem_append.mp hmem with hmem | hmem
          · exact hdir hmem
          · exact hup (List.mem_singleton.mp hmem).symm

/-- An accepted target is relative, and as it is written behind the directory of
    the member's name it stays inside. -/
theorem safeLinkTarget_stays (name normalized target : Text)
    (hname : safeMemberName name = .ok normalized) (h : safeLinkTarget normalized target = .ok ()) :
    ∃ path, moves target = some path ∧ StaysIn (namePath name).dropLast path := by
  have hmem := mem_namePath name
  rcases safeMemberName_eq name normalized hname with ⟨rfl, hne⟩
  simp only [safeLinkTarget, bind_ok_iff, raiseIf_ok_iff, not_or, exists_const] at h
  rcases h with ⟨⟨-, habs⟩, hresolved⟩
  have hrel : ['/'].isPrefixOf target = false := by
    rw [← slashRoot_eq_nil_iff]
    by_contra hroot
    exact habs (by simp only [PurePosixPath.isAbsolute, purePosixPath, ne_eq, hroot,
      not_false_eq_true, decide_true])
  refine ⟨_, by rw [moves, hrel, if_neg Bool.false_ne_true], ?_⟩
  by_contra hout
  -- The directory part of the name.
  have hslash : ∀ part ∈ (namePath name).dropLast, '/' ∉ part := fun part hpart =>
    (hmem part (List.dropLast_subset _ hpart)).2.2
  have hempty : [] ∉ (namePath name).dropLast := fun hin =>
    (hmem [] (List.dropLast_subset _ hin)).1 rfl
  have hdots : ['.', '.'] ∉ (namePath name).dropLast := fun hin =>
    (safeMemberName_parts name _ hname).2 (List.mem_of_mem_filter (List.dropLast_subset _ hin))
  have hdir : dirname (joinSlash (namePath name)) = joinSlash (namePath name).dropLast := by
    have hsplit := List.dropLast_concat_getLast hne
    have hd := dirname_joinSlash (namePath name).dropLast ((namePath name).getLast hne)
      (fun part hpart => (hmem part (hsplit ▸ hpart)).2.2) fun hin => (hmem [] (hsplit ▸ hin)).1 rfl
    rwa [hsplit] at hd
  have hparts := splitSlash_pathJoin (namePath name).dropLast target hslash hempty hrel
  have hroot := slashRoot_pathJoin (namePath name).dropLast target hslash hempty hrel
  have hhead := foldl_normStep_of_not_stays (splitSlash target) (namePath name).dropLast hdots hout
  have hkept : (splitSlash (pathJoin (joinSlash (namePath name).dropLast) target)).foldl
      (normStep false) [] = (splitSlash target).foldl (normStep false) (namePath name).dropLast := by
    rw [hparts, List.foldl_append, foldl_normStep_down false _ hdots, List.nil_append]
    congr 1
    exact List.filter_eq_self.mpr fun part hpart => decide_eq_true
      ⟨(hmem part (List.dropLast_subset _ hpart)).1, (hmem part (List.dropLast_subset _ hpart)).2.1⟩
  rw [hdir, normpath, hroot] at hresolved
  simp only [ne_eq, not_true_eq_false, decide_false, hkept, List.nil_append] at hresolved
  rcases joinSlash_up _ hhead with hup | hup
  · rw [hup] at hresolved
    exact hresolved.1 rfl
  · rw [if_neg fun hnil => by rw [hnil] at hup; exact absurd hup (by decide)] at hresolved
    exact hresolved.2 hup

/-! ### Where the links of the tree lie -/

/-- The links of the tree are links that are named, and lie where those may be. -/
def TreeLinks (links : List NamedLink) (t : Tree Text) : Prop :=
  ∀ path target, t path = some (.link target) → ∃ l ∈ links, target = some l.text ∧
    l.path.getLast? = path.getLast? ∧ (l.isPlaced = true → l.path = path)

theorem TreeLinks.mayBe {links : List NamedLink} {t : Tree Text} (h : TreeLinks links t)
    (path : List Text) (target : Option (List (Move Text))) (hlink : t path = some (.link target)) :
    MayBeLink links path := by
  rcases h path target hlink with ⟨l, hl, -, hlast, hplaced⟩
  refine ⟨l, hl, ?_⟩
  cases hp : l.isPlaced with
  | true => exact Or.inl ⟨rfl, hplaced hp⟩
  | false => exact Or.inr ⟨rfl, hlast⟩

theorem TreeLinks.mono {links links' : List NamedLink} {t : Tree Text} (h : TreeLinks links t)
    (hsub : ∀ l ∈ links, l ∈ links') : TreeLinks links' t := by
  intro path target hlink
  rcases h path target hlink with ⟨l, hl, hrest⟩
  exact ⟨l, hsub l hl, hrest⟩

theorem treeLinks_of_grown (links : List NamedLink) (t t' : Tree Text) (hg : Grown t t')
    (h : TreeLinks links t) : TreeLinks links t' := by
  intro path target hlink
  rcases hg path with hsame | ⟨-, hdir | hfile⟩
  · exact h path target (hsame ▸ hlink)
  · rw [hdir] at hlink
    exact absurd hlink (by simp only [Option.some.injEq, reduceCtorEq, not_false_eq_true])
  · rw [hfile] at hlink
    exact absurd hlink (by simp only [Option.some.injEq, reduceCtorEq, not_false_eq_true])

/-- Storing adds at most the link that is stored. -/
theorem treeLinks_store (links : List NamedLink) (t : Tree Text) (path : List Text)
    (node : Node Text) (h : TreeLinks links t)
    (hnode : ∀ target, node = .link target → ∃ l ∈ links, target = some l.text ∧
      l.path.getLast? = path.getLast? ∧ (l.isPlaced = true → l.path = path)) :
    TreeLinks links (store t path node) := by
  -- Making directories adds no link, so that only the stored node counts.
  have hmade := treeLinks_of_grown links t _ (grown_makeDirectories t path.dropLast) h
  intro other target hlink
  rw [store] at hlink
  split at hlink
  · exact hmade other target hlink
  · by_cases hother : other = path
    · rw [hother, Function.update_self, Option.some.injEq] at hlink
      rw [hother]
      exact hnode target hlink
    · rw [Function.update_of_ne hother] at hlink
      exact hmade other target hlink

theorem mem_nameLink (links : List NamedLink) (member : TarMember) :
    ∀ l ∈ links, l ∈ nameLink links member := by
  intro l hl
  unfold nameLink
  split
  · exact List.mem_cons_of_mem _ hl
  · exact List.mem_append_right _ hl
  · exact hl

theorem linksNamed_concat (front : List TarMember) (m : TarMember) :
    linksNamed (front ++ [m]) = nameLink (linksNamed front) m := List.foldl_append

theorem linksNamed_append (front back : List TarMember) :
    ∀ l ∈ linksNamed front, l ∈ linksNamed (front ++ back) := by
  induction back using List.reverseRecOn with
  | nil => exact fun l hl => (List.append_nil front).symm ▸ hl
  | append_singleton back m ih =>
      intro l hl
      rw [← List.append_assoc, linksNamed_concat]
      exact mem_nameLink _ _ l (ih l hl)

/-- Where a text leads whose last part is not followed: to a name in a directory,
    or to a directory on its way. -/
theorem place_inside (t : Tree Text) (text : Text) (path : List (Move Text)) (d : List Text)
    (hmoves : moves text = some path) (h : place t text = .inside d) :
    (∃ front name dir, path = front ++ [.down name] ∧ d = dir ++ [name] ∧
        walk t maxSymlinks [] front = .inside dir) ∨
      ((∀ name, path.getLast? ≠ some (.down name)) ∧ walk t maxSymlinks [] path = .inside d) := by
  simp only [place, hmoves] at h
  rcases List.eq_nil_or_concat path with rfl | ⟨front, last, rfl⟩
  · exact Or.inr ⟨fun name hlast => absurd hlast (by simp only [List.getLast?_nil, reduceCtorEq,
      not_false_eq_true]), h⟩
  · rw [List.concat_eq_append] at h ⊢
    rw [List.getLast?_concat, List.dropLast_concat] at h
    cases last with
    | up =>
        refine Or.inr ⟨fun name hlast => ?_, h⟩
        rw [List.getLast?_concat] at hlast
        exact absurd hlast (by simp only [Option.some.injEq, reduceCtorEq, not_false_eq_true])
    | down name =>
        simp only at h
        split at h
        · next dir hwalk =>
          split at h
          · exact absurd h (by simp only [reduceCtorEq, not_false_eq_true])
          · exact Or.inl ⟨front, name, dir, rfl, (Place.inside.inj h).symm, hwalk⟩
        · exact absurd h (by simp only [reduceCtorEq, not_false_eq_true])
        · exact absurd h (by simp only [reduceCtorEq, not_false_eq_true])

/-- A text that comes to its last part without a link leads where it reads. -/
theorem place_of_reached (t : Tree Text) (links : List NamedLink) (hlinks : TreeLinks links t)
    (text : Text) (path : List (Move Text)) (d : List Text) (hmoves : moves text = some path)
    (hreached : Reached links path) (h : place t text = .inside d) : d = reads [] path := by
  rcases place_inside t text path d hmoves h with ⟨front, name, dir, rfl, rfl, hwalk⟩ | ⟨hlast, hwalk⟩
  · rw [Reached, List.dropLast_concat] at hreached
    rw [reads_append, ← walk_of_clear _ t hlinks.mayBe maxSymlinks front [] dir hreached hwalk]
    rfl
  · refine walk_of_clear _ t hlinks.mayBe maxSymlinks path [] d ?_ hwalk
    rcases List.eq_nil_or_concat path with rfl | ⟨front, last, rfl⟩
    · exact trivial
    · rw [List.concat_eq_append] at hlast hreached ⊢
      rw [Reached, List.dropLast_concat] at hreached
      cases last with
      | up => exact clear_concat_up _ front [] hreached
      | down name => exact absurd (List.getLast?_concat ..) (hlast name)

/-- What a hard link finds to be a link is one of those it may mean. -/
theorem exists_meantBy (t : Tree Text) (links : List NamedLink) (hlinks : TreeLinks links t)
    (hne : ∀ l ∈ links, l.path ≠ []) (text : Text) (path : List (Move Text)) (d : List Text)
    (hmoves : moves text = some path) (h : place t text = .inside d)
    (target : Option (List (Move Text))) (hlink : t d = some (.link target)) :
    ∃ l ∈ links, target = some l.text ∧ l.MeantBy links path := by
  rcases hlinks d target hlink with ⟨l, hl, htext, hlast, hplaced⟩
  refine ⟨l, hl, htext, ?_⟩
  -- Where the path or the link may have been led astray, only the last part is known.
  by_cases hexact : Reached links path ∧ l.isPlaced = true
  · exact Or.inl ⟨hexact.1, hexact.2, (hplaced hexact.2).trans
      (place_of_reached t links hlinks text path d hmoves hexact.1 h)⟩
  · refine Or.inr ⟨hexact, ?_⟩
    rcases place_inside t text path d hmoves h with ⟨front, name, dir, rfl, rfl, -⟩ | ⟨-, hwalk⟩
    · rw [hlast, List.getLast?_concat, List.getLast?_concat]
      rfl
    · -- A directory on the way is no link.
      refine absurd hlink (walk_not_link t maxSymlinks path [] d (fun p hp target hroot => ?_) hwalk
        d (List.prefix_refl d) target)
      rw [List.prefix_nil.mp hp] at hroot
      rcases hlinks [] target hroot with ⟨l', hl', -, hlast', -⟩
      exact hne l' hl' (List.getLast?_eq_none_iff.mp (hlast'.trans List.getLast?_nil))

/-- One member adds the links that are named with it, and no others. -/
theorem treeLinks_extract (links : List NamedLink) (hne : ∀ l ∈ links, l.path ≠ [])
    (m : TarMember) (name : Text) (hok : MemberOk m name) (t : Tree Text) (h : TreeLinks links t) :
    TreeLinks (nameLink links m) (extract t m) := by
  have hsame : TreeLinks (nameLink links m) t := h.mono (mem_nameLink links m)
  have hpath := moves_name m.name name hok.safe
  have hname := (safeMemberName_eq m.name name hok.safe).2
  -- Where a link that is named with the member comes to lie.
  have hlies : ∀ own, place t m.name = .inside own →
      (namePath m.name).getLast? = own.getLast? ∧
        (decide (Reached links ((namePath m.name).map .down)) = true → namePath m.name = own) := by
    intro own hplace
    refine ⟨?_, fun hreached => ?_⟩
    · rcases place_inside t m.name _ own hpath hplace with ⟨front, last, dir, heq, rfl, -⟩ | ⟨hlast, -⟩
      · have hlast := congrArg List.getLast? heq
        rw [List.getLast?_concat, List.getLast?_map, Option.map_eq_some_iff] at hlast
        rcases hlast with ⟨part, hpart, hsame⟩
        rw [hpart, List.getLast?_concat, Move.down.inj hsame]
      · refine absurd ?_ (hlast ((namePath m.name).getLast hname))
        rw [List.getLast?_map, List.getLast?_eq_getLast_of_ne_nil hname, Option.map_some]
    · have hreads := place_of_reached t links h m.name _ own hpath (of_decide_eq_true hreached) hplace
      rw [hreads, reads_down, List.nil_append]
  by_cases hlink : m.type = .sym ∨ m.type = .lnk
  · rcases safeLinkTarget_stays m.name name m.linkname hok.safe (hok.target hlink) with
      ⟨path, hmoves, -⟩
    have htext : linkText m = path := by rw [linkText, hmoves]; rfl
    rcases hlink with hsym | hlnk
    · rw [extract, hsym]
      simp only
      cases hplace : place t m.name with
      | outside => exact hsame
      | nowhere => exact hsame
      | inside own =>
          refine treeLinks_store _ t own _ hsame fun target heq => ?_
          rcases hlies own hplace with ⟨hlast, hplaced⟩
          refine ⟨_, by rw [nameLink, hsym]; exact List.mem_cons_self, ?_, hlast, hplaced⟩
          rw [← Node.link.inj heq, hmoves, htext]
    · rw [extract, hlnk]
      simp only
      cases hplace : place t m.name with
      | outside => exact hsame
      | nowhere => exact hsame
      | inside own =>
          cases hsource : place t m.linkname with
          | outside => exact hsame
          | nowhere => exact hsame
          | inside source =>
              simp only
              rcases hnode : t source with _ | (_ | _ | target)
              · exact hsame
              · exact hsame
              · exact treeLinks_store _ t own _ hsame fun target heq =>
                  absurd heq (by simp only [reduceCtorEq, not_false_eq_true])
              · -- The copy is named as well.
                rcases exists_meantBy t links h hne m.linkname path source hmoves hsource target hnode
                  with ⟨l, hl, hcopied, hmeant⟩
                refine treeLinks_store _ t own _ hsame fun other heq => ?_
                rcases hlies own hplace with ⟨hlast, hplaced⟩
                refine ⟨⟨namePath m.name, l.text, true, _⟩, ?_, ?_, hlast, hplaced⟩
                · rw [nameLink, hlnk]
                  refine List.mem_append_left _ (List.mem_map.mpr ⟨l, List.mem_filter.mpr
                    ⟨hl, decide_eq_true ?_⟩, rfl⟩)
                  rw [htext]
                  exact hmeant
                · rw [← Node.link.inj heq, hcopied]
  · rw [not_or] at hlink
    exact treeLinks_of_grown _ t _ (extract_grown t m hlink) hsame

/-- What a named link has from its member. -/
theorem mem_linksNamed (members : List TarMember) : ∀ l ∈ linksNamed members,
    (∃ m ∈ members, (m.type = .sym ∨ m.type = .lnk) ∧ l.path = namePath m.name ∧
      (l.isCopy = false → l.text = linkText m ∧ m.type = .sym)) ∧
    ∃ m ∈ members, m.type = .sym ∧ l.text = linkText m := by
  induction members using List.reverseRecOn with
  | nil => exact fun l hl => absurd hl List.not_mem_nil
  | append_singleton front m ih =>
      have hm : m ∈ front ++ [m] := List.mem_append_right _ List.mem_cons_self
      have hold : ∀ l ∈ linksNamed front,
          (∃ m' ∈ front ++ [m], (m'.type = .sym ∨ m'.type = .lnk) ∧ l.path = namePath m'.name ∧
            (l.isCopy = false → l.text = linkText m' ∧ m'.type = .sym)) ∧
          ∃ m' ∈ front ++ [m], m'.type = .sym ∧ l.text = linkText m' := by
        intro l hl
        rcases ih l hl with ⟨⟨m', hm', hrest⟩, ⟨m'', hm'', hrest'⟩⟩
        exact ⟨⟨m', List.mem_append_left _ hm', hrest⟩, ⟨m'', List.mem_append_left _ hm'', hrest'⟩⟩
      intro l hl
      rw [linksNamed_concat, nameLink] at hl
      split at hl
      · next hsym =>
        rcases List.mem_cons.mp hl with rfl | hl
        · exact ⟨⟨m, hm, Or.inl hsym, rfl, fun _ => ⟨rfl, hsym⟩⟩, ⟨m, hm, hsym, rfl⟩⟩
        · exact hold l hl
      · next hlnk =>
        rcases List.mem_append.mp hl with hl | hl
        · rcases List.mem_map.mp hl with ⟨own, hown, rfl⟩
          exact ⟨⟨m, hm, Or.inr hlnk, rfl, fun h => absurd h.symm Bool.false_ne_true⟩,
            (hold own (List.mem_of_mem_filter hown)).2⟩
        · exact hold l hl
      · exact hold l hl

section Accepted

variable {members : List TarMember} (hok : ∀ m ∈ members, ∃ name, MemberOk m name)

include hok

theorem linksNamed_path_ne : ∀ l ∈ linksNamed members, l.path ≠ [] := by
  intro l hl
  rcases (mem_linksNamed members l hl).1 with ⟨m, hm, -, heq, -⟩
  rcases hok m hm with ⟨name, hname⟩
  rw [heq]
  exact (safeMemberName_eq m.name name hname.safe).2

/-- After every member, the links of the tree are links that are named. -/
theorem treeLinks_treeAfter : ∀ k ≤ members.length,
    TreeLinks (linksNamed (members.take k)) (treeAfter members k) := by
  intro k
  induction k with
  | zero => exact fun _ path target hlink => absurd hlink (no_link_emptyRoot path target)
  | succ k ih =>
      intro hk
      rcases hok members[k] (List.getElem_mem _) with ⟨name, hname⟩
      rw [treeAfter_succ members k hk, List.take_succ_eq_append_getElem hk, linksNamed_concat]
      refine treeLinks_extract _ (linksNamed_path_ne fun m hm => ?_) _ name hname _ (ih (by omega))
      exact hok m (List.mem_of_mem_take hm)

/-- What the preflight has checked of symbolic links. -/
theorem stays_linksNamed : ∀ l ∈ linksNamed members, l.isCopy = false →
    StaysIn l.path.dropLast l.text := by
  intro l hl hcopy
  rcases (mem_linksNamed members l hl).1 with ⟨m, hm, -, hpath, hsym⟩
  rcases hsym hcopy with ⟨htext, hsym⟩
  rcases hok m hm with ⟨name, hname⟩
  rcases safeLinkTarget_stays m.name name m.linkname hname.safe (hname.target (Or.inl hsym)) with
    ⟨path, hmoves, hstays⟩
  rw [hpath, htext, linkText, hmoves]
  exact hstays

/-- A tree of straight links only. -/
theorem straightLinks_treeAfter (hstraight : LinksStraight members) (k : Nat)
    (hk : k ≤ members.length) :
    StraightLinks (MayBeLink (linksNamed members)) (treeAfter members k) := by
  -- What is named so far stays named.
  have hlinks : TreeLinks (linksNamed members) (treeAfter members k) := by
    refine (treeLinks_treeAfter hok k hk).mono fun l hl => ?_
    have hall := linksNamed_append (members.take k) (members.drop k) l hl
    rwa [List.take_append_drop] at hall
  intro path target hlink
  refine ⟨hlinks.mayBe path target hlink, ?_⟩
  rcases hlinks path target hlink with ⟨l, hl, htext, -, hplaced⟩
  refine ⟨l.text, htext, ?_⟩
  cases hp : l.isPlaced with
  | true =>
      rw [← hplaced hp]
      refine ⟨?_, hstraight.texts l hl⟩
      cases hc : l.isCopy with
      | true => exact hstraight.copies l hl hc
      | false => exact stays_linksNamed hok l hl hc
  | false =>
      -- Wherever it lies.
      have hdown := hstraight.astray l hl hp
      exact ⟨stays_of_descends l.text hdown _, descendsBehind_of_descends _ l.text hdown _⟩

end Accepted

/-- A straight path to a last part that is not followed stays inside as well. -/
theorem place_ne_outside_of_straight (links : List Text → Prop) (t : Tree Text)
    (hlinks : StraightLinks links t) (text : Text) (path : List (Move Text))
    (hmoves : moves text = some path) (hstays : StaysIn [] path)
    (hdescends : DescendsBehind links [] path) : place t text ≠ .outside := by
  have hall := walk_ne_outside_of_straight links t hlinks maxSymlinks [] path hstays hdescends
  simp only [place, hmoves]
  split
  · next name hlast =>
    rcases List.getLast?_eq_some_iff.mp hlast with ⟨front, rfl⟩
    have hfront := walk_ne_outside_of_straight links t hlinks maxSymlinks [] front
      (stays_front front _ [] hstays) (descendsBehind_front links front _ [] hdescends)
    rw [List.dropLast_concat]
    split
    · split
      · exact fun h => absurd h (by simp only [reduceCtorEq, not_false_eq_true])
      · exact fun h => absurd h (by simp only [reduceCtorEq, not_false_eq_true])
    · next hout => exact absurd hout hfront
    · exact fun h => absurd h (by simp only [reduceCtorEq, not_false_eq_true])
  · exact hall

/-- A hard link's target that begins upward is outside, whatever the tree. -/
theorem place_of_up (t : Tree Text) (text : Text) (path : List (Move Text))
    (h : moves text = some path) (hup : path.head? = some .up) : place t text = .outside := by
  rcases List.head?_eq_some_iff.mp hup with ⟨rest, rfl⟩
  have hwalk : ∀ rest, walk t maxSymlinks [] (.up :: rest) = .outside := fun _ => rfl
  simp only [place, h]
  rcases List.eq_nil_or_concat rest with rfl | ⟨front, last, rfl⟩
  · exact hwalk []
  · rw [List.concat_eq_append, ← List.cons_append, List.getLast?_concat, List.dropLast_concat]
    cases last with
    | up => exact hwalk _
    | down name => rw [hwalk]

/-! ### Plain archives -/

/-- The tree of a plain archive: everything in it lies in directories and under the
    name of a member, and every link that is named is there. -/
structure PlainTree (members : List TarMember) (t : Tree Text) : Prop where
  closed : ∀ path, t path ≠ none → ∀ p, p <+: path → p ≠ path → t p = some .directory
  named : ∀ path, t path ≠ none → path ≠ [] → ∃ m ∈ members, path <+: namePath m.name
  leaf : ∀ path, t path ≠ none → t path ≠ some .directory →
    ∃ m ∈ members, path = namePath m.name ∧ m.type ≠ .dir
  stored : ∀ l ∈ linksNamed members, t l.path = some (.link (some l.text))

theorem plainTree_emptyRoot : PlainTree [] emptyRoot := by
  have hroot : ∀ path, emptyRoot path ≠ none → path = [] := by
    intro path hpath
    by_contra hne
    exact hpath (if_neg hne)
  refine ⟨fun path hpath p hp hne => ?_, fun path hpath hne => ?_, fun path hpath hdir => ?_,
    fun l hl => absurd hl List.not_mem_nil⟩
  · rw [hroot path hpath] at hp hne
    exact absurd (List.prefix_nil.mp hp) hne
  · exact absurd (hroot path hpath) hne
  · rw [hroot path hpath] at hdir
    exact absurd rfl hdir

/-- Directories are made where nothing was. -/
theorem makeDirectories_eq (t : Tree Text) (dir path : List Text) :
    makeDirectories t dir path = t path ∨
      (t path = none ∧ path <+: dir ∧ makeDirectories t dir path = some .directory) := by
  unfold makeDirectories
  split
  · next h => exact Or.inr ⟨h.1, List.isPrefixOf_iff_prefix.mp h.2, rfl⟩
  · exact Or.inl rfl

theorem makeDirectories_onto (t : Tree Text) (dir p : List Text) (hp : p <+: dir)
    (hnode : t p = none ∨ t p = some .directory) : makeDirectories t dir p = some .directory := by
  rcases makeDirectories_eq t dir p with hsame | ⟨-, -, hdirectory⟩
  · rcases hnode with hnone | hdirectory
    · rw [makeDirectories, if_pos ⟨hnone, List.isPrefixOf_iff_prefix.mpr hp⟩]
    · rw [hsame, hdirectory]
  · exact hdirectory

theorem makeDirectories_dropLast (t : Tree Text) (path : List Text) (hne : path ≠ []) :
    makeDirectories t path.dropLast path = t path := by
  rcases makeDirectories_eq t path.dropLast path with hsame | ⟨-, hin, -⟩
  · exact hsame
  · have hlength := hin.length_le
    rw [List.length_dropLast] at hlength
    have hpos := List.length_pos_of_ne_nil hne
    omega

/-- Storing under a new name. -/
theorem store_eq (t : Tree Text) (path : List Text) (hne : path ≠ []) (hnone : t path = none)
    (node : Node Text) :
    store t path node = Function.update (makeDirectories t path.dropLast) path (some node) := by
  simp only [store, makeDirectories_dropLast t path hne, hnone, reduceCtorEq, if_false]

theorem writeFile_eq (t : Tree Text) (path : List Text) (hne : path ≠ []) (hnone : t path = none) :
    writeFile t path =
      Function.update (makeDirectories t path.dropLast) path (some .file) := by
  simp only [writeFile, makeDirectories_dropLast t path hne, hnone, if_true]

/-- A name in directories that are there or can be made. -/
theorem place_of_directories (t : Tree Text) (text : Text) (names : List Text)
    (hmoves : moves text = some (names.map .down)) (hne : names ≠ [])
    (hdirs : ∀ p, p <+: names → p ≠ names → t p = none ∨ t p = some .directory) :
    place t text = .inside names := by
  have hinit : ∀ p, p <+: names.dropLast → t p = none ∨ t p = some .directory := by
    intro p hp
    refine hdirs p (hp.trans (List.dropLast_prefix _)) fun heq => ?_
    have hlength := hp.length_le
    rw [heq, List.length_dropLast] at hlength
    have hpos := List.length_pos_of_ne_nil hne
    omega
  have hwalk := walk_of_directories t maxSymlinks names.dropLast [] fun p hp _ => hinit p hp
  have hlast : (names.map Move.down).getLast? = some (.down (names.getLast hne)) := by
    rw [List.getLast?_map, List.getLast?_eq_getLast_of_ne_nil hne, Option.map_some]
  have hfile : t names.dropLast ≠ some .file := by
    rcases hinit _ (List.prefix_refl _) with hnone | hdirectory
    · rw [hnone]
      simp only [ne_eq, reduceCtorEq, not_false_eq_true]
    · rw [hdirectory]
      simp only [ne_eq, Option.some.injEq, reduceCtorEq, not_false_eq_true]
  rw [List.nil_append] at hwalk
  simp only [place, hmoves, hlast, ← List.map_dropLast, hwalk, if_neg hfile,
    List.dropLast_concat_getLast hne]

section Plain

variable {front : List TarMember} {t t' : Tree Text} (hplain : PlainTree front t) (m : TarMember)

include hplain

/-- A member that fills places on the way to its name keeps the tree plain. -/
theorem plainTree_fill
    (hfill : ∀ p, t' p = t p ∨ (t p = none ∧ p <+: namePath m.name))
    (hbelow : ∀ p, p <+: namePath m.name → p ≠ namePath m.name → t' p = some .directory)
    (hnode : t' (namePath m.name) ≠ some .directory → m.type ≠ .dir)
    (hlinks : ∀ l ∈ linksNamed (front ++ [m]),
      l ∈ linksNamed front ∨ t' l.path = some (.link (some l.text))) :
    PlainTree (front ++ [m]) t' := by
  refine ⟨fun path hpath p hp hne => ?_, fun path hpath hne => ?_, fun path hpath hleaf => ?_,
    fun l hl => ?_⟩
  · rcases hfill path with hsame | ⟨-, hin⟩
    · rw [hsame] at hpath
      have hdirectory := hplain.closed path hpath p hp hne
      rcases hfill p with hsame' | ⟨hnone, -⟩
      · rw [hsame', hdirectory]
      · rw [hdirectory] at hnone
        exact absurd hnone (by simp only [reduceCtorEq, not_false_eq_true])
    · refine hbelow p (hp.trans hin) fun heq => hne (hp.eq_of_length_le ?_)
      rw [heq]
      exact hin.length_le
  · rcases hfill path with hsame | ⟨-, hin⟩
    · rw [hsame] at hpath
      rcases hplain.named path hpath hne with ⟨m', hm', hpre⟩
      exact ⟨m', List.mem_append_left _ hm', hpre⟩
    · exact ⟨m, List.mem_append_right _ List.mem_cons_self, hin⟩
  · rcases hfill path with hsame | ⟨-, hin⟩
    · rw [hsame] at hpath hleaf
      rcases hplain.leaf path hpath hleaf with ⟨m', hm', hrest⟩
      exact ⟨m', List.mem_append_left _ hm', hrest⟩
    · by_cases heq : path = namePath m.name
      · exact ⟨m, List.mem_append_right _ List.mem_cons_self, heq, hnode (heq ▸ hleaf)⟩
      · exact absurd (hbelow path hin heq) hleaf
  · rcases hlinks l hl with hold | hnew
    · have hlink := hplain.stored l hold
      rcases hfill l.path with hsame | ⟨hnone, -⟩
      · rw [hsame, hlink]
      · rw [hlink] at hnone
        exact absurd hnone (by simp only [reduceCtorEq, not_false_eq_true])
    · exact hnew

/-- A member that is not extracted changes nothing. -/
theorem plainTree_skip (hlinks : ∀ l ∈ linksNamed (front ++ [m]), l ∈ linksNamed front) :
    PlainTree (front ++ [m]) t := by
  refine ⟨hplain.closed, fun path hpath hne => ?_, fun path hpath hleaf => ?_,
    fun l hl => hplain.stored l (hlinks l hl)⟩
  · rcases hplain.named path hpath hne with ⟨m', hm', hpre⟩
    exact ⟨m', List.mem_append_left _ hm', hpre⟩
  · rcases hplain.leaf path hpath hleaf with ⟨m', hm', hrest⟩
    exact ⟨m', List.mem_append_left _ hm', hrest⟩

section New

variable (hdirs : ∀ p, p <+: namePath m.name → p ≠ namePath m.name →
  t p = none ∨ t p = some .directory)

include hdirs

theorem plainTree_directory
    (hlast : t (namePath m.name) = none ∨ t (namePath m.name) = some .directory)
    (hlinks : ∀ l ∈ linksNamed (front ++ [m]), l ∈ linksNamed front) :
    PlainTree (front ++ [m]) (makeDirectories t (namePath m.name)) := by
  refine plainTree_fill hplain m (fun p => ?_) (fun p hp hne => ?_) (fun hnode => ?_)
    fun l hl => Or.inl (hlinks l hl)
  · rcases makeDirectories_eq t (namePath m.name) p with hsame | ⟨hnone, hin, -⟩
    · exact Or.inl hsame
    · exact Or.inr ⟨hnone, hin⟩
  · exact makeDirectories_onto t _ p hp (hdirs p hp hne)
  · exact absurd (makeDirectories_onto t _ _ (List.prefix_refl _) hlast) hnode

/-- A file or a link under a new name. -/
theorem plainTree_node (hne : namePath m.name ≠ []) (htype : m.type ≠ .dir)
    (hnone : t (namePath m.name) = none) (node : Node Text)
    (hlinks : ∀ l ∈ linksNamed (front ++ [m]), l ∈ linksNamed front ∨
      (l.path = namePath m.name ∧ node = .link (some l.text))) :
    PlainTree (front ++ [m]) (Function.update (makeDirectories t (namePath m.name).dropLast)
      (namePath m.name) (some node)) := by
  have hshorter : ∀ p, p <+: (namePath m.name).dropLast → p ≠ namePath m.name := by
    intro p hp heq
    have hlength := hp.length_le
    rw [heq, List.length_dropLast] at hlength
    have hpos := List.length_pos_of_ne_nil hne
    omega
  refine plainTree_fill hplain m (fun p => ?_) (fun p hp hpne => ?_) (fun _ => htype)
    fun l hl => ?_
  · by_cases heq : p = namePath m.name
    · rw [heq]
      exact Or.inr ⟨hnone, List.prefix_refl _⟩
    · rw [Function.update_of_ne heq]
      rcases makeDirectories_eq t (namePath m.name).dropLast p with hsame | ⟨hnone, hin, -⟩
      · exact Or.inl hsame
      · exact Or.inr ⟨hnone, hin.trans (List.dropLast_prefix _)⟩
  · rw [Function.update_of_ne hpne]
    refine makeDirectories_onto t _ p ?_ (hdirs p hp hpne)
    rw [← List.dropLast_concat_getLast hne] at hp
    rcases List.prefix_concat_iff.mp hp with heq | hin
    · exact absurd (heq.trans (List.dropLast_concat_getLast hne)) hpne
    · exact hin
  · rcases hlinks l hl with hold | ⟨hpath, htext⟩
    · exact Or.inl hold
    · rw [hpath, Function.update_self, htext]
      exact Or.inr rfl

end New

/-- Extracting a member of a plain archive keeps its tree plain. -/
theorem plainTree_extract (name : Text) (hok : MemberOk m name)
    (habove : ∀ m' ∈ front, namePath m'.name <+: namePath m.name →
      namePath m'.name ≠ namePath m.name → m'.type = .dir)
    (hbelow : ∀ m' ∈ front, namePath m.name <+: namePath m'.name →
      namePath m.name ≠ namePath m'.name → m.type = .dir)
    (hnew : ∀ m' ∈ front, namePath m.name ≠ namePath m'.name)
    (hpaths : ∀ l ∈ linksNamed front, l.path ≠ [])
    (hplaced : ∀ l ∈ linksNamed front, l.isPlaced = true)
    (htarget : m.type = .lnk →
      (∀ move ∈ linkText m, move ≠ .up) ∧ Reached (linksNamed front) (linkText m)) :
    PlainTree (front ++ [m]) (extract t m) := by
  have hmoves := moves_name m.name name hok.safe
  have hne := (safeMemberName_eq m.name name hok.safe).2
  -- Nothing but directories is above the name, and nothing is under it.
  have hdirs : ∀ p, p <+: namePath m.name → p ≠ namePath m.name →
      t p = none ∨ t p = some .directory := by
    intro p hp hpne
    by_contra hleaf
    rw [not_or] at hleaf
    rcases hplain.leaf p hleaf.1 hleaf.2 with ⟨m', hm', rfl, htype⟩
    exact htype (habove m' hm' hp hpne)
  -- A file or a link has nothing below it, so that its name is free.
  have hfresh : m.type ≠ .dir → t (namePath m.name) = none := by
    intro htype
    by_contra hthere
    rcases hplain.named _ hthere hne with ⟨m', hm', hin⟩
    exact htype (hbelow m' hm' hin (hnew m' hm'))
  have hplace := place_of_directories t m.name _ hmoves hne hdirs
  have hsame : m.type ≠ .sym → m.type ≠ .lnk →
      ∀ l ∈ linksNamed (front ++ [m]), l ∈ linksNamed front := by
    intro hsym hlnk l hl
    rw [linksNamed_concat, nameLink] at hl
    split at hl
    · next heq => exact absurd heq hsym
    · next heq => exact absurd heq hlnk
    · exact hl
  cases htype : m.type with
  | file =>
      have hnone := hfresh (by rw [htype]; decide)
      have hfollow : follow t m.name = .inside (namePath m.name) := by
        simp only [follow, hmoves]
        refine walk_of_directories t maxSymlinks (namePath m.name) [] fun p hp _ => ?_
        by_cases heq : p = namePath m.name
        · exact Or.inl (heq ▸ hnone)
        · exact hdirs p hp heq
      rw [extract, htype]
      simp only [hfollow]
      rw [writeFile_eq t _ hne hnone]
      exact plainTree_node hplain m hdirs hne (by rw [htype]; decide) hnone .file fun l hl =>
        Or.inl (hsame (by rw [htype]; decide) (by rw [htype]; decide) l hl)
  | dir =>
      rw [extract, htype]
      simp only [hplace]
      refine plainTree_directory hplain m hdirs ?_
        (hsame (by rw [htype]; decide) (by rw [htype]; decide))
      by_contra hleaf
      rw [not_or] at hleaf
      rcases hplain.leaf _ hleaf.1 hleaf.2 with ⟨m', hm', heq, -⟩
      exact hnew m' hm' heq
  | sym =>
      have hnone := hfresh (by rw [htype]; decide)
      rcases safeLinkTarget_stays m.name name m.linkname hok.safe (hok.target (Or.inl htype)) with
        ⟨path, hpath, -⟩
      rw [extract, htype]
      simp only [hplace]
      rw [store_eq t _ hne hnone]
      refine plainTree_node hplain m hdirs hne (by rw [htype]; decide) hnone _ fun l hl => ?_
      rw [linksNamed_concat, nameLink, htype] at hl
      rcases List.mem_cons.mp hl with rfl | hl
      · refine Or.inr ⟨rfl, ?_⟩
        rw [linkText, hpath, Option.getD_some]
      · exact Or.inl hl
  | lnk =>
      have hnone := hfresh (by rw [htype]; decide)
      rcases safeLinkTarget_stays m.name name m.linkname hok.safe (hok.target (Or.inr htype)) with
        ⟨path, hpath, -⟩
      have htext : linkText m = path := by rw [linkText, hpath, Option.getD_some]
      rcases htarget htype with ⟨hdown, hreached⟩
      rcases exists_names _ hdown with ⟨names, hnames⟩
      have hput := plainTree_node hplain m hdirs hne (by rw [htype]; decide) hnone
      -- Which links the target may be.
      have hmeant : ∀ l ∈ linksNamed front, l.MeantBy (linksNamed front) (linkText m) →
          l.path = names := by
        rintro l hl (⟨-, -, hreads⟩ | ⟨hnot, -⟩)
        · rw [hreads, hnames, reads_down, List.nil_append]
        · exact absurd ⟨hreached, hplaced l hl⟩ hnot
      have hlinks : ∀ l ∈ linksNamed (front ++ [m]), l ∈ linksNamed front ∨
          ∃ own ∈ linksNamed front, own.path = names ∧ l.path = namePath m.name ∧
            l.text = own.text := by
        intro l hl
        rw [linksNamed_concat, nameLink, htype] at hl
        rcases List.mem_append.mp hl with hl | hl
        · rcases List.mem_map.mp hl with ⟨own, hown, rfl⟩
          rcases List.mem_filter.mp hown with ⟨hin, hdecided⟩
          exact Or.inr ⟨own, hin, hmeant own hin (of_decide_eq_true hdecided), rfl, rfl⟩
        · exact Or.inl hl
      rw [extract, htype]
      simp only [hplace]
      by_cases hlink : ∃ own ∈ linksNamed front, own.path = names
      · -- The link is there, and it is copied.
        rcases hlink with ⟨own, hown, hat⟩
        have hthere := hplain.stored own hown
        rw [hat] at hthere
        have hnamesNe : names ≠ [] := hat ▸ hpaths own hown
        have hsource : place t m.linkname = .inside names := by
          refine place_of_directories t m.linkname names ?_ hnamesNe fun p hp hpne => Or.inr ?_
          · rw [hpath, ← htext, hnames]
          · exact hplain.closed names (by rw [hthere]; exact Option.some_ne_none _) p hp hpne
        simp only [hsource, hthere]
        rw [store_eq t _ hne hnone]
        refine hput _ fun l hl => ?_
        rcases hlinks l hl with hold | ⟨own', hown', hat', hpath', htext'⟩
        · exact Or.inl hold
        · refine Or.inr ⟨hpath', ?_⟩
          have hthere' := hplain.stored own' hown'
          rw [hat', hthere, Option.some.injEq, Node.link.injEq] at hthere'
          rw [hthere', htext']
      · have hold : ∀ l ∈ linksNamed (front ++ [m]), l ∈ linksNamed front := by
          intro l hl
          rcases hlinks l hl with hold | ⟨own, hown, hat, -⟩
          · exact hold
          · exact absurd ⟨own, hown, hat⟩ hlink
        -- The target is no link: a file is linked to, and a directory or nothing is not.
        have hskip := plainTree_skip hplain m hold
        have hstored : ∀ node, PlainTree (front ++ [m]) (store t (namePath m.name) node) := by
          intro node
          rw [store_eq t _ hne hnone]
          exact hput node fun l hl => Or.inl (hold l hl)
        cases place t m.linkname with
        | outside => exact hskip
        | nowhere => exact hskip
        | inside source =>
            simp only
            split
            · exact hstored _
            · exact hstored _
            · exact hskip
  | other => exact absurd htype hok.type

end Plain

section Archive

variable {members : List TarMember} (hok : ∀ m ∈ members, ∃ name, MemberOk m name)
  (hnodup : (members.map fun m => namePath m.name).Nodup) (hplain : PlainArchive members)
  (hup : ∀ m ∈ members, m.type = .lnk → (linkText m).head? ≠ some .up)

include hplain

/-- The links of a plain archive lie where their names say. -/
theorem isPlaced_of_plain (front back : List TarMember) (hmembers : members = front ++ back) :
    ∀ l ∈ linksNamed front, l.isPlaced = true := by
  induction front using List.reverseRecOn generalizing back with
  | nil => exact fun l hl => absurd hl List.not_mem_nil
  | append_singleton front m ih =>
      have hsplit : members = front ++ m :: back := by
        rw [hmembers, List.append_assoc, List.singleton_append]
      have ih := ih (m :: back) hsplit
      have hm : m ∈ members := hsplit ▸ List.mem_append_right _ List.mem_cons_self
      have hreached : Reached (linksNamed front) ((namePath m.name).map .down) := by
        rw [Reached, ← List.map_dropLast]
        refine clearOf_down _ _ _ fun p hp hpne hlink => ?_
        rw [List.nil_append] at hlink
        -- A link on the way would be a member with a member below it.
        rcases hlink with ⟨l, hl, ⟨-, hpath⟩ | ⟨hastray, -⟩⟩
        · rcases (mem_linksNamed front l hl).1 with ⟨m', hm', htype, hname, -⟩
          have hin : m' ∈ members := hsplit ▸ List.mem_append_left _ hm'
          have hbelow : namePath m'.name <+: (namePath m.name).dropLast := by
            rw [← hname, hpath]
            exact hp
          have hdir := hplain.layout m' hin m hm (hbelow.trans (List.dropLast_prefix _)) fun heq => by
            have hlength := hbelow.length_le
            rw [heq, List.length_dropLast] at hlength
            have hpos := hp.length_le
            have hpos' := List.length_pos_of_ne_nil hpne
            rw [List.length_dropLast] at hpos
            omega
          rw [hdir] at htype
          exact absurd htype (by decide)
        · rw [ih l hl] at hastray
          exact Bool.false_ne_true hastray.symm
      intro l hl
      rw [linksNamed_concat, nameLink] at hl
      split at hl
      · rcases List.mem_cons.mp hl with rfl | hl
        · exact decide_eq_true hreached
        · exact ih l hl
      · rcases List.mem_append.mp hl with hl | hl
        · rcases List.mem_map.mp hl with ⟨own, -, rfl⟩
          exact decide_eq_true hreached
        · exact ih l hl
      · exact ih l hl

include hok hnodup hup

/-- In a plain archive all links that are named are there. -/
theorem plainTree_treeAfter (front back : List TarMember) (hmembers : members = front ++ back) :
    PlainTree front (extractAll emptyRoot front) := by
  induction front using List.reverseRecOn generalizing back with
  | nil => exact plainTree_emptyRoot
  | append_singleton front m ih =>
      have hsplit : members = front ++ m :: back := by
        rw [hmembers, List.append_assoc, List.singleton_append]
      have hm : m ∈ members := hsplit ▸ List.mem_append_right _ List.mem_cons_self
      have hfront : ∀ m' ∈ front, m' ∈ members := fun m' hm' =>
        hsplit ▸ List.mem_append_left _ hm'
      rcases hok m hm with ⟨name, hname⟩
      rw [extractAll, List.foldl_append, List.foldl_cons, List.foldl_nil]
      refine plainTree_extract (ih (m :: back) hsplit) m name hname
        (fun m' hm' => hplain.layout m' (hfront m' hm') m hm)
        (fun m' hm' => hplain.layout m hm m' (hfront m' hm')) (fun m' hm' heq => ?_)
        (linksNamed_path_ne fun m' hm' => hok m' (hfront m' hm'))
        (isPlaced_of_plain hplain front (m :: back) hsplit)
        fun hlnk => ⟨descends_of_upwardFirst _ (hplain.upwardFirst m hm (Or.inr hlnk))
          (hup m hm hlnk), ?_⟩
      · rw [hsplit, List.map_append, List.map_cons, List.nodup_middle, List.nodup_cons] at hnodup
        exact hnodup.1 (List.mem_append_left _ (List.mem_map.mpr ⟨m', hm', heq.symm⟩))
      · refine clearOf_mono (fun p hp => ?_) _ _ (hplain.reached m hm hlnk)
        rcases hp with ⟨l, hl, hrest⟩
        exact ⟨l, hsplit ▸ linksNamed_append front _ l hl, hrest⟩

/-- A plain archive that stays inside has straight links only. -/
theorem linksStraight_of_plain (hcontained : Contained maxSymlinks (extractAll emptyRoot members)) :
    LinksStraight members := by
  have hplaced := isPlaced_of_plain hplain members [] (List.append_nil _).symm
  have htree := plainTree_treeAfter hok hnodup hplain hup members [] (List.append_nil _).symm
  have hfirst : ∀ l ∈ linksNamed members, UpwardFirst l.text := by
    intro l hl
    rcases (mem_linksNamed members l hl).2 with ⟨m, hm, hsym, htext⟩
    exact htext ▸ hplain.upwardFirst m hm (Or.inl hsym)
  refine ⟨fun l hl hastray => ?_, fun l hl => ?_, fun l hl _ => ?_, fun m hm hlnk => ?_⟩
  · rw [hplaced l hl] at hastray
    exact absurd hastray.symm Bool.false_ne_true
  · exact descendsBehind_of_upwardFirst _ _ (hfirst l hl) _
  · -- The link is in the tree, so it does not lead out from where it is.
    rcases hcontained l.path _ (htree.stored l hl) with ⟨path, hpath, hinside⟩
    by_contra hstays
    rw [← Option.some.inj hpath] at hinside
    exact hinside (walk_of_not_stays _ _ _ (hfirst l hl) _ hstays)
  · have hdown := descends_of_upwardFirst _ (hplain.upwardFirst m hm (Or.inr hlnk)) (hup m hm hlnk)
    exact ⟨stays_of_descends _ hdown _, descendsBehind_of_descends _ _ hdown _⟩

end Archive

/-! ### When an archive stays inside -/

/-- An archive that the preflight accepts stays inside the extraction root if its
    links are straight. On the other hand, no hard link's target may begin upward,
    and a plain archive stays inside only if its links are straight. -/
theorem checkMembers_contained (members : List TarMember) (seen : Seen)
    (h : checkMembers members = .ok seen) :
    (LinksStraight members →
        ∀ k (hk : k < members.length), ¬ Escapes (treeAfter members k) members[k]) ∧
      ((∀ k (hk : k < members.length), ¬ Escapes (treeAfter members k) members[k]) →
        (∀ m ∈ members, m.type = .lnk → (linkText m).head? ≠ some .up) ∧
          (PlainArchive members → LinksStraight members)) := by
  rcases checkMembers_ok members seen h with ⟨hok, hnodup⟩
  refine ⟨fun hstraight k hk hescapes => ?_, fun hno => ?_⟩
  · have hlinks := straightLinks_treeAfter hok hstraight
    have hcontained := contained_of_straight _ _ (hlinks k hk.le) maxSymlinks
    rcases hok members[k] (List.getElem_mem hk) with ⟨name, hname⟩
    rcases place_ne_outside _ hcontained members[k].name name hname.safe with ⟨hplace, hfollow⟩
    -- The member, what it follows, its target, or the tree that it leaves.
    rcases hescapes with hout | ⟨-, hout⟩ | ⟨hlnk, hout⟩ | hcon
    · exact hplace hout
    · exact hfollow hout
    · rcases safeLinkTarget_stays _ _ _ hname.safe (hname.target (Or.inr hlnk)) with ⟨path, hpath, -⟩
      rcases hstraight.targets _ (List.getElem_mem hk) hlnk with ⟨hstays, hdescends⟩
      rw [linkText, hpath] at hstays hdescends
      exact place_ne_outside_of_straight _ _ (hlinks k hk.le) _ path hpath hstays hdescends hout
    · refine hcon ?_
      rw [← treeAfter_succ members k hk]
      exact contained_of_straight _ _ (hlinks (k + 1) hk) maxSymlinks
  · have hup : ∀ m ∈ members, m.type = .lnk → (linkText m).head? ≠ some .up := by
      intro m hm hlnk hup
      rcases List.getElem_of_mem hm with ⟨k, hk, rfl⟩
      refine hno k hk (Or.inr (Or.inr (Or.inl ⟨hlnk, ?_⟩)))
      rcases hok members[k] (List.getElem_mem hk) with ⟨name, hname⟩
      rcases safeLinkTarget_stays _ _ _ hname.safe (hname.target (Or.inr hlnk)) with ⟨path, hpath, -⟩
      rw [linkText, hpath] at hup
      exact place_of_up _ _ path hpath hup
    refine ⟨hup, fun hplain => linksStraight_of_plain hok hnodup hplain hup ?_⟩
    -- What the last member leaves.
    rcases Nat.eq_zero_or_pos members.length with hnil | hpos
    · rw [List.eq_nil_of_length_eq_zero hnil]
      exact fun path target hlink => absurd hlink (no_link_emptyRoot path target)
    · have hlast := hno (members.length - 1) (by omega)
      have hall : treeAfter members (members.length - 1 + 1) = extractAll emptyRoot members := by
        rw [treeAfter, List.take_of_length_le (by omega)]
      rw [← hall, treeAfter_succ members _ (by omega)]
      by_contra hcon
      exact hlast (Or.inr (Or.inr (Or.inr hcon)))

/-- A link to a directory, a file, a link and a hard link that go through it, and a
    link that goes up. -/
def linkedArchive : List TarMember :=
  [⟨"d".toList, .dir, [], []⟩, ⟨"s".toList, .sym, "./d".toList, []⟩,
   ⟨"s/f".toList, .file, [], [1]⟩, ⟨"s/l".toList, .sym, "f".toList, []⟩,
   ⟨"e/h".toList, .lnk, "s/f".toList, []⟩, ⟨"e/u".toList, .sym, "../d/f".toList, []⟩]

theorem checkMembers_contained_through_link :
    (checkMembers linkedArchive).isOk = true ∧
      ∀ k (hk : k < linkedArchive.length), ¬ Escapes (treeAfter linkedArchive k) linkedArchive[k] :=
  ⟨rfl, (checkMembers_contained linkedArchive
    ⟨["e/u".toList, "e/h".toList, "s/l".toList, "s/f".toList, "s".toList, "d".toList], none⟩
    rfl).1 (by decide)⟩

/-- A hard link to a place outside the root is accepted: its target is checked
    from the link's own directory and read from the root. -/
theorem checkMembers_escape :
    (checkMembers [⟨"a/b".toList, .lnk, "../x".toList, []⟩]).isOk = true ∧
      Escapes (treeAfter [⟨"a/b".toList, .lnk, "../x".toList, []⟩] 0)
        ⟨"a/b".toList, .lnk, "../x".toList, []⟩ :=
  ⟨by decide, Or.inr (Or.inr (Or.inl ⟨rfl, by decide⟩))⟩

end Zd1200
