import Zd1200.Lib.Delimited
import Zd1200.Patch.Pattern

/-!
# The Archive Preflight

The member loop of `verify_release_archive.py`, which goes over an archive
before anything is extracted from it.

Names are judged as text. `safeMemberName` refuses absolute names and names
with a `..` part and hands on the normalised name. `safeLinkTarget` puts the
target behind the directory part of that name and refuses it if the normalised
result starts with `..`. It is called for symbolic and for hard links alike.

Python's path functions are definitions of this file under their own names.
A text is a list of code points.

## Main definitions

* `PurePosixPath`: A path cut into its root and parts.
* `normpath`, `pathJoin`, `dirname`: The functions of `posixpath`.
* `safeMemberName`, `safeLinkTarget`: The checks on names.
* `TarMember`: A member of the archive.
* `checkMember`, `checkMembers`: The member loop.
* `namePath`: The parts of a name.
* `MemberOk`: A member that is accepted.

## Theorems

* `safeMemberName_parts`: An accepted name is relative and has no `..` part.
* `safeMemberName_eq`: What an accepted name comes to.
* `dirname_joinSlash`, `splitSlash_pathJoin`: Where a target is put.
* `foldlM_checkMember_iff`: When the member loop accepts an archive.
* `checkMembers_ok`: What an accepted archive is made of.
-/

namespace Zd1200

/-- A Python string, as its code points. -/
abbrev Text := List Char

/-! ### Path functions of the Python library -/

/-- `text.split("/")`. -/
def splitSlash (text : Text) : List Text := text.splitOn '/'

/-- `"/".join(parts)`. -/
def joinSlash (parts : List Text) : Text := List.intercalate ['/'] parts

/-- A path cut into its root and the parts behind it; the empty parts and the
    `.` parts are dropped. -/
structure PurePosixPath where
  root : Text
  parts : List Text

/-- Two leading slashes are a root of their own, three are one. -/
def slashRoot (text : Text) : Text :=
  if ['/', '/'].isPrefixOf text && !(['/', '/', '/'].isPrefixOf text) then ['/', '/']
  else if ['/'].isPrefixOf text then ['/']
  else []

def purePosixPath (text : Text) : PurePosixPath where
  root := slashRoot text
  parts := (splitSlash text).filter fun part => part ≠ [] ∧ part ≠ ['.']

def PurePosixPath.isAbsolute (path : PurePosixPath) : Bool := path.root ≠ []

/-- One component of `posixpath.normpath`, put behind the ones kept so far. -/
def normStep (rooted : Bool) (kept : List Text) (part : Text) : List Text :=
  if part = [] ∨ part = ['.'] then kept
  else if part ≠ ['.', '.'] ∨ (rooted = false ∧ kept = []) ∨ kept.getLast? = some ['.', '.'] then
    kept ++ [part]
  else kept.dropLast

def normpath (text : Text) : Text :=
  let root := slashRoot text
  let kept := (splitSlash text).foldl (normStep (root ≠ [])) []
  let result := root ++ joinSlash kept
  if result = [] then ['.'] else result

/-- `text.rstrip("/")`. -/
def rstripSlash (text : Text) : Text := (text.reverse.dropWhile (· = '/')).reverse

/-- `posixpath.dirname`. -/
def dirname (text : Text) : Text :=
  let head := (text.reverse.dropWhile (· ≠ '/')).reverse
  if head.all (· = '/') then head else rstripSlash head

/-- `posixpath.join` of two parts. -/
def pathJoin (first second : Text) : Text :=
  if ['/'].isPrefixOf second then second
  else if first = [] ∨ first.getLast? = some '/' then first ++ second
  else first ++ '/' :: second

/-! ### The checks -/

/-- `text.removeprefix("./")`. -/
def removeDotSlash (text : Text) : Text :=
  if ['.', '/'].isPrefixOf text then text.drop 2 else text

def safeMemberName (name : Text) : Except PyError Text := do
  let path := purePosixPath name
  raiseIf (name = [] ∨ path.isAbsolute = true ∨ ['.', '.'] ∈ path.parts)
    (.valueError ("unsafe archive member path " ++ reprText name))
  let normalized := removeDotSlash (normpath name)
  raiseIf (normalized = [] ∨ normalized = ['.'] ∨ ['.', '.', '/'].isPrefixOf normalized = true)
    (.valueError ("unsafe archive member path " ++ reprText name))
  return rstripSlash normalized

def safeLinkTarget (memberName target : Text) : Except PyError Unit := do
  raiseIf (target = [] ∨ (purePosixPath target).isAbsolute = true)
    (.valueError ("unsafe archive link target " ++ reprText target))
  let resolved := normpath (pathJoin (dirname memberName) target)
  raiseIf (resolved = ['.', '.'] ∨ ['.', '.', '/'].isPrefixOf resolved = true)
    (.valueError ("unsafe archive link target " ++ reprText target))

/-- The types of a TAR member that the loop tells apart; `other` stands for
    devices and queues. -/
inductive MemberType
  | file
  | dir
  | sym
  | lnk
  | other
  deriving DecidableEq, Repr

/-- A member as the reader hands it out. -/
structure TarMember where
  name : Text
  type : MemberType
  linkname : Text
  contents : Bytes
  deriving DecidableEq

/-- What the loop carries: the names seen and the contents of `metadata`. -/
structure Seen where
  names : List Text
  metadataRaw : Option Bytes

/-- One round of the member loop. -/
def checkMember (seen : Seen) (member : TarMember) : Except PyError Seen := do
  let name ← safeMemberName member.name
  raiseIf (member.type = .other)
    (.valueError ("unsafe archive member type for " ++ reprText member.name))
  if member.type = .sym ∨ member.type = .lnk then safeLinkTarget name member.linkname else .ok ()
  raiseIf (name ∈ seen.names)
    (.valueError ("duplicate archive member path " ++ reprText name))
  raiseIf (name = "metadata".toList ∧ member.type ≠ .file)
    (.valueError "metadata is not a regular file")
  return { names := name :: seen.names
           metadataRaw := if name = "metadata".toList then some member.contents
             else seen.metadataRaw }

/-- The member loop, over the whole archive. -/
def checkMembers (members : List TarMember) : Except PyError Seen :=
  members.foldlM checkMember { names := [], metadataRaw := none }

/-- An accepted name is relative and has no `..` part. -/
theorem safeMemberName_parts (name normalized : Text) (h : safeMemberName name = .ok normalized) :
    slashRoot name = [] ∧ ['.', '.'] ∉ splitSlash name := by
  simp only [safeMemberName, bind_ok_iff, raiseIf_ok_iff, not_or, exists_const] at h
  rcases h with ⟨⟨-, habs, hparts⟩, -⟩
  constructor
  · by_contra hroot
    exact habs (by simp only [PurePosixPath.isAbsolute, purePosixPath, ne_eq, hroot,
      not_false_eq_true, decide_true])
  · intro hmem
    apply hparts
    simp only [purePosixPath]
    exact List.mem_filter.mpr ⟨hmem, by decide⟩

/-! ### Parts of a name -/

/-- The parts of a relative path that mean something. -/
def namePath (name : Text) : List Text := (purePosixPath name).parts

theorem slash_not_mem_splitSlash (text : Text) : ∀ part ∈ splitSlash text, '/' ∉ part :=
  fun _ hpart hc => (mem_splitOn hpart hc).2 rfl

/-- A part of a name is not empty, is not `.` and has no slash. -/
theorem mem_namePath (name part : Text) (h : part ∈ namePath name) :
    part ≠ [] ∧ part ≠ ['.'] ∧ '/' ∉ part := by
  rcases List.mem_filter.mp h with ⟨hmem, hpart⟩
  rcases of_decide_eq_true hpart with ⟨hne, hdot⟩
  exact ⟨hne, hdot, slash_not_mem_splitSlash name part hmem⟩

/-- Parts that go down are kept as they are. -/
theorem foldl_normStep_down (rooted : Bool) (parts : List Text) (h : ['.', '.'] ∉ parts)
    (kept : List Text) :
    parts.foldl (normStep rooted) kept =
      kept ++ parts.filter fun part => part ≠ [] ∧ part ≠ ['.'] := by
  induction parts generalizing kept with
  | nil => rw [List.foldl_nil, List.filter_nil, List.append_nil]
  | cons part rest ih =>
      rw [List.mem_cons, not_or] at h
      rw [List.foldl_cons, ih h.2, normStep]
      by_cases hskip : part = [] ∨ part = ['.']
      · rw [if_pos hskip, List.filter_cons_of_neg]
        rw [decide_eq_true_eq, ← not_or, not_not]
        exact hskip
      · rw [if_neg hskip, if_pos (Or.inl (Ne.symm h.1)), List.filter_cons_of_pos, List.append_assoc,
          List.singleton_append]
        rw [decide_eq_true_eq, ← not_or]
        exact hskip

section Join

variable {parts : List Text} (hslash : ∀ part ∈ parts, '/' ∉ part) (hne : parts ≠ [])

include hslash hne

theorem splitSlash_joinSlash : splitSlash (joinSlash parts) = parts :=
  List.splitOn_intercalate '/' hslash hne

/-- A path that ends in a slash has an empty last part. -/
theorem joinSlash_ne_slash (hlast : [] ∉ parts) (front : Text) : joinSlash parts ≠ front ++ ['/'] := by
  intro h
  have hsplit := splitSlash_joinSlash hslash hne
  rw [h, splitSlash, List.splitOn_append_cons_self] at hsplit
  exact hlast (hsplit ▸ List.mem_append_right _ List.mem_cons_self)

theorem rstripSlash_joinSlash (hlast : [] ∉ parts) : rstripSlash (joinSlash parts) = joinSlash parts := by
  rw [rstripSlash]
  cases hrev : (joinSlash parts).reverse with
  | nil => rw [List.dropWhile_nil, ← hrev, List.reverse_reverse]
  | cons c rest =>
      have hc : c ≠ '/' := fun heq => by
        rw [List.reverse_eq_cons_iff, heq] at hrev
        exact joinSlash_ne_slash hslash hne hlast rest.reverse hrev
      rw [List.dropWhile_cons_of_neg (by rwa [decide_eq_true_eq]), ← hrev, List.reverse_reverse]

end Join

/-- What an accepted name comes to. -/
theorem safeMemberName_eq (name normalized : Text) (h : safeMemberName name = .ok normalized) :
    normalized = joinSlash (namePath name) ∧ namePath name ≠ [] := by
  have hparts := safeMemberName_parts name normalized h
  have hmem := mem_namePath name
  have hslash : ∀ part ∈ namePath name, '/' ∉ part := fun part hpart => (hmem part hpart).2.2
  have hempty : [] ∉ namePath name := fun hin => (hmem [] hin).1 rfl
  have hkept : (splitSlash name).foldl (normStep false) [] = namePath name :=
    foldl_normStep_down false _ hparts.2 []
  have hnorm : normpath name = if joinSlash (namePath name) = [] then ['.']
      else joinSlash (namePath name) := by
    rw [normpath, hparts.1]
    simp only [ne_eq, not_true_eq_false, decide_false, hkept, List.nil_append]
  simp only [safeMemberName, bind_ok_iff, raiseIf_ok_iff, not_or, exists_const] at h
  rcases h with ⟨-, ⟨hne, hdot, -⟩, hok⟩
  have hnil : namePath name ≠ [] := by
    intro hnil
    rw [hnorm, hnil] at hdot
    exact hdot rfl
  have hjoin : joinSlash (namePath name) ≠ [] := by
    intro hjoin
    have hsplit := splitSlash_joinSlash hslash hnil
    rw [hjoin] at hsplit
    exact hempty (hsplit ▸ List.mem_cons_self)
  rw [hnorm, if_neg hjoin] at hok
  have hdots : removeDotSlash (joinSlash (namePath name)) = joinSlash (namePath name) := by
    rw [removeDotSlash, if_neg]
    intro hprefix
    rcases List.isPrefixOf_iff_prefix.mp hprefix with ⟨rest, hrest⟩
    have hsplit := splitSlash_joinSlash hslash hnil
    rw [← hrest, show ['.', '/'] ++ rest = ['.'] ++ '/' :: rest from rfl, splitSlash,
      List.splitOn_append_cons_self] at hsplit
    have hfirst : ['.'] ∈ namePath name := hsplit ▸ List.mem_append_left _ (by decide)
    exact (hmem _ hfirst).2.1 rfl
  rw [hdots, rstripSlash_joinSlash hslash hnil hempty] at hok
  exact ⟨(Except.ok.inj hok).symm, hnil⟩

theorem joinSlash_concat (front : List Text) (last : Text) (h : front ≠ []) :
    joinSlash (front ++ [last]) = joinSlash front ++ '/' :: last := by
  induction front with
  | nil => exact absurd rfl h
  | cons part rest ih =>
      by_cases hrest : rest = []
      · rw [hrest, List.singleton_append, joinSlash, joinSlash, List.intercalate_cons_cons,
          List.intercalate_singleton, List.intercalate_singleton, List.append_assoc,
          List.singleton_append]
      · have hne : rest ++ [last] ≠ [] := List.append_ne_nil_of_left_ne_nil hrest _
        have ih := ih hrest
        rw [joinSlash, joinSlash] at ih
        rw [List.cons_append, joinSlash, joinSlash, List.intercalate_cons_of_ne_nil hne,
          List.intercalate_cons_of_ne_nil hrest, ih]
        simp only [List.append_assoc]

theorem prefix_joinSlash (part : Text) (rest : List Text) : part <+: joinSlash (part :: rest) := by
  rw [joinSlash]
  by_cases hrest : rest = []
  · rw [hrest, List.intercalate_singleton]
  · rw [List.intercalate_cons_of_ne_nil hrest, List.append_assoc]
    exact List.prefix_append _ _

/-- The directory part of a path is the path of the parts in front of the last. -/
theorem dirname_joinSlash (front : List Text) (last : Text)
    (hslash : ∀ part ∈ front ++ [last], '/' ∉ part) (hempty : [] ∉ front ++ [last]) :
    dirname (joinSlash (front ++ [last])) = joinSlash front := by
  have hlast : ∀ c ∈ last.reverse, c ≠ '/' := fun c hc heq =>
    hslash last (List.mem_append_right _ List.mem_cons_self) (heq ▸ List.mem_reverse.mp hc)
  by_cases hfront : front = []
  · rw [hfront, List.nil_append, joinSlash, List.intercalate_singleton, dirname,
      List.dropWhile_eq_nil_iff.mpr fun c hc => decide_eq_true (hlast c hc)]
    rfl
  · have hslash' : ∀ part ∈ front, '/' ∉ part := fun part hpart =>
      hslash part (List.mem_append_left _ hpart)
    have hempty' : [] ∉ front := fun hin => hempty (List.mem_append_left _ hin)
    have hjoin : joinSlash (front ++ [last]) = joinSlash front ++ '/' :: last :=
      joinSlash_concat front last hfront
    have hhead : ((joinSlash (front ++ [last])).reverse.dropWhile (· ≠ '/')).reverse =
        joinSlash front ++ ['/'] := by
      rw [hjoin, List.reverse_append, List.reverse_cons, List.append_assoc,
        List.dropWhile_append_of_pos fun c hc => decide_eq_true (hlast c hc), List.singleton_append,
        List.dropWhile_cons_of_neg (by decide), List.reverse_cons, List.reverse_reverse]
    -- There is more than slashes in front of the last one.
    have hall : (joinSlash front ++ ['/']).all (· = '/') ≠ true := by
      rcases List.exists_cons_of_ne_nil hfront with ⟨part, rest, rfl⟩
      intro hslashes
      cases part with
      | nil => exact hempty' List.mem_cons_self
      | cons c cs =>
          have hc : c ∈ joinSlash ((c :: cs) :: rest) ++ ['/'] :=
            List.mem_append_left _ ((prefix_joinSlash (c :: cs) rest).subset List.mem_cons_self)
          have heq := List.all_eq_true.mp hslashes c hc
          rw [decide_eq_true_eq] at heq
          exact hslash' _ List.mem_cons_self (heq ▸ List.mem_cons_self)
    have hstrip : rstripSlash (joinSlash front ++ ['/']) = rstripSlash (joinSlash front) := by
      rw [rstripSlash, rstripSlash, List.reverse_append, List.reverse_singleton,
        List.singleton_append, List.dropWhile_cons_of_pos (by decide)]
    rw [dirname]
    simp only [hhead]
    rw [if_neg hall, hstrip, rstripSlash_joinSlash hslash' hfront hempty']

/-- A target behind a directory has the directory's parts in front of its own. -/
theorem splitSlash_pathJoin (front : List Text) (target : Text)
    (hslash : ∀ part ∈ front, '/' ∉ part) (hempty : [] ∉ front)
    (hrel : ['/'].isPrefixOf target = false) :
    splitSlash (pathJoin (joinSlash front) target) = front ++ splitSlash target := by
  rw [pathJoin, if_neg (by rw [hrel]; exact Bool.false_ne_true)]
  by_cases hfront : front = []
  · rw [hfront]
    rfl
  · have hends : (joinSlash front).getLast? ≠ some '/' := fun h => by
      rcases List.getLast?_eq_some_iff.mp h with ⟨rest, hrest⟩
      exact joinSlash_ne_slash hslash hfront hempty rest hrest
    have hnil : joinSlash front ≠ [] := fun h => by
      have hsplit := splitSlash_joinSlash hslash hfront
      rw [h] at hsplit
      exact hempty (hsplit ▸ List.mem_cons_self)
    rw [if_neg (not_or.mpr ⟨hnil, hends⟩), splitSlash, List.splitOn_append_cons_self]
    exact congrArg (· ++ splitSlash target) (splitSlash_joinSlash hslash hfront)

/-- A path is relative if it does not begin with a slash. -/
theorem slashRoot_eq_nil_iff (text : Text) :
    slashRoot text = [] ↔ ['/'].isPrefixOf text = false := by
  unfold slashRoot
  by_cases hroot : ['/'].isPrefixOf text = true
  · rw [hroot]
    split
    · exact ⟨fun h => absurd h (by decide), fun h => absurd h (by decide)⟩
    · exact ⟨fun h => absurd h (by decide), fun h => absurd h (by decide)⟩
  · have hdouble : ['/', '/'].isPrefixOf text = false := by
      cases text with
      | nil => rfl
      | cons c rest =>
          rw [List.isPrefixOf_cons_cons, List.isPrefixOf_nil_left, Bool.and_true, Bool.not_eq_true]
            at hroot
          rw [List.isPrefixOf_cons_cons, hroot, Bool.false_and]
    rw [hdouble, Bool.false_and, if_neg Bool.false_ne_true, if_neg hroot]
    exact ⟨fun _ => Bool.not_eq_true _ ▸ hroot, fun _ => rfl⟩

theorem slashRoot_pathJoin (front : List Text) (target : Text)
    (hslash : ∀ part ∈ front, '/' ∉ part) (hempty : [] ∉ front)
    (hrel : ['/'].isPrefixOf target = false) :
    slashRoot (pathJoin (joinSlash front) target) = [] := by
  have hsplit := splitSlash_pathJoin front target hslash hempty hrel
  rw [slashRoot_eq_nil_iff]
  cases front with
  | nil =>
      rw [pathJoin, if_neg (by rw [hrel]; exact Bool.false_ne_true)]
      exact hrel
  | cons part rest =>
      -- A slash in front would make the first part empty.
      rw [← Bool.not_eq_true]
      refine fun hprefix => hempty ?_
      rcases List.isPrefixOf_iff_prefix.mp hprefix with ⟨behind, hbehind⟩
      rw [← hbehind, show ['/'] ++ behind = [] ++ '/' :: behind from rfl, splitSlash,
        List.splitOn_append_cons_self, List.splitOn_nil, List.singleton_append, List.cons_append,
        List.cons.injEq] at hsplit
      exact hsplit.1 ▸ List.mem_cons_self

/-- Once an upward part is kept in front, it stays there. -/
theorem foldl_normStep_up (parts kept : List Text) (h : kept.head? = some ['.', '.']) :
    (parts.foldl (normStep false) kept).head? = some ['.', '.'] := by
  induction parts generalizing kept with
  | nil => exact h
  | cons part rest ih =>
      refine ih _ ?_
      rcases List.head?_eq_some_iff.mp h with ⟨others, rfl⟩
      rw [normStep]
      split
      · rfl
      · split
        · rfl
        · next hstep =>
          -- The last part kept is not an upward one, so it is not the first.
          cases others with
          | nil => exact absurd (Or.inr (Or.inr rfl)) hstep
          | cons other others => rfl

/-- A path of an upward part in front begins with it. -/
theorem joinSlash_up (kept : List Text) (h : kept.head? = some ['.', '.']) :
    joinSlash kept = ['.', '.'] ∨ ['.', '.', '/'].isPrefixOf (joinSlash kept) = true := by
  rcases List.head?_eq_some_iff.mp h with ⟨others, rfl⟩
  cases others with
  | nil => exact Or.inl rfl
  | cons other others =>
      refine Or.inr (List.isPrefixOf_iff_prefix.mpr ?_)
      rw [joinSlash, List.intercalate_cons_cons]
      exact ⟨_, by rw [List.append_assoc]; rfl⟩

/-! ### What an accepted archive is -/

/-- A member that is accepted under a name. -/
structure MemberOk (member : TarMember) (name : Text) : Prop where
  safe : safeMemberName member.name = .ok name
  type : member.type ≠ .other
  target : member.type = .sym ∨ member.type = .lnk → safeLinkTarget name member.linkname = .ok ()
  metadata : name = "metadata".toList → member.type = .file

theorem checkMember_ok_iff (seen seen' : Seen) (member : TarMember) :
    checkMember seen member = .ok seen' ↔
      ∃ name, MemberOk member name ∧ name ∉ seen.names ∧
        seen' = ⟨name :: seen.names,
          if name = "metadata".toList then some member.contents else seen.metadataRaw⟩ := by
  simp only [checkMember, bind_ok_iff, raiseIf_ok_iff, exists_const, apply_ite (· = Except.ok seen'),
    pure_ok_iff]
  constructor
  · rintro ⟨name, hsafe, htype, h⟩
    split at h
    · next hlink =>
      rcases h with ⟨_, htarget, hnew, hfile, rfl⟩
      rw [not_and, not_not] at hfile
      exact ⟨name, ⟨hsafe, htype, fun _ => htarget, hfile⟩, hnew, rfl⟩
    · next hlink =>
      rcases h with ⟨-, hnew, hfile, rfl⟩
      rw [not_and, not_not] at hfile
      exact ⟨name, ⟨hsafe, htype, fun h => absurd h hlink, hfile⟩, hnew, rfl⟩
  · rintro ⟨name, hok, hnew, rfl⟩
    have hfile : ¬ (name = "metadata".toList ∧ member.type ≠ .file) := by
      rw [not_and, not_not]
      exact hok.metadata
    refine ⟨name, hok.safe, hok.type, ?_⟩
    split
    · next hlink => exact ⟨(), hok.target hlink, hnew, hfile, rfl⟩
    · exact ⟨trivial, hnew, hfile, rfl⟩

/-- The contents of `metadata`, the last one if there were several. -/
def metadataContents (raw : Option Bytes) : List (TarMember × Text) → Option Bytes
  | [] => raw
  | (member, name) :: rest =>
      metadataContents (if name = "metadata".toList then some member.contents else raw) rest

/-- An archive is accepted if its members are, each under a name of its own. -/
theorem foldlM_checkMember_iff (members : List TarMember) (seen seen' : Seen) :
    members.foldlM checkMember seen = .ok seen' ↔
      ∃ names, List.Forall₂ MemberOk members names ∧ names.Nodup ∧
        (∀ name ∈ names, name ∉ seen.names) ∧
        seen' = ⟨names.reverse ++ seen.names,
          metadataContents seen.metadataRaw (members.zip names)⟩ := by
  induction members generalizing seen with
  | nil =>
      rw [List.foldlM_nil, pure_ok_iff]
      constructor
      · rintro rfl
        exact ⟨[], List.Forall₂.nil, List.nodup_nil, fun _ h => absurd h List.not_mem_nil, rfl⟩
      · rintro ⟨names, hforall, -, -, rfl⟩
        rw [List.forall₂_nil_left_iff] at hforall
        rw [hforall]
        rfl
  | cons member rest ih =>
      simp only [List.foldlM_cons, bind_ok_iff, checkMember_ok_iff, ih]
      constructor
      · rintro ⟨_, ⟨name, hok, hnew, rfl⟩, names, hforall, hnodup, hfresh, rfl⟩
        refine ⟨name :: names, List.Forall₂.cons hok hforall, ?_, ?_, ?_⟩
        · exact List.nodup_cons.mpr ⟨fun h => hfresh name h List.mem_cons_self, hnodup⟩
        · exact List.forall_mem_cons.mpr
            ⟨hnew, fun other h hold => hfresh other h (List.mem_cons_of_mem _ hold)⟩
        · simp only [List.reverse_cons, List.append_assoc, List.singleton_append, List.zip_cons_cons,
            metadataContents]
      · rintro ⟨all, hforall, hnodup, hfresh, rfl⟩
        rcases List.forall₂_cons_left_iff.mp hforall with ⟨name, names, hok, hrest, rfl⟩
        rw [List.nodup_cons] at hnodup
        rw [List.forall_mem_cons] at hfresh
        refine ⟨_, ⟨name, hok, hfresh.1, rfl⟩, names, hrest, hnodup.2, ?_, ?_⟩
        · intro other hother hmem
          rcases List.mem_cons.mp hmem with rfl | hold
          · exact hnodup.1 hother
          · exact hfresh.2 other hother hold
        · simp only [List.reverse_cons, List.append_assoc, List.singleton_append, List.zip_cons_cons,
            metadataContents]

/-- All members of an accepted archive are accepted, and no two have the same
    path. -/
theorem checkMembers_ok (members : List TarMember) (seen : Seen)
    (h : checkMembers members = .ok seen) :
    (∀ m ∈ members, ∃ name, MemberOk m name) ∧ (members.map fun m => namePath m.name).Nodup := by
  rcases (foldlM_checkMember_iff members _ seen).mp h with ⟨names, hok, hnodup, -⟩
  refine ⟨fun m hm => ?_, ?_⟩
  · rcases List.forall₂_iff_get.mp hok with ⟨hlength, hget⟩
    rcases List.getElem_of_mem hm with ⟨k, hk, rfl⟩
    exact ⟨_, hget k hk (hlength ▸ hk)⟩
  · have hnames : names = (members.map fun m => namePath m.name).map joinSlash := by
      rw [List.map_map]
      clear hnodup h
      induction hok with
      | nil => rfl
      | cons hfirst _ ih =>
          rw [List.map_cons, ← ih, Function.comp_apply, (safeMemberName_eq _ _ hfirst.safe).1]
    rw [hnames] at hnodup
    exact List.Nodup.of_map _ hnodup

end Zd1200
