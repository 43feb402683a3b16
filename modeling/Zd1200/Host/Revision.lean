import Zd1200.Host.Signature
import Zd1200.Lib.Sed

/-!
# The Source Revision

`resolve-source-revision.sh`, which says of which revision the sources are.

The script may not run Git, so it reads its files. A branch is a file of its own
or a line in a common file, and Git moves branches from one to the other when it
likes to. A branch that is in both places is the one of its own file.

What the script prints is always taken by the builder of the runtime image
(`buildId_of_resolve`). And it does not matter where Git keeps a branch: the
revision is that of the commit to which the current branch leads, whatever else
is in the common file (`resolveSourceRevision_correct`).

## Main definitions

* `validateCommit`, `resolveSourceRevision`: The script.
* `packedCommit`: The line of a branch in the common file.
* `Repository`: What Git has written.
* `Repository.commitOf`, `Repository.headCommit`: The commit of a branch, and
  that of the sources.

## Theorems

* `packedCommit_text`: A branch is found in the common file.
* `buildId_of_resolve`: The builder takes what the script prints.
* `resolveSourceRevision_correct`: The revision of the sources.
-/

namespace Zd1200

/-! ### The script -/

/-- Hexadecimal digits, at least seven and no more than a digest has. -/
def validateCommit (commit : Bytes) : Bool :=
  commit ≠ [] ∧ commit.all isxdigit = true ∧ 7 ≤ commit.length ∧ commit.length ≤ 64

/-- `printf '%.7s\n' "${commit,,}"`. -/
def printRevision (commit : Bytes) : Bytes := (lowercase commit).take 7 ++ [10]

/-- `$(tr -d '\r\n' < file)`. -/
def oneLine (text : Bytes) : Bytes := commandOutput (text.filter fun c => c ≠ 13 ∧ c ≠ 10)

/-- Letters, digits, underscores, dots, slashes and hyphens. -/
def isRefByte (c : UInt8) : Bool :=
  (65 ≤ c ∧ c ≤ 90) ∨ (97 ≤ c ∧ c ≤ 122) ∨ isDigit c = true ∨ c ∈ [(95 : UInt8), 46, 47, 45]

/-- A name that may be used as a path. -/
def isRefName (ref : Bytes) : Bool := ¬ [46, 46] <:+: ref ∧ ref.all isRefByte = true

/-- The fields of a line for `awk`. -/
def awkFields (line : Bytes) : List Bytes :=
  (line.splitOnP fun c => c = 32 ∨ c = 9).filter (· ≠ [])

/-- `$1 !~ /^#/ && $2 == wanted { print $1 }` on a line. -/
def awkPackedRef (wanted line : Bytes) : Option Bytes :=
  let fields := awkFields line
  if (fields.headD []).head? ≠ some 35 ∧ fields.getD 1 [] = wanted then some (fields.headD [])
  else none

/-- The first line for a branch. -/
def packedCommit (wanted text : Bytes) : Bytes :=
  commandOutput ((((text.splitOn 10).findSome? (awkPackedRef wanted)).map (· ++ [10])).getD [])

/-- The commit of a branch. -/
def refCommit (file : Bytes → Option Bytes) (ref : Bytes) : Bytes :=
  match file ref with
  | some text => oneLine text
  | none =>
      match file (ascii "packed-refs") with
      | some text => packedCommit ref text
      | none => []

/-- What the script prints, if it succeeds. The files are those of the directory
    of Git. -/
def resolveSourceRevision (override : Bytes) (file : Bytes → Option Bytes) : Option Bytes :=
  if override ≠ [] then
    if validateCommit override = true then some (printRevision override) else none
  else
    match file (ascii "HEAD") with
    | none => some (ascii "0000000\n")
    | some text =>
        let head := oneLine text
        let commit? :=
          if ascii "ref: refs/" <+: head then
            let ref := head.drop 5
            if isRefName ref = true then some (refCommit file ref) else none
          else some head
        commit?.bind fun commit =>
          if validateCommit commit = true then some (printRevision commit) else none

/-! ### What is printed -/

theorem isHexByte_tolower {c : UInt8} (h : isxdigit c = true) : isHexByte (tolower c) = true := by
  rw [isxdigit, decide_eq_true_eq] at h
  rw [isHexByte, decide_eq_true_eq, tolower]
  rcases h with hdigit | hupper | hlower
  · rw [isDigit, decide_eq_true_eq] at hdigit
    rw [if_neg fun h => absurd (UInt8.le_trans h.1 hdigit.2) (by decide)]
    exact Or.inl hdigit
  · rw [if_pos ⟨hupper.1, UInt8.le_trans hupper.2 (by decide)⟩]
    right
    simp only [UInt8.le_iff_toNat_le, UInt8.toNat_add, UInt8.reduceToNat] at hupper ⊢
    omega
  · rw [if_neg fun h => absurd (UInt8.le_trans hlower.1 h.2) (by decide)]
    exact Or.inr hlower

theorem printRevision_buildId (commit : Bytes) (h : validateCommit commit = true) :
    isBuildId (commandOutput (printRevision commit)) = true := by
  rw [validateCommit, decide_eq_true_eq] at h
  rcases h with ⟨-, hhex, hlength, -⟩
  have hshort : ∀ c ∈ (lowercase commit).take 7, isHexByte c = true := by
    intro c hc
    rcases List.mem_map.mp (List.mem_of_mem_take hc) with ⟨d, hd, rfl⟩
    exact isHexByte_tolower (List.all_eq_true.mp hhex d hd)
  have hread : commandOutput (printRevision commit) = (lowercase commit).take 7 := by
    rw [printRevision, commandOutput_line]
    exact commandOutput_eq_self _ fun c hc =>
      ⟨not_hexByte_of_eq (by decide) (hshort c hc), not_hexByte_of_eq (by decide) (hshort c hc)⟩
  rw [hread, isBuildId, decide_eq_true_eq]
  refine ⟨?_, List.all_eq_true.mpr hshort⟩
  rw [List.length_take, lowercase, List.length_map]
  omega

/-- The builder of the image takes what the script prints. -/
theorem buildId_of_resolve (override : Bytes) (file : Bytes → Option Bytes) (out : Bytes)
    (h : resolveSourceRevision override file = some out) :
    isBuildId (commandOutput out) = true := by
  have hvalid : ∀ commit, (if validateCommit commit = true then some (printRevision commit)
      else none) = some out → isBuildId (commandOutput out) = true := by
    intro commit hcommit
    split at hcommit
    · next hok =>
      rw [← Option.some.inj hcommit]
      exact printRevision_buildId commit hok
    · exact absurd hcommit (by simp only [reduceCtorEq, not_false_eq_true])
  rw [resolveSourceRevision] at h
  split at h
  · exact hvalid override h
  · split at h
    · rw [← Option.some.inj h]
      decide +kernel
    · rcases Option.bind_eq_some_iff.mp h with ⟨commit, -, hcommit⟩
      exact hvalid commit hcommit

/-! ### What Git has written -/

/-- A branch and its commit. -/
structure GitRef where
  name : Bytes
  commit : Bytes

/-- A line of the common file: a comment, a branch, or the commit of a tag
    behind the line of the tag. -/
inductive PackedLine
  | header (text : Bytes)
  | ref (r : GitRef)
  | peeled (commit : Bytes)

def PackedLine.text : PackedLine → Bytes
  | .header text => 35 :: text
  | .ref r => r.commit ++ 32 :: r.name
  | .peeled commit => 94 :: commit

def PackedLine.ref? : PackedLine → Option GitRef
  | .ref r => some r
  | _ => none

/-- Lines as Git writes them. The name of a branch has no blanks. -/
def PackedLine.Readable : PackedLine → Prop
  | .header text => (10 : UInt8) ∉ text
  | .ref r => validateCommit r.commit = true ∧ r.name ≠ [] ∧
      ∀ c ∈ r.name, c ≠ 32 ∧ c ≠ 9 ∧ c ≠ 10
  | .peeled commit => commit.all isxdigit = true

/-- The current branch, or a commit without one. -/
inductive GitHead
  | branch (name : Bytes)
  | detached (commit : Bytes)

def GitHead.text : GitHead → Bytes
  | .branch name => ascii "ref: " ++ name
  | .detached commit => commit

/-- A directory of Git. -/
structure Repository where
  head : GitHead
  loose : List GitRef
  packed : Option (List PackedLine)

/-- The files of the directory. -/
def Repository.file (repo : Repository) (path : Bytes) : Option Bytes :=
  if path = ascii "HEAD" then some (repo.head.text ++ [10])
  else if path = ascii "packed-refs" then
    repo.packed.map fun lines => (lines.map PackedLine.text).flatMap (· ++ [10])
  else (repo.loose.find? fun r => r.name = path).map fun r => r.commit ++ [10]

/-- The commit of a branch, the one of its own file first. -/
def Repository.commitOf (repo : Repository) (name : Bytes) : Option Bytes :=
  ((repo.loose ++ (repo.packed.getD []).filterMap PackedLine.ref?).find? fun r =>
    r.name = name).map GitRef.commit

/-- The commit of the sources. A branch without a commit has none. -/
def Repository.headCommit (repo : Repository) : Option Bytes :=
  match repo.head with
  | .branch name => repo.commitOf name
  | .detached commit => some commit

/-- Git writes branches below `refs`. Of the names that it allows the script takes
    those without special characters. -/
def GitHead.Readable : GitHead → Prop
  | .branch name => isRefName name = true ∧ ascii "refs/" <+: name
  | .detached commit => validateCommit commit = true

structure Repository.WellFormed (repo : Repository) : Prop where
  head : repo.head.Readable
  loose : ∀ r ∈ repo.loose, validateCommit r.commit = true
  packed : ∀ lines, repo.packed = some lines → ∀ line ∈ lines, line.Readable

/-! ### The common file -/

/-- A character of a commit is no other one. -/
theorem ne_of_isxdigit {c d : UInt8} (hd : isxdigit d = false) (hc : isxdigit c = true) : c ≠ d :=
  fun heq => absurd hc (by rw [heq, hd]; exact Bool.false_ne_true)

theorem notBlank_of_isxdigit {c : UInt8} (h : isxdigit c = true) :
    decide (c = 32 ∨ c = 9) = false :=
  decide_eq_false fun heq =>
    heq.elim (ne_of_isxdigit (by decide) h) (ne_of_isxdigit (by decide) h)

/-- A comment is passed over. -/
theorem awkPackedRef_header (wanted text : Bytes) : awkPackedRef wanted (35 :: text) = none := by
  rcases List.exists_cons_of_ne_nil (List.splitOnP_ne_nil (fun c : UInt8 => c = 32 ∨ c = 9) text)
    with ⟨first, rest, hsplit⟩
  have hfields : awkFields (35 :: text) = (35 :: first) :: rest.filter (· ≠ []) := by
    rw [awkFields, List.splitOnP_cons_eq_if_modifyHead, if_neg (by decide), hsplit,
      List.modifyHead_cons, List.filter_cons_of_pos (by simp)]
  rw [awkPackedRef, hfields]
  exact if_neg fun h => h.1 rfl

/-- A line of one field is none of a branch. -/
theorem awkPackedRef_single (wanted line : Bytes) (hwanted : wanted ≠ [])
    (hline : ∀ c ∈ line, decide (c = 32 ∨ c = 9) = false) : awkPackedRef wanted line = none := by
  rw [awkPackedRef, awkFields, List.splitOnP_eq_singleton hline]
  refine if_neg fun h => hwanted ?_
  rw [← h.2]
  by_cases hnil : line = []
  · rw [hnil]
    rfl
  · have hone : [line].filter (· ≠ []) = [line] :=
      List.filter_eq_self.mpr fun l hl => decide_eq_true (List.mem_singleton.mp hl ▸ hnil)
    rw [hone]
    rfl

/-- The line of a branch. -/
theorem awkPackedRef_ref (wanted : Bytes) (r : GitRef) (h : (PackedLine.ref r).Readable) :
    awkPackedRef wanted (r.commit ++ 32 :: r.name) =
      if r.name = wanted then some r.commit else none := by
  rcases h with ⟨hcommit, hname, hblank⟩
  rw [validateCommit, decide_eq_true_eq] at hcommit
  have hhex : ∀ c ∈ r.commit, isxdigit c = true := List.all_eq_true.mp hcommit.2.1
  have hfields : awkFields (r.commit ++ 32 :: r.name) = [r.commit, r.name] := by
    rw [awkFields, List.splitOnP_append_cons_of_forall_mem
        (fun c hc => notBlank_of_isxdigit (hhex c hc)) 32 (by decide),
      List.splitOnP_eq_singleton fun c hc => decide_eq_false fun h =>
        h.elim (hblank c hc).1 (hblank c hc).2.1]
    refine List.filter_eq_self.mpr fun field hfield => decide_eq_true ?_
    rcases List.mem_pair.mp hfield with rfl | rfl
    · exact hcommit.1
    · exact hname
  have hfirst : r.commit.head? ≠ some 35 := fun h =>
    ne_of_isxdigit (by decide) (hhex 35 (List.mem_of_head? h)) rfl
  rw [awkPackedRef, hfields]
  simp only [List.headD_cons, ne_eq, hfirst, not_false_eq_true, true_and, List.getD_cons_succ,
    List.getD_cons_zero]

theorem awkPackedRef_text (wanted : Bytes) (hwanted : wanted ≠ []) (line : PackedLine)
    (h : line.Readable) :
    awkPackedRef wanted line.text =
      (line.ref?.bind fun r => if r.name = wanted then some r.commit else none) := by
  cases line with
  | header text => exact awkPackedRef_header wanted text
  | ref r => exact awkPackedRef_ref wanted r h
  | peeled commit =>
      refine awkPackedRef_single wanted _ hwanted fun c hc => ?_
      rcases List.mem_cons.mp hc with rfl | hc
      · decide
      · exact notBlank_of_isxdigit (List.all_eq_true.mp h c hc)

theorem hexBytes_of_validateCommit {commit : Bytes} (h : validateCommit commit = true) :
    ∀ c ∈ commit, isxdigit c = true :=
  List.all_eq_true.mp (of_decide_eq_true h).2.1

theorem newline_not_mem_text (line : PackedLine) (h : line.Readable) :
    (10 : UInt8) ∉ line.text := by
  intro hmem
  cases line with
  | header text =>
      rcases List.mem_cons.mp hmem with heq | hmem
      · exact absurd heq (by decide)
      · exact h hmem
  | ref r =>
      rcases List.mem_append.mp hmem with hmem | hmem
      · exact ne_of_isxdigit (by decide) (hexBytes_of_validateCommit h.1 10 hmem) rfl
      · rcases List.mem_cons.mp hmem with heq | hmem
        · exact absurd heq (by decide)
        · exact (h.2.2 10 hmem).2.2 rfl
  | peeled commit =>
      rcases List.mem_cons.mp hmem with heq | hmem
      · exact absurd heq (by decide)
      · exact ne_of_isxdigit (by decide) (List.all_eq_true.mp h 10 hmem) rfl

/-- A commit has no zeros and no line ends. -/
theorem commit_plain {commit : Bytes} (h : validateCommit commit = true) :
    ∀ c ∈ commit, c ≠ 0 ∧ c ≠ 10 ∧ c ≠ 13 := by
  intro c hc
  have hhex := hexBytes_of_validateCommit h c hc
  exact ⟨ne_of_isxdigit (by decide) hhex, ne_of_isxdigit (by decide) hhex,
    ne_of_isxdigit (by decide) hhex⟩

/-- A commit on a line of its own is read as it is. -/
theorem commandOutput_commit {commit : Bytes} (h : validateCommit commit = true) :
    commandOutput commit = commit :=
  commandOutput_eq_self _ fun c hc => (commit_plain h c hc).imp_right And.left

/-- A branch is found in the common file. -/
theorem packedCommit_text (wanted : Bytes) (hwanted : wanted ≠ []) (lines : List PackedLine)
    (hlines : ∀ line ∈ lines, line.Readable) :
    packedCommit wanted ((lines.map PackedLine.text).flatMap (· ++ [10])) =
      (((lines.filterMap PackedLine.ref?).find? fun r => r.name = wanted).map
        GitRef.commit).getD [] := by
  have hends : ∀ text ∈ lines.map PackedLine.text, (10 : UInt8) ∉ text := by
    intro text htext hmem
    rcases List.mem_map.mp htext with ⟨line, hline, rfl⟩
    exact newline_not_mem_text line (hlines line hline) hmem
  have hfound : ((lines.map PackedLine.text) ++ [[]]).findSome? (awkPackedRef wanted) =
      ((lines.filterMap PackedLine.ref?).find? fun r => r.name = wanted).map GitRef.commit := by
    clear hends
    induction lines with
    | nil =>
        rw [List.map_nil, List.nil_append, List.findSome?_cons,
          awkPackedRef_single wanted [] hwanted fun c hc => absurd hc List.not_mem_nil]
        rfl
    | cons line rest ih =>
        have ih := ih fun other hother => hlines other (List.mem_cons_of_mem _ hother)
        rw [List.map_cons, List.cons_append, List.findSome?_cons,
          awkPackedRef_text wanted hwanted line (hlines line List.mem_cons_self), ih]
        cases line with
        | header text => rfl
        | peeled commit => rfl
        | ref r =>
            by_cases hname : r.name = wanted
            · simp [PackedLine.ref?, hname]
            · simp [PackedLine.ref?, hname]
  rw [packedCommit, splitOn_lines 10 _ hends, hfound]
  rcases hfind : (lines.filterMap PackedLine.ref?).find? fun r => r.name = wanted with _ | r
  · rw [hfind]
    rfl
  · rw [hfind, Option.map_some, Option.map_some, Option.getD_some, Option.getD_some,
      commandOutput_line]
    rcases List.mem_filterMap.mp (List.mem_of_find?_eq_some hfind) with ⟨line, hline, href⟩
    cases line with
    | header text => exact absurd href (by simp only [PackedLine.ref?, reduceCtorEq,
        not_false_eq_true])
    | peeled commit => exact absurd href (by simp only [PackedLine.ref?, reduceCtorEq,
        not_false_eq_true])
    | ref other =>
        have hsame : other = r := Option.some.inj href
        rw [← hsame]
        exact commandOutput_commit (hlines _ hline).1

/-! ### The current branch -/

theorem isRefByte_ne {c : UInt8} (h : isRefByte c = true) : c ≠ 0 ∧ c ≠ 10 ∧ c ≠ 13 := by
  refine ⟨?_, ?_, ?_⟩
  · rintro rfl
    exact absurd h (by decide)
  · rintro rfl
    exact absurd h (by decide)
  · rintro rfl
    exact absurd h (by decide)

/-- A line is read without its end. -/
theorem oneLine_line (text : Bytes) (h : ∀ c ∈ text, c ≠ 0 ∧ c ≠ 10 ∧ c ≠ 13) :
    oneLine (text ++ [10]) = text := by
  have hfilter : (text ++ [10]).filter (fun c => c ≠ 13 ∧ c ≠ 10) = text := by
    rw [List.filter_append, List.filter_eq_self.mpr fun c hc =>
      decide_eq_true ⟨(h c hc).2.2, (h c hc).2.1⟩]
    exact List.append_nil text
  rw [oneLine, hfilter]
  exact commandOutput_eq_self text fun c hc => ⟨(h c hc).1, (h c hc).2.1⟩

/-- The commit of a branch, or nothing. -/
theorem refCommit_file (repo : Repository) (h : repo.WellFormed) (name : Bytes)
    (hname : ascii "refs/" <+: name) :
    refCommit repo.file name = (repo.commitOf name).getD [] := by
  rcases hname with ⟨rest, hrest⟩
  have hne : name ≠ [] := by
    rw [← hrest]
    exact List.append_ne_nil_of_left_ne_nil (by decide) _
  have hpath : ∀ other : Bytes, other.head? ≠ some 114 → name ≠ other := by
    rintro other hother rfl
    refine hother ?_
    rw [← hrest]
    rfl
  have hfile : repo.file name =
      (repo.loose.find? fun r => r.name = name).map fun r => r.commit ++ [10] := by
    rw [Repository.file, if_neg (hpath _ (by decide)), if_neg (hpath _ (by decide))]
  have hpacked : repo.file (ascii "packed-refs") =
      repo.packed.map fun lines => (lines.map PackedLine.text).flatMap (· ++ [10]) := by
    rw [Repository.file, if_neg (by decide), if_pos rfl]
  rw [refCommit, hfile, hpacked, Repository.commitOf, List.find?_append]
  rcases hloose : repo.loose.find? fun r => r.name = name with _ | r
  · rw [hloose, Option.map_none, Option.none_or]
    rcases hlines : repo.packed with _ | lines
    · rfl
    · exact packedCommit_text name hne lines (h.packed lines hlines)
  · have hcommit := h.loose r (List.mem_of_find?_eq_some hloose)
    rw [hloose, Option.map_some, Option.some_or, Option.map_some, Option.getD_some]
    exact oneLine_line r.commit (commit_plain hcommit)

/-- Commits of branches are commits. -/
theorem validateCommit_of_commitOf (repo : Repository) (h : repo.WellFormed) (name commit : Bytes)
    (hcommit : repo.commitOf name = some commit) : validateCommit commit = true := by
  rcases Option.map_eq_some_iff.mp hcommit with ⟨r, hfind, rfl⟩
  rcases List.mem_append.mp (List.mem_of_find?_eq_some hfind) with hloose | hpacked
  · exact h.loose r hloose
  · rcases List.mem_filterMap.mp hpacked with ⟨line, hline, href⟩
    rcases hlines : repo.packed with _ | lines
    · rw [hlines] at hline
      exact absurd hline List.not_mem_nil
    · rw [hlines] at hline
      have hreadable := h.packed lines hlines line hline
      cases line with
      | header text => exact absurd href (by simp only [PackedLine.ref?, reduceCtorEq,
          not_false_eq_true])
      | peeled commit => exact absurd href (by simp only [PackedLine.ref?, reduceCtorEq,
          not_false_eq_true])
      | ref other =>
          have hsame : other = r := Option.some.inj href
          exact hsame ▸ hreadable.1

theorem headCommit_valid (repo : Repository) (h : repo.WellFormed) (commit : Bytes)
    (hcommit : repo.headCommit = some commit) : validateCommit commit = true := by
  have hhead := h.head
  rw [Repository.headCommit] at hcommit
  rcases hrepo : repo.head with name | detached
  · rw [hrepo] at hcommit
    exact validateCommit_of_commitOf repo h name commit hcommit
  · rw [hrepo] at hcommit hhead
    exact Option.some.inj hcommit ▸ hhead

theorem head_text_plain (head : GitHead) (h : head.Readable) :
    ∀ c ∈ head.text, c ≠ 0 ∧ c ≠ 10 ∧ c ≠ 13 := by
  intro c hc
  cases head with
  | branch name =>
      rcases List.mem_append.mp hc with hc | hc
      · have hall : (ascii "ref: ").all (fun d => d ≠ 0 ∧ d ≠ 10 ∧ d ≠ 13) = true := by decide
        exact of_decide_eq_true (List.all_eq_true.mp hall c hc)
      · exact isRefByte_ne (List.all_eq_true.mp (of_decide_eq_true h.1).2 c hc)
  | detached commit => exact commit_plain h c hc

/-- The revision is that of the commit of the sources, wherever Git keeps its
    branch, and what the script prints is always a build id. Without a commit it
    fails. -/
theorem resolveSourceRevision_correct (repo : Repository) (h : repo.WellFormed) :
    resolveSourceRevision [] repo.file = repo.headCommit.map printRevision ∧
      ∀ override file out, resolveSourceRevision override file = some out →
        isBuildId (commandOutput out) = true := by
  refine ⟨?_, buildId_of_resolve⟩
  have hfile : repo.file (ascii "HEAD") = some (repo.head.text ++ [10]) := by
    rw [Repository.file, if_pos rfl]
  have hline : oneLine (repo.head.text ++ [10]) = repo.head.text :=
    oneLine_line _ (head_text_plain repo.head h.head)
  -- What the script takes for a commit is one, or nothing.
  have hcommit : (if ascii "ref: refs/" <+: repo.head.text then
        if isRefName (repo.head.text.drop 5) = true then
          some (refCommit repo.file (repo.head.text.drop 5)) else none
      else some repo.head.text) = some (repo.headCommit.getD []) := by
    have hhead := h.head
    rw [Repository.headCommit]
    rcases hrepo : repo.head with name | commit
    · rw [hrepo] at hhead
      have hbranch : ascii "ref: refs/" <+: (GitHead.branch name).text :=
        (List.prefix_append_right_inj (ascii "ref: ")).mpr hhead.2
      have hdrop : (GitHead.branch name).text.drop 5 = name := List.drop_left' (by decide)
      rw [if_pos hbranch, hdrop, if_pos hhead.1, refCommit_file repo h name hhead.2]
    · rw [hrepo] at hhead
      refine if_neg fun hbranch => ?_
      have hhex := hexBytes_of_validateCommit hhead 114 (hbranch.subset (by decide))
      exact absurd hhex (by decide)
  rw [resolveSourceRevision, if_neg (not_not.mpr rfl), hfile]
  simp only [hline, hcommit, Option.bind_some]
  rcases hfound : repo.headCommit with _ | commit
  · rw [Option.getD_none, Option.map_none, if_neg (by decide)]
  · rw [Option.getD_some, Option.map_some, if_pos (headCommit_valid repo h commit hfound)]

/-- A branch that is in the common file, behind a tag. -/
def packedRepository : Repository where
  head := .branch (ascii "refs/heads/main")
  loose := []
  packed := some [.header (ascii " pack-refs with: peeled fully-peeled sorted "),
    .ref ⟨ascii "refs/tags/v1", ascii "0123456789abcdef0123456789abcdef01234567"⟩,
    .peeled (ascii "76543210fedcba9876543210fedcba9876543210"),
    .ref ⟨ascii "refs/heads/main", ascii "89abcdef0123456789abcdef0123456789abcdef"⟩]

theorem packedRepository_wellFormed : packedRepository.WellFormed where
  head := (by decide +kernel : isRefName (ascii "refs/heads/main") = true ∧
    ascii "refs/" <+: ascii "refs/heads/main")
  loose := fun r hr => absurd hr List.not_mem_nil
  packed := by
    intro lines hlines line hline
    rw [← Option.some.inj hlines] at hline
    simp only [List.mem_cons, List.not_mem_nil, or_false] at hline
    have hname : ∀ name ∈ [ascii "refs/tags/v1", ascii "refs/heads/main"],
        name ≠ [] ∧ ∀ c ∈ name, c ≠ 32 ∧ c ≠ 9 ∧ c ≠ 10 := by
      decide +kernel
    rcases hline with rfl | rfl | rfl | rfl
    · exact (by decide +kernel :
        (10 : UInt8) ∉ ascii " pack-refs with: peeled fully-peeled sorted ")
    · exact ⟨by decide +kernel, hname _ List.mem_cons_self⟩
    · exact (by decide +kernel :
        (ascii "76543210fedcba9876543210fedcba9876543210").all isxdigit = true)
    · exact ⟨by decide +kernel, hname _ (List.mem_cons_of_mem _ List.mem_cons_self)⟩

/-- The branch is found, and not the tag. -/
theorem resolveSourceRevision_correct_packed :
    resolveSourceRevision [] packedRepository.file = some (ascii "89abcde\n") := by
  have h := (resolveSourceRevision_correct packedRepository packedRepository_wellFormed).1
  rw [h]
  decide +kernel

end Zd1200
