import Mathlib.Data.List.Infix
import Zd1200.Lib.Delimited

/-!
# Checksum Lines

The lines that `sha256sum` writes, one for each file.

A line has the digest of the contents and the name. A name with a line end or a
backslash in it is escaped, and such a line starts with a backslash, so that
every file has one line and names stay apart.

The digest is a parameter. That it has 64 hexadecimal digits is `HexDigest`,
and that no two texts of a list have the same one is `TellsApart`: no digest
tells all texts apart, but one can ask it of those that occur.

## Main definitions

* `sumLine`, `sumLines`: The line of a file, without its end, and the lines of
  files.
* `HexDigest`, `TellsApart`: What is known of a digest.

## Theorems

* `sumLine_noNewline`: A line is one line.
* `digest_of_sumLine_front`: A line that another one begins with has its digest.
* `sumLine_injective`: A line names one file and one digest.
* `sumLines_injective`: Lines in front of another text show the files.
-/

namespace Zd1200

/-- A character of a name that is escaped. -/
def isEscaped (c : UInt8) : Bool := c = 92 ∨ c = 10 ∨ c = 13

/-- A backslash, a line feed and a carriage return are shown as two characters. -/
def escapeByte (c : UInt8) : Bytes :=
  if c = 92 then [92, 92] else if c = 10 then [92, 110] else if c = 13 then [92, 114] else [c]

/-- The line of `sha256sum` for a file, without its end. -/
def sumLine (digest : Bytes → Bytes) (name contents : Bytes) : Bytes :=
  (if name.any isEscaped then [92] else []) ++
    (digest contents ++ ([32, 32] ++ name.flatMap escapeByte))

/-- The output of `sha256sum` for files, by name. -/
def sumLines (digest : Bytes → Bytes) (files : List (Bytes × Bytes)) : Bytes :=
  files.flatMap fun file => sumLine digest file.1 file.2 ++ [10]

def isHexByte (c : UInt8) : Bool := (48 ≤ c ∧ c ≤ 57) ∨ (97 ≤ c ∧ c ≤ 102)

/-- A digest is 64 hexadecimal digits. -/
structure HexDigest (digest : Bytes → Bytes) : Prop where
  length : ∀ text, (digest text).length = 64
  hex : ∀ text, ∀ c ∈ digest text, isHexByte c = true

/-- No two of the texts have the same digest. -/
def TellsApart (digest : Bytes → Bytes) (texts : List Bytes) : Prop :=
  ∀ a ∈ texts, ∀ b ∈ texts, digest a = digest b → a = b

theorem TellsApart.mono {digest : Bytes → Bytes} {texts texts' : List Bytes}
    (h : TellsApart digest texts) (hsub : ∀ text ∈ texts', text ∈ texts) :
    TellsApart digest texts' := fun a ha b hb => h a (hsub a ha) b (hsub b hb)

theorem not_hexByte_of_eq {c d : UInt8} (hd : isHexByte d = false) (h : isHexByte c = true) :
    c ≠ d := by
  rintro rfl
  rw [hd] at h
  exact absurd h Bool.false_ne_true

/-- An escaped character is shown without a line feed. -/
theorem escapeByte_noNewline (c : UInt8) : (10 : UInt8) ∉ escapeByte c := by
  unfold escapeByte
  split
  · decide
  · split
    · decide
    · split
      · decide
      · next hne _ => exact fun h => hne (List.mem_singleton.mp h).symm

theorem escapeByte_noNul {c : UInt8} (hc : c ≠ 0) : (0 : UInt8) ∉ escapeByte c := by
  unfold escapeByte
  split
  · decide
  · split
    · decide
    · split
      · decide
      · exact fun hmem => hc (List.mem_singleton.mp hmem).symm

/-- How a character is shown, unless it is the one character itself. -/
theorem escapeByte_cases (c : UInt8) :
    (∃ mark, (c, mark) ∈ [((92 : UInt8), (92 : UInt8)), (10, 110), (13, 114)] ∧
      escapeByte c = [92, mark]) ∨ (c ≠ 92 ∧ escapeByte c = [c]) := by
  unfold escapeByte
  split
  · next hc => exact .inl ⟨92, by simp only [hc, List.mem_cons, true_or], rfl⟩
  · next hback =>
    split
    · next hc => exact .inl ⟨110, by simp only [hc, List.mem_cons, true_or, or_true], rfl⟩
    · split
      · next hc => exact .inl ⟨114, by simp only [hc, List.mem_cons, true_or, or_true], rfl⟩
      · exact .inr ⟨hback, rfl⟩

/-- Characters that are shown alike are the same, and so is what follows. -/
theorem escapeByte_append (c d : UInt8) (rest rest' : Bytes)
    (h : escapeByte c ++ rest = escapeByte d ++ rest') : c = d ∧ rest = rest' := by
  rcases escapeByte_cases c with ⟨mark, hmark, hc⟩ | ⟨hc', hc⟩
  · rcases escapeByte_cases d with ⟨mark', hmark', hd⟩ | ⟨hd', hd⟩
    · rw [hc, hd] at h
      simp only [List.cons_append, List.nil_append, List.cons.injEq, true_and] at h
      rcases h with ⟨rfl, hrest⟩
      refine ⟨?_, hrest⟩
      -- The mark tells which of the three it is.
      simp only [List.mem_cons, Prod.mk.injEq, List.not_mem_nil, or_false] at hmark hmark'
      rcases hmark with ⟨rfl, rfl⟩ | ⟨rfl, rfl⟩ | ⟨rfl, rfl⟩ <;>
        rcases hmark' with ⟨rfl, hm⟩ | ⟨rfl, hm⟩ | ⟨rfl, hm⟩ <;>
        first | rfl | exact absurd hm (by decide)
    · rw [hc, hd] at h
      exact absurd (List.cons.inj h).1.symm hd'
  · rcases escapeByte_cases d with ⟨mark', hmark', hd⟩ | ⟨hd', hd⟩
    · rw [hc, hd] at h
      exact absurd (List.cons.inj h).1 hc'
    · rw [hc, hd] at h
      exact List.cons.inj h

theorem escape_injective (a b : Bytes) (h : a.flatMap escapeByte = b.flatMap escapeByte) :
    a = b := by
  have hne : ∀ c, escapeByte c ≠ [] := fun c => by
    unfold escapeByte
    split
    · exact List.cons_ne_nil _ _
    · split
      · exact List.cons_ne_nil _ _
      · split
        · exact List.cons_ne_nil _ _
        · exact List.cons_ne_nil _ _
  induction a generalizing b with
  | nil =>
      cases b with
      | nil => rfl
      | cons d b =>
          rw [List.flatMap_nil, List.flatMap_cons] at h
          exact absurd (List.append_eq_nil_iff.mp h.symm).1 (hne d)
  | cons c a ih =>
      cases b with
      | nil =>
          rw [List.flatMap_nil, List.flatMap_cons] at h
          exact absurd (List.append_eq_nil_iff.mp h).1 (hne c)
      | cons d b =>
          rw [List.flatMap_cons, List.flatMap_cons] at h
          rcases escapeByte_append c d _ _ h with ⟨rfl, hrest⟩
          rw [ih b hrest]

theorem sumLines_cons (digest : Bytes → Bytes) (file : Bytes × Bytes)
    (files : List (Bytes × Bytes)) :
    sumLines digest (file :: files)
      = sumLine digest file.1 file.2 ++ [10] ++ sumLines digest files := List.flatMap_cons ..

section Lines

variable (digest : Bytes → Bytes) (h : HexDigest digest)

include h

/-- A line is one line. -/
theorem sumLine_noNewline (name contents : Bytes) :
    (10 : UInt8) ∉ sumLine digest name contents := by
  unfold sumLine
  intro hmem
  rcases List.mem_append.mp hmem with hmem | hmem
  · split at hmem
    · exact absurd hmem (by decide)
    · exact absurd hmem List.not_mem_nil
  · rcases List.mem_append.mp hmem with hmem | hmem
    · exact not_hexByte_of_eq (by decide) (h.hex contents _ hmem) rfl
    · rcases List.mem_append.mp hmem with hmem | hmem
      · exact absurd hmem (by decide)
      · rcases List.mem_flatMap.mp hmem with ⟨c, -, hc⟩
        exact escapeByte_noNewline c hc

theorem sumLine_noNul (name contents : Bytes) (hname : (0 : UInt8) ∉ name) :
    (0 : UInt8) ∉ sumLine digest name contents := by
  unfold sumLine
  intro hmem
  rcases List.mem_append.mp hmem with hmem | hmem
  · split at hmem
    · exact absurd hmem (by decide)
    · exact absurd hmem List.not_mem_nil
  · rcases List.mem_append.mp hmem with hmem | hmem
    · exact not_hexByte_of_eq (by decide) (h.hex contents _ hmem) rfl
    · rcases List.mem_append.mp hmem with hmem | hmem
      · exact absurd hmem (by decide)
      · rcases List.mem_flatMap.mp hmem with ⟨c, hc, hzero⟩
        exact escapeByte_noNul (fun hnul => hname (hnul ▸ hc)) hzero

/-- A line starts with a digit or with a backslash. -/
theorem sumLine_head (name contents : Bytes) :
    ∃ c rest, sumLine digest name contents = c :: rest ∧ (c = 92 ∨ isHexByte c = true) := by
  unfold sumLine
  split
  · exact ⟨92, _, rfl, Or.inl rfl⟩
  · rcases hdigest : digest contents with _ | ⟨c, rest⟩
    · exact absurd (h.length contents) (by rw [hdigest]; decide)
    · exact ⟨c, _, rfl, Or.inr (h.hex contents c (hdigest ▸ List.mem_cons_self))⟩

/-- Both lines are escaped or neither is. -/
theorem sumLine_prefix_rest (name contents name' contents' : Bytes)
    (hpre : sumLine digest name contents <+: sumLine digest name' contents') :
    name.any isEscaped = name'.any isEscaped ∧
      digest contents ++ ([32, 32] ++ name.flatMap escapeByte) <+:
        digest contents' ++ ([32, 32] ++ name'.flatMap escapeByte) := by
  have hdigit : ∀ text back : Bytes, ∀ rest, ¬ digest text ++ back = 92 :: rest := by
    intro text back rest heq
    rcases hdigest : digest text with _ | ⟨c, digits⟩
    · exact absurd (h.length text) (by rw [hdigest]; decide)
    · rw [hdigest, List.cons_append, List.cons.injEq] at heq
      exact not_hexByte_of_eq (by decide) (h.hex text c (hdigest ▸ List.mem_cons_self)) heq.1
  unfold sumLine at hpre
  rcases hname : name.any isEscaped with _ | _
  · rcases hname' : name'.any isEscaped with _ | _
    · rw [hname, hname', if_neg Bool.false_ne_true, List.nil_append, List.nil_append] at hpre
      exact ⟨rfl, hpre⟩
    · rw [hname, hname', if_neg Bool.false_ne_true, if_pos rfl, List.nil_append] at hpre
      -- A digit is not a backslash.
      rcases hdigest : digest contents with _ | ⟨c, digits⟩
      · exact absurd (h.length contents) (by rw [hdigest]; decide)
      · rw [hdigest, List.cons_append, List.singleton_append, List.cons_prefix_cons] at hpre
        exact absurd hpre.1
          (not_hexByte_of_eq (by decide) (h.hex contents c (hdigest ▸ List.mem_cons_self)))
  · rcases hname' : name'.any isEscaped with _ | _
    · rw [hname, hname', if_neg Bool.false_ne_true, if_pos rfl, List.nil_append] at hpre
      rcases hpre with ⟨back, hback⟩
      exact absurd hback.symm (hdigit contents' _ _)
    · rw [hname, hname', if_pos rfl, List.singleton_append, List.singleton_append,
        List.cons_prefix_cons] at hpre
      exact ⟨rfl, hpre.2⟩

/-- A line that another one begins with has its digest. -/
theorem digest_of_sumLine_front (name contents name' contents' : Bytes)
    (hpre : sumLine digest name contents <+: sumLine digest name' contents') :
    digest contents = digest contents' := by
  rcases (sumLine_prefix_rest digest h _ _ _ _ hpre).2 with ⟨back, hback⟩
  rw [List.append_assoc] at hback
  exact (List.append_inj hback (by rw [h.length, h.length])).1

/-- A line names one file and one digest. -/
theorem sumLine_injective (name contents name' contents' : Bytes)
    (heq : sumLine digest name contents = sumLine digest name' contents') :
    name = name' ∧ digest contents = digest contents' := by
  have hpre : sumLine digest name contents <+: sumLine digest name' contents' := by
    rw [heq]
  have hdigest := digest_of_sumLine_front digest h _ _ _ _ hpre
  refine ⟨?_, hdigest⟩
  have hany := (sumLine_prefix_rest digest h _ _ _ _ hpre).1
  unfold sumLine at heq
  rw [hany, hdigest] at heq
  exact escape_injective _ _
    (List.append_cancel_left (List.append_cancel_left (List.append_cancel_left heq)))

/-- Lines in front of a text that starts like none show the files, if the
    digest tells their contents apart. -/
theorem sumLines_injective (files files' : List (Bytes × Bytes)) (c c' : UInt8) (rest rest' : Bytes)
    (hc : c ≠ 92 ∧ isHexByte c = false) (hc' : c' ≠ 92 ∧ isHexByte c' = false)
    (happart : TellsApart digest (files.map Prod.snd ++ files'.map Prod.snd))
    (heq : sumLines digest files ++ c :: rest = sumLines digest files' ++ c' :: rest') :
    files = files' ∧ c :: rest = c' :: rest' := by
  have hstart : ∀ file : Bytes × Bytes, ∀ d : UInt8, d ≠ 92 ∧ isHexByte d = false →
      ∀ back back' : Bytes, sumLine digest file.1 file.2 ++ back ≠ d :: back' := by
    intro file d hd back back' heq
    rcases sumLine_head digest h file.1 file.2 with ⟨e, line, hline, hback | hhex⟩
    · rw [hline, List.cons_append, List.cons.injEq] at heq
      exact hd.1 (heq.1.symm.trans hback)
    · rw [hline, List.cons_append, List.cons.injEq] at heq
      exact not_hexByte_of_eq hd.2 hhex heq.1
  induction files generalizing files' with
  | nil =>
      cases files' with
      | nil => exact ⟨rfl, heq⟩
      | cons file files' =>
          rw [sumLines_cons, List.append_assoc, List.append_assoc] at heq
          exact absurd heq.symm (hstart file c hc _ _)
  | cons file files ih =>
      cases files' with
      | nil =>
          rw [sumLines_cons, List.append_assoc, List.append_assoc] at heq
          exact absurd heq (hstart file c' hc' _ _)
      | cons file' files' =>
          rw [sumLines_cons, sumLines_cons, List.append_assoc, List.append_assoc, List.append_assoc,
            List.append_assoc] at heq
          rcases delimited_injective _ _ _ _ 10 (sumLine_noNewline digest h file.1 file.2)
            (sumLine_noNewline digest h file'.1 file'.2) heq with ⟨hline, hrest⟩
          rcases sumLine_injective digest h _ _ _ _ hline with ⟨hname, hdigest⟩
          have hcontents : file.2 = file'.2 := happart file.2
            (List.mem_append_left _ List.mem_cons_self) file'.2
            (List.mem_append_right _ List.mem_cons_self) hdigest
          have htail : ∀ a ∈ files.map Prod.snd ++ files'.map Prod.snd,
              a ∈ (file :: files).map Prod.snd ++ (file' :: files').map Prod.snd := fun a ha =>
            (List.mem_append.mp ha).elim
              (fun h => List.mem_append_left _ (List.mem_cons_of_mem _ h))
              fun h => List.mem_append_right _ (List.mem_cons_of_mem _ h)
          rcases ih files' (fun a ha b hb => happart a (htail a ha) b (htail b hb)) hrest with
            ⟨hfiles, hback⟩
          exact ⟨by rw [Prod.ext hname hcontents, hfiles], hback⟩

end Lines

end Zd1200
