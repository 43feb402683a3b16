import Mathlib.Data.List.Infix
import Mathlib.Data.List.TakeWhile
import Zd1200.Lib.Delimited

/-!
# What `sed` Takes From Lines

Two ways in which scripts read small files with `sed`.

`sed -n 's/^KEY=//p' | head -n 1` reads the first line that begins with a key.
`firstField` is that reader, and a text that was written line by line is read
back by it: `firstField_fieldText`.

`sed 's/.*\(PATTERN\).*/\1/p'` takes what a pattern matches in a line. The
leading `.*` takes as much as it can, so it is the last place of the line at
which the pattern matches. `lastMatch` goes over these places from the end.
What it finds does not depend on what stands in front of a match
(`lastMatch_append`), and where a pattern cannot begin it goes on
(`lastMatch_skip`).

## Main definitions

* `firstField`: The first line that begins with a key.
* `fieldText`, `KeysApart`: Texts of fields, and keys that are told apart.
* `lastMatch`: The last place of a line at which something matches.
* `quotedBehind`: A text in quotes behind an opening.
* `attributeText`: A name with a text in quotes.
* `substitute`: `sed 's/pattern/replacement/'` on a line.

## Theorems

* `firstField_fieldText`, `firstField_absent`: A text that was written field by field.
* `lastMatch_append`, `lastMatch_skip`, `lastMatch_self`: Steps of the search.
* `lastMatch_attributes`: The last attribute with a name.
* `substitute_of_not`, `substitute_of_infix`: What a substitution does.
-/

namespace Zd1200

/-! ### The first line with a key -/

section FirstField

variable {α : Type} [DecidableEq α]

/-- `sed -n "s/^$key//p" | head -n 1`. -/
def firstField (newline : α) (key text : List α) : List α :=
  ((text.splitOn newline).findSome? key.isPrefixOf?).getD []

/-- The lines of a text are those that it was written of, and nothing behind
    the last end. -/
theorem splitOn_lines (newline : α) (lines : List (List α)) (h : ∀ line ∈ lines, newline ∉ line) :
    (lines.flatMap (· ++ [newline])).splitOn newline = lines ++ [[]] := by
  induction lines with
  | nil => rfl
  | cons line rest ih =>
      have hline := h line List.mem_cons_self
      have ih := ih fun other hother => h other (List.mem_cons_of_mem _ hother)
      rw [List.flatMap_cons]
      clear h
      -- The first line is read up to its end.
      induction line with
      | nil =>
          rw [List.nil_append, List.singleton_append, List.splitOn_cons_eq_if_modifyHead,
            if_pos (beq_self_eq_true newline), ih]
          rfl
      | cons c line ihl =>
          rw [List.mem_cons, not_or] at hline
          rw [List.cons_append, List.cons_append, List.splitOn_cons_eq_if_modifyHead,
            if_neg (fun heq => hline.1 (beq_iff_eq.mp heq).symm), ihl hline.2]
          rfl

/-- A text of fields, each on a line of its own behind its key. -/
def fieldText (newline : α) (fields : List (List α × List α)) : List α :=
  fields.flatMap fun field => field.1 ++ field.2 ++ [newline]

/-- Keys of which none begins with another. -/
def KeysApart (keys : List (List α)) : Prop := keys.Pairwise fun a b => ¬ a <+: b ∧ ¬ b <+: a

instance (keys : List (List α)) : Decidable (KeysApart keys) :=
  inferInstanceAs (Decidable (keys.Pairwise fun a b => ¬ a <+: b ∧ ¬ b <+: a))

/-- A key does not begin a line that begins with another one. -/
theorem isPrefixOf?_eq_none (key other value : List α) (h : ¬ key <+: other ∧ ¬ other <+: key) :
    key.isPrefixOf? (other ++ value) = none := by
  rw [Option.eq_none_iff_forall_not_mem]
  intro after hafter
  have hkey : key <+: other ++ value :=
    ⟨after, List.isPrefixOf?_eq_some_iff_append_eq.mp (Option.mem_def.mp hafter)⟩
  exact (List.prefix_or_prefix_of_prefix hkey (List.prefix_append other value)).elim h.1 h.2

/-- The lines of a text of fields. -/
theorem splitOn_fieldText (newline : α) (fields : List (List α × List α))
    (hlines : ∀ field ∈ fields, newline ∉ field.1 ∧ newline ∉ field.2) :
    (fieldText newline fields).splitOn newline =
      (fields.map fun field => field.1 ++ field.2) ++ [[]] := by
  have hends : ∀ line ∈ fields.map fun field => field.1 ++ field.2, newline ∉ line := by
    intro line hline hnew
    rcases List.mem_map.mp hline with ⟨field, hfield, rfl⟩
    exact (List.mem_append.mp hnew).elim (hlines field hfield).1 (hlines field hfield).2
  have htext : fieldText newline fields =
      (fields.map fun field => field.1 ++ field.2).flatMap (· ++ [newline]) := by
    rw [fieldText, List.flatMap_map]
  rw [htext, splitOn_lines newline _ hends]

/-- Every field is read back. -/
theorem firstField_fieldText (newline : α) (fields : List (List α × List α))
    (hlines : ∀ field ∈ fields, newline ∉ field.1 ∧ newline ∉ field.2)
    (hapart : KeysApart (fields.map Prod.fst)) (key value : List α) (hmem : (key, value) ∈ fields) :
    firstField newline key (fieldText newline fields) = value := by
  rw [firstField, splitOn_fieldText newline fields hlines]
  clear hlines
  -- The lines in front of the field begin with other keys.
  induction fields with
  | nil => exact absurd hmem List.not_mem_nil
  | cons field rest ih =>
      rw [KeysApart, List.map_cons, List.pairwise_cons] at hapart
      rw [List.map_cons, List.cons_append, List.findSome?_cons]
      rcases List.mem_cons.mp hmem with heq | hrest
      · rw [← heq, List.isPrefixOf?_eq_some_iff_append_eq.mpr rfl]
        rfl
      · rw [isPrefixOf?_eq_none key field.1 field.2 (hapart.1 key (List.mem_map_of_mem hrest)).symm]
        exact ih hapart.2 hrest

/-- A key that no field has is not found. -/
theorem firstField_absent (newline : α) (fields : List (List α × List α))
    (hlines : ∀ field ∈ fields, newline ∉ field.1 ∧ newline ∉ field.2) (key : List α)
    (hkey : key ≠ []) (h : ∀ field ∈ fields, ¬ key <+: field.1 ∧ ¬ field.1 <+: key) :
    firstField newline key (fieldText newline fields) = [] := by
  rw [firstField, splitOn_fieldText newline fields hlines]
  have hnone : ∀ line ∈ (fields.map fun field => field.1 ++ field.2) ++ [[]],
      key.isPrefixOf? line = none := by
    intro line hline
    rcases List.mem_append.mp hline with hline | hlast
    · rcases List.mem_map.mp hline with ⟨field, hfield, rfl⟩
      exact isPrefixOf?_eq_none key field.1 field.2 (h field hfield)
    · rcases List.exists_cons_of_ne_nil hkey with ⟨c, rest, rfl⟩
      rw [List.mem_singleton.mp hlast]
      rfl
  rw [List.findSome?_eq_none_iff.mpr hnone, Option.getD_none]

end FirstField

/-! ### The last match of a line -/

section LastMatch

variable {α β : Type} {capture : List α → Option β}

/-- The last place of a line at which something matches. -/
def lastMatch (capture : List α → Option β) : List α → Option β
  | [] => capture []
  | c :: rest => (lastMatch capture rest).or (capture (c :: rest))

/-- What stands in front of a match does not matter. -/
theorem lastMatch_append (front back : List α) (v : β) (h : lastMatch capture back = some v) :
    lastMatch capture (front ++ back) = some v := by
  induction front with
  | nil => exact h
  | cons c front ih => rw [List.cons_append, lastMatch, ih, Option.some_or]

/-- A place at which nothing matches is passed over. -/
theorem lastMatch_cons (c : α) (rest : List α) (h : capture (c :: rest) = none) :
    lastMatch capture (c :: rest) = lastMatch capture rest := by
  rw [lastMatch, h, Option.or_none]

/-- Text in which the pattern cannot begin is passed over. -/
theorem lastMatch_skip (front back : List α)
    (h : ∀ c ∈ front, ∀ rest, capture (c :: rest) = none) :
    lastMatch capture (front ++ back) = lastMatch capture back := by
  induction front with
  | nil => rfl
  | cons c front ih =>
      rw [List.cons_append, lastMatch_cons c _ (h c List.mem_cons_self _),
        ih fun d hd => h d (List.mem_cons_of_mem c hd)]

/-- The match at the front is the last one if there is none behind it. -/
theorem lastMatch_self (c : α) (rest : List α) (h : lastMatch capture rest = none) :
    lastMatch capture (c :: rest) = capture (c :: rest) := by
  rw [lastMatch, h, Option.none_or]

end LastMatch

/-! ### Texts in quotes -/

section Quoted

variable {α : Type} [DecidableEq α]

/-- `open\([^q]*\)q`, where `q` is the quote. -/
def quotedBehind (quote : α) (opening line : List α) : Option (List α) :=
  (opening.isPrefixOf? line).bind fun after =>
    if quote ∈ after then some (after.takeWhile (· ≠ quote)) else none

/-- A text in quotes is found where it was written. -/
theorem quotedBehind_append (quote : α) (opening v rest : List α) (hv : quote ∉ v) :
    quotedBehind quote opening (opening ++ (v ++ quote :: rest)) = some v := by
  have hprefix : opening.isPrefixOf? (opening ++ (v ++ quote :: rest)) =
      some (v ++ quote :: rest) := List.isPrefixOf?_eq_some_iff_append_eq.mpr rfl
  have hmem : quote ∈ v ++ quote :: rest := List.mem_append_right v List.mem_cons_self
  rw [quotedBehind, hprefix, Option.bind_some, if_pos hmem, Option.some.injEq]
  have hfront : ∀ c ∈ v, decide (c ≠ quote) = true := fun c hc =>
    decide_eq_true fun heq => hv (heq ▸ hc)
  rw [List.takeWhile_append_of_pos hfront, List.takeWhile_cons_of_neg (by simp only [ne_eq, not_true_eq_false,
    decide_false, Bool.false_eq_true, not_false_eq_true]), List.append_nil]

/-- An attribute with a blank in front of it: `name="value"`. -/
def attributeText (blank eq quote : α) (a : List α × List α) : List α :=
  blank :: (a.1 ++ eq :: quote :: (a.2 ++ [quote]))

omit [DecidableEq α] in
/-- What is neither in a name nor in a value is not in the text. -/
theorem not_mem_attributes (blank eq quote c : α) (attrs : List (List α × List α))
    (hne : c ≠ blank ∧ c ≠ eq ∧ c ≠ quote) (h : ∀ a ∈ attrs, c ∉ a.1 ∧ c ∉ a.2) :
    c ∉ attrs.flatMap (attributeText blank eq quote) := by
  intro hc
  rcases List.mem_flatMap.mp hc with ⟨a, ha, hc⟩
  simp only [attributeText, List.mem_append, List.mem_cons, List.not_mem_nil, or_false] at hc
  rcases hc with hc | hc | hc | hc | hc | hc
  · exact hne.1 hc
  · exact (h a ha).1 hc
  · exact hne.2.1 hc
  · exact hne.2.2 hc
  · exact (h a ha).2 hc
  · exact hne.2.2 hc

/-- Only its own name opens an attribute. -/
theorem quotedBehind_attributeText (blank eq quote : α) (name : List α) (a : List α × List α)
    (rest : List α) (hname : eq ∉ name) (ha : eq ∉ a.1) (hvalue : quote ∉ a.2) :
    quotedBehind quote (blank :: (name ++ [eq, quote])) (attributeText blank eq quote a ++ rest) =
      if a.1 = name then some a.2 else none := by
  split
  · next heq =>
    have h := quotedBehind_append quote (blank :: (a.1 ++ [eq, quote])) a.2 rest hvalue
    rw [← heq, ← h]
    simp only [attributeText, List.cons_append, List.append_assoc, List.nil_append]
  · next hne =>
    rw [quotedBehind, Option.bind_eq_none_iff]
    intro after hafter
    rw [List.isPrefixOf?_eq_some_iff_append_eq] at hafter
    have hfront : name ++ [eq] <+: a.1 ++ eq :: (quote :: (a.2 ++ [quote]) ++ rest) := by
      refine ⟨quote :: after, ?_⟩
      simpa only [attributeText, List.cons_append, List.cons.injEq, List.append_assoc,
        List.nil_append, true_and] using hafter
    exact absurd ((prefix_delimited_iff name a.1 _ eq hname ha).mp hfront).symm hne

/-- Nothing is found where there is no blank. -/
theorem lastMatch_quotedBehind_eq_none (blank quote : α) (opening text : List α)
    (h : blank ∉ text) : lastMatch (quotedBehind quote (blank :: opening)) text = none := by
  have hskip : ∀ c ∈ text, ∀ back,
      quotedBehind quote (blank :: opening) (c :: back) = none := by
    intro c hc back
    rw [quotedBehind, List.isPrefixOf?, if_neg (by
      rw [beq_iff_eq]
      exact fun heq => h (heq ▸ hc)), Option.bind_none]
  have hempty : lastMatch (quotedBehind quote (blank :: opening)) (text ++ []) = lastMatch _ [] :=
    lastMatch_skip text [] hskip
  rw [List.append_nil] at hempty
  rw [hempty]
  rfl

/-- Among attributes the last one with a name is taken. -/
theorem lastMatch_attributes (blank eq quote : α) (name : List α) (attrs : List (List α × List α))
    (tail : List α) (hblank : blank ≠ eq ∧ blank ≠ quote) (hname : eq ∉ name)
    (h : ∀ a ∈ attrs, eq ∉ a.1 ∧ quote ∉ a.2 ∧ blank ∉ a.1 ∧ blank ∉ a.2)
    (htail : lastMatch (quotedBehind quote (blank :: (name ++ [eq, quote]))) tail = none) :
    lastMatch (quotedBehind quote (blank :: (name ++ [eq, quote])))
        (attrs.flatMap (attributeText blank eq quote) ++ tail) =
      (attrs.reverse.find? fun a => a.1 = name).map Prod.snd := by
  induction attrs with
  | nil => exact htail
  | cons a rest ih =>
      rcases h a List.mem_cons_self with ⟨heq, hquote, hblank1, hblank2⟩
      have hskip : ∀ c ∈ a.1 ++ eq :: quote :: (a.2 ++ [quote]), ∀ back,
          quotedBehind quote (blank :: (name ++ [eq, quote])) (c :: back) = none := by
        intro c hc back
        have hne : blank ≠ c := by
          rintro rfl
          simp only [List.mem_append, List.mem_cons, List.not_mem_nil, or_false] at hc
          rcases hc with hc | hc | hc | hc | hc
          · exact hblank1 hc
          · exact hblank.1 hc
          · exact hblank.2 hc
          · exact hblank2 hc
          · exact hblank.2 hc
        rw [quotedBehind, List.isPrefixOf?, if_neg (by simpa only [beq_iff_eq] using hne),
          Option.bind_none]
      have hhere := quotedBehind_attributeText blank eq quote name a
        (rest.flatMap (attributeText blank eq quote) ++ tail) hname heq hquote
      rw [List.flatMap_cons, List.append_assoc, List.reverse_cons, List.find?_append, Option.map_or,
        ← ih fun b hb => h b (List.mem_cons_of_mem a hb)]
      rw [attributeText, List.cons_append] at hhere ⊢
      rw [lastMatch, hhere, lastMatch_skip _ _ hskip]
      congr 1
      rw [List.find?_singleton]
      split
      · next hyes => rw [if_pos (decide_eq_true hyes), Option.map_some]
      · next hno => rw [if_neg (by simpa only [decide_eq_true_eq] using hno), Option.map_none]

end Quoted

/-! ### Substitutions -/

section Substitute

variable {α : Type} [DecidableEq α]

/-- `sed 's/pattern/replacement/'` on a line, for a pattern without special
    characters. -/
def substitute (pattern replacement : List α) : List α → List α
  | [] => if pattern.isEmpty then replacement else []
  | c :: rest =>
      match pattern.isPrefixOf? (c :: rest) with
      | some back => replacement ++ back
      | none => c :: substitute pattern replacement rest

/-- A line without the pattern stays. -/
theorem substitute_of_not (pattern replacement line : List α) (h : ¬ pattern <:+: line) :
    substitute pattern replacement line = line := by
  induction line with
  | nil =>
      have hne : pattern.isEmpty ≠ true := fun hempty =>
        h (List.isEmpty_iff.mp hempty ▸ List.infix_refl _)
      rw [substitute, if_neg hne]
  | cons c rest ih =>
      have hrest : ¬ pattern <:+: rest := fun hinside => h (hinside.trans (List.suffix_cons c rest).isInfix)
      rw [substitute]
      cases hfront : pattern.isPrefixOf? (c :: rest) with
      | none => simp only [ih hrest]
      | some back =>
          have happend := List.isPrefixOf?_eq_some_iff_append_eq.mp hfront
          exact absurd ⟨[], back, by rw [List.nil_append, happend]⟩ h

/-- Where the pattern is, the replacement is put in its place. -/
theorem substitute_of_infix (pattern replacement line : List α) (h : pattern <:+: line) :
    ∃ front back, line = front ++ (pattern ++ back) ∧
      substitute pattern replacement line = front ++ (replacement ++ back) := by
  induction line with
  | nil =>
      have hempty : pattern = [] := List.eq_nil_of_infix_nil h
      refine ⟨[], [], by rw [hempty]; rfl, ?_⟩
      rw [substitute, hempty, List.isEmpty_nil, if_pos rfl, List.append_nil, List.nil_append]
  | cons c rest ih =>
      rw [substitute]
      cases hfront : pattern.isPrefixOf? (c :: rest) with
      | some back =>
          have happend := List.isPrefixOf?_eq_some_iff_append_eq.mp hfront
          exact ⟨[], back, happend.symm, rfl⟩
      | none =>
          -- The pattern is not here, so it is in the rest.
          have hrest : pattern <:+: rest := by
            rcases List.infix_cons_iff.mp h with hprefix | hinside
            · rcases hprefix with ⟨back, happend⟩
              have hsome := List.isPrefixOf?_eq_some_iff_append_eq.mpr happend
              exact absurd (hfront.symm.trans hsome) (by
                simp only [reduceCtorEq, not_false_eq_true])
            · exact hinside
          rcases ih hrest with ⟨front, back, hline, hresult⟩
          exact ⟨c :: front, back, by rw [hline, List.cons_append], by
            simp only [hresult, List.cons_append]⟩

end Substitute

end Zd1200
