import Zd1200.Lib.Deletion
import Zd1200.Lib.XmlDocument
import Zd1200.Monitor.Attributes

/-!
# Key Redaction

What `collect` in `network-snapshot-collect.sh` does to an answer before it
keeps it: four substitutions of `sed` take out what looks like an attribute that
holds key material.

The substitutions go over text, line by line, and know nothing of tags. Each
takes a blank, one of the four names, `="`, and everything up to the next quote
on the line. That is an attribute if the attribute is spelled this way
(`PlainlySpelled`) and if nothing else is (`NoLookalike`): a value may end in a
blank, a name and `=`, and text between the tags may hold anything. What looks
like a key inside of an attribute that is cut out does no harm, since it goes
with the attribute. As long as nothing else looks like a key when its
substitution comes, `redact_documentText` says that the attributes that are
plainly spelled are cut out and everything else stays, and
`retained_removesKeys_iff` that what is kept is the document without its keys
exactly if all of them are plainly spelled.

The four substitutions are one after another. Cutting one attribute out brings
what is in front of it and what is behind it together, but behind it there is
white space or the end of the tag, so that no name is put together that way
(`keyMatch_of_cut`), and a document in which nothing looks like a key at first
is one for all four (`noLookalikesIn_of_forall`).

## Main definitions

* `keyMatch`: What a substitution looks for.
* `redact`: The four substitutions.
* `retained`: The text that is compressed.
* `RemovesKeys`: A text is the document without its keys.
* `PlainlySpelled`, `NoLookalike`: What the substitutions go by.
* `NoLookalikes`: Nothing looks like a key but what is cut out.

## Theorems

* `keyMatch_eq_some_iff`: A match, spelled out.
* `redact_eq`: The substitutions on the whole text.
* `deleteMatches_parts`: One substitution.
* `noLookalikes_of_forall`: Looking at the document once is enough.
* `redact_documentText`: All of them.
* `retained_removesKeys_iff`: When the keys are removed and nothing else.
-/

namespace Zd1200

/-! ### The program -/

/-- The attributes that hold key material. -/
def keyNames : List Bytes := [ascii "preSharedKey", ascii "x-psk", ascii "psk-hash", ascii "psk_hash"]

/-- The beginning of an expression: a blank, a name and `="`. -/
def keyNeedle (key : Bytes) : Bytes := 32 :: (key ++ [61, 34])

/-- The length of a match of ` KEY="[^"]*"` at the front. The expression is
    matched against a line, so that the value ends with the line. -/
def keyMatch (key text : Bytes) : Option Nat :=
  if keyNeedle key <+: text then
    let value := (text.drop (keyNeedle key).length).takeWhile fun c => c ≠ 34 ∧ c ≠ 10
    if text[(keyNeedle key).length + value.length]? = some 34 then
      some ((keyNeedle key).length + value.length + 1)
    else none
  else none

/-- The commands of `sed` on a line, one after another. -/
def redactLine (line : Bytes) : Bytes :=
  keyNames.foldl (fun line key => deleteMatches (keyMatch key) 0 line) line

/-- `sed -i`. -/
def redact (text : Bytes) : Bytes := [10].intercalate ((text.splitOn 10).map redactLine)

/-- The text that `collect` compresses, if it compresses any. -/
def retained (text : Bytes) : Option Bytes :=
  if (text.splitOn 10).any fun line => (findFrom line (ascii "<ajax-response>") 0).isSome then
    some (redact text)
  else none

/-! ### What should hold -/

/-- The text is the document without its keys. -/
def RemovesKeys (items : List XmlItem) (text : Bytes) : Prop :=
  ∃ items', WellFormedXml (documentEvents items') ∧ documentText items' = text ∧
    documentEvents items' = filterAttributes (fun name => decide (name ∉ keyNames)) (documentEvents items)

/-- A blank right in front of the name, none around the `=`, and a value on one
    line. -/
def XmlAttribute.PlainlySpelled (a : XmlAttribute) : Prop :=
  a.lead.getLast? = some 32 ∧ a.beforeEq = [] ∧ a.afterEq = [] ∧ 10 ∉ a.value

instance (a : XmlAttribute) : Decidable a.PlainlySpelled := inferInstanceAs (Decidable (_ ∧ _))

/-- All keys of a document are plainly spelled. -/
def PlainKeys (items : List XmlItem) : Prop :=
  ∀ a ∈ documentAttributes items, a.name ∈ keyNames → a.PlainlySpelled

instance (items : List XmlItem) : Decidable (PlainKeys items) :=
  List.decidableBAll (fun a : XmlAttribute => a.name ∈ keyNames → a.PlainlySpelled) _

/-- A part of a text: an attribute, or what is between attributes. -/
inductive XmlPart
  | raw (bytes : Bytes)
  | attr (a : XmlAttribute)

def XmlPart.text : XmlPart → Bytes
  | raw bytes => bytes
  | attr a => a.text

def partsText (parts : List XmlPart) : Bytes := parts.flatMap XmlPart.text

def XmlItem.parts : XmlItem → List XmlPart
  | start tag =>
      .raw (60 :: tag.name) ::
        (tag.attributes.map XmlPart.attr ++ [.raw (tag.finish ++ [62])])
  | item => [.raw item.text]

def documentParts (items : List XmlItem) : List XmlPart := items.flatMap XmlItem.parts

/-- An attribute with the name is cut out if it is plainly spelled. The rest of
    the white space in front of it stays. -/
def XmlPart.cut (key : Bytes) : XmlPart → XmlPart
  | raw bytes => raw bytes
  | attr a => if a.name = key ∧ a.PlainlySpelled then raw a.lead.dropLast else attr a

/-- The position is in what is cut out with an attribute of that name, from the
    blank in front of it on. -/
def XmlPart.InCut (key : Bytes) (i : Nat) : XmlPart → Prop
  | raw _ => False
  | attr a => a.name = key ∧ a.PlainlySpelled ∧ a.lead.length ≤ i + 1

/-- A match begins nowhere but in attributes that are cut out. -/
def NoLookalike (key : Bytes) : List XmlPart → Prop
  | [] => True
  | part :: rest =>
      (∀ i < part.text.length, ∀ n ∈ keyMatch key (part.text.drop i ++ partsText rest),
        part.InCut key i) ∧ NoLookalike key rest

instance (key : Bytes) (i : Nat) : (part : XmlPart) → Decidable (part.InCut key i)
  | .raw _ => isFalse not_false
  | .attr a => inferInstanceAs (Decidable (a.name = key ∧ a.PlainlySpelled ∧ a.lead.length ≤ i + 1))

instance decidableNoLookalike (key : Bytes) : (parts : List XmlPart) → Decidable (NoLookalike key parts)
  | [] => isTrue trivial
  | part :: rest =>
      have := decidableNoLookalike key rest
      inferInstanceAs (Decidable ((∀ i < part.text.length,
        ∀ n ∈ keyMatch key (part.text.drop i ++ partsText rest), part.InCut key i) ∧
          NoLookalike key rest))

/-- Nothing looks like a key when its substitution comes: those before it have
    cut out their attributes. -/
def NoLookalikesIn : List Bytes → List XmlPart → Prop
  | [], _ => True
  | key :: keys, parts => NoLookalike key parts ∧ NoLookalikesIn keys (parts.map (XmlPart.cut key))

instance decidableNoLookalikesIn :
    (keys : List Bytes) → (parts : List XmlPart) → Decidable (NoLookalikesIn keys parts)
  | [], _ => isTrue trivial
  | key :: keys, parts =>
      have := decidableNoLookalikesIn keys (parts.map (XmlPart.cut key))
      inferInstanceAs (Decidable (NoLookalike key parts ∧
        NoLookalikesIn keys (parts.map (XmlPart.cut key))))

/-- Nothing in a document looks like a key but what is cut out. -/
def NoLookalikes (items : List XmlItem) : Prop := NoLookalikesIn keyNames (documentParts items)

instance (items : List XmlItem) : Decidable (NoLookalikes items) :=
  decidableNoLookalikesIn keyNames (documentParts items)

/-! ### Matches -/

theorem keyMatch_eq_some_iff (key text : Bytes) (n : Nat) :
    keyMatch key text = some n ↔
      ∃ value rest, text = keyNeedle key ++ (value ++ 34 :: rest) ∧ 34 ∉ value ∧ 10 ∉ value ∧
        n = (keyNeedle key).length + value.length + 1 := by
  constructor
  · intro h
    unfold keyMatch at h
    split at h
    · next hneedle =>
      rcases hneedle with ⟨behind, rfl⟩
      rw [List.drop_left] at h
      simp only at h
      split at h
      · next hquote =>
        have hsplit := List.takeWhile_append_dropWhile (p := fun c : UInt8 => decide (c ≠ 34 ∧ c ≠ 10))
          (l := behind)
        have hall : ∀ c ∈ behind.takeWhile fun c : UInt8 => decide (c ≠ 34 ∧ c ≠ 10),
            c ≠ 34 ∧ c ≠ 10 := fun c hc => by simpa using List.mem_takeWhile_imp hc
        generalize behind.takeWhile (fun c : UInt8 => decide (c ≠ 34 ∧ c ≠ 10)) = value at *
        generalize behind.dropWhile (fun c : UInt8 => decide (c ≠ 34 ∧ c ≠ 10)) = tail at hsplit
        rw [← hsplit, ← List.append_assoc, List.getElem?_append_right (by rw [List.length_append]),
          List.length_append, Nat.sub_self] at hquote
        rcases tail with _ | ⟨c, rest⟩
        · exact absurd hquote (by simp only [List.getElem?_nil, reduceCtorEq, not_false_eq_true])
        · rw [List.getElem?_cons_zero, Option.some.injEq] at hquote
          rw [hquote] at hsplit
          exact ⟨value, rest, by rw [hsplit], fun hc => (hall 34 hc).1 rfl,
            fun hc => (hall 10 hc).2 rfl, (Option.some.inj h).symm⟩
      · exact absurd h (by simp only [reduceCtorEq, not_false_eq_true])
    · exact absurd h (by simp only [reduceCtorEq, not_false_eq_true])
  · rintro ⟨value, rest, rfl, hquote, hline, rfl⟩
    have hvalue : (value ++ 34 :: rest).takeWhile (fun c : UInt8 => decide (c ≠ 34 ∧ c ≠ 10)) =
        value := by
      rw [List.takeWhile_append_of_pos, List.takeWhile_cons_of_neg (by decide), List.append_nil]
      intro c hc
      exact decide_eq_true ⟨fun h => hquote (h ▸ hc), fun h => hline (h ▸ hc)⟩
    unfold keyMatch
    rw [if_pos (List.prefix_append _ _), List.drop_left]
    simp only [hvalue]
    rw [if_pos]
    rw [← List.append_assoc, List.getElem?_append_right (by rw [List.length_append]),
      List.length_append, Nat.sub_self]
    rfl

/-- A match ends on its line. -/
theorem keepsInside_keyMatch (key : Bytes) (hkey : 10 ∉ keyNeedle key) :
    KeepsInside (keyMatch key) 10 := by
  intro xs hxs
  have hlength : ∀ n, keyMatch key xs = some n → n ≤ xs.length ∧ 0 < n := by
    intro n hn
    rcases (keyMatch_eq_some_iff key xs n).mp hn with ⟨value, rest, hxs', -, -, rfl⟩
    rw [hxs', List.length_append, List.length_append, List.length_cons]
    omega
  refine ⟨fun ys => Option.ext fun n => ?_, hlength⟩
  rw [keyMatch_eq_some_iff, keyMatch_eq_some_iff]
  constructor
  · rintro ⟨value, rest, htext, hquote, hline, hn⟩
    -- The newline is not in what is matched, so it is behind it.
    -- Nothing that an expression matches has a newline.
    have hfree : 10 ∉ keyNeedle key ++ (value ++ [34]) := by
      rw [List.mem_append, List.mem_append, List.mem_singleton]
      rintro (h | h | h)
      · exact hkey h
      · exact hline h
      · exact absurd h (by decide)
    have hcut : xs ++ 10 :: ys = (keyNeedle key ++ (value ++ [34])) ++ rest := by
      rw [htext, List.append_assoc, List.append_assoc, List.singleton_append]
    rcases List.append_eq_append_iff.mp hcut with ⟨zs, hmatch, hrest⟩ | ⟨zs, hxs', -⟩
    · cases zs with
      | nil => exact ⟨value, [], by rw [← hmatch.trans (List.append_nil xs)], hquote, hline, hn⟩
      | cons z zs =>
          rw [List.cons_append, List.cons.injEq] at hrest
          exact absurd (hmatch ▸ List.mem_append_right _ (hrest.1 ▸ List.mem_cons_self)) hfree
    · exact ⟨value, zs, by rw [hxs', List.append_assoc, List.append_assoc, List.singleton_append],
        hquote, hline, hn⟩
  · rintro ⟨value, rest, rfl, hquote, hline, hn⟩
    exact ⟨value, rest ++ 10 :: ys, by rw [List.append_assoc, List.append_assoc, List.cons_append],
      hquote, hline, hn⟩

/-- The substitutions on the whole text. -/
theorem redact_eq (text : Bytes) :
    redact text = keyNames.foldl (fun text key => deleteMatches (keyMatch key) 0 text) text := by
  have hkeys : ∀ key ∈ keyNames, 10 ∉ keyNeedle key := by decide
  have hlines : ∀ line ∈ text.splitOn 10, 10 ∉ line := fun line hline h10 =>
    (mem_splitOn hline h10).2 rfl
  -- All lines go through one substitution before the next.
  have hstep : ∀ keys : List Bytes, (∀ key ∈ keys, 10 ∉ keyNeedle key) → ∀ lines : List Bytes,
      (∀ line ∈ lines, 10 ∉ line) →
      [10].intercalate (lines.map fun line =>
          keys.foldl (fun line key => deleteMatches (keyMatch key) 0 line) line) =
        keys.foldl (fun text key => deleteMatches (keyMatch key) 0 text) ([10].intercalate lines) := by
    intro keys
    induction keys with
    | nil => exact fun _ lines _ => by simp only [List.foldl_nil, List.map_id']
    | cons key keys ih =>
        intro hkeys lines hlines
        have hkey := keepsInside_keyMatch key (hkeys key List.mem_cons_self)
        have hrest := ih (fun k hk => hkeys k (List.mem_cons_of_mem _ hk))
          (lines.map (deleteMatches (keyMatch key) 0)) (by
            intro line hline
            rcases List.mem_map.mp hline with ⟨line', hline', rfl⟩
            exact fun h => hlines line' hline' ((deleteMatches_sublist _ 0 line').subset h))
        rw [List.foldl_cons, deleteMatches_lines hkey lines hlines, ← hrest, List.map_map]
        rfl
  have h := hstep keyNames hkeys (text.splitOn 10) hlines
  rwa [List.intercalate_splitOn] at h

/-! ### One substitution -/

/-- What is taken out of an attribute's text. -/
def XmlAttribute.cutText (a : XmlAttribute) : Bytes := keyNeedle a.name ++ (a.value ++ [34])

theorem length_dropLast_lead (a : XmlAttribute) : a.lead.dropLast.length + 1 = a.lead.length := by
  have hpos := List.length_pos_of_ne_nil a.lead_ne
  rw [List.length_dropLast]
  omega

theorem text_of_plainlySpelled (a : XmlAttribute) (h : a.PlainlySpelled) :
    a.text = a.lead.dropLast ++ a.cutText := by
  rcases h with ⟨hlead, hbefore, hafter, -⟩
  have hsplit : a.lead = a.lead.dropLast ++ [32] := by
    rw [List.getLast?_eq_some_getLast a.lead_ne, Option.some.injEq] at hlead
    rw [← hlead, List.dropLast_concat_getLast]
  rw [XmlAttribute.text, XmlAttribute.opening, hbefore, hafter, List.append_nil,
    XmlAttribute.cutText, keyNeedle]
  nth_rewrite 1 [hsplit]
  simp only [List.append_assoc, List.cons_append, List.nil_append]

/-- A plainly spelled attribute is matched up to its closing quote. -/
theorem keyMatch_cutText (a : XmlAttribute) (h : a.PlainlySpelled) (rest : Bytes) :
    keyMatch a.name (a.cutText ++ rest) = some a.cutText.length := by
  rw [keyMatch_eq_some_iff]
  refine ⟨a.value, rest, ?_, a.not_quote_value, h.2.2.2, ?_⟩
  · rw [XmlAttribute.cutText, List.append_assoc, List.append_assoc, List.singleton_append]
  · rw [XmlAttribute.cutText, List.length_append, List.length_append, List.length_singleton,
      Nat.add_assoc]

theorem partsText_cons (part : XmlPart) (rest : List XmlPart) :
    partsText (part :: rest) = part.text ++ partsText rest := List.flatMap_cons

/-- One substitution cuts out the attributes of one name that are plainly
    spelled. -/
theorem deleteMatches_parts (key : Bytes) (parts : List XmlPart) (h : NoLookalike key parts) :
    deleteMatches (keyMatch key) 0 (partsText parts) = partsText (parts.map (XmlPart.cut key)) := by
  induction parts with
  | nil => rfl
  | cons part rest ih =>
      rcases h with ⟨hpart, hrest⟩
      -- Where no match begins, the bytes are copied.
      have hcopy : ∀ bytes : Bytes, (∀ i < bytes.length, ∀ n,
          keyMatch key (bytes.drop i ++ partsText rest) ≠ some n) →
          deleteMatches (keyMatch key) 0 (bytes ++ partsText rest) =
            bytes ++ partsText (rest.map (XmlPart.cut key)) := fun bytes hnone => by
        rw [deleteMatches_copy _ _ _ fun i hi => Option.eq_none_iff_forall_ne_some.mpr (hnone i hi),
          ih hrest]
      rw [partsText_cons, List.map_cons, partsText_cons]
      cases part with
      | raw bytes => exact hcopy bytes hpart
      | attr a =>
          by_cases hcut : a.name = key ∧ a.PlainlySpelled
          · rw [XmlPart.cut, if_pos hcut, XmlPart.text, XmlPart.text,
              text_of_plainlySpelled a hcut.2, List.append_assoc]
            -- In front of the blank nothing begins, and at the blank the match.
            rw [deleteMatches_copy, deleteMatches_match, ih hrest]
            · exact List.cons_ne_nil _ _
            · exact hcut.1 ▸ keyMatch_cutText a hcut.2 _
            · intro i hi
              refine Option.eq_none_iff_forall_ne_some.mpr fun n hn => ?_
              have hlength := length_dropLast_lead a
              have htext : (XmlPart.attr a).text = a.lead.dropLast ++ a.cutText :=
                text_of_plainlySpelled a hcut.2
              rcases hpart i (by rw [htext, List.length_append]; omega) n (by
                rwa [htext, List.drop_append_of_le_length hi.le, List.append_assoc]) with
                ⟨-, -, hi'⟩
              omega
          · rw [XmlPart.cut, if_neg hcut]
            refine hcopy a.text fun i hi n hn => hcut ?_
            rcases hpart i hi n hn with ⟨hname, hplain, -⟩
            exact ⟨hname, hplain⟩

/-! ### Several substitutions -/

/-- The text goes on with white space or with the end of a tag. -/
def EndsName (text : Bytes) : Prop := ∃ c rest, text = c :: rest ∧ (isXmlSpace c ∨ c = 47 ∨ c = 62)

/-- Behind every attribute there is white space or the end of the tag. -/
def Separated : List XmlPart → Prop
  | [] => True
  | .raw _ :: rest => Separated rest
  | .attr _ :: rest => EndsName (partsText rest) ∧ Separated rest

/-- A match that begins in front of a gap begins there as well if the gap is
    filled with quotes. -/
theorem keyMatch_insert (key front gap back : Bytes) (hkey : IsXmlName key) (hfront : front ≠ [])
    (hback : EndsName back) (hquote : 34 ∈ gap) (hline : 10 ∉ gap) (n : Nat)
    (h : keyMatch key (front ++ back) = some n) :
    ∃ m, keyMatch key (front ++ (gap ++ back)) = some m := by
  rcases (keyMatch_eq_some_iff _ _ _).mp h with ⟨value, rest, htext, hvalue, hvalueLine, -⟩
  -- The beginning of the match is in front of the gap.
  have hneedle : ∃ behind, front = keyNeedle key ++ behind := by
    rcases List.append_eq_append_iff.mp htext with ⟨zs, hneedle, hrest⟩ | ⟨zs, hfront', -⟩
    · cases zs with
      | nil => exact ⟨[], by rw [← hneedle.trans (List.append_nil _), List.append_nil]⟩
      | cons z zs =>
          -- A name does not run on over what stands behind an attribute.
          rcases hback with ⟨c, cs, rfl, hc⟩
          rw [List.cons_append, List.cons.injEq] at hrest
          rcases front with _ | ⟨f, front⟩
          · exact absurd rfl hfront
          · rw [keyNeedle, List.cons_append, List.cons.injEq] at hneedle
            have hmem : c ∈ key ++ [61, 34] := by
              rw [hneedle.2, hrest.1]
              exact List.mem_append_right _ List.mem_cons_self
            rcases List.mem_append.mp hmem with hmem | hmem
            · have hname := hkey.2 c hmem
              rcases hc with hc | rfl | rfl
              · rw [not_nameByte_of_space c hc] at hname
                exact absurd hname (by decide)
              · exact absurd hname (by decide)
              · exact absurd hname (by decide)
            · simp only [List.mem_cons, List.not_mem_nil, or_false] at hmem
              rcases hmem with rfl | rfl
              · exact absurd hc (by decide)
              · exact absurd hc (by decide)
    · exact ⟨zs, hfront'⟩
  rcases hneedle with ⟨behind, rfl⟩
  rw [List.append_assoc, List.append_cancel_left_eq] at htext
  -- The value ends at the same quote, or at the first one in the gap.
  have hclose : ∃ value' rest', behind ++ (gap ++ back) = value' ++ 34 :: rest' ∧ 34 ∉ value' ∧
      10 ∉ value' := by
    by_cases hin : 34 ∈ behind
    · rcases List.eq_append_cons_of_mem hin with ⟨start, stop, rfl, hstart⟩
      have hsame : start = value := by
        refine (prefix_delimited_iff start value rest 34 hstart hvalue).mp ?_
        rw [← htext]
        exact ⟨stop ++ back, by simp only [List.append_assoc, List.cons_append, List.nil_append]⟩
      exact ⟨start, stop ++ (gap ++ back), by rw [List.append_assoc, List.cons_append], hstart,
        hsame ▸ hvalueLine⟩
    · rcases List.eq_append_cons_of_mem hquote with ⟨start, stop, hgap, hstart⟩
      have hbehind : 10 ∉ behind := by
        rcases List.append_eq_append_iff.mp htext with ⟨zs, hzs, -⟩ | ⟨zs, hzs, hrest⟩
        · exact fun hmem => hvalueLine (hzs ▸ List.mem_append_left _ hmem)
        · cases zs with
          | nil => exact fun hmem => hvalueLine (by rwa [hzs, List.append_nil] at hmem)
          | cons z zs =>
              rw [List.cons_append, List.cons.injEq] at hrest
              exact absurd (hzs ▸ List.mem_append_right _ (hrest.1 ▸ List.mem_cons_self)) hin
      refine ⟨behind ++ start, stop ++ back, ?_, ?_, ?_⟩
      · rw [hgap]
        simp only [List.append_assoc, List.cons_append]
      · exact fun hmem => (List.mem_append.mp hmem).elim hin hstart
      · refine fun hmem => (List.mem_append.mp hmem).elim hbehind fun hmem => hline ?_
        rw [hgap]
        exact List.mem_append_left _ hmem
  rcases hclose with ⟨value', rest', htext', hvalue', hline'⟩
  exact ⟨_, (keyMatch_eq_some_iff _ _ _).mpr
    ⟨value', rest', by rw [List.append_assoc, htext'], hvalue', hline', rfl⟩⟩

/-- An attribute begins with white space. -/
theorem endsName_attribute (a : XmlAttribute) (rest : Bytes) : EndsName (a.text ++ rest) := by
  rcases hlead : a.lead with _ | ⟨c, cs⟩
  · exact absurd hlead a.lead_ne
  · refine ⟨c, cs ++ (a.name ++ (a.beforeEq ++ 61 :: (a.afterEq ++ 34 :: (a.value ++ 34 :: rest)))),
      ?_, Or.inl (a.lead_space c (hlead ▸ List.mem_cons_self))⟩
    rw [XmlAttribute.text, XmlAttribute.opening, hlead]
    simp only [List.append_assoc, List.cons_append, List.nil_append]

/-- A tag ends with white space, a slash or a bracket. -/
theorem endsName_finish (tag : StartTag) (rest : Bytes) :
    EndsName (tag.finish ++ [62] ++ rest) := by
  rw [StartTag.finish]
  rcases hspace : tag.space with _ | ⟨c, cs⟩
  · cases tag.isEmpty with
    | true => exact ⟨47, 62 :: rest, rfl, Or.inr (Or.inl rfl)⟩
    | false => exact ⟨62, rest, rfl, Or.inr (Or.inr rfl)⟩
  · exact ⟨c, _, rfl, Or.inl (tag.space_valid c (hspace ▸ List.mem_cons_self))⟩

/-- What follows an attribute ends its name also when attributes are cut out. -/
theorem endsName_cut (key : Bytes) (parts : List XmlPart) (hsep : Separated parts)
    (h : EndsName (partsText parts)) : EndsName (partsText (parts.map (XmlPart.cut key))) := by
  induction parts with
  | nil => exact h
  | cons part rest ih =>
      rw [partsText_cons] at h
      rw [List.map_cons, partsText_cons]
      cases part with
      | raw bytes =>
          rcases bytes with _ | ⟨c, bytes⟩
          · exact ih hsep h
          · rcases h with ⟨d, ds, hd, hspace⟩
            rw [XmlPart.text, List.cons_append, List.cons.injEq] at hd
            exact ⟨c, _, rfl, hd.1 ▸ hspace⟩
      | attr a =>
          by_cases hcut : a.name = key ∧ a.PlainlySpelled
          · rw [XmlPart.cut, if_pos hcut, XmlPart.text]
            rcases hlead : a.lead.dropLast with _ | ⟨c, cs⟩
            · exact ih hsep.2 hsep.1
            · refine ⟨c, _, rfl, Or.inl (a.lead_space c ?_)⟩
              exact (List.dropLast_sublist _).subset (hlead ▸ List.mem_cons_self)
          · rw [XmlPart.cut, if_neg hcut]
            exact endsName_attribute a _

theorem separated_cut (key : Bytes) (parts : List XmlPart) (hsep : Separated parts) :
    Separated (parts.map (XmlPart.cut key)) := by
  induction parts with
  | nil => exact hsep
  | cons part rest ih =>
      rw [List.map_cons]
      cases part with
      | raw bytes => exact ih hsep
      | attr a =>
          rw [XmlPart.cut]
          split
          · exact ih hsep.2
          · exact ⟨endsName_cut key rest hsep.2 hsep.1, ih hsep.2⟩

theorem quote_mem_cutText (a : XmlAttribute) : 34 ∈ a.cutText :=
  List.mem_append_right _ (List.mem_append_right _ List.mem_cons_self)

theorem newline_not_mem_cutText (a : XmlAttribute) (h : a.PlainlySpelled) : 10 ∉ a.cutText := by
  rw [XmlAttribute.cutText, keyNeedle]
  simp only [List.mem_append, List.mem_cons, List.not_mem_nil, or_false, not_or]
  exact ⟨⟨by decide, a.name_valid.not_mem 10 (by decide), by decide, by decide⟩, h.2.2.2, by decide⟩

/-- A match that is there after some attributes have been cut out was there
    before. -/
theorem keyMatch_of_cut (key cutKey : Bytes) (hkey : IsXmlName key) (parts : List XmlPart)
    (hsep : Separated parts) (front : Bytes) (hfront : front ≠ []) (n : Nat)
    (h : keyMatch key (front ++ partsText (parts.map (XmlPart.cut cutKey))) = some n) :
    ∃ m, keyMatch key (front ++ partsText parts) = some m := by
  induction parts generalizing front n with
  | nil => exact ⟨n, h⟩
  | cons part rest ih =>
      rw [List.map_cons, partsText_cons, ← List.append_assoc] at h
      rw [partsText_cons, ← List.append_assoc]
      have hmore : ∀ bytes : Bytes, front ++ bytes ≠ [] := fun bytes hnil =>
        hfront (List.append_eq_nil_iff.mp hnil).1
      cases part with
      | raw bytes => exact ih hsep _ (hmore _) n h
      | attr a =>
          by_cases hcut : a.name = cutKey ∧ a.PlainlySpelled
          · rw [XmlPart.cut, if_pos hcut] at h
            rcases ih hsep.2 _ (hmore _) n h with ⟨m, hm⟩
            rw [XmlPart.text, text_of_plainlySpelled a hcut.2, ← List.append_assoc, List.append_assoc]
            exact keyMatch_insert key _ a.cutText _ hkey (hmore _) hsep.1 (quote_mem_cutText a)
              (newline_not_mem_cutText a hcut.2) m hm
          · rw [XmlPart.cut, if_neg hcut] at h
            exact ih hsep.2 _ (hmore _) n h

/-- Cutting attributes out makes nothing look like a key. -/
theorem noLookalike_cut (key cutKey : Bytes) (hkey : IsXmlName key) (parts : List XmlPart)
    (hsep : Separated parts) (h : NoLookalike key parts) :
    NoLookalike key (parts.map (XmlPart.cut cutKey)) := by
  induction parts with
  | nil => exact h
  | cons part rest ih =>
      rcases h with ⟨hpart, hrest⟩
      have hne : ∀ (bytes : Bytes) (i : Nat), i < bytes.length → bytes.drop i ≠ [] :=
        fun bytes i hi hnil => absurd (List.drop_eq_nil_iff.mp hnil) (Nat.not_le.mpr hi)
      rw [List.map_cons]
      cases part with
      | raw bytes =>
          refine ⟨fun i hi n hn => ?_, ih hsep hrest⟩
          rcases keyMatch_of_cut key cutKey hkey rest hsep _ (hne bytes i hi) n hn with ⟨m, hm⟩
          exact hpart i hi m hm
      | attr a =>
          refine ⟨fun i hi n hn => ?_, ih hsep.2 hrest⟩
          by_cases hcut : a.name = cutKey ∧ a.PlainlySpelled
          · rw [XmlPart.cut, if_pos hcut, XmlPart.text] at hi hn
            rcases keyMatch_of_cut key cutKey hkey rest hsep.2 _ (hne _ i hi) n hn with ⟨m, hm⟩
            rcases keyMatch_insert key _ a.cutText _ hkey (hne _ i hi) hsep.1 (quote_mem_cutText a)
              (newline_not_mem_cutText a hcut.2) m hm with ⟨k, hk⟩
            have hlength := length_dropLast_lead a
            have htext : (XmlPart.attr a).text = a.lead.dropLast ++ a.cutText :=
              text_of_plainlySpelled a hcut.2
            -- A match in the white space would not be in what is cut out.
            have hown := hpart i (by rw [htext, List.length_append]; omega) k (by
              rwa [htext, List.drop_append_of_le_length hi.le, List.append_assoc])
            have hplace := hown.2.2
            omega
          · rw [XmlPart.cut, if_neg hcut] at hi hn ⊢
            rcases keyMatch_of_cut key cutKey hkey rest hsep.2 _ (hne _ i hi) n hn with ⟨m, hm⟩
            exact hpart i hi m hm

/-- If nothing looks like a key at first, nothing does later. -/
theorem noLookalikesIn_of_forall (keys : List Bytes) (hkeys : ∀ key ∈ keys, IsXmlName key)
    (parts : List XmlPart) (hsep : Separated parts) (h : ∀ key ∈ keys, NoLookalike key parts) :
    NoLookalikesIn keys parts := by
  induction keys generalizing parts with
  | nil => exact trivial
  | cons key keys ih =>
      exact ⟨h key List.mem_cons_self,
        ih (fun k hk => hkeys k (List.mem_cons_of_mem _ hk)) _ (separated_cut key parts hsep)
          fun k hk => noLookalike_cut k key (hkeys k (List.mem_cons_of_mem _ hk)) parts hsep
            (h k (List.mem_cons_of_mem _ hk))⟩

/-- All substitutions cut out what one of them cuts out. -/
theorem foldl_deleteMatches (keys : List Bytes) (parts : List XmlPart)
    (h : NoLookalikesIn keys parts) :
    keys.foldl (fun text key => deleteMatches (keyMatch key) 0 text) (partsText parts) =
      partsText (parts.map fun part => keys.foldl (fun part key => part.cut key) part) := by
  induction keys generalizing parts with
  | nil => rw [List.foldl_nil]; simp only [List.foldl_nil, List.map_id']
  | cons key keys ih =>
      rw [List.foldl_cons, deleteMatches_parts key parts h.1]
      refine (ih _ h.2).trans ?_
      rw [List.map_map]
      rfl

/-! ### Documents -/

/-- The attributes that are cut out: the keys that are plainly spelled. -/
def isCut (a : XmlAttribute) : Bool := decide (a.name ∈ keyNames ∧ a.PlainlySpelled)

theorem foldl_cut_raw (keys : List Bytes) (bytes : Bytes) :
    keys.foldl (fun part key => part.cut key) (XmlPart.raw bytes) = .raw bytes := by
  induction keys with
  | nil => rfl
  | cons key keys ih => exact ih

theorem foldl_cut_attr (keys : List Bytes) (a : XmlAttribute) :
    keys.foldl (fun part key => part.cut key) (XmlPart.attr a) =
      if a.name ∈ keys ∧ a.PlainlySpelled then .raw a.lead.dropLast else .attr a := by
  induction keys with
  | nil => rw [if_neg fun h => absurd h.1 List.not_mem_nil]; rfl
  | cons key keys ih =>
      rw [List.foldl_cons, XmlPart.cut]
      by_cases hcut : a.name = key ∧ a.PlainlySpelled
      · rw [if_pos hcut, if_pos ⟨hcut.1 ▸ List.mem_cons_self, hcut.2⟩, foldl_cut_raw]
      · rw [if_neg hcut, ih]
        congr 1
        rw [List.mem_cons, eq_iff_iff]
        exact ⟨fun h => ⟨Or.inr h.1, h.2⟩,
          fun h => ⟨h.1.resolve_left fun hname => hcut ⟨hname, h.2⟩, h.2⟩⟩

theorem partsText_append (front rest : List XmlPart) :
    partsText (front ++ rest) = partsText front ++ partsText rest := List.flatMap_append

theorem partsText_documentParts (items : List XmlItem) :
    partsText (documentParts items) = documentText items := by
  induction items with
  | nil => rfl
  | cons item items ih =>
      have hitem : partsText item.parts = item.text := by
        cases item with
        | start tag =>
            rw [XmlItem.parts, partsText_cons, partsText_append, partsText, List.flatMap_map]
            simp [XmlPart.text, XmlItem.text, StartTag.text, partsText]
        | chars bytes => exact List.append_nil _
        | stop tag => exact List.append_nil _
        | other bytes => exact List.append_nil _
      rw [documentParts, List.flatMap_cons, partsText_append, hitem, documentText,
        List.flatMap_cons]
      exact congrArg _ ih

/-- In a document, an attribute is followed by another one or by the end of its
    tag. -/
theorem separated_documentParts (items : List XmlItem) : Separated (documentParts items) := by
  induction items with
  | nil => exact trivial
  | cons item items ih =>
      rw [documentParts, List.flatMap_cons]
      cases item with
      | start tag =>
          have hattributes : ∀ attributes : List XmlAttribute,
              Separated (attributes.map XmlPart.attr ++ .raw (tag.finish ++ [62]) ::
                documentParts items) ∧
              EndsName (partsText (attributes.map XmlPart.attr ++ .raw (tag.finish ++ [62]) ::
                documentParts items)) := by
            intro attributes
            induction attributes with
            | nil => exact ⟨ih, endsName_finish tag _⟩
            | cons a attributes ih => exact ⟨⟨ih.2, ih.1⟩, endsName_attribute a _⟩
          rw [XmlItem.parts, List.cons_append, List.append_assoc]
          exact (hattributes tag.attributes).1
      | chars bytes => exact ih
      | stop tag => exact ih
      | other bytes => exact ih

/-- The parts without the keys are the text of the document without them. -/
theorem partsText_map_cut (items : List XmlItem) :
    partsText ((documentParts items).map fun part =>
      keyNames.foldl (fun part key => part.cut key) part) = textWithout isCut items := by
  induction items with
  | nil => rfl
  | cons item items ih =>
      have hitem : partsText (item.parts.map fun part =>
          keyNames.foldl (fun part key => part.cut key) part) = item.textWithout isCut := by
        cases item with
        | start tag =>
            have hattributes : partsText ((tag.attributes.map XmlPart.attr).map fun part =>
                keyNames.foldl (fun part key => part.cut key) part) =
                tag.attributes.flatMap (XmlAttribute.textWithout isCut) := by
              rw [List.map_map, partsText, List.flatMap_map]
              refine List.flatMap_congr fun a _ => ?_
              rw [Function.comp_apply, foldl_cut_attr, XmlAttribute.textWithout, isCut]
              by_cases hcut : a.name ∈ keyNames ∧ a.PlainlySpelled
              · rw [if_pos hcut, if_pos (decide_eq_true hcut)]
                rfl
              · rw [if_neg hcut, if_neg (by rwa [decide_eq_true_eq])]
                rfl
            rw [XmlItem.parts, List.map_cons, partsText_cons, List.map_append, partsText_append,
              hattributes, XmlItem.textWithout, StartTag.textWithout]
            simp only [foldl_cut_raw, XmlPart.text, List.map_cons, List.map_nil, partsText,
              List.flatMap_cons, List.flatMap_nil, List.append_nil, List.append_assoc,
              List.cons_append]
        | chars bytes => exact List.append_nil _
        | stop tag => exact List.append_nil _
        | other bytes => exact List.append_nil _
      rw [documentParts, List.flatMap_cons, List.map_append, partsText_append, hitem, textWithout,
        List.flatMap_cons]
      exact congrArg _ ih

/-- What the substitutions leave of a document in which nothing looks like a key
    but what is cut out. -/
theorem redact_documentText (items : List XmlItem) (h : NoLookalikes items) :
    redact (documentText items) = textWithout isCut items := by
  rw [redact_eq, ← partsText_documentParts, foldl_deleteMatches keyNames _ h, partsText_map_cut]

/-- It is enough that nothing looks like one of the keys in the document itself. -/
theorem noLookalikes_of_forall (items : List XmlItem)
    (h : ∀ key ∈ keyNames, NoLookalike key (documentParts items)) : NoLookalikes items :=
  noLookalikesIn_of_forall keyNames (by decide) _ (separated_documentParts items) h

/-! ### The keys of a document -/

theorem forall_of_countP_eq {α : Type} (p q : α → Bool) (xs : List α)
    (hpq : ∀ x ∈ xs, p x = true → q x = true) (h : xs.countP p = xs.countP q) :
    ∀ x ∈ xs, q x = true → p x = true := by
  induction xs with
  | nil => exact fun x hx => absurd hx List.not_mem_nil
  | cons x xs ih =>
      have hle : xs.countP p ≤ xs.countP q :=
        List.countP_mono_left fun y hy => hpq y (List.mem_cons_of_mem _ hy)
      have hfirst := hpq x List.mem_cons_self
      rw [List.countP_cons, List.countP_cons] at h
      by_cases hp : p x = true
      · rw [if_pos hp, if_pos (hfirst hp)] at h
        exact List.forall_mem_cons.mpr ⟨fun _ => hp,
          ih (fun y hy => hpq y (List.mem_cons_of_mem _ hy)) (by omega)⟩
      · by_cases hq : q x = true
        · rw [if_neg hp, if_pos hq] at h
          omega
        · rw [if_neg hp, if_neg hq] at h
          exact List.forall_mem_cons.mpr ⟨fun h => absurd h hq,
            ih (fun y hy => hpq y (List.mem_cons_of_mem _ hy)) (by omega)⟩

/-- The quotes of a text that is the document without its keys. -/
theorem RemovesKeys.count_quote {items : List XmlItem} {text : Bytes} (h : RemovesKeys items text) :
    text.count 34 + 2 * (documentAttributes items).countP (fun a => decide (a.name ∈ keyNames)) =
      (documentText items).count 34 := by
  rcases h with ⟨items', -, rfl, hevents⟩
  have hsum := sum_quotes_filterAttributes (fun name => decide (name ∉ keyNames)) items
  rw [count_quote_text, hevents, count_quote_text items, ← hsum]
  congr 2
  refine List.countP_congr fun a _ => ?_
  simp only [decide_not, Bool.not_not]

/-- If nothing looks like a key but what is cut out, what is kept is the document
    without its keys exactly if all of them are plainly spelled. -/
theorem retained_removesKeys_iff (items : List XmlItem) (hwell : WellFormedXml (documentEvents items))
    (hlook : NoLookalikes items) (text : Bytes) (h : retained (documentText items) = some text) :
    RemovesKeys items text ↔ PlainKeys items := by
  have htext : text = textWithout isCut items := by
    unfold retained at h
    split at h
    · rw [← Option.some.inj h, redact_documentText items hlook]
    · exact absurd h (by simp only [reduceCtorEq, not_false_eq_true])
  constructor
  · intro hremoves a ha hkey
    -- As many attributes are cut out as there are keys.
    have hkeys := hremoves.count_quote
    have hcuts := count_quote_textWithout isCut items
    rw [← htext] at hcuts
    have hcut := forall_of_countP_eq isCut (fun a => decide (a.name ∈ keyNames))
      (documentAttributes items) (fun b _ hb => decide_eq_true (of_decide_eq_true hb).1) (by omega) a
      ha (decide_eq_true hkey)
    exact (of_decide_eq_true hcut).2
  · intro hplain
    rcases exists_respelled isCut (fun name => decide (name ∉ keyNames)) items (by
      intro a ha
      rw [isCut, decide_not, Bool.not_not, decide_eq_decide]
      exact ⟨fun h => h.1, fun h => ⟨h, hplain a ha h⟩⟩) with ⟨items', hitems', hevents⟩
    refine ⟨items', ?_, by rw [← hitems', htext], hevents⟩
    rw [hevents]
    exact (wellFormedXml_filterAttributes _ _).mpr hwell

/-- An answer with one element that has these attributes. -/
def oneElement (attributes : List XmlAttribute)
    (hnames : (attributes.map XmlAttribute.name).Nodup) : List XmlItem :=
  [.start { name := ascii "ajax-response", attributes := [], space := [], isEmpty := false
            space_valid := isSpaces_nil },
    .start { name := ascii "ap", attributes, space := [], isEmpty := true
             name_valid := isXmlName_ap, names_nodup := hnames, space_valid := isSpaces_nil },
    .stop { name := ascii "ajax-response", space := [], space_valid := isSpaces_nil }]

/-- A key with this value behind white space. -/
def keyBehind (lead : Bytes) (hne : lead ≠ []) (hspace : IsSpaces lead) (value : Bytes)
    (hvalue : IsValueText value) : XmlAttribute :=
  { lead, name := ascii "x-psk", beforeEq := [], afterEq := [], value
    lead_ne := hne, lead_space := hspace, beforeEq_space := isSpaces_nil
    afterEq_space := isSpaces_nil, value_plain := hvalue }

/-- An attribute that is no key. -/
def noKey : XmlAttribute :=
  { lead := [32], name := ascii "b", beforeEq := [], afterEq := [], value := ascii "c"
    beforeEq_space := isSpaces_nil, afterEq_space := isSpaces_nil }

/-- The value of the key ends like a key, and goes with it. -/
theorem retained_removesKeys_blank :
    RemovesKeys (oneElement [keyBehind [32] (by decide) (by decide) (ascii " x-psk=") (by decide),
        noKey] (by decide +kernel))
      (ascii "<ajax-response><ap b=\"c\"/></ajax-response>") :=
  (retained_removesKeys_iff _ (by decide +kernel) (by decide +kernel) _ (by decide +kernel)).mpr
    (by decide +kernel)

/-- An answer with a key behind a newline. -/
def keyOnNextLine : List XmlItem :=
  oneElement [keyBehind [10] (by decide) (by decide) (ascii "secret") (by decide)]
    (List.nodup_singleton _)

/-- A key behind a newline stays, and so it is kept. -/
theorem retained_removesKeys_newline :
    retained (documentText keyOnNextLine) =
        some (ascii "<ajax-response><ap\nx-psk=\"secret\"/></ajax-response>") ∧
      WellFormedXml (documentEvents keyOnNextLine) ∧
      ¬ RemovesKeys keyOnNextLine
        (ascii "<ajax-response><ap\nx-psk=\"secret\"/></ajax-response>") := by
  exact ⟨by decide +kernel, by decide +kernel, fun h => absurd h.count_quote (by decide +kernel)⟩

end Zd1200
