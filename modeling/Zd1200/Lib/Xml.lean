import Mathlib.Data.List.Nodup
import Zd1200.Lib.Delimited

/-!
# XML Tags

Start tags and their attributes, as XML writes them.

A tag here is a tag with its spelling: the white space in front of each
attribute, the white space around its `=` and the raw value between double
quotes are all part of it, so that a tag has one text. The value's text is not
decoded. A `>` may stand in a value and a `<` may not.

Everything that is not a value is between two values, and there are neither
quotes nor `>` there until the tag ends. The lemmas say this piece by piece.

## Main definitions

* `XmlAttribute`: An attribute with its spelling.
* `StartTag`: A start tag, or the tag of an empty element.
* `StartTag.value`: The raw value of the attribute with some name.

## Theorems

* `XmlAttribute.not_mem_opening`, `XmlAttribute.suffix_opening`: What is in front of
  a value.
* `StartTag.value_of_mem`: The attribute with a name.
* `StartTag.not_mem_finish`: What is behind the last value.
-/

namespace Zd1200

/-- White space. -/
def isXmlSpace (c : UInt8) : Bool := c = 32 ∨ c = 9 ∨ c = 10 ∨ c = 13

/-- The bytes of a name, whatever its encoding holds beyond ASCII. -/
def isNameByte (c : UInt8) : Bool :=
  (48 ≤ c ∧ c ≤ 57) ∨ (65 ≤ c ∧ c ≤ 90) ∨ (97 ≤ c ∧ c ≤ 122) ∨ c = 45 ∨ c = 46 ∨ c = 58 ∨ c = 95 ∨
    128 ≤ c

/-- A name: some bytes, all of them a name's. -/
def IsXmlName (name : Bytes) : Prop := name ≠ [] ∧ ∀ c ∈ name, isNameByte c = true

instance (name : Bytes) : Decidable (IsXmlName name) :=
  have := List.decidableBAll (fun c => isNameByte c = true) name
  inferInstanceAs (Decidable (name ≠ [] ∧ ∀ c ∈ name, isNameByte c = true))

/-- Bytes that are all white space. -/
def IsSpaces (bytes : Bytes) : Prop := ∀ c ∈ bytes, isXmlSpace c = true

instance (bytes : Bytes) : Decidable (IsSpaces bytes) :=
  List.decidableBAll (fun c => isXmlSpace c = true) bytes

-- Under names, for the tags that are written out.
theorem isSpaces_nil : IsSpaces [] := by decide

theorem isSpaces_blank : IsSpaces [32] := by decide

theorem blank_ne_nil : ([32] : Bytes) ≠ [] := by decide

/-- The raw text of a value: no quote and no `<`. -/
def IsValueText (value : Bytes) : Prop := ∀ c ∈ value, c ≠ 34 ∧ c ≠ 60

instance (value : Bytes) : Decidable (IsValueText value) :=
  List.decidableBAll (fun c => c ≠ 34 ∧ c ≠ 60) value

/-- An attribute: white space, a name, a `=` with white space on both sides, and
    a value in double quotes. -/
structure XmlAttribute where
  lead : Bytes
  name : Bytes
  beforeEq : Bytes
  afterEq : Bytes
  value : Bytes
  lead_ne : lead ≠ [] := by decide
  lead_space : IsSpaces lead := by decide
  name_valid : IsXmlName name := by decide
  beforeEq_space : IsSpaces beforeEq := by decide
  afterEq_space : IsSpaces afterEq := by decide
  value_plain : IsValueText value := by decide
  deriving DecidableEq

/-- What stands in front of the value's quote. -/
def XmlAttribute.opening (a : XmlAttribute) : Bytes :=
  a.lead ++ a.name ++ a.beforeEq ++ 61 :: a.afterEq

def XmlAttribute.text (a : XmlAttribute) : Bytes := a.opening ++ 34 :: (a.value ++ [34])

/-- A start tag, or the tag of an empty element. -/
structure StartTag where
  name : Bytes
  attributes : List XmlAttribute
  space : Bytes
  isEmpty : Bool
  name_valid : IsXmlName name := by decide
  names_nodup : (attributes.map XmlAttribute.name).Nodup := by decide
  space_valid : IsSpaces space := by decide
  deriving DecidableEq

/-- What stands behind the last attribute, up to the `>`. -/
def StartTag.finish (tag : StartTag) : Bytes := tag.space ++ if tag.isEmpty then [47] else []

def StartTag.text (tag : StartTag) : Bytes :=
  60 :: tag.name ++ tag.attributes.flatMap XmlAttribute.text ++ tag.finish ++ [62]

/-- The raw value of the attribute with a name. -/
def StartTag.value (tag : StartTag) (name : Bytes) : Option Bytes :=
  (tag.attributes.find? fun a => decide (a.name = name)).map XmlAttribute.value

/-! ### Between the values -/

theorem eq_nil_of_last {α : Type} (front xs ys : List α) (b : α) (h : front ++ [b] = xs ++ ys)
    (hb : b ∉ ys) : ys = [] := by
  rcases List.eq_nil_or_concat ys with hnil | ⟨zs, c, hys⟩
  · exact hnil
  · rw [hys, List.concat_eq_append, ← List.append_assoc] at h
    have hlast := List.singleton_inj.mp (List.append_inj' h rfl).2
    rw [hys, List.concat_eq_append, hlast] at hb
    exact absurd (List.mem_append_right _ List.mem_cons_self) hb

theorem IsSpaces.not_mem {bytes : Bytes} (h : IsSpaces bytes) (d : UInt8)
    (hd : isXmlSpace d = false) : d ∉ bytes := by
  intro hmem
  rw [h d hmem] at hd
  exact absurd hd (by decide)

theorem IsXmlName.not_mem {name : Bytes} (h : IsXmlName name) (d : UInt8)
    (hd : isNameByte d = false) : d ∉ name := by
  intro hmem
  rw [h.2 d hmem] at hd
  exact absurd hd (by decide)

/-- No white space is part of a name. -/
theorem not_nameByte_of_space (c : UInt8) (h : isXmlSpace c = true) : isNameByte c = false := by
  unfold isXmlSpace at h
  rcases of_decide_eq_true h with h | h | h | h
  · rw [h]; decide
  · rw [h]; decide
  · rw [h]; decide
  · rw [h]; decide

namespace XmlAttribute

variable (a : XmlAttribute)

/-- A blank, a name and a `=` stand right in front of a value only where they
    are the attribute's own. -/
theorem suffix_opening (name : Bytes) (hname : IsXmlName name)
    (h : 32 :: name ++ [61] <:+ a.opening) :
    a.name = name ∧ a.beforeEq = [] ∧ a.afterEq = [] ∧ a.lead.getLast? = some 32 := by
  rcases h with ⟨front, hfront⟩
  rw [opening] at hfront
  -- White space ends in no `=`.
  have hafter : a.afterEq = [] := by
    refine eq_nil_of_last (front ++ 32 :: name) (a.lead ++ a.name ++ a.beforeEq ++ [61]) _ 61 ?_
      (a.afterEq_space.not_mem 61 (by decide))
    rw [List.append_assoc, hfront, List.append_assoc _ [61], List.singleton_append]
  rw [hafter, ← List.append_assoc] at hfront
  replace hfront := (List.append_inj' hfront rfl).1
  -- It ends in no name either.
  have hbefore : a.beforeEq = [] := by
    rcases List.eq_nil_or_concat name with hnil | ⟨body, b, hbody⟩
    · exact absurd hnil hname.1
    · rw [List.concat_eq_append] at hbody
      refine eq_nil_of_last (front ++ 32 :: body) _ _ b (by
        rw [← hfront, hbody, List.append_assoc, List.cons_append]) fun hmem => ?_
      have hbyte := hname.2 b (hbody ▸ List.mem_append_right _ List.mem_cons_self)
      rw [not_nameByte_of_space b (a.beforeEq_space b hmem)] at hbyte
      exact absurd hbyte (by decide)
  rw [hbefore, List.append_nil] at hfront
  rcases List.append_eq_append_iff.mp hfront with ⟨ys, hlead, hys⟩ | ⟨ys, -, hys⟩
  · cases ys with
    | nil =>
        rw [List.nil_append] at hys
        exact absurd (hys ▸ List.mem_cons_self) (a.name_valid.not_mem 32 (by decide))
    | cons c ys =>
        rw [List.cons_append, List.cons.injEq] at hys
        cases ys with
        | nil => exact ⟨hys.2.symm, hbefore, hafter, by rw [hlead, ← hys.1, List.getLast?_concat]⟩
        | cons b ys =>
            -- This one would be white space and part of the name.
            have hspace := a.lead_space b (by
              rw [hlead]
              exact List.mem_append_right _ (List.mem_cons_of_mem _ List.mem_cons_self))
            have hbyte := hname.2 b (by
              rw [hys.2]
              exact List.mem_cons_self)
            rw [not_nameByte_of_space b hspace] at hbyte
            exact absurd hbyte (by decide)
  · refine absurd ?_ (a.name_valid.not_mem 32 (by decide))
    rw [hys]
    exact List.mem_append_right _ List.mem_cons_self

/-- In front of a value there are no quotes and no brackets. -/
theorem not_mem_opening (d : UInt8) (hspace : isXmlSpace d = false) (hname : isNameByte d = false)
    (heq : d ≠ 61) : d ∉ a.opening := by
  intro hmem
  rw [opening, List.mem_append, List.mem_append, List.mem_append, List.mem_cons] at hmem
  rcases hmem with ((hmem | hmem) | hmem) | (hmem | hmem)
  · exact a.lead_space.not_mem d hspace hmem
  · exact a.name_valid.not_mem d hname hmem
  · exact a.beforeEq_space.not_mem d hspace hmem
  · exact heq hmem
  · exact a.afterEq_space.not_mem d hspace hmem

theorem not_quote_value : 34 ∉ a.value := fun hmem => (a.value_plain 34 hmem).1 rfl

end XmlAttribute

/-- A tag has one attribute of a name. -/
theorem StartTag.value_of_mem (tag : StartTag) (a : XmlAttribute) (ha : a ∈ tag.attributes) :
    tag.value a.name = some a.value := by
  rw [value]
  cases hfind : tag.attributes.find? fun b => decide (b.name = a.name) with
  | none =>
      exact absurd (List.find?_eq_none.mp hfind a ha) (by simp only [decide_true, not_true_eq_false,
        not_false_eq_true])
  | some b =>
      have hname : b.name = a.name := by
        have h := List.find?_some hfind
        exact of_decide_eq_true h
      rw [List.inj_on_of_nodup_map tag.names_nodup (List.mem_of_find?_eq_some hfind) ha hname]
      rfl

/-- Behind the last value there are no quotes and no brackets. -/
theorem StartTag.not_mem_finish (tag : StartTag) (d : UInt8) (hspace : isXmlSpace d = false)
    (hd : d ≠ 47) : d ∉ tag.finish := by
  intro hmem
  rw [finish, List.mem_append] at hmem
  rcases hmem with hmem | hmem
  · exact tag.space_valid.not_mem d hspace hmem
  · split at hmem
    · exact hd (List.mem_singleton.mp hmem)
    · exact absurd hmem List.not_mem_nil

end Zd1200
