import Mathlib.Data.List.Count
import Zd1200.Lib.Markup

/-!
# XML Documents and Their Spelling

A document as a sequence of tags, character data and other markup, each with its
spelling, and what is left of it when the spelling is forgotten.

What a reader of XML sees is a sequence of events. White space in a tag is not
part of them, raw values and character data are. Two spellings of one document
are item lists with the same events, so a program that edits text has edited
the document if the new text spells the new events.

Taking attributes out of a tag leaves white space behind. That is a spelling of
the tag without the attributes again, since the white space goes to the next
attribute or to the end of the tag (`exists_respelled`).

There are two quotes to an attribute and no others in a tag. So the number of
quotes in a text says how many attributes any document has that it spells
(`count_quote_text`).

## Main definitions

* `XmlItem`: A piece of a document, with its spelling.
* `XmlEvent`: What a reader sees of it.
* `WellFormedXml`: Tags are nested, and markup is where it can be seen.
* `textWithout`: A text in which attributes have been cut out.

## Theorems

* `exists_respelled`: A text in which attributes have been cut out spells the
  events without them.
* `count_quote_text`: The quotes of a text.
* `wellFormedXml_filterAttributes`: Taking attributes out leaves a document well
  formed.
-/

namespace Zd1200

/-- An end tag. -/
structure EndTag where
  name : Bytes
  space : Bytes
  name_valid : IsXmlName name := by decide
  space_valid : IsSpaces space := by decide

/-- A piece of a document: a tag, character data, or a comment, a section, an
    instruction or a declaration as it stands. -/
inductive XmlItem
  | chars (bytes : Bytes)
  | start (tag : StartTag)
  | stop (tag : EndTag)
  | other (bytes : Bytes)

def EndTag.text (tag : EndTag) : Bytes := 60 :: 47 :: (tag.name ++ tag.space ++ [62])

def XmlItem.text : XmlItem → Bytes
  | chars bytes => bytes
  | start tag => tag.text
  | stop tag => tag.text
  | other bytes => bytes

/-- The text of a document. -/
def documentText (items : List XmlItem) : Bytes := items.flatMap XmlItem.text

/-- What a reader sees of an item. Values are raw. -/
inductive XmlEvent
  | chars (bytes : Bytes)
  | start (name : Bytes) (attributes : List (Bytes × Bytes)) (isEmpty : Bool)
  | stop (name : Bytes)
  | other (bytes : Bytes)
  deriving DecidableEq

/-- The name and the raw value of an attribute. -/
def XmlAttribute.pair (a : XmlAttribute) : Bytes × Bytes := (a.name, a.value)

def XmlItem.event : XmlItem → XmlEvent
  | chars bytes => .chars bytes
  | start tag => .start tag.name (tag.attributes.map XmlAttribute.pair) tag.isEmpty
  | stop tag => .stop tag.name
  | other bytes => .other bytes

/-- The content of a document. -/
def documentEvents (items : List XmlItem) : List XmlEvent := items.map XmlItem.event

/-- The tags of a document are nested below those that are open. -/
def Nested : List Bytes → List XmlEvent → Prop
  | opened, [] => opened = []
  | opened, .start name _ isEmpty :: rest =>
      if isEmpty then Nested opened rest else Nested (name :: opened) rest
  | [], .stop _ :: _ => False
  | last :: opened, .stop name :: rest => name = last ∧ Nested opened rest
  | opened, .chars _ :: rest => Nested opened rest
  | opened, .other _ :: rest => Nested opened rest

/-- Markup other than a tag begins like markup and ends like it. Character data
    holds no markup. -/
def XmlEvent.Plain : XmlEvent → Prop
  | chars bytes => 60 ∉ bytes
  | other bytes => ([60, 33] <+: bytes ∨ [60, 63] <+: bytes) ∧ [62] <:+ bytes
  | _ => True

/-- Tags are nested, and markup is where it can be seen. -/
def WellFormedXml (events : List XmlEvent) : Prop := Nested [] events ∧ ∀ e ∈ events, e.Plain

instance decidableNested : (opened : List Bytes) → (events : List XmlEvent) →
    Decidable (Nested opened events)
  | opened, [] => inferInstanceAs (Decidable (opened = []))
  | opened, .start name _ isEmpty :: rest =>
      have := decidableNested opened rest
      have := decidableNested (name :: opened) rest
      inferInstanceAs (Decidable (if isEmpty then _ else _))
  | [], .stop _ :: _ => isFalse not_false
  | last :: opened, .stop name :: rest =>
      have := decidableNested opened rest
      inferInstanceAs (Decidable (name = last ∧ _))
  | [], .chars _ :: rest => decidableNested [] rest
  | _ :: _, .chars _ :: rest => decidableNested _ rest
  | [], .other _ :: rest => decidableNested [] rest
  | _ :: _, .other _ :: rest => decidableNested _ rest

instance decidablePlainEvent : (e : XmlEvent) → Decidable e.Plain
  | .chars bytes => inferInstanceAs (Decidable (60 ∉ bytes))
  | .other bytes => inferInstanceAs (Decidable ((_ ∨ _) ∧ [62] <:+ bytes))
  | .start .. => isTrue trivial
  | .stop _ => isTrue trivial

instance (events : List XmlEvent) : Decidable (WellFormedXml events) :=
  have := List.decidableBAll XmlEvent.Plain events
  inferInstanceAs (Decidable (Nested [] events ∧ ∀ e ∈ events, e.Plain))

/-- The attributes that an event keeps. -/
def XmlEvent.filterAttributes (keep : Bytes → Bool) : XmlEvent → XmlEvent
  | start name attributes isEmpty => start name (attributes.filter fun a => keep a.1) isEmpty
  | e => e

/-- The document with some of its attributes only. -/
def filterAttributes (keep : Bytes → Bool) (events : List XmlEvent) : List XmlEvent :=
  events.map (XmlEvent.filterAttributes keep)

/-- The attributes of a document. -/
def XmlItem.attributes : XmlItem → List XmlAttribute
  | start tag => tag.attributes
  | _ => []

def documentAttributes (items : List XmlItem) : List XmlAttribute :=
  items.flatMap XmlItem.attributes

/-! ### Cutting attributes out -/

/-- The text of an attribute, or the white space that is left of it. -/
def XmlAttribute.textWithout (cut : XmlAttribute → Bool) (a : XmlAttribute) : Bytes :=
  if cut a then a.lead.dropLast else a.text

def StartTag.textWithout (cut : XmlAttribute → Bool) (tag : StartTag) : Bytes :=
  60 :: tag.name ++ tag.attributes.flatMap (XmlAttribute.textWithout cut) ++ tag.finish ++ [62]

def XmlItem.textWithout (cut : XmlAttribute → Bool) : XmlItem → Bytes
  | start tag => tag.textWithout cut
  | item => item.text

/-- The text of a document in which attributes have been cut out, each with the
    last of the white space in front of it. -/
def textWithout (cut : XmlAttribute → Bool) (items : List XmlItem) : Bytes :=
  items.flatMap (XmlItem.textWithout cut)

theorem IsSpaces.append {xs ys : Bytes} (hx : IsSpaces xs) (hy : IsSpaces ys) : IsSpaces (xs ++ ys) :=
  fun c hc => (List.mem_append.mp hc).elim (hx c) (hy c)

/-- White space that is left goes to the next attribute or to the end. -/
theorem exists_respelled_attributes (cut : XmlAttribute → Bool) (pending : Bytes)
    (hpending : IsSpaces pending) (attributes : List XmlAttribute) (space : Bytes)
    (hspace : IsSpaces space) :
    ∃ (attributes' : List XmlAttribute) (space' : Bytes), IsSpaces space' ∧
      pending ++ attributes.flatMap (XmlAttribute.textWithout cut) ++ space =
        attributes'.flatMap XmlAttribute.text ++ space' ∧
      attributes'.map XmlAttribute.pair =
        (attributes.filter fun a => !cut a).map XmlAttribute.pair := by
  induction attributes generalizing pending with
  | nil => exact ⟨[], pending ++ space, hpending.append hspace, by simp, rfl⟩
  | cons a attributes ih =>
      by_cases hcut : cut a = true
      · have hleft : IsSpaces (pending ++ a.lead.dropLast) :=
          hpending.append fun c hc => a.lead_space c ((List.dropLast_sublist _).subset hc)
        rcases ih _ hleft with ⟨attributes', space', hspace', htext, hpairs⟩
        refine ⟨attributes', space', hspace', ?_, ?_⟩
        · rw [← htext, List.flatMap_cons, XmlAttribute.textWithout, if_pos hcut, List.append_assoc,
            List.append_assoc, List.append_assoc, List.append_assoc]
        · rw [hpairs, List.filter_cons_of_neg (by rw [hcut]; decide)]
      · rcases ih [] (fun c hc => absurd hc List.not_mem_nil) with
          ⟨attributes', space', hspace', htext, hpairs⟩
        refine ⟨{ a with
          lead := pending ++ a.lead
          lead_ne := fun h => a.lead_ne (List.append_eq_nil_iff.mp h).2
          lead_space := hpending.append a.lead_space } :: attributes', space', hspace', ?_, ?_⟩
        · rw [List.nil_append] at htext
          rw [List.flatMap_cons, XmlAttribute.textWithout, if_neg hcut, List.flatMap_cons,
            List.append_assoc, List.append_assoc, htext]
          simp only [XmlAttribute.text, XmlAttribute.opening, List.append_assoc]
        · rw [List.filter_cons_of_pos (by rw [Bool.not_eq_true] at hcut; rw [hcut]; rfl),
            List.map_cons, List.map_cons, hpairs]
          rfl

theorem exists_respelled_tag (cut : XmlAttribute → Bool) (tag : StartTag) :
    ∃ tag' : StartTag, tag.textWithout cut = tag'.text ∧ tag'.name = tag.name ∧
      tag'.isEmpty = tag.isEmpty ∧
      tag'.attributes.map XmlAttribute.pair =
        (tag.attributes.filter fun a => !cut a).map XmlAttribute.pair := by
  rcases exists_respelled_attributes cut [] (fun c hc => absurd hc List.not_mem_nil) tag.attributes
    tag.space tag.space_valid with ⟨attributes', space', hspace', htext, hpairs⟩
  have hnames : attributes'.map XmlAttribute.name =
      (tag.attributes.filter fun a => !cut a).map XmlAttribute.name := by
    have h := congrArg (List.map Prod.fst) hpairs
    rwa [List.map_map, List.map_map] at h
  refine ⟨⟨tag.name, attributes', space', tag.isEmpty, tag.name_valid, ?_, hspace'⟩, ?_, rfl, rfl,
    hpairs⟩
  · rw [hnames]
    exact tag.names_nodup.sublist (List.filter_sublist.map _)
  · rw [List.nil_append] at htext
    simp only [StartTag.textWithout, StartTag.text, StartTag.finish]
    rw [← List.append_assoc, ← List.append_assoc, List.append_assoc (60 :: tag.name), htext]
    simp only [List.append_assoc, List.cons_append]

/-- A text in which attributes have been cut out spells the document without
    them, if they are those of some names. -/
theorem exists_respelled (cut : XmlAttribute → Bool) (keep : Bytes → Bool) (items : List XmlItem)
    (hcut : ∀ a ∈ documentAttributes items, cut a = !keep a.name) :
    ∃ items', textWithout cut items = documentText items' ∧
      documentEvents items' = filterAttributes keep (documentEvents items) := by
  induction items with
  | nil => exact ⟨[], rfl, rfl⟩
  | cons item items ih =>
      rw [documentAttributes, List.flatMap_cons] at hcut
      rcases ih fun a ha => hcut a (List.mem_append_right _ ha) with ⟨items', htext, hevents⟩
      have hitem : ∃ item' : XmlItem, item.textWithout cut = item'.text ∧
          item'.event = item.event.filterAttributes keep := by
        cases item with
        | start tag =>
            rcases exists_respelled_tag cut tag with ⟨tag', htag, hname, hempty, hpairs⟩
            refine ⟨.start tag', htag, ?_⟩
            have hfilter : (tag.attributes.filter fun a => !cut a).map XmlAttribute.pair =
                (tag.attributes.map XmlAttribute.pair).filter fun a => keep a.1 := by
              rw [List.filter_map]
              refine congrArg _ (List.filter_congr fun a ha => ?_)
              rw [hcut a (List.mem_append_left _ ha), Bool.not_not]
              rfl
            rw [XmlItem.event, XmlItem.event, XmlEvent.filterAttributes, hname, hempty, hpairs,
              hfilter]
        | chars bytes => exact ⟨.chars bytes, rfl, rfl⟩
        | stop tag => exact ⟨.stop tag, rfl, rfl⟩
        | other bytes => exact ⟨.other bytes, rfl, rfl⟩
      rcases hitem with ⟨item', hitem, hevent⟩
      refine ⟨item' :: items', ?_, ?_⟩
      · rw [textWithout, List.flatMap_cons, hitem, documentText, List.flatMap_cons]
        exact congrArg _ htext
      · rw [documentEvents, List.map_cons, hevent]
        exact congrArg _ hevents

/-! ### Quotes -/

/-- The quotes of an event: those in its data, and two to an attribute. -/
def XmlEvent.quotes : XmlEvent → Nat
  | chars bytes => bytes.count 34
  | start _ attributes _ => 2 * attributes.length
  | stop _ => 0
  | other bytes => bytes.count 34

theorem XmlAttribute.count_quote (a : XmlAttribute) : a.text.count 34 = 2 := by
  have hopening : a.opening.count 34 = 0 :=
    List.count_eq_zero.mpr (a.not_mem_opening 34 (by decide) (by decide) (by decide))
  have hvalue : a.value.count 34 = 0 := List.count_eq_zero.mpr a.not_quote_value
  rw [text, List.count_append, List.count_cons_self, List.count_append, hopening, hvalue]
  rfl

theorem StartTag.count_quote (tag : StartTag) : tag.text.count 34 = 2 * tag.attributes.length := by
  have hname : tag.name.count 34 = 0 :=
    List.count_eq_zero.mpr (tag.name_valid.not_mem 34 (by decide))
  have hfinish : tag.finish.count 34 = 0 :=
    List.count_eq_zero.mpr (tag.not_mem_finish 34 (by decide) (by decide))
  have hattributes : ∀ attributes : List XmlAttribute,
      (attributes.flatMap XmlAttribute.text).count 34 = 2 * attributes.length := by
    intro attributes
    induction attributes with
    | nil => rfl
    | cons a attributes ih =>
        rw [List.flatMap_cons, List.count_append, a.count_quote, ih, List.length_cons]
        omega
  rw [text, List.count_append, List.count_append, List.count_append, List.count_cons, hname,
    hattributes, hfinish]
  simp

/-- The quotes of a text are those of the events that it spells. -/
theorem count_quote_text (items : List XmlItem) :
    (documentText items).count 34 = ((documentEvents items).map XmlEvent.quotes).sum := by
  induction items with
  | nil => rfl
  | cons item items ih =>
      have hitem : item.text.count 34 = item.event.quotes := by
        cases item with
        | chars bytes => rfl
        | other bytes => rfl
        | start tag =>
            rw [XmlItem.text, tag.count_quote, XmlItem.event, XmlEvent.quotes, List.length_map]
        | stop tag =>
            have hname : tag.name.count 34 = 0 :=
              List.count_eq_zero.mpr (tag.name_valid.not_mem 34 (by decide))
            have hspace : tag.space.count 34 = 0 :=
              List.count_eq_zero.mpr (tag.space_valid.not_mem 34 (by decide))
            rw [XmlItem.text, EndTag.text, List.count_cons, List.count_cons, List.count_append,
              List.count_append, hname, hspace]
            rfl
      rw [documentText, List.flatMap_cons, List.count_append, hitem, documentEvents, List.map_cons,
        List.map_cons, List.sum_cons]
      exact congrArg _ ih

/-- Cutting an attribute out takes its two quotes away. -/
theorem count_quote_textWithout (cut : XmlAttribute → Bool) (items : List XmlItem) :
    (textWithout cut items).count 34 + 2 * (documentAttributes items).countP cut =
      (documentText items).count 34 := by
  have hattributes : ∀ attributes : List XmlAttribute,
      (attributes.flatMap (XmlAttribute.textWithout cut)).count 34 + 2 * attributes.countP cut =
        (attributes.flatMap XmlAttribute.text).count 34 := by
    intro attributes
    induction attributes with
    | nil => rfl
    | cons a attributes ih =>
        rw [List.flatMap_cons, List.count_append, List.flatMap_cons, List.count_append,
          a.count_quote, List.countP_cons, XmlAttribute.textWithout]
        by_cases hcut : cut a = true
        · have hspace : a.lead.dropLast.count 34 = 0 := List.count_eq_zero.mpr fun h =>
            a.lead_space.not_mem 34 (by decide) ((List.dropLast_sublist _).subset h)
          rw [if_pos hcut, if_pos hcut, hspace]
          omega
        · rw [if_neg hcut, if_neg hcut, a.count_quote]
          omega
  induction items with
  | nil => rfl
  | cons item items ih =>
      rw [textWithout, List.flatMap_cons, List.count_append, documentAttributes, List.flatMap_cons,
        List.countP_append, documentText, List.flatMap_cons, List.count_append]
      rw [textWithout, documentAttributes, documentText] at ih
      have hitem : (item.textWithout cut).count 34 + 2 * item.attributes.countP cut =
          item.text.count 34 := by
        cases item with
        | start tag =>
            have htag := hattributes tag.attributes
            rw [XmlItem.textWithout, StartTag.textWithout, XmlItem.attributes, XmlItem.text,
              StartTag.text]
            simp only [List.count_append]
            omega
        | chars bytes => rfl
        | stop tag => rfl
        | other bytes => rfl
      omega

/-- Forgetting an attribute takes its two quotes away. -/
theorem sum_quotes_filterAttributes (keep : Bytes → Bool) (items : List XmlItem) :
    ((filterAttributes keep (documentEvents items)).map XmlEvent.quotes).sum +
        2 * (documentAttributes items).countP (fun a => !keep a.name) =
      ((documentEvents items).map XmlEvent.quotes).sum := by
  induction items with
  | nil => rfl
  | cons item items ih =>
      rw [documentAttributes] at ih
      rw [documentEvents, filterAttributes, List.map_cons, List.map_cons, List.map_cons, List.map_cons,
        List.sum_cons, List.sum_cons, documentAttributes, List.flatMap_cons, List.countP_append]
      have hitem : (item.event.filterAttributes keep).quotes +
          2 * item.attributes.countP (fun a => !keep a.name) = item.event.quotes := by
        cases item with
        | start tag =>
            have hlength := List.length_eq_countP_add_countP (fun a : XmlAttribute => keep a.name)
              (l := tag.attributes)
            have hnot : tag.attributes.countP (fun a => !keep a.name) =
                tag.attributes.countP (fun a => decide (¬ keep a.name = true)) :=
              List.countP_congr fun a _ => by simp
            have hkept : ((tag.attributes.map XmlAttribute.pair).filter fun a => keep a.1).length =
                tag.attributes.countP fun a => keep a.name := by
              rw [← List.countP_eq_length_filter, List.countP_map]
              rfl
            rw [XmlItem.event, XmlEvent.filterAttributes, XmlEvent.quotes, XmlItem.attributes,
              XmlEvent.quotes, hkept, hnot, List.length_map]
            omega
        | chars bytes => rfl
        | stop tag => rfl
        | other bytes => rfl
      rw [documentEvents, filterAttributes] at ih
      omega

/-! ### Well-formedness -/

theorem nested_filterAttributes (keep : Bytes → Bool) (events : List XmlEvent) (opened : List Bytes) :
    Nested opened (filterAttributes keep events) ↔ Nested opened events := by
  induction events generalizing opened with
  | nil => exact Iff.rfl
  | cons e events ih =>
      cases e with
      | chars bytes => exact ih opened
      | other bytes => exact ih opened
      | start name attributes isEmpty =>
          cases isEmpty with
          | true => exact ih opened
          | false => exact ih (name :: opened)
      | stop name =>
          cases opened with
          | nil => exact Iff.rfl
          | cons last opened => exact and_congr_right fun _ => ih opened

/-- Taking attributes out leaves a document well formed. -/
theorem wellFormedXml_filterAttributes (keep : Bytes → Bool) (events : List XmlEvent) :
    WellFormedXml (filterAttributes keep events) ↔ WellFormedXml events := by
  have hplain : ∀ e : XmlEvent, (e.filterAttributes keep).Plain ↔ e.Plain := fun e => by
    cases e <;> exact Iff.rfl
  refine and_congr (nested_filterAttributes keep events []) ?_
  rw [filterAttributes, List.forall_mem_map]
  exact forall₂_congr fun e _ => hplain e

end Zd1200
