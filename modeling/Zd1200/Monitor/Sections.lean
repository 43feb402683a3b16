import Zd1200.Monitor.Listing

/-!
# The Sections of a Document

Listings as documents, and in whose section each access point is.

A document lists access points, each of them an element with children or an
empty-element tag. `ingest_ap_detail` knows of sections only, from an `<ap ` to
the next `</ap>`. An empty-element tag has no `</ap>`, so a section that such a
tag begins runs on until some access point with children ends, and the samples
of that access point go to the one that began the section. White space can have
the same effect: an `<ap` with a line break behind it begins no section, and a
`</ap >` ends none. `owners` pairs each access point with the one whose section
it is in, if it is in one that ends.

## Main definitions

* `ApElement`, `ApListing`: A document.
* `owners`: Whose section an access point is in.
* `pairStated`: What is stated of an access point in its section.

## Theorems

* `filterMap_detailRows`, `mem_detailRows`: The statements of a document.
* `owners_snd`: Each access point is in one section, or in none.
* `owner_mem_owners`: The one that began a section is in it.
-/

namespace Zd1200

/-- Markup that is not a tag of an access point, a radio or a link. -/
def Piece.Other (p : Piece) : Prop :=
  match p.markup with
  | .opening tag => tag.name ∉ tagNames
  | .closing name _ _ _ => name ≠ ascii "ap"
  | .misc .. => True

/-- A child of an access point: a radio, a link, or another element, and what is
    behind it. -/
structure ApChild where
  tag : StartTag
  chars : Bytes
  content : List Piece
  endSpace : Bytes
  endChars : Bytes
  after : List Piece
  tag_plain : tag.Plain := by decide
  name_ne : tag.name ≠ ascii "ap" := by decide
  chars_plain : 60 ∉ chars := by decide
  content_other : ∀ p ∈ content, p.Other := by exact List.forall_mem_nil _
  endSpace_valid : IsSpaces endSpace := by decide
  endChars_plain : 60 ∉ endChars := by decide
  after_other : ∀ p ∈ after, p.Other := by exact List.forall_mem_nil _

/-- The child's start tag. -/
def ApChild.opening (c : ApChild) : Piece := ⟨.opening c.tag, c.chars, c.chars_plain⟩

/-- What follows the start tag: the element's content and end, if it has any,
    and what is behind it. -/
def ApChild.rest (c : ApChild) : List Piece :=
  (if c.tag.isEmpty then []
    else c.content ++
      [⟨.closing c.tag.name c.endSpace c.tag.name_valid c.endSpace_valid, c.endChars,
        c.endChars_plain⟩]) ++ c.after

/-- An access point with its children and what is behind it. -/
structure ApElement where
  tag : StartTag
  chars : Bytes
  before : List Piece
  children : List ApChild
  endSpace : Bytes
  endChars : Bytes
  after : List Piece
  tag_plain : tag.Plain := by decide
  name_eq : tag.name = ascii "ap" := by decide
  chars_plain : 60 ∉ chars := by decide
  before_other : ∀ p ∈ before, p.Other := by exact List.forall_mem_nil _
  endSpace_valid : IsSpaces endSpace := by decide
  endChars_plain : 60 ∉ endChars := by decide
  after_other : ∀ p ∈ after, p.Other := by exact List.forall_mem_nil _
  /-- An empty-element tag has no content. -/
  childless : tag.isEmpty = true → before = [] ∧ children = [] := by decide

namespace ApElement

def opening (a : ApElement) : Piece := ⟨.opening a.tag, a.chars, a.chars_plain⟩

def closing (a : ApElement) : Piece :=
  ⟨.closing (ascii "ap") a.endSpace isXmlName_ap a.endSpace_valid, a.endChars, a.endChars_plain⟩

/-- What is between the tags. -/
def inside (a : ApElement) : List Piece :=
  a.before ++ a.children.flatMap fun c => c.opening :: c.rest

def pieces (a : ApElement) : List Piece :=
  a.opening :: ((if a.tag.isEmpty then [] else a.inside ++ [a.closing]) ++ a.after)

/-- The MAC, if it is valid. -/
def validMac? (a : ApElement) : Option Bytes :=
  (a.tag.value (ascii "mac")).filter fun mac => validMac mac

end ApElement

/-- A document: access points one after another. -/
structure ApListing where
  head : Bytes
  before : List Piece
  aps : List ApElement
  head_plain : 60 ∉ head := by decide
  before_other : ∀ p ∈ before, p.Other := by exact List.forall_mem_nil _

def ApListing.text (doc : ApListing) : Bytes :=
  doc.head ++ markupText (doc.before ++ doc.aps.flatMap ApElement.pieces)

/-- The access point has an end tag that is found. -/
def ApElement.Closed (a : ApElement) : Prop := a.tag.isEmpty = false ∧ a.endSpace = []

instance (a : ApElement) : Decidable a.Closed := inferInstanceAs (Decidable (_ ∧ _))

/-- The section that is open behind the start tag of an access point: the one
    that it begins, if none was open and its tag is found. A section has the
    access point that began it and those in it. -/
def joinSection (a : ApElement) :
    Option (ApElement × List ApElement) → Option (ApElement × List ApElement)
  | some (owner, inner) => some (owner, inner ++ [a])
  | none => if a.tag.Found then some (a, [a]) else none

/-- Each access point, and the one that its section began with, if it is in a
    section that ends. -/
def owners : Option (ApElement × List ApElement) → List ApElement →
    List (Option ApElement × ApElement)
  | state, [] => state.toList.flatMap fun s => s.2.map fun b => (none, b)
  | state, a :: rest =>
      match joinSection a state with
      | none => (none, a) :: owners none rest
      | some (owner, inner) =>
          if a.Closed then inner.map (fun b => (some owner, b)) ++ owners none rest
          else owners (some (owner, inner)) rest

/-- The MAC that is read off an access point's tag, if it is valid. -/
def ApElement.readMac? (a : ApElement) : Option Bytes :=
  (a.tag.read "mac").filter fun mac => validMac mac

/-! ### The sections of a document -/

theorem tag?_of_other (p : Piece) (h : p.Other) (name : Bytes) (hname : name ∈ tagNames) :
    p.tag? name = none := by
  cases htag : p.tag? name with
  | none => rfl
  | some tag =>
      rcases (p.tag?_eq_some_iff name tag).mp htag with ⟨hmarkup, heq, -⟩
      unfold Piece.Other at h
      rw [hmarkup] at h
      exact absurd (heq ▸ hname) h

theorem closes_of_other (p : Piece) (h : p.Other) : p.closes (ascii "ap") = false := by
  unfold Piece.Other at h
  unfold Piece.closes
  cases hmarkup : p.markup with
  | opening tag => rfl
  | misc first rest plain head => rfl
  | closing name space name_valid space_valid =>
      rw [hmarkup] at h
      exact decide_eq_false fun heq => h heq.1

theorem ApChild.rest_other (c : ApChild) : ∀ p ∈ c.rest, p.Other := by
  intro p hp
  rw [rest, List.mem_append] at hp
  rcases hp with hp | hp
  · split at hp
    · exact absurd hp List.not_mem_nil
    · rw [List.mem_append, List.mem_singleton] at hp
      rcases hp with hp | rfl
      · exact c.content_other p hp
      · exact c.name_ne
  · exact c.after_other p hp

/-- A link's statement needs a peer with a valid MAC. -/
theorem meshSample_eq (read : String → Option Bytes) (observedAt : Nat) (mac : Bytes)
    (direction : Direction) :
    meshSample read observedAt mac direction =
      ((read "ap").filter fun peer => validMac peer).map fun peerMac =>
        .mesh
          { observedAt, apMac := mac, peerMac, direction
            radioType := read "radio-type"
            snrDb := optionalInt (read "rssi") } := by
  unfold meshSample
  cases read "ap" with
  | none => rfl
  | some peer =>
      rw [Option.filter_some]
      simp only [Option.bind_eq_bind, Option.bind_some]
      cases validMac peer with
      | false => rfl
      | true => rfl

/-- The statements that a piece gives in a section with this MAC. -/
def Piece.stated (observedAt : Nat) (mac : Bytes) (p : Piece) : List DetailRow :=
  (p.radio?.map fun tag => radioSample tag.read observedAt mac).toList ++
    (p.link?.bind fun link => meshSample link.1.read observedAt mac link.2).toList

/-- The statements that an access point gives in its section. -/
def pairStated (observedAt : Nat) (pair : Option ApElement × ApElement) : List DetailRow :=
  (pair.1.bind ApElement.readMac?).toList.flatMap fun mac =>
    pair.2.children.flatMap fun c => c.opening.stated observedAt mac

theorem stated_of_tagless (p : Piece) (observedAt : Nat) (mac : Bytes)
    (hradio : p.tag? (ascii "radio") = none) (hup : p.tag? (ascii "uplink-ap") = none)
    (hdown : p.tag? (ascii "downlink-ap") = none) : p.stated observedAt mac = [] := by
  rw [Piece.stated, Piece.radio?, hradio, (link?_eq_none_iff p).mpr ⟨hup, hdown⟩]
  rfl

theorem stated_of_other (p : Piece) (h : p.Other) (observedAt : Nat) (mac : Bytes) :
    p.stated observedAt mac = [] :=
  stated_of_tagless p observedAt mac (tag?_of_other p h _ (by decide))
    (tag?_of_other p h _ (by decide)) (tag?_of_other p h _ (by decide))

theorem flatMap_stated_other (pieces : List Piece) (h : ∀ p ∈ pieces, p.Other) (observedAt : Nat)
    (mac : Bytes) : pieces.flatMap (Piece.stated observedAt mac) = [] :=
  List.flatMap_eq_nil_iff.mpr fun p hp => stated_of_other p (h p hp) observedAt mac

/-- What is between the tags of an access point gives what its children give. -/
theorem flatMap_stated_inside (a : ApElement) (observedAt : Nat) (mac : Bytes) :
    a.inside.flatMap (Piece.stated observedAt mac) =
      a.children.flatMap fun c => c.opening.stated observedAt mac := by
  rw [ApElement.inside, List.flatMap_append, flatMap_stated_other a.before a.before_other,
    List.nil_append, List.flatMap_assoc]
  refine List.flatMap_congr fun c _ => ?_
  rw [List.flatMap_cons, flatMap_stated_other c.rest c.rest_other, List.append_nil]

/-- A selection from the statements of a section that takes radios only, or
    links only, can be made piece by piece. -/
theorem filterMap_pieceSamples {β : Type} (f : DetailRow → Option β)
    (hf : (∀ sample, f (.mesh sample) = none) ∨ ∀ number sample, f (.radio number sample) = none)
    (observedAt : Nat) (mac : Option Bytes) (pieces : List Piece) :
    (pieceSamples observedAt mac pieces).filterMap f =
      (mac.filter fun mac => validMac mac).toList.flatMap fun mac =>
        (pieces.flatMap (Piece.stated observedAt mac)).filterMap f := by
  -- The radios of a section come before its links, and only the order between the two is lost.
  have hsplit : ∀ mac, (pieces.flatMap (Piece.stated observedAt mac)).filterMap f =
      ((pieces.filterMap Piece.radio?).map fun tag => radioSample tag.read observedAt mac).filterMap f ++
        ((pieces.filterMap Piece.link?).filterMap fun link =>
          meshSample link.1.read observedAt mac link.2).filterMap f := by
    intro mac
    induction pieces with
    | nil => rfl
    | cons p pieces ih =>
        -- One of the two sides is not selected from.
        have hnone : ((p.link?.bind fun link =>
              meshSample link.1.read observedAt mac link.2).toList.filterMap f = [] ∨
            ((pieces.filterMap Piece.radio?).map fun tag =>
              radioSample tag.read observedAt mac).filterMap f = []) := by
          rcases hf with hmesh | hradio
          · refine Or.inl (List.filterMap_eq_nil_iff.mpr fun row hrow => ?_)
            rw [Option.mem_toList, Option.bind_eq_some_iff] at hrow
            rcases hrow with ⟨link, -, hlink⟩
            rw [meshSample_eq, Option.map_eq_some_iff] at hlink
            rcases hlink with ⟨peer, -, rfl⟩
            exact hmesh _
          · refine Or.inr (List.filterMap_eq_nil_iff.mpr fun row hrow => ?_)
            rcases List.mem_map.mp hrow with ⟨tag, -, rfl⟩
            exact hradio _ _
        have hcons : ((p :: pieces).filterMap Piece.radio?).map
              (fun tag => radioSample tag.read observedAt mac) =
            (p.radio?.map fun tag => radioSample tag.read observedAt mac).toList ++
              (pieces.filterMap Piece.radio?).map fun tag => radioSample tag.read observedAt mac := by
          rw [List.filterMap_cons]
          cases p.radio? with
          | none => rfl
          | some tag => rfl
        have hcons' : ((p :: pieces).filterMap Piece.link?).filterMap
              (fun link => meshSample link.1.read observedAt mac link.2) =
            (p.link?.bind fun link => meshSample link.1.read observedAt mac link.2).toList ++
              (pieces.filterMap Piece.link?).filterMap fun link =>
                meshSample link.1.read observedAt mac link.2 := by
          rw [List.filterMap_cons]
          cases p.link? with
          | none => rfl
          | some link =>
              rw [Option.bind_some, List.filterMap_cons]
              cases meshSample link.1.read observedAt mac link.2 with
              | none => rfl
              | some row => rfl
        rw [List.flatMap_cons, List.filterMap_append, ih, hcons, hcons', Piece.stated]
        simp only [List.filterMap_append]
        rcases hnone with hnone | hnone
        · rw [hnone, List.append_nil, List.nil_append, List.append_assoc]
        · rw [hnone, List.nil_append, List.append_nil, List.append_assoc]
  unfold pieceSamples
  cases mac with
  | none => rfl
  | some mac =>
      rw [Option.filter_some]
      cases hvalid : validMac mac with
      | false =>
          simp only [hvalid, Bool.false_eq_true, if_false]
          rfl
      | true =>
          simp only [hvalid, if_true, Option.toList_some, List.flatMap_singleton]
          rw [List.filterMap_append, hsplit]

/-- Pieces without an end tag lengthen the section that is open. -/
theorem pieceSections_inside (front rest inner : List Piece) (tag : StartTag)
    (h : ∀ p ∈ front, p.closes (ascii "ap") = false) :
    pieceSections (some (tag, inner)) (front ++ rest) =
      pieceSections (some (tag, inner ++ front)) rest := by
  induction front generalizing inner with
  | nil => rw [List.nil_append, List.append_nil]
  | cons p front ih =>
      rw [List.cons_append, pieceSections, h p List.mem_cons_self, if_neg (by decide),
        ih _ fun q hq => h q (List.mem_cons_of_mem _ hq), List.append_assoc, List.singleton_append]

/-- Pieces without an `<ap ` are skipped where no section is open. -/
theorem pieceSections_outside (front rest : List Piece)
    (h : ∀ p ∈ front, p.tag? (ascii "ap") = none) :
    pieceSections none (front ++ rest) = pieceSections none rest := by
  induction front with
  | nil => rfl
  | cons p front ih =>
      rw [List.cons_append, pieceSections, h p List.mem_cons_self, Option.map_none]
      exact ih fun q hq => h q (List.mem_cons_of_mem _ hq)

theorem ApElement.inside_closes (a : ApElement) : ∀ p ∈ a.inside, p.closes (ascii "ap") = false := by
  intro p hp
  rw [inside, List.mem_append, List.mem_flatMap] at hp
  rcases hp with hp | ⟨c, -, hp⟩
  · exact closes_of_other p (a.before_other p hp)
  · rcases List.mem_cons.mp hp with rfl | hp
    · rfl
    · exact closes_of_other p (c.rest_other p hp)

theorem ApElement.opening_tag (a : ApElement) :
    a.opening.tag? (ascii "ap") = if a.tag.Found then some a.tag else none := by
  have htag : a.opening.tag? (ascii "ap") =
      if a.tag.name = ascii "ap" ∧ a.tag.Found then some a.tag else none := rfl
  rw [htag]
  by_cases hfound : a.tag.Found
  · rw [if_pos ⟨a.name_eq, hfound⟩, if_pos hfound]
  · rw [if_neg fun h => hfound h.2, if_neg hfound]

theorem ApElement.stated_opening (a : ApElement) (observedAt : Nat) (mac : Bytes) :
    a.opening.stated observedAt mac = [] := by
  have hnone : ∀ name, name ≠ ascii "ap" → a.opening.tag? name = none := fun name hne =>
    if_neg fun h => hne (h.1.symm.trans a.name_eq)
  exact stated_of_tagless _ _ _ (hnone _ (by decide)) (hnone _ (by decide)) (hnone _ (by decide))

theorem ApElement.closing_closes (a : ApElement) :
    a.closing.closes (ascii "ap") = decide (a.endSpace = []) := by
  have hcloses : a.closing.closes (ascii "ap") = decide (ascii "ap" = ascii "ap" ∧ a.endSpace = []) :=
    rfl
  rw [hcloses, decide_eq_decide, and_iff_right rfl]

theorem ApElement.inside_tag (a : ApElement) : ∀ p ∈ a.inside, p.tag? (ascii "ap") = none := by
  intro p hp
  rw [inside, List.mem_append, List.mem_flatMap] at hp
  rcases hp with hp | ⟨c, -, hp⟩
  · exact tag?_of_other p (a.before_other p hp) _ (by decide)
  · rcases List.mem_cons.mp hp with rfl | hp
    · exact if_neg fun h => c.name_ne h.1
    · exact tag?_of_other p (c.rest_other p hp) _ (by decide)

/-- Behind a section its statements are those of the access points in it. -/
theorem flatMap_pairStated {β : Type} (f : DetailRow → Option β) (observedAt : Nat)
    (owner : ApElement) (pending : List ApElement) :
    (pending.map fun b => (some owner, b)).flatMap
        (fun pair => (pairStated observedAt pair).filterMap f) =
      owner.readMac?.toList.flatMap fun mac =>
        (pending.flatMap fun b => b.children.flatMap fun c =>
          c.opening.stated observedAt mac).filterMap f := by
  rw [List.flatMap_map]
  simp only [pairStated, Option.bind_some]
  cases owner.readMac? with
  | none =>
      refine List.flatMap_eq_nil_iff.mpr fun b _ => ?_
      rfl
  | some mac =>
      simp only [Option.toList_some, List.flatMap_singleton, List.filterMap_flatMap]

section Sections

variable {β : Type} (f : DetailRow → Option β)
  (hf : (∀ sample, f (.mesh sample) = none) ∨ ∀ number sample, f (.radio number sample) = none)
  (observedAt : Nat)

include hf

/-- What is selected from the statements of a document's sections, with or
    without a section that is open. -/
theorem sections_listing (aps : List ApElement) :
    (pieceSections none (aps.flatMap ApElement.pieces)).flatMap
        (fun s => (sectionSamples observedAt s).filterMap f) =
        (owners none aps).flatMap (fun pair => (pairStated observedAt pair).filterMap f) ∧
      ∀ (owner : ApElement) (pending : List ApElement) (inner : List Piece),
        (∀ mac, inner.flatMap (Piece.stated observedAt mac) =
          pending.flatMap fun b => b.children.flatMap fun c => c.opening.stated observedAt mac) →
        (pieceSections (some (owner.tag, inner)) (aps.flatMap ApElement.pieces)).flatMap
            (fun s => (sectionSamples observedAt s).filterMap f) =
          (owners (some (owner, pending)) aps).flatMap fun pair =>
            (pairStated observedAt pair).filterMap f := by
  induction aps with
  | nil =>
      refine ⟨rfl, fun owner pending inner _ => ?_⟩
      rw [owners, Option.toList_some, List.flatMap_singleton]
      exact (List.flatMap_eq_nil_iff.mpr fun pair hpair => by
        rcases List.mem_map.mp hpair with ⟨b, -, rfl⟩
        rfl).symm
  | cons a aps ih =>
      rcases ih with ⟨ihnone, ihsome⟩
      have hafter : ∀ p ∈ a.after, p.closes (ascii "ap") = false := fun p hp =>
        closes_of_other p (a.after_other p hp)
      have hskip : ∀ p ∈ a.after, p.tag? (ascii "ap") = none := fun p hp =>
        tag?_of_other p (a.after_other p hp) _ (by decide)
      have hsplit : (a :: aps).flatMap ApElement.pieces = a.opening ::
          ((if a.tag.isEmpty then [] else a.inside ++ [a.closing]) ++
            (a.after ++ aps.flatMap ApElement.pieces)) := by
        rw [List.flatMap_cons, ApElement.pieces, List.cons_append, List.append_assoc]
      -- What comes of the section that is open behind the start tag.
      have hbehind : ∀ (owner : ApElement) (pending : List ApElement) (inner : List Piece),
          (∀ mac, inner.flatMap (Piece.stated observedAt mac) =
            pending.flatMap fun b => b.children.flatMap fun c => c.opening.stated observedAt mac) →
          (pieceSections (some (owner.tag, inner))
            ((if a.tag.isEmpty then [] else a.inside ++ [a.closing]) ++
              (a.after ++ aps.flatMap ApElement.pieces))).flatMap
                (fun s => (sectionSamples observedAt s).filterMap f) =
            (if a.Closed then (pending ++ [a]).map (fun b => (some owner, b)) ++ owners none aps
              else owners (some (owner, pending ++ [a])) aps).flatMap fun pair =>
                (pairStated observedAt pair).filterMap f := by
        intro owner pending inner hinner
        -- The access point adds what its children give.
        have hmore : ∀ mac, (inner ++ a.inside).flatMap (Piece.stated observedAt mac) =
            (pending ++ [a]).flatMap fun b => b.children.flatMap fun c =>
              c.opening.stated observedAt mac := fun mac => by
          rw [List.flatMap_append, List.flatMap_append, hinner mac, flatMap_stated_inside,
            List.flatMap_singleton]
        cases hempty : a.tag.isEmpty with
        | true =>
            -- An empty-element tag leaves the section open.
            have hopen : ¬ a.Closed := fun h => by
              rw [ApElement.Closed, hempty] at h
              exact absurd h.1 (by decide)
            rw [if_pos rfl, List.nil_append, if_neg hopen,
              pieceSections_inside a.after _ inner owner.tag hafter]
            refine ihsome owner (pending ++ [a]) (inner ++ a.after) fun mac => ?_
            rw [List.flatMap_append, List.flatMap_append, hinner mac,
              flatMap_stated_other a.after a.after_other, List.flatMap_singleton,
              (a.childless hempty).2]
            rfl
        | false =>
            rw [if_neg (by decide), List.append_assoc, List.singleton_append]
            -- Only an end tag without white space is found.
            by_cases hspace : a.endSpace = []
            · rw [if_pos ⟨hempty, hspace⟩, pieceSections_closing a.inside _ inner a.closing owner.tag
                a.inside_closes (by rw [a.closing_closes]; exact decide_eq_true hspace),
                pieceSections_outside a.after _ hskip, List.flatMap_cons, List.flatMap_append,
                ihnone, flatMap_pairStated, sectionSamples, filterMap_pieceSamples f hf]
              simp only [hmore]
              rfl
            · rw [if_neg fun h => hspace h.2, pieceSections_inside a.inside _ inner owner.tag
                a.inside_closes, pieceSections,
                show a.closing.closes (ascii "ap") = false by
                  rw [a.closing_closes]; exact decide_eq_false hspace,
                if_neg (by decide), pieceSections_inside a.after _ _ owner.tag hafter]
              refine ihsome owner (pending ++ [a]) _ fun mac => ?_
              rw [List.flatMap_append, List.flatMap_append, hmore mac,
                flatMap_stated_other a.after a.after_other, List.append_nil, List.flatMap_singleton,
                stated_of_tagless a.closing observedAt mac rfl rfl rfl, List.append_nil]
      rw [hsplit]
      refine ⟨?_, fun owner pending inner hinner => ?_⟩
      · rw [pieceSections, a.opening_tag, owners, joinSection]
        by_cases hfound : a.tag.Found
        · rw [if_pos hfound, if_pos hfound, Option.map_some]
          exact hbehind a [] [] fun mac => rfl
        · -- No section begins, and nothing in the element begins one.
          rw [if_neg hfound, if_neg hfound, Option.map_none]
          have hinside : ∀ p ∈ (if a.tag.isEmpty then [] else a.inside ++ [a.closing]),
              p.tag? (ascii "ap") = none := by
            intro p hp
            split at hp
            · exact absurd hp List.not_mem_nil
            · rw [List.mem_append, List.mem_singleton] at hp
              rcases hp with hp | rfl
              · exact a.inside_tag p hp
              · rfl
          rw [pieceSections_outside _ _ hinside, pieceSections_outside a.after _ hskip, ihnone]
          rfl
      · have hopen : a.opening.closes (ascii "ap") = false := rfl
        rw [pieceSections, hopen, if_neg (by decide), owners, joinSection]
        refine hbehind owner pending (inner ++ [a.opening]) fun mac => ?_
        rw [List.flatMap_append, List.flatMap_singleton, a.stated_opening, List.append_nil, hinner mac]

end Sections

theorem readable_of_other (p : Piece) (h : p.Other) : p.Readable := by
  unfold Piece.Other at h
  unfold Piece.Readable
  cases hmarkup : p.markup with
  | opening tag =>
      rw [hmarkup] at h
      exact fun hmem => absurd hmem h
  | closing name space name_valid space_valid =>
      trivial
  | misc first rest plain head => trivial

/-- The tags of a document end where the function looks for their end. -/
theorem readable_listing (doc : ApListing) :
    ∀ p ∈ doc.before ++ doc.aps.flatMap ApElement.pieces, p.Readable := by
  intro p hp
  rw [List.mem_append, List.mem_flatMap] at hp
  rcases hp with hp | ⟨a, -, hp⟩
  · exact readable_of_other p (doc.before_other p hp)
  · rw [ApElement.pieces, List.mem_cons, List.mem_append] at hp
    rcases hp with rfl | hp | hp
    · exact fun _ => a.tag_plain
    · split at hp
      · exact absurd hp List.not_mem_nil
      · rw [List.mem_append, List.mem_singleton, ApElement.inside, List.mem_append,
          List.mem_flatMap] at hp
        rcases hp with (hp | ⟨c, -, hp⟩) | rfl
        · exact readable_of_other p (a.before_other p hp)
        · rcases List.mem_cons.mp hp with rfl | hp
          · exact fun _ => c.tag_plain
          · exact readable_of_other p (c.rest_other p hp)
        · trivial
    · exact readable_of_other p (a.after_other p hp)

/-- The statements of a document: what each access point gives in its section.
    They are those of one table each, since the two kinds take turns. -/
theorem filterMap_detailRows {β : Type} (f : DetailRow → Option β)
    (hf : (∀ sample, f (.mesh sample) = none) ∨ ∀ number sample, f (.radio number sample) = none)
    (doc : ApListing) (observedAt : Nat) :
    (detailRows doc.text observedAt).filterMap f =
      (owners none doc.aps).flatMap fun pair => (pairStated observedAt pair).filterMap f := by
  rw [ApListing.text, detailRows_pieces doc.head _ observedAt doc.head_plain (readable_listing doc),
    pieceSections_outside doc.before _ fun p hp => tag?_of_other p (doc.before_other p hp) _
      (by decide), List.filterMap_flatMap]
  exact (sections_listing f hf observedAt doc.aps).1

namespace DetailRow

def ofRadio? : DetailRow → Option DetailRow
  | radio number sample => some (radio number sample)
  | mesh _ => none

def ofLink? : DetailRow → Option DetailRow
  | radio _ _ => none
  | mesh sample => some (mesh sample)

end DetailRow

/-- The statements of a document, of both kinds. -/
theorem mem_detailRows (doc : ApListing) (observedAt : Nat) (row : DetailRow) :
    row ∈ detailRows doc.text observedAt ↔
      ∃ pair ∈ owners none doc.aps, row ∈ pairStated observedAt pair := by
  have hpick : ∀ f : DetailRow → Option DetailRow,
      ((∀ sample, f (.mesh sample) = none) ∨ ∀ number sample, f (.radio number sample) = none) →
      f row = some row → (∀ r, f r = some row → r = row) →
      (row ∈ detailRows doc.text observedAt ↔
        ∃ pair ∈ owners none doc.aps, row ∈ pairStated observedAt pair) := by
    intro f hf hrow honly
    -- A selection that picks the row itself keeps it.
    have hmem : ∀ rows : List DetailRow, row ∈ rows.filterMap f ↔ row ∈ rows := fun rows => by
      rw [List.mem_filterMap]
      exact ⟨fun ⟨r, hr, heq⟩ => honly r heq ▸ hr, fun h => ⟨row, h, hrow⟩⟩
    rw [← hmem, filterMap_detailRows f hf, List.mem_flatMap]
    simp only [hmem]
  cases row with
  | radio number sample =>
      refine hpick DetailRow.ofRadio? (Or.inl fun _ => rfl) rfl fun r hr => ?_
      cases r with
      | radio n s => exact Option.some.inj hr
      | mesh s => exact absurd hr (by simp only [DetailRow.ofRadio?, reduceCtorEq, not_false_eq_true])
  | mesh sample =>
      refine hpick DetailRow.ofLink? (Or.inr fun _ _ => rfl) rfl fun r hr => ?_
      cases r with
      | radio n s => exact absurd hr (by simp only [DetailRow.ofLink?, reduceCtorEq, not_false_eq_true])
      | mesh s => exact Option.some.inj hr


/-! ### Owners -/

/-- Each access point is in one section, or in none. -/
theorem owners_snd (state : Option (ApElement × List ApElement)) (aps : List ApElement) :
    (owners state aps).map Prod.snd = (state.toList.flatMap fun s => s.2) ++ aps := by
  induction aps generalizing state with
  | nil =>
      rw [owners, List.append_nil]
      cases state with
      | none => rfl
      | some s =>
          rw [Option.toList_some, List.flatMap_singleton, List.flatMap_singleton, List.map_map]
          exact List.map_id _
  | cons a aps ih =>
      -- The open section is lengthened by this access point.
      have hjoin : ∀ s, joinSection a state = some s →
          s.2 = (state.toList.flatMap fun s => s.2) ++ [a] := by
        intro s hs
        cases state with
        | none =>
            rw [joinSection] at hs
            split at hs
            · rw [← Option.some.inj hs]
              rfl
            · exact absurd hs (by simp only [reduceCtorEq, not_false_eq_true])
        | some t =>
            rw [← Option.some.inj hs, Option.toList_some, List.flatMap_singleton]
      rw [owners]
      cases hs : joinSection a state with
      | none =>
          have hnone : state = none := by
            cases state with
            | none => rfl
            | some t => exact absurd hs (by simp only [joinSection, reduceCtorEq, not_false_eq_true])
          simp only
          rw [List.map_cons, ih none, hnone]
          rfl
      | some s =>
          rcases s with ⟨owner, inner⟩
          have hinner := hjoin _ hs
          simp only at hinner ⊢
          split
          · rw [List.map_append, List.map_map, ih none, hinner]
            simp only [Function.comp_def, List.map_id', Option.toList_none, List.flatMap_nil,
              List.nil_append, List.append_assoc, List.cons_append]
          · rw [ih (some (owner, inner)), Option.toList_some, List.flatMap_singleton, hinner,
              List.append_assoc, List.singleton_append]

/-- An access point that began a section is in that section. -/
theorem owner_mem_owners (state : Option (ApElement × List ApElement)) (aps : List ApElement)
    (hstate : ∀ s ∈ state, s.1 ∈ s.2) (owner a : ApElement) (h : (some owner, a) ∈ owners state aps) :
    (some owner, owner) ∈ owners state aps := by
  induction aps generalizing state with
  | nil =>
      rw [owners, List.mem_flatMap] at h
      rcases h with ⟨s, -, hs⟩
      rcases List.mem_map.mp hs with ⟨b, -, heq⟩
      exact absurd heq (by simp only [Prod.mk.injEq, reduceCtorEq, false_and, not_false_eq_true])
  | cons b aps ih =>
      rw [owners] at h ⊢
      have hnone : ∀ s ∈ (none : Option (ApElement × List ApElement)), s.1 ∈ s.2 :=
        fun s hs => absurd hs (Option.not_mem_none s)
      cases hs : joinSection b state with
      | none =>
          rw [hs] at h
          rcases List.mem_cons.mp h with h | h
          · exact absurd h (by simp only [Prod.mk.injEq, reduceCtorEq, false_and, not_false_eq_true])
          · exact List.mem_cons_of_mem _ (ih none hnone h)
      | some s =>
          rcases s with ⟨first, inner⟩
          -- The one that began it is in it from the start.
          have hin : first ∈ inner := by
            cases state with
            | none =>
                rw [joinSection] at hs
                split at hs
                · rw [Option.some.injEq, Prod.mk.injEq] at hs
                  rw [← hs.1, ← hs.2]
                  exact List.mem_singleton_self b
                · exact absurd hs (by simp only [reduceCtorEq, not_false_eq_true])
            | some t =>
                rw [joinSection, Option.some.injEq, Prod.mk.injEq] at hs
                rw [← hs.1, ← hs.2]
                exact List.mem_append_left _ (hstate t rfl)
          rw [hs] at h
          simp only at h ⊢
          split at h
          · next hclosed =>
            rw [if_pos hclosed]
            rcases List.mem_append.mp h with h | h
            · rcases List.mem_map.mp h with ⟨b', -, heq⟩
              rw [Prod.mk.injEq, Option.some.injEq] at heq
              exact List.mem_append_left _ (List.mem_map.mpr ⟨first, hin, by rw [heq.1]⟩)
            · exact List.mem_append_right _ (ih none hnone h)
          · next hopen =>
            rw [if_neg hopen]
            refine ih (some (first, inner)) (fun s hs => ?_) h
            rw [← Option.some.inj hs]
            exact hin

theorem mem_owners_snd (aps : List ApElement) (pair : Option ApElement × ApElement)
    (h : pair ∈ owners none aps) : pair.2 ∈ aps := by
  have hmem := List.mem_map_of_mem (f := Prod.snd) h
  rwa [owners_snd, Option.toList_none, List.flatMap_nil, List.nil_append] at hmem

end Zd1200
