import Zd1200.Lib.Markup
import Zd1200.Monitor.Attributes
import Zd1200.Monitor.Telemetry

/-!
# The Detail Listing as Markup

What `ingest_ap_detail` makes of a listing, said of its markup.

The function never looks at the structure of the listing. It searches for
openings, and it takes what is between an `<ap ` and the next `</ap>` to be the
access point. A search can hit only where a piece of markup begins, so its loops
come to walks over the pieces of the listing: `pieceSections` cuts them into
sections, and every section gives its samples with the values that are read off
its tags.

How a listing is spelled shows in two places. A tag is found if a blank is right
behind its name, and an end tag if nothing is; and an attribute is read if a
blank is in front of it and no white space around its `=`. Both are part of what
a piece is here, so that nothing has to be assumed of the spelling. That a value
holds no `>` is what the end of a tag needs.

## Main definitions

* `detailNames`: The attributes that are read.
* `StartTag.Found`: A tag that the searches find.
* `StartTag.read`: The value that is read off a tag.
* `Piece.Readable`: Markup whose tags end where the function looks for their end.
* `pieceSections`: The sections of a listing.
* `sectionSamples`: The samples of a section.

## Theorems

* `attr_piece`: An attribute read off a piece.
* `radioTags_pieces`, `meshTags_pieces`: The radios and links of a section.
* `detailRows_pieces`: The samples of a listing.
-/

namespace Zd1200

/-- The attributes that are read off a listing. -/
def detailNames : List String :=
  ["mac", "radio-id", "radio-type", "channel", "channelization", "assoc-stas", "noisefloor",
    "avg-rssi", "airtime-total", "airtime-busy", "airtime-rx", "airtime-tx", "rf-samples", "ap",
    "rssi"]

theorem detailNames_valid : ∀ name ∈ detailNames, IsXmlName (ascii name) := by decide

/-- No value has a `>` or ends like an attribute that is read. -/
def StartTag.Plain (tag : StartTag) : Prop :=
  ∀ a ∈ tag.attributes, 62 ∉ a.value ∧
    ∀ name ∈ detailNames, ¬ attrNeedle (ascii name) <:+ a.value

/-- A blank is right behind the name, so that the searches find the tag. -/
def StartTag.Found (tag : StartTag) : Prop := tag.afterName.head? = some 32

instance decidableTagPlain (tag : StartTag) : Decidable tag.Plain :=
  inferInstanceAs (Decidable (∀ _ ∈ _, _))

instance decidableTagFound (tag : StartTag) : Decidable tag.Found :=
  inferInstanceAs (Decidable (_ = _))

/-- The names of the tags that are searched for. -/
def tagNames : List Bytes := [ascii "ap", ascii "radio", ascii "uplink-ap", ascii "downlink-ap"]

theorem tagNames_valid : ∀ name ∈ tagNames, IsXmlName name := by decide

/-- The start tag of a piece, if it is found under this name. -/
def Piece.tag? (name : Bytes) (p : Piece) : Option StartTag :=
  match p.markup with
  | .opening tag => if tag.name = name ∧ tag.Found then some tag else none
  | _ => none

/-- The piece is an end tag of this name, without white space in it. -/
def Piece.closes (name : Bytes) (p : Piece) : Bool :=
  match p.markup with
  | .closing other space _ _ => decide (other = name ∧ space = [])
  | _ => false

/-- The tags that are searched for have no `>` in a value. -/
def Piece.Readable (p : Piece) : Prop :=
  match p.markup with
  | .opening tag => tag.name ∈ tagNames → tag.Plain
  | _ => True

/-- The statement of a radio, from the values of its attributes. -/
def radioSample (read : String → Option Bytes) (observedAt : Nat) (apMac : Bytes) : DetailRow :=
  let number name := optionalInt (read name)
  .radio (number "radio-id")
    { observedAt, apMac
      radioId := (number "radio-id").getD 0
      radioType := read "radio-type"
      channel := number "channel"
      channelization := number "channelization"
      clients := number "assoc-stas"
      noiseFloorDbm := number "noisefloor"
      avgSnrDb := number "avg-rssi"
      airtimeTotalTenths := number "airtime-total"
      airtimeBusyTenths := number "airtime-busy"
      airtimeRxTenths := number "airtime-rx"
      airtimeTxTenths := number "airtime-tx"
      rfSamples := number "rf-samples" }

/-- The statement of a link, if its peer has a valid MAC. -/
def meshSample (read : String → Option Bytes) (observedAt : Nat) (apMac : Bytes)
    (direction : Direction) : Option DetailRow := do
  let peerMac ← read "ap"
  if validMac peerMac then
    some (.mesh
      { observedAt, apMac, peerMac, direction
        radioType := read "radio-type"
        snrDb := optionalInt (read "rssi") })
  else none

/-- The value that is read of an attribute. -/
def StartTag.read (tag : StartTag) (name : String) : Option Bytes :=
  readAttr (ascii name) tag.attributes

/-- The radio that a piece is the tag of. -/
def Piece.radio? (p : Piece) : Option StartTag := p.tag? (ascii "radio")

/-- The link that a piece is the tag of. -/
def Piece.link? (p : Piece) : Option (StartTag × Direction) :=
  match p.tag? (ascii "uplink-ap") with
  | some tag => some (tag, .uplink)
  | none => (p.tag? (ascii "downlink-ap")).map fun tag => (tag, .downlink)

theorem link?_eq_none_iff (p : Piece) :
    p.link? = none ↔ p.tag? (ascii "uplink-ap") = none ∧ p.tag? (ascii "downlink-ap") = none := by
  unfold Piece.link?
  cases p.tag? (ascii "uplink-ap") with
  | none => simp only [Option.map_eq_none_iff, true_and]
  | some tag => simp only [reduceCtorEq, false_and]

/-- A link is a tag of one of two names. -/
theorem tag?_of_link (p : Piece) (tag : StartTag) (direction : Direction)
    (h : p.link? = some (tag, direction)) : ∃ name ∈ tagNames, p.tag? name = some tag := by
  unfold Piece.link? at h
  cases hup : p.tag? (ascii "uplink-ap") with
  | some up =>
      rw [hup, Option.some.injEq, Prod.mk.injEq] at h
      exact ⟨ascii "uplink-ap", by decide, by rw [hup, h.1]⟩
  | none =>
      rw [hup, Option.map_eq_some_iff] at h
      rcases h with ⟨down, hdown, heq⟩
      rw [Prod.mk.injEq] at heq
      exact ⟨ascii "downlink-ap", by decide, by rw [hdown, heq.1]⟩

/-- The statements of pieces that belong to an access point. -/
def pieceSamples (observedAt : Nat) (apMac : Option Bytes) (pieces : List Piece) : List DetailRow :=
  match apMac with
  | none => []
  | some mac =>
      if validMac mac then
        ((pieces.filterMap Piece.radio?).map fun tag => radioSample tag.read observedAt mac) ++
          (pieces.filterMap Piece.link?).filterMap fun link =>
            meshSample link.1.read observedAt mac link.2
      else []

/-- The sections of a listing, with the section that is still open. A section
    has the tag that began it and the pieces up to its end. -/
def pieceSections : Option (StartTag × List Piece) → List Piece → List (StartTag × List Piece)
  | _, [] => []
  | none, p :: rest => pieceSections ((p.tag? (ascii "ap")).map fun tag => (tag, [])) rest
  | some (tag, inner), p :: rest =>
      if p.closes (ascii "ap") then (tag, inner) :: pieceSections none rest
      else pieceSections (some (tag, inner ++ [p])) rest

/-- The samples of a section. -/
def sectionSamples (observedAt : Nat) (apSection : StartTag × List Piece) : List DetailRow :=
  pieceSamples observedAt (apSection.1.read "mac") apSection.2

/-! ### One piece -/

/-- What stands in front of a tag's `>`. -/
def StartTag.front (tag : StartTag) : Bytes :=
  60 :: tag.name ++ tag.attributes.flatMap XmlAttribute.text ++ tag.finish

theorem StartTag.not_close_front (tag : StartTag) (h : ∀ a ∈ tag.attributes, 62 ∉ a.value) :
    62 ∉ tag.front := by
  rw [front, List.mem_append, List.mem_append, List.mem_cons, List.mem_flatMap]
  rintro (((hc | hc) | ⟨a, ha, hc⟩) | hc)
  · exact absurd hc (by decide)
  · exact tag.name_valid.not_mem 62 (by decide) hc
  · rw [XmlAttribute.text, List.mem_append, List.mem_cons, List.mem_append, List.mem_singleton] at hc
    rcases hc with hc | hc | hc | hc
    · exact a.not_mem_opening 62 (by decide) (by decide) (by decide) hc
    · exact absurd hc (by decide)
    · exact h a ha hc
    · exact absurd hc (by decide)
  · exact tag.not_mem_finish 62 (by decide) (by decide) hc

section Tag

variable {text : Bytes} {pos : Nat} {tag : StartTag} {rest : Bytes}
  (hdrop : text.drop pos = tag.text ++ rest) (hplain : tag.Plain)

include hdrop

include hplain in
/-- The tag ends at its own `>`. -/
theorem stop_tag : findFrom text (ascii ">") pos = some (pos + tag.front.length) := by
  have hfront := tag.not_close_front fun a ha => (hplain a ha).1
  rw [findFrom, hdrop, show tag.text = tag.front ++ [62] by rw [StartTag.text, StartTag.front],
    List.append_assoc, List.singleton_append, show ascii ">" = [62] by decide,
    findIn_segment _ _ _ hfront, Option.map_some]

/-- What is behind the tag. -/
theorem drop_tag : text.drop (pos + tag.front.length + 1) = rest := by
  have h := drop_behind text tag.text rest pos hdrop
  rwa [show tag.text = tag.front ++ [62] by rw [StartTag.text, StartTag.front], List.length_append,
    List.length_singleton, ← Nat.add_assoc] at h

include hplain in
/-- What is looked up is what is read off the tag. -/
theorem attr_piece (name : String) (hname : name ∈ detailNames) :
    attr text pos (pos + tag.front.length) name = tag.read name := by
  have hstop := stop_tag hdrop hplain
  have hle : pos ≤ text.length := by
    by_contra hlt
    rw [List.drop_eq_nil_of_le (by omega), StartTag.text] at hdrop
    exact absurd hdrop (by simp only [List.cons_append, List.append_assoc, List.nil_eq,
      reduceCtorEq, not_false_eq_true])
  have htext : text = text.take pos ++ (tag.text ++ rest) := by
    rw [← hdrop, List.take_append_drop]
  have hpos : (text.take pos).length = pos := by
    rw [List.length_take]
    omega
  have h := attr_startTag (detailNames_valid name hname) (text.take pos) rest tag
    (pos + tag.front.length) (by rwa [← htext, hpos])
  rw [← htext, hpos] at h
  rw [h, StartTag.read]

end Tag

/-! ### What a piece is -/

theorem Piece.tag?_eq_some_iff (name : Bytes) (p : Piece) (tag : StartTag) :
    p.tag? name = some tag ↔ p.markup = .opening tag ∧ tag.name = name ∧ tag.Found := by
  unfold tag?
  cases p.markup with
  | opening other =>
      simp only [Markup.opening.injEq]
      constructor
      · intro h
        split at h
        · next heq =>
          rw [Option.some.injEq] at h
          exact ⟨h, h ▸ heq⟩
        · exact absurd h (by simp only [reduceCtorEq, not_false_eq_true])
      · rintro ⟨rfl, heq⟩
        exact if_pos heq
  | closing => simp only [reduceCtorEq, false_and]
  | misc => simp only [reduceCtorEq, false_and]

theorem Piece.tag?_other (p : Piece) {name other : Bytes} {tag : StartTag}
    (h : p.tag? name = some tag) (hne : name ≠ other) : p.tag? other = none := by
  rcases (p.tag?_eq_some_iff name tag).mp h with ⟨hmarkup, rfl, -⟩
  unfold tag?
  rw [hmarkup]
  exact if_neg fun heq => hne heq.1

/-- A tag goes on behind its name, at least with its `>`. -/
theorem StartTag.head_afterName_append (tag : StartTag) (rest : Bytes) :
    (tag.afterName ++ rest).head? = tag.afterName.head? := by
  cases h : tag.afterName with
  | nil => exact absurd h (List.append_ne_nil_of_right_ne_nil _ (List.cons_ne_nil _ _))
  | cons c text => rfl

/-- A piece begins with one of the openings exactly if it has the tag. -/
theorem begins_tag_iff (p : Piece) (name : Bytes) (hname : name ∈ tagNames) :
    60 :: (name ++ [32]) <+: p.text ↔ (p.tag? name).isSome = true := by
  rw [opens_iff name (tagNames_valid name hname) 32 (by decide), Option.isSome_iff_exists]
  refine exists_congr fun tag => ?_
  rw [p.tag?_eq_some_iff, tag.head_afterName_append, StartTag.Found]

theorem begins_end_iff (p : Piece) :
    60 :: 47 :: (ascii "ap" ++ [62]) <+: p.text ↔ p.closes (ascii "ap") = true := by
  rw [closes_iff (ascii "ap") (by decide) 62 (by decide)]
  unfold Piece.closes
  constructor
  · rintro ⟨space, name_valid, space_valid, hmarkup, hhead⟩
    rw [hmarkup]
    cases space with
    | nil => exact decide_eq_true ⟨rfl, rfl⟩
    | cons c space =>
        -- White space is no `>`.
        have hspace := space_valid c List.mem_cons_self
        rw [Option.some.inj hhead] at hspace
        exact absurd hspace (by decide)
  · intro h
    cases hmarkup : p.markup with
    | opening tag => rw [hmarkup] at h; exact absurd h Bool.false_ne_true
    | misc first rest plain head => rw [hmarkup] at h; exact absurd h Bool.false_ne_true
    | closing name space name_valid space_valid =>
        rw [hmarkup] at h
        rcases of_decide_eq_true h with ⟨rfl, rfl⟩
        exact ⟨[], name_valid, space_valid, rfl, rfl⟩

/-! ### The loops -/

theorem radioSample_congr (read read' : String → Option Bytes) (observedAt : Nat) (apMac : Bytes)
    (h : ∀ name ∈ detailNames, read name = read' name) :
    radioSample read observedAt apMac = radioSample read' observedAt apMac := by
  unfold radioSample
  simp only
  rw [h "radio-id" (by decide), h "radio-type" (by decide), h "channel" (by decide),
    h "channelization" (by decide), h "assoc-stas" (by decide), h "noisefloor" (by decide),
    h "avg-rssi" (by decide), h "airtime-total" (by decide), h "airtime-busy" (by decide),
    h "airtime-rx" (by decide), h "airtime-tx" (by decide), h "rf-samples" (by decide)]

theorem meshSample_congr (read read' : String → Option Bytes) (observedAt : Nat) (apMac : Bytes)
    (direction : Direction) (h : ∀ name ∈ detailNames, read name = read' name) :
    meshSample read observedAt apMac direction = meshSample read' observedAt apMac direction := by
  unfold meshSample
  rw [h "ap" (by decide), h "radio-type" (by decide), h "rssi" (by decide)]

section Loops

variable {text : Bytes} {rest : Bytes} (hboundary : AtBoundary rest)

/-- A tag among the pieces is read where it stands. -/
theorem Piece.Readable.tag {p : Piece} (h : p.Readable) {name : Bytes} (hname : name ∈ tagNames)
    {tag : StartTag} (htag : p.tag? name = some tag) :
    tag.Plain ∧ p.text = tag.text ++ p.chars := by
  rcases (p.tag?_eq_some_iff name tag).mp htag with ⟨hmarkup, heq, -⟩
  unfold Readable at h
  rw [hmarkup] at h
  refine ⟨h (heq ▸ hname), ?_⟩
  rw [Piece.text, hmarkup, StartTag.text_eq, List.cons_append]

omit hboundary in
/-- Where a tag stands, what is read off it and what is behind it. -/
theorem tag_at {p : Piece} (hp : p.Readable) {name : Bytes} (hname : name ∈ tagNames)
    {tag : StartTag} (htag : p.tag? name = some tag) (cursor : Nat) (chars : Bytes)
    (front back : List Piece)
    (hdrop : text.drop cursor = chars ++ (markupText (front ++ p :: back) ++ rest)) (pos : Nat)
    (hpos : pos = cursor + chars.length + (markupText front).length) :
    findFrom text (ascii ">") pos = some (pos + tag.front.length) ∧
      (∀ n ∈ detailNames, attr text pos (pos + tag.front.length) n = tag.read n) ∧
      text.drop (pos + tag.front.length + 1) = p.chars ++ (markupText back ++ rest) ∧
      cursor + chars.length + (markupText (front ++ p :: back)).length =
        pos + tag.front.length + 1 + p.chars.length + (markupText back).length := by
  rcases hp.tag hname htag with ⟨hplain, htext⟩
  have hsplit : tag.text = tag.front ++ [62] := by rw [StartTag.text, StartTag.front]
  rw [markupText_append, markupText_cons, htext] at hdrop
  have hat : text.drop pos = tag.text ++ (p.chars ++ (markupText back ++ rest)) := by
    rw [hpos, Nat.add_assoc, ← List.length_append]
    refine drop_behind text _ _ cursor ?_
    rw [hdrop]
    simp only [List.append_assoc]
  refine ⟨stop_tag hat hplain, fun n hn => attr_piece hat hplain n hn, drop_tag hat, ?_⟩
  rw [hpos, markupText_append, markupText_cons, htext, hsplit]
  simp only [List.length_append, List.length_singleton]
  omega

include hboundary

/-- A tag that no piece has is found behind the pieces only. -/
theorem behind_of_miss {name : Bytes} (hname : name ∈ tagNames) (cursor : Nat) (chars : Bytes)
    (hchars : 60 ∉ chars) (pieces : List Piece)
    (hdrop : text.drop cursor = chars ++ (markupText pieces ++ rest))
    (hnone : ∀ p ∈ pieces, p.tag? name = none) (hit : Nat)
    (hfound : findFrom text (60 :: (name ++ [32])) cursor = some hit) :
    cursor + chars.length + (markupText pieces).length ≤ hit := by
  have hm : 60 ∉ name ++ [32] := by
    rw [List.mem_append, List.mem_singleton]
    rintro (h | h)
    · exact (tagNames_valid name hname).not_mem 60 (by decide) h
    · exact absurd h (by decide)
  rw [findFrom_pieces text _ chars hm cursor pieces rest hchars hdrop hboundary fun p hp hb => by
    have hsome := (begins_tag_iff p name hname).mp hb
    rw [hnone p hp] at hsome
    exact absurd hsome (by decide), Option.map_eq_some_iff] at hfound
  rcases hfound with ⟨i, -, rfl⟩
  omega

omit hboundary in
/-- The first piece with a tag is found where it stands. -/
theorem found_at {name : Bytes} (hname : name ∈ tagNames) (cursor : Nat) (chars : Bytes)
    (hchars : 60 ∉ chars) (front back : List Piece) (p : Piece)
    (hdrop : text.drop cursor = chars ++ (markupText (front ++ p :: back) ++ rest))
    (hnone : ∀ q ∈ front, q.tag? name = none) {tag : StartTag} (htag : p.tag? name = some tag) :
    findFrom text (60 :: (name ++ [32])) cursor =
      some (cursor + chars.length + (markupText front).length) := by
  have hm : 60 ∉ name ++ [32] := by
    rw [List.mem_append, List.mem_singleton]
    rintro (h | h)
    · exact (tagNames_valid name hname).not_mem 60 (by decide) h
    · exact absurd h (by decide)
  refine findFrom_piece text _ chars hm cursor front p (markupText back ++ rest) hchars
    (by rw [hdrop, markupText_append, markupText_cons, List.append_assoc, List.append_assoc]) ?_ ?_
  · intro q hq hb
    have hsome := (begins_tag_iff q name hname).mp hb
    rw [hnone q hq] at hsome
    exact absurd hsome (by decide)
  · refine (begins_tag_iff p name hname).mpr ?_
    rw [htag]
    rfl

/-- The loop over the radios of a section. -/
theorem radioTags_pieces (observedAt : Nat) (apMac : Bytes) (fuel : Nat) :
    ∀ (cursor : Nat) (chars : Bytes) (inner : List Piece) (apEnd : Nat), inner.length < fuel →
      60 ∉ chars → text.drop cursor = chars ++ (markupText inner ++ rest) →
      apEnd = cursor + chars.length + (markupText inner).length → (∀ p ∈ inner, p.Readable) →
      (radioTags text apEnd fuel cursor).map
          (fun hit => radioOfTag text observedAt apMac hit.1 hit.2) =
        (inner.filterMap Piece.radio?).map fun tag => radioSample tag.read observedAt apMac := by
  induction fuel with
  | zero => exact fun _ _ _ _ hfuel => absurd hfuel (Nat.not_lt_zero _)
  | succ fuel ih =>
      intro cursor chars inner apEnd hfuel hchars hdrop hend hreadable
      have hopening : ascii "<radio " = 60 :: (ascii "radio" ++ [32]) := by decide
      have hname : ascii "radio" ∈ tagNames := by decide
      rw [radioTags, hopening]
      rcases exists_first Piece.radio? inner with hnone | ⟨front, p, back, tag, rfl, hnone, htag⟩
      · -- What the search may still find lies behind the section.
        rw [List.filterMap_eq_nil_iff.mpr hnone]
        cases hfound : findFrom text (60 :: (ascii "radio" ++ [32])) cursor with
        | none => rfl
        | some hit =>
            have hle := behind_of_miss hboundary hname cursor chars hchars inner hdrop hnone hit
              hfound
            simp only
            rw [if_pos (by omega)]
            rfl
      · have hfound := found_at hname cursor chars hchars front back p hdrop hnone htag
        generalize hpos : cursor + chars.length + (markupText front).length = pos at hfound
        rcases tag_at (hreadable p (List.mem_append_right _ List.mem_cons_self)) hname htag cursor
          chars front back hdrop pos hpos.symm with ⟨hstop, hread, hrest, hlength⟩
        rw [hfound]
        simp only
        rw [if_neg (by omega), hstop]
        simp only
        rw [if_neg (by omega), List.map_cons, List.filterMap_append,
          List.filterMap_eq_nil_iff.mpr hnone, List.nil_append,
          List.filterMap_cons_some (show p.radio? = some tag from htag), List.map_cons]
        have hsample : radioOfTag text observedAt apMac pos (pos + tag.front.length) =
            radioSample tag.read observedAt apMac :=
          radioSample_congr (attr text pos (pos + tag.front.length)) _ observedAt apMac hread
        rw [hsample, ih (pos + tag.front.length + 1) p.chars back apEnd
          (by simp only [List.length_append, List.length_cons] at hfuel; omega) p.chars_plain hrest
          (by rw [hend, hlength])
          fun q hq => hreadable q (List.mem_append_right _ (List.mem_cons_of_mem _ hq))]

/-- Nothing among the pieces is a link. -/
theorem nextMeshTag_none (cursor : Nat) (chars : Bytes) (hchars : 60 ∉ chars) (inner : List Piece)
    (hdrop : text.drop cursor = chars ++ (markupText inner ++ rest)) (apEnd : Nat)
    (hend : apEnd = cursor + chars.length + (markupText inner).length)
    (hnone : ∀ p ∈ inner, p.link? = none) :
    nextMeshTag text apEnd cursor = none := by
  have hup : ∀ hit, findFrom text (ascii "<uplink-ap ") cursor = some hit → apEnd ≤ hit := by
    intro hit hfound
    rw [hend]
    refine behind_of_miss hboundary (by decide : ascii "uplink-ap" ∈ tagNames) cursor chars hchars
      inner hdrop (fun p hp => ?_) hit hfound
    exact (link?_eq_none_iff p).mp (hnone p hp) |>.1
  have hdown : ∀ hit, findFrom text (ascii "<downlink-ap ") cursor = some hit → apEnd ≤ hit := by
    intro hit hfound
    rw [hend]
    refine behind_of_miss hboundary (by decide : ascii "downlink-ap" ∈ tagNames) cursor chars hchars
      inner hdrop (fun p hp => ?_) hit hfound
    exact (link?_eq_none_iff p).mp (hnone p hp) |>.2
  unfold nextMeshTag
  simp only
  cases hu : findFrom text (ascii "<uplink-ap ") cursor with
  | none =>
      cases hd : findFrom text (ascii "<downlink-ap ") cursor with
      | none => rfl
      | some down => exact if_neg (Nat.not_lt_of_le (hdown down hd))
  | some up =>
      have hle := hup up hu
      cases hd : findFrom text (ascii "<downlink-ap ") cursor with
      | none => exact if_neg (Nat.not_lt_of_le hle)
      | some down =>
          simp only
          rw [if_neg (fun h => Nat.not_lt_of_le hle h.1), if_neg (Nat.not_lt_of_le (hdown down hd))]

/-- The first link among the pieces, of either kind. -/
theorem nextMeshTag_some (cursor : Nat) (chars : Bytes) (hchars : 60 ∉ chars)
    (front back : List Piece) (p : Piece)
    (hdrop : text.drop cursor = chars ++ (markupText (front ++ p :: back) ++ rest)) (apEnd : Nat)
    (hend : apEnd = cursor + chars.length + (markupText (front ++ p :: back)).length)
    (hnone : ∀ q ∈ front, q.link? = none)
    {tag : StartTag} {direction : Direction} (hlink : p.link? = some (tag, direction)) :
    nextMeshTag text apEnd cursor =
      some (cursor + chars.length + (markupText front).length, direction) := by
  have hupnone : ∀ q ∈ front, q.tag? (ascii "uplink-ap") = none := fun q hq =>
    ((link?_eq_none_iff q).mp (hnone q hq)).1
  have hdownnone : ∀ q ∈ front, q.tag? (ascii "downlink-ap") = none := fun q hq =>
    ((link?_eq_none_iff q).mp (hnone q hq)).2
  -- What neither stands in front of the link nor is the link comes behind it.
  have hlater : ∀ name ∈ tagNames, (∀ q ∈ front, q.tag? name = none) → p.tag? name = none →
      ∀ hit, findFrom text (60 :: (name ++ [32])) cursor = some hit →
        cursor + chars.length + (markupText front).length < hit := by
    intro name hname hfront hp hit hfound
    have hdrop' : text.drop cursor =
        chars ++ (markupText (front ++ [p]) ++ (markupText back ++ rest)) := by
      rw [hdrop, ← List.append_assoc (markupText (front ++ [p])), ← markupText_append,
        List.append_assoc front, List.singleton_append]
    have hle := behind_of_miss (atBoundary_markupText back rest hboundary) hname cursor chars hchars
      (front ++ [p]) hdrop' (fun q hq => by
        rw [List.mem_append, List.mem_singleton] at hq
        rcases hq with hq | rfl
        · exact hfront q hq
        · exact hp) hit hfound
    rw [markupText_append, List.length_append, markupText_cons, List.length_append, Piece.text,
      List.length_cons] at hle
    omega
  have hlt : cursor + chars.length + (markupText front).length < apEnd := by
    rw [hend, markupText_append, List.length_append, markupText_cons, List.length_append, Piece.text,
      List.length_cons]
    omega
  unfold nextMeshTag
  simp only
  unfold Piece.link? at hlink
  cases hup : p.tag? (ascii "uplink-ap") with
  | some up =>
      rw [hup, Option.some.injEq, Prod.mk.injEq] at hlink
      have hfound := found_at (by decide) cursor chars hchars front back p hdrop hupnone hup
      rw [show ascii "<uplink-ap " = 60 :: (ascii "uplink-ap" ++ [32]) by decide, hfound, ← hlink.2]
      have hdown := hlater (ascii "downlink-ap") (by decide) hdownnone
        (p.tag?_other hup (by decide))
      cases hd : findFrom text (ascii "<downlink-ap ") cursor with
      | none => exact if_pos hlt
      | some down => exact if_pos ⟨hlt, hdown down hd⟩
  | none =>
      rw [hup, Option.map_eq_some_iff] at hlink
      rcases hlink with ⟨down, hdown, heq⟩
      rw [Prod.mk.injEq] at heq
      have hfound := found_at (by decide) cursor chars hchars front back p hdrop hdownnone hdown
      rw [show ascii "<downlink-ap " = 60 :: (ascii "downlink-ap" ++ [32]) by decide, hfound,
        ← heq.2]
      have hbehind := hlater (ascii "uplink-ap") (by decide) hupnone hup
      cases hu : findFrom text (ascii "<uplink-ap ") cursor with
      | none => exact if_pos hlt
      | some up =>
          have hgt := hbehind up hu
          simp only
          rw [if_neg (by omega), if_pos hlt]

/-- The loop over the links of a section. -/
theorem meshTags_pieces (observedAt : Nat) (apMac : Bytes) (fuel : Nat) :
    ∀ (cursor : Nat) (chars : Bytes) (inner : List Piece) (apEnd : Nat), inner.length < fuel →
      60 ∉ chars → text.drop cursor = chars ++ (markupText inner ++ rest) →
      apEnd = cursor + chars.length + (markupText inner).length → (∀ p ∈ inner, p.Readable) →
      (meshTags text apEnd fuel cursor).filterMap
          (fun hit => meshOfTag text observedAt apMac hit.1 hit.2.1 hit.2.2) =
        (inner.filterMap Piece.link?).filterMap fun link =>
          meshSample link.1.read observedAt apMac link.2 := by
  induction fuel with
  | zero => exact fun _ _ _ _ hfuel => absurd hfuel (Nat.not_lt_zero _)
  | succ fuel ih =>
      intro cursor chars inner apEnd hfuel hchars hdrop hend hreadable
      rw [meshTags]
      rcases exists_first Piece.link? inner with hnone | ⟨front, p, back, link, rfl, hnone, hlink⟩
      · rw [List.filterMap_eq_nil_iff.mpr hnone, nextMeshTag_none hboundary cursor chars hchars inner
          hdrop apEnd hend hnone]
        split
        · rfl
        · rfl
      · rcases link with ⟨tag, direction⟩
        have hnext := nextMeshTag_some hboundary cursor chars hchars front back p hdrop apEnd hend
          hnone hlink
        rcases tag?_of_link p tag direction hlink with ⟨name, hname, htag⟩
        generalize hpos : cursor + chars.length + (markupText front).length = pos at hnext
        rcases tag_at (hreadable p (List.mem_append_right _ List.mem_cons_self)) hname htag cursor
          chars front back hdrop pos hpos.symm with ⟨hstop, hread, hrest, hlength⟩
        rw [if_neg (by omega), hnext]
        simp only
        rw [hstop]
        simp only
        rw [if_neg (by omega), List.filterMap_append, List.filterMap_eq_nil_iff.mpr hnone,
          List.nil_append, List.filterMap_cons_some hlink, List.filterMap_cons, List.filterMap_cons]
        have hsample : meshOfTag text observedAt apMac pos (pos + tag.front.length) direction =
            meshSample tag.read observedAt apMac direction :=
          meshSample_congr (attr text pos (pos + tag.front.length)) _ observedAt apMac direction hread
        simp only [hsample]
        rw [ih (pos + tag.front.length + 1) p.chars back apEnd
          (by simp only [List.length_append, List.length_cons] at hfuel; omega) p.chars_plain hrest
          (by rw [hend, hlength])
          fun q hq => hreadable q (List.mem_append_right _ (List.mem_cons_of_mem _ hq))]

end Loops

/-! ### The sections -/

theorem pieceSections_none (pieces : List Piece) (h : ∀ p ∈ pieces, p.tag? (ascii "ap") = none) :
    pieceSections none pieces = [] := by
  induction pieces with
  | nil => rfl
  | cons p rest ih =>
      rw [pieceSections, h p List.mem_cons_self, Option.map_none]
      exact ih fun q hq => h q (List.mem_cons_of_mem _ hq)

theorem pieceSections_opening (front rest : List Piece) (p : Piece) (tag : StartTag)
    (h : ∀ q ∈ front, q.tag? (ascii "ap") = none) (htag : p.tag? (ascii "ap") = some tag) :
    pieceSections none (front ++ p :: rest) = pieceSections (some (tag, [])) rest := by
  induction front with
  | nil => rw [List.nil_append, pieceSections, htag, Option.map_some]
  | cons q front ih =>
      rw [List.cons_append, pieceSections, h q List.mem_cons_self, Option.map_none]
      exact ih fun r hr => h r (List.mem_cons_of_mem _ hr)

theorem pieceSections_unclosed (pieces inner : List Piece) (tag : StartTag)
    (h : ∀ p ∈ pieces, p.closes (ascii "ap") = false) :
    pieceSections (some (tag, inner)) pieces = [] := by
  induction pieces generalizing inner with
  | nil => rfl
  | cons p rest ih =>
      rw [pieceSections, h p List.mem_cons_self, if_neg (by decide)]
      exact ih _ fun q hq => h q (List.mem_cons_of_mem _ hq)

theorem pieceSections_closing (front rest inner : List Piece) (p : Piece) (tag : StartTag)
    (h : ∀ q ∈ front, q.closes (ascii "ap") = false) (hp : p.closes (ascii "ap") = true) :
    pieceSections (some (tag, inner)) (front ++ p :: rest) =
      (tag, inner ++ front) :: pieceSections none rest := by
  induction front generalizing inner with
  | nil => rw [List.nil_append, pieceSections, if_pos hp, List.append_nil]
  | cons q front ih =>
      rw [List.cons_append, pieceSections, h q List.mem_cons_self, if_neg (by decide),
        ih _ fun r hr => h r (List.mem_cons_of_mem _ hr), List.append_assoc, List.singleton_append]

theorem length_le_markupText (pieces : List Piece) : pieces.length ≤ (markupText pieces).length := by
  induction pieces with
  | nil => exact Nat.zero_le _
  | cons p rest ih =>
      rw [markupText_cons, List.length_append, Piece.text, List.length_cons, List.length_cons]
      omega

/-- An end tag of an access point that is found. -/
theorem text_of_closes (p : Piece) (h : p.closes (ascii "ap") = true) :
    p.text = ascii "</ap>" ++ p.chars := by
  unfold Piece.closes at h
  rw [Piece.text]
  cases hmarkup : p.markup with
  | opening tag => rw [hmarkup] at h; exact absurd h Bool.false_ne_true
  | misc first rest plain head => rw [hmarkup] at h; exact absurd h Bool.false_ne_true
  | closing name space name_valid space_valid =>
      rw [hmarkup] at h
      rcases of_decide_eq_true h with ⟨rfl, rfl⟩
      rfl

section Sections

variable {text : Bytes} {inner : List Piece} {pos : Nat} {chars rest : Bytes}

/-- The statements of a section are the samples of its pieces. -/
theorem sectionRows_pieces (tag : StartTag) (observedAt : Nat) (hboundary : AtBoundary rest)
    (hchars : 60 ∉ chars) (headEnd apEnd : Nat) (hmac : attr text pos headEnd "mac" = tag.read "mac")
    (hdrop : text.drop (headEnd + 1) = chars ++ (markupText inner ++ rest))
    (hend : apEnd = headEnd + 1 + chars.length + (markupText inner).length)
    (hreadable : ∀ p ∈ inner, p.Readable) :
    sectionRows text observedAt (pos, headEnd, apEnd) = sectionSamples observedAt (tag, inner) := by
  have hfuel : inner.length < text.length + 1 := by
    have hlength := congrArg List.length hdrop
    simp only [List.length_append, List.length_drop] at hlength
    have := length_le_markupText inner
    omega
  unfold sectionRows sectionSamples pieceSamples
  simp only [hmac]
  cases tag.read "mac" with
  | none => rfl
  | some apMac =>
      simp only
      split
      · rw [← radioTags_pieces hboundary observedAt apMac (text.length + 1) (headEnd + 1) chars inner
          apEnd hfuel hchars hdrop hend hreadable, ← meshTags_pieces hboundary observedAt apMac
          (text.length + 1) (headEnd + 1) chars inner apEnd hfuel hchars hdrop hend hreadable]
      · rfl

end Sections

/-- The loop over the sections of a listing. -/
theorem apSections_pieces (text : Bytes) (observedAt : Nat) (fuel : Nat) :
    ∀ (start : Nat) (chars : Bytes) (pieces : List Piece), pieces.length < fuel → 60 ∉ chars →
      text.drop start = chars ++ markupText pieces → (∀ p ∈ pieces, p.Readable) →
      (apSections text fuel start).flatMap (sectionRows text observedAt) =
        (pieceSections none pieces).flatMap (sectionSamples observedAt) := by
  have hnil : AtBoundary [] := fun c hc => absurd hc (by
    simp only [List.head?_nil, reduceCtorEq, not_false_eq_true])
  have hap : ascii "ap" ∈ tagNames := by decide
  have hclose : 60 ∉ 47 :: (ascii "ap" ++ [62]) := by decide
  induction fuel with
  | zero => exact fun _ _ _ hfuel => absurd hfuel (Nat.not_lt_zero _)
  | succ fuel ih =>
      intro start chars pieces hfuel hchars hdrop hreadable
      rw [apSections, show ascii "<ap " = 60 :: (ascii "ap" ++ [32]) by decide]
      have hdrop' : text.drop start = chars ++ (markupText pieces ++ []) := by
        rw [hdrop, List.append_nil]
      rcases exists_first (Piece.tag? (ascii "ap")) pieces with
        hnone | ⟨front, p, back, tag, rfl, hnone, htag⟩
      · have hmiss : ∀ p ∈ pieces, ¬ 60 :: (ascii "ap" ++ [32]) <+: p.text := fun p hp hb => by
          have hsome := (begins_tag_iff p _ hap).mp hb
          rw [hnone p hp] at hsome
          exact absurd hsome (by decide)
        rw [findFrom_pieces text _ chars (by decide) start pieces [] hchars hdrop' hnil hmiss,
          pieceSections_none pieces hnone]
        rfl
      · have hfound := found_at hap start chars hchars front back p hdrop' hnone htag
        generalize hpos : start + chars.length + (markupText front).length = pos at hfound
        rcases tag_at (hreadable p (List.mem_append_right _ List.mem_cons_self)) hap htag start
          chars front back hdrop' pos hpos.symm with ⟨hstop, hread, hrest, hlength⟩
        rw [hfound, pieceSections_opening front back p tag hnone htag]
        simp only
        rw [hstop]
        simp only
        rw [List.append_nil] at hrest
        -- The end tag is looked for from the head's `>` on.
        have hhead : text.drop (pos + tag.front.length) =
            (62 :: p.chars) ++ (markupText back ++ []) := by
          rcases ((findFrom_eq_some_iff text _ pos _ (by decide)).mp hstop).2.1 with ⟨tail, htail⟩
          have hbehind := drop_behind text (ascii ">") tail _ htail.symm
          rw [show (ascii ">").length = 1 by decide, hrest] at hbehind
          rw [← htail, ← hbehind, List.append_nil]
          rfl
        have hchars' : 60 ∉ 62 :: p.chars := fun h => by
          rcases List.mem_cons.mp h with h | h
          · exact absurd h (by decide)
          · exact p.chars_plain h
        have hback : ∀ q ∈ back, q.Readable := fun q hq =>
          hreadable q (List.mem_append_right _ (List.mem_cons_of_mem _ hq))
        rw [show ascii "</ap>" = 60 :: 47 :: (ascii "ap" ++ [62]) by decide]
        rcases exists_first (fun q : Piece => if q.closes (ascii "ap") then some () else none) back
          with hopen | ⟨inner, e, rest, _, rfl, hinner, hclosed⟩
        · have hopen' : ∀ q ∈ back, q.closes (ascii "ap") = false := fun q hq => by
            have h := hopen q hq
            simp only [ite_eq_right_iff, reduceCtorEq, imp_false, Bool.not_eq_true] at h
            exact h
          rw [findFrom_pieces text _ (62 :: p.chars) hclose _ back [] hchars' hhead hnil fun q hq hb => by
              have := (begins_end_iff q).mp hb
              rw [hopen' q hq] at this
              exact absurd this (by decide),
            pieceSections_unclosed back [] tag hopen']
          rfl
        · have hinner' : ∀ q ∈ inner, q.closes (ascii "ap") = false := fun q hq => by
            have h := hinner q hq
            simp only [ite_eq_right_iff, reduceCtorEq, imp_false, Bool.not_eq_true] at h
            exact h
          have hends : e.closes (ascii "ap") = true := by
            by_contra hnot
            rw [if_neg hnot] at hclosed
            exact absurd hclosed (by simp only [reduceCtorEq, not_false_eq_true])
          have htext := text_of_closes e hends
          rw [List.append_nil, markupText_append, markupText_cons] at hhead
          rw [markupText_append, markupText_cons] at hrest
          have hendAt := findFrom_piece text _ (62 :: p.chars) hclose _ inner e (markupText rest) hchars'
            hhead (fun q hq hb => by
              have := (begins_end_iff q).mp hb
              rw [hinner' q hq] at this
              exact absurd this (by decide)) ((begins_end_iff e).mpr hends)
          generalize hap' : pos + tag.front.length + (62 :: p.chars).length + (markupText inner).length
            = apEnd at hendAt
          rw [List.length_cons] at hap'
          rw [hendAt, pieceSections_closing inner rest [] e tag hinner' hends, List.nil_append]
          simp only [List.flatMap_cons]
          have hboundary : AtBoundary (e.text ++ markupText rest) := fun c hc =>
            (Option.some.inj hc).symm
          have hnext : text.drop (apEnd + 5) = e.chars ++ markupText rest := by
            have hall : text.drop (pos + tag.front.length + 1) =
                (p.chars ++ markupText inner ++ ascii "</ap>") ++ (e.chars ++ markupText rest) := by
              rw [hrest, htext]
              simp only [List.append_assoc]
            have h := drop_behind text _ _ _ hall
            rw [← h, List.length_append, List.length_append,
              show (ascii "</ap>").length = 5 by decide]
            congr 1
            omega
          rw [sectionRows_pieces tag observedAt hboundary p.chars_plain _ apEnd
            (hread "mac" (by decide)) hrest (by omega)
            fun q hq => hback q (List.mem_append_left _ hq),
            ih (apEnd + 5) e.chars rest (by
              simp only [List.length_append, List.length_cons] at hfuel
              omega) e.chars_plain hnext fun q hq =>
                hback q (List.mem_append_right _ (List.mem_cons_of_mem _ hq))]

/-- The samples of a listing are those of its sections. -/
theorem detailRows_pieces (head : Bytes) (pieces : List Piece) (observedAt : Nat) (hhead : 60 ∉ head)
    (hreadable : ∀ p ∈ pieces, p.Readable) :
    detailRows (head ++ markupText pieces) observedAt =
      (pieceSections none pieces).flatMap (sectionSamples observedAt) := by
  refine apSections_pieces _ observedAt _ 0 head pieces ?_ hhead rfl hreadable
  have := length_le_markupText pieces
  rw [List.length_append]
  omega

end Zd1200
