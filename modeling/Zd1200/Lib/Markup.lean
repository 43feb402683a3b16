import Zd1200.Lib.Xml

/-!
# Pieces of Markup

An XML text cut at its `<`.

A `<` begins a tag, an end tag, a comment or the like, and stands nowhere else,
so a text is character data followed by pieces that each hold one piece of
markup and the character data behind it. A search for something that begins
with a `<` can only hit where a piece begins, which turns searches in the text
into searches in the list of pieces: `findIn_pieces` steps over the pieces that
do not begin that way.

What a piece begins with is what it is. `opens_iff` says that `<`, a name and a
character that no name holds begin a start tag of that name and nothing else,
and `closes_iff` says the same of end tags.

## Main definitions

* `Markup`: A start tag, an end tag, or something else.
* `Piece`: Markup with the character data behind it.
* `markupText`: The text of some pieces.

## Theorems

* `findIn_pieces`: A search steps over pieces.
* `findIn_piece`: A search ends at a piece.
* `findFrom_pieces`, `findFrom_piece`: The same for a search that starts in front
  of the pieces.
* `opens_iff`, `closes_iff`: What a piece begins with.
-/

namespace Zd1200

/-- A start tag, an end tag, or markup without a name: a comment, an
    instruction, a declaration. -/
inductive Markup
  | opening (tag : StartTag)
  | closing (name space : Bytes) (name_valid : IsXmlName name) (space_valid : IsSpaces space)
  | misc (first : UInt8) (rest : Bytes) (plain : 60 ∉ first :: rest)
      (head : isNameByte first = false ∧ first ≠ 47)

/-- What follows the `<`. -/
def Markup.body : Markup → Bytes
  | opening tag => tag.name ++ (tag.attributes.flatMap XmlAttribute.text ++ tag.finish ++ [62])
  | closing name space _ _ => 47 :: (name ++ (space ++ [62]))
  | misc first rest _ _ => first :: rest

theorem lt_not_mem_nil : (60 : UInt8) ∉ ([] : Bytes) := by decide

/-- Markup with the character data behind it. -/
structure Piece where
  markup : Markup
  chars : Bytes
  chars_plain : 60 ∉ chars := by decide

def Piece.text (p : Piece) : Bytes := 60 :: (p.markup.body ++ p.chars)

/-- The text of some pieces. -/
def markupText (pieces : List Piece) : Bytes := pieces.flatMap Piece.text

theorem markupText_append (front rest : List Piece) :
    markupText (front ++ rest) = markupText front ++ markupText rest := List.flatMap_append

theorem markupText_cons (p : Piece) (rest : List Piece) :
    markupText (p :: rest) = p.text ++ markupText rest := List.flatMap_cons

theorem StartTag.text_eq (tag : StartTag) : tag.text = 60 :: (Markup.opening tag).body := by
  rw [StartTag.text, Markup.body]
  simp only [List.append_assoc, List.cons_append]

/-- There is no `<` in an attribute. -/
theorem XmlAttribute.not_open_text (a : XmlAttribute) : 60 ∉ a.text := by
  rw [text, List.mem_append, List.mem_cons, List.mem_append, List.mem_singleton]
  rintro (h | h | h | h)
  · exact a.not_mem_opening 60 (by decide) (by decide) (by decide) h
  · exact absurd h (by decide)
  · exact (a.value_plain 60 h).2 rfl
  · exact absurd h (by decide)

/-- A piece has one `<`, with which it begins. -/
theorem Markup.not_open_body (m : Markup) : 60 ∉ m.body := by
  cases m with
  | opening tag =>
      rw [body, List.mem_append, List.mem_append, List.mem_append, List.mem_flatMap,
        List.mem_singleton]
      rintro (h | (⟨a, -, h⟩ | h) | h)
      · exact tag.name_valid.not_mem 60 (by decide) h
      · exact a.not_open_text h
      · exact tag.not_mem_finish 60 (by decide) (by decide) h
      · exact absurd h (by decide)
  | closing name space name_valid space_valid =>
      rw [body, List.mem_cons, List.mem_append, List.mem_append, List.mem_singleton]
      rintro (h | h | h | h)
      · exact absurd h (by decide)
      · exact name_valid.not_mem 60 (by decide) h
      · exact space_valid.not_mem 60 (by decide) h
      · exact absurd h (by decide)
  | misc first rest plain head => exact plain

theorem Piece.not_open_body (p : Piece) : 60 ∉ p.markup.body ++ p.chars := by
  rw [List.mem_append]
  rintro (h | h)
  · exact p.markup.not_open_body h
  · exact p.chars_plain h

/-! ### Searching -/

/-- What can stand behind a piece: the next one, or nothing. -/
def AtBoundary (rest : Bytes) : Prop := ∀ c, rest.head? = some c → c = 60

theorem atBoundary_markupText (pieces : List Piece) (rest : Bytes) (h : AtBoundary rest) :
    AtBoundary (markupText pieces ++ rest) := by
  cases pieces with
  | nil => exact h
  | cons p pieces =>
      intro c hc
      exact (Option.some.inj hc).symm

/-- A needle without a further `<` does not reach into the next piece. -/
theorem begins_iff (m : Bytes) (hm : 60 ∉ m) (p : Piece) (rest : Bytes) (h : AtBoundary rest) :
    60 :: m <+: p.text ++ rest ↔ 60 :: m <+: p.text := by
  refine ⟨fun hin => ?_, fun hin => hin.trans (List.prefix_append _ _)⟩
  rcases Nat.le_total (60 :: m).length p.text.length with hle | hle
  · exact List.prefix_of_prefix_length_le hin (List.prefix_append _ _) hle
  · -- The needle goes on with the first character behind the piece.
    have hfront := List.prefix_of_prefix_length_le (List.prefix_append _ _) hin hle
    rcases hfront with ⟨more, hmore⟩
    rw [← hmore, List.prefix_append_right_inj] at hin
    cases more with
    | nil => exact ⟨[], by rw [← hmore, List.append_nil, List.append_nil]⟩
    | cons c more =>
        refine absurd ?_ hm
        rcases hin with ⟨tail, rfl⟩
        rw [h c rfl, Piece.text, List.cons_append, List.cons.injEq] at hmore
        rw [← hmore.2]
        exact List.mem_append_right _ List.mem_cons_self

/-- A search steps over a piece that does not begin with the needle. -/
theorem findIn_skip_piece (m : Bytes) (hm : 60 ∉ m) (p : Piece) (rest : Bytes) (h : AtBoundary rest)
    (hmiss : ¬ 60 :: m <+: p.text) :
    findIn (60 :: m) (p.text ++ rest) = (findIn (60 :: m) rest).map (p.text.length + ·) := by
  have hhead : ¬ (60 :: m).isPrefixOf (60 :: (p.markup.body ++ p.chars ++ rest)) = true := fun hin =>
    hmiss ((begins_iff m hm p rest h).mp (List.isPrefixOf_iff_prefix.mp hin))
  rw [Piece.text, List.cons_append, findIn, if_neg hhead, findIn_behind _ _ _ _ p.not_open_body,
    Option.map_map]
  congr 1
  funext i
  simp only [Function.comp_apply, List.length_cons]
  omega

/-- A search steps over pieces that do not begin with the needle. -/
theorem findIn_pieces (m : Bytes) (hm : 60 ∉ m) (pieces : List Piece) (rest : Bytes)
    (h : AtBoundary rest) (hmiss : ∀ p ∈ pieces, ¬ 60 :: m <+: p.text) :
    findIn (60 :: m) (markupText pieces ++ rest) =
      (findIn (60 :: m) rest).map ((markupText pieces).length + ·) := by
  induction pieces with
  | nil =>
      rw [markupText, List.flatMap_nil, List.nil_append]
      simp only [List.length_nil, Nat.zero_add]
      exact Option.map_id'.symm ▸ rfl
  | cons p pieces ih =>
      rw [markupText_cons, List.append_assoc, findIn_skip_piece m hm p _
        (atBoundary_markupText pieces rest h) (hmiss p List.mem_cons_self),
        ih fun q hq => hmiss q (List.mem_cons_of_mem _ hq), Option.map_map]
      congr 1
      funext i
      simp only [Function.comp_apply, List.length_append]
      omega

/-- A search ends where a piece begins with the needle. -/
theorem findIn_piece (m : Bytes) (p : Piece) (rest : Bytes) (hhit : 60 :: m <+: p.text) :
    findIn (60 :: m) (p.text ++ rest) = some 0 := by
  have hin : (60 :: m).isPrefixOf (60 :: (p.markup.body ++ p.chars ++ rest)) = true :=
    List.isPrefixOf_iff_prefix.mpr (hhit.trans (List.prefix_append _ _))
  rw [Piece.text, List.cons_append, findIn, if_pos hin]

theorem drop_behind {α : Type} (text s rest : List α) (pos : Nat) (h : text.drop pos = s ++ rest) :
    text.drop (pos + s.length) = rest := by
  rw [← List.drop_drop, h, List.drop_left]

/-- A search that starts in character data and does not hit in the pieces. -/
theorem findFrom_pieces (text m chars : Bytes) (hm : 60 ∉ m) (pos : Nat) (pieces : List Piece)
    (rest : Bytes) (hchars : 60 ∉ chars)
    (hdrop : text.drop pos = chars ++ (markupText pieces ++ rest)) (h : AtBoundary rest)
    (hmiss : ∀ p ∈ pieces, ¬ 60 :: m <+: p.text) :
    findFrom text (60 :: m) pos =
      (findIn (60 :: m) rest).map (pos + chars.length + (markupText pieces).length + ·) := by
  rw [findFrom, hdrop, findIn_behind _ _ _ _ hchars, findIn_pieces m hm pieces rest h hmiss,
    Option.map_map, Option.map_map]
  congr 1
  funext i
  simp only [Function.comp_apply]
  omega

/-- A search that starts in character data and hits in the pieces. -/
theorem findFrom_piece (text m chars : Bytes) (hm : 60 ∉ m) (pos : Nat) (front : List Piece)
    (p : Piece) (rest : Bytes) (hchars : 60 ∉ chars)
    (hdrop : text.drop pos = chars ++ (markupText front ++ (p.text ++ rest)))
    (hmiss : ∀ q ∈ front, ¬ 60 :: m <+: q.text) (hhit : 60 :: m <+: p.text) :
    findFrom text (60 :: m) pos = some (pos + chars.length + (markupText front).length) := by
  have hboundary : AtBoundary (p.text ++ rest) := fun c hc => (Option.some.inj hc).symm
  rw [findFrom_pieces text m chars hm pos front _ hchars hdrop hboundary hmiss,
    findIn_piece m p rest hhit, Option.map_some, Nat.add_zero]

/-! ### What a piece begins with -/

/-- A name and a character that no name holds. -/
theorem name_prefix_iff (name other rest : Bytes) (d : UInt8) (hname : ∀ c ∈ name, isNameByte c = true)
    (hother : ∀ c ∈ other, isNameByte c = true) (hd : isNameByte d = false)
    (hrest : ∀ c, rest.head? = some c → isNameByte c = false) :
    name ++ [d] <+: other ++ rest ↔ other = name ∧ rest.head? = some d := by
  constructor
  · intro h
    induction name generalizing other with
    | nil =>
        cases other with
        | nil =>
            rcases h with ⟨tail, htail⟩
            rw [List.nil_append, List.nil_append, List.singleton_append] at htail
            exact ⟨rfl, by rw [← htail, List.head?_cons]⟩
        | cons c other =>
            rw [List.nil_append, List.cons_append, List.cons_prefix_cons] at h
            have hc := hother c List.mem_cons_self
            rw [← h.1, hd] at hc
            exact absurd hc (by decide)
    | cons b name ih =>
        have hb := hname b List.mem_cons_self
        cases other with
        | nil =>
            rcases h with ⟨tail, htail⟩
            rw [List.nil_append, List.cons_append, List.cons_append] at htail
            have hbyte := hrest b (by rw [← htail, List.head?_cons])
            rw [hb] at hbyte
            exact absurd hbyte (by decide)
        | cons c other =>
            rw [List.cons_append, List.cons_append, List.cons_prefix_cons] at h
            rcases ih other (fun d hd => hname d (List.mem_cons_of_mem _ hd))
              (fun d hd => hother d (List.mem_cons_of_mem _ hd)) h.2 with ⟨heq, hhead⟩
            exact ⟨by rw [heq, h.1], hhead⟩
  · rintro ⟨rfl, hhead⟩
    cases rest with
    | nil => exact absurd hhead (by simp only [List.head?_nil, reduceCtorEq, not_false_eq_true])
    | cons c rest =>
        rw [List.head?_cons, Option.some.injEq] at hhead
        rw [hhead]
        exact ⟨rest, by rw [List.append_assoc, List.singleton_append]⟩

/-- What stands behind the name of a start tag. -/
def StartTag.afterName (tag : StartTag) : Bytes :=
  tag.attributes.flatMap XmlAttribute.text ++ tag.finish ++ [62]

theorem StartTag.head_afterName (tag : StartTag) (rest : Bytes) (c : UInt8)
    (h : (tag.afterName ++ rest).head? = some c) : isNameByte c = false := by
  rw [afterName] at h
  cases hattributes : tag.attributes with
  | cons a attributes =>
      rw [hattributes, List.flatMap_cons, XmlAttribute.text, XmlAttribute.opening] at h
      cases hlead : a.lead with
      | nil => exact absurd hlead a.lead_ne
      | cons b lead =>
          rw [hlead] at h
          refine not_nameByte_of_space c (a.lead_space c ?_)
          rw [hlead, ← Option.some.inj h]
          exact List.mem_cons_self
  | nil =>
      rw [hattributes, List.flatMap_nil, List.nil_append, finish] at h
      cases hspace : tag.space with
      | cons b space =>
          rw [hspace] at h
          refine not_nameByte_of_space c (tag.space_valid c ?_)
          rw [hspace, ← Option.some.inj h]
          exact List.mem_cons_self
      | nil =>
          rw [hspace, List.nil_append] at h
          split at h
          · rw [← Option.some.inj h]
            decide
          · rw [← Option.some.inj h]
            decide

/-- `<`, a name and a character that no name holds begin a start tag of that
    name. -/
theorem opens_iff (name : Bytes) (hname : IsXmlName name) (d : UInt8) (hd : isNameByte d = false)
    (p : Piece) :
    60 :: (name ++ [d]) <+: p.text ↔
      ∃ tag, p.markup = .opening tag ∧ tag.name = name ∧
        (tag.afterName ++ p.chars).head? = some d := by
  rw [Piece.text, List.cons_prefix_cons, and_iff_right rfl]
  -- A name is not empty, so its first byte decides.
  have hfirst : ∀ rest : Bytes, ∀ c, (name ++ rest).head? = some c → isNameByte c = true := by
    intro rest c hc
    cases hn : name with
    | nil => exact absurd hn hname.1
    | cons b name =>
        rw [hn] at hc
        exact hname.2 c (by rw [hn, ← Option.some.inj hc]; exact List.mem_cons_self)
  cases hm : p.markup with
  | opening tag =>
      rw [Markup.body, List.append_assoc]
      refine (name_prefix_iff name tag.name (tag.afterName ++ p.chars) d hname.2 tag.name_valid.2 hd
        (tag.head_afterName p.chars)).trans ⟨fun h => ⟨tag, rfl, h⟩, ?_⟩
      rintro ⟨other, heq, h⟩
      rw [Markup.opening.injEq] at heq
      rw [heq]
      exact h
  | closing other space other_valid space_valid =>
      refine ⟨fun h => ?_, fun ⟨tag, heq, _⟩ => absurd heq (by
        simp only [reduceCtorEq, not_false_eq_true])⟩
      rcases h with ⟨rest, hrest⟩
      have hbyte := hfirst ([d] ++ rest) 47 (by rw [← List.append_assoc, hrest]; rfl)
      exact absurd hbyte (by decide)
  | misc first rest plain head =>
      refine ⟨fun h => ?_, fun ⟨tag, heq, _⟩ => absurd heq (by
        simp only [reduceCtorEq, not_false_eq_true])⟩
      rcases h with ⟨tail, htail⟩
      have hbyte := hfirst ([d] ++ tail) first (by rw [← List.append_assoc, htail]; rfl)
      rw [head.1] at hbyte
      exact absurd hbyte (by decide)

/-- `</`, a name and a character that no name holds begin an end tag of that
    name. -/
theorem closes_iff (name : Bytes) (hname : IsXmlName name) (d : UInt8) (hd : isNameByte d = false)
    (p : Piece) :
    60 :: 47 :: (name ++ [d]) <+: p.text ↔
      ∃ space name_valid space_valid, p.markup = .closing name space name_valid space_valid ∧
        (space ++ 62 :: p.chars).head? = some d := by
  rw [Piece.text, List.cons_prefix_cons, and_iff_right rfl]
  cases hm : p.markup with
  | opening tag =>
      refine ⟨fun h => ?_, fun ⟨_, _, _, heq, _⟩ => absurd heq (by
        simp only [reduceCtorEq, not_false_eq_true])⟩
      rw [Markup.body] at h
      cases htag : tag.name with
      | nil => exact absurd htag tag.name_valid.1
      | cons b rest =>
          rw [htag, List.cons_append, List.cons_append, List.cons_prefix_cons] at h
          have hbyte := tag.name_valid.2 b (by rw [htag]; exact List.mem_cons_self)
          rw [← h.1] at hbyte
          exact absurd hbyte (by decide)
  | closing other space other_valid space_valid =>
      have hhead : ∀ c, (space ++ 62 :: p.chars).head? = some c → isNameByte c = false := by
        intro c hc
        cases hspace : space with
        | nil =>
            rw [hspace] at hc
            rw [← Option.some.inj hc]
            decide
        | cons b rest =>
            rw [hspace] at hc
            refine not_nameByte_of_space c (space_valid c ?_)
            rw [hspace, ← Option.some.inj hc]
            exact List.mem_cons_self
      have hbody : (Markup.closing other space other_valid space_valid).body ++ p.chars =
          47 :: (other ++ (space ++ 62 :: p.chars)) := by
        rw [Markup.body]
        simp only [List.append_assoc, List.cons_append, List.nil_append]
      rw [hbody, List.cons_prefix_cons, and_iff_right rfl,
        name_prefix_iff name other _ d hname.2 other_valid.2 hd hhead]
      constructor
      · rintro ⟨rfl, h⟩
        exact ⟨space, other_valid, space_valid, rfl, h⟩
      · rintro ⟨space', _, _, heq, h⟩
        rw [Markup.closing.injEq] at heq
        rw [heq.1, heq.2]
        exact ⟨rfl, h⟩
  | misc first rest plain head =>
      refine ⟨fun h => ?_, fun ⟨_, _, _, heq, _⟩ => absurd heq (by
        simp only [reduceCtorEq, not_false_eq_true])⟩
      rw [Markup.body, List.cons_append, List.cons_prefix_cons] at h
      exact absurd h.1.symm head.2

end Zd1200
