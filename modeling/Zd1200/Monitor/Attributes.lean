import Zd1200.Lib.Xml
import Zd1200.Monitor.Text

/-!
# Attributes of a Tag

What `attr` reads off a tag that is written as XML has it.

The function looks for a blank, the name, `="`, and takes what follows up to
the next quote. It knows nothing of quotes in front of the hit, and the tag's
end that it is given is the first `>`, which may stand in a value. So a value
can do two things. If it holds a `>`, the tag seems to end there. And if it
ends in a blank, the name and a `=`, the quote that closes it is taken for the
one that opens the attribute, and what comes back is the text between this
value and the next.

`readAttr` goes through the attributes and says which of the two comes first,
or that the attribute does. `Unobstructed` is then the condition under which the
value is read: nothing that comes up before the attribute gets in the way. The
condition mentions values of other attributes only, except that a value with a
`>` is not read itself.

## Main definitions

* `XmlAttribute.Spells`: An attribute as `attr` expects it to be written.
* `readAttr`: What `attr` finds, attribute by attribute.
* `Unobstructed`: Nothing gets in the way of an attribute.

## Theorems

* `attr_behind`: What cannot hold the attribute can be skipped.
* `attr_startTag`: What `attr` reads off a tag.
* `attr_value_iff`: When it reads the attribute's value.
-/

namespace Zd1200

/-- What `attr` looks for, up to the quote. -/
def attrNeedle (name : Bytes) : Bytes := 32 :: name ++ [61]

theorem ascii_append (a b : String) : ascii (a ++ b) = ascii a ++ ascii b := by
  rw [ascii, ascii, ascii, String.toList_append, List.map_append]

theorem ascii_needle (name : String) :
    ascii (" " ++ name ++ "=\"") = attrNeedle (ascii name) ++ [34] := by
  rw [ascii_append, ascii_append, attrNeedle, show ascii "=\"" = [61] ++ [34] by decide,
    show ascii " " = [32] by decide, ← List.append_assoc]
  rfl

/-- The attribute has this name, with a blank in front and no white space
    around its `=`. -/
def XmlAttribute.Spells (a : XmlAttribute) (name : Bytes) : Prop :=
  a.name = name ∧ a.beforeEq = [] ∧ a.afterEq = [] ∧ a.lead.getLast? = some 32

instance (a : XmlAttribute) (name : Bytes) : Decidable (a.Spells name) :=
  inferInstanceAs (Decidable (_ ∧ _ ∧ _ ∧ _))

/-- What `attr` finds in the attributes of a tag. -/
def readAttr (name : Bytes) : List XmlAttribute → Option Bytes
  | [] => none
  | a :: rest =>
      if a.Spells name then if 62 ∈ a.value then none else some a.value
      else if 62 ∈ a.value then none
      -- The quote that closes the value is taken for one that opens one.
      else if attrNeedle name <:+ a.value then rest.head?.map XmlAttribute.opening
      else readAttr name rest

/-- Nothing gets in the way of the attribute that has a name, whose value, if it
    is there, is `wanted`. -/
def Unobstructed (name : Bytes) (wanted : Option Bytes) : List XmlAttribute → Prop
  | [] => wanted = none
  | a :: rest =>
      if a.Spells name then 62 ∉ a.value
      else if 62 ∈ a.value then wanted = none
      else if attrNeedle name <:+ a.value then wanted = rest.head?.map XmlAttribute.opening
      else Unobstructed name wanted rest

instance decidableUnobstructed (name : Bytes) (wanted : Option Bytes) :
    (attributes : List XmlAttribute) → Decidable (Unobstructed name wanted attributes)
  | [] => inferInstanceAs (Decidable (wanted = none))
  | a :: rest =>
      have := decidableUnobstructed name wanted rest
      inferInstanceAs (Decidable (if a.Spells name then 62 ∉ a.value
        else if 62 ∈ a.value then wanted = none
        else if attrNeedle name <:+ a.value then wanted = rest.head?.map XmlAttribute.opening
        else Unobstructed name wanted rest))

/-! ### Searching a tag -/

theorem not_mem_attrNeedle {name : Bytes} (hname : IsXmlName name) (d : UInt8)
    (hd : isNameByte d = false) (hblank : d ≠ 32) (heq : d ≠ 61) : d ∉ attrNeedle name := by
  rw [attrNeedle, List.mem_append, List.mem_cons, List.mem_singleton]
  rintro ((h | h) | h)
  · exact hblank h
  · exact hname.not_mem d hd h
  · exact heq h

section Steps

variable {name : String} {s rest : Bytes}

/-- What is in front of the tag does not matter. -/
theorem attr_append (before text : Bytes) (tag stop : Nat) (name : String) :
    attr (before ++ text) (before.length + tag) (before.length + stop) name =
      attr text tag stop name := by
  unfold attr
  simp only
  rw [findFrom_append]
  cases findFrom text (ascii (" " ++ name ++ "=\"")) tag with
  | none => rfl
  | some hit =>
      simp only [Option.map_some, Nat.add_le_add_iff_left]
      by_cases hle : stop ≤ hit
      · rw [if_pos hle, if_pos hle]
      · rw [if_neg hle, if_neg hle, Nat.add_assoc, findFrom_append]
        cases findFrom text (ascii "\"") (hit + (ascii (" " ++ name ++ "=\"")).length) with
        | none => rfl
        | some quote =>
            simp only [Option.map_some, Nat.add_lt_add_iff_left]
            rw [← List.drop_drop, List.drop_left, Nat.add_sub_add_left]

/-- What the search cannot hit can be skipped. -/
theorem attr_behind (stop : Nat)
    (hskip : findIn (ascii (" " ++ name ++ "=\"")) (s ++ rest) =
      (findIn (ascii (" " ++ name ++ "=\"")) rest).map (s.length + ·)) (start : Nat)
    (hstart : start = s.length + stop) : attr (s ++ rest) 0 start name = attr rest 0 stop name := by
  have hsame : findFrom (s ++ rest) (ascii (" " ++ name ++ "=\"")) 0 =
      findFrom (s ++ rest) (ascii (" " ++ name ++ "=\"")) (s.length + 0) := by
    rw [findFrom_append, findFrom_zero, findFrom_zero, hskip]
  rw [← attr_append s rest 0 stop name, ← hstart]
  unfold attr
  simp only
  rw [hsame]

/-- A segment that ends in what is looked for: the next one is the value. -/
theorem attr_hit (hname : IsXmlName (ascii name)) (hs : 34 ∉ s)
    (hhit : attrNeedle (ascii name) <:+ s) (stop : Nat) :
    attr (s ++ 34 :: rest) 0 (s.length + 1 + stop) name =
      (findIn [34] rest).bind fun quote =>
        if stop < quote then none else some (rest.take quote) := by
  have hneedle := not_mem_attrNeedle hname 34 (by decide) (by decide) (by decide)
  have hle := hhit.length_le
  unfold attr
  simp only
  rw [findFrom_zero, ascii_needle, findIn_delimited _ _ _ _ hneedle hs, if_pos hhit]
  simp only
  rw [if_neg (by omega), List.length_append, List.length_singleton,
    show s.length - (attrNeedle (ascii name)).length + ((attrNeedle (ascii name)).length + 1)
      = (s ++ [34]).length + 0 by
        rw [List.length_append, List.length_singleton]
        omega,
    show s ++ 34 :: rest = (s ++ [34]) ++ rest by rw [List.append_assoc, List.singleton_append],
    findFrom_append, findFrom_zero, show ascii "\"" = [34] by decide]
  cases findIn [34] rest with
  | none => rfl
  | some quote =>
      simp only [Option.map_some, Option.bind_some, List.length_append, List.length_singleton,
        Nat.add_lt_add_iff_left, Nat.add_zero]
      rw [show s.length + 1 = (s ++ [34]).length by
        rw [List.length_append, List.length_singleton], List.drop_left, Nat.add_sub_cancel_left]

/-- No quote in front of the tag's end: there is no attribute. -/
theorem attr_none (hname : IsXmlName (ascii name)) (hs : 34 ∉ s) :
    attr (s ++ 62 :: rest) 0 s.length name = none := by
  have hneedle : 62 ∉ attrNeedle (ascii name) ++ [34] := by
    rw [List.mem_append, List.mem_singleton]
    rintro (h | h)
    · exact not_mem_attrNeedle hname 62 (by decide) (by decide) (by decide) h
    · exact absurd h (by decide)
  unfold attr
  simp only
  rw [ascii_needle]
  cases hfind : findFrom (s ++ 62 :: rest) (attrNeedle (ascii name) ++ [34]) 0 with
  | none => rfl
  | some hit =>
      have hocc := ((findFrom_eq_some_iff _ _ _ hit (by
        exact List.append_ne_nil_of_right_ne_nil _ (List.cons_ne_nil _ _))).mp hfind).2.1
      simp only
      refine if_pos (Nat.le_of_not_lt fun hlt => ?_)
      exact not_occurs_before _ s rest 34 62 hneedle hs hit hlt hocc

end Steps

/-! ### Reading a tag -/

/-- What stands in front of a value ends in what is looked for exactly if the
    attribute is spelled that way. -/
theorem needle_opening_iff (a : XmlAttribute) (name : Bytes) (hname : IsXmlName name) :
    attrNeedle name <:+ a.opening ↔ a.Spells name := by
  refine ⟨a.suffix_opening name hname, ?_⟩
  rintro ⟨hn, hbefore, hafter, hlead⟩
  rcases List.getLast?_eq_some_iff.mp hlead with ⟨front, hfront⟩
  refine ⟨front, ?_⟩
  rw [attrNeedle, XmlAttribute.opening, hfront, hn, hbefore, hafter]
  simp only [List.append_assoc, List.cons_append, List.nil_append]

section Tag

variable {name : String} (hname : IsXmlName (ascii name))

include hname

/-- A segment that does not end in what is looked for can be skipped. -/
theorem attr_skip (s rest : Bytes) (hs : 34 ∉ s) (hmiss : ¬ attrNeedle (ascii name) <:+ s)
    (stop : Nat) :
    attr (s ++ 34 :: rest) 0 (s.length + 1 + stop) name = attr rest 0 stop name := by
  have hlen : (s ++ [34]).length = s.length + 1 := by
    rw [List.length_append, List.length_singleton]
  have hsplit : s ++ 34 :: rest = (s ++ [34]) ++ rest := by
    rw [List.append_assoc, List.singleton_append]
  rw [hsplit]
  refine attr_behind stop ?_ _ (by rw [hlen])
  rw [← hsplit, ascii_needle, findIn_delimited _ _ _ _ (not_mem_attrNeedle hname 34 (by decide) (by decide) (by decide)) hs,
    if_neg hmiss, hlen]

omit hname in
/-- A first `>` that lies behind a segment. -/
theorem stop_behind (s rest : Bytes) (hs : 62 ∉ s) (stop : Nat)
    (hstop : findIn [62] (s ++ 34 :: rest) = some stop) :
    ∃ later, findIn [62] rest = some later ∧ stop = s.length + 1 + later := by
  have hfront : 62 ∉ s ++ [34] := by
    rw [List.mem_append, List.mem_singleton]
    rintro (h | h)
    · exact hs h
    · exact absurd h (by decide)
  rw [show s ++ 34 :: rest = (s ++ [34]) ++ rest by rw [List.append_assoc, List.singleton_append],
    findIn_behind _ _ _ _ hfront, Option.map_eq_some_iff] at hstop
  rcases hstop with ⟨later, hlater, hsum⟩
  rw [List.length_append, List.length_singleton] at hsum
  exact ⟨later, hlater, hsum.symm⟩

omit hname in
/-- The next value, as far as the tag goes. -/
theorem value_behind (v rest : Bytes) (hv : 34 ∉ v) (stop : Nat)
    (hstop : findIn [62] (v ++ 34 :: rest) = some stop) :
    ((findIn [34] (v ++ 34 :: rest)).bind fun quote =>
        if stop < quote then none else some ((v ++ 34 :: rest).take quote)) =
      if 62 ∈ v then none else some v := by
  rw [findIn_segment _ _ _ hv, Option.bind_some]
  by_cases hin : 62 ∈ v
  · -- The tag seems to end in the value.
    rcases List.eq_append_cons_of_mem hin with ⟨v₁, v₂, rfl, hfirst⟩
    rw [List.append_assoc, List.cons_append, findIn_segment _ _ _ hfirst, Option.some.injEq] at hstop
    rw [if_pos hin, if_pos]
    rw [List.length_append, List.length_cons]
    omega
  · rcases stop_behind v rest hin stop hstop with ⟨later, -, hsum⟩
    rw [if_neg hin, if_neg (by omega), List.take_left]

/-- What `attr` reads off the attributes of a tag and what is behind them. -/
theorem attr_attributes (attributes : List XmlAttribute) (finish after : Bytes) (hquote : 34 ∉ finish)
    (hclose : 62 ∉ finish) (stop : Nat)
    (hstop : findIn [62] (attributes.flatMap XmlAttribute.text ++ (finish ++ 62 :: after)) =
      some stop) :
    attr (attributes.flatMap XmlAttribute.text ++ (finish ++ 62 :: after)) 0 stop name =
      readAttr (ascii name) attributes := by
  induction attributes generalizing stop with
  | nil =>
      rw [List.flatMap_nil, List.nil_append, findIn_segment _ _ _ hclose, Option.some.injEq] at hstop
      rw [← hstop]
      exact attr_none hname hquote
  | cons a rest ih =>
      have hfree : ∀ b : XmlAttribute, 34 ∉ b.opening ∧ 62 ∉ b.opening := fun b =>
        ⟨b.not_mem_opening 34 (by decide) (by decide) (by decide),
          b.not_mem_opening 62 (by decide) (by decide) (by decide)⟩
      rw [List.flatMap_cons, XmlAttribute.text] at hstop ⊢
      simp only [List.append_assoc, List.cons_append, List.nil_append] at hstop ⊢
      generalize htail : rest.flatMap XmlAttribute.text ++ (finish ++ 62 :: after) = tail at hstop ⊢
      rcases stop_behind _ _ (hfree a).2 stop hstop with ⟨stop, hvalue, rfl⟩
      rw [readAttr]
      by_cases hspells : a.Spells (ascii name)
      · rw [if_pos hspells, attr_hit hname (hfree a).1
          ((needle_opening_iff a _ hname).mpr hspells)]
        exact value_behind a.value tail a.not_quote_value stop hvalue
      · rw [if_neg hspells, attr_skip hname _ _ (hfree a).1
          (mt (needle_opening_iff a _ hname).mp hspells)]
        by_cases hin : 62 ∈ a.value
        · rcases List.eq_append_cons_of_mem hin with ⟨v₁, v₂, heq, hfirst⟩
          have hquotes := a.not_quote_value
          rw [heq, List.mem_append] at hquotes
          rw [if_pos hin]
          rw [heq, List.append_assoc, List.cons_append] at hvalue ⊢
          rw [findIn_segment _ _ _ hfirst, Option.some.injEq] at hvalue
          rw [← hvalue]
          exact attr_none hname fun h => hquotes (Or.inl h)
        · rcases stop_behind _ _ hin stop hvalue with ⟨stop, hstop', rfl⟩
          rw [if_neg hin]
          by_cases hfooled : attrNeedle (ascii name) <:+ a.value
          · rw [if_pos hfooled, attr_hit hname a.not_quote_value hfooled, ← htail]
            rw [← htail] at hstop'
            cases rest with
            | nil =>
                -- Behind the last value there is no quote in the tag.
                rw [List.flatMap_nil, List.nil_append, findIn_segment _ _ _ hclose,
                  Option.some.injEq] at hstop'
                have hend : 34 ∉ finish ++ [62] := by
                  rw [List.mem_append, List.mem_singleton]
                  rintro (h | h)
                  · exact hquote h
                  · exact absurd h (by decide)
                rw [List.flatMap_nil, List.nil_append, List.head?_nil, Option.map_none,
                  show finish ++ 62 :: after = (finish ++ [62]) ++ after by
                    rw [List.append_assoc, List.singleton_append], findIn_behind _ _ _ _ hend]
                cases findIn [34] after with
                | none => rfl
                | some quote =>
                    rw [Option.map_some, Option.bind_some, if_pos]
                    rw [List.length_append, List.length_singleton]
                    omega
            | cons b rest =>
                rw [List.flatMap_cons, XmlAttribute.text] at hstop' ⊢
                simp only [List.append_assoc, List.cons_append, List.nil_append] at hstop' ⊢
                rw [value_behind b.opening _ (hfree b).1 stop hstop', if_neg (hfree b).2]
                rfl
          · rw [if_neg hfooled, attr_skip hname _ _ a.not_quote_value hfooled, ← htail]
            exact ih stop (htail ▸ hstop')

/-- What `attr` reads off a tag in a text. -/
theorem attr_startTag (before after : Bytes) (tag : StartTag) (stop : Nat)
    (hstop : findFrom (before ++ (tag.text ++ after)) (ascii ">") before.length = some stop) :
    attr (before ++ (tag.text ++ after)) before.length stop name =
      readAttr (ascii name) tag.attributes := by
  have hhead : ∀ d : UInt8, isNameByte d = false → d ≠ 60 → d ∉ 60 :: tag.name := by
    intro d hd hne hmem
    rcases List.mem_cons.mp hmem with heq | hmem
    · exact hne heq
    · exact tag.name_valid.not_mem d hd hmem
  have htext : tag.text ++ after = (60 :: tag.name) ++
      (tag.attributes.flatMap XmlAttribute.text ++ (tag.finish ++ 62 :: after)) := by
    rw [StartTag.text]
    simp only [List.append_assoc, List.cons_append, List.nil_append]
  have hzero := findFrom_append before (tag.text ++ after) (ascii ">") 0
  rw [Nat.add_zero] at hzero
  rw [hzero, findFrom_zero, Option.map_eq_some_iff] at hstop
  rcases hstop with ⟨inner, hinner, rfl⟩
  rw [htext, show ascii ">" = [62] by decide,
    findIn_behind _ _ _ _ (hhead 62 (by decide) (by decide)), Option.map_eq_some_iff] at hinner
  rcases hinner with ⟨stop, hstop, rfl⟩
  have hshift := attr_append before (tag.text ++ after) 0
    ((60 :: tag.name).length + stop) name
  rw [Nat.add_zero] at hshift
  rw [hshift, htext, attr_behind stop ?_ _ rfl]
  · exact attr_attributes hname _ _ _ (tag.not_mem_finish 34 (by decide) (by decide))
      (tag.not_mem_finish 62 (by decide) (by decide)) stop hstop
  · -- The element's name holds no blank.
    rw [ascii_needle, attrNeedle, List.cons_append, List.cons_append]
    exact findIn_behind _ _ _ _ (hhead 32 (by decide) (by decide))

end Tag

/-- The attributes of a client that `parse_client_view` reads. -/
def clientNames : List String :=
  ["mac", "ip", "hostname", "user", "ap", "ssid", "radio-type", "rssi", "received-signal-strength",
    "noise-floor"]

theorem clientNames_valid : ∀ name ∈ clientNames, IsXmlName (ascii name) := by decide

/-- Reading comes to what is wanted exactly if nothing gets in the way. -/
theorem readAttr_eq_iff (name : Bytes) (wanted : Option Bytes) (attributes : List XmlAttribute)
    (h : ∀ a ∈ attributes, a.name = name → wanted = some a.value) :
    readAttr name attributes = wanted ↔ Unobstructed name wanted attributes := by
  induction attributes with
  | nil => exact eq_comm
  | cons a rest ih =>
      rw [readAttr, Unobstructed]
      by_cases hspells : a.Spells name
      · rw [if_pos hspells, if_pos hspells, h a List.mem_cons_self hspells.1]
        by_cases hin : 62 ∈ a.value
        · rw [if_pos hin]
          exact ⟨fun heq => absurd heq (by simp only [reduceCtorEq, not_false_eq_true]),
            fun hnot => absurd hin hnot⟩
        · rw [if_neg hin]
          exact ⟨fun _ => hin, fun _ => rfl⟩
      · rw [if_neg hspells, if_neg hspells]
        by_cases hin : 62 ∈ a.value
        · rw [if_pos hin, if_pos hin]
          exact eq_comm
        · rw [if_neg hin, if_neg hin]
          by_cases hfooled : attrNeedle name <:+ a.value
          · rw [if_pos hfooled, if_pos hfooled]
            exact eq_comm
          · rw [if_neg hfooled, if_neg hfooled]
            exact ih fun b hb => h b (List.mem_cons_of_mem _ hb)

/-- `attr` reads the value of the attribute, or finds none where there is none,
    exactly if nothing gets in the way of it. -/
theorem attr_value_iff (before after : Bytes) (tag : StartTag) (stop : Nat)
    (hstop : findFrom (before ++ (tag.text ++ after)) (ascii ">") before.length = some stop)
    (name : String) (hname : name ∈ clientNames) :
    attr (before ++ (tag.text ++ after)) before.length stop name = tag.value (ascii name) ↔
      Unobstructed (ascii name) (tag.value (ascii name)) tag.attributes := by
  rw [attr_startTag (clientNames_valid name hname) before after tag stop hstop]
  refine readAttr_eq_iff _ _ _ fun a ha heq => ?_
  rw [← heq]
  exact tag.value_of_mem a ha

theorem isXmlName_mac : IsXmlName (ascii "mac") := by decide

theorem isXmlName_ap : IsXmlName (ascii "ap") := by decide

/-- A client's tag, with this host name in front of its address. -/
def clientTag (hostname : Bytes) (h : IsValueText hostname) : StartTag where
  name := ascii "client"
  attributes :=
    [⟨[32], ascii "hostname", [], [], hostname, blank_ne_nil, isSpaces_blank, by decide,
        isSpaces_nil, isSpaces_nil, h⟩,
      { lead := [32], name := ascii "mac", beforeEq := [], afterEq := []
        value := ascii "aa:bb:cc:dd:ee:ff", lead_ne := blank_ne_nil
        lead_space := isSpaces_blank, name_valid := isXmlName_mac
        beforeEq_space := isSpaces_nil, afterEq_space := isSpaces_nil }]
  space := []
  isEmpty := false
  space_valid := isSpaces_nil
  names_nodup := (by decide : [ascii "hostname", ascii "mac"].Nodup)

/-- An ordinary host name: the address is read. -/
theorem attr_value_ordinary :
    attr (clientTag (ascii "phone") (by decide)).text 0 48 "mac" =
      some (ascii "aa:bb:cc:dd:ee:ff") := by
  have h := (attr_value_iff [] [] (clientTag (ascii "phone") (by decide)) 48 (by decide +kernel)
    "mac" (by decide)).mpr (by decide +kernel)
  rw [List.append_nil, List.nil_append] at h
  exact h.trans (by decide +kernel)

/-- A host name that ends like an attribute, and one with a bracket. The first
    replaces the address, the second hides it. -/
theorem attr_value_disturbed :
    (clientTag (ascii "x mac=") (by decide)).value (ascii "mac") =
        some (ascii "aa:bb:cc:dd:ee:ff") ∧
      findFrom (clientTag (ascii "x mac=") (by decide)).text (ascii ">") 0 = some 49 ∧
      attr (clientTag (ascii "x mac=") (by decide)).text 0 49 "mac" = some (ascii " mac=") ∧
      (clientTag (ascii "x>") (by decide)).value (ascii "mac") =
        some (ascii "aa:bb:cc:dd:ee:ff") ∧
      findFrom (clientTag (ascii "x>") (by decide)).text (ascii ">") 0 = some 19 ∧
      attr (clientTag (ascii "x>") (by decide)).text 0 19 "mac" = none := by
  decide +kernel

end Zd1200
