import Mathlib.Data.List.TakeWhile
import Zd1200.Lib.Slice

/-!
# Texts of JSON Documents

A reader of JSON for bytes, and what a writer of JSON has to do for its text to
be read as it was meant.

The reader follows the grammar of JSON. A string is its bytes, with the escapes
resolved to UTF-8; bytes above the ASCII range are taken as they are. A number
is kept as its text. Values are nested, so the reader takes fuel, and a text is
never longer than the fuel that `readDocument` gives.

A writer does not have to be one function on values. `Reads text value` says
that a text is read as a value wherever it stands, and there is one rule for
each kind of value, so a program that puts texts together is followed piece by
piece.

## Main definitions

* `JsonValue`: The values.
* `readString`, `readNumber`, `readValue`, `readDocument`: The reader.
* `StringToken`: A text is one string token.
* `Reads`: A text is read as a value in front of any text.

## Theorems

* `Reads.string`, `Reads.number`, `Reads.ofTrue`, `Reads.ofFalse`, `Reads.array`,
  `Reads.object`: The rules.
* `readDocument_of_reads`: A text that is read as a value is a document.
-/

namespace Zd1200

/-- A value. Strings and numbers are bytes. -/
inductive JsonValue
  | null
  | bool (value : Bool)
  | number (text : Bytes)
  | string (text : Bytes)
  | array (items : List JsonValue)
  | object (members : List (Bytes × JsonValue))

/-! ### The reader -/

def isJsonBlank (c : UInt8) : Bool := c = 32 ∨ c = 9 ∨ c = 10 ∨ c = 13

def skipJsonBlanks (text : Bytes) : Bytes := text.dropWhile isJsonBlank

def isJsonDigit (c : UInt8) : Bool := 48 ≤ c ∧ c ≤ 57

def jsonHexValue (c : UInt8) : Option Nat :=
  if isJsonDigit c then some (c.toNat - 48)
  else if 97 ≤ c ∧ c ≤ 102 then some (c.toNat - 87)
  else if 65 ≤ c ∧ c ≤ 70 then some (c.toNat - 55)
  else none

/-- The unit of a `\\u` escape. -/
def jsonUnit (a b c d : UInt8) : Option Nat :=
  (jsonHexValue a).bind fun a => (jsonHexValue b).bind fun b =>
  (jsonHexValue c).bind fun c => (jsonHexValue d).map fun d =>
    a * 4096 + b * 256 + c * 16 + d

/-- The UTF-8 bytes of a code point. -/
def utf8Bytes (n : Nat) : Bytes :=
  if n < 0x80 then [n.toUInt8]
  else if n < 0x800 then [(0xc0 + n / 64).toUInt8, (0x80 + n % 64).toUInt8]
  else if n < 0x10000 then
    [(0xe0 + n / 4096).toUInt8, (0x80 + n / 64 % 64).toUInt8, (0x80 + n % 64).toUInt8]
  else
    [(0xf0 + n / 262144).toUInt8, (0x80 + n / 4096 % 64).toUInt8, (0x80 + n / 64 % 64).toUInt8,
      (0x80 + n % 64).toUInt8]

/-- The character of an escape of one letter. -/
def jsonEscape (c : UInt8) : Option UInt8 :=
  if c = 34 ∨ c = 92 ∨ c = 47 then some c
  else if c = 98 then some 8
  else if c = 102 then some 12
  else if c = 110 then some 10
  else if c = 114 then some 13
  else if c = 116 then some 9
  else none

/-- The pair of a high surrogate and the escape behind it. -/
def surrogatePair (high : Nat) (text : Bytes) : Option (Nat × Bytes) :=
  match text with
  | 92 :: 117 :: a :: b :: c :: d :: rest =>
      (jsonUnit a b c d).bind fun low =>
        if 0xd800 ≤ high ∧ high < 0xdc00 ∧ 0xdc00 ≤ low ∧ low < 0xe000 then
          some (0x10000 + (high - 0xd800) * 1024 + (low - 0xdc00), rest)
        else none
  | _ => none

/-- One character of a string behind a backslash, and the rest. -/
def readEscape (text : Bytes) : Option (Bytes × Bytes) :=
  match text with
  | 117 :: a :: b :: c :: d :: rest =>
      (jsonUnit a b c d).map fun unit =>
        match surrogatePair unit rest with
        | some (point, rest) => (utf8Bytes point, rest)
        | none => (utf8Bytes unit, rest)
  | c :: rest => (jsonEscape c).map fun b => ([b], rest)
  | [] => none

/-- A string behind its opening quote, and the rest. -/
def readString : Nat → Bytes → Option (Bytes × Bytes)
  | 0, _ => none
  | _, [] => none
  | fuel + 1, c :: text =>
      if c = 34 then some ([], text)
      else if c = 92 then
        (readEscape text).bind fun (bytes, text) =>
          (readString fuel text).map fun (s, rest) => (bytes ++ s, rest)
      else if c < 32 then none
      else (readString fuel text).map fun (s, rest) => (c :: s, rest)

/-- A fraction or an exponent: the digits behind what introduces them. -/
def readDigits (intro text : Bytes) : Option (Bytes × Bytes) :=
  if text.takeWhile isJsonDigit = [] then none
  else some (intro ++ text.takeWhile isJsonDigit, text.dropWhile isJsonDigit)

def readFraction (text : Bytes) : Option (Bytes × Bytes) :=
  match text with
  | 46 :: rest => readDigits [46] rest
  | _ => some ([], text)

def readExponent (text : Bytes) : Option (Bytes × Bytes) :=
  match text with
  | e :: rest =>
      if e = 101 ∨ e = 69 then
        match rest with
        | sign :: rest' =>
            if sign = 43 ∨ sign = 45 then readDigits [e, sign] rest' else readDigits [e] rest
        | [] => none
      else some ([], text)
  | [] => some ([], [])

/-- A number, with its text. -/
def readNumber (text : Bytes) : Option (JsonValue × Bytes) :=
  let sign := text.take (if text.head? = some 45 then 1 else 0)
  let text := text.drop sign.length
  let digits := text.takeWhile isJsonDigit
  if digits = [] ∨ (digits.head? = some 48 ∧ 1 < digits.length) then none
  else
    (readFraction (text.dropWhile isJsonDigit)).bind fun (fraction, text) =>
      (readExponent text).map fun (exponent, rest) =>
        (.number (sign ++ digits ++ fraction ++ exponent), rest)

/-- A literal name or a number. -/
def readAtom (text : Bytes) : Option (JsonValue × Bytes) :=
  if [116, 114, 117, 101].isPrefixOf text then some (.bool true, text.drop 4)
  else if [102, 97, 108, 115, 101].isPrefixOf text then some (.bool false, text.drop 5)
  else if [110, 117, 108, 108].isPrefixOf text then some (.null, text.drop 4)
  else readNumber text

mutual

/-- A value, and the rest. -/
def readValue : Nat → Bytes → Option (JsonValue × Bytes)
  | 0, _ => none
  | fuel + 1, text =>
      match skipJsonBlanks text with
      | [] => none
      | c :: rest =>
          if c = 34 then (readString fuel rest).map fun (s, rest) => (.string s, rest)
          else if c = 91 then
            if (skipJsonBlanks rest).head? = some 93 then
              some (.array [], (skipJsonBlanks rest).tail)
            else (readItems fuel rest).map fun (items, rest) => (.array items, rest)
          else if c = 123 then
            if (skipJsonBlanks rest).head? = some 125 then
              some (.object [], (skipJsonBlanks rest).tail)
            else (readMembers fuel rest).map fun (members, rest) => (.object members, rest)
          else readAtom (c :: rest)

/-- The items of an array up to its end. -/
def readItems : Nat → Bytes → Option (List JsonValue × Bytes)
  | 0, _ => none
  | fuel + 1, text =>
      (readValue fuel text).bind fun (item, rest) =>
        match skipJsonBlanks rest with
        | [] => none
        | c :: rest =>
            if c = 44 then (readItems fuel rest).map fun (items, rest) => (item :: items, rest)
            else if c = 93 then some ([item], rest)
            else none

/-- The members of an object up to its end. -/
def readMembers : Nat → Bytes → Option (List (Bytes × JsonValue) × Bytes)
  | 0, _ => none
  | fuel + 1, text =>
      match skipJsonBlanks text with
      | [] => none
      | quote :: rest =>
          if quote ≠ 34 then none
          else
            (readString fuel rest).bind fun (name, rest) =>
              match skipJsonBlanks rest with
              | [] => none
              | colon :: rest =>
                  if colon ≠ 58 then none
                  else
                    (readValue fuel rest).bind fun (value, rest) =>
                      match skipJsonBlanks rest with
                      | [] => none
                      | c :: rest =>
                          if c = 44 then
                            (readMembers fuel rest).map fun (members, rest) =>
                              ((name, value) :: members, rest)
                          else if c = 125 then some ([(name, value)], rest)
                          else none

end

/-- A whole text. -/
def readDocument (text : Bytes) : Option JsonValue :=
  (readValue (text.length + 1) text).bind fun (value, rest) =>
    if skipJsonBlanks rest = [] then some value else none

/-! ### Strings -/

/-- Text that is read as these bytes of a string. -/
def StringPiece (text bytes : Bytes) : Prop :=
  text ≠ [] ∧ ∀ fuel rest, readString (fuel + 1) (text ++ rest) =
    (readString fuel rest).map fun (s, rest) => (bytes ++ s, rest)

/-- One string token. -/
def StringToken (text s : Bytes) : Prop :=
  ∃ body, text = 34 :: body ∧
    ∀ fuel rest, body.length ≤ fuel → readString fuel (body ++ rest) = some (s, rest)

/-- A character that needs no escape. -/
theorem StringPiece.plain (c : UInt8) (hquote : c ≠ 34) (hback : c ≠ 92) (hcontrol : ¬ c < 32) :
    StringPiece [c] [c] :=
  ⟨List.cons_ne_nil _ _, fun fuel rest => by
    rw [List.singleton_append, readString, if_neg hquote, if_neg hback, if_neg hcontrol]
    rfl⟩

/-- An escape of one letter. -/
theorem StringPiece.letter (c b : UInt8) (hc : c ≠ 117) (h : jsonEscape c = some b) :
    StringPiece [92, c] [b] := by
  refine ⟨List.cons_ne_nil _ _, fun fuel rest => ?_⟩
  have hescape : readEscape (c :: rest) = some ([b], rest) := by
    unfold readEscape
    split
    · next heq => exact absurd (List.cons.inj heq).1 hc
    · next heq =>
      rw [← (List.cons.inj heq).1, ← (List.cons.inj heq).2, h]
      rfl
    · next heq => exact absurd heq (List.cons_ne_nil _ _)
  rw [List.cons_append, List.singleton_append, readString, if_neg (by decide), if_pos rfl, hescape]
  rfl

/-- An escape of a unit that is no surrogate. -/
theorem StringPiece.unit (a b c d : UInt8) (n : Nat) (h : jsonUnit a b c d = some n)
    (hn : n < 0xd800) : StringPiece [92, 117, a, b, c, d] (utf8Bytes n) := by
  refine ⟨List.cons_ne_nil _ _, fun fuel rest => ?_⟩
  have hpair : surrogatePair n rest = none := by
    unfold surrogatePair
    split
    · refine Option.bind_eq_none_iff.mpr fun low _ => if_neg fun hsurrogate => ?_
      omega
    · rfl
  have hescape : readEscape (117 :: a :: b :: c :: d :: rest) = some (utf8Bytes n, rest) := by
    rw [readEscape, h, Option.map_some, hpair]
  simp only [List.cons_append, List.nil_append]
  rw [readString, if_neg (by decide), if_pos rfl, hescape]
  rfl

/-- A string that is written character by character. -/
theorem StringToken.of_pieces (write : UInt8 → Bytes) (s : Bytes)
    (h : ∀ c ∈ s, StringPiece (write c) [c]) : StringToken (34 :: (s.flatMap write ++ [34])) s := by
  refine ⟨_, rfl, fun fuel rest hfuel => ?_⟩
  induction s generalizing fuel with
  | nil =>
      cases fuel with
      | zero => exact absurd hfuel (Nat.not_succ_le_zero _)
      | succ fuel => rfl
  | cons c s ih =>
      rcases h c List.mem_cons_self with ⟨hne, hread⟩
      have hpos := List.length_pos_iff.mpr hne
      rw [List.flatMap_cons, List.length_append, List.length_append] at hfuel
      cases fuel with
      | zero => omega
      | succ fuel =>
          rw [List.flatMap_cons, List.append_assoc, List.append_assoc, hread, ← List.append_assoc,
            ih (fun d hd => h d (List.mem_cons_of_mem c hd)) fuel
              (by rw [List.length_append]; omega)]
          rfl

/-! ### Values -/

/-- What may stand behind a number. -/
def EndsNumber (rest : Bytes) : Prop :=
  ∀ c ∈ rest.head?, isJsonDigit c = false ∧ c ≠ 46 ∧ c ≠ 101 ∧ c ≠ 69

/-- The text is read as the value, in front of any text that ends it. -/
structure Reads (text : Bytes) (value : JsonValue) : Prop where
  head : ∃ c rest, text = c :: rest ∧ isJsonBlank c = false ∧ c ≠ 93
  read : ∀ fuel rest, text.length ≤ fuel → EndsNumber rest →
    readValue fuel (text ++ rest) = some (value, rest)

theorem skipJsonBlanks_cons {c : UInt8} (rest : Bytes) (hc : isJsonBlank c = false) :
    skipJsonBlanks (c :: rest) = c :: rest := by
  rw [skipJsonBlanks, List.dropWhile_cons_of_neg (by rw [hc]; exact Bool.false_ne_true)]

theorem Reads.string {text s : Bytes} (h : StringToken text s) : Reads text (.string s) := by
  rcases h with ⟨body, rfl, hread⟩
  refine ⟨⟨34, body, rfl, by decide, by decide⟩, fun fuel rest hfuel _ => ?_⟩
  cases fuel with
  | zero => exact absurd hfuel (Nat.not_succ_le_zero _)
  | succ fuel =>
      rw [List.cons_append, readValue, skipJsonBlanks_cons _ (by decide)]
      simp only [if_true]
      rw [hread fuel rest (Nat.le_of_succ_le_succ hfuel)]
      rfl

/-- A value that starts like none of the others. -/
theorem Reads.atom {text : Bytes} {value : JsonValue}
    (hhead : ∃ c rest, text = c :: rest ∧
      isJsonBlank c = false ∧ c ≠ 93 ∧ c ≠ 34 ∧ c ≠ 91 ∧ c ≠ 123)
    (h : ∀ rest, EndsNumber rest → readAtom (text ++ rest) = some (value, rest)) :
    Reads text value := by
  rcases hhead with ⟨c, back, rfl, hblank, hclose, hquote, hbracket, hbrace⟩
  refine ⟨⟨c, back, rfl, hblank, hclose⟩, fun fuel rest hfuel hends => ?_⟩
  cases fuel with
  | zero => exact absurd hfuel (Nat.not_succ_le_zero _)
  | succ fuel =>
      rw [List.cons_append, readValue, skipJsonBlanks_cons _ hblank]
      simp only [if_neg hquote, if_neg hbracket, if_neg hbrace]
      exact h rest hends

theorem Reads.ofTrue : Reads [116, 114, 117, 101] (.bool true) :=
  Reads.atom ⟨116, [114, 117, 101], rfl, by decide⟩ fun rest _ => rfl

theorem Reads.ofFalse : Reads [102, 97, 108, 115, 101] (.bool false) :=
  Reads.atom ⟨102, [97, 108, 115, 101], rfl, by decide⟩ fun rest _ => rfl

theorem takeWhile_digits {digits rest : Bytes} (h : ∀ c ∈ digits, isJsonDigit c = true)
    (hrest : EndsNumber rest) :
    (digits ++ rest).takeWhile isJsonDigit = digits ∧
      (digits ++ rest).dropWhile isJsonDigit = rest := by
  have hstop : rest.takeWhile isJsonDigit = [] ∧ rest.dropWhile isJsonDigit = rest := by
    cases rest with
    | nil => exact ⟨rfl, rfl⟩
    | cons c rest =>
        have hc := (hrest c rfl).1
        exact ⟨List.takeWhile_cons_of_neg (by rw [hc]; exact Bool.false_ne_true),
          List.dropWhile_cons_of_neg (by rw [hc]; exact Bool.false_ne_true)⟩
  rw [List.takeWhile_append_of_pos h, List.dropWhile_append_of_pos h, hstop.1, hstop.2,
    List.append_nil]
  exact ⟨rfl, rfl⟩

theorem readFraction_ends {rest : Bytes} (hrest : EndsNumber rest) :
    readFraction rest = some ([], rest) ∧ readExponent rest = some ([], rest) := by
  cases rest with
  | nil => exact ⟨rfl, rfl⟩
  | cons c rest =>
      rcases hrest c rfl with ⟨-, hpoint, hlower, hupper⟩
      refine ⟨?_, ?_⟩
      · unfold readFraction
        split
        · next heq => exact absurd (List.cons.inj heq).1 hpoint
        · rfl
      · unfold readExponent
        simp only
        rw [if_neg (fun h => h.elim hlower hupper)]

/-- An integer: a sign, and digits without a zero in front. -/
theorem Reads.number (sign digits : Bytes) (hsign : sign = [] ∨ sign = [45]) (hne : digits ≠ [])
    (hdigits : ∀ c ∈ digits, isJsonDigit c = true)
    (hzero : digits.head? = some 48 → digits.length = 1) :
    Reads (sign ++ digits) (.number (sign ++ digits)) := by
  rcases digits with _ | ⟨d, digits⟩
  · exact absurd rfl hne
  have hd := hdigits d List.mem_cons_self
  have hnot : ∀ c : UInt8, isJsonDigit c = false → d ≠ c := fun c hc heq => by
    rw [← heq, hd] at hc
    exact Bool.false_ne_true hc.symm
  have hhead : ∃ c rest, sign ++ d :: digits = c :: rest ∧ isJsonBlank c = false ∧ c ≠ 93 ∧
      c ≠ 34 ∧ c ≠ 91 ∧ c ≠ 123 := by
    rcases hsign with rfl | rfl
    · refine ⟨d, digits, rfl, ?_, hnot 93 (by decide), hnot 34 (by decide), hnot 91 (by decide),
        hnot 123 (by decide)⟩
      exact decide_eq_false fun h => by
        rcases h with h | h | h | h
        · exact hnot 32 (by decide) h
        · exact hnot 9 (by decide) h
        · exact hnot 10 (by decide) h
        · exact hnot 13 (by decide) h
    · exact ⟨45, d :: digits, rfl, by decide⟩
  refine Reads.atom hhead fun rest hrest => ?_
  -- No literal starts with a digit or with a sign.
  have hliteral : ∀ c : UInt8, isJsonDigit c = false → c ≠ 45 → ∀ back,
      (c :: back).isPrefixOf (sign ++ d :: digits ++ rest) = false := by
    intro c hc hminus back
    rcases hsign with rfl | rfl
    · rw [List.nil_append, List.cons_append, List.isPrefixOf_cons_cons,
        show (c == d) = false from beq_false_of_ne fun h => hnot c hc h.symm, Bool.false_and]
    · rw [List.singleton_append, List.cons_append, List.isPrefixOf_cons_cons,
        show (c == (45 : UInt8)) = false from beq_false_of_ne hminus, Bool.false_and]
  unfold readAtom
  rw [hliteral 116 (by decide) (by decide), hliteral 102 (by decide) (by decide),
    hliteral 110 (by decide) (by decide)]
  simp only [Bool.false_eq_true, if_false]
  rcases takeWhile_digits hdigits hrest with ⟨htake, hdrop⟩
  rcases readFraction_ends hrest with ⟨hfraction, hexponent⟩
  have hcount : ¬ (d :: digits = [] ∨ ((d :: digits).head? = some 48 ∧ 1 < (d :: digits).length)) :=
    fun h => h.elim (List.cons_ne_nil _ _) fun h => by
      have := hzero h.1
      omega
  have hsplit : (sign ++ d :: digits ++ rest).take
      (if (sign ++ d :: digits ++ rest).head? = some 45 then 1 else 0) = sign := by
    rcases hsign with rfl | rfl
    · have hsome : ¬ (([] : Bytes) ++ d :: digits ++ rest).head? = some 45 := fun h =>
        hnot 45 (by decide) (Option.some.inj h)
      rw [if_neg hsome, List.take_zero]
    · rfl
  have hrestDigits : (sign ++ d :: digits ++ rest).drop sign.length = d :: digits ++ rest := by
    rw [List.append_assoc, List.drop_left]
  unfold readNumber
  simp only [hsplit, hrestDigits, htake, hdrop, if_neg hcount, hfraction, hexponent,
    Option.bind_some, Option.map_some, List.append_nil]

/-! ### Arrays and objects -/

/-- Texts with commas between them. -/
def commaSeparated : List Bytes → Bytes
  | [] => []
  | [text] => text
  | text :: next :: rest => text ++ 44 :: commaSeparated (next :: rest)

/-- A text with a value behind it stops a number. -/
theorem endsNumber_cons {c : UInt8} (rest : Bytes)
    (hc : isJsonDigit c = false ∧ c ≠ 46 ∧ c ≠ 101 ∧ c ≠ 69) : EndsNumber (c :: rest) := by
  intro d hd
  rw [← Option.some.inj hd]
  exact hc

/-- The items of an array up to the end of it. -/
theorem readItems_commaSeparated (items : List (Bytes × JsonValue)) (hne : items ≠ [])
    (h : ∀ item ∈ items, Reads item.1 item.2) (fuel : Nat) (rest : Bytes)
    (hfuel : (commaSeparated (items.map Prod.fst)).length + 1 ≤ fuel) :
    readItems fuel (commaSeparated (items.map Prod.fst) ++ 93 :: rest)
      = some (items.map Prod.snd, rest) := by
  induction items generalizing fuel with
  | nil => exact absurd rfl hne
  | cons item items ih =>
      have hitem := h item List.mem_cons_self
      rcases fuel with _ | fuel
      · exact absurd hfuel (Nat.not_succ_le_zero _)
      cases items with
      | nil =>
          rw [List.map_singleton, commaSeparated] at hfuel ⊢
          rw [readItems, hitem.read fuel _ (by omega) (endsNumber_cons rest (by decide))]
          rfl
      | cons next others =>
          rw [List.map_cons, List.map_cons, commaSeparated] at hfuel ⊢
          rw [List.length_append, List.length_cons] at hfuel
          rw [List.append_assoc, List.cons_append, readItems,
            hitem.read fuel _ (by omega) (endsNumber_cons _ (by decide))]
          simp only [Option.bind_some, skipJsonBlanks_cons (c := 44) _ (by decide), if_true]
          rw [← List.map_cons, ih (List.cons_ne_nil _ _)
            (fun other hother => h other (List.mem_cons_of_mem item hother)) fuel
            (by rw [List.map_cons]; omega)]
          rfl

/-- The first of some texts is in front. -/
theorem commaSeparated_cons (text : Bytes) (texts : List Bytes) :
    ∃ rest, commaSeparated (text :: texts) = text ++ rest := by
  cases texts with
  | nil => exact ⟨[], (List.append_nil text).symm⟩
  | cons next texts => exact ⟨_, rfl⟩

/-- An array of texts that are read as values. -/
theorem Reads.array (items : List (Bytes × JsonValue)) (h : ∀ item ∈ items, Reads item.1 item.2) :
    Reads (91 :: (commaSeparated (items.map Prod.fst) ++ [93])) (.array (items.map Prod.snd)) := by
  refine ⟨⟨91, _, rfl, by decide, by decide⟩, fun fuel rest hfuel _ => ?_⟩
  rcases fuel with _ | fuel
  · exact absurd hfuel (Nat.not_succ_le_zero _)
  rw [List.length_cons, List.length_append, List.length_singleton] at hfuel
  rw [List.cons_append, readValue, skipJsonBlanks_cons _ (by decide)]
  simp only [show ((91 : UInt8) = 34) = False from eq_false (by decide), if_false, if_true]
  rcases items with _ | ⟨item, items⟩
  · rfl
  · rcases h item List.mem_cons_self with ⟨⟨c, back, htext, hblank, hclose⟩, -⟩
    rcases commaSeparated_cons item.1 (items.map Prod.fst) with ⟨more, hmore⟩
    -- The first item is no closing bracket.
    have hstart : (skipJsonBlanks (commaSeparated ((item :: items).map Prod.fst) ++ [93] ++ rest)).head?
        ≠ some 93 := by
      rw [List.map_cons, hmore, htext, List.cons_append, List.cons_append, List.cons_append,
        skipJsonBlanks_cons _ hblank, List.head?_cons, ne_eq, Option.some.injEq]
      exact hclose
    rw [if_neg hstart, List.append_assoc, List.singleton_append,
      readItems_commaSeparated (item :: items) (List.cons_ne_nil _ _) h fuel rest (by omega)]
    rfl

/-- A member of an object, with the texts of its name and of its value. -/
structure MemberText where
  nameText : Bytes
  name : Bytes
  valueText : Bytes
  value : JsonValue
  isToken : StringToken nameText name
  reads : Reads valueText value

def MemberText.text (m : MemberText) : Bytes := m.nameText ++ 58 :: m.valueText

/-- The members of an object up to the end of it. -/
theorem readMembers_commaSeparated (members : List MemberText) (hne : members ≠ []) (fuel : Nat)
    (rest : Bytes) (hfuel : (commaSeparated (members.map MemberText.text)).length + 1 ≤ fuel) :
    readMembers fuel (commaSeparated (members.map MemberText.text) ++ 125 :: rest)
      = some (members.map fun m => (m.name, m.value), rest) := by
  induction members generalizing fuel with
  | nil => exact absurd rfl hne
  | cons m members ih =>
      rcases m.isToken with ⟨body, hname, hread⟩
      rcases fuel with _ | fuel
      · exact absurd hfuel (Nat.not_succ_le_zero _)
      cases members with
      | nil =>
          rw [List.map_singleton, commaSeparated, MemberText.text, hname] at hfuel ⊢
          rw [List.length_append, List.length_cons, List.length_cons] at hfuel
          rw [List.append_assoc, List.cons_append, List.cons_append, readMembers,
            skipJsonBlanks_cons _ (by decide)]
          simp only [ne_eq, not_true_eq_false, if_false]
          rw [hread fuel _ (by omega)]
          simp only [Option.bind_some, skipJsonBlanks_cons (c := 58) _ (by decide),
            not_true_eq_false, if_false]
          rw [m.reads.read fuel _ (by omega) (endsNumber_cons rest (by decide))]
          rfl
      | cons next others =>
          rw [List.map_cons, List.map_cons, commaSeparated, MemberText.text, hname] at hfuel ⊢
          rw [List.length_append, List.length_append, List.length_cons, List.length_cons,
            List.length_cons] at hfuel
          rw [List.append_assoc, List.append_assoc, List.cons_append, List.cons_append,
            List.cons_append, readMembers, skipJsonBlanks_cons _ (by decide)]
          simp only [ne_eq, not_true_eq_false, if_false]
          rw [hread fuel _ (by omega)]
          simp only [Option.bind_some, skipJsonBlanks_cons (c := 58) _ (by decide),
            not_true_eq_false, if_false]
          rw [m.reads.read fuel _ (by omega) (endsNumber_cons _ (by decide))]
          simp only [Option.bind_some, skipJsonBlanks_cons (c := 44) _ (by decide), if_true]
          rw [← List.map_cons, ih (List.cons_ne_nil _ _) fuel (by rw [List.map_cons]; omega)]
          rfl

/-- An object with these members. -/
theorem Reads.object (members : List MemberText) :
    Reads (123 :: (commaSeparated (members.map MemberText.text) ++ [125]))
      (.object (members.map fun m => (m.name, m.value))) := by
  refine ⟨⟨123, _, rfl, by decide, by decide⟩, fun fuel rest hfuel _ => ?_⟩
  rcases fuel with _ | fuel
  · exact absurd hfuel (Nat.not_succ_le_zero _)
  rw [List.length_cons, List.length_append, List.length_singleton] at hfuel
  rw [List.cons_append, readValue, skipJsonBlanks_cons _ (by decide)]
  simp only [show ((123 : UInt8) = 34) = False from eq_false (by decide),
    show ((123 : UInt8) = 91) = False from eq_false (by decide), if_false, if_true]
  rcases members with _ | ⟨m, members⟩
  · rfl
  · rcases m.isToken with ⟨body, hname, -⟩
    rcases commaSeparated_cons m.text (members.map MemberText.text) with ⟨more, hmore⟩
    -- The first member is no closing brace.
    have hstart : (skipJsonBlanks
        (commaSeparated ((m :: members).map MemberText.text) ++ [125] ++ rest)).head? ≠ some 125 := by
      rw [List.map_cons, hmore, MemberText.text, hname, List.cons_append, List.cons_append,
        List.cons_append, List.cons_append, skipJsonBlanks_cons _ (by decide), List.head?_cons]
      decide
    rw [if_neg hstart, List.append_assoc, List.singleton_append,
      readMembers_commaSeparated (m :: members) (List.cons_ne_nil _ _) fuel rest (by omega)]
    rfl

/-- A text that is read as a value is a document, with blanks behind it. -/
theorem readDocument_of_reads {text blanks : Bytes} {value : JsonValue} (h : Reads text value)
    (hblanks : ∀ c ∈ blanks, isJsonBlank c = true) :
    readDocument (text ++ blanks) = some value := by
  have hskip : skipJsonBlanks blanks = [] := List.dropWhile_eq_nil_iff.mpr hblanks
  have hends : EndsNumber blanks := by
    intro c hc
    have hblank := hblanks c (List.mem_of_mem_head? hc)
    rcases of_decide_eq_true hblank with rfl | rfl | rfl | rfl <;> decide
  rw [readDocument, h.read _ _ (by rw [List.length_append]; omega) hends]
  exact if_pos hskip

end Zd1200
