import Zd1200.Monitor.Text

/-!
# MAC Addresses

`parse_mac` of the exporter and `macAt` of the browser.

The exporter reads a stored text as six bytes and keeps the text's canonical
form, which is the text in lower case (`macText_parseMac`). The browser writes
the same form from the six bytes of the file and compares such texts. The
database orders the stored texts ignoring case, so all three agree on the
order of the MACs they can read.

## Main definitions

* `parseMac`: The six bytes of a MAC text.
* `macText`: The canonical text of some bytes.

## Theorems

* `macText_parseMac`: The canonical text is the text in lower case.
* `macText_injective`: The canonical text determines the bytes.
* `length_parseMac`: A MAC has six bytes.
-/

namespace Zd1200

/-- `hex_value`. -/
def hexValue (c : UInt8) : Option Nat :=
  if isDigit c then some (c.toNat - 48)
  else if 97 ≤ tolower c ∧ tolower c ≤ 102 then some ((tolower c).toNat - 97 + 10)
  else none

/-- Two hexadecimal digits as a byte. -/
def parseOctet (high low : UInt8) : Option UInt8 :=
  match hexValue high, hexValue low with
  | some h, some l => some (16 * h + l).toUInt8
  | _, _ => none

/-- Octets with colons between them. -/
def parseOctets : Bytes → Option Bytes
  | [high, low] => (parseOctet high low).map fun octet => [octet]
  | high :: low :: sep :: rest =>
      if sep = 58 then
        (parseOctet high low).bind fun octet => (parseOctets rest).map fun octets => octet :: octets
      else none
  | _ => none

/-- `parse_mac`: the six bytes of a text of seventeen characters. -/
def parseMac (text : Bytes) : Option Bytes :=
  if text.length = 17 then parseOctets text else none

/-- A digit of `%02x`. -/
def hexDigit (value : Nat) : UInt8 := if value < 10 then (48 + value).toUInt8 else (87 + value).toUInt8

/-- `%02x` of each byte, with colons between. -/
def macText : Bytes → Bytes
  | [] => []
  | [octet] => [hexDigit (octet.toNat / 16), hexDigit (octet.toNat % 16)]
  | octet :: next :: rest =>
      hexDigit (octet.toNat / 16) :: hexDigit (octet.toNat % 16) :: 58 :: macText (next :: rest)

/-- A digit's value is below sixteen and gives back the digit in lower case. -/
theorem hexDigit_hexValue (c : UInt8) (value : Nat) (h : hexValue c = some value) :
    value < 16 ∧ hexDigit value = tolower c := by
  have hall : ∀ i : Fin 256, ∀ v ∈ hexValue (UInt8.ofFin i),
      v < 16 ∧ hexDigit v = tolower (UInt8.ofFin i) := by decide +kernel
  exact hall c.toFin value h

theorem parseOctet_text (high low octet : UInt8) (h : parseOctet high low = some octet) :
    hexDigit (octet.toNat / 16) = tolower high ∧ hexDigit (octet.toNat % 16) = tolower low := by
  unfold parseOctet at h
  cases hhigh : hexValue high with
  | none => simp only [hhigh, reduceCtorEq] at h
  | some a =>
      cases hlow : hexValue low with
      | none => simp only [hhigh, hlow, reduceCtorEq] at h
      | some b =>
          simp only [hhigh, hlow, Option.some.injEq] at h
          rcases hexDigit_hexValue high a hhigh with ⟨ha, hta⟩
          rcases hexDigit_hexValue low b hlow with ⟨hb, htb⟩
          -- Two digits make a number below 256.
          have hnat : octet.toNat = 16 * a + b := by
            rw [← h]
            exact UInt8.toNat_ofNat_of_lt' (by change _ < 256; omega)
          rw [hnat, show (16 * a + b) / 16 = a by omega, show (16 * a + b) % 16 = b by omega]
          exact ⟨hta, htb⟩

/-- The octets of a text: a third of its length, and their text is the text in
    lower case. -/
theorem parseOctets_spec (text mac : Bytes) (h : parseOctets text = some mac) :
    text.length + 1 = 3 * mac.length ∧ macText mac = lowercase text := by
  induction text using parseOctets.induct generalizing mac with
  | case1 high low =>
      rw [parseOctets, Option.map_eq_some_iff] at h
      rcases h with ⟨octet, hoctet, rfl⟩
      rcases parseOctet_text high low octet hoctet with ⟨hhigh, hlow⟩
      exact ⟨rfl, by rw [macText, hhigh, hlow]; rfl⟩
  | case2 high low rest ih =>
      rw [parseOctets, if_pos rfl, Option.bind_eq_some_iff] at h
      · rcases h with ⟨octet, hoctet, hrest⟩
        rw [Option.map_eq_some_iff] at hrest
        rcases hrest with ⟨octets, hoctets, rfl⟩
        rcases ih octets hoctets with ⟨hlen, htext⟩
        rcases parseOctet_text high low octet hoctet with ⟨hhigh, hlow⟩
        refine ⟨by simp only [List.length_cons]; omega, ?_⟩
        cases octets with
        -- Behind a colon there is at least one more octet.
        | nil => simp only [List.length_nil] at hlen; omega
        | cons next more =>
            rw [macText, htext, hhigh, hlow]
            rfl
  | case3 high low sep rest hsep =>
      rw [parseOctets, if_neg hsep] at h
      exact absurd h (by simp only [reduceCtorEq, not_false_eq_true])
  | case4 text h2 h3 =>
      rw [parseOctets] at h
      · exact absurd h (by simp only [reduceCtorEq, not_false_eq_true])
      · exact h2
      · exact h3

/-- The canonical text is the text in lower case. -/
theorem macText_parseMac (text mac : Bytes) (h : parseMac text = some mac) :
    macText mac = lowercase text := by
  unfold parseMac at h
  by_cases hlen : text.length = 17
  · rw [if_pos hlen] at h
    exact (parseOctets_spec text mac h).2
  · rw [if_neg hlen] at h
    exact absurd h (by simp only [reduceCtorEq, not_false_eq_true])

/-- The two digits of a byte determine it. -/
theorem octet_of_hexDigits (a b : UInt8) (hhigh : hexDigit (a.toNat / 16) = hexDigit (b.toNat / 16))
    (hlow : hexDigit (a.toNat % 16) = hexDigit (b.toNat % 16)) : a = b := by
  have hinj : ∀ i j : Fin 16, hexDigit i = hexDigit j → i = j := by decide +kernel
  -- A byte is sixteen times its first digit and its second one.
  have ha : a.toNat < 256 := a.toNat_lt
  have hb : b.toNat < 256 := b.toNat_lt
  have h₁ := hinj ⟨a.toNat / 16, by omega⟩ ⟨b.toNat / 16, by omega⟩ hhigh
  have h₂ := hinj ⟨a.toNat % 16, by omega⟩ ⟨b.toNat % 16, by omega⟩ hlow
  rw [Fin.mk.injEq] at h₁ h₂
  exact UInt8.toNat_inj.mp (by omega)

/-- The canonical text determines the bytes. -/
theorem macText_injective (a b : Bytes) (h : macText a = macText b) : a = b := by
  induction a using macText.induct generalizing b with
  | case1 =>
      cases b with
      | nil => rfl
      | cons octet rest => cases rest <;> simp only [macText, reduceCtorEq] at h
  | case2 octet =>
      rcases b with - | ⟨o, - | ⟨n, rest⟩⟩
      · simp only [macText, reduceCtorEq] at h
      · simp only [macText, List.cons.injEq, and_true] at h
        rw [octet_of_hexDigits octet o h.1 h.2]
      · simp only [macText, List.cons.injEq, reduceCtorEq, and_false] at h
  | case3 octet next rest ih =>
      rcases b with - | ⟨o, - | ⟨n, more⟩⟩
      · simp only [macText, reduceCtorEq] at h
      · simp only [macText, List.cons.injEq, reduceCtorEq, and_false] at h
      · simp only [macText, List.cons.injEq, true_and] at h
        rw [octet_of_hexDigits octet o h.1 h.2.1, ih (n :: more) h.2.2]

theorem length_parseMac (text mac : Bytes) (h : parseMac text = some mac) : mac.length = 6 := by
  unfold parseMac at h
  by_cases hlen : text.length = 17
  · rw [if_pos hlen] at h
    have := (parseOctets_spec text mac h).1
    omega
  · rw [if_neg hlen] at h
    exact absurd h (by simp only [reduceCtorEq, not_false_eq_true])

end Zd1200
