import Mathlib.Data.Nat.Digits.Lemmas
import Zd1200.Export.CaseInsensitive
import Zd1200.Lib.JsonText
import Zd1200.Snapshot.Bundle

/-!
# JSON of the Exporter

The two JSON documents that `zd1200-ping-export` writes: the listing of the
targets and the manifest of the daily files.

Both are put together by hand, and only `json` stands between a text that a
client has chosen and the document. It escapes what a string must not hold, so
that what it writes is one string token wherever it stands. The documents then
have the structure that the program meant, whatever the texts are.

## Main definitions

* `json`: A text as a string token.
* `targetsText`, `manifestText`: The two documents.
* `targetsDocument`, `manifestDocument`: What they are meant to be.

## Theorems

* `stringToken_json`: What `json` writes is read as the text.
* `reads_intText`: Numbers.
* `json_faithful`: The documents are read as they are meant.
* `targetsDocument_db`: The listing of a database.
-/

namespace Zd1200

/-! ### The writers -/

/-- What `json` writes for a byte. -/
def jsonByte (c : UInt8) : Bytes :=
  if c = 34 then [92, 34]
  else if c = 92 then [92, 92]
  else if c = 10 then [92, 110]
  else if c = 13 then [92, 114]
  else if c = 9 then [92, 116]
  else if c < 0x20 then
    -- `%04x`; such a byte has two digits.
    [92, 117, 48, 48, hexDigit (c.toNat / 16), hexDigit (c.toNat % 16)]
  else [c]

/-- `json`, which writes a null pointer as an empty text. -/
def json (s : Option Bytes) : Bytes := 34 :: ((cText (s.getD [])).flatMap jsonByte ++ [34])

/-- `%lld`. -/
def intText (n : Int) : Bytes :=
  (if n < 0 then [45] else []) ++ decimalText n.natAbs

/-- The constant `FORMAT_VERSION`. -/
def formatVersion : Nat := 2

/-- A row of the query of `targets_json`. A null text has no value. -/
structure TargetColumns where
  kind : Option Bytes
  ip : Option Bytes
  clientMac : Option Bytes
  apId : Option Bytes
  name : Option Bytes
  enabled : Int
  currentAp : Option Bytes
  currentSsid : Option Bytes
  currentRadio : Option Bytes

/-- The column that identifies a target. -/
def TargetColumns.identity (t : TargetColumns) : Option Bytes :=
  if t.kind.map cText = some (ascii "client") then t.clientMac else t.apId

/-- The MAC of a target, if it has one. -/
def TargetColumns.mac (t : TargetColumns) : Option Bytes :=
  t.identity.bind fun text => parseMac (cText text)

/-- The entry of a target with a MAC. -/
def targetEntry (t : TargetColumns) (mac : Bytes) : Bytes :=
  ascii "\x7b\"mac\":" ++ (json (some (macText mac)) ++ (ascii ",\"kind\":" ++ (json t.kind ++
  (ascii ",\"ip\":" ++ (json t.ip ++ (ascii ",\"ap_id\":" ++ (json t.apId ++
  (ascii ",\"name\":" ++ (json t.name ++
  (ascii ",\"enabled\":" ++ ((if t.enabled ≠ 0 then ascii "true" else ascii "false") ++
  (ascii ",\"upstream_ap\":" ++ (json t.currentAp ++ (ascii ",\"ssid\":" ++ (json t.currentSsid ++
  (ascii ",\"radio\":" ++ (json t.currentRadio ++ ascii "\x7d")))))))))))))))))

/-- `targets_json`. A target without a MAC has no entry. -/
def targetsText (now : Int) (rows : List TargetColumns) : Bytes :=
  ascii "\x7b\"status\":\"ok\",\"format_version\":" ++ (decimalText formatVersion ++
  (ascii ",\"generated_at\":" ++ (intText now ++ (ascii ",\"targets\":[" ++
  (commaSeparated (rows.filterMap fun t => t.mac.map (targetEntry t)) ++ ascii "]\x7d\n")))))

/-- A daily file, as the directory has it. -/
structure PeriodFile where
  start : Nat
  bytes : Int
  revision : Int
  name : Bytes

/-- The entry of a completed day, with its end. -/
def periodEntryTo (p : PeriodFile) (stop : Nat) : Bytes :=
  ascii "\x7b\"start\":" ++ (decimalText p.start ++ (ascii ",\"end\":" ++
  (decimalText stop ++ (ascii ",\"file\":" ++ (json (some p.name) ++
  (ascii ",\"bytes\":" ++ (intText p.bytes ++ (ascii ",\"revision\":" ++ (intText p.revision ++
  (ascii ",\"immutable\":" ++ (ascii "true" ++ ascii "\x7d")))))))))))

def periodEntry (p : PeriodFile) : Bytes := periodEntryTo p (p.start + 86400)

/-- The entry of the current day: its start, and the size of its file. -/
def currentEntryTo (current : Nat × Int) (stop : Nat) : Bytes :=
  ascii "\x7b\"start\":" ++ (decimalText current.1 ++ (ascii ",\"end\":" ++
  (decimalText stop ++
  (ascii ",\"file\":" ++ (ascii "\"ping-current.bin.gz\"" ++
  (ascii ",\"bytes\":" ++ (intText current.2 ++
  (ascii ",\"immutable\":" ++ (ascii "false" ++ ascii "\x7d")))))))))

def currentEntry (current : Nat × Int) : Bytes := currentEntryTo current (current.1 + 86400)

/-- What `daily_manifest` writes for the files it has found. -/
def manifestText (now : Int) (periods : List PeriodFile) (current : Option (Nat × Int)) : Bytes :=
  ascii "\x7b\"status\":\"ok\",\"format_version\":" ++ (decimalText formatVersion ++
  (ascii ",\"generated_at\":" ++ (intText now ++ (ascii ",\"periods\":[" ++
  (commaSeparated (periods.map periodEntry ++ current.toList.map currentEntry) ++
    ascii "]\x7d\n")))))

/-! ### What the documents are meant to be -/

/-- A text of the database. -/
def textValue (s : Option Bytes) : JsonValue := .string (cText (s.getD []))

def targetValue (t : TargetColumns) (mac : Bytes) : JsonValue :=
  .object
    [(ascii "mac", .string (macText mac)), (ascii "kind", textValue t.kind),
      (ascii "ip", textValue t.ip), (ascii "ap_id", textValue t.apId),
      (ascii "name", textValue t.name), (ascii "enabled", .bool (t.enabled ≠ 0)),
      (ascii "upstream_ap", textValue t.currentAp), (ascii "ssid", textValue t.currentSsid),
      (ascii "radio", textValue t.currentRadio)]

/-- A document with a list. -/
def listDocument (now : Int) (name : String) (items : List JsonValue) : JsonValue :=
  .object
    [(ascii "status", .string (ascii "ok")),
      (ascii "format_version", .number (decimalText formatVersion)),
      (ascii "generated_at", .number (intText now)), (ascii name, .array items)]

def targetsDocument (now : Int) (rows : List TargetColumns) : JsonValue :=
  listDocument now "targets" (rows.filterMap fun t => t.mac.map (targetValue t))

def periodValueTo (p : PeriodFile) (stop : Nat) : JsonValue :=
  .object
    [(ascii "start", .number (decimalText p.start)),
      (ascii "end", .number (decimalText stop)), (ascii "file", textValue (some p.name)),
      (ascii "bytes", .number (intText p.bytes)), (ascii "revision", .number (intText p.revision)),
      (ascii "immutable", .bool true)]

def periodValue (p : PeriodFile) : JsonValue := periodValueTo p (p.start + 86400)

def currentValueTo (current : Nat × Int) (stop : Nat) : JsonValue :=
  .object
    [(ascii "start", .number (decimalText current.1)), (ascii "end", .number (decimalText stop)),
      (ascii "file", .string (ascii "ping-current.bin.gz")),
      (ascii "bytes", .number (intText current.2)), (ascii "immutable", .bool false)]

def currentValue (current : Nat × Int) : JsonValue := currentValueTo current (current.1 + 86400)

def manifestDocument (now : Int) (periods : List PeriodFile) (current : Option (Nat × Int)) :
    JsonValue :=
  listDocument now "periods" (periods.map periodValue ++ current.toList.map currentValue)

/-! ### Strings and numbers -/

/-- Every byte is read back. -/
theorem stringPiece_jsonByte (c : UInt8) : StringPiece (jsonByte c) [c] := by
  unfold jsonByte
  split
  · next hc => exact hc ▸ StringPiece.letter 34 34 (by decide) rfl
  · next hquote =>
    split
    · next hc => exact hc ▸ StringPiece.letter 92 92 (by decide) rfl
    · next hback =>
      split
      · next hc => exact hc ▸ StringPiece.letter 110 10 (by decide) rfl
      · split
        · next hc => exact hc ▸ StringPiece.letter 114 13 (by decide) rfl
        · split
          · next hc => exact hc ▸ StringPiece.letter 116 9 (by decide) rfl
          · split
            · next hcontrol =>
              have hall : ∀ i : Fin 32, jsonUnit 48 48 (hexDigit ((UInt8.ofNat i).toNat / 16))
                  (hexDigit ((UInt8.ofNat i).toNat % 16)) = some i.val ∧
                    utf8Bytes i.val = [UInt8.ofNat i] := by decide
              have hlt : c.toNat < 32 := UInt8.lt_iff_toNat_lt.mp hcontrol
              rcases hall ⟨c.toNat, hlt⟩ with ⟨hunit, hbytes⟩
              rw [UInt8.ofNat_toNat] at hunit hbytes
              have h := StringPiece.unit _ _ _ _ c.toNat hunit (by omega)
              rwa [hbytes] at h
            · next hcontrol => exact StringPiece.plain c hquote hback hcontrol

/-- What `json` writes is one token, and is read as the text. -/
theorem stringToken_json (s : Option Bytes) : StringToken (json s) (cText (s.getD [])) :=
  StringToken.of_pieces jsonByte _ fun c _ => stringPiece_jsonByte c

/-- No character of a name needs an escape. -/
def isPlainName (name : Bytes) : Bool := name.all fun c => c ≠ 34 ∧ c ≠ 92 ∧ ¬ c < 32

theorem stringToken_name (name : Bytes) (h : isPlainName name = true) :
    StringToken (34 :: (name ++ [34])) name := by
  have htoken := StringToken.of_pieces (fun c => [c]) name fun c hc => by
    rcases of_decide_eq_true (List.all_eq_true.mp h c hc) with ⟨hquote, hback, hcontrol⟩
    exact StringPiece.plain c hquote hback hcontrol
  rwa [List.flatMap_singleton'] at htoken

theorem decimalText_ne_nil (n : Nat) : decimalText n ≠ [] := by
  unfold decimalText
  split
  · exact List.cons_ne_nil _ _
  · next hn =>
    rw [ne_eq, List.reverse_eq_nil_iff, List.map_eq_nil_iff]
    exact Nat.digits_ne_nil_iff_ne_zero.mpr hn

/-- Only zero starts with a zero. -/
theorem length_decimalText_of_head (n : Nat) (h : (decimalText n).head? = some 48) :
    (decimalText n).length = 1 := by
  unfold decimalText at h ⊢
  split at h
  · next hn => rw [if_pos hn, List.length_singleton]
  · next hn =>
    have hne : Nat.digits 10 n ≠ [] := Nat.digits_ne_nil_iff_ne_zero.mpr hn
    have hlt : (Nat.digits 10 n).getLast hne < 10 :=
      Nat.digits_lt_base (by decide) (List.getLast_mem hne)
    rw [List.head?_reverse, List.getLast?_map, List.getLast?_eq_getLast_of_ne_nil hne,
      Option.map_some, Option.some.injEq] at h
    have hdigit := congrArg UInt8.toNat h
    rw [toNat_digit _ hlt, show (48 : UInt8).toNat = 48 from rfl] at hdigit
    exact absurd (Nat.getLast_digit_ne_zero 10 hn) (by
      rw [not_not]
      omega)

theorem reads_decimalText (n : Nat) : Reads (decimalText n) (.number (decimalText n)) :=
  Reads.number [] (decimalText n) (Or.inl rfl) (decimalText_ne_nil n) (isDigit_decimalText n)
    (length_decimalText_of_head n)

theorem reads_intText (n : Int) : Reads (intText n) (.number (intText n)) := by
  refine Reads.number _ (decimalText n.natAbs) ?_ (decimalText_ne_nil _) (isDigit_decimalText _)
    (length_decimalText_of_head _)
  split
  · exact Or.inr rfl
  · exact Or.inl rfl

/-! ### The documents -/

/-- A member with a text of the database. -/
def textMember (name : Bytes) (h : isPlainName name = true) (s : Option Bytes) :
    MemberText :=
  ⟨34 :: (name ++ [34]), name, json s, textValue s, stringToken_name name h,
    Reads.string (stringToken_json s)⟩

/-- A member with any other value. -/
def valueMember (name : Bytes) (h : isPlainName name = true) {text : Bytes}
    {value : JsonValue} (hreads : Reads text value) : MemberText :=
  ⟨34 :: (name ++ [34]), name, text, value, stringToken_name name h, hreads⟩

@[simp] theorem textMember_text (name : Bytes) (h : isPlainName name = true)
    (s : Option Bytes) :
    (textMember name h s).text = 34 :: (name ++ [34]) ++ 58 :: json s := rfl

@[simp] theorem valueMember_text (name : Bytes) (h : isPlainName name = true)
    {text : Bytes} {value : JsonValue} (hreads : Reads text value) :
    (valueMember name h hreads).text = 34 :: (name ++ [34]) ++ 58 :: text := rfl

theorem reads_true : Reads (ascii "true") (.bool true) := Reads.ofTrue

theorem reads_false : Reads (ascii "false") (.bool false) := Reads.ofFalse

theorem reads_enabled (enabled : Int) :
    Reads (if enabled ≠ 0 then ascii "true" else ascii "false") (.bool (enabled ≠ 0)) := by
  by_cases h : enabled ≠ 0
  · rw [if_pos h, decide_eq_true h]
    exact reads_true
  · rw [if_neg h, decide_eq_false h]
    exact reads_false

/-- The text of an object of which the members are known. -/
theorem reads_object {text : Bytes} {value : JsonValue} (members : List MemberText)
    (htext : text = 123 :: (commaSeparated (members.map MemberText.text) ++ [125]))
    (hvalue : value = .object (members.map fun m => (m.name, m.value))) : Reads text value := by
  rw [htext, hvalue]
  exact Reads.object members

theorem hexDigit_ne_zero (value : Nat) (h : value < 16) : hexDigit value ≠ 0 := by
  have hall : ∀ i : Fin 16, hexDigit i ≠ 0 := by decide
  exact hall ⟨value, h⟩

/-- A MAC that is written has no zero byte. -/
theorem cText_macText (mac : Bytes) : cText (macText mac) = macText mac := by
  have hmem : ∀ c ∈ macText mac, c ≠ 0 := by
    induction mac using macText.induct with
    | case1 => exact fun c hc => absurd hc List.not_mem_nil
    | case2 octet =>
        have hlt := octet.toNat_lt
        intro c hc
        simp only [macText, List.mem_cons, List.not_mem_nil, or_false] at hc
        rcases hc with rfl | rfl
        · exact hexDigit_ne_zero _ (by omega)
        · exact hexDigit_ne_zero _ (by omega)
    | case3 octet next rest ih =>
        have hlt := octet.toNat_lt
        intro c hc
        rw [macText] at hc
        simp only [List.mem_cons] at hc
        rcases hc with rfl | rfl | rfl | hc
        · exact hexDigit_ne_zero _ (by omega)
        · exact hexDigit_ne_zero _ (by omega)
        · decide
        · exact ih c hc
  exact List.takeWhile_eq_self_iff.mpr fun c hc => decide_eq_true (hmem c hc)

theorem reads_targetEntry (t : TargetColumns) (mac : Bytes) :
    Reads (targetEntry t mac) (targetValue t mac) := by
  refine reads_object
    [textMember (ascii "mac") (by decide) (some (macText mac)),
      textMember (ascii "kind") (by decide) t.kind, textMember (ascii "ip") (by decide) t.ip,
      textMember (ascii "ap_id") (by decide) t.apId, textMember (ascii "name") (by decide) t.name,
      valueMember (ascii "enabled") (by decide) (reads_enabled t.enabled),
      textMember (ascii "upstream_ap") (by decide) t.currentAp,
      textMember (ascii "ssid") (by decide) t.currentSsid,
      textMember (ascii "radio") (by decide) t.currentRadio] ?_ ?_
  · rw [targetEntry, show ascii "\x7b\"mac\":" = 123 :: 34 :: (ascii "mac" ++ [34, 58]) by decide,
      show ascii ",\"kind\":" = 44 :: 34 :: (ascii "kind" ++ [34, 58]) by decide,
      show ascii ",\"ip\":" = 44 :: 34 :: (ascii "ip" ++ [34, 58]) by decide,
      show ascii ",\"ap_id\":" = 44 :: 34 :: (ascii "ap_id" ++ [34, 58]) by decide,
      show ascii ",\"name\":" = 44 :: 34 :: (ascii "name" ++ [34, 58]) by decide,
      show ascii ",\"enabled\":" = 44 :: 34 :: (ascii "enabled" ++ [34, 58]) by decide,
      show ascii ",\"upstream_ap\":" = 44 :: 34 :: (ascii "upstream_ap" ++ [34, 58]) by decide,
      show ascii ",\"ssid\":" = 44 :: 34 :: (ascii "ssid" ++ [34, 58]) by decide,
      show ascii ",\"radio\":" = 44 :: 34 :: (ascii "radio" ++ [34, 58]) by decide,
      show ascii "\x7d" = [125] by decide]
    simp only [List.map_cons, List.map_nil, commaSeparated, textMember_text,
      valueMember_text, List.append_assoc, List.cons_append, List.nil_append]
  · have hmac : textValue (some (macText mac)) = .string (macText mac) := by
      rw [textValue, Option.getD_some, cText_macText]
    rw [targetValue, ← hmac]
    rfl

theorem reads_periodEntryTo (p : PeriodFile) (stop : Nat) :
    Reads (periodEntryTo p stop) (periodValueTo p stop) := by
  refine reads_object
    [valueMember (ascii "start") (by decide) (reads_decimalText p.start),
      valueMember (ascii "end") (by decide) (reads_decimalText stop),
      textMember (ascii "file") (by decide) (some p.name),
      valueMember (ascii "bytes") (by decide) (reads_intText p.bytes),
      valueMember (ascii "revision") (by decide) (reads_intText p.revision),
      valueMember (ascii "immutable") (by decide) reads_true] ?_ rfl
  rw [periodEntryTo,
    show ascii "\x7b\"start\":" = 123 :: 34 :: (ascii "start" ++ [34, 58]) by decide,
    show ascii ",\"end\":" = 44 :: 34 :: (ascii "end" ++ [34, 58]) by decide,
    show ascii ",\"file\":" = 44 :: 34 :: (ascii "file" ++ [34, 58]) by decide,
    show ascii ",\"bytes\":" = 44 :: 34 :: (ascii "bytes" ++ [34, 58]) by decide,
    show ascii ",\"revision\":" = 44 :: 34 :: (ascii "revision" ++ [34, 58]) by decide,
    show ascii ",\"immutable\":" = 44 :: 34 :: (ascii "immutable" ++ [34, 58]) by decide,
    show ascii "\x7d" = [125] by decide]
  simp only [List.map_cons, List.map_nil, commaSeparated, textMember_text,
    valueMember_text, List.append_assoc, List.cons_append, List.nil_append]

theorem reads_currentEntryTo (current : Nat × Int) (stop : Nat) :
    Reads (currentEntryTo current stop) (currentValueTo current stop) := by
  refine reads_object
    [valueMember (ascii "start") (by decide) (reads_decimalText current.1),
      valueMember (ascii "end") (by decide) (reads_decimalText stop),
      valueMember (ascii "file") (by decide)
        (Reads.string (stringToken_name (ascii "ping-current.bin.gz") (by decide))),
      valueMember (ascii "bytes") (by decide) (reads_intText current.2),
      valueMember (ascii "immutable") (by decide) reads_false] ?_ rfl
  rw [currentEntryTo,
    show ascii "\x7b\"start\":" = 123 :: 34 :: (ascii "start" ++ [34, 58]) by decide,
    show ascii ",\"end\":" = 44 :: 34 :: (ascii "end" ++ [34, 58]) by decide,
    show ascii ",\"file\":" = 44 :: 34 :: (ascii "file" ++ [34, 58]) by decide,
    show ascii "\"ping-current.bin.gz\"" = 34 :: (ascii "ping-current.bin.gz" ++ [34]) by decide,
    show ascii ",\"bytes\":" = 44 :: 34 :: (ascii "bytes" ++ [34, 58]) by decide,
    show ascii ",\"immutable\":" = 44 :: 34 :: (ascii "immutable" ++ [34, 58]) by decide,
    show ascii "\x7d" = [125] by decide]
  simp only [List.map_cons, List.map_nil, commaSeparated, valueMember_text,
    List.append_assoc, List.cons_append, List.nil_append]

/-- A document with a list of texts that are read as values. -/
theorem reads_listDocument (now : Int) (name : String)
    (hname : isPlainName (ascii name) = true) (items : List (Bytes × JsonValue))
    (h : ∀ item ∈ items, Reads item.1 item.2) :
    readDocument (ascii "\x7b\"status\":\"ok\",\"format_version\":" ++ (decimalText formatVersion ++
        (ascii ",\"generated_at\":" ++ (intText now ++
        (44 :: 34 :: (ascii name ++ [34, 58, 91]) ++
        (commaSeparated (items.map Prod.fst) ++ ascii "]\x7d\n")))))) =
      some (listDocument now name (items.map Prod.snd)) := by
  have hreads : Reads _ (listDocument now name (items.map Prod.snd)) := reads_object
    [valueMember (ascii "status") (by decide)
        (Reads.string (stringToken_name (ascii "ok") (by decide))),
      valueMember (ascii "format_version") (by decide) (reads_decimalText formatVersion),
      valueMember (ascii "generated_at") (by decide) (reads_intText now),
      valueMember (ascii name) hname (Reads.array items h)] rfl rfl
  -- `puts` ends the document with a newline.
  have hblanks : ∀ c ∈ ([10] : Bytes), isJsonBlank c = true :=
    List.all_eq_true.mp (by decide)
  have hdocument := readDocument_of_reads hreads hblanks
  rw [← hdocument, show ascii "\x7b\"status\":\"ok\",\"format_version\":" =
      123 :: 34 :: (ascii "status" ++ [34, 58]) ++ 34 :: (ascii "ok" ++ [34]) ++
        44 :: 34 :: (ascii "format_version" ++ [34, 58]) by decide,
    show ascii ",\"generated_at\":" = 44 :: 34 :: (ascii "generated_at" ++ [34, 58]) by decide,
    show ascii "]\x7d\n" = [93, 125, 10] by decide]
  simp only [List.map_cons, List.map_nil, commaSeparated, valueMember_text,
    List.append_assoc, List.cons_append, List.nil_append]

/-- What `json` writes is one token that is read as the text, and the documents
    are read as they are meant, whatever the texts in them are. -/
theorem json_faithful :
    (∀ s : Bytes, 0 ∉ s → StringToken (json (some s)) s) ∧
      (∀ now rows, readDocument (targetsText now rows) = some (targetsDocument now rows)) ∧
      ∀ now periods current, readDocument (manifestText now periods current)
        = some (manifestDocument now periods current) := by
  refine ⟨fun s hs => ?_, fun now rows => ?_, fun now periods current => ?_⟩
  · have hfull : cText s = s :=
      List.takeWhile_eq_self_iff.mpr fun c hc => decide_eq_true fun heq => hs (heq ▸ hc)
    have h := stringToken_json (some s)
    rwa [Option.getD_some, hfull] at h
  · -- The entries side by side with what they are meant to be.
    have h := reads_listDocument now "targets" (by decide)
      (rows.filterMap fun t => t.mac.map fun mac => (targetEntry t mac, targetValue t mac)) (by
        intro item hitem
        rcases List.mem_filterMap.mp hitem with ⟨t, -, ht⟩
        rcases Option.map_eq_some_iff.mp ht with ⟨mac, -, rfl⟩
        exact reads_targetEntry t mac)
    rw [List.map_filterMap, List.map_filterMap] at h
    simp only [Option.map_map, Function.comp_def] at h
    rw [targetsText, targetsDocument, ← h,
      show ascii ",\"targets\":[" = 44 :: 34 :: (ascii "targets" ++ [34, 58, 91]) by decide]
  · have h := reads_listDocument now "periods" (by decide)
      (periods.map (fun p => (periodEntry p, periodValue p)) ++
        current.toList.map fun c => (currentEntry c, currentValue c)) (by
        intro item hitem
        rcases List.mem_append.mp hitem with hitem | hitem
        · rcases List.mem_map.mp hitem with ⟨p, -, rfl⟩
          exact reads_periodEntryTo p _
        · rcases List.mem_map.mp hitem with ⟨c, -, rfl⟩
          exact reads_currentEntryTo c _)
    rw [List.map_append, List.map_append, List.map_map, List.map_map, List.map_map,
      List.map_map] at h
    rw [manifestText, manifestDocument,
      show ascii ",\"periods\":[" = 44 :: 34 :: (ascii "periods" ++ [34, 58, 91]) by decide]
    exact h

/-- A name with quotes, an escape look-alike, controls and bytes of no character. -/
theorem json_faithful_quote :
    StringToken (json (some (ascii "a\",\"\\u0041" ++ [10, 1, 255, 192])))
      (ascii "a\",\"\\u0041" ++ [10, 1, 255, 192]) :=
  json_faithful.1 _ (by decide)

/-! ### The listing of a database -/

def kindText : Kind → Bytes
  | .ap => ascii "ap"
  | .client => ascii "client"

/-- The columns of a row of the table. -/
def columnsOf (t : TargetRow) : TargetColumns where
  kind := some (kindText t.kind)
  ip := some t.ip
  clientMac := t.clientMac
  apId := t.apId
  name := some t.name
  enabled := if t.enabled then 1 else 0
  currentAp := t.currentAp
  currentSsid := t.currentSsid
  currentRadio := t.currentRadio

/-- The rows in the order of the query. -/
def targetColumns (db : Db) : List TargetColumns :=
  (db.target.rows.insertionSort fun a b => NocaseLe (identity a) (identity b)).map columnsOf

def deviceValue (d : Device) : JsonValue :=
  .object
    [(ascii "mac", .string d.mac), (ascii "kind", .string (kindText d.kind)),
      (ascii "ip", textValue (some d.ip)), (ascii "ap_id", textValue d.apId),
      (ascii "name", textValue (some d.name)), (ascii "enabled", .bool d.enabled),
      (ascii "upstream_ap", textValue d.upstreamAp), (ascii "ssid", textValue d.ssid),
      (ascii "radio", textValue d.radio)]

theorem identity_columnsOf (t : TargetRow) : (columnsOf t).identity = identity t := by
  have hclient : cText (kindText .client) = ascii "client" := by decide
  have hap : cText (kindText .ap) ≠ ascii "client" := by decide
  unfold TargetColumns.identity identity
  rw [columnsOf, Option.map_some]
  cases t.kind with
  | ap => exact if_neg fun h => hap (Option.some.inj h)
  | client => exact if_pos (congrArg some hclient)

/-- A row has an entry if it is a device. -/
theorem targetValue_columnsOf (t : TargetRow) (h : ∀ id, identity t = some id → 0 ∉ id) :
    (columnsOf t).mac.map (targetValue (columnsOf t)) = (deviceOf t).map deviceValue := by
  have hmac : (columnsOf t).mac = (identity t).bind parseMac := by
    rw [TargetColumns.mac, identity_columnsOf]
    cases hid : identity t with
    | none => rfl
    | some id =>
        have hfull : cText id = id :=
          List.takeWhile_eq_self_iff.mpr fun c hc => decide_eq_true fun heq => h id hid (heq ▸ hc)
        rw [Option.bind_some, Option.bind_some, hfull]
  have hkind : cText (kindText t.kind) = kindText t.kind := by
    cases t.kind <;> decide
  have henabled : decide ((columnsOf t).enabled ≠ 0) = t.enabled := by
    unfold columnsOf
    cases t.enabled <;> rfl
  rw [hmac, deviceOf, Option.map_map]
  refine congrArg (fun f => Option.map f ((identity t).bind parseMac)) (funext fun mac => ?_)
  rw [Function.comp_apply, targetValue, deviceValue]
  rw [henabled]
  simp only [columnsOf, textValue, Option.getD_some, hkind]

/-- The listing of a database is read as its devices. -/
theorem targetsDocument_db (now : Int) (db : Db)
    (h : ∀ t ∈ db.target.rows, ∀ id, identity t = some id → 0 ∉ id) :
    targetsDocument now (targetColumns db)
      = listDocument now "targets" ((targetsJson db).map deviceValue) := by
  rw [targetsDocument, targetColumns, targetsJson, List.filterMap_map, List.map_filterMap]
  refine congrArg (listDocument now "targets") (List.filterMap_congr fun t ht => ?_)
  exact targetValue_columnsOf t (h t ((List.mem_insertionSort _).mp ht))

end Zd1200
