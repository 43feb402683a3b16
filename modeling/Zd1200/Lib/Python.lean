import Mathlib.Data.List.Nodup

/-!
# Python's Dictionaries and Quoted Texts

Two things that programs in Python leave to the language.

A dictionary keeps its entries in the order in which their keys came first. A
later value for a key takes the place of the earlier one, so a dictionary made
of pairs holds for every key the last value that was given for it. That no key
is there twice is a field of `Dict`.

`repr` puts a text between apostrophes, or between quotation marks if it has
apostrophes and no quotation mark, and writes what would be read otherwise with
a backslash. Characters from U+0100 on stand as they are, also those that
cannot be printed.

## Main definitions

* `Dict`: A dictionary.
* `Dict.lookup`, `Dict.insert`, `Dict.ofList`: Its operations.
* `reprText`: A text as it is quoted in a message.

## Theorems

* `Dict.lookup_insert`: What a dictionary holds after an assignment.
* `Dict.lookup_ofList`: The last of the values for a key is the one that is held.
* `Dict.ofList_entries`: Pairs of different keys are the entries.
* `reprText_ends`: The last character is an apostrophe or a quotation mark.
-/

namespace Zd1200

universe u v

/-! ### Dictionaries -/

/-- A dictionary: its entries in their order, no key twice. -/
structure Dict (κ : Type u) (α : Type v) where
  entries : List (κ × α)
  distinct : (entries.map Prod.fst).Nodup
  deriving DecidableEq, Repr

/-- Put a value in the place of the one for its key, or at the end. -/
def replaceEntry {κ : Type u} {α : Type v} [DecidableEq κ] (key : κ) (value : α) :
    List (κ × α) → List (κ × α)
  | [] => [(key, value)]
  | entry :: rest =>
      if entry.1 = key then (key, value) :: rest else entry :: replaceEntry key value rest

section Entries

variable {κ : Type u} {α : Type v} [DecidableEq κ]

theorem mem_keys_replaceEntry (key : κ) (value : α) (entries : List (κ × α)) (k : κ) :
    k ∈ (replaceEntry key value entries).map Prod.fst ↔ k = key ∨ k ∈ entries.map Prod.fst := by
  induction entries with
  | nil => simp only [replaceEntry, List.map_cons, List.map_nil, List.mem_singleton,
      List.not_mem_nil, or_false]
  | cons entry rest ih =>
      rw [replaceEntry]
      by_cases heq : entry.1 = key
      · rw [if_pos heq, List.map_cons, List.map_cons, List.mem_cons, List.mem_cons, heq]
        exact ⟨fun h => .inr h, fun h => h.elim Or.inl id⟩
      · rw [if_neg heq, List.map_cons, List.map_cons, List.mem_cons, List.mem_cons, ih]
        exact ⟨fun h => h.elim (fun h => .inr (.inl h)) fun h => h.imp_right Or.inr,
          fun h => h.elim (fun h => .inr (.inl h)) fun h => h.imp_right Or.inr⟩

theorem nodup_replaceEntry (key : κ) (value : α) (entries : List (κ × α))
    (h : (entries.map Prod.fst).Nodup) : ((replaceEntry key value entries).map Prod.fst).Nodup := by
  induction entries with
  | nil => exact List.nodup_singleton _
  | cons entry rest ih =>
      rw [List.map_cons, List.nodup_cons] at h
      rw [replaceEntry]
      by_cases heq : entry.1 = key
      · rw [if_pos heq, List.map_cons, List.nodup_cons]
        exact ⟨heq ▸ h.1, h.2⟩
      · rw [if_neg heq, List.map_cons, List.nodup_cons, mem_keys_replaceEntry]
        exact ⟨fun hbad => hbad.elim heq h.1, ih h.2⟩

theorem lookup_entry_cons (entry : κ × α) (rest : List (κ × α)) (k : κ) :
    (entry :: rest).lookup k = if k = entry.1 then some entry.2 else rest.lookup k := by
  rw [List.lookup_cons]
  by_cases hk : k = entry.1
  · rw [if_pos hk, beq_iff_eq.mpr hk]
  · rw [if_neg hk, beq_eq_false_iff_ne.mpr hk]

theorem lookup_replaceEntry (key : κ) (value : α) (entries : List (κ × α)) (k : κ) :
    (replaceEntry key value entries).lookup k =
      if k = key then some value else entries.lookup k := by
  induction entries with
  | nil => rw [replaceEntry, lookup_entry_cons]
  | cons entry rest ih =>
      rw [replaceEntry, lookup_entry_cons]
      by_cases heq : entry.1 = key
      · rw [if_pos heq, lookup_entry_cons, heq]
        by_cases hk : k = key
        · rw [if_pos hk, if_pos hk]
        · rw [if_neg hk, if_neg hk, if_neg hk]
      · rw [if_neg heq, lookup_entry_cons, ih]
        by_cases hentry : k = entry.1
        · rw [if_pos hentry, if_neg (hentry ▸ heq), if_pos hentry]
        · rw [if_neg hentry, if_neg hentry]

/-- A new key goes to the end. -/
theorem replaceEntry_new (key : κ) (value : α) (entries : List (κ × α))
    (h : key ∉ entries.map Prod.fst) : replaceEntry key value entries = entries ++ [(key, value)] := by
  induction entries with
  | nil => rfl
  | cons entry rest ih =>
      rw [List.map_cons, List.mem_cons, not_or] at h
      rw [replaceEntry, if_neg (Ne.symm h.1), ih h.2, List.cons_append]

end Entries

namespace Dict

variable {κ : Type u} {α : Type v} [DecidableEq κ]

/-- `{}` -/
def empty : Dict κ α := ⟨[], List.nodup_nil⟩

/-- `d.keys()` -/
def keys (d : Dict κ α) : List κ := d.entries.map Prod.fst

/-- `d.get(key)` -/
def lookup (d : Dict κ α) (key : κ) : Option α := d.entries.lookup key

/-- `d[key] = value` -/
def insert (d : Dict κ α) (key : κ) (value : α) : Dict κ α :=
  ⟨replaceEntry key value d.entries, nodup_replaceEntry key value d.entries d.distinct⟩

/-- `dict(pairs)` -/
def ofList (pairs : List (κ × α)) : Dict κ α :=
  pairs.foldl (fun d pair => d.insert pair.1 pair.2) empty

theorem lookup_insert (d : Dict κ α) (key : κ) (value : α) (k : κ) :
    (d.insert key value).lookup k = if k = key then some value else d.lookup k :=
  lookup_replaceEntry key value d.entries k

theorem mem_keys_foldl_insert (pairs : List (κ × α)) (d : Dict κ α) (k : κ) :
    k ∈ (pairs.foldl (fun d pair => d.insert pair.1 pair.2) d).keys ↔
      k ∈ pairs.map Prod.fst ∨ k ∈ d.keys := by
  induction pairs generalizing d with
  | nil => rw [List.foldl_nil, List.map_nil, iff_false_intro List.not_mem_nil, false_or]
  | cons pair rest ih =>
      have hinsert : k ∈ (d.insert pair.1 pair.2).keys ↔ k = pair.1 ∨ k ∈ d.keys :=
        mem_keys_replaceEntry pair.1 pair.2 d.entries k
      rw [List.foldl_cons, ih, hinsert, List.map_cons, List.mem_cons, or_left_comm, or_assoc]

theorem mem_keys_ofList (pairs : List (κ × α)) (k : κ) :
    k ∈ (ofList pairs).keys ↔ k ∈ pairs.map Prod.fst := by
  rw [ofList, mem_keys_foldl_insert]
  exact or_iff_left List.not_mem_nil

theorem lookup_foldl_insert (pairs : List (κ × α)) (d : Dict κ α) (k : κ) :
    (pairs.foldl (fun d pair => d.insert pair.1 pair.2) d).lookup k =
      (pairs.reverse.lookup k).or (d.lookup k) := by
  induction pairs generalizing d with
  | nil => rfl
  | cons pair rest ih =>
      rw [List.foldl_cons, ih, lookup_insert, List.reverse_cons, List.lookup_append, Option.or_assoc]
      congr 1
      rw [lookup_entry_cons, List.lookup_nil]
      by_cases hk : k = pair.1
      · rw [if_pos hk, if_pos hk, Option.some_or]
      · rw [if_neg hk, if_neg hk, Option.none_or]

/-- A dictionary made of pairs holds the last value given for a key. -/
theorem lookup_ofList (pairs : List (κ × α)) (k : κ) :
    (ofList pairs).lookup k = pairs.reverse.lookup k := by
  rw [ofList, lookup_foldl_insert]
  exact Option.or_none

theorem entries_foldl_insert (pairs : List (κ × α)) (d : Dict κ α)
    (h : ((d.entries ++ pairs).map Prod.fst).Nodup) :
    (pairs.foldl (fun d pair => d.insert pair.1 pair.2) d).entries = d.entries ++ pairs := by
  induction pairs generalizing d with
  | nil => rw [List.foldl_nil, List.append_nil]
  | cons pair rest ih =>
      -- A key that is new goes to the end, so the order is that of the pairs.
      have hnew : pair.1 ∉ d.entries.map Prod.fst := by
        rw [List.map_append, List.map_cons, List.nodup_append] at h
        exact fun hmem => h.2.2 _ hmem _ List.mem_cons_self rfl
      have hinsert : (d.insert pair.1 pair.2).entries = d.entries ++ [pair] :=
        replaceEntry_new pair.1 pair.2 d.entries hnew
      rw [List.foldl_cons, ih _ (by rwa [hinsert, List.append_assoc]), hinsert, List.append_assoc,
        List.singleton_append]

/-- Pairs of different keys are the entries of the dictionary made of them. -/
theorem ofList_entries (pairs : List (κ × α)) (h : (pairs.map Prod.fst).Nodup) :
    (ofList pairs).entries = pairs := by
  rw [ofList, entries_foldl_insert pairs empty h]
  rfl

/-- `dict(d)` is a copy. -/
theorem ofList_self (d : Dict κ α) : ofList d.entries = d := by
  have h := ofList_entries d.entries d.distinct
  rcases hcopy : ofList d.entries with ⟨entries, hdistinct⟩
  rw [hcopy] at h
  subst h
  rfl

end Dict

/-! ### Quoted texts -/

/-- A character between quotes of a kind. -/
def reprChar (quote c : Char) : List Char :=
  -- Printable characters beyond Latin-1 stay as they are.
  if c = quote ∨ c = '\\' then ['\\', c]
  else if c = '\t' then ['\\', 't']
  else if c = '\n' then ['\\', 'n']
  else if c = '\r' then ['\\', 'r']
  else if c.toNat < 0x20 ∨ (0x7f ≤ c.toNat ∧ c.toNat < 0xa1) ∨ c.toNat = 0xad then
    ['\\', 'x', Nat.digitChar (c.toNat / 16), Nat.digitChar (c.toNat % 16)]
  else [c]

/-- The quotes that a text is put between. -/
def reprQuote (text : List Char) : Char :=
  if '\x27' ∈ text ∧ '\x22' ∉ text then '\x22' else '\x27'

/-- `repr(text)` -/
def reprText (text : List Char) : String :=
  let quote := reprQuote text
  String.ofList (quote :: text.flatMap (reprChar quote) ++ [quote])

theorem reprText_ends (text : List Char) :
    ['\x27'] <:+ (reprText text).toList ∨ ['\x22'] <:+ (reprText text).toList := by
  rw [reprText, String.toList_ofList, reprQuote]
  split
  · exact .inr (List.suffix_append _ _)
  · exact .inl (List.suffix_append _ _)

example : reprText ['a', '\x27', '\\', '\n'] = "\"a'\\\\\\n\"" := by decide

end Zd1200
