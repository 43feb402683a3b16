import Zd1200.Lib.Search
import Zd1200.Monitor.AccessPoints

/-!
# Clients

The client view of a round: `parse_client_view`, the lookups in it and
`sync_clients`.

The view is parsed once and then sorted by MAC ignoring case, because the
lookups are binary searches. The sort of the C library makes no promise about
equal MACs, so it is a parameter, and what holds of a lookup is stated up to
the choice among equal ones: it fails exactly when no entry has that MAC.

A view is valid if the file could be read. Nothing in it says whether the
listing is complete.

## Main definitions

* `Client`: An entry of the view.
* `ClientView`: The view: the entries in order, and whether there is one.
* `parseClientView`: Reading a view.
* `findClient`, `clientPresent`: The lookups.
* `syncClients`: Targets for the entries.

## Theorems

* `findClient_eq_some`: A lookup gives an entry with that MAC.
* `clientPresent_iff`: A MAC is present exactly when some entry has it.
* `mem_syncClients`: The targets after the synchronisation.
-/

namespace Zd1200

/-- An entry of the client view; a number is there if its attribute is. -/
structure Client where
  mac : Bytes
  ip : Option Bytes
  name : Option Bytes
  ap : Option Bytes
  ssid : Option Bytes
  radio : Option Bytes
  snrDb : Option Int
  signalDbm : Option Int
  noiseFloorDbm : Option Int
  deriving DecidableEq, Repr

structure ClientView where
  items : List Client
  valid : Bool
  deriving DecidableEq, Repr

/-- `bind_optional_int`: a number if the text is there and not empty. -/
def optionalInt (value : Option Bytes) : Option Int :=
  match value with
  | none => none
  | some text => if text = [] then none else some (atoi text)

/-- One tag of the view; an entry needs a valid MAC. -/
def clientOfTag (text : Bytes) (tag stop : Nat) : Option Client := do
  let mac ← attr text tag stop "mac"
  if validMac mac then
    some
      { mac
        ip := attr text tag stop "ip"
        name := orIfEmpty (orIfEmpty (attr text tag stop "hostname") (attr text tag stop "user"))
          (some mac)
        ap := attr text tag stop "ap"
        ssid := attr text tag stop "ssid"
        radio := attr text tag stop "radio-type"
        snrDb := optionalInt (attr text tag stop "rssi")
        signalDbm := optionalInt (attr text tag stop "received-signal-strength")
        noiseFloorDbm := optionalInt (attr text tag stop "noise-floor") }
  else none

/-- The entries of a text in the order of their tags. -/
def scanClients (text : Bytes) : List Client :=
  (tags text (ascii "<client ")).filterMap fun (tag, stop) => clientOfTag text tag stop

/-- The order of `client_compare`. -/
def clientCompare (a b : Client) : Prop := (strcasecmp a.mac b.mac).isLE = true

instance : DecidableRel clientCompare := fun _ _ => inferInstanceAs (Decidable (_ = true))

instance : Std.Total clientCompare where
  total a b := by
    unfold clientCompare strcasecmp
    have hswap : compare (lowercase b.mac) (lowercase a.mac)
        = (compare (lowercase a.mac) (lowercase b.mac)).swap := Std.OrientedOrd.eq_swap
    rw [hswap]
    cases compare (lowercase a.mac) (lowercase b.mac) with
    | lt => exact Or.inl rfl
    | eq => exact Or.inl rfl
    | gt => exact Or.inr rfl

instance : IsTrans Client clientCompare where
  trans _ _ _ hab hbc := Std.TransOrd.isLE_trans hab hbc

/-- A library's sort of clients by their MAC. -/
abbrev ClientSort := SortFn Client clientCompare

/-- The view of a file, or an invalid one if it cannot be read. -/
def parseClientView (sort : ClientSort) (file : Option Bytes) : ClientView :=
  match file with
  | none => { items := [], valid := false }
  | some contents => { items := sort.run (scanClients (cText contents)), valid := true }

/-- The binary search that both lookups make. -/
def clientPosition (view : ClientView) (mac : Bytes) : Option Nat :=
  search (fun i => (view.items[i]?.map fun c => strcasecmp mac c.mac).getD .gt)
    view.items.length 0 view.items.length

def clientPresent (view : ClientView) (mac : Option Bytes) : Bool :=
  match mac with
  | none => false
  | some mac => (clientPosition view mac).isSome

def findClient (view : ClientView) (mac : Option Bytes) : Option Client :=
  match mac with
  | none => none
  | some mac => (clientPosition view mac).bind fun i => view.items[i]?

/-- The row that `sync_clients` inserts. -/
def clientRow (mac ip name : Bytes) (now : Nat) : TargetRow where
  id := 0
  kind := .client
  ip := ip
  clientMac := some mac
  apId := none
  name := name
  currentAp := none
  currentSsid := none
  currentRadio := none
  enabled := true
  createdAt := now

/-- `UPDATE target SET … enabled=1 WHERE kind='client' AND client_mac=?`. -/
def refreshClient (client : Client) (ip name : Bytes) (t : TargetRow) : TargetRow :=
  if t.kind = .client ∧ t.clientMac = some client.mac then
    { t with
      ip, name
      currentAp := client.ap
      currentSsid := client.ssid
      currentRadio := client.radio
      enabled := true }
  else t

theorem refreshClient_same (client : Client) (ip name : Bytes) (t : TargetRow) :
    SameTarget t (refreshClient client ip name t) := SameTarget.ite _ ⟨rfl, rfl, rfl, rfl⟩

/-- The two statements for one entry; an entry without an address or with an
    unusable one is passed over. -/
def syncClient (now : Nat) (target : TargetTable) (client : Client) : TargetTable :=
  match client.ip, client.name with
  | some ip, some name =>
      if (inetPton ip).isSome then
        -- A client that is known already keeps its row and is only updated.
        (target.insertOrIgnore (clientRow client.mac ip name now)).update
          (refreshClient client ip name) (refreshClient_same client ip name)
      else target
  | _, _ => target

def syncClients (view : ClientView) (now : Nat) (target : TargetTable) : TargetTable :=
  view.items.foldl (syncClient now) target

/-! ### Lookups -/

/-- Two texts are the same MAC, whatever the case of the digits. -/
def SameMac (a b : Bytes) : Prop := lowercase a = lowercase b

instance (a b : Bytes) : Decidable (SameMac a b) := inferInstanceAs (Decidable (_ = _))

/-- A sorted view answers comparisons the way a binary search needs. -/
theorem clientPosition_descends (view : ClientView)
    (hsorted : view.items.Pairwise clientCompare) (mac : Bytes) :
    Descends (fun i => (view.items[i]?.map fun c => strcasecmp mac c.mac).getD .gt)
      0 view.items.length := by
  intro i j _ hij hj
  have hi : i < view.items.length := by omega
  rcases Nat.eq_or_lt_of_le hij with rfl | hlt
  · exact ⟨fun h => h, fun h => h⟩
  have hle : clientCompare view.items[i] view.items[j] :=
    List.pairwise_iff_getElem.mp hsorted i j hi hj hlt
  simp only [List.getElem?_eq_getElem hi, List.getElem?_eq_getElem hj, Option.map_some,
    Option.getD_some]
  -- The order of the view carries a comparison from one entry to the next.
  unfold clientCompare strcasecmp at hle
  unfold strcasecmp
  exact ⟨fun h => Std.TransCmp.lt_of_lt_of_isLE h hle,
    fun h => Std.TransCmp.gt_of_gt_of_isGE h (Std.OrientedCmp.isGE_iff_isLE.mpr hle)⟩

theorem clientPosition_spec (view : ClientView) (hsorted : view.items.Pairwise clientCompare)
    (mac : Bytes) :
    (∀ i, clientPosition view mac = some i → ∃ c, view.items[i]? = some c ∧ SameMac mac c.mac) ∧
      (clientPosition view mac = none → ∀ c ∈ view.items, ¬ SameMac mac c.mac) := by
  have hspec := search_spec _ 0 view.items.length view.items.length
    (clientPosition_descends view hsorted mac) (by omega)
  constructor
  · intro i h
    rcases hspec.1 i h with ⟨-, hi, heq⟩
    simp only [List.getElem?_eq_getElem hi, Option.map_some, Option.getD_some] at heq
    exact ⟨view.items[i], List.getElem?_eq_getElem hi, (strcasecmp_eq_iff mac _).mp heq⟩
  · intro h c hc hsame
    rcases List.getElem_of_mem hc with ⟨i, hi, rfl⟩
    -- An entry that the search missed would have compared equal.
    apply hspec.2 h i (Nat.zero_le i) hi
    simp only [List.getElem?_eq_getElem hi, Option.map_some, Option.getD_some]
    exact (strcasecmp_eq_iff mac _).mpr hsame

/-- A lookup gives an entry with that MAC. -/
theorem findClient_eq_some (view : ClientView) (hsorted : view.items.Pairwise clientCompare)
    (mac : Bytes) (c : Client) (h : findClient view (some mac) = some c) :
    c ∈ view.items ∧ SameMac mac c.mac := by
  simp only [findClient, Option.bind_eq_some_iff] at h
  rcases h with ⟨i, hi, hc⟩
  rcases (clientPosition_spec view hsorted mac).1 i hi with ⟨c', hc', hsame⟩
  rw [hc, Option.some.injEq] at hc'
  exact ⟨List.mem_of_getElem? hc, hc' ▸ hsame⟩

/-- A MAC is present exactly when some entry has it. -/
theorem clientPresent_iff (view : ClientView) (hsorted : view.items.Pairwise clientCompare)
    (mac : Bytes) :
    clientPresent view (some mac) = true ↔ ∃ c ∈ view.items, SameMac mac c.mac := by
  cases hpos : clientPosition view mac with
  | none =>
      have habs : clientPresent view (some mac) = false := by
        simp only [clientPresent, hpos, Option.isSome_none]
      rw [habs]
      refine ⟨fun h => absurd h Bool.false_ne_true, fun ⟨c, hc, hsame⟩ => ?_⟩
      exact absurd hsame ((clientPosition_spec view hsorted mac).2 hpos c hc)
  | some i =>
      have hpres : clientPresent view (some mac) = true := by
        simp only [clientPresent, hpos, Option.isSome_some]
      rcases (clientPosition_spec view hsorted mac).1 i hpos with ⟨c, hc, hsame⟩
      exact ⟨fun _ => ⟨c, List.mem_of_getElem? hc, hsame⟩, fun _ => hpres⟩

/-! ### Synchronisation -/

theorem refreshClient_enabled (client : Client) (ip name : Bytes) (t : TargetRow) :
    (refreshClient client ip name t).enabled = t.enabled ∨
      (refreshClient client ip name t).enabled = true ∧ t.clientMac = some client.mac := by
  unfold refreshClient
  by_cases h : t.kind = .client ∧ t.clientMac = some client.mac
  · rw [if_pos h]
    exact Or.inr ⟨rfl, h.2⟩
  · rw [if_neg h]
    exact Or.inl rfl

/-- Where the targets after one entry come from. -/
theorem mem_syncClient (now : Nat) (target : TargetTable) (client : Client) (t : TargetRow)
    (h : t ∈ (syncClient now target client).rows) :
    (∃ t₀ ∈ target.rows, SameTarget t₀ t ∧ t₀.enabled = t.enabled) ∨
      t.clientMac = some client.mac := by
  unfold syncClient at h
  split at h
  · next ip name _ _ =>
    by_cases hip : (inetPton ip).isSome = true
    · rw [if_pos hip] at h
      rcases List.mem_map.mp h with ⟨t₁, ht₁, rfl⟩
      have hsame := refreshClient_same client ip name t₁
      -- The row was there, and the update may be about it, or it is new.
      rcases target.mem_insertOrIgnore _ t₁ ht₁ with hold | hnew
      · rcases refreshClient_enabled client ip name t₁ with hkeep | ⟨-, hmac⟩
        · exact Or.inl ⟨t₁, hold, hsame, hkeep.symm⟩
        · exact Or.inr (hsame.clientMac ▸ hmac)
      · exact Or.inr (hsame.clientMac ▸ by rw [hnew]; rfl)
    · rw [if_neg hip] at h
      exact Or.inl ⟨t, h, SameTarget.refl t, rfl⟩
  · exact Or.inl ⟨t, h, SameTarget.refl t, rfl⟩

/-- A target stays, and stays enabled. -/
theorem syncClient_keeps (now : Nat) (target : TargetTable) (client : Client) (t : TargetRow)
    (h : t ∈ target.rows) :
    ∃ t' ∈ (syncClient now target client).rows, SameTarget t t' ∧
      (t.enabled = true → t'.enabled = true) := by
  unfold syncClient
  split
  · next ip name _ _ =>
    by_cases hip : (inetPton ip).isSome = true
    · rw [if_pos hip]
      refine ⟨_, List.mem_map.mpr ⟨t, target.subset_insertOrIgnore _ t h, rfl⟩,
        refreshClient_same client ip name t, fun hen => ?_⟩
      -- The update of a client switches it on, never off.
      rcases refreshClient_enabled client ip name t with hkeep | ⟨hon, -⟩
      · rw [hkeep]
        exact hen
      · exact hon
    · rw [if_neg hip]
      exact ⟨t, h, SameTarget.refl t, fun hen => hen⟩
  · exact ⟨t, h, SameTarget.refl t, fun hen => hen⟩

/-- The targets after the synchronisation are the ones before and the entries
    of the view. -/
theorem mem_syncClients (view : ClientView) (now : Nat) (target : TargetTable) (t : TargetRow)
    (h : t ∈ (syncClients view now target).rows) :
    (∃ t₀ ∈ target.rows, SameTarget t₀ t ∧ t₀.enabled = t.enabled) ∨
      ∃ c ∈ view.items, t.clientMac = some c.mac := by
  unfold syncClients at h
  generalize view.items = items at h
  induction items generalizing target with
  | nil => exact Or.inl ⟨t, h, SameTarget.refl t, rfl⟩
  | cons client rest ih =>
      rcases ih _ h with ⟨t₁, ht₁, hsame, hen⟩ | ⟨c, hc, hmac⟩
      · rcases mem_syncClient now target client t₁ ht₁ with ⟨t₀, ht₀, hsame', hen'⟩ | hmac
        · exact Or.inl ⟨t₀, ht₀, hsame'.trans hsame, hen'.trans hen⟩
        · exact Or.inr ⟨client, List.mem_cons_self, hsame.clientMac ▸ hmac⟩
      · exact Or.inr ⟨c, List.mem_cons_of_mem _ hc, hmac⟩

theorem syncClients_keeps (view : ClientView) (now : Nat) (target : TargetTable) (t : TargetRow)
    (h : t ∈ target.rows) :
    ∃ t' ∈ (syncClients view now target).rows, SameTarget t t' ∧
      (t.enabled = true → t'.enabled = true) := by
  unfold syncClients
  generalize view.items = items
  induction items generalizing target t with
  | nil => exact ⟨t, h, SameTarget.refl t, fun hen => hen⟩
  | cons client rest ih =>
      rcases syncClient_keeps now target client t h with ⟨t₁, ht₁, hsame, hen⟩
      rcases ih _ t₁ ht₁ with ⟨t₂, ht₂, hsame', hen'⟩
      exact ⟨t₂, ht₂, hsame.trans hsame', fun h => hen' (hen h)⟩

/-! ### Views -/

theorem parseClientView_sorted (sort : ClientSort) (file : Option Bytes) :
    (parseClientView sort file).items.Pairwise clientCompare := by
  cases file with
  | none => exact List.Pairwise.nil
  | some contents => exact sort.sorted _

theorem mem_parseClientView (sort : ClientSort) (contents : Bytes) (c : Client) :
    c ∈ (parseClientView sort (some contents)).items ↔ c ∈ scanClients (cText contents) :=
  (sort.perm _).mem_iff

end Zd1200
