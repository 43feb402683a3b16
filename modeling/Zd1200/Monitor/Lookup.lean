import Zd1200.Monitor.Clients

/-!
# Lookups

How the array of `parse_client_view` is filled, and what the two lookups do
with it when every read is checked.

The array starts without memory and is doubled whenever it is full. The
allocator may refuse; the entries read so far are then given back, and the
view is empty and not valid. A `ClientArray` carries the bound that makes its
writes safe: what is in use fits the memory.

`findClient` and `clientPresent` answer from a search that has no way to fail.
Here the same loops run over the array itself, and a read outside of it or a
loop that does not end is a result of its own, which no view and no MAC has.

## Main definitions

* `ClientArray`: The entries in use and the memory for them.
* `fillArray`: The loop over the tags.
* `readClientView`: A view, with an allocator that may refuse.
* `findClientChecked`, `clientPresentChecked`: The lookups, every read checked.

## Theorems

* `readClientView_valid`: A valid view is the one without refusals.
* `lookups_exact`: What the lookups find.
-/

namespace Zd1200

/-! ### The array -/

/-- The array of a view: the entries in use fit the memory. -/
structure ClientArray where
  items : List Client
  capacity : Nat
  fits : items.length ≤ capacity

namespace ClientArray

/-- No memory and nothing in it. -/
def empty : ClientArray := { items := [], capacity := 0, fits := Nat.le_refl 0 }

/-- The memory that a full array asks for. -/
def wider (capacity : Nat) : Nat := if capacity = 0 then 128 else capacity * 2

theorem lt_wider (capacity : Nat) : capacity < wider capacity := by
  unfold wider
  split <;> omega

/-- One more entry; a full array is moved to more memory first, if the
    allocator has room for that many entries. -/
def push (room : Nat → Bool) (array : ClientArray) (client : Client) : Option ClientArray :=
  if h : array.items.length = array.capacity then
    if room (wider array.capacity) then
      some
        { items := array.items ++ [client]
          capacity := wider array.capacity
          fits := by
            rw [List.length_append, List.length_singleton, h]
            exact lt_wider array.capacity }
    else none
  else
    some
      { items := array.items ++ [client]
        capacity := array.capacity
        fits := by
          rw [List.length_append, List.length_singleton]
          exact Nat.lt_of_le_of_ne array.fits h }

theorem push_items (room : Nat → Bool) (array grown : ClientArray) (client : Client)
    (h : array.push room client = some grown) : grown.items = array.items ++ [client] := by
  unfold push at h
  split at h
  · split at h
    · rw [← Option.some.inj h]
    · exact absurd h (by simp only [reduceCtorEq, not_false_eq_true])
  · rw [← Option.some.inj h]

theorem push_isSome (room : Nat → Bool) (hroom : ∀ capacity, room capacity = true)
    (array : ClientArray) (client : Client) : (array.push room client).isSome = true := by
  unfold push
  split
  · rw [if_pos (hroom _), Option.isSome_some]
  · rw [Option.isSome_some]

end ClientArray

/-- The loop over the tags of a text: an accepted tag goes to the array, and a
    refusal of the allocator ends it. -/
def fillArray (room : Nat → Bool) (text : Bytes) :
    List (Nat × Nat) → ClientArray → Option ClientArray
  | [], array => some array
  | (tag, stop) :: rest, array =>
      match clientOfTag text tag stop with
      | none => fillArray room text rest array
      | some client =>
          match array.push room client with
          | none => none
          | some grown => fillArray room text rest grown

/-- The view of a file, or an empty invalid one if the file cannot be read or
    the entries do not fit the memory. -/
def readClientView (room : Nat → Bool) (sort : ClientSort) (file : Option Bytes) : ClientView :=
  match file with
  | none => { items := [], valid := false }
  | some contents =>
      let text := cText contents
      match fillArray room text (tags text (ascii "<client ")) ClientArray.empty with
      | none => { items := [], valid := false }
      | some array => { items := sort.run array.items, valid := true }

theorem fillArray_items (room : Nat → Bool) (text : Bytes) (found : List (Nat × Nat))
    (array filled : ClientArray) (h : fillArray room text found array = some filled) :
    filled.items
      = array.items ++ found.filterMap fun (tag, stop) => clientOfTag text tag stop := by
  induction found generalizing array with
  | nil =>
      rw [fillArray, Option.some.injEq] at h
      rw [← h, List.filterMap_nil, List.append_nil]
  | cons head rest ih =>
      rcases head with ⟨tag, stop⟩
      rw [fillArray] at h
      cases hclient : clientOfTag text tag stop with
      | none =>
          rw [hclient] at h
          simp only [ih array h, List.filterMap_cons, hclient]
      | some client =>
          simp only [hclient] at h
          cases hpush : array.push room client with
          | none =>
              rw [hpush] at h
              exact absurd h (by simp only [reduceCtorEq, not_false_eq_true])
          | some grown =>
              rw [hpush] at h
              simp only [ih grown h, array.push_items room grown client hpush,
                List.filterMap_cons, hclient, List.append_assoc, List.singleton_append]

theorem fillArray_isSome (room : Nat → Bool) (hroom : ∀ capacity, room capacity = true)
    (text : Bytes) (found : List (Nat × Nat)) (array : ClientArray) :
    (fillArray room text found array).isSome = true := by
  induction found generalizing array with
  | nil => rw [fillArray, Option.isSome_some]
  | cons head rest ih =>
      rcases head with ⟨tag, stop⟩
      rw [fillArray]
      cases clientOfTag text tag stop with
      | none => exact ih array
      | some client =>
          rcases Option.isSome_iff_exists.mp (array.push_isSome room hroom client) with
            ⟨grown, hgrown⟩
          simp only [hgrown]
          exact ih grown

/-- A valid view is the one of an allocator that never refuses. -/
theorem readClientView_valid (room : Nat → Bool) (sort : ClientSort) (file : Option Bytes)
    (h : (readClientView room sort file).valid = true) :
    readClientView room sort file = parseClientView sort file := by
  cases file with
  | none => rfl
  | some contents =>
      unfold readClientView at h ⊢
      cases hfill : fillArray room (cText contents)
          (tags (cText contents) (ascii "<client ")) ClientArray.empty with
      | none =>
          simp only [hfill] at h
          exact absurd h Bool.false_ne_true
      | some array =>
          have hitems := fillArray_items room _ _ _ array hfill
          rw [ClientArray.empty, List.nil_append] at hitems
          simp only [parseClientView, scanClients, hfill, hitems]

/-- A view that is not valid holds nothing. -/
theorem readClientView_invalid (room : Nat → Bool) (sort : ClientSort) (file : Option Bytes)
    (h : (readClientView room sort file).valid = false) :
    (readClientView room sort file).items = [] := by
  cases file with
  | none => rfl
  | some contents =>
      unfold readClientView at h ⊢
      cases hfill : fillArray room (cText contents)
          (tags (cText contents) (ascii "<client ")) ClientArray.empty with
      | none => simp only [hfill]
      | some array =>
          simp only [hfill] at h
          exact absurd h (by simp only [Bool.true_eq_false, not_false_eq_true])

/-! ### The loops of the lookups -/

/-- `while (low < high) …` over the array of a view, every read checked. -/
def lookupLoop (view : ClientView) (mac : Bytes) : Except SearchFault (Option Nat) :=
  searchArray (fun i => view.items[i]?.map fun c => strcasecmp mac c.mac)
    view.items.length 0 view.items.length

/-- `client_present`. -/
def clientPresentChecked (view : ClientView) (mac : Option Bytes) : Except SearchFault Bool :=
  match mac with
  | none => .ok false
  | some mac => do
      let position ← lookupLoop view mac
      return position.isSome

/-- `find_client`: the entry that the returned pointer points to. -/
def findClientChecked (view : ClientView) (mac : Option Bytes) :
    Except SearchFault (Option Client) :=
  match mac with
  | none => .ok none
  | some mac => do
      let position ← lookupLoop view mac
      match position with
      | none => return none
      | some middle =>
          match view.items[middle]? with
          | none => .error (.outside middle)
          | some client => return some client

/-- The loop reads inside the view and ends. -/
theorem lookupLoop_eq (view : ClientView) (mac : Bytes) :
    lookupLoop view mac = .ok (clientPosition view mac) := by
  refine searchArray_eq _ 0 view.items.length view.items.length (fun i _ hi => ?_) (by omega)
  rw [List.getElem?_eq_getElem hi, Option.map_some, Option.isSome_some]

theorem clientPresentChecked_eq (view : ClientView) (mac : Option Bytes) :
    clientPresentChecked view mac = .ok (clientPresent view mac) := by
  cases mac with
  | none => rfl
  | some mac => simp only [clientPresentChecked, lookupLoop_eq, clientPresent]; rfl

theorem findClientChecked_eq (view : ClientView) (hsorted : view.items.Pairwise clientCompare)
    (mac : Option Bytes) : findClientChecked view mac = .ok (findClient view mac) := by
  cases mac with
  | none => rfl
  | some mac =>
      simp only [findClientChecked, lookupLoop_eq, findClient]
      cases hpos : clientPosition view mac with
      | none => rfl
      | some i =>
          -- The position that the loop ended at is one of the view.
          rcases (clientPosition_spec view hsorted mac).1 i hpos with ⟨c, hc, -⟩
          simp only [bind, Except.bind, pure, Except.pure, Option.bind_some, hc]

/-- Both lookups succeed on the same MACs. -/
theorem clientPresent_eq_isSome (view : ClientView)
    (hsorted : view.items.Pairwise clientCompare) (mac : Option Bytes) :
    clientPresent view mac = (findClient view mac).isSome := by
  cases mac with
  | none => rfl
  | some mac =>
      simp only [clientPresent, findClient]
      cases hpos : clientPosition view mac with
      | none => rfl
      | some i =>
          rcases (clientPosition_spec view hsorted mac).1 i hpos with ⟨c, hc, -⟩
          simp only [Option.bind_some, hc, Option.isSome_some]

/-! ### What they find -/

/-- A tag of the text that the parser accepts, with its entry. -/
def IsClientTag (contents : Bytes) (client : Client) : Prop :=
  ∃ tag stop, (tag, stop) ∈ tags (cText contents) (ascii "<client ") ∧
    clientOfTag (cText contents) tag stop = some client

theorem mem_scanClients_iff (contents : Bytes) (client : Client) :
    client ∈ scanClients (cText contents) ↔ IsClientTag contents client := by
  unfold scanClients IsClientTag
  rw [List.mem_filterMap]
  exact ⟨fun ⟨⟨tag, stop⟩, hmem, h⟩ => ⟨tag, stop, hmem, h⟩,
    fun ⟨tag, stop, hmem, h⟩ => ⟨(tag, stop), hmem, h⟩⟩

theorem readClientView_sorted (room : Nat → Bool) (sort : ClientSort) (file : Option Bytes) :
    (readClientView room sort file).items.Pairwise clientCompare := by
  cases hvalid : (readClientView room sort file).valid with
  | true =>
      rw [readClientView_valid room sort file hvalid]
      exact parseClientView_sorted sort file
  | false =>
      rw [readClientView_invalid room sort file hvalid]
      exact List.Pairwise.nil

/-- The entries of a view are the accepted tags, if the view is valid. -/
theorem mem_readClientView (room : Nat → Bool) (sort : ClientSort) (contents : Bytes)
    (client : Client) :
    client ∈ (readClientView room sort (some contents)).items ↔
      (readClientView room sort (some contents)).valid = true ∧ IsClientTag contents client := by
  cases hvalid : (readClientView room sort (some contents)).valid with
  | true =>
      rw [readClientView_valid room sort _ hvalid, mem_parseClientView, mem_scanClients_iff]
      exact ⟨fun h => ⟨rfl, h⟩, fun h => h.2⟩
  | false =>
      rw [readClientView_invalid room sort _ hvalid]
      exact ⟨fun h => absurd h List.not_mem_nil, fun h => absurd h.1 Bool.false_ne_true⟩

/-- The lookups in a view end without a read outside of it and agree. They
    succeed exactly if an accepted tag has the MAC, and give such an entry;
    only a view that did not fit the memory has none. -/
theorem lookups_exact (room : Nat → Bool) (sort : ClientSort) (contents : Bytes)
    (mac : Option Bytes) :
    (∃ found,
      findClientChecked (readClientView room sort (some contents)) mac = .ok found ∧
      clientPresentChecked (readClientView room sort (some contents)) mac = .ok found.isSome ∧
      (∀ client, found = some client →
        IsClientTag contents client ∧ ∃ text, mac = some text ∧ SameMac text client.mac) ∧
      (found.isSome = true ↔
        (readClientView room sort (some contents)).valid = true ∧
          ∃ text client, mac = some text ∧ IsClientTag contents client ∧
            SameMac text client.mac)) ∧
      ((∀ capacity, room capacity = true) →
        (readClientView room sort (some contents)).valid = true) := by
  have hsorted := readClientView_sorted room sort (some contents)
  have hagree := clientPresent_eq_isSome _ hsorted mac
  refine ⟨⟨findClient (readClientView room sort (some contents)) mac,
    findClientChecked_eq _ hsorted mac, hagree ▸ clientPresentChecked_eq _ mac,
    fun client hfound => ?_, ?_⟩, fun hroom => ?_⟩
  · cases mac with
    | none => exact absurd hfound (by simp only [findClient, reduceCtorEq, not_false_eq_true])
    | some text =>
        rcases findClient_eq_some _ hsorted text client hfound with ⟨hmem, hsame⟩
        exact ⟨((mem_readClientView room sort contents client).mp hmem).2, text, rfl, hsame⟩
  · rw [← hagree]
    cases mac with
    | none =>
        refine ⟨fun h => absurd h Bool.false_ne_true, fun h => ?_⟩
        rcases h with ⟨-, _, _, hnone, -⟩
        exact absurd hnone (by simp only [reduceCtorEq, not_false_eq_true])
    | some text =>
        rw [clientPresent_iff _ hsorted text]
        refine ⟨fun h => ?_, fun h => ?_⟩
        · rcases h with ⟨client, hmem, hsame⟩
          rcases (mem_readClientView room sort contents client).mp hmem with ⟨hvalid, hc⟩
          exact ⟨hvalid, text, client, rfl, hc, hsame⟩
        · rcases h with ⟨hvalid, text', client, htext, hc, hsame⟩
          rw [Option.some.injEq] at htext
          exact ⟨client, (mem_readClientView room sort contents client).mpr ⟨hvalid, hc⟩,
            htext ▸ hsame⟩
  · rcases Option.isSome_iff_exists.mp (fillArray_isSome room hroom (cText contents)
      (tags (cText contents) (ascii "<client ")) ClientArray.empty) with ⟨array, harray⟩
    simp only [readClientView, harray]

/-- Two spellings of one MAC are one client, and its tag is found by either. -/
example : (findClient (parseClientView (insertionSortFn clientCompare)
      (some (ascii "<client mac=\"aa:bb:cc:dd:ee:0f\" rssi=\"7\"/>")))
    (some (ascii "AA:BB:CC:DD:EE:0F"))).map (·.snrDb) = some (some 7) := by decide +kernel

end Zd1200
