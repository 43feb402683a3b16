import Zd1200.Monitor.Numbered
import Zd1200.Monitor.Sections

/-!
# Whose Telemetry It Is

When `ingest_ap_detail` stores every sample of a document for the access point
whose child it is.

`Attributable` is what an access point has to satisfy in its section for nothing
to go wrong. In a section under its own MAC it needs children that are read as
they are written, and a number of each radio, since a radio without one takes
the whole listing down. Under another MAC there may be nothing to read of it,
and nothing to store. Documents in which every access point is so are stored
with every sample under its own access point, however they are spelled.

The converse is stated for documents whose samples have distinct keys. With the
same access point or the same radio listed twice, a sample that went astray or
was missed can be replaced by a right one.

## Main definitions

* `Role`: What a child is stored as.
* `ApListing.radios`, `ApListing.links`: The samples that a document has to give.
* `Stored`: What one table has to be afterwards.
* `ApListing.StoresOwn`: Storing a document right.
* `StartTag.Legible`: A tag that is found and read as it is written.
* `ApElement.Attributable`: Nothing goes wrong with an access point.

## Theorems

* `readsAs_iff`: When an attribute is read as it is written.
* `foldl_replaceRow`: What repeated replacing leaves.
* `ingestApDetail_storesOwn`: When a document is stored right.
-/

namespace Zd1200

/-! ### What is to be stored -/

instance (row : DetailRow) : Decidable row.Accepted :=
  match row with
  | .radio radioId _ => inferInstanceAs (Decidable (radioId.isSome = true))
  | .mesh _ => inferInstanceAs (Decidable True)

/-- The sample that a statement inserts. -/
def DetailRow.radioRow? : DetailRow → Option RadioRow
  | .radio _ sample => some sample
  | .mesh _ => none

def DetailRow.meshRow? : DetailRow → Option MeshRow
  | .radio _ _ => none
  | .mesh sample => some sample

/-- The raw value of an attribute. -/
def StartTag.own (tag : StartTag) (name : String) : Option Bytes := tag.value (ascii name)

/-- What a child of an access point is stored as. -/
inductive Role where
  | radio
  | link (direction : Direction)
  deriving DecidableEq

namespace Role

variable (read : String → Option Bytes)

/-- The statement of a child with these values of its attributes. A link needs a
    peer with a valid MAC. -/
def statement (observedAt : Nat) (mac : Bytes) : Role → Option DetailRow
  | radio => some (radioSample read observedAt mac)
  | link direction => meshSample read observedAt mac direction

/-- What tells its sample from others of the access point: the number of a
    radio, the peer and the direction of a link. -/
def key? : Role → Option (Int ⊕ Bytes × Direction)
  | radio => (optionalInt (read "radio-id")).map Sum.inl
  | link direction =>
      ((read "ap").filter fun peer => validMac peer).map fun peer => Sum.inr (peer, direction)

end Role

namespace ApChild

variable (c : ApChild)

def role? : Option Role :=
  if c.tag.name = ascii "radio" then some .radio
  else if c.tag.name = ascii "uplink-ap" then some (.link .uplink)
  else if c.tag.name = ascii "downlink-ap" then some (.link .downlink)
  else none

/-- The key of the sample that a child has to give, if it has to give one. -/
def key? : Option (Int ⊕ Bytes × Direction) := c.role?.bind (Role.key? c.tag.own)

/-- The sample of a child under a MAC. A radio without a number has none. -/
def sample? (observedAt : Nat) (mac : Bytes) : Option DetailRow :=
  (c.role?.bind (Role.statement c.tag.own observedAt mac)).filter fun row => decide row.Accepted

end ApChild

/-- The samples of an access point, under its own MAC. -/
def ApElement.samples (observedAt : Nat) (a : ApElement) : List DetailRow :=
  a.validMac?.toList.flatMap fun mac => a.children.filterMap (ApChild.sample? · observedAt mac)

namespace ApListing

variable (observedAt : Nat) (doc : ApListing)

/-- Every sample under its own access point's MAC. -/
def samples : List DetailRow := doc.aps.flatMap (ApElement.samples observedAt)

def radios : List RadioRow := (doc.samples observedAt).filterMap DetailRow.radioRow?

def links : List MeshRow := (doc.samples observedAt).filterMap DetailRow.meshRow?

end ApListing

/-- Of every key that is wanted there is one row and it is a wanted one; the
    rows with other keys are as before. -/
def Stored {ρ κ : Type} [DecidableEq κ] (key : ρ → κ) (rows rows' wanted : List ρ) : Prop :=
  ∀ k, ((∃ w ∈ wanted, key w = k) →
      ∃ w ∈ wanted, key w = k ∧ (rows'.filter fun r => decide (key r = k)) = [w]) ∧
    ((∀ w ∈ wanted, key w ≠ k) →
      (rows'.filter fun r => decide (key r = k)) = rows.filter fun r => decide (key r = k))

def RadioRow.key (r : RadioRow) : Nat × Bytes × Int := (r.observedAt, r.apMac, r.radioId)

def MeshRow.key (m : MeshRow) : Nat × Bytes × Bytes × Direction :=
  (m.observedAt, m.apMac, m.peerMac, m.direction)

/-- The document is stored with every sample under its own access point. -/
def ApListing.StoresOwn (observedAt : Nat) (doc : ApListing) : Prop :=
  ∀ db, ∃ db', ingestApDetail db (some doc.text) observedAt = some db' ∧
    Stored RadioRow.key db.apRadioSample db'.apRadioSample (doc.radios observedAt) ∧
    Stored MeshRow.key db.meshLinkSample db'.meshLinkSample (doc.links observedAt)

/-! ### How it is spelled -/

/-- The attributes that are read off the tag of a child. -/
def Role.names : Role → List String
  | radio =>
      ["radio-id", "radio-type", "channel", "channelization", "assoc-stas", "noisefloor",
        "avg-rssi", "airtime-total", "airtime-busy", "airtime-rx", "airtime-tx", "rf-samples"]
  | link _ => ["ap", "radio-type", "rssi"]

/-- An attribute has a blank in front of it and no white space around its `=`.
    An empty number need not be read. -/
def StartTag.ReadsAs (tag : StartTag) (name : String) : Prop :=
  ∀ a ∈ tag.attributes, a.name = ascii name →
    a.Spells (ascii name) ∨ a.value = [] ∧ name ≠ "radio-type"

instance (tag : StartTag) (name : String) : Decidable (tag.ReadsAs name) :=
  inferInstanceAs (Decidable (∀ _ ∈ _, _ → _ ∨ _))

/-- The tag is found, and read as it is written. -/
def StartTag.Legible (tag : StartTag) (names : List String) : Prop :=
  tag.Found ∧ ∀ name ∈ names, tag.ReadsAs name

instance (tag : StartTag) (names : List String) : Decidable (tag.Legible names) :=
  inferInstanceAs (Decidable (_ ∧ ∀ _ ∈ _, _))

/-! ### Nothing goes wrong -/

namespace ApChild

variable (c : ApChild)

/-- A sample that the child has to give is read as it is written. A radio that
    is found has a number. -/
def Legible : Prop :=
  ∀ role ∈ c.role?, ((role.key? c.tag.own).isSome = true → c.tag.Legible role.names) ∧
    (role = .radio → c.tag.Found → (role.key? c.tag.own).isSome = true)

/-- There is nothing to read of the child: its tag is not found, or it is a link
    to no valid peer. -/
def Quiet : Prop :=
  c.tag.Found → ∀ role ∈ c.role?, role ≠ .radio ∧ role.key? c.tag.read = none

instance : Decidable c.Legible := inferInstanceAs (Decidable (∀ _ ∈ _, _ ∧ _))

instance : Decidable c.Quiet := inferInstanceAs (Decidable (_ → ∀ _ ∈ _, _))

end ApChild

namespace ApElement

/-- The access point has no valid MAC, or nothing to store. -/
def Silent (a : ApElement) : Prop := a.validMac? = none ∨ ∀ c ∈ a.children, c.key? = none

/-- An access point may be read in a section under this MAC, or under none. -/
def Attributable (mac : Option Bytes) (a : ApElement) : Prop :=
  if mac.isSome = true ∧ a.validMac? = mac then ∀ c ∈ a.children, c.Legible
  else (mac.isSome = true → ∀ c ∈ a.children, c.Quiet) ∧ a.Silent

instance decidableSilent (a : ApElement) : Decidable a.Silent :=
  inferInstanceAs (Decidable (_ ∨ ∀ _ ∈ _, _))

instance decidableAttributable (mac : Option Bytes) (a : ApElement) :
    Decidable (a.Attributable mac) :=
  inferInstanceAs (Decidable (if mac.isSome = true ∧ a.validMac? = mac then
      ∀ c ∈ a.children, c.Legible
    else (mac.isSome = true → ∀ c ∈ a.children, c.Quiet) ∧ a.Silent))

/-- The keys of the samples that an access point has to give, if its MAC is valid. -/
def keys (a : ApElement) : List (Int ⊕ Bytes × Direction) := a.children.filterMap ApChild.key?

end ApElement

/-- Every access point is in a section in which it may be read. -/
def ApListing.Separate (doc : ApListing) : Prop :=
  ∀ pair ∈ owners none doc.aps, pair.2.Attributable (pair.1.bind ApElement.readMac?)

instance (doc : ApListing) : Decidable doc.Separate := inferInstanceAs (Decidable (∀ _ ∈ _, _))

/-- Nothing is listed twice: no two access points have the same valid MAC, no
    access point has two samples with one key, and one without a valid MAC shares
    no key with one that has it. -/
structure ApListing.Distinct (doc : ApListing) : Prop where
  macs : (doc.aps.filterMap ApElement.validMac?).Nodup
  keys : ∀ a ∈ doc.aps, a.keys.Nodup
  nameless : ∀ a ∈ doc.aps, a.validMac? = none → ∀ b ∈ doc.aps, b.validMac? ≠ none →
    a.keys.Disjoint b.keys

/-! ### Replacing rows -/

section Replace

variable {ρ κ : Type} [DecidableEq κ] (key : ρ → κ)

/-- `INSERT OR REPLACE`. -/
def replaceRow (rows : List ρ) (row : ρ) : List ρ :=
  (rows.filter fun r => decide (key r ≠ key row)) ++ [row]

/-- One row takes the place of those with its key. -/
theorem filter_replaceRow (rows : List ρ) (row : ρ) (k : κ) :
    ((replaceRow key rows row).filter fun r => decide (key r = k)) =
      if key row = k then [row] else rows.filter fun r => decide (key r = k) := by
  rw [replaceRow, List.filter_append, List.filter_filter, List.filter_singleton]
  by_cases h : key row = k
  · rw [if_pos h, decide_eq_true h, cond_true]
    have hnone : (rows.filter fun r => decide (key r = k) && decide (key r ≠ key row)) = [] := by
      refine List.filter_eq_nil_iff.mpr fun r _ => ?_
      rw [Bool.and_eq_true, decide_eq_true_eq, decide_eq_true_eq, h]
      exact fun hr => hr.2 hr.1
    rw [hnone, List.nil_append]
  · rw [if_neg h, decide_eq_false h, cond_false, List.append_nil]
    refine List.filter_congr fun r _ => ?_
    by_cases hr : key r = k
    · rw [decide_eq_true hr, Bool.true_and, decide_eq_true]
      rw [hr]
      exact fun heq => h heq.symm
    · rw [decide_eq_false hr, Bool.false_and]

/-- Replacing row after row stores them. -/
theorem foldl_replaceRow (rows wanted : List ρ) :
    Stored key rows (wanted.foldl (replaceRow key) rows) wanted := by
  intro k
  induction wanted using List.reverseRecOn with
  | nil => exact ⟨fun ⟨w, hw, _⟩ => absurd hw List.not_mem_nil, fun _ => rfl⟩
  | append_singleton front w ih =>
      rw [List.foldl_append, List.foldl_cons, List.foldl_nil, filter_replaceRow]
      by_cases h : key w = k
      · rw [if_pos h]
        exact ⟨fun _ => ⟨w, List.mem_append_right _ List.mem_cons_self, h, rfl⟩,
          fun hnone => absurd h (hnone w (List.mem_append_right _ List.mem_cons_self))⟩
      · rw [if_neg h]
        refine ⟨fun hex => ?_, fun hnone => ih.2 fun v hv => hnone v (List.mem_append_left _ hv)⟩
        rcases hex with ⟨v, hv, hk⟩
        rcases List.mem_append.mp hv with hv | hv
        -- The last row has another key, and leaves what the earlier ones have stored.
        · rcases ih.1 ⟨v, hv, hk⟩ with ⟨u, hu, hrest⟩
          exact ⟨u, List.mem_append_left _ hu, hrest⟩
        · rw [List.mem_singleton.mp hv] at hk
          exact absurd hk h

end Replace

theorem RadioRow.sameKey_iff (a b : RadioRow) : a.sameKey b = decide (a.key = b.key) := by
  rw [sameKey, key, key, decide_eq_decide]
  simp only [Prod.mk.injEq]

theorem MeshRow.sameKey_iff (a b : MeshRow) : a.sameKey b = decide (a.key = b.key) := by
  rw [sameKey, key, key, decide_eq_decide]
  simp only [Prod.mk.injEq]

/-- A statement that is accepted replaces a row of its table. -/
theorem putDetail_replaces (db : Db) (row : DetailRow) (h : row.Accepted) :
    ∃ db', putDetail db row = some db' ∧
      db'.apRadioSample = row.radioRow?.toList.foldl (replaceRow RadioRow.key) db.apRadioSample ∧
      db'.meshLinkSample = row.meshRow?.toList.foldl (replaceRow MeshRow.key) db.meshLinkSample := by
  cases row with
  | radio radioId sample =>
      cases radioId with
      | none => exact absurd h Bool.false_ne_true
      | some number =>
          refine ⟨_, rfl, ?_, rfl⟩
          simp only [DetailRow.radioRow?, Option.toList_some, List.foldl_cons, List.foldl_nil,
            replaceRow, RadioRow.sameKey_iff, decide_not, ne_eq]
  | mesh sample =>
      refine ⟨_, rfl, rfl, ?_⟩
      simp only [DetailRow.meshRow?, Option.toList_some, List.foldl_cons, List.foldl_nil,
        replaceRow, MeshRow.sameKey_iff, decide_not, ne_eq]

/-- Statements that are accepted replace row after row. -/
theorem foldlM_putDetail (rows : List DetailRow) (h : ∀ row ∈ rows, row.Accepted) (db : Db) :
    ∃ db', rows.foldlM putDetail db = some db' ∧
      db'.apRadioSample =
        (rows.filterMap DetailRow.radioRow?).foldl (replaceRow RadioRow.key) db.apRadioSample ∧
      db'.meshLinkSample =
        (rows.filterMap DetailRow.meshRow?).foldl (replaceRow MeshRow.key) db.meshLinkSample := by
  induction rows generalizing db with
  | nil => exact ⟨db, rfl, rfl, rfl⟩
  | cons row rows ih =>
      rcases putDetail_replaces db row (h row List.mem_cons_self) with ⟨mid, hput, hradio, hmesh⟩
      rcases ih (fun r hr => h r (List.mem_cons_of_mem _ hr)) mid with ⟨db', hrun, hradio', hmesh'⟩
      refine ⟨db', by rw [List.foldlM_cons, hput]; exact hrun, ?_, ?_⟩
      · rw [hradio', hradio, ← List.foldl_append]
        congr 1
        cases hrow : row.radioRow? with
        | none => rw [List.filterMap_cons_none hrow]; rfl
        | some sample => rw [List.filterMap_cons_some hrow]; rfl
      · rw [hmesh', hmesh, ← List.foldl_append]
        congr 1
        cases hrow : row.meshRow? with
        | none => rw [List.filterMap_cons_none hrow]; rfl
        | some sample => rw [List.filterMap_cons_some hrow]; rfl

/-! ### What is read off a tag -/

section Read

variable {tag : StartTag} (hplain : tag.Plain) {name : String} (hname : name ∈ detailNames)

include hplain hname

/-- The value of the attribute that is spelled as expected is read. -/
theorem read_eq : tag.read name =
    (tag.attributes.find? fun a => decide (a.Spells (ascii name))).map XmlAttribute.value := by
  have hread : ∀ attributes : List XmlAttribute, (∀ a ∈ attributes, a ∈ tag.attributes) →
      readAttr (ascii name) attributes =
        (attributes.find? fun a => decide (a.Spells (ascii name))).map XmlAttribute.value := by
    intro attributes hsub
    induction attributes with
    | nil => rfl
    | cons a rest ih =>
        rcases hplain a (hsub a List.mem_cons_self) with ⟨hopen, hend⟩
        -- In a plain tag neither an earlier name nor an earlier value is taken for it.
        rw [readAttr, List.find?_cons]
        by_cases hspells : a.Spells (ascii name)
        · rw [if_pos hspells, if_neg hopen, decide_eq_true hspells]
          rfl
        · rw [if_neg hspells, if_neg hopen, if_neg (hend name hname), decide_eq_false hspells]
          exact ih fun b hb => hsub b (List.mem_cons_of_mem _ hb)
  exact hread tag.attributes fun _ h => h

/-- Exactly the values of such attributes are read. -/
theorem read_eq_some_iff (value : Bytes) : tag.read name = some value ↔
    ∃ a ∈ tag.attributes, a.Spells (ascii name) ∧ a.value = value := by
  rw [read_eq hplain hname, Option.map_eq_some_iff]
  constructor
  · rintro ⟨a, hfind, hvalue⟩
    have hspells := List.find?_some hfind
    exact ⟨a, List.mem_of_find?_eq_some hfind, of_decide_eq_true hspells, hvalue⟩
  · rintro ⟨a, ha, hspells, hvalue⟩
    cases hfind : tag.attributes.find? fun a => decide (a.Spells (ascii name)) with
    | none => exact absurd (decide_eq_true hspells) (List.find?_eq_none.mp hfind a ha)
    | some b =>
        -- A name stands once in a tag.
        have hb := List.find?_some hfind
        have hsame := List.inj_on_of_nodup_map tag.names_nodup (List.mem_of_find?_eq_some hfind) ha
          ((of_decide_eq_true hb).1.trans hspells.1.symm)
        exact ⟨b, rfl, by rw [hsame, hvalue]⟩

/-- A value that is read is the attribute's own. -/
theorem own_of_read {value : Bytes} (h : tag.read name = some value) :
    tag.own name = some value := by
  rcases (read_eq_some_iff hplain hname value).mp h with ⟨a, ha, hspells, hvalue⟩
  rw [StartTag.own, ← hspells.1, tag.value_of_mem a ha, hvalue]

/-- An attribute is read as it is written: its number is the same, and so is the
    text of a radio's type. -/
theorem readsAs_iff : tag.ReadsAs name ↔
    optionalInt (tag.read name) = optionalInt (tag.own name) ∧
      (name = "radio-type" → tag.read name = tag.own name) := by
  constructor
  · intro h
    cases hown : tag.own name with
    | none =>
        have hread : tag.read name = none := by
          cases hread : tag.read name with
          | none => rfl
          | some value =>
              rw [own_of_read hplain hname hread] at hown
              exact absurd hown (by simp only [reduceCtorEq, not_false_eq_true])
        rw [hread]
        exact ⟨rfl, fun _ => rfl⟩
    | some value =>
        rw [StartTag.own, StartTag.value, Option.map_eq_some_iff] at hown
        rcases hown with ⟨a, hfind, hvalue⟩
        have ha := List.mem_of_find?_eq_some hfind
        have hname' := List.find?_some hfind
        rcases h a ha (of_decide_eq_true hname') with hspells | ⟨hempty, htype⟩
        · rw [(read_eq_some_iff hplain hname value).mpr ⟨a, ha, hspells, hvalue⟩]
          exact ⟨rfl, fun _ => rfl⟩
        · refine ⟨?_, fun heq => absurd heq htype⟩
          rw [← hvalue, hempty]
          cases hread : tag.read name with
          | none => rfl
          | some other =>
              have hother := own_of_read hplain hname hread
              rw [StartTag.own, StartTag.value, hfind, Option.map_some, hempty] at hother
              rw [← Option.some.inj hother]
  · rintro ⟨hnumber, htype⟩ a ha heq
    by_cases hspells : a.Spells (ascii name)
    · exact Or.inl hspells
    · -- Nothing is read, and so there is no number either.
      have hown : tag.own name = some a.value := by
        rw [StartTag.own, ← heq]
        exact tag.value_of_mem a ha
      have hread : tag.read name = none := by
        cases hread : tag.read name with
        | none => rfl
        | some value =>
            rcases (read_eq_some_iff hplain hname value).mp hread with ⟨b, hb, hspellsb, -⟩
            have hsame := List.inj_on_of_nodup_map tag.names_nodup hb ha
              (hspellsb.1.trans heq.symm)
            exact absurd (hsame ▸ hspellsb) hspells
      rw [hread, hown] at hnumber htype
      refine Or.inr ⟨?_, fun h => absurd (htype h) (by simp only [reduceCtorEq, not_false_eq_true])⟩
      by_contra hne
      unfold optionalInt at hnumber
      simp only [if_neg hne, reduceCtorEq] at hnumber

end Read

/-! ### Roles -/

theorem Role.names_read (role : Role) : ∀ name ∈ role.names, name ∈ detailNames := by
  cases role with
  | radio => decide
  | link direction =>
      have hnames : (Role.link direction).names = ["ap", "radio-type", "rssi"] := rfl
      rw [hnames]
      decide

/-- What tells a statement from others under the same MAC. -/
def DetailRow.key : DetailRow → Int ⊕ Bytes × Direction
  | .radio _ sample => .inl sample.radioId
  | .mesh sample => .inr (sample.peerMac, sample.direction)

/-- The MAC that a statement stores a sample under. -/
def DetailRow.apMac : DetailRow → Bytes
  | .radio _ sample => sample.apMac
  | .mesh sample => sample.apMac

namespace Role

variable (role : Role) (read : String → Option Bytes) (observedAt : Nat) (mac : Bytes)

theorem apMac_statement (row : DetailRow) (h : role.statement read observedAt mac = some row) :
    row.apMac = mac := by
  cases role with
  | radio =>
      rw [← Option.some.inj h]
      rfl
  | link direction =>
      rw [statement, meshSample_eq, Option.map_eq_some_iff] at h
      rcases h with ⟨peer, -, rfl⟩
      rfl

/-- A statement that is accepted has the key that was read. -/
theorem key_statement (row : DetailRow) (h : role.statement read observedAt mac = some row)
    (haccepted : row.Accepted) : role.key? read = some row.key := by
  cases role with
  | radio =>
      rw [statement, Option.some.injEq] at h
      rw [← h] at haccepted ⊢
      rcases Option.isSome_iff_exists.mp haccepted with ⟨number, hnumber⟩
      simp only [key?, radioSample, DetailRow.key, hnumber, Option.map_some, Option.getD_some]
  | link direction =>
      rw [statement, meshSample_eq, Option.map_eq_some_iff] at h
      rcases h with ⟨peer, hpeer, rfl⟩
      rw [key?, hpeer, Option.map_some, DetailRow.key]

/-- Where there is a key, there is a statement. -/
theorem statement_key (h : (role.key? read).isSome = true) :
    ∃ row, role.statement read observedAt mac = some row ∧ row.Accepted := by
  cases role with
  | radio =>
      rw [key?, Option.isSome_map] at h
      exact ⟨_, rfl, h⟩
  | link direction =>
      rw [key?, Option.isSome_map] at h
      rcases Option.isSome_iff_exists.mp h with ⟨peer, hpeer⟩
      refine ⟨_, by rw [statement, meshSample_eq, hpeer, Option.map_some], ?_⟩
      trivial

/-- Only the statement of a radio may not be accepted. -/
theorem accepted_link (hne : role ≠ .radio) (row : DetailRow)
    (h : role.statement read observedAt mac = some row) : row.Accepted := by
  cases role with
  | radio => exact absurd rfl hne
  | link direction =>
      rw [statement, meshSample_eq, Option.map_eq_some_iff] at h
      rcases h with ⟨peer, -, rfl⟩
      trivial

section Tag

variable {tag : StartTag} (hplain : tag.Plain)

include hplain

/-- A key that is read is the child's own. -/
theorem key_own {k : Int ⊕ Bytes × Direction} (h : role.key? tag.read = some k) :
    role.key? tag.own = some k := by
  cases role with
  | radio =>
      rw [key?, Option.map_eq_some_iff] at h ⊢
      rcases h with ⟨number, hnumber, rfl⟩
      refine ⟨number, ?_, rfl⟩
      cases hread : tag.read "radio-id" with
      | none =>
          rw [hread] at hnumber
          exact absurd hnumber (by simp only [optionalInt, reduceCtorEq, not_false_eq_true])
      | some value => rwa [own_of_read hplain (by decide) hread, ← hread]
  | link direction =>
      rw [key?, Option.map_eq_some_iff] at h ⊢
      rcases h with ⟨peer, hpeer, rfl⟩
      refine ⟨peer, ?_, rfl⟩
      rw [Option.filter_eq_some_iff] at hpeer ⊢
      exact ⟨own_of_read hplain (by decide) hpeer.1, hpeer.2⟩

/-- Attributes that are read as they are written make the child's own statement. -/
theorem statement_own (hkey : (role.key? tag.own).isSome = true)
    (h : ∀ name ∈ role.names, tag.ReadsAs name) :
    role.statement tag.read observedAt mac = role.statement tag.own observedAt mac := by
  have hreads : ∀ name ∈ role.names, optionalInt (tag.read name) = optionalInt (tag.own name) ∧
      (name = "radio-type" → tag.read name = tag.own name) := fun name hname =>
    (readsAs_iff hplain (role.names_read name hname)).mp (h name hname)
  cases role with
  | radio =>
      have hnumber : ∀ name ∈ Role.radio.names,
          optionalInt (tag.read name) = optionalInt (tag.own name) := fun name hname =>
        (hreads name hname).1
      unfold statement radioSample
      simp only
      rw [(hreads "radio-type" (by decide)).2 rfl, hnumber "radio-id" (by decide),
        hnumber "channel" (by decide), hnumber "channelization" (by decide),
        hnumber "assoc-stas" (by decide), hnumber "noisefloor" (by decide),
        hnumber "avg-rssi" (by decide), hnumber "airtime-total" (by decide),
        hnumber "airtime-busy" (by decide), hnumber "airtime-rx" (by decide),
        hnumber "airtime-tx" (by decide), hnumber "rf-samples" (by decide)]
  | link direction =>
      have hnames : (Role.link direction).names = ["ap", "radio-type", "rssi"] := rfl
      rw [hnames] at h hreads
      have hpeer : (tag.read "ap").filter (fun peer => validMac peer) =
          (tag.own "ap").filter fun peer => validMac peer := by
        rw [key?, Option.isSome_map] at hkey
        rcases Option.isSome_iff_exists.mp hkey with ⟨peer, hpeer⟩
        rw [Option.filter_eq_some_iff] at hpeer
        -- A valid peer is not empty, so it is read.
        cases hread : tag.read "ap" with
        | some value => rw [own_of_read hplain (by decide) hread]
        | none =>
            have hnumber := (hreads "ap" (by decide)).1
            rw [hread, hpeer.1] at hnumber
            by_cases hempty : peer = []
            · rw [hempty] at hpeer
              exact absurd hpeer.2 (by decide)
            · unfold optionalInt at hnumber
              simp only [if_neg hempty, reduceCtorEq] at hnumber
      rw [statement, statement, meshSample_eq, meshSample_eq, hpeer,
        (hreads "radio-type" (by decide)).2 rfl, (hreads "rssi" (by decide)).1]

/-- Statements that store the same sample come of attributes that are read as
    they are written. -/
theorem readsAs_of_statement (row own : DetailRow)
    (hread : role.statement tag.read observedAt mac = some row)
    (hown : role.statement tag.own observedAt mac = some own) (haccepted : row.Accepted)
    (hradio : row.radioRow? = own.radioRow?) (hmesh : row.meshRow? = own.meshRow?) :
    ∀ name ∈ role.names, tag.ReadsAs name := by
  intro name hname
  refine (readsAs_iff hplain (role.names_read name hname)).mpr ?_
  cases role with
  | radio =>
      rw [statement, Option.some.injEq] at hread hown
      have hkey : (optionalInt (tag.read "radio-id")).isSome = true := by
        rw [← hread] at haccepted
        exact haccepted
      -- The number is part of the key, and a key that is read is the child's own.
      have hid : optionalInt (tag.read "radio-id") = optionalInt (tag.own "radio-id") := by
        rcases Option.isSome_iff_exists.mp hkey with ⟨number, hnumber⟩
        have hk : Role.radio.key? tag.read = some (.inl number) := by
          rw [key?, hnumber, Option.map_some]
        have hk' := key_own .radio hplain hk
        rw [key?, Option.map_eq_some_iff] at hk'
        rcases hk' with ⟨number', hnumber', heq⟩
        rw [hnumber, hnumber', Sum.inl.inj heq]
      rw [← hread, ← hown] at hradio
      have hall := Option.some.inj hradio
      simp only [RadioRow.mk.injEq, true_and] at hall
      rcases hall with ⟨-, htype, hchannel, hwidth, hclients, hnoise, hsnr, htotal, hbusy, hrx, htx,
        hsamples⟩
      have hnames : Role.radio.names = ["radio-id", "radio-type", "channel", "channelization",
        "assoc-stas", "noisefloor", "avg-rssi", "airtime-total", "airtime-busy", "airtime-rx",
        "airtime-tx", "rf-samples"] := rfl
      rw [hnames] at hname
      simp only [List.mem_cons, List.not_mem_nil, or_false] at hname
      have htext : ∀ n, n ≠ "radio-type" → optionalInt (tag.read n) = optionalInt (tag.own n) →
          optionalInt (tag.read n) = optionalInt (tag.own n) ∧
            (n = "radio-type" → tag.read n = tag.own n) :=
        fun n hne hnumber => ⟨hnumber, fun heq => absurd heq hne⟩
      rcases hname with rfl | rfl | rfl | rfl | rfl | rfl | rfl | rfl | rfl | rfl | rfl | rfl
      · exact htext _ (by decide) hid
      · exact ⟨by rw [htype], fun _ => htype⟩
      · exact htext _ (by decide) hchannel
      · exact htext _ (by decide) hwidth
      · exact htext _ (by decide) hclients
      · exact htext _ (by decide) hnoise
      · exact htext _ (by decide) hsnr
      · exact htext _ (by decide) htotal
      · exact htext _ (by decide) hbusy
      · exact htext _ (by decide) hrx
      · exact htext _ (by decide) htx
      · exact htext _ (by decide) hsamples
  | link direction =>
      rw [statement, meshSample_eq, Option.map_eq_some_iff] at hread hown
      rcases hread with ⟨peer, hpeer, rfl⟩
      rcases hown with ⟨peer', hpeer', rfl⟩
      rw [Option.filter_eq_some_iff] at hpeer hpeer'
      have hall := Option.some.inj hmesh
      simp only [MeshRow.mk.injEq, true_and] at hall
      rcases hall with ⟨hsame, htype, hsnr⟩
      have hnames : (Role.link direction).names = ["ap", "radio-type", "rssi"] := rfl
      rw [hnames] at hname
      simp only [List.mem_cons, List.not_mem_nil, or_false] at hname
      rcases hname with rfl | rfl | rfl
      · exact ⟨by rw [hpeer.1, hpeer'.1, hsame], fun heq => absurd heq (by decide)⟩
      · exact ⟨by rw [htype], fun _ => htype⟩
      · exact ⟨hsnr, fun heq => absurd heq (by decide)⟩

end Tag

end Role

/-! ### Children -/

namespace ApChild

variable (c : ApChild) (observedAt : Nat) (mac : Bytes)

/-- A child that is found makes its statement. -/
theorem stated_opening : c.opening.stated observedAt mac =
    if c.tag.Found then (c.role?.bind (Role.statement c.tag.read observedAt mac)).toList else [] := by
  have htag : ∀ name, c.opening.tag? name =
      if c.tag.name = name ∧ c.tag.Found then some c.tag else none := fun _ => rfl
  unfold Piece.stated Piece.radio? Piece.link? role?
  rw [htag, htag, htag]
  by_cases hfound : c.tag.Found
  · by_cases hradio : c.tag.name = ascii "radio"
    · have hup : ¬ (c.tag.name = ascii "uplink-ap" ∧ c.tag.Found) := fun h => by
        rw [hradio] at h
        exact absurd h.1 (by decide)
      have hdown : ¬ (c.tag.name = ascii "downlink-ap" ∧ c.tag.Found) := fun h => by
        rw [hradio] at h
        exact absurd h.1 (by decide)
      rw [if_pos ⟨hradio, hfound⟩, if_neg hup, if_neg hdown, if_pos hfound, if_pos hradio]
      rfl
    · rw [if_neg fun h => hradio h.1, if_pos hfound, if_neg hradio]
      by_cases hup : c.tag.name = ascii "uplink-ap"
      · rw [if_pos ⟨hup, hfound⟩, if_pos hup]
        rfl
      · rw [if_neg fun h => hup h.1, if_neg hup]
        by_cases hdown : c.tag.name = ascii "downlink-ap"
        · rw [if_pos ⟨hdown, hfound⟩, if_pos hdown]
          rfl
        · rw [if_neg fun h => hdown h.1, if_neg hdown]
          rfl
  · rw [if_neg fun h => hfound h.2, if_neg fun h => hfound h.2, if_neg fun h => hfound h.2,
      if_neg hfound]
    rfl

theorem mem_stated_iff (row : DetailRow) : row ∈ c.opening.stated observedAt mac ↔
    c.tag.Found ∧ ∃ role, c.role? = some role ∧
      role.statement c.tag.read observedAt mac = some row := by
  rw [stated_opening]
  by_cases hfound : c.tag.Found
  · rw [if_pos hfound, Option.mem_toList, Option.bind_eq_some_iff, and_iff_right hfound]
  · rw [if_neg hfound]
    exact ⟨fun h => absurd h List.not_mem_nil, fun h => absurd h.1 hfound⟩

theorem sample?_eq_some_iff (row : DetailRow) : c.sample? observedAt mac = some row ↔
    ∃ role, c.role? = some role ∧ role.statement c.tag.own observedAt mac = some row ∧
      row.Accepted := by
  rw [sample?, Option.filter_eq_some_iff, Option.bind_eq_some_iff, decide_eq_true_eq]
  constructor
  · rintro ⟨⟨role, hrole, hrow⟩, haccepted⟩
    exact ⟨role, hrole, hrow, haccepted⟩
  · rintro ⟨role, hrole, hrow, haccepted⟩
    exact ⟨⟨role, hrole, hrow⟩, haccepted⟩

theorem apMac_of_stated (row : DetailRow) (h : row ∈ c.opening.stated observedAt mac) :
    row.apMac = mac := by
  rcases (c.mem_stated_iff observedAt mac row).mp h with ⟨-, role, -, hrow⟩
  exact role.apMac_statement _ observedAt mac row hrow

/-- A statement that is accepted has the child's own key. -/
theorem key_of_stated (row : DetailRow) (h : row ∈ c.opening.stated observedAt mac)
    (haccepted : row.Accepted) : c.key? = some row.key := by
  rcases (c.mem_stated_iff observedAt mac row).mp h with ⟨-, role, hrole, hrow⟩
  rw [key?, hrole, Option.bind_some]
  exact role.key_own c.tag_plain (role.key_statement _ observedAt mac row hrow haccepted)

theorem key_of_sample (row : DetailRow) (h : c.sample? observedAt mac = some row) :
    c.key? = some row.key := by
  rcases (c.sample?_eq_some_iff observedAt mac row).mp h with ⟨role, hrole, hrow, haccepted⟩
  rw [key?, hrole, Option.bind_some]
  exact role.key_statement _ observedAt mac row hrow haccepted

theorem apMac_of_sample (row : DetailRow) (h : c.sample? observedAt mac = some row) :
    row.apMac = mac := by
  rcases (c.sample?_eq_some_iff observedAt mac row).mp h with ⟨role, -, hrow, -⟩
  exact role.apMac_statement _ observedAt mac row hrow

theorem accepted_sample (row : DetailRow) (h : c.sample? observedAt mac = some row) :
    row.Accepted := by
  rcases (c.sample?_eq_some_iff observedAt mac row).mp h with ⟨-, -, -, haccepted⟩
  exact haccepted

/-- A child with a key has a sample. -/
theorem exists_sample (h : c.key? ≠ none) : ∃ row, c.sample? observedAt mac = some row := by
  rw [key?, Option.ne_none_iff_isSome] at h
  rcases Option.isSome_iff_exists.mp h with ⟨k, hk⟩
  rcases Option.bind_eq_some_iff.mp hk with ⟨role, hrole, hkey⟩
  rcases role.statement_key c.tag.own observedAt mac (by rw [hkey]; rfl) with ⟨row, hrow, haccepted⟩
  exact ⟨row, (c.sample?_eq_some_iff observedAt mac row).mpr ⟨role, hrole, hrow, haccepted⟩⟩

/-- A child without a key has no sample. -/
theorem sample?_of_key_none (h : c.key? = none) : c.sample? observedAt mac = none := by
  cases hsample : c.sample? observedAt mac with
  | none => rfl
  | some row =>
      rw [c.key_of_sample observedAt mac row hsample] at h
      exact absurd h (by simp only [reduceCtorEq, not_false_eq_true])

/-- A child states nothing exactly if there is nothing to read of it. -/
theorem stated_eq_nil_iff : c.opening.stated observedAt mac = [] ↔ c.Quiet := by
  rw [stated_opening, Quiet]
  by_cases hfound : c.tag.Found
  · rw [if_pos hfound, Option.toList_eq_nil_iff, imp_iff_right hfound]
    cases c.role? with
    | none => exact ⟨fun _ role hrole => absurd hrole (Option.not_mem_none role), fun _ => rfl⟩
    | some role =>
        rw [Option.bind_some]
        simp only [Option.mem_some_iff, forall_eq']
        cases role with
        | radio =>
            exact ⟨fun h => absurd h (by simp only [Role.statement, reduceCtorEq, not_false_eq_true]),
              fun h => absurd rfl h.1⟩
        | link direction =>
            rw [Role.statement, meshSample_eq, Option.map_eq_none_iff, Role.key?,
              Option.map_eq_none_iff]
            exact ⟨fun h => ⟨by simp only [ne_eq, reduceCtorEq, not_false_eq_true], h⟩, fun h => h.2⟩
  · rw [if_neg hfound]
    exact ⟨fun _ h => absurd h hfound, fun _ => rfl⟩

/-- A child that is legible states the sample that it has to give. -/
theorem stated_of_legible (h : c.Legible) :
    c.opening.stated observedAt mac = (c.sample? observedAt mac).toList := by
  rw [stated_opening, sample?]
  cases hrole : c.role? with
  | none =>
      rw [Option.bind_none]
      split
      · rfl
      · rfl
  | some role =>
      rcases h role hrole with ⟨hlegible, hradio⟩
      rw [Option.bind_some, Option.bind_some]
      by_cases hkey : (role.key? c.tag.own).isSome = true
      · rcases hlegible hkey with ⟨hfound, hreads⟩
        rcases role.statement_key c.tag.own observedAt mac hkey with ⟨row, hrow, haccepted⟩
        rw [if_pos hfound, role.statement_own observedAt mac c.tag_plain hkey hreads, hrow,
          Option.filter_some, decide_eq_true haccepted]
        rfl
      · -- There is nothing to store, and nothing is read.
        have hown : ∀ row, role.statement c.tag.own observedAt mac = some row → ¬ row.Accepted :=
          fun row hrow haccepted => hkey (by
            rw [role.key_statement _ observedAt mac row hrow haccepted]
            rfl)
        have hnone : (role.statement c.tag.own observedAt mac).filter
            (fun row => decide row.Accepted) = none :=
          Option.filter_eq_none_iff.mpr fun row hrow => by
            rw [decide_eq_true_eq]
            exact hown row hrow
        rw [hnone]
        by_cases hfound : c.tag.Found
        · rw [if_pos hfound]
          have hlink : role ≠ .radio := fun heq => hkey (hradio heq hfound)
          cases hrow : role.statement c.tag.read observedAt mac with
          | none => rfl
          | some row =>
              have haccepted := role.accepted_link _ observedAt mac hlink row hrow
              have hk := role.key_own c.tag_plain
                (role.key_statement _ observedAt mac row hrow haccepted)
              rw [hk] at hkey
              exact absurd rfl hkey
        · rw [if_neg hfound]
          rfl

/-- A child is legible if what it states is accepted, and stores the sample that
    it has to give. -/
theorem legible_of_stated
    (haccepted : ∀ row ∈ c.opening.stated observedAt mac, row.Accepted)
    (hsample : ∀ own, c.sample? observedAt mac = some own → ∃ row ∈ c.opening.stated observedAt mac,
      row.radioRow? = own.radioRow? ∧ row.meshRow? = own.meshRow?) : c.Legible := by
  intro role hrole
  refine ⟨fun hkey => ?_, fun hradio hfound => ?_⟩
  · rcases role.statement_key c.tag.own observedAt mac hkey with ⟨own, hown, hok⟩
    rcases hsample own ((c.sample?_eq_some_iff observedAt mac own).mpr ⟨role, hrole, hown, hok⟩) with
      ⟨row, hrow, hsameRadio, hsameMesh⟩
    rcases (c.mem_stated_iff observedAt mac row).mp hrow with ⟨hfound, role', hrole', hread⟩
    rw [hrole] at hrole'
    rw [← Option.some.inj hrole'] at hread
    exact ⟨hfound, role.readsAs_of_statement observedAt mac c.tag_plain row own hread hown
      (haccepted row hrow) hsameRadio hsameMesh⟩
  · have hrow : radioSample c.tag.read observedAt mac ∈ c.opening.stated observedAt mac :=
      (c.mem_stated_iff observedAt mac _).mpr ⟨hfound, role, hrole, by rw [hradio]; rfl⟩
    have hkey := c.key_of_stated observedAt mac _ hrow (haccepted _ hrow)
    rw [key?, hrole, Option.bind_some] at hkey
    rw [hkey]
    rfl

end ApChild

/-! ### Storing a document -/

theorem cText_of_plain (text : Bytes) (h : 0 ∉ text) : cText text = text :=
  List.takeWhile_eq_self_iff.mpr fun _ hc => decide_eq_true fun heq => h (heq ▸ hc)

theorem ApElement.mem_samples_iff (a : ApElement) (observedAt : Nat) (row : DetailRow) :
    row ∈ a.samples observedAt ↔
      ∃ mac, a.validMac? = some mac ∧ ∃ c ∈ a.children, c.sample? observedAt mac = some row := by
  rw [samples, List.mem_flatMap]
  simp only [Option.mem_toList, List.mem_filterMap]

theorem mem_pairStated_iff (observedAt : Nat) (pair : Option ApElement × ApElement) (row : DetailRow) :
    row ∈ pairStated observedAt pair ↔ ∃ mac, pair.1.bind ApElement.readMac? = some mac ∧
      ∃ c ∈ pair.2.children, row ∈ c.opening.stated observedAt mac := by
  rw [pairStated, List.mem_flatMap]
  simp only [Option.mem_toList, List.mem_flatMap]

theorem ApListing.accepted_samples (doc : ApListing) (observedAt : Nat) :
    ∀ row ∈ doc.samples observedAt, row.Accepted := by
  intro row hrow
  rcases List.mem_flatMap.mp hrow with ⟨a, -, hin⟩
  rcases (a.mem_samples_iff observedAt row).mp hin with ⟨mac, -, c, -, hsample⟩
  exact c.accepted_sample observedAt mac row hsample

/-- An access point that is silent has nothing to store. -/
theorem ApElement.samples_of_silent (a : ApElement) (observedAt : Nat) (h : a.Silent) :
    a.samples observedAt = [] := by
  rw [List.eq_nil_iff_forall_not_mem]
  intro row hrow
  rcases (a.mem_samples_iff observedAt row).mp hrow with ⟨mac, hmac, c, hc, hsample⟩
  rcases h with hnone | hkeys
  · rw [hnone] at hmac
    exact absurd hmac (by simp only [reduceCtorEq, not_false_eq_true])
  · rw [c.sample?_of_key_none observedAt mac (hkeys c hc)] at hsample
    exact absurd hsample (by simp only [reduceCtorEq, not_false_eq_true])

/-- An access point that may be read in a section states its own samples there. -/
theorem pairStated_of_attributable (observedAt : Nat) (pair : Option ApElement × ApElement)
    (h : pair.2.Attributable (pair.1.bind ApElement.readMac?)) :
    pairStated observedAt pair = pair.2.samples observedAt := by
  unfold ApElement.Attributable at h
  rw [pairStated]
  split at h
  · next hown =>
    rw [ApElement.samples, hown.2]
    refine List.flatMap_congr fun mac _ => ?_
    rw [List.filterMap_eq_flatMap_toList]
    exact List.flatMap_congr fun c hc => c.stated_of_legible observedAt mac (h c hc)
  · rcases h with ⟨hquiet, hsilent⟩
    rw [pair.2.samples_of_silent observedAt hsilent]
    refine List.flatMap_eq_nil_iff.mpr fun mac hmac => List.flatMap_eq_nil_iff.mpr fun c hc => ?_
    refine (c.stated_eq_nil_iff observedAt mac).mpr (hquiet ?_ c hc)
    rw [Option.mem_toList.mp hmac]
    rfl

/-- Where every access point may be read, what is stated are the samples. -/
theorem flatMap_pairStated_separate (doc : ApListing) (observedAt : Nat) (h : doc.Separate) :
    (owners none doc.aps).flatMap (pairStated observedAt) = doc.samples observedAt := by
  have hsnd := owners_snd none doc.aps
  rw [Option.toList_none, List.flatMap_nil, List.nil_append] at hsnd
  calc (owners none doc.aps).flatMap (pairStated observedAt)
      = (owners none doc.aps).flatMap fun pair => pair.2.samples observedAt :=
        List.flatMap_congr fun pair hpair => pairStated_of_attributable observedAt pair (h pair hpair)
    _ = ((owners none doc.aps).map Prod.snd).flatMap (ApElement.samples observedAt) := by
        rw [List.flatMap_map]
    _ = doc.samples observedAt := by rw [hsnd, ApListing.samples]

theorem storesOwn_of_separate (doc : ApListing) (hnul : 0 ∉ doc.text) (observedAt : Nat)
    (hseparate : doc.Separate) : doc.StoresOwn observedAt := by
  intro db
  have hstated := flatMap_pairStated_separate doc observedAt hseparate
  have haccepted : ∀ row ∈ detailRows doc.text observedAt, row.Accepted := by
    intro row hrow
    refine doc.accepted_samples observedAt row ?_
    rw [← hstated]
    exact List.mem_flatMap.mpr ((mem_detailRows doc observedAt row).mp hrow)
  have hradios : (detailRows doc.text observedAt).filterMap DetailRow.radioRow? =
      doc.radios observedAt := by
    rw [filterMap_detailRows DetailRow.radioRow? (Or.inl fun _ => rfl), ApListing.radios, ← hstated,
      List.filterMap_flatMap]
  have hlinks : (detailRows doc.text observedAt).filterMap DetailRow.meshRow? =
      doc.links observedAt := by
    rw [filterMap_detailRows DetailRow.meshRow? (Or.inr fun _ _ => rfl), ApListing.links, ← hstated,
      List.filterMap_flatMap]
  rcases foldlM_putDetail _ haccepted db with ⟨db', hrun, hradio, hmesh⟩
  refine ⟨db', by rw [ingestApDetail, cText_of_plain doc.text hnul]; exact hrun, ?_, ?_⟩
  · rw [hradio, hradios]
    exact foldl_replaceRow RadioRow.key _ _
  · rw [hmesh, hlinks]
    exact foldl_replaceRow MeshRow.key _ _

section Stored

variable {ρ κ : Type} [DecidableEq κ] (key : ρ → κ) (rows wanted stated : List ρ)
  (h : Stored key [] rows wanted) (h' : Stored key [] rows stated)

include h h'

/-- One table cannot store two different sets of keys. -/
theorem stored_keys (v : ρ) (hv : v ∈ stated) : ∃ w ∈ wanted, key w = key v := by
  by_contra hnone
  have hempty := (h (key v)).2 fun w hw heq => hnone ⟨w, hw, heq⟩
  rcases (h' (key v)).1 ⟨v, hv, rfl⟩ with ⟨u, -, -, hu⟩
  rw [hu] at hempty
  exact absurd hempty (by simp only [List.filter_nil, reduceCtorEq, not_false_eq_true])

/-- Of a key that is wanted, what is stored is both wanted and stated. -/
theorem stored_both (w : ρ) (hw : w ∈ wanted) : ∃ u ∈ wanted, u ∈ stated ∧ key u = key w := by
  rcases (h (key w)).1 ⟨w, hw, rfl⟩ with ⟨u, hu, hkey, hstored⟩
  -- The same row is what both lists leave for this key.
  rcases stored_keys key rows stated wanted h' h w hw with ⟨v, hv, hkey'⟩
  rcases (h' (key w)).1 ⟨v, hv, hkey'⟩ with ⟨u', hu', -, hstored'⟩
  rw [hstored, List.cons.injEq] at hstored'
  exact ⟨u, hu, hstored'.1 ▸ hu', hkey⟩

end Stored

theorem DetailRow.radioRow?_eq_some_iff (row : DetailRow) (sample : RadioRow) :
    row.radioRow? = some sample ↔ ∃ number, row = .radio number sample := by
  cases row with
  | radio number own =>
      simp only [radioRow?, Option.some.injEq, radio.injEq, exists_eq_left', eq_comm]
  | mesh own => simp only [radioRow?, reduceCtorEq, exists_false]

theorem DetailRow.meshRow?_eq_some_iff (row : DetailRow) (sample : MeshRow) :
    row.meshRow? = some sample ↔ row = .mesh sample := by
  cases row with
  | radio number own => simp only [meshRow?, reduceCtorEq]
  | mesh own => simp only [meshRow?, Option.some.injEq, mesh.injEq]

/-- Two statements of one sample, or of samples with one key. -/
def DetailRow.SameKey (row other : DetailRow) : Prop := row.apMac = other.apMac ∧ row.key = other.key

def DetailRow.SameSample (row other : DetailRow) : Prop :=
  row.radioRow? = other.radioRow? ∧ row.meshRow? = other.meshRow?

theorem DetailRow.SameSample.sameKey {row other : DetailRow} (h : row.SameSample other) :
    row.SameKey other := by
  cases row with
  | radio number sample =>
      rcases (other.radioRow?_eq_some_iff sample).mp h.1.symm with ⟨number', rfl⟩
      exact ⟨rfl, rfl⟩
  | mesh sample =>
      rw [(other.meshRow?_eq_some_iff sample).mp h.2.symm]
      exact ⟨rfl, rfl⟩

/-- What a document states that is stored right: only keys that are wanted, and
    of each of these a sample that is wanted. -/
theorem stated_of_storesOwn (doc : ApListing) (hnul : 0 ∉ doc.text) (observedAt : Nat)
    (h : doc.StoresOwn observedAt) :
    (∀ row ∈ detailRows doc.text observedAt, row.Accepted ∧
        ∃ own ∈ doc.samples observedAt, own.SameKey row) ∧
      ∀ own ∈ doc.samples observedAt, ∃ row ∈ detailRows doc.text observedAt,
        ∃ other ∈ doc.samples observedAt, other.SameKey own ∧ row.SameSample other := by
  rcases h emptyDb with ⟨db', hrun, hradio, hmesh⟩
  rw [ingestApDetail, cText_of_plain doc.text hnul] at hrun
  have haccepted : ∀ row ∈ detailRows doc.text observedAt, row.Accepted :=
    (foldlM_isSome_iff putDetail DetailRow.Accepted putDetail_isSome_iff _ emptyDb).mp
      (by rw [hrun]; rfl)
  rcases foldlM_putDetail _ haccepted emptyDb with ⟨db'', hrun', hradio', hmesh'⟩
  rw [hrun, Option.some.injEq] at hrun'
  subst hrun'
  have hradios : Stored RadioRow.key [] db'.apRadioSample
      ((detailRows doc.text observedAt).filterMap DetailRow.radioRow?) := by
    rw [hradio']
    exact foldl_replaceRow RadioRow.key _ _
  have hlinks : Stored MeshRow.key [] db'.meshLinkSample
      ((detailRows doc.text observedAt).filterMap DetailRow.meshRow?) := by
    rw [hmesh']
    exact foldl_replaceRow MeshRow.key _ _
  -- The rows of one document have one time, so the key of a row is that of its statement.
  have hradioKey : ∀ (r s : RadioRow) (n m : Option Int), r.key = s.key →
      (DetailRow.radio n r).SameKey (.radio m s) := by
    intro r s n m hkey
    simp only [RadioRow.key, Prod.mk.injEq] at hkey
    exact ⟨hkey.2.1, congrArg Sum.inl hkey.2.2⟩
  have hmeshKey : ∀ r s : MeshRow, r.key = s.key → (DetailRow.mesh r).SameKey (.mesh s) := by
    intro r s hkey
    simp only [MeshRow.key, Prod.mk.injEq] at hkey
    exact ⟨hkey.2.1, by rw [DetailRow.key, DetailRow.key, hkey.2.2.1, hkey.2.2.2]⟩
  refine ⟨fun row hrow => ⟨haccepted row hrow, ?_⟩, fun own hown => ?_⟩
  · cases row with
    | radio number sample =>
        rcases stored_keys RadioRow.key _ _ _ hradio hradios sample
          (List.mem_filterMap.mpr ⟨_, hrow, rfl⟩) with ⟨w, hw, hkey⟩
        rcases List.mem_filterMap.mp hw with ⟨own, hown, heq⟩
        rcases (own.radioRow?_eq_some_iff w).mp heq with ⟨number', rfl⟩
        exact ⟨_, hown, hradioKey w sample number' number hkey⟩
    | mesh sample =>
        rcases stored_keys MeshRow.key _ _ _ hmesh hlinks sample
          (List.mem_filterMap.mpr ⟨_, hrow, rfl⟩) with ⟨w, hw, hkey⟩
        rcases List.mem_filterMap.mp hw with ⟨own, hown, heq⟩
        rw [own.meshRow?_eq_some_iff] at heq
        subst heq
        exact ⟨_, hown, hmeshKey w sample hkey⟩
  · cases own with
    | radio number sample =>
        rcases stored_both RadioRow.key _ _ _ hradio hradios sample
          (List.mem_filterMap.mpr ⟨_, hown, rfl⟩) with ⟨u, hu, hu', hkey⟩
        rcases List.mem_filterMap.mp hu with ⟨other, hother, heq⟩
        rcases List.mem_filterMap.mp hu' with ⟨row, hrow, heq'⟩
        rcases (other.radioRow?_eq_some_iff u).mp heq with ⟨n, rfl⟩
        rcases (row.radioRow?_eq_some_iff u).mp heq' with ⟨m, rfl⟩
        exact ⟨_, hrow, _, hother, hradioKey u sample n number hkey, rfl, rfl⟩
    | mesh sample =>
        rcases stored_both MeshRow.key _ _ _ hmesh hlinks sample
          (List.mem_filterMap.mpr ⟨_, hown, rfl⟩) with ⟨u, hu, hu', hkey⟩
        rcases List.mem_filterMap.mp hu with ⟨other, hother, heq⟩
        rcases List.mem_filterMap.mp hu' with ⟨row, hrow, heq'⟩
        rw [other.meshRow?_eq_some_iff] at heq
        rw [row.meshRow?_eq_some_iff] at heq'
        subst heq heq'
        exact ⟨_, hrow, _, hother, hmeshKey u sample hkey, rfl, rfl⟩

theorem eq_of_filterMap_nodup {α β : Type} (f : α → Option β) (xs : List α)
    (h : (xs.filterMap f).Nodup) (x y : α) (hx : x ∈ xs) (hy : y ∈ xs) (z : β) (hfx : f x = some z)
    (hfy : f y = some z) : x = y := by
  induction xs with
  | nil => exact absurd hx List.not_mem_nil
  | cons w xs ih =>
      rcases List.mem_cons.mp hx with rfl | hx'
      · rcases List.mem_cons.mp hy with rfl | hy'
        · rfl
        · rw [List.filterMap_cons_some hfx, List.nodup_cons] at h
          exact absurd (List.mem_filterMap.mpr ⟨y, hy', hfy⟩) h.1
      · rcases List.mem_cons.mp hy with rfl | hy'
        · rw [List.filterMap_cons_some hfy, List.nodup_cons] at h
          exact absurd (List.mem_filterMap.mpr ⟨x, hx', hfx⟩) h.1
        · refine ih ?_ hx' hy'
          cases hw : f w with
          | none => rwa [List.filterMap_cons_none hw] at h
          | some v =>
              rw [List.filterMap_cons_some hw, List.nodup_cons] at h
              exact h.2

/-- A MAC that is read and valid is the access point's own. -/
theorem ApElement.validMac_of_read (a : ApElement) (mac : Bytes) (h : a.readMac? = some mac) :
    a.validMac? = some mac := by
  rw [readMac?, Option.filter_eq_some_iff] at h
  rw [validMac?, Option.filter_eq_some_iff]
  exact ⟨own_of_read a.tag_plain (by decide) h.1, h.2⟩

section Distinct

variable {doc : ApListing} {observedAt : Nat} (hdistinct : doc.Distinct)

include hdistinct

/-- A sample that is wanted tells which child of which access point has to give it. -/
theorem child_of_sample (own : DetailRow) (hown : own ∈ doc.samples observedAt) (a : ApElement)
    (ha : a ∈ doc.aps) (hmac : a.validMac? = some own.apMac) (c : ApChild) (hc : c ∈ a.children)
    (hkey : c.key? = some own.key) : c.sample? observedAt own.apMac = some own := by
  rcases List.mem_flatMap.mp hown with ⟨b, hb, hin⟩
  rcases (b.mem_samples_iff observedAt own).mp hin with ⟨mac, hmac', d, hd, hsample⟩
  have hsame : mac = own.apMac := (d.apMac_of_sample observedAt mac own hsample).symm
  subst hsame
  have hab := eq_of_filterMap_nodup _ doc.aps hdistinct.macs b a hb ha _ hmac' hmac
  subst hab
  have hcd := eq_of_filterMap_nodup _ b.children (hdistinct.keys b hb) d c hd hc _
    (d.key_of_sample observedAt _ own hsample) hkey
  rwa [← hcd]

variable (hnul : 0 ∉ doc.text) (hstores : doc.StoresOwn observedAt)

include hnul hstores

/-- An access point with something to store is in a section under its own MAC. -/
theorem section_of_loud (first : Option ApElement) (a : ApElement)
    (hpair : (first, a) ∈ owners none doc.aps) (mac : Bytes) (hmac : a.validMac? = some mac)
    (c : ApChild) (hc : c ∈ a.children) (hkey : c.key? ≠ none) :
    first.bind ApElement.readMac? = some mac := by
  have ha := mem_owners_snd doc.aps _ hpair
  rcases c.exists_sample observedAt mac hkey with ⟨own, hsample⟩
  have hown : own ∈ doc.samples observedAt :=
    List.mem_flatMap.mpr ⟨a, ha, (a.mem_samples_iff observedAt own).mpr ⟨mac, hmac, c, hc, hsample⟩⟩
  rcases (stated_of_storesOwn doc hnul observedAt hstores).2 own hown with
    ⟨row, hrow, other, -, hother, hrowOther⟩
  -- Somebody's section has this MAC.
  rcases (mem_detailRows doc observedAt row).mp hrow with ⟨pair, hpairRow, hstated⟩
  rcases (mem_pairStated_iff observedAt pair row).mp hstated with ⟨mac', hfirst, d, -, hd⟩
  have hsame : mac' = mac := by
    rw [← d.apMac_of_stated observedAt mac' row hd, hrowOther.sameKey.1, hother.1,
      c.apMac_of_sample observedAt mac own hsample]
  subst hsame
  rcases Option.bind_eq_some_iff.mp hfirst with ⟨o, ho, hread⟩
  have hself : (some o, o) ∈ owners none doc.aps :=
    owner_mem_owners none doc.aps (fun s hs => absurd hs (Option.not_mem_none s)) o pair.2
      (by rw [← ho]; exact hpairRow)
  have hoa := eq_of_filterMap_nodup _ doc.aps hdistinct.macs o a (mem_owners_snd doc.aps _ hself) ha
    mac' (o.validMac_of_read mac' hread) hmac
  subst hoa
  -- It is in one section only.
  have hnodup : ((owners none doc.aps).filterMap fun p => p.2.validMac?).Nodup := by
    have hmap : (owners none doc.aps).filterMap (fun p => p.2.validMac?) =
        ((owners none doc.aps).map Prod.snd).filterMap ApElement.validMac? := by
      rw [List.filterMap_map]
      rfl
    rw [hmap, owners_snd, Option.toList_none, List.flatMap_nil, List.nil_append]
    exact hdistinct.macs
  have hpairs := eq_of_filterMap_nodup _ _ hnodup (first, o) (some o, o) hpair hself mac' hmac hmac
  rw [Prod.mk.injEq] at hpairs
  rw [hpairs.1, Option.bind_some, hread]

/-- The statement that stores a wanted sample comes from the child that has to
    give it. -/
theorem stated_by_child (a : ApElement) (ha : a ∈ doc.aps) (mac : Bytes)
    (hmac : a.validMac? = some mac) (c : ApChild) (hc : c ∈ a.children) (own : DetailRow)
    (hsample : c.sample? observedAt mac = some own) :
    ∃ row ∈ c.opening.stated observedAt mac, row.SameSample own := by
  have hkey := c.key_of_sample observedAt mac own hsample
  have hapMac := c.apMac_of_sample observedAt mac own hsample
  have hown : own ∈ doc.samples observedAt :=
    List.mem_flatMap.mpr ⟨a, ha, (a.mem_samples_iff observedAt own).mpr ⟨mac, hmac, c, hc, hsample⟩⟩
  have hall := stated_of_storesOwn doc hnul observedAt hstores
  rcases hall.2 own hown with ⟨row, hrow, other, hin, hother, hrowOther⟩
  -- Keys are distinct, so the sample that is stored is the wanted one.
  have hotherOwn : other = own := by
    have h := child_of_sample hdistinct other hin a ha (by rw [hother.1, hapMac, hmac]) c hc
      (by rw [hother.2, hkey])
    rw [hother.1, hapMac, hsample] at h
    exact (Option.some.inj h).symm
  subst hotherOwn
  rcases (mem_detailRows doc observedAt row).mp hrow with ⟨pair, hpair, hstated⟩
  rcases (mem_pairStated_iff observedAt pair row).mp hstated with ⟨mac', hfirst, d, hd, hdrow⟩
  have hsame : mac' = mac := by
    rw [← d.apMac_of_stated observedAt mac' row hdrow, hrowOther.sameKey.1, hapMac]
  subst hsame
  have hdkey := d.key_of_stated observedAt mac' row hdrow (hall.1 row hrow).1
  rw [hrowOther.sameKey.2] at hdkey
  have hb := mem_owners_snd doc.aps pair hpair
  -- Whose child is it?
  cases hvalid : pair.2.validMac? with
  | none =>
      exact absurd (List.mem_filterMap.mpr ⟨c, hc, hkey⟩)
        (hdistinct.nameless pair.2 hb hvalid a ha (by rw [hmac]; exact Option.some_ne_none _)
          (List.mem_filterMap.mpr ⟨d, hd, hdkey⟩))
  | some mac'' =>
      -- An access point with a MAC of its own is read in its own section.
      have hsection := section_of_loud hdistinct hnul hstores pair.1 pair.2 hpair mac'' hvalid d hd
        (by rw [hdkey]; exact Option.some_ne_none _)
      rw [hfirst, Option.some.injEq] at hsection
      rw [← hsection] at hvalid
      have hba := eq_of_filterMap_nodup _ doc.aps hdistinct.macs pair.2 a hb ha mac' hvalid hmac
      rw [hba] at hd
      have hdc := eq_of_filterMap_nodup _ a.children (hdistinct.keys a ha) d c hd hc _ hdkey hkey
      exact ⟨row, hdc ▸ hdrow, hrowOther⟩

theorem separate_of_storesOwn : doc.Separate := by
  have hall := stated_of_storesOwn doc hnul observedAt hstores
  intro pair hpair
  have ha := mem_owners_snd doc.aps pair hpair
  have hin : ∀ mac, pair.1.bind ApElement.readMac? = some mac → ∀ c ∈ pair.2.children,
      ∀ row ∈ c.opening.stated observedAt mac, row ∈ detailRows doc.text observedAt :=
    fun mac hmac c hc row hrow => (mem_detailRows doc observedAt row).mpr
      ⟨pair, hpair, (mem_pairStated_iff observedAt pair row).mpr ⟨mac, hmac, c, hc, hrow⟩⟩
  unfold ApElement.Attributable
  split
  · next hown =>
    rcases Option.isSome_iff_exists.mp hown.1 with ⟨mac, hmac⟩
    rw [hmac] at hown
    exact fun c hc => c.legible_of_stated observedAt mac
      (fun row hrow => (hall.1 row (hin mac hmac c hc row hrow)).1)
      fun own hsample => stated_by_child hdistinct hnul hstores pair.2 ha mac hown.2 c hc own hsample
  · next hother =>
    have hsilent : pair.2.Silent := by
      cases hvalid : pair.2.validMac? with
      | none => exact Or.inl hvalid
      | some mac =>
          refine Or.inr fun c hc => ?_
          by_contra hkey
          have hsection :=
            section_of_loud hdistinct hnul hstores pair.1 pair.2 hpair mac hvalid c hc hkey
          exact hother ⟨by rw [hsection]; rfl, by rw [hvalid, hsection]⟩
    refine ⟨fun hsome c hc => ?_, hsilent⟩
    rcases Option.isSome_iff_exists.mp hsome with ⟨mac, hmac⟩
    rw [← c.stated_eq_nil_iff observedAt mac, List.eq_nil_iff_forall_not_mem]
    intro row hrow
    rcases hall.1 row (hin mac hmac c hc row hrow) with ⟨haccepted, own, hown, hsame⟩
    have hkey := c.key_of_stated observedAt mac row hrow haccepted
    rcases hsilent with hnone | hkeys
    · -- Somebody else has to give a sample with this key.
      rcases List.mem_flatMap.mp hown with ⟨b, hb, hsamples⟩
      rcases (b.mem_samples_iff observedAt own).mp hsamples with ⟨mac', hmac', d, hd, hsample⟩
      refine hdistinct.nameless pair.2 ha hnone b hb (by rw [hmac']; exact Option.some_ne_none _)
        (List.mem_filterMap.mpr ⟨c, hc, hkey⟩) (List.mem_filterMap.mpr ⟨d, hd, ?_⟩)
      rw [d.key_of_sample observedAt mac' own hsample, hsame.2]
    · rw [hkeys c hc] at hkey
      exact absurd hkey (by simp only [reduceCtorEq, not_false_eq_true])

end Distinct

/-- An attribute that a blank precedes. -/
def plainAttribute (name value : Bytes) (hname : IsXmlName name) (hvalue : IsValueText value) :
    XmlAttribute where
  lead := [32]
  name := name
  beforeEq := []
  afterEq := []
  value := value
  lead_ne := blank_ne_nil
  lead_space := isSpaces_blank
  name_valid := hname
  beforeEq_space := isSpaces_nil
  afterEq_space := isSpaces_nil
  value_plain := hvalue

/-- An access point with one radio. -/
def apWithRadio : ApElement where
  tag := ⟨ascii "ap", [plainAttribute (ascii "mac") (ascii "aa:00:00:00:00:02") isXmlName_mac
    (by decide)], [], false, isXmlName_ap, by decide, isSpaces_nil⟩
  chars := []
  before := []
  children := [
    { tag := ⟨ascii "radio", [plainAttribute (ascii "radio-id") (ascii "0") (by decide) (by decide)],
        [], true, by decide, by decide, isSpaces_nil⟩
      chars := [], content := [], endSpace := [], endChars := [], after := []
      chars_plain := lt_not_mem_nil, endSpace_valid := isSpaces_nil
      endChars_plain := lt_not_mem_nil }]
  endSpace := []
  endChars := []
  after := []
  chars_plain := lt_not_mem_nil
  endSpace_valid := isSpaces_nil
  endChars_plain := lt_not_mem_nil

/-- The same with two blanks behind the name. -/
def wideAp : ApElement :=
  { apWithRadio with
    tag := ⟨ascii "ap", [{ plainAttribute (ascii "mac") (ascii "aa:00:00:00:00:02") isXmlName_mac
      (by decide) with lead := [32, 32], lead_ne := by decide, lead_space := by decide }], [],
        false, isXmlName_ap, by decide, isSpaces_nil⟩
    tag_plain := by decide
    name_eq := rfl
    childless := by decide }

/-- An access point written as an empty-element tag. -/
def emptyAp : ApElement where
  tag := ⟨ascii "ap", [plainAttribute (ascii "mac") (ascii "aa:00:00:00:00:01") isXmlName_mac
    (by decide)], [], true, isXmlName_ap, by decide, isSpaces_nil⟩
  chars := []
  before := []
  children := []
  endSpace := []
  endChars := []
  after := []
  chars_plain := lt_not_mem_nil
  endSpace_valid := isSpaces_nil
  endChars_plain := lt_not_mem_nil

end Zd1200
