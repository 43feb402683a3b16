import Mathlib.Data.List.Forall2
import Zd1200.Monitor.Telemetry

/-!
# Texts That Differ in Case

Two texts that are the same but for the letter case of the MACs in them, and
what the monitor reads in the one and in the other.

`CaseOnly` says it of the texts themselves: both are made of the same bytes,
except that where one has an attribute that holds a MAC, the other has the same
MAC with its digits in whatever case. Searching such texts for an opening gives
the same offsets, because no opening can begin inside a MAC or reach across the
quote in front of one. So the tags are the same, and an attribute's value is
the same or, if it is one of those, the same MAC.

## Main definitions

* `SameId`: Two identities are the same, or the same MAC.
* `CaseOnly`: Two texts differ in the case of MACs.
* `Plain`: An opening that sees no difference.

## Theorems

* `findFrom_caseOnly`: Searches end at the same offset.
* `attr_caseOnly`: Attributes have the same value.
* `attr_mac_caseOnly`: Or the same MAC.
* `tags_caseOnly`: The tags are the same.
* `readAps_caseOnly`, `scanClients_caseOnly`, `detailRows_caseOnly`: What is
  read.
-/

namespace Zd1200

/-! ### MACs in both cases -/

/-- The same identity, or the same MAC. -/
def SameId (a b : Bytes) : Prop := a = b ∨ (validMac a = true ∧ SameMac a b)

theorem SameId.sameMac {a b : Bytes} (h : SameId a b) : SameMac a b := by
  rcases h with rfl | ⟨-, hsame⟩
  · rfl
  · exact hsame

theorem SameMac.length {a b : Bytes} (h : SameMac a b) : a.length = b.length := by
  have := congrArg List.length h
  simpa only [lowercase, List.length_map] using this

theorem SameMac.getElem? {a b : Bytes} (h : SameMac a b) (i : Nat) :
    a[i]?.map tolower = b[i]?.map tolower := by
  have := congrArg (fun l : Bytes => l[i]?) h
  simpa only [lowercase, List.getElem?_map] using this

-- A byte of a MAC: a digit or a colon.
def isMacByte (c : UInt8) : Bool := isxdigit c ∨ c = 58

theorem isxdigit_tolower (c : UInt8) : isxdigit (tolower c) = isxdigit c := by
  have hall : ∀ i : Fin 256, isxdigit (tolower (UInt8.ofFin i)) = isxdigit (UInt8.ofFin i) := by
    decide +kernel
  exact hall c.toFin

theorem tolower_eq_colon (c : UInt8) : tolower c = 58 ↔ c = 58 := by
  have hall : ∀ i : Fin 256, tolower (UInt8.ofFin i) = 58 ↔ UInt8.ofFin i = 58 := by
    decide +kernel
  exact hall c.toFin

/-- A valid MAC, byte by byte. -/
theorem validMac_iff (mac : Bytes) :
    validMac mac = true ↔ mac.length = 17 ∧ ∀ i c, mac[i]? = some c →
      (if i % 3 = 2 then c = 58 else isxdigit c = true) := by
  unfold validMac
  rw [decide_eq_true_eq, List.all_eq_true]
  refine and_congr_right fun _ => ⟨fun h i c hc => ?_, fun h => ?_⟩
  · have := h (c, i) (List.mem_zipIdx_iff_getElem?.mpr hc)
    by_cases hi : i % 3 = 2
    · simp only [hi, if_true, decide_eq_true_eq] at this ⊢
      exact this
    · simp only [hi, if_false] at this ⊢
      exact this
  · rintro ⟨c, i⟩ hmem
    have := h i c (List.mem_zipIdx_iff_getElem?.mp hmem)
    by_cases hi : i % 3 = 2
    · simp only [hi, if_true, decide_eq_true_eq] at this ⊢
      exact this
    · simp only [hi, if_false] at this ⊢
      exact this

theorem SameMac.validMac {a b : Bytes} (h : SameMac a b) (ha : validMac a = true) :
    Zd1200.validMac b = true := by
  rw [validMac_iff] at ha ⊢
  refine ⟨h.length ▸ ha.1, fun i c hc => ?_⟩
  have hget := h.getElem? i
  rw [hc, Option.map_some, Option.map_eq_some_iff] at hget
  rcases hget with ⟨d, hd, hlow⟩
  have hcheck := ha.2 i d hd
  by_cases hi : i % 3 = 2
  · rw [if_pos hi] at hcheck ⊢
    rw [← tolower_eq_colon, ← hlow, hcheck]
    rfl
  · rw [if_neg hi] at hcheck ⊢
    rw [← isxdigit_tolower, ← hlow, isxdigit_tolower, hcheck]

theorem isMacByte_of_validMac (mac : Bytes) (h : validMac mac = true) (i : Nat) (c : UInt8)
    (hc : mac[i]? = some c) : isMacByte c = true := by
  have := ((validMac_iff mac).mp h).2 i c hc
  unfold isMacByte
  rw [decide_eq_true_eq]
  by_cases hi : i % 3 = 2
  · rw [if_pos hi] at this
    exact .inr this
  · rw [if_neg hi] at this
    exact .inl this

theorem SameId.validMac_iff {a b : Bytes} (h : SameId a b) :
    validMac a = true ↔ validMac b = true := by
  rcases h with rfl | ⟨ha, hsame⟩
  · rfl
  · exact ⟨fun _ => hsame.validMac ha, fun _ => ha⟩

/-! ### Texts -/

/-- What opens an attribute. -/
def attrOpening (name : String) : Bytes := ascii (" " ++ name ++ "=\"")

/-- What opens the attributes that hold a MAC. -/
def macOpenings : List Bytes := [attrOpening "mac", attrOpening "ap"]

/-- Two texts differ in the case of MACs and in nothing else. -/
inductive CaseOnly : Bytes → Bytes → Prop
  | nil : CaseOnly [] []
  | byte (c : UInt8) {t t' : Bytes} (rest : CaseOnly t t') : CaseOnly (c :: t) (c :: t')
  | mac {opening m m' t t' : Bytes} (hopening : opening ∈ macOpenings)
      (hvalid : validMac m = true) (hsame : SameMac m m') (rest : CaseOnly t t') :
      CaseOnly (opening ++ (m ++ 34 :: t)) (opening ++ (m' ++ 34 :: t'))

theorem CaseOnly.refl (t : Bytes) : CaseOnly t t := by
  induction t with
  | nil => exact .nil
  | cons c t ih => exact .byte c ih

theorem CaseOnly.append_left (p : Bytes) {t t' : Bytes} (h : CaseOnly t t') :
    CaseOnly (p ++ t) (p ++ t') := by
  induction p with
  | nil => exact h
  | cons c p ih => exact .byte c ih

theorem CaseOnly.length {t t' : Bytes} (h : CaseOnly t t') : t.length = t'.length := by
  induction h with
  | nil => rfl
  | byte c rest ih => rw [List.length_cons, List.length_cons, ih]
  | mac hopening hvalid hsame rest ih =>
      simp only [List.length_append, List.length_cons, hsame.length, ih]

/-- The value of an attribute that holds a MAC starts at `s` in both texts. -/
structure MacAt (t t' : Bytes) (s : Nat) : Prop where
  opened : ∃ opening ∈ macOpenings, opening.length ≤ s ∧ Occurs t opening (s - opening.length)
  valid : validMac ((t.drop s).take 17) = true
  same : SameMac ((t.drop s).take 17) ((t'.drop s).take 17)
  closed : t[s + 17]? = some 34 ∧ t'[s + 17]? = some 34

theorem MacAt.append_left {t t' : Bytes} {s : Nat} (p p' : Bytes) (hp : p.length = p'.length)
    (h : MacAt t t' s) : MacAt (p ++ t) (p' ++ t') (p.length + s) := by
  rcases h with ⟨⟨opening, hmem, hle, hocc⟩, hvalid, hsame, hclosed⟩
  have hdrop : (p ++ t).drop (p.length + s) = t.drop s := by
    rw [List.drop_append, Nat.add_sub_cancel_left, List.drop_eq_nil_of_le (by omega),
      List.nil_append]
  have hdrop' : (p' ++ t').drop (p.length + s) = t'.drop s := by
    rw [hp, List.drop_append, Nat.add_sub_cancel_left, List.drop_eq_nil_of_le (by omega),
      List.nil_append]
  refine ⟨⟨opening, hmem, by omega, ?_⟩, ?_, ?_, ?_⟩
  · unfold Occurs at hocc ⊢
    rw [show p.length + s - opening.length = p.length + (s - opening.length) by omega,
      List.drop_append, Nat.add_sub_cancel_left, List.drop_eq_nil_of_le (by omega),
      List.nil_append]
    exact hocc
  · rw [hdrop]
    exact hvalid
  · rw [hdrop, hdrop']
    exact hsame
  · rw [Nat.add_assoc, List.getElem?_append_right (by omega),
      List.getElem?_append_right (by omega), ← hp, Nat.add_sub_cancel_left]
    exact hclosed

/-- Where the texts differ there is a MAC. -/
theorem CaseOnly.at {t t' : Bytes} (h : CaseOnly t t') (i : Nat) :
    t[i]? = t'[i]? ∨ ∃ s, s ≤ i ∧ i < s + 17 ∧ MacAt t t' s := by
  induction h generalizing i with
  | nil => exact .inl rfl
  | byte c rest ih =>
      cases i with
      | zero => exact .inl rfl
      | succ i =>
          rcases ih i with heq | ⟨s, hle, hlt, hmac⟩
          · exact .inl (by rw [List.getElem?_cons_succ, List.getElem?_cons_succ, heq])
          · refine .inr ⟨1 + s, by omega, by omega, ?_⟩
            exact hmac.append_left [c] [c] rfl
  | @mac opening m m' t t' hopening hvalid hsame rest ih =>
      have hlen := ((validMac_iff m).mp hvalid).1
      have hlen' := hsame.length
      by_cases hlo : i < opening.length
      · -- In the opening.
        exact .inl (by rw [List.getElem?_append_left hlo, List.getElem?_append_left hlo])
      · by_cases hhi : i < opening.length + 17
        · -- In the MAC.
          refine .inr ⟨opening.length, by omega, hhi, ⟨⟨opening, hopening, Nat.le_refl _, ?_⟩,
            ?_, ?_, ?_⟩⟩
          · rw [Nat.sub_self]
            exact List.prefix_append _ _
          · rwa [List.drop_left, List.take_left' hlen]
          · rwa [List.drop_left, List.take_left' hlen, List.drop_left,
              List.take_left' (hlen' ▸ hlen)]
          · rw [List.getElem?_append_right (by omega), List.getElem?_append_right (by omega),
              List.getElem?_append_right (by omega), List.getElem?_append_right (by omega),
              ← hlen', Nat.add_sub_cancel_left, hlen]
            exact ⟨rfl, rfl⟩
        · -- Behind it.
          rcases Nat.exists_eq_add_of_le (Nat.le_of_not_lt hhi) with ⟨k, rfl⟩
          have hget : ∀ (v u : Bytes), v.length = 17 →
              (opening ++ (v ++ 34 :: u))[opening.length + 17 + k]? = (34 :: u)[k]? := by
            intro v u hv
            rw [List.getElem?_append_right (by omega), List.getElem?_append_right (by omega), hv]
            congr 1
            omega
          rw [hget m t hlen, hget m' t' (hlen' ▸ hlen)]
          cases k with
          | zero => exact .inl rfl
          | succ k =>
              rcases ih k with heq | ⟨s, hle, hlt, hmac⟩
              · exact .inl (by rw [List.getElem?_cons_succ, List.getElem?_cons_succ, heq])
              · have hshift := hmac.append_left (opening ++ (m ++ [34])) (opening ++ (m' ++ [34]))
                  (by simp only [List.length_append, hlen'])
                simp only [List.append_assoc, List.cons_append, List.nil_append,
                  List.length_append, hlen, List.length_cons, List.length_nil] at hshift
                exact .inr ⟨_, by omega, by omega, hshift⟩

/-! ### Searches -/

/-- An opening that cannot begin inside a MAC or reach into one. -/
def Plain (needle : Bytes) : Prop :=
  needle ≠ [] ∧ (needle.head?.all fun c => !isMacByte c) = true ∧ ∀ c ∈ needle.dropLast, c ≠ 34

instance (needle : Bytes) : Decidable (Plain needle) :=
  -- The characters of the needle are tried, and not all characters.
  have : Decidable (∀ c ∈ needle.dropLast, c ≠ 34) := List.decidableBAll _ _
  inferInstanceAs (Decidable (_ ∧ _ ∧ _))

-- What stands in a MAC, in front of it and behind.
theorem MacAt.byte {t t' : Bytes} {s : Nat} (h : MacAt t t' s) (i : Nat) (hle : s ≤ i)
    (hlt : i < s + 17) : ∃ c, t[i]? = some c ∧ isMacByte c = true := by
  rcases Nat.exists_eq_add_of_le hle with ⟨k, rfl⟩
  have hlen := ((validMac_iff _).mp h.valid).1
  have hk : ((t.drop s).take 17)[k]? = t[s + k]? := by
    rw [List.getElem?_take_of_lt (by omega), List.getElem?_drop]
  rw [List.getElem?_eq_getElem (by omega)] at hk
  exact ⟨_, hk.symm, isMacByte_of_validMac _ h.valid k _ (List.getElem?_eq_getElem (by omega))⟩

theorem macOpenings_spec (opening : Bytes) (h : opening ∈ macOpenings) :
    0 < opening.length ∧ opening[0]? = some 32 ∧ opening[opening.length - 1]? = some 34 ∧
      ∀ k, 0 < k → opening[k]? ≠ some 32 := by
  have hall : ∀ o ∈ macOpenings, 0 < o.length ∧ o[0]? = some 32 ∧ o[o.length - 1]? = some 34 ∧
      32 ∉ o.tail := by decide +kernel
  rcases hall opening h with ⟨hpos, hfirst, hlast, htail⟩
  refine ⟨hpos, hfirst, hlast, fun k hk hspace => htail ?_⟩
  rw [List.mem_iff_getElem?]
  exact ⟨k - 1, by rw [List.getElem?_tail, Nat.sub_add_cancel hk, hspace]⟩

theorem MacAt.quote {t t' : Bytes} {s : Nat} (h : MacAt t t' s) : 0 < s ∧ t[s - 1]? = some 34 := by
  rcases h.opened with ⟨opening, hmem, hle, hocc⟩
  rcases macOpenings_spec opening hmem with ⟨hpos, -, hlast, -⟩
  have := (occurs_iff t opening _).mp hocc (opening.length - 1) (by omega)
  rw [hlast, show s - opening.length + (opening.length - 1) = s - 1 by omega] at this
  exact ⟨by omega, this⟩

theorem CaseOnly.symm {t t' : Bytes} (h : CaseOnly t t') : CaseOnly t' t := by
  induction h with
  | nil => exact .nil
  | byte c rest ih => exact .byte c ih
  | mac hopening hvalid hsame rest ih =>
      exact .mac hopening (hsame.validMac hvalid) hsame.symm ih

-- An opening that occurs does not touch a MAC.
theorem not_macAt_of_occurs {t t' needle : Bytes} (hplain : Plain needle) (p : Nat)
    (hocc : Occurs t needle p) (k : Nat) (hk : k < needle.length) (s : Nat) (hle : s ≤ p + k)
    (hlt : p + k < s + 17) : ¬ MacAt t t' s := by
  intro hmac
  rcases hplain with ⟨hne, hfirst, hquote⟩
  have hget := (occurs_iff t needle p).mp hocc
  by_cases hs : s ≤ p
  · -- It would begin inside the MAC.
    rcases hmac.byte p hs (by omega) with ⟨c, hc, hbyte⟩
    have hhead := hget 0 (by omega)
    rw [Nat.add_zero, hc] at hhead
    cases needle with
    | nil => exact hne rfl
    | cons first rest =>
        rw [List.getElem?_cons_zero, Option.some.injEq] at hhead
        rw [List.head?_cons, Option.all_some, ← hhead, hbyte] at hfirst
        exact absurd hfirst Bool.false_ne_true
  · -- It would reach across the quote.
    have hbefore := hget (s - 1 - p) (by omega)
    rw [show p + (s - 1 - p) = s - 1 by omega, hmac.quote.2] at hbefore
    refine hquote 34 ?_ rfl
    rw [List.mem_iff_getElem?]
    exact ⟨s - 1 - p, by rw [List.getElem?_dropLast, if_pos (by omega), hbefore]⟩

theorem Occurs.of_caseOnly {t t' needle : Bytes} (h : CaseOnly t t') (hplain : Plain needle)
    {p : Nat} (hocc : Occurs t needle p) : Occurs t' needle p := by
  rw [occurs_iff]
  intro k hk
  rcases h.at (p + k) with heq | ⟨s, hle, hlt, hmac⟩
  · rw [← heq]
    exact (occurs_iff t needle p).mp hocc k hk
  · exact absurd hmac (not_macAt_of_occurs hplain p hocc k hk s hle hlt)

/-- Searches end at the same offset. -/
theorem findFrom_caseOnly {t t' : Bytes} (h : CaseOnly t t') (needle : Bytes)
    (hplain : Plain needle) (start : Nat) :
    findFrom t needle start = findFrom t' needle start :=
  findFrom_congr t t' needle start hplain.1 fun _ =>
    ⟨fun hocc => hocc.of_caseOnly h hplain, fun hocc => hocc.of_caseOnly h.symm hplain⟩

/-- So the tags are the same. -/
theorem tags_caseOnly {t t' : Bytes} (h : CaseOnly t t') (opening : Bytes)
    (hplain : Plain opening) : tags t opening = tags t' opening := by
  have hfrom : ∀ fuel start, tagsFrom t opening fuel start = tagsFrom t' opening fuel start := by
    intro fuel
    induction fuel with
    | zero => exact fun _ => rfl
    | succ fuel ih =>
        intro start
        simp only [tagsFrom, findFrom_caseOnly h opening hplain,
          findFrom_caseOnly h (ascii ">") (by decide), ih]
  rw [tags, tags, h.length, hfrom]

/-! ### Attributes -/

/-- An opening of an attribute: one blank in front and one quote at the end. -/
def Opens (needle : Bytes) : Prop :=
  Plain needle ∧ needle[0]? = some 32 ∧ (∀ c ∈ needle.tail, c ≠ 32) ∧
    needle[needle.length - 1]? = some 34

instance (needle : Bytes) : Decidable (Opens needle) :=
  have : Decidable (∀ c ∈ needle.tail, c ≠ 32) := List.decidableBAll _ _
  inferInstanceAs (Decidable (_ ∧ _ ∧ _ ∧ _))

theorem macOpenings_opens (opening : Bytes) (h : opening ∈ macOpenings) : Opens opening := by
  have hall : ∀ o ∈ macOpenings, Opens o := by decide +kernel
  exact hall opening h

/-- Behind a quote the texts agree up to the next one, unless a MAC starts
    right there. -/
theorem value_caseOnly {t t' : Bytes} (h : CaseOnly t t') (start quote : Nat) (hpos : 0 < start)
    (hbefore : t[start - 1]? = some 34) (hquote : findFrom t (ascii "\"") start = some quote) :
    (t.drop start).take (quote - start) = (t'.drop start).take (quote - start) ∨
      (MacAt t t' start ∧ quote = start + 17) := by
  rcases (findFrom_eq_some_iff t _ start quote (by decide)).mp hquote with ⟨hle, hocc, hfirst⟩
  have hchar : ∀ i, Occurs t (ascii "\"") i ↔ t[i]? = some 34 := fun i => by
    rw [occurs_iff]
    refine ⟨fun hi => hi 0 (by decide), fun hi k hk => ?_⟩
    have hk0 : k = 0 := by
      have : (ascii "\"").length = 1 := by decide +kernel
      omega
    rw [hk0]
    exact hi
  -- No byte of a MAC is a quote.
  have hbyte : ∀ s i, MacAt t t' s → s ≤ i → i < s + 17 → t[i]? ≠ some 34 := by
    intro s i hmac hs hi habs
    rcases hmac.byte i hs hi with ⟨c, hc, hmacByte⟩
    rw [habs, Option.some.injEq] at hc
    rw [← hc] at hmacByte
    exact absurd hmacByte (by decide)
  by_cases hmac : MacAt t t' start
  · refine .inr ⟨hmac, ?_⟩
    rcases Nat.lt_trichotomy quote (start + 17) with hlt | heq | hgt
    · exact absurd ((hchar quote).mp hocc) (hbyte start quote hmac hle hlt)
    · exact heq
    · exact absurd ((hchar _).mpr hmac.closed.1) (hfirst (start + 17) (by omega) hgt)
  · refine .inl (List.ext_getElem? fun k => ?_)
    by_cases hk : k < quote - start
    · rw [List.getElem?_take_of_lt hk, List.getElem?_take_of_lt hk, List.getElem?_drop,
        List.getElem?_drop]
      rcases h.at (start + k) with heq | ⟨s, hs, hlt, hother⟩
      · exact heq
      · exfalso
        -- A MAC between the quotes starts where the value does.
        rcases Nat.lt_trichotomy s start with hless | rfl | hmore
        · exact hbyte s (start - 1) hother (by omega) (by omega) hbefore
        · exact hmac hother
        · exact hfirst (s - 1) (by omega) (by omega) ((hchar _).mpr hother.quote.2)
    · rw [List.getElem?_eq_none_iff.mpr (by rw [List.length_take]; omega),
        List.getElem?_eq_none_iff.mpr (by rw [List.length_take]; omega)]

/-- A MAC starts behind one of its openings and no other. -/
theorem mem_macOpenings_of_macAt {t t' needle : Bytes} (hopens : Opens needle) (hit : Nat)
    (hocc : Occurs t needle hit) (hmac : MacAt t t' (hit + needle.length)) :
    needle ∈ macOpenings := by
  rcases hmac.opened with ⟨opening, hmem, hle, hocc'⟩
  have hget := (occurs_iff t needle hit).mp hocc
  have hget' := (occurs_iff t opening _).mp hocc'
  -- Each of the two begins at the other's only blank.
  have hspace : ∀ (xs : Bytes), Opens xs → ∀ k, 0 < k → xs[k]? ≠ some 32 := by
    intro xs hxs k hk habs
    refine hxs.2.2.1 32 (List.mem_iff_getElem?.mpr ⟨k - 1, ?_⟩) rfl
    rw [List.getElem?_tail, Nat.sub_add_cancel hk, habs]
  have hnpos : 0 < needle.length := List.length_pos_iff.mpr hopens.1.1
  have hopos : 0 < opening.length :=
    List.length_pos_iff.mpr (macOpenings_opens opening hmem).1.1
  have hlen : needle.length = opening.length := by
    rcases Nat.lt_trichotomy needle.length opening.length with hlt | heq | hgt
    · have h0 := hget 0 hnpos
      have hk := hget' (opening.length - needle.length) (by omega)
      rw [show hit + needle.length - opening.length + (opening.length - needle.length)
        = hit + 0 by omega, h0, hopens.2.1] at hk
      exact absurd hk.symm (hspace opening (macOpenings_opens opening hmem) _ (by omega))
    · exact heq
    · have h0 := hget' 0 hopos
      have hk := hget (needle.length - opening.length) (by omega)
      rw [show hit + (needle.length - opening.length)
        = hit + needle.length - opening.length + 0 by omega, h0,
        (macOpenings_opens opening hmem).2.1] at hk
      exact absurd hk.symm (hspace needle hopens _ (by omega))
  have heq : needle = opening := by
    refine List.ext_getElem? fun k => ?_
    by_cases hk : k < needle.length
    · rw [← hget k hk, ← hget' k (by omega), hlen, Nat.add_sub_cancel]
    · rw [List.getElem?_eq_none_iff.mpr (by omega), List.getElem?_eq_none_iff.mpr (by omega)]
  rw [heq]
  exact hmem

-- An attribute's value in both texts, as far as it can be told.
theorem attr_cases {t t' : Bytes} (h : CaseOnly t t') (tag stop : Nat) (name : String)
    (hopens : Opens (attrOpening name)) :
    attr t tag stop name = attr t' tag stop name ∨
      (attrOpening name ∈ macOpenings ∧ ∃ m m', attr t tag stop name = some m ∧
        attr t' tag stop name = some m' ∧ validMac m = true ∧ SameMac m m') := by
  have hopening : ascii (" " ++ name ++ "=\"") = attrOpening name := rfl
  simp only [attr, hopening, ← findFrom_caseOnly h (attrOpening name) hopens.1,
    ← findFrom_caseOnly h (ascii "\"") (by decide)]
  cases hhit : findFrom t (attrOpening name) tag with
  | none => exact .inl rfl
  | some hit =>
      rcases (findFrom_eq_some_iff t _ tag hit hopens.1.1).mp hhit with ⟨-, hocc, -⟩
      have hnpos : 0 < (attrOpening name).length := List.length_pos_iff.mpr hopens.1.1
      by_cases hstop : stop ≤ hit
      · exact .inl (by simp only [if_pos hstop])
      · simp only [if_neg hstop]
        cases hquote : findFrom t (ascii "\"") (hit + (attrOpening name).length) with
        | none => exact .inl rfl
        | some quote =>
            by_cases hlate : stop < quote
            · exact .inl (by simp only [if_pos hlate])
            · have hbefore : t[hit + (attrOpening name).length - 1]? = some 34 := by
                have := (occurs_iff t _ hit).mp hocc ((attrOpening name).length - 1) (by omega)
                rwa [hopens.2.2.2, ← Nat.add_sub_assoc hnpos] at this
              simp only [if_neg hlate, Option.some.injEq]
              rcases value_caseOnly h _ quote (by omega) hbefore hquote with heq | ⟨hmac, hseventeen⟩
              · exact .inl heq
              · refine .inr ⟨mem_macOpenings_of_macAt hopens hit hocc hmac, _, _, rfl, rfl, ?_, ?_⟩
                · rw [hseventeen, Nat.add_sub_cancel_left]
                  exact hmac.valid
                · rw [hseventeen, Nat.add_sub_cancel_left]
                  exact hmac.same

/-- An attribute of another name has the same value. -/
theorem attr_caseOnly {t t' : Bytes} (h : CaseOnly t t') (tag stop : Nat) (name : String)
    (hopens : Opens (attrOpening name)) (hother : attrOpening name ∉ macOpenings) :
    attr t tag stop name = attr t' tag stop name := by
  rcases attr_cases h tag stop name hopens with heq | ⟨hmem, -⟩
  · exact heq
  · exact absurd hmem hother

/-- An attribute that may hold a MAC has the same value or the same MAC. -/
theorem attr_mac_caseOnly {t t' : Bytes} (h : CaseOnly t t') (tag stop : Nat) (name : String)
    (hopens : Opens (attrOpening name)) :
    Option.Rel SameId (attr t tag stop name) (attr t' tag stop name) := by
  rcases attr_cases h tag stop name hopens with heq | ⟨-, m, m', hm, hm', hvalid, hsame⟩
  · rw [heq]
    cases attr t' tag stop name with
    | none => exact .none
    | some value => exact .some (.inl rfl)
  · rw [hm, hm']
    exact .some (.inr ⟨hvalid, hsame⟩)

/-- What is left of a file up to its first zero byte differs in case, too. -/
theorem cText_caseOnly {t t' : Bytes} (h : CaseOnly t t') : CaseOnly (cText t) (cText t') := by
  have hmac : ∀ m : Bytes, validMac m = true → ∀ c ∈ m, c ≠ 0 := by
    intro m hm c hc h0
    rcases List.mem_iff_getElem?.mp hc with ⟨i, hi⟩
    have := isMacByte_of_validMac m hm i c hi
    rw [h0] at this
    exact absurd this (by decide)
  have hopen : ∀ o ∈ macOpenings, 0 ∉ o := by decide +kernel
  unfold cText
  induction h with
  | nil => exact .nil
  | byte c rest ih =>
      by_cases hc : c = 0
      · simp only [List.takeWhile_cons, hc, ne_eq, not_true_eq_false, decide_false,
          Bool.false_eq_true, if_false]
        exact .nil
      · simp only [List.takeWhile_cons, ne_eq, hc, not_false_eq_true, decide_true, if_true]
        exact .byte c ih
  | @mac opening m m' t t' hopening hvalid hsame rest ih =>
      have hcut : ∀ (v u : Bytes), (∀ c ∈ v, c ≠ 0) →
          (opening ++ (v ++ 34 :: u)).takeWhile (fun c => decide (c ≠ 0))
            = opening ++ (v ++ 34 :: u.takeWhile fun c => decide (c ≠ 0)) := by
        intro v u hv
        rw [List.takeWhile_append_of_pos fun c hc => decide_eq_true (by
            rintro rfl
            exact hopen _ hopening hc),
          List.takeWhile_append_of_pos fun c hc => decide_eq_true (hv c hc), List.takeWhile_cons]
        rfl
      rw [hcut m t (hmac m hvalid), hcut m' t' (hmac m' (hsame.validMac hvalid))]
      exact .mac hopening hvalid hsame ih

/-! ### Entries -/

/-- Two entries of the controller's list that differ in case. -/
structure ApTarget.Alike (a a' : ApTarget) : Prop where
  id : SameId a.id a'.id
  name : a.name = a'.name
  ip : a.ip = a'.ip

/-- Two clients that differ in case. A name may be the MAC. -/
structure Client.Alike (c c' : Client) : Prop where
  mac : SameMac c.mac c'.mac
  ip : c.ip = c'.ip
  name : c.name = none ↔ c'.name = none
  snrDb : c.snrDb = c'.snrDb
  signalDbm : c.signalDbm = c'.signalDbm
  noiseFloorDbm : c.noiseFloorDbm = c'.noiseFloorDbm

/-- Two radio samples that differ in case. -/
structure RadioRow.Alike (r r' : RadioRow) : Prop where
  apMac : SameMac r.apMac r'.apMac
  rest : r' = { r with apMac := r'.apMac }

/-- Two mesh samples that differ in case. -/
structure MeshRow.Alike (m m' : MeshRow) : Prop where
  apMac : SameMac m.apMac m'.apMac
  peerMac : SameMac m.peerMac m'.peerMac
  rest : m' = { m with apMac := m'.apMac, peerMac := m'.peerMac }

/-- Two statements that differ in case. -/
inductive DetailRow.Alike : DetailRow → DetailRow → Prop
  | radio (radioId : Option Int) {r r' : RadioRow} (rows : r.Alike r') :
      Alike (.radio radioId r) (.radio radioId r')
  | mesh {m m' : MeshRow} (rows : m.Alike m') : Alike (.mesh m) (.mesh m')

theorem apOfTag_caseOnly {t t' : Bytes} (h : CaseOnly t t') (tag stop : Nat) :
    Option.Rel ApTarget.Alike (apOfTag t tag stop) (apOfTag t' tag stop) := by
  unfold apOfTag
  rw [attr_caseOnly h tag stop "name" (by decide) (by decide),
    attr_caseOnly h tag stop "ap-name" (by decide) (by decide),
    attr_caseOnly h tag stop "devname" (by decide) (by decide),
    attr_caseOnly h tag stop "ip" (by decide) (by decide)]
  have hmac := attr_mac_caseOnly h tag stop "mac" (by decide)
  generalize attr t tag stop "mac" = a at hmac
  generalize attr t' tag stop "mac" = b at hmac
  cases hmac with
  | none => exact .none
  | some hid =>
      simp only [Option.bind_eq_bind, Option.bind_some]
      cases orIfEmpty (orIfEmpty (attr t' tag stop "name") (attr t' tag stop "ap-name"))
          (attr t' tag stop "devname") with
      | none => exact .none
      | some name =>
          cases attr t' tag stop "ip" with
          | none => exact .none
          | some ip =>
              simp only [Option.bind_some]
              cases inetPton ip with
              | none => exact .none
              | some address => exact .some ⟨hid, rfl, rfl⟩

/-- The entries of the controller's list differ in case. -/
theorem readAps_caseOnly {list list' : Option Bytes} (h : Option.Rel CaseOnly list list') :
    List.Forall₂ ApTarget.Alike (readAps list) (readAps list') := by
  cases h with
  | none => exact .nil
  | some htext =>
      have hcut := cText_caseOnly htext
      simp only [readAps]
      rw [tags_caseOnly hcut _ (by decide)]
      refine List.rel_reverse (List.rel_filterMap (R := Eq) ?_ (List.forall₂_refl _))
      rintro ⟨tag, stop⟩ _ rfl
      exact apOfTag_caseOnly hcut tag stop

theorem orIfEmpty_eq_none_iff (first : Option Bytes) (second : Bytes) :
    orIfEmpty first (some second) = none ↔ False := by
  unfold orIfEmpty
  by_cases h : first = none ∨ first = some []
  · rw [if_pos h]
    simp only [reduceCtorEq]
  · rw [if_neg h]
    exact ⟨fun hnone => h (.inl hnone), False.elim⟩

theorem clientOfTag_caseOnly {t t' : Bytes} (h : CaseOnly t t') (tag stop : Nat) :
    Option.Rel Client.Alike (clientOfTag t tag stop) (clientOfTag t' tag stop) := by
  unfold clientOfTag
  simp only [attr_caseOnly h tag stop "ip" (by decide) (by decide),
    attr_caseOnly h tag stop "hostname" (by decide) (by decide),
    attr_caseOnly h tag stop "user" (by decide) (by decide),
    attr_caseOnly h tag stop "rssi" (by decide) (by decide),
    attr_caseOnly h tag stop "received-signal-strength" (by decide) (by decide),
    attr_caseOnly h tag stop "noise-floor" (by decide) (by decide)]
  have hmac := attr_mac_caseOnly h tag stop "mac" (by decide)
  generalize attr t tag stop "mac" = a at hmac
  generalize attr t' tag stop "mac" = b at hmac
  cases hmac with
  | none => exact .none
  | @some mac mac' hid =>
      simp only [Option.bind_eq_bind, Option.bind_some]
      by_cases hvalid : validMac mac = true
      · rw [if_pos hvalid, if_pos (hid.validMac_iff.mp hvalid)]
        exact .some ⟨hid.sameMac, rfl, by
          simp only [orIfEmpty_eq_none_iff], rfl, rfl, rfl⟩
      · rw [if_neg hvalid, if_neg fun hvalid' => hvalid (hid.validMac_iff.mpr hvalid')]
        exact .none

/-- The clients differ in case. -/
theorem scanClients_caseOnly {t t' : Bytes} (h : CaseOnly t t') :
    List.Forall₂ Client.Alike (scanClients t) (scanClients t') := by
  unfold scanClients
  rw [tags_caseOnly h _ (by decide)]
  refine List.rel_filterMap (R := Eq) ?_ (List.forall₂_refl _)
  rintro ⟨tag, stop⟩ _ rfl
  exact clientOfTag_caseOnly h tag stop

/-! ### Samples -/

section Detail

variable {t t' : Bytes} (h : CaseOnly t t')

include h

theorem apSections_caseOnly (fuel start : Nat) :
    apSections t fuel start = apSections t' fuel start := by
  induction fuel generalizing start with
  | zero => rfl
  | succ fuel ih =>
      simp only [apSections, findFrom_caseOnly h (ascii "<ap ") (by decide),
        findFrom_caseOnly h (ascii ">") (by decide),
        findFrom_caseOnly h (ascii "</ap>") (by decide), ih]

theorem radioTags_caseOnly (apEnd fuel cursor : Nat) :
    radioTags t apEnd fuel cursor = radioTags t' apEnd fuel cursor := by
  induction fuel generalizing cursor with
  | zero => rfl
  | succ fuel ih =>
      simp only [radioTags, findFrom_caseOnly h (ascii "<radio ") (by decide),
        findFrom_caseOnly h (ascii ">") (by decide), ih]

theorem meshTags_caseOnly (apEnd fuel cursor : Nat) :
    meshTags t apEnd fuel cursor = meshTags t' apEnd fuel cursor := by
  induction fuel generalizing cursor with
  | zero => rfl
  | succ fuel ih =>
      simp only [meshTags, nextMeshTag, findFrom_caseOnly h (ascii "<uplink-ap ") (by decide),
        findFrom_caseOnly h (ascii "<downlink-ap ") (by decide),
        findFrom_caseOnly h (ascii ">") (by decide), ih]

theorem radioOfTag_caseOnly (observedAt : Nat) (apMac apMac' : Bytes) (hmac : SameMac apMac apMac')
    (tag stop : Nat) :
    (radioOfTag t observedAt apMac tag stop).Alike (radioOfTag t' observedAt apMac' tag stop) := by
  unfold radioOfTag
  simp only [attr_caseOnly h tag stop "radio-id" (by decide) (by decide),
    attr_caseOnly h tag stop "radio-type" (by decide) (by decide),
    attr_caseOnly h tag stop "channel" (by decide) (by decide),
    attr_caseOnly h tag stop "channelization" (by decide) (by decide),
    attr_caseOnly h tag stop "assoc-stas" (by decide) (by decide),
    attr_caseOnly h tag stop "noisefloor" (by decide) (by decide),
    attr_caseOnly h tag stop "avg-rssi" (by decide) (by decide),
    attr_caseOnly h tag stop "airtime-total" (by decide) (by decide),
    attr_caseOnly h tag stop "airtime-busy" (by decide) (by decide),
    attr_caseOnly h tag stop "airtime-rx" (by decide) (by decide),
    attr_caseOnly h tag stop "airtime-tx" (by decide) (by decide),
    attr_caseOnly h tag stop "rf-samples" (by decide) (by decide)]
  exact .radio _ ⟨hmac, rfl⟩

theorem meshOfTag_caseOnly (observedAt : Nat) (apMac apMac' : Bytes) (hmac : SameMac apMac apMac')
    (tag stop : Nat) (direction : Direction) :
    Option.Rel DetailRow.Alike (meshOfTag t observedAt apMac tag stop direction)
      (meshOfTag t' observedAt apMac' tag stop direction) := by
  unfold meshOfTag
  simp only [attr_caseOnly h tag stop "radio-type" (by decide) (by decide),
    attr_caseOnly h tag stop "rssi" (by decide) (by decide)]
  have hpeer := attr_mac_caseOnly h tag stop "ap" (by decide)
  generalize attr t tag stop "ap" = a at hpeer
  generalize attr t' tag stop "ap" = b at hpeer
  cases hpeer with
  | none => exact .none
  | @some peer peer' hid =>
      simp only [Option.bind_eq_bind, Option.bind_some]
      by_cases hvalid : validMac peer = true
      · rw [if_pos hvalid, if_pos (hid.validMac_iff.mp hvalid)]
        exact .some (.mesh ⟨hmac, hid.sameMac, rfl⟩)
      · rw [if_neg hvalid, if_neg fun hvalid' => hvalid (hid.validMac_iff.mpr hvalid')]
        exact .none

theorem sectionRows_caseOnly (observedAt : Nat) (apSection : Nat × Nat × Nat) :
    List.Forall₂ DetailRow.Alike (sectionRows t observedAt apSection)
      (sectionRows t' observedAt apSection) := by
  rcases apSection with ⟨tag, headEnd, apEnd⟩
  simp only [sectionRows, ← h.length, ← radioTags_caseOnly h, ← meshTags_caseOnly h]
  have hmac := attr_mac_caseOnly h tag headEnd "mac" (by decide)
  generalize attr t tag headEnd "mac" = a at hmac
  generalize attr t' tag headEnd "mac" = b at hmac
  cases hmac with
  | none => exact .nil
  | @some apMac apMac' hid =>
      by_cases hvalid : validMac apMac = true
      · simp only [if_pos hvalid, if_pos (hid.validMac_iff.mp hvalid)]
        refine List.rel_append ?_ ?_
        · rw [List.forall₂_map_left_iff, List.forall₂_map_right_iff, List.forall₂_same]
          exact fun ⟨tag, stop⟩ _ => radioOfTag_caseOnly h observedAt _ _ hid.sameMac tag stop
        · refine List.rel_filterMap (R := Eq) ?_ (List.forall₂_refl _)
          rintro ⟨tag, stop, direction⟩ _ rfl
          exact meshOfTag_caseOnly h observedAt _ _ hid.sameMac tag stop direction
      · simp only [if_neg hvalid, if_neg fun hvalid' => hvalid (hid.validMac_iff.mpr hvalid')]
        exact .nil

/-- The statements of a detail listing differ in case. -/
theorem detailRows_caseOnly (observedAt : Nat) :
    List.Forall₂ DetailRow.Alike (detailRows t observedAt) (detailRows t' observedAt) := by
  unfold detailRows
  rw [apSections_caseOnly h, h.length]
  refine List.rel_flatMap (R := Eq) (List.forall₂_refl _) ?_
  rintro apSection _ rfl
  exact sectionRows_caseOnly h observedAt apSection

end Detail

end Zd1200
