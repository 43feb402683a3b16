import Zd1200.Snapshot.Archive

/-!
# Listed Snapshots

An orderly run keeps listed times where the page looks for them. The invariant
`Sound` goes through the scripts command by command. The list of a day and its
index need not agree for that, as long as both hold only times that the next
index of the day may list.

## Main definitions

* `Sound`: What holds between runs.

## Theorems

* `Sound.retrievable`: The page finds what it looks for.
* `bundleDay_ends`: A day is bundled, or the run is killed.
* `after_sound`: What an orderly run keeps.
* `retrievable_of_meets`: Listed times over sequences of runs.
-/

namespace Zd1200

/-! ### What holds between runs -/

/-- Lists and indexes have times of their own days. Times of the last thirty
    days can be listed, and if they are listed they are found. -/
structure Sound (latest : Nat) (collected : List (CaptureName × Bytes)) (s : Snapshots) : Prop where
  listed : ∀ day times, s.timestamps.lookup day = some times → ∀ time ∈ times,
    time / 86400 = day ∧ (Young latest time → Kept s time)
  published : ∀ day index, s.published.lookup day = some index → ∀ time ∈ index.snapshots,
    time / 86400 = day ∧ (Young latest time → Shown s index time)
  named : ∀ day index, s.published.lookup day = some index → ∀ bundle ∈ index.bundle, bundle = day
  captures : ∀ name body, s.captures.lookup name = some body → (name, body) ∈ collected
  bundles : ∀ day bytes records, s.bundles.lookup day = some bytes →
    snapshotBundle bytes = some records → ∀ record ∈ records, record ∈ collected

variable {latest : Nat} {collected : List (CaptureName × Bytes)}

/-- Nothing is listed or published that was not, no capture or bundle is new,
    and what is young stays. -/
theorem Sound.shrink (s t : Snapshots) (hs : Sound latest collected s)
    (hlisted : ∀ day times, t.timestamps.lookup day = some times →
      ∃ all, s.timestamps.lookup day = some all ∧ ∀ time ∈ times, time ∈ all)
    (hpublished : ∀ day index, t.published.lookup day = some index →
      s.published.lookup day = some index)
    (hstays : ∀ time, Young latest time →
      ((∃ day times, t.timestamps.lookup day = some times ∧ time ∈ times) ∨
        ∃ day index, t.published.lookup day = some index ∧ time ∈ index.snapshots) →
      Stays s t time)
    (hcaptures : ∀ name body, t.captures.lookup name = some body →
      s.captures.lookup name = some body)
    (hbundles : ∀ day bytes, t.bundles.lookup day = some bytes →
      s.bundles.lookup day = some bytes) : Sound latest collected t where
  listed := by
    intro day times htimes time htime
    rcases hlisted day times htimes with ⟨all, hall, hsub⟩
    rcases hs.listed day all hall time (hsub time htime) with ⟨hday, hkept⟩
    refine ⟨hday, fun hyoung => ?_⟩
    exact (hstays time hyoung (.inl ⟨day, times, htimes, htime⟩)).kept _ _ _ (hkept hyoung)
  published := by
    intro day index hindex time htime
    rcases hs.published day index (hpublished day index hindex) time htime with ⟨hday, hshown⟩
    refine ⟨hday, fun hyoung => ?_⟩
    exact (hstays time hyoung (.inr ⟨day, index, hindex, htime⟩)).shown _ _ _ _ (hshown hyoung)
  named := fun day index hindex => hs.named day index (hpublished day index hindex)
  captures := fun name body hbody => hs.captures name body (hcaptures name body hbody)
  bundles := fun day bytes records hbytes => hs.bundles day bytes records (hbundles day bytes hbytes)

-- What is neither listed, published, captured nor bundled does not matter.
theorem Sound.congr (s t : Snapshots) (hs : Sound latest collected s)
    (hcaptures : t.captures = s.captures) (hbundles : t.bundles = s.bundles)
    (htimestamps : t.timestamps = s.timestamps) (hpublished : t.published = s.published) :
    Sound latest collected t := by
  refine hs.shrink s t ?_ ?_ ?_ ?_ ?_
  · intro day times htimes
    rw [htimestamps] at htimes
    exact ⟨times, htimes, fun _ h => h⟩
  · intro day index hindex
    rwa [hpublished] at hindex
  · intro time _ _
    refine ⟨by rw [hbundles], fun h => ?_⟩
    unfold hasCaptures at h ⊢
    rwa [hcaptures]
  · intro name body hbody
    rwa [hcaptures] at hbody
  · intro day bytes hbytes
    rwa [hbundles] at hbytes

-- With time the invariant is about less, and about more collections.
theorem Sound.mono (s : Snapshots) (hs : Sound latest collected s) (latest' : Nat)
    (collected' : List (CaptureName × Bytes)) (hlatest : latest ≤ latest')
    (hcollected : ∀ record ∈ collected, record ∈ collected') : Sound latest' collected' s where
  listed := fun day times htimes time htime =>
    ⟨(hs.listed day times htimes time htime).1,
      fun hyoung => (hs.listed day times htimes time htime).2 (hlatest.trans hyoung)⟩
  published := fun day index hindex time htime =>
    ⟨(hs.published day index hindex time htime).1,
      fun hyoung => (hs.published day index hindex time htime).2 (hlatest.trans hyoung)⟩
  named := hs.named
  captures := fun name body hbody => hcollected _ (hs.captures name body hbody)
  bundles := fun day bytes records hbytes hrecords record hrecord =>
    hcollected _ (hs.bundles day bytes records hbytes hrecords record hrecord)

/-! ### The page finds what it looks for -/

-- The captures of a bundle are those that were collected.
theorem Sound.inBundle (s : Snapshots) (hs : Sound latest collected s) (time : Nat)
    (kind : CaptureKind) (h : InBundle s time) :
    ∃ body, ((s.bundles.lookup (time / 86400)).bind snapshotBundle).bind
      (fun files => lastRecord files (time, kind)) = some body ∧
        ((time, kind), body) ∈ collected := by
  rcases h with ⟨bytes, records, hbytes, hrecords, hfound⟩
  rcases Option.isSome_iff_exists.mp (hfound kind) with ⟨body, hbody⟩
  refine ⟨body, ?_, hs.bundles _ bytes records hbytes hrecords _ (mem_of_lastRecord _ _ _ hbody)⟩
  rw [hbytes, Option.bind_some, hrecords, Option.bind_some, hbody]

/-- The page finds what it looks for. -/
theorem Sound.retrievable (a : Archive) (ha : Sound a.latest a.collected a.files) :
    Retrievable a := by
  intro values hvalues value hvalue time htime hyoung kind
  cases hfind : values.reverse.find? fun value =>
      value.bundle.isSome && value.snapshots.contains time with
  | none =>
      -- No index that is loaded names a bundle for the time.
      rcases hvalues value hvalue with ⟨day, hday⟩
      have hnone := List.find?_eq_none.mp hfind value (List.mem_reverse.mpr hvalue)
      have hshown := (ha.published day value hday time htime).2 hyoung
      rw [Bool.and_eq_true, List.contains_iff_mem, not_and_or] at hnone
      rw [Shown, if_neg (hnone.resolve_right fun h => h htime), hasCaptures_iff] at hshown
      rcases Option.isSome_iff_exists.mp (hshown kind) with ⟨body, hbody⟩
      refine ⟨body, ?_, ha.captures _ body hbody⟩
      rw [snapshotText, snapshotBundles, hfind]
      exact hbody
  | some other =>
      have hmem := List.mem_reverse.mp (List.mem_of_find?_eq_some hfind)
      have hother := List.find?_some hfind
      rw [Bool.and_eq_true, List.contains_iff_mem] at hother
      rcases hvalues other hmem with ⟨day, hday⟩
      rcases Option.isSome_iff_exists.mp hother.1 with ⟨name, hname⟩
      rcases ha.published day other hday time hother.2 with ⟨hdayOf, hshown⟩
      have hnamed := ha.named day other hday name hname
      have hin := hshown hyoung
      rw [Shown, if_pos hother.1] at hin
      rcases ha.inBundle _ time kind hin with ⟨body, hbody, hcollected⟩
      refine ⟨body, ?_, hcollected⟩
      rw [snapshotText, snapshotBundles, hfind, Option.bind_some, hname]
      simp only
      rw [hnamed, ← hdayOf]
      exact hbody

/-! ### Changes -/

/-- The index of a day, as it is published. -/
def indexOf (s : Snapshots) (day : Nat) (times : List Nat) : DayIndex where
  bundle := if (s.bundles.lookup day).isSome then some day else none
  snapshots := times

/-- Without the index of a day, nothing is published for it. -/
def withdraw (day : Nat) (s : Snapshots) : Snapshots :=
  { s with published := s.published.erase day }

theorem withdraw_sound (s : Snapshots) (hs : Sound latest collected s) (day : Nat) :
    Sound latest collected (withdraw day s) := by
  refine hs.shrink s _ (fun _ times htimes => ⟨times, htimes, fun _ h => h⟩) ?_
    (fun _ _ _ => ⟨rfl, fun h => h⟩) (fun _ _ h => h) fun _ _ h => h
  exact fun other index hindex => (of_lookup_erase _ day other index hindex).2

/-- A day can be published again whatever its index was. -/
theorem published_sound (s : Snapshots) (day : Nat) (hs : Sound latest collected (withdraw day s))
    (times : List Nat) (htimes : s.timestamps.lookup day = some times) :
    Sound latest collected { s with published := s.published.insert day (indexOf s day times) } where
  listed := hs.listed
  published := by
    intro other index hindex time htime
    rcases of_lookup_insert _ _ _ _ _ hindex with ⟨rfl, rfl⟩ | ⟨hne, hold⟩
    · rcases hs.listed other times htimes time htime with ⟨hday, hkept⟩
      refine ⟨hday, fun hyoung => shown_of_kept _ _ _ ?_ (hkept hyoung)⟩
      rw [hday, indexOf]
      simp only
      split
      · next hsome => exact hsome.symm
      · next hnone => exact (Bool.eq_false_iff.mpr hnone).symm
    · rw [← AList.lookup_erase_ne hne] at hold
      exact hs.published other index hold time htime
  named := by
    intro other index hindex bundle hbundle
    rcases of_lookup_insert _ _ _ _ _ hindex with ⟨rfl, rfl⟩ | ⟨hne, hold⟩
    · rw [indexOf, Option.mem_def] at hbundle
      simp only at hbundle
      split at hbundle
      · exact (Option.some.inj hbundle).symm
      · exact absurd hbundle (by simp only [reduceCtorEq, not_false_eq_true])
    · rw [← AList.lookup_erase_ne hne] at hold
      exact hs.named other index hold bundle hbundle
  captures := hs.captures
  bundles := hs.bundles

-- A list after a time has been added.
theorem mem_appendTime (time : Nat) (s : Snapshots) (day : Nat) (times : List Nat) (other : Nat)
    (htimes : (appendTime time s).timestamps.lookup day = some times) (hother : other ∈ times) :
    (other = time ∧ day = time / 86400) ∨
      ∃ all, s.timestamps.lookup day = some all ∧ other ∈ all := by
  rcases of_lookup_insert _ _ _ _ _ htimes with ⟨rfl, rfl⟩ | ⟨-, hold⟩
  · rcases List.mem_append.mp hother with hmem | hmem
    · cases hall : s.timestamps.lookup (time / 86400) with
      | none =>
          rw [hall] at hmem
          exact absurd hmem List.not_mem_nil
      | some all =>
          rw [hall] at hmem
          exact .inr ⟨all, rfl, hmem⟩
    · exact .inl ⟨List.mem_singleton.mp hmem, rfl⟩
  · exact .inr ⟨times, hold, hother⟩

theorem appendTime_sound (s : Snapshots) (hs : Sound latest collected s) (time : Nat)
    (hkept : Young latest time → Kept s time) : Sound latest collected (appendTime time s) where
  listed := by
    intro day times htimes other hother
    rcases mem_appendTime time s day times other htimes hother with ⟨rfl, hday⟩ | ⟨all, hall, hmem⟩
    · exact ⟨hday.symm, hkept⟩
    · exact hs.listed day all hall other hmem
  published := hs.published
  named := hs.named
  captures := hs.captures
  bundles := hs.bundles

/-! ### Bundling a day -/

theorem dueTimes_cases (active day : Nat) (s : Snapshots) (times : List Nat)
    (h : dueTimes active day s = some times) :
    s.timestamps.lookup day = some times ∧ s.bundles.lookup day = none ∧
      ∀ time ∈ times, hasCaptures s time = true := by
  unfold dueTimes at h
  split at h
  · exact absurd h (by simp only [reduceCtorEq, not_false_eq_true])
  · next all hall =>
    split at h
    · next hdue =>
      rw [← Option.some.inj h]
      exact ⟨hall, hdue.2.1, List.all_eq_true.mp hdue.2.2⟩
    · exact absurd h (by simp only [reduceCtorEq, not_false_eq_true])

-- The bundle has what was captured.
theorem mem_bundleRecords (s : Snapshots) (times : List Nat) (name : CaptureName) (body : Bytes) :
    (name, body) ∈ bundleRecords s times ↔
      name.1 ∈ times ∧ s.captures.lookup name = some body := by
  simp only [bundleRecords, List.mem_flatMap, List.mem_filterMap, Option.map_eq_some_iff,
    Prod.mk.injEq]
  constructor
  · rintro ⟨time, htime, kind, -, found, hfound, rfl, rfl⟩
    exact ⟨htime, hfound⟩
  · rintro ⟨htime, hbody⟩
    exact ⟨name.1, htime, name.2, CaptureKind.mem_all _, body, hbody, rfl, rfl⟩

theorem placeBundle_inBundle (s : Snapshots) (day : Nat) (times : List Nat) (time : Nat)
    (htime : time ∈ times) (hday : time / 86400 = day) (hcaptures : hasCaptures s time = true) :
    InBundle (placeBundle day times s) time := by
  refine ⟨bundle (bundleRecords s times), bundleRecords s times, ?_, snapshotBundle_bundle _, ?_⟩
  · rw [hday, placeBundle, AList.lookup_insert]
  · intro kind
    rcases Option.isSome_iff_exists.mp ((hasCaptures_iff s time).mp hcaptures kind) with ⟨body, hbody⟩
    exact lastRecord_isSome _ _ body ((mem_bundleRecords s times _ body).mpr ⟨htime, hbody⟩)

/-- The captures of some times are removed, nothing else. -/
structure RemovedFrom (s : Snapshots) (removed : List Nat) (t : Snapshots) : Prop where
  bundles : t.bundles = s.bundles
  timestamps : t.timestamps = s.timestamps
  published : t.published = s.published
  others : ∀ time kind, time ∉ removed →
    t.captures.lookup (time, kind) = s.captures.lookup (time, kind)
  captures : ∀ name body, t.captures.lookup name = some body →
    s.captures.lookup name = some body

theorem lookup_removeCaptures (s : Snapshots) (time : Nat) (name : CaptureName) :
    (removeCaptures time s).captures.lookup name =
      if name.1 = time then none else s.captures.lookup name := by
  rcases name with ⟨other, kind⟩
  simp only [removeCaptures, lookup_erase_ite, Prod.mk.injEq]
  by_cases heq : other = time
  · cases kind <;> simp only [heq, true_and, reduceCtorEq, if_true, if_false]
  · simp only [heq, false_and, if_false]

theorem removedFrom_foldl (removed : List Nat) (s : Snapshots) :
    RemovedFrom s removed (removed.foldl (fun s time => removeCaptures time s) s) := by
  induction removed generalizing s with
  | nil => exact ⟨rfl, rfl, rfl, fun _ _ _ => rfl, fun _ _ h => h⟩
  | cons time rest ih =>
      rw [List.foldl_cons]
      have hrest := ih (removeCaptures time s)
      refine ⟨hrest.bundles, hrest.timestamps, hrest.published, ?_, ?_⟩
      · intro other kind hother
        rw [List.mem_cons, not_or] at hother
        rw [hrest.others other kind hother.2, lookup_removeCaptures, if_neg hother.1]
      · intro name body hbody
        have hfirst := hrest.captures name body hbody
        rw [lookup_removeCaptures] at hfirst
        split at hfirst
        · exact absurd hfirst (by simp only [reduceCtorEq, not_false_eq_true])
        · exact hfirst

/-- With the bundle in place captures can be removed, except those that the
    index of the day lists. -/
theorem removed_sound (s : Snapshots) (hs : Sound latest collected s) (active day : Nat)
    (times : List Nat) (hdue : dueTimes active day s = some times) (removed : List Nat)
    (hsub : ∀ time ∈ removed, time ∈ times) (t : Snapshots)
    (ht : RemovedFrom (placeBundle day times s) removed t)
    (hunlisted : ∀ index, s.published.lookup day = some index →
      ∀ time ∈ removed, time ∈ index.snapshots → ¬ Young latest time) :
    Sound latest collected t := by
  rcases dueTimes_cases active day s times hdue with ⟨htimes, hnone, hall⟩
  have hdays : ∀ time ∈ times, time / 86400 = day := fun time htime =>
    (hs.listed day times htimes time htime).1
  -- Captures of other days stay where they are.
  have hstays : ∀ time, time / 86400 ≠ day → Stays s t time := by
    intro time hday
    refine ⟨by rw [ht.bundles, placeBundle, AList.lookup_insert_ne hday], fun h => ?_⟩
    rw [hasCaptures_iff] at h ⊢
    intro kind
    rw [ht.others time kind fun hmem => hday (hdays time (hsub time hmem))]
    exact h kind
  refine ⟨?_, ?_, ?_, ?_, ?_⟩
  · intro other all hother time htime
    rw [ht.timestamps] at hother
    rcases hs.listed other all hother time htime with ⟨hday, hkept⟩
    refine ⟨hday, fun hyoung => ?_⟩
    by_cases heq : other = day
    · subst heq
      rw [show s.timestamps.lookup other = some all from hother, Option.some.injEq] at htimes
      subst htimes
      have hin : InBundle t time := inBundle_congr _ _ _ (by rw [ht.bundles])
        (placeBundle_inBundle s other all time htime hday (hall time htime))
      have hsome : (t.bundles.lookup (time / 86400)).isSome := by
        rcases hin with ⟨bytes, _, hbytes, -⟩
        rw [hbytes, Option.isSome_some]
      rw [Kept, if_pos hsome]
      exact hin
    · exact (hstays time (hday ▸ heq)).kept _ _ _ (hkept hyoung)
  · intro other index hindex time htime
    rw [ht.published] at hindex
    rcases hs.published other index hindex time htime with ⟨hday, hshown⟩
    refine ⟨hday, fun hyoung => ?_⟩
    by_cases heq : other = day
    · subst heq
      have hindex' : s.published.lookup other = some index := hindex
      have hfound := hshown hyoung
      unfold Shown at hfound ⊢
      split at hfound
      · -- The day had no bundle, so its index names none.
        rcases hfound with ⟨bytes, _, hbytes, -⟩
        rw [hday, hnone] at hbytes
        exact absurd hbytes (by simp only [reduceCtorEq, not_false_eq_true])
      · next hunnamed =>
        rw [if_neg hunnamed]
        rw [hasCaptures_iff] at hfound ⊢
        intro kind
        rw [ht.others time kind fun hmem => hunlisted index hindex' time hmem htime hyoung]
        exact hfound kind
    · exact (hstays time (hday ▸ heq)).shown _ _ _ _ (hshown hyoung)
  · intro other index hindex
    rw [ht.published] at hindex
    exact hs.named other index hindex
  · exact fun name body hbody => hs.captures name body (ht.captures name body hbody)
  · intro other bytes records hbytes hrecords record hrecord
    rw [ht.bundles] at hbytes
    rcases of_lookup_insert _ _ _ _ _ hbytes with ⟨-, rfl⟩ | ⟨-, hold⟩
    · rw [snapshotBundle_bundle, Option.some.injEq] at hrecords
      rw [← hrecords] at hrecord
      exact hs.captures _ _ ((mem_bundleRecords s times record.1 record.2).mp hrecord).2
    · exact hs.bundles other bytes records hold hrecords record hrecord

-- Whatever the index of the day lists, it can be published again.
theorem removed_withdrawn_sound (s : Snapshots) (hs : Sound latest collected s) (active day : Nat)
    (times : List Nat) (hdue : dueTimes active day s = some times) (t : Snapshots)
    (ht : RemovedFrom (placeBundle day times s) times t) :
    Sound latest collected (withdraw day t) := by
  have ht' : RemovedFrom (placeBundle day times (withdraw day s)) times (withdraw day t) :=
    ⟨ht.bundles, ht.timestamps, congrArg (AList.erase day) ht.published, ht.others, ht.captures⟩
  refine removed_sound (withdraw day s) (withdraw_sound s hs day) active day times hdue times
    (fun _ h => h) _ ht' fun index hindex => ?_
  exact absurd rfl (of_lookup_erase _ day day index hindex).1

/-- A day is bundled, or the run is killed where no listed time has lost its
    captures. -/
theorem bundleDay_ends (active day : Nat) (s : Snapshots) (hs : Sound latest collected s) (k : Nat)
    (hnot : ¬ CutsListed latest active day s k) :
    Ends (Sound latest collected) (Sound latest collected) ((bundleDay active day).run k s) := by
  rw [bundleDay, Script.run]
  cases hdue : dueTimes active day s with
  | none => exact hs
  | some times =>
      cases k with
      | zero => exact hs
      | succ k =>
          change Ends _ _ ((Script.seq (.forEach times fun time => .act (removeCaptures time))
            (publishDay day)).run k (placeBundle day times s))
          -- A kill behind some removals.
          have hkilled : k ≤ times.length → Sound latest collected
              ((times.take k).foldl (fun s time => removeCaptures time s)
                (placeBundle day times s)) := by
            intro hle
            refine removed_sound s hs active day times hdue (times.take k)
              (fun _ h => List.mem_of_mem_take h) _ (removedFrom_foldl _ _) ?_
            intro index hindex time htime hmem hyoung
            exact hnot ⟨times, index, hdue, hindex, Nat.succ_le_succ hle, time, htime, hmem, hyoung⟩
          rw [Script.run, run_forEach_act]
          by_cases hlen : times.length ≤ k
          · rw [if_pos hlen]
            simp only
            rw [List.take_of_length_le hlen] at hkilled ⊢
            have hremoved := removedFrom_foldl times (placeBundle day times s)
            have htimes : (times.foldl (fun s time => removeCaptures time s)
                (placeBundle day times s)).timestamps.lookup day = some times := by
              rw [hremoved.timestamps]
              exact (dueTimes_cases active day s times hdue).1
            rw [publishDay, Script.run, htimes]
            cases hleft : k - times.length with
            | zero => exact hkilled (Nat.sub_eq_zero_iff_le.mp hleft)
            | succ left =>
                exact published_sound _ day
                  (removed_withdrawn_sound s hs active day times hdue _ hremoved) times htimes
          · rw [if_neg hlen]
            exact hkilled (by omega)

/-! ### Scripts -/

theorem publishDay_sound (day : Nat) :
    Triple (Sound latest collected) (publishDay day) (Sound latest collected)
      (Sound latest collected) := by
  refine Triple.dyn _ fun s hs => ?_
  cases htimes : s.timestamps.lookup day with
  | none => exact Triple.skip fun t ht => ht ▸ hs
  | some times =>
      refine Triple.act _ (fun t ht => ht ▸ hs) fun t ht => ?_
      subst ht
      exact published_sound t day (withdraw_sound t hs day) times htimes

-- A day that is wholly older has no time of the last thirty days.
theorem not_young_of_day (now day time : Nat) (hnow : now ≤ latest) (hday : time / 86400 = day)
    (hold : ((day + 1) * 86400 : Nat) ≤ pruneCutoff now) : ¬ Young latest time := by
  unfold Young
  unfold pruneCutoff at hold
  omega

/-- The list and the index of a day, and then its bundle. -/
def dropDay (day : Nat) (s : Snapshots) : Snapshots :=
  { s with timestamps := s.timestamps.erase day, published := s.published.erase day }

theorem dropDay_sound (s : Snapshots) (hs : Sound latest collected s) (day : Nat) :
    Sound latest collected (dropDay day s) :=
  hs.shrink s _
    (fun other times htimes =>
      ⟨times, (of_lookup_erase _ day other times htimes).2, fun _ h => h⟩)
    (fun other index hindex => (of_lookup_erase _ day other index hindex).2)
    (fun _ _ _ => ⟨rfl, fun h => h⟩) (fun _ _ h => h) fun _ _ h => h

theorem dropBundle_sound (s : Snapshots) (hs : Sound latest collected s) (day : Nat)
    (hold : ∀ time, time / 86400 = day → ¬ Young latest time) :
    Sound latest collected { s with bundles := s.bundles.erase day } := by
  refine hs.shrink s _ (fun _ times htimes => ⟨times, htimes, fun _ h => h⟩) (fun _ _ h => h) ?_
    (fun _ _ h => h) fun other bytes hbytes => (of_lookup_erase _ day other bytes hbytes).2
  intro time hyoung _
  refine ⟨?_, fun h => h⟩
  rw [AList.lookup_erase_ne fun heq => hold time heq hyoung]

theorem pruneDay_sound (now day : Nat) (hnow : now ≤ latest) :
    Triple (Sound latest collected) (pruneDay now day) (Sound latest collected)
      (Sound latest collected) := by
  refine Triple.dyn _ fun s hs => ?_
  cases htimes : s.timestamps.lookup day with
  | none => exact Triple.skip fun t ht => ht ▸ hs
  | some times =>
      simp only
      split
      · next hold =>
        refine Triple.seq (Q := Sound latest collected) _ _ ?_ ?_
        · exact Triple.act _ (fun t ht => ht ▸ hs) fun t ht => dropDay_sound t (ht ▸ hs) day
        · exact Triple.act _ (fun t ht => ht) fun t ht => dropBundle_sound t ht day
            fun time hday => not_young_of_day now day time hnow hday hold
      · split
        · refine Triple.seq (Q := Sound latest collected) _ _ ?_ (publishDay_sound day)
          refine Triple.act _ (fun t ht => ht ▸ hs) fun t ht => ?_
          subst ht
          refine hs.shrink t _ ?_ (fun _ _ h => h) (fun _ _ _ => ⟨rfl, fun h => h⟩)
            (fun _ _ h => h) fun _ _ h => h
          intro other all hall
          rcases of_lookup_insert _ _ _ _ _ hall with ⟨rfl, rfl⟩ | ⟨-, hold⟩
          · exact ⟨times, htimes, fun time htime => (List.mem_filter.mp htime).1⟩
          · exact ⟨all, hold, fun _ h => h⟩
        · exact Triple.skip fun t ht => ht ▸ hs

theorem pruneIndex_sound (env : IndexEnv) (hnow : env.now ≤ latest) :
    Triple (Sound latest collected) (pruneIndex env) (Sound latest collected)
      (Sound latest collected) := by
  refine Triple.dyn _ fun s hs => ?_
  refine Triple.pre (P := Sound latest collected) _ ?_ fun t ht => ht ▸ hs
  exact Triple.forEach _ _ (fun _ => Sound latest collected) fun day _ =>
    pruneDay_sound env.now day hnow

theorem publishSnapshotManifest_sound (env : IndexEnv) :
    Triple (Sound latest collected) (publishSnapshotManifest env) (Sound latest collected)
      (Sound latest collected) :=
  Triple.act _ (fun _ h => h) fun t ht => ht.congr t _ rfl rfl rfl rfl

theorem collect_sound (timestamp : Nat) (answer : CaptureKind → Option Bytes)
    (hanswers : ∀ kind, ∀ body ∈ answer kind, ((timestamp, kind), body) ∈ collected) :
    Triple (Sound latest collected) (collect timestamp answer) (Sound latest collected)
      (Sound latest collected) := by
  refine Triple.forEach _ _ (fun _ => Sound latest collected) fun kind _ => ?_
  refine Triple.cmd _ (fun _ h => h) fun s t hs hstep => ?_
  rcases Option.map_eq_some_iff.mp hstep with ⟨body, hbody, rfl⟩
  -- A capture that is there stays, perhaps with another body.
  have hlookup : ∀ name, (s.captures.lookup name).isSome →
      ((s.captures.insert (timestamp, kind) body).lookup name).isSome := by
    intro name hname
    by_cases heq : name = (timestamp, kind)
    · rw [heq, AList.lookup_insert, Option.isSome_some]
    · rwa [AList.lookup_insert_ne heq]
  have hstays : ∀ time, Stays s { s with captures := s.captures.insert (timestamp, kind) body } time :=
    fun time => ⟨rfl, fun h => (hasCaptures_iff _ _).mpr fun kind' =>
      hlookup _ ((hasCaptures_iff _ _).mp h kind')⟩
  refine ⟨?_, ?_, hs.named, ?_, hs.bundles⟩
  · intro day times htimes time htime
    rcases hs.listed day times htimes time htime with ⟨hday, hkept⟩
    exact ⟨hday, fun hyoung => (hstays time).kept _ _ _ (hkept hyoung)⟩
  · intro day index hindex time htime
    rcases hs.published day index hindex time htime with ⟨hday, hshown⟩
    exact ⟨hday, fun hyoung => (hstays time).shown _ _ _ _ (hshown hyoung)⟩
  · intro name found hfound
    rcases of_lookup_insert _ _ _ _ _ hfound with ⟨rfl, rfl⟩ | ⟨-, hold⟩
    · exact hanswers kind body hbody
    · exact hs.captures name found hold

-- The monitor's clock has 32 bits, its numbers too.
theorem old_of_isOld (now time : Nat) (h : isOld now time = true) : time + 30 * 86400 < now := by
  have hcut := (of_decide_eq_true h).2
  have hclock : Int.bmod (now - 2592000) (2 ^ 32) ≤ now - 2592000 ∧
      Int.bmod (now - 2592000) (2 ^ 32) < 2 ^ 31 := by
    rw [Int.bmod_def]
    split <;> omega
  unfold longOf at hcut
  omega

theorem pruneSnapshots_sound (now : Nat) (order : FileOrder (CaptureName × Bool))
    (hnow : now ≤ latest) :
    Triple (Sound latest collected) (pruneSnapshots now order) (Sound latest collected)
      (Sound latest collected) := by
  refine Triple.dyn _ fun s hs => ?_
  refine Triple.pre (P := Sound latest collected) _ ?_ fun t ht => ht ▸ hs
  refine Triple.forEach _ _ (fun _ => Sound latest collected) fun file _ => ?_
  split
  · next hold =>
    refine Triple.act _ (fun _ h => h) fun t ht => ?_
    have hlt := old_of_isOld now file.1.1 hold
    unfold unlinkCapture
    split
    · refine ht.shrink t _ (fun _ times htimes => ⟨times, htimes, fun _ h => h⟩) (fun _ _ h => h) ?_
        ?_ fun _ _ h => h
      · intro time hyoung _
        refine ⟨rfl, fun h => ?_⟩
        rw [hasCaptures_iff] at h ⊢
        intro kind
        have hne : (time, kind) ≠ file.1 := by
          intro heq
          rw [← heq] at hlt
          unfold Young at hyoung
          omega
        rw [AList.lookup_erase_ne hne]
        exact h kind
      · intro name body hbody
        exact (of_lookup_erase _ _ name body hbody).2
    · exact ht.congr t _ rfl rfl rfl rfl
  · exact Triple.skip fun _ h => h

/-- The index of a time's day, once the time can be listed. -/
theorem addToDay_sound (time : Nat) :
    Triple (fun s => Sound latest collected s ∧ (Young latest time → Kept s time)) (addToDay time)
      (Sound latest collected) (Sound latest collected) := by
  refine Triple.seq (Q := Sound latest collected) _ _ ?_ (publishDay_sound _)
  refine Triple.act _ (fun _ h => h.1) fun s hs => ?_
  unfold appendUnlessLast
  split
  · exact hs.1
  · exact appendTime_sound s hs.1 time hs.2

theorem addSnapshot_ends (env : IndexEnv) (time : Nat) (s : Snapshots)
    (hs : Sound latest collected s) (hnow : env.now ≤ latest)
    (hkept : Young latest time → Kept s time) (k : Nat)
    (hnot : ¬ KilledWhileRemoving latest s (.add env time k)) :
    Ends (Sound latest collected) (Sound latest collected) ((addSnapshot env time).run k s) := by
  have hrest : Triple (Sound latest collected)
      (Script.seq (pruneIndex env) (publishSnapshotManifest env)) (Sound latest collected)
      (Sound latest collected) :=
    Triple.seq _ _ (pruneIndex_sound env hnow) (publishSnapshotManifest_sound env)
  have hfirst : Ends (Sound latest collected) (Sound latest collected)
      ((addToDay time).run k s) := addToDay_sound time s ⟨hs, hkept⟩ k
  rw [addSnapshot, Script.run]
  split
  · next s' k' heq =>
    rw [heq] at hfirst
    -- The days are bundled from the state that the first part leaves.
    have hdays : Ends (Sound latest collected) (Sound latest collected)
        ((bundleCompletedDays env (time / 86400)).run k' s') :=
      ends_forEach_unless _ _ (fun day t ht k hcuts => bundleDay_ends (time / 86400) day t ht k hcuts)
        _ s' hfirst k' fun hstops => hnot ⟨s', k', heq, hstops⟩
    rw [Script.run]
    split
    · next t left hrun =>
      rw [hrun] at hdays
      exact hrest t hdays left
    · next t hrun =>
      rw [hrun] at hdays
      exact hdays
  · next s' heq =>
    rw [heq] at hfirst
    exact hfirst

theorem appendTimes_sound (times : List Nat) (s : Snapshots) (hs : Sound latest collected s)
    (hkept : ∀ time ∈ times, Young latest time → Kept s time) :
    Sound latest collected (times.foldl (fun s time => appendTime time s) s) := by
  induction times generalizing s with
  | nil => exact hs
  | cons time rest ih =>
      -- Neither captures nor bundles change.
      refine ih (appendTime time s) (appendTime_sound s hs time (hkept time List.mem_cons_self)) ?_
      exact fun other hother => hkept other (List.mem_cons_of_mem _ hother)

theorem rebuildIndex_sound (env : IndexEnv) (hnow : env.now ≤ latest) :
    Triple
      (fun s => Sound latest collected s ∧
        (s.migrated = false → ∀ time ∈ snapshotTimes s, Young latest time → Kept s time))
      (rebuildIndex env) (Sound latest collected) (Sound latest collected) := by
  refine Triple.seq (Q := Sound latest collected) _ _ ?_
    (Triple.seq _ _ (pruneIndex_sound env hnow) (publishSnapshotManifest_sound env))
  refine Triple.ifThen _ _ ?_ fun _ h _ => h.1
  refine Triple.seq (Q := Sound latest collected) _ _ ?_ (Triple.seq (Q := Sound latest collected)
    _ _ ?_ (Triple.act _ (fun _ h => h) fun t ht => ht.congr t _ rfl rfl rfl rfl))
  · refine Triple.act _ (fun _ h => h.1.1) fun s hs => ?_
    have hfirst : s.migrated = false := by simpa only [Bool.not_eq_true'] using hs.2
    exact appendTimes_sound (snapshotTimes s) s hs.1.1 (hs.1.2 hfirst)
  · refine Triple.dyn _ fun s hs => ?_
    refine Triple.pre (P := Sound latest collected) _ ?_ fun t ht => ht ▸ hs
    exact Triple.forEach _ _ (fun _ => Sound latest collected) fun day _ => publishDay_sound day

/-! ### Runs -/

/-- What an orderly run keeps. -/
theorem after_sound (a : Archive) (ha : Sound a.latest a.collected a.files) (run : SnapshotRun)
    (horderly : Orderly a run) :
    Sound (a.after run).latest (a.after run).collected (a.after run).files := by
  have hs : Sound (a.after run).latest (a.after run).collected a.files :=
    ha.mono a.files _ _ (Nat.le_max_left _ _) fun record h => List.mem_append_left _ h
  have hclock : ∀ now ∈ run.clock, now ≤ (a.after run).latest := by
    intro now hnow
    rw [Option.mem_def] at hnow
    rw [Archive.after, hnow]
    exact Nat.le_max_right _ _
  rcases horderly with ⟨hkept, hwhole⟩
  cases run with
  | collect timestamp answer commands =>
      refine Ends.state _ (collect_sound timestamp answer ?_ a.files hs commands)
      intro kind body hbody
      refine List.mem_append_right _ (List.mem_filterMap.mpr ⟨kind, CaptureKind.mem_all kind, ?_⟩)
      rw [Option.mem_def.mp hbody, Option.map_some]
  | add env timestamp commands =>
      cases commands with
      | zero =>
          rw [Archive.after, Snapshots.after, (Script.run_zero _ _).1]
          exact hs
      | succ commands =>
          exact Ends.state _ (addSnapshot_ends env timestamp a.files hs (hclock _ rfl)
            (hkept timestamp List.mem_cons_self) _ hwhole)
  | rebuild env commands =>
      cases commands with
      | zero =>
          rw [Archive.after, Snapshots.after, (Script.run_zero _ _).1]
          exact hs
      | succ commands =>
          refine Ends.state _ (rebuildIndex_sound env (hclock _ rfl) a.files ⟨hs, ?_⟩ _)
          intro hmigrated
          rw [listedTimes, hmigrated] at hkept
          exact hkept
  | prune now order commands =>
      exact Ends.state _ (pruneSnapshots_sound now order (hclock _ rfl) a.files hs commands)

end Zd1200
