import Zd1200.Lib.Nearest
import Zd1200.Export.Codebook

/-!
# Latency Codes of Any Codebook

`encode_latency` takes the codebook as an argument, and a day file carries the
codebook that its codes refer to.

A codebook that increases from a positive number to the timeout has a code for
every latency, since latencies are clamped to what it covers. The code is that
of the nearest value. Codes count from one, so neither the code of a round
without an attempt nor that of a timeout is ever written for a latency.

## Main definitions

* `LatencyCodebook`: A codebook that increases up to the timeout.
* `encodeLatencyIn`: The code of a latency in a codebook.
* `clampLatency`: The latency that a code stands for.

## Theorems

* `isNearest_encodeLatencyIn`: The code is that of the nearest value.
* `encodeLatencyIn_nearest`: What holds of the codes of any codebook.
-/

namespace Zd1200

/-- A codebook that increases up to the timeout. -/
structure LatencyCodebook where
  values : List Nat
  length : values.length = codeCount
  ascending : values.Pairwise (· < ·)
  positive : ∀ value ∈ values, 0 < value
  last : values.getLast? = some 2000

/-- `encode_latency` with its codebook. -/
def encodeLatencyIn (codebook : List Nat) (milliseconds : Int) : Nat :=
  let milliseconds := if milliseconds < 1 then 1 else milliseconds
  if 2000 ≤ milliseconds then codeCount
  else
    let value i : Int := codebook.getD i 0
    let low := lowerBound (fun i => decide (value i < milliseconds)) codeCount 0 codeCount
    if low = 0 then 1
    else if low = codeCount then codeCount
    else if milliseconds - value (low - 1) ≤ value low - milliseconds then low
    else low + 1

/-- A latency within the range of a codebook. -/
def clampLatency (milliseconds : Int) : Int := max 1 (min milliseconds 2000)

/-- `make_codebook`. -/
def exporterCodebook : LatencyCodebook where
  values := codebook
  length := length_codebook
  ascending := codebook_ascending
  positive := fun value hvalue => (codebook_bound value hvalue).1
  last := by decide +kernel

theorem encodeLatency_eq (milliseconds : Int) :
    encodeLatency milliseconds = encodeLatencyIn exporterCodebook.values milliseconds := rfl

namespace LatencyCodebook

variable (table : LatencyCodebook)

/-- The value at a position. -/
def value (i : Nat) : Int := table.values.getD i 0

theorem value_of_get (i v : Nat) (h : table.values[i]? = some v) : table.value i = v := by
  rw [value, List.getD_eq_getElem?_getD, h, Option.getD_some]

theorem get_of_lt (i : Nat) (h : i < codeCount) : ∃ v, table.values[i]? = some v := by
  rw [← table.length] at h
  exact ⟨_, List.getElem?_eq_getElem h⟩

theorem value_ascends : Ascends table.value codeCount := by
  intro i j hij hj
  rcases table.get_of_lt i (by omega) with ⟨v, hv⟩
  rcases table.get_of_lt j hj with ⟨w, hw⟩
  rw [table.value_of_get i v hv, table.value_of_get j w hw]
  rcases List.getElem?_eq_some_iff.mp hv with ⟨hi', rfl⟩
  rcases List.getElem?_eq_some_iff.mp hw with ⟨hj', rfl⟩
  exact Int.ofNat_lt.mpr (List.pairwise_iff_getElem.mp table.ascending i j hi' hj' hij)

theorem value_last : table.value 253 = 2000 := by
  have hlast := table.last
  rw [List.getLast?_eq_getElem?, table.length] at hlast
  exact table.value_of_get 253 2000 hlast

theorem value_bounds (i : Nat) (h : i < codeCount) : 1 ≤ table.value i ∧ table.value i ≤ 2000 := by
  rcases table.get_of_lt i h with ⟨v, hv⟩
  have hpositive := table.positive v (List.mem_of_getElem? hv)
  have hvalue := table.value_of_get i v hv
  refine ⟨by omega, ?_⟩
  -- No value is above the last one.
  rw [← table.value_last]
  rcases Nat.eq_or_lt_of_le (show i ≤ 253 from Nat.le_of_lt_succ h) with rfl | hlt
  · exact le_rfl
  · exact (table.value_ascends i 253 hlt (by decide)).le

/-- The code of a latency is that of the nearest value. -/
theorem isNearest_encodeLatencyIn (milliseconds : Int) :
    1 ≤ encodeLatencyIn table.values milliseconds ∧
      IsNearest table.value codeCount (clampLatency milliseconds)
        (encodeLatencyIn table.values milliseconds - 1) := by
  have hasc := table.value_ascends
  have hlast := table.value_last
  unfold encodeLatencyIn clampLatency
  simp only
  generalize hx : (if milliseconds < 1 then 1 else milliseconds) = x
  by_cases htimeout : 2000 ≤ x
  · rw [if_pos htimeout]
    -- What reaches the timeout is clamped to the last value.
    have hclamp : max 1 (min milliseconds 2000) = table.value 253 := by
      rw [hlast]
      split at hx <;> omega
    rw [hclamp]
    exact ⟨by decide, isNearest_self hasc 253 (by decide)⟩
  · have hclamp : max 1 (min milliseconds 2000) = x := by split at hx <;> omega
    rw [if_neg htimeout, hclamp]
    -- The search ends at the first value that is not below the latency.
    have hspec := lowerBound_spec (fun i => decide (table.value i < x)) 0 codeCount codeCount
      (fun i j hij hj hbelow => by
        rcases Nat.eq_or_lt_of_le hij with rfl | hlt
        · exact hbelow
        · have := hasc i j hlt hj
          rw [decide_eq_true_eq] at hbelow ⊢
          omega) (Nat.zero_le _) (Nat.sub_le _ _)
    simp only [show ∀ i, (table.values.getD i 0 : Int) = table.value i from fun _ => rfl]
    generalize lowerBound (fun i => decide (table.value i < x)) codeCount 0 codeCount = low at hspec ⊢
    rcases hspec with ⟨-, hle, hbelow, habove⟩
    simp only [decide_eq_true_eq, decide_eq_false_iff_not, not_lt] at hbelow habove
    by_cases hzero : low = 0
    · rw [if_pos hzero]
      exact ⟨le_rfl, isNearest_first hasc (by decide) x (habove 0 (by omega) (by decide))⟩
    -- The last value is the timeout, so the search ends in front of its end.
    have hinside : low ≠ codeCount := by
      rintro rfl
      have := hbelow 253 (Nat.zero_le _) (by decide)
      omega
    rw [if_neg hzero, if_neg hinside]
    rcases Nat.exists_eq_succ_of_ne_zero hzero with ⟨k, rfl⟩
    simp only [Nat.succ_eq_add_one, Nat.add_sub_cancel] at hle hbelow habove hinside ⊢
    have hlow := hbelow k (Nat.zero_le _) (Nat.lt_succ_self k)
    have hhigh := habove (k + 1) (Nat.le_refl _) (by omega)
    by_cases hclose : x - table.value k ≤ table.value (k + 1) - x
    · rw [if_pos hclose]
      exact ⟨by omega, isNearest_below hasc k (by omega) x hlow.le hclose⟩
    · rw [if_neg hclose]
      exact ⟨by omega, isNearest_above hasc k (by omega) x hhigh (by omega)⟩

theorem encodeLatencyIn_bounds (milliseconds : Int) :
    1 ≤ encodeLatencyIn table.values milliseconds ∧
      encodeLatencyIn table.values milliseconds ≤ 254 := by
  rcases table.isNearest_encodeLatencyIn milliseconds with ⟨hone, hnearest⟩
  have := hnearest.lt
  unfold codeCount at this
  exact ⟨hone, by omega⟩

/-- A value of the codebook is a latency that is not clamped. -/
theorem clampLatency_value (i : Nat) (h : i < codeCount) :
    clampLatency (table.value i) = table.value i := by
  have := table.value_bounds i h
  unfold clampLatency
  omega

end LatencyCodebook

theorem clampLatency_mono (a b : Int) (h : a ≤ b) : clampLatency a ≤ clampLatency b := by
  unfold clampLatency
  omega

/-- The codes of any codebook that increases up to the timeout. -/
theorem encodeLatencyIn_nearest (table : LatencyCodebook) :
    (∀ milliseconds, 1 ≤ encodeLatencyIn table.values milliseconds ∧
      encodeLatencyIn table.values milliseconds ≤ 254 ∧
      IsNearest table.value codeCount (clampLatency milliseconds)
        (encodeLatencyIn table.values milliseconds - 1)) ∧
    (∀ a b, a ≤ b → encodeLatencyIn table.values a ≤ encodeLatencyIn table.values b) ∧
    (∀ i v : Nat, table.values[i]? = some v → encodeLatencyIn table.values v = i + 1) ∧
    ∀ milliseconds, encodeLatencyIn table.values milliseconds ≠ 0 ∧
      encodeLatencyIn table.values milliseconds ≠ 255 := by
  have hasc := table.value_ascends
  refine ⟨fun milliseconds => ?_, fun a b hab => ?_, fun i v hv => ?_, fun milliseconds => ?_⟩
  · rcases table.encodeLatencyIn_bounds milliseconds with ⟨hone, hmax⟩
    exact ⟨hone, hmax, (table.isNearest_encodeLatencyIn milliseconds).2⟩
  · rcases table.isNearest_encodeLatencyIn a with ⟨-, ha⟩
    rcases table.isNearest_encodeLatencyIn b with ⟨hone, hb⟩
    have := ha.mono hasc hb (clampLatency_mono a b hab)
    omega
  · have hi : i < codeCount := by
      rw [← table.length]
      exact (List.getElem?_eq_some_iff.mp hv).1
    rcases table.isNearest_encodeLatencyIn v with ⟨hone, hnearest⟩
    rw [← table.value_of_get i v hv, table.clampLatency_value i hi] at hnearest
    have := hnearest.unique hasc (isNearest_self hasc i hi)
    rw [← table.value_of_get i v hv] at hone ⊢
    omega
  · rcases table.encodeLatencyIn_bounds milliseconds with ⟨hone, hmax⟩
    omega

theorem encodeLatencyIn_nearest_exporter :
    encodeLatencyIn exporterCodebook.values 101 = 101 ∧
      encodeLatencyIn exporterCodebook.values 250 ≤ encodeLatencyIn exporterCodebook.values 251 :=
  ⟨(encodeLatencyIn_nearest exporterCodebook).2.2.1 100 101 (by decide +kernel),
    (encodeLatencyIn_nearest exporterCodebook).2.1 250 251 (by decide)⟩

end Zd1200
