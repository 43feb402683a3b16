import Zd1200.Lib.Search

/-!
# Latency Codes

`make_codebook` and `encode_latency` of the exporter.

The codebook has every millisecond up to a hundred and then 154 values that
grow geometrically from 101 to 2000. The source computes the values in
floating point and rounds. Here the rounding is exact: a value is the least
number whose half above is not below `101 * (2000/101)^(i/153)`, compared in
the 153rd power. No value comes closer than a hundredth to a half, so the
floating point errors cannot change the result.

## Main definitions

* `codebook`: The values of the codes.
* `encodeLatency`: The code of a latency.

## Theorems

* `codebook_ascending`: The values increase strictly.
* `codebook_bound`: They stay below the exporter's timeout.
-/

namespace Zd1200

def codeCount : Nat := 254

/-- `lround(101.0*pow(ratio,i))` for `ratio = pow(2000.0/101.0,1.0/153.0)`. -/
def roundedPower (i : Nat) : Nat :=
  lowerBound (fun n => decide ((2 * n + 1) ^ 153 ≤ 2 ^ 153 * 101 ^ (153 - i) * 2000 ^ i)) 13 0 4096

/-- `make_codebook`. -/
def codebook : List Nat :=
  (((List.range 100).map (· + 1) ++ (List.range 154).map roundedPower).set 100 101).set 253 2000

/-- `encode_latency`. -/
def encodeLatency (milliseconds : Int) : Nat :=
  let milliseconds := if milliseconds < 1 then 1 else milliseconds
  if 2000 ≤ milliseconds then codeCount
  else
    let value i : Int := codebook.getD i 0
    let low := lowerBound (fun i => decide (value i < milliseconds)) codeCount 0 codeCount
    if low = 0 then 1
    else if low = codeCount then codeCount
    else if milliseconds - value (low - 1) ≤ value low - milliseconds then low
    else low + 1

theorem length_codebook : codebook.length = codeCount := by
  simp only [codebook, List.length_set, List.length_append, List.length_map, List.length_range]
  rfl

/-- The values increase strictly. -/
theorem codebook_ascending : codebook.Pairwise (· < ·) := by
  rw [← List.isChain_iff_pairwise]
  decide +kernel

/-- The values are positive and stay below the exporter's timeout. -/
theorem codebook_bound : ∀ value ∈ codebook, 0 < value ∧ value ≤ 2000 := by decide +kernel

end Zd1200
