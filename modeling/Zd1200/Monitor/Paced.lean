import Mathlib.Data.List.Chain
import Zd1200.Monitor.Loop

/-!
# When the Monitor Collects

The collections of a loop that is not switched off, over any number of rounds.

What makes a round collect is the switch and the time since the last
collection. The first part says when it does not. Somebody has to have switched
monitoring on, and two collections are an interval apart if monitoring is not
switched off between them (`monitorRounds_opt_in`).

The second part says when it does. A round sleeps until the next collection is
due, at most thirty seconds, so that it sees changes of the settings. If its
own work takes at most `runtime` and the sleep is at most `late` too long, then
a collection comes at most that much after it was due, `monitorRounds_served`.
The time of a collection does not depend on how long the rounds before it were.

## Main definitions

* `nativeAfter`: The settings that were printed last.
* `Paced`: Rounds that take their time and no more.

## Theorems

* `monitorRounds_settings`: What the loop knows in each round.
* `monitorRounds_opt_in`: Nothing is collected that nobody asked for, and
  collections are an interval apart.
* `monitorRounds_served`: A collection comes when it is due.
-/

namespace Zd1200

/-! ### One round -/

section Round

variable (r : LoopRound) (m : MonitorLoop)

/-- Settings that leave monitoring on leave the last collection alone. -/
theorem lastCollection_applyNativeSettings (native : Bytes) (h : m.monitoringEnabled = [49]) :
    (applyNativeSettings native m).lastCollection = m.lastCollection := by
  have hoff : ¬ (m.monitoringEnabled = [48] ∧
      (((readNative native).map m.take).getD m).monitoringEnabled = [49]) := by
    rw [h]
    exact fun hold => absurd hold.1 (by decide)
  rw [applyNativeSettings, if_neg hoff]
  cases readNative native with
  | none => rfl
  | some s => rfl

/-- A round that collects. -/
theorem loopRound_collected (h : (loopRound r m).collected = true) :
    (loopRound r m).loop = (applyNativeSettings r.native m).collectedAt r.now ∧
      (loopRound r m).loop.monitoringEnabled = [49] ∧
      (decimal (loopRound r m).loop.monitoringInterval : Int) ≤
        (r.now : Int) - (applyNativeSettings r.native m).lastCollection := by
  have hdue : (applyNativeSettings r.native m).due r.now = true := h
  have hloop : (loopRound r m).loop = (applyNativeSettings r.native m).collectedAt r.now :=
    if_pos hdue
  rw [MonitorLoop.due, decide_eq_true_eq] at hdue
  rw [hloop]
  exact ⟨rfl, hdue⟩

/-- A round that does not. -/
theorem loopRound_idle (h : (loopRound r m).collected = false) :
    (loopRound r m).loop = applyNativeSettings r.native m := by
  have hdue : (applyNativeSettings r.native m).due r.now = false := h
  exact if_neg (by rw [hdue]; exact Bool.false_ne_true)

/-- The last collection is the one of this round or the one before it. -/
theorem lastCollection_loopRound (h : m.monitoringEnabled = [49]) :
    (loopRound r m).loop.lastCollection =
      if (loopRound r m).collected then r.now else m.lastCollection := by
  cases hcollected : (loopRound r m).collected with
  | true => rw [(loopRound_collected r m hcollected).1, if_pos rfl]; rfl
  | false =>
      rw [loopRound_idle r m hcollected, if_neg Bool.false_ne_true,
        lastCollection_applyNativeSettings m r.native h]

/-- While monitoring is on, a round collects if the interval is over. -/
theorem collected_loopRound (hold : m.monitoringEnabled = [49])
    (hon : (loopRound r m).loop.monitoringEnabled = [49]) :
    (loopRound r m).collected = true ↔
      (m.lastCollection + decimal (loopRound r m).loop.monitoringInterval : Int) ≤ r.now := by
  have hlast := lastCollection_applyNativeSettings m r.native hold
  constructor
  · intro h
    have hdue := (loopRound_collected r m h).2.2
    rw [hlast] at hdue
    omega
  · intro h
    by_contra hidle
    rw [Bool.not_eq_true] at hidle
    rw [loopRound_idle r m hidle] at hon h
    refine absurd (show (applyNativeSettings r.native m).due r.now = true from ?_)
      (Bool.not_eq_true _ ▸ hidle)
    rw [MonitorLoop.due, decide_eq_true_eq, hlast]
    exact ⟨hon, by omega⟩

theorem nextDelay_bounds (after : Nat) (d : Int) (h : nextDelay m after = some d) :
    1 ≤ d ∧ d ≤ 30 := by
  rw [nextDelay] at h
  split at h
  · rcases Option.map_eq_some_iff.mp h with ⟨interval, -, rfl⟩
    dsimp only
    split <;> split <;> omega
  · rw [← Option.some.inj h]
    decide

end Round

/-! ### The rounds of a loop -/

/-- The settings that were printed last. -/
def nativeAfter (known : Option NativeSettings) (natives : List Bytes) : Option NativeSettings :=
  natives.foldl (fun s native => (readNative native).or s) known

/-- The first result is that of the first round, and if there are more of them
    the loop went on. -/
theorem monitorRounds_cons (r : LoopRound) (rest : List LoopRound) (m : MonitorLoop)
    (x : RoundResult) (tail : List RoundResult) (h : monitorRounds m (r :: rest) = x :: tail) :
    x = loopRound r m ∧
      (tail = [] ∧ x.delay = none ∨ tail = monitorRounds (loopRound r m).loop rest) := by
  rw [monitorRounds, List.cons.injEq] at h
  rcases h with ⟨rfl, h⟩
  refine ⟨rfl, ?_⟩
  cases hdelay : (loopRound r m).delay with
  | none => exact Or.inl ⟨by simpa only [hdelay] using h.symm, rfl⟩
  | some d => exact Or.inr (by simpa only [hdelay] using h.symm)

/-- In every round the loop knows the settings that were printed last. -/
theorem monitorRounds_settings (rounds : List LoopRound) (m : MonitorLoop) (k : Nat)
    (x : RoundResult) (h : (monitorRounds m rounds)[k]? = some x) :
    x.loop.settings = nativeAfter m.settings ((rounds.take (k + 1)).map LoopRound.native) := by
  induction rounds generalizing m k with
  | nil => exact absurd h (by simp only [monitorRounds, List.getElem?_nil, reduceCtorEq,
      not_false_eq_true])
  | cons r rest ih =>
      rcases hresults : monitorRounds m (r :: rest) with _ | ⟨y, tail⟩
      · rw [hresults] at h
        exact absurd h (by simp only [List.getElem?_nil, reduceCtorEq, not_false_eq_true])
      rcases monitorRounds_cons r rest m y tail hresults with ⟨rfl, htail⟩
      rw [hresults] at h
      rw [List.take_succ_cons, List.map_cons, nativeAfter, List.foldl_cons, ← settings_loopRound,
        ← nativeAfter]
      cases k with
      | zero =>
          rw [List.getElem?_cons_zero, Option.some.injEq] at h
          rw [← h]
          rfl
      | succ k =>
          rw [List.getElem?_cons_succ] at h
          rcases htail with ⟨rfl, -⟩ | rfl
          · exact absurd h (by simp only [List.getElem?_nil, reduceCtorEq, not_false_eq_true])
          · exact ih _ k h

/-- After a collection the next one is an interval away, as long as monitoring
    is on. -/
theorem monitorRounds_apart (rounds : List LoopRound) (m : MonitorLoop) (time : Nat)
    (htime : time ≤ m.lastCollection) (hm : m.monitoringEnabled = [49])
    (between after : List RoundResult) (last : RoundResult)
    (h : monitorRounds m rounds = between ++ last :: after)
    (hon : ∀ x ∈ between, x.loop.monitoringEnabled = [49]) (hlast : last.collected = true) :
    time + decimal last.loop.monitoringInterval ≤ last.round.now := by
  induction rounds generalizing m between with
  | nil => exact absurd h.symm (List.append_ne_nil_of_right_ne_nil _ (List.cons_ne_nil _ _))
  | cons r rest ih =>
      rcases between with _ | ⟨x, between⟩
      · -- This is the round that collects.
        rcases monitorRounds_cons r rest m last after h with ⟨rfl, -⟩
        have hdue := (collected_loopRound r m hm (loopRound_collected r m hlast).2.1).mp hlast
        show time + _ ≤ r.now
        omega
      · rcases monitorRounds_cons r rest m x _ h with ⟨rfl, ⟨hnil, -⟩ | htail⟩
        · exact absurd hnil (List.append_ne_nil_of_right_ne_nil _ (List.cons_ne_nil _ _))
        have hloop := hon _ List.mem_cons_self
        -- It goes on with a last collection that is not earlier.
        have hlater : time ≤ (loopRound r m).loop.lastCollection := by
          rw [lastCollection_loopRound r m hm]
          split
          · next hcollected =>
            have hdue := (collected_loopRound r m hm hloop).mp hcollected
            omega
          · exact htime
        exact ih _ hlater hloop between htail.symm fun y hy => hon y (List.mem_cons_of_mem _ hy)

/-- Any result is one of a round, and those behind it are of the loop that it
    leaves. -/
theorem monitorRounds_split (rounds : List LoopRound) (m : MonitorLoop)
    (before tail : List RoundResult) (x : RoundResult)
    (h : monitorRounds m rounds = before ++ x :: tail) :
    ∃ r m' rest, x = loopRound r m' ∧
      (tail = [] ∧ x.delay = none ∨ tail = monitorRounds (loopRound r m').loop rest) := by
  induction rounds generalizing m before with
  | nil => exact absurd h.symm (List.append_ne_nil_of_right_ne_nil _ (List.cons_ne_nil _ _))
  | cons r rest ih =>
      rcases before with _ | ⟨y, before⟩
      · exact ⟨r, m, rest, monitorRounds_cons r rest m x tail h⟩
      · rcases monitorRounds_cons r rest m y _ h with ⟨-, ⟨hnil, -⟩ | htail⟩
        · exact absurd hnil (List.append_ne_nil_of_right_ne_nil _ (List.cons_ne_nil _ _))
        · exact ih _ before htail.symm

/-- A loop that is started with any settings in its files collects only in
    rounds for which the last settings that were printed switch monitoring on.
    While monitoring stays on, two collections are an interval apart. And a
    sleep is at least one second long, and at most thirty. -/
theorem monitorRounds_opt_in (intervals : Option Bytes) (native : Bytes) (rounds : List LoopRound) :
    let results := monitorRounds (applyNativeSettings native (initialLoop intervals)) rounds
    (∀ k x, results[k]? = some x → x.collected = true →
      ∃ s, nativeAfter none (native :: (rounds.take (k + 1)).map LoopRound.native) = some s ∧
        s.enabled = [49]) ∧
    (∀ before first between last after, results = before ++ first :: (between ++ last :: after) →
      first.collected = true → last.collected = true →
      (∀ x ∈ between, x.loop.monitoringEnabled = [49]) →
      first.round.now + decimal last.loop.monitoringInterval ≤ last.round.now) ∧
    ∀ x ∈ results, ∀ d ∈ x.delay, 1 ≤ d ∧ d ≤ 30 := by
  intro results
  have hround : ∀ x ∈ results, ∃ r m, x = loopRound r m := by
    intro x hx
    rcases List.append_of_mem hx with ⟨before, tail, hsplit⟩
    rcases monitorRounds_split rounds _ before tail x hsplit with ⟨r, m, -, hr, -⟩
    exact ⟨r, m, hr⟩
  refine ⟨?_, ?_, ?_⟩
  · intro k x hx hcollected
    rcases hround x (List.mem_of_getElem? hx) with ⟨r, m, rfl⟩
    rcases MonitorLoop.settings_of_enabled _ (loopRound_collected r m hcollected).2.1 with
      ⟨s, hs, hon⟩
    have hsettings := monitorRounds_settings rounds _ k _ hx
    rw [settings_applyNativeSettings, settings_initialLoop, hs] at hsettings
    exact ⟨s, by rw [nativeAfter, List.foldl_cons, ← nativeAfter, ← hsettings], hon⟩
  · intro before first between last after h hfirst hlast hon
    rcases monitorRounds_split rounds _ before _ first h with ⟨r, m, rest, rfl, ⟨hnil, -⟩ | htail⟩
    · exact absurd hnil (List.append_ne_nil_of_right_ne_nil _ (List.cons_ne_nil _ _))
    rcases loopRound_collected r m hfirst with ⟨hloop, henabled, -⟩
    have htime : r.now ≤ (loopRound r m).loop.lastCollection := by
      rw [hloop]
      exact Nat.le_refl r.now
    exact monitorRounds_apart rest _ r.now htime henabled between after last htail.symm hon hlast
  · intro x hx d hd
    rcases hround x hx with ⟨r, m, rfl⟩
    exact nextDelay_bounds _ _ d hd

/-! ### Collections that come in time -/

/-- Every round takes its time and no more, and so does every sleep. -/
structure Paced (runtime late : Nat) (results : List RoundResult) : Prop where
  rounds : ∀ x ∈ results, x.round.now ≤ x.round.after ∧ x.round.after ≤ x.round.now + runtime
  sleeps : results.IsChain fun x y => ∀ d ∈ x.delay,
    (x.round.after : Int) + d ≤ y.round.now ∧ (y.round.now : Int) ≤ x.round.after + d + late

/-- A loop that is on goes on. -/
theorem monitorRounds_goes_on (r : LoopRound) (rest : List LoopRound) (m : MonitorLoop)
    (x : RoundResult) (tail : List RoundResult) (interval : Nat) (hpos : 0 < interval)
    (h : monitorRounds m (r :: rest) = x :: tail) (hon : x.loop.monitoringEnabled = [49])
    (hinterval : x.loop.monitoringInterval = decimalText interval) :
    x = loopRound r m ∧ x.delay = nextDelay x.loop x.round.after ∧
      tail = monitorRounds x.loop rest := by
  rcases monitorRounds_cons r rest m x tail h with ⟨hx, htail⟩
  have hdelay : x.delay = nextDelay x.loop x.round.after := by rw [hx]; rfl
  refine ⟨hx, hdelay, ?_⟩
  rcases htail with ⟨-, hnone⟩ | htail
  · rcases nextDelay_of_enabled x.loop x.round.after interval hpos hon hinterval with ⟨d, hd, -⟩
    exact absurd (hdelay.symm.trans hnone) (by rw [hd]; simp only [reduceCtorEq, not_false_eq_true])
  · rw [htail, hx]

/-- From a round after a collection on: a round comes that collects. -/
theorem monitorRounds_served_from (interval runtime late time : Nat) (rounds : List LoopRound)
    (x : RoundResult) (m : MonitorLoop) (r : LoopRound) (hx : x = loopRound r m)
    (hpos : 0 < interval) (htime : x.loop.lastCollection = time)
    (hnow : x.round.now < time + interval)
    (henough : time + interval ≤ x.round.now + rounds.length)
    (hpaced : Paced runtime late (x :: monitorRounds x.loop rounds))
    (hon : ∀ y ∈ x :: monitorRounds x.loop rounds, y.loop.monitoringEnabled = [49] ∧
      y.loop.monitoringInterval = decimalText interval) :
    ∃ idle next rest, monitorRounds x.loop rounds = idle ++ next :: rest ∧
      (∀ y ∈ idle, y.collected = false) ∧ next.collected = true ∧
      time + interval ≤ next.round.now ∧ next.round.now ≤ time + interval + runtime + late := by
  induction rounds generalizing x m r with
  | nil => rw [List.length_nil] at henough; omega
  | cons s rest ih =>
      rcases hresults : monitorRounds x.loop (s :: rest) with _ | ⟨y, tail⟩
      · exact absurd hresults (List.cons_ne_nil _ _)
      rw [hresults] at hpaced hon
      rcases hon x List.mem_cons_self with ⟨hxon, hxinterval⟩
      rcases hon y (List.mem_cons_of_mem x List.mem_cons_self) with ⟨hyon, hyinterval⟩
      rcases monitorRounds_goes_on s rest x.loop y tail interval hpos hresults hyon hyinterval with
        ⟨hy, -, rfl⟩
      -- When the round begins.
      have hdelay : x.delay = nextDelay x.loop x.round.after := by rw [hx]; rfl
      rcases nextDelay_of_enabled x.loop x.round.after interval hpos hxon hxinterval with
        ⟨d, hd, hd1, hdmax⟩
      have hsleep := (List.isChain_cons_cons.mp hpaced.sleeps).1 d (hdelay.trans hd)
      have hround := hpaced.rounds x List.mem_cons_self
      have hyround : y.round = s := by rw [hy]; rfl
      have hdue := collected_loopRound s x.loop hxon (hy ▸ hyon)
      rw [← hy, hyinterval, decimal_decimalText, htime, ← hyround] at hdue
      rw [htime] at hdmax
      cases hcollected : y.collected with
      | true =>
          have hnow' := hdue.mp hcollected
          exact ⟨[], y, _, rfl, fun z hz => absurd hz List.not_mem_nil, hcollected, by omega,
            by omega⟩
      | false =>
          have hnow' : ¬ (time + interval : Int) ≤ y.round.now := fun h =>
            absurd (hdue.mpr h) (by rw [hcollected]; exact Bool.false_ne_true)
          have hlast : y.loop.lastCollection = time := by
            rw [hy, lastCollection_loopRound s x.loop hxon, ← hy, hcollected,
              if_neg Bool.false_ne_true, htime]
          -- The next round begins at least a second later.
          rw [List.length_cons] at henough
          rcases ih y x.loop s hy hlast (by omega) (by omega)
            ⟨fun z hz => hpaced.rounds z (List.mem_cons_of_mem x hz),
              (List.isChain_cons_cons.mp hpaced.sleeps).2⟩
            (fun z hz => hon z (List.mem_cons_of_mem x hz)) with
            ⟨idle, next, others, hsplit, hidle, hnext, hlow, hhigh⟩
          refine ⟨y :: idle, next, others, by rw [hsplit, List.cons_append], ?_, hnext, hlow, hhigh⟩
          intro z hz
          rcases List.mem_cons.mp hz with rfl | hz
          · exact hcollected
          · exact hidle z hz

/-- While monitoring is on, a collection comes after the interval, and it is
    late by no more than one round and one sleep are. -/
theorem monitorRounds_served (m : MonitorLoop) (first : LoopRound) (rounds : List LoopRound)
    (interval runtime late : Nat) (hcollected : (loopRound first m).collected = true)
    (hpaced : Paced runtime late (monitorRounds m (first :: rounds)))
    (hon : ∀ x ∈ monitorRounds m (first :: rounds), x.loop.monitoringEnabled = [49] ∧
      x.loop.monitoringInterval = decimalText interval)
    (henough : interval ≤ rounds.length) :
    ∃ idle next rest, monitorRounds m (first :: rounds) =
        loopRound first m :: (idle ++ next :: rest) ∧
      (∀ x ∈ idle, x.collected = false) ∧ next.collected = true ∧
      first.now + interval ≤ next.round.now ∧
      next.round.now ≤ first.now + interval + runtime + late := by
  rcases hresults : monitorRounds m (first :: rounds) with _ | ⟨x, tail⟩
  · exact absurd hresults (List.cons_ne_nil _ _)
  rw [hresults] at hpaced hon
  rcases hon x List.mem_cons_self with ⟨hxon, hxinterval⟩
  have hpos : 0 < interval := by
    have hvalid := x.loop.interval_valid
    rw [isPollInterval, decide_eq_true_eq, hxinterval, decimal_decimalText] at hvalid
    omega
  rcases monitorRounds_goes_on first rounds m x tail interval hpos hresults hxon hxinterval with
    ⟨hx, -, rfl⟩
  have hround : x.round = first := by rw [hx]; rfl
  have hlast : x.loop.lastCollection = first.now := by
    rw [hx, (loopRound_collected first m hcollected).1]
    rfl
  rcases monitorRounds_served_from interval runtime late first.now rounds x m first hx hpos hlast
    (by rw [hround]; omega) (by rw [hround]; omega) hpaced hon with ⟨idle, next, rest, hsplit, h⟩
  exact ⟨idle, next, rest, by rw [hsplit, hx], h⟩

/-- Rounds of a second with thirty seconds between collections. -/
theorem monitorRounds_served_thirty :
    let m := (initialLoop none).take (savedSettings true 30 5 (by decide))
    let first : LoopRound := ⟨[], 100, 100, 101⟩
    let rounds := (List.range 30).map fun k => ⟨[], 130 + 30 * k, 130 + 30 * k, 131 + 30 * k⟩
    ∃ idle next rest, monitorRounds m (first :: rounds) =
        loopRound first m :: (idle ++ next :: rest) ∧
      (∀ x ∈ idle, x.collected = false) ∧ next.collected = true ∧
      100 + 30 ≤ next.round.now ∧ next.round.now ≤ 100 + 30 + 1 + 0 :=
  monitorRounds_served _ _ _ 30 1 0 (by decide) ⟨by decide, by decide⟩ (by decide) (by decide)

end Zd1200
