import Mathlib.Data.List.Infix
import Zd1200.Monitor.Text

/-!
# The Health of the Guest

`zd-healthcheck.sh`, which tells from the log of the guest's serial port whether
the guest is up.

The script has no memory. It searches the whole log three times, for the last
line that says that the guest is ready, for the last one that says that it is
stopped, and for the last one that says that its file system is broken, and
compares the numbers of these lines. What it tells is what an observer would
know who had read the log line by line: the guest is up from a line that says so
until one that says otherwise. An observer need not look back when the log has
grown (`healthCheck_correct`).

A line that is written in part is a line for the search.

## Main definitions

* `lastLine`: The number of the last line of a kind.
* `comparesUp`, `healthCheck`: The script.
* `observe`: What a line tells an observer.

## Theorems

* `lastLine_concat`: How a search goes on with another line.
* `comparesUp_eq`: The comparisons and the observer.
* `foldl_observe_iff`: What the observer knows.
* `healthCheck_correct`: The script.
-/

namespace Zd1200

/-! ### The script -/

/-- The line number that `grep -n … | tail -n 1 | cut -d: -f1` prints. -/
def lastLine (found : Bytes → Bool) (lines : List Bytes) : Option Nat :=
  (((lines.zipIdx 1).filter fun line => found line.1).getLast?).map Prod.snd

def isReadyLine (line : Bytes) : Bool := ascii "ZD-HEALTH: guest web service ready" <:+: line

def isStopLine (line : Bytes) : Bool :=
  ascii "System Shutdown" <:+: line ∨ ascii "Restarting system" <:+: line

def isFaultLine (line : Bytes) : Bool :=
  ascii "EXT2-fs error (device hda4)" <:+: line ∨
    ascii "Remounting filesystem read-only" <:+: line ∨
    ascii "hda4 filesystem repair failed" <:+: line

/-- `[ -z "$other" ] || [ "$ready" -gt "$other" ]`. -/
def isBehind (ready : Nat) (other : Option Nat) : Bool :=
  match other with
  | none => true
  | some line => line < ready

/-- The comparisons of the script. -/
def comparesUp (lines : List Bytes) : Bool :=
  match lastLine isReadyLine lines with
  | none => false
  | some ready =>
      isBehind ready (lastLine isStopLine lines) && isBehind ready (lastLine isFaultLine lines)

/-- The script succeeds. The log is there if it can be read. -/
def healthCheck (qemuRuns : Bool) (log : Option Bytes) : Bool :=
  qemuRuns && log.any fun text => comparesUp (text.splitOn 10)

/-! ### The observer -/

/-- What a line tells of the guest. A line that says both says that it is down. -/
def observe (up : Bool) (line : Bytes) : Bool :=
  if isStopLine line || isFaultLine line then false else isReadyLine line || up

/-- What an observer knows at the end of a log. -/
def guestUp (text : Bytes) : Bool := (text.splitOn 10).foldl observe false

/-! ### Searches -/

/-- Another line is the last one of its kind, or the search stays where it was. -/
theorem lastLine_concat (found : Bytes → Bool) (lines : List Bytes) (line : Bytes) :
    lastLine found (lines ++ [line]) =
      if found line = true then some (lines.length + 1) else lastLine found lines := by
  rw [lastLine, List.zipIdx_append, List.filter_append]
  by_cases hfound : found line = true
  · rw [if_pos hfound]
    simp [hfound, Nat.add_comm]
  · rw [if_neg hfound]
    simp [hfound, lastLine]

/-- A line that was found is one of the log. -/
theorem lastLine_le (found : Bytes → Bool) (lines : List Bytes) (n : Nat)
    (h : lastLine found lines = some n) : n ≤ lines.length := by
  induction lines using List.reverseRecOn with
  | nil => exact absurd h (by simp [lastLine])
  | append_singleton lines line ih =>
      rw [lastLine_concat] at h
      rw [List.length_append, List.length_singleton]
      split at h
      · exact (Option.some.inj h).symm.le
      · exact (ih h).trans (Nat.le_succ _)

/-- Where a search stands that finds nothing in the next line. -/
theorem isBehind_lastLine (found : Bytes → Bool) (lines : List Bytes) :
    isBehind (lines.length + 1) (lastLine found lines) = true := by
  rcases hlast : lastLine found lines with _ | n
  · rfl
  · exact decide_eq_true (Nat.lt_succ_of_le (lastLine_le found lines n hlast))

/-- The last line of a log is behind no line of the log. -/
theorem isBehind_length (found : Bytes → Bool) (lines : List Bytes) (line : Bytes) (n : Nat)
    (h : lastLine found (lines ++ [line]) = some n) :
    isBehind n (some (lines.length + 1)) = false := by
  have hle := lastLine_le found _ n h
  rw [List.length_append, List.length_singleton] at hle
  exact decide_eq_false (Nat.not_lt.mpr hle)

/-- With another line the comparisons come to what the observer knows. -/
theorem comparesUp_concat (lines : List Bytes) (line : Bytes) :
    comparesUp (lines ++ [line]) = observe (comparesUp lines) line := by
  rw [comparesUp, observe]
  by_cases hdown : (isStopLine line || isFaultLine line) = true
  · -- The number of this line is the greatest there is.
    rw [if_pos hdown]
    split
    · rfl
    · next ready hready =>
      have hend := isBehind_length isReadyLine lines line ready hready
      rw [lastLine_concat, lastLine_concat]
      rcases (Bool.or_eq_true _ _).mp hdown with hstop | hfault
      · rw [if_pos hstop, hend, Bool.false_and]
      · rw [if_pos hfault, hend, Bool.and_false]
  · rw [if_neg hdown]
    rw [Bool.or_eq_true, not_or] at hdown
    rw [lastLine_concat, lastLine_concat, lastLine_concat, if_neg hdown.1, if_neg hdown.2]
    by_cases hready : isReadyLine line = true
    · simp only [hready, if_true, isBehind_lastLine, Bool.and_true, Bool.true_or]
    · rw [Bool.not_eq_true] at hready
      simp only [hready, Bool.false_eq_true, if_false, Bool.false_or]
      rfl

/-- The comparisons come to what the observer knows. -/
theorem comparesUp_eq (lines : List Bytes) : comparesUp lines = lines.foldl observe false := by
  induction lines using List.reverseRecOn with
  | nil => rfl
  | append_singleton lines line ih => rw [comparesUp_concat, List.foldl_concat, ih]

/-! ### What the observer knows -/

/-- The line says that the guest is down. -/
def SaysDown (line : Bytes) : Prop := isStopLine line = true ∨ isFaultLine line = true

/-- The guest is up exactly if a line says so and no later one the opposite. -/
theorem foldl_observe_iff (lines : List Bytes) :
    lines.foldl observe false = true ↔
      ∃ front line back, lines = front ++ line :: back ∧ isReadyLine line = true ∧
        ∀ other ∈ line :: back, ¬ SaysDown other := by
  induction lines using List.reverseRecOn with
  | nil =>
      refine iff_of_false Bool.false_ne_true ?_
      rintro ⟨front, line, back, heq, -⟩
      exact absurd heq (by simp)
  | append_singleton lines last ih =>
      rw [List.foldl_concat, observe]
      by_cases hdown : SaysDown last
      · rw [if_pos ((Bool.or_eq_true _ _).mpr hdown)]
        refine iff_of_false Bool.false_ne_true ?_
        rintro ⟨front, line, back, heq, -, hno⟩
        have hlast : (line :: back).getLast? = some last := by
          have := congrArg List.getLast? heq
          rwa [List.getLast?_concat, List.getLast?_append_cons, eq_comm] at this
        exact hno last (List.mem_of_getLast? hlast) hdown
      · rw [if_neg fun h => hdown ((Bool.or_eq_true _ _).mp h), Bool.or_eq_true, ih]
        constructor
        · rintro (hready | ⟨front, line, back, rfl, hready, hno⟩)
          · exact ⟨lines, last, [], rfl, hready, fun other hother =>
              List.mem_singleton.mp hother ▸ hdown⟩
          · refine ⟨front, line, back ++ [last], ?_, hready, fun other hother => ?_⟩
            · rw [List.append_assoc, List.cons_append]
            · rw [← List.cons_append] at hother
              rcases List.mem_append.mp hother with hother | hother
              · exact hno other hother
              · exact List.mem_singleton.mp hother ▸ hdown
        · rintro ⟨front, line, back, heq, hready, hno⟩
          rcases List.eq_nil_or_concat back with rfl | ⟨rest, ending, rfl⟩
          · rcases List.append_inj' heq rfl with ⟨-, hsame⟩
            rw [List.singleton_inj] at hsame
            exact Or.inl (hsame ▸ hready)
          · rw [List.concat_eq_append] at heq hno
            rw [← List.cons_append, ← List.append_assoc] at heq
            rcases List.append_inj' heq rfl with ⟨hfront, -⟩
            refine Or.inr ⟨front, line, rest, hfront, hready, fun other hother => ?_⟩
            refine hno other ?_
            rcases List.mem_cons.mp hother with rfl | hother
            · exact List.mem_cons_self
            · exact List.mem_cons_of_mem _ (List.mem_append_left _ hother)

/-- The script tells what the observer knows, and the observer need not look back
    when the log has grown by some lines. -/
theorem healthCheck_correct (qemuRuns : Bool) (text : Bytes) :
    (healthCheck qemuRuns (some text) = true ↔
        qemuRuns = true ∧ ∃ front line back, text.splitOn 10 = front ++ line :: back ∧
          isReadyLine line = true ∧ ∀ other ∈ line :: back, ¬ SaysDown other) ∧
      ∀ more, healthCheck qemuRuns (some (text ++ 10 :: more)) =
        (qemuRuns && (more.splitOn 10).foldl observe (guestUp text)) := by
  have hcheck : ∀ log, healthCheck qemuRuns (some log) = (qemuRuns && guestUp log) := by
    intro log
    exact congrArg (qemuRuns && ·) (comparesUp_eq (log.splitOn 10))
  constructor
  · rw [hcheck, Bool.and_eq_true, guestUp, foldl_observe_iff]
  · intro more
    have hsplit : (text ++ 10 :: more).splitOn 10 = text.splitOn 10 ++ more.splitOn 10 := by
      rw [List.splitOn_eq_splitOnP, List.splitOn_eq_splitOnP, List.splitOn_eq_splitOnP]
      exact List.splitOnP_append_cons text more (p := fun c => c == 10) (by decide)
    rw [hcheck, guestUp, hsplit, List.foldl_append, guestUp]

end Zd1200
