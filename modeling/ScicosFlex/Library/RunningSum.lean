import Mathlib.Algebra.BigOperators.Fin
import Mathlib.Tactic.Abel

/-!
# Running sums over consecutive cells

The accumulator loop of an additive checksum, over any commutative group. The
loop's result is the sum of the cells it visits. Consequently a change of one
visited cell changes the result by exactly the difference of the two values, so
a change of a single cell never goes unnoticed.

A loop whose passes may fail, and do not, sums up what its passes add (`sum_loop`).
-/

namespace ScicosFlex.Library.RunningSum

universe u
variable {G : Type u} [AddCommGroup G]

/-- Add the cells from `position` on, one after the other, to the accumulator. -/
def sumLoop (cells : Nat → G) : Nat → Nat → G → G
  | 0, _, sum => sum
  | count + 1, position, sum => sumLoop cells count (position + 1) (sum + cells position)

/-- The accumulator only shifts the result. -/
theorem sumLoop_accumulator (cells : Nat → G) (count position : Nat) (sum : G) :
    sumLoop cells count position sum = sum + sumLoop cells count position 0 := by
  induction count generalizing position sum with
  | zero => simp [sumLoop]
  | succ count inductionHypothesis =>
    rw [sumLoop, sumLoop, inductionHypothesis, inductionHypothesis (position + 1) (0 + _)]
    simp [add_assoc]

/-- Loops over cells that agree give the same sum. -/
theorem sumLoop_congr (cells others : Nat → G) (count position : Nat) (sum : G)
    (agree : ∀ cell, position ≤ cell → cell < position + count → cells cell = others cell) :
    sumLoop cells count position sum = sumLoop others count position sum := by
  induction count generalizing position sum with
  | zero => rfl
  | succ count inductionHypothesis =>
    rw [sumLoop, sumLoop, agree position (by omega) (by omega)]
    exact inductionHypothesis _ _ fun cell above below => agree cell (by omega) (by omega)

/-- Changing one visited cell changes the sum by the difference of its values. -/
theorem sumLoop_change (cells others : Nat → G) (count position changed : Nat) (sum : G)
    (above : position ≤ changed) (below : changed < position + count)
    (agree : ∀ cell, cell ≠ changed → cells cell = others cell) :
    sumLoop others count position sum =
      sumLoop cells count position sum + (others changed - cells changed) := by
  induction count generalizing position sum with
  | zero => omega
  | succ count inductionHypothesis =>
    rw [sumLoop, sumLoop]
    by_cases here : changed = position
    · subst here
      rw [sumLoop_congr others cells _ _ _ fun cell behind _ => (agree cell (by omega)).symm,
        sumLoop_accumulator, sumLoop_accumulator cells _ _ (sum + cells changed)]
      abel
    · rw [← agree position (Ne.symm here)]
      exact inductionHypothesis _ _ (by omega) (by omega)

/-- A loop that adds a value for every index ends with their sum. -/
theorem sum_loop (count : Nat) (value : Fin count → G) (body : G → Nat → Option G)
    (adds : ∀ sum i (inside : i < count), body sum i = some (sum + value ⟨i, inside⟩))
    (start : G) : (List.range count).foldlM body start = some (start + ∑ i, value i) := by
  induction count with
  | zero => simp
  | succ count inductionHypothesis =>
    have earlier := inductionHypothesis (fun i => value i.castSucc)
      fun sum i inside => adds sum i (Nat.lt_succ_of_lt inside)
    have last := adds (start + ∑ i : Fin count, value i.castSucc) count (Nat.lt_succ_self count)
    rw [List.range_succ, List.foldlM_append, earlier, Fin.sum_univ_castSucc]
    simp [last, add_assoc, Fin.last]

end ScicosFlex.Library.RunningSum
