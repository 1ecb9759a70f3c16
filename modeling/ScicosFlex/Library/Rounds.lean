/-!
# Counting in rounds

A counter that is increased at every call and restarts when it reaches the size of
a round. From zero it is the number of calls modulo the size, and it restarts at
the multiples of the size. From another value it restarts at a wrong call: too
early if the value is below the size, not at all otherwise. `bound` is the first
call at which this shows.
-/

namespace ScicosFlex.Library.Rounds

/-- The first call at which a counter that starts from `leftover` goes wrong. -/
def bound (size leftover : Nat) : Nat := if leftover < size then size - leftover else size

/-- From zero the counter restarts at the multiples of the size. -/
theorem restarts_iff (size calls : Nat) (positive : 0 < size) :
    calls % size + 1 = size ↔ size ∣ calls + 1 := by
  have below := Nat.mod_lt calls positive
  rw [Nat.dvd_iff_mod_eq_zero, Nat.add_mod]
  constructor
  · intro full
    have remainder : calls % size = size - 1 := by omega
    cases size with
    | zero => omega
    | succ less =>
      rw [remainder, Nat.add_sub_cancel]
      by_cases one : less = 0
      · subst one
        rfl
      · rw [Nat.mod_eq_of_lt (show 1 < less + 1 by omega), Nat.mod_self]
  · intro multiple
    apply Nat.le_antisymm (by omega)
    apply Nat.le_of_not_lt
    intro room
    rw [Nat.mod_eq_of_lt (show 1 < size by omega), Nat.mod_eq_of_lt room] at multiple
    omega

/-- From zero the counter is the number of calls modulo the size. -/
theorem next_eq (size calls : Nat) (positive : 0 < size) :
    (if calls % size + 1 = size then 0 else calls % size + 1) = (calls + 1) % size := by
  have below := Nat.mod_lt calls positive
  by_cases full : calls % size + 1 = size
  · rw [if_pos full]
    exact (Nat.mod_eq_zero_of_dvd ((restarts_iff size calls positive).mp full)).symm
  · have reduced : (calls % size + 1) % size = (calls + 1) % size := Nat.mod_add_mod calls size 1
    rw [if_neg full]
    exact (Nat.mod_eq_of_lt (by omega)).symm.trans reduced

/-- The bound lies inside the first round. -/
theorem bound_pos (size leftover : Nat) (positive : 0 < size) : 0 < bound size leftover := by
  simp only [bound]
  split <;> omega

/-- Before the bound the counter does not restart, and need not. -/
theorem before_bound (size leftover calls : Nat) (positive : 0 < calls)
    (before : calls < bound size leftover) : leftover + calls ≠ size ∧ ¬ size ∣ calls := by
  have inside : calls < size ∧ leftover + calls ≠ size := by
    simp only [bound] at before
    split at before <;> omega
  refine ⟨inside.2, fun divides => ?_⟩
  have := Nat.le_of_dvd positive divides
  omega

/-- At the bound the counter restarts although it should not, or the other way round. -/
theorem at_bound (size leftover : Nat) (positive : 0 < size) (shifted : leftover ≠ 0) :
    ¬ (leftover + bound size leftover = size ↔ size ∣ bound size leftover) := by
  by_cases small : leftover < size
  · have here : bound size leftover = size - leftover := if_pos small
    rw [here]
    intro same
    have divides := Nat.le_of_dvd (by omega) (same.mp (by omega))
    omega
  · have here : bound size leftover = size := if_neg small
    rw [here]
    intro same
    have full := same.mpr (Nat.dvd_refl size)
    omega

end ScicosFlex.Library.Rounds
