import Mathlib.Data.Finset.Card
import Mathlib.Data.Set.Function
import Mathlib.Order.Interval.Finset.Nat

/-!
# Ranks in a finite set

Numbering the members of a finite set of a linear order from one upwards. The rank is
strictly increasing on the members and takes every number up to their count.
-/

namespace ScicosFlex.Library.Ranks

universe u
variable {α : Type u} [LinearOrder α] (members : Finset α)

/-- How many members there are up to a place. -/
def rank (place : α) : Nat := (members.filter (· ≤ place)).card

/-- A later member has a larger rank. -/
theorem rank_strictMonoOn : StrictMonoOn (rank members) {place | place ∈ members} := by
  intro early _ late member less
  refine Finset.card_lt_card (Finset.ssubset_iff_subset_ne.mpr ⟨?_, ?_⟩)
  · intro place counted
    obtain ⟨inside, below⟩ := Finset.mem_filter.mp counted
    exact Finset.mem_filter.mpr ⟨inside, below.trans less.le⟩
  · intro same
    have counted : late ∈ members.filter (· ≤ late) := Finset.mem_filter.mpr ⟨member, le_rfl⟩
    rw [← same] at counted
    exact absurd (Finset.mem_filter.mp counted).2 (not_le.mpr less)

/-- Ranks run from one to the number of members. -/
theorem rank_bounds (place : α) (member : place ∈ members) :
    1 ≤ rank members place ∧ rank members place ≤ members.card :=
  ⟨Finset.card_pos.mpr ⟨place, Finset.mem_filter.mpr ⟨member, le_rfl⟩⟩,
    Finset.card_le_card (Finset.filter_subset _ _)⟩

/-- Every number up to the count is the rank of one member. -/
theorem rank_bijOn :
    Set.BijOn (rank members) {place | place ∈ members} (Set.Icc 1 members.card) := by
  have injective := (rank_strictMonoOn members).injOn
  have inside : ∀ place ∈ members, rank members place ∈ Finset.Icc 1 members.card :=
    fun place member => Finset.mem_Icc.mpr (rank_bounds members place member)
  refine ⟨fun place member => rank_bounds members place member, injective, ?_⟩
  intro number between
  have size : (Finset.Icc 1 members.card).card ≤ members.card := by simp
  obtain ⟨place, member, found⟩ := Finset.surj_on_of_inj_on_of_card_le
    (fun place _ => rank members place) inside
    (fun _ _ first second same => injective first second same) size number
    (Finset.mem_Icc.mpr between)
  exact ⟨place, member, found.symm⟩

end ScicosFlex.Library.Ranks
