import Mathlib.Data.List.Lex
import Mathlib.Data.List.Forall2

/-!
# Choices of one position in each of several lists

Nested loops run through all choices of positions (`mem_choices`), in the lexicographic
order (`choices_sorted`), and therefore through no choice twice.
-/

namespace ScicosFlex.Library.Choices

/-- One position below each of the counts; the last position changes fastest. -/
def choices : List Nat → List (List Nat)
  | [] => [[]]
  | count :: counts => (List.range count).flatMap fun i => (choices counts).map (i :: ·)

/-- The choices are the positions below the counts. -/
theorem mem_choices (positions counts : List Nat) :
    positions ∈ choices counts ↔ List.Forall₂ (· < ·) positions counts := by
  induction counts generalizing positions with
  | nil => rw [choices, List.mem_singleton, List.forall₂_nil_right_iff]
  | cons count counts inductionHypothesis =>
    rw [choices, List.forall₂_cons_right_iff]
    simp only [List.mem_flatMap, List.mem_range, List.mem_map, inductionHypothesis]
    constructor
    · rintro ⟨i, below, rest, others, rfl⟩
      exact ⟨i, rest, below, others, rfl⟩
    · rintro ⟨i, rest, below, others, rfl⟩
      exact ⟨i, below, rest, others, rfl⟩

/-- The choices are in their lexicographic order. -/
theorem choices_sorted (counts : List Nat) : (choices counts).Pairwise (List.Lex (· < ·)) := by
  induction counts with
  | nil => exact List.pairwise_singleton _ _
  | cons count counts inductionHypothesis =>
    rw [choices, List.pairwise_flatMap]
    constructor
    · intro i _
      exact List.pairwise_map.mpr (inductionHypothesis.imp fun earlier => .cons earlier)
    · refine List.pairwise_lt_range.imp fun smaller => ?_
      intro one first two second
      obtain ⟨_, _, rfl⟩ := List.mem_map.mp first
      obtain ⟨_, _, rfl⟩ := List.mem_map.mp second
      exact .rel smaller

end ScicosFlex.Library.Choices
