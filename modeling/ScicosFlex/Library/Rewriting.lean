import Mathlib.Data.List.Basic

/-!
# Texts that are rewritten in one pass

Every character is replaced by one other, which depends on a state. The rewritten text has
the same length (`rewritten_length`), and is rewritten part by part (`rewritten_append`).
-/

namespace ScicosFlex.Library.Rewriting

universe u v
variable {S : Type u} {α : Type v} (pass : S → α → α × S)

/-- The rewritten text. -/
def rewritten (state : S) : List α → List α
  | [] => []
  | char :: rest => (pass state char).1 :: rewritten (pass state char).2 rest

/-- The state behind the text. -/
def stateBehind (state : S) (text : List α) : S :=
  text.foldl (fun state char => (pass state char).2) state

/-- Nothing is added, and nothing is left out. -/
theorem rewritten_length (state : S) (text : List α) :
    (rewritten pass state text).length = text.length := by
  induction text generalizing state with
  | nil => rfl
  | cons char rest inductionHypothesis => exact congrArg (· + 1) (inductionHypothesis _)

/-- A text in two parts. -/
theorem rewritten_append (state : S) (front rest : List α) :
    rewritten pass state (front ++ rest) =
      rewritten pass state front ++ rewritten pass (stateBehind pass state front) rest := by
  induction front generalizing state with
  | nil => rfl
  | cons char front inductionHypothesis => exact congrArg (List.cons _) (inductionHypothesis _)

/-- A text whose characters keep the state. -/
theorem rewritten_word (state : S) (replace : α → α) (word : List α)
    (keeps : ∀ char ∈ word, pass state char = (replace char, state)) :
    rewritten pass state word = word.map replace ∧ stateBehind pass state word = state := by
  induction word with
  | nil => exact ⟨rfl, rfl⟩
  | cons char word inductionHypothesis =>
    obtain ⟨here, later⟩ := List.forall_mem_cons.mp keeps
    obtain ⟨mapped, kept⟩ := inductionHypothesis later
    constructor
    · rw [rewritten, here, mapped, List.map_cons]
    · rw [stateBehind, List.foldl_cons, here]
      exact kept

end ScicosFlex.Library.Rewriting
