import Mathlib.Data.List.Forall2

/-!
# A computation for each element of a list

The computations may fail; then the whole has no result. If every computation has a result,
the results are found in the order of the elements (`mapM_pairs`).
-/

namespace ScicosFlex.Library.Sequences

universe u v w
variable {α : Type u} {β : Type v} {γ : Type w}

/-- Computations with known results. -/
theorem mapM_some (f : α → Option β) (g : α → β) (l : List α)
    (same : ∀ a ∈ l, f a = some (g a)) : l.mapM f = some (l.map g) := by
  induction l with
  | nil => rfl
  | cons a rest inductionHypothesis =>
    rw [List.mapM_cons, same a List.mem_cons_self,
      inductionHypothesis fun b member => same b (List.mem_cons_of_mem _ member)]
    rfl

/-- Computations that all have a result. -/
theorem mapM_exists (f : α → Option β) (l : List α)
    (succeeds : ∀ a ∈ l, ∃ b, f a = some b) : ∃ results, l.mapM f = some results := by
  induction l with
  | nil => exact ⟨[], rfl⟩
  | cons a rest inductionHypothesis =>
    obtain ⟨b, here⟩ := succeeds a List.mem_cons_self
    obtain ⟨results, there⟩ := inductionHypothesis
      fun other member => succeeds other (List.mem_cons_of_mem _ member)
    exact ⟨b :: results, by simp [List.mapM_cons, here, there]⟩

/-- The elements and their results. -/
theorem mapM_pairs (f : α → Option β) (l : List α) (results : List β) :
    l.mapM f = some results ↔ List.Forall₂ (fun a b => f a = some b) l results := by
  induction l generalizing results with
  | nil => simp [eq_comm]
  | cons a rest inductionHypothesis =>
    simp only [List.mapM_cons, Option.bind_eq_bind, Option.bind_eq_some_iff, Option.pure_def,
      Option.some.injEq, List.forall₂_cons_left_iff, inductionHypothesis]
    constructor
    · rintro ⟨b, here, later, there, rfl⟩
      exact ⟨b, later, here, there, rfl⟩
    · rintro ⟨b, later, here, there, rfl⟩
      exact ⟨b, here, later, there, rfl⟩

/-- An element and its result. -/
theorem mapM_entry (f : α → Option β) (l : List α) (results : List β) (i : Nat) (b : β)
    (succeeds : l.mapM f = some results) (found : results[i]? = some b) :
    ∃ a, l[i]? = some a ∧ f a = some b := by
  have pairs := (mapM_pairs f l results).mp succeeds
  clear succeeds
  induction pairs generalizing i with
  | nil => cases found
  | cons here _ inductionHypothesis =>
    cases i with
    | zero =>
      cases found
      exact ⟨_, rfl, here⟩
    | succ i => exact inductionHypothesis i found

/-- Every result is that of an element. -/
theorem mapM_member (f : α → Option β) (l : List α) (results : List β)
    (succeeds : l.mapM f = some results) (b : β) (member : b ∈ results) : ∃ a ∈ l, f a = some b := by
  obtain ⟨i, found⟩ := List.mem_iff_getElem?.mp member
  obtain ⟨a, entry, result⟩ := mapM_entry f l results i b succeeds found
  exact ⟨a, List.mem_of_getElem? entry, result⟩

/-- Computations for elements, in terms of what another computation has found for them. -/
theorem mapM_through (f : α → Option β) (g : α → Option γ) (h : β → γ) (l : List α)
    (found : List β) (finds : l.mapM f = some found)
    (same : ∀ a, ∀ b ∈ found, f a = some b → g a = some (h b)) :
    l.mapM g = some (found.map h) := by
  have pairs := (mapM_pairs f l found).mp finds
  clear finds
  induction pairs with
  | nil => rfl
  | cons here _ inductionHypothesis =>
    rw [List.mapM_cons, same _ _ List.mem_cons_self here,
      inductionHypothesis fun a b member => same a b (List.mem_cons_of_mem _ member)]
    rfl

end ScicosFlex.Library.Sequences
