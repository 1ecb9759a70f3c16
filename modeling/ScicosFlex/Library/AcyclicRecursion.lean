import Mathlib.Data.Set.Card
import Mathlib.Logic.Relation

/-!
# Recursion along an acyclic relation

A recursive function without a termination measure of its own is modelled with
fuel: every call passes one unit less to its recursive calls and gives up when
none is left. If the calls follow a relation on a finite domain in which nothing
reaches itself, every call terminates, and one number of units suffices for each
start. The results of all calls then solve the recursive equations, which is how
proofs about such functions go on without fuel.
-/

namespace ScicosFlex.Library.AcyclicRecursion

universe u v w
variable {α : Type u} {β : Type v}

/-- A recursive function with a bounded depth of calls. -/
def fuelled (step : (α → Option β) → α → Option β) : Nat → α → Option β
  | 0, _ => none
  | fuel + 1, a => step (fuelled step fuel) a

/-- What one call keeps when its recursive calls do, every result satisfies. -/
theorem fuelled_spec (step : (α → Option β) → α → Option β) (P : α → β → Prop)
    (keeps : ∀ call : α → Option β, (∀ a b, call a = some b → P a b) →
      ∀ a b, step call a = some b → P a b) :
    ∀ fuel a b, fuelled step fuel a = some b → P a b := by
  intro fuel
  induction fuel with
  | zero => exact fun a b found => nomatch found
  | succ fuel inductionHypothesis => exact keeps (fuelled step fuel) inductionHypothesis

/-- A finite domain that the relation does not leave, and in which no element
reaches itself. -/
structure Acyclic (next : α → α → Prop) (domain : α → Prop) : Prop where
  finite : {a | domain a}.Finite
  closed : ∀ a b, domain a → next a b → domain b
  irreflexive : ∀ a, domain a → ¬ Relation.TransGen next a a

/-- The elements reached from `a`. -/
def reached (next : α → α → Prop) (a : α) : Set α := {b | Relation.TransGen next a b}

/-- The number of elements still ahead. -/
noncomputable def rank (next : α → α → Prop) (a : α) : Nat := (reached next a).ncard

/-- Nothing outside the domain is reached from inside. -/
theorem reached_domain {next : α → α → Prop} {domain : α → Prop} (acyclic : Acyclic next domain)
    (a : α) (inside : domain a) : reached next a ⊆ {b | domain b} := by
  intro b path
  induction path with
  | single one => exact acyclic.closed a _ inside one
  | tail _ one inductionHypothesis => exact acyclic.closed _ _ inductionHypothesis one

/-- Every step along the relation leaves fewer elements ahead. -/
theorem rank_lt {next : α → α → Prop} {domain : α → Prop} (acyclic : Acyclic next domain)
    (a b : α) (inside : domain a) (one : next a b) : rank next b < rank next a := by
  apply Set.ncard_lt_ncard
  · refine ⟨fun c path => Relation.TransGen.head one path, fun all => ?_⟩
    exact acyclic.irreflexive b (acyclic.closed a b inside one) (all (Relation.TransGen.single one))
  · exact acyclic.finite.subset (reached_domain acyclic a inside)

/-- No more elements are ahead than the domain has. -/
theorem rank_le {next : α → α → Prop} {domain : α → Prop} (acyclic : Acyclic next domain)
    (a : α) (inside : domain a) : rank next a ≤ {b | domain b}.ncard :=
  Set.ncard_le_ncard (reached_domain acyclic a inside) acyclic.finite

/-- Induction from the results of all recursive calls. -/
theorem acyclic_induction {next : α → α → Prop} {domain : α → Prop}
    (acyclic : Acyclic next domain) (P : α → Prop)
    (grow : ∀ a, domain a → (∀ b, next a b → domain b → P b) → P a) (a : α) (inside : domain a) :
    P a := by
  induction depth : rank next a using Nat.strong_induction_on generalizing a with
  | h depth inductionHypothesis =>
    refine grow a inside fun b one within => ?_
    exact inductionHypothesis (rank next b) (depth ▸ rank_lt acyclic a b inside one) b within rfl

/-- If a call succeeds whenever its recursive calls do, then all calls with a key
in the domain succeed with enough fuel, and their results solve the equation that
describes one call. Only the key of an argument has to move along the relation;
what else the argument holds is free. -/
theorem fuelled_solution [Inhabited β] {κ : Type w} (key : α → κ) {next : κ → κ → Prop}
    {domain : κ → Prop} (acyclic : Acyclic next domain)
    (step : (α → Option β) → α → Option β) (solve : (α → β) → α → β)
    (succeeds : ∀ (call : α → Option β) (result : α → β) (a : α), domain (key a) →
      (∀ b, next (key a) (key b) → call b = some (result b)) → step call a = some (solve result a)) :
    ∃ result : α → β, (∀ a, domain (key a) → result a = solve result a) ∧
      ∀ a, domain (key a) → ∀ fuel, rank next (key a) < fuel →
        fuelled step fuel a = some (result a) := by
  let result : α → β := fun b => (fuelled step (rank next (key b) + 1) b).getD default
  have terminates : ∀ k, domain k → ∀ a, key a = k →
      ∃ b, ∀ fuel, rank next k < fuel → fuelled step fuel a = some b := by
    apply acyclic_induction acyclic
    rintro _ inside below a rfl
    refine ⟨solve result a, fun fuel enough => ?_⟩
    obtain ⟨less, rfl⟩ : ∃ less, fuel = less + 1 := ⟨fuel - 1, by omega⟩
    refine succeeds (fuelled step less) result a inside fun b one => ?_
    obtain ⟨value, found⟩ := below (key b) one (acyclic.closed _ _ inside one) b rfl
    have lower := rank_lt acyclic (key a) (key b) inside one
    rw [found less (by omega), show result b = value by simp [result, found]]
  have found (a : α) (inside : domain (key a)) (fuel : Nat) (enough : rank next (key a) < fuel) :
      fuelled step fuel a = some (result a) := by
    obtain ⟨value, always⟩ := terminates (key a) inside a rfl
    rw [always fuel enough, show result a = value by simp [result, always]]
  refine ⟨result, fun a inside => ?_, found⟩
  have one : fuelled step (rank next (key a) + 2) a = some (solve result a) :=
    succeeds (fuelled step (rank next (key a) + 1)) result a inside fun b edge => by
      have lower := rank_lt acyclic (key a) (key b) inside edge
      exact found b (acyclic.closed _ _ inside edge) _ (by omega)
  exact Option.some.inj ((found a inside _ (by omega)).symm.trans one)

end ScicosFlex.Library.AcyclicRecursion
