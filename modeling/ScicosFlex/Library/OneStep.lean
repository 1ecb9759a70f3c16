import Mathlib.Algebra.Module.Basic
import Mathlib.Algebra.Field.Defs
import Mathlib.Algebra.Group.Action.Basic
import Mathlib.Algebra.Order.Floor.Semiring

/-!
# One-step methods

Numerical methods for `x' = f(t, x)` that compute the next state from the last one, over
any vector space: the explicit Euler method, Heun's method and the classical fourth-order
Runge-Kutta method. A method is a function of the time, the state and the step size.
Several steps of one size follow each other with `compose`; steps of given sizes with
`follow`. `Covers` is what a sequence of steps has to be to fill a period.
-/

namespace ScicosFlex.Library.OneStep

universe u v
variable {K : Type u} {V : Type v}

/-- The state after a step from a time and a state, for a step size. -/
abbrev Method (K : Type u) (V : Type v) := K → V → K → V

section Methods

variable [Field K] [AddCommGroup V] [Module K V] (slope : K → V → V)

/-- The explicit Euler method. -/
def euler : Method K V := fun t x h => x + h • slope t x

/-- Heun's method: the average of the slopes at both ends of an Euler step. -/
def heun : Method K V := fun t x h =>
  x + (h / 2) • (slope t x + slope (t + h) (x + h • slope t x))

/-- The four points at which the classical Runge-Kutta method takes a slope. -/
def firstPoint (_ : K) (x : V) (_ : K) : V := x
def secondPoint (t : K) (x : V) (h : K) : V := x + (h / 2) • slope t x
def thirdPoint (t : K) (x : V) (h : K) : V :=
  x + (h / 2) • slope (t + h / 2) (secondPoint slope t x h)
def fourthPoint (t : K) (x : V) (h : K) : V :=
  x + h • slope (t + h / 2) (thirdPoint slope t x h)

/-- The classical Runge-Kutta method with some fourth slope. -/
def weighted (t : K) (x : V) (h : K) (last : V) : V :=
  x + (h / 6) • (slope t (firstPoint t x h) + (2 : K) • slope (t + h / 2) (secondPoint slope t x h) +
    (2 : K) • slope (t + h / 2) (thirdPoint slope t x h) + last)

/-- The classical fourth-order Runge-Kutta method, with its slopes at the beginning, twice
in the middle and at the end of the step. -/
def rungeKutta : Method K V := fun t x h =>
  weighted slope t x h (slope (t + h) (fourthPoint slope t x h))

/-- Two fourth slopes give the same state only in an empty step or if they are equal. -/
theorem weighted_eq_iff (six : (6 : K) ≠ 0) (t : K) (x : V) (h : K) (left right : V) :
    weighted slope t x h left = weighted slope t x h right ↔ h = 0 ∨ left = right := by
  constructor
  · intro same
    by_cases empty : h = 0
    · exact Or.inl empty
    · have scaled := add_left_cancel same
      have factor : h / 6 ≠ 0 := div_ne_zero empty six
      have sums := (IsUnit.smul_left_cancel (IsUnit.mk0 _ factor)).mp scaled
      exact Or.inr (add_left_cancel sums)
  · rintro (rfl | rfl)
    · simp only [weighted, zero_div, zero_smul]
    · rfl

end Methods

section Steps

variable [Add K] (method : Method K V)

/-- A number of steps of one size. -/
def compose (h : K) : Nat → K → V → V
  | 0, _, x => x
  | count + 1, t, x => compose h count (t + h) (method t x h)

/-- Steps with given start times and sizes. -/
def follow (steps : List (K × K)) (x : V) : V :=
  steps.foldl (fun x step => method step.1 x step.2) x

/-- Every step starts where the one before has ended. -/
def Consecutive (t : K) : List (K × K) → Prop
  | [] => True
  | step :: rest => step.1 = t ∧ Consecutive (t + step.2) rest

/-- Consecutive steps of one size are a composition. -/
theorem follow_consecutive (h t : K) (steps : List (K × K)) (x : V)
    (consecutive : Consecutive t steps) (sizes : ∀ step ∈ steps, step.2 = h) :
    follow method steps x = compose method h steps.length t x := by
  induction steps generalizing t x with
  | nil => rfl
  | cons step rest inductionHypothesis =>
    obtain ⟨start, later⟩ := consecutive
    have size := sizes step List.mem_cons_self
    rw [size] at later
    have restSizes : ∀ step ∈ rest, step.2 = h :=
      fun step member => sizes step (List.mem_cons_of_mem _ member)
    change follow method rest (method step.1 x step.2) = _
    rw [inductionHypothesis (t + h) _ later restSizes, start, size]
    rfl

/-- A view under which one method is another keeps this over all steps. -/
theorem compose_map {W : Type v} (view : W → V) (seen : Method K W)
    (step : ∀ t state h, view (seen t state h) = method t (view state) h)
    (h : K) (count : Nat) (t : K) (state : W) :
    view (compose seen h count t state) = compose method h count t (view state) := by
  induction count generalizing t state with
  | zero => rfl
  | succ count inductionHypothesis =>
    calc view (compose seen h (count + 1) t state)
      _ = compose method h count (t + h) (view (seen t state h)) := inductionHypothesis _ _
      _ = compose method h (count + 1) t (view state) := by rw [step]; rfl

end Steps

/-- What steps of one size add up to. -/
theorem sum_full [Semiring K] (h : K) (steps : List (K × K)) (full : ∀ step ∈ steps, step.2 = h) :
    (steps.map Prod.snd).sum = steps.length * h := by
  induction steps with
  | nil => simp
  | cons step rest inductionHypothesis =>
    rw [List.map_cons, List.sum_cons, full step List.mem_cons_self,
      inductionHypothesis fun step member => full step (List.mem_cons_of_mem _ member),
      List.length_cons, Nat.cast_succ, add_mul, one_mul, add_comm]

section Periods

variable [Field K] [LinearOrder K]

/-- The steps of a period: consecutive steps of a size, the last of which may be shorter. -/
structure Covers (t h duration : K) (steps : List (K × K)) : Prop where
  consecutive : Consecutive t steps
  positive : ∀ step ∈ steps, 0 < step.2
  bounded : ∀ step ∈ steps, step.2 ≤ h
  total : (steps.map Prod.snd).sum = duration
  full : ∀ step ∈ steps.dropLast, step.2 = h

/-- One step that ends the period. -/
theorem covers_last (t h duration : K) (some : 0 < duration) (fits : duration ≤ h) :
    Covers t h duration [(t, duration)] where
  consecutive := ⟨rfl, trivial⟩
  positive := by simpa using some
  bounded := by simpa using fits
  total := by simp
  full := by simp

/-- A full step before the others. -/
theorem Covers.before {t h duration : K} {steps : List (K × K)} (size : 0 < h)
    (nonempty : steps ≠ []) (rest : Covers (t + h) h duration steps) :
    Covers t h (h + duration) ((t, h) :: steps) where
  consecutive := ⟨rfl, rest.consecutive⟩
  positive := List.forall_mem_cons.mpr ⟨size, rest.positive⟩
  bounded := List.forall_mem_cons.mpr ⟨le_rfl, rest.bounded⟩
  total := by rw [List.map_cons, List.sum_cons, rest.total]
  full := by
    rw [List.dropLast_cons_of_ne_nil nonempty]
    exact List.forall_mem_cons.mpr ⟨rfl, rest.full⟩

/-- A period is its full steps and a last one. -/
theorem Covers.split {t h duration : K} {steps : List (K × K)}
    (covers : Covers t h duration steps) (nonempty : steps ≠ []) :
    duration = (steps.length - 1 : Nat) * h + (steps.getLast nonempty).2 := by
  have parts := List.dropLast_concat_getLast nonempty
  calc duration = (steps.map Prod.snd).sum := covers.total.symm
    _ = ((steps.dropLast ++ [steps.getLast nonempty]).map Prod.snd).sum := by rw [parts]
    _ = (steps.dropLast.map Prod.snd).sum + (steps.getLast nonempty).2 := by simp
    _ = _ := by rw [sum_full h _ covers.full, List.length_dropLast]

variable [IsStrictOrderedRing K]

/-- How many steps a period has. -/
theorem Covers.count [FloorSemiring K] {t h duration : K} {steps : List (K × K)} (size : 0 < h)
    (covers : Covers t h duration steps) : steps.length = ⌈duration / h⌉₊ := by
  by_cases empty : steps = []
  · have none : duration = 0 := by rw [← covers.total, empty]; rfl
    simp [empty, none]
  · have parts := covers.split empty
    have member := List.getLast_mem empty
    have positive := covers.positive _ member
    have bounded := covers.bounded _ member
    have some : 0 < steps.length := List.length_pos_iff.mpr empty
    symm
    rw [Nat.ceil_eq_iff some.ne', lt_div_iff₀ size, div_le_iff₀ size]
    constructor
    · rw [parts]
      exact lt_add_of_pos_right _ positive
    · have length : (steps.length : K) = (steps.length - 1 : Nat) + 1 := by
        rw [← Nat.cast_succ, Nat.succ_eq_add_one, Nat.sub_add_cancel some]
      rw [parts, length, add_mul, one_mul]
      exact add_le_add_right bounded _

/-- In a period that full steps fill, the last one is full as well. -/
theorem Covers.all_full [FloorSemiring K] {t h : K} {steps : List (K × K)} (size : 0 < h)
    (count : Nat) (covers : Covers t h (count * h) steps) :
    steps.length = count ∧ ∀ step ∈ steps, step.2 = h := by
  have length : steps.length = count := by
    rw [covers.count size, mul_div_cancel_right₀ _ size.ne', Nat.ceil_natCast]
  refine ⟨length, fun step member => ?_⟩
  have nonempty : steps ≠ [] := List.ne_nil_of_mem member
  rw [← List.dropLast_concat_getLast nonempty, List.mem_append] at member
  rcases member with early | last
  · exact covers.full step early
  · rw [List.mem_singleton.mp last]
    have parts := covers.split nonempty
    have some : 0 < count := length ▸ List.length_pos_iff.mpr nonempty
    have whole : (count : K) = (count - 1 : Nat) + 1 := by
      rw [← Nat.cast_succ, Nat.succ_eq_add_one, Nat.sub_add_cancel some]
    rw [length, whole, add_mul, one_mul] at parts
    exact (add_left_cancel parts).symm

end Periods

end ScicosFlex.Library.OneStep
