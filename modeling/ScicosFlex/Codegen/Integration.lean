import Mathlib.Algebra.Order.Field.Rat
import Mathlib.Data.Rat.Floor
import Mathlib.Tactic.Linarith
import ScicosFlex.Codegen.Solvers
import ScicosFlex.Library.WhileLoops

/-!
# The integration of one sampling period

The part of `<model>_isr` that `make_standalonert` of `FlexCodeGen_.sci` writes for a model
with a continuous state: a loop of solver steps of the size `h` and one solver step for
what is left of the period. The arithmetic is that of rational numbers. The solver is a
parameter: `ode1`, `ode2` or `ode4` for an explicit model, `dae1` for an implicit one.

The steps of a run do not depend on the solver, and they cover the period
(`isr_covers_period`).
-/

namespace ScicosFlex.Codegen.Integration

open Library.OneStep Library.WhileLoops

section Loop

variable {V : Type}

/-- The variables that the integration changes: `tout`, and the arrays that the solver
works on. -/
structure Progress (V : Type) where
  tout : Rat
  state : V

/-- A pass of the loop `while (tout+h<t+dt)`; the last solver step stands behind it. -/
def pass (solver : Method Rat V) (t dt h : Rat) (progress : Progress V) :
    Pass (Progress V) V :=
  if progress.tout + h < t + dt then
    .again ⟨progress.tout + h, solver progress.tout progress.state h⟩
  else
    let he := t + dt - progress.tout
    .leave (solver progress.tout progress.state he)

/-- The integration in `<model>_isr(t)`, with `dt` from `<model>_get_tsamp()`, ends with
a state. A loop that does not end has no such state. -/
def Integrates (solver : Method Rat V) (t dt odestep : Rat) (state result : V) : Prop :=
  let tout := t
  let h := dt / odestep
  Returns (pass solver t dt h) ⟨tout, state⟩ result

/-- A last step for what is left of the period. -/
theorem loop_ends (solver : Method Rat V) (t dt h tout : Rat) (state : V)
    (last : ¬ tout + h < t + dt) :
    Returns (pass solver t dt h) ⟨tout, state⟩ (follow solver [(tout, t + dt - tout)] state) := by
  have left : pass solver t dt h ⟨tout, state⟩ =
      .leave (solver tout state (t + dt - tout)) := if_neg last
  exact (returns_of_leave _ _ _ _ left).mpr rfl

/-- A full step, and the loop goes on. -/
theorem loop_steps (solver : Method Rat V) (t dt h tout : Rat) (state : V)
    (again : tout + h < t + dt) (result : V)
    (rest : Returns (pass solver t dt h) ⟨tout + h, solver tout state h⟩ result) :
    Returns (pass solver t dt h) ⟨tout, state⟩ result := by
  have stays : pass solver t dt h ⟨tout, state⟩ = .again ⟨tout + h, solver tout state h⟩ :=
    if_pos again
  exact (returns_of_again _ _ _ _ stays).mpr rest

/-- What the loop and the step behind it do from a time before the end of the period. -/
theorem loop_covers (t dt h : Rat) (size : 0 < h) (count : Nat) (tout : Rat)
    (before : tout < t + dt) (near : t + dt ≤ tout + (count + 1) * h) :
    ∃ steps, Covers tout h (t + dt - tout) steps ∧
      ∀ (V : Type) (solver : Method Rat V) (state : V),
        Returns (pass solver t dt h) ⟨tout, state⟩ (follow solver steps state) := by
  induction count generalizing tout with
  | zero =>
    have last : ¬ tout + h < t + dt := by
      rw [Nat.cast_zero, zero_add, one_mul] at near
      exact not_lt.mpr near
    exact ⟨_, covers_last tout h _ (by linarith) (by linarith),
      fun V solver state => loop_ends solver t dt h tout state last⟩
  | succ count inductionHypothesis =>
    by_cases again : tout + h < t + dt
    · obtain ⟨steps, covers, run⟩ := inductionHypothesis (tout + h) again (by
        push_cast at near
        linarith)
      have nonempty : steps ≠ [] := by
        rintro rfl
        have none : (0 : Rat) = t + dt - (tout + h) := covers.total
        linarith
      refine ⟨(tout, h) :: steps, ?_, ?_⟩
      · have whole := covers.before size nonempty
        rwa [show h + (t + dt - (tout + h)) = t + dt - tout by ring] at whole
      · intro V solver state
        exact loop_steps solver t dt h tout state again _ (run V solver (solver tout state h))
    · exact ⟨_, covers_last tout h _ (by linarith) (by linarith),
        fun V solver state => loop_ends solver t dt h tout state again⟩

/-- The solver steps of one `_isr`, whatever the solver is: the times at which the loop
goes on do not depend on the state it computes. -/
theorem period_steps (t dt odestep : Rat) (period : 0 < dt) (some : 0 < odestep) :
    ∃ steps, Covers t (dt / odestep) dt steps ∧
      ∀ (V : Type) (solver : Method Rat V) (state result : V),
        Integrates solver t dt odestep state result ↔ result = follow solver steps state := by
  have size : 0 < dt / odestep := div_pos period some
  have whole : odestep * (dt / odestep) = dt := mul_div_cancel₀ dt some.ne'
  have enough : t + dt ≤ t + ((⌈odestep⌉₊ : Rat) + 1) * (dt / odestep) := by
    have above := mul_le_mul_of_nonneg_right (Nat.le_ceil odestep) size.le
    linarith
  obtain ⟨steps, covers, run⟩ := loop_covers t dt (dt / odestep) size ⌈odestep⌉₊ t
    (by linarith) enough
  rw [add_sub_cancel_left] at covers
  refine ⟨steps, covers, fun V solver state result => ⟨?_, ?_⟩⟩
  · exact fun ended => returns_unique _ _ _ _ ended (run V solver state)
  · rintro rfl
    exact run V solver state

/-- The steps of a period that a whole number of steps fills. -/
theorem whole_steps (t dt : Rat) (period : 0 < dt) (count : Nat) (some : (0 : Rat) < count)
    (steps : List (Rat × Rat)) (covers : Covers t (dt / count) dt steps) :
    steps.length = count ∧ (∀ step ∈ steps, step.2 = dt / count) ∧
      ∀ (V : Type) (solver : Method Rat V) (state : V),
        follow solver steps state = compose solver (dt / count) count t state := by
  have filled : Covers t (dt / count) (count * (dt / count)) steps := by
    rw [mul_div_cancel₀ dt some.ne']
    exact covers
  obtain ⟨length, full⟩ := filled.all_full (div_pos period some) count
  refine ⟨length, full, fun V solver state => ?_⟩
  rw [follow_consecutive solver _ t steps state covers.consecutive full, length]

end Loop

/-- One `_isr` integrates one sampling period: for every solver it ends, after the same
consecutive steps, which cover the period. A whole number of steps are steps of the size
`h`. Times and steps are rational numbers here, so nothing is said about rounding, by
which the program may make one step more of next to no length. -/
theorem isr_covers_period (t dt odestep : Rat) (period : 0 < dt) (some : 0 < odestep) :
    ∃ steps, Covers t (dt / odestep) dt steps ∧
      steps.length = ⌈odestep⌉₊ ∧
      (∀ (V : Type) (solver : Method Rat V) (state result : V),
        Integrates solver t dt odestep state result ↔ result = follow solver steps state) ∧
      ∀ count : Nat, odestep = count →
        steps.length = count ∧ (∀ step ∈ steps, step.2 = dt / odestep) ∧
        ∀ (V : Type) (solver : Method Rat V) (state result : V),
          Integrates solver t dt odestep state result ↔
            result = compose solver (dt / odestep) count t state := by
  obtain ⟨steps, covers, returned⟩ := period_steps t dt odestep period some
  refine ⟨steps, covers, ?_, returned, ?_⟩
  · rw [covers.count (div_pos period some), div_div_cancel₀ period.ne']
  · rintro count rfl
    obtain ⟨length, full, composed⟩ := whole_steps t dt period count some steps covers
    refine ⟨length, full, fun V solver state result => ?_⟩
    rw [returned, composed]

/-- A second in three steps. -/
theorem second_in_thirds :
    ∃ steps, Covers 0 (1 / 3) (1 : Rat) steps ∧ steps.length = 3 ∧
      ∀ step ∈ steps, step.2 = 1 / 3 := by
  obtain ⟨steps, covers, -, -, equal⟩ := isr_covers_period 0 1 3 (by norm_num) (by norm_num)
  obtain ⟨length, sizes, -⟩ := equal 3 rfl
  exact ⟨steps, covers, length, sizes⟩

section Explicit

open Solvers

variable {neq : Nat}

/-- `ode1`, `ode2` or `ode4` in the loop: it changes `x` and `xd`, and its error code is not
looked at. -/
def odeSolver (ode : Array neq → Array neq → Rat → Rat → Left neq) :
    Method Rat (Array neq × Array neq) :=
  fun t arrays h =>
    let left := ode arrays.1 arrays.2 t h
    (left.x, left.xd)

/-- A solver that is a step of a method makes `_isr` the steps of this method. -/
theorem isr_method (ode : Array neq → Array neq → Rat → Rat → Left neq)
    (method : Method Rat (Array neq))
    (isMethod : ∀ x xd t h, (ode x xd t h).x = method t x h)
    (t dt : Rat) (period : 0 < dt) (count : Nat) (some : (0 : Rat) < count)
    (arrays result : Array neq × Array neq)
    (integrated : Integrates (odeSolver ode) t dt count arrays result) :
    result.1 = compose method (dt / count) count t arrays.1 := by
  obtain ⟨steps, covers, returned⟩ := period_steps t dt count period some
  obtain ⟨-, -, composed⟩ := whole_steps t dt period count some steps covers
  rw [returned, composed] at integrated
  rw [integrated]
  exact compose_map method Prod.fst (odeSolver ode)
    (fun time arrays h => isMethod arrays.1 arrays.2 time h) _ count t arrays

/-- With `ode1` one `_isr` makes steps of the Euler method. -/
theorem isr_euler (f : Derivative neq) (succeeds : Succeeds f) (t dt : Rat) (period : 0 < dt)
    (count : Nat) (some : (0 : Rat) < count) (arrays result : Array neq × Array neq)
    (integrated : Integrates (odeSolver (ode1 f)) t dt count arrays result) :
    result.1 = compose (euler (slope f)) (dt / count) count t arrays.1 :=
  isr_method (ode1 f) _ (fun x xd t h => by rw [ode1_euler f succeeds])
    t dt period count some arrays result integrated

/-- With `ode2` one `_isr` makes steps of Heun's method. -/
theorem isr_heun (f : Derivative neq) (succeeds : Succeeds f) (t dt : Rat) (period : 0 < dt)
    (count : Nat) (some : (0 : Rat) < count) (arrays result : Array neq × Array neq)
    (integrated : Integrates (odeSolver (ode2 f)) t dt count arrays result) :
    result.1 = compose (heun (slope f)) (dt / count) count t arrays.1 :=
  isr_method (ode2 f) _ (fun x xd t h => ode2_heun f succeeds x xd t h)
    t dt period count some arrays result integrated

end Explicit

end ScicosFlex.Codegen.Integration
