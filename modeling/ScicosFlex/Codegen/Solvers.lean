import Mathlib.Algebra.Field.Rat
import Mathlib.Algebra.Module.Pi
import Mathlib.Data.Fin.VecNotation
import Mathlib.Tactic.NormNum
import Mathlib.Tactic.Ring
import ScicosFlex.Library.Loops
import ScicosFlex.Library.OneStep

/-!
# The emitted fixed-step solvers

`ode1`, `ode2` and `ode4` as `make_standalonert` of `FlexCodeGen_.sci` writes them into
the generated file: their scratch arrays of `NEQ` numbers, their loops over them, and
their way out behind a failing derivative function. The arithmetic is that of rational
numbers.

`ode1` is a step of the Euler method and `ode2` one of Heun's method. `ode4` takes its
fourth slope at the time of the second and the third; it is a step of the classical
Runge-Kutta method exactly if this makes no difference (`solvers_iff`).
-/

namespace ScicosFlex.Codegen.Solvers

open Library.Loops Library.OneStep

/-- An array of `NEQ` numbers. -/
abbrev Array (neq : Nat) := Fin neq → Rat

/-- `(*f)(t, x, xd)`: the returned error code and what is left in `xd`. -/
abbrev Derivative (neq : Nat) := Rat → Array neq → Int × Array neq

variable {neq : Nat}

/-- A loop `for (i=0;i<NEQ;i++)` that assigns `cells[i]`. -/
def forAll (body : Fin neq → Rat → Rat) (cells : Array neq) : Array neq :=
  assignLoop (List.finRange neq) body cells

/-- What a solver comes back with. -/
structure Left (neq : Nat) where
  ierr : Int
  x : Array neq
  xd : Array neq

/-- `ode1(f,x,xd,t,h)`. -/
def ode1 (f : Derivative neq) (x xd : Array neq) (t h : Rat) : Left neq :=
  let _ := xd
  let (ierr, xd) := f t x
  if ierr ≠ 0 then ⟨ierr, x, xd⟩
  else
    let x := forAll (fun i old => old + h * xd i) x
    ⟨0, x, xd⟩

/-- `ode2(f,x,xd,t,h)`. -/
def ode2 (f : Derivative neq) (x xd : Array neq) (t h : Rat) : Left neq :=
  let y := x
  let (ierr, f0) := f t y
  if ierr ≠ 0 then ⟨ierr, x, xd⟩
  else
    let x := forAll (fun i _ => y i + h * f0 i) x
    let th := t + h
    let yh := forAll (fun i _ => y i + h * f0 i) (fun _ => 0)
    let (ierr, xd) := f th yh
    if ierr ≠ 0 then ⟨ierr, x, xd⟩
    else
      let temp := 1 / 2 * h
      let x := forAll (fun i _ => y i + temp * (f0 i + xd i)) x
      ⟨0, x, xd⟩

/-- `ode4(f,x,xd,t,h)`. The time `th` is computed and not used. -/
def ode4 (f : Derivative neq) (x xd : Array neq) (t h : Rat) : Left neq :=
  let y := x
  let (ierr, f0) := f t y
  if ierr ≠ 0 then ⟨ierr, x, xd⟩
  else
    let x := forAll (fun i _ => y i + h * f0 i) x
    let th2 := t + h / 2
    let yh := forAll (fun i _ => y i + (h / 2) * f0 i) (fun _ => 0)
    let (ierr, f1) := f th2 yh
    if ierr ≠ 0 then ⟨ierr, x, xd⟩
    else
      let temp := 1 / 2 * h
      let x := forAll (fun i _ => y i + temp * f1 i) x
      let yh := forAll (fun i _ => y i + (h / 2) * f1 i) yh
      let (ierr, f2) := f th2 yh
      if ierr ≠ 0 then ⟨ierr, x, xd⟩
      else
        let x := forAll (fun i _ => y i + h * f2 i) x
        let _th := t + h
        let yh := forAll (fun i _ => y i + h * f2 i) yh
        let (ierr, xd) := f th2 yh
        if ierr ≠ 0 then ⟨ierr, x, xd⟩
        else
          let temp := h / 6
          let x := forAll (fun i _ => y i + temp * (f0 i + 2 * f1 i + 2 * f2 i + xd i)) x
          ⟨0, x, xd⟩

/-- The slope that a derivative function computes. -/
def slope (f : Derivative neq) (t : Rat) (x : Array neq) : Array neq := (f t x).2

/-- The derivative function never fails, so no solver returns before the end of its step. -/
def Succeeds (f : Derivative neq) : Prop := ∀ t x, (f t x).1 = 0

/-- A loop over all cells. -/
theorem forAll_eq (body : Fin neq → Rat → Rat) (cells : Array neq) :
    forAll body cells = fun i => body i (cells i) :=
  assignLoop_finRange neq body cells

/-- `ode1` is a step of the Euler method. -/
theorem ode1_euler (f : Derivative neq) (succeeds : Succeeds f) (x xd : Array neq) (t h : Rat) :
    ode1 f x xd t h = ⟨0, euler (slope f) t x h, slope f t x⟩ := by
  simp only [ode1, succeeds t x, forAll_eq]
  rfl

/-- `ode2` is a step of Heun's method. -/
theorem ode2_heun (f : Derivative neq) (succeeds : Succeeds f) (x xd : Array neq) (t h : Rat) :
    (ode2 f x xd t h).x = heun (slope f) t x h := by
  have point : (fun i => x i + h * (f t x).2 i) = x + h • slope f t x := rfl
  simp only [ode2, succeeds t x, forAll_eq, ne_eq, not_true_eq_false, if_false, point,
    succeeds (t + h)]
  funext i
  change x i + 1 / 2 * h * (slope f t x i + slope f (t + h) (x + h • slope f t x) i) =
    x i + h / 2 * (slope f t x i + slope f (t + h) (x + h • slope f t x) i)
  ring

/-- `ode4` takes its fourth slope in the middle of the step. -/
theorem ode4_weighted (f : Derivative neq) (succeeds : Succeeds f) (x xd : Array neq)
    (t h : Rat) :
    (ode4 f x xd t h).x = weighted (slope f) t x h
      (slope f (t + h / 2) (fourthPoint (slope f) t x h)) := by
  have second : (fun i => x i + h / 2 * (f t x).2 i) = secondPoint (slope f) t x h := rfl
  have third : (fun i => x i + h / 2 * (f (t + h / 2) (secondPoint (slope f) t x h)).2 i) =
      thirdPoint (slope f) t x h := rfl
  have fourth : (fun i => x i + h * (f (t + h / 2) (thirdPoint (slope f) t x h)).2 i) =
      fourthPoint (slope f) t x h := rfl
  simp only [ode4, succeeds t x, forAll_eq, ne_eq, not_true_eq_false, if_false, second, third,
    fourth, succeeds (t + h / 2)]
  rfl

/-- `ode1`, `ode2` and `ode4` are steps of their methods exactly if the step is empty or
the slope at the fourth point is the same in the middle and at the end of the step:
`ode4` has the end of the step in `th`, and passes `th2`. The derivative function must
not fail, as an error ends a step halfway, and the arithmetic is exact. -/
theorem solvers_iff (f : Derivative neq) (succeeds : Succeeds f) (x xd : Array neq)
    (t h : Rat) :
    ((ode1 f x xd t h).x = euler (slope f) t x h ∧
      (ode2 f x xd t h).x = heun (slope f) t x h ∧
      (ode4 f x xd t h).x = rungeKutta (slope f) t x h) ↔
    (h = 0 ∨ slope f (t + h / 2) (fourthPoint (slope f) t x h) =
      slope f (t + h) (fourthPoint (slope f) t x h)) := by
  have first := ode1_euler f succeeds x xd t h
  have second := ode2_heun f succeeds x xd t h
  have six : (6 : Rat) ≠ 0 := by decide
  have fourth := weighted_eq_iff (slope f) six t x h
    (slope f (t + h / 2) (fourthPoint (slope f) t x h))
    (slope f (t + h) (fourthPoint (slope f) t x h))
  constructor
  · rintro ⟨-, -, classical⟩
    rw [ode4_weighted f succeeds] at classical
    exact fourth.mp classical
  · intro agree
    refine ⟨by rw [first], second, ?_⟩
    rw [ode4_weighted f succeeds]
    exact fourth.mpr agree

/-- The slope of `x' = t`. -/
def clockSlope : Derivative 1 := fun t _ => (0, fun _ => t)

/-- The slope of the oscillator `x' = y`, `y' = -x`. -/
def oscillatorSlope : Derivative 2 := fun _ x => (0, ![x 1, -x 0])

/-- The oscillator does not look at the time, and all three solvers make the steps of
their methods. -/
theorem oscillator_solved :
    (ode1 oscillatorSlope ![1, 0] 0 0 (1 / 10)).x = euler (slope oscillatorSlope) 0 ![1, 0] (1 / 10) ∧
      (ode2 oscillatorSlope ![1, 0] 0 0 (1 / 10)).x =
        heun (slope oscillatorSlope) 0 ![1, 0] (1 / 10) ∧
      (ode4 oscillatorSlope ![1, 0] 0 0 (1 / 10)).x =
        rungeKutta (slope oscillatorSlope) 0 ![1, 0] (1 / 10) :=
  (solvers_iff oscillatorSlope (fun _ _ => rfl) _ _ 0 (1 / 10)).mpr (Or.inr rfl)

/-- For `x' = t` the classical method reaches 1/2 at the time 1, and `ode4` 5/12. -/
theorem clock_missed :
    (ode4 clockSlope (fun _ => 0) (fun _ => 0) 0 1).x 0 = 5 / 12 ∧
      rungeKutta (slope clockSlope) 0 (fun _ => 0) 1 0 = 1 / 2 ∧
      ¬ ((ode1 clockSlope (fun _ => 0) (fun _ => 0) 0 1).x =
            euler (slope clockSlope) 0 (fun _ => 0) 1 ∧
        (ode2 clockSlope (fun _ => 0) (fun _ => 0) 0 1).x =
            heun (slope clockSlope) 0 (fun _ => 0) 1 ∧
        (ode4 clockSlope (fun _ => 0) (fun _ => 0) 0 1).x =
            rungeKutta (slope clockSlope) 0 (fun _ => 0) 1) := by
  have reached : (ode4 clockSlope (fun _ => 0) (fun _ => 0) 0 1).x 0 = 5 / 12 := by
    rw [ode4_weighted clockSlope (fun _ _ => rfl)]
    simp [weighted, slope, clockSlope]
    norm_num
  have wanted : rungeKutta (slope clockSlope) 0 (fun _ => 0) 1 0 = 1 / 2 := by
    simp [rungeKutta, weighted, slope, clockSlope]
    norm_num
  refine ⟨reached, wanted, ?_⟩
  rintro ⟨-, -, classical⟩
  have same := congrFun classical 0
  rw [reached, wanted] at same
  exact absurd same (by norm_num)

end ScicosFlex.Codegen.Solvers
