import Mathlib.Data.List.Induction
import ScicosFlex.Codegen.Standalone

/-!
# The phase over whole runs

Blocks ask for the global variable `phase`. The initialization sets it to 1 and
every solver evaluation sets it to 2, but nothing sets it back. So all calls of
the first period are made in the right phase, and from the second call of `_isr`
on every block that is called directly sees phase 2. `phases_iff` states this for
whole runs, and `second_period` shows the smallest one that goes wrong.
-/

namespace ScicosFlex.Codegen

open Compiled Library.AcyclicRecursion

section Steps

variable {W : Type} (cpr : Compiled) (runtime : Runtime W) (model : Standalone)

/-- All calls so far were made in the right phase. -/
def RightSoFar (log : Log W) : Prop := ∀ call ∈ log.calls, RightPhase call

/-- A generated function adds the calls of its text, all made in the phase it
starts in, and keeps the phase. -/
theorem issue_spec (origin : Origin) (text : Text) (log : Log W) :
    (issue cpr runtime origin text log).mem.phase = log.mem.phase ∧
    ∃ fresh, (issue cpr runtime origin text log).calls =
        log.calls ++ fresh.map (fun invocation => (origin, invocation)) ∧
      fresh = callsOf (exec cpr runtime.machine text { log.mem with trace := [] }).trace ∧
      ∀ invocation ∈ fresh, invocation.phase = log.mem.phase := by
  obtain ⟨phase, calls⟩ := exec_phase cpr runtime.machine text { log.mem with trace := [] }
  refine ⟨phase, _, rfl, rfl, fun invocation member => ?_⟩
  have traced : Event.call invocation ∈
      (exec cpr runtime.machine text { log.mem with trace := [] }).trace := by
    obtain ⟨event, inside, kind⟩ := List.mem_filterMap.mp member
    cases event with
    | call other =>
      obtain rfl := Option.some.inj kind
      exact inside
    | enter bk alternative => cases kind
  rcases calls invocation traced with old | fresh
  · cases old
  · exact fresh

/-- Calls are made in the right phase if the phase is that of their function. -/
theorem issue_right (origin : Origin) (text : Text) (log : Log W)
    (phase : log.mem.phase = if origin = .simblk then 2 else 1) :
    RightSoFar (issue cpr runtime origin text log) ↔ RightSoFar log := by
  obtain ⟨-, fresh, calls, -, phases⟩ := issue_spec cpr runtime origin text log
  unfold RightSoFar
  rw [calls]
  refine ⟨fun all call member => all call (List.mem_append_left _ member), ?_⟩
  intro all call member
  rcases List.mem_append.mp member with old | new
  · exact all call old
  · obtain ⟨invocation, inside, rfl⟩ := List.mem_map.mp new
    exact (phases invocation inside).trans phase

/-- In another phase all calls are wrong, so there must be none. -/
theorem issue_wrong (origin : Origin) (text : Text) (log : Log W)
    (phase : log.mem.phase ≠ if origin = .simblk then 2 else 1) :
    RightSoFar (issue cpr runtime origin text log) ↔ RightSoFar log ∧
      callsOf (exec cpr runtime.machine text { log.mem with trace := [] }).trace = [] := by
  obtain ⟨-, fresh, calls, same, phases⟩ := issue_spec cpr runtime origin text log
  unfold RightSoFar
  rw [calls, ← same]
  constructor
  · intro all
    refine ⟨fun call member => all call (List.mem_append_left _ member), ?_⟩
    refine List.eq_nil_iff_forall_not_mem.mpr fun invocation inside => phase ?_
    have right := all (origin, invocation)
      (List.mem_append_right _ (List.mem_map.mpr ⟨invocation, inside, rfl⟩))
    exact (phases invocation inside).symm.trans right
  · rintro ⟨all, none⟩ call member
    rw [none, List.map_nil, List.append_nil] at member
    exact all call member

/-- The initialization makes its calls in phase 1. -/
theorem runInit_spec (log : Log W) :
    (runInit cpr runtime model log).mem.phase = 1 ∧
      (RightSoFar (runInit cpr runtime model log) ↔ RightSoFar log) :=
  ⟨(issue_spec cpr runtime .init model.init _).1, issue_right cpr runtime .init model.init _ rfl⟩

/-- A solver evaluation makes its calls in phase 2. -/
theorem runSimblk_spec (log : Log W) :
    (runSimblk cpr runtime model log).mem.phase = 2 ∧
      (RightSoFar (runSimblk cpr runtime model log) ↔ RightSoFar log) :=
  ⟨(issue_spec cpr runtime .simblk model.simblk _).1,
    issue_right cpr runtime .simblk model.simblk _ rfl⟩

/-- The evaluations of a solver step make their calls in phase 2. -/
theorem stages_spec (stages : List Nat) (log : Log W) :
    let after := stages.foldl (fun log stage =>
      let after := runSimblk cpr runtime model log
      { after with
        mem := { after.mem with world := runtime.integrate stage after.mem.world } }) log
    (stages ≠ [] → after.mem.phase = 2) ∧ (RightSoFar after ↔ RightSoFar log) := by
  induction stages generalizing log with
  | nil => exact ⟨fun some => absurd rfl some, Iff.rfl⟩
  | cons stage rest inductionHypothesis =>
    obtain ⟨phase, right⟩ := runSimblk_spec cpr runtime model log
    obtain ⟨later, rights⟩ := inductionHypothesis
      { runSimblk cpr runtime model log with
        mem := { (runSimblk cpr runtime model log).mem with
          world := runtime.integrate stage (runSimblk cpr runtime model log).mem.world } }
    refine ⟨fun _ => ?_, rights.trans right⟩
    by_cases last : rest = []
    · subst last
      exact phase
    · exact later last

/-- A solver step ends in phase 2, with its calls in the right phase. -/
theorem solverStep_spec (log : Log W) :
    (solverStep cpr runtime model log).mem.phase = 2 ∧
      (RightSoFar (solverStep cpr runtime model log) ↔ RightSoFar log) := by
  obtain ⟨phase, right⟩ := stages_spec cpr runtime model (List.range runtime.solver.evaluations) log
  refine ⟨phase ?_, right⟩
  cases runtime.solver <;> simp [Solver.evaluations]

/-- So do several solver steps. -/
theorem solverSteps_spec (steps : Nat) (log : Log W) :
    ((solverStep cpr runtime model)^[steps + 1] log).mem.phase = 2 ∧
      (RightSoFar ((solverStep cpr runtime model)^[steps + 1] log) ↔ RightSoFar log) := by
  induction steps generalizing log with
  | zero => exact solverStep_spec cpr runtime model log
  | succ steps inductionHypothesis =>
    rw [Function.iterate_succ_apply]
    obtain ⟨phase, right⟩ := inductionHypothesis (solverStep cpr runtime model log)
    exact ⟨phase, right.trans (solverStep_spec cpr runtime model log).2⟩

/-- One call of `_isr` on a model with continuous states ends in phase 2, and its
calls are right exactly if it starts in phase 1 or calls nothing directly. -/
theorem runIsr_spec (continuous : cpr.nX ≠ 0) (steps : Nat) (log : Log W) :
    (runIsr cpr runtime model steps log).mem.phase = 2 ∧
    (RightSoFar (runIsr cpr runtime model steps log) ↔ RightSoFar log ∧
      (log.mem.phase = 1 ∨
        callsOf (exec cpr runtime.machine model.isr { log.mem with trace := [] }).trace = [])) := by
  obtain ⟨phase, right⟩ := solverSteps_spec cpr runtime model steps
    (issue cpr runtime .isr model.isr log)
  simp only [runIsr, if_neg continuous]
  refine ⟨phase, Iff.trans right ?_⟩
  by_cases first : log.mem.phase = 1
  · rw [issue_right cpr runtime .isr model.isr log first]
    simp only [first, true_or, and_true]
  · rw [issue_wrong cpr runtime .isr model.isr log first]
    simp only [first, false_or]

end Steps

section Main

variable {W : Type} {cpr : Compiled}

/-- The schedule prescribes no direct call exactly if the text makes none. -/
theorem noDirectCall_iff (runtime : Runtime W) (model : Standalone) (fuel : Nat)
    (runs : Implements cpr runtime.machine model.isr
      fun phase => interpretIsr cpr runtime.machine fuel phase) (mem : Mem W) :
    NoDirectCall cpr runtime.machine fuel mem ↔
      callsOf (exec cpr runtime.machine model.isr { mem with trace := [] }).trace = [] := by
  have prescribed := (runs { mem with trace := [] }).1
  have start : project { mem with trace := [] } = (mem.world, []) := rfl
  rw [start] at prescribed
  unfold NoDirectCall
  simp only at prescribed
  rw [prescribed]
  constructor
  · rintro ⟨world, same⟩
    exact congrArg Prod.snd (Option.some.inj same)
  · intro none
    exact ⟨_, by rw [project, none]⟩

/-- The phase before a call of `_isr`, and when all calls up to it were right. -/
theorem run_right (continuous : cpr.nX ≠ 0) (runtime : Runtime W) (model : Standalone) (fuel : Nat)
    (runs : Implements cpr runtime.machine model.isr
      fun phase => interpretIsr cpr runtime.machine fuel phase) (start : Mem W)
    (periods : List Nat) :
    (runModel cpr runtime model start periods).mem.phase = (if periods = [] then 1 else 2) ∧
    (RightSoFar (runModel cpr runtime model start periods) ↔
      ∀ k, 1 ≤ k → k < periods.length → NoDirectCall cpr runtime.machine fuel
        (runModel cpr runtime model start (periods.take k)).mem) := by
  -- Induction on the number of periods so far.
  induction periods using List.reverseRecOn with
  | nil =>
    obtain ⟨phase, right⟩ := runInit_spec cpr runtime model { mem := start, calls := [] }
    refine ⟨phase, fun _ k positive inside => ?_, fun _ => right.mpr ?_⟩
    · simp at inside
    · exact fun call member => absurd member List.not_mem_nil
  | append_singleton earlier steps inductionHypothesis =>
    obtain ⟨before, right⟩ := inductionHypothesis
    have next : runModel cpr runtime model start (earlier ++ [steps]) =
        runIsr cpr runtime model steps (runModel cpr runtime model start earlier) := by
      simp only [runModel, List.foldl_append, List.foldl_cons, List.foldl_nil]
    obtain ⟨phase, rights⟩ := runIsr_spec cpr runtime model continuous steps
      (runModel cpr runtime model start earlier)
    rw [next]
    refine ⟨by simpa using phase, rights.trans ?_⟩
    rw [right, before, ← noDirectCall_iff runtime model fuel runs]
    have inside (k : Nat) (low : k ≤ earlier.length) :
        (earlier ++ [steps]).take k = earlier.take k := by
      rw [List.take_append_of_le_length low]
    constructor
    · rintro ⟨all, last⟩ k positive bound
      rw [List.length_append, List.length_singleton] at bound
      rw [inside k (by omega)]
      by_cases old : k < earlier.length
      · exact all k positive old
      · have whole : k = earlier.length := by omega
        have some : earlier ≠ [] := fun none => by
          rw [none] at whole
          simp only [List.length_nil] at whole
          omega
        rw [if_neg some] at last
        rw [whole, List.take_length]
        exact last.resolve_left (by omega)
    · intro all
      refine ⟨fun k positive bound => ?_, ?_⟩
      · rw [← inside k (by omega)]
        exact all k positive (by simp only [List.length_append, List.length_singleton]; omega)
      · by_cases none : earlier = []
        · exact Or.inl (if_pos none)
        · have positive : 1 ≤ earlier.length := List.length_pos_iff.mpr none
          have last := all earlier.length positive (by simp)
          rw [inside _ (Nat.le_refl _), List.take_length] at last
          exact Or.inr last

/-- The functions exist exactly if the generator does not stop. In a run of a model with
continuous states all block calls are then made in the right phase exactly if, from the
second call of `_isr` on, the schedule prescribes no direct call in the state that
`_isr` finds. -/
theorem phases_iff (cpr : Compiled) (wellFormed : WellFormed cpr)
    (events : ∀ ev ∈ evs cpr, IsEvent cpr ev) (continuous : cpr.nX ≠ 0) :
    ∃ bound, ∀ fuel, bound ≤ fuel →
      ((∃ model, makeStandalonert cpr fuel = some model) ↔ ¬ GeneratorStops cpr) ∧
      ∀ model, makeStandalonert cpr fuel = some model →
      ∀ {W : Type} (runtime : Runtime W) (start : Mem W) (periods : List Nat),
        (∀ call ∈ (runModel cpr runtime model start periods).calls, RightPhase call) ↔
          ∀ k, 1 ≤ k → k < periods.length → NoDirectCall cpr runtime.machine fuel
            (runModel cpr runtime model start (periods.take k)).mem := by
  refine ⟨{ev | IsEvent cpr ev}.ncard + 1, fun fuel deep => ?_⟩
  refine ⟨standalone_iff wellFormed events fuel deep, fun model made W runtime start periods => ?_⟩
  have runs := standalone_implements wellFormed events fuel deep model made runtime.machine
  exact (run_right continuous runtime model fuel runs start periods).2

/-- An instance: runs of the sample without modes. -/
theorem sample_phases : ∃ bound, ∀ fuel, bound ≤ fuel →
    ((∃ model, makeStandalonert (sample 0) fuel = some model) ↔ ¬ GeneratorStops (sample 0)) ∧
      ∀ model, makeStandalonert (sample 0) fuel = some model →
      ∀ {W : Type} (runtime : Runtime W) (start : Mem W) (periods : List Nat),
        (∀ call ∈ (runModel (sample 0) runtime model start periods).calls, RightPhase call) ↔
          ∀ k, 1 ≤ k → k < periods.length → NoDirectCall (sample 0) runtime.machine fuel
            (runModel (sample 0) runtime model start (periods.take k)).mem :=
  phases_iff (sample 0) (sample_wellFormed 0) (sample_evs 0) (by decide)

/-- A solver and a machine that do nothing. -/
def idle : Runtime Unit where
  machine := steer 1
  solver := .ode1
  integrate _ world := world
  relink world := world

/-- In the second period of the sample the constant is called for flag 1 in
phase 2. -/
theorem second_period : ∃ model, makeStandalonert (sample 0) 5 = some model ∧
    (.isr, { bk := 1, localFlag := 1, nevprt := 0, phase := 2 }) ∈
      (runModel (sample 0) idle model solverMem [0, 0]).calls ∧
    ¬ ∀ call ∈ (runModel (sample 0) idle model solverMem [0, 0]).calls, RightPhase call := by
  have run : (makeStandalonert (sample 0) 5).map (fun model =>
      decide ((.isr, { bk := 1, localFlag := 1, nevprt := 0, phase := 2 }) ∈
        (runModel (sample 0) idle model solverMem [0, 0]).calls)) = some true := by decide
  obtain ⟨model, made, found⟩ := Option.map_eq_some_iff.mp run
  have member := of_decide_eq_true found
  exact ⟨model, made, member, fun all => absurd (all _ member) (by decide)⟩

end Main

end ScicosFlex.Codegen
