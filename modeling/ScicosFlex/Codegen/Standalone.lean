import ScicosFlex.Codegen.Reinitdoit

/-!
# The standalone functions

The bodies of `<model>_init`, `<model>_isr`, `<model>_end` and of the function
`simblk` or `simblk_imp` that the solver evaluates, as `make_standalonert` puts
them together, and runs of them: one initialization and then one call of `_isr`
for each sample period. `standalone_iff` says when all bodies exist on a well formed
schedule (where the generators do not stop at a `tmp_` that was never set), and
`isr_implements` that the direct calls of `_isr` are those that the schedule
prescribes.
-/

namespace ScicosFlex.Codegen

open Compiled Library.AcyclicRecursion Library.Sequences

section Texts

variable (cpr : Compiled)

/-- `nblk`: a clock at the end has no block structure. -/
def nblk : Nat := if cpr.funs cpr.nb = "bidon" then cpr.nb - 1 else cpr.nb

/-- `evs`: the events of the clocks behind those of `howclk`. -/
def evs : List Nat :=
  ((slice 1 (cpr.nb + 1)).filter fun blk => cpr.Ordinary blk ∧ cpr.funs blk = "bidon").flatMap
    fun blk => (cpr.outputEvents blk).filter fun ev => cpr.clkptr cpr.howclk ≤ ev

/-- A comment above a text, if there is one. -/
def headed (note : String) (txt : Text) : Text :=
  if txt.isEmpty then [] else .line .blank :: .line (.comment (.other note)) :: txt

/-- The blocks `1..nblk` called with one flag, each below an empty line. The
block `agenda_blk` gets no text without agenda. -/
def flagText (flag : Nat) : Text :=
  (slice 1 (nblk cpr + 1)).flatMap fun kf =>
    let txt := callBlock42 cpr kf 0 flag
    if txt.isEmpty then [] else .line .blank :: txt

/-- The calls in `<model>_init` after `phase = 1`. -/
def initText (fuel : Nat) : Option Text := do
  let initial ← writeCodeIdoit cpr fuel
  let derivative ← if cpr.nX ≠ 0 ∧ cpr.implBlk then do
      let first ← writeCodeReinitdoit cpr fuel 1
      let second ← writeCodeReinitdoit cpr fuel 7
      some (first ++ second)
    else some []
  some (.line (.comment (.other "flag 4")) :: flagText cpr 4 ++
    headed "Initial blocks must be called with flag 1" initial ++
    headed "Initial derivative computation" derivative)

/-- The calls of `<model>_isr` for one flag: for flag 1 the continuously activated
blocks, then every event of `evs`. -/
def flagPass (fuel flag : Nat) : Option Text :=
  (if flag = 1 then writeCodeCdoit cpr fuel flag else some []).bind fun continuous => do
    let events ← (evs cpr).mapM fun ev => writeCodeDoit cpr fuel ev flag
    some (headed "flag" (headed "ev 0" continuous ++
      headed "Discrete activations" (events.flatMap placed)))

/-- The calls of `<model>_isr` before the solver. -/
def isrText (fuel : Nat) : Option Text := do
  let passes ← [1, 3, 2].mapM (flagPass cpr fuel)
  some passes.flatten

/-- The calls of `simblk` and of `simblk_imp` after `phase=2`; a model without
continuous states has no such function. -/
def simblkText (fuel : Nat) : Option Text :=
  if cpr.nX = 0 then some []
  else do
    let output ← writeCodeOdoit cpr fuel 1
    let derivative ← writeCodeOdoit cpr fuel 0
    some (output ++ derivative)

/-- The calls of `<model>_end`. -/
def endText : Text := .line (.comment (.other "flag 5")) :: flagText cpr 5

/-- The generated functions. -/
structure Standalone where
  init : Text
  isr : Text
  simblk : Text

/-- `make_standalonert()`, as far as block calls go. -/
def makeStandalonert (fuel : Nat) : Option Standalone := do
  let init ← initText cpr fuel
  let isr ← isrText cpr fuel
  let simblk ← simblkText cpr fuel
  some { init, isr, simblk }

end Texts

section Runs

variable {W : Type}

/-- The solver functions of the generated file. -/
inductive Solver where
  | ode1 | ode2 | ode4 | dae1
deriving DecidableEq, Repr

/-- How often one step of a solver evaluates its function. -/
def Solver.evaluations : Solver → Nat
  | .ode1 | .dae1 => 1
  | .ode2 => 2
  | .ode4 => 4

/-- What surrounds the block calls: the machine, the array arithmetic of the
solver after each evaluation, and the update of the block pointers at the end of
`_isr`. Neither writes `phase`. -/
structure Runtime (W : Type) where
  machine : Machine W
  solver : Solver
  integrate : Nat → W → W
  relink : W → W

/-- The function a block call stands in. -/
inductive Origin where
  | init | isr | simblk
deriving DecidableEq, Repr

/-- A run so far: the variables and all block calls. -/
structure Log (W : Type) where
  mem : Mem W
  calls : List (Origin × Invocation)

variable (cpr : Compiled) (runtime : Runtime W) (model : Standalone)

/-- One of the generated functions runs its block calls. -/
def issue (origin : Origin) (text : Text) (log : Log W) : Log W :=
  let after := exec cpr runtime.machine text { log.mem with trace := [] }
  { mem := after
    calls := log.calls ++ (callsOf after.trace).map fun invocation => (origin, invocation) }

/-- `<model>_init()`. -/
def runInit (log : Log W) : Log W :=
  issue cpr runtime .init model.init { log with mem := { log.mem with phase := 1 } }

/-- `<model>simblk(t, x, xd)`. -/
def runSimblk (log : Log W) : Log W :=
  issue cpr runtime .simblk model.simblk { log with mem := { log.mem with phase := 2 } }

/-- The evaluations of one solver step, each with the arithmetic behind it. -/
def solverStep (log : Log W) : Log W :=
  (List.range runtime.solver.evaluations).foldl (fun log stage =>
    let after := runSimblk cpr runtime model log
    { after with mem := { after.mem with world := runtime.integrate stage after.mem.world } }) log

/-- `<model>_isr(t)`: the direct calls, the solver with as many steps as the loop
`while (tout+h<t+dt)` makes and the last one for the rest of the period. -/
def runIsr (steps : Nat) (log : Log W) : Log W :=
  let direct := issue cpr runtime .isr model.isr log
  if cpr.nX = 0 then direct
  else
    let solved := (solverStep cpr runtime model)^[steps + 1] direct
    { solved with mem := { solved.mem with world := runtime.relink solved.mem.world } }

/-- One call of `_init` and then calls of `_isr` with the given numbers of solver steps. -/
def runModel (start : Mem W) (periods : List Nat) : Log W :=
  periods.foldl (fun log steps => runIsr cpr runtime model steps log)
    (runInit cpr runtime model { mem := start, calls := [] })

/-- The phase a call should see: 2 in the solver function, and 1 everywhere else. -/
def RightPhase (call : Origin × Invocation) : Prop :=
  call.2.phase = if call.1 = .simblk then 2 else 1

instance (call : Origin × Invocation) : Decidable (RightPhase call) :=
  inferInstanceAs (Decidable (_ = _))

/-- The direct calls that the schedule prescribes for one flag: for flag 1 those of
`cord`, then those of every event of `evs`. -/
def interpretPass (machine : Machine W) (fuel phase flag : Nat) (run : Run W) : Option (Run W) :=
  (if flag = 1 then interpretList cpr machine phase flag fuel cpr.cord run else some run).bind
    fun run => (evs cpr).foldlM (fun run ev => interpret cpr machine phase flag fuel ev run) run

/-- The direct calls that the schedule prescribes for `_isr`. -/
def interpretIsr (machine : Machine W) (fuel phase : Nat) (run : Run W) : Option (Run W) :=
  [1, 3, 2].foldlM (fun run flag => interpretPass cpr machine fuel phase flag run) run

/-- The schedule prescribes no direct call from a state. All blocks that are called then
are called by the solver. -/
def NoDirectCall (machine : Machine W) (fuel : Nat) (mem : Mem W) : Prop :=
  ∃ world, interpretIsr cpr machine fuel mem.phase (mem.world, []) = some (world, [])

end Runs

section Existence

variable {cpr : Compiled}

/-- A comment above a text changes nothing. -/
theorem exec_headed {W : Type} (machine : Machine W) (note : String) (txt : Text) (mem : Mem W) :
    exec cpr machine (headed note txt) mem = exec cpr machine txt mem := by
  unfold headed
  split
  · rename_i empty
    rw [List.isEmpty_iff.mp empty]
  · rfl

/-- A text with a comment above it implements the same. -/
theorem headed_implements {W : Type} (machine : Machine W) (note : String) (txt : Text)
    (prescribed : (phase : Nat) → Run W → Option (Run W))
    (runs : Implements cpr machine txt prescribed) :
    Implements cpr machine (headed note txt) prescribed := by
  intro mem
  rw [exec_headed]
  exact runs mem

/-- The direct calls of `_isr` for one flag exist and implement the schedule: with flag
1 those of `cord` come first, and then the events one after the other. -/
theorem flagPass_implements (wellFormed : WellFormed cpr) (events : ∀ ev ∈ evs cpr, IsEvent cpr ev)
    (flag fuel : Nat) (enough : ∀ ev, IsEvent cpr ev → rank (Activates cpr) ev < fuel) :
    ∃ text, flagPass cpr fuel flag = some text ∧
      ∀ {W : Type} (machine : Machine W), Implements cpr machine text
        fun phase => interpretPass cpr machine fuel phase flag := by
  obtain ⟨t, texts, found⟩ := doit_texts wellFormed flag
  obtain ⟨continuous, written, runs⟩ :
      ∃ continuous, (if flag = 1 then writeCodeCdoit cpr fuel flag else some []) = some continuous ∧
        ∀ {W : Type} (machine : Machine W), Implements cpr machine continuous fun phase run =>
          if flag = 1 then interpretList cpr machine phase flag fuel cpr.cord run
          else some run := by
    by_cases first : flag = 1
    · simp only [if_pos first]
      exact list_implements wellFormed flag fuel cpr.cord wellFormed.knownCord enough
    · simp only [if_neg first]
      exact ⟨[], rfl, fun machine => empty_implements cpr machine⟩
  have discrete := mapM_some (fun ev => writeCodeDoit cpr fuel ev flag) t (evs cpr)
    fun ev member => found ev (events ev member) fuel (enough ev (events ev member))
  refine ⟨headed "flag" (headed "ev 0" continuous ++
    headed "Discrete activations" ((evs cpr).flatMap fun ev => placed (t ev))), ?_, ?_⟩
  · simp only [flagPass, written, discrete, Option.bind_eq_bind, Option.bind_some,
      List.flatMap_map]
  · intro W machine
    refine headed_implements machine _ _ _ (append_implements cpr machine _ _ _ _
      (headed_implements machine _ _ _ (runs machine)) (headed_implements machine _ _ _ ?_))
    refine flatMap_implements cpr machine (evs cpr) _
      (fun ev phase run => interpret cpr machine phase flag fuel ev run) fun ev member => ?_
    exact placed_implements cpr machine _ _ (doit_implements wellFormed flag t texts machine ev
      (events ev member) fuel (enough ev (events ev member)))

/-- The direct calls of `_isr` exist and implement the schedule. -/
theorem isr_implements (wellFormed : WellFormed cpr) (events : ∀ ev ∈ evs cpr, IsEvent cpr ev)
    (fuel : Nat) (enough : ∀ ev, IsEvent cpr ev → rank (Activates cpr) ev < fuel) :
    ∃ text, isrText cpr fuel = some text ∧ ∀ {W : Type} (machine : Machine W),
      Implements cpr machine text fun phase => interpretIsr cpr machine fuel phase := by
  have pass (flag : Nat) := flagPass_implements wellFormed events flag fuel enough
  choose text written runs using pass
  refine ⟨[1, 3, 2].flatMap text, ?_, fun machine => ?_⟩
  · rw [isrText, mapM_some _ text _ fun flag _ => written flag]
    rfl
  · exact flatMap_implements cpr machine [1, 3, 2] text _ fun flag _ => runs flag machine

/-- The initialization exists unless the start of the implicit solver stops the generator. -/
theorem initText_iff (wellFormed : WellFormed cpr) (fuel : Nat)
    (deep : {ev | IsEvent cpr ev}.ncard < fuel) :
    (∃ text, initText cpr fuel = some text) ↔ ¬ (cpr.nX ≠ 0 ∧ cpr.implBlk ∧
      (ReinitHalts cpr 1 cpr.oord ∨ ReinitHalts cpr 7 cpr.oord)) := by
  have enough (ev : Nat) (inside : IsEvent cpr ev) : rank (Activates cpr) ev < fuel :=
    Nat.lt_of_le_of_lt (rank_le wellFormed.graph ev inside) deep
  obtain ⟨initial, written, -⟩ :=
    list_implements wellFormed 1 fuel cpr.iord wellFormed.knownIord enough
  have start : writeCodeIdoit cpr fuel = some initial := written
  have passOne := reinitdoit_iff wellFormed 1 fuel deep
  have passTwo := reinitdoit_iff wellFormed 7 fuel deep
  unfold initText
  by_cases implicit : cpr.nX ≠ 0 ∧ cpr.implBlk
  · simp only [start, if_pos implicit, Option.bind_eq_bind, Option.bind_some]
    rw [← and_assoc, and_iff_right implicit, not_or, ← passOne, ← passTwo]
    cases writeCodeReinitdoit cpr fuel 1 <;> cases writeCodeReinitdoit cpr fuel 7 <;> simp
  · simp only [start, if_neg implicit, Option.bind_eq_bind, Option.bind_some]
    exact iff_of_true ⟨_, rfl⟩ fun ⟨states, block, _⟩ => implicit ⟨states, block⟩

/-- The solver function exists unless its derivative code stops the generator. -/
theorem simblkText_iff (wellFormed : WellFormed cpr) (fuel : Nat)
    (deep : {ev | IsEvent cpr ev}.ncard < fuel) :
    (∃ text, simblkText cpr fuel = some text) ↔
      ¬ (cpr.nX ≠ 0 ∧ (Halts cpr 1 cpr.oord ∨ Halts cpr 0 cpr.oord)) := by
  have output := odoit_iff wellFormed 1 fuel deep
  have derivative := odoit_iff wellFormed 0 fuel deep
  unfold simblkText
  by_cases none : cpr.nX = 0
  · rw [if_pos none]
    exact iff_of_true ⟨[], rfl⟩ fun ⟨states, _⟩ => states none
  · rw [if_neg none, and_iff_right none, not_or, ← output, ← derivative]
    cases writeCodeOdoit cpr fuel 1 <;> cases writeCodeOdoit cpr fuel 0 <;> simp

/-- The generator stops somewhere: in the derivative code of the solver function, or in
the code that starts the implicit solver. -/
def GeneratorStops (cpr : Compiled) : Prop :=
  cpr.nX ≠ 0 ∧ (Halts cpr 1 cpr.oord ∨ Halts cpr 0 cpr.oord ∨
    cpr.implBlk ∧ (ReinitHalts cpr 1 cpr.oord ∨ ReinitHalts cpr 7 cpr.oord))

/-- With only ordinary blocks in `oord` the generator never stops. -/
theorem plain_goes (plain : ∀ activation ∈ cpr.oord, cpr.Ordinary activation.1) :
    ¬ GeneratorStops cpr := by
  rintro ⟨-, halts | halts | ⟨-, halts | halts⟩⟩
  · exact halts_plain 1 cpr.oord plain halts
  · exact halts_plain 0 cpr.oord plain halts
  · exact reinitHalts_plain 1 cpr.oord plain halts
  · exact reinitHalts_plain 7 cpr.oord plain halts

/-- On a well formed schedule the functions exist exactly if the generator does not stop. -/
theorem standalone_iff (wellFormed : WellFormed cpr) (events : ∀ ev ∈ evs cpr, IsEvent cpr ev)
    (fuel : Nat) (deep : {ev | IsEvent cpr ev}.ncard < fuel) :
    (∃ model, makeStandalonert cpr fuel = some model) ↔ ¬ GeneratorStops cpr := by
  have first := initText_iff wellFormed fuel deep
  obtain ⟨isr, second, -⟩ := isr_implements wellFormed events fuel
    fun ev inside => Nat.lt_of_le_of_lt (rank_le wellFormed.graph ev inside) deep
  have third := simblkText_iff wellFormed fuel deep
  have both : ¬ GeneratorStops cpr ↔
      (∃ text, initText cpr fuel = some text) ∧ ∃ text, simblkText cpr fuel = some text := by
    rw [first, third]
    unfold GeneratorStops
    tauto
  rw [both]
  simp only [makeStandalonert, Option.bind_eq_bind, Option.bind_eq_some_iff, second,
    Option.some.injEq, exists_eq_left']
  constructor
  · rintro ⟨-, init, one, simblk, three, -⟩
    exact ⟨⟨init, one⟩, ⟨simblk, three⟩⟩
  · rintro ⟨⟨init, one⟩, ⟨simblk, three⟩⟩
    exact ⟨_, init, one, simblk, three, rfl⟩

/-- The direct calls of `_isr` in a generated file implement the schedule. -/
theorem standalone_implements (wellFormed : WellFormed cpr)
    (events : ∀ ev ∈ evs cpr, IsEvent cpr ev) (fuel : Nat)
    (deep : {ev | IsEvent cpr ev}.ncard < fuel) (model : Standalone)
    (made : makeStandalonert cpr fuel = some model) {W : Type} (machine : Machine W) :
    Implements cpr machine model.isr fun phase => interpretIsr cpr machine fuel phase := by
  obtain ⟨isr, second, runs⟩ := isr_implements wellFormed events fuel
    fun ev inside => Nat.lt_of_le_of_lt (rank_le wellFormed.graph ev inside) deep
  simp only [makeStandalonert, Option.bind_eq_bind, Option.bind_eq_some_iff, second,
    Option.some.injEq, exists_eq_left'] at made
  obtain ⟨-, -, -, -, rfl⟩ := made
  exact runs machine

end Existence

section Sample

/-- An explicit model does not stop the generator if `oord` does not. -/
theorem explicit_goes {cpr : Compiled} (explicit : cpr.implBlk = false)
    (going : ∀ flag, ¬ Halts cpr flag cpr.oord) : ¬ GeneratorStops cpr := by
  rintro ⟨-, halts | halts | ⟨implicit, -⟩⟩
  · exact going 1 halts
  · exact going 0 halts
  · rw [explicit] at implicit
    cases implicit

/-- The generator does not stop at the sample. -/
theorem sample_goes (modes : Nat) : ¬ GeneratorStops (sample modes) := by
  refine explicit_goes rfl fun flag => halts_shallow flag _ fun activation member synchro => ?_
  obtain rfl := List.mem_singleton.mp member
  refine ⟨⟨1, by simp [slice, sample], 1, by simp [slice, sample], rfl⟩,
    fun ev output inner below => ?_⟩
  rw [sample_outputEvents] at output
  apply sample_ordinary modes
  rcases sample_activations modes ev inner below with one | three | ⟨-, rfl⟩
  · omega
  · omega
  · simp at output

/-- The only event source of the sample is its clock. -/
theorem sample_evs (modes ev : Nat) (member : ev ∈ evs (sample modes)) :
    IsEvent (sample modes) ev := by
  have source : evs (sample modes) = [3] := rfl
  rw [source, List.mem_singleton] at member
  subst member
  exact ⟨by omega, Nat.le_refl 3⟩

end Sample

end ScicosFlex.Codegen
