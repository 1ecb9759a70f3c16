import ScicosFlex.Codegen.Phases

/-!
# The generated program

A complete run of the generated code: `_init` once, `_isr` once for each sample
period, `_end` once. `interpretProgram` is what the compiled schedule prescribes
for it without any text: the blocks with flag 4, the blocks of `iord`, then for
each period the direct calls of `_isr` and, if there are continuous states, the
solver with the blocks of `oord` at each evaluation, and at last the blocks with
flag 5. `program_runs` says that the generated functions do exactly this, if the
blocks of `oord` are ordinary ones.
-/

namespace ScicosFlex.Codegen

open Compiled Library.AcyclicRecursion Library.Sequences

section Definitions

variable {W : Type} (cpr : Compiled) (runtime : Runtime W) (fuel : Nat)

/-- `<model>_end()`: its calls come behind those of the run. -/
def runEnd (log : Log W) : Run W :=
  let after := exec cpr runtime.machine (endText cpr) { log.mem with trace := [] }
  (after.world, log.calls.map Prod.snd ++ callsOf after.trace)

/-- The program, from the call of `_init` to the return of `_end`. -/
def runProgram (model : Standalone) (start : Mem W) (periods : List Nat) : Run W :=
  runEnd cpr runtime (runModel cpr runtime model start periods)

/-- The blocks `1..nblk` once with one flag. -/
def interpretFlag (phase flag : Nat) (run : Run W) : Option (Run W) :=
  (slice 1 (nblk cpr + 1)).foldlM (fun run kf =>
    some (blockCalls cpr runtime.machine phase kf 0 flag run)) run

/-- What the schedule prescribes for `_init`: every block with flag 4, those of
`iord` with flag 1, and for an implicit model those of `oord` with flags 1 and 7. -/
def interpretInit (phase : Nat) (run : Run W) : Option (Run W) := do
  let opened ← interpretFlag cpr runtime phase 4 run
  let started ← interpretList cpr runtime.machine phase 1 fuel cpr.iord opened
  if cpr.nX ≠ 0 ∧ cpr.implBlk then
    let first ← interpretList cpr runtime.machine phase 1 fuel cpr.oord started
    interpretList cpr runtime.machine phase 7 fuel cpr.oord first
  else some started

/-- One evaluation of the solver: the blocks of `oord` with flags 1 and 0. -/
def interpretSimblk (phase : Nat) (run : Run W) : Option (Run W) := do
  let output ← interpretList cpr runtime.machine phase 1 fuel cpr.oord run
  interpretList cpr runtime.machine phase 0 fuel cpr.oord output

/-- One step of the solver; its evaluations see phase 2. -/
def interpretSolver (run : Run W) : Option (Run W) :=
  (List.range runtime.solver.evaluations).foldlM (fun run stage => do
    let after ← interpretSimblk cpr runtime fuel 2 run
    some (runtime.integrate stage after.1, after.2)) run

/-- One sample period, whose direct calls see the given phase. -/
def interpretPeriod (phase steps : Nat) (run : Run W) : Option (Run W) := do
  let direct ← interpretIsr cpr runtime.machine fuel phase run
  if cpr.nX = 0 then some direct
  else
    let solved ← (List.replicate (steps + 1) ()).foldlM
      (fun run _ => interpretSolver cpr runtime fuel run) direct
    some (runtime.relink solved.1, solved.2)

/-- The phase that a sample period leaves behind. -/
def phaseAfter (cpr : Compiled) (phase : Nat) : Nat := if cpr.nX = 0 then phase else 2

/-- The sample periods one after the other, and then every block with flag 5. -/
def interpretPeriods : (phase : Nat) → (periods : List Nat) → Run W → Option (Run W)
  | phase, [], run => interpretFlag cpr runtime phase 5 run
  | phase, steps :: rest, run => do
    let ran ← interpretPeriod cpr runtime fuel phase steps run
    interpretPeriods (phaseAfter cpr phase) rest ran

/-- What the schedule prescribes for the whole program. -/
def interpretProgram (periods : List Nat) (world : W) : Option (Run W) := do
  let started ← interpretInit cpr runtime fuel 1 (world, [])
  interpretPeriods cpr runtime fuel 1 periods started

end Definitions

section Trace

variable {W : Type} (cpr : Compiled) (machine : Machine W)

/-- A run with other events before those of its trace. -/
def behind (earlier : List Event) (mem : Mem W) : Mem W :=
  { mem with trace := earlier ++ mem.trace }

/-- No condition reads the trace. -/
theorem evalTest_behind (earlier : List Event) (mem : Mem W) (test : Test) :
    evalTest cpr machine (behind earlier mem) test = evalTest cpr machine mem test := by
  induction test with
  | not test inductionHypothesis => simp only [evalTest, inductionHypothesis]
  | and left right first second => simp only [evalTest, first, second]
  | or left right first second => simp only [evalTest, first, second]
  | _ => rfl

/-- No assigned value does. -/
theorem evalSelector_behind (earlier : List Event) (mem : Mem W) (selector : Selector) :
    evalSelector cpr machine (behind earlier mem) selector = evalSelector cpr machine mem selector := by
  cases selector <;> rfl

/-- Lines only add to the trace. -/
theorem execLine_behind (earlier : List Event) (mem : Mem W) (line : Line) :
    execLine cpr machine (behind earlier mem) line = behind earlier (execLine cpr machine mem line) := by
  cases line with
  | call bk callee arguments => simp [execLine, perform, behind]
  | _ => rfl

/-- So does entering an alternative. -/
theorem enter_behind (earlier : List Event) (bk alternative : Nat) (body : Text) (mem : Mem W) :
    enter bk alternative body (behind earlier mem) = behind earlier (enter bk alternative body mem) := by
  unfold enter
  split
  · rfl
  · simp [behind]

mutual

/-- A statement does the same whatever stands in the trace before, since nothing reads
the trace. By mutual induction on statements and texts. -/
theorem execStmt_behind (earlier : List Event) (stmt : Stmt) (mem : Mem W) :
    execStmt cpr machine stmt (behind earlier mem) =
      behind earlier (execStmt cpr machine stmt mem) := by
  cases stmt with
  | line line => exact execLine_behind cpr machine earlier mem line
  | ifElse bk test thenText elseText =>
    simp only [execStmt, evalTest_behind, enter_behind]
    split
    · exact exec_behind earlier thenText _
    · exact exec_behind earlier elseText _
  | ifElseIf bk test thenText elseTest elseText =>
    simp only [execStmt, evalTest_behind, enter_behind]
    split
    · exact exec_behind earlier thenText _
    · split
      · exact exec_behind earlier elseText _
      · rfl
  | setI selector =>
    simp only [execStmt, evalSelector_behind]
    rfl
  | chooseI test thenSelector elseSelector =>
    simp only [execStmt, evalTest_behind, evalSelector_behind]
    rfl
  | switchI bk labels body =>
    have index : (behind earlier mem).i = mem.i := rfl
    simp only [execStmt, index, enter_behind]
    split
    · exact exec_behind earlier (body mem.i.toNat) _
    · rfl
  | guarded test body =>
    simp only [execStmt, evalTest_behind]
    split
    · exact exec_behind earlier body mem
    · rfl
termination_by structural stmt

/-- A text does the same whatever stands in the trace before. -/
theorem exec_behind (earlier : List Event) (text : List Stmt) (mem : Mem W) :
    exec cpr machine text (behind earlier mem) = behind earlier (exec cpr machine text mem) := by
  cases text with
  | nil => rfl
  | cons stmt rest =>
    rw [exec_cons, exec_cons, execStmt_behind earlier stmt mem, exec_behind earlier rest]
termination_by structural text

end

/-- The calls behind earlier calls. -/
theorem project_behind (calls : List Invocation) (mem : Mem W) :
    project (behind (calls.map Event.call) mem) = (mem.world, calls ++ callsOf mem.trace) := by
  have kept : callsOf (calls.map Event.call) = calls := by
    simp [callsOf, List.filterMap_map]
  have split : callsOf (calls.map Event.call ++ mem.trace) =
      callsOf (calls.map Event.call) ++ callsOf mem.trace := List.filterMap_append
  simp only [project, behind, split, kept]

/-- A text that implements the schedule does so behind earlier calls too. -/
theorem implements_behind (text : Text) (prescribed : (phase : Nat) → Run W → Option (Run W))
    (runs : Implements cpr machine text prescribed) (mem : Mem W) (calls : List Invocation) :
    let after := exec cpr machine text { mem with trace := [] }
    prescribed mem.phase (mem.world, calls) = some (after.world, calls ++ callsOf after.trace) ∧
      after.phase = mem.phase := by
  obtain ⟨here, -⟩ := runs (behind (calls.map Event.call) { mem with trace := [] })
  obtain ⟨-, phase⟩ := runs { mem with trace := [] }
  rw [exec_behind, project_behind, project_behind] at here
  have start : calls ++ callsOf [] = calls := List.append_nil calls
  rw [start] at here
  exact ⟨here, phase⟩

end Trace

section Parts

variable {cpr : Compiled}

/-- Another way to write what is prescribed. -/
theorem implements_congr {W : Type} {machine : Machine W} {text : Text}
    {first second : (phase : Nat) → Run W → Option (Run W)}
    (runs : Implements cpr machine text first)
    (same : ∀ phase run, second phase run = first phase run) :
    Implements cpr machine text second := by
  intro mem
  rw [same]
  exact runs mem

/-- The blocks with one flag. -/
theorem flagText_implements {W : Type} (runtime : Runtime W) (flag : Nat) :
    Implements cpr runtime.machine (flagText cpr flag)
      fun phase => interpretFlag cpr runtime phase flag := by
  refine flatMap_implements cpr runtime.machine (slice 1 (nblk cpr + 1)) _
    (fun kf phase run => some (blockCalls cpr runtime.machine phase kf 0 flag run)) fun kf _ => ?_
  intro mem
  have same : exec cpr runtime.machine
      (if (callBlock42 cpr kf 0 flag).isEmpty then []
        else .line .blank :: callBlock42 cpr kf 0 flag) mem =
      exec cpr runtime.machine (callBlock42 cpr kf 0 flag) mem := by
    split
    · rename_i empty
      rw [List.isEmpty_iff.mp empty]
    · rfl
  obtain ⟨calls, phase⟩ := call_runs cpr runtime.machine kf 0 flag mem
  simp only [same]
  exact ⟨congrArg some calls.symm, phase⟩

/-- The fragments of ordinary blocks are their calling sequences. -/
theorem fragments_ordinary (heads : DerivativeHeads) (call : Cell → Nat → Option Text) (tmp : Cell)
    (activations : List Activation)
    (plain : ∀ activation ∈ activations, cpr.Ordinary activation.1) :
    ∃ pieces, fragments cpr heads call tmp activations = some pieces ∧
      pieces.flatMap Fragment.text = activations.flatMap heads.ordinary := by
  induction activations generalizing tmp with
  | nil => exact ⟨[], rfl, rfl⟩
  | cons activation rest inductionHypothesis =>
    obtain ⟨pieces, later, texts⟩ := inductionHypothesis tmp
      fun other member => plain other (List.mem_cons_of_mem _ member)
    have ordinary := plain activation List.mem_cons_self
    refine ⟨{ bk := activation.1, inherited := tmp, tested := tmp, passed := tmp,
              alternatives := [], text := heads.ordinary activation } :: pieces, ?_, ?_⟩
    · simp only [fragments, fragment, if_pos ordinary, later, Option.bind_eq_bind, Option.bind_some]
    · rw [List.flatMap_cons, List.flatMap_cons, texts]

/-- The calling sequences of ordinary blocks implement their calls. -/
theorem ordinary_implements (flag fuel : Nat) (activations : List Activation)
    (plain : ∀ activation ∈ activations, cpr.Ordinary activation.1) {W : Type}
    (machine : Machine W) :
    Implements cpr machine
      (activations.flatMap fun activation => placed (callBlock42 cpr activation.1 activation.2 flag))
      fun phase => interpretList cpr machine phase flag fuel activations := by
  refine flatMap_implements cpr machine activations _ _ fun activation member => ?_
  have ordinary := plain activation member
  simp only [interpretActivation, if_pos ordinary, listCalls]
  exact call_implements cpr machine activation.1 activation.2 flag

/-- The texts of the solver function, if `oord` has ordinary blocks only. -/
theorem odoit_implements (plain : ∀ activation ∈ cpr.oord, cpr.Ordinary activation.1)
    (flag fuel : Nat) (output : flag ≠ 10) :
    ∃ text, writeCodeOdoit cpr fuel flag = some text ∧ ∀ {W : Type} (machine : Machine W),
      Implements cpr machine text fun phase => interpretList cpr machine phase flag fuel cpr.oord := by
  obtain ⟨pieces, generated, texts⟩ := fragments_ordinary (odoitHeads cpr flag)
    (writeCodeOzdoit cpr fuel flag) .unset cpr.oord plain
  have same : (odoitHeads cpr flag).ordinary =
      fun activation => placed (callBlock42 cpr activation.1 activation.2 flag) := by
    funext activation
    simp only [odoitHeads, if_neg output, ite_self]
  rw [same] at texts
  refine ⟨pieces.flatMap Fragment.text, ?_, fun machine => ?_⟩
  · simp only [writeCodeOdoit, odoitFragments, generated, Option.bind_eq_bind, Option.bind_some]
  · rw [texts]
    exact ordinary_implements flag fuel cpr.oord plain machine

/-- The pieces of a list of ordinary blocks in `write_code_reinitdoit`. -/
theorem plain_pieces {activations : List Activation}
    (plain : ∀ activation ∈ activations, cpr.Ordinary activation.1) (flag fuel : Nat) (tmp : Cell) :
    reinitdoitPieces cpr fuel flag tmp activations = some (activations.map fun activation =>
      { activation, alternatives := []
        text := placed (callBlock42 cpr activation.1 activation.2 flag) }) := by
  induction activations with
  | nil => rfl
  | cons activation rest inductionHypothesis =>
    rw [List.forall_mem_cons] at plain
    have notSelect : ¬ cpr.funtyp activation.1 = -2 := by
      have ordinary := plain.1
      unfold Ordinary at ordinary
      omega
    simp [reinitdoitPieces, reinitdoitPiece, initialPiece, caseTexts, piece, reinitdoitEmission, plain.1,
      notSelect, inductionHypothesis plain.2]

/-- The text that starts the implicit solver, if `oord` has ordinary blocks only. -/
theorem reinitdoit_implements (plain : ∀ activation ∈ cpr.oord, cpr.Ordinary activation.1)
    (flag fuel : Nat) :
    ∃ text, writeCodeReinitdoit cpr fuel flag = some text ∧ ∀ {W : Type} (machine : Machine W),
      Implements cpr machine text fun phase => interpretList cpr machine phase flag fuel cpr.oord := by
  have generated := plain_pieces plain flag fuel .unset
  have written : writeCodeReinitdoit cpr fuel flag = some (cpr.oord.flatMap fun activation =>
      placed (callBlock42 cpr activation.1 activation.2 flag)) := by
    rw [writeCodeReinitdoit, generated, Option.bind_eq_bind, Option.bind_some, List.flatMap_map]
  exact ⟨_, written, fun machine => ordinary_implements flag fuel cpr.oord plain machine⟩

/-- The text of `_init`: the calls with flag 4, and for an implicit solver the code that
computes the first derivatives. -/
theorem init_implements (wellFormed : WellFormed cpr)
    (plain : cpr.nX ≠ 0 → ∀ activation ∈ cpr.oord, cpr.Ordinary activation.1) (fuel : Nat)
    (enough : ∀ ev, IsEvent cpr ev → rank (Activates cpr) ev < fuel) :
    ∃ text, initText cpr fuel = some text ∧ ∀ {W : Type} (runtime : Runtime W),
      Implements cpr runtime.machine text fun phase => interpretInit cpr runtime fuel phase := by
  obtain ⟨initial, written, initialRuns⟩ :=
    list_implements wellFormed 1 fuel cpr.iord wellFormed.knownIord enough
  have start : writeCodeIdoit cpr fuel = some initial := written
  have opening {W : Type} (runtime : Runtime W) : Implements cpr runtime.machine
      (.line (.comment (.other "flag 4")) :: flagText cpr 4 ++
        headed "Initial blocks must be called with flag 1" initial) fun phase run =>
      (interpretFlag cpr runtime phase 4 run).bind
        (interpretList cpr runtime.machine phase 1 fuel cpr.iord) := by
    refine append_implements cpr runtime.machine _ _ _ _ ?_
      (headed_implements runtime.machine _ _ _ (initialRuns runtime.machine))
    exact flagText_implements runtime 4
  by_cases implicit : cpr.nX ≠ 0 ∧ cpr.implBlk
  · obtain ⟨first, firstWritten, firstRuns⟩ := reinitdoit_implements (plain implicit.1) 1 fuel
    obtain ⟨second, secondWritten, secondRuns⟩ := reinitdoit_implements (plain implicit.1) 7 fuel
    refine ⟨.line (.comment (.other "flag 4")) :: flagText cpr 4 ++
        headed "Initial blocks must be called with flag 1" initial ++
        headed "Initial derivative computation" (first ++ second), ?_, fun runtime => ?_⟩
    · simp only [initText, start, if_pos implicit, firstWritten, secondWritten,
        Option.bind_eq_bind, Option.bind_some]
    · have parts := append_implements cpr runtime.machine _ _ _ _ (opening runtime)
        (headed_implements runtime.machine "Initial derivative computation" _ _
          (append_implements cpr runtime.machine _ _ _ _ (firstRuns runtime.machine)
            (secondRuns runtime.machine)))
      refine implements_congr parts fun phase run => ?_
      simp only [interpretInit, if_pos implicit, Option.bind_eq_bind, Option.bind_assoc]
  · refine ⟨.line (.comment (.other "flag 4")) :: flagText cpr 4 ++
        headed "Initial blocks must be called with flag 1" initial ++
        headed "Initial derivative computation" [], ?_, fun runtime => ?_⟩
    · simp only [initText, start, if_neg implicit, Option.bind_eq_bind, Option.bind_some]
    · have parts := append_implements cpr runtime.machine _ _ _ _ (opening runtime)
        (headed_implements runtime.machine "Initial derivative computation" _ _
          (empty_implements cpr runtime.machine))
      refine implements_congr parts fun phase run => ?_
      simp only [interpretInit, if_neg implicit, Option.bind_eq_bind, Option.bind_assoc]

/-- The text of the solver function of a model with continuous states. -/
theorem simblk_implements (continuous : cpr.nX ≠ 0)
    (plain : ∀ activation ∈ cpr.oord, cpr.Ordinary activation.1) (fuel : Nat) :
    ∃ text, simblkText cpr fuel = some text ∧ ∀ {W : Type} (runtime : Runtime W),
      Implements cpr runtime.machine text fun phase => interpretSimblk cpr runtime fuel phase := by
  obtain ⟨output, outputWritten, outputRuns⟩ := odoit_implements plain 1 fuel (by decide)
  obtain ⟨derivative, derivativeWritten, derivativeRuns⟩ := odoit_implements plain 0 fuel (by decide)
  refine ⟨output ++ derivative, ?_, fun runtime => ?_⟩
  · simp only [simblkText, if_neg continuous, outputWritten, derivativeWritten, Option.bind_eq_bind,
      Option.bind_some]
  · exact append_implements cpr runtime.machine _ _ _ _ (outputRuns runtime.machine)
      (derivativeRuns runtime.machine)

end Parts

section Runs

variable {W : Type} {cpr : Compiled} (runtime : Runtime W) (model : Standalone) (fuel : Nat)

/-- A run so far, as direct interpretation sees it. -/
def Log.run (log : Log W) : Run W := (log.mem.world, log.calls.map Prod.snd)

/-- A generated function that implements the schedule continues a run as the
schedule prescribes, and keeps the phase. -/
theorem issue_implements (origin : Origin) (text : Text)
    (prescribed : (phase : Nat) → Run W → Option (Run W))
    (runs : Implements cpr runtime.machine text prescribed) (log : Log W) :
    prescribed log.mem.phase log.run = some (issue cpr runtime origin text log).run ∧
      (issue cpr runtime origin text log).mem.phase = log.mem.phase := by
  obtain ⟨here, phase⟩ := implements_behind cpr runtime.machine text prescribed runs log.mem
    (log.calls.map Prod.snd)
  refine ⟨here.trans ?_, phase⟩
  simp [Log.run, issue, Function.comp_def]

section Solver

variable (simblk : Implements cpr runtime.machine model.simblk
  fun phase => interpretSimblk cpr runtime fuel phase)

include simblk

/-- A solver step does what the schedule prescribes. -/
theorem solverStep_interpreted (log : Log W) :
    interpretSolver cpr runtime fuel log.run = some (solverStep cpr runtime model log).run := by
  have stages (numbers : List Nat) (log : Log W) : numbers.foldlM (fun run stage => do
        let after ← interpretSimblk cpr runtime fuel 2 run
        some (runtime.integrate stage after.1, after.2)) log.run =
      some (numbers.foldl (fun log stage =>
        let after := runSimblk cpr runtime model log
        { after with
          mem := { after.mem with world := runtime.integrate stage after.mem.world } }) log).run := by
    induction numbers generalizing log with
    | nil => rfl
    | cons stage rest inductionHypothesis =>
      obtain ⟨evaluated, -⟩ := issue_implements runtime .simblk model.simblk _ simblk
        { log with mem := { log.mem with phase := 2 } }
      have here : interpretSimblk cpr runtime fuel 2 log.run =
          some (runSimblk cpr runtime model log).run := evaluated
      rw [List.foldlM_cons, List.foldl_cons, here]
      exact inductionHypothesis { runSimblk cpr runtime model log with
        mem := { (runSimblk cpr runtime model log).mem with
          world := runtime.integrate stage (runSimblk cpr runtime model log).mem.world } }
  exact stages _ log

/-- So do several solver steps. -/
theorem solverSteps_interpreted (steps : Nat) (log : Log W) :
    (List.replicate steps ()).foldlM (fun run _ => interpretSolver cpr runtime fuel run) log.run =
      some ((solverStep cpr runtime model)^[steps] log).run := by
  induction steps generalizing log with
  | zero => rfl
  | succ steps inductionHypothesis =>
    rw [List.replicate_succ, List.foldlM_cons, Function.iterate_succ_apply,
      solverStep_interpreted runtime model fuel simblk log]
    exact inductionHypothesis _

end Solver

variable (isr : Implements cpr runtime.machine model.isr
    fun phase => interpretIsr cpr runtime.machine fuel phase)
  (simblk : cpr.nX ≠ 0 → Implements cpr runtime.machine model.simblk
    fun phase => interpretSimblk cpr runtime fuel phase)

include isr simblk

/-- A sample period does what the schedule prescribes. -/
theorem runIsr_interpreted (steps : Nat) (log : Log W) :
    interpretPeriod cpr runtime fuel log.mem.phase steps log.run =
        some (runIsr cpr runtime model steps log).run ∧
      (runIsr cpr runtime model steps log).mem.phase = phaseAfter cpr log.mem.phase := by
  obtain ⟨direct, phase⟩ := issue_implements runtime .isr model.isr _ isr log
  by_cases discrete : cpr.nX = 0
  · simp only [interpretPeriod, direct, runIsr, if_pos discrete, phaseAfter, phase,
      Option.bind_eq_bind, Option.bind_some, and_self]
  · have solved := solverSteps_interpreted runtime model fuel (simblk discrete) (steps + 1)
      (issue cpr runtime .isr model.isr log)
    refine ⟨?_, ?_⟩
    · simp only [interpretPeriod, direct, if_neg discrete, solved, Option.bind_eq_bind,
        Option.bind_some]
      simp only [runIsr, if_neg discrete, Log.run]
    · rw [phaseAfter, if_neg discrete]
      exact (runIsr_spec cpr runtime model discrete steps log).1

/-- The sample periods and the calls of `_end` do what the schedule prescribes. By
induction on the periods: every `_isr` leaves the phase as it found it, so the next one
starts as the interpretation does. -/
theorem periods_interpreted (periods : List Nat) (log : Log W) :
    interpretPeriods cpr runtime fuel log.mem.phase periods log.run =
      some (runEnd cpr runtime
        (periods.foldl (fun log steps => runIsr cpr runtime model steps log) log)) := by
  induction periods generalizing log with
  | nil =>
    have ending : Implements cpr runtime.machine (endText cpr)
        fun phase => interpretFlag cpr runtime phase 5 := flagText_implements runtime 5
    exact (implements_behind cpr runtime.machine (endText cpr) _ ending log.mem
      (log.calls.map Prod.snd)).1
  | cons steps rest inductionHypothesis =>
    obtain ⟨period, phase⟩ := runIsr_interpreted runtime model fuel isr simblk steps log
    rw [interpretPeriods, period, Option.bind_eq_bind, Option.bind_some, ← phase]
    exact inductionHypothesis _

end Runs

section Main

variable {cpr : Compiled}

/-- The three functions, each with what it implements. That `oord` has no
synchronisation blocks at its top is needed for the solver function only. -/
theorem functions_implement (wellFormed : WellFormed cpr) (events : ∀ ev ∈ evs cpr, IsEvent cpr ev)
    (plain : cpr.nX ≠ 0 → ∀ activation ∈ cpr.oord, cpr.Ordinary activation.1) (fuel : Nat)
    (deep : {ev | IsEvent cpr ev}.ncard < fuel) :
    ∃ model, makeStandalonert cpr fuel = some model ∧ ∀ {W : Type} (runtime : Runtime W),
      Implements cpr runtime.machine model.init (fun phase => interpretInit cpr runtime fuel phase) ∧
      Implements cpr runtime.machine model.isr
        (fun phase => interpretIsr cpr runtime.machine fuel phase) ∧
      (cpr.nX ≠ 0 → Implements cpr runtime.machine model.simblk
        fun phase => interpretSimblk cpr runtime fuel phase) := by
  have enough (ev : Nat) (inside : IsEvent cpr ev) : rank (Activates cpr) ev < fuel :=
    Nat.lt_of_le_of_lt (rank_le wellFormed.graph ev inside) deep
  obtain ⟨init, initWritten, initRuns⟩ := init_implements wellFormed plain fuel enough
  obtain ⟨isr, isrWritten, isrRuns⟩ := isr_implements wellFormed events fuel enough
  obtain ⟨simblk, simblkWritten, simblkRuns⟩ : ∃ simblk, simblkText cpr fuel = some simblk ∧
      (cpr.nX ≠ 0 → ∀ {W : Type} (runtime : Runtime W), Implements cpr runtime.machine simblk
        fun phase => interpretSimblk cpr runtime fuel phase) := by
    by_cases discrete : cpr.nX = 0
    · exact ⟨[], if_pos discrete, fun continuous => absurd discrete continuous⟩
    · obtain ⟨text, written, runs⟩ := simblk_implements discrete (plain discrete) fuel
      exact ⟨text, written, fun _ => runs⟩
  refine ⟨{ init, isr, simblk }, ?_, fun runtime =>
    ⟨initRuns runtime, isrRuns runtime.machine, fun continuous => simblkRuns continuous runtime⟩⟩
  simp only [makeStandalonert, initWritten, isrWritten, simblkWritten, Option.bind_eq_bind,
    Option.bind_some]

/-- The generated program does exactly what its schedule prescribes: from any
start and for any number of sample periods and of solver steps in them, it ends
in the world that direct interpretation of the schedule ends in, and makes the
same block calls in the same order, each with the same flag, activation number
and phase. -/
theorem program_runs (cpr : Compiled) (wellFormed : WellFormed cpr)
    (events : ∀ ev ∈ evs cpr, IsEvent cpr ev)
    (plain : cpr.nX ≠ 0 → ∀ activation ∈ cpr.oord, cpr.Ordinary activation.1) :
    ∃ bound, ∀ fuel, bound ≤ fuel → ∃ model, makeStandalonert cpr fuel = some model ∧
      ∀ {W : Type} (runtime : Runtime W) (start : Mem W) (periods : List Nat),
        interpretProgram cpr runtime fuel periods start.world =
          some (runProgram cpr runtime model start periods) := by
  refine ⟨{ev | IsEvent cpr ev}.ncard + 1, fun fuel deep => ?_⟩
  obtain ⟨model, made, functions⟩ := functions_implement wellFormed events plain fuel deep
  refine ⟨model, made, fun runtime start periods => ?_⟩
  obtain ⟨init, isr, simblk⟩ := functions runtime
  let begun : Log _ := { mem := { start with phase := 1 }, calls := [] }
  obtain ⟨started, phase⟩ := issue_implements runtime .init model.init _ init begun
  have first : interpretInit cpr runtime fuel 1 (start.world, []) =
      some (issue cpr runtime .init model.init begun).run := started
  have continued := periods_interpreted runtime model fuel isr simblk periods
    (issue cpr runtime .init model.init begun)
  rw [phase] at continued
  rw [interpretProgram, first, Option.bind_eq_bind, Option.bind_some]
  exact continued

/-- The sample with its integrator alone in `oord`. -/
def integrating : Compiled := { sample 0 with oord := [(3, 1)] }

theorem integrating_known (activation : Activation) : Known integrating activation := by
  by_cases block : activation.1 = 2
  · exact Or.inr (block ▸ ⟨(sample_synchro 0).kind, (sample_synchro 0).events⟩)
  · exact Or.inl (sample_ordinary 0 _ block)

/-- It is well formed too. -/
theorem integrating_wellFormed : WellFormed integrating where
  known _ _ activation _ := integrating_known activation
  knownCord activation _ := integrating_known activation
  knownIord activation _ := integrating_known activation
  knownOord activation _ := integrating_known activation
  acyclic := (sample_wellFormed 0).acyclic

/-- An instance: the program of the integrator. -/
theorem integrating_runs : ∃ bound, ∀ fuel, bound ≤ fuel →
    ∃ model, makeStandalonert integrating fuel = some model ∧
      ∀ {W : Type} (runtime : Runtime W) (start : Mem W) (periods : List Nat),
        interpretProgram integrating runtime fuel periods start.world =
          some (runProgram integrating runtime model start periods) :=
  program_runs integrating integrating_wellFormed (sample_evs 0) (by decide)

end Main

end ScicosFlex.Codegen
