import Mathlib.Logic.Function.Iterate
import ScicosFlex.Codegen.CText

/-!
# Calling sequences

`call_block42(bk, pt, flag)` in standalone mode without agenda: the text that
calls block `bk` with a flag, or nothing if the block has nothing to do for that
flag. The generator decides this from the sizes of the block's slices, from its
function type and from its function name.

`call_runs` says what the text does when it runs: it makes exactly the calls
`blockCalls` lists, each with the adjusted flag and activation number.
-/

namespace ScicosFlex.Codegen

open Compiled

section

variable (cpr : Compiled)

/-- `bk` is in the first column of `actt` or `capt`. -/
def isActuator (bk : Nat) : Bool := cpr.actt.any fun row => row.1 = bk
def isSensor (bk : Nat) : Bool := cpr.capt.any fun row => row.1 = bk

/-- The early returns for blocks that have nothing to do for a flag. -/
def returnsAtOnce (bk : Nat) (pt : Int) (flag : Nat) : Bool :=
  let ng := size cpr.zcptr bk
  let nz := size cpr.zptr bk
  let noz := size cpr.ozptr bk
  let nx := size cpr.xptr bk
  let work : Int := cpr.withWork bk
  -- A block without state, or one that is continuously activated.
  !(flag = 2 ∧ ng ≠ 0 ∧ pt < 0) &&
      (flag = 2 && (nz + noz + (nx + work) = 0 || (pt ≤ 0 && work = 0)) && !isActuator cpr bk) ||
    ((flag = 0 || flag = 10) && (nx = 0 && work = 0)) ||
    (flag = 7 && nx = 0) ||
    (flag = 9 && ng = 0) ||
    (flag = 3 && size cpr.clkptr bk = 0)

/-- The activation number put into `nevprt`. -/
def adjustPt (bk : Nat) (pt : Int) (flag : Nat) : Int :=
  if !((flag = 3 && size cpr.zcptr bk ≠ 0) || (flag = 2 && size cpr.zcptr bk ≠ 0)) then pt.natAbs else pt

/-- The function type without the offsets of dynamically linked functions. -/
def functionType (bk : Nat) : Int :=
  let tmp := Int.tmod (cpr.funtyp bk) 10000
  if 2000 < tmp then cpr.funtyp bk - 2000
  else if 1000 < tmp then cpr.funtyp bk - 1000
  else cpr.funtyp bk

/-- Flag 7 is flag 0 for explicit blocks. -/
def adjustFlag (bk flag : Nat) : Nat :=
  if flag = 7 ∧ functionType cpr bk < 10000 then 0 else flag

/-- The function types with a calling sequence. -/
def supported (bk : Nat) : Bool :=
  let ftyp := functionType cpr bk
  ftyp = 0 || ftyp = 1 || ftyp = 2 || ftyp = 4 || ftyp = 10004

/-- The blocks that are never called. -/
def neverCalled (bk : Nat) : Bool :=
  let name := cpr.funs bk
  name = "scicosexit" || name = "bidon" || name = "bidon2" || name = "agenda_blk"

/-- `txt_init_evout`. -/
def initEvout (bk flag : Nat) : Text :=
  if flag = 3 then [.line (.comment (.other "initialize evout")), .line (.initEvout bk)] else []

/-- `txt_nf`: activation number, flag and block number. -/
def setFlags (bk : Nat) (pt : Int) (flag : Nat) : Text :=
  [.line (.setNevprt bk pt), .line (.setLocalFlag flag), .line (.setBlockNumber bk)]

/-- The name of a Fortran-style block function; functions linked with an offset
of 2000 and, for type 0, `andlog` are called by their plain name. -/
def oldCallee (bk : Nat) : Callee :=
  if (2000 < cpr.funtyp bk ∧ cpr.funtyp bk < 3000) ∨
      (functionType cpr bk = 0 ∧ cpr.funs bk = "andlog") then .plain (cpr.funs bk)
  else .fortran (cpr.funs bk)

/-- The ports of a type 0 block, gathered in `rdouttb` if there are several;
`nuk` and `nyk` are the sizes of the last input and of the last output. -/
def type0Ports (bk : Nat) : Text × Nat × Nat :=
  let nin := cpr.inpptr (bk + 1) - cpr.inpptr bk
  let nout := cpr.outptr (bk + 1) - cpr.outptr bk
  let nuk := if nin = 0 then 0 else (cpr.outtb (cpr.inplnk (cpr.inpptr bk - 1 + nin))).rows
  let nyk := if nout = 0 then 0 else (cpr.outtb (cpr.outlnk (cpr.outptr bk - 1 + nout))).rows
  let inputs : Text :=
    if 1 < nin then
      (List.range nin).map (fun k => .line (.setRdouttb k bk k false)) ++
        [.line (.setArgs 0 bk (.rdouttb 0))]
    else if nin = 0 then [.line (.setArgs 0 bk .null)]
    else [.line (.setArgs 0 bk .port)]
  let outputs : Text :=
    if 1 < nout then
      (List.range nout).map (fun k => .line (.setRdouttb (k + nin) bk k true)) ++
        [.line (.setArgs 1 bk (.rdouttb nin))]
    else if nout = 0 then [.line (.setArgs 1 bk .null)]
    else [.line (.setArgs 1 bk .port)]
  (inputs ++ outputs, nuk, nyk)

/-- The compatibility loop of types 0, 1 and 2 that returns `jroot` in `g`. -/
def updateG (bk : Nat) (pt : Int) : Text :=
  if size cpr.zcptr bk ≠ 0 ∧ pt < 0 then
    [.line (.comment (.other "Update g array")), .line (.updateG bk)]
  else []

/-- The adjustment of the continuous state array before a derivative call. -/
def adjustBefore (bk flag : Nat) : Text :=
  if cpr.implBlk ∧ flag = 0 then
    .line (.comment (.other "adjust continuous state array before call")) ::
      (if functionType cpr bk = 4 then
        [.line (.placeXdInRes bk (cpr.xptr bk - 1)), .line (.placeRes bk (cpr.xptr bk - 1))]
      else [.line (.placeRes bk (cpr.xptr bk - 1))])
  else []

/-- The adjustment after it; `flagi` is the flag before its own adjustment. -/
def adjustAfter (bk flag flagi : Nat) : Text :=
  if cpr.implBlk ∧ flag = 0 then
    .line (.comment (.other "adjust continuous state array after call")) ::
      ((if functionType cpr bk = 4 then [.line (.placeXd bk (cpr.xptr bk - 1))] else []) ++
        (if flagi = 7 then [.line (.copyResToXd bk)] else [.line (.subtractXd bk)]))
  else []

/-- The last lines of types 0, 1 and 2 for flag 3. -/
def adjustEvout (bk flag : Nat) : Text :=
  if flag = 3 then
    [.line (.comment (.other "adjust values of output register")),
      .line (.comment (.other "TODO :  multiple output event block")), .line (.adjustEvout bk)]
  else []

/-- The sequence of a computational function, by function type. -/
def callSequence (bk : Nat) (pt : Int) (flag flagi : Nat) : Text :=
  let note : Text := [.line (.comment (.callBlk bk))]
  let start := initEvout bk flag ++ note ++ setFlags bk pt flag
  let useRes := decide (cpr.implBlk ∧ flag = 0)
  let nin := cpr.inpptr (bk + 1) - cpr.inpptr bk
  let nout := cpr.outptr (bk + 1) - cpr.outptr bk
  let ftyp := functionType cpr bk
  if ftyp = 0 then
    let ports := type0Ports cpr bk
    start ++ ports.1 ++ updateG cpr bk pt ++ adjustBefore cpr bk flag ++
      [.line (.call bk (oldCallee cpr bk) (.type0 useRes ports.2.1 ports.2.2))] ++
      adjustAfter cpr bk flag flagi ++ adjustEvout bk flag
  else if ftyp = 1 then
    start ++ updateG cpr bk pt ++ adjustBefore cpr bk flag ++
      [.line (.call bk (oldCallee cpr bk) (.type1 useRes nin nout (cpr.ztyp bk)))] ++
      adjustAfter cpr bk flag flagi ++ adjustEvout bk flag
  else if ftyp = 2 then
    start ++ updateG cpr bk pt ++ adjustBefore cpr bk flag ++
      [.line (.call bk (.plain (cpr.funs bk)) (.type2 useRes (cpr.ztyp bk)))] ++
      adjustAfter cpr bk flag flagi ++ adjustEvout bk flag
  else if ftyp = 4 then
    start ++ adjustBefore cpr bk flag ++ [.line (.call bk (.plain (cpr.funs bk)) .type4)] ++
      adjustAfter cpr bk flag flagi
  else if ftyp = 10004 then
    start ++ [.line (.call bk (.plain (cpr.funs bk)) .type4)]
  else if ftyp = 3 then note
  -- Types below zero and unsupported types.
  else []

/-- The rows of `actt` that belong to a block: `find(bk==actt(:,1))`. -/
def actuatorPorts (bk : Nat) : List Nat :=
  (List.range cpr.actt.length).filterMap fun row =>
    if (cpr.actt[row]?.map Prod.fst) = some bk then some (row + 1) else none

/-- The sequence of a sensor, which has one port. -/
def sensorSequence (bk : Nat) (pt : Int) (flag : Nat) : Text :=
  let index := (cpr.capt.findIdx fun row => row.1 = bk) + 1
  initEvout bk flag ++ [.line (.comment (.callBlk bk))] ++ setFlags bk pt flag ++
    [.line (.setNport index), .line (.call bk .sensor (.port 0))]

/-- The sequence of an actuator: every port puts `txt_init_evout` in front of
what is there already and its own call behind. -/
def actuatorSequence (bk : Nat) (pt : Int) (flag : Nat) : Text :=
  let callee : Callee :=
    if ((cpr.funs bk).splitOn "dummy").length ≠ 1 then .dummyActuator else .actuator
  (actuatorPorts cpr bk).zipIdx.foldl (fun txt port =>
    initEvout bk flag ++ txt ++ setFlags bk pt flag ++
      [.line (.setNport port.1), .line (.call bk callee (.port port.2))])
    [.line (.comment (.callBlk bk))]

/-- `call_block42(bk,pt,flag)`. -/
def callBlock42 (bk : Nat) (pt : Int) (flag : Nat) : Text :=
  if returnsAtOnce cpr bk pt flag then []
  else if neverCalled cpr bk then []
  else if isSensor cpr bk then
    sensorSequence cpr bk (adjustPt cpr bk pt flag) (adjustFlag cpr bk flag)
  else if isActuator cpr bk then
    actuatorSequence cpr bk (adjustPt cpr bk pt flag) (adjustFlag cpr bk flag)
  else callSequence cpr bk (adjustPt cpr bk pt flag) (adjustFlag cpr bk flag) flag

/-- How often a calling sequence calls the block: once for a function or a
sensor, once for each port of an actuator. -/
def callCount (bk : Nat) (pt : Int) (flag : Nat) : Nat :=
  if returnsAtOnce cpr bk pt flag || neverCalled cpr bk then 0
  else if isSensor cpr bk then 1
  else if isActuator cpr bk then (actuatorPorts cpr bk).length
  else if supported cpr bk then 1
  else 0

end

section

variable {W : Type} (cpr : Compiled) (machine : Machine W)

/-- A block call that direct interpretation prescribes: the world changes, the
call is noted. -/
def interpretCall (invocation : Invocation) (run : W × List Invocation) : W × List Invocation :=
  (machine.behave invocation run.1, run.2 ++ [invocation])

/-- All calls of one calling sequence. -/
def blockCalls (phase bk : Nat) (pt : Int) (flag : Nat) (run : W × List Invocation) :
    W × List Invocation :=
  (interpretCall machine
    { bk := bk, localFlag := adjustFlag cpr bk flag, nevprt := adjustPt cpr bk pt flag,
      phase := phase })^[callCount cpr bk pt flag] run

/-- The calls in a trace. -/
def callsOf (trace : List Event) : List Invocation :=
  trace.filterMap fun
    | .call invocation => some invocation
    | .enter _ _ => none

/-- What direct interpretation knows of a run: the world and the calls. -/
def project (mem : Mem W) : W × List Invocation := (mem.world, callsOf mem.trace)

/-- A line that calls nothing and sets nothing but perhaps `i`. -/
def quietLine : Stmt → Bool
  | .line (.setNevprt _ _) | .line (.setLocalFlag _) | .line (.call _ _ _) => false
  | .line _ => true
  | _ => false

/-- Running quiet lines only moves `i`. -/
theorem exec_quiet (text : Text) (quiet : text.all quietLine = true) (mem : Mem W) :
    ∃ i, exec cpr machine text mem = { mem with i := i } := by
  induction text generalizing mem with
  | nil => exact ⟨mem.i, rfl⟩
  | cons stmt rest inductionHypothesis =>
    obtain ⟨here, later⟩ : quietLine stmt = true ∧ rest.all quietLine = true := by
      simpa only [List.all_cons, Bool.and_eq_true] using quiet
    have one : ∃ i, execStmt cpr machine stmt mem = { mem with i := i } := by
      cases stmt with
      | line line =>
        cases line with
        | setNevprt | setLocalFlag | call => simp [quietLine] at here
        | updateG bk => exact ⟨size cpr.zcptr bk, rfl⟩
        | copyResToXd bk | subtractXd bk => exact ⟨size cpr.xptr bk, rfl⟩
        | _ => exact ⟨mem.i, rfl⟩
      | _ => simp [quietLine] at here
    obtain ⟨i, moved⟩ := one
    obtain ⟨j, rested⟩ := inductionHypothesis later { mem with i := i }
    exact ⟨j, by rw [exec_cons, moved, rested]⟩

/-- Setting the flags, preparing, calling and adjusting is one call with those flags. -/
theorem sequence_runs (before between after : Text) (bk : Nat) (pt : Int) (flag : Nat)
    (callee : Callee) (arguments : Arguments)
    (quietBefore : before.all quietLine = true) (quietBetween : between.all quietLine = true)
    (quietAfter : after.all quietLine = true) (mem : Mem W) :
    let ran := exec cpr machine
      (before ++ setFlags bk pt flag ++ between ++ [.line (.call bk callee arguments)] ++ after) mem
    project ran = interpretCall machine
        { bk := bk, localFlag := flag, nevprt := pt, phase := mem.phase } (project mem) ∧
      ran.phase = mem.phase := by
  obtain ⟨i, first⟩ := exec_quiet cpr machine before quietBefore mem
  let flagged : Mem W := { mem with
    i := i
    nevprt := fun other => if other = bk then pt else mem.nevprt other
    localFlag := flag }
  have set : exec cpr machine (setFlags bk pt flag) { mem with i := i } = flagged := rfl
  obtain ⟨j, second⟩ := exec_quiet cpr machine between quietBetween flagged
  obtain ⟨k, third⟩ := exec_quiet cpr machine after quietAfter
    (perform machine { flagged with i := j } bk)
  have called : exec cpr machine [.line (.call bk callee arguments)] { flagged with i := j } =
      perform machine { flagged with i := j } bk := rfl
  simp only [exec_append, first, set, second, called, third]
  refine ⟨?_, rfl⟩
  simp [project, interpretCall, perform, callsOf, flagged]

/-- All the preparing and adjusting texts are quiet. -/
theorem quiet_initEvout (bk flag : Nat) : (initEvout bk flag).all quietLine = true := by
  unfold initEvout
  split <;> rfl

theorem quiet_type0Ports (bk : Nat) : (type0Ports cpr bk).1.all quietLine = true := by
  simp only [type0Ports, List.all_append, Bool.and_eq_true]
  constructor
  · split
    · simp [quietLine]
    · split <;> rfl
  · split
    · simp [quietLine]
    · split <;> rfl

theorem quiet_updateG (bk : Nat) (pt : Int) : (updateG cpr bk pt).all quietLine = true := by
  unfold updateG
  split <;> rfl

theorem quiet_adjustBefore (bk flag : Nat) : (adjustBefore cpr bk flag).all quietLine = true := by
  unfold adjustBefore
  split
  · split <;> rfl
  · rfl

theorem quiet_adjustAfter (bk flag flagi : Nat) :
    (adjustAfter cpr bk flag flagi).all quietLine = true := by
  unfold adjustAfter
  split
  · split <;> split <;> rfl
  · rfl

theorem quiet_adjustEvout (bk flag : Nat) : (adjustEvout bk flag).all quietLine = true := by
  unfold adjustEvout
  split <;> rfl

/-- The sequence of a supported function is one call, and all other lines of it leave the
world and the trace as they are. The sequences of all types are gone through here once. -/
theorem callSequence_runs (bk : Nat) (pt : Int) (flag flagi : Nat)
    (called : supported cpr bk = true) (mem : Mem W) :
    let ran := exec cpr machine (callSequence cpr bk pt flag flagi) mem
    project ran = interpretCall machine
        { bk := bk, localFlag := flag, nevprt := pt, phase := mem.phase } (project mem) ∧
      ran.phase = mem.phase := by
  have before : (initEvout bk flag ++ [Stmt.line (.comment (.callBlk bk))]).all quietLine = true := by
    rw [List.all_append, quiet_initEvout]
    rfl
  have quiet := sequence_runs cpr machine (initEvout bk flag ++ [.line (.comment (.callBlk bk))])
  simp only [supported, Bool.or_eq_true, decide_eq_true_eq] at called
  rcases called with (((zero | one) | two) | four) | implicit
  · have shape : callSequence cpr bk pt flag flagi = (initEvout bk flag ++
        [.line (.comment (.callBlk bk))]) ++ setFlags bk pt flag ++
        ((type0Ports cpr bk).1 ++ updateG cpr bk pt ++ adjustBefore cpr bk flag) ++
        [.line (.call bk (oldCallee cpr bk) (.type0 (decide (cpr.implBlk ∧ flag = 0))
          (type0Ports cpr bk).2.1 (type0Ports cpr bk).2.2))] ++
        (adjustAfter cpr bk flag flagi ++ adjustEvout bk flag) := by
      simp only [callSequence, zero, if_true, List.append_assoc]
    rw [shape]
    exact quiet _ _ bk pt flag _ _ before
      (by simp only [List.all_append, quiet_type0Ports, quiet_updateG, quiet_adjustBefore,
        Bool.and_self])
      (by simp only [List.all_append, quiet_adjustAfter, quiet_adjustEvout, Bool.and_self]) mem
  · have shape : callSequence cpr bk pt flag flagi = (initEvout bk flag ++
        [.line (.comment (.callBlk bk))]) ++ setFlags bk pt flag ++
        (updateG cpr bk pt ++ adjustBefore cpr bk flag) ++
        [.line (.call bk (oldCallee cpr bk) (.type1 (decide (cpr.implBlk ∧ flag = 0))
          (cpr.inpptr (bk + 1) - cpr.inpptr bk) (cpr.outptr (bk + 1) - cpr.outptr bk)
          (cpr.ztyp bk)))] ++ (adjustAfter cpr bk flag flagi ++ adjustEvout bk flag) := by
      simp [callSequence, one]
    rw [shape]
    exact quiet _ _ bk pt flag _ _ before
      (by simp only [List.all_append, quiet_updateG, quiet_adjustBefore, Bool.and_self])
      (by simp only [List.all_append, quiet_adjustAfter, quiet_adjustEvout, Bool.and_self]) mem
  · have shape : callSequence cpr bk pt flag flagi = (initEvout bk flag ++
        [.line (.comment (.callBlk bk))]) ++ setFlags bk pt flag ++
        (updateG cpr bk pt ++ adjustBefore cpr bk flag) ++
        [.line (.call bk (.plain (cpr.funs bk)) (.type2 (decide (cpr.implBlk ∧ flag = 0))
          (cpr.ztyp bk)))] ++ (adjustAfter cpr bk flag flagi ++ adjustEvout bk flag) := by
      simp [callSequence, two]
    rw [shape]
    exact quiet _ _ bk pt flag _ _ before
      (by simp only [List.all_append, quiet_updateG, quiet_adjustBefore, Bool.and_self])
      (by simp only [List.all_append, quiet_adjustAfter, quiet_adjustEvout, Bool.and_self]) mem
  · have shape : callSequence cpr bk pt flag flagi = (initEvout bk flag ++
        [.line (.comment (.callBlk bk))]) ++ setFlags bk pt flag ++ adjustBefore cpr bk flag ++
        [.line (.call bk (.plain (cpr.funs bk)) .type4)] ++ adjustAfter cpr bk flag flagi := by
      simp [callSequence, four]
    rw [shape]
    exact quiet _ _ bk pt flag _ _ before (quiet_adjustBefore cpr bk flag)
      (quiet_adjustAfter cpr bk flag flagi) mem
  · have shape : callSequence cpr bk pt flag flagi = (initEvout bk flag ++
        [.line (.comment (.callBlk bk))]) ++ setFlags bk pt flag ++ [] ++
        [.line (.call bk (.plain (cpr.funs bk)) .type4)] ++ [] := by
      simp [callSequence, implicit]
    rw [shape]
    exact quiet _ _ bk pt flag _ _ before rfl rfl mem

/-- Every further port of an actuator adds one call. The source puts the text so far
between what it prepares and the new call, so the induction carries what that text does. -/
theorem actuatorPorts_run (bk : Nat) (pt : Int) (flag : Nat) (callee : Callee)
    (ports : List (Nat × Nat)) (txt : Text) (calls : Nat)
    (so_far : ∀ mem : Mem W, project (exec cpr machine txt mem) = (interpretCall machine
        { bk := bk, localFlag := flag, nevprt := pt, phase := mem.phase })^[calls] (project mem) ∧
      (exec cpr machine txt mem).phase = mem.phase) (mem : Mem W) :
    let ran := exec cpr machine (ports.foldl (fun txt port =>
      initEvout bk flag ++ txt ++ setFlags bk pt flag ++
        [.line (.setNport port.1), .line (.call bk callee (.port port.2))]) txt) mem
    project ran = (interpretCall machine
        { bk := bk, localFlag := flag, nevprt := pt, phase := mem.phase })^[calls + ports.length]
          (project mem) ∧
      ran.phase = mem.phase := by
  induction ports generalizing txt calls mem with
  | nil => exact so_far mem
  | cons port rest inductionHypothesis =>
    rw [List.foldl_cons, List.length_cons, Nat.add_comm rest.length, ← Nat.add_assoc]
    refine inductionHypothesis _ (calls + 1) ?_ mem
    intro mem
    obtain ⟨i, first⟩ := exec_quiet cpr machine _ (quiet_initEvout bk flag) mem
    obtain ⟨before, phase⟩ := so_far { mem with i := i }
    have last := sequence_runs cpr machine [] [.line (.setNport port.1)] [] bk pt flag callee
      (.port port.2) rfl rfl rfl (exec cpr machine txt { mem with i := i })
    simp only [List.nil_append, List.append_nil, List.append_assoc, List.singleton_append,
      exec_append] at last
    rw [exec_append, exec_append, exec_append, first, last.1, last.2, before, phase,
      Function.iterate_succ_apply']
    exact ⟨rfl, rfl⟩

omit machine in
/-- A block that is not called gets at most a comment. -/
theorem callSequence_unsupported (bk : Nat) (pt : Int) (flag flagi : Nat)
    (unsupported : supported cpr bk = false) :
    callSequence cpr bk pt flag flagi = [.line (.comment (.callBlk bk))] ∨
      callSequence cpr bk pt flag flagi = [] := by
  simp only [supported, Bool.or_eq_false_iff, decide_eq_false_iff_not] at unsupported
  obtain ⟨⟨⟨⟨zero, one⟩, two⟩, four⟩, implicit⟩ := unsupported
  simp only [callSequence, zero, one, two, four, implicit, if_false]
  split
  · exact Or.inl rfl
  · exact Or.inr rfl

/-- A block that is not called gets no text that calls anything. -/
theorem unsupported_runs (bk : Nat) (pt : Int) (flag flagi : Nat)
    (unsupported : supported cpr bk = false) (mem : Mem W) :
    exec cpr machine (callSequence cpr bk pt flag flagi) mem = mem := by
  obtain note | none := callSequence_unsupported cpr bk pt flag flagi unsupported
  · rw [note]
    rfl
  · rw [none]
    rfl

/-- The text of `call_block42` makes exactly the calls of `blockCalls`, which may be
none, one, or one for each port of an actuator. -/
theorem call_runs (bk : Nat) (pt : Int) (flag : Nat) (mem : Mem W) :
    let ran := exec cpr machine (callBlock42 cpr bk pt flag) mem
    project ran = blockCalls cpr machine mem.phase bk pt flag (project mem) ∧
      ran.phase = mem.phase := by
  simp only [callBlock42, blockCalls, callCount]
  by_cases early : returnsAtOnce cpr bk pt flag = true
  · simp [early]
  · by_cases never : neverCalled cpr bk = true
    · simp [early, never]
    · simp only [early, never, Bool.or_self, Bool.false_eq_true, if_false]
      by_cases sensor : isSensor cpr bk = true
      · simp only [sensor, if_true, sensorSequence]
        have run := sequence_runs cpr machine
          (initEvout bk (adjustFlag cpr bk flag) ++ [.line (.comment (.callBlk bk))])
          [.line (.setNport ((cpr.capt.findIdx fun row => row.1 = bk) + 1))] [] bk
          (adjustPt cpr bk pt flag) (adjustFlag cpr bk flag) .sensor (.port 0)
          (by rw [List.all_append, quiet_initEvout]; rfl) rfl rfl mem
        simpa using run
      · by_cases actuator : isActuator cpr bk = true
        · simp only [sensor, actuator, if_true, Bool.false_eq_true, if_false, actuatorSequence]
          have run := actuatorPorts_run cpr machine bk (adjustPt cpr bk pt flag)
            (adjustFlag cpr bk flag)
            (if ((cpr.funs bk).splitOn "dummy").length ≠ 1 then .dummyActuator else .actuator)
            (actuatorPorts cpr bk).zipIdx [.line (.comment (.callBlk bk))] 0
            (fun mem => ⟨rfl, rfl⟩) mem
          simpa using run
        · simp only [sensor, actuator, Bool.false_eq_true, if_false]
          by_cases called : supported cpr bk = true
          · simpa [called] using callSequence_runs cpr machine bk (adjustPt cpr bk pt flag)
              (adjustFlag cpr bk flag) flag called mem
          · simp only [called, Bool.false_eq_true, if_false, Function.iterate_zero, id_eq]
            rw [unsupported_runs cpr machine bk _ _ _ (by simpa using called)]
            exact ⟨rfl, rfl⟩

end

end ScicosFlex.Codegen
