import ScicosFlex.Codegen.Compiled

/-!
# Emitted C text and its execution

The statements the generating functions emit, one constructor for each form of
line, and what they do when they run. A text is a list of statements, so the
emptiness tests of the generator are tests on the list; indentation is left out.

A run has a world, the values of all links and the private data of all blocks,
which only block calls change. A `Machine` says how calls change it and what the
emitted expressions read from it. Beside the world a run keeps the variables the
emitted text itself sets, and a trace of the calls it makes and of the
alternatives of synchronisation blocks it enters. The lines that prepare a
block's own arrays for a call or clean up after it count as part of the call;
they only matter here because some of them use the variable `i`.
-/

namespace ScicosFlex.Codegen

/-- `get_comment(typ, param)` and the other comment lines. -/
inductive Note where
  | callBlk (bk : Nat)
  | ifThenElseBlk (bk : Nat)
  | evtSelectBlk (bk : Nat)
  | other (text : String)
deriving DecidableEq, Repr

/-- The expression a synchronisation block tests: `outtb_<link>`, an entry of
`outptr` in the block array, or an entry of the array named the other way round,
`<rdnom>_block`. The generator leaves `unset` if it never assigned `tmp_`. -/
inductive Cell where
  | outtb (link : Nat)
  | outptr (bk port : Nat)
  | foreign (bk port : Nat)
  | unset
deriving DecidableEq, Repr

/-- The conditions of emitted `if` lines. -/
inductive Test where
  | positive (cell : Cell)
  | nonPositive (cell : Cell)
  | nmodeNegative (bk : Nat)
  | nmodePositive (bk : Nat)
  | nmodeZero (bk : Nat)
  | phaseIsOne
  | modeIs (bk value : Nat)
  | ajacobianBlock (bk : Nat)
  | not (test : Test)
  | and (left right : Test)
  | or (left right : Test)
deriving DecidableEq, Repr

/-- The right-hand sides assigned to `i`: `max(min((int) cell, block.nevout), 1)`
and `block.mode[0]`. -/
inductive Selector where
  | clamped (cell : Cell) (bk : Nat)
  | modeZero (bk : Nat)
deriving DecidableEq, Repr

/-- How a called function is written. -/
inductive Callee where
  | sensor
  | actuator
  | dummyActuator
  | plain (name : String)
  | fortran (name : String)
deriving DecidableEq, Repr

/-- The argument lists of calls. `useRes` tells whether the derivative argument
is `res` or `xd`. -/
inductive Arguments where
  | port (number : Nat)
  | type0 (useRes : Bool) (nuk nyk : Nat)
  | type1 (useRes : Bool) (nin nout : Nat) (ztyp : Bool)
  | type2 (useRes : Bool) (ztyp : Bool)
  | type4
deriving DecidableEq, Repr

/-- What is stored into `args[0]` and `args[1]`. -/
inductive ArgSource where
  | null
  | port
  | rdouttb (slot : Nat)
deriving DecidableEq, Repr

/-- The simple lines. Block numbers are those of the generator, so the line
mentions `block_<rdnom>[bk-1]`. -/
inductive Line where
  | comment (note : Note)
  | blank
  | setNevprt (bk : Nat) (pt : Int)
  | setLocalFlag (flag : Nat)
  | setBlockNumber (bk : Nat)
  | setNport (port : Nat)
  | initEvout (bk : Nat)
  | setRdouttb (slot bk port : Nat) (output : Bool)
  | setArgs (index bk : Nat) (source : ArgSource)
  | updateG (bk : Nat)
  | placeRes (bk offset : Nat)
  | placeXdInRes (bk offset : Nat)
  | placeXd (bk offset : Nat)
  | copyResToXd (bk : Nat)
  | subtractXd (bk : Nat)
  | call (bk : Nat) (callee : Callee) (arguments : Arguments)
  | adjustEvout (bk : Nat)
deriving DecidableEq, Repr

/-- Statements. The bodies of `ifElse`, `ifElseIf` and `switchI` are the
alternatives of the synchronisation block `bk`; an empty second alternative is
not written. `chooseI` is the short `if` that only assigns `i`. -/
inductive Stmt where
  | line (line : Line)
  | ifElse (bk : Nat) (test : Test) (thenText elseText : List Stmt)
  | ifElseIf (bk : Nat) (test : Test) (thenText : List Stmt) (elseTest : Test)
      (elseText : List Stmt)
  | setI (selector : Selector)
  | chooseI (test : Test) (thenSelector elseSelector : Selector)
  | switchI (bk : Nat) (labels : List Nat) (body : Nat → List Stmt)
  | guarded (test : Test) (body : List Stmt)

abbrev Text := List Stmt

/-- A call as its callee sees it. -/
structure Invocation where
  bk : Nat
  localFlag : Nat
  nevprt : Int
  phase : Nat
deriving DecidableEq, Repr

/-- What a run leaves behind. -/
inductive Event where
  | call (invocation : Invocation)
  | enter (bk alternative : Nat)
deriving DecidableEq, Repr

/-- What the emitted text does not decide itself: the effect of block calls, and the
values read from the world. `compared` is how the value of a link compares with zero; a
floating point value that is not a number does not compare at all, so that `> 0` and `<=
0` are both false. An expression that denotes no link has an arbitrary value. -/
structure Machine (W : Type) where
  behave : Invocation → W → W
  compared : W → Option Nat → Option Ordering
  toInt : W → Option Nat → Int
  modeZero : W → Nat → Int
  ajacobianBlock : W → Nat

/-- `> 0`. -/
def Machine.positive {W : Type} (machine : Machine W) (world : W) (link : Option Nat) : Bool :=
  machine.compared world link = some .gt

/-- `<= 0`. -/
def Machine.nonPositive {W : Type} (machine : Machine W) (world : W) (link : Option Nat) : Bool :=
  machine.compared world link = some .eq || machine.compared world link = some .lt

/-- The variables of a run. -/
structure Mem (W : Type) where
  world : W
  phase : Nat
  localFlag : Nat
  nevprt : Nat → Int
  i : Int
  trace : List Event

/-- The link whose cell an expression denotes. The entries of `outptr` are those
the initialization stores, `outptr_<bk>[port-1] = outtb_<link>`. -/
def denotes (cpr : Compiled) : Cell → Option Nat
  | .outtb link => some link
  | .outptr bk port => some (cpr.drivenLink bk port)
  | .foreign _ _ | .unset => none

/-- `block.nmode`, as the initialization stores it. -/
def nmode (cpr : Compiled) (bk : Nat) : Int := Compiled.size cpr.modptr bk

/-- `block.nevout`, as the initialization stores it. -/
def nevout (cpr : Compiled) (bk : Nat) : Int := Compiled.size cpr.clkptr bk

section Execution

variable {W : Type} (cpr : Compiled) (machine : Machine W)

/-- The value of a condition. -/
def evalTest (mem : Mem W) : Test → Bool
  | .positive cell => machine.positive mem.world (denotes cpr cell)
  | .nonPositive cell => machine.nonPositive mem.world (denotes cpr cell)
  | .nmodeNegative bk => nmode cpr bk < 0
  | .nmodePositive bk => 0 < nmode cpr bk
  | .nmodeZero bk => nmode cpr bk = 0
  | .phaseIsOne => mem.phase = 1
  | .modeIs bk value => machine.modeZero mem.world bk = value
  | .ajacobianBlock bk => machine.ajacobianBlock mem.world = bk
  | .not test => !evalTest mem test
  | .and left right => evalTest mem left && evalTest mem right
  | .or left right => evalTest mem left || evalTest mem right

/-- The value assigned to `i`. -/
def evalSelector (mem : Mem W) : Selector → Int
  | .clamped cell bk => max (min (machine.toInt mem.world (denotes cpr cell)) (nevout cpr bk)) 1
  | .modeZero bk => machine.modeZero mem.world bk

/-- A call of the computational function of block `bk`. -/
def perform (mem : Mem W) (bk : Nat) : Mem W :=
  let invocation : Invocation :=
    { bk := bk, localFlag := mem.localFlag, nevprt := mem.nevprt bk, phase := mem.phase }
  { mem with
    world := machine.behave invocation mem.world
    trace := mem.trace ++ [.call invocation] }

/-- The effect of a simple line. The loops over `ng` and `nx` entries end with
`i` at their bound. -/
def execLine (mem : Mem W) : Line → Mem W
  | .setNevprt bk pt => { mem with nevprt := fun other => if other = bk then pt else mem.nevprt other }
  | .setLocalFlag flag => { mem with localFlag := flag }
  | .updateG bk => { mem with i := Compiled.size cpr.zcptr bk }
  | .copyResToXd bk | .subtractXd bk => { mem with i := Compiled.size cpr.xptr bk }
  | .call bk _ _ => perform machine mem bk
  | .comment _ | .blank | .setBlockNumber _ | .setNport _ | .initEvout _ | .setRdouttb _ _ _ _
  | .setArgs _ _ _ | .placeRes _ _ | .placeXdInRes _ _ | .placeXd _ _ | .adjustEvout _ => mem

/-- Control enters an alternative; an empty one leaves no mark. -/
def enter (bk alternative : Nat) (body : Text) (mem : Mem W) : Mem W :=
  if body.isEmpty then mem else { mem with trace := mem.trace ++ [.enter bk alternative] }

mutual

/-- The effect of one statement. `switch` compares labels with the current `i`,
and every case ends with `break`. -/
def execStmt : Stmt → Mem W → Mem W
  | .line line, mem => execLine cpr machine mem line
  | .ifElse bk test thenText elseText, mem =>
    if evalTest cpr machine mem test then exec thenText (enter bk 1 thenText mem)
    else exec elseText (enter bk 2 elseText mem)
  | .ifElseIf bk test thenText elseTest elseText, mem =>
    if evalTest cpr machine mem test then exec thenText (enter bk 1 thenText mem)
    else if evalTest cpr machine mem elseTest then exec elseText (enter bk 2 elseText mem)
    else mem
  | .setI selector, mem => { mem with i := evalSelector cpr machine mem selector }
  | .chooseI test thenSelector elseSelector, mem =>
    { mem with
      i := evalSelector cpr machine mem
        (if evalTest cpr machine mem test then thenSelector else elseSelector) }
  | .switchI bk labels body, mem =>
    if mem.i.toNat ∈ labels ∧ 0 ≤ mem.i then
      exec (body mem.i.toNat) (enter bk mem.i.toNat (body mem.i.toNat) mem)
    else mem
  | .guarded test body, mem => if evalTest cpr machine mem test then exec body mem else mem
termination_by structural stmt => stmt

/-- The effect of a text. -/
def exec : List Stmt → Mem W → Mem W
  | [], mem => mem
  | stmt :: rest, mem => exec rest (execStmt stmt mem)
termination_by structural text => text

end

@[simp] theorem exec_nil (mem : Mem W) : exec cpr machine [] mem = mem := rfl

@[simp] theorem exec_cons (stmt : Stmt) (rest : Text) (mem : Mem W) :
    exec cpr machine (stmt :: rest) mem =
      exec cpr machine rest (execStmt cpr machine stmt mem) := rfl

/-- A comment does nothing. -/
@[simp] theorem exec_comment (note : Note) (rest : Text) (mem : Mem W) :
    exec cpr machine (.line (.comment note) :: rest) mem = exec cpr machine rest mem := rfl

/-- Texts run one after the other. -/
@[simp] theorem exec_append (left right : Text) (mem : Mem W) :
    exec cpr machine (left ++ right) mem =
      exec cpr machine right (exec cpr machine left mem) := by
  induction left generalizing mem with
  | nil => rfl
  | cons stmt rest inductionHypothesis =>
    rw [List.cons_append, exec_cons, exec_cons, inductionHypothesis]

/-- A relation between the variables before and after a run that every step of
a text keeps. -/
structure Kept (R : Mem W → Mem W → Prop) : Prop where
  refl : ∀ mem, R mem mem
  trans : ∀ first middle last, R first middle → R middle last → R first last
  line : ∀ line mem, R mem (execLine cpr machine mem line)
  enter : ∀ bk alternative body mem, R mem (enter bk alternative body mem)
  setI : ∀ mem i, R mem { mem with i := i }

mutual

/-- What every step keeps, a whole statement keeps. By mutual induction on statements
and texts; the relation has to be transitive for it. -/
theorem execStmt_kept {R : Mem W → Mem W → Prop} (kept : Kept cpr machine R) (stmt : Stmt)
    (mem : Mem W) : R mem (execStmt cpr machine stmt mem) := by
  cases stmt with
  | line line => exact kept.line line mem
  | ifElse bk test thenText elseText =>
    simp only [execStmt]
    split
    · exact kept.trans _ _ _ (kept.enter bk 1 thenText mem) (exec_kept kept thenText _)
    · exact kept.trans _ _ _ (kept.enter bk 2 elseText mem) (exec_kept kept elseText _)
  | ifElseIf bk test thenText elseTest elseText =>
    simp only [execStmt]
    split
    · exact kept.trans _ _ _ (kept.enter bk 1 thenText mem) (exec_kept kept thenText _)
    · split
      · exact kept.trans _ _ _ (kept.enter bk 2 elseText mem) (exec_kept kept elseText _)
      · exact kept.refl mem
  | setI selector => exact kept.setI mem _
  | chooseI test thenSelector elseSelector => exact kept.setI mem _
  | switchI bk labels body =>
    simp only [execStmt]
    split
    · exact kept.trans _ _ _ (kept.enter bk _ _ mem) (exec_kept kept (body mem.i.toNat) _)
    · exact kept.refl mem
  | guarded test body =>
    simp only [execStmt]
    split
    · exact exec_kept kept body mem
    · exact kept.refl mem
termination_by structural stmt

/-- What every step keeps, a whole text keeps. -/
theorem exec_kept {R : Mem W → Mem W → Prop} (kept : Kept cpr machine R) (text : List Stmt)
    (mem : Mem W) : R mem (exec cpr machine text mem) := by
  cases text with
  | nil => exact kept.refl mem
  | cons stmt rest =>
    rw [exec_cons]
    exact kept.trans _ _ _ (execStmt_kept kept stmt mem) (exec_kept kept rest _)
termination_by structural text

end

/-- A trace only grows. -/
theorem exec_trace (text : Text) (mem : Mem W) :
    mem.trace.length ≤ (exec cpr machine text mem).trace.length := by
  have kept : Kept cpr machine fun before after => before.trace.length ≤ after.trace.length := by
    refine ⟨fun _ => Nat.le_refl _, fun _ _ _ => Nat.le_trans, ?_, ?_, fun _ _ => Nat.le_refl _⟩
    · intro line mem
      cases line <;> simp [execLine, perform]
    · intro bk alternative body mem
      unfold enter
      split <;> simp
  exact exec_kept cpr machine kept text mem

/-- No text writes the phase, so all its calls are made in the phase it starts in. -/
theorem exec_phase (text : Text) (mem : Mem W) :
    (exec cpr machine text mem).phase = mem.phase ∧
    ∀ invocation, Event.call invocation ∈ (exec cpr machine text mem).trace →
      Event.call invocation ∈ mem.trace ∨ invocation.phase = mem.phase := by
  have kept : Kept cpr machine fun before after => after.phase = before.phase ∧
      ∀ invocation, Event.call invocation ∈ after.trace →
        Event.call invocation ∈ before.trace ∨ invocation.phase = before.phase := by
    refine ⟨fun _ => ⟨rfl, fun _ => Or.inl⟩, ?_, ?_, ?_, fun _ _ => ⟨rfl, fun _ => Or.inl⟩⟩
    · rintro first middle last ⟨phase, calls⟩ ⟨phase', calls'⟩
      refine ⟨phase'.trans phase, fun invocation member => ?_⟩
      rcases calls' invocation member with old | new
      · exact calls invocation old
      · exact Or.inr (new.trans phase)
    · intro line mem
      cases line with
      | call bk callee arguments =>
        refine ⟨rfl, fun invocation member => ?_⟩
        rcases List.mem_append.mp member with old | new
        · exact Or.inl old
        · obtain rfl := Event.call.inj (List.mem_singleton.mp new)
          exact Or.inr rfl
      | _ => exact ⟨rfl, fun _ => Or.inl⟩
    · intro bk alternative body mem
      unfold enter
      split
      · exact ⟨rfl, fun _ => Or.inl⟩
      · refine ⟨rfl, fun invocation member => Or.inl ?_⟩
        rcases List.mem_append.mp member with old | new
        · exact old
        · cases List.mem_singleton.mp new
  exact exec_kept cpr machine kept text mem

end Execution

end ScicosFlex.Codegen
