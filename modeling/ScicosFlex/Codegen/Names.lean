import Mathlib.Tactic.MkIffOfInductiveProp
import ScicosFlex.Codegen.Schedule

/-!
# Names in emitted text

The C identifiers that occur in emitted statements. A text is scoped with respect
to some declarations if they declare all of its names. `call_scoped` says what has
to be declared for a calling sequence, and `pieces_scoped` for the text of a list of
activations.

Macros of the headers such as `max`, `NULL` and `C2F` are no identifiers here, and
`C2F(f)` is taken to be another identifier than any plain function name.
-/

namespace ScicosFlex.Codegen

open Compiled

/-- The identifiers of emitted statements and of the declarations that matter for
them; `blockArray` is `block_<rdnom>` and `reversedArray` is `<rdnom>_block`. -/
inductive Ident where
  | blockArray | reversedArray | setBlockNumber | phase | ajacobianBlock
  | localFlag | t | i | kf | nport | args | rdouttb | nrd1 | nrd2
  | x | xd | res | h | dt | tout | he
  | outtb (link : Nat)
  | function (callee : Callee)
deriving DecidableEq, Repr

section Names

/-- The names in a tested expression. If `tmp_` was never set, Scilab stops with an
error instead of writing text. -/
def cellNames : Cell → List Ident
  | .outtb link => [.outtb link]
  | .outptr _ _ => [.blockArray]
  | .foreign _ _ => [.reversedArray]
  | .unset => []

/-- The names in a condition. -/
def testNames : Test → List Ident
  | .positive cell | .nonPositive cell => cellNames cell
  | .nmodeNegative _ | .nmodePositive _ | .nmodeZero _ | .modeIs _ _ => [.blockArray]
  | .phaseIsOne => [.phase]
  | .ajacobianBlock _ => [.ajacobianBlock]
  | .not test => testNames test
  | .and left right | .or left right => testNames left ++ testNames right

/-- The names in what is assigned to `i`. -/
def selectorNames : Selector → List Ident
  | .clamped cell _ => cellNames cell ++ [.blockArray]
  | .modeZero _ => [.blockArray]

/-- The names in an argument list. -/
def argumentNames : Arguments → List Ident
  | .port _ => [.localFlag, .nport, .blockArray, .t]
  | .type0 _ _ _ => [.localFlag, .blockArray, .t, .args, .nrd1, .nrd2]
  | .type1 _ _ _ _ | .type2 _ _ => [.localFlag, .blockArray, .t]
  | .type4 => [.blockArray, .localFlag]

/-- The names in a simple line. -/
def lineNames : Line → List Ident
  | .comment _ | .blank => []
  | .setNevprt _ _ => [.blockArray]
  | .setLocalFlag _ => [.localFlag]
  | .setBlockNumber _ => [.setBlockNumber]
  | .setNport _ => [.nport]
  | .initEvout _ => [.kf, .blockArray]
  | .setRdouttb _ _ _ _ => [.rdouttb, .blockArray]
  | .setArgs _ _ .null => [.args]
  | .setArgs _ _ .port => [.args, .blockArray]
  | .setArgs _ _ (.rdouttb _) => [.args, .rdouttb]
  | .updateG _ | .copyResToXd _ | .subtractXd _ => [.i, .blockArray]
  | .placeRes _ _ | .placeXdInRes _ _ => [.blockArray, .res]
  | .placeXd _ _ => [.blockArray, .xd]
  | .call _ callee arguments => .function callee :: argumentNames arguments
  | .adjustEvout _ => [.blockArray, .t]

mutual

/-- The names in a statement. -/
def stmtNames : Stmt → List Ident
  | .line line => lineNames line
  | .ifElse _ test thenText elseText => testNames test ++ names thenText ++ names elseText
  | .ifElseIf _ test thenText elseTest elseText =>
    testNames test ++ names thenText ++
      (if elseText.isEmpty then [] else testNames elseTest ++ names elseText)
  | .setI selector => .i :: selectorNames selector
  | .chooseI test thenSelector elseSelector =>
    .i :: testNames test ++ selectorNames thenSelector ++ selectorNames elseSelector
  | .switchI _ labels body => .i :: labels.flatMap fun label => names (body label)
  | .guarded test body => testNames test ++ names body
termination_by structural stmt => stmt

/-- The names in a text. -/
def names : List Stmt → List Ident
  | [] => []
  | stmt :: rest => stmtNames stmt ++ names rest
termination_by structural text => text

end

/-- Some declarations declare all names of a text. -/
def Scoped (declared : Ident → Prop) (text : Text) : Prop := ∀ name ∈ names text, declared name

/-- They declare all names of a condition. -/
def TestScoped (declared : Ident → Prop) (test : Test) : Prop :=
  ∀ name ∈ testNames test, declared name

/-- They declare all names of a statement. -/
def StmtScoped (declared : Ident → Prop) (stmt : Stmt) : Prop :=
  ∀ name ∈ stmtNames stmt, declared name

end Names

section Scoped

variable (declared : Ident → Prop)

@[simp] theorem scoped_nil : Scoped declared [] := fun _ member => absurd member List.not_mem_nil

@[simp] theorem scoped_cons (stmt : Stmt) (rest : Text) :
    Scoped declared (stmt :: rest) ↔ StmtScoped declared stmt ∧ Scoped declared rest := by
  simp only [Scoped, StmtScoped, names, List.forall_mem_append]

theorem scoped_line (line : Line) :
    StmtScoped declared (.line line) ↔ ∀ name ∈ lineNames line, declared name := Iff.rfl

theorem scoped_ifElse (bk : Nat) (test : Test) (thenText elseText : Text) :
    StmtScoped declared (.ifElse bk test thenText elseText) ↔
      TestScoped declared test ∧ Scoped declared thenText ∧ Scoped declared elseText := by
  simp only [StmtScoped, TestScoped, Scoped, stmtNames, List.forall_mem_append, and_assoc]

/-- An empty second alternative is not written, with its condition. -/
theorem scoped_ifElseIf (bk : Nat) (test : Test) (thenText : Text) (elseTest : Test)
    (elseText : Text) :
    StmtScoped declared (.ifElseIf bk test thenText elseTest elseText) ↔
      TestScoped declared test ∧ Scoped declared thenText ∧
        (elseText ≠ [] → TestScoped declared elseTest) ∧ Scoped declared elseText := by
  by_cases empty : elseText = [] <;>
    simp [StmtScoped, TestScoped, Scoped, stmtNames, empty, or_imp, forall_and, names]

theorem scoped_switchI (bk : Nat) (labels : List Nat) (body : Nat → Text) :
    StmtScoped declared (.switchI bk labels body) ↔
      declared .i ∧ ∀ label ∈ labels, Scoped declared (body label) := by
  simp only [StmtScoped, Scoped, stmtNames, List.forall_mem_cons, List.mem_flatMap]
  refine and_congr_right fun _ => ⟨fun all label member name inside => ?_, ?_⟩
  · exact all name ⟨label, member, inside⟩
  · rintro all name ⟨label, member, inside⟩
    exact all label member name inside

@[simp] theorem scoped_append (left right : Text) :
    Scoped declared (left ++ right) ↔ Scoped declared left ∧ Scoped declared right := by
  induction left with
  | nil => simp
  | cons stmt rest inductionHypothesis =>
    rw [List.cons_append, scoped_cons, scoped_cons, inductionHypothesis, and_assoc]

/-- The texts of a list are scoped one by one. -/
theorem scoped_flatMap {α : Type} (items : List α) (text : α → Text) :
    Scoped declared (items.flatMap text) ↔ ∀ item ∈ items, Scoped declared (text item) := by
  induction items with
  | nil => simp
  | cons item rest inductionHypothesis =>
    rw [List.flatMap_cons, scoped_append, inductionHypothesis, List.forall_mem_cons]

/-- A placed text is scoped if the text is. -/
@[simp] theorem scoped_placed (txt : Text) :
    Scoped declared (placed txt) ↔ Scoped declared txt := by
  unfold placed
  split
  · rename_i empty
    rw [List.isEmpty_iff.mp empty]
  · simp [scoped_line, lineNames]

end Scoped

section Calls

variable (cpr : Compiled)

/-- The blocks with a calling sequence that calls something. -/
def callable (bk : Nat) : Bool := supported cpr bk && !neverCalled cpr bk

/-- The function a calling sequence calls. -/
def calleeOf (bk : Nat) : Callee :=
  if functionType cpr bk = 0 ∨ functionType cpr bk = 1 then oldCallee cpr bk
  else .plain (cpr.funs bk)

/-- The names that all calling sequences use. -/
structure Common (declared : Ident → Prop) : Prop where
  blockArray : declared .blockArray
  setBlockNumber : declared .setBlockNumber
  localFlag : declared .localFlag
  t : declared .t

/-- What else has to be declared for a calling sequence: its function, the loop
variable of the output events, the scratch variables of type 0, and the state
arrays and loop variable of the adjustments. -/
@[mk_iff] structure CallDeclared (declared : Ident → Prop) (bk : Nat) (pt : Int) (flag : Nat) : Prop where
  function : declared (.function (calleeOf cpr bk))
  events : flag = 3 → declared .kf
  scratch : functionType cpr bk = 0 → declared .args ∧ declared .nrd1 ∧ declared .nrd2
  ports : functionType cpr bk = 0 →
    1 < cpr.inpptr (bk + 1) - cpr.inpptr bk ∨ 1 < cpr.outptr (bk + 1) - cpr.outptr bk →
      declared .rdouttb
  states : cpr.implBlk ∧ adjustFlag cpr bk flag = 0 → functionType cpr bk ≠ 10004 →
    declared .res ∧ declared .i ∧ (functionType cpr bk = 4 → declared .xd)
  surfaces : functionType cpr bk = 0 ∨ functionType cpr bk = 1 ∨ functionType cpr bk = 2 →
    size cpr.zcptr bk ≠ 0 ∧ adjustPt cpr bk pt flag < 0 → declared .i

variable {cpr} {declared : Ident → Prop} (common : Common declared)
include common

theorem scoped_initEvout (bk flag : Nat) :
    Scoped declared (initEvout bk flag) ↔ (flag = 3 → declared .kf) := by
  by_cases third : flag = 3 <;>
    simp [initEvout, third, scoped_line, lineNames, common.blockArray]

theorem scoped_setFlags (bk : Nat) (pt : Int) (flag : Nat) :
    Scoped declared (setFlags bk pt flag) := by
  simp [setFlags, scoped_line, lineNames, common.blockArray, common.localFlag, common.setBlockNumber]

theorem scoped_updateG (bk : Nat) (pt : Int) :
    Scoped declared (updateG cpr bk pt) ↔ (size cpr.zcptr bk ≠ 0 ∧ pt < 0 → declared .i) := by
  by_cases surfaces : size cpr.zcptr bk ≠ 0 ∧ pt < 0
  · simp [updateG, surfaces, scoped_line, lineNames, common.blockArray]
  · rw [updateG, if_neg surfaces]
    exact ⟨fun _ both => absurd both surfaces, fun _ => scoped_nil declared⟩

theorem scoped_adjustBefore (bk flag : Nat) :
    Scoped declared (adjustBefore cpr bk flag) ↔ (cpr.implBlk ∧ flag = 0 → declared .res) := by
  by_cases implicit : cpr.implBlk = true ∧ flag = 0
  · by_cases four : functionType cpr bk = 4 <;>
      simp [adjustBefore, implicit, four, scoped_line, lineNames, common.blockArray]
  · rw [adjustBefore, if_neg implicit]
    exact ⟨fun _ both => absurd both implicit, fun _ => scoped_nil declared⟩

theorem scoped_adjustAfter (bk flag flagi : Nat) :
    Scoped declared (adjustAfter cpr bk flag flagi) ↔ (cpr.implBlk ∧ flag = 0 →
      declared .i ∧ (functionType cpr bk = 4 → declared .xd)) := by
  by_cases implicit : cpr.implBlk = true ∧ flag = 0
  · by_cases four : functionType cpr bk = 4 <;> by_cases seven : flagi = 7 <;>
      simp [adjustAfter, implicit, four, seven, scoped_line, lineNames, common.blockArray, and_comm]
  · rw [adjustAfter, if_neg implicit]
    exact ⟨fun _ both => absurd both implicit, fun _ => scoped_nil declared⟩

theorem scoped_adjustEvout (bk flag : Nat) : Scoped declared (adjustEvout bk flag) := by
  by_cases third : flag = 3 <;>
    simp [adjustEvout, third, scoped_line, lineNames, common.blockArray, common.t]

/-- The ports on one side of a type 0 block. -/
theorem scoped_side (bk index slot count : Nat) (gather : Nat → Line)
    (gathers : ∀ k, lineNames (gather k) = [.rdouttb, .blockArray]) :
    Scoped declared (if 1 < count then
        (List.range count).map (fun k => .line (gather k)) ++
          [.line (.setArgs index bk (.rdouttb slot))]
      else if count = 0 then [.line (.setArgs index bk .null)]
      else [.line (.setArgs index bk .port)]) ↔
      declared .args ∧ (1 < count → declared .rdouttb) := by
  by_cases several : 1 < count
  · have lines : Scoped declared ((List.range count).map fun k => .line (gather k)) ↔
        declared .rdouttb := by
      rw [List.map_eq_flatMap, scoped_flatMap]
      simp only [scoped_cons, scoped_nil, scoped_line, gathers, List.mem_range, List.forall_mem_cons,
        List.not_mem_nil, false_imp_iff, implies_true, and_true, common.blockArray]
      exact ⟨fun all => all 0 (by omega), fun here _ _ => here⟩
    simp only [if_pos several, scoped_append, lines]
    simp [scoped_line, lineNames, several, and_comm]
  · by_cases none : count = 0 <;>
      simp [several, none, scoped_line, lineNames, common.blockArray]

theorem scoped_type0Ports (bk : Nat) :
    Scoped declared (type0Ports cpr bk).1 ↔ declared .args ∧
      (1 < cpr.inpptr (bk + 1) - cpr.inpptr bk ∨ 1 < cpr.outptr (bk + 1) - cpr.outptr bk →
        declared .rdouttb) := by
  simp only [type0Ports, scoped_append]
  rw [scoped_side common bk 0 0 _ (fun k => .setRdouttb k bk k false) fun _ => rfl,
    scoped_side common bk 1 _ _ (fun k => .setRdouttb _ bk k true) fun _ => rfl, or_imp]
  constructor
  · rintro ⟨⟨args, first⟩, -, second⟩
    exact ⟨args, first, second⟩
  · rintro ⟨args, first, second⟩
    exact ⟨⟨args, first⟩, args, second⟩

/-- A function's own sequence needs exactly the names of `CallDeclared`. -/
theorem callSequence_scoped (bk : Nat) (pt : Int) (flag : Nat) (called : supported cpr bk = true) :
    Scoped declared (callSequence cpr bk (adjustPt cpr bk pt flag) (adjustFlag cpr bk flag) flag) ↔
      CallDeclared cpr declared bk pt flag := by
  have third : adjustFlag cpr bk flag = 3 ↔ flag = 3 := by
    unfold adjustFlag
    split <;> omega
  have note : Scoped declared [Stmt.line (.comment (.callBlk bk))] := by
    simp [scoped_line, lineNames]
  have flags := scoped_setFlags common bk (adjustPt cpr bk pt flag) (adjustFlag cpr bk flag)
  have last := scoped_adjustEvout common bk (adjustFlag cpr bk flag)
  simp only [supported, Bool.or_eq_true, decide_eq_true_eq] at called
  rw [callDeclared_iff]
  -- One case for each function type; the parts of its sequence have been described above.
  rcases called with (((kind | kind) | kind) | kind) | kind <;>
    simp [callSequence, kind, scoped_initEvout common, third, flags, last, scoped_type0Ports common,
      scoped_updateG common, scoped_adjustBefore common, scoped_adjustAfter common, scoped_line,
      lineNames, argumentNames, calleeOf, common.blockArray, common.localFlag, common.t] <;>
    grind

omit common in
/-- A text that calls nothing has no names. -/
theorem unsupported_scoped (bk : Nat) (pt : Int) (flag flagi : Nat)
    (unsupported : supported cpr bk = false) :
    Scoped declared (callSequence cpr bk pt flag flagi) := by
  obtain note | none := callSequence_unsupported cpr bk pt flag flagi unsupported
  · rw [note]
    simp [scoped_line, lineNames]
  · rw [none]
    simp

/-- What a calling sequence needs: nothing if it returns at once or calls nothing. -/
theorem call_scoped (bk : Nat) (pt : Int) (flag : Nat) (noSensor : cpr.capt = [])
    (noActuator : cpr.actt = []) :
    Scoped declared (callBlock42 cpr bk pt flag) ↔
      (returnsAtOnce cpr bk pt flag = false → callable cpr bk = true →
        CallDeclared cpr declared bk pt flag) := by
  have sensor : isSensor cpr bk = false := by simp [isSensor, noSensor]
  have actuator : isActuator cpr bk = false := by simp [isActuator, noActuator]
  unfold callBlock42 callable
  by_cases early : returnsAtOnce cpr bk pt flag = true
  · simp [early]
  · by_cases never : neverCalled cpr bk = true
    · simp [early, never]
    · simp only [early, never, sensor, actuator, Bool.false_eq_true, if_false]
      by_cases called : supported cpr bk = true
      · simp [callSequence_scoped common bk pt flag called, called]
      · have unsupported : supported cpr bk = false := by simpa using called
        simp [unsupported_scoped bk _ _ _ unsupported, unsupported]

end Calls

end ScicosFlex.Codegen
