import ScicosFlex.Codegen.DerivativeScopes
import ScicosFlex.Codegen.WrittenCalls

/-!
# Event-select blocks at the start of the implicit solver

The cases of an event-select block in the code of `write_code_reinitdoit` and
`write_code_initdoit`, compared with what `write_code_initdoit` emits for the same
events, which is what the alternatives of an if-then-else block get. A block in
`oord` has these texts as its cases but asks `write_code_ozdoit` which of them to
write; further down the cases come from `write_code_doit`, which leaves out the
blocks that are only activated continuously if the flag is not 1.

A case is read back from the text of its block (`emittedCase`), and the blocks are
those of the pieces that the generators put together, so that a statement about all of
them is one about the generated text. `initial_selects_iff` says for which schedules
all cases are those an if-then-else block would have.
-/

namespace ScicosFlex.Codegen

open Compiled Library.AcyclicRecursion Library.Sequences

section Code

variable (cpr : Compiled)

/-- The generators whose code is compared. -/
inductive Generator where
  | reinitdoit | initdoit | doit
deriving DecidableEq, Repr

namespace Generator

/-- The generator that is called for the output events of a block. -/
def below (generator : Generator) (bk : Nat) : Generator :=
  match generator with
  | .reinitdoit => .initdoit
  | .initdoit => if cpr.funtyp bk = -1 then .initdoit else .doit
  | .doit => .doit

/-- The pieces a generator writes. Only `write_code_reinitdoit` is called without an event. -/
def pieces (fuel flag : Nat) (generator : Generator) (ev : Nat) : Option (List InitialPiece) :=
  match generator with
  | .reinitdoit => reinitdoitPieces cpr fuel flag .unset cpr.oord
  | .initdoit => initdoitPieces cpr fuel flag ev
  | .doit => doitPieces cpr fuel flag ev

end Generator

/-- The pieces of some code: those it starts with, and below a synchronisation block
those of its output events, each with the generator that writes it. -/
inductive WrittenPiece (fuel flag : Nat) (first : Generator) (start : List InitialPiece) :
    Generator → InitialPiece → Prop
  | here (piece : InitialPiece) (member : piece ∈ start) : WrittenPiece fuel flag first start first piece
  | inner (generator : Generator) (outer : InitialPiece)
      (reached : WrittenPiece fuel flag first start generator outer)
      (synchro : ¬ cpr.Ordinary outer.activation.1) (ev : Nat)
      (output : ev ∈ cpr.outputEvents outer.activation.1) (later : List InitialPiece)
      (generated : (generator.below cpr outer.activation.1).pieces cpr fuel flag ev = some later)
      (piece : InitialPiece) (member : piece ∈ later) :
      WrittenPiece fuel flag first start (generator.below cpr outer.activation.1) piece

/-- The body that the switch of a block holds for a label, if it has this case. -/
def emittedCase (bk label : Nat) : Text → Option Text
  | [] => none
  | .switchI other labels body :: rest =>
    if other = bk ∧ label ∈ labels then some (body label) else emittedCase bk label rest
  | _ :: rest => emittedCase bk label rest

/-- Two texts with the same calls, as they are written and in every run. -/
structure SameCalls (body expected : Text) : Prop where
  written : writtenCalls cpr body = writtenCalls cpr expected
  made : ∀ {W : Type} (machine : Machine W) (mem : Mem W),
    callsOf (exec cpr machine body mem).trace = callsOf (exec cpr machine expected mem).trace

/-- An event-select block is treated like an if-then-else block: the body for each
output event has the calls that `write_code_initdoit` emits for the event, and the text
of the block has a case with this body exactly if the body is not empty. -/
def LikeIfThenElse (fuel flag : Nat) (piece : InitialPiece) : Prop :=
  ∀ ev ∈ cpr.outputEvents piece.activation.1, ∃ expected,
    writeCodeInitdoit cpr fuel ev flag = some expected ∧
    let label := ev - cpr.clkptr piece.activation.1 + 1
    let body := caseText piece.alternatives label
    SameCalls cpr body expected ∧
      emittedCase piece.activation.1 label piece.text = if body = [] then none else some body

/-- All event-select blocks of some code are treated like if-then-else blocks. -/
def SelectsAlike (fuel flag : Nat) (first : Generator) (start : List InitialPiece) : Prop :=
  ∀ generator piece, WrittenPiece cpr fuel flag first start generator piece →
    cpr.funtyp piece.activation.1 = -2 → LikeIfThenElse cpr fuel flag piece

end Code

section Condition

variable (cpr : Compiled) (flag : Nat)

/-- `write_code_doit` does not skip the block. With other flags than 1 it skips all
blocks that are activated with number 0, sensors and actuators apart. -/
def Unskipped (activation : Activation) : Prop :=
  flag = 1 ∨ 0 < activation.2 ∨ activation.1 ∈ cpr.act ∨ activation.1 ∈ cpr.cap

instance (activation : Activation) : Decidable (Unskipped cpr flag activation) :=
  inferInstanceAs (Decidable (_ ∨ _))

/-- The block has a calling sequence for the flag. Blocks without one are passed over by
all generators alike. -/
def Sequenced (activation : Activation) : Prop :=
  returnsAtOnce cpr activation.1 activation.2 flag = false ∧ neverCalled cpr activation.1 = false ∧
    (isSensor cpr activation.1 = true ∨ isActuator cpr activation.1 = true ∨
      supported cpr activation.1 = true ∨ functionType cpr activation.1 = 3)

/-- `write_code_ozdoit` writes a line for the block, if only the one that calls a sensor
or an actuator. -/
def Asked (activation : Activation) : Prop :=
  flag = 1 ∧ (activation.1 ∈ cpr.act ∨ activation.1 ∈ cpr.cap) ∨ Sequenced cpr flag activation

/-- Some block below an event has a calling sequence that is not skipped: below
if-then-else blocks nothing is skipped. -/
def Begun (ev : Nat) : Prop :=
  ∃ inner, Reaches cpr (IfThenElse cpr) (cpr.activations ev) inner ∧
    (cpr.Ordinary inner.1 ∧ Sequenced cpr flag inner ∨
      cpr.funtyp inner.1 = -2 ∧ HasCode cpr
        (fun activation => Sequenced cpr flag activation ∧ Unskipped cpr flag activation) inner)

/-- If the block has calls they are not skipped, so the text with the filter has the
calls of the text without it. -/
def NothingLost (activation : Activation) : Prop :=
  cpr.Ordinary activation.1 →
    Unskipped cpr flag activation ∨ callCount cpr activation.1 activation.2 flag = 0

/-- What makes an event-select block like an if-then-else block. In `oord`, an
event with a line of `write_code_ozdoit` has a calling sequence below it that is
not skipped. Elsewhere, no block with calls is skipped in any case. -/
def SelectCondition : Generator → Nat → Prop
  | .reinitdoit, bk => ∀ ev ∈ cpr.outputEvents bk,
    (∃ activation ∈ cpr.activations ev, HasCode cpr (Asked cpr flag) activation) →
      Begun cpr flag ev
  | .initdoit, bk | .doit, bk => ∀ ev ∈ cpr.outputEvents bk, ∀ inner,
    Reaches cpr (IfThenElse cpr) (cpr.activations ev) inner → NothingLost cpr flag inner

/-- The activations that some code is generated for, each with the generator that does
it: those of the list the code starts with, and those of the output events of
synchronisation blocks. -/
inductive Place (first : Generator) (start : List Activation) : Generator → Activation → Prop
  | here (activation : Activation) (member : activation ∈ start) :
    Place first start first activation
  | inner (generator : Generator) (outer : Activation) (place : Place first start generator outer)
      (synchro : ¬ cpr.Ordinary outer.1) (ev : Nat) (output : ev ∈ cpr.outputEvents outer.1)
      (activation : Activation) (member : activation ∈ cpr.activations ev) :
      Place first start (generator.below cpr outer.1) activation

/-- The condition at all event-select blocks of some code. Each is asked for in the
generator that comes to it, which may be another one than the code starts with. -/
def SelectsFine (first : Generator) (start : List Activation) : Prop :=
  ∀ generator activation, Place cpr first start generator activation →
    cpr.funtyp activation.1 = -2 → SelectCondition cpr flag generator activation.1

end Condition

section Emptiness

variable {cpr : Compiled}

/-- When a calling sequence has a text. Of the function types that are not supported
only 3 has one, and that makes no call. -/
theorem sequence_written (flag : Nat) (activation : Activation) :
    callBlock42 cpr activation.1 activation.2 flag ≠ [] ↔ Sequenced cpr flag activation := by
  have sensor (pt : Int) (flag : Nat) : sensorSequence cpr activation.1 pt flag ≠ [] := by
    simp [sensorSequence]
  have actuator (pt : Int) (flag : Nat) : actuatorSequence cpr activation.1 pt flag ≠ [] := by
    have grows (callee : Callee) (ports : List (Nat × Nat)) (txt : Text) (written : txt ≠ []) :
        ports.foldl (fun txt port => initEvout activation.1 flag ++ txt ++
          setFlags activation.1 pt flag ++
          [.line (.setNport port.1), .line (.call activation.1 callee (.port port.2))]) txt ≠ [] := by
      induction ports generalizing txt with
      | nil => exact written
      | cons port rest inductionHypothesis =>
        rw [List.foldl_cons]
        apply inductionHypothesis
        simp
    exact grows _ _ _ (List.cons_ne_nil _ _)
  have function (pt : Int) (flag flagi : Nat) : callSequence cpr activation.1 pt flag flagi ≠ [] ↔
      supported cpr activation.1 = true ∨ functionType cpr activation.1 = 3 := by
    simp only [callSequence, supported]
    split_ifs with zero one two four implicit three <;> simp [*]
  unfold callBlock42 Sequenced
  split_ifs with early never isSensor isActuator
  · simp [early]
  · simp [never]
  · simp [early, never, isSensor, sensor]
  · simp [early, never, isActuator, actuator]
  · simp [early, never, isSensor, isActuator, function]

/-- What `write_code_initdoit` emits for an ordinary block. -/
theorem cdoit_emitted (flag : Nat) (activation : Activation) :
    Emitted (cdoitEmission cpr flag) activation ↔ Sequenced cpr flag activation := by
  have placed : Emitted (cdoitEmission cpr flag) activation ↔
      callBlock42 cpr activation.1 activation.2 flag ≠ [] := by
    simp [Emitted, cdoitEmission, Codegen.placed]
  rw [placed, sequence_written]

/-- What `write_code_doit` emits for an ordinary block. -/
theorem doit_ordinary_text (flag : Nat) (starts : flag = 1 ∨ flag = 7) (activation : Activation) :
    (doitEmission cpr flag).ordinary activation =
      if Unskipped cpr flag activation then (cdoitEmission cpr flag).ordinary activation else [] := by
  have notState : ¬ flag = 2 := by omega
  obtain ⟨bk, pt⟩ := activation
  by_cases table : bk ∈ cpr.act ∨ bk ∈ cpr.cap
  · have kept : Unskipped cpr flag (bk, pt) := Or.inr (Or.inr table)
    rw [if_pos kept]
    simp only [doitEmission, cdoitEmission, table, if_true]
  · by_cases output : flag = 1 ∨ 0 < pt
    · have kept : Unskipped cpr flag (bk, pt) := by
        unfold Unskipped
        tauto
      rw [if_pos kept]
      simp only [doitEmission, cdoitEmission, table, output, if_true, if_false]
    · have skipped : ¬ Unskipped cpr flag (bk, pt) := by
        unfold Unskipped
        tauto
      rw [if_neg skipped]
      simp only [doitEmission, table, output, notState, false_and, if_false]

/-- What `write_code_doit` emits for an ordinary block, as a condition. -/
theorem doit_emitted (flag : Nat) (starts : flag = 1 ∨ flag = 7) (activation : Activation) :
    Emitted (doitEmission cpr flag) activation ↔
      Sequenced cpr flag activation ∧ Unskipped cpr flag activation := by
  rw [Emitted, doit_ordinary_text flag starts, ← cdoit_emitted, Emitted]
  split
  · rename_i kept
    simp [kept]
  · rename_i skipped
    simp [skipped]

/-- What `write_code_ozdoit` emits for an ordinary block. -/
theorem ozdoit_emitted (flag : Nat) (activation : Activation) :
    (ozdoitHeads cpr flag).ordinary activation ≠ [] ↔ Asked cpr flag activation := by
  have sequence : Emitted (cdoitEmission cpr flag) activation ↔ Sequenced cpr flag activation :=
    cdoit_emitted flag activation
  simp only [Emitted, cdoitEmission] at sequence
  by_cases table : (activation.1 ∈ cpr.act ∨ activation.1 ∈ cpr.cap) ∧ flag = 1
  · simp [ozdoitHeads, Asked, table]
  · have other : ¬ (flag = 1 ∧ (activation.1 ∈ cpr.act ∨ activation.1 ∈ cpr.cap)) :=
      fun both => table ⟨both.2, both.1⟩
    simp only [ozdoitHeads, Asked, table, other, if_false, false_or]
    exact sequence

/-- For the two flags, what has code of `write_code_initdoit` is what has a calling
sequence that is not skipped. -/
theorem begun_iff (flag : Nat) (starts : flag = 1 ∨ flag = 7) (ev : Nat) :
    Begun cpr flag ev ↔ InitialCode cpr flag (cpr.activations ev) := by
  have emits : Emitted (doitEmission cpr flag) = fun activation =>
      Sequenced cpr flag activation ∧ Unskipped cpr flag activation :=
    funext fun activation => propext (doit_emitted flag starts activation)
  unfold Begun InitialCode
  simp only [emits, cdoit_emitted]

/-- What `write_code_ozdoit` has a text for. -/
theorem asked_iff (flag : Nat) (activation : Activation) :
    HasCode cpr (Emits cpr flag) activation ↔ HasCode cpr (Asked cpr flag) activation := by
  have emits : Emits cpr flag = Asked cpr flag :=
    funext fun activation => propext (ozdoit_emitted flag activation)
  rw [emits]

/-- What is begun has been asked for. -/
theorem begun_asked (flag ev : Nat) (begun : Begun cpr flag ev) :
    ∃ activation ∈ cpr.activations ev, HasCode cpr (Asked cpr flag) activation := by
  obtain ⟨inner, reached, code⟩ := begun
  have asked : HasCode cpr (Asked cpr flag) inner := by
    rcases code with ⟨ordinary, sequenced⟩ | ⟨-, code⟩
    · exact .call inner ordinary (Or.inr sequenced)
    · exact code.mono fun activation emitted => Or.inr emitted.1
  clear code
  induction reached with
  | here activation member => exact ⟨activation, member, asked⟩
  | inner outer _ kind other output activation member inductionHypothesis =>
    exact inductionHypothesis
      (.inner outer (ifThenElse_not_ordinary kind) other output activation member asked)

end Emptiness

section Comparison

variable {cpr : Compiled}

/-- The calls of one calling sequence. -/
def sequenceCalls (cpr : Compiled) (flag : Nat) (activation : Activation) : List Invocation :=
  List.replicate (callCount cpr activation.1 activation.2 flag)
    { bk := activation.1, localFlag := adjustFlag cpr activation.1 flag
      nevprt := adjustPt cpr activation.1 activation.2 flag, phase := 1 }

/-- The calls of `write_code_doit` for an ordinary block. -/
def keptCalls (cpr : Compiled) (flag : Nat) (activation : Activation) : List Invocation :=
  if Unskipped cpr flag activation then sequenceCalls cpr flag activation else []

theorem cdoit_lists (flag : Nat) (activation : Activation) :
    Lists cpr ((cdoitEmission cpr flag).ordinary activation) (sequenceCalls cpr flag activation) :=
  call_lists activation.1 activation.2 flag

theorem doit_lists (flag : Nat) (starts : flag = 1 ∨ flag = 7) (activation : Activation) :
    Lists cpr ((doitEmission cpr flag).ordinary activation) (keptCalls cpr flag activation) := by
  rw [doit_ordinary_text flag starts, keptCalls]
  split
  · exact cdoit_lists flag activation
  · exact lists_nil

/-- A block that is skipped loses its calls, if it has any. -/
theorem kept_calls (flag : Nat) (activation : Activation) :
    List.Sublist (keptCalls cpr flag activation) (sequenceCalls cpr flag activation) ∧
      (keptCalls cpr flag activation = sequenceCalls cpr flag activation ↔
        Unskipped cpr flag activation ∨ callCount cpr activation.1 activation.2 flag = 0) := by
  unfold keptCalls
  split
  · rename_i kept
    exact ⟨List.Sublist.refl _, iff_of_true rfl (Or.inl kept)⟩
  · rename_i skipped
    refine ⟨List.nil_sublist _, ?_⟩
    rw [eq_comm, sequenceCalls, List.replicate_eq_nil_iff]
    exact (or_iff_right skipped).symm

/-- The calls `write_code_doit` writes for an event, level by level. -/
theorem doit_written_calls (wellFormed : WellFormed cpr) (flag : Nat)
    (starts : flag = 1 ∨ flag = 7) (t : Nat → Text) (solves : Solves cpr (doitEmission cpr flag) t)
    (ev : Nat) (inside : IsEvent cpr ev) :
    Lists cpr (t ev) (writtenCalls cpr (t ev)) ∧
      writtenCalls cpr (t ev) = (cpr.activations ev).flatMap (pieceCalls cpr (keptCalls cpr flag)
        (fun ev => writtenCalls cpr (t ev)) fun ev => writtenCalls cpr (t ev)) := by
  revert ev
  apply acyclic_induction wellFormed.graph
  intro ev inside below
  have level := walk_lists (doitEmission cpr flag) rfl rfl t t (keptCalls cpr flag)
    (cpr.activations ev) (wellFormed.known ev inside) (doit_lists flag starts)
    fun activation member synchro other output => by
      have edge : Activates cpr ev other := ⟨activation, member, synchro, output⟩
      have lists := (below other edge (wellFormed.graph.closed ev other inside edge)).1
      exact ⟨lists, lists⟩
  rw [← solves ev inside] at level
  exact ⟨level.stable, level.written⟩

/-- The calls `write_code_initdoit` writes for an event, level by level. -/
theorem initdoit_written_calls (wellFormed : WellFormed cpr) (flag : Nat)
    (starts : flag = 1 ∨ flag = 7) (s t : Nat → Text)
    (solves : Solves cpr (doitEmission cpr flag) t)
    (own : ∀ ev, IsEvent cpr ev →
      s ev = (cpr.activations ev).flatMap (pieceText cpr (cdoitEmission cpr flag) s t t))
    (ev : Nat) (inside : IsEvent cpr ev) :
    Lists cpr (s ev) (writtenCalls cpr (s ev)) ∧
      writtenCalls cpr (s ev) =
        (cpr.activations ev).flatMap (pieceCalls cpr (sequenceCalls cpr flag)
          (fun ev => writtenCalls cpr (s ev)) fun ev => writtenCalls cpr (t ev)) := by
  revert ev
  apply acyclic_induction wellFormed.graph
  intro ev inside below
  have level := walk_lists (cdoitEmission cpr flag) rfl rfl s t (sequenceCalls cpr flag)
    (cpr.activations ev) (wellFormed.known ev inside) (cdoit_lists flag)
    fun activation member synchro other output => by
      have edge : Activates cpr ev other := ⟨activation, member, synchro, output⟩
      have within := wellFormed.graph.closed ev other inside edge
      exact ⟨(below other edge within).1,
        (doit_written_calls wellFormed flag starts t solves other within).1⟩
  rw [← own ev inside] at level
  exact ⟨level.stable, level.written⟩

/-- One activation in the code of `write_code_doit` and in that of
`write_code_initdoit`. The first leaves calls out and changes no others, so its calls
are a sublist, and equal only if none is left out. -/
theorem part_calls (flag : Nat) (activation : Activation) (s t : Nat → Text)
    (below : ¬ cpr.Ordinary activation.1 → ∀ ev ∈ cpr.outputEvents activation.1,
      List.Sublist (writtenCalls cpr (t ev)) (writtenCalls cpr (s ev)) ∧
        (writtenCalls cpr (t ev) = writtenCalls cpr (s ev) ↔
          ∀ inner, Reaches cpr (IfThenElse cpr) (cpr.activations ev) inner →
            NothingLost cpr flag inner)) :
    let less := pieceCalls cpr (keptCalls cpr flag) (fun ev => writtenCalls cpr (t ev))
      (fun ev => writtenCalls cpr (t ev)) activation
    let more := pieceCalls cpr (sequenceCalls cpr flag) (fun ev => writtenCalls cpr (s ev))
      (fun ev => writtenCalls cpr (t ev)) activation
    List.Sublist less more ∧ (less = more ↔ NothingLost cpr flag activation ∧
      (IfThenElse cpr activation.1 → ∀ ev ∈ cpr.outputEvents activation.1,
        ∀ inner, Reaches cpr (IfThenElse cpr) (cpr.activations ev) inner →
          NothingLost cpr flag inner)) := by
  by_cases ordinary : cpr.Ordinary activation.1
  · have notIf : ¬ IfThenElse cpr activation.1 := fun kind =>
      ifThenElse_not_ordinary kind ordinary
    simpa only [pieceCalls, NothingLost, ordinary, if_true, true_imp_iff, notIf, false_imp_iff,
      and_true] using kept_calls flag activation
  · have nothing : NothingLost cpr flag activation := fun isOrdinary => absurd isOrdinary ordinary
    by_cases kind : IfThenElse cpr activation.1
    · have isIf : cpr.funtyp activation.1 = -1 := kind
      have both := flatMap_eq_iff (cpr.outputEvents activation.1)
        (fun ev => writtenCalls cpr (t ev)) (fun ev => writtenCalls cpr (s ev))
        fun ev output => (below ordinary ev output).1
      simp only [pieceCalls, ordinary, isIf, kind, nothing, if_true, if_false, true_and,
        true_imp_iff]
      exact ⟨both.1, both.2.trans (forall₂_congr fun ev output => (below ordinary ev output).2)⟩
    · have notIf : ¬ cpr.funtyp activation.1 = -1 := kind
      simp only [pieceCalls, ordinary, notIf, kind, nothing, if_false, false_imp_iff, and_self]
      exact ⟨List.Sublist.refl _, trivial⟩

/-- The code of `write_code_doit` for an event writes some of the calls of
`write_code_initdoit`, and all of them if no block with calls is skipped as far as
if-then-else blocks lead. -/
theorem skipped_calls (wellFormed : WellFormed cpr) (flag : Nat) (starts : flag = 1 ∨ flag = 7)
    (s t : Nat → Text) (solves : Solves cpr (doitEmission cpr flag) t)
    (own : ∀ ev, IsEvent cpr ev →
      s ev = (cpr.activations ev).flatMap (pieceText cpr (cdoitEmission cpr flag) s t t))
    (ev : Nat) (inside : IsEvent cpr ev) :
    List.Sublist (writtenCalls cpr (t ev)) (writtenCalls cpr (s ev)) ∧
      (writtenCalls cpr (t ev) = writtenCalls cpr (s ev) ↔
        ∀ inner, Reaches cpr (IfThenElse cpr) (cpr.activations ev) inner →
          NothingLost cpr flag inner) := by
  revert ev
  apply acyclic_induction wellFormed.graph
  intro ev inside below
  rw [(doit_written_calls wellFormed flag starts t solves ev inside).2,
    (initdoit_written_calls wellFormed flag starts s t solves own ev inside).2]
  have parts (activation : Activation) (member : activation ∈ cpr.activations ev) :=
    part_calls flag activation s t fun synchro other output =>
      below other ⟨activation, member, synchro, output⟩
        (wellFormed.graph.closed ev other inside ⟨activation, member, synchro, output⟩)
  obtain ⟨less, same⟩ := flatMap_eq_iff (cpr.activations ev) _ _
    fun activation member => (parts activation member).1
  refine ⟨less, same.trans ?_⟩
  rw [forall_reaches_iff]
  exact forall₂_congr fun activation member => (parts activation member).2

end Comparison

section Runs

variable {cpr : Compiled}

/-- A block that loses nothing is called as `write_code_doit` prescribes. -/
theorem cdoit_implements {W : Type} (machine : Machine W) (flag : Nat)
    (starts : flag = 1 ∨ flag = 7) (activation : Activation)
    (kept : Unskipped cpr flag activation ∨ callCount cpr activation.1 activation.2 flag = 0) :
    Implements cpr machine ((cdoitEmission cpr flag).ordinary activation)
      fun phase run => some (eventCalls cpr machine phase flag activation run) := by
  have prescribed := doit_ordinary cpr machine flag activation
  rw [doit_ordinary_text flag starts] at prescribed
  by_cases unskipped : Unskipped cpr flag activation
  · rwa [if_pos unskipped] at prescribed
  · -- Nothing is prescribed, and the calling sequence makes no call.
    have none := kept.resolve_left unskipped
    rw [if_neg unskipped] at prescribed
    intro mem
    obtain ⟨idle, -⟩ := prescribed mem
    obtain ⟨calls, phase⟩ := call_implements cpr machine activation.1 activation.2 flag mem
    simp only [blockCalls, none, Function.iterate_zero, id_eq] at calls
    exact ⟨idle.trans calls, phase⟩

/-- Where nothing is lost, the code of `write_code_initdoit` for an event runs like
that of `write_code_doit`. -/
theorem initdoit_implements (wellFormed : WellFormed cpr) (flag : Nat)
    (starts : flag = 1 ∨ flag = 7) (s t : Nat → Text)
    (solves : Solves cpr (doitEmission cpr flag) t)
    (own : ∀ ev, IsEvent cpr ev →
      s ev = (cpr.activations ev).flatMap (pieceText cpr (cdoitEmission cpr flag) s t t))
    {W : Type} (machine : Machine W) (ev : Nat) (inside : IsEvent cpr ev) :
    (∀ inner, Reaches cpr (IfThenElse cpr) (cpr.activations ev) inner →
      NothingLost cpr flag inner) →
    ∀ fuel, rank (Activates cpr) ev < fuel → Implements cpr machine (s ev)
      fun phase => interpret cpr machine phase flag fuel ev := by
  revert ev
  apply acyclic_induction wellFormed.graph
  intro ev inside below nothing fuel enough
  obtain ⟨less, rfl⟩ : ∃ less, fuel = less + 1 := ⟨fuel - 1, by omega⟩
  rw [own ev inside]
  refine flatMap_implements cpr machine (cpr.activations ev) _
    (fun activation phase run => interpretActivation cpr machine
      (eventCalls cpr machine phase flag) (interpret cpr machine phase flag less) run activation) ?_
  intro activation member
  obtain ⟨here, deeper⟩ := (forall_reaches_iff _ _ _).mp nothing activation member
  have lower (synchro : ¬ cpr.Ordinary activation.1) (other : Nat)
      (output : other ∈ cpr.outputEvents activation.1) : IsEvent cpr other ∧
        rank (Activates cpr) other < less ∧ Activates cpr ev other := by
    have edge : Activates cpr ev other := ⟨activation, member, synchro, output⟩
    have smaller := rank_lt wellFormed.graph ev other inside edge
    exact ⟨wellFormed.graph.closed ev other inside edge, by omega, edge⟩
  refine piece_implements cpr machine (cdoitEmission cpr flag) rfl rfl s t
    (fun phase => eventCalls cpr machine phase flag)
    (fun phase => interpret cpr machine phase flag less) activation
    (wellFormed.known ev inside activation member) (fun ordinary => ?_)
    (fun kind other output => ?_) (fun synchro other output => ?_)
  · exact cdoit_implements machine flag starts activation (here ordinary)
  · obtain ⟨within, depth, edge⟩ := lower (ifThenElse_not_ordinary kind) other output
    exact below other edge within (deeper kind other output) less depth
  · obtain ⟨within, depth, -⟩ := lower synchro other output
    exact doit_implements wellFormed flag t solves machine other within less depth

/-- The code of `write_code_doit` and of `write_code_initdoit` for an event has the
same calls exactly if nothing is lost. -/
theorem same_calls_iff (wellFormed : WellFormed cpr) (flag : Nat)
    (starts : flag = 1 ∨ flag = 7) (s t : Nat → Text)
    (solves : Solves cpr (doitEmission cpr flag) t)
    (own : ∀ ev, IsEvent cpr ev →
      s ev = (cpr.activations ev).flatMap (pieceText cpr (cdoitEmission cpr flag) s t t))
    (ev : Nat) (inside : IsEvent cpr ev) :
    SameCalls cpr (t ev) (s ev) ↔
      ∀ inner, Reaches cpr (IfThenElse cpr) (cpr.activations ev) inner →
        NothingLost cpr flag inner := by
  have written := (skipped_calls wellFormed flag starts s t solves own ev inside).2
  refine ⟨fun same => written.mp same.written, fun nothing => ⟨written.mpr nothing, ?_⟩⟩
  intro W machine mem
  have deep := Nat.lt_succ_self (rank (Activates cpr) ev)
  have first := (doit_implements wellFormed flag t solves machine ev inside _ deep mem).1
  have second := (initdoit_implements wellFormed flag starts s t solves own machine ev inside
    nothing _ deep mem).1
  exact congrArg Prod.snd (Option.some.inj (first.symm.trans second))

end Runs

section Main

variable {cpr : Compiled}

/-- The body for an output event is the text for it. -/
theorem case_body (texts : Nat → Text) (bk ev : Nat) (output : ev ∈ cpr.outputEvents bk) :
    caseText ((cpr.outputEvents bk).map texts) (ev - cpr.clkptr bk + 1) = texts ev := by
  obtain ⟨low, high⟩ := (mem_outputEvents bk ev).mp output
  have length : (cpr.outputEvents bk).length = cpr.clkptr (bk + 1) - cpr.clkptr bk := by
    simp [outputEvents, slice]
  rw [caseText_map texts bk (ev - cpr.clkptr bk + 1) (by omega) (by omega)]
  congr 1
  omega

/-- A case is written if the text asked for is not empty. -/
theorem case_written (tested : Nat → Text) (bk ev : Nat) (output : ev ∈ cpr.outputEvents bk) :
    ev - cpr.clkptr bk + 1 ∈ labels ((cpr.outputEvents bk).map tested) ↔ tested ev ≠ [] := by
  obtain ⟨low, high⟩ := (mem_outputEvents bk ev).mp output
  have length : (cpr.outputEvents bk).length = cpr.clkptr (bk + 1) - cpr.clkptr bk := by
    simp [outputEvents, slice]
  rw [mem_labels, case_body tested bk ev output, List.length_map]
  constructor
  · rintro ⟨-, -, written⟩
    exact written
  · exact fun written => ⟨by omega, by omega, written⟩

/-- One activation in the code of each generator, made of the texts of events. -/
def generatedPiece (cpr : Compiled) (flag : Nat) (s t u : Nat → Text) (generator : Generator)
    (activation : Activation) : InitialPiece :=
  let cases (texts : Nat → Text) : List Text :=
    if cpr.funtyp activation.1 = -2 then (cpr.outputEvents activation.1).map texts else []
  match generator with
  | .reinitdoit => startPiece cpr flag s u activation
  | .initdoit =>
    { activation, alternatives := cases t
      text := pieceText cpr (cdoitEmission cpr flag) s t t activation }
  | .doit =>
    { activation, alternatives := cases t
      text := pieceText cpr (doitEmission cpr flag) t t t activation }

/-- It belongs to the activation. -/
theorem generatedPiece_activation (flag : Nat) (s t u : Nat → Text) (generator : Generator)
    (activation : Activation) :
    (generatedPiece cpr flag s t u generator activation).activation = activation := by
  cases generator <;> rfl

variable {fuel flag : Nat} {s t u : Nat → Text}

/-- The pieces of `write_code_initdoit` and of `write_code_doit` for an event, and the
texts that they make up. -/
theorem event_pieces (wellFormed : WellFormed cpr) (texts : StartTexts cpr fuel flag s t u)
    (ev : Nat) (inside : IsEvent cpr ev) :
    (initdoitPieces cpr fuel flag ev =
        some ((cpr.activations ev).map (generatedPiece cpr flag s t u .initdoit)) ∧
      s ev = ((cpr.activations ev).map (generatedPiece cpr flag s t u .initdoit)).flatMap
        InitialPiece.text) ∧
    doitPieces cpr fuel flag ev =
        some ((cpr.activations ev).map (generatedPiece cpr flag s t u .doit)) ∧
      t ev = ((cpr.activations ev).map (generatedPiece cpr flag s t u .doit)).flatMap
        InitialPiece.text := by
  have events (activation : Activation) (member : activation ∈ cpr.activations ev)
      (synchro : ¬ cpr.Ordinary activation.1) (other : Nat)
      (output : other ∈ cpr.outputEvents activation.1) : IsEvent cpr other :=
    ((wellFormed.known ev inside activation member).resolve_left synchro).events other output
  have select (bk : Nat) (kind : cpr.funtyp bk = -2) : ¬ cpr.Ordinary bk := by
    unfold Ordinary
    omega
  have discrete (activation : Activation) (member : activation ∈ cpr.activations ev)
      (synchro : ¬ cpr.Ordinary activation.1) (other : Nat)
      (output : other ∈ cpr.outputEvents activation.1) :
      writeCodeDoit cpr fuel other flag = some (t other) :=
    texts.discrete other (events activation member synchro other output)
  refine ⟨⟨?_, ?_⟩, ?_, ?_⟩
  · refine mapM_some _ _ _ fun activation member => ?_
    refine initialPiece_text _ _ _ _ s t t activation (wellFormed.known ev inside activation member)
      (fun kind other output => ?_) (fun kind other output => ?_) (fun kind other output => ?_)
    · exact texts.initial other
        (events activation member (ifThenElse_not_ordinary kind) other output)
    · exact ⟨t other, discrete activation member (select _ kind) other output, rfl⟩
    · exact discrete activation member (select _ kind) other output
  · rw [texts.own ev inside, List.flatMap_map]
    rfl
  · refine mapM_some _ _ _ fun activation member => ?_
    refine initialPiece_text _ _ _ _ t t t activation (wellFormed.known ev inside activation member)
      (fun kind other output => ?_) (fun kind other output => ?_) (fun kind other output => ?_)
    · exact discrete activation member (ifThenElse_not_ordinary kind) other output
    · exact ⟨t other, discrete activation member (select _ kind) other output, rfl⟩
    · exact discrete activation member (select _ kind) other output
  · rw [texts.solves ev inside, List.flatMap_map]
    rfl

/-- The case an event-select block has for an output event. -/
theorem emittedCase_select (emission : Emission) (branch tested emitted : Nat → Text)
    (activation : Activation) (kind : cpr.funtyp activation.1 = -2)
    (shape : ∀ labels body label, emittedCase activation.1 label
      (emission.eventSelect activation.1 labels body) =
        if label ∈ labels then some (body label) else none) (ev : Nat)
    (output : ev ∈ cpr.outputEvents activation.1) :
    emittedCase activation.1 (ev - cpr.clkptr activation.1 + 1)
        (pieceText cpr emission branch tested emitted activation) =
      if tested ev = [] then none else some (emitted ev) := by
  have notIf : ¬ (-2 : Int) = -1 := by omega
  have other : ¬ cpr.Ordinary activation.1 := by unfold Ordinary; omega
  have written := case_written tested activation.1 ev output
  have body := case_body emitted activation.1 ev output
  simp only [pieceText, other, kind, notIf, if_false, selectPiece]
  by_cases empty : labels ((cpr.outputEvents activation.1).map tested) = []
  · rw [empty] at written
    rw [empty, List.isEmpty_nil, if_pos rfl, emittedCase,
      if_pos (Classical.byContradiction fun text => List.not_mem_nil (written.mpr text))]
  · rw [if_neg (by simpa using empty)]
    simp only [emittedCase, shape, written, body, ite_not]

/-- An event-select block when the texts of its cases are known. -/
theorem likeIfThenElse_iff (texts : StartTexts cpr fuel flag s t u) (piece : InitialPiece)
    (synchro : Synchro cpr piece.activation.1) (tested emitted : Nat → Text)
    (alternatives : piece.alternatives = (cpr.outputEvents piece.activation.1).map emitted)
    (cases : ∀ ev ∈ cpr.outputEvents piece.activation.1,
      emittedCase piece.activation.1 (ev - cpr.clkptr piece.activation.1 + 1) piece.text =
        if tested ev = [] then none else some (emitted ev)) :
    LikeIfThenElse cpr fuel flag piece ↔ ∀ ev ∈ cpr.outputEvents piece.activation.1,
      SameCalls cpr (emitted ev) (s ev) ∧ (tested ev ≠ [] ↔ emitted ev ≠ []) := by
  refine forall₂_congr fun ev output => ?_
  have body := case_body emitted piece.activation.1 ev output
  have initial := texts.initial ev (synchro.events ev output)
  have same : (if tested ev = [] then none else some (emitted ev)) =
      (if emitted ev = [] then none else some (emitted ev)) ↔
      (tested ev ≠ [] ↔ emitted ev ≠ []) := by
    by_cases first : tested ev = [] <;> by_cases second : emitted ev = [] <;>
      simp [first, second]
  simp only [initial, Option.some.injEq, exists_eq_left', alternatives, body, cases ev output, same]

/-- One event-select block is treated like an if-then-else block exactly under the
condition. Which texts its cases are tested with and made of depends on the generator
that comes to it. -/
theorem select_iff (wellFormed : WellFormed cpr) (starts : flag = 1 ∨ flag = 7)
    (texts : StartTexts cpr fuel flag s t u) (generator : Generator) (activation : Activation)
    (synchro : Synchro cpr activation.1) (kind : cpr.funtyp activation.1 = -2) :
    LikeIfThenElse cpr fuel flag (generatedPiece cpr flag s t u generator activation) ↔
      SelectCondition cpr flag generator activation.1 := by
  have same (ev : Nat) (output : ev ∈ cpr.outputEvents activation.1) := same_calls_iff wellFormed
    flag starts s t texts.solves texts.own ev (synchro.events ev output)
  have switch (bk : Nat) (labels : List Nat) (body : Nat → Text) (label : Nat) :
      emittedCase bk label (switchLink cpr bk labels body) =
        if label ∈ labels then some (body label) else none := by
    simp [switchLink, emittedCase]
  cases generator with
  | initdoit =>
    rw [likeIfThenElse_iff texts _ synchro t t (if_pos kind) fun ev output =>
      emittedCase_select (cdoitEmission cpr flag) s t t activation kind
        (fun labels body label => switch _ labels body label) ev output]
    simp only [iff_self, and_true]
    exact forall₂_congr same
  | doit =>
    rw [likeIfThenElse_iff texts _ synchro t t (if_pos kind) fun ev output =>
      emittedCase_select (doitEmission cpr flag) t t t activation kind
        (fun labels body label => switch _ labels body label) ev output]
    simp only [iff_self, and_true]
    exact forall₂_congr same
  | reinitdoit =>
    rw [likeIfThenElse_iff texts _ synchro u s (if_pos kind) fun ev output =>
      emittedCase_select (reinitdoitEmission cpr flag) s u s activation kind
        (fun labels body label => by simp [reinitdoitEmission, emittedCase]) ev output]
    refine forall₂_congr fun ev output => ?_
    have inside := synchro.events ev output
    have asked : u ev ≠ [] ↔
        ∃ other ∈ cpr.activations ev, HasCode cpr (Asked cpr flag) other := by
      rw [texts.asked_written ev inside]
      exact exists_congr fun other => and_congr_right fun _ => asked_iff flag other
    rw [asked, initdoit_begun wellFormed flag s t texts.solves texts.own ev inside,
      ← begun_iff flag starts ev]
    exact ⟨fun like => like.2.mp,
      fun condition => ⟨⟨rfl, fun _ _ => rfl⟩, condition, begun_asked flag ev⟩⟩

/-- The block of a place is a known one. -/
theorem place_known (wellFormed : WellFormed cpr) (first : Generator) (start : List Activation)
    (known : ∀ activation ∈ start, Known cpr activation) (generator : Generator)
    (activation : Activation) (place : Place cpr first start generator activation) :
    Known cpr activation := by
  induction place with
  | here activation member => exact known activation member
  | inner generator outer _ synchro ev output activation member inductionHypothesis =>
    have block := inductionHypothesis.resolve_left synchro
    exact wellFormed.known ev (block.events ev output) activation member

/-- The pieces of some code are those of its places, so a statement about all pieces
becomes one about the schedule. By induction on how a piece, or a place, is come to. -/
theorem writtenPiece_iff (wellFormed : WellFormed cpr) (texts : StartTexts cpr fuel flag s t u)
    (first : Generator) (start : List Activation)
    (known : ∀ activation ∈ start, Known cpr activation) (generator : Generator)
    (piece : InitialPiece) :
    WrittenPiece cpr fuel flag first (start.map (generatedPiece cpr flag s t u first)) generator
        piece ↔
      ∃ activation, Place cpr first start generator activation ∧
        piece = generatedPiece cpr flag s t u generator activation := by
  have below (generator : Generator) (outer : Activation)
      (place : Place cpr first start generator outer) (synchro : ¬ cpr.Ordinary outer.1) (ev : Nat)
      (output : ev ∈ cpr.outputEvents outer.1) :
      (generator.below cpr outer.1).pieces cpr fuel flag ev = some ((cpr.activations ev).map
        (generatedPiece cpr flag s t u (generator.below cpr outer.1))) := by
    have inside := ((place_known wellFormed first start known generator outer place).resolve_left
      synchro).events ev output
    obtain ⟨⟨initial, -⟩, discrete, -⟩ := event_pieces wellFormed texts ev inside
    cases generator with
    | reinitdoit => exact initial
    | initdoit =>
      by_cases kind : cpr.funtyp outer.1 = -1
      · simpa only [Generator.below, Generator.pieces, kind, if_true] using initial
      · simpa only [Generator.below, Generator.pieces, kind, if_false] using discrete
    | doit => exact discrete
  constructor
  · intro written
    induction written with
    | here piece member =>
      obtain ⟨activation, inside, rfl⟩ := List.mem_map.mp member
      exact ⟨activation, .here activation inside, rfl⟩
    | inner generator outer _ synchro ev output later generated piece member inductionHypothesis =>
      obtain ⟨activation, place, rfl⟩ := inductionHypothesis
      rw [generatedPiece_activation] at synchro output generated ⊢
      rw [below generator activation place synchro ev output] at generated
      obtain rfl := Option.some.inj generated
      obtain ⟨inner, inside, rfl⟩ := List.mem_map.mp member
      exact ⟨inner, .inner generator activation place synchro ev output inner inside, rfl⟩
  · rintro ⟨activation, place, rfl⟩
    induction place with
    | here activation member => exact .here _ (List.mem_map_of_mem member)
    | inner generator outer place synchro ev output activation member inductionHypothesis =>
      have own : (generatedPiece cpr flag s t u generator outer).activation = outer :=
        generatedPiece_activation flag s t u generator outer
      have step := WrittenPiece.inner generator _ inductionHypothesis (own.symm ▸ synchro) ev
        (own.symm ▸ output) _ (own.symm ▸ below generator outer place synchro ev output) _
        (List.mem_map_of_mem member)
      rwa [own] at step

/-- The code that starts with a list is treated alike exactly if the condition holds at
all its event-select blocks. -/
theorem code_iff (wellFormed : WellFormed cpr) (starts : flag = 1 ∨ flag = 7)
    (texts : StartTexts cpr fuel flag s t u) (first : Generator) (start : List Activation)
    (known : ∀ activation ∈ start, Known cpr activation) :
    SelectsAlike cpr fuel flag first (start.map (generatedPiece cpr flag s t u first)) ↔
      SelectsFine cpr flag first start := by
  have select (generator : Generator) (activation : Activation)
      (place : Place cpr first start generator activation)
      (kind : cpr.funtyp activation.1 = -2) :=
    select_iff wellFormed starts texts generator activation
      ((place_known wellFormed first start known generator activation place).resolve_left
        (by unfold Ordinary; omega)) kind
  constructor
  · intro alike generator activation place kind
    refine (select generator activation place kind).mp (alike generator _
      ((writtenPiece_iff wellFormed texts first start known generator _).mpr
        ⟨activation, place, rfl⟩) ?_)
    rwa [generatedPiece_activation]
  · intro fine generator piece written kind
    obtain ⟨activation, place, rfl⟩ :=
      (writtenPiece_iff wellFormed texts first start known generator piece).mp written
    rw [generatedPiece_activation] at kind
    exact (select generator activation place kind).mpr (fine generator activation place kind)

/-- The cases of event-select blocks in the code that starts the implicit solver, for
flags 1 and 7, are treated like the alternatives of if-then-else blocks exactly on
the schedules without the two defects: `write_code_doit` skips no block with calls,
and no case is asked for by a line of `write_code_ozdoit` alone. The text of
`write_code_reinitdoit` exists exactly if the generator does not stop, and it and the
texts for the events are made of the pieces that are spoken about. -/
theorem initial_selects_iff (cpr : Compiled) (wellFormed : WellFormed cpr) (flag : Nat)
    (starts : flag = 1 ∨ flag = 7) :
    ∃ bound, ∀ fuel, bound ≤ fuel →
      ((∃ text, writeCodeReinitdoit cpr fuel flag = some text) ↔ ¬ ReinitHalts cpr flag cpr.oord) ∧
      (∀ pieces, reinitdoitPieces cpr fuel flag .unset cpr.oord = some pieces →
        writeCodeReinitdoit cpr fuel flag = some (pieces.flatMap InitialPiece.text) ∧
        (SelectsAlike cpr fuel flag .reinitdoit pieces ↔
          SelectsFine cpr flag .reinitdoit cpr.oord)) ∧
      ∀ ev, IsEvent cpr ev →
        (∃ later, doitPieces cpr fuel flag ev = some later ∧
          writeCodeDoit cpr fuel ev flag = some (later.flatMap InitialPiece.text)) ∧
        ∃ pieces, initdoitPieces cpr fuel flag ev = some pieces ∧
          writeCodeInitdoit cpr fuel ev flag = some (pieces.flatMap InitialPiece.text) ∧
          (SelectsAlike cpr fuel flag .initdoit pieces ↔
            SelectsFine cpr flag .initdoit (cpr.activations ev)) := by
  refine ⟨{ev | IsEvent cpr ev}.ncard + 1, fun fuel deep => ?_⟩
  obtain ⟨s, t, u, texts⟩ := startTexts_exist wellFormed flag fuel deep
  refine ⟨reinitdoit_iff wellFormed flag fuel deep, fun pieces generated => ⟨?_, ?_⟩,
    fun ev inside => ?_⟩
  · simp only [writeCodeReinitdoit, generated, Option.bind_eq_bind, Option.bind_some]
  · rw [(texts.pieces_iff wellFormed cpr.oord wellFormed.knownOord .unset).2 pieces generated]
    exact code_iff wellFormed starts texts .reinitdoit cpr.oord wellFormed.knownOord
  · obtain ⟨⟨initial, own⟩, discrete, nested⟩ := event_pieces wellFormed texts ev inside
    refine ⟨⟨_, discrete, by rw [texts.discrete ev inside, nested]⟩, _, initial, ?_, ?_⟩
    · rw [texts.initial ev inside, own]
    · exact code_iff wellFormed starts texts .initdoit _ (wellFormed.known ev inside)

/-- An if-then-else block (3) in `oord` whose first alternative holds an event-select
block (2) with a choice of two events. The first of these activates an implicit
block with a state (4), continuously. -/
def nestedSample : Compiled :=
  { sample 0 with
    funtyp := fun bk => if bk = 2 then -2 else if bk = 3 then -1 else if bk = 4 then 10004 else 4
    funs := fun bk => if bk = 4 then "implicit_block" else "cstblk4"
    xptr := fun bk => if bk ≤ 4 then 1 else 2
    clkptr := fun bk => if bk ≤ 2 then 1 else if bk ≤ 3 then 3 else 5
    ordptr := fun ev => if ev ≤ 1 then 1 else if ev ≤ 3 then 2 else 3
    ordclk := fun row => if row = 1 then (4, 0) else (2, 1)
    nevent := 4
    cord := []
    iord := []
    oord := [(3, 0)]
    implBlk := true }

theorem nestedSample_ordinary (bk : Nat) : nestedSample.Ordinary bk ↔ bk ≠ 2 ∧ bk ≠ 3 := by
  simp only [Ordinary, nestedSample]
  split_ifs <;> simp_all

theorem nestedSample_known (activation : Activation) : Known nestedSample activation := by
  by_cases ordinary : nestedSample.Ordinary activation.1
  · exact Or.inl ordinary
  · obtain block | block : activation.1 = 2 ∨ activation.1 = 3 := by
      rw [nestedSample_ordinary] at ordinary
      omega
    all_goals
      refine Or.inr ⟨?_, fun ev output => ?_⟩
      · rw [block]
        decide
      · rw [block, mem_outputEvents] at output
        simp [nestedSample, IsEvent] at output ⊢
        omega

/-- The schedule is well formed. -/
theorem nestedSample_wellFormed : WellFormed nestedSample where
  known _ _ activation _ := nestedSample_known activation
  knownCord activation _ := nestedSample_known activation
  knownIord activation _ := nestedSample_known activation
  knownOord activation _ := nestedSample_known activation
  acyclic ev _ := by
    refine acyclic_of_measure (fun ev other => ?_) ev
    rintro ⟨activation, member, synchro, output⟩
    simp only [activations, nestedSample, List.mem_map, slice, List.mem_range'_1] at member
    obtain ⟨row, rows, rfl⟩ := member
    have few : row = 1 ∨ row = 2 ∧ ev = 3 := by
      split_ifs at rows <;> omega
    rcases few with rfl | ⟨rfl, rfl⟩
    · exact absurd ((nestedSample_ordinary 4).mpr (by decide)) synchro
    · rw [mem_outputEvents] at output
      simp [nestedSample] at output
      omega

/-- An instance: the code of this schedule for flag 7. -/
theorem nestedSample_selects : ∃ bound, ∀ fuel, bound ≤ fuel →
    ((∃ text, writeCodeReinitdoit nestedSample fuel 7 = some text) ↔
      ¬ ReinitHalts nestedSample 7 nestedSample.oord) ∧
    (∀ pieces, reinitdoitPieces nestedSample fuel 7 .unset nestedSample.oord = some pieces →
      writeCodeReinitdoit nestedSample fuel 7 = some (pieces.flatMap InitialPiece.text) ∧
      (SelectsAlike nestedSample fuel 7 .reinitdoit pieces ↔
        SelectsFine nestedSample 7 .reinitdoit nestedSample.oord)) ∧
    ∀ ev, IsEvent nestedSample ev →
      (∃ later, doitPieces nestedSample fuel 7 ev = some later ∧
        writeCodeDoit nestedSample fuel ev 7 = some (later.flatMap InitialPiece.text)) ∧
      ∃ pieces, initdoitPieces nestedSample fuel 7 ev = some pieces ∧
        writeCodeInitdoit nestedSample fuel ev 7 = some (pieces.flatMap InitialPiece.text) ∧
        (SelectsAlike nestedSample fuel 7 .initdoit pieces ↔
          SelectsFine nestedSample 7 .initdoit (nestedSample.activations ev)) :=
  initial_selects_iff nestedSample nestedSample_wellFormed 7 (Or.inr rfl)

/-- The implicit block is not called to start the solver: `write_code_doit` has no
text for the event, which `write_code_initdoit` would have called. -/
theorem implicit_block_skipped : WellFormed nestedSample ∧
    ∃ pieces, reinitdoitPieces nestedSample 5 7 .unset nestedSample.oord = some pieces ∧
      writeCodeReinitdoit nestedSample 5 7 = some (pieces.flatMap InitialPiece.text) ∧
      ¬ SelectsAlike nestedSample 5 7 .reinitdoit pieces := by
  refine ⟨nestedSample_wellFormed, _, rfl, rfl, fun alike => ?_⟩
  obtain ⟨expected, initial, same, -⟩ := alike .initdoit _ (.inner .reinitdoit _
    (.here _ List.mem_cons_self) (by decide) 3 (by decide) _ rfl _ List.mem_cons_self)
    (by decide) 1 (by decide)
  have called : ∃ text, writeCodeInitdoit nestedSample 5 1 7 = some text ∧
      writtenCalls nestedSample text = [{ bk := 4, localFlag := 7, nevprt := 0, phase := 1 }] :=
    ⟨_, rfl, by decide⟩
  obtain ⟨text, generated, calls⟩ := called
  have wanted : text = expected := Option.some.inj (generated.symm.trans initial)
  have silent := same.written
  rw [← wanted, calls] at silent
  exact absurd silent (by decide)

end Main

end ScicosFlex.Codegen
