import ScicosFlex.Codegen.Reinitdoit

/-!
# The calls written in a text

A text writes down more calls than any one of its runs makes, since a run takes
one alternative of each synchronisation block. `writtenCalls` are all of them, in
the order of the text and with the flags and activation numbers set before them:
the calls made when the alternatives are run one after the other.

`piece_lists` gives them for one activation, so that the calls of two generators
can be compared along the schedule; `flatMap_eq_iff` does that for a list.
-/

namespace ScicosFlex.Codegen

open Compiled Library.AcyclicRecursion

section Sublists

variable {α β : Type}

/-- Lists of parts of which one leaves something out agree if all parts do. -/
theorem flatMap_eq_iff (items : List α) (less more : α → List β)
    (parts : ∀ item ∈ items, List.Sublist (less item) (more item)) :
    List.Sublist (items.flatMap less) (items.flatMap more) ∧
      (items.flatMap less = items.flatMap more ↔ ∀ item ∈ items, less item = more item) := by
  induction items with
  | nil => simp
  | cons item rest inductionHypothesis =>
    have here := parts item List.mem_cons_self
    obtain ⟨there, later⟩ := inductionHypothesis
      fun other member => parts other (List.mem_cons_of_mem _ member)
    rw [List.flatMap_cons, List.flatMap_cons, List.forall_mem_cons, ← later]
    refine ⟨here.append there, fun same => ?_, fun ⟨first, second⟩ => by rw [first, second]⟩
    -- Nothing is longer than its counterpart, so equal lengths divide equally.
    have lengths := congrArg List.length same
    rw [List.length_append, List.length_append] at lengths
    have first := here.length_le
    have second := there.length_le
    exact ⟨here.eq_of_length (by omega), there.eq_of_length (by omega)⟩

/-- The parts of the items that have one. -/
theorem flatMap_filterMap {γ : Type} (items : List α) (chosen : α → Option β)
    (parts : β → List γ) :
    (items.filterMap chosen).flatMap parts =
      items.flatMap fun item => (chosen item).elim [] parts := by
  induction items with
  | nil => rfl
  | cons item rest inductionHypothesis =>
    rw [List.flatMap_cons, ← inductionHypothesis, List.filterMap_cons]
    split
    · rename_i absent
      rw [absent]
      rfl
    · rename_i part present
      rw [present, List.flatMap_cons]
      rfl

end Sublists

section Unfolding

mutual

/-- A statement with its alternatives one after the other, untested. -/
def everyBranchStmt : Stmt → Text
  | .line line => [.line line]
  | .ifElse _ _ thenText elseText => everyBranch thenText ++ everyBranch elseText
  | .ifElseIf _ _ thenText _ elseText => everyBranch thenText ++ everyBranch elseText
  | .setI _ | .chooseI _ _ _ => []
  | .switchI _ labels body => labels.flatMap fun label => everyBranch (body label)
  | .guarded _ body => everyBranch body
termination_by structural stmt => stmt

/-- A text with all alternatives one after the other. -/
def everyBranch : List Stmt → Text
  | [] => []
  | stmt :: rest => everyBranchStmt stmt ++ everyBranch rest
termination_by structural text => text

end

@[simp] theorem everyBranch_append (left right : Text) :
    everyBranch (left ++ right) = everyBranch left ++ everyBranch right := by
  induction left with
  | nil => rfl
  | cons stmt rest inductionHypothesis =>
    rw [List.cons_append, everyBranch, inductionHypothesis, everyBranch, List.append_assoc]

@[simp] theorem everyBranch_flatMap {α : Type} (items : List α) (text : α → Text) :
    everyBranch (items.flatMap text) = items.flatMap fun item => everyBranch (text item) := by
  induction items with
  | nil => rfl
  | cons item rest inductionHypothesis =>
    rw [List.flatMap_cons, everyBranch_append, inductionHypothesis, List.flatMap_cons]

/-- A simple line. -/
def isLine : Stmt → Bool
  | .line _ => true
  | _ => false

/-- A text of simple lines has no alternatives. -/
theorem everyBranch_lines (text : Text) (lines : text.all isLine = true) :
    everyBranch text = text := by
  induction text with
  | nil => rfl
  | cons stmt rest inductionHypothesis =>
    obtain ⟨here, later⟩ : isLine stmt = true ∧ rest.all isLine = true := by
      simpa only [List.all_cons, Bool.and_eq_true] using lines
    cases stmt with
    | line line => rw [everyBranch, inductionHypothesis later]; rfl
    | _ => cases here

/-- Quiet lines are lines. -/
theorem lines_of_quiet (text : Text) (quiet : text.all quietLine = true) :
    text.all isLine = true := by
  rw [List.all_eq_true] at quiet ⊢
  intro stmt member
  have here := quiet stmt member
  cases stmt with
  | line line => rfl
  | _ => cases here

variable (cpr : Compiled)

/-- The sequence of a computational function has no alternatives. -/
theorem callSequence_lines (bk : Nat) (pt : Int) (flag flagi : Nat) :
    (callSequence cpr bk pt flag flagi).all isLine = true := by
  have evout := lines_of_quiet _ (quiet_initEvout bk flag)
  have ports := lines_of_quiet _ (quiet_type0Ports cpr bk)
  have update := lines_of_quiet _ (quiet_updateG cpr bk pt)
  have before := lines_of_quiet _ (quiet_adjustBefore cpr bk flag)
  have after := lines_of_quiet _ (quiet_adjustAfter cpr bk flag flagi)
  have output := lines_of_quiet _ (quiet_adjustEvout bk flag)
  unfold callSequence
  simp only
  split_ifs <;> simp [evout, ports, update, before, after, output, setFlags, isLine]

/-- The sequence of an actuator has no alternatives. -/
theorem actuatorSequence_lines (bk : Nat) (pt : Int) (flag : Nat) :
    (actuatorSequence cpr bk pt flag).all isLine = true := by
  have evout := lines_of_quiet _ (quiet_initEvout bk flag)
  have ports (callee : Callee) (ports : List (Nat × Nat)) (txt : Text)
      (lines : txt.all isLine = true) :
      (ports.foldl (fun txt port => initEvout bk flag ++ txt ++ setFlags bk pt flag ++
        [.line (.setNport port.1), .line (.call bk callee (.port port.2))]) txt).all isLine =
        true := by
    induction ports generalizing txt with
    | nil => exact lines
    | cons port rest inductionHypothesis =>
      rw [List.foldl_cons]
      apply inductionHypothesis
      simp [evout, lines, setFlags, isLine]
  exact ports _ _ _ rfl

/-- No calling sequence has alternatives. -/
theorem call_lines (bk : Nat) (pt : Int) (flag : Nat) :
    (callBlock42 cpr bk pt flag).all isLine = true := by
  have evout := lines_of_quiet _ (quiet_initEvout bk (adjustFlag cpr bk flag))
  unfold callBlock42
  split_ifs
  · rfl
  · rfl
  · simp [sensorSequence, evout, setFlags, isLine]
  · exact actuatorSequence_lines cpr bk _ _
  · exact callSequence_lines cpr bk _ _ flag

end Unfolding

section Written

variable (cpr : Compiled)

/-- The start of the initialization. -/
def initMem : Mem Unit where
  world := ()
  phase := 1
  localFlag := 0
  nevprt _ := 0
  i := 0
  trace := []

/-- All calls written in a text. -/
def writtenCalls (text : Text) : List Invocation :=
  callsOf (exec cpr (steer 1) (everyBranch text) initMem).trace

/-- A text sets flag and activation number for each of its calls itself, so these
are the same wherever it stands. -/
def Lists (text : Text) (calls : List Invocation) : Prop :=
  ∀ mem : Mem Unit, mem.phase = 1 →
    callsOf (exec cpr (steer 1) (everyBranch text) mem).trace = callsOf mem.trace ++ calls

variable {cpr}

theorem Lists.written {text : Text} {calls : List Invocation} (lists : Lists cpr text calls) :
    writtenCalls cpr text = calls := lists initMem rfl

/-- A text that lists some calls lists the written ones. -/
theorem Lists.stable {text : Text} {calls : List Invocation} (lists : Lists cpr text calls) :
    Lists cpr text (writtenCalls cpr text) := by
  rw [lists.written]
  exact lists

theorem lists_nil : Lists cpr [] [] := fun _ _ => (List.append_nil _).symm

/-- A text behind another. -/
theorem Lists.append {left right : Text} {first second : List Invocation}
    (here : Lists cpr left first) (there : Lists cpr right second) :
    Lists cpr (left ++ right) (first ++ second) := by
  intro mem phase
  have after := (exec_phase cpr (steer 1) (everyBranch left) mem).1
  rw [everyBranch_append, exec_append, there _ (after.trans phase), here mem phase,
    List.append_assoc]

/-- The texts of a list. -/
theorem lists_flatMap {α : Type} (items : List α) (text : α → Text)
    (calls : α → List Invocation) (each : ∀ item ∈ items, Lists cpr (text item) (calls item)) :
    Lists cpr (items.flatMap text) (items.flatMap calls) := by
  induction items with
  | nil => exact lists_nil
  | cons item rest inductionHypothesis =>
    rw [List.flatMap_cons, List.flatMap_cons]
    exact (each item List.mem_cons_self).append
      (inductionHypothesis fun other member => each other (List.mem_cons_of_mem _ member))

/-- A calling sequence lists its calls. -/
theorem call_lists (bk : Nat) (pt : Int) (flag : Nat) :
    Lists cpr (placed (callBlock42 cpr bk pt flag))
      (List.replicate (callCount cpr bk pt flag)
        { bk := bk, localFlag := adjustFlag cpr bk flag, nevprt := adjustPt cpr bk pt flag,
          phase := 1 }) := by
  have lines : (placed (callBlock42 cpr bk pt flag)).all isLine = true := by
    unfold placed
    split
    · rfl
    · rw [List.all_append, call_lines]
      rfl
  intro mem phase
  have repeated (invocation : Invocation) (times : Nat) (run : Unit × List Invocation) :
      ((interpretCall (steer 1) invocation)^[times] run).2 =
        run.2 ++ List.replicate times invocation := by
    induction times with
    | zero => simp
    | succ times inductionHypothesis =>
      rw [Function.iterate_succ_apply', interpretCall, inductionHypothesis, List.append_assoc,
        List.replicate_succ']
  have runs := congrArg Prod.snd (call_runs cpr (steer 1) bk pt flag mem).1
  rw [everyBranch_lines _ lines, exec_placed]
  simp only [blockCalls, repeated, project, phase] at runs
  exact runs

/-- One activation lists the calls of its alternatives in order. -/
def pieceCalls (cpr : Compiled) (ordinary : Activation → List Invocation)
    (branch emit : Nat → List Invocation) (activation : Activation) : List Invocation :=
  if cpr.Ordinary activation.1 then ordinary activation
  else if cpr.funtyp activation.1 = -1 then
    (cpr.outputEvents activation.1).flatMap branch
  else (cpr.outputEvents activation.1).flatMap emit

/-- Two texts with the same alternatives list the same calls, behind a comment too. -/
theorem lists_congr {left right : Text} {calls : List Invocation} (note : Note)
    (same : everyBranch left = everyBranch right) (lists : Lists cpr right calls) :
    Lists cpr (.line (.comment note) :: left) calls := by
  intro mem phase
  rw [everyBranch, everyBranchStmt, same]
  exact lists mem phase

/-- The cases that are not written are empty. -/
theorem labels_flatMap (texts : List Text) :
    (labels texts).flatMap (caseText texts) = texts.flatten := by
  have entries : texts = (List.range texts.length).map fun k => texts.getD k [] := by
    apply List.ext_getElem
    · simp
    · intro k inside _
      simp [inside]
  have each (k : Nat) : ((if (texts.getD k []).isEmpty then none else some (k + 1)).elim []
      (caseText texts)) = texts.getD k [] := by
    split
    · rename_i empty
      rw [List.isEmpty_iff.mp empty]
      rfl
    · rfl
  conv_rhs => rw [entries]
  rw [labels, flatMap_filterMap]
  simp only [each]
  rfl

/-- The head lines of an event-select block list the calls of all its cases. -/
theorem select_lists (emission : Emission) (head : emission.eventSelect = switchLink cpr) (bk : Nat)
    (emit : Nat → Text) (calls : Nat → List Invocation)
    (each : ∀ ev ∈ cpr.outputEvents bk, Lists cpr (emit ev) (calls ev)) :
    Lists cpr (selectPiece emission bk ((cpr.outputEvents bk).map emit)
      ((cpr.outputEvents bk).map emit)) ((cpr.outputEvents bk).flatMap calls) := by
  have bodies := lists_flatMap (cpr.outputEvents bk) emit calls each
  rw [List.flatMap, ← labels_flatMap] at bodies
  unfold selectPiece
  split
  · rename_i silent
    rw [List.isEmpty_iff.mp silent] at bodies
    exact bodies
  · refine lists_congr _ ?_ bodies
    simp [head, switchLink, everyBranch, everyBranchStmt]

/-- The head lines of an if-then-else block list the calls of both alternatives. -/
theorem if_lists (emission : Emission) (head : emission.ifThenElse = ifPositive cpr) (bk : Nat)
    (thentxt elsetxt : Text) (first second : List Invocation)
    (thenLists : Lists cpr thentxt first) (elseLists : Lists cpr elsetxt second) :
    Lists cpr (ifPiece emission bk thentxt elsetxt) (first ++ second) := by
  have bodies := thenLists.append elseLists
  unfold ifPiece
  split
  · rename_i silent
    obtain ⟨rfl, rfl⟩ : thentxt = [] ∧ elsetxt = [] := by simpa using silent
    exact bodies
  · refine lists_congr _ ?_ bodies
    simp [head, ifPositive, everyBranch, everyBranchStmt]

/-- One activation lists the calls of its alternatives in order. -/
theorem piece_lists (emission : Emission) (ifHead : emission.ifThenElse = ifPositive cpr)
    (selectHead : emission.eventSelect = switchLink cpr) (branch emit : Nat → Text)
    (ordinary : Activation → List Invocation) (branchCalls emitCalls : Nat → List Invocation)
    (activation : Activation) (known : Known cpr activation)
    (calls : Lists cpr (emission.ordinary activation) (ordinary activation))
    (below : ¬ cpr.Ordinary activation.1 → ∀ ev ∈ cpr.outputEvents activation.1,
      Lists cpr (branch ev) (branchCalls ev) ∧ Lists cpr (emit ev) (emitCalls ev)) :
    Lists cpr (pieceText cpr emission branch emit emit activation)
      (pieceCalls cpr ordinary branchCalls emitCalls activation) := by
  rcases known with isOrdinary | synchro
  · simpa only [pieceText, pieceCalls, isOrdinary, if_true] using calls
  · have other := synchro.not_ordinary
    rcases synchro.kind with ⟨kind, two⟩ | ⟨kind, some⟩
    · have outputs := if_outputEvents two
      have both := if_lists emission ifHead activation.1 _ _ _ _
        (below other (cpr.clkptr activation.1) (by simp [outputs])).1
        (below other (cpr.clkptr activation.1 + 1) (by simp [outputs])).1
      simpa [pieceText, pieceCalls, other, kind, outputs] using both
    · have cases := select_lists emission selectHead activation.1 emit emitCalls
        fun ev output => (below other ev output).2
      have notIf : ¬ (-2 : Int) = -1 := by omega
      simpa only [pieceText, pieceCalls, other, kind, notIf, if_false] using cases

/-- A list of activations. -/
theorem walk_lists (emission : Emission) (ifHead : emission.ifThenElse = ifPositive cpr)
    (selectHead : emission.eventSelect = switchLink cpr) (branch emit : Nat → Text)
    (ordinary : Activation → List Invocation) (start : List Activation)
    (known : ∀ activation ∈ start, Known cpr activation)
    (calls : ∀ activation, Lists cpr (emission.ordinary activation) (ordinary activation))
    (below : ∀ activation ∈ start, ¬ cpr.Ordinary activation.1 →
      ∀ ev ∈ cpr.outputEvents activation.1,
        Lists cpr (branch ev) (writtenCalls cpr (branch ev)) ∧
          Lists cpr (emit ev) (writtenCalls cpr (emit ev))) :
    Lists cpr (start.flatMap (pieceText cpr emission branch emit emit))
      (start.flatMap (pieceCalls cpr ordinary (fun ev => writtenCalls cpr (branch ev))
        fun ev => writtenCalls cpr (emit ev))) := by
  apply lists_flatMap
  intro activation member
  exact piece_lists emission ifHead selectHead branch emit ordinary _ _ activation
    (known activation member) (calls activation) (below activation member)

end Written

end ScicosFlex.Codegen
