import ScicosFlex.Codegen.Schedule

/-!
# The discrete code

`write_code_doit`, `write_code_cdoit` and `write_code_idoit` in standalone mode
without agenda: the text for the blocks activated by an event, by continuous time
and at initialization. The last two walk their own list and use `write_code_doit`
for the alternatives of synchronisation blocks.

`interpret` is what the schedule itself prescribes, without any text: block by
block, with a choice at every synchronisation block by the value its link has at
that moment. `discrete_code_runs` says that the emitted texts do the same.
-/

namespace ScicosFlex.Codegen

open Compiled Library.AcyclicRecursion

section Generators

variable (cpr : Compiled)

/-- `if(*outtb_<link> > 0) { .. } else { .. }`. -/
def ifPositive (bk : Nat) (thentxt elsetxt : Text) : Text :=
  [.ifElse bk (.positive (.outtb (cpr.testedLink bk))) thentxt elsetxt]

/-- `i=max(min((int) *outtb_<link>,nevout),1); switch(i) { .. }`. -/
def switchLink (bk : Nat) (labels : List Nat) (body : Nat → Text) : Text :=
  [.setI (.clamped (.outtb (cpr.testedLink bk)) bk), .switchI bk labels body]

/-- What `write_code_doit` emits: outside actuators and sensors, blocks that are
only activated continuously are called for flag 1, or with activation number 0
for flag 2 if they have a work array. -/
def doitEmission (flag : Nat) : Emission where
  ordinary activation :=
    let (bk, pt) := activation
    if bk ∈ cpr.act ∨ bk ∈ cpr.cap then placed (callBlock42 cpr bk pt flag)
    else if flag = 1 ∨ 0 < pt then placed (callBlock42 cpr bk pt flag)
    else if flag = 2 ∧ pt ≤ 0 ∧ cpr.withWork bk = 1 then placed (callBlock42 cpr bk 0 flag)
    else []
  ifThenElse := ifPositive cpr
  eventSelect := switchLink cpr

/-- One level of `write_code_doit`. -/
def doitStep (flag : Nat) (call : Nat → Option Text) (ev : Nat) : Option Text :=
  walk cpr (doitEmission cpr flag) call call call (cpr.activations ev)

/-- `write_code_doit(ev,flag)`. -/
def writeCodeDoit (fuel ev flag : Nat) : Option Text := fuelled (doitStep cpr flag) fuel ev

/-- What `write_code_cdoit` and `write_code_idoit` emit: every block is called. -/
def cdoitEmission (flag : Nat) : Emission where
  ordinary activation := placed (callBlock42 cpr activation.1 activation.2 flag)
  ifThenElse := ifPositive cpr
  eventSelect := switchLink cpr

/-- `write_code_cdoit(flag)`. -/
def writeCodeCdoit (fuel flag : Nat) : Option Text :=
  let nested := fun ev => writeCodeDoit cpr fuel ev flag
  walk cpr (cdoitEmission cpr flag) nested nested nested cpr.cord

/-- `write_code_idoit()`. -/
def writeCodeIdoit (fuel : Nat) : Option Text :=
  let nested := fun ev => writeCodeDoit cpr fuel ev 1
  walk cpr (cdoitEmission cpr 1) nested nested nested cpr.iord

end Generators

section Interpretation

variable {W : Type} (cpr : Compiled) (machine : Machine W)

/-- What direct interpretation carries along: the world and the calls so far. -/
abbrev Run (W : Type) := W × List Invocation

/-- The output event a synchronisation block activates: for an if-then-else block
by the sign of its link, for an event-select block by its value, truncated and
clamped to the number of output events. -/
def selectedEvent (bk : Nat) (world : W) : Nat :=
  let link := some (cpr.testedLink bk)
  if cpr.funtyp bk = -1 then
    if machine.positive world link then cpr.clkptr bk else cpr.clkptr bk + 1
  else
    let number := max (min (machine.toInt world link) (size cpr.clkptr bk)) 1
    cpr.clkptr bk + (number.toNat - 1)

/-- One activation: an ordinary block is called, a synchronisation block
activates the selected event. -/
def interpretActivation (ordinary : Activation → Run W → Run W)
    (nested : Nat → Run W → Option (Run W)) (run : Run W) (activation : Activation) :
    Option (Run W) :=
  if cpr.Ordinary activation.1 then some (ordinary activation run)
  else nested (selectedEvent cpr machine activation.1 run.1) run

/-- The calls prescribed for an ordinary block under an event. -/
def eventCalls (phase flag : Nat) (activation : Activation) (run : Run W) : Run W :=
  let (bk, pt) := activation
  if bk ∈ cpr.act ∨ bk ∈ cpr.cap then blockCalls cpr machine phase bk pt flag run
  else if flag = 1 ∨ 0 < pt then blockCalls cpr machine phase bk pt flag run
  else if flag = 2 ∧ pt ≤ 0 ∧ cpr.withWork bk = 1 then blockCalls cpr machine phase bk 0 2 run
  else run

/-- The calls prescribed for an ordinary block in `cord` and `iord`. -/
def listCalls (phase flag : Nat) (activation : Activation) (run : Run W) : Run W :=
  blockCalls cpr machine phase activation.1 activation.2 flag run

/-- One level of direct interpretation. -/
def interpretStep (phase flag : Nat) (call : Nat × Run W → Option (Run W))
    (start : Nat × Run W) : Option (Run W) :=
  (cpr.activations start.1).foldlM
    (interpretActivation cpr machine (eventCalls cpr machine phase flag)
      fun ev run => call (ev, run)) start.2

/-- Direct interpretation of an event: its activations in order. -/
def interpret (phase flag fuel ev : Nat) (run : Run W) : Option (Run W) :=
  fuelled (interpretStep cpr machine phase flag) fuel (ev, run)

/-- Direct interpretation of a list of activations such as `cord`. -/
def interpretList (phase flag fuel : Nat) (activations : List Activation) (run : Run W) :
    Option (Run W) :=
  activations.foldlM
    (interpretActivation cpr machine (listCalls cpr machine phase flag)
      (interpret cpr machine phase flag fuel)) run

/-- A text does what direct interpretation prescribes in the phase it runs in. Both
start in the same memory, of which interpretation only knows the world and the calls
made so far. -/
def Implements (text : Text) (prescribed : (phase : Nat) → Run W → Option (Run W)) : Prop :=
  ∀ mem : Mem W,
    prescribed mem.phase (project mem) = some (project (exec cpr machine text mem)) ∧
      (exec cpr machine text mem).phase = mem.phase

end Interpretation

section Correctness

variable {W : Type} (cpr : Compiled) (machine : Machine W)

/-- Entering an alternative calls nothing. -/
theorem project_enter (bk alternative : Nat) (body : Text) (mem : Mem W) :
    project (enter bk alternative body mem) = project mem ∧
      (enter bk alternative body mem).phase = mem.phase := by
  unfold enter
  split
  · exact ⟨rfl, rfl⟩
  · simp [project, callsOf]

/-- A placed calling sequence runs like the sequence itself. -/
theorem exec_placed (txt : Text) (mem : Mem W) :
    exec cpr machine (placed txt) mem = exec cpr machine txt mem := by
  unfold placed
  split
  · rename_i empty
    rw [List.isEmpty_iff.mp empty]
  · rw [exec_append]
    rfl

/-- A placed text implements the same. -/
theorem placed_implements (txt : Text) (prescribed : (phase : Nat) → Run W → Option (Run W))
    (runs : Implements cpr machine txt prescribed) :
    Implements cpr machine (placed txt) prescribed := by
  intro mem
  rw [exec_placed]
  exact runs mem

/-- The text of one calling sequence implements its calls. -/
theorem call_implements (bk : Nat) (pt : Int) (flag : Nat) :
    Implements cpr machine (placed (callBlock42 cpr bk pt flag))
      fun phase run => some (blockCalls cpr machine phase bk pt flag run) := by
  refine placed_implements cpr machine _ _ fun mem => ?_
  obtain ⟨calls, phase⟩ := call_runs cpr machine bk pt flag mem
  exact ⟨congrArg some calls.symm, phase⟩

/-- An empty text implements doing nothing. -/
theorem empty_implements : Implements cpr machine [] fun _ run => some run :=
  fun _ => ⟨rfl, rfl⟩

/-- A text behind another implements the one interpretation after the other. -/
theorem append_implements (left right : Text)
    (first second : (phase : Nat) → Run W → Option (Run W))
    (runs : Implements cpr machine left first) (later : Implements cpr machine right second) :
    Implements cpr machine (left ++ right) fun phase run =>
      (first phase run).bind (second phase) := by
  intro mem
  obtain ⟨here, phase⟩ := runs mem
  obtain ⟨there, after⟩ := later (exec cpr machine left mem)
  rw [phase] at there after
  rw [exec_append]
  refine ⟨?_, after⟩
  simp only [here, Option.bind_some, there]

/-- The texts of a list implement the interpretations of its items in order. -/
theorem flatMap_implements {α : Type} (items : List α) (text : α → Text)
    (prescribed : α → (phase : Nat) → Run W → Option (Run W))
    (each : ∀ item ∈ items, Implements cpr machine (text item) (prescribed item)) :
    Implements cpr machine (items.flatMap text) fun phase run =>
      items.foldlM (fun run item => prescribed item phase run) run := by
  induction items with
  | nil => exact empty_implements cpr machine
  | cons item rest inductionHypothesis =>
    rw [List.flatMap_cons]
    exact append_implements cpr machine _ _ _ _ (each item List.mem_cons_self)
      (inductionHypothesis fun other member => each other (List.mem_cons_of_mem _ member))

/-- What an event's generator emits for an ordinary block implements its calls. -/
theorem doit_ordinary (flag : Nat) (activation : Activation) :
    Implements cpr machine ((doitEmission cpr flag).ordinary activation)
      fun phase run => some (eventCalls cpr machine phase flag activation run) := by
  obtain ⟨bk, pt⟩ := activation
  simp only [doitEmission, eventCalls]
  by_cases table : bk ∈ cpr.act ∨ bk ∈ cpr.cap
  · simp only [table, if_true]
    exact call_implements cpr machine bk pt flag
  · by_cases output : flag = 1 ∨ 0 < pt
    · simp only [table, output, if_true, if_false]
      exact call_implements cpr machine bk pt flag
    · by_cases work : flag = 2 ∧ pt ≤ 0 ∧ cpr.withWork bk = 1
      · simp only [if_neg table, if_neg output, if_pos work]
        obtain ⟨rfl, -, -⟩ := work
        exact call_implements cpr machine bk 0 2
      · simp only [table, output, work, if_false]
        exact empty_implements cpr machine

/-- A choice by the sign of the link implements the selected alternative. A missing
alternative has an empty text, and then there is nothing to choose between. -/
theorem ifPiece_implements (emission : Emission) (head : emission.ifThenElse = ifPositive cpr)
    (bk : Nat) (thentxt elsetxt : Text) (first second : (phase : Nat) → Run W → Option (Run W))
    (thenRuns : Implements cpr machine thentxt first)
    (elseRuns : Implements cpr machine elsetxt second) :
    Implements cpr machine (ifPiece emission bk thentxt elsetxt) fun phase run =>
      if machine.positive run.1 (some (cpr.testedLink bk)) then first phase run
      else second phase run := by
  intro mem
  have world : (project mem).1 = mem.world := rfl
  by_cases silent : thentxt.isEmpty && elsetxt.isEmpty
  · rw [ifPiece, if_pos silent]
    obtain ⟨thenNone, elseNone⟩ : thentxt = [] ∧ elsetxt = [] := by simpa using silent
    subst thenNone elseNone
    refine ⟨?_, rfl⟩
    simp only
    split
    · exact (thenRuns mem).1
    · exact (elseRuns mem).1
  · rw [ifPiece, if_neg silent, head, exec_comment, ifPositive, exec_cons, exec_nil]
    simp only [execStmt, evalTest, denotes, world]
    by_cases positive : machine.positive mem.world (some (cpr.testedLink bk)) = true
    · obtain ⟨kept, phase⟩ := project_enter bk 1 thentxt mem
      obtain ⟨runs, after⟩ := thenRuns (enter bk 1 thentxt mem)
      rw [kept, phase] at runs
      simp only [positive, if_true]
      exact ⟨runs, after.trans phase⟩
    · obtain ⟨kept, phase⟩ := project_enter bk 2 elsetxt mem
      obtain ⟨runs, after⟩ := elseRuns (enter bk 2 elsetxt mem)
      rw [kept, phase] at runs
      simp only [positive, Bool.false_eq_true, if_false]
      exact ⟨runs, after.trans phase⟩

/-- A choice by the clamped value of the link implements the selected alternative:
the cases that are not written have nothing to do. -/
theorem selectPiece_implements (emission : Emission) (head : emission.eventSelect = switchLink cpr)
    (bk : Nat) (t : Nat → Text) (nested : Nat → (phase : Nat) → Run W → Option (Run W))
    (some : cpr.clkptr bk < cpr.clkptr (bk + 1))
    (runs : ∀ ev ∈ cpr.outputEvents bk, Implements cpr machine (t ev) (nested ev)) :
    Implements cpr machine (selectPiece emission bk ((cpr.outputEvents bk).map t)
        ((cpr.outputEvents bk).map t)) fun phase run =>
      nested (cpr.clkptr bk + ((max (min (machine.toInt run.1 (.some (cpr.testedLink bk)))
        (size cpr.clkptr bk)) 1).toNat - 1)) phase run := by
  intro mem
  let number : Int :=
    max (min (machine.toInt mem.world (.some (cpr.testedLink bk))) (size cpr.clkptr bk)) 1
  have length : (cpr.outputEvents bk).length = cpr.clkptr (bk + 1) - cpr.clkptr bk := by
    simp [outputEvents, slice]
  have positive : 1 ≤ number.toNat := by omega
  have inside : number.toNat ≤ (cpr.outputEvents bk).length := by
    have bound : number ≤ max (size cpr.clkptr bk) 1 := by omega
    simp only [size] at bound
    omega
  have event : cpr.clkptr bk + (number.toNat - 1) ∈ cpr.outputEvents bk :=
    (mem_outputEvents _ _).mpr (by omega)
  have text : caseText ((cpr.outputEvents bk).map t) number.toNat =
      t (cpr.clkptr bk + (number.toNat - 1)) := caseText_map t bk number.toNat positive inside
  have here := runs _ event
  change nested (cpr.clkptr bk + (number.toNat - 1)) mem.phase (project mem) = _ ∧ _
  by_cases silent : (labels ((cpr.outputEvents bk).map t)).isEmpty
  · have unlabelled : number.toNat ∉ labels ((cpr.outputEvents bk).map t) := by
      rw [List.isEmpty_iff.mp silent]
      exact List.not_mem_nil
    have nothing : t (cpr.clkptr bk + (number.toNat - 1)) = [] := by
      rw [mem_labels, text, List.length_map] at unlabelled
      exact Decidable.byContradiction fun written => unlabelled ⟨positive, inside, written⟩
    rw [nothing] at here
    rw [selectPiece, if_pos silent]
    exact here mem
  · rw [selectPiece, if_neg silent, head, exec_comment, switchLink, exec_cons, exec_cons, exec_nil]
    let chosen : Mem W := { mem with i := number }
    have set : execStmt cpr machine (.setI (.clamped (.outtb (cpr.testedLink bk)) bk)) mem =
        chosen := rfl
    rw [set]
    have same : project chosen = project mem ∧ chosen.phase = mem.phase := ⟨rfl, rfl⟩
    have index : chosen.i = number := rfl
    simp only [execStmt, index, text]
    by_cases labelled : number.toNat ∈ labels ((cpr.outputEvents bk).map t)
    · rw [if_pos ⟨labelled, by omega⟩]
      obtain ⟨kept, phase⟩ := project_enter bk number.toNat
        (t (cpr.clkptr bk + (number.toNat - 1))) chosen
      obtain ⟨ran, after⟩ := here (enter bk number.toNat
        (t (cpr.clkptr bk + (number.toNat - 1))) chosen)
      rw [kept, phase] at ran
      exact ⟨ran, after.trans phase⟩
    · rw [if_neg fun both => labelled both.1]
      have nothing : t (cpr.clkptr bk + (number.toNat - 1)) = [] := by
        rw [mem_labels, text, List.length_map] at labelled
        exact Decidable.byContradiction fun written => labelled ⟨positive, inside, written⟩
      rw [nothing] at here
      exact here chosen

/-- The text of one activation implements its interpretation, if the texts of its output
events implement theirs. The cases are the three kinds of blocks. -/
theorem piece_implements (emission : Emission) (ifHead : emission.ifThenElse = ifPositive cpr)
    (selectHead : emission.eventSelect = switchLink cpr) (branch emit : Nat → Text)
    (ordinary : (phase : Nat) → Activation → Run W → Run W)
    (nested : (phase ev : Nat) → Run W → Option (Run W)) (activation : Activation)
    (known : Known cpr activation)
    (calls : cpr.Ordinary activation.1 → Implements cpr machine (emission.ordinary activation)
      fun phase run => some (ordinary phase activation run))
    (branches : cpr.funtyp activation.1 = -1 → ∀ ev ∈ cpr.outputEvents activation.1,
      Implements cpr machine (branch ev) fun phase => nested phase ev)
    (cases : ¬ cpr.Ordinary activation.1 → ∀ ev ∈ cpr.outputEvents activation.1,
      Implements cpr machine (emit ev) fun phase => nested phase ev) :
    Implements cpr machine (pieceText cpr emission branch emit emit activation) fun phase run =>
      interpretActivation cpr machine (ordinary phase) (nested phase) run activation := by
  rcases known with isOrdinary | synchro
  · simpa only [pieceText, interpretActivation, isOrdinary, if_true] using calls isOrdinary
  · have other := synchro.not_ordinary
    rcases synchro.kind with ⟨kind, two⟩ | ⟨kind, some⟩
    · have chosen := ifPiece_implements cpr machine emission ifHead activation.1 _ _ _ _
        (branches kind (cpr.clkptr activation.1) ((mem_outputEvents _ _).mpr (by omega)))
        (branches kind (cpr.clkptr activation.1 + 1) ((mem_outputEvents _ _).mpr (by omega)))
      intro mem
      obtain ⟨ran, phase⟩ := chosen mem
      simp only [pieceText, interpretActivation, selectedEvent, other, kind, if_true, if_false]
        at ran phase ⊢
      refine ⟨?_, phase⟩
      rw [← ran]
      split <;> rfl
    · have chosen := selectPiece_implements cpr machine emission selectHead activation.1 emit
        (fun ev phase => nested phase ev) some (cases other)
      have notIf : ¬ cpr.funtyp activation.1 = -1 := by omega
      simpa only [pieceText, interpretActivation, selectedEvent, other, notIf, if_false]
        using chosen

/-- The text of a list of activations implements its interpretation. -/
theorem walk_implements (emission : Emission) (ifHead : emission.ifThenElse = ifPositive cpr)
    (selectHead : emission.eventSelect = switchLink cpr) (t : Nat → Text)
    (ordinary : (phase : Nat) → Activation → Run W → Run W)
    (nested : (phase ev : Nat) → Run W → Option (Run W)) (activations : List Activation)
    (known : ∀ activation ∈ activations, Known cpr activation)
    (calls : ∀ activation, Implements cpr machine (emission.ordinary activation)
      fun phase run => some (ordinary phase activation run))
    (runs : ∀ activation ∈ activations, ¬ cpr.Ordinary activation.1 →
      ∀ ev ∈ cpr.outputEvents activation.1,
        Implements cpr machine (t ev) fun phase => nested phase ev) :
    Implements cpr machine (activations.flatMap (pieceText cpr emission t t t)) fun phase run =>
      activations.foldlM
        (interpretActivation cpr machine (ordinary phase) (nested phase)) run := by
  refine flatMap_implements cpr machine activations (pieceText cpr emission t t t)
    (fun activation phase run =>
      interpretActivation cpr machine (ordinary phase) (nested phase) run activation) ?_
  intro activation member
  have below := runs activation member
  exact piece_implements cpr machine emission ifHead selectHead t t ordinary nested activation
    (known activation member) (fun _ => calls activation)
    (fun kind => below (by unfold Ordinary; omega)) below

end Correctness

section Main

variable {cpr : Compiled}

/-- The texts of all events exist and solve their recursive equation. The recursion goes
down in the rank of the events, which is finite as no event activates itself again; so
one depth is enough for all of them. -/
theorem doit_texts (wellFormed : WellFormed cpr) (flag : Nat) :
    ∃ t : Nat → Text,
      (∀ ev, IsEvent cpr ev →
        t ev = (cpr.activations ev).flatMap (pieceText cpr (doitEmission cpr flag) t t t)) ∧
      ∀ ev, IsEvent cpr ev → ∀ fuel, rank (Activates cpr) ev < fuel →
        writeCodeDoit cpr fuel ev flag = some (t ev) := by
  refine fuelled_solution id wellFormed.graph (doitStep cpr flag)
    (fun t ev => (cpr.activations ev).flatMap (pieceText cpr (doitEmission cpr flag) t t t)) ?_
  intro call result ev inside found
  apply walk_texts _ call call call result result result _ (wellFormed.known ev inside)
  intro activation member synchro other output
  have text := found other ⟨activation, member, synchro, output⟩
  exact ⟨text, text, text⟩

/-- The text of an event implements its direct interpretation. By induction on the
depth: the texts of the events it activates do so already, and a text and an
interpretation of one activation make the same step from there. -/
theorem doit_implements (wellFormed : WellFormed cpr) (flag : Nat) (t : Nat → Text)
    (texts : ∀ ev, IsEvent cpr ev →
      t ev = (cpr.activations ev).flatMap (pieceText cpr (doitEmission cpr flag) t t t))
    {W : Type} (machine : Machine W) (ev : Nat) (inside : IsEvent cpr ev) :
    ∀ fuel, rank (Activates cpr) ev < fuel → Implements cpr machine (t ev)
      fun phase => interpret cpr machine phase flag fuel ev := by
  revert ev
  apply acyclic_induction wellFormed.graph
  intro ev inside below fuel enough
  obtain ⟨less, rfl⟩ : ∃ less, fuel = less + 1 := ⟨fuel - 1, by omega⟩
  rw [texts ev inside]
  refine walk_implements cpr machine (doitEmission cpr flag) rfl rfl t
    (fun phase => eventCalls cpr machine phase flag)
    (fun phase other run => interpret cpr machine phase flag less other run)
    (cpr.activations ev) (wellFormed.known ev inside) (doit_ordinary cpr machine flag) ?_
  intro activation member synchro other output
  have edge : Activates cpr ev other := ⟨activation, member, synchro, output⟩
  have lower := rank_lt wellFormed.graph ev other inside edge
  exact below other edge (wellFormed.graph.closed ev other inside edge) less (by omega)

/-- A list such as `cord` has a text that implements its direct interpretation. Its
activations are no events, so only those below them need the depth of recursion. -/
theorem list_implements (wellFormed : WellFormed cpr) (flag fuel : Nat)
    (activations : List Activation) (known : ∀ activation ∈ activations, Known cpr activation)
    (enough : ∀ ev, IsEvent cpr ev → rank (Activates cpr) ev < fuel) :
    ∃ text, walk cpr (cdoitEmission cpr flag) (fun ev => writeCodeDoit cpr fuel ev flag)
        (fun ev => writeCodeDoit cpr fuel ev flag) (fun ev => writeCodeDoit cpr fuel ev flag)
        activations = some text ∧
      ∀ {W : Type} (machine : Machine W), Implements cpr machine text
        fun phase => interpretList cpr machine phase flag fuel activations := by
  obtain ⟨t, texts, found⟩ := doit_texts wellFormed flag
  have events : ∀ activation ∈ activations, ¬ cpr.Ordinary activation.1 →
      ∀ ev ∈ cpr.outputEvents activation.1, IsEvent cpr ev := by
    intro activation member synchro ev output
    rcases known activation member with ordinary | block
    · exact absurd ordinary synchro
    · exact block.events ev output
  refine ⟨_, walk_texts (cdoitEmission cpr flag) _ _ _ t t t activations known ?_, ?_⟩
  · intro activation member synchro ev output
    have inside := events activation member synchro ev output
    have text := found ev inside fuel (enough ev inside)
    exact ⟨text, text, text⟩
  · intro W machine
    refine walk_implements cpr machine (cdoitEmission cpr flag) rfl rfl t
      (fun phase => listCalls cpr machine phase flag)
      (fun phase => interpret cpr machine phase flag fuel) activations known
      (fun activation => call_implements cpr machine activation.1 activation.2 flag) ?_
    intro activation member synchro ev output
    have inside := events activation member synchro ev output
    exact doit_implements wellFormed flag t texts machine ev inside fuel (enough ev inside)

/-- The discrete code of a well formed schedule: with enough depth of recursion
the generators return texts, and running a text, whatever the block calls do to
the links, makes exactly the calls that direct interpretation of the event, of
`cord` or of `iord` prescribes. -/
theorem discrete_code_runs (cpr : Compiled) (wellFormed : WellFormed cpr) (flag : Nat) :
    ∃ bound, ∀ fuel, bound ≤ fuel →
      (∀ ev, IsEvent cpr ev → ∃ text, writeCodeDoit cpr fuel ev flag = some text ∧
        ∀ {W : Type} (machine : Machine W), Implements cpr machine text
          fun phase => interpret cpr machine phase flag fuel ev) ∧
      (∃ text, writeCodeCdoit cpr fuel flag = some text ∧
        ∀ {W : Type} (machine : Machine W), Implements cpr machine text
          fun phase => interpretList cpr machine phase flag fuel cpr.cord) ∧
      (∃ text, writeCodeIdoit cpr fuel = some text ∧
        ∀ {W : Type} (machine : Machine W), Implements cpr machine text
          fun phase => interpretList cpr machine phase 1 fuel cpr.iord) := by
  refine ⟨{ev | IsEvent cpr ev}.ncard + 1, fun fuel deep => ?_⟩
  have enough (ev : Nat) (inside : IsEvent cpr ev) : rank (Activates cpr) ev < fuel := by
    have bound := rank_le wellFormed.graph ev inside
    omega
  refine ⟨fun ev inside => ?_, ?_, ?_⟩
  · obtain ⟨t, texts, found⟩ := doit_texts wellFormed flag
    exact ⟨t ev, found ev inside fuel (enough ev inside), fun machine =>
      doit_implements wellFormed flag t texts machine ev inside fuel (enough ev inside)⟩
  · exact list_implements wellFormed flag fuel cpr.cord wellFormed.knownCord enough
  · exact list_implements wellFormed 1 fuel cpr.iord wellFormed.knownIord enough

/-- An instance: the code of the sample without modes for flag 1. -/
theorem sample_code_runs : ∃ bound, ∀ fuel, bound ≤ fuel →
    (∀ ev, IsEvent (sample 0) ev → ∃ text, writeCodeDoit (sample 0) fuel ev 1 = some text ∧
      ∀ {W : Type} (machine : Machine W), Implements (sample 0) machine text
        fun phase => interpret (sample 0) machine phase 1 fuel ev) ∧
    (∃ text, writeCodeCdoit (sample 0) fuel 1 = some text ∧
      ∀ {W : Type} (machine : Machine W), Implements (sample 0) machine text
        fun phase => interpretList (sample 0) machine phase 1 fuel (sample 0).cord) ∧
    (∃ text, writeCodeIdoit (sample 0) fuel = some text ∧
      ∀ {W : Type} (machine : Machine W), Implements (sample 0) machine text
        fun phase => interpretList (sample 0) machine phase 1 fuel (sample 0).iord) :=
  discrete_code_runs (sample 0) (sample_wellFormed 0) 1

end Main

end ScicosFlex.Codegen
