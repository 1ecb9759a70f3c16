import ScicosFlex.Codegen.DerivativeCode

/-!
# The branches of the derivative code

In the solver phase a synchronisation block without modes must follow its link and
one with modes its mode. `fragments_right_iff` says for which fragments of the
derivative code this holds. The generator for `oord` itself compares `nmode` with
zero by `<0`, which is false for every block, so a block without modes never
follows its link there (`frozen_branch`). The nested generator compares correctly,
but names the block array the wrong way round in the test of an if-then-else block.
-/

namespace ScicosFlex.Codegen

open Compiled Library.AcyclicRecursion

section Right

variable (cpr : Compiled)

/-- The alternative a synchronisation block must take in the solver phase: by its
link if it has no modes, by `mode[0]` otherwise. A link that is not a number is
neither positive nor not; then an if-then-else block takes no alternative. -/
def selectedAlternative {W : Type} (machine : Machine W) (bk : Nat) (world : W) : Option Nat :=
  if nmode cpr bk = 0 then
    if cpr.funtyp bk = -1 then
      if machine.positive world (some (cpr.testedLink bk)) then some 1
      else if machine.nonPositive world (some (cpr.testedLink bk)) then some 2
      else none
    else
      some (max (min (machine.toInt world (some (cpr.testedLink bk))) (nevout cpr bk)) 1).toNat
  else some (machine.modeZero world bk).toNat

/-- The modes of a block name one of its alternatives. -/
def LegalMode {W : Type} (machine : Machine W) (bk : Nat) (world : W) : Prop :=
  0 < nmode cpr bk → 1 ≤ machine.modeZero world bk ∧ machine.modeZero world bk ≤ nevout cpr bk

/-- A fragment runs the text of the chosen alternative and nothing else, up to the
variable `i`; if none is chosen it runs nothing. -/
def Runs {W : Type} (machine : Machine W) (piece : Fragment) (mem : Mem W) : Option Nat → Prop
  | some chosen =>
    let body := caseText piece.alternatives chosen
    ∃ i, exec cpr machine piece.text mem =
      exec cpr machine body (enter piece.bk chosen body { mem with i := i })
  | none => ∃ i, exec cpr machine piece.text mem = { mem with i := i }

/-- A fragment is right: the expression it tests denotes the cell of the block's
own input link, and in the solver phase it runs the selected alternative. -/
def Right (piece : Fragment) : Prop :=
  ¬ cpr.Ordinary piece.bk → piece.text ≠ [] →
    denotes cpr piece.tested = some (cpr.testedLink piece.bk) ∧
    ∀ (W : Type) (machine : Machine W) (mem : Mem W), mem.phase = 2 →
      LegalMode cpr machine piece.bk mem.world →
        Runs cpr machine piece mem (selectedAlternative cpr machine piece.bk mem.world)

/-- When the derivative code of a block is right: a block in `oord` has modes, an
if-then-else block whose link the search finds is not nested, and for one whose
link it does not find, `tmp_` happens to hold an expression for that link. -/
def Condition (nested : Bool) (piece : Fragment) : Prop :=
  ¬ cpr.Ordinary piece.bk → piece.text ≠ [] →
    (nested = false → 0 < nmode cpr piece.bk) ∧
    (cpr.funtyp piece.bk = -1 →
      (Searched cpr (cpr.testedLink piece.bk) → nested = false) ∧
      (¬ Searched cpr (cpr.testedLink piece.bk) →
        denotes cpr piece.inherited = some (cpr.testedLink piece.bk)))

end Right

section Search

variable (cpr : Compiled)

/-- In `write_code_odoit` a producer that is found gives the right expression, and
otherwise `tmp_` is left from an earlier search, which may have been for another link. -/
theorem search_outptr (link : Nat) (tmp : Cell) :
    denotes cpr (searchProducer cpr .outptr link tmp) = some link ↔
      (¬ Searched cpr link → denotes cpr tmp = some link) := by
  rcases search_cases cpr .outptr link tmp with ⟨searched, bk, port, result, drives⟩ | ⟨none, result⟩
  · simp [result, denotes, drives, searched]
  · simp [result, none]

/-- In `write_code_ozdoit` a producer that is found gives a name that the solver
function does not declare, and otherwise `tmp_` is left from an earlier search. -/
theorem search_foreign (link : Nat) (tmp : Cell) :
    denotes cpr (searchProducer cpr .foreign link tmp) = some link ↔
      ¬ Searched cpr link ∧ denotes cpr tmp = some link := by
  rcases search_cases cpr .foreign link tmp with ⟨searched, bk, port, result, drives⟩ | ⟨none, result⟩
  · simp [result, denotes, searched]
  · simp [result, none]

end Search

section Branches

variable {W : Type} (cpr : Compiled) (machine : Machine W)

/-- If exactly the condition of the chosen alternative holds, the text of an
if-then-else block runs that alternative. -/
theorem if_runs (bk : Nat) (test elseTest : Test) (thentxt elsetxt : Text) (chosen : Nat)
    (mem : Mem W) (range : chosen = 1 ∨ chosen = 2)
    (first : evalTest cpr machine mem test = decide (chosen = 1))
    (second : evalTest cpr machine mem elseTest = decide (chosen = 2)) :
    exec cpr machine [.line (.comment (.ifThenElseBlk bk)),
        .ifElseIf bk test thentxt elseTest elsetxt] mem =
      exec cpr machine (caseText [thentxt, elsetxt] chosen)
        (enter bk chosen (caseText [thentxt, elsetxt] chosen) mem) := by
  rw [exec_comment, exec_cons, exec_nil]
  rcases range with rfl | rfl <;> simp [execStmt, first, second, caseText]

/-- If neither condition holds, it runs nothing. -/
theorem if_skips (bk : Nat) (test elseTest : Test) (thentxt elsetxt : Text) (mem : Mem W)
    (first : evalTest cpr machine mem test = false)
    (second : evalTest cpr machine mem elseTest = false) :
    exec cpr machine [.line (.comment (.ifThenElseBlk bk)),
        .ifElseIf bk test thentxt elseTest elsetxt] mem = mem := by
  rw [exec_comment, exec_cons, exec_nil]
  simp [execStmt, first, second]

/-- If `i` becomes the number of the chosen alternative, the text of an
event-select block runs that alternative. -/
theorem select_runs (bk : Nat) (test : Test) (left right : Selector) (tested emitted : List Text)
    (chosen : Nat) (mem : Mem W) (positive : 1 ≤ chosen) (inside : chosen ≤ emitted.length)
    (same : labels tested = labels emitted)
    (value : evalSelector cpr machine mem
      (if evalTest cpr machine mem test then left else right) = chosen) :
    exec cpr machine [.line (.comment (.evtSelectBlk bk)), .chooseI test left right,
        .switchI bk (labels tested) (caseText emitted)] mem =
      exec cpr machine (caseText emitted chosen)
        (enter bk chosen (caseText emitted chosen) { mem with i := (chosen : Int) }) := by
  rw [exec_comment, exec_cons, exec_cons, exec_nil]
  simp only [execStmt, value, Int.toNat_natCast, Int.natCast_nonneg, and_true]
  by_cases labelled : chosen ∈ labels tested
  · rw [if_pos labelled]
  · have nothing : caseText emitted chosen = [] := by
      rw [same, mem_labels] at labelled
      exact Decidable.byContradiction fun written => labelled ⟨positive, inside, written⟩
    rw [if_neg labelled, nothing]
    rfl

/-- If `i` becomes zero, it runs nothing. -/
theorem select_skips (bk : Nat) (test : Test) (left right : Selector) (tested emitted : List Text)
    (mem : Mem W)
    (value : evalSelector cpr machine mem
      (if evalTest cpr machine mem test then left else right) = 0) :
    exec cpr machine [.line (.comment (.evtSelectBlk bk)), .chooseI test left right,
        .switchI bk (labels tested) (caseText emitted)] mem = { mem with i := 0 } := by
  have never : 0 ∉ labels tested := fun member => by
    have positive := ((mem_labels tested 0).mp member).1
    omega
  rw [exec_comment, exec_cons, exec_cons, exec_nil]
  simp [execStmt, value, never]

/-- Entering a text leaves a longer trace behind. -/
theorem entered_trace (bk chosen : Nat) (body : Text) (mem : Mem W) (written : body ≠ []) :
    mem.trace.length <
      (exec cpr machine body (enter bk chosen body mem)).trace.length := by
  have grows := exec_trace cpr machine body (enter bk chosen body mem)
  have marked : (enter bk chosen body mem).trace.length = mem.trace.length + 1 := by
    simp [enter, written]
  omega

/-- The chosen alternative of an if-then-else block is one of its two. -/
theorem selected_if (bk : Nat) (world : W) (synchro : Synchro cpr bk)
    (kind : cpr.funtyp bk = -1) (legal : LegalMode cpr machine bk world)
    (modes : 0 ≤ nmode cpr bk) (chosen : Nat)
    (selected : selectedAlternative cpr machine bk world = some chosen) :
    chosen = 1 ∨ chosen = 2 := by
  unfold selectedAlternative at selected
  by_cases none : nmode cpr bk = 0
  · rw [if_pos none, if_pos kind] at selected
    split_ifs at selected
    · exact Or.inl (Option.some.inj selected).symm
    · exact Or.inr (Option.some.inj selected).symm
  · obtain ⟨low, high⟩ := legal (by omega)
    rw [if_neg none, Option.some.injEq] at selected
    have two : nevout cpr bk = 2 := by
      rcases synchro.kind with ⟨-, two⟩ | ⟨other, -⟩
      · simp only [nevout, size]; omega
      · omega
    omega

/-- An event-select block always has a chosen alternative, which is one of its own. -/
theorem selected_select (bk : Nat) (world : W) (synchro : Synchro cpr bk)
    (kind : cpr.funtyp bk = -2) (legal : LegalMode cpr machine bk world)
    (modes : 0 ≤ nmode cpr bk) :
    ∃ chosen : Nat, selectedAlternative cpr machine bk world = some chosen ∧
      1 ≤ chosen ∧ chosen ≤ (cpr.outputEvents bk).length ∧
      (chosen : Int) = if nmode cpr bk = 0 then
          max (min (machine.toInt world (some (cpr.testedLink bk))) (nevout cpr bk)) 1
        else machine.modeZero world bk := by
  have count : ((cpr.outputEvents bk).length : Int) = nevout cpr bk ∧ 1 ≤ nevout cpr bk := by
    have some : cpr.clkptr bk < cpr.clkptr (bk + 1) := by
      rcases synchro.kind with ⟨other, -⟩ | ⟨-, some⟩ <;> omega
    simp only [outputEvents, slice, List.length_range', nevout, size]
    omega
  unfold selectedAlternative
  by_cases none : nmode cpr bk = 0
  · have notIf : ¬ cpr.funtyp bk = -1 := by omega
    refine ⟨_, by rw [if_pos none, if_neg notIf], ?_⟩
    rw [if_pos none]
    omega
  · obtain ⟨low, high⟩ := legal (by omega)
    refine ⟨_, by rw [if_neg none], ?_⟩
    rw [if_neg none]
    omega

end Branches

section Written

variable (cpr : Compiled)

/-- What an if-then-else block with a text looks like. -/
theorem if_written (heads : DerivativeHeads) (bk : Nat) (inherited : Cell) (thentxt elsetxt : Text)
    (written : (ifFragment cpr heads bk inherited thentxt elsetxt).1.text ≠ []) :
    (thentxt = [] → elsetxt ≠ []) ∧
    (ifFragment cpr heads bk inherited thentxt elsetxt).1 =
      let tmp := searchProducer cpr heads.found (cpr.testedLink bk) inherited
      { bk, inherited, tested := tmp, passed := inherited, alternatives := [thentxt, elsetxt]
        text := [.line (.comment (.ifThenElseBlk bk)),
          .ifElseIf bk (branchTest heads bk (.positive tmp) 1) thentxt
            (branchTest heads bk (.nonPositive tmp) 2) elsetxt] } := by
  by_cases empty : (thentxt.isEmpty && elsetxt.isEmpty) = true
  · simp [ifFragment, empty] at written
  · refine ⟨fun first second => empty ?_, ?_⟩
    · rw [first, second]
      rfl
    · simp only [ifFragment, empty, Bool.false_eq_true, if_false]

/-- What an event-select block with a text looks like. -/
theorem select_written (heads : DerivativeHeads) (bk : Nat) (inherited : Cell)
    (tested emitted : List Text)
    (written : (selectFragment cpr heads bk inherited tested emitted).1.text ≠ []) :
    labels tested ≠ [] ∧
    (selectFragment cpr heads bk inherited tested emitted).1 =
      let tmp : Cell := .outtb (cpr.testedLink bk)
      { bk, inherited, tested := tmp, passed := tmp, alternatives := emitted
        text := [.line (.comment (.evtSelectBlk bk)),
          .chooseI (heads.followsLink bk) (.clamped tmp bk) (.modeZero bk),
          .switchI bk (labels tested) (caseText emitted)] } := by
  by_cases empty : (labels tested).isEmpty = true
  · simp [selectFragment, empty] at written
  · refine ⟨fun nothing => empty (by rw [nothing]; rfl), ?_⟩
    simp only [selectFragment, empty, Bool.false_eq_true, if_false]

end Written

section Following

variable (cpr : Compiled)

/-- In the solver phase the heads follow the link of a block without modes and
the mode of a block with modes. -/
def Follows (heads : DerivativeHeads) (bk : Nat) : Prop :=
  ∀ {W : Type} (machine : Machine W) (mem : Mem W), mem.phase = 2 →
    evalTest cpr machine mem (heads.followsLink bk) = decide (nmode cpr bk = 0) ∧
    evalTest cpr machine mem (heads.followsMode bk) = decide (nmode cpr bk ≠ 0)

/-- The heads follow nothing. -/
def Frozen (heads : DerivativeHeads) (bk : Nat) : Prop :=
  ∀ {W : Type} (machine : Machine W) (mem : Mem W),
    evalTest cpr machine mem (heads.followsLink bk) = false ∧
    evalTest cpr machine mem (heads.followsMode bk) = false

/-- The nested heads always follow, since they ask for the phase and for modes together. -/
theorem ozdoit_follows (flag bk : Nat) : Follows cpr (ozdoitHeads cpr flag) bk := by
  intro W machine mem solver
  simp [ozdoitHeads, evalTest, solver]

/-- The heads for `oord` follow the mode of a block that has modes. -/
theorem odoit_follows (flag bk : Nat) (modes : 0 < nmode cpr bk) :
    Follows cpr (odoitHeads cpr flag) bk := by
  intro W machine mem solver
  have notNegative : ¬ nmode cpr bk < 0 := by omega
  have notZero : ¬ nmode cpr bk = 0 := by omega
  simp [odoitHeads, evalTest, modes, notNegative, notZero]

/-- They follow nothing if the block has none. -/
theorem odoit_frozen (flag bk : Nat) (none : nmode cpr bk = 0) :
    Frozen cpr (odoitHeads cpr flag) bk := by
  intro W machine mem
  simp [odoitHeads, evalTest, none]

/-- The condition of an alternative under heads that follow. -/
theorem branch_value (heads : DerivativeHeads) (bk : Nat) (follows : Follows cpr heads bk)
    {W : Type} (machine : Machine W) (mem : Mem W) (solver : mem.phase = 2) (link : Test)
    (mode : Nat) :
    evalTest cpr machine mem (branchTest heads bk link mode) =
      if nmode cpr bk = 0 then evalTest cpr machine mem link
      else decide (machine.modeZero mem.world bk = mode) := by
  obtain ⟨byLink, byMode⟩ := follows machine mem solver
  by_cases none : nmode cpr bk = 0 <;> simp [branchTest, evalTest, byLink, byMode, none]

/-- The condition of an alternative under frozen heads. -/
theorem branch_frozen (heads : DerivativeHeads) (bk : Nat) (frozen : Frozen cpr heads bk)
    {W : Type} (machine : Machine W) (mem : Mem W) (link : Test) (mode : Nat) :
    evalTest cpr machine mem (branchTest heads bk link mode) = false := by
  obtain ⟨byLink, byMode⟩ := frozen machine mem
  simp [branchTest, evalTest, byLink, byMode]

/-- The conditions of an if-then-else block whose heads follow and whose expression is
its link are those of its two alternatives. -/
theorem if_tests (heads : DerivativeHeads) (bk : Nat) (kind : cpr.funtyp bk = -1)
    (follows : Follows cpr heads bk) {W : Type} (machine : Machine W) (mem : Mem W)
    (solver : mem.phase = 2) (legal : LegalMode cpr machine bk mem.world)
    (modes : 0 ≤ nmode cpr bk) (tmp : Cell)
    (cell : denotes cpr tmp = some (cpr.testedLink bk)) :
    evalTest cpr machine mem (branchTest heads bk (.positive tmp) 1) =
        decide (selectedAlternative cpr machine bk mem.world = some 1) ∧
      evalTest cpr machine mem (branchTest heads bk (.nonPositive tmp) 2) =
        decide (selectedAlternative cpr machine bk mem.world = some 2) := by
  rw [branch_value cpr heads bk follows machine mem solver,
    branch_value cpr heads bk follows machine mem solver]
  by_cases none : nmode cpr bk = 0
  · simp only [selectedAlternative, none, kind, if_true, evalTest, cell]
    unfold Machine.positive Machine.nonPositive
    rcases machine.compared mem.world (some (cpr.testedLink bk)) with _ | _ | _ | _ <;> simp
  · obtain ⟨low, -⟩ := legal (by omega)
    simp only [selectedAlternative, none, if_false, Option.some.injEq, decide_eq_decide]
    omega

/-- An if-then-else block is right if its heads follow and its expression is its link. -/
theorem if_right (heads : DerivativeHeads) (bk : Nat) (inherited : Cell) (thentxt elsetxt : Text)
    (synchro : Synchro cpr bk) (kind : cpr.funtyp bk = -1) (modes : 0 ≤ nmode cpr bk)
    (follows : Follows cpr heads bk)
    (cell : denotes cpr (searchProducer cpr heads.found (cpr.testedLink bk) inherited) =
      some (cpr.testedLink bk)) :
    Right cpr (ifFragment cpr heads bk inherited thentxt elsetxt).1 := by
  intro _ written
  rw [(if_written cpr heads bk inherited thentxt elsetxt written).2]
  refine ⟨cell, fun W machine mem solver legal => ?_⟩
  obtain ⟨first, second⟩ := if_tests cpr heads bk kind follows machine mem solver legal modes _ cell
  dsimp only
  cases selected : selectedAlternative cpr machine bk mem.world with
  | none =>
    rw [selected] at first second
    exact ⟨mem.i, if_skips cpr machine bk _ _ thentxt elsetxt mem first second⟩
  | some chosen =>
    have range := selected_if cpr machine bk mem.world synchro kind legal modes chosen selected
    rw [selected] at first second
    refine ⟨mem.i, if_runs cpr machine bk _ _ thentxt elsetxt chosen mem range ?_ ?_⟩
    · simpa using first
    · simpa using second

/-- An event-select block is right if its heads follow. -/
theorem select_right (heads : DerivativeHeads) (bk : Nat) (inherited : Cell)
    (tested emitted : List Text) (synchro : Synchro cpr bk) (kind : cpr.funtyp bk = -2)
    (modes : 0 ≤ nmode cpr bk) (follows : Follows cpr heads bk)
    (same : labels tested = labels emitted)
    (count : emitted.length = (cpr.outputEvents bk).length) :
    Right cpr (selectFragment cpr heads bk inherited tested emitted).1 := by
  intro _ written
  rw [(select_written cpr heads bk inherited tested emitted written).2]
  refine ⟨rfl, fun W machine mem solver legal => ?_⟩
  obtain ⟨chosen, selected, positive, inside, value⟩ :=
    selected_select cpr machine bk mem.world synchro kind legal modes
  dsimp only
  rw [selected]
  refine ⟨(chosen : Int), ?_⟩
  apply select_runs cpr machine bk _ _ _ tested emitted chosen mem positive (count ▸ inside) same
  rw [(follows machine mem solver).1, value]
  by_cases none : nmode cpr bk = 0
  · simp only [none, decide_true, if_true, evalSelector, denotes]
  · simp only [none, decide_false, Bool.false_eq_true, if_false, evalSelector]

end Following

section Freezing

variable (cpr : Compiled)

/-- A block without modes is not right if it skips a selected alternative that
has a text. -/
theorem skipping_wrong (piece : Fragment) (chosen : Nat) (synchro : ¬ cpr.Ordinary piece.bk)
    (written : piece.text ≠ []) (none : nmode cpr piece.bk = 0)
    (selects : selectedAlternative cpr (steer chosen) piece.bk () = some chosen)
    (body : caseText piece.alternatives chosen ≠ [])
    (skips : ∃ i, exec cpr (steer chosen) piece.text solverMem = { solverMem with i := i }) :
    ¬ Right cpr piece := by
  intro right
  obtain ⟨-, runs⟩ := right synchro written
  have same : selectedAlternative cpr (steer chosen) piece.bk solverMem.world = some chosen :=
    selects
  have run := runs Unit (steer chosen) solverMem rfl (fun modes => by omega)
  rw [same] at run
  obtain ⟨i, ran⟩ := run
  obtain ⟨j, skipped⟩ := skips
  rw [skipped] at ran
  have longer := entered_trace cpr (steer chosen) piece.bk chosen
    (caseText piece.alternatives chosen) { solverMem with i := i } body
  rw [← ran] at longer
  exact absurd longer (Nat.lt_irrefl _)

/-- An if-then-else block with a text and frozen heads is not right. -/
theorem if_wrong (heads : DerivativeHeads) (bk : Nat) (inherited : Cell) (thentxt elsetxt : Text)
    (synchro : ¬ cpr.Ordinary bk) (kind : cpr.funtyp bk = -1) (none : nmode cpr bk = 0)
    (frozen : Frozen cpr heads bk)
    (written : (ifFragment cpr heads bk inherited thentxt elsetxt).1.text ≠ []) :
    ¬ Right cpr (ifFragment cpr heads bk inherited thentxt elsetxt).1 := by
  obtain ⟨either, shape⟩ := if_written cpr heads bk inherited thentxt elsetxt written
  rw [shape] at written ⊢
  obtain ⟨chosen, range, body⟩ : ∃ chosen, (chosen = 1 ∨ chosen = 2) ∧
      caseText [thentxt, elsetxt] chosen ≠ [] := by
    by_cases first : thentxt = []
    · exact ⟨2, Or.inr rfl, either first⟩
    · exact ⟨1, Or.inl rfl, first⟩
  have selects : selectedAlternative cpr (steer chosen) bk () = some chosen := by
    rcases range with rfl | rfl <;>
      simp [selectedAlternative, none, kind, steer, Machine.positive, Machine.nonPositive]
  refine skipping_wrong cpr _ chosen synchro written none selects body ⟨0, ?_⟩
  exact if_skips cpr (steer chosen) bk _ _ thentxt elsetxt solverMem
    (branch_frozen cpr heads bk frozen _ _ _ _) (branch_frozen cpr heads bk frozen _ _ _ _)

/-- An event-select block with a text and frozen heads is not right. -/
theorem select_wrong (heads : DerivativeHeads) (bk : Nat) (inherited : Cell)
    (tested emitted : List Text) (synchro : ¬ cpr.Ordinary bk) (kind : cpr.funtyp bk = -2)
    (none : nmode cpr bk = 0) (frozen : Frozen cpr heads bk)
    (same : labels tested = labels emitted)
    (count : emitted.length = (cpr.outputEvents bk).length)
    (written : (selectFragment cpr heads bk inherited tested emitted).1.text ≠ []) :
    ¬ Right cpr (selectFragment cpr heads bk inherited tested emitted).1 := by
  obtain ⟨nonempty, shape⟩ := select_written cpr heads bk inherited tested emitted written
  rw [shape] at written ⊢
  obtain ⟨chosen, labelled⟩ := List.exists_mem_of_ne_nil (labels tested) nonempty
  rw [same, mem_labels, count] at labelled
  obtain ⟨positive, inside, body⟩ := labelled
  have notIf : ¬ cpr.funtyp bk = -1 := by omega
  have selects : selectedAlternative cpr (steer chosen) bk () = some chosen := by
    simp only [outputEvents, slice, List.length_range'] at inside
    simp only [selectedAlternative, none, notIf, if_true, if_false, steer, nevout, size,
      Option.some.injEq]
    omega
  refine skipping_wrong cpr _ chosen synchro written none selects body ⟨0, ?_⟩
  apply select_skips cpr (steer chosen) bk _ _ _ tested emitted solverMem
  rw [(frozen (steer chosen) solverMem).1]
  rfl

end Freezing

section Main

variable {cpr : Compiled}

/-- The heads for `oord` follow exactly the blocks that have modes. They ask whether the
number of modes is below or above zero, and so have no branch for a block without modes. -/
theorem odoit_decided (flag bk : Nat) (modes : 0 ≤ nmode cpr bk) :
    (0 < nmode cpr bk ∧ Follows cpr (odoitHeads cpr flag) bk) ∨
      (¬ 0 < nmode cpr bk ∧ nmode cpr bk = 0 ∧ Frozen cpr (odoitHeads cpr flag) bk) := by
  by_cases some : 0 < nmode cpr bk
  · exact Or.inl ⟨some, odoit_follows cpr flag bk some⟩
  · have none : nmode cpr bk = 0 := by omega
    exact Or.inr ⟨some, none, odoit_frozen cpr flag bk none⟩

/-- A fragment with a text is right exactly if its heads follow and, for an
if-then-else block, the search yields an expression for its link. -/
theorem fragment_right_iff (heads : DerivativeHeads) (call : Cell → Nat → Option Text)
    (steady : Steady call) (tmp after : Cell) (activation : Activation) (piece : Fragment)
    (generated : fragment cpr heads call tmp activation = some (piece, after))
    (known : Known cpr activation) (modes : 0 ≤ nmode cpr activation.1)
    (synchro : ¬ cpr.Ordinary activation.1) (written : piece.text ≠ []) (follow : Prop)
    (decided : (follow ∧ Follows cpr heads activation.1) ∨
      (¬ follow ∧ nmode cpr activation.1 = 0 ∧ Frozen cpr heads activation.1)) :
    Right cpr piece ↔ follow ∧ (cpr.funtyp activation.1 = -1 →
      denotes cpr (searchProducer cpr heads.found (cpr.testedLink activation.1) piece.inherited) =
        some (cpr.testedLink activation.1)) := by
  have block := known.resolve_left synchro
  rcases fragment_cases heads call tmp after activation piece generated with
    ⟨ordinary, -⟩ | ⟨-, kind, thentxt, elsetxt, -, -, -, -, rfl⟩ |
    ⟨-, kind, tested, emitted, tests, emits, -, rfl⟩
  · exact absurd ordinary synchro
  · have shape := (if_written cpr heads activation.1 tmp thentxt elsetxt written).2
    have same : (ifFragment cpr heads activation.1 tmp thentxt elsetxt).1.inherited = tmp := by
      rw [shape]
    rw [same]
    constructor
    · intro right
      rcases decided with ⟨holds, -⟩ | ⟨-, none, frozen⟩
      · have cell := (right (by rwa [if_bk]) written).1
        rw [shape] at cell
        exact ⟨holds, fun _ => cell⟩
      · exact absurd right
          (if_wrong cpr heads activation.1 tmp thentxt elsetxt synchro kind none frozen written)
    · rintro ⟨holds, cell⟩
      rcases decided with ⟨-, follows⟩ | ⟨fails, -⟩
      · exact if_right cpr heads activation.1 tmp thentxt elsetxt block kind modes follows (cell kind)
      · exact absurd holds fails
  · have same := labels_congr tested emitted (mapM_empty (call tmp) _ _
      (fun ev _ leftText rightText => steady _ _ ev leftText rightText) tested emitted tests emits)
    have count : emitted.length = (cpr.outputEvents activation.1).length := by
      rw [(mapM_results _ _ emitted emits).2, List.length_map]
    constructor
    · intro right
      rcases decided with ⟨holds, -⟩ | ⟨-, none, frozen⟩
      · exact ⟨holds, fun ifBlock => by omega⟩
      · exact absurd right (select_wrong cpr heads activation.1 tmp tested emitted synchro kind none
          frozen same count written)
    · rintro ⟨holds, -⟩
      rcases decided with ⟨-, follows⟩ | ⟨fails, -⟩
      · exact select_right cpr heads activation.1 tmp tested emitted block kind modes follows same
          count
      · exact absurd holds fails

/-- On a well formed schedule the derivative code exists exactly if the generator does not
stop at a `tmp_` that was never set; and exactly the fragments that meet the condition
are right. The number of levels is bounded by that of the events, and from there on the
result does not depend on it. -/
theorem fragments_right_iff (cpr : Compiled) (wellFormed : WellFormed cpr)
    (modes : ∀ bk, 0 ≤ nmode cpr bk) (flag : Nat) :
    ∃ bound, ∀ fuel, bound ≤ fuel →
      ((∃ text, writeCodeOdoit cpr fuel flag = some text) ↔ ¬ Halts cpr flag cpr.oord) ∧
      ∀ nested piece, Reached cpr fuel flag nested piece →
        (Right cpr piece ↔ Condition cpr nested piece) := by
  refine ⟨{ev | IsEvent cpr ev}.ncard + 1, fun fuel deep => ⟨odoit_iff wellFormed flag fuel deep, ?_⟩⟩
  intro nested piece reached
  have known := reached_known wellFormed fuel flag nested piece reached
  by_cases synchro : cpr.Ordinary piece.bk
  · exact ⟨fun _ other => absurd synchro other, fun _ other => absurd synchro other⟩
  by_cases written : piece.text = []
  · exact ⟨fun _ _ text => absurd written text, fun _ _ text => absurd written text⟩
  have condition : Condition cpr nested piece ↔ (nested = false → 0 < nmode cpr piece.bk) ∧
      (cpr.funtyp piece.bk = -1 →
        (Searched cpr (cpr.testedLink piece.bk) → nested = false) ∧
        (¬ Searched cpr (cpr.testedLink piece.bk) →
          denotes cpr piece.inherited = some (cpr.testedLink piece.bk))) :=
    ⟨fun holds => holds synchro written, fun holds _ _ => holds⟩
  rw [condition]
  cases reached with
  | top pieces generated piece member =>
    obtain ⟨activation, -, before, after, here⟩ :=
      mem_fragments _ _ _ _ pieces generated piece member
    rw [fragment_bk _ _ _ _ _ _ here] at synchro known ⊢
    rw [fragment_right_iff (odoitHeads cpr flag) _ (ozdoit_steady cpr fuel flag) before after
      activation piece here known (modes _) synchro written _ (odoit_decided flag _ (modes _))]
    simp only [odoitHeads, search_outptr, forall_const, true_and, implies_true]
  | inner level outer reached _ ev output deeper pieces generated piece member =>
    obtain ⟨activation, -, before, after, here⟩ :=
      mem_fragments _ _ _ _ pieces generated piece member
    rw [fragment_bk _ _ _ _ _ _ here] at synchro known ⊢
    rw [fragment_right_iff (ozdoitHeads cpr flag) _ (ozdoit_steady cpr deeper flag) before after
      activation piece here known (modes _) synchro written True
      (Or.inl ⟨trivial, ozdoit_follows cpr flag _⟩)]
    simp only [ozdoitHeads, search_foreign]
    constructor
    · rintro ⟨-, cell⟩
      exact ⟨fun top => Bool.noConfusion top, fun kind =>
        ⟨fun searched => absurd searched (cell kind).1, fun _ => (cell kind).2⟩⟩
    · rintro ⟨-, cell⟩
      exact ⟨trivial, fun kind => ⟨fun searched => Bool.noConfusion ((cell kind).1 searched),
        (cell kind).2 fun searched => Bool.noConfusion ((cell kind).1 searched)⟩⟩

/-- An instance: the derivative code of the sample whose block 2 has a mode. -/
theorem sample_fragments : ∃ bound, ∀ fuel, bound ≤ fuel →
    ((∃ text, writeCodeOdoit (sample 1) fuel 0 = some text) ↔
      ¬ Halts (sample 1) 0 (sample 1).oord) ∧
      ∀ nested piece, Reached (sample 1) fuel 0 nested piece →
        (Right (sample 1) piece ↔ Condition (sample 1) nested piece) := by
  refine fragments_right_iff (sample 1) (sample_wellFormed 1) (fun bk => ?_) 0
  simp only [nmode, size, sample]
  split_ifs <;> omega

/-- If no block drives its link, the generator stops at block 2. -/
example : writeCodeOdoit { sample 1 with outlnk := fun _ => 7 } 5 0 = none := rfl

/-- The text of block 2 of the sample, whose first alternative calls the integrator. -/
def sampleFragment : Fragment :=
  (ifFragment (sample 0) (odoitHeads (sample 0) 0) 2 .unset
    (placed (callBlock42 (sample 0) 3 1 0)) []).1

/-- Without modes block 2 of the sample has a text in the derivative code, but in
the solver phase it never runs it: the integrator stands still. -/
theorem frozen_branch : WellFormed (sample 0) ∧ (∀ bk, 0 ≤ nmode (sample 0) bk) ∧
    Reached (sample 0) 5 0 false sampleFragment ∧ sampleFragment.text ≠ [] ∧
    ¬ Right (sample 0) sampleFragment := by
  have written : sampleFragment.text ≠ [] := List.cons_ne_nil _ _
  refine ⟨sample_wellFormed 0, fun bk => ?_, ?_, written, ?_⟩
  · simp only [nmode, size, sample]
    split_ifs <;> omega
  · exact .top [sampleFragment] rfl sampleFragment List.mem_cons_self
  · exact if_wrong (sample 0) _ 2 .unset _ [] (sample_synchro 0).not_ordinary rfl rfl
      (odoit_frozen (sample 0) 0 2 rfl) written

end Main

end ScicosFlex.Codegen
