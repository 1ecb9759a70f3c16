import ScicosFlex.Codegen.Schedule

/-!
# What a schedule reaches

`Reaches` are the activations below a list, as far as synchronisation blocks of some
kind lead, and `HasCode` those for which a generator emits any text. Both speak about
the schedule alone, so that conditions on generated texts can be said without them.
-/

namespace ScicosFlex.Codegen

open Compiled Library.AcyclicRecursion

section Reached

variable (cpr : Compiled)

/-- The activations of a list and of all events below it, as far as blocks of one
kind lead. -/
inductive Reaches (through : Nat → Prop) (start : List Activation) : Activation → Prop
  | here (activation : Activation) (member : activation ∈ start) : Reaches through start activation
  | inner (outer : Activation) (reached : Reaches through start outer) (kind : through outer.1)
      (ev : Nat) (output : ev ∈ cpr.outputEvents outer.1) (activation : Activation)
      (member : activation ∈ cpr.activations ev) : Reaches through start activation

/-- The kinds of blocks that lead to further activations. -/
def AnySynchro (bk : Nat) : Prop := ¬ cpr.Ordinary bk
def IfThenElse (bk : Nat) : Prop := cpr.funtyp bk = -1

/-- If a generator emits a text for some ordinary activations, it also emits one
for all synchronisation blocks above them. -/
inductive HasCode (emits : Activation → Prop) : Activation → Prop
  | call (activation : Activation) (ordinary : cpr.Ordinary activation.1)
      (emitted : emits activation) : HasCode emits activation
  | inner (activation : Activation) (synchro : ¬ cpr.Ordinary activation.1) (ev : Nat)
      (output : ev ∈ cpr.outputEvents activation.1) (other : Activation)
      (member : other ∈ cpr.activations ev) (code : HasCode emits other) : HasCode emits activation

variable {cpr}

/-- What is reached from a list is in it or reached from an event of one of its blocks. -/
theorem reaches_iff (through : Nat → Prop) (start : List Activation) (activation : Activation) :
    Reaches cpr through start activation ↔ activation ∈ start ∨
      ∃ outer ∈ start, through outer.1 ∧ ∃ ev ∈ cpr.outputEvents outer.1,
        Reaches cpr through (cpr.activations ev) activation := by
  constructor
  · intro reached
    induction reached with
    | here activation member => exact Or.inl member
    | inner outer reached kind ev output activation member inductionHypothesis =>
      rcases inductionHypothesis with start | ⟨first, inside, other, event, out, path⟩
      · exact Or.inr ⟨outer, start, kind, ev, output, .here activation member⟩
      · exact Or.inr ⟨first, inside, other, event, out,
          .inner outer path kind ev output activation member⟩
  · rintro (member | ⟨outer, inside, kind, ev, output, path⟩)
    · exact .here activation member
    · induction path with
      | here activation member => exact .inner outer (.here outer inside) kind ev output _ member
      | inner middle _ other event out activation member inductionHypothesis =>
        exact .inner middle inductionHypothesis other event out activation member

/-- A statement about all that is reached, one level unfolded. -/
theorem forall_reaches_iff (through : Nat → Prop) (start : List Activation)
    (P : Activation → Prop) :
    (∀ activation, Reaches cpr through start activation → P activation) ↔
      ∀ outer ∈ start, P outer ∧ (through outer.1 → ∀ ev ∈ cpr.outputEvents outer.1,
        ∀ activation, Reaches cpr through (cpr.activations ev) activation → P activation) := by
  constructor
  · intro all outer member
    refine ⟨all outer (.here outer member), fun kind ev output activation path => ?_⟩
    exact all activation ((reaches_iff _ _ _).mpr (Or.inr ⟨outer, member, kind, ev, output, path⟩))
  · intro all activation reached
    rcases (reaches_iff _ _ _).mp reached with member | ⟨outer, member, kind, ev, output, path⟩
    · exact (all activation member).1
    · exact (all outer member).2 kind ev output activation path

/-- An ordinary activation has code if it gets a text itself, a synchronisation
block if something below it has. -/
theorem hasCode_iff (emits : Activation → Prop) (activation : Activation) :
    HasCode cpr emits activation ↔ (cpr.Ordinary activation.1 ∧ emits activation) ∨
      (¬ cpr.Ordinary activation.1 ∧ ∃ ev ∈ cpr.outputEvents activation.1,
        ∃ other ∈ cpr.activations ev, HasCode cpr emits other) := by
  constructor
  · intro code
    cases code with
    | call activation ordinary emitted => exact Or.inl ⟨ordinary, emitted⟩
    | inner activation synchro ev output other member code =>
      exact Or.inr ⟨synchro, ev, output, other, member, code⟩
  · rintro (⟨ordinary, emitted⟩ | ⟨synchro, ev, output, other, member, code⟩)
    · exact .call activation ordinary emitted
    · exact .inner activation synchro ev output other member code

/-- A generator that emits less has less code. -/
theorem HasCode.mono {less more : Activation → Prop}
    (weaker : ∀ activation, less activation → more activation) {activation : Activation}
    (code : HasCode cpr less activation) : HasCode cpr more activation := by
  induction code with
  | call activation ordinary emitted => exact .call activation ordinary (weaker activation emitted)
  | inner activation synchro ev output other member _ inductionHypothesis =>
    exact .inner activation synchro ev output other member inductionHypothesis

/-- Something that is reached, one level unfolded. -/
theorem exists_reaches_iff (through : Nat → Prop) (start : List Activation)
    (P : Activation → Prop) :
    (∃ inner, Reaches cpr through start inner ∧ P inner) ↔
      ∃ outer ∈ start, P outer ∨ through outer.1 ∧ ∃ ev ∈ cpr.outputEvents outer.1,
        ∃ inner, Reaches cpr through (cpr.activations ev) inner ∧ P inner := by
  constructor
  · rintro ⟨inner, reached, holds⟩
    rcases (reaches_iff _ _ _).mp reached with member | ⟨outer, member, kind, ev, output, path⟩
    · exact ⟨inner, member, Or.inl holds⟩
    · exact ⟨outer, member, Or.inr ⟨kind, ev, output, inner, path, holds⟩⟩
  · rintro ⟨outer, member, holds | ⟨kind, ev, output, inner, path, holds⟩⟩
    · exact ⟨outer, .here outer member, holds⟩
    · exact ⟨inner, (reaches_iff _ _ _).mpr (Or.inr ⟨outer, member, kind, ev, output, path⟩), holds⟩

/-- An if-then-else block has no computational function. -/
theorem ifThenElse_not_ordinary {bk : Nat} (kind : IfThenElse cpr bk) : ¬ cpr.Ordinary bk := by
  unfold IfThenElse at kind
  unfold Ordinary
  omega

end Reached

section Written

variable {cpr : Compiled}

/-- The ordinary activations for which an emission has a text. -/
def Emitted (emission : Emission) (activation : Activation) : Prop :=
  emission.ordinary activation ≠ []

/-- When an activation has a text. An event-select block is written for the sake of the
texts it is tested with, even if those emitted for its cases are others. -/
theorem piece_written (emission : Emission) (branch test emit : Nat → Text)
    (activation : Activation) (known : Known cpr activation) :
    pieceText cpr emission branch test emit activation ≠ [] ↔
      (cpr.Ordinary activation.1 ∧ Emitted emission activation) ∨
      (cpr.funtyp activation.1 = -1 ∧ ∃ ev ∈ cpr.outputEvents activation.1, branch ev ≠ []) ∨
      (cpr.funtyp activation.1 = -2 ∧ ∃ ev ∈ cpr.outputEvents activation.1, test ev ≠ []) := by
  rcases known with ordinary | synchro
  · have notIf : ¬ cpr.funtyp activation.1 = -1 := by unfold Ordinary at ordinary; omega
    have notSelect : ¬ cpr.funtyp activation.1 = -2 := by unfold Ordinary at ordinary; omega
    simp [pieceText, ordinary, notIf, notSelect, Emitted]
  · have other := synchro.not_ordinary
    rcases synchro.kind with ⟨kind, two⟩ | ⟨kind, some⟩
    · have both : (∃ ev ∈ cpr.outputEvents activation.1, branch ev ≠ []) ↔
          branch (cpr.clkptr activation.1) ≠ [] ∨ branch (cpr.clkptr activation.1 + 1) ≠ [] := by
        simp [if_outputEvents two]
      rw [both]
      have notSelect : ¬ (-1 : Int) = -2 := by omega
      simp only [pieceText, other, kind, if_true, if_false, false_and, false_or, true_and, notSelect,
        or_false]
      unfold ifPiece
      by_cases empty : branch (cpr.clkptr activation.1) = [] ∧
          branch (cpr.clkptr activation.1 + 1) = []
      · simp [empty]
      · rw [if_neg (by simpa using empty)]
        simp only [ne_eq, List.cons_ne_nil, not_false_eq_true, true_iff]
        exact Decidable.not_and_iff_not_or_not.mp empty
    · have notIf : ¬ (-2 : Int) = -1 := by omega
      simp only [pieceText, other, kind, if_false, false_and, false_or, true_and, notIf]
      unfold selectPiece
      by_cases empty : labels ((cpr.outputEvents activation.1).map test) = []
      · have none := (labels_nil_iff test activation.1).mp empty
        rw [if_pos (by rw [empty]; rfl)]
        simp only [ne_eq, not_true_eq_false, false_iff, not_exists, not_and, not_not]
        exact none
      · rw [if_neg (by simpa using empty)]
        simp only [ne_eq, List.cons_ne_nil, not_false_eq_true, true_iff]
        refine Classical.byContradiction fun none => empty ?_
        refine (labels_nil_iff test activation.1).mpr fun ev output => ?_
        exact Decidable.byContradiction fun written => none ⟨ev, output, written⟩

/-- An activation has code if, for an ordinary block, it is emitted, and otherwise
one of its output events has a text. -/
theorem hasCode_iff_written (emits : Activation → Prop) (activation : Activation)
    (known : Known cpr activation) (written : Nat → Prop)
    (texts : ¬ cpr.Ordinary activation.1 → ∀ ev ∈ cpr.outputEvents activation.1,
      written ev ↔ ∃ other ∈ cpr.activations ev, HasCode cpr emits other) :
    HasCode cpr emits activation ↔ (cpr.Ordinary activation.1 ∧ emits activation) ∨
      (cpr.funtyp activation.1 = -1 ∧ ∃ ev ∈ cpr.outputEvents activation.1, written ev) ∨
      (cpr.funtyp activation.1 = -2 ∧ ∃ ev ∈ cpr.outputEvents activation.1, written ev) := by
  rw [hasCode_iff, ← or_and_right]
  apply or_congr_right
  have kinds : ¬ cpr.Ordinary activation.1 ↔
      cpr.funtyp activation.1 = -1 ∨ cpr.funtyp activation.1 = -2 := by
    rcases known with ordinary | synchro
    · unfold Ordinary at ordinary ⊢
      omega
    · apply iff_of_true synchro.not_ordinary
      rcases synchro.kind with ⟨kind, -⟩ | ⟨kind, -⟩
      · exact Or.inl kind
      · exact Or.inr kind
  rw [← kinds]
  refine and_congr_right fun other => exists_congr fun ev => and_congr_right fun output => ?_
  exact (texts other ev output).symm

/-- An event-select block has code if one of its output events has a text. -/
theorem select_code (emits : Activation → Prop) (activation : Activation)
    (known : Known cpr activation) (kind : cpr.funtyp activation.1 = -2) (written : Nat → Prop)
    (texts : ∀ ev ∈ cpr.outputEvents activation.1,
      written ev ↔ ∃ other ∈ cpr.activations ev, HasCode cpr emits other) :
    HasCode cpr emits activation ↔ ∃ ev ∈ cpr.outputEvents activation.1, written ev := by
  have other : ¬ cpr.Ordinary activation.1 := by
    unfold Ordinary
    omega
  rw [hasCode_iff_written emits activation known written fun _ => texts]
  simp [other, kind]

/-- The texts of a generator that calls itself everywhere. -/
def Solves (cpr : Compiled) (emission : Emission) (t : Nat → Text) : Prop :=
  ∀ ev, IsEvent cpr ev → t ev = (cpr.activations ev).flatMap (pieceText cpr emission t t t)

/-- An event has a text if one of its activations has code. -/
theorem texts_written (wellFormed : WellFormed cpr) (emission : Emission) (t : Nat → Text)
    (solves : Solves cpr emission t) (ev : Nat) (inside : IsEvent cpr ev) :
    t ev ≠ [] ↔ ∃ activation ∈ cpr.activations ev, HasCode cpr (Emitted emission) activation := by
  revert ev
  apply acyclic_induction wellFormed.graph
  intro ev inside below
  rw [solves ev inside, ne_eq, List.flatMap_eq_nil_iff]
  simp only [not_forall, exists_prop]
  refine exists_congr fun activation => and_congr_right fun member => ?_
  have known := wellFormed.known ev inside activation member
  rw [← ne_eq, piece_written emission t t t activation known]
  refine (hasCode_iff_written _ activation known (fun ev => t ev ≠ []) ?_).symm
  intro synchro other output
  have edge : Activates cpr ev other := ⟨activation, member, synchro, output⟩
  exact below other edge (wellFormed.graph.closed ev other inside edge)

end Written

end ScicosFlex.Codegen
