import ScicosFlex.Codegen.Names
import ScicosFlex.Codegen.Reinitdoit

/-!
# Scopes of walked schedules

What has to be declared for the text of a whole schedule, said on the schedule
itself. The heads of if-then-else blocks only use names that are
always declared; the heads of event-select blocks also use the variable `i`. So the
text of a list is scoped exactly if the calling sequences of all reached ordinary
blocks are and no event-select block with code is reached where `i` is not declared
(`walk_scoped`).
-/

namespace ScicosFlex.Codegen

open Compiled Library.AcyclicRecursion

section Pieces

variable {cpr : Compiled} (declared : Ident → Prop)

/-- Heads that use no undeclared names but perhaps `i`. -/
structure PlainHeads (emission : Emission) (bk : Nat) : Prop where
  ifThenElse : ∀ thentxt elsetxt, Scoped declared (emission.ifThenElse bk thentxt elsetxt) ↔
    Scoped declared thentxt ∧ Scoped declared elsetxt
  eventSelect : ∀ labels body, Scoped declared (emission.eventSelect bk labels body) ↔
    declared .i ∧ ∀ label ∈ labels, Scoped declared (body label)

variable {declared}

/-- The heads of `write_code_doit` and its relatives are plain. -/
theorem doit_heads (emission : Emission) (ifHead : emission.ifThenElse = ifPositive cpr)
    (selectHead : emission.eventSelect = switchLink cpr) (bk : Nat) (array : declared .blockArray)
    (link : declared (.outtb (cpr.testedLink bk))) : PlainHeads declared emission bk where
  ifThenElse thentxt elsetxt := by
    simp [ifHead, ifPositive, scoped_ifElse, TestScoped, testNames, cellNames, link]
  eventSelect labels body := by
    rw [selectHead, switchLink, scoped_cons, scoped_cons, scoped_switchI]
    simp [StmtScoped, stmtNames, selectorNames, cellNames, link, array]

/-- The heads of `write_code_reinitdoit` are plain. -/
theorem reinitdoit_heads (flag bk : Nat) (array : declared .blockArray)
    (link : declared (.outtb (cpr.testedLink bk))) :
    PlainHeads declared (reinitdoitEmission cpr flag) bk where
  ifThenElse thentxt elsetxt := by
    simp [reinitdoitEmission, scoped_ifElseIf, TestScoped, branchTest, odoitHeads, testNames,
      cellNames, link, array]
  eventSelect labels body := by
    rw [reinitdoitEmission, scoped_cons, scoped_cons, scoped_switchI]
    simp [StmtScoped, stmtNames, selectorNames, testNames, cellNames, link, array]

/-- What has to be declared for one activation: the names of its calls, those in its
alternatives, and `i` where there are cases. -/
theorem piece_scoped (emission : Emission) (branch test emit : Nat → Text)
    (activation : Activation) (known : Known cpr activation)
    (heads : ¬ cpr.Ordinary activation.1 → PlainHeads declared emission activation.1) :
    Scoped declared (pieceText cpr emission branch test emit activation) ↔
      (cpr.Ordinary activation.1 → Scoped declared (emission.ordinary activation)) ∧
      (cpr.funtyp activation.1 = -1 → ∀ ev ∈ cpr.outputEvents activation.1,
        Scoped declared (branch ev)) ∧
      (cpr.funtyp activation.1 = -2 → ∀ ev ∈ cpr.outputEvents activation.1, test ev ≠ [] →
        declared .i ∧ Scoped declared (emit ev)) := by
  rcases known with ordinary | synchro
  · have notIf : ¬ cpr.funtyp activation.1 = -1 := by unfold Ordinary at ordinary; omega
    have notSelect : ¬ cpr.funtyp activation.1 = -2 := by unfold Ordinary at ordinary; omega
    simp [pieceText, ordinary, notIf, notSelect]
  · have other := synchro.not_ordinary
    have plain := heads other
    rcases synchro.kind with ⟨kind, two⟩ | ⟨kind, some⟩
    · have notSelect : ¬ (-1 : Int) = -2 := by omega
      simp only [pieceText, other, kind, if_true, if_false, false_imp_iff, true_and, true_imp_iff,
        notSelect, and_true, if_outputEvents two, List.forall_mem_cons]
      unfold ifPiece
      split
      · rename_i empty
        obtain ⟨thenNone, elseNone⟩ := by simpa using empty
        rw [thenNone, elseNone]
        simp
      · rw [scoped_cons, plain.ifThenElse]
        simp [scoped_line, lineNames]
    · have notIf : ¬ (-2 : Int) = -1 := by omega
      simp only [pieceText, other, kind, if_false, false_imp_iff, true_and, true_imp_iff, notIf]
      unfold selectPiece
      by_cases empty : labels ((cpr.outputEvents activation.1).map test) = []
      · rw [if_pos (by rw [empty]; rfl)]
        refine ⟨fun _ ev output written => ?_, fun _ => scoped_nil declared⟩
        exact absurd ((labels_nil_iff test activation.1).mp empty ev output) written
      · rw [if_neg (by simpa using empty), scoped_cons, plain.eventSelect,
          forall_labels_iff test emit activation.1 (Scoped declared)]
        constructor
        · rintro ⟨-, i, bodies⟩ ev output written
          exact ⟨i, bodies ev output written⟩
        · intro all
          refine ⟨by simp [scoped_line, lineNames], ?_, fun ev output written => ?_⟩
          · obtain ⟨label, member⟩ := List.exists_mem_of_ne_nil _ empty
            exact (forall_labels_iff test test activation.1 fun _ => declared .i).mpr
              (fun ev output written => (all ev output written).1) label member
          · exact (all ev output written).2

end Pieces

section Walks

variable {cpr : Compiled}

/-- What a reached activation needs: an ordinary block the names of its calls, an
event-select block with code the variable `i`. -/
def Fine (cpr : Compiled) (declared : Ident → Prop) (emission : Emission)
    (activation : Activation) : Prop :=
  (cpr.Ordinary activation.1 → Scoped declared (emission.ordinary activation)) ∧
  (cpr.funtyp activation.1 = -2 → HasCode cpr (Emitted emission) activation → declared .i)

/-- One level of a walk, if the texts of the output events are already described. -/
theorem walk_level (wellFormed : WellFormed cpr) {declared : Ident → Prop} (emission : Emission)
    (t : Nat → Text) (solves : Solves cpr emission t)
    (heads : ∀ bk, Synchro cpr bk → PlainHeads declared emission bk) (start : List Activation)
    (known : ∀ activation ∈ start, Known cpr activation)
    (below : ∀ activation ∈ start, ¬ cpr.Ordinary activation.1 →
      ∀ ev ∈ cpr.outputEvents activation.1, Scoped declared (t ev) ↔
        ∀ inner, Reaches cpr (AnySynchro cpr) (cpr.activations ev) inner →
          Fine cpr declared emission inner) :
    Scoped declared (start.flatMap (pieceText cpr emission t t t)) ↔
      ∀ activation, Reaches cpr (AnySynchro cpr) start activation →
        Fine cpr declared emission activation := by
  rw [scoped_flatMap, forall_reaches_iff]
  apply forall₂_congr
  intro activation member
  rw [piece_scoped emission t t t activation (known activation member)
    fun synchro => heads _ ((known activation member).resolve_left synchro)]
  rcases known activation member with ordinary | synchro
  · have notIf : ¬ cpr.funtyp activation.1 = -1 := by unfold Ordinary at ordinary; omega
    have notSelect : ¬ cpr.funtyp activation.1 = -2 := by unfold Ordinary at ordinary; omega
    simp [Fine, ordinary, notIf, notSelect, AnySynchro]
  · have other := synchro.not_ordinary
    have texts : (AnySynchro cpr activation.1 → ∀ ev ∈ cpr.outputEvents activation.1, ∀ inner,
        Reaches cpr (AnySynchro cpr) (cpr.activations ev) inner →
          Fine cpr declared emission inner) ↔
        ∀ ev ∈ cpr.outputEvents activation.1, Scoped declared (t ev) := by
      constructor
      · exact fun all ev output => (below activation member other ev output).mpr (all other ev output)
      · exact fun all _ ev output => (below activation member other ev output).mp (all ev output)
    rw [texts]
    rcases synchro.kind with ⟨kind, -⟩ | ⟨kind, -⟩
    · have notSelect : ¬ (-1 : Int) = -2 := by omega
      simp [Fine, other, kind, notSelect]
    · have notIf : ¬ (-2 : Int) = -1 := by omega
      have code := select_code (Emitted emission) activation (Or.inr synchro) kind (fun ev => t ev ≠ [])
        fun ev output => texts_written wellFormed emission t solves ev (synchro.events ev output)
      simp only [Fine, other, kind, notIf, false_imp_iff, true_imp_iff, true_and, code]
      constructor
      · intro all
        refine ⟨fun ⟨ev, output, written⟩ => (all ev output written).1, fun ev output => ?_⟩
        by_cases written : t ev = []
        · rw [written]
          exact scoped_nil declared
        · exact (all ev output written).2
      · rintro ⟨i, all⟩ ev output written
        exact ⟨i ⟨ev, output, written⟩, all ev output⟩

/-- The text of a list is scoped if the calls of all reached blocks are and `i` is
declared where an event-select block with code is reached. -/
theorem walk_scoped (wellFormed : WellFormed cpr) {declared : Ident → Prop} (emission : Emission)
    (t : Nat → Text) (solves : Solves cpr emission t)
    (heads : ∀ bk, Synchro cpr bk → PlainHeads declared emission bk) (start : List Activation)
    (known : ∀ activation ∈ start, Known cpr activation) :
    Scoped declared (start.flatMap (pieceText cpr emission t t t)) ↔
      ∀ activation, Reaches cpr (AnySynchro cpr) start activation →
        Fine cpr declared emission activation := by
  have events : ∀ ev, IsEvent cpr ev → (Scoped declared (t ev) ↔
      ∀ activation, Reaches cpr (AnySynchro cpr) (cpr.activations ev) activation →
        Fine cpr declared emission activation) := by
    apply acyclic_induction wellFormed.graph
    intro ev inside below
    rw [solves ev inside]
    apply walk_level wellFormed emission t solves heads _ (wellFormed.known ev inside)
    intro activation member synchro other output
    have edge : Activates cpr ev other := ⟨activation, member, synchro, output⟩
    exact below other edge (wellFormed.graph.closed ev other inside edge)
  apply walk_level wellFormed emission t solves heads start known
  intro activation member synchro ev output
  exact events ev (((known activation member).resolve_left synchro).events ev output)

/-- One level of a walk where `i` is not declared: no event-select block may have a text. -/
theorem level_without_i {declared : Ident → Prop} (undeclared : ¬ declared .i) (emission : Emission)
    (branch test emit : Nat → Text)
    (heads : ∀ bk, Synchro cpr bk → PlainHeads declared emission bk) (start : List Activation)
    (known : ∀ activation ∈ start, Known cpr activation) :
    Scoped declared (start.flatMap (pieceText cpr emission branch test emit)) ↔
      ∀ activation ∈ start,
        (cpr.Ordinary activation.1 → Scoped declared (emission.ordinary activation)) ∧
        (IfThenElse cpr activation.1 → ∀ ev ∈ cpr.outputEvents activation.1,
          Scoped declared (branch ev)) ∧
        (cpr.funtyp activation.1 = -2 → ∀ ev ∈ cpr.outputEvents activation.1, test ev = []) := by
  rw [scoped_flatMap]
  apply forall₂_congr
  intro activation member
  rw [piece_scoped emission branch test emit activation (known activation member)
    fun synchro => heads _ ((known activation member).resolve_left synchro)]
  simp only [undeclared, false_and, imp_false, IfThenElse, ne_eq, not_not]

/-- What an activation needs in a text without `i` whose event-select blocks have
code under some condition. -/
def FineWithoutI (cpr : Compiled) (declared : Ident → Prop) (emission : Emission)
    (code : Activation → Prop) (activation : Activation) : Prop :=
  (cpr.Ordinary activation.1 → Scoped declared (emission.ordinary activation)) ∧
  (cpr.funtyp activation.1 = -2 → ¬ code activation)

/-- The alternatives of an event-select block are all empty if it has no code. -/
theorem silent_select (emits : Activation → Prop)
    (activation : Activation) (known : Known cpr activation) (t : Nat → Text)
    (written : ∀ ev, IsEvent cpr ev →
      (t ev ≠ [] ↔ ∃ other ∈ cpr.activations ev, HasCode cpr emits other)) :
    (cpr.funtyp activation.1 = -2 → ∀ ev ∈ cpr.outputEvents activation.1, t ev = []) ↔
      (cpr.funtyp activation.1 = -2 → ¬ HasCode cpr emits activation) := by
  apply forall_congr'
  intro kind
  have synchro : Synchro cpr activation.1 := known.resolve_left (by unfold Ordinary; omega)
  rw [select_code emits activation known kind (fun ev => t ev ≠ [])
    fun ev output => written ev (synchro.events ev output)]
  simp only [not_exists, not_and, ne_eq, not_not]

/-- The texts of `write_code_initdoit`, which calls itself only for if-then-else
blocks, where `i` is not declared. -/
theorem initdoit_scoped (wellFormed : WellFormed cpr) {declared : Ident → Prop}
    (undeclared : ¬ declared .i) (emission nested : Emission) (s t : Nat → Text)
    (own : ∀ ev, IsEvent cpr ev → s ev = (cpr.activations ev).flatMap (pieceText cpr emission s t t))
    (solves : Solves cpr nested t)
    (heads : ∀ bk, Synchro cpr bk → PlainHeads declared emission bk) (ev : Nat)
    (inside : IsEvent cpr ev) :
    Scoped declared (s ev) ↔
      ∀ activation, Reaches cpr (IfThenElse cpr) (cpr.activations ev) activation →
        FineWithoutI cpr declared emission (HasCode cpr (Emitted nested)) activation := by
  revert ev
  apply acyclic_induction wellFormed.graph
  intro ev inside below
  rw [own ev inside, level_without_i undeclared emission s t t heads _ (wellFormed.known ev inside),
    forall_reaches_iff]
  apply forall₂_congr
  intro activation member
  have known := wellFormed.known ev inside activation member
  have branches : (IfThenElse cpr activation.1 → ∀ other ∈ cpr.outputEvents activation.1,
        Scoped declared (s other)) ↔
      (IfThenElse cpr activation.1 → ∀ other ∈ cpr.outputEvents activation.1, ∀ inner,
        Reaches cpr (IfThenElse cpr) (cpr.activations other) inner →
          FineWithoutI cpr declared emission (HasCode cpr (Emitted nested)) inner) := by
    refine forall_congr' fun kind => forall_congr' fun other => imp_congr_right fun output => ?_
    have synchro := ifThenElse_not_ordinary kind
    have edge : Activates cpr ev other := ⟨activation, member, synchro, output⟩
    exact below other edge (wellFormed.graph.closed ev other inside edge)
  have selects : (cpr.funtyp activation.1 = -2 → ∀ other ∈ cpr.outputEvents activation.1,
        t other = []) ↔
      (cpr.funtyp activation.1 = -2 → ¬ HasCode cpr (Emitted nested) activation) :=
    silent_select (Emitted nested) activation known t
      (texts_written wellFormed nested t solves)
  rw [branches, selects, FineWithoutI]
  constructor
  · rintro ⟨ordinary, below, silent⟩
    exact ⟨⟨ordinary, silent⟩, below⟩
  · rintro ⟨⟨ordinary, silent⟩, below⟩
    exact ⟨ordinary, below, silent⟩

/-- The text of `write_code_reinitdoit` where `i` is not declared. The event-select blocks
of its own list are tested by another generator, which has texts for more activations. -/
theorem reinit_scoped (wellFormed : WellFormed cpr) {declared : Ident → Prop}
    (undeclared : ¬ declared .i) (own emission nested : Emission) (tested : Activation → Prop)
    (s t u : Nat → Text)
    (solved : ∀ ev, IsEvent cpr ev → s ev =
      (cpr.activations ev).flatMap (pieceText cpr emission s t t))
    (solves : Solves cpr nested t)
    (written : ∀ ev, IsEvent cpr ev →
      (u ev ≠ [] ↔ ∃ activation ∈ cpr.activations ev, HasCode cpr tested activation))
    (more : ∀ activation, Emitted nested activation → tested activation)
    (same : own.ordinary = emission.ordinary)
    (ownHeads : ∀ bk, Synchro cpr bk → PlainHeads declared own bk)
    (heads : ∀ bk, Synchro cpr bk → PlainHeads declared emission bk) (start : List Activation)
    (known : ∀ activation ∈ start, Known cpr activation) :
    Scoped declared (start.flatMap (pieceText cpr own s u s)) ↔
      (∀ activation, Reaches cpr (IfThenElse cpr) start activation →
        FineWithoutI cpr declared emission (HasCode cpr (Emitted nested)) activation) ∧
      ∀ activation ∈ start, cpr.funtyp activation.1 = -2 → ¬ HasCode cpr tested activation := by
  rw [level_without_i undeclared own s u s ownHeads start known, forall_reaches_iff,
    ← forall₂_and, same]
  apply forall₂_congr
  intro activation member
  have branches : (IfThenElse cpr activation.1 → ∀ ev ∈ cpr.outputEvents activation.1,
        Scoped declared (s ev)) ↔
      (IfThenElse cpr activation.1 → ∀ ev ∈ cpr.outputEvents activation.1, ∀ inner,
        Reaches cpr (IfThenElse cpr) (cpr.activations ev) inner →
          FineWithoutI cpr declared emission (HasCode cpr (Emitted nested)) inner) := by
    refine forall_congr' fun kind => forall_congr' fun ev => imp_congr_right fun output => ?_
    have synchro := (known activation member).resolve_left (ifThenElse_not_ordinary kind)
    exact initdoit_scoped wellFormed undeclared emission nested s t solved solves heads ev
      (synchro.events ev output)
  have selects := silent_select tested activation (known activation member) u written
  have less : ¬ HasCode cpr tested activation → ¬ HasCode cpr (Emitted nested) activation :=
    mt (HasCode.mono more)
  rw [branches, selects, FineWithoutI]
  constructor
  · rintro ⟨ordinary, below, silent⟩
    exact ⟨⟨⟨ordinary, fun kind => less (silent kind)⟩, below⟩, silent⟩
  · rintro ⟨⟨⟨ordinary, -⟩, below⟩, silent⟩
    exact ⟨ordinary, below, silent⟩

end Walks

end ScicosFlex.Codegen
