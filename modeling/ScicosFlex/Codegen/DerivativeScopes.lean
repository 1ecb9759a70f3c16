import ScicosFlex.Codegen.Scopes

/-!
# Scopes of the derivative code

What has to be declared for the texts of `write_code_odoit` and
`write_code_ozdoit`. The names in the head lines of an if-then-else block depend on
`tmp_`, which is carried along the list. As long as everything emitted so far is
scoped, `tmp_` holds declared names only, so one fragment after the other can be
described without knowing the value (`fragments_scoped`). The nested generator then
needs that no reached if-then-else block with code has a link that the search
finds, since it would name the array the wrong way round (`ozdoit_scoped`).
-/

namespace ScicosFlex.Codegen

open Compiled Library.AcyclicRecursion

section Scoped

variable {cpr : Compiled} {declared : Ident → Prop}

/-- Some declarations declare all names of a tested expression. -/
def CellScoped (declared : Ident → Prop) (cell : Cell) : Prop :=
  ∀ name ∈ cellNames cell, declared name

variable (cpr declared) in
/-- The heads of a generator use declared names, except those of an if-then-else
block whose link is `stray`. -/
structure LinkHeads (heads : DerivativeHeads) (stray : Nat → Prop) : Prop where
  link : ∀ bk, TestScoped declared (heads.followsLink bk)
  mode : ∀ bk, TestScoped declared (heads.followsMode bk)
  search : ∀ link tmp, CellScoped declared tmp →
    (CellScoped declared (searchProducer cpr heads.found link tmp) ↔ ¬ stray link)

/-- In `write_code_ozdoit` the links that the search finds are stray. -/
theorem ozdoit_heads (flag : Nat) (array : declared .blockArray) (phase : declared .phase)
    (undeclared : ¬ declared .reversedArray) :
    LinkHeads cpr declared (ozdoitHeads cpr flag) (Searched cpr) where
  link bk := by simp [TestScoped, ozdoitHeads, testNames, array, phase]
  mode bk := by simp [TestScoped, ozdoitHeads, testNames, array, phase]
  search link tmp named := by
    simp only [ozdoitHeads]
    rcases search_cases cpr .foreign link tmp with ⟨searched, bk, port, result, -⟩ | ⟨none, result⟩
    · simp [result, CellScoped, cellNames, undeclared, searched]
    · simp [result, named, none]

/-- In `write_code_odoit` no link is. -/
theorem odoit_heads (flag : Nat) (array : declared .blockArray) :
    LinkHeads cpr declared (odoitHeads cpr flag) (fun _ => False) where
  link bk := by simp [TestScoped, odoitHeads, testNames, array]
  mode bk := by simp [TestScoped, odoitHeads, testNames, array]
  search link tmp named := by
    simp only [odoitHeads]
    rcases search_cases cpr .outptr link tmp with ⟨searched, bk, port, result, -⟩ | ⟨none, result⟩
    · simp [result, CellScoped, cellNames, array]
    · simp [result, named]

/-- The condition for an alternative uses the names of its parts. -/
theorem branchTest_scoped {heads : DerivativeHeads} {stray : Nat → Prop}
    (plain : LinkHeads cpr declared heads stray) (array : declared .blockArray) (bk : Nat)
    (test : Test) (mode : Nat) :
    TestScoped declared (branchTest heads bk test mode) ↔ TestScoped declared test := by
  have link := plain.link bk
  have follows := plain.mode bk
  simp only [TestScoped, branchTest, testNames, List.forall_mem_append, List.forall_mem_singleton]
    at link follows ⊢
  tauto

/-- The text of an if-then-else block is scoped if its alternatives are and its
link is not stray where it is written; `tmp_` then holds declared names. -/
theorem ifFragment_scoped {heads : DerivativeHeads} {stray : Nat → Prop}
    (plain : LinkHeads cpr declared heads stray) (array : declared .blockArray) (bk : Nat)
    (inherited : Cell) (named : CellScoped declared inherited) (thentxt elsetxt : Text) :
    (Scoped declared (ifFragment cpr heads bk inherited thentxt elsetxt).1.text ↔
      Scoped declared thentxt ∧ Scoped declared elsetxt ∧
        (thentxt ≠ [] ∨ elsetxt ≠ [] → ¬ stray (cpr.testedLink bk))) ∧
    (Scoped declared (ifFragment cpr heads bk inherited thentxt elsetxt).1.text →
      CellScoped declared (ifFragment cpr heads bk inherited thentxt elsetxt).2) := by
  have cell := plain.search (cpr.testedLink bk) inherited named
  by_cases empty : thentxt = [] ∧ elsetxt = []
  · obtain ⟨rfl, rfl⟩ := empty
    exact ⟨by simp [ifFragment], fun _ => named⟩
  · have written := Decidable.not_and_iff_not_or_not.mp empty
    have first (positive : Test) (names : testNames positive =
        cellNames (searchProducer cpr heads.found (cpr.testedLink bk) inherited)) (mode : Nat) :
        TestScoped declared (branchTest heads bk positive mode) ↔ ¬ stray (cpr.testedLink bk) := by
      rw [branchTest_scoped plain array, ← cell, TestScoped, names, CellScoped]
    have text : Scoped declared (ifFragment cpr heads bk inherited thentxt elsetxt).1.text ↔
        ¬ stray (cpr.testedLink bk) ∧ Scoped declared thentxt ∧ Scoped declared elsetxt := by
      rw [ifFragment, if_neg (by simpa using empty)]
      simp only [scoped_cons, scoped_ifElseIf, scoped_nil, and_true]
      rw [first _ rfl, first _ rfl]
      have comment : StmtScoped declared (.line (.comment (.ifThenElseBlk bk))) := by
        simp [scoped_line, lineNames]
      constructor
      · rintro ⟨-, link, thens, -, elses⟩
        exact ⟨link, thens, elses⟩
      · rintro ⟨link, thens, elses⟩
        exact ⟨comment, link, thens, fun _ => link, elses⟩
    refine ⟨?_, fun all => ?_⟩
    · rw [text]
      constructor
      · rintro ⟨link, thens, elses⟩
        exact ⟨thens, elses, fun _ => link⟩
      · rintro ⟨thens, elses, link⟩
        exact ⟨link written, thens, elses⟩
    · rw [ifFragment, if_neg (by simpa using empty)]
      exact cell.mpr (text.mp all).1

/-- The text of an event-select block is scoped if its written alternatives are;
`tmp_` then holds declared names in any case. -/
theorem selectFragment_scoped {heads : DerivativeHeads} {stray : Nat → Prop}
    (plain : LinkHeads cpr declared heads stray) (array : declared .blockArray) (i : declared .i)
    (bk : Nat) (inherited : Cell) (named : CellScoped declared inherited)
    (link : declared (.outtb (cpr.testedLink bk))) (test emit : Nat → Text) :
    (Scoped declared (selectFragment cpr heads bk inherited ((cpr.outputEvents bk).map test)
        ((cpr.outputEvents bk).map emit)).1.text ↔
      ∀ ev ∈ cpr.outputEvents bk, test ev ≠ [] → Scoped declared (emit ev)) ∧
    CellScoped declared (selectFragment cpr heads bk inherited ((cpr.outputEvents bk).map test)
      ((cpr.outputEvents bk).map emit)).2 := by
  by_cases empty : labels ((cpr.outputEvents bk).map test) = []
  · rw [selectFragment, if_pos (by rw [empty]; rfl)]
    refine ⟨iff_of_true (scoped_nil declared) fun ev output written => ?_, named⟩
    exact absurd ((labels_nil_iff test bk).mp empty ev output) written
  · rw [selectFragment, if_neg (by simpa using empty)]
    refine ⟨?_, by simpa [CellScoped, cellNames] using link⟩
    have follows : ∀ name ∈ testNames (heads.followsLink bk), declared name := plain.link bk
    simp only [scoped_cons, scoped_switchI, scoped_nil, and_true, scoped_line,
      forall_labels_iff test emit bk (Scoped declared)]
    simp only [StmtScoped, stmtNames, lineNames, selectorNames, cellNames, List.forall_mem_append,
      List.forall_mem_cons]
    simp only [array, link, i, true_and, List.not_mem_nil, false_imp_iff, implies_true, and_true]
    exact ⟨fun all => all.2, fun all => ⟨follows, all⟩⟩

/-- What one activation needs if the texts of its output events need `good`. -/
def LevelFine (cpr : Compiled) (declared : Ident → Prop) (heads : DerivativeHeads)
    (stray : Nat → Prop) (good : Nat → Prop) (emits : Activation → Prop)
    (activation : Activation) : Prop :=
  (cpr.Ordinary activation.1 → Scoped declared (heads.ordinary activation)) ∧
  (IfThenElse cpr activation.1 → HasCode cpr emits activation →
    ¬ stray (cpr.testedLink activation.1)) ∧
  (¬ cpr.Ordinary activation.1 → ∀ ev ∈ cpr.outputEvents activation.1, good ev)

/-- An if-then-else block, when `tmp_` holds declared names before it. What its head
tests is left over from there, or found by the search, whose name may be a stray one. -/
theorem ifLevel_scoped {heads : DerivativeHeads} {stray : Nat → Prop}
    (plain : LinkHeads cpr declared heads stray) (array : declared .blockArray)
    (call : Cell → Nat → Option Text) (good : Nat → Prop) (emits : Activation → Prop)
    (written : ∀ before ev text, IsEvent cpr ev → call before ev = some text →
      (text ≠ [] ↔ ∃ other ∈ cpr.activations ev, HasCode cpr emits other))
    (texts : ∀ before ev text, IsEvent cpr ev → CellScoped declared before →
      call before ev = some text → (Scoped declared text ↔ good ev))
    (tmp : Cell) (named : CellScoped declared tmp) (activation : Activation)
    (synchro : Synchro cpr activation.1) (kind : IfThenElse cpr activation.1)
    (thentxt elsetxt : Text) (thens : call tmp (cpr.clkptr activation.1) = some thentxt)
    (elses : call tmp (cpr.clkptr activation.1 + 1) = some elsetxt) :
    Scoped declared (ifFragment cpr heads activation.1 tmp thentxt elsetxt).1.text ↔
      LevelFine cpr declared heads stray good emits activation := by
  have other := ifThenElse_not_ordinary kind
  have outputs : cpr.outputEvents activation.1 =
      [cpr.clkptr activation.1, cpr.clkptr activation.1 + 1] := by
    rcases synchro.kind with ⟨-, two⟩ | ⟨select, -⟩
    · exact if_outputEvents two
    · unfold IfThenElse at kind
      omega
  have events := outputs ▸ synchro.events
  have first := events (cpr.clkptr activation.1) (by simp)
  have second := events (cpr.clkptr activation.1 + 1) (by simp)
  have code : thentxt ≠ [] ∨ elsetxt ≠ [] ↔ HasCode cpr emits activation := by
    rw [hasCode_iff, written _ _ _ first thens, written _ _ _ second elses, outputs]
    simp [other]
  rw [(ifFragment_scoped plain array activation.1 tmp named thentxt elsetxt).1, code,
    texts _ _ _ first named thens, texts _ _ _ second named elses, LevelFine, outputs]
  simp only [other, kind, List.forall_mem_cons, not_false_eq_true, false_imp_iff, true_imp_iff,
    true_and, List.not_mem_nil, implies_true, and_true]
  constructor
  · rintro ⟨good, good', fine⟩
    exact ⟨fine, good, good'⟩
  · rintro ⟨fine, good, good'⟩
    exact ⟨good, good', fine⟩

/-- An event-select block, when `tmp_` holds declared names before it. Its
alternatives are emitted where `tmp_` holds its own link. -/
theorem selectLevel_scoped {heads : DerivativeHeads} {stray : Nat → Prop}
    (plain : LinkHeads cpr declared heads stray) (array : declared .blockArray) (i : declared .i)
    (call : Cell → Nat → Option Text) (good : Nat → Prop) (emits : Activation → Prop)
    (texts : ∀ before ev text, IsEvent cpr ev → CellScoped declared before →
      call before ev = some text → (Scoped declared text ↔ good ev))
    (tmp : Cell) (named : CellScoped declared tmp) (activation : Activation)
    (synchro : Synchro cpr activation.1) (kind : cpr.funtyp activation.1 = -2)
    (link : declared (.outtb (cpr.testedLink activation.1))) (test emit : Nat → Text)
    (tests : ∀ ev ∈ cpr.outputEvents activation.1, call tmp ev = some (test ev))
    (emissions : ∀ ev ∈ cpr.outputEvents activation.1,
      call (.outtb (cpr.testedLink activation.1)) ev = some (emit ev)) :
    Scoped declared (selectFragment cpr heads activation.1 tmp
        ((cpr.outputEvents activation.1).map test) ((cpr.outputEvents activation.1).map emit)).1.text ↔
      LevelFine cpr declared heads stray good emits activation := by
  have other := synchro.not_ordinary
  have notIf : ¬ IfThenElse cpr activation.1 := fun isIf => by
    unfold IfThenElse at isIf
    omega
  have linkNamed : CellScoped declared (.outtb (cpr.testedLink activation.1)) := by
    simpa [CellScoped, cellNames] using link
  rw [(selectFragment_scoped plain array i activation.1 tmp named link test emit).1, LevelFine]
  simp only [other, notIf, false_imp_iff, not_false_eq_true, true_imp_iff, true_and]
  apply forall₂_congr
  intro ev output
  have inside := synchro.events ev output
  have testedText := texts _ _ _ inside named (tests ev output)
  rw [texts _ _ _ inside linkNamed (emissions ev output)]
  refine ⟨fun all => ?_, fun fine _ => fine⟩
  by_cases empty : test ev = []
  · rw [empty] at testedText
    exact testedText.mp (scoped_nil declared)
  · exact all empty

/-- One activation, when `tmp_` holds declared names before it. The second part hands
that on to the next activation of the list. -/
theorem fragment_scoped {heads : DerivativeHeads} {stray : Nat → Prop}
    (plain : LinkHeads cpr declared heads stray) (array : declared .blockArray) (i : declared .i)
    (call : Cell → Nat → Option Text) (good : Nat → Prop) (emits : Activation → Prop)
    (written : ∀ before ev text, IsEvent cpr ev → call before ev = some text →
      (text ≠ [] ↔ ∃ other ∈ cpr.activations ev, HasCode cpr emits other))
    (texts : ∀ before ev text, IsEvent cpr ev → CellScoped declared before →
      call before ev = some text → (Scoped declared text ↔ good ev))
    (tmp after : Cell) (named : CellScoped declared tmp) (activation : Activation)
    (known : Known cpr activation)
    (link : ¬ cpr.Ordinary activation.1 → declared (.outtb (cpr.testedLink activation.1)))
    (piece : Fragment)
    (generated : fragment cpr heads call tmp activation = some (piece, after)) :
    (Scoped declared piece.text ↔ LevelFine cpr declared heads stray good emits activation) ∧
      (Scoped declared piece.text → CellScoped declared after) := by
  rcases fragment_cases heads call tmp after activation piece generated with
    ⟨own, -, text, rfl⟩ | ⟨other, kind, thentxt, elsetxt, thens, elses, -, rfl, rfl⟩ |
    ⟨other, kind, tested, emitted, tests, emissions, rfl, rfl⟩
  · have notIf : ¬ IfThenElse cpr activation.1 := fun kind => ifThenElse_not_ordinary kind own
    refine ⟨?_, fun _ => named⟩
    simp [text, LevelFine, own, notIf]
  · refine ⟨?_, (ifFragment_scoped plain array activation.1 tmp named thentxt elsetxt).2⟩
    exact ifLevel_scoped plain array call good emits written texts tmp named activation
      (known.resolve_left other) kind thentxt elsetxt thens elses
  · obtain ⟨eachTest, rfl⟩ := mapM_results _ _ _ tests
    obtain ⟨eachEmission, rfl⟩ := mapM_results _ _ _ emissions
    refine ⟨?_, fun _ =>
      (selectFragment_scoped plain array i activation.1 tmp named (link other) _ _).2⟩
    exact selectLevel_scoped plain array i call good emits texts tmp named activation
      (known.resolve_left other) kind (link other) _ _ eachTest eachEmission

/-- The fragments of a list, when `tmp_` holds declared names before it. By induction on
the list, with `tmp_` carried along. -/
theorem fragments_scoped {heads : DerivativeHeads} {stray : Nat → Prop}
    (plain : LinkHeads cpr declared heads stray) (array : declared .blockArray) (i : declared .i)
    (call : Cell → Nat → Option Text) (good : Nat → Prop) (emits : Activation → Prop)
    (written : ∀ before ev text, IsEvent cpr ev → call before ev = some text →
      (text ≠ [] ↔ ∃ other ∈ cpr.activations ev, HasCode cpr emits other))
    (texts : ∀ before ev text, IsEvent cpr ev → CellScoped declared before →
      call before ev = some text → (Scoped declared text ↔ good ev))
    (activations : List Activation) (known : ∀ activation ∈ activations, Known cpr activation)
    (link : ∀ bk, Synchro cpr bk → declared (.outtb (cpr.testedLink bk)))
    (tmp : Cell) (named : CellScoped declared tmp) (pieces : List Fragment)
    (generated : fragments cpr heads call tmp activations = some pieces) :
    Scoped declared (pieces.flatMap Fragment.text) ↔
      ∀ activation ∈ activations, LevelFine cpr declared heads stray good emits activation := by
  -- Induction on the list; `tmp_` holds declared names as long as all is scoped.
  induction activations generalizing tmp pieces with
  | nil =>
    obtain rfl := Option.some.inj generated
    simp
  | cons activation rest inductionHypothesis =>
    obtain ⟨first, after, later, here, there, rfl⟩ :=
      (fragments_cons heads call tmp activation rest pieces).mp generated
    rw [List.forall_mem_cons] at known ⊢
    obtain ⟨head, keeps⟩ := fragment_scoped plain array i call good emits written texts tmp after
      named activation known.1 (fun other => link _ (known.1.resolve_left other)) first here
    rw [List.flatMap_cons, scoped_append, ← head]
    apply and_congr_right
    intro fine
    exact inductionHypothesis known.2 after (keeps fine) later there

end Scoped

section Results

variable {cpr : Compiled} {declared : Ident → Prop}

/-- What a reached activation of the derivative code needs. -/
def FineLink (cpr : Compiled) (declared : Ident → Prop) (flag : Nat) (emits : Activation → Prop)
    (activation : Activation) : Prop :=
  (cpr.Ordinary activation.1 → Scoped declared ((ozdoitHeads cpr flag).ordinary activation)) ∧
  (IfThenElse cpr activation.1 → HasCode cpr emits activation →
    ¬ Searched cpr (cpr.testedLink activation.1))

/-- The text of an event is scoped if the calls of all reached blocks are, and no
reached if-then-else block with code has a link that the search finds. -/
theorem ozdoit_scoped (wellFormed : WellFormed cpr) (flag : Nat) (emits : Activation → Prop)
    (ordinary : ∀ activation, (ozdoitHeads cpr flag).ordinary activation ≠ [] ↔ emits activation)
    (array : declared .blockArray) (phase : declared .phase) (i : declared .i)
    (undeclared : ¬ declared .reversedArray)
    (link : ∀ bk, Synchro cpr bk → declared (.outtb (cpr.testedLink bk)))
    (fuel : Nat) (tmp : Cell) (ev : Nat) (text : Text) (inside : IsEvent cpr ev)
    (named : CellScoped declared tmp)
    (generated : writeCodeOzdoit cpr fuel flag tmp ev = some text) :
    Scoped declared text ↔ ∀ activation, Reaches cpr (AnySynchro cpr) (cpr.activations ev) activation →
      FineLink cpr declared flag emits activation := by
  induction fuel generalizing tmp ev text with
  | zero => cases generated
  | succ fuel inductionHypothesis =>
    simp only [writeCodeOzdoit, fuelled, ozdoitStep, Option.bind_eq_bind, Option.bind_eq_some_iff,
      Option.some.injEq] at generated
    obtain ⟨pieces, here, rfl⟩ := generated
    rw [fragments_scoped (ozdoit_heads flag array phase undeclared) array i _ _ emits
      (fun before other text within =>
        ozdoit_written wellFormed flag emits ordinary fuel before other text within)
      (fun before other text within => inductionHypothesis before other text within)
      (cpr.activations ev) (wellFormed.known ev inside) link tmp named pieces here,
      forall_reaches_iff]
    apply forall₂_congr
    intro activation member
    simp only [LevelFine, FineLink, AnySynchro, and_assoc]

/-- The text of `oord` is scoped if the calls of all reached blocks are, and no
if-then-else block with code that is reached through an event has a link that the
search finds. -/
theorem odoit_scoped (wellFormed : WellFormed cpr) (flag : Nat) (emits : Activation → Prop)
    (ordinary : ∀ activation, (ozdoitHeads cpr flag).ordinary activation ≠ [] ↔ emits activation)
    (array : declared .blockArray) (phase : declared .phase) (i : declared .i)
    (undeclared : ¬ declared .reversedArray)
    (link : ∀ bk, Synchro cpr bk → declared (.outtb (cpr.testedLink bk)))
    (fuel : Nat) (text : Text) (generated : writeCodeOdoit cpr fuel flag = some text) :
    Scoped declared text ↔ ∀ activation ∈ cpr.oord,
      (cpr.Ordinary activation.1 → Scoped declared ((odoitHeads cpr flag).ordinary activation)) ∧
      (¬ cpr.Ordinary activation.1 → ∀ ev ∈ cpr.outputEvents activation.1,
        ∀ inner, Reaches cpr (AnySynchro cpr) (cpr.activations ev) inner →
          FineLink cpr declared flag emits inner) := by
  simp only [writeCodeOdoit, odoitFragments, Option.bind_eq_bind, Option.bind_eq_some_iff,
    Option.some.injEq] at generated
  obtain ⟨pieces, here, rfl⟩ := generated
  have unset : CellScoped declared .unset := fun name member => absurd member List.not_mem_nil
  rw [fragments_scoped (odoit_heads flag array) array i _ _ emits
    (fun before other text within =>
      ozdoit_written wellFormed flag emits ordinary fuel before other text within)
    (fun before other text within => ozdoit_scoped wellFormed flag emits ordinary array phase i
      undeclared link fuel before other text within)
    cpr.oord wellFormed.knownOord link .unset unset pieces here]
  apply forall₂_congr
  intro activation member
  simp only [LevelFine, not_false_eq_true, implies_true, true_and]

end Results

end ScicosFlex.Codegen
