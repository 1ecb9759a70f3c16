import ScicosFlex.Codegen.DerivativeCode

/-!
# The code that starts the implicit solver

`write_code_reinitdoit` and `write_code_initdoit` in standalone mode: the text
for the blocks in `oord` that the initialization function of an implicit model
runs for flags 1 and 7. Three generators work together here. The alternatives of
an if-then-else block come from `write_code_initdoit`. An event-select block in
`oord` asks `write_code_ozdoit` which alternatives are empty and emits those of
`write_code_initdoit`; one below an event takes both from `write_code_doit`.

The text for one activation comes with the alternatives it was made from, as an
`InitialPiece`. `write_code_ozdoit` sees the `tmp_` of its caller, which is carried
along the list; it stops where it needs a `tmp_` that was never set (`ReinitHalts`),
and on a well formed schedule nothing else does (`reinitdoit_iff`).
-/

namespace ScicosFlex.Codegen

open Compiled Library.AcyclicRecursion Library.Sequences

section Generators

variable (cpr : Compiled)

/-- One level of `write_code_initdoit`; it emits what `write_code_cdoit` emits. -/
def initdoitStep (fuel flag : Nat) (call : Nat → Option Text) (ev : Nat) : Option Text :=
  let nested := fun ev => writeCodeDoit cpr fuel ev flag
  walk cpr (cdoitEmission cpr flag) call nested nested (cpr.activations ev)

/-- `write_code_initdoit(ev,flag)`. -/
def writeCodeInitdoit (fuel ev flag : Nat) : Option Text :=
  fuelled (initdoitStep cpr fuel flag) fuel ev

/-- What `write_code_reinitdoit` emits: head lines with the comparisons of
`write_code_odoit`, but with the cell of the link itself. -/
def reinitdoitEmission (flag : Nat) : Emission where
  ordinary activation := placed (callBlock42 cpr activation.1 activation.2 flag)
  ifThenElse bk thentxt elsetxt :=
    let cell : Cell := .outtb (cpr.testedLink bk)
    [.ifElseIf bk (branchTest (odoitHeads cpr flag) bk (.positive cell) 1) thentxt
      (branchTest (odoitHeads cpr flag) bk (.nonPositive cell) 2) elsetxt]
  eventSelect bk labels body :=
    [.chooseI (.nmodeNegative bk) (.clamped (.outtb (cpr.testedLink bk)) bk) (.modeZero bk),
      .switchI bk labels body]

/-- The text for one activation, and for an event-select block the alternatives that
its cases are made of. -/
structure InitialPiece where
  activation : Activation
  alternatives : List Text
  text : Text

/-- The alternatives of an event-select block. -/
def caseTexts (emit : Nat → Option Text) (bk : Nat) : Option (List Text) :=
  if cpr.funtyp bk = -2 then (cpr.outputEvents bk).mapM emit else some []

/-- One activation, with its alternatives. -/
def initialPiece (emission : Emission) (branch test emit : Nat → Option Text)
    (activation : Activation) : Option InitialPiece := do
  let text ← piece cpr emission branch test emit activation
  let alternatives ← caseTexts cpr emit activation.1
  some { activation, alternatives, text }

/-- One activation in `write_code_reinitdoit`, where `tmp_` has the given value. -/
def reinitdoitPiece (fuel flag : Nat) (tmp : Cell) : Activation → Option InitialPiece :=
  initialPiece cpr (reinitdoitEmission cpr flag) (fun ev => writeCodeInitdoit cpr fuel ev flag)
    (fun ev => writeCodeOzdoit cpr fuel flag tmp ev) (fun ev => writeCodeInitdoit cpr fuel ev flag)

/-- A list of activations in order. A synchronisation block that is written leaves
its own link in `tmp_`. -/
def reinitdoitPieces (fuel flag : Nat) : Cell → List Activation → Option (List InitialPiece)
  | _, [] => some []
  | tmp, activation :: rest => do
    let first ← reinitdoitPiece cpr fuel flag tmp activation
    let tmp := if cpr.Ordinary activation.1 ∨ first.text = [] then tmp
      else .outtb (cpr.testedLink activation.1)
    let later ← reinitdoitPieces fuel flag tmp rest
    some (first :: later)

/-- `write_code_reinitdoit(flag)`. At its first use `tmp_` is not set. -/
def writeCodeReinitdoit (fuel flag : Nat) : Option Text := do
  let pieces ← reinitdoitPieces cpr fuel flag .unset cpr.oord
  some (pieces.flatMap InitialPiece.text)

/-- The pieces of `write_code_initdoit(ev,flag)`. -/
def initdoitPieces (fuel flag ev : Nat) : Option (List InitialPiece) :=
  let nested := fun ev => writeCodeDoit cpr fuel ev flag
  (cpr.activations ev).mapM (initialPiece cpr (cdoitEmission cpr flag)
    (fun ev => writeCodeInitdoit cpr fuel ev flag) nested nested)

/-- The pieces of `write_code_doit(ev,flag)`. -/
def doitPieces (fuel flag ev : Nat) : Option (List InitialPiece) :=
  let nested := fun ev => writeCodeDoit cpr fuel ev flag
  (cpr.activations ev).mapM (initialPiece cpr (doitEmission cpr flag) nested nested nested)

end Generators

section Pieces

variable {cpr : Compiled}

/-- The text of a piece is that of its activation. -/
theorem initialPiece_made {emission : Emission} {branch test emit : Nat → Option Text}
    {activation : Activation} {first : InitialPiece}
    (made : initialPiece cpr emission branch test emit activation = some first) :
    first.activation = activation ∧
      piece cpr emission branch test emit activation = some first.text := by
  simp only [initialPiece, Option.bind_eq_bind, Option.bind_eq_some_iff, Option.some.injEq] at made
  obtain ⟨text, generated, alternatives, -, rfl⟩ := made
  exact ⟨rfl, generated⟩

/-- Every piece comes from one of the activations, with some `tmp_` before it. -/
theorem mem_reinitdoitPieces {fuel flag : Nat} {tmp : Cell} {activations : List Activation}
    {pieces : List InitialPiece}
    (generated : reinitdoitPieces cpr fuel flag tmp activations = some pieces)
    (first : InitialPiece) (member : first ∈ pieces) :
    first.activation ∈ activations ∧ ∃ before,
      piece cpr (reinitdoitEmission cpr flag) (fun ev => writeCodeInitdoit cpr fuel ev flag)
        (fun ev => writeCodeOzdoit cpr fuel flag before ev)
        (fun ev => writeCodeInitdoit cpr fuel ev flag) first.activation = some first.text := by
  induction activations generalizing tmp pieces with
  | nil =>
    obtain rfl := Option.some.inj generated
    cases member
  | cons activation rest inductionHypothesis =>
    simp only [reinitdoitPieces, Option.bind_eq_bind, Option.bind_eq_some_iff,
      Option.some.injEq] at generated
    obtain ⟨head, here, later, there, rfl⟩ := generated
    rcases List.mem_cons.mp member with rfl | behind
    · obtain ⟨own, text⟩ := initialPiece_made here
      rw [own]
      exact ⟨List.mem_cons_self, tmp, text⟩
    · obtain ⟨inside, found⟩ := inductionHypothesis there behind
      exact ⟨List.mem_cons_of_mem _ inside, found⟩

end Pieces

section Halting

variable (cpr : Compiled) (flag : Nat)

/-- `write_code_initdoit` has a text for an activation of a list, or for one below it
as far as if-then-else blocks lead. -/
def InitialCode (start : List Activation) : Prop :=
  ∃ inner, Reaches cpr (IfThenElse cpr) start inner ∧
    (cpr.Ordinary inner.1 ∧ Emitted (cdoitEmission cpr flag) inner ∨
      cpr.funtyp inner.1 = -2 ∧ HasCode cpr (Emitted (doitEmission cpr flag)) inner)

/-- `write_code_reinitdoit` writes nothing for a synchronisation block. -/
def Unwritten (activation : Activation) : Prop :=
  (cpr.funtyp activation.1 = -1 →
    ∀ ev ∈ cpr.outputEvents activation.1, ¬ InitialCode cpr flag (cpr.activations ev)) ∧
  (cpr.funtyp activation.1 = -2 → ¬ HasCode cpr (Emits cpr flag) activation)

/-- `write_code_reinitdoit` stops somewhere in a list it enters while `tmp_` is not set:
below an event-select block, where it calls `write_code_ozdoit`, if nothing before it
in the list has set `tmp_`. -/
inductive ReinitHalts : List Activation → Prop
  | here (activation : Activation) (rest : List Activation) (kind : cpr.funtyp activation.1 = -2)
      (ev : Nat) (output : ev ∈ cpr.outputEvents activation.1)
      (below : Halts cpr flag (cpr.activations ev)) : ReinitHalts (activation :: rest)
  | later (activation : Activation) (rest : List Activation)
      (silent : Unwritten cpr flag activation) (behind : ReinitHalts rest) :
      ReinitHalts (activation :: rest)

/-- It stops below an event-select block. -/
def ReinitHaltsAt (activation : Activation) : Prop :=
  cpr.funtyp activation.1 = -2 ∧ ∃ ev ∈ cpr.outputEvents activation.1,
    Halts cpr flag (cpr.activations ev)

variable {cpr}

theorem reinitHalts_nil : ¬ ReinitHalts cpr flag [] := by
  intro halts
  cases halts

/-- It stops at the first activation, or behind it. -/
theorem reinitHalts_cons (activation : Activation) (rest : List Activation) :
    ReinitHalts cpr flag (activation :: rest) ↔
      ReinitHaltsAt cpr flag activation ∨
        (Unwritten cpr flag activation ∧ ReinitHalts cpr flag rest) := by
  constructor
  · intro halts
    cases halts with
    | here _ _ kind ev output below => exact Or.inl ⟨kind, ev, output, below⟩
    | later _ _ silent behind => exact Or.inr ⟨silent, behind⟩
  · rintro (⟨kind, ev, output, below⟩ | ⟨silent, behind⟩)
    · exact .here activation rest kind ev output below
    · exact .later activation rest silent behind

/-- Nothing stops in a list of ordinary activations. -/
theorem reinitHalts_plain (activations : List Activation)
    (plain : ∀ activation ∈ activations, cpr.Ordinary activation.1) :
    ¬ ReinitHalts cpr flag activations := by
  intro halts
  induction halts with
  | here activation rest kind =>
    have ordinary := plain activation List.mem_cons_self
    unfold Ordinary at ordinary
    omega
  | later activation rest _ _ inductionHypothesis =>
    exact inductionHypothesis fun other member => plain other (List.mem_cons_of_mem _ member)

end Halting

section Existence

variable {cpr : Compiled}

/-- Every event has a text for the start of the implicit solver: its if-then-else blocks
go on with these texts, its event-select blocks with those of `write_code_doit`. -/
theorem initdoit_texts (wellFormed : WellFormed cpr) (flag fuel : Nat)
    (enough : ∀ ev, IsEvent cpr ev → rank (Activates cpr) ev < fuel) :
    ∃ s t : Nat → Text,
      (∀ ev, IsEvent cpr ev →
        t ev = (cpr.activations ev).flatMap (pieceText cpr (doitEmission cpr flag) t t t)) ∧
      (∀ ev, IsEvent cpr ev →
        s ev = (cpr.activations ev).flatMap (pieceText cpr (cdoitEmission cpr flag) s t t)) ∧
      ∀ ev, IsEvent cpr ev → writeCodeInitdoit cpr fuel ev flag = some (s ev) ∧
        writeCodeDoit cpr fuel ev flag = some (t ev) := by
  obtain ⟨t, solves, found⟩ := doit_texts wellFormed flag
  have solved := fuelled_solution id wellFormed.graph (initdoitStep cpr fuel flag)
    (fun s ev => (cpr.activations ev).flatMap (pieceText cpr (cdoitEmission cpr flag) s t t)) ?_
  · obtain ⟨s, own, texts⟩ := solved
    exact ⟨s, t, solves, own, fun ev inside =>
      ⟨texts ev inside fuel (enough ev inside), found ev inside fuel (enough ev inside)⟩⟩
  · intro call result ev inside calls
    apply walk_texts _ call _ _ result t t _ (wellFormed.known ev inside)
    intro activation member synchro other output
    have edge : Activates cpr ev other := ⟨activation, member, synchro, output⟩
    have within := wellFormed.graph.closed ev other inside edge
    exact ⟨calls other edge, found other within fuel (enough other within),
      found other within fuel (enough other within)⟩

/-- When the text of `write_code_initdoit` is not empty. By induction along the events,
which if-then-else blocks lead down. -/
theorem initdoit_begun (wellFormed : WellFormed cpr) (flag : Nat) (s t : Nat → Text)
    (solves : Solves cpr (doitEmission cpr flag) t)
    (own : ∀ ev, IsEvent cpr ev →
      s ev = (cpr.activations ev).flatMap (pieceText cpr (cdoitEmission cpr flag) s t t))
    (ev : Nat) (inside : IsEvent cpr ev) : s ev ≠ [] ↔ InitialCode cpr flag (cpr.activations ev) := by
  revert ev
  apply acyclic_induction wellFormed.graph
  intro ev inside below
  rw [own ev inside, ne_eq, List.flatMap_eq_nil_iff, InitialCode, exists_reaches_iff]
  simp only [not_forall, exists_prop]
  refine exists_congr fun activation => and_congr_right fun member => ?_
  have known := wellFormed.known ev inside activation member
  have branches : cpr.funtyp activation.1 = -1 ∧ (∃ other ∈ cpr.outputEvents activation.1,
        s other ≠ []) ↔
      IfThenElse cpr activation.1 ∧ ∃ other ∈ cpr.outputEvents activation.1,
        InitialCode cpr flag (cpr.activations other) := by
    refine and_congr_right fun kind => exists_congr fun other => and_congr_right fun output => ?_
    have edge : Activates cpr ev other :=
      ⟨activation, member, ifThenElse_not_ordinary kind, output⟩
    exact below other edge (wellFormed.graph.closed ev other inside edge)
  have selects : cpr.funtyp activation.1 = -2 ∧ (∃ other ∈ cpr.outputEvents activation.1,
        t other ≠ []) ↔
      cpr.funtyp activation.1 = -2 ∧ HasCode cpr (Emitted (doitEmission cpr flag)) activation := by
    refine and_congr_right fun kind => ?_
    have synchro : Synchro cpr activation.1 := known.resolve_left (by unfold Ordinary; omega)
    rw [select_code _ activation known kind (fun ev => t ev ≠ []) fun other output =>
      texts_written wellFormed _ t solves other (synchro.events other output)]
  rw [← ne_eq, piece_written _ s t t activation known, branches, selects]
  simp only [InitialCode]
  rw [or_right_comm, or_assoc]

/-- One activation with its alternatives when the texts of its output events are known;
of the texts that are asked for only those that are empty matter. -/
theorem initialPiece_text (emission : Emission) (branch test emit : Nat → Option Text)
    (branchText testText emitText : Nat → Text) (activation : Activation)
    (known : Known cpr activation)
    (branches : cpr.funtyp activation.1 = -1 → ∀ ev ∈ cpr.outputEvents activation.1,
      branch ev = some (branchText ev))
    (tests : cpr.funtyp activation.1 = -2 → ∀ ev ∈ cpr.outputEvents activation.1,
      ∃ text, test ev = some text ∧ text.isEmpty = (testText ev).isEmpty)
    (emits : cpr.funtyp activation.1 = -2 → ∀ ev ∈ cpr.outputEvents activation.1,
      emit ev = some (emitText ev)) :
    initialPiece cpr emission branch test emit activation = some
      { activation
        alternatives := if cpr.funtyp activation.1 = -2 then
          (cpr.outputEvents activation.1).map emitText else []
        text := pieceText cpr emission branchText testText emitText activation } := by
  rcases known with ordinary | synchro
  · have notSelect : ¬ cpr.funtyp activation.1 = -2 := by unfold Ordinary at ordinary; omega
    simp [initialPiece, caseTexts, piece, pieceText, ordinary, notSelect]
  · have other := synchro.not_ordinary
    rcases synchro.kind with ⟨kind, two⟩ | ⟨kind, -⟩
    · have first := branches kind (cpr.clkptr activation.1) ((mem_outputEvents _ _).mpr (by omega))
      have second := branches kind (cpr.clkptr activation.1 + 1)
        ((mem_outputEvents _ _).mpr (by omega))
      simp [initialPiece, caseTexts, piece, pieceText, other, kind, first, second]
    · have emitted := mapM_some emit emitText (cpr.outputEvents activation.1) (emits kind)
      obtain ⟨tested, generated⟩ := mapM_exists test (cpr.outputEvents activation.1)
        fun ev output => (tests kind ev output).imp fun _ => And.left
      have empty := mapM_empty test (fun ev => some (testText ev)) (cpr.outputEvents activation.1)
        (fun ev output left right asked known => by
          obtain ⟨text, found, same⟩ := tests kind ev output
          rw [← Option.some.inj known, ← same, Option.some.inj (asked.symm.trans found)])
        tested _ generated (mapM_some _ testText _ fun _ _ => rfl)
      have same := labels_congr tested _ empty
      simp [initialPiece, caseTexts, piece, pieceText, selectPiece, other, kind, emitted, generated, same]

/-- The texts of all events that take part in the start of the implicit solver. What
`write_code_ozdoit` is asked for has one text for each value of `tmp_`; `u` stands for
all of them, since only which are empty matters. -/
structure StartTexts (cpr : Compiled) (fuel flag : Nat) (s t u : Nat → Text) : Prop where
  solves : Solves cpr (doitEmission cpr flag) t
  own : ∀ ev, IsEvent cpr ev →
    s ev = (cpr.activations ev).flatMap (pieceText cpr (cdoitEmission cpr flag) s t t)
  initial : ∀ ev, IsEvent cpr ev → writeCodeInitdoit cpr fuel ev flag = some (s ev)
  discrete : ∀ ev, IsEvent cpr ev → writeCodeDoit cpr fuel ev flag = some (t ev)
  asked : ∀ ev, IsEvent cpr ev → writeCodeOzdoit cpr fuel flag (.outtb 0) ev = some (u ev)
  answers : ∀ ev, IsEvent cpr ev → Answers cpr flag (writeCodeOzdoit cpr fuel flag) ev

/-- On a well formed schedule these texts exist. -/
theorem startTexts_exist (wellFormed : WellFormed cpr) (flag fuel : Nat)
    (deep : {ev | IsEvent cpr ev}.ncard < fuel) : ∃ s t u, StartTexts cpr fuel flag s t u := by
  have enough (ev : Nat) (inside : IsEvent cpr ev) : rank (Activates cpr) ev < fuel :=
    Nat.lt_of_le_of_lt (rank_le wellFormed.graph ev inside) deep
  have answers (ev : Nat) (inside : IsEvent cpr ev) :
      Answers cpr flag (writeCodeOzdoit cpr fuel flag) ev :=
    ozdoit_answers wellFormed ev inside fuel (enough ev inside)
  obtain ⟨s, t, solves, own, texts⟩ := initdoit_texts wellFormed flag fuel enough
  refine ⟨s, t, fun ev => (writeCodeOzdoit cpr fuel flag (.outtb 0) ev).getD [], solves, own,
    fun ev inside => (texts ev inside).1, fun ev inside => (texts ev inside).2,
    fun ev inside => ?_, answers⟩
  obtain ⟨text, generated⟩ := ((answers ev inside).exists_iff (.outtb 0)).mpr
    fun unset => Cell.noConfusion unset
  rw [generated, Option.getD_some]

variable {fuel flag : Nat} {s t u : Nat → Text}

/-- When a text is asked for by an event-select block in `oord`. -/
theorem StartTexts.asked_written (texts : StartTexts cpr fuel flag s t u) (ev : Nat)
    (inside : IsEvent cpr ev) :
    u ev ≠ [] ↔ ∃ other ∈ cpr.activations ev, HasCode cpr (Emits cpr flag) other :=
  (texts.answers ev inside).written _ _ (texts.asked ev inside)

/-- One activation of `write_code_reinitdoit`, made of the texts of events. -/
def startPiece (cpr : Compiled) (flag : Nat) (s u : Nat → Text) (activation : Activation) :
    InitialPiece where
  activation := activation
  alternatives :=
    if cpr.funtyp activation.1 = -2 then (cpr.outputEvents activation.1).map s else []
  text := pieceText cpr (reinitdoitEmission cpr flag) s u s activation

/-- One activation of `write_code_reinitdoit` has a text unless the generator stops below
it, and the text does not depend on `tmp_`. -/
theorem StartTexts.piece_iff (texts : StartTexts cpr fuel flag s t u) (activation : Activation)
    (known : Known cpr activation) (tmp : Cell) :
    ((∃ first, reinitdoitPiece cpr fuel flag tmp activation = some first) ↔
      (tmp = .unset → ¬ ReinitHaltsAt cpr flag activation)) ∧
    ∀ first, reinitdoitPiece cpr fuel flag tmp activation = some first →
      first = startPiece cpr flag s u activation := by
  have events (synchro : ¬ cpr.Ordinary activation.1) (ev : Nat)
      (output : ev ∈ cpr.outputEvents activation.1) : IsEvent cpr ev :=
    (known.resolve_left synchro).events ev output
  have select (kind : cpr.funtyp activation.1 = -2) : ¬ cpr.Ordinary activation.1 := by
    unfold Ordinary
    omega
  have made (going : tmp = .unset → ¬ ReinitHaltsAt cpr flag activation) :
      reinitdoitPiece cpr fuel flag tmp activation = some (startPiece cpr flag s u activation) := by
    refine initialPiece_text _ _ _ _ s u s activation known
      (fun kind ev output => texts.initial ev (events (ifThenElse_not_ordinary kind) ev output))
      (fun kind ev output => ?_)
      (fun kind ev output => texts.initial ev (events (select kind) ev output))
    have inside := events (select kind) ev output
    obtain ⟨text, generated⟩ := ((texts.answers ev inside).exists_iff tmp).mpr
      fun unset below => going unset ⟨kind, ev, output, below⟩
    exact ⟨text, generated, ozdoit_steady cpr fuel flag tmp _ ev text _ generated
      (texts.asked ev inside)⟩
  have stopped (first : InitialPiece)
      (generated : reinitdoitPiece cpr fuel flag tmp activation = some first) :
      tmp = .unset → ¬ ReinitHaltsAt cpr flag activation := by
    rintro unset ⟨kind, ev, output, below⟩
    have notIf : ¬ (-2 : Int) = -1 := by omega
    simp only [reinitdoitPiece, initialPiece, piece, select kind, kind, notIf, if_true, if_false,
      Option.bind_eq_bind, Option.bind_eq_some_iff] at generated
    obtain ⟨-, ⟨tested, tests, -⟩, -⟩ := generated
    have each := (mapM_results _ _ _ tests).1 ev output
    exact ((texts.answers ev (events (select kind) ev output)).exists_iff tmp).mp ⟨_, each⟩ unset
      below
  refine ⟨⟨?_, fun going => ⟨_, made going⟩⟩, ?_⟩
  · rintro ⟨first, generated⟩
    exact stopped first generated
  intro first generated
  exact Option.some.inj (generated.symm.trans (made (stopped first generated)))

/-- When nothing is written for an activation that is not ordinary. -/
theorem StartTexts.unwritten_iff (texts : StartTexts cpr fuel flag s t u)
    (wellFormed : WellFormed cpr) (activation : Activation) (known : Known cpr activation) :
    (cpr.Ordinary activation.1 ∨
      pieceText cpr (reinitdoitEmission cpr flag) s u s activation = []) ↔
      Unwritten cpr flag activation := by
  by_cases ordinary : cpr.Ordinary activation.1
  · have notIf : ¬ cpr.funtyp activation.1 = -1 := by unfold Ordinary at ordinary; omega
    have notSelect : ¬ cpr.funtyp activation.1 = -2 := by unfold Ordinary at ordinary; omega
    simp [ordinary, Unwritten, notIf, notSelect]
  · have events := (known.resolve_left ordinary).events
    have initial (ev : Nat) (output : ev ∈ cpr.outputEvents activation.1) :=
      initdoit_begun wellFormed flag s t texts.solves texts.own ev (events ev output)
    rw [or_iff_right ordinary, ← not_iff_not, ← ne_eq, piece_written _ s u s activation known]
    simp only [ordinary, false_and, false_or, Unwritten, not_and_or, Classical.not_imp, not_forall,
      not_not]
    refine or_congr (and_congr_right fun kind => exists_congr fun ev =>
      and_congr_right fun output => initial ev output) (and_congr_right fun kind => ?_)
    rw [select_code _ activation known kind (fun ev => u ev ≠ []) fun ev output =>
      texts.asked_written ev (events ev output)]

/-- A list has pieces unless `write_code_reinitdoit` enters it while `tmp_` is not set
and stops. -/
theorem StartTexts.pieces_iff (texts : StartTexts cpr fuel flag s t u)
    (wellFormed : WellFormed cpr) (activations : List Activation)
    (known : ∀ activation ∈ activations, Known cpr activation) (tmp : Cell) :
    ((∃ pieces, reinitdoitPieces cpr fuel flag tmp activations = some pieces) ↔
      (tmp = .unset → ¬ ReinitHalts cpr flag activations)) ∧
    ∀ pieces, reinitdoitPieces cpr fuel flag tmp activations = some pieces →
      pieces = activations.map (startPiece cpr flag s u) := by
  induction activations generalizing tmp with
  | nil =>
    refine ⟨⟨fun _ _ => reinitHalts_nil flag, fun _ => ⟨[], rfl⟩⟩, fun pieces generated => ?_⟩
    exact (Option.some.inj generated).symm
  | cons activation rest inductionHypothesis =>
    rw [List.forall_mem_cons] at known
    obtain ⟨first, same⟩ := texts.piece_iff activation known.1 tmp
    have behind := inductionHypothesis known.2
    have silent := texts.unwritten_iff wellFormed activation known.1
    -- What `tmp_` is for the rest of the list.
    have carried (piece : InitialPiece)
        (here : reinitdoitPiece cpr fuel flag tmp activation = some piece) :
        (if cpr.Ordinary activation.1 ∨ piece.text = [] then tmp
          else .outtb (cpr.testedLink activation.1)) = Cell.unset ↔
          tmp = .unset ∧ Unwritten cpr flag activation := by
      rw [same piece here, ← silent]
      by_cases unwritten : cpr.Ordinary activation.1 ∨
          pieceText cpr (reinitdoitEmission cpr flag) s u s activation = []
      · exact iff_of_eq (congrArg (· = Cell.unset) (if_pos unwritten)) |>.trans
          (and_iff_left unwritten).symm
      · refine iff_of_eq (congrArg (· = Cell.unset) (if_neg unwritten)) |>.trans ?_
        simp [unwritten]
    rw [reinitHalts_cons]
    simp only [reinitdoitPieces, Option.bind_eq_bind, Option.bind_eq_some_iff, Option.some.injEq]
    refine ⟨⟨?_, fun going => ?_⟩, ?_⟩
    · rintro ⟨-, piece, here, later, there, -⟩ unset
      rintro (stopped | ⟨unwritten, stopped⟩)
      · exact first.mp ⟨piece, here⟩ unset stopped
      · exact (behind _).1.mp ⟨later, there⟩ ((carried piece here).mpr ⟨unset, unwritten⟩) stopped
    · obtain ⟨piece, here⟩ := first.mpr fun unset stopped => going unset (Or.inl stopped)
      obtain ⟨later, there⟩ := (behind _).1.mpr fun unset stopped =>
        going ((carried piece here).mp unset).1 (Or.inr ⟨((carried piece here).mp unset).2, stopped⟩)
      exact ⟨_, piece, here, later, there, rfl⟩
    · rintro pieces ⟨piece, here, later, there, rfl⟩
      rw [List.map_cons, same piece here, (behind _).2 later there]

/-- On a well formed schedule `write_code_reinitdoit` has a text exactly if it does not
stop in `write_code_ozdoit` at a `tmp_` that was never set. -/
theorem reinitdoit_iff (wellFormed : WellFormed cpr) (flag fuel : Nat)
    (deep : {ev | IsEvent cpr ev}.ncard < fuel) :
    (∃ text, writeCodeReinitdoit cpr fuel flag = some text) ↔ ¬ ReinitHalts cpr flag cpr.oord := by
  obtain ⟨s, t, u, texts⟩ := startTexts_exist wellFormed flag fuel deep
  have level := (texts.pieces_iff wellFormed cpr.oord wellFormed.knownOord .unset).1
  rw [← level.trans (forall_prop_of_true rfl)]
  simp only [writeCodeReinitdoit, Option.bind_eq_bind, Option.bind_eq_some_iff, Option.some.injEq]
  exact ⟨fun ⟨_, pieces, here, _⟩ => ⟨pieces, here⟩, fun ⟨pieces, here⟩ => ⟨_, pieces, here, rfl⟩⟩

/-- The text that starts the implicit solver is made of the texts of events. -/
theorem StartTexts.reinitdoit_text (texts : StartTexts cpr fuel flag s t u)
    (wellFormed : WellFormed cpr) (text : Text)
    (generated : writeCodeReinitdoit cpr fuel flag = some text) :
    text = cpr.oord.flatMap (pieceText cpr (reinitdoitEmission cpr flag) s u s) := by
  simp only [writeCodeReinitdoit, Option.bind_eq_bind, Option.bind_eq_some_iff,
    Option.some.injEq] at generated
  obtain ⟨pieces, here, rfl⟩ := generated
  rw [(texts.pieces_iff wellFormed cpr.oord wellFormed.knownOord .unset).2 pieces here,
    List.flatMap_map]
  rfl

end Existence

end ScicosFlex.Codegen
