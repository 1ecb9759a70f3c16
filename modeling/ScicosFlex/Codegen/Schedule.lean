import ScicosFlex.Library.AcyclicRecursion
import ScicosFlex.Library.Sequences
import ScicosFlex.Codegen.CallBlock

/-!
# Walking a compiled schedule

All generators `write_code_..doit` walk a list of activations, emit a calling
sequence for an ordinary block, and for an if-then-else or event-select block the
texts of its output events under a common head line. They differ in what they
emit for an ordinary block, in the head lines and in the generator they call for
the output events; these are the parameters of `walk`.

A generator returns no text if it meets a block of unknown type or if its
recursion does not end. `walk_texts` says that neither happens on a well formed
schedule, and what the text then is.
-/

namespace ScicosFlex.Codegen

open Compiled Library.AcyclicRecursion Library.Sequences

section Walk

variable (cpr : Compiled)

/-- A calling sequence is followed by an empty line. -/
def placed (txt : Text) : Text := if txt.isEmpty then [] else txt ++ [.line .blank]

/-- `II`: the numbers of the output events with a text. -/
def labels (switchtxt : List Text) : List Nat :=
  (List.range switchtxt.length).filterMap fun k =>
    if (switchtxt.getD k []).isEmpty then none else some (k + 1)

/-- The text of a `case`. -/
def caseText (switchtxt : List Text) (label : Nat) : Text := switchtxt.getD (label - 1) []

/-- What a generator emits apart from its recursive calls. -/
structure Emission where
  ordinary : Activation → Text
  ifThenElse : (bk : Nat) → (thentxt elsetxt : Text) → Text
  eventSelect : (bk : Nat) → (labels : List Nat) → (body : Nat → Text) → Text

/-- The text of an if-then-else block, nothing if both alternatives are empty. -/
def ifPiece (emission : Emission) (bk : Nat) (thentxt elsetxt : Text) : Text :=
  if thentxt.isEmpty && elsetxt.isEmpty then []
  else .line (.comment (.ifThenElseBlk bk)) :: emission.ifThenElse bk thentxt elsetxt

/-- The text of an event-select block, nothing if all alternatives are empty. -/
def selectPiece (emission : Emission) (bk : Nat) (tested emitted : List Text) : Text :=
  if (labels tested).isEmpty then []
  else .line (.comment (.evtSelectBlk bk)) ::
    emission.eventSelect bk (labels tested) (caseText emitted)

/-- One activation. The generators for the alternatives of an if-then-else block,
for the emptiness test of an event-select block and for its emitted alternatives
need not be the same. -/
def piece (emission : Emission) (branch test emit : Nat → Option Text) (activation : Activation) :
    Option Text :=
  let bk := activation.1
  if cpr.Ordinary bk then some (emission.ordinary activation)
  else if cpr.funtyp bk = -1 then do
    let thentxt ← branch (cpr.clkptr bk)
    let elsetxt ← branch (cpr.clkptr bk + 1)
    some (ifPiece emission bk thentxt elsetxt)
  else if cpr.funtyp bk = -2 then do
    let tested ← (cpr.outputEvents bk).mapM test
    let emitted ← (cpr.outputEvents bk).mapM emit
    some (selectPiece emission bk tested emitted)
  else none

/-- A list of activations in order. -/
def walk (emission : Emission) (branch test emit : Nat → Option Text)
    (activations : List Activation) : Option Text := do
  let texts ← activations.mapM (piece cpr emission branch test emit)
  some texts.flatten

/-- The text of one activation when the texts of all output events are known. -/
def pieceText (emission : Emission) (branch test emit : Nat → Text) (activation : Activation) :
    Text :=
  let bk := activation.1
  if cpr.Ordinary bk then emission.ordinary activation
  else if cpr.funtyp bk = -1 then
    ifPiece emission bk (branch (cpr.clkptr bk)) (branch (cpr.clkptr bk + 1))
  else selectPiece emission bk ((cpr.outputEvents bk).map test) ((cpr.outputEvents bk).map emit)

end Walk

section WellFormed

variable (cpr : Compiled)

/-- The numbers of events. -/
def IsEvent (ev : Nat) : Prop := 1 ≤ ev ∧ ev ≤ cpr.nevent

/-- A synchronisation block: an if-then-else block with two output events or an
event-select block with at least one. -/
structure Synchro (bk : Nat) : Prop where
  kind : cpr.funtyp bk = -1 ∧ cpr.clkptr (bk + 1) = cpr.clkptr bk + 2 ∨
    cpr.funtyp bk = -2 ∧ cpr.clkptr bk < cpr.clkptr (bk + 1)
  events : ∀ ev ∈ cpr.outputEvents bk, IsEvent cpr ev

/-- The blocks a schedule may refer to. -/
def Known (activation : Activation) : Prop :=
  cpr.Ordinary activation.1 ∨ Synchro cpr activation.1

/-- Activating `ev` can activate `other`. -/
def Activates (ev other : Nat) : Prop :=
  ∃ activation ∈ cpr.activations ev, ¬ cpr.Ordinary activation.1 ∧
    other ∈ cpr.outputEvents activation.1

/-- The schedules the compiler produces: every activation names a known block, and no
event activates itself again, so that recursion over the events ends. -/
structure WellFormed : Prop where
  known : ∀ ev, IsEvent cpr ev → ∀ activation ∈ cpr.activations ev, Known cpr activation
  knownCord : ∀ activation ∈ cpr.cord, Known cpr activation
  knownIord : ∀ activation ∈ cpr.iord, Known cpr activation
  knownOord : ∀ activation ∈ cpr.oord, Known cpr activation
  acyclic : ∀ ev, IsEvent cpr ev → ¬ Relation.TransGen (Activates cpr) ev ev

end WellFormed

section Lemmas

variable {cpr : Compiled}

/-- A slice has as many elements as its size. -/
theorem slice_length (ptr : Nat → Nat) (kf : Nat) :
    (slice (ptr kf) (ptr (kf + 1))).length = (size ptr kf).toNat := by
  simp only [slice, List.length_range', size]
  omega

theorem mem_slice (lo hi k : Nat) : k ∈ slice lo hi ↔ lo ≤ k ∧ k < hi := by
  simp only [slice, List.mem_range'_1]
  omega

/-- The output events of a synchronisation block are the numbers from
`clkptr(bk)` on. -/
theorem mem_outputEvents (bk ev : Nat) :
    ev ∈ cpr.outputEvents bk ↔ cpr.clkptr bk ≤ ev ∧ ev < cpr.clkptr (bk + 1) := by
  rw [outputEvents, mem_slice]

/-- The output events of an if-then-else block. -/
theorem if_outputEvents {bk : Nat} (two : cpr.clkptr (bk + 1) = cpr.clkptr bk + 2) :
    cpr.outputEvents bk = [cpr.clkptr bk, cpr.clkptr bk + 1] := by
  rw [outputEvents, slice, two, Nat.add_sub_cancel_left]
  rfl

/-- A synchronisation block has no computational function. -/
theorem Synchro.not_ordinary {bk : Nat} (synchro : Synchro cpr bk) : ¬ cpr.Ordinary bk := by
  unfold Ordinary
  rcases synchro.kind with ⟨kind, -⟩ | ⟨kind, -⟩ <;> omega

/-- The events form a finite acyclic graph. -/
theorem WellFormed.graph (wellFormed : WellFormed cpr) : Acyclic (Activates cpr) (IsEvent cpr) where
  finite := (Set.finite_le_nat cpr.nevent).subset fun _ inside => inside.2
  closed := by
    rintro ev other inside ⟨activation, member, synchro, output⟩
    rcases wellFormed.known ev inside activation member with ordinary | known
    · exact absurd ordinary synchro
    · exact known.events other output
  irreflexive := wellFormed.acyclic

/-- The results of a list of computations, one by one. -/
theorem mapM_results (f : Nat → Option Text) (l : List Nat) (results : List Text)
    (succeeds : l.mapM f = some results) :
    (∀ a ∈ l, f a = some ((f a).getD [])) ∧ results = l.map fun a => (f a).getD [] := by
  have each : ∀ a ∈ l, f a = some ((f a).getD []) := by
    induction l generalizing results with
    | nil => exact fun a member => absurd member List.not_mem_nil
    | cons a rest inductionHypothesis =>
      simp only [List.mapM_cons, Option.bind_eq_bind, Option.bind_eq_some_iff, Option.pure_def,
        Option.some.injEq] at succeeds
      obtain ⟨b, here, later, there, -⟩ := succeeds
      rw [List.forall_mem_cons]
      exact ⟨by rw [here, Option.getD_some], inductionHypothesis later there⟩
  refine ⟨each, ?_⟩
  rw [mapM_some f _ l each] at succeeds
  exact (Option.some.inj succeeds).symm

/-- On a known block an activation has a text as soon as its output events do. -/
theorem piece_text (emission : Emission) (branch test emit : Nat → Option Text)
    (branchText testText emitText : Nat → Text) (activation : Activation)
    (known : Known cpr activation)
    (texts : ¬ cpr.Ordinary activation.1 → ∀ ev ∈ cpr.outputEvents activation.1,
      branch ev = some (branchText ev) ∧ test ev = some (testText ev) ∧
        emit ev = some (emitText ev)) :
    piece cpr emission branch test emit activation =
      some (pieceText cpr emission branchText testText emitText activation) := by
  rcases known with ordinary | synchro
  · simp only [piece, pieceText, ordinary, if_true]
  · have other := synchro.not_ordinary
    rcases synchro.kind with ⟨kind, two⟩ | ⟨kind, some⟩
    · have first := (texts other (cpr.clkptr activation.1)
        ((mem_outputEvents _ _).mpr (by omega))).1
      have second := (texts other (cpr.clkptr activation.1 + 1)
        ((mem_outputEvents _ _).mpr (by omega))).1
      simp [piece, pieceText, other, kind, first, second]
    · have tested := mapM_some test testText (cpr.outputEvents activation.1)
        fun ev member => (texts other ev member).2.1
      have emitted := mapM_some emit emitText (cpr.outputEvents activation.1)
        fun ev member => (texts other ev member).2.2
      simp [piece, pieceText, other, kind, tested, emitted]

/-- A list of known activations has a text as soon as all its output events do. -/
theorem walk_texts (emission : Emission) (branch test emit : Nat → Option Text)
    (branchText testText emitText : Nat → Text) (activations : List Activation)
    (known : ∀ activation ∈ activations, Known cpr activation)
    (texts : ∀ activation ∈ activations, ¬ cpr.Ordinary activation.1 →
      ∀ ev ∈ cpr.outputEvents activation.1, branch ev = some (branchText ev) ∧
        test ev = some (testText ev) ∧ emit ev = some (emitText ev)) :
    walk cpr emission branch test emit activations =
      some (activations.flatMap (pieceText cpr emission branchText testText emitText)) := by
  have pieces := mapM_some (piece cpr emission branch test emit)
    (pieceText cpr emission branchText testText emitText) activations fun activation member =>
      piece_text emission branch test emit branchText testText emitText activation
        (known activation member) (texts activation member)
  simp [walk, pieces, List.flatMap]

/-- The alternatives of an event-select block with a text. -/
theorem mem_labels (texts : List Text) (label : Nat) :
    label ∈ labels texts ↔ 1 ≤ label ∧ label ≤ texts.length ∧ caseText texts label ≠ [] := by
  simp only [labels, List.mem_filterMap, List.mem_range, caseText]
  constructor
  · rintro ⟨k, inside, found⟩
    split at found
    · cases found
    · rename_i text
      obtain rfl := Option.some.inj found
      exact ⟨by omega, by omega, by simpa using text⟩
  · rintro ⟨positive, inside, text⟩
    refine ⟨label - 1, by omega, ?_⟩
    rw [if_neg (by simpa using text), Nat.sub_add_cancel positive]

/-- The text of an alternative is the text of its output event. -/
theorem caseText_map (t : Nat → Text) (bk label : Nat) (positive : 1 ≤ label)
    (inside : label ≤ (cpr.outputEvents bk).length) :
    caseText ((cpr.outputEvents bk).map t) label = t (cpr.clkptr bk + (label - 1)) := by
  simp only [outputEvents, slice, List.length_range'] at inside ⊢
  simp only [caseText, List.getD_eq_getElem?_getD, List.getElem?_map]
  rw [List.getElem?_range' (by omega)]
  simp

/-- The cases with a text are those of the output events with a text. -/
theorem forall_labels_iff (test emit : Nat → Text) (bk : Nat) (P : Text → Prop) :
    (∀ label ∈ labels ((cpr.outputEvents bk).map test),
        P (caseText ((cpr.outputEvents bk).map emit) label)) ↔
      ∀ ev ∈ cpr.outputEvents bk, test ev ≠ [] → P (emit ev) := by
  have length : (cpr.outputEvents bk).length = cpr.clkptr (bk + 1) - cpr.clkptr bk := by
    simp [outputEvents, slice]
  constructor
  · intro all ev output written
    obtain ⟨low, high⟩ := (mem_outputEvents bk ev).mp output
    have label : ev - cpr.clkptr bk + 1 ≤ (cpr.outputEvents bk).length := by omega
    have event : cpr.clkptr bk + (ev - cpr.clkptr bk + 1 - 1) = ev := by omega
    have tested := caseText_map test bk _ (by omega) label
    have emitted := caseText_map emit bk _ (by omega) label
    rw [event] at tested emitted
    rw [← emitted]
    refine all _ ((mem_labels _ _).mpr ⟨by omega, by rwa [List.length_map], ?_⟩)
    rwa [tested]
  · intro all label member
    obtain ⟨positive, inside, written⟩ := (mem_labels _ _).mp member
    rw [List.length_map] at inside
    rw [caseText_map test bk label positive inside] at written
    rw [caseText_map emit bk label positive inside]
    exact all _ ((mem_outputEvents _ _).mpr (by omega)) written

/-- No case has a text if no output event has. -/
theorem labels_nil_iff (test : Nat → Text) (bk : Nat) :
    labels ((cpr.outputEvents bk).map test) = [] ↔ ∀ ev ∈ cpr.outputEvents bk, test ev = [] := by
  have none : (∀ label ∈ labels ((cpr.outputEvents bk).map test), False) ↔
      ∀ ev ∈ cpr.outputEvents bk, test ev ≠ [] → False :=
    forall_labels_iff test test bk fun _ => False
  constructor
  · intro empty ev output
    refine Decidable.byContradiction fun written => none.mp ?_ ev output written
    rw [empty]
    exact fun _ member => absurd member List.not_mem_nil
  · intro all
    apply List.eq_nil_iff_forall_not_mem.mpr
    intro label member
    exact none.mpr (fun ev output written => written (all ev output)) label member

end Lemmas

section Sample

/-- If events only activate events with smaller numbers, none activates itself. -/
theorem acyclic_of_measure {cpr : Compiled}
    (lower : ∀ ev other, Activates cpr ev other → other < ev) (ev : Nat) :
    ¬ Relation.TransGen (Activates cpr) ev ev := by
  have below (first last : Nat) (path : Relation.TransGen (Activates cpr) first last) :
      last < first := by
    induction path with
    | single one => exact lower _ _ one
    | tail _ one inductionHypothesis => exact Nat.lt_trans (lower _ _ one) inductionHypothesis
  exact fun path => Nat.lt_irrefl ev (below ev ev path)

/-- A small diagram: a constant (1) drives an if-then-else block (2) with a
choice of modes, whose first alternative holds an integrator (3). The clock (4)
is the event source. -/
def sample (modes : Nat) : Compiled where
  nb := 4
  funs bk :=
    match bk with
    | 1 => "cstblk4"
    | 2 => "ifthel"
    | 3 => "integral_func"
    | _ => "bidon"
  funtyp bk := if bk = 2 then -1 else 4
  ztyp _ := false
  xptr bk := if bk ≤ 3 then 1 else 2
  zptr _ := 1
  ozptr _ := 1
  zcptr _ := 1
  modptr bk := if bk ≤ 2 then 1 else 1 + modes
  rpptr _ := 1
  ipptr _ := 1
  opptr _ := 1
  inpptr bk := if bk ≤ 2 then 1 else if bk ≤ 3 then 2 else 3
  inplnk _ := 1
  outptr bk := if bk ≤ 1 then 1 else if bk ≤ 3 then 2 else 3
  outlnk port := port
  nlink := 2
  outtb _ := { rows := 1, cols := 1, typ := .real }
  opar _ := { rows := 0, cols := 0, typ := .real }
  oz _ := { rows := 0, cols := 0, typ := .real }
  clkptr bk := if bk ≤ 2 then 1 else if bk ≤ 4 then 3 else 4
  ordptr ev := if ev ≤ 1 then 1 else if ev ≤ 3 then 2 else 4
  ordclk row := if row = 1 then (3, 1) else if row = 2 then (1, 1) else (2, 1)
  nevent := 3
  cord := [(1, 0), (2, 0)]
  iord := [(1, 0)]
  oord := [(2, 0)]
  withWork _ := 0
  act := []
  cap := []
  actt := []
  capt := []
  implBlk := false
  howclk := 4
  nX := 1
  nRpar := 0
  nIpar := 0
  nZ := 0

/-- The activations of the sample: event 1 activates the integrator, event 3 the
constant and the if-then-else block. -/
theorem sample_activations (modes ev : Nat) (activation : Activation)
    (member : activation ∈ (sample modes).activations ev) :
    activation.1 = 1 ∨ activation.1 = 3 ∨ activation.1 = 2 ∧ ev = 3 := by
  simp only [activations, sample, List.mem_map, slice, List.mem_range'_1] at member
  obtain ⟨row, rows, rfl⟩ := member
  have few : row = 1 ∧ ev = 1 ∨ row = 2 ∨ row = 3 ∧ ev = 3 := by
    split_ifs at rows <;> omega
  rcases few with ⟨rfl, rfl⟩ | rfl | ⟨rfl, rfl⟩ <;> simp

theorem sample_outputEvents (modes : Nat) : (sample modes).outputEvents 2 = [1, 2] := rfl

/-- Block 2 of the sample is a proper if-then-else block. -/
theorem sample_synchro (modes : Nat) : Synchro (sample modes) 2 where
  kind := Or.inl ⟨rfl, rfl⟩
  events ev output := by
    simp only [sample_outputEvents, List.mem_cons, List.not_mem_nil, or_false] at output
    simp only [IsEvent, sample]
    omega

/-- All other blocks of the sample are ordinary. -/
theorem sample_ordinary (modes bk : Nat) (other : bk ≠ 2) : (sample modes).Ordinary bk := by
  simp [Ordinary, sample, other]

theorem sample_known (modes : Nat) (activation : Activation) : Known (sample modes) activation := by
  by_cases block : activation.1 = 2
  · exact Or.inr (block ▸ sample_synchro modes)
  · exact Or.inl (sample_ordinary modes _ block)

/-- The sample is well formed. -/
theorem sample_wellFormed (modes : Nat) : WellFormed (sample modes) where
  known _ _ activation _ := sample_known modes activation
  knownCord activation _ := sample_known modes activation
  knownIord activation _ := sample_known modes activation
  knownOord activation _ := sample_known modes activation
  acyclic ev _ := by
    refine acyclic_of_measure (fun ev other => ?_) ev
    rintro ⟨activation, member, synchro, output⟩
    have block : activation.1 = 2 :=
      Decidable.byContradiction fun other => synchro (sample_ordinary modes _ other)
    simp only [block, sample_outputEvents, List.mem_cons, List.not_mem_nil, or_false] at output
    rcases sample_activations modes ev activation member with one | three | ⟨-, rfl⟩ <;> omega

/-- A machine whose links all select one alternative, and whose modes are zero. -/
def steer (chosen : Nat) : Machine Unit where
  behave _ world := world
  compared _ _ := if chosen = 1 then some .gt else some .lt
  toInt _ _ := chosen
  modeZero _ _ := 0
  ajacobianBlock _ := 0

/-- The start of a derivative computation. -/
def solverMem : Mem Unit where
  world := ()
  phase := 2
  localFlag := 0
  nevprt _ := 0
  i := 0
  trace := []

end Sample

end ScicosFlex.Codegen
