import ScicosFlex.Codegen.Declarations
import ScicosFlex.Codegen.DerivativeScopes
import ScicosFlex.Codegen.Standalone

/-!
# The scopes of the generated file

`well_scoped_iff` says for which diagrams all names in the emitted statements are
declared where they stand. The prologues were written for the usual diagrams. They
miss the scratch variables of type 0 outside the solver function, the loop variable
`kf` that event outputs need in `<model>_isr`, the variable `i` in `<model>_init`,
and the array that the nested derivative code names the wrong way round.
-/

namespace ScicosFlex.Codegen

open Compiled Library.AcyclicRecursion

section Texts

variable {cpr : Compiled}

/-- A placed text is empty exactly if the text is. -/
theorem placed_nil_iff (txt : Text) : placed txt = [] ↔ txt = [] := by
  unfold placed
  split
  · rename_i empty
    exact iff_of_true rfl (List.isEmpty_iff.mp empty)
  · rename_i written
    simpa using written

variable (cpr) in
/-- The blocks with a text for flag 1, which are those a synchronisation block has code for. -/
def Worded (activation : Activation) : Prop :=
  neverCalled cpr activation.1 = false ∧
    (supported cpr activation.1 = true ∨ functionType cpr activation.1 = 3)

/-- When a calling sequence has a text. -/
theorem call_written (noSensor : cpr.capt = []) (noActuator : cpr.actt = []) (bk : Nat) (pt : Int)
    (flag : Nat) :
    callBlock42 cpr bk pt flag ≠ [] ↔ returnsAtOnce cpr bk pt flag = false ∧ Worded cpr (bk, pt) := by
  have sensor : isSensor cpr bk = false := by simp [isSensor, noSensor]
  have actuator : isActuator cpr bk = false := by simp [isActuator, noActuator]
  have sequence (pt : Int) (flag flagi : Nat) : callSequence cpr bk pt flag flagi ≠ [] ↔
      supported cpr bk = true ∨ functionType cpr bk = 3 := by
    simp only [callSequence, supported]
    split_ifs with zero one two four implicit three <;> simp [*]
  cases early : returnsAtOnce cpr bk pt flag <;> cases never : neverCalled cpr bk <;>
    simp [callBlock42, Worded, early, never, sensor, actuator, sequence]

end Texts

section Condition

variable (cpr : Compiled)

/-- A block number. -/
def IsBlock (bk : Nat) : Prop := 1 ≤ bk ∧ bk ≤ cpr.nb

/-- The diagrams the generator accepts in standalone mode: the schedule is well
formed and only names blocks, every synchronisation block has an input link, and
there are no sensors and actuators, whose tables the generator leaves empty. -/
structure Assembled : Prop where
  wellFormed : WellFormed cpr
  sources : ∀ ev ∈ evs cpr, IsEvent cpr ev
  scheduled : ∀ ev, IsEvent cpr ev → ∀ activation ∈ cpr.activations ev, IsBlock cpr activation.1
  ordered : ∀ activation ∈ cpr.cord ++ cpr.iord ++ cpr.oord, IsBlock cpr activation.1
  links : ∀ bk, Synchro cpr bk → 1 ≤ cpr.testedLink bk ∧ cpr.testedLink bk ≤ cpr.nlink
  noAct : cpr.act = []
  noCap : cpr.cap = []
  noActt : cpr.actt = []
  noCapt : cpr.capt = []

/-- All emitted statements only use names that are declared where they stand. -/
def WellScoped (model : Standalone) : Prop :=
  Scoped (Declared cpr .init) model.init ∧ Scoped (Declared cpr .isr) model.isr ∧
    Scoped (Declared cpr .termination) (endText cpr) ∧ Scoped (Declared cpr .simblk) model.simblk

/-- A block that is called has not type 0, and its function has the right prototype. -/
def Served (bk : Nat) : Prop :=
  callable cpr bk = true → functionType cpr bk ≠ 0 ∧ Prototyped cpr bk

/-- When all names are declared. Each field but the first is about a name that is declared
in some of the functions only, and says that no statement asks for it in the others. -/
structure ScopeCondition : Prop where
  served : ∀ bk ∈ slice 1 (nblk cpr + 1), Served cpr bk
  -- `kf` in `_isr`.
  events : ∀ ev ∈ evs cpr, ∀ activation,
    Reaches cpr (AnySynchro cpr) (cpr.activations ev) activation → cpr.Ordinary activation.1 →
      callable cpr activation.1 = true → 0 < activation.2 → size cpr.clkptr activation.1 = 0
  -- `i` in `_init`.
  initial : ∀ activation, Reaches cpr (AnySynchro cpr) cpr.iord activation →
    cpr.funtyp activation.1 = -2 → ¬ HasCode cpr (Worded cpr) activation
  derivative : cpr.nX ≠ 0 → cpr.implBlk = true → ∀ activation,
    Reaches cpr (IfThenElse cpr) cpr.oord activation →
      (cpr.funtyp activation.1 = -2 → ¬ HasCode cpr (Worded cpr) activation) ∧
      (cpr.Ordinary activation.1 → callable cpr activation.1 = true →
        size cpr.xptr activation.1 ≠ 0 → functionType cpr activation.1 = 10004)
  -- `<rdnom>_block` in the solver function.
  nested : cpr.nX ≠ 0 → ∀ activation ∈ cpr.oord, ¬ cpr.Ordinary activation.1 →
    ∀ ev ∈ cpr.outputEvents activation.1, ∀ inner,
      Reaches cpr (AnySynchro cpr) (cpr.activations ev) inner → IfThenElse cpr inner.1 →
        HasCode cpr (Worded cpr) inner → ¬ Searched cpr (cpr.testedLink inner.1)

end Condition

section Calls

variable {cpr : Compiled}

/-- Every activation that is reached names a block. -/
theorem reaches_block (assembled : Assembled cpr) (through : Nat → Prop)
    (synchro : ∀ bk, through bk → ¬ cpr.Ordinary bk) (start : List Activation)
    (known : ∀ activation ∈ start, Known cpr activation ∧ IsBlock cpr activation.1)
    (activation : Activation) (reached : Reaches cpr through start activation) :
    Known cpr activation ∧ IsBlock cpr activation.1 := by
  induction reached with
  | here activation member => exact known activation member
  | inner outer _ kind ev output activation member inductionHypothesis =>
    have inside := (inductionHypothesis.1.resolve_left (synchro _ kind)).events ev output
    exact ⟨assembled.wellFormed.known ev inside activation member,
      assembled.scheduled ev inside activation member⟩

/-- Every activation below an event names a block. -/
theorem event_block (assembled : Assembled cpr) (ev : Nat) (inside : IsEvent cpr ev)
    (activation : Activation)
    (reached : Reaches cpr (AnySynchro cpr) (cpr.activations ev) activation) :
    IsBlock cpr activation.1 := by
  refine (reaches_block assembled _ (fun _ synchro => synchro) _ (fun other member => ?_) activation
    reached).2
  exact ⟨assembled.wellFormed.known ev inside other member, assembled.scheduled ev inside other member⟩

/-- A block that is called is one of those with a structure. -/
theorem callable_block (bk : Nat) (inside : IsBlock cpr bk) (called : callable cpr bk = true) :
    bk ∈ slice 1 (nblk cpr + 1) := by
  obtain ⟨positive, bound⟩ := inside
  rw [mem_slice]
  unfold nblk
  split
  · rename_i clock
    have other : bk ≠ cpr.nb := by
      rintro rfl
      simp [callable, neverCalled, clock] at called
    omega
  · omega

/-- If all blocks with a structure are served, so are all blocks. -/
theorem served_block (served : ∀ bk ∈ slice 1 (nblk cpr + 1), Served cpr bk) (bk : Nat)
    (inside : IsBlock cpr bk) : Served cpr bk :=
  fun called => served bk (callable_block bk inside called) called

/-- What a called block needs beside a prototype and a type other than 0. -/
theorem served_iff (body : Body) (bk : Nat) (pt : Int) (flag : Nat)
    (called : callable cpr bk = true) (served : Served cpr bk) :
    CallDeclared cpr (Declared cpr body) bk pt flag ↔ flag ≠ 3 ∧
      (cpr.implBlk ∧ adjustFlag cpr bk flag = 0 → functionType cpr bk ≠ 10004 →
        Declared cpr body .res ∧ Declared cpr body .i ∧
          (functionType cpr bk = 4 → Declared cpr body .xd)) ∧
      (functionType cpr bk = 1 ∨ functionType cpr bk = 2 →
        size cpr.zcptr bk ≠ 0 ∧ adjustPt cpr bk pt flag < 0 → Declared cpr body .i) := by
  obtain ⟨type, prototype⟩ := served called
  rw [callDeclared_iff, declared_function, protostalone_iff bk called]
  simp only [prototype, type, not_declared_kf, false_imp_iff, true_and, false_or, imp_false, ne_eq]

/-- The calls with flags 1, 4 and 5 outside the solver function. -/
theorem plain_call (assembled : Assembled cpr) (body : Body) (outside : body ≠ .simblk) (bk : Nat)
    (pt : Int) (flag : Nat) (plain : flag = 1 ∨ flag = 4 ∨ flag = 5) :
    Scoped (Declared cpr body) (callBlock42 cpr bk pt flag) ↔ Served cpr bk := by
  have early : returnsAtOnce cpr bk pt flag = false := by
    rcases plain with rfl | rfl | rfl <;> simp [returnsAtOnce]
  have unadjusted : adjustFlag cpr bk flag ≠ 0 := by
    unfold adjustFlag
    split <;> omega
  have positive : ¬ adjustPt cpr bk pt flag < 0 := by
    rcases plain with rfl | rfl | rfl <;> simp [adjustPt]
  rw [call_scoped (declared_common body) bk pt flag assembled.noCapt assembled.noActt]
  simp only [early, true_imp_iff]
  refine forall_congr' fun called => ⟨fun all => ?_, fun served => ?_⟩
  · refine ⟨fun zero => outside (declared_args body (all.scratch zero).1), ?_⟩
    rw [← protostalone_iff bk called, ← declared_function body]
    exact all.function
  · rw [served_iff body bk pt flag called fun _ => served]
    exact ⟨by omega, fun implicit => absurd implicit.2 unadjusted,
      fun _ below => absurd below.2 positive⟩

/-- The calls with flag 7 in `<model>_init`. -/
theorem initial_derivative_call (assembled : Assembled cpr) (implicit : cpr.implBlk = true) (bk : Nat)
    (pt : Int) (served : Served cpr bk) :
    Scoped (Declared cpr .init) (callBlock42 cpr bk pt 7) ↔
      (callable cpr bk = true → size cpr.xptr bk ≠ 0 → functionType cpr bk = 10004) := by
  have early : returnsAtOnce cpr bk pt 7 = false ↔ size cpr.xptr bk ≠ 0 := by
    simp [returnsAtOnce]
  have positive : ¬ adjustPt cpr bk pt 7 < 0 := by simp [adjustPt]
  have undeclared : ¬ Declared cpr .init .i := by simp [declared_i]
  rw [call_scoped (declared_common .init) bk pt 7 assembled.noCapt assembled.noActt, early]
  rw [forall_comm]
  apply forall₂_congr
  intro called states
  have adjusted : adjustFlag cpr bk 7 = 0 ∨ functionType cpr bk = 10004 := by
    simp only [callable, supported, Bool.and_eq_true, Bool.or_eq_true, decide_eq_true_eq] at called
    unfold adjustFlag
    grind
  rw [served_iff .init bk pt 7 called served]
  simp only [positive, undeclared, implicit, and_false, false_and, true_and, imp_false]
  grind

/-- The calls with flag 3 in `<model>_isr`. -/
theorem event_call (assembled : Assembled cpr) (bk : Nat) (pt : Int) (served : Served cpr bk) :
    Scoped (Declared cpr .isr) (callBlock42 cpr bk pt 3) ↔
      (callable cpr bk = true → size cpr.clkptr bk = 0) := by
  have early : returnsAtOnce cpr bk pt 3 = false ↔ size cpr.clkptr bk ≠ 0 := by
    simp [returnsAtOnce]
  rw [call_scoped (declared_common .isr) bk pt 3 assembled.noCapt assembled.noActt, early]
  rw [forall_comm]
  apply forall_congr'
  intro called
  rw [served_iff .isr bk pt 3 called served]
  simp only [ne_eq, not_true_eq_false, false_and, imp_false, not_not]

/-- The calls with flag 2 in `<model>_isr`. -/
theorem state_call (assembled : Assembled cpr) (bk : Nat) (pt : Int) (served : Served cpr bk) :
    Scoped (Declared cpr .isr) (callBlock42 cpr bk pt 2) := by
  rw [call_scoped (declared_common .isr) bk pt 2 assembled.noCapt assembled.noActt]
  intro _ called
  have unadjusted : adjustFlag cpr bk 2 ≠ 0 := by simp [adjustFlag]
  rw [served_iff .isr bk pt 2 called served]
  exact ⟨by omega, fun implicit => absurd implicit.2 unadjusted,
    fun _ _ => (declared_i .isr).mpr (Or.inl rfl)⟩

/-- The calls of the solver function. -/
theorem solver_call (assembled : Assembled cpr) (bk : Nat) (pt : Int) (flag : Nat)
    (solver : flag = 1 ∨ flag = 0) (served : Served cpr bk) :
    Scoped (Declared cpr .simblk) (callBlock42 cpr bk pt flag) := by
  rw [call_scoped (declared_common .simblk) bk pt flag assembled.noCapt assembled.noActt]
  intro _ called
  have i : Declared cpr .simblk .i := (declared_i .simblk).mpr (Or.inr rfl)
  rw [served_iff .simblk bk pt flag called served]
  exact ⟨by omega, fun implicit _ => ⟨declared_res implicit.1, i, fun _ => declared_xd⟩,
    fun _ _ => i⟩

end Calls

section Walks

variable {cpr : Compiled}

/-- The heads of the discrete code use declared names. -/
theorem discrete_heads (assembled : Assembled cpr) (body : Body) (emission : Emission)
    (ifHead : emission.ifThenElse = ifPositive cpr)
    (selectHead : emission.eventSelect = switchLink cpr) (bk : Nat) (synchro : Synchro cpr bk) :
    PlainHeads (Declared cpr body) emission bk :=
  doit_heads emission ifHead selectHead bk (declared_common body).blockArray
    (declared_outtb body _ (assembled.links bk synchro))

/-- Without sensors and actuators `write_code_doit` and `write_code_cdoit` emit the
same for flag 1. -/
theorem doit_cdoit (assembled : Assembled cpr) : doitEmission cpr 1 = cdoitEmission cpr 1 := by
  simp [doitEmission, cdoitEmission, assembled.noAct, assembled.noCap]

/-- For flag 1 exactly the worded blocks have a text. -/
theorem emitted_iff (assembled : Assembled cpr) (activation : Activation) :
    Emitted (cdoitEmission cpr 1) activation ↔ Worded cpr activation := by
  have early : returnsAtOnce cpr activation.1 activation.2 1 = false := by simp [returnsAtOnce]
  simp only [Emitted, cdoitEmission, ne_eq, placed_nil_iff]
  rw [← ne_eq, call_written assembled.noCapt assembled.noActt]
  simp only [early, true_and]

/-- What reached activations need of a text for flag 1 whose blocks are served. -/
theorem fine_iff (assembled : Assembled cpr) (body : Body) (outside : body ≠ .simblk)
    (activation : Activation) (served : Served cpr activation.1) :
    Fine cpr (Declared cpr body) (cdoitEmission cpr 1) activation ↔
      (cpr.funtyp activation.1 = -2 → HasCode cpr (Worded cpr) activation → Declared cpr body .i) := by
  have call : Scoped (Declared cpr body) ((cdoitEmission cpr 1).ordinary activation) := by
    simp only [cdoitEmission, scoped_placed]
    exact (plain_call assembled body outside _ _ 1 (Or.inl rfl)).mpr served
  have code : HasCode cpr (Emitted (cdoitEmission cpr 1)) activation ↔
      HasCode cpr (Worded cpr) activation :=
    ⟨HasCode.mono fun other => (emitted_iff assembled other).mp,
      HasCode.mono fun other => (emitted_iff assembled other).mpr⟩
  simp only [Fine, call, implies_true, true_and, code]

/-- A list such as `cord` or `iord` for flag 1, when all blocks are served. -/
theorem list_scoped (assembled : Assembled cpr)
    (served : ∀ bk ∈ slice 1 (nblk cpr + 1), Served cpr bk) (body : Body)
    (outside : body ≠ .simblk) (fuel : Nat)
    (enough : ∀ ev, IsEvent cpr ev → rank (Activates cpr) ev < fuel) (start : List Activation)
    (known : ∀ activation ∈ start, Known cpr activation ∧ IsBlock cpr activation.1) (text : Text)
    (generated : walk cpr (cdoitEmission cpr 1) (fun ev => writeCodeDoit cpr fuel ev 1)
      (fun ev => writeCodeDoit cpr fuel ev 1) (fun ev => writeCodeDoit cpr fuel ev 1) start =
        some text) :
    Scoped (Declared cpr body) text ↔ ∀ activation, Reaches cpr (AnySynchro cpr) start activation →
      cpr.funtyp activation.1 = -2 → HasCode cpr (Worded cpr) activation → Declared cpr body .i := by
  obtain ⟨t, solves, found⟩ := doit_texts assembled.wellFormed 1
  have kinds := fun activation member => (known activation member).1
  have written := walk_texts (cdoitEmission cpr 1) _ _ _ t t t start kinds
    fun activation member synchro ev output => by
      have inside := ((kinds activation member).resolve_left synchro).events ev output
      have text := found ev inside fuel (enough ev inside)
      exact ⟨text, text, text⟩
  rw [written] at generated
  obtain rfl := Option.some.inj generated
  rw [doit_cdoit assembled] at solves
  rw [walk_scoped assembled.wellFormed (cdoitEmission cpr 1) t solves
    (discrete_heads assembled body _ rfl rfl) start kinds]
  apply forall₂_congr
  intro activation reached
  have block := (reaches_block assembled _ (fun _ synchro => synchro) start known activation reached).2
  exact fine_iff assembled body outside activation (served_block served _ block)

/-- The text of an event for flag 1, 3 or 2 in `<model>_isr`. The loop over the output
events only comes with flag 3. -/
theorem event_scoped (assembled : Assembled cpr)
    (served : ∀ bk ∈ slice 1 (nblk cpr + 1), Served cpr bk) (flag : Nat)
    (direct : flag = 1 ∨ flag = 3 ∨ flag = 2) (fuel : Nat) (ev : Nat) (inside : IsEvent cpr ev)
    (enough : rank (Activates cpr) ev < fuel) (text : Text)
    (generated : writeCodeDoit cpr fuel ev flag = some text) :
    Scoped (Declared cpr .isr) text ↔ ∀ activation,
      Reaches cpr (AnySynchro cpr) (cpr.activations ev) activation → cpr.Ordinary activation.1 →
        flag = 3 → callable cpr activation.1 = true → 0 < activation.2 →
          size cpr.clkptr activation.1 = 0 := by
  obtain ⟨t, solves, found⟩ := doit_texts assembled.wellFormed flag
  rw [found ev inside fuel enough] at generated
  obtain rfl := Option.some.inj generated
  have known := assembled.wellFormed.known ev inside
  rw [solves ev inside, walk_scoped assembled.wellFormed (doitEmission cpr flag) t solves
    (discrete_heads assembled .isr _ rfl rfl) _ known]
  apply forall₂_congr
  intro activation reached
  have here := served_block served _ (event_block assembled ev inside activation reached)
  have i : Declared cpr .isr .i := (declared_i .isr).mpr (Or.inl rfl)
  simp only [Fine, i, implies_true, and_true]
  apply forall_congr'
  intro ordinary
  simp only [doitEmission, assembled.noAct, assembled.noCap, List.not_mem_nil, or_self, if_false]
  rcases direct with rfl | rfl | rfl
  · simp [plain_call assembled .isr (by simp), here]
  · by_cases positive : 0 < activation.2
    · simp [positive, event_call assembled _ _ here]
    · simp [positive]
  · split_ifs <;> simp [state_call assembled _ _ here]

/-- What has code for some flag has code for flag 1. -/
theorem worded_code (assembled : Assembled cpr) (flag : Nat) (activation : Activation)
    (code : HasCode cpr (Emitted (cdoitEmission cpr flag)) activation) :
    HasCode cpr (Worded cpr) activation := by
  refine HasCode.mono (fun other emitted => ?_) code
  simp only [Emitted, cdoitEmission, ne_eq, placed_nil_iff] at emitted
  exact ((call_written assembled.noCapt assembled.noActt _ _ flag).mp emitted).2

/-- Without sensors and actuators the nested derivative code calls every block. -/
theorem ozdoit_ordinary (assembled : Assembled cpr) (flag : Nat) (activation : Activation) :
    (ozdoitHeads cpr flag).ordinary activation = (cdoitEmission cpr flag).ordinary activation := by
  simp [ozdoitHeads, cdoitEmission, assembled.noAct, assembled.noCap]

/-- One pass of `write_code_reinitdoit`, when all blocks are served. Event-select blocks
of `oord` itself are asked about in another generator than those below, so they are
spoken of apart. -/
theorem pass_scoped (assembled : Assembled cpr) (flag : Nat) (starts : flag = 1 ∨ flag = 7)
    (fuel : Nat) (deep : {ev | IsEvent cpr ev}.ncard < fuel) (text : Text)
    (generated : writeCodeReinitdoit cpr fuel flag = some text) :
    Scoped (Declared cpr .init) text ↔
      (∀ activation, Reaches cpr (IfThenElse cpr) cpr.oord activation →
        FineWithoutI cpr (Declared cpr .init) (cdoitEmission cpr flag)
          (HasCode cpr (Emitted (doitEmission cpr flag))) activation) ∧
      ∀ activation ∈ cpr.oord, cpr.funtyp activation.1 = -2 →
        ¬ HasCode cpr (Emitted (cdoitEmission cpr flag)) activation := by
  obtain ⟨s, t, u, texts⟩ := startTexts_exist assembled.wellFormed flag fuel deep
  obtain rfl := texts.reinitdoit_text assembled.wellFormed text generated
  have undeclared : ¬ Declared cpr .init .i := by simp [declared_i]
  have heads (bk : Nat) (synchro : Synchro cpr bk) :
      PlainHeads (Declared cpr .init) (reinitdoitEmission cpr flag) bk :=
    reinitdoit_heads flag bk (declared_common .init).blockArray
      (declared_outtb .init _ (assembled.links bk synchro))
  refine reinit_scoped assembled.wellFormed undeclared (reinitdoitEmission cpr flag)
    (cdoitEmission cpr flag) (doitEmission cpr flag) (Emitted (cdoitEmission cpr flag)) s t u texts.own
    texts.solves (fun ev inside => ?_) (fun activation emitted => ?_) rfl heads
    (discrete_heads assembled .init _ rfl rfl) cpr.oord assembled.wellFormed.knownOord
  · refine ozdoit_written assembled.wellFormed flag _ (fun activation => ?_) fuel _ ev _ inside
      (texts.asked ev inside)
    rw [ozdoit_ordinary assembled, Emitted]
  · simp only [Emitted, doitEmission, assembled.noAct, assembled.noCap, List.not_mem_nil, or_self,
      if_false] at emitted
    simp only [Emitted, cdoitEmission]
    rcases starts with rfl | rfl
    · simpa using emitted
    · by_cases positive : 0 < activation.2
      · simpa [positive] using emitted
      · simp [positive] at emitted

/-- Both passes of `write_code_reinitdoit`, when all blocks are served. A block has a text
in one of the passes exactly if it has one for flag 1, so the two conditions become one. -/
theorem derivative_scoped (assembled : Assembled cpr) (implicit : cpr.implBlk = true)
    (served : ∀ bk ∈ slice 1 (nblk cpr + 1), Served cpr bk) (fuel : Nat)
    (deep : {ev | IsEvent cpr ev}.ncard < fuel) (first second : Text)
    (passOne : writeCodeReinitdoit cpr fuel 1 = some first)
    (passTwo : writeCodeReinitdoit cpr fuel 7 = some second) :
    Scoped (Declared cpr .init) (first ++ second) ↔ ∀ activation,
      Reaches cpr (IfThenElse cpr) cpr.oord activation →
        (cpr.funtyp activation.1 = -2 → ¬ HasCode cpr (Worded cpr) activation) ∧
        (cpr.Ordinary activation.1 → callable cpr activation.1 = true →
          size cpr.xptr activation.1 ≠ 0 → functionType cpr activation.1 = 10004) := by
  have here (activation : Activation) (reached : Reaches cpr (IfThenElse cpr) cpr.oord activation) :
      Served cpr activation.1 := by
    refine served_block served _ (reaches_block assembled _ (fun _ => ifThenElse_not_ordinary) cpr.oord
      (fun other member => ⟨assembled.wellFormed.knownOord other member, ?_⟩) activation reached).2
    exact assembled.ordered other (List.mem_append_right _ member)
  have worded (activation : Activation) :
      HasCode cpr (Emitted (doitEmission cpr 1)) activation ↔ HasCode cpr (Worded cpr) activation := by
    rw [doit_cdoit assembled]
    exact ⟨worded_code assembled 1 activation,
      HasCode.mono fun other => (emitted_iff assembled other).mpr⟩
  have less (activation : Activation) (code : HasCode cpr (Emitted (doitEmission cpr 7)) activation) :
      HasCode cpr (Worded cpr) activation := by
    refine worded_code assembled 7 activation (HasCode.mono (fun other emitted => ?_) code)
    by_cases positive : 0 < other.2 <;>
      simp_all [Emitted, doitEmission, cdoitEmission, assembled.noAct, assembled.noCap]
  have callOne (activation : Activation) (block : Served cpr activation.1) :
      Scoped (Declared cpr .init) ((cdoitEmission cpr 1).ordinary activation) := by
    simp only [cdoitEmission, scoped_placed]
    exact (plain_call assembled .init (by simp) _ _ 1 (Or.inl rfl)).mpr block
  have callTwo (activation : Activation) (block : Served cpr activation.1) :
      Scoped (Declared cpr .init) ((cdoitEmission cpr 7).ordinary activation) ↔
        (callable cpr activation.1 = true → size cpr.xptr activation.1 ≠ 0 →
          functionType cpr activation.1 = 10004) := by
    simp only [cdoitEmission, scoped_placed]
    exact initial_derivative_call assembled implicit _ _ block
  rw [scoped_append, pass_scoped assembled 1 (Or.inl rfl) fuel deep first passOne,
    pass_scoped assembled 7 (Or.inr rfl) fuel deep second passTwo]
  constructor
  · rintro ⟨⟨one, -⟩, two, -⟩ activation reached
    refine ⟨fun kind code => (one activation reached).2 kind ((worded activation).mpr code), ?_⟩
    intro ordinary
    exact (callTwo activation (here activation reached)).mp ((two activation reached).1 ordinary)
  · intro all
    refine ⟨⟨fun activation reached => ⟨fun _ => callOne activation (here activation reached), ?_⟩, ?_⟩,
      fun activation reached => ⟨fun ordinary => ?_, ?_⟩, ?_⟩
    · exact fun kind code => (all activation reached).1 kind ((worded activation).mp code)
    · exact fun activation member kind code =>
        (all activation (.here activation member)).1 kind (worded_code assembled 1 activation code)
    · exact (callTwo activation (here activation reached)).mpr ((all activation reached).2 ordinary)
    · exact fun kind code => (all activation reached).1 kind (less activation code)
    · exact fun activation member kind code =>
        (all activation (.here activation member)).1 kind (worded_code assembled 7 activation code)

/-- The solver function for one flag, when all blocks are served. All searches of
`write_code_ozdoit` that find a producer name the wrong array; those of
`write_code_odoit` name the right one. -/
theorem solver_scoped (assembled : Assembled cpr)
    (served : ∀ bk ∈ slice 1 (nblk cpr + 1), Served cpr bk) (flag : Nat)
    (solver : flag = 1 ∨ flag = 0) (fuel : Nat) (text : Text)
    (generated : writeCodeOdoit cpr fuel flag = some text) :
    Scoped (Declared cpr .simblk) text ↔ ∀ activation ∈ cpr.oord, ¬ cpr.Ordinary activation.1 →
      ∀ ev ∈ cpr.outputEvents activation.1, ∀ inner,
        Reaches cpr (AnySynchro cpr) (cpr.activations ev) inner → IfThenElse cpr inner.1 →
          HasCode cpr (Emitted (cdoitEmission cpr flag)) inner →
            ¬ Searched cpr (cpr.testedLink inner.1) := by
  have call (activation : Activation) (block : IsBlock cpr activation.1) :
      Scoped (Declared cpr .simblk) ((cdoitEmission cpr flag).ordinary activation) := by
    simp only [cdoitEmission, scoped_placed]
    exact solver_call assembled _ _ flag solver (served_block served _ block)
  have blocks (activation : Activation) (member : activation ∈ cpr.oord) :
      IsBlock cpr activation.1 := assembled.ordered activation (List.mem_append_right _ member)
  rw [odoit_scoped assembled.wellFormed flag (Emitted (cdoitEmission cpr flag))
    (fun activation => by rw [ozdoit_ordinary assembled, Emitted])
    (declared_common .simblk).blockArray (declared_phase .simblk)
    ((declared_i .simblk).mpr (Or.inr rfl)) (not_declared_reversedArray .simblk)
    (fun bk synchro => declared_outtb .simblk _ (assembled.links bk synchro)) fuel text generated]
  apply forall₂_congr
  intro activation member
  have top : Scoped (Declared cpr .simblk) ((odoitHeads cpr flag).ordinary activation) := by
    have plain : (odoitHeads cpr flag).ordinary activation =
        (cdoitEmission cpr flag).ordinary activation := by
      have other : flag ≠ 10 := by omega
      simp [odoitHeads, cdoitEmission, assembled.noCap, other]
    rw [plain]
    exact call activation (blocks activation member)
  simp only [top, implies_true, true_and]
  refine forall_congr' fun synchro => forall_congr' fun ev => forall_congr' fun output => ?_
  apply forall₂_congr
  intro inner reached
  have inside := ((assembled.wellFormed.knownOord activation member).resolve_left synchro).events
    ev output
  have block := event_block assembled ev inside inner reached
  simp only [FineLink, ozdoit_ordinary assembled, call inner block, implies_true, true_and]

end Walks

section Bodies

variable {cpr : Compiled}

/-- A text with a comment above it uses the same names. -/
@[simp] theorem scoped_headed (declared : Ident → Prop) (note : String) (txt : Text) :
    Scoped declared (headed note txt) ↔ Scoped declared txt := by
  unfold headed
  split
  · rename_i empty
    rw [List.isEmpty_iff.mp empty]
  · simp [scoped_line, lineNames]

/-- The calls of all blocks for flag 4 or 5. -/
theorem flagText_scoped (assembled : Assembled cpr) (body : Body) (outside : body ≠ .simblk)
    (flag : Nat) (plain : flag = 1 ∨ flag = 4 ∨ flag = 5) :
    Scoped (Declared cpr body) (flagText cpr flag) ↔
      ∀ bk ∈ slice 1 (nblk cpr + 1), Served cpr bk := by
  rw [flagText, scoped_flatMap]
  apply forall₂_congr
  intro bk member
  rw [← plain_call assembled body outside bk 0 flag plain]
  dsimp only
  split
  · rename_i empty
    rw [List.isEmpty_iff.mp empty]
  · simp [scoped_line, lineNames]

/-- The parts of `<model>_init`; only an implicit model has a derivative part. -/
theorem initText_parts (fuel : Nat) (init : Text) (generated : initText cpr fuel = some init) :
    ∃ initial derivative, writeCodeIdoit cpr fuel = some initial ∧
      (cpr.nX ≠ 0 ∧ cpr.implBlk = true ∧ (∃ first second,
        writeCodeReinitdoit cpr fuel 1 = some first ∧ writeCodeReinitdoit cpr fuel 7 = some second ∧
          derivative = first ++ second) ∨
        ¬ (cpr.nX ≠ 0 ∧ cpr.implBlk = true) ∧ derivative = []) ∧
      init = .line (.comment (.other "flag 4")) :: flagText cpr 4 ++
        headed "Initial blocks must be called with flag 1" initial ++
        headed "Initial derivative computation" derivative := by
  simp only [initText, Option.bind_eq_bind, Option.bind_eq_some_iff] at generated
  obtain ⟨initial, start, rest⟩ := generated
  by_cases implicit : cpr.nX ≠ 0 ∧ cpr.implBlk = true
  · simp only [if_pos implicit, Option.bind_some, Option.bind_eq_some_iff, Option.some.injEq] at rest
    obtain ⟨first, passOne, second, passTwo, rfl⟩ := rest
    exact ⟨initial, _, start, Or.inl ⟨implicit.1, implicit.2, first, second, passOne, passTwo, rfl⟩, rfl⟩
  · simp only [if_neg implicit, Option.bind_some, Option.some.injEq] at rest
    exact ⟨initial, [], start, Or.inr ⟨implicit, rfl⟩, rest.symm⟩

/-- `<model>_init`. It calls all blocks, so it is here that each has to be served;
besides, `i` is not declared in it, which cases and the initial derivatives of most
blocks use. -/
theorem init_scoped (assembled : Assembled cpr) (fuel : Nat)
    (deep : {ev | IsEvent cpr ev}.ncard < fuel) (init : Text)
    (generated : initText cpr fuel = some init) :
    Scoped (Declared cpr .init) init ↔
      (∀ bk ∈ slice 1 (nblk cpr + 1), Served cpr bk) ∧
      (∀ activation, Reaches cpr (AnySynchro cpr) cpr.iord activation →
        cpr.funtyp activation.1 = -2 → ¬ HasCode cpr (Worded cpr) activation) ∧
      (cpr.nX ≠ 0 → cpr.implBlk = true → ∀ activation,
        Reaches cpr (IfThenElse cpr) cpr.oord activation →
          (cpr.funtyp activation.1 = -2 → ¬ HasCode cpr (Worded cpr) activation) ∧
          (cpr.Ordinary activation.1 → callable cpr activation.1 = true →
            size cpr.xptr activation.1 ≠ 0 → functionType cpr activation.1 = 10004)) := by
  have enough (ev : Nat) (inside : IsEvent cpr ev) : rank (Activates cpr) ev < fuel :=
    Nat.lt_of_le_of_lt (rank_le assembled.wellFormed.graph ev inside) deep
  have known (activation : Activation) (member : activation ∈ cpr.iord) :
      Known cpr activation ∧ IsBlock cpr activation.1 :=
    ⟨assembled.wellFormed.knownIord activation member, assembled.ordered activation (by simp [member])⟩
  have undeclared : ¬ Declared cpr .init .i := by simp [declared_i]
  obtain ⟨initial, derivative, start, solver, rfl⟩ := initText_parts fuel init generated
  have note : ∀ name ∈ lineNames (.comment (.other "flag 4")), Declared cpr .init name := by
    simp [lineNames]
  rw [List.cons_append, List.cons_append, scoped_cons, scoped_append, scoped_append, scoped_headed,
    scoped_headed, flagText_scoped assembled .init (by simp) 4 (Or.inr (Or.inl rfl)), and_assoc]
  refine (and_iff_right note).trans (and_congr_right fun served => and_congr ?_ ?_)
  · rw [list_scoped assembled served .init (by simp) fuel enough cpr.iord known initial start]
    simp only [undeclared, imp_false]
  · rcases solver with ⟨states, implicit, first, second, passOne, passTwo, rfl⟩ | ⟨explicit, rfl⟩
    · rw [derivative_scoped assembled implicit served fuel deep first second passOne passTwo]
      exact ⟨fun all _ _ => all, fun all => all states implicit⟩
    · exact iff_of_true (scoped_nil _) fun states block => absurd ⟨states, block⟩ explicit

/-- The calls of `<model>_isr` for one flag, when all blocks are served, over all events
it goes through. -/
theorem flagPass_scoped (assembled : Assembled cpr)
    (served : ∀ bk ∈ slice 1 (nblk cpr + 1), Served cpr bk) (flag : Nat)
    (direct : flag = 1 ∨ flag = 3 ∨ flag = 2) (fuel : Nat)
    (deep : {ev | IsEvent cpr ev}.ncard < fuel) (text : Text)
    (generated : flagPass cpr fuel flag = some text) :
    Scoped (Declared cpr .isr) text ↔ ∀ ev ∈ evs cpr, ∀ activation,
      Reaches cpr (AnySynchro cpr) (cpr.activations ev) activation → cpr.Ordinary activation.1 →
        flag = 3 → callable cpr activation.1 = true → 0 < activation.2 →
          size cpr.clkptr activation.1 = 0 := by
  have enough (ev : Nat) (inside : IsEvent cpr ev) : rank (Activates cpr) ev < fuel :=
    Nat.lt_of_le_of_lt (rank_le assembled.wellFormed.graph ev inside) deep
  have i : Declared cpr .isr .i := (declared_i .isr).mpr (Or.inl rfl)
  simp only [flagPass, Option.bind_eq_bind, Option.bind_eq_some_iff, Option.some.injEq] at generated
  obtain ⟨continuous, here, events, there, rfl⟩ := generated
  have first : Scoped (Declared cpr .isr) continuous := by
    by_cases one : flag = 1
    · subst one
      rw [if_pos rfl] at here
      refine (list_scoped assembled served .isr (by simp) fuel enough cpr.cord
        (fun activation member => ⟨assembled.wellFormed.knownCord activation member, ?_⟩)
        continuous here).mpr fun _ _ _ _ => i
      exact assembled.ordered activation (by simp [member])
    · rw [if_neg one] at here
      obtain rfl := Option.some.inj here
      exact scoped_nil _
  obtain ⟨each, rfl⟩ := mapM_results _ _ _ there
  simp only [scoped_headed, scoped_append, first, true_and, scoped_flatMap, List.forall_mem_map,
    scoped_placed]
  apply forall₂_congr
  intro ev member
  have inside := assembled.sources ev member
  exact event_scoped assembled served flag direct fuel ev inside (enough ev inside) _ (each ev member)

/-- `<model>_isr`, when all blocks are served. The only name that can be missing there
is the loop variable over the output events. -/
theorem isr_scoped (assembled : Assembled cpr)
    (served : ∀ bk ∈ slice 1 (nblk cpr + 1), Served cpr bk) (fuel : Nat)
    (deep : {ev | IsEvent cpr ev}.ncard < fuel) (isr : Text)
    (generated : isrText cpr fuel = some isr) :
    Scoped (Declared cpr .isr) isr ↔ ∀ ev ∈ evs cpr, ∀ activation,
      Reaches cpr (AnySynchro cpr) (cpr.activations ev) activation → cpr.Ordinary activation.1 →
        callable cpr activation.1 = true → 0 < activation.2 → size cpr.clkptr activation.1 = 0 := by
  simp only [isrText, List.mapM_cons, List.mapM_nil, Option.bind_eq_bind, Option.bind_eq_some_iff,
    Option.pure_def, Option.some.injEq] at generated
  obtain ⟨passes, ⟨one, first, _, ⟨three, third, _, ⟨two, second, _, rfl, rfl⟩, rfl⟩, rfl⟩, rfl⟩ :=
    generated
  simp only [List.flatten_cons, List.flatten_nil, List.append_nil, scoped_append]
  rw [flagPass_scoped assembled served 1 (by simp) fuel deep one first,
    flagPass_scoped assembled served 3 (by simp) fuel deep three third,
    flagPass_scoped assembled served 2 (by simp) fuel deep two second]
  simp

/-- The solver function, when all blocks are served. The only name that can be missing
there is the one that `write_code_ozdoit` tests below the alternatives. -/
theorem simblk_scoped (assembled : Assembled cpr)
    (served : ∀ bk ∈ slice 1 (nblk cpr + 1), Served cpr bk) (fuel : Nat) (simblk : Text)
    (generated : simblkText cpr fuel = some simblk) :
    Scoped (Declared cpr .simblk) simblk ↔ (cpr.nX ≠ 0 → ∀ activation ∈ cpr.oord,
      ¬ cpr.Ordinary activation.1 → ∀ ev ∈ cpr.outputEvents activation.1, ∀ inner,
        Reaches cpr (AnySynchro cpr) (cpr.activations ev) inner → IfThenElse cpr inner.1 →
          HasCode cpr (Worded cpr) inner → ¬ Searched cpr (cpr.testedLink inner.1)) := by
  unfold simblkText at generated
  by_cases none : cpr.nX = 0
  · rw [if_pos none] at generated
    obtain rfl := Option.some.inj generated
    exact iff_of_true (scoped_nil _) fun some => absurd none some
  · simp only [if_neg none, Option.bind_eq_bind, Option.bind_eq_some_iff, Option.some.injEq]
      at generated
    obtain ⟨output, one, derivative, zero, rfl⟩ := generated
    rw [scoped_append, solver_scoped assembled served 1 (Or.inl rfl) fuel output one,
      solver_scoped assembled served 0 (Or.inr rfl) fuel derivative zero]
    constructor
    · rintro ⟨all, -⟩ - activation member synchro ev output inner reached kind code
      exact all activation member synchro ev output inner reached kind
        (HasCode.mono (fun other => (emitted_iff assembled other).mpr) code)
    · intro all
      refine ⟨?_, ?_⟩ <;> intro activation member synchro ev output inner reached kind code <;>
        exact all none activation member synchro ev output inner reached kind
          (worded_code assembled _ inner code)

/-- The generated file exists exactly if the generator does not stop. All names in its
statements are then declared where they stand exactly if
every called block has a type other than 0 and the right prototype, no block with
output events is activated with a positive number by the clock, no event-select
block with code is reached in `<model>_init`, all blocks whose initial derivative is
computed there are fully implicit, and no if-then-else block with code inside
another alternative of the solver function has a link that the search finds. -/
theorem well_scoped_iff (cpr : Compiled) (assembled : Assembled cpr) :
    ∃ bound, ∀ fuel, bound ≤ fuel →
      ((∃ model, makeStandalonert cpr fuel = some model) ↔ ¬ GeneratorStops cpr) ∧
      ∀ model, makeStandalonert cpr fuel = some model →
        (WellScoped cpr model ↔ ScopeCondition cpr) := by
  refine ⟨{ev | IsEvent cpr ev}.ncard + 1, fun fuel deep =>
    ⟨standalone_iff assembled.wellFormed assembled.sources fuel deep, fun model made => ?_⟩⟩
  simp only [makeStandalonert, Option.bind_eq_bind, Option.bind_eq_some_iff, Option.some.injEq]
    at made
  obtain ⟨init, first, isr, second, simblk, third, rfl⟩ := made
  have last : Scoped (Declared cpr .termination) (endText cpr) ↔
      ∀ bk ∈ slice 1 (nblk cpr + 1), Served cpr bk := by
    rw [endText, scoped_cons, flagText_scoped assembled .termination (by simp) 5 (by simp)]
    simp [scoped_line, lineNames]
  rw [WellScoped, init_scoped assembled fuel deep init first, last]
  constructor
  · rintro ⟨⟨served, initial, derivative⟩, events, -, nested⟩
    exact ⟨served, (isr_scoped assembled served fuel deep isr second).mp events, initial, derivative,
      (simblk_scoped assembled served fuel simblk third).mp nested⟩
  · rintro ⟨served, events, initial, derivative, nested⟩
    exact ⟨⟨served, initial, derivative⟩,
      (isr_scoped assembled served fuel deep isr second).mpr events, served,
      (simblk_scoped assembled served fuel simblk third).mpr nested⟩

end Bodies

section Sample

/-- The sample is assembled. -/
theorem sample_assembled : Assembled (sample 0) where
  wellFormed := sample_wellFormed 0
  sources := sample_evs 0
  scheduled ev _ activation member := by
    have range := sample_activations 0 ev activation member
    have nb : (sample 0).nb = 4 := rfl
    unfold IsBlock
    omega
  ordered activation member := by
    simp only [sample, List.cons_append, List.nil_append, List.mem_cons, List.not_mem_nil,
      or_false] at member
    rcases member with rfl | rfl | rfl | rfl <;> simp [IsBlock, sample]
  links _ _ := ⟨Nat.le_refl 1, Nat.le_succ 1⟩
  noAct := rfl
  noCap := rfl
  noActt := rfl
  noCapt := rfl

/-- Only the first three blocks of the sample are reached from its events, and the
if-then-else block only from event 3. -/
theorem sample_reaches (ev : Nat) (activation : Activation)
    (reached : Reaches (sample 0) (AnySynchro (sample 0)) ((sample 0).activations ev) activation) :
    activation.1 = 1 ∨ activation.1 = 3 ∨ activation.1 = 2 ∧ ev = 3 := by
  induction reached with
  | here activation member => exact sample_activations 0 ev activation member
  | inner outer _ synchro other output activation member inductionHypothesis =>
    have block : outer.1 = 2 :=
      Decidable.byContradiction fun ordinary => synchro (sample_ordinary 0 _ ordinary)
    rcases sample_activations 0 other activation member with one | three | ⟨-, third⟩
    · exact Or.inl one
    · exact Or.inr (Or.inl three)
    · rw [block, sample_outputEvents, third] at output
      simp at output

/-- All names of the sample are declared. -/
theorem sample_condition : ScopeCondition (sample 0) where
  served := by
    unfold Served Prototyped
    decide
  events ev _ activation reached ordinary _ _ := by
    rcases sample_reaches ev activation reached with one | three | ⟨two, -⟩
    · rw [one]
      rfl
    · rw [three]
      rfl
    · rw [two] at ordinary
      exact absurd (sample_synchro 0).not_ordinary (not_not_intro ordinary)
  initial activation _ kind := by
    simp only [sample] at kind
    split at kind <;> omega
  derivative _ implicit := by cases implicit
  nested _ activation member _ ev output inner reached kind := by
    have block : activation.1 = 2 := by
      rw [List.mem_singleton.mp member]
    rw [block, sample_outputEvents] at output
    have notTwo : inner.1 ≠ 2 := by
      rcases sample_reaches ev inner reached with one | three | ⟨-, rfl⟩
      · omega
      · omega
      · simp at output
    exact absurd (sample_ordinary 0 inner.1 notTwo) (ifThenElse_not_ordinary kind)

/-- An instance: the names in the sample are declared. -/
theorem sample_scoped : ∃ bound, ∀ fuel, bound ≤ fuel →
    ∃ model, makeStandalonert (sample 0) fuel = some model ∧ WellScoped (sample 0) model := by
  obtain ⟨bound, all⟩ := well_scoped_iff (sample 0) sample_assembled
  refine ⟨bound, fun fuel deep => ?_⟩
  obtain ⟨written, declares⟩ := all fuel deep
  obtain ⟨model, made⟩ := written.mpr (sample_goes 0)
  exact ⟨model, made, (declares model made).mpr sample_condition⟩

/-- The sample with an integrator of type 0. -/
def oldSample : Compiled :=
  { sample 0 with
    funs := fun bk => if bk = 3 then "integr" else (sample 0).funs bk
    funtyp := fun bk => if bk = 3 then 0 else (sample 0).funtyp bk }

/-- The blocks of that sample are ordinary but for the if-then-else block. -/
theorem oldSample_ordinary (bk : Nat) : oldSample.Ordinary bk ↔ bk ≠ 2 := by
  simp only [Ordinary, oldSample, sample]
  split_ifs <;> omega

theorem oldSample_known (activation : Activation) : Known oldSample activation := by
  by_cases block : activation.1 = 2
  · refine Or.inr (block ▸ ⟨Or.inl ⟨rfl, rfl⟩, ?_⟩)
    exact (sample_synchro 0).events
  · exact Or.inl ((oldSample_ordinary _).mpr block)

/-- It is assembled as well. -/
theorem oldSample_assembled : Assembled oldSample where
  wellFormed :=
    { known := fun _ _ activation _ => oldSample_known activation
      knownCord := fun activation _ => oldSample_known activation
      knownIord := fun activation _ => oldSample_known activation
      knownOord := fun activation _ => oldSample_known activation
      acyclic := fun ev inside path => by
        refine (sample_wellFormed 0).acyclic ev inside (path.lift id ?_)
        rintro first other ⟨activation, member, synchro, output⟩
        have block : activation.1 = 2 :=
          Decidable.byContradiction fun two => synchro ((oldSample_ordinary _).mpr two)
        exact ⟨activation, member, block ▸ (sample_synchro 0).not_ordinary, output⟩ }
  sources := sample_assembled.sources
  scheduled := sample_assembled.scheduled
  ordered := sample_assembled.ordered
  links _ _ := ⟨Nat.le_refl 1, Nat.le_succ 1⟩
  noAct := rfl
  noCap := rfl
  noActt := rfl
  noCapt := rfl

/-- The scratch variable `args` of that integrator is not declared in `<model>_init`. -/
theorem args_undeclared : Assembled oldSample ∧ ∃ model, makeStandalonert oldSample 5 = some model ∧
    .args ∈ names model.init ∧ ¬ Declared oldSample .init .args ∧ ¬ WellScoped oldSample model := by
  have run : (makeStandalonert oldSample 5).map (fun model => decide (.args ∈ names model.init)) =
      some true := by decide
  obtain ⟨model, made, found⟩ := Option.map_eq_some_iff.mp run
  have used := of_decide_eq_true found
  have undeclared : ¬ Declared oldSample .init .args := by decide
  exact ⟨oldSample_assembled, model, made, used, undeclared, fun all =>
    undeclared (all.1 .args used)⟩

end Sample

end ScicosFlex.Codegen
