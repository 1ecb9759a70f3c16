import ScicosFlex.Codegen.Program

/-!
# The life of a block

Blocks allocate what they need when they are called with flag 4 and free it when
they are called with flag 5, so every block that is called at all has to be
called with flag 4 before anything else and with flag 5 after everything else.
`program_lifecycle` says that the generated program does so, whatever its
schedule: `Flagged` is a text all of whose calls have one of a few flags, and no
generating function writes a call with flag 4 or 5 but those for the first part
of `_init` and for `_end`.
-/

namespace ScicosFlex.Codegen

open Compiled Library.AcyclicRecursion Library.Sequences

section Flagged

variable (cpr : Compiled)

/-- All calls a text makes have an allowed flag, whatever the text meets: the machine
may answer the block calls as it likes, and so lead into any alternative. -/
def Flagged (allowed : List Nat) (text : Text) : Prop :=
  ∀ ⦃W : Type⦄ (machine : Machine W) (mem : Mem W) (invocation : Invocation),
    .call invocation ∈ (exec cpr machine text mem).trace →
      .call invocation ∈ mem.trace ∨ invocation.localFlag ∈ allowed

variable {cpr} {allowed : List Nat}

theorem flagged_nil : Flagged cpr allowed [] := fun _ _ _ _ member => Or.inl member

/-- Texts one after the other. -/
theorem flagged_append {left right : Text} (first : Flagged cpr allowed left)
    (second : Flagged cpr allowed right) : Flagged cpr allowed (left ++ right) := by
  intro W machine mem invocation member
  rw [exec_append] at member
  rcases second machine _ invocation member with earlier | here
  · exact first machine mem invocation earlier
  · exact Or.inr here

/-- A statement before a text. -/
theorem flagged_cons {stmt : Stmt} {rest : Text} (first : Flagged cpr allowed [stmt])
    (second : Flagged cpr allowed rest) : Flagged cpr allowed (stmt :: rest) :=
  @flagged_append cpr allowed [stmt] rest first second

theorem flagged_flatMap {α : Type} {items : List α} {text : α → Text}
    (each : ∀ item ∈ items, Flagged cpr allowed (text item)) :
    Flagged cpr allowed (items.flatMap text) := by
  induction items with
  | nil => exact flagged_nil
  | cons item rest inductionHypothesis =>
    rw [List.flatMap_cons]
    exact flagged_append (each item List.mem_cons_self)
      (inductionHypothesis fun other member => each other (List.mem_cons_of_mem _ member))

/-- A line that leaves the trace alone. -/
theorem flagged_line (line : Line)
    (quiet : ∀ {W : Type} (machine : Machine W) (mem : Mem W),
      (execLine cpr machine mem line).trace = mem.trace) : Flagged cpr allowed [.line line] := by
  intro W machine mem invocation member
  exact Or.inl (quiet machine mem ▸ member)

theorem flagged_comment (note : Note) : Flagged cpr allowed [.line (.comment note)] :=
  flagged_line _ fun _ _ => rfl

/-- Entering an alternative is no call. -/
theorem flagged_enter {body : Text} (flagged : Flagged cpr allowed body) {W : Type}
    (machine : Machine W) (mem : Mem W) (bk alternative : Nat) (invocation : Invocation)
    (member : .call invocation ∈ (exec cpr machine body (enter bk alternative body mem)).trace) :
    .call invocation ∈ mem.trace ∨ invocation.localFlag ∈ allowed := by
  rcases flagged machine _ invocation member with earlier | here
  · refine Or.inl ?_
    unfold enter at earlier
    split at earlier
    · exact earlier
    · simpa using earlier
  · exact Or.inr here

theorem flagged_ifElse {bk : Nat} {test : Test} {thenText elseText : Text}
    (first : Flagged cpr allowed thenText) (second : Flagged cpr allowed elseText) :
    Flagged cpr allowed [.ifElse bk test thenText elseText] := by
  intro W machine mem invocation member
  simp only [exec_cons, exec_nil, execStmt] at member
  split at member
  · exact flagged_enter first machine mem bk 1 invocation member
  · exact flagged_enter second machine mem bk 2 invocation member

theorem flagged_ifElseIf {bk : Nat} {test elseTest : Test} {thenText elseText : Text}
    (first : Flagged cpr allowed thenText) (second : Flagged cpr allowed elseText) :
    Flagged cpr allowed [.ifElseIf bk test thenText elseTest elseText] := by
  intro W machine mem invocation member
  simp only [exec_cons, exec_nil, execStmt] at member
  split at member
  · exact flagged_enter first machine mem bk 1 invocation member
  · split at member
    · exact flagged_enter second machine mem bk 2 invocation member
    · exact Or.inl member

/-- Assigning `i` before a `switch` over it. -/
theorem flagged_switch {bk : Nat} {labels : List Nat} {body : Nat → Text} {assign : Stmt}
    (assigns : ∀ {W : Type} (machine : Machine W) (mem : Mem W),
      ∃ i, execStmt cpr machine assign mem = { mem with i := i })
    (bodies : ∀ label, Flagged cpr allowed (body label)) :
    Flagged cpr allowed [assign, .switchI bk labels body] := by
  intro W machine mem invocation member
  obtain ⟨i, assigned⟩ := assigns machine mem
  simp only [exec_cons, exec_nil, assigned, execStmt] at member
  split at member
  · exact flagged_enter (bodies i.toNat) machine { mem with i := i } bk i.toNat invocation member
  · exact Or.inl member

theorem flagged_guarded {test : Test} {body : Text} (flagged : Flagged cpr allowed body) :
    Flagged cpr allowed [.guarded test body] := by
  intro W machine mem invocation member
  simp only [exec_cons, exec_nil, execStmt] at member
  split at member
  · exact flagged machine mem invocation member
  · exact Or.inl member

/-- A calling sequence is placed with an empty line. -/
theorem flagged_placed {txt : Text} (flagged : Flagged cpr allowed txt) :
    Flagged cpr allowed (placed txt) := by
  unfold placed
  split
  · exact flagged_nil
  · exact flagged_append flagged (flagged_line .blank fun _ _ => rfl)

theorem flagged_headed {note : String} {txt : Text} (flagged : Flagged cpr allowed txt) :
    Flagged cpr allowed (headed note txt) := by
  intro W machine mem invocation member
  rw [exec_headed] at member
  exact flagged machine mem invocation member

/-- The calls that one calling sequence adds. -/
theorem callBlock_calls (cpr : Compiled) {W : Type} (machine : Machine W) (bk : Nat) (pt : Int) (flag : Nat)
    (mem : Mem W) :
    callsOf (exec cpr machine (callBlock42 cpr bk pt flag) mem).trace = callsOf mem.trace ++
      List.replicate (callCount cpr bk pt flag)
        { bk := bk, localFlag := adjustFlag cpr bk flag, nevprt := adjustPt cpr bk pt flag,
          phase := mem.phase } := by
  have iterated (invocation : Invocation) (calls : Nat) (run : Run W) :
      ((interpretCall machine invocation)^[calls] run).2 =
        run.2 ++ List.replicate calls invocation := by
    induction calls generalizing run with
    | zero => simp
    | succ calls inductionHypothesis =>
      rw [Function.iterate_succ_apply, inductionHypothesis, interpretCall, List.append_assoc,
        List.replicate_succ, List.singleton_append]
  obtain ⟨ran, -⟩ := call_runs cpr machine bk pt flag mem
  exact (congrArg Prod.snd ran).trans (iterated _ _ _)

/-- The calls in a trace, one by one. -/
theorem mem_callsOf (trace : List Event) (invocation : Invocation) :
    invocation ∈ callsOf trace ↔ .call invocation ∈ trace := by
  simp only [callsOf, List.mem_filterMap]
  constructor
  · rintro ⟨event, member, kind⟩
    cases event with
    | call other => exact Option.some.inj kind ▸ member
    | enter bk alternative => cases kind
  · exact fun member => ⟨_, member, rfl⟩

/-- The calls of a calling sequence have its flag, adjusted. -/
theorem flagged_callBlock (bk : Nat) (pt : Int) {flag : Nat} (own : flag ∈ allowed)
    (explicit : flag = 7 → 0 ∈ allowed) : Flagged cpr allowed (callBlock42 cpr bk pt flag) := by
  intro W machine mem invocation member
  rw [← mem_callsOf, callBlock_calls, List.mem_append, mem_callsOf] at member
  rcases member with earlier | here
  · exact Or.inl earlier
  · refine Or.inr ?_
    rw [List.eq_of_mem_replicate here]
    change adjustFlag cpr bk flag ∈ allowed
    unfold adjustFlag
    split
    · rename_i seven
      exact explicit seven.1
    · exact own

end Flagged

section Generators

variable {cpr : Compiled} {allowed : List Nat}

/-- What a generator emits itself calls with allowed flags if its alternatives do. -/
structure FlaggedEmission (cpr : Compiled) (allowed : List Nat) (emission : Emission) : Prop where
  ordinary : ∀ activation, Flagged cpr allowed (emission.ordinary activation)
  ifThenElse : ∀ bk thentxt elsetxt, Flagged cpr allowed thentxt → Flagged cpr allowed elsetxt →
    Flagged cpr allowed (emission.ifThenElse bk thentxt elsetxt)
  eventSelect : ∀ bk labels body, (∀ label, Flagged cpr allowed (body label)) →
    Flagged cpr allowed (emission.eventSelect bk labels body)

/-- The text of a case is one of the texts, or none. -/
theorem flagged_caseText {texts : List Text} (each : ∀ text ∈ texts, Flagged cpr allowed text)
    (label : Nat) : Flagged cpr allowed (caseText texts label) := by
  unfold caseText
  rw [List.getD_eq_getElem?_getD]
  cases found : texts[label - 1]? with
  | none => exact flagged_nil
  | some text => exact each text (List.mem_of_getElem? found)

/-- The texts of several events. -/
theorem flagged_mapM {make : Nat → Option Text} {events : List Nat} {texts : List Text}
    (each : ∀ ev text, make ev = some text → Flagged cpr allowed text)
    (made : events.mapM make = some texts) : ∀ text ∈ texts, Flagged cpr allowed text := by
  obtain ⟨found, rfl⟩ := mapM_results make events texts made
  intro text member
  obtain ⟨ev, inside, rfl⟩ := List.mem_map.mp member
  exact each ev _ (found ev inside)

/-- One activation calls with allowed flags only, if the texts of its output events do.
The cases are the three kinds of blocks. -/
theorem flagged_piece {emission : Emission} (flagged : FlaggedEmission cpr allowed emission)
    {branch test emit : Nat → Option Text}
    (branches : ∀ ev text, branch ev = some text → Flagged cpr allowed text)
    (cases : ∀ ev text, emit ev = some text → Flagged cpr allowed text) {activation : Activation}
    {text : Text} (made : piece cpr emission branch test emit activation = some text) :
    Flagged cpr allowed text := by
  unfold piece at made
  simp only [Option.bind_eq_bind] at made
  split at made
  · obtain rfl := Option.some.inj made
    exact flagged.ordinary activation
  · split at made
    · simp only [Option.bind_eq_some_iff, Option.some.injEq] at made
      obtain ⟨thentxt, first, elsetxt, second, rfl⟩ := made
      unfold ifPiece
      split
      · exact flagged_nil
      · exact flagged_cons (flagged_comment _)
          (flagged.ifThenElse _ _ _ (branches _ _ first) (branches _ _ second))
    · split at made
      · simp only [Option.bind_eq_some_iff, Option.some.injEq] at made
        obtain ⟨tested, -, emitted, emits, rfl⟩ := made
        unfold selectPiece
        split
        · exact flagged_nil
        · exact flagged_cons (flagged_comment _)
            (flagged.eventSelect _ _ _ (flagged_caseText (flagged_mapM cases emits)))
      · cases made

/-- A list of activations. -/
theorem flagged_walk {emission : Emission} (flagged : FlaggedEmission cpr allowed emission)
    {branch test emit : Nat → Option Text}
    (branches : ∀ ev text, branch ev = some text → Flagged cpr allowed text)
    (cases : ∀ ev text, emit ev = some text → Flagged cpr allowed text)
    {activations : List Activation} {text : Text}
    (made : walk cpr emission branch test emit activations = some text) :
    Flagged cpr allowed text := by
  simp only [walk, Option.bind_eq_bind, Option.bind_eq_some_iff, Option.some.injEq] at made
  obtain ⟨texts, pieces, rfl⟩ := made
  induction activations generalizing texts with
  | nil =>
    obtain rfl : texts = [] := by simpa using pieces.symm
    exact flagged_nil
  | cons activation rest inductionHypothesis =>
    simp only [List.mapM_cons, Option.bind_eq_bind, Option.bind_eq_some_iff, Option.pure_def,
      Option.some.injEq] at pieces
    obtain ⟨first, here, later, there, rfl⟩ := pieces
    exact flagged_append (flagged_piece flagged branches cases here)
      (inductionHypothesis later there)

/-- What the generators of the discrete code emit. -/
theorem cdoitEmission_flagged {flag : Nat} (own : flag ∈ allowed) (explicit : flag = 7 → 0 ∈ allowed) :
    FlaggedEmission cpr allowed (cdoitEmission cpr flag) where
  ordinary _ := flagged_placed (flagged_callBlock _ _ own explicit)
  ifThenElse _ _ _ first second := flagged_ifElse first second
  eventSelect _ _ _ bodies := flagged_switch (fun _ _ => ⟨_, rfl⟩) bodies

theorem doitEmission_flagged {flag : Nat} (own : flag ∈ allowed) (explicit : flag = 7 → 0 ∈ allowed) :
    FlaggedEmission cpr allowed (doitEmission cpr flag) where
  ordinary activation := by
    simp only [doitEmission]
    split_ifs
    · exact flagged_placed (flagged_callBlock _ _ own explicit)
    · exact flagged_placed (flagged_callBlock _ _ own explicit)
    · exact flagged_placed (flagged_callBlock _ _ own explicit)
    · exact flagged_nil
  ifThenElse _ _ _ first second := flagged_ifElse first second
  eventSelect _ _ _ bodies := flagged_switch (fun _ _ => ⟨_, rfl⟩) bodies

theorem reinitdoitEmission_flagged {flag : Nat} (own : flag ∈ allowed)
    (explicit : flag = 7 → 0 ∈ allowed) :
    FlaggedEmission cpr allowed (reinitdoitEmission cpr flag) where
  ordinary _ := flagged_placed (flagged_callBlock _ _ own explicit)
  ifThenElse _ _ _ first second := flagged_ifElseIf first second
  eventSelect _ _ _ bodies := flagged_switch (fun _ _ => ⟨_, rfl⟩) bodies

/-- `write_code_doit` calls with its flag. -/
theorem flagged_doit {flag : Nat} (own : flag ∈ allowed) (explicit : flag = 7 → 0 ∈ allowed)
    (fuel ev : Nat) (text : Text) (made : writeCodeDoit cpr fuel ev flag = some text) :
    Flagged cpr allowed text := by
  refine fuelled_spec (doitStep cpr flag) (fun _ text => Flagged cpr allowed text) ?_ fuel ev text made
  exact fun call calls ev text made => flagged_walk (doitEmission_flagged own explicit) calls calls made

/-- So does `write_code_initdoit`. -/
theorem flagged_initdoit {flag : Nat} (own : flag ∈ allowed) (explicit : flag = 7 → 0 ∈ allowed)
    (fuel ev : Nat) (text : Text) (made : writeCodeInitdoit cpr fuel ev flag = some text) :
    Flagged cpr allowed text := by
  refine fuelled_spec (initdoitStep cpr fuel flag) (fun _ text => Flagged cpr allowed text) ?_
    fuel ev text made
  exact fun call calls ev text made => flagged_walk (cdoitEmission_flagged own explicit) calls
    (flagged_doit own explicit fuel) made

/-- So do the fragments of the derivative code, whatever `tmp_` holds on the way. By
induction on the list. -/
theorem flagged_fragments {heads : DerivativeHeads} {call : Cell → Nat → Option Text}
    (ordinary : ∀ activation, Flagged cpr allowed (heads.ordinary activation))
    (calls : ∀ tmp ev text, call tmp ev = some text → Flagged cpr allowed text)
    {activations : List Activation} {tmp : Cell} {pieces : List Fragment}
    (made : fragments cpr heads call tmp activations = some pieces) :
    Flagged cpr allowed (pieces.flatMap Fragment.text) := by
  induction activations generalizing tmp pieces with
  | nil =>
    obtain rfl := Option.some.inj made
    exact flagged_nil
  | cons activation rest inductionHypothesis =>
    obtain ⟨first, after, later, here, there, rfl⟩ :=
      (fragments_cons heads call tmp activation rest pieces).mp made
    rw [List.flatMap_cons]
    refine flagged_append ?_ (inductionHypothesis there)
    rcases fragment_cases heads call tmp after activation first here with
      ⟨-, -, text, -⟩ | ⟨-, -, thentxt, elsetxt, one, two, -, -, rfl⟩ |
      ⟨-, -, tested, emitted, -, emits, -, rfl⟩
    · rw [text]
      exact ordinary activation
    · unfold ifFragment
      split
      · exact flagged_nil
      · exact flagged_cons (flagged_comment _)
          (flagged_ifElseIf (calls _ _ _ one) (calls _ _ _ two))
    · unfold selectFragment
      split
      · exact flagged_nil
      · exact flagged_cons (flagged_comment _) (flagged_switch (fun _ _ => ⟨_, rfl⟩)
          (flagged_caseText (flagged_mapM (calls _) emits)))

/-- `write_code_ozdoit` calls with its flag. -/
theorem flagged_ozdoit {flag : Nat} (own : flag ∈ allowed) (explicit : flag = 7 → 0 ∈ allowed)
    (fuel : Nat) (tmp : Cell) (ev : Nat) (text : Text)
    (made : writeCodeOzdoit cpr fuel flag tmp ev = some text) : Flagged cpr allowed text := by
  refine fuelled_spec (ozdoitStep cpr flag) (fun _ text => Flagged cpr allowed text) ?_
    fuel (tmp, ev) text made
  intro call calls start text made
  simp only [ozdoitStep, Option.bind_eq_bind, Option.bind_eq_some_iff, Option.some.injEq] at made
  obtain ⟨pieces, generated, rfl⟩ := made
  refine flagged_fragments (fun activation => ?_) (fun tmp ev => calls (tmp, ev)) generated
  simp only [ozdoitHeads]
  split
  · exact flagged_append (flagged_callBlock _ _ own explicit) (flagged_line .blank fun _ _ => rfl)
  · exact flagged_placed (flagged_callBlock _ _ own explicit)

/-- So does `write_code_odoit`. -/
theorem flagged_odoit {flag : Nat} (own : flag ∈ allowed) (explicit : flag = 7 → 0 ∈ allowed)
    (fuel : Nat) (text : Text) (made : writeCodeOdoit cpr fuel flag = some text) :
    Flagged cpr allowed text := by
  simp only [writeCodeOdoit, Option.bind_eq_bind, Option.bind_eq_some_iff, Option.some.injEq] at made
  obtain ⟨pieces, generated, rfl⟩ := made
  refine flagged_fragments (fun activation => ?_) (flagged_ozdoit own explicit fuel) generated
  simp only [odoitHeads]
  split_ifs
  · exact flagged_placed (flagged_callBlock _ _ own explicit)
  · exact flagged_nil
  · exact flagged_cons (flagged_guarded (flagged_callBlock _ _ own explicit))
      (flagged_line .blank fun _ _ => rfl)
  · exact flagged_placed (flagged_callBlock _ _ own explicit)

/-- So does `write_code_reinitdoit`. -/
theorem flagged_reinitdoit {flag : Nat} (own : flag ∈ allowed) (explicit : flag = 7 → 0 ∈ allowed)
    (fuel : Nat) (text : Text) (made : writeCodeReinitdoit cpr fuel flag = some text) :
    Flagged cpr allowed text := by
  simp only [writeCodeReinitdoit, Option.bind_eq_bind, Option.bind_eq_some_iff,
    Option.some.injEq] at made
  obtain ⟨pieces, generated, rfl⟩ := made
  refine flagged_flatMap fun piece member => ?_
  obtain ⟨-, before, written⟩ := mem_reinitdoitPieces generated piece member
  exact flagged_piece (reinitdoitEmission_flagged own explicit) (flagged_initdoit own explicit fuel)
    (flagged_initdoit own explicit fuel) written

end Generators

section Parts

variable {cpr : Compiled}

/-- The flags of a block at work: output, state, events, derivative, and the second
pass over an implicit block. -/
def workFlags : List Nat := [0, 1, 2, 3, 7]

/-- The direct calls of `_isr` find their blocks at work. -/
theorem isr_flagged (fuel : Nat) (text : Text) (made : isrText cpr fuel = some text) :
    Flagged cpr workFlags text := by
  have pass (flag : Nat) (own : flag ∈ workFlags) (text : Text)
      (made : flagPass cpr fuel flag = some text) : Flagged cpr workFlags text := by
    have zero : flag = 7 → 0 ∈ workFlags := fun _ => by decide
    simp only [flagPass, Option.bind_eq_bind, Option.bind_eq_some_iff, Option.some.injEq] at made
    obtain ⟨continuous, first, events, second, rfl⟩ := made
    refine flagged_headed (flagged_append (flagged_headed ?_) (flagged_headed ?_))
    · split at first
      · exact flagged_walk (cdoitEmission_flagged own zero) (flagged_doit own zero fuel)
          (flagged_doit own zero fuel) first
      · obtain rfl := Option.some.inj first
        exact flagged_nil
    · refine flagged_flatMap fun text member => flagged_placed ?_
      exact flagged_mapM (flagged_doit own zero fuel) second text member
  simp only [isrText, List.mapM_cons, List.mapM_nil, Option.bind_eq_bind, Option.bind_eq_some_iff,
    Option.pure_def, Option.some.injEq] at made
  obtain ⟨_, ⟨first, one, _, ⟨second, two, _, ⟨third, three, _, rfl, rfl⟩, rfl⟩, rfl⟩, rfl⟩ := made
  exact flagged_append (pass 1 (by decide) first one) (flagged_append (pass 3 (by decide) second two)
    (flagged_append (pass 2 (by decide) third three) flagged_nil))

/-- So do the calls of the solver function. -/
theorem simblk_flagged (fuel : Nat) (text : Text) (made : simblkText cpr fuel = some text) :
    Flagged cpr workFlags text := by
  unfold simblkText at made
  split at made
  · obtain rfl := Option.some.inj made
    exact flagged_nil
  · simp only [Option.bind_eq_bind, Option.bind_eq_some_iff, Option.some.injEq] at made
    obtain ⟨output, first, derivative, second, rfl⟩ := made
    exact flagged_append (flagged_odoit (by decide) (by decide) fuel output first)
      (flagged_odoit (by decide) (by decide) fuel derivative second)

/-- The part of `_init` behind the calls with flag 4. -/
theorem init_parts (fuel : Nat) (text : Text) (made : initText cpr fuel = some text) :
    ∃ rest, text = .line (.comment (.other "flag 4")) :: flagText cpr 4 ++ rest ∧
      Flagged cpr workFlags rest := by
  obtain ⟨initial, first, made⟩ := Option.bind_eq_some_iff.mp made
  have opening : Flagged cpr workFlags initial :=
    flagged_walk (cdoitEmission_flagged (by decide) (by decide))
      (flagged_doit (by decide) (by decide) fuel) (flagged_doit (by decide) (by decide) fuel) first
  have shape (derivative : Text) (flagged : Flagged cpr workFlags derivative)
      (same : .line (.comment (.other "flag 4")) :: flagText cpr 4 ++
        headed "Initial blocks must be called with flag 1" initial ++
        headed "Initial derivative computation" derivative = text) :
      ∃ rest, text = .line (.comment (.other "flag 4")) :: flagText cpr 4 ++ rest ∧
        Flagged cpr workFlags rest :=
    ⟨_, same.symm.trans (List.append_assoc _ _ _),
      flagged_append (flagged_headed opening) (flagged_headed flagged)⟩
  by_cases implicit : cpr.nX ≠ 0 ∧ cpr.implBlk
  · simp only [if_pos implicit, Option.bind_eq_bind, Option.bind_eq_some_iff, Option.some.injEq]
      at made
    obtain ⟨one, oneMade, two, twoMade, _, rfl, same⟩ := made
    exact shape _ (flagged_append (flagged_reinitdoit (by decide) (by decide) fuel one oneMade)
      (flagged_reinitdoit (by decide) (fun _ => by decide) fuel two twoMade)) same
  · simp only [if_neg implicit, Option.bind_eq_bind, Option.bind_some, Option.some.injEq] at made
    exact shape [] flagged_nil made

/-- One call for every instance: once for a function or a sensor, once for each
port of an actuator, and none for the blocks that have no calling sequence. -/
def everyBlock (cpr : Compiled) (phase flag : Nat) : List Invocation :=
  (slice 1 (nblk cpr + 1)).flatMap fun kf =>
    List.replicate (callCount cpr kf 0 4) { bk := kf, localFlag := flag, nevprt := 0, phase := phase }

/-- The blocks called with flag 4 or 5 in order, each as often as the loop over the
blocks emits a call for it. -/
theorem flagText_calls (cpr : Compiled) {W : Type} (machine : Machine W) (flag : Nat) (ends : flag = 4 ∨ flag = 5)
    (mem : Mem W) :
    callsOf (exec cpr machine (flagText cpr flag) mem).trace =
        callsOf mem.trace ++ everyBlock cpr mem.phase flag := by
  have unadjusted (kf : Nat) : adjustFlag cpr kf flag = flag ∧ adjustPt cpr kf 0 flag = 0 ∧
      callCount cpr kf 0 flag = callCount cpr kf 0 4 := by
    rcases ends with rfl | rfl <;> simp [adjustFlag, adjustPt, callCount, returnsAtOnce]
  unfold flagText everyBlock
  -- Induction on the blocks; no calling sequence changes the phase.
  induction slice 1 (nblk cpr + 1) generalizing mem with
  | nil => simp
  | cons kf rest inductionHypothesis =>
    have same : exec cpr machine (if (callBlock42 cpr kf 0 flag).isEmpty then []
        else .line .blank :: callBlock42 cpr kf 0 flag) mem =
        exec cpr machine (callBlock42 cpr kf 0 flag) mem := by
      split
      · rename_i empty
        rw [List.isEmpty_iff.mp empty]
      · rfl
    obtain ⟨name, number, count⟩ := unadjusted kf
    have phase := (exec_phase cpr machine (callBlock42 cpr kf 0 flag) mem).1
    have here := callBlock_calls cpr machine kf 0 flag mem
    rw [name, number, count] at here
    rw [List.flatMap_cons, List.flatMap_cons, exec_append, same, inductionHypothesis, here, phase,
      List.append_assoc]

end Parts

section Runs

variable {W : Type} {cpr : Compiled} (runtime : Runtime W) (model : Standalone)

/-- The calls of a run behind those with flag 4 find their blocks at work: they have
flags of the running program, and nobody has been ended. -/
def AtWork (cpr : Compiled) (log : Log W) : Prop :=
  ∃ work, log.calls.map Prod.snd = everyBlock cpr 1 4 ++ work ∧
    ∀ call ∈ work, call.localFlag ∈ workFlags

/-- A text whose calls find their blocks at work keeps this. -/
theorem issue_atWork (origin : Origin) {text : Text} (flagged : Flagged cpr workFlags text)
    (log : Log W) (atWork : AtWork cpr log) :
    AtWork cpr (issue cpr runtime origin text log) := by
  obtain ⟨work, calls, flags⟩ := atWork
  obtain ⟨-, fresh, added, same, -⟩ := issue_spec cpr runtime origin text log
  refine ⟨work ++ fresh, ?_, fun call member => ?_⟩
  · rw [added, List.map_append, calls, List.map_map, List.append_assoc]
    simp [Function.comp_def]
  · rcases List.mem_append.mp member with old | new
    · exact flags call old
    · rw [same, mem_callsOf] at new
      exact (flagged runtime.machine _ call new).resolve_left List.not_mem_nil

/-- The initialization calls every block with flag 4 and then works. -/
theorem runInit_atWork (fuel : Nat) (init : initText cpr fuel = some model.init) (start : Mem W) :
    AtWork cpr (runInit cpr runtime model { mem := start, calls := [] }) := by
  obtain ⟨rest, text, flagged⟩ := init_parts fuel model.init init
  let opened := exec cpr runtime.machine (flagText cpr 4) { start with phase := 1, trace := [] }
  have first : callsOf opened.trace = everyBlock cpr 1 4 :=
    flagText_calls cpr runtime.machine 4 (Or.inl rfl) { start with phase := 1, trace := [] }
  have split : exec cpr runtime.machine model.init { start with phase := 1, trace := [] } =
      behind opened.trace (exec cpr runtime.machine rest { opened with trace := [] }) := by
    rw [text, exec_append, exec_comment, ← exec_behind]
    simp [behind, opened]
  let work := callsOf (exec cpr runtime.machine rest { opened with trace := [] }).trace
  refine ⟨work, ?_, fun call member => ?_⟩
  · have calls : (runInit cpr runtime model { mem := start, calls := [] }).calls.map Prod.snd =
        callsOf (exec cpr runtime.machine model.init { start with phase := 1, trace := [] }).trace := by
      simp [runInit, issue, Function.comp_def]
    have appended : callsOf (behind opened.trace
        (exec cpr runtime.machine rest { opened with trace := [] })).trace =
        callsOf opened.trace ++ work := List.filterMap_append
    rw [calls, split, appended, first]
  · exact (flagged runtime.machine _ call ((mem_callsOf _ _).mp member)).resolve_left
      List.not_mem_nil

variable (fuel : Nat) (isr : isrText cpr fuel = some model.isr)
  (simblk : simblkText cpr fuel = some model.simblk)

include isr simblk

/-- A sample period only works. -/
theorem runIsr_atWork (steps : Nat) (log : Log W) (atWork : AtWork cpr log) :
    AtWork cpr (runIsr cpr runtime model steps log) := by
  have direct := issue_atWork runtime .isr (isr_flagged fuel model.isr isr) log atWork
  have evaluation (log : Log W) (before : AtWork cpr log) :
      AtWork cpr (runSimblk cpr runtime model log) :=
    issue_atWork runtime .simblk (simblk_flagged fuel model.simblk simblk)
      { log with mem := { log.mem with phase := 2 } } before
  have step (log : Log W) (before : AtWork cpr log) :
      AtWork cpr (solverStep cpr runtime model log) := by
    unfold solverStep
    generalize List.range runtime.solver.evaluations = stages
    induction stages generalizing log with
    | nil => exact before
    | cons stage rest inductionHypothesis =>
      exact inductionHypothesis { runSimblk cpr runtime model log with
        mem := { (runSimblk cpr runtime model log).mem with
          world := runtime.integrate stage (runSimblk cpr runtime model log).mem.world } }
        (evaluation log before)
  unfold runIsr
  simp only
  split
  · exact direct
  · obtain ⟨work, calls, flags⟩ := Function.Iterate.rec (AtWork cpr) direct step (steps + 1)
    exact ⟨work, calls, flags⟩

/-- So does every number of sample periods. The induction adds a period at the end,
which makes no call with flag 4 or 5. -/
theorem runModel_atWork (init : initText cpr fuel = some model.init) (start : Mem W)
    (periods : List Nat) : AtWork cpr (runModel cpr runtime model start periods) := by
  unfold runModel
  have first := runInit_atWork runtime model fuel init start
  generalize runInit cpr runtime model { mem := start, calls := [] } = log at first
  induction periods generalizing log with
  | nil => exact first
  | cons steps rest inductionHypothesis =>
    exact inductionHypothesis _ (runIsr_atWork runtime model fuel isr simblk steps log first)

end Runs

section Main

variable {cpr : Compiled}

/-- In every run of a generated program all blocks are called with flag 4 first,
each once for every instance of it, and with flag 5 last, each as often, and no
call in between has one of these flags. -/
theorem program_lifecycle (fuel : Nat) (model : Standalone)
    (made : makeStandalonert cpr fuel = some model) {W : Type} (runtime : Runtime W)
    (start : Mem W) (periods : List Nat) :
    ∃ work, (runProgram cpr runtime model start periods).2 = everyBlock cpr 1 4 ++ work ++
        everyBlock cpr (runModel cpr runtime model start periods).mem.phase 5 ∧
      ∀ call ∈ work, call.localFlag ∈ workFlags := by
  simp only [makeStandalonert, Option.bind_eq_bind, Option.bind_eq_some_iff, Option.some.injEq] at made
  obtain ⟨init, initMade, isr, isrMade, simblk, simblkMade, rfl⟩ := made
  obtain ⟨work, calls, flags⟩ := runModel_atWork runtime { init, isr, simblk } fuel isrMade simblkMade
    initMade start periods
  refine ⟨work, ?_, flags⟩
  have closed := flagText_calls cpr runtime.machine 5 (Or.inr rfl)
    { (runModel cpr runtime { init, isr, simblk } start periods).mem with trace := [] }
  have comment : exec cpr runtime.machine (endText cpr)
      { (runModel cpr runtime { init, isr, simblk } start periods).mem with trace := [] } =
      exec cpr runtime.machine (flagText cpr 5)
        { (runModel cpr runtime { init, isr, simblk } start periods).mem with trace := [] } := rfl
  simp only [runProgram, runEnd, comment, closed, calls]
  rfl

/-- An instance: the sample is opened, works and is closed. -/
theorem sample_lifecycle : ∃ model, makeStandalonert (sample 0) 5 = some model ∧
    ∀ {W : Type} (runtime : Runtime W) (start : Mem W) (periods : List Nat),
      ∃ work, (runProgram (sample 0) runtime model start periods).2 =
          everyBlock (sample 0) 1 4 ++ work ++
            everyBlock (sample 0) (runModel (sample 0) runtime model start periods).mem.phase 5 ∧
        ∀ call ∈ work, call.localFlag ∈ workFlags := by
  have made : ((makeStandalonert (sample 0) 5).isSome) = true := by decide
  obtain ⟨model, found⟩ := Option.isSome_iff_exists.mp made
  exact ⟨model, found, program_lifecycle 5 model found⟩

end Main

end ScicosFlex.Codegen
