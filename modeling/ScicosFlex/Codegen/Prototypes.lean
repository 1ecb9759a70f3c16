import ScicosFlex.Codegen.Scoping
import ScicosFlex.Codegen.WrittenCalls

/-!
# Prototypes and calls

The parameters that `BlockProto` declares for a block function and the arguments
that `call_block42` passes to it. For each block the two agree
(`call_arguments`). But the file has one prototype for each function, that of the
first block with it, and the parameters of types 0, 1 and 2 depend on the block.
`calls_typed_iff` says for which diagrams all calls in the generated file pass what
their prototype declares.
-/

namespace ScicosFlex.Codegen

open Compiled Library.AcyclicRecursion Library.Sequences

/-- The C types of parameters and arguments: `int`, `int *`, `double *`, `double **`
and `scicos_block *`. -/
inductive ArgType where
  | int | intPointer | doublePointer | doublePointers | block
deriving DecidableEq, Repr

section Prototypes

/-- What types 0, 1 and 2 begin with: flag, activation number, time, derivative,
states, output events and parameters. -/
def leading : List ArgType :=
  [.intPointer, .intPointer, .doublePointer, .doublePointer, .doublePointer, .intPointer,
    .doublePointer, .intPointer, .doublePointer, .intPointer, .doublePointer, .intPointer,
    .intPointer, .intPointer]

/-- A vector and its size. -/
def vector : List ArgType := [.doublePointer, .intPointer]

/-- The ports of type 2: an array of vectors, their sizes and their number. -/
def vectors : List ArgType := [.doublePointers, .intPointer, .intPointer]

variable (cpr : Compiled)

/-- The parameters in the prototype of `BlockProto(bk)`. -/
def parameterTypes (bk : Nat) : List ArgType :=
  let nin := cpr.inpptr (bk + 1) - cpr.inpptr bk
  let nout := cpr.outptr (bk + 1) - cpr.outptr bk
  let surfaces := if cpr.ztyp bk then vector else []
  let ftyp := functionType cpr bk
  if ftyp = 0 then leading ++ vector ++ vector
  else if ftyp = 1 then
    leading ++ (List.replicate nin vector).flatten ++ (List.replicate nout vector).flatten ++ surfaces
  else if ftyp = 2 then leading ++ vectors ++ vectors ++ surfaces
  else [.block, .int]

/-- The types of the arguments of a call. Sensors and actuators are no functions of
blocks and have no prototype. -/
def argumentTypes : Arguments → Option (List ArgType)
  | .port _ => none
  | .type0 _ _ _ => some (leading ++ vector ++ vector)
  | .type1 _ nin nout ztyp =>
    some (leading ++ (List.replicate nin vector).flatten ++ (List.replicate nout vector).flatten ++
      if ztyp then vector else [])
  | .type2 _ ztyp => some (leading ++ vectors ++ vectors ++ if ztyp then vector else [])
  | .type4 => some [.block, .int]

/-- The prototypes of the file. -/
def prototypes : List (Callee × List ArgType) :=
  (slice 1 (cpr.nb + 1)).flatMap fun i =>
    if ∃ earlier ∈ slice 1 i, cpr.funs i = cpr.funs earlier then []
    else (blockProto cpr i).map fun callee => (callee, parameterTypes cpr i)

/-- They declare the functions of `Protostalone`. -/
theorem prototypes_declare : (prototypes cpr).map Prod.fst = protostalone cpr := by
  simp only [prototypes, protostalone, List.map_flatMap]
  congr 1
  funext i
  split
  · rfl
  · rw [List.map_map]
    exact List.map_id _

/-- A call passes what the prototypes of its function declare. -/
def LineFits : Line → Prop
  | .call _ callee arguments =>
    ∀ types, (callee, types) ∈ prototypes cpr → argumentTypes arguments = some types
  | _ => True

/-- All lines of a text, those of all alternatives included, so that what holds of them
holds whatever the program meets when it runs. -/
def EveryLine (P : Line → Prop) (text : Text) : Prop := ∀ line, .line line ∈ everyBranch text → P line

/-- All calls of the generated file fit, those of the start, of a sample, of the end and
of the solver function. -/
def WellTyped (model : Standalone) : Prop :=
  EveryLine (LineFits cpr) model.init ∧ EveryLine (LineFits cpr) model.isr ∧
    EveryLine (LineFits cpr) (endText cpr) ∧ EveryLine (LineFits cpr) model.simblk

/-- The vectors behind the leading parameters of types 0 and 1; zero crossings are
one more. -/
def vectorCount (bk : Nat) : Nat :=
  if functionType cpr bk = 0 then 2
  else cpr.inpptr (bk + 1) - cpr.inpptr bk + (cpr.outptr (bk + 1) - cpr.outptr bk) +
    (cpr.ztyp bk).toNat

/-- Two blocks with the same parameters: of types 0 and 1 with equally many vectors,
of type 2 with and without zero crossings alike, or of types 4 and 10004. -/
def SameParameters (first bk : Nat) : Prop :=
  (functionType cpr first = 0 ∨ functionType cpr first = 1) ∧
      (functionType cpr bk = 0 ∨ functionType cpr bk = 1) ∧ vectorCount cpr first = vectorCount cpr bk ∨
    functionType cpr first = 2 ∧ functionType cpr bk = 2 ∧ cpr.ztyp first = cpr.ztyp bk ∨
    (functionType cpr first = 4 ∨ functionType cpr first = 10004) ∧
      (functionType cpr bk = 4 ∨ functionType cpr bk = 10004)

instance (first bk : Nat) : Decidable (SameParameters cpr first bk) :=
  inferInstanceAs (Decidable (_ ∨ _))

/-- No block before `first` has the same function, so it gets the prototype. -/
def FirstOfName (first : Nat) : Prop := ∀ earlier ∈ slice 1 first, cpr.funs first ≠ cpr.funs earlier

instance (first : Nat) : Decidable (FirstOfName cpr first) :=
  inferInstanceAs (Decidable (∀ earlier ∈ slice 1 first, _))

/-- If the prototype that declares the function of `bk` belongs to another block, that
block has the parameters of `bk`. -/
def Agreeing (bk : Nat) : Prop :=
  callable cpr bk = true → ∀ first ∈ slice 1 (cpr.nb + 1), FirstOfName cpr first →
    supported cpr first = true → calleeOf cpr first = calleeOf cpr bk → SameParameters cpr first bk

instance (bk : Nat) : Decidable (Agreeing cpr bk) := inferInstanceAs (Decidable (_ → _))

end Prototypes

section Parameters

variable {cpr : Compiled}

/-- Types 0 and 1 pass vectors. -/
theorem old_parameters (bk : Nat) (old : functionType cpr bk = 0 ∨ functionType cpr bk = 1) :
    parameterTypes cpr bk = leading ++ (List.replicate (vectorCount cpr bk) vector).flatten := by
  rcases old with zero | one
  · simp only [parameterTypes, vectorCount, zero, if_true]
    rfl
  · have other : ¬ (1 : Int) = 0 := by decide
    simp only [parameterTypes, vectorCount, one, if_true, if_neg other, List.append_assoc]
    rw [Nat.add_assoc, List.replicate_add, List.replicate_add, List.flatten_append, List.flatten_append]
    cases cpr.ztyp bk <;> rfl

theorem two_parameters (bk : Nat) (two : functionType cpr bk = 2) :
    parameterTypes cpr bk = leading ++ vectors ++ vectors ++ if cpr.ztyp bk then vector else [] := by
  simp [parameterTypes, two]

theorem block_parameters (bk : Nat) (four : functionType cpr bk = 4 ∨ functionType cpr bk = 10004) :
    parameterTypes cpr bk = [.block, .int] := by
  rcases four with four | implicit <;> simp [parameterTypes, *]

/-- The kinds of supported types. -/
theorem supported_kinds (bk : Nat) (called : supported cpr bk = true) :
    (functionType cpr bk = 0 ∨ functionType cpr bk = 1) ∨ functionType cpr bk = 2 ∨
      functionType cpr bk = 4 ∨ functionType cpr bk = 10004 := by
  simp only [supported, Bool.or_eq_true, decide_eq_true_eq] at called
  tauto

/-- The parameters of types 0 and 1 tell themselves from the other ones. -/
theorem old_marks (bk : Nat) (old : functionType cpr bk = 0 ∨ functionType cpr bk = 1) :
    (parameterTypes cpr bk).head? = some .intPointer ∧
      (parameterTypes cpr bk)[14]? ≠ some .doublePointers := by
  rw [old_parameters bk old]
  cases vectorCount cpr bk <;> simp [leading, vector, List.replicate_succ]

theorem two_marks (bk : Nat) (two : functionType cpr bk = 2) :
    (parameterTypes cpr bk).head? = some .intPointer ∧
      (parameterTypes cpr bk)[14]? = some .doublePointers := by
  rw [two_parameters bk two]
  constructor <;> rfl

theorem block_marks (bk : Nat) (four : functionType cpr bk = 4 ∨ functionType cpr bk = 10004) :
    (parameterTypes cpr bk).head? = some .block := by
  rw [block_parameters bk four]
  rfl

/-- Supported blocks of one kind have the same parameters if they have equally many
vectors, or zero crossings alike. -/
theorem old_iff (first bk : Nat) (old : functionType cpr first = 0 ∨ functionType cpr first = 1)
    (old' : functionType cpr bk = 0 ∨ functionType cpr bk = 1) :
    parameterTypes cpr first = parameterTypes cpr bk ↔ vectorCount cpr first = vectorCount cpr bk := by
  rw [old_parameters first old, old_parameters bk old', List.append_cancel_left_eq]
  constructor
  · intro same
    have lengths := congrArg List.length same
    simp [vector] at lengths
    exact lengths
  · intro same
    rw [same]

theorem two_iff (first bk : Nat) (two : functionType cpr first = 2) (two' : functionType cpr bk = 2) :
    parameterTypes cpr first = parameterTypes cpr bk ↔ cpr.ztyp first = cpr.ztyp bk := by
  rw [two_parameters first two, two_parameters bk two', List.append_cancel_left_eq]
  cases cpr.ztyp first <;> cases cpr.ztyp bk <;> simp [vector]

/-- The parameters are the same exactly if kind and number of vectors are. What else a
block has, such as the sizes of its vectors, does not show in a prototype. -/
theorem parameters_iff (first bk : Nat) (one : supported cpr first = true)
    (other : supported cpr bk = true) :
    parameterTypes cpr first = parameterTypes cpr bk ↔ SameParameters cpr first bk := by
  have apart {left right : List ArgType} (mark : List ArgType → Option ArgType)
      (differ : mark left ≠ mark right) : left ≠ right := fun same => differ (congrArg mark same)
  rcases supported_kinds first one with old | two | four <;>
    rcases supported_kinds bk other with old' | two' | four'
  · rw [old_iff first bk old old']
    unfold SameParameters
    omega
  · refine iff_of_false (apart (·[14]?) ?_) (by unfold SameParameters; omega)
    rw [(two_marks bk two').2]
    exact (old_marks first old).2
  · refine iff_of_false (apart List.head? ?_) (by unfold SameParameters; omega)
    rw [(old_marks first old).1, block_marks bk four']
    decide
  · refine iff_of_false (apart (·[14]?) ?_) (by unfold SameParameters; omega)
    rw [(two_marks first two).2]
    exact (old_marks bk old').2.symm
  · rw [two_iff first bk two two']
    simp [SameParameters, two, two']
  · refine iff_of_false (apart List.head? ?_) (by unfold SameParameters; omega)
    rw [(two_marks first two).1, block_marks bk four']
    decide
  · refine iff_of_false (apart List.head? ?_) (by unfold SameParameters; omega)
    rw [(old_marks bk old').1, block_marks first four]
    decide
  · refine iff_of_false (apart List.head? ?_) (by unfold SameParameters; omega)
    rw [(two_marks bk two').1, block_marks first four]
    decide
  · rw [block_parameters first four, block_parameters bk four']
    exact iff_of_true rfl (Or.inr (Or.inr ⟨four, four'⟩))

end Parameters

section Calls

variable {cpr : Compiled}

/-- A call. -/
def callLine : Stmt → Bool
  | .line (.call _ _ _) => true
  | _ => false

/-- Quiet lines call nothing. -/
theorem silent_of_quiet (text : Text) (quiet : text.all quietLine = true) : text.any callLine = false := by
  rw [List.all_eq_true] at quiet
  rw [List.any_eq_false]
  intro stmt member calls
  have here := quiet stmt member
  cases stmt with
  | line line =>
    cases line with
    | call => cases here
    | _ => cases calls
  | _ => cases calls

/-- What calls nothing fits. -/
theorem fits_silent (text : Text) (silent : text.any callLine = false) (line : Line)
    (member : .line line ∈ text) : LineFits cpr line := by
  rw [List.any_eq_false] at silent
  cases line with
  | call => exact absurd rfl (silent _ member)
  | _ => trivial

variable (cpr) in
/-- A text calls the function of a block once, with the arguments that the block's own
prototype declares. -/
def CallsOnce (bk : Nat) (text : Text) : Prop :=
  ∃ before arguments after, text = before ++ .line (.call bk (calleeOf cpr bk) arguments) :: after ∧
    before.any callLine = false ∧ after.any callLine = false ∧
    argumentTypes arguments = some (parameterTypes cpr bk)

theorem CallsOnce.after {bk : Nat} {text : Text} (once : CallsOnce cpr bk text) (more : Text)
    (silent : more.any callLine = false) : CallsOnce cpr bk (text ++ more) := by
  obtain ⟨before, arguments, after, rfl, first, last, types⟩ := once
  refine ⟨before, arguments, after ++ more, List.append_assoc _ _ _, first, ?_, types⟩
  rw [List.any_append, last, silent]
  rfl

theorem once_call (bk : Nat) (before : Text) (callee : Callee) (arguments : Arguments)
    (silent : before.any callLine = false) (own : calleeOf cpr bk = callee)
    (types : argumentTypes arguments = some (parameterTypes cpr bk)) :
    CallsOnce cpr bk (before ++ [.line (.call bk callee arguments)]) :=
  ⟨before, arguments, [], by rw [own], silent, rfl, types⟩

/-- Every supported block is called so. The other lines of its sequence are no calls,
and are gone through here once for all types. -/
theorem callSequence_once (bk : Nat) (pt : Int) (flag flagi : Nat) (called : supported cpr bk = true) :
    CallsOnce cpr bk (callSequence cpr bk pt flag flagi) := by
  have start : List.any (initEvout bk flag ++ [.line (.comment (.callBlk bk))] ++ setFlags bk pt flag)
      callLine = false := by
    rw [List.any_append, List.any_append, silent_of_quiet _ (quiet_initEvout bk flag)]
    rfl
  have ports := silent_of_quiet _ (quiet_type0Ports cpr bk)
  have update := silent_of_quiet _ (quiet_updateG cpr bk pt)
  have first := silent_of_quiet _ (quiet_adjustBefore cpr bk flag)
  have last := silent_of_quiet _ (quiet_adjustAfter cpr bk flag flagi)
  have output := silent_of_quiet _ (quiet_adjustEvout bk flag)
  simp only [supported, Bool.or_eq_true, decide_eq_true_eq] at called
  -- One case for each type; the call stands between the two adjustments.
  rcases called with (((zero | one) | two) | four) | implicit
  · simp only [callSequence, zero, if_true]
    refine ((once_call bk _ _ _ ?_ ?_ ?_).after _ last).after _ output
    · rw [List.any_append, List.any_append, List.any_append, start, ports, update, first]
      rfl
    · simp [calleeOf, zero]
    · simp [argumentTypes, parameterTypes, zero]
  · simp only [callSequence, one, if_true, one_ne_zero, if_false]
    refine ((once_call bk _ _ _ ?_ ?_ ?_).after _ last).after _ output
    · rw [List.any_append, List.any_append, start, update, first]
      rfl
    · simp [calleeOf, one]
    · simp [argumentTypes, parameterTypes, one]
  · simp only [callSequence, two, if_true, OfNat.ofNat_ne_zero, OfNat.ofNat_ne_one, if_false]
    refine ((once_call bk _ _ _ ?_ ?_ ?_).after _ last).after _ output
    · rw [List.any_append, List.any_append, start, update, first]
      rfl
    · simp [calleeOf, two]
    · simp [argumentTypes, parameterTypes, two]
  · simp only [callSequence, four, if_true, OfNat.ofNat_ne_zero, OfNat.ofNat_ne_one, if_false]
    refine (once_call bk _ _ _ ?_ ?_ ?_).after _ last
    · rw [List.any_append, start, first]
      rfl
    · simp [calleeOf, four]
    · simp [argumentTypes, parameterTypes, four]
  · simp only [callSequence, implicit, if_true, OfNat.ofNat_ne_zero, OfNat.ofNat_ne_one, if_false]
    refine once_call bk _ _ _ start ?_ ?_
    · simp [calleeOf, implicit]
    · simp [argumentTypes, parameterTypes, implicit]

/-- The functions that `BlockProto` declares. -/
theorem mem_blockProto (bk : Nat) (callee : Callee) : callee ∈ blockProto cpr bk ↔
    supported cpr bk = true ∧ cpr.funs bk ≠ "agenda_blk" ∧ callee = calleeOf cpr bk := by
  by_cases served : supported cpr bk = true ∧ cpr.funs bk ≠ "agenda_blk"
  · rw [blockProto_supported bk served.1 served.2, List.mem_singleton]
    simp only [served, ne_eq, not_false_eq_true, true_and]
  · rw [blockProto_unsupported bk (by
      rw [Decidable.not_and_iff_not_or_not] at served
      simpa using served)]
    exact iff_of_false List.not_mem_nil fun all => served ⟨all.1, all.2.1⟩

/-- The prototypes of the file are those of the first blocks. -/
theorem mem_prototypes (callee : Callee) (types : List ArgType) :
    (callee, types) ∈ prototypes cpr ↔ ∃ first, first ∈ slice 1 (cpr.nb + 1) ∧
      FirstOfName cpr first ∧
      callee ∈ blockProto cpr first ∧ types = parameterTypes cpr first := by
  simp only [prototypes, List.mem_flatMap]
  refine exists_congr fun first => and_congr_right fun _ => ?_
  by_cases earlier : ∃ earlier ∈ slice 1 first, cpr.funs first = cpr.funs earlier
  · rw [if_pos earlier]
    obtain ⟨other, before, same⟩ := earlier
    exact iff_of_false List.not_mem_nil fun all => all.1 other before same
  · rw [if_neg earlier]
    have fresh : FirstOfName cpr first := fun other before same => earlier ⟨other, before, same⟩
    simp only [List.mem_map, Prod.mk.injEq]
    constructor
    · rintro ⟨_, member, rfl, rfl⟩
      exact ⟨fresh, member, rfl⟩
    · rintro ⟨-, member, rfl⟩
      exact ⟨callee, member, rfl, rfl⟩

/-- A call of a block with its own arguments fits exactly if the block agrees with the
first one of its function. -/
theorem fits_iff (bk : Nat) (called : callable cpr bk = true) (arguments : Arguments)
    (types : argumentTypes arguments = some (parameterTypes cpr bk)) :
    LineFits cpr (.call bk (calleeOf cpr bk) arguments) ↔ Agreeing cpr bk := by
  obtain ⟨served, named⟩ : supported cpr bk = true ∧ neverCalled cpr bk = false := by
    simpa only [callable, Bool.and_eq_true, Bool.not_eq_true'] using called
  have noAgenda : cpr.funs bk ≠ "agenda_blk" := by
    simp only [neverCalled, Bool.or_eq_false_iff, decide_eq_false_iff_not] at named
    exact named.2
  simp only [LineFits, types, Option.some.injEq, mem_prototypes, mem_blockProto, Agreeing, called, true_imp_iff]
  constructor
  · intro all first member fresh one own
    have same : cpr.funs first = cpr.funs bk := by
      rw [← calleeOf_name first, ← calleeOf_name bk, own]
    rw [← parameters_iff first bk one served]
    exact (all _ ⟨first, member, fresh, ⟨one, same ▸ noAgenda, own.symm⟩, rfl⟩).symm
  · rintro all _ ⟨first, member, fresh, ⟨one, -, own⟩, rfl⟩
    exact ((parameters_iff first bk one served).mpr (all first member fresh one own.symm)).symm

/-- The calls of one calling sequence fit exactly if their block agrees with the
prototype, or if the sequence has no call. -/
theorem call_fits (noSensor : cpr.capt = []) (noActuator : cpr.actt = []) (bk : Nat) (pt : Int)
    (flag : Nat) : EveryLine (LineFits cpr) (callBlock42 cpr bk pt flag) ↔
      (returnsAtOnce cpr bk pt flag = false → Agreeing cpr bk) := by
  have sensor : isSensor cpr bk = false := by simp [isSensor, noSensor]
  have actuator : isActuator cpr bk = false := by simp [isActuator, noActuator]
  rw [EveryLine, everyBranch_lines _ (call_lines cpr bk pt flag)]
  unfold callBlock42
  cases early : returnsAtOnce cpr bk pt flag with
  | true => simp
  | false =>
    cases never : neverCalled cpr bk with
    | true => simp [Agreeing, callable, never]
    | false =>
      simp only [sensor, actuator, Bool.false_eq_true, if_false, true_imp_iff]
      cases called : supported cpr bk with
      | true =>
        obtain ⟨before, arguments, after, written, first, last, types⟩ :=
          callSequence_once bk (adjustPt cpr bk pt flag) (adjustFlag cpr bk flag) flag called
        have here : callable cpr bk = true := by rw [callable, called, never]; rfl
        rw [written, ← fits_iff bk here arguments types]
        constructor
        · intro all
          exact all _ (List.mem_append_right _ List.mem_cons_self)
        · intro fits line member
          rcases List.mem_append.mp member with earlier | later
          · exact fits_silent before first line earlier
          · rcases List.mem_cons.mp later with same | later
            · rw [Stmt.line.inj same]
              exact fits
            · exact fits_silent after last line later
      | false =>
        have none : ¬ callable cpr bk = true := by simp [callable, called]
        refine iff_of_true ?_ fun callable => absurd callable none
        obtain note | none := callSequence_unsupported cpr bk (adjustPt cpr bk pt flag)
          (adjustFlag cpr bk flag) flag called
        · rw [note]
          exact fits_silent _ rfl
        · rw [none]
          exact fits_silent _ rfl

end Calls

section Lines

variable {P : Line → Prop}

theorem every_nil : EveryLine P [] := fun _ member => absurd member List.not_mem_nil

theorem every_append {left right : Text} (first : EveryLine P left) (second : EveryLine P right) :
    EveryLine P (left ++ right) := by
  intro line member
  rw [everyBranch_append] at member
  exact (List.mem_append.mp member).elim (first line) (second line)

theorem EveryLine.left {left right : Text} (every : EveryLine P (left ++ right)) : EveryLine P left := by
  intro line member
  apply every
  rw [everyBranch_append]
  exact List.mem_append_left _ member

theorem EveryLine.right (left : Text) {right : Text} (every : EveryLine P (left ++ right)) :
    EveryLine P right := by
  intro line member
  apply every
  rw [everyBranch_append]
  exact List.mem_append_right _ member

theorem EveryLine.item {α : Type} {items : List α} {text : α → Text}
    (every : EveryLine P (items.flatMap text)) (item : α) (inside : item ∈ items) :
    EveryLine P (text item) := by
  intro line member
  apply every
  rw [everyBranch_flatMap]
  exact List.mem_flatMap_of_mem inside member

theorem every_flatMap {α : Type} (items : List α) (text : α → Text)
    (each : ∀ item ∈ items, EveryLine P (text item)) : EveryLine P (items.flatMap text) := by
  intro line member
  rw [everyBranch_flatMap, List.mem_flatMap] at member
  obtain ⟨item, inside, found⟩ := member
  exact each item inside line found

theorem every_flatten (texts : List Text) (each : ∀ text ∈ texts, EveryLine P text) :
    EveryLine P texts.flatten := by
  have all := every_flatMap texts id each
  rwa [List.flatMap_id] at all

theorem every_line {line : Line} (here : P line) : EveryLine P [.line line] := by
  intro other member
  rw [everyBranch, everyBranch, everyBranchStmt, List.append_nil, List.mem_singleton] at member
  exact Stmt.line.inj member ▸ here

/-- The case of a label is one of the texts, or empty. -/
theorem every_case (texts : List Text) (each : ∀ text ∈ texts, EveryLine P text) (label : Nat) :
    EveryLine P (caseText texts label) := by
  rw [caseText, List.getD_eq_getElem?_getD]
  cases found : texts[label - 1]? with
  | none => exact every_nil
  | some text => exact each text (List.mem_of_getElem? found)

theorem every_if (bk : Nat) (test : Test) {thentxt elsetxt : Text} (first : EveryLine P thentxt)
    (second : EveryLine P elsetxt) : EveryLine P [.ifElse bk test thentxt elsetxt] := by
  intro line member
  rw [everyBranch, everyBranch, everyBranchStmt, List.append_nil, List.mem_append] at member
  exact member.elim (first line) (second line)

theorem every_ifElseIf (bk : Nat) (test elseTest : Test) {thentxt elsetxt : Text}
    (first : EveryLine P thentxt) (second : EveryLine P elsetxt) :
    EveryLine P [.ifElseIf bk test thentxt elseTest elsetxt] := by
  intro line member
  rw [everyBranch, everyBranch, everyBranchStmt, List.append_nil, List.mem_append] at member
  exact member.elim (first line) (second line)

theorem every_switch (bk : Nat) (numbers : List Nat) (body : Nat → Text)
    (each : ∀ label ∈ numbers, EveryLine P (body label)) : EveryLine P [.switchI bk numbers body] := by
  intro line member
  rw [everyBranch, everyBranch, everyBranchStmt, List.append_nil, List.mem_flatMap] at member
  obtain ⟨label, inside, found⟩ := member
  exact each label inside line found

theorem every_setI (selector : Selector) : EveryLine P [.setI selector] := by
  intro line member
  cases member

theorem every_chooseI (test : Test) (first second : Selector) :
    EveryLine P [.chooseI test first second] := by
  intro line member
  cases member

end Lines

section Generators

variable (cpr : Compiled) (P : Line → Prop)

/-- What holds of comments, empty lines and all calling sequences. -/
structure Basic : Prop where
  comment : ∀ note, P (.comment note)
  blank : P .blank
  call : ∀ bk, IsBlock cpr bk → ∀ pt flag, EveryLine P (callBlock42 cpr bk pt flag)

/-- What an emission adds to the texts of events keeps it. -/
structure Keeps (emission : Emission) : Prop where
  ordinary : ∀ activation, IsBlock cpr activation.1 → EveryLine P (emission.ordinary activation)
  ifThenElse : ∀ bk thentxt elsetxt, EveryLine P thentxt → EveryLine P elsetxt →
    EveryLine P (emission.ifThenElse bk thentxt elsetxt)
  eventSelect : ∀ bk numbers body, (∀ label ∈ numbers, EveryLine P (body label)) →
    EveryLine P (emission.eventSelect bk numbers body)

/-- Activations as the compiler writes them. -/
def Listed (activations : List Activation) : Prop :=
  ∀ activation ∈ activations, Known cpr activation ∧ IsBlock cpr activation.1

variable {cpr P}

theorem every_placed (basic : Basic cpr P) {txt : Text} (every : EveryLine P txt) :
    EveryLine P (placed txt) := by
  unfold placed
  split
  · exact every_nil
  · exact every_append every (every_line basic.blank)

theorem every_headed (basic : Basic cpr P) (note : String) {txt : Text} (every : EveryLine P txt) :
    EveryLine P (headed note txt) := by
  unfold headed
  split
  · exact every_nil
  · exact every_append (every_line basic.blank) (every_append (every_line (basic.comment _)) every)

/-- One activation, when the generators of its alternatives keep it. What it adds itself
are heads and calls of its own block. -/
theorem piece_every (basic : Basic cpr P) {emission : Emission} (keeps : Keeps cpr P emission)
    (branch test emit : Nat → Option Text) (activation : Activation)
    (known : Known cpr activation) (block : IsBlock cpr activation.1)
    (alternatives : ¬ cpr.Ordinary activation.1 → ∀ ev ∈ cpr.outputEvents activation.1, ∀ text,
      branch ev = some text ∨ emit ev = some text → EveryLine P text)
    (text : Text) (made : piece cpr emission branch test emit activation = some text) :
    EveryLine P text := by
  by_cases ordinary : cpr.Ordinary activation.1
  · simp only [piece, ordinary, if_true, Option.some.injEq] at made
    rw [← made]
    exact keeps.ordinary activation block
  · have below := alternatives ordinary
    rcases (known.resolve_left ordinary).kind with ⟨kind, two⟩ | ⟨kind, -⟩
    · simp only [piece, ordinary, kind, if_true, if_false, Option.bind_eq_bind, Option.bind_eq_some_iff,
        Option.some.injEq] at made
      obtain ⟨thentxt, first, elsetxt, second, rfl⟩ := made
      rw [if_outputEvents two] at below
      have thens := below _ List.mem_cons_self thentxt (Or.inl first)
      have elses := below _ (List.mem_cons_of_mem _ List.mem_cons_self) elsetxt (Or.inl second)
      unfold ifPiece
      split
      · exact every_nil
      · exact every_append (every_line (basic.comment _)) (keeps.ifThenElse _ _ _ thens elses)
    · have other : ¬ (-2 : Int) = -1 := by decide
      simp only [piece, ordinary, kind, other, if_true, if_false, Option.bind_eq_bind,
        Option.bind_eq_some_iff, Option.some.injEq] at made
      obtain ⟨tested, -, emitted, emits, rfl⟩ := made
      have each : ∀ text ∈ emitted, EveryLine P text := by
        intro text member
        obtain ⟨ev, output, found⟩ := mapM_member emit _ emitted emits text member
        exact below ev output text (Or.inr found)
      unfold selectPiece
      split
      · exact every_nil
      · refine every_append (every_line (basic.comment _)) (keeps.eventSelect _ _ _ ?_)
        exact fun label _ => every_case emitted each label

/-- A list of activations. -/
theorem walk_every (basic : Basic cpr P) {emission : Emission} (keeps : Keeps cpr P emission)
    (branch test emit : Nat → Option Text) (activations : List Activation)
    (listed : Listed cpr activations)
    (alternatives : ∀ activation ∈ activations, ¬ cpr.Ordinary activation.1 →
      ∀ ev ∈ cpr.outputEvents activation.1, ∀ text,
        branch ev = some text ∨ emit ev = some text → EveryLine P text)
    (text : Text) (made : walk cpr emission branch test emit activations = some text) :
    EveryLine P text := by
  simp only [walk, Option.bind_eq_bind, Option.bind_eq_some_iff, Option.some.injEq] at made
  obtain ⟨texts, pieces, rfl⟩ := made
  apply every_flatten
  intro here member
  obtain ⟨activation, inside, found⟩ := mapM_member _ _ texts pieces here member
  obtain ⟨known, block⟩ := listed activation inside
  exact piece_every basic keeps branch test emit activation known block
    (alternatives activation inside) here found

theorem doit_keeps (basic : Basic cpr P) (flag : Nat) : Keeps cpr P (doitEmission cpr flag) where
  ordinary activation block := by
    simp only [doitEmission]
    split_ifs
    · exact every_placed basic (basic.call _ block _ _)
    · exact every_placed basic (basic.call _ block _ _)
    · exact every_placed basic (basic.call _ block _ _)
    · exact every_nil
  ifThenElse _ _ _ := every_if _ _
  eventSelect _ _ _ each := every_append (every_setI _) (every_switch _ _ _ each)

theorem cdoit_keeps (basic : Basic cpr P) (flag : Nat) : Keeps cpr P (cdoitEmission cpr flag) where
  ordinary _ block := every_placed basic (basic.call _ block _ _)
  ifThenElse _ _ _ := every_if _ _
  eventSelect _ _ _ each := every_append (every_setI _) (every_switch _ _ _ each)

theorem reinitdoit_keeps (basic : Basic cpr P) (flag : Nat) :
    Keeps cpr P (reinitdoitEmission cpr flag) where
  ordinary _ block := every_placed basic (basic.call _ block _ _)
  ifThenElse _ _ _ := every_ifElseIf _ _ _
  eventSelect _ _ _ each := every_append (every_chooseI _ _ _) (every_switch _ _ _ each)

/-- The activations of an event. -/
theorem event_listed (assembled : Assembled cpr) (ev : Nat) (inside : IsEvent cpr ev) :
    Listed cpr (cpr.activations ev) := fun activation member =>
  ⟨assembled.wellFormed.known ev inside activation member, assembled.scheduled ev inside activation member⟩

/-- The output events of a listed synchronisation block are events. -/
theorem Listed.event {activations : List Activation} (listed : Listed cpr activations)
    (activation : Activation) (member : activation ∈ activations)
    (synchro : ¬ cpr.Ordinary activation.1) (ev : Nat) (output : ev ∈ cpr.outputEvents activation.1) :
    IsEvent cpr ev :=
  ((listed activation member).1.resolve_left synchro).events ev output

theorem doit_every (assembled : Assembled cpr) (basic : Basic cpr P) (flag fuel ev : Nat) (text : Text)
    (made : writeCodeDoit cpr fuel ev flag = some text) (inside : IsEvent cpr ev) : EveryLine P text := by
  refine fuelled_spec (doitStep cpr flag) (fun ev text => IsEvent cpr ev → EveryLine P text) ?_ fuel ev
    text made inside
  intro call calls ev text made inside
  have listed := event_listed assembled ev inside
  refine walk_every basic (doit_keeps basic flag) call call call _ listed ?_ text made
  intro activation member synchro other output text found
  exact calls other text (found.elim id id) (listed.event activation member synchro other output)

theorem initdoit_every (assembled : Assembled cpr) (basic : Basic cpr P) (flag fuel ev : Nat) (text : Text)
    (made : writeCodeInitdoit cpr fuel ev flag = some text) (inside : IsEvent cpr ev) :
    EveryLine P text := by
  refine fuelled_spec (initdoitStep cpr fuel flag) (fun ev text => IsEvent cpr ev → EveryLine P text) ?_
    fuel ev text made inside
  intro call calls ev text made inside
  have listed := event_listed assembled ev inside
  refine walk_every basic (cdoit_keeps basic flag) call _ _ _ listed ?_ text made
  intro activation member synchro other output text found
  have event := listed.event activation member synchro other output
  rcases found with found | found
  · exact calls other text found event
  · exact doit_every assembled basic flag fuel other text found event

/-- One activation of the derivative code, whatever `tmp_` holds: the tested cell stands
in a head, which is no call. -/
theorem fragment_every (basic : Basic cpr P) (heads : DerivativeHeads)
    (ordinary : ∀ activation, IsBlock cpr activation.1 → EveryLine P (heads.ordinary activation))
    (call : Cell → Nat → Option Text) (tmp after : Cell) (activation : Activation)
    (known : Known cpr activation) (block : IsBlock cpr activation.1)
    (calls : ∀ tmp, ∀ ev ∈ cpr.outputEvents activation.1, ∀ text, call tmp ev = some text →
      ¬ cpr.Ordinary activation.1 → EveryLine P text) (piece : Fragment)
    (made : fragment cpr heads call tmp activation = some (piece, after)) : EveryLine P piece.text := by
  rcases fragment_cases heads call tmp after activation piece made with
    ⟨-, -, written, -⟩ | ⟨synchro, kind, thentxt, elsetxt, thens, elses, -, -, rfl⟩ |
    ⟨synchro, kind, tested, emitted, -, emits, -, rfl⟩
  · rw [written]
    exact ordinary activation block
  · have two : cpr.clkptr (activation.1 + 1) = cpr.clkptr activation.1 + 2 := by
      have kinds := (known.resolve_left synchro).kind
      omega
    rw [if_outputEvents two] at calls
    have first := calls tmp _ List.mem_cons_self thentxt thens synchro
    have second := calls tmp _ (List.mem_cons_of_mem _ List.mem_cons_self) elsetxt elses synchro
    unfold ifFragment
    split
    · exact every_nil
    · exact every_append (every_line (basic.comment _)) (every_ifElseIf _ _ _ first second)
  · have each : ∀ text ∈ emitted, EveryLine P text := by
      intro text member
      obtain ⟨ev, output, found⟩ := mapM_member _ _ emitted emits text member
      exact calls _ ev output text found synchro
    unfold selectFragment
    split
    · exact every_nil
    · refine every_append (every_line (basic.comment _)) (every_append (every_chooseI _ _ _) ?_)
      exact every_switch _ _ _ fun label _ => every_case emitted each label

/-- A list of activations of the derivative code. -/
theorem fragments_every (basic : Basic cpr P) (heads : DerivativeHeads)
    (ordinary : ∀ activation, IsBlock cpr activation.1 → EveryLine P (heads.ordinary activation))
    (call : Cell → Nat → Option Text)
    (calls : ∀ tmp ev text, call tmp ev = some text → IsEvent cpr ev → EveryLine P text) (tmp : Cell)
    (activations : List Activation) (listed : Listed cpr activations) (pieces : List Fragment)
    (made : fragments cpr heads call tmp activations = some pieces) :
    EveryLine P (pieces.flatMap Fragment.text) := by
  apply every_flatMap
  intro piece member
  obtain ⟨activation, inside, before, after, found⟩ :=
    mem_fragments heads call tmp activations pieces made piece member
  obtain ⟨known, block⟩ := listed activation inside
  refine fragment_every basic heads ordinary call before after activation known block ?_ piece found
  intro tmp ev output text made synchro
  exact calls tmp ev text made (listed.event activation inside synchro ev output)

theorem ozdoit_every (assembled : Assembled cpr) (basic : Basic cpr P) (flag fuel : Nat) (tmp : Cell)
    (ev : Nat) (text : Text) (made : writeCodeOzdoit cpr fuel flag tmp ev = some text)
    (inside : IsEvent cpr ev) : EveryLine P text := by
  refine fuelled_spec (ozdoitStep cpr flag) (fun start text => IsEvent cpr start.2 → EveryLine P text) ?_
    fuel (tmp, ev) text made inside
  intro call calls start text made inside
  simp only [ozdoitStep, Option.bind_eq_bind, Option.bind_eq_some_iff, Option.some.injEq] at made
  obtain ⟨pieces, made, rfl⟩ := made
  refine fragments_every basic (ozdoitHeads cpr flag) ?_ _ (fun tmp ev text => calls (tmp, ev) text) _ _
    (event_listed assembled _ inside) pieces made
  intro activation block
  simp only [ozdoitHeads]
  split
  · exact every_append (basic.call _ block _ _) (every_line basic.blank)
  · exact every_placed basic (basic.call _ block _ _)

theorem odoit_every (assembled : Assembled cpr) (basic : Basic cpr P) (flag : Nat) (other : flag ≠ 10)
    (fuel : Nat) (text : Text) (made : writeCodeOdoit cpr fuel flag = some text) : EveryLine P text := by
  simp only [writeCodeOdoit, odoitFragments, Option.bind_eq_bind, Option.bind_eq_some_iff,
    Option.some.injEq] at made
  obtain ⟨pieces, made, rfl⟩ := made
  refine fragments_every basic (odoitHeads cpr flag) ?_ _
    (fun tmp ev text found inside => ozdoit_every assembled basic flag fuel tmp ev text found inside) _ _
    (fun activation member => ⟨assembled.wellFormed.knownOord activation member, ?_⟩) pieces made
  · intro activation block
    simp only [odoitHeads, other, if_false]
    split <;> exact every_placed basic (basic.call _ block _ _)
  · exact assembled.ordered activation (List.mem_append_right _ member)

theorem reinitdoit_every (assembled : Assembled cpr) (basic : Basic cpr P) (flag fuel : Nat) (text : Text)
    (made : writeCodeReinitdoit cpr fuel flag = some text) : EveryLine P text := by
  have listed : Listed cpr cpr.oord := fun activation member =>
    ⟨assembled.wellFormed.knownOord activation member,
      assembled.ordered activation (List.mem_append_right _ member)⟩
  simp only [writeCodeReinitdoit, Option.bind_eq_bind, Option.bind_eq_some_iff,
    Option.some.injEq] at made
  obtain ⟨pieces, generated, rfl⟩ := made
  refine every_flatMap _ _ fun first member => ?_
  obtain ⟨inside, before, written⟩ := mem_reinitdoitPieces generated first member
  obtain ⟨known, block⟩ := listed first.activation inside
  refine piece_every basic (reinitdoit_keeps basic flag) _ _ _ first.activation known block ?_
    first.text written
  intro synchro ev output text found
  exact initdoit_every assembled basic flag fuel ev text (found.elim id id)
    (listed.event first.activation inside synchro ev output)

/-- The lists `cord` and `iord`. -/
theorem list_every (assembled : Assembled cpr) (basic : Basic cpr P) (flag fuel : Nat)
    (activations : List Activation) (listed : Listed cpr activations) (text : Text)
    (made : walk cpr (cdoitEmission cpr flag) (fun ev => writeCodeDoit cpr fuel ev flag)
      (fun ev => writeCodeDoit cpr fuel ev flag) (fun ev => writeCodeDoit cpr fuel ev flag) activations =
        some text) : EveryLine P text := by
  refine walk_every basic (cdoit_keeps basic flag) _ _ _ _ listed ?_ text made
  intro activation member synchro ev output text found
  exact doit_every assembled basic flag fuel ev text (found.elim id id)
    (listed.event activation member synchro ev output)

theorem flagText_every (basic : Basic cpr P) (flag : Nat) : EveryLine P (flagText cpr flag) := by
  apply every_flatMap
  intro bk member
  have block : IsBlock cpr bk := by
    rw [mem_slice] at member
    unfold nblk at member
    unfold IsBlock
    split at member <;> omega
  dsimp only
  split
  · exact every_nil
  · exact every_append (every_line basic.blank) (basic.call bk block 0 flag)

/-- The calls of `<model>_isr` for one flag. -/
theorem flagPass_every (assembled : Assembled cpr) (basic : Basic cpr P) (fuel flag : Nat) (text : Text)
    (made : flagPass cpr fuel flag = some text) : EveryLine P text := by
  simp only [flagPass, Option.bind_eq_bind, Option.bind_eq_some_iff, Option.some.injEq] at made
  obtain ⟨continuous, here, events, there, rfl⟩ := made
  have first : EveryLine P continuous := by
    split at here
    · refine list_every assembled basic flag fuel cpr.cord (fun activation member => ?_) continuous here
      exact ⟨assembled.wellFormed.knownCord activation member,
        assembled.ordered activation (by simp [member])⟩
    · obtain rfl := Option.some.inj here
      exact every_nil
  refine every_headed basic _ (every_append (every_headed basic _ first) (every_headed basic _ ?_))
  apply every_flatMap
  intro text member
  obtain ⟨ev, inside, found⟩ := mapM_member _ _ events there text member
  exact every_placed basic (doit_every assembled basic flag fuel ev text found (assembled.sources ev inside))

/-- What holds of comments, empty lines and calling sequences holds of every line of the
generated file. -/
theorem standalone_every (assembled : Assembled cpr) (basic : Basic cpr P) (fuel : Nat)
    (model : Standalone) (made : makeStandalonert cpr fuel = some model) :
    EveryLine P model.init ∧ EveryLine P model.isr ∧ EveryLine P (endText cpr) ∧
      EveryLine P model.simblk := by
  simp only [makeStandalonert, Option.bind_eq_bind, Option.bind_eq_some_iff, Option.some.injEq] at made
  obtain ⟨init, first, isr, second, simblk, third, rfl⟩ := made
  refine ⟨?_, ?_, ?_, ?_⟩
  · obtain ⟨initial, derivative, start, solver, rfl⟩ := initText_parts fuel init first
    refine every_append (every_append (every_append (every_line (basic.comment _))
      (flagText_every basic 4)) (every_headed basic _ ?_)) (every_headed basic _ ?_)
    · refine list_every assembled basic 1 fuel cpr.iord (fun activation member => ?_) initial start
      exact ⟨assembled.wellFormed.knownIord activation member,
        assembled.ordered activation (by simp [member])⟩
    · rcases solver with ⟨-, -, left, right, one, two, rfl⟩ | ⟨-, rfl⟩
      · exact every_append (reinitdoit_every assembled basic 1 fuel left one)
          (reinitdoit_every assembled basic 7 fuel right two)
      · exact every_nil
  · simp only [isrText, Option.bind_eq_bind, Option.bind_eq_some_iff, Option.some.injEq] at second
    obtain ⟨passes, made, rfl⟩ := second
    apply every_flatten
    intro text member
    obtain ⟨flag, -, found⟩ := mapM_member _ _ passes made text member
    exact flagPass_every assembled basic fuel flag text found
  · exact every_append (every_line (basic.comment _)) (flagText_every basic 5)
  · unfold simblkText at third
    split at third
    · obtain rfl := Option.some.inj third
      exact every_nil
    · simp only [Option.bind_eq_bind, Option.bind_eq_some_iff, Option.some.injEq] at third
      obtain ⟨output, one, derivative, zero, rfl⟩ := third
      exact every_append (odoit_every assembled basic 1 (by decide) fuel output one)
        (odoit_every assembled basic 0 (by decide) fuel derivative zero)

end Generators

section Program

/-- The texts that `<model>_init` begins with call every block with flag 4. -/
theorem init_calls {cpr : Compiled} {P : Line → Prop} (fuel : Nat) (model : Standalone)
    (made : makeStandalonert cpr fuel = some model) (every : EveryLine P model.init) (bk : Nat)
    (member : bk ∈ slice 1 (nblk cpr + 1)) : EveryLine P (callBlock42 cpr bk 0 4) := by
  simp only [makeStandalonert, Option.bind_eq_bind, Option.bind_eq_some_iff, Option.some.injEq] at made
  obtain ⟨init, first, isr, -, simblk, -, rfl⟩ := made
  obtain ⟨initial, derivative, -, -, rfl⟩ := initText_parts fuel init first
  have flags : EveryLine P (flagText cpr 4) := EveryLine.right [_] every.left.left
  have here := flags.item bk member
  dsimp only at here
  split at here
  · rename_i empty
    rw [List.isEmpty_iff.mp empty]
    exact every_nil
  · exact EveryLine.right [_] here

/-- The generated file exists exactly if the generator does not stop. All its calls then
pass what their prototype declares exactly if every called block agrees with the first
block of its function. Calls are compared by the types of their arguments, in order; a
function that no prototype declares takes what it is given. That a block does not agree
is seen in the code for flag 4, which calls all of them. -/
theorem calls_typed_iff (cpr : Compiled) (assembled : Assembled cpr) :
    ∃ bound, ∀ fuel, bound ≤ fuel →
      ((∃ model, makeStandalonert cpr fuel = some model) ↔ ¬ GeneratorStops cpr) ∧
      ∀ model, makeStandalonert cpr fuel = some model →
        (WellTyped cpr model ↔ ∀ bk, IsBlock cpr bk → Agreeing cpr bk) := by
  refine ⟨{ev | IsEvent cpr ev}.ncard + 1, fun fuel deep =>
    ⟨standalone_iff assembled.wellFormed assembled.sources fuel deep, fun model made => ?_⟩⟩
  constructor
  · rintro ⟨init, -⟩ bk block called
    have plain : returnsAtOnce cpr bk 0 4 = false := by simp [returnsAtOnce]
    have calls := init_calls fuel model made init bk (callable_block bk block called)
    exact (call_fits assembled.noCapt assembled.noActt bk 0 4).mp calls plain called
  · intro agreeing
    refine standalone_every assembled ⟨fun _ => trivial, trivial, ?_⟩ fuel model made
    intro bk block pt flag
    exact (call_fits assembled.noCapt assembled.noActt bk pt flag).mpr fun _ => agreeing bk block

/-- The sample with two blocks that share a function of type 1: the first has no input,
the other one has one. -/
def sharedSample : Compiled :=
  { sample 0 with
    funs := fun bk => if bk = 3 then "cstblk4" else (sample 0).funs bk
    funtyp := fun bk => if bk = 1 ∨ bk = 3 then 1 else (sample 0).funtyp bk }

theorem sharedSample_ordinary (bk : Nat) : sharedSample.Ordinary bk ↔ bk ≠ 2 := by
  simp only [Ordinary, sharedSample, sample]
  split_ifs <;> omega

theorem sharedSample_known (activation : Activation) : Known sharedSample activation := by
  by_cases block : activation.1 = 2
  · refine Or.inr (block ▸ ⟨Or.inl ⟨rfl, rfl⟩, ?_⟩)
    exact (sample_synchro 0).events
  · exact Or.inl ((sharedSample_ordinary _).mpr block)

theorem sharedSample_assembled : Assembled sharedSample where
  wellFormed :=
    { known := fun _ _ activation _ => sharedSample_known activation
      knownCord := fun activation _ => sharedSample_known activation
      knownIord := fun activation _ => sharedSample_known activation
      knownOord := fun activation _ => sharedSample_known activation
      acyclic := fun ev inside path => by
        refine (sample_wellFormed 0).acyclic ev inside (path.lift id ?_)
        rintro first other ⟨activation, member, synchro, output⟩
        have block : activation.1 = 2 :=
          Decidable.byContradiction fun two => synchro ((sharedSample_ordinary _).mpr two)
        exact ⟨activation, member, block ▸ (sample_synchro 0).not_ordinary, output⟩ }
  sources := sample_assembled.sources
  scheduled := sample_assembled.scheduled
  ordered := sample_assembled.ordered
  links _ _ := ⟨Nat.le_refl 1, Nat.le_succ 1⟩
  noAct := rfl
  noCap := rfl
  noActt := rfl
  noCapt := rfl

/-- The generator does not stop at it either. -/
theorem sharedSample_goes : ¬ GeneratorStops sharedSample := by
  refine explicit_goes rfl fun flag => halts_shallow flag _ fun activation member _ => ?_
  obtain rfl := List.mem_singleton.mp member
  refine ⟨⟨1, by decide, 1, by decide, rfl⟩, fun ev output inner below => ?_⟩
  rw [sharedSample_ordinary]
  have outputs : sharedSample.outputEvents 2 = [1, 2] := rfl
  rw [outputs] at output
  rcases sample_activations 0 ev inner below with one | three | ⟨-, rfl⟩
  · omega
  · omega
  · simp at output

/-- Instances: the calls of the sample pass what their prototypes declare, those of the
shared function do not. -/
theorem sample_typed :
    (∃ bound, ∀ fuel, bound ≤ fuel →
      ∃ model, makeStandalonert (sample 0) fuel = some model ∧ WellTyped (sample 0) model) ∧
    ∃ bound, ∀ fuel, bound ≤ fuel →
      ∃ model, makeStandalonert sharedSample fuel = some model ∧ ¬ WellTyped sharedSample model := by
  constructor
  · obtain ⟨bound, all⟩ := calls_typed_iff (sample 0) sample_assembled
    refine ⟨bound, fun fuel deep => ?_⟩
    obtain ⟨written, typed⟩ := all fuel deep
    obtain ⟨model, made⟩ := written.mpr (sample_goes 0)
    refine ⟨model, made, (typed model made).mpr ?_⟩
    have agreeing : ∀ bk ∈ slice 1 5, Agreeing (sample 0) bk := by decide
    intro bk block
    exact agreeing bk ((mem_slice _ _ _).mpr ⟨block.1, Nat.lt_succ_of_le block.2⟩)
  · obtain ⟨bound, all⟩ := calls_typed_iff sharedSample sharedSample_assembled
    refine ⟨bound, fun fuel deep => ?_⟩
    obtain ⟨written, typed⟩ := all fuel deep
    obtain ⟨model, made⟩ := written.mpr sharedSample_goes
    refine ⟨model, made, fun well => ?_⟩
    have differs : ¬ Agreeing sharedSample 3 := by decide
    exact differs ((typed model made).mp well 3 ⟨by decide, by decide⟩)

end Program

end ScicosFlex.Codegen
