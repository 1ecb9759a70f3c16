import Mathlib.Data.List.Nodup
import ScicosFlex.Library.Loops

/-!
# The pins of the MCP2200 block

The checks in the dialog of `MCP2200.sci`, and `init` and `inout` of `mcp2200.cpp`. The
user lists the pins that are inputs and the pins that are outputs. The block configures the
chip with a bit for each input, reads the inputs at every update and drives the outputs.

A pin in both lists is noticed only if it stands later in the list of the inputs. The
checks are the right ones, and the pins are used consistently, exactly if no pin is missed
in this way (`pins_consistent_iff`).

The answers of the chip are arguments. The vectors of the dialog are lists of integers.
-/

namespace ScicosFlex.Mcp2200.Pins

open Library.Loops

/-- The warnings of the checks. -/
inductive Warning where
  | baudrate
  | inputRange (index : Nat) (pin : Int)
  | inputTwice (pin : Int)
  | outputRange (index : Nat) (pin : Int)
  | outputTwice (pin : Int)
  | both (pin : Int)
deriving DecidableEq

/-- The texts of the warnings. -/
def Warning.text : Warning → String
  | .baudrate => "Accepted values for serial port are in [9600,19200,57600,115200]. " ++
      "Keeping previous values."
  | .inputRange index pin => "Input Index: " ++ toString index ++ " Pin" ++ toString pin ++
      " out of range [0-5]! Keeping previous values."
  | .inputTwice pin => "Make no sense have duplicated pin" ++ toString pin ++
      " as input! Keeping previous values."
  | .outputRange index pin => "Output Index: " ++ toString index ++ " Pin" ++ toString pin ++
      " out of range [0-5]! Keeping previous values."
  | .outputTwice pin => "Make no sense have duplicated pin" ++ toString pin ++
      " as output! Keeping previous values."
  | .both pin => "Invalid pin assignament. pin" ++ toString pin ++
      " cannot be IN and OUT at the same time! Keeping previous values."

/-- The check of the baud rate. -/
def checkBaudrate (baudrate : Int) : List Warning :=
  if baudrate ≠ 9600 ∧ baudrate ≠ 19200 ∧ baudrate ≠ 57600 ∧ baudrate ≠ 115200 then [.baudrate]
  else []

/-- The inner loops of the checks: the `i`-th pin is at some place before `i`. -/
def before (pins : List Int) (pin : Int) (i : Nat) : Bool :=
  pins.zipIdx.any fun (other, j) => decide (pin = other ∧ j < i)

/-- The loop over one of the vectors. -/
def checkVector (range : Nat → Int → Warning) (twice : Int → Warning) (pins : List Int) :
    List Warning :=
  pins.zipIdx.flatMap fun (pin, i) =>
    (if pin < 0 ∨ 5 < pin then [range (i + 1) pin] else []) ++
      (if before pins pin i then [twice pin] else [])

/-- The loop over the inputs. -/
def checkInputs (pinIn : List Int) : List Warning := checkVector .inputRange .inputTwice pinIn

/-- The loop over the outputs. -/
def checkOutputs (pinOut : List Int) : List Warning :=
  checkVector .outputRange .outputTwice pinOut

/-- The loop that compares the inputs with the outputs. -/
def checkBoth (pinIn pinOut : List Int) : List Warning :=
  pinIn.zipIdx.flatMap fun (pin, i) => if before pinOut pin i then [.both pin] else []

/-- All warnings in their order; `mywarn` counts them. -/
def warnings (baudrate : Int) (pinIn pinOut : List Int) : List Warning :=
  checkBaudrate baudrate ++ checkInputs pinIn ++ checkOutputs pinOut ++ checkBoth pinIn pinOut

/-- What the dialog sets in the model: the numbers of the ports and the parameters. -/
structure Model where
  nin : Nat
  nout : Nat
  rpar : Int
  ipar : List Int

/-- The job `set`: the model is updated without warnings, if `check_io` accepts the ports. -/
def set (checkIo : Bool) (baudrate : Int) (pinIn pinOut : List Int) : Option Model :=
  if 0 < (warnings baudrate pinIn pinOut).length then none
  else if checkIo then
    some { nin := pinOut.length, nout := pinIn.length, rpar := baudrate, ipar := pinIn ++ pinOut }
  else none

/-- The arguments of `ConfigureMCP2200`. -/
structure Configuration where
  ioMap : BitVec 8
  baudRateParam : Int
  rxLEDMode : Nat
  txLEDMode : Nat
  flow : Bool
  uload : Bool
  sspnd : Bool

/-- `BLINKSLOW`. -/
def blinkslow : Nat := 4

/-- The loop of `init`, over these places of the parameters. Shifts beyond the word and places
behind the parameters are undefined. -/
def ioMapLoop (ipar : List Int) : List Nat → BitVec 8 → Option (BitVec 8)
  | [], ioMap => some ioMap
  | i :: rest, ioMap =>
    match ipar[i]? with
    | none => none
    | some pin =>
      if 0 ≤ pin ∧ pin < 32 then
        ioMapLoop ipar rest (ioMap ||| (1#32 <<< pin.toNat).truncate 8)
      else none

/-- `init`, when the chip is connected or not and answers the configuration: the configuration,
if there is one, and `correct_init`. -/
def init (model : Model) (connected configures : Bool) : Option (Option Configuration × Bool) :=
  if connected then
    (ioMapLoop model.ipar (List.range model.nout) 0).map fun ioMap =>
      (some ⟨ioMap, model.rpar, blinkslow, blinkslow, false, false, false⟩, configures)
  else some (none, false)

/-- The calls to the chip during an update. -/
inductive Call where
  | readPin (pin : Int)
  | setPin (pin : Int)
  | clearPin (pin : Int)
deriving DecidableEq

/-- An `int` as an `unsigned int`. -/
def unsigned (value : Int) : Int := value % 4294967296

/-- The loop that reads the inputs. -/
def readLoop (ipar : List Int) : List Nat → Option (List Call)
  | [] => some []
  | i :: rest => do
    let pinIn ← ipar[i]?
    some (.readPin (unsigned pinIn) :: (← readLoop ipar rest))

/-- The loop that drives the outputs. `high` says which input ports of the block are
above 0.5. -/
def driveLoop (ipar : List Int) (nPinIn : Nat) (high : Nat → Bool) : List Nat → Option (List Call)
  | [] => some []
  | i :: rest => do
    let pinOut ← ipar[i]?
    let inPort := i - nPinIn
    let call := if high inPort then .setPin (unsigned pinOut) else .clearPin (unsigned pinOut)
    some (call :: (← driveLoop ipar nPinIn high rest))

/-- `inout`: the calls to the chip, and the outputs of the block if the reads are answered. -/
def inout (model : Model) (correctInit : Bool) (high : Nat → Bool) (answers : Nat → Option Int)
    (outputs : Nat → Int) : Option (List Call × (Nat → Int)) :=
  if correctInit then do
    let nPinIn := model.nout
    let reads ← readLoop model.ipar (List.range nPinIn)
    let drives ← driveLoop model.ipar nPinIn high
      (List.range' nPinIn (model.ipar.length - nPinIn))
    some (reads ++ drives,
      assignLoop (List.range nPinIn) (fun i old => (answers i).getD old) outputs)
  else some ([], outputs)

/-- The pins that are read. -/
def readPins (calls : List Call) : List Int :=
  calls.filterMap fun
    | .readPin pin => some pin
    | _ => none

/-- The pins that are driven. -/
def drivenPins (calls : List Call) : List Int :=
  calls.filterMap fun
    | .setPin pin | .clearPin pin => some pin
    | .readPin _ => none

/-- The pins of the chip, in each list at most once. -/
structure ListsValid (pinIn pinOut : List Int) : Prop where
  inputs : ∀ pin ∈ pinIn, 0 ≤ pin ∧ pin ≤ 5
  outputs : ∀ pin ∈ pinOut, 0 ≤ pin ∧ pin ≤ 5
  inputsOnce : pinIn.Nodup
  outputsOnce : pinOut.Nodup

/-- And not in both lists. -/
structure Consistent (pinIn pinOut : List Int) : Prop extends ListsValid pinIn pinOut where
  apart : ∀ pin ∈ pinIn, pin ∉ pinOut

/-- The chip is configured with the bits of the inputs, and an update reads every input once,
drives every output once and drives no input. -/
structure UsedConsistently (model : Model) (pinIn pinOut : List Int) : Prop where
  configured : ∀ configures, ∃ configuration : Configuration,
    init model true configures = some (some configuration, configures) ∧
      ∀ k < 8, configuration.ioMap.getLsbD k = decide ((k : Int) ∈ pinIn)
  updated : ∀ high answers outputs, ∃ calls after,
    inout model true high answers outputs = some (calls, after) ∧
      (∀ pin, (readPins calls).count pin = if pin ∈ pinIn then 1 else 0) ∧
      (∀ pin, (drivenPins calls).count pin = if pin ∈ pinOut then 1 else 0) ∧
      ∀ pin ∈ drivenPins calls, pin ∉ pinIn

/-- There are no warnings exactly for consistent pins, and then the model uses
them consistently. -/
def Right (baudrate : Int) (pinIn pinOut : List Int) : Prop :=
  (warnings baudrate pinIn pinOut = [] ↔ Consistent pinIn pinOut) ∧
    (warnings baudrate pinIn pinOut = [] → ∃ model, set true baudrate pinIn pinOut = some model ∧
      model.ipar = pinIn ++ pinOut ∧ UsedConsistently model pinIn pinOut)

/-- There are pins in both lists, and none of them stands later in the list of the inputs than
in that of the outputs. -/
def Missed (pinIn pinOut : List Int) : Prop :=
  (∃ pin ∈ pinIn, pin ∈ pinOut) ∧
    ∀ (i j : Nat) (pin : Int), pinIn[i]? = some pin → pinOut[j]? = some pin → i ≤ j

section Checks

theorem before_iff (pins : List Int) (pin : Int) (i : Nat) :
    before pins pin i = true ↔ ∃ j < i, pins[j]? = some pin := by
  rw [before, List.any_eq_true]
  constructor
  · rintro ⟨⟨other, j⟩, member, same⟩
    obtain ⟨rfl, earlier⟩ := of_decide_eq_true same
    exact ⟨j, earlier, List.mk_mem_zipIdx_iff_getElem?.mp member⟩
  · rintro ⟨j, earlier, found⟩
    exact ⟨(pin, j), List.mk_mem_zipIdx_iff_getElem?.mpr found, decide_eq_true ⟨rfl, earlier⟩⟩

/-- The loop over a vector does not warn exactly if its pins are in range and different. -/
theorem checkVector_nil (range : Nat → Int → Warning) (twice : Int → Warning)
    (pins : List Int) :
    checkVector range twice pins = [] ↔ (∀ pin ∈ pins, 0 ≤ pin ∧ pin ≤ 5) ∧ pins.Nodup := by
  rw [checkVector, List.flatMap_eq_nil_iff]
  constructor
  · intro silent
    have each : ∀ i pin, pins[i]? = some pin →
        ¬ (pin < 0 ∨ 5 < pin) ∧ ¬ before pins pin i = true := by
      intro i pin found
      have none := silent (pin, i) (List.mk_mem_zipIdx_iff_getElem?.mpr found)
      obtain ⟨inRange, once⟩ := List.append_eq_nil_iff.mp none
      constructor
      · intro outside
        rw [if_pos outside] at inRange
        cases inRange
      · intro again
        rw [if_pos again] at once
        cases once
    constructor
    · intro pin member
      obtain ⟨i, found⟩ := List.mem_iff_getElem?.mp member
      have inside := (each i pin found).1
      omega
    · rw [List.nodup_iff_getElem?_ne_getElem?]
      intro i j ordered inside same
      have found : pins[j]? = some (pins.get ⟨j, inside⟩) := List.getElem?_eq_getElem inside
      exact (each j _ found).2 ((before_iff _ _ _).mpr ⟨i, ordered, same.trans found⟩)
  · rintro ⟨inRange, once⟩ ⟨pin, i⟩ member
    have found := List.mk_mem_zipIdx_iff_getElem?.mp member
    have inside := inRange pin (List.mem_of_getElem? found)
    have first : ¬ before pins pin i = true := by
      rw [before_iff]
      rintro ⟨j, earlier, again⟩
      have bounded := (List.getElem?_eq_some_iff.mp found).1
      exact List.nodup_iff_getElem?_ne_getElem?.mp once j i earlier bounded
        (again.trans found.symm)
    dsimp only
    rw [if_neg (by omega), if_neg first]
    rfl

/-- The comparison of the lists does not warn exactly if no pin stands later in the list
of the inputs. -/
theorem checkBoth_nil (pinIn pinOut : List Int) :
    checkBoth pinIn pinOut = [] ↔
      ∀ (i j : Nat) (pin : Int), pinIn[i]? = some pin → pinOut[j]? = some pin → i ≤ j := by
  rw [checkBoth, List.flatMap_eq_nil_iff]
  constructor
  · intro silent i j pin found there
    have none := silent (pin, i) (List.mk_mem_zipIdx_iff_getElem?.mpr found)
    refine Nat.not_lt.mp fun later => ?_
    dsimp only at none
    rw [if_pos ((before_iff _ _ _).mpr ⟨j, later, there⟩)] at none
    cases none
  · rintro ordered ⟨pin, i⟩ member
    dsimp only
    rw [if_neg]
    rw [before_iff]
    rintro ⟨j, earlier, there⟩
    exact absurd earlier (Nat.not_lt.mpr
      (ordered i j pin (List.mk_mem_zipIdx_iff_getElem?.mp member) there))

/-- When the dialog does not warn. -/
theorem warnings_nil (baudrate : Int) (supported : checkBaudrate baudrate = [])
    (pinIn pinOut : List Int) :
    warnings baudrate pinIn pinOut = [] ↔ ListsValid pinIn pinOut ∧
      ∀ (i j : Nat) (pin : Int), pinIn[i]? = some pin → pinOut[j]? = some pin → i ≤ j := by
  rw [warnings, supported, List.nil_append, List.append_eq_nil_iff, List.append_eq_nil_iff,
    checkBoth_nil, checkInputs, checkOutputs, checkVector_nil, checkVector_nil]
  constructor
  · rintro ⟨⟨⟨inputs, inputsOnce⟩, outputs, outputsOnce⟩, ordered⟩
    exact ⟨⟨inputs, outputs, inputsOnce, outputsOnce⟩, ordered⟩
  · rintro ⟨valid, ordered⟩
    exact ⟨⟨⟨valid.inputs, valid.inputsOnce⟩, valid.outputs, valid.outputsOnce⟩, ordered⟩

/-- The warnings are right unless a pin is missed. Lists that are not valid are warned
of anyway, so there a missed pin does no harm. -/
theorem warnings_right (baudrate : Int) (supported : checkBaudrate baudrate = [])
    (pinIn pinOut : List Int) :
    (warnings baudrate pinIn pinOut = [] ↔ Consistent pinIn pinOut) ↔
      ¬ (ListsValid pinIn pinOut ∧ Missed pinIn pinOut) := by
  rw [warnings_nil baudrate supported]
  constructor
  · rintro right ⟨valid, ⟨pin, here, there⟩, ordered⟩
    exact (right.mp ⟨valid, ordered⟩).apart pin here there
  · intro caught
    constructor
    · rintro ⟨valid, ordered⟩
      exact { toListsValid := valid
              apart := fun pin here there => caught ⟨valid, ⟨pin, here, there⟩, ordered⟩ }
    · intro consistent
      refine ⟨consistent.toListsValid, fun i j pin here there => ?_⟩
      exact absurd (List.mem_of_getElem? there)
        (consistent.apart pin (List.mem_of_getElem? here))

end Checks

section Pins

/-- The places of the first part of the parameters. -/
theorem range_places (first second : List Int) :
    List.Forall₂ (fun i pin => (first ++ second)[i]? = some pin) (List.range first.length)
      first := by
  refine List.forall₂_iff_get.mpr ⟨List.length_range, fun i _ inside => ?_⟩
  rw [List.get_eq_getElem, List.getElem_range, List.getElem?_append_left inside]
  exact List.getElem?_eq_getElem inside

/-- The places of the second part. -/
theorem range'_places (first second : List Int) :
    List.Forall₂ (fun i pin => (first ++ second)[i]? = some pin)
      (List.range' first.length second.length) second := by
  refine List.forall₂_iff_get.mpr ⟨List.length_range', fun i _ inside => ?_⟩
  have place : first.length + 1 * i - first.length = i := by omega
  rw [List.get_eq_getElem, List.getElem_range', List.getElem?_append_right (by omega), place]
  exact List.getElem?_eq_getElem inside

variable (ipar : List Int)

/-- The bit of a pin. -/
theorem pin_bit (pin : Int) (valid : 0 ≤ pin ∧ pin ≤ 5) (k : Nat) (below : k < 8) :
    ((1#32 <<< pin.toNat).truncate 8).getLsbD k = decide ((k : Int) = pin) := by
  rw [BitVec.truncate_eq_setWidth, BitVec.getLsbD_setWidth, BitVec.getLsbD_shiftLeft,
    BitVec.getLsbD_one]
  grind

/-- The loop of `init` sets the bits of the pins at its places. -/
theorem ioMapLoop_bits (places : List Nat) (pins : List Int)
    (found : List.Forall₂ (fun i pin => ipar[i]? = some pin) places pins)
    (valid : ∀ pin ∈ pins, 0 ≤ pin ∧ pin ≤ 5)
    (ioMap : BitVec 8) :
    ∃ after, ioMapLoop ipar places ioMap = some after ∧
      ∀ k < 8, after.getLsbD k = (ioMap.getLsbD k || decide ((k : Int) ∈ pins)) := by
  induction found generalizing ioMap with
  | nil => exact ⟨ioMap, rfl, by simp⟩
  | @cons i pin places pins here _ inductionHypothesis =>
    obtain ⟨inside, others⟩ := List.forall_mem_cons.mp valid
    obtain ⟨after, looped, bits⟩ := inductionHypothesis others
      (ioMap ||| (1#32 <<< pin.toNat).truncate 8)
    refine ⟨after, ?_, fun k below => ?_⟩
    · rw [ioMapLoop, here]
      dsimp only
      rw [if_pos (by omega), looped]
    · rw [bits k below, BitVec.getLsbD_or, pin_bit pin inside k below]
      simp [Bool.or_assoc]

/-- Pins of the chip are the same without a sign. -/
theorem unsigned_pins (pins : List Int) (valid : ∀ pin ∈ pins, 0 ≤ pin ∧ pin ≤ 5) :
    pins.map unsigned = pins := by
  have same : ∀ pin ∈ pins, unsigned pin = pin := by
    intro pin member
    have inside := valid pin member
    rw [unsigned]
    omega
  exact (List.map_congr_left same).trans (List.map_id _)

/-- The reading loop reads the pins at its places. -/
theorem readLoop_calls (places : List Nat) (pins : List Int)
    (found : List.Forall₂ (fun i pin => ipar[i]? = some pin) places pins) :
    ∃ calls, readLoop ipar places = some calls ∧ readPins calls = pins.map unsigned ∧
      drivenPins calls = [] := by
  induction found with
  | nil => exact ⟨[], rfl, rfl, rfl⟩
  | @cons i pin places pins here _ inductionHypothesis =>
    obtain ⟨calls, looped, reads, drives⟩ := inductionHypothesis
    refine ⟨.readPin (unsigned pin) :: calls, ?_, congrArg (unsigned pin :: ·) reads, drives⟩
    rw [readLoop, here, looped]
    rfl

/-- The driving loop drives the pins at its places. -/
theorem driveLoop_calls (nPinIn : Nat) (high : Nat → Bool) (places : List Nat) (pins : List Int)
    (found : List.Forall₂ (fun i pin => ipar[i]? = some pin) places pins) :
    ∃ calls, driveLoop ipar nPinIn high places = some calls ∧ readPins calls = [] ∧
      drivenPins calls = pins.map unsigned := by
  induction found with
  | nil => exact ⟨[], rfl, rfl, rfl⟩
  | @cons i pin places pins here _ inductionHypothesis =>
    obtain ⟨calls, looped, reads, drives⟩ := inductionHypothesis
    cases up : high (i - nPinIn) with
    | true =>
      refine ⟨.setPin (unsigned pin) :: calls, ?_, reads, congrArg (unsigned pin :: ·) drives⟩
      rw [driveLoop, here, looped]
      simp [up]
    | false =>
      refine ⟨.clearPin (unsigned pin) :: calls, ?_, reads, congrArg (unsigned pin :: ·) drives⟩
      rw [driveLoop, here, looped]
      simp [up]

/-- Different entries occur once. -/
theorem count_once (pins : List Int) (once : pins.Nodup) (pin : Int) :
    pins.count pin = if pin ∈ pins then 1 else 0 := by
  split
  · next member => exact List.count_eq_one_of_mem once member
  · next absent => exact List.count_eq_zero_of_not_mem absent

/-- A model with the parameters of consistent pins uses them consistently. Every loop goes
over one of the lists, so it does to each pin what the place in its list says, once. -/
theorem consistent_used (pinIn pinOut : List Int) (consistent : Consistent pinIn pinOut)
    (baudrate : Int) :
    UsedConsistently ⟨pinOut.length, pinIn.length, baudrate, pinIn ++ pinOut⟩ pinIn pinOut := by
  constructor
  · intro configures
    obtain ⟨ioMap, looped, bits⟩ := ioMapLoop_bits (pinIn ++ pinOut) _ pinIn
      (range_places pinIn pinOut) consistent.inputs 0
    refine ⟨⟨ioMap, baudrate, blinkslow, blinkslow, false, false, false⟩, ?_, fun k below => ?_⟩
    · rw [init, if_pos rfl, looped, Option.map_some]
    · have zero : BitVec.getLsbD (0 : BitVec 8) k = false := BitVec.getLsbD_zero
      rw [bits k below, zero, Bool.false_or]
  · intro high answers outputs
    obtain ⟨reads, readLooped, readIn, drivesNone⟩ := readLoop_calls (pinIn ++ pinOut) _ pinIn
      (range_places pinIn pinOut)
    obtain ⟨drives, driveLooped, readsNone, driven⟩ := driveLoop_calls (pinIn ++ pinOut)
      pinIn.length high _ pinOut (range'_places pinIn pinOut)
    have rest : (pinIn ++ pinOut).length - pinIn.length = pinOut.length := by
      rw [List.length_append, Nat.add_sub_cancel_left]
    have allReads : readPins (reads ++ drives) = pinIn := by
      rw [readPins, List.filterMap_append, ← readPins, ← readPins, readsNone, List.append_nil,
        readIn, unsigned_pins pinIn consistent.inputs]
    have allDriven : drivenPins (reads ++ drives) = pinOut := by
      rw [drivenPins, List.filterMap_append, ← drivenPins, ← drivenPins, drivesNone,
        List.nil_append, driven, unsigned_pins pinOut consistent.outputs]
    refine ⟨reads ++ drives, assignLoop (List.range pinIn.length)
      (fun i old => (answers i).getD old) outputs, ?_, ?_, ?_, ?_⟩
    · rw [inout, if_pos rfl]
      dsimp only
      rw [readLooped, rest, driveLooped]
      rfl
    · rw [allReads]
      exact count_once pinIn consistent.inputsOnce
    · rw [allDriven]
      exact count_once pinOut consistent.outputsOnce
    · rw [allDriven]
      exact fun pin driven read => consistent.apart pin read driven

end Pins

/-- The baud rates that the dialog supports. -/
theorem checkBaudrate_nil (baudrate : Int) (supported : baudrate ∈ [9600, 19200, 57600, 115200]) :
    checkBaudrate baudrate = [] := by
  simp only [List.mem_cons, List.not_mem_nil, or_false] at supported
  rw [checkBaudrate, if_neg]
  omega

/-- The checks are right, and the pins are used consistently, exactly if no pin is
missed. The two lists are compared in all pairs, but of two equal pins only one that
stands later in the list of the inputs is warned of. The other checks miss nothing, and
what the dialog lets pass is what `init` and `inout` are given. -/
theorem pins_consistent_iff (baudrate : Int)
    (supported : baudrate ∈ [9600, 19200, 57600, 115200]) (pinIn pinOut : List Int) :
    Right baudrate pinIn pinOut ↔ ¬ (ListsValid pinIn pinOut ∧ Missed pinIn pinOut) := by
  rw [← warnings_right baudrate (checkBaudrate_nil baudrate supported), Right]
  refine ⟨And.left, fun right => ⟨right, fun silent => ?_⟩⟩
  refine ⟨_, ?_, rfl, consistent_used pinIn pinOut (right.mp silent) baudrate⟩
  rw [set, silent]
  rfl

/-- A pin that is the second input and the first output is not missed. -/
theorem later_input_caught : Right 9600 [1, 0] [0] := by
  refine (pins_consistent_iff 9600 (by decide) [1, 0] [0]).mpr ?_
  rintro ⟨-, -, ordered⟩
  exact absurd (ordered 1 0 0 rfl rfl) (by decide)

/-- A pin that is the only input and the only output is accepted. -/
theorem shared_pin_accepted : ¬ Right 9600 [0] [0] := by
  rintro ⟨⟨accepted, -⟩, -⟩
  have silent : warnings 9600 [0] [0] = [] := by decide
  exact (accepted silent).apart 0 (by decide) (by decide)

end ScicosFlex.Mcp2200.Pins
