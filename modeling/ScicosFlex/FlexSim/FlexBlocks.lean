import Mathlib.Algebra.Group.Nat.Defs
import ScicosFlex.FlexSim.ArrayContainer

/-!
# The blocks of the demo board simulator

`flex_blocks` of `flex_blocks.c`, which Scicos calls for every block of the
simulated demo board: at initialization it registers the block and starts its engine
process with a channel of its own, at every update it talks to that engine, and at
the end it removes the block.

The operating system's answers to the start-up are an argument. The error codes of
channels and processes only go into messages and are left out, and so are the bytes
exchanged with the engine: an update is the type of the block and how the exchange
ends.
-/

namespace ScicosFlex.FlexSim

/-- `struct process_data`; the parameters end with the null pointer. -/
structure ProcessData where
  handle : Int
  name : Option String
  parameters : List (Option String)
  nparameters : Nat
deriving DecidableEq

/-- `struct comm_channel`. -/
structure CommChannel where
  handle : Int
  listenHandle : Int
  name : Option String
  inBuffSize : Nat
  outBuffSize : Nat
  disconnectionNeeded : Int
deriving DecidableEq

/-- `block_data`. -/
structure BlockData where
  id : Int
  process : ProcessData
  channel : CommChannel
  exists_ : Bool
deriving DecidableEq

/-- The file-level variables. `process`, `channel` and `engine_exists` point into
one element of `blocks_data`, the current one. -/
structure Flexsim where
  blocksData : Container BlockData
  current : Option Nat

/-- `init_process`. -/
def initProcess : ProcessData := { handle := -1, name := none, parameters := [], nparameters := 0 }

/-- `init_channel`. -/
def initChannel : CommChannel :=
  { handle := -1, listenHandle := -1, name := none, inBuffSize := 0, outBuffSize := 0,
    disconnectionNeeded := -1 }

/-- `initialize_block_data`. -/
def initializeBlockData : BlockData :=
  { id := -1, process := initProcess, channel := initChannel, exists_ := false }

/-- `assign_current_block`: the first element with the index, if there is one. -/
def assignCurrentBlock (blocks : Container BlockData) (blockIndex : Int) : Option Nat :=
  (List.range blocks.items).find? fun i => decide ((blocks.ptr i).id = blockIndex)

/-- `remove_block_data`. -/
def removeBlockData (blocks : Container BlockData) (blockIndex : Int) : Container BlockData :=
  match (List.range blocks.items).find? fun i => decide ((blocks.ptr i).id = blockIndex) with
  | some i => blocks.remove i
  | none => blocks

/-- How many digits the loop in `int_to_string` counts. -/
def digits (val : Nat) : Nat := if val / 10 = 0 then 1 else digits (val / 10) + 1
termination_by val
decreasing_by omega

/-- `int_to_string`: `snprintf` cuts the decimal numeral to the counted digits. -/
def intToString (blockIndex : Int) : String :=
  String.ofList ((toString blockIndex).toList.take (digits blockIndex.natAbs))

/-- `base_channel_name`. -/
def baseChannelName : String := "/tmp/flex_blocks_channel"

/-- `build_channel_name`. -/
def buildChannelName (base blockIndex : String) : String := base ++ blockIndex

/-- `build_engine_parameters`. -/
def buildEngineParameters (channelName blockIndex : String) : List String :=
  ["-channel", channelName, "-id", blockIndex]

/-- `build_channel`. -/
def buildChannel (channel : CommChannel) (inSize outSize : Nat) (name : String) : CommChannel :=
  { channel with inBuffSize := inSize, outBuffSize := outSize, name := some name }

/-- `build_process`: the name comes first, and the null pointer last. -/
def buildProcess (proc : ProcessData) (name : String) (parameters : List String) : ProcessData :=
  { proc with
    name := some name
    nparameters := parameters.length + 2
    parameters := (some name :: parameters.map some) ++ [none] }

/-- `sizeof(flex_buttons_data)` and `sizeof(ledslcdbuzzer_msg)`, both packed. -/
def buttonsSize : Nat := 4
def ledslcdbuzzerSize : Nat := 1 + 8 + 2 * (1 + 1 + 16 + 8) + 8

/-- What the start-up meets: the variable `FLEXPATH`, whether its file can be read,
the handle of the listening socket and whether it listens, the child's handle, and
the handle of the connection. -/
structure Startup where
  enginePath : Option String
  readable : Bool
  listenHandle : Int
  listens : Bool
  pid : Option Int
  handle : Option Int

/-- `open_channel` on a channel that was not open before: `none` behind an error. -/
def openChannel (channel : CommChannel) (startup : Startup) : CommChannel × Bool :=
  ({ channel with listenHandle := startup.listenHandle },
    decide (startup.listenHandle ≠ -1) && startup.listens)

/-- The part of case 4 behind the registration, on the current block. Every error
ends it, and the block keeps what it has. -/
def startEngine (block : BlockData) (startup : Startup) : BlockData :=
  let sblockIndex := intToString block.id
  let channelName := buildChannelName baseChannelName sblockIndex
  match startup.enginePath with
  | none => { block with exists_ := false }
  | some enginePath =>
    if startup.readable = false then { block with exists_ := false }
    else
      let channel := buildChannel block.channel buttonsSize ledslcdbuzzerSize channelName
      let (channel, opened) := openChannel channel startup
      if opened = false then { block with channel := channel, exists_ := false }
      else
        let process := buildProcess block.process enginePath
          (buildEngineParameters channelName sblockIndex)
        match startup.pid with
        | none => { block with channel := channel, process := process, exists_ := false }
        | some pid =>
          let process := { process with handle := pid }
          match startup.handle with
          | none => { block with channel := channel, process := process, exists_ := false }
          | some handle =>
            { block with
              channel := { channel with handle := handle }
              process := process
              exists_ := true }

/-- A call of `flex_blocks` with flag 4, 1 or 5. `reached` says whether an update
gets through to the engine and back. -/
inductive Call where
  | init (blockIndex : Int) (startup : Startup)
  | update (blockType blockIndex : Int) (reached : Bool)
  | ending (blockIndex : Int)

/-- The element of an array at a position, changed. -/
def Container.modify (c : Container BlockData) (place : Nat) (change : BlockData → BlockData) :
    Container BlockData :=
  { c with ptr := Function.update c.ptr place (change (c.ptr place)) }

/-- `flex_blocks`. -/
def flexBlocks (sim : Flexsim) : Call → Flexsim
  | .init blockIndex startup =>
    -- The block's index is taken for a position here.
    if sim.blocksData.atPtr blockIndex ≠ none then sim
    else
      let blocks := sim.blocksData.pushBack { initializeBlockData with id := blockIndex }
      match assignCurrentBlock blocks blockIndex with
      | none => { sim with blocksData := blocks }
      | some place =>
        { blocksData := blocks.modify place fun block => startEngine block startup
          current := some place }
  | .update blockType blockIndex reached =>
    match assignCurrentBlock sim.blocksData blockIndex with
    | none => sim
    | some place =>
      let talks := (sim.blocksData.ptr place).exists_ ∧ 0 ≤ blockType ∧ blockType ≤ 2
      { blocksData :=
          if talks ∧ reached = false then
            sim.blocksData.modify place fun block => { block with exists_ := false }
          else sim.blocksData
        current := some place }
  | .ending blockIndex =>
    match assignCurrentBlock sim.blocksData blockIndex with
    | none => sim
    | some place =>
      { blocksData := removeBlockData sim.blocksData blockIndex
        current := some place }

/-- No block is registered before the first call. -/
def boot : Flexsim :=
  { blocksData := { ptr := fun _ => initializeBlockData, items := 0, allocated := 0 }
    current := none }

/-- The block that an init of its own makes. -/
def ownBlock (blockIndex : Int) (startup : Startup) : BlockData :=
  startEngine { initializeBlockData with id := blockIndex } startup

/-- The digits counted are enough for the numeral. -/
theorem lt_pow_digits (val : Nat) : val < 10 ^ digits val := by
  induction val using digits.induct with
  | case1 val small =>
    rw [digits, if_pos small]
    omega
  | case2 val large inductionHypothesis =>
    rw [digits, if_neg large, Nat.pow_succ]
    omega

/-- At least one digit is counted. -/
theorem digits_pos (val : Nat) : 0 < digits val := by
  rw [digits]
  split <;> omega

/-- The numeral of a block index is not cut. -/
theorem intToString_eq (blockIndex : Int) (natural : 0 ≤ blockIndex) :
    intToString blockIndex = toString blockIndex := by
  obtain ⟨val, rfl⟩ := Int.eq_ofNat_of_zero_le natural
  have short : (Nat.repr val).length ≤ digits val :=
    (Nat.length_repr_le_iff (digits_pos val)).mpr (lt_pow_digits val)
  rw [intToString, Int.natAbs_natCast]
  change String.ofList ((Nat.repr val).toList.take (digits val)) = Nat.repr val
  rw [List.take_of_length_le (by rwa [String.length_toList]), String.ofList_toList]

/-- Blocks with different indices have channels with different names. -/
theorem channelName_injective (base : String) (left right : Int) (natural : 0 ≤ left)
    (other : 0 ≤ right) (same : buildChannelName base (intToString left) =
      buildChannelName base (intToString right)) : left = right := by
  obtain ⟨val, rfl⟩ := Int.eq_ofNat_of_zero_le natural
  obtain ⟨number, rfl⟩ := Int.eq_ofNat_of_zero_le other
  rw [buildChannelName, buildChannelName, intToString_eq _ natural, intToString_eq _ other,
    ← String.toList_inj, String.toList_append, String.toList_append] at same
  have numerals : (Nat.repr val).toList = (Nat.repr number).toList :=
    List.append_cancel_left same
  rw [Nat.toList_repr, Nat.toList_repr] at numerals
  have value := congrArg (fun chars => Nat.ofDigitChars 10 chars 0) numerals
  simp only [Nat.ofDigitChars_ten_toDigits] at value
  exact congrArg Int.ofNat value

end ScicosFlex.FlexSim
