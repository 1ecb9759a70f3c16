import Mathlib.Algebra.GroupWithZero.Nat
import ScicosFlex.FlexSim.FlexBlocks
import ScicosFlex.Library.Sessions

/-!
# The SMCube block

`smcube_block` of `smcube_block.c`, which Scicos calls for every block of the diagram
that runs a state machine in the SMCube engine, with `smcube_block_p.h`, and
`data_model.c` as far as the block uses it. Processes and channels are those of the
demo board simulator.

A block keeps in its work area the position of its entry in `blocks_data`. Five file
level pointers lead to the entry of the block that is called. The array is emptied at
the first initialization after an ending.

Allocation succeeds. The answers of the operating system to a start and those of the
engine to an update are arguments, and so is what the block's ports hold. Fresh memory
reads as zero; the block writes each of its bytes before it reads it. The bytes of an
answer that breaks off are dropped, for the engine is not asked again.
-/

namespace ScicosFlex.Smcube

open FlexSim Library.Sessions

/-- `dm_item_type`. -/
inductive ItemType where
  | int8 | int16 | int32 | uint8 | uint16 | uint32 | real
deriving DecidableEq

/-- `get_type_size`. -/
def getTypeSize : ItemType → Nat
  | .int8 | .uint8 => 1
  | .int16 | .uint16 => 2
  | .int32 | .uint32 => 4
  | .real => 8

/-- `struct dm_item`. -/
structure Item where
  type : ItemType
  multiplicity : Nat
deriving DecidableEq

/-- `struct dm_elem`; `data` is the memory at `data_ptr`, and its length `data_size`. -/
structure Elem where
  data : List UInt8
  items : List Item
deriving DecidableEq

/-- `block_data`. -/
structure BlockData where
  process : ProcessData
  channel : CommChannel
  exists_ : Bool
  input : Elem
  output : Elem
  outputEvents : BitVec 32
deriving DecidableEq

/-- What an initialization reads from its `scicos_block`. `insz` holds the rows of all
input ports, then their columns, then their types, and `outsz` those of the outputs. -/
structure ScicosBlock where
  nin : Nat
  insz : List Nat
  nout : Nat
  outsz : List Nat
  ipar : List Int

/-- `dm_init`, and what `dm_erase_elem` leaves. -/
def dmInit : Elem := { data := [], items := [] }

/-- The bytes of an item. -/
def Item.size (item : Item) : Nat := getTypeSize item.type * item.multiplicity

/-- `dm_create_elem`. -/
def dmCreateElem (types : List ItemType) (multiplicities : List Nat) : Elem :=
  let items := (types.zip multiplicities).map fun item => ⟨item.1, item.2⟩
  { data := List.replicate (items.map Item.size).sum 0, items := items }

/-- One type of `build_from_scicos_types`. -/
def fromScicosType : Nat → Option ItemType
  | 81 => some .int8
  | 82 => some .int16
  | 84 => some .int32
  | 811 => some .uint8
  | 812 => some .uint16
  | 814 => some .uint32
  | 10 => some .real
  | _ => none

/-- `build_from_scicos_types` on the last part of `insz` or `outsz`. -/
def buildFromScicosTypes (sizes : List Nat) (ports : Nat) : Option (List ItemType) :=
  ((sizes.drop (2 * ports)).take ports).mapM fromScicosType

/-- The offset that `dm_get_offset_and_size` computes. -/
def getOffset (items : List Item) (index : Nat) : Nat := ((items.take index).map Item.size).sum

/-- `assign_input_data`: every input port's bytes go to the place of its item. -/
def assignInputData (input : Elem) (inptr : Nat → List UInt8) : Elem :=
  { input with
    data := (List.range input.items.length).foldl
      (fun data i =>
        let offset := getOffset input.items i
        let bytes := (inptr i).take (input.items[i]?.elim 0 Item.size)
        data.take offset ++ bytes ++ data.drop (offset + bytes.length)) input.data }

/-- `assign_output_data`: the bytes that every output port gets. -/
def assignOutputData (output : Elem) : List (List UInt8) :=
  output.items.mapIdx fun i item => (output.data.drop (getOffset output.items i)).take item.size

/-- `initialize_block_data`. -/
def initializeBlockData : BlockData :=
  { process := initProcess
    channel := initChannel
    exists_ := false
    input := dmInit
    output := dmInit
    outputEvents := 0 }

/-- `base_channel_name`, `executable_name` and `folder_separator`. -/
def baseChannelName : String := "/tmp/smcube_channel"
def executableName : String := "SMCube"
def folderSeparator : String := "/"

/-- `get_engine_exe`: trailing separators of the path are dropped. -/
def getEngineExe (path exeName folderSep : String) : String :=
  let kept := path.toList.reverse.dropWhile fun c => c == '/' || c == Char.ofNat 92
  String.ofList kept.reverse ++ folderSep ++ exeName

/-- `get_string`; a null character adds nothing. -/
def getString (ipar : List Int) (base length : Nat) : String :=
  String.ofList <| (List.range length).filterMap fun i =>
    let c := (ipar.getD (base + i) 0 % 256).toNat
    if c = 0 then none else some (Char.ofNat c)

/-- `build_engine_parameters`. -/
def buildEngineParameters (engineFile : String) (background : Bool)
    (channelName blockIndex : String) : List String :=
  ["-simulate"] ++ (if background then ["-bgsim"] else []) ++
    ["-channel", channelName, "-id", blockIndex, engineFile]

/-- `open_channel`: `false` behind an error. -/
def openChannel (channel : CommChannel) (listenHandle : Int) (listens : Bool) :
    CommChannel × Bool :=
  ({ channel with listenHandle := listenHandle }, decide (listenHandle ≠ -1) && listens)

/-- What a start meets: the variable `SMCUBEPATH`, whether the engine and its file can
be opened, the handle of the listening socket and whether it listens, the handle of the
child process, and the handle of the connection. -/
structure Startup where
  enginePath : Option String
  engineExists : Bool
  fileExists : Bool
  listenHandle : Int
  listens : Bool
  pid : Option Int
  handle : Option Int

/-- The label `init_error`. -/
def initError (data : BlockData) : BlockData :=
  { data with exists_ := false, input := dmInit, output := dmInit }

/-- The part of case 4 behind the registration, on the current entry. -/
def startEngine (blockIndex : Nat) (block : ScicosBlock) (startup : Startup) (data : BlockData) :
    BlockData :=
  let sblockIndex := intToString blockIndex
  let channelName := buildChannelName baseChannelName sblockIndex
  let background := decide (block.ipar.getD 1 0 = 2)
  let engineFile := getString block.ipar 3 (block.ipar.getD 2 0).toNat
  match startup.enginePath with
  | none => initError data
  | some enginePath =>
    let engineExe := getEngineExe enginePath executableName folderSeparator
    match buildFromScicosTypes block.insz block.nin with
    | none => initError data
    | some inTypes =>
      let data := { data with input := dmCreateElem inTypes (block.insz.take block.nin) }
      match buildFromScicosTypes block.outsz block.nout with
      | none => initError data
      | some outTypes =>
        let data := { data with output := dmCreateElem outTypes (block.outsz.take block.nout) }
        if (startup.engineExists && startup.fileExists) = false then initError data
        else
          -- What the block reads is what the channel brings in.
          let channel := buildChannel data.channel data.output.data.length data.input.data.length
            channelName
          let (channel, opened) := openChannel channel startup.listenHandle startup.listens
          if opened = false then initError { data with channel := channel }
          else
            let process := buildProcess data.process engineExe
              (buildEngineParameters engineFile background channelName sblockIndex)
            match startup.pid with
            | none => initError { data with channel := channel, process := process }
            | some pid =>
              let process := { process with handle := pid }
              match startup.handle with
              | none => initError { data with channel := channel, process := process }
              | some handle =>
                { data with
                  channel := { channel with handle := handle }
                  process := process
                  exists_ := true }

/-- What an update finds: the activating events, the bytes at the input ports, whether both
writes get through, and the engine's answers, `none` where the connection is broken. -/
structure Exchange where
  inevents : BitVec 32
  inptr : Nat → List UInt8
  countWritten : Bool
  dataWritten : Bool
  answer : Option (Nat → UInt8)
  evtout : Option (BitVec 32)

/-- A message on a connection: the events or the inputs. -/
inductive Message where
  | events (handle : Int) (inevents : BitVec 32)
  | inputs (handle : Int) (data : List UInt8)
deriving DecidableEq

/-- What an update does outside of the entries: the messages it sends, what it assigns to
the output ports, and the output events of the engine if it runs to its end. -/
structure Update where
  sent : List Message
  outputs : Option (List (List UInt8))
  completed : Option (BitVec 32)
deriving DecidableEq

/-- The messages of an update whose writes get through. -/
def messages (data : BlockData) (exchange : Exchange) : List Message :=
  .events data.channel.handle exchange.inevents ::
    if data.input.data = [] then [] else [.inputs data.channel.handle data.input.data]

/-- Case 1 on the current entry, up to `set_output_events`. -/
def talk (data : BlockData) (exchange : Exchange) : BlockData × Update :=
  let data := { data with input := assignInputData data.input exchange.inptr }
  let stopped := { data with exists_ := false }
  if exchange.countWritten = false then
    (stopped, { sent := [], outputs := none, completed := none })
  else if data.input.data ≠ [] ∧ exchange.dataWritten = false then
    (stopped, { sent := [.events data.channel.handle exchange.inevents], outputs := none,
                completed := none })
  else
    let sent := messages data exchange
    if data.output.data = [] then
      match exchange.evtout with
      | none => (stopped, { sent := sent, outputs := none, completed := none })
      | some evtout => (data, { sent := sent, outputs := none, completed := some evtout })
    else
      match exchange.answer with
      | none => (stopped, { sent := sent, outputs := none, completed := none })
      | some answer =>
        let output :=
          { data.output with data := (List.range data.output.data.length).map answer }
        let outputs := some (assignOutputData output)
        match exchange.evtout with
        | none => ({ stopped with output := output },
            { sent := sent, outputs := outputs, completed := none })
        | some evtout => ({ data with output := output },
            { sent := sent, outputs := outputs, completed := some evtout })

/-- `CHECK_OUTPUT_EVENT`; a block has at most 32 output events. -/
def checkOutputEvent (events : BitVec 32) (evt : Nat) : Bool := (events &&& (1#32 <<< evt)) != 0#32

/-- The output ports that the loop of case 3 activates. -/
def activated (events : BitVec 32) (nevout : Nat) : List Nat :=
  (List.range nevout).filter (checkOutputEvent events)

/-- A call with flag 1, or with flag 3 and the number of output events. -/
inductive Request where
  | update (exchange : Exchange)
  | events (nevout : Nat)

/-- What a call does outside of the entries; `failed` is an internal error. -/
inductive Reply where
  | failed
  | finished
  | updated (update : Update)
  | delivered (events : List Nat)
deriving DecidableEq

/-- A call of `smcube_block`; blocks have numbers. -/
abbrev Call := Action Nat (ScicosBlock × Startup) Request

/-- The file level variables, and the work area of every block. The five pointers lead
into one entry, the current one. -/
structure Globals where
  blocksData : Container BlockData
  current : Option Nat
  eraseBlocks : Bool
  work : Nat → Option Int

/-- `get_output_events`. -/
def getOutputEvents (blocks : Container BlockData) (blockIndex : Int) : Option (BitVec 32) :=
  (blocks.atPtr blockIndex).map fun place => (blocks.ptr place).outputEvents

/-- `set_output_events`. -/
def setOutputEvents (blocks : Container BlockData) (blockIndex : Int) (evtout : BitVec 32) :
    Option (Container BlockData) :=
  (blocks.atPtr blockIndex).map fun place =>
    blocks.put place { blocks.ptr place with outputEvents := evtout }

/-- Case 4. A position that was just pushed is in the array, so that
`assign_current_block` does not fail. -/
def initBlock (sim : Globals) (block : Nat) (parameters : ScicosBlock × Startup) :
    Globals × Reply :=
  let blocks := if sim.eraseBlocks then sim.blocksData.erase else sim.blocksData
  let blockIndex := blocks.items
  let blocks := blocks.pushBack initializeBlockData
  let sim :=
    { sim with
      blocksData := blocks
      eraseBlocks := false
      work := Function.update sim.work block (some (blockIndex : Int)) }
  match blocks.atPtr blockIndex with
  | none => (sim, .failed)
  | some place =>
    ({ sim with
        blocksData :=
          blocks.put place (startEngine blockIndex parameters.1 parameters.2 (blocks.ptr place))
        current := some place }, .finished)

/-- Case 1 for the block with an index in its work area. -/
def updateBlock (sim : Globals) (blockIndex : Int) (exchange : Exchange) : Globals × Reply :=
  match sim.blocksData.atPtr blockIndex with
  | none => (sim, .failed)
  | some place =>
    let data := sim.blocksData.ptr place
    if data.exists_ = false then
      ({ sim with current := some place },
        .updated { sent := [], outputs := none, completed := none })
    else
      let (data, update) := talk data exchange
      let blocks := sim.blocksData.put place data
      match update.completed with
      | none => ({ sim with blocksData := blocks, current := some place }, .updated update)
      | some evtout =>
        match setOutputEvents blocks blockIndex evtout with
        | none =>
          ({ sim with
              blocksData := blocks.put place { data with exists_ := false }
              current := some place }, .failed)
        | some blocks => ({ sim with blocksData := blocks, current := some place }, .updated update)

/-- Case 3 for the block with an index in its work area. -/
def eventsBlock (sim : Globals) (blockIndex : Int) (nevout : Nat) : Globals × Reply :=
  match getOutputEvents sim.blocksData blockIndex with
  | none => (sim, .failed)
  | some evtsout => (sim, .delivered (activated evtsout nevout))

/-- Case 5 for the block with an index in its work area. Closing the channel and ending
the process change no field that is kept here. -/
def endBlock (sim : Globals) (block : Nat) (blockIndex : Int) : Globals × Reply :=
  match sim.blocksData.atPtr blockIndex with
  | none => (sim, .failed)
  | some place =>
    ({ blocksData := sim.blocksData.put place
        { sim.blocksData.ptr place with input := dmInit, output := dmInit }
       current := some place
       eraseBlocks := true
       work := Function.update sim.work block none }, .finished)

/-- `smcube_block`. Without a work area only an initialization means anything. -/
def smcubeBlock (sim : Globals) : Call → Globals × Reply
  | .init block parameters => initBlock sim block parameters
  | .call block (.update exchange) =>
    match sim.work block with
    | none => (sim, .failed)
    | some blockIndex => updateBlock sim blockIndex exchange
  | .call block (.events nevout) =>
    match sim.work block with
    | none => (sim, .failed)
    | some blockIndex => eventsBlock sim blockIndex nevout
  | .ending block =>
    match sim.work block with
    | none => (sim, .failed)
    | some blockIndex => endBlock sim block blockIndex

/-- What a call leaves. -/
def step (sim : Globals) (call : Call) : Globals := (smcubeBlock sim call).1

/-- What a call answers. -/
def reply (sim : Globals) (call : Call) : Reply := (smcubeBlock sim call).2

/-- There are no entries before the first session. -/
def boot : Globals :=
  { blocksData := { ptr := fun _ => initializeBlockData, items := 0, allocated := 0 }
    current := none
    eraseBlocks := false
    work := fun _ => none }

end ScicosFlex.Smcube
