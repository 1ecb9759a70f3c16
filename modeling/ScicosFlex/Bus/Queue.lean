import ScicosFlex.Library.Blocks
import ScicosFlex.Library.CircularBuffer
import ScicosFlex.Usb.Packet

/-!
# The queues of flex_bus

`flex_bus.c` keeps a circular queue of messages for every channel. `queueInit`
allocates the channels and their queues, `queueInsert` and `queueGet` are the
functions of the same names. Each works on one channel under its mutex; the section
between lock and unlock is a function of its own here. An index outside the arrays
of `queue_init` makes the result `none`.

Channel number and message length are 16-bit words as on the wire. The indices
`first` and `last` never leave the range of their `int32_t`, nor become negative, and
are natural numbers.
-/

namespace ScicosFlex.Bus

open Library.Blocks Library.CircularBuffer Usb

/-- `FLEX_BUS_MESSAGE_SIZE`. -/
def messageSize : BitVec 16 := 32

/-- `FLEX_BUS_DAFAULT_CHANNEL_NUMBER`. -/
def dafaultChannelNumber : Nat := 65535

/-- `FLEX_BUS_DAFAULT_QUEUES_SIZE`. -/
def dafaultQueuesSize : Nat := 10

/-- `struct flex_bus_message_t`. -/
structure FlexBusMessage where
  length : BitVec 16
  data : Fin 32 → Byte

/-- `struct flex_bus_packet_t`. -/
structure FlexBusPacket where
  channel : BitVec 16
  payload : FlexBusMessage

/-- `struct flex_bus_channel_t` without its mutex and its condition variable. -/
structure FlexBusChannel where
  size : Nat
  queue : Block FlexBusMessage
  first : Nat
  last : Nat

/-- `queue_init` with successful allocation; `garbage` is what `malloc` left in the messages. -/
def queueInit (garbage : Nat → Nat → FlexBusMessage) (nChannels queuesSize : Nat) :
    Block FlexBusChannel :=
  let nChannels := if nChannels = 0 then dafaultChannelNumber else nChannels
  let queuesSize := if queuesSize = 0 then dafaultQueuesSize else queuesSize
  { allocated := nChannels
    cell := fun index =>
      { size := queuesSize
        queue := { allocated := queuesSize, cell := garbage index }
        first := 0
        last := 0 } }

/-- The length a message is cut to. -/
def truncated (len : BitVec 16) : BitVec 16 := if messageSize < len then messageSize else len

/-- A message after the copy of `len` bytes into it. -/
def FlexBusMessage.store (message : FlexBusMessage) (buf : Fin 32 → Byte) (len : BitVec 16) :
    FlexBusMessage :=
  { length := len
    data := fun position =>
      if position.val < len.toNat then buf position else message.data position }

/-- The critical section of `queue_insert`: the channel afterwards, and whether it
signals the condition. -/
def insertSection (channel : FlexBusChannel) (buf : Fin 32 → Byte) (len : BitVec 16) :
    Option (FlexBusChannel × Bool) := do
  let message ← channel.queue.read channel.last
  let queue ← channel.queue.write channel.last (message.store buf len)
  let last := (channel.last + 1) % channel.size
  let first := if channel.first = last then (channel.first + 1) % channel.size else channel.first
  some ({ channel with queue := queue, first := first, last := last },
    decide ((first + 1) % channel.size = last))

/-- `queue_insert(buf, len, ch)`: what it returns and the channels afterwards. -/
def queueInsert (channels : Block FlexBusChannel) (buf : Fin 32 → Byte) (len ch : BitVec 16) :
    Option (Int × Block FlexBusChannel) :=
  let len := truncated len
  if len = 0 then some (-1, channels)
  else do
    let channel ← channels.read ch.toNat
    let (channel, _) ← insertSection channel buf len
    let channels ← channels.write ch.toNat channel
    some (0, channels)

/-- The bytes of a message that its length covers. -/
def FlexBusMessage.content (message : FlexBusMessage) : List Byte :=
  (List.ofFn message.data).take message.length.toNat

/-- The bytes that `queue_get` copies for a request of `len` bytes. -/
def FlexBusMessage.copied (message : FlexBusMessage) (len : BitVec 16) : List Byte :=
  let retv := if len < message.length then len else message.length
  (List.ofFn message.data).take retv.toNat

/-- The part of `queue_get` behind its loop: the bytes copied and the channel afterwards. -/
def takeSection (channel : FlexBusChannel) (len : BitVec 16) (lifo : Bool) :
    Option (List Byte × FlexBusChannel) :=
  if lifo then do
    let last := if channel.last = 0 then channel.last + channel.size - 1 else channel.last - 1
    let msg ← channel.queue.read last
    some (msg.copied len, { channel with last := last })
  else do
    let msg ← channel.queue.read channel.first
    some (msg.copied len, { channel with first := (channel.first + 1) % channel.size })

/-- The condition of the loop in `queue_get`. -/
def FlexBusChannel.empty (channel : FlexBusChannel) : Bool := channel.first = channel.last

/-- How the critical section of `queue_get` ends: in `pthread_cond_wait`, or with a message. -/
inductive Outcome where
  | waits
  | returns (buf : List Byte)

/-- `queue_get(buf, len, ch, lifo)` up to its end or its first wait. -/
def queueGet (channels : Block FlexBusChannel) (len ch : BitVec 16) (lifo : Bool) :
    Option (Outcome × Block FlexBusChannel) := do
  let channel ← channels.read ch.toNat
  if channel.empty then some (.waits, channels)
  else
    let (buf, channel) ← takeSection channel len lifo
    let channels ← channels.write ch.toNat channel
    some (.returns buf, channels)

/-- The indices of a channel lie inside its queue, which has room for a message. One
place stays free, by which a full queue differs from an empty one. -/
structure WellFormed (channel : FlexBusChannel) : Prop where
  room : 2 ≤ channel.size
  allocated : channel.queue.allocated = channel.size
  first : channel.first < channel.size
  last : channel.last < channel.size

/-- The channels of `queue_init(0, 0)` are well formed. -/
theorem queueInit_wellFormed (garbage : Nat → Nat → FlexBusMessage) (index : Nat) :
    WellFormed ((queueInit garbage 0 0).cell index) :=
  ⟨show 2 ≤ 10 by decide, rfl, show 0 < 10 by decide, show 0 < 10 by decide⟩

/-- The channel behind a successful insertion. -/
def inserted (channel : FlexBusChannel) (buf : Fin 32 → Byte) (len : BitVec 16) :
    FlexBusChannel :=
  let last := (channel.last + 1) % channel.size
  { channel with
    queue := { channel.queue with
      cell := Function.update channel.queue.cell channel.last
        ((channel.queue.cell channel.last).store buf len) }
    first := if channel.first = last then (channel.first + 1) % channel.size else channel.first
    last := last }

/-- The channel behind a successful extraction. -/
def taken (channel : FlexBusChannel) (lifo : Bool) : FlexBusChannel :=
  if lifo then
    { channel with
      last := if channel.last = 0 then channel.last + channel.size - 1 else channel.last - 1 }
  else { channel with first := (channel.first + 1) % channel.size }

/-- The message an extraction looks at. -/
def front (channel : FlexBusChannel) (lifo : Bool) : FlexBusMessage :=
  channel.queue.cell (if lifo then (taken channel true).last else channel.first)

/-- An insertion stays inside the queue of a well-formed channel. -/
theorem insertSection_eq (channel : FlexBusChannel) (buf : Fin 32 → Byte) (len : BitVec 16)
    (wellFormed : WellFormed channel) : insertSection channel buf len =
      some (inserted channel buf len, decide (((inserted channel buf len).first + 1) %
        channel.size = (inserted channel buf len).last)) := by
  have inside : channel.last < channel.queue.allocated := by
    rw [wellFormed.allocated]
    exact wellFormed.last
  rw [insertSection, Block.read_inside _ _ inside]
  simp only [Option.bind_eq_bind, Option.bind_some, Block.write_inside _ _ _ inside]
  rfl

/-- So does an extraction. -/
theorem takeSection_eq (channel : FlexBusChannel) (len : BitVec 16) (lifo : Bool)
    (wellFormed : WellFormed channel) : takeSection channel len lifo =
      some ((front channel lifo).copied len, taken channel lifo) := by
  obtain ⟨room, allocated, first, last⟩ := wellFormed
  cases lifo with
  | true =>
    have inside : (if channel.last = 0 then channel.last + channel.size - 1
        else channel.last - 1) < channel.queue.allocated := by
      split <;> omega
    simp only [takeSection, if_true, Block.read_inside _ _ inside, Option.bind_eq_bind,
      Option.bind_some, taken, front]
  | false =>
    have inside : channel.first < channel.queue.allocated := by omega
    simp only [takeSection, Bool.false_eq_true, if_false, Block.read_inside _ _ inside,
      Option.bind_eq_bind, Option.bind_some, taken, front]

/-- An insertion keeps the indices inside. -/
theorem inserted_wellFormed (channel : FlexBusChannel) (buf : Fin 32 → Byte) (len : BitVec 16)
    (wellFormed : WellFormed channel) : WellFormed (inserted channel buf len) := by
  obtain ⟨room, allocated, first, last⟩ := wellFormed
  refine ⟨room, allocated, ?_, Nat.mod_lt _ (by omega)⟩
  simp only [inserted]
  split
  · exact Nat.mod_lt _ (by omega)
  · exact first

/-- An extraction keeps the indices inside. -/
theorem taken_wellFormed (channel : FlexBusChannel) (lifo : Bool)
    (wellFormed : WellFormed channel) : WellFormed (taken channel lifo) := by
  obtain ⟨room, allocated, first, last⟩ := wellFormed
  cases lifo with
  | true =>
    refine ⟨room, allocated, first, ?_⟩
    simp only [taken, if_true]
    split <;> omega
  | false => exact ⟨room, allocated, Nat.mod_lt _ (by omega), last⟩

/-- An index moves on by one and restarts at the end. -/
theorem next_index (size index : Nat) (inside : index < size) :
    (index + 1) % size = if index + 1 < size then index + 1 else 0 := by
  rw [wrap_mod size (index + 1) (by omega)]
  split
  · rfl
  · omega

/-- A channel is empty when its indices meet. -/
theorem empty_iff (channel : FlexBusChannel) :
    channel.empty = true ↔ channel.first = channel.last := decide_eq_true_iff

/-- A message that comes to an empty queue is alone in it. -/
theorem inserted_alone (channel : FlexBusChannel) (buf : Fin 32 → Byte) (len : BitVec 16)
    (wellFormed : WellFormed channel) (empty : channel.empty = true) :
    ((inserted channel buf len).first + 1) % channel.size = (inserted channel buf len).last := by
  obtain ⟨room, -, first, last⟩ := wellFormed
  rw [empty_iff] at empty
  have moved : channel.first ≠ (channel.last + 1) % channel.size := by
    rw [next_index _ _ last]
    split <;> omega
  simp only [inserted, if_neg moved]
  rw [empty]

/-- An extraction empties the queue exactly when its message was alone. -/
theorem taken_empty_iff (channel : FlexBusChannel) (lifo : Bool)
    (wellFormed : WellFormed channel) : (taken channel lifo).empty = true ↔
      (channel.first + 1) % channel.size = channel.last := by
  obtain ⟨room, -, first, last⟩ := wellFormed
  rw [empty_iff]
  cases lifo with
  | true =>
    simp only [taken, if_true, next_index _ _ first]
    split <;> split <;> omega
  | false => simp only [taken, Bool.false_eq_true, if_false]

end ScicosFlex.Bus
