import ScicosFlex.LegacyUsb.Reassembly
import ScicosFlex.Library.Blocks
import ScicosFlex.Library.Rings

/-!
# The channels of the old USB link

`channels.c` keeps a queue of ten places for every channel. Each of its functions works on one
channel under its mutex; the section between lock and unlock is a function of its own here. An
access outside of an array is undefined, here `none`.

`Represents` says what a channel stands for: the messages in it, nine at most, the oldest one
first.
-/

namespace ScicosFlex.LegacyUsb.Channels

open Library.Blocks Library.CircularBuffer Library.Rings UsbThread Reassembly

/-- `QUEUE_SIZE` of `channels.c`. -/
def queueSize : Nat := 10

/-- `ScicosMessage`. -/
structure ScicosMessage where
  mess : List UInt8
  length : Nat

/-- `Channel` without its mutex and its condition. The indices never become negative. -/
structure Channel where
  queue : Block ScicosMessage
  first : Nat
  last : Nat

/-- An element of `channels` behind `init_channels_queue`: static memory, full of zeros. -/
def initChannel : Channel where
  queue := { allocated := queueSize, cell := fun _ => ⟨List.replicate maxMessageLen 0, 0⟩ }
  first := 0
  last := 0

/-- `insert_message(buf, len, channel)`: the channel, and whether it signals the condition. -/
def Channel.insertMessage (channel : Channel) (buf : List UInt8) (len : Nat) :
    Option (Channel × Bool) := do
  let len := if maxMessageLen < len then maxMessageLen else len
  let message ← channel.queue.read channel.last
  let bytes ← slice buf 0 len
  let mess ← memcpy message.mess 0 bytes
  let queue ← channel.queue.write channel.last ⟨mess, len⟩
  let last := (channel.last + 1) % queueSize
  let first := if channel.first = last then (channel.first + 1) % queueSize else channel.first
  some (⟨queue, first, last⟩, decide ((first + 1) % queueSize = last))

/-- The condition of the loop in `get_message`. -/
def Channel.empty (channel : Channel) : Bool := channel.first = channel.last

/-- `get_message(buf, len, channel, readlast)` behind its loop: what is copied to `buf`,
and the channel. -/
def Channel.getMessage (channel : Channel) (len : Nat) (readlast : Bool) :
    Option (List UInt8 × Channel) :=
  if readlast then do
    let last := if channel.last = 0 then channel.last + queueSize - 1 else channel.last - 1
    let message ← channel.queue.read last
    let buf ← slice message.mess 0 (min len message.length)
    some (buf, { channel with last := last })
  else do
    let message ← channel.queue.read channel.first
    let buf ← slice message.mess 0 (min len message.length)
    some (buf, { channel with first := (channel.first + 1) % queueSize })

/-- `empty_channel_queue(channel)`. -/
def Channel.emptyQueue (channel : Channel) : Channel := { channel with first := 0, last := 0 }

/-- A message has room for as many bytes as it may hold, and holds no more. -/
structure Stored (message : ScicosMessage) : Prop where
  room : message.mess.length = maxMessageLen
  fits : message.length ≤ maxMessageLen

/-- The indices of a channel lie inside its queue, and so do the messages. All cells are
spoken of, since a call may read one that was never written. -/
structure WellFormed (channel : Channel) : Prop where
  allocated : channel.queue.allocated = queueSize
  first : channel.first < queueSize
  last : channel.last < queueSize
  stored : ∀ index, Stored (channel.queue.cell index)

/-- The bytes of a message. -/
def ScicosMessage.content (message : ScicosMessage) : List UInt8 :=
  message.mess.take message.length

/-- The queue as a ring. -/
def ring (channel : Channel) (wellFormed : WellFormed channel) : RingBuffer ScicosMessage where
  size := queueSize
  cell := channel.queue.cell
  first := channel.first
  last := channel.last
  room := by decide
  firstInside := wellFormed.first
  lastInside := wellFormed.last

/-- The channel holds some messages: they are what its queue has from the first index to
the last one, around its end. -/
def Represents (channel : Channel) (box : List (List UInt8)) : Prop :=
  ∃ wellFormed : WellFormed channel,
    (ring channel wellFormed).contents.map ScicosMessage.content = box

/-- The messages that a queue has room for. -/
def roomFor : Nat := queueSize - 1

/-- Bytes copied to the start of a message. -/
theorem memcpy_start (array bytes : List UInt8) (room : bytes.length ≤ array.length) :
    memcpy array 0 bytes = some (bytes ++ array.drop bytes.length) := by
  rw [memcpy, if_pos (by omega), List.take_zero, List.nil_append, Nat.zero_add]

/-- A call copies as much of a message as it asks for and there is. -/
theorem slice_content (message : ScicosMessage) (len : Nat) (stored : Stored message) :
    slice message.mess 0 (min len message.length) = some (message.content.take len) := by
  have inside : 0 + min len message.length ≤ message.mess.length := by
    rw [stored.room]
    have fits := stored.fits
    omega
  rw [slice, if_pos inside, ScicosMessage.content, List.drop_zero, List.take_take]

/-- Behind `init_channels_queue` a channel holds nothing. -/
theorem init_represents : Represents initChannel [] := by
  have wellFormed : WellFormed initChannel :=
    ⟨rfl, by decide, by decide, fun _ => ⟨List.length_replicate, Nat.zero_le _⟩⟩
  refine ⟨wellFormed, ?_⟩
  rw [(empty_iff (ring initChannel wellFormed)).mp rfl, List.map_nil]

/-- The loop of `get_message` waits when there is no message. -/
theorem empty_represents (channel : Channel) (box : List (List UInt8))
    (represents : Represents channel box) : channel.empty = true ↔ box = [] := by
  obtain ⟨wellFormed, rfl⟩ := represents
  rw [List.map_eq_nil_iff, ← empty_iff (ring channel wellFormed), Channel.empty,
    decide_eq_true_iff]
  rfl

/-- As much of a message as `MAX_MESSAGE_LEN` allows. -/
def kept (buf : List UInt8) : List UInt8 := buf.take maxMessageLen

/-- The message that comes to the place behind the newest one. -/
def Channel.comes (channel : Channel) (buf : List UInt8) : ScicosMessage where
  mess := kept buf ++ (channel.queue.cell channel.last).mess.drop (kept buf).length
  length := (kept buf).length

/-- A channel behind the insertion of a message. -/
def Channel.inserted (channel : Channel) (buf : List UInt8) : Channel where
  queue :=
    { channel.queue with
      cell := Function.update channel.queue.cell channel.last (channel.comes buf) }
  first :=
    if channel.first = (channel.last + 1) % queueSize then (channel.first + 1) % queueSize
    else channel.first
  last := (channel.last + 1) % queueSize

/-- What is kept has room. -/
theorem kept_short (buf : List UInt8) : (kept buf).length ≤ maxMessageLen :=
  List.length_take_le _ _

/-- A message of the link has room as a whole. -/
theorem kept_eq (buf : List UInt8) (short : buf.length ≤ maxMessageLen) : kept buf = buf :=
  List.take_of_length_le short

/-- The message is stored with its bytes. -/
theorem comes_stored (channel : Channel) (buf : List UInt8) (wellFormed : WellFormed channel) :
    Stored (channel.comes buf) ∧ (channel.comes buf).content = kept buf := by
  have short := kept_short buf
  constructor
  · constructor
    · rw [Channel.comes, List.length_append, List.length_drop,
        (wellFormed.stored channel.last).room, Nat.add_sub_cancel' short]
    · exact short
  · exact List.take_left

/-- An insertion stays inside the queue. -/
theorem insertMessage_eq (channel : Channel) (buf : List UInt8)
    (wellFormed : WellFormed channel) : channel.insertMessage buf buf.length =
      some (channel.inserted buf, decide (((channel.inserted buf).first + 1) % queueSize =
        (channel.inserted buf).last)) := by
  have inside : channel.last < channel.queue.allocated := by
    rw [wellFormed.allocated]
    exact wellFormed.last
  have fits : (kept buf).length ≤ (channel.queue.cell channel.last).mess.length := by
    rw [(wellFormed.stored channel.last).room]
    exact kept_short buf
  have count : (if maxMessageLen < buf.length then maxMessageLen else buf.length) =
      (kept buf).length := by
    rw [kept, List.length_take]
    split <;> omega
  have whole : slice buf 0 (kept buf).length = some (kept buf) := by
    have inside : 0 + (kept buf).length ≤ buf.length := by
      rw [kept, List.length_take]
      omega
    rw [slice, if_pos inside, List.drop_zero, kept, List.length_take, ← List.take_take,
      List.take_length]
  rw [Channel.insertMessage, Block.read_inside _ _ inside]
  simp only [Option.bind_eq_bind, Option.bind_some, count, whole, memcpy_start _ _ fits,
    Block.write_inside _ _ _ inside]
  rfl

/-- It keeps the indices and the messages inside. -/
theorem inserted_wellFormed (channel : Channel) (buf : List UInt8)
    (wellFormed : WellFormed channel) : WellFormed (channel.inserted buf) := by
  refine ⟨wellFormed.allocated,
    ((ring channel wellFormed).insert (channel.comes buf)).firstInside,
    ((ring channel wellFormed).insert (channel.comes buf)).lastInside, ?_⟩
  intro index
  by_cases here : index = channel.last
  · subst here
    simpa only [Channel.inserted, Function.update_self] using
      (comes_stored channel buf wellFormed).1
  · simpa only [Channel.inserted, Function.update_of_ne here] using wellFormed.stored index

/-- A message is inserted behind the others, and the oldest one is dropped when there are nine.
The condition is signalled if there was none. -/
theorem insert_represents (channel : Channel) (box : List (List UInt8)) (buf : List UInt8)
    (represents : Represents channel box) :
    channel.insertMessage buf buf.length = some (channel.inserted buf, decide (box = [])) ∧
      Represents (channel.inserted buf) (push roomFor box [kept buf]) := by
  obtain ⟨wellFormed, rfl⟩ := represents
  have nextFormed := inserted_wellFormed channel buf wellFormed
  have contents : (ring (channel.inserted buf) nextFormed).contents =
      push roomFor (ring channel wellFormed).contents [channel.comes buf] :=
    contents_insert (ring channel wellFormed) (channel.comes buf)
  have alone : ((channel.inserted buf).first + 1) % queueSize = (channel.inserted buf).last ↔
      (ring channel wellFormed).contents.map ScicosMessage.content = [] := by
    have one := alone_iff (ring (channel.inserted buf) nextFormed)
    have nine : roomFor = 9 := rfl
    rw [contents, push_length, List.length_singleton, nine] at one
    rw [List.map_eq_nil_iff, ← List.length_eq_zero_iff]
    apply one.trans
    omega
  constructor
  · rw [insertMessage_eq channel buf wellFormed, decide_eq_decide.mpr alone]
  · refine ⟨nextFormed, ?_⟩
    rw [contents, push_map, List.map_singleton, (comes_stored channel buf wellFormed).2]

/-- The index of the newest message. -/
def Channel.newest (channel : Channel) : Nat :=
  if channel.last = 0 then channel.last + queueSize - 1 else channel.last - 1

/-- The message that a call takes. -/
def Channel.front (channel : Channel) (readlast : Bool) : ScicosMessage :=
  channel.queue.cell (if readlast then channel.newest else channel.first)

/-- A channel behind a call that takes a message. -/
def Channel.taken (channel : Channel) (readlast : Bool) : Channel :=
  if readlast then { channel with last := channel.newest }
  else { channel with first := (channel.first + 1) % queueSize }

/-- A call stays inside the queue and inside the message it takes. -/
theorem getMessage_eq (channel : Channel) (len : Nat) (readlast : Bool)
    (wellFormed : WellFormed channel) : channel.getMessage len readlast =
      some ((channel.front readlast).content.take len, channel.taken readlast) := by
  cases readlast with
  | true =>
    have inside : channel.newest < channel.queue.allocated := by
      rw [wellFormed.allocated]
      exact newest_lt (ring channel wellFormed)
    have read := Block.read_inside channel.queue channel.newest inside
    rw [Channel.newest] at read
    simp only [Channel.getMessage, if_true, Option.bind_eq_bind, read, Option.bind_some,
      slice_content _ _ (wellFormed.stored _)]
    rfl
  | false =>
    have inside : channel.first < channel.queue.allocated := by
      rw [wellFormed.allocated]
      exact wellFormed.first
    simp only [Channel.getMessage, Bool.false_eq_true, if_false, Option.bind_eq_bind,
      Block.read_inside _ _ inside, Option.bind_some, slice_content _ _ (wellFormed.stored _)]
    rfl

/-- Where there is a message, a call takes the newest or the oldest one, and copies as much of
it as it asks for. -/
theorem get_represents (channel : Channel) (box : List (List UInt8)) (len : Nat)
    (readlast : Bool) (represents : Represents channel box) (some : channel.empty = false) :
    channel.getMessage len readlast =
        Option.some ((channel.front readlast).content.take len, channel.taken readlast) ∧
      ∃ rest, Represents (channel.taken readlast) rest ∧
        box = if readlast then rest ++ [(channel.front readlast).content]
          else (channel.front readlast).content :: rest := by
  obtain ⟨wellFormed, rfl⟩ := represents
  have apart : (ring channel wellFormed).first ≠ (ring channel wellFormed).last := by
    intro same
    have empty : channel.empty = true := decide_eq_true same
    rw [some] at empty
    cases empty
  refine ⟨getMessage_eq channel len readlast wellFormed, ?_⟩
  cases readlast with
  | true =>
    have nextFormed : WellFormed (channel.taken true) :=
      ⟨wellFormed.allocated, wellFormed.first, newest_lt (ring channel wellFormed),
        wellFormed.stored⟩
    refine ⟨_, ⟨nextFormed, rfl⟩, ?_⟩
    rw [contents_takeLast (ring channel wellFormed) apart, List.map_append, List.map_singleton]
    rfl
  | false =>
    have nextFormed : WellFormed (channel.taken false) :=
      ⟨wellFormed.allocated, (ring channel wellFormed).takeFirst.firstInside, wellFormed.last,
        wellFormed.stored⟩
    refine ⟨_, ⟨nextFormed, rfl⟩, ?_⟩
    rw [contents_takeFirst (ring channel wellFormed) apart, List.map_cons]
    rfl

/-- A channel that is emptied holds nothing. -/
theorem emptyQueue_represents (channel : Channel) (box : List (List UInt8))
    (represents : Represents channel box) : Represents channel.emptyQueue [] := by
  obtain ⟨wellFormed, rfl⟩ := represents
  have cleared : WellFormed channel.emptyQueue :=
    ⟨wellFormed.allocated, show 0 < queueSize by decide, show 0 < queueSize by decide,
      wellFormed.stored⟩
  refine ⟨cleared, ?_⟩
  have contents : (ring channel.emptyQueue cleared).contents = [] :=
    contents_clear (ring channel wellFormed)
  rw [contents, List.map_nil]

end ScicosFlex.LegacyUsb.Channels
