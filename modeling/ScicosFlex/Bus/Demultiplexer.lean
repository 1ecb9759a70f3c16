import ScicosFlex.Bus.Queue
import ScicosFlex.Library.Runs

/-!
# Packets to channels

`usb_reader_thread` inserts every packet into the queue of the channel it names, and
`flex_bus_read` takes messages from there. `Mailboxes` says what this is for: a
bounded queue for every channel number, of which a packet concerns one.

`queue_init` allocates the channels 0 to 65534, and a packet can name the channel
65535. The code does what the mailboxes do, inside its arrays, if and only if no
message is sent to that channel and no read names it (`demultiplexes_iff`).
-/

namespace ScicosFlex.Bus.Demultiplexer

open Library.Blocks Library.CircularBuffer Library.Runs Usb

/-- `sizeof(struct flex_bus_packet_t)`. -/
def packetSize : Int := 36

/-- One turn of the loop in `usb_reader_thread`: `flex_usb_read` returns `retv`, with
`pkt` in the buffer. -/
def usbReaderTurn (channels : Block FlexBusChannel) (retv : Int) (pkt : FlexBusPacket) :
    Option (Block FlexBusChannel) :=
  if retv ≠ packetSize then some channels
  else (queueInsert channels pkt.payload.data pkt.payload.length pkt.channel).map Prod.snd

/-- How `flex_bus_read` ends: with an error, waiting for a message, or with the bytes
of one. -/
inductive ReadEnd where
  | failed (retv : Int)
  | waits
  | returns (buf : List Byte)

/-- `flex_bus_read(buf, len, ch)` up to its end or its first wait. -/
def flexBusRead (channels : Block FlexBusChannel) (len ch : BitVec 16) :
    Option (ReadEnd × Block FlexBusChannel) :=
  if len = 0 then some (.failed (-1), channels)
  else do
    let (outcome, channels) ← queueGet channels (truncated len) ch false
    match outcome with
    | .waits => some (.waits, channels)
    | .returns buf => some (.returns buf, channels)

/-- What happens on the bus: `flex_usb_read` returns to the reader thread, or somebody
reads from a channel. A read that waits happens again later. -/
inductive Action where
  | receive (retv : Int) (pkt : FlexBusPacket)
  | read (len ch : BitVec 16)

/-- The channels after an action. -/
def perform (channels : Block FlexBusChannel) : Action → Option (Block FlexBusChannel)
  | .receive retv pkt => usbReaderTurn channels retv pkt
  | .read len ch => (flexBusRead channels len ch).map Prod.snd

/-- One action; behind an undefined access everything is undefined. -/
def step (channels : Option (Block FlexBusChannel)) (action : Action) :
    Option (Block FlexBusChannel) := channels.bind fun defined => perform defined action

/-- Behind `queue_init(0, 0)`. -/
def start (garbage : Nat → Nat → FlexBusMessage) : Option (Block FlexBusChannel) :=
  some (queueInit garbage 0 0)

/-- A queue of messages for every channel number. -/
abbrev Mailboxes := BitVec 16 → List (List Byte)

/-- How many messages a mailbox holds at most. -/
def roomFor : Nat := dafaultQueuesSize - 1

/-- The bytes of a packet that make up its message. -/
def message (pkt : FlexBusPacket) : List Byte :=
  (List.ofFn pkt.payload.data).take pkt.payload.length.toNat

/-- A whole packet with a message goes to the mailbox it names, and a read takes the
oldest message from its mailbox. -/
def Mailboxes.step (mailboxes : Mailboxes) : Action → Mailboxes
  | .receive retv pkt =>
    if retv = packetSize ∧ pkt.payload.length ≠ 0 then
      Function.update mailboxes pkt.channel
        (push roomFor (mailboxes pkt.channel) [message pkt])
    else mailboxes
  | .read len ch =>
    if len ≠ 0 then Function.update mailboxes ch (mailboxes ch).tail else mailboxes

/-- The channel an action may change. -/
def concerned : Action → Option (BitVec 16)
  | .receive retv pkt =>
    if retv = packetSize ∧ pkt.payload.length ≠ 0 then some pkt.channel else none
  | .read len ch => if len ≠ 0 then some ch else none

/-- How many messages a channel holds. -/
def held (channel : FlexBusChannel) : Nat :=
  (channel.last + channel.size - channel.first) % channel.size

/-- The messages in a channel, the oldest first. -/
def pending (channel : FlexBusChannel) : List (List Byte) :=
  (window channel.size channel.queue.cell channel.first (held channel)).map FlexBusMessage.content

/-- The places of the queue that hold them. -/
def messages (channel : FlexBusChannel) : List FlexBusMessage :=
  window channel.size channel.queue.cell channel.first (held channel)

/-- Channels that represent mailboxes: as many as the module allocates, each with its
indices inside its queue, which holds the messages of the mailbox. -/
structure Represents (channels : Block FlexBusChannel) (mailboxes : Mailboxes) : Prop where
  allocated : channels.allocated = dafaultChannelNumber
  wellFormed : ∀ index, index < dafaultChannelNumber → WellFormed (channels.cell index) ∧
    (channels.cell index).size = dafaultQueuesSize
  content : ∀ ch : BitVec 16, ch.toNat < dafaultChannelNumber →
    pending (channels.cell ch.toNat) = mailboxes ch

/-- What a read hands out of its mailbox. -/
def answer (mailboxes : Mailboxes) (len ch : BitVec 16) : ReadEnd :=
  if len = 0 then .failed (-1)
  else
    match mailboxes ch with
    | [] => .waits
    | oldest :: _ => .returns (oldest.take (truncated len).toNat)

/-- An action uses no index outside the arrays, changes no channel but the one it
concerns, and a read hands out what its mailbox holds. -/
def Demultiplexes (both : Option (Block FlexBusChannel) × Mailboxes) (action : Action) : Prop :=
  ∃ channels next, both.1 = some channels ∧ perform channels action = some next ∧
    (∀ index, concerned action ≠ some index → next.cell index.toNat = channels.cell index.toNat) ∧
    ∀ len ch, action = .read len ch →
      (flexBusRead channels len ch).map Prod.fst = some (answer both.2 len ch)

/-- No message goes to the channel behind the last one, nor does a read name it. -/
def Allocated (action : Action) : Prop := ∀ ch, concerned action = some ch → ch ≠ 65535

/-- The distance of the indices, without the remainder. -/
theorem held_eq (channel : FlexBusChannel) (wellFormed : WellFormed channel) : held channel =
    if channel.first ≤ channel.last then channel.last - channel.first
    else channel.last + channel.size - channel.first := by
  obtain ⟨room, -, first, last⟩ := wellFormed
  rw [held, wrap_mod _ _ (by omega)]
  split <;> split <;> omega

/-- The last index lies behind the messages held. -/
theorem last_eq (channel : FlexBusChannel) (wellFormed : WellFormed channel) :
    (channel.first + held channel) % channel.size = channel.last := by
  have distance := held_eq channel wellFormed
  obtain ⟨room, -, first, last⟩ := wellFormed
  rw [wrap_mod _ _ (by split at distance <;> omega)]
  split <;> split at distance <;> omega

/-- An empty channel holds nothing. -/
theorem held_eq_zero (channel : FlexBusChannel) (wellFormed : WellFormed channel) :
    held channel = 0 ↔ channel.empty = true := by
  have distance := held_eq channel wellFormed
  obtain ⟨room, -, first, last⟩ := wellFormed
  rw [empty_iff]
  split at distance <;> omega

/-- A channel never holds as many messages as its queue has places. -/
theorem held_lt (channel : FlexBusChannel) (wellFormed : WellFormed channel) :
    held channel < channel.size := Nat.mod_lt _ (by have := wellFormed.room; omega)

/-- There are as many messages as the channel holds. -/
@[simp] theorem pending_length (channel : FlexBusChannel) :
    (pending channel).length = held channel := by
  simp [pending]

/-- A stored message has the bytes of the packet. -/
theorem content_store (message : FlexBusMessage) (buf : Fin 32 → Byte) (len : BitVec 16) :
    (message.store buf (truncated len)).content = (List.ofFn buf).take len.toNat := by
  have cut : (truncated len).toNat = min 32 len.toNat := by
    by_cases long : messageSize < len
    · have above : 32 < len.toNat := long
      rw [truncated, if_pos long]
      exact (Nat.min_eq_left (Nat.le_of_lt above)).symm
    · have below : ¬ 32 < len.toNat := long
      rw [truncated, if_neg long]
      exact (Nat.min_eq_right (Nat.le_of_not_lt below)).symm
  apply List.ext_getElem
  · simp only [FlexBusMessage.content, FlexBusMessage.store, List.length_take,
      List.length_ofFn, cut]
    omega
  · intro position inside _
    have covered : position < (truncated len).toNat := by
      simp only [FlexBusMessage.content, FlexBusMessage.store, List.length_take] at inside
      omega
    simp only [FlexBusMessage.content, FlexBusMessage.store, List.getElem_take,
      List.getElem_ofFn, if_pos covered]

/-- A request gets the first bytes of the message. -/
theorem copied_eq (message : FlexBusMessage) (len : BitVec 16) :
    message.copied len = message.content.take len.toNat := by
  rw [FlexBusMessage.copied, FlexBusMessage.content, List.take_take]
  congr 1
  split
  · next short => exact (Nat.min_eq_left (Nat.le_of_lt short)).symm
  · next long => exact (Nat.min_eq_right (Nat.le_of_not_lt long)).symm

/-- The places a channel reads, with the new message behind them. -/
theorem window_inserted (channel : FlexBusChannel) (buf : Fin 32 → Byte) (len : BitVec 16)
    (wellFormed : WellFormed channel) :
    window channel.size (inserted channel buf len).queue.cell channel.first (held channel + 1) =
      window channel.size channel.queue.cell channel.first (held channel) ++
        [(channel.queue.cell channel.last).store buf len] := by
  have few := held_lt channel wellFormed
  rw [window_add]
  congr 1
  · apply window_congr
    intro offset inside
    apply Function.update_of_ne
    rw [← last_eq channel wellFormed]
    exact mod_distinct _ _ _ (by omega) (by omega)
  · simp [window, last_eq channel wellFormed, inserted]

/-- A full channel loses its oldest message, any other one holds one more. Both cases
are one formula, in which the subtraction of natural numbers is zero unless the channel
is full. -/
theorem inserted_window (channel : FlexBusChannel) (buf : Fin 32 → Byte) (len : BitVec 16)
    (wellFormed : WellFormed channel) :
    (inserted channel buf len).first =
        (channel.first + (held channel + 1 - (channel.size - 1))) % channel.size ∧
      held (inserted channel buf len) =
        held channel + 1 - (held channel + 1 - (channel.size - 1)) := by
  have later := held_eq _ (inserted_wellFormed channel buf len wellFormed)
  have distance := held_eq channel wellFormed
  obtain ⟨room, -, first, last⟩ := wellFormed
  have moved := next_index _ _ last
  have size : (inserted channel buf len).size = channel.size := rfl
  have behind : (inserted channel buf len).last = (channel.last + 1) % channel.size := rfl
  by_cases full : channel.first = (channel.last + 1) % channel.size
  · have dropped : (inserted channel buf len).first = (channel.first + 1) % channel.size :=
      if_pos full
    have one : held channel + 1 - (channel.size - 1) = 1 := by
      split at distance <;> split at moved <;> omega
    have next := next_index _ _ first
    rw [size, behind, dropped] at later
    rw [one, dropped, later]
    refine ⟨rfl, ?_⟩
    split at distance <;> split at moved <;> split at next <;> split <;> omega
  · have kept : (inserted channel buf len).first = channel.first := if_neg full
    have none : held channel + 1 - (channel.size - 1) = 0 := by
      split at distance <;> split at moved <;> omega
    rw [size, behind, kept] at later
    rw [none, kept, later]
    refine ⟨(Nat.mod_eq_of_lt first).symm, ?_⟩
    split at distance <;> split at moved <;> split <;> omega

/-- An insertion appends the message and drops the oldest one if there is no room. -/
theorem messages_inserted (channel : FlexBusChannel) (buf : Fin 32 → Byte) (len : BitVec 16)
    (wellFormed : WellFormed channel) : messages (inserted channel buf len) =
      push (channel.size - 1) (messages channel)
        [(channel.queue.cell channel.last).store buf len] := by
  have shown := window_inserted channel buf len wellFormed
  obtain ⟨first, count⟩ := inserted_window channel buf len wellFormed
  rw [push, messages, messages, ← shown, window_length, window_drop _ _ _ _ _ (Nat.sub_le _ _),
    first, count]
  rfl

/-- So does the list of their bytes. -/
theorem pending_inserted (channel : FlexBusChannel) (buf : Fin 32 → Byte) (len : BitVec 16)
    (wellFormed : WellFormed channel) : pending (inserted channel buf (truncated len)) =
      push (channel.size - 1) (pending channel) [(List.ofFn buf).take len.toNat] := by
  have bytes : ∀ channel : FlexBusChannel,
      pending channel = (messages channel).map FlexBusMessage.content := fun _ => rfl
  rw [bytes, bytes, messages_inserted channel buf (truncated len) wellFormed, push_map,
    List.map_singleton, content_store]

/-- A channel that is not empty holds a message. -/
theorem held_pos (channel : FlexBusChannel) (wellFormed : WellFormed channel)
    (full : channel.empty = false) : 0 < held channel := by
  apply Nat.pos_of_ne_zero
  intro none
  rw [(held_eq_zero channel wellFormed).mp none] at full
  cases full

/-- An extraction leaves one message less. -/
theorem held_taken (channel : FlexBusChannel) (lifo : Bool) (wellFormed : WellFormed channel)
    (full : channel.empty = false) : held channel = held (taken channel lifo) + 1 := by
  have some := held_pos channel wellFormed full
  have later := held_eq _ (taken_wellFormed channel lifo wellFormed)
  have distance := held_eq channel wellFormed
  have size : (taken channel lifo).size = channel.size := by cases lifo <;> rfl
  obtain ⟨room, -, first, last⟩ := wellFormed
  cases lifo with
  | true =>
    have moved : (taken channel true).last =
        if channel.last = 0 then channel.last + channel.size - 1 else channel.last - 1 := rfl
    have kept : (taken channel true).first = channel.first := rfl
    rw [size, moved, kept] at later
    rw [later]
    split at distance <;> split <;> split <;> omega
  | false =>
    have moved : (taken channel false).first = (channel.first + 1) % channel.size := rfl
    have kept : (taken channel false).last = channel.last := rfl
    have next := next_index _ _ first
    rw [size, moved, kept] at later
    rw [later]
    split at distance <;> split at next <;> split <;> omega

/-- The oldest message is the one a read looks at. -/
theorem messages_taken (channel : FlexBusChannel) (wellFormed : WellFormed channel)
    (full : channel.empty = false) :
    messages channel = front channel false :: messages (taken channel false) := by
  rw [messages, messages, held_taken channel false wellFormed full, Nat.add_comm, window_add]
  simp [window, Nat.mod_eq_of_lt wellFormed.first, front, taken]

/-- The newest message is the one that the other kind of extraction looks at. -/
theorem messages_taken_last (channel : FlexBusChannel) (wellFormed : WellFormed channel)
    (full : channel.empty = false) :
    messages channel = messages (taken channel true) ++ [front channel true] := by
  have place := last_eq _ (taken_wellFormed channel true wellFormed)
  rw [messages, messages, held_taken channel true wellFormed full, window_add]
  congr 1
  change [channel.queue.cell ((channel.first + held (taken channel true) + 0) % channel.size)] =
    [front channel true]
  rw [Nat.add_zero]
  exact congrArg (fun index => [channel.queue.cell index]) place

/-- So does the list of their bytes lose its first entry. -/
theorem pending_taken (channel : FlexBusChannel) (wellFormed : WellFormed channel)
    (full : channel.empty = false) :
    pending channel = (front channel false).content :: pending (taken channel false) :=
  congrArg (List.map FlexBusMessage.content) (messages_taken channel wellFormed full)

/-- What an action does to the channel it concerns. -/
def changed (channel : FlexBusChannel) : Action → FlexBusChannel
  | .receive _ pkt => inserted channel pkt.payload.data (truncated pkt.payload.length)
  | .read _ _ => if channel.empty then channel else taken channel false

/-- Cutting does not make a message empty. -/
theorem truncated_eq_zero (len : BitVec 16) : truncated len = 0 ↔ len = 0 := by
  by_cases long : messageSize < len
  · rw [truncated, if_pos long]
    constructor
    · intro impossible
      exact absurd impossible (by decide)
    · rintro rfl
      exact absurd long (by decide)
  · rw [truncated, if_neg long]

/-- Rewriting an element with itself changes nothing. -/
theorem update_self (channels : Block FlexBusChannel) (index : Nat) :
    { channels with cell := Function.update channels.cell index (channels.cell index) } =
      channels := by
  rw [Function.update_eq_self]

/-- An action that concerns no channel changes nothing. -/
theorem perform_unconcerned (channels : Block FlexBusChannel) (action : Action)
    (none : concerned action = Option.none) : perform channels action = some channels := by
  cases action with
  | receive retv pkt =>
    simp only [concerned, ite_eq_right_iff, reduceCtorEq, imp_false, not_and, ne_eq,
      Decidable.not_not] at none
    by_cases whole : retv = packetSize
    · have empty : truncated pkt.payload.length = 0 :=
        (truncated_eq_zero _).mpr (none whole)
      simp [perform, usbReaderTurn, whole, queueInsert, empty]
    · simp [perform, usbReaderTurn, whole]
  | read len ch =>
    simp only [concerned, ite_eq_right_iff, reduceCtorEq, imp_false, ne_eq,
      Decidable.not_not] at none
    simp [perform, flexBusRead, none]

/-- What a read does on an allocated channel. -/
theorem flexBusRead_inside (channels : Block FlexBusChannel) (len ch : BitVec 16)
    (length : len ≠ 0) (inside : ch.toNat < channels.allocated)
    (wellFormed : WellFormed (channels.cell ch.toNat)) :
    flexBusRead channels len ch = some
      (if (channels.cell ch.toNat).empty then (.waits, channels)
      else
        (.returns ((front (channels.cell ch.toNat) false).copied (truncated len)),
          { channels with
            cell := Function.update channels.cell ch.toNat
              (taken (channels.cell ch.toNat) false) })) := by
  cases empty : (channels.cell ch.toNat).empty with
  | true =>
    simp only [flexBusRead, if_neg length, queueGet, Block.read_inside _ _ inside, empty,
      Option.bind_eq_bind, Option.bind_some, if_true]
  | false =>
    simp only [flexBusRead, if_neg length, queueGet, Block.read_inside _ _ inside, empty,
      Option.bind_eq_bind, Option.bind_some, Bool.false_eq_true, if_false,
      takeSection_eq _ _ _ wellFormed, Block.write_inside _ _ _ inside]

/-- What the reader thread sorts into a channel is a whole packet with a message. -/
theorem receive_concerned (retv : Int) (pkt : FlexBusPacket) (ch : BitVec 16)
    (some : concerned (.receive retv pkt) = Option.some ch) :
    retv = packetSize ∧ truncated pkt.payload.length ≠ 0 ∧ pkt.channel = ch := by
  simp only [concerned, Option.ite_none_right_eq_some, Option.some.injEq] at some
  obtain ⟨⟨whole, length⟩, same⟩ := some
  refine ⟨whole, ?_, same⟩
  rwa [Ne, truncated_eq_zero]

/-- An action on an allocated channel changes this channel. -/
theorem perform_inside (channels : Block FlexBusChannel) (action : Action) (ch : BitVec 16)
    (some : concerned action = Option.some ch) (inside : ch.toNat < channels.allocated)
    (wellFormed : WellFormed (channels.cell ch.toNat)) :
    perform channels action = Option.some { channels with
      cell := Function.update channels.cell ch.toNat
        (changed (channels.cell ch.toNat) action) } := by
  cases action with
  | receive retv pkt =>
    obtain ⟨whole, full, rfl⟩ := receive_concerned retv pkt ch some
    simp only [perform, usbReaderTurn, whole, ne_eq, not_true_eq_false, if_false, queueInsert,
      if_neg full, Block.read_inside _ _ inside, insertSection_eq _ _ _ wellFormed,
      Block.write_inside _ _ _ inside, Option.bind_eq_bind, Option.bind_some, Option.map_some,
      changed]
  | read len ch =>
    simp only [concerned, Option.ite_none_right_eq_some, Option.some.injEq] at some
    obtain ⟨length, rfl⟩ := some
    rw [perform, flexBusRead_inside channels len ch length inside wellFormed, changed]
    split
    · rw [update_self]
      rfl
    · rfl

/-- An action on a channel that is not allocated is undefined. -/
theorem perform_outside (channels : Block FlexBusChannel) (action : Action) (ch : BitVec 16)
    (some : concerned action = Option.some ch) (outside : channels.allocated ≤ ch.toNat) :
    perform channels action = none := by
  cases action with
  | receive retv pkt =>
    obtain ⟨whole, full, rfl⟩ := receive_concerned retv pkt ch some
    simp only [perform, usbReaderTurn, whole, ne_eq, not_true_eq_false, if_false, queueInsert,
      if_neg full, Block.read_outside _ _ outside, Option.bind_eq_bind, Option.bind_none,
      Option.map_none]
  | read len ch =>
    simp only [concerned, Option.ite_none_right_eq_some, Option.some.injEq] at some
    obtain ⟨length, rfl⟩ := some
    simp only [perform, flexBusRead, if_neg length, queueGet, Block.read_outside _ _ outside,
      Option.bind_eq_bind, Option.bind_none, Option.map_none]

/-- The changed channel is well formed and as large as before. -/
theorem changed_wellFormed (channel : FlexBusChannel) (action : Action)
    (wellFormed : WellFormed channel) :
    WellFormed (changed channel action) ∧ (changed channel action).size = channel.size := by
  cases action with
  | receive retv pkt => exact ⟨inserted_wellFormed _ _ _ wellFormed, rfl⟩
  | read len ch =>
    simp only [changed]
    split
    · exact ⟨wellFormed, rfl⟩
    · exact ⟨taken_wellFormed _ _ wellFormed, rfl⟩

/-- An empty channel has an empty mailbox. -/
theorem pending_eq_nil (channel : FlexBusChannel) (wellFormed : WellFormed channel)
    (empty : channel.empty = true) : pending channel = [] := by
  rw [← List.length_eq_zero_iff, pending_length, held_eq_zero channel wellFormed]
  exact empty

/-- The changed channel holds what the mailbox holds afterwards. -/
theorem pending_changed (channel : FlexBusChannel) (mailboxes : Mailboxes) (action : Action)
    (ch : BitVec 16) (some : concerned action = Option.some ch) (wellFormed : WellFormed channel)
    (size : channel.size = dafaultQueuesSize) (content : pending channel = mailboxes ch) :
    pending (changed channel action) = mailboxes.step action ch := by
  cases action with
  | receive retv pkt =>
    simp only [concerned, Option.ite_none_right_eq_some, Option.some.injEq] at some
    obtain ⟨whole, rfl⟩ := some
    simp only [changed, pending_inserted _ _ _ wellFormed, content, size, Mailboxes.step,
      if_pos whole, Function.update_self, roomFor, message]
  | read len ch =>
    simp only [concerned, Option.ite_none_right_eq_some, Option.some.injEq] at some
    obtain ⟨length, rfl⟩ := some
    simp only [changed, Mailboxes.step, if_pos length, Function.update_self, ← content]
    cases empty : channel.empty with
    | true => simp [pending_eq_nil _ wellFormed empty]
    | false => simp [pending_taken _ wellFormed empty]

/-- An action leaves the other mailboxes alone. -/
theorem mailboxes_other (mailboxes : Mailboxes) (action : Action) (ch : BitVec 16)
    (other : concerned action ≠ some ch) : mailboxes.step action ch = mailboxes ch := by
  cases action with
  | receive retv pkt =>
    simp only [Mailboxes.step]
    split
    · next whole =>
      apply Function.update_of_ne
      intro same
      exact other (by rw [concerned, if_pos whole, same])
    · rfl
  | read len index =>
    simp only [Mailboxes.step]
    split
    · next length =>
      apply Function.update_of_ne
      intro same
      exact other (by rw [concerned, if_pos length, same])
    · rfl

/-- The channel numbers below the last one are allocated. -/
theorem allocated_iff (ch : BitVec 16) : ch ≠ 65535 ↔ ch.toNat < dafaultChannelNumber := by
  have below := ch.isLt
  rw [Ne, ← BitVec.toNat_inj, dafaultChannelNumber]
  change ¬ ch.toNat = 65535 ↔ _
  omega

/-- An action on an allocated channel keeps the representation and the other channels.
That index 65535 is the one behind the array is the only thing that can go wrong. -/
theorem represents_step (channels : Block FlexBusChannel) (mailboxes : Mailboxes)
    (action : Action) (represents : Represents channels mailboxes)
    (allocated : Allocated action) :
    ∃ next, perform channels action = some next ∧
      Represents next (mailboxes.step action) ∧
      ∀ index, concerned action ≠ some index →
        next.cell index.toNat = channels.cell index.toNat := by
  cases concerns : concerned action with
  | none =>
    refine ⟨channels, perform_unconcerned channels action concerns, ?_, fun _ _ => rfl⟩
    refine ⟨represents.allocated, represents.wellFormed, ?_⟩
    intro ch inside
    rw [mailboxes_other mailboxes action ch (by simp [concerns])]
    exact represents.content ch inside
  | some ch =>
    have inside := (allocated_iff ch).mp (allocated ch concerns)
    obtain ⟨wellFormed, size⟩ := represents.wellFormed ch.toNat inside
    have below : ch.toNat < channels.allocated := by rwa [represents.allocated]
    refine ⟨_, perform_inside channels action ch concerns below wellFormed,
      ⟨represents.allocated, ?_, ?_⟩, ?_⟩
    · intro index bounded
      by_cases here : index = ch.toNat
      · subst here
        obtain ⟨kept, same⟩ := changed_wellFormed (channels.cell ch.toNat) action wellFormed
        simp only [Function.update_self]
        exact ⟨kept, same.trans size⟩
      · simp only [Function.update_of_ne here]
        exact represents.wellFormed index bounded
    · intro index bounded
      by_cases here : index = ch
      · subst here
        simp only [Function.update_self]
        exact pending_changed _ mailboxes action index concerns wellFormed size
          (represents.content index inside)
      · have apart : index.toNat ≠ ch.toNat := fun same => here (BitVec.eq_of_toNat_eq same)
        simp only [Function.update_of_ne apart]
        rw [mailboxes_other mailboxes action index (by simpa [concerns] using Ne.symm here)]
        exact represents.content index bounded
    · intro index other
      have apart : index.toNat ≠ ch.toNat :=
        fun same => other (congrArg some (BitVec.eq_of_toNat_eq same).symm)
      simp only [Function.update_of_ne apart]

/-- A read of an allocated channel hands out the oldest message of its mailbox. -/
theorem read_answers (channels : Block FlexBusChannel) (mailboxes : Mailboxes)
    (len ch : BitVec 16) (represents : Represents channels mailboxes)
    (allocated : Allocated (.read len ch)) :
    (flexBusRead channels len ch).map Prod.fst = some (answer mailboxes len ch) := by
  by_cases length : len = 0
  · rw [flexBusRead, if_pos length, answer, if_pos length]
    rfl
  · have inside := (allocated_iff ch).mp (allocated ch (if_pos length))
    obtain ⟨wellFormed, -⟩ := represents.wellFormed ch.toNat inside
    have below : ch.toNat < channels.allocated := by rwa [represents.allocated]
    rw [flexBusRead_inside channels len ch length below wellFormed, answer, if_neg length,
      ← represents.content ch inside]
    cases empty : (channels.cell ch.toNat).empty with
    | true =>
      rw [pending_eq_nil _ wellFormed empty]
      rfl
    | false =>
      rw [pending_taken _ wellFormed empty, copied_eq]
      rfl

/-- Channels and mailboxes stay together, and the action demultiplexes, exactly when it
concerns an allocated channel. -/
theorem demultiplexes_step (channels : Option (Block FlexBusChannel)) (mailboxes : Mailboxes)
    (action : Action)
    (related : ∃ defined, channels = some defined ∧ Represents defined mailboxes) :
    ((∃ defined, step channels action = some defined ∧
        Represents defined (mailboxes.step action)) ∧
      Demultiplexes (channels, mailboxes) action) ↔ Allocated action := by
  obtain ⟨defined, rfl, represents⟩ := related
  constructor
  · rintro ⟨⟨next, performed, -⟩, -⟩ ch concerns outside
    have beyond : defined.allocated ≤ ch.toNat := by
      rw [represents.allocated, outside]
      decide
    rw [step, Option.bind_some, perform_outside defined action ch concerns beyond] at performed
    cases performed
  · intro allocated
    obtain ⟨next, performed, represented, frame⟩ :=
      represents_step defined mailboxes action represents allocated
    refine ⟨⟨next, performed, represented⟩, defined, next, rfl, performed, frame, ?_⟩
    rintro len ch rfl
    exact read_answers defined mailboxes len ch represents allocated

/-- The channels of `queue_init` represent empty mailboxes. -/
theorem start_represents (garbage : Nat → Nat → FlexBusMessage) :
    Represents (queueInit garbage 0 0) fun _ => [] :=
  ⟨rfl, fun index _ => ⟨queueInit_wellFormed garbage index, rfl⟩,
    fun ch _ => pending_eq_nil _ (queueInit_wellFormed garbage ch.toNat) rfl⟩

/-- For every sequence of packets and reads, the channels represent the mailboxes
throughout, every message goes to the channel its packet names and to no other, and
all indices lie inside the arrays, if and only if no packet with a message and no read
of more than zero bytes names channel 65535. -/
theorem demultiplexes_iff (garbage : Nat → Nat → FlexBusMessage) (actions : List Action) :
    (Reached (paired step Mailboxes.step)
        (fun both => ∃ channels, both.1 = some channels ∧ Represents channels both.2)
        (start garbage, fun _ => []) actions ∧
      Throughout (paired step Mailboxes.step) Demultiplexes (start garbage, fun _ => [])
        actions) ↔
      ∀ action ∈ actions, Allocated action := by
  have exactly := simulation_iff step Mailboxes.step
    (fun channels mailboxes => ∃ defined, channels = some defined ∧ Represents defined mailboxes)
    (fun _ _ => True) (fun _ action => Allocated action) Demultiplexes
    (fun channels mailboxes action related _ =>
      demultiplexes_step channels mailboxes action related)
    (start garbage) (fun _ => []) actions ⟨_, rfl, start_represents garbage⟩
    (fun _ _ _ _ => trivial)
  rw [exactly]
  constructor
  · intro guarded action member
    obtain ⟨done, rest, split⟩ := List.append_of_mem member
    exact guarded done action rest split
  · intro allocated done action rest split
    exact allocated action (by simp [split])

/-- Not every packet finds its channel: a message to channel 65535 leaves the array
of channels. -/
theorem last_channel_outside :
    ¬ ∀ garbage actions, Throughout (paired step Mailboxes.step) Demultiplexes
      (start garbage, fun _ => []) actions := by
  intro always
  let garbage : Nat → Nat → FlexBusMessage := fun _ _ => { length := 0, data := fun _ => 0 }
  let packet : FlexBusPacket :=
    { channel := 65535, payload := { length := 1, data := fun _ => 0 } }
  obtain ⟨channels, next, started, performed, -⟩ :=
    always garbage [.receive 36 packet] [] (.receive 36 packet) [] rfl
  have undefined : ((some (queueInit garbage 0 0)).bind
      fun channels => perform channels (.receive 36 packet)).isNone = true := by decide
  have same : some (queueInit garbage 0 0) = some channels := started
  rw [same, Option.bind_some, performed] at undefined
  cases undefined

end ScicosFlex.Bus.Demultiplexer
