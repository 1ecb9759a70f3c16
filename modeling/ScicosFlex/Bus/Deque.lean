import ScicosFlex.Bus.Demultiplexer

/-!
# One queue of flex_bus

`queue_insert` and `queue_get` on one channel in any order, where `queue_get` takes the
oldest or the newest message. `Stored` says what such a queue is for: a deque that keeps
at most one message less than the queue has places, and that loses its oldest message
when one comes to a full deque. The code keeps its indices inside the queue and does what
the deque does (`queue_is_deque`).
-/

namespace ScicosFlex.Bus.Deque

open Library.Blocks Library.CircularBuffer Library.Runs Usb Demultiplexer

/-- A call of `queue_insert` or `queue_get` for the channel. No call reads more than the
first 32 bytes of `buf`. -/
inductive Operation where
  | insert (buf : Fin 32 → Byte) (len : BitVec 16)
  | get (len : BitVec 16) (lifo : Bool)

/-- How a call ends. A `queue_get` that does not wait has copied the bytes of `buf`. -/
inductive Answer where
  | inserted (retv : Int)
  | waits
  | got (retv : Nat) (buf : List Byte)

/-- `retv` of `queue_get` for the message it copies from. -/
def retv (message : FlexBusMessage) (len : BitVec 16) : BitVec 16 :=
  if len < message.length then len else message.length

/-- A call, and the channels afterwards. -/
def perform (ch : BitVec 16) (channels : Block FlexBusChannel) :
    Operation → Option (Answer × Block FlexBusChannel)
  | .insert buf len => do
    let (retv, channels) ← queueInsert channels buf len ch
    some (.inserted retv, channels)
  | .get len lifo => do
    let channel ← channels.read ch.toNat
    let (outcome, channels) ← queueGet channels len ch lifo
    match outcome with
    | .waits => some (.waits, channels)
    | .returns buf => some (.got (retv (front channel lifo) len).toNat buf, channels)

/-- One call; behind an undefined access everything is undefined. -/
def step (ch : BitVec 16) (channels : Option (Block FlexBusChannel)) (operation : Operation) :
    Option (Block FlexBusChannel) :=
  channels.bind fun defined => (perform ch defined operation).map Prod.snd

/-- No `queue_get` is called while the queue is empty; such a call would wait for an
insertion, which a single thread cannot make. -/
def Served (ch : BitVec 16) (channels : Option (Block FlexBusChannel)) (operation : Operation) :
    Prop :=
  ∀ defined len lifo, channels = some defined → operation = .get len lifo →
    (defined.cell ch.toNat).empty = false

/-- The stored messages, the oldest first. -/
abbrev Stored := List (List Byte)

/-- The first `len` bytes, of which a message has room for 32. -/
def cut (buf : Fin 32 → Byte) (len : BitVec 16) : List Byte := (List.ofFn buf).take len.toNat

/-- A message comes last, and the oldest one goes if there is no room for it. Either end
can be taken. -/
def Stored.step (capacity : Nat) (stored : Stored) : Operation → Stored
  | .insert buf len =>
    if len = 0 then stored
    else if stored.length < capacity then stored ++ [cut buf len]
    else stored.tail ++ [cut buf len]
  | .get _ false => stored.tail
  | .get _ true => stored.dropLast

/-- A message of no bytes is refused. Of the message at either end as many bytes are
copied as are asked for and there are. -/
def Stored.answer (stored : Stored) : Operation → Answer
  | .insert _ len => .inserted (if len = 0 then -1 else 0)
  | .get len lifo =>
    match if lifo then stored.getLast? else stored.head? with
    | none => .waits
    | some message => .got (min len.toNat message.length) (message.take len.toNat)

/-- The channel is allocated, its indices lie inside its queue, and it holds the stored
messages, of at most 32 bytes. -/
structure Represents (size : Nat) (ch : BitVec 16) (channels : Block FlexBusChannel)
    (stored : Stored) : Prop where
  allocated : ch.toNat < channels.allocated
  wellFormed : WellFormed (channels.cell ch.toNat)
  places : (channels.cell ch.toNat).size = size
  content : pending (channels.cell ch.toNat) = stored
  short : ∀ message ∈ messages (channels.cell ch.toNat), message.length.toNat ≤ 32

/-- The call ends as the deque says, and an insertion of nothing changes no channel. -/
def Answers (ch : BitVec 16) (both : Option (Block FlexBusChannel) × Stored)
    (operation : Operation) : Prop :=
  ∃ channels next, both.1 = some channels ∧
    perform ch channels operation = some (both.2.answer operation, next) ∧
    ∀ buf, operation = .insert buf 0 → next = channels

/-- A message of at most 32 bytes is copied up to its length. -/
theorem retv_eq (message : FlexBusMessage) (len : BitVec 16) (short : message.length.toNat ≤ 32) :
    (retv message len).toNat = min len.toNat message.content.length := by
  have length : message.content.length = message.length.toNat := by
    simp [FlexBusMessage.content, short]
  rw [length, retv]
  split
  · next less => exact (Nat.min_eq_left (Nat.le_of_lt less)).symm
  · next more => exact (Nat.min_eq_right (Nat.le_of_not_lt more)).symm

/-- A message is cut to 32 bytes. -/
theorem truncated_le (len : BitVec 16) : (truncated len).toNat ≤ 32 := by
  rw [truncated]
  split
  · exact Nat.le_refl 32
  · next short => exact Nat.le_of_not_lt short

/-- What is appended to a bounded queue was in it or is new. -/
theorem mem_push {α : Type} (capacity : Nat) (queue added : List α) (x : α)
    (member : x ∈ push capacity queue added) : x ∈ queue ∨ x ∈ added :=
  List.mem_append.mp (List.mem_of_mem_drop member)

/-- Changing the channel so that it still represents something changes no other part of
the representation. -/
theorem represents_update (size : Nat) (ch : BitVec 16) (channels : Block FlexBusChannel)
    (stored : Stored) (channel : FlexBusChannel) (allocated : ch.toNat < channels.allocated)
    (wellFormed : WellFormed channel) (places : channel.size = size)
    (content : pending channel = stored)
    (short : ∀ message ∈ messages channel, message.length.toNat ≤ 32) :
    Represents size ch { channels with cell := Function.update channels.cell ch.toNat channel }
      stored := by
  refine ⟨allocated, ?_, ?_, ?_, ?_⟩ <;> simp only [Function.update_self]
  · exact wellFormed
  · exact places
  · exact content
  · exact short

/-- An insertion of some bytes on an allocated channel. -/
theorem insert_inside (ch : BitVec 16) (channels : Block FlexBusChannel) (buf : Fin 32 → Byte)
    (len : BitVec 16) (length : len ≠ 0) (inside : ch.toNat < channels.allocated)
    (wellFormed : WellFormed (channels.cell ch.toNat)) :
    perform ch channels (.insert buf len) = some (.inserted 0, { channels with
      cell := Function.update channels.cell ch.toNat
        (inserted (channels.cell ch.toNat) buf (truncated len)) }) := by
  have full : truncated len ≠ 0 := by rwa [Ne, truncated_eq_zero]
  simp only [perform, queueInsert, if_neg full, Block.read_inside _ _ inside,
    insertSection_eq _ _ _ wellFormed, Block.write_inside _ _ _ inside, Option.bind_eq_bind,
    Option.bind_some]

/-- An extraction on an allocated channel that is not empty. -/
theorem get_inside (ch : BitVec 16) (channels : Block FlexBusChannel) (len : BitVec 16)
    (lifo : Bool) (inside : ch.toNat < channels.allocated)
    (wellFormed : WellFormed (channels.cell ch.toNat))
    (full : (channels.cell ch.toNat).empty = false) :
    perform ch channels (.get len lifo) =
      some (.got (retv (front (channels.cell ch.toNat) lifo) len).toNat
          ((front (channels.cell ch.toNat) lifo).copied len),
        { channels with
          cell := Function.update channels.cell ch.toNat (taken (channels.cell ch.toNat) lifo) }) := by
  simp only [perform, queueGet, Block.read_inside _ _ inside, full, Option.bind_eq_bind,
    Option.bind_some, Bool.false_eq_true, if_false, takeSection_eq _ _ _ wellFormed,
    Block.write_inside _ _ _ inside]

/-- An insertion keeps the representation. One of nothing is refused and changes no
channel at all, one into a full queue drops the oldest message. -/
theorem insert_step (size : Nat) (ch : BitVec 16) (channels : Block FlexBusChannel)
    (stored : Stored) (buf : Fin 32 → Byte) (len : BitVec 16)
    (represents : Represents size ch channels stored) :
    ∃ next, perform ch channels (.insert buf len) =
        some (stored.answer (.insert buf len), next) ∧
      Represents size ch next (stored.step (size - 1) (.insert buf len)) ∧
      (len = 0 → next = channels) := by
  obtain ⟨inside, wellFormed, places, content, short⟩ := represents
  by_cases length : len = 0
  · subst length
    exact ⟨channels, rfl, ⟨inside, wellFormed, places, content, short⟩, fun _ => rfl⟩
  · have room : 0 < size - 1 := by
      have two := wellFormed.room
      omega
    have fits : stored.length ≤ size - 1 := by
      have few := held_lt _ wellFormed
      rw [← content, pending_length]
      omega
    have grown := pending_inserted (channels.cell ch.toNat) buf len wellFormed
    rw [content, places, push_one _ _ _ room fits] at grown
    refine ⟨_, ?_, represents_update size ch channels _ _ inside
      (inserted_wellFormed _ buf (truncated len) wellFormed) places ?_ ?_, fun none => absurd none length⟩
    · rw [insert_inside ch channels buf len length inside wellFormed, Stored.answer, if_neg length]
    · rw [grown, Stored.step, if_neg length]
      rfl
    · intro message member
      rw [messages_inserted _ _ _ wellFormed] at member
      cases mem_push _ _ _ _ member with
      | inl old => exact short message old
      | inr new =>
        rw [List.mem_singleton.mp new]
        exact truncated_le len

/-- The messages split at the end that an extraction takes. -/
theorem messages_front (channel : FlexBusChannel) (lifo : Bool) (wellFormed : WellFormed channel)
    (full : channel.empty = false) : messages channel =
      if lifo then messages (taken channel true) ++ [front channel true]
      else front channel false :: messages (taken channel false) := by
  cases lifo with
  | true => exact messages_taken_last channel wellFormed full
  | false => exact messages_taken channel wellFormed full

/-- An extraction keeps the representation, from either end. The queue must hold a
message, since otherwise the call waits. -/
theorem get_step (size : Nat) (ch : BitVec 16) (channels : Block FlexBusChannel)
    (stored : Stored) (len : BitVec 16) (lifo : Bool)
    (represents : Represents size ch channels stored)
    (full : (channels.cell ch.toNat).empty = false) :
    ∃ next, perform ch channels (.get len lifo) =
        some (stored.answer (.get len lifo), next) ∧
      Represents size ch next (stored.step (size - 1) (.get len lifo)) := by
  obtain ⟨inside, wellFormed, places, content, short⟩ := represents
  have split := messages_front (channels.cell ch.toNat) lifo wellFormed full
  have shown : stored = (messages (channels.cell ch.toNat)).map FlexBusMessage.content :=
    content.symm
  have member : front (channels.cell ch.toNat) lifo ∈ messages (channels.cell ch.toNat) := by
    rw [split]
    cases lifo <;> simp
  have others : ∀ message ∈ messages (taken (channels.cell ch.toNat) lifo),
      message ∈ messages (channels.cell ch.toNat) := by
    intro message left
    rw [split]
    cases lifo <;> simp [left]
  refine ⟨_, ?_, represents_update size ch channels _ _ inside (taken_wellFormed _ lifo wellFormed)
    ?_ ?_ fun message left => short message (others message left)⟩
  · rw [get_inside ch channels len lifo inside wellFormed full, retv_eq _ _ (short _ member),
      copied_eq, shown, split]
    cases lifo <;> simp [Stored.answer]
  · cases lifo <;> exact places
  · rw [shown, split]
    cases lifo <;> simp [Stored.step, pending, messages]

/-- A call keeps the representation and ends as the deque says. An insertion into a full
queue is the case to look at: the oldest message goes, and its place is the free one
from then on. -/
theorem represents_step (size : Nat) (ch : BitVec 16) (channels : Block FlexBusChannel)
    (stored : Stored) (operation : Operation) (represents : Represents size ch channels stored)
    (served : Served ch (some channels) operation) :
    (∃ next, step ch (some channels) operation = some next ∧
        Represents size ch next (stored.step (size - 1) operation)) ∧
      Answers ch (some channels, stored) operation := by
  cases operation with
  | insert buf len =>
    obtain ⟨next, performed, kept, same⟩ := insert_step size ch channels stored buf len represents
    refine ⟨⟨next, by rw [step, Option.bind_some, performed]; rfl, kept⟩,
      channels, next, rfl, performed, ?_⟩
    intro other empty
    exact same (Operation.insert.inj empty).2
  | get len lifo =>
    obtain ⟨next, performed, kept⟩ := get_step size ch channels stored len lifo represents
      (served channels len lifo rfl rfl)
    refine ⟨⟨next, by rw [step, Option.bind_some, performed]; rfl, kept⟩,
      channels, next, rfl, performed, ?_⟩
    intro buf impossible
    cases impossible

/-- The channels of `queue_init` hold nothing. -/
theorem start_represents (garbage : Nat → Nat → FlexBusMessage) (nChannels size : Nat)
    (ch : BitVec 16) (two : 2 ≤ size) (inside : ch.toNat < nChannels) :
    Represents size ch (queueInit garbage nChannels size) [] := by
  have some : nChannels ≠ 0 := by omega
  have places : size ≠ 0 := by omega
  have channel : (queueInit garbage nChannels size).cell ch.toNat =
      { size := size, queue := { allocated := size, cell := garbage ch.toNat }
        first := 0, last := 0 } := by
    simp only [queueInit, if_neg places]
  have wellFormed : WellFormed ((queueInit garbage nChannels size).cell ch.toNat) := by
    rw [channel]
    exact ⟨two, rfl, by show 0 < size; omega, by show 0 < size; omega⟩
  have empty : pending ((queueInit garbage nChannels size).cell ch.toNat) = [] :=
    pending_eq_nil _ wellFormed (by rw [channel]; rfl)
  refine ⟨by simpa only [queueInit, if_neg some] using inside, wellFormed, by rw [channel], empty, ?_⟩
  intro message member
  rw [pending, List.map_eq_nil_iff] at empty
  rw [messages, empty] at member
  cases member

/-- A queue of two or more places is a deque: through every sequence of calls on the
channel that asks no empty queue, the indices stay inside the queue, it holds the stored
messages, at most one less than it has places, and every call ends as the deque says. -/
theorem queue_is_deque (garbage : Nat → Nat → FlexBusMessage) (nChannels size : Nat)
    (ch : BitVec 16) (two : 2 ≤ size) (inside : ch.toNat < nChannels)
    (operations : List Operation)
    (served : Throughout (step ch) (Served ch) (some (queueInit garbage nChannels size))
      operations) :
    Reached (paired (step ch) (Stored.step (size - 1)))
        (fun both => both.2.length ≤ size - 1 ∧
          ∃ channels, both.1 = some channels ∧ Represents size ch channels both.2)
        (some (queueInit garbage nChannels size), []) operations ∧
      Throughout (paired (step ch) (Stored.step (size - 1))) (Answers ch)
        (some (queueInit garbage nChannels size), []) operations := by
  have guarded := (throughout_paired (step ch) (Stored.step (size - 1)) (Served ch)
    (some (queueInit garbage nChannels size)) [] operations).mpr served
  have initial : ∃ channels, some (queueInit garbage nChannels size) = some channels ∧
      Represents size ch channels [] :=
    ⟨_, rfl, start_represents garbage nChannels size ch two inside⟩
  constructor
  · refine (reached_of_invariant _ _
      (fun both => ∃ channels, both.1 = some channels ∧ Represents size ch channels both.2)
      ?_ _ _ initial guarded).mono ?_
    · rintro ⟨_, stored⟩ operation ⟨channels, rfl, represents⟩ served
      exact (represents_step size ch channels stored operation represents served).1
    · rintro ⟨_, stored⟩ ⟨channels, rfl, represents⟩
      refine ⟨?_, channels, rfl, represents⟩
      have few := held_lt _ represents.wellFormed
      rw [represents.places] at few
      rw [← represents.content, pending_length]
      omega
  · refine throughout_of_invariant _ _
      (fun both => ∃ channels, both.1 = some channels ∧ Represents size ch channels both.2)
      _ ?_ ?_ _ _ initial guarded
    · rintro ⟨_, stored⟩ operation ⟨channels, rfl, represents⟩ served
      exact (represents_step size ch channels stored operation represents served).1
    · rintro ⟨_, stored⟩ operation ⟨channels, rfl, represents⟩ served
      exact (represents_step size ch channels stored operation represents served).2

/-- A call is served if the queue is not empty. -/
theorem served_nonempty (ch : BitVec 16) (channels : Option (Block FlexBusChannel))
    (operation : Operation)
    (full : channels.map (fun defined => (defined.cell ch.toNat).empty) = some false) :
    Served ch channels operation := by
  rintro defined len lifo rfl -
  exact Option.some.inj full

/-- An insertion is served. -/
theorem served_insert (ch : BitVec 16) (channels : Option (Block FlexBusChannel))
    (buf : Fin 32 → Byte) (len : BitVec 16) : Served ch channels (.insert buf len) := by
  intro defined len lifo _ impossible
  cases impossible

/-- Four messages come to a queue for two of them, so that the first two are lost. The older
one of the others is taken, two more come, and the queue is emptied from either end. -/
def fillAndTake : List Operation :=
  [.insert (fun _ => 7) 1, .insert (fun _ => 8) 2, .insert (fun _ => 9) 3,
    .insert (fun _ => 10) 40, .get 2 false, .insert (fun _ => 11) 5, .get 32 true,
    .insert (fun _ => 12) 6, .get 5 false, .get 5 true]

/-- Memory for messages as it may be found: all zero. -/
def zeroMessages : Nat → Nat → FlexBusMessage := fun _ _ => { length := 0, data := fun _ => 0 }

/-- Whenever a message is taken the queue is not empty. -/
theorem fillAndTake_served :
    Throughout (step 0) (Served 0) (some (queueInit zeroMessages 1 3)) fillAndTake := by
  simp only [fillAndTake, throughout_cons]
  exact ⟨served_insert _ _ _ _, served_insert _ _ _ _, served_insert _ _ _ _,
    served_insert _ _ _ _, served_nonempty _ _ _ (by decide), served_insert _ _ _ _,
    served_nonempty _ _ _ (by decide), served_insert _ _ _ _, served_nonempty _ _ _ (by decide),
    served_nonempty _ _ _ (by decide +kernel), throughout_nil _ _ _⟩

/-- A queue with three places is a deque of two messages. -/
theorem three_places_are_deque :
    Reached (paired (step 0) (Stored.step 2))
        (fun both => both.2.length ≤ 2 ∧
          ∃ channels, both.1 = some channels ∧ Represents 3 0 channels both.2)
        (some (queueInit zeroMessages 1 3), []) fillAndTake ∧
      Throughout (paired (step 0) (Stored.step 2)) (Answers 0)
        (some (queueInit zeroMessages 1 3), []) fillAndTake :=
  queue_is_deque _ 1 3 0 (by decide) (by decide) fillAndTake fillAndTake_served

end ScicosFlex.Bus.Deque
