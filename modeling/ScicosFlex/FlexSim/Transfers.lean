import ScicosFlex.Library.Layout
import ScicosFlex.Library.WhileLoops

/-!
# Transfers over a channel

`write_to_channel`, `read_from_channel` and `read_from_channel_size` of
`comm_channel_linux.c`. Each repeats a call of the operating system that may move fewer
bytes than it is asked for, until all bytes are moved.

A socket answers the calls. It may cut the transfers anywhere, and it interrupts finitely
many calls of `send`. What was sent forms a stream; the reader consumes a stream from its
start, and takes no more of it than there is. Whatever the cuts, messages that are written
are read as they were, with the sizes they were written with (`transfers_exact`).

Of a channel only the error code is kept here. Sizes are natural numbers.
-/

namespace ScicosFlex.FlexSim.Transfers

open Library.Layout Library.WhileLoops

/-- What `send` answers when some bytes are requested. -/
inductive SendAnswer (requested : Nat) where
  | moved (count : Nat) (fits : count ≤ requested) (progress : 0 < requested → 0 < count)
  | failed (errno : Int)

/-- What `recv` answers when it can move up to `limit` bytes. -/
inductive RecvAnswer (limit : Nat) where
  | moved (count : Nat) (fits : count ≤ limit) (progress : 0 < count)
  | shutdown
  | failed (errno : Int)

/-- `EINTR`. -/
def eintr : Int := 4

/-- The answers to the calls of `send` and of `recv`, which are numbered. They may
depend on how many calls there were before, and from some call on `send` is not
interrupted any more. -/
structure Socket where
  send : Nat → (requested : Nat) → SendAnswer requested
  recv : Nat → (limit : Nat) → RecvAnswer limit
  settled : ∃ bound, ∀ call requested, send call requested = .failed eintr → call < bound

/-- The side that writes: how often `send` was called, what was sent, and `last_error_code_`. -/
structure Writer where
  calls : Nat
  stream : List UInt8
  lastErrorCode : Int

/-- The side that reads: how often `recv` was called, how many bytes of the stream are
consumed, and `last_error_code_`. -/
structure Reader where
  calls : Nat
  consumed : Nat
  lastErrorCode : Int

/-- One pass through the loop of `write_to_channel`, with the variable `sent`. -/
def writePass (socket : Socket) (data : List UInt8) (state : Nat × Writer) :
    Pass (Nat × Writer) (Int × Writer) :=
  let (sent, channel) := state
  match socket.send channel.calls (data.length - sent) with
  | .failed errno =>
    let channel := { channel with calls := channel.calls + 1, lastErrorCode := errno }
    if channel.lastErrorCode = eintr then
      -- `continue` comes to the condition of the loop.
      if sent < data.length then .again (sent, channel) else .leave (0, channel)
    else .leave (-1, channel)
  | .moved bytes _ _ =>
    let channel :=
      { channel with
        calls := channel.calls + 1
        stream := channel.stream ++ (data.drop sent).take bytes }
    let sent := sent + bytes
    if sent < data.length then .again (sent, channel) else .leave (0, channel)

/-- `write_to_channel(channel, data, size)` returns. -/
def Writes (socket : Socket) (channel : Writer) (data : List UInt8) (ret : Int) (after : Writer) :
    Prop :=
  Returns (writePass socket data) (0, channel) (ret, after)

/-- One pass through the loops of `read_from_channel` and `read_from_channel_size`, with the
variable `to_read`. -/
def readPass (socket : Socket) (stream : List UInt8) (realSize : Nat)
    (state : Nat × List UInt8 × Reader) :
    Pass (Nat × List UInt8 × Reader) (Int × List UInt8 × Reader) :=
  let (toRead, data, channel) := state
  match socket.recv channel.calls (min toRead (stream.length - channel.consumed)) with
  | .shutdown => .leave (-1, data, { channel with calls := channel.calls + 1 })
  | .failed errno =>
    .leave (-1, data, { channel with calls := channel.calls + 1, lastErrorCode := errno })
  | .moved read _ _ =>
    let data := store data (realSize - toRead) (fetch stream channel.consumed read)
    let channel :=
      { channel with calls := channel.calls + 1, consumed := channel.consumed + read }
    let toRead := toRead - read
    if 0 < toRead then .again (toRead, data, channel) else .leave (0, data, channel)

/-- `read_from_channel_size(channel, size, data, max_size)` returns. -/
def Reads (socket : Socket) (stream : List UInt8) (channel : Reader) (size : Nat)
    (data : List UInt8) (maxSize : Nat) (ret : Int) (filled : List UInt8) (after : Reader) : Prop :=
  let realSize := if maxSize < size then maxSize else size
  Returns (readPass socket stream realSize) (realSize, data, channel) (ret, filled, after)

/-- `read_from_channel(channel, data, max_size)` returns; `inBuffSize` is the
channel's `in_buff_size_`. -/
def ReadsAll (socket : Socket) (stream : List UInt8) (channel : Reader) (inBuffSize : Nat)
    (data : List UInt8) (maxSize : Nat) (ret : Int) (filled : List UInt8) (after : Reader) : Prop :=
  if maxSize < inBuffSize then
    ret = -1 ∧ filled = data ∧ after = { channel with lastErrorCode := -1 }
  else
    Returns (readPass socket stream inBuffSize) (inBuffSize, data, channel) (ret, filled, after)

section Write

variable (socket : Socket) (data start : List UInt8)

/-- What a pass of `write_to_channel` does while the first `sent` bytes are on the stream. -/
def WritePassed (sent : Nat) (channel : Writer) :
    Pass (Nat × Writer) (Int × Writer) → Prop
  | .again (next, later) => next < data.length ∧ later.stream = start ++ data.take next ∧
      later.calls = channel.calls + 1 ∧
      (sent < next ∨
        next = sent ∧ socket.send channel.calls (data.length - sent) = .failed eintr)
  | .leave (ret, later) => ret = 0 ∧ later.stream = start ++ data ∨
      ret = -1 ∧ later.stream = start ++ data.take sent

/-- Either some bytes more are on the stream, or the call was interrupted, or the loop
ends. What the next pass sends begins where this one has stopped. -/
theorem write_pass (sent : Nat) (channel : Writer) (inside : sent ≤ data.length)
    (put : channel.stream = start ++ data.take sent) :
    WritePassed socket data start sent channel (writePass socket data (sent, channel)) := by
  simp only [writePass]
  cases answered : socket.send channel.calls (data.length - sent) with
  | failed errno =>
    simp only
    by_cases interrupted : errno = eintr
    · subst interrupted
      rw [if_pos rfl]
      by_cases more : sent < data.length
      · rw [if_pos more]
        exact ⟨more, put, rfl, Or.inr ⟨rfl, answered⟩⟩
      · rw [if_neg more]
        have whole : data.take sent = data := List.take_of_length_le (by omega)
        exact Or.inl ⟨rfl, by rw [put, whole]⟩
    · rw [if_neg interrupted]
      exact Or.inr ⟨rfl, put⟩
  | moved bytes fits progress =>
    have longer : channel.stream ++ (data.drop sent).take bytes =
        start ++ data.take (sent + bytes) := by
      rw [put, List.append_assoc, List.take_add]
    simp only
    by_cases more : sent + bytes < data.length
    · rw [if_pos more]
      have some : 0 < bytes := progress (by omega)
      exact ⟨more, longer, rfl, Or.inl (by omega)⟩
    · rw [if_neg more]
      have whole : data.take (sent + bytes) = data := List.take_of_length_le (by omega)
      exact Or.inl ⟨rfl, by rw [longer, whole]⟩

/-- A call of `write_to_channel` that returns 0 has put all its bytes on the stream, and one
that returns -1 the first of them. -/
theorem write_returned (channel after : Writer) (ret : Int)
    (returned : Writes socket channel data ret after) :
    ret = 0 ∧ after.stream = channel.stream ++ data ∨
      ret = -1 ∧ ∃ count, count ≤ data.length ∧
        after.stream = channel.stream ++ data.take count := by
  refine result_of_invariant (writePass socket data)
    (fun state => state.1 ≤ data.length ∧
      state.2.stream = channel.stream ++ data.take state.1)
    (fun result => result.1 = 0 ∧ result.2.stream = channel.stream ++ data ∨
      result.1 = -1 ∧ ∃ count, count ≤ data.length ∧
        result.2.stream = channel.stream ++ data.take count)
    ?_ ?_ (0, channel) ⟨Nat.zero_le _, by simp⟩ (ret, after) returned
  · rintro ⟨sent, before⟩ ⟨next, later⟩ ⟨inside, put⟩ made
    have passed := write_pass socket data channel.stream sent before inside put
    rw [made] at passed
    exact ⟨Nat.le_of_lt passed.1, passed.2.1⟩
  · rintro ⟨sent, before⟩ ⟨result, later⟩ ⟨inside, put⟩ made
    have passed := write_pass socket data channel.stream sent before inside put
    rw [made] at passed
    cases passed with
    | inl whole => exact Or.inl whole
    | inr part => exact Or.inr ⟨part.1, sent, inside, part.2⟩

/-- Every call of `write_to_channel` returns: a pass moves some bytes or uses up one of
the interruptions. -/
theorem write_terminates (channel : Writer) : ∃ ret after, Writes socket channel data ret after := by
  obtain ⟨bound, settled⟩ := socket.settled
  obtain ⟨⟨ret, after⟩, returned⟩ := terminates_of_measure (writePass socket data)
    (fun state => state.1 ≤ data.length ∧
      state.2.stream = channel.stream ++ data.take state.1)
    (fun state => (data.length - state.1) + (bound - state.2.calls))
    (by
      rintro ⟨sent, before⟩ ⟨next, later⟩ ⟨inside, put⟩ made
      have passed := write_pass socket data channel.stream sent before inside put
      rw [made] at passed
      obtain ⟨more, put, counted, progress⟩ := passed
      refine ⟨⟨Nat.le_of_lt more, put⟩, ?_⟩
      simp only [counted]
      cases progress with
      | inl moved => omega
      | inr interrupted =>
        have early := settled _ _ interrupted.2
        omega)
    (0, channel) ⟨Nat.zero_le _, by simp⟩
  exact ⟨ret, after, returned⟩

/-- Calls of `write_to_channel` in a row, each returning 0. -/
inductive AllWritten : Writer → List (List UInt8) → Writer → Prop where
  | nil (channel : Writer) : AllWritten channel [] channel
  | cons (channel middle after : Writer) (message : List UInt8) (rest : List (List UInt8))
      (returned : Writes socket channel message 0 middle)
      (later : AllWritten middle rest after) : AllWritten channel (message :: rest) after

/-- They put the messages on the stream, one behind the other, since each has returned 0
and so sent all of its bytes. -/
theorem all_written (channel after : Writer) (messages : List (List UInt8))
    (written : AllWritten socket channel messages after) :
    after.stream = channel.stream ++ messages.flatten := by
  induction written with
  | nil channel => simp
  | cons channel middle after message rest returned later inductionHypothesis =>
    have put : middle.stream = channel.stream ++ message := by
      cases write_returned socket message channel middle 0 returned with
      | inl whole => exact whole.2
      | inr part => exact absurd part.1 (by decide)
    rw [inductionHypothesis, put, List.flatten_cons, List.append_assoc]

end Write

section Read

variable (socket : Socket) (stream buffer : List UInt8) (realSize origin : Nat)

/-- The state of a read that has consumed some bytes from `origin` on and has `toRead` bytes
to go. -/
structure Reading (state : Nat × List UInt8 × Reader) : Prop where
  inside : state.1 ≤ realSize
  there : state.1 = realSize ∨ origin + (realSize - state.1) ≤ stream.length
  consumed : state.2.2.consumed = origin + (realSize - state.1)
  filled : state.2.1 = store buffer 0 (fetch stream origin (realSize - state.1))

/-- What a pass of a read does. -/
def ReadPassed (toRead : Nat) (data : List UInt8) :
    Pass (Nat × List UInt8 × Reader) (Int × List UInt8 × Reader) → Prop
  | .again next => Reading stream buffer realSize origin next ∧ next.1 < toRead
  | .leave (ret, filled, later) =>
      ret = 0 ∧ origin + realSize ≤ stream.length ∧ later.consumed = origin + realSize ∧
        filled = store buffer 0 (fetch stream origin realSize) ∨
      ret = -1 ∧ later.consumed = origin + (realSize - toRead) ∧ filled = data

/-- Either some bytes more are in the buffer, or the read ends. The place where they go
is computed from the number of bytes that are still missing. -/
theorem read_pass (room : realSize ≤ buffer.length) (toRead : Nat) (data : List UInt8)
    (channel : Reader) (reading : Reading stream buffer realSize origin (toRead, data, channel)) :
    ReadPassed stream buffer realSize origin toRead data
      (readPass socket stream realSize (toRead, data, channel)) := by
  obtain ⟨inside, there, consumed, filled⟩ := reading
  simp only at inside there consumed filled
  simp only [readPass]
  cases answered : socket.recv channel.calls (min toRead (stream.length - channel.consumed)) with
  | shutdown => exact Or.inr ⟨rfl, consumed, rfl⟩
  | failed errno => exact Or.inr ⟨rfl, consumed, rfl⟩
  | moved read fits progress =>
    have behind : realSize - toRead + read = realSize - (toRead - read) := by omega
    have before : (fetch stream origin (realSize - toRead)).length = realSize - toRead := by
      apply fetch_length
      omega
    have got : (fetch stream channel.consumed read).length = read := by
      apply fetch_length
      omega
    have longer : store data (realSize - toRead) (fetch stream channel.consumed read) =
        store buffer 0 (fetch stream origin (realSize - (toRead - read))) := by
      have joined := store_append buffer 0 (fetch stream origin (realSize - toRead))
        (fetch stream channel.consumed read) (by omega)
      rw [before, Nat.zero_add] at joined
      rw [filled, joined, consumed, ← fetch_add, behind]
    simp only
    by_cases more : 0 < toRead - read
    · rw [if_pos more]
      refine ⟨⟨?_, ?_, ?_, longer⟩, ?_⟩ <;> simp only <;> omega
    · rw [if_neg more]
      have whole : realSize - (toRead - read) = realSize := by omega
      rw [whole] at longer
      refine Or.inl ⟨rfl, by omega, ?_, longer⟩
      change channel.consumed + read = origin + realSize
      omega

/-- A read that returns 0 has filled the buffer with the next bytes of the stream, and one
that returns -1 has consumed no more of them. -/
theorem read_returned (room : realSize ≤ buffer.length) (channel after : Reader)
    (filled : List UInt8) (ret : Int) (start : channel.consumed = origin)
    (returned : Returns (readPass socket stream realSize) (realSize, buffer, channel)
      (ret, filled, after)) :
    ret = 0 ∧ origin + realSize ≤ stream.length ∧ after.consumed = origin + realSize ∧
        filled = store buffer 0 (fetch stream origin realSize) ∨
      ret = -1 ∧ origin ≤ after.consumed ∧ after.consumed ≤ origin + realSize := by
  refine result_of_invariant (readPass socket stream realSize)
    (Reading stream buffer realSize origin)
    (fun result => result.1 = 0 ∧ origin + realSize ≤ stream.length ∧
        result.2.2.consumed = origin + realSize ∧
        result.2.1 = store buffer 0 (fetch stream origin realSize) ∨
      result.1 = -1 ∧ origin ≤ result.2.2.consumed ∧ result.2.2.consumed ≤ origin + realSize)
    ?_ ?_ (realSize, buffer, channel) ?_ (ret, filled, after) returned
  · rintro ⟨toRead, data, before⟩ next reading made
    have passed := read_pass socket stream buffer realSize origin room toRead data before reading
    rw [made] at passed
    exact passed.1
  · rintro ⟨toRead, data, before⟩ ⟨result, got, later⟩ reading made
    have passed := read_pass socket stream buffer realSize origin room toRead data before reading
    rw [made] at passed
    cases passed with
    | inl whole => exact Or.inl whole
    | inr part =>
      refine Or.inr ⟨part.1, ?_⟩
      rw [part.2.1]
      omega
  · refine ⟨Nat.le_refl _, Or.inl rfl, ?_, ?_⟩ <;> simp only [Nat.sub_self, Nat.add_zero]
    · exact start
    · rw [fetch, List.take_zero, store_nil]

/-- Every read returns, as each pass has fewer bytes to go. -/
theorem read_terminates (room : realSize ≤ buffer.length) (channel : Reader) :
    ∃ ret filled after, Returns (readPass socket stream realSize) (realSize, buffer, channel)
      (ret, filled, after) := by
  obtain ⟨⟨ret, filled, after⟩, returned⟩ := terminates_of_measure
    (readPass socket stream realSize) (Reading stream buffer realSize channel.consumed)
    (fun state => state.1)
    (by
      rintro ⟨toRead, data, before⟩ next reading made
      have passed := read_pass socket stream buffer realSize channel.consumed room toRead data
        before reading
      rw [made] at passed
      exact passed)
    (realSize, buffer, channel)
    (by
      refine ⟨Nat.le_refl _, Or.inl rfl, ?_, ?_⟩ <;> simp only [Nat.sub_self, Nat.add_zero]
      rw [fetch, List.take_zero, store_nil])
  exact ⟨ret, filled, after, returned⟩

/-- A call of `read_from_channel_size` that asks for some bytes and has room for them,
both by the size that it names and in its array. -/
structure Request where
  size : Nat
  data : List UInt8
  maxSize : Nat
  positive : 1 ≤ size
  fits : size ≤ maxSize
  room : maxSize ≤ data.length

/-- Its buffer behind the call, if the next bytes of the stream are these. -/
def Request.filled (request : Request) (bytes : List UInt8) : List UInt8 :=
  store request.data 0 bytes

/-- Such a call reads as many bytes as it is asked for. -/
theorem reads_iff (request : Request) (channel after : Reader) (ret : Int)
    (filled : List UInt8) :
    Reads socket stream channel request.size request.data request.maxSize ret filled after ↔
      Returns (readPass socket stream request.size) (request.size, request.data, channel)
        (ret, filled, after) := by
  have fits : ¬ request.maxSize < request.size := Nat.not_lt.mpr request.fits
  simp only [Reads, if_neg fits]

/-- Calls of `read_from_channel_size` in a row, each returning 0, with what their buffers
hold afterwards. -/
inductive AllRead : Reader → List Request → List (List UInt8) → Reader → Prop where
  | nil (channel : Reader) : AllRead channel [] [] channel
  | cons (channel middle after : Reader) (request : Request) (rest : List Request)
      (filled : List UInt8) (others : List (List UInt8))
      (returned : Reads socket stream channel request.size request.data request.maxSize 0 filled
        middle)
      (later : AllRead middle rest others after) :
      AllRead channel (request :: rest) (filled :: others) after

/-- What the buffers of some calls hold if the stream goes on like this. -/
def expected : List Request → List UInt8 → List (List UInt8)
  | [], _ => []
  | request :: rest, bytes =>
    request.filled (bytes.take request.size) :: expected rest (bytes.drop request.size)

/-- The calls read the next bytes of the stream, each from where the one before it has
stopped, and they leave the rest of their buffers alone. -/
theorem all_read (channel after : Reader) (requests : List Request) (buffers : List (List UInt8))
    (read : AllRead socket stream channel requests buffers after) :
    buffers = expected requests (stream.drop channel.consumed) ∧
      after.consumed = channel.consumed + (requests.map Request.size).sum ∧
      (requests = [] ∨ after.consumed ≤ stream.length) := by
  induction read with
  | nil channel => exact ⟨rfl, rfl, Or.inl rfl⟩
  | cons channel middle after request rest filled others returned later inductionHypothesis =>
    rw [reads_iff] at returned
    obtain ⟨same, total, bounded⟩ := inductionHypothesis
    cases read_returned socket stream request.data request.size channel.consumed
      (Nat.le_trans request.fits request.room) channel middle filled 0 rfl returned with
    | inr part => exact absurd part.1 (by decide)
    | inl whole =>
      obtain ⟨-, enough, consumed, got⟩ := whole
      refine ⟨?_, ?_, Or.inr ?_⟩
      · rw [same, consumed, expected, List.drop_drop, got]
        rfl
      · rw [total, consumed, List.map_cons, List.sum_cons, Nat.add_assoc]
      · cases bounded with
        | inl none =>
          subst none
          cases later
          omega
        | inr inside => exact inside

/-- Reads with the sizes of some messages find these messages at the front of a stream. -/
theorem expected_messages (requests : List Request) (messages : List (List UInt8))
    (sizes : requests.map Request.size = messages.map List.length) (rest : List UInt8) :
    expected requests (messages.flatten ++ rest) = List.zipWith Request.filled requests messages := by
  induction requests generalizing messages with
  | nil =>
    cases messages with
    | nil => rfl
    | cons message others => cases sizes
  | cons request later inductionHypothesis =>
    cases messages with
    | nil => cases sizes
    | cons message others =>
      obtain ⟨size, same⟩ := List.cons.inj sizes
      rw [expected, size, List.flatten_cons, List.append_assoc, List.take_left' rfl,
        List.drop_left' rfl, inductionHypothesis others same, List.zipWith_cons_cons]

end Read

/-- What a socket is for: every call returns, has moved all its bytes if it returns 0 and no
more than its own ones if it returns -1, calls in a row move their bytes one behind the
other, and messages are read as they were written. -/
structure Exact (socket : Socket) : Prop where
  writeReturns : ∀ channel data, ∃ ret after, Writes socket channel data ret after
  writeBounded : ∀ channel data ret after, Writes socket channel data ret after →
    ret = 0 ∧ after.stream = channel.stream ++ data ∨
      ret = -1 ∧ ∃ count, count ≤ data.length ∧ after.stream = channel.stream ++ data.take count
  written : ∀ channel messages after, AllWritten socket channel messages after →
    after.stream = channel.stream ++ messages.flatten
  readReturns : ∀ stream channel (request : Request), ∃ ret filled after,
    Reads socket stream channel request.size request.data request.maxSize ret filled after
  readBounded : ∀ stream channel (request : Request) ret filled after,
    Reads socket stream channel request.size request.data request.maxSize ret filled after →
      ret = 0 ∧ channel.consumed + request.size ≤ stream.length ∧
          after.consumed = channel.consumed + request.size ∧
          filled = request.filled (fetch stream channel.consumed request.size) ∨
        ret = -1 ∧ channel.consumed ≤ after.consumed ∧
          after.consumed ≤ channel.consumed + request.size
  read : ∀ stream channel requests buffers after,
    AllRead socket stream channel requests buffers after →
      buffers = expected requests (stream.drop channel.consumed) ∧
        after.consumed = channel.consumed + (requests.map Request.size).sum ∧
        (requests = [] ∨ after.consumed ≤ stream.length)
  arrived : ∀ writer messages after, AllWritten socket writer messages after →
    ∀ rest channel requests buffers final, channel.consumed = writer.stream.length →
      requests.map Request.size = messages.map List.length →
      AllRead socket (after.stream ++ rest) channel requests buffers final →
      buffers = List.zipWith Request.filled requests messages

/-- However a socket cuts the transfers, they are exact. A socket may move less than is
asked for, fail, or be shut down at any call; left out are only those that interrupt
`send` for ever. A pass of either loop moves some bytes or ends it, but for an
interrupted `send`, and of those there are finitely many: that is the measure of both. -/
theorem transfers_exact (socket : Socket) : Exact socket where
  writeReturns channel data := write_terminates socket data channel
  writeBounded channel data ret after := write_returned socket data channel after ret
  written channel messages after := all_written socket channel after messages
  readReturns stream channel request := by
    simp only [reads_iff]
    exact read_terminates socket stream request.data request.size
      (Nat.le_trans request.fits request.room) channel
  readBounded stream channel request ret filled after returned := by
    rw [reads_iff] at returned
    exact read_returned socket stream request.data request.size channel.consumed
      (Nat.le_trans request.fits request.room) channel after filled ret rfl returned
  read stream channel requests buffers after := all_read socket stream channel after requests buffers
  arrived := by
    intro writer messages after written rest channel requests buffers final caughtUp sizes read
    have put := all_written socket writer after messages written
    have got := (all_read socket _ channel final requests buffers read).1
    rw [got, put, caughtUp, List.append_assoc, List.drop_left' rfl]
    exact expected_messages requests messages sizes rest

/-- A socket that sends at most three bytes at a time, is interrupted at its second and its
fifth call of `send`, and receives at most two bytes at a time. -/
def choppySocket : Socket where
  send call requested :=
    if call = 1 ∨ call = 4 then .failed eintr
    else .moved (min requested 3) (Nat.min_le_left ..) fun some => by omega
  recv _ limit :=
    if some : 0 < limit then .moved (min limit 2) (Nat.min_le_left ..) (by omega) else .shutdown
  settled := by
    refine ⟨5, fun call requested failed => ?_⟩
    by_contra late
    have calm : ¬ (call = 1 ∨ call = 4) := by omega
    rw [if_neg calm] at failed
    cases failed

/-- Requests for seven and for five bytes, the first one with room for more. -/
def sevenBytes : Request where
  size := 7
  data := List.replicate 10 0
  maxSize := 9
  positive := by decide
  fits := by decide
  room := by decide

def fiveBytes : Request where
  size := 5
  data := List.replicate 5 99
  maxSize := 5
  positive := by decide
  fits := by decide
  room := by decide

/-- Over this socket a message of seven bytes and one of five are written with seven calls of
`send`, two of them interrupted, and read with seven calls of `recv`, and they arrive whole
although the reads cut them elsewhere. -/
theorem choppySocket_arrives :
    ∃ written buffers read,
      AllWritten choppySocket ⟨0, [], 0⟩ [[1, 2, 3, 4, 5, 6, 7], [8, 9, 10, 11, 12]] written ∧
      written.calls = 7 ∧
      AllRead choppySocket (written.stream ++ [13]) ⟨0, 0, 0⟩ [sevenBytes, fiveBytes] buffers read ∧
      read.calls = 7 ∧ buffers = [[1, 2, 3, 4, 5, 6, 7, 0, 0, 0], [8, 9, 10, 11, 12]] := by
  have first : Writes choppySocket ⟨0, [], 0⟩ [1, 2, 3, 4, 5, 6, 7] 0
      ⟨4, [1, 2, 3, 4, 5, 6, 7], eintr⟩ := ⟨4, rfl⟩
  have second : Writes choppySocket ⟨4, [1, 2, 3, 4, 5, 6, 7], eintr⟩ [8, 9, 10, 11, 12] 0
      ⟨7, [1, 2, 3, 4, 5, 6, 7, 8, 9, 10, 11, 12], eintr⟩ := ⟨3, rfl⟩
  have written := AllWritten.cons _ _ _ _ _ first (.cons _ _ _ _ _ second (.nil _))
  have third : Reads choppySocket [1, 2, 3, 4, 5, 6, 7, 8, 9, 10, 11, 12, 13] ⟨0, 0, 0⟩
      sevenBytes.size sevenBytes.data sevenBytes.maxSize 0 [1, 2, 3, 4, 5, 6, 7, 0, 0, 0]
      ⟨4, 7, 0⟩ := ⟨4, rfl⟩
  have fourth : Reads choppySocket [1, 2, 3, 4, 5, 6, 7, 8, 9, 10, 11, 12, 13] ⟨4, 7, 0⟩
      fiveBytes.size fiveBytes.data fiveBytes.maxSize 0 [8, 9, 10, 11, 12] ⟨7, 12, 0⟩ := ⟨3, rfl⟩
  have read := AllRead.cons _ _ _ _ _ _ _ third (.cons _ _ _ _ _ _ _ fourth (.nil _))
  have whole := (transfers_exact choppySocket).arrived _ _ _ written [13] _ _ _ _ rfl rfl read
  exact ⟨_, _, _, written, rfl, read, rfl, whole.trans (by decide)⟩

/-- `read_from_channel` with room for all of `in_buff_size_` reads that many bytes in
the same loop. -/
theorem readsAll_exact (socket : Socket) (stream data filled : List UInt8)
    (channel after : Reader) (inBuffSize maxSize : Nat) (ret : Int)
    (fits : inBuffSize ≤ maxSize) (room : maxSize ≤ data.length)
    (returned : ReadsAll socket stream channel inBuffSize data maxSize ret filled after) :
    ret = 0 ∧ channel.consumed + inBuffSize ≤ stream.length ∧
        after.consumed = channel.consumed + inBuffSize ∧
        filled = store data 0 (fetch stream channel.consumed inBuffSize) ∨
      ret = -1 ∧ channel.consumed ≤ after.consumed ∧
        after.consumed ≤ channel.consumed + inBuffSize := by
  rw [ReadsAll, if_neg (Nat.not_lt.mpr fits)] at returned
  exact read_returned socket stream data inBuffSize channel.consumed (Nat.le_trans fits room)
    channel after filled ret rfl returned

end ScicosFlex.FlexSim.Transfers
