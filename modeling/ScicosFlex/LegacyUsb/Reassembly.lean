import Mathlib.Data.List.Infix
import ScicosFlex.LegacyUsb.UsbThread

/-!
# Messages cut into packets

A message has a header, a byte with its length, the data, the channel, a checksum and one
trailing byte. Whatever packets the messages are cut into, the thread stays in step with them
(`parsePacket_cut`). It refuses the messages whose length and two more do not fit the
`unsigned char` of the checksum (`checksum_message`).
-/

namespace ScicosFlex.LegacyUsb.Reassembly

open Library.WhileLoops UsbThread

section Messages

/-- A message; the length of its data fits a byte. -/
structure Message where
  data : List UInt8
  short : data.length ≤ 255
  channel : UInt8
  trailing : UInt8

variable (message : Message)

/-- The byte with the length. -/
def Message.len : UInt8 := UInt8.ofNat message.data.length

/-- The sum of the length, the data and the channel modulo 256. -/
def Message.sum : UInt8 :=
  UInt8.ofNat ((message.len :: (message.data ++ [message.channel])).map UInt8.toNat).sum

/-- The bytes of a message. -/
def Message.bytes : List UInt8 :=
  header :: message.len ::
    (message.data ++ [message.channel, message.sum, message.trailing])

/-- The call of `insert_message` for a message. -/
def Message.call : Call := ⟨message.len :: message.data, message.channel⟩

/-- The messages whose checksum the thread accepts: those whose length and two more fit
a byte, and the longest one if its first byte equals its length, for then a single byte
is summed up. -/
def Message.Passes : Prop :=
  message.data.length ≤ 253 ∨ (message.data.length = 255 ∧ message.data.head? = some 255)

instance : Decidable message.Passes := inferInstanceAs (Decidable (_ ∨ _))

/-- The length is kept. -/
theorem len_toNat : message.len.toNat = message.data.length :=
  UInt8.toNat_ofNat_of_lt' (Nat.lt_succ_of_le message.short)

/-- A message has five bytes more than its data. -/
theorem bytes_length : message.bytes.length = message.data.length + 5 := by
  simp [Message.bytes]

/-- `MAX_MESSAGE_LEN` of the channels. -/
def maxMessageLen : Nat := 256

/-- `insert_message` cuts nothing off. -/
theorem call_kept : message.call.message.length ≤ maxMessageLen := by
  have short := message.short
  simp only [Message.call, List.length_cons, maxMessageLen]
  omega

/-- The sum of bytes is the sum of their values modulo 256. -/
theorem sum_bytes (bytes : List UInt8) :
    bytes.foldl (· + ·) 0 = UInt8.ofNat (bytes.map UInt8.toNat).sum := by
  have accumulated (sum : Nat) : bytes.foldl (· + ·) (UInt8.ofNat sum) =
      UInt8.ofNat (sum + (bytes.map UInt8.toNat).sum) := by
    induction bytes generalizing sum with
    | nil => rfl
    | cons byte bytes inductionHypothesis =>
      have next : UInt8.ofNat sum + byte = UInt8.ofNat (sum + byte.toNat) := by
        rw [UInt8.ofNat_add, UInt8.ofNat_toNat]
      rw [List.foldl_cons, next, inductionHypothesis, List.map_cons, List.sum_cons, Nat.add_assoc]
  simpa using accumulated 0

/-- Bytes in the middle of an array. -/
theorem slice_middle (before middle after : List UInt8) :
    slice (before ++ (middle ++ after)) before.length middle.length = some middle := by
  simp [slice]

/-- What the thread finds in front of a message. -/
theorem checksum_steps (buf summed : List UInt8) (len last : UInt8) (count : Nat)
    (length : buf[1]? = some len) (wrapped : (len + 2).toNat = count)
    (cells : slice buf 1 count = some summed) (behind : buf[1 + count]? = some last) :
    checksum buf = some (summed.foldl (· + ·) 0 == last) := by
  simp only [checksum, length, Option.bind_eq_bind, Option.bind_some, wrapped, cells, behind]

/-- How many bytes the thread sums: two more than the data has, in an `unsigned char`. -/
theorem summed_count : (message.len + 2).toNat = (message.data.length + 2) % 256 := by
  rw [UInt8.toNat_add, len_toNat]
  rfl

/-- A message in front of other bytes, with what its checksum sums apart. -/
theorem bytes_split (after : List UInt8) :
    message.bytes ++ after = [header] ++ ((message.len :: (message.data ++ [message.channel])) ++
      (message.sum :: message.trailing :: after)) := by
  simp [Message.bytes]

/-- The checksum of a message is accepted as long as its length and two more fit a byte. -/
theorem checksum_short (after : List UInt8) (fits : message.data.length ≤ 253) :
    checksum (message.bytes ++ after) = some true := by
  have cells := slice_middle [header] (message.len :: (message.data ++ [message.channel]))
    (message.sum :: message.trailing :: after)
  rw [← bytes_split] at cells
  have count : (message.len + 2).toNat =
      (message.len :: (message.data ++ [message.channel])).length := by
    rw [summed_count, Nat.mod_eq_of_lt (by omega)]
    simp
  have behind : (message.bytes ++ after)[1 + (message.len ::
      (message.data ++ [message.channel])).length]? = some message.sum := by
    rw [bytes_split, List.getElem?_append_right (by simp)]
    simp
  rw [checksum_steps _ _ _ _ _ rfl count cells behind, sum_bytes]
  exact congrArg some (beq_self_eq_true message.sum)

/-- Of the longest message one byte is summed: its length is compared with its first data byte. -/
theorem checksum_longest (after : List UInt8) (longest : message.data.length = 255) :
    checksum (message.bytes ++ after) = some (decide (message.data.head? = some 255)) := by
  obtain ⟨first, rest, parts⟩ : ∃ first rest, message.data = first :: rest :=
    List.exists_cons_of_length_pos (by omega)
  have greatest : message.len = 255 := by
    rw [Message.len, longest]
    rfl
  have count : (message.len + 2).toNat = 1 := by rw [summed_count, longest]
  have cells : slice (message.bytes ++ after) 1 1 = some [message.len] := by
    rw [bytes_split]
    exact slice_middle [header] [message.len] _
  have behind : (message.bytes ++ after)[1 + 1]? = some first := by
    simp [Message.bytes, parts]
  have same : message.data.head? = some 255 ↔ 255 = first := by simp [parts, eq_comm]
  rw [checksum_steps _ _ _ _ _ rfl count cells behind, greatest]
  exact congrArg some (decide_eq_decide.mpr same).symm

/-- Of a message with one byte less nothing is summed: its length is compared with zero. -/
theorem checksum_refused (after : List UInt8) (size : message.data.length = 254) :
    checksum (message.bytes ++ after) = some false := by
  have known : message.len = 254 := by
    rw [Message.len, size]
    rfl
  have count : (message.len + 2).toNat = 0 := by rw [summed_count, size]
  have cells : slice (message.bytes ++ after) 1 0 = some [] := by simp [slice, Message.bytes]
  have behind : (message.bytes ++ after)[1 + 0]? = some message.len := rfl
  rw [checksum_steps _ _ _ _ _ rfl count cells behind, known]
  rfl

/-- What the thread finds of the checksum of a message. -/
theorem checksum_message (after : List UInt8) :
    checksum (message.bytes ++ after) = some (decide message.Passes) := by
  have short := message.short
  by_cases fits : message.data.length ≤ 253
  · have passes : message.Passes := .inl fits
    rw [checksum_short message after fits, decide_eq_true passes]
  · by_cases longest : message.data.length = 255
    · have passes : message.Passes ↔ message.data.head? = some 255 := by
        simp [Message.Passes, longest]
      rw [checksum_longest message after longest]
      exact congrArg some (decide_eq_decide.mpr passes).symm
    · have fails : ¬message.Passes := by
        rintro (few | ⟨all, -⟩)
        · exact fits few
        · exact longest all
      rw [checksum_refused message after (by omega), decide_eq_false fails]

/-- A message is inserted with its length, its data and its channel. -/
theorem insertMessage_message (after : List UInt8) :
    insertMessage (message.bytes ++ after) = some message.call := by
  have length : (message.bytes ++ after)[1]? = some message.len := rfl
  have channel : (message.bytes ++ after)[message.data.length + 2]? = some message.channel := by
    simp [Message.bytes]
  have cells := slice_middle [header] (message.len :: message.data)
    (message.channel :: message.sum :: message.trailing :: after)
  have split : message.bytes ++ after = [header] ++ ((message.len :: message.data) ++
      (message.channel :: message.sum :: message.trailing :: after)) := by
    simp [Message.bytes]
  rw [← split] at cells
  simp only [insertMessage, length, Option.bind_eq_bind, Option.bind_some, len_toNat, channel]
  rw [show slice (message.bytes ++ after) 1 (message.data.length + 1) =
    some (message.len :: message.data) from cells]
  rfl

end Messages

section Passes

/-- The start of a message that is gathered in `part_msg`. -/
structure Carries (thread : Thread) (started : List UInt8) : Prop where
  gathered : ∃ old, thread.partMsg = started ++ old
  size : thread.partMsg.length = partMsgSize
  length : thread.partMsgLen = started.length

/-- Nothing, or less than the first message. -/
def Begun (messages : List Message) (started : List UInt8) : Prop :=
  started = [] ∨ ∃ next later, messages = next :: later ∧ started.length < next.bytes.length

/-- The thread has cut a stream into messages, and inserted those that it accepts; it carries
what is left of the stream. -/
def Cut (messages : List Message) (stream : List UInt8) (thread after : Thread) : Prop :=
  ∃ done ahead started, messages = done ++ ahead ∧
    stream = done.flatMap Message.bytes ++ started ∧ Begun ahead started ∧
    Carries after started ∧
    after.calls = thread.calls ++ (done.filter fun message => message.Passes).map Message.call

/-- Bytes are copied behind other bytes. -/
theorem memcpy_behind (front old bytes : List UInt8) (room : bytes.length ≤ old.length) :
    memcpy (front ++ old) front.length bytes =
      some (front ++ bytes ++ old.drop bytes.length) := by
  rw [memcpy, if_pos (by rw [List.length_append]; omega), List.take_left, List.drop_append]
  simp

/-- A message begins here. -/
theorem skip_header (front more : List UInt8) (count : Nat) (inside : front.length < count) :
    skip (front ++ header :: more) count front.length = some front.length := by
  have found : (front ++ header :: more)[front.length]? = some header := by simp
  rw [skip, if_pos inside, found]
  exact if_neg fun other => other rfl

/-- Nothing is left in the packet. -/
theorem parsePass_end (front behind : List UInt8) (thread : Thread) :
    parsePass (front ++ behind) front.length (front.length, thread) =
      .leave (some { thread with partMsgLen := 0 }) := by
  have skipped : skip (front ++ behind) front.length front.length = some front.length := by
    rw [skip, if_neg (Nat.lt_irrefl _)]
  simp only [parsePass, skipped, Nat.le_refl, if_true]

/-- A message begins in the packet, and ends behind it. Its first bytes are copied to
`part_msg`, even a single one, and the packet is done. -/
theorem parsePass_started (front started behind : List UInt8) (next : Message) (thread : Thread)
    (begins : started <+: next.bytes) (some : started ≠ [])
    (short : started.length < next.bytes.length) (room : started.length ≤ thread.partMsg.length) :
    parsePass (front ++ (started ++ behind)) (front.length + started.length)
        (front.length, thread) =
      .leave (.some ⟨started ++ thread.partMsg.drop started.length, started.length,
        thread.calls⟩) := by
  have positive : 0 < started.length := List.length_pos_iff.mpr some
  obtain ⟨rest, whole⟩ := begins
  have first : ∃ more, started = header :: more := by
    cases started with
    | nil => exact absurd rfl some
    | cons byte more => exact ⟨more, by rw [(List.cons.inj whole).1]⟩
  have skipped : skip (front ++ (started ++ behind)) (front.length + started.length)
      front.length = .some front.length := by
    obtain ⟨more, same⟩ := first
    rw [same, List.cons_append]
    exact skip_header front (more ++ behind) _ (by simp)
  have notEnd : ¬front.length + started.length ≤ front.length := by omega
  have part : incomplete (front ++ (started ++ behind)) front.length started.length =
      .some true := by
    rw [incomplete]
    split
    · rfl
    · next long =>
      have second : started[1]? = .some next.len := by
        have known : next.bytes[1]? = .some next.len := rfl
        rwa [← whole, List.getElem?_append_left (by omega)] at known
      have found : (front ++ (started ++ behind))[front.length + 1]? = .some next.len := by
        rw [List.getElem?_append_right (by omega), List.getElem?_append_left (by omega)]
        simpa using second
      rw [bytes_length] at short
      simp [found, len_toNat, short]
  have cells := slice_middle front started behind
  have copied := memcpy_behind [] thread.partMsg started room
  rw [List.nil_append, List.length_nil, List.nil_append] at copied
  simp only [parsePass, skipped, notEnd, if_false, Nat.add_sub_cancel_left, part, cells, copied,
    Option.bind_eq_bind, Option.bind_some]

/-- A message is in the packet as a whole. It is inserted from there, and never copied
to `part_msg`. -/
theorem parsePass_message (front more : List UInt8) (message : Message) (count : Nat)
    (thread : Thread) (passes : message.Passes)
    (inside : front.length + message.bytes.length ≤ count) :
    parsePass (front ++ (message.bytes ++ more)) count (front.length, thread) =
      .again (front.length + message.bytes.length,
        { thread with calls := thread.calls ++ [message.call] }) := by
  have size := bytes_length message
  have skipped : skip (front ++ (message.bytes ++ more)) count front.length =
      some front.length :=
    skip_header front _ count (by omega)
  have notEnd : ¬count ≤ front.length := by omega
  have second : (front ++ (message.bytes ++ more))[front.length + 1]? = some message.len := by
    rw [List.getElem?_append_right (by omega), Nat.add_sub_cancel_left]
    rfl
  have complete : incomplete (front ++ (message.bytes ++ more)) front.length
      (count - front.length) = some false := by
    rw [incomplete, if_neg (by omega), second]
    have long : ¬count - front.length < message.data.length + 5 := by omega
    simp [len_toNat, long]
  have behind : (front ++ (message.bytes ++ more)).drop front.length = message.bytes ++ more :=
    List.drop_left
  have summed := checksum_message message more
  rw [decide_eq_true passes] at summed
  simp only [parsePass, skipped, notEnd, if_false, complete, behind, summed,
    insertMessage_message, second, len_toNat, size]

end Passes

section Packets

/-- Nothing is gathered. -/
theorem carries_nothing (partMsg : List UInt8) (calls : List Call)
    (size : partMsg.length = partMsgSize) : Carries ⟨partMsg, 0, calls⟩ [] :=
  ⟨⟨partMsg, rfl⟩, size, rfl⟩

/-- A stream shorter than its first message. -/
theorem begins_next (next : Message) (later : List Message) (stream : List UInt8)
    (whole : stream <+: (next :: later).flatMap Message.bytes)
    (short : stream.length ≤ next.bytes.length) : stream <+: next.bytes :=
  List.prefix_of_prefix_length_le whole (List.prefix_append _ _) short

/-- A stream as long as its first message or longer. -/
theorem next_begins (next : Message) (later : List Message) (stream : List UInt8)
    (whole : stream <+: (next :: later).flatMap Message.bytes)
    (long : next.bytes.length ≤ stream.length) :
    ∃ rest, stream = next.bytes ++ rest ∧ rest <+: later.flatMap Message.bytes := by
  obtain ⟨rest, rfl⟩ : next.bytes <+: stream :=
    List.prefix_of_prefix_length_le (List.prefix_append _ _) whole long
  exact ⟨rest, rfl, (List.prefix_append_right_inj _).mp whole⟩

/-- Nothing more is cut. -/
theorem cut_nothing (messages : List Message) (thread after : Thread)
    (carries : Carries after []) (calls : after.calls = thread.calls) :
    Cut messages [] thread after :=
  ⟨[], messages, [], rfl, rfl, .inl rfl, carries, by simp [calls]⟩

/-- Messages are cut from a stream, and others from the rest of it. -/
theorem Cut.append (done messages : List Message) (rest : List UInt8)
    (thread middle after : Thread)
    (calls : middle.calls =
      thread.calls ++ (done.filter fun message => message.Passes).map Message.call)
    (cut : Cut messages rest middle after) :
    Cut (done ++ messages) (done.flatMap Message.bytes ++ rest) thread after := by
  obtain ⟨others, ahead, started, rfl, rfl, begun, carries, called⟩ := cut
  refine ⟨done ++ others, ahead, started, by simp, by simp, begun, carries, ?_⟩
  rw [called, calls, List.filter_append, List.map_append, List.append_assoc]

/-- The first message is cut from a stream, and others from the rest of it. -/
theorem Cut.cons (next : Message) (later : List Message) (rest : List UInt8)
    (thread middle after : Thread)
    (calls : middle.calls = thread.calls ++ if next.Passes then [next.call] else [])
    (cut : Cut later rest middle after) :
    Cut (next :: later) (next.bytes ++ rest) thread after := by
  have first : ([next].filter fun message => message.Passes).map Message.call =
      if next.Passes then [next.call] else [] := by
    by_cases passes : next.Passes
    · simp [passes]
    · simp [passes]
  have whole := Cut.append [next] later rest thread middle after (by rw [first, calls]) cut
  simpa using whole

/-- The loop ends where nothing is left in the packet. -/
theorem loop_nothing (messages : List Message) (front behind : List UInt8) (thread : Thread)
    (fuel : Nat) (size : thread.partMsg.length = partMsgSize) :
    ∃ after, loop (parsePass (front ++ behind) front.length) (fuel + 1) (front.length, thread) =
      some (some after) ∧ Cut messages [] thread after := by
  refine ⟨{ thread with partMsgLen := 0 }, ?_, cut_nothing messages thread _
    (carries_nothing _ _ size) rfl⟩
  rw [loop, parsePass_end front behind thread]

/-- The loop cuts the rest of a packet. By induction on the messages ahead; those that
are refused are too long to be in a packet as a whole, so they do not come up here. -/
theorem loop_cut (messages : List Message) (front rest behind : List UInt8) (thread : Thread)
    (fuel : Nat) (whole : rest <+: messages.flatMap Message.bytes) (small : rest.length ≤ 62)
    (size : thread.partMsg.length = partMsgSize) (enough : rest.length ≤ fuel) :
    ∃ after, loop (parsePass (front ++ (rest ++ behind)) (front.length + rest.length)) (fuel + 1)
      (front.length, thread) = some (some after) ∧ Cut messages rest thread after := by
  induction messages generalizing front rest thread fuel with
  | nil =>
    obtain rfl := List.prefix_nil.mp whole
    exact loop_nothing [] front behind thread fuel size
  | cons next later inductionHypothesis =>
    by_cases none : rest = []
    · subst none
      exact loop_nothing _ front behind thread fuel size
    · by_cases short : rest.length < next.bytes.length
      · have begins := begins_next next later rest whole (Nat.le_of_lt short)
        have room : rest.length ≤ thread.partMsg.length := by
          rw [size, partMsgSize]
          omega
        have left := parsePass_started front rest behind next thread begins none short room
        refine ⟨_, by rw [loop, left], [], next :: later, rest, rfl, rfl,
          .inr ⟨next, later, rfl, short⟩, ⟨⟨_, rfl⟩, ?_, rfl⟩, by simp⟩
        rw [← size, List.length_append, List.length_drop]
        omega
      · obtain ⟨more, rfl, wholeLater⟩ := next_begins next later rest whole (Nat.not_lt.mp short)
        have length := bytes_length next
        rw [List.length_append] at small enough
        have passes : next.Passes := .inl (by omega)
        have again := parsePass_message front (more ++ behind) next
          (front.length + (next.bytes ++ more).length) thread passes
          (by rw [List.length_append]; omega)
        obtain ⟨fuel, rfl⟩ : ∃ less, fuel = less + 1 := ⟨fuel - 1, by omega⟩
        obtain ⟨after, ended, cut⟩ := inductionHypothesis (front ++ next.bytes) more
          { thread with calls := thread.calls ++ [next.call] } fuel wholeLater (by omega) size
          (by omega)
        refine ⟨after, ?_, cut.cons next later more thread _ after (by simp [passes])⟩
        rw [loop, List.append_assoc next.bytes, again]
        rw [List.append_assoc, List.length_append, Nat.add_assoc, ← List.length_append] at ended
        exact ended

/-- The smaller one of two numbers that are small. -/
theorem unsignedMin_eq (a b : Nat) (smallA : a < 2 ^ 32) (smallB : b < 2 ^ 32) :
    unsignedMin a b = min a b := by
  rw [unsignedMin, Int.emod_eq_of_lt (by omega) (by omega), Int.emod_eq_of_lt (by omega) (by omega)]
  split <;> omega

/-- Two bytes of a message are gathered, or the second one is taken from the packet. -/
theorem takeLength_carries (content behind started : List UInt8) (thread : Thread)
    (some : content ≠ []) (begun : started ≠ []) (carries : Carries thread started) :
    ∃ front rest middle, content = front ++ rest ∧
      takeLength (content ++ behind) thread = .some (front.length, middle) ∧
      Carries middle (started ++ front) ∧ middle.calls = thread.calls ∧
      2 ≤ (started ++ front).length ∧ (front = [] ∨ (started ++ front).length = 2) := by
  obtain ⟨⟨old, gathered⟩, size, length⟩ := carries
  have positive := List.length_pos_iff.mpr begun
  by_cases single : thread.partMsgLen = 1
  · obtain ⟨first, rest, rfl⟩ := List.exists_cons_of_ne_nil some
    have room : [first].length ≤ old.length := by
      have whole := congrArg List.length gathered
      rw [size, List.length_append, ← length, single, partMsgSize] at whole
      simp only [List.length_singleton]
      omega
    have copied := memcpy_behind started old [first] room
    rw [← gathered, ← length, single] at copied
    refine ⟨[first], rest, { thread with
      partMsg := started ++ [first] ++ old.drop 1, partMsgLen := 2 }, rfl, ?_,
      ⟨⟨_, rfl⟩, ?_, ?_⟩, rfl, ?_, .inr ?_⟩
    · have found : (first :: rest ++ behind)[0]? = .some first := rfl
      rw [takeLength, if_pos single, found]
      simp only [Option.bind_eq_bind, Option.bind_some, copied, single, List.length_singleton]
    · rw [gathered] at size
      simp only [List.length_append, List.length_singleton, List.length_drop] at size room ⊢
      omega
    · simp [← length, single]
    · simp [← length, single]
    · simp [← length, single]
  · refine ⟨[], content, thread, rfl, if_neg single, ?_, rfl, ?_, .inl rfl⟩
    · rw [List.append_nil]
      exact ⟨⟨old, gathered⟩, size, length⟩
    · rw [List.append_nil]
      omega

/-- Bytes of the packet are copied behind what is gathered, as many as are missing or as
there are. Two bytes have to be there already, so that the length is known. -/
theorem concatenate_copies (currPkt started bytes : List UInt8) (count consumed : Nat)
    (thread middle : Thread) (next : Message)
    (taken : takeLength currPkt thread = some (consumed, middle))
    (carries : Carries middle started) (begins : started <+: next.bytes)
    (two : 2 ≤ started.length)
    (copied : unsignedMin (count - consumed) (5 + next.data.length - started.length) =
      bytes.length)
    (cells : slice currPkt consumed bytes.length = some bytes)
    (room : started.length + bytes.length ≤ partMsgSize) :
    ∃ old, (started ++ bytes ++ old).length = partMsgSize ∧
      concatenate currPkt count thread =
        if 5 + next.data.length = started.length + bytes.length then do
          let ok ← checksum (started ++ bytes ++ old)
          if ok then
            let call ← insertMessage (started ++ bytes ++ old)
            some (consumed + bytes.length, ⟨started ++ bytes ++ old, 0, middle.calls ++ [call]⟩)
          else some (consumed + bytes.length, ⟨started ++ bytes ++ old, 0, middle.calls⟩)
        else some (consumed + bytes.length,
          ⟨started ++ bytes ++ old, started.length + bytes.length, middle.calls⟩) := by
  obtain ⟨⟨old, gathered⟩, size, length⟩ := carries
  rw [gathered, List.length_append] at size
  have wide : bytes.length ≤ old.length := by omega
  have second : middle.partMsg[1]? = some next.len := by
    obtain ⟨rest, whole⟩ := begins
    have known : next.bytes[1]? = some next.len := rfl
    rw [gathered, List.getElem?_append_left (by omega)]
    rwa [← whole, List.getElem?_append_left (by omega)] at known
  have memory := memcpy_behind started old bytes wide
  rw [← gathered, ← length] at memory
  rw [← length] at copied ⊢
  refine ⟨old.drop bytes.length, ?_, ?_⟩
  · simp only [List.length_append, List.length_drop]
    omega
  · simp only [concatenate, taken, Option.bind_eq_bind, Option.bind_some, second, len_toNat, copied,
      cells, memory]

/-- How many bytes are copied: all that are left in the packet, or what the message lacks. -/
theorem copied_eq (front rest started : List UInt8) (next : Message)
    (begun : started.length ≤ next.bytes.length) (small : rest.length ≤ 62) :
    unsignedMin ((front ++ rest).length - front.length)
        (5 + next.data.length - started.length) =
      min rest.length (next.bytes.length - started.length) := by
  have size := bytes_length next
  have short := next.short
  have left : ((front ++ rest).length : Int) - front.length = rest.length := by
    rw [List.length_append]
    omega
  have lacking : 5 + (next.data.length : Int) - started.length =
      (next.bytes.length - started.length : Nat) := by
    omega
  rw [left, lacking, unsignedMin_eq _ _ (by omega) (by omega)]

/-- The packet ends before the message, which is gathered further with the next one. -/
theorem concatenate_short (content behind started : List UInt8) (next : Message)
    (thread : Thread) (some : content ≠ []) (small : content.length ≤ 62) (begun : started ≠ [])
    (carries : Carries thread started) (begins : started ++ content <+: next.bytes)
    (short : (started ++ content).length < next.bytes.length) :
    ∃ after, concatenate (content ++ behind) content.length thread =
        .some (content.length, after) ∧
      Carries after (started ++ content) ∧ after.calls = thread.calls := by
  obtain ⟨front, rest, middle, rfl, taken, carriesMore, calls, two, -⟩ :=
    takeLength_carries content behind started thread some begun carries
  have size := bytes_length next
  have limit := next.short
  rw [← List.append_assoc] at begins short ⊢
  rw [List.length_append] at small short
  have copied := copied_eq front rest (started ++ front) next (by omega) (by omega)
  rw [Nat.min_eq_left (by omega)] at copied
  have cells := slice_middle front rest behind
  rw [← List.append_assoc] at cells
  obtain ⟨old, length, gathered⟩ := concatenate_copies _ (started ++ front) rest _ _ thread middle
    next taken carriesMore ((List.prefix_append _ _).trans begins) two copied cells
    (by rw [partMsgSize]; omega)
  rw [if_neg (by omega)] at gathered
  have count : (front ++ rest).length = front.length + rest.length := List.length_append
  refine ⟨⟨started ++ front ++ rest ++ old, (started ++ front).length + rest.length,
    middle.calls⟩, by rw [gathered, count], ⟨⟨old, rfl⟩, length, ?_⟩, calls⟩
  exact List.length_append.symm

/-- The message ends in the packet. It is inserted if its checksum is accepted, and
nothing is carried from there on. -/
theorem concatenate_whole (content behind started rest : List UInt8) (next : Message)
    (thread : Thread) (some : content ≠ []) (small : content.length ≤ 62) (begun : started ≠ [])
    (carries : Carries thread started) (whole : started ++ content = next.bytes ++ rest)
    (short : started.length < next.bytes.length) :
    ∃ front partMsg, content = front ++ rest ∧ partMsg.length = partMsgSize ∧
      concatenate (content ++ behind) content.length thread = .some (front.length,
        ⟨partMsg, 0, thread.calls ++ if next.Passes then [next.call] else []⟩) := by
  obtain ⟨front, tail, middle, rfl, taken, carriesMore, calls, two, length⟩ :=
    takeLength_carries content behind started thread some begun carries
  have size := bytes_length next
  have limit := next.short
  rw [← List.append_assoc] at whole
  have less : (started ++ front).length ≤ next.bytes.length := by
    rcases length with rfl | length
    · rw [List.append_nil]
      exact Nat.le_of_lt short
    · omega
  obtain ⟨fill, filled⟩ : started ++ front <+: next.bytes :=
    List.prefix_of_prefix_length_le (List.prefix_append _ tail)
      (whole ▸ List.prefix_append _ rest) less
  obtain rfl : tail = fill ++ rest := by
    rw [← filled, List.append_assoc (started ++ front) fill] at whole
    exact List.append_cancel_left whole
  have sum := congrArg List.length filled
  rw [List.length_append] at sum
  rw [List.length_append] at small
  have copied := copied_eq front (fill ++ rest) (started ++ front) next less (by omega)
  have enough : (fill ++ rest).length = fill.length + rest.length := List.length_append
  rw [Nat.min_eq_right (by omega),
    show next.bytes.length - (started ++ front).length = fill.length by omega] at copied
  have cells := slice_middle front fill (rest ++ behind)
  have buffer : front ++ (fill ++ (rest ++ behind)) = front ++ (fill ++ rest) ++ behind := by simp
  rw [buffer] at cells
  obtain ⟨old, partMsg, gathered⟩ := concatenate_copies _ (started ++ front) fill _ _ thread middle
    next taken carriesMore ⟨fill, filled⟩ two copied cells (by rw [partMsgSize]; omega)
  rw [if_pos (by omega), filled, checksum_message, insertMessage_message] at gathered
  rw [filled] at partMsg
  refine ⟨front ++ fill, next.bytes ++ old, by simp, partMsg, ?_⟩
  rw [gathered, List.length_append, calls]
  by_cases passes : next.Passes
  · simp [passes]
  · simp [passes]

end Packets

section Runs

/-- A packet: its bytes of the stream, and what fills it up. -/
structure Packet where
  content : List UInt8
  padding : List UInt8
  some : content ≠ []
  size : content.length + padding.length = 62

/-- What is behind the bytes of the stream; the last two bytes hold their number. -/
def Packet.behind (packet : Packet) : List UInt8 :=
  packet.padding ++ [UInt8.ofNat packet.content.length, 0]

/-- The 64 bytes of a packet. -/
def Packet.buf (packet : Packet) : List UInt8 := packet.content ++ packet.behind

/-- The number of bytes is read. -/
theorem pktBytes_buf (packet : Packet) : pktBytes packet.buf = some packet.content.length := by
  have size := packet.size
  have cells : packet.buf = packet.content ++ packet.padding ++
      [UInt8.ofNat packet.content.length, 0] := by
    simp [Packet.buf, Packet.behind]
  have low : packet.buf[62]? = some (UInt8.ofNat packet.content.length) := by
    rw [cells, List.getElem?_append_right (by simp [size])]
    simp [size]
  have high : packet.buf[63]? = some 0 := by
    rw [cells, List.getElem?_append_right (by simp [size])]
    simp [size]
  have count : (UInt8.ofNat packet.content.length).toNat = packet.content.length :=
    UInt8.toNat_ofNat_of_lt' (Nat.lt_of_le_of_lt (Nat.le_add_right _ _) (by rw [size]; decide))
  have limit : ¬62 < packet.content.length := by omega
  simp [pktBytes, low, high, count, limit]

/-- A packet when nothing is gathered. -/
theorem parsePacket_fresh (packet : Packet) (thread : Thread) (nothing : thread.partMsgLen = 0) :
    parsePacket packet.buf thread = (loop (parsePass packet.buf packet.content.length)
      (packet.content.length + 1) (0, thread)).join := by
  simp only [parsePacket, pktBytes_buf, Option.bind_eq_bind, Option.bind_some, nothing,
    Nat.lt_irrefl, if_false]

/-- A packet when a part of a message is gathered. -/
theorem parsePacket_begun (packet : Packet) (thread middle : Thread) (consumed : Nat)
    (begun : 0 < thread.partMsgLen)
    (gathered : concatenate packet.buf packet.content.length thread = some (consumed, middle)) :
    parsePacket packet.buf thread = if consumed = packet.content.length then some middle
      else (loop (parsePass packet.buf packet.content.length)
        (packet.content.length + 1) (consumed, middle)).join := by
  simp only [parsePacket, pktBytes_buf, Option.bind_eq_bind, Option.bind_some, begun, if_true,
    gathered]

/-- A packet is cut, whatever of a message the thread carries: first that message is
completed, and the loop cuts what is left. -/
theorem parsePacket_cut (ahead : List Message) (started : List UInt8) (packet : Packet)
    (thread : Thread) (begun : Begun ahead started) (carries : Carries thread started)
    (whole : started ++ packet.content <+: ahead.flatMap Message.bytes) :
    ∃ after, parsePacket packet.buf thread = some after ∧
      Cut ahead (started ++ packet.content) thread after := by
  have small : packet.content.length ≤ 62 := packet.size ▸ Nat.le_add_right _ _
  have length := carries.length
  by_cases fresh : started = []
  · subst fresh
    obtain ⟨after, ended, cut⟩ := loop_cut ahead [] packet.content packet.behind thread
      packet.content.length whole small carries.size (Nat.le_refl _)
    rw [List.nil_append, List.length_nil, Nat.zero_add] at ended
    refine ⟨after, ?_, cut⟩
    rw [parsePacket_fresh packet thread length]
    exact congrArg Option.join ended
  · have gathering : 0 < thread.partMsgLen := by
      rw [length]
      exact List.length_pos_iff.mpr fresh
    obtain ⟨next, later, rfl, short⟩ := begun.resolve_left fresh
    by_cases more : (started ++ packet.content).length < next.bytes.length
    · have begins := begins_next next later _ whole (Nat.le_of_lt more)
      obtain ⟨after, gathered, carried, calls⟩ := concatenate_short packet.content packet.behind
        started next thread packet.some small fresh carries begins more
      refine ⟨after, ?_, [], next :: later, _, rfl, rfl, .inr ⟨next, later, rfl, more⟩, carried,
        by simp [calls]⟩
      rw [parsePacket_begun packet thread after _ gathering gathered, if_pos rfl]
    · obtain ⟨rest, parts, wholeLater⟩ := next_begins next later _ whole (Nat.not_lt.mp more)
      obtain ⟨front, partMsg, split, size, gathered⟩ := concatenate_whole packet.content
        packet.behind started rest next thread packet.some small fresh carries parts short
      have parsed := parsePacket_begun packet thread _ _ gathering gathered
      have sum := congrArg List.length split
      rw [List.length_append] at sum
      rw [parts, parsed]
      by_cases last : rest = []
      · subst last
        rw [if_pos (by rw [sum, List.length_nil, Nat.add_zero])]
        exact ⟨_, rfl, Cut.cons next later [] thread _ _ rfl
          (cut_nothing later _ _ (carries_nothing _ _ size) rfl)⟩
      · have positive := List.length_pos_iff.mpr last
        rw [if_neg (by omega)]
        obtain ⟨after, ended, cut⟩ := loop_cut later front rest packet.behind
          ⟨partMsg, 0, thread.calls ++ if next.Passes then [next.call] else []⟩
          packet.content.length wholeLater (by omega) size (by omega)
        rw [← List.append_assoc, ← split, ← sum] at ended
        exact ⟨after, congrArg Option.join ended, Cut.cons next later rest thread _ after rfl cut⟩

/-- The stream in some packets. -/
def received (packets : List Packet) : List UInt8 := packets.flatMap Packet.content

/-- The packets as they are read, 64 bytes each. -/
def reads (packets : List Packet) : List (Int × List UInt8) :=
  packets.map fun packet => (64, packet.buf)

/-- Packets are cut one after the other. By induction on the packets, each of which
begins with what the one before has left over. -/
theorem usbThread_cut (messages : List Message) (stream : List UInt8) (packets : List Packet)
    (start thread : Thread) (cut : Cut messages stream start thread)
    (whole : stream ++ received packets <+: messages.flatMap Message.bytes) :
    ∃ after, usbThread thread (reads packets) = some after ∧
      Cut messages (stream ++ received packets) start after := by
  induction packets generalizing stream thread with
  | nil => exact ⟨thread, rfl, by simpa [received] using cut⟩
  | cons packet packets inductionHypothesis =>
    have split : stream ++ received (packet :: packets) =
        stream ++ packet.content ++ received packets := by
      simp [received]
    rw [split] at whole ⊢
    obtain ⟨done, ahead, started, rfl, rfl, begun, carries, calls⟩ := cut
    have first : started ++ packet.content <+: ahead.flatMap Message.bytes := by
      have prefixed := (List.prefix_append _ (received packets)).trans whole
      rw [List.append_assoc, List.flatMap_append] at prefixed
      exact (List.prefix_append_right_inj _).mp prefixed
    obtain ⟨middle, parsed, cutHere⟩ := parsePacket_cut ahead started packet thread begun carries
      first
    have cutMore := Cut.append done ahead _ start thread middle calls cutHere
    rw [← List.append_assoc] at cutMore
    obtain ⟨after, ran, cutAll⟩ := inductionHypothesis _ middle cutMore whole
    refine ⟨after, ?_, cutAll⟩
    have pass : masterPass thread (64, packet.buf) = some middle := parsed
    rw [reads, List.map_cons, usbThread, List.foldlM_cons, pass]
    exact ran

/-- The messages that are complete within the first `count` bytes of the stream. -/
def completed : List Message → Nat → List Message
  | [], _ => []
  | message :: messages, count =>
    if message.bytes.length ≤ count then
      message :: completed messages (count - message.bytes.length)
    else []

/-- The messages that are cut are the complete ones. -/
theorem completed_eq (done ahead : List Message) (started : List UInt8)
    (begun : Begun ahead started) :
    completed (done ++ ahead) (done.flatMap Message.bytes ++ started).length = done := by
  induction done with
  | nil =>
    rcases begun with rfl | ⟨next, later, rfl, short⟩
    · cases ahead with
      | nil => rfl
      | cons next later =>
        rw [List.nil_append, completed, if_neg]
        simp [bytes_length]
    · rw [List.nil_append, completed, if_neg (by simpa using short)]
  | cons message done inductionHypothesis =>
    have split : ((message :: done).flatMap Message.bytes ++ started).length =
        message.bytes.length + (done.flatMap Message.bytes ++ started).length := by
      simp
    rw [List.cons_append, completed, split, if_pos (Nat.le_add_right _ _),
      Nat.add_sub_cancel_left, inductionHypothesis]

/-- `part_msg`, with anything in it. -/
structure PartMsg where
  cells : List UInt8
  size : cells.length = partMsgSize

/-- The thread parses all packets, without an access outside of an array, and inserts every
message that is complete, once and in order. -/
def Reassembles (partMsg : PartMsg) (messages : List Message) (packets : List Packet) : Prop :=
  ∃ after, usbThread ⟨partMsg.cells, 0, []⟩ (reads packets) = some after ∧
    after.calls = (completed messages (received packets).length).map Message.call

/-- The thread inserts the complete messages that it accepts, whatever the packets. A
message that is refused is left behind all the same, so the thread stays in step. -/
theorem usbThread_accepted (partMsg : PartMsg) (messages : List Message) (packets : List Packet)
    (cut : received packets <+: messages.flatMap Message.bytes) :
    ∃ after, usbThread ⟨partMsg.cells, 0, []⟩ (reads packets) = some after ∧
      after.calls = ((completed messages (received packets).length).filter fun message =>
        message.Passes).map Message.call := by
  have start : Cut messages [] ⟨partMsg.cells, 0, []⟩ ⟨partMsg.cells, 0, []⟩ :=
    cut_nothing messages _ _ (carries_nothing _ _ partMsg.size) rfl
  obtain ⟨after, ran, done, ahead, started, rfl, stream, begun, -, calls⟩ :=
    usbThread_cut messages [] packets _ _ start cut
  rw [List.nil_append] at stream calls
  refine ⟨after, ran, ?_⟩
  rw [stream, completed_eq done ahead started begun, calls]

/-- Every complete message has to be accepted: its data have at most 253 bytes, or they
have 255 bytes and the first one is 255. The packets may cut the messages anywhere, and
the last one may be incomplete. The checksum goes over the length and two more bytes, a
number that is kept in a byte and starts again behind 255; the invariant is how much of
which message has been parsed. -/
theorem reassembles_iff (partMsg : PartMsg) (messages : List Message) (packets : List Packet)
    (cut : received packets <+: messages.flatMap Message.bytes) :
    Reassembles partMsg messages packets ↔
      ∀ message ∈ completed messages (received packets).length, message.Passes := by
  obtain ⟨after, ran, calls⟩ := usbThread_accepted partMsg messages packets cut
  constructor
  · rintro ⟨other, again, expected⟩
    obtain rfl := Option.some.inj (ran.symm.trans again)
    have lengths := congrArg List.length (calls.symm.trans expected)
    rw [List.length_map, List.length_map] at lengths
    intro message member
    exact of_decide_eq_true (List.length_filter_eq_length_iff.mp lengths message member)
  · intro accepted
    refine ⟨after, ran, ?_⟩
    rw [calls, List.filter_eq_self.mpr fun message member =>
      decide_eq_true (accepted message member)]

/-- A message whose data and trailing byte look like headers, and one that is longer
than a packet. -/
def shortMessage : Message := ⟨[header, 1, header], by decide, 3, header⟩
def wideMessage : Message := ⟨List.replicate 70 header, by decide, 5, 0⟩

/-- The two messages and a third one. -/
def threeMessages : List Message := [shortMessage, wideMessage, shortMessage]

/-- Packets with some of their bytes: the header of the first one, the rest of it with two
bytes of the second one, 62 bytes more of that, and its end with four bytes of the third. -/
def fourPackets : List Packet :=
  let stream := threeMessages.flatMap Message.bytes
  [⟨stream.take 1, List.replicate 61 0, by decide, by decide⟩,
    ⟨(stream.drop 1).take 9, List.replicate 53 0, by decide, by decide⟩,
    ⟨(stream.drop 10).take 62, [], by decide, by decide⟩,
    ⟨(stream.drop 72).take 15, List.replicate 47 0, by decide, by decide⟩]

/-- The first two messages are put together out of the four packets. -/
theorem fourPackets_reassembled :
    Reassembles ⟨List.replicate 300 0, List.length_replicate⟩ threeMessages fourPackets ∧
      completed threeMessages (received fourPackets).length = [shortMessage, wideMessage] := by
  have listed : completed threeMessages (received fourPackets).length =
      [shortMessage, wideMessage] := rfl
  refine ⟨(reassembles_iff _ _ _ ⟨(threeMessages.flatMap Message.bytes).drop 87, by decide +kernel⟩).mpr ?_,
    listed⟩
  rw [listed]
  decide

/-- A packet full of zeros. -/
def zeroPacket : Packet where
  content := List.replicate 62 0
  padding := []
  some := List.cons_ne_nil _ _
  size := by rw [List.length_replicate, List.length_nil]

/-- A message with 254 bytes of data. -/
def longMessage : Message where
  data := List.replicate 254 0
  short := by rw [List.length_replicate]; decide
  channel := 0
  trailing := 0

/-- The message in five packets. -/
def longPackets : List Packet :=
  [⟨header :: 254 :: List.replicate 60 0, [], List.cons_ne_nil _ _, by
      rw [List.length_cons, List.length_cons, List.length_replicate, List.length_nil]⟩,
    zeroPacket, zeroPacket, zeroPacket,
    ⟨List.replicate 8 0 ++ [0, 254, 0], List.replicate 51 0, List.cons_ne_nil _ _, by
      rw [List.length_append, List.length_replicate, List.length_replicate]; rfl⟩]

/-- It is dropped. -/
theorem long_message_dropped :
    ¬Reassembles ⟨List.replicate 300 0, List.length_replicate⟩ [longMessage] longPackets := by
  have length : longMessage.data.length = 254 := List.length_replicate
  have data : longMessage.data = List.replicate 254 0 := rfl
  have len : longMessage.len = 254 := by
    rw [Message.len, length]
    rfl
  have sum : longMessage.sum = 254 := by
    rw [Message.sum, len, data, List.map_cons, List.map_append, List.map_replicate, List.sum_cons,
      List.sum_append, List.sum_replicate]
    rfl
  have zeros : List.replicate 60 (0 : UInt8) ++ (List.replicate 62 0 ++ (List.replicate 62 0 ++
      (List.replicate 62 0 ++ List.replicate 8 0))) = List.replicate 254 0 := by
    simp only [List.replicate_append_replicate]
  have stream : received longPackets = longMessage.bytes := by
    rw [Message.bytes, sum, len, data, ← zeros]
    simp only [received, longPackets, zeroPacket, List.flatMap_cons, List.flatMap_nil,
      List.append_nil, List.cons_append, List.append_assoc]
    rfl
  have whole : received longPackets <+: [longMessage].flatMap Message.bytes := by
    rw [stream, List.flatMap_singleton]
  rintro ⟨after, ran, expected⟩
  obtain ⟨other, again, calls⟩ := usbThread_accepted _ _ _ whole
  obtain rfl := Option.some.inj (ran.symm.trans again)
  have listed : completed [longMessage] (received longPackets).length = [longMessage] := by
    rw [stream, completed, if_pos (Nat.le_refl _), completed]
  have fails : ¬longMessage.Passes := by
    rw [Message.Passes, length]
    omega
  rw [expected, listed, List.filter_cons_of_neg (by simpa using fails)] at calls
  cases calls

end Runs

end ScicosFlex.LegacyUsb.Reassembly
