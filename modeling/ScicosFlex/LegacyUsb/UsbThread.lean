import ScicosFlex.Library.WhileLoops

/-!
# The reading thread of the old USB link

`usb_thread` of `scicos_usb.c` reads packets of 64 bytes from the link and cuts messages out
of the bytes in them. A message that ends in a later packet is gathered in `part_msg`.

An access outside of an array is undefined, here `none`.
-/

namespace ScicosFlex.LegacyUsb.UsbThread

open Library.WhileLoops

/-- The first byte of a message. -/
def header : UInt8 := 0xAA

/-- The size of `part_msg`. -/
def partMsgSize : Nat := 300

/-- `count` bytes of an array. -/
def slice (array : List UInt8) (start count : Nat) : Option (List UInt8) :=
  if start + count ≤ array.length then some ((array.drop start).take count) else none

/-- `memcpy(array + start, bytes, ...)`. -/
def memcpy (array : List UInt8) (start : Nat) (bytes : List UInt8) : Option (List UInt8) :=
  if start + bytes.length ≤ array.length then
    some (array.take start ++ bytes ++ array.drop (start + bytes.length))
  else none

/-- `checksum(buf)`. `len` is an `unsigned char`. -/
def checksum (buf : List UInt8) : Option Bool := do
  let length ← buf[1]?
  let len : UInt8 := length + 2
  let summed ← slice buf 1 len.toNat
  let last ← buf[1 + len.toNat]?
  some (summed.foldl (· + ·) 0 == last)

/-- A call of `insert_message`: the bytes, and the channel. -/
structure Call where
  message : List UInt8
  channel : UInt8
  deriving DecidableEq

/-- `insert_message(buf + 1, len + 1, ch)`, for `len = buf[1]` and `ch = buf[len + 2]`. -/
def insertMessage (buf : List UInt8) : Option Call := do
  let len ← buf[1]?
  let ch ← buf[len.toNat + 2]?
  let message ← slice buf 1 (len.toNat + 1)
  some ⟨message, ch⟩

/-- What the thread keeps from packet to packet, and the calls so far. -/
structure Thread where
  partMsg : List UInt8
  partMsgLen : Nat
  calls : List Call
  deriving DecidableEq

/-- `pkt_bytes`: the last two bytes of a packet, but 62 at most. -/
def pktBytes (currPkt : List UInt8) : Option Nat := do
  let low ← currPkt[62]?
  let high ← currPkt[63]?
  let count := low.toNat + 256 * high.toNat
  some (if 62 < count then 62 else count)

/-- `_FLEX_USB_MIN` of an `int` and an `unsigned int`: both are unsigned. -/
def unsignedMin (a b : Int) : Nat :=
  if a % 2 ^ 32 < b % 2 ^ 32 then (a % 2 ^ 32).toNat else (b % 2 ^ 32).toNat

/-- The second byte of a message, when only the first one is gathered. -/
def takeLength (currPkt : List UInt8) (thread : Thread) : Option (Nat × Thread) :=
  if thread.partMsgLen = 1 then do
    let length ← currPkt[0]?
    let partMsg ← memcpy thread.partMsg 1 [length]
    some (1, { thread with partMsg := partMsg, partMsgLen := thread.partMsgLen + 1 })
  else some (0, thread)

/-- The bytes of a packet that belong to a message begun before: how many are consumed. -/
def concatenate (currPkt : List UInt8) (pktBytes : Nat) (thread : Thread) :
    Option (Nat × Thread) := do
  let (consumed, thread) ← takeLength currPkt thread
  let length ← thread.partMsg[1]?
  let copiedBytes := unsignedMin (pktBytes - consumed) (5 + length.toNat - thread.partMsgLen)
  let bytes ← slice currPkt consumed copiedBytes
  let partMsg ← memcpy thread.partMsg thread.partMsgLen bytes
  if 5 + length.toNat = thread.partMsgLen + copiedBytes then
    let ok ← checksum partMsg
    if ok then
      let call ← insertMessage partMsg
      some (consumed + copiedBytes, ⟨partMsg, 0, thread.calls ++ [call]⟩)
    else some (consumed + copiedBytes, ⟨partMsg, 0, thread.calls⟩)
  else some (consumed + copiedBytes, ⟨partMsg, thread.partMsgLen + copiedBytes, thread.calls⟩)

/-- The loop that searches for the first byte of a message. -/
def skip (currPkt : List UInt8) (pktBytes consumed : Nat) : Option Nat :=
  if consumed < pktBytes then
    match currPkt[consumed]? with
    | none => none
    | some byte => if byte ≠ header then skip currPkt pktBytes (consumed + 1) else some consumed
  else some consumed
termination_by pktBytes - consumed

/-- `len <= 2 || curr_pkt[consumed + 1] + 5 > len`: the message is incomplete. -/
def incomplete (currPkt : List UInt8) (consumed len : Nat) : Option Bool :=
  if len ≤ 2 then some true
  else do
    let length ← currPkt[consumed + 1]?
    some (decide (len < length.toNat + 5))

/-- A pass of the loop over a packet; the state is `consumed` and what the thread keeps. -/
def parsePass (currPkt : List UInt8) (pktBytes : Nat) (state : Nat × Thread) :
    Pass (Nat × Thread) (Option Thread) :=
  let thread := state.2
  match skip currPkt pktBytes state.1 with
  | none => .leave none
  | some consumed =>
    if pktBytes ≤ consumed then .leave (some { thread with partMsgLen := 0 })
    else
      let len := pktBytes - consumed
      match incomplete currPkt consumed len with
      | none => .leave none
      | some true => .leave (do
          let bytes ← slice currPkt consumed len
          let partMsg ← memcpy thread.partMsg 0 bytes
          some ⟨partMsg, len, thread.calls⟩)
      | some false =>
        match checksum (currPkt.drop consumed) with
        | none => .leave none
        | some false => .again (consumed + 1, thread)
        | some true =>
          match insertMessage (currPkt.drop consumed), currPkt[consumed + 1]? with
          | some call, some length =>
            .again (consumed + (length.toNat + 5), { thread with calls := thread.calls ++ [call] })
          | _, _ => .leave none

/-- A packet is parsed. Every pass consumes a byte, so that the passes are
enough (`loop_ends`). -/
def parsePacket (currPkt : List UInt8) (thread : Thread) : Option Thread := do
  let count ← pktBytes currPkt
  if 0 < thread.partMsgLen then
    let (consumed, gathered) ← concatenate currPkt count thread
    if consumed = count then some gathered
    else (loop (parsePass currPkt count) (count + 1) (consumed, gathered)).join
  else (loop (parsePass currPkt count) (count + 1) (0, thread)).join

/-- A pass of the master loop: what `usb_bulk_read` returned, and `buf`, which holds one
packet. A read that fails is left out. -/
def masterPass (thread : Thread) (read : Int × List UInt8) : Option Thread :=
  if read.1 < 1 then some thread
  else if read.1 % 64 ≠ 0 then some thread
  else parsePacket read.2 thread

/-- `usb_thread`, up to the last of some reads. -/
def usbThread (thread : Thread) (reads : List (Int × List UInt8)) : Option Thread :=
  reads.foldlM masterPass thread

/-- The search goes on from where it stands. -/
theorem skip_le (currPkt : List UInt8) (pktBytes consumed found : Nat)
    (skipped : skip currPkt pktBytes consumed = some found) : consumed ≤ found := by
  fun_induction skip currPkt pktBytes consumed with
  | case1 => cases skipped
  | case2 _ _ _ _ _ inductionHypothesis =>
    exact Nat.le_of_succ_le (inductionHypothesis skipped)
  | case3 => exact Nat.le_of_eq (Option.some.inj skipped)
  | case4 => exact Nat.le_of_eq (Option.some.inj skipped)

/-- A pass that goes on has consumed a byte, so as many passes as there are bytes are enough. -/
theorem parsePass_again (currPkt : List UInt8) (pktBytes : Nat) (state next : Nat × Thread)
    (stays : parsePass currPkt pktBytes state = .again next) :
    state.1 < pktBytes ∧ state.1 < next.1 := by
  rw [parsePass] at stays
  cases skipped : skip currPkt pktBytes state.1 with
  | none => simp [skipped] at stays
  | some consumed =>
    have further := skip_le currPkt pktBytes state.1 consumed skipped
    simp only [skipped] at stays
    split at stays
    · cases stays
    · next inside =>
      split at stays
      · cases stays
      · cases stays
      · split at stays
        · cases stays
        · cases stays
          exact ⟨by omega, Nat.lt_succ_of_le further⟩
        · split at stays
          · cases stays
            refine ⟨by omega, ?_⟩
            dsimp only
            omega
          · cases stays

/-- The loop over a packet ends, whatever is in the packet. -/
theorem loop_ends (currPkt : List UInt8) (pktBytes : Nat) (state : Nat × Thread) :
    ∃ result, loop (parsePass currPkt pktBytes) (pktBytes + 1) state = some result := by
  suffices enough : ∀ fuel, ∀ state : Nat × Thread, pktBytes < fuel + state.1 → 0 < fuel →
      ∃ result, loop (parsePass currPkt pktBytes) fuel state = some result from
    enough (pktBytes + 1) state (by omega) (Nat.succ_pos _)
  intro fuel
  induction fuel with
  | zero => exact fun _ _ none => absurd none (Nat.lt_irrefl 0)
  | succ fuel inductionHypothesis =>
    intro state enough _
    rw [loop]
    cases made : parsePass currPkt pktBytes state with
    | leave result => exact ⟨result, rfl⟩
    | again next =>
      obtain ⟨inside, further⟩ := parsePass_again currPkt pktBytes state next made
      by_cases last : fuel = 0
      · omega
      · exact inductionHypothesis next (by omega) (Nat.pos_of_ne_zero last)

end ScicosFlex.LegacyUsb.UsbThread
