import Mathlib.Data.BitVec
import ScicosFlex.Library.CircularBuffer
import ScicosFlex.Library.RunningSum

/-!
# The packet on the USB link

`struct flex_usb_packet_t` of `flex_usb_frame.h`, which the library on the PC and
the firmware of the PIC18 bridge both include, and its 64 bytes under a compiler
that lays bit-fields out low bit first: the four header bytes hold the checksum,
start and type, the fragment fields, and the length. `checksum` is the byte sum
of `flex_usb.c`; the firmware writes the same sum as a loop over its buffer.
-/

namespace ScicosFlex.Usb

open Library.RunningSum

abbrev Byte := BitVec 8

/-- Byte memory addressed from a pointer on. -/
abbrev Memory := Nat → Byte

/-- The 64 bytes of one packet. -/
abbrev Frame := Fin 64 → Byte

namespace Packet

/-- `FLEX_USB_HEADER_START`. -/
def headerStart : BitVec 5 := 0x15

/-- `FLEX_USB_PACKET_PAYLOAD_SIZE`. -/
def packetPayloadSize : Nat := 60

/-- `enum flex_usb_header_type_t`, as values of the three-bit type field. -/
def headerCommand : BitVec 3 := 0x01
def headerData : BitVec 3 := 0x02
def headerAck : BitVec 3 := 0x03

/-- `enum flex_usb_command_type_t`. -/
def commandConnect : BitVec 16 := 0x0001
def commandDisconnect : BitVec 16 := 0x0002

/-- `struct flex_usb_packet_t`. -/
structure FlexUsbPacket where
  crc : BitVec 8
  start : BitVec 5
  type : BitVec 3
  more : BitVec 1
  seq : BitVec 4
  reserved1 : BitVec 3
  reserved2 : BitVec 2
  length : BitVec 6
  payload : Fin 60 → Byte

/-- The bytes of a packet, each header byte filled from its low bit on. -/
def bytes (packet : FlexUsbPacket) : Frame := fun position =>
  if position.val = 0 then packet.crc
  else if position.val = 1 then packet.type ++ packet.start
  else if position.val = 2 then (packet.reserved1 ++ packet.seq) ++ packet.more
  else if position.val = 3 then packet.length ++ packet.reserved2
  else packet.payload ⟨position.val - 4, by omega⟩

/-- The fields a packet structure shows on given bytes. -/
def ofBytes (frame : Frame) : FlexUsbPacket :=
  { crc := frame 0
    start := (frame 1).extractLsb' 0 5
    type := (frame 1).extractLsb' 5 3
    more := (frame 2).extractLsb' 0 1
    seq := (frame 2).extractLsb' 1 4
    reserved1 := (frame 2).extractLsb' 5 3
    reserved2 := (frame 3).extractLsb' 0 2
    length := (frame 3).extractLsb' 2 6
    payload := fun position => frame ⟨position.val + 4, by omega⟩ }

/-- The memory behind a pointer to a packet. -/
def memory (frame : Frame) : Memory := fun cell => if bound : cell < 64 then frame ⟨cell, bound⟩ else 0

/-- `checksum(buffer, len)`: `while (len-- > 0) sum += *(buffer++);`. -/
def checksum (buffer : Memory) (len : Nat) : Byte := sumLoop buffer len 0 0

/-- The firmware's loop `for (sum = 0, i = 1; i < 64; i++) sum += buffer[i];`. -/
def frameSum (frame : Frame) : Byte := sumLoop (memory frame) 63 1 0

/-- The low part of two adjacent fields. -/
theorem low_field {high low : Nat} (upper : BitVec high) (lower : BitVec low) :
    (upper ++ lower).extractLsb' 0 low = lower := by
  rw [BitVec.extractLsb'_append_eq_of_add_le (by omega), BitVec.extractLsb'_eq_self]

/-- The high part of two adjacent fields. -/
theorem high_field {high low : Nat} (upper : BitVec high) (lower : BitVec low) :
    (upper ++ lower).extractLsb' low high = upper := by
  rw [BitVec.extractLsb'_append_eq_of_le (Nat.le_refl _), Nat.sub_self, BitVec.extractLsb'_eq_self]

/-- The middle one of three adjacent fields. -/
theorem middle_field {high middle low : Nat} (upper : BitVec high) (center : BitVec middle)
    (lower : BitVec low) :
    ((upper ++ center) ++ lower).extractLsb' low middle = center := by
  rw [BitVec.extractLsb'_append_eq_of_le (Nat.le_refl _), Nat.sub_self, low_field]

/-- The highest one of three adjacent fields. -/
theorem top_field {high middle low : Nat} (upper : BitVec high) (center : BitVec middle)
    (lower : BitVec low) :
    ((upper ++ center) ++ lower).extractLsb' (low + middle) high = upper := by
  rw [BitVec.extractLsb'_append_eq_of_le (by omega), Nat.add_sub_cancel_left, high_field]

/-- Fields written into a packet are the fields read back. -/
theorem ofBytes_bytes (packet : FlexUsbPacket) : ofBytes (bytes packet) = packet := by
  obtain ⟨crc, start, type, more, seq, reserved1, reserved2, length, payload⟩ := packet
  have payloadBack : (fun position : Fin 60 => bytes
      ⟨crc, start, type, more, seq, reserved1, reserved2, length, payload⟩
      ⟨position.val + 4, by omega⟩) = payload := by
    funext position
    simp [bytes]
  simp only [ofBytes, FlexUsbPacket.mk.injEq, payloadBack, and_true]
  exact ⟨rfl, low_field type start, high_field type start, low_field (reserved1 ++ seq) more,
    middle_field reserved1 seq more, top_field reserved1 seq more, low_field length reserved2,
    high_field length reserved2⟩

/-- The sum of the library and the loop of the firmware agree on every packet:
both add the bytes 1 to 63. -/
theorem checksum_eq_frameSum (frame : Frame) :
    checksum (fun cell => memory frame (cell + 1)) 63 = frameSum frame := by
  have shifted (count position : Nat) (sum : Byte) :
      sumLoop (fun cell => memory frame (cell + 1)) count position sum =
        sumLoop (memory frame) count (position + 1) sum := by
    induction count generalizing position sum with
    | zero => rfl
    | succ count inductionHypothesis => exact inductionHypothesis _ _
  exact shifted 63 0 0

/-- The checksum byte itself is not part of the sum. -/
theorem frameSum_congr (frame other : Frame)
    (agree : ∀ position : Fin 64, position ≠ 0 → frame position = other position) :
    frameSum frame = frameSum other := by
  refine sumLoop_congr _ _ _ _ _ fun cell above below => ?_
  have bound : cell < 64 := by omega
  simp only [memory, bound, dif_pos]
  exact agree ⟨cell, bound⟩ (by intro same; have := congrArg Fin.val same; simp at this; omega)

/-- A change of one summed byte to another value changes the sum. -/
theorem frameSum_detects (frame other : Frame) (changed : Fin 64) (summed : changed ≠ 0)
    (differs : frame changed ≠ other changed)
    (agree : ∀ position, position ≠ changed → frame position = other position) :
    frameSum frame ≠ frameSum other := by
  intro same
  have positive : changed.val ≠ 0 := fun zero => summed (Fin.ext zero)
  have shift := sumLoop_change (memory frame) (memory other) 63 1 changed.val 0 (by omega)
    (by omega) (by
      intro cell distinct
      by_cases bound : cell < 64
      · simp only [memory, bound, dif_pos]
        exact agree ⟨cell, bound⟩ fun equal => distinct (congrArg Fin.val equal)
      · simp [memory, bound])
  have difference : memory other changed.val - memory frame changed.val = 0 := by
    have unchanged : frameSum frame = frameSum frame +
        (memory other changed.val - memory frame changed.val) := same.trans shift
    exact (left_eq_add.mp unchanged)
  apply differs
  simpa [memory] using (sub_eq_zero.mp difference).symm

end Packet

end ScicosFlex.Usb
