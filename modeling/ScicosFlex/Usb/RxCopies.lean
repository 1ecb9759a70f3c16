import ScicosFlex.Usb.RxRing

/-!
# What the copies of the receive ring touch

The block copies behind one call of `write_rx_buffer_shift` and of `flex_usb_read`, as
data: each reads `count` cells from `src` on and writes as many from `dst` on. Applied one
after the other they are what the two functions do to their targets
(`write_transfers`, `read_transfers`).

A copy that wraps around takes one byte more than is left of the message, and a packet's
length field can exceed its payload. `write_exact_iff` and `read_exact_iff` say exactly
when a call still stays inside the bytes it is given.
-/

namespace ScicosFlex.Usb.RxRing

open Library.CircularBuffer

/-- One `memcpy`. -/
structure Transfer where
  dst : Nat
  src : Nat
  count : Nat
deriving DecidableEq

/-- Copies one after the other. -/
def transfer (source : Memory) (target : Memory) (transfers : List Transfer) : Memory :=
  transfers.foldl (fun target part => copy target source part.dst part.src part.count) target

/-- The copies of `write_rx_buffer_shift`. -/
def writeTransfers (rx : Rx) (size : Nat) : List Transfer :=
  if rx.rxBufferSize ≤ size then [⟨0, u32Sub size rx.rxBufferSize, rx.rxBufferSize⟩]
  else
    let tmpIdx := u32 (rx.rxLast + size) % rx.rxBufferSize
    let tail := u32Sub rx.rxBufferSize rx.rxLast
    if rx.rxLast < tmpIdx then [⟨rx.rxLast, 0, size⟩]
    else [⟨rx.rxLast, 0, tail⟩, ⟨0, tail, tmpIdx + 1⟩]

/-- The copies of `flex_usb_read`, for the number of bytes it returns. -/
def readTransfers (rx : Rx) (count : Nat) : List Transfer :=
  let tmpIdx := u32 (rx.rxFirst + count) % rx.rxBufferSize
  let tail := u32Sub rx.rxBufferSize rx.rxFirst
  if rx.rxFirst < tmpIdx then [⟨0, rx.rxFirst, count⟩]
  else [⟨0, rx.rxFirst, tail⟩, ⟨tail, 0, tmpIdx + 1⟩]

/-- How many bytes an accepted call of `flex_usb_read` takes: at once all that are asked
for, or all that are held. -/
def accepted (rx : Rx) (len opt : Nat) : Option Nat :=
  if len = 0 then none
  else if opt = flexUsbReadBlock then
    if len ≤ rx.rxBufferSize ∧ len ≤ rx.rxHeld then some len else none
  else if opt = flexUsbReadNoblock then
    if rx.rxHeld = 0 then none else some (if rx.rxHeld < len then rx.rxHeld else len)
  else none

/-- The indices of a ring of `uint32_t` size, and its count. That the three agree is not
asked for. -/
structure Ring (rx : Rx) : Prop where
  first_lt : rx.rxFirst < rx.rxBufferSize
  last_lt : rx.rxLast < rx.rxBufferSize
  held_le : rx.rxHeld ≤ rx.rxBufferSize
  sized : Sized rx

/-- The copies are what a write does to the ring. -/
theorem write_transfers (rx : Rx) (buf : Memory) (size : Nat) :
    (writeRxBufferShift rx buf size).rxBuffer =
      transfer buf rx.rxBuffer (writeTransfers rx size) := by
  rw [writeRxBufferShift, writeTransfers]
  by_cases whole : rx.rxBufferSize ≤ size
  · rw [if_pos whole, if_pos whole]
    rfl
  · rw [if_neg whole, if_neg whole]
    by_cases linear : rx.rxLast < u32 (rx.rxLast + size) % rx.rxBufferSize
    · simp only [if_pos linear]
      rfl
    · simp only [if_neg linear]
      rfl

/-- The copies are what a read does to the caller's buffer. -/
theorem read_transfers (rx : Rx) (buf : Memory) (count : Nat) :
    (readBytes rx buf count).buf = transfer rx.rxBuffer buf (readTransfers rx count) := by
  rw [readBytes, readTransfers]
  by_cases linear : rx.rxFirst < u32 (rx.rxFirst + count) % rx.rxBufferSize
  · simp only [if_pos linear]
    rfl
  · simp only [if_neg linear]
    rfl

/-- An accepted call takes its bytes, of which there are some and no more than the ring holds. -/
theorem accepted_reads (rx : Rx) (buf : Memory) (len opt count : Nat)
    (call : accepted rx len opt = some count) :
    flexUsbRead rx buf len opt = some (readBytes rx buf count) ∧
      0 < count ∧ count ≤ rx.rxHeld := by
  rw [accepted] at call
  rw [flexUsbRead]
  split at call
  · cases call
  · next some_ =>
    rw [if_neg some_]
    split at call
    · next block =>
      rw [if_pos block]
      split at call
      · next enough =>
        cases call
        rw [if_neg (Nat.not_lt.mpr enough.1), if_neg (Nat.not_lt.mpr enough.2)]
        exact ⟨rfl, Nat.pos_of_ne_zero some_, enough.2⟩
      · cases call
    · next other =>
      rw [if_neg other]
      split at call
      · next noblock =>
        rw [if_pos noblock]
        split at call
        · cases call
        · next held =>
          cases call
          rw [if_neg held]
          refine ⟨rfl, ?_, ?_⟩ <;> split <;> omega
      · cases call

/-- The copies of a write read only the message, inside the payload of the packet, and
change only the cells behind `rx_last` that are meant for it. -/
def WriteExact (rx : Rx) (buf : Memory) (size : Nat) : Prop :=
  (∀ part ∈ writeTransfers rx size, ∀ offset < part.count,
    part.src + offset < size ∧ part.src + offset < Packet.packetPayloadSize) ∧
  ∀ cell, (∀ offset < size, cell ≠ (rx.rxLast + offset) % rx.rxBufferSize) →
    (writeRxBufferShift rx buf size).rxBuffer cell = rx.rxBuffer cell

/-- A message of one to 60 bytes ends before the last cell of the ring, or the index sum
passes the bound of `uint32_t` and what is copied then fits into the payload. -/
def WriteInside (rx : Rx) (size : Nat) : Prop :=
  (0 < size ∧ rx.rxLast + size < rx.rxBufferSize ∧ size ≤ Packet.packetPayloadSize) ∨
    (2 ^ 32 ≤ rx.rxLast + size ∧ rx.rxBufferSize + size < 2 ^ 32 + Packet.packetPayloadSize)

/-- The copies of a read write exactly as many bytes of the caller's buffer as the call
returns, and read only cells of the ring. -/
def ReadExact (rx : Rx) (buf : Memory) (count : Nat) : Prop :=
  (∀ byte : Nat, (∃ part ∈ readTransfers rx count, part.dst ≤ byte ∧ byte < part.dst + part.count) ↔
    (byte : Int) < (readBytes rx buf count).value) ∧
  ∀ part ∈ readTransfers rx count, part.src + part.count ≤ rx.rxBufferSize

/-- The bytes end before the last cell of the ring, or the ring has the largest size and
the index sum passes the bound of `uint32_t`; and their number can be returned. -/
def ReadInside (rx : Rx) (count : Nat) : Prop :=
  count < 2 ^ 31 ∧ (rx.rxFirst + count < rx.rxBufferSize ∨
    (2 ^ 32 ≤ rx.rxFirst + count ∧ rx.rxBufferSize + 1 = 2 ^ 32))

/-- The index behind a number of cells of the ring, without and with an overflow of the sum. -/
theorem index_eq (capacity start count : Nat) (inside : start < capacity)
    (short : count ≤ capacity) (word : capacity < 2 ^ 32) :
    u32 (start + count) % capacity =
      if start + count < capacity then start + count
      else if start + count < 2 ^ 32 then start + count - capacity
      else start + count - 2 ^ 32 := by
  by_cases sum : start + count < 2 ^ 32
  · rw [u32_eq _ sum, wrap_mod _ _ (by omega), if_pos sum]
  · have wrapped : u32 (start + count) = start + count - 2 ^ 32 := by
      unfold u32
      omega
    rw [wrapped, if_neg (by omega), if_neg sum, Nat.mod_eq_of_lt (by omega)]

/-- A message that neither wraps around nor is empty is one copy. -/
theorem write_linear (rx : Rx) (ring : Ring rx) (size : Nat) (packet : size < 64)
    (some : 0 < size) (linear : rx.rxLast + size < rx.rxBufferSize) :
    writeTransfers rx size = [⟨rx.rxLast, 0, size⟩] := by
  have fits := ring.sized.packet_fits
  have index := index_eq rx.rxBufferSize rx.rxLast size ring.last_lt (by omega) ring.sized.word
  rw [if_pos linear] at index
  simp only [writeTransfers, index]
  rw [if_neg (by omega), if_pos (by omega)]

/-- Any other message is two copies, up to the last cell and from the first cell on. -/
theorem write_wrapped (rx : Rx) (ring : Ring rx) (size : Nat) (packet : size < 64)
    (wraps : size = 0 ∨ rx.rxBufferSize ≤ rx.rxLast + size) :
    writeTransfers rx size =
      [⟨rx.rxLast, 0, rx.rxBufferSize - rx.rxLast⟩,
        ⟨0, rx.rxBufferSize - rx.rxLast,
          u32 (rx.rxLast + size) % rx.rxBufferSize + 1⟩] := by
  have fits := ring.sized.packet_fits
  have word := ring.sized.word
  have lastLt := ring.last_lt
  have tail := u32Sub_eq rx.rxBufferSize rx.rxLast word (by omega)
  have index := index_eq rx.rxBufferSize rx.rxLast size lastLt (by omega) word
  have backward : ¬ rx.rxLast < u32 (rx.rxLast + size) % rx.rxBufferSize := by
    rw [index]
    split
    · omega
    · split <;> omega
  simp only [writeTransfers, tail, if_neg backward]
  rw [if_neg (by omega)]

/-- Behind an overflow the two copies are no longer than the message, so a cell that is
not meant for it is not touched. -/
theorem write_overflow_kept (rx : Rx) (ring : Ring rx) (buf : Memory) (size cell : Nat)
    (packet : size < 64) (overflow : 2 ^ 32 ≤ rx.rxLast + size)
    (outside : ∀ offset < size, cell ≠ (rx.rxLast + offset) % rx.rxBufferSize) :
    (writeRxBufferShift rx buf size).rxBuffer cell = rx.rxBuffer cell := by
  have fits := ring.sized.packet_fits
  have word := ring.sized.word
  have lastLt := ring.last_lt
  have index := index_eq rx.rxBufferSize rx.rxLast size lastLt (by omega) word
  obtain ⟨excess, sum⟩ := Nat.exists_eq_add_of_le overflow
  have wrapped : u32 (rx.rxLast + size) % rx.rxBufferSize = excess := by
    rw [index, if_neg (by omega), if_neg (by omega)]
    omega
  rw [write_transfers, write_wrapped rx ring size packet (by omega), wrapped]
  simp only [transfer, List.foldl_cons, List.foldl_nil]
  rw [copy_outside, copy_outside]
  · apply Decidable.byContradiction
    intro written
    have target := outside (cell - rx.rxLast) (by omega)
    rw [wrap_mod _ _ (by omega), if_pos (by omega)] at target
    omega
  · apply Decidable.byContradiction
    intro written
    have target := outside (rx.rxBufferSize - rx.rxLast + cell) (by omega)
    rw [wrap_mod _ _ (by omega), if_neg (by omega)] at target
    omega

/-- A call with a packet's length copies exactly its message if and only if the message
stays inside. -/
theorem write_exact_iff (rx : Rx) (ring : Ring rx) (buf : Memory) (size : Nat)
    (packet : size < 64) : WriteExact rx buf size ↔ WriteInside rx size := by
  have fits := ring.sized.packet_fits
  have word := ring.sized.word
  have lastLt := ring.last_lt
  have index := index_eq rx.rxBufferSize rx.rxLast size lastLt (by omega) word
  by_cases linear : 0 < size ∧ rx.rxLast + size < rx.rxBufferSize
  · obtain ⟨some, before⟩ := linear
    have parts := write_linear rx ring size packet some before
    constructor
    · rintro ⟨reads, -⟩
      have last := (reads ⟨rx.rxLast, 0, size⟩ (by rw [parts]; exact List.mem_cons_self)
        (size - 1) (by show size - 1 < size; omega)).2
      simp only [Packet.packetPayloadSize] at last
      exact Or.inl ⟨some, before, by simp only [Packet.packetPayloadSize]; omega⟩
    · intro inside
      have payload : size ≤ Packet.packetPayloadSize := by
        rcases inside with ⟨-, -, payload⟩ | ⟨overflow, -⟩
        · exact payload
        · omega
      refine ⟨?_, ?_⟩
      · intro part member offset below
        rw [parts, List.mem_singleton] at member
        subst member
        have below : offset < size := below
        change 0 + offset < size ∧ 0 + offset < _
        omega
      · intro cell outside
        rw [write_transfers, parts]
        simp only [transfer, List.foldl_cons, List.foldl_nil]
        rw [copy_outside]
        apply Decidable.byContradiction
        intro written
        have target := outside (cell - rx.rxLast) (by omega)
        rw [Nat.mod_eq_of_lt (by omega)] at target
        omega
  · have parts := write_wrapped rx ring size packet (by omega)
    constructor
    · rintro ⟨reads, -⟩
      have last := reads _ (by rw [parts]; exact List.mem_cons_of_mem _ List.mem_cons_self)
        (u32 (rx.rxLast + size) % rx.rxBufferSize) (Nat.lt_succ_self _)
      simp only [Packet.packetPayloadSize] at last
      rw [index] at last
      refine Or.inr ?_
      simp only [Packet.packetPayloadSize]
      split at last
      · omega
      · split at last
        · omega
        · omega
    · rintro (⟨some, before, -⟩ | ⟨overflow, payload⟩)
      · exact absurd ⟨some, before⟩ linear
      · rw [if_neg (by omega), if_neg (by omega)] at index
        simp only [Packet.packetPayloadSize] at payload
        refine ⟨?_, ?_⟩
        · intro part member offset below
          rw [parts, index] at member
          simp only [Packet.packetPayloadSize]
          rcases List.mem_cons.mp member with rfl | member
          · have below : offset < rx.rxBufferSize - rx.rxLast := below
            change 0 + offset < size ∧ 0 + offset < 60
            omega
          · obtain rfl := List.mem_singleton.mp member
            have below : offset < rx.rxLast + size - 2 ^ 32 + 1 := below
            change rx.rxBufferSize - rx.rxLast + offset < size ∧
              rx.rxBufferSize - rx.rxLast + offset < 60
            omega
        · intro cell outside
          exact write_overflow_kept rx ring buf size cell packet overflow outside

/-- The number of bytes is returned as it is below the sign bit, and as a negative number
from there on. -/
theorem int32_word (value : Nat) (word : value < 2 ^ 32) :
    int32 value = if value < 2 ^ 31 then (value : Int) else (value : Int) - 2 ^ 32 := by
  simp only [int32, Nat.mod_eq_of_lt word]

/-- An accepted call reads and writes exactly the bytes it returns if and only if they
stay inside. -/
theorem read_exact_iff (rx : Rx) (ring : Ring rx) (buf : Memory) (count : Nat)
    (some : 0 < count) (held : count ≤ rx.rxHeld) :
    ReadExact rx buf count ↔ ReadInside rx count := by
  have word := ring.sized.word
  have firstLt := ring.first_lt
  have heldLe := ring.held_le
  have tail := u32Sub_eq rx.rxBufferSize rx.rxFirst word (by omega)
  have index := index_eq rx.rxBufferSize rx.rxFirst count firstLt (by omega) word
  have value : (readBytes rx buf count).value = _ := int32_word count (by omega)
  rw [ReadExact, value]
  by_cases linear : rx.rxFirst + count < rx.rxBufferSize
  · rw [if_pos linear] at index
    have parts : readTransfers rx count = [⟨0, rx.rxFirst, count⟩] := by
      simp only [readTransfers, index]
      rw [if_pos (by omega)]
    simp only [parts, List.mem_singleton, exists_eq_left, forall_eq]
    constructor
    · rintro ⟨written, -⟩
      have first := (written 0).mp (by omega)
      split at first
      · next short => exact ⟨short, Or.inl linear⟩
      · omega
    · rintro ⟨short, -⟩
      rw [if_pos short]
      refine ⟨?_, by omega⟩
      intro byte
      omega
  · have parts : readTransfers rx count = [⟨0, rx.rxFirst, rx.rxBufferSize - rx.rxFirst⟩,
        ⟨rx.rxBufferSize - rx.rxFirst, 0,
          u32 (rx.rxFirst + count) % rx.rxBufferSize + 1⟩] := by
      have backward : ¬ rx.rxFirst < u32 (rx.rxFirst + count) % rx.rxBufferSize := by
        rw [index, if_neg linear]
        split <;> omega
      simp only [readTransfers, tail, if_neg backward]
    rw [if_neg linear] at index
    simp only [parts, List.mem_cons, List.not_mem_nil, or_false, exists_eq_or_imp,
      exists_eq_left, forall_eq_or_imp, forall_eq, index]
    constructor
    · rintro ⟨written, -⟩
      have first := (written 0).mp (Or.inl (by omega))
      have short : count < 2 ^ 31 := by
        split at first
        · assumption
        · omega
      refine ⟨short, Or.inr ?_⟩
      rw [if_pos short] at written
      have behind := written count
      have last := written (count - 1)
      by_cases sum : rx.rxFirst + count < 2 ^ 32
      · rw [if_pos sum] at behind
        omega
      · rw [if_neg sum] at last
        omega
    · rintro ⟨short, before | ⟨overflow, largest⟩⟩
      · exact absurd before linear
      · rw [if_pos short, if_neg (by omega)]
        refine ⟨?_, by omega⟩
        intro byte
        omega

/-- From every state of the ring a packet's message is copied exactly if and only if it
stays inside, and so are the bytes of an accepted read. Nothing is asked of the history,
so the two indices and the count need not fit together. Where a message reaches the last
cell, one byte more is copied than there is; where the index sum passes the bound of
`uint32_t`, the branch for it is not taken. -/
theorem copies_exact_iff (rx : Rx) (ring : Ring rx) :
    (∀ buf (length : BitVec 6),
      WriteExact rx buf length.toNat ↔ WriteInside rx length.toNat) ∧
    ∀ buf len opt count, accepted rx len opt = some count →
      flexUsbRead rx buf len opt = some (readBytes rx buf count) ∧
        (ReadExact rx buf count ↔ ReadInside rx count) := by
  constructor
  · intro buf length
    exact write_exact_iff rx ring buf length.toNat length.isLt
  · intro buf len opt count call
    obtain ⟨read, some, held⟩ := accepted_reads rx buf len opt count call
    exact ⟨read, read_exact_iff rx ring buf count some held⟩

/-- A ring of 64 bytes with 60 of them held. -/
def nearlyFull : Rx :=
  { rxBuffer := fun _ => 0, rxBufferSize := 64, rxFirst := 0, rxLast := 60, rxHeld := 60 }

/-- Its indices are in range. -/
theorem nearlyFull_ring : Ring nearlyFull :=
  ⟨by decide, by decide, by decide, by decide, by decide⟩

/-- There a message of three bytes and a read of 60 bytes are copied exactly. -/
theorem three_bytes_exact :
    WriteExact nearlyFull (fun _ => 1) 3 ∧ ReadExact nearlyFull (fun _ => 1) 60 :=
  ⟨((copies_exact_iff nearlyFull nearlyFull_ring).1 (fun _ => 1) 3).mpr
      (Or.inl ⟨by decide, by decide, by decide⟩),
    ((copies_exact_iff nearlyFull nearlyFull_ring).2 (fun _ => 1) 60 flexUsbReadNoblock 60
      (by decide)).2.mpr ⟨by decide, Or.inl (by decide)⟩⟩

/-- A message that ends at the last cell takes the byte behind it along. -/
theorem message_at_boundary :
    ¬ ∀ rx, Ring rx → (∀ buf (length : BitVec 6), WriteExact rx buf length.toNat) ∧
      ∀ buf len opt count, accepted rx len opt = some count → ReadExact rx buf count := by
  intro always
  obtain ⟨reads, -⟩ := (always nearlyFull nearlyFull_ring).1 (fun _ => 1) 4
  have behind := (reads ⟨0, 4, 1⟩ (by decide) 0 (by decide)).1
  exact absurd behind (by decide)

end ScicosFlex.Usb.RxRing
