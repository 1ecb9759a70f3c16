import ScicosFlex.Library.CircularBuffer
import ScicosFlex.Usb.Packet

/-!
# The receive ring of the USB library

`write_rx_buffer_shift` and `flex_usb_read` of `flex_usb.c`, as the code computes
them: the indices are 32-bit unsigned words, the copies are plain `memcpy` calls
on byte memories, and both functions copy one byte more than the part that
wraps around. Locking is left out, since each call runs wholly under `rx_mutex`.

The second half compares one call with a bounded queue of bytes that drops its
oldest entries. `WriteFits` and `ReadFits` are the conditions under which a call
of the code does what the queue does. `write_step` and `read_step` show that
they are exact: they hold if and only if the state after the call still
represents the queue.
-/

namespace ScicosFlex.Usb.RxRing

open Library.CircularBuffer

/-- `FLEX_USB_READ_BLOCK` and `FLEX_USB_READ_NOBLOCK`. -/
def flexUsbReadBlock : Nat := 0x00
def flexUsbReadNoblock : Nat := 0x01

/-- Values of the C type `uint32_t`. -/
def u32 (value : Nat) : Nat := value % 2 ^ 32

/-- Subtraction on `uint32_t` wraps around below zero. -/
def u32Sub (left right : Nat) : Nat := (left + (2 ^ 32 - right)) % 2 ^ 32

/-- The file-level variables behind the receive queue. -/
structure Rx where
  rxBuffer : Memory
  rxBufferSize : Nat
  rxFirst : Nat
  rxLast : Nat
  rxHeld : Nat

/-- `write_rx_buffer_shift(buf, size)`. -/
def writeRxBufferShift (rx : Rx) (buf : Memory) (size : Nat) : Rx :=
  if rx.rxBufferSize ≤ size then
    -- A message larger than the buffer: only its last bytes are kept.
    { rx with
      rxBuffer := copy rx.rxBuffer buf 0 (u32Sub size rx.rxBufferSize) rx.rxBufferSize
      rxLast := 0
      rxFirst := 0
      rxHeld := rx.rxBufferSize }
  else
    let free := u32Sub rx.rxBufferSize rx.rxHeld
    let rxFirst :=
      if free < size then u32 (rx.rxFirst + u32Sub size free) % rx.rxBufferSize else rx.rxFirst
    let tmpIdx := u32 (rx.rxLast + size) % rx.rxBufferSize
    let rxBuffer :=
      if rx.rxLast < tmpIdx then copy rx.rxBuffer buf rx.rxLast 0 size
      else
        let tail := u32Sub rx.rxBufferSize rx.rxLast
        -- The second part is one byte longer than what is left of the message.
        copy (copy rx.rxBuffer buf rx.rxLast 0 tail) buf 0 tail (tmpIdx + 1)
    { rx with
      rxBuffer := rxBuffer
      rxFirst := rxFirst
      rxLast := tmpIdx
      rxHeld := u32 (rx.rxHeld + size) }

/-- What a call of `flex_usb_read` comes back with: the returned number, the
caller's buffer and the queue afterwards. -/
structure ReadResult where
  value : Int
  buf : Memory
  rx : Rx

/-- The conversion `(int32_t) len`. -/
def int32 (value : Nat) : Int :=
  if value % 2 ^ 32 < 2 ^ 31 then (value % 2 ^ 32 : Nat) else (value % 2 ^ 32 : Nat) - 2 ^ 32

/-- The common end of both read policies, with `len` at most the held bytes. -/
def readBytes (rx : Rx) (buf : Memory) (len : Nat) : ReadResult :=
  let tmpIdx := u32 (rx.rxFirst + len) % rx.rxBufferSize
  let tail := u32Sub rx.rxBufferSize rx.rxFirst
  { value := int32 len
    buf :=
      if rx.rxFirst < tmpIdx then copy buf rx.rxBuffer 0 rx.rxFirst len
      else copy (copy buf rx.rxBuffer 0 rx.rxFirst tail) rx.rxBuffer tail 0 (tmpIdx + 1)
    rx := { rx with rxHeld := u32Sub rx.rxHeld len, rxFirst := tmpIdx } }

/-- `flex_usb_read(buf, len, opt)`. No result means that the caller waits for
`rx_condition`: the blocking policy does not return before enough bytes are held. -/
def flexUsbRead (rx : Rx) (buf : Memory) (len opt : Nat) : Option ReadResult :=
  if len = 0 then some ⟨-1, buf, rx⟩
  else if opt = flexUsbReadBlock then
    if rx.rxBufferSize < len then some ⟨-1, buf, rx⟩
    else if rx.rxHeld < len then none
    else some (readBytes rx buf len)
  else if opt = flexUsbReadNoblock then
    if rx.rxHeld = 0 then some ⟨0, buf, rx⟩
    else some (readBytes rx buf (if rx.rxHeld < len then rx.rxHeld else len))
  else some ⟨-2, buf, rx⟩

/-- The bytes stored from `rx_first` on. -/
def contents (rx : Rx) : List Byte :=
  window rx.rxBufferSize rx.rxBuffer rx.rxFirst rx.rxHeld

/-- The relation between the three counters: both indices lie inside the buffer,
no more bytes are held than fit, and `rx_last` is where the held bytes end. -/
structure InRange (rx : Rx) : Prop where
  first_lt : rx.rxFirst < rx.rxBufferSize
  last_lt : rx.rxLast < rx.rxBufferSize
  held_le : rx.rxHeld ≤ rx.rxBufferSize
  last_eq : rx.rxLast = (rx.rxFirst + rx.rxHeld) % rx.rxBufferSize

/-- A buffer size the library can be opened with: a whole packet fits, and the
size is a value of `uint32_t`. -/
structure Sized (rx : Rx) : Prop where
  packet_fits : 64 ≤ rx.rxBufferSize
  word : rx.rxBufferSize < 2 ^ 32

/-- The ring holds exactly the given bytes, oldest first. -/
structure Holds (rx : Rx) (queue : List Byte) : Prop where
  sized : Sized rx
  range : InRange rx
  stored : contents rx = queue

/-- A write finds room: the message fits into the free bytes, the index sum is a
value of `uint32_t`, and if the message wraps around and fills the ring to the
last byte, the byte behind it in the caller's memory is the oldest held byte. -/
def WriteFits (rx : Rx) (buf : Memory) (size : Nat) : Prop :=
  rx.rxHeld + size ≤ rx.rxBufferSize ∧ rx.rxLast + size < 2 ^ 32 ∧
    (rx.rxHeld + size = rx.rxBufferSize → rx.rxBufferSize ≤ rx.rxLast + size →
      buf size = rx.rxBuffer rx.rxFirst)

/-- A read of `len` held bytes finds an index sum that is a value of `uint32_t`. -/
def ReadFits (rx : Rx) (len : Nat) : Prop := rx.rxFirst + len < 2 ^ 32

instance (rx : Rx) (buf : Memory) (size : Nat) : Decidable (WriteFits rx buf size) :=
  inferInstanceAs (Decidable (_ ∧ _ ∧ (_ → _ → _)))

instance (rx : Rx) (len : Nat) : Decidable (ReadFits rx len) := inferInstanceAs (Decidable (_ < _))

/-- Below the wrap-around the word is the number itself. -/
theorem u32_eq (value : Nat) (bounded : value < 2 ^ 32) : u32 value = value :=
  Nat.mod_eq_of_lt bounded

/-- Subtraction that does not go below zero is ordinary subtraction. -/
theorem u32Sub_eq (left right : Nat) (word : left < 2 ^ 32) (enough : right ≤ left) :
    u32Sub left right = left - right := by
  unfold u32Sub
  omega

/-- As many bytes are represented as `rx_held` says. -/
@[simp] theorem contents_length (rx : Rx) : (contents rx).length = rx.rxHeld := by
  simp [contents]

/-- The new `rx_last` of a message smaller than the ring: it wraps at most once. -/
theorem write_index (rx : Rx) (range : InRange rx) (size : Nat) (small : size < rx.rxBufferSize)
    (word : rx.rxLast + size < 2 ^ 32) :
    u32 (rx.rxLast + size) % rx.rxBufferSize =
      if rx.rxLast + size < rx.rxBufferSize then rx.rxLast + size
      else rx.rxLast + size - rx.rxBufferSize := by
  have inside := range.last_lt
  rw [u32_eq _ word, wrap_mod _ _ (by omega)]

/-- A message that ends before the end of the ring is copied at once. -/
theorem rxBuffer_linear (rx : Rx) (buf : Memory) (size : Nat) (range : InRange rx) (some : 0 < size)
    (word : rx.rxLast + size < 2 ^ 32) (linear : rx.rxLast + size < rx.rxBufferSize) :
    (writeRxBufferShift rx buf size).rxBuffer = copy rx.rxBuffer buf rx.rxLast 0 size := by
  have small : size < rx.rxBufferSize := by omega
  have forward : rx.rxLast < rx.rxLast + size := by omega
  simp only [writeRxBufferShift, Nat.not_le.mpr small, if_false,
    write_index rx range size small word, linear, if_true, forward]

/-- Another message is copied in two parts, and the byte behind it comes with the second. -/
theorem rxBuffer_wrapped (rx : Rx) (buf : Memory) (size : Nat) (sized : Sized rx)
    (range : InRange rx) (small : size < rx.rxBufferSize) (word : rx.rxLast + size < 2 ^ 32)
    (wraps : ¬ rx.rxLast + size < rx.rxBufferSize) :
    (writeRxBufferShift rx buf size).rxBuffer =
      copy (copy rx.rxBuffer buf rx.rxLast 0 (rx.rxBufferSize - rx.rxLast)) buf 0
        (rx.rxBufferSize - rx.rxLast) (rx.rxLast + size - rx.rxBufferSize + 1) := by
  have lastLt := range.last_lt
  have tail := u32Sub_eq rx.rxBufferSize rx.rxLast sized.word (by omega)
  have backward : ¬ rx.rxLast < rx.rxLast + size - rx.rxBufferSize := by omega
  simp only [writeRxBufferShift, Nat.not_le.mpr small, if_false,
    write_index rx range size small word, wraps, backward, tail]

/-- When the message fits, the free cells behind `rx_last` receive it. -/
theorem write_fresh (rx : Rx) (buf : Memory) (size offset : Nat) (sized : Sized rx)
    (range : InRange rx) (small : size < rx.rxBufferSize) (word : rx.rxLast + size < 2 ^ 32)
    (inside : offset < size) :
    (writeRxBufferShift rx buf size).rxBuffer ((rx.rxLast + offset) % rx.rxBufferSize) =
      buf offset := by
  have lastLt := range.last_lt
  rw [wrap_mod rx.rxBufferSize (rx.rxLast + offset) (by omega)]
  by_cases linear : rx.rxLast + size < rx.rxBufferSize
  · rw [rxBuffer_linear rx buf size range (by omega) word linear, if_pos (by omega),
      copy_inside _ _ _ _ _ _ (by omega) (by omega)]
    congr 1
    omega
  · rw [rxBuffer_wrapped rx buf size sized range small word linear]
    by_cases before : rx.rxLast + offset < rx.rxBufferSize
    · rw [if_pos before, copy_outside _ _ _ _ _ _ (by omega),
        copy_inside _ _ _ _ _ _ (by omega) (by omega)]
      congr 1
      omega
    · rw [if_neg before, copy_inside _ _ _ _ _ _ (by omega) (by omega)]
      congr 1
      omega

/-- A cell that is neither written nor the one behind the message is kept. -/
theorem write_kept (rx : Rx) (buf : Memory) (size cell : Nat) (sized : Sized rx)
    (range : InRange rx) (some : 0 < size) (small : size < rx.rxBufferSize)
    (word : rx.rxLast + size < 2 ^ 32) (below : cell < rx.rxBufferSize)
    (unwritten : ∀ offset, offset < size → cell ≠ (rx.rxLast + offset) % rx.rxBufferSize)
    (behind : rx.rxBufferSize ≤ rx.rxLast + size → cell ≠ (rx.rxLast + size) % rx.rxBufferSize) :
    (writeRxBufferShift rx buf size).rxBuffer cell = rx.rxBuffer cell := by
  have lastLt := range.last_lt
  by_cases linear : rx.rxLast + size < rx.rxBufferSize
  · rw [rxBuffer_linear rx buf size range some word linear, copy_outside]
    apply Decidable.byContradiction
    intro written
    have target := unwritten (cell - rx.rxLast) (by omega)
    rw [wrap_mod _ _ (by omega), if_pos (by omega)] at target
    omega
  · have notBehind := behind (by omega)
    rw [wrap_mod rx.rxBufferSize (rx.rxLast + size) (by omega), if_neg linear] at notBehind
    rw [rxBuffer_wrapped rx buf size sized range small word linear, copy_outside, copy_outside]
    · apply Decidable.byContradiction
      intro written
      have target := unwritten (cell - rx.rxLast) (by omega)
      rw [wrap_mod _ _ (by omega), if_pos (by omega)] at target
      omega
    · apply Decidable.byContradiction
      intro written
      have target := unwritten (rx.rxBufferSize - rx.rxLast + cell) (by omega)
      rw [wrap_mod _ _ (by omega), if_neg (by omega)] at target
      omega

/-- The counters after a message for which there is room. -/
theorem write_counters (rx : Rx) (buf : Memory) (size : Nat) (sized : Sized rx)
    (range : InRange rx) (small : size < rx.rxBufferSize)
    (room : rx.rxHeld + size ≤ rx.rxBufferSize) (word : rx.rxLast + size < 2 ^ 32) :
    (writeRxBufferShift rx buf size).rxFirst = rx.rxFirst ∧
      (writeRxBufferShift rx buf size).rxLast = (rx.rxLast + size) % rx.rxBufferSize ∧
      (writeRxBufferShift rx buf size).rxHeld = rx.rxHeld + size ∧
      (writeRxBufferShift rx buf size).rxBufferSize = rx.rxBufferSize := by
  have sizeWord := sized.word
  have free := u32Sub_eq rx.rxBufferSize rx.rxHeld sized.word range.held_le
  have noOverride : ¬ rx.rxBufferSize - rx.rxHeld < size := by omega
  simp only [writeRxBufferShift, Nat.not_le.mpr small, if_false, free, noOverride, u32_eq _ word,
    u32_eq _ (Nat.lt_of_le_of_lt room sizeWord), and_self]

/-- A message that wraps around also stores the byte behind it. -/
theorem write_behind (rx : Rx) (buf : Memory) (size : Nat) (sized : Sized rx)
    (range : InRange rx) (small : size < rx.rxBufferSize) (word : rx.rxLast + size < 2 ^ 32)
    (wraps : rx.rxBufferSize ≤ rx.rxLast + size) :
    (writeRxBufferShift rx buf size).rxBuffer ((rx.rxLast + size) % rx.rxBufferSize) =
      buf size := by
  have lastLt := range.last_lt
  rw [rxBuffer_wrapped rx buf size sized range small word (by omega),
    wrap_mod rx.rxBufferSize (rx.rxLast + size) (by omega), if_neg (by omega),
    copy_inside _ _ _ _ _ _ (by omega) (by omega)]
  congr 1
  omega

/-- A message for which there is room is appended to the held bytes, in one copy or in
two. Where it fills the ring to the last byte, one more is copied, and has to be the one
that is there already. -/
theorem write_appends (rx : Rx) (buf : Memory) (size : Nat) (queue : List Byte)
    (holds : Holds rx queue) (some : 0 < size) (small : size < rx.rxBufferSize)
    (fits : WriteFits rx buf size) :
    Holds (writeRxBufferShift rx buf size) (queue ++ prefixOf buf size) := by
  obtain ⟨sized, range, stored⟩ := holds
  obtain ⟨room, word, behind⟩ := fits
  obtain ⟨first, last, held, capacity⟩ :=
    write_counters rx buf size sized range small room word
  have lastEq := range.last_eq
  have positive : 0 < rx.rxBufferSize := by have := sized.packet_fits; omega
  refine ⟨⟨capacity ▸ sized.packet_fits, capacity ▸ sized.word⟩, ?_, ?_⟩
  · refine ⟨?_, ?_, ?_, ?_⟩
    · rw [first, capacity]; exact range.first_lt
    · rw [last, capacity]; exact Nat.mod_lt _ positive
    · rw [held, capacity]; exact room
    · rw [last, first, held, capacity, lastEq, Nat.mod_add_mod, Nat.add_assoc]
  · rw [contents, first, held, capacity, window_add, ← stored]
    congr 1
    -- The held cells keep their bytes; the free cells behind them receive the message.
    · apply window_congr
      intro offset inside
      by_cases oldest : rx.rxBufferSize ≤ rx.rxLast + size ∧
          (rx.rxFirst + offset) % rx.rxBufferSize = (rx.rxLast + size) % rx.rxBufferSize
      · obtain ⟨wraps, same⟩ := oldest
        have full : ¬ rx.rxFirst + offset < rx.rxFirst + rx.rxHeld + size ∨
            ¬ rx.rxFirst + rx.rxHeld + size < rx.rxFirst + offset + rx.rxBufferSize := by
          apply Decidable.byContradiction
          intro apart
          refine mod_distinct rx.rxBufferSize (rx.rxFirst + offset)
            (rx.rxFirst + rx.rxHeld + size) (by omega) (by omega) ?_
          rw [same, lastEq, Nat.mod_add_mod]
        have start : offset = 0 := by omega
        subst start
        rw [same, write_behind rx buf size sized range small word wraps, behind (by omega) wraps,
          ← same, Nat.add_zero, Nat.mod_eq_of_lt range.first_lt]
      · apply write_kept rx buf size _ sized range some small word (Nat.mod_lt _ positive)
        · intro fresh below
          rw [lastEq, Nat.mod_add_mod, Nat.add_assoc]
          exact mod_distinct _ _ _ (by omega) (by omega)
        · intro wraps same
          exact oldest ⟨wraps, same⟩
    · rw [← window_start_mod, ← lastEq]
      apply window_eq_prefix
      intro offset inside
      exact write_fresh rx buf size offset sized range small word inside

/-- When a message finds no room, the ring afterwards does not represent the
queue: the count, the index sum or the oldest byte is wrong. -/
theorem write_breaks (rx : Rx) (buf : Memory) (size : Nat) (queue : List Byte)
    (holds : Holds rx queue) (some : 0 < size) (packet : size < 64)
    (after : Holds (writeRxBufferShift rx buf size)
      (push rx.rxBufferSize queue (prefixOf buf size))) : WriteFits rx buf size := by
  obtain ⟨sized, range, stored⟩ := holds
  have packetFits := sized.packet_fits
  have sizeWord := sized.word
  have lastLt := range.last_lt
  have heldLe := range.held_le
  have small : size < rx.rxBufferSize := by omega
  have heldAfter : (writeRxBufferShift rx buf size).rxHeld = u32 (rx.rxHeld + size) := by
    simp [writeRxBufferShift, Nat.not_le.mpr small]
  have capacityAfter : (writeRxBufferShift rx buf size).rxBufferSize = rx.rxBufferSize := by
    simp [writeRxBufferShift, Nat.not_le.mpr small]
  have queueLength : queue.length = rx.rxHeld := by rw [← stored, contents_length]
  -- The stored count is the length of the queue, so nothing may have been dropped.
  have room : rx.rxHeld + size ≤ rx.rxBufferSize := by
    have count := congrArg List.length after.stored
    rw [contents_length, push_length, prefixOf_length, queueLength, heldAfter, u32] at count
    omega
  have heldEq : (writeRxBufferShift rx buf size).rxHeld = rx.rxHeld + size := by
    rw [heldAfter, u32_eq _ (by omega)]
  have free := u32Sub_eq rx.rxBufferSize rx.rxHeld sized.word range.held_le
  have firstEq : (writeRxBufferShift rx buf size).rxFirst = rx.rxFirst := by
    have noOverride : ¬ rx.rxBufferSize - rx.rxHeld < size := by omega
    simp [writeRxBufferShift, Nat.not_le.mpr small, free, noOverride]
  -- The new end must be the old end moved by the message, which rules out a wrapped word.
  have word : rx.rxLast + size < 2 ^ 32 := by
    have lastEq := after.range.last_eq
    rw [firstEq, heldEq, capacityAfter, ← Nat.add_assoc, ← Nat.mod_add_mod, ← range.last_eq]
      at lastEq
    simp only [writeRxBufferShift, Nat.not_le.mpr small, if_false] at lastEq
    apply Decidable.byContradiction
    intro large
    have wrapped : u32 (rx.rxLast + size) = rx.rxLast + size - 2 ^ 32 := by unfold u32; omega
    rw [wrapped, wrap_mod _ (rx.rxLast + size - 2 ^ 32) (by omega), if_pos (by omega),
      wrap_mod _ (rx.rxLast + size) (by omega), if_neg (by omega)] at lastEq
    omega
  refine ⟨room, word, ?_⟩
  -- The oldest byte is still the oldest after the write, and it lies where the extra byte went.
  intro full wraps
  have oldest := congrArg List.head? after.stored
  rw [push_fits _ _ _ (by rw [queueLength, prefixOf_length]; exact room), ← stored,
    List.head?_append, contents, contents, window_head? _ _ _ _ (by omega),
    window_head? _ _ _ _ (by omega), firstEq, capacityAfter, Option.some_or,
    Option.some.injEq, Nat.mod_eq_of_lt range.first_lt] at oldest
  have place : (rx.rxLast + size) % rx.rxBufferSize = rx.rxFirst := by
    rw [range.last_eq, Nat.mod_add_mod, Nat.add_assoc, full, Nat.add_mod_right,
      Nat.mod_eq_of_lt range.first_lt]
  rw [← oldest]
  simpa only [place] using (write_behind rx buf size sized range small word wraps).symm

/-- One write does what appending to the bounded queue does exactly when the
message finds room in the sense of `WriteFits`. -/
theorem write_step (rx : Rx) (buf : Memory) (size : Nat) (queue : List Byte)
    (holds : Holds rx queue) (some : 0 < size) (packet : size < 64) :
    Holds (writeRxBufferShift rx buf size) (push rx.rxBufferSize queue (prefixOf buf size)) ↔
      WriteFits rx buf size := by
  constructor
  · exact write_breaks rx buf size queue holds some packet
  · intro fits
    have packetFits := holds.sized.packet_fits
    have small : size < rx.rxBufferSize := by omega
    rw [push_fits]
    · exact write_appends rx buf size queue holds some small fits
    · rw [← holds.stored, contents_length, prefixOf_length]
      exact fits.1

/-- A read whose index sum is a word takes the oldest bytes off the queue and
hands exactly them to the caller. -/
theorem read_takes (rx : Rx) (buf : Memory) (len : Nat) (queue : List Byte)
    (holds : Holds rx queue) (some : 0 < len) (enough : len ≤ rx.rxHeld) (fits : ReadFits rx len) :
    Holds (readBytes rx buf len).rx (queue.drop len) ∧
      prefixOf (readBytes rx buf len).buf len = queue.take len := by
  obtain ⟨sized, range, stored⟩ := holds
  have firstLt := range.first_lt
  have heldLe := range.held_le
  have sizeWord := sized.word
  have word : rx.rxFirst + len < 2 ^ 32 := fits
  have tail := u32Sub_eq rx.rxBufferSize rx.rxFirst sized.word (by omega)
  have heldEq := u32Sub_eq rx.rxHeld len (by omega) enough
  have positive : 0 < rx.rxBufferSize := by omega
  have index := wrap_mod rx.rxBufferSize (rx.rxFirst + len) (by omega)
  constructor
  · refine ⟨⟨sized.packet_fits, sized.word⟩, ⟨?_, range.last_lt, ?_, ?_⟩, ?_⟩
    · exact Nat.mod_lt _ positive
    · simp only [readBytes, heldEq]
      omega
    · simp only [readBytes, heldEq, u32_eq _ word, Nat.mod_add_mod]
      rw [range.last_eq]
      congr 1
      omega
    · rw [← stored, contents, contents, window_drop _ _ _ _ _ enough]
      simp only [readBytes, heldEq, u32_eq _ word]
  · rw [← stored, contents, window_take _ _ _ _ _ enough]
    symm
    apply window_eq_prefix
    intro offset inside
    have cell := wrap_mod rx.rxBufferSize (rx.rxFirst + offset) (by omega)
    simp only [readBytes, u32_eq _ word, index, tail, cell]
    by_cases linear : rx.rxFirst + len < rx.rxBufferSize
    · have forward : rx.rxFirst < rx.rxFirst + len := by omega
      rw [if_pos linear, if_pos forward, if_pos (by omega),
        copy_inside _ _ _ _ _ _ (by omega) (by omega)]
      congr 1
    · have backward : ¬ rx.rxFirst < rx.rxFirst + len - rx.rxBufferSize := by omega
      rw [if_neg linear, if_neg backward]
      by_cases before : rx.rxFirst + offset < rx.rxBufferSize
      · rw [if_pos before, copy_outside _ _ _ _ _ _ (by omega),
          copy_inside _ _ _ _ _ _ (by omega) (by omega)]
        congr 1
      · rw [if_neg before, copy_inside _ _ _ _ _ _ (by omega) (by omega)]
        congr 1
        omega

/-- One completed read does what taking from the queue does exactly when its
index sum is a value of `uint32_t`. -/
theorem read_step (rx : Rx) (buf : Memory) (len : Nat) (queue : List Byte)
    (holds : Holds rx queue) (some : 0 < len) (enough : len ≤ rx.rxHeld) :
    (Holds (readBytes rx buf len).rx (queue.drop len) ∧
      prefixOf (readBytes rx buf len).buf len = queue.take len) ↔ ReadFits rx len := by
  constructor
  · rintro ⟨after, -⟩
    have firstLt := holds.range.first_lt
    have heldLe := holds.range.held_le
    have sizeWord := holds.sized.word
    have heldEq := u32Sub_eq rx.rxHeld len (by omega) enough
    have lastEq := after.range.last_eq
    simp only [readBytes, heldEq] at lastEq
    rw [holds.range.last_eq] at lastEq
    apply Nat.lt_of_not_le
    intro sum
    have wrapped : u32 (rx.rxFirst + len) = rx.rxFirst + len - 2 ^ 32 := by unfold u32; omega
    rw [wrapped, Nat.mod_add_mod, wrap_mod _ (rx.rxFirst + rx.rxHeld) (by omega),
      if_neg (by omega), Nat.mod_eq_of_lt (by omega)] at lastEq
    omega
  · exact read_takes rx buf len queue holds some enough

end ScicosFlex.Usb.RxRing
