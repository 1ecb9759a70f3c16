import ScicosFlex.Library.Runs
import ScicosFlex.Usb.RxRing

/-!
# Sessions on the receive ring

A session is any sequence of writes of the reader thread and completed reads of
the application, started on an empty ring. It is compared with a queue of bytes
that starts empty, drops its oldest bytes when a message does not fit, and hands
out the oldest bytes first.

`ring_refines_queue` says exactly which sessions refine that queue: those in
which every call fits. A session leaves this class as soon as a message finds
too few free bytes, since the code then counts more held bytes than the ring
has, or when a message wraps around and fills the ring to the last byte, since
the extra copied byte then lands on the oldest held byte.
-/

namespace ScicosFlex.Usb.RingRuns

open Library.CircularBuffer Library.Runs RxRing

/-- The calls that reach the ring within a session. -/
inductive Call where
  | write (buf : Memory) (size : Nat)
  | read (buf : Memory) (len opt : Nat)

/-- The ring of a fresh session: all counters zero, the memory as allocated. -/
def start (rxBufferSize : Nat) (allocated : Memory) : Rx :=
  { rxBuffer := allocated, rxBufferSize := rxBufferSize, rxFirst := 0, rxLast := 0, rxHeld := 0 }

/-- The ring after a call. A read that has to wait has not completed. -/
def after (rx : Rx) : Call → Rx
  | .write buf size => writeRxBufferShift rx buf size
  | .read buf len opt => ((flexUsbRead rx buf len opt).map ReadResult.rx).getD rx

/-- The calls of a session: messages of a packet's size, blocking reads that
have enough bytes, and nonblocking reads. -/
def Admissible (rx : Rx) : Call → Prop
  | .write _ size => 0 < size ∧ size < 64
  | .read _ len opt => 0 < len ∧ len < 2 ^ 32 ∧
      (opt = flexUsbReadBlock ∧ len ≤ rx.rxHeld ∨ opt = flexUsbReadNoblock)

instance (rx : Rx) : (call : Call) → Decidable (Admissible rx call)
  | .write _ _ => inferInstanceAs (Decidable (_ ∧ _))
  | .read _ _ _ => inferInstanceAs (Decidable (_ ∧ _ ∧ (_ ∧ _ ∨ _)))

/-- The guard of a call: `WriteFits`, and `ReadFits` for the bytes it will take. -/
def Fits (rx : Rx) : Call → Prop
  | .write buf size => WriteFits rx buf size
  | .read _ len _ => ReadFits rx (min len rx.rxHeld)

instance (rx : Rx) : (call : Call) → Decidable (Fits rx call)
  | .write buf size => inferInstanceAs (Decidable (WriteFits rx buf size))
  | .read _ len _ => inferInstanceAs (Decidable (ReadFits rx (min len rx.rxHeld)))

/-- The queue after a call. -/
def next (capacity : Nat) (queue : List Byte) : Call → List Byte
  | .write buf size => push capacity queue (prefixOf buf size)
  | .read _ len _ => queue.drop len

/-- A read returns the oldest bytes of the queue in the caller's buffer, and
their number. -/
def Answers (both : Rx × List Byte) : Call → Prop
  | .write _ _ => True
  | .read buf len opt => ∃ result, flexUsbRead both.1 buf len opt = some result ∧
      result.value = int32 (both.2.take len).length ∧
      prefixOf result.buf (both.2.take len).length = both.2.take len

/-- The ring holds exactly the bytes of the queue, oldest first and across its end, and
has the queue's capacity. -/
def Represents (capacity : Nat) (rx : Rx) (queue : List Byte) : Prop :=
  Holds rx queue ∧ rx.rxBufferSize = capacity

/-- Both policies end in the same copy, of as many bytes as are asked for and held. -/
theorem read_completes (rx : Rx) (buf : Memory) (len opt : Nat) (range : InRange rx)
    (admitted : Admissible rx (.read buf len opt)) :
    flexUsbRead rx buf len opt =
      if rx.rxHeld = 0 then some ⟨0, buf, rx⟩ else some (readBytes rx buf (min len rx.rxHeld)) := by
  obtain ⟨positive, -, policy⟩ := admitted
  have held := range.held_le
  have nonzero : len ≠ 0 := by omega
  rcases policy with ⟨rfl, enough⟩ | rfl
  · have small : ¬ rx.rxBufferSize < len := by omega
    have ready : ¬ rx.rxHeld < len := by omega
    have held_pos : rx.rxHeld ≠ 0 := by omega
    simp [flexUsbRead, nonzero, small, ready, held_pos, Nat.min_eq_left enough]
  · have other : ¬ flexUsbReadNoblock = flexUsbReadBlock := by decide
    by_cases empty : rx.rxHeld = 0
    · simp [flexUsbRead, nonzero, other, empty]
    · by_cases short : rx.rxHeld < len
      · simp [flexUsbRead, nonzero, other, empty, short, Nat.min_eq_right (Nat.le_of_lt short)]
      · simp [flexUsbRead, nonzero, other, empty, short, Nat.min_eq_left (Nat.le_of_not_lt short)]

/-- One call of a session matches one step of the queue exactly when it fits. A call that
does not fit leaves a cell or an index that no queue of this capacity could have. -/
theorem call_step (capacity : Nat) (rx : Rx) (queue : List Byte) (call : Call)
    (represents : Represents capacity rx queue) (admitted : Admissible rx call) :
    (Represents capacity (after rx call) (next capacity queue call) ∧
      Answers (rx, queue) call) ↔ Fits rx call := by
  obtain ⟨holds, rfl⟩ := represents
  cases call with
  | write buf size =>
    have step := write_step rx buf size queue holds admitted.1 admitted.2
    have packetFits := holds.sized.packet_fits
    have sameSize : (writeRxBufferShift rx buf size).rxBufferSize = rx.rxBufferSize := by
      have small : ¬ rx.rxBufferSize ≤ size := by have := admitted.2; omega
      simp [writeRxBufferShift, small]
    simpa [after, next, Answers, Fits, Represents, sameSize] using step
  | read buf len opt =>
    have completed := read_completes rx buf len opt holds.range admitted
    have queueLength : queue.length = rx.rxHeld := by rw [← holds.stored, contents_length]
    have shorter : (queue.take len).length = min len rx.rxHeld := by
      rw [List.length_take, queueLength]
    by_cases empty : rx.rxHeld = 0
    · have vacant : queue = [] := List.eq_nil_of_length_eq_zero (queueLength.trans empty)
      have firstLt := holds.range.first_lt
      have word := holds.sized.word
      subst vacant
      simp only [empty, if_true] at completed
      simp only [after, completed, next, Answers, Fits, Represents, ReadFits, empty, Nat.min_zero,
        Nat.add_zero, Option.map_some, Option.getD_some, List.drop_nil, List.take_nil,
        List.length_nil, prefixOf, List.range_zero, List.map_nil, and_true,
        Option.some.injEq, exists_eq_left']
      exact ⟨fun _ => by omega, fun _ => ⟨holds, rfl⟩⟩
    · have positive := admitted.1
      have step := read_step rx buf (min len rx.rxHeld) queue holds (by omega) (Nat.min_le_right ..)
      have dropped : queue.drop (min len rx.rxHeld) = queue.drop len := by
        rw [← queueLength, ← List.drop_eq_drop_min]
      have taken : queue.take (min len rx.rxHeld) = queue.take len := by
        rw [← queueLength, ← List.take_eq_take_min]
      rw [dropped, taken] at step
      simp only [empty, if_false] at completed
      simp only [after, completed, next, Answers, Fits, Represents, Option.map_some, Option.getD_some,
        Option.some.injEq, exists_eq_left', shorter]
      rw [← step]
      constructor
      · rintro ⟨⟨related, -⟩, -, bytes⟩
        exact ⟨related, bytes⟩
      · rintro ⟨related, bytes⟩
        exact ⟨⟨related, rfl⟩, rfl, bytes⟩

/-- A fresh session represents the empty queue. -/
theorem start_represents (rxBufferSize : Nat) (allocated : Memory)
    (packet_fits : 64 ≤ rxBufferSize) (word : rxBufferSize < 2 ^ 32) :
    Represents rxBufferSize (start rxBufferSize allocated) [] := by
  have positive : 0 < rxBufferSize := by omega
  exact ⟨⟨⟨packet_fits, word⟩, ⟨positive, positive, Nat.zero_le _, by simp [start]⟩, rfl⟩, rfl⟩

/-- A session refines the bounded drop-oldest queue: in every state the counters
are in range and the ring holds the bytes of the queue, and every read answers
with the oldest bytes of the queue. -/
def RefinesQueue (rxBufferSize : Nat) (allocated : Memory) (calls : List Call) : Prop :=
  Reached (paired after (next rxBufferSize))
      (fun both => Represents rxBufferSize both.1 both.2) (start rxBufferSize allocated, []) calls ∧
    Throughout (paired after (next rxBufferSize)) Answers (start rxBufferSize allocated, []) calls

/-- A session of admissible calls refines the queue exactly when each of its calls fits.
The step law supplies the equivalence for one call, the simulation rule carries it along
the session. Rings smaller than a packet are left out, since the library makes none; a
call that does not fit may copy a byte too many or take the wrong branch, and then the
relation is lost. -/
theorem ring_refines_queue (rxBufferSize : Nat) (allocated : Memory) (calls : List Call)
    (packet_fits : 64 ≤ rxBufferSize) (word : rxBufferSize < 2 ^ 32)
    (legal : Throughout after Admissible (start rxBufferSize allocated) calls) :
    RefinesQueue rxBufferSize allocated calls ↔
      Throughout after Fits (start rxBufferSize allocated) calls :=
  simulation_iff after (next rxBufferSize) (Represents rxBufferSize) Admissible Fits Answers
    (call_step rxBufferSize) (start rxBufferSize allocated) [] calls
    (start_represents rxBufferSize allocated packet_fits word) legal

/-- Forty bytes, a nonblocking read of thirty and forty more: the second message
wraps around, fits, and the session refines the queue. -/
theorem wrapping_session_refines :
    RefinesQueue 64 (fun _ => 0) [.write (fun i => BitVec.ofNat 8 i) 40,
      .read (fun _ => 0) 30 flexUsbReadNoblock, .write (fun i => BitVec.ofNat 8 i) 40] := by
  refine (ring_refines_queue 64 (fun _ => 0) _ (by decide) (by decide) ?_).mpr ?_
  · simp only [throughout_cons]
    exact ⟨by decide, by decide, by decide, throughout_nil _ _ _⟩
  · simp only [throughout_cons]
    exact ⟨by decide, by decide, by decide, throughout_nil _ _ _⟩

/-- Not every session refines the queue: after two messages of forty bytes the
64-byte ring counts eighty held bytes. -/
theorem overflow_is_miscounted :
    ¬ ∀ (rxBufferSize : Nat) (allocated : Memory) (calls : List Call),
      64 ≤ rxBufferSize → rxBufferSize < 2 ^ 32 →
      Throughout after Admissible (start rxBufferSize allocated) calls →
      RefinesQueue rxBufferSize allocated calls := by
  intro always
  have legal : Throughout after Admissible (start 64 (fun _ => 0))
      [.write (fun _ => 1) 40, .write (fun _ => 2) 40] := by
    simp only [throughout_cons]
    exact ⟨by decide, by decide, throughout_nil _ _ _⟩
  have refined := (always 64 (fun _ => 0) _ (by decide) (by decide) legal).1 _ []
    (List.append_nil _).symm
  rw [run_paired] at refined
  exact absurd refined.1.range.held_le (by decide)

end ScicosFlex.Usb.RingRuns
