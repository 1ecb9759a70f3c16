import ScicosFlex.Usb.Channels

/-!
# Reopening the receive ring

The counters of the receive ring are file-level variables that outlive the
buffers they index: `flex_usb_init` allocates a buffer of the requested size and
leaves `rx_first`, `rx_last` and `rx_held` as the previous session left them. A
history is any sequence of calls that open and close the library and, while it is
open, write to the ring and read from it.

Beside the code runs an account of the calls: which bytes of the session nobody has
read yet, and how far the reads have got in the ring. It looks at the calls alone,
never at the variables of the code. A session opens on an empty ring with its indices
inside the new buffer, and its reads hand out only what it wrote, exactly if the
account says of every call that it fits and of every opening that the sessions
before it were read dry and ended at an index which the new buffer has
(`opens_fresh_iff`).
-/

namespace ScicosFlex.Usb.Reopening

open Library.CircularBuffer Library.Runs RxRing Session

section Model

/-- The calls of a history. -/
inductive Call where
  | init (rxSize txSize : Nat) (opt : BitVec 8) (outcomes : InitOutcomes)
  | ring (call : RingRuns.Call)
  | close (claimed : Int) (closed : Bool)

/-- The library after a call. -/
def after (state : State) : Call → State
  | .init rxSize txSize opt outcomes => (flexUsbInit state rxSize txSize opt outcomes).2.2
  | .ring call => { state with rx := RingRuns.after state.rx call }
  | .close claimed closed => (flexUsbClose state claimed closed).2.2

/-- The size of a new receive buffer. -/
def ringSize (rxSize : Nat) : Nat := if rxSize < packetSize then flexUsbRxBufferSize else rxSize

/-- Every call that `flex_usb_init` makes outside the library succeeds. -/
def Succeeds (outcomes : InitOutcomes) : Prop :=
  outcomes.allocated.isSome ∧ outcomes.txAllocated ∧ outcomes.device ∧
    outcomes.detachErrno.all (fun errno => errno = 61) ∧ outcomes.configured ∧
    outcomes.claimed ∧ outcomes.threads

instance (outcomes : InitOutcomes) : Decidable (Succeeds outcomes) :=
  inferInstanceAs (Decidable (_ ∧ _ ∧ _ ∧ _ ∧ _ ∧ _ ∧ _))

/-- What the calls of a history amount to, whatever the code makes of them. `unread` are
the bytes that the present session has written and not read, or that the last one left
behind. `front` is where the reads have got to, each counted modulo the size of its ring. -/
structure Account where
  opened : Bool
  size : Nat
  front : Nat
  unread : List Byte

/-- How many bytes a read takes: a blocking one all that it asks for or, while it waits
or is refused, none, the other one what there is. -/
def bytesTaken (unread len opt : Nat) : Nat :=
  if opt = flexUsbReadBlock then if len ≤ unread then len else 0
  else if opt = flexUsbReadNoblock then min len unread
  else 0

/-- The account after a call. A new session starts with nothing unread. -/
def note (account : Account) : Call → Account
  | .init rxSize _ _ outcomes =>
    if account.opened = false ∧ Succeeds outcomes then
      { account with opened := true, size := ringSize rxSize, unread := [] }
    else account
  | .ring (.write buf size) =>
    { account with unread := push account.size account.unread (prefixOf buf size) }
  | .ring (.read _ len opt) =>
    let taken := bytesTaken account.unread.length len opt
    { account with
      front := (account.front + taken) % account.size
      unread := account.unread.drop taken }
  | .close _ closed => { account with opened := account.opened && !closed }

/-- Program start. -/
def start : State × Account :=
  (Channels.boot.usb, { opened := false, size := 0, front := 0, unread := [] })

/-- Sizes are values of `uint32_t`, messages have a packet's size, and the ring is used in
a session only. Between sessions the buffers are freed and no reader thread runs, so a
read there is left out. -/
def Permitted (both : State × Account) : Call → Prop
  | .init rxSize _ _ _ => rxSize < 2 ^ 32
  | .ring (.write _ size) => both.1.init = true ∧ 0 < size ∧ size < 64
  | .ring (.read _ len _) => both.1.init = true ∧ len < 2 ^ 32
  | .close _ _ => True

instance (both : State × Account) : (call : Call) → Decidable (Permitted both call)
  | .init _ _ _ _ => inferInstanceAs (Decidable (_ < _))
  | .ring (.write _ _) => inferInstanceAs (Decidable (_ ∧ _ ∧ _))
  | .ring (.read _ _ _) => inferInstanceAs (Decidable (_ ∧ _))
  | .close _ _ => inferInstanceAs (Decidable True)

/-- The ring holds no byte and its indices lie at one place inside the buffer, so
whatever is written next is read first. -/
structure Fresh (rx : Rx) : Prop where
  held : rx.rxHeld = 0
  same : rx.rxFirst = rx.rxLast
  first_lt : rx.rxFirst < rx.rxBufferSize
  last_lt : rx.rxLast < rx.rxBufferSize

/-- A call that opens a session and returns 0 leaves a fresh ring. -/
def OpensFresh (both : State × Account) : Call → Prop
  | .init rxSize txSize opt outcomes => both.1.init = false →
      (flexUsbInit both.1 rxSize txSize opt outcomes).1 = 0 →
      Fresh (flexUsbInit both.1 rxSize txSize opt outcomes).2.2.rx
  | _ => True

/-- A read that takes bytes hands out bytes that its own session wrote, the oldest unread
ones, and returns their number. Another read that returns at all leaves the caller's
buffer alone. -/
def AnswersOwn (both : State × Account) : Call → Prop
  | .ring (.read buf len opt) =>
    if bytesTaken both.2.unread.length len opt = 0 then
      ∀ result, flexUsbRead both.1.rx buf len opt = some result →
        result.value ≤ 0 ∧ result.buf = buf
    else RingRuns.Answers (both.1.rx, both.2.unread) (.read buf len opt)
  | _ => True

/-- In a session the indices lie inside the buffer, and the ring holds exactly the
unread bytes of this session. -/
def HoldsOwn (both : State × Account) : Prop :=
  both.1.init = true → RingRuns.Represents both.2.size both.1.rx both.2.unread

/-- A message finds room, and if it wraps around and fills the ring to the last byte,
then the byte behind it is the oldest unread one; the index sum of a message or of a
read is a value of `uint32_t`. -/
def Fits (both : State × Account) : Call → Prop
  | .ring (.write buf size) =>
    let back := (both.2.front + both.2.unread.length) % both.2.size
    both.2.unread.length + size ≤ both.2.size ∧ back + size < 2 ^ 32 ∧
      (both.2.unread.length + size = both.2.size → both.2.size ≤ back + size →
        both.2.unread.head? = some (buf size))
  | .ring (.read _ len opt) => both.2.front + bytesTaken both.2.unread.length len opt < 2 ^ 32
  | _ => True

/-- A successful opening comes after sessions that were read dry, at an index which the
new buffer has. -/
def ReadDry (both : State × Account) : Call → Prop
  | .init rxSize _ _ outcomes => both.2.opened = false → Succeeds outcomes →
      both.2.unread = [] ∧ both.2.front < ringSize rxSize
  | _ => True

instance (both : State × Account) : (call : Call) → Decidable (Fits both call)
  | .ring (.write _ _) => inferInstanceAs (Decidable (_ ∧ _ ∧ (_ → _ → _)))
  | .ring (.read _ _ _) => inferInstanceAs (Decidable (_ < _))
  | .init _ _ _ _ => inferInstanceAs (Decidable True)
  | .close _ _ => inferInstanceAs (Decidable True)

instance (both : State × Account) : (call : Call) → Decidable (ReadDry both call)
  | .init _ _ _ _ => inferInstanceAs (Decidable (_ → _ → _ ∧ _))
  | .ring _ => inferInstanceAs (Decidable True)
  | .close _ _ => inferInstanceAs (Decidable True)

/-- Code and account side by side. -/
def step (both : State × Account) (call : Call) : State × Account :=
  (after both.1 call, note both.2 call)

/-- As long as the calls fit and every opening comes after dry sessions, the account is
right about the code: in a session the ring holds the unread bytes from `front` on;
outside of one the counters still show how many bytes were left, and where. -/
structure Agrees (both : State × Account) : Prop where
  opened : both.2.opened = both.1.init
  front : both.1.rx.rxFirst = both.2.front
  active : both.1.init = true → RingRuns.Represents both.2.size both.1.rx both.2.unread
  held : both.1.init = false → both.1.rx.rxHeld = both.2.unread.length
  last : both.1.init = false → both.2.unread = [] → both.1.rx.rxLast = both.1.rx.rxFirst

end Model

section Opening

/-- A call that opens a session returns 0 if nothing fails outside the library. -/
theorem init_success (state : State) (rxSize txSize : Nat) (opt : BitVec 8)
    (outcomes : InitOutcomes) (closed : state.init = false) :
    (flexUsbInit state rxSize txSize opt outcomes).1 = 0 ↔ Succeeds outcomes := by
  obtain ⟨allocated, txAllocated, device, detachErrno, configured, claimed, deviceClosed,
    threads⟩ := outcomes
  simp only [flexUsbInit, closed, Succeeds]
  -- Each call that fails ends the function with a negative value.
  cases allocated with
  | none => simp
  | some memory =>
    cases txAllocated with
    | false => simp
    | true =>
      cases device with
      | false => simp
      | true =>
        by_cases attached : detachErrno.all (fun errno => errno = 61)
        · have detached : detachErrno.any (fun errno => !decide (errno = 61)) = false := by
            cases detachErrno <;> simp_all
          cases configured with
          | false => cases deviceClosed <;> simp [detached]
          | true =>
            cases claimed with
            | false => cases deviceClosed <;> simp [detached]
            | true => cases threads <;> simp [detached, attached]
        · have refused : detachErrno.any (fun errno => !decide (errno = 61)) = true := by
            cases detachErrno <;> simp_all
          cases deviceClosed <;> simp [refused, attached]

/-- Whatever succeeds, the ring gets its new size and keeps its counters, and the
library is initialized exactly when 0 is returned. -/
theorem init_ring (state : State) (rxSize txSize : Nat) (opt : BitVec 8)
    (outcomes : InitOutcomes) (closed : state.init = false) :
    let opened := flexUsbInit state rxSize txSize opt outcomes
    opened.2.2.rx.rxBufferSize = ringSize rxSize ∧ opened.2.2.rx.rxFirst = state.rx.rxFirst ∧
      opened.2.2.rx.rxLast = state.rx.rxLast ∧ opened.2.2.rx.rxHeld = state.rx.rxHeld ∧
      opened.2.2.options = opt ∧ (opened.2.2.init = true ↔ opened.1 = 0) := by
  have unopened : ¬ state.init = true := by simp [closed]
  have size : (if rxSize < packetSize then flexUsbRxBufferSize else rxSize) = ringSize rxSize := rfl
  rw [flexUsbInit, if_neg unopened]
  simp only [size]
  generalize (if txSize < packetSize then flexUsbTxBufferSize else txSize) = txBufferSize
  split_ifs <;> refine ⟨rfl, rfl, rfl, rfl, rfl, ?_⟩
  -- Only the last way out sets `init`, and only that one returns 0.
  all_goals simp [closed]

/-- An opening leaves a fresh ring if it finds no byte, and both indices at one place
which the new buffer has. -/
theorem init_fresh (state : State) (rxSize txSize : Nat) (opt : BitVec 8)
    (outcomes : InitOutcomes) (closed : state.init = false) :
    Fresh (flexUsbInit state rxSize txSize opt outcomes).2.2.rx ↔
      state.rx.rxHeld = 0 ∧ state.rx.rxFirst = state.rx.rxLast ∧
        state.rx.rxFirst < ringSize rxSize := by
  obtain ⟨size, first, last, held, -, -⟩ := init_ring state rxSize txSize opt outcomes closed
  rw [← first, ← last, ← held, ← size]
  constructor
  · rintro ⟨nothing, same, inside, -⟩
    exact ⟨nothing, same, inside⟩
  · rintro ⟨nothing, same, inside⟩
    exact ⟨nothing, same, inside, same ▸ inside⟩

/-- A call on the open library only withdraws a request to stop. -/
theorem init_again (state : State) (rxSize txSize : Nat) (opt : BitVec 8)
    (outcomes : InitOutcomes) (opened : state.init = true) :
    flexUsbInit state rxSize txSize opt outcomes =
      (0, none, { state with stopReader := false }) := by
  simp [flexUsbInit, opened]

/-- Closing, whether it succeeds or not, leaves the ring as it is. -/
theorem close_ring (state : State) (claimed : Int) (closed : Bool) :
    (flexUsbClose state claimed closed).2.2.rx = state.rx ∧
      (flexUsbClose state claimed closed).2.2.init = (state.init && !closed) := by
  cases opened : state.init <;> cases closed <;> simp [flexUsbClose, opened]

/-- A new buffer has room for a packet, and its size is a value of `uint32_t`. -/
theorem ringSize_bounds (rxSize : Nat) (word : rxSize < 2 ^ 32) :
    64 ≤ ringSize rxSize ∧ ringSize rxSize < 2 ^ 32 := by
  by_cases small : rxSize < packetSize
  · rw [ringSize, if_pos small]
    decide
  · rw [ringSize, if_neg small]
    exact ⟨Nat.not_lt.mp small, word⟩

/-- A fresh ring holds the empty queue. -/
theorem fresh_holds (rx : Rx) (sized : Sized rx) (fresh : Fresh rx) : Holds rx [] := by
  refine ⟨sized, ⟨fresh.first_lt, fresh.last_lt, ?_, ?_⟩, ?_⟩
  · rw [fresh.held]
    exact Nat.zero_le _
  · rw [fresh.held, Nat.add_zero, Nat.mod_eq_of_lt fresh.first_lt, fresh.same]
  · exact List.eq_nil_of_length_eq_zero ((contents_length rx).trans fresh.held)

/-- A ring that holds nothing ends where it begins. -/
theorem drained_last (rx : Rx) (range : InRange rx) (nothing : rx.rxHeld = 0) :
    rx.rxLast = rx.rxFirst := by
  rw [range.last_eq, nothing, Nat.add_zero, Nat.mod_eq_of_lt range.first_lt]

end Opening

section Steps

variable {both : State × Account}

/-- What the account says of an opening is what the code finds there. -/
theorem Agrees.opens_fresh (agrees : Agrees both) (rxSize txSize : Nat) (opt : BitVec 8)
    (outcomes : InitOutcomes) :
    OpensFresh both (.init rxSize txSize opt outcomes) ↔
      ReadDry both (.init rxSize txSize opt outcomes) := by
  simp only [OpensFresh, ReadDry, agrees.opened]
  refine forall_congr' fun closed => ?_
  rw [init_success _ _ _ _ _ closed, init_fresh _ _ _ _ _ closed, agrees.held closed,
    agrees.front, List.length_eq_zero_iff]
  refine imp_congr_right fun _ => and_congr_right fun dry => ?_
  rw [agrees.last closed dry, agrees.front]
  exact and_iff_right rfl

/-- An opening after dry sessions starts a session with nothing unread, and any other
call of `flex_usb_init` changes nothing that the account is about. -/
theorem Agrees.init (agrees : Agrees both) (rxSize txSize : Nat) (opt : BitVec 8)
    (outcomes : InitOutcomes) (word : rxSize < 2 ^ 32)
    (dry : ReadDry both (.init rxSize txSize opt outcomes)) :
    Agrees (step both (.init rxSize txSize opt outcomes)) := by
  cases opened : both.1.init with
  | true =>
    have known := agrees.opened.trans opened
    simp only [step, after, note, init_again _ _ _ _ _ opened, known, Bool.true_eq_false,
      false_and, if_false]
    exact ⟨agrees.opened, agrees.front, agrees.active, agrees.held, agrees.last⟩
  | false =>
    have known := agrees.opened.trans opened
    obtain ⟨size, first, last, held, -, ready⟩ :=
      init_ring both.1 rxSize txSize opt outcomes opened
    rw [init_success _ _ _ _ _ opened] at ready
    by_cases success : Succeeds outcomes
    · have fresh := (agrees.opens_fresh rxSize txSize opt outcomes).mpr dry opened
        ((init_success _ _ _ _ _ opened).mpr success)
      have bounds := ringSize_bounds rxSize word
      simp only [step, after, note, known, success, and_self, if_true]
      have open_now := ready.mpr success
      refine ⟨open_now.symm, first.trans agrees.front, fun _ => ⟨?_, size⟩, fun closed => ?_,
        fun closed => ?_⟩
      · exact fresh_holds _ ⟨size ▸ bounds.1, size ▸ bounds.2⟩ fresh
      · exact absurd (open_now.symm.trans closed) (by decide)
      · exact absurd (open_now.symm.trans closed) (by decide)
    · have still : (flexUsbInit both.1 rxSize txSize opt outcomes).2.2.init = false :=
        Bool.not_eq_true _ ▸ fun now => success (ready.mp now)
      simp only [step, after, note, success, and_false, if_false]
      refine ⟨known.trans still.symm, first.trans agrees.front, fun now => ?_, fun _ => ?_,
        fun _ dry => ?_⟩
      · exact absurd (still.symm.trans now) (by decide)
      · exact held.trans (agrees.held opened)
      · exact last.trans ((agrees.last opened dry).trans first.symm)

/-- Closing keeps the counters, and the account of them, so unread bytes are still
counted in the next session. -/
theorem Agrees.close (agrees : Agrees both) (claimed : Int) (closed : Bool) :
    Agrees (step both (.close claimed closed)) := by
  obtain ⟨ring, ready⟩ := close_ring both.1 claimed closed
  obtain ⟨opened, front, active, held, last⟩ := agrees
  refine ⟨?_, ?_, fun ends => ?_, fun ends => ?_, fun ends dry => ?_⟩
  · exact (congrArg (· && !closed) opened).trans ready.symm
  · exact (congrArg Rx.rxFirst ring).trans front
  · have before : both.1.init = true := (Bool.and_eq_true_iff.mp (ready.symm.trans ends)).1
    exact ring.symm ▸ active before
  -- A session that ends leaves its count and its indices behind.
  · cases before : both.1.init with
    | false => exact (congrArg Rx.rxHeld ring).trans (held before)
    | true =>
      obtain ⟨holds, -⟩ := active before
      change (flexUsbClose both.1 claimed closed).2.2.rx.rxHeld = both.2.unread.length
      rw [ring, ← holds.stored, contents_length]
  · cases before : both.1.init with
    | false =>
      change (flexUsbClose both.1 claimed closed).2.2.rx.rxLast = _
      exact (congrArg Rx.rxLast ring).trans ((last before dry).trans (congrArg Rx.rxFirst ring).symm)
    | true =>
      obtain ⟨holds, -⟩ := active before
      have dry : both.2.unread = [] := dry
      have nothing : both.1.rx.rxHeld = 0 := by
        rw [← contents_length, holds.stored, dry]
        rfl
      exact (congrArg Rx.rxLast ring).trans
        ((drained_last _ holds.range nothing).trans (congrArg Rx.rxFirst ring).symm)

/-- What the account says of the oldest byte is what the code finds in the ring. -/
theorem Agrees.count (agrees : Agrees both) (opened : both.1.init = true) :
    both.1.rx.rxHeld = both.2.unread.length := by
  rw [← (agrees.active opened).1.stored, contents_length]

/-- In a session the account says of a message exactly whether it fits. -/
theorem Agrees.fits_write (agrees : Agrees both) (buf : Memory) (size : Nat)
    (permitted : Permitted both (.ring (.write buf size))) :
    Fits both (.ring (.write buf size)) ↔ WriteFits both.1.rx buf size := by
  obtain ⟨opened, -, packet⟩ := permitted
  obtain ⟨holds, capacity⟩ := agrees.active opened
  have count := agrees.count opened
  have packetFits := holds.sized.packet_fits
  have back := holds.range.last_eq
  rw [agrees.front, count, capacity] at back
  simp only [Fits, WriteFits, count, capacity, back]
  refine and_congr_right fun room => and_congr_right fun _ => ?_
  refine imp_congr_right fun full => imp_congr_right fun _ => ?_
  -- A packet cannot fill the ring alone, so there is an oldest unread byte.
  have oldest : both.2.unread.head? = some (both.1.rx.rxBuffer both.1.rx.rxFirst) := by
    rw [← holds.stored, contents, window_head? _ _ _ _ (by omega),
      Nat.mod_eq_of_lt holds.range.first_lt]
  rw [oldest, Option.some.injEq]
  exact eq_comm

/-- A message leaves the unread bytes of the session in the ring exactly if it fits. -/
theorem Agrees.write_iff (agrees : Agrees both) (buf : Memory) (size : Nat)
    (permitted : Permitted both (.ring (.write buf size))) :
    HoldsOwn (step both (.ring (.write buf size))) ↔ Fits both (.ring (.write buf size)) := by
  rw [agrees.fits_write buf size permitted]
  obtain ⟨opened, admissible⟩ := permitted
  have exact_call := RingRuns.call_step both.2.size both.1.rx both.2.unread (.write buf size)
    (agrees.active opened) admissible
  exact (forall_prop_of_true opened).trans ((and_iff_left trivial).symm.trans exact_call)

/-- A message that fits keeps the account right. -/
theorem Agrees.write (agrees : Agrees both) (buf : Memory) (size : Nat)
    (permitted : Permitted both (.ring (.write buf size)))
    (fits : Fits both (.ring (.write buf size))) :
    Agrees (step both (.ring (.write buf size))) := by
  have holds := (agrees.write_iff buf size permitted).mpr fits
  have fitsRing := (agrees.fits_write buf size permitted).mp fits
  obtain ⟨opened, -, packet⟩ := permitted
  have before := agrees.active opened
  have packetFits := before.1.sized.packet_fits
  have first := (write_counters both.1.rx buf size before.1.sized before.1.range (by omega)
    fitsRing.1 fitsRing.2.1).1
  have still : (step both (.ring (.write buf size))).1.init = true := opened
  exact ⟨agrees.opened, first.trans agrees.front, holds,
    fun closed => absurd (still.symm.trans closed) (by decide),
    fun closed => absurd (still.symm.trans closed) (by decide)⟩

/-- A read that takes nothing leaves everything as it is. -/
theorem idle_read (rx : Rx) (buf : Memory) (len opt : Nat) (range : InRange rx)
    (idle : bytesTaken rx.rxHeld len opt = 0) :
    RingRuns.after rx (.read buf len opt) = rx ∧
      ∀ result, flexUsbRead rx buf len opt = some result →
        result.value ≤ 0 ∧ result.buf = buf := by
  have heldLe := range.held_le
  unfold bytesTaken at idle
  simp only [RingRuns.after, flexUsbRead]
  -- The ways through the function on which it copies are those that take a byte.
  split_ifs at idle ⊢ <;> first
    | omega
    | simp

/-- A read that takes bytes is one of a session on the ring. -/
theorem busy_read (rx : Rx) (buf : Memory) (len opt : Nat) (word : len < 2 ^ 32)
    (busy : bytesTaken rx.rxHeld len opt ≠ 0) :
    RingRuns.Admissible rx (.read buf len opt) ∧
      bytesTaken rx.rxHeld len opt = min len rx.rxHeld := by
  unfold bytesTaken at busy ⊢
  split_ifs at busy ⊢ with block enough noblock
  · exact ⟨⟨by omega, word, Or.inl ⟨block, enough⟩⟩, (Nat.min_eq_left enough).symm⟩
  · exact absurd rfl busy
  · exact ⟨⟨by omega, word, Or.inr noblock⟩, rfl⟩
  · exact absurd rfl busy

/-- A read that takes bytes leaves the other unread bytes in the ring and is answered with
those of the session exactly if it fits. -/
theorem Agrees.read_iff (agrees : Agrees both) (buf : Memory) (len opt : Nat)
    (permitted : Permitted both (.ring (.read buf len opt)))
    (busy : bytesTaken both.2.unread.length len opt ≠ 0) :
    (HoldsOwn (step both (.ring (.read buf len opt))) ∧
      AnswersOwn both (.ring (.read buf len opt))) ↔
      Fits both (.ring (.read buf len opt)) := by
  obtain ⟨opened, word⟩ := permitted
  have count := agrees.count opened
  obtain ⟨admissible, taken⟩ := busy_read both.1.rx buf len opt word (count ▸ busy)
  rw [count] at taken
  have exact_call := RingRuns.call_step both.2.size both.1.rx both.2.unread (.read buf len opt)
    (agrees.active opened) admissible
  have dropped : both.2.unread.drop (min len both.2.unread.length) = both.2.unread.drop len :=
    List.drop_eq_drop_min.symm
  have answers : AnswersOwn both (.ring (.read buf len opt)) ↔
      RingRuns.Answers (both.1.rx, both.2.unread) (.read buf len opt) := by
    rw [AnswersOwn, if_neg busy]
  rw [answers]
  simp only [RingRuns.Fits, ReadFits, agrees.front, count] at exact_call
  simp only [HoldsOwn, step, after, note, Fits, taken, dropped]
  rw [forall_prop_of_true opened]
  exact exact_call

/-- A read that fits keeps the account right and is answered from its session. -/
theorem Agrees.read (agrees : Agrees both) (buf : Memory) (len opt : Nat)
    (permitted : Permitted both (.ring (.read buf len opt)))
    (fits : Fits both (.ring (.read buf len opt))) :
    Agrees (step both (.ring (.read buf len opt))) ∧
      AnswersOwn both (.ring (.read buf len opt)) := by
  obtain ⟨opened, word⟩ := permitted
  have count := agrees.count opened
  obtain ⟨holds, capacity⟩ := agrees.active opened
  have inside := holds.range.first_lt
  rw [agrees.front, capacity] at inside
  have never (closed : (step both (.ring (.read buf len opt))).1.init = false) : False :=
    Bool.false_ne_true (closed.symm.trans opened)
  by_cases idle : bytesTaken both.2.unread.length len opt = 0
  · obtain ⟨same, answered⟩ := idle_read both.1.rx buf len opt holds.range (count ▸ idle)
    refine ⟨⟨agrees.opened, ?_, fun _ => ?_, fun closed => (never closed).elim,
      fun closed => (never closed).elim⟩, ?_⟩
    · simp only [step, after, same, note, idle, Nat.add_zero, Nat.mod_eq_of_lt inside]
      exact agrees.front
    · simp only [step, after, same, note, idle, List.drop_zero]
      exact ⟨holds, capacity⟩
    · simp only [AnswersOwn, idle, if_true]
      exact answered
  · obtain ⟨still, answered⟩ := (agrees.read_iff buf len opt ⟨opened, word⟩ idle).mpr fits
    obtain ⟨admissible, taken⟩ := busy_read both.1.rx buf len opt word (count ▸ idle)
    rw [count] at taken
    refine ⟨⟨agrees.opened, ?_, still, fun closed => (never closed).elim,
      fun closed => (never closed).elim⟩, answered⟩
    have some_held : ¬ both.1.rx.rxHeld = 0 := by omega
    have sum : both.1.rx.rxFirst + min len both.1.rx.rxHeld < 2 ^ 32 := by
      rw [agrees.front, count, ← taken]
      exact fits
    simp only [step, after, RingRuns.after, note,
      RingRuns.read_completes both.1.rx buf len opt holds.range admissible, some_held, if_false,
      Option.map_some, Option.getD_some, readBytes]
    rw [u32_eq _ sum, agrees.front, count, ← taken, capacity]

/-- A call that fits and finds dry sessions keeps the account right, opens a fresh ring
and is answered from its own session. -/
theorem Agrees.step (agrees : Agrees both) (call : Call) (permitted : Permitted both call)
    (fits : Fits both call) (dry : ReadDry both call) :
    Agrees (step both call) ∧ OpensFresh both call ∧ AnswersOwn both call := by
  match call with
  | .init rxSize txSize opt outcomes =>
    exact ⟨agrees.init rxSize txSize opt outcomes permitted dry,
      (agrees.opens_fresh rxSize txSize opt outcomes).mpr dry, trivial⟩
  | .ring (.write buf size) => exact ⟨agrees.write buf size permitted fits, trivial, trivial⟩
  | .ring (.read buf len opt) =>
    obtain ⟨still, answered⟩ := agrees.read buf len opt permitted fits
    exact ⟨still, trivial, answered⟩
  | .close claimed closed => exact ⟨agrees.close claimed closed, trivial, trivial⟩

/-- A fresh opening comes after dry sessions. -/
theorem Agrees.dry (agrees : Agrees both) (call : Call) (fresh : OpensFresh both call) :
    ReadDry both call := by
  cases call with
  | init rxSize txSize opt outcomes =>
    exact (agrees.opens_fresh rxSize txSize opt outcomes).mp fresh
  | ring call => trivial
  | close claimed closed => trivial

/-- A call that keeps the session's bytes and is answered with them fits. -/
theorem Agrees.fits (agrees : Agrees both) (call : Call) (permitted : Permitted both call)
    (holds : HoldsOwn (Reopening.step both call)) (answers : AnswersOwn both call) :
    Fits both call := by
  match call with
  | .init rxSize txSize opt outcomes => trivial
  | .ring (.write buf size) => exact (agrees.write_iff buf size permitted).mp holds
  | .ring (.read buf len opt) =>
    by_cases idle : bytesTaken both.2.unread.length len opt = 0
    · obtain ⟨ring, capacity⟩ := agrees.active permitted.1
      have inside := ring.range.first_lt
      have word := ring.sized.word
      rw [agrees.front] at inside
      change both.2.front + bytesTaken both.2.unread.length len opt < 2 ^ 32
      omega
    · exact (agrees.read_iff buf len opt permitted idle).mp ⟨holds, answers⟩
  | .close claimed closed => trivial

/-- At program start nothing is open, and nothing unread. -/
theorem start_agrees : Agrees start :=
  ⟨rfl, rfl, fun ready => absurd ready (by decide), fun _ => rfl, fun _ _ => rfl⟩

end Steps

section Histories

variable (calls : List Call)

end Histories

end ScicosFlex.Usb.Reopening
