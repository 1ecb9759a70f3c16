import ScicosFlex.Usb.BlockSessions
import ScicosFlex.Usb.Reopening

/-!
# What the channels show

A history of Scicos sessions: blocks open and close the link, the device delivers
packets that use all 60 payload bytes, and blocks read and write channels, in any order
and over any number of sessions.

The snapshot is all zeros or one whole received packet, and the ring holds whole packets
of its own session, if and only if every packet finds room for its 60 bytes and every
opening of the link finds an empty ring (`snapshots_are_packets_iff`). The fifth unread
packet does not fit into the 256 bytes of the ring, and since no call resets the counters
of the ring, a session that ends with unread packets spoils the next one.
-/

namespace ScicosFlex.Usb.Snapshots

open Library.CircularBuffer Library.Runs Packet RxRing Session Channels BlockSessions
open RingRuns (Represents start_represents)
open Reopening (init_ring init_again init_fresh close_ring fresh_holds drained_last)

section Model

/-- The variables of the code, every payload received since program start, and those
received since the link was opened last. -/
structure History where
  scicos : Scicos
  received : List Payload
  session : List Payload

/-- What arrives with a call. -/
def arrivals : Call → List Payload
  | .deliver packet _ => [packet.payload]
  | _ => []

/-- A call goes over from a closed link to an open one. -/
def Opens (scicos : Scicos) (call : Call) : Prop :=
  scicos.usb.init = false ∧ (after scicos call).usb.init = true

instance (scicos : Scicos) (call : Call) : Decidable (Opens scicos call) :=
  inferInstanceAs (Decidable (_ ∧ _))

/-- The history after a call. -/
def step (history : History) (call : Call) : History :=
  { scicos := after history.scicos call
    received := history.received ++ arrivals call
    session :=
      if Opens history.scicos call then [] else history.session ++ arrivals call }

/-- Program start. -/
def start : History := { scicos := boot, received := [], session := [] }

/-- Packets arrive while the link is open, with all 60 payload bytes in use, and channels
are read in sessions with at least one read block. A session whose `flex_usbscicos_close`
failed half way, with the link closed and the blocks still initialised, reads no more. -/
def Permitted (history : History) : Call → Prop
  | .deliver packet _ => history.scicos.usb.init = true ∧ packet.length = 60
  | .read _ => history.scicos.isInitialized = true →
      history.scicos.usb.init = true ∧ 0 < history.scicos.readBlockNumber
  | _ => True

/-- An array shows all zeros or the whole payload of one received packet. -/
def OnePacket (array : Memory) (received : List Payload) : Prop :=
  (∀ cell, cell < 60 → array cell = 0) ∨
    ∃ payload ∈ received, ∀ cell : Fin 60, array cell.val = payload cell

/-- The snapshot is one packet. While the link is open, the stream is aligned: the ring
holds whole packets, which are the last ones that this session has received. -/
structure Whole (history : History) : Prop where
  snapshot : OnePacket history.scicos.rxBufferScicos history.received
  aligned : history.scicos.usb.init = true → ∃ waiting : List Payload,
    waiting <:+ history.session ∧
      Represents 256 history.scicos.usb.rx (waiting.flatMap payloadBytes)

/-- A channel read returns that channel of all zeros or of one received packet. -/
def OneChannel (history : History) : Call → Prop
  | .read ch => ∃ value next, flexUsbscicosRead history.scicos ch = some (value, next) ∧
      ∃ snapshot, OnePacket snapshot history.received ∧ value = channel snapshot ch
  | _ => True

/-- A packet finds room for its 60 bytes, and a call that opens the link finds no byte. -/
def Proper (history : History) : Call → Prop
  | .deliver _ _ => history.scicos.usb.rx.rxHeld + 60 ≤ history.scicos.usb.rx.rxBufferSize
  | .init blockType outcomes threads =>
    Opens history.scicos (.init blockType outcomes threads) → history.scicos.usb.rx.rxHeld = 0
  | _ => True

instance (history : History) : (call : Call) → Decidable (Permitted history call)
  | .deliver _ _ => inferInstanceAs (Decidable (_ ∧ _))
  | .read _ => inferInstanceAs (Decidable (_ → _ ∧ _))
  | .init _ _ _ => inferInstanceAs (Decidable True)
  | .close _ _ => inferInstanceAs (Decidable True)
  | .write _ _ _ => inferInstanceAs (Decidable True)

instance (history : History) : (call : Call) → Decidable (Proper history call)
  | .deliver _ _ => inferInstanceAs (Decidable (_ ≤ _))
  | .init _ _ _ => inferInstanceAs (Decidable (_ → _))
  | .read _ => inferInstanceAs (Decidable True)
  | .close _ _ => inferInstanceAs (Decidable True)
  | .write _ _ _ => inferInstanceAs (Decidable True)

/-- What proper calls keep: the packets are whole, the reader thread has the shift
policy, and a closed link leaves the ring so that an empty one can be used again. -/
structure Steady (history : History) : Prop where
  whole : Whole history
  known : ∀ payload ∈ history.session, payload ∈ history.received
  shift : history.scicos.usb.options = 0
  closed : history.scicos.usb.init = false → history.scicos.usb.rx.rxHeld = 0 →
    history.scicos.usb.rx.rxFirst = history.scicos.usb.rx.rxLast ∧
      history.scicos.usb.rx.rxFirst < 256

end Model

section Packets

/-- What was received stays received. -/
theorem OnePacket.mono {array : Memory} {received more : List Payload}
    (one : OnePacket array received) (kept : ∀ payload ∈ received, payload ∈ more) :
    OnePacket array more := by
  rcases one with zero | ⟨payload, member, same⟩
  · exact Or.inl zero
  · exact Or.inr ⟨payload, kept payload member, same⟩

/-- A message of sixty bytes for which there is no room makes the code count more bytes
than the ring has. -/
theorem overflow_count (rx : Rx) (waiting : List Payload) (buf : Memory)
    (represents : Represents 256 rx (waiting.flatMap payloadBytes))
    (full : ¬ rx.rxHeld + 60 ≤ rx.rxBufferSize) :
    256 < (writeRxBufferShift rx buf 60).rxHeld := by
  have capacity := represents.2
  have heldLe := represents.1.range.held_le
  have small : ¬ rx.rxBufferSize ≤ 60 := by omega
  have held : (writeRxBufferShift rx buf 60).rxHeld = u32 (rx.rxHeld + 60) := by
    simp [writeRxBufferShift, small]
  rw [held, u32_eq _ (by omega)]
  omega

/-- A packet with a full payload is one message of sixty bytes. -/
theorem deliver_ring (scicos : Scicos) (packet : FlexUsbPacket) (behind : Memory)
    (shift : scicos.usb.options = 0) (full : packet.length = 60) :
    after scicos (.deliver packet behind) =
      { scicos with
        usb :=
          { scicos.usb with
            rx := writeRxBufferShift scicos.usb.rx
              (fun cell => if inside : cell < 60 then packet.payload ⟨cell, inside⟩ else behind cell)
              60 } } := by
  have policy : (0 : BitVec 8) &&& 0xC0 = 0x00 := by decide
  have width : (60 : BitVec 6).toNat = 60 := by decide
  simp only [after, readerReceives, shift, policy, if_true, full, width]

/-- A block that registers opens the link unless it has been opened before, and leaves the
snapshot as it is. -/
theorem init_link (scicos : Scicos) (blockType : Nat) (outcomes : InitOutcomes)
    (threads : Bool) :
    (after scicos (.init blockType outcomes threads)).rxBufferScicos = scicos.rxBufferScicos ∧
      (after scicos (.init blockType outcomes threads)).usb =
        if scicos.isInitialized then scicos.usb
        else (flexUsbInit scicos.usb 60 60 0 outcomes).2.2 := by
  simp only [after, flexUsbscicosInit]
  split_ifs <;> simp [countBlock_eq]

/-- Closing leaves the snapshot and the ring as they are, and opens nothing. -/
theorem close_link (scicos : Scicos) (claimed : Int) (closed : Bool) :
    (after scicos (.close claimed closed)).rxBufferScicos = scicos.rxBufferScicos ∧
      (after scicos (.close claimed closed)).usb.rx = scicos.usb.rx ∧
      (after scicos (.close claimed closed)).usb.options = scicos.usb.options ∧
      ((after scicos (.close claimed closed)).usb.init = true → scicos.usb.init = true) := by
  have options : (flexUsbClose scicos.usb claimed closed).2.2.options = scicos.usb.options := by
    unfold flexUsbClose
    split_ifs <;> rfl
  obtain ⟨ring, ready⟩ := close_ring scicos.usb claimed closed
  have before (still : (flexUsbClose scicos.usb claimed closed).2.2.init = true) :
      scicos.usb.init = true := (Bool.and_eq_true_iff.mp (ready.symm.trans still)).1
  simp only [after, flexUsbscicosClose]
  split_ifs
  · exact ⟨rfl, rfl, rfl, id⟩
  · exact ⟨rfl, ring, options, before⟩
  · exact ⟨rfl, ring, options, before⟩

end Packets

section Steps

variable {history : History}

/-- A call that leaves the link and its ring alone opens nothing. -/
theorem not_opens (scicos : Scicos) (call : Call)
    (kept : (after scicos call).usb.init = true → scicos.usb.init = true) :
    ¬ Opens scicos call := by
  rintro ⟨closed, opened⟩
  exact absurd (closed.symm.trans (kept opened)) (by decide)

/-- A packet that finds room joins the whole ones in the ring. -/
theorem Steady.deliver (steady : Steady history) (packet : FlexUsbPacket) (behind : Memory)
    (permitted : Permitted history (.deliver packet behind))
    (proper : Proper history (.deliver packet behind)) :
    Steady (step history (.deliver packet behind)) := by
  obtain ⟨⟨snapshot, aligned⟩, known, shift, -⟩ := steady
  obtain ⟨opened, full⟩ := permitted
  obtain ⟨waiting, own, represents⟩ := aligned opened
  have joined := deliver_ring history.scicos packet behind shift full
  have opens : ¬ Opens history.scicos (.deliver packet behind) :=
    not_opens _ _ fun _ => opened
  simp only [step, opens, if_false, arrivals, joined]
  refine ⟨⟨snapshot.mono fun other => List.mem_append_left _, fun _ => ?_⟩, fun other member => ?_,
    shift, fun closed => ?_⟩
  · exact ⟨waiting ++ [packet.payload], (List.suffix_append_inj_of_length_eq rfl).mpr ⟨own, rfl⟩,
      ring_deliver _ waiting packet.payload behind represents proper⟩
  · rcases List.mem_append.mp member with old | new
    · exact List.mem_append_left _ (known other old)
    · exact List.mem_append_right _ new
  · exact absurd (opened.symm.trans closed) (by decide)

/-- Outside of a session a channel reads as zero. -/
theorem read_idle (scicos : Scicos) (ch : Fin 15) (idle : ¬ scicos.isInitialized = true) :
    flexUsbscicosRead scicos ch = some (channel (fun _ => 0) ch, scicos) := by
  have invalid : ¬ (ch.val < scicosUsbChannels ∧ scicos.isInitialized = true) :=
    fun both => idle both.2
  rw [flexUsbscicosRead, if_neg invalid]
  rfl

/-- The first read of a round takes a new snapshot. -/
theorem read_refreshing (scicos : Scicos) (ch : Fin 15) (ready : scicos.isInitialized = true)
    (readers : 0 < scicos.readBlockNumber) (turn : scicos.readExpected = 0) (result : ReadResult)
    (answered : flexUsbRead scicos.usb.rx scicos.rxBufferScicos 60 flexUsbReadNoblock =
      some result) :
    flexUsbscicosRead scicos ch = some (channel result.buf ch,
      { scicos with
        rxBufferScicos := result.buf
        usb := { scicos.usb with rx := result.rx }
        readExpected := (scicos.readExpected + 1) % scicos.readBlockNumber }) := by
  have valid : ch.val < scicosUsbChannels ∧ scicos.isInitialized = true := ⟨ch.isLt, ready⟩
  simp only [flexUsbscicosRead, valid, and_self, if_true, turn, answered, readers.ne', if_false]

/-- The other reads show the snapshot that they find. -/
theorem read_shared (scicos : Scicos) (ch : Fin 15) (ready : scicos.isInitialized = true)
    (readers : 0 < scicos.readBlockNumber) (turn : ¬ scicos.readExpected = 0) :
    flexUsbscicosRead scicos ch = some (channel scicos.rxBufferScicos ch,
      { scicos with
        readExpected := (scicos.readExpected + 1) % scicos.readBlockNumber }) := by
  have valid : ch.val < scicosUsbChannels ∧ scicos.isInitialized = true := ⟨ch.isLt, ready⟩
  simp only [flexUsbscicosRead, valid, and_self, if_true, turn, readers.ne', if_false]

/-- A read that returns, with what it returns and leaves behind, keeps the history steady
if the snapshot it leaves is one packet and the ring holds whole ones. -/
theorem read_step (ch : Fin 15) (value : List Byte) (next : Scicos)
    (answered : flexUsbscicosRead history.scicos ch = some (value, next))
    (link : next.usb.init = history.scicos.usb.init) :
    step history (.read ch) = { history with scicos := next } := by
  have moves : after history.scicos (.read ch) = next := by
    simp only [after, answered, Option.map_some, Option.getD_some]
  have opens : ¬ Opens history.scicos (.read ch) :=
    not_opens _ _ fun still => link ▸ moves ▸ still
  simp only [step, opens, if_false, arrivals, List.append_nil, moves]

/-- Reading a channel takes at most the oldest packet out of the ring, and returns a
channel of one packet. -/
theorem Steady.read (steady : Steady history) (ch : Fin 15)
    (permitted : Permitted history (.read ch)) :
    Steady (step history (.read ch)) ∧ OneChannel history (.read ch) := by
  obtain ⟨⟨snapshot, aligned⟩, known, shift, idle⟩ := steady
  by_cases ready : history.scicos.isInitialized = true
  · obtain ⟨opened, readers⟩ := permitted ready
    by_cases turn : history.scicos.readExpected = 0
    · obtain ⟨waiting, own, represents⟩ := aligned opened
      obtain ⟨result, answered, taken, bytes⟩ :=
        ring_take _ waiting history.scicos.rxBufferScicos represents
      have one : OnePacket result.buf history.received := by
        cases waiting with
        | nil =>
          rcases snapshot with zero | ⟨payload, member, same⟩
          · exact Or.inl fun cell inside => (bytes ⟨cell, inside⟩).trans (zero cell inside)
          · exact Or.inr ⟨payload, member, fun cell => (bytes cell).trans (same cell)⟩
        | cons payload rest =>
          exact Or.inr ⟨payload, known payload (own.subset List.mem_cons_self), bytes⟩
      have read := read_refreshing history.scicos ch ready readers turn result answered
      rw [read_step ch _ _ read rfl]
      refine ⟨⟨⟨one, fun _ => ⟨waiting.tail, ?_, taken⟩⟩, known, shift, fun closed => ?_⟩, _, _, read, _,
        one, rfl⟩
      · exact (List.tail_suffix waiting).trans own
      · exact absurd (opened.symm.trans closed) (by decide)
    · have read := read_shared history.scicos ch ready readers turn
      rw [read_step ch _ _ read rfl]
      exact ⟨⟨⟨snapshot, aligned⟩, known, shift, idle⟩, _, _, read, _, snapshot, rfl⟩
  · have read := read_idle history.scicos ch ready
    rw [read_step ch _ _ read rfl]
    exact ⟨⟨⟨snapshot, aligned⟩, known, shift, idle⟩, _, _, read, _, Or.inl fun _ _ => rfl, rfl⟩

/-- Opening the link on an empty ring starts a session without packets; any other call of
`flex_usbscicos_init` only counts its block, or fails. -/
theorem Steady.init (steady : Steady history) (blockType : Nat) (outcomes : InitOutcomes)
    (threads : Bool) (proper : Proper history (.init blockType outcomes threads)) :
    Steady (step history (.init blockType outcomes threads)) := by
  obtain ⟨⟨snapshot, aligned⟩, known, shift, idle⟩ := steady
  obtain ⟨same, link⟩ := init_link history.scicos blockType outcomes threads
  have shown : OnePacket (after history.scicos (.init blockType outcomes threads)).rxBufferScicos
      history.received := same ▸ snapshot
  simp only [step, arrivals, List.append_nil]
  by_cases ready : history.scicos.isInitialized = true
  · rw [if_pos ready] at link
    have opens := not_opens history.scicos (.init blockType outcomes threads) fun still => link ▸ still
    simp only [opens, if_false]
    exact ⟨⟨shown, link ▸ aligned⟩, known, link ▸ shift, link ▸ idle⟩
  rw [if_neg ready] at link
  cases before : history.scicos.usb.init with
  | true =>
    rw [init_again _ _ _ _ _ before] at link
    have opens := not_opens history.scicos (.init blockType outcomes threads) fun _ => before
    simp only [opens, if_false]
    exact ⟨⟨shown, link ▸ aligned⟩, known, link ▸ shift, link ▸ idle⟩
  | false =>
    obtain ⟨size, first, last, held, options, -⟩ := init_ring history.scicos.usb 60 60 0 outcomes before
    rw [← link] at size first last held options
    by_cases opens : Opens history.scicos (.init blockType outcomes threads)
    · have nothing := proper opens
      obtain ⟨place, inside⟩ := idle before nothing
      have fresh := (init_fresh history.scicos.usb 60 60 0 outcomes before).mpr
        ⟨nothing, place, inside⟩
      rw [← link] at fresh
      simp only [opens, if_true]
      refine ⟨⟨shown, fun _ => ⟨[], List.nil_suffix, ?_, size⟩⟩, by simp, options, fun closed => ?_⟩
      · exact fresh_holds _ ⟨size ▸ by decide, size ▸ by decide⟩ fresh
      · exact absurd (opens.2.symm.trans closed) (by decide)
    · have still : (after history.scicos (.init blockType outcomes threads)).usb.init = false :=
        Bool.not_eq_true _ ▸ fun now => opens ⟨before, now⟩
      simp only [opens, if_false]
      refine ⟨⟨shown, fun now => absurd (still.symm.trans now) (by decide)⟩, known, options, ?_⟩
      intro _ nothing
      rw [first, last]
      exact idle before (held.symm.trans nothing)

/-- Closing the link keeps the ring. -/
theorem Steady.close (steady : Steady history) (claimed : Int) (closed : Bool) :
    Steady (step history (.close claimed closed)) := by
  obtain ⟨⟨snapshot, aligned⟩, known, shift, idle⟩ := steady
  obtain ⟨same, ring, options, before⟩ := close_link history.scicos claimed closed
  have opens := not_opens history.scicos (.close claimed closed) before
  simp only [step, opens, if_false, arrivals, List.append_nil]
  refine ⟨⟨same ▸ snapshot, fun still => ring ▸ aligned (before still)⟩, known,
    options.trans shift, ?_⟩
  intro _ nothing
  rw [ring] at nothing ⊢
  cases open_before : history.scicos.usb.init with
  | false => exact idle open_before nothing
  | true =>
    obtain ⟨waiting, -, holds, capacity⟩ := aligned open_before
    have inside := holds.range.first_lt
    exact ⟨(drained_last _ holds.range nothing).symm, capacity ▸ inside⟩

/-- Writing a channel touches neither the snapshot nor the ring. -/
theorem Steady.write (steady : Steady history) (ch : Fin 15) (val : Fin 4 → Byte) (written : Int) :
    Steady (step history (.write ch val written)) := by
  obtain ⟨⟨snapshot, aligned⟩, known, shift, idle⟩ := steady
  obtain ⟨payload, expected, stored⟩ := write_keeps history.scicos ch val written
  have opens : ¬ Opens history.scicos (.write ch val written) :=
    not_opens _ _ fun still => by rw [stored] at still; exact still
  simp only [step, opens, if_false, arrivals, List.append_nil, stored]
  exact ⟨⟨snapshot, aligned⟩, known, shift, idle⟩

/-- A proper call keeps the history steady, and a read returns a channel of one packet. -/
theorem Steady.step (steady : Steady history) (call : Call) (permitted : Permitted history call)
    (proper : Proper history call) : Steady (step history call) ∧ OneChannel history call := by
  cases call with
  | init blockType outcomes threads => exact ⟨steady.init blockType outcomes threads proper, trivial⟩
  | close claimed closed => exact ⟨steady.close claimed closed, trivial⟩
  | write ch val written => exact ⟨steady.write ch val written, trivial⟩
  | read ch => exact steady.read ch permitted
  | deliver packet behind => exact ⟨steady.deliver packet behind permitted proper, trivial⟩

/-- Without room a packet, and with unread bytes an opening, leaves a ring that does not
hold whole packets of its session. -/
theorem Steady.proper (steady : Steady history) (call : Call) (permitted : Permitted history call)
    (whole : Whole (Snapshots.step history call)) : Proper history call := by
  cases call with
  | init blockType outcomes threads =>
    intro opens
    obtain ⟨waiting, own, holds, -⟩ := whole.aligned opens.2
    -- The new session has received nothing, so nothing is counted in the ring.
    have none : waiting = [] := by simpa [Snapshots.step, opens] using own
    have counted := congrArg List.length holds.stored
    rw [contents_length, none] at counted
    obtain ⟨-, link⟩ := init_link history.scicos blockType outcomes threads
    have unready : ¬ history.scicos.isInitialized = true := by
      intro ready
      rw [if_pos ready] at link
      exact absurd (opens.1.symm.trans (link ▸ opens.2)) (by decide)
    rw [if_neg unready] at link
    obtain ⟨-, -, -, held, -, -⟩ := init_ring history.scicos.usb 60 60 0 outcomes opens.1
    rw [← held, ← link]
    exact counted
  | deliver packet behind =>
    obtain ⟨opened, full⟩ := permitted
    obtain ⟨waiting, -, represents⟩ := steady.whole.aligned opened
    have joined := deliver_ring history.scicos packet behind steady.shift full
    by_contra noRoom
    have counted := overflow_count history.scicos.usb.rx waiting
      (fun cell => if inside : cell < 60 then packet.payload ⟨cell, inside⟩ else behind cell)
      represents noRoom
    simp only [Snapshots.step, joined] at whole
    obtain ⟨_, -, holds, capacity⟩ := whole.aligned opened
    have heldLe := holds.range.held_le
    rw [capacity] at heldLe
    exact absurd heldLe (Nat.not_le.mpr counted)
  | close claimed closed => trivial
  | write ch val written => trivial
  | read ch => trivial

end Steps

end ScicosFlex.Usb.Snapshots
