import ScicosFlex.Library.Relays
import ScicosFlex.Usb.WriteCadence

/-!
# The gateway between the USB link and UDP

`main` of `app_flex_scicos.c` registers fifteen read blocks and fifteen write blocks
and then goes round for ever: it reads all channels into one datagram and sends it,
receives at most one datagram, and writes all channels out of it. Meanwhile the
reader thread puts the packets of the device into the receive ring.

Towards UDP every payload of the device is sent, in order, some of them several
times, as long as the ring has room for it (`payloads_sent`). Towards the device
every round sends one packet, which holds the datagram received last
(`packets_written`).
-/

namespace ScicosFlex.Usb.UdpGateway

open Library.CircularBuffer Library.Relays Library.Runs Packet RxRing RingRuns Session Channels

section Model

/-- `MAX_CHANNELS`. -/
def maxChannels : Nat := 15

/-- Where the loop is. -/
inductive Stage where
  | read (ch : Fin 15)
  | send
  | receive
  | write (ch : Fin 15)

/-- Channel 0. -/
def firstChannel : Fin 15 := ⟨0, by decide⟩

/-- The channel behind one, if it is not the last. -/
def following (ch : Fin 15) : Option (Fin 15) :=
  if inside : ch.val + 1 < maxChannels then some ⟨ch.val + 1, inside⟩ else none

/-- The program. The two buffers hold `MAX_CHANNELS` floats of four bytes. -/
structure Gateway where
  scicos : Scicos
  dataSender : Memory
  dataReceiver : Memory
  stage : Stage

/-- The reader thread receives a packet, or the loop goes on; then `datagram` is what
`recvfrom` copies, if it comes to that, and `written` what the USB library returns. -/
inductive Event where
  | deliver (payload : Payload) (behind : Memory)
  | loop (datagram : Option (List Byte)) (written : Int)

/-- `buffer[i] = value`. -/
def storeFloat (buffer : Memory) (ch : Nat) (value : List Byte) : Memory := fun cell =>
  if 4 * ch ≤ cell ∧ cell < 4 * ch + 4 then value.getD (cell - 4 * ch) 0 else buffer cell

/-- `receive_udp_data`: a datagram is copied to the start of the buffer, which takes
60 bytes of it; without one the buffer stays as it is. -/
def receiveUdpData (buffer : Memory) : Option (List Byte) → Memory
  | some datagram => fun cell => if cell < 60 then datagram.getD cell (buffer cell) else buffer cell
  | none => buffer

/-- `buffer[i]`, as an argument of `flex_usbscicos_write`. -/
def float (buffer : Memory) (ch : Nat) : Fin 4 → Byte := fun byte => buffer (4 * ch + byte.val)

/-- One step. A read that divides by zero ends nothing here; the loop then stays
where it is. -/
def step (gateway : Gateway) : Event → Gateway
  | .deliver payload behind =>
    { gateway with
      scicos :=
        { gateway.scicos with
          usb := readerReceives gateway.scicos.usb (channelPacket payload) behind } }
  | .loop datagram written =>
    match gateway.stage with
    | .read ch =>
      match flexUsbscicosRead gateway.scicos ch with
      | some (value, scicos) =>
        { gateway with
          scicos := scicos
          dataSender := storeFloat gateway.dataSender ch value
          stage := (following ch).elim .send .read }
      | none => gateway
    | .send => { gateway with stage := .receive }
    | .receive =>
      { gateway with
        dataReceiver := receiveUdpData gateway.dataReceiver datagram
        stage := .write firstChannel }
    | .write ch =>
      { gateway with
        scicos := (flexUsbscicosWrite gateway.scicos ch (float gateway.dataReceiver ch) written).2
        stage := (following ch).elim (.read firstChannel) .write }

/-- What has come in and gone out: the payloads of the device, the datagrams sent, what
each `recvfrom` has copied, and the packets for the device. `steps` counts the steps of
the loop. -/
structure History where
  delivered : List Payload
  sent : List (List Byte)
  received : List (Option (List Byte))
  packets : List Frame
  steps : Nat

/-- What a step adds to it. -/
def note (gateway : Gateway) (history : History) : Event → History
  | .deliver payload _ => { history with delivered := history.delivered ++ [payload] }
  | .loop datagram written =>
    let history := { history with steps := history.steps + 1 }
    match gateway.stage with
    | .read _ => history
    | .send => { history with sent := history.sent ++ [prefixOf gateway.dataSender 60] }
    | .receive => { history with received := history.received ++ [datagram] }
    | .write ch =>
      { history with
        packets := history.packets ++
          (flexUsbscicosWrite gateway.scicos ch (float gateway.dataReceiver ch) written).1.toList }

/-- The program and its history side by side. -/
def both (state : Gateway × History) (event : Event) : Gateway × History :=
  (step state.1 event, note state.1 state.2 event)

/-- Every packet of the device finds room in the ring. -/
def HasRoom (state : Gateway × History) : Event → Prop
  | .deliver _ _ => state.1.scicos.usb.rx.rxHeld + 60 ≤ state.1.scicos.usb.rx.rxBufferSize
  | .loop _ _ => True

/-- The loop begins: the blocks have registered, and the buffers are zero. -/
def begin (outcomes : InitOutcomes) (threads : Bool) : Gateway × History :=
  ({ scicos := openSession outcomes threads (List.replicate 15 1 ++ List.replicate 15 0)
     dataSender := fun _ => 0, dataReceiver := fun _ => 0, stage := .read firstChannel },
   { delivered := [], sent := [], received := [], packets := [], steps := 0 })

/-- The payload of a packet that has not come yet. -/
def silence : Payload := fun _ => 0

/-- The receive buffer behind some calls of `receive_udp_data`, one after the other. -/
def images (buffer : Memory) : List (Option (List Byte)) → List Memory
  | [] => []
  | datagram :: rest => receiveUdpData buffer datagram :: images (receiveUdpData buffer datagram) rest

/-- How many steps of its round the loop has made. A round has 32. -/
def Stage.position : Stage → Nat
  | .read ch => ch.val
  | .send => 15
  | .receive => 16
  | .write ch => 17 + ch.val

/-- What the session stays: open, with fifteen blocks of each kind. The loop registers
no further blocks, and never closes the session. -/
structure Registered (scicos : Scicos) : Prop where
  ready : scicos.isInitialized = true
  readers : scicos.readBlockNumber = 15
  writers : scicos.writeBlockNumber = 15

/-- The payload that was taken out of the ring last. -/
def newest (taken : List Payload) : Payload := taken.getLast?.getD silence

/-- The way to UDP: the payloads shown to the end, the one on its way, and those in
the ring. The snapshot is the payload taken last, and the part of the datagram that
the round has filled is that of the snapshot. -/
structure Forward (shown flight waiting : List Payload) (state : Gateway × History) : Prop where
  registered : Registered state.1.scicos
  shift : state.1.scicos.usb.options &&& 0xC0 = 0x00
  delivered : state.2.delivered = shown ++ flight ++ waiting
  ring : Represents 256 state.1.scicos.usb.rx (waiting.flatMap payloadBytes)
  sent : Repeats (payloadBytes silence) (shown.map payloadBytes) state.2.sent
  one : flight.length ≤ 1
  snapshot : ∀ cell : Fin 60, state.1.scicos.rxBufferScicos cell.val = newest (shown ++ flight) cell
  turn : state.1.scicos.readExpected =
    if state.1.stage.position < 15 then state.1.stage.position else 0
  landed : state.1.stage.position = 0 ∨ 15 < state.1.stage.position → flight = []
  filled : state.1.stage.position ≤ 15 → ∀ cell : Fin 60, cell.val < 4 * state.1.stage.position →
    state.1.dataSender cell.val = newest (shown ++ flight) cell

/-- The way to the device: the packets written hold the datagrams of the rounds that
are through, and the part of the payload that this round has filled is that of the
datagram received last. -/
structure Backward (through begun : List Memory) (state : Gateway × History) : Prop where
  registered : Registered state.1.scicos
  received : images (fun _ => 0) state.2.received = through ++ begun
  packets : state.2.packets = through.map fun buffer => bytes (dataPacket buffer 60)
  buffer : state.1.dataReceiver = (through ++ begun).getLast?.getD fun _ => 0
  turn : state.1.scicos.writeExpected = state.1.stage.position - 17
  filled : ∀ cell, cell < 4 * (state.1.stage.position - 17) →
    state.1.scicos.txBufferScicos cell = state.1.dataReceiver cell
  one : begun.length = if state.1.stage.position ≤ 16 then 0 else 1
  sent : state.2.sent.length = through.length + if state.1.stage.position ≤ 15 then 0 else 1
  steps : state.2.steps = 32 * through.length + state.1.stage.position

end Model

section Calls

variable {scicos : Scicos}

/-- The first read of a round takes a snapshot. -/
theorem read_first (registered : Registered scicos) (turn : scicos.readExpected = 0) (result : ReadResult)
    (answered : flexUsbRead scicos.usb.rx scicos.rxBufferScicos 60 flexUsbReadNoblock = some result) :
    flexUsbscicosRead scicos 0 = some (channel result.buf 0,
      { scicos with
        rxBufferScicos := result.buf
        usb := { scicos.usb with rx := result.rx }
        readExpected := 1 }) := by
  have valid : 0 < scicosUsbChannels ∧ scicos.isInitialized = true := ⟨by decide, registered.ready⟩
  have blocks : scicos.readBlockNumber ≠ 0 := by rw [registered.readers]; decide
  simp only [flexUsbscicosRead, valid, and_self, if_true, turn, answered, blocks, if_false]
  rw [registered.readers]

/-- The other ones show it. -/
theorem read_later (registered : Registered scicos) (ch : Fin 15) (later : scicos.readExpected ≠ 0) :
    flexUsbscicosRead scicos ch = some (channel scicos.rxBufferScicos ch,
      { scicos with readExpected := (scicos.readExpected + 1) % 15 }) := by
  have valid : ch.val < scicosUsbChannels ∧ scicos.isInitialized = true := ⟨ch.isLt, registered.ready⟩
  have blocks : scicos.readBlockNumber ≠ 0 := by rw [registered.readers]; decide
  simp only [flexUsbscicosRead, valid, and_self, if_true, later, blocks, if_false]
  rw [registered.readers]

/-- A write stores its channel, and the fifteenth of a round sends the payload. -/
theorem write_turn (registered : Registered scicos) (ch : Fin 15) (buffer : Memory) (written : Int) :
    let stored : Memory := fun cell =>
      if 4 * ch.val ≤ cell ∧ cell < 4 * ch.val + 4 then buffer cell else scicos.txBufferScicos cell
    flexUsbscicosWrite scicos ch (float buffer ch) written =
      if scicos.writeExpected + 1 = 15 then
        (some (bytes (dataPacket stored 60)), { scicos with txBufferScicos := stored, writeExpected := 0 })
      else (none, { scicos with txBufferScicos := stored, writeExpected := scicos.writeExpected + 1 }) := by
  intro stored
  have valid : ch.val < scicosUsbChannels ∧ scicos.isInitialized = true := ⟨ch.isLt, registered.ready⟩
  have same : (fun cell => if inside : 4 * ch.val ≤ cell ∧ cell < 4 * ch.val + 4 then
      float buffer ch ⟨cell - 4 * ch.val, by omega⟩ else scicos.txBufferScicos cell) = stored := by
    funext cell
    by_cases inside : 4 * ch.val ≤ cell ∧ cell < 4 * ch.val + 4
    · have here : 4 * ch.val + (cell - 4 * ch.val) = cell := by omega
      simp only [stored, inside, and_self, dif_pos, if_true, float, here]
    · simp only [stored, inside, dif_neg, not_false_eq_true, if_false]
  simp only [flexUsbscicosWrite, valid, and_self, if_true, same, registered.writers]
  split
  · simp only [flexUsbWrite, packetPayloadSize, Nat.lt_irrefl, if_false]
  · rfl

/-- The stage behind a read, and behind a write. -/
theorem read_position (ch : Fin 15) :
    ((following ch).elim Stage.send Stage.read).position = ch.val + 1 := by
  unfold following
  split
  · rfl
  · rename_i last
    have fourteen : ch.val = 14 := by have := ch.isLt; unfold maxChannels at last; omega
    rw [fourteen]
    rfl

theorem write_position (ch : Fin 15) :
    ((following ch).elim (Stage.read firstChannel) Stage.write).position = if ch.val = 14 then 0 else 18 + ch.val := by
  unfold following maxChannels
  by_cases inside : ch.val + 1 < 15
  · have before : ¬ ch.val = 14 := by omega
    rw [dif_pos inside, if_neg before]
    change 17 + (ch.val + 1) = _
    omega
  · have fourteen : ch.val = 14 := by have := ch.isLt; omega
    rw [dif_neg inside, if_pos fourteen]
    rfl

/-- What a read stores in the datagram. -/
theorem storeFloat_channel (buffer array : Memory) (ch : Nat) (cell : Nat) :
    storeFloat buffer ch (channel array ch) cell =
      if 4 * ch ≤ cell ∧ cell < 4 * ch + 4 then array cell else buffer cell := by
  unfold storeFloat
  by_cases inside : 4 * ch ≤ cell ∧ cell < 4 * ch + 4
  · have offset : cell - 4 * ch < 4 := by omega
    have here : 4 * ch + (cell - 4 * ch) = cell := by omega
    rw [if_pos inside, if_pos inside]
    simp [channel, prefixOf, offset, here]
  · rw [if_neg inside, if_neg inside]

end Calls

section Forwards

variable {shown flight waiting : List Payload} {state : Gateway × History}

/-- Filling in the channel of a read. -/
theorem filled_next (buffer array : Memory) (payload : Payload) (ch : Fin 15)
    (snapshot : ∀ cell : Fin 60, array cell.val = payload cell)
    (filled : ∀ cell : Fin 60, cell.val < 4 * ch.val → buffer cell.val = payload cell) (cell : Fin 60)
    (inside : cell.val < 4 * (ch.val + 1)) :
    storeFloat buffer ch (channel array ch) cell.val = payload cell := by
  rw [storeFloat_channel]
  split
  · exact snapshot cell
  · exact filled cell (by omega)

/-- The reader thread adds to the ring. It finds room, so the ring gives nothing up, and
the snapshot is not touched. -/
theorem forward_deliver (forward : Forward shown flight waiting state) (payload : Payload)
    (behind : Memory) (room : HasRoom state (.deliver payload behind)) :
    Forward shown flight (waiting ++ [payload]) (both state (.deliver payload behind)) := by
  obtain ⟨registered, shift, delivered, ring, sent, one, snapshot, turn, landed, filled⟩ := forward
  have joined : (both state (.deliver payload behind)).1.scicos =
      { state.1.scicos with
        usb :=
          { state.1.scicos.usb with
            rx := writeRxBufferShift state.1.scicos.usb.rx
              (fun cell => if inside : cell < 60 then payload ⟨cell, inside⟩ else behind cell) 60 } } := by
    simp only [both, step, readerReceives, shift, if_true]
    rfl
  refine ⟨?_, ?_, ?_, ?_, sent, one, ?_, ?_, landed, filled⟩
  · rw [joined]
    exact ⟨registered.ready, registered.readers, registered.writers⟩
  · rw [joined]
    exact shift
  · change state.2.delivered ++ [payload] = _
    rw [delivered, List.append_assoc (shown ++ flight)]
  · rw [joined]
    exact ring_deliver _ waiting payload behind ring room
  · rw [joined]
    exact snapshot
  · rw [joined]
    exact turn

/-- The first read of a round takes the oldest payload out of the ring. -/
theorem forward_first (forward : Forward shown flight waiting state)
    (stage : state.1.stage = .read firstChannel) (datagram : Option (List Byte)) (written : Int) :
    Forward shown waiting.head?.toList waiting.tail (both state (.loop datagram written)) := by
  obtain ⟨⟨scicos, dataSender, dataReceiver, stage⟩, history⟩ := state
  cases stage
  obtain ⟨registered, shift, delivered, ring, sent, one, snapshot, turn, landed, filled⟩ := forward
  obtain rfl := landed (Or.inl rfl)
  obtain ⟨result, answered, taken, bytes⟩ := ring_take _ waiting scicos.rxBufferScicos ring
  have goes : both (⟨scicos, dataSender, dataReceiver, .read firstChannel⟩, history) (.loop datagram written) =
      (⟨{ scicos with
          rxBufferScicos := result.buf
          usb := { scicos.usb with rx := result.rx }
          readExpected := 1 },
        storeFloat dataSender 0 (channel result.buf 0), dataReceiver,
        .read ⟨1, by decide⟩⟩,
        { history with steps := history.steps + 1 }) := by
    have read : flexUsbscicosRead scicos firstChannel.val = _ := read_first registered turn result answered
    simp only [both, step, note, read]
    rfl
  have now : ∀ cell : Fin 60, result.buf cell.val = newest (shown ++ waiting.head?.toList) cell := by
    intro cell
    rw [bytes cell]
    cases waiting with
    | nil => exact snapshot cell
    | cons payload rest =>
      simp [newest]
  rw [goes]
  refine ⟨⟨registered.ready, registered.readers, registered.writers⟩, shift, ?_, taken, sent, ?_, now,
    rfl, ?_, ?_⟩
  · change history.delivered = _
    rw [delivered]
    cases waiting with
    | nil => rfl
    | cons payload rest => simp
  · cases waiting <;> simp
  · have inside : ¬ ((Stage.read 1).position = 0 ∨ 15 < (Stage.read 1).position) := by decide
    exact fun out => absurd out inside
  · intro _ cell inside
    exact filled_next dataSender result.buf _ 0 now (fun cell none => absurd none (Nat.not_lt_zero _)) cell inside

/-- The other reads show the snapshot that the first one has taken, channel by channel
into the datagram. -/
theorem forward_later (forward : Forward shown flight waiting state) (ch : Fin 15) (other : ch.val ≠ 0)
    (stage : state.1.stage = .read ch) (datagram : Option (List Byte)) (written : Int) :
    Forward shown flight waiting (both state (.loop datagram written)) := by
  obtain ⟨⟨scicos, dataSender, dataReceiver, stage⟩, history⟩ := state
  cases stage
  obtain ⟨registered, shift, delivered, ring, sent, one, snapshot, turn, landed, filled⟩ := forward
  have shows : scicos.readExpected = ch.val := turn.trans (if_pos ch.isLt)
  have goes : both (⟨scicos, dataSender, dataReceiver, .read ch⟩, history) (.loop datagram written) =
      (⟨{ scicos with readExpected := (ch.val + 1) % 15 },
        storeFloat dataSender ch (channel scicos.rxBufferScicos ch), dataReceiver,
        (following ch).elim .send .read⟩, { history with steps := history.steps + 1 }) := by
    simp only [both, step, note, read_later registered ch (by rw [shows]; exact other), shows]
  have inside := ch.isLt
  rw [goes]
  refine ⟨⟨registered.ready, registered.readers, registered.writers⟩, shift, delivered, ring, sent, one,
    snapshot, ?_, ?_, ?_⟩
  · change (ch.val + 1) % 15 = if ((following ch).elim Stage.send Stage.read).position < 15 then _ else 0
    rw [read_position]
    split
    · rename_i more
      exact Nat.mod_eq_of_lt more
    · omega
  · change _ ∨ 15 < ((following ch).elim Stage.send Stage.read).position → _
    rw [read_position]
    omega
  · intro _ cell
    change cell.val < 4 * ((following ch).elim Stage.send Stage.read).position → _
    rw [read_position]
    exact filled_next dataSender scicos.rxBufferScicos _ ch snapshot
      (fun cell before => filled (Nat.le_of_lt ch.isLt) cell before) cell

/-- The payload on its way is shown, or the one before again. The datagram is complete
by then, with all fifteen channels from one snapshot. -/
theorem forward_send (forward : Forward shown flight waiting state) (stage : state.1.stage = .send)
    (datagram : Option (List Byte)) (written : Int) :
    Forward (shown ++ flight) [] waiting (both state (.loop datagram written)) := by
  obtain ⟨⟨scicos, dataSender, dataReceiver, stage⟩, history⟩ := state
  cases stage
  obtain ⟨registered, shift, delivered, ring, sent, one, snapshot, turn, landed, filled⟩ := forward
  have whole : prefixOf dataSender 60 = payloadBytes (newest (shown ++ flight)) := by
    apply List.ext_getElem
    · simp [payloadBytes]
    · intro index left right
      have inside : index < 60 := by simpa only [prefixOf_length] using left
      have here := filled (Nat.le_refl 15) ⟨index, inside⟩ inside
      simpa only [prefixOf, List.getElem_map, List.getElem_range, payloadBytes, List.getElem_ofFn] using here
  refine ⟨registered, shift, ?_, ring, ?_, Nat.zero_le _, ?_, turn, fun _ => rfl, ?_⟩
  · change history.delivered = _
    rw [delivered, List.append_nil]
  · change Repeats _ _ (history.sent ++ [prefixOf dataSender 60])
    rw [whole]
    cases flight with
    | nil =>
      have again := sent.append_again
      rw [List.getLast?_map] at again
      rw [List.append_nil, newest]
      cases last : shown.getLast? with
      | none =>
        rw [last] at again
        exact again
      | some payload =>
        rw [last] at again
        exact again
    | cons payload rest =>
      obtain rfl : rest = [] := List.eq_nil_of_length_eq_zero (by simpa using one)
      have new := sent.append_new (payloadBytes payload)
      rw [newest, List.getLast?_concat, List.map_append]
      exact new
  · rw [List.append_nil]
    exact snapshot
  · have outside : ¬ Stage.receive.position ≤ 15 := by decide
    exact fun inside => absurd inside outside

/-- Nothing happens to the snapshot while the loop serves the other direction, as writes
leave the ring and its reads alone. -/
theorem forward_rest (forward : Forward shown flight waiting state) (datagram : Option (List Byte))
    (written : Int) (behind : 15 < state.1.stage.position) :
    Forward shown flight waiting (both state (.loop datagram written)) := by
  obtain ⟨⟨scicos, dataSender, dataReceiver, stage⟩, history⟩ := state
  obtain ⟨registered, shift, delivered, ring, sent, one, snapshot, turn, landed, filled⟩ := forward
  have empty := landed (Or.inr behind)
  cases stage with
  | read ch => exact absurd behind (by show ¬ 15 < ch.val; have := ch.isLt; omega)
  | send =>
    have early : ¬ 15 < Stage.send.position := by decide
    exact absurd behind early
  | receive =>
    have outside : ¬ (Stage.write firstChannel).position ≤ 15 := by decide
    exact ⟨registered, shift, delivered, ring, sent, one, snapshot, turn, fun _ => empty,
      fun inside => absurd inside outside⟩
  | write ch =>
    have shows : scicos.readExpected = 0 := turn.trans (if_neg (by show ¬ 17 + ch.val < 15; omega))
    obtain ⟨tx, counter, goes⟩ : ∃ tx counter,
        (flexUsbscicosWrite scicos ch (float dataReceiver ch) written).2 =
          { scicos with txBufferScicos := tx, writeExpected := counter } := by
      rw [write_turn registered]
      split <;> exact ⟨_, _, rfl⟩
    have moves : (both (⟨scicos, dataSender, dataReceiver, .write ch⟩, history)
        (.loop datagram written)).1 =
        ⟨{ scicos with txBufferScicos := tx, writeExpected := counter }, dataSender, dataReceiver,
          (following ch).elim (.read firstChannel) .write⟩ := by
      simp only [both, step, goes]
    refine ⟨?_, ?_, delivered, ?_, sent, one, ?_, ?_, fun _ => empty, ?_⟩
    · rw [moves]
      exact ⟨registered.ready, registered.readers, registered.writers⟩
    · rw [moves]
      exact shift
    · rw [moves]
      exact ring
    · rw [moves]
      exact snapshot
    · rw [moves]
      change scicos.readExpected =
        if ((following ch).elim (Stage.read firstChannel) Stage.write).position < 15 then _ else 0
      rw [write_position, shows]
      by_cases last : ch.val = 14
      · rw [if_pos last]
        rfl
      · rw [if_neg last, if_neg (by omega)]
    · rw [moves]
      change ((following ch).elim (Stage.read firstChannel) Stage.write).position ≤ 15 → ∀ cell : Fin 60,
        cell.val < 4 * ((following ch).elim (Stage.read firstChannel) Stage.write).position → _
      rw [write_position]
      intro low cell inside
      split at low
      · rename_i last
        rw [if_pos last] at inside
        exact absurd inside (Nat.not_lt_zero _)
      · omega

/-- Every step keeps to it: deliveries wait in the ring, the first read of a round takes
the oldest of them, and the others only copy from the snapshot. -/
theorem forward_step (forward : Forward shown flight waiting state) (event : Event)
    (room : HasRoom state event) :
    ∃ shown flight waiting, Forward shown flight waiting (both state event) := by
  cases event with
  | deliver payload behind => exact ⟨_, _, _, forward_deliver forward payload behind room⟩
  | loop datagram written =>
    cases stage : state.1.stage with
    | read ch =>
      by_cases first : ch.val = 0
      · have zero : ch = firstChannel := Fin.ext first
        exact ⟨_, _, _, forward_first forward (stage.trans (by rw [zero])) datagram written⟩
      · exact ⟨_, _, _, forward_later forward ch first stage datagram written⟩
    | send => exact ⟨_, _, _, forward_send forward stage datagram written⟩
    | receive =>
      exact ⟨_, _, _, forward_rest forward datagram written (by rw [stage]; decide)⟩
    | write ch =>
      refine ⟨_, _, _, forward_rest forward datagram written ?_⟩
      rw [stage]
      change 15 < 17 + ch.val
      omega

end Forwards

section Backwards

variable {through begun : List Memory} {state : Gateway × History}

/-- One more call of `receive_udp_data`. -/
theorem images_append (buffer : Memory) (received : List (Option (List Byte)))
    (datagram : Option (List Byte)) : images buffer (received ++ [datagram]) =
      images buffer received ++ [receiveUdpData ((images buffer received).getLast?.getD buffer) datagram] := by
  induction received generalizing buffer with
  | nil => rfl
  | cons first rest inductionHypothesis =>
    rw [List.cons_append, images, images, inductionHypothesis, List.getLast?_cons, Option.getD_some,
      List.cons_append]

/-- A read concerns the ring, the snapshot and its own counter. -/
theorem read_other (scicos : Scicos) (registered : Registered scicos) (ch : Fin 15) :
    ∃ value usb snapshot counter, flexUsbscicosRead scicos ch = some (value,
      { scicos with usb := usb, rxBufferScicos := snapshot, readExpected := counter }) := by
  have valid : ch.val < scicosUsbChannels ∧ scicos.isInitialized = true := ⟨ch.isLt, registered.ready⟩
  have blocks : scicos.readBlockNumber ≠ 0 := by rw [registered.readers]; decide
  unfold flexUsbscicosRead
  rw [if_pos valid]
  simp only [blocks, if_false]
  split
  · split <;> exact ⟨_, _, _, _, rfl⟩
  · exact ⟨_, _, _, _, rfl⟩

/-- The reader thread does not touch the way to the device. -/
theorem backward_deliver (backward : Backward through begun state) (payload : Payload) (behind : Memory) :
    Backward through begun (both state (.deliver payload behind)) := by
  obtain ⟨registered, received, packets, buffer, turn, filled, one, sent, steps⟩ := backward
  have kept : (both state (.deliver payload behind)).1.scicos =
      { state.1.scicos with
        usb := readerReceives state.1.scicos.usb (channelPacket payload) behind } := rfl
  refine ⟨?_, received, packets, buffer, ?_, ?_, one, sent, steps⟩
  · rw [kept]
    exact ⟨registered.ready, registered.readers, registered.writers⟩
  · rw [kept]
    exact turn
  · rw [kept]
    exact filled

/-- A read of the loop leaves the way to the device alone, but for the step that it
counts: reads come before the datagram is received, so no cell of the payload has been
filled in this round. -/
theorem backward_read (backward : Backward through begun state) (ch : Fin 15)
    (stage : state.1.stage = .read ch) (datagram : Option (List Byte)) (written : Int) :
    Backward through begun (both state (.loop datagram written)) := by
  obtain ⟨⟨scicos, dataSender, dataReceiver, stage⟩, history⟩ := state
  cases stage
  obtain ⟨registered, received, packets, buffer, turn, filled, one, sent, steps⟩ := backward
  obtain ⟨value, usb, snapshot, counter, answered⟩ := read_other scicos registered ch
  have goes : both (⟨scicos, dataSender, dataReceiver, .read ch⟩, history) (.loop datagram written) =
      (⟨{ scicos with usb := usb, rxBufferScicos := snapshot, readExpected := counter },
        storeFloat dataSender ch value, dataReceiver, (following ch).elim .send .read⟩,
        { history with steps := history.steps + 1 }) := by
    simp only [both, step, note, answered]
  have inside := ch.isLt
  have none : begun = [] := List.eq_nil_of_length_eq_zero (one.trans (if_pos (by show ch.val ≤ 16; omega)))
  have idle : scicos.writeExpected = 0 := turn.trans (by show ch.val - 17 = 0; omega)
  rw [goes]
  refine ⟨⟨registered.ready, registered.readers, registered.writers⟩, received, packets, buffer, ?_, ?_, ?_,
    ?_, ?_⟩
  · change scicos.writeExpected = ((following ch).elim Stage.send Stage.read).position - 17
    rw [read_position]
    omega
  · intro cell
    change cell < 4 * (((following ch).elim Stage.send Stage.read).position - 17) → _
    rw [read_position]
    omega
  · change begun.length = if ((following ch).elim Stage.send Stage.read).position ≤ 16 then 0 else 1
    rw [read_position, if_pos (by omega), none]
    rfl
  · change history.sent.length = through.length +
      if ((following ch).elim Stage.send Stage.read).position ≤ 15 then 0 else 1
    rw [read_position, if_pos (by omega)]
    exact sent.trans (congrArg _ (if_pos (Nat.le_of_lt inside)))
  · change history.steps + 1 = 32 * through.length + ((following ch).elim Stage.send Stage.read).position
    rw [read_position, show history.steps = 32 * through.length + ch.val from steps]
    rfl

/-- The datagram for UDP is sent. -/
theorem backward_send (backward : Backward through begun state) (stage : state.1.stage = .send)
    (datagram : Option (List Byte)) (written : Int) :
    Backward through begun (both state (.loop datagram written)) := by
  obtain ⟨⟨scicos, dataSender, dataReceiver, stage⟩, history⟩ := state
  cases stage
  obtain ⟨registered, received, packets, buffer, turn, filled, one, sent, steps⟩ := backward
  refine ⟨registered, received, packets, buffer, turn, filled, one, ?_, ?_⟩
  · change (history.sent ++ [prefixOf dataSender 60]).length = through.length + 1
    rw [List.length_append, show history.sent.length = through.length from sent]
    rfl
  · change history.steps + 1 = 32 * through.length + 16
    rw [show history.steps = 32 * through.length + 15 from steps]

/-- A round begins with what is received. -/
theorem backward_receive (backward : Backward through begun state) (stage : state.1.stage = .receive)
    (datagram : Option (List Byte)) (written : Int) :
    Backward through [receiveUdpData state.1.dataReceiver datagram]
      (both state (.loop datagram written)) := by
  obtain ⟨⟨scicos, dataSender, dataReceiver, stage⟩, history⟩ := state
  cases stage
  obtain ⟨registered, received, packets, buffer, turn, filled, one, sent, steps⟩ := backward
  obtain rfl : begun = [] := List.eq_nil_of_length_eq_zero one
  rw [List.append_nil] at received buffer
  refine ⟨registered, ?_, packets, ?_, turn, ?_, rfl, sent, ?_⟩
  · change images (fun _ => 0) (history.received ++ [datagram]) = _
    rw [images_append, received, ← show dataReceiver = through.getLast?.getD fun _ => 0 from buffer]
  · rw [List.getLast?_concat, Option.getD_some]
    rfl
  · exact fun cell none => absurd none (Nat.not_lt_zero cell)
  · change history.steps + 1 = 32 * through.length + 17
    rw [show history.steps = 32 * through.length + 16 from steps]

/-- The channels are filled one by one, and the last one completes the packet. -/
theorem backward_write (backward : Backward through begun state) (ch : Fin 15)
    (stage : state.1.stage = .write ch) (datagram : Option (List Byte)) (written : Int) :
    ∃ through begun, Backward through begun (both state (.loop datagram written)) := by
  obtain ⟨⟨scicos, dataSender, dataReceiver, stage⟩, history⟩ := state
  cases stage
  obtain ⟨registered, received, packets, buffer, turn, filled, one, sent, steps⟩ := backward
  let stored : Memory := fun cell =>
    if 4 * ch.val ≤ cell ∧ cell < 4 * ch.val + 4 then dataReceiver cell else scicos.txBufferScicos cell
  have shows : scicos.writeExpected = ch.val := turn.trans (Nat.add_sub_cancel_left ..)
  have late : ¬ 17 + ch.val ≤ 16 := by omega
  have now : ∀ cell, cell < 4 * (ch.val + 1) → stored cell = dataReceiver cell := by
    intro cell inside
    by_cases here : 4 * ch.val ≤ cell ∧ cell < 4 * ch.val + 4
    · exact if_pos here
    · have before : cell < 4 * (17 + ch.val - 17) := by omega
      exact (if_neg here).trans (filled cell before)
  have wrote := write_turn registered ch dataReceiver written
  rw [shows] at wrote
  obtain ⟨last, single⟩ : ∃ last, begun = [last] := List.length_eq_one_iff.mp (one.trans (if_neg late))
  have bufferIs : dataReceiver = last := by
    have is : dataReceiver = (through ++ begun).getLast?.getD fun _ => 0 := buffer
    rw [single, List.getLast?_concat, Option.getD_some] at is
    exact is
  by_cases ends : ch.val = 14
  · -- The round is through.
    have goes : both (⟨scicos, dataSender, dataReceiver, .write ch⟩, history) (.loop datagram written) =
        (⟨{ scicos with txBufferScicos := stored, writeExpected := 0 }, dataSender, dataReceiver,
          (following ch).elim (.read firstChannel) .write⟩,
          { history with
            steps := history.steps + 1
            packets := history.packets ++ [bytes (dataPacket stored 60)] }) := by
      have turnIs : ch.val + 1 = 15 := by omega
      simp only [both, step, note, wrote, turnIs, if_true, Option.toList_some]
      rfl
    have position : ((following ch).elim (Stage.read firstChannel) Stage.write).position = 0 := by
      rw [write_position, if_pos ends]
    have whole : dataPacket stored 60 = dataPacket last 60 := by
      rw [← bufferIs]
      exact WriteCadence.dataPacket_congr _ _ fun cell inside => now cell (by omega)
    refine ⟨through ++ begun, [], ?_⟩
    rw [goes]
    refine ⟨⟨registered.ready, registered.readers, registered.writers⟩, ?_, ?_, ?_, ?_, ?_, ?_, ?_, ?_⟩
    · rw [List.append_nil]
      exact received
    · change history.packets ++ [bytes (dataPacket stored 60)] = _
      rw [whole, single, List.map_append, show history.packets = _ from packets]
      rfl
    · rw [List.append_nil]
      exact buffer
    · change 0 = ((following ch).elim (Stage.read firstChannel) Stage.write).position - 17
      rw [position]
    · intro cell
      change cell < 4 * (((following ch).elim (Stage.read firstChannel) Stage.write).position - 17) → _
      rw [position]
      exact fun none => absurd none (Nat.not_lt_zero cell)
    · change 0 = if ((following ch).elim (Stage.read firstChannel) Stage.write).position ≤ 16 then 0 else 1
      rw [position]
      rfl
    · change history.sent.length = (through ++ begun).length +
        if ((following ch).elim (Stage.read firstChannel) Stage.write).position ≤ 15 then 0 else 1
      have before : history.sent.length = through.length + 1 :=
        sent.trans (congrArg _ (if_neg (by show ¬ 17 + ch.val ≤ 15; omega)))
      rw [position, before, single, List.length_append]
      rfl
    · change history.steps + 1 = 32 * (through ++ begun).length +
        ((following ch).elim (Stage.read firstChannel) Stage.write).position
      have before : history.steps = 32 * through.length + (17 + ch.val) := steps
      rw [position, before, single, List.length_append, List.length_singleton]
      omega
  · have goes : both (⟨scicos, dataSender, dataReceiver, .write ch⟩, history) (.loop datagram written) =
        (⟨{ scicos with txBufferScicos := stored, writeExpected := ch.val + 1 }, dataSender, dataReceiver,
          (following ch).elim (.read firstChannel) .write⟩, { history with steps := history.steps + 1 }) := by
      have other : ¬ ch.val + 1 = 15 := by omega
      simp only [both, step, note, wrote, other, if_false, Option.toList_none, List.append_nil]
      rfl
    have position : ((following ch).elim (Stage.read firstChannel) Stage.write).position = 18 + ch.val := by
      rw [write_position, if_neg ends]
    refine ⟨through, begun, ?_⟩
    rw [goes]
    refine ⟨⟨registered.ready, registered.readers, registered.writers⟩, received, packets, buffer, ?_, ?_,
      ?_, ?_, ?_⟩
    · change ch.val + 1 = ((following ch).elim (Stage.read firstChannel) Stage.write).position - 17
      rw [position]
      omega
    · intro cell
      change cell < 4 * (((following ch).elim (Stage.read firstChannel) Stage.write).position - 17) → stored cell = _
      rw [position]
      exact fun inside => now cell (by omega)
    · change begun.length = if ((following ch).elim (Stage.read firstChannel) Stage.write).position ≤ 16 then 0 else 1
      rw [position, single]
      exact (if_neg (by omega)).symm
    · change history.sent.length = through.length +
        if ((following ch).elim (Stage.read firstChannel) Stage.write).position ≤ 15 then 0 else 1
      rw [position, if_neg (by omega)]
      exact sent.trans (congrArg _ (if_neg (by show ¬ 17 + ch.val ≤ 15; omega)))
    · change history.steps + 1 = 32 * through.length +
        ((following ch).elim (Stage.read firstChannel) Stage.write).position
      have before : history.steps = 32 * through.length + (17 + ch.val) := steps
      rw [position, before]
      omega

/-- Every step keeps to it: the datagram changes the receive buffer, the writes copy it
channel by channel, and the last one makes a packet of it. -/
theorem backward_step (backward : Backward through begun state) (event : Event) :
    ∃ through begun, Backward through begun (both state event) := by
  cases event with
  | deliver payload behind => exact ⟨_, _, backward_deliver backward payload behind⟩
  | loop datagram written =>
    cases stage : state.1.stage with
    | read ch => exact ⟨_, _, backward_read backward ch stage datagram written⟩
    | send => exact ⟨_, _, backward_send backward stage datagram written⟩
    | receive => exact ⟨_, _, backward_receive backward stage datagram written⟩
    | write ch => exact backward_write backward ch stage datagram written

end Backwards

section Runs

variable {outcomes : InitOutcomes} {threads : Bool}

/-- The fifteen read blocks and the fifteen write blocks have registered. -/
theorem registered_session (success : (flexUsbscicosInit boot 1 outcomes threads).1 = 0) :
    openSession outcomes threads (List.replicate 15 1 ++ List.replicate 15 0) =
      { boot with
        usb := (flexUsbInit boot.usb 60 60 0 outcomes).2.2
        isInitialized := true
        readBlockNumber := 15
        writeBlockNumber := 15 } := by
  obtain ⟨-, first⟩ := first_block outcomes threads 1 success
  have counted (scicos : Scicos) (blockType : Nat) (ready : scicos.isInitialized = true) :
      (flexUsbscicosInit scicos blockType outcomes threads).2 = countBlock scicos blockType := by
    simp [flexUsbscicosInit, ready]
  have readBlocks : List.replicate 15 1 ++ List.replicate 15 0 =
      1 :: (List.replicate 14 1 ++ List.replicate 15 0) := rfl
  rw [readBlocks, openSession, List.foldl_cons, first]
  simp only [List.replicate, List.cons_append, List.nil_append, List.foldl_cons, List.foldl_nil]
  simp only [counted, countBlock, if_true, one_ne_zero, if_false, boot]

/-- So the loop begins with an empty ring. -/
theorem begin_forward (success : (flexUsbscicosInit boot 1 outcomes threads).1 = 0) :
    Forward [] [] [] (begin outcomes threads) := by
  obtain ⟨opens, -⟩ := first_block outcomes threads 1 success
  obtain ⟨allocated, -, opened⟩ := init_opens boot.usb 60 60 0 outcomes rfl opens
  have session := registered_session success
  rw [opened] at session
  have zero : 0 &&& 0xC0 = (0 : BitVec 8) := by decide
  refine ⟨?_, ?_, rfl, ?_, .nil _, Nat.zero_le _, ?_, ?_, fun _ => rfl, ?_⟩
  · rw [begin, session]
    exact ⟨rfl, rfl, rfl⟩
  · rw [begin, session]
    exact zero
  · rw [begin, session]
    exact start_represents 256 allocated (by decide) (by decide)
  · rw [begin, session]
    exact fun _ => rfl
  · rw [begin, session]
    rfl
  · exact fun _ cell none => absurd none (Nat.not_lt_zero _)

theorem begin_backward (success : (flexUsbscicosInit boot 1 outcomes threads).1 = 0) :
    Backward [] [] (begin outcomes threads) := by
  have session := registered_session success
  refine ⟨?_, rfl, rfl, rfl, ?_, ?_, rfl, rfl, rfl⟩
  · rw [begin, session]
    exact ⟨rfl, rfl, rfl⟩
  · rw [begin, session]
    rfl
  · exact fun cell none => absurd none (Nat.not_lt_zero _)

/-- Towards UDP: as long as the packets of the device find room in the ring, their
payloads are sent one after the other, each as often as the loop finds no newer one;
what has not been sent is the payload of the present round, if it has a new one, and
what waits in the ring. Before the first payload comes, the datagrams are all zeros.
Payloads are 60 bytes long, and the first `flex_usbscicos_init` has returned 0; runs in
which a packet finds no room are left out, as the ring then gives up bytes. The
invariant is `Forward`. -/
theorem payloads_sent (outcomes : InitOutcomes) (threads : Bool)
    (success : (flexUsbscicosInit boot 1 outcomes threads).1 = 0) (events : List Event)
    (room : Throughout both HasRoom (begin outcomes threads) events) :
    Reached both (fun state => ∃ shown flight waiting,
      state.2.delivered = shown ++ flight ++ waiting ∧ flight.length ≤ 1 ∧
        Represents 256 state.1.scicos.usb.rx (waiting.flatMap payloadBytes) ∧
        Repeats (payloadBytes silence) (shown.map payloadBytes) state.2.sent)
      (begin outcomes threads) events := by
  refine (reached_of_invariant both HasRoom
    (fun state => ∃ shown flight waiting, Forward shown flight waiting state) ?_ _ events
    ⟨[], [], [], begin_forward success⟩ room).mono ?_
  · rintro state event ⟨shown, flight, waiting, forward⟩ room
    exact forward_step forward event room
  · rintro state ⟨shown, flight, waiting, forward⟩
    exact ⟨shown, flight, waiting, forward.delivered, forward.one, forward.ring, forward.sent⟩

/-- The loop goes on for some steps and receives the same each time. -/
def loops (count : Nat) (datagram : Option (List Byte)) : List Event :=
  List.replicate count (.loop datagram 0)

theorem loops_room (state : Gateway × History) (count : Nat) (datagram : Option (List Byte)) :
    Throughout both HasRoom state (loops count datagram) := by
  intro done event rest split
  have member : event ∈ loops count datagram := by
    rw [split]
    exact List.mem_append_right _ List.mem_cons_self
  rw [List.eq_of_mem_replicate member]
  trivial

/-- Two packets at once, and then two rounds and a half. -/
def twoPackets : List Event :=
  .deliver (fun _ => 7) (fun _ => 0) :: .deliver (fun _ => 9) (fun _ => 0) :: loops 80 none

theorem twoPackets_room : Throughout both HasRoom (begin smoothOpening true) twoPackets := by
  rw [twoPackets, throughout_cons, throughout_cons]
  refine ⟨?_, ?_, loops_room _ _ _⟩
  · have room : (begin smoothOpening true).1.scicos.usb.rx.rxHeld + 60 ≤
        (begin smoothOpening true).1.scicos.usb.rx.rxBufferSize := by decide
    exact room
  · have room : (both (begin smoothOpening true)
        (.deliver (fun _ => 7) fun _ => 0)).1.scicos.usb.rx.rxHeld + 60 ≤
        (both (begin smoothOpening true)
          (.deliver (fun _ => 7) fun _ => 0)).1.scicos.usb.rx.rxBufferSize := by decide
    exact room

/-- Two packets that come at once are sent by two rounds, and the third round sends the
second one again. -/
theorem two_payloads_sent :
    ∃ last, last = run both (begin smoothOpening true) twoPackets ∧
      (∃ shown flight waiting, last.2.delivered = shown ++ flight ++ waiting ∧ flight.length ≤ 1 ∧
        Represents 256 last.1.scicos.usb.rx (waiting.flatMap payloadBytes) ∧
        Repeats (payloadBytes silence) (shown.map payloadBytes) last.2.sent) ∧
      last.2.sent = [List.replicate 60 7, List.replicate 60 9, List.replicate 60 9] := by
  have success : (flexUsbscicosInit boot 1 smoothOpening true).1 = 0 := by decide
  have reached := payloads_sent smoothOpening true success twoPackets twoPackets_room
  refine ⟨_, rfl, reached twoPackets [] (List.append_nil _).symm, ?_⟩
  decide +kernel

/-- Towards the device: each round of 32 steps sends one datagram, receives one and
hands the device one packet, whose payload is the receive buffer with the datagram in
it, whatever the device sends meanwhile. What `usb_bulk_write` returns is not looked at
by the loop, and a datagram that does not come leaves the buffer as it was. Datagrams of
any length and any number of rounds are covered; the first `flex_usbscicos_init` has
returned 0. The invariant is `Backward`. -/
theorem packets_written (outcomes : InitOutcomes) (threads : Bool)
    (success : (flexUsbscicosInit boot 1 outcomes threads).1 = 0) (events : List Event) :
    Reached both (fun state => ∃ through begun,
      images (fun _ => 0) state.2.received = through ++ begun ∧
        state.2.packets = (through.map fun buffer => bytes (dataPacket buffer 60)) ∧
        state.2.steps = 32 * state.2.packets.length + state.1.stage.position ∧
        state.1.stage.position < 32 ∧
        state.2.sent.length = state.2.packets.length + (if state.1.stage.position ≤ 15 then 0 else 1) ∧
        begun.length = if state.1.stage.position ≤ 16 then 0 else 1)
      (begin outcomes threads) events := by
  refine (reached_of_invariant both (fun _ _ => True)
    (fun state => ∃ through begun, Backward through begun state) ?_ _ events
    ⟨[], [], begin_backward success⟩ fun _ _ _ _ => trivial).mono ?_
  · rintro state event ⟨through, begun, backward⟩ -
    exact backward_step backward event
  · rintro state ⟨through, begun, backward⟩
    have count : state.2.packets.length = through.length := by
      rw [backward.packets, List.length_map]
    refine ⟨through, begun, backward.received, backward.packets, ?_, ?_, ?_, backward.one⟩
    · rw [count]
      exact backward.steps
    · cases state.1.stage with
      | read ch | write ch =>
        have inside := ch.isLt
        simp only [Stage.position]
        omega
      | send | receive => decide
    · rw [count]
      exact backward.sent

/-- Two rounds, of which the first receives three bytes and the second nothing, send two
packets with these bytes. -/
theorem datagram_written_twice :
    let last := run both (begin smoothOpening true) (loops 32 (some [1, 2, 3]) ++ loops 32 none)
    (∃ through begun, images (fun _ => 0) last.2.received = through ++ begun ∧
      last.2.packets = (through.map fun buffer => bytes (dataPacket buffer 60)) ∧
      last.2.steps = 32 * last.2.packets.length + last.1.stage.position ∧ last.1.stage.position < 32 ∧
      last.2.sent.length = last.2.packets.length + (if last.1.stage.position ≤ 15 then 0 else 1) ∧
      begun.length = if last.1.stage.position ≤ 16 then 0 else 1) ∧
      last.2.packets.length = 2 := by
  intro last
  constructor
  · exact packets_written smoothOpening true (by decide)
      (loops 32 (some [1, 2, 3]) ++ loops 32 none) (loops 32 (some [1, 2, 3]) ++ loops 32 none) []
      (List.append_nil _).symm
  · decide +kernel

end Runs

end ScicosFlex.Usb.UdpGateway
