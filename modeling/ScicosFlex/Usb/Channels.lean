import ScicosFlex.Library.Runs
import ScicosFlex.Usb.RingRuns
import ScicosFlex.Usb.Session

/-!
# Scicos channels over the USB link

`flex_usbscicos.c` in the variant that is compiled, without its own reader and
writer threads: fifteen `float` channels travel as one 60-byte payload. Read
blocks share one snapshot, which is refreshed from the receive ring by every
first one of a round of read blocks; write blocks share one outgoing payload,
which the last one of a round sends.

The ring has 256 bytes, because the requested 60 are fewer than one packet. While
its bytes are whole payloads, a packet that finds room joins them (`ring_deliver`)
and a refresh takes the oldest of them (`ring_take`).
-/

namespace ScicosFlex.Usb.Channels

open Library.CircularBuffer Library.Runs Packet RxRing RingRuns Session

/-- `SCICOS_USB_CHANNELS`. -/
def scicosUsbChannels : Nat := 15

/-- The payload of one packet. -/
abbrev Payload := Fin 60 → Byte

/-- The file-level and static variables. `rxBufferScicos` and `txBufferScicos`
are the memories behind the two `float` arrays, of which the first 60 bytes
belong to the array. -/
structure Scicos where
  usb : State
  isInitialized : Bool
  writeBlockNumber : Nat
  readBlockNumber : Nat
  rxBufferScicos : Memory
  txBufferScicos : Memory
  readExpected : Nat
  writeExpected : Nat

/-- `block_type` 0 counts a write block, 1 a read block. -/
def countBlock (scicos : Scicos) (blockType : Nat) : Scicos :=
  if blockType = 0 then { scicos with writeBlockNumber := scicos.writeBlockNumber + 1 }
  else if blockType = 1 then { scicos with readBlockNumber := scicos.readBlockNumber + 1 }
  else scicos

/-- `flex_usbscicos_init(block_type)`; `threads` is the outcome of the calls to
the thread library behind `flex_usb_init`. -/
def flexUsbscicosInit (scicos : Scicos) (blockType : Nat) (outcomes : InitOutcomes)
    (threads : Bool) : Int × Scicos :=
  if scicos.isInitialized then (1, countBlock scicos blockType)
  else
    let opened := flexUsbInit scicos.usb 60 60 0 outcomes
    let next := { scicos with usb := opened.2.2 }
    if opened.1 < 0 then (opened.1, next)
    else if !threads then (-3, next)
    else (0, countBlock { next with isInitialized := true } blockType)

/-- The four bytes of channel `ch` in a `float` array. -/
def channel (array : Memory) (ch : Nat) : List Byte := prefixOf (fun cell => array (4 * ch + cell)) 4

/-- `flex_usbscicos_read(ch)`. No result means that the counter is reduced
modulo zero read blocks. -/
def flexUsbscicosRead (scicos : Scicos) (ch : Nat) : Option (List Byte × Scicos) :=
  if ch < scicosUsbChannels ∧ scicos.isInitialized then
    let refreshed :=
      if scicos.readExpected = 0 then
        match flexUsbRead scicos.usb.rx scicos.rxBufferScicos 60 flexUsbReadNoblock with
        | some result =>
          { scicos with
            rxBufferScicos := result.buf
            usb := { scicos.usb with rx := result.rx } }
        | none => scicos
      else scicos
    if scicos.readBlockNumber = 0 then none
    else some (channel refreshed.rxBufferScicos ch,
      { refreshed with readExpected := (scicos.readExpected + 1) % scicos.readBlockNumber })
  else some (List.replicate 4 0, scicos)

/-- `flex_usbscicos_write(ch, val)`, with the payload it sends, if it sends one. -/
def flexUsbscicosWrite (scicos : Scicos) (ch : Nat) (val : Fin 4 → Byte) (written : Int) :
    Option Frame × Scicos :=
  if ch < scicosUsbChannels ∧ scicos.isInitialized then
    let stored := { scicos with
      txBufferScicos := fun cell =>
        if inside : 4 * ch ≤ cell ∧ cell < 4 * ch + 4 then val ⟨cell - 4 * ch, by omega⟩
        else scicos.txBufferScicos cell
      writeExpected := scicos.writeExpected + 1 }
    if stored.writeExpected = scicos.writeBlockNumber then
      ((flexUsbWrite stored.txBufferScicos 60 written).2, { stored with writeExpected := 0 })
    else (none, stored)
  else (none, scicos)

/-- `flex_usbscicos_close()`. -/
def flexUsbscicosClose (scicos : Scicos) (claimed : Int) (closed : Bool) : Int × Scicos :=
  if !scicos.isInitialized then (1, scicos)
  else
    let ended := flexUsbClose scicos.usb claimed closed
    let next := { scicos with usb := ended.2.2 }
    if ended.1 < 0 then (ended.1, next)
    else (1, { next with isInitialized := false, writeBlockNumber := 0 })

/-- One packet passes the reader thread: under the shift policy its payload goes
to the ring, followed in memory by whatever lies behind the packet. -/
def readerReceives (usb : State) (packet : FlexUsbPacket) (behind : Memory) : State :=
  if usb.options &&& 0xC0 = 0x00 then
    { usb with
      rx := writeRxBufferShift usb.rx
        (fun cell => if inside : cell < 60 then packet.payload ⟨cell, inside⟩ else behind cell)
        packet.length.toNat }
  else usb

/-- A packet with a full payload. The reader looks at no other header field. -/
def channelPacket (payload : Payload) : FlexUsbPacket :=
  { zeroPacket with length := 60, payload := payload }

/-- The bytes of a payload in order. -/
def payloadBytes (payload : Payload) : List Byte := List.ofFn payload

/-- The variables at program start. -/
def boot : Scicos :=
  { usb :=
      { rx := { rxBuffer := fun _ => 0, rxBufferSize := 0, rxFirst := 0, rxLast := 0, rxHeld := 0 }
        txBufferSize := 0, live := false, options := 0, init := false, stopReader := false }
    isInitialized := false
    writeBlockNumber := 0
    readBlockNumber := 0
    rxBufferScicos := fun _ => 0
    txBufferScicos := fun _ => 0
    readExpected := 0
    writeExpected := 0 }

/-- The first session of a program, opened by its blocks one after the other. -/
def openSession (outcomes : InitOutcomes) (threads : Bool) (blockTypes : List Nat) : Scicos :=
  blockTypes.foldl (fun scicos blockType => (flexUsbscicosInit scicos blockType outcomes threads).2)
    boot

/-- Sixty bytes per packet: the ring never fills to its last byte. -/
theorem waiting_length (waiting : List Payload) :
    (waiting.flatMap payloadBytes).length = 60 * waiting.length := by
  induction waiting with
  | nil => rfl
  | cons payload rest inductionHypothesis =>
    simp only [List.flatMap_cons, List.length_append, inductionHypothesis, payloadBytes,
      List.length_ofFn, List.length_cons]
    omega

/-- The memory the reader passes on starts with the payload. -/
theorem payload_prefix (payload : Payload) (behind : Memory) :
    prefixOf (fun cell => if inside : cell < 60 then payload ⟨cell, inside⟩ else behind cell) 60 =
      payloadBytes payload := by
  apply List.ext_getElem
  · simp [payloadBytes]
  · intro index left right
    have inside : index < 60 := by simpa only [prefixOf_length] using left
    simp only [prefixOf, List.getElem_map, List.getElem_range, inside, dif_pos, payloadBytes,
      List.getElem_ofFn]

/-- A payload that finds room joins those in the ring. -/
theorem ring_deliver (rx : Rx) (waiting : List Payload) (payload : Payload) (behind : Memory)
    (represents : Represents 256 rx (waiting.flatMap payloadBytes))
    (room : rx.rxHeld + 60 ≤ rx.rxBufferSize) :
    Represents 256 (writeRxBufferShift rx
        (fun cell => if inside : cell < 60 then payload ⟨cell, inside⟩ else behind cell) 60)
      ((waiting ++ [payload]).flatMap payloadBytes) := by
  let buf : Memory :=
    fun cell => if inside : cell < 60 then payload ⟨cell, inside⟩ else behind cell
  have held : rx.rxHeld = 60 * waiting.length := by
    rw [← contents_length, represents.1.stored, waiting_length]
  have last := represents.1.range.last_lt
  have capacity := represents.2
  -- A multiple of sixty is never 256, so the wrapping message cannot fill the ring.
  have fits : Fits rx (.write buf 60) := ⟨room, by omega, fun full => by omega⟩
  have appended : next 256 (waiting.flatMap payloadBytes) (.write buf 60) =
      (waiting ++ [payload]).flatMap payloadBytes := by
    rw [next, payload_prefix, push_fits]
    · simp
    · rw [waiting_length, payloadBytes, List.length_ofFn]
      omega
  rw [← appended]
  exact ((call_step 256 _ _ (.write buf 60) represents ⟨by decide, by decide⟩).mpr fits).1

/-- A read takes the oldest payload out of the ring, if there is one. -/
theorem ring_take (rx : Rx) (waiting : List Payload) (buf : Memory)
    (represents : Represents 256 rx (waiting.flatMap payloadBytes)) :
    ∃ result, flexUsbRead rx buf 60 flexUsbReadNoblock = some result ∧
      Represents 256 result.rx (waiting.tail.flatMap payloadBytes) ∧
      ∀ cell : Fin 60, result.buf cell.val = (waiting.head?.elim (buf cell.val) fun payload => payload cell) := by
  have admitted : Admissible rx (.read buf 60 flexUsbReadNoblock) := ⟨by decide, by decide, Or.inr rfl⟩
  have completed := read_completes _ _ _ _ represents.1.range admitted
  have held : rx.rxHeld = 60 * waiting.length := by
    rw [← contents_length, represents.1.stored, waiting_length]
  cases waiting with
  | nil =>
    have empty : rx.rxHeld = 0 := held
    rw [if_pos empty] at completed
    exact ⟨_, completed, represents, fun _ => rfl⟩
  | cons payload rest =>
    have first := represents.1.range.first_lt
    have capacity := represents.2
    have fits : Fits rx (.read buf 60 flexUsbReadNoblock) := by
      change rx.rxFirst + min 60 rx.rxHeld < 2 ^ 32
      omega
    obtain ⟨afterwards, result, answered, -, bytes⟩ := (call_step 256 _ _ _ represents admitted).mpr fits
    have width : (payloadBytes payload).length = 60 := by rw [payloadBytes, List.length_ofFn]
    have taken : ((payload :: rest).flatMap payloadBytes).take 60 = payloadBytes payload := by
      rw [List.flatMap_cons, List.take_left' width]
    have dropped : ((payload :: rest).flatMap payloadBytes).drop 60 = rest.flatMap payloadBytes := by
      rw [List.flatMap_cons, List.drop_left' width]
    simp only [taken, width] at bytes
    simp only [after, answered, Option.map_some, Option.getD_some, next, dropped] at afterwards
    refine ⟨result, answered, afterwards, ?_⟩
    intro cell
    change result.buf cell.val = payload cell
    have same := congrArg (fun bytes : List Byte => bytes[cell.val]?) bytes
    simpa only [prefixOf, payloadBytes, List.getElem?_map, List.getElem?_range cell.isLt,
      Option.map_some, List.getElem?_ofFn, cell.isLt, dif_pos, Option.some.injEq] using same

/-- The first block of a session opens the link and is counted. -/
theorem first_block (outcomes : InitOutcomes) (threads : Bool) (first : Nat)
    (success : (flexUsbscicosInit boot first outcomes threads).1 = 0) :
    0 ≤ (flexUsbInit boot.usb 60 60 0 outcomes).1 ∧
      (flexUsbscicosInit boot first outcomes threads).2 =
        countBlock { boot with
          usb := (flexUsbInit boot.usb 60 60 0 outcomes).2.2
          isInitialized := true } first := by
  have fresh : boot.isInitialized = false := rfl
  simp only [flexUsbscicosInit, fresh, Bool.false_eq_true, if_false] at success ⊢
  by_cases failed : (flexUsbInit boot.usb 60 60 0 outcomes).1 < 0
  · simp only [failed, if_true] at success
    omega
  · cases threads with
    | false => simp only [failed, if_false, Bool.not_false, if_true] at success; omega
    | true =>
      simp only [failed, if_false, Bool.not_true, Bool.false_eq_true]
      exact ⟨Int.not_lt.mp failed, trivial⟩

/-- Every call outside the library succeeds. -/
def smoothOpening : InitOutcomes :=
  { allocated := some fun _ => 0, txAllocated := true, device := true, detachErrno := none
    configured := true, claimed := true, closed := true, threads := true }

end ScicosFlex.Usb.Channels
