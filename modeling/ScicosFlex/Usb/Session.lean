import ScicosFlex.Usb.Packet
import ScicosFlex.Usb.RxRing

/-!
# Opening, writing to and closing the USB link

The session functions of `flex_usb.c`. The device, the allocator and the thread
library are outside the repository: a record gives the outcome of each of their
calls, and every function returns the packet it hands to `usb_bulk_write`, if it
gets that far. `flex_usb_init` gives the ring its size and memory but leaves the
three ring counters as they are.
-/

namespace ScicosFlex.Usb.Session

open Packet RxRing

/-- `FLEX_USB_RX_BUFFER_SIZE` and `FLEX_USB_TX_BUFFER_SIZE`. -/
def flexUsbRxBufferSize : Nat := 256
def flexUsbTxBufferSize : Nat := 256

/-- `sizeof(struct flex_usb_packet_t)`. -/
def packetSize : Nat := 64

/-- The file-level variables of the library. `live` records whether the two
buffer pointers are not null. -/
structure State where
  rx : Rx
  txBufferSize : Nat
  live : Bool
  options : BitVec 8
  init : Bool
  stopReader : Bool

/-- Outcomes of the calls `flex_usb_init` makes outside the library, in order.
`allocated` is the memory of a successful allocation, `detachErrno` the error
number when the kernel driver cannot be detached. -/
structure InitOutcomes where
  allocated : Option Memory
  txAllocated : Bool
  device : Bool
  detachErrno : Option Nat
  configured : Bool
  claimed : Bool
  closed : Bool
  threads : Bool

/-- A packet is complete once its checksum covers all its other bytes. -/
def sealed (packet : FlexUsbPacket) : FlexUsbPacket :=
  { packet with crc := checksum (fun cell => memory (bytes packet) (cell + 1)) (packetSize - 1) }

/-- `memset(&pkt, 0x00, sizeof(struct flex_usb_packet_t))`. -/
def zeroPacket : FlexUsbPacket :=
  { crc := 0, start := 0, type := 0, more := 0, seq := 0, reserved1 := 0, reserved2 := 0,
    length := 0, payload := fun _ => 0 }

/-- The command packet of `flex_usb_init` and `flex_usb_close`: the command code
in the first two payload bytes, high byte first. -/
def commandPacket (command : BitVec 16) : FlexUsbPacket :=
  sealed { zeroPacket with
    start := headerStart
    type := headerCommand
    payload := fun position =>
      if position.val = 0 then (command >>> 8).setWidth 8
      else if position.val = 1 then (command &&& 0x00FF).setWidth 8
      else 0
    length := 2 }

/-- The data packet of `flex_usb_write`: `len` bytes of the caller's buffer,
the rest of the payload zero. -/
def dataPacket (buf : Memory) (len : Nat) : FlexUsbPacket :=
  sealed { zeroPacket with
    start := headerStart
    type := headerData
    more := 0
    seq := 0
    length := BitVec.ofNat 6 len
    payload := fun position => if position.val < len then buf position.val else 0 }

/-- `flex_usb_write(buf, len)`, where `written` is what `usb_bulk_write` returns. -/
def flexUsbWrite (buf : Memory) (len : Nat) (written : Int) : Int × Option Frame :=
  if packetPayloadSize < len then (-2, none)
  else (written, some (bytes (dataPacket buf len)))

/-- `flex_usb_init(rx_size, tx_size, opt)`. -/
def flexUsbInit (state : State) (rxSize txSize : Nat) (opt : BitVec 8) (outcomes : InitOutcomes) :
    Int × Option Frame × State :=
  let opened := { state with stopReader := false }
  if state.init then (0, none, opened)
  else
    let rxBufferSize := if rxSize < packetSize then flexUsbRxBufferSize else rxSize
    let txBufferSize := if txSize < packetSize then flexUsbTxBufferSize else txSize
    let sized := { opened with
      options := opt
      txBufferSize := txBufferSize
      live := outcomes.allocated.isSome && outcomes.txAllocated
      rx := { state.rx with
        rxBufferSize := rxBufferSize
        rxBuffer := outcomes.allocated.getD state.rx.rxBuffer } }
    if outcomes.allocated.isNone || !outcomes.txAllocated then (-5, none, sized)
    else if !outcomes.device then (-1, none, sized)
    -- Error 61 only says that no kernel driver was attached.
    else if outcomes.detachErrno.any (fun errno => errno ≠ 61) then
      (if outcomes.closed then -1 else -11, none, sized)
    else if !outcomes.configured then (if outcomes.closed then -1 else -11, none, sized)
    else if !outcomes.claimed then (if outcomes.closed then -2 else -11, none, sized)
    else if !outcomes.threads then (-3, none, sized)
    else (0, some (bytes (commandPacket commandConnect)), { sized with init := true })

/-- `flex_usb_close()`, where `claimed` is what the last call of
`usb_claim_interface` returns and `closed` whether `usb_close` succeeds. -/
def flexUsbClose (state : State) (claimed : Int) (closed : Bool) : Int × Option Frame × State :=
  if !state.init then (1, none, state)
  else
    let packet := bytes (commandPacket commandDisconnect)
    let stopped := { state with stopReader := true }
    if !closed then (-11, some packet, stopped)
    else (claimed, some packet, { stopped with live := false, init := false })

/-- A sealed packet carries the sum of its bytes 1 to 63, as the firmware adds
them, in its checksum byte. -/
theorem sealed_sum (packet : FlexUsbPacket) :
    frameSum (bytes (sealed packet)) = (bytes (sealed packet)) 0 := by
  have same : frameSum (bytes (sealed packet)) = frameSum (bytes packet) := by
    apply frameSum_congr
    intro position other
    have nonzero : position.val ≠ 0 := fun zero => other (Fin.ext zero)
    simp [bytes, sealed, nonzero]
  rw [same, ← checksum_eq_frameSum]
  rfl

/-- Sealing only fills in the checksum. -/
theorem sealed_fields (packet : FlexUsbPacket) :
    ofBytes (bytes (sealed packet)) = { packet with crc := frameSum (bytes packet) } := by
  rw [ofBytes_bytes, ← checksum_eq_frameSum]
  rfl

/-- An initialization that opens the link without an error gives the ring its
size and the allocated memory; the ring counters stay what they were. -/
theorem init_opens (state : State) (rxSize txSize : Nat) (opt : BitVec 8)
    (outcomes : InitOutcomes) (closed : state.init = false)
    (success : 0 ≤ (flexUsbInit state rxSize txSize opt outcomes).1) :
    ∃ allocated, outcomes.allocated = some allocated ∧
      (flexUsbInit state rxSize txSize opt outcomes).2.2 =
        { rx := { state.rx with
            rxBufferSize := if rxSize < packetSize then flexUsbRxBufferSize else rxSize
            rxBuffer := allocated }
          txBufferSize := if txSize < packetSize then flexUsbTxBufferSize else txSize
          live := true, options := opt, init := true, stopReader := false } := by
  obtain ⟨allocated, txAllocated, device, detachErrno, configured, claimed, deviceClosed,
    threads⟩ := outcomes
  simp only [flexUsbInit, closed, Bool.false_eq_true, if_false] at success ⊢
  -- Every early return has a negative value, whatever closing the device gives.
  cases allocated with
  | none => simp at success
  | some memory =>
    refine ⟨memory, rfl, ?_⟩
    cases txAllocated <;> cases device <;> cases configured <;> cases claimed <;>
      cases threads <;> cases deviceClosed <;> simp at success ⊢
    all_goals (split at success <;> simp_all)

end ScicosFlex.Usb.Session
