import ScicosFlex.Usb.Packet

/-!
# The PIC18 bridge

`flex_usb_process` of the PIC18 firmware, which moves packets between the SPI bus
of the dsPIC and the HID reports of the PC. The bridge owns one packet buffer for
each direction and three flags. One call is driven by the request line of the
dsPIC, the bytes the dsPIC shifts out, and the report the USB stack may have
ready.

The function falls into three parts: an SPI exchange, the parsing of a report,
and the transmission of a pending packet. The parser returns early from the whole
function after a rejected report, a data report and an acknowledge report, and
then the transmission is not reached.
-/

namespace ScicosFlex.Pic18.Bridge

open Usb Usb.Packet

/-- The file-level variables. `usbFlexLed` is the output pin of the LED. -/
structure State where
  usbRxBuffer : Frame
  usbTxBuffer : Frame
  connected : Bool
  toSendUsb : Bool
  toSendSpi : Bool
  usbFlexLed : Bool

/-- What one call meets: the level of `USB_DSPIC_REQ`, the bytes the dsPIC shifts
out if 64 SPI cycles are run, and the report that `HIDRxReport` returns, if any. -/
structure Call where
  usbDspicReq : Bool
  shifted : Frame
  report : Option Frame

/-- The SPI cycles of one call. Reading clocks out 64 dummy zeros. -/
inductive SpiCycles where
  | idle
  | onlyWrite (out : Frame)
  | onlyRead (shifted : Frame)
  | writeRead (out shifted : Frame)

/-- What one call does on the two buses. -/
structure Traffic where
  spi : SpiCycles
  hidTxReport : Option Frame

/-- Start-up: all static variables are zero. -/
def boot : State :=
  { usbRxBuffer := fun _ => 0, usbTxBuffer := fun _ => 0, connected := false
    toSendUsb := false, toSendSpi := false, usbFlexLed := false }

/-- The checksum byte is the sum of the other bytes. -/
def crcMatches (frame : Frame) : Bool := (ofBytes frame).crc == frameSum frame

/-- A packet read from the dsPIC is marked for sending if its checksum is right. -/
def storeShifted (bridge : State) (shifted : Frame) : State :=
  { bridge with usbTxBuffer := shifted, toSendUsb := crcMatches shifted }

/-- The SPI part: only write, only read, or both. -/
def spiExchange (bridge : State) (call : Call) : State × SpiCycles :=
  if bridge.toSendSpi && !call.usbDspicReq then
    ({ bridge with toSendSpi := false }, .onlyWrite bridge.usbRxBuffer)
  else if !bridge.toSendSpi && call.usbDspicReq then
    (storeShifted bridge call.shifted, .onlyRead call.shifted)
  else if bridge.toSendSpi && call.usbDspicReq then
    ({ storeShifted bridge call.shifted with toSendSpi := false },
      .writeRead bridge.usbRxBuffer call.shifted)
  else (bridge, .idle)

/-- The command code: payload bytes 0 and 1, high byte first. -/
def command (packet : FlexUsbPacket) : BitVec 16 :=
  (packet.payload 1).setWidth 16 + (packet.payload 0).setWidth 16 <<< 8

/-- The reaction to a command code. Unknown codes are ignored. -/
def obey (bridge : State) (cmd : BitVec 16) : State :=
  if cmd = commandConnect then { bridge with usbFlexLed := true, connected := true }
  else if cmd = commandDisconnect then { bridge with usbFlexLed := false, connected := false }
  else bridge

/-- The header test on a received report. -/
def accepted (report : Frame) : Bool :=
  crcMatches report && (ofBytes report).start == headerStart

/-- The USB part. The second component says whether the function returns here. -/
def parseReport (bridge : State) : Option Frame → State × Bool
  | none => (bridge, false)
  | some report =>
    let stored := { bridge with usbRxBuffer := report }
    if !accepted report then ({ stored with connected := false }, true)
    else if (ofBytes report).type = headerData then ({ stored with toSendSpi := true }, true)
    else if (ofBytes report).type = headerAck then (stored, true)
    else if (ofBytes report).type = headerCommand then
      (obey stored (command (ofBytes report)), false)
    else (stored, false)

/-- The transmission part. -/
def sendPending (bridge : State) : State × Option Frame :=
  if bridge.connected && bridge.toSendUsb then
    ({ bridge with usbFlexLed := !bridge.usbFlexLed, toSendUsb := false }, some bridge.usbTxBuffer)
  else (bridge, none)

/-- `flex_usb_process()`. -/
def flexUsbProcess (bridge : State) (call : Call) : State × Traffic :=
  let exchanged := spiExchange bridge call
  let parsed := parseReport exchanged.1 call.report
  if parsed.2 then (parsed.1, { spi := exchanged.2, hidTxReport := none })
  else
    let sent := sendPending parsed.1
    (sent.1, { spi := exchanged.2, hidTxReport := sent.2 })

/-- The bridge after a call. -/
def next (bridge : State) (call : Call) : State := (flexUsbProcess bridge call).1

/-- The packet clocked out on SPI; dummy zeros are no packet. -/
def SpiCycles.clockedOut : SpiCycles → Option Frame
  | .idle | .onlyRead _ => none
  | .onlyWrite out | .writeRead out _ => some out

/-- The packet read from the dsPIC. -/
def SpiCycles.readIn : SpiCycles → Option Frame
  | .idle | .onlyWrite _ => none
  | .onlyRead shifted | .writeRead _ shifted => some shifted

/-- The packet a call reads from the dsPIC with a right checksum. -/
def validRead (call : Call) : Option Frame :=
  if call.usbDspicReq && crcMatches call.shifted then some call.shifted else none

/-- The report of a call if the bridge accepts it as data. -/
def acceptedData (call : Call) : Option Frame :=
  call.report.bind fun report =>
    if accepted report && (ofBytes report).type == headerData then some report else none

/-- The packet waiting for the PC. -/
def pendingUsb (bridge : State) : Option Frame :=
  if bridge.toSendUsb then some bridge.usbTxBuffer else none

/-- The packet waiting for the dsPIC. -/
def pendingSpi (bridge : State) : Option Frame :=
  if bridge.toSendSpi then some bridge.usbRxBuffer else none

/-- The SPI part clocks out what was scheduled, and nothing stays scheduled. -/
theorem exchange_writes (bridge : State) (call : Call) :
    (spiExchange bridge call).2.clockedOut = pendingSpi bridge ∧
      (spiExchange bridge call).1.toSendSpi = false := by
  cases request : call.usbDspicReq <;> cases scheduled : bridge.toSendSpi <;>
    simp [spiExchange, storeShifted, request, scheduled, SpiCycles.clockedOut, pendingSpi]

/-- Without a request the packet for the PC waits on; with one the buffer and its
flag are those of the packet just read. -/
theorem exchange_pending (bridge : State) (call : Call) :
    pendingUsb (spiExchange bridge call).1 =
      if call.usbDspicReq then validRead call else pendingUsb bridge := by
  cases request : call.usbDspicReq <;> cases scheduled : bridge.toSendSpi <;>
    simp [spiExchange, storeShifted, request, scheduled, pendingUsb, validRead]

/-- The SPI part neither connects nor disconnects. -/
theorem exchange_connected (bridge : State) (call : Call) :
    (spiExchange bridge call).1.connected = bridge.connected := by
  cases request : call.usbDspicReq <;> cases scheduled : bridge.toSendSpi <;>
    simp [spiExchange, storeShifted, request, scheduled]

/-- A command only changes the LED and the connection. -/
theorem obey_keeps (bridge : State) (cmd : BitVec 16) :
    pendingUsb (obey bridge cmd) = pendingUsb bridge ∧
      pendingSpi (obey bridge cmd) = pendingSpi bridge := by
  unfold obey
  split
  · exact ⟨rfl, rfl⟩
  · split <;> exact ⟨rfl, rfl⟩

/-- Parsing a report does not touch the packet for the PC. -/
theorem parse_pendingUsb (bridge : State) (report : Option Frame) :
    pendingUsb (parseReport bridge report).1 = pendingUsb bridge := by
  cases report with
  | none => rfl
  | some report =>
    simp only [parseReport]
    repeat' split
    · rfl
    · rfl
    · rfl
    · exact (obey_keeps _ _).1
    · rfl

/-- Behind the SPI part, the parser schedules exactly the accepted data reports. -/
theorem parse_pendingSpi (bridge : State) (call : Call) (idle : bridge.toSendSpi = false) :
    pendingSpi (parseReport bridge call.report).1 = acceptedData call := by
  cases present : call.report with
  | none => simp [parseReport, acceptedData, present, pendingSpi, idle]
  | some report =>
    have other (kind : (ofBytes report).type ≠ headerData) : acceptedData call = none := by
      simp [acceptedData, present, kind]
    simp only [parseReport]
    by_cases valid : accepted report = true
    · simp only [valid, Bool.not_true, Bool.false_eq_true, if_false]
      by_cases data : (ofBytes report).type = headerData
      · simp [data, pendingSpi, acceptedData, present, valid]
      · rw [other data, if_neg data]
        split
        · simp [pendingSpi, idle]
        · split
          · rw [(obey_keeps _ _).2]
            simp [pendingSpi, idle]
          · simp [pendingSpi, idle]
    · simp [valid, pendingSpi, idle, acceptedData, present]

/-- The transmission does not touch the packet for the dsPIC. -/
theorem send_pendingSpi (bridge : State) :
    pendingSpi (sendPending bridge).1 = pendingSpi bridge := by
  unfold sendPending
  split <;> rfl

/-- A connected bridge sends the waiting packet, a disconnected one keeps it. -/
theorem send_pendingUsb (bridge : State) :
    (sendPending bridge).2 = (if bridge.connected then pendingUsb bridge else none) ∧
      pendingUsb (sendPending bridge).1 = if bridge.connected then none else pendingUsb bridge := by
  cases up : bridge.connected <;> cases waiting : bridge.toSendUsb <;>
    simp [sendPending, pendingUsb, up, waiting]

/-- The transmission leaves the connection as it is. -/
theorem send_connected (bridge : State) : (sendPending bridge).1.connected = bridge.connected := by
  unfold sendPending
  split <;> rfl

/-- Whether a call ends before the transmission part: after a rejected report, a
data report or an acknowledge report. -/
def returnsEarly (call : Call) : Bool :=
  call.report.any fun report => !accepted report || (ofBytes report).type == headerData ||
    (ofBytes report).type == headerAck

/-- The parser returns exactly on those reports. -/
theorem parse_returns (bridge : State) (call : Call) :
    (parseReport bridge call.report).2 = returnsEarly call := by
  cases present : call.report with
  | none => simp [parseReport, returnsEarly, present]
  | some report =>
    simp only [parseReport, returnsEarly, present, Option.any_some]
    repeat' split
    all_goals simp_all

/-- The connection behind the parser. -/
theorem next_connected (bridge : State) (call : Call) :
    (next bridge call).connected = (parseReport (spiExchange bridge call).1 call.report).1.connected := by
  unfold next flexUsbProcess
  simp only
  split
  · rfl
  · exact send_connected _

/-- One call on the SPI side: it clocks out the packet scheduled before it and
schedules its own report if that is data. -/
theorem process_spi (bridge : State) (call : Call) :
    (flexUsbProcess bridge call).2.spi.clockedOut = pendingSpi bridge ∧
      pendingSpi (next bridge call) = acceptedData call := by
  obtain ⟨out, idle⟩ := exchange_writes bridge call
  have scheduled := parse_pendingSpi (spiExchange bridge call).1 call idle
  unfold next flexUsbProcess
  simp only
  split
  · exact ⟨out, scheduled⟩
  · exact ⟨out, (send_pendingSpi _).trans scheduled⟩

/-- One call on the USB side: the packet to send is the one just read, or without
a request the one already waiting; it is sent if the call does not return early
and the bridge is connected, and waits on otherwise. -/
theorem process_usb (bridge : State) (call : Call) :
    let waiting := if call.usbDspicReq then validRead call else pendingUsb bridge
    let sends := !returnsEarly call && (next bridge call).connected
    (flexUsbProcess bridge call).2.hidTxReport = (if sends then waiting else none) ∧
      pendingUsb (next bridge call) = if sends then none else waiting := by
  have stored : pendingUsb (parseReport (spiExchange bridge call).1 call.report).1 =
      if call.usbDspicReq then validRead call else pendingUsb bridge := by
    rw [parse_pendingUsb, exchange_pending]
  have up := next_connected bridge call
  have returned := parse_returns (spiExchange bridge call).1 call
  simp only [up, ← stored, ← returned]
  unfold next flexUsbProcess
  simp only
  split
  · rename_i early
    simp [early]
  · rename_i late
    obtain ⟨out, left⟩ := send_pendingUsb (parseReport (spiExchange bridge call).1 call.report).1
    simp [late, out, left]

end ScicosFlex.Pic18.Bridge
