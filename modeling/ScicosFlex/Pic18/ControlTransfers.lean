import ScicosFlex.Library.Packets
import ScicosFlex.Library.Runs
import ScicosFlex.Pic18.UsbDevice

/-!
# Control transfers over endpoint 0

The stack at work: the host and the hardware on one side, the firmware on the
other, in any order of steps. The hardware takes a packet only into a buffer it
owns, checks the data bit if it is told to, hands the buffer back with the packet
identifier and the byte count, and puts the transaction into the queue. A setup
packet is taken whatever data bit the buffer waits for, into whatever buffer the
descriptor points to, and stops all traffic until the firmware lets it go on; a
stalled buffer answers every other packet with STALL.

`Orderly` is what the stack expects of the host.
-/

namespace ScicosFlex.Pic18.Stack

open Library.Packets Library.Runs

/-- The device, the last setup packet the hardware has taken since the last bus
reset, and what the host has read from endpoint 0 since then: data bit and data. -/
structure System where
  usb : Usb
  request : Option Area
  received : List (Bool × List Byte)

/-- What happens next on the bus or in the main loop. -/
inductive Step where
  | setupToken (pkt : Area)
  | outToken (toggle : Bool) (data : List Byte)
  | inToken
  | hidOutToken (toggle : Bool) (data : List Byte)
  | hidInToken
  | busReset | busIdle | busActivity | startOfFrame | busError
  | lineState (se0 : Bool)
  | checkBusStatus
  | driverService
  | txReport (buffer : Area) (len : Byte)
  | rxReport (len : Byte)

section Hardware

/-- The hardware answers packets. -/
def listening (usb : Usb) : Bool := usb.usben && !usb.suspnd && !usb.pktdis

/-- A buffer handed back: the data bit stays, the packet identifier is written. -/
def handBack (bd : Bdt) (pid cnt : Byte) : Bdt :=
  { bd with stat := (bd.stat &&& dtsmask) ||| (pid <<< 2), cnt := cnt }

/-- The memory of a buffer. -/
def buffer (usb : Usb) : Buffer → Area
  | .setupPkt => usb.setupPkt
  | .ctrlTrfData => usb.ctrlTrfData
  | .hidReportOut => usb.hidReportOut
  | .hidReportIn => usb.hidReportIn

/-- Received bytes go into a buffer. -/
def fill (usb : Usb) (adr : Buffer) (data : Area) (count : Nat) : Usb :=
  let filled (old : Area) : Area := fun k => if k < count then data k else old k
  match adr with
  | .setupPkt => { usb with setupPkt := filled usb.setupPkt }
  | .ctrlTrfData => { usb with ctrlTrfData := filled usb.ctrlTrfData }
  | .hidReportOut => { usb with hidReportOut := filled usb.hidReportOut }
  | .hidReportIn => { usb with hidReportIn := filled usb.hidReportIn }

/-- Endpoint 0 can take a setup packet; `DTSEN` has no say in it. -/
def takesSetup (usb : Usb) : Bool :=
  listening usb && usb.uep0.getLsbD 2 && usb.ep0Bo.uown && !usb.ep0Bo.bstall &&
    decide (8 ≤ usb.ep0Bo.cnt.toNat)

/-- A setup packet. -/
def sieSetup (usb : Usb) (pkt : Area) : Usb :=
  { fill usb usb.ep0Bo.adr pkt 8 with
    ep0Bo := handBack usb.ep0Bo setupToken 8
    pktdis := true
    ustat := usb.ustat ++ [.ep00Out] }

/-- An OUT packet for endpoint 0; one with the wrong data bit is taken for a
repetition and dropped. -/
def sieOut (usb : Usb) (toggle : Bool) (data : List Byte) : Usb :=
  if listening usb && usb.uep0.getLsbD 2 && usb.ep0Bo.uown then
    if usb.ep0Bo.bstall then { usb with stallif := true, uep0 := usb.uep0 ||| 1 }
    else if usb.ep0Bo.dtsen && (usb.ep0Bo.dts != toggle) then usb
    else if data.length ≤ usb.ep0Bo.cnt.toNat then
      { fill usb usb.ep0Bo.adr (area data) data.length with
        ep0Bo := handBack usb.ep0Bo outToken (BitVec.ofNat 8 data.length)
        ustat := usb.ustat ++ [.ep00Out] }
    else usb
  else usb

/-- An IN packet from endpoint 0, if there is one for the host. -/
def sieIn (usb : Usb) : Usb × Option (Bool × List Byte) :=
  if listening usb && usb.uep0.getLsbD 1 && usb.ep0Bi.uown then
    if usb.ep0Bi.bstall then ({ usb with stallif := true, uep0 := usb.uep0 ||| 1 }, none)
    else
      ({ usb with
         ep0Bi := handBack usb.ep0Bi inToken usb.ep0Bi.cnt
         ustat := usb.ustat ++ [.ep00In] },
       some (usb.ep0Bi.dts, (buffer usb usb.ep0Bi.adr).bytes usb.ep0Bi.cnt.toNat))
  else (usb, none)

/-- An OUT packet for endpoint 1. -/
def sieHidOut (usb : Usb) (toggle : Bool) (data : List Byte) : Usb :=
  if listening usb && usb.uep1.getLsbD 2 && usb.ep1Bo.uown then
    if usb.ep1Bo.bstall then { usb with stallif := true }
    else if usb.ep1Bo.dtsen && (usb.ep1Bo.dts != toggle) then usb
    else if data.length ≤ usb.ep1Bo.cnt.toNat then
      { usb with
        hidReportOut := fun k => if k < data.length then area data k else usb.hidReportOut k
        ep1Bo := handBack usb.ep1Bo outToken (BitVec.ofNat 8 data.length)
        ustat := usb.ustat ++ [.ep01Out] }
    else usb
  else usb

/-- An IN packet from endpoint 1. -/
def sieHidIn (usb : Usb) : Usb × Option (Bool × List Byte) :=
  if listening usb && usb.uep1.getLsbD 1 && usb.ep1Bi.uown then
    if usb.ep1Bi.bstall then ({ usb with stallif := true }, none)
    else
      ({ usb with
         ep1Bi := handBack usb.ep1Bi inToken usb.ep1Bi.cnt
         ustat := usb.ustat ++ [.ep01In] },
       some (usb.ep1Bi.dts, usb.hidReportIn.bytes usb.ep1Bi.cnt.toNat))
  else (usb, none)

end Hardware

section Outcomes

variable (P : Usb → Prop) {usb : Usb}

/-- Filling a buffer changes nothing but memory. -/
theorem fill_memory (usb : Usb) (adr : Buffer) (data : Area) (count : Nat) :
    ∃ setupPkt ctrlTrfData hidReportOut hidReportIn, fill usb adr data count =
      { usb with
        setupPkt := setupPkt
        ctrlTrfData := ctrlTrfData
        hidReportOut := hidReportOut
        hidReportIn := hidReportIn } := by
  cases adr <;> exact ⟨_, _, _, _, rfl⟩

/-- What an OUT packet can do at endpoint 0: nothing, be answered with STALL, or be taken. Later
proofs go over these outcomes and do not look at `sieOut` again. -/
theorem sieOut_keeps (toggle : Bool) (data : List Byte) (same : P usb)
    (stalled : usb.uep0.getLsbD 2 = true → P { usb with stallif := true, uep0 := usb.uep0 ||| 1 })
    (taken : listening usb = true →
      P { fill usb usb.ep0Bo.adr (area data) data.length with
          ep0Bo := handBack usb.ep0Bo outToken (BitVec.ofNat 8 data.length)
          ustat := usb.ustat ++ [.ep00Out] }) : P (sieOut usb toggle data) := by
  unfold sieOut
  split
  · rename_i accepts
    simp only [Bool.and_eq_true] at accepts
    split
    · exact stalled accepts.1.2
    · split
      · exact same
      · split
        · exact taken accepts.1.1
        · exact same
  · exact same

/-- And an IN packet. -/
theorem sieIn_keeps (same : P usb)
    (stalled : usb.uep0.getLsbD 1 = true → P { usb with stallif := true, uep0 := usb.uep0 ||| 1 })
    (read : P { usb with
      ep0Bi := handBack usb.ep0Bi inToken usb.ep0Bi.cnt
      ustat := usb.ustat ++ [.ep00In] }) : P (sieIn usb).1 := by
  unfold sieIn
  split
  · rename_i accepts
    simp only [Bool.and_eq_true] at accepts
    split
    · exact stalled accepts.1.2
    · exact read
  · exact same

/-- The same for endpoint 1, whose STALL leaves no mark in `UEP1`. -/
theorem sieHidOut_keeps (toggle : Bool) (data : List Byte) (same : P usb)
    (stalled : P { usb with stallif := true })
    (taken : P { usb with
      hidReportOut := fun k => if k < data.length then area data k else usb.hidReportOut k
      ep1Bo := handBack usb.ep1Bo outToken (BitVec.ofNat 8 data.length)
      ustat := usb.ustat ++ [.ep01Out] }) : P (sieHidOut usb toggle data) := by
  unfold sieHidOut
  split
  · split
    · exact stalled
    · split
      · exact same
      · split
        · exact taken
        · exact same
  · exact same

theorem sieHidIn_keeps (same : P usb) (stalled : P { usb with stallif := true })
    (read : P { usb with
      ep1Bi := handBack usb.ep1Bi inToken usb.ep1Bi.cnt
      ustat := usb.ustat ++ [.ep01In] }) : P (sieHidIn usb).1 := by
  unfold sieHidIn
  split
  · split
    · exact stalled
    · exact read
  · exact same

/-- `HIDRxReport` finds no report, or hands its buffer back. -/
theorem hidRxReport_keeps (len : Byte) (none : P { usb with hidRptRxLen := 0 })
    (handed : ∀ copied : Byte, P { usb with
      hidRptRxLen := copied
      ep1Bo := mUSBBufferReady { usb.ep1Bo with cnt := BitVec.ofNat 8 hidIntOutEpSize } }) :
    P (hidRxReport usb len).1 := by
  unfold hidRxReport
  split
  · exact none
  · exact handed _

end Outcomes

section Steps

variable (rom : Rom)

/-- One step of the system. A bus reset ends what the host was doing, and takes the
address out of the hardware before the firmware knows of it. -/
def step (system : System) : Step → System
  | .setupToken pkt =>
    if takesSetup system.usb then
      { usb := sieSetup system.usb pkt, request := some pkt, received := [] }
    else system
  | .outToken toggle data => { system with usb := sieOut system.usb toggle data }
  | .inToken =>
    { system with
      usb := (sieIn system.usb).1
      received := system.received ++ (sieIn system.usb).2.toList }
  | .hidOutToken toggle data => { system with usb := sieHidOut system.usb toggle data }
  | .hidInToken => { system with usb := (sieHidIn system.usb).1 }
  | .busReset =>
    { system with usb := { system.usb with urstif := true, uaddr := 0 }, request := none }
  | .busIdle => { system with usb := { system.usb with idleif := true } }
  | .busActivity => { system with usb := { system.usb with actvif := true } }
  | .startOfFrame => { system with usb := { system.usb with sofif := true } }
  | .busError => { system with usb := { system.usb with uerrif := true } }
  | .lineState se0 => { system with usb := { system.usb with se0 := se0 } }
  | .checkBusStatus => { system with usb := usbCheckBusStatus system.usb }
  | .driverService => { system with usb := usbDriverService rom system.usb }
  | .txReport buffer len => { system with usb := hidTxReport system.usb buffer len }
  | .rxReport len => { system with usb := (hidRxReport system.usb len).1 }

/-- Power on. -/
def powerOn : System := { usb := start, request := none, received := [] }

/-- The host keeps to the protocol and gives the device its time. It sends no request
before the firmware has seen a bus reset, nor while an earlier request without a reply
waits until its confirmation has been read and seen: there the OUT buffer is
`CtrlTrfData`, and the firmware would serve the old packet in `SetupPkt` again. It names
no interface but 0, sends no data to requests that take none, and does not read on after
it has ended a transfer. -/
def Orderly (system : System) : Step → Prop
  | .setupToken pkt =>
    system.usb.urstif = false ∧ system.usb.ctrlTrfState ≠ .ctrlTrfRx ∧ NamesOwn pkt
  | .outToken _ _ => system.usb.ctrlTrfState ≠ .ctrlTrfRx
  | .inToken => system.usb.pktdis = false → .ep00Out ∉ system.usb.ustat
  | _ => True

end Steps

end ScicosFlex.Pic18.Stack
