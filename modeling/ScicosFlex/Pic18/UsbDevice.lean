import ScicosFlex.Pic18.Descriptors

/-!
# The USB stack of the PIC18

`usbdrv.c`, `usbctrltrf.c`, `usb9.c` and `hid.c`: the device states, the control
transfers over endpoint 0 with the standard and HID requests, and the two HID
pipes over endpoint 1. The hardware shares the buffer descriptors with the
firmware; a descriptor belongs to the hardware while its `UOWN` bit is set. The
hardware's own part is in the next module, here is what the firmware does.

The transactions that the hardware has completed wait in a queue, whose head is
`USTAT`; `TRNIF` says that it is not empty, and clearing it takes the head away.
-/

namespace ScicosFlex.Pic18.Stack

/-- `usb_device_state`. -/
inductive DeviceState where
  | detached | attached | powered | default | adrPending | address | configured
deriving DecidableEq, Repr

/-- The value of a device state, by which the firmware compares it. -/
def DeviceState.value : DeviceState → Nat
  | .detached => 0
  | .attached => 1
  | .powered => 2
  | .default => 3
  | .adrPending => 4
  | .address => 5
  | .configured => 6

/-- `ctrl_trf_state`. -/
inductive CtrlTrfState where
  | waitSetup | ctrlTrfTx | ctrlTrfRx
deriving DecidableEq, Repr

/-- `ctrl_trf_session_owner`, for the classes of this configuration. -/
inductive Muid where
  | null | usb9 | hid
deriving DecidableEq, Repr

/-- `usb_stat.ctrl_trf_mem`. -/
inductive Memory where
  | ram | rom
deriving DecidableEq, Repr

/-- The buffers a descriptor may point to. -/
inductive Buffer where
  | setupPkt | ctrlTrfData | hidReportOut | hidReportIn
deriving DecidableEq, Repr

/-- Bits of a buffer descriptor's status. -/
def bstall : Byte := 0x04
def dtsen : Byte := 0x08
def dat0 : Byte := 0x00
def dat1 : Byte := 0x40
def dtsmask : Byte := 0x40
def usie : Byte := 0x80
def ucpu : Byte := 0x00

/-- Packet identifiers, as the hardware writes them into the status. -/
def setupToken : Byte := 0x0D
def outToken : Byte := 0x01
def inToken : Byte := 0x09

/-- `BDT`: a buffer descriptor. -/
structure Bdt where
  stat : Byte
  cnt : Byte
  adr : Buffer

/-- The fields of the status. `PID` lies over `BSTALL` and `DTSEN`. -/
def Bdt.uown (bd : Bdt) : Bool := bd.stat.getLsbD 7
def Bdt.dts (bd : Bdt) : Bool := bd.stat.getLsbD 6
def Bdt.bstall (bd : Bdt) : Bool := bd.stat.getLsbD 2
def Bdt.dtsen (bd : Bdt) : Bool := bd.stat.getLsbD 3
def Bdt.pid (bd : Bdt) : Byte := (bd.stat >>> 2) &&& 0x0F

/-- Where a completed transaction took place: `USTAT`. -/
inductive Ustat where
  | ep00Out | ep00In | ep01Out | ep01In
deriving DecidableEq, Repr

/-- `UEPn` values: `EP_CTRL|HSHK_EN` and `EP_OUT_IN|HSHK_EN`. -/
def epCtrl : Byte := 0x16
def epOutIn : Byte := 0x1E

/-- `UIE`, the enabled interrupts. -/
structure Uie where
  sofie : Bool
  stallie : Bool
  idleie : Bool
  trnie : Bool
  actvie : Bool
  uerrie : Bool
  urstie : Bool

/-- `UIE = 0`. -/
def Uie.none : Uie :=
  { sofie := false, stallie := false, idleie := false, trnie := false, actvie := false
    uerrie := false, urstie := false }

/-- The registers of the hardware and the variables of the firmware. `pSrc` is the
memory from the source pointer on. `stored` is what `USBCtrlTrfRxService` has written
through the destination pointer, which points to wherever an earlier request has left
it; the rest of the state does not show these bytes, so it is the state of the device
as long as there are none. `reply` keeps what the last request made ready for the host;
it is there for the theorems, no function reads it. -/
structure Usb where
  usbDeviceState : DeviceState
  remoteWakeup : Bool
  ctrlTrfMem : Memory
  usbActiveCfg : Byte
  usbAltIntf : Area
  ctrlTrfState : CtrlTrfState
  ctrlTrfSessionOwner : Muid
  pSrc : Area
  stored : List Byte
  wCount : BitVec 16
  idleRate : Byte
  activeProtocol : Byte
  hidRptRxLen : Byte
  ep0Bo : Bdt
  ep0Bi : Bdt
  ep1Bo : Bdt
  ep1Bi : Bdt
  setupPkt : Area
  ctrlTrfData : Area
  hidReportOut : Area
  hidReportIn : Area
  uaddr : Byte
  uep0 : Byte
  uep1 : Byte
  usben : Bool
  suspnd : Bool
  pktdis : Bool
  se0 : Bool
  uie : Uie
  sofif : Bool
  stallif : Bool
  idleif : Bool
  actvif : Bool
  uerrif : Bool
  urstif : Bool
  ustat : List Ustat
  reply : List Byte

section SetupPacket

variable (pkt : Area)

/-- The fields of a setup packet. -/
def bmRequestType : Byte := pkt 0
def recipient : Byte := pkt 0 &&& 0x1F
def requestType : Byte := (pkt 0 >>> 5) &&& 0x03
def devToHost : Bool := (pkt 0).getLsbD 7
def bRequest : Byte := pkt 1
def bFeature : Byte := pkt 2
def bDscIndex : Byte := pkt 2
def bDevADR : Byte := pkt 2
def bCfgValue : Byte := pkt 2
def bAltID : Byte := pkt 2
def bDscType : Byte := pkt 3
def bIntfID : Byte := pkt 4
def epNum : Byte := pkt 4 &&& 0x0F
def epDir : Bool := (pkt 4).getLsbD 7
def wLength : BitVec 16 := pkt 7 ++ pkt 6

end SetupPacket

/-- Request types and recipients. -/
def standard : Byte := 0
def classReq : Byte := 1
def rcptDev : Byte := 0
def rcptIntf : Byte := 1
def rcptEp : Byte := 2

/-- Standard request codes and feature selectors. -/
def getStatus : Byte := 0
def clrFeature : Byte := 1
def setFeature : Byte := 3
def setAdr : Byte := 5
def getDsc : Byte := 6
def getCfg : Byte := 8
def setCfg : Byte := 9
def getIntf : Byte := 10
def setIntf : Byte := 11
def deviceRemoteWakeup : Byte := 1
def endpointHalt : Byte := 0

/-- HID request codes. -/
def getIdle : Byte := 0x02
def getProtocol : Byte := 0x03
def setIdle : Byte := 0x0A
def setProtocol : Byte := 0x0B

/-- `LSB(w) = value`. -/
def setLsb (w : BitVec 16) (value : Byte) : BitVec 16 := (w &&& 0xFF00) ||| value.setWidth 16

/-- `mUSBBufferReady(buffer_dsc)`: toggle the data bit and hand the buffer over. -/
def mUSBBufferReady (bd : Bdt) : Bdt :=
  { bd with stat := ((bd.stat &&& dtsmask) ^^^ dtsmask) ||| (usie ||| dtsen) }

section ControlTransfers

/-- `USBPrepareForNextSetupTrf()`. -/
def usbPrepareForNextSetupTrf (usb : Usb) : Usb :=
  { usb with
    ctrlTrfState := .waitSetup
    ep0Bo := { stat := usie ||| dat0 ||| dtsen, cnt := BitVec.ofNat 8 ep0BuffSize, adr := .setupPkt }
    ep0Bi := { usb.ep0Bi with stat := ucpu } }

/-- `USBCtrlTrfTxService()`: the next bytes of the source into the buffer. -/
def usbCtrlTrfTxService (usb : Usb) : Usb :=
  let size := BitVec.ofNat 16 ep0BuffSize
  let byteToSend := if usb.wCount < size then usb.wCount else size
  { usb with
    ep0Bi :=
      { usb.ep0Bi with
        stat := (usb.ep0Bi.stat &&& 0xFC) ||| (byteToSend >>> 8).setWidth 8
        cnt := byteToSend.setWidth 8 }
    wCount := usb.wCount - byteToSend
    ctrlTrfData := fun k => if k < byteToSend.toNat then usb.pSrc k else usb.ctrlTrfData k
    pSrc := fun k => usb.pSrc (k + byteToSend.toNat) }

/-- `byte_to_read`: what the OUT buffer of endpoint 0 has received. -/
def byteToRead (usb : Usb) : BitVec 16 := (usb.ep0Bo.stat &&& 0x03) ++ usb.ep0Bo.cnt

/-- `USBCtrlTrfRxService()`: the received bytes go through the destination pointer. -/
def usbCtrlTrfRxService (usb : Usb) : Usb :=
  { usb with
    wCount := usb.wCount + byteToRead usb
    stored := usb.stored ++ usb.ctrlTrfData.bytes (byteToRead usb).toNat }

/-- `USBCtrlEPServiceComplete()`. -/
def usbCtrlEPServiceComplete (usb : Usb) : Usb :=
  let usb := { usb with pktdis := false }
  let size := BitVec.ofNat 8 ep0BuffSize
  if usb.ctrlTrfSessionOwner = .null then
    { usb with
      ep0Bo := { stat := usie ||| bstall, cnt := size, adr := .setupPkt }
      ep0Bi := { usb.ep0Bi with stat := usie ||| bstall }
      reply := [] }
  else if devToHost usb.setupPkt then
    let wanted := if wLength usb.setupPkt < usb.wCount then wLength usb.setupPkt else usb.wCount
    let usb := { usb with wCount := wanted, reply := usb.pSrc.bytes wanted.toNat }
    let usb := { usbCtrlTrfTxService usb with ctrlTrfState := .ctrlTrfTx }
    { usb with
      -- DTSEN is 0: the buffer takes the status stage and a new setup packet alike.
      ep0Bo := { stat := usie, cnt := size, adr := .setupPkt }
      ep0Bi := { usb.ep0Bi with stat := usie ||| dat1 ||| dtsen, adr := .ctrlTrfData } }
  else
    { usb with
      ctrlTrfState := .ctrlTrfRx
      ep0Bi := { usb.ep0Bi with stat := usie ||| dat1 ||| dtsen, cnt := 0 }
      ep0Bo := { stat := usie ||| dat1 ||| dtsen, cnt := size, adr := .ctrlTrfData }
      reply := [] }

end ControlTransfers

section Hid

/-- `HIDInitEP()`. -/
def hidInitEP (usb : Usb) : Usb :=
  { usb with
    hidRptRxLen := 0
    uep1 := epOutIn
    ep1Bo :=
      { stat := usie ||| dat0 ||| dtsen, cnt := BitVec.ofNat 8 hidIntOutEpSize, adr := .hidReportOut }
    ep1Bi := { usb.ep1Bi with stat := ucpu ||| dat1, adr := .hidReportIn } }

/-- `HIDTxReport(buffer, len)`; its callers make sure that the pipe is not busy. -/
def hidTxReport (usb : Usb) (buffer : Area) (len : Byte) : Usb :=
  let size := BitVec.ofNat 8 hidIntInEpSize
  let len := if size < len then size else len
  { usb with
    hidReportIn := fun k => if k < len.toNat then buffer k else usb.hidReportIn k
    ep1Bi := mUSBBufferReady { usb.ep1Bi with cnt := len } }

/-- `HIDRxReport(buffer, len)`: the bytes copied, as many as the result says. -/
def hidRxReport (usb : Usb) (len : Byte) : Usb × List Byte :=
  if usb.ep1Bo.uown then ({ usb with hidRptRxLen := 0 }, [])
  else
    let len := if usb.ep1Bo.cnt < len then usb.ep1Bo.cnt else len
    ({ usb with
       hidRptRxLen := len
       ep1Bo := mUSBBufferReady { usb.ep1Bo with cnt := BitVec.ofNat 8 hidIntOutEpSize } },
     usb.hidReportOut.bytes len.toNat)

/-- The requests for HID descriptors. Without an active configuration 1 the macros
for them leave source and count as they are. -/
def hidDescriptorRequest (usb : Usb) : Usb :=
  let usb := { usb with ctrlTrfMem := .rom }
  if bDscType usb.setupPkt = dscHid then
    { usb with
      ctrlTrfSessionOwner := .hid
      pSrc := if usb.usbActiveCfg = 1 then area hidDsc else usb.pSrc
      wCount := 9 }
  else if bDscType usb.setupPkt = dscRpt then
    { usb with
      ctrlTrfSessionOwner := .hid
      pSrc := if usb.usbActiveCfg = 1 then area hidRpt01 else usb.pSrc
      wCount := if usb.usbActiveCfg = 1 then 29 else usb.wCount }
  else usb

/-- The class requests; GET_REPORT and SET_REPORT have handlers that do nothing. -/
def hidClassRequest (usb : Usb) : Usb :=
  let pkt := usb.setupPkt
  let answer (value : Byte) : Usb :=
    { usb with
      ctrlTrfSessionOwner := .hid
      pSrc := fun _ => value
      ctrlTrfMem := .ram
      wCount := setLsb usb.wCount 1 }
  if bRequest pkt = getIdle then answer usb.idleRate
  else if bRequest pkt = setIdle then { usb with ctrlTrfSessionOwner := .hid, idleRate := pkt 3 }
  else if bRequest pkt = getProtocol then answer usb.activeProtocol
  else if bRequest pkt = setProtocol then
    { usb with ctrlTrfSessionOwner := .hid, activeProtocol := pkt 2 }
  else usb

/-- `USBCheckHIDRequest()`. -/
def usbCheckHIDRequest (usb : Usb) : Usb :=
  let pkt := usb.setupPkt
  if recipient pkt ≠ rcptIntf then usb
  else if bIntfID pkt ≠ 0 then usb
  else
    let usb := if bRequest pkt = getDsc then hidDescriptorRequest usb else usb
    if requestType pkt ≠ classReq then usb else hidClassRequest usb

end Hid

section StandardRequests

variable (rom : Rom)

/-- `USBStdGetDscHandler()`. -/
def usbStdGetDscHandler (usb : Usb) : Usb :=
  let pkt := usb.setupPkt
  let answer (pSrc : Area) (wCount : BitVec 16) : Usb :=
    { usb with ctrlTrfSessionOwner := .usb9, ctrlTrfMem := .rom, pSrc := pSrc, wCount := wCount }
  if bmRequestType pkt = 0x80 then
    if bDscType pkt = dscDev then answer (area deviceDsc) 18
    else if bDscType pkt = dscCfg then
      let pSrc := pointed usbCdPtr rom.behindCd (bDscIndex pkt).toNat
      answer pSrc (pSrc 3 ++ pSrc 2)
    else if bDscType pkt = dscStr then
      let pSrc := pointed usbSdPtr rom.behindSd (bDscIndex pkt).toNat
      answer pSrc ((pSrc 0).setWidth 16)
    else { usb with ctrlTrfMem := .rom }
  else usb

/-- `USBStdSetCfgHandler()`. -/
def usbStdSetCfgHandler (usb : Usb) : Usb :=
  let value := bCfgValue usb.setupPkt
  let usb :=
    { usb with
      ctrlTrfSessionOwner := .usb9
      uep1 := 0
      usbAltIntf := fun k => if k < 1 then 0 else usb.usbAltIntf k
      usbActiveCfg := value }
  if value = 0 then { usb with usbDeviceState := .address }
  else hidInitEP { usb with usbDeviceState := .configured }

/-- `EPNum*8+EPDir*4`, which the handlers add to `&ep0Bo`. -/
def bdOffset (pkt : Area) : Nat := (epNum pkt).toNat * 8 + (epDir pkt).toNat * 4

/-- The byte at `&ep0Bo+offset`, where the offset is a multiple of four. `usbmmap.c` puts
the four descriptors there, and behind them `SetupPkt`, `CtrlTrfData` and the report
buffers: for the endpoints 2 to 15 the byte is one of theirs. -/
def usbRam (usb : Usb) (offset : Nat) : Byte :=
  if offset < 4 then usb.ep0Bo.stat
  else if offset < 8 then usb.ep0Bi.stat
  else if offset < 12 then usb.ep1Bo.stat
  else if offset < 16 then usb.ep1Bi.stat
  else if offset < 24 then usb.setupPkt (offset - 16)
  else if offset < 32 then usb.ctrlTrfData (offset - 24)
  else if offset < 96 then usb.hidReportOut (offset - 32)
  else usb.hidReportIn (offset - 96)

/-- The same byte, written. -/
def storeUsbRam (usb : Usb) (offset : Nat) (value : Byte) : Usb :=
  let stored (memory : Area) (index : Nat) : Area := fun k => if k = index then value else memory k
  if offset < 4 then { usb with ep0Bo := { usb.ep0Bo with stat := value } }
  else if offset < 8 then { usb with ep0Bi := { usb.ep0Bi with stat := value } }
  else if offset < 12 then { usb with ep1Bo := { usb.ep1Bo with stat := value } }
  else if offset < 16 then { usb with ep1Bi := { usb.ep1Bi with stat := value } }
  else if offset < 24 then { usb with setupPkt := stored usb.setupPkt (offset - 16) }
  else if offset < 32 then { usb with ctrlTrfData := stored usb.ctrlTrfData (offset - 24) }
  else if offset < 96 then { usb with hidReportOut := stored usb.hidReportOut (offset - 32) }
  else { usb with hidReportIn := stored usb.hidReportIn (offset - 96) }

/-- `USBStdGetStatusHandler()`; the device is never self-powered. -/
def usbStdGetStatusHandler (usb : Usb) : Usb :=
  let pkt := usb.setupPkt
  let usb := { usb with ctrlTrfData := fun k => if k < 2 then 0 else usb.ctrlTrfData k }
  let answer (byte0 : Byte) : Usb :=
    let data : Area := fun k => if k = 0 then byte0 else usb.ctrlTrfData k
    { usb with
      ctrlTrfSessionOwner := .usb9
      ctrlTrfData := data
      pSrc := data
      ctrlTrfMem := .ram
      wCount := setLsb usb.wCount 2 }
  if recipient pkt = rcptDev then answer (if usb.remoteWakeup then 0x02 else 0x00)
  else if recipient pkt = rcptIntf then answer 0
  else if recipient pkt = rcptEp then
    answer (if usbRam usb (bdOffset pkt) &&& bstall ≠ 0 then 0x01 else 0x00)
  else usb

/-- `USBStdFeatureReqHandler()`: remote wakeup of the device, or the halt of an
endpoint other than 0. -/
def usbStdFeatureReqHandler (usb : Usb) : Usb :=
  let pkt := usb.setupPkt
  let stat : Byte :=
    if bRequest pkt = setFeature then usie ||| bstall
    else if epDir pkt then ucpu
    else usie ||| dat0 ||| dtsen
  -- The two tests exclude each other, since a request has one recipient.
  if bFeature pkt = deviceRemoteWakeup ∧ recipient pkt = rcptDev then
    { usb with ctrlTrfSessionOwner := .usb9, remoteWakeup := decide (bRequest pkt = setFeature) }
  else if bFeature pkt = endpointHalt ∧ recipient pkt = rcptEp ∧ epNum pkt ≠ 0 then
    storeUsbRam { usb with ctrlTrfSessionOwner := .usb9 } (bdOffset pkt) stat
  else usb

/-- `USBCheckStdRequest()`. `usb_alt_intf` has one element; the requests for other
interfaces are looked at in `NamesOwn`. -/
def usbCheckStdRequest (usb : Usb) : Usb :=
  let pkt := usb.setupPkt
  if requestType pkt ≠ standard then usb
  else if bRequest pkt = setAdr then
    { usb with ctrlTrfSessionOwner := .usb9, usbDeviceState := .adrPending }
  else if bRequest pkt = getDsc then usbStdGetDscHandler rom usb
  else if bRequest pkt = setCfg then usbStdSetCfgHandler usb
  else if bRequest pkt = getCfg then
    { usb with
      ctrlTrfSessionOwner := .usb9
      pSrc := fun _ => usb.usbActiveCfg
      ctrlTrfMem := .ram
      wCount := setLsb usb.wCount 1 }
  else if bRequest pkt = getStatus then usbStdGetStatusHandler usb
  else if bRequest pkt = clrFeature ∨ bRequest pkt = setFeature then usbStdFeatureReqHandler usb
  else if bRequest pkt = getIntf then
    { usb with
      ctrlTrfSessionOwner := .usb9
      pSrc := fun k => usb.usbAltIntf (k + (bIntfID pkt).toNat)
      ctrlTrfMem := .ram
      wCount := setLsb usb.wCount 1 }
  else if bRequest pkt = setIntf then
    { usb with
      ctrlTrfSessionOwner := .usb9
      usbAltIntf := fun k => if k = (bIntfID pkt).toNat then bAltID pkt else usb.usbAltIntf k }
  else usb

/-- The two stages of `USBCtrlTrfSetupHandler()` that look for an owner; the table
`ClassReqHandler` has one entry. -/
def findOwner (usb : Usb) : Usb :=
  let usb := { usb with ctrlTrfState := .waitSetup, ctrlTrfSessionOwner := .null, wCount := 0 }
  let usb := usbCheckStdRequest rom usb
  if usb.ctrlTrfSessionOwner = .null then usbCheckHIDRequest usb else usb

/-- `USBCtrlTrfSetupHandler()`. -/
def usbCtrlTrfSetupHandler (usb : Usb) : Usb := usbCtrlEPServiceComplete (findOwner rom usb)

/-- `USBCtrlTrfOutHandler()`. -/
def usbCtrlTrfOutHandler (usb : Usb) : Usb :=
  if usb.ctrlTrfState = .ctrlTrfRx then
    let usb := usbCtrlTrfRxService usb
    { usb with
      ep0Bo :=
        { usb.ep0Bo with stat := usie ||| (if usb.ep0Bo.dts then dat0 else dat1) ||| dtsen } }
  else usbPrepareForNextSetupTrf usb

/-- `mUSBCheckAdrPendingState()`. -/
def mUSBCheckAdrPendingState (usb : Usb) : Usb :=
  if usb.usbDeviceState = .adrPending then
    let uaddr := bDevADR usb.setupPkt
    { usb with uaddr := uaddr, usbDeviceState := if 0 < uaddr then .address else .default }
  else usb

/-- `USBCtrlTrfInHandler()`. -/
def usbCtrlTrfInHandler (usb : Usb) : Usb :=
  let usb := mUSBCheckAdrPendingState usb
  if usb.ctrlTrfState = .ctrlTrfTx then
    let usb := usbCtrlTrfTxService usb
    { usb with
      ep0Bi :=
        { usb.ep0Bi with stat := usie ||| (if usb.ep0Bi.dts then dat0 else dat1) ||| dtsen } }
  else usbPrepareForNextSetupTrf usb

/-- `USBCtrlEPService()`, which only knows endpoint 0. -/
def usbCtrlEPService (usb : Usb) : Usb :=
  match usb.ustat.head? with
  | some .ep00Out =>
    if usb.ep0Bo.pid = setupToken then usbCtrlTrfSetupHandler rom usb else usbCtrlTrfOutHandler usb
  | some .ep00In => usbCtrlTrfInHandler usb
  | _ => usb

end StandardRequests

section Driver

variable (rom : Rom)

/-- `UIR = 0`, which also clears `TRNIF` once. -/
def clearUir (usb : Usb) : Usb :=
  { usb with
    sofif := false
    stallif := false
    idleif := false
    actvif := false
    uerrif := false
    urstif := false
    ustat := usb.ustat.tail }

/-- `USBModuleEnable()`. -/
def usbModuleEnable (usb : Usb) : Usb :=
  { usb with
    usben := true, suspnd := false, pktdis := false
    uie := .none
    usbDeviceState := .attached }

/-- `USBCheckBusStatus()`; the device is always plugged in. -/
def usbCheckBusStatus (usb : Usb) : Usb :=
  let usb := if usb.usben then usb else usbModuleEnable usb
  if usb.usbDeviceState = .attached then
    if usb.se0 then usb
    else
      { clearUir usb with
        uie := { Uie.none with urstie := true, idleie := true }
        usbDeviceState := .powered }
  else usb

/-- `USBProtocolResetHandler()`. -/
def usbProtocolResetHandler (usb : Usb) : Usb :=
  let usb :=
    { clearUir usb with
      uie :=
        { sofie := true, stallie := true, idleie := true, trnie := true, actvie := false
          uerrie := true, urstie := true }
      uaddr := 0
      uep1 := 0
      uep0 := epCtrl }
  -- `while(UIRbits.TRNIF == 1) UIRbits.TRNIF = 0`.
  let usb := usbPrepareForNextSetupTrf { usb with ustat := [], pktdis := false }
  { usb with remoteWakeup := false, usbActiveCfg := 0, usbDeviceState := .default }

/-- `USBSuspend()`. -/
def usbSuspend (usb : Usb) : Usb :=
  { usb with uie := { usb.uie with actvie := true }, idleif := false, suspnd := true }

/-- `USBWakeFromSuspend()`. -/
def usbWakeFromSuspend (usb : Usb) : Usb :=
  { usb with suspnd := false, uie := { usb.uie with actvie := false }, actvif := false }

/-- `USBStallHandler()`. -/
def usbStallHandler (usb : Usb) : Usb :=
  let usb :=
    if usb.uep0.getLsbD 0 then
      let usb := usbPrepareForNextSetupTrf usb
      { usb with uep0 := usb.uep0 &&& 0xFE }
    else usb
  { usb with stallif := false }

/-- `USB_SOF_Handler()` and `USBErrorHandler()` only clear their flags. -/
def usbSofHandler (usb : Usb) : Usb := { usb with sofif := false }
def usbErrorHandler (usb : Usb) : Usb := { usb with uerrif := false }

/-- Tasks B and C of `USBDriverService()`. -/
def serviceFlags (usb : Usb) : Usb :=
  let usb := if usb.urstif && usb.uie.urstie then usbProtocolResetHandler usb else usb
  let usb := if usb.idleif && usb.uie.idleie then usbSuspend usb else usb
  let usb := if usb.sofif && usb.uie.sofie then usbSofHandler usb else usb
  let usb := if usb.stallif && usb.uie.stallie then usbStallHandler usb else usb
  if usb.uerrif && usb.uie.uerrie then usbErrorHandler usb else usb

/-- What every handler keeps, the tasks keep; the reset handler only runs on a bus reset. -/
theorem serviceFlags_keeps (P : Usb → Prop)
    (reset : ∀ usb, P usb → (usb.urstif && usb.uie.urstie) = true → P (usbProtocolResetHandler usb))
    (idle : ∀ usb, P usb → P (usbSuspend usb)) (sof : ∀ usb, P usb → P (usbSofHandler usb))
    (stall : ∀ usb, P usb → P (usbStallHandler usb)) (error : ∀ usb, P usb → P (usbErrorHandler usb))
    (usb : Usb) (start : P usb) : P (serviceFlags usb) := by
  have when (condition : Bool) (usb next : Usb) (here : P usb) (kept : condition = true → P next) :
      P (if condition then next else usb) := by
    cases condition with
    | true => exact kept rfl
    | false => exact here
  let afterReset := if usb.urstif && usb.uie.urstie then usbProtocolResetHandler usb else usb
  have first : P afterReset :=
    when _ _ _ start fun both => reset usb start both
  let afterIdle := if afterReset.idleif && afterReset.uie.idleie then usbSuspend afterReset
    else afterReset
  have second : P afterIdle := when _ _ _ first fun _ => idle afterReset first
  let afterSof := if afterIdle.sofif && afterIdle.uie.sofie then usbSofHandler afterIdle
    else afterIdle
  have third : P afterSof := when _ _ _ second fun _ => sof afterIdle second
  let afterStall := if afterSof.stallif && afterSof.uie.stallie then usbStallHandler afterSof
    else afterSof
  have fourth : P afterStall := when _ _ _ third fun _ => stall afterSof third
  exact when _ _ _ fourth fun _ => error afterStall fourth

/-- Task D: one completed transaction. -/
def serviceTransaction (usb : Usb) : Usb :=
  if usb.usbDeviceState.value < DeviceState.default.value then usb
  else if !usb.ustat.isEmpty && usb.uie.trnie then
    let usb := usbCtrlEPService rom usb
    { usb with ustat := usb.ustat.tail }
  else usb

/-- `USBDriverService()`. -/
def usbDriverService (usb : Usb) : Usb :=
  if usb.usbDeviceState = .detached then usb
  else
    let usb := if usb.actvif && usb.uie.actvie then usbWakeFromSuspend usb else usb
    if usb.suspnd then usb else serviceTransaction rom (serviceFlags usb)

/-- A bus reset that the firmware sees comes before everything else. -/
theorem serviceFlags_reset (usb : Usb) (seen : (usb.urstif && usb.uie.urstie) = true) :
    serviceFlags usb = serviceFlags (usbProtocolResetHandler usb) := by
  simp only [serviceFlags, seen, if_true]
  rfl

/-- A device that is attached comes to its transaction, unless it is suspended. -/
theorem usbDriverService_keeps (P Q : Usb → Prop) (kept : ∀ usb, P usb → Q usb) (usb : Usb)
    (start : P usb) (wake : P (usbWakeFromSuspend usb)) (flags : ∀ usb, P usb → P (serviceFlags usb))
    (transaction : ∀ usb, P usb → Q (serviceTransaction rom usb)) : Q (usbDriverService rom usb) := by
  have awake : P (if usb.actvif && usb.uie.actvie then usbWakeFromSuspend usb else usb) := by
    split
    · exact wake
    · exact start
  unfold usbDriverService
  split
  · exact kept _ start
  · simp only
    generalize (if usb.actvif && usb.uie.actvie then usbWakeFromSuspend usb else usb) = next at awake
    split
    · exact kept _ awake
    · exact transaction _ (flags _ awake)

end Driver

section Confinement

/-- A request that stays within `usb_alt_intf`, whose only element is that of interface 0. -/
def NamesOwn (pkt : Area) : Prop :=
  requestType pkt = standard → bRequest pkt = getIntf ∨ bRequest pkt = setIntf → bIntfID pkt = 0

instance (pkt : Area) : Decidable (NamesOwn pkt) :=
  inferInstanceAs (Decidable (_ → _ → _))

/-- The driver stays in its own memory with the packet it is about to serve: a request
names no interface but 0, and a packet that comes while a request waits to be confirmed
brings no bytes, for which no request of this device has set a destination. -/
def Contained (usb : Usb) : Prop :=
  usb.ustat.head? = some .ep00Out →
    if usb.ep0Bo.pid = setupToken then NamesOwn usb.setupPkt
    else usb.ctrlTrfState = .ctrlTrfRx → byteToRead usb = 0

instance (usb : Usb) : Decidable (Contained usb) := inferInstanceAs (Decidable (_ → ite _ _ _))

end Confinement

/-- The state after the start of the program: no endpoint is enabled, no flag is set,
and `mInitializeUSBDriver()` has run. -/
def start : Usb where
  usbDeviceState := .detached
  remoteWakeup := false
  ctrlTrfMem := .ram
  usbActiveCfg := 0
  usbAltIntf := fun _ => 0
  ctrlTrfState := .waitSetup
  ctrlTrfSessionOwner := .null
  pSrc := fun _ => 0
  stored := []
  wCount := 0
  idleRate := 0
  activeProtocol := 0
  hidRptRxLen := 0
  ep0Bo := { stat := 0, cnt := 0, adr := .setupPkt }
  ep0Bi := { stat := 0, cnt := 0, adr := .setupPkt }
  ep1Bo := { stat := 0, cnt := 0, adr := .setupPkt }
  ep1Bi := { stat := 0, cnt := 0, adr := .setupPkt }
  setupPkt := fun _ => 0
  ctrlTrfData := fun _ => 0
  hidReportOut := fun _ => 0
  hidReportIn := fun _ => 0
  uaddr := 0
  uep0 := 0
  uep1 := 0
  usben := false
  suspnd := false
  pktdis := false
  se0 := false
  uie := .none
  sofif := false
  stallif := false
  idleif := false
  actvif := false
  uerrif := false
  urstif := false
  ustat := []
  reply := []

end ScicosFlex.Pic18.Stack
