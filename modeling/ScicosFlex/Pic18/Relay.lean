import ScicosFlex.Library.Relays
import ScicosFlex.Pic18.BridgeRuns
import ScicosFlex.Pic18.HidPipes

/-!
# The PIC18 board as a relay

The main loop of `main.c` drives everything on the board in turn: the USB stack, the
two halves of `flex_usb_process`, the stack again. Meanwhile the PC and the USB
hardware go on by themselves. Here the bridge and the two HID pipes are put
together, under any order of their steps.

`board_relays` follows a packet from end to end. What the PC writes as data comes
out on the SPI bus, each packet once and in order. Of what the dsPIC shifts out with
a right checksum the PC reads a part, in order and without repetition, and all of it
if and only if no packet is shifted in over one that still waits in the bridge.

`setup_while_waiting` is about the loop that waits for the IN pipe. While it runs
nobody serves endpoint 0, and a setup packet makes the hardware fall silent until it
is served; then the PC cannot empty the pipe any more, and the loop never ends.
-/

namespace ScicosFlex.Pic18.Stack.Relay

open Library Library.Runs ScicosFlex.Usb ScicosFlex.Usb.Packet

section Model

/-- Where the main loop is: before one of its calls, before the SPI or the USB part
of `flex_usb_process`, or in the loop that waits for the IN pipe. -/
inductive Stage where
  | busStatus | service | exchange | parse | sending | lastService
deriving DecidableEq, Repr

/-- The board with the PC's side of the pipes. -/
structure Board where
  pipes : Pipes
  bridge : Bridge.State
  stage : Stage

/-- What happens next: a program of the PC writes a report, the PC sends or asks for
one, something else happens on the bus, or the main loop goes on. Its SPI part has
the level of the request line and the bytes of the dsPIC with it. -/
inductive Event where
  | write (report : List Byte)
  | hidOut (confirmed : Bool)
  | hidIn (confirmed : Bool)
  | bus (action : Step)
  | exchange (usbDspicReq : Bool) (shifted : Frame)
  | main

/-- The buffer after a report has been copied to its start. -/
def overlay (buffer : Frame) (report : List Byte) : Frame := fun position =>
  report.getD position.val (buffer position)

/-- The report for the bridge. An empty one counts as none. -/
def hidReport (buffer : Frame) (report : List Byte) : Option Frame :=
  if report = [] then none else some (overlay buffer report)

/-- The SPI part of `flex_usb_process`. -/
def spiPart (board : Board) (usbDspicReq : Bool) (shifted : Frame) : Board :=
  { board with
    bridge := (Bridge.spiExchange board.bridge ⟨usbDspicReq, shifted, none⟩).1
    stage := .parse }

/-- The main loop, from one of its stages to the next. -/
def mainStep (rom : Rom) (board : Board) : Board :=
  let on (action : Action) : Pipes := next rom board.pipes action
  match board.stage with
  | .busStatus => { board with pipes := on (.other .checkBusStatus), stage := .service }
  | .service => { board with pipes := on (.other .driverService), stage := .exchange }
  | .exchange => board
  | .parse =>
    let report := hidReport board.bridge.usbRxBuffer (hidRxReport board.pipes.system.usb 64).2
    let parsed := Bridge.parseReport board.bridge report
    { pipes := on (.receive 64)
      bridge := parsed.1
      stage :=
        if !parsed.2 && (parsed.1.connected && parsed.1.toSendUsb) then .sending else .lastService }
  | .sending =>
    -- `while (mHIDTxIsBusy());`
    if board.pipes.system.usb.ep1Bi.uown then board
    else
      { pipes := on (.send (memory board.bridge.usbTxBuffer) 64)
        bridge := (Bridge.sendPending board.bridge).1
        stage := .lastService }
  | .lastService => { board with pipes := on (.other .driverService), stage := .busStatus }

/-- One step of the board. -/
def step (rom : Rom) (board : Board) : Event → Board
  | .write report => { board with pipes := next rom board.pipes (.write report) }
  | .hidOut confirmed => { board with pipes := next rom board.pipes (.hidOut confirmed) }
  | .hidIn confirmed => { board with pipes := next rom board.pipes (.hidIn confirmed) }
  | .bus action => { board with pipes := next rom board.pipes (.other action) }
  | .exchange usbDspicReq shifted => spiPart board usbDspicReq shifted
  | .main => mainStep rom board

/-- What happens on the bus by itself: not the calls of the main loop, nor the
packets of endpoint 1, which are events of their own. -/
def OnBus : Step → Prop
  | .checkBusStatus | .driverService | .txReport _ _ | .rxReport _ | .hidOutToken _ _ | .hidInToken =>
    False
  | _ => True

/-- The driver is about to serve a request that changes the pipes. What the host has
sent so far makes no difference before. -/
def AboutToReconfigure (usb : Usb) : Prop :=
  usb.ustat.head? = some .ep00Out ∧ usb.ep0Bo.pid = setupToken ∧ Reconfigures usb.setupPkt

/-- Reports fit, the SPI part has its turn, and the configuration stays. -/
def Permitted (board : Board) : Event → Prop
  | .write report => report.length ≤ hidIntOutEpSize
  | .bus action => OnBus action
  | .exchange _ _ => board.stage = .exchange
  | .main =>
    board.stage ≠ .exchange ∧
      (board.stage = .service ∨ board.stage = .lastService → ¬ AboutToReconfigure board.pipes.system.usb)
  | _ => True

/-- The driver stays in its own memory whenever the main loop calls it. -/
def Confined (board : Board) : Event → Prop
  | .main => board.stage = .service ∨ board.stage = .lastService → Contained board.pipes.system.usb
  | _ => True

/-- What a board needs to relay: that its events are permitted, and its driver is given
nothing that leads it out of its memory. -/
def Regular (board : Board) (event : Event) : Prop := Permitted board event ∧ Confined board event

/-- What the PC writes, and what it reads. -/
def written : Event → List (List Byte)
  | .write report => [report]
  | _ => []

def read (board : Board) : Event → List (List Byte)
  | .hidIn _ => board.pipes.reads
  | _ => []

/-- A packet as the bytes of a report. -/
def reportOf (packet : Frame) : List Byte := Area.bytes (memory packet) 64

/-- What the dsPIC shifts out with a right checksum, and what is clocked out to it. -/
def shiftedIn : Event → List (List Byte)
  | .exchange true shifted =>
    if Bridge.crcMatches shifted then [reportOf shifted] else []
  | _ => []

def clockedOut (board : Board) : Event → List Frame
  | .exchange usbDspicReq shifted =>
    (Bridge.spiExchange board.bridge ⟨usbDspicReq, shifted, none⟩).2.clockedOut.toList
  | _ => []

/-- The packets that the bridge finds in its buffer as reports come in. -/
def packets : (buffer : Frame) → List (List Byte) → List Frame
  | _, [] => []
  | buffer, report :: rest =>
    match hidReport buffer report with
    | some packet => packet :: packets packet rest
    | none => packets buffer rest

/-- The accepted data packets among them. -/
def dataPackets (buffer : Frame) (reports : List (List Byte)) : List Frame :=
  (packets buffer reports).filter fun packet =>
    Bridge.accepted packet && (ofBytes packet).type == headerData

/-- What is still to be clocked out if some more reports are written. -/
def dueOnSpi (board : Board) (reports : List (List Byte)) : List Frame :=
  (Bridge.pendingSpi board.bridge).toList ++ dataPackets board.bridge.usbRxBuffer
    (AlternatingBit.pending (outLink board.pipes) ++ reports)

/-- What is on its way to the PC: in the IN pipe, and behind it in the bridge. -/
def pendingToPc (board : Board) : List (List Byte) :=
  AlternatingBit.pending (inLink board.pipes) ++
    (Bridge.pendingUsb board.bridge).toList.map reportOf

/-- No packet is shifted in over one that waits in the bridge. -/
def BufferFree (board : Board) : Event → Prop
  | .exchange true _ => board.bridge.toSendUsb = false
  | _ => True

/-- The main loop waits for the PC to take the report in the IN pipe. The endpoint may be
off or halted, as it is behind a bus reset. -/
structure Waiting (board : Board) : Prop where
  stage : board.stage = .sending
  full : board.pipes.system.usb.ep1Bi.uown = true

/-- The main loop waits, and the hardware answers nothing, so that neither of them can
go on before the other one does. -/
structure Deadlocked (bridge : Bridge.State) (board : Board) : Prop where
  waiting : Waiting board
  bridge : board.bridge = bridge
  pktdis : board.pipes.system.usb.pktdis = true

/-- The hardware gives the PC the report in the IN pipe when it asks for one. -/
def offers (usb : Usb) : Bool := listening usb && usb.uep1.getLsbD 1 && !usb.ep1Bi.bstall

/-- No report is taken: the PC confirms none, or the hardware does not offer it, because
the endpoint is off or halted or no packets are taken. -/
def NotTaken (board : Board) : Event → Prop
  | .hidIn confirmed => confirmed = true → offers board.pipes.system.usb = false
  | _ => True

/-- A board that has just been configured: one of the calls of the driver has done it. -/
structure Started (board : Board) : Prop where
  configured : Configured board.pipes
  empty : board.pipes.reports = []
  stage : board.stage = .exchange ∨ board.stage = .busStatus

/-- The invariant: both pipes are in order, and the main loop has come where it is by
its own conditions. -/
structure Ready (board : Board) : Prop where
  piped : Piped board.pipes
  outSound : AlternatingBit.Sound (outLink board.pipes)
  inSound : AlternatingBit.Sound (inLink board.pipes)
  parse : board.stage = .parse → board.bridge.toSendSpi = false
  sending : board.stage = .sending → board.bridge.connected = true ∧ board.bridge.toSendUsb = true

end Model

section Buffers

variable (bridge : Bridge.State)

/-- The SPI part leaves the report buffer as it is. -/
theorem exchange_rx (call : Bridge.Call) :
    (Bridge.spiExchange bridge call).1.usbRxBuffer = bridge.usbRxBuffer := by
  unfold Bridge.spiExchange Bridge.storeShifted
  split
  · rfl
  · split
    · rfl
    · split <;> rfl

/-- The parser works on the report, if there is one. -/
theorem parse_rx (report : Option Frame) :
    (Bridge.parseReport bridge report).1.usbRxBuffer = report.getD bridge.usbRxBuffer := by
  have obeyed (bridge : Bridge.State) (cmd : BitVec 16) :
      (Bridge.obey bridge cmd).usbRxBuffer = bridge.usbRxBuffer := by
    unfold Bridge.obey
    split
    · rfl
    · split <;> rfl
  cases report with
  | none => rfl
  | some report =>
    simp only [Bridge.parseReport]
    repeat' split
    · rfl
    · rfl
    · rfl
    · exact obeyed _ _
    · rfl

/-- Behind the SPI part the parser schedules the report if it is an accepted data packet. -/
theorem parse_schedules (report : Option Frame) (idle : bridge.toSendSpi = false) :
    (Bridge.pendingSpi (Bridge.parseReport bridge report).1).toList = report.toList.filter fun packet =>
      Bridge.accepted packet && (ofBytes packet).type == headerData := by
  have scheduled := Bridge.parse_pendingSpi bridge ⟨false, fun _ => 0, report⟩ idle
  cases report with
  | none =>
    rw [scheduled]
    rfl
  | some packet =>
    rw [scheduled, Bridge.acceptedData, Option.bind_some, Option.toList_some, List.filter_singleton]
    cases Bridge.accepted packet && (ofBytes packet).type == headerData <;> rfl

/-- The transmission leaves the report buffer as it is. -/
theorem send_rx : (Bridge.sendPending bridge).1.usbRxBuffer = bridge.usbRxBuffer := by
  unfold Bridge.sendPending
  split <;> rfl

/-- The packets of some reports begin with that of the first one. -/
theorem packets_cons (buffer : Frame) (report : List Byte) (rest : List (List Byte)) :
    packets buffer (report :: rest) = (hidReport buffer report).toList ++
      packets ((hidReport buffer report).getD buffer) rest := by
  rw [packets]
  cases hidReport buffer report with
  | none => rfl
  | some packet => rfl

/-- What the firmware takes out of the OUT pipe is one report at most; an empty
buffer looks like an empty report. -/
theorem dataPackets_received (buffer : Frame) (pipes : Pipes) (rest : List (List Byte)) :
    let report := hidReport buffer (hidRxReport pipes.system.usb 64).2
    dataPackets buffer (received pipes (.receive 64) ++ rest) =
      report.toList.filter (fun packet => Bridge.accepted packet && (ofBytes packet).type == headerData) ++
        dataPackets (report.getD buffer) rest := by
  cases own : pipes.system.usb.ep1Bo.uown with
  | true => simp [received, hidRxReport, own, hidReport]
  | false =>
    simp only [received, own, Bool.false_eq_true, if_false, List.cons_append, List.nil_append,
      dataPackets]
    rw [packets_cons, List.filter_append]

end Buffers

section Pipes

variable {rom : Rom} {board : Board}

/-- What an event is for the two pipes. -/
def pipesAction (board : Board) : Event → Option Action
  | .write report => some (.write report)
  | .hidOut confirmed => some (.hidOut confirmed)
  | .hidIn confirmed => some (.hidIn confirmed)
  | .bus action => some (.other action)
  | .exchange _ _ => none
  | .main =>
    match board.stage with
    | .busStatus => some (.other .checkBusStatus)
    | .service | .lastService => some (.other .driverService)
    | .exchange => none
    | .parse => some (.receive 64)
    | .sending =>
      if board.pipes.system.usb.ep1Bi.uown then none
      else some (.send (memory board.bridge.usbTxBuffer) 64)

/-- The pipes follow what the events are for them. -/
theorem step_pipes (rom : Rom) (board : Board) (event : Event) : (step rom board event).pipes =
    (pipesAction board event).elim board.pipes (next rom board.pipes) := by
  cases event with
  | write | hidOut | hidIn | bus | exchange => rfl
  | main =>
    obtain ⟨pipes, bridge, stage⟩ := board
    cases stage with
    | busStatus | service | exchange | parse | lastService => rfl
    | sending =>
      simp only [step, mainStep, pipesAction]
      split <;> rfl

/-- What a regular board does is allowed beside the pipes. The calls of `HIDRxReport`
and `HIDTxReport` are the main loop's own, which keeps to their conditions. -/
theorem regular_allowed (event : Event) (regular : Regular board event) (action : Action)
    (is : pipesAction board event = some action) : Allowed board.pipes action := by
  obtain ⟨pipes, bridge, stage⟩ := board
  obtain ⟨permitted, confined⟩ := regular
  cases event with
  | write => cases is; exact permitted
  | hidOut | hidIn => cases is; trivial
  | bus action =>
    cases is
    cases action <;> trivial
  | exchange => cases is
  | main =>
    obtain ⟨-, keeps⟩ := permitted
    have room : hidIntOutEpSize ≤ (64 : Byte).toNat := by decide
    cases stage with
    | exchange => cases is
    | busStatus => cases is; trivial
    | service =>
      cases is
      exact ⟨confined (Or.inl rfl), fun head setup pkt => keeps (Or.inl rfl) ⟨head, setup, pkt⟩⟩
    | lastService =>
      cases is
      exact ⟨confined (Or.inr rfl), fun head setup pkt => keeps (Or.inr rfl) ⟨head, setup, pkt⟩⟩
    | parse => cases is; exact room
    | sending =>
      simp only [pipesAction] at is
      split at is
      · cases is
      · rename_i idle
        cases is
        exact Bool.eq_false_iff.mpr idle

/-- The PC writes and reads through the pipes alone. -/
theorem pipesAction_ends (board : Board) (event : Event) :
    (pipesAction board event).elim [] Stack.written = written event ∧
      (pipesAction board event).elim [] (Stack.read board.pipes) = read board event := by
  cases event with
  | write | hidOut | hidIn | bus | exchange => exact ⟨rfl, rfl⟩
  | main =>
    obtain ⟨pipes, bridge, stage⟩ := board
    cases stage with
    | busStatus | service | exchange | parse | lastService => exact ⟨rfl, rfl⟩
    | sending =>
      simp only [pipesAction]
      split <;> exact ⟨rfl, rfl⟩

/-- What the pipes do in one step of the board: what waited and what has come in is what
goes out and what waits then, on either way. -/
structure Carried (rom : Rom) (board : Board) (event : Event) : Prop where
  piped : Piped (step rom board event).pipes
  outSound : AlternatingBit.Sound (outLink (step rom board event).pipes)
  inSound : AlternatingBit.Sound (inLink (step rom board event).pipes)
  out : AlternatingBit.pending (outLink board.pipes) ++ written event =
    (pipesAction board event).elim [] (received board.pipes) ++
      AlternatingBit.pending (outLink (step rom board event).pipes)
  inn : AlternatingBit.pending (inLink board.pipes) ++ (pipesAction board event).elim [] sent =
    read board event ++ AlternatingBit.pending (inLink (step rom board event).pipes)

/-- The pipes lose nothing on the way. This is `HidPipes.moved`, read as what goes in
and what comes out. -/
theorem carried (ready : Ready board) (event : Event) (regular : Regular board event) :
    Carried rom board event := by
  have follows := step_pipes rom board event
  obtain ⟨writes, reads⟩ := pipesAction_ends board event
  cases is : pipesAction board event with
  | none =>
    rw [is] at follows writes reads
    have same : (step rom board event).pipes = board.pipes := follows
    refine ⟨?_, ?_, ?_, ?_, ?_⟩
    · rw [same]
      exact ready.piped
    · rw [same]
      exact ready.outSound
    · rw [same]
      exact ready.inSound
    · rw [same, is, ← writes]
      exact List.append_nil _
    · rw [same, is, ← reads]
      exact List.append_nil _
  | some action =>
    rw [is] at follows writes reads
    have goes : (step rom board event).pipes = next rom board.pipes action := follows
    have allowed := regular_allowed event regular action is
    have moves : Moved rom board.pipes action := moved ready.piped action allowed
    obtain ⟨taken, handed⟩ := outMoves_flow rom ready.piped action allowed
    obtain ⟨offered, collected⟩ := inMoves_flow rom ready.piped action
    obtain ⟨outSound, out⟩ := AlternatingBit.refined_passes (next rom) outLink _ Stack.written received
      board.pipes action ready.outSound moves.out taken handed
    obtain ⟨inSound, inn⟩ := AlternatingBit.refined_passes (next rom) inLink _ sent Stack.read
      board.pipes action ready.inSound moves.inn offered collected
    refine ⟨?_, ?_, ?_, ?_, ?_⟩
    · rw [goes]
      exact moves.piped
    · rw [goes]
      exact outSound
    · rw [goes]
      exact inSound
    · rw [goes, is, ← writes]
      exact out
    · rw [goes, is, ← reads]
      exact inn

end Pipes

section Bridge

variable {rom : Rom} {board : Board}

/-- Nothing comes out of the OUT pipe but in the USB part of the bridge. -/
theorem received_only_parse (board : Board) (event : Event) (elsewhere : event = .main → board.stage ≠ .parse) :
    (pipesAction board event).elim [] (received board.pipes) = [] := by
  cases event with
  | write | hidOut | hidIn | bus | exchange => rfl
  | main =>
    obtain ⟨pipes, bridge, stage⟩ := board
    cases stage with
    | busStatus | service | exchange | lastService => rfl
    | parse => exact absurd rfl (elsewhere rfl)
    | sending =>
      simp only [pipesAction]
      split <;> rfl

/-- A step that leaves the bridge's report buffer and what it has for the dsPIC. -/
theorem due_kept (carried : Carried rom board event)
    (silent : (pipesAction board event).elim [] (received board.pipes) = [])
    (rx : (step rom board event).bridge.usbRxBuffer = board.bridge.usbRxBuffer)
    (items : List (List Byte)) (out : List Frame)
    (spi : out ++ (Bridge.pendingSpi (step rom board event).bridge).toList =
      (Bridge.pendingSpi board.bridge).toList) :
    out ++ dueOnSpi (step rom board event) items = dueOnSpi board (written event ++ items) := by
  have same := carried.out
  rw [silent, List.nil_append] at same
  rw [dueOnSpi, dueOnSpi, ← List.append_assoc (AlternatingBit.pending _), same, rx, ← List.append_assoc,
    spi]

/-- A step hands out to the dsPIC what is due first, and what the PC writes meanwhile is
due last. -/
theorem step_spi (ready : Ready board) (event : Event) (regular : Regular board event)
    (items : List (List Byte)) : clockedOut board event ++ dueOnSpi (step rom board event) items =
      dueOnSpi board (written event ++ items) := by
  have through : Carried rom board event := carried ready event regular
  cases event with
  | write | hidOut | hidIn | bus => exact due_kept through rfl rfl items [] rfl
  | exchange usbDspicReq shifted =>
    obtain ⟨out, idle⟩ := Bridge.exchange_writes board.bridge ⟨usbDspicReq, shifted, none⟩
    refine due_kept through rfl (exchange_rx _ _) items _ ?_
    have nothing : Bridge.pendingSpi (Bridge.spiExchange board.bridge ⟨usbDspicReq, shifted, none⟩).1 =
        none := by
      rw [Bridge.pendingSpi, idle]
      rfl
    change clockedOut board _ ++ (Bridge.pendingSpi (Bridge.spiExchange _ _).1).toList = _
    rw [nothing, clockedOut, out]
    exact List.append_nil _
  | main =>
    obtain ⟨pipes, bridge, stage⟩ := board
    cases stage with
    | busStatus | service | lastService => exact due_kept through rfl rfl items [] rfl
    | exchange => exact absurd rfl regular.1.1
    | sending =>
      have silent := received_only_parse ⟨pipes, bridge, .sending⟩ .main fun _ => Stage.noConfusion
      by_cases busy : pipes.system.usb.ep1Bi.uown = true
      · have stays : step rom ⟨pipes, bridge, .sending⟩ .main = ⟨pipes, bridge, .sending⟩ := by
          simp only [step, mainStep, busy, if_true]
        refine due_kept through silent ?_ items [] ?_
        · rw [stays]
        · rw [stays]
          rfl
      · have goes : (step rom ⟨pipes, bridge, .sending⟩ .main).bridge = (Bridge.sendPending bridge).1 := by
          simp only [step, mainStep, busy]
          rfl
        refine due_kept through silent ?_ items [] ?_
        · rw [goes]
          exact send_rx bridge
        · rw [goes, Bridge.send_pendingSpi]
          rfl
    | parse =>
      have idle : bridge.toSendSpi = false := ready.parse rfl
      let report := hidReport bridge.usbRxBuffer (hidRxReport pipes.system.usb 64).2
      have nothing : Bridge.pendingSpi bridge = none := by
        rw [Bridge.pendingSpi, idle]
        rfl
      have rx : (step rom ⟨pipes, bridge, .parse⟩ .main).bridge.usbRxBuffer =
          report.getD bridge.usbRxBuffer := parse_rx bridge report
      have taken := dataPackets_received bridge.usbRxBuffer pipes
        (AlternatingBit.pending (outLink (step rom ⟨pipes, bridge, .parse⟩ .main).pipes) ++ items)
      have flow : AlternatingBit.pending (outLink pipes) ++ written .main =
          received pipes (.receive 64) ++
            AlternatingBit.pending (outLink (step rom ⟨pipes, bridge, .parse⟩ .main).pipes) := through.out
      rw [dueOnSpi, dueOnSpi, ← List.append_assoc (AlternatingBit.pending (outLink pipes)), flow,
        List.append_assoc, taken, rx, nothing]
      change (Bridge.pendingSpi (Bridge.parseReport bridge report).1).toList ++ _ = _
      rw [parse_schedules bridge report idle]
      rfl

/-- The invariant is kept. The main loop goes from stage to stage by the conditions it
reads, and the pipes keep theirs by `HidPipes`. -/
theorem step_ready (ready : Ready board) (event : Event) (regular : Regular board event) :
    Ready (step rom board event) := by
  have through : Carried rom board event := carried ready event regular
  refine ⟨through.piped, through.outSound, through.inSound, ?_, ?_⟩
  · intro at_parse
    cases event with
    | write | hidOut | hidIn | bus => exact ready.parse at_parse
    | exchange usbDspicReq shifted => exact (Bridge.exchange_writes _ _).2
    | main =>
      obtain ⟨pipes, bridge, stage⟩ := board
      cases stage with
      | busStatus | service | lastService => exact Stage.noConfusion at_parse
      | exchange => exact absurd rfl regular.1.1
      | parse =>
        simp only [step, mainStep] at at_parse
        split at at_parse <;> exact Stage.noConfusion at_parse
      | sending =>
        simp only [step, mainStep] at at_parse
        split at at_parse <;> exact Stage.noConfusion at_parse
  · intro at_sending
    cases event with
    | write | hidOut | hidIn | bus => exact ready.sending at_sending
    | exchange usbDspicReq shifted => exact Stage.noConfusion at_sending
    | main =>
      obtain ⟨pipes, bridge, stage⟩ := board
      cases stage with
      | busStatus | service | lastService => exact Stage.noConfusion at_sending
      | exchange => exact absurd rfl regular.1.1
      | parse =>
        simp only [step, mainStep] at at_sending ⊢
        split at at_sending
        · rename_i goes
          simp only [Bool.and_eq_true] at goes
          exact goes.2
        · exact Stage.noConfusion at_sending
      | sending =>
        simp only [step, mainStep] at at_sending ⊢
        split at at_sending
        · rename_i busy
          rw [if_pos busy]
          exact ready.sending rfl
        · exact Stage.noConfusion at_sending

/-- A step that sends nothing and keeps what waits in the bridge. -/
theorem pc_kept (carried : Carried rom board event)
    (silent : (pipesAction board event).elim [] sent = []) (nothing : shiftedIn event = [])
    (kept : Bridge.pendingUsb (step rom board event).bridge = Bridge.pendingUsb board.bridge) :
    pendingToPc board ++ shiftedIn event = read board event ++ pendingToPc (step rom board event) := by
  have same := carried.inn
  rw [silent, List.append_nil] at same
  rw [nothing, List.append_nil, pendingToPc, pendingToPc, kept, same, List.append_assoc]

/-- Behind an SPI part that reads, what it has read waits in the bridge. -/
theorem reads_over (rom : Rom) (board : Board) (shifted : Frame) :
    pendingToPc (step rom board (.exchange true shifted)) =
      AlternatingBit.pending (inLink board.pipes) ++ shiftedIn (.exchange true shifted) := by
  have stored := Bridge.exchange_pending board.bridge ⟨true, shifted, none⟩
  have waiting : (Bridge.pendingUsb (step rom board (.exchange true shifted)).bridge).toList.map reportOf =
      shiftedIn (.exchange true shifted) := by
    change (Bridge.pendingUsb (Bridge.spiExchange board.bridge ⟨true, shifted, none⟩).1).toList.map reportOf = _
    rw [stored, if_pos rfl, Bridge.validRead, shiftedIn, Bool.true_and]
    cases Bridge.crcMatches shifted <;> rfl
  rw [pendingToPc, waiting]
  rfl

/-- Every other step passes on what is on its way to the PC. A packet shifted in over
another one is the only way to lose it. -/
theorem passes_on (ready : Ready board) (event : Event) (regular : Regular board event)
    (other : ∀ shifted, event ≠ .exchange true shifted) :
    PassesOn (step rom) shiftedIn read pendingToPc board event := by
  have through : Carried rom board event := carried ready event regular
  cases event with
  | write | hidOut | hidIn => exact pc_kept through rfl rfl rfl
  | bus action => exact pc_kept through rfl rfl rfl
  | exchange usbDspicReq shifted =>
    cases usbDspicReq with
    | true => exact absurd rfl (other shifted)
    | false =>
      refine pc_kept through rfl rfl ?_
      exact (Bridge.exchange_pending board.bridge ⟨false, shifted, none⟩).trans (if_neg Bool.noConfusion)
  | main =>
    obtain ⟨pipes, bridge, stage⟩ := board
    cases stage with
    | busStatus | service | lastService => exact pc_kept through rfl rfl rfl
    | exchange => exact absurd rfl regular.1.1
    | parse => exact pc_kept through rfl rfl (Bridge.parse_pendingUsb bridge _)
    | sending =>
      by_cases busy : pipes.system.usb.ep1Bi.uown = true
      · have stays : step rom ⟨pipes, bridge, .sending⟩ .main = ⟨pipes, bridge, .sending⟩ := by
          simp only [step, mainStep, busy, if_true]
        unfold PassesOn
        rw [stays]
        exact List.append_nil _
      · -- The packet goes over from the bridge into the pipe.
        obtain ⟨up, waits⟩ := ready.sending rfl
        have goes : (step rom ⟨pipes, bridge, .sending⟩ .main).bridge = (Bridge.sendPending bridge).1 := by
          simp only [step, mainStep, busy]
          rfl
        have waiting : Bridge.pendingUsb bridge = some bridge.usbTxBuffer := by
          rw [Bridge.pendingUsb]
          exact if_pos waits
        have left : Bridge.pendingUsb (step rom ⟨pipes, bridge, .sending⟩ .main).bridge = none := by
          rw [goes, (Bridge.send_pendingUsb bridge).2]
          exact if_pos up
        have given : (pipesAction ⟨pipes, bridge, .sending⟩ .main).elim [] sent =
            [reportOf bridge.usbTxBuffer] := by
          simp only [pipesAction, busy]
          rfl
        have flow := through.inn
        rw [given] at flow
        unfold PassesOn
        rw [pendingToPc, pendingToPc, waiting, left]
        exact (List.append_nil _).trans (flow.trans (congrArg _ (List.append_nil _).symm))

/-- One step towards the PC: it invents nothing, and loses nothing if and only if it
does not read over a waiting packet. -/
theorem step_pc (ready : Ready board) (event : Event) (regular : Regular board event) :
    (read board event ++ pendingToPc (step rom board event)).Sublist (pendingToPc board ++ shiftedIn event) ∧
      (PassesOn (step rom) shiftedIn read pendingToPc board event ↔ BufferFree board event) := by
  by_cases reading : ∃ shifted, event = .exchange true shifted
  · obtain ⟨shifted, rfl⟩ := reading
    have nothing : read board (.exchange true shifted) = [] := rfl
    unfold PassesOn BufferFree
    rw [reads_over, pendingToPc, nothing, List.nil_append, List.append_assoc]
    refine ⟨(List.sublist_append_right _ _).append_left _, ?_⟩
    rw [List.append_cancel_left_eq]
    cases waits : board.bridge.toSendUsb with
    | true => simp [Bridge.pendingUsb, waits]
    | false => simp [Bridge.pendingUsb, waits]
  · have passes : PassesOn (step rom) shiftedIn read pendingToPc board event :=
      passes_on ready event regular fun shifted is => reading ⟨shifted, is⟩
    refine ⟨?_, iff_of_true passes ?_⟩
    · have same : read board event ++ pendingToPc (step rom board event) =
          pendingToPc board ++ shiftedIn event := passes.symm
      rw [same]
    · cases event with
      | exchange usbDspicReq shifted =>
        cases usbDspicReq with
        | true => exact absurd ⟨shifted, rfl⟩ reading
        | false => trivial
      | write | hidOut | hidIn | bus | main => trivial

end Bridge

section Runs

variable {rom : Rom} {board : Board}

/-- A board that has just been configured is ready. -/
theorem Started.ready (started : Started board) : Ready board := by
  obtain ⟨piped, -, -, outSound, inSound⟩ := started.configured.piped started.empty
  refine ⟨piped, outSound, inSound, ?_, ?_⟩
  · intro parse
    rcases started.stage with is | is <;> rw [is] at parse <;> exact Stage.noConfusion parse
  · intro sending
    rcases started.stage with is | is <;> rw [is] at sending <;> exact Stage.noConfusion sending

/-- Both directions of any run of a configured board. What has been clocked out to the
dsPIC and what is still due is what the PC has written as data. What the PC has read
and what is on its way is a part of what the dsPIC has shifted out with a right
checksum, and at every moment all of it exactly if no packet has been read over
another one. Left out are runs in which the board is configured anew, an endpoint is
halted, or the driver serves a packet that leads it out of its memory. Each direction is
two relays in a row, the pipe and the bridge, and every step passes on what it takes. -/
theorem board_relays (rom : Rom) (board : Board) (started : Started board) (events : List Event)
    (regular : Throughout (step rom) Regular board events) :
    (outputs (step rom) clockedOut board events).flatten ++ dueOnSpi (run (step rom) board events) [] =
        dueOnSpi board (events.flatMap written) ∧
      ((outputs (step rom) read board events).flatten ++
          pendingToPc (run (step rom) board events)).Sublist
        (pendingToPc board ++ events.flatMap shiftedIn) ∧
      (Conserved (step rom) shiftedIn read pendingToPc board events ↔
        Throughout (step rom) BufferFree board events) := by
  have kept (board : Board) (event : Event) (ready : Ready board) (regular : Regular board event) :
      Ready (step rom board event) := step_ready ready event regular
  refine ⟨?_, ?_, ?_⟩
  · have flow := Relays.handed_out Relays.comparison_eq (step rom) Regular Ready written clockedOut
      dueOnSpi kept (fun board event items ready regular => step_spi ready event regular items)
      board events started.ready regular []
    rw [List.append_nil] at flow
    exact flow
  · have flow := Relays.handed_out Relays.comparison_sublist (step rom) Regular Ready shiftedIn read
      (fun board items => pendingToPc board ++ items) kept (by
        intro board event items ready regular
        rw [← List.append_assoc, ← List.append_assoc]
        exact (step_pc ready event regular).1.append_right items)
      board events started.ready regular []
    rw [List.append_nil] at flow
    simpa using flow
  · rw [conserved_iff]
    have always := throughout_of_invariant (step rom) Regular Ready
      (fun board event => PassesOn (step rom) shiftedIn read pendingToPc board event ↔ BufferFree board event)
      kept (fun board event ready regular => (step_pc ready event regular).2) board events
      started.ready regular
    exact forall_congr' fun done => forall_congr' fun event => forall_congr' fun rest =>
      forall_congr' fun split => always done event rest split

/-- Without a request at endpoint 0 the main loop may go on. -/
theorem main_permitted (turn : board.stage ≠ .exchange)
    (none : board.pipes.system.usb.ustat.head? ≠ some .ep00Out) : Permitted board .main :=
  ⟨turn, fun _ about => none about.1⟩

theorem main_regular (turn : board.stage ≠ .exchange)
    (none : board.pipes.system.usb.ustat.head? ≠ some .ep00Out) : Regular board .main :=
  ⟨main_permitted turn none, fun _ head => absurd head none⟩

/-- A configured board whose bridge is connected, and a packet of the PC's programs. -/
def connectedBoard : Board where
  pipes :=
    { system :=
        { powerOn with
          usb := hidInitEP (usbPrepareForNextSetupTrf { start with usben := true, uep0 := epCtrl }) }
      reports := [], outBit := false, inBit := false }
  bridge := { Bridge.boot with connected := true }
  stage := .exchange

theorem connectedBoard_started : Started connectedBoard :=
  ⟨⟨⟨_, rfl⟩, Or.inl rfl, rfl, rfl⟩, rfl, Or.inl rfl⟩

def dataReport : Frame := bytes (Usb.Session.dataPacket (fun _ => 0) 8)

/-- A packet each way; the one for the PC has to wait until the other is through. -/
def crossing : List Event :=
  [.write (reportOf dataReport), .hidOut true, .exchange true BridgeRuns.ones, .main, .main, .main, .main,
    .exchange false BridgeRuns.zeros, .main, .main, .hidIn true]

/-- Both arrive. -/
theorem crossing_relayed :
    let rom : Rom := ⟨fun _ _ => 0, fun _ _ => 0⟩
    (outputs (step rom) clockedOut connectedBoard crossing).flatten.map reportOf = [reportOf dataReport] ∧
      (outputs (step rom) read connectedBoard crossing).flatten = [reportOf BridgeRuns.ones] := by
  intro rom
  have regular : Throughout (step rom) Regular connectedBoard crossing := by
    have fits : (reportOf dataReport).length ≤ hidIntOutEpSize := by decide +kernel
    simp only [crossing, throughout_cons, throughout_nil, and_true]
    refine ⟨⟨fits, trivial⟩, ⟨trivial, trivial⟩, ⟨rfl, trivial⟩, ?_, ?_, ?_, ?_, ?_, ?_, ?_,
      trivial, trivial⟩
    · exact main_regular (by decide +kernel) (by decide +kernel)
    · exact main_regular (by decide +kernel) (by decide +kernel)
    · exact main_regular (by decide +kernel) (by decide +kernel)
    · exact main_regular (by decide +kernel) (by decide +kernel)
    · refine ⟨?_, trivial⟩
      change (run (step rom) connectedBoard (crossing.take 7)).stage = .exchange
      decide +kernel
    · exact main_regular (by decide +kernel) (by decide +kernel)
    · exact main_regular (by decide +kernel) (by decide +kernel)
  have free : Throughout (step rom) BufferFree connectedBoard crossing := by
    simp only [crossing, throughout_cons, throughout_nil, BufferFree, true_and, and_true]
    decide +kernel
  obtain ⟨spi, -, pc⟩ := board_relays rom connectedBoard connectedBoard_started crossing regular
  have nothingDue : (dueOnSpi (run (step rom) connectedBoard crossing) []).map reportOf = [] := by
    decide +kernel
  have nothingPending : pendingToPc (run (step rom) connectedBoard crossing) = [] := by decide +kernel
  have all := pc.mpr free crossing [] (List.append_nil _).symm
  rw [nothingPending, List.append_nil] at all
  rw [List.map_eq_nil_iff.mp nothingDue, List.append_nil] at spi
  refine ⟨?_, all.symm.trans (by decide +kernel)⟩
  rw [spi]
  decide +kernel

end Runs

section Waiting

variable {rom : Rom} {board : Board}

/-- The registers that keep the main loop waiting, unchanged by a step in which no
report is taken. Setting `PKTDIS` is the hardware's, clearing it the driver's. -/
structure Stuck (before after : Usb) : Prop where
  ep1Bi : after.ep1Bi = before.ep1Bi
  uep1 : after.uep1 = before.uep1
  pktdis : before.pktdis = true → after.pktdis = true

theorem Stuck.refl (usb : Usb) : Stuck usb usb := ⟨rfl, rfl, id⟩

/-- What happens on the bus leaves them alone; a setup packet makes the hardware silent. -/
theorem bus_stuck (system : System) (action : Step) (onBus : OnBus action) :
    Stuck system.usb (Stack.step rom system action).usb := by
  have filled (usb : Usb) (data : Area) (count : Nat) : Stuck usb (fill usb usb.ep0Bo.adr data count) := by
    unfold fill
    cases usb.ep0Bo.adr <;> exact ⟨rfl, rfl, id⟩
  cases action with
  | setupToken pkt =>
    simp only [Stack.step]
    split
    · have kept := filled system.usb pkt 8
      exact ⟨kept.ep1Bi, kept.uep1, fun _ => rfl⟩
    · exact .refl _
  | outToken toggle data =>
    refine sieOut_keeps (Stuck system.usb) toggle data (.refl _) (fun _ => ⟨rfl, rfl, id⟩) fun _ => ?_
    have kept := filled system.usb (area data) data.length
    exact ⟨kept.ep1Bi, kept.uep1, kept.pktdis⟩
  | inToken =>
    exact sieIn_keeps (Stuck system.usb) (.refl _) (fun _ => ⟨rfl, rfl, id⟩) ⟨rfl, rfl, id⟩
  | busReset | busIdle | busActivity | startOfFrame | busError | lineState => exact ⟨rfl, rfl, id⟩
  | checkBusStatus | driverService | txReport | rxReport | hidOutToken | hidInToken => exact onBus.elim

/-- Without an offer an IN packet gets nothing. -/
theorem hidIn_unoffered (usb : Usb) (silent : offers usb = false) :
    (sieHidIn usb).2 = none ∧ Stuck usb (sieHidIn usb).1 := by
  unfold sieHidIn
  split
  · rename_i answers
    simp only [Bool.and_eq_true] at answers
    have halted : usb.ep1Bi.bstall = true := by
      simpa only [offers, answers.1.1, answers.1.2, Bool.true_and, Bool.not_eq_eq_eq_not, Bool.not_false]
        using silent
    rw [if_pos halted]
    exact ⟨rfl, rfl, rfl, id⟩
  · exact ⟨rfl, .refl usb⟩

/-- With one it gets the report. -/
theorem hidIn_offered (usb : Usb) (full : usb.ep1Bi.uown = true) (offered : offers usb = true) :
    sieHidIn usb =
      ({ usb with
         ep1Bi := handBack usb.ep1Bi inToken usb.ep1Bi.cnt
         ustat := usb.ustat ++ [.ep01In] },
       some (usb.ep1Bi.dts, usb.hidReportIn.bytes usb.ep1Bi.cnt.toNat)) := by
  simp only [offers, Bool.and_eq_true, Bool.not_eq_eq_eq_not, Bool.not_true] at offered
  simp only [sieHidIn, offered, full, Bool.and_self, if_true, Bool.false_eq_true, if_false]

/-- Neither does an OUT packet, nor an IN packet that is not taken. The cases are the
events; those of the main loop do not occur, as it waits. -/
theorem step_stuck (rom : Rom) (waiting : Waiting board) (event : Event) (permitted : Permitted board event)
    (unread : NotTaken board event) :
    (step rom board event).stage = board.stage ∧ (step rom board event).bridge = board.bridge ∧
      Stuck board.pipes.system.usb (step rom board event).pipes.system.usb := by
  obtain ⟨pipes, bridge, stage⟩ := board
  obtain ⟨stage_is, full⟩ := waiting
  cases stage_is
  cases event with
  | write report => exact ⟨rfl, rfl, .refl _⟩
  | hidOut confirmed =>
    refine ⟨rfl, rfl, ?_⟩
    have taken (toggle : Bool) (report : List Byte) :
        Stuck pipes.system.usb (sieHidOut pipes.system.usb toggle report) :=
      sieHidOut_keeps (Stuck pipes.system.usb) toggle report (.refl _) ⟨rfl, rfl, id⟩ ⟨rfl, rfl, id⟩
    simp only [step, next]
    split
    · exact .refl _
    · split <;> exact taken _ _
  | hidIn confirmed =>
    refine ⟨rfl, rfl, ?_⟩
    change Stuck pipes.system.usb (next rom pipes (.hidIn confirmed)).system.usb
    cases offered : offers pipes.system.usb with
    | false =>
      obtain ⟨none, stuck⟩ := hidIn_unoffered pipes.system.usb offered
      have pair : sieHidIn pipes.system.usb = ((sieHidIn pipes.system.usb).1, Option.none) :=
        Prod.ext rfl none
      rw [next, pair]
      exact stuck
    | true =>
      have lost : confirmed = false := by
        cases confirmed with
        | true => exact absurd (offered.symm.trans (unread rfl)) (by decide)
        | false => rfl
      rw [next, hidIn_offered pipes.system.usb full offered, lost]
      exact .refl _
  | bus action => exact ⟨rfl, rfl, bus_stuck pipes.system action permitted⟩
  | exchange usbDspicReq shifted => exact Stage.noConfusion permitted
  | main =>
    have stays : step rom ⟨pipes, bridge, .sending⟩ .main = ⟨pipes, bridge, .sending⟩ := by
      simp only [step, mainStep]
      exact if_pos full
    rw [stays]
    exact ⟨rfl, rfl, .refl _⟩

/-- So the loop goes on waiting, through resets of the bus and everything else the
hardware does for itself. -/
theorem step_waiting (waiting : Waiting board) (event : Event) (permitted : Permitted board event)
    (unread : NotTaken board event) : Waiting (step rom board event) := by
  obtain ⟨stage, -, stuck⟩ := step_stuck rom waiting event permitted unread
  refine ⟨stage.trans waiting.stage, ?_⟩
  rw [stuck.ep1Bi]
  exact waiting.full

/-- A step behind which the loop still waits has taken no report, for the hardware gives
the buffer back with it. -/
theorem step_taken (waiting : Waiting board) (event : Event) (still : Waiting (step rom board event)) :
    NotTaken board event := by
  cases event with
  | hidIn confirmed =>
    intro confirms
    cases offered : offers board.pipes.system.usb with
    | false => rfl
    | true =>
      have free := (handedBack board.pipes.system.usb.ep1Bi inToken board.pipes.system.usb.ep1Bi.cnt
        (Or.inr rfl)).1
      have full := still.full
      simp only [confirms, step, next, hidIn_offered _ waiting.full offered, if_true] at full
      exact absurd (free.symm.trans full) (by decide)
  | write | hidOut | bus | exchange | main => trivial

/-- The loop waits all along a run exactly if no report is taken in it: nothing else
that can happen ends the wait, since the driver, which alone could give the buffer back,
is not called in it. The endpoint may have been switched off by a bus reset meanwhile,
and then no report can be taken any more. -/
theorem waits_iff (rom : Rom) (board : Board) (waiting : Waiting board) (events : List Event)
    (permitted : Throughout (step rom) Permitted board events) :
    Reached (step rom) Waiting board events ↔ Throughout (step rom) NotTaken board events := by
  have exactly := guarded_iff (step rom) Permitted NotTaken Waiting Waiting (fun _ _ => True)
    (fun _ event waiting permitted unread => ⟨step_waiting waiting event permitted unread, trivial⟩)
    (fun _ waiting => waiting) (fun _ event waiting _ still _ => step_taken waiting event still)
    board events waiting permitted
  rw [← exactly]
  exact (and_iff_left fun _ _ _ _ => trivial).symm

/-- The PC does not read, and the second packet of the dsPIC meets a full pipe. -/
def unread : List Event :=
  [.exchange true BridgeRuns.ones, .main, .main, .main, .main, .main, .exchange true BridgeRuns.ones, .main]

/-- The loop is reached on a permitted run. -/
theorem unread_waits :
    let rom : Rom := ⟨fun _ _ => 0, fun _ _ => 0⟩
    Throughout (step rom) Permitted connectedBoard unread ∧
      Waiting (run (step rom) connectedBoard unread) := by
  intro rom
  constructor
  · simp only [unread, throughout_cons, throughout_nil, and_true]
    refine ⟨rfl, ?_, ?_, ?_, ?_, ?_, ?_, ?_⟩
    · exact main_permitted (by decide +kernel) (by decide +kernel)
    · exact main_permitted (by decide +kernel) (by decide +kernel)
    · exact main_permitted (by decide +kernel) (by decide +kernel)
    · exact main_permitted (by decide +kernel) (by decide +kernel)
    · exact main_permitted (by decide +kernel) (by decide +kernel)
    · change (run (step rom) connectedBoard (unread.take 6)).stage = .exchange
      decide +kernel
    · exact main_permitted (by decide +kernel) (by decide +kernel)
  · exact ⟨by decide +kernel, by decide +kernel⟩

/-- It goes on while the PC's confirmations get lost, and ends with the first that comes. -/
theorem unread_waits_on :
    let rom : Rom := ⟨fun _ _ => 0, fun _ _ => 0⟩
    let board := run (step rom) connectedBoard unread
    Reached (step rom) Waiting board [.hidIn false, .main] ∧
      ¬ Reached (step rom) Waiting board [.hidIn true] := by
  intro rom board
  have waiting : Waiting board := unread_waits.2
  have stage : (run (step rom) board [.hidIn false]).stage ≠ .exchange := by decide +kernel
  have none : (run (step rom) board [.hidIn false]).pipes.system.usb.ustat.head? ≠ some .ep00Out := by
    decide +kernel
  have answers : offers board.pipes.system.usb = true := by decide +kernel
  constructor
  · refine (waits_iff rom board waiting _ ?_).mpr ?_
    · simp only [throughout_cons, throughout_nil, and_true]
      exact ⟨trivial, main_permitted stage none⟩
    · simp only [throughout_cons, throughout_nil, and_true]
      exact ⟨Bool.noConfusion, trivial⟩
  · intro still
    have unread := (waits_iff rom board waiting [.hidIn true] (by
      simp only [throughout_cons, throughout_nil, and_true]
      trivial)).mp still
    have silent := unread [] (.hidIn true) [] rfl rfl
    exact Bool.noConfusion (answers.symm.trans silent)

section Deadlock

variable {bridge : Bridge.State}

/-- Then the hardware answers nothing, so no report is taken. -/
theorem Deadlocked.silent (dead : Deadlocked bridge board) : listening board.pipes.system.usb = false := by
  rw [listening, dead.pktdis]
  exact Bool.and_false _

theorem Deadlocked.notTaken (dead : Deadlocked bridge board) (event : Event) : NotTaken board event := by
  cases event with
  | hidIn confirmed =>
    intro _
    rw [offers, dead.silent]
    rfl
  | write | hidOut | bus | exchange | main => trivial

/-- There is no way out of it. -/
theorem Deadlocked.kept (dead : Deadlocked bridge board) (event : Event) (permitted : Permitted board event) :
    Deadlocked bridge (step rom board event) := by
  obtain ⟨-, same, stuck⟩ := step_stuck rom dead.waiting event permitted (dead.notTaken event)
  exact ⟨step_waiting dead.waiting event permitted (dead.notTaken event), same.trans dead.bridge,
    stuck.pktdis dead.pktdis⟩

/-- Nothing comes out of it on either side. -/
theorem Deadlocked.quiet (dead : Deadlocked bridge board) (event : Event) (permitted : Permitted board event) :
    read board event = [] ∧ clockedOut board event = [] := by
  cases event with
  | hidIn confirmed =>
    have none : sieHidIn board.pipes.system.usb = (board.pipes.system.usb, none) := by
      simp only [sieHidIn, dead.silent, Bool.false_and, Bool.false_eq_true, if_false]
    refine ⟨?_, rfl⟩
    simp only [read, Pipes.reads, none]
  | exchange usbDspicReq shifted =>
    have elsewhere : board.stage = .exchange := permitted
    exact absurd (dead.waiting.stage.symm.trans elsewhere) Stage.noConfusion
  | write | hidOut | bus | main => exact ⟨rfl, rfl⟩

/-- A setup packet that comes while the loop waits ends everything: whatever happens
afterwards, the loop waits on, the hardware answers nothing, the PC reads nothing more,
and nothing more goes to the dsPIC. `PKTDIS` is set with the packet and stays so until
the driver has looked at it, which it cannot while the loop waits. -/
theorem setup_while_waiting (rom : Rom) (board : Board) (waiting : Waiting board) (pkt : Area)
    (taken : takesSetup board.pipes.system.usb = true) (events : List Event)
    (permitted : Throughout (step rom) Permitted (step rom board (.bus (.setupToken pkt))) events) :
    Reached (step rom) (fun later => Waiting later ∧ later.bridge = board.bridge ∧
        listening later.pipes.system.usb = false) (step rom board (.bus (.setupToken pkt))) events ∧
      Throughout (step rom) (fun later event => read later event = [] ∧ clockedOut later event = [])
        (step rom board (.bus (.setupToken pkt))) events := by
  have first : Deadlocked board.bridge (step rom board (.bus (.setupToken pkt))) := by
    refine ⟨step_waiting waiting _ trivial trivial, rfl, ?_⟩
    simp only [step, next, Stack.step, taken, if_true]
    rfl
  have kept (later : Board) (event : Event) (dead : Deadlocked board.bridge later)
      (permitted : Permitted later event) : Deadlocked board.bridge (step rom later event) :=
    dead.kept event permitted
  constructor
  · refine (reached_of_invariant (step rom) Permitted (Deadlocked board.bridge) kept _ events first
      permitted).mono ?_
    intro later dead
    exact ⟨dead.waiting, dead.bridge, dead.silent⟩
  · exact throughout_of_invariant (step rom) Permitted (Deadlocked board.bridge) _ kept
      (fun later event dead permitted => dead.quiet event permitted) _ events first permitted

/-- So a board whose PC sends a request before it reads on is lost. -/
theorem unread_request_deadlocks :
    let rom : Rom := ⟨fun _ _ => 0, fun _ _ => 0⟩
    let board := run (step rom) connectedBoard (unread ++ [.bus (.setupToken fun _ => 0)])
    Reached (step rom) (fun later => Waiting later ∧
      later.bridge = (run (step rom) connectedBoard unread).bridge ∧
      listening later.pipes.system.usb = false) board [.hidIn true, .main] := by
  intro rom board
  have waiting : Waiting (run (step rom) connectedBoard unread) := unread_waits.2
  have taken : takesSetup (run (step rom) connectedBoard unread).pipes.system.usb = true := by
    decide +kernel
  have stage : (run (step rom) board [.hidIn true]).stage = .sending := by decide +kernel
  have here : board = step rom (run (step rom) connectedBoard unread) (.bus (.setupToken fun _ => 0)) :=
    run_append _ _ _ _
  rw [here]
  refine (setup_while_waiting rom _ waiting _ taken [.hidIn true, .main] ?_).1
  rw [← here]
  simp only [throughout_cons, throughout_nil, and_true]
  refine ⟨trivial, ?_, ?_⟩
  · change (run (step rom) board [.hidIn true]).stage ≠ .exchange
    rw [stage]
    exact Stage.noConfusion
  · change (run (step rom) board [.hidIn true]).stage = .service ∨
      (run (step rom) board [.hidIn true]).stage = .lastService → _
    rw [stage]
    rintro (other | other) <;> exact Stage.noConfusion other

end Deadlock

end Waiting

end ScicosFlex.Pic18.Stack.Relay
