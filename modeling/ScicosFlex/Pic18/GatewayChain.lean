import ScicosFlex.Pic18.FrameAgreement
import ScicosFlex.Pic18.Relay
import ScicosFlex.Usb.UdpGateway

/-!
# Between UDP and the dsPIC

The gateway program on the PC and the PIC18 board, put together. What the program
writes goes into the OUT pipe if `usb_bulk_write` succeeds within its millisecond, and
the reader thread gets what comes out of the IN pipe. The program, the bus, the firmware
and the dsPIC take their steps in any order.

`datagrams_reach_dspic`: one packet for each round of the gateway whose write has
succeeded is clocked out to the dsPIC, each once and in order, with the receive buffer of
that round in it.
`packets_reach_udp`: the payloads that the dsPIC has shifted out are sent as
datagrams, in order, and at every moment none is missing if and only if none has been
shifted in over one that waited in the bridge.
-/

namespace ScicosFlex.Pic18.GatewayChain

open Library Library.Runs Library.Relays Library.CircularBuffer ScicosFlex.Usb ScicosFlex.Usb.Packet
open ScicosFlex.Usb.Session ScicosFlex.Usb.Channels ScicosFlex.Usb.RingRuns ScicosFlex.Usb.RxRing
open Stack hiding Memory Byte
open ScicosFlex.Usb.UdpGateway (Gateway History Forward Backward images silence)

section Model

/-- What has happened at the two ends of the board: the reports the PC has written and
read, the packets clocked out to the dsPIC, and those it has shifted out with a right
checksum. `overwritten` says that one of these came over another one in the bridge. -/
structure Record where
  written : List (List Byte)
  reads : List (List Byte)
  clockedOut : List Frame
  shifted : List (List Byte)
  overwritten : Bool

/-- The board and the program, each with its history; `results` says of each packet that
the program has handed to `usb_bulk_write` whether it has gone out. -/
structure Chain where
  board : Relay.Board × Record
  gateway : Gateway × History
  results : List Bool

/-- A step of the board, the bus or another program, with the memory behind the
packet of the reader thread, or a step of the gateway's loop. -/
inductive Event where
  | board (event : Relay.Event) (behind : Memory)
  | loop (datagram : Option (List Byte)) (written : Int)

/-- A report of 64 bytes as a packet. -/
def frameOf (report : List Byte) : Frame := fun position => report.getD position.val 0

/-- Its payload. -/
def payloadOf (report : List Byte) : Payload := (ofBytes (frameOf report)).payload

/-- `reader_thread` with a report that has come in. -/
def deliver (behind : Memory) (gateway : Gateway × History) (report : List Byte) : Gateway × History :=
  if report.length = 64 then
    let packet := ofBytes (frameOf report)
    let scicos := gateway.1.scicos
    ({ gateway.1 with scicos := { scicos with usb := readerReceives scicos.usb packet behind } },
      { gateway.2 with delivered := gateway.2.delivered ++ [packet.payload] })
  else gateway

/-- The event loses the packet that waits in the bridge. -/
def overwrites (board : Relay.Board) : Relay.Event → Bool
  | .exchange true _ => board.bridge.toSendUsb
  | _ => false

/-- A step of the board and what it adds to the record. -/
def onBoard (rom : Rom) (state : Relay.Board × Record) (event : Relay.Event) : Relay.Board × Record :=
  (Relay.step rom state.1 event,
    { written := state.2.written ++ Relay.written event
      reads := state.2.reads ++ Relay.read state.1 event
      clockedOut := state.2.clockedOut ++ Relay.clockedOut state.1 event
      shifted := state.2.shifted ++ Relay.shiftedIn event
      overwritten := state.2.overwritten || overwrites state.1 event })

/-- The packet that the next step of the loop hands to the USB library, if any. -/
def sends (gateway : Gateway) (written : Int) : List Frame :=
  match gateway.stage with
  | .write ch =>
    (flexUsbscicosWrite gateway.scicos ch (UdpGateway.float gateway.dataReceiver ch) written).1.toList
  | _ => []

/-- What goes out of the packets handed to `usb_bulk_write`, which returns the number of
bytes written or an error. `flex_usb_write` drops the packet then. -/
def gone (packets : List Frame) (written : Int) : List Frame := if written = 64 then packets else []

/-- One step. -/
def step (rom : Rom) (chain : Chain) : Event → Chain
  | .board event behind =>
    { chain with
      board := onBoard rom chain.board event
      gateway := (Relay.read chain.board.1 event).foldl (deliver behind) chain.gateway }
  | .loop datagram written =>
    let packets := sends chain.gateway.1 written
    { board := (gone packets written).foldl
        (fun board packet => onBoard rom board (.write (Relay.reportOf packet))) chain.board
      gateway := UdpGateway.both chain.gateway (.loop datagram written)
      results := chain.results ++ packets.map fun _ => decide (written = 64) }

/-- The start: a board that has just been configured, and the loop begins. -/
def begin (board : Relay.Board) (outcomes : InitOutcomes) (threads : Bool) : Chain where
  board := (board, { written := [], reads := [], clockedOut := [], shifted := [], overwritten := false })
  gateway := UdpGateway.begin outcomes threads
  results := []

/-- The bridge accepts the packet as data. -/
def isData (packet : Frame) : Bool :=
  Bridge.accepted packet && (ofBytes packet).type == headerData

/-- The other programs only write commands, and the dsPIC only sends whole payloads. -/
def Orderly : Relay.Event → Prop
  | .write report => report.length = 64 ∧ isData (frameOf report) = false
  | .exchange true shifted => Bridge.crcMatches shifted = true → (ofBytes shifted).length = 60
  | _ => True

/-- The board goes on as it may, and what the PC reads finds room in the ring. The loop is
free to do what it does. -/
def Permitted (chain : Chain) : Event → Prop
  | .board event _ =>
    Relay.Regular chain.board.1 event ∧ Orderly event ∧
      (Relay.read chain.board.1 event ≠ [] →
        chain.gateway.1.scicos.usb.rx.rxHeld + 60 ≤ chain.gateway.1.scicos.usb.rx.rxBufferSize)
  | .loop _ _ => True

/-- A configured board whose bridge has nothing to pass on. -/
structure Idle (board : Relay.Board) : Prop where
  started : Relay.Started board
  spi : Bridge.pendingSpi board.bridge = none
  usb : Bridge.pendingUsb board.bridge = none

/-- A report with a whole payload. -/
structure Whole (report : List Byte) : Prop where
  length : report.length = 64
  payload : (ofBytes (frameOf report)).length = 60

/-- The board's part of the invariant: what its two directions owe to the record. -/
structure OnBoard (start : Relay.Board) (state : Relay.Board × Record) : Prop where
  ready : Relay.Ready state.1
  toSpi : ∀ items, state.2.clockedOut ++ Relay.dueOnSpi state.1 items =
    Relay.dueOnSpi start (state.2.written ++ items)
  toPc : (state.2.reads ++ Relay.pendingToPc state.1).Sublist state.2.shifted
  lossless : state.2.reads ++ Relay.pendingToPc state.1 = state.2.shifted ↔ state.2.overwritten = false

/-- The data packets among some reports. -/
def dataOf (reports : List (List Byte)) : List Frame := (reports.map frameOf).filter isData

/-- Those of some items whose result is a success. -/
def succeeded {α : Type} (items : List α) (results : List Bool) : List α :=
  ((items.zip results).filter Prod.snd).map Prod.fst

/-- The invariant: the packets of the loop that have gone out are what the PC has written
as data, and the payloads it has received those of the reports read. -/
structure Linked (start : Relay.Board) (chain : Chain) : Prop where
  board : OnBoard start chain.board
  full : ∀ report ∈ chain.board.2.written, report.length = 64
  results : chain.gateway.2.packets.length = chain.results.length
  data : dataOf chain.board.2.written = succeeded chain.gateway.2.packets chain.results
  whole : ∀ report ∈ chain.board.2.shifted, Whole report
  delivered : chain.gateway.2.delivered = chain.board.2.reads.map payloadOf
  forward : ∃ shown flight waiting, Forward shown flight waiting chain.gateway
  backward : ∃ through begun, Backward through begun chain.gateway

end Model

section Results

variable {α β : Type}

/-- Items that follow have their own results. -/
theorem succeeded_append (items more : List α) (results others : List Bool)
    (same : items.length = results.length) :
    succeeded (items ++ more) (results ++ others) = succeeded items results ++ succeeded more others := by
  rw [succeeded, List.zip_append same, List.filter_append, List.map_append]
  rfl

/-- An image succeeds with its item. -/
theorem succeeded_map (image : α → β) (items : List α) (results : List Bool) :
    succeeded (items.map image) results = (succeeded items results).map image := by
  rw [succeeded, succeeded, List.zip_map_left, List.filter_map, List.map_map, List.map_map]
  rfl

end Results

section Reports

/-- A packet of 64 bytes and its report. -/
theorem frameOf_reportOf (packet : Frame) : frameOf (Relay.reportOf packet) = packet := by
  funext position
  have inside := position.isLt
  simp [frameOf, Relay.reportOf, Area.bytes, memory, inside]

theorem reportOf_length (packet : Frame) : (Relay.reportOf packet).length = 64 :=
  Area.bytes_length _ _

/-- Whole reports are the packets that the bridge finds. -/
theorem packets_full (buffer : Frame) (reports : List (List Byte))
    (full : ∀ report ∈ reports, report.length = 64) : Relay.packets buffer reports = reports.map frameOf := by
  induction reports generalizing buffer with
  | nil => rfl
  | cons report rest inductionHypothesis =>
    have length : report.length = 64 := full report List.mem_cons_self
    have something : report ≠ [] := List.ne_nil_of_length_pos (by omega)
    have same : Relay.overlay buffer report = frameOf report := by
      funext position
      have inside : position.val < report.length := by omega
      simp [Relay.overlay, frameOf, inside]
    rw [Relay.packets_cons, Relay.hidReport, if_neg something, Option.toList_some, Option.getD_some, same,
      inductionHypothesis _ fun other member => full other (List.mem_cons_of_mem _ member)]
    rfl

/-- A PC reads at most one report at a time. -/
theorem read_one (board : Relay.Board) (event : Relay.Event) :
    Relay.read board event = [] ∨ ∃ report, Relay.read board event = [report] := by
  cases event with
  | hidIn confirmed =>
    simp only [Relay.read, Pipes.reads]
    split
    · split
      · exact Or.inr ⟨_, rfl⟩
      · exact Or.inl rfl
    · exact Or.inl rfl
  | _ => exact Or.inl rfl

/-- A data packet of the library is data for the bridge. -/
theorem isData_dataPacket (buffer : Memory) : isData (bytes (dataPacket buffer 60)) = true := by
  have reads := FrameAgreement.data_readsAs buffer 60 (by decide)
  rw [isData, reads.accepts, reads.type_eq]
  rfl

/-- The reader thread takes a whole report as the event of the gateway. -/
theorem deliver_whole (behind : Memory) (gateway : Gateway × History) (report : List Byte)
    (whole : Whole report) :
    deliver behind gateway report = UdpGateway.both gateway (.deliver (payloadOf report) behind) := by
  have same : readerReceives gateway.1.scicos.usb (ofBytes (frameOf report)) behind =
      readerReceives gateway.1.scicos.usb (channelPacket (payloadOf report)) behind := by
    unfold readerReceives
    rw [whole.payload]
    rfl
  rw [deliver, if_pos whole.length]
  dsimp only
  rw [same]
  rfl

end Reports

section Board

variable {rom : Rom} {start : Relay.Board} {state : Relay.Board × Record}

/-- Nothing is lost exactly if nothing waits where a packet is shifted in. -/
theorem bufferFree_iff (board : Relay.Board) (event : Relay.Event) :
    Relay.BufferFree board event ↔ overwrites board event = false := by
  cases event with
  | exchange usbDspicReq shifted =>
    cases usbDspicReq with
    | true => exact Iff.rfl
    | false => exact iff_of_true trivial rfl
  | _ => exact iff_of_true trivial rfl

/-- A step of the board keeps what it owes. -/
theorem onBoard_kept (along : OnBoard start state) (event : Relay.Event)
    (regular : Relay.Regular state.1 event) : OnBoard start (onBoard rom state event) := by
  obtain ⟨ready, toSpi, toPc, lossless⟩ := along
  obtain ⟨part, exactly⟩ := @Relay.step_pc rom state.1 ready event regular
  obtain ⟨sublist, whole⟩ := lost_step toPc part
  refine ⟨Relay.step_ready ready event regular, ?_, sublist, ?_⟩
  · intro items
    have first := @Relay.step_spi rom state.1 ready event regular items
    simp only [onBoard]
    rw [List.append_assoc, first, toSpi, List.append_assoc]
  · refine whole.trans ?_
    have passes : Relay.read state.1 event ++ Relay.pendingToPc (Relay.step rom state.1 event) =
        Relay.pendingToPc state.1 ++ Relay.shiftedIn event ↔ Relay.BufferFree state.1 event :=
      eq_comm.trans exactly
    rw [passes, lossless, bufferFree_iff, ← Bool.or_eq_false_iff]
    rfl

end Board

section Loop

/-- A step of the loop hands over what `sends` says. -/
theorem loop_packets (gateway : Gateway × History) (datagram : Option (List Byte)) (written : Int) :
    (UdpGateway.both gateway (.loop datagram written)).2.packets =
      gateway.2.packets ++ sends gateway.1 written := by
  obtain ⟨⟨scicos, dataSender, dataReceiver, stage⟩, history⟩ := gateway
  cases stage with
  | write => rfl
  | read | send | receive => exact (List.append_nil _).symm

/-- It receives nothing from the device. -/
theorem loop_delivered (gateway : Gateway × History) (datagram : Option (List Byte)) (written : Int) :
    (UdpGateway.both gateway (.loop datagram written)).2.delivered = gateway.2.delivered := by
  obtain ⟨⟨scicos, dataSender, dataReceiver, stage⟩, history⟩ := gateway
  cases stage with
  | write | read | send | receive => rfl

/-- A step of the loop sends one packet at most. -/
theorem sends_one (gateway : Gateway) (written : Int) :
    sends gateway written = [] ∨ ∃ packet, sends gateway written = [packet] := by
  unfold sends
  split
  · rename_i ch stage
    cases (flexUsbscicosWrite gateway.scicos ch (UdpGateway.float gateway.dataReceiver ch) written).1 with
    | none => exact Or.inl rfl
    | some packet => exact Or.inr ⟨packet, rfl⟩
  · exact Or.inl rfl

end Loop

section Steps

variable {rom : Rom} {start : Relay.Board} {chain : Chain}

theorem dataOf_append (left right : List (List Byte)) : dataOf (left ++ right) = dataOf left ++ dataOf right := by
  rw [dataOf, List.map_append, List.filter_append]
  rfl

/-- What an orderly event of the board adds to the record. -/
theorem orderly_written (event : Relay.Event) (orderly : Orderly event) :
    (∀ report ∈ Relay.written event, report.length = 64) ∧ dataOf (Relay.written event) = [] := by
  cases event with
  | write report =>
    refine ⟨fun other member => List.mem_singleton.mp member ▸ orderly.1, ?_⟩
    simp [dataOf, Relay.written, orderly.2]
  | _ => exact ⟨fun _ member => absurd member List.not_mem_nil, rfl⟩

theorem orderly_shifted (event : Relay.Event) (orderly : Orderly event) (report : List Byte)
    (member : report ∈ Relay.shiftedIn event) : Whole report := by
  cases event with
  | exchange usbDspicReq shifted =>
    cases usbDspicReq with
    | false => cases member
    | true =>
      rw [Relay.shiftedIn] at member
      split at member
      · rename_i matching
        rw [List.mem_singleton.mp member]
        exact ⟨reportOf_length shifted, by rw [frameOf_reportOf]; exact orderly matching⟩
      · cases member
  | _ => cases member

/-- A step of the board. What it hands to the bridge or to the PC moves from one part of
the record to the next, by the lemmas on the two directions. -/
theorem linked_board (linked : Linked start chain) (event : Relay.Event) (behind : Memory)
    (permitted : Permitted chain (.board event behind)) :
    Linked start (step rom chain (.board event behind)) := by
  obtain ⟨board, full, results, data, whole, delivered, ⟨shown, flight, waiting, forward⟩, through, begun, backward⟩ :=
    linked
  obtain ⟨allowed, orderly, room⟩ := permitted
  have along : OnBoard start (onBoard rom chain.board event) := onBoard_kept board event allowed
  obtain ⟨long, commands⟩ := orderly_written event orderly
  have wholes : ∀ report ∈ chain.board.2.shifted ++ Relay.shiftedIn event, Whole report := by
    intro report member
    exact (List.mem_append.mp member).elim (whole report) (orderly_shifted event orderly report)
  have fulls : ∀ report ∈ chain.board.2.written ++ Relay.written event, report.length = 64 := by
    intro report member
    exact (List.mem_append.mp member).elim (full report) (long report)
  have datas : dataOf (chain.board.2.written ++ Relay.written event) =
      succeeded chain.gateway.2.packets chain.results := by
    rw [dataOf_append, commands, data, List.append_nil]
  rcases read_one chain.board.1 event with none | ⟨report, one⟩
  · have stays : step rom chain (.board event behind) =
        { chain with board := onBoard rom chain.board event } := by
      simp only [step, none, List.foldl_nil]
    rw [stays]
    refine ⟨along, fulls, results, datas, wholes, ?_, ⟨shown, flight, waiting, forward⟩, through, begun, backward⟩
    simp only [onBoard, none, List.append_nil, delivered]
  · have known : Whole report := by
      refine wholes report (along.toPc.subset (List.mem_append_left _ ?_))
      simp only [onBoard, one]
      exact List.mem_append_right _ List.mem_cons_self
    have takes : step rom chain (.board event behind) =
        { chain with
          board := onBoard rom chain.board event
          gateway := UdpGateway.both chain.gateway (.deliver (payloadOf report) behind) } := by
      simp only [step, one, List.foldl_cons, List.foldl_nil, deliver_whole _ _ _ known]
    have roomy : UdpGateway.HasRoom chain.gateway (.deliver (payloadOf report) behind) :=
      room (by rw [one]; exact List.cons_ne_nil _ _)
    rw [takes]
    refine ⟨along, fulls, results, datas, wholes, ?_,
      ⟨_, _, _, UdpGateway.forward_deliver forward (payloadOf report) behind roomy⟩,
      UdpGateway.backward_step backward (.deliver (payloadOf report) behind)⟩
    simp only [onBoard, one, List.map_append, List.map_cons, List.map_nil, ← delivered]
    rfl

/-- A step of the loop. The last write of a round hands a packet to the OUT pipe, unless
`usb_bulk_write` fails, and all other steps leave the board alone. -/
theorem linked_loop (linked : Linked start chain) (datagram : Option (List Byte)) (written : Int) :
    Linked start (step rom chain (.loop datagram written)) := by
  obtain ⟨board, full, results, data, whole, delivered, ⟨shown, flight, waiting, forward⟩, through, begun, backward⟩ :=
    linked
  have forwards := UdpGateway.forward_step forward (.loop datagram written) trivial
  obtain ⟨through', begun', behind⟩ := UdpGateway.backward_step backward (.loop datagram written)
  have packets := loop_packets chain.gateway datagram written
  have same := loop_delivered chain.gateway datagram written
  rcases sends_one chain.gateway.1 written with none | ⟨packet, one⟩
  · have stays : step rom chain (.loop datagram written) =
        { chain with gateway := UdpGateway.both chain.gateway (.loop datagram written) } := by
      simp only [step, none, gone, ite_self, List.foldl_nil, List.map_nil, List.append_nil]
    rw [none, List.append_nil] at packets
    rw [stays]
    refine ⟨board, full, ?_, ?_, whole, same.trans delivered, forwards, through', begun', behind⟩
    · rw [packets]
      exact results
    · rw [packets]
      exact data
  · rw [one] at packets
    have counts : (chain.gateway.2.packets ++ [packet]).length =
        (chain.results ++ [decide (written = 64)]).length := by
      rw [List.length_append, List.length_append, results]
      rfl
    by_cases success : written = 64
    · have goes : step rom chain (.loop datagram written) =
          { board := onBoard rom chain.board (.write (Relay.reportOf packet))
            gateway := UdpGateway.both chain.gateway (.loop datagram written)
            results := chain.results ++ [decide (written = 64)] } := by
        simp only [step, one, gone, if_pos success, List.foldl_cons, List.foldl_nil, List.map_cons,
          List.map_nil]
      have fits : Relay.Regular chain.board.1 (.write (Relay.reportOf packet)) :=
        ⟨Nat.le_of_eq (reportOf_length packet), trivial⟩
      -- It is one of the packets of the loop, which are data.
      have sent : isData packet = true := by
        have member : packet ∈ (UdpGateway.both chain.gateway (.loop datagram written)).2.packets := by
          rw [packets]
          exact List.mem_append_right _ List.mem_cons_self
        rw [behind.packets] at member
        obtain ⟨buffer, -, rfl⟩ := List.mem_map.mp member
        exact isData_dataPacket buffer
      rw [goes]
      refine ⟨onBoard_kept board _ fits, ?_, ?_, ?_, ?_, ?_, forwards, through', begun', behind⟩
      · intro report member
        rcases List.mem_append.mp member with earlier | last
        · exact full report earlier
        · rw [List.mem_singleton.mp last]
          exact reportOf_length packet
      · rw [packets]
        exact counts
      · rw [packets, succeeded_append _ _ _ _ results, ← data]
        simp only [onBoard, Relay.written, dataOf_append]
        simp [dataOf, frameOf_reportOf, sent, succeeded, success]
      · simpa only [onBoard, Relay.shiftedIn, List.append_nil] using whole
      · rw [same, delivered]
        simp only [onBoard, Relay.read, List.append_nil]
    · -- The packet is lost, and the board has no part in it.
      have drops : step rom chain (.loop datagram written) =
          { chain with
            gateway := UdpGateway.both chain.gateway (.loop datagram written)
            results := chain.results ++ [decide (written = 64)] } := by
        simp only [step, one, gone, if_neg success, List.foldl_nil, List.map_cons, List.map_nil]
      rw [drops]
      refine ⟨board, full, ?_, ?_, whole, same.trans delivered, forwards, through', begun', behind⟩
      · rw [packets]
        exact counts
      · rw [packets, succeeded_append _ _ _ _ results, ← data]
        simp [succeeded, success]

theorem linked_step (linked : Linked start chain) (event : Event) (permitted : Permitted chain event) :
    Linked start (step rom chain event) := by
  cases event with
  | board event behind => exact linked_board linked event behind permitted
  | loop datagram written => exact linked_loop linked datagram written

/-- The start is linked. -/
theorem begin_linked (idle : Idle start) (outcomes : InitOutcomes) (threads : Bool)
    (success : (flexUsbscicosInit boot 1 outcomes threads).1 = 0) :
    Linked start (begin start outcomes threads) := by
  obtain ⟨-, -, nothing, -, -⟩ := idle.started.configured.piped idle.started.empty
  have pending : Relay.pendingToPc start = [] := by
    rw [Relay.pendingToPc, nothing, idle.usb]
    rfl
  refine ⟨⟨idle.started.ready, fun _ => rfl, ?_, ?_⟩, ?_, rfl, rfl, ?_, ?_,
    ⟨[], [], [], UdpGateway.begin_forward success⟩, [], [], UdpGateway.begin_backward success⟩
  · simp only [begin, pending, List.append_nil]
    exact List.Sublist.refl _
  · simp only [begin, pending, List.append_nil]
  · exact fun _ member => absurd member List.not_mem_nil
  · exact fun _ member => absurd member List.not_mem_nil
  · rfl

end Steps

section Runs

/-- Every state of a permitted run is linked. Permitted runs have a permitted board, room in
the ring for what the reader thread brings, and a dsPIC that shifts out whole payloads. -/
theorem chain_linked (rom : Rom) (start : Relay.Board) (idle : Idle start) (outcomes : InitOutcomes)
    (threads : Bool) (success : (flexUsbscicosInit boot 1 outcomes threads).1 = 0) (events : List Event)
    (permitted : Throughout (step rom) Permitted (begin start outcomes threads) events) :
    Reached (step rom) (Linked start) (begin start outcomes threads) events :=
  reached_of_invariant (step rom) Permitted (Linked start)
    (fun _ event linked permitted => linked_step linked event permitted) _ events
    (begin_linked idle outcomes threads success) permitted

/-- Towards the dsPIC: what has been clocked out and what is still due are the packets
of the rounds that are through and whose write has succeeded, one for each, with the
receive buffer of the round. Nothing is said about the order of failures: every round may
lose its packet. -/
theorem datagrams_reach_dspic (rom : Rom) (start : Relay.Board) (idle : Idle start)
    (outcomes : InitOutcomes) (threads : Bool)
    (success : (flexUsbscicosInit boot 1 outcomes threads).1 = 0) (events : List Event)
    (permitted : Throughout (step rom) Permitted (begin start outcomes threads) events) :
    Reached (step rom) (fun chain => ∃ through begun,
      images (fun _ => 0) chain.gateway.2.received = through ++ begun ∧ begun.length ≤ 1 ∧
        through.length = chain.results.length ∧
        chain.board.2.clockedOut ++ Relay.dueOnSpi chain.board.1 [] =
          (succeeded through chain.results).map fun buffer => bytes (dataPacket buffer 60))
      (begin start outcomes threads) events := by
  refine (chain_linked rom start idle outcomes threads success events permitted).mono fun chain linked => ?_
  obtain ⟨through, begun, backward⟩ := linked.backward
  obtain ⟨-, quiet, -, -, -⟩ := idle.started.configured.piped idle.started.empty
  have one : begun.length ≤ 1 := by
    rw [backward.one]
    split <;> decide
  have counts := linked.results
  rw [backward.packets, List.length_map] at counts
  refine ⟨through, begun, backward.received, one, counts, ?_⟩
  have written : Relay.dueOnSpi start chain.board.2.written = dataOf chain.board.2.written := by
    rw [Relay.dueOnSpi, idle.spi, quiet, Relay.dataPackets, List.nil_append,
      packets_full _ _ linked.full]
    rfl
  rw [linked.board.toSpi [], List.append_nil, written, linked.data, backward.packets,
    succeeded_map]

/-- Towards UDP: the payloads sent as datagrams, the one of the present round, those in
the ring and those on the board are, in order and without repetition, some of those the
dsPIC has shifted out with a right checksum, and at every moment all of them exactly if
none has come over another one. -/
theorem packets_reach_udp (rom : Rom) (start : Relay.Board) (idle : Idle start)
    (outcomes : InitOutcomes) (threads : Bool)
    (success : (flexUsbscicosInit boot 1 outcomes threads).1 = 0) (events : List Event)
    (permitted : Throughout (step rom) Permitted (begin start outcomes threads) events) :
    Reached (step rom) (fun chain => ∃ shown flight waiting,
      Repeats (payloadBytes silence) (shown.map payloadBytes) chain.gateway.2.sent ∧ flight.length ≤ 1 ∧
        Represents 256 chain.gateway.1.scicos.usb.rx (waiting.flatMap payloadBytes) ∧
        (shown ++ flight ++ waiting ++ (Relay.pendingToPc chain.board.1).map payloadOf).Sublist
          (chain.board.2.shifted.map payloadOf) ∧
        (shown ++ flight ++ waiting ++ (Relay.pendingToPc chain.board.1).map payloadOf =
          chain.board.2.shifted.map payloadOf ↔ chain.board.2.overwritten = false))
      (begin start outcomes threads) events := by
  refine (chain_linked rom start idle outcomes threads success events permitted).mono fun chain linked => ?_
  obtain ⟨shown, flight, waiting, forward⟩ := linked.forward
  refine ⟨shown, flight, waiting, forward.sent, forward.one, forward.ring, ?_⟩
  rw [← forward.delivered, linked.delivered, ← List.map_append]
  have part := linked.board.toPc
  refine ⟨part.map payloadOf, ?_⟩
  rw [← linked.board.lossless]
  constructor
  · intro same
    have lengths := congrArg List.length same
    rw [List.length_map, List.length_map] at lengths
    exact part.eq_of_length lengths
  · exact congrArg _

/-- A packet of the dsPIC. -/
def channelFrame : Frame := bytes (dataPacket (fun _ => 7) 60)

/-- One round of the gateway whose write times out, and one that receives three bytes; the
board passes its packet on and, behind it, a packet of the dsPIC to the PC; half of
another round. -/
def bothWays : List Event :=
  List.replicate 32 (.loop none (-116)) ++ List.replicate 32 (.loop (some [1, 2, 3]) 64) ++
    ([.hidOut true, .exchange true channelFrame, .main, .main, .main, .main, .exchange false BridgeRuns.zeros,
      .main, .main, .hidIn true].map fun event => .board event fun _ => 0) ++
    List.replicate 16 (.loop none 64)

def blankRom : Rom := ⟨fun _ _ => 0, fun _ _ => 0⟩

theorem connectedBoard_idle : Idle Relay.connectedBoard := ⟨Relay.connectedBoard_started, rfl, rfl⟩

/-- The main loop may go on without a request at endpoint 0. -/
theorem main_permitted (chain : Chain) (behind : Memory) (turn : chain.board.1.stage ≠ .exchange)
    (none : chain.board.1.pipes.system.usb.ustat.head? ≠ some .ep00Out) :
    Permitted chain (.board .main behind) :=
  ⟨Relay.main_regular turn none, trivial, fun reads => absurd rfl reads⟩

theorem loops_permitted (chain : Chain) (count : Nat) (datagram : Option (List Byte)) (written : Int) :
    Throughout (step blankRom) Permitted chain (List.replicate count (.loop datagram written)) := by
  intro done event rest split
  have member : event ∈ List.replicate count (Event.loop datagram written) := by
    rw [split]
    exact List.mem_append_right _ List.mem_cons_self
  rw [List.eq_of_mem_replicate member]
  trivial

theorem bothWays_permitted : Throughout (step blankRom) Permitted
    (begin Relay.connectedBoard smoothOpening true) bothWays := by
  rw [bothWays, throughout_append, throughout_append, throughout_append]
  refine ⟨⟨⟨loops_permitted _ _ _ _, loops_permitted _ _ _ _⟩, ?_⟩, loops_permitted _ _ _ _⟩
  simp only [List.map_cons, List.map_nil, throughout_cons, throughout_nil, and_true]
  refine ⟨?_, ?_, ?_, ?_, ?_, ?_, ?_, ?_, ?_, ?_⟩
  · exact ⟨⟨trivial, trivial⟩, trivial, fun reads => absurd rfl reads⟩
  · refine ⟨⟨?_, trivial⟩, ?_, fun reads => absurd rfl reads⟩
    · change (run (step blankRom) (begin Relay.connectedBoard smoothOpening true)
        (bothWays.take 65)).board.1.stage = .exchange
      decide +kernel
    · intro _
      decide +kernel
  · exact main_permitted _ _ (by decide +kernel) (by decide +kernel)
  · exact main_permitted _ _ (by decide +kernel) (by decide +kernel)
  · exact main_permitted _ _ (by decide +kernel) (by decide +kernel)
  · exact main_permitted _ _ (by decide +kernel) (by decide +kernel)
  · refine ⟨⟨?_, trivial⟩, trivial, fun reads => absurd rfl reads⟩
    change (run (step blankRom) (begin Relay.connectedBoard smoothOpening true)
      (bothWays.take 70)).board.1.stage = .exchange
    decide +kernel
  · exact main_permitted _ _ (by decide +kernel) (by decide +kernel)
  · exact main_permitted _ _ (by decide +kernel) (by decide +kernel)
  · refine ⟨⟨trivial, trivial⟩, trivial, fun _ => ?_⟩
    decide +kernel

/-- In that run both theorems speak of something: the dsPIC has got the packet of the
second round, and the third datagram is its payload. -/
theorem bothWays_dspic :
    ∃ last, last = run (step blankRom) (begin Relay.connectedBoard smoothOpening true) bothWays ∧
      (∃ through begun, images (fun _ => 0) last.gateway.2.received = through ++ begun ∧ begun.length ≤ 1 ∧
        through.length = last.results.length ∧
        last.board.2.clockedOut ++ Relay.dueOnSpi last.board.1 [] =
          (succeeded through last.results).map fun buffer => bytes (dataPacket buffer 60)) ∧
      last.board.2.clockedOut.length = 1 := by
  have reached := datagrams_reach_dspic blankRom Relay.connectedBoard connectedBoard_idle smoothOpening
    true (by decide) bothWays bothWays_permitted
  refine ⟨_, rfl, reached bothWays [] (List.append_nil _).symm, ?_⟩
  decide +kernel

theorem bothWays_udp :
    ∃ last, last = run (step blankRom) (begin Relay.connectedBoard smoothOpening true) bothWays ∧
      (∃ shown flight waiting,
        Repeats (payloadBytes silence) (shown.map payloadBytes) last.gateway.2.sent ∧ flight.length ≤ 1 ∧
          Represents 256 last.gateway.1.scicos.usb.rx (waiting.flatMap payloadBytes) ∧
          (shown ++ flight ++ waiting ++ (Relay.pendingToPc last.board.1).map payloadOf).Sublist
            (last.board.2.shifted.map payloadOf) ∧
          (shown ++ flight ++ waiting ++ (Relay.pendingToPc last.board.1).map payloadOf =
            last.board.2.shifted.map payloadOf ↔ last.board.2.overwritten = false)) ∧
      last.gateway.2.sent = [List.replicate 60 0, List.replicate 60 0, List.replicate 60 7] := by
  have reached := packets_reach_udp blankRom Relay.connectedBoard connectedBoard_idle smoothOpening
    true (by decide) bothWays bothWays_permitted
  refine ⟨_, rfl, reached bothWays [] (List.append_nil _).symm, ?_⟩
  decide +kernel

end Runs

end ScicosFlex.Pic18.GatewayChain
