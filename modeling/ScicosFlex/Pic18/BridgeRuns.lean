import ScicosFlex.Library.Runs
import ScicosFlex.Pic18.Bridge
import ScicosFlex.Usb.Session

/-!
# Runs of the PIC18 bridge

A run is any sequence of calls of `flex_usb_process` after start-up. Towards the
dsPIC every accepted data report is clocked out by the next call and nothing else
is; towards the PC only complete packets leave, each at most once, while the link
is up (`bridge_forwards`).

Towards the PC packets can be lost. A data or acknowledge report ends the call
before the transmission part, so a packet just read waits for a later call, and a
request of the dsPIC in the next call overwrites it. `delivers_iff` says that
nothing else is lost once the bridge is connected.
-/

namespace ScicosFlex.Pic18.BridgeRuns

open Usb Usb.Packet Usb.Session Library.Runs Bridge

/-- The report a call hands to the PC. -/
def hidTx (bridge : Bridge.State) (call : Call) : Option Frame :=
  (flexUsbProcess bridge call).2.hidTxReport

/-- The packet a call clocks out to the dsPIC. -/
def clockedOut (bridge : Bridge.State) (call : Call) : Option Frame :=
  (flexUsbProcess bridge call).2.spi.clockedOut

/-- The call carries an accepted connect command. From it on the link is up, whatever
was before. -/
def Connects (call : Call) : Prop :=
  ∃ report, call.report = some report ∧ accepted report = true ∧
    (ofBytes report).type = headerCommand ∧ command (ofBytes report) = commandConnect

/-- The call carries no rejected report and no disconnect command. A call without a
report keeps the link too. -/
def KeepsLink (call : Call) : Prop :=
  ∀ report, call.report = some report → accepted report = true ∧
    ¬ ((ofBytes report).type = headerCommand ∧ command (ofBytes report) = commandDisconnect)

/-- The last command was a connect, and no report was rejected since. -/
def LinkUp (calls : List Call) : Prop :=
  ∃ earlier connect later, calls = earlier ++ connect :: later ∧ Connects connect ∧
    ∀ call ∈ later, KeepsLink call

/-- From a state on, every packet read from the dsPIC with a right checksum is
handed to the PC once, unchanged and in order, except the one still waiting. -/
def DeliversAll (bridge : Bridge.State) (calls : List Call) : Prop :=
  Conserved next (fun call => (validRead call).toList) (fun bridge call => (hidTx bridge call).toList)
    (fun bridge => (pendingUsb bridge).toList) bridge calls

/-- Whether a packet waits behind a call of a connected bridge: it was there or
was just read, and the call returns before the transmission. -/
def heldBack (held : Bool) (call : Call) : Bool :=
  returnsEarly call && if call.usbDspicReq then crcMatches call.shifted else held

/-- The dsPIC does not shift out a packet over one that is held back. -/
def BufferFree (held : Bool) (call : Call) : Prop := held = true → call.usbDspicReq = false

instance (held : Bool) (call : Call) : Decidable (BufferFree held call) :=
  inferInstanceAs (Decidable (_ → _))

/-- What waits behind a call, and what the call sends, is together what waited
before it or what it read. -/
theorem sent_and_pending (bridge : Bridge.State) (call : Call) :
    (hidTx bridge call).toList ++ (pendingUsb (next bridge call)).toList =
      (if call.usbDspicReq then validRead call else pendingUsb bridge).toList := by
  obtain ⟨sent, left⟩ := process_usb bridge call
  rw [hidTx, sent, left]
  cases (!returnsEarly call && (next bridge call).connected) <;> simp

/-- A call passes on the waiting packet exactly when it does not read over it. -/
theorem passes_on_iff (bridge : Bridge.State) (call : Call) :
    PassesOn next (fun call => (validRead call).toList)
      (fun bridge call => (hidTx bridge call).toList)
      (fun bridge => (pendingUsb bridge).toList) bridge call ↔
      BufferFree bridge.toSendUsb call := by
  unfold PassesOn BufferFree
  rw [sent_and_pending]
  cases request : call.usbDspicReq with
  | false => simp [validRead, request]
  | true =>
    cases waiting : bridge.toSendUsb with
    | false => simp [pendingUsb, waiting]
    | true => simp [pendingUsb, waiting]

/-- After any call the link is up if the call carries a connect command, or if it
was up and the call keeps it. -/
theorem link_step (bridge : Bridge.State) (call : Call) :
    (next bridge call).connected = true ↔
      Connects call ∨ bridge.connected = true ∧ KeepsLink call := by
  rw [next_connected, ← exchange_connected bridge call]
  generalize (spiExchange bridge call).1 = exchanged
  cases present : call.report with
  | none => simp [parseReport, Connects, KeepsLink, present]
  | some report =>
    simp only [Connects, KeepsLink, present, Option.some.injEq, exists_eq_left', forall_eq',
      parseReport]
    have kinds : headerCommand ≠ headerData ∧ headerCommand ≠ headerAck ∧
        headerData ≠ headerCommand ∧ headerAck ≠ headerCommand ∧ headerAck ≠ headerData := by
      decide
    have codes : commandConnect ≠ commandDisconnect ∧ commandDisconnect ≠ commandConnect := by
      decide
    by_cases valid : accepted report = true
    · by_cases data : (ofBytes report).type = headerData
      · simp [valid, data, kinds]
      · by_cases ack : (ofBytes report).type = headerAck
        · simp [valid, ack, kinds]
        · by_cases kind : (ofBytes report).type = headerCommand
          · by_cases up : command (ofBytes report) = commandConnect
            · simp [valid, kind, kinds, obey, up]
            · by_cases down : command (ofBytes report) = commandDisconnect
              · simp [valid, kind, kinds, obey, down, codes]
              · simp [valid, kind, kinds, obey, up, down]
          · simp [valid, data, ack, kind]
    · simp [valid]

/-- The link is only up while the last command was a connect. By induction on the calls,
from the last one back. -/
theorem connected_linkUp (calls : List Call) (up : (run next boot calls).connected = true) :
    LinkUp calls := by
  induction calls using List.reverseRecOn with
  | nil => simp [boot] at up
  | append_singleton done call inductionHypothesis =>
    rw [run_append, run_cons, run_nil, link_step] at up
    rcases up with connects | ⟨before, keeps⟩
    · exact ⟨done, call, [], rfl, connects, by simp⟩
    · obtain ⟨earlier, connect, later, rfl, connects, kept⟩ := inductionHypothesis before
      refine ⟨earlier, connect, later ++ [call], by simp, connects, ?_⟩
      intro other member
      rcases List.mem_append.mp member with old | new
      · exact kept other old
      · rw [List.mem_singleton.mp new]
        exact keeps

/-- The packet that waits for the PC has a right checksum. Others are never kept. -/
def Complete (bridge : Bridge.State) : Prop := ∀ packet ∈ pendingUsb bridge, crcMatches packet = true

/-- A call that starts with a complete waiting packet sends and leaves only complete
packets. What comes from the dsPIC is looked at before it is kept. -/
theorem complete_step (bridge : Bridge.State) (call : Call) (complete : Complete bridge) :
    Complete (next bridge call) ∧ ∀ packet ∈ hidTx bridge call, crcMatches packet = true := by
  have waiting : ∀ packet ∈ (if call.usbDspicReq then validRead call else pendingUsb bridge),
      crcMatches packet = true := by
    intro packet member
    cases request : call.usbDspicReq with
    | false =>
      simp only [request, Bool.false_eq_true, if_false] at member
      exact complete packet member
    | true =>
      simp only [request, if_true, validRead, Bool.true_and, Option.mem_def] at member
      split at member
      · rename_i right
        rw [← Option.some.inj member]
        exact right
      · exact absurd member (by simp)
  obtain ⟨sent, left⟩ := process_usb bridge call
  constructor
  · intro packet member
    rw [left] at member
    split at member
    · exact absurd member (by simp)
    · exact waiting packet member
  · intro packet member
    rw [hidTx, sent] at member
    split at member
    · exact waiting packet member
    · exact absurd member (by simp)

/-- Along a run, what is clocked out is what was scheduled before the run and
then, one call later each, the accepted data reports. -/
theorem spi_outputs (bridge : Bridge.State) (calls : List Call) :
    outputs next clockedOut bridge calls =
      (pendingSpi bridge :: calls.map acceptedData).dropLast := by
  induction calls generalizing bridge with
  | nil => rfl
  | cons call rest inductionHypothesis =>
    obtain ⟨out, scheduled⟩ := process_spi bridge call
    rw [outputs_cons, inductionHypothesis, scheduled, clockedOut, out]
    rfl

/-- Both directions of any run. Every accepted data report is clocked out once,
by the next call, and nothing else is. Every packet handed to the PC has a right
checksum and leaves while the link is up, and the packets handed over are, in
order and without repetition, some of those read with a right checksum. -/
theorem bridge_forwards (calls : List Call) :
    outputs next clockedOut boot calls = (none :: calls.map acceptedData).dropLast ∧
      (∀ done call rest, calls = done ++ call :: rest →
        ∀ packet, hidTx (run next boot done) call = some packet →
          packet 0 = frameSum packet ∧ LinkUp (done ++ [call])) ∧
      (outputs next (fun bridge call => (hidTx bridge call).toList) boot calls).flatten.Sublist
        (calls.filterMap validRead) := by
  refine ⟨spi_outputs boot calls, ?_, ?_⟩
  · intro done call rest _ packet sent
    have complete : Complete (run next boot done) :=
      reached_of_invariant next (fun _ _ => True) Complete
        (fun bridge call complete _ => (complete_step bridge call complete).1) boot done
        (by simp [Complete, pendingUsb, boot]) (fun _ _ _ _ => trivial) done []
        (List.append_nil done).symm
    have right := (complete_step _ call complete).2 packet sent
    refine ⟨by simpa [crcMatches, ofBytes] using right, connected_linkUp _ ?_⟩
    rw [run_append, run_cons, run_nil]
    apply Decidable.byContradiction
    intro down
    have silent := (process_usb (run next boot done) call).1
    rw [Bool.not_eq_true] at down
    simp [hidTx, down] at sent silent
    rw [silent] at sent
    exact absurd sent (by simp)
  · have flow := delivered_sublist next (fun call => (validRead call).toList)
      (fun bridge call => (hidTx bridge call).toList) (fun bridge => (pendingUsb bridge).toList)
      (fun bridge call => by
        rw [sent_and_pending]
        cases call.usbDspicReq <;> simp) boot calls
    rw [← List.filterMap_eq_flatMap_toList] at flow
    exact (List.sublist_append_left _ _).trans flow

/-- One call of a connected bridge whose link is kept: it stays connected, and
whether a packet waits afterwards depends on the inputs alone. -/
theorem held_step (bridge : Bridge.State) (call : Call) (up : bridge.connected = true)
    (keeps : KeepsLink call) :
    (next bridge call).connected = true ∧
      (next bridge call).toSendUsb = heldBack bridge.toSendUsb call := by
  have still : (next bridge call).connected = true := (link_step bridge call).mpr (Or.inr ⟨up, keeps⟩)
  have waits (state : Bridge.State) : state.toSendUsb = (pendingUsb state).isSome := by
    cases waiting : state.toSendUsb <;> simp [pendingUsb, waiting]
  refine ⟨still, ?_⟩
  have left := (process_usb bridge call).2
  rw [still] at left
  rw [waits, left, heldBack]
  cases early : returnsEarly call with
  | false => simp
  | true =>
    cases request : call.usbDspicReq with
    | false => simp [waits bridge]
    | true => cases right : crcMatches call.shifted <;> simp [validRead, request, right]

/-- The condition on the bridge's flag is the condition on the inputs. -/
theorem free_iff_inputs (bridge : Bridge.State) (calls : List Call) (up : bridge.connected = true)
    (legal : ∀ call ∈ calls, KeepsLink call) :
    Throughout next (fun bridge call => BufferFree bridge.toSendUsb call) bridge calls ↔
      Throughout heldBack BufferFree bridge.toSendUsb calls := by
  induction calls generalizing bridge with
  | nil => exact ⟨fun _ => throughout_nil _ _ _, fun _ => throughout_nil _ _ _⟩
  | cons call rest inductionHypothesis =>
    obtain ⟨still, held⟩ := held_step bridge call up (legal call List.mem_cons_self)
    rw [throughout_cons, throughout_cons, ← held, inductionHypothesis (next bridge call) still
      fun other member => legal other (List.mem_cons_of_mem _ member)]

/-- Delivery from any state of a connected bridge. That a packet is held back is all
that is carried from call to call. -/
theorem delivers_from (bridge : Bridge.State) (calls : List Call) (up : bridge.connected = true)
    (legal : ∀ call ∈ calls, KeepsLink call) :
    DeliversAll bridge calls ↔ Throughout heldBack BufferFree bridge.toSendUsb calls := by
  rw [DeliversAll, conserved_iff, ← free_iff_inputs bridge calls up legal]
  exact forall_congr' fun done => forall_congr' fun call => forall_congr' fun rest =>
    forall_congr' fun _ => passes_on_iff _ _

/-- A connect command leaves no packet waiting. -/
theorem connect_sends (bridge : Bridge.State) (connect : Call) (connects : Connects connect) :
    (next bridge connect).connected = true ∧ (next bridge connect).toSendUsb = false := by
  have up : (next bridge connect).connected = true :=
    (link_step bridge connect).mpr (Or.inl connects)
  obtain ⟨report, present, valid, kind, -⟩ := connects
  have late : returnsEarly connect = false := by
    have kinds : headerCommand ≠ headerData ∧ headerCommand ≠ headerAck := by decide
    simp [returnsEarly, present, valid, kind, kinds]
  have left := (process_usb bridge connect).2
  rw [up, late] at left
  refine ⟨up, ?_⟩
  cases waiting : (next bridge connect).toSendUsb with
  | false => rfl
  | true => simp [pendingUsb, waiting] at left

/-- From the connect command on, as long as the link is kept, every valid packet
read from the dsPIC reaches the PC if and only if the dsPIC never shifts out a
packet while another one is held back behind data or acknowledge reports. -/
theorem delivers_iff (before : List Call) (connect : Call) (after : List Call)
    (connects : Connects connect) (legal : ∀ call ∈ after, KeepsLink call) :
    DeliversAll (run next boot (before ++ [connect])) after ↔
      Throughout heldBack BufferFree false after := by
  rw [run_append, run_cons, run_nil]
  obtain ⟨up, empty⟩ := connect_sends (run next boot before) connect connects
  rw [delivers_from _ after up legal, empty]

/-- Calls with a packet of the library as their report. -/
def reporting (request : Bool) (shifted : Frame) (packet : FlexUsbPacket) : Call :=
  { usbDspicReq := request, shifted := shifted, report := some (bytes packet) }

/-- A packet of zeros is valid, and so is one that starts with two ones. -/
def zeros : Frame := fun _ => 0
def ones : Frame := fun position => if position.val ≤ 1 then 1 else 0

/-- The connect command of the library. -/
def connecting : Call := reporting false zeros (commandPacket commandConnect)

theorem connecting_connects : Connects connecting :=
  ⟨_, rfl, by decide +kernel, by decide +kernel, by decide +kernel⟩

/-- A read, a data report, and a read with a data report whose packet the next,
silent call sends: everything is delivered. -/
theorem spaced_reads_deliver :
    DeliversAll (run next boot ([] ++ [connecting]))
      [⟨true, ones, none⟩, reporting false zeros (dataPacket (fun _ => 0) 8),
        reporting true ones (dataPacket (fun _ => 0) 8), ⟨false, zeros, none⟩] := by
  refine (delivers_iff [] connecting _ connecting_connects ?_).mpr ?_
  · intro call member report present
    simp only [List.mem_cons, List.not_mem_nil, or_false] at member
    rcases member with rfl | rfl | rfl | rfl
    · cases present
    · obtain rfl := Option.some.inj present
      exact ⟨by decide +kernel, by decide +kernel⟩
    · obtain rfl := Option.some.inj present
      exact ⟨by decide +kernel, by decide +kernel⟩
    · cases present
  · simp only [throughout_cons]
    exact ⟨by decide +kernel, by decide +kernel, by decide +kernel, by decide +kernel,
      throughout_nil _ _ _⟩

/-- Not everything is delivered in general: a data report in the call that reads
one packet holds it back, and the request of the next call overwrites it. -/
theorem held_packet_is_lost :
    ¬ ∀ (before : List Call) (connect : Call) (after : List Call), Connects connect →
      (∀ call ∈ after, KeepsLink call) →
      DeliversAll (run next boot (before ++ [connect])) after := by
  intro always
  have lost := always [] connecting
    [reporting true ones (dataPacket (fun _ => 0) 8), ⟨true, zeros, none⟩] connecting_connects (by
      intro call member report present
      simp only [List.mem_cons, List.not_mem_nil, or_false] at member
      rcases member with rfl | rfl
      · obtain rfl := Option.some.inj present
        exact ⟨by decide +kernel, by decide +kernel⟩
      · cases present)
  have free := (passes_on_iff _ _).mp ((conserved_iff _ _ _ _ _ _).mp lost
    [reporting true ones (dataPacket (fun _ => 0) 8)] ⟨true, zeros, none⟩ [] rfl)
  exact absurd (free (by decide +kernel)) (by decide)

end ScicosFlex.Pic18.BridgeRuns
