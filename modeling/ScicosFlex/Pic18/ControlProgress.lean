import ScicosFlex.Pic18.ControlReads

/-!
# A host that goes on reading gets everything

`polled_reads`: when the device is attentive and endpoint 0 waits for a request, a
request for a descriptor and then one IN packet after the other give the host the
whole descriptor, however much the firmware does for the HID pipes and the bus in
between, as long as its driver runs once for each packet.
-/

namespace ScicosFlex.Pic18.Stack

open Library.Packets Library.Runs

section Attention

variable (rom : Rom) {usb : Usb} {system : System}

/-- The device is switched on, and nothing but transactions waits for the driver. Its
next call serves a transaction then. -/
structure Attentive (usb : Usb) : Prop where
  usben : usb.usben = true
  suspnd : usb.suspnd = false
  urstif : usb.urstif = false
  idleif : usb.idleif = false
  trnie : usb.uie.trnie = true
  alive : DeviceState.default.value ≤ usb.usbDeviceState.value

/-- Steps that have no part in control transfers. -/
def Quiet : Step → Prop
  | .startOfFrame | .busError | .busActivity | .lineState _ | .checkBusStatus | .txReport _ _
  | .rxReport _ => True
  | _ => False

/-- A change that leaves endpoint 0 and the attention as they are, such as any step on
another endpoint. -/
structure Undisturbed (before after : Usb) : Prop where
  endpoint : endpoint after = endpoint before
  ustat : after.ustat = before.ustat
  attentive : Attentive before → Attentive after

theorem Undisturbed.refl (usb : Usb) : Undisturbed usb usb := ⟨rfl, rfl, id⟩

theorem Undisturbed.trans {first second third : Usb} (one : Undisturbed first second)
    (other : Undisturbed second third) : Undisturbed first third :=
  ⟨other.endpoint.trans one.endpoint, other.ustat.trans one.ustat,
    fun before => other.attentive (one.attentive before)⟩

/-- A conditional change. -/
theorem Undisturbed.when (condition : Bool) {next : Usb}
    (changed : condition = true → Undisturbed usb next) :
    Undisturbed usb (if condition then next else usb) := by
  cases condition with
  | true => exact changed rfl
  | false => exact .refl usb

/-- An attentive driver comes to the next transaction. The tasks before it clear flags,
and as there is no reset and no suspension they leave endpoint 0 alone. -/
theorem driver_reaches (attentive : Attentive usb) (on : usb.uep0 = epCtrl) :
    ∃ calm, Undisturbed usb calm ∧
      usbDriverService rom usb = serviceTransaction rom calm := by
  have plugged : usb.usbDeviceState ≠ .detached := by
    intro detached
    have alive := attentive.alive
    rw [detached] at alive
    exact absurd alive (by decide)
  let awake := if usb.actvif && usb.uie.actvie then usbWakeFromSuspend usb else usb
  have woken : Undisturbed usb awake := .when _ fun _ =>
    ⟨rfl, rfl, fun before => ⟨before.usben, rfl, before.urstif, before.idleif, before.trnie,
      before.alive⟩⟩
  have here := woken.attentive attentive
  let sof := if awake.sofif && awake.uie.sofie then usbSofHandler awake else awake
  have afterSof : Undisturbed awake sof := .when _ fun _ =>
    ⟨rfl, rfl, fun before => ⟨before.usben, before.suspnd, before.urstif, before.idleif,
      before.trnie, before.alive⟩⟩
  let stall := if sof.stallif && sof.uie.stallie then usbStallHandler sof else sof
  have afterStall : Undisturbed sof stall := .when _ fun _ => by
    have same : sof.uep0 = epCtrl :=
      (congrArg Endpoint.uep0 (woken.trans afterSof).endpoint).trans on
    have none : sof.uep0.getLsbD 0 = false := by
      rw [same]
      decide
    simp only [usbStallHandler, none, Bool.false_eq_true, if_false]
    exact ⟨rfl, rfl, fun before => ⟨before.usben, before.suspnd, before.urstif, before.idleif,
      before.trnie, before.alive⟩⟩
  let calm := if stall.uerrif && stall.uie.uerrie then usbErrorHandler stall else stall
  have afterError : Undisturbed stall calm := .when _ fun _ =>
    ⟨rfl, rfl, fun before => ⟨before.usben, before.suspnd, before.urstif, before.idleif,
      before.trnie, before.alive⟩⟩
  refine ⟨calm, ((woken.trans afterSof).trans afterStall).trans afterError, ?_⟩
  -- Neither a bus reset nor idle time stands in the way.
  have flags : serviceFlags awake = calm := by
    simp only [serviceFlags, here.urstif, Bool.false_and, Bool.false_eq_true, if_false, here.idleif]
    rfl
  have driven : usbDriverService rom usb =
      if awake.suspnd then awake else serviceTransaction rom (serviceFlags awake) := if_neg plugged
  rw [driven, here.suspnd, flags]
  rfl

end Attention

section Polling

variable (rom : Rom) {system : System} {reply : List Byte}

/-- The endpoint sends a reply, with the transactions the driver has not seen. How much
the host has read already is in `Sound`. -/
structure Sending (system : System) (reply : List Byte) (queue : List Ustat) : Prop where
  sound : Sound system
  attentive : Attentive system.usb
  running : system.usb.pktdis = false
  on : system.usb.uep0 = epCtrl
  state : system.usb.ctrlTrfState = .ctrlTrfTx
  queue : system.usb.ustat = queue
  reply : system.usb.reply = reply

/-- The host has read the first packets of what it is sent. -/
theorem Sending.received {queue : List Ustat} (sending : Sending system reply queue) :
    system.received = replyPackets reply system.received.length := by
  have packets := sending.sound.packets
  rwa [sending.reply] at packets

/-- Quiet steps do not disturb it: they set flags that the driver clears again, or
belong to the other endpoint. -/
theorem Sending.quiet {queue : List Ustat} (sending : Sending system reply queue) (action : Step)
    (quiet : Quiet action) :
    Sending (step rom system action) reply queue ∧
      (step rom system action).received = system.received := by
  have orderly : Orderly system action := by
    cases action <;> first | exact trivial | exact quiet.elim
  have undisturbed : Undisturbed system.usb (step rom system action).usb := by
    have flags (after : Usb) (same : endpoint after = endpoint system.usb)
        (ustat : after.ustat = system.usb.ustat)
        (bus : busSide after = busSide system.usb)
        (alive : after.usbDeviceState = system.usb.usbDeviceState) : Undisturbed system.usb after := by
      refine ⟨same, ustat, fun before => ?_⟩
      simp only [busSide, Prod.mk.injEq] at bus
      obtain ⟨usben, suspnd, urstif, idleif, uie⟩ := bus
      exact ⟨usben.trans before.usben, suspnd.trans before.suspnd, urstif.trans before.urstif,
        idleif.trans before.idleif, by rw [uie]; exact before.trnie, by rw [alive]; exact before.alive⟩
    cases action with
    | startOfFrame | busError | busActivity | lineState | txReport => exact flags _ rfl rfl rfl rfl
    | rxReport len =>
      exact hidRxReport_keeps (Undisturbed system.usb) len (flags _ rfl rfl rfl rfl)
        fun _ => flags _ rfl rfl rfl rfl
    | checkBusStatus =>
      have enabled : usbCheckBusStatus system.usb = system.usb := by
        have attached : system.usb.usbDeviceState ≠ .attached := by
          intro is
          have alive := sending.attentive.alive
          rw [is] at alive
          exact absurd alive (by decide)
        simp only [usbCheckBusStatus, sending.attentive.usben, if_true, if_neg attached]
      change Undisturbed system.usb (usbCheckBusStatus system.usb)
      rw [enabled]
      exact .refl _
    | setupToken | outToken | inToken | hidOutToken | hidInToken | busReset | busIdle
    | driverService => exact quiet.elim
  have same := undisturbed.endpoint
  refine ⟨⟨sending.sound.step action orderly, undisturbed.attentive sending.attentive,
    (congrArg Endpoint.pktdis same).trans sending.running,
    (congrArg Endpoint.uep0 same).trans sending.on,
    (congrArg Endpoint.state same).trans sending.state,
    undisturbed.ustat.trans sending.queue,
    (congrArg Endpoint.reply same).trans sending.reply⟩, ?_⟩
  cases action <;> first | rfl | exact quiet.elim

/-- An IN packet gets the next packet of the reply, and leaves a transaction for the driver. -/
theorem Sending.readNext (sending : Sending system reply []) :
    Sending (step rom system .inToken) reply [.ep00In] ∧
      (step rom system .inToken).received.length = system.received.length + 1 := by
  have orderly : Orderly system .inToken := by
    intro _
    rw [sending.queue]
    exact List.not_mem_nil
  have owned : system.usb.ep0Bi.uown = true ∧ system.usb.ep0Bi.bstall = false := by
    have state := sending.state
    have queue : (endpoint system.usb).queue = [] := by
      change system.usb.ustat.filter Ustat.isEp0 = []
      rw [sending.queue]
      rfl
    cases sending.sound.phase with
    | off uep0 => exact absurd (uep0.symm.trans sending.on) (by decide)
    | ready _ _ _ waits | stalled _ _ _ _ waits =>
      exact absurd (waits.symm.trans state) (by decide)
    | asked _ stopped => exact absurd (stopped.symm.trans sending.running) (by decide)
    | reading _ _ _ _ _ stat =>
      rw [Bdt.uown, Bdt.bstall, show system.usb.ep0Bi.stat = _ from stat, Stack.sending]
      split <;> decide
    | read _ _ other => exact absurd (other.symm.trans queue) (List.cons_ne_nil _ _)
    | ended _ _ other =>
      rcases other with one | two
      · exact absurd (one.symm.trans queue) (List.cons_ne_nil _ _)
      · exact absurd (two.symm.trans queue) (List.cons_ne_nil _ _)
    | confirming _ _ _ confirms | confirmed _ _ _ confirms =>
      exact absurd (confirms.symm.trans state) (by decide)
  have answers : (listening system.usb && system.usb.uep0.getLsbD 1 && system.usb.ep0Bi.uown) = true := by
    rw [listening, sending.attentive.usben, sending.attentive.suspnd, sending.running, sending.on,
      owned.1]
    decide
  have given : sieIn system.usb =
      ({ system.usb with
         ep0Bi := handBack system.usb.ep0Bi inToken system.usb.ep0Bi.cnt
         ustat := system.usb.ustat ++ [.ep00In] },
       some (system.usb.ep0Bi.dts,
         (buffer system.usb system.usb.ep0Bi.adr).bytes system.usb.ep0Bi.cnt.toNat)) := by
    simp only [sieIn, answers, if_true, owned.2, Bool.false_eq_true, if_false]
  have after : (step rom system .inToken).usb =
      { system.usb with
        ep0Bi := handBack system.usb.ep0Bi inToken system.usb.ep0Bi.cnt
        ustat := system.usb.ustat ++ [.ep00In] } := congrArg Prod.fst given
  have attentive := sending.attentive
  refine ⟨⟨sending.sound.step .inToken orderly, ?_, ?_, ?_, ?_, ?_, ?_⟩, ?_⟩
  · rw [after]
    exact ⟨attentive.usben, attentive.suspnd, attentive.urstif, attentive.idleif, attentive.trnie,
      attentive.alive⟩
  · rw [after]
    exact sending.running
  · rw [after]
    exact sending.on
  · rw [after]
    exact sending.state
  · rw [after]
    change system.usb.ustat ++ [.ep00In] = _
    rw [sending.queue]
    rfl
  · rw [after]
    exact sending.reply
  · change (system.received ++ (sieIn system.usb).2.toList).length = _
    rw [given, List.length_append]
    rfl

/-- The handler of IN packets leaves the device attentive and sending. -/
theorem inHandler_attentive {usb : Usb} (attentive : Attentive usb)
    (state : usb.ctrlTrfState = .ctrlTrfTx) :
    Attentive (usbCtrlTrfInHandler usb) ∧ (usbCtrlTrfInHandler usb).pktdis = usb.pktdis ∧
      (usbCtrlTrfInHandler usb).uep0 = usb.uep0 ∧
      (usbCtrlTrfInHandler usb).ctrlTrfState = .ctrlTrfTx ∧
      (usbCtrlTrfInHandler usb).reply = usb.reply := by
  have checked : Attentive (mUSBCheckAdrPendingState usb) ∧
      (mUSBCheckAdrPendingState usb).pktdis = usb.pktdis ∧
      (mUSBCheckAdrPendingState usb).uep0 = usb.uep0 ∧
      (mUSBCheckAdrPendingState usb).ctrlTrfState = usb.ctrlTrfState ∧
      (mUSBCheckAdrPendingState usb).reply = usb.reply := by
    unfold mUSBCheckAdrPendingState
    split
    · refine ⟨⟨attentive.usben, attentive.suspnd, attentive.urstif, attentive.idleif,
        attentive.trnie, ?_⟩, rfl, rfl, rfl, rfl⟩
      simp only
      split <;> decide
    · exact ⟨attentive, rfl, rfl, rfl, rfl⟩
  obtain ⟨here, running, uep0, sends, reply⟩ := checked
  unfold usbCtrlTrfInHandler
  rw [if_pos (sends.trans state)]
  exact ⟨⟨here.usben, here.suspnd, here.urstif, here.idleif, here.trnie, here.alive⟩, running, uep0,
    sends.trans state, reply⟩

/-- The driver makes the packet behind it ready. That this is the right one is in
`Sound` and need not be shown again. -/
theorem Sending.prepareNext (sending : Sending system reply [.ep00In]) :
    Sending (step rom system .driverService) reply [] := by
  obtain ⟨calm, undisturbed, reached⟩ := driver_reaches rom sending.attentive sending.on
  have attentive := undisturbed.attentive sending.attentive
  have queue : calm.ustat = [.ep00In] := undisturbed.ustat.trans sending.queue
  have state : calm.ctrlTrfState = .ctrlTrfTx :=
    (congrArg Endpoint.state undisturbed.endpoint).trans sending.state
  have alive : ¬ calm.usbDeviceState.value < DeviceState.default.value :=
    Nat.not_lt.mpr attentive.alive
  have after : usbDriverService rom system.usb = { usbCtrlTrfInHandler calm with ustat := [] } := by
    have kept : (usbCtrlTrfInHandler calm).ustat = calm.ustat := by
      unfold usbCtrlTrfInHandler mUSBCheckAdrPendingState
      split <;> simp only <;> split <;> rfl
    have handled : usbCtrlEPService rom calm = usbCtrlTrfInHandler calm := by
      rw [usbCtrlEPService, queue]
      rfl
    have pending : (!calm.ustat.isEmpty && calm.uie.trnie) = true := by
      rw [queue, attentive.trnie]
      rfl
    rw [reached, serviceTransaction, if_neg alive, if_pos pending]
    simp only [handled, kept, queue, List.tail_cons]
  -- Taking a new address does not take the device out of use.
  obtain ⟨still, running, uep0, sends, same⟩ := inHandler_attentive attentive state
  have endpoint := undisturbed.endpoint
  refine ⟨sending.sound.step .driverService trivial, ?_, ?_, ?_, ?_, ?_, ?_⟩
  all_goals
    simp only [step]
    rw [after]
  · exact ⟨still.usben, still.suspnd, still.urstif, still.idleif, still.trnie, still.alive⟩
  · exact running.trans ((congrArg Endpoint.pktdis endpoint).trans sending.running)
  · exact uep0.trans ((congrArg Endpoint.uep0 endpoint).trans sending.on)
  · exact sends
  · exact same.trans ((congrArg Endpoint.reply endpoint).trans sending.reply)

/-- A request for a descriptor is none about interfaces. -/
theorem descriptor_own (pkt : Area) (bytes : List Byte) (found : descriptor pkt = some bytes) :
    NamesOwn pkt := by
  intro _ interface
  unfold descriptor at found
  split at found
  · rename_i both
    rw [both.2] at interface
    exact absurd interface (by decide)
  · cases found

/-- A request for a descriptor, taken and answered. The hardware has to take it, which
depends on the state of endpoint 0, and the driver must not be about to confirm an
earlier one. -/
theorem asks_sends (sound : Sound system) (attentive : Attentive system.usb)
    (idle : system.usb.ustat = []) (takes : takesSetup system.usb = true)
    (waits : system.usb.ctrlTrfState ≠ .ctrlTrfRx) (pkt : Area)
    (bytes : List Byte) (found : descriptor pkt = some bytes) :
    let after := run (step rom) system [.setupToken pkt, .driverService]
    Sending after (bytes.take (wLength pkt).toNat) [] ∧ after.received = [] := by
  intro after
  let asked := step rom system (.setupToken pkt)
  have is : asked = { usb := sieSetup system.usb pkt, request := some pkt, received := [] } :=
    if_pos takes
  have soundAsked : Sound asked :=
    sound.step (.setupToken pkt) ⟨attentive.urstif, waits, descriptor_own pkt bytes found⟩
  have stopped : asked.usb.pktdis = true := by rw [is]; rfl
  have queue : asked.usb.ustat = [.ep00Out] := by
    rw [is]
    change system.usb.ustat ++ [.ep00Out] = _
    rw [idle]
    rfl
  have here : Attentive asked.usb := by
    rw [is]
    unfold sieSetup fill
    cases system.usb.ep0Bo.adr <;>
      exact ⟨attentive.usben, attentive.suspnd, attentive.urstif, attentive.idleif, attentive.trnie,
        attentive.alive⟩
  obtain ⟨on, setup⟩ : asked.usb.uep0 = epCtrl ∧ asked.usb.ep0Bo.pid = setupToken := by
    cases soundAsked.phase with
    | asked on _ _ _ _ setup => exact ⟨on.uep0, setup⟩
    | off _ running | ready _ running | reading _ running | read _ running | ended _ running
    | confirming _ running | confirmed _ running | stalled _ _ running =>
      exact absurd (stopped.symm.trans running) (by decide)
  obtain ⟨calm, undisturbed, reached⟩ := driver_reaches rom here on
  have attentiveCalm := undisturbed.attentive here
  have endpoint := undisturbed.endpoint
  have queueCalm : calm.ustat = [.ep00Out] := undisturbed.ustat.trans queue
  obtain ⟨running, rest, uep0, bus, -, alive⟩ := setupHandler_same rom calm
  have answered : usbDriverService rom asked.usb =
      { usbCtrlTrfSetupHandler rom calm with ustat := [] } := by
    have notBefore : ¬ calm.usbDeviceState.value < DeviceState.default.value :=
      Nat.not_lt.mpr attentiveCalm.alive
    have pid : calm.ep0Bo.pid = setupToken :=
      (congrArg (fun e => e.out.pid) endpoint).trans setup
    have handled : usbCtrlEPService rom calm = usbCtrlTrfSetupHandler rom calm := by
      rw [usbCtrlEPService, queueCalm]
      exact if_pos pid
    have pending : (!calm.ustat.isEmpty && calm.uie.trnie) = true := by
      rw [queueCalm, attentiveCalm.trnie]
      rfl
    rw [reached, serviceTransaction, if_neg notBefore, if_pos pending]
    simp only [handled, rest, queueCalm, List.tail_cons]
  have setupPkt : calm.setupPkt = asked.usb.setupPkt := congrArg Endpoint.setup endpoint
  have request : asked.request = some pkt := by rw [is]
  obtain ⟨same, length⟩ := request_congr (soundAsked.kept stopped pkt request)
  rw [← setupPkt] at same length
  obtain ⟨told, sends⟩ := setupHandler_told rom calm bytes (same.trans found)
  have afterIs : after.usb = { usbCtrlTrfSetupHandler rom calm with ustat := [] } := answered
  have nothing : after.received = [] := by
    change asked.received = []
    rw [is]
  refine ⟨⟨soundAsked.step .driverService trivial, ?_, ?_, ?_, ?_, ?_, ?_⟩, nothing⟩
  · rw [afterIs]
    simp only [busSide, Prod.mk.injEq] at bus
    obtain ⟨usben, suspnd, urstif, idleif, uie⟩ := bus
    exact ⟨usben.trans attentiveCalm.usben, suspnd.trans attentiveCalm.suspnd,
      urstif.trans attentiveCalm.urstif, idleif.trans attentiveCalm.idleif,
      (congrArg Uie.trnie uie).trans attentiveCalm.trnie, alive attentiveCalm.alive⟩
  · rw [afterIs]
    exact running
  · rw [afterIs]
    exact uep0.trans ((congrArg Endpoint.uep0 endpoint).trans on)
  · rw [afterIs]
    exact sends
  · rw [afterIs]
  · rw [afterIs]
    change (usbCtrlTrfSetupHandler rom calm).reply = _
    rw [told, length]

/-- A round of the host and the firmware: an IN packet, quiet steps, and the driver. -/
def round (noise : List Step) : List Step := .inToken :: (noise ++ [.driverService])

/-- Quiet steps, any number of them. -/
theorem Sending.noise {queue : List Ustat} (sending : Sending system reply queue)
    (noise : List Step) (quiet : ∀ action ∈ noise, Quiet action) :
    Sending (run (step rom) system noise) reply queue ∧
      (run (step rom) system noise).received = system.received := by
  induction noise generalizing system with
  | nil => exact ⟨sending, rfl⟩
  | cons action rest inductionHypothesis =>
    obtain ⟨next, same⟩ := sending.quiet rom action (quiet action List.mem_cons_self)
    obtain ⟨last, unread⟩ := inductionHypothesis next fun other member =>
      quiet other (List.mem_cons_of_mem _ member)
    exact ⟨last, unread.trans same⟩

/-- Every round brings a packet. -/
theorem Sending.rounds (sending : Sending system reply []) (rounds : List (List Step))
    (quiet : ∀ noise ∈ rounds, ∀ action ∈ noise, Quiet action) :
    Sending (run (step rom) system (rounds.flatMap round)) reply [] ∧
      (run (step rom) system (rounds.flatMap round)).received.length =
        system.received.length + rounds.length := by
  induction rounds generalizing system with
  | nil => exact ⟨sending, rfl⟩
  | cons noise rest inductionHypothesis =>
    obtain ⟨read, one⟩ := sending.readNext rom
    obtain ⟨still, same⟩ := read.noise rom noise (quiet noise List.mem_cons_self)
    obtain ⟨last, more⟩ := inductionHypothesis (still.prepareNext rom) fun other member =>
      quiet other (List.mem_cons_of_mem _ member)
    have split : run (step rom) system ((noise :: rest).flatMap round) =
        run (step rom) (step rom (run (step rom) (step rom system .inToken) noise) .driverService)
          (rest.flatMap round) := by
      rw [List.flatMap_cons, round, List.cons_append, List.append_assoc, run_cons, run_append]
      rfl
    rw [split]
    refine ⟨last, more.trans ?_⟩
    have kept : (step rom (run (step rom) (step rom system .inToken) noise) .driverService).received =
        (step rom system .inToken).received := same
    rw [kept, one, List.length_cons]
    omega

/-- A host that goes on reading gets the descriptor, packet by packet, and has all
of it after one packet more than are full. The device must be able to take the request:
attentive, with nothing pending, and not about to confirm another one. -/
theorem polled_reads (rom : Rom) (steps : List Step)
    (orderly : Throughout (step rom) Orderly powerOn steps) (pkt : Area) (bytes : List Byte)
    (found : descriptor pkt = some bytes)
    (attentive : Attentive (run (step rom) powerOn steps).usb)
    (idle : (run (step rom) powerOn steps).usb.ustat = [])
    (takes : takesSetup (run (step rom) powerOn steps).usb = true)
    (waits : (run (step rom) powerOn steps).usb.ctrlTrfState ≠ .ctrlTrfRx) (rounds : List (List Step))
    (quiet : ∀ noise ∈ rounds, ∀ action ∈ noise, Quiet action) :
    let wanted := bytes.take (wLength pkt).toNat
    let after := run (step rom) powerOn
      (steps ++ .setupToken pkt :: .driverService :: rounds.flatMap round)
    after.received = replyPackets wanted rounds.length ∧
      (wanted.length / ep0BuffSize < rounds.length → after.received.flatMap Prod.snd = wanted) := by
  intro wanted after
  have reached := reached_of_invariant (step rom) Orderly Sound
    (fun _ action sound here => sound.step action here) powerOn steps .powerOn orderly
  have sound := reached steps [] (List.append_nil _).symm
  obtain ⟨sending, nothing⟩ := asks_sends rom sound attentive idle takes waits pkt bytes found
  obtain ⟨last, count⟩ := sending.rounds rom rounds quiet
  have split : after = run (step rom)
      (run (step rom) (run (step rom) powerOn steps) [.setupToken pkt, .driverService])
      (rounds.flatMap round) := by
    change run _ _ (steps ++ ([.setupToken pkt, .driverService] ++ rounds.flatMap round)) = _
    rw [run_append, run_append]
  rw [nothing, List.length_nil, Nat.zero_add, ← split] at count
  rw [← split] at last
  have packets := last.received
  rw [count] at packets
  refine ⟨packets, fun enough => ?_⟩
  rw [packets, replyPackets_data, packets_flatten]
  refine List.take_of_length_le ?_
  have full : wanted.length < ep0BuffSize * (wanted.length / ep0BuffSize + 1) :=
    Nat.lt_mul_div_succ _ (by decide)
  calc wanted.length ≤ ep0BuffSize * (wanted.length / ep0BuffSize + 1) := Nat.le_of_lt full
    _ ≤ ep0BuffSize * rounds.length := Nat.mul_le_mul_left _ enough

/-- After a bus reset, the device descriptor takes three rounds. -/
theorem device_descriptor_polled :
    (run (step ⟨fun _ _ => 0, fun _ _ => 0⟩) powerOn
      ([.checkBusStatus, .busReset, .driverService] ++
        .setupToken (area [0x80, 6, 0, 1, 0, 0, 64, 0]) :: .driverService ::
          [[], [.startOfFrame], [.busActivity, .checkBusStatus]].flatMap round)).received.flatMap
        Prod.snd = deviceDsc := by
  have orderly : Throughout (step ⟨fun _ _ => 0, fun _ _ => 0⟩) Orderly powerOn
      [.checkBusStatus, .busReset, .driverService] := by
    simp only [throughout_cons, throughout_nil, Orderly, and_true]
  have polled := polled_reads ⟨fun _ _ => 0, fun _ _ => 0⟩
    [.checkBusStatus, .busReset, .driverService] orderly
    (area [0x80, 6, 0, 1, 0, 0, 64, 0]) deviceDsc (by decide)
    ⟨by decide +kernel, by decide +kernel, by decide +kernel, by decide +kernel, by decide +kernel,
      by decide +kernel⟩ (by decide +kernel) (by decide +kernel) (by decide +kernel)
    [[], [.startOfFrame], [.busActivity, .checkBusStatus]] (by simp [Quiet])
  exact polled.2 (by decide)

end Polling

end ScicosFlex.Pic18.Stack
