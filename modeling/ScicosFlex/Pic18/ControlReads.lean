import ScicosFlex.Pic18.ControlPhases

/-!
# What the host reads from endpoint 0

`control_reads`: in every run with an orderly host, whatever the order in which
the host and the firmware take their steps, the host reads the reply to its last
request packet by packet with alternating data bits, and a reply to a request for
a descriptor is that descriptor, cut to the length the request names. A host that
has met a short packet, or as many bytes as it wanted, has all of it.
-/

namespace ScicosFlex.Pic18.Stack

open Library.Packets Library.Runs

/-- A request for a descriptor is answered with as much of it as it wants. Requests for
others are left open, and so are those that are no requests for descriptors. -/
def Told (request : Option Area) (reply : List Byte) : Prop :=
  ∀ pkt bytes, request = some pkt → descriptor pkt = some bytes →
    reply = bytes.take (wLength pkt).toNat

/-- The invariant of all runs: endpoint 0 is in one of its phases, what was read are
packets of the reply, and the reply is that of the request. Until the firmware has
answered, the request itself is still kept in its buffer. -/
structure Sound (system : System) : Prop where
  phase : Phase (endpoint system.usb) system.received.length
  packets : system.received = replyPackets system.usb.reply system.received.length
  told : system.usb.pktdis = false → Told system.request system.usb.reply
  kept : system.usb.pktdis = true → ∀ pkt, system.request = some pkt →
    ∀ k, k < 8 → system.usb.setupPkt k = pkt k
  reset : system.usb.urstif = true → system.request = none
  plugged : system.usb.usben = false → system.usb.usbDeviceState = .detached

section Firmware

variable {rom : Rom} {system : System}

/-- The phase, seen from the outside. -/
theorem Phase.empty {e : Endpoint} {k : Nat} (phase : Phase e k) (stopped : e.pktdis = true) :
    k = 0 := by
  cases phase with
  | asked _ _ none => exact none
  | off _ running | ready _ running | reading _ running | read _ running | ended _ running
  | confirming _ running | confirmed _ running | stalled _ _ running =>
    exact absurd (stopped.symm.trans running) (by decide)

/-- Before the first bus reset the endpoint is off. -/
theorem Phase.dead {e : Endpoint} {k : Nat} (phase : Phase e k) (dead : e.alive = false) :
    e.uep0 = 0 ∧ e.pktdis = false ∧ e.queue = [] := by
  cases phase with
  | off uep0 running queue => exact ⟨uep0, running, queue⟩
  | ready on | asked on | reading on | read on | ended on | confirming on | confirmed on =>
    exact absurd (dead.symm.trans on.alive) (by decide)
  | stalled _ alive => exact absurd (dead.symm.trans alive) (by decide)

/-- What belongs to a transfer besides its phase. The setup packet only matters
until the firmware has answered it. -/
structure SameTransfer (before after : Usb) : Prop where
  reply : after.reply = before.reply
  pktdis : after.pktdis = before.pktdis
  setupPkt : before.pktdis = true → after.setupPkt = before.setupPkt
  urstif : after.urstif = true → before.urstif = true

/-- A step that leads to another phase of the same transfer. -/
theorem Sound.of_phase (sound : Sound system) {after : Usb}
    (phase : Phase (endpoint after) system.received.length) (same : SameTransfer system.usb after)
    (plugged : after.usben = false → after.usbDeviceState = .detached) :
    Sound { system with usb := after } := by
  refine ⟨phase, ?_, ?_, ?_, fun set => sound.reset (same.urstif set), plugged⟩
  · rw [same.reply]
    exact sound.packets
  · rw [same.reply, same.pktdis]
    exact sound.told
  · intro stopped
    have before : system.usb.pktdis = true := same.pktdis.symm.trans stopped
    rw [same.setupPkt before]
    exact sound.kept before

/-- A step that does not concern endpoint 0. -/
theorem Sound.of_endpoint (sound : Sound system) {after : Usb}
    (same : endpoint after = endpoint system.usb)
    (flag : after.urstif = true → system.usb.urstif = true)
    (plugged : after.usben = false → after.usbDeviceState = .detached) :
    Sound { system with usb := after } := by
  have phase : Phase (endpoint after) system.received.length := by
    rw [same]
    exact sound.phase
  exact sound.of_phase phase ⟨congrArg Endpoint.reply same, congrArg Endpoint.pktdis same,
    fun _ => congrArg Endpoint.setup same, flag⟩ plugged

/-- A bus reset that the firmware has seen. -/
theorem Sound.protocolReset (sound : Sound system) (flag : system.usb.urstif = true)
    (usben : system.usb.usben = true) :
    Sound { system with usb := usbProtocolResetHandler system.usb } := by
  have none : system.request = none := sound.reset flag
  refine ⟨reset_phase, sound.packets, ?_, ?_, fun _ => none, ?_⟩
  · intro _ pkt bytes request
    cases none.symm.trans request
  · intro stopped
    exact absurd stopped Bool.false_ne_true
  · intro off
    exact absurd (usben.symm.trans off) (by decide)

/-- A stall that the firmware has seen. -/
theorem Sound.stallHandler (sound : Sound system) :
    Sound { system with usb := usbStallHandler system.usb } := by
  have frame : SameTransfer system.usb (usbStallHandler system.usb) ∧
      (usbStallHandler system.usb).usben = system.usb.usben ∧
      (usbStallHandler system.usb).usbDeviceState = system.usb.usbDeviceState := by
    unfold usbStallHandler
    simp only
    split <;> exact ⟨⟨rfl, rfl, fun _ => rfl, fun set => set⟩, rfl, rfl⟩
  obtain ⟨same, usben, state⟩ := frame
  refine sound.of_phase (stallHandler_phase sound.phase) same fun off => ?_
  rw [state]
  exact sound.plugged (usben.symm.trans off)

/-- Tasks B and C. -/
theorem Sound.flags (sound : Sound system) (usben : system.usb.usben = true) :
    Sound { system with usb := serviceFlags system.usb } ∧
      (serviceFlags system.usb).usben = true := by
  refine serviceFlags_keeps (fun usb => Sound { system with usb := usb } ∧ usb.usben = true)
    ?_ ?_ ?_ ?_ ?_ system.usb ⟨sound, usben⟩
  · rintro usb ⟨sound, usben⟩ both
    exact ⟨sound.protocolReset (Bool.and_eq_true _ _ ▸ both).1 usben, usben⟩
  · rintro usb ⟨sound, usben⟩
    exact ⟨sound.of_endpoint rfl (fun set => set) sound.plugged, usben⟩
  · rintro usb ⟨sound, usben⟩
    exact ⟨sound.of_endpoint rfl (fun set => set) sound.plugged, usben⟩
  · rintro usb ⟨sound, usben⟩
    refine ⟨sound.stallHandler, ?_⟩
    unfold usbStallHandler
    simp only
    split <;> exact usben
  · rintro usb ⟨sound, usben⟩
    exact ⟨sound.of_endpoint rfl (fun set => set) sound.plugged, usben⟩

/-- Task D: a completed transaction of endpoint 0 leads to the next phase, those of
endpoint 1 are passed over. -/
theorem Sound.transaction (sound : Sound system) (usben : system.usb.usben = true) :
    Sound { system with usb := serviceTransaction rom system.usb } := by
  unfold serviceTransaction
  split
  · exact sound
  · split
    · rename_i alive pending
      cases queue : system.usb.ustat with
      | nil =>
        rw [queue] at pending
        exact absurd pending (by simp)
      | cons token others =>
        cases token with
        | ep01Out | ep01In =>
          simp only [usbCtrlEPService, queue, List.head?_cons, List.tail_cons]
          refine sound.of_endpoint ?_ (fun set => set) sound.plugged
          have same : system.usb.ustat.filter Ustat.isEp0 = others.filter Ustat.isEp0 := by
            rw [queue]
            rfl
          simp only [endpoint, same]
        | ep00In =>
          have frame : SameTransfer system.usb (usbCtrlTrfInHandler system.usb) ∧
              (usbCtrlTrfInHandler system.usb).ustat = system.usb.ustat ∧
              (usbCtrlTrfInHandler system.usb).usben = system.usb.usben := by
            unfold usbCtrlTrfInHandler mUSBCheckAdrPendingState
            split <;> simp only <;> split <;>
              exact ⟨⟨rfl, rfl, fun _ => rfl, fun set => set⟩, rfl, rfl⟩
          obtain ⟨same, rest, on⟩ := frame
          have handled : usbCtrlEPService rom system.usb = usbCtrlTrfInHandler system.usb := by
            rw [usbCtrlEPService, queue]
            rfl
          simp only [handled, rest, queue, List.tail_cons]
          exact sound.of_phase (inHandler_phase sound.phase others queue)
            ⟨same.reply, same.pktdis, same.setupPkt, same.urstif⟩
            fun off => absurd ((on.trans usben).symm.trans off) (by decide)
        | ep00Out =>
          have next := outHandler_phase rom sound.phase others queue
          by_cases setup : system.usb.ep0Bo.pid = setupToken
          · have handled : usbCtrlEPService rom system.usb = usbCtrlTrfSetupHandler rom system.usb := by
              rw [usbCtrlEPService, queue]
              exact if_pos setup
            rw [if_pos setup] at next
            obtain ⟨stopped, none, phase⟩ := next
            obtain ⟨running, rest, -, bus, -, -⟩ := setupHandler_same rom system.usb
            have on := congrArg Prod.fst bus
            have urstif := congrArg (fun side => side.2.2.1) bus
            simp only [handled, rest, queue, List.tail_cons]
            refine ⟨phase, ?_, ?_, ?_, fun set => sound.reset (urstif.symm.trans set),
              fun off => absurd ((on.trans usben).symm.trans off) (by decide)⟩
            · rw [List.length_eq_zero_iff.mp none]
              rfl
            · intro _ pkt bytes request found
              obtain ⟨same, length⟩ := request_congr (sound.kept stopped pkt request)
              rw [← length]
              exact (setupHandler_told rom system.usb bytes (same.trans found)).1
            · intro again
              exact absurd (running.symm.trans again) (by decide)
          · have handled : usbCtrlEPService rom system.usb = usbCtrlTrfOutHandler system.usb := by
              rw [usbCtrlEPService, queue]
              exact if_neg setup
            have frame : SameTransfer system.usb (usbCtrlTrfOutHandler system.usb) ∧
                (usbCtrlTrfOutHandler system.usb).ustat = system.usb.ustat ∧
                (usbCtrlTrfOutHandler system.usb).usben = system.usb.usben := by
              unfold usbCtrlTrfOutHandler
              split <;> exact ⟨⟨rfl, rfl, fun _ => rfl, fun set => set⟩, rfl, rfl⟩
            obtain ⟨same, rest, on⟩ := frame
            rw [if_neg setup] at next
            simp only [handled, rest, queue, List.tail_cons]
            exact sound.of_phase next ⟨same.reply, same.pktdis, same.setupPkt, same.urstif⟩
              fun off => absurd ((on.trans usben).symm.trans off) (by decide)
    · exact sound

/-- `USBDriverService()`. -/
theorem Sound.driverService (sound : Sound system) :
    Sound { system with usb := usbDriverService rom system.usb } := by
  by_cases detached : system.usb.usbDeviceState = .detached
  · rw [usbDriverService, if_pos detached]
    exact sound
  · have usben : system.usb.usben = true := by
      cases on : system.usb.usben with
      | true => rfl
      | false => exact absurd (sound.plugged on) detached
    exact usbDriverService_keeps rom
      (fun usb => Sound { system with usb := usb } ∧ usb.usben = true)
      (fun usb => Sound { system with usb := usb }) (fun _ both => both.1) system.usb ⟨sound, usben⟩
      ⟨sound.of_endpoint rfl (fun set => set) sound.plugged, usben⟩
      (fun _ both => both.1.flags both.2) fun _ both => both.1.transaction both.2

/-- `USBCheckBusStatus()` only concerns a device that is still off, whose endpoint 0 is
off too. -/
theorem Sound.checkBusStatus (sound : Sound system) :
    Sound { system with usb := usbCheckBusStatus system.usb } := by
  let enabled := if system.usb.usben then system.usb else usbModuleEnable system.usb
  have on : enabled.usben = true := by
    cases usben : system.usb.usben with
    | true => simp only [enabled, usben, if_true]
    | false => simp only [enabled, usben, Bool.false_eq_true, if_false, usbModuleEnable]
  have attached : Sound { system with usb := enabled } := by
    cases usben : system.usb.usben with
    | true =>
      simp only [enabled, usben, if_true]
      exact sound
    | false =>
      have detached := sound.plugged usben
      have dead : (endpoint system.usb).alive = false := by
        simp only [endpoint, detached]
        decide
      obtain ⟨-, running, -⟩ := sound.phase.dead dead
      have same : endpoint (usbModuleEnable system.usb) = endpoint system.usb := by
        have alive : decide (DeviceState.default.value ≤ DeviceState.attached.value) =
            decide (DeviceState.default.value ≤ system.usb.usbDeviceState.value) := by
          rw [detached]
          decide
        exact Endpoint.ext rfl rfl rfl rfl rfl rfl rfl running.symm rfl rfl rfl alive
      simp only [enabled, usben, Bool.false_eq_true, if_false]
      exact sound.of_endpoint same (fun set => set) fun off => absurd off.symm Bool.false_ne_true
  change Sound { system with
    usb :=
      if enabled.usbDeviceState = .attached then
        if enabled.se0 then enabled
        else
          { clearUir enabled with
            uie := { Uie.none with urstie := true, idleie := true }
            usbDeviceState := .powered }
      else enabled }
  by_cases state : enabled.usbDeviceState = .attached
  · rw [if_pos state]
    cases enabled.se0 with
    | true => exact attached
    | false =>
      have before : decide (DeviceState.default.value ≤ DeviceState.powered.value) =
          decide (DeviceState.default.value ≤ enabled.usbDeviceState.value) := by
        rw [state]
        decide
      obtain ⟨-, -, empty⟩ := attached.phase.dead (before.symm.trans (by decide))
      have tail : enabled.ustat.tail.filter Ustat.isEp0 = enabled.ustat.filter Ustat.isEp0 := by
        rw [show enabled.ustat.filter Ustat.isEp0 = [] from empty]
        exact List.filter_eq_nil_iff.mpr fun token member =>
          List.filter_eq_nil_iff.mp empty token (List.mem_of_mem_tail member)
      refine attached.of_endpoint ?_ (fun set => absurd set Bool.false_ne_true)
        fun off => absurd (on.symm.trans off) (by decide)
      exact Endpoint.ext rfl rfl rfl rfl rfl rfl rfl rfl rfl tail rfl before
  · rw [if_neg state]
    exact attached

end Firmware

section Runs

variable {rom : Rom} {system : System}

/-- The hardware only answers on a device that is switched on. -/
theorem listening_on {usb : Usb} (listens : listening usb = true) :
    usb.usben = true ∧ usb.pktdis = false := by
  simp only [listening, Bool.and_eq_true, Bool.not_eq_eq_eq_not, Bool.not_true] at listens
  exact ⟨listens.1.1, listens.2⟩

/-- An OUT packet belongs to the transfer that goes on. -/
theorem sieOut_same (usb : Usb) (toggle : Bool) (data : List Byte) :
    SameTransfer usb (sieOut usb toggle data) ∧
      (sieOut usb toggle data).usben = usb.usben ∧
      (sieOut usb toggle data).usbDeviceState = usb.usbDeviceState := by
  refine sieOut_keeps
    (fun after => SameTransfer usb after ∧ after.usben = usb.usben ∧
      after.usbDeviceState = usb.usbDeviceState) toggle data ?_ (fun _ => ?_) fun listens => ?_
  · exact ⟨⟨rfl, rfl, fun _ => rfl, id⟩, rfl, rfl⟩
  · exact ⟨⟨rfl, rfl, fun _ => rfl, id⟩, rfl, rfl⟩
  · obtain ⟨_, _, _, _, memory⟩ := fill_memory usb usb.ep0Bo.adr (area data) data.length
    rw [memory]
    refine ⟨⟨rfl, rfl, fun stopped => ?_, id⟩, rfl, rfl⟩
    exact absurd (stopped.symm.trans (listening_on listens).2) (by decide)

/-- So does an IN packet. -/
theorem sieIn_same (usb : Usb) :
    SameTransfer usb (sieIn usb).1 ∧ (sieIn usb).1.usben = usb.usben ∧
      (sieIn usb).1.usbDeviceState = usb.usbDeviceState := by
  refine sieIn_keeps
    (fun after => SameTransfer usb after ∧ after.usben = usb.usben ∧
      after.usbDeviceState = usb.usbDeviceState) ?_ (fun _ => ?_) ?_
  all_goals exact ⟨⟨rfl, rfl, fun _ => rfl, id⟩, rfl, rfl⟩

/-- The HID pipes have no part in endpoint 0. All that is shared is the queue, in which
the transactions of endpoint 0 keep their order. -/
theorem Sound.hidTokens (sound : Sound system) (toggle : Bool) (data : List Byte) :
    Sound { system with usb := sieHidOut system.usb toggle data } ∧
      Sound { system with usb := (sieHidIn system.usb).1 } := by
  have queue (token : Ustat) (other : token.isEp0 = false) :
      (system.usb.ustat ++ [token]).filter Ustat.isEp0 = system.usb.ustat.filter Ustat.isEp0 := by
    rw [List.filter_append, List.filter_singleton, other]
    exact List.append_nil _
  have stalled : Sound { system with usb := { system.usb with stallif := true } } :=
    sound.of_endpoint rfl (fun set => set) sound.plugged
  constructor
  · refine sieHidOut_keeps (fun after => Sound { system with usb := after }) toggle data sound
      stalled ?_
    exact sound.of_endpoint
      (Endpoint.ext rfl rfl rfl rfl rfl rfl rfl rfl rfl (queue _ rfl) rfl rfl)
      (fun set => set) sound.plugged
  · refine sieHidIn_keeps (fun after => Sound { system with usb := after }) sound stalled ?_
    exact sound.of_endpoint
      (Endpoint.ext rfl rfl rfl rfl rfl rfl rfl rfl rfl (queue _ rfl) rfl rfl)
      (fun set => set) sound.plugged

/-- One more packet of a reply. -/
theorem replyPackets_succ (reply : List Byte) (count : Nat) :
    replyPackets reply (count + 1) =
      replyPackets reply count ++ [(decide (count % 2 = 0), packet ep0BuffSize reply count)] := by
  rw [replyPackets, replyPackets, List.range_succ, List.map_append]
  rfl

/-- Every step of an orderly run keeps the invariant. The cases are the steps, each with
a lemma on the phases of endpoint 0. -/
theorem Sound.step (sound : Sound system) (action : Step) (orderly : Orderly system action) :
    Sound (step rom system action) := by
  cases action with
  | setupToken pkt =>
    change Sound (if takesSetup system.usb then _ else _)
    split
    · rename_i takes
      obtain ⟨seen, waits, -⟩ := orderly
      obtain ⟨phase, held⟩ := setup_asked sound.phase takes waits pkt
      obtain ⟨_, _, _, _, memory⟩ := fill_memory system.usb system.usb.ep0Bo.adr pkt 8
      have urstif := congrArg Usb.urstif memory
      have usben := congrArg Usb.usben memory
      have on : system.usb.usben = true := by
        simp only [takesSetup, Bool.and_eq_true] at takes
        exact (listening_on takes.1.1.1.1).1
      refine ⟨phase, rfl, fun running => absurd running.symm Bool.false_ne_true, ?_, ?_, ?_⟩
      · intro _ other same
        obtain rfl := Option.some.inj same
        exact held
      · intro set
        have before : system.usb.urstif = true := urstif.symm.trans set
        exact absurd (before.symm.trans seen) (by decide)
      · intro off
        exact absurd ((usben.trans on).symm.trans off) (by decide)
    · exact sound
  | outToken toggle data =>
    obtain ⟨same, usben, state⟩ := sieOut_same system.usb toggle data
    refine sound.of_phase (out_phase sound.phase orderly toggle data) same fun off => ?_
    rw [state]
    exact sound.plugged (usben.symm.trans off)
  | inToken =>
    obtain ⟨phase, given⟩ := in_phase sound.phase orderly
    obtain ⟨same, usben, state⟩ := sieIn_same system.usb
    have before := sound.packets
    refine ⟨?_, ?_, ?_, ?_, fun set => sound.reset (same.urstif set), ?_⟩
    · change Phase _ (system.received ++ (sieIn system.usb).2.toList).length
      rw [List.length_append]
      exact phase
    · change system.received ++ (sieIn system.usb).2.toList = replyPackets (sieIn system.usb).1.reply
        (system.received ++ (sieIn system.usb).2.toList).length
      rw [same.reply, List.length_append, given]
      split
      · rw [List.length_singleton, replyPackets_succ, ← before]
      · exact (List.append_nil _).trans before
    · change (sieIn system.usb).1.pktdis = false → Told _ (sieIn system.usb).1.reply
      rw [same.reply, same.pktdis]
      exact sound.told
    · intro stopped
      have earlier : system.usb.pktdis = true := same.pktdis.symm.trans stopped
      change ∀ pkt, _ → ∀ k, k < 8 → (sieIn system.usb).1.setupPkt k = _
      rw [same.setupPkt earlier]
      exact sound.kept earlier
    · intro off
      change (sieIn system.usb).1.usbDeviceState = _
      rw [state]
      exact sound.plugged (usben.symm.trans off)
  | hidOutToken toggle data => exact (sound.hidTokens toggle data).1
  | hidInToken => exact (sound.hidTokens false []).2
  | busReset =>
    refine ⟨sound.phase, sound.packets, ?_, ?_, fun _ => rfl, sound.plugged⟩
    · intro _ pkt bytes request
      cases request
    · intro _ pkt request
      cases request
  | busIdle | busActivity | startOfFrame | busError | lineState _ | txReport _ _ =>
    exact sound.of_endpoint rfl (fun set => set) sound.plugged
  | checkBusStatus => exact sound.checkBusStatus
  | driverService => exact sound.driverService
  | rxReport len =>
    refine hidRxReport_keeps (fun after => Sound { system with usb := after }) len ?_ fun _ => ?_
    all_goals exact sound.of_endpoint rfl (fun set => set) sound.plugged

/-- It holds after power on. -/
theorem Sound.powerOn : Sound powerOn :=
  ⟨.off rfl rfl rfl rfl, rfl, fun _ _ _ request => absurd request (Option.some_ne_none _).symm,
    fun stopped => absurd stopped Bool.false_ne_true, fun _ => rfl, fun _ => rfl⟩

/-- What the host has read: the first packets of the reply to its request. If it asked for a
descriptor of the tables, that is the reply, as much of it as was wanted; and a
packet that is not full, or as many bytes as wanted, are the end of it. -/
structure Served (system : System) : Prop where
  packets : system.received = replyPackets system.usb.reply system.received.length
  wanted : ∀ pkt bytes, system.request = some pkt → descriptor pkt = some bytes →
    system.received = replyPackets (bytes.take (wLength pkt).toNat) system.received.length
  complete : ∀ pkt bytes, system.request = some pkt → descriptor pkt = some bytes →
    (∃ received ∈ system.received, received.2.length < ep0BuffSize) ∨
      (wLength pkt).toNat ≤ (system.received.flatMap Prod.snd).length →
    system.received.flatMap Prod.snd = bytes.take (wLength pkt).toNat

/-- The data of packets without their data bits. -/
theorem replyPackets_data (reply : List Byte) (count : Nat) :
    (replyPackets reply count).flatMap Prod.snd =
      ((List.range count).map (packet ep0BuffSize reply)).flatten := by
  rw [replyPackets, List.flatMap_def, List.map_map]
  rfl

/-- The invariant says it. -/
theorem Sound.served (sound : Sound system) : Served system := by
  have wanted (pkt : Area) (bytes : List Byte) (request : system.request = some pkt)
      (found : descriptor pkt = some bytes) :
      system.received = replyPackets (bytes.take (wLength pkt).toNat) system.received.length := by
    cases running : system.usb.pktdis with
    | false =>
      have packets := sound.packets
      rwa [sound.told running pkt bytes request found] at packets
    | true =>
      rw [List.length_eq_zero_iff.mp (sound.phase.empty running)]
      rfl
  refine ⟨sound.packets, wanted, ?_⟩
  intro pkt bytes request found stopped
  have packets := wanted pkt bytes request found
  generalize system.received.length = count at packets
  rw [packets, replyPackets_data] at stopped ⊢
  refine read_complete _ _ _ (wLength pkt).toNat (List.length_take_le _ _) ?_
  rcases stopped with ⟨received, member, short⟩ | full
  · obtain ⟨k, inside, rfl⟩ := List.mem_map.mp member
    exact Or.inl ⟨k, List.mem_range.mp inside, short⟩
  · exact Or.inr full

/-- Whatever the order of steps, an orderly host is served: what it has read is always
the beginning of the reply to its last request, with the data bits that it expects. An
orderly host gives the device its time, as `Orderly` says; a request that comes too
early would be put into `CtrlTrfData`, and the old one would be served again. The proof
goes over the phases of endpoint 0. -/
theorem control_reads (rom : Rom) (steps : List Step)
    (orderly : Throughout (step rom) Orderly powerOn steps) :
    Reached (step rom) Served powerOn steps :=
  (reached_of_invariant (step rom) Orderly Sound (fun _ action sound here => sound.step action here)
    powerOn steps .powerOn orderly).mono fun _ sound => sound.served

/-- The host resets the bus and reads the device descriptor. -/
def enumeration : List Step :=
  [.checkBusStatus, .busReset, .driverService,
    .setupToken (area [0x80, 6, 0, 1, 0, 0, 64, 0]), .inToken, .driverService, .inToken,
    .driverService, .inToken, .driverService, .inToken, .outToken true [], .driverService]

/-- It gets all of it. -/
theorem enumeration_served :
    (run (step ⟨fun _ _ => 0, fun _ _ => 0⟩) powerOn enumeration).received.flatMap Prod.snd =
      deviceDsc := by
  have orderly : Throughout (step ⟨fun _ _ => 0, fun _ _ => 0⟩) Orderly powerOn enumeration := by
    simp only [enumeration, throughout_cons, throughout_nil, and_true, Orderly, true_and]
    decide +kernel
  have served := control_reads _ enumeration orderly enumeration [] (List.append_nil _).symm
  exact served.complete (area [0x80, 6, 0, 1, 0, 0, 64, 0]) deviceDsc rfl (by decide)
    (Or.inl (by decide +kernel))

end Runs

end ScicosFlex.Pic18.Stack
