import ScicosFlex.Pic18.ControlReads

/-!
# Address and configuration

`device_configured`: in every run in which the driver stays in its own memory, the
HID pipes are switched on exactly while a configuration is active, a configured device
has one, and a device that the bus has not reset yet has neither address nor
configuration.

`address_taken`: in every run with an orderly host the address is lost with a bus
reset, and otherwise changes in the driver only, when the host has read the packet that
confirms its SET_ADDRESS request, and then it is the address the request names.
-/

namespace ScicosFlex.Pic18.Stack

open Library.Packets Library.Runs

section Configuration

variable {rom : Rom} {usb : Usb}

/-- The invariant: what the device is on the bus agrees with its address, its
configuration and the endpoints that are on. -/
structure Sensible (usb : Usb) : Prop where
  plugged : usb.usben = false → usb.usbDeviceState = .detached
  early : usb.usbDeviceState.value < DeviceState.default.value →
    usb.uaddr = 0 ∧ usb.usbActiveCfg = 0 ∧ usb.uep0 = 0
  alert : DeviceState.default.value ≤ usb.usbDeviceState.value →
    usb.uie.urstie = true ∧ usb.uie.trnie = true
  unaddressed : usb.usbDeviceState = .default → usb.uaddr = 0
  configured : usb.usbDeviceState = .configured → usb.usbActiveCfg ≠ 0
  pipes : usb.uep1 = if usb.usbActiveCfg = 0 then 0 else epOutIn

/-- The variables and registers that `Sensible` is about, but for the state. -/
def roleSide (usb : Usb) : Byte × Byte × Byte × Bool × Bool × Bool :=
  (usb.uaddr, usb.usbActiveCfg, usb.uep1, usb.uie.urstie, usb.uie.trnie, usb.usben)

/-- A step that leaves them alone. Endpoint 0 may only be stalled while it is on. -/
theorem Sensible.of_side (sensible : Sensible usb) {after : Usb}
    (side : roleSide after = roleSide usb) (state : after.usbDeviceState = usb.usbDeviceState)
    (uep0 : usb.uep0 = 0 → after.uep0 = 0) : Sensible after := by
  simp only [roleSide, Prod.mk.injEq] at side
  obtain ⟨uaddr, cfg, uep1, urstie, trnie, usben⟩ := side
  refine ⟨?_, ?_, ?_, ?_, ?_, ?_⟩
  · rw [usben, state]
    exact sensible.plugged
  · rw [state, uaddr, cfg]
    intro early
    obtain ⟨address, configuration, off⟩ := sensible.early early
    exact ⟨address, configuration, uep0 off⟩
  · rw [state, urstie, trnie]
    exact sensible.alert
  · rw [state, uaddr]
    exact sensible.unaddressed
  · rw [state, cfg]
    exact sensible.configured
  · rw [uep1, cfg]
    exact sensible.pipes

/-- A step that leaves the device what it is, in its state and in all that `Sensible`
speaks of. -/
structure SameRole (before after : Usb) : Prop where
  side : roleSide after = roleSide before
  state : after.usbDeviceState = before.usbDeviceState

theorem SameRole.refl (usb : Usb) : SameRole usb usb := ⟨rfl, rfl⟩

theorem SameRole.trans {first second third : Usb} (one : SameRole first second)
    (other : SameRole second third) : SameRole first third :=
  ⟨other.side.trans one.side, other.state.trans one.state⟩

theorem SameRole.ite {condition : Prop} [Decidable condition] {first second : Usb}
    (one : SameRole usb first) (other : SameRole usb second) :
    SameRole usb (if condition then first else second) := by
  split
  · exact one
  · exact other

/-- The HID requests leave it. -/
theorem hidRequest_role : SameRole usb (usbCheckHIDRequest usb) := by
  have descriptors : SameRole usb (hidDescriptorRequest usb) :=
    .ite ⟨rfl, rfl⟩ (.ite ⟨rfl, rfl⟩ ⟨rfl, rfl⟩)
  have classes (usb : Usb) : SameRole usb (hidClassRequest usb) :=
    .ite ⟨rfl, rfl⟩ (.ite ⟨rfl, rfl⟩ (.ite ⟨rfl, rfl⟩ (.ite ⟨rfl, rfl⟩ ⟨rfl, rfl⟩)))
  have first : SameRole usb (if bRequest usb.setupPkt = getDsc then hidDescriptorRequest usb else usb) :=
    .ite descriptors (.refl usb)
  exact .ite (.refl usb) (.ite (.refl usb) (.ite first (first.trans (classes _))))

/-- So do the standard requests other than SET_ADDRESS and SET_CONFIGURATION. -/
theorem stdRequest_role (address : requestType usb.setupPkt = standard → bRequest usb.setupPkt ≠ setAdr)
    (configuration : requestType usb.setupPkt = standard → bRequest usb.setupPkt ≠ setCfg) :
    SameRole usb (usbCheckStdRequest rom usb) := by
  have descriptors : SameRole usb (usbStdGetDscHandler rom usb) :=
    .ite (.ite ⟨rfl, rfl⟩ (.ite ⟨rfl, rfl⟩ (.ite ⟨rfl, rfl⟩ ⟨rfl, rfl⟩))) (.refl usb)
  have status : SameRole usb (usbStdGetStatusHandler usb) :=
    .ite ⟨rfl, rfl⟩ (.ite ⟨rfl, rfl⟩ (.ite ⟨rfl, rfl⟩ ⟨rfl, rfl⟩))
  have ram (usb : Usb) (offset : Nat) (value : Byte) : SameRole usb (storeUsbRam usb offset value) :=
    .ite ⟨rfl, rfl⟩ (.ite ⟨rfl, rfl⟩ (.ite ⟨rfl, rfl⟩ (.ite ⟨rfl, rfl⟩ (.ite ⟨rfl, rfl⟩
      (.ite ⟨rfl, rfl⟩ (.ite ⟨rfl, rfl⟩ ⟨rfl, rfl⟩))))))
  have owned : SameRole usb { usb with ctrlTrfSessionOwner := .usb9 } := ⟨rfl, rfl⟩
  have feature : SameRole usb (usbStdFeatureReqHandler usb) :=
    .ite ⟨rfl, rfl⟩ (.ite (owned.trans (ram _ _ _)) (.refl usb))
  unfold usbCheckStdRequest
  simp only
  split
  · exact .refl usb
  · rename_i kind
    have isStandard := not_ne_iff.mp kind
    rw [if_neg (address isStandard), if_neg (configuration isStandard)]
    exact .ite descriptors (.ite ⟨rfl, rfl⟩ (.ite status (.ite feature
      (.ite ⟨rfl, rfl⟩ (.ite ⟨rfl, rfl⟩ (.refl usb))))))

/-- What looking for an owner does to the device: nothing, unless the request sets
the address or the configuration. -/
theorem findOwner_role (rom : Rom) (usb : Usb) : SameRole usb (findOwner rom usb) ∨
    requestType usb.setupPkt = standard ∧ bRequest usb.setupPkt = setAdr ∧
      findOwner rom usb =
        { usb with
          ctrlTrfState := .waitSetup, wCount := 0
          ctrlTrfSessionOwner := .usb9, usbDeviceState := .adrPending } ∨
    requestType usb.setupPkt = standard ∧ bRequest usb.setupPkt = setCfg ∧
      findOwner rom usb =
        usbStdSetCfgHandler
          { usb with ctrlTrfState := .waitSetup, ctrlTrfSessionOwner := .null, wCount := 0 } := by
  let cleared : Usb :=
    { usb with ctrlTrfState := .waitSetup, ctrlTrfSessionOwner := .null, wCount := 0 }
  have opened : SameRole usb cleared := ⟨rfl, rfl⟩
  have found : findOwner rom usb =
      if (usbCheckStdRequest rom cleared).ctrlTrfSessionOwner = .null then
        usbCheckHIDRequest (usbCheckStdRequest rom cleared) else usbCheckStdRequest rom cleared := rfl
  have owned (answer : Usb) (is : usbCheckStdRequest rom cleared = answer)
      (owner : answer.ctrlTrfSessionOwner = .usb9) : findOwner rom usb = answer := by
    rw [found, is, owner]
    exact if_neg (by decide)
  by_cases kind : requestType usb.setupPkt = standard
  · have type : requestType cleared.setupPkt = standard := kind
    by_cases address : bRequest usb.setupPkt = setAdr
    · have code : bRequest cleared.setupPkt = setAdr := address
      refine Or.inr (Or.inl ⟨kind, address, owned _ ?_ rfl⟩)
      simp only [usbCheckStdRequest, type, code, ne_eq, not_true_eq_false, if_false, if_true]
      rfl
    · by_cases configuration : bRequest usb.setupPkt = setCfg
      · have code : bRequest cleared.setupPkt = setCfg := configuration
        have notAddress : ¬ setCfg = setAdr := by decide
        have notDescriptor : ¬ setCfg = getDsc := by decide
        refine Or.inr (Or.inr ⟨kind, configuration, owned _ ?_ ?_⟩)
        · simp only [usbCheckStdRequest, type, code, ne_eq, not_true_eq_false, if_false, if_true,
            notAddress, notDescriptor]
          rfl
        · unfold usbStdSetCfgHandler
          simp only
          split <;> rfl
      · have first : SameRole usb (usbCheckStdRequest rom cleared) :=
          opened.trans (stdRequest_role (fun _ => address) fun _ => configuration)
        exact Or.inl (.ite (first.trans hidRequest_role) first)
  · have first : SameRole usb (usbCheckStdRequest rom cleared) :=
      opened.trans (stdRequest_role (fun is => absurd is kind) fun is => absurd is kind)
    exact Or.inl (.ite (first.trans hidRequest_role) first)

/-- The end of a request leaves it. -/
theorem serviceComplete_role (usb : Usb) : SameRole usb (usbCtrlEPServiceComplete usb) := by
  unfold usbCtrlEPServiceComplete
  simp only
  split
  · exact ⟨rfl, rfl⟩
  · split <;> exact ⟨rfl, rfl⟩

/-- A living device is switched on. -/
theorem Sensible.on (sensible : Sensible usb)
    (alive : DeviceState.default.value ≤ usb.usbDeviceState.value) : usb.usben = true := by
  cases on : usb.usben with
  | true => rfl
  | false =>
    rw [sensible.plugged on] at alive
    exact absurd alive (by decide)

/-- A device that the bus has reset. -/
theorem Sensible.of_alive (state : DeviceState) (is : usb.usbDeviceState = state)
    (alive : DeviceState.default.value ≤ state.value) (plugged : usb.usben = true)
    (alert : usb.uie.urstie = true ∧ usb.uie.trnie = true)
    (unaddressed : state = .default → usb.uaddr = 0)
    (configured : state = .configured → usb.usbActiveCfg ≠ 0)
    (pipes : usb.uep1 = if usb.usbActiveCfg = 0 then 0 else epOutIn) : Sensible usb := by
  subst is
  exact ⟨fun off => absurd (plugged.symm.trans off) (by decide),
    fun early => absurd early (Nat.not_lt.mpr alive), fun _ => alert, unaddressed, configured, pipes⟩

/-- Looking for an owner keeps the device sensible. -/
theorem Sensible.findOwner (rom : Rom) (sensible : Sensible usb)
    (alive : DeviceState.default.value ≤ usb.usbDeviceState.value) :
    Sensible (findOwner rom usb) := by
  have plugged := sensible.on alive
  rcases findOwner_role rom usb with same | ⟨-, -, is⟩ | ⟨-, -, is⟩
  · refine sensible.of_side same.side same.state fun off => ?_
    rw [(findOwner_same rom usb).uep0]
    exact off
  · rw [is]
    exact .of_alive .adrPending rfl (by decide) plugged (sensible.alert alive)
      (fun is => absurd is (by decide)) (fun is => absurd is (by decide)) sensible.pipes
  · rw [is]
    unfold usbStdSetCfgHandler
    simp only
    split
    · rename_i none
      exact .of_alive .address rfl (by decide) plugged (sensible.alert alive)
        (fun is => absurd is (by decide)) (fun is => absurd is (by decide)) (if_pos none).symm
    · rename_i some
      exact .of_alive .configured rfl (by decide) plugged (sensible.alert alive)
        (fun is => absurd is (by decide)) (fun _ => some) (if_neg some).symm

/-- So does taking a pending address. -/
theorem Sensible.checkAdrPending (sensible : Sensible usb) :
    Sensible (mUSBCheckAdrPendingState usb) := by
  unfold mUSBCheckAdrPendingState
  split
  · rename_i pending
    have alive : DeviceState.default.value ≤ usb.usbDeviceState.value := by
      rw [pending]
      decide
    have plugged := sensible.on alive
    simp only
    split
    · exact .of_alive .address rfl (by decide) plugged (sensible.alert alive)
        (fun is => absurd is (by decide)) (fun is => absurd is (by decide)) sensible.pipes
    · rename_i none
      have zero : bDevADR usb.setupPkt = 0 := by
        rw [BitVec.lt_def] at none
        exact BitVec.eq_of_toNat_eq (Nat.eq_zero_of_not_pos none)
      exact .of_alive .default rfl (by decide) plugged (sensible.alert alive) (fun _ => zero)
        (fun is => absurd is (by decide)) sensible.pipes
  · exact sensible

/-- Task D keeps the device sensible. A setup packet may change the state, the
configuration and the endpoints together, and an IN packet may take the address. -/
theorem Sensible.transaction (sensible : Sensible usb) :
    Sensible (serviceTransaction rom usb) := by
  unfold serviceTransaction
  split
  · exact sensible
  · rename_i alive
    split
    · have served : Sensible (usbCtrlEPService rom usb) := by
        unfold usbCtrlEPService
        split
        · split
          · have found := sensible.findOwner rom (Nat.not_lt.mp alive)
            have same := serviceComplete_role (Stack.findOwner rom usb)
            refine found.of_side same.side same.state fun off => ?_
            rw [(setupHandler_same rom usb).2.2.1, ← (findOwner_same rom usb).uep0]
            exact off
          · unfold usbCtrlTrfOutHandler
            split <;> exact sensible.of_side rfl rfl id
        · have checked := sensible.checkAdrPending
          unfold usbCtrlTrfInHandler
          simp only
          split <;> exact checked.of_side rfl rfl id
        · exact sensible
      exact served.of_side rfl rfl id
    · exact sensible

/-- Tasks B and C. -/
theorem Sensible.flags (sensible : Sensible usb) (plugged : usb.usben = true) :
    Sensible (serviceFlags usb) ∧ (serviceFlags usb).usben = true := by
  refine serviceFlags_keeps (fun usb => Sensible usb ∧ usb.usben = true) ?_ ?_ ?_ ?_ ?_ usb
    ⟨sensible, plugged⟩
  · rintro usb ⟨-, plugged⟩ -
    exact ⟨.of_alive .default rfl (by decide) plugged ⟨rfl, rfl⟩ (fun _ => rfl)
      (fun is => absurd is (by decide)) rfl, plugged⟩
  · rintro usb ⟨sensible, plugged⟩
    exact ⟨sensible.of_side rfl rfl id, plugged⟩
  · rintro usb ⟨sensible, plugged⟩
    exact ⟨sensible.of_side rfl rfl id, plugged⟩
  · rintro usb ⟨sensible, plugged⟩
    unfold usbStallHandler
    simp only
    split
    · rename_i sent
      refine ⟨sensible.of_side rfl rfl fun off => ?_, plugged⟩
      rw [off] at sent
      exact absurd sent (by decide)
    · exact ⟨sensible.of_side rfl rfl id, plugged⟩
  · rintro usb ⟨sensible, plugged⟩
    exact ⟨sensible.of_side rfl rfl id, plugged⟩

/-- `USBDriverService()`. -/
theorem Sensible.driverService (sensible : Sensible usb) :
    Sensible (usbDriverService rom usb) := by
  by_cases detached : usb.usbDeviceState = .detached
  · rw [usbDriverService, if_pos detached]
    exact sensible
  · have plugged : usb.usben = true := by
      cases on : usb.usben with
      | true => rfl
      | false => exact absurd (sensible.plugged on) detached
    exact usbDriverService_keeps rom (fun usb => Sensible usb ∧ usb.usben = true) Sensible
      (fun _ both => both.1) usb ⟨sensible, plugged⟩ ⟨sensible.of_side rfl rfl id, plugged⟩
      (fun _ both => both.1.flags both.2) fun _ both => both.1.transaction

/-- A device that the bus has not reset yet. -/
theorem Sensible.of_early (sensible : Sensible usb)
    (before : usb.usbDeviceState.value < DeviceState.default.value) {after : Usb}
    (side : (after.uaddr, after.usbActiveCfg, after.uep1, after.uep0) =
      (usb.uaddr, usb.usbActiveCfg, usb.uep1, usb.uep0))
    (state : DeviceState) (is : after.usbDeviceState = state)
    (early : state.value < DeviceState.default.value) (plugged : after.usben = true) :
    Sensible after := by
  subst is
  simp only [Prod.mk.injEq] at side
  obtain ⟨uaddr, cfg, uep1, uep0⟩ := side
  refine ⟨fun off => absurd (plugged.symm.trans off) (by decide), fun _ => ?_,
    fun alive => absurd early (Nat.not_lt.mpr alive), ?_, ?_, ?_⟩
  · rw [uaddr, cfg, uep0]
    exact sensible.early before
  · intro is
    rw [is] at early
    exact absurd early (by decide)
  · intro is
    rw [is] at early
    exact absurd early (by decide)
  · rw [uep1, cfg]
    exact sensible.pipes

/-- `USBCheckBusStatus()`. -/
theorem Sensible.checkBusStatus (sensible : Sensible usb) : Sensible (usbCheckBusStatus usb) := by
  have enabled : ∃ next, (if usb.usben then usb else usbModuleEnable usb) = next ∧ Sensible next ∧
      next.usben = true := by
    cases plugged : usb.usben with
    | true => exact ⟨usb, if_pos rfl, sensible, plugged⟩
    | false =>
      have before : usb.usbDeviceState.value < DeviceState.default.value := by
        rw [sensible.plugged plugged]
        decide
      exact ⟨usbModuleEnable usb, if_neg (by decide),
        sensible.of_early before rfl .attached rfl (by decide) rfl, rfl⟩
  obtain ⟨next, is, attached, plugged⟩ := enabled
  unfold usbCheckBusStatus
  simp only [is]
  split
  · rename_i state
    have before : next.usbDeviceState.value < DeviceState.default.value := by
      rw [state]
      decide
    split
    · exact attached
    · exact attached.of_early before rfl .powered rfl (by decide) plugged
  · exact attached

/-- Every step of every run keeps the device sensible; nothing is asked of the host
here. The steps of the hardware leave all that is spoken of alone, but for a bus reset,
which clears the address. -/
theorem Sensible.step {system : System} (sensible : Sensible system.usb) (action : Step) :
    Sensible (step rom system action).usb := by
  have stalled (bit : Nat) (enabled : system.usb.uep0.getLsbD bit = true) :
      Sensible { system.usb with stallif := true, uep0 := system.usb.uep0 ||| 1 } := by
    refine sensible.of_side rfl rfl fun off => ?_
    rw [off] at enabled
    exact absurd enabled (by simp)
  cases action with
  | setupToken pkt =>
    change Sensible (if takesSetup system.usb then _ else system : System).usb
    split
    · obtain ⟨_, _, _, _, memory⟩ := fill_memory system.usb system.usb.ep0Bo.adr pkt 8
      change Sensible (sieSetup system.usb pkt)
      rw [sieSetup, memory]
      exact sensible.of_side rfl rfl id
    · exact sensible
  | outToken toggle data =>
    refine sieOut_keeps Sensible toggle data sensible (stalled 2) fun _ => ?_
    obtain ⟨_, _, _, _, memory⟩ :=
      fill_memory system.usb system.usb.ep0Bo.adr (area data) data.length
    rw [memory]
    exact sensible.of_side rfl rfl id
  | inToken => exact sieIn_keeps Sensible sensible (stalled 1) (sensible.of_side rfl rfl id)
  | hidOutToken toggle data =>
    refine sieHidOut_keeps Sensible toggle data sensible ?_ ?_
    all_goals exact sensible.of_side rfl rfl id
  | hidInToken =>
    refine sieHidIn_keeps Sensible sensible ?_ ?_
    all_goals exact sensible.of_side rfl rfl id
  | busReset =>
    exact ⟨sensible.plugged, fun early => ⟨rfl, (sensible.early early).2⟩, sensible.alert,
      fun _ => rfl, sensible.configured, sensible.pipes⟩
  | busIdle | busActivity | startOfFrame | busError | lineState | txReport =>
    exact sensible.of_side rfl rfl id
  | checkBusStatus => exact sensible.checkBusStatus
  | driverService => exact sensible.driverService
  | rxReport len =>
    refine hidRxReport_keeps Sensible len ?_ fun _ => ?_
    all_goals exact sensible.of_side rfl rfl id

/-- A device without power is sensible. -/
theorem Sensible.powerOn : Sensible powerOn.usb :=
  ⟨fun _ => rfl, fun _ => ⟨rfl, rfl, rfl⟩, fun alive => absurd alive (by decide),
    fun is => absurd is (by decide), fun is => absurd is (by decide), rfl⟩

end Configuration

section Storage

variable {rom : Rom} {usb : Usb}

/-- A driver that stays in its own memory writes nothing through the destination pointer.
Before it comes to the packet it may meet a bus reset or a stall, and then it is not in
the state any more in which it would. -/
theorem driverService_stored (contained : Contained usb) :
    (usbDriverService rom usb).stored = usb.stored := by
  let before (after : Usb) : Prop := after.stored = usb.stored ∧ Contained after
  refine usbDriverService_keeps rom before (fun after => after.stored = usb.stored)
    (fun _ both => both.1) usb ⟨rfl, contained⟩ ⟨rfl, contained⟩ ?_ ?_
  · intro after here
    refine serviceFlags_keeps before ?_ ?_ ?_ ?_ ?_ after here
    · rintro after ⟨same, -⟩ -
      exact ⟨same, fun head => absurd head (Option.some_ne_none _).symm⟩
    · exact fun after here => here
    · exact fun after here => here
    · rintro after ⟨same, contained⟩
      unfold usbStallHandler
      simp only
      split
      · refine ⟨same, fun _ => ?_⟩
        have armed : (usbPrepareForNextSetupTrf after).ep0Bo.pid ≠ setupToken := by
          change Bdt.pid ⟨usie ||| dat0 ||| dtsen, 8, .setupPkt⟩ ≠ setupToken
          decide
        rw [if_neg armed]
        exact fun waits => CtrlTrfState.noConfusion waits
      · exact ⟨same, contained⟩
    · exact fun after here => here
  · rintro after ⟨same, contained⟩
    have served : (usbCtrlEPService rom after).stored = after.stored := by
      unfold usbCtrlEPService
      split
      · rename_i head
        have fits := contained head
        split
        · exact (setupHandler_same rom after).2.2.2.2.1
        · rename_i other
          rw [if_neg other] at fits
          unfold usbCtrlTrfOutHandler
          split
          · rename_i waits
            change after.stored ++ after.ctrlTrfData.bytes (byteToRead after).toNat = _
            rw [fits waits]
            exact List.append_nil _
          · rfl
      · unfold usbCtrlTrfInHandler mUSBCheckAdrPendingState
        split <;> simp only <;> split <;> rfl
      · rfl
    unfold serviceTransaction
    split
    · exact same
    · split
      · exact served.trans same
      · exact same

/-- What is asked of the host for everyone who reads the state: whenever the driver runs,
it stays in its own memory. -/
def Confined (system : System) : Step → Prop
  | .driverService => Contained system.usb
  | _ => True

/-- Then no step writes through the destination pointer. Data of a control write would
be copied to it without a bound, wherever it points. -/
theorem step_stored {system : System} (action : Step) (confined : Confined system action) :
    (step rom system action).usb.stored = system.usb.stored := by
  let Kept (after : Usb) : Prop := after.stored = system.usb.stored
  cases action with
  | setupToken pkt =>
    change (if takesSetup system.usb then _ else system : System).usb.stored = _
    split
    · obtain ⟨_, _, _, _, memory⟩ := fill_memory system.usb system.usb.ep0Bo.adr pkt 8
      exact (congrArg Usb.stored memory :)
    · rfl
  | outToken toggle data =>
    refine sieOut_keeps Kept toggle data rfl (fun _ => rfl) fun _ => ?_
    obtain ⟨_, _, _, _, memory⟩ :=
      fill_memory system.usb system.usb.ep0Bo.adr (area data) data.length
    exact (congrArg Usb.stored memory :)
  | inToken => exact sieIn_keeps Kept rfl (fun _ => rfl) rfl
  | hidOutToken toggle data => exact sieHidOut_keeps Kept toggle data rfl rfl rfl
  | hidInToken => exact sieHidIn_keeps Kept rfl rfl rfl
  | busReset | busIdle | busActivity | startOfFrame | busError | lineState | txReport => rfl
  | checkBusStatus =>
    change (usbCheckBusStatus system.usb).stored = _
    unfold usbCheckBusStatus usbModuleEnable
    cases system.usb.usben <;> simp only [Bool.false_eq_true, if_false, if_true] <;> repeat' split
    all_goals rfl
  | driverService => exact driverService_stored confined
  | rxReport len => exact hidRxReport_keeps Kept len rfl fun _ => rfl

end Storage

section Configuration

variable {rom : Rom} {usb : Usb}

/-- In every run the HID pipes are on exactly while a configuration is active, and a
device without a bus reset behind it has neither address nor configuration. The runs are
those in which the driver stays in its own memory, so nothing is ever stored through the
destination pointer, and the state shows all that the firmware has written. -/
theorem device_configured (rom : Rom) (steps : List Step)
    (confined : Throughout (step rom) Confined powerOn steps) :
    Reached (step rom) (fun system =>
      let usb := system.usb
      (usb.uep1 = if usb.usbActiveCfg = 0 then 0 else epOutIn) ∧
      (usb.usbDeviceState = .configured → usb.usbActiveCfg ≠ 0) ∧
      (usb.usbDeviceState.value ≤ DeviceState.default.value → usb.uaddr = 0) ∧
      (usb.usbDeviceState.value < DeviceState.default.value →
        usb.usbActiveCfg = 0 ∧ usb.uep0 = 0 ∧ usb.uep1 = 0) ∧
      usb.stored = []) powerOn steps := by
  refine (reached_of_invariant (step rom) Confined
    (fun system => Sensible system.usb ∧ system.usb.stored = [])
    (fun _ action both confined => ⟨both.1.step action, (step_stored action confined).trans both.2⟩)
    powerOn steps ⟨.powerOn, rfl⟩ confined).mono fun system both => ?_
  obtain ⟨sensible, stored⟩ := both
  refine ⟨sensible.pipes, sensible.configured, ?_, ?_, stored⟩
  · intro low
    rcases Nat.lt_or_eq_of_le low with early | same
    · exact (sensible.early early).1
    · refine sensible.unaddressed ?_
      cases is : system.usb.usbDeviceState <;> rw [is] at same <;> first | rfl | cases same
  · intro early
    obtain ⟨-, none, off⟩ := sensible.early early
    refine ⟨none, off, ?_⟩
    rw [sensible.pipes, if_pos none]

/-- The host selects configuration 1. -/
def configuring : List Step :=
  [.checkBusStatus, .busReset, .driverService, .setupToken (area [0, 9, 1, 0, 0, 0, 0, 0]),
    .driverService, .inToken, .driverService]

/-- The pipes are on. -/
theorem configuring_configured :
    let usb := (run (step ⟨fun _ _ => 0, fun _ _ => 0⟩) powerOn configuring).usb
    usb.usbDeviceState = .configured ∧ usb.uep1 = epOutIn ∧ usb.stored = [] := by
  intro usb
  have confined : Throughout (step ⟨fun _ _ => 0, fun _ _ => 0⟩) Confined powerOn configuring := by
    simp only [configuring, throughout_cons, throughout_nil, Confined, true_and, and_true]
    decide +kernel
  have configured : usb.usbDeviceState = .configured := by decide +kernel
  obtain ⟨pipes, active, -, -, stored⟩ :=
    device_configured ⟨fun _ _ => 0, fun _ _ => 0⟩ configuring confined configuring [] (List.append_nil _).symm
  exact ⟨configured, pipes.trans (if_neg (active configured)), stored⟩

end Configuration

section Address

variable {rom : Rom} {system : System}

/-- A host that keeps to the protocol, and sends SET_ADDRESS the way it is defined. -/
def Proper (system : System) (action : Step) : Prop :=
  Orderly system action ∧ ∀ pkt, action = .setupToken pkt → requestType pkt = standard →
    bRequest pkt = setAdr → devToHost pkt = false

/-- A pending address is that of the host's last request, which the device is about
to confirm. -/
structure Addressing (system : System) : Prop where
  pending : system.usb.usbDeviceState = .adrPending →
    system.usb.ctrlTrfState = .ctrlTrfRx ∧ system.usb.pktdis = false ∧
      (system.usb.urstif = false → ∃ pkt, system.request = some pkt ∧
        requestType pkt = standard ∧ bRequest pkt = setAdr ∧
        bDevADR system.usb.setupPkt = bDevADR pkt)
  asked : system.usb.pktdis = true → system.usb.urstif = false → system.request ≠ none
  proper : ∀ pkt, system.request = some pkt → requestType pkt = standard → bRequest pkt = setAdr →
    devToHost pkt = false

/-- What the rules below need of a step to leave a pending address alone. -/
def pendingSide (usb : Usb) : DeviceState × CtrlTrfState × Bool × Bool × Area :=
  (usb.usbDeviceState, usb.ctrlTrfState, usb.pktdis, usb.urstif, usb.setupPkt)

theorem Addressing.of_side (addressing : Addressing system) {after : Usb}
    (side : pendingSide after = pendingSide system.usb) : Addressing { system with usb := after } := by
  simp only [pendingSide, Prod.mk.injEq] at side
  obtain ⟨state, transfer, pktdis, urstif, setupPkt⟩ := side
  refine ⟨?_, ?_, addressing.proper⟩
  · change after.usbDeviceState = _ → after.ctrlTrfState = _ ∧ after.pktdis = _ ∧
      (after.urstif = _ → ∃ pkt, _ ∧ _ ∧ _ ∧ bDevADR after.setupPkt = _)
    rw [state, transfer, pktdis, urstif, setupPkt]
    exact addressing.pending
  · change after.pktdis = _ → after.urstif = _ → _
    rw [pktdis, urstif]
    exact addressing.asked

/-- Without a pending address and an open request there is nothing to keep. -/
theorem Addressing.of_quiet (addressing : Addressing system) {after : Usb}
    (state : after.usbDeviceState ≠ .adrPending) (running : after.pktdis = false) :
    Addressing { system with usb := after } :=
  ⟨fun pending => absurd pending state,
    fun stopped => absurd (stopped.symm.trans running) (by decide), addressing.proper⟩

/-- While no address is pending, only requests and resets that are not served yet count. -/
theorem Addressing.of_idle (addressing : Addressing system)
    (waiting : system.usb.usbDeviceState ≠ .adrPending) {after : Usb}
    (state : after.usbDeviceState = system.usb.usbDeviceState)
    (pktdis : after.pktdis = system.usb.pktdis) (urstif : after.urstif = system.usb.urstif) :
    Addressing { system with usb := after } := by
  refine ⟨fun pending => absurd (state.symm.trans pending) waiting, ?_, addressing.proper⟩
  exact fun stopped clear =>
    addressing.asked (pktdis.symm.trans stopped) (urstif.symm.trans clear)

/-- A confirmation is awaited by one or the other of two phases. -/
theorem Phase.confirms {e : Endpoint} {k : Nat} (phase : Phase e k) (state : e.state = .ctrlTrfRx)
    (running : e.pktdis = false) (alive : e.alive = true) :
    e.On ∧ e.out = ⟨usie ||| dat1 ||| dtsen, 8, .ctrlTrfData⟩ ∧
      (e.queue = [] ∨ e.queue = [.ep00In] ∧ k = 1 ∧ e.reply = []) := by
  cases phase with
  | confirming on _ queue _ _ _ out => exact ⟨on, out, Or.inl queue⟩
  | confirmed on _ queue _ one reply out => exact ⟨on, out, Or.inr ⟨queue, one, reply⟩⟩
  | off _ _ _ dead => exact absurd (dead.symm.trans alive) (by decide)
  | ready _ _ _ other | reading _ _ _ other | read _ _ _ other | ended _ _ _ other
  | stalled _ _ _ _ other => exact absurd (other.symm.trans state) (by decide)
  | asked _ stopped => exact absurd (stopped.symm.trans running) (by decide)

/-- Without a bus reset, tasks B and C have no part in addresses and transfers, but
for a stall that has been sent. -/
theorem flags_calm (usb : Usb) (calm : (usb.urstif && usb.uie.urstie) = false)
    (quiet : usb.usbDeviceState = .adrPending → usb.uep0 = epCtrl) :
    let after := serviceFlags usb
    (after.uaddr, after.usbDeviceState, after.pktdis, after.urstif, after.setupPkt, after.ustat) =
        (usb.uaddr, usb.usbDeviceState, usb.pktdis, usb.urstif, usb.setupPkt, usb.ustat) ∧
      (usb.usbDeviceState = .adrPending → after.ctrlTrfState = usb.ctrlTrfState) := by
  let kept (after : Usb) : Prop :=
    (after.uaddr, after.usbDeviceState, after.pktdis, after.urstif, after.setupPkt, after.ustat) =
        (usb.uaddr, usb.usbDeviceState, usb.pktdis, usb.urstif, usb.setupPkt, usb.ustat) ∧
      (after.urstif && after.uie.urstie) = false ∧
      (usb.usbDeviceState = .adrPending →
        after.ctrlTrfState = usb.ctrlTrfState ∧ after.uep0 = epCtrl)
  have all : kept (serviceFlags usb) := by
    refine serviceFlags_keeps kept ?_ ?_ ?_ ?_ ?_ usb
      ⟨rfl, calm, fun pending => ⟨rfl, quiet pending⟩⟩
    · rintro after ⟨_, silent, _⟩ seen
      exact absurd (silent.symm.trans seen) (by decide)
    · exact fun after here => here
    · exact fun after here => here
    · rintro after ⟨same, silent, on⟩
      unfold usbStallHandler
      simp only
      split
      · rename_i sent
        refine ⟨same, silent, fun pending => ?_⟩
        rw [(on pending).2] at sent
        exact absurd sent (by decide)
      · exact ⟨same, silent, on⟩
    · exact fun after here => here
  exact ⟨all.1, fun pending => (all.2.2 pending).1⟩

/-- A bus reset takes the address and all transactions away. -/
theorem flags_reset (usb : Usb) (seen : (usb.urstif && usb.uie.urstie) = true) :
    let after := serviceFlags usb
    (after.uaddr, after.usbDeviceState, after.pktdis, after.ustat) =
      ((0 : Byte), DeviceState.default, false, ([] : List Ustat)) := by
  let kept (after : Usb) : Prop :=
    (after.uaddr, after.usbDeviceState, after.pktdis, after.ustat) =
      ((0 : Byte), DeviceState.default, false, ([] : List Ustat))
  change kept (serviceFlags usb)
  rw [serviceFlags_reset usb seen]
  refine serviceFlags_keeps kept ?_ ?_ ?_ ?_ ?_ _ rfl
  · exact fun after _ _ => rfl
  · exact fun after here => here
  · exact fun after here => here
  · intro after here
    unfold usbStallHandler
    simp only
    split <;> exact here
  · exact fun after here => here

/-- The address that a step takes over: that of the last request, which the host
has seen confirmed by an empty packet. -/
def TakesAddress (system : System) (uaddr : Byte) : Prop :=
  ∃ pkt, system.request = some pkt ∧ requestType pkt = standard ∧ bRequest pkt = setAdr ∧
    uaddr = bDevADR pkt ∧ system.received = [(true, [])]

/-- A setup packet only brings a new address up, and then the device confirms it. -/
theorem Addressing.setup (rom : Rom) (addressing : Addressing system) (sound : Sound system)
    (stopped : system.usb.pktdis = true) (clear : system.usb.urstif = false) (others : List Ustat) :
    Addressing { system with usb := { usbCtrlTrfSetupHandler rom system.usb with ustat := others } } ∧
      (usbCtrlTrfSetupHandler rom system.usb).uaddr = system.usb.uaddr := by
  obtain ⟨running, -⟩ := setupHandler_same rom system.usb
  have complete := serviceComplete_role (findOwner rom system.usb)
  have uaddr : (usbCtrlTrfSetupHandler rom system.usb).uaddr = (findOwner rom system.usb).uaddr :=
    congrArg Prod.fst complete.side
  have state : (usbCtrlTrfSetupHandler rom system.usb).usbDeviceState =
      (findOwner rom system.usb).usbDeviceState := complete.state
  have before : system.usb.usbDeviceState ≠ .adrPending := by
    intro pending
    exact absurd (stopped.symm.trans (addressing.pending pending).2.1) (by decide)
  rcases findOwner_role rom system.usb with same | ⟨kind, code, is⟩ | ⟨-, -, is⟩
  · refine ⟨addressing.of_quiet ?_ running, uaddr.trans (congrArg Prod.fst same.side)⟩
    change (usbCtrlTrfSetupHandler rom system.usb).usbDeviceState ≠ _
    rw [state, same.state]
    exact before
  · rw [is] at uaddr
    refine ⟨⟨fun _ => ⟨?_, running, fun _ => ?_⟩,
      fun again => absurd (running.symm.trans again) (by decide), addressing.proper⟩, uaddr⟩
    · obtain ⟨pkt, request⟩ := Option.ne_none_iff_exists'.mp (addressing.asked stopped clear)
      have same := sound.kept stopped pkt request
      have direction : devToHost system.usb.setupPkt = false := by
        have first := same 0 (by decide)
        have second := same 1 (by decide)
        have sent := addressing.proper pkt request
        rw [requestType, ← first, bRequest, ← second, devToHost, ← first] at sent
        exact sent kind code
      change (usbCtrlEPServiceComplete (findOwner rom system.usb)).ctrlTrfState = _
      rw [is]
      simp only [usbCtrlEPServiceComplete, reduceCtorEq, if_false, direction, Bool.false_eq_true]
    · obtain ⟨pkt, request⟩ := Option.ne_none_iff_exists'.mp (addressing.asked stopped clear)
      have same := sound.kept stopped pkt request
      refine ⟨pkt, request, ?_, ?_, ?_⟩
      · rw [requestType, ← same 0 (by decide)]
        exact kind
      · rw [bRequest, ← same 1 (by decide)]
        exact code
      · rw [show bDevADR pkt = pkt 2 from rfl, ← same 2 (by decide)]
        change (usbCtrlEPServiceComplete (findOwner rom system.usb)).setupPkt 2 = _
        rw [is]
        unfold usbCtrlEPServiceComplete
        simp only
        repeat' split
        all_goals rfl
  · have fields : (findOwner rom system.usb).uaddr = system.usb.uaddr ∧
        (findOwner rom system.usb).usbDeviceState ≠ .adrPending := by
      rw [is]
      unfold usbStdSetCfgHandler
      simp only
      split <;> exact ⟨rfl, fun is => DeviceState.noConfusion is⟩
    refine ⟨addressing.of_quiet ?_ running, uaddr.trans fields.1⟩
    change (usbCtrlTrfSetupHandler rom system.usb).usbDeviceState ≠ _
    rw [state]
    exact fields.2

/-- An IN packet of endpoint 0 takes a pending address: by then the host has read the empty packet
that confirms its request. Any other one changes nothing here. -/
theorem Addressing.inTransaction (addressing : Addressing system)
    (urstif : system.usb.urstif = false)
    (confirmed : system.usb.usbDeviceState = .adrPending →
      system.received.length = 1 ∧ system.usb.reply = [])
    (sound : Sound system) (others : List Ustat) :
    Addressing { system with usb := { usbCtrlTrfInHandler system.usb with ustat := others } } ∧
      ((usbCtrlTrfInHandler system.usb).uaddr = system.usb.uaddr ∨
        TakesAddress system (usbCtrlTrfInHandler system.usb).uaddr) := by
  by_cases waiting : system.usb.usbDeviceState = .adrPending
  · obtain ⟨-, running, named⟩ := addressing.pending waiting
    obtain ⟨pkt, request, kind, code, address⟩ := named urstif
    obtain ⟨one, empty⟩ := confirmed waiting
    have taken : (usbCtrlTrfInHandler system.usb).uaddr = bDevADR system.usb.setupPkt ∧
        (usbCtrlTrfInHandler system.usb).usbDeviceState ≠ .adrPending ∧
        (usbCtrlTrfInHandler system.usb).pktdis = system.usb.pktdis := by
      unfold usbCtrlTrfInHandler mUSBCheckAdrPendingState
      rw [if_pos waiting]
      simp only
      refine ⟨?_, ?_, ?_⟩
      · split <;> rfl
      · split <;> (show (if _ then DeviceState.address else .default) ≠ _) <;> split <;>
          exact fun is => DeviceState.noConfusion is
      · split <;> rfl
    obtain ⟨uaddr, state, same⟩ := taken
    refine ⟨addressing.of_quiet state (same.trans running), Or.inr ⟨pkt, request, kind, code,
      uaddr.trans address, ?_⟩⟩
    rw [sound.packets, one, empty]
    rfl
  · have same : mUSBCheckAdrPendingState system.usb = system.usb := if_neg waiting
    have fields : (usbCtrlTrfInHandler system.usb).uaddr = system.usb.uaddr ∧
        (usbCtrlTrfInHandler system.usb).usbDeviceState = system.usb.usbDeviceState ∧
        (usbCtrlTrfInHandler system.usb).pktdis = system.usb.pktdis ∧
        (usbCtrlTrfInHandler system.usb).urstif = system.usb.urstif := by
      unfold usbCtrlTrfInHandler
      rw [same]
      simp only
      split <;> exact ⟨rfl, rfl, rfl, rfl⟩
    obtain ⟨uaddr, state, pktdis, reset⟩ := fields
    exact ⟨addressing.of_idle waiting state pktdis reset, Or.inl uaddr⟩

/-- An OUT packet of endpoint 0 takes no address: while one is pending, none can come. -/
theorem Addressing.outTransaction (rom : Rom) (addressing : Addressing system) (sound : Sound system)
    (urstif : system.usb.urstif = false) (waiting : system.usb.usbDeviceState ≠ .adrPending)
    (others : List Ustat) (queue : system.usb.ustat = .ep00Out :: others) :
    Addressing { system with
        usb := { usbCtrlEPService rom system.usb with
          ustat := (usbCtrlEPService rom system.usb).ustat.tail } } ∧
      (usbCtrlEPService rom system.usb).uaddr = system.usb.uaddr := by
  have next := outHandler_phase rom sound.phase others queue
  by_cases setup : system.usb.ep0Bo.pid = setupToken
  · have handled : usbCtrlEPService rom system.usb = usbCtrlTrfSetupHandler rom system.usb := by
      rw [usbCtrlEPService, queue]
      exact if_pos setup
    rw [if_pos setup] at next
    rw [handled]
    exact addressing.setup rom sound next.1 urstif (usbCtrlTrfSetupHandler rom system.usb).ustat.tail
  · have handled : usbCtrlEPService rom system.usb = usbCtrlTrfOutHandler system.usb := by
      rw [usbCtrlEPService, queue]
      exact if_neg setup
    have fields : (usbCtrlTrfOutHandler system.usb).uaddr = system.usb.uaddr ∧
        (usbCtrlTrfOutHandler system.usb).usbDeviceState = system.usb.usbDeviceState ∧
        (usbCtrlTrfOutHandler system.usb).pktdis = system.usb.pktdis ∧
        (usbCtrlTrfOutHandler system.usb).urstif = system.usb.urstif := by
      unfold usbCtrlTrfOutHandler
      split <;> exact ⟨rfl, rfl, rfl, rfl⟩
    obtain ⟨uaddr, state, pktdis, reset⟩ := fields
    rw [handled]
    exact ⟨addressing.of_idle waiting state pktdis reset, uaddr⟩

/-- Taking the address is the only change of it in task D. It is taken when the IN
packet of the confirmation has been read, and by then no other request can have come. -/
theorem Addressing.transaction (rom : Rom) (addressing : Addressing system) (sound : Sound system)
    (clear : DeviceState.default.value ≤ system.usb.usbDeviceState.value →
      system.usb.urstif = false) :
    Addressing { system with usb := serviceTransaction rom system.usb } ∧
      ((serviceTransaction rom system.usb).uaddr = system.usb.uaddr ∨
        TakesAddress system (serviceTransaction rom system.usb).uaddr) := by
  unfold serviceTransaction
  split
  · exact ⟨addressing, Or.inl rfl⟩
  · rename_i alive
    split
    · rename_i pending
      have urstif := clear (Nat.not_lt.mp alive)
      have confirms (waiting : system.usb.usbDeviceState = .adrPending) :
          (endpoint system.usb).queue = [] ∨ (endpoint system.usb).queue = [.ep00In] ∧
            system.received.length = 1 ∧ (endpoint system.usb).reply = [] := by
        obtain ⟨state, running, -⟩ := addressing.pending waiting
        exact (sound.phase.confirms state running (decide_eq_true (Nat.not_lt.mp alive))).2.2
      cases queue : system.usb.ustat with
      | nil =>
        rw [queue] at pending
        exact absurd pending (by simp)
      | cons token others =>
        have heads (ep0 : token.isEp0 = true) :
            (endpoint system.usb).queue = token :: others.filter Ustat.isEp0 := by
          change system.usb.ustat.filter Ustat.isEp0 = _
          rw [queue, List.filter_cons_of_pos ep0]
        cases token with
        | ep01Out | ep01In =>
          simp only [usbCtrlEPService, queue, List.head?_cons, List.tail_cons]
          exact ⟨addressing.of_side rfl, Or.inl trivial⟩
        | ep00In =>
          have handled : usbCtrlEPService rom system.usb = usbCtrlTrfInHandler system.usb := by
            rw [usbCtrlEPService, queue]
            rfl
          rw [handled]
          refine addressing.inTransaction urstif (fun waiting => ?_) sound _
          rcases confirms waiting with none | ⟨-, both⟩
          · exact absurd ((heads rfl).symm.trans none) (List.cons_ne_nil _ _)
          · exact both
        | ep00Out =>
          have waiting : system.usb.usbDeviceState ≠ .adrPending := by
            intro waiting
            rcases confirms waiting with none | ⟨one, -⟩
            · exact absurd ((heads rfl).symm.trans none) (List.cons_ne_nil _ _)
            · exact absurd (List.cons.inj ((heads rfl).symm.trans one)).1 (by decide)
          obtain ⟨next, uaddr⟩ := addressing.outTransaction rom sound urstif waiting others queue
          exact ⟨next, Or.inl uaddr⟩
    · exact ⟨addressing, Or.inl rfl⟩

/-- The driver changes the address on a bus reset, or to a confirmed one. -/
theorem Addressing.driverService (rom : Rom) (addressing : Addressing system) (sound : Sound system)
    (sensible : Sensible system.usb) :
    Addressing { system with usb := usbDriverService rom system.usb } ∧
      ((usbDriverService rom system.usb).uaddr = system.usb.uaddr ∨
        system.usb.urstif = true ∧ (usbDriverService rom system.usb).uaddr = 0 ∨
        TakesAddress system (usbDriverService rom system.usb).uaddr) := by
  by_cases detached : system.usb.usbDeviceState = .detached
  · rw [usbDriverService, if_pos detached]
    exact ⟨addressing, Or.inl rfl⟩
  · have plugged : system.usb.usben = true := by
      cases on : system.usb.usben with
      | true => rfl
      | false => exact absurd (sensible.plugged on) detached
    let awake := if system.usb.actvif && system.usb.uie.actvie then usbWakeFromSuspend system.usb
      else system.usb
    have woken : pendingSide awake = pendingSide system.usb ∧ roleSide awake = roleSide system.usb ∧
        endpoint awake = endpoint system.usb := by
      change pendingSide (if _ then _ else _) = _ ∧ roleSide (if _ then _ else _) = _ ∧
        endpoint (if _ then _ else _) = _
      split <;> exact ⟨rfl, rfl, rfl⟩
    obtain ⟨side, role, same⟩ := woken
    have addressingAwake : Addressing { system with usb := awake } := addressing.of_side side
    have uaddr : awake.uaddr = system.usb.uaddr := congrArg Prod.fst role
    simp only [pendingSide, Prod.mk.injEq] at side
    obtain ⟨state, -, -, urstif, -⟩ := side
    simp only [roleSide, Prod.mk.injEq] at role
    obtain ⟨-, -, -, urstie, -, usben⟩ := role
    have soundAwake : Sound { system with usb := awake } :=
      sound.of_endpoint same (fun set => urstif.symm.trans set) fun off => by
        rw [state]
        exact sound.plugged (usben.symm.trans off)
    have driven : usbDriverService rom system.usb =
        if awake.suspnd then awake else serviceTransaction rom (serviceFlags awake) := if_neg detached
    rw [driven]
    cases awake.suspnd with
    | true => exact ⟨addressingAwake, Or.inl uaddr⟩
    | false =>
      have flagged := (soundAwake.flags (usben.trans plugged)).1
      cases seen : awake.urstif && awake.uie.urstie with
      | true =>
        -- A bus reset is on its way: nothing is pending behind it.
        have reset := flags_reset awake seen
        simp only [Prod.mk.injEq] at reset
        obtain ⟨zero, default, running, empty⟩ := reset
        have done : serviceTransaction rom (serviceFlags awake) = serviceFlags awake := by
          rw [serviceTransaction, empty]
          split
          · rfl
          · exact if_neg (by simp)
        have quiet : (serviceFlags awake).usbDeviceState ≠ .adrPending := by
          rw [default]
          exact fun is => DeviceState.noConfusion is
        simp only [Bool.false_eq_true, if_false, done]
        exact ⟨addressing.of_quiet quiet running,
          Or.inr (Or.inl ⟨urstif.symm.trans (Bool.and_eq_true _ _ ▸ seen).1, zero⟩)⟩
      | false =>
        have quiet (pending : awake.usbDeviceState = .adrPending) : awake.uep0 = epCtrl := by
          obtain ⟨transfer, running, -⟩ := addressingAwake.pending pending
          have alive : (endpoint awake).alive = true := by
            simp only [endpoint, pending]
            decide
          exact (soundAwake.phase.confirms transfer running alive).1.uep0
        obtain ⟨fields, transfer⟩ := flags_calm awake seen quiet
        simp only [Prod.mk.injEq] at fields
        obtain ⟨address, device, pktdis, flag, setupPkt, -⟩ := fields
        have kept : Addressing { system with usb := serviceFlags awake } := by
          refine ⟨?_, ?_, addressing.proper⟩
          · intro pending
            have before : awake.usbDeviceState = .adrPending := device.symm.trans pending
            obtain ⟨confirming, running, named⟩ := addressingAwake.pending before
            refine ⟨(transfer before).trans confirming, pktdis.trans running, fun clear => ?_⟩
            change ∃ pkt, _ ∧ _ ∧ _ ∧ bDevADR (serviceFlags awake).setupPkt = _
            rw [setupPkt]
            exact named (flag.symm.trans clear)
          · exact fun stopped clear =>
              addressingAwake.asked (pktdis.symm.trans stopped) (flag.symm.trans clear)
        have clear : DeviceState.default.value ≤ (serviceFlags awake).usbDeviceState.value →
            (serviceFlags awake).urstif = false := by
          intro alive
          rw [device, state] at alive
          have alert : awake.uie.urstie = true := urstie.trans (sensible.alert alive).1
          rw [alert, Bool.and_true] at seen
          exact flag.trans seen
        obtain ⟨next, taken⟩ := kept.transaction rom flagged clear
        simp only [Bool.false_eq_true, if_false]
        refine ⟨next, ?_⟩
        rcases taken with same | taken
        · exact Or.inl ((same.trans address).trans uaddr)
        · exact Or.inr (Or.inr taken)

/-- `USBCheckBusStatus()` has no address to take, since it only changes devices that
have none. -/
theorem Addressing.checkBusStatus (addressing : Addressing system) (sound : Sound system)
    (sensible : Sensible system.usb) :
    Addressing { system with usb := usbCheckBusStatus system.usb } ∧
      (usbCheckBusStatus system.usb).uaddr = system.usb.uaddr := by
  by_cases early : system.usb.usbDeviceState.value < DeviceState.default.value
  · obtain ⟨-, running, -⟩ := sound.phase.dead (decide_eq_false (Nat.not_le.mpr early))
    have open_ : system.usb.pktdis = false := running
    have fields : (usbCheckBusStatus system.usb).usbDeviceState ≠ .adrPending ∧
        (usbCheckBusStatus system.usb).pktdis = false ∧
        (usbCheckBusStatus system.usb).uaddr = system.usb.uaddr := by
      have waiting : system.usb.usbDeviceState ≠ .adrPending := by
        intro is
        rw [is] at early
        exact absurd early (by decide)
      unfold usbCheckBusStatus
      cases system.usb.usben with
      | true =>
        simp only [if_true]
        split
        · split
          · exact ⟨waiting, open_, rfl⟩
          · exact ⟨fun is => DeviceState.noConfusion is, open_, rfl⟩
        · exact ⟨waiting, open_, rfl⟩
      | false =>
        simp only [Bool.false_eq_true, if_false, usbModuleEnable, if_true]
        split <;> exact ⟨fun is => DeviceState.noConfusion is, rfl, rfl⟩
    obtain ⟨state, same, uaddr⟩ := fields
    exact ⟨addressing.of_quiet state same, uaddr⟩
  · have plugged := sensible.on (Nat.not_lt.mp early)
    have attached : system.usb.usbDeviceState ≠ .attached := by
      intro is
      rw [is] at early
      exact early (by decide)
    have same : usbCheckBusStatus system.usb = system.usb := by
      simp only [usbCheckBusStatus, plugged, if_true, if_neg attached]
    rw [same]
    exact ⟨addressing, rfl⟩

/-- Every step of a proper run keeps the invariant, and only the driver changes the address. -/
theorem Addressing.step (addressing : Addressing system) (sound : Sound system)
    (sensible : Sensible system.usb) (action : Step) (proper : Proper system action) :
    Addressing (step rom system action) ∧
      ((step rom system action).usb.uaddr ≠ system.usb.uaddr →
        action = .busReset ∧ (step rom system action).usb.uaddr = 0 ∨
        action = .driverService ∧
          (system.usb.urstif = true ∧ (step rom system action).usb.uaddr = 0 ∨
            TakesAddress system (step rom system action).usb.uaddr)) := by
  let Kept (after : Usb) : Prop :=
    pendingSide after = pendingSide system.usb ∧ after.uaddr = system.usb.uaddr
  cases action with
  | setupToken pkt =>
    change Addressing (if takesSetup system.usb then _ else system : System) ∧
      ((if takesSetup system.usb then _ else system : System).usb.uaddr ≠ _ → _)
    cases takes : takesSetup system.usb with
    | true =>
      obtain ⟨_, _, _, _, memory⟩ := fill_memory system.usb system.usb.ep0Bo.adr pkt 8
      have state := congrArg Usb.usbDeviceState memory
      have uaddr := congrArg Usb.uaddr memory
      refine ⟨⟨?_, fun _ _ => Option.some_ne_none _, ?_⟩, fun changed => absurd uaddr changed⟩
      · intro pending
        -- A request that waits to be confirmed keeps an orderly host from the next one.
        exact absurd (addressing.pending (state.symm.trans pending)).1 proper.1.2.1
      · intro other request
        obtain rfl := Option.some.inj request
        exact proper.2 pkt rfl
    | false => exact ⟨addressing, fun changed => absurd rfl changed⟩
  | outToken toggle data =>
    have waiting : system.usb.usbDeviceState ≠ .adrPending :=
      fun pending => proper.1 (addressing.pending pending).1
    have kept : Addressing { system with usb := sieOut system.usb toggle data } ∧
        (sieOut system.usb toggle data).uaddr = system.usb.uaddr := by
      refine sieOut_keeps (fun after => Addressing { system with usb := after } ∧
        after.uaddr = system.usb.uaddr) toggle data ?_ (fun _ => ?_) fun _ => ?_
      · exact ⟨addressing, rfl⟩
      · exact ⟨addressing.of_idle waiting rfl rfl rfl, rfl⟩
      · obtain ⟨_, _, _, _, memory⟩ :=
          fill_memory system.usb system.usb.ep0Bo.adr (area data) data.length
        rw [memory]
        exact ⟨addressing.of_idle waiting rfl rfl rfl, rfl⟩
    exact ⟨kept.1, fun changed => absurd kept.2 changed⟩
  | inToken =>
    have kept : Kept (sieIn system.usb).1 :=
      sieIn_keeps Kept ⟨rfl, rfl⟩ (fun _ => ⟨rfl, rfl⟩) ⟨rfl, rfl⟩
    have next := addressing.of_side kept.1
    exact ⟨⟨next.pending, next.asked, next.proper⟩, fun changed => absurd kept.2 changed⟩
  | hidOutToken toggle data =>
    have kept : Kept (sieHidOut system.usb toggle data) :=
      sieHidOut_keeps Kept toggle data ⟨rfl, rfl⟩ ⟨rfl, rfl⟩ ⟨rfl, rfl⟩
    exact ⟨addressing.of_side kept.1, fun changed => absurd kept.2 changed⟩
  | hidInToken =>
    have kept : Kept (sieHidIn system.usb).1 :=
      sieHidIn_keeps Kept ⟨rfl, rfl⟩ ⟨rfl, rfl⟩ ⟨rfl, rfl⟩
    exact ⟨addressing.of_side kept.1, fun changed => absurd kept.2 changed⟩
  | busReset =>
    refine ⟨⟨?_, ?_, fun pkt request => absurd request (Option.some_ne_none pkt).symm⟩,
      fun _ => Or.inl ⟨rfl, rfl⟩⟩
    · intro pending
      obtain ⟨state, running, -⟩ := addressing.pending pending
      exact ⟨state, running, fun clear => absurd clear.symm Bool.false_ne_true⟩
    · exact fun _ clear => absurd clear.symm Bool.false_ne_true
  | busIdle | busActivity | startOfFrame | busError | lineState | txReport =>
    exact ⟨addressing.of_side rfl, fun changed => absurd rfl changed⟩
  | checkBusStatus =>
    obtain ⟨next, uaddr⟩ := addressing.checkBusStatus sound sensible
    exact ⟨next, fun changed => absurd uaddr changed⟩
  | driverService =>
    obtain ⟨next, taken⟩ := addressing.driverService rom sound sensible
    refine ⟨next, fun changed => Or.inr ⟨rfl, ?_⟩⟩
    rcases taken with same | taken
    · exact absurd same changed
    · exact taken
  | rxReport len =>
    have kept : Kept (hidRxReport system.usb len).1 :=
      hidRxReport_keeps Kept len ⟨rfl, rfl⟩ fun _ => ⟨rfl, rfl⟩
    exact ⟨addressing.of_side kept.1, fun changed => absurd kept.2 changed⟩

/-- In every run of a proper host, the address is lost with a bus reset, in the hardware
and again in the driver, and otherwise only changes in the driver: to what the last
request names, once the host has read its confirmation. The host must not send another
request before that one is through; the hardware would take it into `CtrlTrfData`, and
the pending address would no longer be that of the last request. -/
theorem address_taken (rom : Rom) (steps : List Step)
    (proper : Throughout (step rom) Proper powerOn steps) :
    Throughout (step rom) (fun system action =>
      (step rom system action).usb.uaddr ≠ system.usb.uaddr →
        action = .busReset ∧ (step rom system action).usb.uaddr = 0 ∨
        action = .driverService ∧
          (system.usb.urstif = true ∧ (step rom system action).usb.uaddr = 0 ∨
            TakesAddress system (step rom system action).usb.uaddr)) powerOn steps := by
  refine throughout_of_invariant (step rom) Proper
    (fun system => Sound system ∧ Sensible system.usb ∧ Addressing system) _ ?_ ?_ powerOn steps
    ⟨.powerOn, .powerOn, fun is => absurd is (by decide),
      fun stopped => absurd stopped Bool.false_ne_true,
      fun pkt request => absurd request (Option.some_ne_none pkt).symm⟩ proper
  · rintro system action ⟨sound, sensible, addressing⟩ proper
    exact ⟨sound.step action proper.1, sensible.step action,
      (addressing.step sound sensible action proper).1⟩
  · rintro system action ⟨sound, sensible, addressing⟩ proper
    exact (addressing.step sound sensible action proper).2

/-- The host sets address 5. -/
theorem address_five_taken : TakesAddress
    (run (step ⟨fun _ _ => 0, fun _ _ => 0⟩) powerOn
      [.checkBusStatus, .busReset, .driverService, .setupToken (area [0, 5, 5, 0, 0, 0, 0, 0]),
        .driverService, .inToken]) 5 := by
  have proper : Throughout (step ⟨fun _ _ => 0, fun _ _ => 0⟩) Proper powerOn
      [.checkBusStatus, .busReset, .driverService, .setupToken (area [0, 5, 5, 0, 0, 0, 0, 0]),
        .driverService, .inToken, .driverService] := by
    simp only [throughout_cons, throughout_nil, Proper, Orderly, and_true, true_and,
      reduceCtorEq, false_implies, implies_true, Step.setupToken.injEq, forall_eq']
    decide +kernel
  have changed := address_taken _ _ proper
    [.checkBusStatus, .busReset, .driverService, .setupToken (area [0, 5, 5, 0, 0, 0, 0, 0]),
      .driverService, .inToken] .driverService [] rfl (by decide +kernel)
  rcases changed with lost | ⟨-, ⟨reset, -⟩ | taken⟩
  · exact Step.noConfusion lost.1
  · exact absurd reset (by decide +kernel)
  · exact taken

end Address

end ScicosFlex.Pic18.Stack
