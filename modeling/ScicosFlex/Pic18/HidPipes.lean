import ScicosFlex.Library.AlternatingBit
import ScicosFlex.Pic18.ControlPhases

/-!
# The HID pipes over endpoint 1

Reports go both ways between the PC and the programs of the PIC18: `HIDRxReport`
collects what the host has written, `HIDTxReport` makes a report ready for it. The
handshake of a packet can get lost on the bus; then the host repeats an OUT packet,
and the hardware an IN packet. Both pipes are alternating bit links: the firmware
changes the data bit whenever it hands a buffer over.

`hid_pipes_deliver`: from a new configuration on, until the next request that
configures the device or changes an endpoint's halt, every report arrives once and
in order, whatever else is going on.
-/

namespace ScicosFlex.Pic18.Stack

open Library Library.Runs

section Model

/-- The device and the host's side of the two pipes: the reports it has not seen
confirmed, the data bit of the first, and the bit it expects of an IN packet. -/
structure Pipes where
  system : System
  reports : List (List Byte)
  outBit : Bool
  inBit : Bool

/-- What can happen: the host's programs write a report, the host sends or asks for
one, with or without the handshake getting through, the programs of the device
read or send one, or something that has no part in the pipes. -/
inductive Action where
  | write (report : List Byte)
  | hidOut (confirmed : Bool)
  | hidIn (confirmed : Bool)
  | receive (len : Byte)
  | send (buffer : Area) (len : Byte)
  | other (action : Step)

/-- The hardware takes or drops an OUT packet, and says so. -/
def confirmsOut (usb : Usb) (toggle : Bool) (report : List Byte) : Bool :=
  listening usb && usb.uep1.getLsbD 2 && usb.ep1Bo.uown && !usb.ep1Bo.bstall &&
    ((usb.ep1Bo.dtsen && (usb.ep1Bo.dts != toggle)) || decide (report.length ≤ usb.ep1Bo.cnt.toNat))

/-- The report an IN packet brings, if its data bit is the expected one. -/
def Pipes.reads (pipes : Pipes) : List (List Byte) :=
  match (sieHidIn pipes.system.usb).2 with
  | some (bit, data) => if bit = pipes.inBit then [data] else []
  | none => []

/-- One step of the pipes. Without a confirmation the device's buffer stays as it is
after an IN packet, and the host's queue after an OUT packet. -/
def next (rom : Rom) (pipes : Pipes) : Action → Pipes
  | .write report => { pipes with reports := pipes.reports ++ [report] }
  | .hidOut confirmed =>
    match pipes.reports with
    | [] => pipes
    | report :: rest =>
      let system :=
        { pipes.system with usb := sieHidOut pipes.system.usb pipes.outBit report }
      if confirmed && confirmsOut pipes.system.usb pipes.outBit report then
        { pipes with system := system, reports := rest, outBit := !pipes.outBit }
      else { pipes with system := system }
  | .hidIn confirmed =>
    match sieHidIn pipes.system.usb with
    | (usb, some (bit, _)) =>
      { pipes with
        system := if confirmed then { pipes.system with usb := usb } else pipes.system
        inBit := if bit = pipes.inBit then !pipes.inBit else pipes.inBit }
    | (usb, none) => { pipes with system := { pipes.system with usb := usb } }
  | .receive len => { pipes with system := step rom pipes.system (.rxReport len) }
  | .send buffer len => { pipes with system := step rom pipes.system (.txReport buffer len) }
  | .other action => { pipes with system := step rom pipes.system action }

/-- A request that configures the device, or changes the halt of an endpoint. Both set
the data bits of the pipes anew, so a pipe is only followed between two of them. -/
def Reconfigures (pkt : Area) : Prop :=
  requestType pkt = standard ∧ (bRequest pkt = setCfg ∨
    (bRequest pkt = clrFeature ∨ bRequest pkt = setFeature) ∧ recipient pkt = rcptEp)

/-- Reports fit their buffers, programs wait for a free one, and nothing else touches the
pipes: the driver serves no request that changes them, and stays in its own memory. Data
that a host sends to a request without any would go through the destination pointer, and
that can end in the report buffers. -/
def Allowed (pipes : Pipes) : Action → Prop
  | .write report => report.length ≤ hidIntOutEpSize
  | .receive len => hidIntOutEpSize ≤ len.toNat
  | .send _ _ => pipes.system.usb.ep1Bi.uown = false
  | .other (.hidOutToken _ _) | .other .hidInToken | .other (.txReport _ _) | .other (.rxReport _) =>
    False
  | .other .driverService =>
    let usb := pipes.system.usb
    Contained usb ∧
      (usb.ustat.head? = some .ep00Out → usb.ep0Bo.pid = setupToken → ¬ Reconfigures usb.setupPkt)
  | _ => True

/-- The reports an action gives to a pipe, and those it takes out of one. -/
def written : Action → List (List Byte)
  | .write report => [report]
  | _ => []

def received (pipes : Pipes) : Action → List (List Byte)
  | .receive len =>
    if pipes.system.usb.ep1Bo.uown then [] else [(hidRxReport pipes.system.usb len).2]
  | _ => []

def sent : Action → List (List Byte)
  | .send buffer len => [buffer.bytes (min hidIntInEpSize len.toNat)]
  | _ => []

def read (pipes : Pipes) : Action → List (List Byte)
  | .hidIn _ => pipes.reads
  | _ => []

/-- The pipes as links. The buffer of the OUT pipe holds a report while it belongs
to the firmware, that of the IN pipe while it belongs to the hardware. -/
def outLink (pipes : Pipes) : AlternatingBit.Link (List Byte) where
  waiting := pipes.reports
  bit := pipes.outBit
  expected := pipes.system.usb.ep1Bo.dts
  held :=
    let usb := pipes.system.usb
    if usb.ep1Bo.uown then none else some (usb.hidReportOut.bytes usb.ep1Bo.cnt.toNat)

def inLink (pipes : Pipes) : AlternatingBit.Link (List Byte) where
  waiting :=
    let usb := pipes.system.usb
    if usb.ep1Bi.uown then [usb.hidReportIn.bytes usb.ep1Bi.cnt.toNat] else []
  bit := if pipes.system.usb.ep1Bi.uown then pipes.system.usb.ep1Bi.dts else !pipes.system.usb.ep1Bi.dts
  expected := pipes.inBit
  held := none

/-- A new configuration: `HIDInitEP` has run, and the host begins with data bit 0. The
buffer of endpoint 0 is one of its own two. -/
structure Configured (pipes : Pipes) : Prop where
  init : ∃ usb, pipes.system.usb = hidInitEP usb
  control : pipes.system.usb.ep0Bo.adr = .setupPkt ∨ pipes.system.usb.ep0Bo.adr = .ctrlTrfData
  outBit : pipes.outBit = false
  inBit : pipes.inBit = false

/-- The invariant: the buffers of endpoint 1 are in order while they belong to the
hardware, and endpoint 0 uses its own. -/
structure Piped (pipes : Pipes) : Prop where
  armed : pipes.system.usb.ep1Bo.uown = true → pipes.system.usb.ep1Bo.bstall = false ∧
    pipes.system.usb.ep1Bo.dtsen = true ∧ pipes.system.usb.ep1Bo.cnt = 64
  taken : pipes.system.usb.ep1Bo.cnt.toNat ≤ 64
  offered : pipes.system.usb.ep1Bi.uown = true → pipes.system.usb.ep1Bi.bstall = false
  reports : ∀ report ∈ pipes.reports, report.length ≤ hidIntOutEpSize
  control : pipes.system.usb.ep0Bo.adr = .setupPkt ∨ pipes.system.usb.ep0Bo.adr = .ctrlTrfData

end Model

section Handover

/-- A buffer handed over has the other data bit and is in order. -/
theorem bufferReady (bd : Bdt) : (mUSBBufferReady bd).uown = true ∧
    (mUSBBufferReady bd).dts = !bd.dts ∧ (mUSBBufferReady bd).dtsen = true ∧
    (mUSBBufferReady bd).bstall = false := by
  obtain ⟨stat, cnt, adr⟩ := bd
  simp only [mUSBBufferReady, Bdt.uown, Bdt.dts, Bdt.dtsen, Bdt.bstall]
  refine ⟨?_, ?_, ?_, ?_⟩
  all_goals simp [dtsmask, usie, dtsen]

/-- A buffer handed back keeps its data bit. -/
theorem handedBack (bd : Bdt) (pid cnt : Byte) (token : pid = outToken ∨ pid = inToken) :
    (handBack bd pid cnt).uown = false ∧ (handBack bd pid cnt).dts = bd.dts := by
  obtain ⟨stat, old, adr⟩ := bd
  simp only [handBack, Bdt.uown, Bdt.dts]
  rcases token with rfl | rfl <;> constructor <;> simp [dtsmask, outToken, inToken]

end Handover

section Aside

variable {rom : Rom} {usb : Usb}

/-- A step that has no part in the pipes; endpoint 0 keeps to its own buffers. What is
written to those cannot be a report then. -/
structure Aside (before after : Usb) : Prop where
  side : (after.ep1Bo, after.ep1Bi, after.hidReportOut, after.hidReportIn) =
    (before.ep1Bo, before.ep1Bi, before.hidReportOut, before.hidReportIn)
  control : before.ep0Bo.adr = .setupPkt ∨ before.ep0Bo.adr = .ctrlTrfData →
    after.ep0Bo.adr = .setupPkt ∨ after.ep0Bo.adr = .ctrlTrfData

theorem Aside.refl (usb : Usb) : Aside usb usb := ⟨rfl, id⟩

theorem Aside.trans {first second third : Usb} (one : Aside first second)
    (other : Aside second third) : Aside first third :=
  ⟨other.side.trans one.side, fun before => other.control (one.control before)⟩

theorem Aside.ite {condition : Prop} [Decidable condition] {first second : Usb}
    (one : Aside usb first) (other : Aside usb second) :
    Aside usb (if condition then first else second) := by
  split
  · exact one
  · exact other

/-- The HID requests stay aside. -/
theorem hidRequest_aside : Aside usb (usbCheckHIDRequest usb) := by
  have descriptors : Aside usb (hidDescriptorRequest usb) := .ite ⟨rfl, id⟩ (.ite ⟨rfl, id⟩ ⟨rfl, id⟩)
  have classes (usb : Usb) : Aside usb (hidClassRequest usb) :=
    .ite ⟨rfl, id⟩ (.ite ⟨rfl, id⟩ (.ite ⟨rfl, id⟩ (.ite ⟨rfl, id⟩ ⟨rfl, id⟩)))
  have first : Aside usb (if bRequest usb.setupPkt = getDsc then hidDescriptorRequest usb else usb) :=
    .ite descriptors (.refl usb)
  exact .ite (.refl usb) (.ite (.refl usb) (.ite first (first.trans (classes _))))

/-- So do the standard requests, unless they configure the device or halt an endpoint. -/
theorem stdRequest_aside (other : ¬ Reconfigures usb.setupPkt) :
    Aside usb (usbCheckStdRequest rom usb) := by
  have descriptors : Aside usb (usbStdGetDscHandler rom usb) :=
    .ite (.ite ⟨rfl, id⟩ (.ite ⟨rfl, id⟩ (.ite ⟨rfl, id⟩ ⟨rfl, id⟩))) (.refl usb)
  have status : Aside usb (usbStdGetStatusHandler usb) :=
    .ite ⟨rfl, id⟩ (.ite ⟨rfl, id⟩ (.ite ⟨rfl, id⟩ ⟨rfl, id⟩))
  unfold usbCheckStdRequest
  simp only
  split
  · exact .refl usb
  · rename_i kind
    have isStandard := not_ne_iff.mp kind
    have configuration : ¬ bRequest usb.setupPkt = setCfg := fun code =>
      other ⟨isStandard, Or.inl code⟩
    rw [if_neg configuration]
    refine .ite ⟨rfl, id⟩ (.ite descriptors (.ite ⟨rfl, id⟩ (.ite status ?_)))
    by_cases feature : bRequest usb.setupPkt = clrFeature ∨ bRequest usb.setupPkt = setFeature
    · have endpoint : ¬ (bFeature usb.setupPkt = endpointHalt ∧ recipient usb.setupPkt = rcptEp ∧
          epNum usb.setupPkt ≠ 0) := fun halt => other ⟨isStandard, Or.inr ⟨feature, halt.2.1⟩⟩
      rw [if_pos feature, usbStdFeatureReqHandler]
      simp only [if_neg endpoint]
      exact .ite ⟨rfl, id⟩ (.refl usb)
    · rw [if_neg feature]
      exact .ite ⟨rfl, id⟩ (.ite ⟨rfl, id⟩ (.refl usb))

/-- So does the handler of setup packets. -/
theorem setupHandler_aside (other : ¬ Reconfigures usb.setupPkt) :
    Aside usb (usbCtrlTrfSetupHandler rom usb) := by
  let cleared : Usb :=
    { usb with ctrlTrfState := .waitSetup, ctrlTrfSessionOwner := .null, wCount := 0 }
  have opened : Aside usb cleared := ⟨rfl, id⟩
  have first : Aside usb (usbCheckStdRequest rom cleared) := opened.trans (stdRequest_aside other)
  have found : Aside usb (findOwner rom usb) := .ite (first.trans hidRequest_aside) first
  have complete (usb : Usb) : Aside usb (usbCtrlEPServiceComplete usb) := by
    unfold usbCtrlEPServiceComplete
    simp only
    split
    · exact ⟨rfl, fun _ => Or.inl rfl⟩
    · split
      · exact ⟨rfl, fun _ => Or.inl rfl⟩
      · exact ⟨rfl, fun _ => Or.inr rfl⟩
  exact found.trans (complete _)

/-- The driver stays aside, if it does not come to such a request. All its tasks are
gone through; the requests that are left change neither the pipes nor their buffers. -/
theorem driver_aside (other : usb.ustat.head? = some .ep00Out → usb.ep0Bo.pid = setupToken →
    ¬ Reconfigures usb.setupPkt) : Aside usb (usbDriverService rom usb) := by
  let before (after : Usb) : Prop := Aside usb after ∧ (after.ustat.head? = some .ep00Out →
    after.ep0Bo.pid = setupToken → ¬ Reconfigures after.setupPkt)
  refine usbDriverService_keeps rom before (Aside usb) (fun _ both => both.1) usb ⟨.refl usb, other⟩
    ⟨⟨rfl, id⟩, other⟩ ?_ ?_
  · intro after here
    refine serviceFlags_keeps before ?_ ?_ ?_ ?_ ?_ after here
    · rintro after ⟨aside, -⟩ -
      exact ⟨aside.trans ⟨rfl, fun _ => Or.inl rfl⟩, fun head => absurd head (Option.some_ne_none _).symm⟩
    · rintro after ⟨aside, spared⟩
      exact ⟨aside.trans ⟨rfl, id⟩, spared⟩
    · rintro after ⟨aside, spared⟩
      exact ⟨aside.trans ⟨rfl, id⟩, spared⟩
    · rintro after ⟨aside, spared⟩
      unfold usbStallHandler
      simp only
      split
      · have armed : (usbPrepareForNextSetupTrf after).ep0Bo.pid ≠ setupToken := by
          change Bdt.pid ⟨usie ||| dat0 ||| dtsen, 8, .setupPkt⟩ ≠ setupToken
          decide
        exact ⟨aside.trans ⟨rfl, fun _ => Or.inl rfl⟩, fun _ pid => absurd pid armed⟩
      · exact ⟨aside.trans ⟨rfl, id⟩, spared⟩
    · rintro after ⟨aside, spared⟩
      exact ⟨aside.trans ⟨rfl, id⟩, spared⟩
  · rintro after ⟨aside, spared⟩
    have served : Aside after (usbCtrlEPService rom after) := by
      unfold usbCtrlEPService
      split
      · rename_i head
        split
        · rename_i setup
          exact setupHandler_aside (spared head setup)
        · unfold usbCtrlTrfOutHandler
          split
          · exact ⟨rfl, id⟩
          · exact ⟨rfl, fun _ => Or.inl rfl⟩
      · unfold usbCtrlTrfInHandler mUSBCheckAdrPendingState
        split <;> simp only <;> split <;> first | exact ⟨rfl, id⟩ | exact ⟨rfl, fun _ => Or.inl rfl⟩
      · exact .refl after
    unfold serviceTransaction
    split
    · exact aside
    · split
      · exact (aside.trans served).trans ⟨rfl, id⟩
      · exact aside

/-- Steps that are allowed beside the pipes stay aside, as endpoint 0 only fills the two
buffers it has of its own. -/
theorem step_aside (rom : Rom) (pipes : Pipes) (action : Step) (allowed : Allowed pipes (.other action))
    (control : pipes.system.usb.ep0Bo.adr = .setupPkt ∨ pipes.system.usb.ep0Bo.adr = .ctrlTrfData) :
    Aside pipes.system.usb (step rom pipes.system action).usb := by
  have filled (usb : Usb) (own : usb.ep0Bo.adr = .setupPkt ∨ usb.ep0Bo.adr = .ctrlTrfData)
      (data : Area) (count : Nat) : Aside usb (fill usb usb.ep0Bo.adr data count) := by
    rcases own with is | is <;> rw [is] <;> exact ⟨rfl, id⟩
  cases action with
  | setupToken pkt =>
    change Aside _ (if takesSetup pipes.system.usb then _ else pipes.system : System).usb
    split
    · exact (filled _ control pkt 8).trans ⟨rfl, fun _ => control⟩
    · exact .refl _
  | outToken toggle data =>
    refine sieOut_keeps (Aside pipes.system.usb) toggle data (.refl _) (fun _ => ⟨rfl, id⟩) fun _ => ?_
    exact (filled _ control (area data) data.length).trans ⟨rfl, fun _ => control⟩
  | inToken =>
    exact sieIn_keeps (Aside pipes.system.usb) (.refl _) (fun _ => ⟨rfl, id⟩) ⟨rfl, id⟩
  | hidOutToken | hidInToken | txReport | rxReport => exact allowed.elim
  | busReset | busIdle | busActivity | startOfFrame | busError | lineState => exact ⟨rfl, id⟩
  | checkBusStatus =>
    change Aside _ (usbCheckBusStatus pipes.system.usb)
    unfold usbCheckBusStatus
    cases pipes.system.usb.usben with
    | true =>
      simp only [if_true]
      split
      · split
        · exact .refl _
        · exact ⟨rfl, id⟩
      · exact .refl _
    | false =>
      simp only [Bool.false_eq_true, if_false, usbModuleEnable, if_true]
      split <;> exact ⟨rfl, id⟩
  | driverService => exact driver_aside allowed.2

end Aside

section Pipes

variable {rom : Rom} {pipes : Pipes}

/-- The moves of the links that an action makes. -/
def outMoves (pipes : Pipes) : Action → List (AlternatingBit.Move (List Byte))
  | .write report => [.offer report]
  | .hidOut confirmed =>
    match pipes.reports with
    | [] => []
    | report :: _ =>
      if confirmsOut pipes.system.usb pipes.outBit report then [.transmit confirmed] else []
  | .receive _ => [.collect]
  | _ => []

def inMoves (pipes : Pipes) : Action → List (AlternatingBit.Move (List Byte))
  | .send buffer len => [.offer (buffer.bytes (min hidIntInEpSize len.toNat))]
  | .hidIn confirmed =>
    match (sieHidIn pipes.system.usb).2 with
    | some _ => [.transmit confirmed, .collect]
    | none => []
  | _ => []

/-- What a step has to do: keep the invariant, and make its moves in the two links that
stand for the pipes. -/
structure Moved (rom : Rom) (pipes : Pipes) (action : Action) : Prop where
  piped : Piped (next rom pipes action)
  out : outLink (next rom pipes action) =
    run AlternatingBit.step (outLink pipes) (outMoves pipes action)
  inn : inLink (next rom pipes action) =
    run AlternatingBit.step (inLink pipes) (inMoves pipes action)

/-- What stays aside makes no move. -/
theorem moved_aside (piped : Piped pipes) (after : Pipes)
    (aside : Aside pipes.system.usb after.system.usb)
    (host : (after.reports, after.outBit, after.inBit) = (pipes.reports, pipes.outBit, pipes.inBit)) :
    Piped after ∧ outLink after = outLink pipes ∧ inLink after = inLink pipes := by
  have side := aside.side
  simp only [Prod.mk.injEq] at side host
  obtain ⟨out, inn, received, sent⟩ := side
  obtain ⟨reports, outBit, inBit⟩ := host
  refine ⟨⟨?_, ?_, ?_, ?_, aside.control piped.control⟩, ?_, ?_⟩
  · rw [out]
    exact piped.armed
  · rw [out]
    exact piped.taken
  · rw [inn]
    exact piped.offered
  · rw [reports]
    exact piped.reports
  · simp only [outLink, reports, outBit, out, received]
  · simp only [inLink, inBit, inn, sent]

/-- The hardware takes the next report, drops one it has taken before, or does not answer. -/
theorem hidOut_cases (usb : Usb) (armed : usb.ep1Bo.uown = true → usb.ep1Bo.bstall = false ∧
      usb.ep1Bo.dtsen = true ∧ usb.ep1Bo.cnt = 64) (toggle : Bool) (report : List Byte)
    (fits : report.length ≤ hidIntOutEpSize) :
    confirmsOut usb toggle report = false ∧ sieHidOut usb toggle report = usb ∨
      confirmsOut usb toggle report = true ∧ usb.ep1Bo.uown = true ∧
        (usb.ep1Bo.dts ≠ toggle ∧ sieHidOut usb toggle report = usb ∨
          usb.ep1Bo.dts = toggle ∧ sieHidOut usb toggle report =
            { usb with
              hidReportOut := fun k => if k < report.length then area report k else usb.hidReportOut k
              ep1Bo := handBack usb.ep1Bo outToken (BitVec.ofNat 8 report.length)
              ustat := usb.ustat ++ [.ep01Out] }) := by
  cases answers : listening usb && usb.uep1.getLsbD 2 && usb.ep1Bo.uown with
  | false =>
    refine Or.inl ⟨?_, ?_⟩
    · rw [confirmsOut, answers, Bool.false_and, Bool.false_and]
    · simp only [sieHidOut, answers, Bool.false_eq_true, if_false]
  | true =>
    have own : usb.ep1Bo.uown = true := (Bool.and_eq_true _ _ ▸ answers).2
    obtain ⟨free, checked, room⟩ := armed own
    have enough : report.length ≤ usb.ep1Bo.cnt.toNat := by
      rw [room]
      exact fits
    refine Or.inr ⟨?_, own, ?_⟩
    · rw [confirmsOut, answers, free, decide_eq_true enough, Bool.or_true]
      rfl
    · by_cases same : usb.ep1Bo.dts = toggle
      · refine Or.inr ⟨same, ?_⟩
        have new : (usb.ep1Bo.dtsen && (usb.ep1Bo.dts != toggle)) = false := by
          rw [same]
          simp
        simp only [sieHidOut, answers, if_true, free, Bool.false_eq_true, if_false, new, if_pos enough]
      · refine Or.inl ⟨same, ?_⟩
        have old : (usb.ep1Bo.dtsen && (usb.ep1Bo.dts != toggle)) = true := by
          rw [checked, Bool.true_and]
          exact bne_iff_ne.mpr same
        simp only [sieHidOut, answers, if_true, free, Bool.false_eq_true, if_false, old]

/-- An OUT packet is a transmission of the OUT link. If the hardware does not take it,
the link is lossy; if it has taken it already, the bit tells. -/
theorem moved_hidOut (piped : Piped pipes) (confirmed : Bool) :
    Moved rom pipes (.hidOut confirmed) := by
  obtain ⟨system, reports, outBit, inBit⟩ := pipes
  cases reports with
  | nil => exact ⟨piped, rfl, rfl⟩
  | cons report rest =>
    have fits := piped.reports report List.mem_cons_self
    have others : ∀ other ∈ rest, other.length ≤ hidIntOutEpSize := fun other member =>
      piped.reports other (List.mem_cons_of_mem _ member)
    rcases hidOut_cases system.usb piped.armed outBit report fits with
      ⟨silent, same⟩ | ⟨answers, own, ⟨old, same⟩ | ⟨new, taken⟩⟩
    · have stays : next rom ⟨system, report :: rest, outBit, inBit⟩ (.hidOut confirmed) =
          ⟨system, report :: rest, outBit, inBit⟩ := by
        simp only [next, silent, Bool.and_false, Bool.false_eq_true, if_false, same]
      refine ⟨?_, ?_, ?_⟩
      · rw [stays]
        exact piped
      · rw [stays]
        simp only [outMoves, silent, Bool.false_eq_true, if_false, run_nil]
      · rw [stays]
        rfl
    · -- A repetition: only the host goes on.
      have different : ¬ outBit = system.usb.ep1Bo.dts := fun is => old is.symm
      have before : outLink ⟨system, report :: rest, outBit, inBit⟩ =
          ⟨report :: rest, outBit, system.usb.ep1Bo.dts, none⟩ := by
        simp only [outLink, own, if_true]
      cases confirmed with
      | true =>
        have after : next rom ⟨system, report :: rest, outBit, inBit⟩ (.hidOut true) =
            ⟨system, rest, !outBit, inBit⟩ := by
          simp only [next, answers, Bool.and_self, if_true, same]
        refine ⟨?_, ?_, ?_⟩
        · rw [after]
          exact ⟨piped.armed, piped.taken, piped.offered, others, piped.control⟩
        · rw [after, before]
          simp only [outMoves, answers, if_true, outLink, own, run_cons, run_nil,
            AlternatingBit.step, if_neg different]
        · rw [after]
          rfl
      | false =>
        have after : next rom ⟨system, report :: rest, outBit, inBit⟩ (.hidOut false) =
            ⟨system, report :: rest, outBit, inBit⟩ := by
          simp only [next, Bool.false_and, Bool.false_eq_true, if_false, same]
        refine ⟨?_, ?_, ?_⟩
        · rw [after]
          exact piped
        · rw [after, before]
          simp only [outMoves, answers, if_true, run_cons, run_nil, AlternatingBit.step,
            if_neg different, Bool.false_eq_true, if_false]
        · rw [after]
          rfl
    · -- A new report: the buffer belongs to the firmware now.
      obtain ⟨free, bit⟩ := handedBack system.usb.ep1Bo outToken (BitVec.ofNat 8 report.length)
        (Or.inl rfl)
      have small : report.length ≤ 64 := fits
      have count : (BitVec.ofNat 8 report.length).toNat = report.length := by
        rw [BitVec.toNat_ofNat]
        omega
      have before : outLink ⟨system, report :: rest, outBit, inBit⟩ =
          ⟨report :: rest, outBit, outBit, none⟩ := by
        simp only [outLink, own, if_true, new]
      let usb : Usb :=
        { system.usb with
          hidReportOut := fun k => if k < report.length then area report k else system.usb.hidReportOut k
          ep1Bo := handBack system.usb.ep1Bo outToken (BitVec.ofNat 8 report.length)
          ustat := system.usb.ustat ++ [.ep01Out] }
      have held : usb.hidReportOut.bytes usb.ep1Bo.cnt.toNat = report := by
        change Area.bytes _ (BitVec.ofNat 8 report.length).toNat = report
        rw [count, Area.bytes_congr _ (area report) _ fun k inside => if_pos inside,
          area_bytes _ _ (Nat.le_refl _), List.take_length]
      have linked (reports : List (List Byte)) (outBit' : Bool) :
          outLink ⟨{ system with usb := usb }, reports, outBit', inBit⟩ =
            ⟨reports, outBit', outBit, some report⟩ := by
        have own' : usb.ep1Bo.uown = false := free
        simp only [outLink, own', Bool.false_eq_true, if_false, held]
        rw [show usb.ep1Bo.dts = _ from bit, new]
      have fine (reports : List (List Byte)) (outBit' : Bool)
          (short : ∀ report ∈ reports, report.length ≤ hidIntOutEpSize) :
          Piped ⟨{ system with usb := usb }, reports, outBit', inBit⟩ :=
        ⟨fun own => absurd (free.symm.trans own) (by decide), by
          change (BitVec.ofNat 8 report.length).toNat ≤ 64
          omega, piped.offered, short, piped.control⟩
      cases confirmed with
      | true =>
        have after : next rom ⟨system, report :: rest, outBit, inBit⟩ (.hidOut true) =
            ⟨{ system with usb := usb }, rest, !outBit, inBit⟩ := by
          simp only [next, answers, Bool.and_self, if_true, taken]
          rfl
        refine ⟨?_, ?_, ?_⟩
        · rw [after]
          exact fine _ _ others
        · rw [after, before, linked]
          simp only [outMoves, answers, if_true, run_cons, run_nil, AlternatingBit.step]
        · rw [after]
          rfl
      | false =>
        have after : next rom ⟨system, report :: rest, outBit, inBit⟩ (.hidOut false) =
            ⟨{ system with usb := usb }, report :: rest, outBit, inBit⟩ := by
          simp only [next, Bool.false_and, Bool.false_eq_true, if_false, taken]
          rfl
        refine ⟨?_, ?_, ?_⟩
        · rw [after]
          exact fine _ _ piped.reports
        · rw [after, before, linked]
          simp only [outMoves, answers, if_true, run_cons, run_nil, AlternatingBit.step,
            Bool.false_eq_true, if_false]
        · rw [after]
          rfl

/-- The hardware has a report for the host, or none. -/
theorem hidIn_cases (usb : Usb) (offered : usb.ep1Bi.uown = true → usb.ep1Bi.bstall = false) :
    sieHidIn usb = (usb, none) ∨
      usb.ep1Bi.uown = true ∧ sieHidIn usb =
        ({ usb with
           ep1Bi := handBack usb.ep1Bi inToken usb.ep1Bi.cnt
           ustat := usb.ustat ++ [.ep01In] },
         some (usb.ep1Bi.dts, usb.hidReportIn.bytes usb.ep1Bi.cnt.toNat)) := by
  cases answers : listening usb && usb.uep1.getLsbD 1 && usb.ep1Bi.uown with
  | false =>
    refine Or.inl ?_
    simp only [sieHidIn, answers, Bool.false_eq_true, if_false]
  | true =>
    have own : usb.ep1Bi.uown = true := (Bool.and_eq_true _ _ ▸ answers).2
    refine Or.inr ⟨own, ?_⟩
    simp only [sieHidIn, answers, if_true, offered own, Bool.false_eq_true, if_false]

/-- An IN packet is a transmission of the IN link, and the host collects it at once. -/
theorem moved_hidIn (rom : Rom) (piped : Piped pipes) (confirmed : Bool) :
    Moved rom pipes (.hidIn confirmed) ∧
      pipes.reads = (outputs AlternatingBit.step AlternatingBit.collected (inLink pipes)
        (inMoves pipes (.hidIn confirmed))).flatten := by
  obtain ⟨system, reports, outBit, inBit⟩ := pipes
  rcases hidIn_cases system.usb piped.offered with silent | ⟨own, given⟩
  · have after : next rom ⟨system, reports, outBit, inBit⟩ (.hidIn confirmed) =
        ⟨system, reports, outBit, inBit⟩ := by
      simp only [next, silent]
    have none : (sieHidIn system.usb).2 = none := congrArg Prod.snd silent
    refine ⟨⟨?_, ?_, ?_⟩, ?_⟩
    · rw [after]
      exact piped
    · rw [after]
      rfl
    · rw [after]
      simp only [inMoves, none, run_nil]
    · simp only [Pipes.reads, inMoves, none, outputs_nil, List.flatten_nil]
  · obtain ⟨free, bit⟩ := handedBack system.usb.ep1Bi inToken system.usb.ep1Bi.cnt (Or.inr rfl)
    let usb : Usb :=
      { system.usb with
        ep1Bi := handBack system.usb.ep1Bi inToken system.usb.ep1Bi.cnt
        ustat := system.usb.ustat ++ [.ep01In] }
    let data := system.usb.hidReportIn.bytes system.usb.ep1Bi.cnt.toNat
    let inBit' := if system.usb.ep1Bi.dts = inBit then !inBit else inBit
    have after : next rom ⟨system, reports, outBit, inBit⟩ (.hidIn confirmed) =
        ⟨if confirmed then { system with usb := usb } else system, reports, outBit, inBit'⟩ := by
      simp only [next, given]
      rfl
    have some : (sieHidIn system.usb).2 = some (system.usb.ep1Bi.dts, data) := congrArg Prod.snd given
    have before : inLink ⟨system, reports, outBit, inBit⟩ =
        ⟨[data], system.usb.ep1Bi.dts, inBit, none⟩ := by
      simp only [inLink, own, if_true]
      rfl
    refine ⟨⟨?_, ?_, ?_⟩, ?_⟩
    · rw [after]
      cases confirmed with
      | true =>
        exact ⟨piped.armed, piped.taken, fun own => absurd (free.symm.trans own) (by decide),
          piped.reports, piped.control⟩
      | false => exact ⟨piped.armed, piped.taken, piped.offered, piped.reports, piped.control⟩
    · rw [after]
      cases confirmed <;> rfl
    · rw [after, before]
      have own' : usb.ep1Bi.uown = false := free
      have bit' : usb.ep1Bi.dts = system.usb.ep1Bi.dts := bit
      by_cases same : system.usb.ep1Bi.dts = inBit
      · cases confirmed <;>
          simp [inMoves, some, inLink, AlternatingBit.step, own, own', bit', same, inBit', data]
      · cases confirmed <;>
          simp [inMoves, some, inLink, AlternatingBit.step, own, own', bit', same, inBit', data]
    · rw [before]
      by_cases same : system.usb.ep1Bi.dts = inBit <;> cases confirmed <;>
        simp [Pipes.reads, inMoves, some, AlternatingBit.step, AlternatingBit.collected, same]

/-- `HIDRxReport` collects the report of the OUT link. With room for a whole report it
is returned as it came, and the buffer is handed back for the other bit. -/
theorem moved_receive (rom : Rom) (piped : Piped pipes) (len : Byte) (room : hidIntOutEpSize ≤ len.toNat) :
    Moved rom pipes (.receive len) ∧
      received pipes (.receive len) = (outLink pipes).held.toList := by
  obtain ⟨system, reports, outBit, inBit⟩ := pipes
  cases own : system.usb.ep1Bo.uown with
  | true =>
    have held : outLink ⟨system, reports, outBit, inBit⟩ =
        ⟨reports, outBit, system.usb.ep1Bo.dts, none⟩ := by
      simp only [outLink, own, if_true]
    have after : next rom ⟨system, reports, outBit, inBit⟩ (.receive len) =
        ⟨{ system with usb := { system.usb with hidRptRxLen := 0 } }, reports, outBit, inBit⟩ := by
      simp only [next, step, hidRxReport, own, if_true]
    refine ⟨⟨?_, ?_, ?_⟩, ?_⟩
    · rw [after]
      exact ⟨piped.armed, piped.taken, piped.offered, piped.reports, piped.control⟩
    · rw [after, held]
      simp only [outMoves, run_cons, run_nil, AlternatingBit.step, outLink, own, if_true]
    · rw [after]
      rfl
    · rw [held]
      simp only [received, own, if_true, Option.toList_none]
  | false =>
    have count : (if system.usb.ep1Bo.cnt < len then system.usb.ep1Bo.cnt else len).toNat =
        system.usb.ep1Bo.cnt.toNat := by
      have taken : system.usb.ep1Bo.cnt.toNat ≤ 64 := piped.taken
      have enough : 64 ≤ len.toNat := room
      split
      · rfl
      · rename_i more
        rw [BitVec.lt_def] at more
        omega
    let bd : Bdt := { system.usb.ep1Bo with cnt := BitVec.ofNat 8 hidIntOutEpSize }
    obtain ⟨owned, bit, checked, fine⟩ := bufferReady bd
    have held : outLink ⟨system, reports, outBit, inBit⟩ =
        ⟨reports, outBit, system.usb.ep1Bo.dts,
          some (system.usb.hidReportOut.bytes system.usb.ep1Bo.cnt.toNat)⟩ := by
      simp only [outLink, own, Bool.false_eq_true, if_false]
    let copied : Byte := if system.usb.ep1Bo.cnt < len then system.usb.ep1Bo.cnt else len
    have after : next rom ⟨system, reports, outBit, inBit⟩ (.receive len) =
        ⟨{ system with usb := { system.usb with hidRptRxLen := copied, ep1Bo := mUSBBufferReady bd } },
          reports, outBit, inBit⟩ := by
      simp only [next, step, hidRxReport, own, Bool.false_eq_true, if_false]
      rfl
    have full : (BitVec.ofNat 8 hidIntOutEpSize).toNat ≤ 64 := by decide
    refine ⟨⟨?_, ?_, ?_⟩, ?_⟩
    · rw [after]
      exact ⟨fun _ => ⟨fine, checked, rfl⟩, full, piped.offered, piped.reports, piped.control⟩
    · rw [after, held]
      simp only [outMoves, run_cons, run_nil, AlternatingBit.step, outLink, owned, if_true, bit, bd]
      rfl
    · rw [after]
      rfl
    · rw [held]
      simp only [received, own, Bool.false_eq_true, if_false, hidRxReport, Option.toList_some, count]

/-- `HIDTxReport` offers a report to the IN link. Its callers have seen that the buffer
is free; written over a report that is still there it would be lost. -/
theorem moved_send (piped : Piped pipes) (buffer : Area) (len : Byte)
    (idle : pipes.system.usb.ep1Bi.uown = false) : Moved rom pipes (.send buffer len) := by
  obtain ⟨system, reports, outBit, inBit⟩ := pipes
  have free : system.usb.ep1Bi.uown = false := idle
  let size : Byte := if BitVec.ofNat 8 hidIntInEpSize < len then BitVec.ofNat 8 hidIntInEpSize else len
  have count : size.toNat = min hidIntInEpSize len.toNat := by
    have full : (BitVec.ofNat 8 hidIntInEpSize).toNat = hidIntInEpSize := rfl
    change (if BitVec.ofNat 8 hidIntInEpSize < len then _ else _ : Byte).toNat = _
    split
    · rename_i more
      rw [BitVec.lt_def, full] at more
      omega
    · rename_i less
      rw [BitVec.lt_def, full] at less
      omega
  let bd : Bdt := { system.usb.ep1Bi with cnt := size }
  obtain ⟨owned, bit, -, fine⟩ := bufferReady bd
  have after : next rom ⟨system, reports, outBit, inBit⟩ (.send buffer len) =
      ⟨{ system with
         usb :=
           { system.usb with
             hidReportIn := fun k => if k < size.toNat then buffer k else system.usb.hidReportIn k
             ep1Bi := mUSBBufferReady bd } }, reports, outBit, inBit⟩ := rfl
  refine ⟨?_, ?_, ?_⟩
  · rw [after]
    exact ⟨piped.armed, piped.taken, fun _ => fine, piped.reports, piped.control⟩
  · rw [after]
    rfl
  · have data : Area.bytes (fun k => if k < size.toNat then buffer k else system.usb.hidReportIn k)
        (mUSBBufferReady bd).cnt.toNat = buffer.bytes (min hidIntInEpSize len.toNat) := by
      change Area.bytes _ size.toNat = _
      rw [← count]
      exact Area.bytes_congr _ _ _ fun k inside => if_pos inside
    rw [after]
    simp only [inMoves, run_cons, run_nil, AlternatingBit.step, inLink, owned, if_true, free,
      Bool.false_eq_true, if_false, data, bit, List.nil_append]
    rfl

/-- Every allowed step moves the two links. The cases are the steps of the device; those
that have no part in the pipes move nothing. -/
theorem moved (piped : Piped pipes) (action : Action) (allowed : Allowed pipes action) :
    Moved rom pipes action := by
  cases action with
  | write report =>
    refine ⟨⟨piped.armed, piped.taken, piped.offered, ?_, piped.control⟩, rfl, rfl⟩
    intro other member
    rcases List.mem_append.mp member with earlier | last
    · exact piped.reports other earlier
    · rw [List.mem_singleton.mp last]
      exact allowed
  | hidOut confirmed => exact moved_hidOut piped confirmed
  | hidIn confirmed => exact (moved_hidIn rom piped confirmed).1
  | receive len => exact (moved_receive rom piped len allowed).1
  | send buffer len => exact moved_send piped buffer len allowed
  | other action =>
    have aside := step_aside rom pipes action allowed piped.control
    obtain ⟨still, out, inn⟩ := moved_aside piped (next rom pipes (.other action)) aside rfl
    exact ⟨still, out, inn⟩

/-- A new configuration has empty pipes in order: the OUT buffer waits for bit 0, and
the first report into the IN pipe goes out with it. -/
theorem Configured.piped (configured : Configured pipes) (empty : pipes.reports = []) :
    Piped pipes ∧ AlternatingBit.pending (outLink pipes) = [] ∧
      AlternatingBit.pending (inLink pipes) = [] ∧ AlternatingBit.Sound (outLink pipes) ∧
      AlternatingBit.Sound (inLink pipes) := by
  obtain ⟨system, reports, outBit, inBit⟩ := pipes
  obtain ⟨⟨usb, init⟩, control, out, inn⟩ := configured
  have none : reports = [] := empty
  have here : system.usb = hidInitEP usb := init
  subst none
  have outBo : system.usb.ep1Bo =
      { stat := usie ||| dat0 ||| dtsen, cnt := BitVec.ofNat 8 hidIntOutEpSize, adr := .hidReportOut } := by
    rw [here]
    rfl
  have inBi : system.usb.ep1Bi.stat = ucpu ||| dat1 := by
    rw [here]
    rfl
  have outIs : outLink ⟨system, [], outBit, inBit⟩ = ⟨[], false, false, Option.none⟩ := by
    have own : system.usb.ep1Bo.uown = true := by rw [outBo]; decide
    have bit : system.usb.ep1Bo.dts = false := by rw [outBo]; decide
    simp only [outLink, own, if_true, bit]
    rw [show outBit = false from out]
  have inIs : inLink ⟨system, [], outBit, inBit⟩ = ⟨[], false, false, Option.none⟩ := by
    have own : system.usb.ep1Bi.uown = false := by rw [Bdt.uown, inBi]; decide
    have bit : system.usb.ep1Bi.dts = true := by rw [Bdt.dts, inBi]; decide
    simp only [inLink, own, bit, Bool.false_eq_true, if_false, Bool.not_true]
    rw [show inBit = false from inn]
  refine ⟨⟨?_, ?_, ?_, fun report member => absurd member List.not_mem_nil, control⟩, ?_, ?_, ?_, ?_⟩
  · intro _
    change system.usb.ep1Bo.bstall = false ∧ system.usb.ep1Bo.dtsen = true ∧ system.usb.ep1Bo.cnt = 64
    rw [outBo]
    decide
  · change system.usb.ep1Bo.cnt.toNat ≤ 64
    rw [outBo]
    decide
  · intro own
    have free : system.usb.ep1Bi.uown = false := by rw [Bdt.uown, inBi]; decide
    exact absurd (free.symm.trans own) (by decide)
  · rw [outIs]
    rfl
  · rw [inIs]
    rfl
  · rw [outIs]
    exact fun old => Bool.noConfusion old
  · rw [inIs]
    exact fun old => Bool.noConfusion old

/-- The moves of the OUT link take in what is written, and hand out what is received. -/
theorem outMoves_flow (rom : Rom) (piped : Piped pipes) (action : Action) (allowed : Allowed pipes action) :
    written action = (outMoves pipes action).flatMap AlternatingBit.offered ∧
      received pipes action = (outputs AlternatingBit.step AlternatingBit.collected (outLink pipes)
        (outMoves pipes action)).flatten := by
  cases action with
  | hidOut confirmed =>
    simp only [written, received, outMoves]
    split
    · exact ⟨rfl, rfl⟩
    · split <;> exact ⟨rfl, rfl⟩
  | receive len =>
    refine ⟨rfl, ?_⟩
    rw [(moved_receive rom piped len allowed).2]
    exact (List.append_nil _).symm
  | write | hidIn | send | other => exact ⟨rfl, rfl⟩

/-- Those of the IN link take in what is sent, and hand out what is read. -/
theorem inMoves_flow (rom : Rom) (piped : Piped pipes) (action : Action) :
    sent action = (inMoves pipes action).flatMap AlternatingBit.offered ∧
      read pipes action = (outputs AlternatingBit.step AlternatingBit.collected (inLink pipes)
        (inMoves pipes action)).flatten := by
  cases action with
  | hidIn confirmed =>
    refine ⟨?_, (moved_hidIn rom piped confirmed).2⟩
    simp only [sent, inMoves]
    split <;> rfl
  | write | hidOut | receive | send | other => exact ⟨rfl, rfl⟩

/-- From a configuration on, every report is received or read once and in order: at
every moment the reports that came in are those that went out and those that are
still on their way. Both pipes are refined by alternating bit links, whose bit is the
data bit of the buffer; what goes on at endpoint 0 meanwhile leaves them alone. -/
theorem hid_pipes_deliver (rom : Rom) (pipes : Pipes) (configured : Configured pipes)
    (empty : pipes.reports = []) (actions : List Action)
    (allowed : Throughout (next rom) Allowed pipes actions) :
    Conserved (next rom) written received (fun pipes => AlternatingBit.pending (outLink pipes))
        pipes actions ∧
      Conserved (next rom) sent read (fun pipes => AlternatingBit.pending (inLink pipes))
        pipes actions := by
  obtain ⟨piped, -, -, outSound, inSound⟩ := configured.piped empty
  have kept (pipes : Pipes) (action : Action) (piped : Piped pipes) (allowed : Allowed pipes action) :
      Piped (next rom pipes action) := (moved piped action allowed).piped
  constructor
  · refine AlternatingBit.refined_delivers (next rom) Allowed Piped outLink outMoves written received
      kept ?_ pipes actions piped outSound allowed
    intro pipes action piped allowed
    exact ⟨(moved piped action allowed).out, outMoves_flow rom piped action allowed⟩
  · refine AlternatingBit.refined_delivers (next rom) Allowed Piped inLink inMoves sent read
      kept ?_ pipes actions piped inSound allowed
    intro pipes action piped allowed
    exact ⟨(moved piped action allowed).inn, inMoves_flow rom piped action⟩

/-- A report each way, both with lost handshakes. -/
def lossy : List Action :=
  [.write [1, 2], .hidOut false, .hidOut true, .receive 64, .hidOut true, .send (area [3]) 1,
    .hidIn false, .hidIn false, .hidIn true, .receive 64]

/-- Each arrives once. -/
theorem lossy_delivered :
    let pipes : Pipes :=
      { system := { powerOn with usb := hidInitEP { start with usben := true } }
        reports := [], outBit := false, inBit := false }
    (outputs (next ⟨fun _ _ => 0, fun _ _ => 0⟩) received pipes lossy).flatten = [[1, 2]] ∧
      (outputs (next ⟨fun _ _ => 0, fun _ _ => 0⟩) read pipes lossy).flatten = [[3]] := by
  intro pipes
  have configured : Configured pipes := ⟨⟨_, rfl⟩, Or.inl rfl, rfl, rfl⟩
  have allowed : Throughout (next ⟨fun _ _ => 0, fun _ _ => 0⟩) Allowed pipes lossy := by
    simp only [lossy, throughout_cons, throughout_nil, Allowed, true_and, and_true]
    exact ⟨by decide, by decide, by decide +kernel, by decide⟩
  obtain ⟨out, inn⟩ := hid_pipes_deliver _ pipes configured rfl lossy allowed
  have outAll := out lossy [] (List.append_nil _).symm
  have inAll := inn lossy [] (List.append_nil _).symm
  have outNone : AlternatingBit.pending (outLink (run (next ⟨fun _ _ => 0, fun _ _ => 0⟩) pipes lossy)) =
      [] := by decide +kernel
  have inNone : AlternatingBit.pending (inLink (run (next ⟨fun _ _ => 0, fun _ _ => 0⟩) pipes lossy)) =
      [] := by decide +kernel
  beta_reduce at outAll inAll
  rw [outNone, List.append_nil] at outAll
  rw [inNone, List.append_nil] at inAll
  exact ⟨outAll.symm.trans (by decide +kernel), inAll.symm.trans (by decide +kernel)⟩

end Pipes

end ScicosFlex.Pic18.Stack
