import ScicosFlex.Pic18.ControlTransfers

/-!
# The phases of endpoint 0

`Phase` is what endpoint 0 does at a moment: it is off before the first bus reset,
ready for a setup packet, asked, sending a reply, ended by the host, waiting to
confirm a request without data, or stalled. Transactions that the firmware has not
seen yet give each phase its second form. Every packet of an orderly host and
every handler of the firmware leads from phase to phase.
-/

namespace ScicosFlex.Pic18.Stack

open Library.Packets

section Phases

/-- The part of the state that concerns endpoint 0. -/
@[ext] structure Endpoint where
  state : CtrlTrfState
  out : Bdt
  inn : Bdt
  setup : Area
  data : Area
  source : Area
  count : BitVec 16
  pktdis : Bool
  uep0 : Byte
  queue : List Ustat
  reply : List Byte
  alive : Bool

/-- Transactions of endpoint 0. -/
def Ustat.isEp0 : Ustat → Bool
  | .ep00Out | .ep00In => true
  | .ep01Out | .ep01In => false

/-- What the state says about endpoint 0. It is alive after the first bus reset. -/
def endpoint (usb : Usb) : Endpoint where
  state := usb.ctrlTrfState
  out := usb.ep0Bo
  inn := usb.ep0Bi
  setup := usb.setupPkt
  data := usb.ctrlTrfData
  source := usb.pSrc
  count := usb.wCount
  pktdis := usb.pktdis
  uep0 := usb.uep0
  queue := usb.ustat.filter Ustat.isEp0
  reply := usb.reply
  alive := decide (DeviceState.default.value ≤ usb.usbDeviceState.value)

/-- The first packets of a reply, with their data bits. -/
def replyPackets (reply : List Byte) (count : Nat) : List (Bool × List Byte) :=
  (List.range count).map fun k => (decide (k % 2 = 0), packet ep0BuffSize reply k)

/-- The status of the IN buffer that holds packet `k`. -/
def sending (k : Nat) : Byte := usie ||| (if k % 2 = 0 then dat1 else dat0) ||| dtsen

/-- The endpoint is on, and takes packets: the device has been reset and not been
detached since. -/
structure Endpoint.On (e : Endpoint) : Prop where
  uep0 : e.uep0 = epCtrl
  alive : e.alive = true

/-- What endpoint 0 does, when the host has read `k` packets. Each phase has the control
bits of both buffers and the transactions the driver has still to see, and while a reply
is sent, what is in the buffer and what is left behind it. -/
inductive Phase (e : Endpoint) (k : Nat) : Prop where
  | off (uep0 : e.uep0 = 0) (running : e.pktdis = false) (queue : e.queue = [])
      (dead : e.alive = false)
  | ready (on : e.On) (running : e.pktdis = false) (queue : e.queue = [] ∨ e.queue = [.ep00Out])
      (state : e.state = .waitSetup) (inn : e.inn.uown = false)
      (out : e.queue = [] → e.out = ⟨usie ||| dat0 ||| dtsen, 8, .setupPkt⟩)
      (seen : e.queue ≠ [] → e.out.uown = false ∧ e.out.pid ≠ setupToken)
  | asked (on : e.On) (stopped : e.pktdis = true) (none : k = 0)
      (queue : e.queue = [.ep00Out] ∨ e.queue = [.ep00In, .ep00Out] ∧ e.state = .ctrlTrfTx)
      (out : e.out.uown = false) (setup : e.out.pid = setupToken)
  | reading (on : e.On) (running : e.pktdis = false) (queue : e.queue = [])
      (state : e.state = .ctrlTrfTx) (out : e.out = ⟨usie, 8, .setupPkt⟩)
      (stat : e.inn.stat = sending k) (adr : e.inn.adr = .ctrlTrfData)
      (held : e.data.bytes e.inn.cnt.toNat = packet ep0BuffSize e.reply k)
      (left : e.source.bytes e.count.toNat = e.reply.drop (ep0BuffSize * (k + 1)))
  | read (on : e.On) (running : e.pktdis = false) (queue : e.queue = [.ep00In])
      (state : e.state = .ctrlTrfTx) (out : e.out = ⟨usie, 8, .setupPkt⟩)
      (last : Nat) (count : k = last + 1)
      (stat : e.inn.stat = (sending last &&& dtsmask) ||| (inToken <<< 2))
      (adr : e.inn.adr = .ctrlTrfData)
      (left : e.source.bytes e.count.toNat = e.reply.drop (ep0BuffSize * k))
  | ended (on : e.On) (running : e.pktdis = false)
      (queue : e.queue = [.ep00Out] ∨ e.queue = [.ep00In, .ep00Out]) (state : e.state = .ctrlTrfTx)
      (out : e.out.uown = false) (status : e.out.pid ≠ setupToken)
  | confirming (on : e.On) (running : e.pktdis = false) (queue : e.queue = [])
      (state : e.state = .ctrlTrfRx) (none : k = 0) (reply : e.reply = [])
      (out : e.out = ⟨usie ||| dat1 ||| dtsen, 8, .ctrlTrfData⟩)
      (stat : e.inn.stat = sending 0) (cnt : e.inn.cnt = 0)
  | confirmed (on : e.On) (running : e.pktdis = false) (queue : e.queue = [.ep00In])
      (state : e.state = .ctrlTrfRx) (one : k = 1) (reply : e.reply = [])
      (out : e.out = ⟨usie ||| dat1 ||| dtsen, 8, .ctrlTrfData⟩) (inn : e.inn.uown = false)
  | stalled (uep0 : e.uep0 = epCtrl ∨ e.uep0 = epCtrl ||| 1) (alive : e.alive = true)
      (running : e.pktdis = false) (queue : e.queue = []) (state : e.state = .waitSetup)
      (out : e.out = ⟨usie ||| bstall, 8, .setupPkt⟩) (inn : e.inn.stat = usie ||| bstall)

/-- The descriptor a standard request asks for, if the tables have it. -/
def descriptor (pkt : Area) : Option (List Byte) :=
  if bmRequestType pkt = 0x80 ∧ bRequest pkt = getDsc then
    if bDscType pkt = dscDev then some deviceDsc
    else if bDscType pkt = dscCfg then usbCdPtr[(bDscIndex pkt).toNat]?
    else if bDscType pkt = dscStr then usbSdPtr[(bDscIndex pkt).toNat]?
    else none
  else none

end Phases

section Sending

/-- Counting bytes. -/
theorem Area.bytes_length (memory : Area) (count : Nat) : (memory.bytes count).length = count := by
  rw [Area.bytes, List.length_map, List.length_range]

/-- The first of some bytes. -/
theorem Area.bytes_take (memory : Area) (count size : Nat) :
    (memory.bytes count).take size = memory.bytes (min size count) := by
  rw [Area.bytes, Area.bytes, ← List.map_take, List.take_range]

/-- The bytes behind them. -/
theorem Area.bytes_drop (memory : Area) (count size : Nat) :
    (memory.bytes count).drop size = Area.bytes (fun k => memory (k + size)) (count - size) := by
  refine List.ext_getElem (by simp [Area.bytes]) fun k inside other => ?_
  simp [Area.bytes, Nat.add_comm]

/-- The bytes of an area only depend on its beginning. -/
theorem Area.bytes_congr (memory other : Area) (count : Nat)
    (same : ∀ k, k < count → memory k = other k) : memory.bytes count = other.bytes count :=
  List.map_congr_left fun k member => same k (List.mem_range.mp member)

/-- A constant, read from its address. -/
theorem area_bytes (constant : List Byte) (count : Nat) (inside : count ≤ constant.length) :
    (area constant).bytes count = constant.take count := by
  refine List.ext_getElem (by simp [Area.bytes, inside]) fun k here there => ?_
  have within : k < constant.length := by
    rw [Area.bytes_length] at here
    omega
  simp [Area.bytes, area, within]

/-- How much `USBCtrlTrfTxService` sends. -/
theorem byteToSend (wCount : BitVec 16) :
    (if wCount < BitVec.ofNat 16 ep0BuffSize then wCount else BitVec.ofNat 16 ep0BuffSize).toNat =
      min ep0BuffSize wCount.toNat := by
  have size : (BitVec.ofNat 16 ep0BuffSize).toNat = ep0BuffSize := rfl
  split
  · rename_i less
    rw [BitVec.lt_def, size] at less
    omega
  · rename_i more
    rw [BitVec.lt_def, size] at more
    omega

/-- `USBCtrlTrfTxService` puts the next packet into the buffer and leaves the rest. At
the end of a reply the packet is shorter than the buffer, and may be empty. -/
theorem txService_sends (usb : Usb) (rest : List Byte)
    (source : usb.pSrc.bytes usb.wCount.toNat = rest) :
    let after := usbCtrlTrfTxService usb
    after.ctrlTrfData.bytes after.ep0Bi.cnt.toNat = rest.take ep0BuffSize ∧
      after.pSrc.bytes after.wCount.toNat = rest.drop ep0BuffSize ∧
      after.ep0Bi.stat = usb.ep0Bi.stat &&& 0xFC := by
  let size : BitVec 16 := if usb.wCount < BitVec.ofNat 16 ep0BuffSize then usb.wCount
    else BitVec.ofNat 16 ep0BuffSize
  have amount : size.toNat = min ep0BuffSize usb.wCount.toNat := byteToSend usb.wCount
  have small : size.toNat ≤ 8 := by
    rw [amount]
    exact Nat.min_le_left _ _
  have cnt : (size.setWidth 8).toNat = size.toNat := by
    rw [BitVec.toNat_setWidth]
    omega
  have left : (usb.wCount - size).toNat = usb.wCount.toNat - ep0BuffSize := by
    have within : size ≤ usb.wCount := by
      rw [BitVec.le_def, amount]
      exact Nat.min_le_right _ _
    rw [BitVec.toNat_sub_of_le within, amount]
    omega
  have high : (size >>> 8).setWidth 8 = 0#8 := by
    apply BitVec.eq_of_toNat_eq
    rw [BitVec.toNat_setWidth, BitVec.toNat_ushiftRight, Nat.shiftRight_eq_div_pow,
      Nat.div_eq_of_lt (by omega)]
    rfl
  refine ⟨?_, ?_, ?_⟩
  · change Area.bytes (fun k => if k < size.toNat then usb.pSrc k else usb.ctrlTrfData k)
      (size.setWidth 8).toNat = rest.take ep0BuffSize
    rw [cnt, ← source, Area.bytes_take, ← amount]
    exact Area.bytes_congr _ _ _ fun k inside => if_pos inside
  · change Area.bytes (fun k => usb.pSrc (k + size.toNat)) (usb.wCount - size).toNat =
      rest.drop ep0BuffSize
    rw [left, ← source, Area.bytes_drop]
    refine Area.bytes_congr _ _ _ fun k inside => ?_
    -- If bytes are left at all, a full packet has been sent.
    have full : size.toNat = ep0BuffSize := by omega
    rw [full]
  · change usb.ep0Bi.stat &&& 0xFC ||| (size >>> 8).setWidth 8 = _
    rw [high]
    exact BitVec.or_zero

end Sending

section Tokens

variable {usb : Usb} {k : Nat}

/-- A transaction at the end of the queue. -/
theorem queue_append (token : Ustat) (ep0 : token.isEp0 = true) :
    (usb.ustat ++ [token]).filter Ustat.isEp0 = (endpoint usb).queue ++ [token] := by
  rw [List.filter_append, List.filter_singleton, ep0]
  rfl

/-- What the endpoint has pending is in the queue of the device. -/
theorem pending_out (pending : .ep00Out ∈ (endpoint usb).queue) : .ep00Out ∈ usb.ustat :=
  (List.mem_filter.mp pending).1

/-- A setup packet that comes while no request waits to be confirmed goes into its own
buffer, and then the endpoint is asked. -/
theorem setup_asked (phase : Phase (endpoint usb) k) (takes : takesSetup usb = true)
    (orderly : usb.ctrlTrfState ≠ .ctrlTrfRx) (pkt : Area) :
    Phase (endpoint (sieSetup usb pkt)) 0 ∧ (∀ j, j < 8 → (sieSetup usb pkt).setupPkt j = pkt j) := by
  simp only [takesSetup, Bool.and_eq_true] at takes
  obtain ⟨⟨⟨⟨-, enabled⟩, own⟩, free⟩, -⟩ := takes
  -- Whatever the phase, the buffer is the one for setup packets and nothing but IN is pending.
  have asked (on : (endpoint usb).On) (adr : usb.ep0Bo.adr = .setupPkt)
      (stat : usb.ep0Bo.stat = usie ||| dat0 ||| dtsen ∨ usb.ep0Bo.stat = usie)
      (queue : (endpoint usb).queue = [] ∨
        (endpoint usb).queue = [.ep00In] ∧ usb.ctrlTrfState = .ctrlTrfTx) :
      Phase (endpoint (sieSetup usb pkt)) 0 ∧
        (∀ j, j < 8 → (sieSetup usb pkt).setupPkt j = pkt j) := by
    have filled : fill usb usb.ep0Bo.adr pkt 8 =
        { usb with setupPkt := fun j => if j < 8 then pkt j else usb.setupPkt j } := by
      rw [adr]
      rfl
    have same : sieSetup usb pkt =
        { usb with
          setupPkt := fun j => if j < 8 then pkt j else usb.setupPkt j
          ep0Bo := handBack usb.ep0Bo setupToken 8
          pktdis := true
          ustat := usb.ustat ++ [.ep00Out] } := by
      rw [sieSetup, filled]
    rw [same]
    refine ⟨.asked ⟨on.uep0, on.alive⟩ rfl rfl ?_ ?_ ?_, fun j inside => if_pos inside⟩
    · change List.filter Ustat.isEp0 (usb.ustat ++ [.ep00Out]) = _ ∨ _
      rcases queue with none | ⟨one, state⟩
      · exact Or.inl ((queue_append _ rfl).trans (by rw [none]; rfl))
      · exact Or.inr ⟨(queue_append _ rfl).trans (by rw [one]; rfl), state⟩
    · change (handBack usb.ep0Bo setupToken 8).uown = false
      simp only [handBack, Bdt.uown]
      rcases stat with stat | stat <;> rw [stat] <;> decide
    · change (handBack usb.ep0Bo setupToken 8).pid = setupToken
      simp only [handBack, Bdt.pid]
      rcases stat with stat | stat <;> rw [stat] <;> decide
  have buffer (out : Bdt) (is : (endpoint usb).out = out) : usb.ep0Bo = out := is
  cases phase with
  | off uep0 =>
    have none : usb.uep0 = 0 := uep0
    rw [none] at enabled
    exact absurd enabled (by decide)
  | ready on running queue state inn out seen =>
    rcases queue with none | one
    · have is := buffer _ (out none)
      exact asked on (by rw [is]) (Or.inl (by rw [is])) (Or.inl none)
    · have not := (seen (by rw [one]; exact List.cons_ne_nil _ _)).1
      exact absurd (own.symm.trans not) (by decide)
  | asked on stopped none queue out => exact absurd (own.symm.trans out) (by decide)
  | reading on running queue state out =>
    have is := buffer _ out
    exact asked on (by rw [is]) (Or.inr (by rw [is])) (Or.inl queue)
  | read on running queue state out =>
    have is := buffer _ out
    exact asked on (by rw [is]) (Or.inr (by rw [is])) (Or.inr ⟨queue, state⟩)
  | ended on running queue state out => exact absurd (own.symm.trans out) (by decide)
  | confirming _ _ _ state | confirmed _ _ _ state => exact absurd state orderly
  | stalled uep0 alive running queue state out =>
    rw [buffer _ out] at free
    exact absurd free (by decide)

/-- A STALL answer leaves the endpoint stalled, with the flag set that makes the driver
prepare it anew. -/
theorem stall_phase (phase : Phase (endpoint usb) k)
    (stalls : usb.ep0Bo.uown = true ∧ usb.ep0Bo.bstall = true ∨
      usb.ep0Bi.uown = true ∧ usb.ep0Bi.bstall = true ∧ .ep00Out ∉ usb.ustat)
    (on : usb.uep0 ≠ 0) (running : usb.pktdis = false) :
    Phase (endpoint { usb with stallif := true, uep0 := usb.uep0 ||| 1 }) k := by
  have buffer (out : Bdt) (is : (endpoint usb).out = out) : usb.ep0Bo = out := is
  -- No other phase has a buffer that is both the hardware's and stalled.
  have never (out : Bdt) (is : usb.ep0Bo = out) (no : (out.uown && out.bstall) = false)
      (inn : (usb.ep0Bi.uown && usb.ep0Bi.bstall) = false) :
      Phase (endpoint { usb with stallif := true, uep0 := usb.uep0 ||| 1 }) k := by
    rcases stalls with ⟨own, stall⟩ | ⟨own, stall, -⟩
    · rw [is] at own stall
      rw [own, stall] at no
      exact absurd no (by decide)
    · rw [own, stall] at inn
      exact absurd inn (by decide)
  have armed (n : Nat) (stat : usb.ep0Bi.stat = sending n) :
      (usb.ep0Bi.uown && usb.ep0Bi.bstall) = false := by
    rw [Bdt.uown, Bdt.bstall, stat, sending]
    split <;> decide
  have owned (own : usb.ep0Bi.uown = false) : (usb.ep0Bi.uown && usb.ep0Bi.bstall) = false := by
    rw [own, Bool.false_and]
  cases phase with
  | off uep0 => exact absurd uep0 on
  | ready _ _ queue _ inn out seen =>
    rcases queue with none | one
    · exact never _ (buffer _ (out none)) (by decide) (owned inn)
    · have not := (seen (by rw [one]; exact List.cons_ne_nil _ _)).1
      exact never _ rfl (by rw [show usb.ep0Bo.uown = false from not, Bool.false_and]) (owned inn)
  | asked on stopped => exact absurd (running.symm.trans stopped) (by decide)
  | reading _ _ _ _ out stat => exact never _ (buffer _ out) (by decide) (armed _ stat)
  | read _ _ _ _ out last _ stat =>
    refine never _ (buffer _ out) (by decide) ?_
    rw [Bdt.uown, Bdt.bstall, show usb.ep0Bi.stat = _ from stat, sending]
    split <;> decide
  | ended _ _ queue _ out =>
    rcases stalls with ⟨own, -⟩ | ⟨-, -, quiet⟩
    · exact absurd (own.symm.trans out) (by decide)
    · exact absurd (pending_out (by rcases queue with one | two <;> simp [*])) quiet
  | confirming _ _ _ _ _ _ out stat => exact never _ (buffer _ out) (by decide) (armed _ stat)
  | confirmed _ _ _ _ _ _ out inn => exact never _ (buffer _ out) (by decide) (owned inn)
  | stalled uep0 alive running queue state out inn =>
    refine .stalled (Or.inr ?_) alive running queue state out inn
    rcases uep0 with plain | marked
    · exact congrArg (· ||| 1) plain
    · change usb.uep0 ||| 1 = _
      rw [show usb.uep0 = _ from marked]
      rfl

/-- An OUT packet, unless the endpoint is to confirm a request. While a reply is sent
such a packet ends it; before a request it is taken for nothing, and otherwise dropped
or answered with STALL. -/
theorem out_phase (phase : Phase (endpoint usb) k) (orderly : usb.ctrlTrfState ≠ .ctrlTrfRx)
    (toggle : Bool) (data : List Byte) : Phase (endpoint (sieOut usb toggle data)) k := by
  unfold sieOut
  split
  · rename_i accepts
    simp only [listening, Bool.and_eq_true, Bool.not_eq_eq_eq_not, Bool.not_true] at accepts
    obtain ⟨⟨⟨-, running⟩, enabled⟩, own⟩ := accepts
    have on : usb.uep0 ≠ 0 := by
      intro none
      rw [none] at enabled
      exact absurd enabled (by decide)
    split
    · rename_i stall
      exact stall_phase phase (Or.inl ⟨own, stall⟩) on running
    · rename_i free
      split
      · exact phase
      · rename_i wanted
        split
        · -- The packet is taken.
          have taken (adr : usb.ep0Bo.adr = .setupPkt) : fill usb usb.ep0Bo.adr (area data) data.length =
              { usb with setupPkt := fun j => if j < data.length then area data j
                  else usb.setupPkt j } := by
            rw [adr]
            rfl
          have buffer (out : Bdt) (is : (endpoint usb).out = out) : usb.ep0Bo = out := is
          have done (stat : usb.ep0Bo.stat = usie ||| dat0 ||| dtsen ∨ usb.ep0Bo.stat = usie) (cnt : Byte) :
              (handBack usb.ep0Bo outToken cnt).uown = false ∧
                (handBack usb.ep0Bo outToken cnt).pid ≠ setupToken := by
            rcases stat with stat | stat <;> simp only [handBack, Bdt.uown, Bdt.pid, stat] <;> decide
          cases phase with
          | off uep0 => exact absurd uep0 on
          | ready power still queue state inn out seen =>
            rcases queue with none | one
            · have is := buffer _ (out none)
              have queued : (usb.ustat ++ [Ustat.ep00Out]).filter Ustat.isEp0 = [Ustat.ep00Out] :=
                (queue_append _ rfl).trans (by rw [none]; rfl)
              rw [taken (by rw [is])]
              refine .ready ⟨power.uep0, power.alive⟩ still (Or.inr queued) state inn ?_
                fun _ => done (Or.inl (by rw [is])) _
              intro empty
              exact absurd (queued.symm.trans empty) (List.cons_ne_nil _ _)
            · have not := (seen (by rw [one]; exact List.cons_ne_nil _ _)).1
              exact absurd (own.symm.trans not) (by decide)
          | asked on stopped => exact absurd (running.symm.trans stopped) (by decide)
          | reading power still queue state out =>
            have is := buffer _ out
            obtain ⟨handed, status⟩ := done (Or.inr (by rw [is])) (BitVec.ofNat 8 data.length)
            rw [taken (by rw [is])]
            exact .ended ⟨power.uep0, power.alive⟩ still
              (Or.inl ((queue_append _ rfl).trans (by rw [queue]; rfl))) state handed status
          | read power still queue state out =>
            have is := buffer _ out
            obtain ⟨handed, status⟩ := done (Or.inr (by rw [is])) (BitVec.ofNat 8 data.length)
            rw [taken (by rw [is])]
            exact .ended ⟨power.uep0, power.alive⟩ still
              (Or.inr ((queue_append _ rfl).trans (by rw [queue]; rfl))) state handed status
          | ended _ _ _ _ out => exact absurd (own.symm.trans out) (by decide)
          | confirming _ _ _ state | confirmed _ _ _ state => exact absurd state orderly
          | stalled _ _ _ _ _ out =>
            rw [buffer _ out] at free
            exact absurd rfl free
        · exact phase
  · exact phase

/-- What the host gets for an IN packet: the next packet of the reply, the empty
packet that confirms a request, or nothing. -/
theorem in_phase (phase : Phase (endpoint usb) k)
    (orderly : usb.pktdis = false → .ep00Out ∉ usb.ustat) :
    Phase (endpoint (sieIn usb).1) (k + (sieIn usb).2.toList.length) ∧
      (sieIn usb).2.toList =
        if (sieIn usb).2.isSome then [(decide (k % 2 = 0), packet ep0BuffSize usb.reply k)] else [] := by
  unfold sieIn
  split
  · rename_i accepts
    simp only [listening, Bool.and_eq_true, Bool.not_eq_eq_eq_not, Bool.not_true] at accepts
    obtain ⟨⟨⟨-, running⟩, enabled⟩, own⟩ := accepts
    have on : usb.uep0 ≠ 0 := by
      intro none
      rw [none] at enabled
      exact absurd enabled (by decide)
    split
    · rename_i stall
      exact ⟨stall_phase phase (Or.inr ⟨own, stall, orderly running⟩) on running, rfl⟩
    · rename_i free
      have quiet (queue : Ustat.ep00Out ∈ (endpoint usb).queue) : False :=
        orderly running (pending_out queue)
      cases phase with
      | off uep0 => exact absurd uep0 on
      | ready _ _ _ _ inn => exact absurd (own.symm.trans inn) (by decide)
      | asked on stopped => exact absurd (running.symm.trans stopped) (by decide)
      | reading power still queue state out stat adr held left =>
        have dts : usb.ep0Bi.dts = decide (k % 2 = 0) := by
          rw [Bdt.dts, show usb.ep0Bi.stat = _ from stat, sending]
          split <;> simp [*] <;> decide
        have memory : buffer usb usb.ep0Bi.adr = usb.ctrlTrfData := by
          rw [show usb.ep0Bi.adr = _ from adr]
          rfl
        refine ⟨.read ⟨power.uep0, power.alive⟩ still
          ((queue_append _ rfl).trans (by rw [queue]; rfl)) state out k rfl ?_ adr left, ?_⟩
        · change usb.ep0Bi.stat &&& dtsmask ||| inToken <<< 2 = _
          rw [show usb.ep0Bi.stat = _ from stat]
        · have data : usb.ctrlTrfData.bytes usb.ep0Bi.cnt.toNat = packet ep0BuffSize usb.reply k := held
          simp only [Option.toList_some, Option.isSome_some, if_true, dts, memory, data]
      | read power still queue state out last count stat =>
        refine absurd own ?_
        rw [Bdt.uown, show usb.ep0Bi.stat = _ from stat, sending]
        split <;> decide
      | ended _ _ queue =>
        exact (quiet (by rcases queue with one | two <;> simp [*])).elim
      | confirming power still queue state none reply out stat cnt =>
        have dts : usb.ep0Bi.dts = true := by
          rw [Bdt.dts, show usb.ep0Bi.stat = _ from stat]
          decide
        refine ⟨.confirmed ⟨power.uep0, power.alive⟩ still
          ((queue_append _ rfl).trans (by rw [queue]; rfl)) state (by rw [none]; rfl) reply out ?_, ?_⟩
        · change (handBack usb.ep0Bi inToken usb.ep0Bi.cnt).uown = false
          simp only [handBack, Bdt.uown, show usb.ep0Bi.stat = _ from stat]
          decide
        · have empty : usb.ep0Bi.cnt = 0 := cnt
          have nothing : usb.reply = [] := reply
          simp only [Option.toList_some, Option.isSome_some, if_true, dts, empty, nothing, none,
            packet_nil]
          rfl
      | confirmed _ _ _ _ _ _ _ inn => exact absurd (own.symm.trans inn) (by decide)
      | stalled _ _ _ _ _ _ inn =>
        rw [Bdt.bstall, show usb.ep0Bi.stat = _ from inn] at free
        exact absurd rfl free
  · exact ⟨phase, rfl⟩

end Tokens

section Requests

variable (rom : Rom) (usb : Usb)

/-- The switches and flags of the bus. -/
def busSide (usb : Usb) : Bool × Bool × Bool × Bool × Uie :=
  (usb.usben, usb.suspnd, usb.urstif, usb.idleif, usb.uie)

/-- What no request handler touches, so that endpoint 0 stays in its phase until the
handlers are through. -/
structure SameEp0 (before after : Usb) : Prop where
  uep0 : after.uep0 = before.uep0
  ustat : after.ustat = before.ustat
  bus : busSide after = busSide before
  stored : after.stored = before.stored
  ctrlTrfState : after.ctrlTrfState = before.ctrlTrfState
  alive : 3 ≤ before.usbDeviceState.value → 3 ≤ after.usbDeviceState.value

variable {usb}

theorem SameEp0.ite {condition : Prop} [Decidable condition] {first second : Usb}
    (one : SameEp0 usb first) (other : SameEp0 usb second) :
    SameEp0 usb (if condition then first else second) := by
  split
  · exact one
  · exact other

theorem SameEp0.trans {middle after : Usb} (first : SameEp0 usb middle)
    (second : SameEp0 middle after) : SameEp0 usb after :=
  ⟨second.uep0.trans first.uep0, second.ustat.trans first.ustat, second.bus.trans first.bus,
    second.stored.trans first.stored, second.ctrlTrfState.trans first.ctrlTrfState,
    fun before => second.alive (first.alive before)⟩

/-- A handler that writes nothing of this. -/
theorem SameEp0.of_fields {after : Usb} (uep0 : after.uep0 = usb.uep0) (ustat : after.ustat = usb.ustat)
    (bus : busSide after = busSide usb) (stored : after.stored = usb.stored)
    (ctrlTrfState : after.ctrlTrfState = usb.ctrlTrfState)
    (state : after.usbDeviceState = usb.usbDeviceState) :
    SameEp0 usb after :=
  ⟨uep0, ustat, bus, stored, ctrlTrfState, fun before => by rw [state]; exact before⟩

variable (usb)

/-- The HID requests only concern the source of a reply. -/
theorem hidRequest_same : SameEp0 usb (usbCheckHIDRequest usb) := by
  have none : SameEp0 usb usb := .of_fields rfl rfl rfl rfl rfl rfl
  have descriptors : SameEp0 usb (hidDescriptorRequest usb) :=
    .ite (.of_fields rfl rfl rfl rfl rfl rfl) (.ite (.of_fields rfl rfl rfl rfl rfl rfl)
      (.of_fields rfl rfl rfl rfl rfl rfl))
  have classes (usb : Usb) : SameEp0 usb (hidClassRequest usb) :=
    .ite (.of_fields rfl rfl rfl rfl rfl rfl) (.ite (.of_fields rfl rfl rfl rfl rfl rfl)
      (.ite (.of_fields rfl rfl rfl rfl rfl rfl) (.ite (.of_fields rfl rfl rfl rfl rfl rfl)
        (.of_fields rfl rfl rfl rfl rfl rfl))))
  have first : SameEp0 usb (if bRequest usb.setupPkt = getDsc then hidDescriptorRequest usb else usb) :=
    .ite descriptors none
  exact .ite none (.ite none (.ite first (first.trans (classes _))))

/-- A byte of the USB memory is none of this. -/
theorem storeUsbRam_same (offset : Nat) (value : Byte) : SameEp0 usb (storeUsbRam usb offset value) :=
  .ite (.of_fields rfl rfl rfl rfl rfl rfl) (.ite (.of_fields rfl rfl rfl rfl rfl rfl)
    (.ite (.of_fields rfl rfl rfl rfl rfl rfl) (.ite (.of_fields rfl rfl rfl rfl rfl rfl)
      (.ite (.of_fields rfl rfl rfl rfl rfl rfl) (.ite (.of_fields rfl rfl rfl rfl rfl rfl)
        (.ite (.of_fields rfl rfl rfl rfl rfl rfl) (.of_fields rfl rfl rfl rfl rfl rfl)))))))

/-- So do the standard requests, but for endpoint 1 and the device state, which
stays above that of an unaddressed device. -/
theorem stdRequest_same : SameEp0 usb (usbCheckStdRequest rom usb) := by
  have none : SameEp0 usb usb := .of_fields rfl rfl rfl rfl rfl rfl
  have address : SameEp0 usb
      { usb with ctrlTrfSessionOwner := .usb9, usbDeviceState := .adrPending } :=
    ⟨rfl, rfl, rfl, rfl, rfl, fun _ => show 3 ≤ DeviceState.adrPending.value by decide⟩
  have descriptors : SameEp0 usb (usbStdGetDscHandler rom usb) :=
    .ite (.ite (.of_fields rfl rfl rfl rfl rfl rfl) (.ite (.of_fields rfl rfl rfl rfl rfl rfl)
      (.ite (.of_fields rfl rfl rfl rfl rfl rfl) (.of_fields rfl rfl rfl rfl rfl rfl)))) none
  have configuration : SameEp0 usb (usbStdSetCfgHandler usb) :=
    .ite ⟨rfl, rfl, rfl, rfl, rfl, fun _ => show 3 ≤ DeviceState.address.value by decide⟩
      ⟨rfl, rfl, rfl, rfl, rfl, fun _ => show 3 ≤ DeviceState.configured.value by decide⟩
  have status : SameEp0 usb (usbStdGetStatusHandler usb) :=
    .ite (.of_fields rfl rfl rfl rfl rfl rfl) (.ite (.of_fields rfl rfl rfl rfl rfl rfl)
      (.ite (.of_fields rfl rfl rfl rfl rfl rfl) (.of_fields rfl rfl rfl rfl rfl rfl)))
  have owned : SameEp0 usb { usb with ctrlTrfSessionOwner := .usb9 } := .of_fields rfl rfl rfl rfl rfl rfl
  have feature : SameEp0 usb (usbStdFeatureReqHandler usb) :=
    .ite (.of_fields rfl rfl rfl rfl rfl rfl) (.ite (owned.trans (storeUsbRam_same _ _ _)) none)
  exact .ite none (.ite address (.ite descriptors (.ite configuration
    (.ite (.of_fields rfl rfl rfl rfl rfl rfl) (.ite status (.ite feature
      (.ite (.of_fields rfl rfl rfl rfl rfl rfl) (.ite (.of_fields rfl rfl rfl rfl rfl rfl) none))))))))

/-- Looking for an owner leaves endpoint 0 alone. -/
theorem findOwner_same : SameEp0 { usb with ctrlTrfState := .waitSetup } (findOwner rom usb) := by
  let cleared : Usb :=
    { usb with ctrlTrfState := .waitSetup, ctrlTrfSessionOwner := .null, wCount := 0 }
  have opened : SameEp0 { usb with ctrlTrfState := .waitSetup } cleared :=
    .of_fields rfl rfl rfl rfl rfl rfl
  have first : SameEp0 { usb with ctrlTrfState := .waitSetup } (usbCheckStdRequest rom cleared) :=
    opened.trans (stdRequest_same rom cleared)
  exact .ite (first.trans (hidRequest_same _)) first

/-- The last stage: stalled without an owner, else sending or confirming. -/
theorem serviceComplete_phase (on : usb.uep0 = epCtrl)
    (alive : DeviceState.default.value ≤ usb.usbDeviceState.value)
    (state : usb.ctrlTrfState = .waitSetup) (others : List Ustat)
    (queue : others.filter Ustat.isEp0 = []) :
    Phase (endpoint { usbCtrlEPServiceComplete usb with ustat := others }) 0 := by
  have living : decide (DeviceState.default.value ≤ usb.usbDeviceState.value) = true :=
    decide_eq_true alive
  unfold usbCtrlEPServiceComplete
  simp only
  split
  · exact .stalled (Or.inl on) living rfl queue state rfl rfl
  · split
    · rename_i owner direction
      let wanted := if wLength usb.setupPkt < usb.wCount then wLength usb.setupPkt else usb.wCount
      let asked : Usb :=
        { usb with pktdis := false, wCount := wanted, reply := usb.pSrc.bytes wanted.toNat }
      obtain ⟨data, source, -⟩ := txService_sends asked _ rfl
      refine .reading ⟨on, living⟩ rfl queue rfl rfl rfl rfl ?_ ?_
      · exact data.trans (packet_zero _ _).symm
      · exact source
    · exact .confirming ⟨on, living⟩ rfl queue rfl rfl rfl rfl rfl rfl

/-- A setup packet is answered, confirmed or stalled. -/
theorem setupHandler_phase (on : usb.uep0 = epCtrl)
    (alive : DeviceState.default.value ≤ usb.usbDeviceState.value)
    (others : List Ustat) (queue : others.filter Ustat.isEp0 = []) :
    Phase (endpoint { usbCtrlTrfSetupHandler rom usb with ustat := others }) 0 := by
  have same := findOwner_same rom usb
  exact serviceComplete_phase (findOwner rom usb) (same.uep0.trans on) (same.alive alive)
    same.ctrlTrfState others queue

/-- A reply that a handler takes from a constant. -/
theorem serviceComplete_sends (bytes : List Byte) (owner : usb.ctrlTrfSessionOwner ≠ .null)
    (direction : devToHost usb.setupPkt = true) (source : usb.pSrc = area bytes)
    (count : usb.wCount.toNat = bytes.length) :
    (usbCtrlEPServiceComplete usb).reply = bytes.take (wLength usb.setupPkt).toNat ∧
      (usbCtrlEPServiceComplete usb).ctrlTrfState = .ctrlTrfTx := by
  let wanted := if wLength usb.setupPkt < usb.wCount then wLength usb.setupPkt else usb.wCount
  have amount : wanted.toNat = min (wLength usb.setupPkt).toNat bytes.length := by
    change (if wLength usb.setupPkt < usb.wCount then wLength usb.setupPkt else usb.wCount).toNat = _
    split
    · rename_i less
      rw [BitVec.lt_def] at less
      omega
    · rename_i more
      rw [BitVec.lt_def] at more
      omega
  have sent : (usbCtrlEPServiceComplete usb).reply = usb.pSrc.bytes wanted.toNat ∧
      (usbCtrlEPServiceComplete usb).ctrlTrfState = .ctrlTrfTx := by
    unfold usbCtrlEPServiceComplete
    simp only [if_neg owner, direction, if_true]
    exact ⟨rfl, trivial⟩
  refine ⟨?_, sent.2⟩
  rw [sent.1, source, area_bytes _ _ (by omega), amount, ← List.take_eq_take_min]

/-- Every configuration names its length as the word behind its type, every string
as its first byte. -/
theorem named_lengths :
    (∀ bytes ∈ usbCdPtr, (area bytes 3 ++ area bytes 2 : BitVec 16).toNat = bytes.length) ∧
      ∀ bytes ∈ usbSdPtr, ((area bytes 0).setWidth 16).toNat = bytes.length := by
  decide

/-- A table entry, reached through its pointer. -/
theorem pointed_found {table : List (List Byte)} {behind : Nat → Area} {index : Nat}
    {bytes : List Byte} (found : table[index]? = some bytes) :
    pointed table behind index = area bytes := by
  rw [pointed, found]

/-- A request for a descriptor is answered from the tables. The length that was wanted
is compared with that of the descriptor, and the smaller one counts. -/
theorem setupHandler_told (bytes : List Byte) (found : descriptor usb.setupPkt = some bytes) :
    (usbCtrlTrfSetupHandler rom usb).reply = bytes.take (wLength usb.setupPkt).toNat ∧
      (usbCtrlTrfSetupHandler rom usb).ctrlTrfState = .ctrlTrfTx := by
  obtain ⟨⟨kind, request⟩, table⟩ :
      (bmRequestType usb.setupPkt = 0x80 ∧ bRequest usb.setupPkt = getDsc) ∧
        (if bDscType usb.setupPkt = dscDev then some deviceDsc
        else if bDscType usb.setupPkt = dscCfg then usbCdPtr[(bDscIndex usb.setupPkt).toNat]?
        else if bDscType usb.setupPkt = dscStr then usbSdPtr[(bDscIndex usb.setupPkt).toNat]?
        else none) = some bytes := by
    unfold descriptor at found
    split at found
    · rename_i both
      exact ⟨both, found⟩
    · cases found
  have first : usb.setupPkt 0 = 0x80 := kind
  have isStandard : requestType usb.setupPkt = standard := by
    rw [requestType, first]
    decide
  have direction : devToHost usb.setupPkt = true := by
    rw [devToHost, first]
    decide
  let cleared : Usb :=
    { usb with ctrlTrfState := .waitSetup, ctrlTrfSessionOwner := .null, wCount := 0 }
  let answer (pSrc : Area) (wCount : BitVec 16) : Usb :=
    { cleared with ctrlTrfSessionOwner := .usb9, ctrlTrfMem := .rom, pSrc := pSrc, wCount := wCount }
  have handled : usbCheckStdRequest rom cleared = usbStdGetDscHandler rom cleared := by
    have type : requestType cleared.setupPkt = standard := isStandard
    have code : bRequest cleared.setupPkt = getDsc := request
    have other : ¬ getDsc = setAdr := by decide
    simp only [usbCheckStdRequest, type, code, if_neg other, ne_eq, not_true_eq_false, if_false,
      if_true]
  -- Whichever table it is, the handler answers with the entry and its length.
  have answered : ∃ wCount, usbCheckStdRequest rom cleared = answer (area bytes) wCount ∧
      wCount.toNat = bytes.length := by
    have type : bmRequestType cleared.setupPkt = 0x80 := kind
    rw [handled, usbStdGetDscHandler]
    simp only [type, if_true]
    by_cases device : bDscType usb.setupPkt = dscDev
    · rw [if_pos device] at table
      obtain rfl := Option.some.inj table
      exact ⟨18, if_pos device, by decide⟩
    · rw [if_neg device] at table
      by_cases configuration : bDscType usb.setupPkt = dscCfg
      · rw [if_pos configuration] at table
        refine ⟨area bytes 3 ++ area bytes 2, ?_, named_lengths.1 _ (List.mem_of_getElem? table)⟩
        rw [if_neg device, if_pos configuration, pointed_found table]
      · rw [if_neg configuration] at table
        by_cases string : bDscType usb.setupPkt = dscStr
        · rw [if_pos string] at table
          refine ⟨(area bytes 0).setWidth 16, ?_, named_lengths.2 _ (List.mem_of_getElem? table)⟩
          rw [if_neg device, if_neg configuration, if_pos string, pointed_found table]
        · rw [if_neg string] at table
          cases table
  obtain ⟨wCount, is, length⟩ := answered
  have owner : (answer (area bytes) wCount).ctrlTrfSessionOwner ≠ .null := fun null => Muid.noConfusion null
  have owned : findOwner rom usb = answer (area bytes) wCount := by
    change (if (usbCheckStdRequest rom cleared).ctrlTrfSessionOwner = .null then
      usbCheckHIDRequest (usbCheckStdRequest rom cleared) else usbCheckStdRequest rom cleared) = _
    rw [is]
    exact if_neg owner
  rw [usbCtrlTrfSetupHandler, owned]
  exact serviceComplete_sends (answer (area bytes) wCount) bytes owner direction rfl length

/-- Only the eight bytes of a setup packet say what it asks for. -/
theorem request_congr {pkt other : Area} (same : ∀ k, k < 8 → pkt k = other k) :
    descriptor pkt = descriptor other ∧ wLength pkt = wLength other := by
  have zero := same 0 (by decide)
  have one := same 1 (by decide)
  have two := same 2 (by decide)
  have three := same 3 (by decide)
  have six := same 6 (by decide)
  have seven := same 7 (by decide)
  constructor
  · unfold descriptor bmRequestType bRequest bDscType bDscIndex
    rw [zero, one, two, three]
  · rw [wLength, wLength, six, seven]

/-- The handler for setup packets lets the packets go on, and leaves the rest of the
hardware alone. -/
theorem setupHandler_same : (usbCtrlTrfSetupHandler rom usb).pktdis = false ∧
    (usbCtrlTrfSetupHandler rom usb).ustat = usb.ustat ∧
    (usbCtrlTrfSetupHandler rom usb).uep0 = usb.uep0 ∧
    busSide (usbCtrlTrfSetupHandler rom usb) = busSide usb ∧
    (usbCtrlTrfSetupHandler rom usb).stored = usb.stored ∧
    (3 ≤ usb.usbDeviceState.value → 3 ≤ (usbCtrlTrfSetupHandler rom usb).usbDeviceState.value) := by
  have same := findOwner_same rom usb
  have complete (usb : Usb) : (usbCtrlEPServiceComplete usb).pktdis = false ∧
      (usbCtrlEPServiceComplete usb).ustat = usb.ustat ∧
      (usbCtrlEPServiceComplete usb).uep0 = usb.uep0 ∧
      busSide (usbCtrlEPServiceComplete usb) = busSide usb ∧
      (usbCtrlEPServiceComplete usb).stored = usb.stored ∧
      (usbCtrlEPServiceComplete usb).usbDeviceState = usb.usbDeviceState := by
    unfold usbCtrlEPServiceComplete
    simp only
    split
    · exact ⟨rfl, rfl, rfl, rfl, rfl, rfl⟩
    · split <;> exact ⟨rfl, rfl, rfl, rfl, rfl, rfl⟩
  obtain ⟨running, queue, uep0, bus, stored, state⟩ := complete (findOwner rom usb)
  refine ⟨running, queue.trans same.ustat, uep0.trans same.uep0, bus.trans same.bus,
    stored.trans same.stored, ?_⟩
  intro before
  rw [usbCtrlTrfSetupHandler, state]
  exact same.alive before

end Requests

section Firmware

variable (rom : Rom) {usb : Usb} {k : Nat}

/-- `_UCPU` gives a buffer back to the firmware. -/
theorem ucpu_free : ucpu.getLsbD 7 = false := by decide

/-- `USBPrepareForNextSetupTrf` makes the endpoint ready. -/
theorem prepare_ready (usb : Usb) (on : (endpoint usb).On) (running : usb.pktdis = false)
    (queue : usb.ustat.filter Ustat.isEp0 = []) :
    Phase (endpoint (usbPrepareForNextSetupTrf usb)) k :=
  .ready ⟨on.uep0, on.alive⟩ running (Or.inl queue) rfl ucpu_free (fun _ => rfl)
    fun pending => absurd queue pending

/-- So does a bus reset. -/
theorem reset_phase : Phase (endpoint (usbProtocolResetHandler usb)) k :=
  .ready ⟨rfl, rfl⟩ rfl (Or.inl rfl) rfl ucpu_free (fun _ => rfl) fun pending => absurd rfl pending

/-- A STALL that has been sent makes the endpoint ready again; the flag of
endpoint 1 changes nothing here. -/
theorem stallHandler_phase (phase : Phase (endpoint usb) k) :
    Phase (endpoint (usbStallHandler usb)) k := by
  unfold usbStallHandler
  simp only
  split
  · rename_i sent
    have not (uep0 : usb.uep0 = epCtrl ∨ usb.uep0 = 0) : False := by
      rcases uep0 with is | is <;> rw [is] at sent <;> exact absurd sent (by decide)
    cases phase with
    | off uep0 => exact (not (Or.inr uep0)).elim
    | stalled uep0 alive running queue =>
      have cleared : usb.uep0 &&& 0xFE = epCtrl := by
        rcases uep0 with is | is
        · exact (not (Or.inl is)).elim
        · rw [show usb.uep0 = _ from is]
          decide
      exact .ready ⟨cleared, alive⟩ running (Or.inl queue) rfl ucpu_free (fun _ => rfl)
        fun pending => absurd queue pending
    | ready on | asked on | reading on | read on | ended on | confirming on | confirmed on =>
      exact (not (Or.inl on.uep0)).elim
  · exact phase

/-- Taking the address leaves endpoint 0 alone. -/
theorem checkAdrPending_same : endpoint (mUSBCheckAdrPendingState usb) = endpoint usb := by
  unfold mUSBCheckAdrPendingState
  split
  · rename_i pending
    have before : (endpoint usb).alive = true := by
      simp only [endpoint, pending]
      decide
    have after : decide (DeviceState.default.value ≤
        (if 0 < bDevADR usb.setupPkt then DeviceState.address else .default).value) = true := by
      split <;> decide
    have alive : decide (DeviceState.default.value ≤
        (if 0 < bDevADR usb.setupPkt then DeviceState.address else .default).value) =
          decide (DeviceState.default.value ≤ usb.usbDeviceState.value) :=
      after.trans before.symm
    simp only [endpoint, alive]
  · rfl

/-- The data bit and the status change from packet to packet. -/
theorem next_status (last : Nat) (bd : Bdt)
    (stat : bd.stat = (((sending last &&& dtsmask) ||| (inToken <<< 2)) &&& 0xFC)) :
    usie ||| (if bd.dts then dat0 else dat1) ||| dtsen = sending (last + 1) := by
  have parity : last % 2 = 0 ∨ last % 2 = 1 := by omega
  rcases parity with even | odd
  · have next : ¬ (last + 1) % 2 = 0 := by omega
    rw [Bdt.dts, stat, sending, sending, if_pos even, if_neg next]
    decide
  · have now : ¬ last % 2 = 0 := by omega
    have next : (last + 1) % 2 = 0 := by omega
    rw [Bdt.dts, stat, sending, sending, if_neg now, if_pos next]
    decide

/-- An IN packet that has left is followed by the next one, or ends the transfer. -/
theorem inHandler_phase (phase : Phase (endpoint usb) k) (others : List Ustat)
    (queue : usb.ustat = .ep00In :: others) :
    Phase (endpoint { usbCtrlTrfInHandler usb with ustat := others }) k := by
  have same : endpoint (mUSBCheckAdrPendingState usb) = endpoint usb := checkAdrPending_same
  have pending : (endpoint usb).queue = .ep00In :: others.filter Ustat.isEp0 :=
    congrArg (List.filter Ustat.isEp0) queue
  unfold usbCtrlTrfInHandler
  generalize mUSBCheckAdrPendingState usb = checked at same
  rw [← same] at phase pending
  have nothing (rest : List Ustat) (is : (endpoint checked).queue = .ep00In :: rest) :
      others.filter Ustat.isEp0 = rest := (List.cons.inj (pending.symm.trans is)).2
  simp only
  cases phase with
  | off uep0 running queue => exact absurd (pending.symm.trans queue) (List.cons_ne_nil _ _)
  | ready on running queue =>
    rcases queue with none | one
    · exact absurd (pending.symm.trans none) (List.cons_ne_nil _ _)
    · exact absurd (List.cons.inj (pending.symm.trans one)).1 (by decide)
  | asked on stopped none queue out setup =>
    rcases queue with one | ⟨two, state⟩
    · exact absurd (List.cons.inj (pending.symm.trans one)).1 (by decide)
    · rw [if_pos (show checked.ctrlTrfState = .ctrlTrfTx from state)]
      exact .asked ⟨on.uep0, on.alive⟩ stopped none (Or.inl (nothing _ two)) out setup
  | reading on running queue => exact absurd (pending.symm.trans queue) (List.cons_ne_nil _ _)
  | read on running queue state out last count stat adr left =>
    rw [if_pos (show checked.ctrlTrfState = .ctrlTrfTx from state)]
    obtain ⟨data, source, status⟩ := txService_sends checked _ left
    refine .reading ⟨on.uep0, on.alive⟩ running (nothing _ queue) state out ?_ adr data ?_
    · rw [count]
      refine next_status last _ ?_
      rw [status, show checked.ep0Bi.stat = _ from stat]
    · rw [Nat.mul_succ, ← List.drop_drop]
      exact source
  | ended on running queue state out status =>
    rcases queue with one | two
    · exact absurd (List.cons.inj (pending.symm.trans one)).1 (by decide)
    · rw [if_pos (show checked.ctrlTrfState = .ctrlTrfTx from state)]
      exact .ended ⟨on.uep0, on.alive⟩ running (Or.inl (nothing _ two)) state out status
  | confirming on running queue => exact absurd (pending.symm.trans queue) (List.cons_ne_nil _ _)
  | confirmed on running queue state =>
    have last : ¬ checked.ctrlTrfState = .ctrlTrfTx := by
      rw [show checked.ctrlTrfState = _ from state]
      decide
    rw [if_neg last]
    exact prepare_ready { checked with ustat := others } ⟨on.uep0, on.alive⟩ running
      (nothing _ queue)
  | stalled uep0 alive running queue =>
    exact absurd (pending.symm.trans queue) (List.cons_ne_nil _ _)

/-- An OUT packet of an orderly host is a setup packet, or it ends the transfer. -/
theorem outHandler_phase (phase : Phase (endpoint usb) k) (others : List Ustat)
    (queue : usb.ustat = .ep00Out :: others) :
    if usb.ep0Bo.pid = setupToken then
      usb.pktdis = true ∧ k = 0 ∧
        Phase (endpoint { usbCtrlTrfSetupHandler rom usb with ustat := others }) k
    else Phase (endpoint { usbCtrlTrfOutHandler usb with ustat := others }) k := by
  have pending : (endpoint usb).queue = .ep00Out :: others.filter Ustat.isEp0 :=
    congrArg (List.filter Ustat.isEp0) queue
  have nothing (rest : List Ustat) (is : (endpoint usb).queue = .ep00Out :: rest) :
      others.filter Ustat.isEp0 = rest := (List.cons.inj (pending.symm.trans is)).2
  -- Without data to come, the handler prepares for the next setup packet.
  have prepared (on : (endpoint usb).On) (running : usb.pktdis = false)
      (is : (endpoint usb).queue = [.ep00Out]) (state : usb.ctrlTrfState ≠ .ctrlTrfRx)
      (status : usb.ep0Bo.pid ≠ setupToken) :
      if usb.ep0Bo.pid = setupToken then
        usb.pktdis = true ∧ k = 0 ∧
          Phase (endpoint { usbCtrlTrfSetupHandler rom usb with ustat := others }) k
      else Phase (endpoint { usbCtrlTrfOutHandler usb with ustat := others }) k := by
    rw [if_neg status, usbCtrlTrfOutHandler, if_neg state]
    exact prepare_ready { usb with ustat := others } ⟨on.uep0, on.alive⟩
      running (nothing _ is)
  cases phase with
  | off uep0 running queue => exact absurd (pending.symm.trans queue) (List.cons_ne_nil _ _)
  | ready on running queue state inn out seen =>
    rcases queue with none | one
    · exact absurd (pending.symm.trans none) (List.cons_ne_nil _ _)
    · have waits : usb.ctrlTrfState ≠ .ctrlTrfRx := by
        rw [show usb.ctrlTrfState = _ from state]
        decide
      exact prepared on running one waits (seen (by rw [one]; exact List.cons_ne_nil _ _)).2
  | asked on stopped none queue out setup =>
    rcases queue with one | ⟨two, -⟩
    · rw [if_pos (show usb.ep0Bo.pid = setupToken from setup)]
      rw [none]
      exact ⟨stopped, rfl, setupHandler_phase rom usb on.uep0 (of_decide_eq_true on.alive) others
        (nothing _ one)⟩
    · exact absurd (List.cons.inj (pending.symm.trans two)).1 (by decide)
  | reading on running queue => exact absurd (pending.symm.trans queue) (List.cons_ne_nil _ _)
  | read on running queue => exact absurd (List.cons.inj (pending.symm.trans queue)).1 (by decide)
  | ended on running queue state out status =>
    rcases queue with one | two
    · have sends : usb.ctrlTrfState ≠ .ctrlTrfRx := by
        rw [show usb.ctrlTrfState = _ from state]
        decide
      exact prepared on running one sends status
    · exact absurd (List.cons.inj (pending.symm.trans two)).1 (by decide)
  | confirming on running queue => exact absurd (pending.symm.trans queue) (List.cons_ne_nil _ _)
  | confirmed on running queue =>
    exact absurd (List.cons.inj (pending.symm.trans queue)).1 (by decide)
  | stalled uep0 alive running queue =>
    exact absurd (pending.symm.trans queue) (List.cons_ne_nil _ _)

end Firmware

end ScicosFlex.Pic18.Stack
