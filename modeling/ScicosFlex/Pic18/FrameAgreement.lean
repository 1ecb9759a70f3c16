import ScicosFlex.Pic18.BridgeRuns

/-!
# Agreement of library and firmware on packets

Every packet the USB library hands to `usb_bulk_write` is sealed with a checksum
over its other 63 bytes and starts with the header mark, so the bridge accepts it
and reads the fields the library wrote. Changing one byte of such a packet breaks
the checksum: a changed sum no longer equals the checksum byte, and a changed
checksum byte no longer equals the sum. The bridge then drops the connection and
schedules nothing.
-/

namespace ScicosFlex.Pic18.FrameAgreement

open Usb Usb.Packet Usb.Session Bridge BridgeRuns

/-- The bridge accepts the bytes and reads these fields from them. -/
structure ReadsAs (frame : Frame) (type : BitVec 3) (length : Nat) (payload : Fin 60 → Byte) :
    Prop where
  accepts : accepted frame = true
  type_eq : (ofBytes frame).type = type
  length_eq : (ofBytes frame).length.toNat = length
  payload_eq : ∀ position : Fin 60, frame ⟨position.val + 4, by omega⟩ = payload position

/-- Whatever state the bridge is in, a report that differs from the packet in
exactly one byte disconnects it and leaves nothing for the dsPIC. -/
def DetectsChanges (frame : Frame) : Prop :=
  ∀ (bridge : Bridge.State) (call : Call) (other : Frame) (changed : Fin 64),
    frame changed ≠ other changed → (∀ position, position ≠ changed → frame position = other position) →
    call.report = some other →
    (next bridge call).connected = false ∧ (next bridge call).toSendSpi = false

/-- The first `len` bytes of a buffer, padded with zeros. -/
def padded (buf : Memory) (len : Nat) : Fin 60 → Byte :=
  fun position => if position.val < len then buf position.val else 0

/-- A command code, high byte first, padded with zeros. -/
def commandPayload (code : BitVec 16) : Fin 60 → Byte := fun position =>
  if position.val = 0 then (code >>> 8).setWidth 8
  else if position.val = 1 then (code &&& 0x00FF).setWidth 8
  else 0

/-- The checksum of a sealed packet matches. -/
theorem sealed_matches (packet : FlexUsbPacket) : crcMatches (bytes (sealed packet)) = true := by
  simpa [crcMatches, ofBytes] using (sealed_sum packet).symm

/-- A sealed packet with the header mark is read back field by field. -/
theorem sealed_readsAs (packet : FlexUsbPacket) (mark : packet.start = headerStart) :
    ReadsAs (bytes (sealed packet)) packet.type packet.length.toNat packet.payload := by
  have fields := sealed_fields packet
  refine ⟨?_, by rw [fields], by rw [fields], fun position => ?_⟩
  · simp [accepted, sealed_matches, fields, mark]
  · exact congrFun (congrArg FlexUsbPacket.payload fields) position

/-- One changed byte makes checksum and sum differ. -/
theorem changed_rejected (frame other : Frame) (changed : Fin 64) (right : crcMatches frame = true)
    (differs : frame changed ≠ other changed)
    (agree : ∀ position, position ≠ changed → frame position = other position) :
    accepted other = false := by
  have matching : frame 0 = frameSum frame := by simpa [crcMatches, ofBytes] using right
  have wrong : other 0 ≠ frameSum other := by
    by_cases crc : changed = 0
    · -- The checksum byte itself changed, the sum did not.
      subst crc
      rw [← frameSum_congr frame other agree, ← matching]
      exact differs.symm
    · rw [← agree 0 (Ne.symm crc), matching]
      exact frameSum_detects frame other changed crc differs agree
  simp [accepted, crcMatches, ofBytes, wrong]

/-- A rejected report disconnects the bridge and schedules nothing. -/
theorem rejected_step (bridge : Bridge.State) (call : Call) (report : Frame)
    (present : call.report = some report) (rejected : accepted report = false) :
    (next bridge call).connected = false ∧ (next bridge call).toSendSpi = false := by
  constructor
  · apply Decidable.byContradiction
    intro up
    rw [Bool.not_eq_false, link_step] at up
    rcases up with ⟨_, same, valid, -⟩ | ⟨-, keeps⟩
    · obtain rfl := Option.some.inj (present.symm.trans same)
      rw [rejected] at valid
      cases valid
    · have valid := (keeps report present).1
      rw [rejected] at valid
      cases valid
  · have scheduled := (process_spi bridge call).2
    cases waiting : (next bridge call).toSendSpi with
    | false => rfl
    | true => simp [pendingSpi, waiting, acceptedData, present, rejected] at scheduled

/-- Sealed packets are protected against the change of one byte: either the checksum has
changed, or the sum of the other bytes, but not both. -/
theorem sealed_detects (packet : FlexUsbPacket) : DetectsChanges (bytes (sealed packet)) := by
  intro bridge call other changed differs agree present
  exact rejected_step bridge call other present
    (changed_rejected _ other changed (sealed_matches packet) differs agree)

/-- A data packet is read back with its length and padded payload. -/
theorem data_readsAs (buf : Memory) (len : Nat) (fits : len ≤ packetPayloadSize) :
    ReadsAs (bytes (dataPacket buf len)) headerData len (padded buf len) := by
  have width : (BitVec.ofNat 6 len).toNat = len := by
    have bound : len ≤ 60 := fits
    rw [BitVec.toNat_ofNat]
    omega
  have fields := sealed_readsAs { zeroPacket with
    start := headerStart
    type := headerData
    more := 0
    seq := 0
    length := BitVec.ofNat 6 len
    payload := padded buf len } rfl
  rw [width] at fields
  exact fields

/-- A command packet is read back with its two payload bytes. -/
theorem command_readsAs (code : BitVec 16) :
    ReadsAs (bytes (commandPacket code)) headerCommand 2 (commandPayload code) :=
  sealed_readsAs { zeroPacket with
    start := headerStart
    type := headerCommand
    payload := commandPayload code
    length := 2 } rfl

/-- A 16-bit word is the sum of its low byte and its shifted high byte. -/
theorem halves_add (code : BitVec 16) :
    ((code &&& 0x00FF).setWidth 8).setWidth 16 + ((code >>> 8).setWidth 8).setWidth 16 <<< 8 =
      code := by
  have low : ((code &&& 0x00FF).setWidth 8).setWidth 16 = BitVec.ofNat 16 (code.toNat % 256) := by
    have masked : code.toNat &&& (0x00FF : BitVec 16).toNat = code.toNat % 256 :=
      Nat.and_two_pow_sub_one_eq_mod code.toNat 8
    apply BitVec.eq_of_toNat_eq
    simp only [BitVec.toNat_setWidth, BitVec.toNat_and, BitVec.toNat_ofNat, masked]
    omega
  have high : ((code >>> 8).setWidth 8).setWidth 16 = BitVec.ofNat 16 (code.toNat / 256) := by
    apply BitVec.eq_of_toNat_eq
    simp only [BitVec.toNat_setWidth, BitVec.toNat_ushiftRight, BitVec.toNat_ofNat,
      Nat.shiftRight_eq_div_pow]
    omega
  rw [low, high]
  apply BitVec.eq_of_toNat_eq
  simp only [BitVec.toNat_add, BitVec.toNat_shiftLeft, BitVec.toNat_ofNat, Nat.shiftLeft_eq]
  omega

/-- The bridge puts the two bytes of a command code together again. -/
theorem command_code (code : BitVec 16) : command (ofBytes (bytes (commandPacket code))) = code := by
  have low : (ofBytes (bytes (commandPacket code))).payload 1 = (code &&& 0x00FF).setWidth 8 :=
    (command_readsAs code).payload_eq 1
  have high : (ofBytes (bytes (commandPacket code))).payload 0 = (code >>> 8).setWidth 8 :=
    (command_readsAs code).payload_eq 0
  rw [command, low, high, halves_add]

/-- An accepted data report is scheduled for the dsPIC as it is. -/
theorem data_step (bridge : Bridge.State) (call : Call) (report : Frame)
    (present : call.report = some report) (valid : accepted report = true)
    (kind : (ofBytes report).type = headerData) :
    pendingSpi (next bridge call) = some report := by
  rw [(process_spi bridge call).2]
  simp [acceptedData, present, valid, kind]

/-- The packets of `flex_usb_init` and `flex_usb_close` are the two commands. -/
theorem init_packet (state : Session.State) (rxSize txSize : Nat) (opt : BitVec 8)
    (outcomes : InitOutcomes) (frame : Frame)
    (handed : (flexUsbInit state rxSize txSize opt outcomes).2.1 = some frame) :
    frame = bytes (commandPacket commandConnect) := by
  unfold flexUsbInit at handed
  extract_lets opened rxBufferSize txBufferSize sized at handed
  clear_value sized
  -- Only the last way out hands a packet over.
  split_ifs at handed
  exact (Option.some.inj handed).symm

theorem close_packet (state : Session.State) (written : Int) (closed : Bool) (frame : Frame)
    (handed : (flexUsbClose state written closed).2.1 = some frame) :
    frame = bytes (commandPacket commandDisconnect) := by
  rw [flexUsbClose] at handed
  split_ifs at handed
  all_goals exact (Option.some.inj handed).symm

/-- Encoder and decoder agree. Every data packet of up to 60 bytes is accepted as data
with its length and padded payload and is scheduled for the dsPIC; the packets of
opening and closing are accepted as the two commands and connect or disconnect the
bridge; and of all these packets the change of any one byte is detected. -/
theorem packets_agree :
    (∀ (buf : Memory) (len : Nat) (written : Int), len ≤ packetPayloadSize →
      ∃ frame, (flexUsbWrite buf len written).2 = some frame ∧
        ReadsAs frame headerData len (padded buf len) ∧ DetectsChanges frame ∧
        ∀ (bridge : Bridge.State) (call : Call), call.report = some frame →
          pendingSpi (next bridge call) = some frame) ∧
      (∀ (state : Session.State) (rxSize txSize : Nat) (opt : BitVec 8) (outcomes : InitOutcomes)
        (frame : Frame), (flexUsbInit state rxSize txSize opt outcomes).2.1 = some frame →
        ReadsAs frame headerCommand 2 (commandPayload commandConnect) ∧
        command (ofBytes frame) = commandConnect ∧ DetectsChanges frame ∧
        ∀ (bridge : Bridge.State) (call : Call), call.report = some frame →
          (next bridge call).connected = true) ∧
      (∀ (state : Session.State) (written : Int) (closed : Bool) (frame : Frame),
        (flexUsbClose state written closed).2.1 = some frame →
        ReadsAs frame headerCommand 2 (commandPayload commandDisconnect) ∧
        command (ofBytes frame) = commandDisconnect ∧ DetectsChanges frame ∧
        ∀ (bridge : Bridge.State) (call : Call), call.report = some frame →
          (next bridge call).connected = false) := by
  refine ⟨?_, ?_, ?_⟩
  · intro buf len written fits
    have small : ¬ packetPayloadSize < len := Nat.not_lt.mpr fits
    have reads := data_readsAs buf len fits
    refine ⟨bytes (dataPacket buf len), by simp [flexUsbWrite, small], reads,
      sealed_detects _, fun bridge call present => ?_⟩
    exact data_step bridge call _ present reads.accepts reads.type_eq
  · intro state rxSize txSize opt outcomes frame handed
    obtain rfl := init_packet state rxSize txSize opt outcomes frame handed
    have reads := command_readsAs commandConnect
    have code := command_code commandConnect
    refine ⟨reads, code, sealed_detects _, fun bridge call present => ?_⟩
    exact (link_step bridge call).mpr (Or.inl ⟨_, present, reads.accepts, reads.type_eq, code⟩)
  · intro state written closed frame handed
    obtain rfl := close_packet state written closed frame handed
    have reads := command_readsAs commandDisconnect
    have code := command_code commandDisconnect
    refine ⟨reads, code, sealed_detects _, fun bridge call present => ?_⟩
    apply Bool.eq_false_iff.mpr
    intro up
    rcases (link_step bridge call).mp up with ⟨report, same, -, -, connect⟩ | ⟨-, keeps⟩
    · obtain rfl := Option.some.inj (present.symm.trans same)
      exact absurd (code.symm.trans connect) (by decide)
    · exact (keeps _ present).2 ⟨reads.type_eq, code⟩

end ScicosFlex.Pic18.FrameAgreement
