import ScicosFlex.Gateway.StreamParser

/-!
# From UDP to the serial line and back

`EncodeBytes` turns every complete 60-byte record of a datagram into a frame for
the serial line. Its trailer is the exclusive or of nine bytes of the record, the
eight that are sent and the one behind them, whereas `ParseBytes` expects that of
the eight bytes sent. A frame is understood exactly if that ninth byte is zero
(`round_trip_iff`).
-/

namespace ScicosFlex.Gateway

open Library.FrameScanner

/-- The assignment `array[index] = value`. -/
def arrayStore (array : List Byte) (index : Nat) (value : Byte) : Option (List Byte) :=
  if index < array.length then some (array.set index value) else none

/-- The inner loop for `count` values of `j`: it fills the frame and sums up its trailer. -/
def fillLoop (received : List Byte) (actualIndex : Nat) :
    Nat → Nat → Byte → List Byte → Option (Byte × List Byte)
  | 0, _, crc, commPacket => some (crc, commPacket)
  | count + 1, j, crc, commPacket => do
    let filled ← received[actualIndex + j - 1]?
    let commPacket ← arrayStore commPacket j filled
    -- The byte summed up is the one behind the byte sent.
    let summed ← received[actualIndex + j]?
    fillLoop received actualIndex count (j + 1) (crc ^^^ summed) commPacket

/-- One pass through the body of the encoding loop. -/
def encodeBody (received : List Byte) (actualIndex : Nat) : Option (List Byte) := do
  let crc ← received[actualIndex]?
  let commPacket ← arrayStore (List.replicate easylabPacketSize 0) 0 0xAA
  let (crc, commPacket) ← fillLoop received actualIndex (easylabPacketSize - 2) 1 crc commPacket
  arrayStore commPacket (easylabPacketSize - 1) crc

/-- The encoding loop. -/
def encodeLoop (received : List Byte) (actualIndex : Nat) (newPackets : List (List Byte)) :
    Option (List (List Byte)) :=
  if received.length - actualIndex < udpPacketSize then some newPackets
  else
    match encodeBody received actualIndex with
    | none => none
    | some commPacket =>
      encodeLoop received (actualIndex + udpPacketSize) (newPackets ++ [commPacket])
termination_by received.length - actualIndex
decreasing_by
  have size : udpPacketSize = 60 := rfl
  omega

/-- `EncodeBytes(received)`. -/
def encodeBytes (received : List Byte) : Option (List (List Byte)) := encodeLoop received 0 []

/-- The complete records of a datagram. -/
def records (received : List Byte) : List (List Byte) :=
  (List.range (received.length / udpPacketSize)).map fun index =>
    (received.drop (index * udpPacketSize)).take udpPacketSize

/-- The frame made of a record. -/
def packetOf (record : List Byte) : List Byte :=
  0xAA :: (record.take 8 ++ [xorBytes (record.take 9)])

/-- Encoding a datagram and decoding its frames, in whatever chunks they arrive,
gives the two numbers in the first eight bytes of every record, and nothing else. -/
def RoundTrips (received : List Byte) : Prop :=
  ∃ packets, encodeBytes received = some packets ∧
    ∀ chunks : List (List Byte), chunks.flatten = packets.flatten →
      ∃ last, parseChunks streamParserEncoder chunks =
        some ((records received).flatMap floatsOf, last)

/-- No complete record is left. -/
theorem records_short (received : List Byte) (short : received.length < udpPacketSize) :
    records received = [] := by
  rw [records, Nat.div_eq_of_lt short]
  rfl

/-- The first record, and those behind it. -/
theorem records_cons (received : List Byte) (long : udpPacketSize ≤ received.length) :
    records received =
      received.take udpPacketSize :: records (received.drop udpPacketSize) := by
  have count : received.length / udpPacketSize =
      (received.drop udpPacketSize).length / udpPacketSize + 1 := by
    simp only [udpPacketSize, List.length_drop] at long ⊢
    omega
  rw [records, count, List.range_succ_eq_map, List.map_cons, List.map_map, Nat.zero_mul,
    List.drop_zero, records]
  congr 1
  apply List.map_congr_left
  intro index _
  simp only [Function.comp_apply, List.drop_drop, Nat.succ_mul, Nat.add_comm]

/-- A record has sixty bytes. -/
theorem record_length (received record : List Byte) (member : record ∈ records received) :
    record.length = 60 := by
  obtain ⟨index, inside, rfl⟩ := List.mem_map.mp member
  have below := List.mem_range.mp inside
  simp only [udpPacketSize, List.length_take, List.length_drop] at below ⊢
  omega

/-- An assignment inside an array. -/
theorem arrayStore_eq (array : List Byte) (index : Nat) (value : Byte)
    (inside : index < array.length) :
    arrayStore array index value =
      some (array.take index ++ value :: array.drop (index + 1)) := by
  rw [arrayStore, if_pos inside, List.set_eq_take_append_cons_drop, if_pos inside]

/-- The inner loop copies the bytes before its index and sums up those at it. -/
theorem fillLoop_eq (received : List Byte) (actualIndex count j : Nat) (crc : Byte)
    (commPacket : List Byte) (positive : 0 < j)
    (inside : actualIndex + j + count ≤ received.length)
    (room : j + count ≤ commPacket.length) :
    fillLoop received actualIndex count j crc commPacket =
      some (((received.drop (actualIndex + j)).take count).foldl (· ^^^ ·) crc,
        commPacket.take j ++ (received.drop (actualIndex + j - 1)).take count ++
          commPacket.drop (j + count)) := by
  induction count generalizing j crc commPacket with
  | zero => simp [fillLoop]
  | succ count inductionHypothesis =>
    have here : actualIndex + j < received.length := by omega
    have before : actualIndex + j - 1 < received.length := by omega
    have next : actualIndex + (j + 1) - 1 = actualIndex + j - 1 + 1 := by omega
    have width : (commPacket.take j).length = j := by
      rw [List.length_take]
      omega
    have room' : j < commPacket.length := by omega
    have behind : (commPacket.drop (j + 1)).length = commPacket.length - (j + 1) :=
      List.length_drop
    simp only [fillLoop, Option.bind_eq_bind, List.getElem?_eq_getElem before,
      List.getElem?_eq_getElem here, Option.bind_some, arrayStore_eq _ _ _ room']
    rw [inductionHypothesis (j + 1) _ _ (by omega) (by omega)
      (by rw [List.length_append, List.length_cons]; omega), next,
      List.drop_eq_getElem_cons here, List.drop_eq_getElem_cons before, List.take_succ_cons,
      List.take_succ_cons, List.foldl_cons]
    have taken : (commPacket.take j ++ received[actualIndex + j - 1] ::
        commPacket.drop (j + 1)).take (j + 1) =
        commPacket.take j ++ [received[actualIndex + j - 1]] := by
      rw [List.append_cons, List.take_left' (by simp [width])]
    have dropped : (commPacket.take j ++ received[actualIndex + j - 1] ::
        commPacket.drop (j + 1)).drop (j + 1 + count) = commPacket.drop (j + (count + 1)) := by
      rw [List.append_cons, ← List.drop_drop, List.drop_left' (by simp [width]), List.drop_drop,
        Nat.add_right_comm, Nat.add_assoc]
    rw [taken, dropped, List.append_assoc (commPacket.take j)]
    rfl

/-- A record becomes its frame. For every byte that the inner loop sends it sums up the
one behind, and so the ninth byte gets into the trailer. -/
theorem encodeBody_eq (received : List Byte) (actualIndex : Nat)
    (inside : actualIndex + udpPacketSize ≤ received.length) :
    encodeBody received actualIndex =
      some (packetOf ((received.drop actualIndex).take udpPacketSize)) := by
  have inside : actualIndex + 60 ≤ received.length := inside
  have here : actualIndex < received.length := by omega
  have filled := fillLoop_eq received actualIndex (easylabPacketSize - 2) 1
    received[actualIndex] (0xAA :: List.replicate 9 0) (by decide)
    (by show actualIndex + 1 + 8 ≤ _; omega) (by decide)
  have first : arrayStore (List.replicate easylabPacketSize 0) 0 0xAA =
    some (0xAA :: List.replicate 9 0) := by decide
  have payload : ((received.drop actualIndex).take 8).length = 8 := by
    rw [List.length_take, List.length_drop]
    omega
  have taken (count : Nat) (few : count ≤ 60) :
      ((received.drop actualIndex).take udpPacketSize).take count =
        (received.drop actualIndex).take count := by
    rw [List.take_take]
    congr 1
    exact Nat.min_eq_left few
  -- The trailer starts from the first byte and takes in the next eight.
  have crc : ((received.drop (actualIndex + 1)).take (easylabPacketSize - 2)).foldl (· ^^^ ·)
      received[actualIndex] = xorBytes ((received.drop actualIndex).take 9) := by
    have zero : (0 : Byte) ^^^ received[actualIndex] = received[actualIndex] := BitVec.zero_xor
    rw [xorBytes, List.drop_eq_getElem_cons here, List.take_succ_cons, List.foldl_cons, zero]
    rfl
  simp only [encodeBody, Option.bind_eq_bind, List.getElem?_eq_getElem here, Option.bind_some,
    first, filled, crc, Nat.add_sub_cancel]
  have width : ([0xAA] ++ (received.drop actualIndex).take 8).length = 9 := by
    rw [List.length_append, payload]
    rfl
  change arrayStore ([0xAA] ++ (received.drop actualIndex).take 8 ++ [0]) 9 _ = _
  have behind : ([0xAA] ++ (received.drop actualIndex).take 8 ++ [0]).drop (9 + 1) = [] := by
    apply List.drop_eq_nil_of_le
    rw [List.length_append, width]
    decide
  rw [arrayStore_eq _ _ _ (by rw [List.length_append, width]; decide), List.take_left' width,
    behind, packetOf, taken 8 (by decide), taken 9 (by decide)]
  rfl

/-- The loop makes a frame of every complete record that is left. The number of bytes
left is the measure. -/
theorem encodeLoop_eq (received : List Byte) (actualIndex : Nat) (newPackets : List (List Byte)) :
    encodeLoop received actualIndex newPackets =
      some (newPackets ++ (records (received.drop actualIndex)).map packetOf) := by
  induction actualIndex, newPackets using encodeLoop.induct received with
  | case1 actualIndex newPackets short =>
    rw [encodeLoop, if_pos short, records_short _ (by rw [List.length_drop]; exact short)]
    simp
  | case2 actualIndex newPackets long failed =>
    simp only [udpPacketSize] at long
    rw [encodeBody_eq received actualIndex (by simp only [udpPacketSize]; omega)] at failed
    cases failed
  | case3 actualIndex newPackets long commPacket filled inductionHypothesis =>
    have many : udpPacketSize ≤ (received.drop actualIndex).length := by
      rw [List.length_drop]
      exact Nat.not_lt.mp long
    have inside : actualIndex + udpPacketSize ≤ received.length := by
      simp only [udpPacketSize] at long ⊢
      omega
    rw [encodeLoop, if_neg long, filled]
    rw [encodeBody_eq received actualIndex inside] at filled
    cases filled
    change encodeLoop received (actualIndex + udpPacketSize) _ = _
    rw [inductionHypothesis, records_cons _ many, List.drop_drop, List.map_cons,
      List.append_assoc]
    rfl

/-- Encoding never fails. -/
theorem encodeBytes_eq (received : List Byte) :
    encodeBytes received = some ((records received).map packetOf) :=
  encodeLoop_eq received 0 []

/-- A frame has ten bytes. -/
theorem packetOf_length (record : List Byte) (long : record.length = 60) :
    (packetOf record).length = easylabPacketSize := by
  simp [packetOf, long, easylabPacketSize, sizeofFloat]

/-- The nine bytes summed up are the eight sent and one more. -/
theorem trailer_eq (record : List Byte) (long : record.length = 60) :
    xorBytes (record.take 9) = xorBytes (record.take 8) ^^^ record.getD 8 0 := by
  have inside : 8 < record.length := by omega
  rw [xorBytes, xorBytes, List.take_succ_eq_append_getElem inside, List.foldl_append,
    List.getD_eq_getElem?_getD, List.getElem?_eq_getElem inside]
  rfl

/-- The frame of a record is understood exactly if the byte behind the eight it
carries is zero. -/
theorem frameAt_packetOf (record : List Byte) (long : record.length = 60) :
    frameAt (packetOf record) =
      if record.getD 8 0 = 0 then some (record.take 8) else none := by
  have payload : (record.take 8).length = 8 := by
    rw [List.length_take]
    omega
  have taken : ((packetOf record).drop 1).take 8 = record.take 8 := List.take_left' payload
  have trailer : (packetOf record)[9]? = some (xorBytes (record.take 9)) := by
    rw [packetOf, List.getElem?_cons_succ, List.getElem?_append_right (by omega), payload]
    rfl
  have agree : xorBytes (record.take 8) ^^^ record.getD 8 0 = xorBytes (record.take 8) ↔
      record.getD 8 0 = 0 := by
    have plain : xorBytes (record.take 8) ^^^ (0 : Byte) = xorBytes (record.take 8) :=
      BitVec.xor_zero
    constructor
    · intro same
      exact (BitVec.xor_right_inj _).mp (same.trans plain.symm)
    · intro zero
      rw [zero, plain]
  rw [frameAt, taken, trailer, trailer_eq record long]
  by_cases zero : record.getD 8 0 = 0
  · rw [if_pos zero, if_pos]
    exact ⟨rfl, congrArg some (agree.mpr zero)⟩
  · rw [if_neg zero, if_neg]
    rintro ⟨-, same⟩
    exact zero (agree.mp (Option.some.inj same))

/-- If the byte behind the eight sent is zero in every record, all frames are found. -/
theorem packets_found (blocks : List (List Byte)) (long : ∀ record ∈ blocks, record.length = 60)
    (zero : ∀ record ∈ blocks, record.getD 8 0 = 0) :
    (scan easylabFormat (blocks.map packetOf).flatten).1 = blocks.map fun record =>
      record.take 8 := by
  induction blocks with
  | nil => rw [List.map_nil, List.flatten_nil, scan_short easylabFormat [] (by decide)]; rfl
  | cons record blocks inductionHypothesis =>
    have width := long record List.mem_cons_self
    have found := frameAt_packetOf record width
    rw [if_pos (zero record List.mem_cons_self)] at found
    rw [List.map_cons, List.flatten_cons,
      scan_frame easylabFormat _ _ _ (packetOf_length record width) found,
      inductionHypothesis (fun other member => long other (List.mem_cons_of_mem _ member))
        (fun other member => zero other (List.mem_cons_of_mem _ member)), List.map_cons]

/-- If as many numbers arrive as were sent, every frame was understood. The frames stand
in the stream one behind the other, and one that is dropped is missing in the count,
whatever is found in its bytes. -/
theorem round_trip_trailers (received : List Byte) (roundTrips : RoundTrips received) :
    ∀ record ∈ records received, record.getD 8 0 = 0 := by
  obtain ⟨packets, encoded, decoded⟩ := roundTrips
  rw [encodeBytes_eq, Option.some.injEq] at encoded
  subst encoded
  obtain ⟨last, expected⟩ := decoded [((records received).map packetOf).flatten] (by simp)
  obtain ⟨other, actual, -⟩ := parseChunks_scan [((records received).map packetOf).flatten]
  rw [expected, List.flatten_singleton] at actual
  have floats := congrArg List.length (Prod.mk.inj (Option.some.inj actual)).1
  -- Two numbers for each frame found and for each record sent.
  have pairs (blocks : List (List Byte)) : (blocks.flatMap floatsOf).length = 2 * blocks.length := by
    induction blocks with
    | nil => rfl
    | cons block blocks inductionHypothesis =>
      rw [List.flatMap_cons, List.length_append, inductionHypothesis, List.length_cons, floatsOf]
      simp only [List.length_cons, List.length_nil]
      omega
  rw [pairs, pairs] at floats
  have understood := scan_dense easylabFormat ((records received).map packetOf)
    (by
      intro packet member
      obtain ⟨record, inside, rfl⟩ := List.mem_map.mp member
      exact packetOf_length record (record_length received record inside))
    (by rw [List.length_map]; omega)
  intro record member
  have found := understood (packetOf record) (List.mem_map_of_mem member)
  by_contra nonzero
  apply found
  change frameAt (packetOf record) = none
  rw [frameAt_packetOf record (record_length received record member), if_neg nonzero]

/-- Encoding and decoding restore the two numbers of every record if and only if in
every complete record the byte behind the eight that are sent is zero. The encoder sums
up that byte in the trailer, the decoder does not, and a frame with another trailer is
dropped. What is behind the last complete record is left out on both sides. -/
theorem round_trip_iff (received : List Byte) :
    RoundTrips received ↔ ∀ record ∈ records received, record.getD 8 0 = 0 := by
  constructor
  · exact round_trip_trailers received
  · intro zero
    refine ⟨_, encodeBytes_eq received, fun chunks whole => ?_⟩
    obtain ⟨last, returned, -⟩ := parseChunks_scan chunks
    refine ⟨last, ?_⟩
    rw [returned, whole, packets_found _ (record_length received) zero, List.flatMap_map]
    have same : (fun record : List Byte => floatsOf (record.take 8)) = floatsOf :=
      funext floatsOf_take
    rw [same]

/-- A record whose ninth byte is one makes a frame that is not understood. -/
theorem ninth_byte_spoils_frame : ¬ ∀ received, RoundTrips received := by
  intro always
  have zero := round_trip_trailers (List.replicate 8 0 ++ 1 :: List.replicate 51 0) (always _)
    (List.replicate 8 0 ++ 1 :: List.replicate 51 0) (by decide)
  exact absurd zero (by decide)

end ScicosFlex.Gateway
