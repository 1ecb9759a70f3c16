import Mathlib.Data.BitVec
import ScicosFlex.Library.FrameScanner

/-!
# The serial side of the gateway

`StreamParserEncoder` of the gateway between a serial line and UDP. `ParseBytes`
keeps the bytes of an unfinished frame between two calls and rescans them in
front of the next chunk; a byte that starts no frame with a right trailer is
passed over. Array accesses and `Array.Copy` are checked, as the runtime checks
them: no result stands for an exception. A `float` is its 32 bits.

The second half relates the parser to a scanner for frames of ten bytes. A call
never fails (`parse_scans`), the chunks a stream arrives in do not matter, and
on a stream of frames between bytes that start none exactly their floats are
returned (`decoding_is_exact`).
-/

namespace ScicosFlex.Gateway

open Library.FrameScanner

abbrev Byte := BitVec 8

/-- The type `float`. -/
abbrev Single := BitVec 32

/-- `sizeof(float)`. -/
def sizeofFloat : Nat := 4

/-- `EASYLAB_PACKET_SIZE`. -/
def easylabPacketSize : Nat := 2 * sizeofFloat + 2

/-- `UDP_PACKET_SIZE`. -/
def udpPacketSize : Nat := 60

/-- The bytes kept from the previous call. -/
structure StreamParserEncoder where
  remainingLength : Nat
  remainingBytes : List Byte

/-- The constructor. -/
def streamParserEncoder : StreamParserEncoder :=
  { remainingLength := 0, remainingBytes := List.replicate (easylabPacketSize - 1) 0 }

/-- `Array.Copy(source, sourceIndex, target, targetIndex, length)`. -/
def arrayCopy (source : List Byte) (sourceIndex : Nat) (target : List Byte)
    (targetIndex length : Nat) : Option (List Byte) :=
  if sourceIndex + length ≤ source.length ∧ targetIndex + length ≤ target.length then
    some (target.take targetIndex ++ (source.drop sourceIndex).take length ++
      target.drop (targetIndex + length))
  else none

/-- `BitConverter.ToSingle(value, startIndex)`, low byte first. -/
def toSingle (value : List Byte) (startIndex : Nat) : Option Single := do
  let byte0 ← value[startIndex]?
  let byte1 ← value[startIndex + 1]?
  let byte2 ← value[startIndex + 2]?
  let byte3 ← value[startIndex + 3]?
  some ((byte3 ++ byte2) ++ (byte1 ++ byte0))

/-- The inner loop `crc ^= actualPacket[j]` for `count` values of `j`. -/
def crcLoop (actualPacket : List Byte) : Nat → Nat → Byte → Option Byte
  | 0, _, crc => some crc
  | count + 1, j, crc => do
    let byte ← actualPacket[j]?
    crcLoop actualPacket count (j + 1) (crc ^^^ byte)

/-- One pass through the body of the parsing loop: the new `actualIndex` and the
floats added. -/
def parseBody (actualPacket : List Byte) (actualIndex : Nat) : Option (Nat × List Single) := do
  let start ← actualPacket[actualIndex]?
  let next := actualIndex + 1
  if start ≠ 0xAA then some (next, [])
  else
    let crc ← crcLoop actualPacket (easylabPacketSize - 2) next 0
    let trailer ← actualPacket[next + easylabPacketSize - 2]?
    if trailer = crc then
      let first ← toSingle actualPacket next
      let second ← toSingle actualPacket (next + sizeofFloat)
      some (next + (easylabPacketSize - 1), [first, second])
    -- The error is logged; the index already stands behind the start byte.
    else some (next, [])

/-- Every pass moves the index on. -/
theorem parse_advances (actualPacket : List Byte) (actualIndex next : Nat) (floats : List Single)
    (passed : parseBody actualPacket actualIndex = some (next, floats)) : actualIndex < next := by
  simp only [parseBody, Option.bind_eq_bind, Option.bind_eq_some_iff] at passed
  obtain ⟨start, -, passed⟩ := passed
  split at passed
  · simp at passed
    omega
  · simp only [Option.bind_eq_some_iff] at passed
    obtain ⟨crc, -, trailer, -, passed⟩ := passed
    split at passed
    · simp only [Option.bind_eq_some_iff] at passed
      obtain ⟨first, -, second, -, passed⟩ := passed
      simp at passed
      omega
    · simp at passed
      omega

/-- The parsing loop: the final `actualIndex` and the floats found. -/
def parseLoop (actualPacket : List Byte) (actualIndex : Nat) (newFloats : List Single) :
    Option (Nat × List Single) :=
  if actualPacket.length - actualIndex < easylabPacketSize then some (actualIndex, newFloats)
  else
    match _passed : parseBody actualPacket actualIndex with
    | none => none
    | some (next, floats) => parseLoop actualPacket next (newFloats ++ floats)
termination_by actualPacket.length - actualIndex
decreasing_by
  have forward := parse_advances _ _ _ _ _passed
  have size : easylabPacketSize = 10 := rfl
  omega

/-- The buffer to parse: the kept bytes, then the new ones. -/
def joinBytes (parser : StreamParserEncoder) (newBytesRead : List Byte) : Option (List Byte) := do
  let actualPacket := List.replicate (parser.remainingLength + newBytesRead.length) 0
  let actualPacket ← arrayCopy parser.remainingBytes 0 actualPacket 0 parser.remainingLength
  arrayCopy newBytesRead 0 actualPacket parser.remainingLength newBytesRead.length

/-- The array for kept bytes after the loop has stopped at `actualIndex`. -/
def keepBytes (parser : StreamParserEncoder) (actualPacket : List Byte) (actualIndex : Nat) :
    Option (List Byte) :=
  let remainingLength := actualPacket.length - actualIndex
  if 0 < remainingLength then
    arrayCopy actualPacket actualIndex parser.remainingBytes 0 remainingLength
  else some parser.remainingBytes

/-- What `ParseBytes` returns, its two output arrays, and the object afterwards. -/
structure ParseResult where
  newFloats : List Single
  prevRemaining : List Byte
  actualRemaining : List Byte
  parser : StreamParserEncoder

/-- `ParseBytes(newBytesRead, out prevRemaining, out actualRemaining)`. -/
def parseBytes (parser : StreamParserEncoder) (newBytesRead : List Byte) : Option ParseResult := do
  let prevRemaining ← arrayCopy parser.remainingBytes 0 (List.replicate parser.remainingLength 0) 0
    parser.remainingLength
  let actualPacket ← joinBytes parser newBytesRead
  let (actualIndex, newFloats) ← parseLoop actualPacket 0 []
  let remainingLength := actualPacket.length - actualIndex
  let remainingBytes ← keepBytes parser actualPacket actualIndex
  let actualRemaining ← arrayCopy remainingBytes 0 (List.replicate remainingLength 0) 0
    remainingLength
  some { newFloats, prevRemaining, actualRemaining,
         parser := { remainingLength, remainingBytes } }

/-- Successive calls of `ParseBytes`: all floats, and the object afterwards. -/
def parseChunks (parser : StreamParserEncoder) :
    List (List Byte) → Option (List Single × StreamParserEncoder)
  | [] => some ([], parser)
  | chunk :: chunks => do
    let result ← parseBytes parser chunk
    let (later, last) ← parseChunks result.parser chunks
    some (result.newFloats ++ later, last)

/-- The bytes kept for the next call. -/
def StreamParserEncoder.remainder (parser : StreamParserEncoder) : List Byte :=
  parser.remainingBytes.take parser.remainingLength

/-- The array for kept bytes has its nine cells, and no more bytes are kept. -/
structure StreamParserEncoder.WellFormed (parser : StreamParserEncoder) : Prop where
  cells : parser.remainingBytes.length = easylabPacketSize - 1
  length_le : parser.remainingLength ≤ easylabPacketSize - 1

/-- The exclusive or of some bytes. -/
def xorBytes (bytes : List Byte) : Byte := bytes.foldl (· ^^^ ·) 0

/-- The number in the first four bytes. -/
def single (bytes : List Byte) : Single :=
  (bytes.getD 3 0 ++ bytes.getD 2 0) ++ (bytes.getD 1 0 ++ bytes.getD 0 0)

/-- The two numbers in the first eight bytes. -/
def floatsOf (bytes : List Byte) : List Single := [single bytes, single (bytes.drop sizeofFloat)]

/-- The payload at the head of a stream, if a frame begins there: the start byte,
eight payload bytes and their exclusive or. -/
def frameAt (stream : List Byte) : Option (List Byte) :=
  if stream[0]? = some 0xAA ∧ stream[9]? = some (xorBytes ((stream.drop 1).take 8)) then
    some ((stream.drop 1).take 8)
  else none

/-- A frame is recognised by its own ten bytes. -/
theorem frameAt_append (stream more : List Byte) (long : easylabPacketSize ≤ stream.length) :
    frameAt (stream ++ more) = frameAt stream := by
  have long : 10 ≤ stream.length := long
  have payload : ((stream ++ more).drop 1).take 8 = (stream.drop 1).take 8 := by
    rw [List.drop_append_of_le_length (by omega), List.take_append_of_le_length]
    rw [List.length_drop]
    omega
  simp only [frameAt, payload, List.getElem?_append_left (show 0 < stream.length by omega),
    List.getElem?_append_left (show 9 < stream.length by omega)]

/-- The frames on the serial line. -/
def easylabFormat : Format Byte (List Byte) where
  size := easylabPacketSize
  size_pos := by decide
  decode := frameAt
  decode_append := frameAt_append

/-- A copy to the start of an array. -/
theorem arrayCopy_start (source : List Byte) (sourceIndex : Nat) (target : List Byte) (length : Nat)
    (enough : sourceIndex + length ≤ source.length) (room : length ≤ target.length) :
    arrayCopy source sourceIndex target 0 length =
      some ((source.drop sourceIndex).take length ++ target.drop length) := by
  rw [arrayCopy, if_pos ⟨enough, by omega⟩, List.take_zero, List.nil_append, Nat.zero_add]

/-- A copy into an array of exactly its size. -/
theorem arrayCopy_whole (source : List Byte) (length : Nat) (enough : length ≤ source.length) :
    arrayCopy source 0 (List.replicate length 0) 0 length = some (source.take length) := by
  rw [arrayCopy_start source 0 _ length (by omega) (by simp)]
  simp

/-- The kept bytes and the new ones fill the buffer. -/
theorem joinBytes_eq (parser : StreamParserEncoder) (newBytesRead : List Byte)
    (wellFormed : parser.WellFormed) :
    joinBytes parser newBytesRead = some (parser.remainder ++ newBytesRead) := by
  obtain ⟨cells, length_le⟩ := wellFormed
  have width : parser.remainder.length = parser.remainingLength := by
    rw [StreamParserEncoder.remainder, List.length_take]
    omega
  rw [joinBytes, arrayCopy_start _ 0 _ _ (by omega) (by simp), Option.bind_eq_bind,
    Option.bind_some, List.drop_zero, arrayCopy, if_pos]
  · change some (((parser.remainder ++ _).take parser.remainingLength ++ _) ++ _) = _
    rw [List.take_left' width, List.drop_zero, List.take_length, List.drop_eq_nil_of_le,
      List.append_nil]
    simp
  · simp
    omega

/-- At most nine bytes are left, and the array then begins with them. -/
theorem keepBytes_eq (parser : StreamParserEncoder) (actualPacket : List Byte) (actualIndex : Nat)
    (wellFormed : parser.WellFormed)
    (few : actualPacket.length - actualIndex ≤ easylabPacketSize - 1)
    (inside : actualIndex ≤ actualPacket.length) :
    keepBytes parser actualPacket actualIndex = some (actualPacket.drop actualIndex ++
      parser.remainingBytes.drop (actualPacket.length - actualIndex)) := by
  have cells := wellFormed.cells
  simp only [keepBytes]
  split
  · next some =>
    rw [arrayCopy_start _ _ _ _ (by omega) (by omega), ← List.length_drop, List.take_length]
  · next none =>
    rw [List.drop_eq_nil_of_le (by omega), List.nil_append,
      show actualPacket.length - actualIndex = 0 by omega, List.drop_zero]

/-- The loop over the payload does not run past the array. -/
theorem crcLoop_eq (actualPacket : List Byte) (count j : Nat) (crc : Byte)
    (inside : j + count ≤ actualPacket.length) : crcLoop actualPacket count j crc =
      some (((actualPacket.drop j).take count).foldl (· ^^^ ·) crc) := by
  induction count generalizing j crc with
  | zero => simp [crcLoop]
  | succ count inductionHypothesis =>
    have here : j < actualPacket.length := by omega
    rw [crcLoop, List.getElem?_eq_getElem here, List.drop_eq_getElem_cons here,
      List.take_succ_cons, List.foldl_cons]
    exact inductionHypothesis (j + 1) _ (by omega)

/-- Four bytes are there to convert. -/
theorem toSingle_eq (value : List Byte) (startIndex : Nat)
    (inside : startIndex + 4 ≤ value.length) :
    toSingle value startIndex = some (single (value.drop startIndex)) := by
  simp [toSingle, single, List.getElem?_drop,
    List.getElem?_eq_getElem (show startIndex < value.length by omega),
    List.getElem?_eq_getElem (show startIndex + 1 < value.length by omega),
    List.getElem?_eq_getElem (show startIndex + 2 < value.length by omega),
    List.getElem?_eq_getElem (show startIndex + 3 < value.length by omega)]

/-- The conversion looks at no byte behind the fourth. -/
theorem single_take (bytes : List Byte) (count : Nat) (enough : 4 ≤ count) :
    single (bytes.take count) = single bytes := by
  simp only [single, List.getD_eq_getElem?_getD,
    List.getElem?_take_of_lt (show 0 < count by omega),
    List.getElem?_take_of_lt (show 1 < count by omega),
    List.getElem?_take_of_lt (show 2 < count by omega),
    List.getElem?_take_of_lt (show 3 < count by omega)]

/-- The two numbers of a payload lie in its eight bytes. -/
theorem floatsOf_take (bytes : List Byte) : floatsOf (bytes.take 8) = floatsOf bytes := by
  rw [floatsOf, floatsOf, single_take bytes 8 (by decide), List.drop_take,
    single_take _ _ (by decide)]

/-- One pass finds the frame that begins at the index, or moves on by one byte. -/
theorem parseBody_eq (actualPacket : List Byte) (actualIndex : Nat)
    (inside : actualIndex + easylabPacketSize ≤ actualPacket.length) :
    parseBody actualPacket actualIndex =
      match frameAt (actualPacket.drop actualIndex) with
      | some payload => some (actualIndex + easylabPacketSize, floatsOf payload)
      | none => some (actualIndex + 1, []) := by
  have inside : actualIndex + 10 ≤ actualPacket.length := inside
  have start := List.getElem?_eq_getElem (show actualIndex < actualPacket.length by omega)
  have trailer := List.getElem?_eq_getElem (show actualIndex + 9 < actualPacket.length by omega)
  have crc : crcLoop actualPacket (easylabPacketSize - 2) (actualIndex + 1) 0 =
      some (xorBytes ((actualPacket.drop (actualIndex + 1)).take 8)) :=
    crcLoop_eq actualPacket 8 (actualIndex + 1) 0 (by omega)
  have first := toSingle_eq actualPacket (actualIndex + 1) (by omega)
  have second := toSingle_eq actualPacket (actualIndex + 1 + sizeofFloat) (by
    change actualIndex + 1 + 4 + 4 ≤ _
    omega)
  have trailerAt : actualIndex + 1 + easylabPacketSize - 2 = actualIndex + 9 := rfl
  simp only [parseBody, Option.bind_eq_bind, start, crc, trailerAt, trailer, first, second,
    Option.bind_some, frameAt, List.getElem?_drop, List.drop_drop, Nat.add_zero, Option.some.injEq]
  by_cases begins : actualPacket[actualIndex] = 0xAA
  · by_cases right : actualPacket[actualIndex + 9] =
      xorBytes ((actualPacket.drop (actualIndex + 1)).take 8)
    · rw [if_neg (not_not.mpr begins), if_pos right, if_pos ⟨begins, right⟩]
      change some _ = some (actualIndex + 10, floatsOf _)
      rw [floatsOf_take, floatsOf, List.drop_drop]
      rfl
    · rw [if_neg (not_not.mpr begins), if_neg right, if_neg fun both => right both.2]
  · rw [if_pos begins, if_neg fun both => begins both.1]

/-- A pass that succeeds is followed by the rest of the loop. -/
theorem parseLoop_pass (actualPacket : List Byte) (actualIndex next : Nat)
    (newFloats floats : List Single)
    (long : ¬ actualPacket.length - actualIndex < easylabPacketSize)
    (passed : parseBody actualPacket actualIndex = some (next, floats)) :
    parseLoop actualPacket actualIndex newFloats =
      parseLoop actualPacket next (newFloats ++ floats) := by
  rw [parseLoop, if_neg long]
  split
  · next failed => rw [passed] at failed; cases failed
  · next other same =>
    rw [passed] at same
    cases same
    rfl

/-- The loop is the scan of the bytes from its index on: it stops where the kept
bytes begin. -/
theorem parseLoop_scans (actualPacket : List Byte) (actualIndex : Nat) (newFloats : List Single)
    (inside : actualIndex ≤ actualPacket.length) :
    ∃ last, last ≤ actualPacket.length ∧
      parseLoop actualPacket actualIndex newFloats = some (last, newFloats ++
        (scan easylabFormat (actualPacket.drop actualIndex)).1.flatMap floatsOf) ∧
      actualPacket.drop last = (scan easylabFormat (actualPacket.drop actualIndex)).2 := by
  have width : (actualPacket.drop actualIndex).length = actualPacket.length - actualIndex :=
    List.length_drop
  have size : easylabFormat.size = 10 := rfl
  have packetSize : easylabPacketSize = 10 := rfl
  induction actualIndex, newFloats using parseLoop.induct actualPacket with
  | case1 actualIndex newFloats short =>
    have few : (actualPacket.drop actualIndex).length < easylabFormat.size := by omega
    refine ⟨actualIndex, inside, ?_, ?_⟩
    · rw [parseLoop, if_pos short, scan_short easylabFormat _ few]
      simp
    · rw [scan_short easylabFormat _ few]
  | case2 actualIndex newFloats long failed =>
    rw [parseBody_eq actualPacket actualIndex (by omega)] at failed
    split at failed <;> cases failed
  | case3 actualIndex newFloats long next floats passed inductionHypothesis =>
    have many : easylabFormat.size ≤ (actualPacket.drop actualIndex).length := by omega
    have step := parseBody_eq actualPacket actualIndex (by omega)
    rw [passed] at step
    cases found : frameAt (actualPacket.drop actualIndex) with
    | none =>
      rw [found] at step
      obtain ⟨rfl, rfl⟩ := Prod.mk.inj (Option.some.inj step)
      have later := inductionHypothesis (by omega) List.length_drop
      rw [parseLoop_pass actualPacket actualIndex _ newFloats [] long passed,
        scan_none easylabFormat _ many found, List.drop_drop, List.append_nil]
      rw [List.append_nil] at later
      exact later
    | some payload =>
      rw [found] at step
      obtain ⟨rfl, rfl⟩ := Prod.mk.inj (Option.some.inj step)
      obtain ⟨last, bound, result, kept⟩ := inductionHypothesis (by omega) List.length_drop
      refine ⟨last, bound, ?_, ?_⟩
      · rw [parseLoop_pass actualPacket actualIndex _ newFloats _ long passed, result,
          scan_some easylabFormat _ payload many found, List.drop_drop, List.flatMap_cons,
          List.append_assoc]
        rfl
      · rw [kept, scan_some easylabFormat _ payload many found, List.drop_drop]
        rfl

/-- A call scans the kept bytes and the new ones, returns the floats of the frames
it finds and keeps what the scan keeps. -/
theorem parse_scans (parser : StreamParserEncoder) (newBytesRead : List Byte)
    (wellFormed : parser.WellFormed) :
    ∃ result, parseBytes parser newBytesRead = some result ∧
      result.newFloats =
        (scan easylabFormat (parser.remainder ++ newBytesRead)).1.flatMap floatsOf ∧
      result.parser.remainder = (scan easylabFormat (parser.remainder ++ newBytesRead)).2 ∧
      result.parser.WellFormed ∧ result.prevRemaining = parser.remainder ∧
      result.actualRemaining = result.parser.remainder := by
  obtain ⟨last, bound, found, rest⟩ :=
    parseLoop_scans (parser.remainder ++ newBytesRead) 0 [] (Nat.zero_le _)
  rw [List.drop_zero, List.nil_append] at found
  rw [List.drop_zero] at rest
  have joined := joinBytes_eq parser newBytesRead wellFormed
  generalize parser.remainder ++ newBytesRead = actualPacket at found rest bound joined ⊢
  have left : actualPacket.length - last = (scan easylabFormat actualPacket).2.length := by
    rw [← rest, List.length_drop]
  have few : actualPacket.length - last ≤ easylabPacketSize - 1 := by
    rw [left]
    exact Nat.le_sub_one_of_lt (scan_kept_lt easylabFormat actualPacket)
  have stored := keepBytes_eq parser actualPacket last wellFormed few bound
  have previous := arrayCopy_whole parser.remainingBytes parser.remainingLength (by
    have := wellFormed.cells
    have := wellFormed.length_le
    omega)
  let next : StreamParserEncoder :=
    { remainingLength := actualPacket.length - last
      remainingBytes := actualPacket.drop last ++
        parser.remainingBytes.drop (actualPacket.length - last) }
  have shown := arrayCopy_whole next.remainingBytes next.remainingLength (by
    simp only [next, List.length_append, List.length_drop]
    omega)
  have kept : next.remainder = (scan easylabFormat actualPacket).2 :=
    (List.take_left' List.length_drop).trans rest
  refine ⟨⟨_, parser.remainder, next.remainder, next⟩, ?_, rfl, kept, ⟨?_, few⟩, rfl, rfl⟩
  · simp only [parseBytes, Option.bind_eq_bind, previous, joined, found, stored, Option.bind_some]
    rw [shown]
    rfl
  · have cells := wellFormed.cells
    simp only [next, List.length_append, List.length_drop]
    omega

/-- The constructor makes a parser that keeps nothing. -/
theorem fresh_wellFormed : streamParserEncoder.WellFormed := ⟨by decide, by decide⟩

/-- Successive calls scan the chunks one after the other. -/
theorem parseChunks_feeds (parser : StreamParserEncoder) (chunks : List (List Byte))
    (wellFormed : parser.WellFormed) :
    ∃ last, parseChunks parser chunks =
        some ((feed easylabFormat parser.remainder chunks).1.flatMap floatsOf, last) ∧
      last.remainder = (feed easylabFormat parser.remainder chunks).2 := by
  induction chunks generalizing parser with
  | nil => exact ⟨parser, rfl, rfl⟩
  | cons chunk chunks inductionHypothesis =>
    obtain ⟨result, returned, floats, kept, wellFormed, -, -⟩ :=
      parse_scans parser chunk wellFormed
    obtain ⟨last, later, remainder⟩ := inductionHypothesis result.parser wellFormed
    rw [kept] at later remainder
    refine ⟨last, ?_, remainder⟩
    simp only [parseChunks, Option.bind_eq_bind, returned, Option.bind_some, later, floats, feed,
      List.flatMap_append]

/-- On a new object the chunks have the effect of the whole stream. What one call keeps
is the rest of the scan, and the next one scans on from it. -/
theorem parseChunks_scan (chunks : List (List Byte)) :
    ∃ last, parseChunks streamParserEncoder chunks =
        some ((scan easylabFormat chunks.flatten).1.flatMap floatsOf, last) ∧
      last.remainder = (scan easylabFormat chunks.flatten).2 := by
  have whole := feed_chunks easylabFormat [] chunks easylabFormat.size_pos
  obtain ⟨last, result, kept⟩ := parseChunks_feeds streamParserEncoder chunks fresh_wellFormed
  have nothing : streamParserEncoder.remainder = [] := rfl
  rw [nothing, whole, List.nil_append] at result kept
  exact ⟨last, result, kept⟩

/-- Eight payload bytes. -/
abbrev Payload := Fin 8 → Byte

/-- The ten bytes of a frame. -/
def frameBytes (payload : Payload) : List Byte :=
  0xAA :: (List.ofFn payload ++ [xorBytes (List.ofFn payload)])

/-- The two numbers of a payload, low byte first. -/
def payloadFloats (payload : Payload) : List Single :=
  [(payload 3 ++ payload 2) ++ (payload 1 ++ payload 0),
    (payload 7 ++ payload 6) ++ (payload 5 ++ payload 4)]

/-- Frames, each behind a gap, and a last gap. -/
def framedStream (parts : List (List Byte × Payload)) (tail : List Byte) : List Byte :=
  parts.flatMap (fun part => part.1 ++ frameBytes part.2) ++ tail

/-- A frame shows its payload. -/
theorem frameAt_frameBytes (payload : Payload) :
    frameAt (frameBytes payload) = some (List.ofFn payload) := by
  have taken : ((frameBytes payload).drop 1).take 8 = List.ofFn payload :=
    List.take_left' List.length_ofFn
  rw [frameAt, taken, if_pos]
  refine ⟨rfl, ?_⟩
  rw [frameBytes, List.getElem?_cons_succ, List.getElem?_append_right (by simp)]
  simp

/-- No frame begins with another byte than the start byte. -/
theorem frameAt_other (byte : Byte) (rest : List Byte) (other : byte ≠ 0xAA) :
    frameAt (byte :: rest) = none := by
  rw [frameAt, if_neg]
  rintro ⟨start, -⟩
  exact other (Option.some.inj start)

/-- All frames of a stream are found if their gaps contain no start byte: the scan comes
to each of them at its first byte, and goes on behind its last one. -/
theorem scan_framed (parts : List (List Byte × Payload)) (tail : List Byte)
    (gaps : ∀ part ∈ parts, 0xAA ∉ part.1) (last : 0xAA ∉ tail) :
    (scan easylabFormat (framedStream parts tail)).1 =
      parts.map fun part => List.ofFn part.2 := by
  have silent (gap : List Byte) (absent : 0xAA ∉ gap) :
      ∀ byte ∈ gap, ∀ rest, easylabFormat.decode (byte :: rest) = none :=
    fun byte member rest => frameAt_other byte rest fun same => absent (same ▸ member)
  induction parts with
  | nil =>
    have nothing := scan_gap easylabFormat tail [] (silent tail last)
    rw [List.append_nil, scan_short easylabFormat [] easylabFormat.size_pos] at nothing
    exact nothing
  | cons part parts inductionHypothesis =>
    have later := inductionHypothesis fun other member =>
      gaps other (List.mem_cons_of_mem _ member)
    have apart : framedStream (part :: parts) tail =
        part.1 ++ (frameBytes part.2 ++ framedStream parts tail) := by
      simp [framedStream]
    rw [apart, scan_gap easylabFormat part.1 _ (silent part.1 (gaps part List.mem_cons_self)),
      scan_frame easylabFormat _ _ _ _ (frameAt_frameBytes part.2), later, List.map_cons]
    simp [frameBytes, easylabFormat, easylabPacketSize, sizeofFloat]

/-- Decoding depends on the bytes only, not on the chunks they arrive in, and at most
nine bytes are kept; from frames between gaps without a start byte exactly the two
numbers of every frame are returned, in order. The payload of a frame may have start
bytes in it. What is kept behind a chunk is what the parser has not decided on yet, so
with the next chunk behind it the stream is as if it had not been cut. -/
theorem decoding_is_exact :
    (∀ chunks : List (List Byte), ∃ result last,
      parseBytes streamParserEncoder chunks.flatten = some result ∧
      parseChunks streamParserEncoder chunks = some (result.newFloats, last) ∧
      last.remainder = result.parser.remainder ∧ last.remainder.length ≤ 9) ∧
    (∀ (parts : List (List Byte × Payload)) (tail : List Byte) (chunks : List (List Byte)),
      (∀ part ∈ parts, 0xAA ∉ part.1) → 0xAA ∉ tail →
      chunks.flatten = framedStream parts tail →
      ∃ last, parseChunks streamParserEncoder chunks =
        some (parts.flatMap fun part => payloadFloats part.2, last)) := by
  constructor
  · intro chunks
    obtain ⟨last, returned, kept⟩ := parseChunks_scan chunks
    obtain ⟨result, whole, floats, remainder, -, -, -⟩ :=
      parse_scans streamParserEncoder chunks.flatten fresh_wellFormed
    have nothing : streamParserEncoder.remainder = [] := rfl
    rw [nothing, List.nil_append] at floats remainder
    refine ⟨result, last, whole, floats ▸ returned, kept.trans remainder.symm, ?_⟩
    rw [kept]
    exact Nat.le_of_lt_succ (scan_kept_lt easylabFormat chunks.flatten)
  · intro parts tail chunks gaps absent whole
    obtain ⟨last, returned, -⟩ := parseChunks_scan chunks
    refine ⟨last, ?_⟩
    rw [returned, whole, scan_framed parts tail gaps absent, List.flatMap_map]
    rfl

/-- A stream with a gap, a frame full of start bytes and another frame, cut inside
both frames. -/
theorem cut_frames_decoded :
    ∃ last, parseChunks streamParserEncoder
      [[1, 2, 0xAA, 0xAA, 0xAA], [0xAA, 0xAA, 0xAA, 0xAA, 0xAA, 0xAA, 0, 0xAA, 1, 0, 0], [],
        [0, 2, 0, 0, 0, 3, 7]] =
      some ([0xAAAAAAAA, 0xAAAAAAAA, 1, 2], last) :=
  decoding_is_exact.2 [([1, 2], fun _ => 0xAA),
    ([], fun position => if position = 0 then 1 else if position = 4 then 2 else 0)] [7]
    [[1, 2, 0xAA, 0xAA, 0xAA], [0xAA, 0xAA, 0xAA, 0xAA, 0xAA, 0xAA, 0, 0xAA, 1, 0, 0], [],
      [0, 2, 0, 0, 0, 3, 7]] (by decide) (by decide) (by decide)

end ScicosFlex.Gateway
