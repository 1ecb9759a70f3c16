/-!
# Scanning a stream for frames of a fixed size

A scanner looks at the head of a stream. If a frame begins there it hands the
frame out and continues behind it; if not, it drops one element and looks again.
It stops when fewer elements are left than a frame has, and keeps those.

The laws are the ones a receiver needs. A scan can be interrupted anywhere and
resumed with the kept elements in front of the new ones (`scan_append`), so the
division of a stream into chunks does not matter (`feed_chunks`). Frames between
elements at which no frame can begin are all found (`scan_gap`, `scan_frame`).
Only a stream in which frames follow each other without a gap yields as many
frames as its length allows (`scan_dense`).
-/

namespace ScicosFlex.Library.FrameScanner

universe u v

/-- Frames of a fixed size. `decode` reads the frame at the head of a stream, if
one begins there, and looks at no element behind it. -/
structure Format (α : Type u) (β : Type v) where
  size : Nat
  size_pos : 0 < size
  decode : List α → Option β
  decode_append : ∀ stream more, size ≤ stream.length → decode (stream ++ more) = decode stream

variable {α : Type u} {β : Type v} (format : Format α β)

/-- The frames of a stream and the elements kept at its end. -/
def scan (stream : List α) : List β × List α :=
  if _ : stream.length < format.size then ([], stream)
  else
    match format.decode stream with
    | some frame =>
      let rest := scan (stream.drop format.size)
      (frame :: rest.1, rest.2)
    | none => scan (stream.drop 1)
termination_by stream.length
decreasing_by
  all_goals
    have positive := format.size_pos
    rw [List.length_drop]
    omega

/-- Resume a scan: the kept elements stand in front of the new ones. -/
def feed (kept : List α) : List (List α) → List β × List α
  | [] => ([], kept)
  | chunk :: chunks =>
    let here := scan format (kept ++ chunk)
    let rest := feed here.2 chunks
    (here.1 ++ rest.1, rest.2)

/-- Too few elements for a frame are all kept. -/
theorem scan_short (stream : List α) (short : stream.length < format.size) :
    scan format stream = ([], stream) := by
  rw [scan, dif_pos short]

/-- A frame at the head is handed out. -/
theorem scan_some (stream : List α) (frame : β) (long : format.size ≤ stream.length)
    (found : format.decode stream = some frame) :
    scan format stream = (frame :: (scan format (stream.drop format.size)).1,
      (scan format (stream.drop format.size)).2) := by
  rw [scan, dif_neg (Nat.not_lt.mpr long), found]

/-- An element at which no frame begins is dropped. -/
theorem scan_none (stream : List α) (long : format.size ≤ stream.length)
    (nothing : format.decode stream = none) :
    scan format stream = scan format (stream.drop 1) := by
  rw [scan, dif_neg (Nat.not_lt.mpr long), nothing]

/-- Fewer elements are kept than a frame has. -/
theorem scan_kept_lt (stream : List α) : (scan format stream).2.length < format.size := by
  induction stream using scan.induct format with
  | case1 stream short => rw [scan_short format stream short]; exact short
  | case2 stream long frame found inductionHypothesis =>
    rw [scan_some format stream frame (Nat.not_lt.mp long) found]
    exact inductionHypothesis
  | case3 stream long nothing inductionHypothesis =>
    rw [scan_none format stream (Nat.not_lt.mp long) nothing]
    exact inductionHypothesis

/-- A scan can be interrupted anywhere: what it has left over is put before what comes
next. By induction on the length, since a frame may take many elements at once. -/
theorem scan_append (stream more : List α) : scan format (stream ++ more) =
    ((scan format stream).1 ++ (scan format ((scan format stream).2 ++ more)).1,
      (scan format ((scan format stream).2 ++ more)).2) := by
  induction stream using scan.induct format with
  | case1 stream short => rw [scan_short format stream short]; rfl
  | case2 stream long frame found inductionHypothesis =>
    have fits := Nat.not_lt.mp long
    have joined : format.decode (stream ++ more) = some frame :=
      (format.decode_append stream more fits).trans found
    have longer : format.size ≤ (stream ++ more).length := by
      rw [List.length_append]
      omega
    rw [scan_some format stream frame fits found, scan_some format _ frame longer joined,
      List.drop_append_of_le_length fits, inductionHypothesis]
    rfl
  | case3 stream long nothing inductionHypothesis =>
    have fits := Nat.not_lt.mp long
    have positive := format.size_pos
    have joined : format.decode (stream ++ more) = none :=
      (format.decode_append stream more fits).trans nothing
    have longer : format.size ≤ (stream ++ more).length := by
      rw [List.length_append]
      omega
    rw [scan_none format stream fits nothing, scan_none format _ longer joined,
      List.drop_append_of_le_length (by omega), inductionHypothesis]

/-- However a stream is divided into chunks, the frames and the kept elements are
those of one scan. -/
theorem feed_chunks (kept : List α) (chunks : List (List α))
    (short : kept.length < format.size) :
    feed format kept chunks = scan format (kept ++ chunks.flatten) := by
  induction chunks generalizing kept with
  | nil => rw [List.flatten_nil, List.append_nil, scan_short format kept short]; rfl
  | cons chunk chunks inductionHypothesis =>
    rw [feed, inductionHypothesis _ (scan_kept_lt format _), List.flatten_cons,
      ← List.append_assoc, scan_append format (kept ++ chunk)]

/-- Elements at which no frame begins add no frame. -/
theorem scan_gap (gap stream : List α)
    (silent : ∀ element ∈ gap, ∀ rest, format.decode (element :: rest) = none) :
    (scan format (gap ++ stream)).1 = (scan format stream).1 := by
  induction gap with
  | nil => rfl
  | cons element gap inductionHypothesis =>
    have later := inductionHypothesis fun other member =>
      silent other (List.mem_cons_of_mem _ member)
    by_cases short : (element :: gap ++ stream).length < format.size
    · have shorter : stream.length < format.size := by
        rw [List.length_append] at short
        omega
      rw [scan_short format _ short, scan_short format stream shorter]
    · rw [scan_none format _ (Nat.not_lt.mp short)]
      · exact later
      · exact silent element List.mem_cons_self _

/-- A frame in front of a stream is handed out first. -/
theorem scan_frame (bytes stream : List α) (frame : β) (exact : bytes.length = format.size)
    (found : format.decode bytes = some frame) :
    (scan format (bytes ++ stream)).1 = frame :: (scan format stream).1 := by
  have joined : format.decode (bytes ++ stream) = some frame :=
    (format.decode_append bytes stream (by omega)).trans found
  have long : format.size ≤ (bytes ++ stream).length := by
    rw [List.length_append]
    omega
  rw [scan_some format _ frame long joined, ← exact, List.drop_left]

/-- Every frame takes its own elements. -/
theorem scan_count (stream : List α) :
    (scan format stream).1.length * format.size ≤ stream.length := by
  induction stream using scan.induct format with
  | case1 stream short =>
    rw [scan_short format stream short]
    simp
  | case2 stream long frame found inductionHypothesis =>
    rw [scan_some format stream frame (Nat.not_lt.mp long) found, List.length_cons,
      Nat.succ_mul]
    rw [List.length_drop] at inductionHypothesis
    omega
  | case3 stream long nothing inductionHypothesis =>
    rw [scan_none format stream (Nat.not_lt.mp long) nothing]
    rw [List.length_drop] at inductionHypothesis
    omega

/-- Blocks of the frame size, one behind the other. -/
theorem blocks_length (blocks : List (List α)) (sizes : ∀ block ∈ blocks, block.length = format.size) :
    blocks.flatten.length = blocks.length * format.size := by
  induction blocks with
  | nil => simp
  | cons block blocks inductionHypothesis =>
    rw [List.flatten_cons, List.length_append, sizes block List.mem_cons_self,
      inductionHypothesis fun other member => sizes other (List.mem_cons_of_mem _ member),
      List.length_cons, Nat.succ_mul, Nat.add_comm]

/-- If blocks of the frame size yield as many frames as there are blocks, every
block is a frame. -/
theorem scan_dense (blocks : List (List α)) (sizes : ∀ block ∈ blocks, block.length = format.size)
    (all : (scan format blocks.flatten).1.length = blocks.length) :
    ∀ block ∈ blocks, format.decode block ≠ none := by
  induction blocks with
  | nil => intro block member; cases member
  | cons block blocks inductionHypothesis =>
    have width := sizes block List.mem_cons_self
    have positive := format.size_pos
    have widths : ∀ other ∈ blocks, other.length = format.size :=
      fun other member => sizes other (List.mem_cons_of_mem _ member)
    have total := blocks_length format blocks widths
    rw [List.flatten_cons] at all
    cases found : format.decode block with
    | none =>
      -- The scan goes on inside the block and then lacks the elements for as many frames.
      have joined : format.decode (block ++ blocks.flatten) = none :=
        (format.decode_append block blocks.flatten (by omega)).trans found
      rw [scan_none format _ (by rw [List.length_append]; omega) joined] at all
      have most := scan_count format ((block ++ blocks.flatten).drop 1)
      rw [all, List.length_cons, Nat.succ_mul, List.length_drop, List.length_append, total,
        width] at most
      omega
    | some frame =>
      rw [scan_frame format block blocks.flatten frame width found, List.length_cons,
        List.length_cons] at all
      have rest := inductionHypothesis widths (by omega)
      intro other member
      cases List.mem_cons.mp member with
      | inl same =>
        rw [same, found]
        exact Option.some_ne_none frame
      | inr later => exact rest other later

end ScicosFlex.Library.FrameScanner
