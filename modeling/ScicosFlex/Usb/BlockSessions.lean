import ScicosFlex.Usb.Channels

/-!
# Sessions of Scicos blocks

Every block of a diagram calls `flex_usbscicos_init` with its type, then the
blocks read and write their channels step by step, and `flex_usbscicos_close`
ends the session. A program can go through any number of sessions, and the
file-level and static variables outlive them.

Beside the state runs a ledger of what happened: which blocks the present session
registered, how many of their calls it has seen, and what the counters of the
code showed when it was opened. The ledger never influences the code. The
counters are natural numbers here; a session would have to make 2^31 calls to
leave the range of the code's `int`.
-/

namespace ScicosFlex.Usb.BlockSessions

open Library.Runs Packet Session Channels

/-- Calls of the blocks, and packets that the reader thread receives meanwhile. -/
inductive Call where
  | init (blockType : Nat) (outcomes : InitOutcomes) (threads : Bool)
  | close (claimed : Int) (closed : Bool)
  | write (ch : Fin 15) (val : Fin 4 → Byte) (written : Int)
  | read (ch : Fin 15)
  | deliver (packet : FlexUsbPacket) (behind : Memory)

/-- The variables after a call. -/
def after (scicos : Scicos) : Call → Scicos
  | .init blockType outcomes threads => (flexUsbscicosInit scicos blockType outcomes threads).2
  | .close claimed closed => (flexUsbscicosClose scicos claimed closed).2
  | .write ch val written => (flexUsbscicosWrite scicos ch val written).2
  | .read ch => ((flexUsbscicosRead scicos ch).map Prod.snd).getD scicos
  | .deliver packet behind => { scicos with usb := readerReceives scicos.usb packet behind }

/-- The blocks of one type in the present session: how many registered, how many
calls they have made, and whether a block registered behind such a call. `leftover`
and `earlier` are the static counter and the number of blocks at its opening. -/
structure Tally where
  blocks : Nat
  calls : Nat
  late : Bool
  leftover : Nat
  earlier : Nat

/-- No block has registered yet. -/
def Tally.fresh (leftover earlier : Nat) : Tally :=
  { blocks := 0, calls := 0, late := false, leftover := leftover, earlier := earlier }

/-- A block registers; it counts if it has the right type. -/
def Tally.register (tally : Tally) (counts : Bool) : Tally :=
  { tally with
    blocks := tally.blocks + counts.toNat
    late := tally.late || decide (0 < tally.calls) }

/-- A block that registers in time registers before the first call. -/
theorem Tally.register_punctual (tally : Tally) (counts : Bool)
    (punctual : (tally.register counts).late = false) : tally.late = false ∧ tally.calls = 0 := by
  simpa [Tally.register] using punctual

/-- A block that registers in time, in an open session or as the first of a new one, finds no
call made and the static counter where the session found it. -/
theorem Tally.register_fresh (tally : Tally) (opened counts : Bool) (counter earlier : Nat)
    (known : opened = true → tally.late = false → tally.calls = 0 → counter = tally.leftover)
    (punctual : ((if opened then tally else fresh counter earlier).register counts).late = false) :
    ((if opened then tally else fresh counter earlier).register counts).calls = 0 ∧
      counter = ((if opened then tally else fresh counter earlier).register counts).leftover := by
  obtain ⟨before, none⟩ := register_punctual _ _ punctual
  refine ⟨none, ?_⟩
  cases opened with
  | true => exact known rfl before none
  | false => rfl

/-- A block of the type is called. -/
def Tally.call (tally : Tally) : Tally := { tally with calls := tally.calls + 1 }

/-- The blocks of the session have all registered before the first call, and there is
one. A model whose blocks start in another order does not settle. -/
def Settled (tally : Tally) : Prop := tally.late = false ∧ 0 < tally.blocks

/-- What happened so far; `last` is the value last written to every channel. -/
structure Ledger where
  opened : Bool
  writing : Tally
  reading : Tally
  last : Fin 15 → Fin 4 → Byte

/-- The first block opens the session. -/
def Ledger.opening (ledger : Ledger) (scicos : Scicos) : Ledger :=
  if ledger.opened then ledger
  else
    { ledger with
      opened := true
      writing := Tally.fresh scicos.writeExpected scicos.writeBlockNumber
      reading := Tally.fresh scicos.readExpected scicos.readBlockNumber }

/-- The tallies of the session that a block registers in. -/
theorem Ledger.opening_tallies (ledger : Ledger) (scicos : Scicos) :
    (ledger.opening scicos).writing =
        (if ledger.opened then ledger.writing
        else Tally.fresh scicos.writeExpected scicos.writeBlockNumber) ∧
      (ledger.opening scicos).reading =
        (if ledger.opened then ledger.reading
        else Tally.fresh scicos.readExpected scicos.readBlockNumber) := by
  rw [opening]
  split
  · exact ⟨rfl, rfl⟩
  · exact ⟨rfl, rfl⟩

/-- The ledger after a call in the given state. -/
def note (scicos : Scicos) (ledger : Ledger) : Call → Ledger
  | .init blockType _ _ =>
    let opened := ledger.opening scicos
    { opened with
      writing := opened.writing.register (blockType = 0)
      reading := opened.reading.register (blockType = 1) }
  | .close _ _ => { ledger with opened := false }
  | .write ch val _ =>
    if ledger.opened then
      { ledger with
        writing := ledger.writing.call
        last := Function.update ledger.last ch val }
    else ledger
  | .read _ => if ledger.opened then { ledger with reading := ledger.reading.call } else ledger
  | .deliver _ _ => ledger

/-- Code and ledger side by side. -/
def step (both : Scicos × Ledger) (call : Call) : Scicos × Ledger :=
  (after both.1 call, note both.1 both.2 call)

/-- Program start: nothing is open, and all channels are zero. -/
def start : Scicos × Ledger :=
  (boot, { opened := false, writing := Tally.fresh 0 0, reading := Tally.fresh 0 0,
           last := fun _ _ => 0 })

/-- Opening and closing succeed. -/
def Admissible (both : Scicos × Ledger) : Call → Prop
  | .init blockType outcomes threads =>
    0 ≤ (flexUsbscicosInit both.1 blockType outcomes threads).1
  | .close claimed closed => 0 ≤ (flexUsbscicosClose both.1 claimed closed).1
  | _ => True

instance (both : Scicos × Ledger) : (call : Call) → Decidable (Admissible both call)
  | .init _ _ _ => inferInstanceAs (Decidable (_ ≤ _))
  | .close _ _ => inferInstanceAs (Decidable (_ ≤ _))
  | .write _ _ _ => inferInstanceAs (Decidable True)
  | .read _ => inferInstanceAs (Decidable True)
  | .deliver _ _ => inferInstanceAs (Decidable True)

/-- The ledger knows whether a session is open and how many blocks it has. Blocks
that write are counted from zero in every session. -/
structure Agrees (both : Scicos × Ledger) : Prop where
  opened : both.2.opened = both.1.isInitialized
  writers : both.1.writeBlockNumber = if both.2.opened then both.2.writing.blocks else 0
  readers : both.2.opened = true →
    both.1.readBlockNumber = both.2.reading.earlier + both.2.reading.blocks

/-- Counting a block moves the counter of its type only. -/
theorem countBlock_eq (scicos : Scicos) (blockType : Nat) : countBlock scicos blockType =
    { scicos with
      writeBlockNumber := scicos.writeBlockNumber + (decide (blockType = 0)).toNat
      readBlockNumber := scicos.readBlockNumber + (decide (blockType = 1)).toNat } := by
  by_cases write : blockType = 0
  · subst write
    rfl
  · by_cases read : blockType = 1
    · subst read
      rfl
    · simp [countBlock, write, read]

/-- A successful call registers its block in an open session. -/
theorem init_registers (scicos : Scicos) (blockType : Nat) (outcomes : InitOutcomes)
    (threads : Bool) (success : 0 ≤ (flexUsbscicosInit scicos blockType outcomes threads).1) :
    ∃ usb, (flexUsbscicosInit scicos blockType outcomes threads).2 =
      countBlock { scicos with usb := usb, isInitialized := true } blockType := by
  cases opened : scicos.isInitialized with
  | true =>
    refine ⟨scicos.usb, ?_⟩
    simp only [flexUsbscicosInit, opened, if_true]
    rw [← opened]
  | false =>
    simp only [flexUsbscicosInit, opened, Bool.false_eq_true, if_false] at success ⊢
    generalize flexUsbInit scicos.usb 60 60 0 outcomes = opening at success ⊢
    by_cases failed : opening.1 < 0
    · rw [if_pos failed] at success
      exact absurd success (by simpa using failed)
    · rw [if_neg failed] at success ⊢
      cases threads with
      | false => exact absurd success (by simp)
      | true => exact ⟨opening.2.2, rfl⟩

/-- A successful call ends the session, if one is open. -/
theorem close_ends (scicos : Scicos) (claimed : Int) (closed : Bool)
    (success : 0 ≤ (flexUsbscicosClose scicos claimed closed).1) :
    ∃ usb, (flexUsbscicosClose scicos claimed closed).2 =
      { scicos with
        usb := usb
        isInitialized := false
        writeBlockNumber := if scicos.isInitialized then 0 else scicos.writeBlockNumber } := by
  cases opened : scicos.isInitialized with
  | false =>
    refine ⟨scicos.usb, ?_⟩
    simp only [flexUsbscicosClose, opened, Bool.not_false, if_true, Bool.false_eq_true, if_false]
    rw [← opened]
  | true =>
    simp only [flexUsbscicosClose, opened, Bool.not_true, Bool.false_eq_true, if_false]
      at success ⊢
    generalize flexUsbClose scicos.usb claimed closed = ended at success ⊢
    by_cases failed : ended.1 < 0
    · rw [if_pos failed] at success
      exact absurd success (by simpa using failed)
    · rw [if_neg failed]
      exact ⟨ended.2.2, rfl⟩

/-- A read changes the snapshot, the ring and its own counter at most. -/
theorem read_keeps (scicos : Scicos) (ch : Fin 15) :
    ∃ usb rxBufferScicos readExpected, after scicos (.read ch) =
      { scicos with
        usb := usb
        rxBufferScicos := rxBufferScicos
        readExpected := readExpected } := by
  simp only [after, flexUsbscicosRead]
  repeat' split
  all_goals exact ⟨_, _, _, rfl⟩

/-- A write changes the outgoing payload and its own counter at most. -/
theorem write_keeps (scicos : Scicos) (ch : Fin 15) (val : Fin 4 → Byte) (written : Int) :
    ∃ txBufferScicos writeExpected, after scicos (.write ch val written) =
      { scicos with txBufferScicos := txBufferScicos, writeExpected := writeExpected } := by
  simp only [after, flexUsbscicosWrite]
  repeat' split
  all_goals exact ⟨_, _, rfl⟩

/-- Every successful call keeps the ledger right about the session: its blocks register
one by one, and closing ends it. -/
theorem agrees_step (both : Scicos × Ledger) (call : Call) (agrees : Agrees both)
    (admitted : Admissible both call) : Agrees (step both call) := by
  obtain ⟨scicos, ledger⟩ := both
  obtain ⟨opened, writers, readers⟩ := agrees
  cases call with
  | init blockType outcomes threads =>
    obtain ⟨usb, registered⟩ := init_registers scicos blockType outcomes threads admitted
    simp only [step, after, registered, countBlock_eq, note, Ledger.opening]
    cases already : ledger.opened with
    | true =>
      simp only [already, if_true] at writers readers
      refine ⟨by simp [already], ?_, fun _ => ?_⟩
      · simp [already, Tally.register, writers]
      · simp [Tally.register, readers, Nat.add_assoc]
    | false =>
      simp only [already, Bool.false_eq_true, if_false] at writers
      refine ⟨by simp, ?_, fun _ => ?_⟩
      · simp [Tally.register, Tally.fresh, writers]
      · simp [Tally.register, Tally.fresh]
  | close claimed closed =>
    obtain ⟨usb, ended⟩ := close_ends scicos claimed closed admitted
    simp only [step, after, ended, note]
    refine ⟨rfl, ?_, fun impossible => absurd impossible (by simp)⟩
    cases already : scicos.isInitialized with
    | true => simp
    | false =>
      have closedBefore : ledger.opened = false := opened.trans already
      simpa [closedBefore] using writers
  | write ch val written =>
    obtain ⟨tx, expected, next⟩ := write_keeps scicos ch val written
    simp only [step, next, note]
    split
    · exact ⟨opened, writers, readers⟩
    · exact ⟨opened, writers, readers⟩
  | read ch =>
    obtain ⟨usb, rx, expected, next⟩ := read_keeps scicos ch
    simp only [step, next, note]
    split
    · exact ⟨opened, writers, readers⟩
    · exact ⟨opened, writers, readers⟩
  | deliver packet behind => exact ⟨opened, writers, readers⟩

/-- Outside of a session a write changes nothing. -/
theorem closed_write (both : Scicos × Ledger) (ch : Fin 15) (val : Fin 4 → Byte) (written : Int)
    (agrees : Agrees both) (closed : ¬ both.2.opened = true) :
    step both (.write ch val written) = both := by
  have idle : both.1.isInitialized = false := by
    rw [← agrees.opened]
    simpa using closed
  simp [step, after, note, flexUsbscicosWrite, idle, closed]

/-- Nor does a read. -/
theorem closed_read (both : Scicos × Ledger) (ch : Fin 15) (agrees : Agrees both)
    (closed : ¬ both.2.opened = true) : step both (.read ch) = both := by
  have idle : both.1.isInitialized = false := by
    rw [← agrees.opened]
    simpa using closed
  simp [step, after, note, flexUsbscicosRead, idle, closed]

/-- At program start no session is open. -/
theorem start_agrees : Agrees start := ⟨rfl, rfl, fun impossible => absurd impossible (by decide)⟩

/-- The channel with a number below 15. -/
def channelAt (number : Nat) : Fin 15 := Fin.ofNat 15 number

/-- A block of the given type registers. -/
def registering (blockType : Nat) : Call := .init blockType smoothOpening true

end ScicosFlex.Usb.BlockSessions
