import ScicosFlex.Library.Rounds
import ScicosFlex.Usb.BlockSessions

/-!
# When the outgoing payload is sent

`flex_usbscicos_write` counts its calls in a static variable and sends the payload
when the counter reaches the number of write blocks. `flex_usbscicos_close` resets
that number and not the counter, so a session starts its rounds where the previous
one stopped. The last call of every round sends the values last written, and no
other call sends anything, if and only if every session starts with the counter at
zero or ends before the first call at which it matters (`sends_iff`).
-/

namespace ScicosFlex.Usb.WriteCadence

open Library.Runs Library.Rounds Library.CircularBuffer Packet Session Channels BlockSessions

/-- The payload that holds the given channels. -/
def image (last : Fin 15 → Fin 4 → Byte) : Memory := fun cell =>
  if inside : cell < 60 then last ⟨cell / 4, by omega⟩ ⟨cell % 4, by omega⟩ else 0

/-- A write sends one packet with the values last written if it ends a round, and
nothing otherwise. -/
def SendsInRounds (both : Scicos × Ledger) : Call → Prop
  | .write ch val written =>
    both.2.opened = true → Settled both.2.writing →
      (flexUsbscicosWrite both.1 ch val written).1 =
        if both.2.writing.blocks ∣ both.2.writing.calls + 1 then
          some (bytes (dataPacket (image (Function.update both.2.last ch val)) 60))
        else none
  | _ => True

/-- A write belongs to a session that started with the counter at zero, or comes
before the first call at which the counter goes wrong. -/
def InStep (both : Scicos × Ledger) : Call → Prop
  | .write _ _ _ =>
    both.2.opened = true → Settled both.2.writing → both.2.writing.leftover = 0 ∨
      both.2.writing.calls + 1 < bound both.2.writing.blocks both.2.writing.leftover
  | _ => True

/-- What the static counter shows after some calls of a session. -/
def expected (tally : Tally) : Nat :=
  if tally.leftover = 0 then tally.calls % tally.blocks else tally.leftover + tally.calls

/-- Between two calls: the payload holds the values last written, and in a session
whose blocks have registered the counter shows how many calls there were. -/
structure Counted (both : Scicos × Ledger) : Prop where
  agrees : Agrees both
  payload : ∀ cell, cell < 60 → both.1.txBufferScicos cell = image both.2.last cell
  counter : both.2.opened = true → both.2.writing.late = false →
    both.2.writing.calls = 0 ∨ 0 < both.2.writing.blocks →
    both.1.writeExpected = expected both.2.writing
  early : both.2.opened = true → Settled both.2.writing → both.2.writing.leftover = 0 ∨
    both.2.writing.calls < bound both.2.writing.blocks both.2.writing.leftover

/-- Only the first sixty bytes of the memory are sent. -/
theorem dataPacket_congr (buf other : Memory) (agree : ∀ cell, cell < 60 → buf cell = other cell) :
    dataPacket buf 60 = dataPacket other 60 := by
  have payload : (fun position : Fin 60 => if position.val < 60 then buf position.val else 0) =
      fun position : Fin 60 => if position.val < 60 then other position.val else 0 := by
    funext position
    rw [agree position.val position.isLt]
  rw [dataPacket, dataPacket, payload]

/-- Storing a value in the payload stores it in its channel. -/
theorem image_update (tx : Memory) (last : Fin 15 → Fin 4 → Byte) (ch : Fin 15)
    (val : Fin 4 → Byte) (payload : ∀ cell, cell < 60 → tx cell = image last cell)
    (cell : Nat) (below : cell < 60) :
    (if inside : 4 * ch.val ≤ cell ∧ cell < 4 * ch.val + 4 then val ⟨cell - 4 * ch.val, by omega⟩
      else tx cell) = image (Function.update last ch val) cell := by
  simp only [image, below, dif_pos]
  by_cases here : 4 * ch.val ≤ cell ∧ cell < 4 * ch.val + 4
  · have channel : (⟨cell / 4, by omega⟩ : Fin 15) = ch := Fin.ext (by show cell / 4 = _; omega)
    have offset : (⟨cell - 4 * ch.val, by omega⟩ : Fin 4) = ⟨cell % 4, by omega⟩ :=
      Fin.ext (by show cell - _ = cell % 4; omega)
    rw [dif_pos here, channel, Function.update_self, offset]
  · have other : (⟨cell / 4, by omega⟩ : Fin 15) ≠ ch := by
      intro same
      have := congrArg Fin.val same
      simp only at this
      omega
    rw [dif_neg here, Function.update_of_ne other, payload cell below, image, dif_pos below]

/-- A write in an open session. -/
theorem write_open (both : Scicos × Ledger) (ch : Fin 15) (val : Fin 4 → Byte) (written : Int)
    (counted : Counted both) (opened : both.2.opened = true) :
    let last := Function.update both.2.last ch val
    let turn := both.1.writeExpected + 1 = both.2.writing.blocks
    (flexUsbscicosWrite both.1 ch val written).1 =
        (if turn then some (bytes (dataPacket (image last) 60)) else none) ∧
      (after both.1 (.write ch val written)).writeExpected =
        (if turn then 0 else both.1.writeExpected + 1) ∧
      ∀ cell, cell < 60 → (after both.1 (.write ch val written)).txBufferScicos cell =
        image last cell := by
  have ready : both.1.isInitialized = true := counted.agrees.opened.symm.trans opened
  have blocks := counted.agrees.writers
  rw [if_pos opened] at blocks
  have stored := image_update both.1.txBufferScicos both.2.last ch val counted.payload
  simp only [after, flexUsbscicosWrite, ready, scicosUsbChannels, ch.isLt, and_self, if_true,
    blocks]
  by_cases turn : both.1.writeExpected + 1 = both.2.writing.blocks
  · rw [if_pos turn, if_pos turn, if_pos turn]
    refine ⟨?_, rfl, stored⟩
    simp only [flexUsbWrite, packetPayloadSize, Nat.lt_irrefl, if_false]
    rw [dataPacket_congr _ _ stored]
  · rw [if_neg turn, if_neg turn, if_neg turn]
    exact ⟨rfl, rfl, stored⟩

/-- Before the first call the counter shows what the previous session left. -/
theorem expected_first (tally : Tally) (none : tally.calls = 0) :
    expected tally = tally.leftover := by
  rw [expected, none, Nat.zero_mod, Nat.add_zero]
  split
  · next zero => exact zero.symm
  · rfl

/-- In step, the counter reaches the number of blocks at the end of a round. -/
theorem turn_iff (tally : Tally) (positive : 0 < tally.blocks)
    (inStep : tally.leftover = 0 ∨ tally.calls + 1 < bound tally.blocks tally.leftover) :
    expected tally + 1 = tally.blocks ↔ tally.blocks ∣ tally.calls + 1 := by
  by_cases zero : tally.leftover = 0
  · rw [expected, if_pos zero]
    exact restarts_iff tally.blocks tally.calls positive
  · obtain ⟨silent, inside⟩ := before_bound tally.blocks tally.leftover (tally.calls + 1)
      (Nat.succ_pos _) (inStep.resolve_left zero)
    rw [expected, if_neg zero]
    exact ⟨fun turn => absurd turn silent, fun divides => absurd divides inside⟩

/-- In step, the counter shows the next call afterwards. -/
theorem expected_call (tally : Tally) (positive : 0 < tally.blocks)
    (inStep : tally.leftover = 0 ∨ tally.calls + 1 < bound tally.blocks tally.leftover) :
    (if expected tally + 1 = tally.blocks then 0 else expected tally + 1) =
      expected tally.call := by
  have later : expected tally.call = if tally.leftover = 0 then
      (tally.calls + 1) % tally.blocks else tally.leftover + (tally.calls + 1) := rfl
  rw [later]
  by_cases zero : tally.leftover = 0
  · rw [if_pos zero, expected, if_pos zero]
    exact next_eq tally.blocks tally.calls positive
  · have silent := (before_bound tally.blocks tally.leftover (tally.calls + 1)
      (Nat.succ_pos _) (inStep.resolve_left zero)).1
    rw [if_neg zero, expected, if_neg zero, Nat.add_assoc, if_neg silent]

/-- A write in step sends in rounds and keeps the count. The packet goes out with the
last write of a round, and has the values of all of them. -/
theorem counted_write (both : Scicos × Ledger) (ch : Fin 15) (val : Fin 4 → Byte)
    (written : Int) (counted : Counted both) (inStep : InStep both (.write ch val written)) :
    Counted (step both (.write ch val written)) ∧
      SendsInRounds both (.write ch val written) := by
  have agrees := agrees_step both (.write ch val written) counted.agrees trivial
  by_cases opened : both.2.opened = true
  · obtain ⟨sent, counter, stored⟩ := write_open both ch val written counted opened
    have noted : (step both (.write ch val written)).2 =
        { both.2 with
          writing := both.2.writing.call
          last := Function.update both.2.last ch val } := by
      simp only [step, note, opened, if_true]
    refine ⟨⟨agrees, ?_, ?_, ?_⟩, ?_⟩
    · rw [noted]
      exact stored
    · rw [noted]
      intro _ punctual calls
      have positive := calls.resolve_left (Nat.succ_ne_zero _)
      have before := counted.counter opened punctual (Or.inr positive)
      rw [before] at counter
      exact counter.trans (expected_call _ positive (inStep opened ⟨punctual, positive⟩))
    · rw [noted]
      intro _ settled
      exact inStep opened settled
    · intro _ settled
      have before := counted.counter opened settled.1 (Or.inr settled.2)
      have turn := turn_iff both.2.writing settled.2 (inStep opened settled)
      rw [sent, before]
      simp only [turn]
  · rw [closed_write both ch val written counted.agrees opened]
    exact ⟨counted, fun impossible => absurd impossible opened⟩

/-- The ledger of an opened session: how many blocks it has, and what an earlier session
has left in the counter. -/
theorem counted_init (both : Scicos × Ledger) (blockType : Nat) (outcomes : InitOutcomes)
    (threads : Bool) (counted : Counted both)
    (admitted : Admissible both (.init blockType outcomes threads)) :
    Counted (step both (.init blockType outcomes threads)) := by
  have agrees := agrees_step both (.init blockType outcomes threads) counted.agrees admitted
  obtain ⟨usb, registered⟩ := init_registers both.1 blockType outcomes threads admitted
  have kept : (after both.1 (.init blockType outcomes threads)).writeExpected =
      both.1.writeExpected ∧ (after both.1 (.init blockType outcomes threads)).txBufferScicos =
      both.1.txBufferScicos := by
    simp only [after, registered, countBlock_eq, and_self]
  have fresh : (note both.1 both.2 (.init blockType outcomes threads)).writing.late = false →
      (note both.1 both.2 (.init blockType outcomes threads)).writing.calls = 0 ∧
        both.1.writeExpected =
          (note both.1 both.2 (.init blockType outcomes threads)).writing.leftover := by
    simp only [note, (Ledger.opening_tallies both.2 both.1).1]
    refine Tally.register_fresh _ _ _ _ _ fun already punctual none => ?_
    exact (counted.counter already punctual (Or.inl none)).trans (expected_first _ none)
  refine ⟨agrees, ?_, ?_, ?_⟩
  · intro cell below
    have last : (note both.1 both.2 (.init blockType outcomes threads)).last = both.2.last := by
      simp only [note, Ledger.opening]
      split <;> rfl
    change (after both.1 (.init blockType outcomes threads)).txBufferScicos cell =
      image (note both.1 both.2 (.init blockType outcomes threads)).last cell
    rw [kept.2, last]
    exact counted.payload cell below
  · intro _ punctual _
    obtain ⟨none, shown⟩ := fresh punctual
    exact (kept.1.trans shown).trans (expected_first _ none).symm
  · rintro - ⟨punctual, positive⟩
    obtain ⟨none, -⟩ := fresh punctual
    right
    simp only [step] at none positive ⊢
    rw [none]
    exact bound_pos _ _ positive

/-- Every other call leaves the count as it is. -/
theorem counted_other (both : Scicos × Ledger) (call : Call) (counted : Counted both)
    (admitted : Admissible both call)
    (kept : (after both.1 call).writeExpected = both.1.writeExpected ∧
      (after both.1 call).txBufferScicos = both.1.txBufferScicos)
    (noted : (note both.1 both.2 call).writing = both.2.writing ∧
      (note both.1 both.2 call).last = both.2.last ∧
      ((note both.1 both.2 call).opened = true → both.2.opened = true)) :
    Counted (step both call) := by
  obtain ⟨counter, payload⟩ := kept
  obtain ⟨writing, last, opened⟩ := noted
  refine ⟨agrees_step both call counted.agrees admitted, ?_, ?_, ?_⟩
  · simp only [step, payload, last]
    exact counted.payload
  · simp only [step, counter, writing]
    exact fun ready => counted.counter (opened ready)
  · simp only [step, writing]
    exact fun ready => counted.early (opened ready)

/-- A call in step keeps the count, and a write sends in rounds. The values of a round
are in the payload before the last write of it sends them. -/
theorem counted_step (both : Scicos × Ledger) (call : Call) (counted : Counted both)
    (admitted : Admissible both call) (inStep : InStep both call) :
    Counted (step both call) ∧ SendsInRounds both call := by
  cases call with
  | init blockType outcomes threads =>
    exact ⟨counted_init both blockType outcomes threads counted admitted, trivial⟩
  | close claimed closed =>
    refine ⟨counted_other both _ counted admitted ?_ ⟨rfl, rfl, fun impossible => ?_⟩, trivial⟩
    · obtain ⟨usb, ended⟩ := close_ends both.1 claimed closed admitted
      simp only [after, ended, and_self]
    · exact absurd impossible (by simp [note])
  | write ch val written => exact counted_write both ch val written counted inStep
  | read ch =>
    refine ⟨counted_other both _ counted admitted ?_ ?_, trivial⟩
    · obtain ⟨usb, rx, readExpected, next⟩ := read_keeps both.1 ch
      rw [next]
      exact ⟨rfl, rfl⟩
    · simp only [note]
      split
      · exact ⟨rfl, rfl, id⟩
      · exact ⟨rfl, rfl, id⟩
  | deliver packet behind =>
    exact ⟨counted_other both _ counted admitted ⟨rfl, rfl⟩ ⟨rfl, rfl, id⟩, trivial⟩

/-- A write that sends in rounds is in step. -/
theorem inStep_of_sends (both : Scicos × Ledger) (call : Call) (counted : Counted both)
    (sends : SendsInRounds both call) : InStep both call := by
  cases call with
  | write ch val written =>
    intro opened settled
    by_cases zero : both.2.writing.leftover = 0
    · exact Or.inl zero
    · right
      have early := (counted.early opened settled).resolve_left zero
      apply Nat.lt_of_le_of_ne early
      intro last
      obtain ⟨sent, -, -⟩ := write_open both ch val written counted opened
      have last : both.2.writing.calls + 1 =
          bound both.2.writing.blocks both.2.writing.leftover := last
      rw [sends opened settled, counted.counter opened settled.1 (Or.inr settled.2), expected,
        if_neg zero, Nat.add_assoc, last] at sent
      apply at_bound both.2.writing.blocks both.2.writing.leftover settled.2 zero
      split at sent <;> split at sent <;> simp_all
  | init blockType outcomes threads => trivial
  | close claimed closed => trivial
  | read ch => trivial
  | deliver packet behind => trivial

/-- Over any number of sessions, the writes that end a round and only they send,
each one packet with the values last written, if and only if every session whose
writes begin behind its registrations starts with the counter at zero or makes
fewer writes than would show the difference. -/
theorem sends_iff (calls : List Call) (legal : Throughout step Admissible start calls) :
    Throughout step SendsInRounds start calls ↔ Throughout step InStep start calls := by
  have initial : Counted start :=
    ⟨start_agrees, fun cell below => by simp [start, boot, image],
      fun opened => absurd opened (by decide), fun opened => absurd opened (by decide)⟩
  have both := guarded_iff step Admissible InStep Counted (fun _ => True) SendsInRounds
    counted_step (fun _ _ => trivial)
    (fun state call counted _ _ sends => inStep_of_sends state call counted sends)
    start calls initial legal
  constructor
  · intro sends
    exact both.mp ⟨fun _ _ _ => trivial, sends⟩
  · intro inStep
    exact (both.mpr inStep).2

/-- A write to channel 0. -/
def writing (value : Byte) : Call := .write (channelAt 0) (fun _ => value) 64

/-- Two sessions, the first with two write blocks and one round, the second with
one write block. -/
def wholeRounds : List Call :=
  [registering 0, registering 0, writing 1, writing 2, .close 0 true, registering 0, writing 3]

/-- These sessions send in rounds. -/
theorem whole_rounds_send : Throughout step SendsInRounds start wholeRounds := by
  apply (sends_iff wholeRounds ?_).mpr
  · simp only [wholeRounds, throughout_cons]
    exact ⟨trivial, trivial, fun _ _ => Or.inl rfl, fun _ _ => Or.inl rfl, trivial, trivial,
      fun _ _ => Or.inl rfl, throughout_nil _ _ _⟩
  · simp only [wholeRounds, throughout_cons]
    exact ⟨by decide, by decide, trivial, trivial, by decide, by decide, trivial,
      throughout_nil _ _ _⟩

/-- Not all sessions send in rounds: after half a round of two writers, a single
writer never reaches its number of blocks. -/
theorem half_round_silences :
    ¬ ∀ calls, Throughout step Admissible start calls →
      Throughout step SendsInRounds start calls := by
  intro always
  let calls : List Call :=
    [registering 0, registering 0, writing 1, .close 0 true, registering 0, writing 2]
  have legal : Throughout step Admissible start calls := by
    simp only [calls, throughout_cons]
    exact ⟨by decide, by decide, trivial, by decide, by decide, trivial, throughout_nil _ _ _⟩
  have sends := always calls legal
    [registering 0, registering 0, writing 1, .close 0 true, registering 0] (writing 2) [] rfl
  have sent := sends rfl ⟨rfl, by decide⟩
  have silent : (flexUsbscicosWrite (run step start
      [registering 0, registering 0, writing 1, .close 0 true, registering 0]).1 (channelAt 0)
      (fun _ => 2) 64).1.isNone = true := by decide
  rw [sent] at silent
  exact absurd silent (by decide)

end ScicosFlex.Usb.WriteCadence
