import ScicosFlex.Usb.BlockSessions

/-!
# When the snapshot is refreshed

`flex_usbscicos_read` takes a new snapshot from the receive ring when its static
counter is zero, and increases the counter modulo the number of read blocks.
`flex_usbscicos_close` resets neither, so the number grows from session to session:
the reads of a later session are counted against the blocks of all sessions
together, and without any read block the counter is reduced modulo zero.

No read divides by zero and every round of reads sees one snapshot, taken by its
first read, if and only if every reading session has read blocks behind it and, if
they are its own, is the first one with read blocks or stays within its first round
after the counter has come back to zero (`refreshes_iff`).
-/

namespace ScicosFlex.Usb.ReadCadence

open Library.Runs Library.CircularBuffer Packet RxRing Session Channels BlockSessions

/-- A read in an open session calls `flex_usb_read`. -/
def refreshes (scicos : Scicos) : Bool := decide (scicos.readExpected = 0)

/-- A read took its value from a snapshot, which is new if the read calls
`flex_usb_read`, and otherwise the one it found. -/
def FromSnapshot (scicos : Scicos) (ch : Fin 15) (value : List Byte) (next : Scicos) : Prop :=
  value = channel next.rxBufferScicos ch ∧
    if refreshes scicos then
      ∃ result, flexUsbRead scicos.usb.rx scicos.rxBufferScicos 60 flexUsbReadNoblock =
          some result ∧ next.rxBufferScicos = result.buf ∧ next.usb.rx = result.rx
    else next.rxBufferScicos = scicos.rxBufferScicos ∧ next.usb = scicos.usb

/-- A read in an open session returns without dividing by zero, and refreshes the
snapshot exactly at the first read of a round. No other call touches the snapshot, so
the reads of a round all see the same one. -/
def RefreshesInRounds (both : Scicos × Ledger) : Call → Prop
  | .read ch =>
    both.2.opened = true →
      (∃ value next, flexUsbscicosRead both.1 ch = some (value, next) ∧
        FromSnapshot both.1 ch value next) ∧
      (Settled both.2.reading →
        (refreshes both.1 = true ↔ both.2.reading.blocks ∣ both.2.reading.calls))
  | call => (after both.1 call).rxBufferScicos = both.1.rxBufferScicos

/-- A read block has registered in this session or an earlier one. If the session
has its own, the counter was zero at its opening, and no read block is older unless
this is the first round. -/
def InStep (both : Scicos × Ledger) : Call → Prop
  | .read _ =>
    both.2.opened = true → 0 < both.2.reading.earlier + both.2.reading.blocks ∧
      (Settled both.2.reading → both.2.reading.leftover = 0 ∧
        (both.2.reading.earlier = 0 ∨ both.2.reading.calls < both.2.reading.blocks))
  | _ => True

/-- Between two calls: the counter shows how many reads there were, modulo all read
blocks, and so far the session was in step. -/
structure Counted (both : Scicos × Ledger) : Prop where
  agrees : Agrees both
  first : both.2.opened = true → both.2.reading.late = false → both.2.reading.calls = 0 →
    both.1.readExpected = both.2.reading.leftover
  counter : both.2.opened = true → Settled both.2.reading → 0 < both.2.reading.calls →
    both.1.readExpected =
      both.2.reading.calls % (both.2.reading.earlier + both.2.reading.blocks)
  early : both.2.opened = true → Settled both.2.reading → 0 < both.2.reading.calls →
    both.2.reading.leftover = 0 ∧
      (both.2.reading.earlier = 0 ∨ both.2.reading.calls ≤ both.2.reading.blocks)

/-- A read in an open session with read blocks is defined and counted, whichever channel
it asks for. -/
theorem read_open (scicos : Scicos) (ch : Fin 15) (ready : scicos.isInitialized = true)
    (blocks : scicos.readBlockNumber ≠ 0) :
    ∃ value next, flexUsbscicosRead scicos ch = some (value, next) ∧
      FromSnapshot scicos ch value next ∧
      next.readExpected = (scicos.readExpected + 1) % scicos.readBlockNumber := by
  have valid : ch.val < scicosUsbChannels ∧ scicos.isInitialized = true := ⟨ch.isLt, ready⟩
  by_cases zero : scicos.readExpected = 0
  · obtain ⟨result, answered⟩ : ∃ result, flexUsbRead scicos.usb.rx scicos.rxBufferScicos 60
        flexUsbReadNoblock = some result := by
      simp only [flexUsbRead, flexUsbReadNoblock, flexUsbReadBlock]
      repeat' split
      all_goals simp_all
    let next : Scicos := { scicos with
      rxBufferScicos := result.buf
      usb := { scicos.usb with rx := result.rx }
      readExpected := (scicos.readExpected + 1) % scicos.readBlockNumber }
    refine ⟨channel result.buf ch, next, ?_, ⟨rfl, ?_⟩, rfl⟩
    · simp only [flexUsbscicosRead, valid, and_self, if_true, zero, answered, blocks, if_false,
        next]
    · rw [refreshes, decide_eq_true zero, if_pos rfl]
      exact ⟨result, answered, rfl, rfl⟩
  · let next : Scicos := { scicos with
      readExpected := (scicos.readExpected + 1) % scicos.readBlockNumber }
    refine ⟨channel scicos.rxBufferScicos ch, next, ?_, ⟨rfl, ?_⟩, rfl⟩
    · simp only [flexUsbscicosRead, valid, and_self, if_true, zero, blocks, if_false, next]
    · rw [refreshes, decide_eq_false zero, if_neg Bool.false_ne_true]
      exact ⟨rfl, rfl⟩

/-- Without any read block a read in an open session divides by zero. -/
theorem read_divides (scicos : Scicos) (ch : Fin 15) (ready : scicos.isInitialized = true)
    (none : scicos.readBlockNumber = 0) : flexUsbscicosRead scicos ch = Option.none := by
  have valid : ch.val < scicosUsbChannels ∧ scicos.isInitialized = true := ⟨ch.isLt, ready⟩
  simp only [flexUsbscicosRead, valid, and_self, if_true, none]

/-- In step, the counter is zero at the first read of every round. -/
theorem refreshes_in_step (both : Scicos × Ledger) (counted : Counted both)
    (opened : both.2.opened = true) (settled : Settled both.2.reading)
    (zero : both.2.reading.leftover = 0)
    (own : both.2.reading.earlier = 0 ∨ both.2.reading.calls < both.2.reading.blocks) :
    refreshes both.1 = true ↔ both.2.reading.blocks ∣ both.2.reading.calls := by
  rw [refreshes, decide_eq_true_iff, Nat.dvd_iff_mod_eq_zero]
  by_cases none : both.2.reading.calls = 0
  · rw [counted.first opened settled.1 none, zero, none, Nat.zero_mod]
  · rw [counted.counter opened settled (Nat.pos_of_ne_zero none)]
    cases own with
    | inl alone => rw [alone, Nat.zero_add]
    | inr few => rw [Nat.mod_eq_of_lt few, Nat.mod_eq_of_lt (by omega)]

/-- A read in step refreshes in rounds and keeps the count. Where a session has read
blocks of an earlier one, a round is as long as all of them. -/
theorem counted_read (both : Scicos × Ledger) (ch : Fin 15) (counted : Counted both)
    (inStep : InStep both (.read ch)) :
    Counted (step both (.read ch)) ∧ RefreshesInRounds both (.read ch) := by
  have agrees := agrees_step both (.read ch) counted.agrees trivial
  by_cases opened : both.2.opened = true
  · obtain ⟨some, own⟩ := inStep opened
    have ready : both.1.isInitialized = true := counted.agrees.opened.symm.trans opened
    have blocks := counted.agrees.readers opened
    obtain ⟨value, next, read, snapshot, shown⟩ := read_open both.1 ch ready (by omega)
    have moved : (step both (.read ch)).1.readExpected =
        (both.1.readExpected + 1) % (both.2.reading.earlier + both.2.reading.blocks) := by
      simp only [step, after, read, Option.map_some, Option.getD_some, shown, blocks]
    have noted : (step both (.read ch)).2 = { both.2 with reading := both.2.reading.call } := by
      simp only [step, note, opened, if_true]
    refine ⟨⟨agrees, ?_, ?_, ?_⟩, fun _ => ⟨⟨value, next, read, snapshot⟩, fun settled => ?_⟩⟩
    · rw [noted]
      exact fun _ _ none => absurd none (Nat.succ_ne_zero _)
    · rw [noted, moved]
      intro _ settled _
      obtain ⟨zero, -⟩ := own settled
      have before : both.1.readExpected = both.2.reading.calls %
          (both.2.reading.earlier + both.2.reading.blocks) := by
        by_cases none : both.2.reading.calls = 0
        · rw [counted.first opened settled.1 none, zero, none, Nat.zero_mod]
        · exact counted.counter opened settled (Nat.pos_of_ne_zero none)
      rw [before, Nat.mod_add_mod]
      rfl
    · rw [noted]
      intro _ settled _
      exact own settled
    · exact refreshes_in_step both counted opened settled (own settled).1 (own settled).2
  · rw [closed_read both ch counted.agrees opened]
    exact ⟨counted, fun impossible => absurd impossible opened⟩

/-- The ledger of an opened session. -/
theorem counted_init (both : Scicos × Ledger) (blockType : Nat) (outcomes : InitOutcomes)
    (threads : Bool) (counted : Counted both)
    (admitted : Admissible both (.init blockType outcomes threads)) :
    Counted (step both (.init blockType outcomes threads)) := by
  have agrees := agrees_step both (.init blockType outcomes threads) counted.agrees admitted
  obtain ⟨usb, registered⟩ := init_registers both.1 blockType outcomes threads admitted
  have kept : (after both.1 (.init blockType outcomes threads)).readExpected =
      both.1.readExpected := by
    simp only [after, registered, countBlock_eq]
  have fresh : (note both.1 both.2 (.init blockType outcomes threads)).reading.late = false →
      (note both.1 both.2 (.init blockType outcomes threads)).reading.calls = 0 ∧
        both.1.readExpected =
          (note both.1 both.2 (.init blockType outcomes threads)).reading.leftover := by
    simp only [note, (Ledger.opening_tallies both.2 both.1).2]
    exact Tally.register_fresh _ _ _ _ _ counted.first
  refine ⟨agrees, ?_, ?_, ?_⟩
  · intro _ punctual _
    exact kept.trans (fresh punctual).2
  · rintro - ⟨punctual, -⟩ called
    exact absurd (fresh punctual).1 (Nat.pos_iff_ne_zero.mp called)
  · rintro - ⟨punctual, -⟩ called
    exact absurd (fresh punctual).1 (Nat.pos_iff_ne_zero.mp called)

/-- Every other call leaves the count as it is. -/
theorem counted_other (both : Scicos × Ledger) (call : Call) (counted : Counted both)
    (admitted : Admissible both call)
    (counter : (after both.1 call).readExpected = both.1.readExpected)
    (reading : (note both.1 both.2 call).reading = both.2.reading)
    (opened : (note both.1 both.2 call).opened = true → both.2.opened = true) :
    Counted (step both call) := by
  refine ⟨agrees_step both call counted.agrees admitted, ?_, ?_, ?_⟩
  · simp only [step, counter, reading]
    exact fun ready => counted.first (opened ready)
  · simp only [step, counter, reading]
    exact fun ready => counted.counter (opened ready)
  · simp only [step, reading]
    exact fun ready => counted.early (opened ready)

/-- A call in step keeps the count, and a read refreshes in rounds. The counter starts
again with each round, so it shows the number of reads modulo all read blocks. -/
theorem counted_step (both : Scicos × Ledger) (call : Call) (counted : Counted both)
    (admitted : Admissible both call) (inStep : InStep both call) :
    Counted (step both call) ∧ RefreshesInRounds both call := by
  cases call with
  | init blockType outcomes threads =>
    refine ⟨counted_init both blockType outcomes threads counted admitted, ?_⟩
    obtain ⟨usb, registered⟩ := init_registers both.1 blockType outcomes threads admitted
    simp only [RefreshesInRounds, after, registered, countBlock_eq]
  | close claimed closed =>
    obtain ⟨usb, ended⟩ := close_ends both.1 claimed closed admitted
    refine ⟨counted_other both _ counted admitted ?_ rfl (fun impossible => ?_), ?_⟩
    · simp only [after, ended]
    · exact absurd impossible (by simp [note])
    · simp only [RefreshesInRounds, after, ended]
  | write ch val written =>
    obtain ⟨tx, writeExpected, next⟩ := write_keeps both.1 ch val written
    refine ⟨counted_other both _ counted admitted ?_ ?_ ?_, ?_⟩
    · rw [next]
    · simp only [note]
      split <;> rfl
    · simp only [note]
      split
      · exact id
      · exact id
    · simp only [RefreshesInRounds, next]
  | read ch => exact counted_read both ch counted inStep
  | deliver packet behind => exact ⟨counted_other both _ counted admitted rfl rfl id, rfl⟩

/-- A read that refreshes in rounds is in step. Otherwise the counter would be zero in
the middle of a round, or not at its start, and the snapshot would be another one. -/
theorem inStep_of_refreshes (both : Scicos × Ledger) (call : Call) (counted : Counted both)
    (inRounds : RefreshesInRounds both call) : InStep both call := by
  cases call with
  | read ch =>
    intro opened
    obtain ⟨⟨value, next, read, -⟩, rounds⟩ := inRounds opened
    have ready : both.1.isInitialized = true := counted.agrees.opened.symm.trans opened
    constructor
    · rw [← counted.agrees.readers opened]
      apply Nat.pos_of_ne_zero
      intro none
      rw [read_divides both.1 ch ready none] at read
      cases read
    · intro settled
      have turn := rounds settled
      rw [refreshes, decide_eq_true_iff] at turn
      by_cases first : both.2.reading.calls = 0
      · have zero := turn.mpr (first ▸ Nat.dvd_zero _)
        rw [counted.first opened settled.1 first] at zero
        exact ⟨zero, Or.inr (first ▸ settled.2)⟩
      · have called := Nat.pos_of_ne_zero first
        obtain ⟨zero, own⟩ := counted.early opened settled called
        refine ⟨zero, ?_⟩
        by_cases alone : both.2.reading.earlier = 0
        · exact Or.inl alone
        · right
          apply Nat.lt_of_le_of_ne (own.resolve_left alone)
          intro last
          -- A round has ended, but older blocks keep the counter from restarting.
          have restarted := turn.mpr (last ▸ Nat.dvd_refl _)
          have below : both.2.reading.calls <
              both.2.reading.earlier + both.2.reading.blocks := by omega
          rw [counted.counter opened settled called, Nat.mod_eq_of_lt below] at restarted
          exact first restarted
  | init blockType outcomes threads => trivial
  | close claimed closed => trivial
  | write ch val written => trivial
  | deliver packet behind => trivial

/-- Over any number of sessions, no read divides by zero and every round of reads
sees one snapshot, refreshed by its first read, if and only if every read in an open
session has read blocks behind it and, if the session has its own, the counter was
zero at its opening and the read is in the session's first round unless all read
blocks are its own. -/
theorem refreshes_iff (calls : List Call) (legal : Throughout step Admissible start calls) :
    Throughout step RefreshesInRounds start calls ↔ Throughout step InStep start calls := by
  have initial : Counted start :=
    ⟨start_agrees, fun opened => absurd opened (by decide),
      fun opened => absurd opened (by decide), fun opened => absurd opened (by decide)⟩
  have both := guarded_iff step Admissible InStep Counted (fun _ => True) RefreshesInRounds
    counted_step (fun _ _ => trivial)
    (fun state call counted _ _ inRounds => inStep_of_refreshes state call counted inRounds)
    start calls initial legal
  constructor
  · intro inRounds
    exact both.mp ⟨fun _ _ _ => trivial, inRounds⟩
  · intro inStep
    exact (both.mpr inStep).2

/-- A read of the channel with a number. -/
def reading (number : Nat) : Call := .read (channelAt number)

/-- Two sessions, the first with two read blocks and one round, the second with one
read block and one read. -/
def twoSessions : List Call :=
  [registering 1, registering 1, reading 0, reading 1, .close 0 true, registering 1, reading 0]

/-- These sessions refresh in rounds. -/
theorem two_sessions_refresh : Throughout step RefreshesInRounds start twoSessions := by
  apply (refreshes_iff twoSessions ?_).mpr
  · simp only [twoSessions, throughout_cons]
    exact ⟨trivial, trivial, fun _ => ⟨by decide, fun _ => ⟨rfl, by decide⟩⟩,
      fun _ => ⟨by decide, fun _ => ⟨rfl, by decide⟩⟩, trivial, trivial,
      fun _ => ⟨by decide, fun _ => ⟨rfl, by decide⟩⟩, throughout_nil _ _ _⟩
  · simp only [twoSessions, throughout_cons]
    exact ⟨by decide, by decide, trivial, trivial, by decide, by decide, trivial,
      throughout_nil _ _ _⟩

/-- Not all sessions refresh in rounds: with one read block in each of two sessions
the second read of the second session does not refresh. -/
theorem second_session_keeps_snapshot :
    ¬ ∀ calls, Throughout step Admissible start calls →
      Throughout step RefreshesInRounds start calls := by
  intro always
  let calls : List Call :=
    [registering 1, reading 0, .close 0 true, registering 1, reading 0, reading 0]
  have legal : Throughout step Admissible start calls := by
    simp only [calls, throughout_cons]
    exact ⟨by decide, trivial, by decide, by decide, trivial, trivial, throughout_nil _ _ _⟩
  have inRounds := always calls legal
    [registering 1, reading 0, .close 0 true, registering 1, reading 0] (reading 0) [] rfl
  have refreshed := ((inRounds rfl).2 ⟨rfl, by decide⟩).mpr (by decide)
  exact absurd refreshed (by decide)

end ScicosFlex.Usb.ReadCadence
