import Mathlib.Data.List.Nodup
import ScicosFlex.Smcube.Block

/-!
# SMCube blocks with data of their own

What a diagram with several SMCube blocks is meant to be: every block has an entry of
its own, which its initialization makes and only its own calls change. The blocks of
`smcube_block.c` share an array, pointers into it and a flag.

Through any number of sessions both answer alike (`blocks_keep_apart`). The argument
carries `Apart` along every session: the array holds the blocks' own entries in the
order of their initializations, and every running block's work area its position.
-/

namespace ScicosFlex.Smcube

open FlexSim Library.Sessions

/-- Entries of the blocks of one session, the number of blocks started in it, and the
output events that the last completed update of each block has brought. -/
structure Private where
  entries : Nat → Option BlockData
  count : Nat
  lastCompleted : Nat → BitVec 32

/-- At the beginning of a session no block has an entry. -/
def nothing : Private :=
  { entries := fun _ => none, count := 0, lastCompleted := fun _ => 0 }

/-- An update of a block's own entry. -/
def ownUpdate (data : BlockData) (exchange : Exchange) : BlockData × Update :=
  if data.exists_ = false then (data, { sent := [], outputs := none, completed := none })
  else
    let (changed, update) := talk data exchange
    ({ changed with outputEvents := update.completed.getD changed.outputEvents }, update)

/-- What a call of a block does to its own entry. -/
def Private.call (own : Private) (block : Nat) (data : BlockData) : Request → Private × Reply
  | .update exchange =>
    let (data, update) := ownUpdate data exchange
    ({ own with
        entries := Function.update own.entries block (some data)
        lastCompleted := Function.update own.lastCompleted block
          (update.completed.getD (own.lastCompleted block)) }, .updated update)
  | .events nevout => (own, .delivered (activated (own.lastCompleted block) nevout))

/-- What the calls mean. The number of blocks started before only serves for the name
of the block's channel. -/
def Private.perform (own : Private) : Call → Private × Reply
  | .init block parameters =>
    ({ entries := Function.update own.entries block
        (some (startEngine own.count parameters.1 parameters.2 initializeBlockData))
       count := own.count + 1
       lastCompleted := Function.update own.lastCompleted block 0 }, .finished)
  | .call block request =>
    match own.entries block with
    | none => (own, .failed)
    | some data => own.call block data request
  | .ending block =>
    match own.entries block with
    | none => (own, .failed)
    | some data =>
      ({ own with
          entries := Function.update own.entries block
            (some { data with input := dmInit, output := dmInit }) }, .finished)

/-- What a call leaves. -/
def Private.step (own : Private) (call : Call) : Private := (own.perform call).1

/-- The private data behind the calls of a session. -/
def private_ (done : List Call) : Private := Library.Runs.run Private.step nothing done

/-- The index in a block's work area selects the block's own entry, which is what the
block would have if it were alone. -/
def Selects (sim : Globals) (own : Private) (block : Nat) : Prop :=
  ∃ blockIndex place data, sim.work block = some blockIndex ∧
    sim.blocksData.atPtr blockIndex = some place ∧ sim.blocksData.ptr place = data ∧
    own.entries block = some data

/-- The array holds the entries of the blocks started in this session, in order, and no other. -/
def HoldsSession (sim : Globals) (done : List Call) : Prop :=
  sim.blocksData.elements.map some = (started done).map (private_ done).entries

/-- The next initialization finds an empty array, or empties it first. -/
def Idle (sim : Globals) : Prop := sim.eraseBlocks = true ∨ sim.blocksData.items = 0

/-- What the blocks' sharing comes to: the array, its count, its erase flag and the
indices in the blocks' work areas, all told from the calls of the session and each
block's own data. -/
structure Apart (sim : Globals) (done : List Call) : Prop where
  once : (started done).Nodup
  count : (private_ done).count = (started done).length
  idle : started done = [] → Idle sim
  holds : started done ≠ [] → HoldsSession sim done
  flag : started done ≠ [] → (sim.eraseBlocks = true ↔ ended done ≠ [])
  work : ∀ block ∈ started done, block ∉ ended done →
    sim.work block = some ((started done).idxOf block : Int)
  completed : ∀ block data, (private_ done).entries block = some data →
    data.outputEvents = (private_ done).lastCompleted block

/-- One more call of a session. -/
theorem private_note (done : List Call) (call : Call) :
    private_ (note done call) = (private_ done).step call := by
  rw [private_, note, Library.Runs.run_append]
  rfl

/-- Exchanging messages leaves the output events alone. -/
theorem talk_outputEvents (data : BlockData) (exchange : Exchange) :
    (talk data exchange).1.outputEvents = data.outputEvents := by
  simp only [talk]
  repeat' split
  all_goals rfl

/-- Starting the engine leaves the output events alone. -/
theorem startEngine_outputEvents (blockIndex : Nat) (block : ScicosBlock) (startup : Startup)
    (data : BlockData) :
    (startEngine blockIndex block startup data).outputEvents = data.outputEvents := by
  simp only [startEngine]
  repeat' split
  all_goals rfl

/-- An update leaves the events it has completed with, or those from before. -/
theorem ownUpdate_outputEvents (data : BlockData) (exchange : Exchange) :
    (ownUpdate data exchange).1.outputEvents =
      (ownUpdate data exchange).2.completed.getD data.outputEvents := by
  rw [ownUpdate]
  split
  · rfl
  · simp only [talk_outputEvents]

/-- A running block's index is the position of its entry. -/
theorem selected (sim : Globals) (done : List Call) (apart : Apart sim done) (block : Nat)
    (running : block ∈ started done) (open_ : block ∉ ended done) :
    sim.work block = some ((started done).idxOf block : Int) ∧
      sim.blocksData.atPtr ((started done).idxOf block : Int) =
        some ((started done).idxOf block) ∧
      (private_ done).entries block =
        some (sim.blocksData.ptr ((started done).idxOf block)) := by
  have holds := apart.holds (List.ne_nil_of_mem running)
  have position := List.idxOf_lt_length_iff.mpr running
  have size : sim.blocksData.items = (started done).length := by
    simpa using congrArg List.length holds
  refine ⟨apart.work block running open_, atPtr_inside _ _ (size ▸ position), ?_⟩
  have entry := congrArg (·[(started done).idxOf block]?) holds
  simp only [List.getElem?_map] at entry
  rw [List.getElem?_eq_getElem position, List.getElem_idxOf,
    List.getElem?_eq_getElem (by rw [elements_length, size]; exact position)] at entry
  simp only [Option.map_some, Option.some.injEq] at entry
  rw [← entry, elements_getElem]

/-- A write to a running block's entry is a change of the block's own data. -/
theorem holds_put (sim : Globals) (done : List Call) (apart : Apart sim done) (block : Nat)
    (running : block ∈ started done) (data : BlockData) :
    (sim.blocksData.put ((started done).idxOf block) data).elements.map some =
      (started done).map (Function.update (private_ done).entries block (some data)) := by
  have holds := apart.holds (List.ne_nil_of_mem running)
  rw [elements_put, List.map_set, holds, apart.once.map_update, if_pos running]

/-- A session begins apart in every idle state. -/
theorem apart_nil (sim : Globals) (idle : Idle sim) : Apart sim [] where
  once := List.nodup_nil
  count := rfl
  idle := fun _ => idle
  holds := fun some_ => absurd rfl some_
  flag := fun some_ => absurd rfl some_
  work := fun block running => absurd running List.not_mem_nil
  completed := fun block data entry => by cases entry

/-- The array that an initialization pushes to. -/
def cleared (sim : Globals) : Container BlockData :=
  if sim.eraseBlocks then sim.blocksData.erase else sim.blocksData

/-- An initialization adds the block's own entry behind the others. -/
theorem init_eq (sim : Globals) (block : Nat) (parameters : ScicosBlock × Startup) :
    smcubeBlock sim (.init block parameters) =
      ({ blocksData := (cleared sim).pushBack
           (startEngine (cleared sim).items parameters.1 parameters.2 initializeBlockData)
         current := some (cleared sim).items
         eraseBlocks := false
         work := Function.update sim.work block (some ((cleared sim).items : Int)) },
        .finished) := by
  have found : ((cleared sim).pushBack initializeBlockData).atPtr ((cleared sim).items : Int) =
      some (cleared sim).items := atPtr_inside _ _ (Nat.lt_succ_self _)
  have new : ((cleared sim).pushBack initializeBlockData).ptr (cleared sim).items =
      initializeBlockData := Function.update_self _ _ _
  rw [cleared] at found new
  simp only [smcubeBlock, initBlock, found, new, put_pushBack, cleared]

/-- That array holds the entries of the session. -/
theorem holds_cleared (sim : Globals) (done : List Call) (apart : Apart sim done)
    (open_ : ended done = []) :
    (cleared sim).elements.map some = (started done).map (private_ done).entries := by
  rw [cleared]
  by_cases first : started done = []
  · rw [first]
    cases apart.idle first with
    | inl erase => rw [if_pos erase, elements_erase, List.map_nil, List.map_nil]
    | inr empty =>
      have none_ : sim.blocksData.elements = [] := by
        rw [← List.length_eq_zero_iff, elements_length, empty]
      split
      · rw [elements_erase, List.map_nil, List.map_nil]
      · rw [none_, List.map_nil, List.map_nil]
  · have kept : ¬ sim.eraseBlocks = true := by
      rw [apart.flag first]
      exact not_not.mpr open_
    rw [if_neg kept]
    exact apart.holds first

/-- An initialization keeps the blocks apart. The first one of a session empties the
array of the session before, and the others add to it. -/
theorem apart_init (sim : Globals) (done : List Call) (block : Nat)
    (parameters : ScicosBlock × Startup) (apart : Apart sim done)
    (fresh : block ∉ started done) (open_ : ended done = []) :
    Apart (step sim (.init block parameters)) (note done (.init block parameters)) := by
  have array := holds_cleared sim done apart open_
  have size : (cleared sim).items = (started done).length := by
    simpa using congrArg List.length array
  have before : started (note done (.init block parameters)) = started done ++ [block] :=
    started_append _ _
  have entries : (private_ (note done (.init block parameters))).entries =
      Function.update (private_ done).entries block
        (some (startEngine (cleared sim).items parameters.1 parameters.2
          initializeBlockData)) := by
    rw [private_note, size, ← apart.count]
    rfl
  have last : (private_ (note done (.init block parameters))).lastCompleted =
      Function.update (private_ done).lastCompleted block 0 := by
    rw [private_note]
    rfl
  rw [step, init_eq]
  refine ⟨?_, ?_, ?_, ?_, ?_, ?_, ?_⟩
  · rw [before]
    exact List.nodup_append_comm.mp (List.nodup_cons.mpr ⟨fresh, apart.once⟩)
  · rw [private_note, before, List.length_append, ← apart.count]
    rfl
  · intro none_
    rw [before] at none_
    simp at none_
  · intro _
    rw [HoldsSession, entries, before, elements_pushBack, List.map_append, List.map_append, array,
      apart.once.map_update, if_neg fresh, List.map_singleton, List.map_singleton,
      Function.update_self]
  · intro _
    rw [note, ended_append, open_]
    exact ⟨fun flag => absurd flag Bool.false_ne_true, fun some_ => absurd rfl some_⟩
  · intro later running _
    rw [before, List.mem_append, List.mem_singleton] at running
    change Function.update sim.work block _ later = _
    rw [before]
    by_cases same : later = block
    · subst same
      rw [Function.update_self, List.idxOf_append_of_notMem fresh, size, List.idxOf_cons_self]
      rfl
    · have earlier : later ∈ started done := running.resolve_right same
      rw [Function.update_of_ne same, List.idxOf_append_of_mem earlier]
      exact apart.work later earlier (by rw [open_]; exact List.not_mem_nil)
  · intro later data entry
    rw [entries] at entry
    rw [last]
    by_cases same : later = block
    · subst same
      rw [Function.update_self, Option.some.injEq] at entry
      rw [Function.update_self, ← entry, startEngine_outputEvents]
      rfl
    · rw [Function.update_of_ne same] at entry ⊢
      exact apart.completed later data entry

/-- An update changes the entry at the block's index as it would change the block's own data. -/
theorem update_eq (sim : Globals) (block place : Nat) (exchange : Exchange)
    (index : sim.work block = some (place : Int))
    (found : sim.blocksData.atPtr place = some place) :
    smcubeBlock sim (.call block (.update exchange)) =
      ({ sim with
          blocksData :=
            sim.blocksData.put place (ownUpdate (sim.blocksData.ptr place) exchange).1
          current := some place },
        .updated (ownUpdate (sim.blocksData.ptr place) exchange).2) := by
  simp only [smcubeBlock, index, updateBlock, found, ownUpdate]
  by_cases stopped : (sim.blocksData.ptr place).exists_ = false
  · simp only [stopped, if_true, put_self]
  · simp only [if_neg stopped]
    cases completed : (talk (sim.blocksData.ptr place) exchange).2.completed with
    | none => rfl
    | some evtout =>
      simp only [setOutputEvents, put_atPtr, found, Option.map_some, put_ptr, put_put,
        Option.getD_some]

/-- A call that only changes the entry of a running block keeps the blocks apart. -/
theorem apart_put (sim next : Globals) (done : List Call) (call : Call) (block : Nat)
    (data : BlockData) (apart : Apart sim done) (running : block ∈ started done)
    (array : next.blocksData = sim.blocksData.put ((started done).idxOf block) data)
    (before : started (note done call) = started done)
    (flag : next.eraseBlocks = true ↔ ended (note done call) ≠ [])
    (work : ∀ other, other ∉ ended (note done call) →
      other ∉ ended done ∧ next.work other = sim.work other)
    (count : (private_ (note done call)).count = (private_ done).count)
    (entries : (private_ (note done call)).entries =
      Function.update (private_ done).entries block (some data))
    (own : data.outputEvents = (private_ (note done call)).lastCompleted block)
    (others : ∀ other, other ≠ block →
      (private_ (note done call)).lastCompleted other = (private_ done).lastCompleted other) :
    Apart next (note done call) := by
  refine ⟨before ▸ apart.once, ?_, ?_, ?_, fun _ => flag, ?_, ?_⟩
  · rw [count, before]
    exact apart.count
  · intro none_
    rw [before] at none_
    exact absurd running (none_ ▸ List.not_mem_nil)
  · intro _
    rw [HoldsSession, before, entries, array]
    exact holds_put sim done apart block running data
  · intro other present open_
    rw [before] at present ⊢
    obtain ⟨earlier, same⟩ := work other open_
    rw [same]
    exact apart.work other present earlier
  · intro other changed entry
    rw [entries] at entry
    by_cases same : other = block
    · subst same
      rw [Function.update_self, Option.some.injEq] at entry
      rw [← entry, own]
    · rw [Function.update_of_ne same] at entry
      rw [others other same]
      exact apart.completed other changed entry

/-- An update and a request for events neither start a block nor end one. -/
theorem note_call (done : List Call) (block : Nat) (request : Request) :
    started (note done (.call block request)) = started done ∧
      ended (note done (.call block request)) = ended done := by
  rw [note, started_append, ended_append]
  exact ⟨List.append_nil _, List.append_nil _⟩

/-- An update keeps the blocks apart and answers as on the block's own data. -/
theorem apart_update (sim : Globals) (done : List Call) (block : Nat) (exchange : Exchange)
    (apart : Apart sim done) (running : block ∈ started done) (open_ : ended done = []) :
    Apart (step sim (.call block (.update exchange)))
        (note done (.call block (.update exchange))) ∧
      reply sim (.call block (.update exchange)) =
        ((private_ done).perform (.call block (.update exchange))).2 := by
  obtain ⟨index, found, entry⟩ := selected sim done apart block running (by simp [open_])
  have called := update_eq sim block _ exchange index found
  have own : (private_ done).perform (.call block (.update exchange)) =
      (private_ done).call block (sim.blocksData.ptr ((started done).idxOf block))
        (.update exchange) := by
    simp only [Private.perform, entry]
  have after : private_ (note done (.call block (.update exchange))) =
      ((private_ done).call block (sim.blocksData.ptr ((started done).idxOf block))
        (.update exchange)).1 := by
    rw [private_note, Private.step, own]
  obtain ⟨begun, still⟩ := note_call done block (.update exchange)
  refine ⟨?_, by rw [reply, called, own]; rfl⟩
  rw [step, called]
  refine apart_put sim _ done _ block _ apart running rfl begun ?_ ?_ ?_ ?_ ?_ ?_
  · rw [still]
    exact apart.flag (List.ne_nil_of_mem running)
  · intro other open_
    exact ⟨still ▸ open_, rfl⟩
  · rw [after]
    rfl
  · rw [after]
    rfl
  · rw [after, ownUpdate_outputEvents, apart.completed block _ entry]
    exact (Function.update_self block _ (private_ done).lastCompleted).symm
  · intro other different
    rw [after]
    exact Function.update_of_ne different _ (private_ done).lastCompleted

/-- Asking for the events keeps the blocks apart and delivers those of the block's last
completed update. -/
theorem apart_events (sim : Globals) (done : List Call) (block nevout : Nat)
    (apart : Apart sim done) (running : block ∈ started done) (open_ : ended done = []) :
    Apart (step sim (.call block (.events nevout))) (note done (.call block (.events nevout))) ∧
      reply sim (.call block (.events nevout)) =
        ((private_ done).perform (.call block (.events nevout))).2 := by
  obtain ⟨index, found, entry⟩ := selected sim done apart block running (by simp [open_])
  have called : smcubeBlock sim (.call block (.events nevout)) =
      (sim, .delivered (activated ((private_ done).lastCompleted block) nevout)) := by
    rw [← apart.completed block _ entry]
    simp only [smcubeBlock, index, eventsBlock, getOutputEvents, found, Option.map_some]
  have own : (private_ done).perform (.call block (.events nevout)) =
      (private_ done, .delivered (activated ((private_ done).lastCompleted block) nevout)) := by
    simp only [Private.perform, entry, Private.call]
  have after : private_ (note done (.call block (.events nevout))) = private_ done := by
    rw [private_note, Private.step, own]
  obtain ⟨begun, still⟩ := note_call done block (.events nevout)
  refine ⟨?_, by rw [reply, called, own]⟩
  rw [step, called]
  refine apart_put sim _ done _ block _ apart running (put_self _ _).symm begun ?_ ?_ ?_ ?_ ?_ ?_
  · rw [still]
    exact apart.flag (List.ne_nil_of_mem running)
  · intro other open_
    exact ⟨still ▸ open_, rfl⟩
  · rw [after]
  · rw [after, ← entry, Function.update_eq_self]
  · rw [after]
    exact apart.completed block _ entry
  · intro other _
    rw [after]

/-- An ending keeps the blocks apart. It only sets the erase flag, so the blocks that
still run keep their entries. -/
theorem apart_ending (sim : Globals) (done : List Call) (block : Nat) (apart : Apart sim done)
    (running : block ∈ started done) (open_ : block ∉ ended done) :
    Apart (step sim (.ending block)) (note done (.ending block)) ∧
      reply sim (.ending block) = ((private_ done).perform (.ending block)).2 := by
  obtain ⟨index, found, entry⟩ := selected sim done apart block running open_
  have called : smcubeBlock sim (.ending block) =
      endBlock sim block ((started done).idxOf block : Int) := by
    simp only [smcubeBlock, index]
  have after : private_ (note done (.ending block)) =
      { private_ done with
        entries := Function.update (private_ done).entries block
          (some { sim.blocksData.ptr ((started done).idxOf block) with
            input := dmInit, output := dmInit }) } := by
    rw [private_note]
    simp only [Private.step, Private.perform, entry]
  have more : ended (note done (.ending block)) = ended done ++ [block] := by
    rw [note, ended_append]
    rfl
  refine ⟨?_, ?_⟩
  · rw [step, called, endBlock, found]
    refine apart_put sim _ done _ block _ apart running rfl ?_ ?_ ?_ ?_ ?_ ?_ ?_
    · rw [note, started_append]
      exact List.append_nil _
    · rw [more]
      exact ⟨fun _ => List.append_ne_nil_of_right_ne_nil _ (List.cons_ne_nil _ _), fun _ => rfl⟩
    · intro other later
      rw [more, List.mem_append, List.mem_singleton, not_or] at later
      exact ⟨later.1, Function.update_of_ne later.2 _ _⟩
    · rw [after]
    · rw [after]
    · rw [after]
      exact apart.completed block (sim.blocksData.ptr _) entry
    · intro other _
      rw [after]
  · rw [reply, called, endBlock, found]
    simp only [Private.perform, entry]

/-- Every allowed call keeps the blocks apart and answers as on the block's own data.
The cases are the calls; only the entry that the index selects is touched in each. -/
theorem apart_step (sim : Globals) (done : List Call) (call : Call) (apart : Apart sim done)
    (allowed : Allowed done call) :
    Apart (step sim call) (note done call) ∧ reply sim call = ((private_ done).perform call).2 := by
  cases call with
  | init block parameters =>
    refine ⟨apart_init sim done block parameters apart allowed.1 allowed.2, ?_⟩
    rw [reply, init_eq]
    rfl
  | call block request =>
    cases request with
    | update exchange => exact apart_update sim done block exchange apart allowed.1 allowed.2
    | events nevout => exact apart_events sim done block nevout apart allowed.1 allowed.2
  | ending block => exact apart_ending sim done block apart allowed.1 allowed.2

/-- At the end of a session the array is to be emptied, or empty. -/
theorem apart_leave (sim : Globals) (session : Session Nat (ScicosBlock × Startup) Request)
    (apart : Apart sim session.actions) : Idle sim := by
  by_cases first : started session.actions = []
  · exact apart.idle first
  · refine Or.inl ((apart.flag first).mpr ?_)
    rw [started_actions] at first
    rw [ended_actions]
    intro none_
    exact first (List.nil_perm.mp (none_ ▸ session.complete))

/-- The blocks of every session keep apart: a running block's index selects the entry
that its own initialization has made and only its own calls have changed, the array
holds the entries of this session alone, and every call answers as on the block's own
data; the events delivered are those of the block's own last completed update. -/
theorem blocks_keep_apart (sessions : List (Session Nat (ScicosBlock × Startup) Request)) :
    Always step (fun sim done =>
        (∀ block ∈ started done, block ∉ ended done → Selects sim (private_ done) block) ∧
        (started done ≠ [] → HoldsSession sim done)) boot sessions ∧
      Whenever step (fun sim done call => reply sim call = ((private_ done).perform call).2)
        boot sessions ∧
      Whenever step (fun sim done call => ∀ block nevout, call = .call block (.events nevout) →
        reply sim call = .delivered (activated ((private_ done).lastCompleted block) nevout))
        boot sessions := by
  have initial : Idle boot := Or.inr rfl
  have kept := fun sim done call apart allowed => (apart_step sim done call apart allowed).1
  refine ⟨?_, ?_, ?_⟩
  · intro earlier session later place done rest split
    have apart := always_of_invariant step Idle Apart apart_nil kept apart_leave boot initial
      sessions earlier session later place done rest split
    refine ⟨fun block running open_ => ?_, apart.holds⟩
    obtain ⟨index, found, entry⟩ := selected _ done apart block running open_
    exact ⟨_, _, _, index, found, rfl, entry⟩
  · exact whenever_of_invariant step Idle Apart apart_nil kept apart_leave _
      (fun sim done call apart allowed => (apart_step sim done call apart allowed).2) boot initial
      sessions
  · refine whenever_of_invariant step Idle Apart apart_nil kept apart_leave _ ?_ boot initial
      sessions
    rintro sim done _ apart allowed block nevout rfl
    obtain ⟨-, -, entry⟩ := selected sim done apart block allowed.1 (by simp [allowed.2])
    rw [(apart_step sim done _ apart allowed).2]
    simp only [Private.perform, entry, Private.call]

/-- Everything that a start needs is there, with the handle of the connection. -/
def smoothStart (handle : Int) : Startup :=
  { enginePath := some "/opt/", engineExists := true, fileExists := true, listenHandle := 5
    listens := true, pid := some 100, handle := some handle }

/-- An update with one event and the same byte at all inputs, which the engine answers with
sevens and some output events. -/
def answered (byte : UInt8) (evtout : BitVec 32) : Request :=
  .update
    { inevents := 1, inptr := fun _ => List.replicate 8 byte, countWritten := true
      dataWritten := true, answer := some fun _ => 7, evtout := some evtout }

/-- A session of a block with an input of four bytes and an output of two and of a block
with three inputs. Both complete updates, the second one after the first one's, and are
asked for their events in turn. -/
def twoBlocks : Session Nat (ScicosBlock × Startup) Request where
  inits :=
    [(4, ⟨{ nin := 1, insz := [1, 1, 84], nout := 1, outsz := [1, 1, 82], ipar := [0, 1, 0] },
        smoothStart 7⟩),
      (9, ⟨{ nin := 3, insz := [1, 1, 2, 1, 1, 1, 811, 10, 814], nout := 0, outsz := []
             ipar := [0, 2, 0] }, smoothStart 8⟩)]
  calls := [(4, answered 42 3), (9, answered 43 4), (4, .events 2), (9, .events 3),
    (4, answered 44 2), (4, .events 2)]
  endings := [9, 4]
  distinct := by decide
  served := by decide
  complete := List.Perm.swap 4 9 []

/-- Run twice, the first block delivers the events that its own update completed with,
although the second one has completed another since. -/
theorem twoBlocks_deliver :
    reply (Library.Runs.run step boot (history [twoBlocks] ++ twoBlocks.actions.take 4))
      (.call 4 (.events 2)) = .delivered [0, 1] := by
  have answers := (blocks_keep_apart [twoBlocks, twoBlocks]).2.2 [twoBlocks] twoBlocks [] rfl
    (twoBlocks.actions.take 4) (.call 4 (.events 2)) (twoBlocks.actions.drop 5) rfl 4 2 rfl
  have own : (private_ (twoBlocks.actions.take 4)).lastCompleted 4 = 3 := by decide +kernel
  rw [answers, own]
  decide

end ScicosFlex.Smcube
