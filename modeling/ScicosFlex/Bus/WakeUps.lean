import ScicosFlex.Bus.Queue
import ScicosFlex.Library.Runs

/-!
# Readers that wait for a message

The threads that call `queue_get` on one channel, and the insertions of
`queue_insert` between them. A critical section is one action. `pthread_cond_wait`
puts the thread among the blocked ones, `pthread_cond_signal` moves one of these to
the woken ones, and a woken thread tests the condition of its loop again when its
turn comes.

`queue_insert` signals only if its message is alone in the queue afterwards. So when
two messages come before the woken reader, and this reader takes one of them, the
other one stays while further readers sleep. `no_lost_wakeup_iff` says that nothing
else goes wrong.
-/

namespace ScicosFlex.Bus.WakeUps

open Library.Blocks Library.Runs Usb

/-- What a call of `queue_get` asks for. -/
structure Reader where
  len : BitVec 16
  lifo : Bool

/-- A channel and its readers: those that sleep on the condition and those that were
woken and have not run since. -/
structure State where
  channel : FlexBusChannel
  blocked : List Reader
  woken : List Reader

/-- The critical sections. `insert` is a call of `queue_insert`, `get` the arrival of
a reader, and `resume` the turn of a woken reader. The scheduler picks which blocked
reader a signal wakes and which woken reader runs. -/
inductive Action where
  | insert (buf : Fin 32 → Byte) (len : BitVec 16) (pick : Nat)
  | get (reader : Reader)
  | resume (pick : Nat)

/-- `pthread_cond_signal`: one blocked reader is woken, if there is any. -/
def State.signal (state : State) (pick : Nat) : State :=
  let pick := pick % state.blocked.length
  match state.blocked[pick]? with
  | some reader =>
    { state with blocked := state.blocked.eraseIdx pick, woken := state.woken ++ [reader] }
  | none => state

/-- A reader tests the condition of its loop: it waits, or takes a message. -/
def State.attempt (state : State) (reader : Reader) : Option State :=
  if state.channel.empty then some { state with blocked := state.blocked ++ [reader] }
  else do
    let (_, channel) ← takeSection state.channel reader.len reader.lifo
    some { state with channel := channel }

/-- One critical section. -/
def perform (state : State) : Action → Option State
  | .insert buf len pick =>
    let len := truncated len
    if len = 0 then some state
    else do
      let (channel, signals) ← insertSection state.channel buf len
      let state := { state with channel := channel }
      some (if signals then state.signal pick else state)
  | .get reader => state.attempt reader
  | .resume pick =>
    match state.woken[pick]? with
    | some reader => { state with woken := state.woken.eraseIdx pick }.attempt reader
    | none => some state

/-- One critical section; no access is ever undefined (`perform_defined`). -/
def step (state : State) (action : Action) : State := (perform state action).getD state

/-- Behind `queue_init(0, 0)`, with nobody waiting. -/
def start (garbage : Nat → Nat → FlexBusMessage) (ch : BitVec 16) : State :=
  { channel := (queueInit garbage 0 0).cell ch.toNat, blocked := [], woken := [] }

/-- No message lies unread while a reader sleeps and none is on its way. A reader that
has been woken will look at the queue again when it gets the mutex. -/
def NoLostWakeup (state : State) : Prop :=
  state.channel.empty = false → state.blocked ≠ [] → state.woken ≠ []

/-- A woken reader that finds a message finds only one, or nobody sleeps, or another
woken reader comes behind it. -/
def LeavesNone (state : State) : Action → Prop
  | .resume pick =>
    pick < state.woken.length → state.channel.empty = false →
      (state.channel.first + 1) % state.channel.size = state.channel.last ∨
        state.blocked = [] ∨ 2 ≤ state.woken.length
  | _ => True

/-- Between two critical sections, as long as nothing is lost: what a step keeps if no
woken reader leaves a message behind. -/
structure Sound (state : State) : Prop where
  channel : WellFormed state.channel
  awake : NoLostWakeup state

/-- A signal concerns the readers only. -/
@[simp] theorem signal_channel (state : State) (pick : Nat) :
    (state.signal pick).channel = state.channel := by
  simp only [State.signal]
  split <;> rfl

/-- A signal wakes one of the readers that sleep. -/
theorem signal_some (state : State) (pick : Nat) (some : state.blocked ≠ []) :
    pick % state.blocked.length < state.blocked.length ∧ ∃ reader, state.signal pick =
      { state with
        blocked := state.blocked.eraseIdx (pick % state.blocked.length)
        woken := state.woken ++ [reader] } := by
  have inside : pick % state.blocked.length < state.blocked.length :=
    Nat.mod_lt _ (List.length_pos_iff.mpr some)
  refine ⟨inside, state.blocked[pick % state.blocked.length], ?_⟩
  simp only [State.signal, List.getElem?_eq_getElem inside]

/-- Behind a signal nobody sleeps, or somebody is on the way. -/
theorem signal_wakes (state : State) (pick : Nat) (asleep : (state.signal pick).blocked ≠ []) :
    (state.signal pick).woken ≠ [] := by
  by_cases none : state.blocked = []
  · simp [State.signal, none] at asleep
  · obtain ⟨inside, reader, signalled⟩ := signal_some state pick none
    simp [signalled]

/-- What a reader does on a well-formed channel. -/
theorem attempt_eq (state : State) (reader : Reader) (wellFormed : WellFormed state.channel) :
    state.attempt reader = some (if state.channel.empty then
        { state with blocked := state.blocked ++ [reader] }
      else { state with channel := taken state.channel reader.lifo }) := by
  simp only [State.attempt, takeSection_eq _ _ _ wellFormed, Option.bind_eq_bind,
    Option.bind_some]
  split <;> rfl

/-- What an insertion of a message does on a well-formed channel. -/
theorem insert_eq (state : State) (buf : Fin 32 → Byte) (len : BitVec 16) (pick : Nat)
    (wellFormed : WellFormed state.channel) (some : truncated len ≠ 0) :
    let channel := inserted state.channel buf (truncated len)
    perform state (.insert buf len pick) = Option.some
      (if (channel.first + 1) % channel.size = channel.last then
        { state with channel := channel }.signal pick
      else { state with channel := channel }) := by
  simp only [perform, if_neg some, insertSection_eq _ _ _ wellFormed, Option.bind_eq_bind,
    Option.bind_some, decide_eq_true_iff]
  rfl

/-- What the turn of a woken reader does. -/
theorem resume_eq (state : State) (pick : Nat) (inside : pick < state.woken.length) :
    perform state (.resume pick) =
      { state with woken := state.woken.eraseIdx pick }.attempt state.woken[pick] := by
  simp only [perform, List.getElem?_eq_getElem inside]

/-- No other thread has a turn. -/
theorem resume_none (state : State) (pick : Nat) (outside : ¬ pick < state.woken.length) :
    perform state (.resume pick) = some state := by
  simp only [perform, List.getElem?_eq_none (Nat.le_of_not_lt outside)]

/-- No critical section leaves the arrays of a well-formed channel. -/
theorem perform_defined (state : State) (action : Action)
    (wellFormed : WellFormed state.channel) : perform state action = some (step state action) := by
  rw [step]
  cases action with
  | insert buf len pick =>
    by_cases none : truncated len = 0
    · simp [perform, none]
    · rw [insert_eq state buf len pick wellFormed none]
      rfl
  | get reader =>
    rw [perform, attempt_eq state reader wellFormed]
    rfl
  | resume pick =>
    by_cases inside : pick < state.woken.length
    · rw [resume_eq state pick inside,
        attempt_eq { state with woken := state.woken.eraseIdx pick } _ wellFormed]
      rfl
    · rw [resume_none state pick inside]
      rfl

/-- A reader keeps the channel well formed. -/
theorem sound_attempt (state next : State) (reader : Reader) (wellFormed : WellFormed state.channel)
    (attempted : state.attempt reader = some next)
    (awake : state.channel.empty = false → (taken state.channel reader.lifo).empty = false →
      state.blocked ≠ [] → state.woken ≠ []) : Sound next := by
  rw [attempt_eq state reader wellFormed, Option.some.injEq] at attempted
  subst attempted
  cases empty : state.channel.empty with
  | true =>
    rw [if_pos rfl]
    exact ⟨wellFormed, fun full => absurd (empty.symm.trans full) (by decide)⟩
  | false =>
    rw [if_neg Bool.false_ne_true]
    exact ⟨taken_wellFormed _ _ wellFormed, awake empty⟩

/-- A critical section that leaves no message behind the last woken reader keeps the
state sound. -/
theorem sound_step (state : State) (action : Action) (sound : Sound state)
    (leavesNone : LeavesNone state action) : Sound (step state action) := by
  have defined := perform_defined state action sound.channel
  cases action with
  | insert buf len pick =>
    by_cases none : truncated len = 0
    · rw [perform, if_pos none, Option.some.injEq] at defined
      exact defined ▸ sound
    · rw [insert_eq state buf len pick sound.channel none, Option.some.injEq] at defined
      rw [← defined]
      have channel := inserted_wellFormed _ buf (truncated len) sound.channel
      split
      · refine ⟨?_, ?_⟩
        · rw [signal_channel]
          exact channel
        · intro _
          exact signal_wakes _ pick
      · next silent =>
        refine ⟨channel, ?_⟩
        intro _
        -- Without a signal there was a message before.
        apply sound.awake
        rw [Bool.eq_false_iff]
        intro empty
        exact silent (inserted_alone _ _ _ sound.channel empty)
  | get reader =>
    exact sound_attempt state _ reader sound.channel defined (fun full _ => sound.awake full)
  | resume pick =>
    by_cases inside : pick < state.woken.length
    · rw [resume_eq state pick inside] at defined
      apply sound_attempt { state with woken := state.woken.eraseIdx pick } _ _ sound.channel
        defined
      intro full more asleep
      cases leavesNone inside full with
      | inl alone =>
        rw [(taken_empty_iff _ _ sound.channel).mpr alone] at more
        cases more
      | inr others =>
        have second := others.resolve_left asleep
        rw [← List.length_pos_iff, List.length_eraseIdx_of_lt inside]
        omega
    · rw [resume_none state pick inside, Option.some.injEq] at defined
      exact defined ▸ sound

/-- A critical section behind which nothing is lost has left no message behind the last
woken reader. -/
theorem leavesNone_of_awake (state : State) (action : Action) (sound : Sound state)
    (awake : NoLostWakeup (step state action)) : LeavesNone state action := by
  cases action with
  | insert buf len pick => trivial
  | get reader => trivial
  | resume pick =>
    intro inside full
    have defined := perform_defined state (.resume pick) sound.channel
    rw [resume_eq state pick inside] at defined
    simp only [attempt_eq { state with woken := state.woken.eraseIdx pick } _ sound.channel,
      full, Bool.false_eq_true, if_false, Option.some.injEq] at defined
    rw [← defined] at awake
    by_cases alone : (state.channel.first + 1) % state.channel.size = state.channel.last
    · exact Or.inl alone
    · right
      by_cases asleep : state.blocked = []
      · exact Or.inl asleep
      · right
        have more : (taken state.channel state.woken[pick].lifo).empty = false := by
          rw [Bool.eq_false_iff]
          intro empty
          exact alone ((taken_empty_iff _ _ sound.channel).mp empty)
        have behind := List.length_pos_iff.mpr (awake more asleep)
        rw [List.length_eraseIdx_of_lt inside] at behind
        omega

/-- Behind `queue_init` nothing is lost. -/
theorem start_sound (garbage : Nat → Nat → FlexBusMessage) (ch : BitVec 16) :
    Sound (start garbage ch) :=
  ⟨queueInit_wellFormed garbage ch.toNat,
    fun full => absurd (show true = false from full) (by decide)⟩

/-- For every channel, any number of readers and any order of the critical sections, no
message ever lies unread while a reader sleeps and none is on its way, if and only if no
woken reader takes one of several messages while others sleep and no other woken reader comes
behind it. A signal is sent for an insertion into an empty queue only, so a second message
wakes nobody; a reader that has been woken but has not run yet counts as on its way. -/
theorem no_lost_wakeup_iff (garbage : Nat → Nat → FlexBusMessage) (ch : BitVec 16)
    (actions : List Action) : Reached step NoLostWakeup (start garbage ch) actions ↔
      Throughout step LeavesNone (start garbage ch) actions := by
  have both := guarded_iff step (fun _ _ => True) LeavesNone Sound NoLostWakeup (fun _ _ => True)
    (fun state action sound _ guarded => ⟨sound_step state action sound guarded, trivial⟩)
    (fun state sound => sound.awake)
    (fun state action sound _ awake _ => leavesNone_of_awake state action sound awake)
    (start garbage ch) actions (start_sound garbage ch) (fun _ _ _ _ => trivial)
  constructor
  · intro reached
    exact both.mp ⟨reached, fun _ _ _ _ => trivial⟩
  · intro guarded
    exact (both.mpr guarded).1

/-- A request for a whole message. -/
def wholeMessage : Reader := { len := 32, lifo := false }

/-- A message of one byte. -/
def oneByte (value : Byte) : Action := .insert (fun _ => value) 1 0

/-- Not all runs keep a reader awake: two readers sleep, two messages come before the
woken reader runs, and it takes the first of them. -/
theorem second_message_stays :
    ¬ ∀ garbage ch actions, Reached step NoLostWakeup (start garbage ch) actions := by
  intro always
  let garbage : Nat → Nat → FlexBusMessage := fun _ _ => { length := 0, data := fun _ => 0 }
  let actions : List Action :=
    [.get wholeMessage, .get wholeMessage, oneByte 1, oneByte 2, .resume 0]
  have awake := always garbage 7 actions actions [] rfl
  exact awake (by decide) (by decide) (by decide)

/-- How many readers wait, asleep or woken. -/
def State.readers (state : State) : Nat := state.blocked.length + state.woken.length

/-- A reader arrives only when no other one waits. -/
def Alone (state : State) : Action → Prop
  | .get _ => state.readers = 0
  | _ => True

/-- A signal moves a reader. -/
@[simp] theorem signal_readers (state : State) (pick : Nat) :
    (state.signal pick).readers = state.readers := by
  by_cases none : state.blocked = []
  · simp [State.signal, none]
  · obtain ⟨inside, reader, signalled⟩ := signal_some state pick none
    simp only [signalled, State.readers, List.length_eraseIdx_of_lt inside, List.length_append,
      List.length_singleton]
    omega

/-- An attempt leaves at most the reader that made it. -/
theorem attempt_readers (state next : State) (reader : Reader)
    (wellFormed : WellFormed state.channel) (attempted : state.attempt reader = some next) :
    next.readers ≤ state.readers + 1 := by
  rw [attempt_eq state reader wellFormed, Option.some.injEq] at attempted
  subst attempted
  split
  · simp only [State.readers, List.length_append, List.length_singleton]
    omega
  · exact Nat.le_succ _

/-- Only an arriving reader adds to the readers: a signal moves one from the blocked to
the woken, and a turn moves it back or ends it. -/
theorem step_readers (state : State) (action : Action) (wellFormed : WellFormed state.channel)
    (alone : Alone state action) : (step state action).readers ≤ max 1 state.readers := by
  have defined := perform_defined state action wellFormed
  cases action with
  | insert buf len pick =>
    by_cases none : truncated len = 0
    · rw [perform, if_pos none, Option.some.injEq] at defined
      exact defined ▸ Nat.le_max_right _ _
    · rw [insert_eq state buf len pick wellFormed none, Option.some.injEq] at defined
      rw [← defined]
      split
      · rw [signal_readers]
        exact Nat.le_max_right _ _
      · exact Nat.le_max_right _ _
  | get reader =>
    have bound := attempt_readers state _ reader wellFormed defined
    have none : state.readers = 0 := alone
    omega
  | resume pick =>
    by_cases inside : pick < state.woken.length
    · rw [resume_eq state pick inside] at defined
      have bound := attempt_readers { state with woken := state.woken.eraseIdx pick } _ _
        wellFormed defined
      simp only [State.readers, List.length_eraseIdx_of_lt inside] at bound ⊢
      omega
    · rw [resume_none state pick inside, Option.some.injEq] at defined
      exact defined ▸ Nat.le_max_right _ _

/-- With one reader at a time no wake-up is lost. -/
theorem lone_reader_awake (garbage : Nat → Nat → FlexBusMessage) (ch : BitVec 16)
    (actions : List Action) (alone : Throughout step Alone (start garbage ch) actions) :
    Reached step NoLostWakeup (start garbage ch) actions := by
  have reached := reached_of_invariant step Alone
    (fun state => Sound state ∧ state.readers ≤ 1)
    (fun state action sound alone => by
      have few := step_readers state action sound.1.channel alone
      refine ⟨sound_step state action sound.1 ?_, by have := sound.2; omega⟩
      cases action with
      | insert buf len pick => trivial
      | get reader => trivial
      | resume pick =>
        intro inside _
        have one : state.blocked.length + state.woken.length ≤ 1 := sound.2
        have none : state.blocked.length = 0 := by omega
        exact Or.inr (Or.inl (List.length_eq_zero_iff.mp none)))
    (start garbage ch) actions ⟨start_sound garbage ch, Nat.zero_le _⟩ alone
  exact reached.mono fun state sound => sound.1.awake

end ScicosFlex.Bus.WakeUps
