import ScicosFlex.Library.Runs
import ScicosFlex.Usb.Channels

/-!
# Reader threads of the USB library

`flex_usb_init` starts a reader thread, `flex_usb_close` asks it to stop by one
flag, and the next `flex_usb_init` clears the flag again without waiting for the
thread. A step is one call or one pass of a reader through its loop: the test of
`stop_reader` and, if it is not set, one read from the device.

In a run there is one reader per session if and only if every session is opened
after the reader of the previous one has left its loop (`one_reader_iff`).
-/

namespace ScicosFlex.Usb.ReaderThreads

open Library.Runs Packet Session Channels

/-- The library and its live reader threads, each under its number. `created`
counts the threads created so far. -/
structure System where
  usb : State
  readers : List Nat
  created : Nat

/-- Calls, and passes of a reader through its loop. The device gives the pass a
packet, with the memory behind it, or an error. -/
inductive Action where
  | init (rxSize txSize : Nat) (opt : BitVec 8) (outcomes : InitOutcomes)
  | close (claimed : Int) (closed : Bool)
  | iterate (reader : Nat) (answer : Option (FlexUsbPacket × Memory))

/-- A call that opens a session creates a thread. -/
def opens (system : System) (rxSize txSize : Nat) (opt : BitVec 8) (outcomes : InitOutcomes) :
    Bool :=
  !system.usb.init && (flexUsbInit system.usb rxSize txSize opt outcomes).2.2.init

/-- What a reader does with the answer of the device. -/
def received (usb : State) : Option (FlexUsbPacket × Memory) → State
  | some (packet, behind) => readerReceives usb packet behind
  | none => usb

/-- The system after an action. -/
def step (system : System) : Action → System
  | .init rxSize txSize opt outcomes =>
    let usb := (flexUsbInit system.usb rxSize txSize opt outcomes).2.2
    if opens system rxSize txSize opt outcomes then
      { usb := usb
        readers := system.readers ++ [system.created]
        created := system.created + 1 }
    else { system with usb := usb }
  | .close claimed closed => { system with usb := (flexUsbClose system.usb claimed closed).2.2 }
  | .iterate reader answer =>
    if reader ∈ system.readers then
      if system.usb.stopReader then { system with readers := system.readers.erase reader }
      else { system with usb := received system.usb answer }
    else system

/-- The variables at program start. -/
def idle : System := { usb := boot.usb, readers := [], created := 0 }

/-- The device calls succeed. -/
def Admissible (system : System) : Action → Prop
  | .init rxSize txSize opt outcomes => (flexUsbInit system.usb rxSize txSize opt outcomes).1 = 0
  | .close _ closed => closed = true
  | .iterate _ _ => True

/-- A live reader whose next pass reads from the device. -/
def Going (system : System) (reader : Nat) : Prop :=
  reader ∈ system.readers ∧ system.usb.stopReader = false

/-- At most one reader is still going to read, and while the library is
initialized exactly one is live. -/
structure OneReader (system : System) : Prop where
  single : ∀ reader other, Going system reader → Going system other → reader = other
  live : system.usb.init = true → system.readers.length = 1

/-- A pass that reads belongs to the thread created last, in its session. -/
def OwnSession (system : System) : Action → Prop
  | .iterate reader _ =>
    Going system reader → system.usb.init = true ∧ reader + 1 = system.created
  | _ => True

/-- A call that opens a session finds no live reader. -/
def Stopped (system : System) : Action → Prop
  | .init _ _ _ _ => system.usb.init = false → system.readers = []
  | _ => True

/-- Between two actions: in a session the only reader is the one created last;
outside of one it may still be live, but has been asked to stop. -/
structure Tidy (system : System) : Prop where
  active : system.usb.init = true →
    system.usb.stopReader = false ∧ ∃ last, system.created = last + 1 ∧ system.readers = [last]
  inactive : system.usb.init = false →
    system.readers = [] ∨ system.usb.stopReader = true ∧ ∃ last, system.readers = [last]

/-- A call that succeeds while the library is initialized only clears the flag. -/
theorem init_again (system : System) (rxSize txSize : Nat) (opt : BitVec 8)
    (outcomes : InitOutcomes) (active : system.usb.init = true) :
    step system (.init rxSize txSize opt outcomes) =
      { system with usb := { system.usb with stopReader := false } } := by
  simp [step, opens, flexUsbInit, active]

/-- A successful call that opens a session adds a reader and lets all readers run. -/
theorem init_fresh (system : System) (rxSize txSize : Nat) (opt : BitVec 8)
    (outcomes : InitOutcomes) (inactive : system.usb.init = false)
    (success : (flexUsbInit system.usb rxSize txSize opt outcomes).1 = 0) :
    let after := step system (.init rxSize txSize opt outcomes)
    after.usb.init = true ∧ after.usb.stopReader = false ∧
      after.readers = system.readers ++ [system.created] ∧
      after.created = system.created + 1 := by
  obtain ⟨allocated, -, opened⟩ := init_opens system.usb rxSize txSize opt outcomes inactive
    (le_of_eq success.symm)
  simp [step, opens, opened, inactive]

/-- Closing asks the reader to stop. -/
theorem close_stops (system : System) (claimed : Int) (active : system.usb.init = true) :
    let after := step system (.close claimed true)
    after.usb.init = false ∧ after.usb.stopReader = true ∧ after.readers = system.readers := by
  simp [step, flexUsbClose, active]

/-- Closing twice changes nothing. -/
theorem close_again (system : System) (claimed : Int) (inactive : system.usb.init = false) :
    step system (.close claimed true) = system := by
  simp [step, flexUsbClose, inactive]

/-- A packet changes the ring only. -/
theorem received_keeps (usb : State) (answer : Option (FlexUsbPacket × Memory)) :
    (received usb answer).init = usb.init ∧ (received usb answer).stopReader = usb.stopReader := by
  cases answer with
  | none => exact ⟨rfl, rfl⟩
  | some packet =>
    simp only [received, readerReceives]
    split <;> exact ⟨rfl, rfl⟩

/-- A pass while no stop is requested changes the ring only. -/
theorem iterate_reads (system : System) (reader : Nat)
    (answer : Option (FlexUsbPacket × Memory)) (running : system.usb.stopReader = false) :
    let after := step system (.iterate reader answer)
    after.usb.init = system.usb.init ∧ after.usb.stopReader = false ∧
      after.readers = system.readers ∧ after.created = system.created := by
  obtain ⟨init, stop⟩ := received_keeps system.usb answer
  simp only [step, running]
  split
  · exact ⟨init, stop.trans running, rfl, rfl⟩
  · exact ⟨rfl, running, rfl, rfl⟩

/-- The only reader leaves its loop when it finds the request to stop. -/
theorem iterate_stops (system : System) (reader last : Nat)
    (answer : Option (FlexUsbPacket × Memory)) (stopped : system.usb.stopReader = true)
    (only : system.readers = [last]) :
    let after := step system (.iterate reader answer)
    after.usb = system.usb ∧ (after.readers = [] ∨ after.readers = [last]) := by
  simp only [step, stopped, if_true, only, List.mem_singleton]
  by_cases same : reader = last
  · subst same
    simp
  · simp [same, only]

/-- Opening a session in a tidy system without a live reader, and every other
successful action, leads to a tidy system; only the session's reader reads. -/
theorem tidy_step (system : System) (action : Action) (tidy : Tidy system)
    (admitted : Admissible system action) (stopped : Stopped system action) :
    Tidy (step system action) ∧ OwnSession system action := by
  obtain ⟨active, inactive⟩ := tidy
  cases action with
  | init rxSize txSize opt outcomes =>
    refine ⟨?_, trivial⟩
    cases started : system.usb.init with
    | true =>
      rw [init_again system rxSize txSize opt outcomes started]
      exact ⟨fun _ => ⟨rfl, (active started).2⟩, fun closed => absurd (started.symm.trans closed)
        (by decide)⟩
    | false =>
      obtain ⟨ready, running, readers, created⟩ :=
        init_fresh system rxSize txSize opt outcomes started admitted
      rw [stopped started, List.nil_append] at readers
      exact ⟨fun _ => ⟨running, system.created, created, readers⟩,
        fun closed => absurd (ready.symm.trans closed) (by decide)⟩
  | close claimed closed =>
    refine ⟨?_, trivial⟩
    obtain rfl : closed = true := admitted
    cases started : system.usb.init with
    | true =>
      obtain ⟨ended, stop, readers⟩ := close_stops system claimed started
      obtain ⟨-, last, -, only⟩ := active started
      exact ⟨fun ready => absurd (ended.symm.trans ready) (by decide),
        fun _ => Or.inr ⟨stop, last, readers.trans only⟩⟩
    | false =>
      rw [close_again system claimed started]
      exact ⟨active, inactive⟩
  | iterate reader answer =>
    cases started : system.usb.init with
    | true =>
      obtain ⟨running, last, created, only⟩ := active started
      obtain ⟨init, still, readers, count⟩ := iterate_reads system reader answer running
      refine ⟨⟨fun _ => ⟨still, last, count.trans created, readers.trans only⟩,
        fun closed => absurd (init.symm.trans closed) (by simp [started])⟩, ?_⟩
      rintro ⟨member, -⟩
      rw [only, List.mem_singleton] at member
      exact ⟨started, by rw [member, created]⟩
    | false =>
      have idle := inactive started
      cases idle with
      | inl nobody =>
        have absent : reader ∉ system.readers := by simp [nobody]
        have same : step system (.iterate reader answer) = system := by simp [step, absent]
        rw [same]
        exact ⟨⟨active, inactive⟩, fun going => absurd going.1 absent⟩
      | inr asked =>
        obtain ⟨stop, last, only⟩ := asked
        obtain ⟨usb, readers⟩ := iterate_stops system reader last answer stop only
        refine ⟨⟨fun ready => ?_, fun _ => ?_⟩, fun going => ?_⟩
        · rw [usb, started] at ready
          cases ready
        · cases readers with
          | inl nobody => exact Or.inl nobody
          | inr one => exact Or.inr ⟨usb ▸ stop, last, one⟩
        · have running := going.2
          rw [stop] at running
          cases running

/-- A tidy system has one reader. -/
theorem tidy_one (system : System) (tidy : Tidy system) : OneReader system := by
  obtain ⟨active, inactive⟩ := tidy
  constructor
  · rintro reader other ⟨member, running⟩ ⟨otherMember, -⟩
    have alone : ∃ last, system.readers = [last] := by
      cases started : system.usb.init with
      | true =>
        obtain ⟨-, last, -, only⟩ := active started
        exact ⟨last, only⟩
      | false =>
        cases inactive started with
        | inl nobody => simp [nobody] at member
        | inr asked => exact asked.2
    obtain ⟨last, only⟩ := alone
    rw [only, List.mem_singleton] at member otherMember
    exact member.trans otherMember.symm
  · intro started
    obtain ⟨-, last, -, only⟩ := active started
    rw [only]
    rfl

/-- A session opened beside a live reader has two, for opening it takes back the request
to stop. -/
theorem stopped_of_one (system : System) (action : Action) (admitted : Admissible system action)
    (one : OneReader (step system action)) : Stopped system action := by
  cases action with
  | init rxSize txSize opt outcomes =>
    intro inactive
    obtain ⟨ready, -, readers, -⟩ := init_fresh system rxSize txSize opt outcomes inactive admitted
    have count := one.live ready
    rw [readers, List.length_append, List.length_singleton] at count
    exact List.eq_nil_of_length_eq_zero (by omega)
  | close claimed closed => trivial
  | iterate reader answer => trivial

/-- Along a run of successful calls and passes of the readers, there is at every
moment at most one reader going to read, exactly one live in a session, and no read
by another reader than the session's own, if and only if every call that opens a
session finds the reader of the previous one gone. -/
theorem one_reader_iff (actions : List Action)
    (legal : Throughout step Admissible idle actions) :
    (Reached step OneReader idle actions ∧ Throughout step OwnSession idle actions) ↔
      Throughout step Stopped idle actions := by
  have initial : Tidy idle := ⟨fun started => absurd started (by decide), fun _ => Or.inl rfl⟩
  exact guarded_iff step Admissible Stopped Tidy OneReader OwnSession
    tidy_step tidy_one
    (fun system action _ admitted one _ => stopped_of_one system action admitted one)
    idle actions initial legal

/-- A session whose reader leaves its loop before the next session is opened. -/
def joinedSessions : List Action :=
  [.init 256 256 0 smoothOpening, .iterate 0 none, .close 0 true, .iterate 0 none,
    .init 256 256 0 smoothOpening, .iterate 1 none]

/-- These two sessions have one reader each. -/
theorem joined_sessions_have_one_reader :
    Reached step OneReader idle joinedSessions ∧ Throughout step OwnSession idle joinedSessions := by
  apply (one_reader_iff joinedSessions ?_).mpr
  · simp only [joinedSessions, throughout_cons]
    exact ⟨fun _ => rfl, trivial, trivial, trivial, fun _ => rfl, trivial, throughout_nil _ _ _⟩
  · simp only [joinedSessions, throughout_cons]
    exact ⟨rfl, trivial, rfl, trivial, rfl, trivial, throughout_nil _ _ _⟩

/-- Not every run has one reader: when a session is closed and the next one opened
before the reader looks at the flag, it finds the flag cleared and goes on beside
the new reader. -/
theorem reopening_keeps_reader :
    ¬ ∀ actions, Throughout step Admissible idle actions →
      Reached step OneReader idle actions ∧ Throughout step OwnSession idle actions := by
  intro always
  let hasty : List Action :=
    [.init 256 256 0 smoothOpening, .close 0 true, .init 256 256 0 smoothOpening]
  have legal : Throughout step Admissible idle hasty := by
    simp only [hasty, throughout_cons]
    exact ⟨rfl, rfl, rfl, throughout_nil _ _ _⟩
  have one := (always hasty legal).1 hasty [] (List.append_nil _).symm
  have two : (run step idle hasty).readers.length = 2 := rfl
  have single := one.live rfl
  rw [two] at single
  exact absurd single (by decide)

end ScicosFlex.Usb.ReaderThreads
