import ScicosFlex.LegacyUsb.Readers
import ScicosFlex.Library.Runs

/-!
# The old USB link

`usb_thread`, the channels, and calls of `flex_pc_usb_read` and `flex_pc_usb_write` in any
order. `usb_bulk_read` and `usb_bulk_write` are called under `usb_bus_mutex`, and nobody else
touches the bus in between: each is one event. So is each section on a channel.

`flex_pc_usb_write` returns with the mutex when `usb_bulk_write` fails. From then on the thread
and all further calls wait for it (`failed_write_ends`).

`flex_pc_usb_init` has returned; `flex_pc_usb_close` is not called.
-/

namespace ScicosFlex.LegacyUsb.FlexPcUsb

open Library.Runs UsbThread Reassembly Channels Readers

/-- The link: whether `usb_bus_mutex` was not given back, how many calls of `usb_bulk_write` there
were, what the calls of `usb_bulk_read` will return, what `usb_thread` keeps, how many of its
calls of `insert_message` have come to their turn, and the channels. -/
structure Link where
  locked : Bool
  writes : Nat
  arriving : List (Int × List UInt8)
  thread : Thread
  made : Nat
  ports : UInt8 → Port

/-- What can happen next.

* `receive`: the thread reads a packet and parses it;
* `insert`: the next one of its calls of `insert_message`;
* `write`: a call of `flex_pc_usb_write`, and what `usb_bulk_write` returns;
* `arrive`: a call of `flex_pc_usb_read` comes to `get_message`;
* `wake`: a call that sleeps there wakes without a signal;
* `resume`: a call that was woken there has its turn;
* `empty`: a call behind it has its turn in `empty_channel_queue`. -/
inductive Event where
  | receive
  | insert (pick : Nat)
  | write (written : Int)
  | arrive (ch : UInt8) (reader : Reader)
  | wake (ch : UInt8) (pick : Nat)
  | resume (ch : UInt8) (pick : Nat)
  | empty (ch : UInt8)

/-- Behind `flex_pc_usb_init`. -/
def start (partMsg : PartMsg) (arriving : List (Int × List UInt8)) : Link where
  locked := false
  writes := 0
  arriving := arriving
  thread := ⟨partMsg.cells, 0, []⟩
  made := 0
  ports := fun _ => Port.init

/-- A section on a channel. -/
def Link.access (link : Link) (ch : UInt8) (action : Access) : Option Link := do
  let port ← (link.ports ch).perform action
  some { link with ports := Function.update link.ports ch port }

/-- One event. The thread reads no packet before it has made its calls of `insert_message`. A
read that fails, as when no packet comes, changes nothing. -/
def perform (link : Link) : Event → Option Link
  | .receive =>
    if link.locked ∨ link.made < link.thread.calls.length then some link
    else
      match link.arriving with
      | [] => some link
      | read :: arriving => do
        let thread ← masterPass link.thread read
        some { link with arriving := arriving, thread := thread }
  | .insert pick =>
    match link.thread.calls[link.made]? with
    | none => some link
    | some call => do
      let link ← link.access call.channel (.insert call.message pick)
      some { link with made := link.made + 1 }
  | .write written =>
    if link.locked then some link
    else some { link with locked := decide (written < 0), writes := link.writes + 1 }
  | .arrive ch reader => link.access ch (.arrive reader)
  | .wake ch pick => link.access ch (.wake pick)
  | .resume ch pick => link.access ch (.resume pick)
  | .empty ch => link.access ch .empty

/-- One event; an access outside of an array ends everything. -/
def step (link : Option Link) (event : Event) : Option Link :=
  link.bind fun link => perform link event

/-- The messages that some calls of `insert_message` insert on a channel. -/
def insertedOn (ch : UInt8) (calls : List Call) : List (List UInt8) :=
  (calls.filter fun call => call.channel = ch).map Call.message

/-- The messages of a channel among those that are complete within some bytes and accepted. -/
def sentOn (ch : UInt8) (messages : List Message) (count : Nat) : List (List UInt8) :=
  insertedOn ch (((completed messages count).filter fun message =>
    message.Passes).map Message.call)

section Runs

/-- What the sections keep true of every channel, if a call only comes where it may. -/
structure Rule where
  holds : Port → Prop
  admits : Port → Prop
  init : holds Port.init
  step : ∀ port action, holds port → (∀ reader, action = .arrive reader → admits port) →
    ∃ next, port.perform action = some next ∧ holds next

variable (rule : Rule)

/-- A call comes where it may. -/
def Rule.Admitted (link : Link) : Event → Prop
  | .arrive ch _ => rule.admits (link.ports ch)
  | _ => True

/-- The invariant: the thread has read some of the packets and inserted messages in
their order, and every channel is as it should be. What a channel should be is the
rule's, so that one run lemma serves any number of calls and calls one at a time. -/
structure Sound (partMsg : PartMsg) (packets : List Packet) (link : Link) : Prop where
  read : ∃ done rest, packets = done ++ rest ∧ link.arriving = reads rest ∧
    usbThread ⟨partMsg.cells, 0, []⟩ (reads done) = some link.thread
  made : link.made ≤ link.thread.calls.length
  inserted : ∀ ch, (link.ports ch).inserted =
    insertedOn ch (link.thread.calls.take link.made)
  ports : ∀ ch, rule.holds (link.ports ch)

variable (partMsg : PartMsg) (messages : List Message) (packets : List Packet)

/-- Nothing has happened. -/
theorem start_sound : Sound rule partMsg packets (start partMsg (reads packets)) :=
  ⟨⟨[], packets, rfl, rfl, rfl⟩, Nat.le_refl 0, fun _ => rfl, fun _ => rule.init⟩

/-- More bytes complete further messages. -/
theorem completed_first (few many : Nat) (more : few ≤ many) :
    completed messages few <+: completed messages many := by
  induction messages generalizing few many with
  | nil => exact List.prefix_refl _
  | cons message messages inductionHypothesis =>
    by_cases fits : message.bytes.length ≤ few
    · rw [completed, completed, if_pos fits, if_pos (fits.trans more)]
      exact (List.prefix_cons_inj message).mpr
        (inductionHypothesis _ _ (Nat.sub_le_sub_right more _))
    · rw [completed, if_neg fits]
      exact List.nil_prefix

/-- What comes first on the link comes first on a channel. -/
theorem insertedOn_first (ch : UInt8) (calls more : List Call) (first : calls <+: more) :
    insertedOn ch calls <+: insertedOn ch more :=
  (first.filter _).map _

/-- Packets that belong to the stream. -/
theorem received_first (done rest : List Packet)
    (cut : received (done ++ rest) <+: messages.flatMap Message.bytes) :
    received done <+: messages.flatMap Message.bytes := by
  rw [received, List.flatMap_append] at cut
  exact (List.prefix_append _ _).trans cut

/-- The thread keeps the calls it has made. -/
theorem calls_first (done : List Packet) (packet : Packet) (thread after : Thread)
    (cut : received (done ++ [packet]) <+: messages.flatMap Message.bytes)
    (ran : usbThread ⟨partMsg.cells, 0, []⟩ (reads done) = some thread)
    (next : usbThread ⟨partMsg.cells, 0, []⟩ (reads (done ++ [packet])) = some after) :
    thread.calls <+: after.calls := by
  obtain ⟨first, again, calls⟩ := usbThread_accepted partMsg messages done
    (received_first messages done [packet] cut)
  obtain ⟨second, more, callsMore⟩ := usbThread_accepted partMsg messages (done ++ [packet]) cut
  obtain rfl := Option.some.inj (ran.symm.trans again)
  obtain rfl := Option.some.inj (next.symm.trans more)
  rw [calls, callsMore]
  apply List.IsPrefix.map
  apply List.IsPrefix.filter
  apply completed_first
  rw [received, received, List.flatMap_append, List.length_append]
  exact Nat.le_add_right _ _

/-- A packet of the stream is parsed. -/
theorem masterPass_defined (done : List Packet) (packet : Packet) (thread : Thread)
    (cut : received (done ++ [packet]) <+: messages.flatMap Message.bytes)
    (ran : usbThread ⟨partMsg.cells, 0, []⟩ (reads done) = some thread) :
    ∃ after, masterPass thread (64, packet.buf) = some after ∧
      usbThread ⟨partMsg.cells, 0, []⟩ (reads (done ++ [packet])) = some after := by
  obtain ⟨after, next, -⟩ := usbThread_accepted partMsg messages (done ++ [packet]) cut
  refine ⟨after, ?_, next⟩
  rw [reads, List.map_append, usbThread, List.foldlM_append] at next
  rw [usbThread, reads] at ran
  rw [ran] at next
  simpa using next

/-- What an event does to the link, if it is defined: nothing; or a packet is parsed; or something
is written; or a message is inserted; or a call takes its turn on a channel. -/
theorem perform_cases (link next : Link) (event : Event) (made : perform link event = some next) :
    next = link ∨
    (∃ read arriving thread, event = .receive ∧ link.locked = false ∧
      link.thread.calls.length ≤ link.made ∧ link.arriving = read :: arriving ∧
      masterPass link.thread read = some thread ∧
      next = { link with arriving := arriving, thread := thread }) ∨
    (∃ written, event = .write written ∧ link.locked = false ∧
      next = { link with locked := decide (written < 0), writes := link.writes + 1 }) ∨
    (∃ pick call port, event = .insert pick ∧ link.thread.calls[link.made]? = some call ∧
      (link.ports call.channel).perform (.insert call.message pick) = some port ∧
      next = { link with
        ports := Function.update link.ports call.channel port, made := link.made + 1 }) ∨
    ∃ ch action port, (∀ buf pick, action ≠ .insert buf pick) ∧
      (∀ reader, action = .arrive reader → event = .arrive ch reader) ∧
      (∀ pick, action = .wake pick → event = .wake ch pick) ∧
      (link.ports ch).perform action = some port ∧
      next = { link with ports := Function.update link.ports ch port } := by
  have accessed : ∀ ch action, link.access ch action = some next →
      (∀ buf pick, action ≠ .insert buf pick) →
      (∀ reader, action = .arrive reader → event = .arrive ch reader) →
      (∀ pick, action = .wake pick → event = .wake ch pick) →
      ∃ ch action port, (∀ buf pick, action ≠ .insert buf pick) ∧
        (∀ reader, action = .arrive reader → event = .arrive ch reader) ∧
        (∀ pick, action = .wake pick → event = .wake ch pick) ∧
        (link.ports ch).perform action = some port ∧
        next = { link with ports := Function.update link.ports ch port } := by
    intro ch action made other arrives wakes
    obtain ⟨port, performed, made⟩ := Option.bind_eq_some_iff.mp made
    exact ⟨ch, action, port, other, arrives, wakes, performed, (Option.some.inj made).symm⟩
  cases event with
  | receive =>
    rw [perform] at made
    split at made
    · exact .inl (Option.some.inj made).symm
    · next free =>
      rw [not_or, Bool.not_eq_true, Nat.not_lt] at free
      split at made
      · exact .inl (Option.some.inj made).symm
      · next read arriving some =>
        obtain ⟨thread, parsed, made⟩ := Option.bind_eq_some_iff.mp made
        exact .inr (.inl ⟨read, arriving, thread, rfl, free.1, free.2, some, parsed,
          (Option.some.inj made).symm⟩)
  | insert pick =>
    rw [perform] at made
    split at made
    · exact .inl (Option.some.inj made).symm
    · next call listed =>
      obtain ⟨between, accessed, made⟩ := Option.bind_eq_some_iff.mp made
      obtain ⟨port, performed, accessed⟩ := Option.bind_eq_some_iff.mp accessed
      obtain rfl := Option.some.inj accessed
      exact .inr (.inr (.inr (.inl ⟨pick, call, port, rfl, listed, performed,
        (Option.some.inj made).symm⟩)))
  | write written =>
    rw [perform] at made
    split at made
    · exact .inl (Option.some.inj made).symm
    · next free =>
      rw [Bool.not_eq_true] at free
      exact .inr (.inr (.inl ⟨written, rfl, free, (Option.some.inj made).symm⟩))
  | arrive ch reader =>
    apply Or.inr ∘ Or.inr ∘ Or.inr ∘ Or.inr
    apply accessed ch (.arrive reader) made
    · exact fun _ _ => Access.noConfusion
    · intro other same
      cases same
      rfl
    · exact fun _ => Access.noConfusion
  | wake ch pick =>
    apply Or.inr ∘ Or.inr ∘ Or.inr ∘ Or.inr
    apply accessed ch (.wake pick) made
    · exact fun _ _ => Access.noConfusion
    · exact fun _ => Access.noConfusion
    · intro other same
      cases same
      rfl
  | resume ch pick =>
    apply Or.inr ∘ Or.inr ∘ Or.inr ∘ Or.inr
    apply accessed ch (.resume pick) made
    · exact fun _ _ => Access.noConfusion
    · exact fun _ => Access.noConfusion
    · exact fun _ => Access.noConfusion
  | empty ch =>
    apply Or.inr ∘ Or.inr ∘ Or.inr ∘ Or.inr
    apply accessed ch .empty made
    · exact fun _ _ => Access.noConfusion
    · exact fun _ => Access.noConfusion
    · exact fun _ => Access.noConfusion

/-- A section is defined where the rule holds. -/
theorem access_defined (link : Link) (ch : UInt8) (action : Access)
    (holds : rule.holds (link.ports ch))
    (admitted : ∀ reader, action = .arrive reader → rule.admits (link.ports ch)) :
    ∃ next, link.access ch action = some next := by
  obtain ⟨port, made, -⟩ := rule.step (link.ports ch) action holds admitted
  exact ⟨_, by rw [Link.access, made]; rfl⟩

/-- Every event is defined, so nothing is read or written outside of an array. What a
packet needs for that comes from the messages it is cut from. -/
theorem perform_defined (link : Link) (event : Event)
    (cut : received packets <+: messages.flatMap Message.bytes)
    (sound : Sound rule partMsg packets link) (admitted : rule.Admitted link event) :
    ∃ next, perform link event = some next := by
  cases event with
  | receive =>
    obtain ⟨done, rest, rfl, arriving, ran⟩ := sound.read
    rw [perform]
    split
    · exact ⟨link, rfl⟩
    · rw [arriving]
      cases rest with
      | nil => exact ⟨link, rfl⟩
      | cons packet rest =>
        rw [List.append_cons] at cut
        obtain ⟨after, parsed, -⟩ := masterPass_defined partMsg messages done packet link.thread
          (received_first messages _ rest cut) ran
        exact ⟨_, by rw [reads, List.map_cons]; dsimp only; rw [parsed]; rfl⟩
  | insert pick =>
    rw [perform]
    split
    · exact ⟨link, rfl⟩
    · next call listed =>
      obtain ⟨next, made⟩ := access_defined rule link call.channel (.insert call.message pick)
        (sound.ports _) fun _ => Access.noConfusion
      exact ⟨_, by rw [made]; rfl⟩
  | write written =>
    rw [perform]
    split
    · exact ⟨link, rfl⟩
    · exact ⟨_, rfl⟩
  | arrive ch reader =>
    exact access_defined rule link ch (.arrive reader) (sound.ports ch) fun _ _ => admitted
  | wake ch pick =>
    exact access_defined rule link ch (.wake pick) (sound.ports ch) fun _ => Access.noConfusion
  | resume ch pick =>
    exact access_defined rule link ch (.resume pick) (sound.ports ch) fun _ => Access.noConfusion
  | empty ch =>
    exact access_defined rule link ch .empty (sound.ports ch) fun _ => Access.noConfusion

/-- An event keeps the link sound. The cases are the events; those on one channel are
left to the rule that is followed there. -/
theorem perform_sound (link next : Link) (event : Event)
    (cut : received packets <+: messages.flatMap Message.bytes)
    (sound : Sound rule partMsg packets link) (admitted : rule.Admitted link event)
    (made : perform link event = some next) : Sound rule partMsg packets next := by
  have changed : ∀ ch action port, (link.ports ch).perform action = some port →
      (∀ reader, action = .arrive reader → rule.admits (link.ports ch)) →
      ∀ other, rule.holds (Function.update link.ports ch port other) := by
    intro ch action port performed admits other
    by_cases same : other = ch
    · subst same
      obtain ⟨port', performed', holds⟩ := rule.step _ action (sound.ports other) admits
      obtain rfl := Option.some.inj (performed.symm.trans performed')
      rwa [Function.update_self]
    · rw [Function.update_of_ne same]
      exact sound.ports other
  rcases perform_cases link next event made with rfl |
    ⟨read, arriving, thread, rfl, -, finished, more, parsed, rfl⟩ |
    ⟨written, -, -, rfl⟩ | ⟨pick, call, port, rfl, listed, performed, rfl⟩ |
    ⟨ch, action, port, other, arrives, -, performed, rfl⟩
  · exact sound
  · obtain ⟨done, rest, rfl, arrived, ran⟩ := sound.read
    rw [more] at arrived
    cases rest with
    | nil => cases arrived
    | cons packet rest =>
      rw [reads, List.map_cons] at arrived
      obtain ⟨rfl, rfl⟩ := List.cons.inj arrived
      rw [List.append_cons] at cut
      have inside := received_first messages _ rest cut
      obtain ⟨after, parsed', ranNext⟩ :=
        masterPass_defined partMsg messages done packet link.thread inside ran
      obtain rfl := Option.some.inj (parsed.symm.trans parsed')
      have longer := calls_first partMsg messages done packet link.thread thread inside ran
        ranNext
      refine ⟨⟨done ++ [packet], rest, List.append_cons .., rfl, ranNext⟩,
        sound.made.trans longer.length_le, ?_, sound.ports⟩
      intro ch
      have whole : link.made = link.thread.calls.length := Nat.le_antisymm sound.made finished
      obtain ⟨later, rfl'⟩ := longer
      have taken : thread.calls.take link.made = link.thread.calls.take link.made := by
        rw [← rfl', whole, List.take_left, List.take_length]
      dsimp only
      rw [taken]
      exact sound.inserted ch
  · exact ⟨sound.read, sound.made, sound.inserted, sound.ports⟩
  · obtain ⟨inside, rfl⟩ := List.getElem?_eq_some_iff.mp listed
    refine ⟨sound.read, inside, ?_, changed _ _ port performed fun _ => Access.noConfusion⟩
    intro ch
    have inserted := perform_inserted _ port _ performed
    dsimp only at inserted ⊢
    rw [List.take_add_one, List.getElem?_eq_getElem inside, Option.toList_some, insertedOn,
      List.filter_append, List.map_append, ← insertedOn, ← sound.inserted ch]
    by_cases here : link.thread.calls[link.made].channel = ch
    · subst here
      rw [Function.update_self, inserted]
      simp
    · rw [Function.update_of_ne (Ne.symm here)]
      simp [here]
  · have admits : ∀ reader, action = .arrive reader → rule.admits (link.ports ch) := by
      intro reader same
      have arrived := arrives reader same
      subst arrived
      exact admitted
    refine ⟨sound.read, sound.made, ?_, changed ch action port performed admits⟩
    intro ch'
    by_cases here : ch' = ch
    · subst here
      have inserted := perform_inserted _ port action performed
      dsimp only
      rw [Function.update_self, inserted]
      cases action with
      | insert buf pick => exact absurd rfl (other buf pick)
      | arrive reader => exact sound.inserted ch'
      | wake pick => exact sound.inserted ch'
      | resume pick => exact sound.inserted ch'
      | empty => exact sound.inserted ch'
    · dsimp only
      rw [Function.update_of_ne here]
      exact sound.inserted ch'

/-- The link between two events, seen from the run: no access has been outside of an
array, and the invariant holds. -/
def Holds (link : Option Link) : Prop := ∃ known, link = some known ∧
  Sound rule partMsg packets known

/-- A call comes where it may, in a run. Whether calls may overlap is up to the rule
that is followed. -/
def AdmittedIn (link : Option Link) (event : Event) : Prop :=
  ∀ known, link = some known → rule.Admitted known event

/-- An event is defined and keeps the link sound. A packet that is read has its messages
inserted one by one in the events that follow; each touches a single channel. -/
theorem holds_step (link : Option Link) (event : Event)
    (cut : received packets <+: messages.flatMap Message.bytes)
    (holds : Holds rule partMsg packets link) (admitted : AdmittedIn rule link event) :
    Holds rule partMsg packets (step link event) := by
  obtain ⟨known, rfl, sound⟩ := holds
  have may := admitted known rfl
  obtain ⟨next, made⟩ := perform_defined rule partMsg messages packets known event cut sound may
  exact ⟨next, made, perform_sound rule partMsg messages packets known next event cut sound may
    made⟩

/-- A run is defined, and the link is sound at its end. Packets are given by the stream
they are cut from, so the thread's own invariant can be used at every point. -/
theorem run_sound (events : List Event)
    (cut : received packets <+: messages.flatMap Message.bytes)
    (admitted : Throughout step (AdmittedIn rule) (some (start partMsg (reads packets))) events) :
    Holds rule partMsg packets (run step (some (start partMsg (reads packets))) events) := by
  have reached := reached_of_invariant step (AdmittedIn rule) (Holds rule partMsg packets)
    (fun link event => holds_step rule partMsg messages packets link event cut) _ events
    ⟨_, rfl, start_sound rule partMsg packets⟩ admitted
  exact reached events [] (List.append_nil _).symm

/-- The packets that the thread has read. -/
def arrived (link : Link) : List Packet := packets.take (packets.length - link.arriving.length)

/-- What was inserted on a channel was sent on it. -/
theorem inserted_sent (link : Link) (ch : UInt8)
    (cut : received packets <+: messages.flatMap Message.bytes)
    (sound : Sound rule partMsg packets link) :
    (link.ports ch).inserted <+: sentOn ch messages (received (arrived packets link)).length := by
  obtain ⟨done, rest, rfl, arriving, ran⟩ := sound.read
  have read : arrived (done ++ rest) link = done := by
    rw [arrived, arriving, reads, List.length_map, List.length_append, Nat.add_sub_cancel,
      List.take_left]
  obtain ⟨after, again, calls⟩ := usbThread_accepted partMsg messages done
    (received_first messages done rest cut)
  obtain rfl := Option.some.inj (ran.symm.trans again)
  rw [sound.inserted ch, read, sentOn, ← calls]
  exact insertedOn_first ch _ _ (List.take_prefix _ _)

/-- The messages of the link have room as a whole. -/
theorem sent_kept (ch : UInt8) (count : Nat) :
    (sentOn ch messages count).map kept = sentOn ch messages count := by
  rw [List.map_congr_left (g := id), List.map_id]
  intro bytes member
  obtain ⟨call, listed, rfl⟩ := List.mem_map.mp member
  obtain ⟨message, -, rfl⟩ := List.mem_map.mp (List.mem_filter.mp listed).1
  exact kept_eq _ (call_kept message)

/-- What was inserted is stored as it was sent. -/
theorem kept_sent (link : Link) (ch : UInt8)
    (cut : received packets <+: messages.flatMap Message.bytes)
    (sound : Sound rule partMsg packets link) :
    (link.ports ch).inserted.map kept <+:
      sentOn ch messages (received (arrived packets link)).length := by
  have sent := (inserted_sent rule partMsg messages packets link ch cut sound).map kept
  rwa [sent_kept] at sent

end Runs

section Delivery

variable (partMsg : PartMsg) (messages : List Message) (packets : List Packet)

/-- Any number of calls may come to a channel. -/
def many : Rule where
  holds port := ∃ box, Serves port box
  admits _ := True
  init := ⟨[], init_represents, fun some => absurd rfl some, [], .nil, List.nil_subperm⟩
  step port action holds _ := by
    obtain ⟨box, serves⟩ := holds
    obtain ⟨next, boxNext, made, servesNext⟩ := serves_step port action box serves
    exact ⟨next, made, boxNext, servesNext⟩

/-- A call only comes to a channel when there is no other one. -/
def single : Rule where
  holds port := ∃ box, Orderly port box
  admits port := port.asleep = [] ∧ port.woken = [] ∧ port.emptying = 0
  init := ⟨[], init_represents, Nat.zero_le 1, Nat.le_refl 0, fun _ => rfl, [], .nil,
    List.nil_sublist _⟩
  step port action holds admitted := by
    obtain ⟨box, orderly⟩ := holds
    have alone : Single port action := by
      cases action with
      | arrive reader => exact admitted reader rfl
      | insert buf pick => trivial
      | wake pick => trivial
      | resume pick => trivial
      | empty => trivial
    obtain ⟨next, boxNext, made, orderlyNext, -⟩ := orderly_step port action box orderly alone
    exact ⟨next, made, boxNext, orderlyNext⟩

/-- Beside a message no call sleeps unless another one is on its way: one that has been
woken, or one that is emptying the channel. -/
def Awake (port : Port) : Prop :=
  port.channel.empty = false → port.asleep ≠ [] → port.woken ≠ [] ∨ 0 < port.emptying

/-- Any number of calls, in any order with the thread: nothing outside of an array is touched,
what the calls on a channel get are first bytes of messages that were sent on it and have
arrived, no message is gotten twice, and no call sleeps on beside a message. -/
theorem messages_served (cut : received packets <+: messages.flatMap Message.bytes)
    (events : List Event) :
    ∃ link, run step (some (start partMsg (reads packets))) events = some link ∧
      ∀ ch, (∃ taken, Answered (link.ports ch).answers taken ∧
          taken.Subperm (sentOn ch messages (received (arrived packets link)).length)) ∧
        Awake (link.ports ch) := by
  have admitted : Throughout step (AdmittedIn many) (some (start partMsg (reads packets)))
      events := by
    intro done event rest _ known _
    cases event <;> trivial
  obtain ⟨link, ran, sound⟩ := run_sound many partMsg messages packets events cut admitted
  refine ⟨link, ran, ?_⟩
  intro ch
  obtain ⟨box, represents, awake, taken, answered, known⟩ := sound.ports ch
  constructor
  · have sent := kept_sent many partMsg messages packets link ch cut sound
    have few : taken.Subperm (taken ++ box) := (List.sublist_append_left taken box).subperm
    exact ⟨taken, answered, few.trans (known.trans sent.sublist.subperm)⟩
  · intro some
    apply awake
    intro none
    rw [(empty_represents _ box represents).mpr none] at some
    cases some

/-- An empty `part_msg`. -/
def zeroPartMsg : PartMsg := ⟨List.replicate 300 0, List.length_replicate⟩

/-- Two messages on channel 7. -/
def twoMessages : List Message := [⟨[5], by decide, 7, 0⟩, ⟨[6], by decide, 7, 0⟩]

/-- They come in one packet. -/
def onePacket : List Packet :=
  [⟨[header, 1, 5, 7, 13, 0, header, 1, 6, 7, 14, 0], List.replicate 50 0, by decide, by decide⟩]

/-- The packet has the bytes of the messages. -/
theorem onePacket_cut : received onePacket <+: twoMessages.flatMap Message.bytes :=
  ⟨[], by decide⟩

/-- Two calls sleep when the messages come. -/
def twoCalls : List Event :=
  [.arrive 7 ⟨64, true⟩, .arrive 7 ⟨64, false⟩, .receive, .insert 0, .insert 0, .resume 7 0,
    .empty 7]

/-- One of them gets the newer message, and the other one sleeps on beside an empty channel. -/
theorem two_calls_served :
    ∃ link, run step (some (start zeroPartMsg (reads onePacket))) twoCalls = some link ∧
      ∀ ch, (∃ taken, Answered (link.ports ch).answers taken ∧
          taken.Subperm (sentOn ch twoMessages (received (arrived onePacket link)).length)) ∧
        Awake (link.ports ch) :=
  messages_served zeroPartMsg twoMessages onePacket onePacket_cut twoCalls

/-- If a call gets something in this event, it is of the recent messages of its channel the one
that it wants. -/
def AnswersFresh (link : Option Link) (event : Event) : Prop :=
  ∀ known next, link = some known → perform known event = some next →
    ∀ ch, Fresh (known.ports ch) (next.ports ch)

/-- An event on a link with one call at a time on each channel. Only the event of the
call's own channel can answer it, so the others are fresh for want of an answer. -/
theorem fresh_step (link next : Link) (event : Event) (sound : Sound single partMsg packets link)
    (admitted : single.Admitted link event) (made : perform link event = some next)
    (ch : UInt8) : Fresh (link.ports ch) (next.ports ch) := by
  have fresh : ∀ action port, (link.ports ch).perform action = some port →
      Single (link.ports ch) action → Fresh (link.ports ch) port := by
    intro action port performed alone
    obtain ⟨box, orderly⟩ := sound.ports ch
    obtain ⟨port', -, performed', -, fresh⟩ := orderly_step _ action box orderly alone
    obtain rfl := Option.some.inj (performed.symm.trans performed')
    exact fresh
  rcases perform_cases link next event made with rfl |
    ⟨read, arriving, thread, rfl, -, -, -, -, rfl⟩ | ⟨written, -, -, rfl⟩ |
    ⟨pick, call, port, rfl, -, performed, rfl⟩ | ⟨other, action, port, -, arrives, -, performed, rfl⟩
  · exact .inl rfl
  · exact .inl rfl
  · exact .inl rfl
  · by_cases here : ch = call.channel
    · subst here
      dsimp only
      rw [Function.update_self]
      exact fresh _ port performed trivial
    · left
      dsimp only
      rw [Function.update_of_ne here]
  · by_cases here : ch = other
    · subst here
      dsimp only
      rw [Function.update_self]
      apply fresh action port performed
      cases action with
      | arrive reader =>
        have arrived := arrives reader rfl
        subst arrived
        exact admitted
      | insert buf pick => trivial
      | wake pick => trivial
      | resume pick => trivial
      | empty => trivial
    · left
      dsimp only
      rw [Function.update_of_ne here]

/-- One call at a time on each channel, in any order with the thread: what the calls on a
channel get are first bytes of messages that were sent on it and have arrived, in the order in
which they were sent. Each call gets the newest or the oldest one, as it wants, of the last nine
messages inserted since the call before it emptied the channel. -/
theorem calls_get_fresh (cut : received packets <+: messages.flatMap Message.bytes)
    (events : List Event)
    (alone : Throughout step (AdmittedIn single) (some (start partMsg (reads packets))) events) :
    (∃ link, run step (some (start partMsg (reads packets))) events = some link ∧
      ∀ ch, ∃ taken, Answered (link.ports ch).answers taken ∧
        taken.Sublist (sentOn ch messages (received (arrived packets link)).length)) ∧
      Throughout step AnswersFresh (some (start partMsg (reads packets))) events := by
  constructor
  · obtain ⟨link, ran, sound⟩ := run_sound single partMsg messages packets events cut alone
    refine ⟨link, ran, ?_⟩
    intro ch
    obtain ⟨box, orderly⟩ := sound.ports ch
    obtain ⟨taken, answered, ordered⟩ := orderly.inOrder
    have sent := kept_sent single partMsg messages packets link ch cut sound
    exact ⟨taken, answered, (ordered.trans (List.take_sublist _ _)).trans sent.sublist⟩
  · apply throughout_of_invariant step (AdmittedIn single) (Holds single partMsg packets)
      AnswersFresh (fun link event => holds_step single partMsg messages packets link event cut)
      ?_ _ events ⟨_, rfl, start_sound single partMsg packets⟩ alone
    intro link event holds admitted known next same made ch
    subst same
    obtain ⟨link, same, sound⟩ := holds
    obtain rfl := Option.some.inj same
    exact fresh_step partMsg packets known next event sound (admitted known rfl) made ch

/-- A call sleeps when the messages come. -/
def oneCall : List Event :=
  [.arrive 7 ⟨64, true⟩, .receive, .insert 0, .insert 0, .resume 7 0, .empty 7]

/-- Nobody comes beside it. -/
theorem oneCall_alone : Throughout step (AdmittedIn single)
    (some (start zeroPartMsg (reads onePacket))) oneCall := by
  rw [oneCall, throughout_cons]
  constructor
  · intro known same
    obtain rfl := Option.some.inj same
    exact ⟨rfl, rfl, rfl⟩
  · intro done event rest split known _
    cases event with
    | arrive ch reader =>
      have listed : Event.arrive ch reader ∈
          [Event.receive, .insert 0, .insert 0, .resume 7 0, .empty 7] := by
        rw [split]
        exact List.mem_append_right _ (List.mem_cons_self ..)
      simp at listed
    | receive => trivial
    | insert pick => trivial
    | write written => trivial
    | wake ch pick => trivial
    | resume ch pick => trivial
    | empty ch => trivial

/-- It gets the newer one. -/
theorem newer_message_gotten :
    (∃ link, run step (some (start zeroPartMsg (reads onePacket))) oneCall = some link ∧
      ∀ ch, ∃ taken, Answered (link.ports ch).answers taken ∧
        taken.Sublist (sentOn ch twoMessages (received (arrived onePacket link)).length)) ∧
      Throughout step AnswersFresh (some (start zeroPartMsg (reads onePacket))) oneCall :=
  calls_get_fresh zeroPartMsg twoMessages onePacket onePacket_cut oneCall oneCall_alone

example : (run step (some (start zeroPartMsg (reads onePacket))) oneCall).map
    (fun link => (link.ports 7).answers) = some [(⟨64, true⟩, [1, 6])] := by
  decide +kernel

end Delivery

section FailedWrites

/-- While `usb_bus_mutex` is not given back, nothing is read or written, since both the
thread and the writing calls wait for it. -/
structure Locked (writes : Nat) (arriving : List (Int × List UInt8)) (thread : Thread)
    (link : Link) : Prop where
  locked : link.locked = true
  writes : link.writes = writes
  arriving : link.arriving = arriving
  thread : link.thread = thread

/-- Nobody gives it back: the section that failed has returned, and all others begin
with taking it. -/
theorem locked_step (writes : Nat) (arriving : List (Int × List UInt8)) (thread : Thread)
    (link next : Link) (event : Event) (stays : Locked writes arriving thread link)
    (made : perform link event = some next) : Locked writes arriving thread next := by
  obtain ⟨locked, written, unread, kept⟩ := stays
  rcases perform_cases link next event made with rfl |
    ⟨read, later, after, rfl, free, -, -, -, rfl⟩ | ⟨count, -, free, rfl⟩ |
    ⟨pick, call, port, rfl, -, -, rfl⟩ | ⟨other, action, port, -, -, -, -, rfl⟩
  · exact ⟨locked, written, unread, kept⟩
  · rw [locked] at free
    cases free
  · rw [locked] at free
    cases free
  · exact ⟨locked, written, unread, kept⟩
  · exact ⟨locked, written, unread, kept⟩

/-- A channel without a message, when the thread has nothing left to insert: no further
call gets anything, and those that sleep stay in `get_message`, for good where no wakeup
comes out of nothing. -/
structure Silent (ch : UInt8) (answers : List (Reader × List UInt8)) (asleep : List Reader)
    (link : Link) : Prop where
  locked : link.locked = true
  finished : link.thread.calls.length ≤ link.made
  empty : (link.ports ch).channel.empty = true
  answers : (link.ports ch).answers = answers
  inside : asleep.Subperm ((link.ports ch).asleep ++ (link.ports ch).woken)

/-- A call on a channel without a message sleeps. -/
theorem attempt_empty (port next : Port) (reader : Reader) (empty : port.channel.empty = true)
    (made : port.attempt reader = some next) :
    next = { port with asleep := port.asleep ++ [reader] } := by
  rw [Port.attempt, if_pos empty] at made
  exact (Option.some.inj made).symm

/-- A signal lets nobody out. -/
theorem signal_inside (port : Port) (pick : Nat) : (port.asleep ++ port.woken).Perm
    ((port.signal pick).asleep ++ (port.signal pick).woken) := by
  rcases signal_cases port pick with ⟨-, same⟩ | ⟨before, reader, after, asleep, signalled⟩
  · rw [same]
  · rw [signalled, asleep, List.append_assoc, List.append_assoc, List.cons_append,
      ← List.append_assoc after]
    apply List.Perm.append_left
    exact (List.perm_append_singleton reader (after ++ port.woken)).symm

/-- On a channel without a message no section but an insertion gives a call anything, and no
call leaves `get_message`; without a wakeup out of nothing those that sleep sleep on. -/
theorem perform_empty (port next : Port) (action : Access)
    (other : ∀ buf pick, action ≠ .insert buf pick) (empty : port.channel.empty = true)
    (made : port.perform action = some next) :
    next.channel.empty = true ∧ next.answers = port.answers ∧
      (port.asleep ++ port.woken).Subperm (next.asleep ++ next.woken) ∧
      ((∀ pick, action ≠ .wake pick) → port.asleep <+: next.asleep) := by
  cases action with
  | insert buf pick => exact absurd rfl (other buf pick)
  | arrive reader =>
    obtain rfl := attempt_empty port next reader empty made
    refine ⟨empty, rfl, ?_, fun _ => List.prefix_append _ _⟩
    exact ((List.sublist_append_left _ _).append_right _).subperm
  | wake pick =>
    obtain rfl := Option.some.inj made
    obtain ⟨same, -, answers⟩ := signal_frame port pick
    refine ⟨?_, answers, (signal_inside port pick).subperm, fun none => absurd rfl (none pick)⟩
    rw [same]
    exact empty
  | resume pick =>
    rw [Port.perform] at made
    split at made
    · next reader woken =>
      obtain rfl := attempt_empty _ next _ (by exact empty) made
      refine ⟨empty, rfl, ?_, fun _ => List.prefix_append _ _⟩
      -- The call that runs goes from the end of one list to the end of the other.
      have taken : port.woken.Perm (reader :: port.woken.eraseIdx pick) := by
        obtain ⟨inside, rfl⟩ := List.getElem?_eq_some_iff.mp woken
        exact (List.getElem_cons_eraseIdx_perm inside).symm
      dsimp only
      rw [List.append_assoc, List.singleton_append]
      exact (taken.append_left port.asleep).subperm
    · obtain rfl := Option.some.inj made
      exact ⟨empty, rfl, List.Subperm.refl _, fun _ => List.prefix_refl _⟩
  | empty =>
    rw [Port.perform] at made
    split at made
    · obtain rfl := Option.some.inj made
      exact ⟨empty, rfl, List.Subperm.refl _, fun _ => List.prefix_refl _⟩
    · obtain rfl := Option.some.inj made
      exact ⟨rfl, rfl, List.Subperm.refl _, fun _ => List.prefix_refl _⟩

/-- Such a channel stays as it is. No message can be inserted any more, and a call that
wakes without a signal finds none and goes to sleep again, behind the others. -/
theorem silent_step (ch : UInt8) (answers : List (Reader × List UInt8)) (asleep : List Reader)
    (link next : Link) (event : Event) (silent : Silent ch answers asleep link)
    (made : perform link event = some next) :
    Silent ch answers asleep next ∧
      ((∀ pick, event ≠ .wake ch pick) → (link.ports ch).asleep <+: (next.ports ch).asleep) := by
  obtain ⟨locked, finished, empty, gotten, inside⟩ := silent
  rcases perform_cases link next event made with rfl |
    ⟨read, later, after, rfl, free, -, -, -, rfl⟩ | ⟨count, -, free, rfl⟩ |
    ⟨pick, call, port, rfl, listed, -, rfl⟩ | ⟨other, action, port, calls, -, wakes, performed, rfl⟩
  · exact ⟨⟨locked, finished, empty, gotten, inside⟩, fun _ => List.prefix_refl _⟩
  · rw [locked] at free
    cases free
  · rw [locked] at free
    cases free
  · rw [List.getElem?_eq_none finished] at listed
    cases listed
  · by_cases here : ch = other
    · subst here
      obtain ⟨emptyNext, same, stay, longer⟩ := perform_empty _ port action calls empty performed
      refine ⟨⟨locked, finished, ?_, ?_, ?_⟩, ?_⟩ <;> dsimp only <;> rw [Function.update_self]
      · exact emptyNext
      · rw [same, gotten]
      · exact inside.trans stay
      · exact fun none => longer fun pick is => none pick (wakes pick is)
    · refine ⟨⟨locked, finished, ?_, ?_, ?_⟩, ?_⟩ <;> dsimp only <;>
        rw [Function.update_of_ne here]
      · exact empty
      · exact gotten
      · exact inside
      · exact fun _ => List.prefix_refl _

/-- What every defined event of a kind keeps holds at the end of a run of such events. -/
theorem run_kept (kind : Event → Prop) (P : Link → Prop) (known : Link) (link : Link)
    (events : List Event) (all : ∀ event ∈ events, kind event)
    (kept : ∀ link next event, kind event → P link → perform link event = some next → P next)
    (initial : P known) (ran : run step (some known) events = some link) : P link := by
  have reached := reached_of_invariant step (fun _ event => kind event)
    (fun link => ∀ known, link = some known → P known) ?_ (some known) events ?_ ?_
  · exact reached events [] (List.append_nil _).symm link ran
  · intro link event holds fits next made
    obtain ⟨before, rfl, performed⟩ := Option.bind_eq_some_iff.mp made
    exact kept before next event fits (holds before rfl) performed
  · intro other same
    exact Option.some.inj same ▸ initial
  · intro done event rest split
    exact all event (split ▸ List.mem_append_right _ (List.mem_cons_self ..))

/-- A write fails: it is the last one, no further packet is read, and no call gets more than the
messages that have arrived by then. Once the thread has inserted those, a channel without a
message remains so: its calls stay in `get_message`, and sleep for good unless they wake without
a signal, and then they go to sleep again. -/
theorem failed_write_ends (partMsg : PartMsg) (messages : List Message) (packets : List Packet)
    (cut : received packets <+: messages.flatMap Message.bytes) (before after : List Event)
    (written : Int) (failed : written < 0) :
    ∃ known link, run step (some (start partMsg (reads packets))) before = some known ∧
      run step (some (start partMsg (reads packets))) (before ++ .write written :: after) =
        some link ∧
      link.writes ≤ known.writes + 1 ∧ link.arriving = known.arriving ∧
      (∀ ch, ∃ taken, Answered (link.ports ch).answers taken ∧
        taken.Subperm (sentOn ch messages (received (arrived packets known)).length)) ∧
      ∀ middle rest, after = middle ++ rest → ∀ late,
        run step (some (start partMsg (reads packets))) (before ++ .write written :: middle) =
          some late →
        late.thread.calls.length ≤ late.made → ∀ ch, (late.ports ch).channel.empty = true →
          (link.ports ch).answers = (late.ports ch).answers ∧
            (late.ports ch).asleep.Subperm ((link.ports ch).asleep ++ (link.ports ch).woken) ∧
            ((∀ pick, .wake ch pick ∉ rest) →
              (late.ports ch).asleep <+: (link.ports ch).asleep) := by
  obtain ⟨known, ranBefore, -⟩ := messages_served partMsg messages packets cut before
  obtain ⟨link, ran, served⟩ := messages_served partMsg messages packets cut
    (before ++ .write written :: after)
  have behind : ∃ next, step (some known) (.write written) = some next ∧
      next.writes ≤ known.writes + 1 ∧
      Locked next.writes known.arriving known.thread next := by
    have performed : step (some known) (.write written) =
      if known.locked then some known
      else some { known with locked := decide (written < 0), writes := known.writes + 1 } := rfl
    rw [performed]
    split
    · next locked =>
      exact ⟨known, rfl, Nat.le_succ _, locked, rfl, rfl, rfl⟩
    · exact ⟨_, rfl, Nat.le_refl _, decide_eq_true failed, rfl, rfl, rfl⟩
  obtain ⟨next, stepped, few, locked⟩ := behind
  have parts : ∀ later, run step (some (start partMsg (reads packets)))
      (before ++ .write written :: later) = run step (some next) later := by
    intro later
    rw [run_append, ranBefore, run_cons, stepped]
  have stays : ∀ later last, run step (some next) later = some last →
      Locked next.writes known.arriving known.thread last := by
    intro later last ranLater
    exact run_kept (fun _ => True) _ next last later (fun _ _ => trivial)
      (fun link after event _ => locked_step next.writes known.arriving known.thread link after event)
      locked ranLater
  have atEnd := stays after link (by rw [← parts, ran])
  refine ⟨known, link, ranBefore, ran, by rw [atEnd.writes]; exact few, atEnd.arriving, ?_, ?_⟩
  · intro ch
    have got := (served ch).1
    rwa [arrived, atEnd.arriving, ← arrived] at got
  · intro middle rest split late ranMiddle finished ch empty
    have lateLocked := stays middle late (by rw [← parts, ranMiddle])
    have ranRest : run step (some late) rest = some link := by
      rw [parts, split, run_append, ← parts, ranMiddle] at ran
      exact ran
    have first : Silent ch (late.ports ch).answers (late.ports ch).asleep late :=
      ⟨lateLocked.locked, finished, empty, rfl, (List.sublist_append_left _ _).subperm⟩
    have silent := run_kept (fun _ => True) _ late link rest (fun _ _ => trivial)
      (fun link after event _ silent made => (silent_step ch _ _ link after event silent made).1)
      first ranRest
    refine ⟨silent.answers, silent.inside, fun undisturbed => ?_⟩
    exact (run_kept (fun event => ∀ pick, event ≠ .wake ch pick)
      (fun link => Silent ch (late.ports ch).answers (late.ports ch).asleep link ∧
        (late.ports ch).asleep <+: (link.ports ch).asleep) late link rest
      (fun event member pick is => undisturbed pick (is ▸ member))
      (fun link after event quiet both made =>
        have stepped := silent_step ch _ _ link after event both.1 made
        ⟨stepped.1, both.2.trans (stepped.2 quiet)⟩)
      ⟨first, List.prefix_refl _⟩ ranRest).2

/-- A write fails before the packet is read: it is never read. -/
theorem unread_after_failed_write :
    ∃ known link, run step (some (start zeroPartMsg (reads onePacket))) [] = some known ∧
      run step (some (start zeroPartMsg (reads onePacket))) ([] ++ .write (-110) :: oneCall) =
        some link ∧
      link.writes ≤ known.writes + 1 ∧ link.arriving = known.arriving ∧
      (∀ ch, ∃ taken, Answered (link.ports ch).answers taken ∧
        taken.Subperm (sentOn ch twoMessages (received (arrived onePacket known)).length)) ∧
      ∀ middle rest, oneCall = middle ++ rest → ∀ late,
        run step (some (start zeroPartMsg (reads onePacket))) ([] ++ .write (-110) :: middle) =
          some late →
        late.thread.calls.length ≤ late.made → ∀ ch, (late.ports ch).channel.empty = true →
          (link.ports ch).answers = (late.ports ch).answers ∧
            (late.ports ch).asleep.Subperm ((link.ports ch).asleep ++ (link.ports ch).woken) ∧
            ((∀ pick, .wake ch pick ∉ rest) →
              (late.ports ch).asleep <+: (link.ports ch).asleep) :=
  failed_write_ends zeroPartMsg twoMessages onePacket onePacket_cut [] oneCall (-110) (by decide)

end FailedWrites

end ScicosFlex.LegacyUsb.FlexPcUsb
