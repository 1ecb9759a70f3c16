import Mathlib.Data.List.Perm.Subperm
import ScicosFlex.LegacyUsb.Channels

/-!
# Calls of flex_pc_usb_read

`flex_pc_usb_read` takes a message with `get_message`, and then throws all others away with
`empty_channel_queue`. The two sections of any number of calls on one channel, and the
insertions of the thread, come in any order. `pthread_cond_wait` puts a call to sleep,
`pthread_cond_signal` wakes one of those that sleep, one may also wake without a signal, and
a woken call tests the condition of its loop again when its turn comes.

Only a message that comes to an empty channel is signalled. Since every call empties the
channel, no call sleeps on beside a message all the same (`serves_step`). With one call at a
time, a call never gets a message that was there before the last call (`orderly_step`).
-/

namespace ScicosFlex.LegacyUsb.Readers

open Library.CircularBuffer Channels

/-- What a call of `flex_pc_usb_read` asks for. The length is an `int` in the source; a negative
one, which would reach `memcpy` as a huge count, is left out. -/
structure Reader where
  len : Nat
  readlast : Bool
  deriving DecidableEq

/-- A channel and the calls on it: those that sleep in `get_message`, those that were woken and
have not run since, and the number of those that have left `get_message` and come to
`empty_channel_queue` next.

The rest records what happened: the messages inserted so far, how many of them there were when
the channel was emptied last, and what the calls got. -/
structure Port where
  channel : Channel
  asleep : List Reader
  woken : List Reader
  emptying : Nat
  inserted : List (List UInt8)
  emptied : Nat
  answers : List (Reader × List UInt8)

/-- The sections on a channel. The scheduler picks which call a signal wakes, and which woken
call runs; with `wake` one leaves `pthread_cond_wait` although nobody has signalled. -/
inductive Access where
  | insert (buf : List UInt8) (pick : Nat)
  | arrive (reader : Reader)
  | wake (pick : Nat)
  | resume (pick : Nat)
  | empty

/-- Behind `init_channels_queue`. -/
def Port.init : Port := ⟨initChannel, [], [], 0, [], 0, []⟩

/-- `pthread_cond_signal`: a call that sleeps is woken, if there is any. -/
def Port.signal (port : Port) (pick : Nat) : Port :=
  let pick := pick % port.asleep.length
  match port.asleep[pick]? with
  | some reader =>
    { port with asleep := port.asleep.eraseIdx pick, woken := port.woken ++ [reader] }
  | none => port

/-- A call tests the condition of its loop: it sleeps, or takes a message. -/
def Port.attempt (port : Port) (reader : Reader) : Option Port :=
  if port.channel.empty then some { port with asleep := port.asleep ++ [reader] }
  else do
    let (buf, channel) ← port.channel.getMessage reader.len reader.readlast
    some { port with
      channel := channel
      emptying := port.emptying + 1
      answers := port.answers ++ [(reader, buf)] }

/-- One section. -/
def Port.perform (port : Port) : Access → Option Port
  | .insert buf pick => do
    let (channel, signals) ← port.channel.insertMessage buf buf.length
    let port := { port with channel := channel, inserted := port.inserted ++ [buf] }
    some (if signals then port.signal pick else port)
  | .arrive reader => port.attempt reader
  | .wake pick => some (port.signal pick)
  | .resume pick =>
    match port.woken[pick]? with
    | some reader => { port with woken := port.woken.eraseIdx pick }.attempt reader
    | none => some port
  | .empty =>
    if port.emptying = 0 then some port
    else some { port with
      channel := port.channel.emptyQueue
      emptying := port.emptying - 1
      emptied := port.inserted.length }

/-- A signal concerns the calls that sleep. -/
theorem signal_cases (port : Port) (pick : Nat) :
    (port.asleep = [] ∧ port.signal pick = port) ∨
      ∃ before reader after, port.asleep = before ++ reader :: after ∧
        port.signal pick =
          { port with asleep := before ++ after, woken := port.woken ++ [reader] } := by
  by_cases none : port.asleep = []
  · left
    simp [Port.signal, none]
  · right
    have inside : pick % port.asleep.length < port.asleep.length :=
      Nat.mod_lt _ (List.length_pos_iff.mpr none)
    refine ⟨port.asleep.take (pick % port.asleep.length),
      port.asleep[pick % port.asleep.length],
      port.asleep.drop (pick % port.asleep.length + 1), ?_, ?_⟩
    · rw [List.cons_getElem_drop_succ, List.take_append_drop]
    · simp only [Port.signal, List.getElem?_eq_getElem inside, List.eraseIdx_eq_take_drop_succ]

/-- The message that a call wants of some. -/
def Reader.wanted (reader : Reader) (box : List (List UInt8)) : Option (List UInt8) :=
  if reader.readlast then box.getLast? else box.head?

/-- What is left when a call has taken its message. -/
def Reader.rest (reader : Reader) (box : List (List UInt8)) : List (List UInt8) :=
  if reader.readlast then box.dropLast else box.tail

/-- A call sleeps when there is no message, and takes one otherwise. Then it has still
to empty the channel, in a section of its own. -/
theorem attempt_cases (port : Port) (reader : Reader) (box : List (List UInt8))
    (represents : Represents port.channel box) :
    (box = [] ∧ port.attempt reader = some { port with asleep := port.asleep ++ [reader] }) ∨
      ∃ message channel, reader.wanted box = some message ∧
        Represents channel (reader.rest box) ∧
        port.attempt reader = some { port with
          channel := channel
          emptying := port.emptying + 1
          answers := port.answers ++ [(reader, message.take reader.len)] } := by
  have tested := empty_represents port.channel box represents
  cases empty : port.channel.empty with
  | true =>
    left
    exact ⟨tested.mp empty, by rw [Port.attempt, empty, if_pos rfl]⟩
  | false =>
    right
    obtain ⟨copied, rest, left, split⟩ :=
      get_represents port.channel box reader.len reader.readlast represents empty
    refine ⟨(port.channel.front reader.readlast).content, port.channel.taken reader.readlast,
      ?_, ?_, ?_⟩
    · rw [split, Reader.wanted]
      split <;> simp
    · have others : reader.rest box = rest := by
        rw [split, Reader.rest]
        split <;> simp
      rw [others]
      exact left
    · rw [Port.attempt, empty, if_neg Bool.false_ne_true, copied]
      rfl

/-- What a section does to a channel that holds some messages. This says all there is to
say about a section, and the invariants are derived from it alone. -/
theorem perform_cases (port : Port) (action : Access) (box : List (List UInt8))
    (represents : Represents port.channel box) :
    (∃ buf pick channel, action = .insert buf pick ∧
        Represents channel (push roomFor box [kept buf]) ∧
        port.perform action = some
          (if box = [] then
            { port with channel := channel, inserted := port.inserted ++ [buf] }.signal pick
          else { port with channel := channel, inserted := port.inserted ++ [buf] })) ∨
      (∃ reader, action = .arrive reader ∧ port.perform action = port.attempt reader) ∨
      (∃ pick before reader after, action = .resume pick ∧
        port.woken = before ++ reader :: after ∧
        port.perform action = { port with woken := before ++ after }.attempt reader) ∨
      (action = .empty ∧ 0 < port.emptying ∧ Represents port.channel.emptyQueue [] ∧
        port.perform action = some { port with
          channel := port.channel.emptyQueue
          emptying := port.emptying - 1
          emptied := port.inserted.length }) ∨
      (∃ pick, action = .wake pick ∧ port.perform action = some (port.signal pick)) ∨
      port.perform action = some port := by
  cases action with
  | insert buf pick =>
    left
    obtain ⟨made, holds⟩ := insert_represents port.channel box buf represents
    refine ⟨buf, pick, _, rfl, holds, ?_⟩
    simp only [Port.perform, made, Option.bind_eq_bind, Option.bind_some, decide_eq_true_eq]
  | arrive reader => exact .inr (.inl ⟨reader, rfl, rfl⟩)
  | wake pick => exact .inr (.inr (.inr (.inr (.inl ⟨pick, rfl, rfl⟩))))
  | resume pick =>
    by_cases inside : pick < port.woken.length
    · refine .inr (.inr (.inl ⟨pick, port.woken.take pick, port.woken[pick],
        port.woken.drop (pick + 1), rfl, ?_, ?_⟩))
      · rw [List.cons_getElem_drop_succ, List.take_append_drop]
      · simp only [Port.perform, List.getElem?_eq_getElem inside,
          List.eraseIdx_eq_take_drop_succ]
    · refine .inr (.inr (.inr (.inr (.inr ?_))))
      simp only [Port.perform, List.getElem?_eq_none (Nat.le_of_not_lt inside)]
  | empty =>
    by_cases none : port.emptying = 0
    · exact .inr (.inr (.inr (.inr (.inr (if_pos none)))))
    · exact .inr (.inr (.inr (.inl ⟨rfl, Nat.pos_of_ne_zero none,
        emptyQueue_represents port.channel box represents, if_neg none⟩)))

/-- A signal changes nothing but who sleeps. -/
theorem signal_frame (port : Port) (pick : Nat) : (port.signal pick).channel = port.channel ∧
    (port.signal pick).inserted = port.inserted ∧
    (port.signal pick).answers = port.answers := by
  rcases signal_cases port pick with ⟨-, same⟩ | ⟨before, reader, after, -, signalled⟩
  · simp only [same, and_self]
  · simp only [signalled, and_self]

/-- A call inserts nothing. -/
theorem attempt_inserted (port next : Port) (reader : Reader)
    (made : port.attempt reader = some next) : next.inserted = port.inserted := by
  rw [Port.attempt] at made
  split at made
  · cases made
    rfl
  · obtain ⟨⟨buf, channel⟩, -, made⟩ := Option.bind_eq_some_iff.mp made
    cases made
    rfl

/-- Only an insertion inserts a message; emptying a channel takes away what was
inserted, but not the record of it. -/
theorem perform_inserted (port next : Port) (action : Access)
    (made : port.perform action = some next) : next.inserted =
      match action with
      | .insert buf _ => port.inserted ++ [buf]
      | _ => port.inserted := by
  cases action with
  | insert buf pick =>
    obtain ⟨⟨channel, signals⟩, -, made⟩ := Option.bind_eq_some_iff.mp made
    obtain rfl := Option.some.inj made
    split
    · exact (signal_frame _ pick).2.1
    · rfl
  | arrive reader => exact attempt_inserted port next reader made
  | wake pick =>
    obtain rfl := Option.some.inj made
    exact (signal_frame port pick).2.1
  | resume pick =>
    rw [Port.perform] at made
    split at made
    · have kept := attempt_inserted _ next _ made
      exact kept
    · cases made
      rfl
  | empty =>
    rw [Port.perform] at made
    split at made
    · cases made
      rfl
    · cases made
      rfl

section ManyCalls

/-- What some calls got are the first bytes of some messages, as many as each call asked for. -/
def Answered (answers : List (Reader × List UInt8)) (taken : List (List UInt8)) : Prop :=
  List.Forall₂ (fun answer message => answer.2 = message.take answer.1.len) answers taken

/-- The calls got messages that were inserted, and none of them got what another one got, or
what is still there. -/
def Once (port : Port) (box : List (List UInt8)) : Prop :=
  ∃ taken, Answered port.answers taken ∧ (taken ++ box).Subperm (port.inserted.map kept)

/-- Between two sections, whatever calls there are: beside a message no call sleeps unless
another one is on its way. -/
structure Serves (port : Port) (box : List (List UInt8)) : Prop where
  represents : Represents port.channel box
  awake : box ≠ [] → port.asleep ≠ [] → port.woken ≠ [] ∨ 0 < port.emptying
  once : Once port box

/-- A call gets one more message. -/
theorem answered_snoc (answers : List (Reader × List UInt8)) (taken : List (List UInt8))
    (reader : Reader) (message : List UInt8) (answered : Answered answers taken) :
    Answered (answers ++ [(reader, message.take reader.len)]) (taken ++ [message]) :=
  List.rel_append answered (.cons rfl .nil)

/-- The message that a call wants and what it leaves are all there is. -/
theorem wanted_perm (reader : Reader) (box : List (List UInt8)) (message : List UInt8)
    (wanted : reader.wanted box = some message) : (message :: reader.rest box).Perm box := by
  rw [Reader.wanted] at wanted
  rw [Reader.rest]
  split at wanted
  · next newest =>
    rw [if_pos newest, ← List.dropLast_append_getLast? message wanted, List.dropLast_concat]
    exact (List.perm_append_singleton _ _).symm
  · next oldest =>
    obtain ⟨rest, rfl⟩ := List.head?_eq_some_iff.mp wanted
    rw [if_neg oldest, List.tail_cons]

/-- A call that has come to its turn leaves no other one alone with a message. -/
theorem attempt_serves (port : Port) (reader : Reader) (box : List (List UInt8))
    (represents : Represents port.channel box) (once : Once port box) :
    ∃ next box, port.attempt reader = some next ∧ Serves next box := by
  rcases attempt_cases port reader box represents with ⟨rfl, made⟩ |
    ⟨message, channel, wanted, left, made⟩
  · exact ⟨_, [], made, represents, fun some => absurd rfl some, once⟩
  · obtain ⟨taken, answered, known⟩ := once
    refine ⟨_, reader.rest box, made, left, fun _ _ => .inr (Nat.succ_pos _), taken ++ [message],
      answered_snoc _ _ _ _ answered, ?_⟩
    rw [List.append_assoc]
    exact (((wanted_perm reader box message wanted).append_left taken).subperm).trans known

/-- A message that is inserted is known. -/
theorem once_insert (port : Port) (box : List (List UInt8)) (buf : List UInt8)
    (channel : Channel) (once : Once port box) :
    Once { port with channel := channel, inserted := port.inserted ++ [buf] }
      (push roomFor box [kept buf]) := by
  obtain ⟨taken, answered, known⟩ := once
  refine ⟨taken, answered, ?_⟩
  have fewer : (taken ++ push roomFor box [kept buf]).Subperm (taken ++ (box ++ [kept buf])) :=
    ((List.drop_sublist _ _).append_left taken).subperm
  rw [← List.append_assoc] at fewer
  rw [List.map_append, List.map_singleton]
  exact fewer.trans ((List.subperm_append_right _).mpr known)

/-- Behind a signal no call sleeps any more, or at least one is awake: what is signalled takes
one of the calls that sleep, and there is one to take unless the list is empty. Nothing is said
of a signal that finds nobody; it is lost. -/
theorem signal_awake (port : Port) (pick : Nat) :
    (port.signal pick).asleep ≠ [] → (port.signal pick).woken ≠ [] := by
  rcases signal_cases port pick with ⟨none, same⟩ | ⟨before, reader, after, asleep, signalled⟩
  · rw [same]
    exact fun some => absurd none some
  · rw [signalled]
    exact fun _ => List.append_ne_nil_of_right_ne_nil _ (List.cons_ne_nil _ _)

/-- Every section is defined, and keeps all that. A signal goes to an insertion into an
empty channel; a call that takes a message beside others empties the channel, so no one
need be woken for those. -/
theorem serves_step (port : Port) (action : Access) (box : List (List UInt8))
    (serves : Serves port box) :
    ∃ next box, port.perform action = some next ∧ Serves next box := by
  obtain ⟨represents, awake, once⟩ := serves
  rcases perform_cases port action box represents with
    ⟨buf, pick, channel, rfl, holds, made⟩ | ⟨reader, rfl, made⟩ |
    ⟨pick, before, reader, after, rfl, woken, made⟩ | ⟨rfl, some, holds, made⟩ |
    ⟨pick, rfl, made⟩ | made
  · have known := once_insert port box buf channel once
    by_cases none : box = []
    · rw [if_pos none] at made
      obtain ⟨same, inserted, answers⟩ := signal_frame
        { port with channel := channel, inserted := port.inserted ++ [buf] } pick
      refine ⟨_, push roomFor box [kept buf], made, ?_,
        fun _ asleep => .inl (signal_awake _ pick asleep), ?_⟩
      · rw [same]
        exact holds
      · rw [Once, answers, inserted]
        exact known
    · rw [if_neg none] at made
      exact ⟨_, _, made, holds, fun _ => awake none, known⟩
  · rw [made]
    exact attempt_serves port reader box represents once
  · rw [made]
    exact attempt_serves { port with woken := before ++ after } reader box represents once
  · obtain ⟨taken, answered, known⟩ := once
    refine ⟨_, [], made, holds, fun some => absurd rfl some, taken, answered, ?_⟩
    rw [List.append_nil]
    exact (List.sublist_append_left taken box).subperm.trans known
  · obtain ⟨same, inserted, answers⟩ := signal_frame port pick
    refine ⟨_, box, made, ?_, fun _ asleep => .inl (signal_awake port pick asleep), ?_⟩
    · rw [same]
      exact represents
    · rw [Once, answers, inserted]
      exact once
  · exact ⟨port, box, made, represents, awake, once⟩

end ManyCalls

section OneCall

/-- The last nine of the messages inserted since the channel was emptied. -/
def Port.recent (port : Port) : List (List UInt8) :=
  push roomFor [] ((port.inserted.map kept).drop port.emptied)

/-- A call comes when there is no other one. -/
def Single (port : Port) : Access → Prop
  | .arrive _ => port.asleep = [] ∧ port.woken = [] ∧ port.emptying = 0
  | _ => True

/-- The calls got messages in the order in which these were inserted, and before the channel
was emptied. -/
def InOrder (port : Port) : Prop :=
  ∃ taken, Answered port.answers taken ∧ taken.Sublist ((port.inserted.map kept).take
    (if port.emptying = 0 then port.emptied else port.inserted.length))

/-- Between two sections, with one call at a time: a channel that no call is emptying holds the
recent messages. -/
structure Orderly (port : Port) (box : List (List UInt8)) : Prop where
  represents : Represents port.channel box
  one : port.asleep.length + port.woken.length + port.emptying ≤ 1
  emptied : port.emptied ≤ port.inserted.length
  recent : port.emptying = 0 → box = port.recent
  inOrder : InOrder port

/-- If a call gets something, it is of the recent messages the one that it wants. -/
def Fresh (port next : Port) : Prop :=
  next.answers = port.answers ∨
    ∃ reader message, reader.wanted port.recent = some message ∧
      next.answers = port.answers ++ [(reader, message.take reader.len)]

/-- A call wants a message that is there. -/
theorem wanted_mem (reader : Reader) (box : List (List UInt8)) (message : List UInt8)
    (wanted : reader.wanted box = some message) : message ∈ box :=
  (wanted_perm reader box message wanted).subset (List.mem_cons_self ..)

/-- The recent messages come behind those that were thrown away. -/
theorem recent_sublist (port : Port) (message : List UInt8) (recent : message ∈ port.recent) :
    [message].Sublist ((port.inserted.map kept).drop port.emptied) :=
  List.singleton_sublist.mpr (List.mem_of_mem_drop recent)

/-- A message that is inserted is recent. -/
theorem recent_insert (port : Port) (buf : List UInt8)
    (emptied : port.emptied ≤ port.inserted.length) :
    push roomFor port.recent [kept buf] =
      push roomFor [] (((port.inserted ++ [buf]).map kept).drop port.emptied) := by
  rw [Port.recent, push_push, List.map_append, List.map_singleton,
    List.drop_append_of_le_length (by rwa [List.length_map])]

/-- The only call takes the message it wants of the recent ones. -/
theorem attempt_orderly (port : Port) (reader : Reader) (box : List (List UInt8))
    (represents : Represents port.channel box) (emptied : port.emptied ≤ port.inserted.length)
    (nobody : port.asleep = [] ∧ port.woken = [] ∧ port.emptying = 0)
    (recent : box = port.recent) (inOrder : InOrder port) :
    ∃ next box, port.attempt reader = some next ∧ Orderly next box ∧ Fresh port next := by
  obtain ⟨asleep, woken, emptying⟩ := nobody
  rcases attempt_cases port reader box represents with ⟨none, made⟩ |
    ⟨message, channel, wanted, left, made⟩
  · refine ⟨_, box, made, ⟨represents, ?_, emptied, fun _ => recent, inOrder⟩, .inl rfl⟩
    simp [asleep, woken, emptying]
  · subst recent
    refine ⟨_, _, made, ⟨left, ?_, emptied, ?_, ?_⟩, .inr ⟨reader, message, wanted, rfl⟩⟩
    · simp [asleep, woken, emptying]
    · exact fun none => absurd none (Nat.succ_ne_zero _)
    · obtain ⟨taken, answered, ordered⟩ := inOrder
      rw [if_pos emptying] at ordered
      refine ⟨taken ++ [message], answered_snoc _ _ _ _ answered, ?_⟩
      rw [if_neg (Nat.succ_ne_zero _), List.take_of_length_le (by rw [List.length_map]),
        ← List.take_append_drop port.emptied (port.inserted.map kept)]
      exact ordered.append (recent_sublist port message (wanted_mem reader _ message wanted))

/-- A message that is inserted keeps the order. -/
theorem inOrder_insert (port : Port) (buf : List UInt8) (channel : Channel)
    (emptied : port.emptied ≤ port.inserted.length) (inOrder : InOrder port) :
    InOrder { port with channel := channel, inserted := port.inserted ++ [buf] } := by
  obtain ⟨taken, answered, ordered⟩ := inOrder
  refine ⟨taken, answered, ordered.trans ?_⟩
  dsimp only
  rw [List.map_append]
  split
  · rw [List.take_append_of_le_length (by rwa [List.length_map])]
  · rw [List.take_of_length_le (by simp), List.take_of_length_le (by simp)]
    exact List.sublist_append_left _ _

/-- A signal leaves the number of calls as it is. -/
theorem signal_count (port : Port) (pick : Nat) :
    (port.signal pick).asleep.length + (port.signal pick).woken.length =
      port.asleep.length + port.woken.length ∧
    (port.signal pick).emptying = port.emptying ∧ (port.signal pick).emptied = port.emptied := by
  rcases signal_cases port pick with ⟨-, same⟩ | ⟨before, reader, after, asleep, signalled⟩
  · simp only [same, and_self]
  · refine ⟨?_, by rw [signalled], by rw [signalled]⟩
    rw [signalled, asleep]
    simp only [List.length_append, List.length_cons, List.length_nil]
    omega

/-- Whom a signal wakes is the same to an orderly channel. -/
theorem signal_orderly (port : Port) (pick : Nat) (box : List (List UInt8))
    (orderly : Orderly port box) : Orderly (port.signal pick) box := by
  obtain ⟨represents, one, emptied, recent, inOrder⟩ := orderly
  obtain ⟨same, inserted, answers⟩ := signal_frame port pick
  obtain ⟨count, emptying, throwing⟩ := signal_count port pick
  refine ⟨?_, ?_, ?_, ?_, ?_⟩
  · rw [same]
    exact represents
  · rw [count, emptying]
    exact one
  · rw [throwing, inserted]
    exact emptied
  · rw [emptying, Port.recent, inserted, throwing]
    exact recent
  · rw [InOrder, answers, inserted, emptying, throwing]
    exact inOrder

/-- Every section is defined, and keeps all that. With a single call between its two
sections the insertions are the only ones that come between, and they are emptied out
with the rest. -/
theorem orderly_step (port : Port) (action : Access) (box : List (List UInt8))
    (orderly : Orderly port box) (single : Single port action) :
    ∃ next box, port.perform action = some next ∧ Orderly next box ∧ Fresh port next := by
  obtain ⟨represents, one, emptied, recent, inOrder⟩ := orderly
  rcases perform_cases port action box represents with
    ⟨buf, pick, channel, rfl, holds, made⟩ | ⟨reader, rfl, made⟩ |
    ⟨pick, before, reader, after, rfl, woken, made⟩ | ⟨rfl, some, holds, made⟩ |
    ⟨pick, rfl, made⟩ | made
  · have ordered := inOrder_insert port buf channel emptied inOrder
    have longer : port.emptied ≤ (port.inserted ++ [buf]).length := by
      rw [List.length_append]
      exact Nat.le_add_right_of_le emptied
    have known : port.emptying = 0 → push roomFor box [kept buf] =
        push roomFor [] (((port.inserted ++ [buf]).map kept).drop port.emptied) := by
      intro none
      rw [recent none]
      exact recent_insert port buf emptied
    have kept : Orderly { port with channel := channel, inserted := port.inserted ++ [buf] }
        (push roomFor box [kept buf]) := ⟨holds, one, longer, known, ordered⟩
    by_cases none : box = []
    · rw [if_pos none] at made
      exact ⟨_, _, made, signal_orderly _ pick _ kept, .inl (signal_frame _ pick).2.2⟩
    · rw [if_neg none] at made
      exact ⟨_, _, made, kept, .inl rfl⟩
  · rw [made]
    exact attempt_orderly port reader box represents emptied single (recent single.2.2) inOrder
  · rw [woken, List.length_append, List.length_cons] at one
    have nobody : port.asleep = [] ∧ before ++ after = [] ∧ port.emptying = 0 := by
      refine ⟨List.length_eq_zero_iff.mp (by omega), List.length_eq_zero_iff.mp ?_, by omega⟩
      rw [List.length_append]
      omega
    rw [made]
    exact attempt_orderly { port with woken := before ++ after } reader box represents emptied
      nobody (recent nobody.2.2) inOrder
  · obtain ⟨taken, answered, ordered⟩ := inOrder
    rw [if_neg (Nat.ne_of_gt some)] at ordered
    refine ⟨_, _, made, ⟨holds, ?_, Nat.le_refl _, fun _ => ?_, taken, answered, ?_⟩, .inl rfl⟩
    · exact (Nat.add_le_add_left (Nat.sub_le _ _) _).trans one
    · rw [Port.recent, List.drop_of_length_le (by rw [List.length_map])]
      rfl
    · simpa using ordered
  · exact ⟨_, box, made, signal_orderly port pick box ⟨represents, one, emptied, recent, inOrder⟩,
      .inl (signal_frame port pick).2.2⟩
  · exact ⟨port, box, made, ⟨represents, one, emptied, recent, inOrder⟩, .inl rfl⟩

end OneCall

end ScicosFlex.LegacyUsb.Readers
