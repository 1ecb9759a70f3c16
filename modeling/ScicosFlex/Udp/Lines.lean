import Mathlib.Algebra.Ring.Int.Defs
import ScicosFlex.Udp.Blocks

/-!
# Which lines the UDP blocks use

Every sender and every receiver is to use its own lines. Both functions keep one line
count for all blocks of the kind: that of the block which is initialized first in a
session. An update therefore is right if that block has no more lines than its own block,
and if the lines between the two counts would have changed nothing (`lines_kept_iff`).

The statics are followed by `Tracks`: from the first initialization of a kind to the
first ending of the kind they hold the first line count.
-/

namespace ScicosFlex.Udp

open Library.Sessions

universe u v
variable {D : Type u} {F : Type v}

/-- The line count of a block that is initialized. -/
def initLines (chosen : Block → Bool) : Call D F → Option Nat
  | .init block lines => if chosen block then some lines.1 else none
  | _ => none

/-- A block's own line count. -/
def ownLines (done : List (Call D F)) (block : Block) : Nat :=
  (done.findSome? (initLines (· = block))).getD 0

/-- The line count of the first block of a kind that is initialized in the session. -/
def firstLines (done : List (Call D F)) (kind : Kind) : Option Nat :=
  done.findSome? (initLines (·.1 = kind))

/-- The statics hold the first line count while a block of the kind runs and none has ended. -/
def Tracks (globals : Globals D) (done : List (Call D F)) : Prop :=
  ∀ kind,
    ((globals.statics kind).isInitialized = true ↔
      (firstLines done kind).isSome = true ∧ ∀ number, (kind, number) ∉ ended done) ∧
    ((globals.statics kind).isInitialized = true →
      firstLines done kind = some (globals.statics kind).lines)

/-- Between sessions both flags are clear, so the next block of each kind sets the line
count again. -/
def Idle (globals : Globals D) : Prop :=
  ∀ kind, (globals.statics kind).isInitialized = false

/-- A kind has a first line count once a block of the kind is initialized. -/
theorem firstLines_isSome (done : List (Call D F)) (kind : Kind) :
    (firstLines done kind).isSome = true ↔ ∃ number, (kind, number) ∈ started done := by
  induction done with
  | nil => simp [firstLines, started]
  | cons call rest inductionHypothesis =>
    cases call with
    | init block lines =>
      obtain ⟨own, number⟩ := block
      by_cases same : own = kind
      · subst same
        simp [firstLines, initLines, started]
      · have skipped : firstLines (.init (own, number) lines :: rest) kind =
            firstLines rest kind := by
          simp [firstLines, initLines, same]
        rw [skipped, inductionHypothesis]
        simp [started, Ne.symm same]
    | call block environment => exact inductionHypothesis
    | ending block => exact inductionHypothesis

/-- Later calls leave the first line count alone. -/
theorem firstLines_note (done : List (Call D F)) (call : Call D F) (kind : Kind) :
    firstLines (note done call) kind =
      (firstLines done kind).or (initLines (·.1 = kind) call) := by
  rw [firstLines, note, List.findSome?_append]
  congr 1
  rw [List.findSome?_cons, List.findSome?_nil]
  cases initLines (fun block => block.1 = kind) call <;> rfl

/-- No block has more lines than the vector has channels. -/
theorem ownLines_le (done : List (Call D F)) (block : Block) :
    ownLines done block ≤ maxChannels := by
  rw [ownLines]
  cases found : done.findSome? (initLines (· = block)) with
  | none => exact Nat.zero_le _
  | some lines =>
    obtain ⟨call, -, value⟩ := List.exists_of_findSome?_eq_some found
    cases call with
    | init other accepted =>
      simp only [initLines] at value
      split at value
      · cases value
        exact accepted.2.2
      · cases value
    | call other environment => cases value
    | ending other => cases value

/-- A session begins with clear flags. -/
theorem tracks_nil (globals : Globals D) (idle : Idle globals) :
    Tracks globals ([] : List (Call D F)) := by
  intro kind
  rw [idle kind]
  exact ⟨⟨fun set => absurd set Bool.false_ne_true,
    fun first => absurd first.1 Bool.false_ne_true⟩, fun set => absurd set Bool.false_ne_true⟩

/-- A call of the other kind initializes no block of this kind. -/
theorem initLines_other (call : Call D F) (kind : Kind) (other : (blockOf call).1 ≠ kind) :
    initLines (·.1 = kind) call = none := by
  cases call with
  | init block lines =>
    rw [initLines, if_neg]
    rw [decide_eq_true_eq]
    exact other
  | call block environment => rfl
  | ending block => rfl

/-- A call of the other kind ends no block of this kind. -/
theorem ended_other (call : Call D F) (kind : Kind) (number : Nat)
    (other : (blockOf call).1 ≠ kind) : (kind, number) ∉ ended [call] := by
  cases call with
  | init block lines => exact List.not_mem_nil
  | call block environment => exact List.not_mem_nil
  | ending block =>
    intro member
    obtain rfl : (kind, number) = block := List.mem_singleton.mp member
    exact other rfl

/-- Ending a block clears the flag of its kind. -/
theorem finish_clear (statics : Statics) : statics.finish.isInitialized = false := by
  rw [Statics.finish]
  split
  · rfl
  · next clear => exact Bool.not_eq_true _ ▸ clear

/-- A session ends with clear flags. -/
theorem tracks_leave (globals : Globals D) (session : Session Block Lines (Environment D F))
    (tracks : Tracks globals session.actions) : Idle globals := by
  intro kind
  rw [← Bool.not_eq_true, (tracks kind).1, firstLines_isSome]
  rintro ⟨⟨number, initialized⟩, running⟩
  rw [started_actions] at initialized
  rw [ended_actions] at running
  exact running number (session.complete.mem_iff.mpr initialized)

/-- The line count that an update uses. -/
theorem lines_of_tracks (globals : Globals D) (done : List (Call D F)) (kind : Kind)
    (number : Nat) (tracks : Tracks globals done) (running : (kind, number) ∈ started done)
    (open_ : ended done = []) :
    (globals.statics kind).lines = (firstLines done kind).getD 0 := by
  obtain ⟨set_iff, lines⟩ := tracks kind
  have first := (firstLines_isSome done kind).mpr ⟨number, running⟩
  rw [lines (set_iff.mpr ⟨first, fun _ => by rw [open_]; exact List.not_mem_nil⟩)]
  rfl

/-- The ports below a count are below another one if the count is no larger. -/
theorem range_below_iff (count bound : Nat) :
    (∀ port ∈ List.range count, port < bound) ↔ count ≤ bound := by
  simp only [List.mem_range]
  refine ⟨fun below => ?_, fun less port inside => Nat.lt_of_lt_of_le inside less⟩
  by_contra more
  exact absurd (below bound (by omega)) (Nat.lt_irrefl _)

section Sessions

variable [Zero D] [Zero F] (narrow : D → F) (widen : F → D)

/-- Every allowed call keeps track of the first line count. An end clears the flag even
while other blocks of the kind go on, which is why the ended ones are spoken of. -/
theorem tracks_step (globals : Globals D) (done : List (Call D F)) (call : Call D F)
    (tracks : Tracks globals done) (allowed : Allowed done call) :
    Tracks (step narrow widen globals call) (note done call) := by
  intro kind
  obtain ⟨set_iff, lines⟩ := tracks kind
  rw [statics_step, firstLines_note, note, ended_append]
  by_cases same : (blockOf call).1 = kind
  · rw [if_pos same]
    cases call with
    | init block accepted =>
      obtain ⟨-, open_⟩ := allowed
      have own : initLines (fun block => decide (block.1 = kind)) (.init block accepted : Call D F) =
          some accepted.1 := if_pos (decide_eq_true same)
      have none_ (number : Nat) :
          (kind, number) ∉ ended done ++ ended [(.init block accepted : Call D F)] := by
        rw [open_]
        exact List.not_mem_nil
      simp only [flagOf, Statics.advance, Statics.init, own, none_, not_false_eq_true,
        implies_true, and_true]
      simp only [open_, List.not_mem_nil, not_false_eq_true, implies_true, and_true] at set_iff
      cases set : (globals.statics kind).isInitialized with
      | false =>
        -- No block of the kind was initialized before.
        have before : firstLines done kind = none := by
          rw [set] at set_iff
          simpa using set_iff
        simp [before]
      | true =>
        rw [lines set]
        simp [set]
    | call block environment =>
      have none_ : ended [(.call block environment : Call D F)] = [] := rfl
      have skipped : initLines (fun block => decide (block.1 = kind))
          (.call block environment : Call D F) = none := rfl
      rw [none_, List.append_nil, skipped, Option.or_none]
      exact ⟨set_iff, lines⟩
    | ending block =>
      simp only [flagOf, Statics.advance, finish_clear]
      refine ⟨⟨fun set => absurd set Bool.false_ne_true, ?_⟩,
        fun set => absurd set Bool.false_ne_true⟩
      rintro ⟨-, running⟩
      have last : (kind, block.2) ∈ ended [(.ending block : Call D F)] := by
        rw [← same]
        exact List.mem_cons_self
      exact absurd (List.mem_append_right _ last) (running block.2)
  · rw [if_neg same, initLines_other call kind same, Option.or_none]
    refine ⟨?_, lines⟩
    have others (number : Nat) : (kind, number) ∉ ended [call] := ended_other call kind number same
    simp only [set_iff, List.mem_append, not_or, others, not_false_eq_true, and_true]

/-- An update uses exactly its own block's lines: it touches no other port, a datagram
that is sent carries the own inputs and zeros, a whole datagram that arrives goes to the
own outputs, and without one they stay. -/
def Correct (globals : Globals D) (done : List (Call D F)) (call : Call D F) : Prop :=
  ∀ block environment, call = .call block environment →
    let own := ownLines done block
    let answer := reply narrow widen globals call
    let next := step narrow widen globals call
    (∀ port ∈ answer.reads ++ answer.writes, port < own) ∧
    match block with
    | (.sender, _) => 0 ≤ environment.sendto →
        answer.datagram = some ((List.range maxChannels).map fun i =>
          if i < own then narrow (environment.u i) else 0)
    | (.receiver, number) =>
        (environment.recvfrom = vectorSize → ∀ i < own,
          next.y number i = widen (environment.received i)) ∧
        (environment.recvfrom < 0 → next.y number = globals.y number)

/-- The block of the kind that was initialized first has no more lines, and the lines it
leaves out change nothing: a sender's inputs there convert to zero, a receiver's outputs
there are the channels already. -/
def Matching (globals : Globals D) (done : List (Call D F)) (call : Call D F) : Prop :=
  ∀ block environment, call = .call block environment →
    let own := ownLines done block
    let first := (firstLines done block.1).getD 0
    match block with
    | (.sender, _) => first ≤ own ∧
        (0 ≤ environment.sendto → ∀ i, first ≤ i → i < own → narrow (environment.u i) = 0)
    | (.receiver, number) =>
        (0 ≤ environment.recvfrom → first ≤ own) ∧
        (environment.recvfrom = vectorSize → ∀ i, first ≤ i → i < own →
          globals.y number i = widen (environment.received i))

/-- What a sender's update does. It takes the lines of the first sender, so it reads
ports it does not have, or leaves out lines that are not zero. -/
theorem sender_correct_iff (globals : Globals D) (done : List (Call D F)) (number : Nat)
    (environment : Environment D F)
    (lines : globals.sender.lines = (firstLines done .sender).getD 0) :
    Correct narrow widen globals done (.call (.sender, number) environment) ↔
      Matching narrow widen globals done (.call (.sender, number) environment) := by
  have bound := ownLines_le done (.sender, number)
  have reads : (reply narrow widen globals (.call (.sender, number) environment)).reads ++
      (reply narrow widen globals (.call (.sender, number) environment)).writes =
        List.range globals.sender.lines := List.append_nil _
  have datagram (sent : 0 ≤ environment.sendto) :
      (reply narrow widen globals (.call (.sender, number) environment)).datagram = _ :=
    sender_datagram narrow globals.sender environment sent
  constructor
  · rintro correct _ _ ⟨⟩
    obtain ⟨inside, channels⟩ := correct _ _ rfl
    rw [reads, range_below_iff, lines] at inside
    refine ⟨inside, ?_⟩
    intro sent i above below
    have whole := (datagram sent).symm.trans (channels sent)
    rw [Option.some.injEq, List.map_inj_left] at whole
    have here := whole i (List.mem_range.mpr (Nat.lt_of_lt_of_le below bound))
    rw [lines, if_neg (Nat.not_lt.mpr above), if_pos below] at here
    exact here.symm
  · rintro matching _ _ ⟨⟩
    obtain ⟨less, zeros⟩ := matching _ _ rfl
    refine ⟨by rw [reads, range_below_iff, lines]; exact less, ?_⟩
    intro sent
    rw [datagram sent, lines, Option.some.injEq, List.map_inj_left]
    intro i _
    by_cases used : i < (firstLines done .sender).getD 0
    · rw [if_pos used, if_pos (Nat.lt_of_lt_of_le used less)]
    · rw [if_neg used]
      split
      · next below => exact (zeros sent i (Nat.not_lt.mp used) below).symm
      · rfl

/-- What a receiver's update does. It takes the lines of the first receiver, so it
writes ports it does not have, or leaves out lines that have changed. -/
theorem receiver_correct_iff (globals : Globals D) (done : List (Call D F)) (number : Nat)
    (environment : Environment D F)
    (lines : globals.receiver.lines = (firstLines done .receiver).getD 0) :
    Correct narrow widen globals done (.call (.receiver, number) environment) ↔
      Matching narrow widen globals done (.call (.receiver, number) environment) := by
  have writes : (reply narrow widen globals (.call (.receiver, number) environment)).reads ++
      (reply narrow widen globals (.call (.receiver, number) environment)).writes =
        if environment.recvfrom < 0 then [] else List.range globals.receiver.lines := by
    simp only [reply, perform, blockOf, flagOf, udpReceiver]
    split <;> rfl
  have left : (step narrow widen globals (.call (.receiver, number) environment)).y number =
      (udpReceiver widen globals.receiver (globals.y number) (.outputUpdate environment)).2.1 :=
    Function.update_self _ _ _
  have arrives (whole : environment.recvfrom = vectorSize) : 0 ≤ environment.recvfrom := by
    rw [whole]
    decide
  constructor
  · rintro correct _ _ ⟨⟩
    obtain ⟨inside, outputs, -⟩ := correct _ _ rfl
    rw [writes] at inside
    refine ⟨?_, ?_⟩
    · intro arrived
      rwa [if_neg (Int.not_lt.mpr arrived), range_below_iff, lines] at inside
    · intro whole i above below
      have here := outputs whole i below
      rwa [left, receiver_outputs _ _ _ _ (arrives whole), lines,
        if_neg (Nat.not_lt.mpr above)] at here
  · rintro matching _ _ ⟨⟩
    obtain ⟨less, same⟩ := matching _ _ rfl
    refine ⟨?_, ?_, ?_⟩
    · rw [writes]
      split
      · intro port member
        exact absurd member List.not_mem_nil
      · next arrived =>
        rw [range_below_iff, lines]
        exact less (Int.not_lt.mp arrived)
    · intro whole i below
      rw [left, receiver_outputs _ _ _ _ (arrives whole), lines]
      split
      · rfl
      · next unused => exact same whole i (Nat.not_lt.mp unused) below
    · intro broken
      rw [left]
      simp only [udpReceiver, if_pos broken]

/-- An allowed call is right if and only if the first line count matches. -/
theorem correct_iff (globals : Globals D) (done : List (Call D F)) (call : Call D F)
    (tracks : Tracks globals done) (allowed : Allowed done call) :
    Correct narrow widen globals done call ↔ Matching narrow widen globals done call := by
  cases call with
  | init block accepted =>
    constructor
    · rintro _ _ _ ⟨⟩
    · rintro _ _ _ ⟨⟩
  | call block environment =>
    obtain ⟨kind, number⟩ := block
    have lines := lines_of_tracks globals done kind number tracks allowed.1 allowed.2
    cases kind with
    | sender => exact sender_correct_iff narrow widen globals done number environment lines
    | receiver => exact receiver_correct_iff narrow widen globals done number environment lines
  | ending block =>
    constructor
    · rintro _ _ _ ⟨⟩
    · rintro _ _ _ ⟨⟩

/-- Over any number of sessions all updates use their own lines if and only if at every
update the first line count of the kind matches. The count is kept in a static variable
by whichever block of the kind is initialized first, so the condition is about two blocks
and the values passed; where all blocks of a kind have equally many lines it is met. -/
theorem lines_kept_iff (y : Nat → Nat → D)
    (sessions : List (Session Block Lines (Environment D F))) :
    Whenever (step narrow widen) (Correct narrow widen) (boot y) sessions ↔
      Whenever (step narrow widen) (Matching narrow widen) (boot y) sessions := by
  have initial : Idle (boot y : Globals D) := by
    intro kind
    cases kind <;> rfl
  have pointwise : Whenever (step narrow widen) (fun globals done call =>
      Correct narrow widen globals done call ↔ Matching narrow widen globals done call)
      (boot y) sessions :=
    whenever_of_invariant (step narrow widen) Idle Tracks tracks_nil
      (fun globals done call => tracks_step narrow widen globals done call) tracks_leave _
      (fun globals done call => correct_iff narrow widen globals done call) (boot y) initial
      sessions
  constructor
  · intro correct earlier session later place done call rest split
    exact (pointwise earlier session later place done call rest split).mp
      (correct earlier session later place done call rest split)
  · intro matching earlier session later place done call rest split
    exact (pointwise earlier session later place done call rest split).mpr
      (matching earlier session later place done call rest split)

end Sessions

/-- What an update finds where the inputs are one and everything gets through. -/
def ones : Environment Int Int :=
  { u := fun _ => 1, stack := fun _ => 0, sendto := 60, recvfrom := -1, received := fun _ => 0 }

/-- A session with a sender of one line and one of two lines. -/
def twoSenders : Session Block Lines (Environment Int Int) where
  inits := [((.sender, 0), ⟨1, by decide⟩), ((.sender, 1), ⟨2, by decide⟩)]
  calls := [((.sender, 1), ones)]
  endings := [(.sender, 0), (.sender, 1)]
  distinct := by decide
  served := by decide
  complete := List.Perm.refl _

/-- The second of two senders does not send its second line. Whole numbers stand for the
values that both formats share. -/
theorem second_sender_drops_line :
    ¬ ∀ sessions : List (Session Block Lines (Environment Int Int)),
      Whenever (step id id) (Correct id id) (boot fun _ _ => 0) sessions := by
  intro always
  have here := always [twoSenders] [] twoSenders [] rfl (twoSenders.actions.take 2)
    (.call (.sender, 1) ones) (twoSenders.actions.drop 3) rfl (.sender, 1) ones rfl
  exact absurd (here.2 (by decide)) (by decide)

end ScicosFlex.Udp
