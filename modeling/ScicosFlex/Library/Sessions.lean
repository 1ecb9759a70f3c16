import Mathlib.Data.List.Perm.Basic
import ScicosFlex.Library.Runs

/-!
# Sessions of a simulator

A simulator starts every block of a diagram once, then calls the started blocks in
any order, and at last ends every block once, in any order. A history is any number
of such sessions, one behind the other, and whatever the blocks share survives from
one session to the next.

What a call may rely on is what has happened in its session so far. `Allowed` says
which calls can come next there, and `always_of_invariant` reduces a property of all
moments of all sessions to single calls: an invariant of the state and of the calls
of the session, which holds at the start of a session in every idle state and leaves
an idle state at the end of one.
-/

namespace ScicosFlex.Library.Sessions

open Library.Runs

universe u v w x
variable {B : Type u} {I : Type v} {C : Type w} {S : Type x}

/-- A call of the simulator: start of a block with its parameters, any call of a
started block, end of a block. -/
inductive Action (B : Type u) (I : Type v) (C : Type w) where
  | init (block : B) (parameters : I)
  | call (block : B) (request : C)
  | ending (block : B)

/-- One session. -/
structure Session (B : Type u) (I : Type v) (C : Type w) where
  inits : List (B × I)
  calls : List (B × C)
  endings : List B
  distinct : (inits.map Prod.fst).Nodup
  served : ∀ call ∈ calls, call.1 ∈ inits.map Prod.fst
  complete : endings.Perm (inits.map Prod.fst)

/-- The calls of a session in order. -/
def Session.actions (session : Session B I C) : List (Action B I C) :=
  session.inits.map (fun start => .init start.1 start.2) ++
    session.calls.map (fun call => .call call.1 call.2) ++
    session.endings.map .ending

/-- The calls of several sessions in order. -/
def history (sessions : List (Session B I C)) : List (Action B I C) :=
  sessions.flatMap Session.actions

/-- The blocks started so far. -/
def started (done : List (Action B I C)) : List B :=
  done.filterMap fun
    | .init block _ => some block
    | _ => none

/-- The blocks ended so far. -/
def ended (done : List (Action B I C)) : List B :=
  done.filterMap fun
    | .ending block => some block
    | _ => none

/-- What can come next in a session. -/
def Allowed (done : List (Action B I C)) : Action B I C → Prop
  | .init block _ => block ∉ started done ∧ ended done = []
  | .call block _ => block ∈ started done ∧ ended done = []
  | .ending block => block ∈ started done ∧ block ∉ ended done

/-- The calls so far, with one more. -/
def note (done : List (Action B I C)) (action : Action B I C) : List (Action B I C) :=
  done ++ [action]

@[simp] theorem started_append (left right : List (Action B I C)) :
    started (left ++ right) = started left ++ started right :=
  List.filterMap_append

@[simp] theorem ended_append (left right : List (Action B I C)) :
    ended (left ++ right) = ended left ++ ended right :=
  List.filterMap_append

@[simp] theorem started_inits (inits : List (B × I)) :
    started (inits.map fun start => (.init start.1 start.2 : Action B I C)) =
      inits.map Prod.fst := by
  induction inits with
  | nil => rfl
  | cons start rest inductionHypothesis =>
    exact congrArg (start.1 :: ·) inductionHypothesis

@[simp] theorem ended_inits (inits : List (B × I)) :
    ended (inits.map fun start => (.init start.1 start.2 : Action B I C)) = [] := by
  induction inits with
  | nil => rfl
  | cons start rest inductionHypothesis => exact inductionHypothesis

@[simp] theorem started_calls (calls : List (B × C)) :
    started (calls.map fun call => (.call call.1 call.2 : Action B I C)) = [] := by
  induction calls with
  | nil => rfl
  | cons call rest inductionHypothesis => exact inductionHypothesis

@[simp] theorem ended_calls (calls : List (B × C)) :
    ended (calls.map fun call => (.call call.1 call.2 : Action B I C)) = [] := by
  induction calls with
  | nil => rfl
  | cons call rest inductionHypothesis => exact inductionHypothesis

@[simp] theorem started_endings (endings : List B) :
    started (endings.map (.ending : B → Action B I C)) = [] := by
  induction endings with
  | nil => rfl
  | cons block rest inductionHypothesis => exact inductionHypothesis

@[simp] theorem ended_endings (endings : List B) :
    ended (endings.map (.ending : B → Action B I C)) = endings := by
  induction endings with
  | nil => rfl
  | cons block rest inductionHypothesis => exact congrArg (block :: ·) inductionHypothesis

/-- A session starts the blocks of its initializations. -/
theorem started_actions (session : Session B I C) :
    started session.actions = session.inits.map Prod.fst := by
  simp [Session.actions]

/-- A session ends the blocks of its endings. -/
theorem ended_actions (session : Session B I C) : ended session.actions = session.endings := by
  simp [Session.actions]

/-- Noting calls lists them. -/
theorem run_note (done actions : List (Action B I C)) : run note done actions = done ++ actions := by
  induction actions generalizing done with
  | nil => exact (List.append_nil done).symm
  | cons action rest inductionHypothesis =>
    rw [run_cons, inductionHypothesis, note, List.append_assoc]
    rfl

/-- Different blocks are started before any call and any end. -/
theorem allowed_inits (done : List (Action B I C)) (inits : List (B × I))
    (distinct : (inits.map Prod.fst).Nodup) (fresh : ∀ start ∈ inits, start.1 ∉ started done)
    (open_ : ended done = []) :
    Throughout note Allowed done (inits.map fun start => .init start.1 start.2) := by
  induction inits generalizing done with
  | nil => exact throughout_nil _ _ _
  | cons start rest inductionHypothesis =>
    obtain ⟨other, distinctRest⟩ := List.nodup_cons.mp distinct
    refine (throughout_cons _ _ _ _ _).mpr ⟨⟨fresh start List.mem_cons_self, open_⟩, ?_⟩
    refine inductionHypothesis _ distinctRest ?_ (by rw [note, ended_append, open_]; rfl)
    intro later member
    rw [note, started_append, List.mem_append, not_or]
    refine ⟨fresh later (List.mem_cons_of_mem _ member), ?_⟩
    intro same
    exact other (List.mem_map.mpr ⟨later, member, List.mem_singleton.mp same⟩)

/-- Started blocks are called before any end. -/
theorem allowed_calls (done : List (Action B I C)) (calls : List (B × C))
    (served : ∀ call ∈ calls, call.1 ∈ started done) (open_ : ended done = []) :
    Throughout note Allowed done (calls.map fun call => .call call.1 call.2) := by
  induction calls generalizing done with
  | nil => exact throughout_nil _ _ _
  | cons call rest inductionHypothesis =>
    refine (throughout_cons _ _ _ _ _).mpr ⟨⟨served call List.mem_cons_self, open_⟩, ?_⟩
    refine inductionHypothesis _ ?_ (by rw [note, ended_append, open_]; rfl)
    intro later member
    rw [note, started_append]
    exact List.mem_append_left _ (served later (List.mem_cons_of_mem _ member))

/-- Started blocks are ended once. -/
theorem allowed_endings (done : List (Action B I C)) (endings : List B)
    (running : ∀ block ∈ endings, block ∈ started done ∧ block ∉ ended done)
    (distinct : endings.Nodup) : Throughout note Allowed done (endings.map .ending) := by
  induction endings generalizing done with
  | nil => exact throughout_nil _ _ _
  | cons block rest inductionHypothesis =>
    obtain ⟨other, distinctRest⟩ := List.nodup_cons.mp distinct
    refine (throughout_cons _ _ _ _ _).mpr ⟨running block List.mem_cons_self, ?_⟩
    refine inductionHypothesis _ ?_ distinctRest
    intro later member
    obtain ⟨was, still⟩ := running later (List.mem_cons_of_mem _ member)
    rw [note, started_append, ended_append]
    refine ⟨List.mem_append_left _ was, ?_⟩
    rw [List.mem_append, not_or]
    refine ⟨still, ?_⟩
    intro same
    obtain rfl : later = block := List.mem_singleton.mp same
    exact other member

/-- Every call of a session is allowed where it stands. -/
theorem session_allowed (session : Session B I C) :
    Throughout note Allowed [] session.actions := by
  have ends := session.complete.nodup_iff.mpr session.distinct
  rw [Session.actions, throughout_append, throughout_append, run_append, run_note, run_note,
    List.nil_append]
  refine ⟨⟨?_, ?_⟩, ?_⟩
  · exact allowed_inits [] session.inits session.distinct (fun _ _ => List.not_mem_nil) rfl
  · exact allowed_calls _ session.calls (by simpa using session.served) (by simp)
  · refine allowed_endings _ session.endings ?_ ends
    intro block member
    simpa using session.complete.mem_iff.mp member

section Histories

variable (step : S → Action B I C → S)

/-- `P` holds at every moment of every session, of the state and of the calls of the
session so far. -/
def Always (P : S → List (Action B I C) → Prop) (start : S)
    (sessions : List (Session B I C)) : Prop :=
  ∀ earlier session later, sessions = earlier ++ session :: later →
    ∀ done rest, session.actions = done ++ rest →
      P (run step start (history earlier ++ done)) done

/-- `Q` holds whenever a call is about to be made, of the state, of the calls of the
session so far and of that call. -/
def Whenever (Q : S → List (Action B I C) → Action B I C → Prop) (start : S)
    (sessions : List (Session B I C)) : Prop :=
  ∀ earlier session later, sessions = earlier ++ session :: later →
    ∀ done action rest, session.actions = done ++ action :: rest →
      Q (run step start (history earlier ++ done)) done action

/-- Through a session, what every allowed call keeps holds at every moment. -/
theorem session_invariant (inv : S → List (Action B I C) → Prop)
    (kept : ∀ state done action, inv state done → Allowed done action →
      inv (step state action) (note done action))
    (start : S) (initial : inv start []) (session : Session B I C) (done rest : List (Action B I C))
    (split : session.actions = done ++ rest) : inv (run step start done) done := by
  have reached := reached_of_invariant (paired step note) (fun both => Allowed both.2)
    (fun both => inv both.1 both.2) (fun both action => kept both.1 both.2 action)
    (start, []) session.actions initial
    ((throughout_noted step note Allowed start [] session.actions).mpr (session_allowed session))
    done rest split
  rw [run_paired, run_note, List.nil_append] at reached
  exact reached

variable (idle : S → Prop) (inv : S → List (Action B I C) → Prop)
  (enter : ∀ state, idle state → inv state [])
  (kept : ∀ state done action, inv state done → Allowed done action →
    inv (step state action) (note done action))
  (leave : ∀ state (session : Session B I C), inv state session.actions → idle state)

include enter kept leave

/-- Every history leaves an idle state. -/
theorem idle_after (start : S) (initial : idle start) (sessions : List (Session B I C)) :
    idle (run step start (history sessions)) := by
  induction sessions generalizing start with
  | nil => exact initial
  | cons session rest inductionHypothesis =>
    rw [history, List.flatMap_cons, run_append]
    apply inductionHypothesis
    exact leave _ session (session_invariant step inv kept start (enter start initial) session
      session.actions [] (List.append_nil _).symm)

/-- An invariant of the calls of a session holds at every moment of every session. -/
theorem always_of_invariant (start : S) (initial : idle start)
    (sessions : List (Session B I C)) : Always step inv start sessions := by
  intro earlier session later _ done rest split
  rw [run_append]
  exact session_invariant step inv kept _
    (enter _ (idle_after step idle inv enter kept leave start initial earlier)) session done rest
    split

/-- Along a history an invariant also justifies what it says about each call. -/
theorem whenever_of_invariant (Q : S → List (Action B I C) → Action B I C → Prop)
    (observed : ∀ state done action, inv state done → Allowed done action → Q state done action)
    (start : S) (initial : idle start) (sessions : List (Session B I C)) :
    Whenever step Q start sessions := by
  intro earlier session later place done action rest split
  have here := always_of_invariant step idle inv enter kept leave start initial sessions earlier
    session later place done (action :: rest) split
  have allowed := session_allowed session done action rest split
  rw [run_note, List.nil_append] at allowed
  exact observed _ _ _ here allowed

end Histories

end ScicosFlex.Library.Sessions
