import ScicosFlex.Library.Runs

/-!
# Sending with an alternating bit

A sender hands items over one at a time and marks them with a bit that changes
from item to item. The receiver has room for one item and says what it has taken,
but what it says may get lost, and then the sender repeats the item. A receiver
that holds an item does not answer; one that meets the bit of the item before only
confirms it again.

`delivered_once` is what the bit is for: along every run, whatever is lost, the
receiver collects every item once and in order. `refined_delivers` carries it over
to a system whose steps do what some moves of a link do.
-/

namespace ScicosFlex.Library.AlternatingBit

open Library.Runs

universe u v
variable {α : Type u}

/-- The items the sender has not seen confirmed with the bit of the first, and the
bit the receiver expects with the item it holds. -/
structure Link (α : Type u) where
  waiting : List α
  bit : Bool
  expected : Bool
  held : Option α

/-- The sender gets an item, transmits its first one, or the receiver's is collected. -/
inductive Move (α : Type u) where
  | offer (item : α)
  | transmit (confirmed : Bool)
  | collect

/-- One move. A transmission that is not confirmed may still have been taken. -/
def step (link : Link α) : Move α → Link α
  | .offer item => { link with waiting := link.waiting ++ [item] }
  | .transmit confirmed =>
    match link.waiting, link.held with
    | item :: rest, none =>
      let taken := if link.bit = link.expected then some item else none
      if confirmed then { link with waiting := rest, bit := !link.bit, held := taken }
      else { link with held := taken }
    | _, _ => link
  | .collect =>
    match link.held with
    | some _ => { link with expected := !link.expected, held := none }
    | none => link

/-- The items that come in and go out. -/
def offered : Move α → List α
  | .offer item => [item]
  | _ => []

def collected (link : Link α) : Move α → List α
  | .collect => link.held.toList
  | _ => []

/-- The receiver has not taken the first waiting item yet. -/
def fresh (link : Link α) : Bool := (link.bit == link.expected) != link.held.isSome

/-- What is still to be collected. -/
def pending (link : Link α) : List α :=
  link.held.toList ++ if fresh link then link.waiting else link.waiting.tail

/-- An item that has been taken is waiting for its confirmation. -/
def Sound (link : Link α) : Prop := fresh link = false → link.waiting ≠ []

/-- Every move keeps the invariant, and passes on what is pending. A repetition that has
been taken already is told by its bit, and dropped. -/
theorem step_sound (link : Link α) (move : Move α) (sound : Sound link) :
    Sound (step link move) ∧ PassesOn step offered collected pending link move := by
  obtain ⟨waiting, bit, expected, held⟩ := link
  cases move with
  | offer item =>
    refine ⟨fun _ => by simp [step], ?_⟩
    cases new : (bit == expected) != held.isSome with
    | true => simp [PassesOn, pending, step, offered, collected, fresh, new]
    | false =>
      have some : waiting ≠ [] := sound new
      simp [PassesOn, pending, step, offered, collected, fresh, new,
        List.tail_append_of_ne_nil some]
  | transmit confirmed =>
    cases held with
    | some item => cases waiting <;> exact ⟨sound, by simp [PassesOn, step, offered, collected]⟩
    | none =>
      cases waiting with
      | nil => exact ⟨sound, by simp [PassesOn, step, offered, collected]⟩
      | cons item rest =>
        by_cases new : bit = expected
        · cases confirmed <;>
            simp [PassesOn, Sound, pending, step, offered, collected, fresh, new]
        · cases confirmed <;>
            simp [PassesOn, Sound, pending, step, offered, collected, fresh, new]
  | collect =>
    cases held with
    | none => exact ⟨sound, by simp [PassesOn, step, offered, collected]⟩
    | some item =>
      have same : ((bit == !expected) != false) = ((bit == expected) != true) := by
        cases bit <;> cases expected <;> rfl
      refine ⟨fun old => sound ?_, ?_⟩
      · exact same.symm.trans old
      · cases bit <;> cases expected <;> simp [PassesOn, pending, step, offered, collected, fresh]

/-- Nothing is lost, repeated or put out of order. -/
theorem delivered_once (link : Link α) (moves : List (Move α)) (sound : Sound link) :
    Conserved step offered collected pending link moves := by
  rw [conserved_iff]
  exact throughout_of_invariant step (fun _ _ => True) Sound _
    (fun link move sound _ => (step_sound link move sound).1)
    (fun link move sound _ => (step_sound link move sound).2) link moves sound
    (fun _ _ _ _ => trivial)

/-- So a run of moves keeps the invariant, and passes on what is pending. -/
theorem run_sound (link : Link α) (moves : List (Move α)) (sound : Sound link) :
    Sound (run step link moves) ∧ pending link ++ moves.flatMap offered =
      (outputs step collected link moves).flatten ++ pending (run step link moves) := by
  refine ⟨?_, delivered_once link moves sound moves [] (List.append_nil _).symm⟩
  exact reached_of_invariant step (fun _ _ => True) Sound
    (fun link move sound _ => (step_sound link move sound).1) link moves sound
    (fun _ _ _ _ => trivial) moves [] (List.append_nil _).symm

section Refinement

variable {S : Type v} {A : Type u}

/-- A step that does some moves of the link the system is seen as, and takes in and
hands out what they do, passes on what is pending. -/
theorem refined_passes (next : S → A → S) (link : S → Link α) (moves : List (Move α))
    (incoming : A → List α) (out : S → A → List α) (state : S) (action : A)
    (sound : Sound (link state)) (linked : link (next state action) = run step (link state) moves)
    (taken : incoming action = moves.flatMap offered)
    (handed : out state action = (outputs step collected (link state) moves).flatten) :
    Sound (link (next state action)) ∧
      PassesOn next incoming out (fun state => pending (link state)) state action := by
  have passed := run_sound (link state) moves sound
  rw [← linked, ← taken, ← handed] at passed
  exact passed

/-- A system whose every guarded step does some moves of the link it is seen as, and
takes in and hands out what the moves do, delivers every item once and in order. -/
theorem refined_delivers (next : S → A → S) (guard : S → A → Prop) (invariant : S → Prop)
    (link : S → Link α) (moves : S → A → List (Move α)) (incoming : A → List α)
    (out : S → A → List α)
    (kept : ∀ state action, invariant state → guard state action → invariant (next state action))
    (moved : ∀ state action, invariant state → guard state action →
      link (next state action) = run step (link state) (moves state action) ∧
        incoming action = (moves state action).flatMap offered ∧
        out state action = (outputs step collected (link state) (moves state action)).flatten)
    (start : S) (actions : List A) (initial : invariant start) (sound : Sound (link start))
    (guarded : Throughout next guard start actions) :
    Conserved next incoming out (fun state => pending (link state)) start actions := by
  rw [conserved_iff]
  have passes (state : S) (action : A) (here : invariant state) (sound : Sound (link state))
      (allowed : guard state action) : Sound (link (next state action)) ∧
        PassesOn next incoming out (fun state => pending (link state)) state action := by
    obtain ⟨linked, taken, handed⟩ := moved state action here allowed
    exact refined_passes next link _ incoming out state action sound linked taken handed
  refine throughout_of_invariant next guard (fun state => invariant state ∧ Sound (link state)) _
    ?_ ?_ start actions ⟨initial, sound⟩ guarded
  · rintro state action ⟨here, sound⟩ allowed
    exact ⟨kept state action here allowed, (passes state action here sound allowed).1⟩
  · rintro state action ⟨here, sound⟩ allowed
    exact (passes state action here sound allowed).2

end Refinement

end ScicosFlex.Library.AlternatingBit
