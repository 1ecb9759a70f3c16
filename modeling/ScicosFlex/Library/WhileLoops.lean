import ScicosFlex.Library.AcyclicRecursion

/-!
# Loops that may not end

A loop makes passes over a state until one of them leaves it with a result. It is run
with fuel, the number of passes it may make; it returns a result if some amount of fuel
is enough. The rules say what one pass means for the whole loop, when a measure makes
the loop end, what an invariant says about its result, and that over finitely many states
the loop ends unless it comes back to one.
-/

namespace ScicosFlex.Library.WhileLoops

universe u v
variable {S : Type u} {R : Type v}

/-- What one pass does. -/
inductive Pass (S : Type u) (R : Type v) where
  | again (next : S)
  | leave (result : R)

/-- The loop with a number of passes it may make. -/
def loop (pass : S → Pass S R) : Nat → S → Option R
  | 0, _ => none
  | fuel + 1, state =>
    match pass state with
    | .again next => loop pass fuel next
    | .leave result => some result

/-- The loop ends with a result. -/
def Returns (pass : S → Pass S R) (state : S) (result : R) : Prop :=
  ∃ fuel, loop pass fuel state = some result

/-- The loop ends. -/
def Terminates (pass : S → Pass S R) (state : S) : Prop := ∃ result, Returns pass state result

variable (pass : S → Pass S R)

/-- A pass that leaves the loop gives its result. -/
theorem returns_of_leave (state : S) (left result : R) (leaves : pass state = .leave left) :
    Returns pass state result ↔ result = left := by
  constructor
  · rintro ⟨fuel, found⟩
    cases fuel with
    | zero => cases found
    | succ fuel =>
      rw [loop, leaves] at found
      exact (Option.some.inj found).symm
  · rintro rfl
    exact ⟨1, by rw [loop, leaves]⟩

/-- A pass that stays in the loop leaves the result to the others. -/
theorem returns_of_again (state next : S) (result : R) (stays : pass state = .again next) :
    Returns pass state result ↔ Returns pass next result := by
  constructor
  · rintro ⟨fuel, found⟩
    cases fuel with
    | zero => cases found
    | succ fuel =>
      rw [loop, stays] at found
      exact ⟨fuel, found⟩
  · rintro ⟨fuel, found⟩
    exact ⟨fuel + 1, by rw [loop, stays]; exact found⟩

variable {pass} in
/-- Induction over the passes of a loop that ends, from the one that leaves it back to the first. -/
@[elab_as_elim]
theorem returns_induction {result : R} {motive : ∀ state, Returns pass state result → Prop}
    (leave : ∀ state, pass state = .leave result → ∀ returned, motive state returned)
    (again : ∀ state next, pass state = .again next → ∀ returned later, motive next later →
      motive state returned)
    {state : S} (returned : Returns pass state result) : motive state returned := by
  obtain ⟨fuel, found⟩ := returned
  induction fuel generalizing state with
  | zero => cases found
  | succ fuel inductionHypothesis =>
    cases made : pass state with
    | again next =>
      have later : loop pass fuel next = some result := by
        rw [← found, loop, made]
      exact again state next made _ ⟨fuel, later⟩ (inductionHypothesis later)
    | leave left =>
      obtain rfl : left = result := by
        rw [loop, made] at found
        exact Option.some.inj found
      exact leave state made _

/-- A loop has one result. -/
theorem returns_unique (state : S) (first second : R) (left : Returns pass state first)
    (right : Returns pass state second) : first = second := by
  induction left using returns_induction with
  | leave state made =>
    exact ((returns_of_leave pass state first second made).mp right).symm
  | again state next made _ _ inductionHypothesis =>
    exact inductionHypothesis ((returns_of_again pass state next second made).mp right)

/-- A measure that every pass decreases along an invariant makes the loop end. -/
theorem terminates_of_measure (invariant : S → Prop) (measure : S → Nat)
    (kept : ∀ state next, invariant state → pass state = .again next →
      invariant next ∧ measure next < measure state)
    (state : S) (initial : invariant state) : Terminates pass state := by
  induction size : measure state using Nat.strongRecOn generalizing state with
  | ind count inductionHypothesis =>
    cases made : pass state with
    | leave result => exact ⟨result, (returns_of_leave pass state result result made).mpr rfl⟩
    | again next =>
      obtain ⟨holds, less⟩ := kept state next initial made
      obtain ⟨result, returned⟩ := inductionHypothesis _ (size ▸ less) next holds rfl
      exact ⟨result, (returns_of_again pass state next result made).mpr returned⟩

/-- What an invariant says about a pass that leaves the loop is true of the result. -/
theorem result_of_invariant (invariant : S → Prop) (post : R → Prop)
    (kept : ∀ state next, invariant state → pass state = .again next → invariant next)
    (leaves : ∀ state result, invariant state → pass state = .leave result → post result)
    (state : S) (initial : invariant state) (result : R) (returned : Returns pass state result) :
    post result := by
  induction returned using returns_induction with
  | leave state made => exact leaves state result initial made
  | again state next made _ _ inductionHypothesis =>
    exact inductionHypothesis (kept state next initial made)

/-- Two loops whose passes agree along an invariant have the same results. -/
theorem returns_congr (other : S → Pass S R) (invariant : S → Prop)
    (agree : ∀ state, invariant state → pass state = other state)
    (kept : ∀ state next, invariant state → pass state = .again next → invariant next)
    (state : S) (initial : invariant state) (result : R) :
    Returns pass state result ↔ Returns other state result := by
  refine exists_congr fun fuel => ?_
  induction fuel generalizing state with
  | zero => exact Iff.rfl
  | succ fuel inductionHypothesis =>
    rw [loop, loop, ← agree state initial]
    cases made : pass state with
    | leave left => exact Iff.rfl
    | again next => exact inductionHypothesis next (kept state next initial made)

section Cycles

/-- A pass leads from one state to the next. -/
def Leads (state next : S) : Prop := pass state = .again next

/-- A loop that ends also ends from every state on its way. -/
theorem terminates_on_way (state reached : S) (ends : Terminates pass state)
    (way : Relation.ReflTransGen (Leads pass) state reached) : Terminates pass reached := by
  induction way with
  | refl => exact ends
  | tail _ one inductionHypothesis =>
    obtain ⟨result, returned⟩ := inductionHypothesis
    exact ⟨result, (returns_of_again pass _ _ result one).mp returned⟩

/-- A loop that comes back to its state never ends. -/
theorem not_terminates_of_return (state : S) (back : Relation.TransGen (Leads pass) state state) :
    ¬ Terminates pass state := by
  rintro ⟨result, returned⟩
  induction returned using returns_induction with
  | leave state made =>
    obtain ⟨next, one, -⟩ := Relation.TransGen.head'_iff.mp back
    rw [Leads, made] at one
    cases one
  | again state next made _ _ inductionHypothesis =>
    -- The next state comes back to itself too, and leads to the end sooner.
    obtain ⟨other, one, rest⟩ := Relation.TransGen.head'_iff.mp back
    obtain rfl : next = other := by
      rw [Leads, made] at one
      exact Pass.again.inj one
    exact inductionHypothesis (Relation.TransGen.tail' rest made)

/-- Over finitely many states a loop ends unless its way leads into a circle. -/
theorem terminates_iff_acyclic (state : S)
    (finite : {reached | Relation.ReflTransGen (Leads pass) state reached}.Finite) :
    Terminates pass state ↔
      ¬ ∃ reached, Relation.ReflTransGen (Leads pass) state reached ∧
        Relation.TransGen (Leads pass) reached reached := by
  constructor
  · rintro ends ⟨reached, way, back⟩
    exact not_terminates_of_return pass reached back (terminates_on_way pass state reached ends way)
  · intro straight
    have graph : AcyclicRecursion.Acyclic (Leads pass)
        (Relation.ReflTransGen (Leads pass) state) :=
      ⟨finite, fun _ _ way one => way.tail one,
        fun reached way back => straight ⟨reached, way, back⟩⟩
    refine AcyclicRecursion.acyclic_induction graph (Terminates pass) (fun reached way later => ?_)
      state .refl
    cases made : pass reached with
    | leave result => exact ⟨result, (returns_of_leave pass reached result result made).mpr rfl⟩
    | again next =>
      obtain ⟨result, returned⟩ := later next made (way.tail made)
      exact ⟨result, (returns_of_again pass reached next result made).mpr returned⟩

end Cycles

end ScicosFlex.Library.WhileLoops
