/-!
# Runs of a deterministic step function

A run folds a step function over a list of actions. `Throughout` says what holds
whenever an action is about to be taken, `Reached` what holds of every state the
run goes through, both ends included. The rules let a proof about one step carry
over to a whole run; `simulation_iff` does so for an exact simulation, where a
step matches the abstract one if and only if its guard holds, and `guarded_iff` for
an invariant that is kept exactly by the steps whose guard holds.

The last part is about components that pass items on. Each action brings items
in, each step hands items out, and a state still holds the pending ones.
`conserved_iff` reduces first-in first-out delivery of a run to its single steps.
-/

namespace ScicosFlex.Library.Runs

universe u v w
variable {S : Type u} {T : Type v} {A : Type w}

/-- The state after a list of actions. -/
def run (step : S → A → S) (start : S) (actions : List A) : S := actions.foldl step start

/-- `P` holds of the state before each action and of that action. -/
def Throughout (step : S → A → S) (P : S → A → Prop) (start : S) (actions : List A) : Prop :=
  ∀ done action rest, actions = done ++ action :: rest → P (run step start done) action

/-- `P` holds of every state the run goes through. -/
def Reached (step : S → A → S) (P : S → Prop) (start : S) (actions : List A) : Prop :=
  ∀ done rest, actions = done ++ rest → P (run step start done)

@[simp] theorem run_nil (step : S → A → S) (start : S) : run step start [] = start := rfl

@[simp] theorem run_cons (step : S → A → S) (start : S) (action : A) (rest : List A) :
    run step start (action :: rest) = run step (step start action) rest := rfl

/-- A run can be cut anywhere. -/
theorem run_append (step : S → A → S) (start : S) (left right : List A) :
    run step start (left ++ right) = run step (run step start left) right :=
  List.foldl_append

/-- A run without actions has no action to check. -/
theorem throughout_nil (step : S → A → S) (P : S → A → Prop) (start : S) :
    Throughout step P start [] := by
  intro done action rest split
  simp at split

/-- A run's first action is checked in the start state, the others in the run
behind it. -/
theorem throughout_cons (step : S → A → S) (P : S → A → Prop) (start : S) (action : A)
    (rest : List A) : Throughout step P start (action :: rest) ↔
      P start action ∧ Throughout step P (step start action) rest := by
  constructor
  · intro along
    refine ⟨along [] action rest rfl, ?_⟩
    intro done next tail split
    exact along (action :: done) next tail (by rw [split]; rfl)
  · rintro ⟨here, later⟩ done next tail split
    cases done with
    | nil =>
      obtain ⟨rfl, rfl⟩ := List.cons.inj split
      exact here
    | cons head middle =>
      obtain ⟨rfl, rfl⟩ := List.cons.inj split
      exact later middle next tail rfl

/-- A run in two parts is checked in both. -/
theorem throughout_append (step : S → A → S) (P : S → A → Prop) (start : S)
    (left right : List A) : Throughout step P start (left ++ right) ↔
      Throughout step P start left ∧ Throughout step P (run step start left) right := by
  induction left generalizing start with
  | nil => simp [throughout_nil]
  | cons action rest inductionHypothesis =>
    rw [List.cons_append, throughout_cons, throughout_cons, inductionHypothesis, run_cons,
      and_assoc]

/-- A run without actions only goes through its start. -/
theorem reached_nil (step : S → A → S) (P : S → Prop) (start : S) :
    Reached step P start [] ↔ P start := by
  constructor
  · intro everywhere
    exact everywhere [] [] rfl
  · intro here done rest split
    obtain ⟨rfl, rfl⟩ := List.append_eq_nil_iff.mp split.symm
    exact here

/-- A run goes through its start and through the states of the run behind its
first action. -/
theorem reached_cons (step : S → A → S) (P : S → Prop) (start : S) (action : A)
    (rest : List A) : Reached step P start (action :: rest) ↔
      P start ∧ Reached step P (step start action) rest := by
  constructor
  · intro everywhere
    refine ⟨everywhere [] (action :: rest) rfl, ?_⟩
    intro done tail split
    exact everywhere (action :: done) tail (by rw [split]; rfl)
  · rintro ⟨here, later⟩ done tail split
    cases done with
    | nil => exact here
    | cons head middle =>
      obtain ⟨rfl, rfl⟩ := List.cons.inj split
      exact later middle tail rfl

/-- What holds at the start and is kept by every step whose guard holds is true
of all states of a guarded run. -/
theorem reached_of_invariant (step : S → A → S) (guard : S → A → Prop) (P : S → Prop)
    (kept : ∀ state action, P state → guard state action → P (step state action))
    (start : S) (actions : List A) (initial : P start)
    (guarded : Throughout step guard start actions) : Reached step P start actions := by
  induction actions generalizing start with
  | nil => exact (reached_nil step P start).mpr initial
  | cons action rest inductionHypothesis =>
    obtain ⟨here, later⟩ := (throughout_cons step guard start action rest).mp guarded
    exact (reached_cons step P start action rest).mpr
      ⟨initial, inductionHypothesis _ (kept start action initial here) later⟩

/-- Along a guarded run an invariant also justifies what it says about each step. -/
theorem throughout_of_invariant (step : S → A → S) (guard : S → A → Prop) (P : S → Prop)
    (Q : S → A → Prop)
    (kept : ∀ state action, P state → guard state action → P (step state action))
    (observed : ∀ state action, P state → guard state action → Q state action)
    (start : S) (actions : List A) (initial : P start)
    (guarded : Throughout step guard start actions) : Throughout step Q start actions := by
  intro done action rest split
  have reached := reached_of_invariant step guard P kept start actions initial guarded
  exact observed _ _ (reached done (action :: rest) split) (guarded done action rest split)

/-- A weaker property holds wherever the stronger one does. -/
theorem Reached.mono {step : S → A → S} {P Q : S → Prop} {start : S} {actions : List A}
    (reached : Reached step P start actions) (weaker : ∀ state, P state → Q state) :
    Reached step Q start actions :=
  fun done rest split => weaker _ (reached done rest split)

/-- Two step functions side by side. -/
def paired (step : S → A → S) (abstractStep : T → A → T) (state : S × T) (action : A) : S × T :=
  (step state.1 action, abstractStep state.2 action)

/-- A paired run is the pair of both runs. -/
theorem run_paired (step : S → A → S) (abstractStep : T → A → T) (state : S) (abstract : T)
    (actions : List A) : run (paired step abstractStep) (state, abstract) actions =
      (run step state actions, run abstractStep abstract actions) := by
  induction actions generalizing state abstract with
  | nil => rfl
  | cons action rest inductionHypothesis => exact inductionHypothesis _ _

/-- A guard of the first component is checked along the first component's run. -/
theorem throughout_paired (step : S → A → S) (abstractStep : T → A → T) (P : S → A → Prop)
    (state : S) (abstract : T) (actions : List A) :
    Throughout (paired step abstractStep) (fun both => P both.1) (state, abstract) actions ↔
      Throughout step P state actions := by
  simp only [Throughout, run_paired]

/-- A guard of the second component is checked along the second component's run. -/
theorem throughout_noted (step : S → A → S) (abstractStep : T → A → T) (P : T → A → Prop)
    (state : S) (abstract : T) (actions : List A) :
    Throughout (paired step abstractStep) (fun both => P both.2) (state, abstract) actions ↔
      Throughout abstractStep P abstract actions := by
  simp only [Throughout, run_paired]

/-- Exact simulation along a run. Suppose that from related states an admissible
action leads to related states with a right answer exactly when its guard holds.
Then a run of admissible actions from related states stays related and gives
right answers throughout exactly when all its guards hold.

Both directions follow the run: as long as the guards hold the states are
related, and the first guard that fails leads to an unrelated pair or a wrong
answer. -/
theorem simulation_iff (step : S → A → S) (abstractStep : T → A → T) (related : S → T → Prop)
    (admissible guard : S → A → Prop) (answers : S × T → A → Prop)
    (exact_step : ∀ state abstract action, related state abstract → admissible state action →
      ((related (step state action) (abstractStep abstract action) ∧
        answers (state, abstract) action) ↔ guard state action))
    (state : S) (abstract : T) (actions : List A) (initial : related state abstract)
    (legal : Throughout step admissible state actions) :
    (Reached (paired step abstractStep) (fun both => related both.1 both.2) (state, abstract)
        actions ∧
      Throughout (paired step abstractStep) answers (state, abstract) actions) ↔
      Throughout step guard state actions := by
  induction actions generalizing state abstract with
  | nil => simp [reached_nil, throughout_nil, initial]
  | cons action rest inductionHypothesis =>
    obtain ⟨admitted, legalRest⟩ := (throughout_cons step admissible state action rest).mp legal
    have here := exact_step state abstract action initial admitted
    rw [reached_cons, throughout_cons, throughout_cons]
    constructor
    · rintro ⟨⟨-, later⟩, answered, laterAnswered⟩
      have related_next := later [] rest rfl
      refine ⟨here.mp ⟨related_next, answered⟩, ?_⟩
      exact (inductionHypothesis _ _ related_next legalRest).mp ⟨later, laterAnswered⟩
    · rintro ⟨guarded, laterGuarded⟩
      obtain ⟨related_next, answered⟩ := here.mpr guarded
      obtain ⟨later, laterAnswered⟩ :=
        (inductionHypothesis _ _ related_next legalRest).mpr laterGuarded
      exact ⟨⟨initial, later⟩, answered, laterAnswered⟩

/-- When an invariant is kept exactly by the guarded steps. Suppose a guarded step
keeps the invariant and does what `Q` says, and a step without its guard does not,
or leads to a state without `P`. Then a run goes through states with `P` by steps
with `Q` exactly when all its guards hold. -/
theorem guarded_iff (step : S → A → S) (admissible guard : S → A → Prop) (invariant P : S → Prop)
    (Q : S → A → Prop)
    (kept : ∀ state action, invariant state → admissible state action → guard state action →
      invariant (step state action) ∧ Q state action)
    (holds : ∀ state, invariant state → P state)
    (needed : ∀ state action, invariant state → admissible state action →
      P (step state action) → Q state action → guard state action)
    (start : S) (actions : List A) (initial : invariant start)
    (legal : Throughout step admissible start actions) :
    (Reached step P start actions ∧ Throughout step Q start actions) ↔
      Throughout step guard start actions := by
  induction actions generalizing start with
  | nil => simp [reached_nil, throughout_nil, holds start initial]
  | cons action rest inductionHypothesis =>
    obtain ⟨admitted, legalRest⟩ := (throughout_cons step admissible start action rest).mp legal
    rw [reached_cons, throughout_cons, throughout_cons]
    constructor
    · rintro ⟨⟨-, later⟩, observed, laterObserved⟩
      have here := needed start action initial admitted (later [] rest rfl) observed
      have next := (kept start action initial admitted here).1
      exact ⟨here, (inductionHypothesis _ next legalRest).mp ⟨later, laterObserved⟩⟩
    · rintro ⟨here, laterGuarded⟩
      obtain ⟨next, observed⟩ := kept start action initial admitted here
      obtain ⟨later, laterObserved⟩ := (inductionHypothesis _ next legalRest).mpr laterGuarded
      exact ⟨⟨holds start initial, later⟩, observed, laterObserved⟩

section Flow

variable {O : Type w}

/-- The outputs of a run, one for each action. -/
def outputs (step : S → A → S) (out : S → A → O) (start : S) : List A → List O
  | [] => []
  | action :: rest => out start action :: outputs step out (step start action) rest

@[simp] theorem outputs_nil (step : S → A → S) (out : S → A → O) (start : S) :
    outputs step out start [] = [] := rfl

@[simp] theorem outputs_cons (step : S → A → S) (out : S → A → O) (start : S) (action : A)
    (rest : List A) : outputs step out start (action :: rest) =
      out start action :: outputs step out (step start action) rest := rfl

/-- A step hands out the oldest items and keeps the others pending, in order. -/
def PassesOn (step : S → A → S) (incoming : A → List O) (out : S → A → List O)
    (pending : S → List O) (state : S) (action : A) : Prop :=
  pending state ++ incoming action = out state action ++ pending (step state action)

/-- At every moment of a run the items handed out so far and those still pending
are the items pending at the start and those brought in since, in order. -/
def Conserved (step : S → A → S) (incoming : A → List O) (out : S → A → List O)
    (pending : S → List O) (start : S) (actions : List A) : Prop :=
  ∀ done rest, actions = done ++ rest →
    pending start ++ done.flatMap incoming =
      (outputs step out start done).flatten ++ pending (run step start done)

/-- A run conserves its items if and only if every single step does. In one direction
the step laws are composed along the run, in the other a run is compared with the one
that is a step longer. -/
theorem conserved_iff (step : S → A → S) (incoming : A → List O) (out : S → A → List O)
    (pending : S → List O) (start : S) (actions : List A) :
    Conserved step incoming out pending start actions ↔
      Throughout step (PassesOn step incoming out pending) start actions := by
  induction actions generalizing start with
  | nil =>
    refine ⟨fun _ => throughout_nil _ _ _, fun _ done rest split => ?_⟩
    obtain ⟨rfl, rfl⟩ := List.append_eq_nil_iff.mp split.symm
    simp
  | cons action rest inductionHypothesis =>
    rw [throughout_cons, ← inductionHypothesis]
    constructor
    · intro conserved
      have here : PassesOn step incoming out pending start action := by
        simpa [PassesOn] using conserved [action] rest rfl
      refine ⟨here, fun done tail split => ?_⟩
      have whole := conserved (action :: done) tail (by rw [split]; rfl)
      rw [List.flatMap_cons, ← List.append_assoc, here, outputs_cons, List.flatten_cons,
        run_cons, List.append_assoc, List.append_assoc] at whole
      exact List.append_cancel_left whole
    · rintro ⟨here, later⟩ done tail split
      cases done with
      | nil => simp
      | cons head middle =>
        obtain ⟨rfl, rfl⟩ := List.cons.inj split
        rw [List.flatMap_cons, ← List.append_assoc, here, outputs_cons, List.flatten_cons,
          run_cons, List.append_assoc, List.append_assoc, later middle tail rfl]

/-- If no step invents or reorders items, neither does a run. -/
theorem delivered_sublist (step : S → A → S) (incoming : A → List O) (out : S → A → List O)
    (pending : S → List O)
    (local_law : ∀ state action, (out state action ++ pending (step state action)).Sublist
      (pending state ++ incoming action)) (start : S) (actions : List A) :
    ((outputs step out start actions).flatten ++ pending (run step start actions)).Sublist
      (pending start ++ actions.flatMap incoming) := by
  induction actions generalizing start with
  | nil => simp
  | cons action rest inductionHypothesis =>
    rw [outputs_cons, List.flatten_cons, run_cons, List.flatMap_cons, List.append_assoc,
      ← List.append_assoc (pending start)]
    apply ((inductionHypothesis (step start action)).append_left _).trans
    rw [← List.append_assoc]
    exact (local_law start action).append_right _

end Flow

end ScicosFlex.Library.Runs
