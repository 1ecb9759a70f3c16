import ScicosFlex.Library.Runs

/-!
# Components that pass on something made of what comes in

Items come in with the actions, and a step hands out items of another type. `due`
says what a state still has to hand out if some items come in and nothing else
does. A step that keeps to it leaves the same due, less what it has handed out; a
step that may lose items leaves a part of it. `handed_out` carries either law from
the steps to the runs.

`Repeats` is for components that show the last item they got again and again: every
item is shown at least once, and none is left out or shown out of turn.
-/

namespace ScicosFlex.Library.Relays

open Library.Runs

universe u v w
variable {S : Type u} {A : Type v} {I : Type w} {O : Type v}

/-- A comparison of lists under which what comes first may be the same on both sides. -/
structure Comparison (compares : List O → List O → Prop) : Prop where
  refl : ∀ items, compares items items
  trans : ∀ first second third, compares first second → compares second third → compares first third
  behind : ∀ before first second, compares first second → compares (before ++ first) (before ++ second)

/-- Equality says that nothing is lost. -/
theorem comparison_eq : Comparison (O := O) Eq where
  refl _ := rfl
  trans _ _ _ := Eq.trans
  behind before _ _ same := congrArg (before ++ ·) same

/-- To be a sublist says that nothing is invented, repeated or put out of order. -/
theorem comparison_sublist : Comparison (O := O) List.Sublist where
  refl := List.Sublist.refl
  trans _ _ _ := List.Sublist.trans
  behind before _ _ part := part.append_left before

/-- What every guarded step does, a guarded run does. -/
theorem handed_out {compares : List O → List O → Prop} (comparison : Comparison compares)
    (step : S → A → S) (guard : S → A → Prop) (invariant : S → Prop) (incoming : A → List I)
    (out : S → A → List O) (due : S → List I → List O)
    (kept : ∀ state action, invariant state → guard state action → invariant (step state action))
    (local_law : ∀ state action items, invariant state → guard state action →
      compares (out state action ++ due (step state action) items) (due state (incoming action ++ items)))
    (start : S) (actions : List A) (initial : invariant start)
    (guarded : Throughout step guard start actions) (items : List I) :
    compares ((outputs step out start actions).flatten ++ due (run step start actions) items)
      (due start (actions.flatMap incoming ++ items)) := by
  induction actions generalizing start with
  | nil => exact comparison.refl _
  | cons action rest inductionHypothesis =>
    obtain ⟨here, later⟩ := (throughout_cons step guard start action rest).mp guarded
    have behind := inductionHypothesis (step start action) (kept start action initial here) later
    have first := local_law start action (rest.flatMap incoming ++ items) initial here
    rw [outputs_cons, List.flatten_cons, run_cons, List.flatMap_cons, List.append_assoc,
      List.append_assoc]
    exact comparison.trans _ _ _ (comparison.behind (out start action) _ _ behind) first

/-- One more step behind a run that loses nothing but what it may: nothing is lost
exactly if the run before lost nothing and the step does not. -/
theorem lost_step {done pending all out later new : List O} (before : (done ++ pending).Sublist all)
    (part : (out ++ later).Sublist (pending ++ new)) :
    (done ++ out ++ later).Sublist (all ++ new) ∧
      (done ++ out ++ later = all ++ new ↔ done ++ pending = all ∧ out ++ later = pending ++ new) := by
  have behind : (done ++ out ++ later).Sublist (done ++ pending ++ new) := by
    rw [List.append_assoc, List.append_assoc]
    exact part.append_left done
  refine ⟨behind.trans (before.append_right new), ?_⟩
  constructor
  · intro same
    have lengths := congrArg List.length same
    have short := before.length_le
    have shorter := part.length_le
    simp only [List.length_append] at lengths short shorter
    refine ⟨before.eq_of_length ?_, part.eq_of_length ?_⟩ <;> simp only [List.length_append] <;> omega
  · rintro ⟨rfl, same⟩
    rw [List.append_assoc, same, List.append_assoc]

/-- What is shown are the items, each once or several times, behind the one that was
shown before. -/
inductive Repeats : (current : O) → (items shown : List O) → Prop
  | nil (current : O) : Repeats current [] []
  | again {current : O} {items shown : List O} (rest : Repeats current items shown) :
    Repeats current items (current :: shown)
  | new {current item : O} {items shown : List O} (rest : Repeats item items shown) :
    Repeats current (item :: items) (item :: shown)

/-- The last item is shown again. -/
theorem Repeats.append_again {current : O} {items shown : List O} (repeats : Repeats current items shown) :
    Repeats current items (shown ++ [items.getLast?.getD current]) := by
  induction repeats with
  | nil current => exact .again (.nil current)
  | again rest inductionHypothesis => exact .again inductionHypothesis
  | new rest inductionHypothesis =>
    rw [List.getLast?_cons, Option.getD_some]
    exact .new inductionHypothesis

/-- A new item is shown. -/
theorem Repeats.append_new {current : O} {items shown : List O} (repeats : Repeats current items shown)
    (item : O) : Repeats current (items ++ [item]) (shown ++ [item]) := by
  induction repeats with
  | nil current => exact .new (.nil item)
  | again rest inductionHypothesis => exact .again inductionHypothesis
  | new rest inductionHypothesis => exact .new inductionHypothesis

end ScicosFlex.Library.Relays
