import Mathlib.Data.Set.Finite.List
import ScicosFlex.Library.Vectors
import ScicosFlex.Library.WhileLoops

/-!
# The search for the sampling clock

The loop with which `do_compile_superblock42` of `FlexCodeGen_.sci` looks for the clock
that activates the superblock: from block to block against the direction of the event
links, always through the first event input. It has no memory of where it was. A field
or an entry that an object does not have stops Scilab with an error.

The loop ends exactly if no block on the way lies upstream of itself
(`clock_search_iff`).
-/

namespace ScicosFlex.Codegen.ClockSearch

open Library.Vectors Library.WhileLoops

/-- An object of a diagram, with the fields the search reads: the `gui` and the
`graphics.pein` of a block, the `from` of a link. -/
inductive Object where
  | block (gui : String) (pein : List Nat)
  | link (source : List Nat)
  | other
deriving DecidableEq, Repr

section Search

variable (objs : List Object)

/-- `objs(o_ev).gui`. -/
def gui (o_ev : Nat) : Option String :=
  match entry objs o_ev with
  | some (.block gui _) => some gui
  | _ => none

/-- `objs(o_ev).graphics.pein(1)`. -/
def firstInput (o_ev : Nat) : Option Nat :=
  match entry objs o_ev with
  | some (.block _ pein) => pein.head?
  | _ => none

/-- `objs(o_ev).from(1)`. -/
def origin (o_ev : Nat) : Option Nat :=
  match entry objs o_ev with
  | some (.link source) => source.head?
  | _ => none

/-- The blocks at which the search stops. -/
def isClock (gui : String) : Bool :=
  gui = "CLOCK_c" || gui = "CLOCK_f" || gui = "SampleCLK" || gui = "rtai_ext_clock"

/-- How the search ends. -/
inductive Outcome where
  | unconnected
  | clock (o_ev : Nat)
  | error
deriving DecidableEq, Repr

/-- One pass of the loop: the test of `gui` and the two assignments of the body. -/
def pass (o_ev : Nat) : Pass Nat Outcome :=
  match gui objs o_ev with
  | none => .leave .error
  | some name =>
    if isClock name then .leave (.clock o_ev)
    else
      match firstInput objs o_ev with
      | none => .leave .error
      | some o_ev =>
        match origin objs o_ev with
        | none => .leave .error
        | some o_ev => .again o_ev

/-- The search from the superblock `XX` with the given `graphics.pein` ends. -/
def Ends (pein : List Nat) (outcome : Outcome) : Prop :=
  match pein with
  | [] | 0 :: _ => outcome = .unconnected
  | link :: _ =>
    match origin objs link with
    | none => outcome = .error
    | some o_ev => Returns (pass objs) o_ev outcome

/-- The first event input of a block that is no clock comes from another block. The
search looks at no other input of a block. -/
def Upstream (bk source : Nat) : Prop :=
  (∃ name, gui objs bk = some name ∧ isClock name = false) ∧
    ∃ link, firstInput objs bk = some link ∧ origin objs link = some source

/-- The blocks upstream of the superblock, that is all that the search can come to. -/
def Above (pein : List Nat) (bk : Nat) : Prop :=
  ∃ link start, pein.head? = some link ∧ link ≠ 0 ∧ origin objs link = some start ∧
    Relation.ReflTransGen (Upstream objs) start bk

/-- How the search may end. -/
def Found (pein : List Nat) : Outcome → Prop
  | .unconnected => pein.headD 0 = 0
  | .clock bk => Above objs pein bk ∧ ∃ name, gui objs bk = some name ∧ isClock name = true
  | .error => True

end Search

section Passes

variable {objs : List Object}

/-- A pass leads one block upstream. -/
theorem leads_iff (bk source : Nat) : Leads (pass objs) bk source ↔ Upstream objs bk source := by
  unfold Leads pass Upstream
  cases named : gui objs bk with
  | none => simp
  | some name =>
    cases clock : isClock name with
    | true => simp [clock]
    | false =>
      cases input : firstInput objs bk with
      | none => simp [clock]
      | some link =>
        cases source : origin objs link with
        | none => simp [clock, source]
        | some other => simp [clock, source]

/-- A pass that leaves the loop has found a clock or stops with an error. -/
theorem leaves_cases (bk : Nat) (outcome : Outcome) (left : pass objs bk = .leave outcome) :
    outcome = .error ∨ ∃ name, outcome = .clock bk ∧ gui objs bk = some name ∧
      isClock name = true := by
  unfold pass at left
  cases named : gui objs bk with
  | none =>
    rw [named] at left
    exact Or.inl (Pass.leave.inj left).symm
  | some name =>
    simp only [named] at left
    split at left
    · rename_i clock
      exact Or.inr ⟨name, (Pass.leave.inj left).symm, rfl, clock⟩
    · split at left
      · exact Or.inl (Pass.leave.inj left).symm
      · split at left
        · exact Or.inl (Pass.leave.inj left).symm
        · cases left

/-- The way of the search is the way upstream. -/
theorem leads_upstream : Leads (pass objs) = Upstream objs :=
  funext fun bk => funext fun source => propext (leads_iff bk source)

/-- The sources of a link. -/
def Object.sources : Object → List Nat
  | .link source => source
  | _ => []

/-- A diagram has finitely many links, so the search comes through finitely many blocks. -/
theorem way_finite (start : Nat) :
    {reached | Relation.ReflTransGen (Leads (pass objs)) start reached}.Finite := by
  refine (List.finite_toSet (start :: objs.flatMap Object.sources)).subset ?_
  intro reached way
  rcases Relation.ReflTransGen.cases_tail way with rfl | ⟨before, -, one⟩
  · exact List.mem_cons_self
  · obtain ⟨-, link, -, found⟩ := (leads_iff before reached).mp one
    unfold origin at found
    split at found
    · rename_i source stored
      exact List.mem_cons_of_mem _ (List.mem_flatMap.mpr
        ⟨.link source, mem_of_entry objs link _ stored, List.mem_of_mem_head? found⟩)
    · cases found

end Passes

section Main

variable {objs : List Object}

/-- What the loop ends with is a clock on its way or an error. -/
theorem loop_found (link start : Nat) (rest : List Nat) (connected : link ≠ 0)
    (source : origin objs link = some start) (outcome : Outcome)
    (returned : Returns (pass objs) start outcome) : Found objs (link :: rest) outcome := by
  refine result_of_invariant (pass objs) (Relation.ReflTransGen (Upstream objs) start)
    (Found objs (link :: rest)) (fun bk next way one => way.tail ((leads_iff bk next).mp one)) ?_
    start .refl outcome returned
  intro bk result way left
  rcases leaves_cases bk result left with rfl | ⟨name, rfl, named, clock⟩
  · trivial
  · exact ⟨⟨link, start, rfl, connected, source, way⟩, name, named, clock⟩

/-- The loop ends unless a block on its way lies upstream of itself. The way is determined
by its start, so it is infinite exactly if it comes back, for the diagram is finite. -/
theorem loop_terminates_iff (start : Nat) :
    Terminates (pass objs) start ↔
      ¬ ∃ bk, Relation.ReflTransGen (Upstream objs) start bk ∧
        Relation.TransGen (Upstream objs) bk bk := by
  rw [terminates_iff_acyclic (pass objs) start (way_finite start), leads_upstream]

end Main

/-- The search for the sampling clock ends, with a clock upstream of the superblock or
with an error, exactly if no block upstream of it, other than the clocks, lies upstream of
itself. A diagram has finitely many blocks, so a search that never ends comes to one of
them twice; and as every block has one block before it, it then goes round for ever. -/
theorem clock_search_iff (objs : List Object) (pein : List Nat) :
    (∃ outcome, Ends objs pein outcome ∧ Found objs pein outcome) ↔
      ¬ ∃ bk, Above objs pein bk ∧ Relation.TransGen (Upstream objs) bk bk := by
  have unconnected (none : pein.headD 0 = 0) (ends : Ends objs pein .unconnected) :
      (∃ outcome, Ends objs pein outcome ∧ Found objs pein outcome) ↔
        ¬ ∃ bk, Above objs pein bk ∧ Relation.TransGen (Upstream objs) bk bk := by
    refine iff_of_true ⟨.unconnected, ends, none⟩ ?_
    rintro ⟨bk, ⟨link, start, first, connected, -⟩, -⟩
    rw [List.headD_eq_head?_getD, first] at none
    exact connected none
  match pein with
  | [] => exact unconnected rfl rfl
  | 0 :: rest => exact unconnected rfl rfl
  | (link + 1) :: rest =>
    cases source : origin objs (link + 1) with
    | none =>
      refine iff_of_true ⟨.error, by simp [Ends, source], trivial⟩ ?_
      rintro ⟨bk, ⟨first, start, head, -, found, -⟩, -⟩
      obtain rfl := Option.some.inj head
      rw [source] at found
      cases found
    | some start =>
      have ends (outcome : Outcome) : Ends objs ((link + 1) :: rest) outcome ↔
          Returns (pass objs) start outcome := by
        simp [Ends, source]
      have above (bk : Nat) : Above objs ((link + 1) :: rest) bk ↔
          Relation.ReflTransGen (Upstream objs) start bk := by
        simp [Above, source]
      simp only [ends, above]
      rw [← loop_terminates_iff start]
      constructor
      · rintro ⟨outcome, returned, -⟩
        exact ⟨outcome, returned⟩
      · rintro ⟨outcome, returned⟩
        exact ⟨outcome, returned,
          loop_found (link + 1) start rest (Nat.succ_ne_zero link) source outcome returned⟩

/-- A clock made of event blocks: a superblock (1) is activated by an event split (2),
which also drives the input of a delay (3), which drives the split. -/
def eventLoop : List Object :=
  [.block "SUPER_f" [4], .block "CLKSPLIT_f" [5], .block "EVTDLY_c" [6], .link [2, 1, 1],
    .link [3, 1, 1], .link [2, 2, 1]]

/-- The search from this superblock does not end. -/
theorem feedback_never_ends : ¬ ∃ outcome, Ends eventLoop [4] outcome := by
  intro ends
  have delay : Leads (pass eventLoop) 2 3 := rfl
  have split : Leads (pass eventLoop) 3 2 := rfl
  exact not_terminates_of_return (pass eventLoop) 2 (.tail (.single delay) split) ends

end ScicosFlex.Codegen.ClockSearch
