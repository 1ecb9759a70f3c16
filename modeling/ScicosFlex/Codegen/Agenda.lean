import Mathlib
import ScicosFlex.Library.Ranks
import ScicosFlex.Library.Vectors

/-!
# The renumbered agenda

In the generated program only primary activation sources have events of their own: the
events of synchronisation blocks (`funtyp` -1 and -2) are taken out of the agenda, and
the others are numbered again. `FlexCodeGen_.sci` has three functions for it, each with a
loop over `clkptr`: `adjust_agenda` for vectors with an entry for every event,
`adjust_clkptr` for the pointer vector itself, and `adjust_pointi` for the number of an
event. `make_standalonert` applies them to the initial agenda, `get_ind_clkptr` gives the
calls of `addevs` their event numbers.

All three compute one numbering, the rank among the primary events
(`Clocks.adjustPointi_rank`), and a walk through the renumbered agenda is the walk through the
old one, event by event (`Clocks.walk_renumbered`).

Block and event numbers start at 1; `clkptr` is a total function on block numbers, of
which `1..nblk+1` count.
-/

namespace ScicosFlex.Codegen.Agenda

open Library.Ranks Library.Vectors

universe u

/-- `funtyp(i)==-1 | funtyp(i)==-2`: a synchronisation block. -/
def Secondary (funtyp : Nat → Int) (i : Nat) : Prop := funtyp i = -1 ∨ funtyp i = -2

instance (funtyp : Nat → Int) (i : Nat) : Decidable (Secondary funtyp i) :=
  inferInstanceAs (Decidable (_ ∨ _))

section Functions

variable (nblk : Nat) (clkptr : Nat → Int) (funtyp : Nat → Int)

/-- The indices of `for i=1:size(clkptr,1)`. -/
def pointers : List Nat := List.range' 1 (nblk + 1)

/-- `evts(k:k+j-1)`. -/
def part {α : Type u} (evts : List α) (k j : Int) : Option (List α) :=
  if j ≤ 0 then some []
  else if 1 ≤ k ∧ k + j - 1 ≤ evts.length then
    some ((evts.drop (k - 1).toNat).take j.toNat)
  else none

/-- The variables of `adjust_agenda`. -/
structure Cursor (α : Type u) where
  k : Int
  newAgenda : List α

/-- The loop body of `adjust_agenda`. -/
def agendaStep {α : Type u} (evts : List α) (vars : Cursor α) (i : Nat) : Option (Cursor α) :=
  if i ≠ nblk + 1 then
    let j := clkptr (i + 1) - clkptr i
    if j ≠ 0 then
      if ¬ Secondary funtyp i then
        (part evts vars.k j).map fun chunk => ⟨vars.k + j, vars.newAgenda ++ chunk⟩
      else some { vars with k := vars.k + j }
    else some vars
  else some vars

/-- `adjust_agenda(evts,clkptr,funtyp)`. -/
def adjustAgenda {α : Type u} (evts : List α) : Option (List α) :=
  ((pointers nblk).foldlM (agendaStep nblk clkptr funtyp evts) ⟨1, []⟩).map Cursor.newAgenda

/-- The loop body of `adjust_clkptr`. The vector is changed while it is read. -/
def clkptrStep (vars : (Nat → Int) × Int) (i : Nat) : (Nat → Int) × Int :=
  let clkptr := Function.update vars.1 i (vars.1 i - vars.2)
  if i ≠ nblk + 1 then
    if Secondary funtyp i then (clkptr, clkptr (i + 1) - clkptr i) else (clkptr, vars.2)
  else (clkptr, vars.2)

/-- `adjust_clkptr(clkptr,funtyp)`. -/
def adjustClkptr : Nat → Int :=
  ((pointers nblk).foldl (clkptrStep nblk funtyp) (clkptr, 0)).1

/-- `get_ind_clkptr(bk,clkptr,funtyp)`. -/
def getIndClkptr (bk : Nat) : Int := adjustClkptr nblk clkptr funtyp bk

/-- The loop of `adjust_pointi`, which ends at the first block behind the event. -/
def pointiLoop (pointi : Int) : List Nat → Int → Int
  | [], newPointi => newPointi
  | i :: rest, newPointi =>
    if clkptr i > pointi then newPointi
    else if i ≠ nblk + 1 then
      if Secondary funtyp i then
        let j := clkptr (i + 1) - clkptr i
        pointiLoop pointi rest (newPointi - j)
      else pointiLoop pointi rest newPointi
    else pointiLoop pointi rest newPointi

/-- `adjust_pointi(pointi,clkptr,funtyp)`. -/
def adjustPointi (pointi : Int) : Int :=
  pointiLoop nblk clkptr funtyp pointi (pointers nblk) pointi

/-- The vector `new_evtspt` of `make_standalonert`. -/
def newEvtspt (evtspt : List Int) : Option (List Int) :=
  (adjustAgenda nblk clkptr funtyp evtspt).map fun entries =>
    entries.map fun target => if 0 < target then adjustPointi nblk clkptr funtyp target else target

/-- The event is one of a block that is no synchronisation block. Only these events keep
a place in the agenda of the generated program. -/
def Primary (event : Int) : Prop :=
  ∃ b ∈ List.range' 1 nblk, ¬ Secondary funtyp b ∧ clkptr b ≤ event ∧ event < clkptr (b + 1)

instance (event : Int) : Decidable (Primary nblk clkptr funtyp event) :=
  inferInstanceAs (Decidable (∃ b ∈ _, _))

/-- The primary events. -/
noncomputable def primaryEvents : Finset Int :=
  (Finset.Ico 1 (clkptr (nblk + 1))).filter (Primary nblk clkptr funtyp)

end Functions

/-- The first events of a walk through an agenda: `evtspt` has the event behind every
event, and what is not positive ends the walk. -/
def walk (evtspt : List Int) : Nat → Int → List Int
  | 0, _ => []
  | count + 1, event =>
    if 0 < event then
      match entry evtspt event.toNat with
      | some next => event :: walk evtspt count next
      | none => [event]
    else []

/-- The pointer vector of a compiled diagram. Events are numbered from one, block by
block, and a block without event outputs begins where the next one does. -/
structure Clocks where
  nblk : Nat
  clkptr : Nat → Int
  funtyp : Nat → Int
  starts : clkptr 1 = 1
  monotone : ∀ i, 1 ≤ i → i ≤ nblk → clkptr i ≤ clkptr (i + 1)

namespace Clocks

variable (clocks : Clocks)

/-- How many events the synchronisation blocks among the first blocks have. -/
def removed : Nat → Int
  | 0 => 0
  | n + 1 => removed n +
      if Secondary clocks.funtyp (n + 1) then clocks.clkptr (n + 1 + 1) - clocks.clkptr (n + 1) else 0

/-- The pointer vector does not decrease. -/
theorem clkptr_le (first second : Nat) (positive : 1 ≤ first) (ordered : first ≤ second)
    (inside : second ≤ clocks.nblk + 1) : clocks.clkptr first ≤ clocks.clkptr second := by
  induction second, ordered using Nat.le_induction with
  | base => exact le_rfl
  | succ second ordered inductionHypothesis =>
    exact (inductionHypothesis (by omega)).trans
      (clocks.monotone second (positive.trans ordered) (by omega))

/-- The event is one of the block. -/
def Owns (b : Nat) (event : Int) : Prop :=
  1 ≤ b ∧ b ≤ clocks.nblk ∧ clocks.clkptr b ≤ event ∧ event < clocks.clkptr (b + 1)

/-- An event belongs to one block. -/
theorem owner_unique (first second : Nat) (event : Int) (left : clocks.Owns first event)
    (right : clocks.Owns second event) : first = second := by
  obtain ⟨firstPositive, firstInside, firstFrom, firstTo⟩ := left
  obtain ⟨secondPositive, secondInside, secondFrom, secondTo⟩ := right
  rcases Nat.lt_trichotomy first second with less | same | greater
  · have ordered := clocks.clkptr_le (first + 1) second (by omega) less (by omega)
    omega
  · exact same
  · have ordered := clocks.clkptr_le (second + 1) first (by omega) greater (by omega)
    omega

/-- The event is primary. -/
abbrev PrimaryEvent (event : Int) : Prop :=
  Primary clocks.nblk clocks.clkptr clocks.funtyp event

/-- The events of a block are primary if the block is no synchronisation block. -/
theorem primary_iff (b : Nat) (event : Int) (owns : clocks.Owns b event) :
    clocks.PrimaryEvent event ↔ ¬ Secondary clocks.funtyp b := by
  constructor
  · rintro ⟨other, listed, primary, bounds⟩
    have range := List.mem_range'_1.mp listed
    have same := clocks.owner_unique other b event ⟨range.1, by omega, bounds⟩ owns
    rwa [← same]
  · intro primary
    exact ⟨b, List.mem_range'_1.mpr ⟨owns.1, by have := owns.2.1; omega⟩, primary, owns.2.2⟩

/-- A primary event belongs to a block that is no synchronisation block. -/
theorem owner_of_primary (event : Int) (primary : clocks.PrimaryEvent event) :
    ∃ b, clocks.Owns b event ∧ ¬ Secondary clocks.funtyp b := by
  obtain ⟨b, listed, kind, bounds⟩ := primary
  have range := List.mem_range'_1.mp listed
  exact ⟨b, ⟨range.1, by omega, bounds⟩, kind⟩

/-- Nothing is removed with a block that is no synchronisation block. -/
theorem removed_primary (b : Nat) (positive : 1 ≤ b) (primary : ¬ Secondary clocks.funtyp b) :
    clocks.removed b = clocks.removed (b - 1) := by
  obtain ⟨n, rfl⟩ : ∃ n, b = n + 1 := ⟨b - 1, by omega⟩
  simp [removed, primary]

section Pointi

variable (pointi : Int)

/-- What the loop of `adjust_pointi` has done behind some blocks before the event. -/
theorem pointiLoop_behind (n : Nat) (inside : n ≤ clocks.nblk)
    (before : ∀ i, 1 ≤ i → i ≤ n → clocks.clkptr i ≤ pointi) :
    adjustPointi clocks.nblk clocks.clkptr clocks.funtyp pointi =
      pointiLoop clocks.nblk clocks.clkptr clocks.funtyp pointi
        (List.range' (n + 1) (clocks.nblk + 1 - n)) (pointi - clocks.removed n) := by
  induction n with
  | zero => simp [adjustPointi, pointers, removed]
  | succ n inductionHypothesis =>
    have here := before (n + 1) (by omega) le_rfl
    have inner : n + 1 ≠ clocks.nblk + 1 := by omega
    have next : List.range' (n + 1) (clocks.nblk + 1 - n) =
        (n + 1) :: List.range' (n + 1 + 1) (clocks.nblk + 1 - (n + 1)) := by
      rw [show clocks.nblk + 1 - n = clocks.nblk + 1 - (n + 1) + 1 by omega]
      rfl
    rw [inductionHypothesis (by omega) fun i positive below => before i positive (by omega),
      next, pointiLoop, if_neg (not_lt.mpr here), if_pos inner]
    split
    · next secondary =>
      rw [show clocks.removed (n + 1) = clocks.removed n +
        (clocks.clkptr (n + 1 + 1) - clocks.clkptr (n + 1)) by simp [removed, secondary],
        ← Int.sub_sub]
    · next primary =>
      rw [clocks.removed_primary (n + 1) (by omega) primary]
      rfl

/-- `adjust_pointi` leaves out what the synchronisation blocks before the event have. -/
theorem adjustPointi_eq (b : Nat) (owns : clocks.Owns b pointi)
    (primary : ¬ Secondary clocks.funtyp b) :
    adjustPointi clocks.nblk clocks.clkptr clocks.funtyp pointi =
      pointi - clocks.removed (b - 1) := by
  obtain ⟨positive, inside, above, below⟩ := owns
  have before : ∀ i, 1 ≤ i → i ≤ b → clocks.clkptr i ≤ pointi := fun i natural less =>
    (clocks.clkptr_le i b natural less (by omega)).trans above
  have next : List.range' (b + 1) (clocks.nblk + 1 - b) =
      (b + 1) :: List.range' (b + 1 + 1) (clocks.nblk - b) := by
    rw [show clocks.nblk + 1 - b = clocks.nblk - b + 1 by omega]
    rfl
  rw [clocks.pointiLoop_behind pointi b inside before, next, pointiLoop, if_pos below,
    clocks.removed_primary b positive primary]

end Pointi

section Pointers

/-- What the loop of `adjust_clkptr` has done behind some blocks: `j` counts all removed
events, since the entry it is computed from has been lowered already. -/
theorem clkptrLoop_behind (n : Nat) (inside : n ≤ clocks.nblk) :
    let vars := (List.range' 1 n).foldl (clkptrStep clocks.nblk clocks.funtyp) (clocks.clkptr, 0)
    (∀ i, 1 ≤ i → vars.1 i =
      if i ≤ n then clocks.clkptr i - clocks.removed (i - 1) else clocks.clkptr i) ∧
    vars.2 = clocks.removed n := by
  induction n with
  | zero =>
    refine ⟨fun i positive => ?_, rfl⟩
    rw [if_neg (by omega)]
    rfl
  | succ n inductionHypothesis =>
    obtain ⟨entries, count⟩ := inductionHypothesis (by omega)
    rw [List.range'_1_concat, List.foldl_append, List.foldl_cons, List.foldl_nil]
    generalize (List.range' 1 n).foldl (clkptrStep clocks.nblk clocks.funtyp)
      (clocks.clkptr, 0) = vars at entries count
    have inner : 1 + n ≠ clocks.nblk + 1 := by omega
    have here : vars.1 (1 + n) - vars.2 = clocks.clkptr (1 + n) - clocks.removed n := by
      rw [entries (1 + n) (by omega), if_neg (by omega), count]
    have next : vars.1 (1 + n + 1) = clocks.clkptr (1 + n + 1) := by
      rw [entries (1 + n + 1) (by omega), if_neg (by omega)]
    have lowered : ∀ i, 1 ≤ i → Function.update vars.1 (1 + n) (vars.1 (1 + n) - vars.2) i =
        if i ≤ n + 1 then clocks.clkptr i - clocks.removed (i - 1) else clocks.clkptr i := by
      intro i positive
      by_cases same : i = 1 + n
      · subst same
        rw [Function.update_self, here, if_pos (by omega), Nat.add_sub_cancel_left]
      · rw [Function.update_of_ne same, entries i positive]
        by_cases early : i ≤ n
        · rw [if_pos early, if_pos (by omega)]
        · rw [if_neg early, if_neg (by omega)]
    simp only [clkptrStep, if_pos inner]
    split
    · next secondary =>
      refine ⟨lowered, ?_⟩
      change Function.update vars.1 (1 + n) _ (1 + n + 1) -
        Function.update vars.1 (1 + n) _ (1 + n) = clocks.removed (n + 1)
      rw [Function.update_of_ne (by omega), Function.update_self, here, next, removed,
        if_pos (by rwa [Nat.add_comm n 1]), Nat.add_comm 1 n]
      omega
    · next primary =>
      refine ⟨lowered, ?_⟩
      change vars.2 = clocks.removed (n + 1)
      rw [count, clocks.removed_primary (n + 1) (by omega) (by rwa [Nat.add_comm n 1])]
      rfl

/-- `adjust_clkptr` lowers every entry by what is removed before it. -/
theorem adjustClkptr_eq (i : Nat) (positive : 1 ≤ i) (inside : i ≤ clocks.nblk + 1) :
    adjustClkptr clocks.nblk clocks.clkptr clocks.funtyp i =
      clocks.clkptr i - clocks.removed (i - 1) := by
  obtain ⟨entries, count⟩ := clocks.clkptrLoop_behind clocks.nblk le_rfl
  rw [adjustClkptr, pointers, List.range'_1_concat, List.foldl_append, List.foldl_cons,
    List.foldl_nil, clkptrStep, if_neg (by omega)]
  dsimp only
  by_cases last : i = 1 + clocks.nblk
  · subst last
    rw [Function.update_self, entries _ positive, if_neg (by omega), count,
      Nat.add_sub_cancel_left]
  · rw [Function.update_of_ne last, entries i positive, if_pos (by omega)]

end Pointers

section Ranking

/-- The primary events up to a place in a block: all before the block, and the block's own. -/
theorem count_within (n : Nat) (inside : n < clocks.nblk) (place : Int)
    (above : clocks.clkptr (n + 1) ≤ place) (below : place ≤ clocks.clkptr (n + 1 + 1)) :
    (((Finset.Ico 1 place).filter clocks.PrimaryEvent).card : Int) =
      ((Finset.Ico 1 (clocks.clkptr (n + 1))).filter clocks.PrimaryEvent).card +
        if Secondary clocks.funtyp (n + 1) then 0 else place - clocks.clkptr (n + 1) := by
  have first : 1 ≤ clocks.clkptr (n + 1) :=
    clocks.starts ▸ clocks.clkptr_le 1 (n + 1) le_rfl (by omega) (by omega)
  have owned : ∀ event ∈ Finset.Ico (clocks.clkptr (n + 1)) place, clocks.Owns (n + 1) event := by
    intro event member
    have bounds := Finset.mem_Ico.mp member
    exact ⟨by omega, by omega, bounds.1, bounds.2.trans_le below⟩
  have parts : ((Finset.Ico 1 place).filter clocks.PrimaryEvent).card =
      ((Finset.Ico 1 (clocks.clkptr (n + 1))).filter clocks.PrimaryEvent).card +
        ((Finset.Ico (clocks.clkptr (n + 1)) place).filter clocks.PrimaryEvent).card := by
    rw [← Finset.Ico_union_Ico_eq_Ico first above, Finset.filter_union,
      Finset.card_union_of_disjoint]
    exact Finset.disjoint_filter_filter (Finset.Ico_disjoint_Ico_consecutive _ _ _)
  rw [parts, Nat.cast_add]
  congr 1
  split
  · next secondary =>
    rw [Finset.filter_false_of_mem fun event member primary =>
      (clocks.primary_iff (n + 1) event (owned event member)).mp primary secondary]
    rfl
  · next primary =>
    rw [Finset.filter_true_of_mem fun event member =>
      (clocks.primary_iff (n + 1) event (owned event member)).mpr primary, Int.card_Ico]
    omega

/-- The primary events before a block. -/
theorem count_before (n : Nat) (inside : n ≤ clocks.nblk) :
    (((Finset.Ico 1 (clocks.clkptr (n + 1))).filter clocks.PrimaryEvent).card : Int) =
      clocks.clkptr (n + 1) - 1 - clocks.removed n := by
  induction n with
  | zero => simp [clocks.starts, removed]
  | succ n inductionHypothesis =>
    have ordered := clocks.monotone (n + 1) (by omega) inside
    rw [clocks.count_within n (by omega) _ ordered le_rfl, inductionHypothesis (by omega), removed]
    split <;> omega

/-- `adjust_pointi` gives a primary event its rank among the primary events. -/
theorem adjustPointi_rank (event : Int) (primary : clocks.PrimaryEvent event) :
    adjustPointi clocks.nblk clocks.clkptr clocks.funtyp event =
      rank (primaryEvents clocks.nblk clocks.clkptr clocks.funtyp) event := by
  obtain ⟨b, owns, kind⟩ := clocks.owner_of_primary event primary
  rw [clocks.adjustPointi_eq event b owns kind]
  obtain ⟨positive, inside, above, below⟩ := owns
  obtain ⟨n, rfl⟩ : ∃ n, b = n + 1 := ⟨b - 1, by omega⟩
  have last := clocks.clkptr_le (n + 1 + 1) (clocks.nblk + 1) (by omega) (by omega) le_rfl
  have counted : (primaryEvents clocks.nblk clocks.clkptr clocks.funtyp).filter (· ≤ event) =
      (Finset.Ico 1 (event + 1)).filter clocks.PrimaryEvent := by
    ext place
    simp only [primaryEvents, Finset.mem_filter, Finset.mem_Ico]
    constructor
    · rintro ⟨⟨⟨low, -⟩, member⟩, upTo⟩
      exact ⟨⟨low, by omega⟩, member⟩
    · rintro ⟨⟨low, upTo⟩, member⟩
      exact ⟨⟨⟨low, by omega⟩, member⟩, by omega⟩
  rw [rank, counted, clocks.count_within n inside (event + 1) (by omega) (by omega),
    clocks.count_before n (by omega), if_neg kind]
  change event - clocks.removed n = _
  omega

/-- Events are numbered from 1. -/
theorem event_positive (b : Nat) (event : Int) (owns : clocks.Owns b event) : 0 < event := by
  obtain ⟨positive, inside, above, below⟩ := owns
  have first := clocks.clkptr_le 1 b le_rfl positive (by omega)
  rw [clocks.starts] at first
  omega

/-- The last event comes before the end of `clkptr`. -/
theorem event_below (b : Nat) (event : Int) (owns : clocks.Owns b event) :
    event < clocks.clkptr (clocks.nblk + 1) := by
  obtain ⟨positive, inside, above, below⟩ := owns
  have last := clocks.clkptr_le (b + 1) (clocks.nblk + 1) (by omega) (by omega) le_rfl
  omega

/-- The primary events are those of the set. -/
theorem mem_primaryEvents (event : Int) :
    event ∈ primaryEvents clocks.nblk clocks.clkptr clocks.funtyp ↔ clocks.PrimaryEvent event := by
  rw [primaryEvents, Finset.mem_filter]
  constructor
  · exact And.right
  · intro primary
    obtain ⟨b, owns, -⟩ := clocks.owner_of_primary event primary
    have natural := clocks.event_positive b event owns
    exact ⟨Finset.mem_Ico.mpr ⟨natural, clocks.event_below b event owns⟩, primary⟩

/-- New event numbers start at 1 as well. -/
theorem adjustPointi_positive (event : Int) (primary : clocks.PrimaryEvent event) :
    0 < adjustPointi clocks.nblk clocks.clkptr clocks.funtyp event := by
  rw [clocks.adjustPointi_rank event primary]
  have bounds := rank_bounds _ event ((clocks.mem_primaryEvents event).mpr primary)
  omega

end Ranking

section Vectors

variable {α : Type u}

/-- A part inside the vector. -/
theorem part_inside (evts : List α) (k j : Int) (first : 1 ≤ k) (some : 0 < j)
    (last : k + j - 1 ≤ evts.length) :
    ∃ chunk, part evts k j = Option.some chunk ∧ (chunk.length : Int) = j ∧
      ∀ place : Nat, place < j → chunk[place]? = evts[(k - 1).toNat + place]? := by
  refine ⟨(evts.drop (k - 1).toNat).take j.toNat, ?_, ?_, fun place inside => ?_⟩
  · rw [part, if_neg (by omega), if_pos ⟨first, last⟩]
  · rw [List.length_take, List.length_drop]
    omega
  · rw [List.getElem?_take_of_lt (by omega), List.getElem?_drop]

/-- The events removed before a block. -/
theorem removed_bounds (n : Nat) (inside : n ≤ clocks.nblk) :
    0 ≤ clocks.removed n ∧ clocks.removed n ≤ clocks.clkptr (n + 1) - 1 := by
  induction n with
  | zero => simp [removed, clocks.starts]
  | succ n inductionHypothesis =>
    have bounds := inductionHypothesis (by omega)
    have ordered : clocks.clkptr (n + 1) ≤ clocks.clkptr (n + 1 + 1) :=
      clocks.monotone (n + 1) (by omega) inside
    rw [removed]
    split <;> omega

/-- The vector has an entry for every event. -/
theorem entry_event (evts : List α) (size : (evts.length : Int) = clocks.clkptr (clocks.nblk + 1) - 1)
    (b : Nat) (event : Int) (owns : clocks.Owns b event) :
    ∃ value, entry evts event.toNat = some value := by
  have natural := clocks.event_positive b event owns
  have inside := clocks.event_below b event owns
  exact Option.isSome_iff_exists.mp ((entry_isSome evts _).mpr ⟨by omega, by omega⟩)

/-- What one pass of `adjust_agenda` appends for a block: its own entries, or none if it
is a synchronisation block. The cursor moves on to the next block in both cases. -/
theorem agendaStep_spec (evts entries : List α)
    (size : (evts.length : Int) = clocks.clkptr (clocks.nblk + 1) - 1)
    (n : Nat) (inside : n < clocks.nblk) :
    ∃ chunk, agendaStep clocks.nblk clocks.clkptr clocks.funtyp evts
        ⟨clocks.clkptr (n + 1), entries⟩ (n + 1) =
          some ⟨clocks.clkptr (n + 1 + 1), entries ++ chunk⟩ ∧
      (chunk.length : Int) = (if Secondary clocks.funtyp (n + 1) then 0
        else clocks.clkptr (n + 1 + 1) - clocks.clkptr (n + 1)) ∧
      (¬ Secondary clocks.funtyp (n + 1) → ∀ place : Nat,
        place < clocks.clkptr (n + 1 + 1) - clocks.clkptr (n + 1) →
          chunk[place]? = evts[(clocks.clkptr (n + 1) - 1).toNat + place]?) := by
  have ordered := clocks.monotone (n + 1) (by omega) inside
  have first := clocks.clkptr_le 1 (n + 1) le_rfl (by omega) (by omega)
  have last := clocks.clkptr_le (n + 1 + 1) (clocks.nblk + 1) (by omega) (by omega) le_rfl
  rw [clocks.starts] at first
  have inner : n + 1 ≠ clocks.nblk + 1 := by omega
  have follows : clocks.clkptr (n + 1) + (clocks.clkptr (n + 1 + 1) - clocks.clkptr (n + 1)) =
      clocks.clkptr (n + 1 + 1) := by omega
  simp only [agendaStep, if_pos inner, follows]
  by_cases width : clocks.clkptr (n + 1 + 1) - clocks.clkptr (n + 1) = 0
  · refine ⟨[], ?_, ?_, fun _ place below => absurd below (by omega)⟩
    · have same : clocks.clkptr (n + 1 + 1) = clocks.clkptr (n + 1) := by omega
      rw [if_neg (not_not.mpr width), same, List.append_nil]
    · simp [width]
  · by_cases kind : Secondary clocks.funtyp (n + 1)
    · refine ⟨[], ?_, ?_, fun primary => absurd kind primary⟩
      · rw [if_pos width, if_neg (not_not.mpr kind), List.append_nil]
      · simp [kind]
    · obtain ⟨chunk, taken, length, places⟩ := part_inside evts (clocks.clkptr (n + 1))
        (clocks.clkptr (n + 1 + 1) - clocks.clkptr (n + 1)) first (by omega) (by omega)
      refine ⟨chunk, ?_, ?_, fun _ => places⟩
      · rw [if_pos width, if_pos kind, taken]
        rfl
      · rw [length, if_neg kind]

/-- What the loop of `adjust_agenda` has done behind some blocks. By induction on their
number: every entry stands as many places further forward as events have been removed
before it. -/
theorem agendaLoop_behind (evts : List α)
    (size : (evts.length : Int) = clocks.clkptr (clocks.nblk + 1) - 1)
    (n : Nat) (inside : n ≤ clocks.nblk) :
    ∃ entries, (List.range' 1 n).foldlM
        (agendaStep clocks.nblk clocks.clkptr clocks.funtyp evts) ⟨1, []⟩ =
          some ⟨clocks.clkptr (n + 1), entries⟩ ∧
      (entries.length : Int) = clocks.clkptr (n + 1) - 1 - clocks.removed n ∧
      ∀ b event, b ≤ n → clocks.Owns b event → ¬ Secondary clocks.funtyp b →
        entry entries (event - clocks.removed (b - 1)).toNat = entry evts event.toNat := by
  induction n with
  | zero =>
    refine ⟨[], ?_, ?_, ?_⟩
    · rw [clocks.starts]
      rfl
    · simp [clocks.starts, removed]
    · intro b event none owns
      exact absurd owns.1 (by omega)
  | succ n inductionHypothesis =>
    obtain ⟨entries, run, length, found⟩ := inductionHypothesis (by omega)
    obtain ⟨chunk, step, more, places⟩ := clocks.agendaStep_spec evts entries size n inside
    have bounds := clocks.removed_bounds n (by omega)
    refine ⟨entries ++ chunk, ?_, ?_, ?_⟩
    · rw [List.range'_1_concat, Nat.add_comm 1 n, List.foldlM_append, run]
      simp [step]
    · rw [List.length_append, Nat.cast_add, length, more, removed]
      split <;> omega
    · intro b event upTo owns primary
      have natural := clocks.event_positive b event owns
      have above := owns.2.2.1
      by_cases here : b = n + 1
      · subst here
        rw [Nat.add_sub_cancel] at *
        have below := owns.2.2.2
        have place := places primary (event - clocks.clkptr (n + 1)).toNat (by omega)
        rw [entry, entry, if_neg (by omega), if_neg (by omega), List.getElem?_append_right
          (by omega)]
        convert place using 2 <;> omega
      · obtain ⟨value, known⟩ := clocks.entry_event evts size b event owns
        have before := found b event (by omega) owns primary
        rw [known] at before ⊢
        exact entry_append entries chunk _ value before

/-- `adjust_agenda` moves the entry of every primary event to its new number. -/
theorem adjustAgenda_spec (evts : List α)
    (size : (evts.length : Int) = clocks.clkptr (clocks.nblk + 1) - 1) :
    ∃ entries, adjustAgenda clocks.nblk clocks.clkptr clocks.funtyp evts = some entries ∧
      entries.length = (primaryEvents clocks.nblk clocks.clkptr clocks.funtyp).card ∧
      ∀ event, clocks.PrimaryEvent event →
        entry entries (adjustPointi clocks.nblk clocks.clkptr clocks.funtyp event).toNat =
          entry evts event.toNat := by
  obtain ⟨entries, run, length, found⟩ := clocks.agendaLoop_behind evts size clocks.nblk le_rfl
  refine ⟨entries, ?_, ?_, fun event primary => ?_⟩
  · have idle : agendaStep clocks.nblk clocks.clkptr clocks.funtyp evts
        ⟨clocks.clkptr (clocks.nblk + 1), entries⟩ (clocks.nblk + 1) =
          some ⟨clocks.clkptr (clocks.nblk + 1), entries⟩ := if_neg (not_not.mpr rfl)
    rw [adjustAgenda, pointers, List.range'_1_concat, Nat.add_comm 1, List.foldlM_append, run]
    simp [idle]
  · have count := clocks.count_before clocks.nblk le_rfl
    rw [← length] at count
    exact (Int.ofNat.inj count).symm
  · obtain ⟨b, owns, kind⟩ := clocks.owner_of_primary event primary
    rw [clocks.adjustPointi_eq event b owns kind]
    exact found b event owns.2.1 owns kind

/-- Blocks with two, two and one event, the second one a synchronisation block. -/
example : adjustAgenda 3 (fun i => [1, 3, 5, 6].getD (i - 1) 6) (fun i => if i = 2 then -1 else 0)
    ["a", "b", "c", "d", "e"] = some ["a", "b", "e"] := by decide

end Vectors

section Walks

variable (pointi : Int) (evtspt renumbered : List Int)

/-- A walk through the renumbered agenda is the walk through the old one, event by event. -/
theorem walk_renumbered
    (size : (evtspt.length : Int) = clocks.clkptr (clocks.nblk + 1) - 1)
    (targets : ∀ target ∈ evtspt, 0 < target → clocks.PrimaryEvent target)
    (made : newEvtspt clocks.nblk clocks.clkptr clocks.funtyp evtspt = some renumbered)
    (start : clocks.PrimaryEvent pointi) (count : Nat) :
    walk renumbered count (adjustPointi clocks.nblk clocks.clkptr clocks.funtyp pointi) =
        (walk evtspt count pointi).map (adjustPointi clocks.nblk clocks.clkptr clocks.funtyp) ∧
      ∀ event ∈ walk evtspt count pointi, clocks.PrimaryEvent event := by
  obtain ⟨entries, adjusted, -, moved⟩ := clocks.adjustAgenda_spec evtspt size
  rw [newEvtspt, adjusted, Option.map_some, Option.some.injEq] at made
  induction count generalizing pointi with
  | zero => exact ⟨rfl, fun event none => absurd none List.not_mem_nil⟩
  | succ count inductionHypothesis =>
    obtain ⟨b, owns, kind⟩ := clocks.owner_of_primary pointi start
    obtain ⟨next, known⟩ := clocks.entry_event evtspt size b pointi owns
    have positive := clocks.event_positive b pointi owns
    have ranked := clocks.adjustPointi_positive pointi start
    have mapped : entry renumbered
        (adjustPointi clocks.nblk clocks.clkptr clocks.funtyp pointi).toNat =
          some (if 0 < next then adjustPointi clocks.nblk clocks.clkptr clocks.funtyp next
            else next) := by
      rw [← made, entry_map, moved pointi start, known]
      rfl
    simp only [walk, if_pos positive, if_pos ranked, known, mapped, List.map_cons]
    by_cases more : 0 < next
    · have target := targets next (mem_of_entry evtspt _ next known) more
      obtain ⟨rest, primary⟩ := inductionHypothesis next target
      rw [if_pos more, rest]
      exact ⟨rfl, List.forall_mem_cons.mpr ⟨start, primary⟩⟩
    · have ended : walk evtspt count next = [] := by
        cases count with
        | zero => rfl
        | succ count => exact if_neg more
      have endedThere : walk renumbered count next = [] := by
        cases count with
        | zero => rfl
        | succ count => exact if_neg more
      rw [if_neg more, ended, endedThere]
      exact ⟨rfl, List.forall_mem_cons.mpr ⟨start, fun _ none => absurd none List.not_mem_nil⟩⟩

end Walks

/-- The renumbering keeps the order of the primary events. -/
theorem adjustPointi_strictMonoOn :
    StrictMonoOn (adjustPointi clocks.nblk clocks.clkptr clocks.funtyp)
      {event | clocks.PrimaryEvent event} := by
  intro first firstPrimary second secondPrimary less
  rw [clocks.adjustPointi_rank first firstPrimary, clocks.adjustPointi_rank second secondPrimary]
  have members := fun event => (clocks.mem_primaryEvents event).mpr
  exact Int.ofNat_lt.mpr (rank_strictMonoOn _ (members first firstPrimary)
    (members second secondPrimary) less)

/-- The new numbers are those from 1 to the number of primary events. -/
theorem adjustPointi_bijOn :
    Set.BijOn (adjustPointi clocks.nblk clocks.clkptr clocks.funtyp)
      {event | clocks.PrimaryEvent event}
      (Set.Icc 1 (primaryEvents clocks.nblk clocks.clkptr clocks.funtyp).card) := by
  refine ⟨?_, clocks.adjustPointi_strictMonoOn.injOn, ?_⟩
  · intro event primary
    have bounds := rank_bounds _ event ((clocks.mem_primaryEvents event).mpr primary)
    rw [Set.mem_Icc, clocks.adjustPointi_rank event primary]
    omega
  · intro number between
    have bounds := Set.mem_Icc.mp between
    obtain ⟨event, member, ranked⟩ :=
      (rank_bijOn (primaryEvents clocks.nblk clocks.clkptr clocks.funtyp)).surjOn
        (Set.mem_Icc.mpr (⟨by omega, by omega⟩ : 1 ≤ number.toNat ∧ number.toNat ≤ _))
    have primary := (clocks.mem_primaryEvents event).mp member
    refine ⟨event, primary, ?_⟩
    rw [clocks.adjustPointi_rank event primary, ranked]
    omega

end Clocks

/-- The functions agree on one numbering of the primary events, which keeps their order
and leaves no number out, and a walk through the renumbered agenda is the walk through
the old one, with the same times. Agendas that lead to an event of a synchronisation
block are left out, since such an event has no place in the new one. All three functions
come to the rank among the primary events, from which the rest follows. -/
theorem renumbering_consistent (clocks : Clocks) :
    let adjusted := adjustPointi clocks.nblk clocks.clkptr clocks.funtyp
    let events := clocks.clkptr (clocks.nblk + 1) - 1
    (∀ b, 1 ≤ b → b ≤ clocks.nblk → ¬ Secondary clocks.funtyp b →
      ∀ k, 0 ≤ k → k < clocks.clkptr (b + 1) - clocks.clkptr b →
        adjusted (clocks.clkptr b + k) =
          getIndClkptr clocks.nblk clocks.clkptr clocks.funtyp b + k ∧
        ∀ (α : Type u) (v : List α), (v.length : Int) = events →
          ∃ entries value, adjustAgenda clocks.nblk clocks.clkptr clocks.funtyp v = some entries ∧
            entry v (clocks.clkptr b + k).toNat = some value ∧
            entry entries (adjusted (clocks.clkptr b + k)).toNat = some value) ∧
    StrictMonoOn adjusted {event | clocks.PrimaryEvent event} ∧
    Set.BijOn adjusted {event | clocks.PrimaryEvent event}
      (Set.Icc 1 (primaryEvents clocks.nblk clocks.clkptr clocks.funtyp).card) ∧
    ∀ (Time : Type u) (pointi : Int) (evtspt : List Int) (tevts : List Time),
      (evtspt.length : Int) = events → (tevts.length : Int) = events →
      clocks.PrimaryEvent pointi →
      (∀ target ∈ evtspt, 0 < target → clocks.PrimaryEvent target) →
      ∃ renumbered times,
        newEvtspt clocks.nblk clocks.clkptr clocks.funtyp evtspt = some renumbered ∧
        adjustAgenda clocks.nblk clocks.clkptr clocks.funtyp tevts = some times ∧
        ∀ count, walk renumbered count (adjusted pointi) =
            (walk evtspt count pointi).map adjusted ∧
          ∀ event ∈ walk evtspt count pointi, ∃ time,
            entry tevts event.toNat = some time ∧
            entry times (adjusted event).toNat = some time := by
  intro adjusted events
  refine ⟨fun b positive inside kind k low high => ?_, clocks.adjustPointi_strictMonoOn,
    clocks.adjustPointi_bijOn, fun Time pointi evtspt tevts links dates start targets => ?_⟩
  · have owns : clocks.Owns b (clocks.clkptr b + k) := ⟨positive, inside, by omega, by omega⟩
    have primary := (clocks.primary_iff b _ owns).mpr kind
    refine ⟨?_, fun α v size => ?_⟩
    · have shifted : adjusted (clocks.clkptr b + k) = _ := clocks.adjustPointi_eq _ b owns kind
      rw [shifted, getIndClkptr, clocks.adjustClkptr_eq b positive (by omega)]
      omega
    · obtain ⟨entries, made, -, moved⟩ := clocks.adjustAgenda_spec v size
      obtain ⟨value, known⟩ := clocks.entry_event v size b _ owns
      exact ⟨entries, value, made, known, (moved _ primary).trans known⟩
  · obtain ⟨entries, linked, -, -⟩ := clocks.adjustAgenda_spec evtspt links
    obtain ⟨times, dated, -, moved⟩ := clocks.adjustAgenda_spec tevts dates
    refine ⟨_, times, congrArg _ linked, dated, fun count => ?_⟩
    obtain ⟨same, primary⟩ := clocks.walk_renumbered pointi evtspt _ links targets
      (congrArg _ linked) start count
    refine ⟨same, fun event visited => ?_⟩
    obtain ⟨b, owns, -⟩ := clocks.owner_of_primary event (primary event visited)
    obtain ⟨time, known⟩ := clocks.entry_event tevts dates b event owns
    exact ⟨time, known, (moved event (primary event visited)).trans known⟩

/-- Six blocks with two, two, no, one, one and one event. The second and the fourth one are
synchronisation blocks. -/
def sixBlocks : Clocks where
  nblk := 6
  clkptr := fun i => [1, 3, 5, 5, 6, 7, 8].getD (i - 1) 8
  funtyp := fun i => [0, -1, 2, -2, 0, 4].getD (i - 1) 0
  starts := rfl
  monotone := by
    intro i positive inside
    interval_cases i <;> decide

/-- Of the seven events of the six blocks four are primary. The agenda starts with event 7 and
goes on with 2, 6 and 1; the renumbered one visits 4, 2, 3 and 1, at the same times. -/
theorem sixBlocks_renumbered :
    let adjusted := adjustPointi sixBlocks.nblk sixBlocks.clkptr sixBlocks.funtyp
    let evtspt : List Int := [0, 6, -1, -1, -1, 1, 2]
    let tevts : List Nat := [90, 30, 0, 0, 0, 60, 10]
    (adjusted 6 = getIndClkptr sixBlocks.nblk sixBlocks.clkptr sixBlocks.funtyp 5 + 0 ∧
      ∃ entries value,
        adjustAgenda sixBlocks.nblk sixBlocks.clkptr sixBlocks.funtyp tevts = some entries ∧
        entry tevts 6 = some value ∧ entry entries (adjusted 6).toNat = some value) ∧
    ∃ renumbered times,
      newEvtspt sixBlocks.nblk sixBlocks.clkptr sixBlocks.funtyp evtspt = some renumbered ∧
      adjustAgenda sixBlocks.nblk sixBlocks.clkptr sixBlocks.funtyp tevts = some times ∧
      walk renumbered 9 (adjusted 7) = [4, 2, 3, 1] ∧
      ∀ event ∈ walk evtspt 9 7, ∃ time,
        entry tevts event.toNat = some time ∧ entry times (adjusted event).toNat = some time := by
  intro adjusted evtspt tevts
  obtain ⟨blocks, -, -, agendas⟩ := renumbering_consistent sixBlocks
  obtain ⟨shifted, vectors⟩ := blocks 5 (by decide) (by decide) (by decide) 0 (by decide) (by decide)
  obtain ⟨renumbered, times, linked, dated, walks⟩ :=
    agendas Nat 7 evtspt tevts (by decide) (by decide) (by decide) (by decide)
  refine ⟨⟨shifted, vectors Nat tevts (by decide)⟩, renumbered, times, linked, dated, ?_, (walks 9).2⟩
  rw [(walks 9).1]
  decide

end ScicosFlex.Codegen.Agenda
