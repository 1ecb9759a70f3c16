import Mathlib.Data.Int.Interval
import Mathlib.Data.Set.Finite.Lattice
import Mathlib.Data.Set.Finite.List
import ScicosFlex.Library.WhileLoops

/-!
# Numbers that give way to each other

A list of integers in which the first number that stands in the list again moves up by
one, until all are different. Whichever way the numbers take, the places they come to
fill are those that were `Taken` from the start: a number `v` is taken if, from some
number up to `v`, there are at least as many entries as numbers. Being taken does not
change when an entry moves (`displace_taken`), it bounds the entries, and in a list
without repetition it is membership (`taken_iff_mem`).
-/

namespace ScicosFlex.Library.Displacement

open WhileLoops

/-- The first number that stands in the list again moves up. -/
def displace : List Int → Option (List Int)
  | [] => none
  | number :: rest =>
    if number ∈ rest then some ((number + 1) :: rest) else (displace rest).map (number :: ·)

/-- How many entries lie between two numbers. -/
def crowd (numbers : List Int) (low high : Int) : Nat :=
  numbers.countP fun number => low ≤ number ∧ number ≤ high

/-- From some number on there are as many entries as numbers up to `place`. -/
def Taken (numbers : List Int) (place : Int) : Prop :=
  ∃ low ≤ place, place - low + 1 ≤ crowd numbers low place

/-- What moves, and that an equal number stands behind it. -/
theorem displace_some (numbers moved : List Int) (moves : displace numbers = some moved) :
    ∃ before number after, numbers = before ++ number :: after ∧ number ∈ after ∧
      moved = before ++ (number + 1) :: after := by
  induction numbers generalizing moved with
  | nil => cases moves
  | cons first rest inductionHypothesis =>
    rw [displace] at moves
    split at moves
    · rename_i again
      exact ⟨[], first, rest, rfl, again, (Option.some.inj moves).symm⟩
    · obtain ⟨later, found, rfl⟩ := Option.map_eq_some_iff.mp moves
      obtain ⟨before, number, after, rfl, again, rfl⟩ := inductionHypothesis later found
      exact ⟨first :: before, number, after, rfl, again, rfl⟩

/-- Nothing moves in a list without repetition. -/
theorem displace_none_iff (numbers : List Int) : displace numbers = none ↔ numbers.Nodup := by
  induction numbers with
  | nil => simp [displace]
  | cons first rest inductionHypothesis =>
    rw [displace, List.nodup_cons, ← inductionHypothesis]
    split
    · rename_i again
      simp [again]
    · rename_i once
      simp [once]

/-- The numbers that are in the list are taken. -/
theorem taken_of_mem (numbers : List Int) (place : Int) (member : place ∈ numbers) :
    Taken numbers place := by
  refine ⟨place, le_rfl, ?_⟩
  have counted : 0 < crowd numbers place place :=
    List.countP_pos_iff.mpr ⟨place, member, by simp⟩
  omega

/-- The entries between two numbers when one entry moves up. -/
theorem crowd_moved (before after : List Int) (number low high : Int) :
    (crowd (before ++ (number + 1) :: after) low high : Int) =
      crowd (before ++ number :: after) low high -
        (if low ≤ number ∧ number ≤ high then 1 else 0) +
        (if low ≤ number + 1 ∧ number + 1 ≤ high then 1 else 0) := by
  simp only [crowd, List.countP_append, List.countP_cons, decide_eq_true_eq]
  split_ifs <;> push_cast <;> omega

/-- The entries from a number on are those at it and those above. -/
theorem crowd_low (numbers : List Int) (low high : Int) (below : low ≤ high) :
    crowd numbers low high = crowd numbers low low + crowd numbers (low + 1) high := by
  induction numbers with
  | nil => rfl
  | cons first rest inductionHypothesis =>
    unfold crowd at inductionHypothesis ⊢
    simp only [List.countP_cons, decide_eq_true_eq, inductionHypothesis]
    split_ifs <;> omega

/-- A number that stands in the list twice. -/
theorem crowd_twice (before after : List Int) (number : Int) (again : number ∈ after) :
    2 ≤ crowd (before ++ number :: after) number number := by
  have other : 0 < crowd after number number :=
    List.countP_pos_iff.mpr ⟨number, again, by simp⟩
  unfold crowd at other ⊢
  simp only [List.countP_append, List.countP_cons, decide_eq_true_eq, le_refl, and_self, if_true]
  omega

/-- A move does not change what is taken. -/
theorem displace_taken (numbers moved : List Int) (moves : displace numbers = some moved)
    (place : Int) : Taken moved place ↔ Taken numbers place := by
  obtain ⟨before, number, after, rfl, again, rfl⟩ := displace_some numbers moved moves
  constructor
  · rintro ⟨low, below, enough⟩
    have count := crowd_moved before after number low place
    by_cases entered : low = number + 1
    · -- The entry that moved in was one of two at the number below.
      subst entered
      have twice := crowd_twice before after number again
      have parts := crowd_low (before ++ number :: after) number place (by omega)
      refine ⟨number, by omega, ?_⟩
      split_ifs at count <;> omega
    · refine ⟨low, below, ?_⟩
      split_ifs at count <;> omega
  · rintro ⟨low, below, enough⟩
    have count := crowd_moved before after number low place
    by_cases left : place = number
    · -- The other entry is still there.
      subst left
      exact taken_of_mem _ place (List.mem_append_right _ (List.mem_cons_of_mem _ again))
    · refine ⟨low, below, ?_⟩
      split_ifs at count <;> omega

/-- Without repetition the taken numbers are those in the list. -/
theorem taken_iff_mem (numbers : List Int) (once : numbers.Nodup) (place : Int) :
    Taken numbers place ↔ place ∈ numbers := by
  refine ⟨?_, taken_of_mem numbers place⟩
  rintro ⟨low, below, enough⟩
  -- As many different entries as numbers fill the whole interval.
  have members : (numbers.toFinset.filter fun number => low ≤ number ∧ number ≤ place) =
      (numbers.filter fun number => low ≤ number ∧ number ≤ place).toFinset := by
    ext number
    simp
  have size : (Finset.Icc low place).card ≤
      (numbers.toFinset.filter fun number => low ≤ number ∧ number ≤ place).card := by
    rw [Int.card_Icc, members, List.toFinset_card_of_nodup (once.filter _),
      ← List.countP_eq_length_filter]
    unfold crowd at enough
    omega
  have inside : (numbers.toFinset.filter fun number => low ≤ number ∧ number ≤ place) ⊆
      Finset.Icc low place := by
    intro number member
    exact Finset.mem_Icc.mpr (Finset.mem_filter.mp member).2
  have whole := Finset.eq_of_subset_of_card_le inside size
  have last : place ∈ Finset.Icc low place := Finset.mem_Icc.mpr ⟨below, le_rfl⟩
  rw [← whole, Finset.mem_filter, List.mem_toFinset] at last
  exact last.1

/-- Taken numbers lie below the largest entry and the number of entries. -/
theorem taken_le (numbers : List Int) (top : Int) (above : ∀ number ∈ numbers, number ≤ top)
    (place : Int) (taken : Taken numbers place) : place < top + numbers.length := by
  obtain ⟨low, below, enough⟩ := taken
  have few : crowd numbers low place ≤ numbers.length := List.countP_le_length
  have some : 0 < crowd numbers low place := by omega
  obtain ⟨number, member, between⟩ := List.countP_pos_iff.mp some
  have under : number ≤ top := above number member
  have least : low ≤ number := (of_decide_eq_true between).1
  omega

/-- Taken numbers are bounded. -/
theorem taken_bounded (numbers : List Int) :
    ∃ bound, ∀ place, Taken numbers place → place ≤ bound := by
  obtain ⟨top, above⟩ := (List.finite_toSet numbers).bddAbove
  exact ⟨top + numbers.length, fun place taken =>
    (taken_le numbers top (fun number member => above member) place taken).le⟩

/-- One pass: a number moves, or all are different. -/
def displacePass (numbers : List Int) : Pass (List Int) (List Int) :=
  match displace numbers with
  | some moved => .again moved
  | none => .leave numbers

/-- A pass that stays in the loop has moved a number. -/
theorem displacePass_again (numbers moved : List Int)
    (stays : displacePass numbers = .again moved) :
    displace numbers = some moved := by
  unfold displacePass at stays
  split at stays
  · rename_i next moves
    rw [moves, Pass.again.inj stays]
  · cases stays

/-- A pass that leaves the loop has found nothing to move. -/
theorem displacePass_leave (numbers settled : List Int)
    (leaves : displacePass numbers = .leave settled) :
    displace numbers = none ∧ settled = numbers := by
  unfold displacePass at leaves
  split at leaves
  · cases leaves
  · rename_i rests
    exact ⟨rests, (Pass.leave.inj leaves).symm⟩

/-- What is left until a bound. -/
def room (bound : Int) (numbers : List Int) : Nat :=
  (numbers.map fun number => (bound - number).toNat).sum

/-- The numbers come to rest: every move uses up room below the bound of what is taken. -/
theorem displace_terminates (numbers : List Int) : Terminates displacePass numbers := by
  obtain ⟨bound, above⟩ := taken_bounded numbers
  refine terminates_of_measure displacePass
    (fun moving => ∀ place, Taken moving place → place ≤ bound) (room bound)
    (fun moving moved invariant stays => ?_) numbers above
  have moves := displacePass_again moving moved stays
  have same := displace_taken moving moved moves
  refine ⟨fun place taken => invariant place ((same place).mp taken), ?_⟩
  obtain ⟨before, number, after, rfl, again, rfl⟩ := displace_some moving moved moves
  have under : number + 1 ≤ bound := invariant (number + 1)
    ((same (number + 1)).mp (taken_of_mem _ _ (by simp)))
  simp only [room, List.map_append, List.map_cons, List.sum_append, List.sum_cons]
  omega

/-- Where they come to rest they are different, as many as before, and they fill
exactly what was taken. -/
theorem displace_settles (numbers settled : List Int)
    (rests : Returns displacePass numbers settled) :
    settled.Nodup ∧ settled.length = numbers.length ∧
      ∀ place, place ∈ settled ↔ Taken numbers place := by
  refine result_of_invariant displacePass
    (fun moving => moving.length = numbers.length ∧
      ∀ place, Taken moving place ↔ Taken numbers place)
    (fun settled => settled.Nodup ∧ settled.length = numbers.length ∧
      ∀ place, place ∈ settled ↔ Taken numbers place) ?_ ?_ numbers ⟨rfl, fun _ => Iff.rfl⟩ settled
      rests
  · rintro moving moved ⟨length, taken⟩ stays
    have moves := displacePass_again moving moved stays
    refine ⟨?_, fun place => (displace_taken moving moved moves place).trans (taken place)⟩
    obtain ⟨before, number, after, rfl, -, rfl⟩ := displace_some moving moved moves
    simpa using length
  · rintro moving result ⟨length, taken⟩ leaves
    obtain ⟨moves, rfl⟩ := displacePass_leave moving result leaves
    have once := (displace_none_iff result).mp moves
    exact ⟨once, length, fun place => (taken_iff_mem result once place).symm.trans (taken place)⟩

end ScicosFlex.Library.Displacement
