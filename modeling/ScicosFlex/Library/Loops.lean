import Mathlib.Data.List.FinRange
import Mathlib.Logic.Function.Basic

/-!
# Loops over the cells of an array

A loop that passes once over some cells and assigns each of them, from its old value
and its index. If no index comes twice, every cell is assigned independently of the
others. A loop that fills a list, one chunk after the other, ends with the chunks
(`fill_loop`).
-/

namespace ScicosFlex.Library.Loops

universe u v
variable {ι : Type u} {α : Type v} [DecidableEq ι]

/-- `for (i of indices) cells[i] = body(i, cells[i])`. -/
def assignLoop (indices : List ι) (body : ι → α → α) (cells : ι → α) : ι → α :=
  indices.foldl (fun cells i => Function.update cells i (body i (cells i))) cells

@[simp] theorem assignLoop_nil (body : ι → α → α) (cells : ι → α) :
    assignLoop [] body cells = cells := rfl

theorem assignLoop_cons (index : ι) (rest : List ι) (body : ι → α → α) (cells : ι → α) :
    assignLoop (index :: rest) body cells =
      assignLoop rest body (Function.update cells index (body index (cells index))) := rfl

/-- Cells that the loop does not pass stay. -/
theorem assignLoop_outside (indices : List ι) (body : ι → α → α) (cells : ι → α) (i : ι)
    (outside : i ∉ indices) : assignLoop indices body cells i = cells i := by
  induction indices generalizing cells with
  | nil => rfl
  | cons index rest inductionHypothesis =>
    obtain ⟨different, later⟩ := List.ne_and_not_mem_of_not_mem_cons outside
    rw [assignLoop_cons, inductionHypothesis _ later, Function.update_of_ne different]

/-- A cell that the loop passes once is assigned from its old value. -/
theorem assignLoop_inside (indices : List ι) (body : ι → α → α) (cells : ι → α) (i : ι)
    (once : indices.Nodup) (inside : i ∈ indices) :
    assignLoop indices body cells i = body i (cells i) := by
  induction indices generalizing cells with
  | nil => exact absurd inside List.not_mem_nil
  | cons index rest inductionHypothesis =>
    obtain ⟨other, onceRest⟩ := List.nodup_cons.mp once
    rw [assignLoop_cons]
    cases List.mem_cons.mp inside with
    | inl here =>
      subst here
      rw [assignLoop_outside _ _ _ _ other, Function.update_self]
    | inr later =>
      have different : i ≠ index := by
        rintro rfl
        exact other later
      rw [inductionHypothesis _ onceRest later, Function.update_of_ne different]

/-- A loop that counts up to a bound assigns the cells below it. -/
theorem assignLoop_range (count : Nat) (body : Nat → α → α) (cells : Nat → α) (i : Nat) :
    assignLoop (List.range count) body cells i = if i < count then body i (cells i) else cells i := by
  split
  · next below => exact assignLoop_inside _ _ _ _ List.nodup_range (List.mem_range.mpr below)
  · next above =>
    exact assignLoop_outside _ _ _ _ fun member => above (List.mem_range.mp member)

/-- A loop over all cells of an array assigns each of them. -/
theorem assignLoop_finRange (count : Nat) (body : Fin count → α → α) (cells : Fin count → α) :
    assignLoop (List.finRange count) body cells = fun i => body i (cells i) := by
  funext i
  exact assignLoop_inside _ _ _ _ (List.nodup_finRange count) (List.mem_finRange i)

/-- A loop whose passes replace neighbouring chunks of a list. The lists before and
behind are arbitrary, so that loops can be put inside of each other. -/
theorem fill_loop (size : Nat) (front : List α) (chunk : Nat → List α)
    (body : List α → Nat → Option (List α)) (count : Nat) (cells after : List α)
    (room : cells.length = count * size) (sized : ∀ l < count, (chunk l).length = size)
    (fills : ∀ l < count, ∀ before old after : List α, before.length = front.length + l * size →
      old.length = size → body (before ++ old ++ after) l = some (before ++ chunk l ++ after)) :
    (List.range count).foldlM body (front ++ cells ++ after) =
        some (front ++ (List.range count).flatMap chunk ++ after) ∧
      ((List.range count).flatMap chunk).length = count * size := by
  induction count generalizing cells after with
  | zero =>
    rw [Nat.zero_mul, List.length_eq_zero_iff] at room
    simp [room]
  | succ count inductionHypothesis =>
    have enough : count * size ≤ cells.length := by
      rw [room]
      exact Nat.mul_le_mul_right size (Nat.le_succ count)
    have first : (cells.take (count * size)).length = count * size := List.length_take_of_le enough
    have last : (cells.drop (count * size)).length = size := by
      rw [List.length_drop, room, Nat.succ_mul, Nat.add_sub_cancel_left]
    obtain ⟨earlier, length⟩ := inductionHypothesis (cells.take (count * size))
      (cells.drop (count * size) ++ after) first (fun l below => sized l (Nat.lt_succ_of_lt below))
      fun l below => fills l (Nat.lt_succ_of_lt below)
    have whole : front ++ cells ++ after =
        front ++ cells.take (count * size) ++ (cells.drop (count * size) ++ after) := by
      rw [List.append_assoc, List.append_assoc, ← List.append_assoc (cells.take _),
        List.take_append_drop]
    have next := fills count (Nat.lt_succ_self count) (front ++ (List.range count).flatMap chunk)
      (cells.drop (count * size)) after (by rw [List.length_append, length]) last
    constructor
    · rw [whole, List.range_succ, List.foldlM_append, earlier, Option.bind_eq_bind,
        Option.bind_some, List.foldlM_cons, ← List.append_assoc, next]
      simp
    · rw [List.range_succ, List.flatMap_append, List.length_append, length, Nat.succ_mul]
      simp [sized count (Nat.lt_succ_self count)]

/-- A loop whose passes set neighbouring cells of a list. -/
theorem set_loop (front : List α) (value : Nat → α) (body : List α → Nat → Option (List α))
    (count : Nat) (cells after : List α) (room : cells.length = count)
    (sets : ∀ l < count, ∀ state : List α, front.length + l < state.length →
      body state l = some (state.set (front.length + l) (value l))) :
    (List.range count).foldlM body (front ++ cells ++ after) =
      some (front ++ (List.range count).map value ++ after) := by
  have filled := fill_loop 1 front (fun l => [value l]) body count cells after
    (by rw [room, Nat.mul_one]) (fun _ _ => rfl) (by
      intro l below before old after place single
      obtain ⟨x, rfl⟩ := List.length_eq_one_iff.mp single
      rw [Nat.mul_one] at place
      rw [sets l below _ (by simp [place]), ← place, List.append_assoc,
        List.set_append_right _ _ (Nat.le_refl _)]
      simp)
  rw [List.map_eq_flatMap]
  exact filled.1

/-- A loop that changes one cell of a list only is a loop on the cell. -/
theorem cell_loop (cells : List α) (place : Nat) (body : List α → Nat → Option (List α))
    (step : α → Nat → Option α) (indices : List Nat)
    (same : ∀ value, ∀ k ∈ indices,
      body (cells.set place value) k = (step value k).map (cells.set place)) (value : α) :
    indices.foldlM body (cells.set place value) =
      (indices.foldlM step value).map (cells.set place) := by
  induction indices generalizing value with
  | nil => rfl
  | cons k rest inductionHypothesis =>
    rw [List.foldlM_cons, List.foldlM_cons, same value k List.mem_cons_self]
    cases step value k with
    | none => rfl
    | some next =>
      exact inductionHypothesis
        (fun value k member => same value k (List.mem_cons_of_mem _ member)) next

end ScicosFlex.Library.Loops
