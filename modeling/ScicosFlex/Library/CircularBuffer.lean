/-!
# Byte memories, circular windows and bounded drop-oldest queues

A memory is a total function on cell numbers, so a copy that runs past the end
of an array shows up as a changed cell instead of being cut off. A window reads
a number of consecutive cells modulo a capacity; it is the list view of a
circular buffer. The queue at the end is the abstract component such a buffer
implements: appended elements push the oldest ones out when the capacity is
exceeded.

Nothing here refers to a particular program. The laws are those a proof about a
circular buffer needs: where a copy changes a memory, how a window splits, and
when two memories show the same window.
-/

namespace ScicosFlex.Library.CircularBuffer

universe u v
variable {α : Type u}

/-- The block copy of C: `count` cells from `src` on are stored from `dst` on. -/
def copy (target source : Nat → α) (dst src count : Nat) : Nat → α :=
  fun cell => if dst ≤ cell ∧ cell < dst + count then source (src + (cell - dst)) else target cell

/-- Inside its destination range a copy shows the source. -/
theorem copy_inside (target source : Nat → α) (dst src count cell : Nat)
    (above : dst ≤ cell) (below : cell < dst + count) :
    copy target source dst src count cell = source (src + (cell - dst)) := by
  simp [copy, above, below]

/-- Outside its destination range a copy changes nothing. -/
theorem copy_outside (target source : Nat → α) (dst src count cell : Nat)
    (outside : cell < dst ∨ dst + count ≤ cell) :
    copy target source dst src count cell = target cell := by
  have untouched : ¬ (dst ≤ cell ∧ cell < dst + count) := by omega
  simp [copy, untouched]

/-- `held` cells of a memory read from `first` on, modulo the capacity. -/
def window (capacity : Nat) (memory : Nat → α) (first held : Nat) : List α :=
  (List.range held).map (fun offset => memory ((first + offset) % capacity))

/-- A window shows exactly the requested number of cells. -/
@[simp] theorem window_length (capacity : Nat) (memory : Nat → α) (first held : Nat) :
    (window capacity memory first held).length = held := by
  simp [window]

/-- Reducing the start modulo the capacity does not move a window. -/
theorem window_start_mod (capacity : Nat) (memory : Nat → α) (first held : Nat) :
    window capacity memory (first % capacity) held = window capacity memory first held := by
  simp [window]

/-- A window splits into its first cells and the window that starts behind them. -/
theorem window_add (capacity : Nat) (memory : Nat → α) (first left right : Nat) :
    window capacity memory first (left + right) =
      window capacity memory first left ++ window capacity memory (first + left) right := by
  simp [window, List.range_add, Nat.add_assoc, Function.comp_def]

/-- Dropping cells at the front moves the start of the window. -/
theorem window_drop (capacity : Nat) (memory : Nat → α) (first held dropped : Nat)
    (enough : dropped ≤ held) :
    (window capacity memory first held).drop dropped =
      window capacity memory ((first + dropped) % capacity) (held - dropped) := by
  have split : held = dropped + (held - dropped) := by omega
  rw [split, window_add, List.drop_left' (window_length ..), window_start_mod]
  simp

/-- Taking cells at the front keeps the start of the window. -/
theorem window_take (capacity : Nat) (memory : Nat → α) (first held taken : Nat)
    (enough : taken ≤ held) :
    (window capacity memory first held).take taken = window capacity memory first taken := by
  have split : held = taken + (held - taken) := by omega
  rw [split, window_add, List.take_left' (window_length ..)]

/-- Memories that agree on the cells a window reads show the same window. -/
theorem window_congr (capacity : Nat) (memory other : Nat → α) (first held : Nat)
    (agree : ∀ offset, offset < held →
      memory ((first + offset) % capacity) = other ((first + offset) % capacity)) :
    window capacity memory first held = window capacity other first held := by
  apply List.map_congr_left
  intro offset member
  exact agree offset (List.mem_range.mp member)

/-- A nonempty window starts with the cell it is placed at. -/
theorem window_head? (capacity : Nat) (memory : Nat → α) (first held : Nat) (some : 0 < held) :
    (window capacity memory first held).head? = .some (memory (first % capacity)) := by
  obtain ⟨rest, rfl⟩ : ∃ rest, held = rest + 1 := ⟨held - 1, by omega⟩
  simp [window, List.range_succ_eq_map]

/-- The elements a linear memory shows from its first cell on. -/
def prefixOf (memory : Nat → α) (count : Nat) : List α := (List.range count).map memory

/-- A prefix shows exactly the requested number of cells. -/
@[simp] theorem prefixOf_length (memory : Nat → α) (count : Nat) :
    (prefixOf memory count).length = count := by
  simp [prefixOf]

/-- A window equals a linear prefix as soon as the cells correspond. -/
theorem window_eq_prefix (capacity : Nat) (memory linear : Nat → α) (first held : Nat)
    (agree : ∀ offset, offset < held → memory ((first + offset) % capacity) = linear offset) :
    window capacity memory first held = prefixOf linear held := by
  apply List.map_congr_left
  intro offset member
  exact agree offset (List.mem_range.mp member)

/-- Modulo the capacity an index below twice the capacity wraps at most once. -/
theorem wrap_mod (capacity index : Nat) (bounded : index < 2 * capacity) :
    index % capacity = if index < capacity then index else index - capacity := by
  by_cases inside : index < capacity
  · simp [inside, Nat.mod_eq_of_lt inside]
  · have once : index % capacity = (index - capacity) % capacity :=
      Nat.mod_eq_sub_mod (by omega)
    simp [inside, once, Nat.mod_eq_of_lt (show index - capacity < capacity by omega)]

/-- Indices less than a capacity apart name different cells. -/
theorem mod_distinct (capacity low high : Nat) (before : low < high)
    (near : high < low + capacity) : low % capacity ≠ high % capacity := by
  intro same
  have multiple : (high - low) % capacity = 0 := Nat.sub_mod_eq_zero_of_mod_eq same.symm
  rw [Nat.mod_eq_of_lt (by omega)] at multiple
  omega

/-- Append to a queue of bounded capacity; the oldest elements that no longer
fit are dropped. -/
def push (capacity : Nat) (queue added : List α) : List α :=
  (queue ++ added).drop ((queue ++ added).length - capacity)

/-- As long as everything fits, appending drops nothing. -/
theorem push_fits (capacity : Nat) (queue added : List α)
    (fits : queue.length + added.length ≤ capacity) : push capacity queue added = queue ++ added := by
  have nothing : (queue ++ added).length - capacity = 0 := by simp; omega
  rw [push, nothing, List.drop_zero]

/-- One more element takes the place of the oldest one if there is no other. -/
theorem push_one (capacity : Nat) (queue : List α) (added : α) (room : 0 < capacity)
    (fits : queue.length ≤ capacity) : push capacity queue [added] =
      if queue.length < capacity then queue ++ [added] else queue.tail ++ [added] := by
  split
  · next less => exact push_fits capacity queue [added] (Nat.succ_le_of_lt less)
  · next full =>
    obtain ⟨oldest, rest, rfl⟩ : ∃ oldest rest, queue = oldest :: rest :=
      List.exists_cons_of_length_pos (by omega)
    have one : (oldest :: rest ++ [added]).length - capacity = 1 := by
      simp only [List.length_append, List.length_cons, List.length_nil] at fits full ⊢
      omega
    rw [push, one]
    rfl

/-- What is appended and dropped does not depend on the elements. -/
theorem push_map {β : Type v} (f : α → β) (capacity : Nat) (queue added : List α) :
    (push capacity queue added).map f = push capacity (queue.map f) (added.map f) := by
  rw [push, push, List.map_drop, List.map_append]
  simp only [List.length_append, List.length_map]

/-- The queue never outgrows its capacity. -/
theorem push_length (capacity : Nat) (queue added : List α) :
    (push capacity queue added).length = min capacity (queue.length + added.length) := by
  simp [push]
  omega

/-- Appending twice drops what appending once would drop. -/
theorem push_push (capacity : Nat) (queue added more : List α) :
    push capacity (push capacity queue added) more = push capacity queue (added ++ more) := by
  simp only [push, ← List.append_assoc]
  generalize queue ++ added = whole
  by_cases fits : whole.length ≤ capacity
  · rw [Nat.sub_eq_zero_of_le fits, List.drop_zero]
  · have early : whole.length - capacity ≤ whole.length := Nat.sub_le _ _
    rw [← List.drop_append_of_le_length early, List.drop_drop]
    congr 1
    simp only [List.length_drop, List.length_append]
    omega

end ScicosFlex.Library.CircularBuffer
