import Mathlib.Logic.Function.Basic
import ScicosFlex.Library.CircularBuffer

/-!
# Rings of a fixed size

A circular array with the index of its oldest element and the index behind its newest one.
One place always stays free, so that the indices meet exactly when the ring holds nothing. An
element that finds no room takes the place of the oldest one, and either end can be taken.

`contents` is what a ring stands for: a list, the oldest element first. The rules say what
each operation does to it.
-/

namespace ScicosFlex.Library.Rings

open CircularBuffer

universe u
variable {α : Type u}

/-- A circular array and its two indices. -/
structure RingBuffer (α : Type u) where
  size : Nat
  cell : Nat → α
  first : Nat
  last : Nat
  room : 2 ≤ size
  firstInside : first < size
  lastInside : last < size

variable (ring : RingBuffer α)

/-- An index moved by one, inside the array. -/
theorem moved_lt (index : Nat) : (index + 1) % ring.size < ring.size :=
  Nat.mod_lt _ (Nat.lt_of_lt_of_le Nat.two_pos ring.room)

/-- An element comes behind the newest one. -/
def RingBuffer.insert (value : α) : RingBuffer α where
  size := ring.size
  cell := Function.update ring.cell ring.last value
  first :=
    if ring.first = (ring.last + 1) % ring.size then (ring.first + 1) % ring.size else ring.first
  last := (ring.last + 1) % ring.size
  room := ring.room
  firstInside := by
    split
    · exact moved_lt ring ring.first
    · exact ring.firstInside
  lastInside := moved_lt ring ring.last

/-- The oldest element goes. -/
def RingBuffer.takeFirst : RingBuffer α :=
  { ring with
    first := (ring.first + 1) % ring.size
    firstInside := moved_lt ring ring.first }

/-- The index of the newest element. -/
def RingBuffer.newest : Nat := if ring.last = 0 then ring.last + ring.size - 1 else ring.last - 1

/-- The newest element lies inside the array. -/
theorem newest_lt : ring.newest < ring.size := by
  have room := ring.room
  have inside := ring.lastInside
  rw [RingBuffer.newest]
  split <;> omega

/-- The newest element goes. -/
def RingBuffer.takeLast : RingBuffer α :=
  { ring with
    last := ring.newest
    lastInside := newest_lt ring }

/-- All elements go. -/
def RingBuffer.clear : RingBuffer α :=
  { ring with
    first := 0
    last := 0
    firstInside := Nat.lt_of_lt_of_le Nat.two_pos ring.room
    lastInside := Nat.lt_of_lt_of_le Nat.two_pos ring.room }

/-- How many elements there are. -/
def RingBuffer.held : Nat := (ring.last + ring.size - ring.first) % ring.size

/-- The elements, the oldest first. -/
def RingBuffer.contents : List α := window ring.size ring.cell ring.first ring.held

@[simp] theorem contents_length : ring.contents.length = ring.held := window_length _ _ _ _

/-- An index moves on by one and restarts at the end. -/
theorem next_index (size index : Nat) (inside : index < size) :
    (index + 1) % size = if index + 1 < size then index + 1 else 0 := by
  rw [wrap_mod size (index + 1) (by omega)]
  split
  · rfl
  · omega

/-- The distance of the indices, without the remainder. -/
theorem held_eq : ring.held =
    if ring.first ≤ ring.last then ring.last - ring.first
    else ring.last + ring.size - ring.first := by
  have first := ring.firstInside
  have last := ring.lastInside
  rw [RingBuffer.held, wrap_mod _ _ (by omega)]
  split <;> split <;> omega

/-- One place stays free. -/
theorem held_lt : ring.held < ring.size :=
  Nat.mod_lt _ (Nat.lt_of_lt_of_le Nat.two_pos ring.room)

/-- The last index lies behind the elements. -/
theorem last_eq : (ring.first + ring.held) % ring.size = ring.last := by
  have distance := held_eq ring
  have first := ring.firstInside
  have last := ring.lastInside
  rw [wrap_mod _ _ (by split at distance <;> omega)]
  split <;> split at distance <;> omega

/-- The indices meet when there is nothing. -/
theorem empty_iff : ring.first = ring.last ↔ ring.contents = [] := by
  have distance := held_eq ring
  have first := ring.firstInside
  have last := ring.lastInside
  rw [← List.length_eq_zero_iff, contents_length]
  split at distance <;> omega

/-- The second index follows the first one when there is one element. -/
theorem alone_iff : (ring.first + 1) % ring.size = ring.last ↔ ring.contents.length = 1 := by
  have distance := held_eq ring
  have next := next_index _ _ ring.firstInside
  have room := ring.room
  have first := ring.firstInside
  have last := ring.lastInside
  rw [contents_length]
  split at distance <;> split at next <;> omega

/-- The places behind the first index, with the new element in them. -/
theorem window_insert (value : α) :
    window ring.size (ring.insert value).cell ring.first (ring.held + 1) =
      ring.contents ++ [value] := by
  have few := held_lt ring
  rw [window_add]
  congr 1
  · apply window_congr
    intro offset inside
    apply Function.update_of_ne
    rw [← last_eq ring]
    exact mod_distinct _ _ _ (by omega) (by omega)
  · simp [window, last_eq ring, RingBuffer.insert]

/-- A full ring moves on by one place, any other one holds one element more. -/
theorem insert_window (value : α) :
    (ring.insert value).first = (ring.first + (ring.held + 1 - (ring.size - 1))) % ring.size ∧
      (ring.insert value).held = ring.held + 1 - (ring.held + 1 - (ring.size - 1)) := by
  have later := held_eq (ring.insert value)
  have distance := held_eq ring
  have moved := next_index _ _ ring.lastInside
  have room := ring.room
  have first := ring.firstInside
  have last := ring.lastInside
  have behind : (ring.insert value).last = (ring.last + 1) % ring.size := rfl
  have size : (ring.insert value).size = ring.size := rfl
  by_cases full : ring.first = (ring.last + 1) % ring.size
  · have dropped : (ring.insert value).first = (ring.first + 1) % ring.size := if_pos full
    have one : ring.held + 1 - (ring.size - 1) = 1 := by
      split at distance <;> split at moved <;> omega
    have next := next_index _ _ first
    rw [size, behind, dropped] at later
    rw [one, dropped, later]
    refine ⟨rfl, ?_⟩
    split at distance <;> split at moved <;> split at next <;> split <;> omega
  · have kept : (ring.insert value).first = ring.first := if_neg full
    have none : ring.held + 1 - (ring.size - 1) = 0 := by
      split at distance <;> split at moved <;> omega
    rw [size, behind, kept] at later
    rw [none, kept, later]
    refine ⟨(Nat.mod_eq_of_lt first).symm, ?_⟩
    split at distance <;> split at moved <;> split <;> omega

/-- An element is appended, and the oldest one dropped if there is no room. -/
theorem contents_insert (value : α) :
    (ring.insert value).contents = push (ring.size - 1) ring.contents [value] := by
  obtain ⟨first, count⟩ := insert_window ring value
  have length : (ring.contents ++ [value]).length = ring.held + 1 := by
    rw [List.length_append, contents_length, List.length_singleton]
  rw [push, length, ← window_insert ring value, window_drop _ _ _ _ _ (Nat.sub_le _ _),
    RingBuffer.contents, first, count]
  rfl

/-- Where there is something, taking the oldest element leaves the others. -/
theorem contents_takeFirst (some : ring.first ≠ ring.last) :
    ring.contents = ring.cell ring.first :: ring.takeFirst.contents := by
  have later := held_eq ring.takeFirst
  have distance := held_eq ring
  have next := next_index _ _ ring.firstInside
  have first := ring.firstInside
  have last := ring.lastInside
  have moved : ring.takeFirst.first = (ring.first + 1) % ring.size := rfl
  have kept : ring.takeFirst.last = ring.last := rfl
  have size : ring.takeFirst.size = ring.size := rfl
  have fewer : ring.held = 1 + ring.takeFirst.held := by
    rw [size, moved, kept] at later
    rw [later]
    split at distance <;> split at next <;> split <;> omega
  rw [RingBuffer.contents, fewer, window_add, RingBuffer.contents, moved, size, window_start_mod]
  simp [window, Nat.mod_eq_of_lt first, RingBuffer.takeFirst]

/-- Where there is something, so does taking the newest one. -/
theorem contents_takeLast (some : ring.first ≠ ring.last) :
    ring.contents = ring.takeLast.contents ++ [ring.cell ring.newest] := by
  have later := held_eq ring.takeLast
  have distance := held_eq ring
  have place := last_eq ring.takeLast
  have first := ring.firstInside
  have last := ring.lastInside
  have moved : ring.takeLast.last =
    if ring.last = 0 then ring.last + ring.size - 1 else ring.last - 1 := rfl
  have kept : ring.takeLast.first = ring.first := rfl
  have size : ring.takeLast.size = ring.size := rfl
  have fewer : ring.held = ring.takeLast.held + 1 := by
    rw [size, moved, kept] at later
    rw [later]
    split at distance <;> split <;> split <;> omega
  rw [RingBuffer.contents, fewer, window_add]
  congr 1
  have newest : ring.takeLast.last = ring.newest := rfl
  rw [kept, size, newest] at place
  simp [window, place]

/-- A ring that was cleared holds nothing. -/
@[simp] theorem contents_clear : ring.clear.contents = [] := (empty_iff ring.clear).mp rfl

end ScicosFlex.Library.Rings
