import Mathlib.Logic.Function.Basic
import ScicosFlex.Library.CircularBuffer

/-!
# The growing array of FlexSim

`ARRAY_TYPE` of `array_container.h`, for any type of elements. Positions are `int`
values as in the source, and a pointer to an element is the element's position.
Allocation succeeds. `elements` shows the array as a list: `container_push_back`
appends, and `container_remove` takes one element out.
-/

namespace ScicosFlex.FlexSim

open Library.CircularBuffer

universe u
variable {α : Type u}

/-- `struct _container_TYPE_NAME`. -/
structure Container (α : Type u) where
  ptr : Nat → α
  items : Nat
  allocated : Nat

/-- `container_push_back`: the array afterwards. The position of the new element,
which the source returns, is the old number of items. -/
def Container.pushBack (c : Container α) (t : α) : Container α :=
  let newAllocation := 1
  { ptr := Function.update c.ptr c.items t
    items := c.items + 1
    allocated := if c.items = c.allocated then c.allocated + newAllocation else c.allocated }

/-- `container_remove`. -/
def Container.remove (c : Container α) (pos : Int) : Container α :=
  if pos < 0 ∨ pos > c.items - 1 then c
  else
    let place := pos.toNat
    { c with
      ptr := if pos ≠ c.items - 1 then copy c.ptr c.ptr place (place + 1) (c.items - place - 1)
        else c.ptr
      items := c.items - 1 }

/-- `container_erase`. What stood in the freed memory no longer counts. -/
def Container.erase (c : Container α) : Container α := { c with items := 0, allocated := 0 }

/-- A write through the pointer to the element at a position. -/
def Container.put (c : Container α) (place : Nat) (value : α) : Container α :=
  { c with ptr := Function.update c.ptr place value }

/-- `container_at_ptr`. -/
def Container.atPtr (c : Container α) (pos : Int) : Option Nat :=
  if pos < 0 ∨ pos > c.items - 1 then none else some pos.toNat

/-- The elements in order. -/
def Container.elements (c : Container α) : List α := prefixOf c.ptr c.items

/-- There are as many elements as items. -/
@[simp] theorem elements_length (c : Container α) : c.elements.length = c.items :=
  prefixOf_length _ _

/-- An element stands at its position. -/
theorem elements_getElem (c : Container α) (place : Nat) (inside : place < c.elements.length) :
    c.elements[place] = c.ptr place := by
  simp [Container.elements, prefixOf]

/-- A new element comes last. -/
theorem elements_pushBack (c : Container α) (t : α) :
    (c.pushBack t).elements = c.elements ++ [t] := by
  have earlier : (List.range c.items).map (Function.update c.ptr c.items t) =
      (List.range c.items).map c.ptr := by
    apply List.map_congr_left
    intro place member
    exact Function.update_of_ne (Nat.ne_of_lt (List.mem_range.mp member)) _ _
  simp [Container.elements, prefixOf, Container.pushBack, List.range_succ, earlier]

/-- An erased array has no elements. -/
@[simp] theorem elements_erase (c : Container α) : c.erase.elements = [] := rfl

/-- A write changes the element at its position. -/
theorem elements_put (c : Container α) (place : Nat) (value : α) :
    (c.put place value).elements = c.elements.set place value := by
  apply List.ext_getElem
  · simp [Container.put]
  · intro position _ _
    rw [elements_getElem, List.getElem_set, elements_getElem]
    by_cases here : place = position
    · subst here
      rw [if_pos rfl]
      exact Function.update_self _ _ _
    · rw [if_neg here]
      exact Function.update_of_ne (Ne.symm here) _ _

/-- A write to a new element. -/
theorem put_pushBack (c : Container α) (first second : α) :
    (c.pushBack first).put c.items second = c.pushBack second := by
  simp only [Container.put, Container.pushBack, Function.update_idem]

/-- The last write counts. -/
@[simp] theorem put_put (c : Container α) (place : Nat) (first second : α) :
    (c.put place first).put place second = c.put place second := by
  simp only [Container.put, Function.update_idem]

/-- Writing what is there changes nothing. -/
@[simp] theorem put_self (c : Container α) (place : Nat) : c.put place (c.ptr place) = c := by
  simp only [Container.put, Function.update_eq_self]

/-- A write can be read. -/
@[simp] theorem put_ptr (c : Container α) (place : Nat) (value : α) :
    (c.put place value).ptr place = value :=
  Function.update_self _ _ _

/-- A write moves no element. -/
@[simp] theorem put_atPtr (c : Container α) (place : Nat) (value : α) (pos : Int) :
    (c.put place value).atPtr pos = c.atPtr pos := rfl

/-- A removed element closes up. -/
theorem elements_remove (c : Container α) (place : Nat) (inside : place < c.items) :
    (c.remove place).elements = c.elements.eraseIdx place := by
  have valid : ¬ ((place : Int) < 0 ∨ (place : Int) > c.items - 1) := by omega
  have shorter : (c.remove place).items = c.items - 1 := by
    simp only [Container.remove, if_neg valid]
  apply List.ext_getElem
  · rw [elements_length, shorter, List.length_eraseIdx_of_lt (by simpa using inside),
      elements_length]
  · intro position below _
    rw [elements_length, shorter] at below
    rw [elements_getElem, List.getElem_eraseIdx]
    simp only [Container.remove, if_neg valid, Int.toNat_natCast]
    by_cases last : (place : Int) = c.items - 1
    · -- The last element needs no move, and all others stand before it.
      have before : position < place := by omega
      rw [if_neg (not_not.mpr last), dif_pos before, elements_getElem]
    · rw [if_pos last]
      by_cases before : position < place
      · rw [dif_pos before, elements_getElem, copy_outside _ _ _ _ _ _ (Or.inl before)]
      · rw [dif_neg before, elements_getElem,
          copy_inside _ _ _ _ _ _ (Nat.le_of_not_lt before) (by omega)]
        congr 1
        omega

/-- A position has an element if it is none of the negative ones nor behind the last. -/
theorem atPtr_eq_none (c : Container α) (pos : Int) (natural : 0 ≤ pos) :
    c.atPtr pos = none ↔ c.items ≤ pos.toNat := by
  rw [Container.atPtr]
  split
  · simp only [true_iff]
    omega
  · simp only [reduceCtorEq, false_iff]
    omega

/-- The element at a position can be pointed to. -/
theorem atPtr_inside (c : Container α) (place : Nat) (inside : place < c.items) :
    c.atPtr place = some place := by
  rw [Container.atPtr, if_neg (by omega), Int.toNat_natCast]

end ScicosFlex.FlexSim
