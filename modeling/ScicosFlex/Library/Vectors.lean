import Mathlib.Data.List.Nodup

/-!
# Vectors numbered from one

Vectors as matrix languages have them: entries are numbered from one, reading
outside is an error, and writing behind the end extends the vector. `positions`
lists the numbers of the entries with a property.
-/

namespace ScicosFlex.Library.Vectors

universe u
variable {α : Type u}

/-- The entry with a number. -/
def entry (xs : List α) (number : Nat) : Option α :=
  if number = 0 then none else xs[number - 1]?

/-- A vector with one entry rewritten; behind the end it is filled up. -/
def assign (xs : List α) (number : Nat) (value filler : α) : Option (List α) :=
  if number = 0 then none
  else if number ≤ xs.length then some (xs.set (number - 1) value)
  else some (xs ++ List.replicate (number - 1 - xs.length) filler ++ [value])

/-- The numbers of the entries with a property. -/
def positions (property : α → Bool) (xs : List α) : List Nat :=
  (List.range' 1 xs.length).filter fun number => (entry xs number).any property

/-- The entries of a vector with their numbers. -/
def numbered (xs : List α) : List (Nat × α) :=
  (List.range' 1 xs.length).filterMap fun number => (entry xs number).map fun x => (number, x)

/-- A vector has entries up to its length. -/
theorem entry_isSome (xs : List α) (number : Nat) :
    (entry xs number).isSome = true ↔ 0 < number ∧ number ≤ xs.length := by
  rw [entry]
  split
  · simp_all
  · simp only [isSome_getElem?]
    omega

/-- A found entry belongs to the vector. -/
theorem mem_of_entry (xs : List α) (number : Nat) (x : α) (found : entry xs number = some x) :
    x ∈ xs := by
  rw [entry] at found
  split at found
  · cases found
  · exact List.mem_of_getElem? found

/-- Every member has a number. -/
theorem entry_of_mem (xs : List α) (x : α) (member : x ∈ xs) :
    ∃ number, entry xs number = some x := by
  obtain ⟨place, inside, rfl⟩ := List.getElem_of_mem member
  exact ⟨place + 1, by simp [entry, inside]⟩

/-- Appending keeps the entries. -/
theorem entry_append (xs more : List α) (number : Nat) (x : α)
    (found : entry xs number = some x) : entry (xs ++ more) number = some x := by
  rw [entry] at found ⊢
  split at found
  · cases found
  · next positive =>
    obtain ⟨inside, same⟩ := List.getElem?_eq_some_iff.mp found
    rw [if_neg positive, List.getElem?_append_left inside]
    exact found

/-- The entries of a vector with a function applied to all of them. -/
theorem entry_map {β : Type u} (f : α → β) (xs : List α) (number : Nat) :
    entry (xs.map f) number = (entry xs number).map f := by
  rw [entry, entry]
  split
  · rfl
  · rw [List.getElem?_map]

/-- An appended entry comes last. -/
theorem entry_last (xs : List α) (x : α) : entry (xs ++ [x]) (xs.length + 1) = some x := by
  simp [entry]

/-- An assigned entry has its value. -/
theorem entry_assign_same (xs changed : List α) (number : Nat) (value filler : α)
    (assigned : assign xs number value filler = some changed) :
    entry changed number = some value := by
  rw [assign] at assigned
  split at assigned
  · cases assigned
  · next positive =>
    rw [entry, if_neg positive]
    split at assigned
    · next inside =>
      obtain rfl := Option.some.inj assigned
      exact List.getElem?_set_self (by omega)
    · next behind =>
      obtain rfl := Option.some.inj assigned
      rw [List.getElem?_append_right (by simp; omega)]
      simp only [List.length_append, List.length_replicate]
      rw [show number - 1 - (xs.length + (number - 1 - xs.length)) = 0 by omega]
      rfl

/-- The other entries stay. -/
theorem entry_assign_other (xs changed : List α) (number other : Nat) (value filler x : α)
    (assigned : assign xs number value filler = some changed) (apart : other ≠ number)
    (found : entry xs other = some x) : entry changed other = some x := by
  rw [assign] at assigned
  split at assigned
  · cases assigned
  · next positive =>
    split at assigned
    · obtain rfl := Option.some.inj assigned
      rw [entry] at found ⊢
      split at found
      · cases found
      · next natural =>
        rw [if_neg natural, List.getElem?_set_ne (by omega)]
        exact found
    · obtain rfl := Option.some.inj assigned
      rw [List.append_assoc]
      exact entry_append xs _ other x found

/-- The positions are the numbers of the entries with the property. -/
theorem mem_positions (property : α → Bool) (xs : List α) (number : Nat) :
    number ∈ positions property xs ↔ ∃ x, entry xs number = some x ∧ property x = true := by
  simp only [positions, List.mem_filter, List.mem_range'_1, Option.any_eq_true]
  constructor
  · rintro ⟨-, found⟩
    exact found
  · rintro ⟨x, found, holds⟩
    have inside := (entry_isSome xs number).mp (by rw [found]; rfl)
    exact ⟨by omega, x, found, holds⟩

/-- Positions come in increasing order. -/
theorem positions_sorted (property : α → Bool) (xs : List α) :
    (positions property xs).Pairwise (· < ·) :=
  List.Pairwise.filter _ List.pairwise_lt_range'

/-- A numbered entry is an entry. -/
theorem mem_numbered (xs : List α) (number : Nat) (x : α) :
    (number, x) ∈ numbered xs ↔ entry xs number = some x := by
  simp only [numbered, List.mem_filterMap, List.mem_range'_1, Option.map_eq_some_iff,
    Prod.mk.injEq]
  constructor
  · rintro ⟨_, -, _, found, rfl, rfl⟩
    exact found
  · intro found
    have inside := (entry_isSome xs number).mp (by rw [found]; rfl)
    exact ⟨number, by omega, x, found, rfl, rfl⟩

end ScicosFlex.Library.Vectors
