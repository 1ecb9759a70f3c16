import Mathlib.Data.List.Nodup

/-!
# First occurrences

The elements of a list whose key has not come before. Every key of the list occurs among
them once. An element is one of them exactly if no element before it has its key
(`mem_firstsFrom`), so that leaving out other elements keeps it.
-/

namespace ScicosFlex.Library.FirstOccurrences

universe u v
variable {α : Type u} {κ : Type v} [DecidableEq κ] (key : α → κ)

/-- The elements whose keys are neither seen already nor come before. -/
def firstsFrom : List κ → List α → List α
  | _, [] => []
  | seen, x :: rest =>
    if key x ∈ seen then firstsFrom seen rest else x :: firstsFrom (seen ++ [key x]) rest

/-- The first elements with their keys. -/
def firsts (xs : List α) : List α := firstsFrom key [] xs

/-- First elements have no other of their key before them, neither in the list nor among
the keys seen already. -/
theorem mem_firstsFrom (seen : List κ) (xs : List α) (x : α) :
    x ∈ firstsFrom key seen xs ↔ key x ∉ seen ∧
      ∃ before after, xs = before ++ x :: after ∧ ∀ y ∈ before, key y ≠ key x := by
  induction xs generalizing seen with
  | nil => simp [firstsFrom]
  | cons head rest inductionHypothesis =>
    rw [firstsFrom]
    split
    · next known =>
      rw [inductionHypothesis]
      constructor
      · rintro ⟨fresh, before, after, rfl, different⟩
        refine ⟨fresh, head :: before, after, rfl, ?_⟩
        rintro y (_ | ⟨_, member⟩) same
        · exact fresh (same ▸ known)
        · exact different y member same
      · rintro ⟨fresh, _ | ⟨first, before⟩, after, split, different⟩
        · obtain ⟨rfl, -⟩ := List.cons.inj split
          exact absurd known fresh
        · obtain ⟨rfl, rfl⟩ := List.cons.inj split
          exact ⟨fresh, before, after, rfl, fun y member =>
            different y (List.mem_cons_of_mem _ member)⟩
    · next new =>
      rw [List.mem_cons, inductionHypothesis]
      constructor
      · rintro (rfl | ⟨fresh, before, after, rfl, different⟩)
        · exact ⟨new, [], rest, rfl, by simp⟩
        · refine ⟨fun known => fresh (List.mem_append_left _ known), head :: before, after, rfl, ?_⟩
          rintro y (_ | ⟨_, member⟩) same
          · exact fresh (List.mem_append_right _ (by simp [same]))
          · exact different y member same
      · rintro ⟨fresh, _ | ⟨first, before⟩, after, split, different⟩
        · exact Or.inl (List.cons.inj split).1.symm
        · obtain ⟨rfl, rfl⟩ := List.cons.inj split
          refine Or.inr ⟨?_, before, after, rfl, fun y member =>
            different y (List.mem_cons_of_mem _ member)⟩
          rw [List.mem_append, List.mem_singleton, not_or]
          exact ⟨fresh, Ne.symm (different _ List.mem_cons_self)⟩

/-- First elements have different keys. -/
theorem firstsFrom_nodup (seen : List κ) (xs : List α) :
    ((firstsFrom key seen xs).map key).Nodup := by
  induction xs generalizing seen with
  | nil => exact List.nodup_nil
  | cons head rest inductionHypothesis =>
    rw [firstsFrom]
    split
    · exact inductionHypothesis seen
    · rw [List.map_cons, List.nodup_cons]
      refine ⟨?_, inductionHypothesis _⟩
      rintro again
      obtain ⟨x, member, same⟩ := List.mem_map.mp again
      have fresh := ((mem_firstsFrom key _ rest x).mp member).1
      exact fresh (List.mem_append_right _ (by simp [same]))

/-- An element whose key is new has a first one with its key. -/
theorem exists_firstFrom (seen : List κ) (xs : List α) (x : α) (member : x ∈ xs)
    (fresh : key x ∉ seen) : ∃ y ∈ firstsFrom key seen xs, key y = key x := by
  induction xs generalizing seen with
  | nil => cases member
  | cons head rest inductionHypothesis =>
    rw [firstsFrom]
    by_cases same : key head = key x
    · rw [if_neg (same ▸ fresh)]
      exact ⟨head, List.mem_cons_self, same⟩
    · have later : x ∈ rest := by
        obtain rfl | later := List.mem_cons.mp member
        · exact absurd rfl same
        · exact later
      split
      · exact inductionHypothesis seen later fresh
      · have new : key x ∉ seen ++ [key head] := by
          rw [List.mem_append, List.mem_singleton, not_or]
          exact ⟨fresh, Ne.symm same⟩
        obtain ⟨y, first, named⟩ := inductionHypothesis (seen ++ [key head]) later new
        exact ⟨y, List.mem_cons_of_mem _ first, named⟩

variable {key}

/-- First elements are elements. -/
theorem mem_of_mem_firsts {xs : List α} {x : α} (first : x ∈ firsts key xs) : x ∈ xs := by
  obtain ⟨-, before, after, rfl, -⟩ := (mem_firstsFrom key [] xs x).mp first
  exact List.mem_append_right _ List.mem_cons_self

/-- First elements with one key are the same. -/
theorem firsts_unique {xs : List α} {x y : α} (first : x ∈ firsts key xs)
    (second : y ∈ firsts key xs) (same : key x = key y) : x = y :=
  List.inj_on_of_nodup_map (firstsFrom_nodup key [] xs) first second same

/-- Every element has a first one with its key. -/
theorem exists_first {xs : List α} {x : α} (member : x ∈ xs) :
    ∃ y ∈ firsts key xs, key y = key x :=
  exists_firstFrom key [] xs x member List.not_mem_nil

/-- A first element stays one if others are left out. -/
theorem firsts_filter {xs : List α} {x : α} (keep : α → Bool) (first : x ∈ firsts key xs)
    (kept : keep x) : x ∈ firsts key (xs.filter keep) := by
  obtain ⟨fresh, before, after, rfl, different⟩ := (mem_firstsFrom key [] xs x).mp first
  refine (mem_firstsFrom key [] _ x).mpr ⟨fresh, before.filter keep, after.filter keep, ?_, ?_⟩
  · rw [List.filter_append, List.filter_cons_of_pos kept]
  · exact fun y member => different y (List.mem_of_mem_filter member)

/-- The head is a first element. -/
theorem head_first (x : α) (rest : List α) : x ∈ firsts key (x :: rest) :=
  (mem_firstsFrom key [] _ x).mpr ⟨List.not_mem_nil, [], rest, rfl, by simp⟩

end ScicosFlex.Library.FirstOccurrences
