/-!
# Assignments in order

A list of assignments to locations, executed from the first to the last on a
store in which nothing is assigned. `readBack` says what a location holds
afterwards: the value of the last assignment to it, if there is one. The lemmas
read lists back piece by piece, and read lists in which every group of assignments
goes to locations of its own group by looking at one group only.
-/

namespace ScicosFlex.Library.Writes

universe u v w
variable {ι : Type u} {L : Type v} {V : Type w}

/-- What a location holds after the assignments. -/
def readBack [DecidableEq L] : List (L × V) → L → Option V
  | [], _ => none
  | (target, value) :: rest, location =>
    (readBack rest location).or (if target = location then some value else none)

/-- A group of assignments to the locations of one owner. -/
def owned (owner : ι) (writes : List (L × V)) : List ((ι × L) × V) :=
  writes.map fun (location, value) => ((owner, location), value)

variable [DecidableEq ι] [DecidableEq L]

@[simp] theorem readBack_nil (location : L) : readBack ([] : List (L × V)) location = none := rfl

@[simp] theorem readBack_cons (target location : L) (value : V) (rest : List (L × V)) :
    readBack ((target, value) :: rest) location =
      (readBack rest location).or (if target = location then some value else none) := rfl

/-- Later assignments come first. -/
@[simp] theorem readBack_append (first second : List (L × V)) (location : L) :
    readBack (first ++ second) location =
      (readBack second location).or (readBack first location) := by
  induction first with
  | nil => simp
  | cons write rest inductionHypothesis =>
    obtain ⟨target, value⟩ := write
    rw [List.cons_append, readBack_cons, readBack_cons, inductionHypothesis, Option.or_assoc]

/-- A group says nothing about another owner. -/
theorem readBack_other (owner other : ι) (different : owner ≠ other) (writes : List (L × V))
    (location : L) : readBack (owned owner writes) (other, location) = none := by
  induction writes with
  | nil => rfl
  | cons write rest inductionHypothesis =>
    obtain ⟨target, value⟩ := write
    have apart : ¬ (owner, target) = (other, location) := fun same => different (congrArg Prod.fst same)
    rw [owned, List.map_cons, readBack_cons, if_neg apart]
    simpa [owned] using inductionHypothesis

/-- A group read back by its own owner. -/
theorem readBack_owned (owner : ι) (writes : List (L × V)) (location : L) :
    readBack (owned owner writes) (owner, location) = readBack writes location := by
  induction writes with
  | nil => rfl
  | cons write rest inductionHypothesis =>
    obtain ⟨target, value⟩ := write
    have same : (owner, target) = (owner, location) ↔ target = location := by simp
    rw [owned, List.map_cons, readBack_cons, readBack_cons, ← inductionHypothesis, owned]
    simp only [same]

/-- Nothing is assigned to an owner without a group. -/
theorem readBack_absent (owners : List ι) (writes : ι → List (L × V)) (owner : ι)
    (absent : owner ∉ owners) (location : L) :
    readBack (owners.flatMap fun other => owned other (writes other)) (owner, location) = none := by
  induction owners with
  | nil => rfl
  | cons next rest inductionHypothesis =>
    rw [List.mem_cons, not_or] at absent
    rw [List.flatMap_cons, readBack_append, inductionHypothesis absent.2,
      readBack_other next owner fun equal => absent.1 equal.symm]
    rfl

/-- If every owner writes only its own locations, a location holds what its owner wrote. -/
theorem readBack_groups (owners : List ι) (writes : ι → List (L × V)) (owner : ι)
    (member : owner ∈ owners) (location : L) :
    readBack (owners.flatMap fun other => owned other (writes other)) (owner, location) =
      readBack (writes owner) location := by
  induction owners with
  | nil => cases member
  | cons other rest inductionHypothesis =>
    rw [List.flatMap_cons, readBack_append]
    by_cases same : other = owner
    · subst same
      rw [readBack_owned]
      by_cases later : other ∈ rest
      · rw [inductionHypothesis later, Option.or_self]
      · rw [readBack_absent rest writes other later, Option.none_or]
    · have inside : owner ∈ rest := (List.mem_cons.mp member).resolve_left fun equal => same equal.symm
      rw [inductionHypothesis inside, readBack_other other owner same, Option.or_none]

/-- A table that is filled from its start. -/
theorem readBack_table (count : Nat) (entry : Nat → V) (index : Nat) (inside : index < count) :
    readBack ((List.range count).map fun k => (k, entry k)) index = some (entry index) := by
  induction count with
  | zero => omega
  | succ count inductionHypothesis =>
    rw [List.range_succ, List.map_append, readBack_append]
    by_cases last : count = index
    · subst last
      simp
    · rw [inductionHypothesis (by omega)]
      simp [last]

end ScicosFlex.Library.Writes
