import Mathlib.Algebra.GroupWithZero.Nat

/-!
# Fields laid out one behind the other

A record of fields, each an array of `count` cells of the same width. A field starts where
the fields before it end. Different cells have no position in common, and every position of
the record belongs to a cell (`cell_apart`, `cell_exists`).

The record lies in a memory, a list. Storing some elements at a position changes these
positions only; fetching gives back what was stored.
-/

namespace ScicosFlex.Library.Layout

universe u
variable {α : Type u}

/-- An array of cells. -/
structure Field where
  width : Nat
  count : Nat

/-- The positions of a field. -/
def Field.size (field : Field) : Nat := field.width * field.count

/-- Where a field starts. -/
def start (fields : List Field) (index : Nat) : Nat := ((fields.take index).map Field.size).sum

/-- Where a cell starts. -/
def cell (fields : List Field) (index pos width : Nat) : Nat := start fields index + pos * width

/-- How many positions the record has. -/
def total (fields : List Field) : Nat := (fields.map Field.size).sum

/-- The next field starts where this one ends. -/
theorem start_succ (fields : List Field) (index : Nat) (field : Field)
    (found : fields[index]? = some field) :
    start fields (index + 1) = start fields index + field.size := by
  rw [start, start, List.take_add_one, found]
  simp

/-- Later fields start later. -/
theorem start_mono (fields : List Field) (first second : Nat) (ordered : first ≤ second) :
    start fields first ≤ start fields second := by
  induction ordered with
  | refl => exact Nat.le_refl _
  | @step second _ inductionHypothesis =>
    refine Nat.le_trans inductionHypothesis ?_
    cases found : fields[second]? with
    | none =>
      have beyond := List.getElem?_eq_none_iff.mp found
      have same : start fields (second + 1) = start fields second := by
        rw [start, start, List.take_of_length_le beyond,
          List.take_of_length_le (Nat.le_succ_of_le beyond)]
      exact Nat.le_of_eq same.symm
    | some field =>
      rw [start_succ fields second field found]
      exact Nat.le_add_right _ _

/-- Behind the last field the record ends. -/
theorem start_length (fields : List Field) : start fields fields.length = total fields := by
  rw [start, List.take_length, total]

/-- A field ends inside the record. -/
theorem field_inside (fields : List Field) (index : Nat) (field : Field)
    (found : fields[index]? = some field) : start fields index + field.size ≤ total fields := by
  have inside := (List.getElem?_eq_some_iff.mp found).1
  rw [← start_succ fields index field found, ← start_length]
  exact start_mono fields _ _ inside

/-- A cell ends inside its field. -/
theorem cell_end (field : Field) (pos : Nat) (inside : pos < field.count) :
    pos * field.width + field.width ≤ field.size := by
  rw [← Nat.succ_mul, Field.size, Nat.mul_comm field.width]
  exact Nat.mul_le_mul_right _ inside

/-- A cell ends inside the record. -/
theorem cell_inside (fields : List Field) (index pos : Nat) (field : Field)
    (found : fields[index]? = some field) (inside : pos < field.count) :
    cell fields index pos field.width + field.width ≤ total fields := by
  have last := cell_end field pos inside
  have whole := field_inside fields index field found
  rw [cell]
  omega

/-- Cells of different fields do not overlap. -/
theorem cell_before (fields : List Field) (first second pos other : Nat) (field : Field)
    (width : Nat) (found : fields[first]? = some field) (inside : pos < field.count)
    (ordered : first < second) :
    cell fields first pos field.width + field.width ≤ cell fields second other width := by
  have last := cell_end field pos inside
  have later := start_mono fields _ _ ordered
  rw [Nat.succ_eq_add_one, start_succ fields first field found] at later
  rw [cell, cell]
  omega

/-- Nor do different cells of one field. -/
theorem cell_step (fields : List Field) (index pos other width : Nat) (ordered : pos < other) :
    cell fields index pos width + width ≤ cell fields index other width := by
  have later : (pos + 1) * width ≤ other * width := Nat.mul_le_mul_right _ ordered
  rw [Nat.succ_mul] at later
  rw [cell, cell]
  omega

/-- Different cells have no position in common. -/
theorem cell_apart (fields : List Field) (first second pos other : Nat) (field next : Field)
    (found : fields[first]? = some field) (there : fields[second]? = some next)
    (inside : pos < field.count) (within : other < next.count)
    (different : ¬ (first = second ∧ pos = other)) :
    cell fields first pos field.width + field.width ≤ cell fields second other next.width ∨
      cell fields second other next.width + next.width ≤ cell fields first pos field.width := by
  obtain less | rfl | more := Nat.lt_trichotomy first second
  · exact Or.inl (cell_before fields first second pos other field next.width found inside less)
  · obtain rfl := Option.some.inj (found.symm.trans there)
    obtain less | rfl | more := Nat.lt_trichotomy pos other
    · exact Or.inl (cell_step fields first pos other field.width less)
    · exact absurd ⟨rfl, rfl⟩ different
    · exact Or.inr (cell_step fields first other pos field.width more)
  · exact Or.inr (cell_before fields second first other pos next field.width there within more)

/-- A position of the record lies in a field. -/
theorem field_exists (fields : List Field) (place : Nat) (inside : place < total fields) :
    ∃ index field, fields[index]? = some field ∧ start fields index ≤ place ∧
      place < start fields index + field.size := by
  induction fields generalizing place with
  | nil => simp [total] at inside
  | cons field rest inductionHypothesis =>
    by_cases here : place < field.size
    · exact ⟨0, field, rfl, by simp [start], by simpa [start] using here⟩
    · have later : place - field.size < total rest := by
        simp only [total, List.map_cons, List.sum_cons] at inside ⊢
        omega
      obtain ⟨index, next, found, above, below⟩ := inductionHypothesis _ later
      have shifted : start (field :: rest) (index + 1) = field.size + start rest index := by
        simp [start]
      refine ⟨index + 1, next, found, ?_, ?_⟩ <;> rw [shifted] <;> omega

/-- A position of the record lies in a cell. -/
theorem cell_exists (fields : List Field) (place : Nat) (inside : place < total fields) :
    ∃ index pos field, fields[index]? = some field ∧ pos < field.count ∧
      cell fields index pos field.width ≤ place ∧
      place < cell fields index pos field.width + field.width := by
  obtain ⟨index, field, found, above, below⟩ := field_exists fields place inside
  have positive : 0 < field.width := by
    apply Nat.pos_of_ne_zero
    intro zero
    rw [Field.size, zero, Nat.zero_mul] at below
    omega
  have split := Nat.div_add_mod (place - start fields index) field.width
  have rest := Nat.mod_lt (place - start fields index) positive
  refine ⟨index, (place - start fields index) / field.width, field, found, ?_, ?_, ?_⟩
  · rw [Nat.div_lt_iff_lt_mul positive, Nat.mul_comm, ← Field.size]
    omega
  · rw [cell, Nat.mul_comm]
    omega
  · rw [cell, Nat.mul_comm]
    omega

/-- The memory with some elements stored from a position on. -/
def store (memory : List α) (place : Nat) (elements : List α) : List α :=
  memory.take place ++ elements ++ memory.drop (place + elements.length)

/-- Some elements of the memory from a position on. -/
def fetch (memory : List α) (place count : Nat) : List α := (memory.drop place).take count

/-- Storing inside the memory keeps its length. -/
theorem store_length (memory : List α) (place : Nat) (elements : List α)
    (inside : place + elements.length ≤ memory.length) :
    (store memory place elements).length = memory.length := by
  simp only [store, List.length_append, List.length_take, List.length_drop]
  omega

/-- What is fetched inside the memory has the length asked for. -/
theorem fetch_length (memory : List α) (place count : Nat)
    (inside : place + count ≤ memory.length) : (fetch memory place count).length = count := by
  simp only [fetch, List.length_take, List.length_drop]
  omega

/-- What was stored is fetched. -/
theorem fetch_store (memory : List α) (place : Nat) (elements : List α)
    (inside : place ≤ memory.length) :
    fetch (store memory place elements) place elements.length = elements := by
  have before : (memory.take place).length = place := by
    rw [List.length_take]
    omega
  rw [fetch, store, List.append_assoc, List.drop_left' before, List.take_left' rfl]

/-- Positions beside what was stored are fetched as before. -/
theorem fetch_store_other (memory : List α) (place other count : Nat) (elements : List α)
    (inside : place + elements.length ≤ memory.length)
    (apart : other + count ≤ place ∨ place + elements.length ≤ other) :
    fetch (store memory place elements) other count = fetch memory other count := by
  apply List.ext_getElem?
  intro index
  simp only [fetch, store, List.getElem?_take, List.getElem?_drop]
  split
  · next below =>
    cases apart with
    | inl before =>
      rw [List.append_assoc, List.getElem?_append_left (by rw [List.length_take]; omega),
        List.getElem?_take, if_pos (by omega)]
    | inr behind =>
      rw [List.getElem?_append_right (by simp only [List.length_append, List.length_take]; omega),
        List.getElem?_drop]
      congr 1
      simp only [List.length_append, List.length_take]
      omega
  · rfl

/-- A longer part is fetched in two. -/
theorem fetch_add (memory : List α) (place first second : Nat) :
    fetch memory place (first + second) =
      fetch memory place first ++ fetch memory (place + first) second := by
  rw [fetch, fetch, fetch, List.take_add, List.drop_drop]

/-- Storing over the end of what was stored replaces this end. -/
theorem store_over (memory : List α) (place : Nat) (elements tail more : List α)
    (covered : tail.length ≤ more.length)
    (inside : place + elements.length + more.length ≤ memory.length) :
    store (store memory place (elements ++ tail)) (place + elements.length) more =
      store memory place (elements ++ more) := by
  have front : (memory.take place ++ elements).length = place + elements.length := by
    rw [List.length_append, List.length_take]
    omega
  have whole : (memory.take place ++ elements ++ tail).length =
      place + elements.length + tail.length := by
    rw [List.length_append, front]
  rw [store, store, ← List.append_assoc, List.append_assoc (memory.take place ++ elements) tail,
    List.take_left' front, ← List.append_assoc, List.drop_append,
    List.drop_eq_nil_of_le (by omega), List.nil_append, List.drop_drop, store, whole]
  have first : (elements ++ tail).length = elements.length + tail.length := List.length_append
  have last : (elements ++ more).length = elements.length + more.length := List.length_append
  have same : place + (elements ++ tail).length + (place + elements.length + more.length -
      (place + elements.length + tail.length)) = place + (elements ++ more).length := by omega
  rw [same]
  simp only [List.append_assoc]

/-- Storing behind what was stored is storing both at once. -/
theorem store_append (memory : List α) (place : Nat) (elements more : List α)
    (inside : place + elements.length + more.length ≤ memory.length) :
    store (store memory place elements) (place + elements.length) more =
      store memory place (elements ++ more) := by
  have appended := store_over memory place elements [] more (Nat.zero_le _) inside
  rwa [List.append_nil] at appended

/-- Storing nothing changes nothing. -/
theorem store_nil (memory : List α) (place : Nat) : store memory place [] = memory := by
  rw [store, List.append_nil, List.length_nil, Nat.add_zero, List.take_append_drop]

/-- What fills the memory replaces it. -/
theorem store_all (memory elements : List α) (same : memory.length = elements.length) :
    store memory 0 elements = elements := by
  simp [store, ← same]

/-- The first fields of the record stored one after the other. -/
def fill (fields : List Field) (contents : Nat → List α) (count : Nat) (memory : List α) :
    List α :=
  (List.range count).foldl (fun memory i => store memory (start fields i) (contents i)) memory

/-- One more field. -/
theorem fill_succ (fields : List Field) (contents : Nat → List α) (count : Nat)
    (memory : List α) : fill fields contents (count + 1) memory =
      store (fill fields contents count memory) (start fields count) (contents count) := by
  rw [fill, fill, List.range_succ, List.foldl_append]
  rfl

variable (fields : List Field) (contents : Nat → List α) (memory : List α)

/-- Contents of the right sizes keep the length of the memory. -/
theorem fill_length (covered : memory.length = total fields)
    (sizes : ∀ i field, fields[i]? = some field → (contents i).length = field.size) (count : Nat)
    (few : count ≤ fields.length) : (fill fields contents count memory).length = total fields := by
  induction count with
  | zero => exact covered
  | succ count inductionHypothesis =>
    have before := inductionHypothesis (Nat.le_of_succ_le few)
    have found := List.getElem?_eq_getElem few
    have inside := field_inside fields count _ found
    rw [← sizes count _ found, ← before] at inside
    rw [fill_succ, store_length _ _ _ inside, before]

/-- Every stored field is fetched as it was stored. -/
theorem fetch_fill (covered : memory.length = total fields)
    (sizes : ∀ i field, fields[i]? = some field → (contents i).length = field.size) (count : Nat)
    (few : count ≤ fields.length) (i : Nat) (field : Field) (found : fields[i]? = some field)
    (stored : i < count) :
    fetch (fill fields contents count memory) (start fields i) field.size = contents i := by
  induction count with
  | zero => omega
  | succ count inductionHypothesis =>
    have long := fill_length fields contents memory covered sizes count (Nat.le_of_succ_le few)
    have last := List.getElem?_eq_getElem few
    have inside := field_inside fields count _ last
    rw [fill_succ]
    by_cases here : i = count
    · subst here
      rw [← sizes i field found]
      exact fetch_store _ _ _ (by omega)
    · have earlier : i < count := by omega
      have ends := start_mono fields _ _ earlier
      rw [Nat.succ_eq_add_one, start_succ fields i field found] at ends
      rw [← sizes count _ last, ← long] at inside
      rw [fetch_store_other _ _ _ _ _ inside (Or.inl ends)]
      exact inductionHypothesis (Nat.le_of_succ_le few) earlier

end ScicosFlex.Library.Layout
