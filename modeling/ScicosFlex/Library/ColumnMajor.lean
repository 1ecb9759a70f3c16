import Mathlib.Data.Matrix.Basic
import ScicosFlex.Library.Loops

/-!
# Matrices stored column by column

A memory of `rows * cols` elements holds a matrix: the element of row `j` and column `l`
stands at `j + l * rows`. Every matrix is stored by some memory (`matrix_store`), and a loop
over the columns and rows that sets the elements one by one ends with it (`matrix_loop`).
-/

namespace ScicosFlex.Library.ColumnMajor

open Loops

universe u
variable {α : Type u} {rows cols : Nat}

/-- A memory that holds a matrix. -/
structure Stored (rows cols : Nat) (α : Type u) where
  memory : List α
  size : memory.length = rows * cols

/-- The places of the elements are inside the memory. -/
theorem place_lt (j l : Nat) (row : j < rows) (col : l < cols) : j + l * rows < rows * cols := by
  calc j + l * rows < rows + l * rows := Nat.add_lt_add_right row _
    _ = (l + 1) * rows := by rw [Nat.succ_mul, Nat.add_comm]
    _ ≤ cols * rows := Nat.mul_le_mul_right rows col
    _ = rows * cols := Nat.mul_comm _ _

/-- The matrix in the memory. -/
def Stored.matrix (stored : Stored rows cols α) : Matrix (Fin rows) (Fin cols) α :=
  fun j l => stored.memory.get ⟨j + l * rows, stored.size.symm ▸ place_lt j l j.isLt l.isLt⟩

/-- An access at its place finds the element. -/
theorem Stored.access (stored : Stored rows cols α) (j : Fin rows) (l : Fin cols) :
    stored.memory[j.val + l.val * rows]? = some (stored.matrix j l) :=
  List.getElem?_eq_getElem _

/-- Columns behind one another. -/
def columns (rows cols : Nat) (element : Nat → Nat → α) : List α :=
  (List.range cols).flatMap fun l => (List.range rows).map fun j => element j l

/-- The columns have equal lengths. -/
theorem columns_length (element : Nat → Nat → α) :
    (columns rows cols element).length = rows * cols := by
  induction cols with
  | zero => rfl
  | succ cols inductionHypothesis =>
    rw [columns] at inductionHypothesis ⊢
    rw [List.range_succ, List.flatMap_append, List.length_append, inductionHypothesis,
      Nat.mul_succ]
    simp

/-- An element of the columns. -/
theorem columns_access (element : Nat → Nat → α) (j l : Nat) (row : j < rows) (col : l < cols) :
    (columns rows cols element)[j + l * rows]? = some (element j l) := by
  induction cols with
  | zero => exact absurd col (Nat.not_lt_zero l)
  | succ cols inductionHypothesis =>
    have length : (columns rows cols element).length = rows * cols := columns_length element
    have split : columns rows (cols + 1) element =
        columns rows cols element ++ (List.range rows).map fun j => element j cols := by
      rw [columns, List.range_succ, List.flatMap_append, columns]
      simp
    rw [split]
    by_cases earlier : l < cols
    · have inside := place_lt j l row earlier
      rw [List.getElem?_append_left (length ▸ inside)]
      exact inductionHypothesis earlier
    · obtain rfl : l = cols := Nat.le_antisymm (Nat.le_of_lt_succ col) (Nat.not_lt.mp earlier)
      have behind : rows * l ≤ j + l * rows := by
        rw [Nat.mul_comm]
        exact Nat.le_add_left _ _
      have place : j + l * rows - rows * l = j := by
        rw [Nat.mul_comm, Nat.add_sub_cancel]
      rw [List.getElem?_append_right (length ▸ behind), length, place]
      simp [row]

/-- The memory that holds the columns. -/
def store (rows cols : Nat) (element : Nat → Nat → α) : Stored rows cols α where
  memory := columns rows cols element
  size := columns_length element

/-- It holds the matrix of the elements. -/
theorem matrix_store (element : Nat → Nat → α) (j : Fin rows) (l : Fin cols) :
    (store rows cols element).matrix j l = element j l := by
  have found := (store rows cols element).access j l
  have known := columns_access element j l j.isLt l.isLt
  exact Option.some.inj (found.symm.trans known)

/-- A loop over the columns, and the rows of each, that sets the elements. -/
theorem matrix_loop [Inhabited α] (element : Matrix (Fin rows) (Fin cols) α)
    (body : Nat → List α → Nat → Option (List α)) (old : Stored rows cols α)
    (sets : ∀ (j : Fin rows) (l : Fin cols) (state : List α),
      j.val + l.val * rows < state.length →
        body l state j = some (state.set (j + l * rows) (element j l))) :
    ∃ result : Stored rows cols α,
      (List.range cols).foldlM (fun memory l => (List.range rows).foldlM (body l) memory)
        old.memory = some result.memory ∧ result.matrix = element := by
  let total (j l : Nat) : α :=
    if inside : j < rows ∧ l < cols then element ⟨j, inside.1⟩ ⟨l, inside.2⟩ else default
  have total_eq (j : Fin rows) (l : Fin cols) : total j l = element j l :=
    dif_pos ⟨j.isLt, l.isLt⟩
  refine ⟨store rows cols total, ?_, ?_⟩
  · have filled := fill_loop rows [] (fun l => (List.range rows).map fun j => total j l)
      (fun memory l => (List.range rows).foldlM (body l) memory) cols old.memory []
      (by rw [old.size, Nat.mul_comm]) (fun _ _ => by simp) (by
        intro l col before column after place size
        apply set_loop before (fun j => total j l) (body l) rows column after size
        intro j row state inside
        rw [place, List.length_nil, Nat.zero_add, Nat.add_comm] at inside ⊢
        rw [sets ⟨j, row⟩ ⟨l, col⟩ state inside]
        exact congrArg (fun value => some (state.set _ value)) (total_eq ⟨j, row⟩ ⟨l, col⟩).symm)
    simpa [store, columns] using filled.1
  · funext j l
    rw [matrix_store, total_eq]

end ScicosFlex.Library.ColumnMajor
