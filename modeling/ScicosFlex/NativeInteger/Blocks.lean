import Mathlib.Data.BitVec
import Mathlib.Data.Matrix.Mul
import ScicosFlex.Library.ColumnMajor
import ScicosFlex.Library.Loops
import ScicosFlex.Library.RunningSum

/-!
# Blocks on native integers

`nat_gainblk_i16n`, `nat_summation_i16n` and `nat_summation_i8n`. C computes products and
sums of short integers as `int`, in which one product or sum always fits, and converts each
of them back. The conversion keeps the value modulo the word size, so that sums and products
of words are those of their ring, and the results are the exact ones modulo the word size
whatever overflows on the way (`results_exact`).

An access outside of an array is undefined, here `none`. Sizes and indices are natural
numbers.
-/

namespace ScicosFlex.NativeInteger.Blocks

open Library.ColumnMajor Library.Loops Library.RunningSum

universe u

/-- The flag `OutputUpdate`. -/
def outputUpdate : Int := 1

/-- The flag `ReInitialization`. -/
def reInitialization : Int := 6

/-- `array[index] = value`. -/
def write {α : Type u} (array : List α) (index : Nat) (value : α) : Option (List α) :=
  if index < array.length then some (array.set index value) else none

/-- The conversion of an `int` to a word of `w` bits. -/
def convert (w : Nat) (value : Int) : BitVec w := BitVec.ofInt w value

/-- What `nat_gainblk_i16n` reads of its block: the gain with its sizes, the input with its
rows, and the output with its sizes. -/
structure GainBlock where
  mo : Nat
  no : Nat
  opar : List (BitVec 16)
  mu : Nat
  u : List (BitVec 16)
  my : Nat
  ny : Nat
  y : List (BitVec 16)

/-- The innermost loop: row `j` of the gain times column `l` of the input. -/
def gainEntry (block : GainBlock) (l j : Nat) : Option (BitVec 16) :=
  (List.range block.mu).foldlM (fun D i => do
    let ji := j + i * block.my
    let il := i + l * block.mu
    let gain ← block.opar[ji]?
    let input ← block.u[il]?
    let C := convert 16 (gain.toInt * input.toInt)
    some (convert 16 (D.toInt + C.toInt))) (convert 16 0)

/-- `nat_gainblk_i16n`, with the output as its result. The source computes `jl` in the loop
over `i`, so an input without rows would leave it unset; here it is set all the same. -/
def natGainblkI16n (block : GainBlock) (flag : Int) : Option (List (BitVec 16)) :=
  if flag = outputUpdate ∨ flag = reInitialization then
    if block.mo * block.no = 1 then
      (List.range (block.ny * block.mu)).foldlM (fun y i => do
        let gain ← block.opar[0]?
        let input ← block.u[i]?
        let D := convert 16 (gain.toInt * input.toInt)
        write y i D) block.y
    else
      (List.range block.ny).foldlM (fun y l =>
        (List.range block.my).foldlM (fun y j => do
          let jl := j + l * block.my
          let D ← gainEntry block l j
          write y jl D) y) block.y
  else some block.y

/-- What the summation reads of its block; there are `nin` inputs. -/
structure SumBlock (w : Nat) where
  nu : Nat
  mu : Nat
  ipar : List Int
  inputs : List (List (BitVec w))
  y : List (BitVec w)

/-- The summation on words of `w` bits, with the output as its result. -/
def natSummation (w : Nat) (block : SumBlock w) (flag : Int) : Option (List (BitVec w)) :=
  if flag = 1 ∨ flag = 6 then
    let nin := block.inputs.length
    if nin = 1 then do
      let y ← write block.y 0 (convert w 0)
      let u ← block.inputs[0]?
      (List.range (block.nu * block.mu)).foldlM (fun y j => do
        let sum ← y[0]?
        let input ← u[j]?
        write y 0 (convert w (sum.toInt + input.toInt))) y
    else
      (List.range (block.nu * block.mu)).foldlM (fun y j => do
        let y ← write y j (convert w 0)
        (List.range nin).foldlM (fun y k => do
          let u ← block.inputs[k]?
          let sign ← block.ipar[k]?
          let sum ← y[j]?
          let input ← u[j]?
          if 0 < sign then write y j (convert w (sum.toInt + input.toInt))
          else write y j (convert w (sum.toInt - input.toInt))) y) block.y
  else some block.y

/-- `nat_summation_i16n`. -/
def natSummationI16n : SumBlock 16 → Int → Option (List (BitVec 16)) := natSummation 16

/-- `nat_summation_i8n`. -/
def natSummationI8n : SumBlock 8 → Int → Option (List (BitVec 8)) := natSummation 8

section Words
variable {w : Nat}

/-- A converted sum is the sum of the words. -/
theorem convert_add (a b : BitVec w) : convert w (a.toInt + b.toInt) = a + b := by
  rw [convert, BitVec.ofInt_add, BitVec.ofInt_toInt, BitVec.ofInt_toInt]

/-- A converted difference is the difference of the words. -/
theorem convert_sub (a b : BitVec w) : convert w (a.toInt - b.toInt) = a - b := by
  rw [convert, Int.sub_eq_add_neg, BitVec.ofInt_add, BitVec.ofInt_neg, BitVec.ofInt_toInt,
    BitVec.ofInt_toInt, BitVec.sub_eq_add_neg]

/-- A converted product is the product of the words. -/
theorem convert_mul (a b : BitVec w) : convert w (a.toInt * b.toInt) = a * b := by
  rw [convert, BitVec.ofInt_mul, BitVec.ofInt_toInt, BitVec.ofInt_toInt]

/-- The conversion as a homomorphism of rings. -/
theorem convert_eq (value : Int) : convert w value = Int.castRingHom (BitVec w) value := rfl

/-- Back and forth. -/
theorem convert_toInt (a : BitVec w) : convert w a.toInt = a := BitVec.ofInt_toInt

end Words

/-- An assignment inside of the array. -/
theorem write_eq {α : Type u} (array : List α) (index : Nat) (value : α)
    (inside : index < array.length) : write array index value = some (array.set index value) :=
  if_pos inside

section Gains
variable {mo no mu my ny : Nat}

/-- A block with its matrices. -/
def gainBlock (gain : Stored mo no (BitVec 16)) (input : Stored mu ny (BitVec 16))
    (output : Stored my ny (BitVec 16)) : GainBlock where
  mo := mo
  no := no
  opar := gain.memory
  mu := mu
  u := input.memory
  my := my
  ny := ny
  y := output.memory

/-- The integers that the words of a matrix stand for. -/
def integers {w rows cols : Nat} (words : Stored rows cols (BitVec w)) :
    Matrix (Fin rows) (Fin cols) Int :=
  words.matrix.map BitVec.toInt

/-- The product of words is the product of their integers, converted once, since the
conversion is a homomorphism of rings. -/
theorem product_eq (gain : Stored mo no (BitVec 16)) (input : Stored no ny (BitVec 16))
    (j : Fin mo) (l : Fin ny) :
    (gain.matrix * input.matrix) j l = convert 16 ((integers gain * integers input) j l) := by
  have back {rows cols : Nat} (words : Stored rows cols (BitVec 16)) :
      (integers words).map (Int.castRingHom (BitVec 16)) = words.matrix := by
    funext j l
    exact convert_toInt (words.matrix j l)
  calc (gain.matrix * input.matrix) j l
      = ((integers gain).map (Int.castRingHom (BitVec 16)) *
          (integers input).map (Int.castRingHom (BitVec 16))) j l := by rw [back, back]
    _ = ((integers gain * integers input).map (Int.castRingHom (BitVec 16))) j l := by
      rw [Matrix.map_mul]

/-- The innermost loop computes an element of the product of words. -/
theorem gainEntry_eq (gain : Stored mo no (BitVec 16)) (input : Stored no ny (BitVec 16))
    (output : Stored mo ny (BitVec 16)) (j : Fin mo) (l : Fin ny) :
    gainEntry (gainBlock gain input output) l j =
      some ((gain.matrix * input.matrix) j l) := by
  have summed := sum_loop no (fun i => gain.matrix j i * input.matrix i l)
    (fun D i => do
      let gain ← gain.memory[j.val + i * mo]?
      let input ← input.memory[i + l.val * no]?
      let C := convert 16 (gain.toInt * input.toInt)
      some (convert 16 (D.toInt + C.toInt)))
    (by
      intro sum i inside
      have left := gain.access j ⟨i, inside⟩
      have right := input.access ⟨i, inside⟩ l
      simp only [left, right, Option.bind_eq_bind, Option.bind_some, convert_mul, convert_add])
    (convert 16 0)
  rw [gainEntry]
  refine summed.trans (congrArg some ?_)
  rw [convert_eq, map_zero, zero_add, Matrix.mul_apply]

/-- The product of two matrices, as words; the gain is not a single element. Every entry
is a running sum over the rows of the input. -/
theorem product_result (gain : Stored mo no (BitVec 16)) (input : Stored no ny (BitVec 16))
    (output : Stored mo ny (BitVec 16)) (flag : Int)
    (active : flag = outputUpdate ∨ flag = reInitialization) (several : mo * no ≠ 1) :
    ∃ result : Stored mo ny (BitVec 16),
      natGainblkI16n (gainBlock gain input output) flag = some result.memory ∧
        result.matrix = gain.matrix * input.matrix := by
  have matrices : ¬(gainBlock gain input output).mo * (gainBlock gain input output).no = 1 :=
    several
  rw [natGainblkI16n, if_pos active, if_neg matrices]
  apply matrix_loop (gain.matrix * input.matrix)
    (fun l y j => do
      let D ← gainEntry (gainBlock gain input output) l j
      write y (j + l * mo) D) output
  intro j l state inside
  rw [gainEntry_eq, Option.bind_eq_bind, Option.bind_some, write_eq _ _ _ inside]

/-- A single element times every element of the input. The loop runs over columns times
rows in the other order, which comes to the same number. -/
theorem scalar_result (gain : Stored 1 1 (BitVec 16)) (input output : Stored mu ny (BitVec 16))
    (flag : Int) (active : flag = outputUpdate ∨ flag = reInitialization) :
    ∃ result : Stored mu ny (BitVec 16),
      natGainblkI16n (gainBlock gain input output) flag = some result.memory ∧
        result.matrix = gain.matrix 0 0 • input.matrix := by
  have scaled := set_loop [] (fun i => gain.matrix 0 0 * input.memory.getD i 0)
    (fun y i => do
      let gain ← gain.memory[0]?
      let input ← input.memory[i]?
      let D := convert 16 (gain.toInt * input.toInt)
      write y i D) (ny * mu) output.memory [] (by rw [output.size, Nat.mul_comm])
    (by
      intro i below state inside
      rw [List.length_nil, Nat.zero_add] at inside ⊢
      have there : i < input.memory.length := by rwa [input.size, Nat.mul_comm]
      have factor : gain.memory[0]? = some (gain.matrix 0 0) := gain.access 0 0
      have found : input.memory[i]? = some (input.memory.getD i 0) := by
        rw [List.getD_eq_getElem?_getD, List.getElem?_eq_getElem there, Option.getD_some]
      rw [factor, found, Option.bind_eq_bind, Option.bind_some, Option.bind_some, convert_mul]
      exact write_eq _ _ _ inside)
  let memory := (List.range (ny * mu)).map fun i => gain.matrix 0 0 * input.memory.getD i 0
  refine ⟨⟨memory, by simp [memory, Nat.mul_comm]⟩, ?_, ?_⟩
  · have scalar : (gainBlock gain input output).mo * (gainBlock gain input output).no = 1 := rfl
    rw [natGainblkI16n, if_pos active, if_pos scalar]
    simpa [gainBlock, memory] using scaled
  · funext j l
    have place : j.val + l.val * mu < ny * mu := by
      rw [Nat.mul_comm ny]
      exact place_lt j l j.isLt l.isLt
    have found : input.memory.getD (j + l * mu) 0 = input.matrix j l := by
      rw [List.getD_eq_getElem?_getD, input.access, Option.getD_some]
    apply Option.some.inj
    rw [← Stored.access, List.getElem?_map, List.getElem?_range place, Option.map_some, found]
    rfl

end Gains

section Sums
variable {w : Nat}

/-- A value with its sign: `ipar[k] > 0` adds, everything else subtracts. -/
def signed {G : Type} [Neg G] (sign : Int) (value : G) : G := if 0 < sign then value else -value

/-- A block with its inputs and their signs. -/
def sumBlock {nu mu nin : Nat} (signs : Fin nin → Int)
    (inputs : Fin nin → Fin (nu * mu) → BitVec w) (old : List (BitVec w)) : SumBlock w where
  nu := nu
  mu := mu
  ipar := List.ofFn signs
  inputs := List.ofFn fun k => List.ofFn (inputs k)
  y := old

/-- A sum of words is the sum of their integers, converted once. -/
theorem sum_eq {count : Nat} (signs : Fin count → Int) (words : Fin count → BitVec w) :
    ∑ k, signed (signs k) (words k) =
      convert w (∑ k, signed (signs k) (words k).toInt) := by
  rw [convert_eq, map_sum]
  apply Finset.sum_congr rfl
  intro k _
  have back : Int.castRingHom (BitVec w) (words k).toInt = words k := convert_toInt (words k)
  rw [signed, signed]
  split
  · exact back.symm
  · rw [map_neg, back]

/-- The inner loop over the inputs of one element. It adds up in the output itself,
which is converted to a word each time. -/
theorem element_loop {nu mu nin : Nat} (signs : Fin nin → Int)
    (inputs : Fin nin → Fin (nu * mu) → BitVec w) (j : Fin (nu * mu)) (y : List (BitVec w))
    (inside : j.val < y.length) :
    (List.range nin).foldlM (fun y k => do
      let u ← (List.ofFn fun k => List.ofFn (inputs k))[k]?
      let sign ← (List.ofFn signs)[k]?
      let sum ← y[j.val]?
      let input ← u[j.val]?
      if 0 < sign then write y j (convert w (sum.toInt + input.toInt))
      else write y j (convert w (sum.toInt - input.toInt))) (y.set j 0) =
      some (y.set j (∑ k, signed (signs k) (inputs k j))) := by
  let step (sum : BitVec w) (k : Nat) : Option (BitVec w) :=
    if known : k < nin then some (sum + signed (signs ⟨k, known⟩) (inputs ⟨k, known⟩ j)) else none
  have summed := sum_loop nin (fun k => signed (signs k) (inputs k j)) step
    (fun sum k known => dif_pos known) 0
  rw [cell_loop y j _ step, summed, zero_add, Option.map_some]
  intro value k member
  have known : k < nin := List.mem_range.mp member
  have cell : (y.set j value)[j.val]? = some value := by simp [inside]
  simp only [List.getElem?_ofFn, dif_pos known, dif_pos j.isLt, Option.bind_eq_bind,
    Option.bind_some, cell, convert_add, convert_sub, step, Option.map_some, signed]
  rw [write_eq _ _ _ (by simpa using inside), write_eq _ _ _ (by simpa using inside)]
  split
  · rw [List.set_set]
  · rw [List.set_set, sub_eq_add_neg]

/-- Several inputs are added up element by element. Whatever the sign is, it only
matters whether it is positive. -/
theorem sums_result {nu mu nin : Nat} (signs : Fin nin → Int)
    (inputs : Fin nin → Fin (nu * mu) → BitVec w) (old : Fin (nu * mu) → BitVec w) (flag : Int)
    (active : flag = 1 ∨ flag = 6) (several : 2 ≤ nin) :
    natSummation w (sumBlock signs inputs (List.ofFn old)) flag =
      some (List.ofFn fun j => ∑ k, signed (signs k) (inputs k j)) := by
  let value (j : Nat) : BitVec w :=
    if inside : j < nu * mu then ∑ k, signed (signs k) (inputs k ⟨j, inside⟩) else 0
  have many : ¬(sumBlock signs inputs (List.ofFn old)).inputs.length = 1 := by
    simp only [sumBlock, List.length_ofFn]
    omega
  have filled := set_loop [] value
    (fun y j => do
      let y ← write y j (convert w 0)
      (List.range nin).foldlM (fun y k => do
        let u ← (List.ofFn fun k => List.ofFn (inputs k))[k]?
        let sign ← (List.ofFn signs)[k]?
        let sum ← y[j]?
        let input ← u[j]?
        if 0 < sign then write y j (convert w (sum.toInt + input.toInt))
        else write y j (convert w (sum.toInt - input.toInt))) y)
    (nu * mu) (List.ofFn old) [] List.length_ofFn
    (by
      intro j below state inside
      rw [List.length_nil, Nat.zero_add] at inside ⊢
      rw [write_eq _ _ _ inside, Option.bind_eq_bind, Option.bind_some]
      have added := element_loop signs inputs ⟨j, below⟩ state inside
      rwa [← show value j = _ from dif_pos below] at added)
  have values : (List.range (nu * mu)).map value =
      List.ofFn fun j => ∑ k, signed (signs k) (inputs k j) := by
    apply List.ext_getElem (by simp)
    intro j below _
    have inside : j < nu * mu := by simpa using below
    simp [value, inside]
  rw [natSummation, if_pos active, if_neg many, ← values]
  simpa [sumBlock] using filled

/-- The elements of a single input are added up. -/
theorem total_result {nu mu : Nat} (sign : Fin 1 → Int) (input : Fin (nu * mu) → BitVec w)
    (old : BitVec w) (flag : Int) (active : flag = 1 ∨ flag = 6) :
    natSummation w (sumBlock sign (fun _ => input) [old]) flag = some [∑ j, input j] := by
  let step (sum : BitVec w) (j : Nat) : Option (BitVec w) :=
    if known : j < nu * mu then some (sum + input ⟨j, known⟩) else none
  have summed := sum_loop (nu * mu) input step (fun sum j known => dif_pos known) 0
  have cell := cell_loop [old] 0
    (fun y j => do
      let sum ← y[0]?
      let input ← (List.ofFn input)[j]?
      write y 0 (convert w (sum.toInt + input.toInt))) step (List.range (nu * mu))
    (by
      intro value j member
      have known : j < nu * mu := List.mem_range.mp member
      simp [known, convert_add, step, write]) 0
  rw [summed, zero_add] at cell
  have one : (sumBlock sign (fun _ => input) [old]).inputs.length = 1 := rfl
  rw [natSummation, if_pos active]
  exact cell

end Sums

/-- The summation is exact modulo `2 ^ w`: element by element for several inputs, over the
elements of a single input. -/
structure SumsExactly (w : Nat) (summation : SumBlock w → Int → Option (List (BitVec w)))
    (flag : Int) : Prop where
  several : ∀ {nu mu nin : Nat} (signs : Fin nin → Int)
    (inputs : Fin nin → Fin (nu * mu) → BitVec w) (old : Fin (nu * mu) → BitVec w), 2 ≤ nin →
    summation (sumBlock signs inputs (List.ofFn old)) flag =
      some (List.ofFn fun j => convert w (∑ k, signed (signs k) (inputs k j).toInt))
  single : ∀ {nu mu : Nat} (sign : Fin 1 → Int) (input : Fin (nu * mu) → BitVec w)
    (old : BitVec w),
    summation (sumBlock sign (fun _ => input) [old]) flag =
      some [convert w (∑ j, (input j).toInt)]

/-- The summation is exact on words of every size. -/
theorem natSummation_exact (w : Nat) (flag : Int) (active : flag = 1 ∨ flag = 6) :
    SumsExactly w (natSummation w) flag where
  several signs inputs old several := by
    rw [sums_result signs inputs old flag active several]
    simp only [sum_eq]
  single sign input old := by
    have positive := sum_eq (fun _ => 1) input
    simp only [signed, zero_lt_one, if_true] at positive
    rw [total_result sign input old flag active, positive]

/-- Products and sums are the exact ones modulo the word size, for matrices of all sizes
and for all words in them. Every intermediate result is converted to a word, and the
words are a ring, so the conversions can be moved to the end. Flags that compute no
outputs are left out, and so are blocks whose sizes do not fit together. -/
theorem results_exact (flag : Int) (active : flag = outputUpdate ∨ flag = reInitialization) :
    (∀ {mo no ny : Nat} (gain : Stored mo no (BitVec 16)) (input : Stored no ny (BitVec 16))
      (output : Stored mo ny (BitVec 16)), ∃ result : Stored mo ny (BitVec 16),
        natGainblkI16n (gainBlock gain input output) flag = some result.memory ∧
          ∀ j l, result.matrix j l = convert 16 ((integers gain * integers input) j l)) ∧
    (∀ {mu ny : Nat} (gain : Stored 1 1 (BitVec 16)) (input output : Stored mu ny (BitVec 16)),
      ∃ result : Stored mu ny (BitVec 16),
        natGainblkI16n (gainBlock gain input output) flag = some result.memory ∧
          ∀ j l, result.matrix j l = convert 16 (integers gain 0 0 * integers input j l)) ∧
    SumsExactly 16 natSummationI16n flag ∧ SumsExactly 8 natSummationI8n flag := by
  refine ⟨?_, ?_, natSummation_exact 16 flag active, natSummation_exact 8 flag active⟩
  · intro mo no ny gain input output
    by_cases scalar : mo * no = 1
    · obtain rfl : mo = 1 := Nat.eq_one_of_mul_eq_one_right scalar
      obtain rfl : no = 1 := Nat.eq_one_of_mul_eq_one_left scalar
      obtain ⟨result, computed, elements⟩ := scalar_result gain input output flag active
      refine ⟨result, computed, fun j l => ?_⟩
      rw [← product_eq, elements, Matrix.mul_apply, Fin.sum_univ_one, Fin.fin_one_eq_zero j]
      rfl
    · obtain ⟨result, computed, elements⟩ := product_result gain input output flag active scalar
      exact ⟨result, computed, fun j l => by rw [elements, product_eq]⟩
  · intro mu ny gain input output
    obtain ⟨result, computed, elements⟩ := scalar_result gain input output flag active
    refine ⟨result, computed, fun j l => ?_⟩
    rw [elements]
    exact (convert_mul _ _).symm

/-- At an output update, the sum of two bytes wraps. -/
theorem results_exact_update :
    natSummationI8n (sumBlock (fun _ : Fin 2 => 1) (fun _ (_ : Fin (1 * 1)) => 100) [0])
      outputUpdate = some [200] := by
  have sums := (results_exact outputUpdate (.inl rfl)).2.2.2
  have wrapped := sums.several (fun _ : Fin 2 => 1) (fun _ (_ : Fin (1 * 1)) => 100)
    (fun _ => 0) (Nat.le_refl 2)
  exact wrapped.trans (by decide)

end ScicosFlex.NativeInteger.Blocks
