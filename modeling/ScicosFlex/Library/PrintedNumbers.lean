import Mathlib.Algebra.Order.Field.Rat
import Mathlib.Data.Int.Log
import Mathlib.Data.Rat.Floor
import Mathlib.Tactic.Linarith
import Mathlib.Tactic.NormNum

/-!
# Numbers printed with `%.16g`

The finite double-precision numbers and their decimal text with 16 significant digits, as
the conversion `%.16g` of the C library gives it: the exact value is rounded to 16 digits,
a tie to the even last digit; small and large numbers get an exponent of at least two
digits with its sign, and a fraction ends with a digit that is not zero.

`printG_shape` says what such a text looks like.
-/

namespace ScicosFlex.Library.PrintedNumbers

/-- A finite double-precision number. -/
structure Double where
  negative : Bool
  significand : Nat
  exponent : Int
  small : significand < 2 ^ 53
  low : -1074 ≤ exponent
  high : exponent ≤ 971

/-- Its absolute value. -/
def Double.magnitude (x : Double) : Rat := x.significand * 2 ^ x.exponent

/-- The nearest natural number, of two the even one. -/
def roundHalfEven (q : Rat) : Nat :=
  let floor := ⌊q⌋₊
  if q - floor < 1 / 2 then floor
  else if 1 / 2 < q - floor then floor + 1
  else if floor % 2 = 0 then floor else floor + 1

/-- The significant digits of a positive number, as one number, and the exponent of the
first one. -/
def scientific (precision : Nat) (q : Rat) : Nat × Int :=
  let exponent := Int.log 10 q
  let rounded := roundHalfEven (q * 10 ^ ((precision : Int) - 1 - exponent))
  if rounded = 10 ^ precision then (10 ^ (precision - 1), exponent + 1) else (rounded, exponent)

/-- A fraction without the zeros at its end. -/
def withoutZeros (fraction : List Char) : List Char :=
  (fraction.reverse.dropWhile (· == '0')).reverse

/-- An integer part with what is left of a fraction. -/
def withFraction (whole fraction : List Char) : List Char :=
  if withoutZeros fraction = [] then whole else whole ++ '.' :: withoutZeros fraction

/-- The digits of an exponent, at least two. -/
def exponentDigits (size : Nat) : List Char :=
  if size < 10 then '0' :: Nat.toDigits 10 size else Nat.toDigits 10 size

/-- Digits behind the point of a number in fixed notation. -/
def fixed (digits : List Char) (exponent : Int) : List Char :=
  if 0 ≤ exponent then
    withFraction (digits.take (exponent.toNat + 1)) (digits.drop (exponent.toNat + 1))
  else withFraction ['0'] (List.replicate (-exponent - 1).toNat '0' ++ digits)

/-- A number with an exponent. -/
def exponential (digits : List Char) (exponent : Int) : List Char :=
  withFraction (digits.take 1) (digits.drop 1) ++
    'e' :: (if exponent < 0 then '-' else '+') :: exponentDigits exponent.natAbs

/-- The text of a double with `%.16g`. -/
def printG (x : Double) : List Char :=
  let sign := if x.negative then ['-'] else []
  if x.significand = 0 then sign ++ ['0']
  else
    let (rounded, exponent) := scientific 16 x.magnitude
    let digits := Nat.toDigits 10 rounded
    sign ++ if -4 ≤ exponent ∧ exponent < 16 then fixed digits exponent
      else exponential digits exponent

/-- A digit, and digits and points behind it. -/
def Mantissa (text : List Char) : Prop :=
  ∃ first rest, text = first :: rest ∧ first.isDigit = true ∧
    ∀ c ∈ rest, c.isDigit = true ∨ c = '.'

/-- The letter `e`, a sign and digits. -/
def Exponent (text : List Char) : Prop :=
  ∃ sign digits, text = 'e' :: sign :: digits ∧ (sign = '+' ∨ sign = '-') ∧ digits ≠ [] ∧
    ∀ c ∈ digits, c.isDigit = true

/-- A mantissa, and perhaps an exponent. -/
def Numeral (text : List Char) : Prop :=
  ∃ mantissa exponent, text = mantissa ++ exponent ∧ Mantissa mantissa ∧
    (exponent = [] ∨ Exponent exponent)

section Rounding

variable (q : Rat) (positive : 0 < q)

include positive

/-- Rounding does not pass a natural number. -/
theorem roundHalfEven_le (bound : Nat) (below : q < bound) : roundHalfEven q ≤ bound := by
  have floor : ⌊q⌋₊ < bound := (Nat.floor_lt positive.le).mpr below
  rw [roundHalfEven]
  split
  · exact floor.le
  · split
    · exact floor
    · split
      · exact floor.le
      · exact floor

/-- The significant digits fit in the precision. -/
theorem scientific_digits (precision : Nat) (some : 0 < precision) :
    (scientific precision q).1 < 10 ^ precision := by
  have base : ((10 : Nat) : Rat) ≠ 0 := by norm_num
  have scaled : q * 10 ^ ((precision : Int) - 1 - Int.log 10 q) < (10 ^ precision : Nat) := by
    have above := Int.lt_zpow_succ_log_self (R := Rat) (b := 10) (by norm_num) q
    have factor : (0 : Rat) < 10 ^ ((precision : Int) - 1 - Int.log 10 q) := zpow_pos (by norm_num) _
    calc q * 10 ^ ((precision : Int) - 1 - Int.log 10 q)
      _ < 10 ^ (Int.log 10 q + 1) * 10 ^ ((precision : Int) - 1 - Int.log 10 q) :=
        mul_lt_mul_of_pos_right above factor
      _ = 10 ^ (precision : Int) := by
        rw [← zpow_add₀ (by norm_num)]
        congr 1
        omega
      _ = (10 ^ precision : Nat) := by
        rw [zpow_natCast]
        norm_num
  have factor : (0 : Rat) < 10 ^ ((precision : Int) - 1 - Int.log 10 q) := zpow_pos (by norm_num) _
  have rounded := roundHalfEven_le _ (mul_pos positive factor) _ scaled
  rw [scientific]
  split
  · exact Nat.pow_lt_pow_right (by decide) (by omega)
  · next other => exact lt_of_le_of_ne rounded other

/-- The exponent of the first digit is near the logarithm. -/
theorem scientific_exponent (precision : Nat) (bound : Nat) (above : q < 10 ^ bound)
    (below : ((10 : Rat) ^ bound)⁻¹ ≤ q) : (scientific precision q).2.natAbs ≤ bound := by
  have high : Int.log 10 q < bound := by
    refine (Int.lt_zpow_iff_log_lt (R := Rat) (b := 10) (by norm_num) positive).mp ?_
    rw [zpow_natCast]
    exact above
  have low : -(bound : Int) ≤ Int.log 10 q := by
    refine (Int.zpow_le_iff_le_log (R := Rat) (b := 10) (by norm_num) positive).mp ?_
    rw [zpow_neg, zpow_natCast]
    exact below
  rw [scientific]
  split <;> dsimp only <;> omega

end Rounding

/-- A power of two below a power of ten. -/
theorem two_pow_le (power : Nat) (small : power ≤ 1200) : (2 : Rat) ^ power ≤ 10 ^ 400 :=
  calc (2 : Rat) ^ power
    _ ≤ 2 ^ (3 * 400) := pow_le_pow_right₀ (by norm_num) small
    _ = (2 ^ 3) ^ 400 := pow_mul _ _ _
    _ ≤ 10 ^ 400 := pow_le_pow_left₀ (by norm_num) (by norm_num) _

/-- Doubles are not larger and not smaller than this. -/
theorem magnitude_bounds (x : Double) (nonzero : x.significand ≠ 0) :
    0 < x.magnitude ∧ x.magnitude < 10 ^ 400 ∧ ((10 : Rat) ^ 400)⁻¹ ≤ x.magnitude := by
  have some : (1 : Rat) ≤ x.significand := by exact_mod_cast Nat.one_le_iff_ne_zero.mpr nonzero
  have few : (x.significand : Rat) < 2 ^ 53 := by exact_mod_cast x.small
  have scale : (0 : Rat) < 2 ^ x.exponent := zpow_pos (by norm_num) _
  have high : (2 : Rat) ^ x.exponent ≤ 2 ^ (971 : Int) := zpow_le_zpow_right₀ (by norm_num) x.high
  have low : (2 : Rat) ^ (-1074 : Int) ≤ 2 ^ x.exponent := zpow_le_zpow_right₀ (by norm_num) x.low
  refine ⟨mul_pos (by linarith) scale, ?_, ?_⟩
  · calc x.magnitude
      _ < 2 ^ 53 * 2 ^ x.exponent := mul_lt_mul_of_pos_right few scale
      _ ≤ 2 ^ 53 * 2 ^ (971 : Int) := mul_le_mul_of_nonneg_left high (by norm_num)
      _ = 2 ^ 1024 := by rw [← zpow_natCast, ← zpow_add₀ (by norm_num), ← zpow_natCast]; rfl
      _ ≤ 10 ^ 400 := two_pow_le 1024 (by decide)
  · calc ((10 : Rat) ^ 400)⁻¹
      _ ≤ (2 ^ 1074)⁻¹ := inv_anti₀ (by positivity) (two_pow_le 1074 (by decide))
      _ = 2 ^ (-1074 : Int) := by rw [zpow_neg, ← zpow_natCast]; rfl
      _ ≤ 2 ^ x.exponent := low
      _ ≤ x.significand * 2 ^ x.exponent := le_mul_of_one_le_left scale.le some

/-- Dropping zeros adds nothing. -/
theorem withoutZeros_sublist (fraction : List Char) : (withoutZeros fraction).Sublist fraction := by
  have part := (List.dropWhile_sublist (fun c => c == '0') (l := fraction.reverse)).reverse
  rwa [List.reverse_reverse] at part

/-- Digits with a fraction are a mantissa. -/
theorem withFraction_shape (whole fraction : List Char) (some : whole ≠ [])
    (wholeDigits : ∀ c ∈ whole, c.isDigit = true)
    (fractionDigits : ∀ c ∈ fraction, c.isDigit = true) :
    Mantissa (withFraction whole fraction) ∧
      (withFraction whole fraction).length ≤ whole.length + 1 + fraction.length := by
  obtain ⟨first, rest, rfl⟩ := List.exists_cons_of_ne_nil some
  obtain ⟨digit, digits⟩ := List.forall_mem_cons.mp wholeDigits
  have part := withoutZeros_sublist fraction
  rw [withFraction]
  split
  · exact ⟨⟨first, rest, rfl, digit, fun c member => Or.inl (digits c member)⟩, by omega⟩
  · refine ⟨⟨first, rest ++ '.' :: withoutZeros fraction, rfl, digit, ?_⟩, ?_⟩
    · intro c member
      rcases List.mem_append.mp member with early | late
      · exact Or.inl (digits c early)
      · rcases List.mem_cons.mp late with point | behind
        · exact Or.inr point
        · exact Or.inl (fractionDigits c (part.subset behind))
    · have length := part.length_le
      simp only [List.length_append, List.length_cons]
      omega

section Texts

variable (digits : List Char) (some : digits ≠ []) (numeric : ∀ c ∈ digits, c.isDigit = true)
include some numeric

/-- Fixed notation is a mantissa, with zeros put before the digits if the number is small. -/
theorem fixed_shape (exponent : Int) (low : -4 ≤ exponent) :
    Mantissa (fixed digits exponent) ∧ (fixed digits exponent).length ≤ digits.length + 5 := by
  rw [fixed]
  split
  · have whole : digits.take (exponent.toNat + 1) ≠ [] := by
      obtain ⟨first, rest, rfl⟩ := List.exists_cons_of_ne_nil some
      exact List.cons_ne_nil _ _
    obtain ⟨shape, length⟩ := withFraction_shape (digits.take (exponent.toNat + 1))
      (digits.drop (exponent.toNat + 1)) whole
      (fun c member => numeric c (List.mem_of_mem_take member))
      (fun c member => numeric c (List.mem_of_mem_drop member))
    refine ⟨shape, length.trans ?_⟩
    rw [List.length_take, List.length_drop]
    omega
  · obtain ⟨shape, length⟩ := withFraction_shape ['0']
      (List.replicate (-exponent - 1).toNat '0' ++ digits) (List.cons_ne_nil _ _)
      (fun c member => by rw [List.mem_singleton.mp member]; rfl)
      (fun c member => by
        rcases List.mem_append.mp member with zero | digit
        · rw [List.eq_of_mem_replicate zero]
          rfl
        · exact numeric c digit)
    refine ⟨shape, length.trans ?_⟩
    simp only [List.length_append, List.length_replicate, List.length_cons, List.length_nil]
    omega

/-- Notation with an exponent, which has a sign and at least two digits, and three if it
is large. -/
theorem exponential_shape (exponent : Int) (near : exponent.natAbs ≤ 400 + 1) :
    Numeral (exponential digits exponent) ∧
      (exponential digits exponent).length ≤ digits.length + 6 := by
  obtain ⟨first, rest, rfl⟩ := List.exists_cons_of_ne_nil some
  obtain ⟨mantissa, length⟩ := withFraction_shape [first] rest (List.cons_ne_nil _ _)
    (fun c member => numeric c (by rw [List.mem_singleton.mp member]; exact List.mem_cons_self))
    (fun c member => numeric c (List.mem_cons_of_mem _ member))
  have few : (Nat.toDigits 10 exponent.natAbs).length ≤ 3 :=
    (Nat.length_toDigits_le_iff (by decide) (by decide)).mpr (by omega)
  have digitsOf : ∀ c ∈ Nat.toDigits 10 exponent.natAbs, c.isDigit = true :=
    fun c member => Nat.isDigit_of_mem_toDigits (by decide) (by decide) member
  have size : exponentDigits exponent.natAbs ≠ [] ∧
      (∀ c ∈ exponentDigits exponent.natAbs, c.isDigit = true) ∧
      (exponentDigits exponent.natAbs).length ≤ 3 := by
    rw [exponentDigits]
    split
    · next small =>
      refine ⟨List.cons_ne_nil _ _, List.forall_mem_cons.mpr ⟨rfl, digitsOf⟩, ?_⟩
      rw [Nat.toDigits_of_lt_base small]
      exact (by decide : 2 ≤ 3)
    · exact ⟨Nat.toDigits_ne_nil, digitsOf, few⟩
  obtain ⟨written, numbers, short⟩ := size
  refine ⟨⟨_, _, rfl, mantissa, Or.inr ⟨_, _, rfl, ?_, written, numbers⟩⟩, ?_⟩
  · split
    · exact Or.inr rfl
    · exact Or.inl rfl
  · rw [exponential, List.length_append, List.length_cons, List.length_cons]
    simp only [List.take_succ_cons, List.take_zero, List.drop_succ_cons, List.drop_zero,
      List.length_cons, List.length_nil] at length ⊢
    omega

end Texts

/-- The text of a double: perhaps a sign, and a numeral of at most 22 characters. -/
theorem printG_shape (x : Double) :
    ∃ sign body, printG x = sign ++ body ∧ (sign = [] ∨ sign = ['-']) ∧ Numeral body ∧
      body.length ≤ 22 := by
  have sign : (if x.negative then ['-'] else []) = [] ∨
      (if x.negative then ['-'] else []) = ['-'] := by
    cases x.negative
    · exact Or.inl rfl
    · exact Or.inr rfl
  by_cases zero : x.significand = 0
  · refine ⟨_, ['0'], by rw [printG, if_pos zero], sign, ?_, by decide⟩
    exact ⟨['0'], [], rfl, ⟨'0', [], rfl, rfl, by simp⟩, Or.inl rfl⟩
  · obtain ⟨positive, above, below⟩ := magnitude_bounds x zero
    have few := scientific_digits x.magnitude positive 16 (by decide)
    have near := scientific_exponent x.magnitude positive 16 400 above below
    rw [printG, if_neg zero]
    generalize scientific 16 x.magnitude = decimal at few near
    obtain ⟨rounded, exponent⟩ := decimal
    have numeric : ∀ c ∈ Nat.toDigits 10 rounded, c.isDigit = true :=
      fun c member => Nat.isDigit_of_mem_toDigits (by decide) (by decide) member
    have length : (Nat.toDigits 10 rounded).length ≤ 16 :=
      (Nat.length_toDigits_le_iff (by decide) (by decide)).mpr few
    refine ⟨_, _, rfl, sign, ?_⟩
    split
    · next plain =>
      obtain ⟨mantissa, size⟩ := fixed_shape _ Nat.toDigits_ne_nil numeric exponent plain.1
      exact ⟨⟨_, [], (List.append_nil _).symm, mantissa, Or.inl rfl⟩, by omega⟩
    · obtain ⟨numeral, size⟩ := exponential_shape _ Nat.toDigits_ne_nil numeric exponent
        (near.trans (by decide))
      exact ⟨numeral, by omega⟩

end ScicosFlex.Library.PrintedNumbers
