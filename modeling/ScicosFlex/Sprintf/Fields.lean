import ScicosFlex.Library.Layout

/-!
# The fields of the sprintf block

`spf_generic`, `spf_build` and `update` of `sprintf_block.c`. The block writes a line of
fields into its output port. Each field has a width; its text is cut or filled with blanks
to the width. The line ends before the first field with which it would reach the size of
the port, and a NUL follows.

What C makes of a format and a value is not described here. The function `_snprintf` copies
as much of this text as its bound allows. A write outside of the port is undefined.

The widths are added as `int`. The line is the right one exactly if no such sum overflows
(`line_right_iff`).
-/

namespace ScicosFlex.Sprintf.Fields

open Library.Layout

universe u v

/-- `spf_parameter_type`. -/
inductive ParameterType where
  | int
  | unsigned
  | int8
  | double
  | string
deriving DecidableEq

/-- The types by their numbers. -/
def parameterType (type : Int) : Option ParameterType :=
  if type = 3 then some .int
  else if type = 6 then some .unsigned
  else if type = 5 then some .int8
  else if type = 1 then some .double
  else if type = -1 then some .string
  else none

/-- The library of C: the text that is made of a format and of the value a parameter holds as
a value of some type, and the negative number that `_snprintf` returns on truncation. -/
structure Printf (Format : Type u) (Param : Type v) where
  text : Format → Option (ParameterType × Param) → List UInt8
  truncated : Int
  negative : truncated < 0

/-- A sum as an `int`. -/
def int32 (value : Int) : Int := value.bmod 4294967296

/-- A space. -/
def blank : UInt8 := 32

/-- Writes some bytes to the port. -/
def write (dst : List UInt8) (place : Int) (bytes : List UInt8) : Option (List UInt8) :=
  if 0 ≤ place ∧ place + bytes.length ≤ dst.length then some (store dst place.toNat bytes)
  else none

/-- `_snprintf(dst + place, size, ...)` for a call that makes this text. -/
def snprintf (truncated : Int) (dst : List UInt8) (place size : Int) (text : List UInt8) :
    Option (List UInt8 × Int) :=
  if text.length < size then do
    some (← write dst place (text ++ [0]), text.length)
  else if text.length = size then do
    some (← write dst place text, text.length)
  else do
    some (← write dst place (text.take size.toNat), truncated)

section Source

variable {Format : Type u} {Param : Type v} (printf : Printf Format Param)

/-- `spf_generic(dst + place, size, fmt, param, type)`. -/
def spfGeneric (dst : List UInt8) (place size : Int) (fmt : Format) (param : Option Param)
    (type : Int) : Option (List UInt8) :=
  -- The assertion.
  if size < 0 then none
  else
    let written : Option (List UInt8 × Int) :=
      match parameterType type, param with
      | none, _ => some (dst, 0)
      | some .string, _ => snprintf printf.truncated dst place size (printf.text fmt none)
      | some type, some param =>
        snprintf printf.truncated dst place size (printf.text fmt (some (type, param)))
      | some _, none => none
    written.bind fun (dst, n) =>
      if 0 ≤ n ∧ n < size then write dst (place + n) (List.replicate (size - n).toNat blank)
      else some dst

variable (size : Int) (fmts : Nat → Format) (params : Nat → Param) (sizes types : Nat → Int)

/-- The loop of `spf_build`, which leaves `cur` and the port. -/
def spfLoop : (remaining i j : Nat) → (cur : Int) → (dst : List UInt8) →
    Option (Int × List UInt8)
  | 0, _, _, cur, dst => some (cur, dst)
  | remaining + 1, i, j, cur, dst =>
    if size ≤ int32 (cur + sizes i) then some (cur, dst)
    else do
      let isString := types i = -1
      let dst ← spfGeneric printf dst cur (sizes i) (fmts i)
        (if isString then none else some (params j)) (types i)
      spfLoop remaining (i + 1) (if isString then j else j + 1) (int32 (cur + sizes i)) dst

/-- `spf_build`. -/
def spfBuild (dst : List UInt8) (arguments : Nat) : Option (List UInt8) := do
  let (cur, dst) ← spfLoop printf size fmts params sizes types arguments 0 0 0 dst
  write dst (if cur < size then cur else size - 1) [0]

/-- `update`, for an output port of some rows and columns. -/
def update (rows cols : Int) (ipar : Nat → Int) (dst : List UInt8) : Option (List UInt8) :=
  let arguments := (ipar 0).toNat
  spfBuild printf (int32 (rows * cols)) fmts params (fun i => ipar (1 + i))
    (fun i => ipar (1 + arguments + i)) dst arguments

end Source

section Line

variable {Format : Type u} {Param : Type v} (printf : Printf Format Param)
variable (size : Int) (fmts : Nat → Format) (params : Nat → Param) (sizes types : Nat → Int)

/-- The width of the first fields together. -/
def accumulated : Nat → Int
  | 0 => 0
  | count + 1 => accumulated count + sizes count

/-- How many of the first fields are not strings. -/
def inputs : Nat → Nat
  | 0 => 0
  | count + 1 => if types count = -1 then inputs count else inputs count + 1

/-- A text cut to a width or filled with blanks. -/
def padded (width : Nat) (text : List UInt8) : List UInt8 :=
  text.take width ++ List.replicate (width - text.length) blank

/-- The text of a field. Fields that are not strings take the inputs in their order. -/
def fieldText (i : Nat) : List UInt8 :=
  match parameterType (types i) with
  | none => []
  | some .string => printf.text (fmts i) none
  | some type => printf.text (fmts i) (some (type, params (inputs types i)))

/-- The first fields one after the other. -/
def line (count : Nat) : List UInt8 :=
  (List.range count).flatMap fun i =>
    padded (sizes i).toNat (fieldText printf fmts params types i)

/-- The longest prefix of the fields that stays below the size at every field. -/
structure LongestPrefix (arguments count : Nat) : Prop where
  fields : count ≤ arguments
  below : ∀ i ≤ count, accumulated sizes i < size
  longest : count < arguments → size ≤ accumulated sizes (count + 1)

/-- The line of the longest prefix and a NUL are at the start of the port, and behind them
the port is as before. -/
def Right (dst : List UInt8) (arguments : Nat) (result : Option (List UInt8)) : Prop :=
  ∃ count, LongestPrefix size sizes arguments count ∧
    result = some (store dst 0 (line printf fmts params sizes types count ++ [0]))

/-- While the fields stay below the size, the width with one more is an `int`. -/
def SumsFit (arguments : Nat) : Prop :=
  ∀ i < arguments, accumulated sizes i < size → accumulated sizes (i + 1) < 2147483648

end Line

/-- Sums that are an `int` are exact. -/
theorem int32_eq (value : Int) (above : 0 ≤ value) (below : value < 2147483648) :
    int32 value = value := by
  rw [int32, Int.bmod_def]
  omega

/-- The sum of two `int`s that is too large becomes negative. -/
theorem int32_overflow (value : Int) (above : 2147483648 ≤ value) (below : value < 4294967296) :
    int32 value < 0 := by
  rw [int32, Int.bmod_def]
  omega

/-- A text in its cell fills it. -/
theorem padded_length (width : Nat) (text : List UInt8) : (padded width text).length = width := by
  rw [padded, List.length_append, List.length_take, List.length_replicate]
  omega

/-- A write inside of the port. -/
theorem write_inside (dst : List UInt8) (place : Nat) (bytes : List UInt8)
    (inside : place + bytes.length ≤ dst.length) :
    write dst place bytes = some (store dst place bytes) := by
  rw [write, if_pos (by omega), Int.toNat_natCast]

/-- A write that leaves the port. -/
theorem write_outside (dst : List UInt8) (place : Nat) (bytes : List UInt8)
    (outside : dst.length < place + bytes.length) : write dst place bytes = none := by
  rw [write, if_neg (by omega)]

/-- A shorter text is filled up with blanks, which replace the NUL. Two writes become
one, and fail where that one does. -/
theorem blanks_written (dst : List UInt8) (place size : Nat) (text : List UInt8)
    (short : text.length < size) :
    ((write dst place (text ++ [0])).bind fun dst =>
      write dst ((place + text.length : Nat) : Int) (List.replicate (size - text.length) blank)) =
      write dst place (padded size text) := by
  have whole : padded size text = text ++ List.replicate (size - text.length) blank := by
    rw [padded, List.take_of_length_le (Nat.le_of_lt short)]
  have cell := padded_length size text
  have single : (text ++ [0]).length = text.length + 1 := List.length_append
  by_cases inside : place + size ≤ dst.length
  · have room : place + (text ++ [0]).length ≤ dst.length := by omega
    rw [write_inside dst place _ room, Option.bind_some, write_inside, store_over, ← whole,
      write_inside dst place _ (by omega)]
    · rw [List.length_singleton, List.length_replicate]
      omega
    · rw [List.length_replicate]
      omega
    · rw [store_length _ _ _ room, List.length_replicate]
      omega
  · rw [write_outside dst place (padded size text) (by omega)]
    by_cases room : place + (text ++ [0]).length ≤ dst.length
    · rw [write_inside dst place _ room, Option.bind_some, write_outside]
      rw [store_length _ _ _ room, List.length_replicate]
      omega
    · rw [write_outside dst place _ (by omega)]
      rfl

/-- Whatever `_snprintf` makes of a text, the rest of the cell is filled up with blanks. -/
theorem snprintf_filled (truncated : Int) (negative : truncated < 0) (dst : List UInt8)
    (place size : Nat) (text : List UInt8) :
    ((snprintf truncated dst place size text).bind fun (dst, n) =>
      if 0 ≤ n ∧ n < (size : Int) then
        write dst (place + n) (List.replicate ((size : Int) - n).toNat blank)
      else some dst) = write dst place (padded size text) := by
  rw [snprintf]
  obtain short | fits | long := Nat.lt_trichotomy text.length size
  · rw [if_pos (by omega), ← blanks_written dst place size text short]
    cases write dst place (text ++ [0]) with
    | none => rfl
    | some dst =>
      have rest : ((size : Int) - text.length).toNat = size - text.length := by omega
      simp only [Option.bind_eq_bind, Option.bind_some]
      rw [if_pos (by omega), rest, Int.natCast_add]
  · have whole : padded size text = text := by
      rw [padded, List.take_of_length_le (by omega), fits, Nat.sub_self, List.replicate_zero,
        List.append_nil]
    rw [if_neg (by omega), if_pos (by omega), whole]
    cases write dst place text with
    | none => rfl
    | some dst =>
      simp only [Option.bind_eq_bind, Option.bind_some]
      rw [if_neg (by omega)]
  · have cut : padded size text = text.take size := by
      rw [padded, Nat.sub_eq_zero_of_le (by omega), List.replicate_zero, List.append_nil]
    rw [if_neg (by omega), if_neg (by omega), cut, Int.toNat_natCast]
    cases write dst place (text.take size) with
    | none => rfl
    | some dst =>
      simp only [Option.bind_eq_bind, Option.bind_some]
      rw [if_neg (by omega)]

/-- The type of strings has one number. -/
theorem parameterType_string (type : Int) : parameterType type = some .string ↔ type = -1 := by
  constructor
  · intro string
    refine Decidable.byContradiction fun other => ?_
    unfold parameterType at string
    rw [if_neg other] at string
    repeat' split at string
    all_goals cases string
  · rintro rfl
    rfl

section Steps

variable {Format : Type u} {Param : Type v} (printf : Printf Format Param)
variable (size : Int) (fmts : Nat → Format) (params : Nat → Param) (sizes types : Nat → Int)

/-- `spf_generic` writes a field, with blanks up to its width. A string takes no input,
so the inputs are counted apart from the fields. -/
theorem spfGeneric_field (dst : List UInt8) (place width i : Nat) (inside : place ≤ dst.length) :
    spfGeneric printf dst place width (fmts i)
        (if types i = -1 then none else some (params (inputs types i))) (types i) =
      write dst place (padded width (fieldText printf fmts params types i)) := by
  have filled := snprintf_filled printf.truncated printf.negative dst place width
  unfold spfGeneric fieldText
  rw [if_neg (by omega)]
  cases known : parameterType (types i) with
  | none =>
    have nothing : padded width [] = List.replicate width blank := by simp [padded]
    dsimp only [Option.bind_some]
    rw [nothing]
    by_cases empty : width = 0
    · subst empty
      rw [if_neg (by omega), List.replicate_zero, write_inside dst place [] inside, store_nil]
    · rw [if_pos (by omega), Int.add_zero, Int.sub_zero, Int.toNat_natCast]
  | some type =>
    cases type with
    | string => exact filled _
    | int | unsigned | int8 | double =>
      have value : types i ≠ -1 := by
        intro string
        rw [(parameterType_string _).mpr string] at known
        cases known
      rw [if_neg value]
      exact filled _

/-- One more field at the end of the line. -/
theorem line_succ (count : Nat) :
    line printf fmts params sizes types (count + 1) =
      line printf fmts params sizes types count ++
        padded (sizes count).toNat (fieldText printf fmts params types count) := by
  rw [line, line, List.range_succ, List.flatMap_append, List.flatMap_singleton]

variable (arguments : Nat) (widths : ∀ i < arguments, 0 ≤ sizes i ∧ sizes i < 2147483648)
include widths

/-- The line is as long as its fields are wide. -/
theorem line_length (count : Nat) (few : count ≤ arguments) :
    ((line printf fmts params sizes types count).length : Int) = accumulated sizes count := by
  induction count with
  | zero => rfl
  | succ count inductionHypothesis =>
    have width := (widths count (by omega)).1
    rw [line_succ, List.length_append, padded_length, accumulated,
      ← inductionHypothesis (by omega)]
    omega

/-- More fields are wider. -/
theorem accumulated_mono (first second : Nat) (ordered : first ≤ second)
    (few : second ≤ arguments) : accumulated sizes first ≤ accumulated sizes second := by
  induction ordered with
  | refl => exact Int.le_refl _
  | @step second _ inductionHypothesis =>
    have before := inductionHypothesis (by omega)
    have width := (widths second (by omega)).1
    rw [accumulated]
    omega

variable (start : List UInt8)

/-- A field behind the line is written if the port has room for it, and otherwise the
port is left. -/
theorem field_behind_line (i : Nat) (next : i < arguments)
    (before : accumulated sizes i ≤ start.length) :
    spfGeneric printf (store start 0 (line printf fmts params sizes types i))
        (accumulated sizes i) (sizes i) (fmts i)
        (if types i = -1 then none else some (params (inputs types i))) (types i) =
      if accumulated sizes (i + 1) ≤ start.length then
        some (store start 0 (line printf fmts params sizes types (i + 1)))
      else none := by
  have width := (widths i next).1
  have written := line_length printf fmts params sizes types arguments widths i
    (Nat.le_of_lt next)
  have field := padded_length (sizes i).toNat (fieldText printf fmts params types i)
  have same : (sizes i).toNat = sizes i := Int.toNat_of_nonneg width
  have kept := store_length start 0 (line printf fmts params sizes types i) (by omega)
  have placed := spfGeneric_field printf fmts params types
    (store start 0 (line printf fmts params sizes types i))
    (line printf fmts params sizes types i).length (sizes i).toNat i (by omega)
  rw [same, written] at placed
  rw [placed, ← written, accumulated]
  split
  · next room =>
    have behind := store_append start 0 (line printf fmts params sizes types i)
      (padded (sizes i).toNat (fieldText printf fmts params types i)) (by omega)
    rw [Nat.zero_add] at behind
    rw [write_inside _ _ _ (by omega), behind, ← line_succ]
  · next full => exact write_outside _ _ _ (by omega)

/-- Where no sum overflows up to the field behind a longest prefix, none does at all. -/
theorem sumsFit_of_start (short : size < 2147483648) (count : Nat)
    (longest : LongestPrefix size sizes arguments count)
    (fits : count < arguments → accumulated sizes (count + 1) < 2147483648) :
    SumsFit size sizes arguments := by
  intro i inside below
  obtain less | rfl | more := Nat.lt_trichotomy i count
  · have next := longest.below (i + 1) less
    omega
  · exact fits inside
  · have reached := longest.longest (by omega)
    have later := accumulated_mono sizes arguments widths (count + 1) i more (by omega)
    omega

/-- The loop writes the fields of the longest prefix, or it leaves the port at a sum
that overflows. -/
theorem spfLoop_result (port : (start.length : Int) = size) (short : size < 2147483648)
    (remaining i : Nat) (all : i + remaining = arguments)
    (below : ∀ k ≤ i, accumulated sizes k < size) :
    (∃ count, LongestPrefix size sizes arguments count ∧
      (count < arguments → accumulated sizes (count + 1) < 2147483648) ∧
      spfLoop printf size fmts params sizes types remaining i (inputs types i)
          (accumulated sizes i) (store start 0 (line printf fmts params sizes types i)) =
        some (accumulated sizes count,
          store start 0 (line printf fmts params sizes types count))) ∨
    ¬ SumsFit size sizes arguments ∧
      spfLoop printf size fmts params sizes types remaining i (inputs types i)
        (accumulated sizes i) (store start 0 (line printf fmts params sizes types i)) = none := by
  induction remaining generalizing i with
  | zero =>
    exact Or.inl ⟨i, ⟨by omega, below, by omega⟩, by omega, rfl⟩
  | succ remaining inductionHypothesis =>
    have next : i < arguments := by omega
    have width := widths i next
    have here := below i (Nat.le_refl _)
    have nonneg := accumulated_mono sizes arguments widths 0 i (Nat.zero_le _) (by omega)
    have zero : accumulated sizes 0 = 0 := rfl
    have sum : accumulated sizes (i + 1) = accumulated sizes i + sizes i := rfl
    have field := field_behind_line printf fmts params sizes types arguments widths start i next
      (by omega)
    rw [spfLoop]
    dsimp only
    rw [field]
    by_cases overflow : 2147483648 ≤ accumulated sizes (i + 1)
    · -- The sum is negative, so that the loop goes on with a field behind the port.
      have negative := int32_overflow _ (sum ▸ overflow) (by omega)
      refine Or.inr ⟨fun fits => ?_, ?_⟩
      · have fitted := fits i next here
        omega
      · rw [if_neg (by omega), if_neg (by omega)]
        rfl
    · rw [int32_eq _ (by omega) (by omega), ← sum]
      by_cases reached : size ≤ accumulated sizes (i + 1)
      · rw [if_pos reached]
        exact Or.inl ⟨i, ⟨by omega, below, fun _ => reached⟩, by omega, rfl⟩
      · have longer : ∀ k ≤ i + 1, accumulated sizes k < size := by
          intro k upTo
          obtain before | rfl := Nat.le_or_eq_of_le_succ upTo
          · exact below k before
          · exact Int.not_le.mp reached
        rw [if_neg reached, if_pos (by omega), Option.bind_eq_bind, Option.bind_some]
        exact inductionHypothesis (i + 1) (by omega) longer

/-- Without an overflow the line is the right one, and otherwise the port is left: the
sum has gone negative, and something is written before the start of the port. -/
theorem spfBuild_result (port : (start.length : Int) = size) (positive : 1 ≤ size)
    (short : size < 2147483648) :
    SumsFit size sizes arguments ∧ Right printf size fmts params sizes types start arguments
        (spfBuild printf size fmts params sizes types start arguments) ∨
      ¬ SumsFit size sizes arguments ∧
        spfBuild printf size fmts params sizes types start arguments = none := by
  have first : ∀ k ≤ 0, accumulated sizes k < size := by
    intro k none
    obtain rfl := Nat.le_zero.mp none
    exact positive
  have empty : store start 0 (line printf fmts params sizes types 0) = start := store_nil start 0
  have run := spfLoop_result printf size fmts params sizes types arguments widths start port short
    arguments 0 (Nat.zero_add _) first
  have started : inputs types 0 = 0 ∧ accumulated sizes 0 = 0 := ⟨rfl, rfl⟩
  rw [empty, started.1, started.2] at run
  obtain ⟨count, longest, fits, looped⟩ | ⟨overflow, looped⟩ := run
  · have below := longest.below count (Nat.le_refl _)
    have written := line_length printf fmts params sizes types arguments widths count
      longest.fields
    have nul := store_append start 0 (line printf fmts params sizes types count) [0]
      (by rw [List.length_singleton]; omega)
    rw [Nat.zero_add] at nul
    refine Or.inl ⟨sumsFit_of_start size sizes arguments widths short count longest fits,
      count, longest, ?_⟩
    rw [spfBuild, looped, Option.bind_eq_bind, Option.bind_some]
    dsimp only
    rw [if_pos below, ← written, write_inside, nul]
    rw [store_length start 0 _ (by omega), List.length_singleton]
    omega
  · refine Or.inr ⟨overflow, ?_⟩
    rw [spfBuild, looped]
    rfl

/-- The port holds the right line exactly if no sum of widths overflows. The loop stops
before the first field whose width would reach the size, and adds in `int`; behind a sum
that is no `int` it would go on at a negative one. Sizes of the port itself that are no
`int` are left out. -/
theorem line_right_iff (port : (start.length : Int) = size) (positive : 1 ≤ size)
    (short : size < 2147483648) :
    Right printf size fmts params sizes types start arguments
        (spfBuild printf size fmts params sizes types start arguments) ↔
      SumsFit size sizes arguments := by
  obtain ⟨fits, right⟩ | ⟨overflow, undefined⟩ := spfBuild_result printf size fmts params sizes
    types arguments widths start port positive short
  · exact iff_of_true right fits
  · refine iff_of_false ?_ overflow
    rintro ⟨count, -, result⟩
    rw [undefined] at result
    cases result

end Steps

/-- `update` writes the right line if no sum of the widths in `ipar` overflows. -/
theorem update_right {Format : Type u} {Param : Type v} (printf : Printf Format Param)
    (fmts : Nat → Format) (params : Nat → Param) (rows cols : Int) (ipar : Nat → Int)
    (start : List UInt8) (port : (start.length : Int) = rows * cols) (positive : 1 ≤ rows * cols)
    (short : rows * cols < 2147483648)
    (widths : ∀ i < (ipar 0).toNat, 0 ≤ ipar (1 + i) ∧ ipar (1 + i) < 2147483648)
    (fits : SumsFit (rows * cols) (fun i => ipar (1 + i)) (ipar 0).toNat) :
    Right printf (rows * cols) fmts params (fun i => ipar (1 + i))
      (fun i => ipar (1 + (ipar 0).toNat + i)) start (ipar 0).toNat
      (update printf fmts params rows cols ipar start) := by
  obtain ⟨-, right⟩ | ⟨overflow, -⟩ := spfBuild_result printf (rows * cols) fmts params
    (fun i => ipar (1 + i)) (fun i => ipar (1 + (ipar 0).toNat + i)) (ipar 0).toNat widths start
    port positive short
  · rw [update, int32_eq _ (by omega) short]
    exact right
  · exact absurd fits overflow

/-- A library for formats without conversions, which are their own texts. -/
def plainTexts : Printf (List UInt8) Unit where
  text fmt _ := fmt
  truncated := -1
  negative := by decide

/-- The formats `ab` and `c` of strings. -/
def twoFormats (i : Nat) : List UInt8 := if i = 0 then [97, 98] else [99]

/-- Two fields of width three in a port of six bytes: the second one does not fit. -/
theorem two_fields_right :
    Right plainTexts 6 twoFormats (fun _ => ()) (fun _ => 3) (fun _ => -1) [1, 2, 3, 4, 5, 6] 2
      (spfBuild plainTexts 6 twoFormats (fun _ => ()) (fun _ => 3) (fun _ => -1)
        [1, 2, 3, 4, 5, 6] 2) :=
  (line_right_iff plainTexts 6 twoFormats (fun _ => ()) (fun _ => 3) (fun _ => -1) 2
    (fun _ _ => by decide) [1, 2, 3, 4, 5, 6] rfl (by decide) (by decide)).mpr
    (by unfold SumsFit; decide)

/-- The widths one and 2147483647. -/
def wideSizes (i : Nat) : Int := if i = 0 then 1 else 2147483647

/-- The second of these fields is written behind a port of 64 bytes. -/
theorem wide_field_leaves_port :
    ¬ Right plainTexts 64 twoFormats (fun _ => ()) wideSizes (fun _ => -1)
      (List.replicate 64 0) 2
      (spfBuild plainTexts 64 twoFormats (fun _ => ()) wideSizes (fun _ => -1)
        (List.replicate 64 0) 2) := by
  have widths : ∀ i < 2, 0 ≤ wideSizes i ∧ wideSizes i < 2147483648 := by decide
  have overflow : ¬ SumsFit 64 wideSizes 2 := by unfold SumsFit; decide
  obtain ⟨fits, -⟩ | ⟨-, undefined⟩ := spfBuild_result plainTexts 64 twoFormats (fun _ => ())
    wideSizes (fun _ => -1) 2 widths (List.replicate 64 0) (by decide) (by decide) (by decide)
  · exact absurd fits overflow
  · rintro ⟨count, -, result⟩
    rw [undefined] at result
    cases result

end ScicosFlex.Sprintf.Fields
