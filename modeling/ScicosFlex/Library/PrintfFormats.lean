/-!
# The formats of `printf`

How C reads a format: `%%` is a percent sign, and another percent sign begins a conversion
with flags, a width, a precision, a length and a specifier. A star for the width or the
precision takes an argument of its own, which is an `int`; the length and the specifier
give the type of the argument that is converted.

A conversion that is written out in its parts is read back as these parts
(`conversion_plain`), and the parts of a conversion that was read are in front of its
specifier (`conversionread`).
-/

namespace ScicosFlex.Library.PrintfFormats

/-- The flags. -/
def isFlag (c : Char) : Bool :=
  c = '-' || c = '+' || c = ' ' || c = '#' || c = '0'

/-- The decimal digits. -/
def isDigit (c : Char) : Bool :=
  c = '0' || c = '1' || c = '2' || c = '3' || c = '4' || c = '5' || c = '6' || c = '7' ||
    c = '8' || c = '9'

/-- The lengths. -/
def lengths : List (List Char) :=
  [[], ['h', 'h'], ['h'], ['l', 'l'], ['l'], ['j'], ['z'], ['t'], ['L']]

/-- The texts of the parts of a conversion. -/
structure Conversion where
  flags : List Char
  width : List Char
  precision : List Char
  length : List Char
  specifier : Char

/-- A star or a number, and what follows. -/
def number : List Char → List Char × List Char
  | '*' :: rest => (['*'], rest)
  | str => (str.takeWhile isDigit, str.dropWhile isDigit)

/-- A precision, and what follows. -/
def precision : List Char → List Char × List Char
  | '.' :: rest => ('.' :: (number rest).1, (number rest).2)
  | str => ([], str)

/-- A length, and what follows. -/
def length : List Char → List Char × List Char
  | 'h' :: 'h' :: rest => (['h', 'h'], rest)
  | 'h' :: rest => (['h'], rest)
  | 'l' :: 'l' :: rest => (['l', 'l'], rest)
  | 'l' :: rest => (['l'], rest)
  | 'j' :: rest => (['j'], rest)
  | 'z' :: rest => (['z'], rest)
  | 't' :: rest => (['t'], rest)
  | 'L' :: rest => (['L'], rest)
  | str => ([], str)

/-- A conversion behind its percent sign, and what follows. -/
def conversion (str : List Char) : Option (Conversion × List Char) :=
  let width := number (str.dropWhile isFlag)
  let precision := precision width.2
  let length := length precision.2
  match length.2 with
  | [] => none
  | specifier :: rest =>
    some (⟨str.takeWhile isFlag, width.1, precision.1, length.1, specifier⟩, rest)

/-- The types that arguments are promoted to. Types that are not told apart by the promotions
share one; every other length with a specifier has a type of its own, if any. -/
inductive ArgumentType where
  | int
  | unsigned
  | double
  | other (length : List Char) (specifier : Char)
deriving DecidableEq

/-- The type of the argument that is converted. -/
def argumentType (length : List Char) (specifier : Char) : ArgumentType :=
  if specifier ∈ ['d', 'i'] ∧ length ∈ [[], ['h'], ['h', 'h']] then .int
  else if specifier ∈ ['u', 'o', 'x', 'X'] ∧ length ∈ [[], ['h'], ['h', 'h']] then .unsigned
  else if specifier ∈ ['f', 'F', 'e', 'E', 'g', 'G', 'a', 'A'] ∧ length ∈ [[], ['l']] then .double
  else if specifier = 'c' ∧ length = [] then .int
  else .other length specifier

/-- The types of the arguments that a conversion takes. -/
def Conversion.arguments (conversion : Conversion) : List ArgumentType :=
  (if '*' ∈ conversion.width then [.int] else []) ++
    (if '*' ∈ conversion.precision then [.int] else []) ++
      [argumentType conversion.length conversion.specifier]

/-- What is in front of the specifier. -/
def Conversion.parts (conversion : Conversion) : List Char :=
  conversion.flags ++ conversion.width ++ conversion.precision ++ conversion.length

theorem number_text (str : List Char) : (number str).1 ++ (number str).2 = str := by
  unfold number
  split
  · rfl
  · exact List.takeWhile_append_dropWhile

theorem precision_text (str : List Char) : (precision str).1 ++ (precision str).2 = str := by
  unfold precision
  split
  · next rest => exact congrArg ('.' :: ·) (number_text rest)
  · rfl

theorem length_text (str : List Char) : (length str).1 ++ (length str).2 = str := by
  unfold length
  split <;> rfl

/-- A conversion and what follows it make up the text. -/
theorem conversion_text (str rest : List Char) (found : Conversion)
    (read : conversion str = some (found, rest)) :
    str = found.parts ++ found.specifier :: rest := by
  unfold conversion at read
  dsimp only at read
  split at read
  · cases read
  · next specifier behind split =>
    obtain ⟨rfl, rfl⟩ := Prod.mk.inj (Option.some.inj read)
    have whole := length_text (precision (number (str.dropWhile isFlag)).2).2
    rw [split] at whole
    rw [Conversion.parts]
    dsimp only
    rw [List.append_assoc, whole, List.append_assoc, precision_text, List.append_assoc,
      number_text, List.takeWhile_append_dropWhile]

/-- What follows a conversion is shorter. -/
theorem conversion_shorter (str rest : List Char) (found : Conversion)
    (read : conversion str = some (found, rest)) : rest.length < str.length := by
  rw [conversion_text str rest found read, List.length_append, List.length_cons]
  omega

/-- The conversions of a format other than `%%`; there are none if the format ends
within a conversion. -/
def conversions (str : List Char) : Option (List Conversion) :=
  match str with
  | [] => some []
  | '%' :: '%' :: rest => conversions rest
  | '%' :: rest =>
    match _ : conversion rest with
    | none => none
    | some (found, behind) => (conversions behind).map (found :: ·)
  | _ :: rest => conversions rest
termination_by str.length
decreasing_by
  · simp only [List.length_cons]
    omega
  · have shorter := conversion_shorter _ _ _ (by assumption)
    simp only [List.length_cons]
    omega
  · exact Nat.lt_succ_self _

@[simp] theorem conversions_nil : conversions [] = some [] := by
  rw [conversions]

@[simp] theorem conversions_percent (rest : List Char) :
    conversions ('%' :: '%' :: rest) = conversions rest := by
  rw [conversions]

theorem conversions_other (c : Char) (rest : List Char) (other : c ≠ '%') :
    conversions (c :: rest) = conversions rest := by
  rw [conversions]
  · rintro behind rfl
    exact fun _ => other rfl
  · exact other

/-- A percent sign that is not followed by another begins a conversion. -/
theorem conversions_conversion (rest : List Char) (single : rest.head? ≠ some '%') :
    conversions ('%' :: rest) = (conversion rest).bind fun read =>
      (conversions read.2).map (read.1 :: ·) := by
  rw [conversions]
  · split
    · next missing => rw [missing, Option.bind_none]
    · next found behind read => rw [read, Option.bind_some]
  · rintro behind rfl
    exact single rfl

/-- Texts whose percent signs come in pairs. -/
inductive Paired : List Char → Prop where
  | nil : Paired []
  | percent {rest : List Char} (paired : Paired rest) : Paired ('%' :: '%' :: rest)
  | other {c : Char} {rest : List Char} (other : c ≠ '%') (paired : Paired rest) :
      Paired (c :: rest)

/-- Another character in front makes no difference. -/
theorem Paired.tail {c : Char} {rest : List Char} (other : c ≠ '%') (paired : Paired (c :: rest)) :
    Paired rest := by
  cases paired with
  | percent paired => exact absurd rfl other
  | other _ paired => exact paired

/-- Pairs in front of a format are no conversions. -/
theorem conversions_paired (before rest : List Char) (paired : Paired before) :
    conversions (before ++ rest) = conversions rest := by
  induction paired with
  | nil => rfl
  | percent paired inductionHypothesis =>
    rw [List.cons_append, List.cons_append, conversions_percent, inductionHypothesis]
  | other other paired inductionHypothesis =>
    rw [List.cons_append, conversions_other _ _ other, inductionHypothesis]

/-- Nor are they without it. -/
theorem conversions_only_pairs (str : List Char) (paired : Paired str) :
    conversions str = some [] := by
  have alone := conversions_paired str [] paired
  rwa [List.append_nil, conversions_nil] at alone

/-- The characters that may be in front of a specifier. -/
def isPart (c : Char) : Bool :=
  isFlag c || isDigit c || c = '*' || c = '.' || c = 'h' || c = 'l' || c = 'j' || c = 'z' ||
    c = 't' || c = 'L'

/-- A text of flags, of digits, of a precision without a star and of this length. -/
def Plain (mid length : List Char) : Prop :=
  ∃ flags width precision, mid = flags ++ width ++ precision ++ length ∧
    (∀ c ∈ flags, isFlag c) ∧ (∀ c ∈ width, isDigit c) ∧
    (precision = [] ∨ ∃ digits, precision = '.' :: digits ∧ ∀ c ∈ digits, isDigit c) ∧
    length ∈ lengths

/-- A star, or digits. -/
def IsNumber (text : List Char) : Prop := text = ['*'] ∨ ∀ c ∈ text, isDigit c

theorem number_isNumber (str : List Char) : IsNumber (number str).1 := by
  unfold number
  split
  · exact Or.inl rfl
  · exact Or.inr fun c => List.all_eq_true.mp List.all_takeWhile c

theorem precision_number (str : List Char) :
    (precision str).1 = [] ∨ ∃ text, (precision str).1 = '.' :: text ∧ IsNumber text := by
  unfold precision
  split
  · next rest => exact Or.inr ⟨_, rfl, number_isNumber rest⟩
  · exact Or.inl rfl

theorem length_known (str : List Char) : (length str).1 ∈ lengths := by
  unfold length
  split <;> simp [lengths]

/-- The parts of a conversion are what they are called. -/
structure Conversion.Formed (conversion : Conversion) : Prop where
  flags : ∀ c ∈ conversion.flags, isFlag c
  width : IsNumber conversion.width
  precision : conversion.precision = [] ∨
    ∃ text, conversion.precision = '.' :: text ∧ IsNumber text
  length : conversion.length ∈ lengths

theorem conversion_formed (str rest : List Char) (found : Conversion)
    (read : conversion str = some (found, rest)) : found.Formed := by
  unfold conversion at read
  dsimp only at read
  split at read
  · cases read
  · obtain ⟨rfl, rfl⟩ := Prod.mk.inj (Option.some.inj read)
    exact
      { flags := fun c => List.all_eq_true.mp List.all_takeWhile c
        width := number_isNumber _
        precision := precision_number _
        length := length_known _ }

theorem isPart_of_flag {c : Char} (flag : isFlag c) : isPart c := by
  simp [isPart, flag]

theorem isPart_of_digit {c : Char} (digit : isDigit c) : isPart c := by
  simp [isPart, digit]

theorem isPart_of_number {text : List Char} (number : IsNumber text) (c : Char)
    (member : c ∈ text) : isPart c := by
  obtain rfl | digits := number
  · obtain rfl := List.mem_singleton.mp member
    rfl
  · exact isPart_of_digit (digits c member)

/-- No other characters are in front of the specifier. -/
theorem Conversion.Formed.parts {conversion : Conversion} (formed : conversion.Formed) (c : Char)
    (member : c ∈ conversion.parts) : isPart c := by
  rw [Conversion.parts] at member
  obtain earlier | long := List.mem_append.mp member
  · obtain earlier | precise := List.mem_append.mp earlier
    · obtain flag | wide := List.mem_append.mp earlier
      · exact isPart_of_flag (formed.flags c flag)
      · exact isPart_of_number formed.width c wide
    · obtain none | ⟨text, some, number⟩ := formed.precision
      · rw [none] at precise
        cases precise
      · rw [some] at precise
        obtain rfl | digit := List.mem_cons.mp precise
        · rfl
        · exact isPart_of_number number c digit
  · have known : ∀ length ∈ lengths, length.all isPart = true := by decide
    exact List.all_eq_true.mp (known _ formed.length) c long

/-- A conversion without stars is plain. -/
theorem Conversion.Formed.plain {conversion : Conversion} (formed : conversion.Formed)
    (width : '*' ∉ conversion.width) (precision : '*' ∉ conversion.precision) :
    Plain conversion.parts conversion.length := by
  refine ⟨_, _, _, rfl, formed.flags, ?_, ?_, formed.length⟩
  · obtain star | digits := formed.width
    · rw [star] at width
      exact absurd (List.mem_singleton_self _) width
    · exact digits
  · obtain none | ⟨text, some, star | digits⟩ := formed.precision
    · exact Or.inl none
    · rw [some, star] at precision
      exact absurd (List.mem_cons_of_mem _ (List.mem_singleton_self _)) precision
    · exact Or.inr ⟨text, some, digits⟩

/-- Plain texts consist of parts. -/
theorem Plain.parts {mid length : List Char} (plain : Plain mid length) (c : Char)
    (member : c ∈ mid) : isPart c := by
  obtain ⟨flags, width, precision, rfl, flagged, wide, precise, known⟩ := plain
  have formed : Conversion.Formed ⟨flags, width, precision, length, ' '⟩ :=
    { flags := flagged
      width := Or.inr wide
      precision := precise.imp_right fun ⟨digits, same, all⟩ => ⟨digits, same, Or.inr all⟩
      length := known }
  exact formed.parts c member

/-- Digits in front of something else are read as a number. -/
theorem number_digits (digits rest : List Char) (all : ∀ c ∈ digits, isDigit c)
    (behind : ∀ c ∈ rest.head?, isDigit c = false ∧ c ≠ '*') :
    number (digits ++ rest) = (digits, rest) := by
  have taken : rest.takeWhile isDigit = [] ∧ rest.dropWhile isDigit = rest := by
    cases rest with
    | nil => exact ⟨rfl, rfl⟩
    | cons c rest =>
      have other := (behind c rfl).1
      simp [other]
  have front : ∀ c ∈ (digits ++ rest).head?, c ≠ '*' := by
    cases digits with
    | nil => exact fun c first => (behind c first).2
    | cons c digits =>
      rintro _ ⟨⟩ rfl
      exact absurd (all '*' List.mem_cons_self) (by decide)
  unfold number
  split
  · next star => exact absurd rfl (front '*' (by rw [star]; rfl))
  · rw [List.takeWhile_append_of_pos all, List.dropWhile_append_of_pos all, taken.1, taken.2,
      List.append_nil]

/-- A length in front of something else is read. -/
theorem length_read (text rest : List Char) (specifier : Char) (known : text ∈ lengths)
    (other : isPart specifier = false) :
    length (text ++ specifier :: rest) = (text, specifier :: rest) := by
  have differs : ∀ c, isPart c → specifier ≠ c := by
    rintro c part rfl
    rw [part] at other
    cases other
  have h := differs 'h' rfl
  have l := differs 'l' rfl
  simp only [lengths, List.mem_cons, List.not_mem_nil, or_false] at known
  obtain rfl | rfl | rfl | rfl | rfl | rfl | rfl | rfl | rfl := known
  · unfold length
    have j := differs 'j' rfl
    have z := differs 'z' rfl
    have t := differs 't' rfl
    have L := differs 'L' rfl
    simp [h, l, j, z, t, L]
  all_goals simp [length, h, l]

/-- Behind the precision there is neither a flag nor a digit, a star or a point. -/
theorem behind_precision (text rest : List Char) (specifier : Char) (known : text ∈ lengths)
    (other : isPart specifier = false) :
    ∀ c ∈ (text ++ specifier :: rest).head?,
      (isFlag c = false ∧ isDigit c = false ∧ c ≠ '*') ∧ c ≠ '.' := by
  have lengthy : ∀ text ∈ lengths, text.head?.all (fun c =>
      decide ((isFlag c = false ∧ isDigit c = false ∧ c ≠ '*') ∧ c ≠ '.')) = true := by decide
  cases text with
  | nil =>
    rintro _ ⟨⟩
    simp only [isPart, Bool.or_eq_false_iff, decide_eq_false_iff_not] at other
    obtain ⟨⟨⟨⟨⟨⟨⟨⟨⟨flag, digit⟩, star⟩, point⟩, -⟩, -⟩, -⟩, -⟩, -⟩, -⟩ := other
    exact ⟨⟨flag, digit, star⟩, point⟩
  | cons c text =>
    rintro _ ⟨⟩
    exact of_decide_eq_true (lengthy _ known)

/-- A precision without a star in front of a length is read. -/
theorem precision_read (before tail : List Char)
    (precise : before = [] ∨ ∃ digits, before = '.' :: digits ∧ ∀ c ∈ digits, isDigit c)
    (behind : ∀ c ∈ tail.head?, (isFlag c = false ∧ isDigit c = false ∧ c ≠ '*') ∧ c ≠ '.') :
    precision (before ++ tail) = (before, tail) := by
  obtain rfl | ⟨digits, rfl, all⟩ := precise
  · rw [List.nil_append]
    unfold precision
    split
    · exact absurd rfl (behind '.' rfl).2
    · rfl
  · rw [List.cons_append, precision, number_digits _ _ all fun c first => (behind c first).1.2]

/-- Behind the width there is neither a flag nor a digit nor a star. -/
theorem behind_width (before tail : List Char)
    (precise : before = [] ∨ ∃ digits, before = '.' :: digits ∧ ∀ c ∈ digits, isDigit c)
    (behind : ∀ c ∈ tail.head?, (isFlag c = false ∧ isDigit c = false ∧ c ≠ '*') ∧ c ≠ '.') :
    ∀ c ∈ (before ++ tail).head?, isFlag c = false ∧ isDigit c = false ∧ c ≠ '*' := by
  obtain rfl | ⟨digits, rfl, -⟩ := precise
  · exact fun c first => (behind c first).1
  · rintro _ ⟨⟩
    decide

/-- The zeros that a width begins with are read as flags. -/
theorem flags_dropped (flags width tail : List Char) (flagged : ∀ c ∈ flags, isFlag c)
    (behind : ∀ c ∈ tail.head?, isFlag c = false) :
    (flags ++ (width ++ tail)).dropWhile isFlag = width.dropWhile isFlag ++ tail := by
  have kept : tail.dropWhile isFlag = tail := by
    cases tail with
    | nil => rfl
    | cons c tail => exact List.dropWhile_cons_of_neg (by rw [behind c rfl]; decide)
  rw [List.dropWhile_append_of_pos flagged, List.dropWhile_append, kept]
  split
  · next empty => rw [List.isEmpty_iff.mp empty, List.nil_append]
  · rfl

/-- Digits are no stars. -/
theorem star_not_digit (text : List Char) (all : ∀ c ∈ text, isDigit c) : '*' ∉ text :=
  fun member => absurd (all '*' member) (by decide)

/-- A conversion that is written in plain parts is read with its length and specifier, and
without a star. -/
theorem conversion_plain (mid text rest : List Char) (specifier : Char) (plain : Plain mid text)
    (other : isPart specifier = false) :
    ∃ found, conversion (mid ++ specifier :: rest) = some (found, rest) ∧
      found.specifier = specifier ∧ found.length = text ∧
      '*' ∉ found.width ∧ '*' ∉ found.precision := by
  obtain ⟨flags, width, before, rfl, flagged, wide, precise, known⟩ := plain
  have last := behind_precision text rest specifier known other
  have next := behind_width before _ precise last
  have started := flags_dropped flags width _ flagged fun c first => (next c first).1
  have digits : ∀ c ∈ width.dropWhile isFlag, isDigit c :=
    fun c member => wide c ((List.dropWhile_sublist isFlag).subset member)
  have point : '*' ∉ before := by
    obtain rfl | ⟨digits, rfl, all⟩ := precise
    · exact List.not_mem_nil
    · intro member
      obtain impossible | member := List.mem_cons.mp member
      · exact absurd impossible (by decide)
      · exact star_not_digit _ all member
  refine ⟨⟨(flags ++ width ++ before ++ text ++ specifier :: rest).takeWhile isFlag,
    width.dropWhile isFlag, before, text, specifier⟩, ?_, rfl, rfl, star_not_digit _ digits, point⟩
  unfold conversion
  simp only [List.append_assoc]
  rw [started, number_digits _ _ digits fun c first => (next c first).2]
  dsimp only
  rw [precision_read before _ precise last]
  dsimp only
  rw [length_read text rest specifier known other]

end ScicosFlex.Library.PrintfFormats
