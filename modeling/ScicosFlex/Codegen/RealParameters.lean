import ScicosFlex.Codegen.CFormat
import ScicosFlex.Library.CTokens
import ScicosFlex.Library.PrintedNumbers

/-!
# The declarations of the real parameters

For every block with real parameters `make_standalonert` of `FlexCodeGen_.sci` writes
`static double rpar_<i>[]={...};`: the values with `%.16g`, a comma behind each of them,
broken into lines of 128 characters, with the last comma replaced.

The break may come behind the plus sign of an exponent, and then the constant is cut in
two. The tokens of the declaration are the constants if and only if no line has room for
the plus sign of the first constant it has no room for (`tokens_iff`).
-/

namespace ScicosFlex.Codegen.RealParameters

open CFormat Library.CTokens Library.PrintedNumbers Library.Vectors

/-- `strcat(msprintf('%.16g,\n',p))`. -/
def values (constants : List (List Char)) : List Char := constants.flatMap fun c => c ++ [',']

/-- `'static double rpar_'+string(i)+'[]'`. -/
def name (i : Nat) : List Char := "static double rpar_".toList ++ Nat.toDigits 10 i ++ ['[', ']']

/-- `get_blank(str)`. -/
def getBlank (str : List Char) : List Char := List.replicate str.length ' '

/-- `txt($)=part(txt($),1:length(txt($))-1)+'};'`. -/
def closed : List (List Char) → List (List Char)
  | [] => []
  | [last] => [last.dropLast ++ ['}', ';']]
  | line :: rest => line :: closed rest

/-- What becomes of the lines `txt` of the values of block `i`. -/
def declared (i : Nat) (txt : List (List Char)) : List (List Char) :=
  let txt := match txt with
    | [] => []
    | first :: rest => (name i ++ ['=', '{'] ++ first) :: rest.map fun line => getBlank (name i) ++ line
  (closed txt).map fun line => [' ', ' '] ++ line

/-- The lines emitted for the real parameters of block `i`: what `cformatline` makes of
the printed values, between the head of the array and its end. -/
def Declaration (i : Nat) (rpar : List Double) (lines : List (List Char)) : Prop :=
  ∃ txt, CformatLine (values (rpar.map printG)) 128 txt ∧ lines = declared i txt

/-- The tokens of a printed constant: a minus sign is one of its own. -/
def constantTokens : List Char → List (List Char)
  | '-' :: number => [['-'], number]
  | number => [number]

/-- The tokens before the values. -/
def headTokens (i : Nat) : List (List Char) :=
  ["static".toList, "double".toList, "rpar_".toList ++ Nat.toDigits 10 i, ['['], [']'], ['='], ['{']]

/-- The tokens that a declaration of constants should have. -/
def declarationTokens (i : Nat) (constants : List (List Char)) : List (List Char) :=
  headTokens i ++ [[',']].intercalate (constants.map constantTokens) ++ [['}'], [';']]

/-- Lines of `l` characters are filled with constants, of which the first ones take up `used`
characters of the line: no line has room for the plus sign of the first constant it has no
room for. -/
def BreaksAtCommas (l : Nat) : Nat → List (List Char) → Prop
  | _, [] => True
  | used, c :: rest =>
    if used + c.length + 1 ≤ l then BreaksAtCommas l (used + c.length + 1) rest
    else '+' ∉ c.take (l - used) ∧ BreaksAtCommas l (c.length + 1) rest

instance decidableBreaksAtCommas (l : Nat) :
    (used : Nat) → (constants : List (List Char)) → Decidable (BreaksAtCommas l used constants)
  | _, [] => isTrue trivial
  | used, c :: rest =>
    have := decidableBreaksAtCommas l (used + c.length + 1) rest
    have := decidableBreaksAtCommas l (c.length + 1) rest
    inferInstanceAs (Decidable (if used + c.length + 1 ≤ l
      then BreaksAtCommas l (used + c.length + 1) rest
      else '+' ∉ c.take (l - used) ∧ BreaksAtCommas l (c.length + 1) rest))

section Tokens

/-- A digit is not blank. -/
theorem digit_visible (c : Char) (digit : c.isDigit = true) : isBlank c = false := by
  rw [isBlank, Bool.or_eq_false_iff, beq_eq_false_iff_ne, beq_eq_false_iff_ne]
  constructor <;> rintro rfl <;> exact absurd digit (by decide)

/-- A numeral is one token. -/
theorem tokens_numeral (text : List Char) (numeral : Numeral text) : tokens text = [text] := by
  obtain ⟨mantissa, exponent, rfl, ⟨first, rest, rfl, digit, plain⟩, tail⟩ := numeral
  have begins : Prolongs [first] rest := prolongs_number [first] rest ⟨first, [], rfl, digit⟩
    fun c member => (plain c member).imp (fun isDigit => by simp [isWord, isDigit]) id
  have ends : Prolongs (first :: rest) exponent := by
    rcases tail with rfl | ⟨sign, digits, rfl, signs, -, numeric⟩
    · trivial
    · exact prolongs_exponent _ ⟨first, rest, rfl, digit⟩ sign signs digits numeric
  exact tokens_whole first (rest ++ exponent) (digit_visible first digit)
    ((prolongs_append _ _ _).mpr ⟨begins, ends⟩)

/-- A numeral ends with a digit or a point. -/
theorem numeral_last (text : List Char) (numeral : Numeral text) : text.getLast? ≠ some '+' := by
  obtain ⟨mantissa, exponent, rfl, ⟨first, rest, rfl, digit, plain⟩, tail⟩ := numeral
  intro plus
  rcases tail with rfl | ⟨sign, digits, rfl, -, some, numeric⟩
  · rw [List.append_nil] at plus
    have member := List.mem_of_getLast? plus
    rcases List.mem_cons.mp member with rfl | later
    · exact absurd digit (by decide)
    · rcases plain '+' later with isDigit | point
      · exact absurd isDigit (by decide)
      · exact absurd point (by decide)
  · have front : first :: rest ++ 'e' :: sign :: digits =
        (first :: rest ++ ['e', sign]) ++ digits := by simp
    rw [front, List.getLast?_append_of_ne_nil _ some] at plus
    exact absurd (numeric '+' (List.mem_of_getLast? plus)) (by decide)

/-- The characters of a numeral. -/
theorem numeral_chars (text : List Char) (numeral : Numeral text) :
    ∀ c ∈ text, c.isDigit = true ∨ c ∈ ['.', 'e', '+', '-'] := by
  obtain ⟨mantissa, exponent, rfl, ⟨first, rest, rfl, digit, plain⟩, tail⟩ := numeral
  intro c member
  rcases List.mem_append.mp member with early | late
  · rcases List.mem_cons.mp early with rfl | later
    · exact Or.inl digit
    · exact (plain c later).imp id fun point => by simp [point]
  · rcases tail with rfl | ⟨sign, digits, rfl, signs, -, numeric⟩
    · exact absurd late List.not_mem_nil
    · rcases List.mem_cons.mp late with rfl | behind
      · exact Or.inr (by decide)
      · rcases List.mem_cons.mp behind with rfl | last
        · rcases signs with rfl | rfl <;> exact Or.inr (by decide)
        · exact Or.inl (numeric c last)

/-- A printed constant is a numeral, perhaps behind a minus sign. -/
theorem constantTokens_shape (x : Double) :
    ∃ body, Numeral body ∧ body.length ≤ 22 ∧
      (printG x = body ∧ constantTokens (printG x) = [body] ∨
        printG x = '-' :: body ∧ constantTokens (printG x) = [['-'], body]) := by
  obtain ⟨sign, body, text, signs, numeral, length⟩ := printG_shape x
  refine ⟨body, numeral, length, ?_⟩
  rcases signs with rfl | rfl
  · obtain ⟨mantissa, exponent, rfl, ⟨first, rest, rfl, digit, -⟩, -⟩ := numeral
    have noMinus : first ≠ '-' := by
      rintro rfl
      exact absurd digit (by decide)
    refine Or.inl ⟨text, ?_⟩
    rw [text, List.nil_append, constantTokens]
    intro other same
    exact noMinus (List.cons.inj same).1
  · exact Or.inr ⟨text, by rw [text]; rfl⟩

/-- The tokens of a printed constant. -/
theorem tokens_constant (x : Double) : tokens (printG x) = constantTokens (printG x) := by
  obtain ⟨body, numeral, -, ⟨text, shape⟩ | ⟨text, shape⟩⟩ := constantTokens_shape x
  · rw [shape, text, tokens_numeral body numeral]
  · have number := tokens_numeral body numeral
    obtain ⟨mantissa, exponent, rfl, ⟨first, rest, rfl, digit, -⟩, -⟩ := numeral
    have stop : continues ['-'] first = false := by
      have apart : ∀ c, c.isDigit = false → first ≠ c := by
        rintro c other rfl
        rw [digit] at other
        cases other
      have long : ['-', first] ∉ longPunctuators := by
        simp [longPunctuators, apart '>' (by decide), apart '-' (by decide), apart '=' (by decide)]
      rw [continues, List.contains_eq_mem]
      simpa [isNondigit] using long
    calc tokens (printG x)
      _ = munch ['-'] (first :: (rest ++ exponent)) := by rw [text]; rfl
      _ = [['-']] ++ tokens (first :: rest ++ exponent) := munch_stop _ _ _ stop
      _ = constantTokens (printG x) := by rw [number, shape]; rfl

/-- No token of a constant ends with a plus sign. -/
theorem constant_last (x : Double) :
    ∀ token ∈ constantTokens (printG x), token.getLast? ≠ some '+' := by
  obtain ⟨body, numeral, -, ⟨-, shape⟩ | ⟨-, shape⟩⟩ := constantTokens_shape x
  · rw [shape]
    exact List.forall_mem_singleton.mpr (numeral_last body numeral)
  · rw [shape]
    exact List.forall_mem_cons.mpr
      ⟨by decide, List.forall_mem_singleton.mpr (numeral_last body numeral)⟩

/-- What a printed constant has no place for. -/
theorem constant_plain (x : Double) :
    ',' ∉ printG x ∧ ' ' ∉ printG x ∧ (printG x).length + 1 ≤ 128 := by
  obtain ⟨body, numeral, length, shape⟩ := constantTokens_shape x
  have chars := numeral_chars body numeral
  have noComma : ',' ∉ body := fun member => absurd (chars ',' member) (by decide)
  have noBlank : ' ' ∉ body := fun member => absurd (chars ' ' member) (by decide)
  obtain ⟨text, -⟩ | ⟨text, -⟩ := shape
  · rw [text]
    exact ⟨noComma, noBlank, by omega⟩
  · rw [text]
    exact ⟨by simp [noComma], by simp [noBlank], by rw [List.length_cons]; omega⟩

end Tokens

section Breaks

variable (l : Nat) (before rest : List (List Char)) (value : List Char)

/-- Constants one behind the other. -/
theorem values_append : values (before ++ rest) = values before ++ values rest := by
  simp [values]

/-- A constant before the others. -/
theorem values_cons : values (value :: rest) = value ++ ',' :: values rest := by
  simp [values]

/-- A character of a line that ends within a constant. -/
theorem entry_within (column : Nat) (inside : column < value.length) :
    entry (values (before ++ value :: rest)) ((values before).length + column + 1) =
      value[column]? := by
  rw [entry, if_neg (Nat.succ_ne_zero _), Nat.add_sub_cancel, values_append, values_cons,
    List.getElem?_append_right (Nat.le_add_right _ _), Nat.add_sub_cancel_left,
    List.getElem?_append_left inside]

/-- One constant. -/
theorem values_one : (values [value]).length = value.length + 1 := by
  simp [values]

/-- Constants end with a comma. -/
theorem values_last (nonempty : before ≠ []) : (values before).getLast? = some ',' := by
  obtain ⟨front, last, rfl⟩ := (List.eq_nil_or_concat before).resolve_left nonempty
  simp [values]

/-- Some constants are some text. -/
theorem values_nonempty (nonempty : before ≠ []) : values before ≠ [] := by
  intro empty
  have last := values_last before nonempty
  rw [empty] at last
  cases last

/-- The comma before a constant. -/
theorem comma_before (nonempty : before ≠ []) :
    entry (values (before ++ rest)) (values before).length = some ',' := by
  have some := List.length_pos_iff.mpr (values_nonempty before nonempty)
  have last := values_last before nonempty
  rw [List.getLast?_eq_getElem?] at last
  rw [entry, if_neg some.ne', values_append, List.getElem?_append_left (by omega), last]

/-- A line that has no room for a constant has no room for the rest. -/
theorem values_long (tight : l < (values before).length + value.length + 1) :
    ¬ (values (before ++ value :: rest)).length ≤ l := by
  rw [values_append, values_cons, List.length_append, List.length_append, List.length_cons]
  omega

/-- A constant fits in an empty line. -/
theorem before_nonempty (room : ¬ (values before).length + value.length + 1 ≤ l)
    (short : value.length + 1 ≤ l) : before ≠ [] := by
  rintro rfl
  exact room (by simpa [values] using short)

section Full

variable (nonempty : before ≠ []) (fits : (values before).length ≤ l)
  (tight : l < (values before).length + value.length + 1) (noComma : ',' ∉ value)
include nonempty fits tight noComma

/-- Where a line is broken that has no room for a constant: behind the comma before it, or in
the part of it that the line has room for. -/
theorem break_near :
    ∃ k, breakAt l (values (before ++ value :: rest)) = some k ∧ (values before).length ≤ k ∧
      (k = (values before).length ∨ ∃ column, k = (values before).length + column + 1 ∧
        column < l - (values before).length ∧ value[column]? = some '+') ∧
      ∀ column, column < l - (values before).length → value[column]? = some '+' →
        (values before).length + column + 1 ≤ k := by
  have long := Nat.lt_of_not_le (values_long l before rest value tight)
  have comma : (values before).length ∈ strindex (values (before ++ value :: rest)) sep :=
    (mem_positions _ _ _).mpr ⟨',', comma_before before (value :: rest) nonempty, by decide⟩
  obtain ⟨k, found, listed, room, greatest⟩ := breakAt_last l _ long _ comma fits
  have behind := greatest _ comma fits
  refine ⟨k, found, behind, ?_, fun column small plus => ?_⟩
  · by_cases same : k = (values before).length
    · exact Or.inl same
    · obtain ⟨column, rfl⟩ : ∃ column, k = (values before).length + column + 1 :=
        ⟨k - (values before).length - 1, by omega⟩
      obtain ⟨char, known, separator⟩ := (mem_positions _ _ _).mp listed
      rw [entry_within before rest value column (by omega)] at known
      refine Or.inr ⟨column, rfl, by omega, ?_⟩
      have either : char = ',' ∨ char = '+' := by simpa [sep] using separator
      rcases either with rfl | rfl
      · exact absurd (List.mem_of_getElem? known) noComma
      · exact known
  · have inside : column < value.length := (List.getElem?_eq_some_iff.mp plus).1
    refine greatest _ ((mem_positions _ _ _).mpr ⟨'+', ?_, by decide⟩) (by omega)
    rw [entry_within before rest value column inside, plus]

/-- The line is broken in the constant if it has room for the plus sign. -/
theorem pieces_cut (plus : '+' ∈ value.take (l - (values before).length)) :
    ∃ piece more, pieces l (values (before ++ value :: rest)) = piece :: more ∧ more ≠ [] ∧
      piece.getLast? = some '+' := by
  obtain ⟨k, found, -, kind, greatest⟩ := break_near l before rest value nonempty fits tight noComma
  obtain ⟨column, known⟩ := List.mem_iff_getElem?.mp plus
  have small : column < l - (values before).length ∧ value[column]? = some '+' := by
    rw [List.getElem?_take] at known
    split at known
    · next small => exact ⟨small, known⟩
    · cases known
  have late := greatest column small.1 small.2
  refine ⟨_, _, pieces_break l _ k (values_long l before rest value tight) found,
    pieces_nonempty l _, ?_⟩
  obtain rfl | ⟨other, rfl, -, sign⟩ := kind
  · omega
  · have inside : other < value.length := (List.getElem?_eq_some_iff.mp sign).1
    exact take_last _ _ '+' ((entry_within before rest value other inside).trans sign)

/-- Otherwise it is broken before the constant. -/
theorem pieces_before (noPlus : '+' ∉ value.take (l - (values before).length)) :
    pieces l (values (before ++ value :: rest)) =
      values before :: pieces l (values (value :: rest)) := by
  obtain ⟨k, found, -, kind, -⟩ := break_near l before rest value nonempty fits tight noComma
  obtain rfl : k = (values before).length := by
    obtain same | ⟨column, -, small, sign⟩ := kind
    · exact same
    · refine absurd (List.mem_iff_getElem?.mpr ⟨column, ?_⟩) noPlus
      rw [List.getElem?_take_of_lt small]
      exact sign
  rw [pieces_break l _ _ (values_long l before rest value tight) found, values_append,
    List.take_left, List.drop_left]

end Full

/-- The length of a line with one more constant. -/
theorem values_length :
    (values (before ++ [value])).length = (values before).length + value.length + 1 := by
  rw [values_append, values_cons, List.length_append, List.length_append]
  rfl

/-- All breaks are behind commas if and only if the constants fill the lines that way. -/
theorem pieces_commas (fits : (values before).length ≤ l)
    (constants : ∀ value ∈ rest, ',' ∉ value ∧ value.length + 1 ≤ l) :
    (∀ piece ∈ (pieces l (values (before ++ rest))).dropLast, piece.getLast? = some ',') ↔
      BreaksAtCommas l (values before).length rest := by
  induction rest generalizing before with
  | nil =>
    rw [List.append_nil, pieces_fits l _ fits]
    simp [BreaksAtCommas]
  | cons value rest inductionHypothesis =>
    obtain ⟨⟨noComma, short⟩, others⟩ := List.forall_mem_cons.mp constants
    rw [BreaksAtCommas]
    by_cases room : (values before).length + value.length + 1 ≤ l
    · rw [if_pos room, ← values_length, List.append_cons]
      exact inductionHypothesis (before ++ [value]) (values_length before value ▸ room) others
    · have nonempty := before_nonempty l before value room short
      rw [if_neg room]
      by_cases plus : '+' ∈ value.take (l - (values before).length)
      · obtain ⟨piece, more, cut, some, last⟩ :=
          pieces_cut l before rest value nonempty fits (by omega) noComma plus
        rw [cut, List.dropLast_cons_of_ne_nil some, List.forall_mem_cons, last]
        exact ⟨fun both => absurd both.1 (by decide), fun both => absurd plus both.1⟩
      · have remaining := inductionHypothesis [value] (by rw [values_one]; exact short) others
        rw [values_one] at remaining
        have last := values_last before nonempty
        rw [pieces_before l before rest value nonempty fits (by omega) noComma plus,
          List.dropLast_cons_of_ne_nil (pieces_nonempty l _), List.forall_mem_cons, last]
        exact ⟨fun both => ⟨plus, remaining.mp both.2⟩, fun both => ⟨rfl, remaining.mpr both.2⟩⟩

/-- No piece is empty then: each has a constant at least, with its comma if there are more. -/
theorem pieces_some (fits : (values before).length ≤ l) (some : before ++ rest ≠ [])
    (constants : ∀ value ∈ rest, ',' ∉ value ∧ value.length + 1 ≤ l)
    (commas : BreaksAtCommas l (values before).length rest) :
    ∀ piece ∈ pieces l (values (before ++ rest)), piece ≠ [] := by
  induction rest generalizing before with
  | nil =>
    rw [List.append_nil] at some ⊢
    rw [pieces_fits l _ fits]
    intro piece member
    rw [List.mem_singleton.mp member]
    exact values_nonempty before some
  | cons value rest inductionHypothesis =>
    obtain ⟨⟨noComma, short⟩, others⟩ := List.forall_mem_cons.mp constants
    rw [BreaksAtCommas] at commas
    by_cases room : (values before).length + value.length + 1 ≤ l
    · rw [if_pos room, ← values_length] at commas
      rw [List.append_cons] at some ⊢
      exact inductionHypothesis (before ++ [value]) (values_length before value ▸ room) some others
        commas
    · have nonempty := before_nonempty l before value room short
      rw [if_neg room, ← values_one] at commas
      rw [pieces_before l before rest value nonempty fits (by omega) noComma commas.1]
      exact List.forall_mem_cons.mpr ⟨values_nonempty before nonempty,
        inductionHypothesis [value] (by rw [values_one]; exact short) (List.cons_ne_nil _ _) others
          commas.2⟩

end Breaks

section Lines

/-- A line is a piece with blanks before it. -/
def Lead (line piece : List Char) : Prop := ∃ count, line = List.replicate count ' ' ++ piece

/-- Indentation is blank. -/
theorem indented_lead (count : Nat) (first : Bool) (ps : List (List Char)) :
    List.Forall₂ Lead (indented (List.replicate count ' ') first ps) ps := by
  induction ps generalizing count first with
  | nil => exact List.Forall₂.nil
  | cons piece rest inductionHypothesis =>
    rw [indented]
    refine List.Forall₂.cons ⟨count, rfl⟩ ?_
    cases first with
    | false => exact inductionHypothesis count false
    | true =>
      have more := inductionHypothesis (count + 2) false
      rwa [List.replicate_add] at more

/-- More blanks before the lines. -/
theorem map_lead (count : Nat) (lines ps : List (List Char)) (leads : List.Forall₂ Lead lines ps) :
    List.Forall₂ Lead (lines.map fun line => List.replicate count ' ' ++ line) ps := by
  induction leads with
  | nil => exact List.Forall₂.nil
  | cons lead _ inductionHypothesis =>
    obtain ⟨more, rfl⟩ := lead
    exact List.Forall₂.cons ⟨count + more, by rw [List.replicate_add, List.append_assoc]⟩
      inductionHypothesis

/-- Closing the last line closes the last piece. -/
theorem closed_lead (lines ps : List (List Char)) (leads : List.Forall₂ Lead lines ps) :
    List.Forall₂ Lead (closed lines) (closed ps) := by
  induction leads with
  | nil => exact List.Forall₂.nil
  | @cons line piece lines ps lead others inductionHypothesis =>
    cases others with
    | nil =>
      obtain ⟨count, rfl⟩ := lead
      refine List.Forall₂.cons ?_ List.Forall₂.nil
      cases piece with
      | nil => exact ⟨count - 1, by simp⟩
      | cons c piece =>
        refine ⟨count, ?_⟩
        rw [List.dropLast_append_of_ne_nil (List.cons_ne_nil _ _), List.append_assoc]
    | cons next others => exact List.Forall₂.cons lead inductionHypothesis

/-- Blanks before the lines do not matter. -/
theorem tokens_lead (lines ps : List (List Char)) (leads : List.Forall₂ Lead lines ps) :
    tokensOfLines lines = tokensOfLines ps := by
  induction leads with
  | nil => rfl
  | cons lead _ inductionHypothesis =>
    obtain ⟨count, rfl⟩ := lead
    rw [tokensOfLines, List.flatMap_cons, tokens_indented]
    exact congrArg _ inductionHypothesis

/-- The characters of the words before the values. -/
theorem words_chars : "static double rpar_".toList =
    ['s', 't', 'a', 't', 'i', 'c', ' ', 'd', 'o', 'u', 'b', 'l', 'e', ' ', 'r', 'p', 'a', 'r', '_'] ∧
    "static".toList = ['s', 't', 'a', 't', 'i', 'c'] ∧
    "double".toList = ['d', 'o', 'u', 'b', 'l', 'e'] ∧
    "rpar_".toList = ['r', 'p', 'a', 'r', '_'] := by decide

/-- The begin of a declaration has its tokens for itself, as a brace joins no other token. -/
theorem tokens_name (i : Nat) (text : List Char) :
    tokens ([' ', ' '] ++ (name i ++ ['=', '{'] ++ text)) = headTokens i ++ tokens text := by
  have words : ∀ c ∈ ['p', 'a', 'r', '_'] ++ Nat.toDigits 10 i, isWord c = true := by
    intro c member
    rcases List.mem_append.mp member with letter | digit
    · have all : ['p', 'a', 'r', '_'].all isWord = true := rfl
      exact List.all_eq_true.mp all c letter
    · simp [isWord, Nat.isDigit_of_mem_toDigits (by decide) (by decide) digit]
  obtain ⟨line, first, second, third⟩ := words_chars
  have split : [' ', ' '] ++ (name i ++ ['=', '{'] ++ text) =
      ' ' :: ' ' :: ('s' :: ['t', 'a', 't', 'i', 'c'] ++ ' ' :: ('d' :: ['o', 'u', 'b', 'l', 'e'] ++
        ' ' :: ('r' :: (['p', 'a', 'r', '_'] ++ Nat.toDigits 10 i) ++
          '[' :: ([']', '='] ++ '{' :: text)))) := by
    unfold name
    generalize Nat.toDigits 10 i = digits
    simp only [line, List.append_assoc]
    rfl
  have close : tokens ('[' :: ([']', '='] ++ '{' :: text)) =
      [['['], [']'], ['='], ['{']] ++ tokens text :=
    calc tokens ('[' :: ([']', '='] ++ '{' :: text))
      _ = [] ++ ['['] :: tokens ([']', '='] ++ '{' :: text) :=
        tokens_alone '[' (alone_of_plain '[' (by decide)) [] _
      _ = [] ++ ['['] :: (tokens [']', '='] ++ ['{'] :: tokens text) := by
        rw [tokens_alone '{' (alone_of_plain '{' (by decide))]
      _ = [['['], [']'], ['='], ['{']] ++ tokens text := rfl
  have static : ['t', 'a', 't', 'i', 'c'].all isWord = true := rfl
  have double : ['o', 'u', 'b', 'l', 'e'].all isWord = true := rfl
  rw [split, tokens_blank, tokens_blank,
    tokens_identifier 's' _ ' ' _ (by decide) (by decide) (List.all_eq_true.mp static) (by decide),
    tokens_blank,
    tokens_identifier 'd' _ ' ' _ (by decide) (by decide) (List.all_eq_true.mp double) (by decide),
    tokens_blank,
    tokens_identifier 'r' _ '[' _ (by decide) (by decide) words (by decide), close]
  simp only [headTokens, first, second, third, List.cons_append, List.nil_append]

/-- The tokens of a declaration are those of its begin and of the pieces. -/
theorem tokens_declared (i : Nat) (piece : List Char) (rest : List (List Char)) (some : piece ≠ []) :
    tokensOfLines (declared i (indented [] true (piece :: rest))) =
      headTokens i ++ tokensOfLines (closed (piece :: rest)) := by
  cases rest with
  | nil =>
    have whole : closed [name i ++ ['=', '{'] ++ piece] =
        [name i ++ ['=', '{'] ++ (piece.dropLast ++ ['}', ';'])] := by
      rw [closed, List.dropLast_append_of_ne_nil some, List.append_assoc]
    have line : declared i (indented [] true [piece]) =
        [[' ', ' '] ++ (name i ++ ['=', '{'] ++ (piece.dropLast ++ ['}', ';']))] :=
      congrArg (List.map fun line => [' ', ' '] ++ line) whole
    rw [line, tokensOfLines, List.flatMap_singleton, tokens_name]
    simp [tokensOfLines, closed]
  | cons next rest =>
    have leads : List.Forall₂ Lead
        ((closed ((indented [' ', ' '] false (next :: rest)).map
          fun line => getBlank (name i) ++ line)).map fun line => [' ', ' '] ++ line)
        (closed (next :: rest)) :=
      map_lead 2 _ _ (closed_lead _ _ (map_lead _ _ _ (indented_lead 2 false (next :: rest))))
    have lines : declared i (indented [] true (piece :: next :: rest)) =
        ([' ', ' '] ++ (name i ++ ['=', '{'] ++ piece)) ::
          (closed ((indented [' ', ' '] false (next :: rest)).map
            fun line => getBlank (name i) ++ line)).map fun line => [' ', ' '] ++ line := rfl
    rw [lines, tokensOfLines, List.flatMap_cons, tokens_name, List.append_assoc]
    exact congrArg _ (congrArg _ (tokens_lead _ _ leads))

/-- Pieces that end with commas have the tokens of the whole text. -/
theorem tokens_closed (ps : List (List Char)) (nonempty : ps ≠ []) (some : ∀ piece ∈ ps, piece ≠ [])
    (commas : ∀ piece ∈ ps.dropLast, piece.getLast? = Option.some ',') :
    tokensOfLines (closed ps) = tokens (ps.flatten.dropLast ++ ['}', ';']) := by
  induction ps with
  | nil => exact absurd rfl nonempty
  | cons piece rest inductionHypothesis =>
    obtain ⟨first, others⟩ := List.forall_mem_cons.mp some
    cases rest with
    | nil => simp [tokensOfLines, closed]
    | cons next rest =>
      rw [List.dropLast_cons_of_ne_nil (List.cons_ne_nil _ _)] at commas
      obtain ⟨last, later⟩ := List.forall_mem_cons.mp commas
      have more : (next :: rest).flatten ≠ [] := by
        rw [List.flatten_cons]
        exact List.append_ne_nil_of_left_ne_nil (others next List.mem_cons_self) _
      rw [closed, tokensOfLines, List.flatMap_cons, List.flatten_cons,
        List.dropLast_append_of_ne_nil more, List.append_assoc, tokens_break ',' alone_comma _ _ last,
        ← inductionHypothesis (List.cons_ne_nil _ _) others later]
      · rfl
      · exact fun impossible => absurd impossible (List.cons_ne_nil _ _)

/-- A piece that is not the last one stays. -/
theorem mem_closed (ps : List (List Char)) (piece : List Char) (member : piece ∈ ps.dropLast) :
    piece ∈ closed ps := by
  induction ps with
  | nil => exact absurd member List.not_mem_nil
  | cons first rest inductionHypothesis =>
    cases rest with
    | nil => exact absurd member List.not_mem_nil
    | cons next rest =>
      rw [List.dropLast_cons_of_ne_nil (List.cons_ne_nil _ _)] at member
      rcases List.mem_cons.mp member with rfl | later
      · exact List.mem_cons_self
      · exact List.mem_cons_of_mem _ (inductionHypothesis later)

end Lines

section Values

variable (i : Nat) (rpar : List Double) (nonempty : rpar ≠ [])

/-- What stands behind the values of a declaration. -/
theorem tokens_values (nonempty : rpar ≠ []) :
    tokens ((values (rpar.map printG)).dropLast ++ ['}', ';']) =
      [[',']].intercalate ((rpar.map printG).map constantTokens) ++ [['}'], [';']] := by
  induction rpar with
  | nil => exact absurd rfl nonempty
  | cons x rest inductionHypothesis =>
    cases rest with
    | nil =>
      calc tokens ((values [printG x]).dropLast ++ ['}', ';'])
        _ = tokens (printG x ++ '}' :: [';']) := by simp [values]
        _ = tokens (printG x) ++ ['}'] :: tokens [';'] :=
          tokens_alone '}' (alone_of_plain '}' (by decide)) _ _
        _ = constantTokens (printG x) ++ [['}'], [';']] := by rw [tokens_constant]; rfl
        _ = _ := by simp
    | cons next rest =>
      have later := inductionHypothesis (List.cons_ne_nil _ _)
      have more : values ((next :: rest).map printG) ≠ [] :=
        values_nonempty _ (by simp)
      rw [List.map_cons, values_cons, List.dropLast_append_of_ne_nil (List.cons_ne_nil _ _),
        List.dropLast_cons_of_ne_nil more, List.append_assoc, List.cons_append,
        tokens_alone ',' alone_comma, tokens_constant, later]
      simp

/-- No token that the declaration should have ends with a plus sign, since no printed
number does. This is what tells a cut constant from a whole one. -/
theorem declarationTokens_last :
    ∀ token ∈ declarationTokens i (rpar.map printG), token.getLast? ≠ some '+' := by
  have name : ∀ token ∈ headTokens i, token.getLast? ≠ some '+' := by
    have digits : ("rpar_".toList ++ Nat.toDigits 10 i).getLast? ≠ some '+' := by
      rw [List.getLast?_append_of_ne_nil _ Nat.toDigits_ne_nil]
      intro plus
      have digit := Nat.isDigit_of_mem_toDigits (by decide) (by decide) (List.mem_of_getLast? plus)
      exact absurd digit (by decide)
    simp only [headTokens, List.forall_mem_cons]
    exact ⟨by decide, by decide, digits, by decide, by decide, by decide, by decide,
      fun _ none => absurd none List.not_mem_nil⟩
  have middle : ∀ token ∈ [[',']].intercalate ((rpar.map printG).map constantTokens),
      token.getLast? ≠ some '+' := by
    induction rpar with
    | nil => exact fun token none => absurd none List.not_mem_nil
    | cons x rest inductionHypothesis =>
      cases rest with
      | nil => simpa using constant_last x
      | cons next rest =>
        intro token member
        simp only [List.map_cons, List.intercalate_cons_cons] at member inductionHypothesis
        rcases List.mem_append.mp member with early | later
        · rcases List.mem_append.mp early with own | comma
          · exact constant_last x token own
          · rw [List.mem_singleton.mp comma]
            decide
        · exact inductionHypothesis token later
  intro token member
  rcases List.mem_append.mp member with early | close
  · rcases List.mem_append.mp early with first | value
    · exact name token first
    · exact middle token value
  · exact (by decide : ∀ token ∈ [['}'], [';']], token.getLast? ≠ some '+') token close

/-- The lines of a declaration. -/
theorem declaration_lines (lines : List (List Char)) :
    Declaration i rpar lines ↔
      lines = declared i (indented [] true (pieces 128 (values (rpar.map printG)))) := by
  have visible : ' ' ∉ values (rpar.map printG) := by
    simp only [values, List.mem_flatMap, List.mem_map, not_exists, not_and]
    rintro c ⟨x, -, rfl⟩ member
    rcases List.mem_append.mp member with inside | comma
    · exact (constant_plain x).2.1 inside
    · exact absurd comma (by decide)
  rw [Declaration]
  constructor
  · rintro ⟨txt, made, rfl⟩
    rw [(cformatline_pieces 128 _ visible txt).mp made]
  · rintro rfl
    exact ⟨_, (cformatline_pieces 128 _ visible _).mpr rfl, rfl⟩

section Cases

variable (nonempty : rpar ≠ [])
include nonempty

/-- The tokens of the lines, with the pieces behind the begin of the declaration. -/
theorem tokens_pieces :
    tokensOfLines (declared i (indented [] true (pieces 128 (values (rpar.map printG))))) =
      headTokens i ++ tokensOfLines (closed (pieces 128 (values (rpar.map printG)))) := by
  obtain ⟨piece, rest, broken, some⟩ :=
    pieces_first 128 _ (values_nonempty (rpar.map printG) (by simpa using nonempty))
  rw [broken]
  exact tokens_declared i piece rest some

/-- Lines filled that way have the tokens of the constants. A line break between two
tokens is white space, and the breaks are behind commas then. -/
theorem tokens_of_commas (commas : BreaksAtCommas 128 0 (rpar.map printG)) :
    tokensOfLines (declared i (indented [] true (pieces 128 (values (rpar.map printG))))) =
      declarationTokens i (rpar.map printG) := by
  have constants : ∀ c ∈ rpar.map printG, ',' ∉ c ∧ c.length + 1 ≤ 128 := by
    intro c member
    obtain ⟨x, -, rfl⟩ := List.mem_map.mp member
    exact ⟨(constant_plain x).1, (constant_plain x).2.2⟩
  have filled := pieces_some 128 [] (rpar.map printG) (by simp [values]) (by simpa using nonempty)
    constants commas
  have ends := (pieces_commas 128 [] (rpar.map printG) (by simp [values]) constants).mpr commas
  rw [List.nil_append] at filled ends
  rw [tokens_pieces i rpar nonempty, tokens_closed _ (pieces_nonempty 128 _) filled ends,
    pieces_flatten, tokens_values rpar nonempty, ← List.append_assoc]
  rfl

/-- A break behind a plus sign gives a token that no declaration should have: one that
is neither a constant nor a token of the frame, since a plus is the last character of a
line only there. -/
theorem tokens_of_cut (cut : ¬ BreaksAtCommas 128 0 (rpar.map printG)) :
    tokensOfLines (declared i (indented [] true (pieces 128 (values (rpar.map printG))))) ≠
      declarationTokens i (rpar.map printG) := by
  have constants : ∀ c ∈ rpar.map printG, ',' ∉ c ∧ c.length + 1 ≤ 128 := by
    intro c member
    obtain ⟨x, -, rfl⟩ := List.mem_map.mp member
    exact ⟨(constant_plain x).1, (constant_plain x).2.2⟩
  have ends := mt (pieces_commas 128 [] (rpar.map printG) (by simp [values]) constants).mp cut
  obtain ⟨piece, broken⟩ := not_forall.mp ends
  obtain ⟨member, noComma⟩ := Classical.not_imp.mp broken
  obtain ⟨c, separator, last⟩ := pieces_ends 128 _ piece member
  have plus : piece.getLast? = some '+' := by
    have either : c = ',' ∨ c = '+' := by simpa [sep] using separator
    rcases either with rfl | rfl
    · exact absurd last noComma
    · exact last
  obtain ⟨token, listed, tokenPlus⟩ := tokens_last '+' (by decide) piece plus
  intro same
  rw [tokens_pieces i rpar nonempty] at same
  have inside : token ∈ declarationTokens i (rpar.map printG) := by
    rw [← same]
    exact List.mem_append_right _ (List.mem_flatMap.mpr ⟨piece, mem_closed _ piece member, listed⟩)
  exact declarationTokens_last i rpar token inside tokenPlus

end Cases

end Values

/-- The declaration of a block's real parameters has the tokens of the printed constants
if and only if no line has room for the plus sign of the first constant it has no room
for. The plus of an exponent is one of the separators of `cformatline`, which then cuts
the constant in two; a comma further back is no help, since the last separator that fits
is taken. Constants are followed line by line, with the characters used so far as the
measure of what still fits. -/
theorem tokens_iff (i : Nat) (rpar : List Double) (nonempty : rpar ≠ []) :
    ∃ lines, (∀ other, Declaration i rpar other ↔ other = lines) ∧
      (tokensOfLines lines = declarationTokens i (rpar.map printG) ↔
        BreaksAtCommas 128 0 (rpar.map printG)) := by
  refine ⟨_, declaration_lines i rpar, ?_, tokens_of_commas i rpar nonempty⟩
  intro same
  by_contra cut
  exact tokens_of_cut i rpar nonempty cut same

/-- 10 and 10^20. -/
def ten : Double := ⟨false, 5, 1, by decide, by decide, by decide⟩
def hugeNumber : Double := ⟨false, 95367431640625, 20, by decide, by decide, by decide⟩

example : printG hugeNumber = ['1', 'e', '+', '2', '0'] := by decide +kernel

/-- The double nearest to -0.1, printed as `-0.1`. -/
def minusTenth : Double := ⟨true, 3602879701896397, -55, by decide, by decide, by decide⟩

/-- Twenty times `10,`, twenty-five times `1e+20,` and thirty times `-0.1,`. -/
def mixedValues : List Double :=
  List.replicate 20 ten ++ List.replicate 25 hugeNumber ++ List.replicate 30 minusTenth

/-- The text of these values is broken twice: behind the eleventh `1e+20,`, with room for
`1e` of the next one, and behind the eighth `-0.1,`. -/
theorem mixedValues_pieces : (pieces 128 (values (mixedValues.map printG))).length = 3 := by
  rw [pieces_break 128 _ 126 (by decide +kernel) (by decide +kernel),
    pieces_break 128 _ 124 (by decide +kernel) (by decide +kernel),
    pieces_fits 128 _ (by decide +kernel)]
  rfl

/-- The three lines of these values have the tokens of the constants. -/
theorem mixedValues_kept :
    ∃ lines, (∀ other, Declaration 1 mixedValues other ↔ other = lines) ∧ lines.length = 3 ∧
      tokensOfLines lines = declarationTokens 1 (mixedValues.map printG) := by
  have nonempty : mixedValues ≠ [] := by decide +kernel
  obtain ⟨lines, unique, kept⟩ := tokens_iff 1 mixedValues nonempty
  have same := (unique _).mp ((declaration_lines 1 mixedValues _).mpr rfl)
  refine ⟨lines, unique, ?_, kept.mpr (by decide +kernel)⟩
  obtain ⟨first, second, third, three⟩ := List.length_eq_three.mp mixedValues_pieces
  rw [← same, three]
  rfl

/-- Behind `10,` and twenty times `1e+20,` the line has room for `1e+`. -/
theorem exponent_cut :
    ∃ lines, Declaration 1 (ten :: List.replicate 21 hugeNumber) lines ∧
      tokensOfLines lines ≠
        declarationTokens 1 ((ten :: List.replicate 21 hugeNumber).map printG) :=
  ⟨_, (declaration_lines 1 _ _).mpr rfl,
    tokens_of_cut 1 _ (List.cons_ne_nil _ _) (by decide +kernel)⟩

end ScicosFlex.Codegen.RealParameters
