import Mathlib.Data.List.Basic

/-!
# Tokens of C

The splitting of a line of C into identifiers, preprocessing numbers and punctuators,
always with the longest possible next token. A preprocessing number may have a sign
behind the letter of an exponent. Comments, string and character constants, the
punctuator `...` and digraphs are left out. The end of a line ends a token.

Some characters are tokens alone, whatever stands beside them; a text is split at such a
character in two texts that are read independently (`tokens_alone`).
-/

namespace ScicosFlex.Library.CTokens

/-- A letter or an underscore. -/
def isNondigit (c : Char) : Bool := c.isAlpha || c == '_'

/-- A character of identifiers. -/
def isWord (c : Char) : Bool := isNondigit c || c.isDigit

/-- White space within a line. -/
def isBlank (c : Char) : Bool := c == ' ' || c == '\t'

/-- The punctuators of more than one character. -/
def longPunctuators : List (List Char) :=
  [['-', '>'], ['+', '+'], ['-', '-'], ['<', '<'], ['>', '>'], ['<', '='], ['>', '='], ['=', '='],
    ['!', '='], ['&', '&'], ['|', '|'], ['*', '='], ['/', '='], ['%', '='], ['+', '='],
    ['-', '='], ['&', '='], ['^', '='], ['|', '='], ['#', '#'], ['<', '<', '='], ['>', '>', '=']]

/-- A character that makes a token longer. -/
def continues (token : List Char) (c : Char) : Bool :=
  match token with
  | [] => false
  | first :: rest =>
    if isNondigit first then isWord c
    else if first.isDigit || (first == '.' && !rest.isEmpty) then
      isWord c || c == '.' ||
        ((c == '+' || c == '-') && (first :: rest).getLast?.any fun l => l ∈ ['e', 'E', 'p', 'P'])
    else if first == '.' then c.isDigit
    else longPunctuators.contains (token ++ [c])

/-- A token, if one has begun. -/
def emit (token : List Char) : List (List Char) := if token = [] then [] else [token]

/-- The tokens of a text behind the begin of a token. -/
def munch : List Char → List Char → List (List Char)
  | token, [] => emit token
  | token, c :: rest =>
    if continues token c then munch (token ++ [c]) rest
    else emit token ++ munch (if isBlank c then [] else [c]) rest

/-- The tokens of a line. -/
def tokens (line : List Char) : List (List Char) := munch [] line

/-- The tokens of a text of several lines. -/
def tokensOfLines (lines : List (List Char)) : List (List Char) := lines.flatMap tokens

/-- The text makes the token longer, character by character. -/
def Prolongs : List Char → List Char → Prop
  | _, [] => True
  | token, c :: rest => continues token c = true ∧ Prolongs (token ++ [c]) rest

/-- The character is a token alone. -/
def Alone (c : Char) : Prop :=
  isBlank c = false ∧ (∀ token, continues token c = false) ∧ ∀ next, continues [c] next = false

/-- A digit is no letter. -/
theorem digit_not_nondigit (c : Char) (digit : c.isDigit = true) : isNondigit c = false := by
  have bounds := Char.isDigit_iff_toNat.mp digit
  simp only [isNondigit, Bool.or_eq_false_iff, beq_eq_false_iff_ne]
  constructor
  · unfold Char.isAlpha Char.isUpper Char.isLower
    simp only [Bool.or_eq_false_iff, Bool.and_eq_false_iff, decide_eq_false_iff_not, ge_iff_le,
      UInt32.le_iff_toNat_le, Char.toNat_val, not_and_or]
    change 48 ≤ c.toNat ∧ c.toNat ≤ 57 at bounds
    exact ⟨Or.inl (Nat.not_le.mpr (Nat.lt_of_le_of_lt bounds.2 (by decide))),
      Or.inl (Nat.not_le.mpr (Nat.lt_of_le_of_lt bounds.2 (by decide)))⟩
  · rintro rfl
    exact absurd digit (by decide)

/-- One more character behind the begin of a token. -/
theorem munch_cons (token : List Char) (c : Char) (rest : List Char) :
    munch token (c :: rest) = if continues token c then munch (token ++ [c]) rest
      else emit token ++ munch (if isBlank c then [] else [c]) rest := rfl

/-- A character of no other kind of token and of no long punctuator is a token alone. -/
theorem alone_of_plain (c : Char) (plain : isBlank c = false ∧ isWord c = false ∧ c ≠ '.' ∧
    c ≠ '+' ∧ c ≠ '-' ∧ ∀ long ∈ longPunctuators, c ∉ long) : Alone c := by
  obtain ⟨visible, noWord, noPoint, noPlus, noMinus, short⟩ := plain
  have noLong : ∀ token, c ∈ token → token ∉ longPunctuators :=
    fun token member long => short token long member
  have noNondigit : isNondigit c = false ∧ c.isDigit = false := by
    simpa [isWord] using noWord
  refine ⟨visible, fun token => ?_, fun next => ?_⟩
  · cases token with
    | nil => rfl
    | cons first rest =>
      have long := noLong (first :: (rest ++ [c])) (by simp)
      have noSign : (c == '+' || c == '-') = false := by simp [noPlus, noMinus]
      have point : (c == '.') = false := by simp [noPoint]
      simp only [continues, noWord, point, noSign, noNondigit]
      simp [long]
  · have long := noLong [c, next] List.mem_cons_self
    simp [continues, noNondigit, noPoint, long]

/-- The comma is a token alone. -/
theorem alone_comma : Alone ',' := alone_of_plain ',' (by decide)

/-- A token takes the text that makes it longer. -/
theorem munch_prolongs (token text rest : List Char) (prolongs : Prolongs token text) :
    munch token (text ++ rest) = munch (token ++ text) rest := by
  induction text generalizing token with
  | nil => simp
  | cons c text inductionHypothesis =>
    obtain ⟨continued, later⟩ := prolongs
    rw [List.cons_append, munch_cons, if_pos continued, inductionHypothesis _ later, List.append_assoc]
    rfl

/-- A blank ends a token and begins none. -/
theorem tokens_blank (line : List Char) : tokens (' ' :: line) = tokens line := rfl

/-- Blanks before a line do not matter. -/
theorem tokens_indented (count : Nat) (line : List Char) :
    tokens (List.replicate count ' ' ++ line) = tokens line := by
  induction count with
  | zero => rfl
  | succ count inductionHypothesis =>
    rw [List.replicate_succ, List.cons_append, tokens_blank, inductionHypothesis]

section Alone

variable (c : Char) (alone : Alone c)
include alone

/-- The text behind such a character is read for itself. -/
theorem munch_alone (rest : List Char) : munch [c] rest = [c] :: tokens rest := by
  cases rest with
  | nil => rfl
  | cons next rest =>
    rw [munch_cons, alone.2.2]
    rfl

/-- The text before such a character is read for itself as well. -/
theorem munch_before (token before rest : List Char) :
    munch token (before ++ c :: rest) = munch token before ++ [c] :: tokens rest := by
  induction before generalizing token with
  | nil =>
    rw [List.nil_append, munch_cons, alone.2.1, alone.1]
    change emit token ++ munch [c] rest = _
    rw [munch_alone c alone rest]
    rfl
  | cons first before inductionHypothesis =>
    rw [List.cons_append, munch_cons, munch_cons]
    split
    · exact inductionHypothesis _
    · rw [inductionHypothesis, List.append_assoc]

/-- A text splits at such a character. -/
theorem tokens_alone (before rest : List Char) :
    tokens (before ++ c :: rest) = tokens before ++ [c] :: tokens rest :=
  munch_before c alone [] before rest

/-- A line that ends with such a character may be broken there. -/
theorem tokens_break (line rest : List Char) (ends : line.getLast? = some c) :
    tokens (line ++ rest) = tokens line ++ tokens rest := by
  obtain ⟨before, rfl⟩ := List.getLast?_eq_some_iff.mp ends
  rw [List.append_assoc, List.singleton_append, tokens_alone c alone, tokens_alone c alone]
  simp [tokens, munch, emit]

end Alone

/-- The characters of a number behind its first digit, apart from signs. -/
theorem prolongs_number (token text : List Char) (number : ∃ first rest, token = first :: rest ∧
    first.isDigit = true) (plain : ∀ c ∈ text, isWord c = true ∨ c = '.') :
    Prolongs token text := by
  induction text generalizing token with
  | nil => trivial
  | cons c text inductionHypothesis =>
    obtain ⟨here, later⟩ := List.forall_mem_cons.mp plain
    obtain ⟨first, rest, rfl, digit⟩ := number
    refine ⟨?_, inductionHypothesis _ ⟨first, rest ++ [c], rfl, digit⟩ later⟩
    have letter : isNondigit first = false := digit_not_nondigit first digit
    rcases here with word | point
    · simp [continues, letter, digit, word]
    · simp [continues, letter, digit, point]

/-- A text behind a text. -/
theorem prolongs_append (token first second : List Char) :
    Prolongs token (first ++ second) ↔ Prolongs token first ∧ Prolongs (token ++ first) second := by
  induction first generalizing token with
  | nil => simp [Prolongs]
  | cons c first inductionHypothesis =>
    rw [List.cons_append, Prolongs, Prolongs, inductionHypothesis, List.append_assoc, and_assoc]
    rfl

/-- An exponent with a sign behind the begin of a number. -/
theorem prolongs_exponent (token : List Char) (number : ∃ first rest, token = first :: rest ∧
    first.isDigit = true) (sign : Char) (signs : sign = '+' ∨ sign = '-') (digits : List Char)
    (numeric : ∀ c ∈ digits, c.isDigit = true) : Prolongs token ('e' :: sign :: digits) := by
  obtain ⟨first, rest, rfl, digit⟩ := number
  have letter := digit_not_nondigit first digit
  refine ⟨?_, ?_, prolongs_number _ digits ⟨first, rest ++ ['e'] ++ [sign], rfl, digit⟩ ?_⟩
  · have word : isWord 'e' = true := by decide
    simp [continues, letter, digit, word]
  · have last : (first :: (rest ++ ['e'])).getLast? = some 'e' := by
      rw [← List.cons_append, List.getLast?_concat]
    rcases signs with rfl | rfl <;> simp [continues, letter, digit, last]
  · exact fun c member => Or.inl (by simp [isWord, numeric c member])

/-- A character that does not make a token longer begins the next one. -/
theorem munch_stop (token : List Char) (c : Char) (rest : List Char)
    (stop : continues token c = false) : munch token (c :: rest) = emit token ++ tokens (c :: rest) := by
  rw [munch_cons, stop, tokens, munch_cons]
  rfl

/-- A text that makes its first character longer to the end is one token. -/
theorem tokens_whole (first : Char) (text : List Char) (visible : isBlank first = false)
    (prolongs : Prolongs [first] text) : tokens (first :: text) = [first :: text] := by
  have run := munch_prolongs [first] text [] prolongs
  rw [List.append_nil] at run
  rw [tokens, munch_cons, visible]
  change munch [first] text = _
  rw [run]
  rfl

/-- The characters of an identifier behind its first one. -/
theorem prolongs_identifier (token text : List Char) (identifier : ∃ first rest,
    token = first :: rest ∧ isNondigit first = true) (words : ∀ c ∈ text, isWord c = true) :
    Prolongs token text := by
  induction text generalizing token with
  | nil => trivial
  | cons c text inductionHypothesis =>
    obtain ⟨here, later⟩ := List.forall_mem_cons.mp words
    obtain ⟨first, rest, rfl, letter⟩ := identifier
    refine ⟨?_, inductionHypothesis _ ⟨first, rest ++ [c], rfl, letter⟩ later⟩
    simp [continues, letter, here]

/-- An identifier before another character. -/
theorem tokens_identifier (first : Char) (text : List Char) (c : Char) (rest : List Char)
    (visible : isBlank first = false) (letter : isNondigit first = true)
    (words : ∀ c ∈ text, isWord c = true) (stop : isWord c = false) :
    tokens (first :: text ++ c :: rest) = (first :: text) :: tokens (c :: rest) := by
  have stops : continues (first :: text) c = false := by simp [continues, letter, stop]
  calc tokens (first :: text ++ c :: rest)
    _ = munch [first] (text ++ c :: rest) := by
      rw [tokens, List.cons_append, munch_cons, visible]
      rfl
    _ = munch (first :: text) (c :: rest) :=
      munch_prolongs [first] text _ (prolongs_identifier _ _ ⟨first, [], rfl, letter⟩ words)
    _ = (first :: text) :: tokens (c :: rest) := munch_stop _ c rest stops

/-- The last character of a line ends a token. -/
theorem munch_last (c : Char) (visible : isBlank c = false) (token before : List Char) :
    ∃ last ∈ munch token (before ++ [c]), last.getLast? = some c := by
  induction before generalizing token with
  | nil =>
    rw [List.nil_append, munch_cons, visible]
    split
    · exact ⟨token ++ [c], by simp [munch, emit], by simp⟩
    · exact ⟨[c], by simp [munch, emit], rfl⟩
  | cons first before inductionHypothesis =>
    rw [List.cons_append, munch_cons]
    split
    · exact inductionHypothesis _
    · obtain ⟨last, member, ends⟩ := inductionHypothesis (if isBlank first then [] else [first])
      exact ⟨last, List.mem_append_right _ member, ends⟩

/-- A line that ends with a visible character has a token that ends with it. -/
theorem tokens_last (c : Char) (visible : isBlank c = false) (line : List Char)
    (ends : line.getLast? = some c) : ∃ last ∈ tokens line, last.getLast? = some c := by
  obtain ⟨before, rfl⟩ := List.getLast?_eq_some_iff.mp ends
  exact munch_last c visible [] before

end ScicosFlex.Library.CTokens
