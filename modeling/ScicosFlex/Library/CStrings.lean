import Mathlib.Data.List.Basic

/-!
# Strings that end with a zero byte

A memory that holds several strings behind one another (`packed`) gives each of them back at
its start (`strings_packed`). Copies into a buffer of a fixed size are defined if the string
and its end fit.
-/

namespace ScicosFlex.Library.CStrings

/-- The end of a string. -/
def nul : Char := Char.ofNat 0

/-- The characters of a string, without its end. -/
structure CString where
  text : List Char
  closed : nul ∉ text

/-- The bytes of a string. -/
def CString.memory (string : CString) : List Char := string.text ++ [nul]

/-- The string that starts at an address. -/
def stringAt (memory : List Char) (start : Nat) : Option (List Char) :=
  if nul ∈ memory.drop start then some ((memory.drop start).takeWhile (· ≠ nul)) else none

/-- `strcpy(buffer, source)`. -/
def strcpy (room : Nat) (source : List Char) : Option (List Char) :=
  if source.length < room then some source else none

/-- `strcat(buffer, source)`; the buffer holds the string `buffer`. -/
def strcat (room : Nat) (buffer source : List Char) : Option (List Char) :=
  strcpy room (buffer ++ source)

/-- A copy that fits. -/
theorem strcpy_fits (room : Nat) (source : List Char) (fits : source.length < room) :
    strcpy room source = some source := if_pos fits

/-- Strings behind one another. -/
def packed (strings : List (List Char)) : List Char := strings.flatMap (· ++ [nul])

/-- Where they start. -/
def starts (first : Nat) : List (List Char) → List Nat
  | [] => []
  | string :: rest => first :: starts (first + string.length + 1) rest

/-- One string more. -/
theorem packed_append (strings : List (List Char)) (string : List Char) :
    packed (strings ++ [string]) = packed strings ++ (string ++ [nul]) := by
  simp [packed]

/-- The start of one string more. -/
theorem starts_append (first : Nat) (strings : List (List Char)) (string : List Char) :
    starts first (strings ++ [string]) =
      starts first strings ++ [first + (packed strings).length] := by
  induction strings generalizing first with
  | nil => rfl
  | cons next rest inductionHypothesis =>
    have size : (packed (next :: rest)).length = next.length + 1 + (packed rest).length := by
      rw [packed, List.flatMap_cons, List.length_append, List.length_append, packed]
      rfl
    rw [List.cons_append, starts, inductionHypothesis, starts, List.cons_append, size]
    simp only [Nat.add_assoc]

/-- Every string has a start. -/
theorem starts_length (first : Nat) (strings : List (List Char)) :
    (starts first strings).length = strings.length := by
  induction strings generalizing first with
  | nil => rfl
  | cons string rest inductionHypothesis => exact congrArg (· + 1) (inductionHypothesis _)

/-- A string up to its end. -/
theorem stringAt_eq (before text after : List Char) (closed : nul ∉ text) :
    stringAt (before ++ (text ++ nul :: after)) before.length = some text := by
  have ended : nul ∈ text ++ nul :: after := List.mem_append_right _ List.mem_cons_self
  have upTo : ∀ c ∈ text, decide (c ≠ nul) = true := by
    intro c member
    exact decide_eq_true fun same => closed (same ▸ member)
  rw [stringAt, List.drop_left, if_pos ended, List.takeWhile_append_of_pos upTo]
  simp

/-- The strings stand at their starts. -/
theorem strings_packed (before : List Char) (strings : List (List Char))
    (closed : ∀ string ∈ strings, nul ∉ string) :
    (starts before.length strings).mapM (stringAt (before ++ packed strings)) = some strings := by
  induction strings generalizing before with
  | nil => rfl
  | cons string rest inductionHypothesis =>
    have first := stringAt_eq before string (packed rest) (closed string List.mem_cons_self)
    have others := inductionHypothesis (before ++ string ++ [nul])
      fun other member => closed other (List.mem_cons_of_mem _ member)
    have whole : before ++ packed (string :: rest) = before ++ (string ++ nul :: packed rest) := by
      simp [packed]
    have shifted : before ++ string ++ [nul] ++ packed rest =
        before ++ (string ++ nul :: packed rest) := by
      simp
    have next : (before ++ string ++ [nul]).length = before.length + string.length + 1 := by
      simp [Nat.add_assoc]
    rw [shifted, next] at others
    rw [whole, starts, List.mapM_cons, first, others]
    rfl

end ScicosFlex.Library.CStrings
