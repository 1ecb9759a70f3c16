import Mathlib.Data.List.Forall2
import ScicosFlex.Library.PrintfFormats
import ScicosFlex.Sprintf.Fields

/-!
# The types of the formats of the sprintf block

`_spf_remove_djolly` and `_spf_get_types` of `sprintf_block.sci` look for the one percent
sign of a format that is left when the doubled ones are removed, and for the first of the
letters `d`, `u`, `f` and `c` behind it. The block passes a value of the type of this letter.

C reads flags, a width, a precision and a length between the percent sign and the letter. A
format with anything else there is accepted too, though C finds another conversion in it or
takes other arguments (`types_match_iff`).

A text of Scilab holds no NUL.
-/

namespace ScicosFlex.Sprintf.Formats

open Library.PrintfFormats Fields

/-- `part(str, first:last)`. -/
def part (str : List Char) (first last : Nat) : List Char :=
  (str.drop (first - 1)).take (last + 1 - first)

/-- The `while` loop of `_spf_remove_djolly`, which finds the doubled characters of `str` from
its character `i` on. -/
def subindexes (jolly : Char) : (i : Nat) → List Char → List Nat
  | i, first :: second :: rest =>
    if first = jolly ∧ second = jolly then i :: subindexes jolly (i + 2) rest
    else subindexes jolly (i + 1) (second :: rest)
  | _, _ => []

/-- The loop over the doubled characters, whose pieces are put together. -/
def substrs (str : List Char) : (j : Nat) → List Nat → List Char
  | j, [] => if j ≤ str.length then part str j str.length else []
  | j, index :: rest => part str j (index - 1) ++ substrs str (index + 2) rest

/-- `_spf_remove_djolly(str, jolly)`. -/
def spfRemoveDjolly (str : List Char) (jolly : Char) : List Char :=
  let subindexes := subindexes jolly 1 str
  if subindexes = [] then str else substrs str 1 subindexes

/-- The types of the formats. -/
inductive SpfType where
  | none
  | d
  | u
  | f
  | c
deriving DecidableEq

/-- The numbers that the dialog gives to the types. -/
def SpfType.code : SpfType → Int
  | .d => 3
  | .u => 6
  | .f => 1
  | .c => 5
  | .none => -1

/-- The letters that the scanner looks for. -/
def letter (tmp : Char) : Option SpfType :=
  if tmp = 'd' then some .d
  else if tmp = 'f' then some .f
  else if tmp = 'u' then some .u
  else if tmp = 'c' then some .c
  else none

/-- The loop from the percent sign on. -/
def scan : List Char → Option SpfType
  | [] => none
  | tmp :: rest =>
    if tmp = ' ' then none
    else match letter tmp with
      | some t => some t
      | none => scan rest

/-- `strindex(str, c)`, counted from `i`. -/
def strindex (c : Char) : (i : Nat) → List Char → List Nat
  | _, [] => []
  | i, first :: rest => if first = c then i :: strindex c (i + 1) rest else strindex c (i + 1) rest

/-- One pass through the loop of `_spf_get_types`. -/
def spfType (str : List Char) : Except String SpfType :=
  let str := spfRemoveDjolly str '%'
  match strindex '%' 1 str with
  | [] => .ok .none
  | [idx] =>
    match scan (part str idx str.length) with
    | some t => .ok t
    | none => .error ("Invalid format for" ++ String.ofList str)
  | _ => .error "Invalid format, only one paramater is allowed"

/-- An entry of a list of Scilab. -/
inductive Item where
  | string (str : List Char)
  | other

/-- What `_spf_get_types` returns. -/
structure Types where
  ok : Bool
  errstr : String
  types : List SpfType
deriving DecidableEq

/-- The loop of `_spf_get_types`. -/
def spfTypesLoop (types : List SpfType) : List Item → Types
  | [] => ⟨true, "", types⟩
  | .other :: _ => ⟨false, "Invalid list item type, string expected", types⟩
  | .string str :: rest =>
    match spfType str with
    | .error errstr => ⟨false, errstr, types⟩
    | .ok t => spfTypesLoop (types ++ [t]) rest

/-- `_spf_get_types(sl)`, for a list or for something else. -/
def spfGetTypes : Option (List Item) → Types
  | none => ⟨false, "Invalid type for input, list expected", []⟩
  | some sl => spfTypesLoop [] sl

/-- The arguments that `spf_generic` passes, with their promoted types. -/
def passed : ParameterType → List ArgumentType
  | .int => [.int]
  | .unsigned => [.unsigned]
  | .int8 => [.int]
  | .double => [.double]
  | .string => []

/-- The specifiers that a type stands for. -/
def SpfType.specifiers : SpfType → List Char
  | .none => []
  | .d => ['d']
  | .u => ['u']
  | .f => ['f']
  | .c => ['c']

/-- C finds the conversion of the type in a format, or none, and takes the arguments that
`spf_generic` passes for the type. -/
def Match (str : List Char) (type : SpfType) : Prop :=
  ∃ found, conversions str = some found ∧ found.map Conversion.specifier = type.specifiers ∧
    (parameterType type.code).map passed = some (found.flatMap Conversion.arguments)

/-- The lengths that do not change the type of the argument. -/
def neutral (specifier : Char) : List (List Char) :=
  if specifier = 'f' then [[], ['l']]
  else if specifier = 'c' then [[]]
  else [[], ['h'], ['h', 'h']]

/-- All percent signs are doubled, or only flags, digits, a precision and a length that does
not matter are between the one that is not and the first of the four letters. -/
def WellFormed (str : List Char) : Prop :=
  Paired str ∨ ∃ before mid length specifier after,
    str = before ++ '%' :: (mid ++ specifier :: after) ∧ Paired before ∧
      specifier ∈ ['d', 'u', 'f', 'c'] ∧ Plain mid length ∧ length ∈ neutral specifier

section Doubled

/-- A text without its doubled characters. -/
def strip (jolly : Char) : List Char → List Char
  | first :: second :: rest =>
    if first = jolly ∧ second = jolly then strip jolly rest else first :: strip jolly (second :: rest)
  | str => str

/-- The characters from `j` on to the end. -/
theorem part_end (str : List Char) (j : Nat) (positive : 1 ≤ j) :
    part str j str.length = str.drop (j - 1) := by
  rw [part, List.take_of_length_le]
  rw [List.length_drop]
  omega

/-- The characters from `j` on that were passed. -/
theorem part_done (done todo : List Char) (j : Nat) (positive : 1 ≤ j)
    (passed : j ≤ done.length + 1) : part (done ++ todo) j done.length = done.drop (j - 1) := by
  have front : (done.drop (j - 1)).length = done.length + 1 - j := by
    rw [List.length_drop]
    omega
  rw [part, List.drop_append_of_le_length (by omega), ← front, List.take_left]

/-- The pieces between the doubled characters make up the text without them. By
induction on the text that is left, with the begin of the present piece. -/
theorem substrs_subindexes (jolly : Char) (todo done : List Char) (j : Nat) (positive : 1 ≤ j)
    (passed : j ≤ done.length + 1) :
    substrs (done ++ todo) j (subindexes jolly (done.length + 1) todo) =
      done.drop (j - 1) ++ strip jolly todo := by
  induction todo using strip.induct jolly generalizing done j with
  | case1 first second rest doubled inductionHypothesis =>
    have later := inductionHypothesis (done ++ [first, second]) (done.length + 3) (by omega)
      (by simp)
    have shifted : (done ++ [first, second]).length = done.length + 2 := by simp
    rw [shifted, List.drop_of_length_le (by omega), List.nil_append, List.append_assoc] at later
    rw [subindexes, if_pos doubled, substrs, strip, if_pos doubled, Nat.add_sub_cancel,
      part_done done _ j positive passed]
    exact congrArg (done.drop (j - 1) ++ ·) later
  | case2 first second rest single inductionHypothesis =>
    have later := inductionHypothesis (done ++ [first]) j positive (by simp; omega)
    have shifted : (done ++ [first]).length = done.length + 1 := by simp
    rw [shifted, List.append_assoc, List.drop_append_of_le_length (by omega),
      List.append_assoc] at later
    rw [subindexes, if_neg single, strip, if_neg single]
    exact later
  | case3 todo short =>
    have last : subindexes jolly (done.length + 1) todo = [] := by
      unfold subindexes
      split
      · exact absurd rfl (short _ _ _)
      · rfl
    have kept : strip jolly todo = todo := by
      unfold strip
      split
      · exact absurd rfl (short _ _ _)
      · rfl
    rw [last, kept, substrs]
    split
    · rw [part_end _ j positive, List.drop_append_of_le_length (by omega)]
    · next beyond =>
      rw [List.length_append] at beyond
      rw [List.drop_of_length_le (by omega), List.length_eq_zero_iff.mp (by omega : todo.length = 0)]
      rfl

/-- Without doubled characters there is one piece. -/
theorem substrs_nil (str : List Char) : substrs str 1 [] = str := by
  rw [substrs]
  split
  · rw [part_end str 1 (Nat.le_refl _)]
    rfl
  · next empty => exact (List.length_eq_zero_iff.mp (by omega)).symm

/-- `_spf_remove_djolly` removes the doubled characters. -/
theorem spfRemoveDjolly_eq (str : List Char) (jolly : Char) :
    spfRemoveDjolly str jolly = strip jolly str := by
  have pieces : substrs str 1 (subindexes jolly 1 str) = strip jolly str :=
    substrs_subindexes jolly str [] 1 (Nat.le_refl _) (Nat.le_refl _)
  unfold spfRemoveDjolly
  dsimp only
  split
  · next none => rw [← pieces, none, substrs_nil]
  · exact pieces

theorem strip_percent (rest : List Char) : strip '%' ('%' :: '%' :: rest) = strip '%' rest := by
  rw [strip, if_pos ⟨rfl, rfl⟩]

theorem strip_other (c : Char) (rest : List Char) (other : c ≠ '%') :
    strip '%' (c :: rest) = c :: strip '%' rest := by
  cases rest with
  | nil => rfl
  | cons second rest => rw [strip, if_neg fun doubled => other doubled.1]

theorem strip_single (rest : List Char) (single : rest.head? ≠ some '%') :
    strip '%' ('%' :: rest) = '%' :: strip '%' rest := by
  cases rest with
  | nil => rfl
  | cons second rest =>
    rw [strip, if_neg]
    rintro ⟨-, rfl⟩
    exact single rfl

/-- Pairs in front of a text are removed apart from it. -/
theorem strip_append (before rest : List Char) (paired : Paired before) :
    strip '%' (before ++ rest) = strip '%' before ++ strip '%' rest := by
  induction paired with
  | nil => rfl
  | percent paired inductionHypothesis =>
    rw [List.cons_append, List.cons_append, strip_percent, strip_percent, inductionHypothesis]
  | other other paired inductionHypothesis =>
    rw [List.cons_append, strip_other _ _ other, strip_other _ _ other, inductionHypothesis,
      List.cons_append]

/-- Of pairs nothing is left. -/
theorem strip_paired (str : List Char) (paired : Paired str) : '%' ∉ strip '%' str := by
  induction paired with
  | nil => exact List.not_mem_nil
  | percent paired inductionHypothesis => rwa [strip_percent]
  | other other paired inductionHypothesis =>
    rw [strip_other _ _ other]
    rintro (_ | ⟨_, member⟩)
    · exact other rfl
    · exact inductionHypothesis member

/-- The percent signs come in pairs, or there is a first one that does not. -/
theorem paired_or_single (str : List Char) :
    Paired str ∨ ∃ before rest, str = before ++ '%' :: rest ∧ Paired before ∧
      rest.head? ≠ some '%' := by
  induction str using strip.induct '%' with
  | case1 first second rest doubled inductionHypothesis =>
    obtain ⟨rfl, rfl⟩ := doubled
    obtain paired | ⟨before, behind, rfl, paired, single⟩ := inductionHypothesis
    · exact Or.inl paired.percent
    · exact Or.inr ⟨_, behind, rfl, paired.percent, single⟩
  | case2 first second rest different inductionHypothesis =>
    by_cases percent : first = '%'
    · subst percent
      refine Or.inr ⟨[], second :: rest, rfl, .nil, ?_⟩
      rintro ⟨⟩
      exact different ⟨rfl, rfl⟩
    · obtain paired | ⟨before, behind, same, paired, single⟩ := inductionHypothesis
      · exact Or.inl (.other percent paired)
      · exact Or.inr ⟨first :: before, behind, congrArg (first :: ·) same, .other percent paired,
          single⟩
  | case3 str short =>
    cases str with
    | nil => exact Or.inl .nil
    | cons first rest =>
      cases rest with
      | cons second rest => exact absurd rfl (short _ _ _)
      | nil =>
        by_cases percent : first = '%'
        · subst percent
          exact Or.inr ⟨[], [], rfl, .nil, by simp⟩
        · exact Or.inl (.other percent .nil)

/-- A percent sign that is left shows that they do not all come in pairs. -/
theorem paired_of_strip (str : List Char) (left : '%' ∉ strip '%' str) : Paired str := by
  obtain paired | ⟨before, rest, rfl, paired, single⟩ := paired_or_single str
  · exact paired
  · rw [strip_append _ _ paired, strip_single _ single] at left
    exact absurd (List.mem_append_right _ List.mem_cons_self) left

end Doubled

section Scanner

theorem letter_none (c : Char) (other : c ∉ ['d', 'u', 'f', 'c']) : letter c = none := by
  simp only [List.mem_cons, List.not_mem_nil, or_false, not_or] at other
  obtain ⟨d, u, f, c⟩ := other
  rw [letter, if_neg d, if_neg f, if_neg u, if_neg c]

/-- The scanner passes percent signs. -/
theorem scan_strip (str : List Char) : scan (strip '%' str) = scan str := by
  have passed (rest : List Char) : scan ('%' :: rest) = scan rest := rfl
  induction str using strip.induct '%' with
  | case1 first second rest doubled inductionHypothesis =>
    obtain ⟨rfl, rfl⟩ := doubled
    rw [strip_percent, passed, passed, inductionHypothesis]
  | case2 first second rest different inductionHypothesis =>
    rw [strip, if_neg different, scan, inductionHypothesis]
    rfl
  | case3 str short =>
    unfold strip
    split
    · exact absurd rfl (short _ _ _)
    · rfl

/-- The scanner stops at a first letter. -/
theorem scan_some (str : List Char) (t : SpfType) (found : scan str = some t) :
    ∃ mid specifier after, str = mid ++ specifier :: after ∧ letter specifier = some t ∧
      ∀ c ∈ mid, letter c = none := by
  induction str with
  | nil => cases found
  | cons tmp rest inductionHypothesis =>
    rw [scan] at found
    split at found
    · cases found
    · cases known : letter tmp with
      | some first =>
        rw [known] at found
        exact ⟨[], tmp, rest, rfl, known.trans found, by simp⟩
      | none =>
        rw [known] at found
        obtain ⟨mid, specifier, after, rfl, last, before⟩ := inductionHypothesis found
        refine ⟨tmp :: mid, specifier, after, rfl, last, ?_⟩
        rintro c (_ | ⟨_, member⟩)
        · exact known
        · exact before c member

theorem strindex_append (c : Char) (i : Nat) (first second : List Char) :
    strindex c i (first ++ second) = strindex c i first ++ strindex c (i + first.length) second := by
  induction first generalizing i with
  | nil => rfl
  | cons head first inductionHypothesis =>
    have shifted : i + 1 + first.length = i + (first.length + 1) := by omega
    rw [List.cons_append, strindex, strindex, List.length_cons, inductionHypothesis, shifted]
    split <;> rfl

/-- There are no positions of a character that does not occur. -/
theorem strindex_nil_iff (c : Char) (i : Nat) (str : List Char) :
    strindex c i str = [] ↔ c ∉ str := by
  induction str generalizing i with
  | nil => exact iff_of_true rfl List.not_mem_nil
  | cons head rest inductionHypothesis =>
    rw [strindex, List.mem_cons, not_or]
    split
    · next same => exact iff_of_false (List.cons_ne_nil _ _) fun other => other.1 same.symm
    · next other =>
      rw [inductionHypothesis]
      exact ⟨fun rest => ⟨fun same => other same.symm, rest⟩, And.right⟩

/-- A format with pairs only has no type. -/
theorem spfType_paired (str : List Char) (paired : Paired str) : spfType str = .ok .none := by
  have absent := (strindex_nil_iff '%' 1 _).mpr (strip_paired str paired)
  rw [spfType, spfRemoveDjolly_eq, absent]

/-- A format with a percent sign besides the pairs is scanned from there, unless there
is another. -/
theorem spfType_single (before rest : List Char) (paired : Paired before)
    (single : rest.head? ≠ some '%') (t : SpfType) :
    spfType (before ++ '%' :: rest) = .ok t ↔ Paired rest ∧ scan rest = some t := by
  have absent := (strindex_nil_iff '%' 1 _).mpr (strip_paired before paired)
  have stripped : strip '%' (before ++ '%' :: rest) = strip '%' before ++ '%' :: strip '%' rest := by
    rw [strip_append _ _ paired, strip_single _ single]
  rw [spfType, spfRemoveDjolly_eq]
  rw [stripped, strindex_append, absent, List.nil_append, strindex, if_pos rfl]
  cases others : strindex '%' (1 + (strip '%' before).length + 1) (strip '%' rest) with
  | nil =>
    have alone := paired_of_strip rest ((strindex_nil_iff _ _ _).mp others)
    have place : 1 + (strip '%' before).length - 1 = (strip '%' before).length := by omega
    have passed : scan ('%' :: strip '%' rest) = scan rest := scan_strip rest
    dsimp only
    rw [part_end _ _ (by omega), place, List.drop_left, passed]
    cases scan rest with
    | none => simp
    | some found => simp [alone]
  | cons other more =>
    dsimp only
    refine iff_of_false (by simp) fun alone => ?_
    have missing := (strindex_nil_iff '%' (1 + (strip '%' before).length + 1) _).mpr
      (strip_paired rest alone.1)
    rw [missing] at others
    cases others

end Scanner

section Conversions

/-- What the letters stand for. -/
theorem letter_type (c : Char) (t : SpfType) (known : letter c = some t) :
    c ∈ ['d', 'u', 'f', 'c'] ∧ t.specifiers = [c] ∧
      (parameterType t.code).map passed = some [argumentType [] c] := by
  have member : c ∈ ['d', 'u', 'f', 'c'] := by
    refine Decidable.byContradiction fun other => ?_
    rw [letter_none c other] at known
    cases known
  refine ⟨member, ?_⟩
  simp only [List.mem_cons, List.not_mem_nil, or_false] at member
  obtain rfl | rfl | rfl | rfl := member
  all_goals
    obtain rfl := Option.some.inj known
    decide

/-- The letters are no parts of a conversion. -/
theorem letter_not_part (c : Char) (member : c ∈ ['d', 'u', 'f', 'c']) : isPart c = false := by
  have all : ['d', 'u', 'f', 'c'].all (fun c => !isPart c) = true := by decide
  simpa using List.all_eq_true.mp all c member

/-- The letters have types. -/
theorem letter_ne_none (c : Char) (member : c ∈ ['d', 'u', 'f', 'c']) : letter c ≠ none := by
  have all : ['d', 'u', 'f', 'c'].all (fun c => (letter c).isSome) = true := by decide
  exact Option.isSome_iff_ne_none.mp (List.all_eq_true.mp all c member)

/-- Parts of a conversion are neither letters nor percent signs. -/
theorem part_other (c : Char) (part : isPart c) : letter c = none ∧ c ≠ '%' := by
  constructor
  · apply letter_none
    intro member
    rw [letter_not_part c member] at part
    cases part
  · rintro rfl
    cases part

/-- The lengths that keep the type of a letter. -/
theorem argumentType_neutral (c : Char) (member : c ∈ ['d', 'u', 'f', 'c'])
    (length : List Char) (known : length ∈ lengths) :
    argumentType length c = argumentType [] c ↔ length ∈ neutral c := by
  simp only [List.mem_cons, List.not_mem_nil, or_false] at member
  revert length
  obtain rfl | rfl | rfl | rfl := member
  all_goals decide

/-- A text before the first character of a kind is determined. -/
theorem split_unique (first second rest behind : List Char) (c d : Char)
    (before : ∀ x ∈ first, letter x = none) (ahead : ∀ x ∈ second, letter x = none)
    (here : letter c ≠ none) (there : letter d ≠ none)
    (same : first ++ c :: rest = second ++ d :: behind) :
    first = second ∧ c = d ∧ rest = behind := by
  induction first generalizing second with
  | nil =>
    cases second with
    | nil => exact ⟨rfl, List.cons.inj same⟩
    | cons x second =>
      obtain ⟨rfl, -⟩ := List.cons.inj same
      exact absurd (ahead c List.mem_cons_self) here
  | cons x first inductionHypothesis =>
    cases second with
    | nil =>
      obtain ⟨rfl, -⟩ := List.cons.inj same
      exact absurd (before x List.mem_cons_self) there
    | cons y second =>
      obtain ⟨rfl, tails⟩ := List.cons.inj same
      obtain ⟨rfl, rest⟩ := inductionHypothesis second
        (fun z member => before z (List.mem_cons_of_mem _ member))
        (fun z member => ahead z (List.mem_cons_of_mem _ member)) tails
      exact ⟨rfl, rest⟩

/-- Behind text without percent signs, pairs are pairs. -/
theorem paired_behind (mid rest : List Char) (free : ∀ c ∈ mid, c ≠ '%')
    (paired : Paired (mid ++ rest)) : Paired rest := by
  induction mid with
  | nil => exact paired
  | cons c mid inductionHypothesis =>
    exact inductionHypothesis (fun d member => free d (List.mem_cons_of_mem _ member))
      (paired.tail (free c List.mem_cons_self))

/-- A conversion of a letter in plain parts is the only one of a format with pairs besides. -/
theorem match_of_plain (before mid length after : List Char) (specifier : Char) (t : SpfType)
    (paired : Paired before) (rest : Paired (mid ++ specifier :: after))
    (known : letter specifier = some t) (plain : Plain mid length)
    (keeps : length ∈ neutral specifier)
    (single : (mid ++ specifier :: after).head? ≠ some '%') :
    Match (before ++ '%' :: (mid ++ specifier :: after)) t := by
  obtain ⟨member, specifiers, arguments⟩ := letter_type specifier t known
  obtain ⟨found, read, same, long, width, precision⟩ := conversion_plain mid length after
    specifier plain (letter_not_part specifier member)
  have other : specifier ≠ '%' := by
    rintro rfl
    exact absurd member (by decide)
  have behind : Paired after :=
    (paired_behind mid _ (fun c inside => (part_other c (plain.parts c inside)).2) rest).tail other
  obtain ⟨_, _, _, -, -, -, -, listed⟩ := plain
  refine ⟨[found], ?_, ?_, ?_⟩
  · rw [conversions_paired _ _ paired, conversions_conversion _ single, read, Option.bind_some,
      conversions_only_pairs after behind, Option.map_some]
  · rw [specifiers, List.map_singleton, same]
  · have type := (argumentType_neutral specifier member length listed).mpr keeps
    rw [arguments, List.flatMap_singleton, Conversion.arguments, if_neg width, if_neg precision,
      same, long, type]
    rfl

/-- Where C finds the conversion of the letter and no other argument, the parts are plain. -/
theorem plain_of_match (before mid after : List Char) (specifier : Char) (t : SpfType)
    (paired : Paired before) (known : letter specifier = some t)
    (single : (mid ++ specifier :: after).head? ≠ some '%')
    (first : ∀ c ∈ mid, letter c = none)
    (matched : Match (before ++ '%' :: (mid ++ specifier :: after)) t) :
    ∃ length, Plain mid length ∧ length ∈ neutral specifier := by
  obtain ⟨member, specifiers, arguments⟩ := letter_type specifier t known
  obtain ⟨found, read, named, taken⟩ := matched
  rw [conversions_paired _ _ paired, conversions_conversion _ single] at read
  cases one : conversion (mid ++ specifier :: after) with
  | none =>
    rw [one] at read
    cases read
  | some pair =>
    obtain ⟨conversion, behind⟩ := pair
    rw [one, Option.bind_some] at read
    obtain ⟨more, -, rfl⟩ := Option.map_eq_some_iff.mp read
    rw [specifiers, List.map_cons] at named
    obtain ⟨same, none⟩ := List.cons.inj named
    obtain rfl := List.map_eq_nil_iff.mp none
    have formed := conversion_formed _ _ _ one
    have whole := conversion_text _ _ _ one
    have letters : letter specifier ≠ Option.none := by
      rw [known]
      exact Option.some_ne_none t
    obtain ⟨rfl, -, -⟩ := split_unique mid conversion.parts after behind specifier
      conversion.specifier first (fun c inside => (part_other c (formed.parts c inside)).1) letters
      (same ▸ letters) whole
    rw [arguments, List.flatMap_singleton, Conversion.arguments] at taken
    have lone := Option.some.inj taken
    have width : '*' ∉ conversion.width := by
      intro star
      rw [if_pos star] at lone
      have counted := congrArg List.length lone
      simp at counted
    have precision : '*' ∉ conversion.precision := by
      intro star
      rw [if_neg width, if_pos star] at lone
      have counted := congrArg List.length lone
      simp at counted
    rw [if_neg width, if_neg precision, same] at lone
    have type : argumentType conversion.length specifier = argumentType [] specifier :=
      (List.cons.inj lone).1.symm
    exact ⟨conversion.length, formed.plain width precision,
      (argumentType_neutral specifier member _ formed.length).mp type⟩

/-- In front of a letter, parts do not begin with a percent sign. -/
theorem head_of_plain (mid length after : List Char) (specifier : Char)
    (member : specifier ∈ ['d', 'u', 'f', 'c']) (plain : Plain mid length) :
    (mid ++ specifier :: after).head? ≠ some '%' := by
  cases mid with
  | nil =>
    rintro ⟨⟩
    exact absurd member (by decide)
  | cons c mid =>
    rintro ⟨⟩
    exact (part_other _ (plain.parts _ List.mem_cons_self)).2 rfl

/-- The type of an accepted format is the one C reads exactly if the format is well formed. -/
theorem format_match_iff (str : List Char) (t : SpfType) (accepted : spfType str = .ok t) :
    Match str t ↔ WellFormed str := by
  constructor
  · intro matched
    obtain paired | ⟨before, rest, rfl, paired, single⟩ := paired_or_single str
    · exact Or.inl paired
    · obtain ⟨-, scanned⟩ := (spfType_single before rest paired single t).mp accepted
      obtain ⟨mid, specifier, after, rfl, known, first⟩ := scan_some rest t scanned
      obtain ⟨length, plain, keeps⟩ := plain_of_match before mid after specifier t paired known
        single first matched
      exact Or.inr ⟨before, mid, length, specifier, after, rfl, paired,
        (letter_type specifier t known).1, plain, keeps⟩
  · rintro (paired | ⟨before, mid, length, specifier, after, rfl, paired, member, plain, keeps⟩)
    · obtain rfl := Except.ok.inj ((spfType_paired str paired).symm.trans accepted)
      exact ⟨[], conversions_only_pairs str paired, rfl, rfl⟩
    · have single := head_of_plain mid length after specifier member plain
      obtain ⟨rest, scanned⟩ := (spfType_single before _ paired single t).mp accepted
      obtain ⟨_, other, _, same, known, first⟩ := scan_some _ t scanned
      have letters := letter_ne_none specifier member
      obtain ⟨rfl, rfl, rfl⟩ := split_unique _ _ _ _ specifier other
        (fun c inside => (part_other c (plain.parts c inside)).1) first letters
        (by rw [known]; exact Option.some_ne_none t) same
      exact match_of_plain before mid length after specifier t paired rest known plain keeps
        single

end Conversions

/-- Accepted lists have the types of their formats. -/
theorem accepted_types (strs : List (List Char)) (types : List SpfType)
    (accepted : (spfTypesLoop types (strs.map .string)).ok = true) :
    ∃ more, (spfTypesLoop types (strs.map .string)).types = types ++ more ∧
      List.Forall₂ (fun str t => spfType str = .ok t) strs more := by
  induction strs generalizing types with
  | nil => exact ⟨[], (List.append_nil types).symm, .nil⟩
  | cons str strs inductionHypothesis =>
    rw [List.map_cons, spfTypesLoop] at accepted ⊢
    cases scanned : spfType str with
    | error errstr =>
      rw [scanned] at accepted
      cases accepted
    | ok t =>
      rw [scanned] at accepted
      obtain ⟨more, whole, all⟩ := inductionHypothesis (types ++ [t]) accepted
      exact ⟨t :: more, whole.trans (List.append_assoc _ _ _), .cons scanned all⟩

/-- The types of an accepted list are the ones C reads exactly if all formats are well
formed. The macro takes the first of its four letters behind a single percent sign,
whatever is between them, where C stops at a character that belongs to no conversion.
Lists with other values than strings are not accepted. -/
theorem types_match_iff (strs : List (List Char))
    (accepted : (spfGetTypes (some (strs.map .string))).ok = true) :
    List.Forall₂ Match strs (spfGetTypes (some (strs.map .string))).types ↔
      ∀ str ∈ strs, WellFormed str := by
  obtain ⟨types, whole, all⟩ := accepted_types strs [] accepted
  rw [spfGetTypes, whole, List.nil_append]
  clear whole accepted
  induction all with
  | nil => simp
  | cons accepted all inductionHypothesis =>
    rw [List.forall₂_cons, inductionHypothesis, format_match_iff _ _ accepted, List.forall_mem_cons]

/-- The format `%5.1f%%`. -/
def percentage : List Char := ['%', '5', '.', '1', 'f', '%', '%']

/-- C reads a `double` for it. -/
theorem percentage_matches :
    List.Forall₂ Match [percentage] (spfGetTypes (some ([percentage].map .string))).types := by
  refine (types_match_iff [percentage] (by decide)).mpr ?_
  intro str member
  obtain rfl := List.mem_singleton.mp member
  refine Or.inr ⟨[], ['5', '.', '1'], [], 'f', ['%', '%'], rfl, .nil, by decide, ?_, by decide⟩
  exact ⟨[], ['5'], ['.', '1'], rfl, List.forall_mem_nil _, List.forall_mem_singleton.mpr rfl,
    Or.inr ⟨['1'], rfl, List.forall_mem_singleton.mpr rfl⟩, by decide⟩

/-- The format `%xd`, which C reads as the conversion `x` and a letter, has the type of `d`. -/
theorem hexadecimal_differs :
    (spfGetTypes (some [.string ['%', 'x', 'd']])).ok = true ∧
      ¬ List.Forall₂ Match [['%', 'x', 'd']] (spfGetTypes (some [.string ['%', 'x', 'd']])).types := by
  have types : spfGetTypes (some [.string ['%', 'x', 'd']]) = ⟨true, "", [.d]⟩ := by decide
  rw [types]
  refine ⟨rfl, ?_⟩
  rw [List.forall₂_cons]
  rintro ⟨⟨found, read, named, -⟩, -⟩
  have computed : conversions ['%', 'x', 'd'] = some [⟨[], [], [], [], 'x'⟩] := by
    rw [conversions_conversion _ (by decide)]
    have one : conversion ['x', 'd'] = some (⟨[], [], [], [], 'x'⟩, ['d']) := rfl
    rw [one, Option.bind_some, conversions_other _ _ (by decide), conversions_nil]
    rfl
  rw [computed] at read
  obtain rfl := Option.some.inj read
  exact absurd named (by decide)

end ScicosFlex.Sprintf.Formats
