import Mathlib.Data.List.TakeWhile
import ScicosFlex.Confparser.Mux

/-!
# What the command line of `confparser_mux` may be

The two scanners of the program read an argument in place. The first takes letters and digits
up to a `=`, the second cuts the rest at its commas. Every argument is either a written setting,
which comes out cut, or it is refused.
-/

namespace ScicosFlex.Confparser.Grammar

open Library.CStrings Mux

section Words

/-- Only letters and digits. -/
def Alnum (text : List Char) : Prop := ∀ c ∈ text, isalnum c = true

instance (text : List Char) : Decidable (Alnum text) :=
  decidable_of_iff (text.all isalnum = true) List.all_eq_true

/-- What is no letter and no digit is not among them. -/
theorem not_mem_alnum (c : Char) (symbol : isalnum c = false) (text : List Char)
    (word : Alnum text) : c ∉ text := by
  intro member
  have impossible := word c member
  rw [symbol] at impossible
  cases impossible

/-- The end of a string is no character of a name. -/
theorem isalnum_nul : isalnum nul = false := by decide

/-- Letters and digits have no end among them. -/
theorem alnum_closed (text : List Char) (word : Alnum text) : nul ∉ text :=
  not_mem_alnum nul isalnum_nul text word

end Words

section Scanners

/-- A character of a text. -/
theorem charAt_place (before after : List Char) (char : Char) :
    charAt (before ++ char :: after) before.length = .ok char := by
  simp [charAt]

/-- The loop for `=` goes on. -/
theorem searchEquals_again (scan next : NameScan) (char : Char) (passed : namePass scan = .ok next)
    (found : charAt next.text next.j = .ok char) (more : char ≠ nul ∧ next.ok = false) :
    searchEquals scan = searchEquals next := by
  rw [searchEquals]
  split
  · next failed => rw [passed] at failed; cases failed
  · next other same =>
    obtain rfl : next = other := by rw [passed] at same; exact Except.ok.inj same
    rw [found]
    exact if_pos more

/-- The loop for `=` ends. -/
theorem searchEquals_ends (scan next : NameScan) (char : Char) (passed : namePass scan = .ok next)
    (found : charAt next.text next.j = .ok char) (stop : ¬(char ≠ nul ∧ next.ok = false)) :
    searchEquals scan = .ok next := by
  rw [searchEquals]
  split
  · next failed => rw [passed] at failed; cases failed
  · next other same =>
    obtain rfl : next = other := by rw [passed] at same; exact Except.ok.inj same
    rw [found]
    exact if_neg stop

/-- The loop for `=` fails. -/
theorem searchEquals_fails (scan : NameScan) (failure : Failure)
    (failed : namePass scan = .error failure) : searchEquals scan = .error failure := by
  rw [searchEquals]
  split
  · next other same => rw [failed] at same; exact congrArg Except.error (Except.error.inj same).symm
  · next passed => rw [failed] at passed; cases passed

/-- The loop for `,` goes on. -/
theorem searchCommas_again (i : Nat) (scan next : ValueScan) (char : Char)
    (passed : valuePass i scan = .ok next) (found : charAt next.text next.j = .ok char)
    (more : char ≠ nul) : searchCommas i scan = searchCommas i next := by
  rw [searchCommas]
  split
  · next failed => rw [passed] at failed; cases failed
  · next other same =>
    obtain rfl : next = other := by rw [passed] at same; exact Except.ok.inj same
    rw [found]
    exact if_pos more

/-- The loop for `,` ends. -/
theorem searchCommas_ends (i : Nat) (scan next : ValueScan)
    (passed : valuePass i scan = .ok next) (found : charAt next.text next.j = .ok nul) :
    searchCommas i scan = .ok next := by
  rw [searchCommas]
  split
  · next failed => rw [passed] at failed; cases failed
  · next other same =>
    obtain rfl : next = other := by rw [passed] at same; exact Except.ok.inj same
    rw [found]
    exact if_neg fun more => more rfl

/-- The loop for `,` fails. -/
theorem searchCommas_fails (i : Nat) (scan : ValueScan) (failure : Failure)
    (failed : valuePass i scan = .error failure) : searchCommas i scan = .error failure := by
  rw [searchCommas]
  split
  · next other same => rw [failed] at same; exact congrArg Except.error (Except.error.inj same).symm
  · next passed => rw [failed] at passed; cases passed

/-- A character of the name. -/
theorem namePass_alnum (before after : List Char) (char : Char) (word : isalnum char = true) :
    namePass ⟨before ++ char :: after, before.length, false⟩ =
      .ok ⟨before ++ char :: after, before.length + 1, false⟩ := by
  simp [namePass, charAt_place, word, bind, Except.bind]

/-- The end of the name. -/
theorem namePass_equals (before after : List Char) :
    namePass ⟨before ++ '=' :: after, before.length, false⟩ =
      .ok ⟨before ++ nul :: after, before.length + 1, true⟩ := by
  have symbol : isalnum '=' = false := by decide
  simp [namePass, charAt_place, symbol, bind, Except.bind]

/-- A character that ends no name. -/
theorem namePass_error (before after : List Char) (char : Char) (symbol : isalnum char = false)
    (other : char ≠ '=') :
    namePass ⟨before ++ char :: after, before.length, false⟩ = .error .error := by
  simp [namePass, charAt_place, symbol, other, bind, Except.bind]

/-- The first scanner passes the letters and digits of a name. By induction on the name,
which moves from what is ahead to what is behind. -/
theorem searchEquals_skips (before name behind : List Char) (next : Char) (word : Alnum name)
    (inside : name ≠ [] → next ≠ nul) :
    searchEquals ⟨before ++ (name ++ next :: behind), before.length, false⟩ =
      searchEquals ⟨before ++ name ++ next :: behind, (before ++ name).length, false⟩ := by
  induction name generalizing before with
  | nil => simp
  | cons char name inductionHypothesis =>
    obtain ⟨known, wordRest⟩ := List.forall_mem_cons.mp word
    -- the loop sees the character behind this one, which is not the end of the argument
    obtain ⟨first, later, ahead, notEnd⟩ :
        ∃ first later, name ++ next :: behind = first :: later ∧ first ≠ nul := by
      cases name with
      | nil => exact ⟨next, behind, rfl, inside (List.cons_ne_nil _ _)⟩
      | cons first name =>
        refine ⟨first, name ++ next :: behind, rfl, ?_⟩
        rintro rfl
        exact alnum_closed _ wordRest List.mem_cons_self
    have passed := namePass_alnum before (name ++ next :: behind) char known
    have found : charAt (before ++ char :: (name ++ next :: behind)) (before.length + 1) =
        .ok first := by
      rw [ahead]
      have found := charAt_place (before ++ [char]) later first
      simpa using found
    have skipped := inductionHypothesis (before ++ [char]) wordRest
      fun _ => inside (List.cons_ne_nil _ _)
    rw [List.cons_append, searchEquals_again _ _ first passed found ⟨notEnd, rfl⟩]
    simpa using skipped

/-- A name that an `=` ends. -/
theorem searchEquals_name (before name rest : List Char) (word : Alnum name) :
    searchEquals ⟨before ++ (name ++ '=' :: (rest ++ [nul])), before.length, false⟩ =
      .ok ⟨before ++ (name ++ nul :: (rest ++ [nul])), before.length + name.length + 1, true⟩ := by
  obtain ⟨char, behind, more⟩ : ∃ char behind, rest ++ [nul] = char :: behind :=
    List.exists_cons_of_ne_nil (by simp)
  have found := charAt_place (before ++ name ++ [nul]) behind char
  have ended := searchEquals_ends _ _ char (namePass_equals (before ++ name) (char :: behind))
    (by simpa [Nat.add_assoc] using found) (by simp)
  rw [searchEquals_skips before name _ '=' word fun _ => by decide, more, ended]
  simp

/-- A name that the argument ends. -/
theorem searchEquals_short (before name : List Char) (word : Alnum name) (some : name ≠ []) :
    searchEquals ⟨before ++ (name ++ [nul]), before.length, false⟩ =
      .ok ⟨before ++ (name ++ [nul]), before.length + name.length, false⟩ := by
  -- the loop ends behind the last character of the name, before it looks at the end
  obtain ⟨front, last, rfl⟩ := (List.eq_nil_or_concat' name).resolve_left some
  have wordFront : Alnum front := fun c member => word c (List.mem_append_left _ member)
  have known : isalnum last = true := word last (by simp)
  have notEnd : last ≠ nul := by
    rintro rfl
    exact alnum_closed _ word (by simp)
  have found := charAt_place (before ++ front ++ [last]) [] nul
  have ended := searchEquals_ends _ _ nul (namePass_alnum (before ++ front) [nul] last known)
    (by simpa [Nat.add_assoc] using found) (by simp)
  have skipped := searchEquals_skips before front [nul] last wordFront fun _ => notEnd
  rw [List.append_assoc front, List.singleton_append, skipped, ended]
  simp [Nat.add_assoc]

/-- A name that a wrong character ends. -/
theorem searchEquals_wrong (before name rest : List Char) (bad : Char) (word : Alnum name)
    (symbol : isalnum bad = false) (other : bad ≠ '=') (inside : name ≠ [] → bad ≠ nul) :
    searchEquals ⟨before ++ (name ++ bad :: rest), before.length, false⟩ = .error .error := by
  rw [searchEquals_skips before name rest bad word inside]
  exact searchEquals_fails _ _ (namePass_error (before ++ name) rest bad symbol other)

/-- The second scanner: values are cut, `current` is being read, and `rest` is ahead. -/
def scanned (head : List Char) (i : Nat) (values : List (List Char)) (current rest : List Char) :
    ValueScan where
  text := head ++ packed values ++ current ++ (rest ++ [nul])
  j := (head ++ packed values ++ current).length
  c := (head ++ packed values).length
  cCount := current.length
  conf := (starts head.length values).map (⟨i, ·⟩)

/-- What the second scanner makes of the rest: the values, and the last one apart. -/
def scanValues (values : List (List Char)) (current : List Char) :
    List Char → Except Failure (List (List Char) × List Char)
  | [] => .ok (values, current)
  | char :: rest =>
    if isalnum char then scanValues values (current ++ [char]) rest
    else if char = ',' then
      if values.length < maxConf then scanValues (values ++ [current]) [] rest
      else .error .outside
    else .error .error

variable (head : List Char) (i : Nat) (values : List (List Char)) (current rest : List Char)

/-- The character ahead. -/
theorem scanned_ahead (char : Char) :
    charAt (scanned head i values current (char :: rest)).text
      (scanned head i values current (char :: rest)).j = .ok char :=
  charAt_place (head ++ packed values ++ current) (rest ++ [nul]) char

/-- Nothing is ahead. -/
theorem scanned_end :
    charAt (scanned head i values current []).text (scanned head i values current []).j =
      .ok nul :=
  charAt_place (head ++ packed values ++ current) [] nul

/-- A character of a value. -/
theorem valuePass_alnum (char : Char) (word : isalnum char = true) :
    valuePass i (scanned head i values current (char :: rest)) =
      .ok (scanned head i values (current ++ [char]) rest) := by
  rw [valuePass, scanned_ahead]
  simp [bind, Except.bind, word, scanned, Nat.add_assoc]

/-- A comma. -/
theorem valuePass_comma (room : values.length < maxConf) :
    valuePass i (scanned head i values current (',' :: rest)) =
      .ok (scanned head i (values ++ [current]) [] rest) := by
  have symbol : isalnum ',' = false := by decide
  rw [valuePass, scanned_ahead]
  simp [bind, Except.bind, symbol, scanned, push, starts_length, room, starts_append,
    packed_append, Nat.add_assoc]

/-- A comma behind too many values. -/
theorem valuePass_many (full : ¬values.length < maxConf) :
    valuePass i (scanned head i values current (',' :: rest)) = .error .outside := by
  have symbol : isalnum ',' = false := by decide
  rw [valuePass, scanned_ahead]
  simp [bind, Except.bind, symbol, scanned, push, starts_length, full]

/-- A character that is in no value. -/
theorem valuePass_error (char : Char) (symbol : isalnum char = false) (other : char ≠ ',') :
    valuePass i (scanned head i values current (char :: rest)) = .error .error := by
  rw [valuePass, scanned_ahead]
  simp [bind, Except.bind, symbol, other]

/-- Behind a pass that succeeds, the loop ends, or goes on with the rest. -/
theorem searchCommas_behind (scan : ValueScan) (closed : nul ∉ rest)
    (passed : valuePass i scan = .ok (scanned head i values current rest))
    (later : rest ≠ [] → searchCommas i (scanned head i values current rest) =
      (scanValues values current rest).map fun read => scanned head i read.1 read.2 []) :
    searchCommas i scan =
      (scanValues values current rest).map fun read => scanned head i read.1 read.2 [] := by
  cases rest with
  | nil => exact searchCommas_ends i scan _ passed (scanned_end head i values current)
  | cons char rest =>
    have notEnd : char ≠ nul := by
      rintro rfl
      exact closed List.mem_cons_self
    rw [searchCommas_again i scan _ char passed (scanned_ahead head i values current rest char)
      notEnd]
    exact later (List.cons_ne_nil _ _)

/-- The second scanner reads what is ahead, and writes an end over every comma, so the
values become strings of their own in the same memory. -/
theorem searchCommas_eq (closed : nul ∉ rest) (some : rest ≠ []) :
    searchCommas i (scanned head i values current rest) =
      (scanValues values current rest).map fun read => scanned head i read.1 read.2 [] := by
  induction rest generalizing values current with
  | nil => exact absurd rfl some
  | cons char rest inductionHypothesis =>
    have closedRest : nul ∉ rest := fun member => closed (List.mem_cons_of_mem _ member)
    rw [scanValues]
    by_cases word : isalnum char = true
    · rw [if_pos word]
      exact searchCommas_behind head i values (current ++ [char]) rest _ closedRest
        (valuePass_alnum head i values current rest char word)
        (inductionHypothesis values (current ++ [char]) closedRest)
    · have symbol : isalnum char = false := Bool.not_eq_true _ ▸ word
      rw [if_neg word]
      by_cases comma : char = ','
      · subst comma
        rw [if_pos rfl]
        by_cases room : values.length < maxConf
        · rw [if_pos room]
          exact searchCommas_behind head i (values ++ [current]) [] rest _ closedRest
            (valuePass_comma head i values current rest room)
            (inductionHypothesis (values ++ [current]) [] closedRest)
        · rw [if_neg room]
          exact searchCommas_fails i _ _ (valuePass_many head i values current rest room)
      · rw [if_neg comma]
        exact searchCommas_fails i _ _
          (valuePass_error head i values current rest char symbol comma)

end Scanners

/-- A variable with its values, as strings. -/
structure Setting where
  name : List Char
  values : List (List Char)
  deriving DecidableEq

/-- The variable of the argument `i`, once it is cut. -/
def Setting.var (i : Nat) (setting : Setting) : Variable where
  name := ⟨i, 0⟩
  conf := (starts (setting.name.length + 1) setting.values).map (⟨i, ·⟩)

/-- The argument, once it is cut. -/
def Setting.cut (setting : Setting) : List Char := packed (setting.name :: setting.values)

section Arguments
variable (i : Nat)

/-- An argument without a name before a `=` is an error: the scanner stops at another
character, or at the end. -/
theorem parseArgument_unnamed (name rest : List Char) (word : Alnum name)
    (closed : nul ∉ rest) (wrong : ∀ c ∈ rest.head?, isalnum c = false ∧ c ≠ '=') :
    parseArgument i (name ++ rest ++ [nul]) = .error .error := by
  cases rest with
  | nil =>
    rw [List.append_nil, parseArgument]
    cases name with
    | nil =>
      have failed := searchEquals_wrong [] [] [] nul word isalnum_nul (by decide)
        (fun some => absurd rfl some)
      rw [List.nil_append, List.length_nil] at failed
      rw [failed]
      rfl
    | cons char name =>
      have short := searchEquals_short [] (char :: name) word (List.cons_ne_nil _ _)
      have found := charAt_place (char :: name) [] nul
      rw [List.nil_append, List.length_nil, Nat.zero_add] at short
      simp only [short, bind, Except.bind, found, if_true]
  | cons bad rest =>
    obtain ⟨symbol, other⟩ := wrong bad rfl
    have notEnd : bad ≠ nul := by
      rintro rfl
      exact closed List.mem_cons_self
    have failed := searchEquals_wrong [] name (rest ++ [nul]) bad word symbol other
      fun _ => notEnd
    rw [List.nil_append, List.length_nil] at failed
    rw [parseArgument, List.append_assoc, List.cons_append, failed]
    rfl

/-- An argument with a name before a `=`. It is an error if its last value is empty, and
too many values are written behind the array. -/
theorem parseArgument_named (name rest : List Char) (word : Alnum name)
    (closed : nul ∉ rest) :
    parseArgument i (name ++ '=' :: rest ++ [nul]) = (do
      let read ← scanValues [] [] rest
      if read.2 = [] then .error .error
      else if read.1.length < maxConf then
        let setting : Setting := ⟨name, read.1 ++ [read.2]⟩
        .ok (setting.cut, setting.var i)
      else .error .outside) := by
  have named := searchEquals_name [] name rest word
  rw [List.nil_append, List.length_nil, Nat.zero_add, List.nil_append] at named
  have whole : name ++ '=' :: rest ++ [nul] = name ++ '=' :: (rest ++ [nul]) := by simp
  rw [whole, parseArgument, named]
  cases rest with
  | nil =>
    have found := charAt_place (name ++ [nul]) [] nul
    rw [List.length_append, List.length_singleton, List.append_assoc] at found
    simp only [bind, Except.bind, scanValues, List.nil_append]
    rw [show charAt (name ++ nul :: [nul]) (name.length + 1) = .ok nul from found]
    rfl
  | cons char rest =>
    have notEnd : char ≠ nul := by
      rintro rfl
      exact closed List.mem_cons_self
    have found := charAt_place (name ++ [nul]) (rest ++ [nul]) char
    rw [List.length_append, List.length_singleton, List.append_assoc] at found
    have started : (⟨name ++ nul :: (char :: rest ++ [nul]), name.length + 1, name.length + 1, 0,
        []⟩ : ValueScan) = scanned (name ++ [nul]) i [] [] (char :: rest) := by
      simp [scanned, packed, starts]
    have scan := searchCommas_eq (name ++ [nul]) i [] [] (char :: rest) closed
      (List.cons_ne_nil _ _)
    rw [← started] at scan
    simp only [bind, Except.bind]
    rw [show charAt (name ++ nul :: (char :: rest ++ [nul])) (name.length + 1) = .ok char from
      found]
    simp only [notEnd, if_false, Bool.true_eq_false, scan]
    cases scanValues [] [] (char :: rest) with
    | error failure => rfl
    | ok read =>
      obtain ⟨values, last⟩ := read
      by_cases none : last = []
      · simp [Except.map, scanned, none]
      · have some : last.length ≠ 0 := fun empty => none (List.length_eq_zero_iff.mp empty)
        simp only [Except.map, scanned, push, List.length_map, starts_length, none, if_false,
          ne_eq, some, not_false_eq_true, if_true]
        by_cases room : values.length < maxConf
        · simp [room, Setting.cut, Setting.var, starts_append, packed, Nat.add_assoc,
            Nat.add_comm 1]
        · simp only [room, if_false]

end Arguments

section Values

/-- Values with a comma behind each of them, and a last value. -/
def joined (values : List (List Char)) (last : List Char) : List Char :=
  values.flatMap (· ++ [',']) ++ last

/-- Values with commas between them. -/
theorem intercalate_joined (values : List (List Char)) (last : List Char) :
    [','].intercalate (values ++ [last]) = joined values last := by
  induction values with
  | nil => simp [joined]
  | cons value values inductionHypothesis =>
    have some : values ++ [last] ≠ [] := by simp
    rw [List.cons_append, List.intercalate_cons_of_ne_nil some, inductionHypothesis]
    simp [joined]

/-- Letters and digits belong to the value that is being read. -/
theorem scanValues_word (values : List (List Char)) (current word rest : List Char)
    (alnum : Alnum word) :
    scanValues values current (word ++ rest) = scanValues values (current ++ word) rest := by
  induction word generalizing current with
  | nil => simp
  | cons char word inductionHypothesis =>
    rw [List.cons_append, scanValues, if_pos (alnum char List.mem_cons_self),
      inductionHypothesis _ fun c member => alnum c (List.mem_cons_of_mem _ member)]
    simp

/-- Values with their commas are read one by one, as long as there is room. -/
theorem scanValues_values (values more : List (List Char)) (rest : List Char)
    (alnum : ∀ value ∈ more, Alnum value) (fine : values.length ≤ maxConf) :
    scanValues values [] (more.flatMap (· ++ [',']) ++ rest) =
      if values.length + more.length ≤ maxConf then scanValues (values ++ more) [] rest
      else .error .outside := by
  induction more generalizing values with
  | nil => simp [fine]
  | cons value more inductionHypothesis =>
    have symbol : ¬isalnum ',' = true := by decide
    rw [List.flatMap_cons, List.append_assoc, List.append_assoc,
      scanValues_word _ _ _ _ (alnum value List.mem_cons_self), List.singleton_append, scanValues,
      if_neg symbol, if_pos rfl, List.length_cons]
    by_cases room : values.length < maxConf
    · rw [if_pos room, List.nil_append, inductionHypothesis (values ++ [value])
        (fun other member => alnum other (List.mem_cons_of_mem _ member))
        (by simpa using Nat.succ_le_of_lt room)]
      simp only [List.length_append, List.length_singleton, List.append_assoc,
        List.singleton_append, Nat.add_assoc, Nat.add_comm 1]
    · rw [if_neg room, if_neg (by omega)]

/-- Every text is values with their commas, up to a character that is in no value. -/
theorem segments (rest : List Char) :
    ∃ values last tail, (∀ value ∈ values, Alnum value) ∧ Alnum last ∧
      (∀ c ∈ tail.head?, isalnum c = false ∧ c ≠ ',') ∧ rest = joined values last ++ tail := by
  induction rest with
  | nil => exact ⟨[], [], [], by simp, by simp [Alnum], by simp, rfl⟩
  | cons char rest inductionHypothesis =>
    obtain ⟨values, last, tail, alnum, alnumLast, wrong, rfl⟩ := inductionHypothesis
    by_cases word : isalnum char = true
    · cases values with
      | nil =>
        refine ⟨[], char :: last, tail, alnum, ?_, wrong, rfl⟩
        exact List.forall_mem_cons.mpr ⟨word, alnumLast⟩
      | cons value values =>
        obtain ⟨alnumValue, alnumValues⟩ := List.forall_mem_cons.mp alnum
        refine ⟨(char :: value) :: values, last, tail, ?_, alnumLast, wrong, rfl⟩
        exact List.forall_mem_cons.mpr ⟨List.forall_mem_cons.mpr ⟨word, alnumValue⟩, alnumValues⟩
    · by_cases comma : char = ','
      · subst comma
        refine ⟨[] :: values, last, tail, ?_, alnumLast, wrong, rfl⟩
        exact List.forall_mem_cons.mpr ⟨by simp [Alnum], alnum⟩
      · refine ⟨[], [], char :: (joined values last ++ tail), by simp, by simp [Alnum], ?_, rfl⟩
        intro c first
        obtain rfl : char = c := Option.some.inj first
        exact ⟨Bool.not_eq_true _ ▸ word, comma⟩

/-- The result of the second scanner. -/
theorem scanValues_segments (values : List (List Char)) (last tail : List Char)
    (alnum : ∀ value ∈ values, Alnum value) (alnumLast : Alnum last)
    (wrong : ∀ c ∈ tail.head?, isalnum c = false ∧ c ≠ ',') :
    scanValues [] [] (joined values last ++ tail) =
      if values.length ≤ maxConf then
        if tail = [] then .ok (values, last) else .error .error
      else .error .outside := by
  rw [joined, List.append_assoc, scanValues_values _ _ _ alnum (Nat.zero_le _),
    scanValues_word _ _ _ _ alnumLast]
  simp only [List.length_nil, Nat.zero_add, List.nil_append]
  cases tail with
  | nil => rfl
  | cons bad tail =>
    obtain ⟨symbol, other⟩ := wrong bad rfl
    simp [scanValues, symbol, other]

/-- The commas that the second scanner reads. -/
def commas (argument : List Char) : Nat :=
  match argument.dropWhile isalnum with
  | [] => 0
  | char :: rest =>
    if char = '=' then (rest.takeWhile fun c => isalnum c || c == ',').count ',' else 0

/-- The commas of the values. -/
theorem count_joined (values : List (List Char)) (last : List Char)
    (alnum : ∀ value ∈ values, Alnum value) (alnumLast : Alnum last) :
    (joined values last).count ',' = values.length := by
  have plain (text : List Char) (word : Alnum text) : text.count ',' = 0 :=
    List.count_eq_zero.mpr (not_mem_alnum ',' (by decide) text word)
  induction values with
  | nil => exact plain last alnumLast
  | cons value values inductionHypothesis =>
    obtain ⟨alnumValue, alnumValues⟩ := List.forall_mem_cons.mp alnum
    have whole : joined (value :: values) last = value ++ ',' :: joined values last := by
      simp [joined]
    rw [whole, List.count_append, plain value alnumValue, List.count_cons,
      inductionHypothesis alnumValues]
    simp

/-- Letters, digits and commas. -/
theorem joined_chars (values : List (List Char)) (last : List Char)
    (alnum : ∀ value ∈ values, Alnum value) (alnumLast : Alnum last) :
    ∀ c ∈ joined values last, (isalnum c || c == ',') = true := by
  intro c member
  rw [joined, List.mem_append, List.mem_flatMap] at member
  rcases member with ⟨value, listed, within⟩ | within
  · rcases List.mem_append.mp within with word | comma
    · simp [alnum value listed c word]
    · simp [List.mem_singleton.mp comma]
  · simp [alnumLast c within]

/-- Values with their commas have no end among them. -/
theorem joined_closed (values : List (List Char)) (last : List Char)
    (alnum : ∀ value ∈ values, Alnum value) (alnumLast : Alnum last) :
    nul ∉ joined values last := by
  intro member
  have impossible := joined_chars values last alnum alnumLast nul member
  revert impossible
  decide

/-- The commas in front of a character that is in no value. -/
theorem count_segments (values : List (List Char)) (last tail : List Char)
    (alnum : ∀ value ∈ values, Alnum value) (alnumLast : Alnum last)
    (wrong : ∀ c ∈ tail.head?, isalnum c = false ∧ c ≠ ',') :
    ((joined values last ++ tail).takeWhile fun c => isalnum c || c == ',').count ',' =
      values.length := by
  have stop : (tail.takeWhile fun c => isalnum c || c == ',') = [] := by
    cases tail with
    | nil => rfl
    | cons bad tail =>
      obtain ⟨symbol, other⟩ := wrong bad rfl
      simp [symbol, other]
  rw [List.takeWhile_append_of_pos (joined_chars values last alnum alnumLast), stop,
    List.append_nil]
  exact count_joined values last alnum alnumLast

end Values

/-- A setting that the program reads. Its name may be empty, and so may its values, but for
the last one. -/
structure Setting.Readable (setting : Setting) : Prop where
  name : Alnum setting.name
  values : ∀ value ∈ setting.values, Alnum value
  last : ∃ last, setting.values.getLast? = some last ∧ last ≠ []

/-- A setting as it is written: `NAME=v1,v2,...,vk`. -/
def Setting.written (setting : Setting) : List Char :=
  setting.name ++ '=' :: [','].intercalate setting.values

/-- The written setting in the memory. -/
def Setting.memory (setting : Setting) : List Char := setting.written ++ [nul]

/-- A setting that the program reads, with room for its values. Whether its name and
values are those the usage asks for is another matter. -/
structure Setting.Fine (setting : Setting) : Prop where
  readable : setting.Readable
  few : setting.values.length ≤ maxConf

section Settings
variable (i : Nat)

/-- A setting as a name, values with their commas, and a last value. -/
theorem Setting.Readable.parts (setting : Setting) (readable : setting.Readable) :
    ∃ values last, setting.values = values ++ [last] ∧
      setting.written = setting.name ++ '=' :: joined values last ∧
      (∀ value ∈ values, Alnum value) ∧ Alnum last ∧ last ≠ [] := by
  obtain ⟨last, found, some⟩ := readable.last
  obtain ⟨values, listed⟩ := List.getLast?_eq_some_iff.mp found
  refine ⟨values, last, listed, ?_, ?_, ?_, some⟩
  · rw [Setting.written, listed, intercalate_joined]
  · exact fun value member => readable.values value (by simp [listed, member])
  · exact readable.values last (by simp [listed])

/-- A setting with room for its values is read. -/
theorem parseArgument_written (setting : Setting) (readable : setting.Readable) :
    parseArgument i (setting.written ++ [nul]) =
      if setting.values.length ≤ maxConf then .ok (setting.cut, setting.var i)
      else .error .outside := by
  obtain ⟨values, last, listed, written, alnum, alnumLast, some⟩ := readable.parts
  have closed := joined_closed values last alnum alnumLast
  have scan := scanValues_segments values last [] alnum alnumLast (by simp)
  rw [List.append_nil] at scan
  have size : setting.values.length = values.length + 1 := by simp [listed]
  rw [written, parseArgument_named i _ _ readable.name closed, scan, size]
  by_cases room : values.length < maxConf
  · simp only [Nat.le_of_lt room, Nat.succ_le_of_lt room, if_true, bind, Except.bind, some,
      if_false, room]
    rw [← listed]
  · have full : ¬values.length + 1 ≤ maxConf := by omega
    by_cases just : values.length ≤ maxConf
    · simp [bind, Except.bind, just, some, room, full]
    · simp [bind, Except.bind, just, full]

/-- A name and values whose last one is missing, or ends at a character that is in no value. -/
theorem parseArgument_malformed (name last tail : List Char) (values : List (List Char))
    (word : Alnum name) (alnum : ∀ value ∈ values, Alnum value) (alnumLast : Alnum last)
    (wrong : ∀ c ∈ tail.head?, isalnum c = false ∧ c ≠ ',')
    (closed : nul ∉ joined values last ++ tail) (malformed : tail = [] → last = []) :
    parseArgument i (name ++ '=' :: (joined values last ++ tail) ++ [nul]) =
      .error (if values.length ≤ maxConf then .error else .outside) := by
  rw [parseArgument_named i name _ word closed,
    scanValues_segments values last tail alnum alnumLast wrong]
  by_cases room : values.length ≤ maxConf
  · by_cases whole : tail = []
    · simp [room, whole, malformed whole, bind, Except.bind]
    · simp [room, whole, bind, Except.bind]
  · simp [room, bind, Except.bind]

/-- A name and values that end properly are a setting as it is written. -/
theorem written_joined (name last : List Char) (values : List (List Char)) (word : Alnum name)
    (alnum : ∀ value ∈ values, Alnum value) (alnumLast : Alnum last) (some : last ≠ []) :
    ∃ setting : Setting, setting.Readable ∧
      setting.written = name ++ '=' :: joined values last := by
  refine ⟨⟨name, values ++ [last]⟩, ⟨word, ?_, last, by simp, some⟩, ?_⟩
  · intro value member
    rcases List.mem_append.mp member with early | final
    · exact alnum value early
    · rw [List.mem_singleton.mp final]
      exact alnumLast
  · rw [Setting.written, intercalate_joined]

/-- What is no written setting is refused, or read beyond the room for the values. -/
theorem parseArgument_refused (argument : CString)
    (refused : ∀ setting : Setting, setting.Readable → setting.written ≠ argument.text) :
    parseArgument i argument.memory =
      .error (if commas argument.text ≤ maxConf then .error else .outside) := by
  obtain ⟨text, closed⟩ := argument
  dsimp only at refused
  have split : text.takeWhile isalnum ++ text.dropWhile isalnum = text :=
    List.takeWhile_append_dropWhile
  have word : Alnum (text.takeWhile isalnum) := fun c member => List.mem_takeWhile_imp member
  have stop := List.head?_dropWhile_not isalnum text
  dsimp only [CString.memory]
  cases behind : text.dropWhile isalnum with
  | nil =>
    rw [behind] at split
    have unnamed := parseArgument_unnamed i _ [] word (by simp) (by simp)
    have counted : commas text = 0 := by rw [commas, behind]
    rw [split] at unnamed
    rw [counted]
    exact unnamed
  | cons char rest =>
    rw [behind] at split stop
    have closedRest : nul ∉ char :: rest := by
      rw [← split] at closed
      exact fun member => closed (List.mem_append_right _ member)
    by_cases named : char = '='
    · subst named
      obtain ⟨values, last, tail, alnum, alnumLast, wrong, rfl⟩ := segments rest
      have malformed : tail = [] → last = [] := by
        rintro rfl
        by_contra some
        obtain ⟨setting, readable, written⟩ :=
          written_joined _ last values word alnum alnumLast some
        rw [List.append_nil] at split
        exact refused setting readable (written.trans split)
      have parsed := parseArgument_malformed i _ last tail values word alnum alnumLast wrong
        (fun member => closedRest (List.mem_cons_of_mem _ member)) malformed
      have counted : commas text = values.length := by
        rw [commas, behind]
        exact count_segments values last tail alnum alnumLast wrong
      rw [split] at parsed
      rw [counted]
      exact parsed
    · have wrong : ∀ c ∈ (char :: rest).head?, isalnum c = false ∧ c ≠ '=' := by
        intro c first
        obtain rfl : char = c := Option.some.inj first
        exact ⟨stop, named⟩
      have unnamed := parseArgument_unnamed i _ (char :: rest) word closedRest wrong
      have counted : commas text = 0 := by
        rw [commas, behind]
        exact if_neg named
      rw [split] at unnamed
      rw [counted]
      exact unnamed

end Settings

end ScicosFlex.Confparser.Grammar
