import ScicosFlex.Confparser.Permutations
import ScicosFlex.Library.Rewriting

/-!
# `confparser_demux` and `confparser_demux2`

Both programs rewrite a line of `confparser_mux` in place, character by character. The
underscores alternate: one behind a name, one behind a value. The first program makes
`NAME=value NAME=value` of a line, the second one keeps the values only (`mux_demux`).
-/

namespace ScicosFlex.Confparser.Demux

open CommandLine Grammar Library.CStrings Library.Choices Library.Rewriting Mux Permutations

section Programs

/-- The states of `confparser_demux`: what the next underscore becomes. -/
inductive Sign where
  | equal
  | space
  deriving DecidableEq

/-- The states of `confparser_demux2`. -/
inductive Mode where
  | ignore
  | print
  deriving DecidableEq

/-- The body of the loop of `confparser_demux`. -/
def demuxPass (state : Sign) (c : Char) : Char × Sign :=
  if c = '_' then
    if state = .equal then ('=', .space)
    else (' ', .equal)
  else (c, state)

/-- The body of the loop of `confparser_demux2`. -/
def demux2Pass (state : Mode) (c : Char) : Char × Mode :=
  let prevstate := state
  let (prevstate, state) :=
    if c = '_' then
      if state = .ignore then (prevstate, Mode.print)
      else (Mode.ignore, Mode.ignore)
    else (prevstate, state)
  (if prevstate = .ignore then ' ' else c, state)

variable {S : Type} (pass : S → Char → Char × S)

/-- `do ... while (*c)`, with the text at its end; the body changes the character. -/
def loop (text : List Char) (c : Nat) (state : S) : Option (List Char) :=
  match _found : text[c]? with
  | none => none
  | some char =>
    let (written, state) := pass state char
    match (text.set c written)[c + 1]? with
    | none => none
    | some next =>
      if next ≠ nul then loop (text.set c written) (c + 1) state else some (text.set c written)
termination_by text.length - c
decreasing_by
  have inside := (List.getElem?_eq_some_iff.mp _found).1
  rw [List.length_set]
  omega

/-- `main`: the line that is printed, or how to use the program. -/
def rewriteMain (start : S) : List (List Char) → Option Output
  | [_, argument] => do
    let text ← loop pass argument 0 start
    let printed ← stringAt text 0
    some (.lines [printed])
  | _ => some .usage

/-- `main` of `confparser_demux`. -/
def demuxMain : List (List Char) → Option Output := rewriteMain demuxPass .equal

/-- `main` of `confparser_demux2`. -/
def demux2Main : List (List Char) → Option Output := rewriteMain demux2Pass .ignore

end Programs

section Loops
variable {S : Type} (pass : S → Char → Char × S)

/-- A pass of the loop. -/
theorem loop_pass (text : List Char) (c : Nat) (state : S) (char next : Char)
    (found : text[c]? = some char)
    (ahead : (text.set c (pass state char).1)[c + 1]? = some next) :
    loop pass text c state =
      if next ≠ nul then loop pass (text.set c (pass state char).1) (c + 1) (pass state char).2
      else some (text.set c (pass state char).1) := by
  rw [loop]
  split
  · next none => rw [found] at none; cases none
  · next other same =>
    obtain rfl : char = other := Option.some.inj (found.symm.trans same)
    simp only [ahead]

/-- The loop rewrites the rest of the text, character by character in its place. The end
of the text is the only character that stops it. -/
theorem loop_rewrites (before text : List Char) (state : S) (some : text ≠ [])
    (closed : nul ∉ text) :
    loop pass (before ++ (text ++ [nul])) before.length state =
      .some (before ++ (rewritten pass state text ++ [nul])) := by
  induction text generalizing before state with
  | nil => exact absurd rfl some
  | cons char text inductionHypothesis =>
    have found : (before ++ (char :: text ++ [nul]))[before.length]? = .some char := by simp
    have written : (before ++ (char :: text ++ [nul])).set before.length (pass state char).1 =
        before ++ [(pass state char).1] ++ (text ++ [nul]) := by
      simp
    have place : (before ++ [(pass state char).1]).length = before.length + 1 := by simp
    cases text with
    | nil =>
      have ahead : (before ++ [(pass state char).1] ++ ([] ++ [nul]))[before.length + 1]? =
          .some nul := by
        simp
      rw [← written] at ahead
      rw [loop_pass pass _ _ state char nul found ahead, if_neg fun more => more rfl, written]
      simp [rewritten]
    | cons next text =>
      have ahead :
          (before ++ [(pass state char).1] ++ (next :: text ++ [nul]))[before.length + 1]? =
          .some next := by
        simp
      have notEnd : next ≠ nul := by
        rintro rfl
        exact closed (List.mem_cons_of_mem _ List.mem_cons_self)
      have later := inductionHypothesis (before ++ [(pass state char).1]) (pass state char).2
        (List.cons_ne_nil _ _) fun member => closed (List.mem_cons_of_mem _ member)
      rw [place] at later
      rw [← written] at ahead
      rw [loop_pass pass _ _ state char next found ahead, if_pos notEnd, written, later]
      simp [rewritten]

/-- The program prints the rewritten line. -/
theorem rewriteMain_prints (start : S) (program text : List Char) (some : text ≠ [])
    (closed : nul ∉ text) (visible : nul ∉ rewritten pass start text) :
    rewriteMain pass start [program, text ++ [nul]] =
      .some (.lines [rewritten pass start text]) := by
  have looped := loop_rewrites pass [] text start some closed
  have printed := stringAt_eq [] (rewritten pass start text) [] visible
  simp only [List.nil_append, List.length_nil] at looped printed
  simp only [rewriteMain, looped, printed, Option.bind_eq_bind, Option.bind_some]

/-- The state outside of a value, and inside of it: a machine in which the underscores of a
line alternate rewrites the names, the values and the separators of the line. -/
theorem rewritten_paired (outside inside : S) (name value : Char → Char) (inner outer : Char)
    (inName : ∀ c ≠ '_', pass outside c = (name c, outside))
    (behindName : pass outside '_' = (inner, inside))
    (inValue : ∀ c ≠ '_', pass inside c = (value c, inside))
    (behindValue : pass inside '_' = (outer, outside))
    (pairs : List (List Char × List Char))
    (plain : ∀ pair ∈ pairs, '_' ∉ pair.1 ∧ '_' ∉ pair.2) :
    rewritten pass outside (paired '_' '_' pairs) =
      paired inner outer (pairs.map fun pair => (pair.1.map name, pair.2.map value)) := by
  induction pairs with
  | nil => rfl
  | cons pair pairs inductionHypothesis =>
    obtain ⟨⟨plainName, plainValue⟩, plainLater⟩ := List.forall_mem_cons.mp plain
    obtain ⟨nameRead, nameState⟩ := rewritten_word pass outside name pair.1
      fun c member => inName c fun same => plainName (same ▸ member)
    obtain ⟨valueRead, valueState⟩ := rewritten_word pass inside value pair.2
      fun c member => inValue c fun same => plainValue (same ▸ member)
    by_cases last : pairs = []
    · subst last
      have single (inner outer : Char) (pair : List Char × List Char) :
          paired inner outer [pair] = pair.1 ++ inner :: pair.2 := by
        simp [paired]
      rw [List.map_cons, List.map_nil, single, single, rewritten_append, nameRead, nameState,
        rewritten, behindName, valueRead]
    · have several : pairs.map (fun pair => (pair.1.map name, pair.2.map value)) ≠ [] := by
        simpa using last
      rw [List.map_cons, paired_cons _ _ _ _ last, paired_cons _ _ _ _ several, List.append_assoc,
        rewritten_append, nameRead, nameState, List.cons_append, rewritten, behindName,
        rewritten_append, valueRead, valueState, rewritten, behindValue,
        inductionHypothesis plainLater]
      simp

end Loops

section Lines

/-- A character that is in none of the parts of a line. -/
theorem not_mem_paired (c inner outer : Char) (pairs : List (List Char × List Char))
    (notInner : c ≠ inner) (notOuter : c ≠ outer)
    (parts : ∀ pair ∈ pairs, c ∉ pair.1 ∧ c ∉ pair.2) : c ∉ paired inner outer pairs := by
  induction pairs with
  | nil => exact List.not_mem_nil
  | cons pair pairs inductionHypothesis =>
    obtain ⟨⟨notName, notValue⟩, others⟩ := List.forall_mem_cons.mp parts
    by_cases last : pairs = []
    · subst last
      simp [paired, notName, notValue, notInner]
    · rw [paired_cons _ _ _ _ last]
      simp [notName, notValue, notInner, notOuter, inductionHypothesis others]

/-- There is something in a line. -/
theorem paired_nonempty (inner outer : Char) (pairs : List (List Char × List Char))
    (some : pairs ≠ []) : paired inner outer pairs ≠ [] := by
  cases pairs with
  | nil => exact absurd rfl some
  | cons pair pairs =>
    by_cases last : pairs = []
    · subst last
      simp [paired]
    · rw [paired_cons _ _ _ _ last]
      simp

/-- What is chosen of declared settings has letters and digits only. -/
theorem chosen_alnum (settings : List Setting) (positions : List Nat)
    (declared : ∀ setting ∈ settings, Declared setting) :
    ∀ pair ∈ chosen settings positions, Alnum pair.1 ∧ Alnum pair.2 := by
  intro pair member
  rw [chosen, ← List.map_uncurry_zip_eq_zipWith] at member
  obtain ⟨⟨setting, position⟩, zipped, rfl⟩ := List.mem_map.mp member
  have known := declared setting (List.of_mem_zip zipped).1
  refine ⟨known.name, ?_⟩
  change Alnum (setting.values.getD position [])
  rw [List.getD_eq_getElem?_getD]
  cases found : setting.values[position]? with
  | none => exact fun c none => absurd none List.not_mem_nil
  | some value => exact (known.values value (List.mem_of_getElem? found)).1

/-- The assignment list of a choice: `NAME=value NAME=value`. -/
def assignments (settings : List Setting) (positions : List Nat) : List Char :=
  paired '=' ' ' (chosen settings positions)

/-- The line of a choice with blanks for everything but the values. -/
def valuesOnly (settings : List Setting) (positions : List Nat) : List Char :=
  paired ' ' ' ' ((chosen settings positions).map fun pair => (pair.1.map fun _ => ' ', pair.2))

variable (settings : List Setting) (positions : List Nat)
  (declared : ∀ setting ∈ settings, Declared setting)
include declared

/-- Letters and digits are neither underscores nor ends. -/
theorem chosen_plain (c : Char) (symbol : isalnum c = false) :
    ∀ pair ∈ chosen settings positions, c ∉ pair.1 ∧ c ∉ pair.2 := by
  intro pair member
  obtain ⟨name, value⟩ := chosen_alnum settings positions declared pair member
  exact ⟨not_mem_alnum c symbol _ name, not_mem_alnum c symbol _ value⟩

/-- A line has no end in it. -/
theorem line_closed : nul ∉ line settings positions :=
  not_mem_paired nul '_' '_' _ (by decide) (by decide)
    (chosen_plain settings positions declared nul isalnum_nul)

/-- `confparser_demux` makes the assignment list of a line. -/
theorem demux_line :
    rewritten demuxPass .equal (line settings positions) = assignments settings positions := by
  have read := rewritten_paired demuxPass .equal .space id id '=' ' '
    (fun c other => by simp [demuxPass, other]) rfl (fun c other => by simp [demuxPass, other]) rfl
    (chosen settings positions) (chosen_plain settings positions declared '_' (by decide))
  simpa [line, assignments] using read

/-- `confparser_demux2` keeps the values of a line. -/
theorem demux2_line :
    rewritten demux2Pass .ignore (line settings positions) = valuesOnly settings positions := by
  have read := rewritten_paired demux2Pass .ignore .print (fun _ => ' ') id ' ' ' '
    (fun c other => by simp [demux2Pass, other]) rfl (fun c other => by simp [demux2Pass, other])
    rfl (chosen settings positions) (chosen_plain settings positions declared '_' (by decide))
  simpa [line, valuesOnly] using read

end Lines

section Inverse

/-- The first program prints a line for every choice of values, in the lexicographic
order of the positions. The other two make the assignment list of each line, and keep
the values. Settings of other characters than letters and digits are left out, and so
are those that the buffers have no room for. The second demultiplexer prints no names,
whatever its comment shows. -/
theorem mux_demux (program : List Char) (settings : List Setting) (some : settings ≠ [])
    (declared : ∀ setting ∈ settings, Declared setting) (limits : WithinLimits settings) :
    (choices (counts settings)).Pairwise (List.Lex (· < ·)) ∧
    (∀ positions, positions ∈ choices (counts settings) ↔
      List.Forall₂ (· < ·) positions (counts settings)) ∧
    Mux.main (program :: settings.map Setting.memory) =
      .some (.lines ((choices (counts settings)).map (line settings))) ∧
    ∀ positions ∈ choices (counts settings),
      demuxMain [program, line settings positions ++ [nul]] =
        .some (.lines [assignments settings positions]) ∧
      demux2Main [program, line settings positions ++ [nul]] =
        .some (.lines [valuesOnly settings positions]) ∧
      (valuesOnly settings positions).length = (line settings positions).length := by
  refine ⟨choices_sorted _, fun positions => mem_choices positions _, ?_, ?_⟩
  · obtain ⟨state, parsed, length, known⟩ := recorded program settings
      (declared_fine settings declared limits) limits.vars
    have several : state.vars.length ≠ 0 := by
      rw [length]
      exact fun none => some (List.length_eq_zero_iff.mp none)
    have printed := print_fits state settings known some
      (fun setting member => (declared setting member).valued) limits.lines
    rw [Mux.main, parsed, Option.bind_eq_bind, Option.bind_some, if_pos several, printed]
    rfl
  · intro positions choice
    have text : line settings positions ≠ [] := by
      apply paired_nonempty
      rw [← List.length_pos_iff, chosen_length settings positions choice]
      exact List.length_pos_iff.mpr some
    have closed := line_closed settings positions declared
    have plain := chosen_plain settings positions declared nul isalnum_nul
    have first := demux_line settings positions declared
    have second := demux2_line settings positions declared
    refine ⟨?_, ?_, ?_⟩
    · rw [← first]
      apply rewriteMain_prints demuxPass .equal program _ text closed
      rw [first]
      exact not_mem_paired nul '=' ' ' _ (by decide) (by decide) plain
    · rw [← second]
      apply rewriteMain_prints demux2Pass .ignore program _ text closed
      rw [second]
      apply not_mem_paired nul ' ' ' ' _ (by decide) (by decide)
      intro pair member
      obtain ⟨kept, listed, rfl⟩ := List.mem_map.mp member
      refine ⟨fun inside => ?_, (plain kept listed).2⟩
      obtain ⟨_, -, same⟩ := List.mem_map.mp inside
      revert same
      decide
    · rw [← second, rewritten_length]

/-- `VAR1=a,b VAR2=c`: the lines of the two choices. -/
theorem mux_demux_two :
    Mux.main [[], ['V', '1', '=', 'a', ',', 'b', nul], ['V', '2', '=', 'c', nul]] =
      some (.lines [['V', '1', '_', 'a', '_', 'V', '2', '_', 'c'],
        ['V', '1', '_', 'b', '_', 'V', '2', '_', 'c']]) := by
  have declared : ∀ setting ∈ [Setting.mk ['V', '1'] [['a'], ['b']], ⟨['V', '2'], [['c']]⟩],
      Declared setting := by
    rw [List.forall_mem_cons, List.forall_mem_singleton]
    constructor
    · exact ⟨by decide, by decide, by decide, by decide⟩
    · exact ⟨by decide, by decide, by decide, by decide⟩
  have limits : WithinLimits [⟨['V', '1'], [['a'], ['b']]⟩, ⟨['V', '2'], [['c']]⟩] :=
    ⟨by decide, by decide, by decide⟩
  exact (mux_demux [] _ (List.cons_ne_nil _ _) declared limits).2.2.1

end Inverse

end ScicosFlex.Confparser.Demux
