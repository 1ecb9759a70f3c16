import ScicosFlex.Confparser.CommandLine

/-!
# What `confparser_mux` prints

A line for every choice of one value of each variable, in the lexicographic order of their
positions (`print_fits`), if every line fits the buffer.

The program accepts what its usage asks for. It also accepts an empty name, and empty values
in front of the last one, and checks none of its limits (`accepts_iff`).
-/

namespace ScicosFlex.Confparser.Permutations

open CommandLine Grammar Library.CStrings Library.Choices Library.Sequences Mux

section Lines

/-- The names with the values at the positions. -/
def chosen (settings : List Setting) (positions : List Nat) : List (List Char × List Char) :=
  List.zipWith (fun setting position => (setting.name, setting.values.getD position []))
    settings positions

/-- Names and values, each of them written with a separator, and another one between them. -/
def paired (inner outer : Char) (pairs : List (List Char × List Char)) : List Char :=
  [outer].intercalate (pairs.map fun pair => pair.1 ++ inner :: pair.2)

/-- The line of a choice: `NAME_value` pairs joined by underscores. -/
def line (settings : List Setting) (positions : List Nat) : List Char :=
  paired '_' '_' (chosen settings positions)

/-- The numbers of values. -/
def counts (settings : List Setting) : List Nat := settings.map fun setting => setting.values.length

/-- The lines of all choices. -/
def lines (settings : List Setting) : List (List Char) :=
  (choices (counts settings)).map (line settings)

/-- Several pairs. -/
theorem paired_cons (inner outer : Char) (pair : List Char × List Char)
    (pairs : List (List Char × List Char)) (some : pairs ≠ []) :
    paired inner outer (pair :: pairs) =
      pair.1 ++ inner :: pair.2 ++ outer :: paired inner outer pairs := by
  have several : pairs.map (fun pair => pair.1 ++ inner :: pair.2) ≠ [] := by
    simpa using some
  rw [paired, List.map_cons, List.intercalate_cons_of_ne_nil several]
  simp [paired]

/-- A choice is a position for every variable. -/
theorem chosen_length (settings : List Setting) (positions : List Nat)
    (choice : positions ∈ choices (counts settings)) :
    (chosen settings positions).length = settings.length := by
  have length := ((mem_choices positions (counts settings)).mp choice).length_eq
  rw [counts, List.length_map] at length
  simp [chosen, length]

/-- A pass over the positions is a pass over the values. -/
theorem flatMap_positions {α β : Type} (values : List α) (default : α) (f : α → List β) :
    ((List.range values.length).flatMap fun i => f (values.getD i default)) =
      values.flatMap f := by
  have same : (List.range values.length).map (fun i => values.getD i default) = values := by
    apply List.ext_getElem (by simp)
    intro i _ inside
    simp [inside]
  calc ((List.range values.length).flatMap fun i => f (values.getD i default))
      = ((List.range values.length).map fun i => values.getD i default).flatMap f := by
        rw [List.flatMap_map]
    _ = values.flatMap f := by rw [same]

/-- The lines of a single variable. -/
theorem lines_single (setting : Setting) :
    lines [setting] = setting.values.flatMap fun value => [setting.name ++ '_' :: value] := by
  rw [← flatMap_positions setting.values [] fun value => [setting.name ++ '_' :: value]]
  simp [lines, counts, choices, line, chosen, paired, List.map_flatMap]

/-- The lines of several variables: those of the others behind each value of the first. -/
theorem lines_cons (setting : Setting) (later : List Setting) (some : later ≠ []) :
    lines (setting :: later) = setting.values.flatMap fun value =>
      (lines later).map fun line => setting.name ++ '_' :: value ++ '_' :: line := by
  rw [← flatMap_positions setting.values [] fun value =>
    (lines later).map fun line => setting.name ++ '_' :: value ++ '_' :: line]
  rw [lines, counts, List.map_cons, choices, List.map_flatMap]
  apply List.flatMap_congr
  intro i _
  rw [lines, List.map_map, List.map_map]
  apply List.map_congr_left
  intro positions choice
  have length := chosen_length later positions choice
  have several : chosen later positions ≠ [] := by
    intro none
    rw [none] at length
    exact some (List.length_eq_zero_iff.mp length.symm)
  exact paired_cons '_' '_' _ _ several

end Lines

section Printing

/-- A variable in the memory, and its setting. -/
theorem var_known (state : State) (settings : List Setting) (n : Nat) (setting : Setting)
    (known : settingsOf state = some settings) (here : settings[n]? = some setting) :
    ∃ var, state.vars[n]? = some var ∧ string state.argv var.name = some setting.name ∧
      var.conf.mapM (string state.argv) = some setting.values := by
  obtain ⟨var, found, read⟩ := mapM_entry _ _ _ n setting known here
  simp only [readBack, Option.bind_eq_bind, Option.bind_eq_some_iff, Option.some.injEq] at read
  obtain ⟨name, named, values, valued, rfl⟩ := read
  exact ⟨var, found, named, valued⟩

/-- Strings that fit behind one another are built in the buffer. -/
theorem strcat_fits (buffer source whole : List Char) (same : buffer ++ source = whole)
    (fits : whole.length < maxString) : strcat maxString buffer source = some whole := by
  rw [strcat, same]
  exact strcpy_fits maxString whole fits

/-- There is a line, since every variable has a value. -/
theorem lines_nonempty (settings : List Setting)
    (valued : ∀ setting ∈ settings, setting.values ≠ []) : lines settings ≠ [] := by
  have first : settings.map (fun _ => 0) ∈ choices (counts settings) := by
    rw [mem_choices, counts, List.forall₂_map_left_iff, List.forall₂_map_right_iff,
      List.forall₂_same]
    exact fun setting member => List.length_pos_iff.mpr (valued setting member)
  rw [lines]
  exact List.ne_nil_of_mem (List.mem_map_of_mem first)

/-- What the passes over the values of a variable print, if each of them prints what it
should. The text before is put together anew for every value. -/
theorem printRecursive_passes (state : State) (settings : List Setting)
    (known : settingsOf state = some settings) (setting : Setting) (n : Nat) (s : List Char)
    (here : settings[n]? = some setting) (result : List Char → List (List Char))
    (fits : ∀ value ∈ setting.values,
      (s ++ (setting.name ++ '_' :: value)).length < maxString)
    (each : ∀ value ∈ setting.values, (if _later : n + 1 < settings.length then do
        let mystring ← strcat maxString (s ++ (setting.name ++ '_' :: value)) ['_']
        printPermutationsRecursive state (n + 1) settings.length mystring
      else some [s ++ (setting.name ++ '_' :: value)]) = some (result value)) :
    printPermutationsRecursive state n settings.length s =
      some (setting.values.flatMap result) := by
  obtain ⟨var, found, named, valued⟩ := var_known state settings n setting known here
  rw [printPermutationsRecursive, found, Option.bind_eq_bind, Option.bind_some]
  have printed := mapM_through (string state.argv) (fun pointer => do
    let mystring ← strcpy maxString s
    let name ← string state.argv var.name
    let mystring ← strcat maxString mystring name
    let mystring ← strcat maxString mystring ['_']
    let value ← string state.argv pointer
    let mystring ← strcat maxString mystring value
    if _later : n + 1 < settings.length then
      let mystring ← strcat maxString mystring ['_']
      printPermutationsRecursive state (n + 1) settings.length mystring
    else some [mystring]) result var.conf setting.values valued (by
      intro pointer value member read
      have size := fits value member
      rw [List.length_append, List.length_append, List.length_cons] at size
      have copied := strcpy_fits maxString s (by omega)
      have one := strcat_fits s setting.name (s ++ setting.name) rfl (by simp; omega)
      have two := strcat_fits (s ++ setting.name) ['_'] (s ++ setting.name ++ ['_']) rfl
        (by simp; omega)
      have three := strcat_fits (s ++ setting.name ++ ['_']) value
        (s ++ (setting.name ++ '_' :: value)) (by simp) (fits value member)
      simp only [copied, named, one, two, read, three, Option.bind_eq_bind, Option.bind_some]
      exact each value member)
  rw [List.flatMap_def]
  exact (congrArg (fun results => results.bind fun printed => some printed.flatten) printed)

/-- The lines behind `s` are printed, if all of them fit. By induction on the variables
that are left; that the whole lines fit is more than their beginnings need. -/
theorem printRecursive_fits (state : State) (settings : List Setting)
    (known : settingsOf state = some settings)
    (valued : ∀ setting ∈ settings, setting.values ≠ []) (setting : Setting)
    (later : List Setting) (n : Nat) (s : List Char)
    (ahead : settings.drop n = setting :: later)
    (fits : ∀ line ∈ lines (setting :: later), (s ++ line).length < maxString) :
    printPermutationsRecursive state n settings.length s =
      some ((lines (setting :: later)).map (s ++ ·)) := by
  have here : settings[n]? = some setting := by
    rw [← List.head?_drop, ahead]
    rfl
  have size := congrArg List.length ahead
  rw [List.length_drop, List.length_cons] at size
  induction later generalizing setting n s with
  | nil =>
    rw [lines_single] at fits ⊢
    have each (value : List Char) (member : value ∈ setting.values) :=
      fits (setting.name ++ '_' :: value)
        (List.mem_flatMap.mpr ⟨value, member, List.mem_singleton_self _⟩)
    have last : ¬n + 1 < settings.length := by
      rw [List.length_nil] at size
      omega
    rw [printRecursive_passes state settings known setting n s here
      (fun value => [s ++ (setting.name ++ '_' :: value)]) each fun value _ => dif_neg last,
      List.map_flatMap]
    rfl
  | cons next later inductionHypothesis =>
    have aheadNext : settings.drop (n + 1) = next :: later := by
      rw [← List.drop_drop, ahead]
      rfl
    have hereNext : settings[n + 1]? = some next := by
      rw [← List.head?_drop, aheadNext]
      rfl
    have further : n + 1 < settings.length := by
      rw [List.length_cons] at size
      omega
    have sizeNext : settings.length - (n + 1) = later.length + 1 := by
      rw [List.length_cons] at size
      omega
    have some : next :: later ≠ [] := List.cons_ne_nil _ _
    rw [lines_cons setting _ some] at fits ⊢
    have long (value : List Char) (member : value ∈ setting.values) (line : List Char)
        (listed : line ∈ lines (next :: later)) :
        (s ++ (setting.name ++ '_' :: value) ++ ['_'] ++ line).length < maxString := by
      have fit := fits (setting.name ++ '_' :: value ++ '_' :: line)
        (List.mem_flatMap.mpr ⟨value, member, List.mem_map_of_mem listed⟩)
      simpa using fit
    obtain ⟨line, listed⟩ := List.exists_mem_of_ne_nil _ (lines_nonempty (next :: later)
      fun other member => valued other (List.mem_of_mem_drop (aheadNext ▸ member)))
    have before (value : List Char) (member : value ∈ setting.values) :
        (s ++ (setting.name ++ '_' :: value) ++ ['_']).length < maxString := by
      have fit := long value member line listed
      rw [List.length_append] at fit
      omega
    rw [printRecursive_passes state settings known setting n s here
      (fun value => (lines (next :: later)).map
        (s ++ (setting.name ++ '_' :: value) ++ ['_'] ++ ·))
      (fun value member => by
        have fit := before value member
        rw [List.length_append] at fit
        omega)
      fun value member => by
        rw [dif_pos further, strcat_fits _ ['_'] _ rfl (before value member)]
        exact inductionHypothesis next (n + 1) _ aheadNext (long value member) hereNext sizeNext,
      List.map_flatMap]
    simp [List.map_map, Function.comp_def]

/-- All lines are printed, if they fit into the buffer that each of them is put together in. -/
theorem print_fits (state : State) (settings : List Setting)
    (known : settingsOf state = some settings) (some : settings ≠ [])
    (valued : ∀ setting ∈ settings, setting.values ≠ [])
    (fits : ∀ line ∈ lines settings, line.length < maxString) :
    printPermutations state = .some (lines settings) := by
  have size : state.vars.length = settings.length :=
    ((mapM_pairs _ _ _).mp known).length_eq
  cases settings with
  | nil => exact absurd rfl some
  | cons setting later =>
    have printed := printRecursive_fits state (setting :: later) known valued setting later 0 [] rfl
      fits
    rw [printPermutations, size, printed]
    simp

end Printing

section Acceptance

/-- A setting as the usage asks for it: a name and values, all of letters and digits. -/
structure Declared (setting : Setting) : Prop where
  name : Alnum setting.name
  named : setting.name ≠ []
  values : ∀ value ∈ setting.values, Alnum value ∧ value ≠ []
  valued : setting.values ≠ []

/-- There is room for the settings, and for their lines. The lines are those of all
choices of values, so the longest values count. -/
structure WithinLimits (settings : List Setting) : Prop where
  vars : settings.length ≤ maxVars
  conf : ∀ setting ∈ settings, setting.values.length ≤ maxConf
  lines : ∀ line ∈ lines settings, line.length < maxString

/-- Settings that the arguments declare: they are its written form, as the usage asks
for it, and there is room for them. -/
structure Describes (settings : List Setting) (arguments : List CString) : Prop where
  spells : Spells settings arguments
  declared : ∀ setting ∈ settings, Declared setting
  limits : WithinLimits settings

/-- The program accepts the arguments that declare settings, and no others; it records these
settings, and no access is outside of an array. -/
def Accepts (program : List Char) (arguments : List CString) : Prop :=
  ∃ state, parseCommandline (program :: arguments.map CString.memory) = some state ∧
    (0 < state.vars.length ↔ arguments ≠ [] ∧ ∃ settings, Describes settings arguments) ∧
    (∀ settings, Describes settings arguments → settingsOf state = some settings) ∧
    (0 < state.vars.length → ∃ printed, printPermutations state = some printed)

/-- The program reads what is declared. -/
theorem Declared.readable (setting : Setting) (declared : Declared setting) :
    setting.Readable where
  name := declared.name
  values value member := (declared.values value member).1
  last := by
    refine ⟨setting.values.getLast declared.valued, List.getLast?_eq_some_getLast _, ?_⟩
    exact (declared.values _ (List.getLast_mem _)).2

/-- There is room for declared settings within the limits. -/
theorem declared_fine (settings : List Setting)
    (declared : ∀ setting ∈ settings, Declared setting) (limits : WithinLimits settings) :
    ∀ setting ∈ settings, setting.Fine := by
  intro setting member
  exact ⟨(declared setting member).readable, limits.conf setting member⟩

/-- Settings that are read are recorded, one after the other, each behind the ones
before it. -/
theorem recorded (program : List Char) (settings : List Setting)
    (fine : ∀ setting ∈ settings, setting.Fine) (room : settings.length ≤ maxVars) :
    ∃ state, parseCommandline (program :: settings.map Setting.memory) = some state ∧
      state.vars.length = settings.length ∧ settingsOf state = some settings := by
  refine ⟨_, parse_settings program settings fine room, table_length 1 settings, ?_⟩
  exact settings_table [program] settings fun setting member => (fine setting member).readable

/-- What is declared is recorded. -/
theorem Describes.recorded (program : List Char) (settings : List Setting)
    (arguments : List CString) (describes : Describes settings arguments) :
    ∃ state, parseCommandline (program :: arguments.map CString.memory) = some state ∧
      state.vars.length = settings.length ∧ settingsOf state = some settings := by
  rw [spelled_memory settings arguments describes.spells]
  exact Permutations.recorded program settings
    (declared_fine settings describes.declared describes.limits) describes.limits.vars

/-- An argument that is refused is not declared, since a declared one is the written
form of a setting that can be read. -/
theorem refused_undeclared (arguments : List CString) (refused : RefusedEarly arguments)
    (settings : List Setting) : ¬Describes settings arguments := by
  intro describes
  obtain ⟨_, before, bad, after, rfl, -, -, -, wrong, -⟩ := refused
  have listed : bad.text ∈ settings.map Setting.written := by
    rw [describes.spells]
    simp
  obtain ⟨setting, member, written⟩ := List.mem_map.mp listed
  exact wrong setting (describes.declared setting member).readable written

/-- The arguments have to be declared settings within the limits, or to be refused
before a limit is reached; an empty name and empty values in front of the last one are
not refused. Nothing is asked of the arguments. Where both alternatives fail, a setting
is written behind the arrays, or one that the usage does not allow is recorded. -/
theorem accepts_iff (program : List Char) (arguments : List CString) :
    Accepts program arguments ↔
      (∃ settings, Describes settings arguments) ∨ RefusedEarly arguments := by
  constructor
  · rintro ⟨state, parsed, counted, -, -⟩
    by_cases refused : RefusedEarly arguments
    · exact .inr refused
    · by_cases fine : ∃ settings, Spells settings arguments ∧
          (∀ setting ∈ settings, setting.Fine) ∧ settings.length ≤ maxVars
      · obtain ⟨settings, spells, fines, room⟩ := fine
        obtain ⟨other, same, length, -⟩ := recorded program settings fines room
        rw [spelled_memory settings arguments spells] at parsed
        obtain rfl := Option.some.inj (parsed.symm.trans same)
        by_cases none : arguments = []
        · subst none
          have empty : WithinLimits [] := ⟨Nat.zero_le _, by simp, by decide⟩
          exact .inl ⟨[], rfl, by simp, empty⟩
        · rw [length, spelled_length settings arguments spells] at counted
          exact .inl (counted.mp (List.length_pos_iff.mpr none)).2
      · rw [parse_outside program arguments refused fine] at parsed
        cases parsed
  · rintro (⟨settings, describes⟩ | refused)
    · obtain ⟨state, parsed, length, read⟩ := describes.recorded program
      refine ⟨state, parsed, ?_, ?_, ?_⟩
      · rw [length, spelled_length settings arguments describes.spells, List.length_pos_iff]
        exact ⟨fun some => ⟨some, settings, describes⟩, fun accepted => accepted.1⟩
      · intro others same
        obtain ⟨_, again, -, readOthers⟩ := same.recorded program
        obtain rfl := Option.some.inj (parsed.symm.trans again)
        exact readOthers
      · intro some
        rw [length, List.length_pos_iff] at some
        exact ⟨_, print_fits state settings read some
          (fun setting member => (describes.declared setting member).valued)
          describes.limits.lines⟩
    · refine ⟨_, parse_refused program arguments refused, ?_, ?_, ?_⟩
      · constructor
        · exact fun some => absurd some (Nat.lt_irrefl 0)
        · rintro ⟨-, settings, describes⟩
          exact absurd describes (refused_undeclared arguments refused settings)
      · exact fun settings describes =>
          absurd describes (refused_undeclared arguments refused settings)
      · exact fun some => absurd some (Nat.lt_irrefl 0)

/-- `A=,b` has an empty value, and is not refused. -/
theorem empty_value_accepted :
    ¬Accepts [] [⟨['A', '=', ',', 'b'], by decide⟩] := by
  rintro ⟨state, parsed, counted, read, -⟩
  have fine : ∀ setting ∈ [Setting.mk ['A'] [[], ['b']]], setting.Fine := by
    intro setting member
    obtain rfl := List.mem_singleton.mp member
    exact ⟨⟨by decide, by decide, ['b'], rfl, by decide⟩, by decide⟩
  obtain ⟨other, same, length, settings⟩ :=
    recorded [] [⟨['A'], [[], ['b']]⟩] fine (by decide)
  obtain rfl := Option.some.inj (parsed.symm.trans same)
  rw [length] at counted
  obtain ⟨-, declared, describes⟩ := counted.mp Nat.one_pos
  have known := read declared describes
  rw [settings] at known
  obtain rfl := Option.some.inj known
  have values := (describes.declared _ List.mem_cons_self).values [] List.mem_cons_self
  exact values.2 rfl

end Acceptance

end ScicosFlex.Confparser.Permutations
