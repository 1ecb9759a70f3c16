import ScicosFlex.Confparser.Grammar
import ScicosFlex.Library.Choices
import ScicosFlex.Library.Sequences

/-!
# The command line of `confparser_mux`, and what it prints
-/

namespace ScicosFlex.Confparser.CommandLine

open Grammar Library.CStrings Library.Choices Library.Sequences Mux

section Parsing

/-- The variables of consecutive arguments, once these are cut. -/
def table (i : Nat) : List Setting → List Variable
  | [] => []
  | setting :: settings => setting.var i :: table (i + 1) settings

/-- A variable for every argument. -/
theorem table_length (i : Nat) (settings : List Setting) :
    (table i settings).length = settings.length := by
  induction settings generalizing i with
  | nil => rfl
  | cons setting settings inductionHypothesis => exact congrArg (· + 1) (inductionHypothesis _)

/-- The setting of a variable, read through its pointers. -/
def readBack (argv : List (List Char)) (var : Variable) : Option Setting := do
  let name ← string argv var.name
  let values ← var.conf.mapM (string argv)
  some ⟨name, values⟩

/-- The settings of the variables. -/
def settingsOf (state : State) : Option (List Setting) := state.vars.mapM (readBack state.argv)

/-- A cut argument gives its setting back. -/
theorem readBack_var (front rest : List (List Char)) (setting : Setting)
    (readable : setting.Readable) :
    readBack (front ++ setting.cut :: rest) (setting.var front.length) = some setting := by
  have reads (offset : Nat) : string (front ++ setting.cut :: rest) ⟨front.length, offset⟩ =
      stringAt setting.cut offset := by
    simp [string]
  have named : stringAt setting.cut 0 = some setting.name := by
    have first := stringAt_eq [] setting.name (packed setting.values)
      (alnum_closed _ readable.name)
    simpa [Setting.cut, packed] using first
  have valued := strings_packed (setting.name ++ [nul]) setting.values
    fun value member => alnum_closed _ (readable.values value member)
  have whole : setting.name ++ [nul] ++ packed setting.values = setting.cut := by
    simp [Setting.cut, packed]
  rw [whole, List.length_append, List.length_singleton] at valued
  rw [readBack, Setting.var, reads, named, List.mapM_map]
  simp only [Function.comp_def, reads]
  rw [show List.mapM (fun offset => stringAt setting.cut offset)
    (starts (setting.name.length + 1) setting.values) = some setting.values from valued]
  rfl

/-- The cut arguments give their settings back. -/
theorem settings_table (front : List (List Char)) (settings : List Setting)
    (readable : ∀ setting ∈ settings, setting.Readable) :
    (table front.length settings).mapM (readBack (front ++ settings.map Setting.cut)) =
      some settings := by
  induction settings generalizing front with
  | nil => rfl
  | cons setting settings inductionHypothesis =>
    obtain ⟨here, later⟩ := List.forall_mem_cons.mp readable
    have first := readBack_var front (settings.map Setting.cut) setting here
    have others := inductionHypothesis (front ++ [setting.cut]) later
    rw [List.append_assoc, List.singleton_append, List.length_append, List.length_singleton]
      at others
    rw [List.map_cons, table, List.mapM_cons, first, others]
    rfl

/-- The next argument, and its variable. -/
theorem parseStep_eq (front rest : List (List Char)) (text : List Char) (vars : List Variable)
    (room : vars.length < maxVars) :
    parseStep ⟨front ++ text :: rest, vars⟩ front.length =
      (parseArgument front.length text).map fun parsed =>
        ⟨front ++ parsed.1 :: rest, vars ++ [parsed.2]⟩ := by
  have found : (front ++ text :: rest)[front.length]? = some text := by simp
  rw [parseStep]
  simp only [found, if_pos room, bind, Except.bind]
  cases parseArgument front.length text with
  | error failure => rfl
  | ok parsed => simp [Except.map]

/-- Arguments that there is room for are cut, one after the other. -/
theorem parse_fine (front rest : List (List Char)) (settings : List Setting)
    (vars : List Variable) (fine : ∀ setting ∈ settings, setting.Fine)
    (room : vars.length + settings.length ≤ maxVars) :
    (List.range' front.length settings.length).foldlM parseStep
        ⟨front ++ (settings.map Setting.memory ++ rest), vars⟩ =
      .ok ⟨front ++ (settings.map Setting.cut ++ rest), vars ++ table front.length settings⟩ := by
  induction settings generalizing front vars with
  | nil => simp [table, pure, Except.pure]
  | cons setting settings inductionHypothesis =>
    obtain ⟨here, later⟩ := List.forall_mem_cons.mp fine
    rw [List.length_cons] at room
    have parsed := parseArgument_written front.length setting here.readable
    rw [if_pos here.few] at parsed
    have step := parseStep_eq front (settings.map Setting.memory ++ rest) setting.memory vars
      (by omega)
    rw [Setting.memory, parsed] at step
    have others := inductionHypothesis (front ++ [setting.cut])
      (vars ++ [setting.var front.length]) later (by simp; omega)
    rw [List.length_cons, List.range'_succ, List.foldlM_cons, List.map_cons, List.cons_append,
      Setting.memory, step]
    simp only [List.append_assoc, List.singleton_append, List.length_append,
      List.length_singleton] at others
    simpa [bind, Except.bind, Except.map, table] using others

/-- The settings of all variables are read. -/
theorem parse_settings (program : List Char) (settings : List Setting)
    (fine : ∀ setting ∈ settings, setting.Fine) (room : settings.length ≤ maxVars) :
    parseCommandline (program :: settings.map Setting.memory) =
      some ⟨program :: settings.map Setting.cut, table 1 settings⟩ := by
  have parsed := parse_fine [program] [] settings [] fine (by simpa using room)
  simp only [List.append_nil, List.nil_append, List.length_singleton, List.singleton_append]
    at parsed
  rw [parseCommandline]
  simp only [List.length_cons, List.length_map, Nat.add_sub_cancel, parsed]

/-- The settings that arguments are the written form of. -/
def Spells (settings : List Setting) (arguments : List CString) : Prop :=
  settings.map Setting.written = arguments.map CString.text

/-- The arguments in the memory. -/
theorem spelled_memory (settings : List Setting) (arguments : List CString)
    (spells : Spells settings arguments) :
    arguments.map CString.memory = settings.map Setting.memory := by
  have ended := congrArg (List.map (· ++ [nul])) spells
  rw [List.map_map, List.map_map] at ended
  exact ended.symm

/-- As many arguments as settings. -/
theorem spelled_length (settings : List Setting) (arguments : List CString)
    (spells : Spells settings arguments) : settings.length = arguments.length := by
  simpa using congrArg List.length spells

/-- A loop that stops at an argument: with the error, which leaves no settings, or
outside of an array. -/
theorem parse_stops (program : List Char) (settings : List Setting) (before after : List CString)
    (bad : CString) (failure : Failure) (spells : Spells settings before)
    (fine : ∀ setting ∈ settings, setting.Fine) (room : settings.length ≤ maxVars)
    (stops : ∀ front rest, front.length = 1 + settings.length →
      parseStep ⟨front ++ bad.memory :: rest, table 1 settings⟩ (1 + settings.length) =
        .error failure) :
    parseCommandline (program :: (before ++ bad :: after).map CString.memory) =
      match failure with
      | .error => some ⟨program :: (before ++ bad :: after).map CString.memory, []⟩
      | .outside => none := by
  have parsed := parse_fine [program] (bad.memory :: after.map CString.memory) settings [] fine
    (by simpa using room)
  have stop := stops (program :: settings.map Setting.cut) (after.map CString.memory)
    (by simp [Nat.add_comm])
  simp only [List.nil_append, List.length_singleton, List.singleton_append] at parsed
  have arguments : (before ++ bad :: after).map CString.memory =
      settings.map Setting.memory ++ bad.memory :: after.map CString.memory := by
    rw [List.map_append, spelled_memory settings before spells, List.map_cons]
  have size : (program :: (before ++ bad :: after).map CString.memory).length - 1 =
      settings.length + (after.length + 1) := by
    rw [arguments]
    simp
  have split : List.range' 1 (settings.length + (after.length + 1)) =
      List.range' 1 settings.length ++
        (1 + settings.length) :: List.range' (1 + settings.length + 1) after.length := by
    rw [← List.range'_append_1, List.range'_succ]
  rw [List.cons_append] at stop
  rw [parseCommandline, size, split, List.foldlM_append, arguments, parsed]
  simp only [bind, Except.bind, List.foldlM_cons, stop]
  cases failure <;> rfl

/-- An argument that is refused while there is room for what comes before the error. -/
def RefusedEarly (arguments : List CString) : Prop :=
  ∃ settings before bad after, arguments = before ++ bad :: after ∧ Spells settings before ∧
    (∀ setting ∈ settings, setting.Fine) ∧ settings.length < maxVars ∧
    (∀ setting : Setting, setting.Readable → setting.written ≠ bad.text) ∧
    commas bad.text ≤ maxConf

/-- Then the arguments are refused. -/
theorem parse_refused (program : List Char) (arguments : List CString)
    (refused : RefusedEarly arguments) :
    parseCommandline (program :: arguments.map CString.memory) =
      some ⟨program :: arguments.map CString.memory, []⟩ := by
  obtain ⟨settings, before, bad, after, rfl, spells, fine, room, wrong, few⟩ := refused
  apply parse_stops program settings before after bad .error spells fine (Nat.le_of_lt room)
  intro front rest place
  have step := parseStep_eq front rest bad.memory (table 1 settings)
    (by rwa [table_length])
  rw [parseArgument_refused _ bad wrong, if_pos few] at step
  rw [← place, step]
  rfl

/-- Arguments are settings that there is room for, up to an argument that is not, or for
which there is no room. -/
theorem first_stop (arguments : List CString) (count : Nat) (low : count ≤ maxVars) :
    (∃ settings, Spells settings arguments ∧ (∀ setting ∈ settings, setting.Fine) ∧
      count + settings.length ≤ maxVars) ∨
    ∃ settings before bad after, arguments = before ++ bad :: after ∧ Spells settings before ∧
      (∀ setting ∈ settings, setting.Fine) ∧ count + settings.length ≤ maxVars ∧
      (count + settings.length = maxVars ∨
        ∀ setting : Setting, setting.Fine → setting.written ≠ bad.text) := by
  induction arguments generalizing count with
  | nil => exact .inl ⟨[], rfl, by simp, by simpa using low⟩
  | cons argument arguments inductionHypothesis =>
    by_cases full : count = maxVars
    · exact .inr ⟨[], [], argument, arguments, rfl, rfl, by simp, by simpa using low,
        .inl (by simpa using full)⟩
    · by_cases known : ∃ setting : Setting, setting.Fine ∧ setting.written = argument.text
      · obtain ⟨setting, fine, written⟩ := known
        have spellsMore (settings : List Setting) (others : List CString)
            (spells : Spells settings others) :
            Spells (setting :: settings) (argument :: others) := by
          rw [Spells, List.map_cons, List.map_cons, written, spells]
        rcases inductionHypothesis (count + 1) (by omega) with
          ⟨settings, spells, fines, room⟩ |
          ⟨settings, before, bad, after, rfl, spells, fines, room, stop⟩
        · refine .inl ⟨setting :: settings, spellsMore _ _ spells,
            List.forall_mem_cons.mpr ⟨fine, fines⟩, ?_⟩
          rw [List.length_cons]
          omega
        · have size : count + (setting :: settings).length = count + 1 + settings.length := by
            rw [List.length_cons]
            omega
          rw [← size] at room stop
          exact .inr ⟨setting :: settings, argument :: before, bad, after, rfl,
            spellsMore _ _ spells, List.forall_mem_cons.mpr ⟨fine, fines⟩, room, stop⟩
      · exact .inr ⟨[], [], argument, arguments, rfl, rfl, by simp, by simpa using low,
          .inr fun setting fine written => known ⟨setting, fine, written⟩⟩

/-- Arguments that are neither read nor refused early are read beyond the room for them. -/
theorem parse_outside (program : List Char) (arguments : List CString)
    (notRefused : ¬RefusedEarly arguments)
    (notFine : ¬∃ settings, Spells settings arguments ∧
      (∀ setting ∈ settings, setting.Fine) ∧ settings.length ≤ maxVars) :
    parseCommandline (program :: arguments.map CString.memory) = none := by
  rcases first_stop arguments 0 (Nat.zero_le _) with
    ⟨settings, spells, fines, room⟩ | ⟨settings, before, bad, after, rfl, spells, fines, room, stop⟩
  · exact absurd ⟨settings, spells, fines, by simpa using room⟩ notFine
  · rw [Nat.zero_add] at room stop
    apply parse_stops program settings before after bad .outside spells fines room
    intro front rest place
    by_cases full : settings.length = maxVars
    · have found : (front ++ bad.memory :: rest)[front.length]? = some bad.memory := by simp
      rw [← place, parseStep]
      simp only [found, table_length, full, Nat.lt_irrefl, if_false]
    · have space : settings.length < maxVars := Nat.lt_of_le_of_ne room full
      have step := parseStep_eq front rest bad.memory (table 1 settings) (by rwa [table_length])
      have outside : parseArgument front.length bad.memory = .error .outside := by
        by_cases read : ∃ setting : Setting, setting.Readable ∧ setting.written = bad.text
        · obtain ⟨setting, readable, written⟩ := read
          have many : ¬setting.values.length ≤ maxConf := fun few =>
            stop.resolve_left full setting ⟨readable, few⟩ written
          have parsed := parseArgument_written front.length setting readable
          rw [if_neg many, written] at parsed
          exact parsed
        · have wrong : ∀ setting : Setting, setting.Readable → setting.written ≠ bad.text :=
            fun setting readable written => read ⟨setting, readable, written⟩
          have many : ¬commas bad.text ≤ maxConf := fun few =>
            notRefused ⟨settings, before, bad, after, rfl, spells, fines, space, wrong, few⟩
          rw [parseArgument_refused _ bad wrong, if_neg many]
      rw [← place, step, outside]
      rfl

end Parsing

end ScicosFlex.Confparser.CommandLine
