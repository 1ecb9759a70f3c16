import ScicosFlex.Library.OnePass
import ScicosFlex.Library.Vectors

/-!
# Sources of a diagram

`EE_get_diagram_info` writes the files from which the generated program is compiled.
`EE_analyze_superblocks` walks through the diagram and its superblocks and collects the
computational functions of the blocks that do work, together with the symbols of their
devices. The lines of the dependency file then add the functions that these need, and
`__NO_MALLOC__` is defined if no function of the final list needs dynamic memory.

The lines are passed once, from the top. A line whose first function is added by a line
below it adds nothing. The list is what the diagram requires if and only if every chain
of lines that leads to a function is matched by a chain in the order of the file
(`sources_closed_iff`).

The files are given by their lines. What the run reports on its progress (`analysis`) is
left out. An undefined variable and an index outside a vector end the run with an error,
here `none`.
-/

namespace ScicosFlex.Codegen.DiagramInfo

open Library.OnePass Library.Vectors

/-- `tokens(text, separator)`: empty tokens are dropped. -/
def tokens (text : String) (separator : Char) : List String :=
  ((text.toList.splitOn separator).filter (· ≠ [])).map String.ofList

/-- The loop that takes a file of pairs apart. -/
def readPairs (lines : List String) : Option (List (String × String)) :=
  lines.mapM fun line => do
    let first ← entry (tokens line ',') 1
    let second ← entry (tokens line ',') 2
    some (first, second)

/-- What the analysis reads of a block that is no superblock. -/
structure Block where
  gui : String
  sim : String
  ipar : List Int
  plain : sim ≠ "super"

/-- The list `scs_m.objs`: objects of other types, superblocks with the objects inside,
and blocks. -/
inductive Objs where
  | nil
  | other (rest : Objs)
  | super (inside rest : Objs)
  | block (block : Block) (rest : Objs)

/-- The lists handed through the recursion: `B_L`, `F_L` and `S_L`. -/
structure Lists where
  blocks : List String
  functions : List String
  symbols : List String

/-- The symbol a line stands for. Where it names several, its first token numbers the
parameter of the block that chooses one of them. -/
def symbolToInsert (ipar : List Int) (symbol : String) : Option String :=
  if 2 < (tokens symbol ':').length then do
    let digit ← entry (tokens symbol ':') 1
    match digit.toList with
    | [character] =>
      let value ← entry ipar (character.toNat - '0'.toNat)
      entry (tokens symbol ':') (value + 1).toNat
    | _ => none
  else some symbol

/-- The symbols whose lines name a block. -/
def associated (pairs : List (String × String)) (gui : String) : List String :=
  (pairs.filter fun pair => pair.1 = gui).map Prod.snd

/-- The loop over the symbols associated with a block. -/
def insertSymbols (ipar : List Int) (texts symbols : List String) : Option (List String) :=
  texts.foldlM (fun listed symbol => (symbolToInsert ipar symbol).map (add listed)) symbols

section
variable (workBlocks : List String) (pairs : List (String × String))

/-- The loop body for a block. `gui_names` is defined by the lines of the symbols. -/
def visit (found : Lists) (block : Block) : Option Lists :=
  if block.gui ∈ workBlocks then some found
  else if pairs = [] then none
  else do
    let symbols ← insertSymbols block.ipar (associated pairs block.gui) found.symbols
    some
      { blocks := add found.blocks block.gui
        functions := add found.functions block.sim
        symbols := symbols }

/-- The loop over the objects of a superblock. Every level reads the same files. -/
def analyzeObjs : Objs → Lists → Option Lists
  | .nil, found => some found
  | .other rest, found => analyzeObjs rest found
  | .super inside rest, found => do
    let found ← analyzeObjs inside found
    analyzeObjs rest found
  | .block block rest, found => do
    let found ← visit workBlocks pairs found block
    analyzeObjs rest found

end

/-- `EE_analyze_superblocks`. -/
def analyzeSuperblocks (workBlocks symbols : List String) (objs : Objs) (found : Lists) :
    Option Lists := do
  let pairs ← readPairs symbols
  analyzeObjs workBlocks pairs objs found

/-- The search for a function that needs dynamic memory. It ends at the first one. -/
def dynmemFlag (functionsList : List String) : List String → Bool
  | [] => true
  | function :: rest =>
    if function ∈ functionsList then false else dynmemFlag functionsList rest

/-- `no_malloc_symbol`. -/
def noMallocSymbol : String := "__NO_MALLOC__"

/-- What the files are written from. -/
structure Info where
  name : String
  blocksList : List String
  functionsList : List String
  symbolsList : List String
  dynmemFlag : Bool

/-- The dependencies and the search for dynamic memory, behind the analysis. The loop
body for a line is `applyRule`. -/
def checkDependencies (name : String) (lines : List (String × String))
    (dynmemBlocks : List String) (found : Lists) : Info :=
  let functionsList := pass found.functions lines
  { name := name
    blocksList := found.blocks
    functionsList := functionsList
    symbolsList := found.symbols
    dynmemFlag := dynmemFlag functionsList dynmemBlocks }

/-- `EE_get_diagram_info` up to the writing of the files. `present` is defined by the
lines of the dependency file. -/
def getDiagramInfo (name : String) (workBlocks symbols funcsDep dynmemBlocks : List String)
    (objs : Objs) : Option Info := do
  let lines ← readPairs funcsDep
  let found ← analyzeSuperblocks workBlocks symbols objs ⟨[], [], []⟩
  if lines = [] then none else some (checkDependencies name lines dynmemBlocks found)

namespace Info

variable (info : Info)

/-- The switch, where it is defined. -/
def switch : List String := if info.dynmemFlag then [noMallocSymbol] else []

/-- What is defined by `scicos_symbols`. -/
def defines : List String := ("MODELNAME=" ++ info.name) :: (info.switch ++ info.symbolsList)

/-- What is defined by `EEOPT` in `app.mk`. -/
def eeopt : List String := info.switch ++ ("MODELNAME=" ++ info.name) :: info.symbolsList

/-- What is compiled by `EE_SRCS_SCICOS` in `app.mk`. -/
def sources : List String :=
  if info.blocksList = [] then [] else info.functionsList.map (· ++ ".c")

end Info

/-- A word of a file of pairs, which are separated by commas. -/
def Word (text : String) : Prop := text ≠ "" ∧ ',' ∉ text.toList

instance (text : String) : Decidable (Word text) := inferInstanceAs (Decidable (_ ∧ _))

/-- A line of a file of pairs. -/
structure Line where
  left : String
  right : String
  leftWord : Word left
  rightWord : Word right

/-- The line as the file has it. -/
def Line.text (line : Line) : String := line.left ++ "," ++ line.right

/-- The pair of a line. -/
def Line.pair (line : Line) : String × String := (line.left, line.right)

/-- The tokens of a line are its words. -/
theorem tokens_text (line : Line) : tokens line.text ',' = [line.left, line.right] := by
  have characters : line.text.toList = line.left.toList ++ ',' :: line.right.toList := by
    simp [Line.text]
  have leftWord : line.left.toList ≠ [] := by
    simpa using line.leftWord.1
  have rightWord : line.right.toList ≠ [] := by
    simpa using line.rightWord.1
  rw [tokens, characters, List.splitOn_append_cons_self_of_not_mem line.leftWord.2,
    List.splitOn_eq_singleton line.rightWord.2]
  simp [leftWord, rightWord]

/-- A file of pairs is taken apart into its pairs. -/
theorem readPairs_text (lines : List Line) :
    readPairs (lines.map Line.text) = some (lines.map Line.pair) := by
  induction lines with
  | nil => rfl
  | cons line rest inductionHypothesis =>
    rw [readPairs] at inductionHypothesis ⊢
    rw [List.map_cons, List.mapM_cons, tokens_text, inductionHypothesis]
    rfl

/-- A file of symbols, which leaves the switch alone and has single digits for choosers. -/
structure SymbolsFile where
  lines : List Line
  filled : lines ≠ []
  digits : ∀ line ∈ lines, 2 < (tokens line.right ':').length →
    (entry (tokens line.right ':') 1).any fun digit => digit.toList.length = 1
  separate : ∀ line ∈ lines, noMallocSymbol ∉ tokens line.right ':'

/-- The blocks of a diagram, of all its levels. -/
def Objs.blocks : Objs → List Block
  | .nil => []
  | .other rest => rest.blocks
  | .super inside rest => inside.blocks ++ rest.blocks
  | .block first rest => first :: rest.blocks

/-- The computational functions of the blocks that do work. -/
def functionsOf (workBlocks : List String) (blocks : List Block) : List String :=
  (blocks.filter fun block => block.gui ∉ workBlocks).map Block.sim

/-- Every symbol line of the block stands for a symbol. A line may leave the choice to a
parameter of the block, which need not be among those the line provides for. -/
def Chosen (symbols : SymbolsFile) (block : Block) : Prop :=
  ∀ line ∈ symbols.lines, line.left = block.gui →
    (symbolToInsert block.ipar line.right).isSome = true

/-- The blocks of all levels are visited one after the other. -/
theorem analyzeObjs_eq (workBlocks : List String) (pairs : List (String × String)) (objs : Objs)
    (found : Lists) :
    analyzeObjs workBlocks pairs objs found =
      objs.blocks.foldlM (visit workBlocks pairs) found := by
  induction objs generalizing found with
  | nil => rfl
  | other rest inductionHypothesis => exact inductionHypothesis found
  | super inside rest insideHypothesis restHypothesis =>
    rw [analyzeObjs, Objs.blocks, List.foldlM_append, insideHypothesis]
    congr 1
    funext between
    exact restHypothesis between
  | block block rest inductionHypothesis =>
    rw [analyzeObjs, Objs.blocks, List.foldlM_cons]
    congr 1
    funext between
    exact inductionHypothesis between

/-- The symbols of a block are inserted if every line stands for one. -/
theorem insertSymbols_isSome (ipar : List Int) (texts symbols : List String) :
    (insertSymbols ipar texts symbols).isSome = true ↔
      ∀ symbol ∈ texts, (symbolToInsert ipar symbol).isSome = true := by
  induction texts generalizing symbols with
  | nil => simp [insertSymbols]
  | cons symbol rest inductionHypothesis =>
    rw [insertSymbols, List.foldlM_cons, List.forall_mem_cons]
    cases inserted : symbolToInsert ipar symbol with
    | none => simp
    | some chosen =>
      simp only [Option.map_some, Option.isSome_some, true_and]
      exact inductionHypothesis (add symbols chosen)

/-- What is inserted comes from the lines. -/
theorem mem_insertSymbols (ipar : List Int) (texts symbols next : List String)
    (inserted : insertSymbols ipar texts symbols = some next) (name : String)
    (member : name ∈ next) :
    name ∈ symbols ∨ ∃ symbol ∈ texts, symbolToInsert ipar symbol = some name := by
  induction texts generalizing symbols with
  | nil =>
    obtain rfl := Option.some.inj inserted
    exact Or.inl member
  | cons symbol rest inductionHypothesis =>
    rw [insertSymbols, List.foldlM_cons] at inserted
    obtain ⟨between, first, inserted⟩ := Option.bind_eq_some_iff.mp inserted
    obtain ⟨chosen, answered, rfl⟩ := Option.map_eq_some_iff.mp first
    obtain old | ⟨later, inside, named⟩ := inductionHypothesis _ inserted
    · obtain old | rfl := (mem_add symbols chosen name).mp old
      · exact Or.inl old
      · exact Or.inr ⟨symbol, List.mem_cons_self, answered⟩
    · exact Or.inr ⟨later, List.mem_cons_of_mem _ inside, named⟩

/-- No line stands for the switch. -/
theorem symbolToInsert_ne (symbols : SymbolsFile) (ipar : List Int) (line : Line)
    (inside : line ∈ symbols.lines) :
    symbolToInsert ipar line.right ≠ some noMallocSymbol := by
  intro inserted
  have separate := symbols.separate line inside
  rw [symbolToInsert] at inserted
  split at inserted
  · obtain ⟨digit, -, inserted⟩ := Option.bind_eq_some_iff.mp inserted
    split at inserted
    · obtain ⟨value, -, inserted⟩ := Option.bind_eq_some_iff.mp inserted
      exact separate (mem_of_entry _ _ _ inserted)
    · cases inserted
  · rw [Option.some.injEq] at inserted
    rw [inserted] at separate
    exact separate (by decide)

/-- The symbols associated with a block. -/
theorem mem_associated (symbols : SymbolsFile) (gui text : String) :
    text ∈ associated (symbols.lines.map Line.pair) gui ↔
      ∃ line ∈ symbols.lines, line.left = gui ∧ line.right = text := by
  simp only [associated, List.mem_map, List.mem_filter, decide_eq_true_eq]
  constructor
  · rintro ⟨pair, ⟨⟨line, inside, rfl⟩, named⟩, rfl⟩
    exact ⟨line, inside, named, rfl⟩
  · rintro ⟨line, inside, named, rfl⟩
    exact ⟨line.pair, ⟨⟨line, inside, rfl⟩, named⟩, rfl⟩

/-- What holds behind the blocks visited: each of their functions has been found once,
in the order of the first block that has it, and the switch is not among the symbols. -/
structure Tracked (workBlocks : List String) (visited : List Block) (found : Lists) : Prop where
  functions : found.functions = (functionsOf workBlocks visited).foldl add []
  blocks : found.blocks = [] → found.functions = []
  separate : noMallocSymbol ∉ found.symbols

section
variable (workBlocks : List String) (symbols : SymbolsFile)

/-- What the loop body does for a block that does work. -/
theorem visit_working (found : Lists) (block : Block) (working : block.gui ∉ workBlocks) :
    visit workBlocks (symbols.lines.map Line.pair) found block =
      (insertSymbols block.ipar (associated (symbols.lines.map Line.pair) block.gui)
        found.symbols).map fun listed =>
          ⟨add found.blocks block.gui, add found.functions block.sim, listed⟩ := by
  have filled : symbols.lines.map Line.pair ≠ [] := by
    simpa using symbols.filled
  rw [visit, if_neg working, if_neg filled]
  exact Option.map_eq_bind.symm

/-- The only error of the loop body is a symbol that cannot be chosen. -/
theorem visit_isSome (found : Lists) (block : Block) :
    (visit workBlocks (symbols.lines.map Line.pair) found block).isSome = true ↔
      (block.gui ∉ workBlocks → Chosen symbols block) := by
  by_cases working : block.gui ∈ workBlocks
  · simp [visit, working]
  · rw [visit_working workBlocks symbols found block working, Option.isSome_map,
      insertSymbols_isSome]
    simp only [mem_associated, working, not_false_eq_true, forall_const]
    constructor
    · intro each line inside named
      exact each line.right ⟨line, inside, named, rfl⟩
    · rintro chosen _ ⟨line, inside, named, rfl⟩
      exact chosen line inside named

/-- A block visited keeps the tracking. -/
theorem tracked_visit (visited : List Block) (found next : Lists) (block : Block)
    (tracked : Tracked workBlocks visited found)
    (done : visit workBlocks (symbols.lines.map Line.pair) found block = some next) :
    Tracked workBlocks (visited ++ [block]) next := by
  by_cases working : block.gui ∈ workBlocks
  · rw [visit, if_pos working] at done
    obtain rfl := Option.some.inj done
    refine ⟨?_, tracked.blocks, tracked.separate⟩
    simpa [functionsOf, working] using tracked.functions
  · rw [visit_working workBlocks symbols found block working] at done
    obtain ⟨listed, inserted, rfl⟩ := Option.map_eq_some_iff.mp done
    refine ⟨?_, fun none => absurd none (add_ne_nil _ _), ?_⟩
    · simp [functionsOf, working, tracked.functions]
    · intro member
      obtain old | ⟨text, inside, chosen⟩ := mem_insertSymbols _ _ _ _ inserted _ member
      · exact tracked.separate old
      · obtain ⟨line, lined, -, rfl⟩ := (mem_associated symbols block.gui text).mp inside
        exact symbolToInsert_ne symbols block.ipar line lined chosen

/-- The run over the blocks ends without an error if every symbol can be chosen, and
only then; a block that does no work is not asked for symbols. -/
theorem visits_isSome (blocks : List Block) (found : Lists) :
    (blocks.foldlM (visit workBlocks (symbols.lines.map Line.pair)) found).isSome = true ↔
      ∀ block ∈ blocks, block.gui ∉ workBlocks → Chosen symbols block := by
  induction blocks generalizing found with
  | nil => simp
  | cons block rest inductionHypothesis =>
    have first := visit_isSome workBlocks symbols found block
    rw [List.foldlM_cons, List.forall_mem_cons, ← first]
    cases visit workBlocks (symbols.lines.map Line.pair) found block with
    | none => simp
    | some next =>
      simp only [Option.isSome_some, true_and]
      exact inductionHypothesis next

/-- The blocks that follow keep the tracking. -/
theorem tracked_run (rest visited : List Block) (found final : Lists)
    (tracked : Tracked workBlocks visited found)
    (done : rest.foldlM (visit workBlocks (symbols.lines.map Line.pair)) found = some final) :
    Tracked workBlocks (visited ++ rest) final := by
  induction rest generalizing visited found with
  | nil =>
    obtain rfl := Option.some.inj done
    rwa [List.append_nil]
  | cons block rest inductionHypothesis =>
    rw [List.foldlM_cons] at done
    obtain ⟨next, first, done⟩ := Option.bind_eq_some_iff.mp done
    rw [List.append_cons]
    exact inductionHypothesis (visited ++ [block]) next
      (tracked_visit workBlocks symbols visited found next block tracked first) done

end

/-- The flag stays up if the lists share no function. -/
theorem dynmemFlag_iff (functionsList dynmemBlocks : List String) :
    dynmemFlag functionsList dynmemBlocks = true ↔ ∀ f ∈ functionsList, f ∉ dynmemBlocks := by
  induction dynmemBlocks with
  | nil => simp [dynmemFlag]
  | cons function rest inductionHypothesis =>
    rw [dynmemFlag]
    split
    · next listed =>
      constructor
      · intro impossible
        cases impossible
      · intro disjoint
        exact absurd List.mem_cons_self (disjoint function listed)
    · next missing =>
      rw [inductionHypothesis]
      constructor
      · rintro disjoint f inside (_ | ⟨_, later⟩)
        · exact missing inside
        · exact disjoint f inside later
      · intro disjoint f inside later
        exact disjoint f inside (List.mem_cons_of_mem _ later)

/-- The name of the model is not the switch. -/
theorem name_ne (name : String) : noMallocSymbol ≠ "MODELNAME=" ++ name := by
  intro same
  have characters := congrArg String.toList same
  rw [String.toList_append] at characters
  simp [noMallocSymbol] at characters

/-- The switch is defined for the compiler, in both files, if the flag is up. -/
theorem Info.switch_iff (info : Info) (separate : noMallocSymbol ∉ info.symbolsList) :
    (noMallocSymbol ∈ info.defines ↔ info.dynmemFlag = true) ∧
      (noMallocSymbol ∈ info.eeopt ↔ info.dynmemFlag = true) := by
  simp only [Info.defines, Info.eeopt, Info.switch, List.mem_cons, List.mem_append, name_ne,
    separate, false_or, or_false]
  cases info.dynmemFlag with
  | true => simp
  | false => simp

/-- The list is what the diagram requires, and the switch is defined if no function of
it needs dynamic memory. -/
structure Complete (workBlocks : List String) (dependencies : List Line)
    (dynmemBlocks : List String) (objs : Objs) (info : Info) : Prop where
  distinct : info.functionsList.Nodup
  collected : ∀ f ∈ functionsOf workBlocks objs.blocks, f ∈ info.functionsList
  closed : ∀ line ∈ dependencies,
    line.left ∈ info.functionsList → line.right ∈ info.functionsList
  required : ∀ f ∈ info.functionsList,
    Required (functionsOf workBlocks objs.blocks) (dependencies.map Line.pair) f
  defined : noMallocSymbol ∈ info.defines ↔ ∀ f ∈ info.functionsList, f ∉ dynmemBlocks
  passed : noMallocSymbol ∈ info.eeopt ↔ ∀ f ∈ info.functionsList, f ∉ dynmemBlocks

/-- The run is the analysis of all levels, followed by the pass over the lines. The
levels can be laid out in one list, as a superblock only hands on what it has found. -/
theorem getDiagramInfo_eq (name : String) (workBlocks : List String) (symbols : SymbolsFile)
    (dependencies : List Line) (dynmemBlocks : List String) (objs : Objs)
    (filled : dependencies ≠ []) :
    getDiagramInfo name workBlocks (symbols.lines.map Line.text) (dependencies.map Line.text)
        dynmemBlocks objs =
      (objs.blocks.foldlM (visit workBlocks (symbols.lines.map Line.pair)) ⟨[], [], []⟩).map
        (checkDependencies name (dependencies.map Line.pair) dynmemBlocks) := by
  have lines : dependencies.map Line.pair ≠ [] := by
    simpa using filled
  simp only [getDiagramInfo, analyzeSuperblocks, readPairs_text, Option.bind_eq_bind,
    Option.bind_some, analyzeObjs_eq, if_neg lines]
  exact Option.map_eq_bind.symm

section
variable (workBlocks : List String) (dependencies : List Line) (dynmemBlocks : List String)
  (objs : Objs) (found : Lists)

/-- The functions found are those of the blocks. -/
theorem mem_found (tracked : Tracked workBlocks objs.blocks found) (f : String) :
    f ∈ found.functions ↔ f ∈ functionsOf workBlocks objs.blocks := by
  rw [tracked.functions, mem_addAll]
  simp

/-- Behind the analysis everything but the closure is settled. -/
theorem complete_iff_closed (name : String) (tracked : Tracked workBlocks objs.blocks found) :
    Complete workBlocks dependencies dynmemBlocks objs
        (checkDependencies name (dependencies.map Line.pair) dynmemBlocks found) ↔
      Closed (pass found.functions (dependencies.map Line.pair)) (dependencies.map Line.pair) := by
  have distinct : found.functions.Nodup := by
    rw [tracked.functions]
    exact addAll_nodup [] _ List.nodup_nil
  have same := mem_found workBlocks objs found tracked
  constructor
  · intro complete rule inside
    obtain ⟨line, lined, rfl⟩ := List.mem_map.mp inside
    exact complete.closed line lined
  · intro closed
    let info := checkDependencies name (dependencies.map Line.pair) dynmemBlocks found
    have flag : info.dynmemFlag = true ↔ ∀ f ∈ info.functionsList, f ∉ dynmemBlocks :=
      dynmemFlag_iff _ dynmemBlocks
    obtain ⟨defined, passed⟩ := info.switch_iff tracked.separate
    refine ⟨pass_nodup _ _ distinct, ?_, ?_, ?_, defined.trans flag, passed.trans flag⟩
    · intro f member
      exact mem_pass_of_mem _ _ f ((same f).mpr member)
    · intro line inside
      exact closed line.pair (List.mem_map_of_mem inside)
    · intro f member
      exact required_mono _ _ _ f (fun y => (same y).mp) (required_of_mem_pass _ _ f member)

/-- The pass closes the list if and only if chains in the order of the file lead to
everything the diagram requires. -/
theorem complete_iff_ordered (name : String) (tracked : Tracked workBlocks objs.blocks found) :
    Complete workBlocks dependencies dynmemBlocks objs
        (checkDependencies name (dependencies.map Line.pair) dynmemBlocks found) ↔
      ∀ f, Required (functionsOf workBlocks objs.blocks) (dependencies.map Line.pair) f →
        InOrder (functionsOf workBlocks objs.blocks) (dependencies.map Line.pair) f := by
  have same := mem_found workBlocks objs found tracked
  rw [complete_iff_closed workBlocks dependencies dynmemBlocks objs found name tracked, closed_iff]
  simp only [InOrder, same]
  constructor
  · intro ordered f required
    exact ordered f (required_mono _ _ _ f (fun y => (same y).mpr) required)
  · intro ordered f required
    exact ordered f (required_mono _ _ _ f (fun y => (same y).mp) required)

end

/-- The sources are those of the functions of the list, also of an empty one. -/
theorem sources_eq (workBlocks : List String) (visited : List Block) (found : Lists)
    (name : String) (lines : List (String × String)) (dynmemBlocks : List String)
    (tracked : Tracked workBlocks visited found) :
    (checkDependencies name lines dynmemBlocks found).sources =
      (checkDependencies name lines dynmemBlocks found).functionsList.map (· ++ ".c") := by
  rw [Info.sources]
  split
  · next none =>
    have functionsList : pass found.functions lines = [] := by
      rw [tracked.blocks none]
      apply List.eq_nil_iff_forall_not_mem.mpr
      intro f member
      obtain ⟨first, impossible, -⟩ := (mem_pass [] lines f).mp member
      cases impossible
    rw [checkDependencies, functionsList]
    rfl
  · rfl

/-- Before the analysis nothing has been found. -/
theorem tracked_nil (workBlocks : List String) : Tracked workBlocks [] ⟨[], [], []⟩ :=
  ⟨rfl, fun _ => rfl, List.not_mem_nil⟩

/-- For every diagram and every pair of tables, the run ends with the list the diagram
requires and the right switch if and only if the dependency file has a line, every symbol
line of a block that does work stands for a symbol, and to whatever a chain of lines leads
a chain in the order of the file leads as well. -/
theorem sources_closed_iff (name : String) (workBlocks : List String) (symbols : SymbolsFile)
    (dependencies : List Line) (dynmemBlocks : List String) (objs : Objs) :
    (∃ info, getDiagramInfo name workBlocks (symbols.lines.map Line.text)
          (dependencies.map Line.text) dynmemBlocks objs = some info ∧
        Complete workBlocks dependencies dynmemBlocks objs info) ↔
      dependencies ≠ [] ∧
        (∀ block ∈ objs.blocks, block.gui ∉ workBlocks → Chosen symbols block) ∧
        ∀ f, Required (functionsOf workBlocks objs.blocks) (dependencies.map Line.pair) f →
          InOrder (functionsOf workBlocks objs.blocks) (dependencies.map Line.pair) f := by
  have chosen := visits_isSome workBlocks symbols objs.blocks ⟨[], [], []⟩
  have run := tracked_run workBlocks symbols objs.blocks [] ⟨[], [], []⟩
  constructor
  · rintro ⟨info, answered, complete⟩
    have filled : dependencies ≠ [] := by
      rintro rfl
      rw [getDiagramInfo] at answered
      obtain ⟨lines, none, answered⟩ := Option.bind_eq_some_iff.mp answered
      obtain rfl := Option.some.inj none
      obtain ⟨found, -, impossible⟩ := Option.bind_eq_some_iff.mp answered
      cases impossible
    rw [getDiagramInfo_eq _ _ _ _ _ _ filled] at answered
    obtain ⟨found, analyzed, rfl⟩ := Option.map_eq_some_iff.mp answered
    have tracked := run found (tracked_nil workBlocks) analyzed
    have closure :=
      complete_iff_ordered workBlocks dependencies dynmemBlocks objs found name tracked
    exact ⟨filled, chosen.mp (by rw [analyzed]; rfl), closure.mp complete⟩
  · rintro ⟨filled, symbolic, ordered⟩
    obtain ⟨found, analyzed⟩ := Option.isSome_iff_exists.mp (chosen.mpr symbolic)
    have tracked := run found (tracked_nil workBlocks) analyzed
    have closure :=
      complete_iff_ordered workBlocks dependencies dynmemBlocks objs found name tracked
    refine ⟨_, ?_, closure.mpr ordered⟩
    rw [getDiagramInfo_eq _ _ _ _ _ _ filled, analyzed]
    rfl

/-- The line of the symbols for LEDs. -/
def ledSymbols : SymbolsFile where
  lines := [⟨"FLEX_led", "__USE_LEDS__", by decide, by decide⟩]
  filled := by decide
  digits := by decide
  separate := by decide

/-- A table whose second line asks for the first one. -/
def lateLines : List Line :=
  [⟨"dmmul", "dmmul1", by decide, by decide⟩, ⟨"gainblk", "dmmul", by decide, by decide⟩]

/-- A gain in a superblock. -/
def gainDiagram : Objs := .super (.block ⟨"GAINBLK", "gainblk", [], by decide⟩ .nil) .nil

/-- Not every table is closed by one pass: the gain needs the matrix product, whose line
stands above, so that the source it needs is missed. -/
theorem line_above_missed :
    ¬ ∀ (name : String) (workBlocks : List String) (symbols : SymbolsFile)
      (dependencies : List Line) (dynmemBlocks : List String) (objs : Objs),
      dependencies ≠ [] →
      (∀ block ∈ objs.blocks, block.gui ∉ workBlocks → Chosen symbols block) →
      ∃ info, getDiagramInfo name workBlocks (symbols.lines.map Line.text)
          (dependencies.map Line.text) dynmemBlocks objs = some info ∧
        Complete workBlocks dependencies dynmemBlocks objs info := by
  intro always
  have chosen : ∀ block ∈ gainDiagram.blocks, block.gui ∉ ["SPLIT_f"] →
      Chosen ledSymbols block := by
    rintro block (_ | ⟨_, impossible⟩) - line (_ | ⟨_, impossible⟩) named
    · exact absurd named (by decide)
    all_goals cases impossible
  obtain ⟨info, answered, complete⟩ :=
    always "model" ["SPLIT_f"] ledSymbols lateLines [] gainDiagram (List.cons_ne_nil _ _) chosen
  have listed : (getDiagramInfo "model" ["SPLIT_f"] (ledSymbols.lines.map Line.text)
      (lateLines.map Line.text) [] gainDiagram).map Info.functionsList =
        some ["gainblk", "dmmul"] := by
    decide
  rw [answered, Option.map_some, Option.some.injEq] at listed
  have missing := complete.closed _ List.mem_cons_self
  rw [listed] at missing
  exact absurd (missing (by decide)) (by decide)

/-- The dependency file of the toolbox. -/
def functionsDependencies : List Line :=
  [⟨"csslti4", "dmmul", by decide, by decide⟩,
    ⟨"csslti4", "dmmul1", by decide, by decide⟩,
    ⟨"dsslti4", "dmmul", by decide, by decide⟩,
    ⟨"dsslti4", "dmmul1", by decide, by decide⟩,
    ⟨"gainblk", "dmmul", by decide, by decide⟩,
    ⟨"matmul_m", "dmmul", by decide, by decide⟩]

/-- A file in which no line adds a function that a line above it asks for yields what the
diagram requires. -/
theorem sorted_complete (name : String) (workBlocks : List String) (symbols : SymbolsFile)
    (dependencies : List Line) (dynmemBlocks : List String) (objs : Objs)
    (filled : dependencies ≠ [])
    (sorted : dependencies.Pairwise fun earlier later => later.right ≠ earlier.left)
    (chosen : ∀ block ∈ objs.blocks, block.gui ∉ workBlocks → Chosen symbols block) :
    ∃ info, getDiagramInfo name workBlocks (symbols.lines.map Line.text)
        (dependencies.map Line.text) dynmemBlocks objs = some info ∧
      Complete workBlocks dependencies dynmemBlocks objs info := by
  obtain ⟨found, analyzed⟩ := Option.isSome_iff_exists.mp
    ((visits_isSome workBlocks symbols objs.blocks ⟨[], [], []⟩).mpr chosen)
  have tracked := tracked_run workBlocks symbols objs.blocks [] _ found (tracked_nil workBlocks)
    analyzed
  have closed := closed_of_sorted found.functions (dependencies.map Line.pair)
    (List.pairwise_map.mpr sorted)
  refine ⟨checkDependencies name (dependencies.map Line.pair) dynmemBlocks found, ?_, ?_⟩
  · rw [getDiagramInfo_eq _ _ _ _ _ _ filled, analyzed]
    rfl
  · exact (complete_iff_closed workBlocks dependencies dynmemBlocks objs found name tracked).mpr
      closed

/-- The file of the toolbox is such a file. -/
theorem functionsDependencies_sorted :
    functionsDependencies ≠ [] ∧
      functionsDependencies.Pairwise fun earlier later => later.right ≠ earlier.left := by
  refine ⟨List.cons_ne_nil _ _, ?_⟩
  simp [functionsDependencies]

end ScicosFlex.Codegen.DiagramInfo
