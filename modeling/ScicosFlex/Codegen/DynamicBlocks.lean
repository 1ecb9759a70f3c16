import ScicosFlex.Library.FirstOccurrences
import ScicosFlex.Library.Vectors

/-!
# The sources of dynamically linked blocks

`gen_blocks` of `FlexCodeGen_.sci` collects the sources that the user has written into
blocks of C and of Fortran: two lists in which the name of a function is followed by its
source. `write_code` writes the sources to two files.

A function that several blocks share comes once, with the source of the first of them. The
loop over several blocks writes the name of the first block in front of every Fortran
source, so that the lists are right exactly if the first block is the only one in Fortran
(`sources_paired_iff`).

The text of a file that the compiler of Modelica generates is an argument. An index outside
a vector ends the run with an error.
-/

namespace ScicosFlex.Codegen.DynamicBlocks

open Library.Vectors Library.FirstOccurrences

/-- The lines of a text. -/
abbrev Text := List String

/-- An object of the diagram: the entries of its `graphics.exprs`, and the objects inside. -/
inductive Object where
  | mk (exprs : List Text) (objs : List Object)

/-- `graphics.exprs`. -/
def Object.exprs : Object → List Text
  | .mk exprs _ => exprs

/-- `model.rpar.objs`. -/
def Object.objs : Object → List Object
  | .mk _ objs => objs

/-- An entry of `corinv`: the path of a block in the diagram, or a list of paths for a block
that the compiler of Modelica has put together. -/
inductive Corinv where
  | path (places : List Nat)
  | list (paths : List (List Nat))

/-- The entries of `funs`, `funtyp` and `corinv` for a compiled block. -/
structure Block where
  fun_ : String
  funtyp : Int
  corinv : Corinv

/-- The entries of the lists. -/
inductive Entry where
  | name (fun_ : String)
  | source (text : Text)

/-- The lists that `gen_blocks` returns. -/
structure Codes where
  cCode : List Entry
  fCode : List Entry

/-- `modulo(funtyp, 10000)`. -/
def Block.kind (block : Block) : Int := block.funtyp.tmod 10000

/-- `scs_m.objs(...)`, or `scs_m(path)` for a block inside of others. -/
def objectAt (objs : List Object) : List Nat → Option Object
  | [] => none
  | [last] => entry objs last
  | place :: rest => (entry objs place).bind fun inside => objectAt inside.objs rest

/-- The block in the diagram. -/
def lookup (scsM : List Object) : Corinv → Option Object
  | .path places => objectAt scsM places
  | .list _ => none

/-- `funs(block)` and `O.graphics.exprs(2)` behind the end of a list. -/
def push (code : List Entry) (fun_ : String) (text : Text) : List Entry :=
  code ++ [.name fun_, .source text]

/-- The loop from the second block on. -/
def genLoop (scsM : List Object) (first : Block) :
    List Block → (kfuns : List String) → Codes → Option Codes
  | [], _, codes => some codes
  | block :: rest, kfuns, codes => do
    let O ← lookup scsM block.corinv
    if block.fun_ ∈ kfuns then genLoop scsM first rest kfuns codes
    else
      let text ← entry O.exprs 2
      if 2000 < block.kind then
        genLoop scsM first rest (kfuns ++ [block.fun_])
          { codes with cCode := push codes.cCode block.fun_ text }
      else
        -- The name is that of the first block.
        genLoop scsM first rest (kfuns ++ [block.fun_])
          { codes with fCode := push codes.fCode first.fun_ text }

/-- The first block, before the loop, and the only one. -/
def genFirst (scsM : List Object) (block : Block) (codes : Codes) : Option Codes := do
  let O ← lookup scsM block.corinv
  let text ← entry O.exprs 2
  if 2000 < block.kind then some { codes with cCode := push codes.cCode block.fun_ text }
  else some { codes with fCode := push codes.fCode block.fun_ text }

/-- The first block of Modelica. -/
def modelica (blocks : List Block) : Option Block :=
  blocks.find? fun block =>
    decide (block.funtyp = 10004) && match block.corinv with
      | .list _ => true
      | .path _ => false

/-- `gen_blocks`. -/
def genBlocks (scsM : List Object) (mgetl : String → Text) (blocks : List Block) :
    Option Codes :=
  let codes : Codes :=
    match modelica blocks with
    | some ind => ⟨push [] ind.fun_ (mgetl ind.fun_), []⟩
    | none => ⟨[], []⟩
  let kdyn := blocks.filter fun block => decide (1000 < block.kind)
  match kdyn with
  | [] => some codes
  | [only] => genFirst scsM only codes
  | first :: rest => do
    let codes ← genFirst scsM first codes
    genLoop scsM first rest [first.fun_] codes

/-- The loops of `write_code`: the sources of a list, each followed by an empty line. -/
def sources : List Entry → Text
  | _ :: .source text :: rest => text ++ [""] ++ sources rest
  | _ => []

/-- A list of names with their sources, as `gen_blocks` lays it out. -/
def paired (pairs : List (String × Text)) : List Entry :=
  pairs.flatMap fun pair => [.name pair.1, .source pair.2]

/-- The blocks that are linked dynamically: 100x is Fortran, 200x is C. -/
def Block.dynamic (block : Block) : Bool := decide (1000 ≤ block.kind)

/-- The blocks in C. -/
def Block.isC (block : Block) : Bool := decide (2000 ≤ block.kind)

/-- A compiled diagram without Modelica, in which every dynamically linked block has a source. -/
structure Diagram where
  scsM : List Object
  blocks : List Block
  explicit : modelica blocks = none
  written : ∀ block ∈ blocks, block.dynamic = true →
    ((lookup scsM block.corinv).bind fun O => entry O.exprs 2).isSome

variable (diagram : Diagram)

/-- The source of a block. -/
def Diagram.text (block : Block) : Text :=
  (((lookup diagram.scsM block.corinv).bind fun O => entry O.exprs 2)).getD []

/-- The dynamically linked blocks that are the first of their name. -/
def Diagram.firstOfName : List Block := firsts Block.fun_ (diagram.blocks.filter Block.dynamic)

/-- Every name of a dynamically linked block comes once, in the list of the language of the
first block that has it, with the source of this block. -/
def Right (codes : Option Codes) : Prop :=
  ∃ c f, codes = some ⟨paired c, paired f⟩ ∧ ∀ block ∈ diagram.firstOfName,
    ((c ++ f).map Prod.fst).count block.fun_ = 1 ∧
      (block.fun_, diagram.text block) ∈ if block.isC then c else f

/-- Every first block of a name is in C, with a type above 2000, or it is in Fortran and has the
name, the language and the source of the first block with a type above 1000. -/
def OneFortranName : Prop :=
  ∀ block ∈ diagram.firstOfName, 2000 < block.kind ∨ block.isC = false ∧
    ∃ first, (diagram.blocks.find? fun block => decide (1000 < block.kind)) = some first ∧
      first.fun_ = block.fun_ ∧ first.kind ≤ 2000 ∧ diagram.text first = diagram.text block

section Run

/-- The entries for blocks in C. -/
def Diagram.cPart (blocks : List Block) : List (String × Text) :=
  (blocks.filter fun block => decide (2000 < block.kind)).map fun block =>
    (block.fun_, diagram.text block)

/-- The entries for the other blocks, with the name of the first one. -/
def Diagram.fPart (first : Block) (blocks : List Block) : List (String × Text) :=
  (blocks.filter fun block => !decide (2000 < block.kind)).map fun block =>
    (first.fun_, diagram.text block)

/-- The source of a dynamically linked block is found. -/
theorem text_found (block : Block) (member : block ∈ diagram.blocks)
    (dynamic : block.dynamic = true) :
    ∃ O, lookup diagram.scsM block.corinv = some O ∧
      entry O.exprs 2 = some (diagram.text block) := by
  obtain ⟨text, found⟩ := Option.isSome_iff_exists.mp (diagram.written block member dynamic)
  obtain ⟨O, there, written⟩ := Option.bind_eq_some_iff.mp found
  refine ⟨O, there, ?_⟩
  rw [Diagram.text, found, written, Option.getD_some]

/-- The files hold the sources of the pairs in their order. -/
theorem sources_of_pairs (pairs : List (String × Text)) :
    sources (paired pairs) = pairs.flatMap fun pair => pair.2 ++ [""] := by
  induction pairs with
  | nil => rfl
  | cons pair pairs inductionHypothesis =>
    rw [paired, List.flatMap_cons, List.flatMap_cons, ← inductionHypothesis]
    rfl

/-- A pair behind the others. -/
theorem push_paired (code : List Entry) (fun_ : String) (text : Text)
    (pairs : List (String × Text)) :
    push code fun_ text ++ paired pairs = code ++ paired ((fun_, text) :: pairs) := by
  rw [push, paired, paired, List.flatMap_cons, List.append_assoc]

/-- The loop appends the first blocks of their names. -/
theorem genLoop_result (first : Block) (rest : List Block) (kfuns : List String) (codes : Codes)
    (known : ∀ block ∈ rest, block ∈ diagram.blocks ∧ block.dynamic = true) :
    genLoop diagram.scsM first rest kfuns codes =
      some ⟨codes.cCode ++ paired (diagram.cPart (firstsFrom Block.fun_ kfuns rest)),
        codes.fCode ++ paired (diagram.fPart first (firstsFrom Block.fun_ kfuns rest))⟩ := by
  induction rest generalizing kfuns codes with
  | nil => simp [genLoop, firstsFrom, Diagram.cPart, Diagram.fPart, paired]
  | cons block rest inductionHypothesis =>
    obtain ⟨here, later⟩ := List.forall_mem_cons.mp known
    obtain ⟨O, there, written⟩ := text_found diagram block here.1 here.2
    rw [genLoop, there, firstsFrom]
    dsimp only [Option.bind_eq_bind, Option.bind_some]
    split
    · exact inductionHypothesis kfuns codes later
    · rw [written, Option.bind_some]
      split
      · next inC =>
        rw [inductionHypothesis _ _ later, push_paired, Diagram.cPart, Diagram.cPart,
          Diagram.fPart, Diagram.fPart, List.filter_cons_of_pos (by simpa using inC),
          List.filter_cons_of_neg (by simpa using inC), List.map_cons]
      · next inFortran =>
        rw [inductionHypothesis _ _ later, push_paired, Diagram.cPart, Diagram.cPart,
          Diagram.fPart, Diagram.fPart, List.filter_cons_of_neg (by simpa using inFortran),
          List.filter_cons_of_pos (by simpa using inFortran), List.map_cons]

/-- The first block is entered under its own name. -/
theorem genFirst_result (block : Block) (member : block ∈ diagram.blocks)
    (dynamic : block.dynamic = true) :
    genFirst diagram.scsM block ⟨[], []⟩ =
      some ⟨paired (diagram.cPart [block]), paired (diagram.fPart block [block])⟩ := by
  obtain ⟨O, there, written⟩ := text_found diagram block member dynamic
  rw [genFirst, there, Option.bind_eq_bind, Option.bind_some, written, Option.bind_eq_bind,
    Option.bind_some, Diagram.cPart, Diagram.fPart]
  split
  · next inC => simp [inC, push, paired]
  · next inFortran => simp [inFortran, push, paired]

/-- The dynamically linked blocks that the code finds. -/
def Diagram.kdyn : List Block := diagram.blocks.filter fun block => decide (1000 < block.kind)

/-- They are linked dynamically. -/
theorem kdyn_known : ∀ block ∈ diagram.kdyn, block ∈ diagram.blocks ∧ block.dynamic = true := by
  intro block member
  obtain ⟨inside, above⟩ := List.mem_filter.mp member
  have above := of_decide_eq_true above
  exact ⟨inside, decide_eq_true (Int.le_of_lt above)⟩

variable (mgetl : String → Text)

/-- Without dynamically linked blocks there are no sources. -/
theorem genBlocks_none (none : diagram.kdyn = []) :
    genBlocks diagram.scsM mgetl diagram.blocks = some ⟨paired [], paired []⟩ := by
  rw [genBlocks, diagram.explicit]
  dsimp only
  rw [← Diagram.kdyn, none]
  rfl

/-- The sources of the first blocks of their names, for one block and for several. -/
theorem genBlocks_some (first : Block) (rest : List Block) (found : diagram.kdyn = first :: rest) :
    genBlocks diagram.scsM mgetl diagram.blocks =
      some ⟨paired (diagram.cPart (firsts Block.fun_ (first :: rest))),
        paired (diagram.fPart first (firsts Block.fun_ (first :: rest)))⟩ := by
  have known := kdyn_known diagram
  rw [found] at known
  obtain ⟨here, later⟩ := List.forall_mem_cons.mp known
  have begun := genFirst_result diagram first here.1 here.2
  have order : firsts Block.fun_ (first :: rest) =
      first :: firstsFrom Block.fun_ [first.fun_] rest := rfl
  rw [genBlocks, diagram.explicit]
  dsimp only
  rw [← Diagram.kdyn, found, order]
  cases rest with
  | nil => exact begun
  | cons second rest =>
    dsimp only
    rw [begun, Option.bind_eq_bind, Option.bind_some, genLoop_result diagram first _ _ _ later]
    simp only [paired, Diagram.cPart, Diagram.fPart, ← List.flatMap_append, ← List.map_append,
      ← List.filter_append, List.singleton_append]

end Run

section Pairing

/-- The layout determines the pairs. -/
theorem paired_injective (first second : List (String × Text))
    (same : paired first = paired second) : first = second := by
  induction first generalizing second with
  | nil =>
    cases second with
    | nil => rfl
    | cons pair second => cases same
  | cons pair first inductionHypothesis =>
    cases second with
    | nil => cases same
    | cons other second =>
      rw [paired, paired, List.flatMap_cons, List.flatMap_cons] at same
      injection same with name tail
      injection tail with source rest
      injection name with name
      injection source with source
      rw [Prod.ext name source, inductionHypothesis second rest]

/-- The blocks that the code finds are among the dynamically linked ones. -/
theorem kdyn_filter : diagram.kdyn = (diagram.blocks.filter Block.dynamic).filter
    fun block => decide (1000 < block.kind) := by
  rw [Diagram.kdyn, List.filter_filter]
  refine List.filter_congr fun block _ => ?_
  rw [Block.dynamic, ← Bool.decide_and]
  exact decide_eq_decide.mpr ⟨fun above => ⟨above, Int.le_of_lt above⟩, And.left⟩

/-- The first block of a name is found as such if its type is above 1000. -/
theorem first_found (block : Block) (first : block ∈ diagram.firstOfName)
    (above : 1000 < block.kind) : block ∈ firsts Block.fun_ diagram.kdyn := by
  rw [kdyn_filter]
  exact firsts_filter _ first (decide_eq_true above)

/-- A found block is entered under its own name if it is in C or the first one. -/
def OwnNames (first : Block) (blocks : List Block) : Prop :=
  ∀ block ∈ blocks, ¬ 2000 < block.kind → block = first

/-- Where every block is entered under its own name, the names of the lists are those of
the blocks. -/
theorem own_names_perm (first : Block) (blocks : List Block) (own : OwnNames first blocks) :
    ((diagram.cPart blocks ++ diagram.fPart first blocks).map Prod.fst).Perm
      (blocks.map Block.fun_) := by
  have fortran : (diagram.fPart first blocks).map Prod.fst =
      (blocks.filter fun block => !decide (2000 < block.kind)).map Block.fun_ := by
    rw [Diagram.fPart, List.map_map]
    refine List.map_congr_left fun block member => ?_
    obtain ⟨inside, below⟩ := List.mem_filter.mp member
    rw [own block inside (by simpa using below)]
    rfl
  have inC : (diagram.cPart blocks).map Prod.fst =
      (blocks.filter fun block => decide (2000 < block.kind)).map Block.fun_ := by
    rw [Diagram.cPart, List.map_map]
    rfl
  rw [List.map_append, inC, fortran, ← List.map_append]
  exact (List.filter_append_perm _ blocks).map _

/-- The name of the first block comes once only if no other block is entered under it. -/
theorem own_of_count (first : Block) (blocks : List Block) (member : first ∈ blocks)
    (once : ((diagram.cPart blocks ++ diagram.fPart first blocks).map Prod.fst).count
      first.fun_ = 1) : OwnNames first blocks := by
  intro block inside below
  have fortran : ((diagram.fPart first blocks).map Prod.fst).count first.fun_ =
      (blocks.filter fun block => !decide (2000 < block.kind)).length := by
    have names : (diagram.fPart first blocks).map Prod.fst =
        List.replicate (blocks.filter fun block => !decide (2000 < block.kind)).length
          first.fun_ := by
      rw [Diagram.fPart, List.map_map]
      exact List.map_const'
    rw [names, List.count_replicate_self]
  rw [List.map_append, List.count_append, fortran] at once
  have here : block ∈ blocks.filter fun block => !decide (2000 < block.kind) :=
    List.mem_filter.mpr ⟨inside, by simpa using below⟩
  by_cases inC : 2000 < first.kind
  · have entered : first.fun_ ∈ (diagram.cPart blocks).map Prod.fst :=
      List.mem_map.mpr ⟨(first.fun_, diagram.text first),
        List.mem_map.mpr ⟨first, List.mem_filter.mpr ⟨member, decide_eq_true inC⟩, rfl⟩, rfl⟩
    have counted := List.count_pos_iff.mpr entered
    have more := List.length_pos_of_mem here
    omega
  · have there : first ∈ blocks.filter fun block => !decide (2000 < block.kind) :=
      List.mem_filter.mpr ⟨member, by simpa using inC⟩
    match split : blocks.filter fun block => !decide (2000 < block.kind) with
    | [] => rw [split] at here; cases here
    | [only] =>
      rw [split] at here there
      rw [List.mem_singleton.mp here, List.mem_singleton.mp there]
    | _ :: _ :: _ =>
      rw [split] at once
      simp only [List.length_cons] at once
      omega

variable (mgetl : String → Text)

/-- Without blocks that are found, the condition leaves no name. -/
theorem no_first_of_none (none : diagram.kdyn = []) (one : OneFortranName diagram) (block : Block) :
    block ∉ diagram.firstOfName := by
  intro first
  obtain above | ⟨-, found, there, -⟩ := one block first
  · have member := mem_of_mem_firsts (first_found diagram block first (by omega))
    rw [none] at member
    cases member
  · have listed : diagram.kdyn.head? = some found := List.head?_filter.trans there
    rw [none] at listed
    cases listed

/-- With one name in Fortran, that of the first block, every block is entered under its own. -/
theorem own_of_one (first : Block) (rest : List Block) (found : diagram.kdyn = first :: rest)
    (one : OneFortranName diagram) : OwnNames first (firsts Block.fun_ (first :: rest)) := by
  intro block member below
  have dynamic := kdyn_known diagram block (found ▸ mem_of_mem_firsts member)
  obtain ⟨leader, leads, named⟩ : ∃ leader ∈ diagram.firstOfName, leader.fun_ = block.fun_ :=
    exists_first (List.mem_filter.mpr dynamic)
  obtain above | ⟨-, head, there, same, -, -⟩ := one leader leads
  · have listed := first_found diagram leader leads (by omega)
    rw [found] at listed
    have equal := firsts_unique listed member named
    exact absurd (equal ▸ above) below
  · have listed : diagram.kdyn.head? = some head := List.head?_filter.trans there
    rw [found] at listed
    obtain rfl := Option.some.inj listed
    exact firsts_unique member (head_first first rest) (named.symm.trans same.symm)

/-- With one name in Fortran, that of the first block, the lists are right. -/
theorem right_of_one (one : OneFortranName diagram) :
    Right diagram (genBlocks diagram.scsM mgetl diagram.blocks) := by
  cases found : diagram.kdyn with
  | nil =>
    exact ⟨[], [], genBlocks_none diagram mgetl found, fun block first =>
      absurd first (no_first_of_none diagram found one block)⟩
  | cons first rest =>
    have own := own_of_one diagram first rest found one
    refine ⟨_, _, genBlocks_some diagram mgetl first rest found, fun block leads => ?_⟩
    have names := own_names_perm diagram first (firsts Block.fun_ (first :: rest)) own
    have once (listed : ∃ other ∈ firsts Block.fun_ (first :: rest), other.fun_ = block.fun_) :
        ((firsts Block.fun_ (first :: rest)).map Block.fun_).count block.fun_ = 1 :=
      List.count_eq_one_of_mem (firstsFrom_nodup Block.fun_ [] _) (List.mem_map.mpr listed)
    rw [names.count_eq]
    obtain above | ⟨fortran, head, there, same, low, text⟩ := one block leads
    · have listed := first_found diagram block leads (by omega)
      rw [found] at listed
      have inC : block.isC = true := decide_eq_true (Int.le_of_lt above)
      refine ⟨once ⟨block, listed, rfl⟩, ?_⟩
      rw [if_pos inC]
      exact List.mem_map.mpr ⟨block, List.mem_filter.mpr ⟨listed, decide_eq_true above⟩, rfl⟩
    · have listed : diagram.kdyn.head? = some head := List.head?_filter.trans there
      rw [found] at listed
      obtain rfl := Option.some.inj listed
      refine ⟨once ⟨first, head_first first rest, same⟩, ?_⟩
      rw [if_neg (by rw [fortran]; decide)]
      refine List.mem_map.mpr ⟨first, List.mem_filter.mpr ⟨head_first first rest, ?_⟩, ?_⟩
      · simpa using low
      · rw [same, text]

/-- Where the lists are right, there is one name in Fortran, that of the first block. -/
theorem one_of_right (right : Right diagram (genBlocks diagram.scsM mgetl diagram.blocks)) :
    OneFortranName diagram := by
  obtain ⟨c, f, result, each⟩ := right
  intro block leads
  obtain ⟨once, placed⟩ := each block leads
  cases found : diagram.kdyn with
  | nil =>
    rw [genBlocks_none diagram mgetl found] at result
    injection result with codes
    injection codes with inC inFortran
    obtain rfl := paired_injective [] c inC
    obtain rfl := paired_injective [] f inFortran
    cases once
  | cons first rest =>
    rw [genBlocks_some diagram mgetl first rest found] at result
    injection result with codes
    injection codes with inC inFortran
    obtain rfl := paired_injective _ c inC
    obtain rfl := paired_injective _ f inFortran
    by_cases language : block.isC = true
    · rw [if_pos language] at placed
      obtain ⟨other, inside, same⟩ := List.mem_map.mp placed
      obtain ⟨listed, above⟩ := List.mem_filter.mp inside
      have high := of_decide_eq_true language
      have own := first_found diagram block leads (by omega)
      rw [found] at own
      obtain rfl := firsts_unique own listed (Prod.mk.inj same).1.symm
      exact Or.inl (of_decide_eq_true above)
    · rw [if_neg language] at placed
      obtain ⟨other, inside, same⟩ := List.mem_map.mp placed
      obtain ⟨named, text⟩ := Prod.mk.inj same
      obtain ⟨listed, below⟩ := List.mem_filter.mp inside
      have low : ¬ 2000 < other.kind := by simpa using below
      have leading : first ∈ firsts Block.fun_ (first :: rest) := head_first first rest
      obtain rfl := own_of_count diagram first _ leading (named ▸ once) other listed low
      refine Or.inr ⟨by simpa using language, other, ?_, named, Int.not_lt.mp low, text⟩
      exact List.head?_filter.symm.trans (congrArg List.head? found)

end Pairing

/-- The sources are paired with their names exactly if there is at most one name in
Fortran and it is that of the first block. The loop enters every Fortran source under
the name of the first block, and there is no loop for a block alone. Nothing is asked of
the texts, and two blocks may have the same. -/
theorem sources_paired_iff (mgetl : String → Text) :
    Right diagram (genBlocks diagram.scsM mgetl diagram.blocks) ↔ OneFortranName diagram :=
  ⟨one_of_right diagram mgetl, right_of_one diagram mgetl⟩

/-- A block `a` in C and a block `b` in Fortran. -/
def twoLanguages : Diagram where
  scsM := [.mk [["a"], ["/* a */"]] [], .mk [["b"], ["c b"]] []]
  blocks := [⟨"a", 2004, .path [1]⟩, ⟨"b", 1001, .path [2]⟩]
  explicit := rfl
  written := by decide

/-- The source of `b` has the name of `a`. -/
theorem second_fortran_misnamed :
    ¬ Right twoLanguages (genBlocks twoLanguages.scsM (fun _ => []) twoLanguages.blocks) := by
  intro right
  have one := one_of_right twoLanguages _ right
  have leads : (⟨"b", 1001, .path [2]⟩ : Block) ∈ twoLanguages.firstOfName :=
    List.mem_cons_of_mem _ List.mem_cons_self
  obtain above | ⟨-, first, found, same, -⟩ := one _ leads
  · exact absurd above (by decide)
  · obtain rfl := Option.some.inj found
    exact absurd same (by decide)

end ScicosFlex.Codegen.DynamicBlocks
