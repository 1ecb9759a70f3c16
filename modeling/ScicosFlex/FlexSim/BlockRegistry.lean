import Mathlib.Data.List.Nodup
import ScicosFlex.FlexSim.FlexBlocks
import ScicosFlex.Library.Runs

/-!
# Which blocks are registered

Seen from outside, `blocks_data` says for every block index whether a block is
registered and which engine is its own. Initialization tests this by
`BLOCK_AT_PTR(blocks_data, block_index)`, which takes the index for a position,
while update and end look for the element with the index.

Both agree at an initialization if the index is below the number of registered
blocks exactly when it is registered. The array is the registry it is meant to be if
and only if this holds at every initialization (`registered_iff`).
-/

namespace ScicosFlex.FlexSim

open Library.Runs

/-- The start-up behind every registered block. -/
abbrev Registry := Int → Option Startup

/-- What the calls mean: a block is registered from its initialization to its end,
and one that is registered already is not initialized again. -/
def Registry.step (registry : Registry) : Call → Registry
  | .init blockIndex startup =>
    if (registry blockIndex).isNone then Function.update registry blockIndex (some startup)
    else registry
  | .update _ _ _ => registry
  | .ending blockIndex => Function.update registry blockIndex none

/-- The block a call is about. -/
def Call.blockIndex : Call → Int
  | .init blockIndex _ => blockIndex
  | .update _ blockIndex _ => blockIndex
  | .ending blockIndex => blockIndex

/-- The indices in the array, in order. -/
def ids (blocks : Container BlockData) : List Int := blocks.elements.map BlockData.id

/-- A block as its own initialization made it, whether or not its engine still answers,
for which the array has a mark that later calls may set. -/
def Own (blockIndex : Int) (startup : Startup) (block : BlockData) : Prop :=
  block = { ownBlock blockIndex startup with exists_ := block.exists_ }

/-- The array holds every registered block once and no other, and the search finds the
block made by its own initialization. -/
def Registered (both : Flexsim × Registry) : Prop :=
  ∀ blockIndex,
    match both.2 blockIndex with
    | none => blockIndex ∉ ids both.1.blocksData ∧
        assignCurrentBlock both.1.blocksData blockIndex = none
    | some startup => (ids both.1.blocksData).count blockIndex = 1 ∧
        ∃ place, assignCurrentBlock both.1.blocksData blockIndex = some place ∧
          Own blockIndex startup (both.1.blocksData.ptr place)

/-- The position test of an initialization tells whether the block is registered. -/
def InPlace (both : Flexsim × Registry) : Call → Prop
  | .init blockIndex _ =>
    blockIndex < both.1.blocksData.items ↔ (both.2 blockIndex).isSome = true
  | _ => True

instance (both : Flexsim × Registry) : (call : Call) → Decidable (InPlace both call)
  | .init _ _ => inferInstanceAs (Decidable (_ ↔ _))
  | .update _ _ _ => inferInstanceAs (Decidable True)
  | .ending _ => inferInstanceAs (Decidable True)

/-- The array represents the registry: it has one entry for each registered block, as
the block's own initialization made it, and no other one. -/
structure Represents (both : Flexsim × Registry) : Prop where
  once : (ids both.1.blocksData).Nodup
  own : ∀ block ∈ both.1.blocksData.elements, ∃ startup,
    both.2 block.id = some startup ∧ Own block.id startup block
  complete : ∀ blockIndex startup, both.2 blockIndex = some startup →
    blockIndex ∈ ids both.1.blocksData

/-- The search fails for the indices that are not in the array. -/
theorem assign_eq_none (blocks : Container BlockData) (blockIndex : Int) :
    assignCurrentBlock blocks blockIndex = none ↔ blockIndex ∉ ids blocks := by
  simp only [assignCurrentBlock, List.find?_eq_none, List.mem_range, decide_eq_true_iff, ids,
    Container.elements, Library.CircularBuffer.prefixOf, List.map_map, List.mem_map,
    Function.comp_apply, not_exists, not_and]

/-- What the search finds has the index. -/
theorem assign_eq_some (blocks : Container BlockData) (blockIndex : Int) (place : Nat)
    (found : assignCurrentBlock blocks blockIndex = some place) :
    place < blocks.items ∧ (blocks.ptr place).id = blockIndex := by
  have inside := List.mem_range.mp (List.mem_of_find?_eq_some found)
  have same := List.find?_some found
  exact ⟨inside, of_decide_eq_true same⟩

/-- A representing array has no block that is not registered. -/
theorem absent_of_none (both : Flexsim × Registry) (represents : Represents both)
    (blockIndex : Int) (entry : both.2 blockIndex = none) :
    blockIndex ∉ ids both.1.blocksData := by
  intro member
  obtain ⟨block, inside, rfl⟩ := List.mem_map.mp member
  obtain ⟨startup, registered, -⟩ := represents.own block inside
  rw [entry] at registered
  cases registered

/-- A representing array is what the registry says. -/
theorem registered_of_represents (both : Flexsim × Registry) (represents : Represents both) :
    Registered both := by
  intro blockIndex
  cases entry : both.2 blockIndex with
  | none =>
    have absent := absent_of_none both represents blockIndex entry
    exact ⟨absent, (assign_eq_none _ _).mpr absent⟩
  | some startup =>
    have member := represents.complete blockIndex startup entry
    refine ⟨List.count_eq_one_of_mem represents.once member, ?_⟩
    cases found : assignCurrentBlock both.1.blocksData blockIndex with
    | none => exact absurd member ((assign_eq_none _ _).mp found)
    | some place =>
      obtain ⟨inside, same⟩ := assign_eq_some _ _ _ found
      have stored : both.1.blocksData.ptr place ∈ both.1.blocksData.elements := by
        rw [← elements_getElem _ place (by simpa using inside)]
        exact List.getElem_mem _
      obtain ⟨origin, registered, made⟩ := represents.own _ stored
      rw [same, entry, Option.some.injEq] at registered
      subst registered
      exact ⟨place, rfl, same ▸ made⟩

/-- A changed element stays at its position. -/
theorem elements_modify (blocks : Container BlockData) (place : Nat)
    (change : BlockData → BlockData) :
    (blocks.modify place change).elements = blocks.elements.modify place change := by
  have written : blocks.modify place change = blocks.put place (change (blocks.ptr place)) := rfl
  rw [written, elements_put]
  apply List.ext_getElem
  · simp
  · intro position _ _
    rw [List.getElem_set, List.getElem_modify]
    split
    · next here =>
      subst here
      rw [elements_getElem]
    · rfl

/-- A change that leaves the index alone leaves all indices alone. -/
theorem ids_modify (blocks : Container BlockData) (place : Nat) (change : BlockData → BlockData)
    (kept : ∀ block, (change block).id = block.id) :
    ids (blocks.modify place change) = ids blocks := by
  rw [ids, ids, elements_modify]
  apply List.ext_getElem
  · simp
  · intro position _ _
    simp only [List.getElem_map, List.getElem_modify]
    split
    · exact kept _
    · rfl

/-- Starting the engine leaves the index alone. -/
theorem startEngine_id (block : BlockData) (startup : Startup) :
    (startEngine block startup).id = block.id := by
  simp only [startEngine]
  repeat' split
  all_goals rfl

/-- What an initialization that adds a block leaves in the array: its index comes last. -/
theorem ids_init (sim : Flexsim) (blockIndex : Int) (startup : Startup)
    (behind : sim.blocksData.atPtr blockIndex = none) :
    ids (flexBlocks sim (.init blockIndex startup)).blocksData =
      ids sim.blocksData ++ [blockIndex] := by
  have pushed : ids (sim.blocksData.pushBack { initializeBlockData with id := blockIndex }) =
      ids sim.blocksData ++ [blockIndex] := by
    rw [ids, elements_pushBack, List.map_append]
    rfl
  simp only [flexBlocks, behind, ne_eq, not_true_eq_false, if_false]
  split
  · exact pushed
  · rw [ids_modify _ _ _ fun block => startEngine_id block startup]
    exact pushed

/-- The search for a new index finds the new element. -/
theorem assign_pushBack (blocks : Container BlockData) (block : BlockData)
    (absent : block.id ∉ ids blocks) :
    assignCurrentBlock (blocks.pushBack block) block.id = some blocks.items := by
  cases search : assignCurrentBlock (blocks.pushBack block) block.id with
  | none =>
    have missing := (assign_eq_none _ _).mp search
    simp [ids, elements_pushBack] at missing
  | some place =>
    obtain ⟨inside, same⟩ := assign_eq_some _ _ _ search
    have bound : place < blocks.items + 1 := inside
    by_cases last : place = blocks.items
    · rw [last]
    · have earlier : place < blocks.elements.length := by
        rw [elements_length]
        omega
      have kept : (blocks.pushBack block).ptr place = blocks.ptr place :=
        Function.update_of_ne last _ _
      rw [kept, ← elements_getElem _ _ earlier] at same
      exact absurd (List.mem_map.mpr ⟨_, List.getElem_mem earlier, same⟩) absent

/-- A new block stands behind the others as its own initialization makes it. -/
theorem elements_init (sim : Flexsim) (blockIndex : Int) (startup : Startup)
    (behind : sim.blocksData.atPtr blockIndex = none)
    (absent : blockIndex ∉ ids sim.blocksData) :
    (flexBlocks sim (.init blockIndex startup)).blocksData.elements =
      sim.blocksData.elements ++ [ownBlock blockIndex startup] := by
  have found := assign_pushBack sim.blocksData { initializeBlockData with id := blockIndex } absent
  simp only [flexBlocks, behind, ne_eq, not_true_eq_false, if_false, found]
  rw [elements_modify, elements_pushBack, List.modify_eq_take_cons_drop (by simp)]
  simp [ownBlock, ← elements_length sim.blocksData, -elements_length]

/-- An ended block leaves the array, all others stay. -/
theorem elements_ending (sim : Flexsim) (blockIndex : Int) (place : Nat)
    (found : assignCurrentBlock sim.blocksData blockIndex = some place) :
    (flexBlocks sim (.ending blockIndex)).blocksData.elements =
      sim.blocksData.elements.eraseIdx place := by
  obtain ⟨inside, -⟩ := assign_eq_some _ _ _ found
  have removed : removeBlockData sim.blocksData blockIndex = sim.blocksData.remove place := by
    rw [assignCurrentBlock] at found
    rw [removeBlockData, found]
  simp only [flexBlocks, found, removed]
  exact elements_remove _ place inside

/-- A block whose index is not among the positions is added. -/
theorem atPtr_none_iff (blocks : Container BlockData) (blockIndex : Int)
    (natural : 0 ≤ blockIndex) :
    blocks.atPtr blockIndex = none ↔ ¬ blockIndex < blocks.items := by
  rw [atPtr_eq_none _ _ natural]
  omega

/-- A block that is not registered is added at the end, and those before it keep their places. -/
theorem represents_added (both : Flexsim × Registry) (blockIndex : Int) (startup : Startup)
    (represents : Represents both) (entry : both.2 blockIndex = none)
    (behind : both.1.blocksData.atPtr blockIndex = none) :
    Represents (paired flexBlocks Registry.step both (.init blockIndex startup)) := by
  have absent := absent_of_none both represents blockIndex entry
  obtain ⟨once, own, complete⟩ := represents
  have noted : (paired flexBlocks Registry.step both (.init blockIndex startup)).2 =
      Function.update both.2 blockIndex (some startup) := by
    simp [paired, Registry.step, entry]
  refine ⟨?_, ?_, ?_⟩
  · change (ids (flexBlocks both.1 _).blocksData).Nodup
    rw [ids_init _ _ _ behind]
    exact List.nodup_append_comm.mp (List.nodup_cons.mpr ⟨absent, once⟩)
  · intro block member
    rw [noted]
    have member : block ∈ both.1.blocksData.elements ++ [ownBlock blockIndex startup] := by
      rw [← elements_init both.1 blockIndex startup behind absent]
      exact member
    cases List.mem_append.mp member with
    | inl earlier =>
      obtain ⟨origin, registered, made⟩ := own block earlier
      have other : block.id ≠ blockIndex := by
        rintro rfl
        exact absent (List.mem_map.mpr ⟨block, earlier, rfl⟩)
      exact ⟨origin, by rwa [Function.update_of_ne other], made⟩
    | inr new =>
      obtain rfl := List.mem_singleton.mp new
      have index : (ownBlock blockIndex startup).id = blockIndex := startEngine_id _ _
      rw [index]
      exact ⟨startup, Function.update_self _ _ _, rfl⟩
  · intro index origin registered
    change index ∈ ids (flexBlocks both.1 _).blocksData
    rw [noted] at registered
    rw [ids_init _ _ _ behind, List.mem_append, List.mem_singleton]
    by_cases here : index = blockIndex
    · exact Or.inr here
    · rw [Function.update_of_ne here] at registered
      exact Or.inl (complete index origin registered)

/-- In place, an initialization keeps the representation. -/
theorem represents_init (both : Flexsim × Registry) (blockIndex : Int) (startup : Startup)
    (represents : Represents both) (natural : 0 ≤ blockIndex)
    (inPlace : blockIndex < both.1.blocksData.items ↔ (both.2 blockIndex).isSome = true) :
    Represents (paired flexBlocks Registry.step both (.init blockIndex startup)) := by
  cases entry : both.2 blockIndex with
  | some earlier =>
    have present : both.1.blocksData.atPtr blockIndex ≠ none := by
      rw [Ne, atPtr_none_iff _ _ natural, not_not, inPlace, entry]
      rfl
    have same : paired flexBlocks Registry.step both (.init blockIndex startup) = both := by
      simp [paired, flexBlocks, present, Registry.step, entry]
    rw [same]
    exact represents
  | none =>
    have behind : both.1.blocksData.atPtr blockIndex = none := by
      rw [atPtr_none_iff _ _ natural, inPlace, entry]
      decide
    exact represents_added both blockIndex startup represents entry behind

/-- A block stays its own when its engine stops answering. -/
theorem own_cleared (blockIndex : Int) (startup : Startup) (block : BlockData)
    (own : Own blockIndex startup block) :
    Own blockIndex startup { block with exists_ := false } := by
  rw [Own] at own ⊢
  exact congrArg (fun block : BlockData => { block with exists_ := false }) own

/-- An update keeps the representation: it may set the mark for the engine, and nothing else. -/
theorem represents_update (both : Flexsim × Registry) (blockType blockIndex : Int)
    (reached : Bool) (represents : Represents both) :
    Represents (paired flexBlocks Registry.step both (.update blockType blockIndex reached)) := by
  have changed : ∃ place, (flexBlocks both.1 (.update blockType blockIndex reached)).blocksData =
      both.1.blocksData ∨
      (flexBlocks both.1 (.update blockType blockIndex reached)).blocksData =
        both.1.blocksData.modify place fun block => { block with exists_ := false } := by
    simp only [flexBlocks]
    split
    · exact ⟨0, Or.inl rfl⟩
    · next place _ =>
      refine ⟨place, ?_⟩
      split
      · exact Or.inr rfl
      · exact Or.inl rfl
  obtain ⟨once, own, complete⟩ := represents
  obtain ⟨place, same | cleared⟩ := changed
  · exact ⟨by rw [paired, same]; exact once, by rw [paired, same]; exact own,
      by rw [paired, same]; exact complete⟩
  · have indices := ids_modify both.1.blocksData place
      (fun block => { block with exists_ := false }) (fun _ => rfl)
    refine ⟨by rw [paired, cleared, indices]; exact once, ?_,
      by rw [paired, cleared, indices]; exact complete⟩
    intro block member
    rw [paired, cleared, elements_modify] at member
    obtain ⟨position, inside, rfl⟩ := List.getElem_of_mem member
    rw [List.length_modify] at inside
    obtain ⟨origin, registered, made⟩ := own _ (List.getElem_mem inside)
    rw [List.getElem_modify]
    split
    · exact ⟨origin, registered, own_cleared _ _ _ made⟩
    · exact ⟨origin, registered, made⟩

/-- The blocks left behind an end are those with another index, for the index that is
searched occurs once. -/
theorem mem_ended (blocks : Container BlockData) (blockIndex : Int) (place : Nat)
    (once : (ids blocks).Nodup) (found : assignCurrentBlock blocks blockIndex = some place)
    (block : BlockData) : block ∈ blocks.elements.eraseIdx place ↔
      block ∈ blocks.elements ∧ block.id ≠ blockIndex := by
  obtain ⟨inside, index⟩ := assign_eq_some _ _ _ found
  have below : place < blocks.elements.length := by rwa [elements_length]
  have ended : blocks.elements[place].id = blockIndex := by
    rw [elements_getElem]
    exact index
  rw [List.mem_eraseIdx_iff_getElem]
  constructor
  · rintro ⟨position, bound, other, rfl⟩
    refine ⟨List.getElem_mem bound, ?_⟩
    intro same
    have first : position < (ids blocks).length := by simpa [ids] using bound
    have second : place < (ids blocks).length := by simpa [ids] using inside
    have equal : (ids blocks)[position] = (ids blocks)[place] := by
      simp only [ids, List.getElem_map]
      exact same.trans ended.symm
    exact other (once.getElem_inj_iff.mp equal)
  · rintro ⟨member, other⟩
    obtain ⟨position, bound, rfl⟩ := List.getElem_of_mem member
    refine ⟨position, bound, ?_, rfl⟩
    rintro rfl
    exact other ended

/-- An end keeps the representation. The blocks behind the one that goes move up, so
indices are no longer places; the search does not need that they are. -/
theorem represents_ending (both : Flexsim × Registry) (blockIndex : Int)
    (represents : Represents both) :
    Represents (paired flexBlocks Registry.step both (.ending blockIndex)) := by
  obtain ⟨once, own, complete⟩ := represents
  cases found : assignCurrentBlock both.1.blocksData blockIndex with
  | none =>
    have absent := (assign_eq_none _ _).mp found
    have kept : (flexBlocks both.1 (.ending blockIndex)) = both.1 := by
      simp only [flexBlocks, found]
    have same : Registry.step both.2 (.ending blockIndex) = both.2 := by
      apply Function.update_eq_self_iff.mpr
      cases entry : both.2 blockIndex with
      | none => rfl
      | some origin => exact absurd (complete blockIndex origin entry) absent
    rw [paired, kept, same]
    exact ⟨once, own, complete⟩
  | some place =>
    have left : (paired flexBlocks Registry.step both (.ending blockIndex)).1.blocksData.elements =
        both.1.blocksData.elements.eraseIdx place := elements_ending both.1 blockIndex place found
    have noted : (paired flexBlocks Registry.step both (.ending blockIndex)).2 =
        Function.update both.2 blockIndex none := rfl
    have others := mem_ended both.1.blocksData blockIndex place once found
    refine ⟨?_, ?_, ?_⟩
    · rw [ids, left]
      exact once.sublist ((List.eraseIdx_sublist _ _).map _)
    · intro block member
      rw [left, others] at member
      rw [noted, Function.update_of_ne member.2]
      exact own block member.1
    · intro index origin registered
      rw [noted] at registered
      by_cases here : index = blockIndex
      · rw [here, Function.update_self] at registered
        cases registered
      · rw [Function.update_of_ne here] at registered
        obtain ⟨block, inside, rfl⟩ := List.mem_map.mp (complete index origin registered)
        rw [ids, left]
        exact List.mem_map.mpr ⟨block, (others block).mpr ⟨inside, here⟩, rfl⟩

/-- In place, every call keeps the representation. An initialization that is not in
place writes behind the blocks or over one of them, which is why it is left out. -/
theorem represents_step (both : Flexsim × Registry) (call : Call) (represents : Represents both)
    (natural : 0 ≤ call.blockIndex) (inPlace : InPlace both call) :
    Represents (paired flexBlocks Registry.step both call) := by
  cases call with
  | init blockIndex startup =>
    exact represents_init both blockIndex startup represents natural inPlace
  | update blockType blockIndex reached =>
    exact represents_update both blockType blockIndex reached represents
  | ending blockIndex => exact represents_ending both blockIndex represents

/-- An initialization behind which the array is what the registry says was in place. Any
other one leaves a block twice, or loses one. -/
theorem inPlace_of_registered (both : Flexsim × Registry) (call : Call)
    (represents : Represents both) (natural : 0 ≤ call.blockIndex)
    (registered : Registered (paired flexBlocks Registry.step both call)) :
    InPlace both call := by
  cases call with
  | update blockType blockIndex reached => trivial
  | ending blockIndex => trivial
  | init blockIndex startup =>
    have here := registered blockIndex
    have before := registered_of_represents both represents blockIndex
    have position := atPtr_none_iff both.1.blocksData blockIndex natural
    cases entry : both.2 blockIndex with
    | none =>
      have noted : (paired flexBlocks Registry.step both (.init blockIndex startup)).2 blockIndex =
          some startup := by
        simp [paired, Registry.step, entry]
      simp only [noted] at here
      simp only [entry] at before
      simp only [InPlace, entry, Option.isSome_none, Bool.false_eq_true, iff_false]
      apply position.mp
      by_contra taken
      -- The position is taken by another block, and nothing is added.
      have kept : (paired flexBlocks Registry.step both (.init blockIndex startup)).1 = both.1 := by
        simp [paired, flexBlocks, taken]
      rw [kept, List.count_eq_zero_of_not_mem before.1] at here
      exact absurd here.1 (by decide)
    | some earlier =>
      have noted : (paired flexBlocks Registry.step both (.init blockIndex startup)).2 blockIndex =
          some earlier := by
        simp [paired, Registry.step, entry]
      simp only [noted] at here
      simp only [entry] at before
      simp only [InPlace, entry, Option.isSome_some, iff_true]
      by_contra behind
      -- No position has the number of the block, and it is added again.
      have twice :
          ids (paired flexBlocks Registry.step both (.init blockIndex startup)).1.blocksData =
            ids both.1.blocksData ++ [blockIndex] := ids_init _ _ _ (position.mpr behind)
      have count := here.1
      rw [twice, List.count_append, before.1] at count
      simp at count

/-- No block is registered. -/
def nobody : Registry := fun _ => none

/-- Over every sequence of calls, the array holds exactly the blocks whose
initialization is not yet followed by an end, each once, and every search finds the
block made by its own initialization, if and only if at every initialization the
index is below the number of registered blocks exactly when it is registered. -/
theorem registered_iff (calls : List Call) (natural : ∀ call ∈ calls, 0 ≤ call.blockIndex) :
    Reached (paired flexBlocks Registry.step) Registered (boot, nobody) calls ↔
      Throughout (paired flexBlocks Registry.step) InPlace (boot, nobody) calls := by
  have initial : Represents (boot, nobody) :=
    ⟨List.nodup_nil, fun block member => absurd member List.not_mem_nil,
      fun blockIndex startup registered => by cases registered⟩
  have legal : Throughout (paired flexBlocks Registry.step)
      (fun _ call => 0 ≤ call.blockIndex) (boot, nobody) calls := by
    intro done call rest split
    exact natural call (by simp [split])
  have both := guarded_iff (paired flexBlocks Registry.step) (fun _ call => 0 ≤ call.blockIndex)
    InPlace Represents Registered (fun _ _ => True)
    (fun state call represents natural inPlace =>
      ⟨represents_step state call represents natural inPlace, trivial⟩)
    registered_of_represents
    (fun state call represents natural registered _ =>
      inPlace_of_registered state call represents natural registered)
    (boot, nobody) calls initial legal
  constructor
  · intro registered
    exact both.mp ⟨registered, fun _ _ _ _ => trivial⟩
  · intro inPlace
    exact (both.mpr inPlace).1

/-- A start-up that succeeds. -/
def smoothStartup : Startup := ⟨some "engine", true, 3, true, some 100, some 4⟩

/-- Blocks 0 and 1 start, start again, and end in the order of their start. -/
def inOrder : List Call :=
  [.init 0 smoothStartup, .init 1 smoothStartup, .init 0 smoothStartup, .update 0 1 true,
    .ending 0, .ending 1]

/-- These blocks are registered as they should be. -/
theorem in_order_registered :
    Reached (paired flexBlocks Registry.step) Registered (boot, nobody) inOrder := by
  apply (registered_iff inOrder (by decide)).mpr
  simp only [inOrder, throughout_cons]
  exact ⟨by decide, by decide, by decide, trivial, trivial, trivial, throughout_nil _ _ _⟩

/-- Not every sequence registers its blocks: behind the initialization of block 1,
position 0 is taken, and block 0 is never added. -/
theorem block_zero_missing :
    ¬ ∀ calls : List Call, (∀ call ∈ calls, 0 ≤ call.blockIndex) →
      Reached (paired flexBlocks Registry.step) Registered (boot, nobody) calls := by
  intro always
  let calls : List Call := [.init 1 smoothStartup, .init 0 smoothStartup]
  have here := always calls (by decide) calls [] rfl 0
  have noted : (run (paired flexBlocks Registry.step) (boot, nobody) calls).2 0 =
      some smoothStartup := rfl
  simp only [noted] at here
  exact absurd here.1 (by decide)

end ScicosFlex.FlexSim
