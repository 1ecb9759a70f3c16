import Mathlib.Data.List.Infix
import ScicosFlex.Library.Vectors

/-!
# State machines of SMCube blocks

`EE_search_SmcubeBlocks` walks through a diagram and its superblocks, collects the
XML files of the SMCube blocks without repetition, and notes for every block the
position of its file. The number of the block goes to the block's place in
`cpr.sim.ipar`, and both lists are written to `xml.list` and `smb.list`.

Whether a file is in the list already, and where, is asked by `grep`, which looks for
the name anywhere inside the listed names. The lists lead every block to its own file
if and only if no block's file name is a proper part of a name before it
(`linked_iff`).

`cor` and `cpr` come from the Scicos compiler, which gives every block with integer
parameters a place of its own in `ipar`, and an SMCube block has at least three of
them. An index outside a vector, and a row that does not fit below a column, end the
run with an error, here `none`.
-/

namespace ScicosFlex.Codegen.SmcubeBlocks

open Library.Vectors

/-- A matrix of strings, column by column. -/
structure TextMatrix where
  rows : Nat
  cols : Nat
  entries : List String

/-- What the search reads of a block that is no superblock: the first of its
`graphics.exprs`, if there is one, and its event ports. -/
structure Block where
  exprs : Option TextMatrix
  evtin : List Int
  evtout : List Int

/-- The list `scsm.objs`: objects of other types, superblocks with the objects inside,
and blocks. -/
inductive Objs where
  | nil
  | other (rest : Objs)
  | super (inside rest : Objs)
  | block (block : Block) (rest : Objs)

/-- The correspondence between the diagram and the compiled blocks: a number for a
block, a list for a superblock. -/
inductive Cor where
  | index (number : Nat)
  | list (entries : List Cor)

/-- The value of `cor(i)(j)...`, for a path that ends at a block. -/
def Cor.lookup : Cor → List Nat → Option Nat
  | .index number, [] => some number
  | .list entries, i :: path =>
    match entry entries i with
    | some inside => inside.lookup path
    | none => none
  | _, _ => none

/-- `grep(haystack, needle)` for one needle. -/
def grep (haystack : List String) (needle : String) : List Nat :=
  positions (fun name => decide (needle.toList <:+: name.toList)) haystack

/-- `[column; row]`: below a column only a row of one number fits. -/
def stack (column row : List Nat) : Option (List Nat) :=
  if column = [] ∨ row = [] ∨ row.length = 1 then some (column ++ row) else none

/-- The variables handed through the recursion. -/
structure Search where
  ipar : List Int
  xmlList : List String
  smbId : List Nat
deriving DecidableEq

section
variable (exists_ : String → Bool) (ipptr : List Nat) (cor : Cor)

/-- `cpr.sim.ipptr(cor...)` for the block at a path. -/
def slot (path : List Nat) : Option Nat := do
  let cmpIndex ← cor.lookup path
  entry ipptr cmpIndex

/-- The end of the loop body, for an SMCube block at a path with its file. -/
def link (found : Search) (block : List Nat × String) : Option Search := do
  let xmlList :=
    if grep found.xmlList block.2 = [] then found.xmlList ++ [block.2] else found.xmlList
  let smbId ← stack found.smbId (grep xmlList block.2)
  let pointer ← slot ipptr cor block.1
  let ipar ← assign found.ipar pointer (smbId.length : Int) 0
  some { ipar := ipar, xmlList := xmlList, smbId := smbId }

/-- The loop body for a block, with the error it returns. -/
def visit (path : List Nat) (block : Block) (found : Search) : Option (Search × Nat) := do
  let exprs ← block.exprs
  if exprs.cols ≠ 5 then some (found, 0)
  else
    let name ← entry exprs.entries 4
    if name ≠ "SMCube" then some (found, 0)
    else if block.evtin ≠ [] ∧ ∀ size ∈ block.evtin, 1 < size then some (found, 1)
    else if block.evtout ≠ [] then some (found, 2)
    else
      let file ← entry exprs.entries 3
      if exists_ file = false then some (found, 3)
      else
        let found ← link ipptr cor found (path, file)
        some (found, 0)

/-- `EE_search_SmcubeBlocks` from the object `i` on, in the superblock at the path `sbnum`. -/
def search : Objs → List Nat → Nat → Search → Option (Search × Nat)
  | .nil, _, _, found => some (found, 0)
  | .other rest, sbnum, i, found => search rest sbnum (i + 1) found
  | .super inside rest, sbnum, i, found => do
    let (found, smcErr) ← search inside (sbnum ++ [i]) 1 found
    if smcErr ≠ 0 then some (found, smcErr) else search rest sbnum (i + 1) found
  | .block block rest, sbnum, i, found => do
    let (found, smcErr) ← visit exists_ ipptr cor (sbnum ++ [i]) block found
    if smcErr ≠ 0 then some (found, smcErr) else search rest sbnum (i + 1) found

end

/-- The file of an SMCube block. -/
def smcubeFile (block : Block) : Option String :=
  match block.exprs with
  | some exprs =>
    if exprs.cols = 5 ∧ entry exprs.entries 4 = some "SMCube" then entry exprs.entries 3 else none
  | none => none

/-- The SMCube blocks of a diagram with their paths and files, in the order of the search. -/
def smcubes : Objs → List Nat → Nat → List (List Nat × String)
  | .nil, _, _ => []
  | .other rest, sbnum, i => smcubes rest sbnum (i + 1)
  | .super inside rest, sbnum, i => smcubes inside (sbnum ++ [i]) 1 ++ smcubes rest sbnum (i + 1)
  | .block block rest, sbnum, i =>
    ((smcubeFile block).map fun file => (sbnum ++ [i], file)).toList ++
      smcubes rest sbnum (i + 1)

/-- The lines of `xml.list`. -/
def xmlLines (found : Search) : List (Nat × String) := numbered found.xmlList

/-- The lines of `smb.list`. -/
def smbLines (found : Search) : List (Nat × Nat) := numbered found.smbId

section
variable (exists_ : String → Bool) (ipptr : List Nat) (cor : Cor)

/-- A block passed without an error is linked, if it is an SMCube block, and skipped otherwise. -/
theorem visit_accepted (path : List Nat) (block : Block) (found next : Search)
    (visited : visit exists_ ipptr cor path block found = some (next, 0)) :
    (((smcubeFile block).map fun file => (path, file)).toList).foldlM (link ipptr cor) found =
      some next := by
  rw [smcubeFile]
  cases shown : block.exprs with
  | none => simp [visit, shown] at visited
  | some exprs =>
    simp only [visit, shown, Option.bind_eq_bind, Option.bind_some] at visited
    by_cases five : exprs.cols = 5
    · rw [if_neg (not_not.mpr five)] at visited
      obtain ⟨name, named, visited⟩ := Option.bind_eq_some_iff.mp visited
      by_cases smcube : name = "SMCube"
      · rw [if_neg (not_not.mpr smcube)] at visited
        split at visited
        · simp at visited
        · split at visited
          · simp at visited
          · obtain ⟨file, filed, visited⟩ := Option.bind_eq_some_iff.mp visited
            split at visited
            · simp at visited
            · obtain ⟨linked, answered, same⟩ := Option.bind_eq_some_iff.mp visited
              simp only [Option.some.injEq, Prod.mk.injEq, and_true] at same
              subst same smcube
              simp [five, named, filed, answered]
      · rw [if_pos smcube] at visited
        simp only [Option.some.injEq, Prod.mk.injEq, and_true] at visited
        simp [named, smcube, visited]
    · rw [if_pos five] at visited
      simp only [Option.some.injEq, Prod.mk.injEq, and_true] at visited
      simp [five, visited]

/-- An accepted search links the SMCube blocks one after the other. The levels can be
laid out in one list, and no block of it has been refused. -/
theorem search_accepted (objs : Objs) (sbnum : List Nat) (i : Nat) (found final : Search)
    (accepted : search exists_ ipptr cor objs sbnum i found = some (final, 0)) :
    (smcubes objs sbnum i).foldlM (link ipptr cor) found = some final := by
  induction objs generalizing sbnum i found final with
  | nil =>
    simp only [search, Option.some.injEq, Prod.mk.injEq, and_true] at accepted
    simp [smcubes, accepted]
  | other rest inductionHypothesis =>
    exact inductionHypothesis sbnum (i + 1) found final accepted
  | super inside rest insideHypothesis restHypothesis =>
    rw [search] at accepted
    obtain ⟨⟨between, smcErr⟩, inner, accepted⟩ := Option.bind_eq_some_iff.mp accepted
    by_cases failed : smcErr = 0
    · subst failed
      rw [smcubes, List.foldlM_append, insideHypothesis _ _ _ _ inner]
      exact restHypothesis sbnum (i + 1) between final accepted
    · simp [failed] at accepted
  | block block rest inductionHypothesis =>
    rw [search] at accepted
    obtain ⟨⟨between, smcErr⟩, visited, accepted⟩ := Option.bind_eq_some_iff.mp accepted
    by_cases failed : smcErr = 0
    · subst failed
      rw [smcubes, List.foldlM_append, visit_accepted _ _ _ _ _ _ _ visited]
      exact inductionHypothesis sbnum (i + 1) between final accepted
    · simp [failed] at accepted

end

/-- What `grep` finds. -/
theorem mem_grep (haystack : List String) (needle : String) (place : Nat) :
    place ∈ grep haystack needle ↔
      ∃ name, entry haystack place = some name ∧ needle.toList <:+: name.toList := by
  simp only [grep, mem_positions, decide_eq_true_iff]

/-- A name that `grep` does not find is not listed. -/
theorem not_mem_of_grep (haystack : List String) (needle : String)
    (none : grep haystack needle = []) : needle ∉ haystack := by
  intro member
  obtain ⟨place, found⟩ := entry_of_mem haystack needle member
  have listed := (mem_grep haystack needle place).mpr ⟨needle, found, List.infix_refl _⟩
  rw [none] at listed
  cases listed

/-- The list of files behind a block. -/
def pushed (xmlList : List String) (file : String) : List String :=
  if grep xmlList file = [] then xmlList ++ [file] else xmlList

/-- Behind the push `grep` finds the name. -/
theorem grep_pushed (xmlList : List String) (file : String) :
    grep (pushed xmlList file) file ≠ [] := by
  by_cases none : grep xmlList file = []
  · rw [pushed, if_pos none]
    apply List.ne_nil_of_mem
    exact (mem_grep _ _ _).mpr ⟨file, entry_last xmlList file, List.infix_refl _⟩
  · rwa [pushed, if_neg none]

/-- What holds behind the blocks done, whatever their files are called: no file is
listed twice, every block has one entry in `smb_id`, which names a listed file, and
its number in `ipar`. -/
structure Tracked (ipptr : List Nat) (cor : Cor) (done : List (List Nat × String))
    (found : Search) : Prop where
  distinct : found.xmlList.Nodup
  counted : found.smbId.length = done.length
  numbers : ∀ k (inside : k < done.length), ∃ pointer,
    slot ipptr cor done[k].1 = some pointer ∧
      entry found.ipar pointer = some ((k + 1 : Nat) : Int)
  known : ∀ name ∈ found.xmlList, ∃ block ∈ done, block.2 = name
  listed : ∀ file ∈ found.smbId, ∃ name, entry found.xmlList file = some name

/-- The entry of every block done names its own file. -/
def Owned (done : List (List Nat × String)) (found : Search) : Prop :=
  ∀ k (inside : k < done.length), ∃ file,
    entry found.smbId (k + 1) = some file ∧ entry found.xmlList file = some done[k].2

/-- The name of a later block is not a proper part of the name of an earlier one. -/
def Distinguished (earlier later : List Nat × String) : Prop :=
  later.2.toList <:+: earlier.2.toList → later.2 = earlier.2

instance (earlier later : List Nat × String) : Decidable (Distinguished earlier later) :=
  inferInstanceAs (Decidable (_ → _))

/-- A push keeps the files listed before. -/
theorem entry_kept (xmlList next : List String) (file : String)
    (pushed : next = xmlList ∨ next = xmlList ++ [file] ∧ file ∉ xmlList) (place : Nat)
    (name : String) (stored : entry xmlList place = some name) :
    entry next place = some name := by
  cases pushed with
  | inl same => rwa [same]
  | inr more =>
    rw [more.1]
    exact entry_append _ _ _ _ stored

/-- In an accepted run `grep` finds the name of a block at one place. -/
theorem row_single (ipptr : List Nat) (cor : Cor) (done : List (List Nat × String))
    (found : Search) (smbId : List Nat) (file : String) (tracked : Tracked ipptr cor done found)
    (stacked : stack found.smbId (grep (pushed found.xmlList file) file) = some smbId) :
    (grep (pushed found.xmlList file) file).length = 1 := by
  rw [stack, Option.ite_none_right_eq_some] at stacked
  obtain first | empty | single := stacked.1
  · -- Nothing has been done yet, so nothing is listed.
    have none : done = [] := by
      rw [← List.length_eq_zero_iff, ← tracked.counted, first]
      rfl
    have unlisted : found.xmlList = [] := by
      apply List.eq_nil_iff_forall_not_mem.mpr
      intro name member
      obtain ⟨block, inside, -⟩ := tracked.known name member
      rw [none] at inside
      cases inside
    have alone : pushed [] file = [file] := rfl
    rw [unlisted, alone]
    simp [grep, positions, entry]
  · exact absurd empty (grep_pushed _ _)
  · exact single

/-- What linking a block does: the file is appended if `grep` does not find it, and the
entry of the block is the only place where `grep` finds it then. -/
theorem link_eq (ipptr : List Nat) (cor : Cor) (done : List (List Nat × String))
    (found next : Search) (block : List Nat × String) (tracked : Tracked ipptr cor done found)
    (linked : link ipptr cor found block = some next) :
    ∃ file name pointer, next.smbId = found.smbId ++ [file] ∧
      (next.xmlList = found.xmlList ∨
        next.xmlList = found.xmlList ++ [block.2] ∧ block.2 ∉ found.xmlList) ∧
      entry next.xmlList file = some name ∧ block.2.toList <:+: name.toList ∧
      (∀ place other, entry next.xmlList place = some other →
        block.2.toList <:+: other.toList → place = file) ∧
      slot ipptr cor block.1 = some pointer ∧
      assign found.ipar pointer (next.smbId.length : Int) 0 = some next.ipar := by
  rw [link] at linked
  obtain ⟨smbId, stacked, linked⟩ := Option.bind_eq_some_iff.mp linked
  obtain ⟨pointer, slotted, linked⟩ := Option.bind_eq_some_iff.mp linked
  obtain ⟨ipar, assigned, linked⟩ := Option.bind_eq_some_iff.mp linked
  obtain rfl := Option.some.inj linked
  have stacked : stack found.smbId (grep (pushed found.xmlList block.2) block.2) = some smbId :=
    stacked
  have single := row_single ipptr cor done found smbId block.2 tracked stacked
  obtain ⟨file, row⟩ := List.length_eq_one_iff.mp single
  have smbId_eq : smbId = found.smbId ++ [file] := by
    have fits : found.smbId = [] ∨ [file] = [] ∨ [file].length = 1 := Or.inr (Or.inr rfl)
    rw [row, stack, if_pos fits] at stacked
    exact (Option.some.inj stacked).symm
  have matched : file ∈ grep (pushed found.xmlList block.2) block.2 := by
    rw [row]
    exact List.mem_singleton.mpr rfl
  obtain ⟨name, named, part⟩ := (mem_grep _ _ _).mp matched
  refine ⟨file, name, pointer, smbId_eq, ?_, named, part, ?_, slotted, assigned⟩
  · change pushed found.xmlList block.2 = _ ∨ pushed found.xmlList block.2 = _ ∧ _
    by_cases none : grep found.xmlList block.2 = []
    · exact Or.inr ⟨if_pos none, not_mem_of_grep _ _ none⟩
    · exact Or.inl (if_neg none)
  · intro place other stored inside
    have also : place ∈ grep (pushed found.xmlList block.2) block.2 :=
      (mem_grep _ _ _).mpr ⟨other, stored, inside⟩
    rw [row] at also
    exact List.mem_singleton.mp also

/-- Linking keeps the tracking, if the block has a place of its own in `ipar`. -/
theorem tracked_link (ipptr : List Nat) (cor : Cor) (done : List (List Nat × String))
    (found next : Search) (block : List Nat × String) (tracked : Tracked ipptr cor done found)
    (linked : link ipptr cor found block = some next)
    (separate : ∀ earlier ∈ done, slot ipptr cor earlier.1 ≠ slot ipptr cor block.1) :
    Tracked ipptr cor (done ++ [block]) next := by
  obtain ⟨file, name, pointer, smbId, xmlList, named, part, -, slotted, assigned⟩ :=
    link_eq ipptr cor done found next block tracked linked
  have kept := entry_kept found.xmlList next.xmlList block.2 xmlList
  have count : next.smbId.length = done.length + 1 := by
    rw [smbId, List.length_append, tracked.counted]
    rfl
  refine ⟨?_, by rw [count, List.length_append]; rfl, ?_, ?_, ?_⟩
  · cases xmlList with
    | inl same =>
      rw [same]
      exact tracked.distinct
    | inr more =>
      rw [more.1]
      exact List.nodup_append_comm.mp (List.nodup_cons.mpr ⟨more.2, tracked.distinct⟩)
  · intro k inside
    rw [List.length_append, List.length_singleton] at inside
    by_cases last : k = done.length
    · subst last
      refine ⟨pointer, by simpa using slotted, ?_⟩
      rw [← count]
      exact entry_assign_same _ _ _ _ _ assigned
    · have earlier : k < done.length := by omega
      obtain ⟨other, place, number⟩ := tracked.numbers k earlier
      refine ⟨other, by rw [List.getElem_append_left earlier]; exact place, ?_⟩
      apply entry_assign_other _ _ _ _ _ _ _ assigned ?_ number
      rintro rfl
      exact separate _ (List.getElem_mem earlier) (place.trans slotted.symm)
  · intro listed member
    have origin : listed ∈ found.xmlList ∨ listed = block.2 := by
      cases xmlList with
      | inl same => exact Or.inl (same ▸ member)
      | inr more =>
        rw [more.1, List.mem_append, List.mem_singleton] at member
        exact member
    cases origin with
    | inl old =>
      obtain ⟨earlier, inside, same⟩ := tracked.known listed old
      exact ⟨earlier, List.mem_append_left _ inside, same⟩
    | inr own => exact ⟨block, List.mem_append_right _ (List.mem_singleton.mpr rfl), own.symm⟩
  · intro entryOf member
    rw [smbId, List.mem_append, List.mem_singleton] at member
    cases member with
    | inl old =>
      obtain ⟨other, stored⟩ := tracked.listed entryOf old
      exact ⟨other, kept entryOf other stored⟩
    | inr own => exact ⟨name, own ▸ named⟩

/-- While every entry names its own file, one more block is linked to its own file if
and only if its name is not a proper part of a name before it. -/
theorem owned_link (ipptr : List Nat) (cor : Cor) (done : List (List Nat × String))
    (found next : Search) (block : List Nat × String) (tracked : Tracked ipptr cor done found)
    (owned : Owned done found) (linked : link ipptr cor found block = some next) :
    Owned (done ++ [block]) next ↔ ∀ earlier ∈ done, Distinguished earlier block := by
  obtain ⟨file, name, pointer, smbId, xmlList, named, part, only, -, -⟩ :=
    link_eq ipptr cor done found next block tracked linked
  have kept := entry_kept found.xmlList next.xmlList block.2 xmlList
  have lastEntry : entry next.smbId (done.length + 1) = some file := by
    rw [smbId, ← tracked.counted]
    exact entry_last _ _
  constructor
  · intro ownedNext earlier member inside
    -- Both the own name and the earlier one stand at the entry of the block.
    obtain ⟨own, entered, ownName⟩ := ownedNext done.length (by simp)
    rw [lastEntry, Option.some.injEq] at entered
    subst entered
    rw [List.getElem_concat_length rfl] at ownName
    obtain ⟨k, bound, rfl⟩ := List.getElem_of_mem member
    obtain ⟨place, -, stored⟩ := owned k bound
    obtain rfl := only place _ (kept place _ stored) inside
    exact Option.some.inj (ownName.symm.trans (kept place _ stored))
  · intro distinguished k inside
    rw [List.length_append, List.length_singleton] at inside
    by_cases last : k = done.length
    · subst last
      rw [List.getElem_concat_length rfl]
      refine ⟨file, lastEntry, ?_⟩
      have listed := mem_of_entry _ _ _ named
      have same : name = block.2 := by
        cases xmlList with
        | inl unchanged =>
          rw [unchanged] at listed
          obtain ⟨earlier, member, rfl⟩ := tracked.known name listed
          exact (distinguished earlier member part).symm
        | inr more =>
          rw [more.1, List.mem_append, List.mem_singleton] at listed
          cases listed with
          | inl old =>
            obtain ⟨earlier, member, rfl⟩ := tracked.known name old
            exact (distinguished earlier member part).symm
          | inr own => exact own
      rw [named, same]
    · have before : k < done.length := by omega
      obtain ⟨place, entered, stored⟩ := owned k before
      rw [List.getElem_append_left before]
      refine ⟨place, ?_, kept place _ stored⟩
      rw [smbId]
      exact entry_append _ _ _ _ entered

/-- What holds of the blocks done is not changed by later ones. -/
theorem owned_of_later (ipptr : List Nat) (cor : Cor) (done : List (List Nat × String))
    (found next : Search) (block : List Nat × String) (tracked : Tracked ipptr cor done found)
    (linked : link ipptr cor found block = some next) (owned : Owned (done ++ [block]) next) :
    Owned done found := by
  obtain ⟨file, name, pointer, smbId, xmlList, -, -, -, -, -⟩ :=
    link_eq ipptr cor done found next block tracked linked
  intro k inside
  have counted : k + 1 ≤ found.smbId.length := by
    rw [tracked.counted]
    exact inside
  obtain ⟨place, entered, stored⟩ := owned k (by rw [List.length_append]; omega)
  obtain ⟨own, ownEntry⟩ := Option.isSome_iff_exists.mp
    ((entry_isSome found.smbId (k + 1)).mpr ⟨Nat.succ_pos k, counted⟩)
  have same : entry next.smbId (k + 1) = some own := by
    rw [smbId]
    exact entry_append _ _ _ _ ownEntry
  rw [entered, Option.some.injEq] at same
  subst same
  obtain ⟨other, listed⟩ := tracked.listed place (mem_of_entry _ _ _ ownEntry)
  have kept := entry_kept found.xmlList next.xmlList block.2 xmlList place other listed
  rw [stored, Option.some.injEq, List.getElem_append_left inside] at kept
  exact ⟨place, ownEntry, by rw [listed, kept]⟩

/-- Blocks with places of their own have other places than the next block. -/
theorem separate_last (ipptr : List Nat) (cor : Cor) (done rest : List (List Nat × String))
    (block : List Nat × String)
    (separate : ((done ++ [block] ++ rest).map fun block => slot ipptr cor block.1).Nodup) :
    ∀ earlier ∈ done, slot ipptr cor earlier.1 ≠ slot ipptr cor block.1 := by
  intro earlier member same
  rw [List.map_append, List.map_append] at separate
  have apart := (List.nodup_append.mp (List.nodup_append.mp separate).1).2.2
  exact apart _ (List.mem_map.mpr ⟨earlier, member, rfl⟩) _ (List.mem_singleton.mpr rfl) same

/-- The blocks that follow keep the tracking, as every block has a place of its own in `ipar`. -/
theorem tracked_run (ipptr : List Nat) (cor : Cor) (rest done : List (List Nat × String))
    (found final : Search) (tracked : Tracked ipptr cor done found)
    (linked : rest.foldlM (link ipptr cor) found = some final)
    (separate : ((done ++ rest).map fun block => slot ipptr cor block.1).Nodup) :
    Tracked ipptr cor (done ++ rest) final := by
  induction rest generalizing done found with
  | nil =>
    obtain rfl := Option.some.inj linked
    rwa [List.append_nil]
  | cons block rest inductionHypothesis =>
    rw [List.foldlM_cons] at linked
    obtain ⟨next, first, linked⟩ := Option.bind_eq_some_iff.mp linked
    rw [List.append_cons] at separate ⊢
    exact inductionHypothesis (done ++ [block]) next
      (tracked_link ipptr cor done found next block tracked first
        (separate_last ipptr cor done rest block separate)) linked separate

/-- The blocks that follow are linked to their own files if and only if no name is a
proper part of a name before it. -/
theorem owned_run (ipptr : List Nat) (cor : Cor) (rest done : List (List Nat × String))
    (found final : Search) (tracked : Tracked ipptr cor done found)
    (linked : rest.foldlM (link ipptr cor) found = some final)
    (separate : ((done ++ rest).map fun block => slot ipptr cor block.1).Nodup) :
    Owned (done ++ rest) final ↔
      Owned done found ∧ (∀ block ∈ rest, ∀ earlier ∈ done, Distinguished earlier block) ∧
        rest.Pairwise Distinguished := by
  induction rest generalizing done found with
  | nil =>
    obtain rfl := Option.some.inj linked
    simp
  | cons block rest inductionHypothesis =>
    rw [List.foldlM_cons] at linked
    obtain ⟨next, first, linked⟩ := Option.bind_eq_some_iff.mp linked
    rw [List.append_cons] at separate ⊢
    have trackedNext := tracked_link ipptr cor done found next block tracked first
      (separate_last ipptr cor done rest block separate)
    rw [inductionHypothesis (done ++ [block]) next trackedNext linked separate,
      List.pairwise_cons, List.forall_mem_cons]
    constructor
    · rintro ⟨ownedNext, before, pairwise⟩
      have owned := owned_of_later ipptr cor done found next block tracked first ownedNext
      have here := (owned_link ipptr cor done found next block tracked owned first).mp ownedNext
      refine ⟨owned, ⟨here, ?_⟩, ?_, pairwise⟩
      · intro later member earlier inside
        exact before later member earlier (List.mem_append_left _ inside)
      · intro later member
        exact before later member block (List.mem_append_right _ (List.mem_singleton.mpr rfl))
    · rintro ⟨owned, ⟨here, before⟩, after, pairwise⟩
      refine ⟨(owned_link ipptr cor done found next block tracked owned first).mpr here, ?_,
        pairwise⟩
      intro later member earlier inside
      rw [List.mem_append, List.mem_singleton] at inside
      cases inside with
      | inl old => exact before later member earlier old
      | inr own => exact own ▸ after later member

/-- The lists lead every block to its own file: no file is listed twice, every block
has one entry, and through its number in `ipar` and this entry it finds its file. -/
structure Linked (ipptr : List Nat) (cor : Cor) (blocks : List (List Nat × String))
    (found : Search) : Prop where
  distinct : found.xmlList.Nodup
  counted : found.smbId.length = blocks.length
  own : ∀ block ∈ blocks, ∃ pointer number file,
    slot ipptr cor block.1 = some pointer ∧
      entry found.ipar pointer = some ((number : Nat) : Int) ∧
      entry found.smbId number = some file ∧ entry found.xmlList file = some block.2

/-- Before the search nothing is linked. -/
theorem tracked_nil (ipptr : List Nat) (cor : Cor) (ipar : List Int) :
    Tracked ipptr cor [] ⟨ipar, [], []⟩ :=
  ⟨List.nodup_nil, rfl, fun _ impossible => absurd impossible (Nat.not_lt_zero _),
    fun _ impossible => absurd impossible List.not_mem_nil,
    fun _ impossible => absurd impossible List.not_mem_nil⟩

/-- For every diagram the search accepts, the lists lead every SMCube block to its own
file if and only if no block's file name is a proper part of the name of a block that
is searched before it. The compiled blocks have places of their own in `ipar`. -/
theorem linked_iff (exists_ : String → Bool) (ipptr : List Nat) (cor : Cor) (objs : Objs)
    (ipar : List Int) (final : Search)
    (accepted : search exists_ ipptr cor objs [] 1 ⟨ipar, [], []⟩ = some (final, 0))
    (separate : ((smcubes objs [] 1).map fun block => slot ipptr cor block.1).Nodup) :
    Linked ipptr cor (smcubes objs [] 1) final ↔
      (smcubes objs [] 1).Pairwise Distinguished := by
  have linked := search_accepted exists_ ipptr cor objs [] 1 _ final accepted
  have tracked := tracked_run ipptr cor _ [] _ final (tracked_nil ipptr cor ipar) linked separate
  have owned := owned_run ipptr cor _ [] _ final (tracked_nil ipptr cor ipar) linked separate
  rw [List.nil_append] at tracked owned
  have none : Owned [] ⟨ipar, [], []⟩ := fun _ impossible => absurd impossible (Nat.not_lt_zero _)
  constructor
  · rintro ⟨-, -, own⟩
    refine (owned.mp ?_).2.2
    intro k inside
    obtain ⟨pointer, place, number⟩ := tracked.numbers k inside
    obtain ⟨other, given, file, slotted, numbered, entered, stored⟩ :=
      own _ (List.getElem_mem inside)
    rw [place, Option.some.injEq] at slotted
    subst slotted
    rw [number, Option.some.injEq] at numbered
    obtain rfl : k + 1 = given := by exact_mod_cast numbered
    exact ⟨file, entered, stored⟩
  · intro pairwise
    have each := owned.mpr ⟨none, fun _ _ _ impossible => absurd impossible List.not_mem_nil,
      pairwise⟩
    refine ⟨tracked.distinct, tracked.counted, ?_⟩
    intro block member
    obtain ⟨k, inside, rfl⟩ := List.getElem_of_mem member
    obtain ⟨pointer, place, number⟩ := tracked.numbers k inside
    obtain ⟨file, entered, stored⟩ := each k inside
    exact ⟨pointer, k + 1, file, place, number, entered, stored⟩

/-- An SMCube block as the palette makes it. -/
def smcubeBlock (file : String) : Block :=
  { exprs := some { rows := 1, cols := 5, entries := ["[1 1]", "[1 1]", file, "SMCube", file] }
    evtin := [1]
    evtout := [] }

/-- Two state machines, one of them in a superblock, and the first one again. -/
def lift : Objs :=
  .block (smcubeBlock "door.xml") (.super (.other (.block (smcubeBlock "lift.xml") .nil))
    (.block (smcubeBlock "door.xml") .nil))

/-- These blocks find their files. -/
theorem lift_linked :
    Linked [1, 4, 7] (.list [.index 1, .list [.index 9, .index 2], .index 3]) (smcubes lift [] 1)
      ⟨[1, 2, 8, 2, 2, 8, 3, 2, 8], ["door.xml", "lift.xml"], [1, 2, 1]⟩ :=
  (linked_iff (fun _ => true) [1, 4, 7] (.list [.index 1, .list [.index 9, .index 2], .index 3])
    lift [-1, 2, 8, -1, 2, 8, -1, 2, 8] _ (by decide) (by decide)).mpr (by decide)

/-- Not every block does: the second of two blocks has a file whose name is the end of
the first one's, and is linked to the first one's file. -/
theorem part_of_name_misleads :
    ¬ ∀ (exists_ : String → Bool) (ipptr : List Nat) (cor : Cor) (objs : Objs) (ipar : List Int)
      (final : Search), search exists_ ipptr cor objs [] 1 ⟨ipar, [], []⟩ = some (final, 0) →
      ((smcubes objs [] 1).map fun block => slot ipptr cor block.1).Nodup →
      Linked ipptr cor (smcubes objs [] 1) final := by
  intro always
  let objs : Objs := .block (smcubeBlock "backdoor.xml") (.block (smcubeBlock "door.xml") .nil)
  have linked := always (fun _ => true) [1, 4] (.list [.index 1, .index 2]) objs
    [-1, 2, 12, -1, 2, 8] ⟨[1, 2, 12, 2, 2, 8], ["backdoor.xml"], [1, 1]⟩ (by decide) (by decide)
  obtain ⟨pointer, number, file, slotted, given, entered, stored⟩ :=
    linked.own ([2], "door.xml") (by decide)
  obtain rfl : 4 = pointer := Option.some.inj slotted
  obtain rfl : 2 = number := by exact_mod_cast Option.some.inj given
  obtain rfl : 1 = file := Option.some.inj entered
  exact absurd stored (by decide)

/-- Linked lists become files that lead from the number of a block to its file. -/
theorem files_lead (ipptr : List Nat) (cor : Cor) (blocks : List (List Nat × String))
    (found : Search) (linked : Linked ipptr cor blocks found) (block : List Nat × String)
    (member : block ∈ blocks) : ∃ pointer number file, slot ipptr cor block.1 = some pointer ∧
      entry found.ipar pointer = some ((number : Nat) : Int) ∧
      (number, file) ∈ smbLines found ∧ (file, block.2) ∈ xmlLines found := by
  obtain ⟨pointer, number, file, place, given, entered, stored⟩ := linked.own block member
  exact ⟨pointer, number, file, place, given, (mem_numbered _ _ _).mpr entered,
    (mem_numbered _ _ _).mpr stored⟩

end ScicosFlex.Codegen.SmcubeBlocks
