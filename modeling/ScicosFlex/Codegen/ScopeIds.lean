import ScicosFlex.Library.Displacement
import ScicosFlex.Library.Vectors

/-!
# The window ids of scopes

`adjust_id_scopes` of `FlexCodeGen_.sci`, which gives every scope of a list of block
models a window of its own. Scope number `i` of the list gets the window `30000+i` if its
id is negative; the other ids are moved up until they differ from each other. Nothing
compares the two kinds.

An id is a Scilab number, a double, so that from `2^53` on `pos_win(j)+1` need not be
another number, and the loop that moves equal ids apart need not end (`huge_ids_stay`).
The results are about ids below that, with as many of them to spare as there are scopes.

An id is written back through `string` and `execstr`, so the model takes what is read back
from a printed number as a parameter: with the usual format a number of up to eight digits
is read back as it is. What has been read back is printed the same again.
-/

namespace ScicosFlex.Codegen.ScopeIds

open Library.Vectors Library.WhileLoops Library.Displacement

/-- `list_of_scopes`: the functions of scope blocks with the fields of their window ids. A
function stands in it once. -/
structure ScopeTable where
  rows : List (String × String)
  once : (rows.map Prod.fst).Nodup

/-- `list_of_scopes(ind,2)` for the function of a block. -/
def ScopeTable.field (table : ScopeTable) (sim : String) : Option String := table.rows.lookup sim

/-- The model of a block: its function and the numbers in its fields. -/
structure Model where
  sim : String
  read : String → Option Int

/-- A field gets a number. -/
def Model.write (model : Model) (field : String) (win : Int) : Model :=
  { model with read := fun other => if other = field then some win else model.read other }

/-- A row of `pos_win`, `pos_i` and `pos_ind`. -/
structure Position where
  win : Int
  i : Nat
  field : String
deriving DecidableEq, Repr

section Code

variable (table : ScopeTable) (reread : Int → Int)

/-- What the first loop leaves behind. -/
structure Collected where
  bllst : List Model
  positions : List Position
  ok : Bool

/-- The models behind one that is already done. -/
def Collected.behind (collected : Collected) (model : Model) : Collected :=
  { collected with bllst := model :: collected.bllst }

/-- The loop over the models from number `i` on. -/
def collect (i : Nat) : List Model → Collected
  | [] => { bllst := [], positions := [], ok := true }
  | model :: rest =>
    match table.field model.sim with
    | none => (collect (i + 1) rest).behind model
    | some field =>
      match model.read field with
      | none => { bllst := model :: rest, positions := [], ok := false }
      | some win =>
        if win < 0 then
          (collect (i + 1) rest).behind (model.write field (reread (30000 + i)))
        else
          let later := (collect (i + 1) rest).behind model
          { later with positions := { win, i, field } :: later.positions }

/-- A whole number as a double holds it, with 53 bits; a number in the middle between two
goes to the even one. -/
def double (number : Int) : Int :=
  let unit : Int := 2 ^ (number.natAbs.log2 - 52)
  let below := number / unit
  let twice := 2 * (number % unit)
  if twice < unit ∨ twice = unit ∧ below % 2 = 0 then below * unit else (below + 1) * unit

/-- The `for` loop inside the `while` loop, with `pos_win` and `ko` after it. -/
def sweep : List Int → List Int × Bool
  | [] => ([], false)
  | win :: rest =>
    if win ∈ rest then (double (win + 1) :: rest, true)
    else
      let (rest, ko) := sweep rest
      (win :: rest, ko)

/-- A pass of `while ko`. -/
def sweepPass (posWin : List Int) : Pass (List Int) (List Int) :=
  let (posWin, ko) := sweep posWin
  if ko then .again posWin else .leave posWin

/-- The last loop, over the rows with their final ids. -/
def writeBack (bllst : List Model) (rows : List (Position × Int)) : List Model :=
  rows.foldl (fun bllst row => bllst.modify (row.1.i - 1) fun model =>
    model.write row.1.field (reread row.2)) bllst

/-- `[bllst,ok]=adjust_id_scopes(list_of_scopes,bllst)` returns. -/
def Adjusts (bllst : List Model) (outcome : List Model × Bool) : Prop :=
  let collected := collect table reread 1 bllst
  let posWin := collected.positions.map Position.win
  if collected.ok = false then outcome = (collected.bllst, false)
  else if posWin ≠ [] ∧ posWin.length ≠ 1 then
    ∃ settled, Returns sweepPass posWin settled ∧
      outcome = (writeBack reread collected.bllst (collected.positions.zip settled), true)
  else outcome = (collected.bllst, true)

end Code

section Windows

variable (table : ScopeTable) (reread : Int → Int)

/-- The window id of a model, if it is a scope. -/
def windowOf (model : Model) : Option Int := (table.field model.sim).bind model.read

/-- The window id of the model with a number. -/
def window (bllst : List Model) (k : Nat) : Option Int := (entry bllst k).bind (windowOf table)

/-- All scopes have the field named in the table. Without it the macro would stop with
an error. -/
def Readable (bllst : List Model) : Prop :=
  ∀ model ∈ bllst, ∀ field, table.field model.sim = some field → (model.read field).isSome = true

/-- No two scopes have the same window, so that each draws into one of its own. -/
def Distinct (bllst : List Model) : Prop :=
  ∀ k other win, window table bllst k = some win → window table bllst other = some win → k = other

/-- A positive id that occurred once, and that no other scope has been given, stays. -/
def Unchanged (bllst result : List Model) : Prop :=
  ∀ k win, window table bllst k = some win → 0 < win →
    (∀ other, window table bllst other = some win → other = k) →
    (∀ other, other ≠ k → window table result other ≠ some win) →
    window table result k = some win

/-- The ids that are not negative, in the order of the list. -/
def userIds (bllst : List Model) : List Int :=
  bllst.filterMap fun model => (windowOf table model).filter fun win => 0 ≤ win

/-- The ids are so small that no number the loop comes to needs more than 53 bits. -/
def Bounded (bllst : List Model) : Prop :=
  ∀ win ∈ userIds table bllst, win + (userIds table bllst).length ≤ 2 ^ 53

instance (bllst : List Model) : Decidable (Bounded table bllst) :=
  inferInstanceAs (Decidable (∀ win ∈ userIds table bllst, _ ≤ _))

/-- What an id becomes when it is written back, which happens if there are several. -/
def shown (bllst : List Model) (win : Int) : Int :=
  if (userIds table bllst).length = 1 then win else reread win

/-- An automatic id at a number of the list. -/
def Automatic (bllst : List Model) (k : Nat) : Prop := ∃ win < 0, window table bllst k = some win

/-- The windows come out right. A window is taken if the ids from some number up to it
are as many as these numbers. -/
structure ScopeCondition (bllst : List Model) : Prop where
  automatic : ∀ k other, Automatic table bllst k → Automatic table bllst other →
    reread (30000 + k) = reread (30000 + other) → k = other
  taken : ∀ win other, Taken (userIds table bllst) win → Taken (userIds table bllst) other →
    shown table reread bllst win = shown table reread bllst other → win = other
  apart : ∀ k win, Automatic table bllst k → Taken (userIds table bllst) win →
    reread (30000 + k) ≠ shown table reread bllst win
  kept : ∀ k win, window table bllst k = some win → 0 < win →
    (∀ other, window table bllst other = some win → other = k) →
    shown table reread bllst win = win

end Windows

section Loop

/-- Numbers of up to 53 bits are doubles. -/
theorem double_eq (number : Int) (low : 0 ≤ number) (high : number ≤ 2 ^ 53) :
    double number = number := by
  rcases high.lt_or_eq with small | rfl
  · have bits : number.natAbs.log2 - 52 = 0 := by
      have below : number.natAbs < 2 ^ 53 := by omega
      by_cases zero : number.natAbs = 0
      · rw [zero]
        rfl
      · have digits := (Nat.log2_lt zero).mpr below
        omega
    simp [double, bits]
  · decide

/-- The inner loop moves the first number that stands in the list again. -/
theorem sweep_displace (posWin : List Int) (bounded : ∀ win ∈ posWin, 0 ≤ win ∧ win < 2 ^ 53) :
    sweep posWin = match displace posWin with
      | some moved => (moved, true)
      | none => (posWin, false) := by
  induction posWin with
  | nil => rfl
  | cons win rest inductionHypothesis =>
    rw [List.forall_mem_cons] at bounded
    rw [sweep, displace, inductionHypothesis bounded.2,
      double_eq (win + 1) (by omega) (by omega)]
    split
    · rfl
    · cases displace rest <;> rfl

/-- Ids that stay below `2^53` wherever they move. For these the loop, which adds one in
double precision, adds one. -/
def Exact (posWin : List Int) : Prop :=
  (∀ win ∈ posWin, 0 ≤ win) ∧ ∀ win, Taken posWin win → win < 2 ^ 53

/-- The loop is the one in which numbers give way to each other. -/
theorem sweepPass_eq (posWin : List Int) (bounded : Exact posWin) :
    sweepPass posWin = displacePass posWin := by
  rw [sweepPass, sweep_displace posWin fun win member =>
    ⟨bounded.1 win member, bounded.2 win (taken_of_mem posWin win member)⟩, displacePass]
  cases displace posWin <;> rfl

/-- They stay so. -/
theorem exact_kept (posWin moved : List Int) (bounded : Exact posWin)
    (stays : sweepPass posWin = .again moved) : Exact moved := by
  rw [sweepPass_eq posWin bounded] at stays
  have moves := displacePass_again posWin moved stays
  refine ⟨?_, fun win taken => bounded.2 win ((displace_taken posWin moved moves win).mp taken)⟩
  obtain ⟨before, number, after, rfl, -, rfl⟩ := displace_some posWin moved moves
  simp only [Exact, List.forall_mem_append, List.forall_mem_cons] at bounded ⊢
  obtain ⟨⟨front, here, back⟩, -⟩ := bounded
  exact ⟨front, by omega, back⟩

/-- What the loop returns. -/
theorem sweep_returns (posWin settled : List Int) (bounded : Exact posWin) :
    Returns sweepPass posWin settled ↔ Returns displacePass posWin settled :=
  returns_congr sweepPass displacePass Exact sweepPass_eq exact_kept posWin bounded settled

/-- Two equal ids of `2^53` keep the loop going for ever. -/
theorem huge_ids_stay : ¬ Terminates sweepPass [2 ^ 53, 2 ^ 53] :=
  not_terminates_of_return sweepPass _ (.single rfl)

end Loop

section Collecting

variable {table : ScopeTable} {reread : Int → Int}

/-- What the first loop makes of a model: an automatic id is replaced. -/
def given (table : ScopeTable) (reread : Int → Int) (i : Nat) (model : Model) : Model :=
  (table.field model.sim).elim model fun field => (model.read field).elim model fun win =>
    if win < 0 then model.write field (reread (30000 + i)) else model

/-- The row that the first loop notes for a model. -/
def noted (table : ScopeTable) (i : Nat) (model : Model) : Option Position :=
  (table.field model.sim).bind fun field => (model.read field).bind fun win =>
    if win < 0 then none else some { win, i, field }

/-- The rows of the first loop. -/
def notedRows (table : ScopeTable) (i : Nat) (bllst : List Model) : List Position :=
  (bllst.zipIdx i).filterMap fun entry => noted table entry.2 entry.1

/-- The models after the first loop. -/
def givenModels (table : ScopeTable) (reread : Int → Int) (i : Nat) (bllst : List Model) :
    List Model :=
  (bllst.zipIdx i).map fun entry => given table reread entry.2 entry.1

/-- If all ids can be read, the first loop goes through all models. -/
theorem collect_eq (i : Nat) (bllst : List Model) (readable : Readable table bllst) :
    collect table reread i bllst =
      { bllst := givenModels table reread i bllst, positions := notedRows table i bllst
        ok := true } := by
  induction bllst generalizing i with
  | nil => rfl
  | cons model rest inductionHypothesis =>
    have later := inductionHypothesis (i + 1)
      fun other member => readable other (List.mem_cons_of_mem _ member)
    rw [givenModels, notedRows] at later ⊢
    rw [collect, later, List.zipIdx_cons, List.map_cons, List.filterMap_cons]
    cases named : table.field model.sim with
    | none => simp [Collected.behind, given, noted, named]
    | some field =>
      have found := readable model List.mem_cons_self field named
      obtain ⟨win, stored⟩ := Option.isSome_iff_exists.mp found
      by_cases automatic : win < 0 <;>
        simp [Collected.behind, given, noted, named, stored, automatic]

/-- The models of a list with their numbers. -/
theorem mem_numbered (bllst : List Model) (model : Model) (k : Nat) :
    (model, k) ∈ bllst.zipIdx 1 ↔ entry bllst k = some model := by
  rw [List.mem_zipIdx_iff_le_and_getElem?_sub, entry]
  by_cases positive : k = 0
  · simp [positive]
  · rw [if_neg positive]
    exact and_iff_right (by simp only; omega)

/-- The ids after the first loop. -/
theorem given_window (i : Nat) (model : Model) :
    windowOf table (given table reread i model) =
      (windowOf table model).map fun win => if win < 0 then reread (30000 + i) else win := by
  unfold windowOf given
  cases named : table.field model.sim with
  | none => simp [named]
  | some field =>
    cases stored : model.read field with
    | none => simp [named, stored]
    | some win =>
      by_cases automatic : win < 0
      · simp [automatic, Model.write, named, stored]
      · simp [automatic, named, stored]

/-- The first loop keeps the functions of the blocks. -/
theorem given_sim (i : Nat) (model : Model) : (given table reread i model).sim = model.sim := by
  unfold given
  cases named : table.field model.sim with
  | none => rfl
  | some field =>
    cases stored : model.read field with
    | none => simp [stored]
    | some win =>
      simp only [Option.elim_some, stored]
      split <;> rfl

/-- The models after the first loop, one by one. -/
theorem given_entry (bllst : List Model) (k : Nat) :
    entry (givenModels table reread 1 bllst) k = (entry bllst k).map (given table reread k) := by
  rw [givenModels, entry_map]
  unfold entry
  split
  · rfl
  · have number : 1 + (k - 1) = k := by omega
    rw [List.getElem?_zipIdx, Option.map_map, number]
    rfl

/-- The rows are those of the ids that are not negative. -/
theorem mem_noted (bllst : List Model) (position : Position) :
    position ∈ notedRows table 1 bllst ↔ 0 ≤ position.win ∧ ∃ model,
      entry bllst position.i = some model ∧ table.field model.sim = some position.field ∧
        model.read position.field = some position.win := by
  rw [notedRows, List.mem_filterMap]
  constructor
  · rintro ⟨⟨model, k⟩, member, found⟩
    rw [mem_numbered] at member
    simp only [noted, Option.bind_eq_some_iff] at found
    obtain ⟨field, named, win, stored, row⟩ := found
    split at row
    · cases row
    · rename_i user
      obtain rfl := Option.some.inj row
      exact ⟨not_lt.mp user, model, member, named, stored⟩
  · rintro ⟨user, model, member, named, stored⟩
    refine ⟨(model, position.i), (mem_numbered bllst model position.i).mpr member, ?_⟩
    simp [noted, named, stored, not_lt.mpr user]

/-- The ids of the rows, in order. -/
theorem noted_wins (i : Nat) (bllst : List Model) :
    (notedRows table i bllst).map Position.win = userIds table bllst := by
  have each (i : Nat) (model : Model) : (noted table i model).map Position.win =
      (windowOf table model).filter fun win => 0 ≤ win := by
    unfold noted windowOf
    cases table.field model.sim with
    | none => rfl
    | some field =>
      simp only [Option.bind_some]
      cases model.read field with
      | none => rfl
      | some win =>
        by_cases automatic : win < 0
        · simp [automatic, Option.filter]
        · simp [automatic, Option.filter, not_lt.mp automatic]
  induction bllst generalizing i with
  | nil => rfl
  | cons model rest inductionHypothesis =>
    have later := inductionHypothesis (i + 1)
    rw [notedRows, userIds] at later ⊢
    rw [List.zipIdx_cons, List.filterMap_cons, List.filterMap_cons, ← each i model, ← later]
    cases noted table i model <;> rfl

/-- The rows belong to different models. -/
theorem noted_once (bllst : List Model) : ((notedRows table 1 bllst).map Position.i).Nodup := by
  have rising : (bllst.zipIdx 1).Pairwise fun first second => first.2 < second.2 := by
    have numbers : ((bllst.zipIdx 1).map Prod.snd).Pairwise (· < ·) := by
      rw [List.zipIdx_map_snd]
      exact List.pairwise_lt_range'
    exact List.pairwise_map.mp numbers
  have number (i : Nat) (model : Model) (position : Position)
      (found : noted table i model = some position) : position.i = i := by
    simp only [noted, Option.bind_eq_some_iff] at found
    obtain ⟨field, -, win, -, row⟩ := found
    split at row
    · cases row
    · rw [← Option.some.inj row]
  refine List.pairwise_map.mpr (List.pairwise_filterMap.mpr (rising.imp ?_))
  intro first second less position found other after same
  rw [number _ _ position found, number _ _ other after] at same
  exact absurd same less.ne

end Collecting

section Writing

variable {table : ScopeTable} {reread : Int → Int}

/-- A list with one entry changed. -/
theorem entry_modify {α : Type} (xs : List α) (f : α → α) (number k : Nat) (x : α)
    (found : entry xs number = some x) :
    entry (xs.modify (number - 1) f) k = if k = number then some (f x) else entry xs k := by
  have positive : number ≠ 0 := by
    rintro rfl
    cases found
  rw [entry, if_neg positive] at found
  unfold entry
  by_cases zero : k = 0
  · simp [zero, positive.symm]
  · rw [if_neg zero, if_neg zero, List.getElem?_modify]
    by_cases same : k = number
    · simp [same, found]
    · have other : ¬ number - 1 = k - 1 := by omega
      simp [same, other]

/-- The windows after the last loop: those of the rows, and the others as they were. -/
theorem writeBack_window (rows : List (Position × Int)) (bllst : List Model)
    (once : (rows.map fun row => row.1.i).Nodup)
    (fields : ∀ row ∈ rows, ∃ model, entry bllst row.1.i = some model ∧
      table.field model.sim = some row.1.field) (k : Nat) (win : Int) :
    window table (writeBack reread bllst rows) k = some win ↔
      (∃ row ∈ rows, row.1.i = k ∧ win = reread row.2) ∨
        (∀ row ∈ rows, row.1.i ≠ k) ∧ window table bllst k = some win := by
  induction rows generalizing bllst with
  | nil => simp [writeBack]
  | cons row rest inductionHypothesis =>
    rw [List.map_cons, List.nodup_cons] at once
    obtain ⟨model, found, named⟩ := fields row List.mem_cons_self
    let next := bllst.modify (row.1.i - 1) fun model => model.write row.1.field (reread row.2)
    have changed (other : Nat) : entry next other =
        if other = row.1.i then some (model.write row.1.field (reread row.2))
        else entry bllst other := entry_modify bllst _ row.1.i other model found
    have apart (other : Position × Int) (member : other ∈ rest) : other.1.i ≠ row.1.i :=
      fun same => once.1 (same ▸ List.mem_map.mpr ⟨other, member, rfl⟩)
    have later := inductionHypothesis next once.2 fun other member => by
      obtain ⟨model', found', named'⟩ := fields other (List.mem_cons_of_mem _ member)
      exact ⟨model', by rw [changed, if_neg (apart other member), found'], named'⟩
    have shape : writeBack reread bllst (row :: rest) = writeBack reread next rest := rfl
    rw [shape, later]
    by_cases here : k = row.1.i
    · have written : window table next k = some (reread row.2) := by
        rw [window, changed, if_pos here]
        simp [windowOf, Model.write, named]
      have none (other : Position × Int) (member : other ∈ rest) : other.1.i ≠ k :=
        here ▸ apart other member
      constructor
      · rintro (⟨other, member, same, -⟩ | ⟨-, window⟩)
        · exact absurd same (none other member)
        · rw [written] at window
          exact Or.inl ⟨row, List.mem_cons_self, here.symm, (Option.some.inj window).symm⟩
      · rintro (⟨other, member, same, rfl⟩ | ⟨elsewhere, -⟩)
        · rcases List.mem_cons.mp member with rfl | member
          · exact Or.inr ⟨none, written⟩
          · exact absurd same (none other member)
        · exact absurd here.symm (elsewhere row List.mem_cons_self)
    · have kept : window table next k = window table bllst k := by
        rw [window, changed, if_neg here, window]
      rw [kept]
      simp [Ne.symm here]

end Writing

section Outcome

variable {table : ScopeTable} {reread : Int → Int}

/-- The windows at the end: an automatic id has become a number of its own, the others
have come to fill the taken numbers. `rows` are the rows with the ids that the loop has
given them. -/
structure Final (table : ScopeTable) (reread : Int → Int) (bllst result : List Model)
    (rows : List (Position × Int)) : Prop where
  rows_iff : ∀ position, position ∈ rows.map Prod.fst ↔
    0 ≤ position.win ∧ ∃ model, entry bllst position.i = some model ∧
      table.field model.sim = some position.field ∧ model.read position.field = some position.win
  places : (rows.map fun row => row.1.i).Nodup
  once : (rows.map Prod.snd).Nodup
  fills : ∀ win, win ∈ rows.map Prod.snd ↔ Taken (userIds table bllst) win
  windows : ∀ k win, window table result k = some win ↔
    Automatic table bllst k ∧ win = reread (30000 + k) ∨
      ∃ row ∈ rows, row.1.i = k ∧ win = shown table reread bllst row.2

/-- The windows after the first loop. -/
theorem collected_window (bllst : List Model) (k : Nat) (win : Int) :
    window table (givenModels table reread 1 bllst) k = some win ↔
      Automatic table bllst k ∧ win = reread (30000 + k) ∨
        0 ≤ win ∧ window table bllst k = some win := by
  unfold Automatic window
  rw [given_entry, Option.bind_map]
  cases entry bllst k with
  | none => simp
  | some model =>
    simp only [Option.bind_some, Function.comp_apply, given_window]
    cases windowOf table model with
    | none => simp
    | some old =>
      by_cases automatic : old < 0
      · simp [automatic, eq_comm]
        omega
      · simp [automatic]
        omega

/-- The windows of the rows as they were read. -/
theorem notedRows_window (bllst : List Model) (k : Nat) (win : Int) :
    (∃ position ∈ notedRows table 1 bllst, position.i = k ∧ position.win = win) ↔
      0 ≤ win ∧ window table bllst k = some win := by
  constructor
  · rintro ⟨position, member, rfl, rfl⟩
    obtain ⟨user, model, found, named, stored⟩ := (mem_noted bllst position).mp member
    exact ⟨user, by simp [window, windowOf, found, named, stored]⟩
  · rintro ⟨user, found⟩
    simp only [window, windowOf, Option.bind_eq_some_iff] at found
    obtain ⟨model, stands, field, named, stored⟩ := found
    exact ⟨⟨win, k, field⟩, (mem_noted bllst _).mpr ⟨user, model, stands, named, stored⟩, rfl, rfl⟩

/-- An id that is not negative is not automatic. -/
theorem not_automatic (bllst : List Model) (k : Nat) (win : Int) (user : 0 ≤ win)
    (found : window table bllst k = some win) : ¬ Automatic table bllst k := by
  rintro ⟨old, automatic, same⟩
  rw [found] at same
  obtain rfl := Option.some.inj same
  omega

/-- Bounded ids stay doubles wherever the loop moves them. -/
theorem exact_ids (bllst : List Model) (bounded : Bounded table bllst) :
    Exact (userIds table bllst) := by
  refine ⟨fun win member => ?_, fun win taken => ?_⟩
  · obtain ⟨model, -, found⟩ := List.mem_filterMap.mp member
    simpa using (Option.filter_eq_some_iff.mp found).2
  · have below := taken_le (userIds table bllst) (2 ^ 53 - (userIds table bllst).length)
      (fun number member => by have room := bounded number member; omega) win taken
    omega

/-- At most one id: nothing is written back, and so the id is not printed and read
again either. -/
theorem final_few (bllst : List Model) (few : (notedRows table 1 bllst).length ≤ 1) :
    Final table reread bllst
      (givenModels table reread 1 bllst)
      ((notedRows table 1 bllst).map fun position => (position, position.win)) := by
  have wins : (notedRows table 1 bllst).map Position.win = userIds table bllst := noted_wins 1 bllst
  have length : (userIds table bllst).length = (notedRows table 1 bllst).length := by
    rw [← wins, List.length_map]
  have single : (userIds table bllst).Nodup := by
    match ids : userIds table bllst with
    | [] => exact List.nodup_nil
    | [win] => exact List.nodup_singleton win
    | _ :: _ :: _ =>
      rw [ids] at length
      simp only [List.length_cons] at length
      omega
  have seconds : ((notedRows table 1 bllst).map fun position => (position, position.win)).map
      Prod.snd = userIds table bllst := by
    rw [List.map_map, ← wins]
    rfl
  refine ⟨fun position => ?_, ?_, by rwa [seconds], fun win => ?_, fun k win => ?_⟩
  · rw [List.map_map, ← mem_noted]
    simp
  · rw [List.map_map]
    exact noted_once bllst
  · rw [seconds]
    exact (taken_iff_mem _ single win).symm
  · rw [collected_window, ← notedRows_window]
    refine or_congr_right ?_
    simp only [List.mem_map, exists_exists_and_eq_and]
    refine exists_congr fun position => and_congr_right fun member => and_congr_right fun _ => ?_
    have some : (userIds table bllst).length = 1 := by
      have positive := List.length_pos_of_mem member
      omega
    rw [shown, if_pos some, eq_comm]

/-- Several ids are written back when the loop has settled them. The loop keeps their
number and their places, so each finds the scope that it belongs to. -/
theorem final_several (bllst : List Model) (several : 1 < (notedRows table 1 bllst).length)
    (settled : List Int)
    (bounded : Bounded table bllst)
    (rests : Returns sweepPass ((notedRows table 1 bllst).map Position.win) settled) :
    Final table reread bllst
      (writeBack reread (givenModels table reread 1 bllst)
        ((notedRows table 1 bllst).zip settled))
      ((notedRows table 1 bllst).zip settled) := by
  have wins : (notedRows table 1 bllst).map Position.win = userIds table bllst := noted_wins 1 bllst
  rw [wins, sweep_returns _ _ (exact_ids bllst bounded)] at rests
  obtain ⟨once, length, fills⟩ := displace_settles (userIds table bllst) settled rests
  have count : (userIds table bllst).length = (notedRows table 1 bllst).length := by
    rw [← wins, List.length_map]
  have firsts : ((notedRows table 1 bllst).zip settled).map Prod.fst = notedRows table 1 bllst :=
    List.map_fst_zip (by omega)
  have seconds : ((notedRows table 1 bllst).zip settled).map Prod.snd = settled :=
    List.map_snd_zip (by omega)
  have places : (((notedRows table 1 bllst).zip settled).map fun row => row.1.i).Nodup := by
    have numbers : (((notedRows table 1 bllst).zip settled).map Prod.fst).map Position.i =
        ((notedRows table 1 bllst).zip settled).map fun row => row.1.i := by
      rw [List.map_map]
      rfl
    rw [← numbers, firsts]
    exact noted_once bllst
  have member (row : Position × Int) (inside : row ∈ (notedRows table 1 bllst).zip settled) :
      row.1 ∈ notedRows table 1 bllst := (List.of_mem_zip inside).1
  have written (win : Int) : shown table reread bllst win = reread win := if_neg (by omega)
  refine ⟨fun position => by rw [firsts, mem_noted], places, by rwa [seconds],
    fun win => by rw [seconds, fills], fun k win => ?_⟩
  rw [writeBack_window _ _ places, collected_window]
  · constructor
    · rintro (⟨row, inside, place, value⟩ | ⟨none, automatic | ⟨user, found⟩⟩)
      · exact Or.inr ⟨row, inside, place, by rw [written, value]⟩
      · exact Or.inl automatic
      · obtain ⟨position, noted, place, -⟩ := (notedRows_window bllst k win).mpr ⟨user, found⟩
        rw [← firsts, List.mem_map] at noted
        obtain ⟨row, inside, rfl⟩ := noted
        exact absurd place (none row inside)
    · rintro (automatic | ⟨row, inside, place, value⟩)
      · refine Or.inr ⟨fun row inside place => ?_, Or.inl automatic⟩
        obtain ⟨user, found⟩ := (notedRows_window bllst row.1.i row.1.win).mp
          ⟨row.1, member row inside, rfl, rfl⟩
        exact not_automatic bllst row.1.i row.1.win user found (place ▸ automatic.1)
      · exact Or.inl ⟨row, inside, place, by rw [value, written]⟩
  · intro row inside
    obtain ⟨-, model, found, named, -⟩ := (mem_noted bllst row.1).mp (member row inside)
    exact ⟨given table reread row.1.i model, by rw [given_entry, found, Option.map_some],
      by rw [given_sim, named]⟩

/-- Every run ends well, with the windows described. The loop over the ids ends with
some displacement, and all displacements of a list fill the same numbers. -/
theorem adjusts_final (bllst : List Model) (readable : Readable table bllst)
    (bounded : Bounded table bllst) (outcome : List Model × Bool) (adjusts : Adjusts table reread bllst outcome) :
    outcome.2 = true ∧ ∃ rows, Final table reread bllst outcome.1 rows := by
  simp only [Adjusts, collect_eq 1 bllst readable, Bool.true_eq_false, if_false, List.length_map,
    ne_eq, List.map_eq_nil_iff] at adjusts
  split at adjusts
  · rename_i several
    obtain ⟨settled, rests, rfl⟩ := adjusts
    have count := List.length_pos_iff.mpr several.1
    exact ⟨rfl, _, final_several bllst (by omega) settled bounded rests⟩
  · rename_i few
    subst adjusts
    refine ⟨rfl, _, final_few bllst ?_⟩
    by_contra many
    refine few ⟨?_, by omega⟩
    rintro empty
    simp [empty] at many

/-- There is a run, as the ids that the loop moves go up and there is room for all of them. -/
theorem adjusts_exists (bllst : List Model) (readable : Readable table bllst)
    (bounded : Bounded table bllst) : ∃ result, Adjusts table reread bllst (result, true) := by
  obtain ⟨settled, rests⟩ := displace_terminates (userIds table bllst)
  rw [← sweep_returns _ _ (exact_ids bllst bounded), ← noted_wins 1 bllst] at rests
  simp only [Adjusts, collect_eq 1 bllst readable, Bool.true_eq_false, if_false]
  split
  · exact ⟨_, settled, rests, rfl⟩
  · exact ⟨_, rfl⟩

end Outcome

section Main

variable {table : ScopeTable} {reread : Int → Int} {bllst result : List Model}
  {rows : List (Position × Int)}

/-- The place of a row held the id of the row. -/
theorem Final.row_window (final : Final table reread bllst result rows) (row : Position × Int)
    (member : row ∈ rows) : 0 ≤ row.1.win ∧ window table bllst row.1.i = some row.1.win := by
  obtain ⟨user, model, found, named, stored⟩ :=
    (final.rows_iff row.1).mp (List.mem_map_of_mem member)
  exact ⟨user, by simp [window, windowOf, found, named, stored]⟩

/-- The place of a row had no automatic id. -/
theorem Final.row_user (final : Final table reread bllst result rows) (row : Position × Int)
    (member : row ∈ rows) : ¬ Automatic table bllst row.1.i := by
  obtain ⟨user, found⟩ := final.row_window row member
  exact not_automatic bllst row.1.i row.1.win user found

/-- A taken number is the window of a row. -/
theorem Final.row_of_taken (final : Final table reread bllst result rows) (win : Int)
    (taken : Taken (userIds table bllst) win) : ∃ row ∈ rows, row.2 = win ∧
      window table result row.1.i = some (shown table reread bllst win) := by
  obtain ⟨row, member, rfl⟩ := List.mem_map.mp ((final.fills win).mpr taken)
  exact ⟨row, member, rfl, (final.windows _ _).mpr (Or.inr ⟨row, member, rfl, rfl⟩)⟩

/-- A number that is written back as another one is nobody's window. -/
theorem Final.nobody (final : Final table reread bllst result rows)
    (idempotent : ∀ win, reread (reread win) = reread win) (win : Int)
    (moved : shown table reread bllst win ≠ win) (k : Nat) : window table result k ≠ some win := by
  have several : (userIds table bllst).length ≠ 1 := by
    intro single
    exact moved (if_pos single)
  have written (old : Int) : shown table reread bllst old = reread old := if_neg several
  rw [written] at moved
  intro found
  rcases (final.windows k win).mp found with ⟨-, rfl⟩ | ⟨row, -, -, value⟩
  · exact moved (idempotent _)
  · rw [written] at value
    subst value
    exact moved (idempotent _)

/-- The windows of a final list are right exactly under the condition. Only what the
loop has settled on is needed here, not how it has come to it. -/
theorem Final.right_iff (final : Final table reread bllst result rows)
    (idempotent : ∀ win, reread (reread win) = reread win) :
    Distinct table result ∧ Unchanged table bllst result ↔
      ScopeCondition table reread bllst := by
  constructor
  · rintro ⟨distinct, unchanged⟩
    refine ⟨?_, ?_, ?_, ?_⟩
    · intro k other first second same
      exact distinct k other _ ((final.windows _ _).mpr (Or.inl ⟨first, rfl⟩))
        ((final.windows _ _).mpr (Or.inl ⟨second, same⟩))
    · intro win other first second same
      obtain ⟨row, member, rfl, here⟩ := final.row_of_taken win first
      obtain ⟨row', member', rfl, there⟩ := final.row_of_taken other second
      have place : row.1.i = row'.1.i := distinct _ _ _ here (same ▸ there)
      rw [List.inj_on_of_nodup_map final.places member member' place]
    · intro k win first second same
      obtain ⟨row, member, rfl, there⟩ := final.row_of_taken win second
      have place : k = row.1.i :=
        distinct _ _ _ ((final.windows _ _).mpr (Or.inl ⟨first, rfl⟩)) (same ▸ there)
      exact final.row_user row member (place ▸ first)
    · intro k win found positive once
      by_contra moved
      have nobody := final.nobody idempotent win moved
      exact nobody k (unchanged k win found positive once fun other _ => nobody other)
  · rintro ⟨automatic, taken, apart, kept⟩
    refine ⟨?_, ?_⟩
    · intro k other win here there
      rcases (final.windows k win).mp here with ⟨first, rfl⟩ | ⟨row, member, rfl, rfl⟩ <;>
      rcases (final.windows other _).mp there with ⟨second, same⟩ | ⟨row', member', rfl, same⟩
      · exact automatic k other first second same
      · exact absurd same (apart k row'.2 first
          ((final.fills _).mp (List.mem_map_of_mem member')))
      · exact absurd same.symm (apart other row.2 second
          ((final.fills _).mp (List.mem_map_of_mem member)))
      · have ids : row.2 = row'.2 := taken _ _ ((final.fills _).mp (List.mem_map_of_mem member))
          ((final.fills _).mp (List.mem_map_of_mem member')) same
        rw [List.inj_on_of_nodup_map final.once member member' ids]
    · intro k win found positive once others
      have member : win ∈ userIds table bllst := by
        obtain ⟨model, stands, read⟩ := Option.bind_eq_some_iff.mp found
        refine List.mem_filterMap.mpr ⟨model, mem_of_entry bllst k model stands, ?_⟩
        simp [read, Option.filter, positive.le]
      obtain ⟨row, -, -, there⟩ := final.row_of_taken win (taken_of_mem _ win member)
      rw [kept k win found positive once] at there
      by_cases place : row.1.i = k
      · rwa [place] at there
      · exact absurd there (others row.1.i place)

end Main

/-- For ids below `2^53`, with one number to spare for each scope, the function returns
with `ok` true; the window ids of all scopes come out different, and unique ones
unchanged, exactly under the condition. Larger ids are left out: a double stays the same
when one is added to it, and the loop need not end. How a number is printed and read
again is left open, but for that a second time changes nothing. -/
theorem scope_ids_iff (table : ScopeTable) (reread : Int → Int)
    (idempotent : ∀ win, reread (reread win) = reread win) (bllst : List Model)
    (readable : Readable table bllst) (bounded : Bounded table bllst) :
    (∃ result, Adjusts table reread bllst (result, true)) ∧
      ∀ outcome, Adjusts table reread bllst outcome → outcome.2 = true ∧
        (Distinct table outcome.1 ∧ Unchanged table bllst outcome.1 ↔
          ScopeCondition table reread bllst) := by
  refine ⟨adjusts_exists bllst readable bounded, fun outcome adjusts => ?_⟩
  obtain ⟨ok, rows, final⟩ := adjusts_final bllst readable bounded outcome adjusts
  exact ⟨ok, final.right_iff idempotent⟩

/-- A table with one kind of scope. -/
def scopes : ScopeTable where
  rows := [("cscope", "ipar(1)")]
  once := by decide

/-- Scopes with given window ids. -/
def scopesWith (ids : List Int) : List Model :=
  ids.map fun win =>
    { sim := "cscope", read := fun field => if field = "ipar(1)" then some win else none }

theorem scopesWith_readable (ids : List Int) : Readable scopes (scopesWith ids) := by
  intro model member field named
  obtain ⟨win, -, rfl⟩ := List.mem_map.mp member
  have only : scopes.field "cscope" = some "ipar(1)" := by decide
  rw [only] at named
  obtain rfl := Option.some.inj named
  rfl

/-- An instance: three scopes, two of them with the same window. -/
theorem three_scopes :
    (∃ result, Adjusts scopes id (scopesWith [2, -1, 2]) (result, true)) ∧
      ∀ outcome, Adjusts scopes id (scopesWith [2, -1, 2]) outcome → outcome.2 = true ∧
        (Distinct scopes outcome.1 ∧ Unchanged scopes (scopesWith [2, -1, 2]) outcome.1 ↔
          ScopeCondition scopes id (scopesWith [2, -1, 2])) :=
  scope_ids_iff scopes id (fun _ => rfl) (scopesWith [2, -1, 2]) (scopesWith_readable _)
    (by decide)

/-- The first scope gets the window that the second one has. -/
theorem automatic_clash : ¬ ∃ result,
    Adjusts scopes id (scopesWith [-1, 30001]) (result, true) ∧ Distinct scopes result := by
  rintro ⟨result, adjusts, distinct⟩
  obtain ⟨-, rows, final⟩ := adjusts_final _ (scopesWith_readable _) (by decide) _ adjusts
  have automatic : Automatic scopes (scopesWith [-1, 30001]) 1 := ⟨-1, by decide, by decide⟩
  have taken : Taken (userIds scopes (scopesWith [-1, 30001])) 30001 :=
    taken_of_mem _ _ (by decide)
  obtain ⟨row, member, -, there⟩ := final.row_of_taken 30001 taken
  have here : window scopes result 1 = some 30001 :=
    (final.windows 1 30001).mpr (Or.inl ⟨automatic, rfl⟩)
  have place : 1 = row.1.i := distinct 1 row.1.i 30001 here there
  exact final.row_user row member (place ▸ automatic)

end ScicosFlex.Codegen.ScopeIds
