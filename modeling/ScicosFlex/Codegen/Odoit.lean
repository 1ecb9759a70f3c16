import ScicosFlex.Codegen.Doit

/-!
# The derivative code

`write_code_odoit` and `write_code_ozdoit` in standalone mode: the text for the
blocks in `oord`, which the solver functions `simblk` and `simblk_imp` run with
phase 2. An if-then-else block is tested through an entry of the block array that
a search over the producers of links puts into the variable `tmp_`; the search
leaves `tmp_` as it is if it finds none, and Scilab then sees the last value it
was given here or by the calling function. A piece of text therefore comes with
the value of `tmp_` before it, as a `Fragment`.

Where a head line needs a `tmp_` that was never set, Scilab stops with an error and
there is no text. Whether a text is empty does not depend on `tmp_` (`ozdoit_steady`),
so the two texts that are generated for an alternative of an event-select block agree
in that.
-/

namespace ScicosFlex.Codegen

open Compiled Library.AcyclicRecursion Library.Sequences

/-- The text emitted for one activation. `inherited` is the value of `tmp_`
before it, `tested` the expression its head lines test, `passed` the value of
`tmp_` that the generators of its alternatives see. -/
structure Fragment where
  bk : Nat
  inherited : Cell
  tested : Cell
  passed : Cell
  alternatives : List Text
  text : Text

/-- The parts in which the two generators differ. -/
structure DerivativeHeads where
  ordinary : Activation → Text
  found : (bk port : Nat) → Cell
  followsLink : (bk : Nat) → Test
  followsMode : (bk : Nat) → Test

section Generators

variable (cpr : Compiled)

/-- `for i=1:lstsize(funs)-1`, `for j=1:outptr(i+1)-outptr(i)`: the output port
that drives a link; the last block is not looked at. -/
def searchProducer (found : Nat → Nat → Cell) (link : Nat) (tmp : Cell) : Cell :=
  (slice 1 cpr.nb).foldl (fun tmp bk =>
    match (slice 1 (cpr.outptr (bk + 1) - cpr.outptr bk + 1)).find?
      fun port => cpr.drivenLink bk port = link with
    | some port => found bk port
    | none => tmp) tmp

/-- The condition for an alternative of an if-then-else block. -/
def branchTest (heads : DerivativeHeads) (bk : Nat) (link : Test) (mode : Nat) : Test :=
  .or (.and (heads.followsLink bk) link) (.and (heads.followsMode bk) (.modeIs bk mode))

/-- A head line is put together with `tmp_`. Where this was never set, Scilab stops
with an error. -/
def stops (tmp : Cell) (thentxt elsetxt : Text) : Bool :=
  tmp = .unset && !(thentxt.isEmpty && elsetxt.isEmpty)

/-- The text of an if-then-else block, where the generator does not stop. -/
def ifFragment (heads : DerivativeHeads) (bk : Nat) (inherited : Cell) (thentxt elsetxt : Text) :
    Fragment × Cell :=
  let tmp := searchProducer cpr heads.found (cpr.testedLink bk) inherited
  if thentxt.isEmpty && elsetxt.isEmpty then
    ({ bk, inherited, tested := tmp, passed := inherited, alternatives := [thentxt, elsetxt],
       text := [] }, inherited)
  else
    ({ bk, inherited, tested := tmp, passed := inherited, alternatives := [thentxt, elsetxt]
       text := [.line (.comment (.ifThenElseBlk bk)),
         .ifElseIf bk (branchTest heads bk (.positive tmp) 1) thentxt
           (branchTest heads bk (.nonPositive tmp) 2) elsetxt] }, tmp)

/-- The text of an event-select block. Its alternatives are generated once for
the emptiness test and again, with the new value of `tmp_`, for the text. -/
def selectFragment (heads : DerivativeHeads) (bk : Nat) (inherited : Cell)
    (tested emitted : List Text) : Fragment × Cell :=
  let tmp : Cell := .outtb (cpr.testedLink bk)
  if (labels tested).isEmpty then
    ({ bk, inherited, tested := tmp, passed := tmp, alternatives := emitted, text := [] }, inherited)
  else
    ({ bk, inherited, tested := tmp, passed := tmp, alternatives := emitted
       text := [.line (.comment (.evtSelectBlk bk)),
         .chooseI (heads.followsLink bk) (.clamped tmp bk) (.modeZero bk),
         .switchI bk (labels tested) (caseText emitted)] }, tmp)

/-- One activation, with the value of `tmp_` before and after it. -/
def fragment (heads : DerivativeHeads) (call : Cell → Nat → Option Text) (tmp : Cell)
    (activation : Activation) : Option (Fragment × Cell) :=
  let bk := activation.1
  if cpr.Ordinary bk then
    some ({ bk, inherited := tmp, tested := tmp, passed := tmp, alternatives := [],
            text := heads.ordinary activation }, tmp)
  else if cpr.funtyp bk = -1 then do
    let thentxt ← call tmp (cpr.clkptr bk)
    let elsetxt ← call tmp (cpr.clkptr bk + 1)
    if stops (searchProducer cpr heads.found (cpr.testedLink bk) tmp) thentxt elsetxt then none
    else some (ifFragment cpr heads bk tmp thentxt elsetxt)
  else if cpr.funtyp bk = -2 then do
    let tested ← (cpr.outputEvents bk).mapM (call tmp)
    let emitted ← (cpr.outputEvents bk).mapM (call (.outtb (cpr.testedLink bk)))
    some (selectFragment cpr heads bk tmp tested emitted)
  else none

/-- A list of activations in order, with one `tmp_` for all of them. -/
def fragments (heads : DerivativeHeads) (call : Cell → Nat → Option Text) :
    Cell → List Activation → Option (List Fragment)
  | _, [] => some []
  | tmp, activation :: rest => do
    let (first, tmp) ← fragment cpr heads call tmp activation
    let later ← fragments heads call tmp rest
    some (first :: later)

/-- The heads of `write_code_ozdoit`. Only for flag 1 are actuators and sensors
told apart, and then a blank line is written even without a calling sequence. -/
def ozdoitHeads (flag : Nat) : DerivativeHeads where
  ordinary activation :=
    let (bk, pt) := activation
    if (bk ∈ cpr.act ∨ bk ∈ cpr.cap) ∧ flag = 1 then callBlock42 cpr bk pt flag ++ [.line .blank]
    else placed (callBlock42 cpr bk pt flag)
  -- `<rdnom>_block[..]`, not `block_<rdnom>[..]`.
  found := .foreign
  followsLink bk := .or .phaseIsOne (.nmodeZero bk)
  followsMode bk := .and (.not .phaseIsOne) (.not (.nmodeZero bk))

/-- One level of `write_code_ozdoit`. -/
def ozdoitStep (flag : Nat) (call : Cell × Nat → Option Text) (start : Cell × Nat) :
    Option Text := do
  let pieces ← fragments cpr (ozdoitHeads cpr flag) (fun tmp ev => call (tmp, ev)) start.1
    (cpr.activations start.2)
  some (pieces.flatMap Fragment.text)

/-- `write_code_ozdoit(ev,flag)`, called where `tmp_` has the given value. -/
def writeCodeOzdoit (fuel : Nat) (flag : Nat) (tmp : Cell) (ev : Nat) : Option Text :=
  fuelled (ozdoitStep cpr flag) fuel (tmp, ev)

/-- The heads of `write_code_odoit`. -/
def odoitHeads (flag : Nat) : DerivativeHeads where
  ordinary activation :=
    let (bk, pt) := activation
    let txt2 := callBlock42 cpr bk pt flag
    if bk ∈ cpr.cap then placed txt2
    else if flag = 10 then
      if txt2.isEmpty then [] else [.guarded (.ajacobianBlock bk) txt2, .line .blank]
    else placed txt2
  found := .outptr
  followsLink := .nmodeNegative
  followsMode := .nmodePositive

/-- The fragments of `oord`. At its first use `tmp_` is not set. -/
def odoitFragments (fuel flag : Nat) : Option (List Fragment) :=
  fragments cpr (odoitHeads cpr flag) (writeCodeOzdoit cpr fuel flag) .unset cpr.oord

/-- `write_code_odoit(flag)`. -/
def writeCodeOdoit (fuel flag : Nat) : Option Text := do
  let pieces ← odoitFragments cpr fuel flag
  some (pieces.flatMap Fragment.text)

/-- The fragments of the derivative code: those of `oord`, and below a
synchronisation block those of its output events. -/
inductive Reached (fuel flag : Nat) : (nested : Bool) → Fragment → Prop
  | top (pieces : List Fragment) (generated : odoitFragments cpr fuel flag = some pieces)
      (piece : Fragment) (member : piece ∈ pieces) : Reached fuel flag false piece
  | inner (level : Bool) (outer : Fragment) (reached : Reached fuel flag level outer)
      (synchro : ¬ cpr.Ordinary outer.bk) (ev : Nat) (output : ev ∈ cpr.outputEvents outer.bk)
      (deeper : Nat) (pieces : List Fragment)
      (generated : fragments cpr (ozdoitHeads cpr flag) (writeCodeOzdoit cpr deeper flag)
        outer.passed (cpr.activations ev) = some pieces)
      (piece : Fragment) (member : piece ∈ pieces) : Reached fuel flag true piece

end Generators

section Inversion

variable {cpr : Compiled}

/-- The fragment of an if-then-else block belongs to it. -/
theorem if_bk (heads : DerivativeHeads) (bk : Nat) (inherited : Cell) (thentxt elsetxt : Text) :
    (ifFragment cpr heads bk inherited thentxt elsetxt).1.bk = bk := by
  unfold ifFragment
  split <;> rfl

/-- The fragment of an event-select block belongs to it. -/
theorem select_bk (heads : DerivativeHeads) (bk : Nat) (inherited : Cell)
    (tested emitted : List Text) :
    (selectFragment cpr heads bk inherited tested emitted).1.bk = bk := by
  unfold selectFragment
  split <;> rfl

/-- What one activation contributes. -/
theorem fragment_cases (heads : DerivativeHeads) (call : Cell → Nat → Option Text) (tmp after : Cell)
    (activation : Activation) (piece : Fragment)
    (generated : fragment cpr heads call tmp activation = some (piece, after)) :
    (cpr.Ordinary activation.1 ∧ piece.bk = activation.1 ∧
      piece.text = heads.ordinary activation ∧ after = tmp) ∨
    (¬ cpr.Ordinary activation.1 ∧ cpr.funtyp activation.1 = -1 ∧ ∃ thentxt elsetxt,
      call tmp (cpr.clkptr activation.1) = some thentxt ∧
      call tmp (cpr.clkptr activation.1 + 1) = some elsetxt ∧
      stops (searchProducer cpr heads.found (cpr.testedLink activation.1) tmp) thentxt elsetxt =
        false ∧
      after = (ifFragment cpr heads activation.1 tmp thentxt elsetxt).2 ∧
      piece = (ifFragment cpr heads activation.1 tmp thentxt elsetxt).1) ∨
    (¬ cpr.Ordinary activation.1 ∧ cpr.funtyp activation.1 = -2 ∧ ∃ tested emitted,
      (cpr.outputEvents activation.1).mapM (call tmp) = some tested ∧
      (cpr.outputEvents activation.1).mapM (call (.outtb (cpr.testedLink activation.1))) =
        some emitted ∧
      after = (selectFragment cpr heads activation.1 tmp tested emitted).2 ∧
      piece = (selectFragment cpr heads activation.1 tmp tested emitted).1) := by
  unfold fragment at generated
  by_cases ordinary : cpr.Ordinary activation.1
  · simp only [ordinary, if_true, Option.some.injEq, Prod.mk.injEq] at generated
    obtain ⟨rfl, rfl⟩ := generated
    exact Or.inl ⟨ordinary, rfl, rfl, rfl⟩
  · by_cases ifBlock : cpr.funtyp activation.1 = -1
    · simp only [ordinary, ifBlock, if_true, if_false, Option.bind_eq_bind,
        Option.bind_eq_some_iff] at generated
      obtain ⟨thentxt, first, elsetxt, second, made⟩ := generated
      obtain ⟨going, made⟩ := Option.ite_none_left_eq_some.mp made
      have same := Option.some.inj made
      exact Or.inr (Or.inl ⟨ordinary, ifBlock, thentxt, elsetxt, first, second,
        Bool.eq_false_of_not_eq_true going, (congrArg Prod.snd same).symm,
        (congrArg Prod.fst same).symm⟩)
    · by_cases select : cpr.funtyp activation.1 = -2
      · have notIf : ¬ (-2 : Int) = -1 := by omega
        simp only [ordinary, notIf, select, if_true, if_false, Option.bind_eq_bind,
          Option.bind_eq_some_iff, Option.some.injEq] at generated
        obtain ⟨tested, first, emitted, second, same⟩ := generated
        exact Or.inr (Or.inr ⟨ordinary, select, tested, emitted, first, second,
          (congrArg Prod.snd same).symm, (congrArg Prod.fst same).symm⟩)
      · simp [ordinary, ifBlock, select] at generated

/-- A fragment belongs to the block it is generated for. -/
theorem fragment_bk (heads : DerivativeHeads) (call : Cell → Nat → Option Text) (tmp after : Cell)
    (activation : Activation) (piece : Fragment)
    (generated : fragment cpr heads call tmp activation = some (piece, after)) :
    piece.bk = activation.1 := by
  rcases fragment_cases heads call tmp after activation piece generated with
    ⟨-, same, -⟩ | ⟨-, -, thentxt, elsetxt, -, -, -, -, rfl⟩ |
    ⟨-, -, tested, emitted, -, -, -, rfl⟩
  · exact same
  · exact if_bk heads activation.1 tmp thentxt elsetxt
  · exact select_bk heads activation.1 tmp tested emitted

/-- The fragments of a list are the fragment of its first activation and those of the rest, which
start from the `tmp_` that the first one leaves. -/
theorem fragments_cons (heads : DerivativeHeads) (call : Cell → Nat → Option Text) (tmp : Cell)
    (activation : Activation) (rest : List Activation) (pieces : List Fragment) :
    fragments cpr heads call tmp (activation :: rest) = some pieces ↔
      ∃ first after later, fragment cpr heads call tmp activation = some (first, after) ∧
        fragments cpr heads call after rest = some later ∧ pieces = first :: later := by
  simp only [fragments, Option.bind_eq_bind, Option.bind_eq_some_iff, Option.some.injEq,
    Prod.exists]
  constructor
  · rintro ⟨first, after, here, later, there, rfl⟩
    exact ⟨first, after, later, here, there, rfl⟩
  · rintro ⟨first, after, later, here, there, rfl⟩
    exact ⟨first, after, here, later, there, rfl⟩

/-- Every fragment of a list comes from one of its activations. -/
theorem mem_fragments (heads : DerivativeHeads) (call : Cell → Nat → Option Text) (tmp : Cell)
    (activations : List Activation) (pieces : List Fragment)
    (generated : fragments cpr heads call tmp activations = some pieces) (piece : Fragment)
    (member : piece ∈ pieces) :
    ∃ activation ∈ activations, ∃ before after,
      fragment cpr heads call before activation = some (piece, after) := by
  induction activations generalizing tmp pieces with
  | nil =>
    obtain rfl := Option.some.inj generated
    cases member
  | cons activation rest inductionHypothesis =>
    obtain ⟨first, after, later, here, there, rfl⟩ :=
      (fragments_cons heads call tmp activation rest pieces).mp generated
    rcases List.mem_cons.mp member with rfl | member
    · exact ⟨activation, List.mem_cons_self, tmp, after, here⟩
    · obtain ⟨other, inside, found⟩ := inductionHypothesis after later there member
      exact ⟨other, List.mem_cons_of_mem _ inside, found⟩

end Inversion

section Emptiness

variable (cpr : Compiled)

/-- The labels depend only on which texts are empty. -/
theorem labels_congr (left right : List Text)
    (same : left.map List.isEmpty = right.map List.isEmpty) : labels left = labels right := by
  have length : left.length = right.length := by
    simpa using congrArg List.length same
  have empty (k : Nat) : (left.getD k []).isEmpty = (right.getD k []).isEmpty := by
    have entry := congrArg (fun list => list.getD k true) same
    simpa only [List.getD_eq_getElem?_getD, List.getElem?_map,
      ← Option.getD_map List.isEmpty, List.isEmpty_nil] using entry
  unfold labels
  rw [length]
  congr 1
  funext k
  rw [empty k]

/-- Two ways to generate a list of texts that agree on which are empty. -/
theorem mapM_empty (f g : Nat → Option Text) (events : List Nat)
    (agree : ∀ ev ∈ events, ∀ left right, f ev = some left → g ev = some right →
      left.isEmpty = right.isEmpty) (lefts rights : List Text)
    (first : events.mapM f = some lefts) (second : events.mapM g = some rights) :
    lefts.map List.isEmpty = rights.map List.isEmpty := by
  obtain ⟨eachLeft, rfl⟩ := mapM_results f events lefts first
  obtain ⟨eachRight, rfl⟩ := mapM_results g events rights second
  rw [List.map_map, List.map_map]
  apply List.map_congr_left
  intro ev member
  exact agree ev member _ _ (eachLeft ev member) (eachRight ev member)

/-- Calls whose texts are empty or not whatever `tmp_` holds. -/
def Steady (call : Cell → Nat → Option Text) : Prop :=
  ∀ left right ev leftText rightText, call left ev = some leftText →
    call right ev = some rightText → leftText.isEmpty = rightText.isEmpty

/-- The text of one activation is empty or not whatever `tmp_` holds. -/
theorem fragment_empty (heads : DerivativeHeads) (call : Cell → Nat → Option Text)
    (steady : Steady call) (activation : Activation) (left right after after' : Cell)
    (piece piece' : Fragment) (first : fragment cpr heads call left activation = some (piece, after))
    (second : fragment cpr heads call right activation = some (piece', after')) :
    piece.text.isEmpty = piece'.text.isEmpty := by
  rcases fragment_cases heads call left after activation piece first with
    ⟨ordinary, -, text, -⟩ | ⟨other, kind, thentxt, elsetxt, thens, elses, -, -, rfl⟩ |
    ⟨other, kind, tested, emitted, tests, -, -, rfl⟩ <;>
  rcases fragment_cases heads call right after' activation piece' second with
    ⟨ordinary', -, text', -⟩ | ⟨other', kind', thentxt', elsetxt', thens', elses', -, -, rfl⟩ |
    ⟨other', kind', tested', emitted', tests', -, -, rfl⟩ <;> try omega
  · rw [text, text']
  · contradiction
  · contradiction
  · contradiction
  · have sameThen := steady _ _ _ _ _ thens thens'
    have sameElse := steady _ _ _ _ _ elses elses'
    unfold ifFragment
    rw [sameThen, sameElse]
    split <;> rfl
  · contradiction
  · have same := labels_congr _ _ (mapM_empty (call left) (call right) _
      (fun ev _ leftText rightText => steady left right ev leftText rightText)
      tested tested' tests tests')
    unfold selectFragment
    rw [same]
    split <;> rfl

/-- The text of a list of activations is empty or not whatever `tmp_` holds. -/
theorem fragments_empty (heads : DerivativeHeads) (call : Cell → Nat → Option Text)
    (steady : Steady call) (activations : List Activation) (left right : Cell)
    (pieces pieces' : List Fragment)
    (first : fragments cpr heads call left activations = some pieces)
    (second : fragments cpr heads call right activations = some pieces') :
    (pieces.flatMap Fragment.text).isEmpty = (pieces'.flatMap Fragment.text).isEmpty := by
  induction activations generalizing left right pieces pieces' with
  | nil =>
    obtain rfl := Option.some.inj first
    obtain rfl := Option.some.inj second
    rfl
  | cons activation rest inductionHypothesis =>
    rw [fragments_cons] at first second
    obtain ⟨head, after, tail, here, there, rfl⟩ := first
    obtain ⟨head', after', tail', here', there', rfl⟩ := second
    have heads := fragment_empty cpr heads call steady activation left right after after' head head'
      here here'
    have tails := inductionHypothesis after after' tail tail' there there'
    rw [Bool.eq_iff_iff, List.isEmpty_iff, List.isEmpty_iff] at heads tails ⊢
    rw [List.flatMap_cons, List.flatMap_cons, List.append_eq_nil_iff, List.append_eq_nil_iff, heads,
      tails]

/-- Whether the text of an event is empty does not depend on `tmp_`. -/
theorem ozdoit_steady (fuel flag : Nat) : Steady (writeCodeOzdoit cpr fuel flag) := by
  induction fuel with
  | zero => intro left right ev leftText rightText first; cases first
  | succ fuel inductionHypothesis =>
    intro left right ev leftText rightText first second
    simp only [writeCodeOzdoit, fuelled, ozdoitStep, Option.bind_eq_bind, Option.bind_eq_some_iff,
      Option.some.injEq] at first second
    obtain ⟨pieces, here, rfl⟩ := first
    obtain ⟨pieces', here', rfl⟩ := second
    exact fragments_empty cpr (ozdoitHeads cpr flag) _ inductionHypothesis _ left right pieces pieces'
      here here'

end Emptiness

end ScicosFlex.Codegen
