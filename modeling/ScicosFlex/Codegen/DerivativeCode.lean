import ScicosFlex.Codegen.Odoit
import ScicosFlex.Codegen.Reached

/-!
# Where the derivative code exists

A text of `write_code_odoit` or `write_code_ozdoit` is empty exactly if no activation of
the list has code (`ozdoit_written`). The generators stop with an error where the head line
of an if-then-else block needs a `tmp_` that was never set: its link is driven by none of
the blocks that are searched, and no synchronisation block with code came before it. `Halts`
says this of the schedule alone, and `odoit_iff` that on a well formed schedule nothing
else stops the generators.

Once `tmp_` is set it stays so, in the list and in everything below it; hence only the first
synchronisation blocks of each list matter.
-/

namespace ScicosFlex.Codegen

open Compiled Library.AcyclicRecursion Library.Sequences

section Search

variable (cpr : Compiled)

/-- The search finds a producer of a link. -/
def Searched (link : Nat) : Prop :=
  ∃ bk ∈ slice 1 cpr.nb, ∃ port ∈ slice 1 (cpr.outptr (bk + 1) - cpr.outptr bk + 1),
    cpr.drivenLink bk port = link

/-- The search either ends on a port that drives the link or leaves `tmp_`. -/
theorem search_cases (found : Nat → Nat → Cell) (link : Nat) (tmp : Cell) :
    (Searched cpr link ∧ ∃ bk port, searchProducer cpr found link tmp = found bk port ∧
      cpr.drivenLink bk port = link) ∨
    (¬ Searched cpr link ∧ searchProducer cpr found link tmp = tmp) := by
  unfold searchProducer Searched
  generalize slice 1 cpr.nb = blocks
  induction blocks generalizing tmp with
  | nil => exact Or.inr ⟨by simp, rfl⟩
  | cons bk rest inductionHypothesis =>
    rw [List.foldl_cons]
    cases here : (slice 1 (cpr.outptr (bk + 1) - cpr.outptr bk + 1)).find?
        fun port => cpr.drivenLink bk port = link with
    | some port =>
      have drives : cpr.drivenLink bk port = link := by
        simpa using List.find?_some here
      have searched := List.mem_of_find?_eq_some here
      rcases inductionHypothesis (found bk port) with ⟨-, later⟩ | ⟨-, same⟩
      · exact Or.inl ⟨⟨bk, List.mem_cons_self, port, searched, drives⟩, later⟩
      · exact Or.inl ⟨⟨bk, List.mem_cons_self, port, searched, drives⟩, bk, port, same, drives⟩
    | none =>
      have absent (port : Nat)
          (member : port ∈ slice 1 (cpr.outptr (bk + 1) - cpr.outptr bk + 1)) :
          ¬ cpr.drivenLink bk port = link := by
        simpa using List.find?_eq_none.mp here port member
      rcases inductionHypothesis tmp with ⟨⟨other, member, port, searched, drives⟩, later⟩ | ⟨none, same⟩
      · exact Or.inl ⟨⟨other, List.mem_cons_of_mem _ member, port, searched, drives⟩, later⟩
      · refine Or.inr ⟨?_, same⟩
        rintro ⟨other, member, port, searched, drives⟩
        rcases List.mem_cons.mp member with rfl | later
        · exact absent port searched drives
        · exact none ⟨other, later, port, searched, drives⟩

end Search

section Lists

variable {cpr : Compiled}

/-- What holds for the fragments of a list if it holds for each activation
whatever `tmp_` is. -/
theorem fragments_forall (heads : DerivativeHeads) (call : Cell → Nat → Option Text)
    (P : Activation → Prop) (Q : Fragment → Prop) (activations : List Activation)
    (same : ∀ activation ∈ activations, ∀ before piece after,
      fragment cpr heads call before activation = some (piece, after) → (Q piece ↔ P activation))
    (tmp : Cell) (pieces : List Fragment)
    (generated : fragments cpr heads call tmp activations = some pieces) :
    (∀ piece ∈ pieces, Q piece) ↔ ∀ activation ∈ activations, P activation := by
  induction activations generalizing tmp pieces with
  | nil =>
    obtain rfl := Option.some.inj generated
    simp
  | cons activation rest inductionHypothesis =>
    obtain ⟨first, after, later, here, there, rfl⟩ :=
      (fragments_cons heads call tmp activation rest pieces).mp generated
    have head := same activation List.mem_cons_self tmp first after here
    have tail := inductionHypothesis
      (fun other member => same other (List.mem_cons_of_mem _ member)) after later there
    rw [List.forall_mem_cons, List.forall_mem_cons, head, tail]

end Lists

section Written

variable {cpr : Compiled}

/-- An if-then-else block has a text if one of its alternatives has. -/
theorem ifFragment_written (heads : DerivativeHeads) (bk : Nat) (inherited : Cell)
    (thentxt elsetxt : Text) :
    (ifFragment cpr heads bk inherited thentxt elsetxt).1.text ≠ [] ↔ thentxt ≠ [] ∨ elsetxt ≠ [] := by
  by_cases empty : thentxt = [] ∧ elsetxt = []
  · simp [ifFragment, empty]
  · rw [ifFragment, if_neg (by simpa using empty)]
    simpa using Decidable.not_and_iff_not_or_not.mp empty

/-- An event-select block has a text if one of the tested alternatives has. -/
theorem selectFragment_written (heads : DerivativeHeads) (bk : Nat) (inherited : Cell)
    (tested emitted : List Text) :
    (selectFragment cpr heads bk inherited tested emitted).1.text ≠ [] ↔ labels tested ≠ [] := by
  by_cases empty : labels tested = []
  · simp [selectFragment, empty]
  · rw [selectFragment, if_neg (by simpa using empty)]
    simpa using empty

/-- One activation has a text exactly if it has code, provided the calls for its output
events tell the truth about theirs. -/
theorem fragment_written (heads : DerivativeHeads) (call : Cell → Nat → Option Text)
    (emits : Activation → Prop)
    (ordinary : ∀ activation, heads.ordinary activation ≠ [] ↔ emits activation)
    (written : ∀ before ev text, IsEvent cpr ev → call before ev = some text →
      (text ≠ [] ↔ ∃ other ∈ cpr.activations ev, HasCode cpr emits other))
    (tmp after : Cell) (activation : Activation) (known : Known cpr activation) (piece : Fragment)
    (generated : fragment cpr heads call tmp activation = some (piece, after)) :
    piece.text ≠ [] ↔ HasCode cpr emits activation := by
  rw [hasCode_iff]
  rcases fragment_cases heads call tmp after activation piece generated with
    ⟨own, -, text, -⟩ | ⟨other, kind, thentxt, elsetxt, thens, elses, -, -, rfl⟩ |
    ⟨other, kind, tested, emitted, tests, -, -, rfl⟩
  · simp only [text, ordinary, own, true_and, not_true_eq_false, false_and, or_false]
  · have synchro := known.resolve_left other
    rcases synchro.kind with ⟨-, two⟩ | ⟨select, -⟩
    · have events : ∀ ev ∈ [cpr.clkptr activation.1, cpr.clkptr activation.1 + 1],
          IsEvent cpr ev := if_outputEvents two ▸ synchro.events
      have first := written _ _ _ (events _ (by simp)) thens
      have second := written _ _ _ (events _ (by simp)) elses
      rw [ifFragment_written, first, second, if_outputEvents two]
      simp [other]
    · omega
  · have synchro := known.resolve_left other
    obtain ⟨each, rfl⟩ := mapM_results _ _ _ tests
    rw [selectFragment_written, ne_eq, labels_nil_iff]
    simp only [other, false_and, false_or, not_false_eq_true, true_and, not_forall, exists_prop]
    refine exists_congr fun ev => and_congr_right fun output => ?_
    exact written tmp ev _ (synchro.events ev output) (each ev output)

/-- The text of an event is not empty exactly if one of its activations has code. -/
theorem ozdoit_written (wellFormed : WellFormed cpr) (flag : Nat) (emits : Activation → Prop)
    (ordinary : ∀ activation, (ozdoitHeads cpr flag).ordinary activation ≠ [] ↔ emits activation)
    (fuel : Nat) (tmp : Cell) (ev : Nat) (text : Text) (inside : IsEvent cpr ev)
    (generated : writeCodeOzdoit cpr fuel flag tmp ev = some text) :
    text ≠ [] ↔ ∃ activation ∈ cpr.activations ev, HasCode cpr emits activation := by
  induction fuel generalizing tmp ev text with
  | zero => cases generated
  | succ fuel inductionHypothesis =>
    simp only [writeCodeOzdoit, fuelled, ozdoitStep, Option.bind_eq_bind, Option.bind_eq_some_iff,
      Option.some.injEq] at generated
    obtain ⟨pieces, here, rfl⟩ := generated
    have none := fragments_forall (ozdoitHeads cpr flag) _
      (fun activation => ¬ HasCode cpr emits activation) (fun piece => piece.text = [])
      (cpr.activations ev) ?_ tmp pieces here
    · rw [ne_eq, List.flatMap_eq_nil_iff, none]
      simp only [not_forall, not_not, exists_prop]
    · intro activation member before piece after one
      rw [← not_iff_not, not_not]
      exact fragment_written _ _ emits ordinary
        (fun before ev text inside => inductionHypothesis before ev text inside) before after
        activation (wellFormed.known ev inside activation member) piece one

end Written

section Halting

variable (cpr : Compiled) (flag : Nat)

/-- `write_code_ozdoit` writes a line for an ordinary block. -/
def Emits (activation : Activation) : Prop := (ozdoitHeads cpr flag).ordinary activation ≠ []

/-- The generators stop somewhere in a list they enter while `tmp_` is not set: at an
if-then-else block with code whose link the search does not find, or below any
synchronisation block. After a synchronisation block with code `tmp_` is set, so what
comes behind it in the same list does not count. -/
inductive Halts : List Activation → Prop
  | here (activation : Activation) (rest : List Activation) (kind : cpr.funtyp activation.1 = -1)
      (code : HasCode cpr (Emits cpr flag) activation)
      (missed : ¬ Searched cpr (cpr.testedLink activation.1)) : Halts (activation :: rest)
  | inner (activation : Activation) (rest : List Activation) (synchro : ¬ cpr.Ordinary activation.1)
      (ev : Nat) (output : ev ∈ cpr.outputEvents activation.1)
      (below : Halts (cpr.activations ev)) : Halts (activation :: rest)
  | later (activation : Activation) (rest : List Activation)
      (silent : cpr.Ordinary activation.1 ∨ ¬ HasCode cpr (Emits cpr flag) activation)
      (behind : Halts rest) : Halts (activation :: rest)

/-- The generators stop at a block or below it. -/
def HaltsAt (activation : Activation) : Prop :=
  (cpr.funtyp activation.1 = -1 ∧ HasCode cpr (Emits cpr flag) activation ∧
    ¬ Searched cpr (cpr.testedLink activation.1)) ∨
  (¬ cpr.Ordinary activation.1 ∧ ∃ ev ∈ cpr.outputEvents activation.1,
    Halts cpr flag (cpr.activations ev))

/-- `tmp_` is still not set behind a block. -/
def Silent (activation : Activation) : Prop :=
  cpr.Ordinary activation.1 ∨ ¬ HasCode cpr (Emits cpr flag) activation

variable {cpr}

/-- Nothing stops in an empty list. -/
theorem halts_nil : ¬ Halts cpr flag [] := by
  intro halts
  cases halts

/-- The generators stop at the first activation, or behind it. -/
theorem halts_cons (activation : Activation) (rest : List Activation) :
    Halts cpr flag (activation :: rest) ↔
      HaltsAt cpr flag activation ∨ (Silent cpr flag activation ∧ Halts cpr flag rest) := by
  constructor
  · intro halts
    cases halts with
    | here _ _ kind code missed => exact Or.inl (Or.inl ⟨kind, code, missed⟩)
    | inner _ _ synchro ev output below => exact Or.inl (Or.inr ⟨synchro, ev, output, below⟩)
    | later _ _ silent behind => exact Or.inr ⟨silent, behind⟩
  · rintro ((⟨kind, code, missed⟩ | ⟨synchro, ev, output, below⟩) | ⟨silent, behind⟩)
    · exact .here activation rest kind code missed
    · exact .inner activation rest synchro ev output below
    · exact .later activation rest silent behind

/-- Nothing stops in a list of ordinary activations. -/
theorem halts_plain (activations : List Activation)
    (plain : ∀ activation ∈ activations, cpr.Ordinary activation.1) :
    ¬ Halts cpr flag activations := by
  intro halts
  induction halts with
  | here activation rest kind _ _ =>
    have ordinary := plain activation List.mem_cons_self
    unfold Ordinary at ordinary
    omega
  | inner activation rest synchro _ _ _ _ => exact synchro (plain activation List.mem_cons_self)
  | later activation rest _ _ inductionHypothesis =>
    exact inductionHypothesis fun other member => plain other (List.mem_cons_of_mem _ member)

/-- Nothing stops in a list of blocks whose link the search finds, with ordinary blocks
below them. -/
theorem halts_shallow (activations : List Activation)
    (shallow : ∀ activation ∈ activations, ¬ cpr.Ordinary activation.1 →
      Searched cpr (cpr.testedLink activation.1) ∧ ∀ ev ∈ cpr.outputEvents activation.1,
        ∀ inner ∈ cpr.activations ev, cpr.Ordinary inner.1) : ¬ Halts cpr flag activations := by
  intro halts
  induction halts with
  | here activation rest kind _ missed =>
    refine missed (shallow activation List.mem_cons_self ?_).1
    exact ifThenElse_not_ordinary kind
  | inner activation rest synchro ev output below =>
    exact halts_plain flag _ ((shallow activation List.mem_cons_self synchro).2 ev output) below
  | later activation rest _ _ inductionHypothesis =>
    exact inductionHypothesis fun other member => shallow other (List.mem_cons_of_mem _ member)

end Halting

section Existence

variable {cpr : Compiled} {flag : Nat}

/-- What the calls of a list do: a call for an event has a text unless it is made while
`tmp_` is not set and stops, and the text is empty exactly if nothing below has code. -/
structure Answers (cpr : Compiled) (flag : Nat) (call : Cell → Nat → Option Text) (ev : Nat) :
    Prop where
  exists_iff : ∀ tmp, (∃ text, call tmp ev = some text) ↔
    (tmp = .unset → ¬ Halts cpr flag (cpr.activations ev))
  written : ∀ tmp text, call tmp ev = some text →
    (text ≠ [] ↔ ∃ other ∈ cpr.activations ev, HasCode cpr (Emits cpr flag) other)

/-- After the search `tmp_` is not set only if it was not set and the link is missed. -/
theorem search_unset (found : Nat → Nat → Cell) (named : ∀ bk port, found bk port ≠ .unset)
    (link : Nat) (tmp : Cell) :
    searchProducer cpr found link tmp = .unset ↔ tmp = .unset ∧ ¬ Searched cpr link := by
  rcases search_cases cpr found link tmp with ⟨searched, bk, port, result, -⟩ | ⟨missed, result⟩
  · simp [result, named, searched]
  · simp [result, missed]

/-- When the head lines of an if-then-else block stop the generator. -/
theorem stops_iff (tmp : Cell) (thentxt elsetxt : Text) :
    stops tmp thentxt elsetxt = true ↔ tmp = .unset ∧ (thentxt ≠ [] ∨ elsetxt ≠ []) := by
  simp [stops]

/-- An if-then-else block has a fragment exactly if its alternatives have texts and its
head lines find `tmp_` set. -/
theorem if_exists_iff (heads : DerivativeHeads) (named : ∀ bk port, heads.found bk port ≠ .unset)
    (call : Cell → Nat → Option Text) (activation : Activation)
    (synchro : ¬ cpr.Ordinary activation.1) (kind : cpr.funtyp activation.1 = -1)
    (two : cpr.outputEvents activation.1 = [cpr.clkptr activation.1, cpr.clkptr activation.1 + 1])
    (answers : ∀ ev ∈ cpr.outputEvents activation.1, Answers cpr flag call ev) (tmp : Cell) :
    (∃ result, fragment cpr heads call tmp activation = some result) ↔
      (tmp = .unset → ¬ HaltsAt cpr flag activation) := by
  rw [two, List.forall_mem_cons, List.forall_mem_singleton] at answers
  obtain ⟨first, second⟩ := answers
  have code : HasCode cpr (Emits cpr flag) activation ↔
      (∃ other ∈ cpr.activations (cpr.clkptr activation.1), HasCode cpr (Emits cpr flag) other) ∨
      (∃ other ∈ cpr.activations (cpr.clkptr activation.1 + 1),
        HasCode cpr (Emits cpr flag) other) := by
    rw [hasCode_iff, two]
    simp [synchro]
  have halts : HaltsAt cpr flag activation ↔
      (HasCode cpr (Emits cpr flag) activation ∧ ¬ Searched cpr (cpr.testedLink activation.1)) ∨
      Halts cpr flag (cpr.activations (cpr.clkptr activation.1)) ∨
      Halts cpr flag (cpr.activations (cpr.clkptr activation.1 + 1)) := by
    unfold HaltsAt
    rw [two]
    simp [synchro, kind]
  simp only [fragment, synchro, kind, if_true, if_false, Option.bind_eq_bind,
    Option.bind_eq_some_iff, Option.ite_none_left_eq_some]
  constructor
  · rintro ⟨-, thentxt, thens, elsetxt, elses, going, -⟩ unset
    rw [halts]
    rintro (⟨written, missed⟩ | below | below)
    · refine going ((stops_iff _ _ _).mpr ⟨(search_unset _ named _ _).mpr ⟨unset, missed⟩, ?_⟩)
      rwa [first.written tmp thentxt thens, second.written tmp elsetxt elses, ← code]
    · exact (first.exists_iff tmp).mp ⟨thentxt, thens⟩ unset below
    · exact (second.exists_iff tmp).mp ⟨elsetxt, elses⟩ unset below
  · intro going
    have apart (unset : tmp = .unset) := not_or.mp (halts.not.mp (going unset))
    obtain ⟨thentxt, thens⟩ := (first.exists_iff tmp).mpr fun unset below =>
      (apart unset).2 (Or.inl below)
    obtain ⟨elsetxt, elses⟩ := (second.exists_iff tmp).mpr fun unset below =>
      (apart unset).2 (Or.inr below)
    refine ⟨_, thentxt, thens, elsetxt, elses, fun stopped => ?_, rfl⟩
    obtain ⟨unset, written⟩ := (stops_iff _ _ _).mp stopped
    obtain ⟨before, missed⟩ := (search_unset _ named _ _).mp unset
    rw [first.written tmp thentxt thens, second.written tmp elsetxt elses, ← code] at written
    exact (apart before).1 ⟨written, missed⟩

/-- An event-select block has a fragment exactly if the texts it asks for first exist;
when it writes its cases `tmp_` is set. -/
theorem select_exists_iff (heads : DerivativeHeads) (call : Cell → Nat → Option Text)
    (activation : Activation) (synchro : ¬ cpr.Ordinary activation.1)
    (kind : cpr.funtyp activation.1 = -2)
    (answers : ∀ ev ∈ cpr.outputEvents activation.1, Answers cpr flag call ev) (tmp : Cell) :
    (∃ result, fragment cpr heads call tmp activation = some result) ↔
      (tmp = .unset → ¬ HaltsAt cpr flag activation) := by
  have notIf : ¬ (-2 : Int) = -1 := by omega
  have halts : HaltsAt cpr flag activation ↔
      ∃ ev ∈ cpr.outputEvents activation.1, Halts cpr flag (cpr.activations ev) := by
    unfold HaltsAt
    simp [synchro, kind]
  simp only [fragment, synchro, kind, notIf, if_true, if_false, Option.bind_eq_bind,
    Option.bind_eq_some_iff, Option.some.injEq]
  constructor
  · rintro ⟨-, tested, tests, -⟩ unset
    rw [halts]
    rintro ⟨ev, output, below⟩
    have each := (mapM_results _ _ _ tests).1 ev output
    exact ((answers ev output).exists_iff tmp).mp ⟨_, each⟩ unset below
  · intro going
    obtain ⟨tested, tests⟩ := mapM_exists (call tmp) (cpr.outputEvents activation.1)
      fun ev output => ((answers ev output).exists_iff tmp).mpr fun unset below =>
        halts.not.mp (going unset) ⟨ev, output, below⟩
    obtain ⟨emitted, emits⟩ := mapM_exists (call (.outtb (cpr.testedLink activation.1)))
      (cpr.outputEvents activation.1) fun ev output =>
        ((answers ev output).exists_iff _).mpr fun unset => Cell.noConfusion unset
    exact ⟨_, tested, tests, emitted, emits, rfl⟩

/-- One activation has a fragment unless the generators stop at it. -/
theorem fragment_exists_iff (heads : DerivativeHeads)
    (named : ∀ bk port, heads.found bk port ≠ .unset) (call : Cell → Nat → Option Text)
    (activation : Activation) (known : Known cpr activation)
    (answers : ¬ cpr.Ordinary activation.1 → ∀ ev ∈ cpr.outputEvents activation.1,
      Answers cpr flag call ev) (tmp : Cell) :
    (∃ result, fragment cpr heads call tmp activation = some result) ↔
      (tmp = .unset → ¬ HaltsAt cpr flag activation) := by
  by_cases ordinary : cpr.Ordinary activation.1
  · refine ⟨fun _ _ => ?_, fun _ => ⟨_, if_pos ordinary⟩⟩
    rintro (⟨kind, -⟩ | ⟨synchro, -⟩)
    · unfold Ordinary at ordinary
      omega
    · exact synchro ordinary
  · rcases (known.resolve_left ordinary).kind with ⟨kind, two⟩ | ⟨kind, -⟩
    · exact if_exists_iff heads named call activation ordinary kind (if_outputEvents two)
        (answers ordinary) tmp
    · exact select_exists_iff heads call activation ordinary kind (answers ordinary) tmp

/-- Behind an activation that does not stop, `tmp_` is not set exactly if it was not set
and the activation is silent. -/
theorem fragment_unset (heads : DerivativeHeads) (call : Cell → Nat → Option Text)
    (activation : Activation) (known : Known cpr activation)
    (answers : ¬ cpr.Ordinary activation.1 → ∀ ev ∈ cpr.outputEvents activation.1,
      Answers cpr flag call ev) (tmp after : Cell) (piece : Fragment)
    (generated : fragment cpr heads call tmp activation = some (piece, after)) :
    after = .unset ↔ tmp = .unset ∧ Silent cpr flag activation := by
  unfold Silent
  rcases fragment_cases heads call tmp after activation piece generated with
    ⟨ordinary, -, -, rfl⟩ | ⟨synchro, kind, thentxt, elsetxt, thens, elses, going, rfl, rfl⟩ |
    ⟨synchro, kind, tested, emitted, tests, -, rfl, rfl⟩
  · simp [ordinary]
  · have two := ((known.resolve_left synchro).kind).resolve_right fun select => by omega
    have events := if_outputEvents two.2
    have each := answers synchro
    rw [events, List.forall_mem_cons, List.forall_mem_singleton] at each
    rw [hasCode_iff, events]
    simp only [synchro, false_or, false_and, not_false_eq_true, true_and, List.mem_cons,
      List.not_mem_nil, or_false, exists_eq_or_imp, exists_eq_left,
      ← each.1.written tmp thentxt thens, ← each.2.written tmp elsetxt elses]
    have running := (stops_iff _ _ _).not.mp (Bool.eq_false_iff.mp going)
    by_cases empty : thentxt = [] ∧ elsetxt = []
    · simp [ifFragment, empty]
    · rw [ifFragment, if_neg (by simpa using empty)]
      have written := Decidable.not_and_iff_not_or_not.mp empty
      exact ⟨fun unset => absurd ⟨unset, written⟩ running, fun silent => absurd written silent.2⟩
  · obtain ⟨texts, rfl⟩ := mapM_results _ _ _ tests
    have code : HasCode cpr (Emits cpr flag) activation ↔
        labels ((cpr.outputEvents activation.1).map fun ev => (call tmp ev).getD []) ≠ [] := by
      rw [hasCode_iff, ne_eq, labels_nil_iff]
      simp only [synchro, false_and, false_or, not_false_eq_true, true_and, not_forall, exists_prop]
      exact exists_congr fun ev => and_congr_right fun output =>
        ((answers synchro ev output).written tmp _ (texts ev output)).symm
    rw [code]
    unfold selectFragment
    split <;> rename_i empty
    · simp [synchro, List.isEmpty_iff.mp empty]
    · have some : labels _ ≠ [] := fun none => empty (List.isEmpty_iff.mpr none)
      simp [synchro, some]

/-- A list has fragments unless it is entered while `tmp_` is not set and stops. -/
theorem fragments_exist_iff (heads : DerivativeHeads)
    (named : ∀ bk port, heads.found bk port ≠ .unset) (call : Cell → Nat → Option Text)
    (activations : List Activation) (known : ∀ activation ∈ activations, Known cpr activation)
    (answers : ∀ activation ∈ activations, ¬ cpr.Ordinary activation.1 →
      ∀ ev ∈ cpr.outputEvents activation.1, Answers cpr flag call ev) (tmp : Cell) :
    (∃ pieces, fragments cpr heads call tmp activations = some pieces) ↔
      (tmp = .unset → ¬ Halts cpr flag activations) := by
  induction activations generalizing tmp with
  | nil => exact ⟨fun _ _ => halts_nil flag, fun _ => ⟨[], rfl⟩⟩
  | cons activation rest inductionHypothesis =>
    rw [List.forall_mem_cons] at known answers
    have first := fragment_exists_iff heads named call activation known.1 answers.1 tmp
    have behind := inductionHypothesis known.2 answers.2
    rw [halts_cons]
    constructor
    · rintro ⟨pieces, generated⟩ unset
      obtain ⟨piece, after, later, here, there, -⟩ :=
        (fragments_cons heads call tmp activation rest pieces).mp generated
      have kept := fragment_unset heads call activation known.1 answers.1 tmp after piece here
      rintro (stopped | ⟨silent, stopped⟩)
      · exact first.mp ⟨_, here⟩ unset stopped
      · exact (behind after).mp ⟨later, there⟩ (kept.mpr ⟨unset, silent⟩) stopped
    · intro going
      obtain ⟨⟨piece, after⟩, here⟩ := first.mpr fun unset stopped => going unset (Or.inl stopped)
      have kept := fragment_unset heads call activation known.1 answers.1 tmp after piece here
      obtain ⟨later, there⟩ := (behind after).mpr fun unset stopped =>
        going (kept.mp unset).1 (Or.inr ⟨(kept.mp unset).2, stopped⟩)
      exact ⟨_, (fragments_cons heads call tmp activation rest _).mpr
        ⟨piece, after, later, here, there, rfl⟩⟩

/-- On a well formed schedule the text of an event exists unless it is asked for while
`tmp_` is not set and the generator stops; it is empty exactly if nothing has code. -/
theorem ozdoit_answers (wellFormed : WellFormed cpr) (ev : Nat) (inside : IsEvent cpr ev) :
    ∀ fuel, rank (Activates cpr) ev < fuel →
      Answers cpr flag (writeCodeOzdoit cpr fuel flag) ev := by
  revert ev
  apply acyclic_induction wellFormed.graph
  intro ev inside below fuel enough
  obtain ⟨less, rfl⟩ : ∃ less, fuel = less + 1 := ⟨fuel - 1, by omega⟩
  have level := fragments_exist_iff (ozdoitHeads cpr flag)
    (fun _ _ unset => Cell.noConfusion unset) (writeCodeOzdoit cpr less flag) (cpr.activations ev)
    (wellFormed.known ev inside) fun activation member synchro other output => by
      have edge : Activates cpr ev other := ⟨activation, member, synchro, output⟩
      have lower := rank_lt wellFormed.graph ev other inside edge
      exact below other edge (wellFormed.graph.closed ev other inside edge) less (by omega)
  refine ⟨fun tmp => ?_, fun tmp text generated => ?_⟩
  · rw [← level tmp]
    simp only [writeCodeOzdoit, fuelled, ozdoitStep, Option.bind_eq_bind, Option.bind_eq_some_iff,
      Option.some.injEq]
    constructor
    · rintro ⟨_, pieces, here, _⟩
      exact ⟨pieces, here⟩
    · rintro ⟨pieces, here⟩
      exact ⟨_, pieces, here, rfl⟩
  · exact ozdoit_written wellFormed flag _ (fun _ => Iff.rfl) _ tmp ev text inside generated

/-- On a well formed schedule `write_code_odoit` has a text exactly if it does not stop
at an if-then-else block whose head lines need a `tmp_` that was never set. -/
theorem odoit_iff (wellFormed : WellFormed cpr) (flag fuel : Nat)
    (deep : {ev | IsEvent cpr ev}.ncard < fuel) :
    (∃ text, writeCodeOdoit cpr fuel flag = some text) ↔ ¬ Halts cpr flag cpr.oord := by
  have level := fragments_exist_iff (odoitHeads cpr flag)
    (fun _ _ unset => Cell.noConfusion unset) (writeCodeOzdoit cpr fuel flag) cpr.oord
    wellFormed.knownOord fun activation member synchro ev output => by
      have inside := ((wellFormed.knownOord activation member).resolve_left synchro).events ev output
      exact ozdoit_answers wellFormed ev inside fuel
        (Nat.lt_of_le_of_lt (rank_le wellFormed.graph ev inside) deep)
  rw [← (level .unset).trans (forall_prop_of_true rfl)]
  simp only [writeCodeOdoit, odoitFragments, Option.bind_eq_bind, Option.bind_eq_some_iff,
    Option.some.injEq]
  constructor
  · rintro ⟨_, pieces, here, _⟩
    exact ⟨pieces, here⟩
  · rintro ⟨pieces, here⟩
    exact ⟨_, pieces, here, rfl⟩

end Existence

section Known

variable {cpr : Compiled}

/-- Every reached fragment belongs to a known block. -/
theorem reached_known (wellFormed : WellFormed cpr) (fuel flag : Nat) (nested : Bool)
    (piece : Fragment) (reached : Reached cpr fuel flag nested piece) :
    cpr.Ordinary piece.bk ∨ Synchro cpr piece.bk := by
  induction reached with
  | top pieces generated piece member =>
    obtain ⟨activation, inside, before, after, here⟩ :=
      mem_fragments _ _ _ _ pieces generated piece member
    rw [fragment_bk _ _ _ _ _ _ here]
    exact wellFormed.knownOord activation inside
  | inner level outer reached synchro ev output deeper pieces generated piece member
      inductionHypothesis =>
    obtain ⟨activation, inside, before, after, here⟩ :=
      mem_fragments _ _ _ _ pieces generated piece member
    rw [fragment_bk _ _ _ _ _ _ here]
    exact wellFormed.known ev ((inductionHypothesis.resolve_left synchro).events ev output)
      activation inside

end Known

end ScicosFlex.Codegen
