import Mathlib.Data.List.Nodup

/-!
# One pass over rules

A rule adds its second element to a list that has its first one. `pass` applies every
rule of a list once, in the order of the list. It yields what chains of rules lead to
whose rules stand in that order (`mem_pass`), and everything the rules require if and
only if what any chain leads to is led to by such a chain (`closed_iff`). Nothing is
assumed about the rules: they may repeat, contradict the order and form circles. Rules
that are sorted need one pass for every list (`closed_of_sorted`).
-/

namespace ScicosFlex.Library.OnePass

universe u
variable {α : Type u}

/-- A list with an element added behind it, unless it has it already. -/
def add [DecidableEq α] (known : List α) (x : α) : List α :=
  if x ∈ known then known else known ++ [x]

/-- One rule. -/
def applyRule [DecidableEq α] (known : List α) (rule : α × α) : List α :=
  if rule.1 ∈ known then add known rule.2 else known

/-- Every rule once. -/
def pass [DecidableEq α] (known : List α) (rules : List (α × α)) : List α :=
  rules.foldl applyRule known

/-- What the rules require of a list, applied as often as needed. -/
inductive Required (start : List α) (rules : List (α × α)) : α → Prop where
  | given (x : α) : x ∈ start → Required start rules x
  | rule (first second : α) :
    Required start rules first → (first, second) ∈ rules → Required start rules second

/-- A chain of rules leads from one element to another. -/
def Leads : α → List (α × α) → α → Prop
  | first, [], last => first = last
  | first, rule :: rest, last => first = rule.1 ∧ Leads rule.2 rest last

/-- Some chain whose rules stand in the order of the list leads to the element. -/
def InOrder (start : List α) (rules : List (α × α)) (x : α) : Prop :=
  ∃ first ∈ start, ∃ chain : List (α × α), chain.Sublist rules ∧ Leads first chain x

/-- The rules have nothing to add. -/
def Closed (known : List α) (rules : List (α × α)) : Prop :=
  ∀ rule ∈ rules, rule.1 ∈ known → rule.2 ∈ known

/-- What is required behind an element that is required. -/
theorem required_of_leads (start : List α) (rules chain : List (α × α)) (first last : α)
    (known : Required start rules first) (inside : ∀ rule ∈ chain, rule ∈ rules)
    (leads : Leads first chain last) : Required start rules last := by
  induction chain generalizing first with
  | nil => exact leads ▸ known
  | cons rule rest inductionHypothesis =>
    obtain ⟨rfl, leads⟩ := leads
    obtain ⟨here, inside⟩ := List.forall_mem_cons.mp inside
    exact inductionHypothesis rule.2 (.rule rule.1 rule.2 known here) inside leads

/-- Chains in order lead to required elements only. -/
theorem required_of_inOrder (start : List α) (rules : List (α × α)) (x : α)
    (led : InOrder start rules x) : Required start rules x := by
  obtain ⟨first, member, chain, sublist, leads⟩ := led
  exact required_of_leads start rules chain first x (.given first member)
    (fun _ inside => sublist.subset inside) leads

/-- More elements require more. -/
theorem required_mono (start other : List α) (rules : List (α × α)) (x : α)
    (more : ∀ y ∈ start, y ∈ other) (required : Required start rules x) :
    Required other rules x := by
  induction required with
  | given x member => exact .given x (more x member)
  | rule first second _ inside inductionHypothesis =>
    exact .rule first second inductionHypothesis inside

variable [DecidableEq α]

/-- What is added, and what was there. -/
theorem mem_add (known : List α) (x y : α) : y ∈ add known x ↔ y ∈ known ∨ y = x := by
  rw [add]
  split
  · next old =>
    constructor
    · exact Or.inl
    · rintro (member | rfl)
      · exact member
      · exact old
  · rw [List.mem_append, List.mem_singleton]

/-- Behind an addition the list is not empty. -/
theorem add_ne_nil (known : List α) (x : α) : add known x ≠ [] :=
  List.ne_nil_of_mem ((mem_add known x x).mpr (Or.inr rfl))

/-- Nothing is added twice. -/
theorem add_nodup (known : List α) (x : α) (distinct : known.Nodup) : (add known x).Nodup := by
  rw [add]
  split
  · exact distinct
  · next fresh =>
    rw [← List.concat_eq_append]
    exact List.Nodup.concat fresh distinct

/-- What a row of additions yields. -/
theorem mem_addAll (known xs : List α) (x : α) :
    x ∈ xs.foldl add known ↔ x ∈ known ∨ x ∈ xs := by
  induction xs generalizing known with
  | nil => simp
  | cons head rest inductionHypothesis =>
    rw [List.foldl_cons, inductionHypothesis, mem_add, List.mem_cons, or_assoc]

/-- A row of additions repeats nothing. -/
theorem addAll_nodup (known xs : List α) (distinct : known.Nodup) :
    (xs.foldl add known).Nodup := by
  induction xs generalizing known with
  | nil => exact distinct
  | cons head rest inductionHypothesis =>
    exact inductionHypothesis (add known head) (add_nodup known head distinct)

/-- What one rule adds. -/
theorem mem_applyRule (known : List α) (rule : α × α) (x : α) :
    x ∈ applyRule known rule ↔ x ∈ known ∨ rule.1 ∈ known ∧ x = rule.2 := by
  rw [applyRule]
  split
  · next holds => simp only [mem_add, holds, true_and]
  · next missing => simp only [missing, false_and, or_false]

/-- The pass keeps the list free of repetition. -/
theorem pass_nodup (known : List α) (rules : List (α × α)) (distinct : known.Nodup) :
    (pass known rules).Nodup := by
  induction rules generalizing known with
  | nil => exact distinct
  | cons rule rest inductionHypothesis =>
    apply inductionHypothesis
    rw [applyRule]
    split
    · exact add_nodup known rule.2 distinct
    · exact distinct

/-- The pass adds what chains in order lead to. The first rule lengthens the chains that
start at its second element; the other chains do not use it. -/
theorem mem_pass (known : List α) (rules : List (α × α)) (x : α) :
    x ∈ pass known rules ↔ InOrder known rules x := by
  induction rules generalizing known with
  | nil =>
    constructor
    · intro member
      exact ⟨x, member, [], List.Sublist.slnil, rfl⟩
    · rintro ⟨first, member, chain, sublist, leads⟩
      obtain rfl := List.sublist_nil.mp sublist
      exact leads ▸ member
  | cons rule rest inductionHypothesis =>
    refine (inductionHypothesis (applyRule known rule)).trans ?_
    constructor
    · rintro ⟨first, member, chain, sublist, leads⟩
      obtain old | ⟨holds, rfl⟩ := (mem_applyRule known rule first).mp member
      · exact ⟨first, old, chain, sublist.cons rule, leads⟩
      · exact ⟨rule.1, holds, rule :: chain, sublist.cons_cons rule, rfl, leads⟩
    · rintro ⟨first, member, chain, sublist, leads⟩
      cases sublist with
      | cons _ later =>
        exact ⟨first, (mem_applyRule known rule first).mpr (Or.inl member), chain, later, leads⟩
      | cons_cons _ later =>
        obtain ⟨rfl, leads⟩ := leads
        have added := (mem_applyRule known rule rule.2).mpr (Or.inr ⟨member, rfl⟩)
        exact ⟨rule.2, added, _, later, leads⟩

/-- The pass keeps what was there. -/
theorem mem_pass_of_mem (known : List α) (rules : List (α × α)) (x : α) (member : x ∈ known) :
    x ∈ pass known rules :=
  (mem_pass known rules x).mpr ⟨x, member, [], List.nil_sublist rules, rfl⟩

/-- The pass adds nothing that is not required. -/
theorem required_of_mem_pass (known : List α) (rules : List (α × α)) (x : α)
    (member : x ∈ pass known rules) : Required known rules x :=
  required_of_inOrder known rules x ((mem_pass known rules x).mp member)

/-- One pass is enough if and only if what any chain leads to is led to by a chain in order. -/
theorem closed_iff (known : List α) (rules : List (α × α)) :
    Closed (pass known rules) rules ↔
      ∀ x, Required known rules x → InOrder known rules x := by
  constructor
  · intro closed x required
    rw [← mem_pass]
    induction required with
    | given x member => exact mem_pass_of_mem known rules x member
    | rule first second _ inside inductionHypothesis =>
      exact closed (first, second) inside inductionHypothesis
  · intro ordered rule inside member
    have required := required_of_mem_pass known rules rule.1 member
    rw [mem_pass]
    exact ordered rule.2 (.rule rule.1 rule.2 required inside)

/-- What the pass adds is the second element of a rule. -/
theorem mem_of_mem_pass (known : List α) (rules : List (α × α)) (x : α)
    (member : x ∈ pass known rules) : x ∈ known ∨ ∃ rule ∈ rules, rule.2 = x := by
  cases required_of_mem_pass known rules x member with
  | given _ old => exact Or.inl old
  | rule first _ _ inside => exact Or.inr ⟨(first, x), inside, rfl⟩

/-- One pass is enough for every list if no rule adds the first element of a rule before it. -/
theorem closed_of_sorted (known : List α) (rules : List (α × α))
    (sorted : rules.Pairwise fun earlier later => later.2 ≠ earlier.1) :
    Closed (pass known rules) rules := by
  induction rules generalizing known with
  | nil => intro rule impossible; cases impossible
  | cons head rest inductionHypothesis =>
    obtain ⟨apart, sorted⟩ := List.pairwise_cons.mp sorted
    have closed := inductionHypothesis (applyRule known head) sorted
    rintro rule (_ | ⟨_, inside⟩) holds
    · -- Nothing below the first rule adds what it asks for.
      have asked : head.1 ∈ applyRule known head := by
        obtain old | ⟨later, inside, same⟩ := mem_of_mem_pass _ rest _ holds
        · exact old
        · exact absurd same (apart later inside)
      have added : head.2 ∈ applyRule known head := by
        rw [mem_applyRule] at asked ⊢
        obtain old | ⟨old, -⟩ := asked
        · exact Or.inr ⟨old, rfl⟩
        · exact Or.inr ⟨old, rfl⟩
      exact mem_pass_of_mem _ rest _ added
    · exact closed rule inside holds

end ScicosFlex.Library.OnePass
