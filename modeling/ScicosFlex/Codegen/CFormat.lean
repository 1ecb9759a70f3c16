import ScicosFlex.Library.Vectors
import ScicosFlex.Library.WhileLoops

/-!
# Breaking long lines

`cformatline` of `FlexCodeGen_.sci` breaks a text into lines of at most `l` characters.
It breaks behind a comma or a plus sign, the last one that the line has room for, and
knows nothing of what stands around it. The lines behind the first one are indented.

The text ends up in pieces (`pieces`); the loop ends with them for every text
(`cformatline_pieces`). Nothing of the text is lost, and a piece that is too long has no
separator to break behind (`cformatline_lossless`).
-/

namespace ScicosFlex.Codegen.CFormat

open Library.Vectors Library.WhileLoops

/-- `strindex(t,sep)` for separators of one character, in the order of the text. -/
def strindex (t sep : List Char) : List Nat := positions (fun c => decide (c ∈ sep)) t

/-- `sep=[',','+']`. -/
def sep : List Char := [',', '+']

/-- `nw`: the leading blanks, and 1 if there is no other blank behind them. -/
def leadingBlanks (t : List Char) : Nat :=
  match strindex t [' '] with
  | [] => 0
  | first :: others =>
    if first = 1 then
      match ((first :: others).zip others).filter fun pair => pair.2 - pair.1 ≠ 1 with
      | [] => 1
      | pair :: _ => pair.1
    else 0

/-- `k(i)`: the separator to break behind, if there is one. -/
def breakAt (l : Nat) (t : List Char) : Option Nat :=
  match strindex t sep with
  | [] => none
  | position :: later =>
    let k := position :: (later ++ [t.length + 1])
    match (k.zip k.tail).filter fun pair => pair.1 ≤ l ∧ l < pair.2 with
    | [] => some position
    | pair :: _ => some pair.1

/-- The variables of the loop. `l1` is changed in it and never read. -/
structure Vars where
  t : List Char
  bl : List Char
  first : Bool
  t1 : List (List Char)

/-- A pass of the loop. -/
def pass (l : Nat) (vars : Vars) : Pass Vars (List (List Char)) :=
  if vars.t.length ≤ l then .leave (vars.t1 ++ [vars.bl ++ vars.t])
  else
    match breakAt l vars.t with
    | none => .leave (vars.t1 ++ [vars.bl ++ vars.t])
    | some k => .again {
        t := vars.t.drop k
        bl := if vars.first then vars.bl ++ [' ', ' '] else vars.bl
        first := false
        t1 := vars.t1 ++ [vars.bl ++ vars.t.take k] }

/-- `cformatline(t,l)` ends with the lines `t1`. The loop is a relation, so that its end
is something to prove. -/
def CformatLine (t : List Char) (l : Nat) (t1 : List (List Char)) : Prop :=
  let nw := leadingBlanks t
  Returns (pass l) ⟨t.drop nw, List.replicate nw ' ', true, []⟩ t1

section Breaks

/-- A text up to a character ends with it. -/
theorem take_last (t : List Char) (k : Nat) (char : Char) (known : entry t k = some char) :
    (t.take k).getLast? = some char := by
  have inside := (entry_isSome t k).mp (by rw [known]; rfl)
  rw [entry, if_neg (by omega)] at known
  rw [List.getLast?_take, if_neg (by omega), known]
  rfl

variable (l : Nat)

/-- In a growing list, the pair around a number: nothing of the list lies between its first
part and the number. -/
theorem pair_around (first last : Nat) (rest : List Nat) (sorted : (first :: rest).Pairwise (· < ·))
    (low : first ≤ l) (high : l < last) :
    ∃ pair others, (((first :: (rest ++ [last])).zip (rest ++ [last])).filter
        fun pair => pair.1 ≤ l ∧ l < pair.2) = pair :: others ∧
      pair.1 ∈ first :: rest ∧ pair.1 ≤ l ∧ ∀ x ∈ first :: rest, x ≤ l → x ≤ pair.1 := by
  induction rest generalizing first with
  | nil =>
    refine ⟨(first, last), [], by simp [low, high], List.mem_cons_self, low, ?_⟩
    intro x member _
    exact Nat.le_of_eq (List.mem_singleton.mp member)
  | cons next rest inductionHypothesis =>
    obtain ⟨less, later⟩ := List.pairwise_cons.mp sorted
    rw [List.cons_append, List.zip_cons_cons]
    by_cases stop : l < next
    · refine ⟨(first, next), _, List.filter_cons_of_pos (by simp [low, stop]),
        List.mem_cons_self, low, fun x member small => ?_⟩
      rcases List.mem_cons.mp member with rfl | behind
      · exact Nat.le_refl _
      · rcases List.mem_cons.mp behind with rfl | further
        · omega
        · have := (List.pairwise_cons.mp later).1 x further
          omega
    · obtain ⟨pair, others, found, member, small, greatest⟩ :=
        inductionHypothesis next later (Nat.not_lt.mp stop)
      refine ⟨pair, others, ?_, List.mem_cons_of_mem _ member, small, fun x inside below => ?_⟩
      · rw [List.filter_cons_of_neg (by simp [stop]), found]
      · rcases List.mem_cons.mp inside with rfl | behind
        · have := greatest next List.mem_cons_self (Nat.not_lt.mp stop)
          have := less next List.mem_cons_self
          omega
        · exact greatest x behind below

/-- The first part of a pair of neighbours is not the end of the list. -/
theorem neighbour (first last : Nat) (rest : List Nat) (pair : Nat × Nat)
    (member : pair ∈ (first :: (rest ++ [last])).zip (rest ++ [last])) :
    pair.1 ∈ first :: rest := by
  induction rest generalizing first with
  | nil =>
    rw [List.nil_append, List.zip_cons_cons, List.zip_nil_right, List.mem_singleton] at member
    rw [member]
    exact List.mem_cons_self
  | cons next rest inductionHypothesis =>
    rw [List.cons_append, List.zip_cons_cons] at member
    rcases List.mem_cons.mp member with rfl | later
    · exact List.mem_cons_self
    · exact List.mem_cons_of_mem _ (inductionHypothesis next later)

/-- A break stands behind a separator. -/
theorem breakAt_separator (t : List Char) (k : Nat) (found : breakAt l t = some k) :
    k ∈ strindex t sep := by
  rw [breakAt] at found
  split at found
  · cases found
  · next position later listed =>
    rw [listed]
    dsimp only at found
    split at found
    · obtain rfl := Option.some.inj found
      exact List.mem_cons_self
    · next pair others filtered =>
      obtain rfl := Option.some.inj found
      have kept : pair ∈ pair :: others := List.mem_cons_self
      rw [← filtered] at kept
      exact neighbour position _ later pair (List.mem_of_mem_filter kept)

/-- A line with room for a separator is broken behind the last one it has room for. -/
theorem breakAt_last (t : List Char) (long : l < t.length) (position : Nat)
    (listed : position ∈ strindex t sep) (room : position ≤ l) :
    ∃ k, breakAt l t = some k ∧ k ∈ strindex t sep ∧ k ≤ l ∧
      ∀ other ∈ strindex t sep, other ≤ l → other ≤ k := by
  have sorted : (strindex t sep).Pairwise (· < ·) := positions_sorted _ t
  rw [breakAt]
  generalize strindex t sep = k at listed sorted
  cases k with
  | nil => exact absurd listed List.not_mem_nil
  | cons first later =>
    have low : first ≤ l := by
      rcases List.mem_cons.mp listed with rfl | behind
      · exact room
      · exact Nat.le_trans (Nat.le_of_lt ((List.pairwise_cons.mp sorted).1 position behind)) room
    obtain ⟨pair, others, found, member, small, greatest⟩ :=
      pair_around l first (t.length + 1) later sorted low (Nat.lt_succ_of_lt long)
    refine ⟨pair.1, ?_, member, small, greatest⟩
    dsimp only [List.tail_cons]
    rw [found]

/-- Positions are inside the text. -/
theorem strindex_bounds (t chars : List Char) (k : Nat) (listed : k ∈ strindex t chars) :
    0 < k ∧ k ≤ t.length := by
  obtain ⟨c, found, -⟩ := (mem_positions _ t k).mp listed
  exact (entry_isSome t k).mp (by rw [found]; rfl)

/-- What the lines are without their indentation. -/
def pieces (t : List Char) : List (List Char) :=
  if t.length ≤ l then [t]
  else
    match _found : breakAt l t with
    | none => [t]
    | some k => t.take k :: pieces (t.drop k)
termination_by t.length
decreasing_by
  have bounds := strindex_bounds t sep k (breakAt_separator l t k _found)
  rw [List.length_drop]
  omega

/-- Pieces with the indentation of their lines. -/
def indented (bl : List Char) (first : Bool) : List (List Char) → List (List Char)
  | [] => []
  | piece :: rest =>
    (bl ++ piece) :: indented (if first then bl ++ [' ', ' '] else bl) false rest

/-- A text that fits is one piece. -/
theorem pieces_fits (t : List Char) (fits : t.length ≤ l) : pieces l t = [t] := by
  rw [pieces, if_pos fits]

/-- A text that does not fit is broken. -/
theorem pieces_break (t : List Char) (k : Nat) (long : ¬ t.length ≤ l)
    (found : breakAt l t = some k) : pieces l t = t.take k :: pieces l (t.drop k) := by
  rw [pieces, if_neg long]
  split
  · next none => rw [none] at found; cases found
  · next other same =>
    rw [same] at found
    rw [Option.some.inj found]

/-- A text without separators is one piece. -/
theorem pieces_whole (t : List Char) (none : breakAt l t = none) : pieces l t = [t] := by
  rw [pieces]
  split
  · rfl
  · split
    · rfl
    · next found => rw [none] at found; cases found

/-- The loop ends with the pieces of the text, whatever it has gathered before. By
induction on the length of the text that is left. -/
theorem loop_pieces (t bl : List Char) (first : Bool) (t1 : List (List Char)) :
    Returns (pass l) ⟨t, bl, first, t1⟩ (t1 ++ indented bl first (pieces l t)) := by
  induction size : t.length using Nat.strongRecOn generalizing t bl first t1 with
  | ind count inductionHypothesis =>
    by_cases fits : t.length ≤ l
    · rw [pieces_fits l t fits]
      have leaves : pass l ⟨t, bl, first, t1⟩ = .leave (t1 ++ [bl ++ t]) := if_pos fits
      exact (returns_of_leave _ _ _ _ leaves).mpr rfl
    · cases found : breakAt l t with
      | none =>
        rw [pieces_whole l t found]
        have leaves : pass l ⟨t, bl, first, t1⟩ = .leave (t1 ++ [bl ++ t]) := by
          simp only [pass, if_neg fits, found]
        exact (returns_of_leave _ _ _ _ leaves).mpr rfl
      | some k =>
        have bounds := strindex_bounds t sep k (breakAt_separator l t k found)
        rw [pieces_break l t k fits found]
        have stays : pass l ⟨t, bl, first, t1⟩ = .again ⟨t.drop k,
            if first then bl ++ [' ', ' '] else bl, false, t1 ++ [bl ++ t.take k]⟩ := by
          simp only [pass, if_neg fits, found]
        have shorter : (t.drop k).length < count := by
          rw [List.length_drop]
          omega
        have rest := inductionHypothesis _ shorter (t.drop k)
          (if first then bl ++ [' ', ' '] else bl) false (t1 ++ [bl ++ t.take k]) rfl
        rw [List.append_assoc, List.singleton_append] at rest
        exact (returns_of_again _ _ _ _ stays).mpr rest

/-- The lines are the pieces behind the leading blanks. -/
theorem cformatline_indented (t : List Char) (lines : List (List Char)) :
    CformatLine t l lines ↔ lines = indented (List.replicate (leadingBlanks t) ' ') true
      (pieces l (t.drop (leadingBlanks t))) := by
  have run := loop_pieces l (t.drop (leadingBlanks t)) (List.replicate (leadingBlanks t) ' ')
    true []
  constructor
  · exact fun returned => returns_unique _ _ _ _ returned run
  · rintro rfl
    exact run

/-- A text without blanks is broken into its pieces. -/
theorem cformatline_pieces (t : List Char) (visible : ' ' ∉ t) (lines : List (List Char)) :
    CformatLine t l lines ↔ lines = indented [] true (pieces l t) := by
  have none : leadingBlanks t = 0 := by
    have empty : strindex t [' '] = [] := by
      rw [List.eq_nil_iff_forall_not_mem]
      intro k listed
      obtain ⟨c, found, blank⟩ := (mem_positions _ t k).mp listed
      obtain rfl : c = ' ' := by simpa using blank
      exact visible (mem_of_entry t k _ found)
    rw [leadingBlanks, empty]
  rw [cformatline_indented, none]
  rfl

/-- The pieces are the text: each cut takes a first part and leaves the rest to the next pass. -/
theorem pieces_flatten (t : List Char) : (pieces l t).flatten = t := by
  fun_induction pieces l t with
  | case1 t fits => simp
  | case2 t long none => simp
  | case3 t long k found inductionHypothesis =>
    rw [List.flatten_cons, inductionHypothesis, List.take_append_drop]

/-- All pieces but the last end with a separator, as there is no cut anywhere else. -/
theorem pieces_ends (t : List Char) :
    ∀ piece ∈ (pieces l t).dropLast, ∃ c ∈ sep, piece.getLast? = some c := by
  fun_induction pieces l t with
  | case1 t fits => exact fun piece none => absurd none List.not_mem_nil
  | case2 t long none => exact fun piece none => absurd none List.not_mem_nil
  | case3 t long k found inductionHypothesis =>
    obtain ⟨c, known, separator⟩ := (mem_positions _ t k).mp (breakAt_separator l t k found)
    have last := take_last t k c known
    cases rest : pieces l (t.drop k) with
    | nil => exact fun piece none => absurd none List.not_mem_nil
    | cons next more =>
      rw [rest] at inductionHypothesis
      exact List.forall_mem_cons.mpr ⟨⟨c, by simpa using separator, last⟩, inductionHypothesis⟩

/-- The first piece of a text is not empty. -/
theorem pieces_first (t : List Char) (some : t ≠ []) :
    ∃ piece rest, pieces l t = piece :: rest ∧ piece ≠ [] := by
  fun_cases pieces l t with
  | case1 => exact ⟨t, [], rfl, some⟩
  | case2 => exact ⟨t, [], rfl, some⟩
  | case3 long k found =>
    have bounds := strindex_bounds t sep k (breakAt_separator l t k found)
    refine ⟨t.take k, _, rfl, fun empty => ?_⟩
    rcases List.take_eq_nil_iff.mp empty with none | noText
    · omega
    · exact some noText

/-- There are pieces. -/
theorem pieces_nonempty (t : List Char) : pieces l t ≠ [] := by
  fun_cases pieces l t <;> exact List.cons_ne_nil _ _

/-- A break with no room for it stands behind the first separator, so what it cuts off
could not have been shorter. -/
theorem breakAt_wide (t : List Char) (k : Nat) (found : breakAt l t = some k) (wide : l < k) :
    ∀ other ∈ strindex t sep, k ≤ other := by
  intro other listed
  have bounds := strindex_bounds t sep k (breakAt_separator l t k found)
  have noRoom (position : Nat) (member : position ∈ strindex t sep) : ¬position ≤ l := by
    intro room
    obtain ⟨last, known, -, small, -⟩ := breakAt_last l t (by omega) position member room
    rw [found] at known
    obtain rfl := Option.some.inj known
    omega
  have sorted : (strindex t sep).Pairwise (· < ·) := positions_sorted _ t
  rw [breakAt] at found
  generalize strindex t sep = separators at found listed noRoom sorted
  cases separators with
  | nil => cases found
  | cons position later =>
    have nothing : ((position :: (later ++ [t.length + 1])).zip
        (later ++ [t.length + 1])).filter (fun pair => pair.1 ≤ l ∧ l < pair.2) = [] := by
      apply List.filter_eq_nil_iff.mpr
      intro pair member
      have above := noRoom pair.1 (neighbour position _ later pair member)
      simp [above]
    dsimp only [List.tail_cons] at found
    rw [nothing] at found
    obtain rfl : position = k := Option.some.inj found
    rcases List.mem_cons.mp listed with rfl | behind
    · exact Nat.le_refl _
    · exact Nat.le_of_lt ((List.pairwise_cons.mp sorted).1 other behind)

/-- A character that is a separator is found. -/
theorem separator_found (t : List Char) (i : Nat) (c : Char) (known : t[i]? = some c)
    (separator : c ∈ sep) : i + 1 ∈ strindex t sep :=
  (mem_positions _ t (i + 1)).mpr ⟨c, known, by simpa using separator⟩

/-- A piece that is too long has no separator but at its end. The last separator that
fits is preferred, and only where none fits the first one behind is taken. -/
theorem pieces_wide (t : List Char) :
    ∀ piece ∈ pieces l t, l < piece.length → ∀ c ∈ piece.dropLast, c ∉ sep := by
  fun_induction pieces l t with
  | case1 t fits =>
    intro piece member wide
    rw [List.mem_singleton.mp member] at wide
    exact absurd fits (Nat.not_le.mpr wide)
  | case2 t long none =>
    intro piece member _ c inside separator
    rw [List.mem_singleton.mp member] at inside
    obtain ⟨i, known⟩ := List.getElem?_of_mem (List.mem_of_mem_dropLast inside)
    have listed := separator_found t i c known separator
    rw [breakAt] at none
    split at none
    · next empty =>
      rw [empty] at listed
      cases listed
    · dsimp only at none
      split at none <;> cases none
  | case3 t long k found inductionHypothesis =>
    refine List.forall_mem_cons.mpr ⟨?_, inductionHypothesis⟩
    intro wide c inside separator
    obtain ⟨i, known⟩ := List.getElem?_of_mem inside
    rw [List.getElem?_dropLast, List.length_take] at known
    rw [List.length_take] at wide
    split at known
    · next before =>
      rw [List.getElem?_take_of_lt (by omega)] at known
      have first := breakAt_wide l t k found (by omega) (i + 1)
        (separator_found t i c known separator)
      omega
    · cases known

/-- Up to the first gap, a growing list has all numbers. -/
theorem before_gap (first : Nat) (rest : List Nat) (pair : Nat × Nat) (others : List (Nat × Nat))
    (sorted : (first :: rest).Pairwise (· < ·))
    (found : (((first :: rest).zip rest).filter fun pair => pair.2 - pair.1 ≠ 1) =
      pair :: others) : ∀ x, first ≤ x → x ≤ pair.1 → x ∈ first :: rest := by
  induction rest generalizing first with
  | nil => cases found
  | cons next rest inductionHypothesis =>
    intro x low high
    obtain ⟨less, later⟩ := List.pairwise_cons.mp sorted
    have apart := less next List.mem_cons_self
    rw [List.zip_cons_cons] at found
    by_cases gap : next - first = 1
    · rw [List.filter_cons_of_neg (by simp [gap])] at found
      by_cases here : x = first
      · rw [here]
        exact List.mem_cons_self
      · exact List.mem_cons_of_mem _ (inductionHypothesis next later found x (by omega) high)
    · rw [List.filter_cons_of_pos (by simp [gap])] at found
      obtain rfl : (first, next) = pair := (List.cons.inj found).1
      obtain rfl : x = first := Nat.le_antisymm high low
      exact List.mem_cons_self

/-- The leading blanks are blanks. The macro finds their number from the first other
character, and takes all for blanks if there is none. -/
theorem leadingBlanks_blank (t : List Char) :
    t.take (leadingBlanks t) = List.replicate (leadingBlanks t) ' ' := by
  have blank (k : Nat) (listed : k ∈ strindex t [' ']) : entry t k = some ' ' := by
    obtain ⟨c, found, same⟩ := (mem_positions _ t k).mp listed
    obtain rfl : c = ' ' := by simpa using same
    exact found
  suffices all : ∀ k, 1 ≤ k → k ≤ leadingBlanks t → k ∈ strindex t [' '] by
    apply List.ext_getElem?
    intro i
    by_cases inside : i < leadingBlanks t
    · have found : t[i]? = some ' ' := blank (i + 1) (all (i + 1) (by omega) inside)
      rw [List.getElem?_take_of_lt inside, found, List.getElem?_replicate_of_lt inside]
    · rw [List.getElem?_take_eq_none (Nat.not_lt.mp inside), List.getElem?_eq_none]
      rw [List.length_replicate]
      exact Nat.not_lt.mp inside
  have sorted : (strindex t [' ']).Pairwise (· < ·) := positions_sorted _ t
  intro k positive low
  rw [leadingBlanks] at low
  cases listed : strindex t [' '] with
  | nil =>
    rw [listed] at low
    exact absurd positive (Nat.not_le.mpr (Nat.lt_succ_of_le low))
  | cons first others =>
    rw [listed] at low sorted
    dsimp only at low
    split at low
    · next start =>
      subst start
      split at low
      · obtain rfl : k = 1 := Nat.le_antisymm low positive
        exact List.mem_cons_self
      · next pair later found => exact before_gap 1 others pair later sorted found k positive low
    · omega

/-- The lines behind the first one have two blanks more. -/
theorem indented_rest (bl : List Char) (first : List Char) (rest : List (List Char)) :
    indented bl true (first :: rest) = (bl ++ first) :: rest.map (bl ++ [' ', ' '] ++ ·) := by
  have later (bl : List Char) (rest : List (List Char)) :
      indented bl false rest = rest.map (bl ++ ·) := by
    induction rest with
    | nil => rfl
    | cons piece rest inductionHypothesis =>
      exact congrArg (List.cons _) inductionHypothesis
  exact congrArg (List.cons _) (later _ rest)

/-- `cformatline` ends, and its lines without their indentation are the text. It cuts
behind separators, and breaks every piece that is too long, if it can: a piece without a
separator before its last character stays as long as it is. Every pass takes at least
one character from what is left, which is the measure of the loop. -/
theorem cformatline_lossless (t : List Char) :
    ∃ first rest,
      (∀ lines, CformatLine t l lines ↔
        lines = (List.replicate (leadingBlanks t) ' ' ++ first) ::
          rest.map (List.replicate (leadingBlanks t + 2) ' ' ++ ·)) ∧
      List.replicate (leadingBlanks t) ' ' ++ first ++ rest.flatten = t ∧
      (∀ piece ∈ (first :: rest).dropLast, ∃ c ∈ sep, piece.getLast? = some c) ∧
      ∀ piece ∈ first :: rest, l < piece.length → ∀ c ∈ piece.dropLast, c ∉ sep := by
  have text := pieces_flatten l (t.drop (leadingBlanks t))
  have ends := pieces_ends l (t.drop (leadingBlanks t))
  have wide := pieces_wide l (t.drop (leadingBlanks t))
  have lines := cformatline_indented l t
  cases broken : pieces l (t.drop (leadingBlanks t)) with
  | nil => exact absurd broken (pieces_nonempty l _)
  | cons first rest =>
    rw [broken] at text ends wide lines
    refine ⟨first, rest, ?_, ?_, ends, wide⟩
    · rw [indented_rest] at lines
      rw [List.replicate_add]
      exact lines
    · rw [List.append_assoc, ← List.flatten_cons, text, ← leadingBlanks_blank,
        List.take_append_drop]

end Breaks

end ScicosFlex.Codegen.CFormat
