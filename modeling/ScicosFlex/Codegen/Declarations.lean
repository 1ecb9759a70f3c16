import ScicosFlex.Codegen.Names

/-!
# Declarations of the generated file

The names that `make_standalonert` declares before the statements of a function:
the declarations at the beginning of the file, with the prototypes of
`BlockProto`, and the parameters and local variables of `<model>_init`,
`<model>_isr`, `<model>_end` and of `simblk` or `simblk_imp`. Only a function of
blocks of one name that comes first gets a prototype, so all blocks that share the
name have to be called the same way.
-/

namespace ScicosFlex.Codegen

open Compiled

/-- The generated functions with block calls. -/
inductive Body where
  | init | isr | termination | simblk
deriving DecidableEq, Repr

section Declarations

variable (cpr : Compiled)

/-- `BlockProto(bk)`: the function it declares, if any. A block of type 3 only gets
a comment. -/
def blockProto (bk : Nat) : List Callee :=
  let ftyp := functionType cpr bk
  if ftyp < 0 then []
  else if ftyp ≠ 0 ∧ ftyp ≠ 1 ∧ ftyp ≠ 2 ∧ ftyp ≠ 3 ∧ ftyp ≠ 4 ∧ ftyp ≠ 10004 then []
  else if cpr.funs bk = "agenda_blk" then []
  else if ftyp = 0 ∨ ftyp = 1 then [oldCallee cpr bk]
  else if ftyp = 2 ∨ ftyp = 4 ∨ ftyp = 10004 then [.plain (cpr.funs bk)]
  else []

/-- `Protostalone`: a prototype for every block whose function has no earlier block. -/
def protostalone : List Callee :=
  (slice 1 (cpr.nb + 1)).flatMap fun i =>
    if ∃ earlier ∈ slice 1 i, cpr.funs i = cpr.funs earlier then [] else blockProto cpr i

/-- The declarations at the beginning of the file. -/
def fileLevel : List Ident :=
  [.setBlockNumber] ++ (protostalone cpr).map .function ++ [.phase, .blockArray] ++
    (if cpr.nX ≠ 0 then [.x, .xd] ++ (if cpr.implBlk then [.res] else []) else []) ++
    (slice 1 (cpr.nlink + 1)).map .outtb

/-- `with_nrd2`: some block has type 0. -/
def withNrd2 : Bool := (slice 1 (cpr.nb + 1)).any fun bk => cpr.funtyp bk = 0

/-- The parameters and local variables of a function. -/
def prologue : Body → List Ident
  | .init => [.t, .localFlag] ++ (if cpr.implBlk then [.h, .dt] else [])
  | .isr => [.t, .localFlag, .i] ++ (if cpr.nX ≠ 0 then [.tout, .dt, .he, .h] else [])
  | .termination => [.t, .localFlag]
  | .simblk =>
    [.t, .x, .xd] ++ (if cpr.implBlk then [.res] else []) ++ [.localFlag] ++
      (if cpr.act ≠ [] ∨ cpr.cap ≠ [] then [.nport] else []) ++ [.i] ++
      (if withNrd2 cpr then [.nrd1, .nrd2, .args] else [])

/-- The names declared where the statements of a function stand. -/
def Declared (body : Body) (name : Ident) : Prop :=
  name ∈ prologue cpr body ∨ name ∈ fileLevel cpr

instance (body : Body) (name : Ident) : Decidable (Declared cpr body name) :=
  inferInstanceAs (Decidable (_ ∨ _))

end Declarations

section Lemmas

variable {cpr : Compiled}

/-- The names that all calling sequences use are declared everywhere. -/
theorem declared_common (body : Body) : Common (Declared cpr body) where
  blockArray := Or.inr (by simp [fileLevel])
  setBlockNumber := Or.inr (by simp [fileLevel])
  localFlag := Or.inl (by cases body <;> simp [prologue])
  t := Or.inl (by cases body <;> simp [prologue])

/-- The phase is declared everywhere. -/
theorem declared_phase (body : Body) : Declared cpr body .phase := Or.inr (by simp [fileLevel])

/-- The variable `i` is declared in two of the functions only. -/
theorem declared_i (body : Body) : Declared cpr body .i ↔ body = .isr ∨ body = .simblk := by
  cases body <;> simp [Declared, prologue, fileLevel]

/-- The loop variable of the output events is declared nowhere. -/
theorem not_declared_kf (body : Body) : ¬ Declared cpr body .kf := by
  cases body <;> simp [Declared, prologue, fileLevel]

/-- Neither is the array that the nested derivative code names. -/
theorem not_declared_reversedArray (body : Body) : ¬ Declared cpr body .reversedArray := by
  cases body <;> simp [Declared, prologue, fileLevel]

/-- The scratch variables of type 0 are at best declared in the solver function. -/
theorem declared_args (body : Body) (declared : Declared cpr body .args) : body = .simblk := by
  revert declared
  cases body <;> simp [Declared, prologue, fileLevel]

/-- A solver function has the residual of an implicit model as a parameter. -/
theorem declared_res (implicit : cpr.implBlk = true) : Declared cpr .simblk .res :=
  Or.inl (by simp [prologue, implicit])

theorem declared_xd : Declared cpr .simblk .xd := Or.inl (by simp [prologue])

/-- The links are declared at file level. -/
theorem declared_outtb (body : Body) (link : Nat) (inside : 1 ≤ link ∧ link ≤ cpr.nlink) :
    Declared cpr body (.outtb link) := by
  refine Or.inr (List.mem_append_right _ (List.mem_map_of_mem ?_))
  exact (mem_slice _ _ _).mpr (by omega)

/-- So are the functions with a prototype. -/
theorem declared_function (body : Body) (callee : Callee) :
    Declared cpr body (.function callee) ↔ callee ∈ protostalone cpr := by
  cases body <;> simp [Declared, prologue, fileLevel]

/-- Of the blocks with a calling sequence all but `agenda_blk` get the prototype
that their calls need. -/
theorem blockProto_supported (bk : Nat) (called : supported cpr bk = true)
    (agenda : cpr.funs bk ≠ "agenda_blk") : blockProto cpr bk = [calleeOf cpr bk] := by
  simp only [supported, Bool.or_eq_true, decide_eq_true_eq] at called
  rcases called with (((kind | kind) | kind) | kind) | kind <;>
    simp [blockProto, calleeOf, kind, agenda]

/-- The others get none. -/
theorem blockProto_unsupported (bk : Nat)
    (none : supported cpr bk = false ∨ cpr.funs bk = "agenda_blk") : blockProto cpr bk = [] := by
  simp only [supported, Bool.or_eq_false_iff, decide_eq_false_iff_not] at none
  unfold blockProto
  grind

/-- The name of a called function. -/
def calleeName : Callee → String
  | .plain name | .fortran name => name
  | .sensor | .actuator | .dummyActuator => ""

/-- A block calls its own function. -/
theorem calleeOf_name (bk : Nat) : calleeName (calleeOf cpr bk) = cpr.funs bk := by
  unfold calleeOf oldCallee
  split_ifs <;> rfl

variable (cpr) in
/-- The first block with the function of `bk` is called the same way as `bk`, so its
prototype serves both. -/
def Prototyped (bk : Nat) : Prop :=
  ∃ first ∈ slice 1 (cpr.nb + 1), cpr.funs first = cpr.funs bk ∧
    (∀ earlier ∈ slice 1 first, cpr.funs first ≠ cpr.funs earlier) ∧
    supported cpr first = true ∧ calleeOf cpr first = calleeOf cpr bk

/-- The function of a called block is declared exactly if the first block with that
function is called the same way. -/
theorem protostalone_iff (bk : Nat) (called : callable cpr bk = true) :
    calleeOf cpr bk ∈ protostalone cpr ↔ Prototyped cpr bk := by
  have noAgenda : cpr.funs bk ≠ "agenda_blk" := by
    simp only [callable, neverCalled, Bool.and_eq_true, Bool.not_eq_true', Bool.or_eq_false_iff,
      decide_eq_false_iff_not] at called
    exact called.2.2
  simp only [protostalone, List.mem_flatMap, Prototyped]
  refine exists_congr fun first => and_congr_right fun _ => ?_
  by_cases earlier : ∃ earlier ∈ slice 1 first, cpr.funs first = cpr.funs earlier
  · rw [if_pos earlier]
    apply iff_of_false List.not_mem_nil
    intro all
    obtain ⟨other, before, same⟩ := earlier
    exact all.2.1 other before same
  · rw [if_neg earlier]
    have fresh : ∀ earlier ∈ slice 1 first, cpr.funs first ≠ cpr.funs earlier :=
      fun other before same => earlier ⟨other, before, same⟩
    constructor
    · intro member
      have served : supported cpr first = true ∧ cpr.funs first ≠ "agenda_blk" := by
        apply Decidable.byContradiction
        intro none
        rw [blockProto_unsupported first (by
          rw [Decidable.not_and_iff_not_or_not] at none
          simpa using none)] at member
        cases member
      rw [blockProto_supported first served.1 served.2, List.mem_singleton] at member
      have name : cpr.funs first = cpr.funs bk := by
        rw [← calleeOf_name first, ← calleeOf_name bk, member]
      exact ⟨name, fresh, served.1, member.symm⟩
    · rintro ⟨name, -, served, same⟩
      rw [blockProto_supported first served (name ▸ noAgenda), same]
      exact List.mem_singleton_self _

end Lemmas

end ScicosFlex.Codegen
