import Mathlib.Tactic.SplitIfs
import ScicosFlex.Library.Writes
import ScicosFlex.Codegen.Standalone

/-!
# Block descriptors

The arrays that `make_standalonert` declares and the assignments to the block
structures in `<model>_init`, one loop of the generator after the other. A
descriptor is complete if its numbers are the sizes of the block's slices and, for
every number that is not zero, the arrays that a block may index through it have
been assigned and are long enough.

`complete_iff` says for which blocks this holds. No loop assigns `g`, `jroot` and
`mode`, so exactly the blocks with zero-crossing surfaces or modes are incomplete.
-/

namespace ScicosFlex.Codegen

open Compiled Library.Writes

/-- The arrays of the generated file, and the arguments `typin` and `typout` that
stand for the sizes of sensors and actuators. -/
inductive ArrayName where
  | rpar (i : Nat) | ipar (i : Nat)
  | opar (k : Nat) | oparsz (i : Nat) | opartyp (i : Nat) | oparptr (i : Nat)
  | x | xd | res | xprop
  | z (i : Nat) | work (i : Nat)
  | oz (k : Nat) | ozsz (i : Nat) | oztyp (i : Nat) | ozptr (i : Nat)
  | outtb (k : Nat)
  | insz (i : Nat) | inptr (i : Nat) | outsz (i : Nat) | outptr (i : Nat)
  | evout (i : Nat)
  | typin | typout
deriving DecidableEq, Repr

/-- The entries of initializers: a value of the diagram, a size, a type or zero. -/
inductive Entry where
  | value (index : Nat)
  | number (size : Nat)
  | typ (typ : CType)
  | zero
deriving DecidableEq, Repr

/-- The fields of a block structure that hold numbers. -/
inductive NumberField where
  | type | ztyp | ng | nz | nx | noz | nrpar | nopar | nipar | nin | nout | nevout | nmode
deriving DecidableEq, Repr

/-- The fields that hold pointers. -/
inductive PointerField where
  | x | xd | res | xprop | evout | inptr | insz | outptr | outsz | z | rpar | ipar
  | oparptr | oparsz | opartyp | ozptr | ozsz | oztyp | work | g | jroot | mode
deriving DecidableEq, Repr

section Declarations

variable (cpr : Compiled)

abbrev Declaration := ArrayName × List Entry

/-- The blocks that get a structure. -/
def blocks : List Nat := slice 1 (nblk cpr + 1)

/-- The values of a matrix, real and imaginary parts of a complex one. -/
def matrixEntries (matrix : Matrix) : List Entry :=
  (List.range (matrix.rows * matrix.cols * if matrix.typ = .complex then 2 else 1)).map .value

/-- First dimensions, second dimensions and, for ports, types of some matrices. -/
def sizeEntries (matrices : List Matrix) (typed : Bool) : List Entry :=
  matrices.map (fun matrix => .number matrix.rows) ++
    matrices.map (fun matrix => .number matrix.cols) ++
    (if typed then matrices.map (fun matrix => .typ matrix.typ) else [])

/-- The slices of a vector with `total` entries: parameters and discrete states. -/
def vectorArrays (name : Nat → ArrayName) (ptr : Nat → Nat) (total : Nat) : List Declaration :=
  if total = 0 then []
  else (slice 1 (cpr.nb + 1)).flatMap fun i =>
    if 0 < size ptr i then [(name i, (slice (ptr i) (ptr (i + 1))).map .value)] else []

/-- The arrays of object parameters or object states. -/
def objectArrays (datum sz typ table : Nat → ArrayName) (ptr : Nat → Nat)
    (matrix : Nat → Matrix) : List Declaration :=
  (slice 1 (cpr.nb + 1)).flatMap fun i =>
    let objects := slice (ptr i) (ptr (i + 1))
    if 0 < size ptr i then
      objects.map (fun k => (datum k, matrixEntries (matrix k))) ++
        [(sz i, sizeEntries (objects.map matrix) false),
          (typ i, objects.map fun k => .typ (matrix k).typ),
          (table i, objects.map fun _ => .zero)]
    else []

/-- The continuous states; an implicit model has two entries in `x` for each. -/
def stateArrays : List Declaration :=
  if cpr.nX = 0 then []
  else if cpr.implBlk then
    [(.x, (List.range cpr.nX).map .value), (.xd, List.replicate (cpr.nX - cpr.nX / 2) .zero),
      (.res, List.replicate (cpr.nX / 2) .zero),
      (.xprop, (List.range (cpr.nX / 2)).map fun _ => .number 1)]
  else [(.x, (List.range cpr.nX).map .value), (.xd, List.replicate cpr.nX .zero)]

/-- The work pointers. -/
def workArrays : List Declaration :=
  (slice 1 (cpr.nb + 1)).flatMap fun i => if cpr.withWork i = 1 then [(.work i, [.zero])] else []

/-- The links. -/
def outtbArrays : List Declaration :=
  (slice 1 (cpr.nlink + 1)).map fun k => (.outtb k, matrixEntries (cpr.outtb k))

/-- The sizes and pointers of the ports on one side of the blocks; a sensor or
actuator has one pointer. -/
def portArrays (sz table : Nat → ArrayName) (foreign : Nat → Bool) (ptr link : Nat → Nat) :
    List Declaration :=
  (blocks cpr).flatMap fun kf =>
    let ports := slice (ptr kf) (ptr (kf + 1))
    if foreign kf then [(table kf, [.zero])]
    else if size ptr kf ≠ 0 then
      [(sz kf, sizeEntries (ports.map fun port => cpr.outtb (link port)) true),
        (table kf, ports.map fun _ => .zero)]
    else []

/-- The output events. -/
def evoutArrays : List Declaration :=
  (blocks cpr).flatMap fun kf =>
    if cpr.funs kf ≠ "bidon" ∧ size cpr.clkptr kf ≠ 0 then
      [(.evout kf, (cpr.outputEvents kf).map .value)]
    else []

/-- All declarations. -/
def declarations : List Declaration :=
  vectorArrays cpr .rpar cpr.rpptr cpr.nRpar ++ vectorArrays cpr .ipar cpr.ipptr cpr.nIpar ++
  objectArrays cpr .opar .oparsz .opartyp .oparptr cpr.opptr cpr.opar ++ stateArrays cpr ++
  vectorArrays cpr .z cpr.zptr cpr.nZ ++ workArrays cpr ++
  objectArrays cpr .oz .ozsz .oztyp .ozptr cpr.ozptr cpr.oz ++ outtbArrays cpr ++
  portArrays cpr .insz .inptr (isSensor cpr) cpr.inpptr cpr.inplnk ++
  portArrays cpr .outsz .outptr (isActuator cpr) cpr.outptr cpr.outlnk ++ evoutArrays cpr

end Declarations

section Assignments

variable (cpr : Compiled)

/-- What is stored into the tables of pointers. -/
def tableWrites : ArrayName → List (Nat × ArrayName)
  | .inptr kf =>
    if isSensor cpr kf then []
    else (List.range (size cpr.inpptr kf).toNat).map fun k =>
      (k, .outtb (cpr.inplnk (cpr.inpptr kf + k)))
  | .outptr kf =>
    if isActuator cpr kf then []
    else (List.range (size cpr.outptr kf).toNat).map fun k =>
      (k, .outtb (cpr.outlnk (cpr.outptr kf + k)))
  | .oparptr kf => (List.range (size cpr.opptr kf).toNat).map fun k => (k, .opar (cpr.opptr kf + k))
  | .ozptr kf => (List.range (size cpr.ozptr kf).toNat).map fun k => (k, .oz (cpr.ozptr kf + k))
  | _ => []

/-- The tables in the order of the loops. -/
def tables : List ArrayName :=
  [ArrayName.inptr, .outptr, .oparptr, .ozptr].flatMap fun table => (blocks cpr).map table

/-- The assignments to entries of tables, `inptr_<kf>[k] = (void *) outtb_<link>`
and the like. The arguments of sensors and actuators are left out. -/
def tableAssignments : List ((ArrayName × Nat) × ArrayName) :=
  (tables cpr).flatMap fun table => owned table (tableWrites cpr table)

/-- The numbers of one block. -/
def numberWrites (kf : Nat) : List (NumberField × Int) :=
  [(.type, cpr.funtyp kf), (.ztyp, if cpr.ztyp kf then 1 else 0), (.ng, size cpr.zcptr kf),
    (.nz, size cpr.zptr kf), (.nx, size cpr.xptr kf), (.noz, size cpr.ozptr kf),
    (.nrpar, size cpr.rpptr kf), (.nopar, size cpr.opptr kf), (.nipar, size cpr.ipptr kf),
    (.nin, size cpr.inpptr kf), (.nout, size cpr.outptr kf), (.nevout, size cpr.clkptr kf),
    (.nmode, size cpr.modptr kf)]

abbrev PointerWrite := PointerField × (ArrayName × Nat)

/-- Pointers to the starts of arrays, set under a condition. -/
def pointersIf (present : Bool) (fields : List (PointerField × ArrayName)) : List PointerWrite :=
  if present then fields.map fun (field, array) => (field, (array, 0)) else []

/-- The pointers to the continuous states. -/
def statePointers (kf : Nat) : List PointerWrite :=
  let offset := cpr.xptr kf - 1
  if size cpr.xptr kf = 0 then []
  else if cpr.implBlk then
    [(.x, (.x, offset)), (.xd, (.xd, offset)), (.res, (.res, offset)), (.xprop, (.xprop, offset))]
  else [(.x, (.x, offset)), (.xd, (.xd, offset))]

/-- The pointers to the inputs; the sizes of a sensor's input are an argument. -/
def inputPointers (kf : Nat) : List PointerWrite :=
  if isSensor cpr kf then
    [(.inptr, (.inptr kf, 0)), (.insz, (.typin, cpr.capt.findIdx fun row => row.1 = kf))]
  else pointersIf (size cpr.inpptr kf ≠ 0) [(.inptr, .inptr kf), (.insz, .insz kf)]

/-- The pointers to the outputs; the sizes of an actuator's output are an argument. -/
def outputPointers (kf : Nat) : List PointerWrite :=
  if isActuator cpr kf then
    [(.outptr, (.outptr kf, 0)), (.outsz, (.typout, cpr.actt.findIdx fun row => row.1 = kf))]
  else pointersIf (size cpr.outptr kf ≠ 0) [(.outptr, .outptr kf), (.outsz, .outsz kf)]

/-- The pointers of one block: each to an entry of an array. -/
def pointerWrites (kf : Nat) : List PointerWrite :=
  statePointers cpr kf ++ pointersIf (size cpr.clkptr kf ≠ 0) [(.evout, .evout kf)] ++
  inputPointers cpr kf ++ outputPointers cpr kf ++ pointersIf (0 < size cpr.zptr kf) [(.z, .z kf)] ++
  pointersIf (0 < size cpr.rpptr kf) [(.rpar, .rpar kf)] ++
  pointersIf (0 < size cpr.ipptr kf) [(.ipar, .ipar kf)] ++
  pointersIf (0 < size cpr.opptr kf)
    [(.oparptr, .oparptr kf), (.oparsz, .oparsz kf), (.opartyp, .opartyp kf)] ++
  pointersIf (0 < size cpr.ozptr kf)
    [(.ozptr, .ozptr kf), (.ozsz, .ozsz kf), (.oztyp, .oztyp kf)] ++
  pointersIf (cpr.withWork kf = 1) [(.work, .work kf)]

/-- The blocks whose fields are set. -/
def described : List Nat := (blocks cpr).filter fun kf => cpr.funs kf ≠ "bidon"

/-- The assignments of numbers. -/
def numberAssignments : List ((Nat × NumberField) × Int) :=
  (described cpr).flatMap fun kf => owned kf (numberWrites cpr kf)

/-- The assignments of pointers. -/
def pointerAssignments : List ((Nat × PointerField) × (ArrayName × Nat)) :=
  (described cpr).flatMap fun kf => owned kf (pointerWrites cpr kf)

end Assignments

section Complete

variable (cpr : Compiled)

/-- The size of a block's slice that a number should be, for the numbers that
count something. -/
def sliceSize (kf : Nat) : NumberField → Option Int
  | .type | .ztyp => none
  | .ng => some (size cpr.zcptr kf)
  | .nz => some (size cpr.zptr kf)
  | .nx => some (size cpr.xptr kf)
  | .noz => some (size cpr.ozptr kf)
  | .nrpar => some (size cpr.rpptr kf)
  | .nopar => some (size cpr.opptr kf)
  | .nipar => some (size cpr.ipptr kf)
  | .nin => some (size cpr.inpptr kf)
  | .nout => some (size cpr.outptr kf)
  | .nevout => some (size cpr.clkptr kf)
  | .nmode => some (size cpr.modptr kf)

/-- The pointers a block may follow if a number is not zero, and how many entries
it may index for each unit of the number. -/
def promised : NumberField → List (PointerField × Nat)
  | .type | .ztyp => []
  | .ng => [(.g, 1), (.jroot, 1)]
  | .nz => [(.z, 1)]
  | .nx => [(.x, 1), (.xd, 1)]
  | .noz => [(.ozptr, 1), (.ozsz, 2), (.oztyp, 1)]
  | .nrpar => [(.rpar, 1)]
  | .nopar => [(.oparptr, 1), (.oparsz, 2), (.opartyp, 1)]
  | .nipar => [(.ipar, 1)]
  | .nin => [(.inptr, 1), (.insz, 3)]
  | .nout => [(.outptr, 1), (.outsz, 3)]
  | .nevout => [(.evout, 1)]
  | .nmode => [(.mode, 1)]

/-- The fields that point to tables of pointers. -/
def PointerField.table : PointerField → Bool
  | .inptr | .outptr | .oparptr | .ozptr => true
  | _ => false

/-- An array has at least so many entries. It is declared with an initializer, and the
length of that is the length of the array. -/
def Holds (array : ArrayName) (entries : Nat) : Prop :=
  ∃ initializer, (array, initializer) ∈ declarations cpr ∧ entries ≤ initializer.length

/-- A pointer field is usable for so many entries: it points into an array that is
long enough, and if this is a table, its entries point to arrays too. -/
def Usable (kf : Nat) (field : PointerField) (entries : Nat) : Prop :=
  ∃ array offset, readBack (pointerAssignments cpr) (kf, field) = some (array, offset) ∧
    Holds cpr array (offset + entries) ∧
    (field.table = true → ∀ k < entries, ∃ target,
      readBack (tableAssignments cpr) (array, offset + k) = some target ∧ Holds cpr target 0)

/-- The descriptor of a block is complete: every number in it is the one of the compiled
diagram, and a number other than zero comes with pointers to that many entries. -/
def Complete (kf : Nat) : Prop :=
  ∀ number count, sliceSize cpr kf number = some count →
    readBack (numberAssignments cpr) (kf, number) = some count ∧
    (count ≠ 0 → ∀ pointer ∈ promised number, Usable cpr kf pointer.1 (pointer.2 * count.toNat))

/-- A pointer vector into a vector with so many entries: at every block it stays where
it is or moves on, and behind the last block it has not passed the end. -/
def PointsInto (ptr : Nat → Nat) (total : Nat) : Prop :=
  ∀ kf, 1 ≤ kf → kf ≤ cpr.nb → 1 ≤ ptr kf ∧ ptr kf ≤ ptr (kf + 1) ∧ ptr (kf + 1) ≤ total + 1

/-- What the compiler guarantees of the pointer vectors, and that no sensors and
actuators are left. -/
structure Consistent : Prop where
  states : PointsInto cpr cpr.xptr (if cpr.implBlk then cpr.nX / 2 else cpr.nX)
  discrete : PointsInto cpr cpr.zptr cpr.nZ
  real : PointsInto cpr cpr.rpptr cpr.nRpar
  integer : PointsInto cpr cpr.ipptr cpr.nIpar
  ordered : ∀ kf, cpr.ozptr kf ≤ cpr.ozptr (kf + 1) ∧ cpr.opptr kf ≤ cpr.opptr (kf + 1) ∧
    cpr.inpptr kf ≤ cpr.inpptr (kf + 1) ∧ cpr.outptr kf ≤ cpr.outptr (kf + 1) ∧
    cpr.clkptr kf ≤ cpr.clkptr (kf + 1)
  inputs : ∀ kf, 1 ≤ kf → kf ≤ cpr.nb → ∀ port, cpr.inpptr kf ≤ port → port < cpr.inpptr (kf + 1) →
    1 ≤ cpr.inplnk port ∧ cpr.inplnk port ≤ cpr.nlink
  outputs : ∀ kf, 1 ≤ kf → kf ≤ cpr.nb → ∀ port, cpr.outptr kf ≤ port →
    port < cpr.outptr (kf + 1) → 1 ≤ cpr.outlnk port ∧ cpr.outlnk port ≤ cpr.nlink
  sensors : cpr.capt = []
  actuators : cpr.actt = []

end Complete

section Declared

variable {cpr : Compiled}

/-- The blocks with a structure are all blocks but a clock at the end. -/
theorem mem_blocks (kf : Nat) (positive : 1 ≤ kf) (inside : kf ≤ cpr.nb)
    (ordinary : cpr.funs kf ≠ "bidon") : kf ∈ blocks cpr := by
  rw [blocks, mem_slice]
  unfold nblk
  split
  · rename_i clock
    have other : kf ≠ cpr.nb := fun same => ordinary (same ▸ clock)
    omega
  · omega

/-- A slice of a vector is declared. -/
theorem mem_vectorArrays (name : Nat → ArrayName) (ptr : Nat → Nat) (total kf : Nat)
    (points : PointsInto cpr ptr total) (positive : 1 ≤ kf) (inside : kf ≤ cpr.nb)
    (some : 0 < size ptr kf) :
    (name kf, (slice (ptr kf) (ptr (kf + 1))).map Entry.value) ∈ vectorArrays cpr name ptr total := by
  obtain ⟨low, ordered, high⟩ := points kf positive inside
  have filled : total ≠ 0 := by
    simp only [size] at some
    omega
  rw [vectorArrays, if_neg filled, List.mem_flatMap]
  refine ⟨kf, (mem_slice _ _ _).mpr (by omega), ?_⟩
  rw [if_pos some]
  exact List.mem_singleton_self _

/-- The arrays of a block's objects are declared. -/
theorem mem_objectArrays (datum sz typ table : Nat → ArrayName) (ptr : Nat → Nat)
    (matrix : Nat → Matrix) (kf : Nat) (positive : 1 ≤ kf) (inside : kf ≤ cpr.nb)
    (some : 0 < size ptr kf) (declaration : Declaration)
    (member : declaration ∈ (slice (ptr kf) (ptr (kf + 1))).map
        (fun k => (datum k, matrixEntries (matrix k))) ++
      [(sz kf, sizeEntries ((slice (ptr kf) (ptr (kf + 1))).map matrix) false),
        (typ kf, (slice (ptr kf) (ptr (kf + 1))).map fun k => .typ (matrix k).typ),
        (table kf, (slice (ptr kf) (ptr (kf + 1))).map fun _ => .zero)]) :
    declaration ∈ objectArrays cpr datum sz typ table ptr matrix := by
  rw [objectArrays, List.mem_flatMap]
  refine ⟨kf, (mem_slice _ _ _).mpr (by omega), ?_⟩
  simp only [if_pos some]
  exact member

/-- The port arrays of a block that is no sensor or actuator are declared. -/
theorem mem_portArrays (sz table : Nat → ArrayName) (foreign : Nat → Bool) (ptr link : Nat → Nat)
    (kf : Nat) (member : kf ∈ blocks cpr) (own : foreign kf = false) (some : size ptr kf ≠ 0) :
    (sz kf, sizeEntries ((slice (ptr kf) (ptr (kf + 1))).map fun port => cpr.outtb (link port)) true)
        ∈ portArrays cpr sz table foreign ptr link ∧
      (table kf, (slice (ptr kf) (ptr (kf + 1))).map fun _ => Entry.zero) ∈
        portArrays cpr sz table foreign ptr link := by
  constructor <;>
    rw [portArrays, List.mem_flatMap] <;>
    refine ⟨kf, member, ?_⟩ <;>
    simp only [own, Bool.false_eq_true, if_false, if_pos some, List.mem_cons, true_or, or_true]

/-- Size lists have two or three entries for each matrix. -/
theorem sizeEntries_length (matrices : List Matrix) (typed : Bool) :
    (sizeEntries matrices typed).length = (if typed then 3 else 2) * matrices.length := by
  cases typed <;>
    simp only [sizeEntries, List.length_append, List.length_map, Bool.false_eq_true, if_false,
      if_true, List.length_nil] <;>
    omega

/-- A declaration of any of the loops is one of the file. -/
theorem mem_declarations (declaration : Declaration) :
    declaration ∈ declarations cpr ↔
      declaration ∈ vectorArrays cpr .rpar cpr.rpptr cpr.nRpar ∨
      declaration ∈ vectorArrays cpr .ipar cpr.ipptr cpr.nIpar ∨
      declaration ∈ objectArrays cpr .opar .oparsz .opartyp .oparptr cpr.opptr cpr.opar ∨
      declaration ∈ stateArrays cpr ∨ declaration ∈ vectorArrays cpr .z cpr.zptr cpr.nZ ∨
      declaration ∈ workArrays cpr ∨
      declaration ∈ objectArrays cpr .oz .ozsz .oztyp .ozptr cpr.ozptr cpr.oz ∨
      declaration ∈ outtbArrays cpr ∨
      declaration ∈ portArrays cpr .insz .inptr (isSensor cpr) cpr.inpptr cpr.inplnk ∨
      declaration ∈ portArrays cpr .outsz .outptr (isActuator cpr) cpr.outptr cpr.outlnk ∨
      declaration ∈ evoutArrays cpr := by
  simp only [declarations, List.mem_append, or_assoc]

end Declared

section Assigned

variable {cpr : Compiled}

/-- Without sensors and actuators no block is one. -/
theorem Consistent.own (consistent : Consistent cpr) (kf : Nat) :
    isSensor cpr kf = false ∧ isActuator cpr kf = false := by
  simp only [isSensor, isActuator, consistent.sensors, consistent.actuators, List.any_nil, and_self]

/-- What a pointer field of a block holds after the initialization. -/
def pointed (cpr : Compiled) (kf : Nat) : PointerField → Option (ArrayName × Nat)
  | .x => if size cpr.xptr kf ≠ 0 then some (.x, cpr.xptr kf - 1) else none
  | .xd => if size cpr.xptr kf ≠ 0 then some (.xd, cpr.xptr kf - 1) else none
  | .res => if size cpr.xptr kf ≠ 0 ∧ cpr.implBlk then some (.res, cpr.xptr kf - 1) else none
  | .xprop => if size cpr.xptr kf ≠ 0 ∧ cpr.implBlk then some (.xprop, cpr.xptr kf - 1) else none
  | .evout => if size cpr.clkptr kf ≠ 0 then some (.evout kf, 0) else none
  | .inptr => if size cpr.inpptr kf ≠ 0 then some (.inptr kf, 0) else none
  | .insz => if size cpr.inpptr kf ≠ 0 then some (.insz kf, 0) else none
  | .outptr => if size cpr.outptr kf ≠ 0 then some (.outptr kf, 0) else none
  | .outsz => if size cpr.outptr kf ≠ 0 then some (.outsz kf, 0) else none
  | .z => if 0 < size cpr.zptr kf then some (.z kf, 0) else none
  | .rpar => if 0 < size cpr.rpptr kf then some (.rpar kf, 0) else none
  | .ipar => if 0 < size cpr.ipptr kf then some (.ipar kf, 0) else none
  | .oparptr => if 0 < size cpr.opptr kf then some (.oparptr kf, 0) else none
  | .oparsz => if 0 < size cpr.opptr kf then some (.oparsz kf, 0) else none
  | .opartyp => if 0 < size cpr.opptr kf then some (.opartyp kf, 0) else none
  | .ozptr => if 0 < size cpr.ozptr kf then some (.ozptr kf, 0) else none
  | .ozsz => if 0 < size cpr.ozptr kf then some (.ozsz kf, 0) else none
  | .oztyp => if 0 < size cpr.ozptr kf then some (.oztyp kf, 0) else none
  | .work => if cpr.withWork kf = 1 then some (.work kf, 0) else none
  | .g | .jroot | .mode => none

/-- Pointers set under a condition, read back. -/
theorem readBack_pointersIf (present : Bool) (fields : List (PointerField × ArrayName))
    (field : PointerField) :
    readBack (pointersIf present fields) field =
      if present then readBack (fields.map fun (field, array) => (field, (array, 0))) field
      else none := by
  cases present <;> rfl

/-- The pointers to the continuous states, read back. -/
theorem readBack_states (kf : Nat) (field : PointerField) :
    readBack (statePointers cpr kf) field =
      match field with
      | .x | .xd | .res | .xprop => pointed cpr kf field
      | _ => none := by
  by_cases none : size cpr.xptr kf = 0
  · cases field <;> simp [statePointers, pointed, none]
  · by_cases implicit : cpr.implBlk = true <;>
      cases field <;> simp [statePointers, pointed, none, implicit]

/-- The pointers of a block, read back. -/
theorem readBack_pointers (consistent : Consistent cpr) (kf : Nat) (field : PointerField) :
    readBack (pointerWrites cpr kf) field = pointed cpr kf field := by
  obtain ⟨noSensor, noActuator⟩ := consistent.own kf
  simp only [pointerWrites, inputPointers, outputPointers, noSensor, noActuator, Bool.false_eq_true,
    if_false, readBack_append, readBack_states, readBack_pointersIf]
  cases field <;> simp [pointed]

/-- The pointers of a described block after the whole initialization. -/
theorem pointer_assigned (consistent : Consistent cpr) (kf : Nat) (member : kf ∈ described cpr)
    (field : PointerField) :
    readBack (pointerAssignments cpr) (kf, field) = pointed cpr kf field := by
  rw [pointerAssignments, readBack_groups _ _ _ member, readBack_pointers consistent]

/-- The numbers of a described block after the whole initialization. -/
theorem number_assigned (kf : Nat) (member : kf ∈ described cpr) (number : NumberField) (count : Int)
    (counts : sliceSize cpr kf number = some count) :
    readBack (numberAssignments cpr) (kf, number) = some count := by
  rw [numberAssignments, readBack_groups _ _ _ member, ← counts]
  cases number <;> first | rfl | cases counts

/-- The entries of a table after the whole initialization. -/
theorem table_assigned (table : ArrayName) (member : table ∈ tables cpr) (k : Nat) :
    readBack (tableAssignments cpr) (table, k) = readBack (tableWrites cpr table) k := by
  rw [tableAssignments, readBack_groups _ _ _ member]

/-- Every block with a structure has its four tables. -/
theorem mem_tables (kf : Nat) (member : kf ∈ blocks cpr) :
    ArrayName.inptr kf ∈ tables cpr ∧ ArrayName.outptr kf ∈ tables cpr ∧
      ArrayName.oparptr kf ∈ tables cpr ∧ ArrayName.ozptr kf ∈ tables cpr := by
  simp [tables, member]

end Assigned

section Main

variable {cpr : Compiled}

/-- A field that points to the start of a long enough array is usable. -/
theorem usable_array (consistent : Consistent cpr) (kf : Nat) (member : kf ∈ described cpr)
    (field : PointerField) (array : ArrayName) (offset entries : Nat) (initializer : List Entry)
    (assigned : pointed cpr kf field = some (array, offset))
    (declared : (array, initializer) ∈ declarations cpr)
    (long : offset + entries ≤ initializer.length) (plain : field.table = false) :
    Usable cpr kf field entries := by
  refine ⟨array, offset, ?_, ⟨initializer, declared, long⟩, fun table => ?_⟩
  · rw [pointer_assigned consistent kf member, assigned]
  · rw [plain] at table
    cases table

/-- A field that points to a filled table is usable. -/
theorem usable_table (consistent : Consistent cpr) (kf : Nat) (member : kf ∈ described cpr)
    (field : PointerField) (table : ArrayName) (entries : Nat) (initializer : List Entry)
    (target : Nat → ArrayName) (assigned : pointed cpr kf field = some (table, 0))
    (declared : (table, initializer) ∈ declarations cpr) (long : entries ≤ initializer.length)
    (known : table ∈ tables cpr)
    (filled : tableWrites cpr table = (List.range entries).map fun k => (k, target k))
    (targets : ∀ k < entries, ∃ values, (target k, values) ∈ declarations cpr) :
    Usable cpr kf field entries := by
  refine ⟨table, 0, ?_, ⟨initializer, declared, by omega⟩, fun _ k inside => ⟨target k, ?_, ?_⟩⟩
  · rw [pointer_assigned consistent kf member, assigned]
  · rw [Nat.zero_add, table_assigned table known, filled, readBack_table entries target k inside]
  · obtain ⟨values, there⟩ := targets k inside
    exact ⟨values, there, Nat.zero_le _⟩

/-- The continuous states and their derivatives. -/
theorem states_usable (consistent : Consistent cpr) (kf : Nat) (member : kf ∈ described cpr)
    (positive : 1 ≤ kf) (inside : kf ≤ cpr.nb) (some : size cpr.xptr kf ≠ 0) :
    Usable cpr kf .x (size cpr.xptr kf).toNat ∧ Usable cpr kf .xd (size cpr.xptr kf).toNat := by
  obtain ⟨low, ordered, high⟩ := consistent.states kf positive inside
  have filled : cpr.nX ≠ 0 := by
    simp only [size] at some
    split at high <;> omega
  have states : (ArrayName.x, (List.range cpr.nX).map Entry.value) ∈ stateArrays cpr ∧
      (ArrayName.xd, List.replicate (if cpr.implBlk then cpr.nX - cpr.nX / 2 else cpr.nX)
        Entry.zero) ∈ stateArrays cpr := by
    by_cases implicit : cpr.implBlk = true <;> simp [stateArrays, filled, implicit]
  have declared (declaration : Declaration) (one : declaration ∈ stateArrays cpr) :=
    (mem_declarations declaration).mpr (Or.inr (Or.inr (Or.inr (Or.inl one))))
  constructor
  · refine usable_array consistent kf member .x .x (cpr.xptr kf - 1) _ _ ?_ (declared _ states.1) ?_
      rfl
    · simp only [pointed, if_pos some]
    · simp only [List.length_map, List.length_range, size]
      split at high <;> omega
  · refine usable_array consistent kf member .xd .xd (cpr.xptr kf - 1) _ _ ?_ (declared _ states.2) ?_
      rfl
    · simp only [pointed, if_pos some]
    · simp only [List.length_replicate, size]
      split at high <;> simp [*] <;> omega

/-- The slices of the vectors `z`, `rpar` and `ipar`. -/
theorem vectors_usable (consistent : Consistent cpr) (kf : Nat) (member : kf ∈ described cpr)
    (positive : 1 ≤ kf) (inside : kf ≤ cpr.nb) :
    (0 < size cpr.zptr kf → Usable cpr kf .z (size cpr.zptr kf).toNat) ∧
    (0 < size cpr.rpptr kf → Usable cpr kf .rpar (size cpr.rpptr kf).toNat) ∧
    (0 < size cpr.ipptr kf → Usable cpr kf .ipar (size cpr.ipptr kf).toNat) := by
  have length (ptr : Nat → Nat) :
      0 + (size ptr kf).toNat ≤ ((slice (ptr kf) (ptr (kf + 1))).map Entry.value).length := by
    rw [List.length_map, slice_length, Nat.zero_add]
  refine ⟨fun some => ?_, fun some => ?_, fun some => ?_⟩
  · have array := mem_vectorArrays .z cpr.zptr cpr.nZ kf consistent.discrete positive inside some
    refine usable_array consistent kf member .z (.z kf) 0 _ _ ?_
      ((mem_declarations _).mpr ?_) (length cpr.zptr) rfl
    · simp only [pointed, if_pos some]
    · simp only [array, true_or, or_true]
  · have array := mem_vectorArrays .rpar cpr.rpptr cpr.nRpar kf consistent.real positive inside some
    refine usable_array consistent kf member .rpar (.rpar kf) 0 _ _ ?_
      ((mem_declarations _).mpr ?_) (length cpr.rpptr) rfl
    · simp only [pointed, if_pos some]
    · simp only [array, true_or]
  · have array := mem_vectorArrays .ipar cpr.ipptr cpr.nIpar kf consistent.integer positive inside some
    refine usable_array consistent kf member .ipar (.ipar kf) 0 _ _ ?_
      ((mem_declarations _).mpr ?_) (length cpr.ipptr) rfl
    · simp only [pointed, if_pos some]
    · simp only [array, true_or, or_true]

/-- Object parameters and object states: sizes, types and a filled table. Both kinds are
declared and assigned alike, so they share this lemma. -/
theorem objects_usable (consistent : Consistent cpr) (kf : Nat) (member : kf ∈ described cpr)
    (positive : 1 ≤ kf) (inside : kf ≤ cpr.nb) (sz typ table : PointerField)
    (datum szArray typArray tableArray : Nat → ArrayName) (ptr : Nat → Nat) (matrix : Nat → Matrix)
    (some : 0 < size ptr kf)
    (declared : ∀ declaration ∈ objectArrays cpr datum szArray typArray tableArray ptr matrix,
      declaration ∈ declarations cpr)
    (szAt : pointed cpr kf sz = .some (szArray kf, 0)) (szPlain : sz.table = false)
    (typAt : pointed cpr kf typ = .some (typArray kf, 0)) (typPlain : typ.table = false)
    (tableAt : pointed cpr kf table = .some (tableArray kf, 0)) (known : tableArray kf ∈ tables cpr)
    (filled : tableWrites cpr (tableArray kf) =
      (List.range (size ptr kf).toNat).map fun k => (k, datum (ptr kf + k))) :
    Usable cpr kf table (size ptr kf).toNat ∧ Usable cpr kf sz (2 * (size ptr kf).toNat) ∧
      Usable cpr kf typ (size ptr kf).toNat := by
  have array := mem_objectArrays datum szArray typArray tableArray ptr matrix kf positive inside some
  refine ⟨?_, ?_, ?_⟩
  · refine usable_table consistent kf member table (tableArray kf) _
      ((slice (ptr kf) (ptr (kf + 1))).map fun _ => .zero) _ tableAt
      (declared _ (array _ (List.mem_append_right _ ?_))) ?_ known filled fun k bound => ?_
    · simp only [List.mem_cons, true_or, or_true]
    · rw [List.length_map, slice_length]
    · refine ⟨matrixEntries (matrix (ptr kf + k)), declared _ (array _ (List.mem_append_left _ ?_))⟩
      refine List.mem_map.mpr ⟨ptr kf + k, (mem_slice _ _ _).mpr ?_, rfl⟩
      simp only [size] at bound
      omega
  · refine usable_array consistent kf member sz (szArray kf) 0 _ _ szAt
      (declared _ (array _ (List.mem_append_right _ List.mem_cons_self))) ?_ szPlain
    rw [sizeEntries_length, List.length_map, slice_length]
    simp
  · refine usable_array consistent kf member typ (typArray kf) 0 _
      ((slice (ptr kf) (ptr (kf + 1))).map fun k => .typ (matrix k).typ) typAt
      (declared _ (array _ (List.mem_append_right _ ?_))) ?_ typPlain
    · simp only [List.mem_cons, true_or, or_true]
    · rw [List.length_map, slice_length, Nat.zero_add]

/-- The ports on one side: sizes and a filled table, whose entries are links that exist.
Inputs and outputs share this lemma; the ports of sensors and actuators are another matter. -/
theorem ports_usable (consistent : Consistent cpr) (kf : Nat) (member : kf ∈ described cpr)
    (sz table : PointerField) (szArray tableArray : Nat → ArrayName) (foreign : Nat → Bool)
    (ptr link : Nat → Nat) (own : foreign kf = false) (some : size ptr kf ≠ 0)
    (declared : ∀ declaration ∈ portArrays cpr szArray tableArray foreign ptr link,
      declaration ∈ declarations cpr)
    (szAt : pointed cpr kf sz = .some (szArray kf, 0)) (szPlain : sz.table = false)
    (tableAt : pointed cpr kf table = .some (tableArray kf, 0)) (known : tableArray kf ∈ tables cpr)
    (filled : tableWrites cpr (tableArray kf) =
      (List.range (size ptr kf).toNat).map fun k => (k, .outtb (link (ptr kf + k))))
    (links : ∀ port, ptr kf ≤ port → port < ptr (kf + 1) → 1 ≤ link port ∧ link port ≤ cpr.nlink) :
    Usable cpr kf table (size ptr kf).toNat ∧ Usable cpr kf sz (3 * (size ptr kf).toNat) := by
  have array := mem_portArrays szArray tableArray foreign ptr link kf (List.mem_filter.mp member).1
    own some
  constructor
  · refine usable_table consistent kf member table (tableArray kf) _ _ _ tableAt
      (declared _ array.2) ?_ known filled fun k bound => ?_
    · rw [List.length_map, slice_length]
    · refine ⟨matrixEntries (cpr.outtb (link (ptr kf + k))), (mem_declarations _).mpr ?_⟩
      have outtb : (ArrayName.outtb (link (ptr kf + k)), matrixEntries (cpr.outtb (link (ptr kf + k))))
          ∈ outtbArrays cpr := by
        refine List.mem_map.mpr ⟨link (ptr kf + k), (mem_slice _ _ _).mpr ?_, rfl⟩
        simp only [size] at bound
        have range := links (ptr kf + k) (by omega) (by omega)
        omega
      simp only [outtb, true_or, or_true]
  · refine usable_array consistent kf member sz (szArray kf) 0 _ _ szAt (declared _ array.1) ?_ szPlain
    rw [sizeEntries_length, List.length_map, slice_length]
    simp

/-- The output events. -/
theorem evout_usable (consistent : Consistent cpr) (kf : Nat) (member : kf ∈ described cpr)
    (some : size cpr.clkptr kf ≠ 0) : Usable cpr kf .evout (size cpr.clkptr kf).toNat := by
  obtain ⟨block, name⟩ := List.mem_filter.mp member
  have array : (ArrayName.evout kf, (cpr.outputEvents kf).map Entry.value) ∈ evoutArrays cpr := by
    rw [evoutArrays, List.mem_flatMap]
    refine ⟨kf, block, ?_⟩
    rw [if_pos ⟨of_decide_eq_true name, some⟩]
    exact List.mem_singleton_self _
  refine usable_array consistent kf member .evout (.evout kf) 0 _
    ((cpr.outputEvents kf).map Entry.value) ?_ ((mem_declarations _).mpr ?_) ?_ rfl
  · simp only [pointed, if_pos some]
  · simp only [array, or_true]
  · rw [List.length_map, outputEvents, slice_length, Nat.zero_add]

/-- Every promise but those of `ng` and `nmode` is kept. Each kind of pointer is traced
through the loop that assigns it to the array it points into. -/
theorem promises_kept (consistent : Consistent cpr) (kf : Nat) (member : kf ∈ described cpr)
    (positive : 1 ≤ kf) (inside : kf ≤ cpr.nb) (number : NumberField) (surfaces : number ≠ .ng)
    (modes : number ≠ .nmode) (count : Int) (counts : sliceSize cpr kf number = some count)
    (some : count ≠ 0) (pointer : PointerField × Nat) (promise : pointer ∈ promised number) :
    Usable cpr kf pointer.1 (pointer.2 * count.toNat) := by
  obtain ⟨objectStates, objectParameters, ins, outs, -⟩ := consistent.ordered kf
  obtain ⟨-, discrete, -⟩ := consistent.discrete kf positive inside
  obtain ⟨-, real, -⟩ := consistent.real kf positive inside
  obtain ⟨-, integer, -⟩ := consistent.integer kf positive inside
  obtain ⟨inTable, outTable, oparTable, ozTable⟩ := mem_tables kf (List.mem_filter.mp member).1
  obtain ⟨noSensor, noActuator⟩ := consistent.own kf
  cases number with
  | type | ztyp => cases counts
  | ng => exact absurd rfl surfaces
  | nmode => exact absurd rfl modes
  | nz =>
    obtain rfl := Option.some.inj counts
    have usable := (vectors_usable consistent kf member positive inside).1
      (by simp only [size] at some ⊢; omega)
    simpa [promised, List.mem_singleton.mp promise] using usable
  | nrpar =>
    obtain rfl := Option.some.inj counts
    have usable := (vectors_usable consistent kf member positive inside).2.1
      (by simp only [size] at some ⊢; omega)
    simpa [promised, List.mem_singleton.mp promise] using usable
  | nipar =>
    obtain rfl := Option.some.inj counts
    have usable := (vectors_usable consistent kf member positive inside).2.2
      (by simp only [size] at some ⊢; omega)
    simpa [promised, List.mem_singleton.mp promise] using usable
  | nevout =>
    obtain rfl := Option.some.inj counts
    have usable := evout_usable consistent kf member some
    simpa [promised, List.mem_singleton.mp promise] using usable
  | nx =>
    obtain rfl := Option.some.inj counts
    have usable := states_usable consistent kf member positive inside some
    simp only [promised, List.mem_cons, List.not_mem_nil, or_false] at promise
    rcases promise with rfl | rfl
    · simpa using usable.1
    · simpa using usable.2
  | nopar =>
    obtain rfl := Option.some.inj counts
    have present : 0 < size cpr.opptr kf := by simp only [size] at some ⊢; omega
    have usable := objects_usable consistent kf member positive inside .oparsz .opartyp .oparptr
      .opar .oparsz .opartyp .oparptr cpr.opptr cpr.opar present
      (fun _ one => (mem_declarations _).mpr (by simp only [one, true_or, or_true]))
      (by simp only [pointed, if_pos present]) rfl (by simp only [pointed, if_pos present]) rfl
      (by simp only [pointed, if_pos present]) oparTable rfl
    simp only [promised, List.mem_cons, List.not_mem_nil, or_false] at promise
    rcases promise with rfl | rfl | rfl
    · simpa using usable.1
    · exact usable.2.1
    · simpa using usable.2.2
  | noz =>
    obtain rfl := Option.some.inj counts
    have present : 0 < size cpr.ozptr kf := by simp only [size] at some ⊢; omega
    have usable := objects_usable consistent kf member positive inside .ozsz .oztyp .ozptr
      .oz .ozsz .oztyp .ozptr cpr.ozptr cpr.oz present
      (fun _ one => (mem_declarations _).mpr (by simp only [one, true_or, or_true]))
      (by simp only [pointed, if_pos present]) rfl (by simp only [pointed, if_pos present]) rfl
      (by simp only [pointed, if_pos present]) ozTable rfl
    simp only [promised, List.mem_cons, List.not_mem_nil, or_false] at promise
    rcases promise with rfl | rfl | rfl
    · simpa using usable.1
    · exact usable.2.1
    · simpa using usable.2.2
  | nin =>
    obtain rfl := Option.some.inj counts
    have usable := ports_usable consistent kf member .insz .inptr .insz .inptr (isSensor cpr)
      cpr.inpptr cpr.inplnk noSensor some
      (fun _ one => (mem_declarations _).mpr (by simp only [one, true_or, or_true]))
      (by simp only [pointed, if_pos some]) rfl (by simp only [pointed, if_pos some]) inTable
      (by simp only [tableWrites, noSensor, Bool.false_eq_true, if_false])
      (consistent.inputs kf positive inside)
    simp only [promised, List.mem_cons, List.not_mem_nil, or_false] at promise
    rcases promise with rfl | rfl
    · simpa using usable.1
    · exact usable.2
  | nout =>
    obtain rfl := Option.some.inj counts
    have usable := ports_usable consistent kf member .outsz .outptr .outsz .outptr (isActuator cpr)
      cpr.outptr cpr.outlnk noActuator some
      (fun _ one => (mem_declarations _).mpr (by simp only [one, true_or, or_true]))
      (by simp only [pointed, if_pos some]) rfl (by simp only [pointed, if_pos some]) outTable
      (by simp only [tableWrites, noActuator, Bool.false_eq_true, if_false])
      (consistent.outputs kf positive inside)
    simp only [promised, List.mem_cons, List.not_mem_nil, or_false] at promise
    rcases promise with rfl | rfl
    · simpa using usable.1
    · exact usable.2

/-- A field that no loop assigns is not usable, for nothing else in the program writes
to a descriptor. -/
theorem unassigned_unusable (consistent : Consistent cpr) (kf : Nat) (member : kf ∈ described cpr)
    (field : PointerField) (entries : Nat) (never : pointed cpr kf field = none) :
    ¬ Usable cpr kf field entries := by
  rintro ⟨array, offset, assigned, -⟩
  rw [pointer_assigned consistent kf member, never] at assigned
  cases assigned

/-- The descriptor of a block that is no clock is complete exactly if the block has no
zero-crossing surfaces and no modes: their numbers are assigned, but neither `g` nor `mode`
is ever given an array. Diagrams with sensors or actuators are left out. Every other
pointer is traced to its declaration, whose length the compiler's pointer vectors bound. -/
theorem complete_iff (cpr : Compiled) (consistent : Consistent cpr) (kf : Nat) (positive : 1 ≤ kf)
    (inside : kf ≤ cpr.nb) (ordinary : cpr.funs kf ≠ "bidon") :
    Complete cpr kf ↔ size cpr.zcptr kf = 0 ∧ size cpr.modptr kf = 0 := by
  have member : kf ∈ described cpr :=
    List.mem_filter.mpr ⟨mem_blocks kf positive inside ordinary, decide_eq_true ordinary⟩
  constructor
  · intro complete
    constructor
    · apply Decidable.byContradiction
      intro some
      exact unassigned_unusable consistent kf member .g _ rfl
        ((complete .ng _ rfl).2 some (.g, 1) List.mem_cons_self)
    · apply Decidable.byContradiction
      intro some
      exact unassigned_unusable consistent kf member .mode _ rfl
        ((complete .nmode _ rfl).2 some (.mode, 1) List.mem_cons_self)
  · rintro ⟨surfaces, modes⟩ number count counts
    refine ⟨number_assigned kf member number count counts, fun some pointer promise => ?_⟩
    refine promises_kept consistent kf member positive inside number ?_ ?_ count counts some pointer
      promise
    · rintro rfl
      exact some ((Option.some.inj counts).symm.trans surfaces)
    · rintro rfl
      exact some ((Option.some.inj counts).symm.trans modes)

/-- The vectors of the sample fit together. -/
theorem sample_consistent (modes : Nat) : Consistent (sample modes) where
  states kf positive inside := by
    simp only [sample, Bool.false_eq_true, if_false] at inside ⊢
    refine ⟨?_, ?_, ?_⟩ <;> split_ifs <;> omega
  discrete kf positive inside := by simp [sample]
  real kf positive inside := by simp [sample]
  integer kf positive inside := by simp [sample]
  ordered kf := by
    simp only [sample]
    split_ifs <;> omega
  inputs kf positive inside port low high := by simp [sample]
  outputs kf positive inside port low high := by
    simp only [sample] at inside low high ⊢
    split_ifs at low high <;> omega
  sensors := rfl
  actuators := rfl

/-- An instance: the descriptor of the integrator in the sample is complete. -/
theorem integrator_complete : Complete (sample 0) 3 :=
  (complete_iff (sample 0) (sample_consistent 0) 3 (by decide) (by decide) (by decide)).mpr ⟨rfl, rfl⟩

/-- The if-then-else block of the sample has one mode, but its field `mode`, which
the derivative code reads, is never assigned. -/
theorem mode_unassigned : Consistent (sample 1) ∧ (sample 1).funs 2 ≠ "bidon" ∧
    size (sample 1).modptr 2 = 1 ∧ readBack (pointerAssignments (sample 1)) (2, .mode) = none ∧
    ¬ Complete (sample 1) 2 := by
  have member : 2 ∈ described (sample 1) := by decide
  have never : ∀ entries, ¬ Usable (sample 1) 2 .mode entries := fun entries =>
    unassigned_unusable (sample_consistent 1) 2 member .mode entries rfl
  refine ⟨sample_consistent 1, by decide, rfl, ?_, fun complete => ?_⟩
  · rw [pointer_assigned (sample_consistent 1) 2 member]
    rfl
  · exact never _ ((complete .nmode 1 rfl).2 (by decide) (.mode, 1) List.mem_cons_self)

end Main

end ScicosFlex.Codegen
