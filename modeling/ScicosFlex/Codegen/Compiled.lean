/-!
# Compiled diagrams

The result `cpr` of the Scicos compiler as the code generator of
`FlexCodeGen_.sci` sees it. Blocks, ports, links and events are numbered from 1,
and the vectors are total functions on numbers: a pointer vector `ptr` gives the
slice `ptr(bk)..ptr(bk+1)-1` of block `bk`. Only the parts that the generated
code depends on are kept; matrices stand for their sizes and types.
-/

namespace ScicosFlex.Codegen

/-- The C types of matrices, as `mat2scs_c_typ` tells them apart. -/
inductive CType where
  | real | complex | int32 | int16 | int8 | uint32 | uint16 | uint8
deriving DecidableEq, Repr

/-- What the generator uses of a matrix: its sizes and its type. -/
structure Matrix where
  rows : Nat
  cols : Nat
  typ : CType
deriving DecidableEq, Repr

/-- A block number with the event port it is activated through. -/
abbrev Activation := Nat × Int

/-- The fields of `cpr.sim` and `cpr.state`, with the variables derived from them
that the generating functions share: `with_work`, `impl_blk`, the sensor and
actuator tables, and the block `howclk` that stands for the external clock. `nX`,
`nRpar`, `nIpar` and `nZ` are the sizes of the vectors `x`, `rpar`, `ipar` and `z`. -/
structure Compiled where
  nb : Nat
  funs : Nat → String
  funtyp : Nat → Int
  ztyp : Nat → Bool
  xptr : Nat → Nat
  zptr : Nat → Nat
  ozptr : Nat → Nat
  zcptr : Nat → Nat
  modptr : Nat → Nat
  rpptr : Nat → Nat
  ipptr : Nat → Nat
  opptr : Nat → Nat
  inpptr : Nat → Nat
  inplnk : Nat → Nat
  outptr : Nat → Nat
  outlnk : Nat → Nat
  nlink : Nat
  outtb : Nat → Matrix
  opar : Nat → Matrix
  oz : Nat → Matrix
  clkptr : Nat → Nat
  ordptr : Nat → Nat
  ordclk : Nat → Activation
  nevent : Nat
  cord : List Activation
  iord : List Activation
  oord : List Activation
  withWork : Nat → Nat
  act : List Nat
  cap : List Nat
  actt : List (Nat × Nat)
  capt : List (Nat × Nat)
  implBlk : Bool
  howclk : Nat
  nX : Nat
  nRpar : Nat
  nIpar : Nat
  nZ : Nat

namespace Compiled

variable (cpr : Compiled)

/-- `ptr(bk+1)-ptr(bk)`. -/
def size (ptr : Nat → Nat) (bk : Nat) : Int := (ptr (bk + 1) : Int) - ptr bk

/-- The numbers `lo..hi-1`, empty if `hi` is not above `lo`. -/
def slice (lo hi : Nat) : List Nat := List.range' lo (hi - lo)

/-- The activations of an event: `ordclk(ordptr(ev)..ordptr(ev+1)-1)`. -/
def activations (ev : Nat) : List Activation :=
  (slice (cpr.ordptr ev) (cpr.ordptr (ev + 1))).map cpr.ordclk

/-- The output events of a block: `clkptr(bk)..clkptr(bk+1)-1`. -/
def outputEvents (bk : Nat) : List Nat := slice (cpr.clkptr bk) (cpr.clkptr (bk + 1))

/-- `funtyp(bk)>-1`: the block has a computational function. -/
def Ordinary (bk : Nat) : Prop := -1 < cpr.funtyp bk

instance (bk : Nat) : Decidable (cpr.Ordinary bk) := inferInstanceAs (Decidable (_ < _))

/-- The link on the first input port, which a synchronisation block tests. -/
def testedLink (bk : Nat) : Nat := cpr.inplnk (cpr.inpptr bk)

/-- The link an output port drives. -/
def drivenLink (bk port : Nat) : Nat := cpr.outlnk (cpr.outptr bk + port - 1)

end Compiled

end ScicosFlex.Codegen
