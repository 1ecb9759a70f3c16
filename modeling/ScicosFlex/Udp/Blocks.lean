import ScicosFlex.Library.Loops
import ScicosFlex.Library.Sessions

/-!
# The UDP blocks of the PC

`udp_sender` and `udp_receiver`, the Scicos blocks that exchange a vector of channels
with the board. The dialogs of both accept one to `MAX_CHANNELS` lines and give the
block that many scalar ports.

Both functions keep the line count in function-local statics, which all blocks of a kind
share. The two conversions between `double` and `float` are parameters; what the sockets
return is part of an update's environment. The debug output is left out.
-/

namespace ScicosFlex.Udp

open Library.Loops Library.Sessions

universe u v
variable {D : Type u} {F : Type v}

/-- `MAX_CHANNELS`. -/
def maxChannels : Nat := 15

/-- The size of the vector `tmp` in bytes. -/
def vectorSize : Int := maxChannels * 4

/-- A line count that the dialogs accept. -/
abbrev Lines := { lines : Nat // 1 ≤ lines ∧ lines ≤ maxChannels }

inductive Kind where
  | sender
  | receiver
deriving DecidableEq

/-- The blocks of each kind have numbers. -/
abbrev Block := Kind × Nat

/-- The flag and the line count that the blocks of a kind share. -/
structure Statics where
  isInitialized : Bool
  lines : Nat
deriving DecidableEq

/-- What an update finds: the values at the addresses of the input ports, what the
vector `tmp` holds on the stack, the results of `sendto` and `recvfrom`, and what
`recvfrom` leaves in the cleared vector. -/
structure Environment (D : Type u) (F : Type v) where
  u : Nat → D
  stack : Nat → F
  sendto : Int
  recvfrom : Int
  received : Nat → F

/-- The flags of a call, with what the call reads from its block. -/
inductive Flag (D : Type u) (F : Type v) where
  | init (lines : Nat)
  | outputUpdate (environment : Environment D F)
  | finish

/-- What a call does outside: the ports it reads and writes, and the datagram that is sent. -/
structure Reply (F : Type v) where
  reads : List Nat
  writes : List Nat
  datagram : Option (List F)

/-- Nothing done outside. -/
def quiet : Reply F := { reads := [], writes := [], datagram := none }

/-- `SCICOS_BLOCK_INIT` of both functions: only the first block sets the line count. -/
def Statics.init (statics : Statics) (lines : Nat) : Statics :=
  if statics.isInitialized = false then { isInitialized := true, lines := lines } else statics

/-- `SCICOS_BLOCK_END` of both functions: the first block clears the line count. -/
def Statics.finish (statics : Statics) : Statics :=
  if statics.isInitialized then { isInitialized := false, lines := 0 } else statics

section Sender

variable [Zero F] (narrow : D → F)

/-- `udp_sender`. -/
def udpSender (statics : Statics) : Flag D F → Statics × Reply F
  | .init lines => (statics.init lines, quiet)
  | .outputUpdate environment =>
    let tmp := assignLoop (List.range maxChannels) (fun _ _ => 0) environment.stack
    let tmp := assignLoop (List.range statics.lines) (fun i _ => narrow (environment.u i)) tmp
    (statics,
      { reads := List.range statics.lines
        writes := []
        datagram :=
          if environment.sendto < 0 then none else some ((List.range maxChannels).map tmp) })
  | .finish => (statics.finish, quiet)

/-- The vector that a sender sends. -/
theorem sender_datagram (statics : Statics) (environment : Environment D F)
    (sent : 0 ≤ environment.sendto) :
    (udpSender narrow statics (.outputUpdate environment)).2.datagram =
      some ((List.range maxChannels).map fun i =>
        if i < statics.lines then narrow (environment.u i) else 0) := by
  simp only [udpSender, if_neg (Int.not_lt.mpr sent), Option.some.injEq]
  apply List.map_congr_left
  intro i inside
  rw [assignLoop_range]
  split
  · rfl
  · rw [assignLoop_range, if_pos (List.mem_range.mp inside)]

end Sender

section Receiver

variable [Zero D] (widen : F → D)

/-- `udp_receiver`, with the values `y` at the addresses of the block's output ports. -/
def udpReceiver (statics : Statics) (y : Nat → D) : Flag D F → Statics × (Nat → D) × Reply F
  | .init lines =>
    let cleared := assignLoop (List.range lines) (fun _ _ => 0) y
    (statics.init lines, if statics.isInitialized = false then cleared else y, quiet)
  | .outputUpdate environment =>
    if environment.recvfrom < 0 then (statics, y, quiet)
    else
      (statics,
        assignLoop (List.range statics.lines) (fun i _ => widen (environment.received i)) y,
        { reads := [], writes := List.range statics.lines, datagram := none })
  | .finish => (statics.finish, y, quiet)

/-- What a receiver leaves at its ports. -/
theorem receiver_outputs (statics : Statics) (y : Nat → D) (environment : Environment D F)
    (arrived : 0 ≤ environment.recvfrom) (i : Nat) :
    (udpReceiver widen statics y (.outputUpdate environment)).2.1 i =
      if i < statics.lines then widen (environment.received i) else y i := by
  simp only [udpReceiver, if_neg (Int.not_lt.mpr arrived)]
  exact assignLoop_range _ _ _ _

end Receiver

section Calls

variable [Zero D] [Zero F] (narrow : D → F) (widen : F → D)

/-- A call of a session. -/
abbrev Call (D : Type u) (F : Type v) := Action Block Lines (Environment D F)

/-- The block that is called. -/
def blockOf : Call D F → Block
  | .init block _ => block
  | .call block _ => block
  | .ending block => block

/-- The flag it is called with. -/
def flagOf : Call D F → Flag D F
  | .init _ lines => .init lines
  | .call _ environment => .outputUpdate environment
  | .ending _ => .finish

/-- The statics of both functions, and the output ports of all receivers. -/
structure Globals (D : Type u) where
  sender : Statics
  receiver : Statics
  y : Nat → Nat → D

/-- The statics of a kind. -/
def Globals.statics (globals : Globals D) : Kind → Statics
  | .sender => globals.sender
  | .receiver => globals.receiver

/-- One call. -/
def perform (globals : Globals D) (call : Call D F) : Globals D × Reply F :=
  match blockOf call with
  | (.sender, _) =>
    let (statics, reply) := udpSender narrow globals.sender (flagOf call)
    ({ globals with sender := statics }, reply)
  | (.receiver, number) =>
    let (statics, y, reply) := udpReceiver widen globals.receiver (globals.y number) (flagOf call)
    ({ globals with receiver := statics, y := Function.update globals.y number y }, reply)

/-- What a call leaves. -/
def step (globals : Globals D) (call : Call D F) : Globals D :=
  (perform narrow widen globals call).1

/-- What a call does outside. -/
def reply (globals : Globals D) (call : Call D F) : Reply F :=
  (perform narrow widen globals call).2

/-- Before the first session both flags are clear. -/
def boot (y : Nat → Nat → D) : Globals D :=
  { sender := { isInitialized := false, lines := 0 }
    receiver := { isInitialized := false, lines := 0 }
    y := y }

/-- What a call leaves in the statics of its own kind. -/
def Statics.advance (statics : Statics) : Flag D F → Statics
  | .init lines => statics.init lines
  | .outputUpdate _ => statics
  | .finish => statics.finish

/-- A call only touches the statics of its own kind. -/
theorem statics_step (globals : Globals D) (call : Call D F) (kind : Kind) :
    (step narrow widen globals call).statics kind =
      if (blockOf call).1 = kind then (globals.statics kind).advance (flagOf call)
      else globals.statics kind := by
  obtain ⟨⟨own, number⟩, called⟩ : ∃ block, blockOf call = block := ⟨_, rfl⟩
  simp only [step, perform, called]
  cases own with
  | sender =>
    cases kind with
    | sender => cases flagOf call <;> rfl
    | receiver => rfl
  | receiver =>
    cases kind with
    | sender => rfl
    | receiver =>
      cases flagOf call with
      | init lines => rfl
      | outputUpdate environment =>
        simp only [Globals.statics, udpReceiver, if_true, Statics.advance]
        split <;> rfl
      | finish => rfl

end Calls

end ScicosFlex.Udp
