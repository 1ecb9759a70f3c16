import Mathlib.Data.List.Intervals
import ScicosFlex.Library.CStrings

/-!
# `confparser_mux`

The program reads variables with their values from its arguments and prints all choices of
values. It cuts the arguments in place: the names and values are pointers into them.

An access outside of an array is undefined: `Failure.outside` while the arguments are read,
`none` behind it. Two scanners cut an argument; what they do on the way is told by the values
cut so far, the one that is being read, and the rest (`scanned`).
-/

namespace ScicosFlex.Confparser.Mux

open Library.CStrings

/-- `MAX_VARS`. -/
def maxVars : Nat := 100

/-- `MAX_CONF`. -/
def maxConf : Nat := 10

/-- `MAX_STRING`. -/
def maxString : Nat := 200

/-- `isalnum`. -/
def isalnum (char : Char) : Bool := char.isAlphanum

/-- What ends the reading of the arguments early: `goto error`, or an access outside. -/
inductive Failure where
  | error
  | outside
  deriving DecidableEq

/-- A pointer into an argument. -/
structure Pointer where
  argument : Nat
  offset : Nat
  deriving DecidableEq

/-- `variable_t`; `nconf` is the length of `conf`. -/
structure Variable where
  name : Pointer
  conf : List Pointer

/-- The arguments, and the `variables`, whose number is `nvariables`. -/
structure State where
  argv : List (List Char)
  vars : List Variable

/-- `argv[i][j]`, for the string `argv[i]`. -/
def charAt (text : List Char) (j : Nat) : Except Failure Char :=
  match text[j]? with
  | some char => .ok char
  | none => .error .outside

/-- The variables of the first scanner. -/
structure NameScan where
  text : List Char
  j : Nat
  ok : Bool

/-- The body of the loop that searches for `=`. -/
def namePass (scan : NameScan) : Except Failure NameScan := do
  let char ← charAt scan.text scan.j
  if isalnum char then .ok { scan with j := scan.j + 1 }
  else if char = '=' then
    .ok { text := scan.text.set scan.j nul, j := scan.j + 1, ok := true }
  else .error .error

/-- The body goes on by one character, inside of the text. -/
theorem namePass_advances (scan next : NameScan) (passed : namePass scan = .ok next) :
    scan.j < scan.text.length ∧ next.j = scan.j + 1 ∧
      next.text.length = scan.text.length := by
  cases known : scan.text[scan.j]? with
  | none => simp [namePass, charAt, known, bind, Except.bind] at passed
  | some char =>
    have inside := (List.getElem?_eq_some_iff.mp known).1
    simp only [namePass, charAt, known, bind, Except.bind] at passed
    split at passed
    · cases passed
      exact ⟨inside, rfl, rfl⟩
    · split at passed
      · cases passed
        exact ⟨inside, rfl, List.length_set⟩
      · cases passed

/-- `do ... while (argv[i][j] && !ok)`. -/
def searchEquals (scan : NameScan) : Except Failure NameScan :=
  match _passed : namePass scan with
  | .error failure => .error failure
  | .ok next =>
    match charAt next.text next.j with
    | .error failure => .error failure
    | .ok char => if char ≠ nul ∧ next.ok = false then searchEquals next else .ok next
termination_by scan.text.length - scan.j
decreasing_by
  obtain ⟨inside, further, length⟩ := namePass_advances scan next _passed
  omega

/-- The variables of the second scanner; `conf` are the values read so far. -/
structure ValueScan where
  text : List Char
  j : Nat
  c : Nat
  cCount : Nat
  conf : List Pointer

/-- `conf[nconf] = c; nconf++`. -/
def push (conf : List Pointer) (c : Pointer) : Except Failure (List Pointer) :=
  if conf.length < maxConf then .ok (conf ++ [c]) else .error .outside

/-- The body of the loop that searches for `,` in the argument `i`. -/
def valuePass (i : Nat) (scan : ValueScan) : Except Failure ValueScan := do
  let char ← charAt scan.text scan.j
  if isalnum char then .ok { scan with j := scan.j + 1, cCount := scan.cCount + 1 }
  else if char = ',' then
    let conf ← push scan.conf ⟨i, scan.c⟩
    .ok {
      text := scan.text.set scan.j nul
      j := scan.j + 1
      c := scan.j + 1
      cCount := 0
      conf := conf }
  else .error .error

/-- The body goes on by one character, inside of the text. -/
theorem valuePass_advances (i : Nat) (scan next : ValueScan)
    (passed : valuePass i scan = .ok next) :
    scan.j < scan.text.length ∧ next.j = scan.j + 1 ∧
      next.text.length = scan.text.length := by
  cases known : scan.text[scan.j]? with
  | none => simp [valuePass, charAt, known, bind, Except.bind] at passed
  | some char =>
    have inside := (List.getElem?_eq_some_iff.mp known).1
    simp only [valuePass, charAt, known, bind, Except.bind, push] at passed
    split at passed
    · cases passed
      exact ⟨inside, rfl, rfl⟩
    · split at passed
      · split at passed
        · cases passed
        · cases passed
          exact ⟨inside, rfl, List.length_set⟩
      · cases passed

/-- `do ... while (argv[i][j])`. -/
def searchCommas (i : Nat) (scan : ValueScan) : Except Failure ValueScan :=
  match _passed : valuePass i scan with
  | .error failure => .error failure
  | .ok next =>
    match charAt next.text next.j with
    | .error failure => .error failure
    | .ok char => if char ≠ nul then searchCommas i next else .ok next
termination_by scan.text.length - scan.j
decreasing_by
  obtain ⟨inside, further, length⟩ := valuePass_advances i scan next _passed
  omega

/-- What is done with the argument `i`: the cut text, and its variable. -/
def parseArgument (i : Nat) (text : List Char) : Except Failure (List Char × Variable) := do
  let named ← searchEquals { text := text, j := 0, ok := false }
  let char ← charAt named.text named.j
  if char = nul then .error .error
  else if named.ok = false then .error .error
  else
    let scan ← searchCommas i
      { text := named.text, j := named.j, c := named.j, cCount := 0, conf := [] }
    if scan.cCount ≠ 0 then
      let conf ← push scan.conf ⟨i, scan.c⟩
      .ok (scan.text, ⟨⟨i, 0⟩, conf⟩)
    else .error .error

/-- A pass of the loop over the arguments; `variables[nvariables]` is written first. -/
def parseStep (state : State) (i : Nat) : Except Failure State :=
  match state.argv[i]? with
  | none => .error .outside
  | some text =>
    if state.vars.length < maxVars then do
      let (cut, var) ← parseArgument i text
      .ok { argv := state.argv.set i cut, vars := state.vars ++ [var] }
    else .error .outside

/-- `parse_commandline`. After an error there are no variables, and nothing reads the
arguments, of which some are cut. -/
def parseCommandline (argv : List (List Char)) : Option State :=
  match (List.range' 1 (argv.length - 1)).foldlM parseStep { argv := argv, vars := [] } with
  | .ok state => some state
  | .error .error => some { argv := argv, vars := [] }
  | .error .outside => none

/-- The string at a pointer. -/
def string (argv : List (List Char)) (pointer : Pointer) : Option (List Char) := do
  let text ← argv[pointer.argument]?
  stringAt text pointer.offset

/-- `print_permutations_recursive`, with the printed lines as its result. -/
def printPermutationsRecursive (state : State) (n e : Nat) (s : List Char) :
    Option (List (List Char)) := do
  let var ← state.vars[n]?
  let printed ← var.conf.mapM fun pointer => do
    let mystring ← strcpy maxString s
    let name ← string state.argv var.name
    let mystring ← strcat maxString mystring name
    let mystring ← strcat maxString mystring ['_']
    let value ← string state.argv pointer
    let mystring ← strcat maxString mystring value
    if _later : n + 1 < e then
      let mystring ← strcat maxString mystring ['_']
      printPermutationsRecursive state (n + 1) e mystring
    else some [mystring]
  some printed.flatten
termination_by e - n

/-- `print_permutations`. -/
def printPermutations (state : State) : Option (List (List Char)) :=
  printPermutationsRecursive state 0 state.vars.length []

/-- What the program does: it prints the lines, or how to use it. -/
inductive Output where
  | lines (printed : List (List Char))
  | usage
  deriving DecidableEq

/-- `main` of `confparser_mux`. -/
def main (argv : List (List Char)) : Option Output := do
  let state ← parseCommandline argv
  if state.vars.length ≠ 0 then
    let printed ← printPermutations state
    some (.lines printed)
  else some .usage

end ScicosFlex.Confparser.Mux
