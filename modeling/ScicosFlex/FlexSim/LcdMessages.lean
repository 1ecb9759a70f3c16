import ScicosFlex.Library.Layout
import ScicosFlex.Library.Loops

/-!
# The messages for the LEDs, the displays and the buzzer

`do_leds_update`, `do_lcds_update`, `do_ledslcd_update` and `do_ledslcdbuzzer_update` of
`flex_blocks.c`. An update makes a message of the input ports of the block and writes it to
the channel of the engine. A display shows a real number or a text of at most 16 characters.

The number of characters is stored in a byte before it is compared with 16. The updates are
faithful unless a longer text passes for a short one in this way (`updates_faithful_iff`).

Ports hold bytes; a real number is eight of them. The local variable of the message is not
initialized, so that what it holds before is an argument. Reading behind a port and writing
behind `data` are undefined.
-/

namespace ScicosFlex.FlexSim.LcdMessages

open Library.Layout Library.Loops

/-- `SCSREAL_N`, `SCSINT8_N` and `SCSUINT8_N`. -/
def scsrealN : Int := 10
def scsint8N : Int := 81
def scsuint8N : Int := 811

/-- How many bytes an element has, by the type of its port. -/
def sizeOfIn (type : Int) : Nat :=
  if type = 10 then 8
  else if type = 11 then 16
  else if type = 81 ∨ type = 811 then 1
  else if type = 82 ∨ type = 812 then 2
  else if type = 84 ∨ type = 814 then 4
  else 0

/-- A regular input port, with memory for all its elements. -/
structure InPort where
  type : Int
  rows : Int
  cols : Int
  memory : List UInt8
  positive : 1 ≤ rows ∧ 1 ≤ cols
  short : rows * cols < 2147483648
  stored : (memory.length : Int) = rows * cols * sizeOfIn type

/-- The port with the number `x`, if the block has it. -/
def inPort (ports : List InPort) (x : Nat) : Option InPort :=
  if 0 < x then ports[x - 1]? else none

/-- `GetInType`. -/
def getInType (ports : List InPort) (x : Nat) : Int :=
  match inPort ports x with
  | some port => port.type
  | none => 0

/-- `GetInPortSize(block, x, 1) * GetInPortSize(block, x, 2)`. -/
def getInPortSizes (ports : List InPort) (x : Nat) : Int :=
  match inPort ports x with
  | some port => port.rows * port.cols
  | none => 0

/-- What `GetInPortPtrs` points to. -/
def getInPortPtrs (ports : List InPort) (x : Nat) : Option (List UInt8) :=
  (inPort ports x).map InPort.memory

/-- `*GetRealInPortPtrs`. -/
def readReal (ports : List InPort) (x : Nat) : Option (List UInt8) :=
  (getInPortPtrs ports x).bind fun memory =>
    if 8 ≤ memory.length then some (memory.take 8) else none

/-- `LEDS_SIZE`, `LCD_MAX_SIZE` and the numbers of the ports. -/
def ledsSize : Nat := 8
def lcdMaxSize : Nat := 16
def lcdInport1 : Nat := 9
def lcdInport2 : Nat := 10
def buzzerInport : Nat := 11

/-- `MSG_REAL_TYPE` and `MSG_UINT8_TYPE`. -/
def msgRealType : UInt8 := 0
def msgUint8Type : UInt8 := 1

/-- `LEDSLCD_CMD` and `LEDSLCDBUZZER_CMD`. -/
def ledslcdCmd : UInt8 := 1
def ledslcdbuzzerCmd : UInt8 := 2

/-- `lcd_data`. -/
structure LcdData where
  type : UInt8
  size : UInt8
  data : List UInt8
  value : List UInt8
  sized : data.length = lcdMaxSize

/-- `ledslcd_msg`. -/
structure LedslcdMsg where
  cmd : UInt8
  leds : Fin ledsSize → UInt8
  lcd1 : LcdData
  lcd2 : LcdData

/-- `ledslcdbuzzer_msg`. -/
structure LedslcdbuzzerMsg where
  cmd : UInt8
  leds : Fin ledsSize → UInt8
  lcd1 : LcdData
  lcd2 : LcdData
  buzzer : List UInt8

/-- The errors, with the values that go into their texts. -/
inductive Coserror where
  | badSize (lcd : Nat) (size : UInt8)
  | badType (lcd : Nat) (type : Int)
  | writeFailed (name : String) (errorCode : Int)

/-- The texts of the errors. -/
def Coserror.text : Coserror → String
  | .badSize lcd size => "Bad port size for LCD" ++ toString lcd ++ ": " ++ toString size.toNat ++
      " (greater then " ++ toString lcdMaxSize ++ ")."
  | .badType lcd type => "Bad port type for LCD" ++ toString lcd ++ ": " ++ toString type ++ "."
  | .writeFailed name errorCode =>
      "Write to channel failed for " ++ name ++ ": " ++ toString errorCode ++ "."

/-- `do_leds_update`. -/
def doLedsUpdate (ports : List InPort) (leds : Fin ledsSize → UInt8) : Fin ledsSize → UInt8 :=
  assignLoop (List.finRange ledsSize) (fun i old =>
    match getInPortPtrs ports (i + 1) with
    | some (first :: _) => first
    | _ => old) leds

/-- `memcpy(lcd->data, source, size)`. -/
def copyData (lcd : LcdData) (source : List UInt8) (size : Nat) : Option LcdData :=
  if room : 0 + (source.take size).length ≤ lcd.data.length ∧ size ≤ source.length then
    some
      { lcd with
        data := store lcd.data 0 (source.take size)
        sized := (store_length _ _ _ room.1).trans lcd.sized }
  else none

/-- The part of `do_lcds_update` for the display with this number, with the number of
its port. -/
def lcdUpdate (ports : List InPort) (number x : Nat) (lcd : LcdData) :
    Option (Except Coserror LcdData) :=
  if getInType ports x = scsrealN then
    (readReal ports x).map fun value =>
      .ok { lcd with type := msgRealType, size := 8, value := value }
  else if getInType ports x = scsuint8N then
    -- The product of the dimensions is cut to a byte here.
    let lcd := { lcd with type := msgUint8Type, size := UInt8.ofInt (getInPortSizes ports x * 1) }
    if lcdMaxSize < lcd.size.toNat then some (.error (.badSize number lcd.size))
    else
      (getInPortPtrs ports x).bind fun source =>
        (copyData lcd source lcd.size.toNat).map .ok
  else some (.error (.badType number (getInType ports x)))

/-- `do_lcds_update`. -/
def doLcdsUpdate (ports : List InPort) (lcd1 lcd2 : LcdData) :
    Option (Except Coserror (LcdData × LcdData)) :=
  match lcdUpdate ports 1 lcdInport1 lcd1 with
  | none => none
  | some (.error error) => some (.error error)
  | some (.ok lcd1) =>
    match lcdUpdate ports 2 lcdInport2 lcd2 with
    | none => none
    | some (.error error) => some (.error error)
    | some (.ok lcd2) => some (.ok (lcd1, lcd2))

/-- What an update writes, the error it reports and `engine_exists`. -/
structure Update (Msg : Type) where
  written : List Msg
  coserror : Option Coserror
  engineExists : Bool

/-- What `write_to_channel` returns, and `last_error_code_` behind it. -/
structure WriteAnswer where
  ret : Int
  lastErrorCode : Int

/-- The end of both updates. -/
def writeMsg {Msg : Type} (msg : Msg) (name : String) (answer : WriteAnswer)
    (engineExists : Bool) : Update Msg :=
  if answer.ret < 0 then ⟨[], some (.writeFailed name answer.lastErrorCode), false⟩
  else ⟨[msg], none, engineExists⟩

/-- `do_ledslcd_update`. -/
def doLedslcdUpdate (ports : List InPort) (msg : LedslcdMsg) (answer : WriteAnswer)
    (engineExists : Bool) : Option (Update LedslcdMsg) :=
  let msg := { msg with cmd := ledslcdCmd }
  let msg := { msg with leds := doLedsUpdate ports msg.leds }
  match doLcdsUpdate ports msg.lcd1 msg.lcd2 with
  | none => none
  | some (.error error) => some ⟨[], some error, engineExists⟩
  | some (.ok (lcd1, lcd2)) =>
    let msg := { msg with lcd1 := lcd1, lcd2 := lcd2 }
    some (writeMsg msg "ledslcd" answer engineExists)

/-- `do_ledslcdbuzzer_update`. -/
def doLedslcdbuzzerUpdate (ports : List InPort) (msg : LedslcdbuzzerMsg) (answer : WriteAnswer)
    (engineExists : Bool) : Option (Update LedslcdbuzzerMsg) :=
  let msg := { msg with cmd := ledslcdbuzzerCmd }
  let msg := { msg with leds := doLedsUpdate ports msg.leds }
  match doLcdsUpdate ports msg.lcd1 msg.lcd2 with
  | none => none
  | some (.error error) => some ⟨[], some error, engineExists⟩
  | some (.ok (lcd1, lcd2)) =>
    match readReal ports buzzerInport with
    | none => none
    | some value =>
      let msg := { msg with lcd1 := lcd1, lcd2 := lcd2, buzzer := value }
      some (writeMsg msg "ledslcdbuzzer" answer engineExists)

/-- The ports of a block for the LEDs and the displays. -/
structure Board where
  leds : Fin ledsSize → InPort
  lcd1 : InPort
  lcd2 : InPort
  int8 : ∀ i, (leds i).type = scsint8N

/-- The ports in their order. -/
def Board.ports (board : Board) : List InPort :=
  List.ofFn board.leds ++ [board.lcd1, board.lcd2]

/-- A block with the port of a buzzer. -/
structure BuzzerBoard extends Board where
  buzzer : InPort
  real : buzzer.type = scsrealN

/-- The ports in their order. -/
def BuzzerBoard.ports (board : BuzzerBoard) : List InPort :=
  board.toBoard.ports ++ [board.buzzer]

/-- A display can show what the port holds: a real number, or a text of at most 16
characters. Ports of other types it cannot show. -/
def Showable (port : InPort) : Prop :=
  port.type = scsrealN ∨ port.type = scsuint8N ∧ port.rows * port.cols ≤ lcdMaxSize

/-- The data give back the port. What stands behind the characters of a text does not
matter, as the size says where they end. -/
def GivesBack (port : InPort) (lcd : LcdData) : Prop :=
  (port.type = scsrealN → lcd.type = 0 ∧ lcd.value = port.memory.take 8) ∧
    (port.type = scsuint8N → lcd.type = 1 ∧ (lcd.size.toNat : Int) = port.rows * port.cols ∧
      lcd.data.take lcd.size.toNat = port.memory)

/-- One message that gives back what it should is written if everything can be shown, and
otherwise none. -/
def WritesIf {Msg : Type} (shown : Prop) (gives : Msg → Prop) (result : Option (Update Msg)) :
    Prop :=
  ∃ update, result = some update ∧ (shown → ∃ msg, update.written = [msg] ∧ gives msg) ∧
    (¬ shown → update.written = [])

/-- The message gives back the LEDs and both displays. -/
def Faithful (board : Board) : Option (Update LedslcdMsg) → Prop :=
  WritesIf (Showable board.lcd1 ∧ Showable board.lcd2) fun msg =>
    msg.cmd = 1 ∧ (∀ i, (board.leds i).memory.head? = some (msg.leds i)) ∧
      GivesBack board.lcd1 msg.lcd1 ∧ GivesBack board.lcd2 msg.lcd2

/-- The message gives back the LEDs, both displays and the buzzer. -/
def BuzzerFaithful (board : BuzzerBoard) : Option (Update LedslcdbuzzerMsg) → Prop :=
  WritesIf (Showable board.lcd1 ∧ Showable board.lcd2) fun msg =>
    msg.cmd = 2 ∧ (∀ i, (board.leds i).memory.head? = some (msg.leds i)) ∧
      GivesBack board.lcd1 msg.lcd1 ∧ GivesBack board.lcd2 msg.lcd2 ∧
      msg.buzzer = board.buzzer.memory.take 8

/-- The check of the size lets the port pass. It sees no more than a byte of the number
of characters. -/
def Passes (port : InPort) : Prop :=
  port.type = scsrealN ∨ port.type = scsuint8N ∧ port.rows * port.cols % 256 ≤ lcdMaxSize

/-- The port has a text that is too long for a display, whatever the check says about it. -/
def TooLong (port : InPort) : Prop :=
  port.type = scsuint8N ∧ (lcdMaxSize : Int) < port.rows * port.cols

/-- A text that is too long passes the check, and so does the other port, so that the
message is written with it. -/
def Slips (first second : InPort) : Prop :=
  Passes first ∧ Passes second ∧ (TooLong first ∨ TooLong second)

section Ports

variable (board : Board) (more : List InPort)

/-- The ports of the LEDs come first. -/
theorem led_port (i : Fin ledsSize) :
    inPort (board.ports ++ more) (i + 1) = some (board.leds i) := by
  have inside : (i : Nat) < (List.ofFn board.leds).length := by
    rw [List.length_ofFn]
    exact i.isLt
  rw [inPort, if_pos (Nat.succ_pos _), Nat.add_sub_cancel, Board.ports, List.append_assoc,
    List.getElem?_append_left inside, List.getElem?_eq_getElem inside, List.getElem_ofFn]

/-- The ports of the displays follow. -/
theorem lcd_ports :
    inPort (board.ports ++ more) lcdInport1 = some board.lcd1 ∧
      inPort (board.ports ++ more) lcdInport2 = some board.lcd2 := by
  have eight : (List.ofFn board.leds).length = 8 := List.length_ofFn
  constructor
  · rw [inPort, if_pos (by decide), Board.ports, List.append_assoc,
      List.getElem?_append_right (by rw [eight]; decide), eight]
    rfl
  · rw [inPort, if_pos (by decide), Board.ports, List.append_assoc,
      List.getElem?_append_right (by rw [eight]; decide), eight]
    rfl

/-- The port of the buzzer is behind them. -/
theorem buzzer_port (board : BuzzerBoard) :
    inPort board.ports buzzerInport = some board.buzzer := by
  have eight : (List.ofFn board.leds).length = 8 := List.length_ofFn
  rw [inPort, if_pos (by decide), BuzzerBoard.ports, Board.ports, List.append_assoc,
    List.getElem?_append_right (by rw [eight]; decide), eight]
  rfl

/-- A port has at least one element. -/
theorem one_element (port : InPort) : 1 ≤ port.rows * port.cols :=
  Int.mul_pos (Int.lt_of_lt_of_le Int.zero_lt_one port.positive.1)
    (Int.lt_of_lt_of_le Int.zero_lt_one port.positive.2)

/-- The LEDs of the message are those of the ports. -/
theorem leds_updated (leds : Fin ledsSize → UInt8) (i : Fin ledsSize) :
    (board.leds i).memory.head? = some (doLedsUpdate (board.ports ++ more) leds i) := by
  have element := one_element (board.leds i)
  have stored := (board.leds i).stored
  have bytes : sizeOfIn (board.leds i).type = 1 := by rw [board.int8]; rfl
  rw [bytes] at stored
  have pointer : getInPortPtrs (board.ports ++ more) (i + 1) = some (board.leds i).memory := by
    rw [getInPortPtrs, led_port, Option.map_some]
  rw [doLedsUpdate, assignLoop_finRange]
  dsimp only
  rw [pointer]
  cases memory : (board.leds i).memory with
  | nil =>
    rw [memory, List.length_nil] at stored
    omega
  | cons first rest => rfl

/-- A port of real numbers is read. -/
theorem real_read (ports : List InPort) (x : Nat) (port : InPort)
    (found : inPort ports x = some port) (real : port.type = scsrealN) :
    readReal ports x = some (port.memory.take 8) := by
  have element := one_element port
  have stored := port.stored
  have bytes : sizeOfIn port.type = 8 := by rw [real]; rfl
  rw [bytes] at stored
  rw [readReal, getInPortPtrs, found, Option.map_some, Option.bind_some, if_pos (by omega)]

end Ports

section Displays

/-- What can be shown passes the check, and what passes can be shown unless it is too long. -/
theorem showable_iff (port : InPort) : Showable port ↔ Passes port ∧ ¬ TooLong port := by
  have element := one_element port
  have limit : (lcdMaxSize : Int) = 16 := rfl
  have differ : scsrealN ≠ scsuint8N := by decide
  rw [Showable, Passes, TooLong, limit]
  constructor
  · rintro (real | ⟨uint8, short⟩)
    · exact ⟨Or.inl real, fun long => differ (real.symm.trans long.1)⟩
    · exact ⟨Or.inr ⟨uint8, by omega⟩, fun long => absurd long.2 (by omega)⟩
  · rintro ⟨real | ⟨uint8, -⟩, short⟩
    · exact Or.inl real
    · exact Or.inr ⟨uint8, Int.not_lt.mp fun long => short ⟨uint8, long⟩⟩

variable (ports : List InPort)

/-- A real number is taken over. -/
theorem lcdUpdate_real (number x : Nat) (port : InPort) (found : inPort ports x = some port)
    (lcd : LcdData) (real : port.type = scsrealN) :
    ∃ after, lcdUpdate ports number x lcd = some (.ok after) ∧ GivesBack port after := by
  have type : getInType ports x = port.type := by rw [getInType, found]
  refine ⟨{ lcd with type := msgRealType, size := 8, value := port.memory.take 8 }, ?_, ?_⟩
  · rw [lcdUpdate, if_pos (type.trans real), real_read ports x port found real]
    rfl
  · exact ⟨fun _ => ⟨rfl, rfl⟩, fun uint8 => absurd (real.symm.trans uint8) (by decide)⟩

/-- The bytes that are copied into the data lie inside. -/
theorem copyData_inside (lcd : LcdData) (source : List UInt8) (size : Nat)
    (short : size ≤ lcdMaxSize) (enough : size ≤ source.length) :
    ∃ after, copyData lcd source size = some after ∧ after.type = lcd.type ∧
      after.size = lcd.size ∧ after.data.take size = source.take size := by
  have front : (source.take size).length = size := by
    rw [List.length_take, Nat.min_eq_left enough]
  have room : 0 + (source.take size).length ≤ lcd.data.length ∧ size ≤ source.length := by
    rw [Nat.zero_add, front, lcd.sized]
    exact ⟨short, enough⟩
  refine ⟨_, dif_pos room, rfl, rfl, ?_⟩
  have copied := fetch_store lcd.data 0 (source.take size) (Nat.zero_le _)
  rw [front] at copied
  exact copied

/-- A text whose length passes the check is copied, as a whole if it is short. -/
theorem lcdUpdate_text (number x : Nat) (port : InPort) (found : inPort ports x = some port)
    (lcd : LcdData) (uint8 : port.type = scsuint8N) :
    if port.rows * port.cols % 256 ≤ lcdMaxSize then
      ∃ after, lcdUpdate ports number x lcd = some (.ok after) ∧
        (port.rows * port.cols ≤ lcdMaxSize → GivesBack port after)
    else ∃ error, lcdUpdate ports number x lcd = some (.error error) := by
  have type : getInType ports x = port.type := by rw [getInType, found]
  have other : ¬ scsuint8N = scsrealN := by decide
  have element := one_element port
  have stored := port.stored
  have bytes : sizeOfIn port.type = 1 := by rw [uint8]; rfl
  have limit : lcdMaxSize = 16 := rfl
  have product : getInPortSizes ports x = port.rows * port.cols := by rw [getInPortSizes, found]
  have cut : ((UInt8.ofInt (getInPortSizes ports x * 1)).toNat : Int) =
      port.rows * port.cols % 256 := by
    rw [product, Int.mul_one, UInt8.ofInt, UInt8.toNat_ofNat']
    omega
  rw [bytes] at stored
  rw [lcdUpdate, type, uint8, if_neg other, if_pos rfl]
  generalize UInt8.ofInt (getInPortSizes ports x * 1) = size at cut ⊢
  dsimp only
  split
  · next passes =>
    obtain ⟨after, copied, kind, sized, shown⟩ := copyData_inside
      { lcd with type := msgUint8Type, size := size } port.memory size.toNat (by omega) (by omega)
    rw [if_neg (by omega), getInPortPtrs, found, Option.map_some, Option.bind_some, copied]
    refine ⟨after, rfl, fun short => ⟨fun real => ?_, fun _ => ⟨kind, ?_, ?_⟩⟩⟩
    · exact absurd (uint8.symm.trans real) other
    · rw [sized]
      dsimp only
      omega
    · rw [sized, shown]
      exact List.take_of_length_le (by omega)
  · rw [if_pos (by omega)]
    exact ⟨_, rfl⟩

/-- The part of one display succeeds if its port passes the check, and its data give back what
can be shown. -/
theorem lcdUpdate_result (number x : Nat) (port : InPort) (found : inPort ports x = some port)
    (lcd : LcdData) :
    (Passes port ∧ ∃ after, lcdUpdate ports number x lcd = some (.ok after) ∧
        (Showable port → GivesBack port after)) ∨
      ¬ Passes port ∧ ∃ error, lcdUpdate ports number x lcd = some (.error error) := by
  by_cases real : port.type = scsrealN
  · obtain ⟨after, updated, gives⟩ := lcdUpdate_real ports number x port found lcd real
    exact Or.inl ⟨Or.inl real, after, updated, fun _ => gives⟩
  by_cases uint8 : port.type = scsuint8N
  · have text := lcdUpdate_text ports number x port found lcd uint8
    split at text
    · next passes =>
      obtain ⟨after, updated, gives⟩ := text
      refine Or.inl ⟨Or.inr ⟨uint8, passes⟩, after, updated, ?_⟩
      rintro (other | ⟨-, short⟩)
      · exact absurd other real
      · exact gives short
    · next long =>
      refine Or.inr ⟨?_, text⟩
      rintro (other | ⟨-, passes⟩)
      · exact real other
      · exact long passes
  · refine Or.inr ⟨?_, .badType number port.type, ?_⟩
    · rintro (other | ⟨other, -⟩)
      · exact real other
      · exact uint8 other
    · have type : getInType ports x = port.type := by rw [getInType, found]
      rw [lcdUpdate, type, if_neg real, if_neg uint8]

/-- The displays are updated if both ports pass the check. -/
theorem doLcdsUpdate_result (first second : InPort) (found : inPort ports lcdInport1 = some first)
    (next : inPort ports lcdInport2 = some second) (lcd1 lcd2 : LcdData) :
    (Passes first ∧ Passes second ∧ ∃ one two,
        doLcdsUpdate ports lcd1 lcd2 = some (.ok (one, two)) ∧
        (Showable first → GivesBack first one) ∧ (Showable second → GivesBack second two)) ∨
      ¬ (Passes first ∧ Passes second) ∧
        ∃ error, doLcdsUpdate ports lcd1 lcd2 = some (.error error) := by
  rw [doLcdsUpdate]
  obtain ⟨passes, one, updated, gives⟩ | ⟨refused, error, updated⟩ :=
    lcdUpdate_result ports 1 lcdInport1 first found lcd1
  · obtain ⟨also, two, then_, back⟩ | ⟨refused, error, then_⟩ :=
      lcdUpdate_result ports 2 lcdInport2 second next lcd2
    · exact Or.inl ⟨passes, also, one, two, by rw [updated, then_], gives, back⟩
    · exact Or.inr ⟨fun both => refused both.2, error, by rw [updated, then_]⟩
  · exact Or.inr ⟨fun both => refused both.1, error, by rw [updated]⟩

/-- Where no text slips through, the ports that pass are those that can be shown. -/
theorem passes_showable (first second : InPort) (passes : Passes first ∧ Passes second) :
    Showable first ∧ Showable second ↔ ¬ Slips first second := by
  rw [showable_iff, showable_iff, Slips]
  constructor
  · rintro ⟨one, two⟩ ⟨-, -, long | long⟩
    · exact one.2 long
    · exact two.2 long
  · intro holds
    exact ⟨⟨passes.1, fun long => holds ⟨passes.1, passes.2, Or.inl long⟩⟩,
      passes.2, fun long => holds ⟨passes.1, passes.2, Or.inr long⟩⟩

end Displays

section Updates

variable {Msg : Type} {shown : Prop} {gives : Msg → Prop}

/-- A message that is written should be there if everything can be shown. -/
theorem writesIf_written (msg : Msg) (name : String) (answer : WriteAnswer)
    (succeeds : 0 ≤ answer.ret) (engineExists : Bool) (given : shown → gives msg) :
    WritesIf shown gives (some (writeMsg msg name answer engineExists)) ↔ shown := by
  rw [writeMsg, if_neg (Int.not_lt.mpr succeeds)]
  constructor
  · rintro ⟨update, result, -, unwritten⟩
    obtain rfl := Option.some.inj result
    exact Classical.byContradiction fun hidden => List.cons_ne_nil _ _ (unwritten hidden)
  · intro holds
    exact ⟨_, rfl, fun _ => ⟨msg, rfl, given holds⟩, fun hidden => absurd holds hidden⟩

/-- An error is right if something cannot be shown. -/
theorem writesIf_error (error : Coserror) (engineExists : Bool) (hidden : ¬ shown) :
    WritesIf shown gives (some ⟨[], some error, engineExists⟩) :=
  ⟨_, rfl, fun holds => absurd holds hidden, fun _ => rfl⟩

/-- A port that does not pass cannot be shown. -/
theorem refused_hidden (first second : InPort) (refused : ¬ (Passes first ∧ Passes second)) :
    ¬ (Showable first ∧ Showable second) := fun both =>
  refused ⟨((showable_iff _).mp both.1).1, ((showable_iff _).mp both.2).1⟩

/-- The update of a block without a buzzer is faithful unless a text slips through. -/
theorem ledslcd_faithful (board : Board) (msg : LedslcdMsg) (answer : WriteAnswer)
    (succeeds : 0 ≤ answer.ret) (engineExists : Bool) :
    Faithful board (doLedslcdUpdate board.ports msg answer engineExists) ↔
      ¬ Slips board.lcd1 board.lcd2 := by
  obtain ⟨first, second⟩ := lcd_ports board []
  have leds := leds_updated board [] msg.leds
  rw [List.append_nil] at first second leds
  rw [Faithful, doLedslcdUpdate]
  dsimp only
  obtain ⟨passes, also, one, two, updated, gives, back⟩ | ⟨refused, error, updated⟩ :=
    doLcdsUpdate_result board.ports _ _ first second msg.lcd1 msg.lcd2
  · rw [updated, ← passes_showable _ _ ⟨passes, also⟩]
    exact writesIf_written _ _ answer succeeds engineExists fun holds =>
      ⟨rfl, leds, gives holds.1, back holds.2⟩
  · rw [updated]
    exact iff_of_true (writesIf_error error engineExists (refused_hidden _ _ refused))
      fun slips => refused ⟨slips.1, slips.2.1⟩

/-- And so is that of a block with one. -/
theorem ledslcdbuzzer_faithful (board : BuzzerBoard) (msg : LedslcdbuzzerMsg)
    (answer : WriteAnswer) (succeeds : 0 ≤ answer.ret) (engineExists : Bool) :
    BuzzerFaithful board (doLedslcdbuzzerUpdate board.ports msg answer engineExists) ↔
      ¬ Slips board.lcd1 board.lcd2 := by
  obtain ⟨first, second⟩ := lcd_ports board.toBoard [board.buzzer]
  have leds := leds_updated board.toBoard [board.buzzer] msg.leds
  have buzzer := real_read board.ports buzzerInport board.buzzer (buzzer_port board) board.real
  rw [BuzzerFaithful, doLedslcdbuzzerUpdate]
  dsimp only
  obtain ⟨passes, also, one, two, updated, gives, back⟩ | ⟨refused, error, updated⟩ :=
    doLcdsUpdate_result board.ports _ _ first second msg.lcd1 msg.lcd2
  · rw [updated, ← passes_showable _ _ ⟨passes, also⟩]
    dsimp only
    rw [buzzer]
    exact writesIf_written _ _ answer succeeds engineExists fun holds =>
      ⟨rfl, leds, gives holds.1, back holds.2, rfl⟩
  · rw [updated]
    exact iff_of_true (writesIf_error error engineExists (refused_hidden _ _ refused))
      fun slips => refused ⟨slips.1, slips.2.1⟩

end Updates

/-- Both updates are faithful exactly if no text slips through the check of its length.
The number of characters goes through a byte before it is compared with 16, so a port of
256 and a few more passes for a short one, and is then read and copied as a whole. Left
out are writes that fail; whether there is an engine makes no difference. -/
theorem updates_faithful_iff (answer : WriteAnswer) (succeeds : 0 ≤ answer.ret)
    (engineExists : Bool) :
    (∀ (board : Board) (msg : LedslcdMsg),
      Faithful board (doLedslcdUpdate board.ports msg answer engineExists) ↔
        ¬ Slips board.lcd1 board.lcd2) ∧
    ∀ (board : BuzzerBoard) (msg : LedslcdbuzzerMsg),
      BuzzerFaithful board (doLedslcdbuzzerUpdate board.ports msg answer engineExists) ↔
        ¬ Slips board.lcd1 board.lcd2 :=
  ⟨fun board msg => ledslcd_faithful board msg answer succeeds engineExists,
    fun board msg => ledslcdbuzzer_faithful board msg answer succeeds engineExists⟩

/-- A port with one number. -/
def zeroPort : InPort where
  type := scsrealN
  rows := 1
  cols := 1
  memory := List.replicate 8 0
  positive := by decide
  short := by decide
  stored := by decide

/-- A port with a text of the letter `A`. -/
def textPort (rows : Nat) (positive : 1 ≤ rows) (short : rows < 2147483648) : InPort where
  type := scsuint8N
  rows := rows
  cols := 1
  memory := List.replicate rows 65
  positive := by omega
  short := by omega
  stored := by
    rw [List.length_replicate]
    exact (Int.mul_one _).trans (Int.mul_one _) |>.symm

/-- A port with one byte. -/
def ledPort : InPort where
  type := scsint8N
  rows := 1
  cols := 1
  memory := [1]
  positive := by decide
  short := by decide
  stored := by decide

/-- A block with a text for the first display. -/
def textBoard (rows : Nat) (positive : 1 ≤ rows) (short : rows < 2147483648) : BuzzerBoard where
  leds := fun _ => ledPort
  lcd1 := textPort rows positive short
  lcd2 := zeroPort
  int8 := fun _ => rfl
  buzzer := zeroPort
  real := rfl

/-- What a variable may hold at first. -/
def anyLcd : LcdData := ⟨0, 0, List.replicate 16 0, [], List.length_replicate⟩

/-- A text of sixteen letters is shown. -/
theorem sixteen_letters_shown :
    BuzzerFaithful (textBoard 16 (by decide) (by decide))
      (doLedslcdbuzzerUpdate (textBoard 16 (by decide) (by decide)).ports
        ⟨0, fun _ => 0, anyLcd, anyLcd, []⟩ ⟨0, 0⟩ true) := by
  refine ((updates_faithful_iff ⟨0, 0⟩ (by decide) true).2 _ _).mpr ?_
  rintro ⟨-, -, long | long⟩
  · exact absurd long.2 (by decide)
  · exact absurd long.1 (by decide)

/-- A text of 256 letters is written as an empty one. -/
theorem long_text_written :
    ¬ BuzzerFaithful (textBoard 256 (by decide) (by decide))
      (doLedslcdbuzzerUpdate (textBoard 256 (by decide) (by decide)).ports
        ⟨0, fun _ => 0, anyLcd, anyLcd, []⟩ ⟨0, 0⟩ true) := by
  rw [ledslcdbuzzer_faithful _ _ _ (by decide)]
  intro holds
  refine holds ⟨Or.inr ⟨rfl, ?_⟩, Or.inl rfl, Or.inl ⟨rfl, ?_⟩⟩
  · decide
  · decide

end ScicosFlex.FlexSim.LcdMessages
