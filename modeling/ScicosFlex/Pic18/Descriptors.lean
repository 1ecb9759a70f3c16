import Mathlib.Data.List.Basic

/-!
# The descriptor tables

The constants of `usbdsc.c`: the device descriptor, the two configurations, the
strings and the report descriptor, as the bytes that stand in program memory.
Words are stored with the low byte first. A request reads them through a pointer,
so `Area` is the memory from some address on.
-/

namespace ScicosFlex.Pic18.Stack

abbrev Byte := BitVec 8

/-- Memory, counted from some address. -/
abbrev Area := Nat → Byte

/-- The memory at a constant. Nothing is read behind its end. -/
def area (bytes : List Byte) : Area := fun k => bytes.getD k 0

/-- The first bytes of an area. -/
def Area.bytes (memory : Area) (count : Nat) : List Byte := (List.range count).map memory

/-- A word, low byte first. -/
def word (value : BitVec 16) : List Byte := [value.setWidth 8, (value >>> 8).setWidth 8]

/-- Descriptor types. -/
def dscDev : Byte := 1
def dscCfg : Byte := 2
def dscStr : Byte := 3
def dscIntf : Byte := 4
def dscEp : Byte := 5
def dscHid : Byte := 0x21
def dscRpt : Byte := 0x22

/-- `EP0_BUFF_SIZE`. -/
def ep0BuffSize : Nat := 8

/-- `HID_INT_OUT_EP_SIZE` and `HID_INT_IN_EP_SIZE`. -/
def hidIntOutEpSize : Nat := 64
def hidIntInEpSize : Nat := 64

/-- `device_dsc`. -/
def deviceDsc : List Byte :=
  [18, dscDev] ++ word 0x0200 ++ [0, 0, 0, 8] ++ word 0x04D8 ++ word 0x0033 ++ word 0x0001 ++
    [1, 2, 3, 2]

/-- `hid_rpt01`. -/
def hidRpt01 : List Byte :=
  [0x06, 0x00, 0xFF, 0x09, 0x01, 0xA1, 0x01, 0x19, 0x01, 0x29, 0x40, 0x15, 0x00, 0x26, 0xFF, 0x00,
    0x75, 0x08, 0x95, 0x40, 0x81, 0x02, 0x19, 0x01, 0x29, 0x40, 0x91, 0x02, 0xC0]

/-- An endpoint descriptor: 64 bytes, bulk, interval 1. -/
def epDsc (bEPAdr : Byte) : List Byte := [7, dscEp, bEPAdr, 0x02] ++ word 64 ++ [1]

/-- An interface descriptor with two endpoints. -/
def intfDsc (bIntfCls : Byte) : List Byte := [9, dscIntf, 0, 0, 2, bIntfCls, 0, 0, 0]

/-- `cfg01.hid_i00a00`. -/
def hidDsc : List Byte := [9, dscHid] ++ word 0x0001 ++ [0x00, 1, dscRpt] ++ word 29

/-- `cfg01`. -/
def cfg01 : List Byte :=
  [9, dscCfg] ++ word 41 ++ [1, 1, 2, 0x80, 50] ++ intfDsc 3 ++ hidDsc ++ epDsc 0x81 ++ epDsc 0x01

/-- `cfg02`. -/
def cfg02 : List Byte :=
  [9, dscCfg] ++ word 32 ++ [1, 2, 4, 0x80, 50] ++ intfDsc 0xFF ++ epDsc 0x81 ++ epDsc 0x01

/-- A string descriptor: every character as a word. -/
def strDsc (text : String) : List Byte :=
  [BitVec.ofNat 8 (2 + 2 * text.length), dscStr] ++
    text.toList.flatMap fun c => word (BitVec.ofNat 16 c.toNat)

/-- `sd000`: the language, and `sd001` to `sd004`. -/
def sd000 : List Byte := [4, dscStr] ++ word 0x0409
def sd001 : List Byte := strDsc "Microchip Technology Inc."
def sd002 : List Byte := strDsc "PICkit 2 Microcontroller Programmer"
def sd003 : List Byte := strDsc "PIC18F2550"
def sd004 : List Byte := strDsc "PICkit 2 Configuration 2"

/-- `USB_CD_Ptr` and `USB_SD_Ptr`. -/
def usbCdPtr : List (List Byte) := [cfg01, cfg02]
def usbSdPtr : List (List Byte) := [sd000, sd001, sd002, sd003, sd004]

/-- The memory that the pointers behind the two tables lead to, which is whatever
the linker put there. -/
structure Rom where
  behindCd : Nat → Area
  behindSd : Nat → Area

/-- The memory a pointer table leads to: `*(table+index)`. -/
def pointed (table : List (List Byte)) (behind : Nat → Area) (index : Nat) : Area :=
  match table[index]? with
  | some bytes => area bytes
  | none => behind (index - table.length)

/-- The parts of a descriptor, cut at the lengths they name themselves. -/
def parts : (fuel : Nat) → List Byte → Option (List (List Byte))
  | _, [] => some []
  | 0, _ => none
  | fuel + 1, bLength :: rest =>
    let size := bLength.toNat
    if size = 0 ∨ rest.length + 1 < size then none
    else (parts fuel (rest.drop (size - 1))).map ((bLength :: rest).take size :: ·)

/-- The tables are sound: the device and string descriptors name their own
length, and a configuration names its total length, is cut into its parts by
their lengths, and its interface announces as many endpoints as follow. -/
theorem descriptors_sound :
    deviceDsc.head? = some (BitVec.ofNat 8 deviceDsc.length) ∧
    (∀ bytes ∈ usbSdPtr, bytes.head? = some (BitVec.ofNat 8 bytes.length) ∧ bytes[1]? = some dscStr) ∧
    ∀ bytes ∈ usbCdPtr, (bytes.drop 2).take 2 = word (BitVec.ofNat 16 bytes.length) ∧
      ∃ split, parts bytes.length bytes = some split ∧
        (split.filter fun part => part[1]? = some dscEp).map (fun part => part.length) = [7, 7] ∧
        (split.filter fun part => part[1]? = some dscIntf).flatMap (fun part => (part.drop 4).take 1) =
          [2] := by
  refine ⟨by decide, by decide, ?_⟩
  intro bytes member
  simp only [usbCdPtr, List.mem_cons, List.not_mem_nil, or_false] at member
  rcases member with rfl | rfl
  · exact ⟨by decide, _, rfl, by decide, by decide⟩
  · exact ⟨by decide, _, rfl, by decide, by decide⟩

end ScicosFlex.Pic18.Stack
