import ScicosFlex.Library.Layout
import ScicosFlex.Smcube.Block

/-!
# The data model

The functions of `data_model.c` on an element that `dm_create_elem` has made, and the two
loops of `smcube_block_p.h` that copy the ports of a block into and out of an element.
The places of the values do not overlap and fill the element, so that setting a value
changes no other one (`data_model_laws`).

`RET_OK` and `RET_FAIL` are the same number. The caller of a function that fails goes on
with variables that nobody has set, and the functions return what they are to return
exactly when there is no error (`errors_reported_iff`).

Sums and products that leave `int`, accesses outside of an array and failed assertions
are undefined. Copying no bytes is not.
-/

namespace ScicosFlex.Smcube.DataModel

open Library.Layout

/-- `RET_OK`. -/
def retOk : Int := 1

/-- `RET_FAIL`. -/
def retFail : Int := 1

/-- The value of an expression of type `int`. -/
def int (value : Int) : Option Int :=
  if -2147483648 ≤ value ∧ value < 2147483648 then some value else none

/-- `memcpy(target + dst, source + src, count)`. -/
def memcpy (target : List UInt8) (dst : Int) (source : List UInt8) (src count : Int) :
    Option (List UInt8) :=
  if count = 0 then some target
  else if 0 < count ∧ 0 ≤ dst ∧ dst + count ≤ target.length ∧ 0 ≤ src ∧
      src + count ≤ source.length then
    some (store target dst.toNat (fetch source src.toNat count.toNat))
  else none

/-- The variables that `dm_get_offset_and_size` sets for its caller. -/
structure Found where
  offset : Int
  size : Int

/-- The item that `index` and `pos` select, if they are inside the bounds. -/
def position (items : List Item) (index pos : Int) : Option Item :=
  if index < 0 then none
  else
    match items[index.toNat]? with
    | none => none
    | some item => if pos < 0 ∨ item.multiplicity ≤ pos then none else some item

/-- One turn of the loop over the items before the selected one. -/
def moveOffset (offsetValue : Int) (item : Item) : Option Int := do
  let size ← int (getTypeSize item.type * item.multiplicity)
  int (offsetValue + size)

/-- `dm_get_offset_and_size`. -/
def dmGetOffsetAndSize (data : Elem) (index pos : Int) (out : Found) : Option (Int × Found) :=
  match position data.items index pos with
  | none => some (retFail, out)
  | some item => do
    let offsetValue ← (data.items.take index.toNat).foldlM moveOffset 0
    let valueSize : Int := getTypeSize item.type
    let moved ← int (pos * valueSize)
    let offsetValue ← int (offsetValue + moved)
    let behind ← int (offsetValue + valueSize)
    if behind ≤ data.data.length then some (retOk, ⟨offsetValue, valueSize⟩) else none

/-- `dm_get_value`: what it returns, and the buffer at `value`. -/
def dmGetValue (data : Elem) (index pos : Int) (value : List UInt8) (size : Int) (out : Found) :
    Option (Int × List UInt8) := do
  let (ret, out) ← dmGetOffsetAndSize data index pos out
  let (result, value) ←
    if ret ≠ 0 then
      if out.size ≤ size then
        (memcpy value 0 data.data out.offset out.size).map fun value => (retOk, value)
      else some (retFail, value)
    else some (retFail, value)
  let valueSize := if result = 0 then 0 else out.size
  some (valueSize, value)

/-- `dm_set_value`: what it returns, and the element. -/
def dmSetValue (data : Elem) (index pos : Int) (value : List UInt8) (size : Int) (out : Found) :
    Option (Int × Elem) := do
  let (ret, out) ← dmGetOffsetAndSize data index pos out
  if ret ≠ 0 then
    if out.size = size then
      (memcpy data.data out.offset value 0 out.size).map fun bytes =>
        (retOk, { data with data := bytes })
    else some (retFail, data)
  else some (retFail, data)

/-- One turn of the loop in `assign_input_data`. -/
def assignInputItem (items : List Item) (inptr : Nat → List UInt8) (state : List UInt8 × Found)
    (i : Nat) : Option (List UInt8 × Found) := do
  let (ret, out) ← dmGetOffsetAndSize { data := state.1, items := items } i 0 state.2
  if ret ≠ 0 then
    let count ← int (out.size * (items[i]?.elim 0 Item.multiplicity : Nat))
    (memcpy state.1 out.offset (inptr i) 0 count).map fun data => (data, out)
  else some (state.1, out)

/-- `assign_input_data`; `out` is what its variables hold at first. -/
def assignInputData (input : Elem) (inptr : Nat → List UInt8) (out : Found) : Option Elem :=
  ((List.range input.items.length).foldlM (assignInputItem input.items inptr)
    (input.data, out)).map fun state => { input with data := state.1 }

/-- One turn of the loop in `assign_output_data`. -/
def assignOutputItem (output : Elem) (state : (Nat → List UInt8) × Found) (i : Nat) :
    Option ((Nat → List UInt8) × Found) := do
  let (ret, out) ← dmGetOffsetAndSize output i 0 state.2
  if ret ≠ 0 then
    let count ← int (out.size * (output.items[i]?.elim 0 Item.multiplicity : Nat))
    (memcpy (state.1 i) 0 output.data out.offset count).map fun port =>
      (Function.update state.1 i port, out)
  else some (state.1, out)

/-- `assign_output_data`. -/
def assignOutputData (output : Elem) (outptr : Nat → List UInt8) (out : Found) :
    Option (Nat → List UInt8) :=
  ((List.range output.items.length).foldlM (assignOutputItem output) (outptr, out)).map Prod.fst

/-- The bytes of an item, as a field of the element. -/
def field (item : Item) : Field := { width := getTypeSize item.type, count := item.multiplicity }

/-- Where the value at a place lies. -/
def cellOf (data : Elem) (i k : Nat) (item : Item) : Nat :=
  cell (data.items.map field) i k (getTypeSize item.type)

/-- The element's memory has just the bytes of its items, whose number is an `int`. -/
structure Laid (data : Elem) : Prop where
  covered : data.data.length = total (data.items.map field)
  short : (data.data.length : Int) < 2147483648

/-- Elements of equal description. -/
def SameShape (data other : Elem) : Prop :=
  other.items = data.items ∧ other.data.length = data.data.length

/-- `index` and `pos` are inside the bounds: there is an item with this number, counted
from one, and a value of it with this one. -/
def Valid (data : Elem) (place : Int × Int) : Prop :=
  ∃ item, position data.items place.1 place.2 = some item

/-- The size of the type of the selected item. -/
def sizeAt (data : Elem) (place : Int × Int) : Nat :=
  (position data.items place.1 place.2).elim 0 fun item => getTypeSize item.type

/-- The byte belongs to the value at the place. -/
def Covers (data : Elem) (place : Int × Int) (byte : Int) : Prop :=
  ∃ found, (∀ out, dmGetOffsetAndSize data place.1 place.2 out = some (retOk, found)) ∧
    found.offset ≤ byte ∧ byte < found.offset + found.size

/-- A value inside `int` is what it is. -/
theorem int_eq (value : Int) (above : 0 ≤ value) (below : value < 2147483648) :
    int value = some value := if_pos ⟨by omega, below⟩

/-- A selected item and its place as natural numbers. -/
theorem position_iff (items : List Item) (index pos : Int) (item : Item) :
    position items index pos = some item ↔
      ∃ i k : Nat, index = i ∧ pos = k ∧ items[i]? = some item ∧ k < item.multiplicity := by
  constructor
  · intro selected
    rw [position] at selected
    split at selected
    · cases selected
    · next natural =>
      split at selected
      · cases selected
      · next entry found =>
        split at selected
        · cases selected
        · next inside =>
          obtain rfl := Option.some.inj selected
          rw [not_or] at inside
          refine ⟨index.toNat, pos.toNat, ?_, ?_, found, ?_⟩ <;> omega
  · rintro ⟨i, k, rfl, rfl, found, inside⟩
    have natural : ¬ (i : Int) < 0 := by omega
    have bounds : ¬ ((k : Int) < 0 ∨ (item.multiplicity : Int) ≤ k) := by omega
    rw [position, if_neg natural, Int.toNat_natCast, found]
    exact if_neg bounds

/-- A place inside the bounds selects its item. -/
theorem position_found (items : List Item) (i k : Nat) (item : Item)
    (found : items[i]? = some item) (inside : k < item.multiplicity) :
    position items i k = some item :=
  (position_iff items i k item).mpr ⟨i, k, rfl, rfl, found, inside⟩

/-- The loop over the first items adds up their bytes. -/
theorem offsets_sum (items : List Item) (behind : Nat)
    (short : ((behind + total (items.map field) : Nat) : Int) < 2147483648) :
    items.foldlM moveOffset (behind : Int) =
      some ((behind + total (items.map field) : Nat) : Int) := by
  induction items generalizing behind with
  | nil => rfl
  | cons item rest inductionHypothesis =>
    have size : (getTypeSize item.type * item.multiplicity : Int) = ((field item).size : Nat) := by
      rw [Field.size, field, Int.natCast_mul]
    have whole : total ((item :: rest).map field) = (field item).size + total (rest.map field) :=
      rfl
    rw [whole] at short ⊢
    rw [List.foldlM_cons, moveOffset, size, int_eq _ (by omega) (by omega), Option.bind_eq_bind,
      Option.bind_some, ← Int.natCast_add, int_eq _ (by omega) (by omega), Option.bind_some,
      inductionHypothesis (behind + (field item).size) (by omega), Nat.add_assoc]

/-- Before an item lie the bytes of the items before it. -/
theorem start_take (items : List Item) (index : Nat) :
    total ((items.take index).map field) = start (items.map field) index := by
  rw [start, total, List.map_take]

/-- At a place inside the bounds the offset and the size of the value are found. -/
theorem offset_found (data : Elem) (laid : Laid data) (i k : Nat) (item : Item)
    (found : data.items[i]? = some item) (inside : k < item.multiplicity) (out : Found) :
    dmGetOffsetAndSize data i k out = some (retOk,
      ⟨cellOf data i k item, getTypeSize item.type⟩) := by
  have selected := position_found data.items i k item found inside
  have listed : (data.items.map field)[i]? = some (field item) := by
    rw [List.getElem?_map, found]
    rfl
  have ends : cellOf data i k item + getTypeSize item.type ≤
      data.data.length := by
    rw [laid.covered]
    exact cell_inside (data.items.map field) i k (field item) listed inside
  have short := laid.short
  have before := start_take data.items i
  rw [dmGetOffsetAndSize, selected]
  rw [cellOf, cell] at ends ⊢
  have sum := offsets_sum (data.items.take i) 0 (by rw [before]; omega)
  rw [before, Nat.zero_add] at sum
  have moved : (k : Int) * (getTypeSize item.type : Int) = ((k * getTypeSize item.type : Nat) : Int) :=
    (Int.natCast_mul _ _).symm
  rw [show ((0 : Nat) : Int) = 0 from rfl] at sum
  simp only [Int.toNat_natCast, sum, moved]
  rw [Option.bind_eq_bind, Option.bind_some, int_eq _ (by omega) (by omega), Option.bind_some,
    ← Int.natCast_add, int_eq _ (by omega) (by omega), Option.bind_some, ← Int.natCast_add,
    int_eq _ (by omega) (by omega), Option.bind_some]
  exact if_pos (by omega)

/-- Every type has a size. -/
theorem getTypeSize_pos (type : ItemType) : 0 < getTypeSize type := by
  cases type <;> decide

/-- The bytes of all items. -/
theorem total_items (items : List Item) : total (items.map field) = (items.map Item.size).sum := by
  rw [total, List.map_map]
  rfl

/-- `dm_create_elem` gives the element the memory of its items. -/
theorem dmCreateElem_laid (types : List ItemType) (multiplicities : List Nat)
    (short : ((dmCreateElem types multiplicities).data.length : Int) < 2147483648) :
    Laid (dmCreateElem types multiplicities) := by
  refine ⟨?_, short⟩
  rw [total_items, dmCreateElem, List.length_replicate]

/-- An element of the same shape has the same layout. -/
theorem Laid.congr {data other : Elem} (laid : Laid data) (same : SameShape data other) :
    Laid other := by
  obtain ⟨items, length⟩ := same
  refine ⟨?_, ?_⟩
  · rw [length, items, laid.covered]
  · rw [length]
    exact laid.short

/-- Copying between two arrays. -/
theorem memcpy_eq (target source : List UInt8) (dst src count : Nat)
    (target_inside : dst + count ≤ target.length) (source_inside : src + count ≤ source.length) :
    memcpy target dst source src count = some (store target dst (fetch source src count)) := by
  rw [memcpy]
  split
  · next none =>
    have zero : count = 0 := by omega
    rw [zero, fetch, List.take_zero, store_nil]
  · next some =>
    rw [if_pos (by omega)]
    rfl

/-- A place inside the bounds is a cell of the layout. -/
theorem valid_iff (data : Elem) (place : Int × Int) :
    Valid data place ↔ ∃ (i k : Nat) (item : Item), place = ((i : Int), (k : Int)) ∧
      data.items[i]? = some item ∧ k < item.multiplicity := by
  obtain ⟨index, pos⟩ := place
  simp only [Valid, position_iff]
  constructor
  · rintro ⟨item, i, k, rfl, rfl, found, inside⟩
    exact ⟨i, k, item, rfl, found, inside⟩
  · rintro ⟨i, k, item, same, found, inside⟩
    obtain ⟨rfl, rfl⟩ := Prod.mk.inj same
    exact ⟨item, i, k, rfl, rfl, found, inside⟩

/-- The size of the value at a cell. -/
theorem sizeAt_eq (data : Elem) (i k : Nat) (item : Item) (found : data.items[i]? = some item)
    (inside : k < item.multiplicity) : sizeAt data (i, k) = getTypeSize item.type := by
  rw [sizeAt, position_found data.items i k item found inside]
  rfl

/-- The bytes of a value are those of its cell. -/
theorem covers_iff (data : Elem) (laid : Laid data) (i k : Nat) (item : Item)
    (found : data.items[i]? = some item) (inside : k < item.multiplicity) (byte : Int) :
    Covers data (i, k) byte ↔
      (cellOf data i k item : Int) ≤ byte ∧
        byte < cellOf data i k item + getTypeSize item.type := by
  have reached := offset_found data laid i k item found inside
  constructor
  · rintro ⟨place, same, above, below⟩
    have equal := (Prod.mk.inj (Option.some.inj ((same ⟨0, 0⟩).symm.trans (reached ⟨0, 0⟩)))).2
    rw [equal] at above below
    exact ⟨above, below⟩
  · rintro ⟨above, below⟩
    exact ⟨_, reached, above, below⟩

/-- An entry of the description as a field. -/
theorem field_found (items : List Item) (i : Nat) (item : Item) (found : items[i]? = some item) :
    (items.map field)[i]? = some (field item) := by
  rw [List.getElem?_map, found]
  rfl

/-- A cell ends inside the memory of the element. -/
theorem cell_bounded (data : Elem) (laid : Laid data) (i k : Nat) (item : Item)
    (found : data.items[i]? = some item) (inside : k < item.multiplicity) :
    cellOf data i k item + getTypeSize item.type ≤
      data.data.length := by
  rw [laid.covered]
  exact cell_inside _ i k (field item) (field_found data.items i item found) inside

/-- Values at different places have no byte in common. -/
theorem places_disjoint (data : Elem) (laid : Laid data) (place other : Int × Int)
    (valid : Valid data place) (second : Valid data other) (different : place ≠ other) (byte : Int) :
    ¬ (Covers data place byte ∧ Covers data other byte) := by
  obtain ⟨i, k, item, rfl, found, inside⟩ := (valid_iff data place).mp valid
  obtain ⟨j, l, next, rfl, there, within⟩ := (valid_iff data other).mp second
  rw [covers_iff data laid i k item found inside, covers_iff data laid j l next there within]
  have apart := cell_apart (data.items.map field) i j k l (field item) (field next)
    (field_found _ i item found) (field_found _ j next there) inside within
    (by rintro ⟨rfl, rfl⟩; exact different rfl)
  simp only [field] at apart
  simp only [cellOf]
  omega

/-- The values have all bytes of the element, and no others. The items lie one behind
the other, and so do the values of each. -/
theorem places_cover (data : Elem) (laid : Laid data) (byte : Int) :
    (0 ≤ byte ∧ byte < data.data.length) ↔ ∃ place, Valid data place ∧ Covers data place byte := by
  constructor
  · rintro ⟨natural, below⟩
    obtain ⟨number, rfl⟩ := Int.eq_ofNat_of_zero_le natural
    have inside : number < total (data.items.map field) := by
      rw [← laid.covered]
      omega
    obtain ⟨i, k, entry, found, within, above, under⟩ := cell_exists _ number inside
    rw [List.getElem?_map, Option.map_eq_some_iff] at found
    obtain ⟨item, found, rfl⟩ := found
    refine ⟨(i, k), (valid_iff data _).mpr ⟨i, k, item, rfl, found, within⟩, ?_⟩
    rw [covers_iff data laid i k item found within]
    simp only [field] at above under
    rw [cellOf]
    omega
  · rintro ⟨place, valid, covers⟩
    obtain ⟨i, k, item, rfl, found, inside⟩ := (valid_iff data place).mp valid
    rw [covers_iff data laid i k item found inside] at covers
    have bounded := cell_bounded data laid i k item found inside
    omega

/-- A value of the right size is stored in its cell. -/
theorem set_found (data : Elem) (laid : Laid data) (i k : Nat) (item : Item)
    (found : data.items[i]? = some item) (inside : k < item.multiplicity) (value : List UInt8)
    (long : getTypeSize item.type ≤ value.length) (out : Found) :
    dmSetValue data i k value (getTypeSize item.type) out = some (retOk,
      { data with
        data := store data.data (cellOf data i k item) (value.take (getTypeSize item.type)) }) := by
  have copied := memcpy_eq data.data value (cellOf data i k item) 0 (getTypeSize item.type)
    (cell_bounded data laid i k item found inside) (by omega)
  rw [dmSetValue, offset_found data laid i k item found inside out, Option.bind_eq_bind,
    Option.bind_some]
  change (if retOk ≠ 0 then _ else _) = _
  rw [if_pos (by decide), if_pos rfl]
  rw [show ((0 : Nat) : Int) = 0 from rfl] at copied
  rw [copied]
  rfl

/-- A buffer that is large enough gets the bytes of the cell. -/
theorem get_found (data : Elem) (laid : Laid data) (i k : Nat) (item : Item)
    (found : data.items[i]? = some item) (inside : k < item.multiplicity) (value : List UInt8)
    (size : Int) (enough : (getTypeSize item.type : Int) ≤ size) (room : size ≤ value.length)
    (out : Found) :
    dmGetValue data i k value size out = some ((getTypeSize item.type : Int),
      store value 0 (fetch data.data (cellOf data i k item) (getTypeSize item.type))) := by
  have copied := memcpy_eq value data.data 0 (cellOf data i k item) (getTypeSize item.type) (by omega)
    (cell_bounded data laid i k item found inside)
  rw [dmGetValue, offset_found data laid i k item found inside out, Option.bind_eq_bind,
    Option.bind_some]
  simp only [show retOk ≠ 0 by decide, ne_eq, not_false_eq_true, if_true, if_pos enough]
  rw [show ((0 : Nat) : Int) = 0 from rfl] at copied
  rw [copied]
  rfl

/-- Reading a value depends on its bytes only. -/
theorem get_congr (data other : Elem) (laid : Laid data) (same : SameShape data other)
    (i k : Nat) (item : Item) (found : data.items[i]? = some item)
    (inside : k < item.multiplicity)
    (bytes : fetch other.data (cellOf data i k item) (getTypeSize item.type) =
      fetch data.data (cellOf data i k item) (getTypeSize item.type))
    (value : List UInt8) (size : Int) (out : Found) :
    dmGetValue other i k value size out = dmGetValue data i k value size out := by
  have reached := offset_found data laid i k item found inside out
  have moved := offset_found other (laid.congr same) i k item (by rw [same.1, found]) inside out
  rw [cellOf, same.1, ← cellOf] at moved
  have copied : memcpy value 0 other.data (cellOf data i k item) (getTypeSize item.type) =
      memcpy value 0 data.data (cellOf data i k item) (getTypeSize item.type) := by
    simp only [memcpy, same.2, Int.toNat_natCast, bytes]
  simp only [dmGetValue, reached, moved, Option.bind_eq_bind, Option.bind_some, copied]

/-- A value that was set is read back, and no other one has changed. The stored bytes
are those the place covers, and places have none in common. -/
theorem set_get (data : Elem) (laid : Laid data) (place : Int × Int) (valid : Valid data place)
    (value : List UInt8) (size : value.length = sizeAt data place) (out : Found) :
    ∃ next, dmSetValue data place.1 place.2 value (sizeAt data place) out = some (retOk, next) ∧
      SameShape data next ∧
      (∀ buffer room out, (sizeAt data place : Int) ≤ room → room ≤ (buffer.length : Int) →
        dmGetValue next place.1 place.2 buffer room out =
          some ((sizeAt data place : Int), store buffer 0 value)) ∧
      ∀ other, Valid data other → other ≠ place → ∀ buffer room out,
        dmGetValue next other.1 other.2 buffer room out =
          dmGetValue data other.1 other.2 buffer room out := by
  obtain ⟨i, k, item, rfl, found, inside⟩ := (valid_iff data place).mp valid
  have width := sizeAt_eq data i k item found inside
  rw [width] at size ⊢
  have bounded := cell_bounded data laid i k item found inside
  have whole : value.take (getTypeSize item.type) = value := List.take_of_length_le (by omega)
  have stored := set_found data laid i k item found inside value (by omega) out
  rw [whole] at stored
  have shape : SameShape data
      { data with data := store data.data (cellOf data i k item) value } :=
    ⟨rfl, store_length _ _ _ (by omega)⟩
  refine ⟨_, stored, shape, ?_, ?_⟩
  · intro buffer room out enough short
    rw [get_found _ (laid.congr shape) i k item found inside buffer room enough short out]
    have back := fetch_store data.data (cellOf data i k item) value (by omega)
    rw [size] at back
    exact congrArg (fun bytes => some ((getTypeSize item.type : Int), store buffer 0 bytes)) back
  · intro other second different buffer room out
    obtain ⟨j, l, next, rfl, there, within⟩ := (valid_iff data other).mp second
    apply get_congr data _ laid shape j l next there within
    apply fetch_store_other _ _ _ _ _ (by omega)
    rw [size]
    exact cell_apart (data.items.map field) j i l k (field next) (field item)
      (field_found _ j next there) (field_found _ i item found) within inside
      (by rintro ⟨rfl, rfl⟩; exact different rfl)

/-- The bytes that a port exchanges with its item. -/
def portBytes (items : List Item) (ports : Nat → List UInt8) (i : Nat) : List UInt8 :=
  (ports i).take (items[i]?.elim 0 Item.size)

/-- A port is as large as its item. -/
def PortsFit (items : List Item) (ports : Nat → List UInt8) : Prop :=
  ∀ i item, items[i]? = some item → (ports i).length = item.size

/-- The bytes of a port that fits are all it has. -/
theorem portBytes_eq (items : List Item) (ports : Nat → List UInt8) (fit : PortsFit items ports)
    (i : Nat) (item : Item) (found : items[i]? = some item) : portBytes items ports i = ports i := by
  rw [portBytes, found]
  exact List.take_of_length_le (Nat.le_of_eq (fit i item found))

/-- So the copied bytes fill the item. -/
theorem portBytes_length (items : List Item) (ports : Nat → List UInt8)
    (fit : PortsFit items ports) (i : Nat) (entry : Field)
    (found : (items.map field)[i]? = some entry) : (portBytes items ports i).length = entry.size := by
  rw [List.getElem?_map, Option.map_eq_some_iff] at found
  obtain ⟨item, found, rfl⟩ := found
  rw [portBytes_eq items ports fit i item found]
  exact fit i item found

/-- How many bytes a turn of either loop copies. An item without values has no valid place,
so that the variables keep what they had, and nothing is copied. -/
theorem turn_count (data : Elem) (laid : Laid data) (i : Nat) (item : Item)
    (found : data.items[i]? = some item) (out : Found) :
    ∃ next, dmGetOffsetAndSize data i 0 out = some (1, next) ∧
      int (next.size * (item.multiplicity : Nat)) = some (item.size : Int) ∧
      (item.size = 0 ∨ next.offset = start (data.items.map field) i) := by
  by_cases values : 0 < item.multiplicity
  · have reached := offset_found data laid i 0 item found values out
    have bounded := field_inside _ i (field item) (field_found _ i item found)
    have short := laid.short
    rw [← laid.covered] at bounded
    have size : (getTypeSize item.type : Int) * (item.multiplicity : Nat) = (item.size : Nat) := by
      rw [Item.size, Int.natCast_mul]
    have same : (field item).size = item.size := rfl
    rw [same] at bounded
    refine ⟨_, reached, ?_, Or.inr ?_⟩
    · change int ((getTypeSize item.type : Int) * (item.multiplicity : Nat)) = _
      rw [size, int_eq _ (by omega) (by omega)]
    · change ((cellOf data i 0 item : Nat) : Int) = _
      rw [cellOf, cell, Nat.zero_mul, Nat.add_zero]
  · have none : item.multiplicity = 0 := by omega
    have outside : position data.items i 0 = Option.none := by
      cases selected : position data.items i 0 with
      | none => rfl
      | some entry =>
        obtain ⟨j, k, same, zero, there, inside⟩ := (position_iff data.items i 0 entry).mp selected
        obtain rfl : i = j := by omega
        obtain rfl := Option.some.inj (found.symm.trans there)
        omega
    refine ⟨out, ?_, ?_, Or.inl ?_⟩
    · rw [dmGetOffsetAndSize, outside]
      rfl
    · rw [none, Item.size, none, Nat.mul_zero]
      change int (out.size * 0) = some 0
      rw [Int.mul_zero, int_eq _ (by omega) (by omega)]
    · rw [Item.size, none, Nat.mul_zero]

/-- One turn of the first loop fills one item, as a whole: it asks for the place of the
first value only, and copies as many bytes as the port has. -/
theorem input_turn (items : List Item) (bytes : List UInt8)
    (laid : Laid { data := bytes, items := items }) (inptr : Nat → List UInt8)
    (fit : PortsFit items inptr) (i : Nat) (item : Item) (found : items[i]? = some item)
    (out : Found) :
    ∃ next, assignInputItem items inptr (bytes, out) i = some
      (store bytes (start (items.map field) i) (portBytes items inptr i), next) := by
  obtain ⟨next, reached, count, place⟩ := turn_count _ laid i item found out
  have size := fit i item found
  have bounded := field_inside _ i (field item) (field_found items i item found)
  rw [← laid.covered] at bounded
  have same : (field item).size = item.size := rfl
  rw [same] at bounded
  have taken : fetch (inptr i) 0 item.size = inptr i := by
    rw [fetch, List.drop_zero, ← size, List.take_length]
  have copied : memcpy bytes next.offset (inptr i) 0 item.size =
      some (store bytes (start (items.map field) i) (inptr i)) := by
    cases place with
    | inl none =>
      have empty : inptr i = [] := List.length_eq_zero_iff.mp (by rw [size, none])
      rw [none, empty, store_nil]
      rfl
    | inr here =>
      have whole := memcpy_eq bytes (inptr i) (start (items.map field) i) 0 item.size bounded
        (by omega)
      rw [taken] at whole
      rw [here]
      exact whole
  refine ⟨next, ?_⟩
  rw [assignInputItem, reached, Option.bind_eq_bind, Option.bind_some]
  change (if (1 : Int) ≠ 0 then _ else _) = _
  rw [if_pos (by decide), found]
  change (int (next.size * (item.multiplicity : Nat))).bind _ = _
  rw [count, Option.bind_some, copied, portBytes_eq items inptr fit i item found]
  rfl

/-- The first loop fills the items one after the other. -/
theorem input_loop (items : List Item) (bytes : List UInt8)
    (laid : Laid { data := bytes, items := items }) (inptr : Nat → List UInt8)
    (fit : PortsFit items inptr) (out : Found) (count : Nat) (few : count ≤ items.length) :
    ∃ next, (List.range count).foldlM (assignInputItem items inptr) (bytes, out) = some
      (fill (items.map field) (portBytes items inptr) count bytes, next) := by
  induction count with
  | zero => exact ⟨out, rfl⟩
  | succ count inductionHypothesis =>
    obtain ⟨next, before⟩ := inductionHypothesis (Nat.le_of_succ_le few)
    have length := fill_length (items.map field) (portBytes items inptr) bytes laid.covered
      (portBytes_length items inptr fit) count (by rw [List.length_map]; omega)
    have kept : Laid { data := fill (items.map field) (portBytes items inptr) count bytes
                       items := items } :=
      laid.congr ⟨rfl, length.trans laid.covered.symm⟩
    obtain ⟨last, turned⟩ := input_turn items _ kept inptr fit count _
      (List.getElem?_eq_getElem few) next
    refine ⟨last, ?_⟩
    rw [List.range_succ, List.foldlM_append, before, Option.bind_eq_bind, Option.bind_some,
      List.foldlM_cons, turned, fill_succ]
    rfl

/-- The first loop does what the model of the block says. -/
theorem assignInputData_eq (input : Elem) (laid : Laid input) (inptr : Nat → List UInt8)
    (fit : PortsFit input.items inptr) (out : Found) :
    assignInputData input inptr out = some (Smcube.assignInputData input inptr) ∧
      (Smcube.assignInputData input inptr).data =
        fill (input.items.map field) (portBytes input.items inptr) input.items.length
          input.data := by
  have start_eq : ∀ i, getOffset input.items i = start (input.items.map field) i := fun i => by
    rw [← start_take, total_items, getOffset]
  have filled : (Smcube.assignInputData input inptr).data =
      fill (input.items.map field) (portBytes input.items inptr) input.items.length
        input.data := by
    simp only [Smcube.assignInputData, start_eq]
    rfl
  obtain ⟨next, looped⟩ := input_loop input.items input.data laid inptr fit out _ (Nat.le_refl _)
  refine ⟨?_, filled⟩
  rw [assignInputData, looped, ← filled]
  rfl

/-- One turn of the second loop gives one port its item, and leaves the other ports alone. -/
theorem output_turn (output : Elem) (laid : Laid output) (ports : Nat → List UInt8) (i : Nat)
    (item : Item) (found : output.items[i]? = some item) (fit : (ports i).length = item.size)
    (out : Found) :
    ∃ next, assignOutputItem output (ports, out) i = some
      (Function.update ports i (fetch output.data (start (output.items.map field) i) item.size),
        next) := by
  obtain ⟨next, reached, count, place⟩ := turn_count _ laid i item found out
  have bounded := field_inside _ i (field item) (field_found output.items i item found)
  rw [← laid.covered] at bounded
  have same : (field item).size = item.size := rfl
  rw [same] at bounded
  have copied : memcpy (ports i) 0 output.data next.offset item.size =
      some (fetch output.data (start (output.items.map field) i) item.size) := by
    cases place with
    | inl none =>
      have empty : ports i = [] := List.length_eq_zero_iff.mp (by rw [fit, none])
      rw [none, empty, fetch, List.take_zero]
      rfl
    | inr here =>
      have whole := memcpy_eq (ports i) output.data 0 (start (output.items.map field) i)
        item.size (by omega) bounded
      rw [store_all _ _ (fit.trans (fetch_length _ _ _ bounded).symm)] at whole
      rw [here]
      exact whole
  refine ⟨next, ?_⟩
  rw [assignOutputItem, reached, Option.bind_eq_bind, Option.bind_some]
  change (if (1 : Int) ≠ 0 then _ else _) = _
  rw [if_pos (by decide), found]
  change (int (next.size * (item.multiplicity : Nat))).bind _ = _
  rw [count, Option.bind_some, copied]
  rfl

/-- The second loop gives the ports their items one after the other. By induction on the
turns, with the ports that have had theirs. -/
theorem output_loop (output : Elem) (laid : Laid output) (outptr : Nat → List UInt8)
    (fit : PortsFit output.items outptr) (out : Found) (count : Nat)
    (few : count ≤ output.items.length) :
    ∃ next ports, (List.range count).foldlM (assignOutputItem output) (outptr, out) =
        some (ports, next) ∧
      (∀ i item, output.items[i]? = some item → i < count →
        ports i = fetch output.data (start (output.items.map field) i) item.size) ∧
      ∀ i, count ≤ i → ports i = outptr i := by
  induction count with
  | zero => exact ⟨out, outptr, rfl, fun i _ _ impossible => absurd impossible (Nat.not_lt_zero i),
      fun _ _ => rfl⟩
  | succ count inductionHypothesis =>
    obtain ⟨next, ports, before, filled, others⟩ := inductionHypothesis (Nat.le_of_succ_le few)
    have here := List.getElem?_eq_getElem few
    obtain ⟨last, turned⟩ := output_turn output laid ports count _ here
      (by rw [others count (Nat.le_refl _)]; exact fit count _ here) next
    refine ⟨last, Function.update ports count
      (fetch output.data (start (output.items.map field) count) output.items[count].size),
      ?_, ?_, ?_⟩
    · rw [List.range_succ, List.foldlM_append, before, Option.bind_eq_bind, Option.bind_some,
        List.foldlM_cons, turned]
      rfl
    · intro i item found inside
      by_cases same : i = count
      · subst same
        obtain rfl := Option.some.inj (here.symm.trans found)
        rw [Function.update_self]
      · rw [Function.update_of_ne same]
        exact filled i item found (by omega)
    · intro i beyond
      rw [Function.update_of_ne (by omega)]
      exact others i (by omega)

/-- Ports that are copied in reach the ports of an element of equal description which gets
the bytes. -/
theorem ports_copied (input output : Elem) (laid : Laid input) (same : SameShape input output)
    (inptr outptr : Nat → List UInt8) (fit : PortsFit input.items inptr)
    (room : PortsFit input.items outptr) (out other : Found) :
    ∃ filled ports, assignInputData input inptr out = some filled ∧ SameShape input filled ∧
      assignOutputData { output with data := filled.data } outptr other = some ports ∧
      ∀ i, i < input.items.length → ports i = inptr i := by
  obtain ⟨assigned, bytes⟩ := assignInputData_eq input laid inptr fit out
  have length := fill_length (input.items.map field) (portBytes input.items inptr) input.data
    laid.covered (portBytes_length input.items inptr fit) input.items.length
    (by simp)
  have shape : SameShape input (Smcube.assignInputData input inptr) :=
    ⟨rfl, by rw [bytes, length, laid.covered]⟩
  have moved : SameShape input
      { output with data := (Smcube.assignInputData input inptr).data } := ⟨same.1, shape.2⟩
  obtain ⟨next, ports, looped, copied, -⟩ := output_loop _ (laid.congr moved) outptr
    (by rw [moved.1]; exact room) other _ (Nat.le_refl _)
  refine ⟨_, ports, assigned, shape, ?_, ?_⟩
  · rw [assignOutputData, looped]
    rfl
  · intro i inside
    have found := List.getElem?_eq_getElem inside
    rw [copied i input.items[i] (by rw [moved.1, found]) (by rw [moved.1]; exact inside), moved.1,
      bytes, ← portBytes_eq input.items inptr fit i _ found]
    exact fetch_fill (input.items.map field) (portBytes input.items inptr) input.data laid.covered
      (portBytes_length input.items inptr fit) input.items.length (by simp) i
      (field input.items[i]) (field_found _ i _ found) inside

/-- What an element and the elements of its shape are for: the values lie beside each other
and have all bytes of the element, a value that was set is read back and no other one has
changed, and what is copied from the ports of one element into those of another arrives as
it was. -/
structure Laws (built : Elem) : Prop where
  found : ∀ place, Valid built place → ∃ offset : Nat, ∀ out,
    dmGetOffsetAndSize built place.1 place.2 out = some (retOk, ⟨offset, sizeAt built place⟩)
  disjoint : ∀ place other, Valid built place → Valid built other → place ≠ other → ∀ byte,
    ¬ (Covers built place byte ∧ Covers built other byte)
  covered : ∀ byte : Int, (0 ≤ byte ∧ byte < built.data.length) ↔
    ∃ place, Valid built place ∧ Covers built place byte
  readBack : ∀ data, SameShape built data → ∀ place, Valid data place → ∀ value : List UInt8,
    value.length = sizeAt data place → ∀ out, ∃ next,
      dmSetValue data place.1 place.2 value (sizeAt data place) out = some (retOk, next) ∧
      SameShape built next ∧
      (∀ buffer room out, (sizeAt data place : Int) ≤ room → room ≤ (buffer.length : Int) →
        dmGetValue next place.1 place.2 buffer room out =
          some ((sizeAt data place : Int), store buffer 0 value)) ∧
      ∀ other, Valid data other → other ≠ place → ∀ buffer room out,
        dmGetValue next other.1 other.2 buffer room out =
          dmGetValue data other.1 other.2 buffer room out
  copied : ∀ input output, SameShape built input → SameShape built output →
    ∀ inptr outptr, PortsFit built.items inptr → PortsFit built.items outptr → ∀ out other,
      ∃ filled ports, assignInputData input inptr out = some filled ∧ SameShape built filled ∧
        assignOutputData { output with data := filled.data } outptr other = some ports ∧
        ∀ i, i < built.items.length → ports i = inptr i

/-- The bytes of the first items of a description. -/
def descriptionSize (types : List ItemType) (multiplicities : List Nat) (count : Nat) : Nat :=
  (List.zipWith (fun type multiplicity => getTypeSize type * multiplicity) (types.take count)
    (multiplicities.take count)).sum

/-- An element is the one that a description asks for: it has the item types with their
multiplicities in their order, the valid places are those below the multiplicities, a value
is as large as its type and lies behind the values before it, and the data are as long as
all values together. -/
structure Describes (types : List ItemType) (multiplicities : List Nat) (built : Elem) : Prop where
  items : built.items = (types.zip multiplicities).map fun entry => ⟨entry.1, entry.2⟩
  valid_iff : ∀ place, Valid built place ↔ ∃ (i k : Nat) (type : ItemType) (multiplicity : Nat),
    place = ((i : Int), (k : Int)) ∧ types[i]? = some type ∧
      multiplicities[i]? = some multiplicity ∧ k < multiplicity
  found : ∀ (i k : Nat) type multiplicity, types[i]? = some type →
    multiplicities[i]? = some multiplicity → k < multiplicity → ∀ out,
      dmGetOffsetAndSize built i k out = some (retOk,
        ⟨(descriptionSize types multiplicities i + k * getTypeSize type : Nat),
          (getTypeSize type : Nat)⟩)
  size : built.data.length = descriptionSize types multiplicities types.length

/-- Both lists of a description, item by item. -/
theorem item_iff (types : List ItemType) (multiplicities : List Nat) (i : Nat) (item : Item) :
    (dmCreateElem types multiplicities).items[i]? = some item ↔
      types[i]? = some item.type ∧ multiplicities[i]? = some item.multiplicity := by
  obtain ⟨type, multiplicity⟩ := item
  simp only [dmCreateElem, List.getElem?_map, Option.map_eq_some_iff, List.getElem?_zip_eq_some,
    Item.mk.injEq, Prod.exists]
  constructor
  · rintro ⟨_, _, both, rfl, rfl⟩
    exact both
  · exact fun both => ⟨type, multiplicity, both, rfl, rfl⟩

/-- The bytes of the first items, as the layout counts them. -/
theorem descriptionSize_eq (types : List ItemType) (multiplicities : List Nat) (count : Nat) :
    descriptionSize types multiplicities count =
      start ((dmCreateElem types multiplicities).items.map field) count := by
  simp only [descriptionSize, start, dmCreateElem, List.zip, List.take_zipWith, List.map_zipWith]
  rfl

/-- `dm_create_elem` makes the element that its arguments describe. -/
theorem dmCreateElem_describes (types : List ItemType) (multiplicities : List Nat)
    (same : multiplicities.length = types.length)
    (short : (descriptionSize types multiplicities types.length : Int) < 2147483648) :
    Laid (dmCreateElem types multiplicities) ∧
      Describes types multiplicities (dmCreateElem types multiplicities) := by
  have whole : (dmCreateElem types multiplicities).data.length =
      descriptionSize types multiplicities types.length := by
    have all : (dmCreateElem types multiplicities).items.length = types.length := by
      simp [dmCreateElem, same]
    rw [descriptionSize_eq, ← all, ← List.length_map field, start_length, total_items, dmCreateElem,
      List.length_replicate]
  have laid := dmCreateElem_laid types multiplicities (whole ▸ short)
  refine ⟨laid, rfl, fun place => ?_, fun i k type multiplicity typed many inside out => ?_, whole⟩
  · rw [valid_iff]
    constructor
    · rintro ⟨i, k, item, rfl, found, inside⟩
      obtain ⟨typed, many⟩ := (item_iff types multiplicities i item).mp found
      exact ⟨i, k, item.type, item.multiplicity, rfl, typed, many, inside⟩
    · rintro ⟨i, k, type, multiplicity, rfl, typed, many, inside⟩
      exact ⟨i, k, ⟨type, multiplicity⟩, rfl, (item_iff types multiplicities i _).mpr ⟨typed, many⟩,
        inside⟩
  · have found := (item_iff types multiplicities i ⟨type, multiplicity⟩).mpr ⟨typed, many⟩
    rw [offset_found _ laid i k _ found inside out, cellOf, cell, descriptionSize_eq]

/-- `dm_create_elem` makes the element that its types and multiplicities describe, and
the laws hold of it. The sizes together are an `int`; nothing is asked of the memory,
which may hold anything. A place is found by adding up the items before it, and as the
items lie in a row the values cannot overlap. -/
theorem data_model_laws (types : List ItemType) (multiplicities : List Nat)
    (same : multiplicities.length = types.length)
    (short : (descriptionSize types multiplicities types.length : Int) < 2147483648) :
    Describes types multiplicities (dmCreateElem types multiplicities) ∧
      Laws (dmCreateElem types multiplicities) := by
  obtain ⟨laid, describes⟩ := dmCreateElem_describes types multiplicities same short
  refine ⟨describes, fun place valid => ?_, places_disjoint _ laid, places_cover _ laid,
    fun data same place valid value size out => ?_,
    fun input output same other inptr outptr fit room out another => ?_⟩
  · obtain ⟨i, k, item, rfl, found, inside⟩ := (valid_iff _ place).mp valid
    rw [sizeAt_eq _ i k item found inside]
    exact ⟨_, offset_found _ laid i k item found inside⟩
  · obtain ⟨next, stored, shape, back, others⟩ :=
      set_get data (laid.congr same) place valid value size out
    exact ⟨next, stored, ⟨shape.1.trans same.1, shape.2.trans same.2⟩, back, others⟩
  · have equal : SameShape input output :=
      ⟨other.1.trans same.1.symm, other.2.trans same.2.symm⟩
    obtain ⟨filled, ports, assigned, shape, copied, arrived⟩ := ports_copied input output
      (laid.congr same) equal inptr outptr (by rw [same.1]; exact fit) (by rw [same.1]; exact room)
      out another
    exact ⟨filled, ports, assigned, ⟨shape.1.trans same.1, shape.2.trans same.2⟩, copied,
      by rw [← same.1]; exact arrived⟩

/-- Two characters, no words and three doubles. -/
theorem doubles_laws :
    Describes [.int8, .uint8, .int16, .real] [1, 1, 0, 3]
        (dmCreateElem [.int8, .uint8, .int16, .real] [1, 1, 0, 3]) ∧
      Laws (dmCreateElem [.int8, .uint8, .int16, .real] [1, 1, 0, 3]) :=
  data_model_laws _ _ rfl (by decide)

/-- A function that reports errors returns zero on an error and leaves the data of its
caller as it was, and otherwise returns more. -/
def Reports {α : Type} (result : Option (Int × α)) (before : α) (right : Prop) : Prop :=
  ∃ ret after, result = some (ret, after) ∧
    (right → 0 < ret) ∧ (¬ right → ret = 0 ∧ after = before)

/-- `dm_get_offset_and_size` reports bad places, whatever its caller's variables hold. -/
def OffsetReports (data : Elem) (place : Int × Int) : Prop :=
  ∀ out, ∃ ret found, dmGetOffsetAndSize data place.1 place.2 out = some (ret, found) ∧
    (Valid data place → 0 < ret) ∧ (¬ Valid data place → ret = 0)

/-- `dm_get_value` reports bad places and buffers that are too small. -/
def GetReports (data : Elem) (place : Int × Int) (value : List UInt8) (size : Int) : Prop :=
  ∀ out, Reports (dmGetValue data place.1 place.2 value size out) value
    (Valid data place ∧ (sizeAt data place : Int) ≤ size)

/-- `dm_set_value` reports bad places and values of another size. -/
def SetReports (data : Elem) (place : Int × Int) (value : List UInt8) (size : Int) : Prop :=
  ∀ out, Reports (dmSetValue data place.1 place.2 value size out) data
    (Valid data place ∧ (sizeAt data place : Int) = size)

/-- At a bad place the caller's variables stay, and the function returns the number that
otherwise means success. -/
theorem offset_missing (data : Elem) (place : Int × Int) (bad : ¬ Valid data place) (out : Found) :
    dmGetOffsetAndSize data place.1 place.2 out = some (1, out) := by
  have outside : position data.items place.1 place.2 = none := by
    cases selected : position data.items place.1 place.2 with
    | none => rfl
    | some item => exact absurd ⟨item, selected⟩ bad
  rw [dmGetOffsetAndSize, outside]
  rfl

/-- Wherever `dm_get_offset_and_size` returns at all, it returns 1. -/
theorem offset_returns (data : Elem) (laid : Laid data) (place : Int × Int) (out : Found) :
    ∃ found, dmGetOffsetAndSize data place.1 place.2 out = some (1, found) := by
  by_cases valid : Valid data place
  · obtain ⟨i, k, item, rfl, found, inside⟩ := (valid_iff data place).mp valid
    exact ⟨_, offset_found data laid i k item found inside out⟩
  · exact ⟨_, offset_missing data place valid out⟩

/-- What `dm_get_value` returns is the size that its variable holds. -/
theorem get_returns (data : Elem) (index pos : Int) (value after : List UInt8) (size ret : Int)
    (out found : Found) (reached : dmGetOffsetAndSize data index pos out = some (1, found))
    (returned : dmGetValue data index pos value size out = some (ret, after)) :
    ret = found.size := by
  rw [dmGetValue, reached, Option.bind_eq_bind, Option.bind_some] at returned
  simp only [show (1 : Int) ≠ 0 by decide, ne_eq, not_false_eq_true, if_true] at returned
  by_cases enough : found.size ≤ size
  · rw [if_pos enough] at returned
    cases copied : memcpy value 0 data.data found.offset found.size with
    | none =>
      rw [copied] at returned
      cases returned
    | some bytes =>
      rw [copied] at returned
      exact (Prod.mk.inj (Option.some.inj returned)).1.symm
  · rw [if_neg enough] at returned
    exact (Prod.mk.inj (Option.some.inj returned)).1.symm

/-- What `dm_set_value` returns is 1. -/
theorem set_returns (data next : Elem) (index pos : Int) (value : List UInt8) (size ret : Int)
    (out found : Found) (reached : dmGetOffsetAndSize data index pos out = some (1, found))
    (returned : dmSetValue data index pos value size out = some (ret, next)) : ret = 1 := by
  rw [dmSetValue, reached, Option.bind_eq_bind, Option.bind_some] at returned
  simp only [show (1 : Int) ≠ 0 by decide, ne_eq, not_false_eq_true, if_true] at returned
  by_cases equal : found.size = size
  · rw [if_pos equal, Option.map_eq_some_iff] at returned
    obtain ⟨bytes, -, same⟩ := returned
    exact (Prod.mk.inj same).1.symm
  · rw [if_neg equal] at returned
    exact (Prod.mk.inj (Option.some.inj returned)).1.symm

/-- Bad places are not reported: `RET_FAIL` is 1 like `RET_OK`, so the call says that
all is well with whatever the caller's variables hold. -/
theorem offset_reports_iff (data : Elem) (laid : Laid data) (place : Int × Int) :
    OffsetReports data place ↔ Valid data place := by
  constructor
  · intro reports
    apply Classical.byContradiction
    intro bad
    obtain ⟨ret, found, returned, -, zero⟩ := reports ⟨0, 0⟩
    rw [offset_missing data place bad] at returned
    have one := (Prod.mk.inj (Option.some.inj returned)).1
    rw [zero bad] at one
    cases one
  · intro valid out
    obtain ⟨i, k, item, rfl, found, inside⟩ := (valid_iff data place).mp valid
    exact ⟨retOk, _, offset_found data laid i k item found inside out, fun _ => by decide,
      fun bad => absurd valid bad⟩

/-- Nor are they by `dm_get_value`, and neither are small buffers: the tests that fail
return 1, which says that one byte was read. -/
theorem get_reports_iff (data : Elem) (laid : Laid data) (place : Int × Int)
    (value : List UInt8) (size : Int) (room : size ≤ value.length) :
    GetReports data place value size ↔ Valid data place ∧ (sizeAt data place : Int) ≤ size := by
  constructor
  · intro reports
    apply Classical.byContradiction
    intro error
    -- The caller's variable for the size may hold 1 before the call.
    obtain ⟨ret, after, returned, -, failed⟩ := reports ⟨0, 1⟩
    have zero := (failed error).1
    by_cases valid : Valid data place
    · obtain ⟨i, k, item, rfl, found, inside⟩ := (valid_iff data place).mp valid
      have same := get_returns data i k value after size ret ⟨0, 1⟩ _
        (offset_found data laid i k item found inside ⟨0, 1⟩) returned
      have some := getTypeSize_pos item.type
      simp only at same
      omega
    · have same := get_returns data place.1 place.2 value after size ret ⟨0, 1⟩ _
        (offset_missing data place valid ⟨0, 1⟩) returned
      rw [zero] at same
      cases same
  · rintro ⟨valid, enough⟩ out
    obtain ⟨i, k, item, rfl, found, inside⟩ := (valid_iff data place).mp valid
    have width := sizeAt_eq data i k item found inside
    rw [width] at enough
    refine ⟨_, _, get_found data laid i k item found inside value size enough room out, ?_, ?_⟩
    · have some := getTypeSize_pos item.type
      intro
      omega
    · rw [width]
      exact fun error => absurd ⟨valid, enough⟩ error

/-- Nor by `dm_set_value`, and neither are values of another size. -/
theorem set_reports_iff (data : Elem) (laid : Laid data) (place : Int × Int)
    (value : List UInt8) (size : Int) (room : size ≤ value.length) :
    SetReports data place value size ↔ Valid data place ∧ (sizeAt data place : Int) = size := by
  constructor
  · intro reports
    apply Classical.byContradiction
    intro error
    obtain ⟨ret, after, returned, -, failed⟩ := reports ⟨0, 0⟩
    obtain ⟨found, reached⟩ := offset_returns data laid place ⟨0, 0⟩
    have one := set_returns data after place.1 place.2 value size ret ⟨0, 0⟩ found reached returned
    rw [(failed error).1] at one
    cases one
  · rintro ⟨valid, rfl⟩ out
    obtain ⟨i, k, item, rfl, found, inside⟩ := (valid_iff data place).mp valid
    have width := sizeAt_eq data i k item found inside
    rw [width] at room ⊢
    refine ⟨_, _, set_found data laid i k item found inside value (by omega) out,
      fun _ => by decide, fun error => absurd ⟨valid, rfl⟩ error⟩

/-- The functions on an element of the shape that `dm_create_elem` gives report errors
exactly in the calls that are free of errors: `dm_get_offset_and_size` where the place is
inside the bounds, `dm_get_value` where moreover the value fits into the buffer, and
`dm_set_value` where it has the size of the type. -/
theorem errors_reported_iff (types : List ItemType) (multiplicities : List Nat)
    (short : ((dmCreateElem types multiplicities).data.length : Int) < 2147483648) (data : Elem)
    (same : SameShape (dmCreateElem types multiplicities) data) (place : Int × Int)
    (value : List UInt8) (size : Int) (room : size ≤ value.length) :
    (OffsetReports data place ↔ Valid data place) ∧
      (GetReports data place value size ↔
        Valid data place ∧ (sizeAt data place : Int) ≤ size) ∧
      (SetReports data place value size ↔
        Valid data place ∧ (sizeAt data place : Int) = size) := by
  have laid := (dmCreateElem_laid types multiplicities short).congr same
  exact ⟨offset_reports_iff data laid place, get_reports_iff data laid place value size room,
    set_reports_iff data laid place value size room⟩

/-- A character, two words and three doubles. -/
def mixedElem : Elem := dmCreateElem [.uint8, .int16, .real] [1, 2, 3]

/-- Calls for its second double, in the element as it looks after some writing. -/
theorem mixed_reports :
    (OffsetReports { mixedElem with data := List.replicate 29 255 } (2, 1) ↔
        Valid { mixedElem with data := List.replicate 29 255 } (2, 1)) ∧
      (GetReports { mixedElem with data := List.replicate 29 255 } (2, 1)
          [1, 2, 3, 4, 5, 6, 7, 8] 8 ↔
        Valid { mixedElem with data := List.replicate 29 255 } (2, 1) ∧
          (sizeAt { mixedElem with data := List.replicate 29 255 } (2, 1) : Int) ≤ 8) ∧
      (SetReports { mixedElem with data := List.replicate 29 255 } (2, 1)
          [1, 2, 3, 4, 5, 6, 7, 8] 8 ↔
        Valid { mixedElem with data := List.replicate 29 255 } (2, 1) ∧
          (sizeAt { mixedElem with data := List.replicate 29 255 } (2, 1) : Int) = 8) :=
  errors_reported_iff [.uint8, .int16, .real] [1, 2, 3] (by decide)
    { mixedElem with data := List.replicate 29 255 } ⟨rfl, rfl⟩ (2, 1) _ 8 (by decide)

/-- One character. -/
def oneCharacter : Elem := dmCreateElem [.int8] [1]

/-- Setting a value behind the only item is not reported as an error. -/
theorem second_item_not_reported : ¬ SetReports oneCharacter (1, 0) [7] 1 := by
  intro reports
  obtain ⟨ret, after, returned, -, failed⟩ := reports ⟨0, 1⟩
  have bad : ¬ (Valid oneCharacter (1, 0) ∧ (sizeAt oneCharacter (1, 0) : Int) = 1) := by
    rintro ⟨⟨item, selected⟩, -⟩
    cases selected
  have one : (dmSetValue oneCharacter 1 0 [7] 1 ⟨0, 1⟩).map Prod.fst = some 1 := by decide
  rw [returned, Option.map_some] at one
  rw [(failed bad).1] at one
  cases one

end ScicosFlex.Smcube.DataModel
