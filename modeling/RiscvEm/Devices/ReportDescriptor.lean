import RiscvEm.Lib.ByteCodec

/-
  The report descriptor of a HID device: how the items become
  bytes, and how a driver reads the bytes.

  The width of an item's data is chosen for an unsigned value,
  but a driver reads the logical minimum and maximum as signed.

  Key definitions include:
    * `HIDItem`
    * `generateReportDescriptor`
    * `readItems`
    * `HIDItem.SignClash`

  Key theorems include `report_descriptor_decodes_iff`.
-/

------------------------------------------------------------
-- Items
------------------------------------------------------------

namespace RiscvEm

open ByteCodec

inductive HIDType where
  | main
  | global
  | local
  deriving DecidableEq

/- Tags of different types share their values. -/
inductive HIDTag where
  | input
  | output
  | collection
  | endCollection
  | usagePage
  | logicalMin
  | logicalMax
  | reportSize
  deriving DecidableEq

abbrev HIDTag.reportCount : HIDTag := .output
abbrev HIDTag.usage : HIDTag := .usagePage
abbrev HIDTag.usageMin : HIDTag := .logicalMin
abbrev HIDTag.usageMax : HIDTag := .logicalMax

def HIDType.raw :
    HIDType → BitVec 8
  | .main => 0x00
  | .global => 0x04
  | .local => 0x08

def HIDTag.raw :
    HIDTag → BitVec 8
  | .input => 0x80
  | .output => 0x90
  | .collection => 0xA0
  | .endCollection => 0xC0
  | .usagePage => 0x00
  | .logicalMin => 0x10
  | .logicalMax => 0x20
  | .reportSize => 0x70

structure HIDItem where
  type : HIDType
  tag : HIDTag
  value : BitVec 32
  deriving DecidableEq

namespace HIDItem

/- The item that has no data. -/
def EndsCollection
    (i : HIDItem) : Prop :=
  i.tag = .endCollection ∧ i.type = .main

instance
    (i : HIDItem) :
    Decidable i.EndsCollection :=
  inferInstanceAs (Decidable (_ ∧ _))

/- `bsize_bits` and `bytes_to_write`. -/
def width
    (i : HIDItem) : BitVec 8 × Nat :=
  if i.value ≤ 0xFF then
    (0x01, 1)
  else if i.value ≤ 0xFFFF then
    (0x02, 2)
  else
    (0x03, 4)

/- The bytes of an item. -/
def bytes
    (i : HIDItem) : List Byte :=
  if i.EndsCollection then
    [0xC0]
  else
    (i.tag.raw ||| i.type.raw ||| i.width.1) ::
      (List.range i.width.2).map
        (fun k => (i.value >>> (k * 8)).setWidth 8)

end HIDItem

def generateReportDescriptor
    (items : List HIDItem) : List Byte :=
  items.flatMap HIDItem.bytes

/- `HID_Keyboard::report_descriptor_items`. -/
def keyboardItems : List HIDItem :=
  [ ⟨.global, .usagePage, 0x01⟩,
    ⟨.local, .usage, 0x06⟩,
    ⟨.main, .collection, 0x01⟩,
    ⟨.global, .usagePage, 0x07⟩,
    ⟨.local, .usageMin, 0xE0⟩,
    ⟨.local, .usageMax, 0xE7⟩,
    ⟨.global, .logicalMin, 0⟩,
    ⟨.global, .logicalMax, 1⟩,
    ⟨.global, .reportSize, 1⟩,
    ⟨.global, .reportCount, 8⟩,
    ⟨.main, .input, 0x02⟩,
    ⟨.global, .reportSize, 8⟩,
    ⟨.global, .reportCount, 1⟩,
    ⟨.main, .input, 0x01⟩,
    ⟨.global, .reportSize, 8⟩,
    ⟨.global, .reportCount, 6⟩,
    ⟨.global, .logicalMin, 0⟩,
    ⟨.global, .logicalMax, 255⟩,
    ⟨.local, .usageMin, 0x00⟩,
    ⟨.local, .usageMax, 255⟩,
    ⟨.main, .input, 0x00⟩,
    ⟨.main, .endCollection, 0⟩ ]

end RiscvEm

------------------------------------------------------------
-- The Short Items Of The Format
------------------------------------------------------------

namespace RiscvEm

open ByteCodec

/- What a driver reads. -/
structure HIDEntry where
  type : HIDType
  tag : HIDTag
  value : Int
  deriving DecidableEq

/- The fields of the first byte, from its lowest bits on. -/
def typeOfBits :
    BitVec 2 → Option HIDType
  | 0 => some .main
  | 1 => some .global
  | 2 => some .local
  | _ => none

def tagOfBits :
    BitVec 4 → Option HIDTag
  | 0x8 => some .input
  | 0x9 => some .output
  | 0xA => some .collection
  | 0xC => some .endCollection
  | 0x0 => some .usagePage
  | 0x1 => some .logicalMin
  | 0x2 => some .logicalMax
  | 0x7 => some .reportSize
  | _ => none

def sizeOfBits :
    BitVec 2 → Nat
  | 0 => 0
  | 1 => 1
  | 2 => 2
  | _ => 4

/- The logical minimum and maximum may be negative. -/
def IsSigned
    (type : HIDType)
    (tag : HIDTag) : Prop :=
  type = .global ∧ (tag = .logicalMin ∨ tag = .logicalMax)

instance
    (type : HIDType)
    (tag : HIDTag) :
    Decidable (IsSigned type tag) :=
  inferInstanceAs (Decidable (_ ∧ _))

def readValue
    (type : HIDType)
    (tag : HIDTag)
    (data : List Byte) : Int :=
  if IsSigned type tag then leInt data else leNat data

/- One item off the front of the bytes. -/
def readItem :
    List Byte → Option (HIDEntry × List Byte)
  | [] => none
  | head :: rest => do
      let type ← typeOfBits (head.extractLsb' 2 2)
      let tag ← tagOfBits (head.extractLsb' 4 4)
      let size := sizeOfBits (head.extractLsb' 0 2)
      if rest.length < size then
        none
      else
        some (⟨type, tag, readValue type tag (rest.take size)⟩,
          rest.drop size)

/- Items until no byte is left; each takes at least one. -/
def readItemsFrom :
    Nat → List Byte → Option (List HIDEntry)
  | _, [] => some []
  | 0, _ :: _ => none
  | fuel + 1, bytes => do
      let (entry, rest) ← readItem bytes
      let entries ← readItemsFrom fuel rest
      some (entry :: entries)

def readItems
    (bytes : List Byte) : Option (List HIDEntry) :=
  readItemsFrom bytes.length bytes

namespace HIDItem

/- What a driver has to read for the item. -/
def entry
    (i : HIDItem) : HIDEntry where
  type := i.type
  tag := i.tag
  value := i.value.toNat

/- A value below 2^31, and none where there is no data. -/
structure Proper
    (i : HIDItem) : Prop where
  value : i.value.toNat < 2 ^ 31
  noData : i.EndsCollection → i.value = 0

instance
    (i : HIDItem) :
    Decidable i.Proper :=
  decidable_of_iff
    (i.value.toNat < 2 ^ 31 ∧ (i.EndsCollection → i.value = 0))
    ⟨fun h => ⟨h.1, h.2⟩, fun h => ⟨h.value, h.noData⟩⟩

/- A value that fills its data up to the sign bit. -/
def SignClash
    (i : HIDItem) : Prop :=
  IsSigned i.type i.tag ∧
    (0x80 ≤ i.value.toNat ∧ i.value.toNat ≤ 0xFF ∨
      0x8000 ≤ i.value.toNat ∧ i.value.toNat ≤ 0xFFFF)

end HIDItem

end RiscvEm

------------------------------------------------------------
-- Reading One Item
------------------------------------------------------------

namespace RiscvEm

open ByteCodec

namespace HIDItem

variable {i : HIDItem}

/- The data of the item as a driver reads it. -/
def readBack
    (i : HIDItem) : HIDEntry where
  type := i.type
  tag := i.tag
  value :=
    if i.EndsCollection then
      0
    else
      readValue i.type i.tag (le i.width.2 i.value.toNat)

/- The width is the smallest that holds the value. -/
theorem width_cases
    (i : HIDItem) :
    (i.width = (0x01, 1) ∧ i.value.toNat < 256 ^ 1) ∨
      (i.width = (0x02, 2) ∧ 256 ^ 1 ≤ i.value.toNat ∧
        i.value.toNat < 256 ^ 2) ∨
      (i.width = (0x03, 4) ∧ 256 ^ 2 ≤ i.value.toNat ∧
        i.value.toNat < 256 ^ 4) := by
  have hLt := i.value.isLt
  unfold width
  split
  case isTrue hByte =>
    have hLe : i.value.toNat ≤ 0xFF := BitVec.le_def.mp hByte
    exact Or.inl ⟨rfl, by omega⟩
  case isFalse hByte =>
    have hGt : ¬ i.value.toNat ≤ 0xFF :=
      fun h => hByte (BitVec.le_def.mpr h)
    split
    case isTrue hHalf =>
      have hLe : i.value.toNat ≤ 0xFFFF :=
        BitVec.le_def.mp hHalf
      exact Or.inr (Or.inl ⟨rfl, by omega, by omega⟩)
    case isFalse hHalf =>
      have hGt : ¬ i.value.toNat ≤ 0xFFFF :=
        fun h => hHalf (BitVec.le_def.mpr h)
      exact Or.inr (Or.inr ⟨rfl, by omega, by omega⟩)

/- The value fits its width. -/
theorem value_lt_width
    (i : HIDItem) :
    i.value.toNat < 256 ^ i.width.2 := by
  rcases width_cases i with
    ⟨hWidth, hLt⟩ | ⟨hWidth, -, hLt⟩ | ⟨hWidth, -, hLt⟩
  all_goals
    rw [hWidth]
    exact hLt

/- The three fields of the first byte do not overlap. -/
theorem head_fields
    (type : HIDType)
    (tag : HIDTag)
    (size : BitVec 2) :
    let head := tag.raw ||| type.raw ||| size.setWidth 8
    typeOfBits (head.extractLsb' 2 2) = some type ∧
      tagOfBits (head.extractLsb' 4 4) = some tag ∧
      head.extractLsb' 0 2 = size := by
  revert size
  cases type with
  | main => cases tag <;> decide
  | global => cases tag <;> decide
  | «local» => cases tag <;> decide

/- The size bits of the prefix name it. -/
theorem width_bits
    (i : HIDItem) :
    ∃ size : BitVec 2, i.width.1 = size.setWidth 8 ∧
      sizeOfBits size = i.width.2 := by
  rcases width_cases i with
    ⟨hWidth, -⟩ | ⟨hWidth, -, -⟩ | ⟨hWidth, -, -⟩
  · exact ⟨1, by rw [hWidth]; rfl, by rw [hWidth]; rfl⟩
  · exact ⟨2, by rw [hWidth]; rfl, by rw [hWidth]; rfl⟩
  · exact ⟨3, by rw [hWidth]; rfl, by rw [hWidth]; rfl⟩

/- An item is read by the three fields of its prefix. -/
theorem readItem_of_fields
    {head : Byte}
    {rest : List Byte}
    {type : HIDType}
    {tag : HIDTag}
    {size : Nat}
    (hType : typeOfBits (head.extractLsb' 2 2) = some type)
    (hTag : tagOfBits (head.extractLsb' 4 4) = some tag)
    (hSize : sizeOfBits (head.extractLsb' 0 2) = size)
    (hEnough : size ≤ rest.length) :
    readItem (head :: rest) =
      some (⟨type, tag, readValue type tag (rest.take size)⟩,
        rest.drop size) := by
  unfold readItem
  simp only [hType, hTag, hSize, Option.bind_eq_bind,
    Option.bind_some]
  exact if_neg (not_lt.mpr hEnough)

/-
  An item that was written is read back, perhaps with
  another value.
-/
theorem readItem_bytes
    (i : HIDItem)
    (rest : List Byte) :
    readItem (i.bytes ++ rest) = some (i.readBack, rest) := by
  unfold bytes readBack
  split
  case isTrue hEnd =>
    rw [hEnd.1, hEnd.2]
    exact readItem_of_fields rfl rfl rfl (Nat.zero_le _)
  case isFalse hData =>
    rcases width_bits i with ⟨size, hHead, hSize⟩
    rcases head_fields i.type i.tag size with
      ⟨hType, hTag, hBits⟩
    have hLength := length_le i.width.2 i.value.toNat
    have hEnough : i.width.2 ≤
        (le i.width.2 i.value.toNat ++ rest).length := by
      rw [List.length_append, hLength]
      exact Nat.le_add_right _ _
    rw [map_shift_eq_le, hHead, List.cons_append,
      readItem_of_fields hType hTag
        ((congrArg sizeOfBits hBits).trans hSize) hEnough,
      List.take_left' hLength, List.drop_left' hLength]

/- An item has a prefix at least. -/
theorem bytes_ne_nil
    (i : HIDItem) :
    i.bytes ≠ [] := by
  unfold bytes
  split
  · exact List.cons_ne_nil _ _
  · exact List.cons_ne_nil _ _

end HIDItem

/- The descriptor is read item by item. -/
theorem readItemsFrom_generate
    (items : List HIDItem)
    (fuel : Nat)
    (hFuel : items.length ≤ fuel) :
    readItemsFrom fuel (generateReportDescriptor items) =
      some (items.map HIDItem.readBack) := by
  induction items generalizing fuel with
  | nil =>
      cases fuel with
      | zero => rfl
      | succ fuel => rfl
  | cons i items ih =>
      cases fuel with
      | zero => exact absurd hFuel (Nat.not_succ_le_zero _)
      | succ fuel =>
          have hRest := ih fuel (Nat.le_of_succ_le_succ hFuel)
          have hSplit : generateReportDescriptor (i :: items) =
              i.bytes ++ generateReportDescriptor items :=
            List.flatMap_cons
          have hSome : ∃ head rest,
              generateReportDescriptor (i :: items) =
                head :: rest :=
            List.exists_cons_of_ne_nil (by
              rw [hSplit]
              exact List.append_ne_nil_of_left_ne_nil
                i.bytes_ne_nil _)
          rcases hSome with ⟨head, rest, hCons⟩
          have hRead := i.readItem_bytes
            (generateReportDescriptor items)
          rw [← hSplit, hCons] at hRead
          rw [hCons]
          unfold readItemsFrom
          rw [hRead]
          change (readItemsFrom fuel _).bind _ = _
          rw [hRest]
          rfl

/- No descriptor has more items than bytes. -/
theorem length_le_generate
    (items : List HIDItem) :
    items.length ≤ (generateReportDescriptor items).length := by
  induction items with
  | nil => exact Nat.zero_le _
  | cons i items ih =>
      have hSplit : generateReportDescriptor (i :: items) =
          i.bytes ++ generateReportDescriptor items :=
        List.flatMap_cons
      have hPos := List.length_pos_iff.mpr i.bytes_ne_nil
      rw [hSplit, List.length_append, List.length_cons]
      omega

/- What a driver reads is each item's own data, as it reads. -/
theorem readItems_generate
    (items : List HIDItem) :
    readItems (generateReportDescriptor items) =
      some (items.map HIDItem.readBack) :=
  readItemsFrom_generate items _ (length_le_generate items)

end RiscvEm

------------------------------------------------------------
-- Items That Are Read As They Were Written
------------------------------------------------------------

namespace RiscvEm

open ByteCodec

namespace HIDItem

variable {i : HIDItem}

/- Unsigned values are read as written. -/
theorem readValue_unsigned
    (hUnsigned : ¬ IsSigned i.type i.tag) :
    readValue i.type i.tag (le i.width.2 i.value.toNat) =
      i.value.toNat := by
  unfold readValue
  rw [if_neg hUnsigned, leNat_le,
    Nat.mod_eq_of_lt i.value_lt_width]

/- A signed value is itself unless it fills its sign bit. -/
theorem readValue_signed
    (hSigned : IsSigned i.type i.tag) :
    readValue i.type i.tag (le i.width.2 i.value.toNat) =
        i.value.toNat ↔
      2 * i.value.toNat < 256 ^ i.width.2 := by
  unfold readValue
  rw [if_pos hSigned, leInt_le i.value_lt_width]
  have hPos : 0 < 256 ^ i.width.2 := Nat.pow_pos (by decide)
  split
  case isTrue hLow => exact iff_of_true rfl hLow
  case isFalse hHigh =>
    refine iff_of_false ?_ hHigh
    omega

/- A signed value clashes if its topmost bit is set. -/
theorem signClash_iff
    (hProper : i.Proper)
    (hSigned : IsSigned i.type i.tag) :
    i.SignClash ↔ ¬ 2 * i.value.toNat < 256 ^ i.width.2 := by
  have hTop := hProper.value
  have hOnly : i.SignClash ↔
      (0x80 ≤ i.value.toNat ∧ i.value.toNat ≤ 0xFF ∨
        0x8000 ≤ i.value.toNat ∧ i.value.toNat ≤ 0xFFFF) :=
    and_iff_right hSigned
  rw [hOnly]
  rcases width_cases i with
    ⟨hWidth, hLt⟩ | ⟨hWidth, hGe, hLt⟩ | ⟨hWidth, hGe, hLt⟩
  all_goals
    rw [hWidth]
    dsimp only
    omega

/- Only such items are read differently. -/
theorem readBack_eq_iff
    (hProper : i.Proper) :
    i.readBack = i.entry ↔ ¬ i.SignClash := by
  have hValue : i.readBack = i.entry ↔
      i.readBack.value = i.entry.value :=
    ⟨congrArg HIDEntry.value, fun h => by
      change HIDEntry.mk _ _ _ = HIDEntry.mk _ _ _
      exact congrArg (HIDEntry.mk i.type i.tag) h⟩
  rw [hValue]
  by_cases hEnd : i.EndsCollection
  · have hNot : ¬ IsSigned i.type i.tag := by
      rw [hEnd.1, hEnd.2]
      decide
    have hZero : i.entry.value = 0 := by
      change ((i.value.toNat : Nat) : Int) = 0
      rw [hProper.noData hEnd]
      rfl
    rw [hZero]
    exact iff_of_true (if_pos hEnd) (fun h => hNot h.1)
  · have hRead : i.readBack.value =
        readValue i.type i.tag (le i.width.2 i.value.toNat) :=
      if_neg hEnd
    rw [hRead]
    change _ = ((i.value.toNat : Nat) : Int) ↔ _
    by_cases hSigned : IsSigned i.type i.tag
    · rw [readValue_signed hSigned,
        signClash_iff hProper hSigned, not_not]
    · exact iff_of_true (readValue_unsigned hSigned)
        (fun h => hSigned h.1)

end HIDItem

/-
  A descriptor is read as the items that it was made of exactly
  if no logical minimum or maximum has a value that fills its
  data up to the sign bit.
-/
theorem report_descriptor_decodes_iff
    (items : List HIDItem)
    (hProper : ∀ i ∈ items, i.Proper) :
    readItems (generateReportDescriptor items) =
        some (items.map HIDItem.entry) ↔
      ∀ i ∈ items, ¬ i.SignClash := by
  rw [readItems_generate, Option.some_inj, List.map_inj_left]
  exact forall₂_congr fun i hMem =>
    HIDItem.readBack_eq_iff (hProper i hMem)

/- A descriptor of three items. -/
theorem report_descriptor_decodes_bits :
    readItems (generateReportDescriptor
        [⟨.global, .logicalMin, 0⟩, ⟨.global, .logicalMax, 1⟩,
          ⟨.global, .reportCount, 0x1234⟩]) =
        some [⟨.global, .logicalMin, 0⟩,
          ⟨.global, .logicalMax, 1⟩,
          ⟨.global, .reportCount, 0x1234⟩] := by
  refine (report_descriptor_decodes_iff
    [⟨.global, .logicalMin, 0⟩, ⟨.global, .logicalMax, 1⟩,
      ⟨.global, .reportCount, 0x1234⟩] (by decide)).mpr ?_
  rintro i hMem ⟨-, hClash⟩
  rcases List.mem_cons.mp hMem with rfl | hMem
  · exact absurd hClash (by decide)
  · rcases List.mem_cons.mp hMem with rfl | hMem
    · exact absurd hClash (by decide)
    · rw [List.mem_singleton.mp hMem] at hClash
      exact absurd hClash (by decide)

/-
  The keyboard's own descriptor: its logical maximum of 255 is
  read as -1.
-/
theorem report_descriptor_keyboard :
    readItems (generateReportDescriptor keyboardItems) ≠
        some (keyboardItems.map HIDItem.entry) ∧
      (∀ i ∈ keyboardItems, i.Proper) := by
  constructor
  · decide +kernel
  · decide

end RiscvEm
