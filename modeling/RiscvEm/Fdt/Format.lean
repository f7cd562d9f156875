import RiscvEm.Fdt.Tree

/-
  How a flattened device tree of version 17 is read: the
  header, the memory reservations, and the structure block
  with the names in the strings block. These rules are those
  of the format, not of the serializer.

  Key definitions include:
    * `Header`
    * `Header.Valid`
    * `readNode`
    * `readFdt`
-/

------------------------------------------------------------
-- The Header
------------------------------------------------------------

namespace RiscvEm.Fdt

open ByteCodec

structure Header where
  magic : BitVec 32
  totalSize : BitVec 32
  offDtStruct : BitVec 32
  offDtStrings : BitVec 32
  offMemRsvmap : BitVec 32
  version : BitVec 32
  lastCompVersion : BitVec 32
  bootCpuidPhys : BitVec 32
  sizeDtStrings : BitVec 32
  sizeDtStruct : BitVec 32
  deriving DecidableEq, Repr

def readHeader
    (bs : List Byte) : Option Header := do
  let (magic, bs) ← readBe32 bs
  let (totalSize, bs) ← readBe32 bs
  let (offDtStruct, bs) ← readBe32 bs
  let (offDtStrings, bs) ← readBe32 bs
  let (offMemRsvmap, bs) ← readBe32 bs
  let (version, bs) ← readBe32 bs
  let (lastCompVersion, bs) ← readBe32 bs
  let (bootCpuidPhys, bs) ← readBe32 bs
  let (sizeDtStrings, bs) ← readBe32 bs
  let (sizeDtStruct, _) ← readBe32 bs
  some ⟨magic, totalSize, offDtStruct, offDtStrings,
    offMemRsvmap, version, lastCompVersion, bootCpuidPhys,
    sizeDtStrings, sizeDtStruct⟩

/-
  A version that can be read, and blocks that lie in order,
  aligned and inside `size` bytes.
-/
structure Header.Valid
    (h : Header)
    (size : Nat) : Prop where
  magic : h.magic = 0xD00DFEED
  version : 17 ≤ h.version
  compatible : h.lastCompVersion ≤ 17
  rsvmapAligned : 8 ∣ h.offMemRsvmap.toNat
  structAligned : 4 ∣ h.offDtStruct.toNat
  rsvmap : 40 ≤ h.offMemRsvmap.toNat
  rsvmapEnd : h.offMemRsvmap.toNat + 16 ≤ h.offDtStruct.toNat
  structEnd : h.offDtStruct.toNat + h.sizeDtStruct.toNat ≤
    h.offDtStrings.toNat
  stringsEnd : h.offDtStrings.toNat + h.sizeDtStrings.toNat ≤
    h.totalSize.toNat
  total : h.totalSize.toNat ≤ size

instance
    (h : Header)
    (size : Nat) :
    Decidable (h.Valid size) :=
  decidable_of_iff
    (h.magic = 0xD00DFEED ∧ 17 ≤ h.version ∧
      h.lastCompVersion ≤ 17 ∧ 8 ∣ h.offMemRsvmap.toNat ∧
      4 ∣ h.offDtStruct.toNat ∧ 40 ≤ h.offMemRsvmap.toNat ∧
      h.offMemRsvmap.toNat + 16 ≤ h.offDtStruct.toNat ∧
      h.offDtStruct.toNat + h.sizeDtStruct.toNat ≤
        h.offDtStrings.toNat ∧
      h.offDtStrings.toNat + h.sizeDtStrings.toNat ≤
        h.totalSize.toNat ∧
      h.totalSize.toNat ≤ size)
    ⟨fun ⟨a, b, c, d, e, f, g, i, j, k⟩ =>
      ⟨a, b, c, d, e, f, g, i, j, k⟩,
    fun ⟨a, b, c, d, e, f, g, i, j, k⟩ =>
      ⟨a, b, c, d, e, f, g, i, j, k⟩⟩

end RiscvEm.Fdt

------------------------------------------------------------
-- The Blocks
------------------------------------------------------------

namespace RiscvEm.Fdt

open ByteCodec

structure Reservation where
  address : BitVec 64
  size : BitVec 64
  deriving DecidableEq, Repr

/- One entry of the memory reservation block. -/
def readReservation
    (bs : List Byte) : Option (Reservation × List Byte) := do
  let (addressHigh, bs) ← readBe32 bs
  let (addressLow, bs) ← readBe32 bs
  let (sizeHigh, bs) ← readBe32 bs
  let (sizeLow, bs) ← readBe32 bs
  some (⟨addressHigh ++ addressLow, sizeHigh ++ sizeLow⟩, bs)

/- The entries up to one that is zero. -/
def readReservations :
    Nat → List Byte → Option (List Reservation)
  | 0, _ => none
  | n + 1, bs => do
      let (r, bs) ← readReservation bs
      if r = ⟨0, 0⟩ then
        some []
      else
        let rs ← readReservations n bs
        some (r :: rs)

/- The next token that is not an `FDT_NOP`. -/
def readToken :
    Nat → List Byte → Option (BitVec 32 × List Byte)
  | 0, _ => none
  | n + 1, bs => do
      let (token, rest) ← readBe32 bs
      if token = 4 then readToken n rest
      else some (token, rest)

def nextToken
    (bs : List Byte) : Option (BitVec 32 × List Byte) :=
  readToken bs.length bs

/- What follows an `FDT_PROP`: length, name offset and data. -/
def readProp
    (strings : List Byte)
    (bs : List Byte) : Option (Property × List Byte) := do
  let (len, bs) ← readBe32 bs
  let (nameOff, bs) ← readBe32 bs
  let (data, bs) ← readPadded len.toNat bs
  let name ← cString (strings.drop nameOff.toNat)
  some (⟨name, data⟩, bs)

/- The properties of a node, which come first. -/
def readProps
    (strings : List Byte) :
    Nat → List Byte → Option (List Property × List Byte)
  | 0, _ => none
  | n + 1, bs => do
      let (token, rest) ← nextToken bs
      if token = 3 then
        let (p, rest) ← readProp strings rest
        let (ps, rest) ← readProps strings n rest
        some (p :: ps, rest)
      else
        some ([], bs)

mutual

/- A node, from its `FDT_BEGIN_NODE` to its `FDT_END_NODE`. -/
def readNode
    (strings : List Byte) :
    Nat → List Byte → Option (Node × List Byte)
  | 0, _ => none
  | n + 1, bs => do
      let (token, bs) ← nextToken bs
      if token = 1 then
        let (name, bs) ← readCString bs
        let (props, bs) ← readProps strings bs.length bs
        let (children, bs) ← readNodes strings n bs
        some (.mk name props children, bs)
      else
        none

/- The children of a node and its `FDT_END_NODE`. -/
def readNodes
    (strings : List Byte) :
    Nat → List Byte → Option (List Node × List Byte)
  | 0, _ => none
  | n + 1, bs => do
      let (token, rest) ← nextToken bs
      if token = 2 then
        some ([], rest)
      else
        let (c, bs) ← readNode strings n bs
        let (cs, bs) ← readNodes strings n bs
        some (c :: cs, bs)

end

/- The structure block: one tree, and an `FDT_END` at its end. -/
def readStruct
    (strings : List Byte)
    (bs : List Byte) : Option Node := do
  let (node, bs) ← readNode strings bs.length bs
  let (token, bs) ← nextToken bs
  if token = 9 ∧ bs = [] then some node else none

/- What a flattened device tree holds. -/
structure FlatTree where
  header : Header
  reservations : List Reservation
  root : Node

def readFdt
    (data : Bytes)
    (size : Nat) : Option FlatTree := do
  let header ← readHeader (slice data 0 40)
  if header.Valid size then
    let reservations ← readReservations size
      (slice data header.offMemRsvmap.toNat
        (header.offDtStruct - header.offMemRsvmap).toNat)
    let root ← readStruct
      (slice data header.offDtStrings.toNat
        header.sizeDtStrings.toNat)
      (slice data header.offDtStruct.toNat
        header.sizeDtStruct.toNat)
    some ⟨header, reservations, root⟩
  else
    none

end RiscvEm.Fdt
