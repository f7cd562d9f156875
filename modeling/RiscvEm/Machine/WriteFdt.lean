import RiscvEm.Fdt.RoundTrip
import RiscvEm.Machine.Loader

/-
  The device tree that the machine generates, and its way into
  RAM.

  The buffer has the size of the tree, and the serializer is
  told that it has 4096 bytes.

  Key definitions include:
    * `initFdt`
    * `fdtBytes`
    * `FdtDelivered`

  Key theorems include `fdt_delivered_iff`.
-/

------------------------------------------------------------
-- The Tree Of The Machine
------------------------------------------------------------

namespace RiscvEm

open ByteCodec Fdt

/- The bytes of a string literal. -/
def ascii
    (s : String) : List Byte :=
  s.toList.map (fun c => BitVec.ofNat 8 c.toNat)

/- `"%s@%llx"`. -/
def nameWithAddr
    (name : List Byte)
    (addr : BitVec 64) : List Byte :=
  name ++ ascii "@" ++
    (Nat.toDigits 16 addr.toNat).map
      (fun c => BitVec.ofNat 8 c.toNat)

/- What `init_fdt` is given. -/
structure FdtConfig where
  version : List Byte
  rngSeed : List Byte
  append : List Byte
  memorySize : BitVec 64
  timebase : BitVec 64
  harts : List (BitVec 8)

/-
  The node of a hart. `get_phandle` finds no parent here, and
  returns zero.
-/
def cpuNode
    (id : BitVec 8) : Node :=
  let intc := (((Node.create (ascii "interrupt-controller")
    ).addPropU32 (ascii "#interrupt-cells") 1
    ).addProp (ascii "interrupt-controller") []
    ).addPropStr (ascii "compatible") (ascii "riscv,cpu-intc")
  ((((((((Node.create (nameWithAddr (ascii "cpu")
      (id.setWidth 64))
    ).addPropStr (ascii "device_type") (ascii "cpu")
    ).addPropU32 (ascii "reg") (id.setWidth 32)
    ).addPropU32 (ascii "riscv,cboz-block-size") 64
    ).addPropStr (ascii "compatible") (ascii "riscv")
    ).addPropStr (ascii "riscv,isa") (ascii
      "rv64imafdc_zicsr_zifencei_zicboz_zba_zbb_zbc_zbs")
    ).addPropStr (ascii "mmu-type") (ascii "riscv,none")
    ).addPropStr (ascii "status") (ascii "okay")
    ).addChild intc

def FdtConfig.chosen
    (cfg : FdtConfig) : Node :=
  let node := (Node.create (ascii "chosen")).addPropStr
    (ascii "rng-seed") cfg.rngSeed
  let node :=
    if cfg.append ≠ [] then
      node.addPropStr (ascii "bootargs") cfg.append
    else
      node
  node.addPropStr (ascii "stdout-path")
    (ascii "/soc/uart@10000000")

def FdtConfig.memory
    (cfg : FdtConfig) : Except HostFault Node :=
  ((Node.create (nameWithAddr (ascii "memory") 0x80000000)
    ).addPropStr (ascii "device_type") (ascii "memory")
    ).addPropCells (ascii "reg")
      [0, 0x80000000, (cfg.memorySize >>> 32).setWidth 32,
        cfg.memorySize.setWidth 32] 4

def FdtConfig.cpus
    (cfg : FdtConfig) : Node :=
  cfg.harts.foldl (fun cpus id => cpus.addChild (cpuNode id))
    ((((Node.create (ascii "cpus")
      ).addPropU32 (ascii "#address-cells") 1
      ).addPropU32 (ascii "#size-cells") 0
      ).addPropU32 (ascii "timebase-frequency")
        (cfg.timebase.setWidth 32))

def socNode : Node :=
  ((((Node.create (ascii "soc")
    ).addPropU32 (ascii "#address-cells") 2
    ).addPropU32 (ascii "#size-cells") 2
    ).addPropStr (ascii "compatible") (ascii "simple-bus")
    ).addProp (ascii "ranges") []

/- `Machine::init_fdt`. -/
def initFdt
    (cfg : FdtConfig) : Except HostFault Node := do
  let fdt := ((((Node.create []
    ).addPropU32 (ascii "#address-cells") 2
    ).addPropU32 (ascii "#size-cells") 2
    ).addPropStr (ascii "model") cfg.version
    ).addProp (ascii "compatible")
      (ascii "riscv-virtio" ++ [0] ++ ascii "simple-bus" ++ [0])
  let memory ← cfg.memory
  .ok ((((fdt.addChild cfg.chosen).addChild memory).addChild
    cfg.cpus).addChild socNode)

end RiscvEm

------------------------------------------------------------
-- The Tree In RAM
------------------------------------------------------------

namespace RiscvEm

open ByteCodec Fdt

/-
  The full serialization of a tree: what the serializer writes
  when it is told the size of the tree.
-/
def fdtBytes
    (node : Node) : Except HostFault (List Byte) := do
  let size := sizeOfTree node
  let (_, buffer) ← serialize node
    (some ⟨fun _ => 0, size.toNat⟩) size 0
  match buffer with
  | none => .error .outOfBounds
  | some b => .ok (slice b.data 0 size.toNat)

/- RAM with a block of bytes at an offset. -/
def HoldsAt
    (before after : Bytes)
    (off : Nat)
    (block : List Byte) : Prop :=
  after = window before off (off + block.length) block

/-
  Without a tree from a file, the generated tree is in the
  last 128 KiB of RAM, and the rest of RAM is as before.
-/
def FdtDelivered
    (node : Node)
    (memorySize : BitVec 64) : Prop :=
  ∀ (files : BootFiles) (m : MemoryMap) (r : MemoryRegion),
    files.fdt = node → files.dtb = none →
    m.ramRegion = some r → r.baseAddr = 0x80000000 →
    r.size = memorySize →
    ∃ block m' r', fdtBytes node = .ok block ∧
      m.writeFdt files memorySize = .ok m' ∧
      m'.ramRegion = some r' ∧
      HoldsAt r.data r'.data (memorySize.toNat - 0x20000)
        block

end RiscvEm

------------------------------------------------------------
-- The Serializer And Its Capacity
------------------------------------------------------------

namespace RiscvEm

open ByteCodec Fdt

variable {node : Node}

/- A capacity from the size of the tree on is enough. -/
theorem serialize_enough
    (hNul : node.NulFree)
    (hTotal : totalSize node < 2 ^ 32)
    (b : Buffer)
    (hBuffer : totalSize node ≤ b.size)
    (size : BitVec 64)
    (hSize : totalSize node ≤ size.toNat) :
    ∃ b', serialize node (some b) size 0 =
        .ok (sizeOfTree node, some b') ∧
      b'.data = blobData node b.data 0 := by
  rcases serializeInto_eq b 0 hNul hBuffer hTotal with
    ⟨ctx, hInto, hEmitted⟩
  refine ⟨ctx.buf, ?_, hEmitted.data⟩
  have hEnough : ¬ size < sizeOfTree node := by
    rw [BitVec.not_lt, BitVec.le_def, sizeOfTree_toNat hTotal]
    exact hSize
  unfold serialize
  dsimp only
  change (if size < sizeOfTree node then _ else _) = _
  rw [if_neg hEnough, hInto]
  rfl

/- Otherwise nothing is written, and the size is zero. -/
theorem serialize_short
    (hTotal : totalSize node < 2 ^ 32)
    (b : Buffer)
    (size : BitVec 64)
    (hSize : size.toNat < totalSize node) :
    serialize node (some b) size 0 = .ok (0, some b) := by
  have hShort : size < sizeOfTree node := by
    rw [BitVec.lt_def, sizeOfTree_toNat hTotal]
    exact hSize
  unfold serialize
  dsimp only
  change (if size < sizeOfTree node then _ else _) = _
  rw [if_pos hShort]

/- The blob does not depend on what the buffer held. -/
theorem slice_blobData
    (base : Bytes) :
    slice (blobData node base 0) 0 (totalSize node) =
      slice (blobData node (fun _ => 0) 0) 0
        (totalSize node) := by
  unfold slice
  refine List.map_congr_left fun i hMem => ?_
  have hLt := List.mem_range.mp hMem
  refine window_congr _ _ _ (window_congr _ _ _ ?_)
  rw [window_of_mem _ (Nat.zero_le _) (by omega),
    window_of_mem _ (Nat.zero_le _) (by omega)]

/- The bytes of the blob. -/
def blobBytes
    (node : Node) : List Byte :=
  slice (blobData node (fun _ => 0) 0) 0 (totalSize node)

theorem length_blobBytes
    (node : Node) :
    (blobBytes node).length = totalSize node := by
  unfold blobBytes slice
  rw [List.length_map, List.length_range]

theorem fdtBytes_eq
    (hNul : node.NulFree)
    (hTotal : totalSize node < 2 ^ 32) :
    fdtBytes node = .ok (blobBytes node) := by
  have hSize := sizeOfTree_toNat hTotal
  rcases serialize_enough hNul hTotal
    ⟨fun _ => 0, (sizeOfTree node).toNat⟩
    (Nat.le_of_eq hSize.symm)
    _ (Nat.le_of_eq hSize.symm) with ⟨b, hSerialize, hData⟩
  refine bind_eq_ok.mpr ⟨_, hSerialize, ?_⟩
  dsimp only
  rw [hData, hSize]
  rfl

/- The buffer of `write_fdt`, and the length it passes on. -/
theorem fdtBlob_enough
    (files : BootFiles)
    (hNul : files.fdt.NulFree)
    (hTotal : totalSize files.fdt ≤ 0x1000) :
    fdtBlob files =
      .ok (blobBytes files.fdt, totalSize files.fdt) := by
  have hLt : totalSize files.fdt < 2 ^ 32 := by omega
  have hSize := sizeOfTree_toNat hLt
  rcases serialize_enough hNul hLt
    ⟨files.heap, (sizeOfTree files.fdt).toNat⟩
    (Nat.le_of_eq hSize.symm) 0x1000 hTotal with
      ⟨b, hSerialize, hData⟩
  refine bind_eq_ok.mpr ⟨_, hSerialize, ?_⟩
  dsimp only
  rw [hData, hSize, slice_blobData]
  rfl

theorem fdtBlob_short
    (files : BootFiles)
    (hTotal : totalSize files.fdt < 2 ^ 32)
    (hShort : 0x1000 < totalSize files.fdt) :
    fdtBlob files =
      .ok (slice files.heap 0 (totalSize files.fdt), 0) := by
  have hSerialize := serialize_short hTotal
    ⟨files.heap, (sizeOfTree files.fdt).toNat⟩ 0x1000 hShort
  refine bind_eq_ok.mpr ⟨_, hSerialize, ?_⟩
  dsimp only
  rw [sizeOfTree_toNat hTotal]
  rfl

end RiscvEm

------------------------------------------------------------
-- Raw Images In RAM
------------------------------------------------------------

namespace RiscvEm

open ByteCodec Fdt

variable {m : MemoryMap}
variable {r r' : MemoryRegion}
variable {addr path : BitVec 64}
variable {f : MemoryRegion → Except HostFault MemoryRegion}

/- An image without the magic of ELF is copied as it is. -/
theorem loadBuffer_raw
    (locals : ElfLocals)
    {buf : List Byte}
    (size : Nat)
    {off : Nat}
    (hLen : 4 ≤ buf.length)
    (hMagic : (field (buf.take 4) 0 4).setWidth 32 ≠ ELF_MAGIC)
    (hSize : size ≤ buf.length)
    (hHigh : 0x80000000 ≤ path)
    (hRam : m.ramRegion = some r)
    (hPtr : r.ptr path = .ok off)
    (hFit : off + size ≤ r.size.toNat) :
    ∃ m', m.loadBuffer locals path buf size =
        .ok ⟨true, none, m'⟩ ∧
      m'.ramRegion = some { r with
        data := window r.data off (off + size)
          (buf.take size) } := by
  have hTake : (buf.take size).length = size := by
    rw [List.length_take]
    omega
  have hStart : bufferBytes buf 0 4 = .ok (buf.take 4) := by
    unfold bufferBytes
    rw [if_neg (by decide), if_pos (by omega), List.drop_zero]
  have hBytes : bufferBytes buf 0 size =
      .ok (buf.take size) := by
    unfold bufferBytes
    split
    case isTrue hZero => rw [hZero, List.take_zero]
    case isFalse => rw [if_pos (by omega), List.drop_zero]
  have hCopy : r.memcpy off (buf.take size) = .ok { r with
      data := window r.data off (off + size)
        (buf.take size) } := by
    refine MemoryRegion.memcpy_eq_ok_iff.mpr ⟨Or.inr ?_, ?_⟩
    · rw [hTake]
      exact hFit
    · rw [hTake]
  rcases MemoryMap.updateRegion_ram
    (f := fun r => do
      let off ← r.ptr path
      r.memcpy off (buf.take size)) hHigh hRam
    (bind_eq_ok.mpr ⟨off, hPtr, hCopy⟩) with
      ⟨m', hUpdate, hAfter⟩
  refine ⟨m', ?_, hAfter⟩
  refine bind_eq_ok.mpr ⟨_, hStart, ?_⟩
  rw [if_neg hMagic]
  refine bind_eq_ok.mpr ⟨_, hBytes, ?_⟩
  exact bind_eq_ok.mpr ⟨m', hUpdate, rfl⟩

end RiscvEm

------------------------------------------------------------
-- What Reaches The Guest
------------------------------------------------------------

namespace RiscvEm

open ByteCodec Fdt

variable {node : Node}

/- Where the tree goes, as an offset of RAM. -/
theorem ptr_dtbPath
    {memorySize : BitVec 64}
    {r : MemoryRegion}
    (hBase : r.baseAddr = 0x80000000)
    (hSize : r.size = memorySize)
    (hLow : 0x20000 ≤ memorySize.toNat)
    (hHigh : memorySize.toNat < 2 ^ 63) :
    0x80000000 ≤ dtbPath memorySize ∧
      r.ptr (dtbPath memorySize) =
        .ok (memorySize.toNat - 0x20000) := by
  have hStart : (0x80000000 : BitVec 64).toNat = 0x80000000 :=
    rfl
  have hReserve : (0x20000 : BitVec 64).toNat = 0x20000 := rfl
  have hPath : (dtbPath memorySize).toNat =
      0x80000000 + (memorySize.toNat - 0x20000) := by
    unfold dtbPath
    rw [BitVec.toNat_sub, BitVec.toNat_add, hStart, hReserve]
    omega
  have hOff : (dtbPath memorySize - 0x80000000).toNat =
      memorySize.toNat - 0x20000 := by
    rw [BitVec.toNat_sub, hPath, hStart]
    omega
  have hLe : 0x80000000 ≤ dtbPath memorySize := by
    rw [BitVec.le_def, hPath, hStart]
    omega
  refine ⟨hLe, ?_⟩
  have hContains : r.contains (dtbPath memorySize) = true := by
    unfold MemoryRegion.contains
    rw [hBase, hSize, Bool.and_eq_true, decide_eq_true_iff,
      decide_eq_true_iff]
    refine ⟨hLe, ?_⟩
    rw [BitVec.lt_def, hPath, BitVec.toNat_add, hStart]
    omega
  unfold MemoryRegion.ptr
  rw [if_pos hContains, hBase, hOff]

theorem take_blobBytes
    (node : Node) :
    (blobBytes node).take 4 = be32 FDT_MAGIC := by
  have hTotal : 40 ≤ totalSize node := by
    unfold totalSize
    omega
  unfold blobBytes
  rw [take_slice _ _ (by omega),
    ← take_slice _ _ (by decide : 4 ≤ 40), slice_header]
  rfl

theorem blobBytes_first
    (node : Node) :
    (blobBytes node).getD 0 0 = 0xD0 := by
  have hHead := congrArg (·[0]?) (take_blobBytes node)
  rw [List.getElem?_take_of_lt (by decide)] at hHead
  rw [List.getD_eq_getElem?_getD, hHead]
  rfl

/- Up to the capacity, the tree reaches the guest. -/
theorem fdt_delivered_of_fits
    {memorySize : BitVec 64}
    (hNul : node.NulFree)
    (hTotal : totalSize node ≤ 0x1000)
    (hLow : 0x20000 ≤ memorySize.toNat)
    (hHigh : memorySize.toNat < 2 ^ 63) :
    FdtDelivered node memorySize := by
  rintro files m r rfl hDtb hRam hBase hSize
  have hMin : 40 ≤ totalSize files.fdt := by
    unfold totalSize
    omega
  have hLen := length_blobBytes files.fdt
  rcases ptr_dtbPath hBase hSize hLow hHigh with ⟨hPath, hPtr⟩
  have hMagic : (field ((blobBytes files.fdt).take 4) 0
      4).setWidth 32 ≠ ELF_MAGIC := by
    rw [take_blobBytes]
    decide
  rcases loadBuffer_raw files.locals (totalSize files.fdt)
    (by omega) hMagic
    (Nat.le_of_eq hLen.symm) hPath hRam hPtr
    (by rw [hSize]; omega) with ⟨m', hLoad, hAfter⟩
  refine ⟨blobBytes files.fdt, m', _, ?_, ?_, hAfter, ?_⟩
  · exact fdtBytes_eq hNul (by omega)
  · unfold MemoryMap.writeFdt
    rw [hDtb]
    refine bind_eq_ok.mpr
      ⟨_, fdtBlob_enough files hNul hTotal, ?_⟩
    exact bind_eq_ok.mpr ⟨_, hLoad, rfl⟩
  · unfold HoldsAt
    dsimp only
    rw [← hLen, List.take_length]

/- A machine of RAM that holds zeros. -/
def clearedRam
    (memorySize : BitVec 64) : MemoryMap :=
  { regions := [⟨0x80000000, memorySize, fun _ => 0⟩]
    ramDirect := some 0 }

/- The tree, and memory of the heap that holds zeros. -/
def clearedFiles
    (node : Node) : BootFiles :=
  { bios := []
    kernel := none
    dtb := none
    fdt := node
    locals := ⟨0, 0⟩
    heap := fun _ => 0 }

/- Behind the capacity, nothing is written. -/
theorem fdt_lost_of_short
    {memorySize : BitVec 64}
    (hNul : node.NulFree)
    (hTotal : totalSize node ≤ 0x20000)
    (hShort : 0x1000 < totalSize node)
    (hLow : 0x20000 ≤ memorySize.toNat)
    (hHigh : memorySize.toNat < 2 ^ 63) :
    ¬ FdtDelivered node memorySize := by
  intro hAll
  rcases hAll (clearedFiles node) (clearedRam memorySize) _ rfl
    rfl rfl rfl rfl with
      ⟨block, m', r', hBlock, hWrite, hAfter, hHolds⟩
  rw [fdtBytes_eq hNul (by omega)] at hBlock
  cases hBlock
  rcases ptr_dtbPath (r := ⟨0x80000000, memorySize,
    fun _ => 0⟩) rfl rfl hLow hHigh with ⟨hPath, hPtr⟩
  have hLen : (slice (fun _ => (0 : Byte)) 0
      (totalSize node)).length = totalSize node := by
    unfold slice
    rw [List.length_map, List.length_range]
  have hMagic : (field ((slice (fun _ => 0) 0
      (totalSize node)).take 4) 0 4).setWidth 32 ≠
        ELF_MAGIC := by
    rw [take_slice _ _ (by omega)]
    decide
  have hRam : (clearedRam memorySize).ramRegion =
      some ⟨0x80000000, memorySize, fun _ => 0⟩ := rfl
  rcases loadBuffer_raw ⟨0, 0⟩ 0 (by omega) hMagic
    (Nat.zero_le _) hPath hRam hPtr (by
      change memorySize.toNat - 0x20000 + 0 ≤
        memorySize.toNat
      omega) with ⟨m₁, hLoad, hAfter₁⟩
  have hWrite₁ : (clearedRam memorySize).writeFdt
      (clearedFiles node) memorySize = .ok m₁ := by
    refine bind_eq_ok.mpr ⟨_, fdtBlob_short
      (clearedFiles node) ?_ hShort, ?_⟩
    · change totalSize node < 2 ^ 32
      omega
    · exact bind_eq_ok.mpr ⟨_, hLoad, rfl⟩
  rw [hWrite] at hWrite₁
  cases hWrite₁
  rw [hAfter] at hAfter₁
  cases hAfter₁
  unfold HoldsAt at hHolds
  dsimp only at hHolds
  rw [List.take_zero, Nat.add_zero] at hHolds
  -- the first byte of the blob is not zero
  have hByte := congrFun hHolds (memorySize.toNat - 0x20000)
  have hBlobLen := length_blobBytes node
  have hZero : window (fun _ => 0) (memorySize.toNat - 0x20000)
      (memorySize.toNat - 0x20000) []
      (memorySize.toNat - 0x20000) = 0 :=
    window_of_ge _ (Nat.le_refl _)
  have hFirst : window (fun _ => 0)
      (memorySize.toNat - 0x20000)
      (memorySize.toNat - 0x20000 + (blobBytes node).length)
      (blobBytes node) (memorySize.toNat - 0x20000) = 0xD0 := by
    rw [window_of_mem _ (Nat.le_refl _) (by omega),
      Nat.sub_self]
    exact blobBytes_first node
  rw [hZero, hFirst] at hByte
  exact absurd hByte (by decide)

/-
  The generated tree reaches the guest exactly if it is at
  most 4096 bytes long.
-/
theorem fdt_delivered_iff
    (node : Node)
    (memorySize : BitVec 64)
    (hNul : node.NulFree)
    (hTotal : totalSize node ≤ 0x20000)
    (hLow : 0x20000 ≤ memorySize.toNat)
    (hHigh : memorySize.toNat < 2 ^ 63) :
    FdtDelivered node memorySize ↔
      totalSize node ≤ 0x1000 := by
  constructor
  · intro hAll
    by_contra hShort
    exact fdt_lost_of_short hNul hTotal (not_le.mp hShort)
      hLow hHigh hAll
  · intro hFits
    exact fdt_delivered_of_fits hNul hFits hLow hHigh

end RiscvEm

------------------------------------------------------------
-- Small And Large Machines
------------------------------------------------------------

namespace RiscvEm

open ByteCodec Fdt

theorem nulFree_addPropStr
    {node : Node}
    {name : List Byte}
    (h : node.NulFree)
    (hName : 0 ∉ name)
    (val : List Byte) :
    (node.addPropStr name val).NulFree :=
  h.addProp hName _

theorem nulFree_addPropU32
    {node : Node}
    {name : List Byte}
    (h : node.NulFree)
    (hName : 0 ∉ name)
    (val : BitVec 32) :
    (node.addPropU32 name val).NulFree :=
  h.addProp hName _

theorem cpu_name_nulFree :
    ∀ id : BitVec 8,
      0 ∉ nameWithAddr (ascii "cpu") (id.setWidth 64) := by
  decide +kernel

theorem cpuNode_nulFree
    (id : BitVec 8) :
    (cpuNode id).NulFree := by
  have hIntc : (Node.create
      (ascii "interrupt-controller")).NulFree :=
    Node.nulFree_create (by decide)
  have hCpu := Node.nulFree_create (cpu_name_nulFree id)
  unfold cpuNode
  dsimp only
  refine Node.NulFree.addChild ?_ ?_
  · repeat
      first
      | exact hCpu
      | refine nulFree_addPropStr ?_ (by decide) _
      | refine nulFree_addPropU32 ?_ (by decide) _
  · refine nulFree_addPropStr ?_ (by decide) _
    refine Node.NulFree.addProp ?_ (by decide) _
    exact nulFree_addPropU32 hIntc (by decide) _

theorem foldl_cpus_nulFree
    (ids : List (BitVec 8))
    {node : Node}
    (h : node.NulFree) :
    (ids.foldl (fun cpus id => cpus.addChild (cpuNode id))
      node).NulFree := by
  induction ids generalizing node with
  | nil => exact h
  | cons id ids ih => exact ih (h.addChild (cpuNode_nulFree id))

theorem chosen_nulFree
    (cfg : FdtConfig) :
    cfg.chosen.NulFree := by
  have hChosen : (Node.create (ascii "chosen")).NulFree :=
    Node.nulFree_create (by decide)
  have hSeed : ((Node.create (ascii "chosen")).addPropStr
      (ascii "rng-seed") cfg.rngSeed).NulFree :=
    nulFree_addPropStr hChosen (by decide) _
  unfold FdtConfig.chosen
  dsimp only
  refine nulFree_addPropStr ?_ (by decide) _
  split
  · exact nulFree_addPropStr hSeed (by decide) _
  · exact hSeed

theorem memory_nulFree
    {cfg : FdtConfig}
    {node : Node}
    (h : cfg.memory = .ok node) :
    node.NulFree := by
  have hName : 0 ∉ nameWithAddr (ascii "memory")
      0x80000000 := by
    decide +kernel
  cases h
  refine Node.NulFree.addProp ?_ (by decide) _
  exact nulFree_addPropStr (Node.nulFree_create hName)
    (by decide) _

/- No name in the tree of a machine contains a zero byte. -/
theorem initFdt_nulFree
    {cfg : FdtConfig}
    {node : Node}
    (h : initFdt cfg = .ok node) :
    node.NulFree := by
  rcases bind_eq_ok.mp h with ⟨memory, hMemory, hEq⟩
  cases hEq
  have hRoot : (Node.create []).NulFree :=
    Node.nulFree_create List.not_mem_nil
  have hSoc : (Node.create (ascii "soc")).NulFree :=
    Node.nulFree_create (by decide)
  have hCpus : (Node.create (ascii "cpus")).NulFree :=
    Node.nulFree_create (by decide)
  refine Node.NulFree.addChild (Node.NulFree.addChild
    (Node.NulFree.addChild (Node.NulFree.addChild ?_
      (chosen_nulFree cfg)) (memory_nulFree hMemory)) ?_) ?_
  · refine Node.NulFree.addProp ?_ (by decide) _
    refine nulFree_addPropStr ?_ (by decide) _
    refine nulFree_addPropU32 ?_ (by decide) _
    exact nulFree_addPropU32 hRoot (by decide) _
  · refine foldl_cpus_nulFree _ ?_
    refine nulFree_addPropU32 ?_ (by decide) _
    refine nulFree_addPropU32 ?_ (by decide) _
    exact nulFree_addPropU32 hCpus (by decide) _
  · refine Node.NulFree.addProp ?_ (by decide) _
    refine nulFree_addPropStr ?_ (by decide) _
    refine nulFree_addPropU32 ?_ (by decide) _
    exact nulFree_addPropU32 hSoc (by decide) _

/- A machine of 512 MiB without devices and arguments. -/
def plainMachine
    (harts : Nat) : FdtConfig :=
  { version := ascii "riscv-em"
    rngSeed := ascii "0x00000000 \n"
    append := []
    memorySize := 0x20000000
    timebase := 5000000
    harts := (List.range harts).map (BitVec.ofNat 8) }

theorem one_hart_fdt_delivered :
    ∃ node, initFdt (plainMachine 1) = .ok node ∧
      FdtDelivered node 0x20000000 := by
  have hSize : (initFdt (plainMachine 1)).toOption.map
      totalSize = some 1060 := by
    decide +kernel
  rcases Option.map_eq_some_iff.mp hSize with
    ⟨node, hNode, hTotal⟩
  rw [toOption_eq_some] at hNode
  refine ⟨node, hNode, ?_⟩
  exact (fdt_delivered_iff node 0x20000000
    (initFdt_nulFree hNode) (by omega) (by decide)
    (by decide)).mpr (by omega)

/- With 64 harts nothing is loaded. -/
theorem many_harts_fdt_lost :
    ∃ node, initFdt (plainMachine 64) = .ok node ∧
      totalSize node ≤ 0x20000 ∧
      ¬ FdtDelivered node 0x20000000 := by
  have hSize : (initFdt (plainMachine 64)).toOption.map
      totalSize = some 27520 := by
    decide +kernel
  rcases Option.map_eq_some_iff.mp hSize with
    ⟨node, hNode, hTotal⟩
  rw [toOption_eq_some] at hNode
  refine ⟨node, hNode, by omega, ?_⟩
  exact fdt_lost_of_short (initFdt_nulFree hNode) (by omega)
    (by omega) (by decide) (by decide)

end RiscvEm
