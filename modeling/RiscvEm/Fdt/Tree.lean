import RiscvEm.Lib.ByteCodec
import RiscvEm.Memory.MemoryMap

/-
  The device tree: its nodes, and the serializer that
  flattens it into a buffer.

  Names are byte strings. The parent pointer and the phandle
  of a node are not serialized and are left out.

  Key definitions include:
    * `Node`
    * `getTreeSize`
    * `serTree`
    * `sizeOfTree`
    * `serialize`
-/

------------------------------------------------------------
-- Helpers
------------------------------------------------------------

namespace RiscvEm.Fdt

open ByteCodec

def toBe32
    (v : BitVec 32) : BitVec 32 :=
  ((v &&& 0x000000FF) <<< 24) ||| ((v &&& 0x0000FF00) <<< 8) |||
    ((v &&& 0x00FF0000) >>> 8) ||| ((v &&& 0xFF000000) >>> 24)

def toBe64
    (v : BitVec 64) : BitVec 64 :=
  ((toBe32 (v.setWidth 32)).setWidth 64 <<< 32) |||
    (toBe32 ((v >>> 32).setWidth 32)).setWidth 64

def alignUp
    (v align : BitVec 64) : BitVec 64 :=
  (v + align - 1) &&& ~~~(align - 1)

/- The bytes of a variable on the little-endian host. -/
def hostBytes
    {w : Nat}
    (n : Nat)
    (v : BitVec w) : List Byte :=
  (List.range n).map (fun i => (v >>> (8 * i)).setWidth 8)

/- The bytes of a string before its terminator. -/
def cStr
    (s : List Byte) : List Byte :=
  s.takeWhile (· ≠ 0)

end RiscvEm.Fdt

------------------------------------------------------------
-- Nodes
------------------------------------------------------------

namespace RiscvEm.Fdt

open ByteCodec

structure Property where
  name : List Byte
  data : List Byte
  deriving DecidableEq, Repr

inductive Node where
  | mk
    (name : List Byte)
    (props : List Property)
    (children : List Node)

namespace Node

def name : Node → List Byte
  | .mk name _ _ => name

def props : Node → List Property
  | .mk _ props _ => props

def children : Node → List Node
  | .mk _ _ children => children

def create
    (name : List Byte) : Node :=
  .mk name [] []

def addChild
    (node child : Node) : Node :=
  .mk node.name node.props (node.children ++ [child])

end Node

/- Replace the data of a property, or add the property. -/
def setProp
    (name data : List Byte) : List Property → List Property
  | [] => [⟨name, data⟩]
  | p :: ps =>
      if p.name = name then ⟨name, data⟩ :: ps
      else p :: setProp name data ps

namespace Node

def addProp
    (node : Node)
    (name data : List Byte) : Node :=
  if name = [] then
    node
  else
    .mk node.name (setProp name data node.props) node.children

def addPropU32
    (node : Node)
    (name : List Byte)
    (val : BitVec 32) : Node :=
  node.addProp name (hostBytes 4 (toBe32 val))

def addPropU64
    (node : Node)
    (name : List Byte)
    (val : BitVec 64) : Node :=
  node.addProp name (hostBytes 8 (toBe64 val))

/-
  The buffer has `count * 4` bytes in 32 bits, and as many
  cells are read.
-/
def addPropCells
    (node : Node)
    (name : List Byte)
    (cells : List (BitVec 32))
    (count : BitVec 32) : Except HostFault Node :=
  if count = 0 then
    .ok (node.addProp name [])
  else if count.toNat ≤ cells.length ∧
      count.toNat * 4 < 2 ^ 32 then
    .ok (node.addProp name ((cells.take count.toNat).flatMap
      (fun c => hostBytes 4 (toBe32 c))))
  else
    .error .outOfBounds

def addPropStr
    (node : Node)
    (name val : List Byte) : Node :=
  node.addProp name (val ++ [0])

def addPropReg
    (node : Node)
    (name : List Byte)
    (begin size : BitVec 64) : Node :=
  node.addProp name
    (hostBytes 8 (toBe64 begin) ++ hostBytes 8 (toBe64 size))

end Node

end RiscvEm.Fdt

------------------------------------------------------------
-- Sizes
------------------------------------------------------------

namespace RiscvEm.Fdt

open ByteCodec

def FDT_MAGIC : BitVec 32 := 0xD00DFEED
def FDT_VERSION : BitVec 32 := 17
def FDT_COMP_VERSION : BitVec 32 := 16
def FDT_BEGIN_NODE : BitVec 32 := 1
def FDT_END_NODE : BitVec 32 := 2
def FDT_PROP : BitVec 32 := 3
def FDT_NOP : BitVec 32 := 4
def FDT_END : BitVec 32 := 9
def FDT_HDR_SIZE : BitVec 32 := 40
def FDT_RSV_SIZE : BitVec 32 := 16

structure SizeDesc where
  structSize : BitVec 32
  stringSize : BitVec 32
  deriving DecidableEq, Repr

/- `std::string::size` and `std::vector::size`. -/
def sizeT
    (bs : List Byte) : BitVec 64 :=
  BitVec.ofNat 64 bs.length

namespace SizeDesc

/- The token that begins a node, and its name. -/
def beginNode
    (desc : SizeDesc)
    (name : List Byte) : SizeDesc :=
  let nameLen := alignUp
    (if name = [] then 1 else sizeT name + 1) 4
  { desc with
    structSize := desc.structSize + (4 + nameLen.setWidth 32) }

def prop
    (desc : SizeDesc)
    (p : Property) : SizeDesc :=
  { structSize := desc.structSize + 12 +
      (alignUp (sizeT p.data) 4).setWidth 32
    stringSize := desc.stringSize +
      (alignUp (sizeT p.name + 1) 4).setWidth 32 }

/- The token that ends a node or the tree. -/
def token
    (desc : SizeDesc) : SizeDesc :=
  { desc with structSize := desc.structSize + 4 }

end SizeDesc

mutual

def getTreeSize : Node → SizeDesc → SizeDesc
  | .mk name props children, desc =>
      let desc := props.foldl SizeDesc.prop (desc.beginNode name)
      (getTreeSizes children desc).token

/- The loop over the children. -/
def getTreeSizes : List Node → SizeDesc → SizeDesc
  | [], desc => desc
  | c :: cs, desc => getTreeSizes cs (getTreeSize c desc)

end

/- The sizes of both blocks, with the final token. -/
def treeDesc
    (node : Node) : SizeDesc :=
  (getTreeSize node ⟨0, 0⟩).token

def sizeOfTree
    (node : Node) : BitVec 64 :=
  let desc := treeDesc node
  (FDT_HDR_SIZE + FDT_RSV_SIZE + desc.structSize +
    desc.stringSize).setWidth 64

end RiscvEm.Fdt

------------------------------------------------------------
-- The Serializer
------------------------------------------------------------

namespace RiscvEm.Fdt

open ByteCodec

/- A host buffer of `size` bytes. -/
structure Buffer where
  data : Bytes
  size : Nat

/- Copy bytes into the buffer. -/
def memcpy
    (b : Buffer)
    (dst : Nat)
    (bs : List Byte) : Except HostFault Buffer :=
  if dst + bs.length ≤ b.size then
    .ok { b with
      data := fun i =>
        if dst ≤ i ∧ i < dst + bs.length then
          bs.getD (i - dst) 0
        else
          b.data i }
  else
    .error .outOfBounds

/- Clear the first bytes of the buffer. -/
def memset
    (b : Buffer)
    (n : Nat) : Except HostFault Buffer :=
  memcpy b 0 (List.replicate n 0)

def writeBe32ToBuf
    (b : Buffer)
    (dst : Nat)
    (v : BitVec 32) : Except HostFault Buffer :=
  memcpy b dst (hostBytes 4 (toBe32 v))

structure SerializerCtx where
  buf : Buffer
  structOff : BitVec 32
  stringsBegin : BitVec 32
  stringsOff : BitVec 32
  reserveOff : BitVec 32

def serU32
    (ctx : SerializerCtx)
    (value : BitVec 32) : Except HostFault SerializerCtx := do
  let buf ← writeBe32ToBuf ctx.buf ctx.structOff.toNat value
  .ok { ctx with buf := buf, structOff := ctx.structOff + 4 }

/- A null pointer stands for the empty string. -/
def serString
    (ctx : SerializerCtx)
    (s : List Byte) : Except HostFault SerializerCtx := do
  let buf ← memcpy ctx.buf ctx.structOff.toNat (cStr s ++ [0])
  .ok { ctx with
    buf := buf
    structOff := (alignUp (ctx.structOff.setWidth 64 +
      sizeT (cStr s) + 1) 4).setWidth 32 }

/- `if(len && data) memcpy(...)`. -/
def copyData
    (b : Buffer)
    (dst : Nat)
    (data : List Byte)
    (len : BitVec 32) : Except HostFault Buffer :=
  if len ≠ 0 ∧ data ≠ [] then
    memcpy b dst (data.take len.toNat)
  else
    .ok b

def serData
    (ctx : SerializerCtx)
    (data : List Byte)
    (len : BitVec 32) : Except HostFault SerializerCtx := do
  let buf ← copyData ctx.buf ctx.structOff.toNat data len
  .ok { ctx with
    buf := buf
    structOff := (alignUp
      ((ctx.structOff + len).setWidth 64) 4).setWidth 32 }

def serName
    (ctx : SerializerCtx)
    (s : List Byte) : Except HostFault SerializerCtx := do
  let buf ← memcpy ctx.buf ctx.stringsOff.toNat (cStr s ++ [0])
  .ok { ctx with
    buf := buf
    stringsOff := (alignUp (ctx.stringsOff.setWidth 64 +
      sizeT (cStr s) + 1) 4).setWidth 32 }

def serProp
    (ctx : SerializerCtx)
    (p : Property) : Except HostFault SerializerCtx := do
  let ctx ← serU32 ctx FDT_PROP
  let ctx ← serU32 ctx (BitVec.ofNat 32 p.data.length)
  let ctx ← serU32 ctx (ctx.stringsOff - ctx.stringsBegin)
  let ctx ← serData ctx p.data (BitVec.ofNat 32 p.data.length)
  serName ctx p.name

/- The loop over the properties. -/
def serProps
    (ctx : SerializerCtx) :
    List Property → Except HostFault SerializerCtx
  | [] => .ok ctx
  | p :: ps => do
      let ctx ← serProp ctx p
      serProps ctx ps

mutual

def serTree
    (ctx : SerializerCtx) :
    Node → Except HostFault SerializerCtx
  | .mk name props children => do
      let ctx ← serU32 ctx FDT_BEGIN_NODE
      let ctx ← serString ctx name
      let ctx ← serProps ctx props
      let ctx ← serTrees ctx children
      serU32 ctx FDT_END_NODE

/- The loop over the children. -/
def serTrees
    (ctx : SerializerCtx) :
    List Node → Except HostFault SerializerCtx
  | [] => .ok ctx
  | c :: cs => do
      let ctx ← serTree ctx c
      serTrees ctx cs

end

/- The header, at the start of the buffer. -/
def writeHeader
    (b : Buffer)
    (ctx : SerializerCtx)
    (desc : SizeDesc)
    (bufSize bootCpuid : BitVec 32) :
    Except HostFault Buffer := do
  let b ← writeBe32ToBuf b 0 FDT_MAGIC
  let b ← writeBe32ToBuf b 4 bufSize
  let b ← writeBe32ToBuf b 8 ctx.structOff
  let b ← writeBe32ToBuf b 12 ctx.stringsOff
  let b ← writeBe32ToBuf b 16 ctx.reserveOff
  let b ← writeBe32ToBuf b 20 FDT_VERSION
  let b ← writeBe32ToBuf b 24 FDT_COMP_VERSION
  let b ← writeBe32ToBuf b 28 bootCpuid
  let b ← writeBe32ToBuf b 32 desc.stringSize
  writeBe32ToBuf b 36 desc.structSize

/- The context before anything is written. -/
def startCtx
    (b : Buffer)
    (desc : SizeDesc) : SerializerCtx :=
  let stringsBegin :=
    FDT_HDR_SIZE + FDT_RSV_SIZE + desc.structSize
  { buf := b
    structOff := FDT_HDR_SIZE + FDT_RSV_SIZE
    stringsBegin := stringsBegin
    stringsOff := stringsBegin
    reserveOff := FDT_HDR_SIZE }

/- What is written into a buffer that is large enough. -/
def serializeInto
    (node : Node)
    (b : Buffer)
    (bootCpuid : BitVec 32) :
    Except HostFault SerializerCtx := do
  let desc := treeDesc node
  let ctx := startCtx b desc
  let bufSize := ctx.stringsBegin + desc.stringSize
  let b ← memset b bufSize.toNat
  let b ← writeHeader b ctx desc bufSize bootCpuid
  let ctx ← serTree { ctx with buf := b } node
  serU32 ctx FDT_END

/- The returned size, and the buffer if there is one. -/
def serialize
    (node : Node)
    (buffer : Option Buffer)
    (size : BitVec 64)
    (bootCpuid : BitVec 32) :
    Except HostFault (BitVec 64 × Option Buffer) :=
  let desc := treeDesc node
  let bufSize : BitVec 64 := (FDT_HDR_SIZE + FDT_RSV_SIZE +
    desc.structSize + desc.stringSize).setWidth 64
  match buffer with
  | none => .ok (bufSize, none)
  | some b =>
      if size < bufSize then
        .ok (0, some b)
      else do
        let ctx ← serializeInto node b bootCpuid
        .ok (bufSize, some ctx.buf)

end RiscvEm.Fdt
