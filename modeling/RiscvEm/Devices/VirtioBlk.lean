import RiscvEm.Devices.Plic

/-
  The block device: descriptor chains, requests and the
  registers of the virtio transport.

  The device reads and writes guest memory through the memory
  map; host memory for buffers is taken to be available.

  Key definitions include:
    * `VirtioBlk`
    * `fetchDescriptorChain`
    * `BlkWorld.processEntry`
    * `BlkWorld.processQueue`
    * `BlkWorld.write`
-/

------------------------------------------------------------
-- The Image File
------------------------------------------------------------

namespace RiscvEm

/- The contents of the image file. -/
structure DiskImage where
  data : Bytes
  size : Nat

def SECTOR_SIZE : BitVec 64 := 512

/- `sector * SECTOR_SIZE`, if `fseek` accepts it. -/
def seekSector
    (sector : BitVec 64) : Option Nat :=
  let offset := sector * SECTOR_SIZE
  if offset.toNat < 2 ^ 63 then some offset.toNat else none

/- The buffer after a read: zeros follow the end of the file. -/
def diskRead
    (disk : Option DiskImage)
    (sector : BitVec 64)
    (bytes : Nat) : Option (List (BitVec 8)) :=
  disk.bind (fun d =>
    (seekSector sector).map (fun offset =>
      (List.range bytes).map (fun i =>
        if offset + i < d.size then d.data (offset + i)
        else 0)))

/- The file after a write, which may make it longer. -/
def DiskImage.put
    (d : DiskImage)
    (offset : Nat)
    (buf : List (BitVec 8)) : DiskImage :=
  if buf.length = 0 then
    d
  else
    { data := fun i =>
        if offset ≤ i ∧ i < offset + buf.length then
          buf.getD (i - offset) 0
        else if i < d.size then
          d.data i
        else
          0
      size := max d.size (offset + buf.length) }

def diskWrite
    (disk : Option DiskImage)
    (sector : BitVec 64)
    (buf : List (BitVec 8)) : Option DiskImage :=
  disk.bind (fun d =>
    (seekSector sector).map (fun offset => d.put offset buf))

end RiscvEm

------------------------------------------------------------
-- State
------------------------------------------------------------

namespace RiscvEm

structure VirtQueueState where
  size : BitVec 32
  descAddr : BitVec 64
  availAddr : BitVec 64
  usedAddr : BitVec 64
  lastAvailIdx : BitVec 16
  lastUsedIdx : BitVec 16
  ready : Bool
  deriving DecidableEq, Repr

def VirtQueueState.init : VirtQueueState :=
  ⟨0, 0, 0, 0, 0, 0, false⟩

/-
  The device. Its interrupt source is one that `acquire_irq`
  handed out, below the number of sources.
-/
structure VirtioBlk (cfg : PlicConfig) where
  irqNum : BitVec 32
  irqNum_ne : irqNum ≠ 0
  irqNum_lt : irqNum.toNat < cfg.maxSources
  disk : Option DiskImage
  deviceFeatures : BitVec 64
  driverFeatures : BitVec 64
  deviceFeaturesSel : BitVec 32
  driverFeaturesSel : BitVec 32
  deviceStatus : BitVec 32
  interruptStatus : BitVec 32
  queueSel : BitVec 32
  queue0 : VirtQueueState
  configGeneration : BitVec 32
  capacitySectors : BitVec 64

def VIRTIO_F_VERSION_1 : BitVec 64 := 1 <<< 32

/- The device as it is constructed. -/
def VirtioBlk.init
    {cfg : PlicConfig}
    (irqNum : BitVec 32)
    (hNe : irqNum ≠ 0)
    (hLt : irqNum.toNat < cfg.maxSources)
    (disk : Option DiskImage) : VirtioBlk cfg :=
  { irqNum := irqNum
    irqNum_ne := hNe
    irqNum_lt := hLt
    disk := disk
    deviceFeatures := VIRTIO_F_VERSION_1
    driverFeatures := 0
    deviceFeaturesSel := 0
    driverFeaturesSel := 0
    deviceStatus := 0
    interruptStatus := 0
    queueSel := 0
    queue0 := .init
    configGeneration := 0
    capacitySectors :=
      match disk with
      | some d => BitVec.ofNat 64 (d.size / 512)
      | none => 0 }

/-
  What the device did with the rings: it took an entry of the
  available ring, or wrote an element of the used ring.
  Nothing in the source reads this.
-/
inductive RingEvent where
  | consumed (head : BitVec 16)
  | used (id : BitVec 16)
  deriving DecidableEq, Repr

/-
  The device with what it reaches: the interrupt controller
  and guest memory. Events are kept newest first.
-/
structure BlkWorld (cfg : PlicConfig) where
  blk : VirtioBlk cfg
  plic : DevWorld (Plic cfg)
  mem : MemoryMap
  trace : List RingEvent

namespace BlkWorld

variable {cfg : PlicConfig}

def queue
    (w : BlkWorld cfg) : VirtQueueState :=
  w.blk.queue0

def setQueue
    (w : BlkWorld cfg)
    (q : VirtQueueState) : BlkWorld cfg :=
  { w with blk := { w.blk with queue0 := q } }

def setMem
    (w : BlkWorld cfg)
    (m : MemoryMap) : BlkWorld cfg :=
  { w with mem := m }

def log
    (w : BlkWorld cfg)
    (e : RingEvent) : BlkWorld cfg :=
  { w with trace := e :: w.trace }

end BlkWorld

end RiscvEm

------------------------------------------------------------
-- Guest Memory
------------------------------------------------------------

namespace RiscvEm

/- Read bytes one by one. -/
def copyFromDram
    (m : MemoryMap)
    (gpa : BitVec 64) :
    Nat → Except HostFault (List (BitVec 8))
  | 0 => .ok []
  | n + 1 => do
      let b ← m.load gpa 8
      let bs ← copyFromDram m (gpa + 1) n
      .ok (b.setWidth 8 :: bs)

/- Write bytes one by one. -/
def copyToDram
    (m : MemoryMap)
    (gpa : BitVec 64) :
    List (BitVec 8) → Except HostFault MemoryMap
  | [] => .ok m
  | b :: bs => do
      let m ← m.store gpa 8 (b.setWidth 64)
      copyToDram m (gpa + 1) bs

structure VirtqDesc where
  addr : BitVec 64
  len : BitVec 32
  flags : BitVec 16
  next : BitVec 16
  deriving DecidableEq, Repr

/- `flags & VIRTQ_DESC_F_NEXT`. -/
def VirtqDesc.hasNext
    (d : VirtqDesc) : Bool :=
  d.flags.getLsbD 0

/- `flags & VIRTQ_DESC_F_WRITE`. -/
def VirtqDesc.isWrite
    (d : VirtqDesc) : Bool :=
  d.flags.getLsbD 1

/- The address of a descriptor in the table. -/
def VirtQueueState.descAt
    (q : VirtQueueState)
    (idx : BitVec 16) : BitVec 64 :=
  q.descAddr + idx.setWidth 64 * 16

def readDesc
    (m : MemoryMap)
    (descAddr : BitVec 64) : Except HostFault VirtqDesc := do
  let addr ← m.load (descAddr + 0) 64
  let len ← m.load (descAddr + 8) 32
  let flags ← m.load (descAddr + 12) 16
  let next ← m.load (descAddr + 14) 16
  .ok ⟨addr, len.setWidth 32, flags.setWidth 16,
    next.setWidth 16⟩

/-
  The loop of `fetch_descriptor_chain`, with the number of
  rounds left: whether the chain ended, and its descriptors.
-/
def fetchChainLoop
    (m : MemoryMap)
    (q : VirtQueueState) :
    Nat → BitVec 16 → Except HostFault (Bool × List VirtqDesc)
  | 0, _ => .ok (false, [])
  | n + 1, idx => do
      let d ← readDesc m (q.descAt idx)
      if d.hasNext then
        let (done, rest) ← fetchChainLoop m q n d.next
        .ok (done, d :: rest)
      else
        .ok (true, [d])

def fetchDescriptorChain
    (m : MemoryMap)
    (q : VirtQueueState)
    (head : BitVec 16) :
    Except HostFault (Bool × List VirtqDesc) :=
  if q.descAddr = 0 then
    .ok (false, [])
  else
    fetchChainLoop m q q.size.toNat head

end RiscvEm

------------------------------------------------------------
-- Requests
------------------------------------------------------------

namespace RiscvEm

variable {cfg : PlicConfig}

/- The header of a request, without its reserved word. -/
structure VirtioBlkReq where
  type : BitVec 32
  sector : BitVec 64
  deriving DecidableEq, Repr

def VIRTIO_BLK_T_IN : BitVec 32 := 0
def VIRTIO_BLK_T_OUT : BitVec 32 := 1
def VIRTIO_BLK_S_OK : BitVec 64 := 0
def VIRTIO_BLK_S_IOERR : BitVec 64 := 1

/- `sizeof(VirtioBlkReq)`. -/
def reqSize : Nat := 16

/- The number that bytes stand for, lowest first. -/
def bytesToNat : List (BitVec 8) → Nat
  | [] => 0
  | b :: bs => b.toNat + 256 * bytesToNat bs

def VirtioBlkReq.ofBytes
    (bs : List (BitVec 8)) : VirtioBlkReq :=
  { type := BitVec.ofNat 32 (bytesToNat (bs.take 4))
    sector := BitVec.ofNat 64 (bytesToNat (bs.drop 8)) }

/-
  The last writable descriptor below position `n`, except the
  first descriptor.
-/
def findStatusDesc
    (chain : List VirtqDesc) : Nat → Option (Nat × VirtqDesc)
  | 0 => none
  | 1 => none
  | i + 2 =>
      match chain[i + 1]? with
      | some d =>
          if d.isWrite then some (i + 1, d)
          else findStatusDesc chain (i + 1)
      | none => findStatusDesc chain (i + 1)

/- `(int)chain.size()` is negative for very long chains. -/
def statusDesc
    (chain : List VirtqDesc) : Option (Nat × VirtqDesc) :=
  if chain.length < 2 ^ 31 then
    findStatusDesc chain chain.length
  else
    none

def dataTotal
    (datas : List VirtqDesc) : Nat :=
  (datas.map (fun d => d.len.toNat)).sum

/-
  Fill the data descriptors from the buffer. A descriptor
  that is not writable is filled, and is the last one.
-/
def scatterIn
    (m : MemoryMap)
    (buf : List (BitVec 8)) :
    List VirtqDesc → Except HostFault (Bool × MemoryMap)
  | [] => .ok (true, m)
  | d :: ds => do
      let m ← copyToDram m d.addr (buf.take d.len.toNat)
      if d.isWrite then
        scatterIn m (buf.drop d.len.toNat) ds
      else
        .ok (false, m)

/- Collect the contents of the data descriptors. -/
def gatherOut
    (m : MemoryMap) :
    List VirtqDesc → Except HostFault (List (BitVec 8))
  | [] => .ok []
  | d :: ds => do
      let bs ← copyFromDram m d.addr d.len.toNat
      let rest ← gatherOut m ds
      .ok (bs ++ rest)

/- The request on the data descriptors: whether it went well. -/
def BlkWorld.perform
    (w : BlkWorld cfg)
    (req : VirtioBlkReq)
    (datas : List VirtqDesc) :
    Except HostFault (Bool × BlkWorld cfg) :=
  if req.type = VIRTIO_BLK_T_IN then
    match diskRead w.blk.disk req.sector (dataTotal datas) with
    | none => .ok (false, w)
    | some buf => do
        let (ok, m) ← scatterIn w.mem buf datas
        .ok (ok, w.setMem m)
  else if req.type = VIRTIO_BLK_T_OUT then do
    let buf ← gatherOut w.mem datas
    match diskWrite w.blk.disk req.sector buf with
    | none => .ok (false, w)
    | some disk =>
        .ok (dataTotal datas % 512 == 0,
          { w with
            blk := { w.blk with disk := some disk } })
  else
    .ok (false, w)

end RiscvEm

------------------------------------------------------------
-- The Queue
------------------------------------------------------------

namespace RiscvEm

variable {cfg : PlicConfig}

namespace VirtQueueState

/- The address of the available entry that comes next. -/
def availEntryAddr
    (q : VirtQueueState) : BitVec 64 :=
  q.availAddr + 4 +
    BitVec.ofNat 64 (q.lastAvailIdx.toNat % q.size.toNat) * 2

/- The address of the used element that comes next. -/
def usedElemAddr
    (q : VirtQueueState) : BitVec 64 :=
  q.usedAddr + 4 +
    BitVec.ofNat 64 (q.lastUsedIdx.toNat % q.size.toNat) * 8

end VirtQueueState

namespace BlkWorld

/- `q.last_avail_idx++`. -/
def skipAvail
    (w : BlkWorld cfg) : BlkWorld cfg :=
  w.setQueue { w.queue with
    lastAvailIdx := w.queue.lastAvailIdx + 1 }

def raiseIrq
    (w : BlkWorld cfg) : Except HostFault (BlkWorld cfg) := do
  let plic ← Plic.setPending w.blk.irqNum true w.plic
  .ok { w with plic := plic }

/- The header, the operation and the status byte. -/
def serve
    (w : BlkWorld cfg)
    (chain : List VirtqDesc) :
    Except HostFault (BlkWorld cfg) :=
  match chain with
  | [] => .ok w
  | d :: _ => do
      let header ← copyFromDram w.mem d.addr reqSize
      match statusDesc chain with
      | none => .ok w
      | some (i, status) => do
          let (ok, w) ← w.perform (.ofBytes header)
            ((chain.take i).drop 1)
          let m ← w.mem.store status.addr 8
            (if ok then VIRTIO_BLK_S_OK
              else VIRTIO_BLK_S_IOERR)
          .ok (w.setMem m)

/- Write the used element and tell the guest. -/
def complete
    (w : BlkWorld cfg)
    (head : BitVec 16) :
    Except HostFault (BlkWorld cfg) := do
  let q := w.queue
  let m ← w.mem.store (q.usedElemAddr + 0) 32
    (head.setWidth 64)
  let m ← m.store (q.usedElemAddr + 4) 32 0
  let used := q.lastUsedIdx + 1
  let m ← m.store (q.usedAddr + 2) 16 (used.setWidth 64)
  let w := (((w.log (.used head)).setMem m).setQueue
    { q with
      lastUsedIdx := used
      lastAvailIdx := q.lastAvailIdx + 1 })
  raiseIrq { w with
    blk := { w.blk with
      interruptStatus := w.blk.interruptStatus ||| 1 } }

/-
  The chain has the shape of a request: a header and at
  least one more descriptor.
-/
def isRequest
    (chain : List VirtqDesc) : Bool :=
  match chain with
  | d :: _ :: _ => decide (reqSize ≤ d.len.toNat)
  | _ => false

/- One round of the loop of `process_queue`. -/
def processEntry
    (w : BlkWorld cfg) : Except HostFault (BlkWorld cfg) := do
  let entry ← w.mem.load w.queue.availEntryAddr 16
  let head := entry.setWidth 16
  let w := w.log (.consumed head)
  let (done, chain) ←
    fetchDescriptorChain w.mem w.queue head
  if done && isRequest chain then
    let w ← w.serve chain
    w.complete head
  else
    .ok w.skipAvail

/-
  The loop of `process_queue`. A round moves the index of 16
  bits on by one, so that `2 ^ 16` rounds are enough.
-/
def processLoop
    (availIdx : BitVec 16) :
    Nat → BlkWorld cfg → Except HostFault (BlkWorld cfg)
  | 0, w => .ok w
  | n + 1, w =>
      if w.queue.lastAvailIdx = availIdx then
        .ok w
      else do
        let w ← w.processEntry
        processLoop availIdx n w

def processQueue
    (w : BlkWorld cfg)
    (qsel : BitVec 32) : Except HostFault (BlkWorld cfg) :=
  if qsel ≠ 0 then
    .ok w
  else if w.queue.ready = false ∨ w.queue.size = 0 then
    .ok w
  else do
    let availIdx ← w.mem.load (w.queue.availAddr + 2) 16
    processLoop (availIdx.setWidth 16) (2 ^ 16) w

end BlkWorld

end RiscvEm

------------------------------------------------------------
-- Registers
------------------------------------------------------------

namespace RiscvEm

variable {cfg : PlicConfig}

def VIRTIO_BLK_START : BitVec 64 := 0x10001000
def VIRTIO_BLK_SIZE : BitVec 64 := 0x1000

def VIRT_REG_MAGICVALUE : BitVec 64 := 0x000
def VIRT_REG_VERSION : BitVec 64 := 0x004
def VIRT_REG_DEVICEID : BitVec 64 := 0x008
def VIRT_REG_VENDORID : BitVec 64 := 0x00C
def VIRT_REG_DEVICEFEATURES : BitVec 64 := 0x010
def VIRT_REG_DEVICEFEATURESSEL : BitVec 64 := 0x014
def VIRT_REG_DRIVERFEATURES : BitVec 64 := 0x020
def VIRT_REG_DRIVERFEATURESSEL : BitVec 64 := 0x024
def VIRT_REG_QUEUESEL : BitVec 64 := 0x030
def VIRT_REG_QUEUENUMMAX : BitVec 64 := 0x034
def VIRT_REG_QUEUENUM : BitVec 64 := 0x038
def VIRT_REG_QUEUEREADY : BitVec 64 := 0x044
def VIRT_REG_QUEUENOTIFY : BitVec 64 := 0x050
def VIRT_REG_INTERRUPTSTATUS : BitVec 64 := 0x060
def VIRT_REG_INTERRUPTACK : BitVec 64 := 0x064
def VIRT_REG_STATUS : BitVec 64 := 0x070
def VIRT_REG_QUEUEDESCLOW : BitVec 64 := 0x080
def VIRT_REG_QUEUEDESCHIGH : BitVec 64 := 0x084
def VIRT_REG_QUEUEDRIVERLOW : BitVec 64 := 0x090
def VIRT_REG_QUEUEDRIVERHIGH : BitVec 64 := 0x094
def VIRT_REG_QUEUEDEVICELOW : BitVec 64 := 0x0A0
def VIRT_REG_QUEUEDEVICEHIGH : BitVec 64 := 0x0A4
def VIRT_REG_CONFIGGENERATION : BitVec 64 := 0x0FC
def VIRT_REG_CAPACITYLOW : BitVec 64 := 0x100
def VIRT_REG_CAPACITYHIGH : BitVec 64 := 0x104
def VIRT_REG_SIZEMAX : BitVec 64 := 0x108
def VIRT_REG_SEGMAX : BitVec 64 := 0x10C

/- `(uint32_t)(x & 0xFFFFFFFF)` and `(uint32_t)(x >> 32)`. -/
def lowWord
    (x : BitVec 64) : BitVec 64 :=
  x &&& 0xFFFFFFFF

def highWord
    (x : BitVec 64) : BitVec 64 :=
  x >>> 32

/- One half of a register of 64 bits is written. -/
def setLowWord
    (x val : BitVec 64) : BitVec 64 :=
  (x &&& ~~~0xFFFFFFFF) ||| (val.setWidth 32).setWidth 64

def setHighWord
    (x val : BitVec 64) : BitVec 64 :=
  (x &&& 0xFFFFFFFF) ||| ((val.setWidth 32).setWidth 64 <<< 32)

namespace VirtioBlk

def read
    (b : VirtioBlk cfg)
    (addr : BitVec 64) : BitVec 64 :=
  let off := addr - VIRTIO_BLK_START
  let word (x : BitVec 32) : BitVec 64 := x.setWidth 64
  if off = VIRT_REG_MAGICVALUE then
    0x74726976
  else if off = VIRT_REG_VERSION ∨ off = VIRT_REG_DEVICEID then
    2
  else if off = VIRT_REG_VENDORID then
    0x554D4551
  else if off = VIRT_REG_DEVICEFEATURES then
    if b.deviceFeaturesSel = 0 then lowWord b.deviceFeatures
    else highWord b.deviceFeatures
  else if off = VIRT_REG_DEVICEFEATURESSEL then
    word b.deviceFeaturesSel
  else if off = VIRT_REG_QUEUESEL then
    word b.queueSel
  else if off = VIRT_REG_QUEUENUMMAX then
    if b.queueSel = 0 then 128 else 0
  else if off = VIRT_REG_QUEUENUM then
    word b.queue0.size
  else if off = VIRT_REG_QUEUEREADY then
    if b.queue0.ready then 1 else 0
  else if off = VIRT_REG_INTERRUPTSTATUS then
    word b.interruptStatus
  else if off = VIRT_REG_STATUS then
    word b.deviceStatus
  else if off = VIRT_REG_QUEUEDESCLOW then
    lowWord b.queue0.descAddr
  else if off = VIRT_REG_QUEUEDESCHIGH then
    highWord b.queue0.descAddr
  else if off = VIRT_REG_QUEUEDRIVERLOW then
    lowWord b.queue0.availAddr
  else if off = VIRT_REG_QUEUEDRIVERHIGH then
    highWord b.queue0.availAddr
  else if off = VIRT_REG_QUEUEDEVICELOW then
    lowWord b.queue0.usedAddr
  else if off = VIRT_REG_QUEUEDEVICEHIGH then
    highWord b.queue0.usedAddr
  else if off = VIRT_REG_CONFIGGENERATION then
    word b.configGeneration
  else if off = VIRT_REG_CAPACITYLOW then
    lowWord b.capacitySectors
  else if off = VIRT_REG_CAPACITYHIGH then
    highWord b.capacitySectors
  else if off = VIRT_REG_SIZEMAX then
    0
  else if off = VIRT_REG_SEGMAX then
    128
  else if off = 0x144 then
    512
  else
    0

/- Change queue 0 if it is selected. -/
def modifyQueue
    (b : VirtioBlk cfg)
    (f : VirtQueueState → VirtQueueState) : VirtioBlk cfg :=
  if b.queueSel = 0 then { b with queue0 := f b.queue0 } else b

/- A write of zero to the status register. -/
def reset
    (b : VirtioBlk cfg) : VirtioBlk cfg :=
  { b with
    deviceStatus := 0
    interruptStatus := 0
    queue0 := .init }

def VIRT_STATUS_FEATURES_OK : BitVec 32 := 0x08

/- Any other write to the status register. -/
def orStatus
    (b : VirtioBlk cfg)
    (val : BitVec 64) : VirtioBlk cfg :=
  let status := b.deviceStatus ||| val.setWidth 32
  { b with
    deviceStatus :=
      if status &&& VIRT_STATUS_FEATURES_OK ≠ 0 ∧
          b.driverFeatures &&& ~~~b.deviceFeatures ≠ 0 then
        status &&& ~~~VIRT_STATUS_FEATURES_OK
      else
        status }

/- A write to any register but the notification. -/
def writeReg
    (b : VirtioBlk cfg)
    (off val : BitVec 64) : VirtioBlk cfg :=
  if off = VIRT_REG_DEVICEFEATURESSEL then
    { b with deviceFeaturesSel := val.setWidth 32 }
  else if off = VIRT_REG_DRIVERFEATURESSEL then
    { b with driverFeaturesSel := val.setWidth 32 }
  else if off = VIRT_REG_DRIVERFEATURES then
    { b with
      driverFeatures :=
        if b.driverFeaturesSel = 0 then
          setLowWord b.driverFeatures val
        else
          setHighWord b.driverFeatures val }
  else if off = VIRT_REG_QUEUESEL then
    { b with queueSel := val.setWidth 32 }
  else if off = VIRT_REG_QUEUENUM then
    b.modifyQueue (fun q => { q with size := val.setWidth 32 })
  else if off = VIRT_REG_QUEUEREADY then
    b.modifyQueue (fun q => { q with ready := val != 0 })
  else if off = VIRT_REG_QUEUEDESCLOW then
    b.modifyQueue (fun q =>
      { q with descAddr := setLowWord q.descAddr val })
  else if off = VIRT_REG_QUEUEDESCHIGH then
    b.modifyQueue (fun q =>
      { q with descAddr := setHighWord q.descAddr val })
  else if off = VIRT_REG_QUEUEDRIVERLOW then
    b.modifyQueue (fun q =>
      { q with availAddr := setLowWord q.availAddr val })
  else if off = VIRT_REG_QUEUEDRIVERHIGH then
    b.modifyQueue (fun q =>
      { q with availAddr := setHighWord q.availAddr val })
  else if off = VIRT_REG_QUEUEDEVICELOW then
    b.modifyQueue (fun q =>
      { q with usedAddr := setLowWord q.usedAddr val })
  else if off = VIRT_REG_QUEUEDEVICEHIGH then
    b.modifyQueue (fun q =>
      { q with usedAddr := setHighWord q.usedAddr val })
  else if off = VIRT_REG_INTERRUPTACK then
    { b with
      interruptStatus :=
        b.interruptStatus &&& ~~~(val.setWidth 32) }
  else if off = VIRT_REG_STATUS then
    if val = 0 then b.reset else b.orStatus val
  else
    b

end VirtioBlk

def BlkWorld.write
    (w : BlkWorld cfg)
    (addr val : BitVec 64) :
    Except HostFault (BlkWorld cfg) :=
  let off := addr - VIRTIO_BLK_START
  if off = VIRT_REG_QUEUENOTIFY then
    w.processQueue (val.setWidth 32)
  else
    .ok { w with blk := w.blk.writeReg off val }

end RiscvEm
