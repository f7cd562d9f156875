import RiscvEm.Decode.Decoder
import RiscvEm.Jit.Templates

/-
  The JIT context of a hart: compiled functions, hit counts,
  page versions and the block under construction.

  Key definitions include:
    * `JitFunction`
    * `JitContext`
    * `JitContext.handleInstruction`
-/

------------------------------------------------------------
-- Compiled Functions
------------------------------------------------------------

namespace RiscvEm

/-
  What the host provides for compiled code: the addresses of
  the slow functions, which are different functions, the
  page size, and whether the permissions of an arena can be
  changed at a position.
-/
structure HostCode where
  slow : SlowFuncs
  slow_injective : Function.Injective slow
  pageSize : Nat
  mprotectOk : Nat → Nat → Bool

/-
  A compiled function; `func` holds the code it points to.
  The field `words` is not part of the source: it records
  the instruction words that were compiled.
-/
structure JitFunction where
  func : Code
  pc : BitVec 64
  instSize : BitVec 16
  valid : Bool
  pageVersion : BitVec 64
  words : List (BitVec 32)

namespace JitFunction

/- `JIT_Function{}`. -/
def empty : JitFunction :=
  { func := []
    pc := 0
    instSize := 0
    valid := false
    pageVersion := 0
    words := [] }

/- Move assignment; it leaves `page_version` as it was. -/
def assign
    (dest other : JitFunction) : JitFunction :=
  { other with pageVersion := dest.pageVersion }

end JitFunction

/- Hit counts and ignore bits of one guest page. -/
structure HitPage where
  hits : BitVec 11 → BitVec 16
  ignore : BitVec 11 → Bool

namespace HitPage

def empty : HitPage :=
  ⟨fun _ => 0, fun _ => false⟩

/- `(pc & 0xFFF) >> 1`. -/
def slot
    (pc : BitVec 64) : BitVec 11 :=
  pc.extractLsb' 1 11

def isIgnore
    (page : HitPage)
    (pc : BitVec 64) : Bool :=
  page.ignore (slot pc)

def setIgnore
    (page : HitPage)
    (pc : BitVec 64) : HitPage :=
  { page with
    ignore := Function.update page.ignore (slot pc) true }

end HitPage

/- `(pc >> 2) & (JIT_CACHE_SIZE - 1)`. -/
def jitIndex
    (pc : BitVec 64) : BitVec 20 :=
  (pc >>> 2).setWidth 20

/- `(addr - 0x80000000) >> 12`. -/
def pageIndex
    (addr : BitVec 64) : Nat :=
  ((addr - 0x80000000) >>> 12).toNat

end RiscvEm

------------------------------------------------------------
-- The Context
------------------------------------------------------------

namespace RiscvEm

/-
  The arrays of hit pages and page versions have
  `memory_size >> 12` elements; `used_size` is the one of
  the last arena.
-/
structure JitContext where
  jits : BitVec 20 → JitFunction
  pcHits : Nat → Option HitPage
  blockC : Bool
  block : JitBlock
  pageVerionBitmap : Nat → BitVec 64
  lastArena : Nat
  usedSize : Nat
  count : Nat
  memorySize : BitVec 64
  emitter : JitEmitter

namespace JitContext

/- A new context; the constructor makes the first arena. -/
def init
    (memorySize : BitVec 64) : JitContext :=
  { jits := fun _ => .empty
    pcHits := fun _ => none
    blockC := false
    block := .empty
    pageVerionBitmap := fun _ => 0
    lastArena := 1
    usedSize := 0
    count := 0
    memorySize := memorySize
    emitter := .reset }

/- The number of elements of the per-page arrays. -/
def pages
    (j : JitContext) : Nat :=
  (j.memorySize >>> 12).toNat

def clearPcHits
    (j : JitContext) : JitContext :=
  { j with pcHits := fun _ => none }

def stopBlock
    (j : JitContext) : JitContext :=
  { j with blockC := false }

/- `page_verion_bitmap[...]++` of the page of an address. -/
def bumpPage
    (j : JitContext)
    (addr : BitVec 64) : Except HostFault JitContext :=
  let i := pageIndex addr
  if i < j.pages then
    .ok { j with
      pageVerionBitmap := Function.update j.pageVerionBitmap i
        (j.pageVerionBitmap i + 1) }
  else
    .error .outOfBounds

/- The hit page, created on the first use. -/
def hitPage
    (j : JitContext)
    (i : Nat) : HitPage :=
  (j.pcHits i).getD .empty

def setHitPage
    (j : JitContext)
    (i : Nat)
    (page : HitPage) : JitContext :=
  { j with pcHits := Function.update j.pcHits i (some page) }

/- The size of an arena. -/
def arenaSize
    (host : HostCode) : Nat :=
  0x400 * host.pageSize

/- A new arena when the last one is filled. -/
def ensureArena
    (j : JitContext)
    (host : HostCode) : JitContext :=
  if j.usedSize = arenaSize host then
    { j with lastArena := j.lastArena + 1, usedSize := 0 }
  else
    j

/- Copy code into the last arena. -/
def pushFunction
    (j : JitContext)
    (host : HostCode)
    (code : Code) : JitFunction × JitContext :=
  if arenaSize host < j.usedSize + RVJIT_FUNC_SIZE then
    (.empty, j)
  else if RVJIT_FUNC_SIZE < code.length then
    (.empty, j)
  else if host.mprotectOk j.lastArena j.usedSize then
    ({ JitFunction.empty with func := code, valid := true },
      { j with usedSize := j.usedSize + RVJIT_FUNC_SIZE })
  else
    (.empty, j)

/- Bytes written past the buffer of a block. -/
def checkBuffer
    (blk : JitBlock) : Except HostFault JitBlock :=
  if RVJIT_FUNC_SIZE < blk.bytes.length then
    .error .outOfBounds
  else
    .ok blk

/- Emit the template of an instruction into the block. -/
def emitInstruction
    (j : JitContext)
    (template : JitTemplate)
    (cache : InstructionCache)
    (inst : Instruction) : Except HostFault JitContext := do
  let (emitter, blk) ← template cache.data j.emitter j.block
  let blk ← checkBuffer blk
  .ok { j with
    emitter := emitter
    block := { blk with
      size := blk.size + inst.size.setWidth 64
      count := blk.count + 1
      words := blk.words ++ [cache.instRaw] } }

/- The code after `end_block_gen`. -/
def endBlockGen
    (j : JitContext)
    (host : HostCode)
    (pc : BitVec 64) : Except HostFault JitContext := do
  let j := { j with blockC := false }
  let j ←
    if RVJIT_MIN_INSTRUCTIONS ≤ j.block.count then do
      let j := j.ensureArena host
      let blk ← checkBuffer
        (j.emitter.rvjitEmitEpilogue j.block)
      let (func, j) := pushFunction { j with block := blk }
        host blk.bytes
      let func := { func with
        instSize := blk.size.setWidth 16
        pc := blk.pc
        pageVersion := j.pageVerionBitmap (pageIndex blk.pc)
        words := blk.words }
      let i := jitIndex blk.pc
      .ok { j with
        jits := Function.update j.jits i
          ((j.jits i).assign func)
        count := j.count + 1 }
    else
      .ok j
  let i := pageIndex pc
  .ok (j.setHitPage i ((j.hitPage i).setIgnore pc))

/- A block of one instruction is begun at `pc`. -/
def beginBlock
    (j : JitContext)
    (pc : BitVec 64) : JitContext :=
  { j with
    blockC := true
    emitter := .reset
    block := JitEmitter.rvjitEmitPrologue
      { JitBlock.empty with pc := pc, valid := true } }

/-
  Called after the instruction `inst` of the entry `cache`
  was executed at `prev_pc`.
-/
def handleInstruction
    (j : JitContext)
    (host : HostCode)
    (cache : InstructionCache)
    (inst : Instruction)
    (prevPc : BitVec 64) : Except HostFault JitContext :=
  let pc := prevPc
  if pc < 0x80000000 then
    .ok j
  else if (j.jits (jitIndex pc)).valid then
    .ok j
  else
    let i := pageIndex pc
    if ¬ i < j.pages then
      .error .assertFailed
    else
      let j := j.setHitPage i (j.hitPage i)
      let hpage := j.hitPage i
      let template := conversionTbl host.slow inst.func
      if hpage.isIgnore pc then
        .ok j
      else if j.blockC then
        match template with
        | none => j.endBlockGen host pc
        | some template =>
            if RVJIT_MAX_INSTRUCTIONS ≤ j.block.count ∨
                pc ≠ j.block.pc + j.block.size then
              j.endBlockGen host pc
            else do
              let j ← j.emitInstruction template cache inst
              .ok (j.setHitPage i
                ((j.hitPage i).setIgnore pc))
      else
        let slot := HitPage.slot pc
        let hits := hpage.hits slot + 1
        let hpage := { hpage with
          hits := Function.update hpage.hits slot hits }
        let j := j.setHitPage i hpage
        if hits.toNat ≤ RVJIT_PC_CAP then
          .ok j
        else do
          let j ← match template with
            | none => .ok j
            | some template =>
                (j.beginBlock pc).emitInstruction template
                  cache inst
          .ok (j.setHitPage i ((j.hitPage i).setIgnore pc))

end JitContext

end RiscvEm
