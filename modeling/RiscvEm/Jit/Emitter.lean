import RiscvEm.Decode.Fields
import RiscvEm.Jit.Encode
import Mathlib.Logic.Function.Basic

/-
  The emitter: blocks under construction, jump labels, the
  register allocator and the frames that the instruction
  templates share.

  Key definitions include:
    * `JitBlock`
    * `JitEmitter`
    * `JitEmitter.rvjitAllocReg`
    * `JitEmitter.instEmitRType`
    * `JitEmitter.instEmitSType`
-/

------------------------------------------------------------
-- Blocks And Labels
------------------------------------------------------------

namespace RiscvEm

def RVJIT_MIN_INSTRUCTIONS : Nat := 1
def RVJIT_MAX_INSTRUCTIONS : Nat := 48
def RVJIT_PC_CAP : Nat := 100
def RVJIT_FUNC_SIZE : Nat := 0x1000

inductive Label where
  | epilogue
  | branch
  | fastPath
  | done
  deriving DecidableEq, Repr

structure JumpLabel where
  label : Label
  offs : Nat
  isOpcode2 : Bool
  size : Nat

/-
  A block under construction. `byte_pos` is the length of
  `bytes`. The field `words` is not part of the source: it
  records the instruction words the block was emitted from.
-/
structure JitBlock where
  bytes : Code
  jmpLabels : List JumpLabel
  pc : BitVec 64
  size : BitVec 64
  count : Nat
  valid : Bool
  words : List (BitVec 32)

namespace JitBlock

/- `JIT_Block block = { 0 }`. -/
def empty : JitBlock :=
  { bytes := []
    jmpLabels := []
    pc := 0
    size := 0
    count := 0
    valid := false
    words := [] }

def emit
    (blk : JitBlock)
    (code : Code) : JitBlock :=
  { blk with bytes := blk.bytes ++ code }

/- Note a jump of `size` operand bytes at this position. -/
def pushLabel
    (blk : JitBlock)
    (label : Label)
    (size : Nat) : JitBlock :=
  { blk with
    jmpLabels := blk.jmpLabels ++
      [⟨label, blk.bytes.length, false, size⟩] }

/- `memcpy` into the bytes that are already there. -/
def patch
    (bytes : Code)
    (pos : Nat) : Code → Code
  | [] => bytes
  | b :: bs => patch (bytes.set pos b) (pos + 1) bs

/- Patch one jump so that it leads to `cur_pos`. -/
def realizeJump
    (curPos : Nat)
    (bytes : Code)
    (lbl : JumpLabel) : Code :=
  let opcodeSize := if lbl.isOpcode2 then 2 else 1
  let patchPos := lbl.offs + opcodeSize
  let insnSize := lbl.size + opcodeSize
  let rel := BitVec.ofNat 64 curPos -
    BitVec.ofNat 64 (lbl.offs + insnSize)
  if lbl.size = 1 then
    patch bytes patchPos [rel.setWidth 8]
  else if lbl.size = 4 then
    patch bytes patchPos (bytes32 (rel.setWidth 32))
  else
    bytes

/- Patch and drop every jump to the label. -/
def realizeLabel
    (blk : JitBlock)
    (label : Label) : JitBlock :=
  { blk with
    bytes := (blk.jmpLabels.filter (·.label = label)).foldl
      (realizeJump blk.bytes.length) blk.bytes
    jmpLabels := blk.jmpLabels.filter (·.label ≠ label) }

end JitBlock

end RiscvEm

------------------------------------------------------------
-- Registers
------------------------------------------------------------

namespace RiscvEm

structure HReg where
  hostReg : BitVec 8
  used : Bool
  -- `0xFF` while no guest register was ever held
  vreg : Option (BitVec 5)
  lastUse : BitVec 64
  idx : Fin 8

structure VReg where
  allocated : Bool
  vreg : BitVec 5
  hostReg : BitVec 8
  hostIdx : Fin 8
  dirty : Bool
  valid : Bool
  isZero : Bool

structure JitEmitter where
  vregs : BitVec 5 → VReg
  hostRegs : Fin 8 → HReg
  globalUseCounter : BitVec 64

/- The host registers that may hold guest registers. -/
def hostRegArray : Fin 8 → BitVec 8
  | 0 => REG_RAX
  | 1 => REG_RDX
  | 2 => REG_RSI
  | 3 => REG_RDI
  | 4 => REG_R8
  | 5 => REG_R9
  | 6 => REG_R10
  | 7 => REG_R11

namespace JitEmitter

/- The emitter after `reset()`. -/
def reset : JitEmitter :=
  { vregs := fun i =>
      { allocated := false
        vreg := i
        hostReg := 0xFF
        hostIdx := 0
        dirty := false
        valid := false
        isZero := i = 0 }
    hostRegs := fun i =>
      { hostReg := hostRegArray i
        used := false
        vreg := none
        lastUse := 0
        idx := i }
    globalUseCounter := 0 }

def setVReg
    (em : JitEmitter)
    (r : BitVec 5)
    (v : VReg) : JitEmitter :=
  { em with vregs := Function.update em.vregs r v }

def setHReg
    (em : JitEmitter)
    (i : Fin 8)
    (h : HReg) : JitEmitter :=
  { em with hostRegs := Function.update em.hostRegs i h }

def setDirty
    (em : JitEmitter)
    (r : BitVec 5) : JitEmitter :=
  em.setVReg r { em.vregs r with dirty := true }

/- `1ULL << reg`; the host masks the count. -/
def lockBit
    (hostReg : BitVec 8) : BitVec 64 :=
  1 <<< (hostReg.toNat % 64)

/- `1u << reg`. -/
def lockBit32
    (hostReg : BitVec 8) : BitVec 64 :=
  (1#32 <<< (hostReg.toNat % 32)).setWidth 64

/- The place of a guest register in `GPR`. -/
def vregDisp
    (r : BitVec 5) : BitVec 32 :=
  r.setWidth 32 * 8

def ensureLoaded
    (em : JitEmitter)
    (blk : JitBlock)
    (r : BitVec 5) : JitEmitter × JitBlock :=
  let v := em.vregs r
  if v.allocated && !v.valid then
    (em.setVReg r { v with valid := true },
      blk.emit (movRm v.hostReg REG_R13 NO_INDEX 0
        (vregDisp v.vreg)))
  else
    (em, blk)

/- The first unlocked host register with the least use. -/
def spillVictim
    (em : JitEmitter)
    (locked : BitVec 64) : Option (Fin 8) :=
  (List.finRange 8).foldl
    (fun victim i =>
      if locked &&& lockBit (em.hostRegs i).hostReg ≠ 0 then
        victim
      else
        match victim with
        | none => some i
        | some j =>
            if (em.hostRegs i).lastUse <
                (em.hostRegs j).lastUse then
              some i
            else
              some j)
    none

/- Free the victim; its guest register is written back. -/
def spill
    (em : JitEmitter)
    (blk : JitBlock)
    (locked : BitVec 64) :
    Except HostFault (Fin 8 × JitEmitter × JitBlock) :=
  match em.spillVictim locked with
  | none => .error .outOfBounds
  | some i =>
      let victim := em.hostRegs i
      match victim.vreg with
      | none => .error .outOfBounds
      | some g =>
          let v := em.vregs g
          let blk :=
            if v.dirty then
              blk.emit (movMr victim.hostReg REG_R13 NO_INDEX 0
                (vregDisp g))
            else
              blk
          .ok (i,
            (em.setHReg i { victim with used := false }).setVReg
              g { v with
                allocated := false
                valid := false
                dirty := false },
            blk)

/- The first host register that is free and not locked. -/
def findFree
    (em : JitEmitter)
    (locked : BitVec 64) : Option (Fin 8) :=
  (List.finRange 8).find? fun i =>
    locked &&& lockBit32 (em.hostRegs i).hostReg = 0 &&
      !(em.hostRegs i).used

/-
  Give a guest register a host register and load it. The
  result is the entry `vregs[user_reg]` of the new emitter.
-/
def rvjitAllocReg
    (em : JitEmitter)
    (blk : JitBlock)
    (userReg : BitVec 5)
    (locked : BitVec 64) :
    Except HostFault (JitEmitter × JitBlock) :=
  if userReg = 0 then
    .ok (em, blk)
  else if (em.vregs userReg).allocated then
    let counter := em.globalUseCounter + 1
    let idx := (em.vregs userReg).hostIdx
    let em := { em with globalUseCounter := counter }.setHReg
      idx { em.hostRegs idx with lastUse := counter }
    .ok (em.ensureLoaded blk userReg)
  else
    match em.findFree locked with
    | some i =>
        let hreg := em.hostRegs i
        let em := (em.setHReg i
            { hreg with used := true, vreg := some userReg }
          ).setVReg userReg
            { em.vregs userReg with
              hostReg := hreg.hostReg, allocated := true }
        .ok (em.ensureLoaded blk userReg)
    | none => do
        let (i, em, blk) ← em.spill blk locked
        let victim := em.hostRegs i
        let em := (em.setHReg i
            { victim with used := true, vreg := some userReg }
          ).setVReg userReg
            { em.vregs userReg with
              valid := false
              allocated := true
              hostReg := victim.hostReg
              hostIdx := victim.idx }
        .ok (em.ensureLoaded blk userReg)

end JitEmitter

end RiscvEm

------------------------------------------------------------
-- Prologue And Epilogue
------------------------------------------------------------

namespace RiscvEm

/- Offsets of the fields of `JIT_HartContext`. -/
def CTX_REGS : BitVec 32 := 0
def CTX_RAM : BitVec 32 := 8
def CTX_MEMSIZE : BitVec 32 := 24
def CTX_HART : BitVec 32 := 40

namespace JitEmitter

def prologueCode : Code :=
  push REG_R12 ++ push REG_R13 ++ push REG_R14 ++
    mov REG_R12 REG_RDI ++
    movRm REG_R13 REG_R12 NO_INDEX 0 CTX_REGS ++
    movRm REG_R14 REG_R12 NO_INDEX 0 CTX_RAM

def rvjitEmitPrologue
    (blk : JitBlock) : JitBlock :=
  blk.emit prologueCode

/- Store one guest register back, if it has to be. -/
def writeBack
    (v : VReg) : Code :=
  if !v.allocated || !v.dirty || v.isZero then
    []
  else
    movMr v.hostReg REG_R13 NO_INDEX 0 (vregDisp v.vreg)

/- The guest registers in the order of `vregs`. -/
def guestRegs : List (BitVec 5) :=
  (List.range 32).map (BitVec.ofNat 5)

def epilogueCode
    (em : JitEmitter) : Code :=
  guestRegs.flatMap (fun r => writeBack (em.vregs r)) ++
    pop REG_R14 ++ pop REG_R13 ++ pop REG_R12 ++ ret

def rvjitEmitEpilogue
    (em : JitEmitter)
    (blk : JitBlock) : JitBlock :=
  ((blk.realizeLabel .epilogue).realizeLabel .branch).emit
    em.epilogueCode

end JitEmitter

end RiscvEm

------------------------------------------------------------
-- Instruction Frames
------------------------------------------------------------

namespace RiscvEm

/- What a register-register template emits. -/
abbrev ROp := VReg → VReg → VReg → Code

/- What a register-immediate template emits. -/
abbrev IOp := VReg → VReg → BitVec 64 → Code

/- A store template; it places labels of its own. -/
abbrev SOp := VReg → VReg → BitVec 64 → JitBlock → JitBlock

namespace JitEmitter

def instEmitRType
    (em : JitEmitter)
    (blk : JitBlock)
    (inst : InstructionData)
    (optimizeIfRsz : Bool)
    (emitOp : ROp) :
    Except HostFault (JitEmitter × JitBlock) := do
  if inst.rd = 0 then
    return (em, blk)
  let rs1Zero := optimizeIfRsz && inst.rs1 = 0
  let rs2Zero := optimizeIfRsz && inst.rs2 = 0
  let (em, blk) ← em.rvjitAllocReg blk inst.rd 0
  let rd := em.vregs inst.rd
  if rs1Zero && rs2Zero then
    return (em.setDirty inst.rd,
      blk.emit (xorRr rd.hostReg rd.hostReg))
  if rs1Zero then
    let (em, blk) ← em.rvjitAllocReg blk inst.rs2
      (lockBit rd.hostReg)
    return (em.setDirty inst.rd,
      blk.emit (mov (em.vregs inst.rd).hostReg
        (em.vregs inst.rs2).hostReg))
  if rs2Zero then
    let (em, blk) ← em.rvjitAllocReg blk inst.rs1
      (lockBit rd.hostReg)
    return (em.setDirty inst.rd,
      blk.emit (mov (em.vregs inst.rd).hostReg
        (em.vregs inst.rs1).hostReg))
  let (em, blk) ← em.rvjitAllocReg blk inst.rs1
    (lockBit rd.hostReg)
  let (em, blk) ← em.rvjitAllocReg blk inst.rs2
    (lockBit (em.vregs inst.rs1).hostReg |||
      lockBit (em.vregs inst.rd).hostReg)
  return (em.setDirty inst.rd,
    blk.emit (emitOp (em.vregs inst.rd) (em.vregs inst.rs1)
      (em.vregs inst.rs2)))

def instEmitIType
    (em : JitEmitter)
    (blk : JitBlock)
    (inst : InstructionData)
    (optimizeIfRsz : Bool)
    (emitOp : IOp) :
    Except HostFault (JitEmitter × JitBlock) := do
  if inst.rd = 0 then
    return (em, blk)
  let rs1Zero := optimizeIfRsz && inst.rs1 = 0
  let immZero := optimizeIfRsz && inst.imm = 0
  let (em, blk) ← em.rvjitAllocReg blk inst.rd 0
  let rd := em.vregs inst.rd
  if rs1Zero && immZero then
    return (em.setDirty inst.rd,
      blk.emit (xorRr rd.hostReg rd.hostReg))
  if rs1Zero then
    return (em.setDirty inst.rd,
      blk.emit (movImm32 rd.hostReg (inst.imm.setWidth 32)))
  if immZero then
    let (em, blk) ← em.rvjitAllocReg blk inst.rs1
      (lockBit rd.hostReg)
    return (em.setDirty inst.rd,
      blk.emit (mov (em.vregs inst.rd).hostReg
        (em.vregs inst.rs1).hostReg))
  let (em, blk) ← em.rvjitAllocReg blk inst.rs1
    (lockBit rd.hostReg)
  return (em.setDirty inst.rd,
    blk.emit (emitOp (em.vregs inst.rd) (em.vregs inst.rs1)
      inst.imm))

def instEmitSType
    (em : JitEmitter)
    (blk : JitBlock)
    (inst : InstructionData)
    (emitOp : SOp) :
    Except HostFault (JitEmitter × JitBlock) := do
  let (em, blk) ← em.rvjitAllocReg blk inst.rs1 0
  let (em, blk) ← em.rvjitAllocReg blk inst.rs2
    (lockBit (em.vregs inst.rs1).hostReg)
  return (em,
    emitOp (em.vregs inst.rs1) (em.vregs inst.rs2) inst.imm
      blk)

end JitEmitter

end RiscvEm
