import RiscvEm.Jit.Emitter

/-
  The instruction templates of the JIT and the table that
  says which instructions have one.

  Key definitions include:
    * `JitTemplate`
    * `jitStore`
    * `conversionTbl`
-/

------------------------------------------------------------
-- Templates
------------------------------------------------------------

namespace RiscvEm

/- The addresses of `jit_slow_sb` .. `jit_slow_sd`. -/
abbrev SlowFuncs := MemorySize → BitVec 64

/- A function `execjit_*`: emit one instruction. -/
abbrev JitTemplate :=
  InstructionData → JitEmitter → JitBlock →
    Except HostFault (JitEmitter × JitBlock)

/- A template that ends in `inst_emit_r_type`. -/
def rTemplate
    (optimizeIfRsz : Bool)
    (emitOp : ROp) : JitTemplate :=
  fun inst em blk =>
    em.instEmitRType blk inst optimizeIfRsz emitOp

/- A template that ends in `inst_emit_i_type`. -/
def iTemplate
    (optimizeIfRsz : Bool)
    (emitOp : IOp) : JitTemplate :=
  fun inst em blk =>
    em.instEmitIType blk inst optimizeIfRsz emitOp

end RiscvEm

------------------------------------------------------------
-- Register-Register Templates
------------------------------------------------------------

namespace RiscvEm

/- Addition works in either order of the operands. -/
def addOp
    (add : BitVec 8 → BitVec 8 → Code) : ROp :=
  fun rd rs1 rs2 =>
    if rd.vreg ≠ rs1.vreg ∧ rd.vreg ≠ rs2.vreg then
      mov rd.hostReg rs1.hostReg ++
        add rd.hostReg rs2.hostReg
    else if rd.vreg = rs1.vreg then
      add rd.hostReg rs2.hostReg
    else
      add rd.hostReg rs1.hostReg

/- Subtraction saves the subtrahend when it is `rd`. -/
def subOp
    (sub : BitVec 8 → BitVec 8 → Code) : ROp :=
  fun rd rs1 rs2 =>
    if rd.vreg ≠ rs1.vreg ∧ rd.vreg ≠ rs2.vreg then
      mov rd.hostReg rs1.hostReg ++
        sub rd.hostReg rs2.hostReg
    else if rd.vreg = rs1.vreg then
      sub rd.hostReg rs2.hostReg
    else
      mov REG_RCX rs2.hostReg ++
        mov rd.hostReg rs1.hostReg ++
        sub rd.hostReg REG_RCX

/- The common shape of logic and shift templates. -/
def binaryOp
    (op : BitVec 8 → BitVec 8 → Code) : ROp :=
  fun rd rs1 rs2 =>
    if rd.vreg = rs2.vreg then
      mov REG_RCX rs2.hostReg ++
        (if rd.vreg ≠ rs1.vreg then
          mov rd.hostReg rs1.hostReg
        else
          []) ++
        op rd.hostReg REG_RCX
    else
      (if rd.vreg ≠ rs1.vreg then
        mov rd.hostReg rs1.hostReg
      else
        []) ++
        op rd.hostReg rs2.hostReg

/- Sign-extend the 32-bit result of an operation. -/
def wideR
    (op : ROp) : ROp :=
  fun rd rs1 rs2 =>
    op rd rs1 rs2 ++ movsxd rd.hostReg rd.hostReg

/- Comparison of two registers; `x0` is cleared first. -/
def sltOp
    (set : BitVec 8 → Code) : ROp :=
  fun rd rs1 rs2 =>
    (if rs1.vreg = 0 then
      xorRr rs1.hostReg rs1.hostReg
    else
      []) ++
      (if rs2.vreg = 0 then
        xorRr rs2.hostReg rs2.hostReg
      else
        []) ++
      cmp rs1.hostReg rs2.hostReg ++
      set rd.hostReg ++
      movzx rd.hostReg rd.hostReg

def execjitADD := rTemplate true (addOp addRr)
def execjitADDW := rTemplate true (wideR (addOp addRr32))
def execjitSUB := rTemplate true (subOp subRr)
def execjitSUBW := rTemplate true (wideR (subOp subRr32))
def execjitXOR := rTemplate true (binaryOp xorRr)
def execjitOR := rTemplate true (binaryOp orRr)

/- `AND` has a shortcut of its own. -/
def execjitAND :=
  rTemplate false fun rd rs1 rs2 =>
    if rs1.isZero || rs2.isZero then
      xorRr rd.hostReg rd.hostReg
    else
      binaryOp andRr rd rs1 rs2

def execjitSLL := rTemplate true (binaryOp shlRc)
def execjitSLLW := rTemplate true (wideR (binaryOp shlRc32))
def execjitSRL := rTemplate true (binaryOp shrRc)
def execjitSRLW := rTemplate true (wideR (binaryOp shrRc32))
def execjitSRA := rTemplate true (binaryOp sarRc)
def execjitSRAW := rTemplate true (wideR (binaryOp sarRc32))
def execjitSLT := rTemplate false (sltOp setl)
def execjitSLTU := rTemplate false (sltOp setb)

end RiscvEm

------------------------------------------------------------
-- Register-Immediate Templates
------------------------------------------------------------

namespace RiscvEm

/- Copy the source, then operate in place. -/
def immOp
    (op : BitVec 8 → BitVec 64 → Code) : IOp :=
  fun rd rs1 imm =>
    (if rd.vreg ≠ rs1.vreg then
      mov rd.hostReg rs1.hostReg
    else
      []) ++
      op rd.hostReg imm

/- Sign-extend the 32-bit result of an operation. -/
def wideI
    (op : IOp) : IOp :=
  fun rd rs1 imm =>
    op rd rs1 imm ++ movsxd rd.hostReg rd.hostReg

/- An encoder that takes the immediate as `int32_t`. -/
def imm32Op
    (enc : BitVec 8 → BitVec 32 → Code) :
    BitVec 8 → BitVec 64 → Code :=
  fun dest imm => enc dest (imm.setWidth 32)

/- A shift that takes `imm & mask` as `uint8_t`. -/
def shamtOp
    (enc : BitVec 8 → BitVec 8 → Code)
    (mask : BitVec 64) :
    BitVec 8 → BitVec 64 → Code :=
  fun dest imm => enc dest ((imm &&& mask).setWidth 8)

/- Comparison with an immediate in `RCX`. -/
def sltiOp
    (set : BitVec 8 → Code) : IOp :=
  fun rd rs1 imm =>
    (if rs1.vreg = 0 then
      xorRr rs1.hostReg rs1.hostReg
    else
      []) ++
      movImm64 REG_RCX imm ++
      cmp rs1.hostReg REG_RCX ++
      set rd.hostReg ++
      movzx rd.hostReg rd.hostReg

def execjitADDI :=
  iTemplate true (immOp (imm32Op addRimm32))
def execjitADDIW :=
  iTemplate true (wideI (immOp (imm32Op addR32imm32)))
def execjitXORI :=
  iTemplate true (immOp (imm32Op xorRimm32))
def execjitORI :=
  iTemplate true (immOp (imm32Op orRimm32))

/- `ANDI` has a shortcut of its own. -/
def execjitANDI :=
  iTemplate false fun rd rs1 imm =>
    if rs1.isZero || imm = 0 then
      xorRr rd.hostReg rd.hostReg
    else
      immOp (imm32Op andRimm32) rd rs1 imm

def execjitSLLI :=
  iTemplate true (immOp (shamtOp shlRimm8 0x3F))
def execjitSLLIW :=
  iTemplate true (wideI (immOp (shamtOp shlR32imm8 0x1F)))
def execjitSRLI :=
  iTemplate true (immOp (shamtOp shrRimm8 0x3F))
def execjitSRLIW :=
  iTemplate true (wideI (immOp (shamtOp shrR32imm8 0x1F)))
def execjitSRAI :=
  iTemplate true (immOp (shamtOp sarRimm8 0x3F))
def execjitSRAIW :=
  iTemplate true (wideI (immOp (shamtOp sarR32imm8 0x1F)))
def execjitSLTI := iTemplate false (sltiOp setl)
def execjitSLTIU := iTemplate false (sltiOp setb)

end RiscvEm

------------------------------------------------------------
-- Stores
------------------------------------------------------------

namespace RiscvEm

/- The offset of the access from the start of RAM, in `RCX`. -/
def storeOffsetCode
    (rs1 : VReg)
    (imm : BitVec 64) : Code :=
  mov REG_RCX rs1.hostReg ++
    addRimm32 REG_RCX (imm.setWidth 32) ++
    subRimm32 REG_RCX 0x40000000 ++
    subRimm32 REG_RCX 0x40000000 ++
    cmpRm REG_RCX REG_R12 NO_INDEX 0 CTX_MEMSIZE

/- The call of the slow function, up to the jump over. -/
def storeSlowCode
    (slow : BitVec 64)
    (rs2 : VReg) : Code :=
  push REG_RDI ++ push REG_RSI ++ push REG_RAX ++
    push REG_RDX ++
    (if rs2.vreg = 0 then
      xorRr REG_RDX REG_RDX
    else
      mov REG_RDX rs2.hostReg) ++
    mov REG_RSI REG_RCX ++
    movRm REG_RDI REG_R12 NO_INDEX 0 CTX_HART ++
    movImm64 REG_RAX slow ++
    call REG_RAX ++
    pop REG_RDX ++ pop REG_RAX ++ pop REG_RSI ++
    pop REG_RDI

/- The direct store into RAM. -/
def storeFastCode
    (fastMov : BitVec 8 → BitVec 8 → BitVec 8 → BitVec 8 →
      BitVec 32 → Code)
    (rs2 : VReg) : Code :=
  if rs2.vreg = 0 then
    push REG_RAX ++ xorRr REG_RAX REG_RAX ++
      fastMov REG_RAX REG_R14 REG_RCX 0 0 ++ pop REG_RAX
  else
    fastMov rs2.hostReg REG_R14 REG_RCX 0 0

def jitStore
    (fastMov : BitVec 8 → BitVec 8 → BitVec 8 → BitVec 8 →
      BitVec 32 → Code)
    (slow : BitVec 64) : JitTemplate :=
  fun inst em blk =>
    em.instEmitSType blk inst fun rs1 rs2 imm blk =>
      let blk := blk.emit (storeOffsetCode rs1 imm)
      let blk := (blk.pushLabel .fastPath 1).emit (jbe8 0)
      let blk := blk.emit (storeSlowCode slow rs2)
      let blk := (blk.pushLabel .done 1).emit (jmp8 0)
      let blk := blk.realizeLabel .fastPath
      let blk := blk.emit (storeFastCode fastMov rs2)
      blk.realizeLabel .done

def execjitSB
    (slow : SlowFuncs) : JitTemplate :=
  jitStore movM8r8 (slow .Byte)

def execjitSH
    (slow : SlowFuncs) : JitTemplate :=
  jitStore movM16r16 (slow .Short)

def execjitSW
    (slow : SlowFuncs) : JitTemplate :=
  jitStore movM32r32 (slow .Int)

def execjitSD
    (slow : SlowFuncs) : JitTemplate :=
  jitStore movMr (slow .Long)

end RiscvEm

------------------------------------------------------------
-- The Conversion Table
------------------------------------------------------------

namespace RiscvEm

/-
  `conversion_tbl`: the template of an instruction. No
  template returns `true`, so none ends a block by itself.
-/
def conversionTbl
    (slow : SlowFuncs) : Op → Option JitTemplate
  | .ADD => some execjitADD
  | .ADDW => some execjitADDW
  | .SUB => some execjitSUB
  | .SUBW => some execjitSUBW
  | .XOR => some execjitXOR
  | .OR => some execjitOR
  | .AND => some execjitAND
  | .SLL => some execjitSLL
  | .SLLW => some execjitSLLW
  | .SRL => some execjitSRL
  | .SRLW => some execjitSRLW
  | .SRA => some execjitSRA
  | .SRAW => some execjitSRAW
  | .SLT => some execjitSLT
  | .SLTU => some execjitSLTU
  | .ADDI => some execjitADDI
  | .ADDIW => some execjitADDIW
  | .XORI => some execjitXORI
  | .ORI => some execjitORI
  | .ANDI => some execjitANDI
  | .SLLI => some execjitSLLI
  | .SLLIW => some execjitSLLIW
  | .SRLI => some execjitSRLI
  | .SRLIW => some execjitSRLIW
  | .SRAI => some execjitSRAI
  | .SRAIW => some execjitSRAIW
  | .SLTI => some execjitSLTI
  | .SLTIU => some execjitSLTIU
  | .SB => some (execjitSB slow)
  | .SH => some (execjitSH slow)
  | .SW => some (execjitSW slow)
  | .SD => some (execjitSD slow)
  | _ => none

end RiscvEm
