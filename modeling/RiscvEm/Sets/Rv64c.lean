import RiscvEm.Sets.Common

/-
  The compressed instructions.

  The three-bit register fields number the registers from 8
  on. Where a function reads `inst.rd` it gets bits 7 to 11
  of the word; `& 0x7` leaves the three-bit field at the same
  place.
-/

------------------------------------------------------------
-- Register Fields
------------------------------------------------------------

namespace RiscvEm

/- `8 + d_c_rd(inst.inst)`. -/
def InstructionData.cRd
    (d : InstructionData) : BitVec 5 :=
  8 + dCRd d.inst

/- `8 + d_c_rs1(inst.inst)`. -/
def InstructionData.cRs1
    (d : InstructionData) : BitVec 5 :=
  8 + dCRs1 d.inst

/- `8 + (inst.rd & 0x7)`. -/
def InstructionData.cRdLow
    (d : InstructionData) : BitVec 5 :=
  8 + (d.rd &&& 0x7)

end RiscvEm

------------------------------------------------------------
-- Loads And Stores
------------------------------------------------------------

namespace RiscvEm

variable {σ : Type}

def execC_LW : ExecFun σ :=
  fun P d => execLoad P 2 .Int (fun s => s.gpr d.cRs1 + d.imm)
    (fun s val => s.setGpr d.cRd (sextBytes .Int val))

def execC_LD : ExecFun σ :=
  fun P d => execLoad P 2 .Long (fun s => s.gpr d.cRs1 + d.imm)
    (fun s val => s.setGpr d.cRd val)

def execC_FLD : ExecFun σ :=
  fun P d => execLoad P 2 .Long (fun s => s.gpr d.cRs1 + d.imm)
    (fun s val => s.setFpr d.cRd val)

def execC_SW : ExecFun σ :=
  fun P d => execStore P 2 .Int (fun s => s.gpr d.cRs1 + d.imm)
    (fun s => s.gpr d.cRd)

def execC_SD : ExecFun σ :=
  fun P d => execStore P 2 .Long (fun s => s.gpr d.cRs1 + d.imm)
    (fun s => s.gpr d.cRd)

def execC_FSD : ExecFun σ :=
  fun P d => execStore P 2 .Long (fun s => s.gpr d.cRs1 + d.imm)
    (fun s => s.fpr d.cRd)

def execC_LWSP : ExecFun σ :=
  fun P d => execLoad P 2 .Int (fun s => s.gpr 2 + d.imm)
    (fun s val => s.setGpr d.rd (sextBytes .Int val))

def execC_LDSP : ExecFun σ :=
  fun P d => execLoad P 2 .Long (fun s => s.gpr 2 + d.imm)
    (fun s val => s.setGpr d.rd val)

def execC_FLDSP : ExecFun σ :=
  fun P d => execLoad P 2 .Long (fun s => s.gpr 2 + d.imm)
    (fun s val => s.setFpr d.rd val)

def execC_SWSP : ExecFun σ :=
  fun P d => execStore P 2 .Int (fun s => s.gpr 2 + d.imm)
    (fun s => s.gpr (dCRs2 d.inst))

def execC_SDSP : ExecFun σ :=
  fun P d => execStore P 2 .Long (fun s => s.gpr 2 + d.imm)
    (fun s => s.gpr (dCRs2 d.inst))

def execC_FSDSP : ExecFun σ :=
  fun P d => execStore P 2 .Long (fun s => s.gpr 2 + d.imm)
    (fun s => s.fpr (dCRs2 d.inst))

end RiscvEm

------------------------------------------------------------
-- Arithmetic
------------------------------------------------------------

namespace RiscvEm

variable {σ : Type}

def execC_ADDI4SPN : ExecFun σ :=
  fun _ d => execRd 2 d.cRd (fun s => s.gpr 2 + d.imm)

def execC_NOP : ExecFun σ :=
  fun _ _ s => .ok (.next 2, s)

def execC_ADDI : ExecFun σ :=
  fun _ d => execRd 2 d.rd (fun s => s.gpr d.rd + d.imm)

def execC_ADDIW : ExecFun σ :=
  fun _ d => execRd 2 d.rd
    (fun s => sextW (s.gpr d.rd + d.imm))

def execC_LI : ExecFun σ :=
  fun _ d => execRd 2 d.rd (fun _ => d.imm)

def execC_LUI_ADDI16SP : ExecFun σ :=
  fun _ d =>
    if d.rd = 2 then
      -- C.ADDI16SP
      execRd 2 2 (fun s =>
        s.gpr 2 + sext ((dCNzimm9 d.inst).setWidth 32) 10)
    else
      -- C.LUI
      execRd 2 d.rd (fun _ => d.imm <<< 12)

def execC_SRLI : ExecFun σ :=
  fun _ d => execRd 2 (8 + d.rd)
    (fun s => shr (s.gpr (8 + d.rd)) d.imm)

def execC_SRAI : ExecFun σ :=
  fun _ d => execRd 2 d.cRdLow
    (fun s => sar (s.gpr d.cRdLow) d.imm)

def execC_ANDI : ExecFun σ :=
  fun _ d => execRd 2 d.cRdLow
    (fun s =>
      s.gpr d.cRdLow &&& sextW (sext (d.imm.setWidth 32) 6))

/- `rd' = rd' op rs2'`. -/
def execCArith
    (f : BitVec 64 → BitVec 64 → BitVec 64) : ExecFun σ :=
  fun _ d => execRd 2 d.cRdLow
    (fun s => f (s.gpr d.cRdLow) (s.gpr d.cRd))

def execC_SUB : ExecFun σ :=
  execCArith (fun a b => a - b)

def execC_XOR : ExecFun σ :=
  execCArith (fun a b => a ^^^ b)

def execC_OR : ExecFun σ :=
  execCArith (fun a b => a ||| b)

def execC_AND : ExecFun σ :=
  execCArith (fun a b => a &&& b)

def execC_SUBW : ExecFun σ :=
  execCArith (fun a b => sextW (a - b))

def execC_ADDW : ExecFun σ :=
  execCArith (fun a b => sextW (a + b))

def execC_SLLI : ExecFun σ :=
  fun _ d => execRd 2 d.rd (fun s => shl (s.gpr d.rd) d.imm)

def execC_MV : ExecFun σ :=
  fun _ d => execRd 2 d.rd (fun s => s.gpr (dCRs2 d.inst))

def execC_ADD : ExecFun σ :=
  fun _ d => execRd 2 d.rd
    (fun s => s.gpr d.rd + s.gpr (dCRs2 d.inst))

end RiscvEm

------------------------------------------------------------
-- Jumps
------------------------------------------------------------

namespace RiscvEm

variable {σ : Type}

def execC_J : ExecFun σ :=
  fun _ d s =>
    .ok (.jumped, s.setPc (s.hart.pc + sextW d.imm))

def execC_BEQZ : ExecFun σ :=
  fun P d => execBranchZ (fun a => a == 0) d.cRdLow P d

def execC_BNEZ : ExecFun σ :=
  fun P d => execBranchZ (fun a => a != 0) d.cRdLow P d

def execC_JR : ExecFun σ :=
  fun _ d s => .ok (.jumped, s.setPc (s.gpr d.rd &&& ~~~1))

def execC_EBREAK : ExecFun σ :=
  fun _ _ s =>
    .ok (⟨false, true, 0, EXC_BREAKPOINT, s.hart.pc⟩, s)

def execC_JALR : ExecFun σ :=
  fun _ d s =>
    .ok (.jumped,
      (s.setPc (s.gpr d.rd &&& ~~~1)).setGpr 1
        (s.hart.pc + 2))

end RiscvEm
