import RiscvEm.Sets.Common

/-
  The instructions of RV64I.

  Each function carries the name of its source function
  `exec_*`; families are given by the shapes of the module
  `Common`.
-/

------------------------------------------------------------
-- Register Instructions
------------------------------------------------------------

namespace RiscvEm

variable {σ : Type}

def execADDW : ExecFun σ :=
  execRType (fun a b => sextW (a + b))

def execSUBW : ExecFun σ :=
  execRType (fun a b => sextW (a - b))

def execSLLW : ExecFun σ :=
  execRType (fun a b =>
    (shl (a.setWidth 32) (b &&& 0x1F)).signExtend 64)

def execSRLW : ExecFun σ :=
  execRType (fun a b =>
    (shr (a.setWidth 32) (b &&& 0x1F)).signExtend 64)

def execSRAW : ExecFun σ :=
  execRType (fun a b =>
    (sar (a.setWidth 32) (b &&& 0x1F)).signExtend 64)

def execADD : ExecFun σ :=
  execRType (fun a b => a + b)

def execSUB : ExecFun σ :=
  execRType (fun a b => a - b)

def execXOR : ExecFun σ :=
  execRType (fun a b => a ^^^ b)

def execOR : ExecFun σ :=
  execRType (fun a b => a ||| b)

def execAND : ExecFun σ :=
  execRType (fun a b => a &&& b)

def execSLL : ExecFun σ :=
  execRType (fun a b => shl a (b &&& 0x3F))

def execSRL : ExecFun σ :=
  execRType (fun a b => shr a (b &&& 0x3F))

def execSRA : ExecFun σ :=
  execRType (fun a b => sar a (b &&& 0x3F))

def execSLT : ExecFun σ :=
  execRType (fun a b => ofCond (a.slt b = true))

def execSLTU : ExecFun σ :=
  execRType (fun a b => ofCond (a < b))

end RiscvEm

------------------------------------------------------------
-- Immediate Instructions
------------------------------------------------------------

namespace RiscvEm

variable {σ : Type}

def execADDIW : ExecFun σ :=
  execIType (fun a imm => sextW (a + imm))

def execSLLIW : ExecFun σ :=
  execIType (fun a imm =>
    (shl (a.setWidth 32) imm).signExtend 64)

def execSRLIW : ExecFun σ :=
  execIType (fun a imm =>
    (shr (a.setWidth 32) imm).signExtend 64)

def execSRAIW : ExecFun σ :=
  execIType (fun a imm =>
    (sar (a.setWidth 32) imm).signExtend 64)

def execADDI : ExecFun σ :=
  execIType (fun a imm => a + imm)

def execXORI : ExecFun σ :=
  execIType (fun a imm => a ^^^ imm)

def execORI : ExecFun σ :=
  execIType (fun a imm => a ||| imm)

def execANDI : ExecFun σ :=
  execIType (fun a imm => a &&& imm)

def execSLLI : ExecFun σ :=
  execIType shl

def execSRLI : ExecFun σ :=
  execIType shr

def execSRAI : ExecFun σ :=
  execIType sar

def execSLTI : ExecFun σ :=
  execIType (fun a imm => ofCond (a.slt imm = true))

def execSLTIU : ExecFun σ :=
  execIType (fun a imm => ofCond (a < imm))

def execLUI : ExecFun σ :=
  fun _ d => execRd 4 d.rd (fun _ => d.imm)

def execAUIPC : ExecFun σ :=
  fun _ d => execRd 4 d.rd (fun s => s.hart.pc + d.imm)

end RiscvEm

------------------------------------------------------------
-- Loads And Stores
------------------------------------------------------------

namespace RiscvEm

variable {σ : Type}

def execLB : ExecFun σ :=
  execLType .Byte (sextBytes .Byte)

def execLH : ExecFun σ :=
  execLType .Short (sextBytes .Short)

def execLW : ExecFun σ :=
  execLType .Int (sextBytes .Int)

def execLD : ExecFun σ :=
  execLType .Long id

def execLBU : ExecFun σ :=
  execLType .Byte id

def execLHU : ExecFun σ :=
  execLType .Short id

def execLWU : ExecFun σ :=
  execLType .Int id

def execSB : ExecFun σ :=
  execSType .Byte

def execSH : ExecFun σ :=
  execSType .Short

def execSW : ExecFun σ :=
  execSType .Int

def execSD : ExecFun σ :=
  execSType .Long

end RiscvEm

------------------------------------------------------------
-- Branches And Jumps
------------------------------------------------------------

namespace RiscvEm

variable {σ : Type}

def execBEQ : ExecFun σ :=
  execBranch (fun a b => a == b)

def execBNE : ExecFun σ :=
  execBranch (fun a b => a != b)

def execBLT : ExecFun σ :=
  execBranch (fun a b => a.slt b)

def execBGE : ExecFun σ :=
  execBranch (fun a b => b.sle a)

def execBLTU : ExecFun σ :=
  execBranch (fun a b => decide (a < b))

def execBGEU : ExecFun σ :=
  execBranch (fun a b => decide (b ≤ a))

/- Jump to a target and set the link register. -/
def execJump
    (target : BitVec 64)
    (rd : BitVec 5) : Exec σ :=
  fun s =>
    if target.getLsbD 0 then
      .ok (⟨false, true, 0, EXC_INST_ADDR_MISALIGNED, target⟩,
        s)
    else
      .ok (.jumped, (s.setPc target).setGpr rd (s.hart.pc + 4))

def execJAL : ExecFun σ :=
  fun _ d s => execJump (s.hart.pc + d.imm) d.rd s

def execJALR : ExecFun σ :=
  fun _ d s =>
    execJump ((s.gpr d.rs1 + d.imm) &&& ~~~1) d.rd s

end RiscvEm

------------------------------------------------------------
-- Environment
------------------------------------------------------------

namespace RiscvEm

variable {σ : Type}

def execECALL : ExecFun σ :=
  fun _ _ s =>
    match s.hart.mode with
    | .Machine =>
        .ok (⟨false, true, 0, EXC_ENV_CALL_FROM_M, 0⟩, s)
    | .Supervisor =>
        .ok (⟨false, true, 0, EXC_ENV_CALL_FROM_S, 0⟩, s)
    | .User =>
        .ok (⟨false, true, 0, EXC_ENV_CALL_FROM_U, 0⟩, s)
    | .Hypervisor => .ok (.next 4, s)

def execEBREAK : ExecFun σ :=
  fun _ _ s =>
    .ok (⟨false, true, 0, EXC_BREAKPOINT, s.hart.pc⟩, s)

def execFENCE : ExecFun σ :=
  fun _ _ s => .ok (.next 4, s)

end RiscvEm
