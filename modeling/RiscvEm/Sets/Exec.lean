import RiscvEm.Decode.Cache
import RiscvEm.Sets.Bitmanip
import RiscvEm.Sets.Rv64a
import RiscvEm.Sets.Rv64c
import RiscvEm.Sets.Rv64d
import RiscvEm.Sets.Rv64i
import RiscvEm.Sets.Rv64m
import RiscvEm.Sets.System

/-
  The function that each instruction of the table calls.

  Key definitions include `Op.exec`.
-/

------------------------------------------------------------
-- Dispatch
------------------------------------------------------------

namespace RiscvEm

variable {σ : Type}

/- `cache.inst->func`. -/
def Op.exec : Op → ExecFun σ
  | .ADD => execADD
  | .ADDW => execADDW
  | .SUB => execSUB
  | .SUBW => execSUBW
  | .XOR => execXOR
  | .OR => execOR
  | .AND => execAND
  | .SLL => execSLL
  | .SLLW => execSLLW
  | .SRL => execSRL
  | .SRLW => execSRLW
  | .SRA => execSRA
  | .SRAW => execSRAW
  | .SLT => execSLT
  | .SLTU => execSLTU
  | .ADDI => execADDI
  | .ADDIW => execADDIW
  | .XORI => execXORI
  | .ORI => execORI
  | .ANDI => execANDI
  | .SLLI => execSLLI
  | .SLLIW => execSLLIW
  | .SRLIW => execSRLIW
  | .SRAIW => execSRAIW
  | .SRLI => execSRLI
  | .SRAI => execSRAI
  | .SLTI => execSLTI
  | .SLTIU => execSLTIU
  | .LB => execLB
  | .LH => execLH
  | .LW => execLW
  | .LD => execLD
  | .LBU => execLBU
  | .LHU => execLHU
  | .LWU => execLWU
  | .SB => execSB
  | .SH => execSH
  | .SW => execSW
  | .SD => execSD
  | .BEQ => execBEQ
  | .BNE => execBNE
  | .BLT => execBLT
  | .BGE => execBGE
  | .BLTU => execBLTU
  | .BGEU => execBGEU
  | .JAL => execJAL
  | .JALR => execJALR
  | .LUI => execLUI
  | .AUIPC => execAUIPC
  | .ECALL => execECALL
  | .EBREAK => execEBREAK
  | .FENCE => execFENCE
  | .MUL => execMUL
  | .MULW => execMULW
  | .MULH => execMULH
  | .MULHSU => execMULHSU
  | .MULHU => execMULHU
  | .DIV => execDIV
  | .DIVU => execDIVU
  | .DIVUW => execDIVUW
  | .DIVW => execDIVW
  | .REM => execREM
  | .REMU => execREMU
  | .REMUW => execREMUW
  | .REMW => execREMW
  | .AMOSWAP_W => execAMOSWAP_W
  | .AMOADD_W => execAMOADD_W
  | .AMOAND_W => execAMOAND_W
  | .AMOXOR_W => execAMOXOR_W
  | .AMOOR_W => execAMOOR_W
  | .AMOMIN_W => execAMOMIN_W
  | .AMOMINU_W => execAMOMINU_W
  | .AMOMAX_W => execAMOMAX_W
  | .AMOMAXU_W => execAMOMAXU_W
  | .LR_W => execLR_W
  | .SC_W => execSC_W
  | .AMOSWAP_D => execAMOSWAP_D
  | .AMOADD_D => execAMOADD_D
  | .AMOAND_D => execAMOAND_D
  | .AMOXOR_D => execAMOXOR_D
  | .AMOOR_D => execAMOOR_D
  | .AMOMIN_D => execAMOMIN_D
  | .AMOMINU_D => execAMOMINU_D
  | .AMOMAX_D => execAMOMAX_D
  | .AMOMAXU_D => execAMOMAXU_D
  | .LR_D => execLR_D
  | .SC_D => execSC_D
  | .FMADD_S => execFMADD_S
  | .FMSUB_S => execFMSUB_S
  | .FNMADD_S => execFNMADD_S
  | .FNMSUB_S => execFNMSUB_S
  | .FADD_S => execFADD_S
  | .FSUB_S => execFSUB_S
  | .FMUL_S => execFMUL_S
  | .FDIV_S => execFDIV_S
  | .FSQRT_S => execFSQRT_S
  | .FSGNJ_S => execFSGNJ_S
  | .FSGNJN_S => execFSGNJN_S
  | .FSGNJX_S => execFSGNJX_S
  | .FMIN_S => execFMIN_S
  | .FMAX_S => execFMAX_S
  | .FCVT_W_S => execFCVT_W_S
  | .FCVT_WU_S => execFCVT_WU_S
  | .FCVT_S_W => execFCVT_S_W
  | .FCVT_S_WU => execFCVT_S_WU
  | .FCVT_L_S => execFCVT_L_S
  | .FCVT_LU_S => execFCVT_LU_S
  | .FCVT_S_L => execFCVT_S_L
  | .FCVT_S_LU => execFCVT_S_LU
  | .FMV_X_W => execFMV_X_W
  | .FMV_W_X => execFMV_W_X
  | .FEQ_S => execFEQ_S
  | .FLT_S => execFLT_S
  | .FLE_S => execFLE_S
  | .FCLASS_S => execFCLASS_S
  | .FLW => execFLW
  | .FSW => execFSW
  | .FMADD_D => execFMADD_D
  | .FMSUB_D => execFMSUB_D
  | .FNMADD_D => execFNMADD_D
  | .FNMSUB_D => execFNMSUB_D
  | .FADD_D => execFADD_D
  | .FSUB_D => execFSUB_D
  | .FMUL_D => execFMUL_D
  | .FDIV_D => execFDIV_D
  | .FSQRT_D => execFSQRT_D
  | .FSGNJ_D => execFSGNJ_D
  | .FSGNJN_D => execFSGNJN_D
  | .FSGNJX_D => execFSGNJX_D
  | .FMIN_D => execFMIN_D
  | .FMAX_D => execFMAX_D
  | .FCVT_S_D => execFCVT_S_D
  | .FCVT_D_S => execFCVT_D_S
  | .FCVT_W_D => execFCVT_W_D
  | .FCVT_WU_D => execFCVT_WU_D
  | .FCVT_D_W => execFCVT_D_W
  | .FCVT_D_WU => execFCVT_D_WU
  | .FCVT_L_D => execFCVT_L_D
  | .FCVT_LU_D => execFCVT_LU_D
  | .FCVT_D_L => execFCVT_D_L
  | .FCVT_D_LU => execFCVT_D_LU
  | .FMV_X_D => execFMV_X_D
  | .FMV_D_X => execFMV_D_X
  | .FEQ_D => execFEQ_D
  | .FLT_D => execFLT_D
  | .FLE_D => execFLE_D
  | .FCLASS_D => execFCLASS_D
  | .FLD => execFLD
  | .FSD => execFSD
  | .C_ADDI4SPN => execC_ADDI4SPN
  | .C_LW => execC_LW
  | .C_LD => execC_LD
  | .C_SW => execC_SW
  | .C_SD => execC_SD
  | .C_NOP => execC_NOP
  | .C_ADDI => execC_ADDI
  | .C_ADDIW => execC_ADDIW
  | .C_LI => execC_LI
  | .C_LUI_ADDI16SP => execC_LUI_ADDI16SP
  | .C_SRLI => execC_SRLI
  | .C_SRAI => execC_SRAI
  | .C_ANDI => execC_ANDI
  | .C_SUB => execC_SUB
  | .C_XOR => execC_XOR
  | .C_OR => execC_OR
  | .C_AND => execC_AND
  | .C_SUBW => execC_SUBW
  | .C_ADDW => execC_ADDW
  | .C_J => execC_J
  | .C_BEQZ => execC_BEQZ
  | .C_BNEZ => execC_BNEZ
  | .C_SLLI => execC_SLLI
  | .C_LWSP => execC_LWSP
  | .C_LDSP => execC_LDSP
  | .C_JR => execC_JR
  | .C_MV => execC_MV
  | .C_EBREAK => execC_EBREAK
  | .C_JALR => execC_JALR
  | .C_ADD => execC_ADD
  | .C_SWSP => execC_SWSP
  | .C_SDSP => execC_SDSP
  | .C_FLD => execC_FLD
  | .C_FSD => execC_FSD
  | .C_FLDSP => execC_FLDSP
  | .C_FSDSP => execC_FSDSP
  | .MRET => execMRET
  | .SRET => execSRET
  | .WFI => execWFI
  | .SFENCE_VMA => execSFENCE_VMA
  | .CSRRW => execCSRRW
  | .CSRRS => execCSRRS
  | .CSRRC => execCSRRC
  | .CSRRWI => execCSRRWI
  | .CSRRSI => execCSRRSI
  | .CSRRCI => execCSRRCI
  | .FENCE_I => execFENCE_I
  | .ADD_UW => execADD_UW
  | .SH1ADD => execSH1ADD
  | .SH1ADD_UW => execSH1ADD_UW
  | .SH2ADD => execSH2ADD
  | .SH2ADD_UW => execSH2ADD_UW
  | .SH3ADD => execSH3ADD
  | .SH3ADD_UW => execSH3ADD_UW
  | .SLLI_UW => execSLLI_UW
  | .ANDN => execANDN
  | .ORN => execORN
  | .XNOR => execXNOR
  | .CLZ => execCLZ
  | .CLZW => execCLZW
  | .CTZ => execCTZ
  | .CTZW => execCTZW
  | .CPOP => execCPOP
  | .CPOPW => execCPOPW
  | .MAX => execMAX
  | .MAXU => execMAXU
  | .MIN => execMIN
  | .MINU => execMINU
  | .SEXT_B => execSEXT_B
  | .SEXT_H => execSEXT_H
  | .ZEXT_H => execZEXT_H
  | .ROL => execROL
  | .ROLW => execROLW
  | .ROR => execROR
  | .RORI => execRORI
  | .RORIW => execRORIW
  | .RORW => execRORW
  | .ORC_B => execORC_B
  | .REV8 => execREV8
  | .CLMUL => execCLMUL
  | .CLMULH => execCLMULH
  | .CLMULR => execCLMULR
  | .BCLR => execBCLR
  | .BCLRI => execBCLRI
  | .BEXT => execBEXT
  | .BEXTI => execBEXTI
  | .BINV => execBINV
  | .BINVI => execBINVI
  | .BSET => execBSET
  | .BSETI => execBSETI
  | .cbo_zero => execcbo_zero

end RiscvEm
