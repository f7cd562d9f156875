import RiscvEm.Defines

/-
  The fields of an instruction word: register numbers, the
  immediates of the base formats and the scrambled immediates
  of the compressed ones.

  Key definitions include:
    * `sext`
    * `getBits`
    * `immI`
    * `Op`
    * `InstructionData`
    * `Instruction`
-/

------------------------------------------------------------
-- Register Fields
------------------------------------------------------------

namespace RiscvEm

/-
  `(int32_t)(val << shift) >> shift` for
  `shift = 32 - bits`, widened to the 64 bits of the
  immediate.
-/
def sext
    (val : BitVec 32)
    (bits : Nat) : BitVec 64 :=
  ((val <<< (32 - bits)).sshiftRight (32 - bits)).signExtend
    64

/- `(inst >> lo) & ((1u << (hi - lo + 1)) - 1)`. -/
def getBits
    (inst : BitVec 32)
    (hi lo : Nat) : BitVec 32 :=
  (inst >>> lo) &&& ((1#32 <<< (hi - lo + 1)) - 1)

/- Bits 11..7. -/
def dRd (inst : BitVec 32) : BitVec 5 :=
  inst.extractLsb' 7 5

/- Bits 19..15. -/
def dRs1 (inst : BitVec 32) : BitVec 5 :=
  inst.extractLsb' 15 5

/- Bits 24..20. -/
def dRs2 (inst : BitVec 32) : BitVec 5 :=
  inst.extractLsb' 20 5

/- Bits 31..27. -/
def dRs3 (inst : BitVec 32) : BitVec 5 :=
  inst.extractLsb' 27 5

/- Bits 14..12. -/
def dRm (inst : BitVec 32) : BitVec 3 :=
  inst.extractLsb' 12 3

/- The three-bit register fields of compressed formats. -/
def dCRd (inst : BitVec 32) : BitVec 5 :=
  (inst.extractLsb' 2 3).setWidth 5

def dCRs1 (inst : BitVec 32) : BitVec 5 :=
  (inst.extractLsb' 7 3).setWidth 5

/- The full `rs2` field of compressed formats. -/
def dCRs2 (inst : BitVec 32) : BitVec 5 :=
  inst.extractLsb' 2 5

end RiscvEm

------------------------------------------------------------
-- Immediates Of The Base Formats
------------------------------------------------------------

namespace RiscvEm

def immZicsr (inst : BitVec 32) : BitVec 64 :=
  (inst >>> 20).setWidth 64

def immI (inst : BitVec 32) : BitVec 64 :=
  sext (inst >>> 20) 12

def immS (inst : BitVec 32) : BitVec 64 :=
  sext
    (((inst >>> 7) &&& 0x1f) ||| ((inst >>> 20) &&& 0xfe0))
    12

def immB (inst : BitVec 32) : BitVec 64 :=
  sext
    ((getBits inst 11 8 <<< 1) |||
      (getBits inst 30 25 <<< 5) |||
      (getBits inst 7 7 <<< 11) |||
      (getBits inst 31 31 <<< 12))
    13

def immU (inst : BitVec 32) : BitVec 64 :=
  (inst &&& 0xFFFFF000).signExtend 64

def immJ (inst : BitVec 32) : BitVec 64 :=
  sext
    ((getBits inst 30 21 <<< 1) |||
      (getBits inst 20 20 <<< 11) |||
      (getBits inst 19 12 <<< 12) |||
      (getBits inst 31 31 <<< 20))
    21

/- The shift amount of 32-bit shifts. -/
def shamt (inst : BitVec 32) : BitVec 64 :=
  immI inst &&& 0x1f

/- The shift amount of 64-bit shifts. -/
def shamt64 (inst : BitVec 32) : BitVec 64 :=
  immI inst &&& 0x3f

end RiscvEm

------------------------------------------------------------
-- Immediates Of The Compressed Formats
------------------------------------------------------------

namespace RiscvEm

def dCUimm (inst : BitVec 32) : BitVec 64 :=
  (((inst >>> 1) &&& 0x3c0) ||| ((inst >>> 7) &&& 0x30) |||
    ((inst >>> 2) &&& 0x8) ||| ((inst >>> 4) &&& 0x4)).setWidth
    64

def dCUimmCl (inst : BitVec 32) : BitVec 64 :=
  ((getBits inst 6 6 <<< 2) |||
    (((inst >>> 10) &&& 0x7) <<< 3) |||
    (getBits inst 5 5 <<< 6)).setWidth 64

def dCUimmCl1 (inst : BitVec 32) : BitVec 64 :=
  ((getBits inst 6 6 <<< 7) |||
    (((inst >>> 10) &&& 0x7) <<< 3) |||
    (getBits inst 5 5 <<< 6)).setWidth 64

def dCNzimm (inst : BitVec 32) : BitVec 64 :=
  sext
    (((inst >>> 2) &&& 0x1f) |||
      (((inst >>> 12) &&& 0x1) <<< 5))
    6

def dCUimmArith (inst : BitVec 32) : BitVec 64 :=
  (((inst >>> 2) &&& 0x1f) |||
    (((inst >>> 12) &&& 0x1) <<< 5)).setWidth 64

def dCNzimm9 (inst : BitVec 32) : BitVec 64 :=
  sext
    ((((inst >>> 6) &&& 1) <<< 4) |||
      (((inst >>> 2) &&& 1) <<< 5) |||
      (((inst >>> 5) &&& 1) <<< 6) |||
      (((inst >>> 3) &&& 1) <<< 7) |||
      (((inst >>> 4) &&& 1) <<< 8) |||
      (((inst >>> 12) &&& 1) <<< 9))
    10

def dCJImm (inst : BitVec 32) : BitVec 64 :=
  sext
    ((((inst >>> 3) &&& 7) <<< 1) |||
      (((inst >>> 11) &&& 1) <<< 4) |||
      (((inst >>> 2) &&& 1) <<< 5) |||
      (((inst >>> 7) &&& 1) <<< 6) |||
      (((inst >>> 6) &&& 1) <<< 7) |||
      (((inst >>> 9) &&& 1) <<< 8) |||
      (((inst >>> 10) &&& 1) <<< 9) |||
      (((inst >>> 8) &&& 1) <<< 10) |||
      (((inst >>> 12) &&& 1) <<< 11))
    12

def dCBImm (inst : BitVec 32) : BitVec 64 :=
  sext
    ((((inst >>> 3) &&& 0x3) <<< 1) |||
      (((inst >>> 10) &&& 0x3) <<< 3) |||
      (((inst >>> 2) &&& 0x1) <<< 5) |||
      (((inst >>> 5) &&& 0x3) <<< 6) |||
      (((inst >>> 12) &&& 0x1) <<< 8))
    9

def dCUimmLwsp (inst : BitVec 32) : BitVec 64 :=
  ((((inst >>> 4) &&& 0x7) <<< 2) |||
    (((inst >>> 12) &&& 0x1) <<< 5) |||
    (((inst >>> 2) &&& 0x3) <<< 6)).setWidth 64

def dCUimmLdsp (inst : BitVec 32) : BitVec 64 :=
  ((((inst >>> 5) &&& 0x3) <<< 3) |||
    (((inst >>> 12) &&& 0x1) <<< 5) |||
    (((inst >>> 2) &&& 0x3) <<< 6) |||
    (((inst >>> 4) &&& 0x1) <<< 8)).setWidth 64

def dCUimmSwsp (inst : BitVec 32) : BitVec 64 :=
  ((((inst >>> 9) &&& 0xf) <<< 2) |||
    (((inst >>> 7) &&& 0x1) <<< 6) |||
    (((inst >>> 8) &&& 0x1) <<< 7)).setWidth 64

def dCUimmSdsp (inst : BitVec 32) : BitVec 64 :=
  ((((inst >>> 10) &&& 0x7) <<< 3) |||
    (((inst >>> 7) &&& 0x1) <<< 6) |||
    (((inst >>> 8) &&& 0x1) <<< 7) |||
    (((inst >>> 9) &&& 0x1) <<< 8)).setWidth 64

end RiscvEm

------------------------------------------------------------
-- Instructions
------------------------------------------------------------

namespace RiscvEm

/-
  The `exec_*` functions that the sets register, one name
  for each; `Op.exec` gives their bodies.
-/
inductive Op where
  | ADD
  | ADDW
  | SUB
  | SUBW
  | XOR
  | OR
  | AND
  | SLL
  | SLLW
  | SRL
  | SRLW
  | SRA
  | SRAW
  | SLT
  | SLTU
  | ADDI
  | ADDIW
  | XORI
  | ORI
  | ANDI
  | SLLI
  | SLLIW
  | SRLIW
  | SRAIW
  | SRLI
  | SRAI
  | SLTI
  | SLTIU
  | LB
  | LH
  | LW
  | LD
  | LBU
  | LHU
  | LWU
  | SB
  | SH
  | SW
  | SD
  | BEQ
  | BNE
  | BLT
  | BGE
  | BLTU
  | BGEU
  | JAL
  | JALR
  | LUI
  | AUIPC
  | ECALL
  | EBREAK
  | FENCE
  | MUL
  | MULW
  | MULH
  | MULHSU
  | MULHU
  | DIV
  | DIVU
  | DIVUW
  | DIVW
  | REM
  | REMU
  | REMUW
  | REMW
  | AMOSWAP_W
  | AMOADD_W
  | AMOAND_W
  | AMOXOR_W
  | AMOOR_W
  | AMOMIN_W
  | AMOMINU_W
  | AMOMAX_W
  | AMOMAXU_W
  | LR_W
  | SC_W
  | AMOSWAP_D
  | AMOADD_D
  | AMOAND_D
  | AMOXOR_D
  | AMOOR_D
  | AMOMIN_D
  | AMOMINU_D
  | AMOMAX_D
  | AMOMAXU_D
  | LR_D
  | SC_D
  | FMADD_S
  | FMSUB_S
  | FNMADD_S
  | FNMSUB_S
  | FADD_S
  | FSUB_S
  | FMUL_S
  | FDIV_S
  | FSQRT_S
  | FSGNJ_S
  | FSGNJN_S
  | FSGNJX_S
  | FMIN_S
  | FMAX_S
  | FCVT_W_S
  | FCVT_WU_S
  | FCVT_S_W
  | FCVT_S_WU
  | FCVT_L_S
  | FCVT_LU_S
  | FCVT_S_L
  | FCVT_S_LU
  | FMV_X_W
  | FMV_W_X
  | FEQ_S
  | FLT_S
  | FLE_S
  | FCLASS_S
  | FLW
  | FSW
  | FMADD_D
  | FMSUB_D
  | FNMADD_D
  | FNMSUB_D
  | FADD_D
  | FSUB_D
  | FMUL_D
  | FDIV_D
  | FSQRT_D
  | FSGNJ_D
  | FSGNJN_D
  | FSGNJX_D
  | FMIN_D
  | FMAX_D
  | FCVT_S_D
  | FCVT_D_S
  | FCVT_W_D
  | FCVT_WU_D
  | FCVT_D_W
  | FCVT_D_WU
  | FCVT_L_D
  | FCVT_LU_D
  | FCVT_D_L
  | FCVT_D_LU
  | FMV_X_D
  | FMV_D_X
  | FEQ_D
  | FLT_D
  | FLE_D
  | FCLASS_D
  | FLD
  | FSD
  | C_ADDI4SPN
  | C_LW
  | C_LD
  | C_SW
  | C_SD
  | C_NOP
  | C_ADDI
  | C_ADDIW
  | C_LI
  | C_LUI_ADDI16SP
  | C_SRLI
  | C_SRAI
  | C_ANDI
  | C_SUB
  | C_XOR
  | C_OR
  | C_AND
  | C_SUBW
  | C_ADDW
  | C_J
  | C_BEQZ
  | C_BNEZ
  | C_SLLI
  | C_LWSP
  | C_LDSP
  | C_JR
  | C_MV
  | C_EBREAK
  | C_JALR
  | C_ADD
  | C_SWSP
  | C_SDSP
  | C_FLD
  | C_FSD
  | C_FLDSP
  | C_FSDSP
  | MRET
  | SRET
  | WFI
  | SFENCE_VMA
  | CSRRW
  | CSRRS
  | CSRRC
  | CSRRWI
  | CSRRSI
  | CSRRCI
  | FENCE_I
  | ADD_UW
  | SH1ADD
  | SH1ADD_UW
  | SH2ADD
  | SH2ADD_UW
  | SH3ADD
  | SH3ADD_UW
  | SLLI_UW
  | ANDN
  | ORN
  | XNOR
  | CLZ
  | CLZW
  | CTZ
  | CTZW
  | CPOP
  | CPOPW
  | MAX
  | MAXU
  | MIN
  | MINU
  | SEXT_B
  | SEXT_H
  | ZEXT_H
  | ROL
  | ROLW
  | ROR
  | RORI
  | RORIW
  | RORW
  | ORC_B
  | REV8
  | CLMUL
  | CLMULH
  | CLMULR
  | BCLR
  | BCLRI
  | BEXT
  | BEXTI
  | BINV
  | BINVI
  | BSET
  | BSETI
  | cbo_zero
  deriving DecidableEq, Repr

structure InstructionData where
  inst : BitVec 32
  rs1 : BitVec 5
  rs2 : BitVec 5
  rd : BitVec 5
  imm : BitVec 64
  rs3 : BitVec 5
  rm : BitVec 3
  deriving DecidableEq, Repr

/-
  An entry of the instruction table. A bit that is matched
  against lies under the mask, as `register_instr` builds
  it.
-/
structure Instruction where
  mask : BitVec 32
  matchBits : BitVec 32
  func : Op
  immDecodeFunc : BitVec 32 → BitVec 64
  size : BitVec 8
  matchBits_and_mask : matchBits &&& mask = matchBits

end RiscvEm
