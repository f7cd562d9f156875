import RiscvEm.Decode.Immediates
import RiscvEm.Lib.Rv64i

/-
  The base instructions in the table: the decoder takes the
  encoding of each to its function, with its operands and its
  immediate.

  Key definitions include:
    * `BaseEntry`
    * `baseEntry`

  Key theorems include `baseEntry_decodes`.
-/

------------------------------------------------------------
-- Entries
------------------------------------------------------------

namespace RiscvEm

open Rv64i

/- The function, the place in the table and the immediate. -/
structure BaseEntry where
  func : Op
  place : Nat
  imm : BitVec 32 → BitVec 64

def regEntry : RegOp → BaseEntry
  | .add => ⟨.ADD, 0, immI⟩
  | .addw => ⟨.ADDW, 1, immI⟩
  | .sub => ⟨.SUB, 2, immI⟩
  | .subw => ⟨.SUBW, 3, immI⟩
  | .xor => ⟨.XOR, 4, immI⟩
  | .or => ⟨.OR, 5, immI⟩
  | .and => ⟨.AND, 6, immI⟩
  | .sll => ⟨.SLL, 7, immI⟩
  | .sllw => ⟨.SLLW, 8, immI⟩
  | .srl => ⟨.SRL, 9, immI⟩
  | .srlw => ⟨.SRLW, 10, immI⟩
  | .sra => ⟨.SRA, 11, immI⟩
  | .sraw => ⟨.SRAW, 12, immI⟩
  | .slt => ⟨.SLT, 13, immI⟩
  | .sltu => ⟨.SLTU, 14, immI⟩

def immEntry : ImmOp → BaseEntry
  | .addi => ⟨.ADDI, 15, immI⟩
  | .addiw => ⟨.ADDIW, 16, immI⟩
  | .xori => ⟨.XORI, 17, immI⟩
  | .ori => ⟨.ORI, 18, immI⟩
  | .andi => ⟨.ANDI, 19, immI⟩
  | .slti => ⟨.SLTI, 26, immI⟩
  | .sltiu => ⟨.SLTIU, 27, immI⟩

def shiftEntry : ShiftOp → BaseEntry
  | .slli => ⟨.SLLI, 20, shamt64⟩
  | .srli => ⟨.SRLI, 24, shamt64⟩
  | .srai => ⟨.SRAI, 25, shamt64⟩

def shiftWEntry : ShiftOp → BaseEntry
  | .slli => ⟨.SLLIW, 21, shamt⟩
  | .srli => ⟨.SRLIW, 22, shamt⟩
  | .srai => ⟨.SRAIW, 23, shamt⟩

def loadEntry : LoadOp → BaseEntry
  | .lb => ⟨.LB, 28, immI⟩
  | .lh => ⟨.LH, 29, immI⟩
  | .lw => ⟨.LW, 30, immI⟩
  | .ld => ⟨.LD, 31, immI⟩
  | .lbu => ⟨.LBU, 32, immI⟩
  | .lhu => ⟨.LHU, 33, immI⟩
  | .lwu => ⟨.LWU, 34, immI⟩

def storeEntry : StoreOp → BaseEntry
  | .sb => ⟨.SB, 35, immS⟩
  | .sh => ⟨.SH, 36, immS⟩
  | .sw => ⟨.SW, 37, immS⟩
  | .sd => ⟨.SD, 38, immS⟩

def branchEntry : Cond → BaseEntry
  | .beq => ⟨.BEQ, 39, immB⟩
  | .bne => ⟨.BNE, 40, immB⟩
  | .blt => ⟨.BLT, 41, immB⟩
  | .bge => ⟨.BGE, 42, immB⟩
  | .bltu => ⟨.BLTU, 43, immB⟩
  | .bgeu => ⟨.BGEU, 44, immB⟩

def baseEntry : Instr → BaseEntry
  | .regReg op _ _ _ => regEntry op
  | .regImm op _ _ _ => immEntry op
  | .shift op _ _ _ => shiftEntry op
  | .shiftW op _ _ _ => shiftWEntry op
  | .lui _ _ => ⟨.LUI, 47, immU⟩
  | .auipc _ _ => ⟨.AUIPC, 48, immU⟩
  | .jal _ _ => ⟨.JAL, 45, immJ⟩
  | .jalr _ _ _ => ⟨.JALR, 46, immI⟩
  | .branch cond _ _ _ => branchEntry cond
  | .load op _ _ _ => loadEntry op
  | .store op _ _ _ => storeEntry op

/- The entry depends on the instruction's row only. -/
@[simp] theorem baseEntry_bare
    (i : Instr) :
    baseEntry i.bare = baseEntry i := by
  cases i <;> rfl

end RiscvEm

------------------------------------------------------------
-- The Table
------------------------------------------------------------

namespace RiscvEm

open Rv64i

/- Each row is taken by its own entry. -/
theorem allBare_rows :
    ∀ i ∈ Instr.allBare,
      i.mask &&& 0x3 = 0x3 ∧
      rowTakesB (announcedSize i.encode) i.mask i.encode
        (baseEntry i).place = true ∧
      (allInstrs[(baseEntry i).place]?).map (·.func) =
        some (baseEntry i).func := by
  decide +kernel

/- The entries decode the immediates that are listed. -/
theorem allBare_imms :
    Instr.allBare.map (fun i =>
        (allInstrs[(baseEntry i).place]?).map
          (·.immDecodeFunc)) =
      Instr.allBare.map (fun i => some (baseEntry i).imm) := by
  unfold allInstrs
  rfl

/- The decoder takes every encoding to its entry. -/
theorem baseEntry_decodes
    (i : Instr) :
    ∃ inst, DecodesTo i.encode (baseEntry i).func
      (baseEntry i).imm inst := by
  have hRows := allBare_rows i.bare i.bare_mem
  have hImms := List.map_inj_left.mp allBare_imms i.bare
    i.bare_mem
  rw [Instr.mask_bare, baseEntry_bare] at hRows
  rw [baseEntry_bare] at hImms
  exact decodesTo_row _ i.encode_row hRows hImms

end RiscvEm

------------------------------------------------------------
-- Immediates
------------------------------------------------------------

namespace RiscvEm

open Formats

/- The amount of a shift of words is a register field. -/
theorem shamt_rType
    (funct7 : BitVec 7)
    (amount rs1 rd : BitVec 5)
    (funct3 : BitVec 3)
    (opcode : BitVec 7) :
    shamt (rType funct7 amount rs1 funct3 rd opcode) =
      amount.setWidth 64 := by
  have hField := (rType_fields funct7 amount rs1 rd funct3
    opcode).2.2
  unfold shamt
  rw [immI_eq]
  apply BitVec.eq_of_getLsbD_eq
  intro j hj
  simp only [BitVec.getLsbD_and, BitVec.getLsbD_signExtend,
    BitVec.getLsbD_setWidth]
  by_cases hLow : j < 5
  · have hBit := congrArg (BitVec.getLsbD · j) hField
    simp only [BitVec.getLsbD_extractLsb', hLow] at hBit
    rw [← hBit]
    interval_cases j <;> simp
  · have hMask : BitVec.getLsbD (0x1f : BitVec 64) j = false := by
      apply Nat.testBit_lt_two_pow
      exact Nat.lt_of_lt_of_le (by decide)
        (Nat.pow_le_pow_right (by decide) (not_lt.mp hLow))
    rw [hMask, BitVec.getLsbD_of_ge amount j (not_lt.mp hLow)]
    simp

/- An offset in units of two bytes. -/
theorem offset_even
    {n : Nat}
    (offset : BitVec n) :
    (offset ++ 0#1).getLsbD 0 = false :=
  WordArith.IsEven.append offset Nat.one_pos .zero

end RiscvEm

------------------------------------------------------------
-- Immediates Of The Entries
------------------------------------------------------------

namespace RiscvEm

open Rv64i

/- The immediate of an operation. -/
theorem regImm_imm
    (op : ImmOp)
    (rd rs1 : BitVec 5)
    (imm : BitVec 12) :
    (immEntry op).imm (Instr.regImm op rd rs1 imm).encode =
      imm.signExtend 64 := by
  cases op <;> exact immI_iType _ _ _ _ _

/- The amount of a shift. -/
theorem shift_imm
    (op : ShiftOp)
    (rd rs1 : BitVec 5)
    (amount : BitVec 6) :
    (shiftEntry op).imm (Instr.shift op rd rs1 amount).encode =
      amount.setWidth 64 := by
  cases op <;> exact shamt64_iType _ _ _ _ _ _

/- The amount of a shift of a word. -/
theorem shiftW_imm
    (op : ShiftOp)
    (rd rs1 amount : BitVec 5) :
    (shiftWEntry op).imm
        (Instr.shiftW op rd rs1 amount).encode =
      amount.setWidth 64 := by
  cases op <;> exact shamt_rType _ _ _ _ _ _

/- The offset of a load. -/
theorem load_imm
    (op : LoadOp)
    (rd rs1 : BitVec 5)
    (imm : BitVec 12) :
    (loadEntry op).imm (Instr.load op rd rs1 imm).encode =
      imm.signExtend 64 := by
  cases op <;> exact immI_iType _ _ _ _ _

/- The offset of a store. -/
theorem store_imm
    (op : StoreOp)
    (rs2 rs1 : BitVec 5)
    (imm : BitVec 12) :
    (storeEntry op).imm (Instr.store op rs2 rs1 imm).encode =
      imm.signExtend 64 := by
  cases op <;> exact immS_sType _ _ _ _ _

/- The offset of a branch. -/
theorem branch_imm
    (cond : Cond)
    (rs1 rs2 : BitVec 5)
    (offset : BitVec 12) :
    (branchEntry cond).imm
        (Instr.branch cond rs1 rs2 offset).encode =
      (offset ++ 0#1).signExtend 64 := by
  cases cond <;>
    exact immB_bType _ (offset_even offset) _ _ _ _

end RiscvEm
