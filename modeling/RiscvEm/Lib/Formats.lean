import Mathlib.Data.Nat.Notation
import Mathlib.Tactic.IntervalCases

/-
  The formats of the base instructions of RISC-V: how a word
  is put together from its fields, and how the fields and the
  immediate are found in it again.

  Key definitions include:
    * `rType`
    * `iType`
    * `sType`
    * `bType`
    * `uType`
    * `jType`
-/

------------------------------------------------------------
-- Words From Fields
------------------------------------------------------------

namespace Formats

def rType
    (funct7 : BitVec 7)
    (rs2 rs1 : BitVec 5)
    (funct3 : BitVec 3)
    (rd : BitVec 5)
    (opcode : BitVec 7) : BitVec 32 :=
  (funct7 ++ rs2 ++ rs1 ++ funct3 ++ rd ++ opcode).setWidth 32

def iType
    (imm : BitVec 12)
    (rs1 : BitVec 5)
    (funct3 : BitVec 3)
    (rd : BitVec 5)
    (opcode : BitVec 7) : BitVec 32 :=
  (imm ++ rs1 ++ funct3 ++ rd ++ opcode).setWidth 32

def sType
    (imm : BitVec 12)
    (rs2 rs1 : BitVec 5)
    (funct3 : BitVec 3)
    (opcode : BitVec 7) : BitVec 32 :=
  (imm.extractLsb' 5 7 ++ rs2 ++ rs1 ++ funct3 ++
    imm.extractLsb' 0 5 ++ opcode).setWidth 32

/- The lowest bit of the offset is not encoded. -/
def bType
    (imm : BitVec 13)
    (rs2 rs1 : BitVec 5)
    (funct3 : BitVec 3)
    (opcode : BitVec 7) : BitVec 32 :=
  (imm.extractLsb' 12 1 ++ imm.extractLsb' 5 6 ++ rs2 ++
    rs1 ++ funct3 ++ imm.extractLsb' 1 4 ++
    imm.extractLsb' 11 1 ++ opcode).setWidth 32

def uType
    (imm : BitVec 20)
    (rd : BitVec 5)
    (opcode : BitVec 7) : BitVec 32 :=
  (imm ++ rd ++ opcode).setWidth 32

def jType
    (imm : BitVec 21)
    (rd : BitVec 5)
    (opcode : BitVec 7) : BitVec 32 :=
  (imm.extractLsb' 20 1 ++ imm.extractLsb' 1 10 ++
    imm.extractLsb' 11 1 ++ imm.extractLsb' 12 8 ++ rd ++
    opcode).setWidth 32

end Formats

------------------------------------------------------------
-- Fields Of Words
------------------------------------------------------------

namespace Formats

variable (funct7 : BitVec 7)
variable (rs2 rs1 rd : BitVec 5)
variable (funct3 : BitVec 3)
variable (opcode : BitVec 7)

/- The fields of an R-type word are those it was made of. -/
theorem rType_fields :
    let w := rType funct7 rs2 rs1 funct3 rd opcode
    w.extractLsb' 7 5 = rd ∧ w.extractLsb' 15 5 = rs1 ∧
      w.extractLsb' 20 5 = rs2 := by
  unfold rType
  refine ⟨?_, ?_, ?_⟩ <;>
    (apply BitVec.eq_of_getLsbD_eq
     intro j hj
     simp only [BitVec.getLsbD_extractLsb',
       BitVec.getLsbD_setWidth, BitVec.getLsbD_append]
     interval_cases j <;> simp)

/-
  The fields of an I-type word, with the immediate in its
  place.
-/
theorem iType_fields
    (imm : BitVec 12) :
    let w := iType imm rs1 funct3 rd opcode
    w.extractLsb' 7 5 = rd ∧ w.extractLsb' 15 5 = rs1 ∧
      w.extractLsb' 20 12 = imm := by
  unfold iType
  refine ⟨?_, ?_, ?_⟩ <;>
    (apply BitVec.eq_of_getLsbD_eq
     intro j hj
     simp only [BitVec.getLsbD_extractLsb',
       BitVec.getLsbD_setWidth, BitVec.getLsbD_append]
     interval_cases j <;> simp)

/- An S-type word has its immediate in two places. -/
theorem sType_fields
    (imm : BitVec 12) :
    let w := sType imm rs2 rs1 funct3 opcode
    w.extractLsb' 15 5 = rs1 ∧ w.extractLsb' 20 5 = rs2 ∧
      w.extractLsb' 25 7 ++ w.extractLsb' 7 5 = imm := by
  unfold sType
  refine ⟨?_, ?_, ?_⟩ <;>
    (apply BitVec.eq_of_getLsbD_eq
     intro j hj
     simp only [BitVec.getLsbD_extractLsb',
       BitVec.getLsbD_setWidth, BitVec.getLsbD_append]
     interval_cases j <;> simp)

/- A B-type word has it in four places. -/
theorem bType_fields
    (imm : BitVec 13) :
    let w := bType imm rs2 rs1 funct3 opcode
    w.extractLsb' 15 5 = rs1 ∧ w.extractLsb' 20 5 = rs2 ∧
      w.extractLsb' 31 1 ++ w.extractLsb' 7 1 ++
        w.extractLsb' 25 6 ++ w.extractLsb' 8 4 =
          imm.extractLsb' 1 12 := by
  unfold bType
  refine ⟨?_, ?_, ?_⟩ <;>
    (apply BitVec.eq_of_getLsbD_eq
     intro j hj
     simp only [BitVec.getLsbD_extractLsb',
       BitVec.getLsbD_setWidth, BitVec.getLsbD_append]
     interval_cases j <;> simp)

/- A U-type word has it in the upper 20 bits. -/
theorem uType_fields
    (imm : BitVec 20) :
    let w := uType imm rd opcode
    w.extractLsb' 7 5 = rd ∧ w.extractLsb' 12 20 = imm := by
  unfold uType
  refine ⟨?_, ?_⟩ <;>
    (apply BitVec.eq_of_getLsbD_eq
     intro j hj
     simp only [BitVec.getLsbD_extractLsb',
       BitVec.getLsbD_setWidth, BitVec.getLsbD_append]
     interval_cases j <;> simp)

/- A J-type word has it in four places. -/
theorem jType_fields
    (imm : BitVec 21) :
    let w := jType imm rd opcode
    w.extractLsb' 7 5 = rd ∧
      w.extractLsb' 31 1 ++ w.extractLsb' 12 8 ++
        w.extractLsb' 20 1 ++ w.extractLsb' 21 10 =
          imm.extractLsb' 1 20 := by
  unfold jType
  refine ⟨?_, ?_⟩ <;>
    (apply BitVec.eq_of_getLsbD_eq
     intro j hj
     simp only [BitVec.getLsbD_extractLsb',
       BitVec.getLsbD_setWidth, BitVec.getLsbD_append]
     interval_cases j <;> simp)

end Formats

------------------------------------------------------------
-- Rows Of Words
------------------------------------------------------------

namespace Formats

variable (funct7 : BitVec 7)
variable (rs2 rs1 rd : BitVec 5)
variable (funct3 : BitVec 3)
variable (opcode : BitVec 7)

/-
  The bits under which the instructions of a format are told
  apart; the operands do not matter there.
-/
theorem rType_row :
    rType funct7 rs2 rs1 funct3 rd opcode &&&
        0xFE00707F =
      rType funct7 0 0 funct3 0 opcode := by
  unfold rType
  apply BitVec.eq_of_getLsbD_eq
  intro j hj
  simp only [BitVec.getLsbD_and, BitVec.getLsbD_setWidth,
    BitVec.getLsbD_append]
  interval_cases j <;> simp

/-
  The row of an I-type word is made by its opcode and
  `funct3`.
-/
theorem iType_row
    (imm : BitVec 12) :
    iType imm rs1 funct3 rd opcode &&&
        0x0000707F =
      iType 0 0 funct3 0 opcode := by
  unfold iType
  apply BitVec.eq_of_getLsbD_eq
  intro j hj
  simp only [BitVec.getLsbD_and, BitVec.getLsbD_setWidth,
    BitVec.getLsbD_append]
  interval_cases j <;> simp

/- A shift has six more bits of its own. -/
theorem iType_shift_row
    (funct6 shamt : BitVec 6) :
    iType (funct6 ++ shamt) rs1 funct3 rd opcode &&&
        0xFC00707F =
      iType (funct6 ++ 0#6) 0 funct3 0 opcode := by
  unfold iType
  apply BitVec.eq_of_getLsbD_eq
  intro j hj
  simp only [BitVec.getLsbD_and, BitVec.getLsbD_setWidth,
    BitVec.getLsbD_append]
  interval_cases j <;> simp

/- An S-type word has its row in the fixed fields. -/
theorem sType_row
    (imm : BitVec 12) :
    sType imm rs2 rs1 funct3 opcode &&&
        0x0000707F =
      sType 0 0 0 funct3 opcode := by
  unfold sType
  apply BitVec.eq_of_getLsbD_eq
  intro j hj
  simp only [BitVec.getLsbD_and, BitVec.getLsbD_setWidth,
    BitVec.getLsbD_append]
  interval_cases j <;> simp

/- A B-type word has its row in the fixed fields. -/
theorem bType_row
    (imm : BitVec 13) :
    bType imm rs2 rs1 funct3 opcode &&&
        0x0000707F =
      bType 0 0 0 funct3 opcode := by
  unfold bType
  apply BitVec.eq_of_getLsbD_eq
  intro j hj
  simp only [BitVec.getLsbD_and, BitVec.getLsbD_setWidth,
    BitVec.getLsbD_append]
  interval_cases j <;> simp

/- A U-type word has its opcode only. -/
theorem uType_row
    (imm : BitVec 20) :
    uType imm rd opcode &&&
        0x0000007F =
      uType 0 0 opcode := by
  unfold uType
  apply BitVec.eq_of_getLsbD_eq
  intro j hj
  simp only [BitVec.getLsbD_and, BitVec.getLsbD_setWidth,
    BitVec.getLsbD_append]
  interval_cases j <;> simp

/- A J-type word has its opcode only. -/
theorem jType_row
    (imm : BitVec 21) :
    jType imm rd opcode &&&
        0x0000007F =
      jType 0 0 opcode := by
  unfold jType
  apply BitVec.eq_of_getLsbD_eq
  intro j hj
  simp only [BitVec.getLsbD_and, BitVec.getLsbD_setWidth,
    BitVec.getLsbD_append]
  interval_cases j <;> simp

end Formats
