import RiscvEm.Decode.Select
import RiscvEm.Lib.Formats

/-
  The compressed instructions as the C extension defines them
  for RV64 with F and D: the half-words of each, and the base
  instruction to which it expands.

  Nothing here is taken from the decoder; the second half
  says what the decoder does with half-words and expansions.

  Key definitions include:
    * `CInstr`
    * `CInstr.Covers`
    * `CInstr.expansion`

  Key theorems include:
    * `CInstr.decodes`
    * `decodesTo_base`
-/

------------------------------------------------------------
-- Fields Of Half-Words
------------------------------------------------------------

namespace RiscvEm

namespace Compressed

/- The full register fields. -/
def rd (h : BitVec 16) : BitVec 5 :=
  h.extractLsb' 7 5

def rs2 (h : BitVec 16) : BitVec 5 :=
  h.extractLsb' 2 5

/- The short ones, for `x8` to `x15`. -/
def rs1Short (h : BitVec 16) : BitVec 5 :=
  8 + (h.extractLsb' 7 3).setWidth 5

def rs2Short (h : BitVec 16) : BitVec 5 :=
  8 + (h.extractLsb' 2 3).setWidth 5

/- The immediates, from the highest bit on. -/
def imm6 (h : BitVec 16) : BitVec 6 :=
  (h.extractLsb' 12 1 ++ h.extractLsb' 2 5).setWidth 6

-- nzuimm[5:4|9:6|2|3]
def uimmSpn (h : BitVec 16) : BitVec 12 :=
  (h.extractLsb' 7 4 ++ h.extractLsb' 11 2 ++
    h.extractLsb' 5 1 ++ h.extractLsb' 6 1 ++ 0#2).setWidth 12

-- nzimm[9] and nzimm[4|6|8:7|5]
def immSp (h : BitVec 16) : BitVec 10 :=
  (h.extractLsb' 12 1 ++ h.extractLsb' 3 2 ++
    h.extractLsb' 5 1 ++ h.extractLsb' 2 1 ++
    h.extractLsb' 6 1 ++ 0#4).setWidth 10

-- uimm[5:3] and uimm[2|6]
def uimmWord (h : BitVec 16) : BitVec 12 :=
  (h.extractLsb' 5 1 ++ h.extractLsb' 10 3 ++
    h.extractLsb' 6 1 ++ 0#2).setWidth 12

-- uimm[5:3] and uimm[7:6]
def uimmDouble (h : BitVec 16) : BitVec 12 :=
  (h.extractLsb' 5 2 ++ h.extractLsb' 10 3 ++ 0#3).setWidth 12

-- uimm[5] and uimm[4:2|7:6]
def uimmWordSp (h : BitVec 16) : BitVec 12 :=
  (h.extractLsb' 2 2 ++ h.extractLsb' 12 1 ++
    h.extractLsb' 4 3 ++ 0#2).setWidth 12

-- uimm[5] and uimm[4:3|8:6]
def uimmDoubleSp (h : BitVec 16) : BitVec 12 :=
  (h.extractLsb' 2 3 ++ h.extractLsb' 12 1 ++
    h.extractLsb' 5 2 ++ 0#3).setWidth 12

-- uimm[5:2|7:6]
def uimmStoreWordSp (h : BitVec 16) : BitVec 12 :=
  (h.extractLsb' 7 2 ++ h.extractLsb' 9 4 ++ 0#2).setWidth 12

-- uimm[5:3|8:6]
def uimmStoreDoubleSp (h : BitVec 16) : BitVec 12 :=
  (h.extractLsb' 7 3 ++ h.extractLsb' 10 3 ++ 0#3).setWidth 12

-- imm[11|4|9:8|10|6|7|3:1|5]
def immJump (h : BitVec 16) : BitVec 12 :=
  (h.extractLsb' 12 1 ++ h.extractLsb' 8 1 ++
    h.extractLsb' 9 2 ++ h.extractLsb' 6 1 ++
    h.extractLsb' 7 1 ++ h.extractLsb' 2 1 ++
    h.extractLsb' 11 1 ++ h.extractLsb' 3 3 ++ 0#1).setWidth 12

-- imm[8|4:3] and imm[7:6|2:1|5]
def immBranch (h : BitVec 16) : BitVec 9 :=
  (h.extractLsb' 12 1 ++ h.extractLsb' 5 2 ++
    h.extractLsb' 2 1 ++ h.extractLsb' 10 2 ++
    h.extractLsb' 3 2 ++ 0#1).setWidth 9

end Compressed

end RiscvEm

------------------------------------------------------------
-- Compressed Instructions
------------------------------------------------------------

namespace RiscvEm

/- Encodings that are hints count to their instruction. -/
inductive CInstr where
  -- quadrant 0
  | ADDI4SPN
  | FLD
  | LW
  | LD
  | FSD
  | SW
  | SD
  -- quadrant 1
  | NOP
  | ADDI
  | ADDIW
  | LI
  | ADDI16SP
  | LUI
  | SRLI
  | SRAI
  | ANDI
  | SUB
  | XOR
  | OR
  | AND
  | SUBW
  | ADDW
  | J
  | BEQZ
  | BNEZ
  -- quadrant 2
  | SLLI
  | FLDSP
  | LWSP
  | LDSP
  | JR
  | MV
  | EBREAK
  | JALR
  | ADD
  | FSDSP
  | SWSP
  | SDSP
  deriving DecidableEq, Repr

namespace CInstr

open Compressed Formats

/- The fixed bits: where they are, and what they are. -/
def row : CInstr → BitVec 16 × BitVec 16
  | ADDI4SPN => (0xE003, 0x0000)
  | FLD => (0xE003, 0x2000)
  | LW => (0xE003, 0x4000)
  | LD => (0xE003, 0x6000)
  | FSD => (0xE003, 0xA000)
  | SW => (0xE003, 0xC000)
  | SD => (0xE003, 0xE000)
  | NOP => (0xFFFF, 0x0001)
  | ADDI => (0xE003, 0x0001)
  | ADDIW => (0xE003, 0x2001)
  | LI => (0xE003, 0x4001)
  | ADDI16SP => (0xEF83, 0x6101)
  | LUI => (0xE003, 0x6001)
  | SRLI => (0xEC03, 0x8001)
  | SRAI => (0xEC03, 0x8401)
  | ANDI => (0xEC03, 0x8801)
  | SUB => (0xFC63, 0x8C01)
  | XOR => (0xFC63, 0x8C21)
  | OR => (0xFC63, 0x8C41)
  | AND => (0xFC63, 0x8C61)
  | SUBW => (0xFC63, 0x9C01)
  | ADDW => (0xFC63, 0x9C21)
  | J => (0xE003, 0xA001)
  | BEQZ => (0xE003, 0xC001)
  | BNEZ => (0xE003, 0xE001)
  | SLLI => (0xE003, 0x0002)
  | FLDSP => (0xE003, 0x2002)
  | LWSP => (0xE003, 0x4002)
  | LDSP => (0xE003, 0x6002)
  | JR => (0xF07F, 0x8002)
  | MV => (0xF003, 0x8002)
  | EBREAK => (0xFFFF, 0x9002)
  | JALR => (0xF07F, 0x9002)
  | ADD => (0xF003, 0x9002)
  | FSDSP => (0xE003, 0xA002)
  | SWSP => (0xE003, 0xC002)
  | SDSP => (0xE003, 0xE002)

/- The bits of which one is set at least; zero for none. -/
def nonzero : CInstr → BitVec 16
  | ADDI4SPN => 0x1FE0
  | ADDI => 0x1FFC
  | ADDI16SP | LUI => 0x107C
  | ADDIW | LWSP | LDSP | JR | JALR => 0x0F80
  | MV | ADD => 0x007C
  | _ => 0

/- The half-words of an instruction. -/
structure Covers
    (c : CInstr)
    (h : BitVec 16) : Prop where
  row : h &&& c.row.1 = c.row.2
  nonzero : c.nonzero ≠ 0 → h &&& c.nonzero ≠ 0
  notSp : c = LUI → rd h ≠ 2

/- The base instruction of a half-word. -/
def expansion
    (c : CInstr)
    (h : BitVec 16) : BitVec 32 :=
  match c with
  | ADDI4SPN => iType (uimmSpn h) 2 0 (rs2Short h) 0x13
  | FLD => iType (uimmDouble h) (rs1Short h) 3 (rs2Short h) 0x07
  | LW => iType (uimmWord h) (rs1Short h) 2 (rs2Short h) 0x03
  | LD => iType (uimmDouble h) (rs1Short h) 3 (rs2Short h) 0x03
  | FSD => sType (uimmDouble h) (rs2Short h) (rs1Short h) 3 0x27
  | SW => sType (uimmWord h) (rs2Short h) (rs1Short h) 2 0x23
  | SD => sType (uimmDouble h) (rs2Short h) (rs1Short h) 3 0x23
  | NOP => iType 0 0 0 0 0x13
  | ADDI => iType ((imm6 h).signExtend 12) (rd h) 0 (rd h) 0x13
  | ADDIW => iType ((imm6 h).signExtend 12) (rd h) 0 (rd h) 0x1B
  | LI => iType ((imm6 h).signExtend 12) 0 0 (rd h) 0x13
  | ADDI16SP => iType ((immSp h).signExtend 12) 2 0 2 0x13
  | LUI => uType ((imm6 h).signExtend 20) (rd h) 0x37
  | SRLI =>
      iType (0b000000#6 ++ imm6 h) (rs1Short h) 5 (rs1Short h)
        0x13
  | SRAI =>
      iType (0b010000#6 ++ imm6 h) (rs1Short h) 5 (rs1Short h)
        0x13
  | ANDI =>
      iType ((imm6 h).signExtend 12) (rs1Short h) 7
        (rs1Short h) 0x13
  | SUB =>
      rType 0x20 (rs2Short h) (rs1Short h) 0 (rs1Short h) 0x33
  | XOR =>
      rType 0x00 (rs2Short h) (rs1Short h) 4 (rs1Short h) 0x33
  | OR =>
      rType 0x00 (rs2Short h) (rs1Short h) 6 (rs1Short h) 0x33
  | AND =>
      rType 0x00 (rs2Short h) (rs1Short h) 7 (rs1Short h) 0x33
  | SUBW =>
      rType 0x20 (rs2Short h) (rs1Short h) 0 (rs1Short h) 0x3B
  | ADDW =>
      rType 0x00 (rs2Short h) (rs1Short h) 0 (rs1Short h) 0x3B
  | J => jType ((immJump h).signExtend 21) 0 0x6F
  | BEQZ =>
      bType ((immBranch h).signExtend 13) 0 (rs1Short h) 0 0x63
  | BNEZ =>
      bType ((immBranch h).signExtend 13) 0 (rs1Short h) 1 0x63
  | SLLI => iType (0b000000#6 ++ imm6 h) (rd h) 1 (rd h) 0x13
  | FLDSP => iType (uimmDoubleSp h) 2 3 (rd h) 0x07
  | LWSP => iType (uimmWordSp h) 2 2 (rd h) 0x03
  | LDSP => iType (uimmDoubleSp h) 2 3 (rd h) 0x03
  | JR => iType 0 (rd h) 0 0 0x67
  | MV => rType 0x00 (rs2 h) 0 0 (rd h) 0x33
  | EBREAK => 0x00100073
  | JALR => iType 0 (rd h) 0 1 0x67
  | ADD => rType 0x00 (rs2 h) (rd h) 0 (rd h) 0x33
  | FSDSP => sType (uimmStoreDoubleSp h) (rs2 h) 2 3 0x27
  | SWSP => sType (uimmStoreWordSp h) (rs2 h) 2 2 0x23
  | SDSP => sType (uimmStoreDoubleSp h) (rs2 h) 2 3 0x23

end CInstr

end RiscvEm

------------------------------------------------------------
-- Half-Words In The Table
------------------------------------------------------------

namespace RiscvEm

namespace CInstr

/- The entry of the decoder's table: position and content. -/
def entry : CInstr → Nat × Op × (BitVec 32 → BitVec 64)
  | ADDI4SPN => (149, .C_ADDI4SPN, dCUimm)
  | FLD => (181, .C_FLD, dCUimmCl1)
  | LW => (150, .C_LW, dCUimmCl)
  | LD => (151, .C_LD, dCUimmCl1)
  | FSD => (182, .C_FSD, dCUimmCl1)
  | SW => (152, .C_SW, dCUimmCl)
  | SD => (153, .C_SD, dCUimmCl1)
  | NOP => (154, .C_NOP, immI)
  | ADDI => (155, .C_ADDI, dCNzimm)
  | ADDIW => (156, .C_ADDIW, dCNzimm)
  | LI => (157, .C_LI, dCNzimm)
  | ADDI16SP => (158, .C_LUI_ADDI16SP, dCNzimm)
  | LUI => (158, .C_LUI_ADDI16SP, dCNzimm)
  | SRLI => (159, .C_SRLI, dCUimmArith)
  | SRAI => (160, .C_SRAI, dCUimmArith)
  | ANDI => (161, .C_ANDI, dCUimmArith)
  | SUB => (162, .C_SUB, immI)
  | XOR => (163, .C_XOR, immI)
  | OR => (164, .C_OR, immI)
  | AND => (165, .C_AND, immI)
  | SUBW => (166, .C_SUBW, immI)
  | ADDW => (167, .C_ADDW, immI)
  | J => (168, .C_J, dCJImm)
  | BEQZ => (169, .C_BEQZ, dCBImm)
  | BNEZ => (170, .C_BNEZ, dCBImm)
  | SLLI => (171, .C_SLLI, dCUimmArith)
  | FLDSP => (183, .C_FLDSP, dCUimmLdsp)
  | LWSP => (172, .C_LWSP, dCUimmLwsp)
  | LDSP => (173, .C_LDSP, dCUimmLdsp)
  | JR => (174, .C_JR, immI)
  | MV => (175, .C_MV, immI)
  | EBREAK => (176, .C_EBREAK, immI)
  | JALR => (177, .C_JALR, immI)
  | ADD => (178, .C_ADD, immI)
  | FSDSP => (184, .C_FSDSP, dCUimmSdsp)
  | SWSP => (179, .C_SWSP, dCUimmSwsp)
  | SDSP => (180, .C_SDSP, dCUimmSdsp)

/- The whole enumeration. -/
def all : List CInstr := [
  ADDI4SPN, FLD, LW, LD, FSD, SW, SD, NOP, ADDI, ADDIW, LI,
  ADDI16SP, LUI, SRLI, SRAI, ANDI, SUB, XOR, OR, AND, SUBW,
  ADDW, J, BEQZ, BNEZ, SLLI, FLDSP, LWSP, LDSP, JR, MV,
  EBREAK, JALR, ADD, FSDSP, SWSP, SDSP]

/- The list has every instruction. -/
theorem mem_all
    (c : CInstr) :
    c ∈ all := by
  cases c <;> decide

/- The row with one bit more that is set. -/
def rowAt
    (c : CInstr)
    (j : Nat) : BitVec 32 × BitVec 32 :=
  ((c.row.1 ||| 1#16 <<< j).setWidth 32,
    (c.row.2 ||| 1#16 <<< j).setWidth 32)

/-
  Where a more special pattern lies in the row of another
  instruction, a bit that is not zero keeps them apart.
-/
theorem table_rows :
    ∀ c ∈ all,
      c.row.1.setWidth 32 &&& 0x3 = 0x3#32 ∧
      announcedSize (c.row.2.setWidth 32) = 2 ∧
      (allInstrs[c.entry.1]?).map (·.func) =
        some c.entry.2.1 ∧
      (rowTakesB 2 (c.row.1.setWidth 32)
          (c.row.2.setWidth 32) c.entry.1 = true ∨
        (c.nonzero ≠ 0 ∧
          ∀ j < 16, c.nonzero.getLsbD j = true →
            rowTakesB 2 (c.rowAt j).1 (c.rowAt j).2
              c.entry.1 = true)) := by
  decide +kernel

/- The entries decode the immediates that are listed. -/
theorem table_imms :
    all.map (fun c =>
        (allInstrs[c.entry.1]?).map (·.immDecodeFunc)) =
      all.map (fun c => some c.entry.2.2) := by
  unfold allInstrs
  rfl

/- The decoder takes the half-words of an instruction. -/
theorem decodes
    (c : CInstr)
    {w : BitVec 32}
    (h : c.Covers (w.setWidth 16)) :
    ∃ i, DecodesTo w c.entry.2.1 c.entry.2.2 i := by
  rcases table_rows c c.mem_all with
    ⟨hMask, hSize, hFunc, hTakes⟩
  have hWord : announcedSize w = 2 := by
    rw [announcedSize_row (row_setWidth h.row) hMask, hSize]
  have hBest : bestMatch w = allInstrs[c.entry.1]? := by
    rcases hTakes with hTakes | ⟨hNe, hTakes⟩
    · refine bestMatch_row ?_ (row_setWidth h.row)
      rw [hWord]
      exact rowTakes_of_rowTakesB hTakes
    · -- some bit of the field is set
      have hSome : ∃ j < 16, (w.setWidth 16 &&&
          c.nonzero).getLsbD j = true := by
        by_contra hNone
        push Not at hNone
        apply h.nonzero hNe
        apply BitVec.eq_of_getLsbD_eq
        intro j hj
        simpa using hNone j hj
      rcases hSome with ⟨j, hj, hBit⟩
      rw [BitVec.getLsbD_and, Bool.and_eq_true] at hBit
      refine bestMatch_row ?_
        (row_setWidth (row_or_bit h.row hBit.1))
      rw [hWord]
      exact rowTakes_of_rowTakesB (hTakes j hj hBit.2)
  have hImm := List.map_inj_left.mp table_imms c c.mem_all
  rcases Option.map_eq_some_iff.mp hFunc with
    ⟨i, hAt, hFunc⟩
  rw [hAt] at hBest hImm
  exact ⟨i, hBest, hFunc, Option.some.inj hImm⟩

end CInstr

end RiscvEm

------------------------------------------------------------
-- Base Instructions In The Table
------------------------------------------------------------

namespace RiscvEm

open Formats

/- A row of words with the entry that takes it. -/
structure BaseRow where
  mask : BitVec 32
  fixed : BitVec 32
  entry : Nat
  imm : BitVec 32 → BitVec 64

/- The rows of the instructions that expansions use. -/
def baseRow : Op → BaseRow
  | .ADD => ⟨0xFE00707F, rType 0x00 0 0 0 0 0x33, 0, immI⟩
  | .ADDW => ⟨0xFE00707F, rType 0x00 0 0 0 0 0x3B, 1, immI⟩
  | .SUB => ⟨0xFE00707F, rType 0x20 0 0 0 0 0x33, 2, immI⟩
  | .SUBW => ⟨0xFE00707F, rType 0x20 0 0 0 0 0x3B, 3, immI⟩
  | .XOR => ⟨0xFE00707F, rType 0x00 0 0 4 0 0x33, 4, immI⟩
  | .OR => ⟨0xFE00707F, rType 0x00 0 0 6 0 0x33, 5, immI⟩
  | .AND => ⟨0xFE00707F, rType 0x00 0 0 7 0 0x33, 6, immI⟩
  | .ADDI => ⟨0x0000707F, iType 0 0 0 0 0x13, 15, immI⟩
  | .ADDIW => ⟨0x0000707F, iType 0 0 0 0 0x1B, 16, immI⟩
  | .ANDI => ⟨0x0000707F, iType 0 0 7 0 0x13, 19, immI⟩
  | .SLLI =>
      ⟨0xFC00707F, iType (0b000000#6 ++ 0#6) 0 1 0 0x13, 20,
        shamt64⟩
  | .SRLI =>
      ⟨0xFC00707F, iType (0b000000#6 ++ 0#6) 0 5 0 0x13, 24,
        shamt64⟩
  | .SRAI =>
      ⟨0xFC00707F, iType (0b010000#6 ++ 0#6) 0 5 0 0x13, 25,
        shamt64⟩
  | .LW => ⟨0x0000707F, iType 0 0 2 0 0x03, 30, immI⟩
  | .LD => ⟨0x0000707F, iType 0 0 3 0 0x03, 31, immI⟩
  | .SW => ⟨0x0000707F, sType 0 0 0 2 0x23, 37, immS⟩
  | .SD => ⟨0x0000707F, sType 0 0 0 3 0x23, 38, immS⟩
  | .BEQ => ⟨0x0000707F, bType 0 0 0 0 0x63, 39, immB⟩
  | .BNE => ⟨0x0000707F, bType 0 0 0 1 0x63, 40, immB⟩
  | .JAL => ⟨0x0000007F, jType 0 0 0x6F, 45, immJ⟩
  | .JALR => ⟨0x0000707F, iType 0 0 0 0 0x67, 46, immI⟩
  | .LUI => ⟨0x0000007F, uType 0 0 0x37, 47, immU⟩
  | .FLD => ⟨0x0000707F, iType 0 0 3 0 0x07, 147, immI⟩
  | .FSD => ⟨0x0000707F, sType 0 0 0 3 0x27, 148, immS⟩
  | _ => ⟨0xFFFFFFFF, 0x00100073, 50, immI⟩

def baseOps : List Op := [
  .ADD, .ADDW, .SUB, .SUBW, .XOR, .OR, .AND, .ADDI, .ADDIW,
  .ANDI, .SLLI, .SRLI, .SRAI, .LW, .LD, .SW, .SD, .BEQ, .BNE,
  .JAL, .JALR, .LUI, .FLD, .FSD, .EBREAK]

/- Each row is taken by its own entry. -/
theorem baseOps_rows :
    ∀ op ∈ baseOps,
      (baseRow op).mask &&& 0x3 = 0x3 ∧
      rowTakesB (announcedSize (baseRow op).fixed)
        (baseRow op).mask (baseRow op).fixed
        (baseRow op).entry = true ∧
      (allInstrs[(baseRow op).entry]?).map (·.func) =
        some op := by
  decide +kernel

/-
  The base entry decodes the immediate that is listed for
  it.
-/
theorem baseOps_imms :
    baseOps.map (fun op => (allInstrs[(baseRow op).entry]?).map
        (·.immDecodeFunc)) =
      baseOps.map (fun op => some (baseRow op).imm) := by
  unfold allInstrs
  rfl

/- Words of a row are decoded to its base entry. -/
theorem decodesTo_base
    {w : BitVec 32}
    (op : Op)
    (hOp : op ∈ baseOps)
    (hRow : w &&& (baseRow op).mask = (baseRow op).fixed) :
    ∃ i, DecodesTo w op (baseRow op).imm i :=
  decodesTo_row (baseRow op).entry hRow (baseOps_rows op hOp)
    (List.map_inj_left.mp baseOps_imms op hOp)

end RiscvEm
