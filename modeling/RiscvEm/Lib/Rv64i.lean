import RiscvEm.Lib.Formats
import RiscvEm.Lib.WordArith

/-
  The base integer instructions of RISC-V for 64 bits, as
  the manual describes them: what they are, how they are
  encoded, and what they do to registers, `pc` and memory.
  Results are given as integers.

  Key definitions include:
    * `Instr`
    * `Instr.encode`
    * `Instr.exec`
    * `Step`
    * `Executes`

  Key theorems include:
    * `Instr.encode_row`
    * `RegOp.value_eq`
    * `Instr.exec_isEven`
-/

------------------------------------------------------------
-- Instructions
------------------------------------------------------------

namespace Rv64i

open Formats

/- Two registers into one; `w` for words. -/
inductive RegOp where
  | add | sub | sll | slt | sltu | xor | srl | sra | or | and
  | addw | subw | sllw | srlw | sraw
  deriving DecidableEq, Repr

/- A register and an immediate into a register. -/
inductive ImmOp where
  | addi | slti | sltiu | xori | ori | andi | addiw
  deriving DecidableEq, Repr

/- Shifts by a constant. -/
inductive ShiftOp where
  | slli | srli | srai
  deriving DecidableEq, Repr

inductive LoadOp where
  | lb | lh | lw | ld | lbu | lhu | lwu
  deriving DecidableEq, Repr

inductive StoreOp where
  | sb | sh | sw | sd
  deriving DecidableEq, Repr

inductive Cond where
  | beq | bne | blt | bge | bltu | bgeu
  deriving DecidableEq, Repr

/- Offsets of code are in units of two bytes. -/
inductive Instr where
  | regReg (op : RegOp) (rd rs1 rs2 : BitVec 5)
  | regImm (op : ImmOp) (rd rs1 : BitVec 5) (imm : BitVec 12)
  | shift (op : ShiftOp) (rd rs1 : BitVec 5) (amount : BitVec 6)
  | shiftW (op : ShiftOp) (rd rs1 : BitVec 5)
      (amount : BitVec 5)
  | lui (rd : BitVec 5) (imm : BitVec 20)
  | auipc (rd : BitVec 5) (imm : BitVec 20)
  | jal (rd : BitVec 5) (offset : BitVec 20)
  | jalr (rd rs1 : BitVec 5) (imm : BitVec 12)
  | branch (cond : Cond) (rs1 rs2 : BitVec 5)
      (offset : BitVec 12)
  | load (op : LoadOp) (rd rs1 : BitVec 5) (imm : BitVec 12)
  | store (op : StoreOp) (rs2 rs1 : BitVec 5) (imm : BitVec 12)
  deriving DecidableEq, Repr

end Rv64i

------------------------------------------------------------
-- Encoding
------------------------------------------------------------

namespace Rv64i

open Formats

/- `funct7`, `funct3` and the opcode. -/
def RegOp.code : RegOp → BitVec 7 × BitVec 3 × BitVec 7
  | add => (0x00, 0, 0x33)
  | sub => (0x20, 0, 0x33)
  | sll => (0x00, 1, 0x33)
  | slt => (0x00, 2, 0x33)
  | sltu => (0x00, 3, 0x33)
  | xor => (0x00, 4, 0x33)
  | srl => (0x00, 5, 0x33)
  | sra => (0x20, 5, 0x33)
  | or => (0x00, 6, 0x33)
  | and => (0x00, 7, 0x33)
  | addw => (0x00, 0, 0x3B)
  | subw => (0x20, 0, 0x3B)
  | sllw => (0x00, 1, 0x3B)
  | srlw => (0x00, 5, 0x3B)
  | sraw => (0x20, 5, 0x3B)

/- `funct3` and the opcode. -/
def ImmOp.code : ImmOp → BitVec 3 × BitVec 7
  | addi => (0, 0x13)
  | slti => (2, 0x13)
  | sltiu => (3, 0x13)
  | xori => (4, 0x13)
  | ori => (6, 0x13)
  | andi => (7, 0x13)
  | addiw => (0, 0x1B)

/- The bits in front of the amount, and `funct3`. -/
def ShiftOp.code : ShiftOp → BitVec 6 × BitVec 3
  | slli => (0b000000, 1)
  | srli => (0b000000, 5)
  | srai => (0b010000, 5)

def LoadOp.code : LoadOp → BitVec 3
  | lb => 0
  | lh => 1
  | lw => 2
  | ld => 3
  | lbu => 4
  | lhu => 5
  | lwu => 6

def StoreOp.code : StoreOp → BitVec 3
  | sb => 0
  | sh => 1
  | sw => 2
  | sd => 3

def Cond.code : Cond → BitVec 3
  | beq => 0
  | bne => 1
  | blt => 4
  | bge => 5
  | bltu => 6
  | bgeu => 7

namespace Instr

def encode : Instr → BitVec 32
  | regReg op rd rs1 rs2 =>
      rType op.code.1 rs2 rs1 op.code.2.1 rd op.code.2.2
  | regImm op rd rs1 imm =>
      iType imm rs1 op.code.1 rd op.code.2
  | shift op rd rs1 amount =>
      iType (op.code.1 ++ amount) rs1 op.code.2 rd 0x13
  | shiftW op rd rs1 amount =>
      rType (op.code.1 ++ 0#1) amount rs1 op.code.2 rd 0x1B
  | lui rd imm => uType imm rd 0x37
  | auipc rd imm => uType imm rd 0x17
  | jal rd offset => jType (offset ++ 0#1) rd 0x6F
  | jalr rd rs1 imm => iType imm rs1 0 rd 0x67
  | branch cond rs1 rs2 offset =>
      bType (offset ++ 0#1) rs2 rs1 cond.code 0x63
  | load op rd rs1 imm => iType imm rs1 op.code rd 0x03
  | store op rs2 rs1 imm => sType imm rs2 rs1 op.code 0x23

end Instr

end Rv64i

------------------------------------------------------------
-- Rows
------------------------------------------------------------

namespace Rv64i

open Formats

namespace Instr

/- The instruction with all operands zero. -/
def bare : Instr → Instr
  | regReg op _ _ _ => regReg op 0 0 0
  | regImm op _ _ _ => regImm op 0 0 0
  | shift op _ _ _ => shift op 0 0 0
  | shiftW op _ _ _ => shiftW op 0 0 0
  | lui _ _ => lui 0 0
  | auipc _ _ => auipc 0 0
  | jal _ _ => jal 0 0
  | jalr _ _ _ => jalr 0 0 0
  | branch cond _ _ _ => branch cond 0 0 0
  | load op _ _ _ => load op 0 0 0
  | store op _ _ _ => store op 0 0 0

/- The bits that tell an instruction from the others. -/
def mask : Instr → BitVec 32
  | regReg _ _ _ _ | shiftW _ _ _ _ => 0xFE00707F
  | shift _ _ _ _ => 0xFC00707F
  | regImm _ _ _ _ | jalr _ _ _ | branch _ _ _ _
  | load _ _ _ _ | store _ _ _ _ => 0x0000707F
  | lui _ _ | auipc _ _ | jal _ _ => 0x0000007F

/- The mask does not depend on the fields. -/
@[simp] theorem mask_bare
    (i : Instr) :
    i.bare.mask = i.mask := by
  cases i <;> rfl

/- The operands do not show in these bits. -/
theorem encode_row
    (i : Instr) :
    i.encode &&& i.mask = i.bare.encode := by
  cases i with
  | regReg op rd rs1 rs2 => exact rType_row _ _ _ _ _ _
  | regImm op rd rs1 imm => exact iType_row _ _ _ _ _
  | shift op rd rs1 amount =>
      exact iType_shift_row _ _ _ _ _ _
  | shiftW op rd rs1 amount => exact rType_row _ _ _ _ _ _
  | lui rd imm => exact uType_row _ _ _
  | auipc rd imm => exact uType_row _ _ _
  | jal rd offset => exact jType_row _ _ _
  | jalr rd rs1 imm => exact iType_row _ _ _ _ _
  | branch cond rs1 rs2 offset => exact bType_row _ _ _ _ _
  | load op rd rs1 imm => exact iType_row _ _ _ _ _
  | store op rs2 rs1 imm => exact sType_row _ _ _ _ _

/- The instructions without their operands. -/
def allBare : List Instr :=
  [RegOp.add, .sub, .sll, .slt, .sltu, .xor, .srl, .sra, .or,
    .and, .addw, .subw, .sllw, .srlw, .sraw].map
      (regReg · 0 0 0) ++
  [ImmOp.addi, .slti, .sltiu, .xori, .ori, .andi, .addiw].map
    (regImm · 0 0 0) ++
  [ShiftOp.slli, .srli, .srai].map (shift · 0 0 0) ++
  [ShiftOp.slli, .srli, .srai].map (shiftW · 0 0 0) ++
  [lui 0 0, auipc 0 0, jal 0 0, jalr 0 0 0] ++
  [Cond.beq, .bne, .blt, .bge, .bltu, .bgeu].map
    (branch · 0 0 0) ++
  [LoadOp.lb, .lh, .lw, .ld, .lbu, .lhu, .lwu].map
    (load · 0 0 0) ++
  [StoreOp.sb, .sh, .sw, .sd].map (store · 0 0 0)

/- Every row is in the list. -/
theorem bare_mem
    (i : Instr) :
    i.bare ∈ allBare := by
  cases i <;> dsimp only [bare]
  case regReg op rd rs1 rs2 => cases op <;> decide
  case regImm op rd rs1 imm => cases op <;> decide
  case shift op rd rs1 amount => cases op <;> decide
  case shiftW op rd rs1 amount => cases op <;> decide
  case branch cond rs1 rs2 offset => cases cond <;> decide
  case load op rd rs1 imm => cases op <;> decide
  case store op rs2 rs1 imm => cases op <;> decide
  all_goals decide

end Instr

end Rv64i

------------------------------------------------------------
-- Results
------------------------------------------------------------

namespace Rv64i

/- An integer as a word, and a word as a register. -/
def ofWord
    (x : Int) : BitVec 64 :=
  .ofInt 64 (x.bmod (2 ^ 32))

/- The result as the integer that the manual describes. -/
def RegOp.value
    (op : RegOp)
    (a b : BitVec 64) : BitVec 64 :=
  match op with
  | add => .ofInt 64 (a.toInt + b.toInt)
  | sub => .ofInt 64 (a.toInt - b.toInt)
  | sll => .ofNat 64 (a.toNat * 2 ^ (b.toNat % 64))
  | slt => if a.toInt < b.toInt then 1 else 0
  | sltu => if a.toNat < b.toNat then 1 else 0
  | xor => a ^^^ b
  | srl => .ofNat 64 (a.toNat / 2 ^ (b.toNat % 64))
  | sra => .ofInt 64 (a.toInt / 2 ^ (b.toNat % 64))
  | or => a ||| b
  | and => a &&& b
  | addw => ofWord (a.toInt + b.toInt)
  | subw => ofWord (a.toInt - b.toInt)
  | sllw => ofWord (a.toInt * 2 ^ (b.toNat % 32))
  | srlw =>
      ofWord (a.toNat % 2 ^ 32 / 2 ^ (b.toNat % 32) : Nat)
  | sraw => ofWord (a.toInt.bmod (2 ^ 32) / 2 ^ (b.toNat % 32))

def ImmOp.base : ImmOp → RegOp
  | addi => .add
  | slti => .slt
  | sltiu => .sltu
  | xori => .xor
  | ori => .or
  | andi => .and
  | addiw => .addw

def ShiftOp.base : ShiftOp → RegOp
  | slli => .sll
  | srli => .srl
  | srai => .sra

def ShiftOp.baseW : ShiftOp → RegOp
  | slli => .sllw
  | srli => .srlw
  | srai => .sraw

def Cond.holds
    (cond : Cond)
    (a b : BitVec 64) : Bool :=
  match cond with
  | beq => decide (a = b)
  | bne => decide (a ≠ b)
  | blt => decide (a.toInt < b.toInt)
  | bge => decide (b.toInt ≤ a.toInt)
  | bltu => decide (a.toNat < b.toNat)
  | bgeu => decide (b.toNat ≤ a.toNat)

def LoadOp.bytes : LoadOp → Nat
  | lb | lbu => 1
  | lh | lhu => 2
  | lw | lwu => 4
  | ld => 8

def StoreOp.bytes : StoreOp → Nat
  | sb => 1
  | sh => 2
  | sw => 4
  | sd => 8

/- What a load makes of the number it has read. -/
def LoadOp.value
    (op : LoadOp)
    (n : Nat) : BitVec 64 :=
  match op with
  | lb => .ofInt 64 ((n : Int).bmod (2 ^ 8))
  | lh => .ofInt 64 ((n : Int).bmod (2 ^ 16))
  | lw => .ofInt 64 ((n : Int).bmod (2 ^ 32))
  | ld | lbu | lhu | lwu => .ofNat 64 n

end Rv64i

------------------------------------------------------------
-- Results As Operations On Words
------------------------------------------------------------

namespace Rv64i

/- The result by operations on words. -/
def RegOp.word
    (op : RegOp)
    (a b : BitVec 64) : BitVec 64 :=
  match op with
  | add => a + b
  | sub => a - b
  | sll => a <<< (b.toNat % 64)
  | slt => if a.slt b then 1 else 0
  | sltu => if a < b then 1 else 0
  | xor => a ^^^ b
  | srl => a >>> (b.toNat % 64)
  | sra => a.sshiftRight (b.toNat % 64)
  | or => a ||| b
  | and => a &&& b
  | addw => ((a + b).setWidth 32).signExtend 64
  | subw => ((a - b).setWidth 32).signExtend 64
  | sllw =>
      (a.setWidth 32 <<< (b.toNat % 32)).signExtend 64
  | srlw =>
      (a.setWidth 32 >>> (b.toNat % 32)).signExtend 64
  | sraw =>
      ((a.setWidth 32).sshiftRight (b.toNat % 32)).signExtend
        64

/- A word result extends its sign. -/
theorem ofWord_eq
    (x : Int) :
    ofWord x = (BitVec.ofInt 32 x).signExtend 64 := by
  unfold ofWord
  rw [BitVec.signExtend, BitVec.toInt_ofInt]

/- The low half of a number is that of its word. -/
theorem ofInt_toInt_low
    (a : BitVec 64) :
    BitVec.ofInt 32 a.toInt = a.setWidth 32 := by
  apply BitVec.eq_of_toInt_eq
  rw [BitVec.toInt_ofInt, BitVec.toInt_setWidth,
    BitVec.toInt_eq_toNat_bmod, Int.bmod_bmod_of_dvd]
  exact ⟨2 ^ 32, rfl⟩

/- Subtraction is that of words. -/
theorem ofInt_sub
    {w : Nat}
    (x y : Int) :
    BitVec.ofInt w (x - y) =
      BitVec.ofInt w x - BitVec.ofInt w y := by
  rw [Int.sub_eq_add_neg, BitVec.ofInt_add, BitVec.ofInt_neg,
    BitVec.sub_eq_add_neg]

/- Multiplying by a power is a shift. -/
theorem ofInt_mul_two_pow
    {w : Nat}
    (x : Int)
    (n : Nat) :
    BitVec.ofInt w (x * 2 ^ n) = BitVec.ofInt w x <<< n := by
  have hPow : BitVec.ofInt w (2 ^ n) = BitVec.twoPow w n := by
    have hCast := BitVec.ofInt_natCast w (2 ^ n)
    rw [Nat.cast_pow] at hCast
    apply BitVec.eq_of_toNat_eq
    rw [BitVec.toNat_twoPow]
    exact (congrArg BitVec.toNat hCast).trans
      (BitVec.toNat_ofNat _ _)
  rw [BitVec.ofInt_mul, BitVec.shiftLeft_eq_mul_twoPow, hPow]

theorem low_le :
    32 ≤ 64 := by
  decide

/- The integers that the manual describes, on words. -/
theorem RegOp.value_eq
    (op : RegOp)
    (a b : BitVec 64) :
    op.value a b = op.word a b := by
  cases op with
  | add =>
      simp only [value, word]
      rw [BitVec.ofInt_add, BitVec.ofInt_toInt,
        BitVec.ofInt_toInt]
  | sub =>
      simp only [value, word]
      rw [ofInt_sub, BitVec.ofInt_toInt, BitVec.ofInt_toInt]
  | sll =>
      simp only [value, word]
      apply BitVec.eq_of_toNat_eq
      rw [BitVec.toNat_ofNat, BitVec.toNat_shiftLeft,
        Nat.shiftLeft_eq]
  | slt =>
      simp only [value, word, BitVec.slt_iff_toInt_lt]
  | sltu =>
      simp only [value, word, BitVec.lt_def]
  | xor => rfl
  | srl =>
      simp only [value, word]
      apply BitVec.eq_of_toNat_eq
      rw [BitVec.toNat_ofNat, BitVec.toNat_ushiftRight,
        Nat.shiftRight_eq_div_pow, Nat.mod_eq_of_lt]
      exact Nat.lt_of_le_of_lt (Nat.div_le_self _ _) a.isLt
  | sra =>
      simp only [value, word]
      rw [BitVec.sshiftRight_eq, Int.shiftRight_eq_div_pow]
      rfl
  | or => rfl
  | and => rfl
  | addw =>
      simp only [value, word]
      rw [ofWord_eq, BitVec.ofInt_add, ofInt_toInt_low,
        ofInt_toInt_low, BitVec.setWidth_add _ _ low_le]
  | subw =>
      simp only [value, word]
      rw [ofWord_eq, ofInt_sub, ofInt_toInt_low,
        ofInt_toInt_low, BitVec.sub_eq_add_neg,
        BitVec.sub_eq_add_neg, BitVec.setWidth_add _ _ low_le,
        BitVec.setWidth_neg_of_le low_le]
  | sllw =>
      simp only [value, word]
      rw [ofWord_eq, ofInt_mul_two_pow, ofInt_toInt_low]
  | srlw =>
      simp only [value, word]
      rw [ofWord_eq]
      apply congrArg (BitVec.signExtend 64)
      rw [BitVec.ofInt_natCast]
      apply BitVec.eq_of_toNat_eq
      rw [BitVec.toNat_ofNat, BitVec.toNat_ushiftRight,
        BitVec.toNat_setWidth, Nat.shiftRight_eq_div_pow,
        Nat.mod_eq_of_lt]
      exact Nat.lt_of_le_of_lt (Nat.div_le_self _ _)
        (Nat.mod_lt _ (Nat.two_pow_pos 32))
  | sraw =>
      have hLow : (a.setWidth 32).toInt =
          a.toInt.bmod (2 ^ 32) := by
        rw [← ofInt_toInt_low, BitVec.toInt_ofInt]
      simp only [value, word]
      rw [ofWord_eq, BitVec.sshiftRight_eq, hLow,
        Int.shiftRight_eq_div_pow]
      rfl

/- What loads make of the bytes they read. -/
theorem signExtend_ofNat
    (n k : Nat)
    (hk : k ≤ 64) :
    ((BitVec.ofNat 64 n).setWidth k).signExtend 64 =
      BitVec.ofInt 64 ((n : Int).bmod (2 ^ k)) := by
  rw [BitVec.setWidth_ofNat_of_le hk, BitVec.signExtend,
    BitVec.toInt_ofNat']

end Rv64i

------------------------------------------------------------
-- Execution
------------------------------------------------------------

namespace Rv64i

/- The number in `n` bytes, the lowest first. -/
def readBytes
    (mem : BitVec 64 → BitVec 8)
    (a : BitVec 64) : Nat → Nat
  | 0 => 0
  | n + 1 =>
      readBytes mem a n +
        (mem (a + BitVec.ofNat 64 n)).toNat * 256 ^ n

/- Memory with the lowest `n` bytes of a value stored. -/
def writeBytes
    (mem : BitVec 64 → BitVec 8)
    (a : BitVec 64)
    (n : Nat)
    (v : BitVec 64) : BitVec 64 → BitVec 8 :=
  fun c =>
    if (c - a).toNat < n then
      .ofNat 8 (v.toNat / 256 ^ (c - a).toNat)
    else
      mem c

/- The registers, of which the first is zero. -/
@[ext] structure State where
  regs : BitVec 5 → BitVec 64
  pc : BitVec 64
  mem : BitVec 64 → BitVec 8
  zero : regs 0 = 0

namespace State

/- A write to the first register has no effect. -/
def set
    (m : State)
    (r : BitVec 5)
    (v : BitVec 64) : State :=
  { m with
    regs := fun q => if q = r ∧ r ≠ 0 then v else m.regs q
    zero := by
      rw [if_neg]
      · exact m.zero
      · exact fun h => h.2 h.1.symm }

def goTo
    (m : State)
    (pc : BitVec 64) : State :=
  { m with pc := pc }

/- The next instruction in memory. -/
def next
    (m : State) : State :=
  m.goTo (m.pc + 4)

/- The word at `pc`. -/
def word
    (m : State) : BitVec 32 :=
  .ofNat 32 (readBytes m.mem m.pc 4)

end State

/- The address of a load or store. -/
def address
    (m : State)
    (rs1 : BitVec 5)
    (imm : BitVec 12) : BitVec 64 :=
  m.regs rs1 + imm.signExtend 64

def Instr.exec
    (m : State) : Instr → State
  | .regReg op rd rs1 rs2 =>
      (m.set rd (op.value (m.regs rs1) (m.regs rs2))).next
  | .regImm op rd rs1 imm =>
      (m.set rd (op.base.value (m.regs rs1)
        (imm.signExtend 64))).next
  | .shift op rd rs1 amount =>
      (m.set rd (op.base.value (m.regs rs1)
        (amount.setWidth 64))).next
  | .shiftW op rd rs1 amount =>
      (m.set rd (op.baseW.value (m.regs rs1)
        (amount.setWidth 64))).next
  | .lui rd imm =>
      (m.set rd ((imm ++ 0#12).signExtend 64)).next
  | .auipc rd imm =>
      (m.set rd (m.pc + (imm ++ 0#12).signExtend 64)).next
  | .jal rd offset =>
      (m.set rd (m.pc + 4)).goTo
        (m.pc + (offset ++ 0#1).signExtend 64)
  | .jalr rd rs1 imm =>
      (m.set rd (m.pc + 4)).goTo
        (address m rs1 imm &&& ~~~1)
  | .branch cond rs1 rs2 offset =>
      if cond.holds (m.regs rs1) (m.regs rs2) then
        m.goTo (m.pc + (offset ++ 0#1).signExtend 64)
      else
        m.next
  | .load op rd rs1 imm =>
      (m.set rd (op.value
        (readBytes m.mem (address m rs1 imm) op.bytes))).next
  | .store op rs2 rs1 imm =>
      State.next { m with
        mem := writeBytes m.mem (address m rs1 imm) op.bytes
          (m.regs rs2) }

/- The word at `pc` is executed. -/
inductive Step
    (m : State) : Instr → State → Prop
  | exec {i : Instr} :
      m.word = i.encode → Step m i (i.exec m)

/- Instructions one after the other, each at `pc`. -/
inductive Executes
    (m : State) : List Instr → State → Prop
  | start : Executes m [] m
  | step {is : List Instr} {i : Instr} {m₁ m₂ : State} :
      Executes m is m₁ → Step m₁ i m₂ →
      Executes m (is ++ [i]) m₂

/- Instructions may be executed one after the other. -/
theorem Executes.append
    {m m₁ m₂ : State}
    {is js : List Instr}
    (h : Executes m is m₁)
    (h' : Executes m₁ js m₂) :
    Executes m (is ++ js) m₂ := by
  induction h' with
  | start =>
      rw [List.append_nil]
      exact h
  | step _ hLast ih =>
      rw [← List.append_assoc]
      exact ih.step hLast

end Rv64i

------------------------------------------------------------
-- The Program Counter
------------------------------------------------------------

namespace Rv64i

open WordArith (IsEven)

/- Offsets of branches are even. -/
theorem isEven_offset
    {n : Nat}
    (offset : BitVec n) :
    IsEven ((offset ++ 0#1).signExtend 64) :=
  .signExtend (Nat.succ_pos n)
    (.append offset Nat.one_pos .zero) 64

/- Instructions are at even addresses. -/
theorem Instr.exec_isEven
    (i : Instr)
    {m : State}
    (h : IsEven m.pc) :
    IsEven (i.exec m).pc := by
  have hNext : IsEven (m.pc + 4) := h.add (by decide)
  cases i with
  | jal rd offset => exact h.add (isEven_offset offset)
  | jalr rd rs1 imm => exact .and _ (by decide)
  | branch cond rs1 rs2 offset =>
      unfold exec
      dsimp only
      split
      · exact h.add (isEven_offset offset)
      · exact hNext
  | _ => exact hNext

/- The counter stays even. -/
theorem Executes.isEven
    {m m' : State}
    {is : List Instr}
    (h : Executes m is m')
    (hEven : IsEven m.pc) :
    IsEven m'.pc := by
  induction h with
  | start => exact hEven
  | step _ hLast ih =>
      cases hLast with
      | exec => exact Instr.exec_isEven _ ih

end Rv64i
