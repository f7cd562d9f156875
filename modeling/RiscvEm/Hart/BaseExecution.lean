import RiscvEm.Decode.BaseInstructions
import RiscvEm.Hart.RamBytes
import RiscvEm.Sets.Exec

/-
  The functions of the base instructions against the manual:
  executing the entry of an instruction changes registers,
  `pc` and memory as the manual says, if its accesses are to
  RAM.

  Key definitions include:
    * `State.isa`
    * `AccessesRam`
    * `ExecutedAs`

  Key theorems include `exec_base`.
-/

------------------------------------------------------------
-- What The Manual Sees
------------------------------------------------------------

namespace RiscvEm

variable {σ : Type}
variable {P : Platform σ}
variable {s s' : State σ}

/- The registers, `pc` and memory of a hart. -/
def State.isa
    (s : State σ) : Rv64i.State :=
  { regs := fun r => if r = 0 then 0 else s.gpr r
    pc := s.hart.pc
    mem := s.ramByte
    zero := if_pos rfl }

/- The manual sees registers, the counter and memory. -/
theorem State.isa_eq
    (hRegs : ∀ r, r ≠ 0 → s'.gpr r = s.gpr r)
    (hPc : s'.hart.pc = s.hart.pc)
    (hMem : s'.mem = s.mem) :
    s'.isa = s.isa := by
  apply Rv64i.State.ext
  · funext r
    change (if r = 0 then 0 else s'.gpr r) =
      if r = 0 then 0 else s.gpr r
    split
    case isTrue => rfl
    case isFalse hNe => exact hRegs r hNe
  · exact hPc
  · funext a
    change s'.mem.ramBytes _ = s.mem.ramBytes _
    rw [hMem]

/- With `x0` clear, reading a register is reading it. -/
theorem State.isa_regs
    (hZero : s.gpr 0 = 0)
    (r : BitVec 5) :
    s.isa.regs r = s.gpr r := by
  change (if r = 0 then 0 else s.gpr r) = s.gpr r
  split
  case isTrue hEq => rw [hEq, hZero]
  case isFalse => rfl

/- Writing a register, as the manual sees it. -/
theorem State.isa_setGpr
    (s : State σ)
    (r : BitVec 5)
    (v : BitVec 64) :
    (s.setGpr r v).isa = s.isa.set r v := by
  apply Rv64i.State.ext
  · funext q
    change (if q = 0 then 0 else
        Function.update s.hart.GPR r v q) =
      if q = r ∧ r ≠ 0 then v else
        if q = 0 then 0 else s.gpr q
    by_cases hq : q = r
    · subst hq
      rw [Function.update_self]
      by_cases h0 : q = 0
      · rw [if_pos h0, if_neg (fun h => h.2 h0), if_pos h0]
      · rw [if_neg h0, if_pos ⟨rfl, h0⟩]
    · have hOther : ¬ (q = r ∧ r ≠ 0) := fun h => hq h.1
      rw [Function.update_of_ne hq, if_neg hOther]
      rfl
  · rfl
  · rfl

/- Retiring moves the counter only. -/
theorem State.isa_retire
    (s : State σ)
    (out : ExecReturn) :
    (s.retire out).isa =
      s.isa.goTo (s.hart.pc + out.increasePc) :=
  rfl

end RiscvEm

------------------------------------------------------------
-- Execution Of An Entry
------------------------------------------------------------

namespace RiscvEm

open Rv64i (Instr RegOp ImmOp ShiftOp LoadOp StoreOp Cond)

variable {σ : Type}
variable {P : Platform σ}
variable {s : State σ}

/- Loads and stores are to RAM. -/
def AccessesRam
    (P : Platform σ)
    (m : Rv64i.State) : Instr → Prop
  | .load op _ rs1 imm =>
      RamRange P (Rv64i.address m rs1 imm) op.bytes
  | .store op _ rs1 imm =>
      RamRange P (Rv64i.address m rs1 imm) op.bytes
  | _ => True

/-
  The instruction succeeds and, with the step of `pc` behind
  it, has the effect that the manual gives it.
-/
structure ExecutedAs
    (P : Platform σ)
    (s : State σ)
    (i : Instr)
    (out : ExecReturn)
    (s₁ : State σ) : Prop where
  success : out.isSuccess = true
  effect : (s₁.retire out).isa = i.exec s.isa
  wf : s₁.Wf P
  cache : s₁.cache = s.cache

/- The operands that the decoder finds in the encoding. -/
def baseData
    (i : Instr) : InstructionData :=
  operandData i.encode ((baseEntry i).imm i.encode)

/- What an instruction does with its entry. -/
def Executed
    (P : Platform σ)
    (s : State σ)
    (i : Instr) : Prop :=
  ∃ out s₁,
    (baseEntry i).func.exec P (baseData i) s = .ok (out, s₁) ∧
      ExecutedAs P s i out s₁

/- Writing a register keeps the state well formed. -/
theorem State.Wf.of_setGpr
    (hWf : s.Wf P)
    (r : BitVec 5)
    (v : BitVec 64) :
    (s.setGpr r v).Wf P :=
  ⟨hWf.hasRam, hWf.memorySize⟩

/- A result in a register. -/
theorem executed_rd
    {i : Instr}
    {rd : BitVec 5}
    {val : State σ → BitVec 64}
    (hWf : s.Wf P)
    (hExec : (baseEntry i).func.exec P (baseData i) s =
      execRd 4 rd val s)
    (hEffect : i.exec s.isa = (s.isa.set rd (val s)).next) :
    Executed P s i := by
  refine ⟨.next 4, s.setGpr rd (val s), hExec, rfl, ?_,
    hWf.of_setGpr rd _, rfl⟩
  rw [State.isa_retire, State.isa_setGpr, hEffect]
  rfl

end RiscvEm

------------------------------------------------------------
-- Registers And Immediates
------------------------------------------------------------

namespace RiscvEm

open Rv64i (Instr RegOp ImmOp ShiftOp LoadOp StoreOp Cond)
open Formats

variable {σ : Type}
variable {P : Platform σ}
variable {s : State σ}

/- The mask of a shift count shows no more than its width. -/
theorem masked_mod
    (b : BitVec 64)
    {k : Nat}
    (hk : 2 ^ k - 1 < 2 ^ 64) :
    (b &&& BitVec.ofNat 64 (2 ^ k - 1)).toNat % 2 ^ k =
      b.toNat % 2 ^ k := by
  rw [BitVec.toNat_and, BitVec.toNat_ofNat,
    Nat.mod_eq_of_lt hk, Nat.and_two_pow_sub_one_eq_mod,
    Nat.mod_mod]

/- The six bits of a count are its remainder by 64. -/
theorem masked_long
    (b : BitVec 64) :
    (b &&& 0x3F).toNat % 64 = b.toNat % 64 :=
  @masked_mod b 6 (by decide)

/- The five bits are that by 32. -/
theorem masked_word
    (b : BitVec 64) :
    (b &&& 0x1F).toNat % 32 = b.toNat % 32 :=
  @masked_mod b 5 (by decide)

/- The functions of two registers. -/
theorem regEntry_exec
    (op : RegOp)
    (P : Platform σ)
    (d : InstructionData) :
    (regEntry op).func.exec P d = execRType op.word P d := by
  cases op with
  | sll =>
      change execRType (fun a b =>
        a <<< ((b &&& 0x3F).toNat % 64)) P d = _
      simp only [masked_long]
      rfl
  | srl =>
      change execRType (fun a b =>
        a >>> ((b &&& 0x3F).toNat % 64)) P d = _
      simp only [masked_long]
      rfl
  | sra =>
      change execRType (fun a b =>
        a.sshiftRight ((b &&& 0x3F).toNat % 64)) P d = _
      simp only [masked_long]
      rfl
  | sllw =>
      change execRType (fun a b => (a.setWidth 32 <<<
        ((b &&& 0x1F).toNat % 32)).signExtend 64) P d = _
      simp only [masked_word]
      rfl
  | srlw =>
      change execRType (fun a b => (a.setWidth 32 >>>
        ((b &&& 0x1F).toNat % 32)).signExtend 64) P d = _
      simp only [masked_word]
      rfl
  | sraw =>
      change execRType (fun a b => ((a.setWidth 32).sshiftRight
        ((b &&& 0x1F).toNat % 32)).signExtend 64) P d = _
      simp only [masked_word]
      rfl
  | _ => rfl

/- An operation with an immediate executes its body. -/
theorem immEntry_exec
    (op : ImmOp)
    (P : Platform σ)
    (d : InstructionData) :
    (immEntry op).func.exec P d =
      execIType op.base.word P d := by
  cases op <;> rfl

/- A shift executes its body. -/
theorem shiftEntry_exec
    (op : ShiftOp)
    (P : Platform σ)
    (d : InstructionData) :
    (shiftEntry op).func.exec P d =
      execIType op.base.word P d := by
  cases op <;> rfl

/- A shift of a word executes its body. -/
theorem shiftWEntry_exec
    (op : ShiftOp)
    (P : Platform σ)
    (d : InstructionData) :
    (shiftWEntry op).func.exec P d =
      execIType op.baseW.word P d := by
  cases op <;> rfl

variable (hZero : s.gpr 0 = 0)
variable (hWf : s.Wf P)

include hZero hWf

/- Operations on registers execute as the manual says. -/
theorem executed_regReg
    (op : RegOp)
    (rd rs1 rs2 : BitVec 5) :
    Executed P s (.regReg op rd rs1 rs2) := by
  rcases rType_fields op.code.1 rs2 rs1 rd op.code.2.1
    op.code.2.2 with ⟨hRd, hRs1, hRs2⟩
  have hExec := congrFun
    (regEntry_exec op P (baseData (.regReg op rd rs1 rs2))) s
  refine executed_rd hWf hExec ?_
  change _ = (s.isa.set (dRd _) (op.word (s.gpr (dRs1 _))
    (s.gpr (dRs2 _)))).next
  unfold dRd dRs1 dRs2
  rw [show (Instr.regReg op rd rs1 rs2).encode = rType op.code.1
    rs2 rs1 op.code.2.1 rd op.code.2.2 from rfl, hRd, hRs1,
    hRs2, ← op.value_eq, ← State.isa_regs hZero,
    ← State.isa_regs hZero]
  rfl

/- A register and an immediate in the format of `addi`. -/
theorem executed_iType
    {i : Instr}
    {base : RegOp}
    {bits : BitVec 12}
    {rs1 rd : BitVec 5}
    {funct3 : BitVec 3}
    {opcode : BitVec 7}
    {imm : BitVec 64}
    (hEncode : i.encode = iType bits rs1 funct3 rd opcode)
    (hExec : (baseEntry i).func.exec P (baseData i) =
      execIType base.word P (baseData i))
    (hImm : (baseEntry i).imm i.encode = imm)
    (hEffect : i.exec s.isa =
      (s.isa.set rd (base.value (s.isa.regs rs1) imm)).next) :
    Executed P s i := by
  rcases iType_fields rs1 rd funct3 opcode bits with
    ⟨hRd, hRs1, -⟩
  refine executed_rd hWf (congrFun hExec s) ?_
  change _ = (s.isa.set (dRd i.encode) (base.word
    (s.gpr (dRs1 i.encode)) ((baseEntry i).imm i.encode))).next
  unfold dRd dRs1
  rw [hImm, hEncode, hRd, hRs1, ← base.value_eq,
    ← State.isa_regs hZero, hEffect]

/- Shifts of words by an amount in the instruction. -/
theorem executed_shiftW
    (op : ShiftOp)
    (rd rs1 : BitVec 5)
    (amount : BitVec 5) :
    Executed P s (.shiftW op rd rs1 amount) := by
  rcases rType_fields (op.code.1 ++ 0#1) amount rs1 rd
    op.code.2 0x1B with ⟨hRd, hRs1, -⟩
  have hImm : (baseEntry (.shiftW op rd rs1 amount)).imm
      (Instr.shiftW op rd rs1 amount).encode =
        amount.setWidth 64 := shiftW_imm op rd rs1 amount
  refine executed_rd hWf
    (congrFun (shiftWEntry_exec op P _) s) ?_
  change _ = (s.isa.set (dRd _) (op.baseW.word
    (s.gpr (dRs1 _)) ((baseEntry (.shiftW op rd rs1 amount)).imm
      (Instr.shiftW op rd rs1 amount).encode))).next
  unfold dRd dRs1
  rw [hImm, show (Instr.shiftW op rd rs1 amount).encode =
    rType (op.code.1 ++ 0#1) amount rs1 op.code.2 rd 0x1B
    from rfl, hRd, hRs1, ← op.baseW.value_eq,
    ← State.isa_regs hZero]
  rfl

end RiscvEm

------------------------------------------------------------
-- Loads And Stores
------------------------------------------------------------

namespace RiscvEm

open Rv64i (Instr LoadOp StoreOp)
open Formats

variable {σ : Type}
variable {P : Platform σ}
variable {s : State σ}

/- The bytes of a range as one number. -/
theorem readBytes_ram
    {a : BitVec 64}
    {n : Nat}
    (h : RamRange P a n)
    (hn : n ≤ 8) :
    composeLe s.mem.ramBytes (a - 0x80000000).toNat n =
      BitVec.ofNat 64 (Rv64i.readBytes s.ramByte a n) := by
  have hAll : ∀ k ≤ n, hostLoad s.mem.ramBytes
      (a - 0x80000000).toNat k =
        Rv64i.readBytes s.ramByte a k := by
    intro k hk
    induction k with
    | zero => rfl
    | succ k ih =>
        unfold hostLoad Rv64i.readBytes State.ramByte
        rw [h.offset (Nat.le_of_succ_le hk),
          ih (Nat.le_of_succ_le hk)]
        rfl
  rw [← hAll n (Nat.le_refl n),
    ← (composeLe_eq_hostLoad s.mem.ramBytes _ n hn).1,
    BitVec.ofNat_toNat, BitVec.setWidth_eq]

def loadSize : LoadOp → MemorySize
  | .lb | .lbu => .Byte
  | .lh | .lhu => .Short
  | .lw | .lwu => .Int
  | .ld => .Long

/- The cast of the value that was read. -/
def loadCast : LoadOp → BitVec 64 → BitVec 64
  | .lb => sextBytes .Byte
  | .lh => sextBytes .Short
  | .lw => sextBytes .Int
  | .ld | .lbu | .lhu | .lwu => id

/- The body of a load, by its size and its extension. -/
theorem loadEntry_exec
    (op : LoadOp)
    (P : Platform σ)
    (d : InstructionData) :
    (loadEntry op).func.exec P d =
      execLType (loadSize op) (loadCast op) P d := by
  cases op <;> rfl

/- The sizes are the manual's. -/
theorem loadSize_bytes
    (op : LoadOp) :
    (loadSize op).bytes = op.bytes := by
  cases op <;> rfl

/- Loads extend as the manual says. -/
theorem loadCast_eq
    (op : LoadOp)
    (n : Nat) :
    loadCast op (BitVec.ofNat 64 n) = op.value n := by
  cases op with
  | lb => exact Rv64i.signExtend_ofNat n 8 (by decide)
  | lh => exact Rv64i.signExtend_ofNat n 16 (by decide)
  | lw => exact Rv64i.signExtend_ofNat n 32 (by decide)
  | _ => rfl

def storeSize : StoreOp → MemorySize
  | .sb => .Byte
  | .sh => .Short
  | .sw => .Int
  | .sd => .Long

/- A store executes its body. -/
theorem storeEntry_exec
    (op : StoreOp)
    (P : Platform σ)
    (d : InstructionData) :
    (storeEntry op).func.exec P d =
      execSType (storeSize op) P d := by
  cases op <;> rfl

/- Stores have the manual's sizes. -/
theorem storeSize_bytes
    (op : StoreOp) :
    (storeSize op).bytes = op.bytes := by
  cases op <;> rfl

/- A written byte of a value. -/
theorem written_byte
    (v : BitVec 64)
    (k : Nat) :
    (v >>> (8 * k)).setWidth 8 =
      BitVec.ofNat 8 (v.toNat / 256 ^ k) := by
  apply BitVec.eq_of_toNat_eq
  rw [BitVec.toNat_setWidth, BitVec.toNat_ushiftRight,
    Nat.shiftRight_eq_div_pow, BitVec.toNat_ofNat,
    Nat.pow_mul]

variable (hZero : s.gpr 0 = 0)
variable (hWf : s.Wf P)

include hZero hWf

/- Loads from RAM execute as the manual says. -/
theorem executed_load
    (op : LoadOp)
    (rd rs1 : BitVec 5)
    (imm : BitVec 12)
    (hRam : AccessesRam P s.isa (.load op rd rs1 imm)) :
    Executed P s (.load op rd rs1 imm) := by
  rcases iType_fields rs1 rd op.code 0x03 imm with
    ⟨hRd, hRs1, -⟩
  have hEncode : (Instr.load op rd rs1 imm).encode =
      iType imm rs1 op.code rd 0x03 := rfl
  have hImm : (baseData (.load op rd rs1 imm)).imm =
      imm.signExtend 64 := load_imm op rd rs1 imm
  have hTo : (baseData (.load op rd rs1 imm)).rd = rd := by
    change dRd _ = rd
    unfold dRd
    rw [hEncode, hRd]
  have hAddr : s.gpr (baseData (.load op rd rs1 imm)).rs1 +
      (baseData (.load op rd rs1 imm)).imm =
        Rv64i.address s.isa rs1 imm := by
    change s.gpr (dRs1 _) + _ = s.isa.regs rs1 + _
    unfold dRs1
    rw [hImm, hEncode, hRs1, State.isa_regs hZero]
  have hRange : RamRange P (Rv64i.address s.isa rs1 imm)
      (loadSize op).bytes := by
    rw [loadSize_bytes]
    exact hRam
  have hRead := hWf.read_ram hRange
  rw [readBytes_ram hRange (loadSize op).bytes_le] at hRead
  refine ⟨.next 4, s.setGpr rd (loadCast op (BitVec.ofNat 64
    (Rv64i.readBytes s.ramByte (Rv64i.address s.isa rs1 imm)
      (loadSize op).bytes))), ?_, rfl, ?_,
    hWf.of_setGpr rd _, rfl⟩
  · change (loadEntry op).func.exec P _ s = _
    rw [loadEntry_exec]
    unfold execLType execLoad
    dsimp only
    rw [hAddr, hRead, hTo]
    rfl
  · rw [State.isa_retire, State.isa_setGpr, loadCast_eq,
      loadSize_bytes]
    rfl

/- Stores to RAM execute as the manual says. -/
theorem executed_store
    (op : StoreOp)
    (rs2 rs1 : BitVec 5)
    (imm : BitVec 12)
    (hRam : AccessesRam P s.isa (.store op rs2 rs1 imm)) :
    Executed P s (.store op rs2 rs1 imm) := by
  rcases sType_fields rs2 rs1 op.code 0x23 imm with
    ⟨hRs1, hRs2, -⟩
  have hEncode : (Instr.store op rs2 rs1 imm).encode =
      sType imm rs2 rs1 op.code 0x23 := rfl
  have hImm : (baseData (.store op rs2 rs1 imm)).imm =
      imm.signExtend 64 := store_imm op rs2 rs1 imm
  have hAddr : s.gpr (baseData (.store op rs2 rs1 imm)).rs1 +
      (baseData (.store op rs2 rs1 imm)).imm =
        Rv64i.address s.isa rs1 imm := by
    change s.gpr (dRs1 _) + _ = s.isa.regs rs1 + _
    unfold dRs1
    rw [hImm, hEncode, hRs1, State.isa_regs hZero]
  have hValue : s.gpr (baseData (.store op rs2 rs1 imm)).rs2 =
      s.isa.regs rs2 := by
    change s.gpr (dRs2 _) = _
    unfold dRs2
    rw [hEncode, hRs2, State.isa_regs hZero]
  have hRange : RamRange P (Rv64i.address s.isa rs1 imm)
      (storeSize op).bytes := by
    rw [storeSize_bytes]
    exact hRam
  obtain ⟨s₁, hWrite, hWf₁, hOnly, hBytes⟩ :=
    hWf.write_ram hRange (s.isa.regs rs2)
  refine ⟨.next 4, s₁, ?_, rfl, ?_, hWf₁, ?_⟩
  · change (storeEntry op).func.exec P _ s = _
    rw [storeEntry_exec]
    unfold execSType execStore
    dsimp only
    rw [hAddr, hValue, hWrite]
    rfl
  · rw [State.isa_retire]
    apply Rv64i.State.ext
    · funext r
      change (if r = 0 then 0 else s₁.hart.GPR r) = _
      rw [hOnly.hart]
      rfl
    · change s₁.hart.pc + 4 = s.hart.pc + 4
      rw [hOnly.hart]
    · funext c
      change s₁.ramByte c = Rv64i.writeBytes s.ramByte
        (Rv64i.address s.isa rs1 imm) op.bytes
          (s.isa.regs rs2) c
      rw [hBytes, storeSize_bytes, written_byte]
      rfl
  · rw [hOnly.rest]

end RiscvEm

------------------------------------------------------------
-- Branches And Jumps
------------------------------------------------------------

namespace RiscvEm

open Rv64i (Instr Cond)
open Formats
open WordArith (IsEven)

variable {σ : Type}
variable {P : Platform σ}
variable {s : State σ}

/- The test of a branch. -/
def branchTest : Cond → BitVec 64 → BitVec 64 → Bool
  | .beq => fun a b => a == b
  | .bne => fun a b => a != b
  | .blt => fun a b => a.slt b
  | .bge => fun a b => b.sle a
  | .bltu => fun a b => decide (a < b)
  | .bgeu => fun a b => decide (b ≤ a)

/- A branch executes its body. -/
theorem branchEntry_exec
    (cond : Cond)
    (P : Platform σ)
    (d : InstructionData) :
    (branchEntry cond).func.exec P d =
      execBranch (branchTest cond) P d := by
  cases cond <;> rfl

/- The test of a branch is the manual's condition. -/
theorem branchTest_eq
    (cond : Cond)
    (a b : BitVec 64) :
    branchTest cond a b = cond.holds a b := by
  cases cond with
  | beq => rfl
  | bne =>
      unfold branchTest Cond.holds
      dsimp only
      rw [Bool.eq_iff_iff, bne_iff_ne, decide_eq_true_iff]
  | blt =>
      unfold branchTest Cond.holds
      dsimp only
      rw [Bool.eq_iff_iff, BitVec.slt_iff_toInt_lt,
        decide_eq_true_iff]
  | bge =>
      unfold branchTest Cond.holds
      dsimp only
      rw [Bool.eq_iff_iff, BitVec.sle_iff_toInt_le,
        decide_eq_true_iff]
  | bltu => rfl
  | bgeu => rfl

variable (hZero : s.gpr 0 = 0)
variable (hWf : s.Wf P)
variable (hEven : IsEven s.hart.pc)

include hZero hWf hEven

/- Branches execute as the manual says. -/
theorem executed_branch
    (cond : Cond)
    (rs1 rs2 : BitVec 5)
    (offset : BitVec 12) :
    Executed P s (.branch cond rs1 rs2 offset) := by
  rcases bType_fields rs2 rs1 cond.code 0x63 (offset ++ 0#1)
    with ⟨hRs1, hRs2, -⟩
  have hEncode : (Instr.branch cond rs1 rs2 offset).encode =
      bType (offset ++ 0#1) rs2 rs1 cond.code 0x63 := rfl
  have hImm : (baseData (.branch cond rs1 rs2 offset)).imm =
      (offset ++ 0#1).signExtend 64 :=
    branch_imm cond rs1 rs2 offset
  have hTest : branchTest cond
      (s.gpr (baseData (.branch cond rs1 rs2 offset)).rs1)
      (s.gpr (baseData (.branch cond rs1 rs2 offset)).rs2) =
        cond.holds (s.isa.regs rs1) (s.isa.regs rs2) := by
    change branchTest cond (s.gpr (dRs1 _)) (s.gpr (dRs2 _)) =
      _
    unfold dRs1 dRs2
    rw [hEncode, hRs1, hRs2, branchTest_eq,
      State.isa_regs hZero, State.isa_regs hZero]
  have hTarget : IsEven (s.hart.pc +
      (offset ++ 0#1).signExtend 64) :=
    hEven.add (Rv64i.isEven_offset offset)
  have hExec : (baseEntry (.branch cond rs1 rs2 offset)).func.exec
      P (baseData (.branch cond rs1 rs2 offset)) s =
      if cond.holds (s.isa.regs rs1) (s.isa.regs rs2) then
        .ok (.jumped, s.setPc (s.hart.pc +
          (offset ++ 0#1).signExtend 64))
      else
        .ok (.next 4, s) := by
    change (branchEntry cond).func.exec P _ s = _
    rw [branchEntry_exec]
    unfold execBranch
    rw [hTest, hImm]
    dsimp only
    rw [hTarget, if_neg Bool.false_ne_true]
  unfold Executed
  rw [hExec]
  by_cases hHolds : cond.holds (s.isa.regs rs1)
      (s.isa.regs rs2) = true
  · rw [if_pos hHolds]
    refine ⟨_, _, rfl, rfl, ?_, ⟨hWf.hasRam, hWf.memorySize⟩,
      rfl⟩
    have hSpec : (Instr.branch cond rs1 rs2 offset).exec s.isa =
        s.isa.goTo (s.isa.pc +
          (offset ++ 0#1).signExtend 64) := if_pos hHolds
    rw [hSpec, State.isa_retire]
    change (s.isa.goTo _).goTo (_ + 0#64) = _
    rw [BitVec.add_zero]
    rfl
  · rw [if_neg hHolds]
    refine ⟨_, _, rfl, rfl, ?_, hWf, rfl⟩
    have hSpec : (Instr.branch cond rs1 rs2 offset).exec s.isa =
        s.isa.next := if_neg hHolds
    rw [hSpec, State.isa_retire]
    rfl

/- A jump to an even target. -/
omit hZero hEven in
/- Jumps to even addresses execute as the manual says. -/
theorem executed_jump
    {i : Instr}
    {target : BitVec 64}
    {rd : BitVec 5}
    (hTarget : IsEven target)
    (hExec : (baseEntry i).func.exec P (baseData i) s =
      execJump target rd s)
    (hEffect : i.exec s.isa =
      (s.isa.set rd (s.isa.pc + 4)).goTo target) :
    Executed P s i := by
  unfold execJump at hExec
  rw [hTarget, if_neg Bool.false_ne_true] at hExec
  refine ⟨_, _, hExec, rfl, ?_, ⟨hWf.hasRam, hWf.memorySize⟩,
    rfl⟩
  rw [State.isa_retire, State.isa_setGpr, hEffect]
  change ((s.isa.goTo target).set rd _).goTo (target + 0#64) = _
  rw [BitVec.add_zero]
  rfl

omit hZero in
/- `JAL` executes as the manual says. -/
theorem executed_jal
    (rd : BitVec 5)
    (offset : BitVec 20) :
    Executed P s (.jal rd offset) := by
  have hRd := (jType_fields rd 0x6F (offset ++ 0#1)).1
  have hImm : immJ (Instr.jal rd offset).encode =
      (offset ++ 0#1).signExtend 64 :=
    immJ_jType _ (offset_even offset) _ _
  have hTo : dRd (Instr.jal rd offset).encode = rd := hRd
  refine executed_jump hWf (hEven.add
    (Rv64i.isEven_offset offset)) ?_ rfl
  change execJump (s.hart.pc +
    immJ (Instr.jal rd offset).encode)
    (dRd (Instr.jal rd offset).encode) s = _
  rw [hImm, hTo]

omit hEven in
/- `JALR` executes as the manual says. -/
theorem executed_jalr
    (rd rs1 : BitVec 5)
    (imm : BitVec 12) :
    Executed P s (.jalr rd rs1 imm) := by
  rcases iType_fields rs1 rd 0 0x67 imm with ⟨hRd, hRs1, -⟩
  have hImm : immI (Instr.jalr rd rs1 imm).encode =
      imm.signExtend 64 := immI_iType _ _ _ _ _
  have hTo : dRd (Instr.jalr rd rs1 imm).encode = rd := hRd
  have hFrom : dRs1 (Instr.jalr rd rs1 imm).encode = rs1 :=
    hRs1
  have hTarget : IsEven (Rv64i.address s.isa rs1 imm &&& ~~~1) :=
    .and _ (by decide)
  refine executed_jump hWf hTarget ?_ rfl
  change execJump ((s.gpr (dRs1 (Instr.jalr rd rs1 imm).encode) +
    immI (Instr.jalr rd rs1 imm).encode) &&& ~~~1)
    (dRd (Instr.jalr rd rs1 imm).encode) s = _
  rw [hImm, hTo, hFrom, ← State.isa_regs hZero]
  rfl

omit hEven hZero in
/- `LUI` executes as the manual says. -/
theorem executed_lui
    (rd : BitVec 5)
    (imm : BitVec 20) :
    Executed P s (.lui rd imm) := by
  have hTo : dRd (Instr.lui rd imm).encode = rd :=
    (uType_fields rd 0x37 imm).1
  have hImm : immU (Instr.lui rd imm).encode =
      (imm ++ 0#12).signExtend 64 := immU_uType _ _ _
  have hExec : (baseEntry (.lui rd imm)).func.exec P
      (baseData (.lui rd imm)) s =
        execRd 4 (dRd (Instr.lui rd imm).encode)
          (fun _ => immU (Instr.lui rd imm).encode) s := rfl
  refine executed_rd hWf hExec ?_
  rw [hTo, hImm]
  rfl

omit hEven hZero in
/- A constant added to the counter. -/
theorem executed_auipc
    (rd : BitVec 5)
    (imm : BitVec 20) :
    Executed P s (.auipc rd imm) := by
  have hTo : dRd (Instr.auipc rd imm).encode = rd :=
    (uType_fields rd 0x17 imm).1
  have hImm : immU (Instr.auipc rd imm).encode =
      (imm ++ 0#12).signExtend 64 := immU_uType _ _ _
  have hExec : (baseEntry (.auipc rd imm)).func.exec P
      (baseData (.auipc rd imm)) s =
        execRd 4 (dRd (Instr.auipc rd imm).encode)
          (fun s => s.hart.pc +
            immU (Instr.auipc rd imm).encode) s := rfl
  refine executed_rd hWf hExec ?_
  rw [hTo, hImm]
  rfl

/- Every base instruction does what the manual says. -/
theorem exec_base
    (i : Instr)
    (hRam : AccessesRam P s.isa i) :
    Executed P s i := by
  cases i with
  | regReg op rd rs1 rs2 =>
      exact executed_regReg hZero hWf op rd rs1 rs2
  | regImm op rd rs1 imm =>
      exact executed_iType hZero hWf rfl
        (immEntry_exec op P _) (regImm_imm op rd rs1 imm) rfl
  | shift op rd rs1 amount =>
      exact executed_iType hZero hWf rfl
        (shiftEntry_exec op P _) (shift_imm op rd rs1 amount)
        rfl
  | shiftW op rd rs1 amount =>
      exact executed_shiftW hZero hWf op rd rs1 amount
  | lui rd imm => exact executed_lui hWf rd imm
  | auipc rd imm => exact executed_auipc hWf rd imm
  | jal rd offset => exact executed_jal hWf hEven rd offset
  | jalr rd rs1 imm => exact executed_jalr hZero hWf rd rs1 imm
  | branch cond rs1 rs2 offset =>
      exact executed_branch hZero hWf hEven cond rs1 rs2 offset
  | load op rd rs1 imm =>
      exact executed_load hZero hWf op rd rs1 imm hRam
  | store op rs2 rs1 imm =>
      exact executed_store hZero hWf op rs2 rs1 imm hRam

end RiscvEm
