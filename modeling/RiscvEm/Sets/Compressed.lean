import RiscvEm.Decode.Immediates
import RiscvEm.Lib.WordArith
import RiscvEm.Sets.Exec

/-
  Compressed instructions do what their expansions do.

  Key definitions include:
    * `SameOutcome`
    * `SameEffect`

  Key theorems include `compressed_eq_expansion`.
-/

------------------------------------------------------------
-- Equal Effects
------------------------------------------------------------

namespace RiscvEm

variable {σ : Type}

/-
  Two executions from `s` differ only in that the first goes
  on 2 bytes ahead where the second goes on 4 bytes ahead,
  and if `link` is set, in the same way in `x1`. Register
  `x0` is cleared before the next instruction.
-/
structure SameOutcome
    (link : Bool)
    (s : State σ)
    (out₁ : ExecReturn)
    (s₁ : State σ)
    (out₂ : ExecReturn)
    (s₂ : State σ) : Prop where
  gpr : ∀ r, r ≠ 0 → (link = true → r ≠ 1) →
    s₁.gpr r = s₂.gpr r
  link : link = true →
    s₁.gpr 1 = s.hart.pc + 2 ∧ s₂.gpr 1 = s.hart.pc + 4
  fpr : s₁.hart.FPR = s₂.hart.FPR
  mem : s₁.mem = s₂.mem
  world : s₁.world = s₂.world
  isSuccess : out₁.isSuccess = out₂.isSuccess
  cause : out₁.cause = out₂.cause
  tval : out₁.tval = out₂.tval
  pc : (s₁.hart.pc = s₂.hart.pc ∧
      out₁.increasePc = 0 ∧ out₂.increasePc = 0) ∨
    (s₁.hart.pc = s.hart.pc ∧ s₂.hart.pc = s.hart.pc ∧
      out₁.increasePc = 2 ∧ out₂.increasePc = 4)

/- The same for executions that the host may stop. -/
inductive SameEffect
    (link : Bool)
    (s : State σ) :
    Except HostFault (ExecReturn × State σ) →
      Except HostFault (ExecReturn × State σ) → Prop
  | stop (fault : HostFault) :
      SameEffect link s (.error fault) (.error fault)
  | done {out₁ out₂ : ExecReturn} {s₁ s₂ : State σ} :
      SameOutcome link s out₁ s₁ out₂ s₂ →
      SameEffect link s (.ok (out₁, s₁)) (.ok (out₂, s₂))

end RiscvEm

------------------------------------------------------------
-- Shapes With Equal Effects
------------------------------------------------------------

namespace RiscvEm

variable {σ : Type}
variable {P : Platform σ}
variable {s : State σ}

/- The state may agree in all that matters, as a whole. -/
theorem SameOutcome.of_eq
    {s₁ : State σ}
    {out₁ out₂ : ExecReturn}
    (hSuccess : out₁.isSuccess = out₂.isSuccess)
    (hCause : out₁.cause = out₂.cause)
    (hTval : out₁.tval = out₂.tval)
    (hPc : (out₁.increasePc = 0 ∧ out₂.increasePc = 0) ∨
      (s₁.hart.pc = s.hart.pc ∧ out₁.increasePc = 2 ∧
        out₂.increasePc = 4)) :
    SameOutcome false s out₁ s₁ out₂ s₁ := by
  constructor
  · intro r _ _
    rfl
  · intro hLink
    cases hLink
  · rfl
  · rfl
  · rfl
  · exact hSuccess
  · exact hCause
  · exact hTval
  · rcases hPc with ⟨h₁, h₂⟩ | ⟨hSame, h₁, h₂⟩
    · exact Or.inl ⟨rfl, h₁, h₂⟩
    · exact Or.inr ⟨hSame, hSame, h₁, h₂⟩

theorem sameEffect_rd
    {r₁ r₂ : BitVec 5}
    {val₁ val₂ : State σ → BitVec 64}
    (hRd : r₁ = r₂)
    (hVal : val₁ s = val₂ s) :
    SameEffect false s (execRd 2 r₁ val₁ s)
      (execRd 4 r₂ val₂ s) := by
  unfold execRd
  rw [hRd, hVal]
  apply SameEffect.done
  exact SameOutcome.of_eq rfl rfl rfl
    (Or.inr ⟨rfl, rfl, rfl⟩)

theorem sameEffect_load
    {size : MemorySize}
    {addr₁ addr₂ : State σ → BitVec 64}
    {put₁ put₂ : State σ → BitVec 64 → State σ}
    (hAddr : addr₁ s = addr₂ s)
    (hPut : ∀ s val, put₁ s val = put₂ s val)
    (hPc : ∀ s val, (put₂ s val).hart.pc = s.hart.pc) :
    SameEffect false s (execLoad P 2 size addr₁ put₁ s)
      (execLoad P 4 size addr₂ put₂ s) := by
  unfold execLoad
  rw [hAddr]
  cases hRead : s.mmioRead P (addr₂ s) size with
  | error fault => exact .stop fault
  | ok out =>
      rcases out with ⟨m, val, s₁⟩
      have hHart := congrArg Hart.pc
        (State.mmioRead_hart hRead)
      apply SameEffect.done
      rw [hPut]
      refine SameOutcome.of_eq rfl rfl rfl
        (Or.inr ⟨?_, rfl, rfl⟩)
      split
      · rw [hPc, hHart]
      · exact hHart

theorem sameEffect_store
    {size : MemorySize}
    {addr₁ addr₂ val₁ val₂ : State σ → BitVec 64}
    (hAddr : addr₁ s = addr₂ s)
    (hVal : val₁ s = val₂ s) :
    SameEffect false s (execStore P 2 size addr₁ val₁ s)
      (execStore P 4 size addr₂ val₂ s) := by
  unfold execStore
  rw [hAddr, hVal]
  cases hWrite : s.mmioWrite P (addr₂ s) size (val₂ s) with
  | error fault => exact .stop fault
  | ok out =>
      rcases out with ⟨m, s₁⟩
      apply SameEffect.done
      refine SameOutcome.of_eq rfl rfl rfl
        (Or.inr ⟨?_, rfl, rfl⟩)
      rcases State.mmioWrite_cases hWrite with
        ⟨-, -, mem, jctx, -, -, rfl⟩ |
        ⟨-, dev, world, mem, -, -, rfl⟩ | ⟨-, rfl⟩
      · rfl
      · rfl
      · rfl

/- A branch to an even target. -/
theorem sameEffect_branch
    {cond₁ : BitVec 64 → Bool}
    {cond₂ : BitVec 64 → BitVec 64 → Bool}
    {rs : BitVec 5}
    {d₁ d₂ : InstructionData}
    (hCond : cond₁ (s.gpr rs) =
      cond₂ (s.gpr d₂.rs1) (s.gpr d₂.rs2))
    (hImm : sextW d₁.imm = d₂.imm)
    (hEven : (s.hart.pc + d₂.imm).getLsbD 0 = false) :
    SameEffect false s (execBranchZ cond₁ rs P d₁ s)
      (execBranch cond₂ P d₂ s) := by
  unfold execBranchZ execBranch
  rw [hCond, hImm]
  cases cond₂ (s.gpr d₂.rs1) (s.gpr d₂.rs2) with
  | true =>
      dsimp only
      rw [if_pos rfl, if_pos rfl, hEven,
        if_neg Bool.false_ne_true]
      apply SameEffect.done
      exact SameOutcome.of_eq rfl rfl rfl
        (Or.inl ⟨rfl, rfl⟩)
  | false =>
      rw [if_neg Bool.false_ne_true,
        if_neg Bool.false_ne_true]
      apply SameEffect.done
      exact SameOutcome.of_eq rfl rfl rfl
        (Or.inr ⟨rfl, rfl, rfl⟩)

/- A jump to an even target that keeps no link. -/
theorem sameEffect_jump
    {target : BitVec 64}
    (hEven : target.getLsbD 0 = false) :
    SameEffect false s (.ok (.jumped, s.setPc target))
      (execJump target 0 s) := by
  unfold execJump
  rw [hEven, if_neg Bool.false_ne_true]
  apply SameEffect.done
  constructor
  · intro r hr _
    change s.hart.GPR r =
      Function.update s.hart.GPR 0 _ r
    rw [Function.update_of_ne hr]
  · intro hLink
    cases hLink
  · rfl
  · rfl
  · rfl
  · rfl
  · rfl
  · rfl
  · exact Or.inl ⟨rfl, rfl, rfl⟩

theorem sameEffect_link
    {target : BitVec 64}
    (hEven : target.getLsbD 0 = false) :
    SameEffect true s
      (.ok (.jumped, (s.setPc target).setGpr 1
        (s.hart.pc + 2)))
      (execJump target 1 s) := by
  unfold execJump
  rw [hEven, if_neg Bool.false_ne_true]
  apply SameEffect.done
  constructor
  · intro r _ hr
    change Function.update s.hart.GPR 1 _ r =
      Function.update s.hart.GPR 1 _ r
    rw [Function.update_of_ne (hr rfl),
      Function.update_of_ne (hr rfl)]
  · intro _
    constructor
    · exact Function.update_self 1 _ s.hart.GPR
    · exact Function.update_self 1 _ s.hart.GPR
  · rfl
  · rfl
  · rfl
  · rfl
  · rfl
  · rfl
  · exact Or.inl ⟨rfl, rfl, rfl⟩

end RiscvEm

------------------------------------------------------------
-- Operands
------------------------------------------------------------

namespace RiscvEm

open Compressed Formats

variable (w : BitVec 32)
variable (imm : BitVec 64)

/- A field of the low half lies in the half-word. -/
theorem extract_half
    {start len : Nat}
    (hLe : start + len ≤ 16) :
    w.extractLsb' start len =
      (w.setWidth 16).extractLsb' start len := by
  apply BitVec.eq_of_getLsbD_eq
  intro j hj
  simp only [BitVec.getLsbD_extractLsb',
    BitVec.getLsbD_setWidth]
  simp [show start + j < 16 by omega]

/- The low half of an extended number extends to it. -/
theorem sextW_signExtend
    {n : Nat}
    (x : BitVec n)
    (hLe : n ≤ 32) :
    sextW (x.signExtend 64) = x.signExtend 64 := by
  unfold sextW
  have hHalf : (x.signExtend 64).setWidth 32 =
      x.signExtend 32 := by
    apply BitVec.eq_of_getLsbD_eq
    intro j hj
    simp only [BitVec.getLsbD_setWidth,
      BitVec.getLsbD_signExtend]
    simp [hj, show j < 64 by omega]
  rw [hHalf, signExtend_twice x hLe (by decide)]

theorem operandData_rd :
    (operandData w imm).rd = rd (w.setWidth 16) :=
  extract_half w (by decide)

theorem operandData_cRd :
    (operandData w imm).cRd = rs2Short (w.setWidth 16) := by
  change 8 + (w.extractLsb' 2 3).setWidth 5 = _
  rw [extract_half w (by decide)]
  rfl

theorem operandData_cRs1 :
    (operandData w imm).cRs1 = rs1Short (w.setWidth 16) := by
  change 8 + (w.extractLsb' 7 3).setWidth 5 = _
  rw [extract_half w (by decide)]
  rfl

theorem dCRs2_eq :
    dCRs2 w = rs2 (w.setWidth 16) :=
  extract_half w (by decide)

/- The short field is the low part of the full one. -/
theorem rs1Short_eq
    (h : BitVec 16) :
    rs1Short h = 8 + (rd h &&& 0x7) := by
  unfold rs1Short rd
  apply congrArg (8 + ·)
  apply BitVec.eq_of_getLsbD_eq
  intro j hj
  simp only [BitVec.getLsbD_setWidth,
    BitVec.getLsbD_extractLsb', BitVec.getLsbD_and]
  interval_cases j <;> simp

theorem operandData_cRdLow :
    (operandData w imm).cRdLow =
      rs1Short (w.setWidth 16) := by
  rw [rs1Short_eq, ← operandData_rd w imm]
  rfl

/- `C.SRLI` does not mask; its row has nothing to mask. -/
theorem rd_of_srli
    {h : BitVec 16}
    (hRow : h &&& 0xEC03 = 0x8001) :
    8 + rd h = rs1Short h := by
  rw [rs1Short_eq]
  apply congrArg (8 + ·)
  have hBit (j : Nat) : (h.getLsbD j &&
      BitVec.getLsbD (0xEC03 : BitVec 16) j) =
        BitVec.getLsbD (0x8001 : BitVec 16) j := by
    rw [← hRow, BitVec.getLsbD_and]
  have h10 := hBit 10
  have h11 := hBit 11
  simp at h10 h11
  unfold rd
  apply BitVec.eq_of_getLsbD_eq
  intro j hj
  simp only [BitVec.getLsbD_extractLsb', BitVec.getLsbD_and]
  interval_cases j <;> simp [h10, h11]

end RiscvEm

------------------------------------------------------------
-- Even Targets
------------------------------------------------------------

namespace RiscvEm

open Compressed
open WordArith (IsEven)

theorem even_immBranch
    (h : BitVec 16) :
    IsEven (immBranch h) := by
  unfold IsEven immBranch
  simp only [BitVec.getLsbD_setWidth, BitVec.getLsbD_append]
  simp

theorem even_immJump
    (h : BitVec 16) :
    IsEven (immJump h) := by
  unfold IsEven immJump
  simp only [BitVec.getLsbD_setWidth, BitVec.getLsbD_append]
  simp

/- A target whose lowest bit was cleared. -/
theorem even_cleared
    (a : BitVec 64) :
    IsEven (a &&& ~~~1) :=
  .and a (by decide)

end RiscvEm

------------------------------------------------------------
-- Correctness
------------------------------------------------------------

namespace RiscvEm

open Compressed Formats
open WordArith (IsEven)

variable {σ : Type}
variable {P : Platform σ}
variable {s : State σ}
variable {w e : BitVec 32}

/- Both words are decoded and executed with equal effect. -/
def SameInstruction
    (P : Platform σ)
    (link : Bool)
    (s : State σ)
    (w e : BitVec 32) : Prop :=
  ∃ i j,
    (decodeEntry decoder s.hart.pc w).selected = some i ∧
    (decodeEntry decoder s.hart.pc e).selected = some j ∧
    SameEffect link s
      (i.func.exec P (decodeEntry decoder s.hart.pc w).data s)
      (j.func.exec P (decodeEntry decoder s.hart.pc e).data s)

theorem sameInstruction_of
    {link : Bool}
    {op₁ op₂ : Op}
    {imm₁ imm₂ : BitVec 32 → BitVec 64}
    (h₁ : ∃ i, DecodesTo w op₁ imm₁ i)
    (h₂ : ∃ j, DecodesTo e op₂ imm₂ j)
    (hEffect : SameEffect link s
      (op₁.exec P (operandData w (imm₁ w)) s)
      (op₂.exec P (operandData e (imm₂ e)) s)) :
    SameInstruction P link s w e := by
  rcases h₁ with ⟨i, hBest₁, hFunc₁, hImm₁⟩
  rcases h₂ with ⟨j, hBest₂, hFunc₂, hImm₂⟩
  refine ⟨i, j, ?_, ?_, ?_⟩
  · rw [selected_eq_bestMatch, hBest₁]
  · rw [selected_eq_bestMatch, hBest₂]
  · rw [decodeEntry_eq_matchEntry, decodeEntry_eq_matchEntry,
      hBest₁, hBest₂, hFunc₁, hFunc₂]
    change SameEffect link s
      (op₁.exec P (operandData w (i.immDecodeFunc w)) s)
      (op₂.exec P (operandData e (j.immDecodeFunc e)) s)
    rw [hImm₁, hImm₂]
    exact hEffect

/- A load at a base register and an offset. -/
theorem sameInstruction_load
    {op₁ op₂ : Op}
    {imm₁ : BitVec 32 → BitVec 64}
    {size : MemorySize}
    {imm : BitVec 12}
    {rs1 rd : BitVec 5}
    {funct3 : BitVec 3}
    {opcode : BitVec 7}
    (base reg : InstructionData → BitVec 5)
    (put : BitVec 5 → State σ → BitVec 64 → State σ)
    (h₁ : ∃ i, DecodesTo w op₁ imm₁ i)
    (h₂ : ∃ j,
      DecodesTo (iType imm rs1 funct3 rd opcode) op₂ immI j)
    (hExec₁ : ∀ d, op₁.exec P d = execLoad P 2 size
      (fun s => s.gpr (base d) + d.imm) (put (reg d)))
    (hExec₂ : ∀ d, op₂.exec P d = execLoad P 4 size
      (fun s => s.gpr d.rs1 + d.imm) (put d.rd))
    (hPc : ∀ r s val, (put r s val).hart.pc = s.hart.pc)
    (hBase : base (operandData w (imm₁ w)) = rs1)
    (hReg : reg (operandData w (imm₁ w)) = rd)
    (hImm : imm₁ w = imm.signExtend 64) :
    SameInstruction P false s w
      (iType imm rs1 funct3 rd opcode) := by
  apply sameInstruction_of h₁ h₂
  rcases iType_fields rs1 rd funct3 opcode imm with
    ⟨hRd, hRs1, -⟩
  rw [hExec₁, hExec₂, hBase, hReg]
  apply sameEffect_load
  · change s.gpr rs1 + imm₁ w =
      s.gpr (dRs1 (iType imm rs1 funct3 rd opcode)) + immI _
    unfold dRs1
    rw [hRs1, hImm, immI_iType]
  · intro s val
    change put rd s val =
      put (dRd (iType imm rs1 funct3 rd opcode)) s val
    unfold dRd
    rw [hRd]
  · exact hPc _

/- A store at a base register and an offset. -/
theorem sameInstruction_store
    {op₁ op₂ : Op}
    {imm₁ : BitVec 32 → BitVec 64}
    {size : MemorySize}
    {imm : BitVec 12}
    {rs2 rs1 : BitVec 5}
    {funct3 : BitVec 3}
    {opcode : BitVec 7}
    (base reg : InstructionData → BitVec 5)
    (get : BitVec 5 → State σ → BitVec 64)
    (h₁ : ∃ i, DecodesTo w op₁ imm₁ i)
    (h₂ : ∃ j,
      DecodesTo (sType imm rs2 rs1 funct3 opcode) op₂ immS j)
    (hExec₁ : ∀ d, op₁.exec P d = execStore P 2 size
      (fun s => s.gpr (base d) + d.imm) (get (reg d)))
    (hExec₂ : ∀ d, op₂.exec P d = execStore P 4 size
      (fun s => s.gpr d.rs1 + d.imm) (get d.rs2))
    (hBase : base (operandData w (imm₁ w)) = rs1)
    (hReg : reg (operandData w (imm₁ w)) = rs2)
    (hImm : imm₁ w = imm.signExtend 64) :
    SameInstruction P false s w
      (sType imm rs2 rs1 funct3 opcode) := by
  apply sameInstruction_of h₁ h₂
  rcases sType_fields rs2 rs1 funct3 opcode imm with
    ⟨hRs1, hRs2, -⟩
  rw [hExec₁, hExec₂, hBase, hReg]
  apply sameEffect_store
  · change s.gpr rs1 + imm₁ w =
      s.gpr (dRs1 (sType imm rs2 rs1 funct3 opcode)) + immS _
    unfold dRs1
    rw [hRs1, hImm, immS_sType]
  · change get rs2 s =
      get (dRs2 (sType imm rs2 rs1 funct3 opcode)) s
    unfold dRs2
    rw [hRs2]

/- A register and an immediate into a register. -/
theorem sameInstruction_iType
    {op₁ op₂ : Op}
    {imm₁ imm₂ : BitVec 32 → BitVec 64}
    {imm : BitVec 12}
    {rs1 rd : BitVec 5}
    {funct3 : BitVec 3}
    {opcode : BitVec 7}
    (f : BitVec 64 → BitVec 64 → BitVec 64)
    (reg : InstructionData → BitVec 5)
    (val : InstructionData → State σ → BitVec 64)
    (h₁ : ∃ i, DecodesTo w op₁ imm₁ i)
    (h₂ : ∃ j,
      DecodesTo (iType imm rs1 funct3 rd opcode) op₂ imm₂ j)
    (hExec₁ : ∀ d, op₁.exec P d = execRd 2 (reg d) (val d))
    (hExec₂ : op₂.exec = (execIType f : ExecFun σ))
    (hReg : reg (operandData w (imm₁ w)) = rd)
    {amount : BitVec 64}
    (hImm : imm₂ (iType imm rs1 funct3 rd opcode) = amount)
    (hVal : val (operandData w (imm₁ w)) s =
      f (s.gpr rs1) amount) :
    SameInstruction P false s w
      (iType imm rs1 funct3 rd opcode) := by
  apply sameInstruction_of h₁ h₂
  rcases iType_fields rs1 rd funct3 opcode imm with
    ⟨hRd, hRs1, -⟩
  rw [hExec₁, hExec₂]
  apply sameEffect_rd
  · exact hReg.trans hRd.symm
  · change _ =
      f (s.gpr (dRs1 (iType imm rs1 funct3 rd opcode)))
        (imm₂ (iType imm rs1 funct3 rd opcode))
    unfold dRs1
    rw [hRs1, hImm]
    exact hVal

/- Two registers into a register. -/
theorem sameInstruction_rType
    {op₁ op₂ : Op}
    {imm₁ imm₂ : BitVec 32 → BitVec 64}
    {funct7 : BitVec 7}
    {rs2 rs1 rd : BitVec 5}
    {funct3 : BitVec 3}
    {opcode : BitVec 7}
    (f : BitVec 64 → BitVec 64 → BitVec 64)
    (reg : InstructionData → BitVec 5)
    (val : InstructionData → State σ → BitVec 64)
    (h₁ : ∃ i, DecodesTo w op₁ imm₁ i)
    (h₂ : ∃ j,
      DecodesTo (rType funct7 rs2 rs1 funct3 rd opcode) op₂
        imm₂ j)
    (hExec₁ : ∀ d, op₁.exec P d = execRd 2 (reg d) (val d))
    (hExec₂ : op₂.exec = (execRType f : ExecFun σ))
    (hReg : reg (operandData w (imm₁ w)) = rd)
    (hVal : val (operandData w (imm₁ w)) s =
      f (s.gpr rs1) (s.gpr rs2)) :
    SameInstruction P false s w
      (rType funct7 rs2 rs1 funct3 rd opcode) := by
  apply sameInstruction_of h₁ h₂
  rcases rType_fields funct7 rs2 rs1 rd funct3 opcode with
    ⟨hRd, hRs1, hRs2⟩
  rw [hExec₁, hExec₂]
  apply sameEffect_rd
  · exact hReg.trans hRd.symm
  · change _ =
      f (s.gpr (dRs1 (rType funct7 rs2 rs1 funct3 rd opcode)))
        (s.gpr (dRs2 (rType funct7 rs2 rs1 funct3 rd opcode)))
    unfold dRs1 dRs2
    rw [hRs1, hRs2]
    exact hVal

/- The arithmetic group of quadrant 1. -/
theorem sameInstruction_arith
    {op₁ op₂ : Op}
    {imm₁ imm₂ : BitVec 32 → BitVec 64}
    {funct7 : BitVec 7}
    {funct3 : BitVec 3}
    {opcode : BitVec 7}
    (f : BitVec 64 → BitVec 64 → BitVec 64)
    (h₁ : ∃ i, DecodesTo w op₁ imm₁ i)
    (h₂ : ∃ j,
      DecodesTo (rType funct7 (rs2Short (w.setWidth 16))
        (rs1Short (w.setWidth 16)) funct3
        (rs1Short (w.setWidth 16)) opcode) op₂ imm₂ j)
    (hExec₁ : op₁.exec = (execCArith f : ExecFun σ))
    (hExec₂ : op₂.exec = (execRType f : ExecFun σ)) :
    SameInstruction P false s w
      (rType funct7 (rs2Short (w.setWidth 16))
        (rs1Short (w.setWidth 16)) funct3
        (rs1Short (w.setWidth 16)) opcode) := by
  refine sameInstruction_rType f (·.cRdLow)
    (fun d s => f (s.gpr d.cRdLow) (s.gpr d.cRd)) h₁ h₂ ?_
    hExec₂ (operandData_cRdLow w _) ?_
  · intro d
    rw [hExec₁]
    rfl
  · rw [operandData_cRdLow, operandData_cRd]

/- A branch that compares with `x0`. -/
theorem sameInstruction_branch
    {op₁ op₂ : Op}
    {funct3 : BitVec 3}
    {opcode : BitVec 7}
    (cond₁ : BitVec 64 → Bool)
    (cond₂ : BitVec 64 → BitVec 64 → Bool)
    (h₁ : ∃ i, DecodesTo w op₁ dCBImm i)
    (h₂ : ∃ j,
      DecodesTo (bType ((immBranch (w.setWidth 16)).signExtend
        13) 0 (rs1Short (w.setWidth 16)) funct3 opcode) op₂
        immB j)
    (hExec₁ : ∀ d, op₁.exec P d =
      execBranchZ cond₁ d.cRdLow P d)
    (hExec₂ : op₂.exec = (execBranch cond₂ : ExecFun σ))
    (hCond : ∀ a, cond₁ a = cond₂ a 0)
    (hZero : s.gpr 0 = 0)
    (hEven : s.hart.pc.getLsbD 0 = false) :
    SameInstruction P false s w
      (bType ((immBranch (w.setWidth 16)).signExtend 13) 0
        (rs1Short (w.setWidth 16)) funct3 opcode) := by
  apply sameInstruction_of h₁ h₂
  have hOffset := IsEven.signExtend (by decide)
    (even_immBranch (w.setWidth 16)) 13
  have hImm : immB (bType ((immBranch
      (w.setWidth 16)).signExtend 13) 0
        (rs1Short (w.setWidth 16)) funct3 opcode) =
      dCBImm w := by
    rw [immB_bType _ hOffset, dCBImm_eq,
      signExtend_twice _ (by decide) (by decide)]
  rcases bType_fields 0 (rs1Short (w.setWidth 16)) funct3
    opcode ((immBranch (w.setWidth 16)).signExtend 13) with
    ⟨hRs1, hRs2, -⟩
  rw [hExec₁, hExec₂, operandData_cRdLow, hImm]
  apply sameEffect_branch
  · change _ = cond₂ (s.gpr (dRs1 _)) (s.gpr (dRs2 _))
    unfold dRs1 dRs2
    rw [hRs1, hRs2, hZero, hCond]
  · change sextW (dCBImm w) = dCBImm w
    rw [dCBImm_eq, sextW_signExtend _ (by decide)]
  · refine IsEven.add hEven ?_
    change IsEven (dCBImm w)
    rw [dCBImm_eq]
    exact .signExtend (by decide) (even_immBranch _) 64

/- The loads and stores of all three quadrants. -/
theorem memory_eq_expansion
    (c : CInstr)
    (hCovers : c.Covers (w.setWidth 16))
    (hMemory : c ∈ [.FLD, .LW, .LD, .FLDSP, .LWSP, .LDSP,
      .FSD, .SW, .SD, .FSDSP, .SWSP, .SDSP]) :
    SameInstruction P false s w
      (c.expansion (w.setWidth 16)) := by
  cases c with
  | FLD =>
      exact sameInstruction_load (·.cRs1) (·.cRd)
        (fun r s val => s.setFpr r val) (CInstr.decodes _ hCovers)
        (decodesTo_base .FLD (by decide) (iType_row _ _ _ _ _))
        (fun _ => rfl) (fun _ => rfl) (fun _ _ _ => rfl)
        (operandData_cRs1 w _) (operandData_cRd w _)
        (dCUimmCl1_eq w)
  | LW =>
      exact sameInstruction_load (·.cRs1) (·.cRd)
        (fun r s val => s.setGpr r (sextBytes .Int val))
        (CInstr.decodes _ hCovers)
        (decodesTo_base .LW (by decide) (iType_row _ _ _ _ _))
        (fun _ => rfl) (fun _ => rfl) (fun _ _ _ => rfl)
        (operandData_cRs1 w _) (operandData_cRd w _)
        (dCUimmCl_eq w)
  | LD =>
      exact sameInstruction_load (·.cRs1) (·.cRd)
        (fun r s val => s.setGpr r val) (CInstr.decodes _ hCovers)
        (decodesTo_base .LD (by decide) (iType_row _ _ _ _ _))
        (fun _ => rfl) (fun _ => rfl) (fun _ _ _ => rfl)
        (operandData_cRs1 w _) (operandData_cRd w _)
        (dCUimmCl1_eq w)
  | FLDSP =>
      exact sameInstruction_load (fun _ => 2) (·.rd)
        (fun r s val => s.setFpr r val) (CInstr.decodes _ hCovers)
        (decodesTo_base .FLD (by decide) (iType_row _ _ _ _ _))
        (fun _ => rfl) (fun _ => rfl) (fun _ _ _ => rfl)
        rfl (operandData_rd w _) (dCUimmLdsp_eq w)
  | LWSP =>
      exact sameInstruction_load (fun _ => 2) (·.rd)
        (fun r s val => s.setGpr r (sextBytes .Int val))
        (CInstr.decodes _ hCovers)
        (decodesTo_base .LW (by decide) (iType_row _ _ _ _ _))
        (fun _ => rfl) (fun _ => rfl) (fun _ _ _ => rfl)
        rfl (operandData_rd w _) (dCUimmLwsp_eq w)
  | LDSP =>
      exact sameInstruction_load (fun _ => 2) (·.rd)
        (fun r s val => s.setGpr r val) (CInstr.decodes _ hCovers)
        (decodesTo_base .LD (by decide) (iType_row _ _ _ _ _))
        (fun _ => rfl) (fun _ => rfl) (fun _ _ _ => rfl)
        rfl (operandData_rd w _) (dCUimmLdsp_eq w)
  | FSD =>
      exact sameInstruction_store (·.cRs1) (·.cRd)
        (fun r s => s.fpr r) (CInstr.decodes _ hCovers)
        (decodesTo_base .FSD (by decide) (sType_row _ _ _ _ _))
        (fun _ => rfl) (fun _ => rfl)
        (operandData_cRs1 w _) (operandData_cRd w _)
        (dCUimmCl1_eq w)
  | SW =>
      exact sameInstruction_store (·.cRs1) (·.cRd)
        (fun r s => s.gpr r) (CInstr.decodes _ hCovers)
        (decodesTo_base .SW (by decide) (sType_row _ _ _ _ _))
        (fun _ => rfl) (fun _ => rfl)
        (operandData_cRs1 w _) (operandData_cRd w _)
        (dCUimmCl_eq w)
  | SD =>
      exact sameInstruction_store (·.cRs1) (·.cRd)
        (fun r s => s.gpr r) (CInstr.decodes _ hCovers)
        (decodesTo_base .SD (by decide) (sType_row _ _ _ _ _))
        (fun _ => rfl) (fun _ => rfl)
        (operandData_cRs1 w _) (operandData_cRd w _)
        (dCUimmCl1_eq w)
  | FSDSP =>
      exact sameInstruction_store (fun _ => 2) (dCRs2 ·.inst)
        (fun r s => s.fpr r) (CInstr.decodes _ hCovers)
        (decodesTo_base .FSD (by decide) (sType_row _ _ _ _ _))
        (fun _ => rfl) (fun _ => rfl)
        rfl (dCRs2_eq w) (dCUimmSdsp_eq w)
  | SWSP =>
      exact sameInstruction_store (fun _ => 2) (dCRs2 ·.inst)
        (fun r s => s.gpr r) (CInstr.decodes _ hCovers)
        (decodesTo_base .SW (by decide) (sType_row _ _ _ _ _))
        (fun _ => rfl) (fun _ => rfl)
        rfl (dCRs2_eq w) (dCUimmSwsp_eq w)
  | SDSP =>
      exact sameInstruction_store (fun _ => 2) (dCRs2 ·.inst)
        (fun r s => s.gpr r) (CInstr.decodes _ hCovers)
        (decodesTo_base .SD (by decide) (sType_row _ _ _ _ _))
        (fun _ => rfl) (fun _ => rfl)
        rfl (dCRs2_eq w) (dCUimmSdsp_eq w)
  | _ => exact absurd hMemory (by decide)

/- The signed immediate of six bits in an expansion. -/
theorem immI_imm6
    (rs1 rd : BitVec 5)
    (funct3 : BitVec 3)
    (opcode : BitVec 7) :
    immI (iType ((imm6 (w.setWidth 16)).signExtend 12) rs1
      funct3 rd opcode) = dCNzimm w := by
  rw [immI_iType, signExtend_twice _ (by decide) (by decide),
    dCNzimm_eq]

theorem shamt64_imm6
    (funct6 : BitVec 6)
    (rs1 rd : BitVec 5)
    (funct3 : BitVec 3)
    (opcode : BitVec 7) :
    shamt64 (iType (funct6 ++ imm6 (w.setWidth 16)) rs1 funct3
      rd opcode) = dCUimmArith w := by
  rw [shamt64_iType, dCUimmArith_eq]

/- `C.ANDI` extends the sign of its amount itself. -/
theorem sextW_andi
    (w : BitVec 32) :
    sextW (sext ((dCUimmArith w).setWidth 32) 6) =
      dCNzimm w := by
  have hHalf : ((dCUimmArith w).setWidth 32).setWidth 6 =
      imm6 (w.setWidth 16) := by
    rw [dCUimmArith_eq]
    apply BitVec.eq_of_getLsbD_eq
    intro j hj
    simp only [BitVec.getLsbD_setWidth]
    simp [hj, show j < 32 by omega, show j < 64 by omega]
  rw [sext_eq _ (by decide) (by decide), hHalf,
    sextW_signExtend _ (by decide), dCNzimm_eq]

theorem registers_eq_expansion
    (c : CInstr)
    (hCovers : c.Covers (w.setWidth 16))
    (hZero : s.gpr 0 = 0)
    (hRegisters : c ∈ [.ADDI4SPN, .ADDI, .ADDIW, .LI, .SRLI,
      .SRAI, .ANDI, .SUB, .XOR, .OR, .AND, .SUBW, .ADDW,
      .SLLI, .MV, .ADD]) :
    SameInstruction P false s w
      (c.expansion (w.setWidth 16)) := by
  cases c with
  | ADDI4SPN =>
      refine sameInstruction_iType (· + ·) (·.cRd)
        (fun d s => s.gpr 2 + d.imm) (CInstr.decodes _ hCovers)
        (decodesTo_base .ADDI (by decide) (iType_row _ _ _ _ _))
        (fun _ => rfl) rfl (operandData_cRd w _)
        ((immI_iType _ _ _ _ _).trans (dCUimm_eq w).symm) ?_
      rfl
  | ADDI =>
      refine sameInstruction_iType (· + ·) (·.rd)
        (fun d s => s.gpr d.rd + d.imm) (CInstr.decodes _ hCovers)
        (decodesTo_base .ADDI (by decide) (iType_row _ _ _ _ _))
        (fun _ => rfl) rfl (operandData_rd w _)
        (immI_imm6 _ _ _ _) ?_
      rw [operandData_rd]
      rfl
  | ADDIW =>
      refine sameInstruction_iType
        (fun a imm => sextW (a + imm)) (·.rd)
        (fun d s => sextW (s.gpr d.rd + d.imm))
        (CInstr.decodes _ hCovers)
        (decodesTo_base .ADDIW (by decide) (iType_row _ _ _ _ _))
        (fun _ => rfl) rfl (operandData_rd w _)
        (immI_imm6 _ _ _ _) ?_
      rw [operandData_rd]
      rfl
  | LI =>
      refine sameInstruction_iType (· + ·) (·.rd)
        (fun d _ => d.imm) (CInstr.decodes _ hCovers)
        (decodesTo_base .ADDI (by decide) (iType_row _ _ _ _ _))
        (fun _ => rfl) rfl (operandData_rd w _)
        (immI_imm6 _ _ _ _) ?_
      rw [show s.gpr 0 = 0#64 from hZero, BitVec.zero_add]
      rfl
  | SRLI =>
      have hReg : 8 + (operandData w (dCUimmArith w)).rd =
          rs1Short (w.setWidth 16) := by
        rw [operandData_rd, rd_of_srli hCovers.row]
      refine sameInstruction_iType shr (8 + ·.rd)
        (fun d s => shr (s.gpr (8 + d.rd)) d.imm)
        (CInstr.decodes _ hCovers)
        (decodesTo_base .SRLI (by decide)
          (iType_shift_row _ _ _ _ _ _))
        (fun _ => rfl) rfl hReg (shamt64_imm6 _ _ _ _ _) ?_
      change shr (s.gpr (8 + (operandData w
        (dCUimmArith w)).rd)) (dCUimmArith w) = _
      rw [hReg]
  | SRAI =>
      refine sameInstruction_iType sar (·.cRdLow)
        (fun d s => sar (s.gpr d.cRdLow) d.imm)
        (CInstr.decodes _ hCovers)
        (decodesTo_base .SRAI (by decide)
          (iType_shift_row _ _ _ _ _ _))
        (fun _ => rfl) rfl (operandData_cRdLow w _)
        (shamt64_imm6 _ _ _ _ _) ?_
      rw [operandData_cRdLow]
      rfl
  | ANDI =>
      refine sameInstruction_iType (· &&& ·) (·.cRdLow)
        (fun d s => s.gpr d.cRdLow &&&
          sextW (sext (d.imm.setWidth 32) 6))
        (CInstr.decodes _ hCovers)
        (decodesTo_base .ANDI (by decide) (iType_row _ _ _ _ _))
        (fun _ => rfl) rfl (operandData_cRdLow w _)
        ((immI_imm6 _ _ _ _).trans (sextW_andi w).symm) ?_
      rw [operandData_cRdLow]
      rfl
  | SUB =>
      exact sameInstruction_arith (· - ·)
        (CInstr.decodes _ hCovers)
        (decodesTo_base .SUB (by decide) (rType_row _ _ _ _ _ _))
        rfl rfl
  | XOR =>
      exact sameInstruction_arith (· ^^^ ·)
        (CInstr.decodes _ hCovers)
        (decodesTo_base .XOR (by decide) (rType_row _ _ _ _ _ _))
        rfl rfl
  | OR =>
      exact sameInstruction_arith (· ||| ·)
        (CInstr.decodes _ hCovers)
        (decodesTo_base .OR (by decide) (rType_row _ _ _ _ _ _))
        rfl rfl
  | AND =>
      exact sameInstruction_arith (· &&& ·)
        (CInstr.decodes _ hCovers)
        (decodesTo_base .AND (by decide) (rType_row _ _ _ _ _ _))
        rfl rfl
  | SUBW =>
      exact sameInstruction_arith (fun a b => sextW (a - b))
        (CInstr.decodes _ hCovers)
        (decodesTo_base .SUBW (by decide) (rType_row _ _ _ _ _ _))
        rfl rfl
  | ADDW =>
      exact sameInstruction_arith (fun a b => sextW (a + b))
        (CInstr.decodes _ hCovers)
        (decodesTo_base .ADDW (by decide) (rType_row _ _ _ _ _ _))
        rfl rfl
  | SLLI =>
      refine sameInstruction_iType shl (·.rd)
        (fun d s => shl (s.gpr d.rd) d.imm)
        (CInstr.decodes _ hCovers)
        (decodesTo_base .SLLI (by decide)
          (iType_shift_row _ _ _ _ _ _))
        (fun _ => rfl) rfl (operandData_rd w _)
        (shamt64_imm6 _ _ _ _ _) ?_
      rw [operandData_rd]
      rfl
  | MV =>
      refine sameInstruction_rType (· + ·) (·.rd)
        (fun d s => s.gpr (dCRs2 d.inst))
        (CInstr.decodes _ hCovers)
        (decodesTo_base .ADD (by decide) (rType_row _ _ _ _ _ _))
        (fun _ => rfl) rfl (operandData_rd w _) ?_
      rw [show s.gpr 0 = 0#64 from hZero, BitVec.zero_add,
        ← dCRs2_eq]
      rfl
  | ADD =>
      refine sameInstruction_rType (· + ·) (·.rd)
        (fun d s => s.gpr d.rd + s.gpr (dCRs2 d.inst))
        (CInstr.decodes _ hCovers)
        (decodesTo_base .ADD (by decide) (rType_row _ _ _ _ _ _))
        (fun _ => rfl) rfl (operandData_rd w _) ?_
      rw [← dCRs2_eq, operandData_rd]
      rfl
  | _ => exact absurd hRegisters (by decide)

/- `C.NOP` against `addi x0, x0, 0`. -/
theorem nop_eq_expansion
    (hCovers : CInstr.NOP.Covers (w.setWidth 16)) :
    SameInstruction P false s w
      (CInstr.NOP.expansion (w.setWidth 16)) := by
  have hBase : ∃ j,
      DecodesTo (iType 0 0 0 0 0x13) .ADDI immI j :=
    decodesTo_base .ADDI (by decide) (iType_row _ _ _ _ _)
  refine sameInstruction_of (CInstr.decodes _ hCovers) hBase ?_
  rcases iType_fields 0 0 0 0x13 0 with ⟨hRd, -, -⟩
  apply SameEffect.done
  constructor
  · intro r hr _
    change s.hart.GPR r = Function.update s.hart.GPR
      (dRd (iType 0 0 0 0 0x13)) _ r
    unfold dRd
    rw [hRd, Function.update_of_ne hr]
  · intro hLink
    cases hLink
  · rfl
  · rfl
  · rfl
  · rfl
  · rfl
  · rfl
  · exact Or.inr ⟨rfl, rfl, rfl, rfl⟩

/- The register of `C.ADDI16SP` is fixed by its row. -/
theorem rd_of_addi16sp
    {h : BitVec 16}
    (hRow : h &&& 0xEF83 = 0x6101) :
    rd h = 2 := by
  have hBit (j : Nat) : (h.getLsbD j &&
      BitVec.getLsbD (0xEF83 : BitVec 16) j) =
        BitVec.getLsbD (0x6101 : BitVec 16) j := by
    rw [← hRow, BitVec.getLsbD_and]
  have h7 := hBit 7
  have h8 := hBit 8
  have h9 := hBit 9
  have h10 := hBit 10
  have h11 := hBit 11
  simp at h7 h8 h9 h10 h11
  unfold rd
  apply BitVec.eq_of_getLsbD_eq
  intro j hj
  simp only [BitVec.getLsbD_extractLsb']
  interval_cases j <;> simp [h7, h8, h9, h10, h11]

/- The offset of the stack pointer is extended twice. -/
theorem sext_nzimm9
    (w : BitVec 32) :
    sext ((dCNzimm9 w).setWidth 32) 10 =
      (immSp (w.setWidth 16)).signExtend 64 := by
  rw [sext_eq _ (by decide) (by decide), dCNzimm9_eq]
  apply congrArg (BitVec.signExtend 64)
  apply BitVec.eq_of_getLsbD_eq
  intro j hj
  simp only [BitVec.getLsbD_setWidth,
    BitVec.getLsbD_signExtend]
  simp [hj, show j < 32 by omega, show j < 64 by omega]

theorem addi16sp_eq_expansion
    (hCovers : CInstr.ADDI16SP.Covers (w.setWidth 16)) :
    SameInstruction P false s w
      (CInstr.ADDI16SP.expansion (w.setWidth 16)) := by
  have hSp := rd_of_addi16sp hCovers.row
  dsimp only [CInstr.expansion]
  have hBase : ∃ j,
      DecodesTo (iType ((immSp (w.setWidth 16)).signExtend 12)
        2 0 2 0x13) .ADDI immI j :=
    decodesTo_base .ADDI (by decide) (iType_row _ _ _ _ _)
  refine sameInstruction_of (CInstr.decodes _ hCovers) hBase ?_
  rcases iType_fields 2 2 0 0x13 ((immSp
    (w.setWidth 16)).signExtend 12) with ⟨hRd, hRs1, -⟩
  have hExec : execC_LUI_ADDI16SP P
      (operandData w (dCNzimm w)) s =
      execRd 2 2 (fun s => s.gpr 2 +
        sext ((dCNzimm9 w).setWidth 32) 10) s := by
    unfold execC_LUI_ADDI16SP
    rw [operandData_rd, if_pos hSp]
    rfl
  change SameEffect false s (execC_LUI_ADDI16SP P
    (operandData w (dCNzimm w)) s) _
  rw [hExec]
  apply sameEffect_rd
  · exact hRd.symm
  · change _ = s.gpr (dRs1 _) + immI _
    unfold dRs1
    rw [hRs1, immI_iType, sext_nzimm9,
      signExtend_twice _ (by decide) (by decide)]

/- The immediate of `C.LUI` is shifted when executed. -/
theorem shifted_imm6
    (x : BitVec 6) :
    (x.signExtend 64) <<< 12 =
      (x.signExtend 20 ++ 0#12).signExtend 64 := by
  apply BitVec.eq_of_getLsbD_eq
  intro j hj
  simp only [BitVec.getLsbD_shiftLeft,
    BitVec.getLsbD_signExtend, BitVec.getLsbD_append,
    BitVec.msb_append, BitVec.msb_signExtend]
  interval_cases j <;> simp

theorem lui_eq_expansion
    (hCovers : CInstr.LUI.Covers (w.setWidth 16)) :
    SameInstruction P false s w
      (CInstr.LUI.expansion (w.setWidth 16)) := by
  dsimp only [CInstr.expansion]
  have hBase : ∃ j,
      DecodesTo (uType ((imm6 (w.setWidth 16)).signExtend 20)
        (rd (w.setWidth 16)) 0x37) .LUI immU j :=
    decodesTo_base .LUI (by decide) (uType_row _ _ _)
  refine sameInstruction_of (CInstr.decodes _ hCovers) hBase ?_
  rcases uType_fields (rd (w.setWidth 16)) 0x37 ((imm6
    (w.setWidth 16)).signExtend 20) with ⟨hRd, -⟩
  have hExec : execC_LUI_ADDI16SP P
      (operandData w (dCNzimm w)) s =
      execRd 2 (rd (w.setWidth 16))
        (fun _ => dCNzimm w <<< 12) s := by
    unfold execC_LUI_ADDI16SP
    rw [operandData_rd, if_neg (hCovers.notSp rfl)]
    rfl
  change SameEffect false s (execC_LUI_ADDI16SP P
    (operandData w (dCNzimm w)) s) _
  rw [hExec]
  apply sameEffect_rd
  · exact hRd.symm
  · change _ = immU _
    rw [immU_uType, dCNzimm_eq, shifted_imm6]

/- The jumps and branches, and the breakpoint. -/
theorem jump_eq_expansion
    (hCovers : CInstr.J.Covers (w.setWidth 16))
    (hEven : s.hart.pc.getLsbD 0 = false) :
    SameInstruction P false s w
      (CInstr.J.expansion (w.setWidth 16)) := by
  dsimp only [CInstr.expansion]
  have hBase : ∃ j,
      DecodesTo (jType ((immJump (w.setWidth 16)).signExtend
        21) 0 0x6F) .JAL immJ j :=
    decodesTo_base .JAL (by decide) (jType_row _ _ _)
  refine sameInstruction_of (CInstr.decodes _ hCovers) hBase ?_
  have hOffset := IsEven.signExtend (by decide)
    (even_immJump (w.setWidth 16)) 21
  rcases jType_fields 0 0x6F ((immJump
    (w.setWidth 16)).signExtend 21) with ⟨hRd, -⟩
  have hExec : execJAL P (operandData
      (jType ((immJump (w.setWidth 16)).signExtend 21) 0 0x6F)
      (immJ (jType ((immJump (w.setWidth 16)).signExtend 21) 0
        0x6F))) s =
      execJump (s.hart.pc + dCJImm w) 0 s := by
    change execJump (s.hart.pc + immJ _) (dRd _) s = _
    unfold dRd
    rw [hRd, immJ_jType _ hOffset, dCJImm_eq,
      signExtend_twice _ (by decide) (by decide)]
  have hExec' : execC_J P (operandData w (dCJImm w)) s =
      .ok (.jumped, s.setPc (s.hart.pc + dCJImm w)) := by
    change Except.ok (ExecReturn.jumped,
      s.setPc (s.hart.pc + sextW (dCJImm w))) = _
    rw [dCJImm_eq, sextW_signExtend _ (by decide)]
  change SameEffect false s
    (execC_J P (operandData w (dCJImm w)) s) (execJAL P _ s)
  rw [hExec, hExec']
  apply sameEffect_jump
  refine IsEven.add hEven ?_
  rw [dCJImm_eq]
  exact .signExtend (by decide) (even_immJump _) 64

/- The target of an indirect jump, by its expansion. -/
theorem execJALR_iType
    (rs1 rd : BitVec 5) :
    execJALR P (operandData (iType 0 rs1 0 rd 0x67)
        (immI (iType 0 rs1 0 rd 0x67))) s =
      execJump (s.gpr rs1 &&& ~~~1) rd s := by
  rcases iType_fields rs1 rd 0 0x67 0 with ⟨hRd, hRs1, -⟩
  change execJump ((s.gpr (dRs1 _) + immI _) &&& ~~~1) (dRd _)
    s = _
  unfold dRs1 dRd
  rw [hRs1, hRd, immI_iType,
    show (0 : BitVec 12).signExtend 64 = 0#64 from rfl,
    BitVec.add_zero]

theorem jr_eq_expansion
    (hCovers : CInstr.JR.Covers (w.setWidth 16)) :
    SameInstruction P false s w
      (CInstr.JR.expansion (w.setWidth 16)) := by
  dsimp only [CInstr.expansion]
  have hBase : ∃ j,
      DecodesTo (iType 0 (rd (w.setWidth 16)) 0 0 0x67) .JALR
        immI j :=
    decodesTo_base .JALR (by decide) (iType_row _ _ _ _ _)
  refine sameInstruction_of (CInstr.decodes _ hCovers) hBase ?_
  change SameEffect false s
    (execC_JR P (operandData w (immI w)) s) (execJALR P _ s)
  rw [execJALR_iType]
  unfold execC_JR
  rw [operandData_rd]
  exact sameEffect_jump (even_cleared _)

theorem jalr_eq_expansion
    (hCovers : CInstr.JALR.Covers (w.setWidth 16)) :
    SameInstruction P true s w
      (CInstr.JALR.expansion (w.setWidth 16)) := by
  dsimp only [CInstr.expansion]
  have hBase : ∃ j,
      DecodesTo (iType 0 (rd (w.setWidth 16)) 0 1 0x67) .JALR
        immI j :=
    decodesTo_base .JALR (by decide) (iType_row _ _ _ _ _)
  refine sameInstruction_of (CInstr.decodes _ hCovers) hBase ?_
  change SameEffect true s
    (execC_JALR P (operandData w (immI w)) s) (execJALR P _ s)
  rw [execJALR_iType]
  unfold execC_JALR
  rw [operandData_rd]
  exact sameEffect_link (even_cleared _)

theorem ebreak_eq_expansion
    (hCovers : CInstr.EBREAK.Covers (w.setWidth 16)) :
    SameInstruction P false s w
      (CInstr.EBREAK.expansion (w.setWidth 16)) := by
  have hBase : ∃ j,
      DecodesTo 0x00100073 .EBREAK immI j :=
    decodesTo_base .EBREAK (by decide) (by decide)
  refine sameInstruction_of (CInstr.decodes _ hCovers) hBase ?_
  refine SameEffect.done (SameOutcome.of_eq ?_ ?_ ?_ ?_)
  · rfl
  · rfl
  · rfl
  · exact Or.inl ⟨rfl, rfl⟩

/- The link register differs for one instruction only. -/
def CInstr.links
    (c : CInstr) : Bool :=
  c == .JALR

/-
  A compressed instruction is decoded and has the effect of
  the base instruction to which it expands, whatever the upper
  half of the fetched word is.
-/
theorem compressed_eq_expansion
    (P : Platform σ)
    (s : State σ)
    (c : CInstr)
    (w : BitVec 32)
    (hCovers : c.Covers (w.setWidth 16))
    (hEven : s.hart.pc.getLsbD 0 = false)
    (hZero : s.gpr 0 = 0) :
    SameInstruction P c.links s w
      (c.expansion (w.setWidth 16)) := by
  cases c with
  | FLD | LW | LD | FLDSP | LWSP | LDSP | FSD | SW | SD
  | FSDSP | SWSP | SDSP =>
      exact memory_eq_expansion _ hCovers (by decide)
  | ADDI4SPN | ADDI | ADDIW | LI | SRLI | SRAI | ANDI | SUB
  | XOR | OR | AND | SUBW | ADDW | SLLI | MV | ADD =>
      exact registers_eq_expansion _ hCovers hZero (by decide)
  | NOP => exact nop_eq_expansion hCovers
  | ADDI16SP => exact addi16sp_eq_expansion hCovers
  | LUI => exact lui_eq_expansion hCovers
  | J => exact jump_eq_expansion hCovers hEven
  | BEQZ =>
      have hBase : ∃ j, DecodesTo (bType ((immBranch
          (w.setWidth 16)).signExtend 13) 0
            (rs1Short (w.setWidth 16)) 0 0x63) .BEQ immB j :=
        decodesTo_base .BEQ (by decide) (bType_row _ _ _ _ _)
      have hC : ∃ i, DecodesTo w .C_BEQZ dCBImm i :=
        CInstr.decodes _ hCovers
      exact sameInstruction_branch (· == 0) (· == ·) hC
        hBase (fun _ => rfl) rfl (fun _ => rfl) hZero hEven
  | BNEZ =>
      have hBase : ∃ j, DecodesTo (bType ((immBranch
          (w.setWidth 16)).signExtend 13) 0
            (rs1Short (w.setWidth 16)) 1 0x63) .BNE immB j :=
        decodesTo_base .BNE (by decide) (bType_row _ _ _ _ _)
      have hC : ∃ i, DecodesTo w .C_BNEZ dCBImm i :=
        CInstr.decodes _ hCovers
      exact sameInstruction_branch (· != 0) (· != ·) hC
        hBase (fun _ => rfl) rfl (fun _ => rfl) hZero hEven
  | JR => exact jr_eq_expansion hCovers
  | JALR => exact jalr_eq_expansion hCovers
  | EBREAK => exact ebreak_eq_expansion hCovers

/- `c.addi a0, 1` at the first address of RAM. -/
theorem c_addi_eq_expansion :
    SameInstruction Platform.bare false
      ((State.boot []).setPc 0x80000000) 0x00000505
      (CInstr.ADDI.expansion 0x0505) :=
  compressed_eq_expansion Platform.bare
    ((State.boot []).setPc 0x80000000) .ADDI 0x00000505
    ⟨by decide, fun _ => by decide, fun h => by cases h⟩
    (by decide) (by decide)

end RiscvEm
