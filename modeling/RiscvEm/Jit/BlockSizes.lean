import RiscvEm.Jit.Context
import RiscvEm.Lib.WordArith

/-
  The sizes of compiled blocks: a template emits code and
  leaves the size of its block alone, so that a block covers
  an even number of bytes of the guest.

  Key definitions include:
    * `OnlyCode`
    * `JitContext.SizesEven`

  Key theorems include `JitContext.SizesEven.handle`.
-/

------------------------------------------------------------
-- What Templates Emit
------------------------------------------------------------

namespace RiscvEm

/- The blocks differ at most in their code and its labels. -/
def OnlyCode
    (blk blk' : JitBlock) : Prop :=
  blk' = { blk with
    bytes := blk'.bytes, jmpLabels := blk'.jmpLabels }

namespace OnlyCode

variable {blk blk' blk'' : JitBlock}

/- Emitting nothing changes code only. -/
theorem refl
    (blk : JitBlock) :
    OnlyCode blk blk :=
  rfl

/- Code emitted twice is code emitted. -/
theorem trans
    (h : OnlyCode blk blk')
    (h' : OnlyCode blk' blk'') :
    OnlyCode blk blk'' := by
  unfold OnlyCode at *
  rw [h', h]

/- Code does not change the guest size of a block. -/
theorem size
    (h : OnlyCode blk blk') :
    blk'.size = blk.size := by
  unfold OnlyCode at h
  rw [h]

/- More code may follow. -/
theorem emit
    (h : OnlyCode blk blk')
    (code : Code) :
    OnlyCode blk (blk'.emit code) :=
  h.trans rfl

/- A label is part of the code. -/
theorem pushLabel
    (h : OnlyCode blk blk')
    (label : Label)
    (size : Nat) :
    OnlyCode blk (blk'.pushLabel label size) :=
  h.trans rfl

/- Patching a displacement changes code only. -/
theorem realizeLabel
    (h : OnlyCode blk blk')
    (label : Label) :
    OnlyCode blk (blk'.realizeLabel label) :=
  h.trans rfl

end OnlyCode

namespace JitEmitter

variable {em em' : JitEmitter}
variable {blk blk' : JitBlock}

/- Loading a register emits code. -/
theorem ensureLoaded_onlyCode
    (em : JitEmitter)
    (blk : JitBlock)
    (r : BitVec 5) :
    OnlyCode blk (em.ensureLoaded blk r).2 := by
  unfold ensureLoaded
  dsimp only
  split
  · exact (OnlyCode.refl blk).emit _
  · exact .refl blk

/- Spilling one emits code. -/
theorem spill_onlyCode
    {locked : BitVec 64}
    {i : Fin 8}
    (h : em.spill blk locked = .ok (i, em', blk')) :
    OnlyCode blk blk' := by
  unfold spill at h
  split at h
  case h_1 => cases h
  case h_2 j =>
    dsimp only at h
    split at h
    case h_1 => cases h
    case h_2 g =>
      cases h
      split
      · exact (OnlyCode.refl blk).emit _
      · exact .refl blk

/- Loading a register emits code only. -/
theorem loaded_onlyCode
    {em₁ : JitEmitter}
    {blk₁ : JitBlock}
    {r : BitVec 5}
    (hBlk : OnlyCode blk blk₁)
    (h : (.ok (em₁.ensureLoaded blk₁ r) :
      Except HostFault _) = .ok (em', blk')) :
    OnlyCode blk blk' := by
  have hLoad := ensureLoaded_onlyCode em₁ blk₁ r
  rw [Except.ok.inj h] at hLoad
  exact hBlk.trans hLoad

/- Allocating emits code, if anything. -/
theorem rvjitAllocReg_onlyCode
    {r : BitVec 5}
    {locked : BitVec 64}
    (h : em.rvjitAllocReg blk r locked = .ok (em', blk')) :
    OnlyCode blk blk' := by
  unfold rvjitAllocReg at h
  split at h
  · cases h
    exact .refl blk
  · split at h
    · exact loaded_onlyCode (.refl blk) h
    · split at h
      · exact loaded_onlyCode (.refl blk) h
      · rcases bind_eq_ok.mp h with ⟨⟨i, em₁, blk₁⟩, hSpill, h⟩
        exact loaded_onlyCode (spill_onlyCode hSpill) h

/- Templates of three registers. -/
theorem instEmitRType_onlyCode
    {inst : InstructionData}
    {optimize : Bool}
    {emitOp : ROp}
    (h : em.instEmitRType blk inst optimize emitOp =
      .ok (em', blk')) :
    OnlyCode blk blk' := by
  unfold instEmitRType at h
  split at h
  · cases h
    exact .refl blk
  · rcases bind_eq_ok.mp h with ⟨⟨em₁, blk₁⟩, hRd, h⟩
    have hFirst := rvjitAllocReg_onlyCode hRd
    dsimp only at h
    split at h
    · cases h
      exact hFirst.emit _
    · split at h
      · rcases bind_eq_ok.mp h with ⟨⟨em₂, blk₂⟩, hRs, h⟩
        cases h
        exact (hFirst.trans (rvjitAllocReg_onlyCode hRs)).emit _
      · split at h
        · rcases bind_eq_ok.mp h with ⟨⟨em₂, blk₂⟩, hRs, h⟩
          cases h
          exact (hFirst.trans
            (rvjitAllocReg_onlyCode hRs)).emit _
        · rcases bind_eq_ok.mp h with ⟨⟨em₂, blk₂⟩, hRs1, h⟩
          rcases bind_eq_ok.mp h with ⟨⟨em₃, blk₃⟩, hRs2, h⟩
          cases h
          exact ((hFirst.trans (rvjitAllocReg_onlyCode hRs1)
            ).trans (rvjitAllocReg_onlyCode hRs2)).emit _

/- Templates with an immediate emit code only. -/
theorem instEmitIType_onlyCode
    {inst : InstructionData}
    {optimize : Bool}
    {emitOp : IOp}
    (h : em.instEmitIType blk inst optimize emitOp =
      .ok (em', blk')) :
    OnlyCode blk blk' := by
  unfold instEmitIType at h
  split at h
  · cases h
    exact .refl blk
  · rcases bind_eq_ok.mp h with ⟨⟨em₁, blk₁⟩, hRd, h⟩
    have hFirst := rvjitAllocReg_onlyCode hRd
    dsimp only at h
    split at h
    · cases h
      exact hFirst.emit _
    · split at h
      · cases h
        exact hFirst.emit _
      · split at h
        · rcases bind_eq_ok.mp h with ⟨⟨em₂, blk₂⟩, hRs, h⟩
          cases h
          exact (hFirst.trans
            (rvjitAllocReg_onlyCode hRs)).emit _
        · rcases bind_eq_ok.mp h with ⟨⟨em₂, blk₂⟩, hRs, h⟩
          cases h
          exact (hFirst.trans
            (rvjitAllocReg_onlyCode hRs)).emit _

/- Templates of stores emit code only. -/
theorem instEmitSType_onlyCode
    {inst : InstructionData}
    {emitOp : SOp}
    (hOp : ∀ rs1 rs2 imm blk,
      OnlyCode blk (emitOp rs1 rs2 imm blk))
    (h : em.instEmitSType blk inst emitOp = .ok (em', blk')) :
    OnlyCode blk blk' := by
  unfold instEmitSType at h
  rcases bind_eq_ok.mp h with ⟨⟨em₁, blk₁⟩, hRs1, h⟩
  rcases bind_eq_ok.mp h with ⟨⟨em₂, blk₂⟩, hRs2, h⟩
  cases h
  exact ((rvjitAllocReg_onlyCode hRs1).trans
    (rvjitAllocReg_onlyCode hRs2)).trans (hOp _ _ _ _)

end JitEmitter

/- The templates of the table, by the frame they end in. -/
inductive IsTemplate : JitTemplate → Prop
  | r (optimize : Bool) (emitOp : ROp) :
      IsTemplate (rTemplate optimize emitOp)
  | i (optimize : Bool) (emitOp : IOp) :
      IsTemplate (iTemplate optimize emitOp)
  | store
      (fastMov : BitVec 8 → BitVec 8 → BitVec 8 → BitVec 8 →
        BitVec 32 → Code)
      (slow : BitVec 64) :
      IsTemplate (jitStore fastMov slow)

/- Every entry of the table is one of these templates. -/
theorem conversionTbl_isTemplate
    {slow : SlowFuncs}
    {op : Op}
    {template : JitTemplate}
    (h : conversionTbl slow op = some template) :
    IsTemplate template := by
  cases op <;> cases h
  case SB | SH | SW | SD => exact .store _ _
  case ADDI | ADDIW | XORI | ORI | ANDI | SLLI | SLLIW | SRLI
      | SRLIW | SRAI | SRAIW | SLTI | SLTIU => exact .i _ _
  all_goals exact .r _ _

/- Templates emit code and nothing else. -/
theorem IsTemplate.onlyCode
    {template : JitTemplate}
    (hTemplate : IsTemplate template)
    {d : InstructionData}
    {em em' : JitEmitter}
    {blk blk' : JitBlock}
    (h : template d em blk = .ok (em', blk')) :
    OnlyCode blk blk' := by
  cases hTemplate with
  | r => exact JitEmitter.instEmitRType_onlyCode h
  | i => exact JitEmitter.instEmitIType_onlyCode h
  | store =>
      refine JitEmitter.instEmitSType_onlyCode ?_ h
      intro rs1 rs2 imm blk
      rfl

end RiscvEm

------------------------------------------------------------
-- Even Sizes
------------------------------------------------------------

namespace RiscvEm

open WordArith (IsEven)

namespace JitContext

variable {j j' : JitContext}
variable {host : HostCode}

/- Every block, and the one begun, covers an even number. -/
structure SizesEven
    (j : JitContext) : Prop where
  jits : ∀ i, IsEven (j.jits i).instSize
  block : IsEven j.block.size

namespace SizesEven

/- The sizes are even at the start, where there are none. -/
theorem init
    (memorySize : BitVec 64) :
    (JitContext.init memorySize).SizesEven :=
  ⟨fun _ => .zero, .zero⟩

/- A write to the page keeps them. -/
theorem bumpPage
    {addr : BitVec 64}
    (hEven : j.SizesEven)
    (h : j.bumpPage addr = .ok j') :
    j'.SizesEven := by
  unfold JitContext.bumpPage at h
  dsimp only at h
  split at h
  · cases h
    exact ⟨hEven.jits, hEven.block⟩
  · cases h

theorem stopBlock
    (hEven : j.SizesEven) :
    j.stopBlock.SizesEven :=
  ⟨hEven.jits, hEven.block⟩

/- The counters of a page do not matter. -/
theorem setHitPage
    (hEven : j.SizesEven)
    (i : Nat)
    (page : HitPage) :
    (j.setHitPage i page).SizesEven :=
  ⟨hEven.jits, hEven.block⟩

/- One more block, and the hits forgotten. -/
theorem setJits
    (hEven : j.SizesEven)
    (i : BitVec 20)
    {f : JitFunction}
    (hf : IsEven f.instSize) :
    ∀ k, IsEven (Function.update j.jits i f k).instSize := by
  intro k
  by_cases hk : k = i
  · rw [hk, Function.update_self]
    exact hf
  · rw [Function.update_of_ne hk]
    exact hEven.jits k

/- A block begins with size zero. -/
theorem beginBlock
    (hEven : j.SizesEven)
    (pc : BitVec 64) :
    (j.beginBlock pc).SizesEven :=
  ⟨hEven.jits, .zero⟩

/- A block that fits the buffer is handed on unchanged. -/
theorem checkBuffer_eq
    {blk blk' : JitBlock}
    (h : checkBuffer blk = .ok blk') :
    blk' = blk := by
  unfold checkBuffer at h
  split at h
  · cases h
  · cases h
    rfl

/- An instruction of even size is added to the block. -/
theorem emitInstruction
    {template : JitTemplate}
    {cache : InstructionCache}
    {inst : Instruction}
    (hEven : j.SizesEven)
    (hTemplate : IsTemplate template)
    (hSize : IsEven inst.size)
    (h : j.emitInstruction template cache inst = .ok j') :
    j'.SizesEven := by
  unfold JitContext.emitInstruction at h
  rcases bind_eq_ok.mp h with ⟨⟨em, blk⟩, hEmit, h⟩
  rcases bind_eq_ok.mp h with ⟨blk', hCheck, h⟩
  have hSame := (hTemplate.onlyCode hEmit).size
  cases checkBuffer_eq hCheck
  cases h
  refine ⟨hEven.jits, ?_⟩
  have hBlock := hEven.block
  rw [← hSame] at hBlock
  exact hBlock.add (hSize.setWidth 64)

/- Getting the arena keeps them. -/
theorem ensureArena
    (hEven : j.SizesEven)
    (host : HostCode) :
    (j.ensureArena host).SizesEven := by
  unfold JitContext.ensureArena
  split
  · exact ⟨hEven.jits, hEven.block⟩
  · exact hEven

/- Storing a function keeps them. -/
theorem pushFunction
    (hEven : j.SizesEven)
    (host : HostCode)
    (code : Code) :
    (j.pushFunction host code).2.SizesEven := by
  unfold JitContext.pushFunction
  repeat' split
  all_goals exact ⟨hEven.jits, hEven.block⟩

/- The block that is ended becomes a function. -/
theorem endBlockGen
    {pc : BitVec 64}
    (hEven : j.SizesEven)
    (h : j.endBlockGen host pc = .ok j') :
    j'.SizesEven := by
  unfold JitContext.endBlockGen at h
  dsimp only at h
  split at h
  case isFalse =>
    cases h
    exact ⟨hEven.jits, hEven.block⟩
  case isTrue =>
    rcases bind_eq_ok.mp h with ⟨blk, hCheck, hPush⟩
    have hStopped : { j with blockC := false }.SizesEven :=
      ⟨hEven.jits, hEven.block⟩
    have hArena := hStopped.ensureArena host
    have hBlock : IsEven blk.size := by
      rw [checkBuffer_eq hCheck]
      exact hArena.block
    have hWith : { JitContext.ensureArena { j with
        blockC := false } host with block := blk }.SizesEven :=
      ⟨hArena.jits, hBlock⟩
    have hPushed := hWith.pushFunction host blk.bytes
    cases hPush
    exact ⟨hPushed.setJits _ (hBlock.setWidth 16),
      hPushed.block⟩

/- What follows the execution of an instruction. -/
theorem handle
    {cache : InstructionCache}
    {inst : Instruction}
    {prevPc : BitVec 64}
    (hEven : j.SizesEven)
    (hSize : IsEven inst.size)
    (h : j.handleInstruction host cache inst prevPc =
      .ok j') :
    j'.SizesEven := by
  unfold JitContext.handleInstruction at h
  dsimp only at h
  split at h
  · cases h
    exact hEven
  · split at h
    · cases h
      exact hEven
    · split at h
      · cases h
      · split at h
        · cases h
          exact hEven.setHitPage _ _
        · split at h
          · -- the block under construction
            split at h
            case h_1 =>
              exact (hEven.setHitPage _ _).endBlockGen h
            case h_2 template hTable =>
              have hTemplate := conversionTbl_isTemplate hTable
              split at h
              · exact (hEven.setHitPage _ _).endBlockGen h
              · rcases bind_eq_ok.mp h with ⟨j₁, hEmit, h⟩
                cases h
                exact ((hEven.setHitPage _ _).emitInstruction
                  hTemplate hSize hEmit).setHitPage _ _
          · -- a block may be begun
            split at h
            · cases h
              exact (hEven.setHitPage _ _).setHitPage _ _
            · split at h
              case h_1 =>
                cases h
                exact ((hEven.setHitPage _ _).setHitPage
                  _ _).setHitPage _ _
              case h_2 template hTable =>
                have hTemplate :=
                  conversionTbl_isTemplate hTable
                rcases bind_eq_ok.mp h with ⟨j₁, hEmit, h⟩
                cases h
                refine setHitPage ?_ _ _
                refine emitInstruction ?_ hTemplate hSize hEmit
                exact ((hEven.setHitPage _ _).setHitPage
                  _ _).beginBlock _

end SizesEven

end JitContext

end RiscvEm
