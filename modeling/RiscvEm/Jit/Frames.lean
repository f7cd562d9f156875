import RiscvEm.Jit.Allocator
import Mathlib.Data.Fintype.Option

/-
  The frames of the instruction templates: the operands get
  host registers one after the other, each with those before
  it locked, and then the code of the instruction follows.

  Key definitions include:
    * `JitEmitter.Grants`
    * `JitEmitter.rOperands`
    * `JitEmitter.iOperands`

  Key theorems include:
    * `JitEmitter.Grants.held`
    * `JitEmitter.instEmitRType_spec`
    * `JitEmitter.instEmitIType_spec`
-/

------------------------------------------------------------
-- Locks
------------------------------------------------------------

namespace RiscvEm

/-
  A host register is free of two locks if it is free of
  both.
-/
theorem unlocked_or
    {a b : BitVec 64}
    {i : Fin 8} :
    Unlocked (a ||| b) i ↔ Unlocked a i ∧ Unlocked b i := by
  unfold Unlocked
  rw [BitVec.and_comm, BitVec.and_or_distrib_left,
    BitVec.and_comm a, BitVec.and_comm b]
  exact BitVec.or_eq_zero_iff

/- A host register's own lock holds it. -/
theorem locked_self
    (i : Fin 8) :
    ¬ Unlocked (JitEmitter.lockBit (hostRegArray i)) i := by
  unfold Unlocked
  revert i
  decide

/- A host register for guests, or the mark of none. -/
def placeOf : Option (Fin 8) → BitVec 8
  | none => 0xFF
  | some i => hostRegArray i

/- Two locks leave a host register free. -/
theorem unlocked_pair :
    ∀ o o' : Option (Fin 8), ∃ i,
      Unlocked (JitEmitter.lockBit (placeOf o) |||
        JitEmitter.lockBit (placeOf o')) i := by
  unfold Unlocked
  decide

namespace JitEmitter

variable {em em' : JitEmitter}
variable {blk blk' : JitBlock}

/- The register is `x0`, or a host register holds it. -/
def Granted
    (em : JitEmitter)
    (r : BitVec 5) : Prop :=
  r = 0 ∨ ∃ i, em.slot i = some r

/- The locks of operands that were allocated before. -/
def lockOf
    (em : JitEmitter) : List (BitVec 5) → BitVec 64
  | [] => 0#64
  | r :: rs => lockBit (em.vregs r).hostReg ||| lockOf em rs

/- The host register of a granted one is one of the eight. -/
theorem Wf.place
    (h : em.Wf)
    {r : BitVec 5}
    (hr : em.Granted r) :
    ∃ o, (em.vregs r).hostReg = placeOf o := by
  rcases hr with rfl | ⟨i, hSlot⟩
  · exact ⟨none, h.zeroHost⟩
  · exact ⟨some i, (h.holds i r hSlot).2.2⟩

/- Two locks leave one of the eight host registers. -/
theorem Wf.unlocked
    (h : em.Wf)
    {rs : List (BitVec 5)}
    (hGranted : ∀ r ∈ rs, em.Granted r)
    (hFew : rs.length ≤ 2) :
    ∃ i, Unlocked (em.lockOf rs) i := by
  match rs with
  | [] => exact ⟨0, BitVec.zero_and⟩
  | [r] =>
      rcases h.place (hGranted r (by simp)) with ⟨o, ho⟩
      rcases unlocked_pair o o with ⟨i, hi⟩
      refine ⟨i, ?_⟩
      rw [lockOf, lockOf, ho, BitVec.or_zero]
      exact (unlocked_or.mp hi).1
  | [r, q] =>
      rcases h.place (hGranted r (by simp)) with ⟨o, ho⟩
      rcases h.place (hGranted q (by simp)) with ⟨o', ho'⟩
      rcases unlocked_pair o o' with ⟨i, hi⟩
      refine ⟨i, ?_⟩
      rw [lockOf, lockOf, lockOf, ho, ho', BitVec.or_zero]
      exact hi
  | _ :: _ :: _ :: _ => simp at hFew

/- What an operand was given is locked. -/
theorem Wf.locked
    (h : em.Wf)
    {rs : List (BitVec 5)}
    {r : BitVec 5}
    (hMem : r ∈ rs)
    {i : Fin 8}
    (hSlot : em.slot i = some r) :
    ¬ Unlocked (em.lockOf rs) i := by
  induction rs with
  | nil => cases hMem
  | cons q rs ih =>
      intro hFree
      have hBoth := unlocked_or.mp hFree
      rcases List.mem_cons.mp hMem with rfl | hMem
      · rw [(h.holds i r hSlot).2.2] at hBoth
        exact locked_self i hBoth.1
      · exact ih hMem hBoth.2

end JitEmitter

end RiscvEm

------------------------------------------------------------
-- Grants
------------------------------------------------------------

namespace RiscvEm

namespace JitEmitter

variable {em em' : JitEmitter}
variable {blk blk' : JitBlock}

/- Allocation keeps the invariant. -/
theorem Allocates.wf
    (h : em.Wf)
    {r : BitVec 5}
    {locked : BitVec 64}
    {code : Code}
    (hAlloc : em.Allocates r locked em' code) :
    em'.Wf := by
  cases hAlloc with
  | zero hr => exact h
  | hit hSlot hWf hSlots hVRegs => exact hWf
  | load hUnlocked hFree hIdle hLoaded => exact hLoaded.wf
  | spill hUnlocked hSlot hNe hIdle hLoaded =>
      exact hLoaded.wf

/- A call that succeeded, with its code. -/
theorem allocates_of_ok
    (h : em.Wf)
    {r : BitVec 5}
    {locked : BitVec 64}
    (hFree : ∃ i, Unlocked locked i)
    (hOk : em.rvjitAllocReg blk r locked =
      .ok (em', blk')) :
    ∃ code, blk' = blk.emit code ∧
      em.Allocates r locked em' code := by
  rcases rvjitAllocReg_spec h blk r hFree with
    ⟨em₁, code, hEq, hAlloc⟩
  cases hEq.symm.trans hOk
  exact ⟨code, rfl, hAlloc⟩

/-
  The calls of `rvjit_alloc_reg` for operands, in order. The
  operands before are locked.
-/
inductive Grants
    (em : JitEmitter)
    (blk : JitBlock) :
    List (BitVec 5) → JitEmitter → JitBlock → Prop
  | nil : Grants em blk [] em blk
  | snoc {rs : List (BitVec 5)} {r : BitVec 5}
      {em₁ em₂ : JitEmitter} {blk₁ blk₂ : JitBlock}
      (before : Grants em blk rs em₁ blk₁)
      (alloc : em₁.rvjitAllocReg blk₁ r (em₁.lockOf rs) =
        .ok (em₂, blk₂)) :
      Grants em blk (rs ++ [r]) em₂ blk₂

/- What is granted stays granted while operands follow. -/
theorem Grants.spec
    (h : em.Wf)
    {rs : List (BitVec 5)}
    (hGrants : em.Grants blk rs em' blk')
    (hFew : rs.length ≤ 3) :
    em'.Wf ∧ (∃ code, blk' = blk.emit code) ∧
      ∀ r ∈ rs, em'.Granted r := by
  induction hGrants with
  | nil => exact ⟨h, ⟨[], blk.emit_nil.symm⟩, nofun⟩
  | @snoc rs r em₁ em₂ blk₁ blk₂ hBefore hAlloc ih =>
      rw [List.length_append, List.length_singleton] at hFew
      rcases ih (Nat.le_of_succ_le hFew) with
        ⟨hWf, ⟨code, rfl⟩, hHeld⟩
      rcases allocates_of_ok hWf
        (hWf.unlocked hHeld (Nat.le_of_succ_le_succ hFew))
        hAlloc with ⟨code', rfl, hAllocates⟩
      refine ⟨hAllocates.wf hWf,
        ⟨code ++ code', blk.emit_emit code code'⟩, ?_⟩
      intro q hq
      by_cases hZero : q = 0
      · exact .inl hZero
      · rcases List.mem_append.mp hq with hq | hq
        · rcases (hHeld q hq).resolve_left hZero with
            ⟨i, hSlot⟩
          exact .inr ⟨i, hAllocates.keeps
            (hWf.locked hq hSlot) hSlot⟩
        · cases List.mem_singleton.mp hq
          exact .inr (hAllocates.slot hZero)

/- After the grants of two operands a third call succeeds. -/
theorem Grants.next
    (h : em.Wf)
    {rs : List (BitVec 5)}
    (hGrants : em.Grants blk rs em' blk')
    (hFew : rs.length ≤ 2)
    (r : BitVec 5) :
    ∃ em₂ blk₂, em'.rvjitAllocReg blk' r (em'.lockOf rs) =
      .ok (em₂, blk₂) := by
  rcases hGrants.spec h (Nat.le_succ_of_le hFew) with
    ⟨hWf, -, hHeld⟩
  rcases rvjitAllocReg_spec hWf blk' r
    (hWf.unlocked hHeld hFew) with ⟨em₂, code, hEq, -⟩
  exact ⟨em₂, _, hEq⟩

end JitEmitter

end RiscvEm

------------------------------------------------------------
-- The Frames
------------------------------------------------------------

namespace RiscvEm

namespace JitEmitter

variable {em : JitEmitter}

/- The operands that a register-register frame allocates. -/
def rOperands
    (optimizeIfRsz : Bool)
    (inst : InstructionData) : List (BitVec 5) :=
  if optimizeIfRsz && inst.rs1 = 0 then
    if optimizeIfRsz && inst.rs2 = 0 then [inst.rd]
    else [inst.rd, inst.rs2]
  else if optimizeIfRsz && inst.rs2 = 0 then
    [inst.rd, inst.rs1]
  else
    [inst.rd, inst.rs1, inst.rs2]

/- The code that follows them. -/
def rBody
    (em : JitEmitter)
    (optimizeIfRsz : Bool)
    (emitOp : ROp)
    (inst : InstructionData) : Code :=
  let rd := em.vregs inst.rd
  let rs1 := em.vregs inst.rs1
  let rs2 := em.vregs inst.rs2
  if optimizeIfRsz && inst.rs1 = 0 then
    if optimizeIfRsz && inst.rs2 = 0 then
      xorRr rd.hostReg rd.hostReg
    else
      mov rd.hostReg rs2.hostReg
  else if optimizeIfRsz && inst.rs2 = 0 then
    mov rd.hostReg rs1.hostReg
  else
    emitOp rd rs1 rs2

/- The operands that a register-immediate frame allocates. -/
def iOperands
    (optimizeIfRsz : Bool)
    (inst : InstructionData) : List (BitVec 5) :=
  if optimizeIfRsz && inst.rs1 = 0 then [inst.rd]
  else [inst.rd, inst.rs1]

/- The code that follows them. -/
def iBody
    (em : JitEmitter)
    (optimizeIfRsz : Bool)
    (emitOp : IOp)
    (inst : InstructionData) : Code :=
  let rd := em.vregs inst.rd
  let rs1 := em.vregs inst.rs1
  if optimizeIfRsz && inst.rs1 = 0 then
    if optimizeIfRsz && inst.imm = 0 then
      xorRr rd.hostReg rd.hostReg
    else
      movImm32 rd.hostReg (inst.imm.setWidth 32)
  else if optimizeIfRsz && inst.imm = 0 then
    mov rd.hostReg rs1.hostReg
  else
    emitOp rd rs1 inst.imm

/- R-type instructions name three registers at most. -/
theorem rOperands_length
    (optimizeIfRsz : Bool)
    (inst : InstructionData) :
    (rOperands optimizeIfRsz inst).length ≤ 3 := by
  unfold rOperands
  split
  · split <;> simp
  · split <;> simp

/- I-type instructions name three registers at most. -/
theorem iOperands_length
    (optimizeIfRsz : Bool)
    (inst : InstructionData) :
    (iOperands optimizeIfRsz inst).length ≤ 3 := by
  unfold iOperands
  split <;> simp

/-
  An R-type frame grants its operands, emits the body and
  marks the destination.
-/
theorem instEmitRType_spec
    (h : em.Wf)
    (blk : JitBlock)
    {inst : InstructionData}
    (hRd : inst.rd ≠ 0)
    (optimizeIfRsz : Bool)
    (emitOp : ROp) :
    ∃ em₁ blk₁,
      em.Grants blk (rOperands optimizeIfRsz inst) em₁ blk₁ ∧
      em.instEmitRType blk inst optimizeIfRsz emitOp =
        .ok (em₁.setDirty inst.rd,
          blk₁.emit (em₁.rBody optimizeIfRsz emitOp inst)) := by
  have hNil : em.Grants blk [] em blk := .nil
  rcases hNil.next h (Nat.zero_le _)
    inst.rd with ⟨em₁, blk₁, hAlloc⟩
  have hFirst : em.Grants blk [inst.rd] em₁ blk₁ :=
    .snoc .nil hAlloc
  have hLock : em₁.lockOf [inst.rd] =
      lockBit (em₁.vregs inst.rd).hostReg := BitVec.or_zero
  have hSecond := hFirst.next h (by simp)
  rw [hLock] at hSecond
  have hZero : em.lockOf [] = 0 := rfl
  rw [hZero] at hAlloc
  unfold instEmitRType rOperands rBody
  rw [if_neg hRd]
  simp only [hAlloc, bind, Except.bind, pure, Except.pure]
  by_cases hRs1 : (optimizeIfRsz && inst.rs1 = 0) = true
  · by_cases hRs2 : (optimizeIfRsz && inst.rs2 = 0) = true
    · simp only [hRs1, hRs2, Bool.and_self, if_true]
      exact ⟨em₁, blk₁, hFirst, rfl⟩
    · rcases hSecond inst.rs2 with ⟨em₂, blk₂, hAlloc₂⟩
      simp only [hRs1, hRs2, Bool.and_false, if_true,
        Bool.false_eq_true, if_false, hAlloc₂]
      rw [← hLock] at hAlloc₂
      exact ⟨em₂, blk₂, .snoc hFirst hAlloc₂, rfl⟩
  · rcases hSecond inst.rs1 with ⟨em₂, blk₂, hAlloc₂⟩
    by_cases hRs2 : (optimizeIfRsz && inst.rs2 = 0) = true
    · simp only [hRs1, hRs2, Bool.false_and, if_true,
        Bool.false_eq_true, if_false, hAlloc₂]
      rw [← hLock] at hAlloc₂
      exact ⟨em₂, blk₂, .snoc hFirst hAlloc₂, rfl⟩
    · have hTwo : em.Grants blk [inst.rd, inst.rs1] em₂
          blk₂ := .snoc hFirst (hLock.symm ▸ hAlloc₂)
      have hLock₂ : em₂.lockOf [inst.rd, inst.rs1] =
          lockBit (em₂.vregs inst.rs1).hostReg |||
            lockBit (em₂.vregs inst.rd).hostReg := by
        rw [lockOf, lockOf, lockOf, BitVec.or_zero,
          BitVec.or_comm]
      rcases hTwo.next h (by simp) inst.rs2 with
        ⟨em₃, blk₃, hAlloc₃⟩
      have hThree : em.Grants blk
          [inst.rd, inst.rs1, inst.rs2] em₃ blk₃ :=
        .snoc hTwo hAlloc₃
      rw [hLock₂] at hAlloc₃
      simp only [hRs1, hRs2, Bool.and_self,
        Bool.false_eq_true, if_false, hAlloc₂, hAlloc₃]
      exact ⟨em₃, blk₃, hThree, rfl⟩

/- An I-type frame does so with the immediate. -/
theorem instEmitIType_spec
    (h : em.Wf)
    (blk : JitBlock)
    {inst : InstructionData}
    (hRd : inst.rd ≠ 0)
    (optimizeIfRsz : Bool)
    (emitOp : IOp) :
    ∃ em₁ blk₁,
      em.Grants blk (iOperands optimizeIfRsz inst) em₁ blk₁ ∧
      em.instEmitIType blk inst optimizeIfRsz emitOp =
        .ok (em₁.setDirty inst.rd,
          blk₁.emit (em₁.iBody optimizeIfRsz emitOp inst)) := by
  have hNil : em.Grants blk [] em blk := .nil
  rcases hNil.next h (Nat.zero_le _)
    inst.rd with ⟨em₁, blk₁, hAlloc⟩
  have hFirst : em.Grants blk [inst.rd] em₁ blk₁ :=
    .snoc .nil hAlloc
  have hLock : em₁.lockOf [inst.rd] =
      lockBit (em₁.vregs inst.rd).hostReg := BitVec.or_zero
  have hZero : em.lockOf [] = 0 := rfl
  rw [hZero] at hAlloc
  unfold instEmitIType iOperands iBody
  rw [if_neg hRd]
  simp only [hAlloc, bind, Except.bind, pure, Except.pure]
  by_cases hRs1 : (optimizeIfRsz && inst.rs1 = 0) = true
  · simp only [hRs1, Bool.true_and, if_true]
    refine ⟨em₁, blk₁, hFirst, ?_⟩
    split <;> rfl
  · rcases hFirst.next h (by simp) inst.rs1 with
      ⟨em₂, blk₂, hAlloc₂⟩
    have hTwo : em.Grants blk [inst.rd, inst.rs1] em₂ blk₂ :=
      .snoc hFirst hAlloc₂
    rw [hLock] at hAlloc₂
    simp only [hRs1, Bool.false_and, Bool.false_eq_true,
      if_false, hAlloc₂]
    refine ⟨em₂, blk₂, hTwo, ?_⟩
    split <;> rfl

/-
  An S-type frame grants both sources and emits its
  template.
-/
theorem instEmitSType_spec
    (h : em.Wf)
    (blk : JitBlock)
    (inst : InstructionData)
    (emitOp : SOp) :
    ∃ em₁ blk₁,
      em.Grants blk [inst.rs1, inst.rs2] em₁ blk₁ ∧
      em.instEmitSType blk inst emitOp =
        .ok (em₁, emitOp (em₁.vregs inst.rs1)
          (em₁.vregs inst.rs2) inst.imm blk₁) := by
  have hNil : em.Grants blk [] em blk := .nil
  rcases hNil.next h (Nat.zero_le _)
    inst.rs1 with ⟨em₁, blk₁, hAlloc⟩
  have hFirst : em.Grants blk [inst.rs1] em₁ blk₁ :=
    .snoc .nil hAlloc
  have hLock : em₁.lockOf [inst.rs1] =
      lockBit (em₁.vregs inst.rs1).hostReg := BitVec.or_zero
  rcases hFirst.next h (by simp) inst.rs2 with
    ⟨em₂, blk₂, hAlloc₂⟩
  have hTwo : em.Grants blk [inst.rs1, inst.rs2] em₂ blk₂ :=
    .snoc hFirst hAlloc₂
  have hZero : em.lockOf [] = 0 := rfl
  rw [hZero] at hAlloc
  rw [hLock] at hAlloc₂
  refine ⟨em₂, blk₂, hTwo, ?_⟩
  simp only [instEmitSType, hAlloc, hAlloc₂, bind, Except.bind,
    pure, Except.pure]

end JitEmitter

end RiscvEm
