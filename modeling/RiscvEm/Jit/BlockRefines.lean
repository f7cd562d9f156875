import RiscvEm.Hart.Tick
import RiscvEm.Jit.AllocatorRuns
import RiscvEm.Jit.BlockBytes

/-
  Compiled blocks against the interpreter: a call of a block
  leaves the registers, the memory and the devices as
  executing its instructions one after the other does.

  The templates go their own way for `x0`, for a zero
  immediate and for stores outside of RAM. Each instruction
  of the block has to meet the condition under which that
  does not show.

  Key definitions include:
    * `Emitted`
    * `Faithful`
    * `Interpreted`
    * `SameGuest`

  Key theorems include `block_refines_interpreter`.
-/

------------------------------------------------------------
-- Emissions
------------------------------------------------------------

namespace RiscvEm

open JitEmitter

/- An instruction with the emitter and the block before it. -/
structure Emission where
  op : Op
  data : InstructionData
  em : JitEmitter
  blk : JitBlock

/-
  A block that was emitted from these instructions. The
  fields of the block other than its code and labels may
  change at any time.
-/
inductive Emitted
    (slow : SlowFuncs) :
    List Emission → JitEmitter → JitBlock → Prop
  | prologue {blk : JitBlock}
      (hBytes : blk.bytes = [])
      (hLabels : blk.jmpLabels = []) :
      Emitted slow [] .reset (rvjitEmitPrologue blk)
  | counted {es : List Emission} {em : JitEmitter}
      {blk blk' : JitBlock}
      (before : Emitted slow es em blk)
      (hBytes : blk'.bytes = blk.bytes)
      (hLabels : blk'.jmpLabels = blk.jmpLabels) :
      Emitted slow es em blk'
  | instr {es : List Emission} {em em' : JitEmitter}
      {blk blk' : JitBlock} {op : Op} {d : InstructionData}
      {template : JitTemplate}
      (before : Emitted slow es em blk)
      (hEntry : conversionTbl slow op = some template)
      (hEmit : template d em blk = .ok (em', blk')) :
      Emitted slow (es ++ [⟨op, d, em, blk⟩]) em' blk'

/- The immediate is the one that the decoder computes. -/
def Emission.InTable
    (e : Emission) : Prop :=
  ∃ i ∈ allInstrs, i.func = e.op ∧
    e.data.imm = i.immDecodeFunc e.data.inst

/- The instructions with a template, as registered. -/
def jitImmediates :
    List (Op × (BitVec 32 → BitVec 64)) := [
  (.ADD, immI), (.ADDW, immI), (.SUB, immI), (.SUBW, immI),
  (.XOR, immI), (.OR, immI), (.AND, immI), (.SLL, immI),
  (.SLLW, immI), (.SRL, immI), (.SRLW, immI), (.SRA, immI),
  (.SRAW, immI), (.SLT, immI), (.SLTU, immI), (.ADDI, immI),
  (.ADDIW, immI), (.XORI, immI), (.ORI, immI), (.ANDI, immI),
  (.SLLI, shamt64), (.SLLIW, shamt), (.SRLIW, shamt),
  (.SRAIW, shamt), (.SRLI, shamt64), (.SRAI, shamt64),
  (.SLTI, immI), (.SLTIU, immI), (.SB, immS), (.SH, immS),
  (.SW, immS), (.SD, immS)]

def hasTemplate
    (op : Op) : Bool :=
  jitImmediates.any (·.1 == op)

theorem registrations_immediates :
    (registrations.filter (hasTemplate ·.func)).map
        (fun r => (r.func, r.immDecodeFunc.getD immI)) =
      jitImmediates := by
  rfl

/- What the immediates of the templates are. -/
theorem jitImmediates_spec :
    ∀ p ∈ jitImmediates,
      ((iValue p.1).isSome = true → p.2 = immOf p.1) ∧
        ((storeParts p.1).isSome = true → p.2 = immS) := by
  simp only [jitImmediates, List.forall_mem_cons,
    List.not_mem_nil, false_implies, implies_true, and_true]
  repeat' apply And.intro
  all_goals
    intro h
    first
    | exact absurd h (by decide)
    | exact True.intro
    | rfl

theorem Emission.InTable.imm
    {e : Emission}
    (h : e.InTable)
    (hTemplate : hasTemplate e.op = true) :
    ∃ f : BitVec 32 → BitVec 64, (e.op, f) ∈ jitImmediates ∧
      e.data.imm = f e.data.inst := by
  rcases h with ⟨i, hMem, hOp, hImm⟩
  unfold allInstrs at hMem
  rcases List.mem_map.mp hMem with ⟨r, hReg, rfl⟩
  change r.func = e.op at hOp
  refine ⟨r.immDecodeFunc.getD immI, ?_, hImm⟩
  rw [← registrations_immediates, ← hOp]
  apply List.mem_map.mpr
  refine ⟨r, List.mem_filter.mpr ⟨hReg, ?_⟩, rfl⟩
  rw [hOp]
  exact hTemplate

end RiscvEm

------------------------------------------------------------
-- Comparisons With Zero
------------------------------------------------------------

namespace RiscvEm

open X86 JitEmitter

variable {σ : Type}
variable {P : Platform σ}
variable {stack : List (BitVec 64)}
variable {t : State σ}
variable {em : JitEmitter}
variable {m : X86.Machine (State σ)}

/-
  The host register that the encoders take for an operand:
  the marker of `x0` passes for `RDI`.
-/
inductive JitEmitter.SourceOf
    (em : JitEmitter) : BitVec 5 → Reg → Prop
  | zero : SourceOf em 0 7
  | held {i : Fin 8} {r : BitVec 5}
      (slot : em.slot i = some r) : SourceOf em r (hostOf i)

theorem JitEmitter.Granted.source
    {r : BitVec 5}
    (h : em.Granted r) :
    ∃ a, em.SourceOf r a := by
  rcases h with rfl | ⟨i, hSlot⟩
  · exact ⟨7, .zero⟩
  · exact ⟨hostOf i, .held hSlot⟩

/- `0xFF` gives the bits of `RDI`. -/
theorem cmp_zero
    (y : BitVec 8) :
    cmp 0xFF y = cmp (hostByte 7) y ∧
      cmp y 0xFF = cmp y (hostByte 7) :=
  ⟨rfl, rfl⟩

theorem JitEmitter.SourceOf.cmp
    (hWf : em.Wf)
    {r q : BitVec 5}
    {a b : Reg}
    (ha : em.SourceOf r a)
    (hb : em.SourceOf q b) :
    RiscvEm.cmp (em.vregs r).hostReg (em.vregs q).hostReg =
      RiscvEm.cmp (hostByte a) (hostByte b) := by
  have hHost : ∀ {i : Fin 8} {r : BitVec 5},
      em.slot i = some r →
        (em.vregs r).hostReg = hostByte (hostOf i) := by
    intro i r hSlot
    rw [hostByte_hostOf]
    exact (hWf.holds i r hSlot).2.2
  cases ha with
  | zero =>
      rw [hWf.zeroHost, (cmp_zero _).1]
      cases hb with
      | zero => rw [hWf.zeroHost, (cmp_zero _).2]
      | held hSlot => rw [hHost hSlot]
  | held hSlot =>
      rw [hHost hSlot]
      cases hb with
      | zero => rw [hWf.zeroHost, (cmp_zero _).2]
      | held hSlot' => rw [hHost hSlot']

/- The code that clears the operands that are `x0`. -/
def clearZero
    (v : VReg) : Code :=
  if v.vreg = 0 then
    xorRr v.hostReg v.hostReg
  else
    []

theorem sets_clearZero
    (hWf : em.Wf)
    (m : X86.Machine (State σ)) :
    Sets (jitEnv P) (clearZero (em.vregs 0)) 7 0 m := by
  unfold clearZero
  rw [hWf.vreg, if_pos rfl, hWf.zeroHost]
  exact sets_xor_self m 7

theorem clearZero_of_ne
    (hWf : em.Wf)
    {r : BitVec 5}
    (hr : r ≠ 0) :
    clearZero (em.vregs r) = [] := by
  unfold clearZero
  rw [hWf.vreg, if_neg hr]

theorem sets_clear
    (hWf : em.Wf)
    {r q : BitVec 5}
    (hZero : r = 0 ∨ q = 0)
    (m : X86.Machine (State σ)) :
    Sets (jitEnv P)
      (clearZero (em.vregs r) ++ clearZero (em.vregs q)) 7 0
      m := by
  by_cases hr : r = 0
  · subst hr
    by_cases hq : q = 0
    · subst hq
      rcases sets_clearZero (P := P) hWf m with
        ⟨m₁, hRuns, hOnly, -⟩
      exact (sets_clearZero hWf m₁).after hRuns hOnly
    · rw [clearZero_of_ne hWf hq, List.append_nil]
      exact sets_clearZero hWf m
  · cases hZero.resolve_left hr
    rw [clearZero_of_ne hWf hr, List.nil_append]
    exact sets_clearZero hWf m

/- No operand, and no other guest register, is in `RDI`. -/
def JitEmitter.Spare
    (em : JitEmitter)
    (rd : BitVec 5)
    (sources : List (BitVec 5)) : Prop :=
  ∀ q, em.slot ⟨3, by decide⟩ = some q →
    q = rd ∧ q ∉ sources

/-
  Clearing `RDI` does no harm to a comparison: what it holds
  is zero, or `rd`, and if that is a source as well, the
  comparison is false.
-/
def JitEmitter.Clears
    (em : JitEmitter)
    (t : State σ)
    (rd : BitVec 5)
    (sources : List (BitVec 5))
    (result : BitVec 64) : Prop :=
  ∀ q, em.slot ⟨3, by decide⟩ = some q →
    t.gpr q = 0 ∨ (q = rd ∧ (q ∈ sources → result = 0))

/- It does none where `RDI` is spare. -/
theorem JitEmitter.Spare.clears
    {rd : BitVec 5}
    {sources : List (BitVec 5)}
    (h : em.Spare rd sources)
    (t : State σ)
    (result : BitVec 64) :
    em.Clears t rd sources result := by
  intro q hSlot
  rcases h q hSlot with ⟨hRd, hNot⟩
  exact Or.inr ⟨hRd, fun hMem => absurd hMem hNot⟩

/-
  After `RDI` was cleared the destination is written. Only a
  source that is the destination may have lost its value.
-/
theorem Holds.cleared
    (h : Holds P stack t em m)
    {i : Fin 8}
    {rd : BitVec 5}
    {sources : List (BitVec 5)}
    (hSlot : em.slot i = some rd)
    {clear code : Code}
    {v : BitVec 64}
    (hClears : em.Clears t rd sources v)
    (hZero : t.gpr 0 = 0)
    (hClear : Sets (jitEnv P) clear 7 0 m)
    (hCode : ∀ m₁ : X86.Machine (State σ),
      (∀ r ∈ sources, ∀ a, em.SourceOf r a →
        m₁.regs a = t.gpr r ∨
          (r = rd ∧ m₁.regs a = 0 ∧ v = 0)) →
        Sets (jitEnv P) code (hostOf i) v m₁) :
    ∃ m', (jitEnv P).Runs (clear ++ code) m m' ∧
      Holds P stack (t.setGpr rd v) (em.setDirty rd) m' := by
  rcases hClear with ⟨m₁, hRuns, hOnly, hValue⟩
  have hSeven : ∀ j : Fin 8, hostOf j = 7 →
      j = ⟨3, by decide⟩ := by
    decide
  have hSources : ∀ r ∈ sources, ∀ a, em.SourceOf r a →
      m₁.regs a = t.gpr r ∨
        (r = rd ∧ m₁.regs a = 0 ∧ v = 0) := by
    intro r hr a ha
    cases ha with
    | zero => exact Or.inl (hValue.trans hZero.symm)
    | @held j r hHeld =>
        by_cases hEq : hostOf j = 7
        · cases hSeven j hEq
          rw [hEq, hValue]
          rcases hClears r hHeld with hNone | ⟨hRd, hFalse⟩
          · exact Or.inl hNone.symm
          · exact Or.inr ⟨hRd, rfl, hFalse hr⟩
        · rw [hOnly.regs _ hEq (hostOf_ne j).1]
          exact Or.inl (h.held j r hHeld)
  rcases hCode m₁ hSources with ⟨m₂, hRuns', hOnly', hValue'⟩
  have hKept : ∀ q, q ≠ hostOf i → q ≠ 7 → q ≠ 1 →
      m₂.regs q = m.regs q := by
    intro q hq hRdi hRcx
    rw [hOnly'.regs q hq hRcx, hOnly.regs q hRdi hRcx]
  have hNe := hostOf_ne i
  refine ⟨m₂, hRuns.append hRuns', h.write hSlot hValue' ?_
    ⟨?_, ?_, ?_⟩ ?_ ?_⟩
  · intro j q hji hj
    have hOther : hostOf j ≠ hostOf i := fun hEq =>
      hji (hostOf_injective hEq)
    by_cases hEq : hostOf j = 7
    · cases hSeven j hEq
      rcases hClears q hj with hNone | ⟨hRd, -⟩
      · rw [hOnly'.regs _ hOther (hostOf_ne _).1, hEq, hValue]
        exact hNone.symm
      · cases hRd
        exact absurd (h.wf.slot_unique hj hSlot) hji
    · rw [hKept _ hOther hEq (hostOf_ne j).1]
      exact h.held j q hj
  · exact hKept 12 hNe.2.1.symm (by decide) (by decide)
  · exact hKept 13 hNe.2.2.1.symm (by decide) (by decide)
  · exact hKept 14 hNe.2.2.2.symm (by decide) (by decide)
  · rw [hOnly'.stack, hOnly.stack]
  · rw [hOnly'.mem, hOnly.mem]

end RiscvEm

------------------------------------------------------------
-- The Code Of Each Kind
------------------------------------------------------------

namespace RiscvEm

open X86 JitEmitter

variable {σ : Type}
variable {P : Platform σ}
variable {stack : List (BitVec 64)}
variable {t : State σ}
variable {op : Op}
variable {d : InstructionData}
variable {em : JitEmitter}
variable {m : X86.Machine (State σ)}
variable {f : BitVec 64 → BitVec 64 → BitVec 64}
variable {i : Fin 8}

theorem Holds.copy
    (h : Holds P stack t em m)
    (hRd : em.slot i = some d.rd)
    {j : Fin 8}
    {r : BitVec 5}
    (hr : em.slot j = some r)
    {v : BitVec 64}
    (hValue : v = t.gpr r) :
    ∃ m', (jitEnv P).Runs
        (mov (em.vregs d.rd).hostReg (em.vregs r).hostReg)
        m m' ∧
      Holds P stack (t.setGpr d.rd v) (em.setDirty d.rd)
        m' := by
  rw [(h.wf.operand hRd).host, (h.wf.operand hr).host, hValue,
    ← h.held j r hr]
  exact h.sets hRd (sets_mov m _ _)

theorem Holds.clear
    (h : Holds P stack t em m)
    (hRd : em.slot i = some d.rd)
    {v : BitVec 64}
    (hValue : v = 0) :
    ∃ m', (jitEnv P).Runs
        (xorRr (em.vregs d.rd).hostReg
          (em.vregs d.rd).hostReg) m m' ∧
      Holds P stack (t.setGpr d.rd v) (em.setDirty d.rd)
        m' := by
  rw [(h.wf.operand hRd).host, hValue]
  exact h.sets hRd (sets_xor_self m _)

/- Operands of the allocator that are not `x0` are held. -/
theorem JitEmitter.Grants.held
    (h : em.Wf)
    {em₁ : JitEmitter}
    {blk blk₁ : JitBlock}
    {rs : List (BitVec 5)}
    (hGrants : em.Grants blk rs em₁ blk₁)
    (hFew : rs.length ≤ 3) :
    ∀ r ∈ rs, r ≠ 0 → ∃ i, em₁.slot i = some r := by
  intro r hr hNe
  exact ((hGrants.spec h hFew).2.2 r hr).resolve_left hNe

/- Next to `x0` the frame copies the other operand. -/
theorem Holds.r_shortcut
    (h : Holds P stack t em m)
    (hZero : t.gpr 0 = 0)
    (hRd : d.rd ≠ 0)
    (hHeld : ∀ r ∈ rOperands true d, r ≠ 0 →
      ∃ i, em.slot i = some r)
    (hAny : d.rs1 = 0 ∨ d.rs2 = 0)
    (emitOp : ROp) :
    ∃ m', (jitEnv P).Runs (em.rBody true emitOp d) m m' ∧
      Holds P stack
        (t.setGpr d.rd
          (t.gpr (if d.rs1 = 0 then d.rs2 else d.rs1)))
        (em.setDirty d.rd) m' := by
  unfold rOperands at hHeld
  by_cases hRs1 : d.rs1 = 0
  · by_cases hRs2 : d.rs2 = 0
    · have hCode : em.rBody true emitOp d =
          xorRr (em.vregs d.rd).hostReg
            (em.vregs d.rd).hostReg := by
        simp [rBody, hRs1, hRs2]
      simp only [hRs1, hRs2, decide_true, Bool.and_self,
        if_true, List.forall_mem_singleton] at hHeld
      rcases hHeld hRd with ⟨i, hSlot⟩
      rw [hCode, if_pos hRs1, hRs2]
      exact h.clear hSlot hZero
    · have hCode : em.rBody true emitOp d =
          mov (em.vregs d.rd).hostReg
            (em.vregs d.rs2).hostReg := by
        unfold rBody
        simp only [hRs1, hRs2, decide_true, decide_false,
          Bool.and_true, Bool.and_false, Bool.false_eq_true,
          if_true, if_false]
      simp only [hRs1, hRs2, decide_true, decide_false,
        Bool.and_true, Bool.and_false, Bool.false_eq_true,
        if_true, if_false, List.forall_mem_cons] at hHeld
      rcases hHeld.1 hRd with ⟨i, hSlot⟩
      rcases hHeld.2.1 hRs2 with ⟨j, hSlot'⟩
      rw [hCode, if_pos hRs1]
      exact h.copy hSlot hSlot' rfl
  · have hRs2 := hAny.resolve_left hRs1
    have hCode : em.rBody true emitOp d =
        mov (em.vregs d.rd).hostReg
          (em.vregs d.rs1).hostReg := by
      unfold rBody
      simp only [hRs1, hRs2, decide_true, decide_false,
        Bool.and_true, Bool.and_false, Bool.false_eq_true,
        if_true, if_false]
    simp only [hRs1, hRs2, decide_true, decide_false,
      Bool.and_true, Bool.and_false, Bool.false_eq_true,
      if_true, if_false, List.forall_mem_cons] at hHeld
    rcases hHeld.1 hRd with ⟨i, hSlot⟩
    rcases hHeld.2.1 hRs1 with ⟨j, hSlot'⟩
    rw [hCode, if_neg hRs1]
    exact h.copy hSlot hSlot' rfl

/- The frame that copies the other operand of `x0`. -/
theorem Holds.r_copies
    (h : Holds P stack t em m)
    (hZero : t.gpr 0 = 0)
    (hRd : d.rd ≠ 0)
    (hHeld : ∀ r ∈ rOperands true d, r ≠ 0 →
      ∃ i, em.slot i = some r)
    {emitOp : ROp}
    (hComputes : RComputes emitOp f)
    (hFirst : d.rs1 = 0 → f 0 (t.gpr d.rs2) = t.gpr d.rs2)
    (hSecond : d.rs2 = 0 → f (t.gpr d.rs1) 0 = t.gpr d.rs1) :
    ∃ m', (jitEnv P).Runs (em.rBody true emitOp d) m m' ∧
      Holds P stack
        (t.setGpr d.rd (f (t.gpr d.rs1) (t.gpr d.rs2)))
        (em.setDirty d.rd) m' := by
  by_cases hAny : d.rs1 = 0 ∨ d.rs2 = 0
  · have hValue : f (t.gpr d.rs1) (t.gpr d.rs2) =
        t.gpr (if d.rs1 = 0 then d.rs2 else d.rs1) := by
      by_cases hRs1 : d.rs1 = 0
      · rw [if_pos hRs1, hRs1, hZero]
        exact hFirst hRs1
      · have hRs2 := hAny.resolve_left hRs1
        rw [if_neg hRs1, hRs2, hZero]
        exact hSecond hRs2
    rw [hValue]
    exact h.r_shortcut hZero hRd hHeld hAny emitOp
  · rcases not_or.mp hAny with ⟨hRs1, hRs2⟩
    unfold rOperands at hHeld
    simp only [hRs1, hRs2, decide_false, Bool.and_false,
      Bool.false_eq_true, if_false,
      List.forall_mem_cons] at hHeld
    rcases hHeld.1 hRd with ⟨i, hSlot⟩
    rcases hHeld.2.1 hRs1 with ⟨j, hSlot'⟩
    rcases hHeld.2.2.1 hRs2 with ⟨k, hSlot''⟩
    exact h.r_body hSlot hSlot' hSlot'' hComputes true

/- The code of `AND`. -/
def andOp : ROp :=
  fun rd rs1 rs2 =>
    if rs1.isZero || rs2.isZero then
      xorRr rd.hostReg rd.hostReg
    else
      binaryOp andRr rd rs1 rs2

theorem execjitAND_eq :
    execjitAND = rTemplate false andOp :=
  rfl

/- `AND` with `x0` is zero. -/
theorem Holds.r_and
    (h : Holds P stack t em m)
    (hZero : t.gpr 0 = 0)
    (hRd : d.rd ≠ 0)
    (hHeld : ∀ r ∈ rOperands false d, r ≠ 0 →
      ∃ i, em.slot i = some r) :
    ∃ m', (jitEnv P).Runs (em.rBody false andOp d) m m' ∧
      Holds P stack
        (t.setGpr d.rd (t.gpr d.rs1 &&& t.gpr d.rs2))
        (em.setDirty d.rd) m' := by
  have hOperands : rOperands false d =
      [d.rd, d.rs1, d.rs2] := rfl
  simp only [hOperands, List.forall_mem_cons] at hHeld
  rcases hHeld with ⟨hFirst, hSecond, hThird, -⟩
  rcases hFirst hRd with ⟨i, hSlot⟩
  by_cases hAny : d.rs1 = 0 ∨ d.rs2 = 0
  · have hCode : em.rBody false andOp d =
          xorRr (em.vregs d.rd).hostReg
            (em.vregs d.rd).hostReg := by
      have hIsZero : ((em.vregs d.rs1).isZero ||
          (em.vregs d.rs2).isZero) = true := by
        rw [h.wf.isZero, h.wf.isZero, Bool.or_eq_true,
          decide_eq_true_eq, decide_eq_true_eq]
        exact hAny
      exact if_pos hIsZero
    have hValue : t.gpr d.rs1 &&& t.gpr d.rs2 = 0 := by
      rcases hAny with hRs1 | hRs2
      · rw [hRs1, hZero]
        exact BitVec.zero_and
      · rw [hRs2, hZero]
        exact BitVec.and_zero
    rw [hCode]
    exact h.clear hSlot hValue
  · rcases hSecond (fun hRs1 => hAny (.inl hRs1)) with
      ⟨j, hSlot'⟩
    rcases hThird (fun hRs2 => hAny (.inr hRs2)) with
      ⟨k, hSlot''⟩
    exact h.r_body hSlot hSlot' hSlot'' rComputes_and false

/- The code of a comparison clears, compares and sets. -/
theorem JitEmitter.Wf.rBody_slt
    (hWf : em.Wf)
    (hSlot : em.slot i = some d.rd)
    {a b : Reg}
    (ha : em.SourceOf d.rs1 a)
    (hb : em.SourceOf d.rs2 b)
    {set : BitVec 8 → Code} :
    em.rBody false (sltOp set) d =
      (clearZero (em.vregs d.rs1) ++
        clearZero (em.vregs d.rs2)) ++
        (RiscvEm.cmp (hostByte a) (hostByte b) ++
          set (hostByte (hostOf i)) ++
          movzx (hostByte (hostOf i))
            (hostByte (hostOf i))) := by
  rw [← ha.cmp hWf hb, ← (hWf.operand hSlot).host]
  simp [rBody, sltOp, clearZero]

/- A comparison of two registers. -/
theorem Holds.r_compares
    (h : Holds P stack t em m)
    (hZero : t.gpr 0 = 0)
    (hRd : d.rd ≠ 0)
    (hGranted : ∀ r ∈ rOperands false d, em.Granted r)
    (hClears : d.rs1 = 0 ∨ d.rs2 = 0 →
      em.Clears t d.rd [d.rs1, d.rs2]
        (f (t.gpr d.rs1) (t.gpr d.rs2)))
    {set : BitVec 8 → Code}
    {c : Cond}
    (hDecodes : ∀ d, decode (set (hostByte d)) =
      some (.setcc c d, []))
    (hValue : ∀ a b, f a b =
      if c.holds (subFlags a b) then 1 else 0)
    (hEqual : f 0 0 = 0) :
    ∃ m', (jitEnv P).Runs (em.rBody false (sltOp set) d) m
        m' ∧
      Holds P stack
        (t.setGpr d.rd (f (t.gpr d.rs1) (t.gpr d.rs2)))
        (em.setDirty d.rd) m' := by
  have hOperands : rOperands false d =
      [d.rd, d.rs1, d.rs2] := rfl
  simp only [hOperands, List.forall_mem_cons] at hGranted
  rcases hGranted with ⟨hFirst, hSecond, hThird, -⟩
  rcases hFirst.resolve_left hRd with ⟨i, hSlot⟩
  by_cases hAny : d.rs1 = 0 ∨ d.rs2 = 0
  · rcases hSecond.source with ⟨a, ha⟩
    rcases hThird.source with ⟨b, hb⟩
    rw [h.wf.rBody_slt hSlot ha hb]
    refine h.cleared hSlot (hClears hAny) hZero
      (sets_clear h.wf hAny m) ?_
    intro m₁ hSources
    have hSame : f (t.gpr d.rs1) (t.gpr d.rs2) =
        f (m₁.regs a) (m₁.regs b) := by
      rcases hSources d.rs1 (by simp) a ha with
        hRs1 | ⟨hRs1, hLost, hFalse⟩
      · rcases hSources d.rs2 (by simp) b hb with
          hRs2 | ⟨hRs2, hLost, hFalse⟩
        · rw [hRs1, hRs2]
        · -- the other source is `x0`, so both are zero now
          have hOther : d.rs1 = 0 :=
            hAny.resolve_right (fun hNone =>
              hRd (hRs2.symm.trans hNone))
          rw [hFalse, hRs1, hOther, hZero, hLost, hEqual]
      · have hOther : d.rs2 = 0 :=
          hAny.resolve_left (fun hNone =>
            hRd (hRs1.symm.trans hNone))
        rcases hSources d.rs2 (by simp) b hb with
          hRs2 | ⟨hRs2, -, -⟩
        · rw [hFalse, hRs2, hOther, hZero, hLost, hEqual]
        · exact absurd (hRs2.symm.trans hOther) hRd
    rw [hSame, hValue]
    exact sets_compare hDecodes m₁ (hostOf i) a b
  · have hBoth := not_or.mp hAny
    rcases hSecond.resolve_left hBoth.1 with ⟨j, hSlot'⟩
    rcases hThird.resolve_left hBoth.2 with ⟨k, hSlot''⟩
    exact h.r_body hSlot hSlot' hSlot''
      ((RComputes.slt hDecodes).of_eq
        fun a b => (hValue a b).symm) false

end RiscvEm

------------------------------------------------------------
-- The Code Of Immediates
------------------------------------------------------------

namespace RiscvEm

open X86 JitEmitter

variable {σ : Type}
variable {P : Platform σ}
variable {stack : List (BitVec 64)}
variable {t : State σ}
variable {op : Op}
variable {d : InstructionData}
variable {em : JitEmitter}
variable {m : X86.Machine (State σ)}
variable {f : BitVec 64 → BitVec 64 → BitVec 64}

/- Next to `x0` the immediate, next to zero the source. -/
theorem Holds.i_shortcut
    (h : Holds P stack t em m)
    (hRd : d.rd ≠ 0)
    (hHeld : ∀ r ∈ iOperands true d, r ≠ 0 →
      ∃ i, em.slot i = some r)
    (hImm : imm32 d.imm = d.imm)
    (hAny : d.rs1 = 0 ∨ d.imm = 0)
    (emitOp : IOp) :
    ∃ m', (jitEnv P).Runs (em.iBody true emitOp d) m m' ∧
      Holds P stack
        (t.setGpr d.rd
          (if d.rs1 = 0 then d.imm else t.gpr d.rs1))
        (em.setDirty d.rd) m' := by
  unfold iOperands at hHeld
  by_cases hRs1 : d.rs1 = 0
  · simp only [hRs1, decide_true, Bool.and_self, if_true,
      List.forall_mem_singleton] at hHeld
    rcases hHeld hRd with ⟨i, hSlot⟩
    rw [if_pos hRs1]
    by_cases hNone : d.imm = 0
    · have hCode : em.iBody true emitOp d =
          xorRr (em.vregs d.rd).hostReg
            (em.vregs d.rd).hostReg := by
        unfold iBody
        simp only [hRs1, hNone, decide_true, Bool.and_self,
          if_true]
      rw [hCode]
      exact h.clear hSlot hNone
    · have hCode : em.iBody true emitOp d =
          movImm32 (em.vregs d.rd).hostReg
            (d.imm.setWidth 32) := by
        unfold iBody
        simp only [hRs1, hNone, decide_true, decide_false,
          Bool.and_true, Bool.and_false, Bool.false_eq_true,
          if_true, if_false]
      have hSets := sets_movImm32 (E := jitEnv P) m
        (hostOf i) (d.imm.setWidth 32)
      have hWide : (d.imm.setWidth 32).signExtend 64 = d.imm :=
        hImm
      rw [hWide] at hSets
      rw [hCode, (h.wf.operand hSlot).host]
      exact h.sets hSlot hSets
  · have hNone := hAny.resolve_left hRs1
    have hCode : em.iBody true emitOp d =
        mov (em.vregs d.rd).hostReg
          (em.vregs d.rs1).hostReg := by
      unfold iBody
      simp only [hRs1, hNone, decide_true, decide_false,
        Bool.and_true, Bool.and_false, Bool.false_eq_true,
        if_true, if_false]
    simp only [hRs1, decide_false, Bool.and_false,
      Bool.false_eq_true, if_false,
      List.forall_mem_cons] at hHeld
    rcases hHeld.1 hRd with ⟨i, hSlot⟩
    rcases hHeld.2.1 hRs1 with ⟨j, hSlot'⟩
    rw [hCode, if_neg hRs1]
    exact h.copy hSlot hSlot' rfl

/- The frame that loads the immediate next to `x0`. -/
theorem Holds.i_copies
    (h : Holds P stack t em m)
    (hZero : t.gpr 0 = 0)
    (hRd : d.rd ≠ 0)
    (hHeld : ∀ r ∈ iOperands true d, r ≠ 0 →
      ∃ i, em.slot i = some r)
    {emitOp : IOp}
    (hComputes : IComputes emitOp f)
    (hImm : imm32 d.imm = d.imm)
    (hFirst : d.rs1 = 0 → f 0 d.imm = d.imm)
    (hSecond : d.imm = 0 → f (t.gpr d.rs1) 0 = t.gpr d.rs1) :
    ∃ m', (jitEnv P).Runs (em.iBody true emitOp d) m m' ∧
      Holds P stack
        (t.setGpr d.rd (f (t.gpr d.rs1) d.imm))
        (em.setDirty d.rd) m' := by
  by_cases hAny : d.rs1 = 0 ∨ d.imm = 0
  · have hValue : f (t.gpr d.rs1) d.imm =
        if d.rs1 = 0 then d.imm else t.gpr d.rs1 := by
      by_cases hRs1 : d.rs1 = 0
      · rw [if_pos hRs1, hRs1, hZero]
        exact hFirst hRs1
      · have hNone := hAny.resolve_left hRs1
        rw [if_neg hRs1, hNone]
        exact hSecond hNone
    rw [hValue]
    exact h.i_shortcut hRd hHeld hImm hAny emitOp
  · rcases not_or.mp hAny with ⟨hRs1, hNone⟩
    unfold iOperands at hHeld
    simp only [hRs1, decide_false, Bool.and_false,
      Bool.false_eq_true, if_false,
      List.forall_mem_cons] at hHeld
    rcases hHeld.1 hRd with ⟨i, hSlot⟩
    rcases hHeld.2.1 hRs1 with ⟨j, hSlot'⟩
    exact h.i_body hSlot hSlot' hComputes fun _ => hSecond

/- The code of `ANDI`. -/
def andiOp : IOp :=
  fun rd rs1 imm =>
    if rs1.isZero || imm = 0 then
      xorRr rd.hostReg rd.hostReg
    else
      immOp (imm32Op andRimm32) rd rs1 imm

theorem execjitANDI_eq :
    execjitANDI = iTemplate false andiOp :=
  rfl

/- `ANDI` with `x0` is zero. -/
theorem Holds.i_and
    (h : Holds P stack t em m)
    (hZero : t.gpr 0 = 0)
    (hRd : d.rd ≠ 0)
    (hHeld : ∀ r ∈ iOperands false d, r ≠ 0 →
      ∃ i, em.slot i = some r) :
    ∃ m', (jitEnv P).Runs (em.iBody false andiOp d) m m' ∧
      Holds P stack
        (t.setGpr d.rd (t.gpr d.rs1 &&& imm32 d.imm))
        (em.setDirty d.rd) m' := by
  have hOperands : iOperands false d = [d.rd, d.rs1] := rfl
  simp only [hOperands, List.forall_mem_cons] at hHeld
  rcases hHeld.1 hRd with ⟨i, hSlot⟩
  by_cases hRs1 : d.rs1 = 0
  · have hCode : em.iBody false andiOp d =
          xorRr (em.vregs d.rd).hostReg
            (em.vregs d.rd).hostReg := by
      have hIsZero : ((em.vregs d.rs1).isZero ||
          decide (d.imm = 0)) = true := by
        rw [h.wf.isZero, Bool.or_eq_true, decide_eq_true_eq]
        exact .inl hRs1
      exact if_pos hIsZero
    rw [hCode]
    refine h.clear hSlot ?_
    rw [hRs1, hZero]
    exact BitVec.zero_and
  · rcases hHeld.2.1 hRs1 with ⟨j, hSlot'⟩
    exact h.i_body hSlot hSlot' .andi nofun

/- The code of a comparison of `x0` with an immediate. -/
theorem JitEmitter.Wf.iBody_slti
    (hWf : em.Wf)
    {i : Fin 8}
    (hSlot : em.slot i = some d.rd)
    (hRs1 : d.rs1 = 0)
    {set : BitVec 8 → Code} :
    em.iBody false (sltiOp set) d =
      clearZero (em.vregs 0) ++
        (movImm64 REG_RCX d.imm ++
          (RiscvEm.cmp (hostByte 7) (hostByte 1) ++
            set (hostByte (hostOf i)) ++
            movzx (hostByte (hostOf i))
              (hostByte (hostOf i)))) := by
  have hCmp : RiscvEm.cmp (em.vregs 0).hostReg REG_RCX =
      RiscvEm.cmp (hostByte 7) (hostByte 1) := by
    rw [hWf.zeroHost]
    rfl
  rw [← hCmp, ← (hWf.operand hSlot).host, ← hRs1]
  simp [iBody, sltiOp, clearZero]

/- `RDI` is compared with the immediate in `RCX`. -/
theorem sets_compareImm
    {set : BitVec 8 → Code}
    {c : Cond}
    (hDecodes : ∀ d, decode (set (hostByte d)) =
      some (.setcc c d, []))
    (m : X86.Machine (State σ))
    (i : Fin 8)
    (imm : BitVec 64) :
    Sets (jitEnv P)
      (movImm64 REG_RCX imm ++
        (RiscvEm.cmp (hostByte 7) (hostByte 1) ++
          set (hostByte (hostOf i)) ++
          movzx (hostByte (hostOf i)) (hostByte (hostOf i))))
      (hostOf i)
      (if c.holds (subFlags (m.regs 7) imm) then 1 else 0)
      m := by
  have hMov : (jitEnv P).Runs (movImm64 REG_RCX imm) m
      (m.setReg 1 imm) :=
    .instr (decode_movImm64_rcx imm) rfl
  have hSets := sets_compare (E := jitEnv P) hDecodes
    (m.setReg 1 imm) (hostOf i) 7 1
  rw [Machine.setReg_self,
    Machine.setReg_of_ne (by decide)] at hSets
  exact hSets.after hMov (.setRcx m _ _)

/- A comparison with the immediate. -/
theorem Holds.i_compares
    (h : Holds P stack t em m)
    (hZero : t.gpr 0 = 0)
    (hRd : d.rd ≠ 0)
    (hGranted : ∀ r ∈ iOperands false d, em.Granted r)
    (hClears : d.rs1 = 0 →
      em.Clears t d.rd [d.rs1] (f (t.gpr d.rs1) d.imm))
    {set : BitVec 8 → Code}
    {c : Cond}
    (hDecodes : ∀ d, decode (set (hostByte d)) =
      some (.setcc c d, []))
    (hValue : ∀ a b, f a b =
      if c.holds (subFlags a b) then 1 else 0) :
    ∃ m', (jitEnv P).Runs (em.iBody false (sltiOp set) d) m
        m' ∧
      Holds P stack
        (t.setGpr d.rd (f (t.gpr d.rs1) d.imm))
        (em.setDirty d.rd) m' := by
  have hOperands : iOperands false d = [d.rd, d.rs1] := rfl
  simp only [hOperands, List.forall_mem_cons] at hGranted
  rcases hGranted with ⟨hFirst, hSecond, -⟩
  rcases hFirst.resolve_left hRd with ⟨i, hSlot⟩
  by_cases hRs1 : d.rs1 = 0
  · rw [h.wf.iBody_slti hSlot hRs1]
    refine h.cleared hSlot (hClears hRs1) hZero
      (sets_clearZero h.wf m) ?_
    intro m₁ hSources
    have hSource : m₁.regs 7 = t.gpr d.rs1 :=
      (hSources d.rs1 (by simp) 7 (hRs1 ▸ .zero)).resolve_right
        fun hLost => hRd (hLost.1.symm.trans hRs1)
    rw [← hSource, hValue]
    exact sets_compareImm hDecodes m₁ i d.imm
  · rcases hSecond.resolve_left hRs1 with ⟨j, hSlot'⟩
    have hComputes := (IComputes.slti hDecodes).of_eq
      fun a b => (hValue a b).symm
    exact h.i_body hSlot hSlot' hComputes
      fun hTrue => absurd hTrue Bool.false_ne_true

end RiscvEm

------------------------------------------------------------
-- Stores Against The Interpreter
------------------------------------------------------------

namespace RiscvEm

variable {σ : Type}
variable {P : Platform σ}
variable {t u u' : State σ}

/-
  The guest sees no difference: equal registers but for `x0`,
  equal memory and devices, on the same hart.
-/
structure SameGuest
    (t u : State σ) : Prop where
  gpr : ∀ r, r ≠ 0 → t.gpr r = u.gpr r
  mem : t.mem = u.mem
  world : t.world = u.world
  self : t.self = u.self

/-
  Where the code of a store and `MMIO::write` go the same
  way: to RAM, or past `memsize` to one device.
-/
def StoreAgrees
    (P : Platform σ)
    (addr : BitVec 64)
    (size : MemorySize) : Prop :=
  takesDram P addr size ∨
    (¬ addr - 0x80000000 ≤ P.memsize ∧
      P.devs.find? (·.inReadWindow addr size) =
        P.devs.find? (·.inWriteWindow addr size))

/- A store into RAM that was done lies in it. -/
theorem storeRam_of_store
    {addr val : BitVec 64}
    {size : MemorySize}
    {mem : MemoryMap}
    (hRam : t.mem.HasRam P.memsize)
    (hDram : takesDram P addr size)
    (hStore : t.mem.store addr (size.bytes * 8) val =
      .ok mem) :
    (addr - 0x80000000).toNat + size.bytes ≤
        P.memsize.toNat ∧
      ∃ t', t.storeRam (addr - 0x80000000).toNat size.bytes
          val = some t' ∧
        t'.hart = t.hart ∧ t'.mem = mem ∧
        t'.world = t.world ∧ t'.self = t.self := by
  rcases hRam with ⟨i, r, hDirect, hGet, hBase, hSize⟩
  rcases MemoryMap.store_cases (widthBytes_bytes size) hStore
    with ⟨j, q, hFind, hGet', -, hFit, hMem⟩
  rw [MemoryMap.findRegion_ram hDirect addr hDram.1] at hFind
  cases hFind
  cases hGet.symm.trans hGet'
  rw [hBase, hSize] at hFit
  have hOk : t.mem.ram = .ok r := by
    simp [MemoryMap.ram, hDirect, hGet]
  refine ⟨hFit, ?_⟩
  unfold State.storeRam
  rw [hOk]
  refine ⟨_, rfl, rfl, ?_, rfl, rfl⟩
  rw [hMem, ← hBase]
  show t.mem.setRam _ = _
  simp only [MemoryMap.setRam, hDirect]

/- The compiled store does what a successful write does. -/
theorem storeStep_of_write
    {addr val : BitVec 64}
    {size : MemorySize}
    {out : MemoryReturn}
    (hMem : t.mem = u.mem)
    (hWorld : t.world = u.world)
    (hRam : u.mem.HasRam P.memsize)
    (hAgrees : StoreAgrees P addr size)
    (hWrite : u.mmioWrite P addr size val = .ok (out, u'))
    (hOk : out.isSuccess = true) :
    ∃ t', storeStep P size (addr - 0x80000000) val t =
        some t' ∧
      t'.hart = t.hart ∧ t'.mem = u'.mem ∧
      t'.world = u'.world ∧ u'.gpr = u.gpr ∧
      t'.self = t.self ∧ u'.self = u.self := by
  unfold storeStep
  rcases State.mmioWrite_steps hWrite with
    ⟨hDram, -, mem, jctx, hStore, -, rfl⟩ |
      ⟨hNot, -, dev, world, mem, hFind, hDev, rfl⟩ |
        ⟨-, -, rfl, -⟩
  · rw [← hMem] at hRam hStore
    rcases storeRam_of_store hRam hDram hStore with
      ⟨hIn, t', hStep, hHart, hMem', hWorld', hSelf⟩
    have hFast : addr - 0x80000000 ≤ P.memsize := by
      rw [BitVec.le_def]
      omega
    rw [if_pos hFast, if_pos hIn]
    exact ⟨t', hStep, hHart, hMem', hWorld'.trans hWorld, rfl,
      hSelf, rfl⟩
  · rcases hAgrees with hDram | ⟨hSlow, hSame⟩
    · exact absurd hDram hNot
    · have hAddr : addr - 0x80000000 + 0x80000000 = addr :=
        BitVec.sub_add_cancel addr _
      rw [if_neg hSlow]
      unfold jitSlowStore
      dsimp only
      rw [hAddr, hSame, hFind, hMem, hWorld]
      dsimp only
      rw [hDev]
      exact ⟨_, rfl, rfl, rfl, rfl, rfl, rfl, rfl⟩
  · cases hOk

end RiscvEm

------------------------------------------------------------
-- When It Does Not Show
------------------------------------------------------------

namespace RiscvEm

open JitEmitter

variable {σ : Type}

/-
  When the operands have their host registers, `RDI` holds
  none of the sources, and nothing else but the destination.
-/
def Emission.Spare
    (e : Emission)
    (sources : List (BitVec 5)) : Prop :=
  ∀ em₁ blk₁, e.em.Grants e.blk (e.data.rd :: sources) em₁
      blk₁ → em₁.Spare e.data.rd sources

/-
  The condition under which the code of an instruction has
  the effect of the instruction, in the state before it.

  An operand or an immediate that is copied next to `x0` or
  to a zero immediate has to be the result. A comparison that
  clears `RDI` for `x0` needs it. The base of a store is not
  `x0`, and a store past `memsize` is to one device, with
  nothing in the registers that the slow function changes, by
  a hart that has not been moved since its construction.
-/
inductive Faithful
    (P : Platform σ)
    (e : Emission)
    (t : State σ) : Prop
  | ignored
      (kind : storeParts e.op = none)
      (noRd : e.data.rd = 0)
  | r {f : BitVec 64 → BitVec 64 → BitVec 64}
      (value : rValue e.op = some f)
      (first : copiesOperand e.op = true →
        e.data.rs1 = 0 →
          f 0 (t.gpr e.data.rs2) = t.gpr e.data.rs2)
      (second : copiesOperand e.op = true →
        e.data.rs2 = 0 →
          f (t.gpr e.data.rs1) 0 = t.gpr e.data.rs1)
      (spare : compares e.op = true →
        e.data.rs1 = 0 ∨ e.data.rs2 = 0 →
          e.Spare [e.data.rs1, e.data.rs2])
  | i {optimize : Bool}
      {f : BitVec 64 → BitVec 64 → BitVec 64}
      (value : iValue e.op = some (optimize, f))
      (first : optimize = true → e.data.rs1 = 0 →
        f 0 e.data.imm = e.data.imm)
      (second : optimize = true → e.data.imm = 0 →
        f (t.gpr e.data.rs1) 0 = t.gpr e.data.rs1)
      (spare : compares e.op = true → e.data.rs1 = 0 →
        e.Spare [e.data.rs1])
  | s {fastMov : FastMov} {size : MemorySize}
      (parts : storeParts e.op = some (fastMov, size))
      (base : e.data.rs1 ≠ 0)
      (ram : t.mem.HasRam P.memsize)
      (agrees : StoreAgrees P
        (t.gpr e.data.rs1 + e.data.imm) size)
      (kept : ¬ t.gpr e.data.rs1 + e.data.imm - 0x80000000 ≤
          P.memsize →
        OwnContext P t ∧
        ∀ em₁ blk₁,
          e.em.Grants e.blk [e.data.rs1, e.data.rs2] em₁ blk₁ →
            ∀ i r, em₁.slot i = some r →
              lostInCall (hostOf i) = true →
                P.clobber (hostOf i) = t.gpr r)

/- A condition on an instruction in the state before it. -/
abbrev EmissionCondition (σ : Type) :=
  Emission → State σ → Prop

/-
  Executing the instructions one after the other: each tick
  clears `x0` first, and none raises an exception.
-/
inductive Interpreted
    (P : Platform σ)
    (ok : EmissionCondition σ) :
    List Emission → State σ → State σ → Prop
  | start (s : State σ) : Interpreted P ok [] s s
  | instr {es : List Emission} {e : Emission}
      {s u u' : State σ} {out : ExecReturn}
      (before : Interpreted P ok es s u)
      (hOk : ok e (u.setGpr 0 0))
      (hExec : e.op.exec P e.data (u.setGpr 0 0) =
        .ok (out, u'))
      (hSuccess : out.isSuccess = true) :
      Interpreted P ok (es ++ [e]) s (u'.retire out)

end RiscvEm

------------------------------------------------------------
-- One Instruction
------------------------------------------------------------

namespace RiscvEm

open JitEmitter

variable {σ : Type}
variable {P : Platform σ}
variable {s t t' u u' : State σ}
variable {m : X86.Machine (State σ)}
variable {em' : JitEmitter}
variable {blk' : JitBlock}
variable {e : Emission}
variable {out : ExecReturn}
variable {template : JitTemplate}
variable {f : BitVec 64 → BitVec 64 → BitVec 64}

theorem SameGuest.retire
    (h : SameGuest t u)
    (out : ExecReturn) :
    SameGuest t (u.retire out) :=
  ⟨h.gpr, h.mem, h.world, h.self⟩

theorem SameGuest.zeroed
    (h : SameGuest t u) :
    SameGuest t (u.setGpr 0 0) := by
  refine ⟨?_, h.mem, h.world, h.self⟩
  intro r hr
  rw [h.gpr r hr]
  exact (Function.update_of_ne hr _ _).symm

theorem SameGuest.values
    (h : SameGuest t u)
    (hZero : t.gpr 0 = 0) :
    ∀ r, (u.setGpr 0 0).gpr r = t.gpr r := by
  intro r
  by_cases hr : r = 0
  · subst hr
    rw [hZero]
    exact Function.update_self 0 (0 : BitVec 64) u.hart.GPR
  · exact (h.zeroed.gpr r hr).symm

theorem SameGuest.setGpr
    (h : SameGuest t u)
    (rd : BitVec 5)
    (v : BitVec 64) :
    SameGuest (t.setGpr rd v) (u.setGpr rd v) := by
  refine ⟨?_, h.mem, h.world, h.self⟩
  intro r hr
  show Function.update t.hart.GPR rd v r =
    Function.update u.hart.GPR rd v r
  by_cases hEq : r = rd
  · subst hEq
    rw [Function.update_self, Function.update_self]
  · rw [Function.update_of_ne hEq, Function.update_of_ne hEq]
    exact h.gpr r hr

/- Writes to `x0` do not count. -/
theorem SameGuest.setZero
    (h : SameGuest t u)
    (v : BitVec 64) :
    SameGuest t (u.setGpr 0 v) := by
  refine ⟨?_, h.mem, h.world, h.self⟩
  intro r hr
  rw [h.gpr r hr]
  exact (Function.update_of_ne hr _ _).symm

/- Operands first, then the code behind them. -/
theorem Arrived.behind
    (h : Arrived P s t e.em e.blk m)
    {em₁ em₂ : JitEmitter}
    {blk₁ : JitBlock}
    {rs : List (BitVec 5)}
    (hGrants : e.em.Grants e.blk rs em₁ blk₁)
    (hFew : rs.length ≤ 3)
    {code : Code}
    (hBody : ∀ m₁, Holds P (savedRegs P) t em₁ m₁ →
      ∃ m', (jitEnv P).Runs code m₁ m' ∧
        Holds P (savedRegs P) t' em₂ m') :
    ∃ m', Arrived P s t' em₂ (blk₁.emit code) m' := by
  rcases h.grants hGrants hFew with ⟨m₁, hArrived⟩
  rcases hBody m₁ hArrived.holds with ⟨m', hRuns, hHolds⟩
  exact ⟨m', hArrived.runs.append hRuns, hHolds,
    hArrived.labels⟩

/- A register-register instruction. -/
theorem Arrived.rType
    (h : Arrived P s t e.em e.blk m)
    (hZero : t.gpr 0 = 0)
    (hRd : e.data.rd ≠ 0)
    (hValue : rValue e.op = some f)
    (hFirst : copiesOperand e.op = true → e.data.rs1 = 0 →
      f 0 (t.gpr e.data.rs2) = t.gpr e.data.rs2)
    (hSecond : copiesOperand e.op = true → e.data.rs2 = 0 →
      f (t.gpr e.data.rs1) 0 = t.gpr e.data.rs1)
    (hClears : compares e.op = true →
      e.data.rs1 = 0 ∨ e.data.rs2 = 0 →
        ∀ em₁ blk₁, e.em.Grants e.blk
          [e.data.rd, e.data.rs1, e.data.rs2] em₁ blk₁ →
          em' = em₁.setDirty e.data.rd →
            em₁.Clears t e.data.rd [e.data.rs1, e.data.rs2]
              (f (t.gpr e.data.rs1) (t.gpr e.data.rs2)))
    (hEntry : conversionTbl P.host.slow e.op = some template)
    (hEmit : template e.data e.em e.blk = .ok (em', blk')) :
    ∃ m', Arrived P s
      (t.setGpr e.data.rd
        (f (t.gpr e.data.rs1) (t.gpr e.data.rs2)))
      em' blk' m' := by
  have hFrame := fun optimize emitOp =>
    instEmitRType_spec h.holds.wf e.blk hRd optimize emitOp
  cases rShape hValue P.host.slow with
  | copies hKind hTable hComputes =>
      cases hEntry.symm.trans hTable
      rcases hFrame true _ with ⟨em₁, blk₁, hGrants, hEq⟩
      cases hEq.symm.trans hEmit
      refine h.behind hGrants (rOperands_length _ _) ?_
      intro m₁ hHolds
      exact hHolds.r_copies hZero hRd
        (hGrants.held h.holds.wf (rOperands_length _ _))
        hComputes (hFirst hKind) (hSecond hKind)
  | and hAnd =>
      rw [hAnd] at hEntry hValue
      cases hValue
      cases hEntry
      rw [execjitAND_eq] at hEmit
      rcases hFrame false andOp with ⟨em₁, blk₁, hGrants, hEq⟩
      cases hEq.symm.trans hEmit
      refine h.behind hGrants (rOperands_length _ _) ?_
      intro m₁ hHolds
      exact hHolds.r_and hZero hRd
        (hGrants.held h.holds.wf (rOperands_length _ _))
  | compares hKind hTable hDecodes hCompare =>
      cases hEntry.symm.trans hTable
      rcases hFrame false _ with ⟨em₁, blk₁, hGrants, hEq⟩
      cases hEq.symm.trans hEmit
      refine h.behind hGrants (rOperands_length _ _) ?_
      intro m₁ hHolds
      exact hHolds.r_compares hZero hRd
        (hGrants.spec h.holds.wf (rOperands_length _ _)).2.2
        (fun hAny =>
          hClears hKind hAny em₁ blk₁ hGrants rfl)
        hDecodes hCompare (rValue_clears hValue)

/- An instruction with an immediate. -/
theorem Arrived.iType
    (h : Arrived P s t e.em e.blk m)
    (hZero : t.gpr 0 = 0)
    (hRd : e.data.rd ≠ 0)
    {optimize : Bool}
    (hValue : iValue e.op = some (optimize, f))
    (hImm : imm32 e.data.imm = e.data.imm)
    (hFirst : optimize = true → e.data.rs1 = 0 →
      f 0 e.data.imm = e.data.imm)
    (hSecond : optimize = true → e.data.imm = 0 →
      f (t.gpr e.data.rs1) 0 = t.gpr e.data.rs1)
    (hClears : compares e.op = true → e.data.rs1 = 0 →
      ∀ em₁ blk₁, e.em.Grants e.blk
        [e.data.rd, e.data.rs1] em₁ blk₁ →
        em' = em₁.setDirty e.data.rd →
          em₁.Clears t e.data.rd [e.data.rs1]
            (f (t.gpr e.data.rs1) e.data.imm))
    (hEntry : conversionTbl P.host.slow e.op = some template)
    (hEmit : template e.data e.em e.blk = .ok (em', blk')) :
    ∃ m', Arrived P s
      (t.setGpr e.data.rd (f (t.gpr e.data.rs1) e.data.imm))
      em' blk' m' := by
  have hFrame := fun optimize emitOp =>
    instEmitIType_spec h.holds.wf e.blk hRd optimize emitOp
  cases optimize with
  | true =>
      rcases conversionTbl_i hValue P.host.slow with
        ⟨emitOp, hTable, hComputes⟩
      cases hEntry.symm.trans hTable
      rcases hFrame true emitOp with ⟨em₁, blk₁, hGrants, hEq⟩
      cases hEq.symm.trans hEmit
      refine h.behind hGrants (iOperands_length _ _) ?_
      intro m₁ hHolds
      exact hHolds.i_copies hZero hRd
        (hGrants.held h.holds.wf (iOperands_length _ _))
        hComputes hImm (hFirst rfl) (hSecond rfl)
  | false =>
      rcases iShape hValue P.host.slow with
        hAnd | ⟨hKind, set, c, hTable, hDecodes, hCompare⟩
      · rw [hAnd] at hEntry hValue
        cases hValue
        cases hEntry
        rw [execjitANDI_eq] at hEmit
        rcases hFrame false andiOp with ⟨em₁, blk₁, hGrants, hEq⟩
        cases hEq.symm.trans hEmit
        refine h.behind hGrants (iOperands_length _ _) ?_
        intro m₁ hHolds
        exact hHolds.i_and hZero hRd
          (hGrants.held h.holds.wf (iOperands_length _ _))
      · cases hEntry.symm.trans hTable
        rcases hFrame false _ with ⟨em₁, blk₁, hGrants, hEq⟩
        cases hEq.symm.trans hEmit
        refine h.behind hGrants (iOperands_length _ _) ?_
        intro m₁ hHolds
        exact hHolds.i_compares hZero hRd
          (hGrants.spec h.holds.wf
            (iOperands_length _ _)).2.2
          (fun hRs1 =>
            hClears hKind hRs1 em₁ blk₁ hGrants rfl)
          hDecodes hCompare

end RiscvEm

------------------------------------------------------------
-- One Step
------------------------------------------------------------

namespace RiscvEm

open JitEmitter

variable {σ : Type}
variable {P : Platform σ}
variable {s t t' u u' : State σ}
variable {m : X86.Machine (State σ)}
variable {em' : JitEmitter}
variable {blk' : JitBlock}
variable {e : Emission}
variable {out : ExecReturn}
variable {template : JitTemplate}

theorem imm32_immS
    (w : BitVec 32) :
    imm32 (immS w) = immS w :=
  imm32_signExtend _

theorem storeOffset_eq
    {imm : BitVec 64}
    (h : imm32 imm = imm)
    (base : BitVec 64) :
    storeOffset base imm = base + imm - 0x80000000 := by
  unfold storeOffset
  rw [h]
  bv_omega

theorem hasTemplate_of_i
    {op : Op}
    {x : Bool × (BitVec 64 → BitVec 64 → BitVec 64)}
    (h : iValue op = some x) :
    hasTemplate op = true := by
  cases op <;> cases h <;> rfl

theorem hasTemplate_of_s
    {op : Op}
    {x : FastMov × MemorySize}
    (h : storeParts op = some x) :
    hasTemplate op = true := by
  cases op <;> cases h <;> rfl

theorem Emission.InTable.immOf
    (h : e.InTable)
    {x : Bool × (BitVec 64 → BitVec 64 → BitVec 64)}
    (hValue : iValue e.op = some x) :
    e.data.imm = RiscvEm.immOf e.op e.data.inst := by
  rcases h.imm (hasTemplate_of_i hValue) with
    ⟨f, hMem, hImm⟩
  have hSpec := (jitImmediates_spec _ hMem).1
    (hValue ▸ rfl)
  change f = RiscvEm.immOf e.op at hSpec
  rw [hImm, hSpec]

theorem Emission.InTable.immS
    (h : e.InTable)
    {x : FastMov × MemorySize}
    (hParts : storeParts e.op = some x) :
    e.data.imm = RiscvEm.immS e.data.inst := by
  rcases h.imm (hasTemplate_of_s hParts) with
    ⟨f, hMem, hImm⟩
  have hSpec := (jitImmediates_spec _ hMem).2
    (hParts ▸ rfl)
  change f = RiscvEm.immS at hSpec
  rw [hImm, hSpec]

theorem storeParts_of_r
    {op : Op}
    {f : BitVec 64 → BitVec 64 → BitVec 64}
    (h : rValue op = some f) :
    storeParts op = none := by
  cases op <;> cases h <;> rfl

theorem storeParts_of_i
    {op : Op}
    {x : Bool × (BitVec 64 → BitVec 64 → BitVec 64)}
    (h : iValue op = some x) :
    storeParts op = none := by
  cases op <;> cases h <;> rfl

theorem store_exec
    {op : Op}
    {fastMov : FastMov}
    {size : MemorySize}
    (h : storeParts op = some (fastMov, size)) :
    op.exec (σ := σ) = execSType size := by
  cases op <;> cases h <;> rfl

/- The data of a store is held, or it is that of `x0`. -/
theorem Holds.storeData
    {stack : List (BitVec 64)}
    (h : Holds P stack t em' m)
    (hZero : t.gpr 0 = 0)
    {r : BitVec 5}
    (hHeld : r ≠ 0 → ∃ i, em'.slot i = some r) :
    StoreData m (em'.vregs r) (t.gpr r) := by
  by_cases hr : r = 0
  · rw [hr, hZero]
    exact .zero (h.wf.vreg 0)
  · rcases hHeld hr with ⟨j, hSlot⟩
    rw [← h.held j _ hSlot]
    exact .reg (h.wf.operand hSlot)

/- A store. -/
theorem Arrived.store
    (h : Arrived P s t e.em e.blk m)
    (hZero : t.gpr 0 = 0)
    (hBase : e.data.rs1 ≠ 0)
    {fastMov : FastMov}
    {size : MemorySize}
    (hParts : storeParts e.op = some (fastMov, size))
    (hKept :
      ¬ storeOffset (t.gpr e.data.rs1) e.data.imm ≤ P.memsize →
        OwnContext P t ∧
        ∀ em₁ blk₁,
          e.em.Grants e.blk [e.data.rs1, e.data.rs2] em₁ blk₁ →
            ∀ i r, em₁.slot i = some r →
              lostInCall (hostOf i) = true →
                P.clobber (hostOf i) = t.gpr r)
    (hEntry : conversionTbl P.host.slow e.op = some template)
    (hEmit : template e.data e.em e.blk = .ok (em', blk'))
    (hStep : storeStep P size
      (storeOffset (t.gpr e.data.rs1) e.data.imm)
      (t.gpr e.data.rs2) t = some t') :
    ∃ m', Arrived P s t' em' blk' m' := by
  cases hEntry.symm.trans
    (conversionTbl_store hParts P.host.slow).1
  rcases jitStore_spec h.holds.wf h.labels fastMov
    (P.host.slow size) e.data with
    ⟨em₁, blk₁, hGrants, hEq⟩
  cases hEq.symm.trans hEmit
  have hFew : [e.data.rs1, e.data.rs2].length ≤ 3 := by simp
  have hHeld := hGrants.held h.holds.wf hFew
  rcases hHeld e.data.rs1 (by simp) hBase with ⟨i, hSlot⟩
  refine h.behind hGrants hFew ?_
  intro m₁ hHolds
  have hData := hHolds.storeData hZero
    (hHeld e.data.rs2 (by simp))
  rw [← hHolds.held i _ hSlot] at hKept hStep
  exact hHolds.s_body (hHolds.wf.operand hSlot).readsBase
    hData hParts (fun hSlow => ⟨(hKept hSlow).1,
      (hKept hSlow).2 em' blk₁ hGrants⟩) hStep

/- Nothing is emitted for an instruction on `x0`. -/
theorem emits_nothing
    (hKind : storeParts e.op = none)
    (hRd : e.data.rd = 0)
    (hEntry : conversionTbl P.host.slow e.op = some template)
    (hEmit : template e.data e.em e.blk = .ok (em', blk')) :
    em' = e.em ∧ blk' = e.blk := by
  rcases conversionTbl_kind hEntry with
    ⟨f, hValue⟩ | ⟨optimize, f, hValue⟩ |
      ⟨fastMov, size, hParts⟩
  · rcases conversionTbl_r hValue P.host.slow with
      ⟨optimize, emitOp, hTable, -⟩
    cases hEntry.symm.trans hTable
    have hNone : rTemplate optimize emitOp e.data e.em e.blk =
        .ok (e.em, e.blk) := if_pos hRd
    cases hNone.symm.trans hEmit
    exact ⟨rfl, rfl⟩
  · rcases conversionTbl_i hValue P.host.slow with
      ⟨emitOp, hTable, -⟩
    cases hEntry.symm.trans hTable
    have hNone : iTemplate optimize emitOp e.data e.em e.blk =
        .ok (e.em, e.blk) := if_pos hRd
    cases hNone.symm.trans hEmit
    exact ⟨rfl, rfl⟩
  · rw [hKind] at hParts
    cases hParts

/- What such an instruction does is write to `x0`. -/
theorem exec_ignored
    (hTable : e.InTable)
    (hKind : storeParts e.op = none)
    (hRd : e.data.rd = 0)
    (hEntry : conversionTbl P.host.slow e.op = some template)
    (hExec : e.op.exec P e.data u = .ok (out, u')) :
    ∃ v, u' = u.setGpr 0 v := by
  rcases conversionTbl_kind hEntry with
    ⟨f, hValue⟩ | ⟨optimize, f, hValue⟩ |
      ⟨fastMov, size, hParts⟩
  · rw [rValue_exec hValue] at hExec
    cases hExec
    rw [hRd]
    exact ⟨_, rfl⟩
  · rw [iValue_exec hValue P e.data (hTable.immOf hValue)]
      at hExec
    cases hExec
    rw [hRd]
    exact ⟨_, rfl⟩
  · rw [hKind] at hParts
    cases hParts

/-
  The code of one instruction against its execution, by the
  kinds of instructions.
-/
theorem Arrived.step
    (h : Arrived P s t e.em e.blk m)
    (hZero : t.gpr 0 = 0)
    (hSame : SameGuest t u)
    (hTable : e.InTable)
    (hFaithful : Faithful P e (u.setGpr 0 0))
    (hEntry : conversionTbl P.host.slow e.op = some template)
    (hEmit : template e.data e.em e.blk = .ok (em', blk'))
    (hExec : e.op.exec P e.data (u.setGpr 0 0) =
      .ok (out, u'))
    (hOk : out.isSuccess = true) :
    ∃ t' m', Arrived P s t' em' blk' m' ∧ t'.gpr 0 = 0 ∧
      SameGuest t' u' := by
  have hValues := hSame.values hZero
  have hZeroed := hSame.zeroed
  have hSet : ∀ v, e.data.rd ≠ 0 →
      (t.setGpr e.data.rd v).gpr 0 = 0 := by
    intro v hRd
    exact (Function.update_of_ne hRd.symm v
      t.hart.GPR).trans hZero
  by_cases hIgnored : storeParts e.op = none ∧ e.data.rd = 0
  · rcases hIgnored with ⟨hKind, hRd⟩
    rcases emits_nothing hKind hRd hEntry hEmit with
      ⟨rfl, rfl⟩
    rcases exec_ignored hTable hKind hRd hEntry hExec with
      ⟨v, rfl⟩
    exact ⟨t, m, h, hZero, hZeroed.setZero v⟩
  · cases hFaithful with
    | ignored hKind hRd => exact absurd ⟨hKind, hRd⟩ hIgnored
    | r hValue hFirst hSecond hSpare =>
        have hRd : e.data.rd ≠ 0 := fun hRd =>
          hIgnored ⟨storeParts_of_r hValue, hRd⟩
        rw [rValue_exec hValue] at hExec
        cases hExec
        simp only [hValues] at hFirst hSecond ⊢
        rcases h.rType hZero hRd hValue hFirst hSecond
          (fun hKind hAny em₁ blk₁ hGrants _ =>
            (hSpare hKind hAny em₁ blk₁ hGrants).clears t _)
          hEntry hEmit with ⟨m', hArrived⟩
        exact ⟨_, m', hArrived, hSet _ hRd,
          hZeroed.setGpr _ _⟩
    | i hValue hFirst hSecond hSpare =>
        have hRd : e.data.rd ≠ 0 := fun hRd =>
          hIgnored ⟨storeParts_of_i hValue, hRd⟩
        have hImm := hTable.immOf hValue
        rw [iValue_exec hValue P e.data hImm] at hExec
        cases hExec
        simp only [hValues] at hSecond ⊢
        have hImm32 : imm32 e.data.imm = e.data.imm := by
          rw [hImm]
          exact imm32_immOf e.op e.data.inst
        rcases h.iType hZero hRd hValue hImm32 hFirst hSecond
          (fun hKind hRs1 em₁ blk₁ hGrants _ =>
            (hSpare hKind hRs1 em₁ blk₁ hGrants).clears t _)
          hEntry hEmit with ⟨m', hArrived⟩
        exact ⟨_, m', hArrived, hSet _ hRd,
          hZeroed.setGpr _ _⟩
    | s hParts hBase hRam hAgrees hKept =>
        have hImm : imm32 e.data.imm = e.data.imm := by
          rw [hTable.immS hParts]
          exact imm32_immS e.data.inst
        have hOffset := storeOffset_eq hImm
          (t.gpr e.data.rs1)
        rw [store_exec hParts] at hExec
        rcases bind_eq_ok.mp hExec with
          ⟨⟨ret, u₁⟩, hWrite, hEnd⟩
        cases hEnd
        dsimp only at hWrite
        have hOwn : OwnContext P (u.setGpr 0 0) ↔
            OwnContext P t := by
          unfold OwnContext
          rw [hZeroed.self]
        simp only [hValues, hOwn] at hAgrees hKept hWrite
        rcases storeStep_of_write hZeroed.mem hZeroed.world
          hRam hAgrees hWrite hOk with
          ⟨t', hStep, hHart, hMem, hWorld, hGpr, hSelf, hSelf'⟩
        rw [← hOffset] at hStep hKept
        rcases h.store hZero hBase hParts hKept hEntry hEmit
          hStep with ⟨m', hArrived⟩
        have hKeeps : ∀ r, t'.gpr r = t.gpr r := by
          intro r
          show t'.hart.GPR r = t.hart.GPR r
          rw [hHart]
        refine ⟨t', m', hArrived, (hKeeps 0).trans hZero, ?_,
          hMem, hWorld,
          (hSelf.trans hZeroed.self).trans hSelf'.symm⟩
        intro r hr
        rw [hKeeps, hGpr]
        exact hZeroed.gpr r hr

end RiscvEm

------------------------------------------------------------
-- Whole Blocks
------------------------------------------------------------

namespace RiscvEm

open JitEmitter

variable {σ : Type}
variable {P : Platform σ}
variable {ok : EmissionCondition σ}
variable {slow : SlowFuncs}
variable {es : List Emission}
variable {e : Emission}
variable {em : JitEmitter}
variable {blk : JitBlock}
variable {s u : State σ}

theorem Interpreted.of_nil
    (h : Interpreted P ok [] s u) :
    u = s := by
  generalize hEs : ([] : List Emission) = es at h
  cases h with
  | start => rfl
  | instr hBefore hOk hExec hSuccess => simp at hEs

theorem Interpreted.last
    (h : Interpreted P ok (es ++ [e]) s u) :
    ∃ u₀ u' out, Interpreted P ok es s u₀ ∧
      ok e (u₀.setGpr 0 0) ∧
      e.op.exec P e.data (u₀.setGpr 0 0) = .ok (out, u') ∧
      out.isSuccess = true ∧ u = u'.retire out := by
  generalize hEs : es ++ [e] = es' at h
  cases h with
  | start => simp at hEs
  | instr hBefore hOk hExec hSuccess =>
      rcases List.append_inj' hEs rfl with ⟨rfl, hLast⟩
      cases hLast
      exact ⟨_, _, _, hBefore, hOk, hExec, hSuccess, rfl⟩

/- The code leads where the interpreter gets. -/
theorem Emitted.arrived
    (h : Emitted P.host.slow es em blk)
    (hTable : ∀ e ∈ es, e.InTable)
    (hZero : s.gpr 0 = 0)
    (hRun : Interpreted P (Faithful P) es s u) :
    ∃ t m, Arrived P s t em blk m ∧ t.gpr 0 = 0 ∧
      SameGuest t u := by
  induction h generalizing u with
  | prologue hBytes hLabels =>
      cases hRun.of_nil
      rcases arrived_prologue P s hBytes hLabels with
        ⟨m, hArrived⟩
      exact ⟨s, m, hArrived, hZero, fun _ _ => rfl, rfl, rfl,
        rfl⟩
  | counted hBefore hBytes hLabels ih =>
      rcases ih hTable hRun with
        ⟨t, m, hArrived, hStill, hSame⟩
      exact ⟨t, m, ⟨hBytes ▸ hArrived.runs, hArrived.holds,
        hLabels.trans hArrived.labels⟩, hStill, hSame⟩
  | @instr es em em' blk blk' op d template hBefore hEntry
      hEmit ih =>
      rcases hRun.last with
        ⟨u₀, u', out, hInit, hFaithful, hExec, hSuccess, rfl⟩
      rcases ih (fun e he =>
        hTable e (List.mem_append_left _ he)) hInit with
        ⟨t, m, hArrived, hStill, hSame⟩
      have hLast := hTable ⟨op, d, em, blk⟩
        (List.mem_append_right _ List.mem_cons_self)
      rcases Arrived.step (e := ⟨op, d, em, blk⟩) hArrived
        hStill hSame hLast hFaithful hEntry hEmit hExec
        hSuccess with ⟨t', m', hArrived', hStill', hSame'⟩
      exact ⟨t', m', hArrived', hStill', hSame'.retire out⟩

/- The code is paid for by its instructions. -/
theorem Emitted.bytes
    (h : Emitted slow es em blk) :
    em.Wf ∧ blk.jmpLabels = [] ∧
      blk.bytes.length + em.owed ≤ 18 + 84 * es.length := by
  induction h with
  | prologue hBytes hLabels =>
      have hCode : prologueCode.length + reset.owed = 18 := by
        decide
      refine ⟨reset_wf, hLabels, ?_⟩
      unfold rvjitEmitPrologue JitBlock.emit
      dsimp only
      rw [hBytes]
      exact hCode.le
  | counted hBefore hBytes hLabels ih =>
      rw [hBytes, hLabels]
      exact ih
  | @instr es em em' blk blk' op d template hBefore hEntry
      hEmit ih =>
      rcases ih with ⟨hWf, hLabels, hPaid⟩
      rcases (conversionTbl_bounded hEntry).emits d hWf hLabels
        with ⟨em₁, blk₁, hEq, hEmits⟩
      cases hEq.symm.trans hEmit
      rcases hEmits.paid with ⟨code, rfl, hCode⟩
      have hBytes : (blk.emit code).bytes.length =
          blk.bytes.length + code.length :=
        List.length_append
      refine ⟨hEmits.wf, hLabels, ?_⟩
      rw [List.length_append, List.length_singleton]
      omega

/- A block that is paid for runs to its end. -/
theorem Arrived.block
    {t : State σ}
    {m : X86.Machine (State σ)}
    {n : Nat}
    (h : Arrived P s t em blk m)
    (hBytes : blk.bytes.length + em.owed ≤ 18 + 84 * n)
    (hMost : n ≤ RVJIT_MAX_INSTRUCTIONS) :
    runBlock P (em.rvjitEmitEpilogue blk).bytes s =
      .ok t := by
  have hFits := (epilogue_fits h.labels hBytes hMost).2
  rcases h.epilogue (RVJIT_FUNC_SIZE + 1)
    (Nat.le_succ_of_le hFits) with ⟨m', hReturns, rfl⟩
  have hMachine : (jitEnv P).run
      (em.rvjitEmitEpilogue blk).bytes (RVJIT_FUNC_SIZE + 1) 0
        { regs := Function.update P.clobber 7 P.layout.ctx
          flags := none
          stack := []
          mem := s } = some m' := hReturns
  unfold runBlock
  dsimp only
  rw [hMachine]

/-
  A call of a block leaves the registers, the memory and the
  devices that executing its instructions leads to.
-/
theorem block_refines_interpreter
    (hEmitted : Emitted P.host.slow es em blk)
    (hTable : ∀ e ∈ es, e.InTable)
    (hMost : es.length ≤ RVJIT_MAX_INSTRUCTIONS)
    (hZero : s.gpr 0 = 0)
    (hRun : Interpreted P (Faithful P) es s u) :
    ∃ s', runBlock P (em.rvjitEmitEpilogue blk).bytes s =
        .ok s' ∧
      SameGuest s' u := by
  rcases hEmitted.arrived hTable hZero hRun with
    ⟨t, m, hArrived, -, hSame⟩
  exact ⟨t, hArrived.block hEmitted.bytes.2.2 hMost, hSame⟩

end RiscvEm
