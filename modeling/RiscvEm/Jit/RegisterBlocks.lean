import RiscvEm.Jit.RegisterPrograms

/-
  Blocks of instructions on registers against the
  interpreter. They leave the same registers where every
  instruction is compiled well, and others where the first
  one that is not ends the block, unless what it gets wrong
  is not written back.

  Key theorems include `register_blocks_equal`.
-/

------------------------------------------------------------
-- Where It Shows
------------------------------------------------------------

namespace RiscvEm

open X86 JitEmitter

variable {σ : Type}
variable {P : Platform σ}
variable {stack : List (BitVec 64)}
variable {s t u : State σ}
variable {d : InstructionData}
variable {m : X86.Machine (State σ)}
variable {em em' : JitEmitter}
variable {blk blk' : JitBlock}
variable {i : RegisterInst}
variable {f : BitVec 64 → BitVec 64 → BitVec 64}

/- What was written is read. -/
theorem gpr_setGpr_self
    (t : State σ)
    (r : BitVec 5)
    (v : BitVec 64) :
    (t.setGpr r v).gpr r = v := by
  show Function.update t.hart.GPR r v r = v
  rw [Function.update_self]

/- The other registers keep their values. -/
theorem gpr_setGpr_of_ne
    {q r : BitVec 5}
    (h : q ≠ r)
    (t : State σ)
    (v : BitVec 64) :
    (t.setGpr r v).gpr q = t.gpr q := by
  show Function.update t.hart.GPR r v q = t.hart.GPR q
  rw [Function.update_of_ne h]

/- Marking a register twice, or one that is marked. -/
theorem setDirty_setDirty
    {q rd : BitVec 5}
    (h : ((em.setDirty rd).vregs q).dirty = true) :
    (em.setDirty q).setDirty rd = em.setDirty rd := by
  by_cases hEq : q = rd
  · subst hEq
    unfold setDirty
    rw [setVReg_self, setVReg_setVReg]
  · have hSame : (em.setDirty rd).vregs q = em.vregs q :=
      setVReg_of_ne em hEq _
    rw [hSame] at h
    have hMarked : em.setDirty q = em := by
      have hVReg : { em.vregs q with dirty := true } =
          em.vregs q := by
        rw [← h]
      unfold setDirty setVReg
      rw [hVReg, Function.update_eq_self]
    rw [hMarked]

/-
  `RDI` is cleared, with a guest register in it that is
  written back, and then the destination is written.
-/
theorem Holds.clobbers
    (h : Holds P stack t em m)
    {j : Fin 8}
    {rd q : BitVec 5}
    (hSlot : em.slot j = some rd)
    (hRdi : em.slot ⟨3, by decide⟩ = some q)
    (hDirty : ((em.setDirty rd).vregs q).dirty = true)
    (hZero : t.gpr 0 = 0)
    {clear code : Code}
    {v : BitVec 64}
    (hClear : Sets (jitEnv P) clear 7 0 m)
    (hCode : ∀ m₁ : X86.Machine (State σ),
      (∀ r a, em.SourceOf r a →
        m₁.regs a = (t.setGpr q 0).gpr r) →
        Sets (jitEnv P) code (hostOf j) v m₁) :
    ∃ m', (jitEnv P).Runs (clear ++ code) m m' ∧
      Holds P stack ((t.setGpr q 0).setGpr rd v)
        (em.setDirty rd) m' := by
  rcases h.sets hRdi hClear with ⟨m₁, hRuns, hHolds⟩
  have hNone : m₁.regs 7 = 0 :=
    (hHolds.held ⟨3, by decide⟩ q hRdi).trans
      (gpr_setGpr_self t q 0)
  have hSources : ∀ r a, em.SourceOf r a →
      m₁.regs a = (t.setGpr q 0).gpr r := by
    intro r a ha
    cases ha with
    | zero =>
        have hNe : (0 : BitVec 5) ≠ q :=
          (h.wf.slot_ne_zero hRdi).symm
        rw [hNone, gpr_setGpr_of_ne hNe, hZero]
    | held hHeld => exact hHolds.held _ _ hHeld
  rcases hHolds.sets hSlot (hCode m₁ hSources) with
    ⟨m₂, hRuns', hHolds'⟩
  rw [setDirty_setDirty hDirty] at hHolds'
  exact ⟨m₂, hRuns.append hRuns', hHolds'⟩

/- A comparison of registers that loses what `RDI` holds. -/
theorem Holds.r_clobbers
    (h : Holds P stack t em m)
    (hZero : t.gpr 0 = 0)
    (hRd : d.rd ≠ 0)
    (hGranted : ∀ r ∈ rOperands false d, em.Granted r)
    (hAny : d.rs1 = 0 ∨ d.rs2 = 0)
    {q : BitVec 5}
    (hRdi : em.slot ⟨3, by decide⟩ = some q)
    (hDirty : ((em.setDirty d.rd).vregs q).dirty = true)
    {set : BitVec 8 → Code}
    {c : Cond}
    (hDecodes : ∀ d, decode (set (hostByte d)) =
      some (.setcc c d, []))
    (hValue : ∀ a b, f a b =
      if c.holds (subFlags a b) then 1 else 0) :
    ∃ m', (jitEnv P).Runs (em.rBody false (sltOp set) d) m
        m' ∧
      Holds P stack
        ((t.setGpr q 0).setGpr d.rd
          (f ((t.setGpr q 0).gpr d.rs1)
            ((t.setGpr q 0).gpr d.rs2)))
        (em.setDirty d.rd) m' := by
  have hOperands : rOperands false d =
      [d.rd, d.rs1, d.rs2] := rfl
  simp only [hOperands, List.forall_mem_cons] at hGranted
  rcases hGranted with ⟨hFirst, hSecond, hThird, -⟩
  rcases hFirst.resolve_left hRd with ⟨j, hSlot⟩
  rcases hSecond.source with ⟨a, ha⟩
  rcases hThird.source with ⟨b, hb⟩
  rw [h.wf.rBody_slt hSlot ha hb]
  refine h.clobbers hSlot hRdi hDirty hZero
    (sets_clear h.wf hAny m) ?_
  intro m₁ hSources
  rw [← hSources _ a ha, ← hSources _ b hb, hValue]
  exact sets_compare hDecodes m₁ (hostOf j) a b

/- A comparison with an immediate that does. -/
theorem Holds.i_clobbers
    (h : Holds P stack t em m)
    (hZero : t.gpr 0 = 0)
    (hRd : d.rd ≠ 0)
    (hGranted : ∀ r ∈ iOperands false d, em.Granted r)
    (hRs1 : d.rs1 = 0)
    {q : BitVec 5}
    (hRdi : em.slot ⟨3, by decide⟩ = some q)
    (hDirty : ((em.setDirty d.rd).vregs q).dirty = true)
    {set : BitVec 8 → Code}
    {c : Cond}
    (hDecodes : ∀ d, decode (set (hostByte d)) =
      some (.setcc c d, []))
    (hValue : ∀ a b, f a b =
      if c.holds (subFlags a b) then 1 else 0) :
    ∃ m', (jitEnv P).Runs (em.iBody false (sltiOp set) d) m
        m' ∧
      Holds P stack
        ((t.setGpr q 0).setGpr d.rd
          (f ((t.setGpr q 0).gpr d.rs1) d.imm))
        (em.setDirty d.rd) m' := by
  have hOperands : iOperands false d = [d.rd, d.rs1] := rfl
  simp only [hOperands, List.forall_mem_cons] at hGranted
  rcases hGranted.1.resolve_left hRd with ⟨j, hSlot⟩
  rw [h.wf.iBody_slti hSlot hRs1]
  refine h.clobbers hSlot hRdi hDirty hZero
    (sets_clearZero h.wf m) ?_
  intro m₁ hSources
  have hSource : m₁.regs 7 = (t.setGpr q 0).gpr d.rs1 :=
    hSources d.rs1 7 (hRs1 ▸ .zero)
  rw [← hSource, hValue]
  exact sets_compareImm hDecodes m₁ j d.imm

/- The shortcuts are right where the copied value is. -/
theorem shortcutOk_of_r
    (hZero : t.gpr 0 = 0)
    (hValue : rValue i.op = some f)
    (h : copiesOperand i.op = true →
      i.data.rs1 = 0 ∨ i.data.rs2 = 0 →
        f (t.gpr i.data.rs1) (t.gpr i.data.rs2) =
          t.gpr (if i.data.rs1 = 0 then i.data.rs2
            else i.data.rs1)) :
    ShortcutOk i t := by
  refine (shortcutOk_r hValue).mpr ⟨?_, ?_⟩
  · intro hKind hRs1
    have hEq := h hKind (.inl hRs1)
    rw [if_pos hRs1, hRs1, hZero] at hEq
    exact hEq
  · intro hKind hRs2
    have hEq := h hKind (.inr hRs2)
    by_cases hRs1 : i.data.rs1 = 0
    · rw [if_pos hRs1, hRs1, hRs2, hZero] at hEq
      rw [hRs1, hZero]
      exact hEq
    · rw [if_neg hRs1, hRs2, hZero] at hEq
      exact hEq

/- So are those of an immediate. -/
theorem shortcutOk_of_i
    {optimize : Bool}
    (hZero : t.gpr 0 = 0)
    (hValue : iValue i.op = some (optimize, f))
    (hImm : imm32 i.data.imm = i.data.imm)
    (h : optimize = true →
      i.data.rs1 = 0 ∨ i.data.imm = 0 →
        f (t.gpr i.data.rs1) i.data.imm =
          if i.data.rs1 = 0 then i.data.imm
          else t.gpr i.data.rs1) :
    ShortcutOk i t := by
  refine (shortcutOk_i hValue hImm).mpr ⟨?_, ?_⟩
  · intro hKind hRs1
    have hEq := h hKind (.inl hRs1)
    rw [if_pos hRs1, hRs1, hZero] at hEq
    exact hEq
  · intro hKind hNone
    have hEq := h hKind (.inr hNone)
    by_cases hRs1 : i.data.rs1 = 0
    · rw [if_pos hRs1, hRs1, hNone, hZero] at hEq
      rw [hRs1, hZero]
      exact hEq
    · rw [if_neg hRs1, hNone] at hEq
      exact hEq

/- Only comparisons with `x0` clear `RDI`. -/
theorem compares_of_not
    (h : ¬ ComparisonOk i em t) :
    compares i.op = true ∧ (i.data.rs1 = 0 ∨
      ((rValue i.op).isSome = true ∧ i.data.rs2 = 0)) := by
  rcases i with ⟨op, d, hRegisters⟩
  unfold ComparisonOk at h
  cases hRdi : em.inRdi with
  | none =>
      rw [hRdi] at h
      exact absurd trivial h
  | some q =>
      rw [hRdi] at h
      cases op
      case SLT | SLTU =>
        refine ⟨rfl, ?_⟩
        by_contra hNone
        rw [not_or, not_and] at hNone
        exact h fun hAny => absurd hAny
          (not_or.mpr ⟨hNone.1, hNone.2 rfl⟩)
      case SLTI | SLTIU =>
        refine ⟨rfl, Or.inl ?_⟩
        by_contra hNone
        exact h fun hRs1 => absurd hRs1 hNone
      all_goals exact absurd trivial h

/- No instruction copies an operand and compares. -/
theorem compares_of_copies
    {op : Op}
    (hCompares : compares op = true) :
    copiesOperand op = true → rValue op = none := by
  intro hCopies
  cases op <;> cases hCompares <;> first | rfl | cases hCopies

/-
  A comparison that loses what `RDI` holds leaves another
  value there, or in its destination.
-/
theorem clobbered_differs
    {q rd : BitVec 5}
    {sources : List (BitVec 5)}
    {v result : BitVec 64}
    (hNot : ¬ (t.gpr q = 0 ∨
      (q = rd ∧ (q ∈ sources → result = 0))))
    (hLost : q = rd → q ∈ sources → v = 0) :
    ((t.setGpr q 0).setGpr rd v).gpr q ≠
      (t.setGpr rd result).gpr q := by
  rcases not_or.mp hNot with ⟨hValue, hRest⟩
  by_cases hEq : q = rd
  · subst hEq
    rw [gpr_setGpr_self, gpr_setGpr_self]
    intro hSame
    exact hRest ⟨rfl, fun hMem =>
      hSame.symm.trans (hLost rfl hMem)⟩
  · rw [gpr_setGpr_of_ne hEq, gpr_setGpr_self,
      gpr_setGpr_of_ne hEq]
    exact Ne.symm hValue

/- After the clearing these two registers are zero. -/
theorem gpr_cleared
    (hZero : t.gpr 0 = 0)
    {q r : BitVec 5}
    (h : r = 0 ∨ r = q) :
    (t.setGpr q 0).gpr r = 0 := by
  by_cases hEq : r = q
  · rw [hEq, gpr_setGpr_self]
  · rw [gpr_setGpr_of_ne hEq, h.resolve_right hEq, hZero]

/- One source is `x0`, so the other one is the one cleared. -/
theorem zero_and_other
    {q rs1 rs2 : BitVec 5}
    (hNe : q ≠ 0)
    (hAny : rs1 = 0 ∨ rs2 = 0)
    (hMem : q ∈ [rs1, rs2]) :
    (rs1 = 0 ∨ rs1 = q) ∧ (rs2 = 0 ∨ rs2 = q) := by
  simp only [List.mem_cons, List.not_mem_nil, or_false]
    at hMem
  rcases hAny with rfl | rfl
  · exact ⟨Or.inl rfl, Or.inr (hMem.resolve_left hNe).symm⟩
  · exact ⟨Or.inr (hMem.resolve_right hNe).symm, Or.inl rfl⟩

/- Where the code of two registers shows a difference. -/
theorem Arrived.rShows
    {template : JitTemplate}
    (h : Arrived P s t em blk m)
    (hZero : t.gpr 0 = 0)
    (hValue : rValue i.op = some f)
    (hEntry : conversionTbl P.host.slow i.op = some template)
    (hEmit : template i.data em blk = .ok (em', blk'))
    (hShows : StepShows i em' t) :
    ∃ t' m' r, Arrived P s t' em' blk' m' ∧ r ≠ 0 ∧
      t'.gpr r ≠ (t.setGpr i.data.rd
        (f (t.gpr i.data.rs1) (t.gpr i.data.rs2))).gpr r := by
  rcases hShows with ⟨hRd, hWrong⟩
  have hFrame := fun optimize emitOp =>
    instEmitRType_spec h.holds.wf blk hRd optimize emitOp
  rcases hWrong with hShortcut | ⟨hComparison, hDirty⟩
  · have hCopied := mt (shortcutOk_of_r hZero hValue) hShortcut
    simp only [Classical.not_imp] at hCopied
    rcases hCopied with ⟨hKind, hAny, hNe⟩
    cases rShape hValue P.host.slow with
    | copies _ hTable =>
        cases hEntry.symm.trans hTable
        rcases hFrame true _ with ⟨em₁, blk₁, hGrants, hEq⟩
        cases hEq.symm.trans hEmit
        rcases Arrived.behind (e := ⟨i.op, i.data, em, blk⟩) h
          hGrants (rOperands_length _ _) fun m₁ hHolds =>
            hHolds.r_shortcut hZero hRd
              (hGrants.held h.holds.wf (rOperands_length _ _))
              hAny _ with ⟨m', hArrived⟩
        refine ⟨_, m', i.data.rd, hArrived, hRd, ?_⟩
        rw [gpr_setGpr_self, gpr_setGpr_self]
        exact Ne.symm hNe
    | and hAnd =>
        rw [hAnd] at hKind
        cases hKind
    | compares hCompares =>
        rw [compares_of_copies hCompares hKind] at hValue
        cases hValue
  · rcases compares_of_not hComparison with
      ⟨hCompares, hZeros⟩
    have hAny := hZeros.imp_right And.right
    rw [comparisonOk_r hValue hCompares hAny] at hComparison
    simp only [Clears, Classical.not_forall] at hComparison
    rcases hComparison with ⟨q, hRdi, hNot⟩
    cases rShape hValue P.host.slow with
    | copies hKind =>
        rw [compares_of_copies hCompares hKind] at hValue
        cases hValue
    | and hAnd =>
        rw [hAnd] at hCompares
        cases hCompares
    | compares _ hTable hDecodes hCompare =>
        cases hEntry.symm.trans hTable
        rcases hFrame false _ with ⟨em₁, blk₁, hGrants, hEq⟩
        cases hEq.symm.trans hEmit
        have hSpec := hGrants.spec h.holds.wf
          (rOperands_length false i.data)
        rcases Arrived.behind (e := ⟨i.op, i.data, em, blk⟩) h
          hGrants (rOperands_length _ _) fun m₁ hHolds =>
            hHolds.r_clobbers hZero hRd hSpec.2.2 hAny hRdi
              (hDirty q hRdi) hDecodes hCompare
          with ⟨m', hArrived⟩
        have hNe : q ≠ 0 :=
          hArrived.holds.wf.slot_ne_zero hRdi
        refine ⟨_, m', q, hArrived, hNe,
          clobbered_differs hNot ?_⟩
        intro _ hMem
        rcases zero_and_other hNe hAny hMem with
          ⟨hFirst, hSecond⟩
        rw [gpr_cleared hZero hFirst,
          gpr_cleared hZero hSecond]
        exact rValue_clears hValue

/- No instruction has two kinds. -/
theorem rValue_of_i
    {op : Op}
    {x : Bool × (BitVec 64 → BitVec 64 → BitVec 64)}
    (h : iValue op = some x) :
    rValue op = none := by
  cases op <;> cases h <;> rfl

/- Comparisons with an immediate have no shortcut. -/
theorem optimize_of_compares
    {op : Op}
    {optimize : Bool}
    (hCompares : compares op = true)
    (h : iValue op = some (optimize, f)) :
    optimize = false := by
  cases op <;> cases h <;> first | rfl | cases hCompares

/- Where the code with an immediate shows a difference. -/
theorem Arrived.iShows
    {template : JitTemplate}
    (h : Arrived P s t em blk m)
    (hZero : t.gpr 0 = 0)
    {optimize : Bool}
    (hValue : iValue i.op = some (optimize, f))
    (hImm : imm32 i.data.imm = i.data.imm)
    (hEntry : conversionTbl P.host.slow i.op = some template)
    (hEmit : template i.data em blk = .ok (em', blk'))
    (hShows : StepShows i em' t) :
    ∃ t' m' r, Arrived P s t' em' blk' m' ∧ r ≠ 0 ∧
      t'.gpr r ≠ (t.setGpr i.data.rd
        (f (t.gpr i.data.rs1) i.data.imm)).gpr r := by
  rcases hShows with ⟨hRd, hWrong⟩
  have hFrame := fun optimize emitOp =>
    instEmitIType_spec h.holds.wf blk hRd optimize emitOp
  rcases hWrong with hShortcut | ⟨hComparison, hDirty⟩
  · have hCopied := mt (shortcutOk_of_i hZero hValue hImm)
      hShortcut
    simp only [Classical.not_imp] at hCopied
    rcases hCopied with ⟨rfl, hAny, hNe⟩
    rcases conversionTbl_i hValue P.host.slow with
      ⟨emitOp, hTable, -⟩
    cases hEntry.symm.trans hTable
    rcases hFrame true emitOp with ⟨em₁, blk₁, hGrants, hEq⟩
    cases hEq.symm.trans hEmit
    rcases Arrived.behind (e := ⟨i.op, i.data, em, blk⟩) h
      hGrants (iOperands_length _ _) fun m₁ hHolds =>
        hHolds.i_shortcut hRd
          (hGrants.held h.holds.wf (iOperands_length _ _))
          hImm hAny emitOp with ⟨m', hArrived⟩
    refine ⟨_, m', i.data.rd, hArrived, hRd, ?_⟩
    rw [gpr_setGpr_self, gpr_setGpr_self]
    exact Ne.symm hNe
  · rcases compares_of_not hComparison with
      ⟨hCompares, hZeros⟩
    have hRs1 : i.data.rs1 = 0 := by
      apply hZeros.resolve_right
      rintro ⟨hSome, -⟩
      rw [rValue_of_i hValue] at hSome
      cases hSome
    rw [comparisonOk_i hValue hCompares hRd hRs1]
      at hComparison
    simp only [Clears, Classical.not_forall] at hComparison
    rcases hComparison with ⟨q, hRdi, hNot⟩
    cases optimize_of_compares hCompares hValue
    rcases iShape hValue P.host.slow with
      hAnd | ⟨-, set, c, hTable, hDecodes, hCompare⟩
    · rw [hAnd] at hCompares
      cases hCompares
    · cases hEntry.symm.trans hTable
      rcases hFrame false _ with ⟨em₁, blk₁, hGrants, hEq⟩
      cases hEq.symm.trans hEmit
      have hSpec := hGrants.spec h.holds.wf
        (iOperands_length false i.data)
      rcases Arrived.behind (e := ⟨i.op, i.data, em, blk⟩) h
        hGrants (iOperands_length _ _) fun m₁ hHolds =>
          hHolds.i_clobbers hZero hRd hSpec.2.2 hRs1 hRdi
            (hDirty q hRdi) hDecodes hCompare
        with ⟨m', hArrived⟩
      have hNe : q ≠ 0 :=
        hArrived.holds.wf.slot_ne_zero hRdi
      refine ⟨_, m', q, hArrived, hNe,
        clobbered_differs hNot ?_⟩
      intro _ hMem
      exact absurd (List.mem_singleton.mp hMem)
        (fun hEq => hNe (hEq.trans hRs1))

/- Where the code of an instruction shows a difference. -/
theorem Arrived.shows
    {u' : State σ}
    (h : Arrived P s t em blk m)
    (hZero : t.gpr 0 = 0)
    (hSame : SameGuest t u)
    (hEmit : emitAll P.host.slow [i] (em, blk) =
      some (em', blk'))
    (hExec : execAll P [i] u = .ok u')
    (hShows : StepShows i em' (u.setGpr 0 0)) :
    ∃ t' m' r, Arrived P s t' em' blk' m' ∧ r ≠ 0 ∧
      t'.gpr r ≠ u'.gpr r := by
  have hValues := hSame.values hZero
  have hSet := fun v =>
    (hSame.zeroed.setGpr i.data.rd v).gpr
  have hHere := hShows.congr hValues
  rcases emitAll_one hEmit with ⟨template, hEntry, hOne⟩
  rcases execAll_one hExec with ⟨out, hBody⟩
  rcases i.kind with ⟨f, hValue⟩ | ⟨optimize, f, hValue, hImm⟩
  · rw [rValue_exec hValue] at hBody
    cases hBody
    rcases h.rShows hZero hValue hEntry hOne hHere with
      ⟨t', m', r, hArrived, hr, hNe⟩
    refine ⟨t', m', r, hArrived, hr, ?_⟩
    simp only [hValues, ← hSet _ r hr]
    exact hNe
  · rw [iValue_exec hValue P i.data hImm] at hBody
    cases hBody
    have hWide : imm32 i.data.imm = i.data.imm := by
      rw [hImm]
      exact imm32_immOf i.op i.data.inst
    rcases h.iShows hZero hValue hWide hEntry hOne hHere with
      ⟨t', m', r, hArrived, hr, hNe⟩
    refine ⟨t', m', r, hArrived, hr, ?_⟩
    simp only [hValues, ← hSet _ r hr]
    exact hNe

end RiscvEm

------------------------------------------------------------
-- Main Result
------------------------------------------------------------

namespace RiscvEm

variable {σ : Type}
variable {P : Platform σ}
variable {s : State σ}
variable {prog : List RegisterInst}
variable {i : RegisterInst}

/- A program whose instructions are compiled well. -/
theorem StepsOk.equals
    (h : StepsOk P prog s)
    (hMost : prog.length ≤ RVJIT_MAX_INSTRUCTIONS)
    (hZero : s.gpr 0 = 0) :
    BlockEquals P prog s := by
  rcases h.arrived hZero with
    ⟨em, blk, u, t, m, hEmit, hExec, hArrived, -, hSame⟩
  rcases hArrived.blockCode hMost hEmit with ⟨hCode, hRun⟩
  exact ⟨_, t, u, hCode, hRun, hExec, hSame.gpr⟩

/- The first instruction that shows a difference. -/
theorem StepsOk.differs
    (h : StepsOk P prog s)
    (hMost : (prog ++ [i]).length ≤ RVJIT_MAX_INSTRUCTIONS)
    (hZero : s.gpr 0 = 0)
    (hShows : NextMeets P StepShows prog i s) :
    ¬ BlockEquals P (prog ++ [i]) s := by
  rcases h.arrived hZero with
    ⟨em, blk, u, t, m, hEmit, hExec, hArrived, hStill, hSame⟩
  rcases hShows with ⟨em', blk', u₀, hEmit', hExec', hNext⟩
  cases hExec.symm.trans hExec'
  have hOne := hEmit'
  rw [emitAll_append, hEmit] at hOne
  rcases i.executes (P := P) u with ⟨u', hLast⟩
  rcases hArrived.shows hStill hSame hOne hLast hNext with
    ⟨t', m', r, hArrived', hr, hNe⟩
  rcases hArrived'.blockCode hMost hEmit' with ⟨hCode, hRun⟩
  have hWhole : execAll P (prog ++ [i]) s = .ok u' := by
    rw [execAll_append, hExec]
    exact hLast
  rintro ⟨code, s', v, hCode', hRun', hExec'', hEqual⟩
  cases hCode.symm.trans hCode'
  cases hRun.symm.trans hRun'
  cases hWhole.symm.trans hExec''
  exact hNe (hEqual r hr)

/-
  Where every instruction of a program is compiled well, the
  block of every list that it begins with leaves the
  registers as the interpreter does. The block that ends with
  the first one whose difference is written back does not.
-/
theorem register_blocks_equal
    (prog : List RegisterInst)
    (s : State σ)
    (hMost : prog.length ≤ RVJIT_MAX_INSTRUCTIONS)
    (hZero : s.gpr 0 = 0) :
    (StepsOk P prog s →
      ∀ done, done <+: prog → BlockEquals P done s) ∧
      ∀ done i, done ++ [i] <+: prog → StepsOk P done s →
        NextMeets P StepShows done i s →
          ¬ BlockEquals P (done ++ [i]) s := by
  constructor
  · intro hSteps done hDone
    have hInit : StepsOk P done s := fun init i hInit =>
      hSteps init i (hInit.trans hDone)
    exact hInit.equals (hDone.length_le.trans hMost) hZero
  · intro done i hDone hSteps hShows
    exact hSteps.differs (hDone.length_le.trans hMost) hZero
      hShows

/- An instruction on registers as the decoder reads it. -/
def RegisterInst.ofWord
    (op : Op)
    (w : BitVec 32)
    (h : (rValue op).isSome = true ∨
      (iValue op).isSome = true) : RegisterInst :=
  ⟨op, operandData w (immOf op w), h.imp_right (⟨·, rfl⟩)⟩

/-
  Uses of `x0`: `addi x5, x0, 7`, `sub x6, x5, x0`,
  `slt x7, x0, x5`, `addw x8, x5, x6` and
  `sltu x8, x0, x5`, with `x8` in `RDI`.
-/
def zeroProgram : List RegisterInst :=
  [.ofWord .ADDI 0x00700293 (.inr rfl),
    .ofWord .SUB 0x40028333 (.inl rfl),
    .ofWord .SLT 0x005023B3 (.inl rfl),
    .ofWord .ADDW 0x0062843B (.inl rfl),
    .ofWord .SLTU 0x00503433 (.inl rfl)]

/- `slt x9, x0, x5`. -/
def clearingInst : RegisterInst :=
  .ofWord .SLT 0x005024B3 (.inl rfl)

/- `x8` is lost when `x0` is compared once more. -/
theorem register_blocks_equal_zeros :
    BlockEquals Platform.bare zeroProgram (State.boot []) ∧
      ¬ BlockEquals Platform.bare
        (zeroProgram ++ [clearingInst]) (State.boot []) := by
  have hZero : (State.boot []).gpr 0 = 0 := by decide
  have hSteps : StepsOk Platform.bare zeroProgram
      (State.boot []) := by
    decide +kernel
  have hShows : NextMeets Platform.bare StepShows zeroProgram
      clearingInst (State.boot []) := by
    decide +kernel
  have hEqual := (register_blocks_equal (P := Platform.bare)
    zeroProgram (State.boot []) (by decide) hZero).1 hSteps
  have hDiffers := (register_blocks_equal
    (P := Platform.bare) (zeroProgram ++ [clearingInst])
      (State.boot []) (by decide) hZero).2
  exact ⟨hEqual _ (List.prefix_refl _),
    hDiffers _ _ (List.prefix_refl _) hSteps hShows⟩

/- `sub x1, x0, x2`. -/
def negation : RegisterInst :=
  .ofWord .SUB 0x402000B3 (.inl rfl)

/- A start with one in `x2`. -/
def negatesOne : State Unit :=
  (State.boot []).setGpr 2 1

/- The value of a register after the block. -/
def blockValue
    (P : Platform σ)
    (prog : List RegisterInst)
    (s : State σ)
    (r : BitVec 5) : Option (BitVec 64) := do
  let code ← blockCode P.host.slow prog
  let s' ← (runBlock P code s).toOption
  some (s'.gpr r)

/- The block copies `x2` where the body negates it. -/
theorem negation_block_differs :
    negatesOne.gpr 0 = 0 ∧
      ¬ BlockEquals Platform.bare [negation] negatesOne := by
  refine ⟨by decide, ?_⟩
  rintro ⟨code, s', u, hCode, hRun, hExec, hEqual⟩
  have hBlock : blockValue Platform.bare [negation] negatesOne
      1 = some 1 := by
    decide +kernel
  have hBody : (execAll Platform.bare [negation]
      negatesOne).toOption.map (·.gpr 1) = some (-1) := by
    decide +kernel
  unfold blockValue at hBlock
  rw [hCode, Option.bind_eq_bind, Option.bind_some, hRun]
    at hBlock
  rw [hExec] at hBody
  have hLeft : s'.gpr 1 = 1 := Option.some.inj hBlock
  have hRight : u.gpr 1 = -1 := Option.some.inj hBody
  have hSame := hEqual 1 (by decide)
  rw [hLeft, hRight] at hSame
  exact absurd hSame (by decide)

end RiscvEm
