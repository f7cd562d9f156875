import RiscvEm.Hart.Eval
import RiscvEm.Hart.Precise

/-
  The privilege mode of a hart rises through traps only,
  except where `MRET` is executed in a mode below the one
  that `MPP` names.

  Key definitions include:
    * `Calm`
    * `MretRaises`

  Key theorems include `run_no_escalation_iff`.
-/

------------------------------------------------------------
-- Traps And Modes
------------------------------------------------------------

namespace RiscvEm

variable {σ : Type}
variable {P : Platform σ}
variable {s s' s'' : State σ}

/- How often `trap` was entered. -/
def trapCount
    (trace : List Event) : Nat :=
  trace.countP Event.isTrap

/- A trap was entered, or the mode has not risen. -/
def Calm
    (s s' : State σ) : Prop :=
  trapCount s.trace < trapCount s'.trace ∨
    (trapCount s.trace = trapCount s'.trace ∧
      s'.hart.mode ≤ s.hart.mode)

/- The order of modes is reflexive. -/
theorem PrivilegeMode.le_refl
    (m : PrivilegeMode) :
    m ≤ m :=
  Nat.le_refl m.toNat

/- The order of modes is transitive. -/
theorem PrivilegeMode.le_trans
    {a b c : PrivilegeMode}
    (h : a ≤ b)
    (h' : b ≤ c) :
    a ≤ c :=
  Nat.le_trans (n := a.toNat) (m := b.toNat) (k := c.toNat)
    h h'

/- A trap is recorded once. -/
theorem trapCount_trap
    (s : State σ)
    (cause tval : BitVec 64)
    (interrupt : Bool) :
    trapCount (s.trap cause tval interrupt).trace =
      trapCount s.trace + 1 :=
  List.countP_cons_of_pos rfl

namespace Calm

/- Calm steps compose. -/
theorem trans
    (h : Calm s s')
    (h' : Calm s' s'') :
    Calm s s'' := by
  rcases h with hLt | ⟨hEq, hMode⟩
  · rcases h' with hLt' | ⟨hEq', -⟩
    · exact Or.inl (by omega)
    · exact Or.inl (by omega)
  · rcases h' with hLt' | ⟨hEq', hMode'⟩
    · exact Or.inl (by omega)
    · exact Or.inr ⟨by omega,
        PrivilegeMode.le_trans hMode' hMode⟩

/- Nothing happened that concerns traps or modes. -/
theorem of_trapFree
    (h : TrapFree s s')
    (hMode : s'.hart.mode = s.hart.mode) :
    Calm s s' := by
  refine Or.inr ⟨(h.countP_eq fun _ he => he).symm, ?_⟩
  rw [hMode]
  exact PrivilegeMode.le_refl _

/- Nothing happens if mode and record stay. -/
theorem of_eq
    (h : s'.trace = s.trace)
    (hMode : s'.hart.mode = s.hart.mode) :
    Calm s s' :=
  of_trapFree (.of_eq h) hMode

/- Writes to registers are calm. -/
theorem of_onlyRegs
    (h : OnlyRegs s s') :
    Calm s s' :=
  of_eq h.trace h.mode

/- A trap raises the mode, but it is recorded. -/
theorem trap
    (s : State σ)
    (cause tval : BitVec 64)
    (interrupt : Bool) :
    Calm s (s.trap cause tval interrupt) := by
  left
  rw [trapCount_trap]
  omega

end Calm

/- The count never falls. -/
theorem Calm.le
    (h : Calm s s') :
    trapCount s.trace ≤ trapCount s'.trace := by
  rcases h with hLt | ⟨hEq, -⟩ <;> omega

/- Reads from memory are calm. -/
theorem State.mmioRead_calm
    {addr val : BitVec 64}
    {size : MemorySize}
    {m : MemoryReturn}
    (h : s.mmioRead P addr size = .ok (m, val, s')) :
    Calm s s' := by
  refine .of_eq (State.mmioRead_trace h) ?_
  rw [State.mmioRead_hart h]

/- Writes to memory are calm. -/
theorem State.mmioWrite_calm
    {addr val : BitVec 64}
    {size : MemorySize}
    {m : MemoryReturn}
    (h : s.mmioWrite P addr size val = .ok (m, s')) :
    Calm s s' := by
  refine .of_trapFree (State.mmioWrite_trapFree h) ?_
  rcases State.mmioWrite_cases h with
    ⟨-, -, mem, jctx, -, -, rfl⟩ |
    ⟨-, dev, world, mem, -, -, rfl⟩ | ⟨-, rfl⟩ <;> rfl

/- Zeroing a block is calm. -/
theorem zeroBytes_calm
    (n : Nat)
    {addr : BitVec 64}
    {s : State σ}
    (h : zeroBytes P addr n s = .ok s') :
    Calm s s' := by
  induction n generalizing addr s with
  | zero =>
      cases h
      exact .of_eq rfl rfl
  | succ n ih =>
      rcases bind_eq_ok.mp h with ⟨⟨m, s₁⟩, hWrite, hRest⟩
      exact (State.mmioWrite_calm hWrite).trans (ih hRest)

/- Reads of CSRs are calm. -/
theorem csrReadIf_calm
    (reads : Bool)
    (csr : BitVec 16)
    (s : State σ) :
    Calm s (csrReadIf reads csr s) := by
  unfold csrReadIf
  split
  · by_cases hDenied : State.isFloatCsr csr = true ∧
        s.hart.status.FS = 0
    · rw [State.csrRead_denied hDenied.1 hDenied.2]
      exact .trap _ _ _ _
    · rw [s.csrRead_state csr hDenied]
      exact .of_eq rfl rfl
  · exact .of_eq rfl rfl

/- A CSR written keeps the mode. -/
theorem State.setCsr_mode
    (s : State σ)
    (n : BitVec 16)
    (v : BitVec 64) :
    (s.setCsr n v).hart.mode = s.hart.mode :=
  (OnlyCsrs.setCsr s n v).mode

/- Writes of CSRs are calm. -/
theorem csrWriteIf_calm
    (writes : Bool)
    (csr : BitVec 16)
    (val : BitVec 64)
    (s : State σ) :
    Calm s (csrWriteIf writes csr val s) := by
  unfold csrWriteIf
  split
  · by_cases hDenied : State.isFloatCsr csr = true ∧
        s.hart.status.FS = 0
    · rw [State.csrWrite_denied hDenied.1 hDenied.2]
      exact .trap _ _ _ _
    · have hOnly := s.csrWrite_onlyCsrs csr val hDenied
      exact .of_eq hOnly.trace hOnly.mode
  · exact .of_eq rfl rfl

end RiscvEm

------------------------------------------------------------
-- Instructions
------------------------------------------------------------

namespace RiscvEm

variable {σ : Type}
variable {P : Platform σ}
variable {op : Op}
variable {d : InstructionData}
variable {s s' : State σ}
variable {out : ExecReturn}

/- `SRET` never raises the mode outside of U-mode. -/
theorem Hart.sret_mode_le
    {h : Hart}
    (hMode : h.mode ≠ .User) :
    h.sret.mode ≤ h.mode := by
  have hTarget : h.sret.mode ≤ .Supervisor := by
    have hEq : h.sret.mode = (sretTarget h).1 := rfl
    rw [hEq]
    unfold sretTarget
    split
    · exact Nat.zero_le 1
    · exact PrivilegeMode.le_refl _
  refine PrivilegeMode.le_trans hTarget ?_
  cases hm : h.mode with
  | User => exact absurd hm hMode
  | Supervisor | Hypervisor | Machine => decide

/- Every instruction but `MRET` is calm. -/
theorem Effect.calm_or_mret
    (h : Effect P op d s out s') :
    Calm s s' ∨
      (op = .MRET ∧ s' = s.setHart s.hart.mret) := by
  cases h with
  | mret hOp _ => exact Or.inr ⟨hOp, rfl⟩
  | regs _ hRegs => exact Or.inl (.of_onlyRegs hRegs)
  | fault _ => exact Or.inl (.of_eq rfl rfl)
  | load hRead _ _ hRegs =>
      exact Or.inl ((State.mmioRead_calm hRead).trans
        (.of_onlyRegs hRegs))
  | store hWrite _ _ hRegs =>
      exact Or.inl ((State.mmioWrite_calm hWrite).trans
        (.of_onlyRegs hRegs))
  | amo hRead _ hWrite _ _ hRegs =>
      exact Or.inl (((State.mmioRead_calm hRead).trans
        (State.mmioWrite_calm hWrite)).trans
        (.of_onlyRegs hRegs))
  | amoFault _ hRead _ _ _ _ =>
      exact Or.inl (State.mmioRead_calm hRead)
  | @lr s₁ _ addr _ size _ hRead _ _ hRegs =>
      have hLog : Calm s₁ ((s₁.setReservation
          ⟨addr, size, true⟩).log (.lr s₁.self addr size)) :=
        .of_trapFree (.of_cons rfl rfl) rfl
      exact Or.inl (((State.mmioRead_calm hRead).trans
        hLog).trans (.of_onlyRegs hRegs))
  | @sc s₁ _ addr _ size _ _ hWrite _ _ hRegs =>
      have hLog : Calm s (s.log (.sc s.self addr size true)) :=
        .of_trapFree (.of_cons rfl rfl) rfl
      have hClear : Calm s₁ s₁.clearReservation :=
        .of_eq rfl rfl
      exact Or.inl (((hLog.trans
        (State.mmioWrite_calm hWrite)).trans hClear).trans
        (.of_onlyRegs hRegs))
  | scFault _ _ _ _ =>
      exact Or.inl (.of_trapFree (.of_cons rfl rfl) rfl)
  | @scFail _ addr size _ hRegs =>
      have hLog : Calm s (s.clearReservation.log
          (.sc s.self addr size false)) :=
        .of_trapFree (.of_cons rfl rfl) rfl
      exact Or.inl (hLog.trans (.of_onlyRegs hRegs))
  | csr reads writes val _ _ _ _ _ hRead hWrite =>
      exact Or.inl ((((csrReadIf_calm reads d.csr s).trans
        (.of_onlyRegs hRead)).trans
        (csrWriteIf_calm writes d.csr val _)).trans
        (.of_onlyRegs hWrite))
  | sret hMode _ =>
      exact Or.inl (Or.inr ⟨rfl, Hart.sret_mode_le hMode⟩)
  | wfi _ _ _ => exact Or.inl (.of_eq rfl rfl)
  | fenceI _ => exact Or.inl (.of_eq rfl rfl)
  | cboRam _ _ _ =>
      exact Or.inl (.of_trapFree (.of_cons rfl rfl) rfl)
  | cboDevice hZero _ => exact Or.inl (zeroBytes_calm 64 hZero)

end RiscvEm

------------------------------------------------------------
-- Ticks
------------------------------------------------------------

namespace RiscvEm

variable {σ : Type}
variable {P : Platform σ}
variable {s s' : State σ}

/- An interrupt is taken, or traps and mode stay. -/
theorem State.preTick_cases
    (s : State σ) :
    trapCount s.trace < trapCount s.preTick.trace ∨
      (s.preTick.trace = s.trace ∧
        s.preTick.hart.mode = s.hart.mode) := by
  unfold State.preTick
  dsimp only
  generalize hq : (s.setGpr 0 0).setCsr CSR_MCYCLE _ = q
  have hTrace : q.trace = s.trace := by
    rw [← hq, State.setCsr_trace]
    rfl
  have hMode : q.hart.mode = s.hart.mode := by
    rw [← hq, State.setCsr_mode]
    rfl
  split
  · unfold State.checkInts
    split
    · left
      rw [trapCount_trap, hTrace]
      omega
    · exact Or.inr ⟨hTrace, hMode⟩
  · exact Or.inr ⟨hTrace, hMode⟩

/-
  No interrupt is taken, and the instruction that is
  executed is an `MRET` in a mode below its target.
-/
structure MretRaises
    (P : Platform σ)
    (s : State σ) : Prop where
  quiet : s.preTick.trace = s.trace
  interprets : s.Interprets
  mret : ∃ w entry i b, Fetched P s.atFetch w entry b ∧
    entry.selected = some i ∧ i.func = .MRET ∧
    s.hart.mode < (mretTarget b.hart).1

/- The state before execution, and what led to it. -/
theorem State.afterFetch_cases
    {s₁ : State σ}
    {m : MemoryReturn}
    {val : BitVec 64}
    {w : BitVec 32}
    (hRead : s.mmioRead P s.hart.pc .Int = .ok (m, val, s₁))
    (hw : w = val.setWidth 32) :
    trapCount s.trace <
        trapCount ((s₁.afterFetch m).decode w).2.trace ∨
      (Fetched P s w ((s₁.afterFetch m).decode w).1
          ((s₁.afterFetch m).decode w).2 ∧
        ((s₁.afterFetch m).decode w).2.hart = s.hart ∧
        ((s₁.afterFetch m).decode w).2.trace = s.trace) := by
  have hTrace := State.mmioRead_trace hRead
  have hHart := State.mmioRead_hart hRead
  cases hOk : m.isSuccess with
  | true =>
      have hAfter : s₁.afterFetch m = s₁ := if_pos hOk
      rw [hAfter, hw]
      exact Or.inr ⟨.mk hRead hOk, hHart, hTrace⟩
  | false =>
      have hAfter : s₁.afterFetch m =
          s₁.trap EXC_INST_ACCESS_FAULT m.tval false :=
        if_neg (by simp [hOk])
      left
      rw [hAfter, ← hTrace]
      have hCount := trapCount_trap s₁ EXC_INST_ACCESS_FAULT
        m.tval false
      have hSame : ((s₁.trap EXC_INST_ACCESS_FAULT m.tval
          false).decode w).2.trace =
          (s₁.trap EXC_INST_ACCESS_FAULT m.tval false).trace :=
        rfl
      rw [hSame, hCount]
      omega

/- Retiring an instruction keeps the mode. -/
theorem State.retire_mode
    (s : State σ)
    (out : ExecReturn) :
    (s.retire out).hart.mode = s.hart.mode :=
  s.setCsr_mode _ _

/- Retiring an instruction is calm. -/
theorem State.retire_calm
    (s : State σ)
    (out : ExecReturn)
    (j : JitContext) :
    Calm s ((s.retire out).setJctx j) :=
  .of_eq (s.retire_trace out) (s.retire_mode out)

/- What follows decoding is calm, or an `MRET`. -/
theorem State.runEntry_calm
    {entry : InstructionCache}
    {w : BitVec 32}
    {pc : BitVec 64}
    (h : s.runEntry P entry w pc = .ok s') :
    Calm s s' ∨
      (trapCount s.trace = trapCount s'.trace ∧
        (∃ i, entry.selected = some i ∧ i.func = .MRET) ∧
        s'.hart.mode = (mretTarget s.hart).1) := by
  rcases State.runEntry_cases h with
    ⟨-, rfl⟩ | ⟨i, out, s₁, hSel, hExec, hEnd⟩
  · exact Or.inl (.trap (s.setJctx s.jctx.stopBlock) _ _ _)
  · have hEnd' : Calm s₁ s' := by
      rcases hEnd with ⟨-, rfl⟩ | ⟨-, j, -, rfl⟩
      · exact .trap (s₁.setJctx s₁.jctx.stopBlock) _ _ _
      · exact s₁.retire_calm out j
    rcases (Op.exec_effect _ hExec).calm_or_mret with
      hCalm | ⟨hOp, rfl⟩
    · exact Or.inl (hCalm.trans hEnd')
    · rcases hEnd with ⟨hFail, rfl⟩ | ⟨-, j, -, rfl⟩
      · refine Or.inl (Calm.trans ?_ hEnd')
        rw [hOp] at hExec
        cases hExec
        cases hFail
      · refine Or.inr ⟨?_, ⟨i, hSel, hOp⟩, ?_⟩
        · have hTrace := (s.setHart s.hart.mret).retire_trace
            out
          exact congrArg trapCount hTrace.symm
        · exact (s.setHart s.hart.mret).retire_mode out

/- Calling a block is calm. -/
theorem State.callBlock_calm
    {f : JitFunction}
    (h : s.callBlock P f = .ok s') :
    Calm s s' := by
  rcases bind_eq_ok.mp h with ⟨s₁, hRun, hEq⟩
  have hOnly := runBlock_onlyCompiled hRun
  have hFree : TrapFree s s₁ := by
    rcases hOnly.trace with ⟨es, hTrace, hMem⟩
    refine ⟨es, hTrace, ?_⟩
    intro e he
    rcases hMem e he with ⟨addr, n, rfl⟩
    rfl
  have hMode : s₁.hart.mode = s.hart.mode := by
    rw [hOnly.hart]
    rfl
  refine (Calm.of_trapFree hFree hMode).trans ?_
  cases hEq
  split
  · exact .of_eq rfl rfl
  · exact .of_eq rfl rfl

/- The part before the dispatch is calm. -/
theorem State.preTick_calm
    (s : State σ) :
    Calm s s.preTick := by
  rcases s.preTick_cases with hLt | ⟨hTrace, hMode⟩
  · exact Or.inl hLt
  · exact .of_eq hTrace hMode

/- An `MRET` without an escalation is calm, too. -/
theorem State.tick_calm
    (h : s.tick P = .ok s')
    (hMret : ¬ MretRaises P s) :
    Calm s s' := by
  rcases State.tick_cases h with
    ⟨b, rfl⟩ | ⟨f, -, -, hCall⟩ | ⟨f, -, rfl⟩ |
    ⟨hInt, hTick⟩
  · exact s.preTick_calm.trans (.of_eq rfl rfl)
  · exact s.preTick_calm.trans (State.callBlock_calm hCall)
  · exact s.preTick_calm.trans (.of_eq rfl rfl)
  · have hStart : Calm s s.atFetch :=
      s.preTick_calm.trans (.of_eq rfl rfl)
    rcases State.interpret_cases hTick with
      ⟨m, val, s₁, hRead, hRun⟩
    generalize hw : val.setWidth 32 = w at hRun
    rcases State.afterFetch_cases hRead hw.symm with
      hLt | ⟨hFetched, hHart, hTrace⟩
    · -- the fetch trapped
      have hRest : trapCount ((s₁.afterFetch m).decode
          w).2.trace ≤ trapCount s'.trace := by
        rcases State.runEntry_calm hRun with hCalm | ⟨hEq, -⟩
        · exact hCalm.le
        · exact le_of_eq hEq
      have hLe := hStart.le
      exact Or.inl (by omega)
    · have hBefore : Calm s ((s₁.afterFetch m).decode w).2 :=
        hStart.trans (.of_eq hTrace (congrArg Hart.mode hHart))
      rcases State.runEntry_calm hRun with
        hCalm | ⟨hEq, ⟨i, hSel, hOp⟩, hMode⟩
      · exact hBefore.trans hCalm
      · -- an `MRET` that follows an interrupt does not count
        rcases s.preTick_cases with hLt | ⟨hQuiet, -⟩
        · left
          have hPre : trapCount s.preTick.trace =
              trapCount s'.trace := by
            rw [← hEq, hTrace]
            rfl
          omega
        · have hLe : ¬ s.hart.mode < s'.hart.mode := by
            rw [hMode]
            intro hRise
            exact hMret ⟨hQuiet, hInt, w, _, i, _, hFetched,
              hSel, hOp, hRise⟩
          refine Or.inr ⟨?_, Nat.not_lt.mp hLe⟩
          rw [← hEq, hTrace, ← hQuiet]
          rfl

/- An `MRET` with an escalation enters no trap. -/
theorem State.tick_raises
    (h : s.tick P = .ok s')
    (hMret : MretRaises P s) :
    TrapFree s s' ∧ s.hart.mode < s'.hart.mode := by
  rcases hMret.mret with
    ⟨w, entry, i, b, hFetched, hSel, hOp, hRise⟩
  rw [hMret.interprets.tick_eq, hFetched.interpret_eq] at h
  have hTrace : b.trace = s.trace := by
    rw [hFetched.trace]
    exact hMret.quiet
  rcases State.runEntry_cases h with
    ⟨hNone, -⟩ | ⟨i', out, s₁, hSel', hExec, hEnd⟩
  · rw [hSel] at hNone
    cases hNone
  · rw [hSel] at hSel'
    cases hSel'
    rw [hOp] at hExec
    cases hExec
    rcases hEnd with ⟨hFail, -⟩ | ⟨-, j, -, rfl⟩
    · cases hFail
    · constructor
      · apply TrapFree.of_eq
        rw [← hTrace]
        exact (b.setHart b.hart.mret).retire_trace .jumped
      · have hMode : (((b.setHart b.hart.mret).retire
            .jumped).setJctx j).hart.mode =
            (mretTarget b.hart).1 :=
          (b.setHart b.hart.mret).retire_mode .jumped
        rw [hMode]
        exact hRise

end RiscvEm

------------------------------------------------------------
-- Runs
------------------------------------------------------------

namespace RiscvEm

variable {σ : Type}

/-
  In every run of any number of harts, the ticks that enter
  no trap leave the mode where it was or lower exactly when
  no tick executes an `MRET` below the mode of `MPP`.
-/
theorem run_no_escalation_iff
    (P : Platform σ)
    (m m' : Machine σ)
    (ts : List (State σ × State σ))
    (hRun : m.Run P ts m') :
    (∀ t ∈ ts, TrapFree t.1 t.2 →
        t.2.hart.mode ≤ t.1.hart.mode) ↔
      ∀ t ∈ ts, ¬ MretRaises P t.1 := by
  constructor
  · intro hAll t hMem hMret
    rcases State.tick_raises (hRun.tick_of_mem hMem) hMret with
      ⟨hFree, hRise⟩
    exact absurd (hAll t hMem hFree) (Nat.not_le.mpr hRise)
  · intro hCond t hMem hFree
    have hCalm := State.tick_calm (hRun.tick_of_mem hMem)
      (hCond t hMem)
    rcases hCalm with hLt | ⟨-, hMode⟩
    · have hEq := hFree.countP_eq (fun _ he => he)
      unfold trapCount at hLt
      omega
    · exact hMode

/-
  Machine mode sets `MPP` to machine mode, leaves by `SRET`
  to user mode, and there an `MRET` follows.
-/
def mretProgram : List (BitVec 32) :=
  [0x80000293, -- addi x5, x0, -2048
   0x30029073, -- csrrw x0, mstatus, x5
   0x00000317, -- auipc x6, 0
   0x01030313, -- addi x6, x6, 16
   0x14131073, -- csrrw x0, sepc, x6
   0x10200073, -- sret
   0x30200073] -- mret

/- After six ticks the program is in U-mode. -/
theorem mretProgram_user :
    (State.evalTicks Platform.bare 6
      (State.boot mretProgram)).toOption.map
        (fun s => (s.hart.mode, s.trace)) =
      some (.User, []) := by
  decide +kernel

/- The seventh brings it back to M-mode without a trap. -/
theorem mretProgram_machine :
    (State.evalTicks Platform.bare 6
      (State.boot mretProgram)).toOption.bind
        (fun s => (s.evalTick Platform.bare).toOption.map
          (fun s => (s.hart.mode, s.trace))) =
      some (.Machine, []) := by
  decide +kernel

/- The run up to user mode has only calm ticks. -/
theorem run_no_escalation_to_user :
    ∃ ts m', (Machine.single (State.boot mretProgram)).Run
        Platform.bare ts m' ∧
      ts.length = 6 ∧
      ((∀ t ∈ ts, TrapFree t.1 t.2 →
          t.2.hart.mode ≤ t.1.hart.mode) ↔
        ∀ t ∈ ts, ¬ MretRaises Platform.bare t.1) := by
  rcases Option.map_eq_some_iff.mp mretProgram_user with
    ⟨s, hUser, -⟩
  rcases run_of_evalTicks 6 .start rfl
    (toOption_eq_some.mp hUser) with ⟨⟨ts, hRun, hLen⟩, -⟩
  exact ⟨ts, .single s, hRun, hLen,
    run_no_escalation_iff Platform.bare _ _ ts hRun⟩

/- User mode gets to machine mode without a trap. -/
theorem run_escalation_by_mret :
    ∃ ts m', (Machine.single (State.boot mretProgram)).Run
        Platform.bare ts m' ∧
      ∃ t ∈ ts, TrapFree t.1 t.2 ∧
        ¬ t.2.hart.mode ≤ t.1.hart.mode := by
  rcases Option.map_eq_some_iff.mp mretProgram_user with
    ⟨s, hUser, hs⟩
  have hMachine := mretProgram_machine
  rw [hUser, Option.bind_some] at hMachine
  rcases Option.map_eq_some_iff.mp hMachine with
    ⟨s', hTick, hs'⟩
  rcases run_of_evalTicks 6 .start rfl
    (toOption_eq_some.mp hUser) with ⟨⟨ts, hRun, -⟩, hSelf⟩
  have hTick' : s.tick Platform.bare = .ok s' := by
    rw [State.tick_eq_evalTick]
    exact toOption_eq_some.mp hTick
  refine ⟨_, _, hRun.tick_single hSelf hTick', (s, s'),
    List.mem_cons_self, ?_, ?_⟩
  · have hTrace : s.trace = [] := congrArg Prod.snd hs
    have hTrace' : s'.trace = [] := congrArg Prod.snd hs'
    exact TrapFree.of_eq (hTrace'.trans hTrace.symm)
  · have hMode : s.hart.mode = .User := congrArg Prod.fst hs
    have hMode' : s'.hart.mode = .Machine :=
      congrArg Prod.fst hs'
    dsimp only
    rw [hMode, hMode']
    decide

end RiscvEm
