import RiscvEm.Hart.CsrControl

/-
  What executing an instruction leaves alone: the compiled
  code and the block under construction, the address at
  which compiled code was left, and the count of retired
  instructions, which no CSR instruction reaches.

  Key definitions include:
    * `ExecKept`

  Key theorems include:
    * `ExecKept.exec`
    * `ExecKept.preTick`
-/

------------------------------------------------------------
-- What Is Kept
------------------------------------------------------------

namespace RiscvEm

variable {σ : Type}
variable {P : Platform σ}
variable {op : Op}
variable {d : InstructionData}
variable {s s' s'' : State σ}
variable {out : ExecReturn}

/-
  The context is as before but for the versions of pages,
  `csrs[CSR_MINSTRET]` is as before, and the last exit is the
  one before or none.
-/
structure ExecKept
    (s s' : State σ) : Prop where
  jctx : s'.jctx = { s.jctx with
    pageVerionBitmap := s'.jctx.pageVerionBitmap }
  exit : s'.hart.lastJitPcExit = s.hart.lastJitPcExit ∨
    s'.hart.lastJitPcExit = 0
  instret : s'.hart.csrs CSR_MINSTRET =
    s.hart.csrs CSR_MINSTRET

namespace ExecKept

/- A state keeps its own registers. -/
theorem refl
    (s : State σ) :
    ExecKept s s :=
  ⟨rfl, Or.inl rfl, rfl⟩

/- What two parts keep, both keep. -/
theorem trans
    (h : ExecKept s s')
    (h' : ExecKept s' s'') :
    ExecKept s s'' := by
  refine ⟨?_, ?_, h'.instret.trans h.instret⟩
  · rw [h'.jctx, h.jctx]
  · rcases h'.exit with hSame | hNone
    · rw [hSame]
      exact h.exit
    · exact Or.inr hNone

/- It is enough that these three members are equal. -/
theorem of_eq
    (hJctx : s'.jctx = s.jctx)
    (hExit : s'.hart.lastJitPcExit = s.hart.lastJitPcExit)
    (hCsrs : s'.hart.csrs = s.hart.csrs) :
    ExecKept s s' := by
  refine ⟨?_, Or.inl hExit, ?_⟩
  · rw [hJctx]
  · rw [hCsrs]

/- Changes of registers are among them. -/
theorem onlyRegs
    (h : OnlyRegs s s') :
    ExecKept s s' := by
  apply of_eq h.jctx
  · rw [h.hart]
  · rw [h.hart]

/- A trap writes other registers of control. -/
theorem trap
    (s : State σ)
    (cause tval : BitVec 64)
    (interrupt : Bool) :
    ExecKept s (s.trap cause tval interrupt) := by
  have hHart : ∀ h : Hart,
      (h.trap cause tval interrupt).lastJitPcExit =
        h.lastJitPcExit ∧
      (h.trap cause tval interrupt).csrs CSR_MINSTRET =
        h.csrs CSR_MINSTRET := by
    intro h
    unfold Hart.trap
    split
    · exact ⟨rfl, rfl⟩
    · exact ⟨rfl, rfl⟩
  exact ⟨rfl, Or.inl (hHart s.hart).1, (hHart s.hart).2⟩

/- A read keeps the three members. -/
theorem mmioRead
    {addr val : BitVec 64}
    {size : MemorySize}
    {m : MemoryReturn}
    (h : s.mmioRead P addr size = .ok (m, val, s')) :
    ExecKept s s' := by
  rw [State.mmioRead_frame h]
  exact of_eq rfl rfl rfl

/- A write to a page with code changes its version only. -/
theorem bumpPage
    {j j' : JitContext}
    {addr : BitVec 64}
    (h : j.bumpPage addr = .ok j') :
    j' = { j with pageVerionBitmap := j'.pageVerionBitmap } := by
  unfold JitContext.bumpPage at h
  dsimp only at h
  split at h
  · cases h
    rfl
  · cases h

/- A store keeps them. -/
theorem mmioWrite
    {addr val : BitVec 64}
    {size : MemorySize}
    {m : MemoryReturn}
    (h : s.mmioWrite P addr size val = .ok (m, s')) :
    ExecKept s s' := by
  rcases State.mmioWrite_cases h with
    ⟨-, -, mem, jctx, -, hBump, rfl⟩ |
    ⟨-, dev, world, mem, -, -, rfl⟩ | ⟨-, rfl⟩
  · exact ⟨bumpPage hBump, Or.inl rfl, rfl⟩
  · exact of_eq rfl rfl rfl
  · exact refl _

/- Zeroing a block keeps them. -/
theorem zeroBytes
    (n : Nat)
    {addr : BitVec 64}
    {s : State σ}
    (h : RiscvEm.zeroBytes P addr n s = .ok s') :
    ExecKept s s' := by
  induction n generalizing addr s with
  | zero =>
      cases h
      exact refl _
  | succ n ih =>
      rcases bind_eq_ok.mp h with ⟨⟨m, s₁⟩, hWrite, hRest⟩
      exact (mmioWrite hWrite).trans (ih hRest)

/-
  Writing a register of control other than the counter keeps
  them.
-/
theorem setCsr
    (s : State σ)
    {n : BitVec 16}
    (hn : n ≠ CSR_MINSTRET)
    (v : BitVec 64) :
    ExecKept s (s.setCsr n v) := by
  unfold State.setCsr
  split
  · exact of_eq rfl rfl rfl
  · exact ⟨rfl, Or.inl rfl,
      Function.update_of_ne hn.symm _ _⟩

/- Reading one, if it is read. -/
theorem csrReadIf
    (reads : Bool)
    (csr : BitVec 16)
    (s : State σ) :
    ExecKept s (RiscvEm.csrReadIf reads csr s) := by
  unfold RiscvEm.csrReadIf
  split
  · by_cases hDenied : State.isFloatCsr csr = true ∧
        s.hart.status.FS = 0
    · rw [State.csrRead_denied hDenied.1 hDenied.2]
      exact trap s _ _ _
    · rw [s.csrRead_state csr hDenied]
      exact refl s
  · exact refl s

/- Writing one, if it is written. -/
theorem csrWriteIf
    (writes : Bool)
    {csr : BitVec 16}
    (hCsr : csr ≠ CSR_MINSTRET)
    (val : BitVec 64)
    (s : State σ) :
    ExecKept s (RiscvEm.csrWriteIf writes csr val s) := by
  unfold RiscvEm.csrWriteIf
  split
  · unfold State.csrWrite
    dsimp only
    repeat' split
    all_goals first
      | exact refl _
      | exact of_eq rfl rfl rfl
      | exact trap _ _ _ _
      | exact setCsr s hCsr val
  · exact refl _

/-
  Whatever an instruction does, if it does not write the
  counter.
-/
theorem effect
    (h : Effect P op d s out s')
    (hCsr : op ∈ csrOps → out.isSuccess = true →
      d.csr ≠ CSR_MINSTRET) :
    ExecKept s s' := by
  cases h with
  | regs _ hRegs => exact onlyRegs hRegs
  | fault _ => exact refl s
  | scFault _ _ _ _ => exact of_eq rfl rfl rfl
  | load hRead _ _ hRegs =>
      exact (mmioRead hRead).trans (onlyRegs hRegs)
  | store hWrite _ _ hRegs =>
      exact (mmioWrite hWrite).trans (onlyRegs hRegs)
  | amo hRead _ hWrite _ _ hRegs =>
      exact ((mmioRead hRead).trans (mmioWrite hWrite)).trans
        (onlyRegs hRegs)
  | amoFault _ hRead _ _ _ _ => exact mmioRead hRead
  | lr hRead _ _ hRegs =>
      have hFirst := mmioRead hRead
      have hReserved : ExecKept _ _ := onlyRegs hRegs
      exact hFirst.trans
        ⟨hReserved.jctx, hReserved.exit, hReserved.instret⟩
  | sc _ hWrite _ _ hRegs =>
      have hFirst : ExecKept _ _ := mmioWrite hWrite
      have hCleared : ExecKept _ _ := onlyRegs hRegs
      have hDone := hFirst.trans
        ⟨hCleared.jctx, hCleared.exit, hCleared.instret⟩
      exact ⟨hDone.jctx, hDone.exit, hDone.instret⟩
  | scFail _ hRegs =>
      have hCleared : ExecKept _ _ := onlyRegs hRegs
      exact ⟨hCleared.jctx, hCleared.exit, hCleared.instret⟩
  | csr reads writes val hOp _ _ _ hOk hRead hWrite =>
      have hFirst := (csrReadIf reads d.csr s).trans
        (onlyRegs hRead)
      have hDone := hFirst.trans
        (csrWriteIf writes (hCsr hOp hOk) val _)
      exact hDone.trans (onlyRegs hWrite)
  | mret _ _ => exact of_eq rfl rfl rfl
  | sret _ _ => exact of_eq rfl rfl rfl
  | wfi _ _ _ => exact of_eq rfl rfl rfl
  | fenceI _ => exact of_eq rfl rfl rfl
  | cboRam _ _ _ => exact of_eq rfl rfl rfl
  | cboDevice hZero _ => exact zeroBytes 64 hZero

/- The checks of a CSR instruction leave out `minstret`. -/
theorem minstret_unimplemented
    (s : State σ)
    (write : Bool)
    (hCsr : d.csr = CSR_MINSTRET) :
    csrAllowed s d write = false := by
  have hNone : ∀ mode,
      csrAccessible CSR_MINSTRET mode write = false := by
    intro mode
    unfold csrAccessible
    split
    · rfl
    · rfl
  unfold csrAllowed
  rw [hCsr, hNone, Bool.and_false]

/- Every instruction keeps them. -/
theorem exec
    (op : Op)
    (h : op.exec P d s = .ok (out, s')) :
    ExecKept s s' := by
  refine effect (op.exec_effect h) ?_
  intro hOp hOk hCsr
  rcases csr_exec_allowed hOp h hOk with ⟨write, hAllowed⟩
  rw [minstret_unimplemented s write hCsr] at hAllowed
  cases hAllowed

/- So do the interrupts and the clock before a tick. -/
theorem preTick
    (s : State σ) :
    ExecKept s s.preTick := by
  have hNe : CSR_MCYCLE ≠ CSR_MINSTRET := by decide
  have hZero : ExecKept s (s.setGpr 0 0) := of_eq rfl rfl rfl
  have hCycle := hZero.trans (setCsr (s.setGpr 0 0) hNe
    ((s.setGpr 0 0).csr CSR_MCYCLE + 1))
  unfold State.preTick
  dsimp only
  split
  · unfold State.checkInts
    split
    · exact hCycle.trans (trap _ _ _ _)
    · exact hCycle
  · exact hCycle

/- A fetch that fails traps. -/
theorem afterFetch
    (s : State σ)
    (m : MemoryReturn) :
    ExecKept s (s.afterFetch m) := by
  unfold State.afterFetch
  split
  · exact refl s
  · exact trap s _ _ _

/- At the fetch nothing of this has changed. -/
theorem atFetch
    (s : State σ) :
    ExecKept s s.atFetch :=
  (preTick s).trans ⟨rfl, Or.inr rfl, rfl⟩

/- Compiled code keeps them, and is not left early. -/
theorem callBlock
    {f : JitFunction}
    (h : s.callBlock P f = .ok s') :
    ExecKept s s' := by
  rcases bind_eq_ok.mp h with ⟨s₁, hRun, hEq⟩
  have hOnly := runBlock_onlyCompiled hRun
  have hRan : ExecKept s s₁ := by
    apply of_eq
    · rw [hOnly.rest]
      rfl
    · rw [hOnly.hart]
      rfl
    · rw [hOnly.hart]
      rfl
  have hExit : s₁.hart.exitPc = 0 := by
    rw [hOnly.hart]
    rfl
  rw [if_neg (not_not.mpr hExit)] at hEq
  cases hEq
  exact hRan.trans (of_eq rfl rfl rfl)

/- What is kept until the instruction of a tick is executed. -/
theorem fetched
    {m : MemoryReturn}
    {val : BitVec 64}
    (h : s.atFetch.mmioRead P s.atFetch.hart.pc .Int =
      .ok (m, val, s')) :
    ExecKept s ((s'.afterFetch m).decode (val.setWidth 32)).2 :=
  (((atFetch s).trans (mmioRead h)).trans
    (afterFetch s' m)).trans (of_eq rfl rfl rfl)

end ExecKept

end RiscvEm
