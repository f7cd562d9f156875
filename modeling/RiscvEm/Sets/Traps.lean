import RiscvEm.Sets.Effects

/-
  Traps that instructions enter themselves. The only ones
  are accesses to the floating-point registers while the
  unit is off, which enter `trap` and then go on.

  Key definitions include:
    * `TrapFree`
    * `FloatCsrDenied`
    * `DeniedRun`

  Key theorems include:
    * `Effect.trapFree`
    * `FloatCsrDenied.exec`
-/

------------------------------------------------------------
-- No Trap Between Two States
------------------------------------------------------------

namespace RiscvEm

variable {σ : Type}
variable {P : Platform σ}
variable {s s' s'' : State σ}

def Event.isTrap : Event → Bool
  | .trap _ _ _ _ => true
  | _ => false

/- Events were added, but none of them is a trap. -/
def TrapFree
    (s s' : State σ) : Prop :=
  ∃ es, s'.trace = es ++ s.trace ∧
    ∀ e ∈ es, e.isTrap = false

namespace TrapFree

/- Without an event there was no trap. -/
theorem of_eq
    (h : s'.trace = s.trace) :
    TrapFree s s' :=
  ⟨[], h, fun _ hMem => nomatch hMem⟩

/-
  One more event that is no trap leaves the record free of
  traps.
-/
theorem of_cons
    {e : Event}
    (h : s'.trace = e :: s.trace)
    (he : e.isTrap = false) :
    TrapFree s s' := by
  refine ⟨[e], h, ?_⟩
  intro e' hMem
  rw [List.mem_singleton.mp hMem]
  exact he

/- Two parts without a trap make a whole without one. -/
theorem trans
    (h : TrapFree s s')
    (h' : TrapFree s' s'') :
    TrapFree s s'' := by
  rcases h with ⟨es, hTrace, hNone⟩
  rcases h' with ⟨es', hTrace', hNone'⟩
  refine ⟨es' ++ es, ?_, ?_⟩
  · rw [hTrace', hTrace, List.append_assoc]
  · intro e hMem
    rcases List.mem_append.mp hMem with hMem | hMem
    · exact hNone' e hMem
    · exact hNone e hMem

/- Counting events of a kind that only traps have. -/
theorem countP_eq
    (h : TrapFree s s')
    {p : Event → Bool}
    (hp : ∀ e, p e = true → e.isTrap = true) :
    s'.trace.countP p = s.trace.countP p := by
  rcases h with ⟨es, hTrace, hNone⟩
  have hZero : es.countP p = 0 := by
    rw [List.countP_eq_zero]
    intro e hMem he
    have hTrap := hp e he
    rw [hNone e hMem] at hTrap
    cases hTrap
  rw [hTrace, List.countP_append, hZero, Nat.zero_add]

end TrapFree

/- A read leaves no event. -/
theorem State.mmioRead_trace
    {addr val : BitVec 64}
    {size : MemorySize}
    {m : MemoryReturn}
    (h : s.mmioRead P addr size = .ok (m, val, s')) :
    s'.trace = s.trace := by
  rw [State.mmioRead_frame h]

/- A store leaves one that is no trap. -/
theorem State.mmioWrite_trapFree
    {addr val : BitVec 64}
    {size : MemorySize}
    {m : MemoryReturn}
    (h : s.mmioWrite P addr size val = .ok (m, s')) :
    TrapFree s s' := by
  rcases State.mmioWrite_cases h with
    ⟨-, -, mem, jctx, -, -, rfl⟩ |
    ⟨-, dev, world, mem, -, -, rfl⟩ | ⟨-, rfl⟩
  · exact .of_cons rfl rfl
  · exact .of_cons rfl rfl
  · exact .of_eq rfl

/- Zeroing a block leaves stores. -/
theorem zeroBytes_trapFree
    (n : Nat)
    {addr : BitVec 64}
    {s : State σ}
    (h : zeroBytes P addr n s = .ok s') :
    TrapFree s s' := by
  induction n generalizing addr s with
  | zero =>
      cases h
      exact .of_eq rfl
  | succ n ih =>
      rcases bind_eq_ok.mp h with ⟨⟨m, s₁⟩, hWrite, hRest⟩
      exact (State.mmioWrite_trapFree hWrite).trans
        (ih hRest)

end RiscvEm

------------------------------------------------------------
-- Instructions That Enter No Trap
------------------------------------------------------------

namespace RiscvEm

variable {σ : Type}
variable {P : Platform σ}
variable {op : Op}
variable {d : InstructionData}
variable {s s' : State σ}
variable {out : ExecReturn}

/-
  A CSR instruction that passes the checks accesses a
  register of the floating-point unit, which is off. The
  checks let every mode in that a hart can be in.
-/
structure FloatCsrDenied
    (s : State σ)
    (op : Op)
    (d : InstructionData) : Prop where
  isCsr : op ∈ csrOps
  isFloat : State.isFloatCsr d.csr = true
  off : s.hart.status.FS = 0
  mode : s.hart.mode ≠ .Hypervisor

/- The three registers of the unit. -/
theorem isFloatCsr_cases
    {csr : BitVec 16}
    (h : State.isFloatCsr csr = true) :
    csr = CSR_FCSR ∨ csr = CSR_FFLAGS ∨ csr = CSR_FRM := by
  simpa [State.isFloatCsr, or_assoc] using h

/- All of them are open to user mode. -/
theorem csrLevel_float
    {csr : BitVec 16}
    (h : State.isFloatCsr csr = true) :
    csrLevel csr = .User := by
  rcases isFloatCsr_cases h with rfl | rfl | rfl <;> rfl

/- Reads other than a denied one enter no trap. -/
theorem State.csrRead_state
    (s : State σ)
    (csr : BitVec 16)
    (hOk : ¬ (State.isFloatCsr csr = true ∧
      s.hart.status.FS = 0)) :
    (s.csrRead csr).2 = s := by
  unfold State.csrRead
  iterate 10
    refine iteInduction (motive := fun x => Prod.snd x = s)
      (fun _ => rfl) (fun _ => ?_)
  refine iteInduction (motive := fun x => Prod.snd x = s)
    (fun hFloat => ?_) (fun _ => rfl)
  rw [if_neg (fun hOff => hOk ⟨hFloat, hOff⟩)]

/-
  The states differ at most in the control and status
  registers, and the pins among them.
-/
structure OnlyCsrs
    (s s' : State σ) : Prop where
  hart : s'.hart = { s.hart with
    csrs := s'.hart.csrs
    status := s'.hart.status
    ie := s'.hart.ie
    fcsr := s'.hart.fcsr }
  rest : s' = { s with
    hart := s'.hart
    world := ⟨s.world.dev, s'.world.pins⟩ }

namespace OnlyCsrs

/- Writing a register of control changes only these. -/
theorem setCsr
    (s : State σ)
    (n : BitVec 16)
    (v : BitVec 64) :
    OnlyCsrs s (s.setCsr n v) := by
  unfold State.setCsr
  split
  · exact ⟨rfl, rfl⟩
  · exact ⟨rfl, rfl⟩

theorem self (h : OnlyCsrs s s') : s'.self = s.self := by
  rw [h.rest]

theorem trace (h : OnlyCsrs s s') : s'.trace = s.trace := by
  rw [h.rest]

theorem mode (h : OnlyCsrs s s') :
    s'.hart.mode = s.hart.mode := by
  rw [h.hart]

theorem reservation (h : OnlyCsrs s s') :
    s'.hart.reservation = s.hart.reservation := by
  rw [h.hart]

theorem WFI (h : OnlyCsrs s s') :
    s'.hart.WFI = s.hart.WFI := by
  rw [h.hart]

end OnlyCsrs

/- Such a write leaves no event. -/
theorem State.setCsr_trace
    (s : State σ)
    (n : BitVec 16)
    (v : BitVec 64) :
    (s.setCsr n v).trace = s.trace :=
  (OnlyCsrs.setCsr s n v).trace

/- Writes other than a denied one change registers only. -/
theorem State.csrWrite_onlyCsrs
    (s : State σ)
    (csr : BitVec 16)
    (val : BitVec 64)
    (hOk : ¬ (State.isFloatCsr csr = true ∧
      s.hart.status.FS = 0)) :
    OnlyCsrs s (s.csrWrite csr val) := by
  unfold State.csrWrite
  dsimp only
  iterate 7
    refine iteInduction (motive := OnlyCsrs s)
      (fun _ => ⟨rfl, rfl⟩) (fun _ => ?_)
  refine iteInduction (motive := OnlyCsrs s)
    (fun hFloat => ?_) (fun _ => ?_)
  · rw [if_neg (fun hOff => hOk ⟨hFloat, hOff⟩)]
    exact ⟨rfl, rfl⟩
  · exact iteInduction (motive := OnlyCsrs s)
      (fun _ => ⟨rfl, rfl⟩) (fun _ => .setCsr s csr val)

/- A write to a CSR leaves no event unless the unit is off. -/
theorem State.csrWrite_trace
    (s : State σ)
    (csr : BitVec 16)
    (val : BitVec 64)
    (hOk : ¬ (State.isFloatCsr csr = true ∧
      s.hart.status.FS = 0)) :
    (s.csrWrite csr val).trace = s.trace :=
  (s.csrWrite_onlyCsrs csr val hOk).trace

/- A CSR instruction that is not denied enters no trap. -/
theorem csrAccess_trace
    {s₁ : State σ}
    {csr : BitVec 16}
    {reads writes : Bool}
    {val : BitVec 64}
    (hOk : ¬ (State.isFloatCsr csr = true ∧
      s.hart.status.FS = 0))
    (hRead : OnlyRegs (csrReadIf reads csr s) s₁)
    (hWrite : OnlyRegs (csrWriteIf writes csr val s₁) s') :
    s'.trace = s.trace := by
  have hReadEq : csrReadIf reads csr s = s := by
    unfold csrReadIf
    split
    · exact s.csrRead_state csr hOk
    · rfl
  rw [hReadEq] at hRead
  have hStatus : s₁.hart.status = s.hart.status := by
    rw [hRead.hart]
  have hWriteTrace :
      (csrWriteIf writes csr val s₁).trace = s₁.trace := by
    unfold csrWriteIf
    split
    · refine s₁.csrWrite_trace csr val ?_
      rw [hStatus]
      exact hOk
    · rfl
  rw [hWrite.trace, hWriteTrace, hRead.trace]

/- No instruction but a denied one enters a trap itself. -/
theorem Effect.trapFree
    (h : Effect P op d s out s')
    (hOk : ¬ FloatCsrDenied s op d) :
    TrapFree s s' := by
  cases h with
  | regs _ hRegs => exact .of_eq hRegs.trace
  | fault _ => exact .of_eq rfl
  | load hRead _ _ hRegs =>
      apply TrapFree.of_eq
      rw [hRegs.trace, State.mmioRead_trace hRead]
  | store hWrite _ _ hRegs =>
      exact (State.mmioWrite_trapFree hWrite).trans
        (.of_eq hRegs.trace)
  | amo hRead _ hWrite _ _ hRegs =>
      have hFirst := TrapFree.of_eq
        (State.mmioRead_trace hRead)
      exact (hFirst.trans
        (State.mmioWrite_trapFree hWrite)).trans
        (.of_eq hRegs.trace)
  | amoFault _ hRead _ _ _ _ =>
      exact .of_eq (State.mmioRead_trace hRead)
  | lr hRead _ _ hRegs =>
      have hFirst := TrapFree.of_eq
        (State.mmioRead_trace hRead)
      exact hFirst.trans (.of_cons hRegs.trace rfl)
  | sc _ hWrite _ _ hRegs =>
      have hLog : ∀ addr size, TrapFree s
          (s.log (.sc s.self addr size true)) :=
        fun _ _ => .of_cons rfl rfl
      exact ((hLog _ _).trans
        (State.mmioWrite_trapFree hWrite)).trans
        (.of_eq hRegs.trace)
  | scFault _ _ _ _ => exact .of_cons rfl rfl
  | scFail _ hRegs => exact .of_cons hRegs.trace rfl
  | csr reads writes val hCsr hMode _ _ _ hRead hWrite =>
      have hNot : ¬ (State.isFloatCsr d.csr = true ∧
          s.hart.status.FS = 0) := by
        rintro ⟨hFloat, hOff⟩
        refine hOk ⟨hCsr, hFloat, hOff, ?_⟩
        intro hHyper
        rw [csrLevel_float hFloat, hHyper] at hMode
        cases hMode
      exact .of_eq (csrAccess_trace hNot hRead hWrite)
  | mret _ _ => exact .of_eq rfl
  | sret _ _ => exact .of_eq rfl
  | wfi _ _ _ => exact .of_eq rfl
  | fenceI _ => exact .of_eq rfl
  | cboRam _ _ _ => exact .of_cons rfl rfl
  | cboDevice hZero _ => exact zeroBytes_trapFree 64 hZero

end RiscvEm

------------------------------------------------------------
-- Denied Accesses To The Floating-Point Registers
------------------------------------------------------------

namespace RiscvEm

variable {σ : Type}
variable {P : Platform σ}
variable {op : Op}
variable {d : InstructionData}
variable {s s' : State σ}

/- A field is not changed by writing another one. -/
theorem getLsbD_setField
    {n : Nat}
    (raw : BitVec 64)
    (lo : Nat)
    (v : BitVec n)
    (i : Nat)
    (hOut : i < lo ∨ lo + n ≤ i) :
    (setField raw lo v).getLsbD i = raw.getLsbD i := by
  unfold setField
  by_cases hi : i < 64
  · rcases hOut with hLow | hHigh
    · simp [hi, hLow]
    · have hv : v.getLsbD (i - lo) = false :=
        v.getLsbD_of_ge _ (by omega)
      have hNot : ¬ (i - lo < n) := by omega
      simp [hi, hv, hNot]
  · rw [BitVec.getLsbD_of_ge _ _ (by omega),
      BitVec.getLsbD_of_ge _ _ (by omega)]

/- A field below `FS` does not reach it. -/
theorem Status.FS_setField
    {n : Nat}
    (s : Status)
    (lo : Nat)
    (v : BitVec n)
    (hOut : lo + n ≤ 13) :
    Status.FS (setField s lo v) = s.FS := by
  unfold Status.FS
  apply BitVec.eq_of_getLsbD_eq
  intro i hi
  simp only [BitVec.getLsbD_extractLsb', hi, decide_true,
    Bool.true_and]
  exact getLsbD_setField s lo v (13 + i) (Or.inr (by omega))

/- A trap keeps `FS`. -/
theorem Hart.trap_FS
    (h : Hart)
    (cause tval : BitVec 64)
    (interrupt : Bool) :
    (h.trap cause tval interrupt).status.FS = h.status.FS := by
  unfold Hart.trap
  split
  · simp only [Status.setSPP, Status.setSIE, Status.setSPIE]
    iterate 3 rw [Status.FS_setField _ _ _ (by decide)]
  · simp only [Status.setMPP, Status.setMIE, Status.setMPIE]
    iterate 3 rw [Status.FS_setField _ _ _ (by decide)]

/- The checks let an access to `fcsr` pass. -/
theorem csrAllowed_float
    (hFloat : State.isFloatCsr d.csr = true)
    (hMode : s.hart.mode ≠ .Hypervisor)
    (write : Bool) :
    csrAllowed s d write = true := by
  have hCounter : counterEnabled s d.csr = true := by
    rcases isFloatCsr_cases hFloat with h | h | h <;>
      rw [h] <;> rfl
  have hSatp : (d.csr == CSR_SATP) = false := by
    rcases isFloatCsr_cases hFloat with h | h | h <;>
      rw [h] <;> rfl
  have hAccess : csrAccessible d.csr s.hart.mode write =
      true := by
    cases hm : s.hart.mode with
    | Hypervisor => exact absurd hm hMode
    | User | Supervisor | Machine =>
        rcases isFloatCsr_cases hFloat with h | h | h <;>
          rw [h] <;> rfl
  unfold csrAllowed
  rw [hCounter, hSatp, hAccess]
  simp

/- While the unit is off, reading its CSRs traps. -/
theorem State.csrRead_denied
    {csr : BitVec 16}
    (hFloat : State.isFloatCsr csr = true)
    (hOff : s.hart.status.FS = 0) :
    s.csrRead csr =
      (0, s.trap EXC_ILLEGAL_INSTRUCTION (csr.setWidth 64)
        false) := by
  unfold State.csrRead
  rcases isFloatCsr_cases hFloat with rfl | rfl | rfl
  · rw [if_pos hFloat, if_pos hOff]
    rfl
  · rw [if_pos hFloat, if_pos hOff]
    rfl
  · rw [if_pos hFloat, if_pos hOff]
    rfl

/- While the unit is off, writing its CSRs traps. -/
theorem State.csrWrite_denied
    {csr : BitVec 16}
    (hFloat : State.isFloatCsr csr = true)
    (hOff : s.hart.status.FS = 0)
    (val : BitVec 64) :
    s.csrWrite csr val =
      s.trap EXC_ILLEGAL_INSTRUCTION (csr.setWidth 64)
        false := by
  unfold State.csrWrite
  dsimp only
  rcases isFloatCsr_cases hFloat with rfl | rfl | rfl
  · rw [if_pos hFloat, if_pos hOff]
    rfl
  · rw [if_pos hFloat, if_pos hOff]
    rfl
  · rw [if_pos hFloat, if_pos hOff]
    rfl

/- A denied access, as a trap entered by the instruction. -/
def State.denied
    (s : State σ)
    (d : InstructionData) : State σ :=
  s.trap EXC_ILLEGAL_INSTRUCTION (d.csr.setWidth 64) false

/- A denied access leaves the unit off. -/
theorem State.denied_off
    (hOff : s.hart.status.FS = 0) :
    (s.denied d).hart.status.FS = 0 :=
  (s.hart.trap_FS _ _ _).trans hOff

/-
  A denied instruction goes on as if it had succeeded. It
  has entered two traps, or one and then moves on from the
  trap vector.
-/
inductive DeniedRun
    (s : State σ)
    (d : InstructionData) :
    Except HostFault (ExecReturn × State σ) → Prop
  | twice {s' : State σ} :
      s'.trace = ((s.denied d).denied d).trace →
      DeniedRun s d (.ok (.next 4, s'))
  | vector {s' : State σ} :
      s'.trace = (s.denied d).trace →
      s'.hart.pc = (s.denied d).hart.pc →
      DeniedRun s d (.ok (.next 4, s'))

/- A whole register under a denied access. -/
theorem execCSRRW_denied
    (h : FloatCsrDenied s op d)
    (P : Platform σ) :
    DeniedRun s d (execCSRRW P d s) := by
  have hAllowed := csrAllowed_float h.isFloat h.mode
  have hRead : s.csrRead d.csr = (0, s.denied d) :=
    State.csrRead_denied h.isFloat h.off
  have hWrite : ∀ val, (s.denied d).csrWrite d.csr val =
      (s.denied d).denied d :=
    State.csrWrite_denied h.isFloat (State.denied_off h.off)
  unfold execCSRRW
  rw [if_pos (hAllowed _), hRead]
  dsimp only
  rw [hWrite]
  apply DeniedRun.twice
  split <;> rfl

/- Setting or clearing bits is denied. -/
theorem execCsrBits_denied
    (h : FloatCsrDenied s op d)
    (P : Platform σ)
    (operand : State σ → InstructionData → BitVec 64)
    (f : BitVec 64 → BitVec 64 → BitVec 64) :
    DeniedRun s d (execCsrBits operand f P d s) := by
  have hAllowed := csrAllowed_float h.isFloat h.mode
  have hRead : s.csrRead d.csr = (0, s.denied d) :=
    State.csrRead_denied h.isFloat h.off
  have hWrite : ∀ val, (s.denied d).csrWrite d.csr val =
      (s.denied d).denied d :=
    State.csrWrite_denied h.isFloat (State.denied_off h.off)
  unfold execCsrBits
  rw [if_pos (hAllowed _), hRead]
  dsimp only
  by_cases hRs : d.rs1 ≠ 0
  · rw [if_pos hRs, hWrite]
    exact .twice rfl
  · rw [if_neg hRs]
    exact .vector rfl rfl

/- `CSRRWI` is denied. -/
theorem execCSRRWI_denied
    (h : FloatCsrDenied s op d)
    (P : Platform σ) :
    DeniedRun s d (execCSRRWI P d s) := by
  have hAllowed := csrAllowed_float h.isFloat h.mode
  have hRead : s.csrRead d.csr = (0, s.denied d) :=
    State.csrRead_denied h.isFloat h.off
  unfold execCSRRWI
  rw [if_pos (hAllowed _), hRead]
  dsimp only
  by_cases hRd : d.rd ≠ 0
  · have hWrite : ∀ val,
        ((s.denied d).setGpr d.rd 0).csrWrite d.csr val =
          ((s.denied d).setGpr d.rd 0).denied d :=
      State.csrWrite_denied h.isFloat (State.denied_off h.off)
    rw [if_pos hRd, hWrite]
    exact .twice rfl
  · have hWrite : ∀ val, s.csrWrite d.csr val = s.denied d :=
      State.csrWrite_denied h.isFloat h.off
    rw [if_neg hRd, hWrite]
    exact .vector rfl rfl

section Dispatch

seal execCSRRW execCSRRWI execCsrBits

/- Whatever the instruction is. -/
theorem FloatCsrDenied.exec
    (h : FloatCsrDenied s op d)
    (P : Platform σ) :
    DeniedRun s d (op.exec P d s) := by
  have hOps := h.isCsr
  simp only [csrOps, List.mem_cons, List.not_mem_nil,
    or_false] at hOps
  rcases hOps with rfl | rfl | rfl | rfl | rfl | rfl
  · exact execCSRRW_denied h P
  · exact execCsrBits_denied h P _ _
  · exact execCsrBits_denied h P _ _
  · exact execCSRRWI_denied h P
  · exact execCsrBits_denied h P _ _
  · exact execCsrBits_denied h P _ _

end Dispatch

end RiscvEm
