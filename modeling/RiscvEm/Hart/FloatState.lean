import RiscvEm.Hart.FloatUnit

/-
  The state of the floating-point unit in `status`: an
  instruction that finds the unit off is to be illegal, and
  one that changes the unit is to mark it dirty.

  Key definitions include:
    * `FloatTracked`
    * `FloatGuarded`

  Key theorems include `float_tracked_iff`.
-/

------------------------------------------------------------
-- Tracking
------------------------------------------------------------

namespace RiscvEm

variable {σ : Type}

/-
  An illegal instruction is raised: by a failed return, or by
  a trap that the instruction entered itself.
-/
def RaisesIllegal
    (s : State σ)
    (out : ExecReturn)
    (s' : State σ) : Prop :=
  (out.isSuccess = false ∧
      out.cause = EXC_ILLEGAL_INSTRUCTION) ∨
    ∃ es tval, s'.trace = es ++ s.trace ∧
      Event.trap s.self EXC_ILLEGAL_INSTRUCTION tval false ∈ es

/- No register of either file, `fcsr` or memory changed. -/
structure FloatKept
    (s s' : State σ) : Prop where
  fpr : s'.hart.FPR = s.hart.FPR
  fcsr : s'.hart.fcsr = s.hart.fcsr
  gpr : ∀ r, r ≠ 0 → s'.gpr r = s.gpr r
  mem : s'.mem = s.mem

/-
  With the unit off, the instruction is illegal and changes
  nothing; otherwise a change leaves the unit dirty.
-/
structure FloatTracked
    (P : Platform σ)
    (s : State σ)
    (op : Op)
    (d : InstructionData) : Prop where
  off : s.hart.status.FS = 0 →
    ∃ out s', op.exec P d s = .ok (out, s') ∧
      RaisesIllegal s out s' ∧ FloatKept s s'
  dirty : s.hart.status.FS ≠ 0 →
    ∀ out s', op.exec P d s = .ok (out, s') →
      FloatChanged s s' →
      s'.hart.status.FS = 3 ∧ s'.hart.status.SD = 1

/-
  With the unit off, the rounding mode is reserved, or the
  instruction is a CSR instruction whose register holds zero
  already or is `x0`. Otherwise the unit is dirty already, or
  the row of the instruction puts nothing into it that is not
  there.
-/
structure FloatGuarded
    (P : Platform σ)
    (s : State σ)
    (op : Op)
    (d : InstructionData) : Prop where
  off : s.hart.status.FS = 0 →
    BadRounding s op d ∨
      (FloatCsrInst op d ∧ (s.hart.mode = .Hypervisor ∨
        d.rd = 0 ∨ s.gpr d.rd = 0))
  dirty : s.hart.status.FS ≠ 0 →
    (s.hart.status.FS = 3 ∧ s.hart.status.SD = 1) ∨
      (unitUpdate P s op d).InPlace s

end RiscvEm

------------------------------------------------------------
-- Effects On The Unit
------------------------------------------------------------

namespace RiscvEm

variable {σ : Type}
variable {P : Platform σ}
variable {op : Op}
variable {d : InstructionData}
variable {s s' : State σ}

/-
  What an instruction of F or D does. None of them looks at
  `status`.
-/
inductive FloatEffect
    (P : Platform σ)
    (op : Op)
    (d : InstructionData)
    (s : State σ) :
    Except HostFault (ExecReturn × State σ) → Prop
  | rounding :
      BadRounding s op d →
      FloatEffect P op d s (.ok (.badRounding d.inst, s))
  | regs {n : BitVec 64} {s' : State σ} :
      ¬ BadRounding s op d → OnlyRegs s s' →
      FloatEffect P op d s (.ok (.next n, s'))
  | load {n addr val : BitVec 64} {size : MemorySize}
      {m : MemoryReturn} {s₁ s' : State σ} :
      floatKind op = some .load →
      s.mmioRead P addr size = .ok (m, val, s₁) →
      OnlyRegs s₁ s' →
      FloatEffect P op d s (.ok (.ofMemory n m, s'))
  | store {n addr val : BitVec 64} {size : MemorySize}
      {m : MemoryReturn} {s' : State σ} :
      floatKind op = some .store →
      s.mmioWrite P addr size val = .ok (m, s') →
      FloatEffect P op d s (.ok (.ofMemory n m, s'))
  | fault {e : HostFault} :
      floatKind op ≠ some .rounded →
      FloatEffect P op d s (.error e)

/- `rm_func` fails exactly in a reserved mode. -/
theorem rmFunc_eq_none_iff
    {val : BitVec 64} :
    rmFunc P s val d.rm = none ↔ ReservedRm s d := by
  unfold rmFunc ReservedRm
  dsimp only
  constructor
  · intro h
    by_contra hNot
    rw [if_neg hNot] at h
    repeat' split at h
    all_goals cases h
  · intro h
    rw [if_pos h]

/- Instructions that round have the effect of their kind. -/
theorem RoundedExec.float
    {x : Except HostFault (ExecReturn × State σ)}
    (h : RoundedExec P d s x)
    (hKind : floatKind op = some .rounded) :
    FloatEffect P op d s x := by
  cases h with
  | mk hCont =>
      unfold withRm
      split
      case h_1 hNone =>
        exact .rounding ⟨hKind, rmFunc_eq_none_iff.mp hNone⟩
      case h_2 inter flags s₁ hSome =>
        have hMode : ¬ ReservedRm s d := by
          intro hReserved
          rw [rmFunc_eq_none_iff.mpr hReserved] at hSome
          cases hSome
        exact .regs (fun hBad => hMode hBad.2)
          ((rmFunc_onlyRegs hSome).trans
            (hCont inter flags s₁))

/- Only instructions that round can fail for it. -/
theorem not_badRounding
    {k : FloatKind}
    (hKind : floatKind op = some k)
    (hNe : k ≠ .rounded) :
    ¬ BadRounding s op d := by
  rintro ⟨hRounded, -⟩
  rw [hKind] at hRounded
  exact hNe (Option.some.inj hRounded)

/- Instructions that write a register have it. -/
theorem RegsExec.float
    {x : Except HostFault (ExecReturn × State σ)}
    (h : RegsExec s x)
    (hKind : floatKind op = some .writes) :
    FloatEffect P op d s x := by
  cases h with
  | mk hRegs =>
      refine .regs (not_badRounding hKind ?_) hRegs
      decide

/- Instructions that only read registers have it. -/
theorem execRd_float
    {n : BitVec 64}
    {rd : BitVec 5}
    {val : State σ → BitVec 64}
    (hKind : floatKind op = some .reads) :
    FloatEffect P op d s (execRd n rd val s) := by
  refine .regs (not_badRounding hKind ?_) ?_
  · decide
  · exact (OnlyRegs.refl s).setGpr _ _

/- Loads have it. -/
theorem execLoad_float
    {n : BitVec 64}
    {size : MemorySize}
    {addr : State σ → BitVec 64}
    {put : State σ → BitVec 64 → State σ}
    (hKind : floatKind op = some .load)
    (hPut : ∀ s v, OnlyRegs s (put s v)) :
    FloatEffect P op d s (execLoad P n size addr put s) := by
  unfold execLoad
  cases hRead : s.mmioRead P (addr s) size with
  | error e => exact .fault (by rw [hKind]; decide)
  | ok res =>
      rcases res with ⟨m, val, s₁⟩
      refine .load hKind hRead ?_
      split
      · exact hPut s₁ val
      · exact .refl s₁

/- Stores have it. -/
theorem execStore_float
    {n : BitVec 64}
    {size : MemorySize}
    {addr val : State σ → BitVec 64}
    (hKind : floatKind op = some .store) :
    FloatEffect P op d s (execStore P n size addr val s) := by
  unfold execStore
  cases hWrite : s.mmioWrite P (addr s) size (val s) with
  | error e => exact .fault (by rw [hKind]; decide)
  | ok res => exact .store hKind hWrite

section Dispatch

seal execRd execFrd execLoad execStore execSingle execDouble
  execFcvtToInt execFcvtToS execFcvtToD execFcvtToDFlags
  execFcmp execFselect setCast

/-
  Every floating-point instruction has the effect its kind
  says.
-/
theorem Op.exec_float
    {k : FloatKind}
    (hKind : floatKind op = some k) :
    FloatEffect P op d s (op.exec P d s) := by
  cases op with
  | FMV_X_W | FCLASS_S | FMV_X_D | FCLASS_D =>
      exact execRd_float rfl
  | FSW | FSD | C_FSD | C_FSDSP =>
      exact execStore_float rfl
  | FMADD_S | FMSUB_S | FNMADD_S | FNMSUB_S | FADD_S
  | FSUB_S | FMUL_S | FDIV_S | FSQRT_S =>
      exact execSingle_rounded.float rfl
  | FSGNJ_S | FSGNJN_S =>
      exact execSign_regs.float rfl
  | FSGNJX_S | FMV_W_X | FSGNJ_D | FSGNJN_D | FSGNJX_D
  | FMV_D_X =>
      exact execFrd_regs.float rfl
  | FMIN_S | FMAX_S | FMIN_D | FMAX_D =>
      exact execFselect_regs.float rfl
  | FCVT_W_S | FCVT_WU_S | FCVT_L_S | FCVT_LU_S | FCVT_W_D
  | FCVT_WU_D | FCVT_L_D | FCVT_LU_D =>
      exact execFcvtToInt_rounded.float rfl
  | FCVT_S_W | FCVT_S_WU | FCVT_S_L | FCVT_S_LU =>
      exact execFcvtToS_rounded.float rfl
  | FEQ_S | FLT_S | FLE_S | FEQ_D | FLT_D | FLE_D =>
      exact execFcmp_regs.float rfl
  | FLW | FLD | C_FLD | C_FLDSP =>
      refine execLoad_float rfl ?_
      exact fun s v => (OnlyRegs.refl s).setFpr _ _
  | FMADD_D | FMSUB_D | FNMADD_D | FNMSUB_D | FADD_D
  | FSUB_D | FMUL_D | FDIV_D | FSQRT_D =>
      exact execDouble_rounded.float rfl
  | FCVT_S_D =>
      exact execFCVT_S_D_rounded.float rfl
  | FCVT_D_S =>
      exact execFCVT_D_S_regs.float rfl
  | FCVT_D_W | FCVT_D_WU =>
      exact execFcvtToD_rounded.float rfl
  | FCVT_D_L | FCVT_D_LU =>
      exact execFcvtToDFlags_rounded.float rfl
  | _ => cases hKind

end Dispatch

end RiscvEm

------------------------------------------------------------
-- What The Effects Keep
------------------------------------------------------------

namespace RiscvEm

variable {σ : Type}
variable {P : Platform σ}
variable {op : Op}
variable {d : InstructionData}
variable {s s' : State σ}
variable {out : ExecReturn}

/- Writes to the registers of the unit leave `mstatus`. -/
theorem OnlyRegs.status
    (h : OnlyRegs s s') :
    s'.hart.status = s.hart.status := by
  rw [h.hart]

/- No instruction of F or D writes `status`. -/
theorem FloatEffect.status
    (h : FloatEffect P op d s (.ok (out, s'))) :
    s'.hart.status = s.hart.status := by
  cases h with
  | rounding => rfl
  | regs _ hRegs => exact hRegs.status
  | load _ hRead hRegs =>
      rw [hRegs.status, State.mmioRead_hart hRead]
  | store _ hWrite => rw [State.mmioWrite_hart hWrite]

/- Without a bad rounding mode the return is not illegal. -/
theorem FloatEffect.not_illegal
    (h : FloatEffect P op d s (.ok (out, s')))
    (hOk : ¬ BadRounding s op d) :
    ¬ (out.isSuccess = false ∧
      out.cause = EXC_ILLEGAL_INSTRUCTION) := by
  rintro ⟨hFail, hCause⟩
  cases h with
  | rounding hBad => exact hOk hBad
  | regs _ _ => cases hFail
  | load _ hRead _ =>
      rcases State.mmioRead_cases hRead with
        ⟨hTrue, -⟩ | ⟨rfl, -, -⟩
      · exact Bool.false_ne_true (hFail.symm.trans hTrue)
      · have hNe : EXC_LOAD_ACCESS_FAULT ≠
            EXC_ILLEGAL_INSTRUCTION := by decide
        exact hNe hCause
  | store _ hWrite =>
      rcases State.mmioWrite_cases hWrite with
        ⟨hTrue, -⟩ | ⟨hTrue, -⟩ | ⟨rfl, -⟩
      · exact Bool.false_ne_true (hFail.symm.trans hTrue)
      · exact Bool.false_ne_true (hFail.symm.trans hTrue)
      · have hNe : EXC_STORE_ACCESS_FAULT ≠
            EXC_ILLEGAL_INSTRUCTION := by decide
        exact hNe hCause

/- Accesses to CSRs are no instructions of the unit. -/
theorem floatKind_csr
    (hOp : op ∈ csrOps) :
    floatKind op = none := by
  simp only [csrOps, List.mem_cons, List.not_mem_nil,
    or_false] at hOp
  rcases hOp with rfl | rfl | rfl | rfl | rfl | rfl <;> rfl

/- What takes no trap raises no illegal instruction. -/
theorem TrapFree.not_raises
    (h : TrapFree s s')
    (hOut : ¬ (out.isSuccess = false ∧
      out.cause = EXC_ILLEGAL_INSTRUCTION)) :
    ¬ RaisesIllegal s out s' := by
  rcases h with ⟨es, hTrace, hNone⟩
  rintro (hBad | ⟨es', tval, hTrace', hMem⟩)
  · exact hOut hBad
  · rw [hTrace] at hTrace'
    rw [← List.append_cancel_right hTrace'] at hMem
    cases hNone _ hMem

end RiscvEm

------------------------------------------------------------
-- Accesses To The Registers Of The Unit
------------------------------------------------------------

namespace RiscvEm

variable {σ : Type}
variable {P : Platform σ}
variable {op : Op}
variable {d : InstructionData}
variable {s s' : State σ}
variable {out : ExecReturn}

/- With the unit on, an access is to `fcsr` and nothing else. -/
theorem State.csrWrite_float
    {csr : BitVec 16}
    (hFloat : State.isFloatCsr csr = true)
    (hOn : s.hart.status.FS ≠ 0)
    (val : BitVec 64) :
    s.csrWrite csr val =
      s.setFcsr (State.writeFloatCsr s.hart.fcsr csr val) := by
  unfold State.csrWrite
  dsimp only
  rcases isFloatCsr_cases hFloat with rfl | rfl | rfl
  · rw [if_pos hFloat, if_neg hOn]
    rfl
  · rw [if_pos hFloat, if_neg hOn]
    rfl
  · rw [if_pos hFloat, if_neg hOn]
    rfl

/- What a CSR instruction does to the unit and `status`. -/
structure FloatCsrDone
    (op : Op)
    (d : InstructionData)
    (s s' : State σ) : Prop where
  status : s'.hart.status = s.hart.status
  unit : (csrUpdate op d s).Applied s s'

/-
  A write to a CSR of the unit is all such an access does to
  it.
-/
theorem csrUpdate_of_writes
    (hMode : s.hart.mode ≠ .Hypervisor)
    (hWrites : csrWrites op d = true) :
    csrUpdate op d s = ⟨none, State.writeFloatCsr
      s.hart.fcsr d.csr (csrNewValue op d s)⟩ :=
  if_pos ⟨hWrites, hMode⟩

section On

variable (hFloat : State.isFloatCsr d.csr = true)
variable (hMode : s.hart.mode ≠ .Hypervisor)
variable (hOn : s.hart.status.FS ≠ 0)

include hFloat hMode hOn

/- `CSRRW` does to the unit what its write does. -/
theorem execCSRRW_float :
    ∃ out s', execCSRRW P d s = .ok (out, s') ∧
      FloatCsrDone .CSRRW d s s' := by
  have hRead := s.csrRead_state d.csr
    (fun hOff => hOn hOff.2)
  unfold execCSRRW
  rw [if_pos (csrAllowed_float hFloat hMode _)]
  dsimp only
  rw [hRead, State.csrWrite_float hFloat hOn]
  refine ⟨_, _, rfl, ?_, ?_⟩
  · split <;> rfl
  · rw [csrUpdate_of_writes hMode rfl]
    split <;> exact ⟨rfl, rfl⟩

/- Setting or clearing bits does so as well. -/
theorem execCsrBits_float
    {operand : State σ → InstructionData → BitVec 64}
    {f : BitVec 64 → BitVec 64 → BitVec 64}
    (hWrites : csrWrites op d = (d.rs1 != 0))
    (hValue : csrNewValue op d s =
      f (s.csrRead d.csr).1 (operand s d)) :
    ∃ out s', execCsrBits operand f P d s = .ok (out, s') ∧
      FloatCsrDone op d s s' := by
  have hRead := s.csrRead_state d.csr
    (fun hOff => hOn hOff.2)
  unfold execCsrBits
  rw [if_pos (csrAllowed_float hFloat hMode _)]
  dsimp only
  rw [hRead, State.csrWrite_float hFloat hOn]
  refine ⟨_, _, rfl, ?_⟩
  by_cases hRs : d.rs1 = 0
  · have hIdle : csrUpdate op d s = idleUpdate s := by
      refine if_neg (fun hAll => ?_)
      have hTrue := hWrites.symm.trans hAll.1
      exact bne_iff_ne.mp hTrue hRs
    rw [if_neg (not_not.mpr hRs)]
    exact ⟨rfl, hIdle ▸ ⟨rfl, rfl⟩⟩
  · have hTrue : csrWrites op d = true :=
      hWrites.trans (bne_iff_ne.mpr hRs)
    rw [if_pos hRs]
    refine ⟨rfl, ?_⟩
    rw [csrUpdate_of_writes hMode hTrue, hValue]
    exact ⟨rfl, rfl⟩

/- `CSRRWI` does so as well. -/
theorem execCSRRWI_float :
    ∃ out s', execCSRRWI P d s = .ok (out, s') ∧
      FloatCsrDone .CSRRWI d s s' := by
  have hRead := s.csrRead_state d.csr
    (fun hOff => hOn hOff.2)
  unfold execCSRRWI
  rw [if_pos (csrAllowed_float hFloat hMode _)]
  dsimp only
  rw [hRead]
  refine ⟨_, _, rfl, ?_⟩
  by_cases hRd : d.rd ≠ 0
  · have hWrite := State.csrWrite_float
      (s := s.setGpr d.rd (s.csrRead d.csr).1) hFloat hOn
    rw [if_pos hRd, hWrite]
    refine ⟨rfl, ?_⟩
    rw [csrUpdate_of_writes hMode rfl]
    exact ⟨rfl, rfl⟩
  · rw [if_neg hRd, State.csrWrite_float hFloat hOn]
    refine ⟨rfl, ?_⟩
    rw [csrUpdate_of_writes hMode rfl]
    exact ⟨rfl, rfl⟩

end On

section Dispatch

seal execCSRRW execCSRRWI execCsrBits

/- While the unit is on, in a mode that exists. -/
theorem FloatCsrInst.done
    (hInst : FloatCsrInst op d)
    (hMode : s.hart.mode ≠ .Hypervisor)
    (hOn : s.hart.status.FS ≠ 0) :
    ∃ out s', op.exec P d s = .ok (out, s') ∧
      FloatCsrDone op d s s' := by
  rcases hInst with ⟨hOps, hFloat⟩
  simp only [csrOps, List.mem_cons, List.not_mem_nil,
    or_false] at hOps
  rcases hOps with rfl | rfl | rfl | rfl | rfl | rfl
  · exact execCSRRW_float hFloat hMode hOn
  · exact execCsrBits_float hFloat hMode hOn rfl rfl
  · exact execCsrBits_float hFloat hMode hOn rfl rfl
  · exact execCSRRWI_float hFloat hMode hOn
  · exact execCsrBits_float hFloat hMode hOn rfl rfl
  · exact execCsrBits_float hFloat hMode hOn rfl rfl

end Dispatch

end RiscvEm

------------------------------------------------------------
-- Accesses While The Unit Is Off
------------------------------------------------------------

namespace RiscvEm

variable {σ : Type}
variable {op : Op}
variable {d : InstructionData}
variable {s s' s'' : State σ}

/- A trap leaves both register files and `fcsr` alone. -/
theorem Hart.trap_regs
    (h : Hart)
    (cause tval : BitVec 64)
    (interrupt : Bool) :
    (h.trap cause tval interrupt).FPR = h.FPR ∧
      (h.trap cause tval interrupt).fcsr = h.fcsr ∧
      (h.trap cause tval interrupt).GPR = h.GPR := by
  unfold Hart.trap
  split
  · exact ⟨rfl, rfl, rfl⟩
  · exact ⟨rfl, rfl, rfl⟩

/-
  Illegal accesses were reported as traps; the integer
  registers are now `gpr`.
-/
structure FloatDenied
    (gpr : BitVec 5 → BitVec 64)
    (s s' : State σ) : Prop where
  fpr : s'.hart.FPR = s.hart.FPR
  fcsr : s'.hart.fcsr = s.hart.fcsr
  gpr : s'.hart.GPR = gpr
  mem : s'.mem = s.mem
  trap : ∃ es tval, s'.trace = es ++ s.trace ∧
    Event.trap s.self EXC_ILLEGAL_INSTRUCTION tval false ∈ es

namespace FloatDenied

variable {gpr : BitVec 5 → BitVec 64}

/- The access is denied once. -/
theorem once
    (s : State σ)
    (d : InstructionData) :
    FloatDenied s.hart.GPR s (s.denied d) := by
  obtain ⟨hFpr, hFcsr, hGpr⟩ := s.hart.trap_regs
    EXC_ILLEGAL_INSTRUCTION (d.csr.setWidth 64) false
  exact ⟨hFpr, hFcsr, hGpr, rfl, [_], _, rfl,
    List.mem_singleton_self _⟩

/- A second trap changes nothing more. -/
theorem again
    (h : FloatDenied gpr s s') :
    FloatDenied gpr s (s'.denied d) := by
  obtain ⟨hFpr, hFcsr, hGpr⟩ := s'.hart.trap_regs
    EXC_ILLEGAL_INSTRUCTION (d.csr.setWidth 64) false
  rcases h.trap with ⟨es, tval, hTrace, hMem⟩
  refine ⟨hFpr.trans h.fpr, hFcsr.trans h.fcsr,
    hGpr.trans h.gpr, h.mem, .trap s'.self
      EXC_ILLEGAL_INSTRUCTION (d.csr.setWidth 64) false :: es,
    tval, ?_, List.mem_cons_of_mem _ hMem⟩
  exact congrArg (List.cons _) hTrace

/- A register written after it changes nothing more. -/
theorem setGpr
    (h : FloatDenied gpr s s')
    (r : BitVec 5)
    (v : BitVec 64) :
    FloatDenied (Function.update gpr r v) s
      (s'.setGpr r v) := by
  refine ⟨h.fpr, h.fcsr, ?_, h.mem, h.trap⟩
  exact congrArg (fun f => Function.update f r v) h.gpr

end FloatDenied

/-
  A denied access goes on as if it had read zero: `rd` is
  cleared unless it is `x0`.
-/
inductive DeniedAccess
    (s : State σ)
    (d : InstructionData) :
    Except HostFault (ExecReturn × State σ) → Prop
  | keep {s' : State σ} :
      d.rd = 0 → FloatDenied s.hart.GPR s s' →
      DeniedAccess s d (.ok (.next 4, s'))
  | clear {s' : State σ} :
      FloatDenied (Function.update s.hart.GPR d.rd 0) s s' →
      DeniedAccess s d (.ok (.next 4, s'))

/- `CSRRW` is denied while the unit is off. -/
theorem execCSRRW_access
    (h : FloatCsrDenied s op d)
    (P : Platform σ) :
    DeniedAccess s d (execCSRRW P d s) := by
  have hAllowed := csrAllowed_float h.isFloat h.mode
  have hRead : s.csrRead d.csr = (0, s.denied d) :=
    State.csrRead_denied h.isFloat h.off
  have hWrite : ∀ val, (s.denied d).csrWrite d.csr val =
      (s.denied d).denied d :=
    State.csrWrite_denied h.isFloat (State.denied_off h.off)
  have hDenied : FloatDenied s.hart.GPR s
      ((s.denied d).denied d) :=
    (FloatDenied.once s d).again
  unfold execCSRRW
  rw [if_pos (hAllowed _), hRead]
  dsimp only
  rw [hWrite]
  by_cases hRd : d.rd = 0
  · rw [if_neg (not_not.mpr hRd)]
    exact .keep hRd hDenied
  · rw [if_pos hRd]
    exact .clear (hDenied.setGpr _ _)

/- Setting or clearing bits is denied. -/
theorem execCsrBits_access
    (h : FloatCsrDenied s op d)
    (P : Platform σ)
    (operand : State σ → InstructionData → BitVec 64)
    (f : BitVec 64 → BitVec 64 → BitVec 64) :
    DeniedAccess s d (execCsrBits operand f P d s) := by
  have hAllowed := csrAllowed_float h.isFloat h.mode
  have hRead : s.csrRead d.csr = (0, s.denied d) :=
    State.csrRead_denied h.isFloat h.off
  have hWrite : ∀ val, (s.denied d).csrWrite d.csr val =
      (s.denied d).denied d :=
    State.csrWrite_denied h.isFloat (State.denied_off h.off)
  unfold execCsrBits
  rw [if_pos (hAllowed _), hRead]
  dsimp only
  by_cases hRs : d.rs1 ≠ 0
  · rw [if_pos hRs, hWrite]
    exact .clear ((FloatDenied.once s d).again.setGpr _ _)
  · rw [if_neg hRs]
    exact .clear ((FloatDenied.once s d).setGpr _ _)

/- `CSRRWI` is denied. -/
theorem execCSRRWI_access
    (h : FloatCsrDenied s op d)
    (P : Platform σ) :
    DeniedAccess s d (execCSRRWI P d s) := by
  have hAllowed := csrAllowed_float h.isFloat h.mode
  have hRead : s.csrRead d.csr = (0, s.denied d) :=
    State.csrRead_denied h.isFloat h.off
  unfold execCSRRWI
  rw [if_pos (hAllowed _), hRead]
  dsimp only
  by_cases hRd : d.rd = 0
  · have hWrite : ∀ val, s.csrWrite d.csr val = s.denied d :=
      State.csrWrite_denied h.isFloat h.off
    rw [if_neg (not_not.mpr hRd), hWrite]
    exact .keep hRd (.once s d)
  · have hWrite : ∀ val,
        ((s.denied d).setGpr d.rd 0).csrWrite d.csr val =
          ((s.denied d).setGpr d.rd 0).denied d :=
      State.csrWrite_denied h.isFloat (State.denied_off h.off)
    rw [if_pos hRd, hWrite]
    exact .clear ((FloatDenied.once s d).setGpr _ _).again

section Dispatch

seal execCSRRW execCSRRWI execCsrBits

/- While the unit is off its CSRs can not be accessed. -/
theorem FloatCsrDenied.access
    (h : FloatCsrDenied s op d)
    (P : Platform σ) :
    DeniedAccess s d (op.exec P d s) := by
  have hOps := h.isCsr
  simp only [csrOps, List.mem_cons, List.not_mem_nil,
    or_false] at hOps
  rcases hOps with rfl | rfl | rfl | rfl | rfl | rfl
  · exact execCSRRW_access h P
  · exact execCsrBits_access h P _ _
  · exact execCsrBits_access h P _ _
  · exact execCSRRWI_access h P
  · exact execCsrBits_access h P _ _
  · exact execCsrBits_access h P _ _

end Dispatch

/- In a mode that does not exist every access is illegal. -/
theorem FloatCsrInst.hypervisor
    (hInst : FloatCsrInst op d)
    (hMode : s.hart.mode = .Hypervisor)
    (P : Platform σ) :
    op.exec P d s = .ok (.illegal d.inst, s) := by
  rcases hInst with ⟨hOps, hFloat⟩
  have hNot : ∀ write, csrAllowed s d write = false := by
    intro write
    unfold csrAllowed csrAccessible
    rw [csrLevel_float hFloat, hMode]
    simp [compatibleMode]
  have hShape : ∀ (write : Bool)
      (x : Except HostFault (ExecReturn × State σ)),
      (if csrAllowed s d write = true then x
        else .ok (.illegal d.inst, s)) =
          .ok (.illegal d.inst, s) := by
    intro write x
    rw [hNot, if_neg Bool.false_ne_true]
  simp only [csrOps, List.mem_cons, List.not_mem_nil,
    or_false] at hOps
  rcases hOps with rfl | rfl | rfl | rfl | rfl | rfl
  all_goals exact hShape _ _

end RiscvEm

------------------------------------------------------------
-- When The Unit Is Tracked
------------------------------------------------------------

namespace RiscvEm

variable {σ : Type}
variable {P : Platform σ}
variable {op : Op}
variable {d : InstructionData}
variable {s s' : State σ}
variable {out : ExecReturn}

/- The table has the accesses to CSRs as `csrUpdate`. -/
theorem FloatCsrInst.unitUpdate_eq
    (hInst : FloatCsrInst op d) :
    unitUpdate P s op d = csrUpdate op d s := by
  have hOps := hInst.1
  simp only [csrOps, List.mem_cons, List.not_mem_nil,
    or_false] at hOps
  rcases hOps with rfl | rfl | rfl | rfl | rfl | rfl <;> rfl

/-
  While the unit is on, an instruction leaves what its row
  says, and `status`.
-/
theorem FloatInst.unit
    (hInst : FloatInst op d)
    (hOn : s.hart.status.FS ≠ 0) :
    UnitResult (unitUpdate P s op d) s (op.exec P d s) ∧
      ∀ out s', op.exec P d s = .ok (out, s') →
        s'.hart.status = s.hart.status := by
  rcases hInst with hKind | hCsr
  · refine ⟨Op.exec_unit hKind, ?_⟩
    intro out s' hExec
    rcases Option.isSome_iff_exists.mp hKind with ⟨k, hKind⟩
    have hEffect := Op.exec_float (P := P) (d := d) (s := s)
      hKind
    rw [hExec] at hEffect
    exact hEffect.status
  · rw [hCsr.unitUpdate_eq]
    by_cases hMode : s.hart.mode = .Hypervisor
    · have hIdle : csrUpdate op d s = idleUpdate s :=
        if_neg (fun hAll => hAll.2 hMode)
      rw [hCsr.hypervisor hMode P, hIdle]
      refine ⟨.ok ⟨rfl, rfl⟩, ?_⟩
      rintro _ _ ⟨⟩
      rfl
    · rcases hCsr.done (P := P) hMode hOn with
        ⟨out, s', hExec, hDone⟩
      rw [hExec]
      refine ⟨.ok hDone.unit, ?_⟩
      rintro _ _ ⟨⟩
      exact hDone.status

/- An instruction that fails for its mode does nothing. -/
theorem BadRounding.exec
    (h : BadRounding s op d)
    (P : Platform σ) :
    op.exec P d s = .ok (.badRounding d.inst, s) := by
  have hEffect := Op.exec_float (P := P) (d := d) (s := s) h.1
  generalize op.exec P d s = x at hEffect
  cases hEffect with
  | rounding _ => rfl
  | regs hNot _ => exact absurd h hNot
  | load hKind _ _ =>
      rw [h.1] at hKind
      cases hKind
  | store hKind _ =>
      rw [h.1] at hKind
      cases hKind
  | fault hKind => exact absurd h.1 hKind

/- Nothing done keeps the unit. -/
theorem FloatKept.refl
    (s : State σ) :
    FloatKept s s :=
  ⟨rfl, rfl, fun _ _ => rfl, rfl⟩

/- A denied access keeps what `rd` does not name. -/
theorem DeniedAccess.kept
    {x : Except HostFault (ExecReturn × State σ)}
    (h : DeniedAccess s d x)
    (hRd : d.rd = 0 ∨ s.gpr d.rd = 0) :
    ∃ s', x = .ok (.next 4, s') ∧
      RaisesIllegal s (.next 4) s' ∧ FloatKept s s' := by
  cases h with
  | keep _ hDenied =>
      refine ⟨_, rfl, Or.inr hDenied.trap, hDenied.fpr,
        hDenied.fcsr, ?_, hDenied.mem⟩
      intro r _
      exact congrFun hDenied.gpr r
  | clear hDenied =>
      refine ⟨_, rfl, Or.inr hDenied.trap, hDenied.fpr,
        hDenied.fcsr, ?_, hDenied.mem⟩
      intro r hr
      refine (congrFun hDenied.gpr r).trans ?_
      by_cases hEq : r = d.rd
      · rcases hRd with hZero | hZero
        · exact absurd (hEq.trans hZero) hr
        · rw [hEq, Function.update_self]
          exact hZero.symm
      · rw [Function.update_of_ne hEq]
        rfl

/- A denied access that overwrites `rd` is seen. -/
theorem DeniedAccess.not_kept
    (h : DeniedAccess s d (.ok (out, s')))
    (hRd : d.rd ≠ 0)
    (hVal : s.gpr d.rd ≠ 0) :
    ¬ FloatKept s s' := by
  intro hKept
  cases h with
  | keep hZero _ => exact hRd hZero
  | clear hDenied =>
      have hClear := congrFun hDenied.gpr d.rd
      rw [Function.update_self] at hClear
      exact hVal ((hKept.gpr d.rd hRd).symm.trans hClear)

/- Instructions that are refused while the unit is off. -/
theorem tracked_off
    (hOff : s.hart.status.FS = 0)
    (hGuard : BadRounding s op d ∨
      (FloatCsrInst op d ∧ (s.hart.mode = .Hypervisor ∨
        d.rd = 0 ∨ s.gpr d.rd = 0))) :
    ∃ out s', op.exec P d s = .ok (out, s') ∧
      RaisesIllegal s out s' ∧ FloatKept s s' := by
  rcases hGuard with hBad | ⟨hCsr, hCond⟩
  · exact ⟨_, _, hBad.exec P, Or.inl ⟨rfl, rfl⟩, .refl s⟩
  · by_cases hMode : s.hart.mode = .Hypervisor
    · exact ⟨_, _, hCsr.hypervisor hMode P,
        Or.inl ⟨rfl, rfl⟩, .refl s⟩
    · have hDenied : FloatCsrDenied s op d :=
        ⟨hCsr.1, hCsr.2, hOff, hMode⟩
      have hRd := hCond.resolve_left hMode
      rcases (hDenied.access P).kept hRd with ⟨s', h⟩
      exact ⟨_, s', h⟩

/-
  All other instructions are executed while the unit is off.
-/
theorem not_tracked_off
    (hInst : FloatInst op d)
    (hOff : s.hart.status.FS = 0)
    (hNot : ¬ (BadRounding s op d ∨
      (FloatCsrInst op d ∧ (s.hart.mode = .Hypervisor ∨
        d.rd = 0 ∨ s.gpr d.rd = 0)))) :
    ¬ ∃ out s', op.exec P d s = .ok (out, s') ∧
      RaisesIllegal s out s' ∧ FloatKept s s' := by
  rintro ⟨out, s', hExec, hRaises, hKept⟩
  rcases hInst with hKind | hCsr
  · rcases Option.isSome_iff_exists.mp hKind with ⟨k, hKind⟩
    have hEffect := Op.exec_float (P := P) (d := d) (s := s)
      hKind
    rw [hExec] at hEffect
    have hOut := hEffect.not_illegal
      (fun hBad => hNot (Or.inl hBad))
    have hFree : TrapFree s s' := by
      refine (Op.exec_effect op hExec).trapFree ?_
      intro hDenied
      rw [floatKind_csr hDenied.isCsr] at hKind
      cases hKind
    exact hFree.not_raises hOut hRaises
  · have hDenied : FloatCsrDenied s op d := by
      refine ⟨hCsr.1, hCsr.2, hOff, ?_⟩
      intro hMode
      exact hNot (Or.inr ⟨hCsr, Or.inl hMode⟩)
    have hAccess := hDenied.access P
    rw [hExec] at hAccess
    refine hAccess.not_kept ?_ ?_ hKept
    · intro hRd
      exact hNot (Or.inr ⟨hCsr, Or.inr (Or.inl hRd)⟩)
    · intro hVal
      exact hNot (Or.inr ⟨hCsr, Or.inr (Or.inr hVal)⟩)

/-
  Since no instruction writes `status`, one that puts
  anything new into the unit has to find it dirty.
-/
theorem tracked_on_iff
    (hInst : FloatInst op d)
    (hOn : s.hart.status.FS ≠ 0) :
    (∀ out s', op.exec P d s = .ok (out, s') →
      FloatChanged s s' →
        s'.hart.status.FS = 3 ∧ s'.hart.status.SD = 1) ↔
      (s.hart.status.FS = 3 ∧ s.hart.status.SD = 1) ∨
        (unitUpdate P s op d).InPlace s := by
  rcases hInst.unit (P := P) hOn with ⟨hResult, hStatus⟩
  constructor
  · intro hDirty
    cases hExec : op.exec P d s with
    | error e => exact Or.inr (hResult.fault e hExec)
    | ok r =>
        rcases r with ⟨out, s'⟩
        have hApplied := hResult.applied out s' hExec
        by_cases hPlace : (unitUpdate P s op d).InPlace s
        · exact Or.inr hPlace
        · have hNow := hDirty out s' hExec
            (hApplied.changed_iff.mpr hPlace)
          rw [hStatus out s' hExec] at hNow
          exact Or.inl hNow
  · rintro (hDirty | hPlace) out s' hExec hChanged
    · rw [hStatus out s' hExec]
      exact hDirty
    · have hApplied := hResult.applied out s' hExec
      exact absurd hPlace (hApplied.changed_iff.mp hChanged)

/-
  An instruction tracks the unit exactly if, with the unit
  off, something else than `FS` makes it illegal, and
  otherwise it finds the unit dirty or puts nothing new into
  it.
-/
theorem float_tracked_iff
    (P : Platform σ)
    (s : State σ)
    (op : Op)
    (d : InstructionData)
    (hInst : FloatInst op d) :
    FloatTracked P s op d ↔ FloatGuarded P s op d := by
  constructor
  · intro hTracked
    refine ⟨?_, ?_⟩
    · intro hOff
      by_contra hNot
      exact not_tracked_off hInst hOff hNot
        (hTracked.off hOff)
    · intro hOn
      exact (tracked_on_iff hInst hOn).mp (hTracked.dirty hOn)
  · intro hGuard
    refine ⟨?_, ?_⟩
    · intro hOff
      exact tracked_off hOff (hGuard.off hOff)
    · intro hOn
      exact (tracked_on_iff hInst hOn).mpr (hGuard.dirty hOn)

/- `frflags x0` is illegal while the unit is off. -/
theorem float_tracked_frflags :
    let d : InstructionData := ⟨0x00102073, 0, 0, 0, 1, 0, 2⟩
    FloatTracked Platform.bare (State.boot []) .CSRRS d := by
  intro d
  have hInst : FloatInst .CSRRS d :=
    Or.inr ⟨by decide, by decide⟩
  refine (float_tracked_iff Platform.bare (State.boot [])
    .CSRRS d hInst).mpr ⟨?_, ?_⟩
  · intro _
    exact Or.inr ⟨⟨by decide, by decide⟩, Or.inr (Or.inl rfl)⟩
  · intro hOn
    exact absurd (by decide) hOn

/-
  `fmv.w.x f1, x0` with the unit off: no exception is raised
  and the register is written.
-/
theorem float_not_tracked_fmv :
    let d : InstructionData := ⟨0xF00000D3, 0, 0, 1, 0, 0, 0⟩
    FloatInst .FMV_W_X d ∧
      ¬ FloatTracked Platform.bare (State.boot []) .FMV_W_X
        d := by
  intro d
  have hInst : FloatInst .FMV_W_X d := Or.inl rfl
  have hOff : (State.boot []).hart.status.FS = 0 := by decide
  refine ⟨hInst, ?_⟩
  intro hTracked
  refine not_tracked_off hInst hOff ?_ (hTracked.off hOff)
  rintro (⟨hKind, -⟩ | ⟨⟨hOp, -⟩, -⟩)
  · cases hKind
  · exact absurd hOp (by decide)

end RiscvEm
