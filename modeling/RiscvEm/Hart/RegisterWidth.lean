import RiscvEm.Hart.CsrControl
import RiscvEm.Hart.Eval
import RiscvEm.Sets.Returns

/-
  The fields of `status` that fix the widths of registers,
  and the one way to change them.

  Key definitions include:
    * `HartRel`
    * `WidthsFixed`
    * `ChangesUxl`

  Key theorems include:
    * `Machine.Run.fixed_iff`
    * `register_widths_fixed_iff`
-/

------------------------------------------------------------
-- Relations Across A Tick
------------------------------------------------------------

namespace RiscvEm

variable {σ : Type}
variable {P : Platform σ}
variable {op : Op}
variable {d : InstructionData}
variable {s s' : State σ}
variable {out : ExecReturn}
variable {R : Hart → Hart → Prop}

/-
  A relation that holds across all that a tick does to its
  hart, but for the writes of CSR instructions.
-/
structure HartRel
    (R : Hart → Hart → Prop) : Prop where
  refl : ∀ h, R h h
  trans : ∀ {h h' h''}, R h h' → R h' h'' → R h h''
  regs : ∀ (h : Hart) GPR FPR fcsr pc,
    R h { h with GPR := GPR, FPR := FPR, fcsr := fcsr, pc := pc }
  reservation : ∀ (h : Hart) r, R h { h with reservation := r }
  wait : ∀ (h : Hart) b, R h { h with WFI := b }
  exits : ∀ (h : Hart) a b,
    R h { h with lastJitPcExit := a, exitPc := b }
  counters : ∀ (h : Hart) csr val,
    csr = CSR_MCYCLE ∨ csr = CSR_MINSTRET →
      R h { h with csrs := Function.update h.csrs csr val }
  trap : ∀ (h : Hart) cause tval interrupt,
    R h (h.trap cause tval interrupt)
  mret : ∀ h, R h h.mret
  sret : ∀ h, R h h.sret

namespace HartRel

theorem onlyRegs
    (hR : HartRel R)
    (h : OnlyRegs s s') :
    R s.hart s'.hart := by
  rw [h.hart]
  exact hR.regs s.hart _ _ _ _

theorem mmioRead
    (hR : HartRel R)
    {addr val : BitVec 64}
    {size : MemorySize}
    {m : MemoryReturn}
    (h : s.mmioRead P addr size = .ok (m, val, s')) :
    R s.hart s'.hart := by
  rw [State.mmioRead_hart h]
  exact hR.refl _

theorem mmioWrite
    (hR : HartRel R)
    {addr val : BitVec 64}
    {size : MemorySize}
    {m : MemoryReturn}
    (h : s.mmioWrite P addr size val = .ok (m, s')) :
    R s.hart s'.hart := by
  rcases State.mmioWrite_cases h with
    ⟨-, -, mem, jctx, -, -, rfl⟩ |
    ⟨-, dev, world, mem, -, -, rfl⟩ | ⟨-, rfl⟩
  · exact hR.reservation _ _
  · exact hR.reservation _ _
  · exact hR.refl _

theorem zeroBytes
    (hR : HartRel R)
    (n : Nat)
    {addr : BitVec 64}
    {s : State σ}
    (h : RiscvEm.zeroBytes P addr n s = .ok s') :
    R s.hart s'.hart := by
  induction n generalizing addr s with
  | zero =>
      cases h
      exact hR.refl _
  | succ n ih =>
      rcases bind_eq_ok.mp h with ⟨⟨m, s₁⟩, hWrite, hRest⟩
      exact hR.trans (hR.mmioWrite hWrite) (ih hRest)

theorem csrReadIf
    (hR : HartRel R)
    (reads : Bool)
    (csr : BitVec 16)
    (s : State σ) :
    R s.hart (RiscvEm.csrReadIf reads csr s).hart := by
  unfold RiscvEm.csrReadIf
  split
  · by_cases hDenied : State.isFloatCsr csr = true ∧
        s.hart.status.FS = 0
    · rw [State.csrRead_denied hDenied.1 hDenied.2]
      exact hR.trap _ _ _ _
    · rw [s.csrRead_state csr hDenied]
      exact hR.refl _
  · exact hR.refl _

/- An instruction, given its write to a CSR. -/
theorem effect
    (hR : HartRel R)
    (hCsr : op ∈ csrOps → ∀ (s₁ : State σ) val,
      R s₁.hart (s₁.csrWrite d.csr val).hart)
    (h : Effect P op d s out s') :
    R s.hart s'.hart := by
  cases h with
  | regs _ hRegs => exact hR.onlyRegs hRegs
  | fault _ => exact hR.refl _
  | scFault _ _ _ _ => exact hR.refl _
  | load hRead _ _ hRegs =>
      exact hR.trans (hR.mmioRead hRead) (hR.onlyRegs hRegs)
  | store hWrite _ _ hRegs =>
      exact hR.trans (hR.mmioWrite hWrite) (hR.onlyRegs hRegs)
  | amo hRead _ hWrite _ _ hRegs =>
      exact hR.trans (hR.mmioRead hRead)
        (hR.trans (hR.mmioWrite hWrite) (hR.onlyRegs hRegs))
  | amoFault _ hRead _ _ _ _ => exact hR.mmioRead hRead
  | @lr s₁ _ addr _ size _ hRead _ _ hRegs =>
      have hReserve := hR.reservation s₁.hart ⟨addr, size, true⟩
      exact hR.trans (hR.mmioRead hRead)
        (hR.trans hReserve (hR.onlyRegs hRegs))
  | @sc s₁ _ _ _ _ _ _ hWrite _ _ hRegs =>
      have hFirst := hR.mmioWrite hWrite
      have hClear := hR.reservation s₁.hart
        s₁.clearReservation.hart.reservation
      exact hR.trans hFirst
        (hR.trans hClear (hR.onlyRegs hRegs))
  | scFail _ hRegs =>
      have hClear := hR.reservation s.hart
        s.clearReservation.hart.reservation
      exact hR.trans hClear (hR.onlyRegs hRegs)
  | csr reads writes val hOp _ _ _ _ hRead hWrite =>
      have hWritten : ∀ s₁ : State σ, R s₁.hart
          (csrWriteIf writes d.csr val s₁).hart := by
        intro s₁
        unfold csrWriteIf
        split
        · exact hCsr hOp s₁ val
        · exact hR.refl _
      exact hR.trans (hR.csrReadIf reads d.csr s)
        (hR.trans (hR.onlyRegs hRead)
          (hR.trans (hWritten _) (hR.onlyRegs hWrite)))
  | mret _ _ => exact hR.mret _
  | sret _ _ => exact hR.sret _
  | wfi _ _ _ => exact hR.wait _ _
  | fenceI _ => exact hR.refl _
  | cboRam _ _ _ => exact hR.refl _
  | cboDevice hZero _ => exact hR.zeroBytes 64 hZero

theorem setCounter
    (hR : HartRel R)
    (s : State σ)
    {csr : BitVec 16}
    (hCsr : csr = CSR_MCYCLE ∨ csr = CSR_MINSTRET)
    (val : BitVec 64) :
    R s.hart (s.setCsr csr val).hart := by
  unfold State.setCsr
  split
  · exact hR.refl _
  · exact hR.counters _ _ _ hCsr

theorem preTick
    (hR : HartRel R)
    (s : State σ) :
    R s.hart s.preTick.hart := by
  have hGpr : R s.hart (s.setGpr 0 0).hart :=
    hR.regs s.hart _ _ _ _
  have hCycle := hR.trans hGpr (hR.setCounter (s.setGpr 0 0)
    (Or.inl rfl) ((s.setGpr 0 0).csr CSR_MCYCLE + 1))
  unfold State.preTick
  dsimp only
  split
  · unfold State.checkInts
    split
    · exact hR.trans hCycle (hR.trap _ _ _ _)
    · exact hCycle
  · exact hCycle

theorem atFetch
    (hR : HartRel R)
    (s : State σ) :
    R s.hart s.atFetch.hart :=
  hR.trans (hR.preTick s) (hR.exits s.preTick.hart 0 _)

theorem retire
    (hR : HartRel R)
    (s : State σ)
    (out : ExecReturn) :
    R s.hart (s.retire out).hart := by
  unfold State.retire
  refine hR.trans (hR.setCounter s (Or.inr rfl)
    (s.csr CSR_MINSTRET + 1)) ?_
  exact hR.regs (s.setCsr CSR_MINSTRET _).hart _ _ _ _

/- The state in which an instruction is executed. -/
theorem fetched
    (hR : HartRel R)
    {m : MemoryReturn}
    {val : BitVec 64}
    {s₁ : State σ}
    (h : s.mmioRead P s.hart.pc .Int = .ok (m, val, s₁))
    (w : BitVec 32) :
    R s.hart ((s₁.afterFetch m).decode w).2.hart := by
  refine hR.trans (hR.mmioRead h) ?_
  unfold State.afterFetch
  split
  · exact hR.refl _
  · exact hR.trap _ _ _ _

theorem executes
    (hR : HartRel R)
    {i : Instruction}
    {b : State σ}
    (h : Executes P s i d b) :
    R s.hart b.hart := by
  cases h with
  | mk hRead _ => exact hR.fetched hRead _

/- A tick, given what the instruction that it executes does. -/
theorem tick
    (hR : HartRel R)
    (h : s.tick P = .ok s')
    (hExec : ∀ i d b out b', s.Interprets →
      Executes P s.atFetch i d b →
      i.func.exec P d b = .ok (out, b') → R b.hart b'.hart) :
    R s.hart s'.hart := by
  have hPre := hR.preTick s
  rcases State.tick_cases h with
    ⟨b, rfl⟩ | ⟨f, -, -, hCall⟩ | ⟨f, -, rfl⟩ |
    ⟨hInt, hTick⟩
  · exact hR.trans hPre (hR.wait _ _)
  · rcases bind_eq_ok.mp hCall with ⟨s₁, hRun, hEq⟩
    have hHart := (runBlock_onlyCompiled hRun).hart
    have hDone : R s.preTick.hart s₁.hart := by
      rw [hHart]
      have hExits := hR.exits s.preTick.hart
        s.preTick.hart.lastJitPcExit 0
      exact hR.trans hExits (hR.regs _ _ _ _ _)
    cases hEq
    refine hR.trans hPre (hR.trans hDone ?_)
    split
    · have hExits := hR.exits s₁.hart s₁.hart.exitPc
        s₁.hart.exitPc
      exact hR.trans hExits (hR.regs _ _ _ _ s₁.hart.exitPc)
    · exact hR.regs s₁.hart _ _ _ _
  · exact hPre
  · rcases State.interpret_cases hTick with
      ⟨m, val, s₁, hRead, hRun⟩
    refine hR.trans (hR.atFetch s)
      (hR.trans (hR.fetched hRead (val.setWidth 32)) ?_)
    rcases State.runEntry_cases hRun with
      ⟨-, rfl⟩ | ⟨i, out, s₂, hSel, hOp, hEnd⟩
    · exact hR.trap _ _ _ _
    · have hDone := hExec i _ _ out s₂ hInt
        (.mk hRead hSel) hOp
      rcases hEnd with ⟨-, rfl⟩ | ⟨-, j, -, rfl⟩
      · exact hR.trans hDone (hR.trap _ _ _ _)
      · exact hR.trans hDone (hR.retire s₂ out)

end HartRel

end RiscvEm

------------------------------------------------------------
-- The Width Fields
------------------------------------------------------------

namespace RiscvEm

variable {σ : Type}
variable {P : Platform σ}
variable {op : Op}
variable {d : InstructionData}
variable {s s' : State σ}
variable {out : ExecReturn}

namespace Status

def UXL (s : Status) : BitVec 2 := s.extractLsb' 32 2
def SXL (s : Status) : BitVec 2 := s.extractLsb' 34 2

end Status

/- Registers of 64 bits in user and in supervisor mode. -/
structure WidthsFixed
    (h : Hart) : Prop where
  uxl : h.status.UXL = 2
  sxl : h.status.SXL = 2

/- Both fields are as before. -/
structure WidthsKept
    (a b : Status) : Prop where
  uxl : b.UXL = a.UXL
  sxl : b.SXL = a.SXL

namespace WidthsKept

theorem refl
    (a : Status) :
    WidthsKept a a :=
  ⟨rfl, rfl⟩

theorem trans
    {a b c : Status}
    (h : WidthsKept a b)
    (h' : WidthsKept b c) :
    WidthsKept a c :=
  ⟨h'.uxl.trans h.uxl, h'.sxl.trans h.sxl⟩

/- A field outside of the widths is written. -/
theorem setField
    {a b : Status}
    {n lo : Nat}
    (h : WidthsKept a b)
    (v : BitVec n)
    (hOut : lo + n ≤ 32 ∨ 36 ≤ lo) :
    WidthsKept a (RiscvEm.setField b lo v) := by
  refine h.trans ⟨?_, ?_⟩
  · exact extract_setField_of_disjoint b lo v 32 2 (by omega)
  · exact extract_setField_of_disjoint b lo v 34 2 (by omega)

theorem fixed_iff
    {h h' : Hart}
    (hk : WidthsKept h.status h'.status) :
    WidthsFixed h' ↔ WidthsFixed h := by
  constructor
  · rintro ⟨hUxl, hSxl⟩
    exact ⟨hk.uxl.symm.trans hUxl, hk.sxl.symm.trans hSxl⟩
  · rintro ⟨hUxl, hSxl⟩
    exact ⟨hk.uxl.trans hUxl, hk.sxl.trans hSxl⟩

theorem trap
    (h : Hart)
    (cause tval : BitVec 64)
    (interrupt : Bool) :
    WidthsKept h.status
      (h.trap cause tval interrupt).status := by
  unfold Hart.trap
  split
  · exact (((refl h.status).setField _ (by decide)).setField
      _ (by decide)).setField _ (by decide)
  · exact (((refl h.status).setField _ (by decide)).setField
      _ (by decide)).setField _ (by decide)

theorem mret
    (h : Hart) :
    WidthsKept h.status h.mret.status := by
  have hTarget : WidthsKept h.status (mretTarget h).2 := by
    unfold mretTarget
    repeat' split
    all_goals first
      | exact refl _
      | exact (refl _).setField _ (by decide)
  exact ((hTarget.setField _ (by decide)).setField
    _ (by decide)).setField _ (by decide)

theorem sret
    (h : Hart) :
    WidthsKept h.status h.sret.status := by
  have hTarget : WidthsKept h.status (sretTarget h).2 := by
    unfold sretTarget
    split
    · exact refl _
    · exact (refl _).setField _ (by decide)
  exact ((hTarget.setField _ (by decide)).setField
    _ (by decide)).setField _ (by decide)

/- Nothing but a write to a CSR changes the widths. -/
theorem hartRel :
    HartRel (fun h h' => WidthsKept h.status h'.status) where
  refl _ := ⟨rfl, rfl⟩
  trans := trans
  regs _ _ _ _ _ := ⟨rfl, rfl⟩
  reservation _ _ := ⟨rfl, rfl⟩
  wait _ _ := ⟨rfl, rfl⟩
  exits _ _ _ := ⟨rfl, rfl⟩
  counters _ _ _ _ := ⟨rfl, rfl⟩
  trap := trap
  mret := mret
  sret := sret

/- A masked write to a field outside of the mask. -/
theorem extract_masked_clear
    {old new mask : BitVec 64}
    {lo n : Nat}
    (hLt : lo + n < 64)
    (hMask : mask.extractLsb' lo n = 0) :
    ((old &&& ~~~mask) ||| (new &&& mask)).extractLsb' lo n =
      old.extractLsb' lo n := by
  rw [BitVec.extractLsb'_or, BitVec.extractLsb'_and,
    BitVec.extractLsb'_and, BitVec.extractLsb'_not_of_lt hLt,
    hMask]
  simp

/- A masked write to a field inside of the mask. -/
theorem extract_masked_set
    {old new mask : BitVec 64}
    {lo n : Nat}
    (hLt : lo + n < 64)
    (hMask : mask.extractLsb' lo n = BitVec.allOnes n) :
    ((old &&& ~~~mask) ||| (new &&& mask)).extractLsb' lo n =
      new.extractLsb' lo n := by
  rw [BitVec.extractLsb'_or, BitVec.extractLsb'_and,
    BitVec.extractLsb'_and, BitVec.extractLsb'_not_of_lt hLt,
    hMask]
  simp

/- A write to another register, or to `mstatus`. -/
theorem csrWrite
    (s : State σ)
    {csr : BitVec 16}
    (hCsr : csr ≠ CSR_SSTATUS)
    (val : BitVec 64) :
    WidthsKept s.hart.status (s.csrWrite csr val).hart.status
    := by
  by_cases hStatus : csr = CSR_MSTATUS
  · subst hStatus
    have hWritten : (s.csrWrite CSR_MSTATUS val).hart.status =
        (val &&& ~~~MSTATUS_RO_MASK) |||
          (s.hart.status &&& MSTATUS_RO_MASK) :=
      BitVec.or_comm _ _
    rw [hWritten]
    constructor
    · exact extract_masked_set (by decide) (by decide)
    · exact extract_masked_set (by decide) (by decide)
  · unfold State.csrWrite
    dsimp only
    rw [if_neg hStatus, if_neg hCsr]
    repeat' split
    all_goals first
      | exact refl _
      | exact trap _ _ _ _
      | skip
    unfold State.setCsr
    split
    · exact refl _
    · exact refl _

end WidthsKept

/- A write to `sstatus` writes UXL, but not SXL. -/
theorem csrWrite_sstatus_widths
    (s : State σ)
    (val : BitVec 64) :
    (s.csrWrite CSR_SSTATUS val).hart.status.UXL =
        Status.UXL val ∧
      (s.csrWrite CSR_SSTATUS val).hart.status.SXL =
        s.hart.status.SXL := by
  constructor
  · exact WidthsKept.extract_masked_set (by decide) (by decide)
  · exact WidthsKept.extract_masked_clear (by decide)
      (by decide)

end RiscvEm

------------------------------------------------------------
-- Writes To The Supervisor's View
------------------------------------------------------------

namespace RiscvEm

variable {σ : Type}
variable {P : Platform σ}
variable {op : Op}
variable {d : InstructionData}
variable {s s' : State σ}
variable {out : ExecReturn}

/-
  An instruction writes `sstatus` in a mode that may access
  it.
-/
structure WritesSstatus
    (s : State σ)
    (op : Op)
    (d : InstructionData) : Prop where
  isCsrOp : op ∈ csrOps
  csr : d.csr = CSR_SSTATUS
  mode : compatibleMode .Supervisor s.hart.mode = true
  writes : csrWrites op d = true

/- The checks of a CSR instruction on that register. -/
theorem csrAllowed_sstatus
    (hCsr : d.csr = CSR_SSTATUS)
    (write : Bool) :
    csrAllowed s d write =
      compatibleMode .Supervisor s.hart.mode := by
  have hAccess : ∀ mode, csrAccessible CSR_SSTATUS mode write =
      compatibleMode .Supervisor mode := by
    intro mode
    cases write <;> cases mode <;> decide
  have hSatp : (CSR_SSTATUS == CSR_SATP) = false := by decide
  have hCounter : CSR_SSTATUS < 0xC00 ∨ 0xC1F < CSR_SSTATUS :=
    Or.inl (by decide)
  unfold csrAllowed counterEnabled
  rw [hCsr, hAccess, hSatp, if_pos hCounter, Bool.and_false,
    Bool.not_false, Bool.true_and, Bool.true_and]

/- What an instruction on that register leaves in `status`. -/
structure SstatusResult
    (s s' : State σ)
    (op : Op)
    (d : InstructionData)
    (out : ExecReturn) : Prop where
  written : WritesSstatus s op d →
    out.isSuccess = true ∧
      s'.hart.status = (s.csrWrite CSR_SSTATUS
        (csrNewValue op d s)).hart.status
  kept : ¬ WritesSstatus s op d →
    s'.hart.status = s.hart.status

theorem execCSRRW_sstatus
    (hCsr : d.csr = CSR_SSTATUS)
    (h : execCSRRW P d s = .ok (out, s')) :
    SstatusResult s s' .CSRRW d out := by
  unfold execCSRRW at h
  rw [csrAllowed_sstatus hCsr] at h
  split at h
  case isTrue hMode =>
    have hWrites : WritesSstatus s .CSRRW d :=
      ⟨by decide, hCsr, hMode, rfl⟩
    rcases ok_pair h with ⟨rfl, rfl⟩
    refine ⟨fun _ => ⟨rfl, ?_⟩, fun hNot => absurd hWrites hNot⟩
    rw [hCsr]
    split
    · rfl
    · rfl
  case isFalse hMode =>
    cases h
    exact ⟨fun hWrites => absurd hWrites.mode hMode, fun _ => rfl⟩

theorem execCSRRWI_sstatus
    (hCsr : d.csr = CSR_SSTATUS)
    (h : execCSRRWI P d s = .ok (out, s')) :
    SstatusResult s s' .CSRRWI d out := by
  unfold execCSRRWI at h
  rw [csrAllowed_sstatus hCsr] at h
  split at h
  case isTrue hMode =>
    have hWrites : WritesSstatus s .CSRRWI d :=
      ⟨by decide, hCsr, hMode, rfl⟩
    rcases ok_pair h with ⟨rfl, rfl⟩
    refine ⟨fun _ => ⟨rfl, ?_⟩, fun hNot => absurd hWrites hNot⟩
    rw [hCsr]
    dsimp only
    split
    · rfl
    · rfl
  case isFalse hMode =>
    cases h
    exact ⟨fun hWrites => absurd hWrites.mode hMode, fun _ => rfl⟩

theorem execCsrBits_sstatus
    {operand : State σ → InstructionData → BitVec 64}
    {f : BitVec 64 → BitVec 64 → BitVec 64}
    (hOp : op ∈ csrOps)
    (hBits : csrWrites op d = (d.rs1 != 0))
    (hVal : csrNewValue op d s =
      f (s.csrRead d.csr).1 (operand s d))
    (hCsr : d.csr = CSR_SSTATUS)
    (h : execCsrBits operand f P d s = .ok (out, s')) :
    SstatusResult s s' op d out := by
  unfold execCsrBits at h
  rw [csrAllowed_sstatus hCsr] at h
  split at h
  case isTrue hMode =>
    rcases ok_pair h with ⟨rfl, rfl⟩
    rw [hCsr] at hVal ⊢
    by_cases hRs : d.rs1 ≠ 0
    · have hWrites : WritesSstatus s op d :=
        ⟨hOp, hCsr, hMode, hBits.trans (bne_iff_ne.mpr hRs)⟩
      refine ⟨fun _ => ⟨rfl, ?_⟩,
        fun hNot => absurd hWrites hNot⟩
      rw [if_pos hRs, hVal]
      rfl
    · refine ⟨fun hWrites => ?_, fun _ => ?_⟩
      · have hNe := hBits.symm.trans hWrites.writes
        exact absurd (bne_iff_ne.mp hNe) hRs
      · rw [if_neg hRs]
        rfl
  case isFalse hMode =>
    cases h
    exact ⟨fun hWrites => absurd hWrites.mode hMode, fun _ => rfl⟩

section Dispatch

seal execCSRRW execCSRRWI execCsrBits

theorem csr_exec_sstatus
    (hOp : op ∈ csrOps)
    (hCsr : d.csr = CSR_SSTATUS)
    (h : op.exec P d s = .ok (out, s')) :
    SstatusResult s s' op d out := by
  have hMem := hOp
  simp only [csrOps, List.mem_cons, List.not_mem_nil,
    or_false] at hOp
  rcases hOp with rfl | rfl | rfl | rfl | rfl | rfl
  · exact execCSRRW_sstatus hCsr h
  · exact execCsrBits_sstatus hMem
      (csrWrites_of_ne (by decide) (by decide)) rfl hCsr h
  · exact execCsrBits_sstatus hMem
      (csrWrites_of_ne (by decide) (by decide)) rfl hCsr h
  · exact execCSRRWI_sstatus hCsr h
  · exact execCsrBits_sstatus hMem
      (csrWrites_of_ne (by decide) (by decide)) rfl hCsr h
  · exact execCsrBits_sstatus hMem
      (csrWrites_of_ne (by decide) (by decide)) rfl hCsr h

end Dispatch

end RiscvEm

------------------------------------------------------------
-- Ticks
------------------------------------------------------------

namespace RiscvEm

variable {σ : Type}
variable {P : Platform σ}
variable {s s' : State σ}

/-
  A tick that executes a write to `sstatus` whose value has
  another UXL than 2.
-/
def ChangesUxl
    (P : Platform σ)
    (s : State σ) : Prop :=
  s.Interprets ∧ ∃ i d b, Executes P s.atFetch i d b ∧
    WritesSstatus b i.func d ∧
    Status.UXL (csrNewValue i.func d b) ≠ 2

/- The tick in which an instruction is executed. -/
theorem Executes.tick_cases
    {i : Instruction}
    {d : InstructionData}
    {b : State σ}
    (h : Executes P s.atFetch i d b)
    (hInt : s.Interprets)
    (hTick : s.tick P = .ok s') :
    ∃ out b', i.func.exec P d b = .ok (out, b') ∧
      ((out.isSuccess = false ∧
          s' = b'.stopAndTrap out.cause out.tval) ∨
        (out.isSuccess = true ∧
          ∃ j, s' = (b'.retire out).setJctx j)) := by
  rw [hInt.tick_eq] at hTick
  cases h with
  | @mk m val s₁ _ hRead hSel =>
      rw [State.interpret_of_read hRead] at hTick
      rcases State.runEntry_cases hTick with
        ⟨hNone, -⟩ | ⟨j, out, b', hSel', hExec, hEnd⟩
      · rw [hNone] at hSel
        cases hSel
      · cases Option.some.inj (hSel'.symm.trans hSel)
        refine ⟨out, b', hExec, ?_⟩
        rcases hEnd with ⟨hFail, hEq⟩ | ⟨hOk, j, -, hEq⟩
        · exact Or.inl ⟨hFail, hEq⟩
        · exact Or.inr ⟨hOk, j, hEq⟩

/- An instruction that writes another register. -/
theorem exec_widthsKept
    {op : Op}
    {d : InstructionData}
    {out : ExecReturn}
    (h : op.exec P d s = .ok (out, s'))
    (hNot : ¬ WritesSstatus s op d) :
    WidthsKept s.hart.status s'.hart.status := by
  by_cases hSstatus : op ∈ csrOps ∧ d.csr = CSR_SSTATUS
  · have hResult := csr_exec_sstatus hSstatus.1 hSstatus.2 h
    rw [hResult.kept hNot]
    exact .refl _
  · refine WidthsKept.hartRel.effect ?_ (Op.exec_effect op h)
    intro hOp s₁ val
    exact WidthsKept.csrWrite s₁
      (fun hCsr => hSstatus ⟨hOp, hCsr⟩) val

/- The widths hold after what they held before. -/
theorem widthsFixed_rel :
    HartRel (fun h h' => WidthsFixed h → WidthsFixed h') where
  refl _ := id
  trans hR hR' := fun h => hR' (hR h)
  regs _ _ _ _ _ :=
    (WidthsKept.fixed_iff (WidthsKept.hartRel.regs ..)).mpr
  reservation _ _ :=
    (WidthsKept.fixed_iff
      (WidthsKept.hartRel.reservation ..)).mpr
  wait _ _ :=
    (WidthsKept.fixed_iff (WidthsKept.hartRel.wait ..)).mpr
  exits _ _ _ :=
    (WidthsKept.fixed_iff (WidthsKept.hartRel.exits ..)).mpr
  counters _ _ _ hCsr :=
    (WidthsKept.fixed_iff
      (WidthsKept.hartRel.counters _ _ _ hCsr)).mpr
  trap _ _ _ _ := (WidthsKept.fixed_iff (.trap ..)).mpr
  mret _ := (WidthsKept.fixed_iff (.mret _)).mpr
  sret _ := (WidthsKept.fixed_iff (.sret _)).mpr

/- A tick keeps the widths unless it writes another UXL. -/
theorem State.tick_widthsFixed_iff
    (hTick : s.tick P = .ok s')
    (hFixed : WidthsFixed s.hart) :
    WidthsFixed s'.hart ↔ ¬ ChangesUxl P s := by
  constructor
  · rintro hDone ⟨hInt, i, d, b, hExec, hWrites, hUxl⟩
    rcases hExec.tick_cases hInt hTick with
      ⟨out, b', hOp, hEnd⟩
    have hResult := csr_exec_sstatus hWrites.isCsrOp
      hWrites.csr hOp
    rcases hResult.written hWrites with ⟨hOk, hStatus⟩
    rcases hEnd with ⟨hFail, -⟩ | ⟨-, j, rfl⟩
    · rw [hOk] at hFail
      cases hFail
    · have hRetired : ((b'.retire out).setJctx j).hart.status =
          b'.hart.status :=
        rfl
      have hDoneUxl := hDone.uxl
      rw [hRetired, hStatus,
        (csrWrite_sstatus_widths b _).1] at hDoneUxl
      exact hUxl hDoneUxl
  · intro hNot
    refine widthsFixed_rel.tick hTick ?_ hFixed
    intro i d b out b' hInt hExec hOp hBefore
    by_cases hWrites : WritesSstatus b i.func d
    · have hUxl : Status.UXL (csrNewValue i.func d b) = 2 := by
        by_contra hNe
        exact hNot ⟨hInt, i, d, b, hExec, hWrites, hNe⟩
      have hResult := csr_exec_sstatus hWrites.isCsrOp
        hWrites.csr hOp
      rcases csrWrite_sstatus_widths b
        (csrNewValue i.func d b) with ⟨hNewUxl, hNewSxl⟩
      constructor
      · rw [(hResult.written hWrites).2, hNewUxl, hUxl]
      · rw [(hResult.written hWrites).2, hNewSxl, hBefore.sxl]
    · exact (exec_widthsKept hOp hWrites).fixed_iff.mpr hBefore

end RiscvEm

------------------------------------------------------------
-- Runs
------------------------------------------------------------

namespace RiscvEm

variable {σ : Type}
variable {P : Platform σ}

/-
  A property of harts that a tick keeps exactly when it is no
  tick of some kind, in a machine of which an invariant
  holds: in a run it holds of every hart after every tick
  exactly when no tick is of that kind.
-/
theorem Machine.Run.holds_iff
    {I : Hart → Prop}
    {K : Machine σ → Prop}
    {B : State σ → Prop}
    (hK : ∀ {m : Machine σ} {t} {m' : Machine σ},
      Machine.Step P m t m' → K m → K m')
    (hTick : ∀ {m : Machine σ} {i c} {s : State σ}, K m →
      m.harts[i]? = some c → (m.state i c).tick P = .ok s →
      I c.hart → (I s.hart ↔ ¬ B (m.state i c)))
    {m m' : Machine σ}
    {ts : List (State σ × State σ)}
    (h : Machine.Run P m ts m')
    (hInv : K m)
    (hStart : ∀ c ∈ m.harts, I c.hart) :
    K m' ∧
      ((∀ t ∈ ts, I t.2.hart) → ∀ c ∈ m'.harts, I c.hart) ∧
      ((∀ t ∈ ts, I t.2.hart) ↔ ∀ t ∈ ts, ¬ B t.1) := by
  induction h with
  | start =>
      refine ⟨hInv, fun _ => hStart, ?_⟩
      constructor
      · intro _ t hMem
        cases hMem
      · intro _ t hMem
        cases hMem
  | @step ts t m₁ m₂ hRun hStep ih =>
      rcases ih with ⟨hInv₁, hHarts, hIff⟩
      refine ⟨hK hStep hInv₁, ?_, ?_⟩
      · intro hAll c hMem
        have hOld := hHarts (fun t hMem =>
          hAll t (List.mem_append_right _ hMem))
        cases hStep with
        | @tick i c₀ s hCore hTicked =>
            rcases List.mem_or_eq_of_mem_set hMem with
              hSame | hNew
            · exact hOld c hSame
            · rw [hNew]
              exact hAll _ (List.mem_append_left _
                (Option.mem_toList.mpr rfl))
        | device world => exact hOld c hMem
      · rw [List.forall_mem_append, List.forall_mem_append]
        cases hStep with
        | @tick i c₀ s hCore hTicked =>
            simp only [Option.toList_some, List.mem_singleton,
              forall_eq]
            constructor
            · rintro ⟨hNew, hOld⟩
              have hBefore := hHarts hOld c₀
                (List.mem_of_getElem? hCore)
              exact ⟨(hTick hInv₁ hCore hTicked hBefore).mp
                hNew, hIff.mp hOld⟩
            · rintro ⟨hNew, hOld⟩
              have hBefore := hHarts (hIff.mpr hOld) c₀
                (List.mem_of_getElem? hCore)
              exact ⟨(hTick hInv₁ hCore hTicked hBefore).mpr
                hNew, hIff.mpr hOld⟩
        | device world =>
            simp only [Option.toList_none, List.not_mem_nil,
              false_implies, implies_true, true_and]
            exact hIff

theorem Machine.Started.widthsFixed
    {m : Machine σ}
    (h : m.Started) :
    ∀ c ∈ m.harts, WidthsFixed c.hart := by
  intro c hMem
  rcases h c hMem with ⟨h, dtb, pc, hEq⟩
  rw [hEq]
  constructor
  · exact extract_setField_self _ 32 2#2 (by decide)
  · refine (extract_setField_of_disjoint _ 32 2#2 34 2
      (by decide)).trans ?_
    exact extract_setField_self _ 34 2#2 (by decide)

/-
  In a run from the start, UXL and SXL are 2 after every
  tick, and at the end for every hart, exactly when no tick
  writes another UXL through `sstatus`.
-/
theorem register_widths_fixed_iff
    (P : Platform σ)
    (m m' : Machine σ)
    (ts : List (State σ × State σ))
    (hStart : m.Started)
    (hRun : m.Run P ts m') :
    ((∀ t ∈ ts, WidthsFixed t.2.hart) ∧
        ∀ c ∈ m'.harts, WidthsFixed c.hart) ↔
      ∀ t ∈ ts, ¬ ChangesUxl P t.1 := by
  rcases hRun.holds_iff (I := WidthsFixed)
    (K := fun _ => True) (fun _ _ => trivial)
    (fun _ _ hTick hFixed =>
      State.tick_widthsFixed_iff hTick hFixed)
    trivial hStart.widthsFixed with ⟨-, hHarts, hIff⟩
  rw [← hIff]
  exact ⟨fun h => h.1, fun h => ⟨h, hHarts h⟩⟩

theorem started_single_boot
    (program : List (BitVec 32)) :
    (Machine.single (State.boot program)).Started := by
  intro c hMem
  rw [List.mem_singleton.mp hMem]
  exact ⟨Hart.zero 0, 0x800E0000, 0x80000000, rfl⟩

/- `csrrw x0, mstatus, x0`. -/
def mstatusProgram : List (BitVec 32) :=
  [0x30001073]

/- `csrrw x0, sstatus, x0`. -/
def sstatusProgram : List (BitVec 32) :=
  [0x10001073]

/- Zero written to `mstatus` leaves the widths alone. -/
theorem register_widths_mstatus :
    ∃ s, (Machine.single (State.boot mstatusProgram)).Run
        Platform.bare [(State.boot mstatusProgram, s)]
        (.single s) ∧
      ¬ ChangesUxl Platform.bare
        (State.boot mstatusProgram) := by
  have hStatus : ((State.boot mstatusProgram).evalTick
      Platform.bare).toOption.map
        (fun s => (s.hart.status.UXL, s.hart.status.SXL)) =
      some (2, 2) := by
    decide +kernel
  rcases Option.map_eq_some_iff.mp hStatus with ⟨s, hTick, hs⟩
  rw [toOption_eq_some, ← State.tick_eq_evalTick] at hTick
  have hRun := Machine.Run.start.tick_single rfl hTick
  rw [Prod.mk.injEq] at hs
  have hFixed : WidthsFixed s.hart := ⟨hs.1, hs.2⟩
  refine ⟨s, hRun, ?_⟩
  refine (register_widths_fixed_iff Platform.bare _ _ _
    (started_single_boot _) hRun).mp ⟨?_, ?_⟩ _
    (List.mem_singleton_self _)
  · intro t hMem
    rw [List.mem_singleton.mp hMem]
    exact hFixed
  · intro c hMem
    rw [List.mem_singleton.mp hMem]
    exact hFixed

/- Zero written to `sstatus` makes UXL zero. -/
theorem register_widths_sstatus :
    (Machine.single (State.boot sstatusProgram)).Started ∧
    ∃ s, (Machine.single (State.boot sstatusProgram)).Run
        Platform.bare [(State.boot sstatusProgram, s)]
        (.single s) ∧
      s.hart.status.UXL = 0 := by
  have hStatus : ((State.boot sstatusProgram).evalTick
      Platform.bare).toOption.map
        (fun s => s.hart.status.UXL) = some 0 := by
    decide +kernel
  rcases Option.map_eq_some_iff.mp hStatus with ⟨s, hTick, hs⟩
  rw [toOption_eq_some, ← State.tick_eq_evalTick] at hTick
  exact ⟨started_single_boot _, s,
    Machine.Run.start.tick_single rfl hTick, hs⟩

end RiscvEm
