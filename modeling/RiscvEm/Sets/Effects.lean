import RiscvEm.Sets.Exec

/-
  What executing one instruction can do to the state, said
  once for all instructions.

  Key definitions include:
    * `OnlyRegs`
    * `Effect`

  Key theorems include `Op.exec_effect`.
-/

------------------------------------------------------------
-- Register Changes
------------------------------------------------------------

namespace RiscvEm

variable {σ : Type}

/-
  The states differ at most in the integer and floating-point
  registers, `fcsr`, the program counter and the rounding
  mode of the host.
-/
structure OnlyRegs
    (s s' : State σ) : Prop where
  hart : s'.hart = { s.hart with
    GPR := s'.hart.GPR
    FPR := s'.hart.FPR
    fcsr := s'.hart.fcsr
    pc := s'.hart.pc }
  rest : s' = { s with hart := s'.hart, round := s'.round }

namespace OnlyRegs

variable {s s' s'' : State σ}

/- Doing nothing changes registers only. -/
theorem refl
    (s : State σ) :
    OnlyRegs s s :=
  ⟨rfl, rfl⟩

/- Register changes one after the other. -/
theorem trans
    (h : OnlyRegs s s')
    (h' : OnlyRegs s' s'') :
    OnlyRegs s s'' := by
  refine ⟨?_, ?_⟩
  · rw [h'.hart, h.hart]
  · rw [h'.rest, h.rest]

/- Writing an integer register is such a change. -/
theorem setGpr
    (h : OnlyRegs s s')
    (r : BitVec 5)
    (v : BitVec 64) :
    OnlyRegs s (s'.setGpr r v) :=
  h.trans ⟨rfl, rfl⟩

/-
  Writing a floating-point register is an effect on
  registers.
-/
theorem setFpr
    (h : OnlyRegs s s')
    (r : BitVec 5)
    (v : BitVec 64) :
    OnlyRegs s (s'.setFpr r v) :=
  h.trans ⟨rfl, rfl⟩

theorem setPc
    (h : OnlyRegs s s')
    (pc : BitVec 64) :
    OnlyRegs s (s'.setPc pc) :=
  h.trans ⟨rfl, rfl⟩

/- Raising flags is one as well. -/
theorem orFlags
    (h : OnlyRegs s s')
    (flags : BitVec 5) :
    OnlyRegs s (s'.orFlags flags) :=
  h.trans ⟨rfl, rfl⟩

theorem flagInvalidOnly
    (h : OnlyRegs s s') :
    OnlyRegs s s'.flagInvalidOnly :=
  h.trans ⟨rfl, rfl⟩

/- The rounding mode of the host counts as a register. -/
theorem setRound
    (h : OnlyRegs s s')
    (r : RoundMode) :
    OnlyRegs s (s'.setRound r) :=
  h.trans ⟨rfl, rfl⟩

theorem self (h : OnlyRegs s s') : s'.self = s.self := by
  rw [h.rest]

theorem jctx (h : OnlyRegs s s') : s'.jctx = s.jctx := by
  rw [h.rest]

theorem mem (h : OnlyRegs s s') : s'.mem = s.mem := by
  rw [h.rest]

theorem world (h : OnlyRegs s s') : s'.world = s.world := by
  rw [h.rest]

theorem cache (h : OnlyRegs s s') : s'.cache = s.cache := by
  rw [h.rest]

theorem trace (h : OnlyRegs s s') : s'.trace = s.trace := by
  rw [h.rest]

theorem mode (h : OnlyRegs s s') :
    s'.hart.mode = s.hart.mode := by
  rw [h.hart]

theorem reservation (h : OnlyRegs s s') :
    s'.hart.reservation = s.hart.reservation := by
  rw [h.hart]

end OnlyRegs

end RiscvEm

------------------------------------------------------------
-- Effects
------------------------------------------------------------

namespace RiscvEm

variable {σ : Type}

/- The instructions of Zicsr. -/
def csrOps : List Op :=
  [.CSRRW, .CSRRS, .CSRRC, .CSRRWI, .CSRRSI, .CSRRCI]

/- The width of an atomic memory operation. -/
def amoSize : Op → Option MemorySize
  | .AMOSWAP_W | .AMOADD_W | .AMOXOR_W | .AMOAND_W
  | .AMOOR_W | .AMOMIN_W | .AMOMAX_W | .AMOMINU_W
  | .AMOMAXU_W => some .Int
  | .AMOSWAP_D | .AMOADD_D | .AMOXOR_D | .AMOAND_D
  | .AMOOR_D | .AMOMIN_D | .AMOMAX_D | .AMOMINU_D
  | .AMOMAXU_D => some .Long
  | _ => none

/-
  The register may be written, or the instruction is the one
  whose check takes a write of zero for a read.
-/
def CsrWriteAllowed
    (op : Op)
    (d : InstructionData)
    (s : State σ)
    (val : BitVec 64) : Prop :=
  csrAccessible d.csr s.hart.mode true = true ∨
    (op = .CSRRWI ∧ d.rs1 = 0 ∧ val = 0)

/- The state after a read that may be left out. -/
def csrReadIf
    (reads : Bool)
    (csr : BitVec 16)
    (s : State σ) : State σ :=
  if reads then (s.csrRead csr).2 else s

/- The state after a write that may be left out. -/
def csrWriteIf
    (writes : Bool)
    (csr : BitVec 16)
    (val : BitVec 64)
    (s : State σ) : State σ :=
  if writes then s.csrWrite csr val else s

/-
  The effects of an instruction, one for each way in which
  it can change more than registers.
-/
inductive Effect
    (P : Platform σ)
    (op : Op)
    (d : InstructionData)
    (s : State σ) : ExecReturn → State σ → Prop
  | regs {out : ExecReturn} {s' : State σ} :
      out.isSuccess = true → OnlyRegs s s' →
      Effect P op d s out s'
  | fault {out : ExecReturn} :
      out.isSuccess = false → Effect P op d s out s
  | load {out : ExecReturn} {s₁ s' : State σ}
      {addr val : BitVec 64} {size : MemorySize}
      {m : MemoryReturn} :
      s.mmioRead P addr size = .ok (m, val, s₁) →
      m.isSuccess = true → out.isSuccess = true →
      OnlyRegs s₁ s' → Effect P op d s out s'
  | store {out : ExecReturn} {s₁ s' : State σ}
      {addr val : BitVec 64} {size : MemorySize}
      {m : MemoryReturn} :
      s.mmioWrite P addr size val = .ok (m, s₁) →
      m.isSuccess = true → out.isSuccess = true →
      OnlyRegs s₁ s' → Effect P op d s out s'
  | amo {out : ExecReturn} {s₁ s₂ s' : State σ}
      {addr val val' : BitVec 64} {size : MemorySize}
      {m m' : MemoryReturn} :
      s.mmioRead P addr size = .ok (m, val, s₁) →
      m.isSuccess = true →
      s₁.mmioWrite P addr size val' = .ok (m', s₂) →
      m'.isSuccess = true → out.isSuccess = true →
      OnlyRegs s₂ s' → Effect P op d s out s'
  | amoFault {out : ExecReturn} {s₁ : State σ}
      {val val' : BitVec 64} {size : MemorySize}
      {m m' : MemoryReturn} :
      amoSize op = some size →
      s.mmioRead P (s.gpr d.rs1) size = .ok (m, val, s₁) →
      m.isSuccess = true →
      s₁.mmioWrite P (s.gpr d.rs1) size val' =
        .ok (m', s₁) →
      m'.isSuccess = false → out.isSuccess = false →
      Effect P op d s out s₁
  | lr {out : ExecReturn} {s₁ s' : State σ}
      {addr val : BitVec 64} {size : MemorySize}
      {m : MemoryReturn} :
      s.mmioRead P addr size = .ok (m, val, s₁) →
      m.isSuccess = true → out.isSuccess = true →
      OnlyRegs ((s₁.setReservation ⟨addr, size, true⟩).log
        (.lr s₁.self addr size)) s' →
      Effect P op d s out s'
  | sc {out : ExecReturn} {s₁ s' : State σ}
      {addr val : BitVec 64} {size : MemorySize}
      {m : MemoryReturn} :
      s.hart.reservation = ⟨addr, size, true⟩ →
      (s.log (.sc s.self addr size true)).mmioWrite P addr
        size val = .ok (m, s₁) →
      m.isSuccess = true → out.isSuccess = true →
      OnlyRegs s₁.clearReservation s' →
      Effect P op d s out s'
  | scFault {out : ExecReturn} {s₁ : State σ}
      {addr val : BitVec 64} {size : MemorySize}
      {m : MemoryReturn} :
      s.hart.reservation = ⟨addr, size, true⟩ →
      (s.log (.sc s.self addr size true)).mmioWrite P addr
        size val = .ok (m, s₁) →
      m.isSuccess = false → out.isSuccess = false →
      Effect P op d s out
        (s.log (.sc s.self addr size false))
  | scFail {out : ExecReturn} {s' : State σ}
      {addr : BitVec 64} {size : MemorySize} :
      out.isSuccess = true →
      OnlyRegs (s.clearReservation.log
        (.sc s.self addr size false)) s' →
      Effect P op d s out s'
  | csr {out : ExecReturn} {s₁ s' : State σ}
      (reads writes : Bool) (val : BitVec 64) :
      op ∈ csrOps →
      compatibleMode (csrLevel d.csr) s.hart.mode = true →
      (writes = true → CsrWriteAllowed op d s val) →
      (reads = true ∨ writes = true) →
      out.isSuccess = true →
      OnlyRegs (csrReadIf reads d.csr s) s₁ →
      OnlyRegs (csrWriteIf writes d.csr val s₁) s' →
      Effect P op d s out s'
  | mret {out : ExecReturn} :
      op = .MRET → out.isSuccess = true →
      Effect P op d s out (s.setHart s.hart.mret)
  | sret {out : ExecReturn} :
      s.hart.mode ≠ .User → out.isSuccess = true →
      Effect P op d s out (s.setHart s.hart.sret)
  | wfi {out : ExecReturn} :
      op = .WFI → s.pendingAll = 0 → out.isSuccess = true →
      Effect P op d s out
        (s.setHart { s.hart with WFI := true })
  | fenceI {out : ExecReturn} :
      out.isSuccess = true →
      Effect P op d s out { s with cache := s.cache.flush }
  | cboRam {out : ExecReturn} {mem : MemoryMap}
      {addr : BitVec 64} :
      0x80000000 ≤ addr →
      s.mem.zeroRam (addr - 0x80000000).toNat 64 = .ok mem →
      out.isSuccess = true →
      Effect P op d s out ({ s with mem := mem }.log
        (.store s.self .cboZero addr 64))
  | cboDevice {out : ExecReturn} {s' : State σ}
      {addr : BitVec 64} :
      zeroBytes P addr 64 s = .ok s' →
      out.isSuccess = true →
      Effect P op d s out s'

end RiscvEm

------------------------------------------------------------
-- Effects Of The Shapes
------------------------------------------------------------

namespace RiscvEm

variable {σ : Type}
variable {P : Platform σ}
variable {op : Op}
variable {d : InstructionData}
variable {s s' : State σ}
variable {out : ExecReturn}

/- One register written is an effect on registers. -/
theorem execRd_effect
    {n : BitVec 64}
    {rd : BitVec 5}
    {val : State σ → BitVec 64}
    (h : execRd n rd val s = .ok (out, s')) :
    Effect P op d s out s' := by
  cases h
  exact .regs rfl ((OnlyRegs.refl s).setGpr _ _)

/- A load reads memory and then only puts registers. -/
theorem execLoad_effect
    {n : BitVec 64}
    {size : MemorySize}
    {addr : State σ → BitVec 64}
    {put : State σ → BitVec 64 → State σ}
    (hPut : ∀ s v, OnlyRegs s (put s v))
    (h : execLoad P n size addr put s = .ok (out, s')) :
    Effect P op d s out s' := by
  obtain ⟨⟨m, v, s₁⟩, hRead, hEq⟩ := bind_eq_ok.mp h
  cases hEq
  cases hOk : m.isSuccess with
  | true => exact .load hRead hOk hOk (hPut s₁ v)
  | false =>
      cases State.mmioRead_fault hRead hOk
      exact .fault hOk

/- A store is one access and nothing else. -/
theorem execStore_effect
    {n : BitVec 64}
    {size : MemorySize}
    {addr val : State σ → BitVec 64}
    (h : execStore P n size addr val s = .ok (out, s')) :
    Effect P op d s out s' := by
  obtain ⟨⟨m, s₁⟩, hWrite, hEq⟩ := bind_eq_ok.mp h
  cases hEq
  cases hOk : m.isSuccess with
  | true => exact .store hWrite hOk hOk (.refl s')
  | false =>
      cases State.mmioWrite_fault hWrite hOk
      exact .fault hOk

/- A branch sets `pc` or leaves the state alone. -/
theorem execBranch_effect
    {cond : BitVec 64 → BitVec 64 → Bool}
    {d' : InstructionData}
    (h : execBranch cond P d' s = .ok (out, s')) :
    Effect P op d s out s' := by
  unfold execBranch at h
  dsimp only at h
  split at h
  · split at h
    · cases h
      exact .fault rfl
    · cases h
      exact .regs rfl ((OnlyRegs.refl s).setPc _)
  · cases h
    exact .regs rfl (.refl s)

theorem execBranchZ_effect
    {cond : BitVec 64 → Bool}
    {rs : BitVec 5}
    {d' : InstructionData}
    (h : execBranchZ cond rs P d' s = .ok (out, s')) :
    Effect P op d s out s' := by
  unfold execBranchZ at h
  split at h
  · cases h
    exact .regs rfl ((OnlyRegs.refl s).setPc _)
  · cases h
    exact .regs rfl (.refl s)

/- A jump writes its link and `pc`. -/
theorem execJump_effect
    {target : BitVec 64}
    {rd : BitVec 5}
    (h : execJump target rd s = .ok (out, s')) :
    Effect P op d s out s' := by
  unfold execJump at h
  split at h
  · cases h
    exact .fault rfl
  · cases h
    exact .regs rfl (((OnlyRegs.refl s).setPc _).setGpr _ _)

/- An environment call asks for a trap and changes nothing. -/
theorem execECALL_effect
    (h : execECALL P d s = .ok (out, s')) :
    Effect P op d s out s' := by
  unfold execECALL at h
  split at h <;> cases h
  · exact .fault rfl
  · exact .fault rfl
  · exact .fault rfl
  · exact .regs rfl (.refl s)

end RiscvEm

------------------------------------------------------------
-- Floating Point
------------------------------------------------------------

namespace RiscvEm

variable {σ : Type}
variable {P : Platform σ}
variable {op : Op}
variable {d : InstructionData}
variable {s s' : State σ}
variable {out : ExecReturn}

/- Choosing a rounding mode changes that mode at most. -/
theorem rmFunc_onlyRegs
    {val inter : BitVec 64}
    {rm : BitVec 3}
    {flags : BitVec 5}
    {s₁ : State σ}
    (h : rmFunc P s val rm = some (inter, flags, s₁)) :
    OnlyRegs s s₁ := by
  unfold rmFunc at h
  dsimp only at h
  repeat' split at h
  all_goals cases h
  all_goals first
    | exact .refl s
    | exact (OnlyRegs.refl s).setRound _

/-
  An instruction that takes a rounding mode and then changes
  registers.
-/
inductive RoundedExec
    (P : Platform σ)
    (d : InstructionData)
    (s : State σ) :
    Except HostFault (ExecReturn × State σ) → Prop
  | mk {val : BitVec 64}
      {cont : BitVec 64 → BitVec 5 → State σ → State σ} :
      (∀ inter flags s, OnlyRegs s (cont inter flags s)) →
      RoundedExec P d s (withRm P d val cont s)

/- An instruction that changes registers and succeeds. -/
inductive RegsExec
    (s : State σ) :
    Except HostFault (ExecReturn × State σ) → Prop
  | mk {n : BitVec 64} {s' : State σ} :
      OnlyRegs s s' → RegsExec s (.ok (.next n, s'))

/- An instruction that rounds has an effect on registers. -/
theorem RoundedExec.effect
    {d' : InstructionData}
    {x : Except HostFault (ExecReturn × State σ)}
    (hRounded : RoundedExec P d' s x)
    (h : x = .ok (out, s')) :
    Effect P op d s out s' := by
  cases hRounded with
  | mk hCont =>
      unfold withRm at h
      split at h
      case h_1 =>
        cases h
        exact .fault rfl
      case h_2 inter flags s₁ hRm =>
        cases h
        exact .regs rfl
          ((rmFunc_onlyRegs hRm).trans (hCont inter flags s₁))

/- Such an execution has an effect on registers. -/
theorem RegsExec.effect
    {x : Except HostFault (ExecReturn × State σ)}
    (hRegs : RegsExec s x)
    (h : x = .ok (out, s')) :
    Effect P op d s out s' := by
  cases hRegs with
  | mk hOnly =>
      cases h
      exact .regs rfl hOnly

theorem setCast_onlyRegs
    (rd : BitVec 5)
    (s : State σ)
    (val : BitVec 64) :
    OnlyRegs s (setCast P rd s val) := by
  unfold setCast castFloat
  by_cases hNan : isNan 52 val = true
  · rw [if_pos hNan]
    exact ((OnlyRegs.refl s).orFlags _).setFpr _ _
  · rw [if_neg hNan]
    exact (OnlyRegs.refl s).setFpr _ _

/- The arithmetic of single precision rounds. -/
theorem execSingle_rounded
    {res : Platform σ → State σ → InstructionData →
      BitVec 64} :
    RoundedExec P d s
      (execSingle res P d s) := by
  refine .mk ?_
  intro inter flags s
  exact ((OnlyRegs.refl s).orFlags _).trans
    (setCast_onlyRegs _ _ _)

/- The arithmetic of double precision rounds. -/
theorem execDouble_rounded
    {f : HostFloat → RoundMode → BitVec 64 → BitVec 64 →
      BitVec 64 → BitVec 64 × BitVec 5} :
    RoundedExec P d s
      (execDouble f P d s) := by
  refine .mk ?_
  intro inter flags s
  dsimp only [sanitizeNan]
  split
  · exact (((OnlyRegs.refl s).orFlags _).orFlags _).setFpr _ _
  · exact ((OnlyRegs.refl s).orFlags _).setFpr _ _

/- Finishing a conversion raises flags at most. -/
theorem finalizeFcvt_onlyRegs
    {w : Nat}
    (t : IntTarget)
    (k : Nat)
    (s : State σ)
    (src : BitVec w)
    (exact rounded : BitVec 64) :
    OnlyRegs s (finalizeFcvt P t k s src exact rounded).2 := by
  unfold finalizeFcvt
  dsimp only
  repeat' split
  all_goals first
    | exact (OnlyRegs.refl s).flagInvalidOnly
    | exact (OnlyRegs.refl s).orFlags _
    | exact .refl s

/- Conversions to integers round. -/
theorem execFcvtToInt_rounded
    {w : Nat}
    {t : IntTarget}
    {k : Nat}
    {src : InstructionData → State σ → BitVec w}
    {exact : Platform σ → BitVec w → BitVec 64}
    {ext : BitVec 64 → BitVec 64} :
    RoundedExec P d s
      (execFcvtToInt t k src exact ext P d s) := by
  refine .mk ?_
  intro inter flags s
  exact (finalizeFcvt_onlyRegs _ _ _ _ _ _).setGpr _ _

/- Conversions from integers to single precision. -/
theorem execFcvtToS_rounded
    {exact : Platform σ → RoundMode → BitVec 64 → BitVec 64} :
    RoundedExec P d s
      (execFcvtToS exact P d s) := by
  refine .mk ?_
  intro inter flags s
  exact ((OnlyRegs.refl s).orFlags _).setFpr _ _

/- Conversions from integers to double precision. -/
theorem execFcvtToD_rounded
    {exact : HostFloat → RoundMode → BitVec 64 → BitVec 64} :
    RoundedExec P d s
      (execFcvtToD exact P d s) := by
  refine .mk ?_
  intro inter flags s
  exact (OnlyRegs.refl s).setFpr _ _

theorem execFcvtToDFlags_rounded
    {exact : HostFloat → RoundMode → BitVec 64 → BitVec 64} :
    RoundedExec P d s
      (execFcvtToDFlags exact P d s) := by
  refine .mk ?_
  intro inter flags s
  exact ((OnlyRegs.refl s).orFlags _).setFpr _ _

/- Narrowing rounds. -/
theorem execFCVT_S_D_rounded :
    RoundedExec P d s
      (execFCVT_S_D P d s) := by
  refine .mk ?_
  intro inter flags s
  dsimp only
  split
  · exact (((OnlyRegs.refl s).orFlags _).orFlags _).setFpr _ _
  · exact ((OnlyRegs.refl s).orFlags _).setFpr _ _

/-
  The conversion from single to double precision rounds
  nothing.
-/
theorem execFCVT_D_S_regs :
    RegsExec s (execFCVT_D_S P d s) := by
  unfold execFCVT_D_S
  dsimp only
  split
  · apply RegsExec.mk
    split
    · exact ((OnlyRegs.refl s).orFlags _).setFpr _ _
    · exact (OnlyRegs.refl s).setFpr _ _
  · exact .mk ((OnlyRegs.refl s).setFpr _ _)

theorem execFrd_regs
    {n : BitVec 64}
    {rd : BitVec 5}
    {val : State σ → BitVec 64} :
    RegsExec s (execFrd n rd val s) :=
  .mk ((OnlyRegs.refl s).setFpr _ _)

/- Comparisons write registers only. -/
theorem execFcmp_regs
    {w : Nat}
    {src : State σ → BitVec 5 → BitVec w}
    {bad : BitVec w → Bool}
    {cmp : BitVec w → BitVec w → Bool} :
    RegsExec s (execFcmp src bad cmp P d s) := by
  unfold execFcmp
  dsimp only
  split
  · exact .mk (((OnlyRegs.refl s).orFlags _).setGpr _ _)
  · exact .mk ((OnlyRegs.refl s).setGpr _ _)

/- Minimum and maximum write registers only. -/
theorem execFselect_regs
    {w k : Nat}
    {canonical : BitVec w}
    {src : State σ → BitVec 5 → BitVec w}
    {res : BitVec w → BitVec 64}
    {first : BitVec w → BitVec w → Bool} :
    RegsExec s
      (execFselect k canonical src res first P d s) := by
  apply RegsExec.mk
  split
  · exact ((OnlyRegs.refl s).orFlags _).setFpr _ _
  · exact (OnlyRegs.refl s).setFpr _ _

/- Sign injection writes registers only. -/
theorem execSign_regs
    {n : BitVec 64}
    {val : BitVec 64} :
    RegsExec s (.ok (.next n, setCast P d.rd s val)) :=
  .mk (setCast_onlyRegs _ _ _)

end RiscvEm

------------------------------------------------------------
-- Atomics
------------------------------------------------------------

namespace RiscvEm

variable {σ : Type}
variable {P : Platform σ}
variable {op : Op}
variable {d : InstructionData}
variable {s s' : State σ}
variable {out : ExecReturn}

/- A load-reserved loads and notes the reservation. -/
theorem execLr_effect
    {size : MemorySize}
    {fail : BitVec 64}
    {ext : BitVec 64 → BitVec 64}
    (h : execLr size fail ext P d s = .ok (out, s')) :
    Effect P op d s out s' := by
  obtain ⟨⟨m, s₁, v⟩, hLr, h⟩ := bind_eq_ok.mp h
  obtain ⟨⟨m', v', s₂⟩, hRead, hLr⟩ := bind_eq_ok.mp hLr
  dsimp only at h hLr
  cases hOk : m'.isSuccess with
  | true =>
      rw [hOk, if_pos rfl] at hLr
      cases hLr
      rw [hOk, if_pos rfl] at h
      cases h
      exact .lr hRead hOk rfl ((OnlyRegs.refl _).setGpr _ _)
  | false =>
      rw [hOk, if_neg Bool.false_ne_true] at hLr
      cases hLr
      rw [hOk, if_neg Bool.false_ne_true] at h
      cases h
      cases State.mmioRead_fault hRead hOk
      exact .fault rfl

/-
  A store-conditional stores to what is reserved, or fails.
-/
theorem execSc_effect
    {size : MemorySize}
    {fail : BitVec 64}
    {val result : BitVec 64 → BitVec 64}
    (h : execSc size fail val result P d s = .ok (out, s')) :
    Effect P op d s out s' := by
  obtain ⟨⟨m, s₁, b⟩, hSc, h⟩ := bind_eq_ok.mp h
  dsimp only at h
  unfold AMO_SC at hSc
  dsimp only at hSc
  split at hSc
  case isTrue hRes =>
    obtain ⟨⟨m', s₂⟩, hWrite, hSc⟩ := bind_eq_ok.mp hSc
    dsimp only at hSc
    have hReservation : s.hart.reservation =
        ⟨s.gpr d.rs1, size, true⟩ := by
      rw [← hRes.1, ← hRes.2.1, ← hRes.2.2]
    cases hOk : m'.isSuccess with
    | true =>
        rw [hOk, if_pos rfl] at hSc
        cases hSc
        rw [hOk, if_pos rfl] at h
        cases h
        exact .sc hReservation hWrite hOk rfl
          ((OnlyRegs.refl _).setGpr _ _)
    | false =>
        rw [hOk, if_neg Bool.false_ne_true] at hSc
        cases hSc
        rw [hOk, if_neg Bool.false_ne_true] at h
        cases h
        exact .scFault hReservation hWrite hOk rfl
  case isFalse =>
    cases hSc
    rw [if_pos rfl] at h
    cases h
    exact .scFail rfl ((OnlyRegs.refl _).setGpr _ _)

/-
  An atomic operation loads and then stores to the same
  place.
-/
theorem execAmo_effect
    {size : MemorySize}
    {ext : BitVec 64 → BitVec 64}
    {func : BitVec 64 → BitVec 64 → BitVec 64}
    (hOp : amoSize op = some size)
    (h : execAmo size ext func P d s = .ok (out, s')) :
    Effect P op d s out s' := by
  obtain ⟨⟨m, s₁, v⟩, hAmo, h⟩ := bind_eq_ok.mp h
  obtain ⟨⟨m', v', s₂⟩, hRead, hAmo⟩ := bind_eq_ok.mp hAmo
  cases h
  dsimp only at hAmo
  cases hOk : m'.isSuccess with
  | false =>
      rw [hOk, if_neg Bool.false_ne_true] at hAmo
      cases hAmo
      rw [hOk, if_neg Bool.false_ne_true]
      cases State.mmioRead_fault hRead hOk
      exact .fault hOk
  | true =>
      rw [hOk, if_pos rfl] at hAmo
      obtain ⟨⟨m'', s₃⟩, hWrite, hAmo⟩ := bind_eq_ok.mp hAmo
      dsimp only at hAmo
      cases hOk' : m''.isSuccess with
      | true =>
          rw [hOk', if_pos rfl] at hAmo
          cases hAmo
          exact .amo hRead hOk hWrite hOk' rfl
            ((OnlyRegs.refl _).setGpr _ _)
      | false =>
          rw [hOk', if_neg Bool.false_ne_true] at hAmo
          cases hAmo
          rw [hOk', if_neg Bool.false_ne_true]
          cases State.mmioWrite_fault hWrite hOk'
          exact .amoFault hOp hRead hOk hWrite hOk' hOk'

end RiscvEm

------------------------------------------------------------
-- System Instructions
------------------------------------------------------------

namespace RiscvEm

variable {σ : Type}
variable {P : Platform σ}
variable {op : Op}
variable {d : InstructionData}
variable {s s' : State σ}
variable {out : ExecReturn}

/- `SRET` returns from supervisor mode or is illegal. -/
theorem execSRET_effect
    (h : execSRET P d s = .ok (out, s')) :
    Effect P op d s out s' := by
  unfold execSRET at h
  split at h
  case isTrue =>
    cases h
    exact .fault rfl
  case isFalse hMode =>
    cases h
    exact .sret (fun hUser => hMode (Or.inl hUser)) rfl

/- Fences change nothing. -/
theorem execSFENCE_VMA_effect
    (h : execSFENCE_VMA P d s = .ok (out, s')) :
    Effect P op d s out s' := by
  unfold execSFENCE_VMA at h
  split at h
  · cases h
    exact .fault rfl
  · split at h
    · cases h
      exact .fault rfl
    · cases h
      exact .regs rfl (.refl s)

/- Waiting sets a flag if nothing is pending. -/
theorem execWFI_effect
    (h : execWFI P d s = .ok (out, s')) :
    Effect P .WFI d s out s' := by
  unfold execWFI at h
  split at h
  · cases h
    exact .fault rfl
  · split at h
    case isTrue hNone =>
      cases h
      exact .wfi rfl hNone rfl
    case isFalse =>
      cases h
      exact .regs rfl (.refl s)

/- The parts of a returned pair. -/
theorem ok_pair
    {out' : ExecReturn}
    {s'' : State σ}
    (h : (.ok (out', s'') :
      Except HostFault (ExecReturn × State σ)) =
        .ok (out, s')) :
    out = out' ∧ s' = s'' := by
  injection h with h
  injection h with h₁ h₂
  exact ⟨h₁.symm, h₂.symm⟩

/- A register that may be accessed suits the mode. -/
theorem csrAllowed_mode
    {write : Bool}
    (h : csrAllowed s d write = true) :
    compatibleMode (csrLevel d.csr) s.hart.mode = true := by
  unfold csrAllowed csrAccessible at h
  simp only [Bool.and_eq_true] at h
  rcases h with ⟨-, hAccess⟩
  by_contra hNot
  rw [if_pos hNot] at hAccess
  cases hAccess

/- What the check lets pass is accessible to the mode. -/
theorem csrAllowed_write
    {write : Bool}
    (h : csrAllowed s d write = true) :
    csrAccessible d.csr s.hart.mode write = true := by
  unfold csrAllowed at h
  simp only [Bool.and_eq_true] at h
  exact h.2

/- A register is read and written whole. -/
theorem execCSRRW_effect
    (hOp : op ∈ csrOps)
    (h : execCSRRW P d s = .ok (out, s')) :
    Effect P op d s out s' := by
  unfold execCSRRW at h
  dsimp only at h
  split at h
  case isTrue hAllowed =>
    obtain ⟨rfl, rfl⟩ := ok_pair h
    refine .csr true true ((s.csrRead d.csr).2.gpr d.rs1) hOp
      (csrAllowed_mode hAllowed)
      (fun _ => Or.inl (csrAllowed_write hAllowed))
      (Or.inl rfl) rfl (.refl _) ?_
    split
    · exact (OnlyRegs.refl _).setGpr _ _
    · exact .refl _
  case isFalse =>
    obtain ⟨rfl, rfl⟩ := ok_pair h
    exact .fault rfl

/- Bits of a register are set or cleared, if there are any. -/
theorem execCsrBits_effect
    {operand : State σ → InstructionData → BitVec 64}
    {f : BitVec 64 → BitVec 64 → BitVec 64}
    (hOp : op ∈ csrOps)
    (h : execCsrBits operand f P d s = .ok (out, s')) :
    Effect P op d s out s' := by
  unfold execCsrBits at h
  dsimp only at h
  split at h
  case isTrue hAllowed =>
    obtain ⟨rfl, rfl⟩ := ok_pair h
    have hMode := csrAllowed_mode hAllowed
    by_cases hRs : d.rs1 ≠ 0
    · have hWrite := csrAllowed_write hAllowed
      rw [bne_iff_ne.mpr hRs] at hWrite
      rw [if_pos hRs]
      exact .csr true true _ hOp hMode
        (fun _ => Or.inl hWrite) (Or.inl rfl) rfl (.refl _)
        ((OnlyRegs.refl _).setGpr _ _)
    · rw [if_neg hRs]
      exact .csr true false 0 hOp hMode (fun h => nomatch h)
        (Or.inl rfl) rfl (.refl _)
        ((OnlyRegs.refl _).setGpr _ _)
  case isFalse =>
    obtain ⟨rfl, rfl⟩ := ok_pair h
    exact .fault rfl

/-
  The immediate is written even where the check was told
  otherwise.
-/
theorem execCSRRWI_effect
    (h : execCSRRWI P d s = .ok (out, s')) :
    Effect P .CSRRWI d s out s' := by
  unfold execCSRRWI at h
  dsimp only at h
  split at h
  case isTrue hAllowed =>
    obtain ⟨rfl, rfl⟩ := ok_pair h
    have hMode := csrAllowed_mode hAllowed
    have hWrite : CsrWriteAllowed .CSRRWI d s
        (d.rs1.setWidth 64) := by
      by_cases hRs : d.rs1 = 0
      · exact Or.inr ⟨rfl, hRs, by rw [hRs]; rfl⟩
      · have hAccess := csrAllowed_write hAllowed
        rw [bne_iff_ne.mpr hRs] at hAccess
        exact Or.inl hAccess
    by_cases hRd : d.rd ≠ 0
    · rw [if_pos hRd]
      exact .csr true true _ (by decide) hMode
        (fun _ => hWrite) (Or.inl rfl) rfl
        ((OnlyRegs.refl _).setGpr _ _) (.refl _)
    · rw [if_neg hRd]
      exact .csr false true _ (by decide) hMode
        (fun _ => hWrite) (Or.inr rfl) rfl (.refl _)
        (.refl _)
  case isFalse =>
    obtain ⟨rfl, rfl⟩ := ok_pair h
    exact .fault rfl

/- Zeroing a block stores to RAM or to a device. -/
theorem execcbo_zero_effect
    (h : execcbo_zero P d s = .ok (out, s')) :
    Effect P op d s out s' := by
  obtain ⟨s₁, hZero, h⟩ := bind_eq_ok.mp h
  obtain ⟨rfl, rfl⟩ := ok_pair h
  unfold zeroBlock at hZero
  split at hZero
  case isTrue hRam =>
    obtain ⟨mem, hMem, hEq⟩ := bind_eq_ok.mp hZero
    cases hEq
    exact .cboRam hRam hMem rfl
  case isFalse =>
    exact .cboDevice hZero rfl

section Dispatch

-- the shapes stay folded, so that each name unfolds to one
seal execRd execFrd execLoad execStore execBranch execBranchZ
  execJump execLr execSc execAmo execSingle execDouble
  execFcvtToInt execFcvtToS execFcvtToD execFcvtToDFlags
  execFcmp execFselect execCsrBits setCast

/- Executing an instruction has one of the effects. -/
theorem Op.exec_effect
    (op : Op)
    (h : op.exec P d s = .ok (out, s')) :
    Effect P op d s out s' := by
  cases op with
  | ADD | ADDW | SUB | SUBW | XOR | OR | AND | SLL | SLLW
  | SRL | SRLW | SRA | SRAW | SLT | SLTU | ADDI | ADDIW
  | XORI | ORI | ANDI | SLLI | SLLIW | SRLIW | SRAIW | SRLI
  | SRAI | SLTI | SLTIU | LUI | AUIPC | MUL | MULW | MULH
  | MULHSU | MULHU | DIV | DIVU | DIVUW | DIVW | REM | REMU
  | REMUW | REMW | FMV_X_W | FCLASS_S | FMV_X_D | FCLASS_D
  | C_ADDI4SPN | C_ADDI | C_ADDIW | C_LI | C_SRLI | C_SRAI
  | C_ANDI | C_SUB | C_XOR | C_OR | C_AND | C_SUBW | C_ADDW
  | C_SLLI | C_MV | C_ADD | ADD_UW | SH1ADD | SH1ADD_UW
  | SH2ADD | SH2ADD_UW | SH3ADD | SH3ADD_UW | SLLI_UW
  | ANDN | ORN | XNOR | CLZ | CLZW | CTZ | CTZW | CPOP
  | CPOPW | MAX | MAXU | MIN | MINU | SEXT_B | SEXT_H
  | ZEXT_H | ROL | ROLW | ROR | RORI | RORIW | RORW | ORC_B
  | REV8 | CLMUL | CLMULH | CLMULR | BCLR | BCLRI | BEXT
  | BEXTI | BINV | BINVI | BSET | BSETI =>
      exact execRd_effect h
  | LB | LH | LW | LD | LBU | LHU | LWU | C_LW | C_LD
  | C_LWSP | C_LDSP =>
      refine execLoad_effect ?_ h
      exact fun s v => (OnlyRegs.refl s).setGpr _ _
  | SB | SH | SW | SD | FSW | FSD | C_SW | C_SD | C_SWSP
  | C_SDSP | C_FSD | C_FSDSP =>
      exact execStore_effect h
  | BEQ | BNE | BLT | BGE | BLTU | BGEU =>
      exact execBranch_effect h
  | JAL | JALR =>
      exact execJump_effect h
  | ECALL =>
      exact execECALL_effect h
  | EBREAK | C_EBREAK =>
      cases h
      exact .fault rfl
  | FENCE | C_NOP =>
      cases h
      exact .regs rfl (.refl s)
  | AMOSWAP_W | AMOADD_W | AMOAND_W | AMOXOR_W | AMOOR_W
  | AMOMIN_W | AMOMINU_W | AMOMAX_W | AMOMAXU_W | AMOSWAP_D
  | AMOADD_D | AMOAND_D | AMOXOR_D | AMOOR_D | AMOMIN_D
  | AMOMINU_D | AMOMAX_D | AMOMAXU_D =>
      exact execAmo_effect (by rfl) h
  | LR_W | LR_D =>
      exact execLr_effect h
  | SC_W | SC_D =>
      exact execSc_effect h
  | FMADD_S | FMSUB_S | FNMADD_S | FNMSUB_S | FADD_S
  | FSUB_S | FMUL_S | FDIV_S | FSQRT_S =>
      exact execSingle_rounded.effect h
  | FSGNJ_S | FSGNJN_S =>
      exact execSign_regs.effect h
  | FSGNJX_S | FMV_W_X | FSGNJ_D | FSGNJN_D | FSGNJX_D
  | FMV_D_X =>
      exact execFrd_regs.effect h
  | FMIN_S | FMAX_S | FMIN_D | FMAX_D =>
      exact execFselect_regs.effect h
  | FCVT_W_S | FCVT_WU_S | FCVT_L_S | FCVT_LU_S | FCVT_W_D
  | FCVT_WU_D | FCVT_L_D | FCVT_LU_D =>
      exact execFcvtToInt_rounded.effect h
  | FCVT_S_W | FCVT_S_WU | FCVT_S_L | FCVT_S_LU =>
      exact execFcvtToS_rounded.effect h
  | FEQ_S | FLT_S | FLE_S | FEQ_D | FLT_D | FLE_D =>
      exact execFcmp_regs.effect h
  | FLW | FLD | C_FLD | C_FLDSP =>
      refine execLoad_effect ?_ h
      exact fun s v => (OnlyRegs.refl s).setFpr _ _
  | FMADD_D | FMSUB_D | FNMADD_D | FNMSUB_D | FADD_D
  | FSUB_D | FMUL_D | FDIV_D | FSQRT_D =>
      exact execDouble_rounded.effect h
  | FCVT_S_D =>
      exact execFCVT_S_D_rounded.effect h
  | FCVT_D_S =>
      exact execFCVT_D_S_regs.effect h
  | FCVT_D_W | FCVT_D_WU =>
      exact execFcvtToD_rounded.effect h
  | FCVT_D_L | FCVT_D_LU =>
      exact execFcvtToDFlags_rounded.effect h
  | C_LUI_ADDI16SP =>
      change execC_LUI_ADDI16SP P d s = _ at h
      unfold execC_LUI_ADDI16SP at h
      split at h
      · exact execRd_effect h
      · exact execRd_effect h
  | C_J | C_JR =>
      cases h
      exact .regs rfl ((OnlyRegs.refl s).setPc _)
  | C_BEQZ | C_BNEZ =>
      exact execBranchZ_effect h
  | C_JALR =>
      cases h
      exact .regs rfl
        (((OnlyRegs.refl s).setPc _).setGpr _ _)
  | MRET =>
      cases h
      exact .mret rfl rfl
  | SRET =>
      exact execSRET_effect h
  | WFI =>
      exact execWFI_effect h
  | SFENCE_VMA =>
      exact execSFENCE_VMA_effect h
  | CSRRW =>
      exact execCSRRW_effect (by decide) h
  | CSRRS | CSRRC | CSRRSI | CSRRCI =>
      exact execCsrBits_effect (by decide) h
  | CSRRWI =>
      exact execCSRRWI_effect h
  | FENCE_I =>
      cases h
      exact .fenceI rfl
  | cbo_zero =>
      exact execcbo_zero_effect h

end Dispatch

end RiscvEm
