import RiscvEm.Lib.WordArith
import RiscvEm.Sets.Traps

/-
  The lowest bit of the program counter: every instruction but
  the returns from traps goes on at an even address.

  Key definitions include:
    * `PcEven`
    * `GoesEven`

  Key theorems include:
    * `Hart.trap_even`
    * `Op.exec_goesEven`
-/

------------------------------------------------------------
-- Even Addresses
------------------------------------------------------------

namespace RiscvEm

open WordArith (IsEven)

variable {σ : Type}

def PcEven
    (h : Hart) : Prop :=
  IsEven h.pc

/- An instruction that succeeds goes on at an even address. -/
def GoesEven
    (out : ExecReturn)
    (s : State σ) : Prop :=
  out.isSuccess = true → IsEven (s.hart.pc + out.increasePc)

/- Extending the sign keeps the lowest bit. -/
theorem isEven_sextW
    {a : BitVec 64}
    (ha : IsEven a) :
    IsEven (sextW a) :=
  (ha.setWidth 32).signExtend (by decide) 64

/- A trap goes on at an even address, whatever it writes. -/
theorem Hart.trap_even
    (h : Hart)
    (cause tval : BitVec 64)
    (interrupt : Bool) :
    PcEven (h.trap cause tval interrupt) := by
  have hVector : ∀ tvec,
      IsEven (trapVector tvec cause interrupt) := by
    intro tvec
    unfold trapVector
    refine (IsEven.and tvec (b := ~~~3) (by decide)).add ?_
    split
    · exact IsEven.mul (a := 4) (by decide) cause
    · exact .zero
  unfold Hart.trap
  split
  · exact hVector _
  · exact hVector _

end RiscvEm

------------------------------------------------------------
-- Shapes Of Instructions
------------------------------------------------------------

namespace RiscvEm

open WordArith (IsEven)

variable {σ : Type}
variable {P : Platform σ}
variable {d : InstructionData}
variable {s s' : State σ}
variable {out : ExecReturn}

/- Nothing is asked of an instruction that fails. -/
theorem goesEven_of_fail
    (hFail : out.isSuccess = false) :
    GoesEven out s := by
  intro hOk
  rw [hFail] at hOk
  cases hOk

/- The program counter is left to the increment. -/
theorem goesEven_of_pc
    (hEven : PcEven s.hart)
    (hPc : s'.hart.pc = s.hart.pc)
    (hn : IsEven out.increasePc) :
    GoesEven out s' := by
  intro _
  rw [hPc]
  exact IsEven.add hEven hn

/- A jump that was made left `pc` even. -/
theorem goesEven_jumped
    (hEven : PcEven s.hart) :
    GoesEven .jumped s := by
  intro _
  exact IsEven.add hEven rfl

/- Memory accesses do not move `pc`. -/
theorem State.mmioWrite_pc
    {addr val : BitVec 64}
    {size : MemorySize}
    {m : MemoryReturn}
    (h : s.mmioWrite P addr size val = .ok (m, s')) :
    s'.hart.pc = s.hart.pc := by
  rcases State.mmioWrite_cases h with
    ⟨-, -, mem, jctx, -, -, rfl⟩ |
    ⟨-, dev, world, mem, -, -, rfl⟩ | ⟨-, rfl⟩
  · rfl
  · rfl
  · rfl

theorem State.mmioRead_pc
    {addr val : BitVec 64}
    {size : MemorySize}
    {m : MemoryReturn}
    (h : s.mmioRead P addr size = .ok (m, val, s')) :
    s'.hart.pc = s.hart.pc := by
  rw [State.mmioRead_hart h]

section Shapes

variable (hEven : PcEven s.hart)

include hEven

/- Writing a register goes on by an even number. -/
theorem execRd_even
    {n : BitVec 64}
    {rd : BitVec 5}
    {val : State σ → BitVec 64}
    (hn : IsEven n)
    (h : execRd n rd val s = .ok (out, s')) :
    GoesEven out s' := by
  cases h
  exact goesEven_of_pc hEven rfl hn

theorem execFrd_even
    {n : BitVec 64}
    {rd : BitVec 5}
    {val : State σ → BitVec 64}
    (hn : IsEven n)
    (h : execFrd n rd val s = .ok (out, s')) :
    GoesEven out s' := by
  cases h
  exact goesEven_of_pc hEven rfl hn

/- A load keeps the counter even. -/
theorem execLoad_even
    {n : BitVec 64}
    {size : MemorySize}
    {addr : State σ → BitVec 64}
    {put : State σ → BitVec 64 → State σ}
    (hPut : ∀ s v, (put s v).hart.pc = s.hart.pc)
    (hn : IsEven n)
    (h : execLoad P n size addr put s = .ok (out, s')) :
    GoesEven out s' := by
  rcases bind_eq_ok.mp h with ⟨⟨m, v, s₁⟩, hRead, hEq⟩
  cases hEq
  refine goesEven_of_pc hEven ?_ hn
  split
  · rw [hPut, State.mmioRead_pc hRead]
  · exact State.mmioRead_pc hRead

/- A store keeps it even. -/
theorem execStore_even
    {n : BitVec 64}
    {size : MemorySize}
    {addr val : State σ → BitVec 64}
    (hn : IsEven n)
    (h : execStore P n size addr val s = .ok (out, s')) :
    GoesEven out s' := by
  rcases bind_eq_ok.mp h with ⟨⟨m, s₁⟩, hWrite, hEq⟩
  cases hEq
  exact goesEven_of_pc hEven (State.mmioWrite_pc hWrite) hn

/- A branch tests the bit of its target. -/
theorem execBranch_even
    {cond : BitVec 64 → BitVec 64 → Bool}
    (h : execBranch cond P d s = .ok (out, s')) :
    GoesEven out s' := by
  unfold execBranch at h
  dsimp only at h
  split at h
  · split at h
    case isTrue =>
      cases h
      exact goesEven_of_fail rfl
    case isFalse hTarget =>
      cases h
      refine goesEven_jumped ?_
      exact Bool.eq_false_of_not_eq_true hTarget
  · cases h
    exact goesEven_of_pc hEven rfl rfl

/- A compressed branch does not; its offset is even. -/
theorem execBranchZ_even
    {cond : BitVec 64 → Bool}
    {rs : BitVec 5}
    (hImm : IsEven d.imm)
    (h : execBranchZ cond rs P d s = .ok (out, s')) :
    GoesEven out s' := by
  unfold execBranchZ at h
  split at h
  · cases h
    refine goesEven_jumped ?_
    exact IsEven.add hEven (isEven_sextW hImm)
  · cases h
    exact goesEven_of_pc hEven rfl rfl

omit hEven in
/- A jump to an odd address fails. -/
theorem execJump_even
    {target : BitVec 64}
    {rd : BitVec 5}
    (h : execJump target rd s = .ok (out, s')) :
    GoesEven out s' := by
  unfold execJump at h
  split at h
  case isTrue =>
    cases h
    exact goesEven_of_fail rfl
  case isFalse hTarget =>
    cases h
    refine goesEven_jumped ?_
    exact Bool.eq_false_of_not_eq_true hTarget

/- An environment call fails, and so traps. -/
theorem execECALL_even
    (h : execECALL P d s = .ok (out, s')) :
    GoesEven out s' := by
  unfold execECALL at h
  split at h
  · cases h
    exact goesEven_of_fail rfl
  · cases h
    exact goesEven_of_fail rfl
  · cases h
    exact goesEven_of_fail rfl
  · cases h
    exact goesEven_of_pc hEven rfl rfl

end Shapes

end RiscvEm

------------------------------------------------------------
-- Floating Point And Atomics
------------------------------------------------------------

namespace RiscvEm

open WordArith (IsEven)

variable {σ : Type}
variable {P : Platform σ}
variable {d : InstructionData}
variable {s s' : State σ}
variable {out : ExecReturn}

/- Choosing a rounding mode leaves `pc` alone. -/
theorem rmFunc_pc
    {val inter : BitVec 64}
    {rm : BitVec 3}
    {flags : BitVec 5}
    {s₁ : State σ}
    (h : rmFunc P s val rm = some (inter, flags, s₁)) :
    s₁.hart.pc = s.hart.pc := by
  unfold rmFunc at h
  dsimp only at h
  repeat' split at h
  all_goals
    cases h
    try rfl

theorem setCast_pc
    (rd : BitVec 5)
    (s : State σ)
    (val : BitVec 64) :
    (setCast P rd s val).hart.pc = s.hart.pc := by
  unfold setCast castFloat
  by_cases hNan : isNan 52 val = true
  · rw [if_pos hNan]
    rfl
  · rw [if_neg hNan]
    rfl

/- An instruction that leaves the program counter alone. -/
inductive StaysExec
    (s : State σ) :
    Except HostFault (ExecReturn × State σ) → Prop
  | rounded {P : Platform σ} {d : InstructionData}
      {val : BitVec 64}
      {cont : BitVec 64 → BitVec 5 → State σ → State σ} :
      (∀ inter flags s,
        (cont inter flags s).hart.pc = s.hart.pc) →
      StaysExec s (withRm P d val cont s)
  | regs {n : BitVec 64} {s' : State σ} :
      s'.hart.pc = s.hart.pc → IsEven n →
      StaysExec s (.ok (.next n, s'))

/- What stays goes on by an even number. -/
theorem StaysExec.even
    {x : Except HostFault (ExecReturn × State σ)}
    (hStays : StaysExec s x)
    (hEven : PcEven s.hart)
    (h : x = .ok (out, s')) :
    GoesEven out s' := by
  cases hStays with
  | rounded hCont =>
      unfold withRm at h
      split at h
      case h_1 =>
        cases h
        exact goesEven_of_fail rfl
      case h_2 inter flags s₁ hRm =>
        cases h
        refine goesEven_of_pc hEven ?_ rfl
        rw [hCont, rmFunc_pc hRm]
  | regs hPc hn =>
      cases h
      exact goesEven_of_pc hEven hPc hn

/- The arithmetic of single precision stays. -/
theorem execSingle_stays
    {res : Platform σ → State σ → InstructionData →
      BitVec 64} :
    StaysExec s (execSingle res P d s) := by
  refine .rounded ?_
  intro inter flags s
  exact setCast_pc _ _ _

/- The arithmetic of double precision does not jump. -/
theorem execDouble_stays
    {f : HostFloat → RoundMode → BitVec 64 → BitVec 64 →
      BitVec 64 → BitVec 64 × BitVec 5} :
    StaysExec s (execDouble f P d s) := by
  refine .rounded ?_
  intro inter flags s
  dsimp only [sanitizeNan]
  split
  · rfl
  · rfl

/- Finishing a conversion leaves `pc` alone. -/
theorem finalizeFcvt_pc
    {w : Nat}
    (t : IntTarget)
    (k : Nat)
    (s : State σ)
    (src : BitVec w)
    (exact rounded : BitVec 64) :
    (finalizeFcvt P t k s src exact rounded).2.hart.pc =
      s.hart.pc := by
  unfold finalizeFcvt
  dsimp only
  repeat' split
  all_goals rfl

/- Conversions to integers stay. -/
theorem execFcvtToInt_stays
    {w : Nat}
    {t : IntTarget}
    {k : Nat}
    {src : InstructionData → State σ → BitVec w}
    {exact : Platform σ → BitVec w → BitVec 64}
    {ext : BitVec 64 → BitVec 64} :
    StaysExec s (execFcvtToInt t k src exact ext P d s) := by
  refine .rounded ?_
  intro inter flags s
  exact finalizeFcvt_pc _ _ _ _ _ _

/- Conversions from integers stay. -/
theorem execFcvtToS_stays
    {exact : Platform σ → RoundMode → BitVec 64 → BitVec 64} :
    StaysExec s (execFcvtToS exact P d s) :=
  .rounded (fun _ _ _ => rfl)

theorem execFcvtToD_stays
    {exact : HostFloat → RoundMode → BitVec 64 → BitVec 64} :
    StaysExec s (execFcvtToD exact P d s) :=
  .rounded (fun _ _ _ => rfl)

theorem execFcvtToDFlags_stays
    {exact : HostFloat → RoundMode → BitVec 64 → BitVec 64} :
    StaysExec s (execFcvtToDFlags exact P d s) :=
  .rounded (fun _ _ _ => rfl)

/- Conversions between the formats stay. -/
theorem execFCVT_S_D_stays :
    StaysExec s (execFCVT_S_D P d s) := by
  refine .rounded ?_
  intro inter flags s
  dsimp only
  split
  · rfl
  · rfl

theorem execFCVT_D_S_stays :
    StaysExec s (execFCVT_D_S P d s) := by
  unfold execFCVT_D_S
  dsimp only
  split
  · refine .regs ?_ rfl
    split
    · rfl
    · rfl
  · exact .regs rfl rfl

/- Comparisons do not jump. -/
theorem execFcmp_stays
    {w : Nat}
    {src : State σ → BitVec 5 → BitVec w}
    {bad : BitVec w → Bool}
    {cmp : BitVec w → BitVec w → Bool} :
    StaysExec s (execFcmp src bad cmp P d s) := by
  unfold execFcmp
  dsimp only
  split
  · exact .regs rfl rfl
  · exact .regs rfl rfl

/- Minimum and maximum do not jump. -/
theorem execFselect_stays
    {w k : Nat}
    {canonical : BitVec w}
    {src : State σ → BitVec 5 → BitVec w}
    {res : BitVec w → BitVec 64}
    {first : BitVec w → BitVec w → Bool} :
    StaysExec s
      (execFselect k canonical src res first P d s) := by
  refine .regs ?_ rfl
  split
  · rfl
  · rfl

/- Sign injection does not jump. -/
theorem execSign_stays
    {n : BitVec 64}
    {val : BitVec 64}
    (hn : IsEven n) :
    StaysExec s (.ok (.next n, setCast P d.rd s val)) :=
  .regs (setCast_pc _ _ _) hn

/- A load-reserved keeps the counter even. -/
theorem execLr_even
    {size : MemorySize}
    {fail : BitVec 64}
    {ext : BitVec 64 → BitVec 64}
    (hEven : PcEven s.hart)
    (h : execLr size fail ext P d s = .ok (out, s')) :
    GoesEven out s' := by
  rcases bind_eq_ok.mp h with ⟨⟨m, s₁, v⟩, hLr, h⟩
  rcases bind_eq_ok.mp hLr with ⟨⟨m', v', s₂⟩, hRead, hLr⟩
  dsimp only at h hLr
  split at h
  case isFalse =>
    cases h
    exact goesEven_of_fail rfl
  case isTrue =>
    cases h
    refine goesEven_of_pc hEven ?_ rfl
    have hPc : s₁.hart.pc = s.hart.pc := by
      rw [← State.mmioRead_pc hRead]
      split at hLr
      · cases hLr
        rfl
      · cases hLr
        rfl
    exact hPc

/- A store-conditional goes on, whether it stores or not. -/
theorem execSc_even
    {size : MemorySize}
    {fail : BitVec 64}
    {val result : BitVec 64 → BitVec 64}
    (hEven : PcEven s.hart)
    (h : execSc size fail val result P d s = .ok (out, s')) :
    GoesEven out s' := by
  rcases bind_eq_ok.mp h with ⟨⟨m, s₁, b⟩, hSc, h⟩
  dsimp only at h
  split at h
  case isFalse =>
    cases h
    exact goesEven_of_fail rfl
  case isTrue =>
    cases h
    refine goesEven_of_pc hEven ?_ rfl
    have hPc : s₁.hart.pc = s.hart.pc := by
      unfold AMO_SC at hSc
      dsimp only at hSc
      split at hSc
      · rcases bind_eq_ok.mp hSc with ⟨⟨m', s₂⟩, hWrite, hSc⟩
        have hSame := State.mmioWrite_pc hWrite
        dsimp only at hSc
        split at hSc
        · cases hSc
          exact hSame
        · cases hSc
          rfl
      · cases hSc
        rfl
    exact hPc

/- An atomic operation goes on. -/
theorem execAmo_even
    {size : MemorySize}
    {ext : BitVec 64 → BitVec 64}
    {func : BitVec 64 → BitVec 64 → BitVec 64}
    (hEven : PcEven s.hart)
    (h : execAmo size ext func P d s = .ok (out, s')) :
    GoesEven out s' := by
  rcases bind_eq_ok.mp h with ⟨⟨m, s₁, v⟩, hAmo, h⟩
  rcases bind_eq_ok.mp hAmo with ⟨⟨m', v', s₂⟩, hRead, hAmo⟩
  cases h
  have hPc : s₁.hart.pc = s.hart.pc := by
    rw [← State.mmioRead_pc hRead]
    dsimp only at hAmo
    split at hAmo
    · rcases bind_eq_ok.mp hAmo with ⟨⟨m'', s₃⟩, hWrite, hAmo⟩
      dsimp only at hAmo
      split at hAmo
      · cases hAmo
        exact State.mmioWrite_pc hWrite
      · cases hAmo
        exact State.mmioWrite_pc hWrite
    · cases hAmo
      rfl
  have hFour : IsEven (ExecReturn.ofMemory 4 m).increasePc :=
    (by decide : IsEven (4 : BitVec 64))
  refine goesEven_of_pc hEven ?_ hFour
  split
  · exact hPc
  · exact hPc

end RiscvEm

------------------------------------------------------------
-- System Instructions
------------------------------------------------------------

namespace RiscvEm

open WordArith (IsEven)

variable {σ : Type}
variable {P : Platform σ}
variable {d : InstructionData}
variable {s s' : State σ}
variable {out : ExecReturn}

/- Reading a CSR may trap, and so may writing one. -/
theorem csrRead_even
    (hEven : PcEven s.hart)
    (csr : BitVec 16) :
    PcEven (s.csrRead csr).2.hart := by
  by_cases hDenied : State.isFloatCsr csr = true ∧
      s.hart.status.FS = 0
  · rw [State.csrRead_denied hDenied.1 hDenied.2]
    exact Hart.trap_even _ _ _ _
  · rw [s.csrRead_state csr hDenied]
    exact hEven

/- Writing a register of control never moves `pc`. -/
theorem csrWrite_even
    (hEven : PcEven s.hart)
    (csr : BitVec 16)
    (val : BitVec 64) :
    PcEven (s.csrWrite csr val).hart := by
  unfold State.csrWrite
  dsimp only
  repeat' split
  all_goals first
    | exact hEven
    | exact Hart.trap_even _ _ _ _
    | skip
  unfold State.setCsr
  split
  · exact hEven
  · exact hEven

/- Going on by four keeps it even. -/
theorem goesEven_next
    (hEven : PcEven s'.hart) :
    GoesEven (.next 4) s' :=
  fun _ => IsEven.add hEven rfl

/- Instructions on these registers go on. -/
theorem execCSRRW_even
    (hEven : PcEven s.hart)
    (h : execCSRRW P d s = .ok (out, s')) :
    GoesEven out s' := by
  unfold execCSRRW at h
  split at h
  · rcases ok_pair h with ⟨rfl, rfl⟩
    refine goesEven_next ?_
    have hDone := csrWrite_even (csrRead_even hEven d.csr)
      d.csr ((s.csrRead d.csr).2.gpr d.rs1)
    split
    · exact hDone
    · exact hDone
  · rcases ok_pair h with ⟨rfl, rfl⟩
    exact goesEven_of_fail rfl

theorem execCsrBits_even
    {operand : State σ → InstructionData → BitVec 64}
    {f : BitVec 64 → BitVec 64 → BitVec 64}
    (hEven : PcEven s.hart)
    (h : execCsrBits operand f P d s = .ok (out, s')) :
    GoesEven out s' := by
  unfold execCsrBits at h
  split at h
  · rcases ok_pair h with ⟨rfl, rfl⟩
    have hRead := csrRead_even hEven d.csr
    refine goesEven_next ?_
    by_cases hRs : d.rs1 ≠ 0
    · rw [if_pos hRs]
      exact csrWrite_even hRead d.csr _
    · rw [if_neg hRs]
      exact hRead
  · rcases ok_pair h with ⟨rfl, rfl⟩
    exact goesEven_of_fail rfl

theorem execCSRRWI_even
    (hEven : PcEven s.hart)
    (h : execCSRRWI P d s = .ok (out, s')) :
    GoesEven out s' := by
  unfold execCSRRWI at h
  split at h
  · rcases ok_pair h with ⟨rfl, rfl⟩
    refine goesEven_next ?_
    refine csrWrite_even ?_ d.csr _
    split
    · exact csrRead_even hEven d.csr
    · exact hEven
  · rcases ok_pair h with ⟨rfl, rfl⟩
    exact goesEven_of_fail rfl

/- Fences keep it even. -/
theorem execSFENCE_VMA_even
    (hEven : PcEven s.hart)
    (h : execSFENCE_VMA P d s = .ok (out, s')) :
    GoesEven out s' := by
  unfold execSFENCE_VMA at h
  split at h
  · cases h
    exact goesEven_of_fail rfl
  · split at h
    · cases h
      exact goesEven_of_fail rfl
    · cases h
      exact goesEven_next hEven

/- Waiting keeps it even. -/
theorem execWFI_even
    (hEven : PcEven s.hart)
    (h : execWFI P d s = .ok (out, s')) :
    GoesEven out s' := by
  unfold execWFI at h
  split at h
  · cases h
    exact goesEven_of_fail rfl
  · split at h
    · cases h
      exact goesEven_next hEven
    · cases h
      exact goesEven_next hEven

/- Zeroing a block leaves `pc` alone. -/
theorem zeroBytes_pc
    (n : Nat)
    {addr : BitVec 64}
    {s : State σ}
    (h : zeroBytes P addr n s = .ok s') :
    s'.hart.pc = s.hart.pc := by
  induction n generalizing addr s with
  | zero =>
      cases h
      rfl
  | succ n ih =>
      rcases bind_eq_ok.mp h with ⟨⟨m, s₁⟩, hWrite, hRest⟩
      rw [ih hRest, State.mmioWrite_pc hWrite]

/- `CBO.ZERO` keeps it even. -/
theorem execcbo_zero_even
    (hEven : PcEven s.hart)
    (h : execcbo_zero P d s = .ok (out, s')) :
    GoesEven out s' := by
  rcases bind_eq_ok.mp h with ⟨s₁, hZero, h⟩
  rcases ok_pair h with ⟨rfl, rfl⟩
  refine goesEven_of_pc hEven ?_ rfl
  unfold zeroBlock at hZero
  split at hZero
  · rcases bind_eq_ok.mp hZero with ⟨mem, -, hEq⟩
    cases hEq
    rfl
  · exact zeroBytes_pc 64 hZero

/- The jumps to a register clear the lowest bit. -/
theorem execC_JR_even
    (h : execC_JR P d s = .ok (out, s')) :
    GoesEven out s' := by
  cases h
  exact goesEven_jumped (IsEven.and _ (by decide))

/- The compressed jump to a register clears the lowest bit. -/
theorem execC_JALR_even
    (h : execC_JALR P d s = .ok (out, s')) :
    GoesEven out s' := by
  cases h
  exact goesEven_jumped (IsEven.and _ (by decide))

/- The one with an offset adds an even one. -/
theorem execC_J_even
    (hEven : PcEven s.hart)
    (hImm : IsEven d.imm)
    (h : execC_J P d s = .ok (out, s')) :
    GoesEven out s' := by
  cases h
  exact goesEven_jumped (IsEven.add hEven (isEven_sextW hImm))

/- The instructions that add their offset untested. -/
def untestedJumps : List Op :=
  [.C_J, .C_BEQZ, .C_BNEZ]

section Dispatch

-- the shapes stay folded, so that each name unfolds to one
seal execRd execFrd execLoad execStore execBranch execBranchZ
  execJump execLr execSc execAmo execSingle execDouble
  execFcvtToInt execFcvtToS execFcvtToD execFcvtToDFlags
  execFcmp execFselect execCsrBits setCast

/- Only the returns from traps go on at an odd address. -/
theorem Op.exec_goesEven
    (op : Op)
    (hEven : PcEven s.hart)
    (hImm : op ∈ untestedJumps → IsEven d.imm)
    (hMret : op ≠ .MRET)
    (hSret : op ≠ .SRET)
    (h : op.exec P d s = .ok (out, s')) :
    GoesEven out s' := by
  cases op with
  | ADD | ADDW | SUB | SUBW | XOR | OR | AND | SLL | SLLW
  | SRL | SRLW | SRA | SRAW | SLT | SLTU | ADDI | ADDIW
  | XORI | ORI | ANDI | SLLI | SLLIW | SRLIW | SRAIW | SRLI
  | SRAI | SLTI | SLTIU | LUI | AUIPC | MUL | MULW | MULH
  | MULHSU | MULHU | DIV | DIVU | DIVUW | DIVW | REM | REMU
  | REMUW | REMW | FMV_X_W | FCLASS_S | FMV_X_D | FCLASS_D
  | C_ADDI4SPN | C_ADDI | C_ADDIW | C_LI | C_SRLI | C_SRAI
  | C_ANDI | C_SUB | C_XOR | C_OR | C_AND | C_SUBW | C_ADDW
  | C_SLLI | C_MV | C_ADD | ADD_UW | SH1ADD | SH1ADD_UW
  | SH2ADD | SH2ADD_UW | SH3ADD | SH3ADD_UW | SLLI_UW
  | ANDN | ORN | XNOR | CLZ | CLZW | CTZ | CTZW | CPOP
  | CPOPW | MAX | MAXU | MIN | MINU | SEXT_B | SEXT_H
  | ZEXT_H | ROL | ROLW | ROR | RORI | RORIW | RORW | ORC_B
  | REV8 | CLMUL | CLMULH | CLMULR | BCLR | BCLRI | BEXT
  | BEXTI | BINV | BINVI | BSET | BSETI =>
      refine execRd_even hEven ?_ h
      rfl
  | LB | LH | LW | LD | LBU | LHU | LWU | C_LW | C_LD
  | C_LWSP | C_LDSP =>
      refine execLoad_even hEven ?_ ?_ h
      · exact fun s v => rfl
      · rfl
  | SB | SH | SW | SD | FSW | FSD | C_SW | C_SD | C_SWSP
  | C_SDSP | C_FSD | C_FSDSP =>
      refine execStore_even hEven ?_ h
      rfl
  | BEQ | BNE | BLT | BGE | BLTU | BGEU =>
      exact execBranch_even hEven h
  | JAL | JALR =>
      exact execJump_even h
  | ECALL =>
      exact execECALL_even (P := P) (d := d) hEven h
  | EBREAK | C_EBREAK =>
      cases h
      exact goesEven_of_fail rfl
  | FENCE | C_NOP =>
      cases h
      exact goesEven_of_pc hEven rfl rfl
  | AMOSWAP_W | AMOADD_W | AMOAND_W | AMOXOR_W | AMOOR_W
  | AMOMIN_W | AMOMINU_W | AMOMAX_W | AMOMAXU_W | AMOSWAP_D
  | AMOADD_D | AMOAND_D | AMOXOR_D | AMOOR_D | AMOMIN_D
  | AMOMINU_D | AMOMAX_D | AMOMAXU_D =>
      exact execAmo_even hEven h
  | LR_W | LR_D =>
      exact execLr_even hEven h
  | SC_W | SC_D =>
      exact execSc_even hEven h
  | FMADD_S | FMSUB_S | FNMADD_S | FNMSUB_S | FADD_S
  | FSUB_S | FMUL_S | FDIV_S | FSQRT_S =>
      exact execSingle_stays.even hEven h
  | FSGNJ_S | FSGNJN_S =>
      refine (execSign_stays ?_).even hEven h
      rfl
  | FSGNJX_S | FMV_W_X | FSGNJ_D | FSGNJN_D | FSGNJX_D
  | FMV_D_X =>
      refine execFrd_even hEven ?_ h
      rfl
  | FMIN_S | FMAX_S | FMIN_D | FMAX_D =>
      exact execFselect_stays.even hEven h
  | FCVT_W_S | FCVT_WU_S | FCVT_L_S | FCVT_LU_S | FCVT_W_D
  | FCVT_WU_D | FCVT_L_D | FCVT_LU_D =>
      exact execFcvtToInt_stays.even hEven h
  | FCVT_S_W | FCVT_S_WU | FCVT_S_L | FCVT_S_LU =>
      exact execFcvtToS_stays.even hEven h
  | FEQ_S | FLT_S | FLE_S | FEQ_D | FLT_D | FLE_D =>
      exact execFcmp_stays.even hEven h
  | FLW | FLD | C_FLD | C_FLDSP =>
      refine execLoad_even hEven ?_ ?_ h
      · exact fun s v => rfl
      · rfl
  | FMADD_D | FMSUB_D | FNMADD_D | FNMSUB_D | FADD_D
  | FSUB_D | FMUL_D | FDIV_D | FSQRT_D =>
      exact execDouble_stays.even hEven h
  | FCVT_S_D =>
      exact execFCVT_S_D_stays.even hEven h
  | FCVT_D_S =>
      exact execFCVT_D_S_stays.even hEven h
  | FCVT_D_W | FCVT_D_WU =>
      exact execFcvtToD_stays.even hEven h
  | FCVT_D_L | FCVT_D_LU =>
      exact execFcvtToDFlags_stays.even hEven h
  | C_LUI_ADDI16SP =>
      change execC_LUI_ADDI16SP P d s = _ at h
      unfold execC_LUI_ADDI16SP at h
      split at h
      · refine execRd_even hEven ?_ h
        rfl
      · refine execRd_even hEven ?_ h
        rfl
  | C_J =>
      exact execC_J_even (P := P) hEven (hImm (by decide)) h
  | C_JR =>
      exact execC_JR_even (P := P) h
  | C_BEQZ | C_BNEZ =>
      exact execBranchZ_even hEven (hImm (by decide)) h
  | C_JALR =>
      exact execC_JALR_even (P := P) h
  | MRET => exact absurd rfl hMret
  | SRET => exact absurd rfl hSret
  | WFI =>
      exact execWFI_even (P := P) (d := d) hEven h
  | SFENCE_VMA =>
      exact execSFENCE_VMA_even (P := P) (d := d) hEven h
  | CSRRW =>
      exact execCSRRW_even (P := P) hEven h
  | CSRRS | CSRRC | CSRRSI | CSRRCI =>
      exact execCsrBits_even hEven h
  | CSRRWI =>
      exact execCSRRWI_even (P := P) hEven h
  | FENCE_I =>
      cases h
      exact goesEven_of_pc hEven rfl rfl
  | cbo_zero =>
      exact execcbo_zero_even (P := P) (d := d) hEven h

end Dispatch

end RiscvEm
