import RiscvEm.Hart.Eval
import RiscvEm.Hart.Precise

/-
  Access control of the CSR instructions: the privilege and
  the read-only space that the number of a register encodes,
  and what follows for `mhartid`.

  Key definitions include:
    * `CsrControl`
    * `CsrGuarded`
    * `ClearsHartid`

  Key theorems include `csr_access_control`.
-/

------------------------------------------------------------
-- What The Numbers Of Registers Say
------------------------------------------------------------

namespace RiscvEm

variable {σ : Type}

/- All control and status registers of a hart. -/
structure CsrFile where
  csrs : BitVec 16 → BitVec 64
  status : Status
  ie : BitVec 16
  fcsr : Fcsr
  pins : HartPins

def State.csrFile
    (s : State σ) : CsrFile :=
  { csrs := s.hart.csrs
    status := s.hart.status
    ie := s.hart.ie
    fcsr := s.hart.fcsr
    pins := s.pins }

/-
  Bits 9 and 8 of the number are the lowest mode that may
  access the register; bits 11 and 10 set mark it read-only.
-/
structure CsrControl
    (s s' : State σ)
    (a : BitVec 12) : Prop where
  level : (a.extractLsb' 8 2).toNat ≤ s.hart.mode.toNat
  readOnly : a.extractLsb' 10 2 = 3 → s'.csrFile = s.csrFile

/- The instruction writes its register. -/
def csrWrites
    (op : Op)
    (d : InstructionData) : Bool :=
  op == .CSRRW || op == .CSRRWI || d.rs1 != 0

/- The value that an instruction is to write. -/
def csrNewValue
    (op : Op)
    (d : InstructionData)
    (s : State σ) : BitVec 64 :=
  match op with
  | .CSRRW => s.gpr d.rs1
  | .CSRRS => (s.csrRead d.csr).1 ||| s.gpr d.rs1
  | .CSRRC => (s.csrRead d.csr).1 &&& ~~~(s.gpr d.rs1)
  | .CSRRSI => (s.csrRead d.csr).1 ||| d.rs1.setWidth 64
  | .CSRRCI => (s.csrRead d.csr).1 &&& ~~~(d.rs1.setWidth 64)
  | _ => d.rs1.setWidth 64

/- Pages of registers that the table gives a lower level. -/
def unguardedPages : List (BitVec 4) :=
  [0x2, 0x5, 0x6, 0x7, 0x9, 0xA, 0xD, 0xE]

/- Registers whose writes are ignored. -/
def ignoredCsrs : List (BitVec 12) :=
  [0xF11, 0xF12, 0xF13]

/-
  A register of an unguarded page is accessed in a mode that
  is high enough, and a read-only register is not written,
  or is one that ignores writes, or is written the value it
  has.
-/
structure CsrGuarded
    (s : State σ)
    (op : Op)
    (d : InstructionData)
    (a : BitVec 12) : Prop where
  level : a.extractLsb' 8 4 ∈ unguardedPages →
    (a.extractLsb' 8 2).toNat ≤ s.hart.mode.toNat
  readOnly : a.extractLsb' 10 2 = 3 →
    csrWrites op d = true →
      a ∈ ignoredCsrs ∨ csrNewValue op d s = s.csr d.csr

end RiscvEm

------------------------------------------------------------
-- Levels
------------------------------------------------------------

namespace RiscvEm

variable {σ : Type}
variable {P : Platform σ}
variable {op : Op}
variable {d : InstructionData}
variable {s s' : State σ}
variable {out : ExecReturn}

/- The level of a register is that of its page. -/
theorem csrLevel_page
    (a : BitVec 12) :
    csrLevel (a.setWidth 16) =
      csrLevel ((a.extractLsb' 8 4).setWidth 16 <<< 8) := by
  have hLt := a.isLt
  have hA : (a.setWidth 16).toNat = a.toNat := by
    rw [BitVec.toNat_setWidth]
    omega
  have hP : ((a.extractLsb' 8 4).setWidth 16 <<< 8).toNat =
      256 * (a.toNat / 256) := by
    simp only [BitVec.toNat_shiftLeft, BitVec.toNat_setWidth,
      BitVec.extractLsb'_toNat, Nat.shiftLeft_eq,
      Nat.shiftRight_eq_div_pow]
    omega
  have hUser : a.setWidth 16 ≤ (0x0FF : BitVec 16) ↔
      (a.extractLsb' 8 4).setWidth 16 <<< 8 ≤
        (0x0FF : BitVec 16) := by
    rw [BitVec.le_def, BitVec.le_def, hA, hP]
    simp only [BitVec.reduceToNat]
    omega
  -- a range of the table is one page
  have hPage : ∀ lo hi : BitVec 16,
      lo.toNat % 256 = 0 → hi.toNat = lo.toNat + 255 →
      ((lo ≤ a.setWidth 16 ∧ a.setWidth 16 ≤ hi) ↔
        (lo ≤ (a.extractLsb' 8 4).setWidth 16 <<< 8 ∧
          (a.extractLsb' 8 4).setWidth 16 <<< 8 ≤ hi)) := by
    intro lo hi hLo hHi
    rw [BitVec.le_def, BitVec.le_def, BitVec.le_def,
      BitVec.le_def, hA, hP, hHi]
    omega
  unfold csrLevel
  simp only [hUser, hPage 0x100 0x1FF rfl rfl,
    hPage 0x200 0x2FF rfl rfl, hPage 0x300 0x3FF rfl rfl,
    hPage 0xB00 0xBFF rfl rfl, hPage 0xC00 0xCFF rfl rfl,
    hPage 0xF00 0xFFF rfl rfl]

/- Where the table gives the encoded level. -/
theorem page_level :
    ∀ p : BitVec 4, p ∉ unguardedPages →
      ∀ mode ∈ [PrivilegeMode.User, .Supervisor, .Hypervisor,
          .Machine],
        compatibleMode (csrLevel (p.setWidth 16 <<< 8)) mode =
          true →
        (p.extractLsb' 0 2).toNat ≤ mode.toNat := by
  decide +kernel

/-
  Outside of these pages the level of the number is checked.
-/
theorem csrLevel_guarded
    {a : BitVec 12}
    (hPage : a.extractLsb' 8 4 ∉ unguardedPages)
    {mode : PrivilegeMode}
    (hMode : compatibleMode (csrLevel (a.setWidth 16)) mode =
      true) :
    (a.extractLsb' 8 2).toNat ≤ mode.toNat := by
  have hBits : (a.extractLsb' 8 4).extractLsb' 0 2 =
      a.extractLsb' 8 2 := by
    apply BitVec.eq_of_getLsbD_eq
    intro i hi
    have hWide : i < 4 := by omega
    simp [hi, hWide]
  rw [csrLevel_page] at hMode
  rw [← hBits]
  refine page_level _ hPage mode ?_ hMode
  cases mode <;> decide

/- An instruction that succeeds has passed the checks. -/
theorem csr_exec_allowed
    (hOp : op ∈ csrOps)
    (hExec : op.exec P d s = .ok (out, s'))
    (hOk : out.isSuccess = true) :
    ∃ write, csrAllowed s d write = true := by
  have hShape : ∀ (write : Bool)
      (x : Except HostFault (ExecReturn × State σ)),
      (if csrAllowed s d write = true then x
        else .ok (.illegal d.inst, s)) = .ok (out, s') →
      ∃ write, csrAllowed s d write = true := by
    intro write x h
    by_contra hNone
    rw [if_neg (fun hAllowed => hNone ⟨write, hAllowed⟩)] at h
    cases h
    cases hOk
  simp only [csrOps, List.mem_cons, List.not_mem_nil,
    or_false] at hOp
  rcases hOp with rfl | rfl | rfl | rfl | rfl | rfl
  all_goals exact hShape _ _ hExec

end RiscvEm

------------------------------------------------------------
-- Read-Only Registers
------------------------------------------------------------

namespace RiscvEm

variable {σ : Type}
variable {P : Platform σ}
variable {op : Op}
variable {d : InstructionData}
variable {s s' : State σ}
variable {out : ExecReturn}

/- An integer register is not among them. -/
theorem setCsr_setGpr
    (s : State σ)
    (r : BitVec 5)
    (v val : BitVec 64)
    (csr : BitVec 16) :
    ((s.setGpr r v).setCsr csr val).csrFile =
      (s.setCsr csr val).csrFile := by
  unfold State.setCsr
  split <;> rfl

/- A number of the read-only space is at least 0xC00. -/
theorem le_of_readOnly
    {a : BitVec 12}
    (h : a.extractLsb' 10 2 = 3) :
    0xC00 ≤ (a.setWidth 16).toNat := by
  have hLt := a.isLt
  have hNat := congrArg BitVec.toNat h
  simp only [BitVec.extractLsb'_toNat,
    Nat.shiftRight_eq_div_pow, BitVec.reduceToNat] at hNat
  rw [BitVec.toNat_setWidth]
  omega

/- In the read-only space a write is stored or ignored. -/
theorem csrWrite_readOnly
    {csr : BitVec 16}
    (hCsr : 0xC00 ≤ csr.toNat)
    (s : State σ)
    (val : BitVec 64) :
    s.csrWrite csr val =
      if csr = CSR_MVENDORID ∨ csr = CSR_MARCHID ∨
          csr = CSR_MIMPID then
        s
      else
        s.setCsr csr val := by
  have hNe : ∀ c : BitVec 16, c.toNat < 0xC00 → csr ≠ c := by
    rintro c hc rfl
    omega
  have hFloat : State.isFloatCsr csr = false := by
    unfold State.isFloatCsr
    simp [hNe CSR_FCSR (by decide), hNe CSR_FFLAGS (by decide),
      hNe CSR_FRM (by decide)]
  unfold State.csrWrite
  dsimp only
  rw [if_neg (hNe CSR_MSTATUS (by decide)),
    if_neg (hNe CSR_SSTATUS (by decide)),
    if_neg (hNe CSR_SIE (by decide)),
    if_neg (hNe CSR_SIP (by decide)),
    if_neg (hNe CSR_MIE (by decide)),
    if_neg (hNe CSR_MIP (by decide)),
    if_neg (hNe CSR_STIMECMP (by decide)), hFloat,
    if_neg Bool.false_ne_true]

/-
  Reading a counter of the read-only space changes nothing.
-/
theorem csrRead_readOnly
    {csr : BitVec 16}
    (hCsr : 0xC00 ≤ csr.toNat)
    (s : State σ) :
    (s.csrRead csr).2 = s := by
  refine s.csrRead_state csr ?_
  rintro ⟨hFloat, -⟩
  rcases isFloatCsr_cases hFloat with rfl | rfl | rfl
  all_goals exact absurd hCsr (by decide)

/- Storing a value changes nothing if it was there. -/
theorem csrFile_setCsr_iff
    (s : State σ)
    (csr : BitVec 16)
    (val : BitVec 64) :
    (s.setCsr csr val).csrFile = s.csrFile ↔
      val = s.csr csr := by
  unfold State.setCsr State.csr
  by_cases hTime : csr = CSR_TIME
  · rw [if_pos hTime, if_pos hTime]
    constructor
    · intro h
      have hPins := congrArg (fun f => f.pins.time) h
      simpa [State.csrFile, State.setPins, State.pins] using
        hPins
    · rintro rfl
      simp [State.csrFile, State.setPins, State.pins]
  · rw [if_neg hTime, if_neg hTime]
    constructor
    · intro h
      have hStored := congrArg (fun f => f.csrs csr) h
      simpa [State.csrFile, State.setHart] using hStored
    · rintro rfl
      simp [State.csrFile, State.setHart, State.pins]

section Exec

variable (hCsr : 0xC00 ≤ d.csr.toNat)
variable (hOk : out.isSuccess = true)

include hCsr

/- Reading one of these registers changes nothing. -/
theorem csrRead_pair :
    s.csrRead d.csr = ((s.csrRead d.csr).1, s) :=
  Prod.ext rfl (csrRead_readOnly hCsr s)

/- A write does not look at the integer registers. -/
theorem csrWrite_setGpr
    (r : BitVec 5)
    (v val : BitVec 64) :
    ((s.setGpr r v).csrWrite d.csr val).csrFile =
      (s.csrWrite d.csr val).csrFile := by
  rw [csrWrite_readOnly hCsr, csrWrite_readOnly hCsr]
  split
  · rfl
  · exact setCsr_setGpr s r v val d.csr

include hOk

/- `CSRRW` leaves what the write leaves. -/
theorem execCSRRW_file
    (hExec : execCSRRW P d s = .ok (out, s')) :
    s'.csrFile = (s.csrWrite d.csr (s.gpr d.rs1)).csrFile := by
  unfold execCSRRW at hExec
  rw [csrRead_pair hCsr] at hExec
  split at hExec
  · rcases ok_pair hExec with ⟨-, rfl⟩
    dsimp only
    split <;> rfl
  · cases hExec
    cases hOk

/- `CSRRWI` leaves what the write leaves. -/
theorem execCSRRWI_file
    (hExec : execCSRRWI P d s = .ok (out, s')) :
    s'.csrFile =
      (s.csrWrite d.csr (d.rs1.setWidth 64)).csrFile := by
  unfold execCSRRWI at hExec
  rw [csrRead_pair hCsr] at hExec
  split at hExec
  · rcases ok_pair hExec with ⟨-, rfl⟩
    dsimp only
    split
    · exact csrWrite_setGpr hCsr _ _ _
    · rfl
  · cases hExec
    cases hOk

/- The others write if they have something to write. -/
theorem execCsrBits_file
    {operand : State σ → InstructionData → BitVec 64}
    {f : BitVec 64 → BitVec 64 → BitVec 64}
    (hExec : execCsrBits operand f P d s = .ok (out, s')) :
    s'.csrFile =
      if d.rs1 != 0 then
        (s.csrWrite d.csr
          (f (s.csrRead d.csr).1 (operand s d))).csrFile
      else
        s.csrFile := by
  unfold execCsrBits at hExec
  rw [csrRead_pair hCsr] at hExec
  split at hExec
  · rcases ok_pair hExec with ⟨-, rfl⟩
    dsimp only
    by_cases hRs : d.rs1 ≠ 0
    · rw [if_pos hRs, if_pos (bne_iff_ne.mpr hRs)]
      rfl
    · rw [if_neg hRs, if_neg (fun h => hRs (bne_iff_ne.mp h))]
      rfl
  · cases hExec
    cases hOk

end Exec

/- The others write if their source is not `x0`. -/
theorem csrWrites_of_ne
    (hRw : op ≠ .CSRRW)
    (hRwi : op ≠ .CSRRWI) :
    csrWrites op d = (d.rs1 != 0) := by
  unfold csrWrites
  rw [beq_eq_false_iff_ne.mpr hRw, beq_eq_false_iff_ne.mpr hRwi,
    Bool.false_or, Bool.false_or]

section Dispatch

seal execCSRRW execCSRRWI execCsrBits

/- The registers after an instruction in that space. -/
theorem csr_exec_file
    (hOp : op ∈ csrOps)
    (hCsr : 0xC00 ≤ d.csr.toNat)
    (hExec : op.exec P d s = .ok (out, s'))
    (hOk : out.isSuccess = true) :
    s'.csrFile =
      if csrWrites op d then
        (s.csrWrite d.csr (csrNewValue op d s)).csrFile
      else
        s.csrFile := by
  simp only [csrOps, List.mem_cons, List.not_mem_nil,
    or_false] at hOp
  rcases hOp with rfl | rfl | rfl | rfl | rfl | rfl
  · exact execCSRRW_file hCsr hOk hExec
  · rw [csrWrites_of_ne (by decide) (by decide)]
    have hFile := execCsrBits_file hCsr hOk hExec
    exact hFile
  · rw [csrWrites_of_ne (by decide) (by decide)]
    have hFile := execCsrBits_file hCsr hOk hExec
    exact hFile
  · exact execCSRRWI_file hCsr hOk hExec
  · rw [csrWrites_of_ne (by decide) (by decide)]
    have hFile := execCsrBits_file hCsr hOk hExec
    exact hFile
  · rw [csrWrites_of_ne (by decide) (by decide)]
    have hFile := execCsrBits_file hCsr hOk hExec
    exact hFile

end Dispatch

/- The three registers that say who made the hart. -/
theorem mem_ignoredCsrs_iff
    (a : BitVec 12) :
    a ∈ ignoredCsrs ↔
      (a.setWidth 16 = CSR_MVENDORID ∨
        a.setWidth 16 = CSR_MARCHID ∨
        a.setWidth 16 = CSR_MIMPID) := by
  have hInj : ∀ b : BitVec 12,
      a.setWidth 16 = b.setWidth 16 ↔ a = b := by
    intro b
    constructor
    · intro h
      have hBack := congrArg (BitVec.setWidth 12) h
      simpa using hBack
    · rintro rfl
      rfl
  have hVendor : CSR_MVENDORID =
      (0xF11 : BitVec 12).setWidth 16 := rfl
  have hArch : CSR_MARCHID =
      (0xF12 : BitVec 12).setWidth 16 := rfl
  have hImp : CSR_MIMPID =
      (0xF13 : BitVec 12).setWidth 16 := rfl
  rw [hVendor, hArch, hImp, hInj, hInj, hInj]
  simp [ignoredCsrs]

/- One instruction keeps the rules under the condition. -/
theorem csrControl_iff
    {a : BitVec 12}
    (hOp : op ∈ csrOps)
    (ha : d.csr = a.setWidth 16)
    (hExec : op.exec P d s = .ok (out, s'))
    (hOk : out.isSuccess = true) :
    CsrControl s s' a ↔ CsrGuarded s op d a := by
  rcases csr_exec_allowed hOp hExec hOk with ⟨write, hAllowed⟩
  have hMode := csrAllowed_mode hAllowed
  rw [ha] at hMode
  have hLevel : (a.extractLsb' 8 2).toNat ≤
      s.hart.mode.toNat ↔
      (a.extractLsb' 8 4 ∈ unguardedPages →
        (a.extractLsb' 8 2).toNat ≤ s.hart.mode.toNat) := by
    constructor
    · intro h _
      exact h
    · intro h
      by_cases hPage : a.extractLsb' 8 4 ∈ unguardedPages
      · exact h hPage
      · exact csrLevel_guarded hPage hMode
  have hFile : a.extractLsb' 10 2 = 3 →
      (s'.csrFile = s.csrFile ↔
        (csrWrites op d = true →
          a ∈ ignoredCsrs ∨
            csrNewValue op d s = s.csr d.csr)) := by
    intro hRo
    have hCsr : 0xC00 ≤ d.csr.toNat := by
      rw [ha]
      exact le_of_readOnly hRo
    rw [csr_exec_file hOp hCsr hExec hOk]
    cases csrWrites op d with
    | false => simp
    | true =>
        rw [if_pos rfl, csrWrite_readOnly hCsr, ha,
          mem_ignoredCsrs_iff]
        by_cases hIgnored : a.setWidth 16 = CSR_MVENDORID ∨
            a.setWidth 16 = CSR_MARCHID ∨
            a.setWidth 16 = CSR_MIMPID
        · simp [hIgnored]
        · rw [if_neg hIgnored, csrFile_setCsr_iff]
          simp [hIgnored]
  constructor
  · intro h
    exact ⟨hLevel.mp h.level,
      fun hRo => (hFile hRo).mp (h.readOnly hRo)⟩
  · intro h
    exact ⟨hLevel.mpr h.level,
      fun hRo => (hFile hRo).mpr (h.readOnly hRo)⟩

end RiscvEm

------------------------------------------------------------
-- The Identity Of A Hart
------------------------------------------------------------

namespace RiscvEm

variable {σ : Type}
variable {P : Platform σ}
variable {op : Op}
variable {d : InstructionData}
variable {s s' s'' : State σ}
variable {out : ExecReturn}

/- The number of the hart and `mhartid` are as before. -/
structure HartIdKept
    (h h' : Hart) : Prop where
  id : h'.id = h.id
  csr : h'.csrs CSR_MHARTID = h.csrs CSR_MHARTID

namespace HartIdKept

/- A hart keeps its own identity. -/
theorem refl
    (h : Hart) :
    HartIdKept h h :=
  ⟨rfl, rfl⟩

/- What two parts keep, both keep. -/
theorem trans
    {h h' h'' : Hart}
    (hk : HartIdKept h h')
    (hk' : HartIdKept h' h'') :
    HartIdKept h h'' :=
  ⟨hk'.id.trans hk.id, hk'.csr.trans hk.csr⟩

/- It is enough that number and registers are equal. -/
theorem of_eq
    {h h' : Hart}
    (hId : h'.id = h.id)
    (hCsrs : h'.csrs = h.csrs) :
    HartIdKept h h' :=
  ⟨hId, by rw [hCsrs]⟩

/- Registers are none of these. -/
theorem of_onlyRegs
    (h : OnlyRegs s s') :
    HartIdKept s.hart s'.hart := by
  apply of_eq
  · rw [h.hart]
  · rw [h.hart]

/- A trap writes other registers. -/
theorem trap
    (h : Hart)
    (cause tval : BitVec 64)
    (interrupt : Bool) :
    HartIdKept h (h.trap cause tval interrupt) := by
  unfold Hart.trap
  split
  · exact ⟨rfl, rfl⟩
  · exact ⟨rfl, rfl⟩

/- A read keeps number and registers. -/
theorem mmioRead
    {addr val : BitVec 64}
    {size : MemorySize}
    {m : MemoryReturn}
    (h : s.mmioRead P addr size = .ok (m, val, s')) :
    HartIdKept s.hart s'.hart := by
  rw [State.mmioRead_frame h]
  exact refl _

/- A write keeps them. -/
theorem mmioWrite
    {addr val : BitVec 64}
    {size : MemorySize}
    {m : MemoryReturn}
    (h : s.mmioWrite P addr size val = .ok (m, s')) :
    HartIdKept s.hart s'.hart := by
  rcases State.mmioWrite_cases h with
    ⟨-, -, mem, jctx, -, -, rfl⟩ |
    ⟨-, dev, world, mem, -, -, rfl⟩ | ⟨-, rfl⟩
  · exact ⟨rfl, rfl⟩
  · exact ⟨rfl, rfl⟩
  · exact refl _

/- Zeroing a block keeps them. -/
theorem zeroBytes
    (n : Nat)
    {addr : BitVec 64}
    {s : State σ}
    (h : RiscvEm.zeroBytes P addr n s = .ok s') :
    HartIdKept s.hart s'.hart := by
  induction n generalizing addr s with
  | zero =>
      cases h
      exact refl _
  | succ n ih =>
      rcases bind_eq_ok.mp h with ⟨⟨m, s₁⟩, hWrite, hRest⟩
      exact (mmioWrite hWrite).trans (ih hRest)

/- Writing another register of control keeps them. -/
theorem setCsr
    (s : State σ)
    {n : BitVec 16}
    (hn : n ≠ CSR_MHARTID)
    (v : BitVec 64) :
    HartIdKept s.hart (s.setCsr n v).hart := by
  unfold State.setCsr
  split
  · exact refl _
  · exact ⟨rfl, Function.update_of_ne hn.symm _ _⟩

/- Reading one, if it is read. -/
theorem csrReadIf
    (reads : Bool)
    (csr : BitVec 16)
    (s : State σ) :
    HartIdKept s.hart (RiscvEm.csrReadIf reads csr s).hart := by
  unfold RiscvEm.csrReadIf
  split
  · by_cases hDenied : State.isFloatCsr csr = true ∧
        s.hart.status.FS = 0
    · rw [State.csrRead_denied hDenied.1 hDenied.2]
      exact trap _ _ _ _
    · rw [s.csrRead_state csr hDenied]
      exact refl _
  · exact refl _

/- A write with everything that depends on it. -/
theorem csrWrite
    (s : State σ)
    {csr : BitVec 16}
    (hCsr : csr ≠ CSR_MHARTID)
    (val : BitVec 64) :
    HartIdKept s.hart (s.csrWrite csr val).hart := by
  unfold State.csrWrite
  dsimp only
  repeat' split
  all_goals first
    | exact refl _
    | exact ⟨rfl, rfl⟩
    | exact trap _ _ _ _
    | exact setCsr s hCsr val

end HartIdKept

/- `mhartid` is open to writes in no mode. -/
theorem mhartid_readOnly
    (mode : PrivilegeMode) :
    csrAccessible CSR_MHARTID mode true = false := by
  cases mode <;> decide

/- Only machine mode may access the register. -/
theorem mhartid_mode
    {mode : PrivilegeMode}
    (h : compatibleMode (csrLevel CSR_MHARTID) mode = true) :
    mode = .Machine := by
  cases mode with
  | Machine => rfl
  | User | Supervisor | Hypervisor => cases h

/-
  The write of zero that the check lets pass, on a hart for
  which it makes a difference.
-/
structure ClearsMhartid
    (s : State σ)
    (op : Op)
    (d : InstructionData) : Prop where
  op : op = .CSRRWI
  csr : d.csr = CSR_MHARTID
  zero : d.rs1 = 0
  mode : s.hart.mode = .Machine
  id : s.hart.id ≠ 0

/- The register holds the number of the hart. -/
def HasHartId
    (h : Hart) : Prop :=
  h.csrs CSR_MHARTID = h.id.setWidth 64

/- A hart that keeps both has its number. -/
theorem HartIdKept.hasHartId
    {h h' : Hart}
    (hk : HartIdKept h h')
    (hId : HasHartId h) :
    HasHartId h' := by
  unfold HasHartId at hId ⊢
  rw [hk.id, hk.csr, hId]

/- A write by a CSR instruction. -/
theorem HasHartId.csrWriteIf
    {writes : Bool}
    {val : BitVec 64}
    {s₁ : State σ}
    (hId : HasHartId s₁.hart)
    (hSame : s₁.hart.id = s.hart.id)
    (hMode : compatibleMode (csrLevel d.csr) s.hart.mode = true)
    (hAllowed : writes = true → CsrWriteAllowed op d s val)
    (hNot : ¬ ClearsMhartid s op d) :
    HasHartId (csrWriteIf writes d.csr val s₁).hart := by
  unfold RiscvEm.csrWriteIf
  split
  case isFalse => exact hId
  case isTrue hWrites =>
    by_cases hCsr : d.csr = CSR_MHARTID
    · rw [hCsr] at hMode
      rcases hAllowed hWrites with hAccess | ⟨hOp, hRs, rfl⟩
      · rw [hCsr, mhartid_readOnly] at hAccess
        cases hAccess
      · have hZero : s.hart.id = 0 := by
          by_contra hNe
          exact hNot ⟨hOp, hCsr, hRs, mhartid_mode hMode, hNe⟩
        rw [hCsr]
        unfold HasHartId
        rw [csrWrite_readOnly (by decide)]
        have hStored : (s₁.setCsr CSR_MHARTID 0).hart.csrs
            CSR_MHARTID = 0 := by
          unfold State.setCsr
          rw [if_neg (by decide)]
          simp [State.setHart]
        have hKept : (s₁.setCsr CSR_MHARTID 0).hart.id =
            s₁.hart.id := rfl
        rw [if_neg (by decide), hStored, hKept, hSame, hZero]
        rfl
    · exact (HartIdKept.csrWrite s₁ hCsr val).hasHartId hId

/- An instruction keeps the identity unless it clears it. -/
theorem Effect.hasHartId
    (h : Effect P op d s out s')
    (hId : HasHartId s.hart)
    (hNot : ¬ ClearsMhartid s op d) :
    HasHartId s'.hart := by
  cases h with
  | regs _ hRegs =>
      exact (HartIdKept.of_onlyRegs hRegs).hasHartId hId
  | fault _ => exact hId
  | scFault _ _ _ _ => exact hId
  | load hRead _ _ hRegs =>
      exact ((HartIdKept.mmioRead hRead).trans
        (.of_onlyRegs hRegs)).hasHartId hId
  | store hWrite _ _ hRegs =>
      exact ((HartIdKept.mmioWrite hWrite).trans
        (.of_onlyRegs hRegs)).hasHartId hId
  | amo hRead _ hWrite _ _ hRegs =>
      exact (((HartIdKept.mmioRead hRead).trans
        (.mmioWrite hWrite)).trans
        (.of_onlyRegs hRegs)).hasHartId hId
  | amoFault _ hRead _ _ _ _ =>
      exact (HartIdKept.mmioRead hRead).hasHartId hId
  | lr hRead _ _ hRegs =>
      have hFirst := HartIdKept.mmioRead hRead
      have hSecond := HartIdKept.of_onlyRegs hRegs
      exact HartIdKept.hasHartId
        ⟨hSecond.id.trans hFirst.id,
          hSecond.csr.trans hFirst.csr⟩ hId
  | sc _ hWrite _ _ hRegs =>
      have hFirst := HartIdKept.mmioWrite hWrite
      have hSecond := HartIdKept.of_onlyRegs hRegs
      exact HartIdKept.hasHartId
        ⟨hSecond.id.trans hFirst.id,
          hSecond.csr.trans hFirst.csr⟩ hId
  | scFail _ hRegs =>
      have hSecond := HartIdKept.of_onlyRegs hRegs
      exact HartIdKept.hasHartId ⟨hSecond.id, hSecond.csr⟩ hId
  | csr reads writes val _ hMode hAllowed _ _ hRead hWrite =>
      have hFirst := (HartIdKept.csrReadIf reads d.csr s).trans
        (.of_onlyRegs hRead)
      have hDone := HasHartId.csrWriteIf
        (hFirst.hasHartId hId) hFirst.id hMode hAllowed hNot
      exact (HartIdKept.of_onlyRegs hWrite).hasHartId hDone
  | mret _ _ => exact hId
  | sret _ _ => exact hId
  | wfi _ _ _ => exact hId
  | fenceI _ => exact hId
  | cboRam _ _ _ => exact hId
  | cboDevice hZero _ =>
      exact (HartIdKept.zeroBytes 64 hZero).hasHartId hId

end RiscvEm

------------------------------------------------------------
-- The Identity In Every Run
------------------------------------------------------------

namespace RiscvEm

variable {σ : Type}
variable {P : Platform σ}
variable {s s' : State σ}

/- An instruction is executed in state `b`. -/
inductive Executes
    (P : Platform σ)
    (s : State σ) :
    Instruction → InstructionData → State σ → Prop
  | mk {m : MemoryReturn} {val : BitVec 64} {s₁ : State σ}
      {i : Instruction} :
      s.mmioRead P s.hart.pc .Int = .ok (m, val, s₁) →
      ((s₁.afterFetch m).decode
        (val.setWidth 32)).1.selected = some i →
      Executes P s i
        ((s₁.afterFetch m).decode (val.setWidth 32)).1.data
        ((s₁.afterFetch m).decode (val.setWidth 32)).2

/- A tick that clears `mhartid` of a hart other than zero. -/
def ClearsHartid
    (P : Platform σ)
    (s : State σ) : Prop :=
  s.Interprets ∧ ∃ i d b, Executes P s.atFetch i d b ∧
    ClearsMhartid b i.func d

/- The part before the dispatch keeps it. -/
theorem State.preTick_hartId
    (s : State σ) :
    HartIdKept s.hart s.preTick.hart := by
  have hNe : CSR_MCYCLE ≠ CSR_MHARTID := by decide
  have hCsr : HartIdKept s.hart
      ((s.setGpr 0 0).setCsr CSR_MCYCLE
        ((s.setGpr 0 0).csr CSR_MCYCLE + 1)).hart := by
    have hKept := HartIdKept.setCsr (s.setGpr 0 0) hNe
      ((s.setGpr 0 0).csr CSR_MCYCLE + 1)
    exact ⟨hKept.id, hKept.csr⟩
  unfold State.preTick
  dsimp only
  split
  · unfold State.checkInts
    split
    · exact hCsr.trans (.trap _ _ _ _)
    · exact hCsr
  · exact hCsr

/- Retiring keeps the number. -/
theorem State.retire_hartId
    (s : State σ)
    (out : ExecReturn) :
    HartIdKept s.hart (s.retire out).hart := by
  have hNe : CSR_MINSTRET ≠ CSR_MHARTID := by decide
  have hKept := HartIdKept.setCsr s hNe
    (s.csr CSR_MINSTRET + 1)
  exact ⟨hKept.id, hKept.csr⟩

/-
  An interpreted tick keeps it, unless it clears the
  register.
-/
theorem State.interpret_hartId
    (h : s.interpret P = .ok s')
    (hId : HasHartId s.hart)
    (hNot : ∀ i d b, Executes P s i d b →
      ¬ ClearsMhartid b i.func d) :
    HasHartId s'.hart := by
  rcases State.interpret_cases h with
    ⟨m, val, s₁, hRead, hRun⟩
  have hAfter : HartIdKept s₁.hart (s₁.afterFetch m).hart := by
    unfold State.afterFetch
    split
    · exact .refl _
    · exact .trap _ _ _ _
  have hBefore : HasHartId ((s₁.afterFetch m).decode
      (val.setWidth 32)).2.hart :=
    ((HartIdKept.mmioRead hRead).trans hAfter).hasHartId hId
  rcases State.runEntry_cases hRun with
    ⟨-, rfl⟩ | ⟨i, out, s₂, hSel, hExec, hEnd⟩
  · exact (HartIdKept.trap _ _ _ _).hasHartId hBefore
  · have hDone := (Op.exec_effect _ hExec).hasHartId hBefore
      (hNot i _ _ (.mk hRead hSel))
    rcases hEnd with ⟨-, rfl⟩ | ⟨-, j, -, rfl⟩
    · exact (HartIdKept.trap _ _ _ _).hasHartId hDone
    · exact (s₂.retire_hartId out).hasHartId hDone

/- A tick keeps it. -/
theorem State.tick_hartId
    (h : s.tick P = .ok s')
    (hId : HasHartId s.hart)
    (hNot : ¬ ClearsHartid P s) :
    HasHartId s'.hart := by
  have hPre := s.preTick_hartId.hasHartId hId
  rcases State.tick_cases h with
    ⟨b, rfl⟩ | ⟨f, -, -, hCall⟩ | ⟨f, -, rfl⟩ |
    ⟨hInt, hTick⟩
  · exact hPre
  · rcases bind_eq_ok.mp hCall with ⟨s₁, hRun, hEq⟩
    have hHart := (runBlock_onlyCompiled hRun).hart
    have hDone : HasHartId s₁.hart := by
      rw [hHart]
      exact hPre
    cases hEq
    split
    · exact hDone
    · exact hDone
  · exact hPre
  · refine State.interpret_hartId hTick hPre ?_
    intro i d b hExec hClears
    exact hNot ⟨hInt, i, d, b, hExec, hClears⟩

/- Every hart of the machine knows its number. -/
def Machine.HartIds
    (m : Machine σ) : Prop :=
  ∀ c ∈ m.harts, HasHartId c.hart

/- A step of the machine keeps all numbers. -/
theorem Machine.Step.hartIds
    {m m' : Machine σ}
    {t : Option (State σ × State σ)}
    (h : Machine.Step P m t m')
    (hIds : m.HartIds)
    (hNot : ∀ t' ∈ t, ¬ ClearsHartid P t'.1) :
    m'.HartIds := by
  cases h with
  | @tick i c s hCore hTick =>
      have hDone := State.tick_hartId hTick
        (hIds c (List.mem_of_getElem? hCore))
        (hNot _ rfl)
      intro c' hMem
      rcases List.mem_or_eq_of_mem_set hMem with hOld | hNew
      · exact hIds c' hOld
      · rw [hNew]
        exact hDone
  | device world => exact hIds

/- Every run keeps them. -/
theorem Machine.Run.hartIds
    {m m' : Machine σ}
    {ts : List (State σ × State σ)}
    (h : Machine.Run P m ts m')
    (hIds : m.HartIds)
    (hNot : ∀ t ∈ ts, ¬ ClearsHartid P t.1) :
    m'.HartIds := by
  induction h with
  | start => exact hIds
  | step hRun hStep ih =>
      refine hStep.hartIds (ih ?_) ?_
      · intro t hMem
        exact hNot t (List.mem_append_right _ hMem)
      · intro t hMem
        exact hNot t (List.mem_append_left _
          (Option.mem_toList.mpr hMem))

/- The harts have just been initialised. -/
def Machine.Started
    (m : Machine σ) : Prop :=
  ∀ c ∈ m.harts, ∃ h dtb pc, c.hart = Hart.init h dtb pc

/- At the start every hart has its number. -/
theorem Machine.Started.hartIds
    {m : Machine σ}
    (h : m.Started) :
    m.HartIds := by
  intro c hMem
  rcases h c hMem with ⟨h, dtb, pc, hEq⟩
  unfold HasHartId
  rw [hEq]
  simp [Hart.init]

/-
  A CSR instruction that succeeds keeps to the encoded
  privilege and the read-only space exactly under the
  condition; and in every run from the start in which no
  tick clears it, `mhartid` is the number of the hart.
-/
theorem csr_access_control :
    (∀ (P : Platform σ) (s s' : State σ) (op : Op)
        (d : InstructionData) (out : ExecReturn)
        (a : BitVec 12),
      op ∈ csrOps → d.csr = a.setWidth 16 →
      op.exec P d s = .ok (out, s') → out.isSuccess = true →
        (CsrControl s s' a ↔ CsrGuarded s op d a)) ∧
      ∀ (P : Platform σ) (m m' : Machine σ)
          (ts : List (State σ × State σ)),
        m.Started → m.Run P ts m' →
        (∀ t ∈ ts, ¬ ClearsHartid P t.1) →
          ∀ c ∈ m'.harts,
            c.hart.csrs CSR_MHARTID = c.hart.id.setWidth 64 := by
  constructor
  · intro P s s' op d out a hOp ha hExec hOk
    exact csrControl_iff hOp ha hExec hOk
  · intro P m m' ts hStart hRun hNot
    exact hRun.hartIds hStart.hartIds hNot

/- Hart number one after its initialisation. -/
def State.bootSecond : State Unit :=
  (State.boot []).setHart
    ((Hart.zero 1).init 0x800E0000 0x80000000)

/- Hart number one before `csrrs x5, mhartid, x0`. -/
def State.readsHartid : State Unit :=
  (State.boot [0xF14022F3]).setHart
    ((Hart.zero 1).init 0x800E0000 0x80000000)

/- The next instruction, by the search over the masks. -/
def State.evalNext
    (P : Platform σ)
    (s : State σ) : Option Op :=
  (s.mmioRead P s.hart.pc .Int).toOption.bind
    fun (m, val, s) =>
      let s := s.afterFetch m
      (evalDecode s.cache s.hart.pc
        (val.setWidth 32)).1.selected.map (·.func)

/- What is executed is what the search finds. -/
theorem Executes.evalNext_eq
    {P : Platform σ}
    {s b : State σ}
    {i : Instruction}
    {d : InstructionData}
    (h : Executes P s i d b) :
    s.evalNext P = some i.func := by
  cases h with
  | mk hRead hSelected =>
      unfold State.evalNext
      rw [hRead]
      unfold State.decode at hSelected
      rw [decodeInst_eq_evalDecode] at hSelected
      exact congrArg (Option.map (·.func)) hSelected

/- The word that is read clears nothing. -/
theorem readsHartid_not_clears :
    ¬ ClearsHartid Platform.bare State.readsHartid := by
  rintro ⟨-, i, d, b, hExec, hClears⟩
  have hNext : State.readsHartid.atFetch.evalNext
      Platform.bare = some .CSRRS := by
    decide +kernel
  have hFunc : i.func = .CSRRS :=
    Option.some.inj (hExec.evalNext_eq.symm.trans hNext)
  exact absurd (hFunc.symm.trans hClears.op) (by decide)

/-
  `csrrs x5, mhartid, x0` on hart number one keeps to the
  rules, and the register is one after its tick.
-/
theorem csr_access_control_read :
    let d : InstructionData := ⟨0xF14022F3, 0, 0, 5, 0xF14, 0, 0⟩
    (∃ out s',
      Op.CSRRS.exec Platform.bare d State.bootSecond =
        .ok (out, s') ∧
      CsrControl State.bootSecond s' 0xF14) ∧
    ∃ s, (Machine.single State.readsHartid).Run Platform.bare
        [(State.readsHartid, s)] (.single s) ∧
      s.hart.csrs CSR_MHARTID = s.hart.id.setWidth 64 := by
  intro d
  constructor
  · refine ⟨_, _, rfl, ?_⟩
    refine (csr_access_control.1 Platform.bare
      State.bootSecond _ .CSRRS d _ 0xF14 (by decide) rfl rfl
        rfl).mpr ?_
    constructor
    · intro hPage
      exact absurd hPage (by decide)
    · intro _ hWrites
      cases hWrites
  · have hTicks : (State.readsHartid.evalTick
        Platform.bare).toOption.isSome = true := by
      decide +kernel
    rcases Option.isSome_iff_exists.mp hTicks with ⟨s, hTick⟩
    rw [toOption_eq_some, ← State.tick_eq_evalTick] at hTick
    have hRun := Machine.Run.start.tick_single rfl hTick
    have hStart : (Machine.single
        State.readsHartid).Started := by
      intro c hMem
      rw [List.mem_singleton.mp hMem]
      exact ⟨Hart.zero 1, 0x800E0000, 0x80000000, rfl⟩
    refine ⟨s, hRun, csr_access_control.2 Platform.bare _ _ _
      hStart hRun ?_ _ (List.mem_singleton_self _)⟩
    intro t hMem
    rw [List.mem_singleton.mp hMem]
    exact readsHartid_not_clears

/-
  `csrrwi x0, mhartid, 0` on hart number one succeeds and
  clears the register.
-/
theorem csr_control_broken_mhartid :
    let d : InstructionData := ⟨0xF1405073, 0, 0, 0, 0xF14, 0, 0⟩
    ∃ out s',
      Op.CSRRWI.exec Platform.bare d State.bootSecond =
        .ok (out, s') ∧
      out.isSuccess = true ∧
      ¬ CsrControl State.bootSecond s' 0xF14 ∧
      s'.hart.csrs CSR_MHARTID ≠ s'.hart.id.setWidth 64 := by
  intro d
  refine ⟨_, _, rfl, rfl, ?_, by decide⟩
  intro hControl
  have hFile := hControl.readOnly (by decide)
  have hCsr := congrArg (fun f => f.csrs CSR_MHARTID) hFile
  exact absurd hCsr (by decide)

end RiscvEm
