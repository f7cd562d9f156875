import RiscvEm.Lib.WordArith
import RiscvEm.Memory.Layout
import RiscvEm.Sets.Exec

/-
  What the atomic instructions do to memory and registers.

  Key definitions include:
    * `AmoKind.apply`
    * `AmoOk`
    * `ScOk`
    * `Atomic`

  Key theorems include `atomic_ok_iff`.
-/

------------------------------------------------------------
-- The Instructions
------------------------------------------------------------

namespace RiscvEm

inductive AmoKind where
  | SWAP
  | ADD
  | XOR
  | AND
  | OR
  | MIN
  | MAX
  | MINU
  | MAXU
  deriving DecidableEq, Repr

/- The operation on the old value and the operand. -/
def AmoKind.apply
    {w : Nat}
    (a b : BitVec w) : AmoKind → BitVec w
  | .SWAP => b
  | .ADD => a + b
  | .XOR => a ^^^ b
  | .AND => a &&& b
  | .OR => a ||| b
  | .MIN => BitVec.ofInt w (min a.toInt b.toInt)
  | .MAX => BitVec.ofInt w (max a.toInt b.toInt)
  | .MINU => BitVec.ofNat w (min a.toNat b.toNat)
  | .MAXU => BitVec.ofNat w (max a.toNat b.toNat)

def AmoKind.opW : AmoKind → Op
  | .SWAP => .AMOSWAP_W
  | .ADD => .AMOADD_W
  | .XOR => .AMOXOR_W
  | .AND => .AMOAND_W
  | .OR => .AMOOR_W
  | .MIN => .AMOMIN_W
  | .MAX => .AMOMAX_W
  | .MINU => .AMOMINU_W
  | .MAXU => .AMOMAXU_W

def AmoKind.opD : AmoKind → Op
  | .SWAP => .AMOSWAP_D
  | .ADD => .AMOADD_D
  | .XOR => .AMOXOR_D
  | .AND => .AMOAND_D
  | .OR => .AMOOR_D
  | .MIN => .AMOMIN_D
  | .MAX => .AMOMAX_D
  | .MINU => .AMOMINU_D
  | .MAXU => .AMOMAXU_D

/- The atomic instructions that write memory. -/
inductive Atomic where
  | amoW (kind : AmoKind)
  | amoD (kind : AmoKind)
  | scW
  | scD
  deriving DecidableEq, Repr

variable {σ : Type}

/-
  What an operation that succeeds has done: `rd` holds the
  old value. In RAM the old value was in the cell, the cell
  holds the new one, and nothing else has changed; a device
  was asked for the old value and given the new one.
-/
structure AmoDone
    (P : Platform σ)
    (s s' : State σ)
    (rd : BitVec 5)
    (addr : BitVec 64)
    (size : MemorySize)
    (new ext : BitVec 64 → BitVec 64)
    (old : BitVec 64) : Prop where
  regs : s'.hart.GPR =
    Function.update s.hart.GPR rd (ext old)
  ram : takesDram P addr size →
    ∃ r, s.mem.ram = .ok r ∧
      old = composeLe r.data (addr - 0x80000000).toNat
        size.bytes ∧
      s'.mem = s.mem.setRam { r with
        data := scatterLe r.data (addr - 0x80000000).toNat
          size.bytes (new old) }
  device : ¬ takesDram P addr size →
    ∃ s₁ s₂,
      s.mmioRead P addr size =
        .ok (⟨true, 0, 0⟩, old, s₁) ∧
      s₁.mmioWrite P addr size (new old) =
        .ok (⟨true, 0, 0⟩, s₂) ∧
      s'.mem = s₂.mem ∧ s'.world = s₂.world

/-
  The instruction `op` on the address in `rs1`. In RAM it
  returns; if it succeeds the operation was done, and if it
  fails memory and registers are as before and the cause is
  a store access fault.
-/
structure AmoOk
    (P : Platform σ)
    (d : InstructionData)
    (s : State σ)
    (op : Op)
    (size : MemorySize)
    (new ext : BitVec 64 → BitVec 64) : Prop where
  returns : takesDram P (s.gpr d.rs1) size →
    ∃ out s', op.exec P d s = .ok (out, s')
  done : ∀ out s', op.exec P d s = .ok (out, s') →
    out.isSuccess = true →
      ∃ old, AmoDone P s s' d.rd (s.gpr d.rs1) size new ext
        old
  failed : ∀ out s', op.exec P d s = .ok (out, s') →
    out.isSuccess = false →
      s'.mem = s.mem ∧ s'.hart.GPR = s.hart.GPR ∧
        out.cause = EXC_STORE_ACCESS_FAULT

/- The reservation is the one that the store needs. -/
def ScStores
    (s : State σ)
    (addr : BitVec 64)
    (size : MemorySize) : Prop :=
  s.hart.reservation.valid = true ∧
    s.hart.reservation.vaddr = addr ∧
    s.hart.reservation.size = size

/-
  Whatever the uninitialised local holds, a conditional store
  that does not fault writes 0 if it stored and 1 if not.
-/
def ScOk
    (P : Platform σ)
    (d : InstructionData)
    (s : State σ)
    (op : Op)
    (size : MemorySize) : Prop :=
  ∀ bits out s',
    op.exec { P with uninit := bits } d s = .ok (out, s') →
    out.isSuccess = true →
      (ScStores s (s.gpr d.rs1) size → s'.gpr d.rd = 0) ∧
      (¬ ScStores s (s.gpr d.rs1) size → s'.gpr d.rd = 1)

/- The new value of a word, as a double word. -/
def AmoKind.newW
    (kind : AmoKind)
    (v old : BitVec 64) : BitVec 64 :=
  (kind.apply (old.setWidth 32) (v.setWidth 32)).setWidth 64

def AmoKind.newD
    (kind : AmoKind)
    (v old : BitVec 64) : BitVec 64 :=
  kind.apply old v

/- What is expected of an atomic instruction. -/
def Atomic.Ok
    (P : Platform σ)
    (d : InstructionData)
    (s : State σ) : Atomic → Prop
  | .amoW kind =>
      AmoOk P d s kind.opW .Int (kind.newW (s.gpr d.rs2)) sextW
  | .amoD kind =>
      AmoOk P d s kind.opD .Long (kind.newD (s.gpr d.rs2)) id
  | .scW => ScOk P d s .SC_W .Int
  | .scD => ScOk P d s .SC_D .Long

end RiscvEm

------------------------------------------------------------
-- Conditions
------------------------------------------------------------

namespace RiscvEm

variable {σ : Type}

/-
  An access that passes the test for RAM can be made: it does
  not wrap, and its page is counted.
-/
def DramFits
    (s : State σ)
    (addr : BitVec 64)
    (size : MemorySize) : Prop :=
  addr.toNat + size.bytes < 2 ^ 64 ∧
    pageIndex addr < s.jctx.pages

/- The address can be read. -/
def AmoWhen
    (P : Platform σ)
    (s : State σ)
    (addr : BitVec 64)
    (size : MemorySize) : Prop :=
  if takesDram P addr size then
    DramFits s addr size
  else
    (P.devs.find? (·.inReadWindow addr size)).isSome = true

/- The store would be done, but cannot be. -/
def ScWhen
    (P : Platform σ)
    (s : State σ)
    (addr : BitVec 64)
    (size : MemorySize)
    (val : BitVec 64) : Prop :=
  ScStores s addr size ∧
    if takesDram P addr size then
      ¬ DramFits s addr size
    else
      ∀ dev,
        P.devs.find? (·.inWriteWindow addr size) = some dev →
          ∀ out, dev.write addr size val s.world s.mem ≠ .ok out

def Atomic.When
    (P : Platform σ)
    (d : InstructionData)
    (s : State σ) : Atomic → Prop
  | .amoW _ => AmoWhen P s (s.gpr d.rs1) .Int
  | .amoD _ => AmoWhen P s (s.gpr d.rs1) .Long
  | .scW =>
      ScWhen P s (s.gpr d.rs1) .Int (zextW (s.gpr d.rs2))
  | .scD => ScWhen P s (s.gpr d.rs1) .Long (s.gpr d.rs2)

end RiscvEm

------------------------------------------------------------
-- Accesses To RAM
------------------------------------------------------------

namespace RiscvEm

variable {σ : Type}
variable {P : Platform σ}
variable {s s' : State σ}
variable {addr : BitVec 64}
variable {size : MemorySize}

/- A read of RAM that returns does not wrap. -/
theorem fits_of_mmioRead
    (hWf : s.Wf P)
    (hDram : takesDram P addr size)
    {m : MemoryReturn}
    {val : BitVec 64}
    (h : s.mmioRead P addr size = .ok (m, val, s')) :
    addr.toNat + size.bytes < 2 ^ 64 := by
  rcases hWf.ramIs with ⟨r, hRam, hSize⟩
  have hMem := P.memsize_lt
  have hOff := toNat_ramOffset addr hDram.1
  unfold State.mmioRead at h
  dsimp only at h
  rw [if_pos hDram] at h
  rcases bind_eq_ok.mp h with ⟨out, hFast, -⟩
  unfold State.readDramFast at hFast
  rw [hRam.ram] at hFast
  rcases bind_eq_ok.mp hFast with ⟨r', hr', hFast⟩
  cases hr'
  dsimp only at hFast
  split at hFast
  case isFalse => cases hFast
  case isTrue hIn =>
    rw [hSize] at hIn
    omega

/- A write to RAM that returns finds its place and page. -/
theorem fits_of_mmioWrite
    (hWf : s.Wf P)
    (hDram : takesDram P addr size)
    {m : MemoryReturn}
    {val : BitVec 64}
    (h : s.mmioWrite P addr size val = .ok (m, s')) :
    DramFits s addr size := by
  rcases hWf.ramIs with ⟨r, hRam, hSize⟩
  have hMem := P.memsize_lt
  have hOff := toNat_ramOffset addr hDram.1
  unfold State.mmioWrite at h
  rw [if_pos hDram] at h
  rcases bind_eq_ok.mp h with ⟨mem, hStore, h⟩
  rcases bind_eq_ok.mp h with ⟨jctx, hBump, -⟩
  constructor
  · rcases MemoryMap.store_cases (widthBytes_bytes size)
      hStore with ⟨i, r', hFind, hGet, -, hFit, -⟩
    rcases MemoryMap.ram_eq_ok_iff.mp hRam.ram with
      ⟨k, hDirect, hRamGet⟩
    have hIndex : k = i := by
      have hRegion := MemoryMap.findRegion_ram hDirect addr
        hDram.1
      exact Except.ok.inj (hRegion.symm.trans hFind)
    rw [hIndex] at hRamGet
    rcases Option.some.inj (hRamGet.symm.trans hGet)
    rw [hRam.base, hSize] at hFit
    omega
  · by_contra hNot
    have hFail : s.jctx.bumpPage addr =
        .error .outOfBounds := if_neg hNot
    cases hFail.symm.trans hBump

/- The registers are no matter of memory. -/
theorem State.mmioWrite_GPR
    {m : MemoryReturn}
    {val : BitVec 64}
    (h : s.mmioWrite P addr size val = .ok (m, s')) :
    s'.hart.GPR = s.hart.GPR := by
  rcases State.mmioWrite_cases h with
    ⟨-, -, mem, jctx, -, -, rfl⟩ |
    ⟨-, dev, world, mem, -, -, rfl⟩ | ⟨-, rfl⟩
  · rfl
  · rfl
  · rfl

/- A write that succeeds reports nothing. -/
theorem State.mmioWrite_success
    {m : MemoryReturn}
    {val : BitVec 64}
    (h : s.mmioWrite P addr size val = .ok (m, s'))
    (hOk : m.isSuccess = true) :
    m = ⟨true, 0, 0⟩ := by
  rcases State.mmioWrite_steps h with
    ⟨-, hM, -⟩ | ⟨-, hM, -⟩ | ⟨-, -, rfl, -⟩
  · exact hM
  · exact hM
  · cases hOk

end RiscvEm

------------------------------------------------------------
-- Memory Operations
------------------------------------------------------------

namespace RiscvEm

variable {σ : Type}
variable {P : Platform σ}
variable {d : InstructionData}
variable {s s' : State σ}
variable {size : MemorySize}
variable {ext : BitVec 64 → BitVec 64}
variable {func : BitVec 64 → BitVec 64 → BitVec 64}

/- A read, then a write of the new value. -/
inductive AmoSteps
    (P : Platform σ)
    (d : InstructionData)
    (s : State σ)
    (size : MemorySize)
    (ext : BitVec 64 → BitVec 64)
    (func : BitVec 64 → BitVec 64 → BitVec 64) :
    ExecReturn → State σ → Prop where
  | unread
      {m val s₁}
      (read : s.mmioRead P (s.gpr d.rs1) size =
        .ok (m, val, s₁))
      (fail : m.isSuccess = false) :
      AmoSteps P d s size ext func (.ofMemory 4 m) s₁
  | unwritten
      {m m' val s₁ s₂}
      (read : s.mmioRead P (s.gpr d.rs1) size =
        .ok (m, val, s₁))
      (ok : m.isSuccess = true)
      (write : s₁.mmioWrite P (s.gpr d.rs1) size
        (func val (s.gpr d.rs2)) = .ok (m', s₂))
      (fail : m'.isSuccess = false) :
      AmoSteps P d s size ext func (.ofMemory 4 m') s₂
  | done
      {m m' val s₁ s₂}
      (read : s.mmioRead P (s.gpr d.rs1) size =
        .ok (m, val, s₁))
      (ok : m.isSuccess = true)
      (write : s₁.mmioWrite P (s.gpr d.rs1) size
        (func val (s.gpr d.rs2)) = .ok (m', s₂))
      (ok' : m'.isSuccess = true) :
      AmoSteps P d s size ext func (.next 4)
        (s₂.setGpr d.rd (ext val))

theorem execAmo_steps
    {out : ExecReturn}
    (h : execAmo size ext func P d s = .ok (out, s')) :
    AmoSteps P d s size ext func out s' := by
  rcases bind_eq_ok.mp h with ⟨⟨m, s₁, val⟩, hAmo, hOut⟩
  rcases bind_eq_ok.mp hAmo with ⟨⟨m₀, v, s₀⟩, hRead, hAmo⟩
  dsimp only at hAmo hOut
  cases hOk : m₀.isSuccess with
  | false =>
      rw [hOk, if_neg Bool.false_ne_true] at hAmo
      cases hAmo
      rw [hOk, if_neg Bool.false_ne_true] at hOut
      cases hOut
      exact .unread hRead hOk
  | true =>
      rw [hOk, if_pos rfl] at hAmo
      rcases bind_eq_ok.mp hAmo with ⟨⟨m₂, s₂⟩, hWrite, hAmo⟩
      dsimp only at hAmo
      cases hOk' : m₂.isSuccess with
      | false =>
          rw [hOk', if_neg Bool.false_ne_true] at hAmo
          cases hAmo
          rw [hOk', if_neg Bool.false_ne_true] at hOut
          cases hOut
          exact .unwritten hRead hOk hWrite hOk'
      | true =>
          rw [hOk', if_pos rfl] at hAmo
          cases hAmo
          cases hOut
          exact .done hRead hOk hWrite hOk'

theorem execAmo_unread
    (ext : BitVec 64 → BitVec 64)
    (func : BitVec 64 → BitVec 64 → BitVec 64)
    {m : MemoryReturn}
    {val : BitVec 64}
    {s₁ : State σ}
    (hRead : s.mmioRead P (s.gpr d.rs1) size =
      .ok (m, val, s₁))
    (hFail : m.isSuccess = false) :
    execAmo size ext func P d s = .ok (.ofMemory 4 m, s₁) := by
  refine bind_eq_ok.mpr ⟨(m, s₁, 0), ?_, ?_⟩
  · refine bind_eq_ok.mpr ⟨_, hRead, ?_⟩
    dsimp only
    rw [hFail, if_neg Bool.false_ne_true]
  · dsimp only
    rw [hFail, if_neg Bool.false_ne_true]

theorem execAmo_done
    {m m' : MemoryReturn}
    {val : BitVec 64}
    {s₁ s₂ : State σ}
    (hRead : s.mmioRead P (s.gpr d.rs1) size =
      .ok (m, val, s₁))
    (hOk : m.isSuccess = true)
    (hWrite : s₁.mmioWrite P (s.gpr d.rs1) size
      (func val (s.gpr d.rs2)) = .ok (m', s₂))
    (hOk' : m'.isSuccess = true) :
    execAmo size ext func P d s =
      .ok (.next 4, s₂.setGpr d.rd (ext val)) := by
  refine bind_eq_ok.mpr ⟨(⟨true, 0, 0⟩, s₂, val), ?_, rfl⟩
  refine bind_eq_ok.mpr ⟨_, hRead, ?_⟩
  dsimp only
  rw [if_pos hOk]
  refine bind_eq_ok.mpr ⟨_, hWrite, ?_⟩
  dsimp only
  rw [if_pos hOk']

/- A read that a device answers reports nothing. -/
theorem State.mmioRead_answered
    {addr val : BitVec 64}
    {m : MemoryReturn}
    (hDram : ¬ takesDram P addr size)
    (hSome : (P.devs.find?
      (·.inReadWindow addr size)).isSome = true)
    (h : s.mmioRead P addr size = .ok (m, val, s')) :
    m = ⟨true, 0, 0⟩ := by
  unfold State.mmioRead at h
  dsimp only at h
  rw [if_neg hDram] at h
  split at h
  case h_1 =>
    rcases bind_eq_ok.mp h with ⟨⟨out, world⟩, -, h⟩
    cases h
    rfl
  case h_2 hNone =>
    rw [hNone] at hSome
    cases hSome

theorem State.mmioRead_unanswered
    {addr : BitVec 64}
    (hDram : ¬ takesDram P addr size)
    (hNone : P.devs.find? (·.inReadWindow addr size) = none) :
    s.mmioRead P addr size =
      .ok (⟨false, EXC_LOAD_ACCESS_FAULT, addr⟩, 0, s) := by
  unfold State.mmioRead
  dsimp only
  rw [if_neg hDram, hNone]

section Dram

variable {r : MemoryRegion}
variable {out : ExecReturn}
variable (hWf : s.Wf P)
variable (hDram : takesDram P (s.gpr d.rs1) size)

include hWf hDram

/- An operation on RAM that returns was done. -/
theorem amoSteps_dram
    (h : AmoSteps P d s size ext func out s') :
    out = .next 4 ∧
      DramFits s (s.gpr d.rs1) size ∧
      ∃ r, ∃ s₂ : State σ, s.mem.ram = .ok r ∧
        s₂.hart.GPR = s.hart.GPR ∧
        s₂.mem = s.mem.setRam { r with
          data := scatterLe r.data
            (s.gpr d.rs1 - 0x80000000).toNat size.bytes
            (func (composeLe r.data
              (s.gpr d.rs1 - 0x80000000).toNat size.bytes)
              (s.gpr d.rs2)) } ∧
        s' = s₂.setGpr d.rd (ext (composeLe r.data
          (s.gpr d.rs1 - 0x80000000).toNat size.bytes)) := by
  rcases hWf.ramIs with ⟨r, hRam, hSize⟩
  -- whatever was read came from RAM
  have hRead {m : MemoryReturn} {val : BitVec 64}
      {s₁ : State σ}
      (h : s.mmioRead P (s.gpr d.rs1) size =
        .ok (m, val, s₁)) :
      m = ⟨true, 0, 0⟩ ∧ s₁ = s ∧
        val = composeLe r.data
          (s.gpr d.rs1 - 0x80000000).toNat size.bytes := by
    have hFit := fits_of_mmioRead hWf hDram h
    rw [State.mmioRead_dram hRam hSize hDram hFit] at h
    cases h
    exact ⟨rfl, rfl, rfl⟩
  cases h with
  | unread read fail =>
      rw [(hRead read).1] at fail
      cases fail
  | unwritten read ok write fail =>
      rcases hRead read with ⟨-, rfl, -⟩
      have hFits := fits_of_mmioWrite hWf hDram write
      rcases State.mmioWrite_dram hRam hSize hDram hFits.1
        hFits.2 _ with ⟨s₂, hOk, -⟩
      rw [hOk] at write
      cases write
      cases fail
  | done read ok write ok' =>
      rcases hRead read with ⟨-, rfl, rfl⟩
      have hFits := fits_of_mmioWrite hWf hDram write
      rcases State.mmioWrite_dram hRam hSize hDram hFits.1
        hFits.2 _ with ⟨s₃, hOk, hMem⟩
      have hGpr := State.mmioWrite_GPR write
      rw [hOk] at write
      cases write
      exact ⟨rfl, hFits, r, _, hRam.ram, hGpr, hMem, rfl⟩

theorem execAmo_returns
    (hFits : DramFits s (s.gpr d.rs1) size) :
    ∃ out s', execAmo size ext func P d s = .ok (out, s') := by
  rcases hWf.ramIs with ⟨r, hRam, hSize⟩
  have hRead := State.mmioRead_dram hRam hSize hDram hFits.1
  rcases State.mmioWrite_dram hRam hSize hDram hFits.1
    hFits.2 (func (composeLe r.data
      (s.gpr d.rs1 - 0x80000000).toNat size.bytes)
      (s.gpr d.rs2)) with ⟨s₂, hWrite, -⟩
  exact ⟨_, _, execAmo_done hRead rfl hWrite rfl⟩

end Dram

/- An operation is right exactly if it can read the cell. -/
theorem amoOk_iff
    {op : Op}
    {new : BitVec 64 → BitVec 64}
    (hWf : s.Wf P)
    (hExec : op.exec = (execAmo size ext func : ExecFun σ))
    (hNew : ∀ old, func old (s.gpr d.rs2) = new old) :
    AmoOk P d s op size new ext ↔
      AmoWhen P s (s.gpr d.rs1) size := by
  unfold AmoWhen
  by_cases hDram : takesDram P (s.gpr d.rs1) size
  · rw [if_pos hDram]
    constructor
    · intro h
      rcases h.returns hDram with ⟨out, s', hOut⟩
      rw [hExec] at hOut
      exact (amoSteps_dram hWf hDram
        (execAmo_steps hOut)).2.1
    · intro hFits
      constructor
      · intro _
        rw [hExec]
        exact execAmo_returns hWf hDram hFits
      · intro out s' hOut _
        rw [hExec] at hOut
        rcases amoSteps_dram hWf hDram (execAmo_steps hOut)
          with ⟨-, -, r, s₂, hRam, hGpr, hMem, rfl⟩
        refine ⟨_, ?_, fun _ => ⟨r, hRam, rfl, ?_⟩, ?_⟩
        · rw [← hGpr]
          rfl
        · rw [← hNew]
          exact hMem
        · intro hNot
          exact absurd hDram hNot
      · intro out s' hOut hFail
        rw [hExec] at hOut
        rw [(amoSteps_dram hWf hDram
          (execAmo_steps hOut)).1] at hFail
        cases hFail
  · rw [if_neg hDram]
    constructor
    · intro h
      by_contra hNone
      have hFind : P.devs.find?
          (·.inReadWindow (s.gpr d.rs1) size) = none := by
        rw [← Option.not_isSome_iff_eq_none]
        exact hNone
      have hOut := execAmo_unread ext func
        (d := d) (State.mmioRead_unanswered hDram hFind) rfl
      rw [← hExec] at hOut
      have hCause : EXC_LOAD_ACCESS_FAULT =
          EXC_STORE_ACCESS_FAULT :=
        (h.failed _ _ hOut rfl).2.2
      exact absurd hCause (by decide)
    · intro hSome
      constructor
      · intro hNot
        exact absurd hNot hDram
      · intro out s' hOut hOk
        rw [hExec] at hOut
        cases execAmo_steps hOut with
        | unread read fail =>
            rw [State.mmioRead_answered hDram hSome read]
              at fail
            cases fail
        | unwritten read ok write fail =>
            cases fail.symm.trans hOk
        | done read ok write ok' =>
            have hGpr := (State.mmioWrite_GPR write).trans
              (congrArg Hart.GPR (State.mmioRead_hart read))
            cases State.mmioRead_answered hDram hSome read
            cases State.mmioWrite_success write ok'
            rw [hNew] at write
            refine ⟨_, ?_, ?_, fun _ =>
              ⟨_, _, read, write, rfl, rfl⟩⟩
            · rw [← hGpr]
              rfl
            · intro hNot
              exact absurd hNot hDram
      · intro out s' hOut hFail
        rw [hExec] at hOut
        cases execAmo_steps hOut with
        | unread read fail =>
            rw [State.mmioRead_answered hDram hSome read]
              at fail
            cases fail
        | unwritten read ok write fail =>
            have hSame := State.mmioWrite_fault write fail
            have hGpr := congrArg Hart.GPR
              (State.mmioRead_hart read)
            rcases State.mmioRead_cases read with
              ⟨-, hRead⟩ | ⟨hRead, -, -⟩
            · rcases State.mmioWrite_cases write with
                ⟨hTrue, -⟩ | ⟨hTrue, -⟩ | ⟨hFault, -⟩
              · cases fail.symm.trans hTrue
              · cases fail.symm.trans hTrue
              · rw [hSame, hFault]
                refine ⟨?_, hGpr, rfl⟩
                rw [hRead]
            · rw [hRead] at ok
              cases ok
        | done read ok write ok' => cases hFail

end RiscvEm

------------------------------------------------------------
-- Conditional Stores
------------------------------------------------------------

namespace RiscvEm

variable {σ : Type}
variable {P : Platform σ}
variable {d : InstructionData}
variable {s s' : State σ}
variable {size : MemorySize}

/- A write is done unless there is a reason against it. -/
theorem State.mmioWrite_done_iff
    (hWf : s.Wf P)
    (size : MemorySize)
    (addr val : BitVec 64) :
    (∃ s₁, s.mmioWrite P addr size val =
        .ok (⟨true, 0, 0⟩, s₁)) ↔
      if takesDram P addr size then
        DramFits s addr size
      else
        ∃ dev out,
          P.devs.find? (·.inWriteWindow addr size) =
            some dev ∧
          dev.write addr size val s.world s.mem = .ok out := by
  by_cases hDram : takesDram P addr size
  · rw [if_pos hDram]
    constructor
    · rintro ⟨s₁, h⟩
      exact fits_of_mmioWrite hWf hDram h
    · intro hFits
      rcases hWf.ramIs with ⟨r, hRam, hSize⟩
      rcases State.mmioWrite_dram hRam hSize hDram hFits.1
        hFits.2 val with ⟨s₁, hOk, -⟩
      exact ⟨s₁, hOk⟩
  · rw [if_neg hDram]
    unfold State.mmioWrite
    rw [if_neg hDram]
    constructor
    · rintro ⟨s₁, h⟩
      split at h
      case h_1 dev hFind =>
        rcases bind_eq_ok.mp h with ⟨out, hWrite, -⟩
        exact ⟨dev, out, hFind, hWrite⟩
      case h_2 => cases h
    · rintro ⟨dev, ⟨world, mem⟩, hFind, hWrite⟩
      rw [hFind]
      exact ⟨_, bind_eq_ok.mpr ⟨_, hWrite, rfl⟩⟩

variable {fail : BitVec 64}
variable {val result : BitVec 64 → BitVec 64}

/- A conditional store that finds another reservation. -/
theorem execSc_unmatched
    (P : Platform σ)
    (fail : BitVec 64)
    (val result : BitVec 64 → BitVec 64)
    (bits : BitVec 64)
    (h : ¬ ScStores s (s.gpr d.rs1) size) :
    ∃ s₁ : State σ,
      execSc size fail val result { P with uninit := bits } d
          s =
        .ok (.next 4, s₁.setGpr d.rd
          (result ((bits &&& ~~~0xFF) ||| 1))) := by
  unfold ScStores at h
  unfold execSc AMO_SC
  dsimp only
  rw [if_neg h]
  exact ⟨_, rfl⟩

theorem execSc_stored
    (fail : BitVec 64)
    (result : BitVec 64 → BitVec 64)
    (bits : BitVec 64)
    (h : ScStores s (s.gpr d.rs1) size)
    {s₁ : State σ}
    (hWrite : (s.log (.sc s.self (s.gpr d.rs1) size
        true)).mmioWrite P (s.gpr d.rs1) size
          (val (s.gpr d.rs2)) = .ok (⟨true, 0, 0⟩, s₁)) :
    ∃ s₂ : State σ,
      execSc size fail val result { P with uninit := bits } d
          s =
        .ok (.next 4, s₂.setGpr d.rd
          (result ((bits &&& ~~~0xFF) ||| 0))) := by
  unfold ScStores at h
  refine ⟨s₁.clearReservation, bind_eq_ok.mpr
    ⟨(⟨true, 0, 0⟩, s₁.clearReservation, 0), ?_, rfl⟩⟩
  unfold AMO_SC
  dsimp only
  rw [if_pos h]
  exact bind_eq_ok.mpr ⟨_, hWrite, rfl⟩

/- A matching store that succeeds has written. -/
theorem write_of_execSc
    {bits : BitVec 64}
    {out : ExecReturn}
    (hStores : ScStores s (s.gpr d.rs1) size)
    (h : execSc size fail val result { P with uninit := bits }
      d s = .ok (out, s'))
    (hOk : out.isSuccess = true) :
    ∃ s₁, (s.log (.sc s.self (s.gpr d.rs1) size
      true)).mmioWrite P (s.gpr d.rs1) size
        (val (s.gpr d.rs2)) = .ok (⟨true, 0, 0⟩, s₁) := by
  unfold ScStores at hStores
  rcases bind_eq_ok.mp h with ⟨⟨m, s₁, b⟩, hSc, hOut⟩
  unfold AMO_SC at hSc
  dsimp only at hSc hOut
  rw [if_pos hStores] at hSc
  rcases bind_eq_ok.mp hSc with ⟨⟨m', s₂⟩, hWrite, hSc⟩
  dsimp only at hSc
  cases hM : m'.isSuccess with
  | false =>
      rw [hM, if_neg Bool.false_ne_true] at hSc
      cases hSc
      rw [hM, if_neg Bool.false_ne_true] at hOut
      cases hOut
      cases hOk
  | true =>
      cases State.mmioWrite_success hWrite hM
      exact ⟨s₂, hWrite⟩

/-
  Since the local may hold anything, the result is right only
  where there is none.
-/
theorem scOk_iff
    {op : Op}
    (hWf : s.Wf P)
    (hExec : op.exec =
      (execSc size fail val result : ExecFun σ))
    (hZero : result ((-1 &&& ~~~0xFF) ||| 0) ≠ 0)
    (hOne : result ((-1 &&& ~~~0xFF) ||| 1) ≠ 1) :
    ScOk P d s op size ↔
      ScWhen P s (s.gpr d.rs1) size (val (s.gpr d.rs2)) := by
  have hLog : (s.log (.sc s.self (s.gpr d.rs1) size
      true)).Wf P := ⟨hWf.hasRam, hWf.memorySize⟩
  have hDone := State.mmioWrite_done_iff hLog size
    (s.gpr d.rs1) (val (s.gpr d.rs2))
  have hRd (s₁ : State σ) (v : BitVec 64) :
      (s₁.setGpr d.rd v).gpr d.rd = v := by
    simp [State.setGpr, State.gpr, State.setHart]
  unfold ScOk ScWhen
  rw [hExec]
  by_cases hStores : ScStores s (s.gpr d.rs1) size
  · constructor
    · intro h
      refine ⟨hStores, ?_⟩
      by_contra hNot
      have hWrite : ∃ s₁, (s.log (.sc s.self (s.gpr d.rs1)
          size true)).mmioWrite P (s.gpr d.rs1) size
            (val (s.gpr d.rs2)) =
              .ok (⟨true, 0, 0⟩, s₁) := by
        rw [hDone]
        by_cases hDram : takesDram P (s.gpr d.rs1) size
        · rw [if_pos hDram] at hNot ⊢
          exact not_not.mp hNot
        · rw [if_neg hDram] at hNot ⊢
          push Not at hNot
          rcases hNot with ⟨dev, hFind, out, hOut⟩
          exact ⟨dev, out, hFind, hOut⟩
      rcases hWrite with ⟨s₁, hWrite⟩
      rcases execSc_stored fail result (-1) hStores hWrite
        with ⟨s₂, hOut⟩
      have hValue := (h _ _ _ hOut rfl).1 hStores
      rw [hRd] at hValue
      exact hZero hValue
    · rintro ⟨-, hNever⟩ bits out s' hOut hOk
      have hWrite := write_of_execSc hStores hOut hOk
      rw [hDone] at hWrite
      by_cases hDram : takesDram P (s.gpr d.rs1) size
      · rw [if_pos hDram] at hWrite hNever
        exact absurd hWrite hNever
      · rw [if_neg hDram] at hWrite hNever
        rcases hWrite with ⟨dev, out', hFind, hOut'⟩
        exact absurd hOut' (hNever dev hFind out')
  · constructor
    · intro h
      rcases execSc_unmatched P fail val result (-1)
        hStores with ⟨s₁, hOut⟩
      have hValue := (h _ _ _ hOut rfl).2 hStores
      rw [hRd] at hValue
      exact absurd hValue hOne
    · intro h
      exact absurd h.1 hStores

end RiscvEm

------------------------------------------------------------
-- Correctness
------------------------------------------------------------

namespace RiscvEm

open WordArith

variable {σ : Type}

/- The functions that are passed to `AMO64` and `AMO32`. -/
def AmoKind.body
    {w : Nat}
    (a b : BitVec w) : AmoKind → BitVec w
  | .SWAP => b
  | .ADD => a + b
  | .XOR => a ^^^ b
  | .AND => a &&& b
  | .OR => a ||| b
  | .MIN => amoMin a b
  | .MAX => amoMax a b
  | .MINU => amoMinu a b
  | .MAXU => amoMaxu a b

theorem AmoKind.body_eq
    {w : Nat}
    (kind : AmoKind)
    (a b : BitVec w) :
    kind.body a b = kind.apply a b := by
  cases kind with
  | MIN => exact min_signed_eq a b
  | MAX => exact max_signed_eq a b
  | MINU => exact min_unsigned_eq a b
  | MAXU => exact max_unsigned_eq a b
  | _ => rfl

theorem AmoKind.exec_opW
    (kind : AmoKind) :
    kind.opW.exec =
      (execAmo .Int sextW (fun a b => kind.newW b a) :
        ExecFun σ) := by
  have hBody : (fun a b => kind.newW b a) =
      (fun a b : BitVec 64 =>
        (kind.body (a.setWidth 32)
          (b.setWidth 32)).setWidth 64) := by
    funext a b
    rw [kind.body_eq]
    rfl
  rw [hBody]
  cases kind <;> rfl

theorem AmoKind.exec_opD
    (kind : AmoKind) :
    kind.opD.exec =
      (execAmo .Long id (fun a b => kind.newD b a) :
        ExecFun σ) := by
  have hBody : (fun a b => kind.newD b a) =
      (fun a b : BitVec 64 => kind.body a b) := by
    funext a b
    rw [kind.body_eq]
    rfl
  rw [hBody]
  cases kind <;> rfl

/-
  A memory operation does what it should exactly if the
  address can be read; a conditional store never does,
  unless it does not get to write `rd`.
-/
theorem atomic_ok_iff
    (P : Platform σ)
    (d : InstructionData)
    (s : State σ)
    (hWf : s.Wf P)
    (i : Atomic) :
    i.Ok P d s ↔ i.When P d s := by
  cases i with
  | amoW kind =>
      exact amoOk_iff hWf kind.exec_opW (fun _ => rfl)
  | amoD kind =>
      exact amoOk_iff hWf kind.exec_opD (fun _ => rfl)
  | scW =>
      have hExec : Op.exec .SC_W =
          (execSc .Int 0 zextW zextW : ExecFun σ) := rfl
      exact scOk_iff hWf hExec (by decide) (by decide)
  | scD =>
      have hExec : Op.exec .SC_D =
          (execSc .Long 4 id id : ExecFun σ) := rfl
      exact scOk_iff hWf hExec (by decide) (by decide)

/- `amoadd.w a0, a2, (a1)`. -/
def amoaddA1 : InstructionData :=
  { inst := 0x00C5A52F
    rs1 := 11
    rs2 := 12
    rd := 10
    imm := 12
    rs3 := 0
    rm := 2 }

/- The begin of the device tree lies in RAM. -/
theorem amoadd_ok_boot :
    (Atomic.amoW .ADD).Ok Platform.bare amoaddA1
      (State.boot []) := by
  apply (atomic_ok_iff Platform.bare amoaddA1 (State.boot [])
    State.boot_wf (.amoW .ADD)).mpr
  change AmoWhen Platform.bare (State.boot [])
    ((State.boot []).gpr amoaddA1.rs1) .Int
  have hAddr : (State.boot []).gpr amoaddA1.rs1 =
      0x800E0000 := by
    decide
  unfold AmoWhen DramFits
  rw [hAddr, if_pos (by decide)]
  decide

/- A store without a reservation leaves garbage in `a0`. -/
theorem sc_writes_garbage :
    (State.boot []).Wf Platform.bare ∧
      ¬ Atomic.scD.Ok Platform.bare amoaddA1
        (State.boot []) := by
  refine ⟨State.boot_wf, fun h => ?_⟩
  have hStores : ¬ ScStores (State.boot [])
      ((State.boot []).gpr amoaddA1.rs1) .Long := by
    rintro ⟨hValid, -⟩
    cases hValid
  rcases execSc_unmatched Platform.bare 4 id id (-1) hStores
    with ⟨s₁, hOut⟩
  have hValue := (h _ _ _ hOut rfl).2 hStores
  have hRd : (s₁.setGpr amoaddA1.rd (id ((-1 &&& ~~~0xFF) |||
      1))).gpr amoaddA1.rd = (-1 &&& ~~~0xFF) ||| 1 := by
    simp [State.setGpr, State.gpr, State.setHart]
  rw [hRd] at hValue
  exact absurd hValue (by decide)

end RiscvEm
