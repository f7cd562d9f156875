import RiscvEm.Sets.Common

/-
  Privileged instructions, Zicsr, Zifencei and Zicboz.

  Key definitions include:
    * `execMRET`
    * `execSRET`
    * `csrAccessible`
    * `execCSRRW`
    * `execFENCE_I`
    * `execcbo_zero`
-/

------------------------------------------------------------
-- Returns From Traps
------------------------------------------------------------

namespace RiscvEm

variable {σ : Type}

/- The mode and status that `MPP` makes `MRET` go to. -/
def mretTarget
    (h : Hart) : PrivilegeMode × Status :=
  if h.status.MPP = 0b00 then
    (.User, h.status.setMPRV 0)
  else if h.status.MPP = 0b01 then
    (.Supervisor, h.status.setMPRV 0)
  else if h.status.MPP = 0b11 then
    (.Machine, h.status)
  else
    (h.mode, h.status)

def Hart.mret
    (h : Hart) : Hart :=
  let (mode, status) := mretTarget h
  { h with
    pc := h.csrs CSR_MEPC
    mode := mode
    status := ((status.setMIE status.MPIE).setMPIE 1).setMPP
      0 }

def execMRET : ExecFun σ :=
  fun _ _ s => .ok (.jumped, s.setHart s.hart.mret)

/- The mode and status that `SPP` makes `SRET` go to. -/
def sretTarget
    (h : Hart) : PrivilegeMode × Status :=
  if h.status.SPP = 0 then
    (.User, h.status)
  else
    (.Supervisor, h.status.setMPRV 0)

def Hart.sret
    (h : Hart) : Hart :=
  let (mode, status) := sretTarget h
  { h with
    pc := h.csrs CSR_SEPC
    mode := mode
    status := ((status.setSIE status.SPIE).setSPIE 1).setSPP
      0 }

def execSRET : ExecFun σ :=
  fun _ d s =>
    if s.hart.mode = .User ∨
        (s.hart.mode = .Supervisor ∧ s.hart.status.TSR = 1) then
      .ok (.illegal d.inst, s)
    else
      .ok (.jumped, s.setHart s.hart.sret)

end RiscvEm

------------------------------------------------------------
-- Other Privileged Instructions
------------------------------------------------------------

namespace RiscvEm

variable {σ : Type}

def execSFENCE_VMA : ExecFun σ :=
  fun _ d s =>
    if s.hart.mode = .User then
      .ok (.illegal d.inst, s)
    else if s.hart.mode = .Supervisor ∧
        s.hart.status.TVM = 1 then
      .ok (.illegal d.inst, s)
    else
      .ok (.next 4, s)

def execWFI : ExecFun σ :=
  fun _ d s =>
    if s.hart.status.TW = 1 then
      .ok (.illegal d.inst, s)
    else if s.pendingAll = 0 then
      .ok (.next 4, s.setHart { s.hart with WFI := true })
    else
      .ok (.next 4, s)

end RiscvEm

------------------------------------------------------------
-- Access To Control And Status Registers
------------------------------------------------------------

namespace RiscvEm

variable {σ : Type}

def compatibleMode
    (csrLevel curMode : PrivilegeMode) : Bool :=
  match csrLevel with
  | .Machine => curMode == .Machine
  | .Supervisor => curMode == .Machine || curMode == .Supervisor
  | .User =>
      curMode == .Machine || curMode == .Supervisor ||
        curMode == .User
  | .Hypervisor => true

/- The level that the number of a register stands for. -/
def csrLevel
    (csr : BitVec 16) : PrivilegeMode :=
  if csr ≤ 0x0FF then
    .User
  else if 0x100 ≤ csr ∧ csr ≤ 0x1FF then
    .Supervisor
  else if 0x200 ≤ csr ∧ csr ≤ 0x2FF then
    .Hypervisor
  else if 0x300 ≤ csr ∧ csr ≤ 0x3FF then
    .Machine
  else if 0xB00 ≤ csr ∧ csr ≤ 0xBFF then
    .Machine
  else if 0xC00 ≤ csr ∧ csr ≤ 0xCFF then
    .User
  else if 0xF00 ≤ csr ∧ csr ≤ 0xFFF then
    .Machine
  else
    .User

def csrUnimplemented
    (csr : BitVec 16) : Bool :=
  csr == CSR_SCOUNTOVF ||
    (decide (CSR_SSTATEEN0 ≤ csr) &&
      decide (csr ≤ CSR_SSTATEEN3)) ||
    (decide (CSR_MSTATEEN0 ≤ csr) &&
      decide (csr ≤ CSR_MSTATEEN3)) ||
    csr == CSR_MTOPI ||
    csr == CSR_TSELECT ||
    (decide (CSR_TDATA1 ≤ csr) &&
      decide (csr ≤ CSR_TDATA3)) ||
    csr == CSR_MCYCLECFG ||
    csr == CSR_MINSTRET

/- Read-only registers; the source spells `mconfigptr` 0xF15f. -/
def csrReadOnly
    (csr : BitVec 16) : Bool :=
  csr == 0xF11 || csr == 0xF12 || csr == 0xF13 ||
    csr == 0xF14 || csr == 0xF15F ||
    (decide (0xC00 ≤ csr) && decide (csr ≤ 0xC1F))

def csrAccessible
    (csr : BitVec 16)
    (currentPriv : PrivilegeMode)
    (write : Bool) : Bool :=
  if ¬ compatibleMode (csrLevel csr) currentPriv then
    false
  else if csrUnimplemented csr then
    false
  else if csrReadOnly csr then
    !write
  else
    true

def counterEnabled
    (s : State σ)
    (addr : BitVec 16) : Bool :=
  if addr < 0xC00 ∨ 0xC1F < addr then
    true
  else
    let mcounteren := (s.csrRead CSR_MCOUNTEREN).1
    let scounteren := (s.csrRead CSR_SCOUNTEREN).1
    let offset : BitVec 64 := 1 <<< (addr - 0xC00).toNat
    match s.hart.mode with
    | .Machine => true
    | .Supervisor => mcounteren &&& offset == offset
    | .User =>
        mcounteren &&& offset == offset &&
          scounteren &&& offset == offset
    | .Hypervisor => true

end RiscvEm

------------------------------------------------------------
-- Zicsr
------------------------------------------------------------

namespace RiscvEm

variable {σ : Type}

/- The number of the register: `inst.imm` as `uint16_t`. -/
def InstructionData.csr
    (d : InstructionData) : BitVec 16 :=
  d.imm.setWidth 16

/- The three checks that every CSR instruction begins with. -/
def csrAllowed
    (s : State σ)
    (d : InstructionData)
    (write : Bool) : Bool :=
  !(s.hart.mode == .Supervisor && s.hart.status.TVM == 1 &&
      d.csr == CSR_SATP) &&
    counterEnabled s d.csr &&
    csrAccessible d.csr s.hart.mode write

def execCSRRW : ExecFun σ :=
  fun _ d s =>
    if csrAllowed s d true then
      let init := s.csrRead d.csr
      let s := init.2.csrWrite d.csr (init.2.gpr d.rs1)
      .ok (.next 4,
        if d.rd ≠ 0 then s.setGpr d.rd init.1 else s)
    else
      .ok (.illegal d.inst, s)

/- Set or clear bits, unless the operand field is zero. -/
def execCsrBits
    (operand : State σ → InstructionData → BitVec 64)
    (f : BitVec 64 → BitVec 64 → BitVec 64) : ExecFun σ :=
  fun _ d s =>
    if csrAllowed s d (d.rs1 != 0) then
      let init := s.csrRead d.csr
      let s :=
        if d.rs1 ≠ 0 then
          init.2.csrWrite d.csr (f init.1 (operand init.2 d))
        else
          init.2
      .ok (.next 4, s.setGpr d.rd init.1)
    else
      .ok (.illegal d.inst, s)

def execCSRRS : ExecFun σ :=
  execCsrBits (fun s d => s.gpr d.rs1)
    (fun initVal mask => initVal ||| mask)

def execCSRRC : ExecFun σ :=
  execCsrBits (fun s d => s.gpr d.rs1)
    (fun initVal mask => initVal &&& ~~~mask)

def execCSRRWI : ExecFun σ :=
  fun _ d s =>
    if csrAllowed s d (d.rs1 != 0) then
      let s :=
        if d.rd ≠ 0 then
          let init := s.csrRead d.csr
          init.2.setGpr d.rd init.1
        else
          s
      .ok (.next 4, s.csrWrite d.csr (d.rs1.setWidth 64))
    else
      .ok (.illegal d.inst, s)

def execCSRRSI : ExecFun σ :=
  execCsrBits (fun _ d => d.rs1.setWidth 64)
    (fun initVal mask => initVal ||| mask)

def execCSRRCI : ExecFun σ :=
  execCsrBits (fun _ d => d.rs1.setWidth 64)
    (fun initVal mask => initVal &&& ~~~mask)

end RiscvEm

------------------------------------------------------------
-- Zifencei And Zicboz
------------------------------------------------------------

namespace RiscvEm

variable {σ : Type}

def execFENCE_I : ExecFun σ :=
  fun _ _ s => .ok (.next 4, { s with cache := s.cache.flush })

/- `memset(ram_direct->data + off, 0, n)`. -/
def MemoryMap.zeroRam
    (m : MemoryMap)
    (off n : Nat) : Except HostFault MemoryMap := do
  let r ← m.ram
  if off + n ≤ r.size.toNat then
    .ok (m.setRam { r with
      data := fun i =>
        if off ≤ i ∧ i < off + n then 0 else r.data i })
  else
    .error .outOfBounds

/- The fallback: zero bytes one by one, whatever happens. -/
def zeroBytes
    (P : Platform σ)
    (addr : BitVec 64) :
    Nat → State σ → Except HostFault (State σ)
  | 0, s => .ok s
  | n + 1, s => do
      let (_, s) ← s.mmioWrite P addr .Byte 0
      zeroBytes P (addr + 1) n s

/- Zero the 64 bytes from an aligned address on. -/
def zeroBlock
    (P : Platform σ)
    (addr : BitVec 64)
    (s : State σ) : Except HostFault (State σ) :=
  if 0x80000000 ≤ addr then do
    let mem ← s.mem.zeroRam (addr - 0x80000000).toNat 64
    .ok ({ s with mem := mem }.log
      (.store s.self .cboZero addr 64))
  else
    zeroBytes P addr 64 s

def execcbo_zero : ExecFun σ :=
  fun P d s => do
    let s ← zeroBlock P (s.gpr d.rs1 &&& ~~~63) s
    .ok (.next 4, s)

end RiscvEm
