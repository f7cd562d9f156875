import RiscvEm.Memory.Mmio

/-
  Traps, interrupts and the control and status registers of
  a hart.

  Key definitions include:
    * `Hart.trap`
    * `State.trap`
    * `State.checkInts`
    * `State.csrWrite`
    * `State.csrRead`
-/

------------------------------------------------------------
-- Traps
------------------------------------------------------------

namespace RiscvEm

variable {σ : Type}

/- A trap is handed to supervisor mode. -/
def Hart.delegateToS
    (h : Hart)
    (cause : BitVec 64)
    (interrupt : Bool) : Bool :=
  let deleg :=
    if interrupt then
      h.csrs CSR_MIDELEG
    else
      h.csrs CSR_MEDELEG
  h.mode != .Machine &&
    (deleg >>> cause.toNat) &&& 1 == 1

/- The address at which a trap goes on. -/
def trapVector
    (tvec cause : BitVec 64)
    (interrupt : Bool) : BitVec 64 :=
  (tvec &&& ~~~3) +
    (if tvec &&& 1 = 1 ∧ interrupt = true then
      4 * cause
    else
      0)

/- The value of the cause register. -/
def trapCause
    (cause : BitVec 64)
    (interrupt : Bool) : BitVec 64 :=
  (if interrupt then 1 <<< 63 else 0) ||| cause

/- The number of a mode as `MPP` holds it. -/
def PrivilegeMode.bits
    (m : PrivilegeMode) : BitVec 2 :=
  BitVec.ofNat 2 m.toNat

def Hart.trap
    (h : Hart)
    (cause tval : BitVec 64)
    (interrupt : Bool) : Hart :=
  if h.delegateToS cause interrupt then
    { h with
      WFI := false
      mode := .Supervisor
      pc := trapVector (h.csrs CSR_STVEC) cause interrupt
      csrs :=
        Function.update
          (Function.update
            (Function.update h.csrs CSR_SEPC h.pc)
            CSR_SCAUSE (trapCause cause interrupt))
          CSR_STVAL tval
      status :=
        ((h.status.setSPIE h.status.SIE).setSIE 0).setSPP
          (if h.mode = .User then 0 else 1) }
  else
    { h with
      WFI := false
      mode := .Machine
      pc := trapVector (h.csrs CSR_MTVEC) cause interrupt
      csrs :=
        Function.update
          (Function.update
            (Function.update h.csrs CSR_MEPC h.pc)
            CSR_MCAUSE (trapCause cause interrupt))
          CSR_MTVAL tval
      status :=
        ((h.status.setMPIE h.status.MIE).setMIE 0).setMPP
          h.mode.bits }

namespace State

def trap
    (s : State σ)
    (cause tval : BitVec 64)
    (interrupt : Bool) : State σ :=
  (s.setHart (s.hart.trap cause tval interrupt)).log
    (.trap s.self cause tval interrupt)

end State

end RiscvEm

------------------------------------------------------------
-- Interrupts
------------------------------------------------------------

namespace RiscvEm

variable {σ : Type}

namespace State

/- `ip.raw & ie.raw`. -/
def pendingAll
    (s : State σ) : BitVec 64 :=
  (s.pins.ip &&& s.hart.ie).setWidth 64

/- The pending interrupts that machine mode keeps. -/
def pendingM
    (s : State σ) : BitVec 64 :=
  s.pendingAll &&& ~~~(s.hart.csrs CSR_MIDELEG)

/- The pending interrupts delegated to supervisor mode. -/
def pendingS
    (s : State σ) : BitVec 64 :=
  ((s.pins.ip &&& SE_MASK).setWidth 64 &&&
      (s.hart.ie &&& SE_MASK).setWidth 64) &&&
    s.hart.csrs CSR_MIDELEG

def intLocalPending
    (s : State σ) : Bool :=
  if s.pendingAll = 0 then
    false
  else
    let pendingS :=
      if .Supervisor < s.hart.mode then 0 else s.pendingS
    s.pendingM ||| pendingS != 0

/- The first interrupt in the order of priority. -/
def firstIrq
    (pending : BitVec 64) : Option Nat :=
  irqPriority.find? (fun irq => pending.getLsbD irq)

def mGlobal
    (h : Hart) : Bool :=
  if h.mode = .Machine then
    h.status.MIE == 1
  else
    decide (h.mode < .Machine)

def sGlobal
    (h : Hart) : Bool :=
  if h.mode = .Supervisor then
    h.status.SIE == 1
  else
    decide (h.mode < .Supervisor)

/- The interrupt that `check_ints` takes. -/
def takenIrq
    (s : State σ) : Option Nat :=
  if s.pendingAll = 0 then
    none
  else
    (if mGlobal s.hart then firstIrq s.pendingM else none).or
      (if sGlobal s.hart then firstIrq s.pendingS else none)

def checkInts
    (s : State σ) : State σ :=
  match s.takenIrq with
  | some irq => s.trap (BitVec.ofNat 64 irq) 0 true
  | none => s

end State

end RiscvEm

------------------------------------------------------------
-- Control And Status Registers
------------------------------------------------------------

namespace RiscvEm

variable {σ : Type}

namespace State

/- Register `csr` belongs to the floating-point unit. -/
def isFloatCsr
    (csr : BitVec 16) : Bool :=
  csr == CSR_FCSR || csr == CSR_FFLAGS || csr == CSR_FRM

/- The effect of a write to a floating-point register. -/
def writeFloatCsr
    (f : Fcsr)
    (csr : BitVec 16)
    (val : BitVec 64) : Fcsr :=
  if csr = CSR_FCSR then
    val
  else if csr = CSR_FFLAGS then
    f.setFflags (val.setWidth 5)
  else
    f.setFrm (val.setWidth 3)

/- The value of a floating-point register. -/
def readFloatCsr
    (f : Fcsr)
    (csr : BitVec 16) : BitVec 64 :=
  if csr = CSR_FCSR then
    f
  else if csr = CSR_FFLAGS then
    f.fflags.setWidth 64
  else
    f.frm.setWidth 64

def csrWrite
    (s : State σ)
    (csr : BitVec 16)
    (val : BitVec 64) : State σ :=
  let val16 := val.setWidth 16
  if csr = CSR_MSTATUS then
    s.setHart { s.hart with
      status := (s.hart.status &&& MSTATUS_RO_MASK) |||
        (val &&& ~~~MSTATUS_RO_MASK) }
  else if csr = CSR_SSTATUS then
    s.setHart { s.hart with
      status := (s.hart.status &&& ~~~SSTATUS_MASK) |||
        (val &&& SSTATUS_MASK) }
  else if csr = CSR_SIE then
    s.setHart { s.hart with
      ie := (s.hart.ie &&& ~~~SE_MASK) |||
        (val16 &&& SE_MASK) }
  else if csr = CSR_SIP then
    s.setPins { s.pins with
      ip := (s.pins.ip &&& ~~~SE_MASK) |||
        (val16 &&& SE_MASK) }
  else if csr = CSR_MIE then
    s.setHart { s.hart with ie := val16 }
  else if csr = CSR_MIP then
    s.setPins { s.pins with ip := val16 }
  else if csr = CSR_STIMECMP then
    s.setPins { s.pins with stimecmp := val }
  else if isFloatCsr csr then
    if s.hart.status.FS = 0 then
      s.trap EXC_ILLEGAL_INSTRUCTION (csr.setWidth 64) false
    else
      s.setFcsr (writeFloatCsr s.hart.fcsr csr val)
  else if csr = CSR_MVENDORID ∨ csr = CSR_MARCHID ∨
      csr = CSR_MIMPID then
    s
  else
    s.setCsr csr val

def csrRead
    (s : State σ)
    (csr : BitVec 16) : BitVec 64 × State σ :=
  if csr = CSR_MSTATUS then
    (s.hart.status, s)
  else if csr = CSR_SSTATUS then
    (s.hart.status &&& SSTATUS_MASK, s)
  else if csr = CSR_SIE then
    ((s.hart.ie &&& SE_MASK).setWidth 64, s)
  else if csr = CSR_SIP then
    ((s.pins.ip &&& SE_MASK).setWidth 64, s)
  else if csr = CSR_MIP then
    (s.pins.ip.setWidth 64, s)
  else if csr = CSR_MIE then
    (s.hart.ie.setWidth 64, s)
  else if csr = CSR_CYCLE then
    (s.csr CSR_MCYCLE, s)
  else if csr = CSR_INSTRET then
    (s.csr CSR_MINSTRET, s)
  else if CSR_HPMCOUNTER3 ≤ csr ∧ csr ≤ CSR_HPMCOUNTER31 then
    (s.csr (csr - 0x100), s)
  else if csr = CSR_STIMECMP then
    (s.pins.stimecmp, s)
  else if isFloatCsr csr then
    if s.hart.status.FS = 0 then
      (0, s.trap EXC_ILLEGAL_INSTRUCTION (csr.setWidth 64)
        false)
    else
      (readFloatCsr s.hart.fcsr csr, s)
  else
    (s.csr csr, s)

end State

end RiscvEm
