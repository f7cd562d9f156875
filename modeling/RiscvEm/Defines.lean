import Mathlib.Order.Basic

/-
  Constants and small data types of the emulator: exception
  codes, the results of instructions and memory accesses,
  privilege modes, CSR numbers and the bit fields of the
  `status` and `fcsr` registers.

  Key definitions include:
    * `HostFault`
    * `MemorySize`
    * `MemoryReturn`
    * `ExecReturn`
    * `PrivilegeMode`
    * `Status`
-/

------------------------------------------------------------
-- Host Faults
------------------------------------------------------------

namespace RiscvEm

/-
  The ways in which a call of the emulator does not return
  to its caller: a thrown exception, a failed assertion, or
  an access outside a host object, whose effect C++ leaves
  undefined.
-/
inductive HostFault where
  | outOfRange
  | invalidArgument
  | outOfBounds
  | assertFailed
  | codeFault
  deriving DecidableEq, Repr

/- A sequence returns exactly when its parts return. -/
theorem bind_eq_ok
    {ε α β : Type}
    {x : Except ε α}
    {f : α → Except ε β}
    {b : β} :
    x >>= f = .ok b ↔ ∃ a, x = .ok a ∧ f a = .ok b := by
  cases x with
  | error e =>
      constructor
      · intro h
        cases h
      · rintro ⟨a, hx, -⟩
        cases hx
  | ok a =>
      constructor
      · intro h
        exact ⟨a, rfl, h⟩
      · rintro ⟨a', hx, h⟩
        cases hx
        exact h

/- What follows is total. -/
theorem bind_ok_iff
    {ε α β : Type}
    {x : Except ε α}
    {f : α → β} :
    (∃ b, (x >>= fun a => .ok (f a)) = .ok b) ↔
      ∃ a, x = .ok a := by
  constructor
  · rintro ⟨b, h⟩
    rcases bind_eq_ok.mp h with ⟨a, hx, -⟩
    exact ⟨a, hx⟩
  · rintro ⟨a, rfl⟩
    exact ⟨f a, rfl⟩

theorem toOption_eq_some
    {ε α : Type}
    {x : Except ε α}
    {a : α} :
    x.toOption = some a ↔ x = .ok a := by
  cases x with
  | error e =>
      constructor
      · intro h
        cases h
      · intro h
        cases h
  | ok b =>
      constructor
      · intro h
        cases h
        rfl
      · intro h
        cases h
        rfl

end RiscvEm

------------------------------------------------------------
-- Traps And Return Values
------------------------------------------------------------

namespace RiscvEm

def EXC_INST_ADDR_MISALIGNED : BitVec 64 := 0
def EXC_INST_ACCESS_FAULT : BitVec 64 := 1
def EXC_ILLEGAL_INSTRUCTION : BitVec 64 := 2
def EXC_BREAKPOINT : BitVec 64 := 3
def EXC_LOAD_ACCESS_FAULT : BitVec 64 := 5
def EXC_STORE_ACCESS_FAULT : BitVec 64 := 7
def EXC_ENV_CALL_FROM_U : BitVec 64 := 8
def EXC_ENV_CALL_FROM_S : BitVec 64 := 9
def EXC_ENV_CALL_FROM_M : BitVec 64 := 11

/- MEI, SEI, MSI, SSI, MTI, STI. -/
def irqPriority : List Nat := [11, 9, 3, 1, 7, 5]

inductive MemorySize where
  | Byte
  | Short
  | Int
  | Long
  deriving DecidableEq, Repr

/- The value of the enumerator, a number of bytes. -/
def MemorySize.bytes : MemorySize → Nat
  | .Byte => 1
  | .Short => 2
  | .Int => 4
  | .Long => 8

theorem MemorySize.bytes_pos
    (size : MemorySize) :
    0 < size.bytes := by
  cases size <;> decide

theorem MemorySize.bytes_le
    (size : MemorySize) :
    size.bytes ≤ 8 := by
  cases size <;> decide

structure MemoryReturn where
  isSuccess : Bool := true
  excCode : BitVec 64 := 0
  tval : BitVec 64 := 0
  deriving DecidableEq, Repr

structure ExecReturn where
  isSuccess : Bool := true
  canChangePc : Bool := false
  increasePc : BitVec 64 := 4
  cause : BitVec 64 := 0
  tval : BitVec 64 := 0
  deriving DecidableEq, Repr

/- `{ true, false, n, 0, 0 }`: done, go on `n` bytes ahead. -/
def ExecReturn.next
    (n : BitVec 64) : ExecReturn :=
  ⟨true, false, n, 0, 0⟩

/- `{ true, true, 0, 0, 0 }`: done, `pc` is already set. -/
def ExecReturn.jumped : ExecReturn :=
  ⟨true, true, 0, 0, 0⟩

/- `{ false, false, 0, EXC_ILLEGAL_INSTRUCTION, inst }`. -/
def ExecReturn.illegal
    (inst : BitVec 32) : ExecReturn :=
  ⟨false, false, 0, EXC_ILLEGAL_INSTRUCTION,
    inst.setWidth 64⟩

/- Hand the outcome of a memory access on. -/
def ExecReturn.ofMemory
    (n : BitVec 64)
    (out : MemoryReturn) : ExecReturn :=
  ⟨out.isSuccess, false, n, out.excCode, out.tval⟩

end RiscvEm

------------------------------------------------------------
-- Privilege Modes
------------------------------------------------------------

namespace RiscvEm

inductive PrivilegeMode where
  | User
  | Supervisor
  | Hypervisor
  | Machine
  deriving DecidableEq, Repr

namespace PrivilegeMode

/- The value of the enumerator. -/
def toNat : PrivilegeMode → Nat
  | User => 0
  | Supervisor => 1
  | Hypervisor => 2
  | Machine => 3

instance : LE PrivilegeMode :=
  ⟨fun a b => a.toNat ≤ b.toNat⟩

instance : LT PrivilegeMode :=
  ⟨fun a b => a.toNat < b.toNat⟩

instance
    (a b : PrivilegeMode) :
    Decidable (a ≤ b) :=
  inferInstanceAs (Decidable (a.toNat ≤ b.toNat))

instance
    (a b : PrivilegeMode) :
    Decidable (a < b) :=
  inferInstanceAs (Decidable (a.toNat < b.toNat))

end PrivilegeMode

end RiscvEm

------------------------------------------------------------
-- Control And Status Registers
------------------------------------------------------------

namespace RiscvEm

def CSR_FFLAGS : BitVec 16 := 0x001
def CSR_FRM : BitVec 16 := 0x002
def CSR_FCSR : BitVec 16 := 0x003
def CSR_SSTATUS : BitVec 16 := 0x100
def CSR_SIE : BitVec 16 := 0x104
def CSR_STVEC : BitVec 16 := 0x105
def CSR_SCOUNTEREN : BitVec 16 := 0x106
def CSR_SSTATEEN0 : BitVec 16 := 0x10C
def CSR_SSTATEEN3 : BitVec 16 := 0x10F
def CSR_SEPC : BitVec 16 := 0x141
def CSR_SCAUSE : BitVec 16 := 0x142
def CSR_STVAL : BitVec 16 := 0x143
def CSR_SIP : BitVec 16 := 0x144
def CSR_STIMECMP : BitVec 16 := 0x14D
def CSR_SATP : BitVec 16 := 0x180
def CSR_MSTATUS : BitVec 16 := 0x300
def CSR_MISA : BitVec 16 := 0x301
def CSR_MEDELEG : BitVec 16 := 0x302
def CSR_MIDELEG : BitVec 16 := 0x303
def CSR_MIE : BitVec 16 := 0x304
def CSR_MTVEC : BitVec 16 := 0x305
def CSR_MCOUNTEREN : BitVec 16 := 0x306
def CSR_MSTATEEN0 : BitVec 16 := 0x30C
def CSR_MSTATEEN3 : BitVec 16 := 0x30F
def CSR_MCYCLECFG : BitVec 16 := 0x321
def CSR_MEPC : BitVec 16 := 0x341
def CSR_MCAUSE : BitVec 16 := 0x342
def CSR_MTVAL : BitVec 16 := 0x343
def CSR_MIP : BitVec 16 := 0x344
def CSR_TSELECT : BitVec 16 := 0x7A0
def CSR_TDATA1 : BitVec 16 := 0x7A1
def CSR_TDATA3 : BitVec 16 := 0x7A3
def CSR_MCYCLE : BitVec 16 := 0xB00
def CSR_MINSTRET : BitVec 16 := 0xB02
def CSR_CYCLE : BitVec 16 := 0xC00
def CSR_TIME : BitVec 16 := 0xC01
def CSR_INSTRET : BitVec 16 := 0xC02
def CSR_HPMCOUNTER3 : BitVec 16 := 0xC03
def CSR_HPMCOUNTER31 : BitVec 16 := 0xC1F
def CSR_SCOUNTOVF : BitVec 16 := 0xDA0
def CSR_MVENDORID : BitVec 16 := 0xF11
def CSR_MARCHID : BitVec 16 := 0xF12
def CSR_MIMPID : BitVec 16 := 0xF13
def CSR_MHARTID : BitVec 16 := 0xF14
def CSR_MTOPI : BitVec 16 := 0xFB0

def SSTATUS_MASK : BitVec 64 := 0x80000003000DE762
def SE_MASK : BitVec 16 := 0x222
def MSTATUS_RO_MASK : BitVec 64 := 0xF00000000

/- Overwrite the bits from `lo` on by the bits of `v`. -/
def setField
    {n : Nat}
    (raw : BitVec 64)
    (lo : Nat)
    (v : BitVec n) : BitVec 64 :=
  (raw &&& ~~~((BitVec.allOnes n).setWidth 64 <<< lo)) |||
    (v.setWidth 64 <<< lo)

/- The `status` register, with the bit fields of its union. -/
abbrev Status := BitVec 64

namespace Status

def SIE (s : Status) : BitVec 1 := s.extractLsb' 1 1
def MIE (s : Status) : BitVec 1 := s.extractLsb' 3 1
def SPIE (s : Status) : BitVec 1 := s.extractLsb' 5 1
def MPIE (s : Status) : BitVec 1 := s.extractLsb' 7 1
def SPP (s : Status) : BitVec 1 := s.extractLsb' 8 1
def MPP (s : Status) : BitVec 2 := s.extractLsb' 11 2
def FS (s : Status) : BitVec 2 := s.extractLsb' 13 2
def TVM (s : Status) : BitVec 1 := s.extractLsb' 20 1
def TW (s : Status) : BitVec 1 := s.extractLsb' 21 1
def TSR (s : Status) : BitVec 1 := s.extractLsb' 22 1
def SD (s : Status) : BitVec 1 := s.extractLsb' 63 1

def setSIE (s : Status) (v : BitVec 1) : Status :=
  setField s 1 v
def setMIE (s : Status) (v : BitVec 1) : Status :=
  setField s 3 v
def setSPIE (s : Status) (v : BitVec 1) : Status :=
  setField s 5 v
def setMPIE (s : Status) (v : BitVec 1) : Status :=
  setField s 7 v
def setSPP (s : Status) (v : BitVec 1) : Status :=
  setField s 8 v
def setMPP (s : Status) (v : BitVec 2) : Status :=
  setField s 11 v
def setMPRV (s : Status) (v : BitVec 1) : Status :=
  setField s 17 v
def setUXL (s : Status) (v : BitVec 2) : Status :=
  setField s 32 v
def setSXL (s : Status) (v : BitVec 2) : Status :=
  setField s 34 v

end Status

/- The `fcsr` register and its two fields. -/
abbrev Fcsr := BitVec 64

namespace Fcsr

def fflags (f : Fcsr) : BitVec 5 := f.extractLsb' 0 5
def frm (f : Fcsr) : BitVec 3 := f.extractLsb' 5 3

def setFflags (f : Fcsr) (v : BitVec 5) : Fcsr :=
  setField f 0 v
def setFrm (f : Fcsr) (v : BitVec 3) : Fcsr :=
  setField f 5 v

end Fcsr

end RiscvEm
