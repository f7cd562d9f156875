import RiscvEm.Hart.Trap

/-
  What the functions `exec_*` have in common: results in a
  register, loads, stores and branches, and the casts of the
  host language.

  Key definitions include:
    * `Exec`
    * `execRd`
    * `execLoad`
    * `execStore`
    * `execBranch`
-/

------------------------------------------------------------
-- Casts And Shifts Of The Host
------------------------------------------------------------

namespace RiscvEm

/- `(int64_t)(int32_t)x`. -/
def sextW
    (x : BitVec 64) : BitVec 64 :=
  (x.setWidth 32).signExtend 64

/- `(uint64_t)(uint32_t)x`. -/
def zextW
    (x : BitVec 64) : BitVec 64 :=
  (x.setWidth 32).setWidth 64

/- `(int64_t)` of a value of `n` bytes read from memory. -/
def sextBytes
    (size : MemorySize)
    (x : BitVec 64) : BitVec 64 :=
  (x.setWidth (size.bytes * 8)).signExtend 64

/- A condition as a number. -/
def ofCond
    (p : Prop)
    [Decidable p] : BitVec 64 :=
  if p then 1 else 0

/- Shifts of the host take their count modulo the width. -/
def shl
    {w : Nat}
    (x : BitVec w)
    (n : BitVec 64) : BitVec w :=
  x <<< (n.toNat % w)

def shr
    {w : Nat}
    (x : BitVec w)
    (n : BitVec 64) : BitVec w :=
  x >>> (n.toNat % w)

def sar
    {w : Nat}
    (x : BitVec w)
    (n : BitVec 64) : BitVec w :=
  x.sshiftRight (n.toNat % w)

end RiscvEm

------------------------------------------------------------
-- Shapes Of Instructions
------------------------------------------------------------

namespace RiscvEm

variable {σ : Type}

/- The effect of an instruction on the state. -/
abbrev Exec (σ : Type) :=
  State σ → Except HostFault (ExecReturn × State σ)

/- A function `exec_*`. -/
abbrev ExecFun (σ : Type) :=
  Platform σ → InstructionData → Exec σ

/- `hart.GPR[rd] = ...; return { true, false, n, 0, 0 };` -/
def execRd
    (n : BitVec 64)
    (rd : BitVec 5)
    (val : State σ → BitVec 64) : Exec σ :=
  fun s => .ok (.next n, s.setGpr rd (val s))

/- `hart.FPR[rd] = ...; return { true, false, n, 0, 0 };` -/
def execFrd
    (n : BitVec 64)
    (rd : BitVec 5)
    (val : State σ → BitVec 64) : Exec σ :=
  fun s => .ok (.next n, s.setFpr rd (val s))

/- Two registers into one. -/
def execRType
    (f : BitVec 64 → BitVec 64 → BitVec 64) : ExecFun σ :=
  fun _ d => execRd 4 d.rd
    (fun s => f (s.gpr d.rs1) (s.gpr d.rs2))

/- A register and the immediate into a register. -/
def execIType
    (f : BitVec 64 → BitVec 64 → BitVec 64) : ExecFun σ :=
  fun _ d => execRd 4 d.rd (fun s => f (s.gpr d.rs1) d.imm)

/- Read memory; on success `put` the value. -/
def execLoad
    (P : Platform σ)
    (n : BitVec 64)
    (size : MemorySize)
    (addr : State σ → BitVec 64)
    (put : State σ → BitVec 64 → State σ) : Exec σ :=
  fun s => do
    let (out, val, s) ← s.mmioRead P (addr s) size
    .ok (.ofMemory n out, if out.isSuccess then put s val else s)

/- Write memory. -/
def execStore
    (P : Platform σ)
    (n : BitVec 64)
    (size : MemorySize)
    (addr val : State σ → BitVec 64) : Exec σ :=
  fun s => do
    let (out, s) ← s.mmioWrite P (addr s) size (val s)
    .ok (.ofMemory n out, s)

/- A load of RV64I with the extension of its C type. -/
def execLType
    (size : MemorySize)
    (ext : BitVec 64 → BitVec 64) : ExecFun σ :=
  fun P d => execLoad P 4 size (fun s => s.gpr d.rs1 + d.imm)
    (fun s val => s.setGpr d.rd (ext val))

def execSType
    (size : MemorySize) : ExecFun σ :=
  fun P d => execStore P 4 size (fun s => s.gpr d.rs1 + d.imm)
    (fun s => s.gpr d.rs2)

/- A branch on two registers. -/
def execBranch
    (cond : BitVec 64 → BitVec 64 → Bool) : ExecFun σ :=
  fun _ d s =>
    if cond (s.gpr d.rs1) (s.gpr d.rs2) then
      let target := s.hart.pc + d.imm
      if target.getLsbD 0 then
        .ok (⟨false, false, 0, EXC_INST_ADDR_MISALIGNED,
          target⟩, s)
      else
        .ok (.jumped, s.setPc target)
    else
      .ok (.next 4, s)

/- A compressed branch on one register. -/
def execBranchZ
    (cond : BitVec 64 → Bool)
    (rs : BitVec 5) : ExecFun σ :=
  fun _ d s =>
    if cond (s.gpr rs) then
      .ok (.jumped, s.setPc (s.hart.pc + sextW d.imm))
    else
      .ok (.next 2, s)

end RiscvEm
