import RiscvEm.Sets.Common

/-
  The instructions of RV64A: load-reserved and
  store-conditional, and the atomic memory operations.

  Key definitions include:
    * `AMO_LR`
    * `AMO_SC`
    * `AMO`
-/

------------------------------------------------------------
-- Load-Reserved And Store-Conditional
------------------------------------------------------------

namespace RiscvEm

variable {σ : Type}

namespace State

def setReservation
    (s : State σ)
    (r : Reservation) : State σ :=
  s.setHart { s.hart with reservation := r }

/- `hart.reservation.valid = false`. -/
def clearReservation
    (s : State σ) : State σ :=
  s.setReservation { s.hart.reservation with valid := false }

end State

/-
  The last component is the byte put into `*out_val`. The
  event of a success is logged before the store it does.
-/
def AMO_SC
    (P : Platform σ)
    (s : State σ)
    (va : BitVec 64)
    (size : MemorySize)
    (val : BitVec 64) :
    Except HostFault (MemoryReturn × State σ × BitVec 8) :=
  let r := s.hart.reservation
  if r.valid = true ∧ r.vaddr = va ∧ r.size = size then do
    let (out, s') ←
      (s.log (.sc s.self va size true)).mmioWrite P va size val
    if out.isSuccess then
      .ok (out, s'.clearReservation, 0)
    else
      .ok (out, s.log (.sc s.self va size false), 0)
  else
    .ok (⟨true, 0, 0⟩,
      s.clearReservation.log (.sc s.self va size false), 1)

def AMO_LR
    (P : Platform σ)
    (s : State σ)
    (va : BitVec 64)
    (size : MemorySize) :
    Except HostFault (MemoryReturn × State σ × BitVec 64) := do
  let (out, value, s) ← s.mmioRead P va size
  if out.isSuccess then
    .ok (out,
      (s.setReservation ⟨va, size, true⟩).log
        (.lr s.self va size), value)
  else
    .ok (out, s, 0)

/- `fail` is the increment that a failed access reports. -/
def execLr
    (size : MemorySize)
    (fail : BitVec 64)
    (ext : BitVec 64 → BitVec 64) : ExecFun σ :=
  fun P d s => do
    let (out, s, val) ← AMO_LR P s (s.gpr d.rs1) size
    if out.isSuccess then
      .ok (.next 4, s.setGpr d.rd (ext val))
    else
      .ok (⟨false, false, fail, out.excCode, out.tval⟩, s)

/- The local `val` is uninitialised but for its low byte. -/
def execSc
    (size : MemorySize)
    (fail : BitVec 64)
    (val : BitVec 64 → BitVec 64)
    (result : BitVec 64 → BitVec 64) : ExecFun σ :=
  fun P d s => do
    let (out, s, b) ← AMO_SC P s (s.gpr d.rs1) size
      (val (s.gpr d.rs2))
    if out.isSuccess then
      .ok (.next 4, s.setGpr d.rd (result
        ((P.uninit &&& ~~~0xFF) ||| b.setWidth 64)))
    else
      .ok (⟨false, false, fail, out.excCode, out.tval⟩, s)

def execLR_D : ExecFun σ := execLr .Long 4 id
def execLR_W : ExecFun σ := execLr .Int 0 sextW
def execSC_D : ExecFun σ := execSc .Long 4 id id
def execSC_W : ExecFun σ := execSc .Int 0 zextW zextW

end RiscvEm

------------------------------------------------------------
-- Atomic Memory Operations
------------------------------------------------------------

namespace RiscvEm

variable {σ : Type}

/- `AMO64` and `AMO32`; the old value comes back. -/
def AMO
    (P : Platform σ)
    (s : State σ)
    (va : BitVec 64)
    (size : MemorySize)
    (func : BitVec 64 → BitVec 64) :
    Except HostFault (MemoryReturn × State σ × BitVec 64) := do
  let (out, val, s) ← s.mmioRead P va size
  if out.isSuccess then do
    let (out, s) ← s.mmioWrite P va size (func val)
    if out.isSuccess then
      .ok (⟨true, 0, 0⟩, s, val)
    else
      .ok (out, s, 0)
  else
    .ok (out, s, 0)

def execAmo
    (size : MemorySize)
    (ext : BitVec 64 → BitVec 64)
    (func : BitVec 64 → BitVec 64 → BitVec 64) : ExecFun σ :=
  fun P d s => do
    let (out, s, val) ← AMO P s (s.gpr d.rs1) size
      (fun a => func a (s.gpr d.rs2))
    .ok (.ofMemory 4 out,
      if out.isSuccess then s.setGpr d.rd (ext val) else s)

def execAmo64
    (func : BitVec 64 → BitVec 64 → BitVec 64) : ExecFun σ :=
  execAmo .Long id func

/- The function works on 32-bit values. -/
def execAmo32
    (func : BitVec 32 → BitVec 32 → BitVec 32) : ExecFun σ :=
  execAmo .Int sextW
    (fun a b =>
      (func (a.setWidth 32) (b.setWidth 32)).setWidth 64)

/- The functions that the two widths share. -/
def amoMin
    {w : Nat}
    (a b : BitVec w) : BitVec w :=
  if b.slt a then b else a

def amoMax
    {w : Nat}
    (a b : BitVec w) : BitVec w :=
  if a.slt b then b else a

def amoMinu
    {w : Nat}
    (a b : BitVec w) : BitVec w :=
  if b < a then b else a

def amoMaxu
    {w : Nat}
    (a b : BitVec w) : BitVec w :=
  if a < b then b else a

def execAMOSWAP_D : ExecFun σ := execAmo64 (fun _ b => b)
def execAMOADD_D : ExecFun σ := execAmo64 (fun a b => a + b)
def execAMOXOR_D : ExecFun σ := execAmo64 (fun a b => a ^^^ b)
def execAMOAND_D : ExecFun σ := execAmo64 (fun a b => a &&& b)
def execAMOOR_D : ExecFun σ := execAmo64 (fun a b => a ||| b)
def execAMOMIN_D : ExecFun σ := execAmo64 amoMin
def execAMOMAX_D : ExecFun σ := execAmo64 amoMax
def execAMOMINU_D : ExecFun σ := execAmo64 amoMinu
def execAMOMAXU_D : ExecFun σ := execAmo64 amoMaxu

def execAMOSWAP_W : ExecFun σ := execAmo32 (fun _ b => b)
def execAMOADD_W : ExecFun σ := execAmo32 (fun a b => a + b)
def execAMOXOR_W : ExecFun σ := execAmo32 (fun a b => a ^^^ b)
def execAMOAND_W : ExecFun σ := execAmo32 (fun a b => a &&& b)
def execAMOOR_W : ExecFun σ := execAmo32 (fun a b => a ||| b)
def execAMOMIN_W : ExecFun σ := execAmo32 amoMin
def execAMOMAX_W : ExecFun σ := execAmo32 amoMax
def execAMOMINU_W : ExecFun σ := execAmo32 amoMinu
def execAMOMAXU_W : ExecFun σ := execAmo32 amoMaxu

end RiscvEm
