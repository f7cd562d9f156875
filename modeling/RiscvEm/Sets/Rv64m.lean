import RiscvEm.Sets.Common

/-
  The instructions of RV64M: multiplication, division and
  remainder.
-/

------------------------------------------------------------
-- Words
------------------------------------------------------------

namespace RiscvEm

variable {σ : Type}

/- An operation on the low words, sign extended. -/
def execWord
    (f : BitVec 32 → BitVec 32 → BitVec 64) : ExecFun σ :=
  execRType (fun a b => f (a.setWidth 32) (b.setWidth 32))

def execMULW : ExecFun σ :=
  execWord (fun a b => (a * b).signExtend 64)

def execDIVW : ExecFun σ :=
  execWord (fun a b =>
    if b = 0 then
      -1
    else if a = 0 then
      0
    else if a = 0x80000000 ∧ b = -1 then
      a.signExtend 64
    else
      (a.sdiv b).signExtend 64)

def execDIVUW : ExecFun σ :=
  execWord (fun a b =>
    if b = 0 then
      -1
    else if a = 0 then
      0
    else
      (a / b).signExtend 64)

def execREMW : ExecFun σ :=
  execWord (fun a b =>
    if b = 0 then
      a.signExtend 64
    else if a = 0x80000000 ∧ b = -1 then
      0
    else
      (a.srem b).signExtend 64)

/- Division by zero leaves the whole register. -/
def execREMUW : ExecFun σ :=
  execRType (fun a b =>
    if b.setWidth 32 = 0 then
      a
    else
      (a.setWidth 32 % b.setWidth 32).signExtend 64)

end RiscvEm

------------------------------------------------------------
-- Double Words
------------------------------------------------------------

namespace RiscvEm

variable {σ : Type}

/- The high half of a product of 128-bit values. -/
def mulHigh
    (a b : BitVec 128) : BitVec 64 :=
  (a * b).extractLsb' 64 64

def execMUL : ExecFun σ :=
  execRType (fun a b => a * b)

def execMULH : ExecFun σ :=
  execRType (fun a b =>
    mulHigh (a.signExtend 128) (b.signExtend 128))

def execMULHSU : ExecFun σ :=
  execRType (fun a b =>
    mulHigh (a.signExtend 128) (b.setWidth 128))

def execMULHU : ExecFun σ :=
  execRType (fun a b =>
    mulHigh (a.setWidth 128) (b.setWidth 128))

def execDIV : ExecFun σ :=
  execRType (fun a b =>
    if b = 0 then
      -1
    else if a = 0 then
      0
    else if a = 0x8000000000000000 ∧ b = -1 then
      a
    else
      a.sdiv b)

def execDIVU : ExecFun σ :=
  execRType (fun a b =>
    if b = 0 then
      -1
    else if a = 0 then
      0
    else
      a / b)

def execREM : ExecFun σ :=
  execRType (fun a b =>
    if b = 0 then
      a
    else if a = 0x8000000000000000 ∧ b = -1 then
      0
    else
      a.srem b)

def execREMU : ExecFun σ :=
  execRType (fun a b => if b = 0 then a else a % b)

end RiscvEm
