import RiscvEm.Sets.Common

/-
  The instructions of Zba, Zbb, Zbc and Zbs.
-/

------------------------------------------------------------
-- Zba
------------------------------------------------------------

namespace RiscvEm

variable {σ : Type}

/- `rs2 + (rs1 << k)`. -/
def execShAdd
    (k : Nat) : ExecFun σ :=
  execRType (fun a b => b + a <<< k)

/- `rs2 + ((uint64_t)(uint32_t)rs1 << k)`. -/
def execShAddUw
    (k : Nat) : ExecFun σ :=
  execRType (fun a b => b + zextW a <<< k)

def execADD_UW : ExecFun σ :=
  execRType (fun a b => b + zextW a)

def execSH1ADD : ExecFun σ := execShAdd 1
def execSH1ADD_UW : ExecFun σ := execShAddUw 1
def execSH2ADD : ExecFun σ := execShAdd 2
def execSH2ADD_UW : ExecFun σ := execShAddUw 2
def execSH3ADD : ExecFun σ := execShAdd 3
def execSH3ADD_UW : ExecFun σ := execShAddUw 3

def execSLLI_UW : ExecFun σ :=
  execIType (fun a imm => shl (zextW a) imm)

end RiscvEm

------------------------------------------------------------
-- Zbb
------------------------------------------------------------

namespace RiscvEm

variable {σ : Type}

/- One register into another. -/
def execUnary
    (f : BitVec 64 → BitVec 64) : ExecFun σ :=
  fun _ d => execRd 4 d.rd (fun s => f (s.gpr d.rs1))

/- The highest set bit below `n`, or `-1`. -/
def scanDown
    {w : Nat}
    (x : BitVec w) : Nat → BitVec 64
  | 0 => -1
  | n + 1 =>
      if x.getLsbD n then BitVec.ofNat 64 n else scanDown x n

/- The lowest set bit, or the width. -/
def scanUp
    {w : Nat}
    (x : BitVec w) : BitVec 64 :=
  BitVec.ofNat 64
    (((List.range w).find? (x.getLsbD ·)).getD w)

/- The number of set bits. -/
def countBits
    {w : Nat}
    (x : BitVec w) : BitVec 64 :=
  BitVec.ofNat 64 ((List.range w).countP (x.getLsbD ·))

def execANDN : ExecFun σ :=
  execRType (fun a b => a &&& ~~~b)

def execORN : ExecFun σ :=
  execRType (fun a b => a ||| ~~~b)

def execXNOR : ExecFun σ :=
  execRType (fun a b => ~~~(a ^^^ b))

def execCLZ : ExecFun σ :=
  execUnary (fun a => 63 - scanDown a 64)

def execCLZW : ExecFun σ :=
  execUnary (fun a => 31 - scanDown (a.setWidth 32) 32)

def execCTZ : ExecFun σ :=
  execUnary scanUp

def execCTZW : ExecFun σ :=
  execUnary (fun a => scanUp (a.setWidth 32))

def execCPOP : ExecFun σ :=
  execUnary countBits

def execCPOPW : ExecFun σ :=
  execUnary (fun a => countBits (a.setWidth 32))

/- `std::max` and `std::min` return the first of equals. -/
def execMAX : ExecFun σ :=
  execRType (fun a b => if a.slt b then b else a)

def execMAXU : ExecFun σ :=
  execRType (fun a b => if a < b then b else a)

def execMIN : ExecFun σ :=
  execRType (fun a b => if b.slt a then b else a)

def execMINU : ExecFun σ :=
  execRType (fun a b => if b < a then b else a)

def execSEXT_B : ExecFun σ :=
  execUnary (fun a => (a.setWidth 8).signExtend 64)

def execSEXT_H : ExecFun σ :=
  execUnary (fun a => (a.setWidth 16).signExtend 64)

def execZEXT_H : ExecFun σ :=
  execUnary (fun a => a &&& 0xFFFF)

def execROL : ExecFun σ :=
  execRType (fun a b =>
    let shamt := b &&& 0x3F
    shl a shamt ||| shr a (64 - shamt))

def execROLW : ExecFun σ :=
  execRType (fun a b =>
    let rs1 := zextW a
    let shamt := b &&& 0x1F
    sextW (shl rs1 shamt ||| shr rs1 (32 - shamt)))

def execROR : ExecFun σ :=
  execRType (fun a b =>
    let shamt := b &&& 0x3F
    shr a shamt ||| shl a (64 - shamt))

def execRORI : ExecFun σ :=
  execIType (fun a imm => shr a imm ||| shl a (64 - imm))

def execRORIW : ExecFun σ :=
  execIType (fun a imm =>
    let rs1 := zextW a
    shr rs1 imm ||| shl rs1 (32 - imm))

def execRORW : ExecFun σ :=
  execRType (fun a b =>
    let rs1 := zextW a
    let shamt := b &&& 0x1F
    sextW (shr rs1 shamt ||| shl rs1 (32 - shamt)))

def execORC_B : ExecFun σ :=
  execUnary (fun a =>
    (List.range 8).foldl
      (fun out i =>
        let val : BitVec 64 :=
          if (a >>> (8 * i)) &&& 0xFF = 0 then 0 else 0xFF
        out ||| val <<< (8 * i))
      0)

def execREV8 : ExecFun σ :=
  execUnary (fun a =>
    (List.range 8).foldl
      (fun out i =>
        out ||| ((a >>> (8 * i)) &&& 0xFF) <<< ((7 - i) * 8))
      0)

end RiscvEm

------------------------------------------------------------
-- Zbc
------------------------------------------------------------

namespace RiscvEm

variable {σ : Type}

/- Carry-less product over the set bits of the second. -/
def clmulLoop
    (is : List Nat)
    (f : Nat → BitVec 64)
    (rs2 : BitVec 64) : BitVec 64 :=
  is.foldl
    (fun out i => if rs2.getLsbD i then out ^^^ f i else out)
    0

def execCLMUL : ExecFun σ :=
  execRType (fun a b =>
    clmulLoop (List.range 64) (fun i => a <<< i) b)

def execCLMULH : ExecFun σ :=
  execRType (fun a b =>
    clmulLoop ((List.range 64).drop 1)
      (fun i => a >>> (64 - i)) b)

def execCLMULR : ExecFun σ :=
  execRType (fun a b =>
    clmulLoop (List.range 64) (fun i => a >>> (63 - i)) b)

end RiscvEm

------------------------------------------------------------
-- Zbs
------------------------------------------------------------

namespace RiscvEm

variable {σ : Type}

/- `(uint64_t)1 << (index & 0x3f)`. -/
def bitAt
    (index : BitVec 64) : BitVec 64 :=
  shl 1 (index &&& 0x3F)

def bclr (a index : BitVec 64) : BitVec 64 :=
  a &&& ~~~(bitAt index)

def bext (a index : BitVec 64) : BitVec 64 :=
  shr a (index &&& 0x3F) &&& 1

def binv (a index : BitVec 64) : BitVec 64 :=
  a ^^^ bitAt index

def bset (a index : BitVec 64) : BitVec 64 :=
  a ||| bitAt index

def execBCLR : ExecFun σ := execRType bclr
def execBCLRI : ExecFun σ := execIType bclr
def execBEXT : ExecFun σ := execRType bext
def execBEXTI : ExecFun σ := execIType bext
def execBINV : ExecFun σ := execRType binv
def execBINVI : ExecFun σ := execIType binv
def execBSET : ExecFun σ := execRType bset
def execBSETI : ExecFun σ := execIType bset

end RiscvEm
