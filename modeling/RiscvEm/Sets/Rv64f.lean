import RiscvEm.Sets.Float

/-
  The instructions of RV64F. A register holds a `float` in
  its low half, under ones.

  Key definitions include:
    * `f32In`
    * `f32Out`
    * `execSingle`
-/

------------------------------------------------------------
-- Single Precision In Registers
------------------------------------------------------------

namespace RiscvEm

variable {σ : Type}

def f32In
    (reg : BitVec 64) : BitVec 32 :=
  reg.setWidth 32

def f32Out
    (val : BitVec 32) : BitVec 64 :=
  0xFFFFFFFF00000000 ||| val.setWidth 64

/- The `float` in a register. -/
def State.f32
    (s : State σ)
    (r : BitVec 5) : BitVec 32 :=
  f32In (s.fpr r)

def F32_NAN : BitVec 32 := 0x7FC00000

/- NaN becomes the canonical one and raises a flag. -/
def castFloat
    (P : Platform σ)
    (s : State σ)
    (val : BitVec 64) : BitVec 32 × State σ :=
  if isNan 52 val then
    (F32_NAN, s.orFlags NV)
  else
    ((P.float.narrow s.round val).1, s)

/- `hart.FPR[inst.rd] = f32_out(cast_float(hart, val))`. -/
def setCast
    (P : Platform σ)
    (rd : BitVec 5)
    (s : State σ)
    (val : BitVec 64) : State σ :=
  let (f, s) := castFloat P s val
  s.setFpr rd (f32Out f)

/-
  Arithmetic: the double `res` is computed first, under the
  rounding mode found; then the mode is set and the result
  narrowed.
-/
def execSingle
    (res : Platform σ → State σ → InstructionData →
      BitVec 64) : ExecFun σ :=
  fun P d s =>
    withRm P d (res P s d) (fun inter flags s =>
      let (val, flags') := P.float.narrow s.round inter
      let s := s.orFlags (flags ||| flags')
      setCast P d.rd s (P.float.widen val)) s

end RiscvEm

------------------------------------------------------------
-- Arithmetic
------------------------------------------------------------

namespace RiscvEm

variable {σ : Type}

/- The three operands as doubles. -/
def State.d1
    (P : Platform σ)
    (s : State σ)
    (d : InstructionData) : BitVec 64 :=
  P.float.widen (s.f32 d.rs1)

def State.d2
    (P : Platform σ)
    (s : State σ)
    (d : InstructionData) : BitVec 64 :=
  P.float.widen (s.f32 d.rs2)

def State.d3
    (P : Platform σ)
    (s : State σ)
    (d : InstructionData) : BitVec 64 :=
  P.float.widen (s.f32 d.rs3)

def execFMADD_S : ExecFun σ :=
  execSingle (fun P s d =>
    let prod := P.float.mul s.round (s.d1 P d) (s.d2 P d)
    (P.float.add s.round prod.1 (s.d3 P d)).1)

def execFMSUB_S : ExecFun σ :=
  execSingle (fun P s d =>
    let prod := P.float.mul s.round (s.d1 P d) (s.d2 P d)
    (P.float.sub s.round prod.1 (s.d3 P d)).1)

def execFNMADD_S : ExecFun σ :=
  execSingle (fun P s d =>
    let prod := P.float.mul s.round (floatNeg (s.d1 P d))
      (s.d2 P d)
    (P.float.sub s.round prod.1 (s.d3 P d)).1)

def execFNMSUB_S : ExecFun σ :=
  execSingle (fun P s d =>
    let prod := P.float.mul s.round (floatNeg (s.d1 P d))
      (s.d2 P d)
    (P.float.add s.round prod.1 (s.d3 P d)).1)

def execFADD_S : ExecFun σ :=
  execSingle (fun P s d =>
    (P.float.add s.round (s.d1 P d) (s.d2 P d)).1)

def execFSUB_S : ExecFun σ :=
  execSingle (fun P s d =>
    (P.float.sub s.round (s.d1 P d) (s.d2 P d)).1)

def execFMUL_S : ExecFun σ :=
  execSingle (fun P s d =>
    (P.float.mul s.round (s.d1 P d) (s.d2 P d)).1)

def execFDIV_S : ExecFun σ :=
  execSingle (fun P s d =>
    (P.float.div s.round (s.d1 P d) (s.d2 P d)).1)

def execFSQRT_S : ExecFun σ :=
  execSingle (fun P s d =>
    P.float.sqrtFloat s.round (s.f32 d.rs1))

end RiscvEm

------------------------------------------------------------
-- Signs, Minima And Comparisons
------------------------------------------------------------

namespace RiscvEm

variable {σ : Type}

def execFSGNJ_S : ExecFun σ :=
  fun P d s =>
    .ok (.next 4, setCast P d.rd s
      (P.float.widen (copySign (s.f32 d.rs1) (s.f32 d.rs2))))

def execFSGNJN_S : ExecFun σ :=
  fun P d s =>
    .ok (.next 4, setCast P d.rd s
      (P.float.widen (copySign (s.f32 d.rs1)
        (floatNeg (s.f32 d.rs2)))))

def execFSGNJX_S : ExecFun σ :=
  fun _ d => execFrd 4 d.rd (fun s =>
    let bits1 := s.f32 d.rs1
    let bits2 := s.f32 d.rs2
    f32Out ((bits1 &&& ~~~0x80000000) |||
      ((bits1 ^^^ bits2) &&& 0x80000000)))

def execFMIN_S : ExecFun σ :=
  execFselect 23 F32_NAN State.f32 f32Out (minFirst 23)

def execFMAX_S : ExecFun σ :=
  execFselect 23 F32_NAN State.f32 f32Out (maxFirst 23)

def execFEQ_S : ExecFun σ :=
  execFcmp State.f32 (isSnan 23) (floatEq 23)

def execFLT_S : ExecFun σ :=
  execFcmp State.f32 (isNan 23) (isLess 23)

def execFLE_S : ExecFun σ :=
  execFcmp State.f32 (isNan 23) (isLessEqual 23)

def execFCLASS_S : ExecFun σ :=
  fun _ d => execRd 4 d.rd
    (fun s => floatClass 23 (s.f32 d.rs1))

end RiscvEm

------------------------------------------------------------
-- Conversions And Moves
------------------------------------------------------------

namespace RiscvEm

variable {σ : Type}

/- A `float` converted to an integer. -/
def execFcvtS
    (t : IntTarget)
    (ext : BitVec 64 → BitVec 64) : ExecFun σ :=
  execFcvtToInt t 23 (fun d s => s.f32 d.rs1)
    (fun P src => P.float.widen src) ext

def execFCVT_W_S : ExecFun σ := execFcvtS .int32 sextW
def execFCVT_WU_S : ExecFun σ := execFcvtS .uint32 sextW
def execFCVT_L_S : ExecFun σ := execFcvtS .int64 id
def execFCVT_LU_S : ExecFun σ := execFcvtS .uint64 id

/- An integer converted to a `float`. -/
def execFcvtToS
    (exact : Platform σ → RoundMode → BitVec 64 →
      BitVec 64) : ExecFun σ :=
  fun P d s =>
    withRm P d (exact P s.round (s.gpr d.rs1))
      (fun inter flags s =>
        let (val, flags') := P.float.narrow s.round inter
        let s := s.orFlags (flags ||| flags')
        s.setFpr d.rd (f32Out (P.float.narrow s.round
          (P.float.widen val)).1)) s

def execFCVT_S_W : ExecFun σ :=
  execFcvtToS (fun P r src => P.float.ofInt r (sextW src))

def execFCVT_S_WU : ExecFun σ :=
  execFcvtToS (fun P r src => P.float.ofUInt r (zextW src))

def execFCVT_S_L : ExecFun σ :=
  execFcvtToS (fun P r src => P.float.ofInt r src)

def execFCVT_S_LU : ExecFun σ :=
  execFcvtToS (fun P r src => P.float.ofUInt r src)

def execFMV_X_W : ExecFun σ :=
  fun _ d => execRd 4 d.rd
    (fun s => (s.f32 d.rs1).signExtend 64)

def execFMV_W_X : ExecFun σ :=
  fun _ d => execFrd 4 d.rd
    (fun s => f32Out ((s.gpr d.rs1).setWidth 32))

def execFLW : ExecFun σ :=
  fun P d => execLoad P 4 .Int (fun s => s.gpr d.rs1 + d.imm)
    (fun s val => s.setFpr d.rd (f32Out (val.setWidth 32)))

def execFSW : ExecFun σ :=
  fun P d => execStore P 4 .Int (fun s => s.gpr d.rs1 + d.imm)
    (fun s => (s.f32 d.rs2).setWidth 64)

end RiscvEm
