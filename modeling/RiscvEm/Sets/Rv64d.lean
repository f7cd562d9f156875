import RiscvEm.Sets.Rv64f

/-
  The instructions of RV64D. The rounding mode is set before
  the operation, whose exceptions become flags.
-/

------------------------------------------------------------
-- Arithmetic
------------------------------------------------------------

namespace RiscvEm

variable {σ : Type}

def F64_NAN : BitVec 64 := 0x7FF8000000000000

def sanitizeNan
    (s : State σ)
    (val : BitVec 64) : BitVec 64 × State σ :=
  if isNan 52 val then
    (F64_NAN, s.orFlags NV)
  else
    (val, s)

/- `RM_HANDLE`, the operation, its flags, and the result. -/
def execDouble
    (op : HostFloat → RoundMode → BitVec 64 → BitVec 64 →
      BitVec 64 → BitVec 64 × BitVec 5) : ExecFun σ :=
  fun P d s =>
    withRm P d 0 (fun _ _ s =>
      let (res, flags) := op P.float s.round (s.fpr d.rs1)
        (s.fpr d.rs2) (s.fpr d.rs3)
      let (res, s) := sanitizeNan (s.orFlags flags) res
      s.setFpr d.rd res) s

def execFMADD_D : ExecFun σ :=
  execDouble (fun F r a b c => F.fma r a b c)

def execFMSUB_D : ExecFun σ :=
  execDouble (fun F r a b c => F.fma r a b (floatNeg c))

def execFNMADD_D : ExecFun σ :=
  execDouble (fun F r a b c =>
    F.fma r (floatNeg a) b (floatNeg c))

def execFNMSUB_D : ExecFun σ :=
  execDouble (fun F r a b c => F.fma r (floatNeg a) b c)

def execFADD_D : ExecFun σ :=
  execDouble (fun F r a b _ => F.add r a b)

def execFSUB_D : ExecFun σ :=
  execDouble (fun F r a b _ => F.sub r a b)

def execFMUL_D : ExecFun σ :=
  execDouble (fun F r a b _ => F.mul r a b)

def execFDIV_D : ExecFun σ :=
  execDouble (fun F r a b _ => F.div r a b)

def execFSQRT_D : ExecFun σ :=
  execDouble (fun F r a _ _ => F.sqrt r a)

end RiscvEm

------------------------------------------------------------
-- Signs, Minima And Comparisons
------------------------------------------------------------

namespace RiscvEm

variable {σ : Type}

def execFSGNJ_D : ExecFun σ :=
  fun _ d => execFrd 4 d.rd
    (fun s => copySign (s.fpr d.rs1) (s.fpr d.rs2))

def execFSGNJN_D : ExecFun σ :=
  fun _ d => execFrd 4 d.rd
    (fun s => copySign (s.fpr d.rs1) (floatNeg (s.fpr d.rs2)))

def execFSGNJX_D : ExecFun σ :=
  fun _ d => execFrd 4 d.rd (fun s =>
    let bits1 := s.fpr d.rs1
    let bits2 := s.fpr d.rs2
    (bits1 &&& ~~~0x8000000000000000) |||
      ((bits1 ^^^ bits2) &&& 0x8000000000000000))

def execFMIN_D : ExecFun σ :=
  execFselect 52 F64_NAN State.fpr id (minFirst 52)

def execFMAX_D : ExecFun σ :=
  execFselect 52 F64_NAN State.fpr id (maxFirst 52)

def execFEQ_D : ExecFun σ :=
  execFcmp State.fpr (isSnan 52) (floatEq 52)

def execFLT_D : ExecFun σ :=
  execFcmp State.fpr (isNan 52) (isLess 52)

def execFLE_D : ExecFun σ :=
  execFcmp State.fpr (isNan 52) (isLessEqual 52)

def execFCLASS_D : ExecFun σ :=
  fun _ d => execRd 4 d.rd
    (fun s => floatClass 52 (s.fpr d.rs1))

end RiscvEm

------------------------------------------------------------
-- Conversions And Moves
------------------------------------------------------------

namespace RiscvEm

variable {σ : Type}

def execFCVT_S_D : ExecFun σ :=
  fun P d s =>
    withRm P d (s.fpr d.rs1) (fun exact flags s =>
      let s := s.orFlags flags
      let res := (P.float.narrow s.round exact).1
      if isNan 23 res then
        (s.orFlags NV).setFpr d.rd (f32Out F32_NAN)
      else
        s.setFpr d.rd (f32Out res)) s

def execFCVT_D_S : ExecFun σ :=
  fun P d s =>
    let src := s.f32 d.rs1
    let res := P.float.widen src
    if isNan 23 src then
      let s := if isSnan 52 res then s.orFlags NV else s
      .ok (.next 4, s.setFpr d.rd F64_NAN)
    else
      .ok (.next 4, s.setFpr d.rd res)

/- A `double` converted to an integer. -/
def execFcvtD
    (t : IntTarget)
    (ext : BitVec 64 → BitVec 64) : ExecFun σ :=
  execFcvtToInt t 52 (fun d s => s.fpr d.rs1)
    (fun _ src => src) ext

def execFCVT_W_D : ExecFun σ := execFcvtD .int32 sextW
def execFCVT_WU_D : ExecFun σ := execFcvtD .uint32 sextW
def execFCVT_L_D : ExecFun σ := execFcvtD .int64 id
def execFCVT_LU_D : ExecFun σ := execFcvtD .uint64 id

/- An integer converted to a `double`, without flags. -/
def execFcvtToD
    (exact : HostFloat → RoundMode → BitVec 64 →
      BitVec 64) : ExecFun σ :=
  fun P d s =>
    withRm P d (exact P.float s.round (s.gpr d.rs1))
      (fun exact _ s => s.setFpr d.rd exact) s

/- The same with the flags of the rounding. -/
def execFcvtToDFlags
    (exact : HostFloat → RoundMode → BitVec 64 →
      BitVec 64) : ExecFun σ :=
  fun P d s =>
    withRm P d (exact P.float s.round (s.gpr d.rs1))
      (fun exact flags s =>
        (s.orFlags flags).setFpr d.rd exact) s

def execFCVT_D_W : ExecFun σ :=
  execFcvtToD (fun F r src => F.ofInt r (sextW src))

def execFCVT_D_WU : ExecFun σ :=
  execFcvtToD (fun F r src => F.ofUInt r (zextW src))

def execFCVT_D_L : ExecFun σ :=
  execFcvtToDFlags (fun F r src => F.ofInt r src)

def execFCVT_D_LU : ExecFun σ :=
  execFcvtToDFlags (fun F r src => F.ofUInt r src)

def execFMV_X_D : ExecFun σ :=
  fun _ d => execRd 4 d.rd (fun s => s.fpr d.rs1)

def execFMV_D_X : ExecFun σ :=
  fun _ d => execFrd 4 d.rd (fun s => s.gpr d.rs1)

def execFLD : ExecFun σ :=
  fun P d => execLoad P 4 .Long (fun s => s.gpr d.rs1 + d.imm)
    (fun s val => s.setFpr d.rd val)

def execFSD : ExecFun σ :=
  fun P d => execStore P 4 .Long (fun s => s.gpr d.rs1 + d.imm)
    (fun s => s.fpr d.rs2)

end RiscvEm
