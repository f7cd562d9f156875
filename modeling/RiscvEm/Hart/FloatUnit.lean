import RiscvEm.Hart.CsrControl

/-
  What an instruction leaves in the floating-point unit: the
  register that it writes, with its value, and `fcsr`.

  One table has a row for every instruction of F and D and
  for the CSR instructions on `fcsr`; one theorem says that
  executing the instruction leaves what its row says.

  Key definitions include:
    * `floatKind`
    * `UnitUpdate`
    * `unitUpdate`

  Key theorems include:
    * `UnitUpdate.Applied.changed_iff`
    * `Op.exec_unit`
-/

------------------------------------------------------------
-- Instructions Of The Unit
------------------------------------------------------------

namespace RiscvEm

variable {σ : Type}

/-
  How an instruction of F or D uses the unit: under a
  rounding mode, by writing it, by reading it, or between a
  register of it and memory.
-/
inductive FloatKind where
  | rounded
  | writes
  | reads
  | load
  | store
  deriving DecidableEq, Repr

def floatKind : Op → Option FloatKind
  | .FMADD_S | .FMSUB_S | .FNMADD_S | .FNMSUB_S | .FADD_S
  | .FSUB_S | .FMUL_S | .FDIV_S | .FSQRT_S | .FCVT_W_S
  | .FCVT_WU_S | .FCVT_L_S | .FCVT_LU_S | .FCVT_S_W
  | .FCVT_S_WU | .FCVT_S_L | .FCVT_S_LU | .FMADD_D
  | .FMSUB_D | .FNMADD_D | .FNMSUB_D | .FADD_D | .FSUB_D
  | .FMUL_D | .FDIV_D | .FSQRT_D | .FCVT_S_D | .FCVT_W_D
  | .FCVT_WU_D | .FCVT_L_D | .FCVT_LU_D | .FCVT_D_W
  | .FCVT_D_WU | .FCVT_D_L | .FCVT_D_LU => some .rounded
  | .FSGNJ_S | .FSGNJN_S | .FSGNJX_S | .FMIN_S | .FMAX_S
  | .FEQ_S | .FLT_S | .FLE_S | .FMV_W_X | .FSGNJ_D
  | .FSGNJN_D | .FSGNJX_D | .FMIN_D | .FMAX_D | .FEQ_D
  | .FLT_D | .FLE_D | .FCVT_D_S | .FMV_D_X => some .writes
  | .FCLASS_S | .FMV_X_W | .FCLASS_D | .FMV_X_D =>
      some .reads
  | .FLW | .FLD | .C_FLD | .C_FLDSP => some .load
  | .FSW | .FSD | .C_FSD | .C_FSDSP => some .store
  | _ => none

/- A CSR instruction on `fcsr` or one of its fields. -/
def FloatCsrInst
    (op : Op)
    (d : InstructionData) : Prop :=
  op ∈ csrOps ∧ State.isFloatCsr d.csr = true

/- The instructions that use the unit. -/
def FloatInst
    (op : Op)
    (d : InstructionData) : Prop :=
  (floatKind op).isSome ∨ FloatCsrInst op d

/- The rounding mode of the instruction is a reserved one. -/
def ReservedRm
    (s : State σ)
    (d : InstructionData) : Prop :=
  (if d.rm = 0b111 then s.hart.fcsr.frm else d.rm) = 0b101 ∨
    (if d.rm = 0b111 then s.hart.fcsr.frm else d.rm) = 0b110

instance
    (s : State σ)
    (d : InstructionData) :
    Decidable (ReservedRm s d) :=
  inferInstanceAs (Decidable (_ ∨ _))

/- The instruction gets no rounding mode. -/
def BadRounding
    (s : State σ)
    (op : Op)
    (d : InstructionData) : Prop :=
  floatKind op = some .rounded ∧ ReservedRm s d

end RiscvEm

------------------------------------------------------------
-- Fields Of `fcsr`
------------------------------------------------------------

namespace RiscvEm

/- Bits inside of a field that was written. -/
theorem getLsbD_setField_inside
    {n : Nat}
    (raw : BitVec 64)
    (lo : Nat)
    (v : BitVec n)
    (i : Nat)
    (hIn : lo ≤ i ∧ i < lo + n)
    (hWidth : i < 64) :
    (setField raw lo v).getLsbD i = v.getLsbD (i - lo) := by
  unfold setField
  have hNot : ¬ i < lo := by omega
  have hLt : i - lo < n := by omega
  simp [hWidth, hNot, hLt]

namespace Fcsr

/- Flags that were written are read. -/
@[simp] theorem fflags_setFflags
    (f : Fcsr)
    (v : BitVec 5) :
    (f.setFflags v).fflags = v := by
  unfold fflags setFflags
  apply BitVec.eq_of_getLsbD_eq
  intro i hi
  rw [BitVec.getLsbD_extractLsb', decide_eq_true hi,
    Bool.true_and,
    getLsbD_setField_inside _ _ _ _ (by omega) (by omega),
    Nat.sub_zero, Nat.zero_add]

/- The rounding mode is beside them. -/
@[simp] theorem frm_setFflags
    (f : Fcsr)
    (v : BitVec 5) :
    (f.setFflags v).frm = f.frm := by
  unfold frm setFflags
  apply BitVec.eq_of_getLsbD_eq
  intro i hi
  simp only [BitVec.getLsbD_extractLsb', hi, decide_true,
    Bool.true_and]
  exact getLsbD_setField f 0 v (5 + i) (Or.inr (by omega))

/- Writing back what the flags are. -/
theorem setFflags_fflags
    (f : Fcsr) :
    f.setFflags f.fflags = f := by
  apply BitVec.eq_of_getLsbD_eq
  intro i hi
  by_cases hFlag : i < 5
  · unfold setFflags fflags
    rw [getLsbD_setField_inside _ _ _ _ (by omega) hi,
      BitVec.getLsbD_extractLsb', Nat.sub_zero,
      decide_eq_true hFlag, Bool.true_and, Nat.zero_add]
  · exact getLsbD_setField f 0 _ i (Or.inr (by omega))

/- `fflags |= flags`. -/
def orFlags
    (f : Fcsr)
    (flags : BitVec 5) : Fcsr :=
  f.setFflags (f.fflags ||| flags)

/- Writing the flags twice. -/
theorem setFflags_setFflags
    (f : Fcsr)
    (v v' : BitVec 5) :
    (f.setFflags v).setFflags v' = f.setFflags v' := by
  apply BitVec.eq_of_getLsbD_eq
  intro i hi
  unfold setFflags
  by_cases hFlag : i < 5
  · rw [getLsbD_setField_inside _ _ _ _ (by omega) hi,
      getLsbD_setField_inside _ _ _ _ (by omega) hi]
  · rw [getLsbD_setField _ 0 _ i (Or.inr (by omega)),
      getLsbD_setField _ 0 _ i (Or.inr (by omega)),
      getLsbD_setField _ 0 _ i (Or.inr (by omega))]

/- Raising no flag changes nothing. -/
theorem orFlags_zero
    (f : Fcsr) :
    f.orFlags 0 = f := by
  have hOr : f.fflags ||| 0 = f.fflags := BitVec.or_zero
  unfold orFlags
  rw [hOr, setFflags_fflags]

/- Raising flags twice is raising them at once. -/
theorem orFlags_orFlags
    (f : Fcsr)
    (v v' : BitVec 5) :
    (f.orFlags v).orFlags v' = f.orFlags (v ||| v') := by
  unfold orFlags
  rw [fflags_setFflags, setFflags_setFflags,
    BitVec.or_assoc]

/- The flags tell what was added to them. -/
theorem orFlags_eq_iff
    (f : Fcsr)
    (v v' : BitVec 5) :
    f.orFlags v = f.orFlags v' ↔
      f.fflags ||| v = f.fflags ||| v' := by
  unfold orFlags
  constructor
  · intro h
    rw [← f.fflags_setFflags (f.fflags ||| v), h,
      fflags_setFflags]
  · intro h
    rw [h]

/- `fflags = (fflags | (1 << 4)) & ~(1 << 0)`. -/
def flagInvalidOnly
    (f : Fcsr) : Fcsr :=
  f.setFflags ((f.fflags ||| 0b10000) &&& ~~~1)

end Fcsr

end RiscvEm

------------------------------------------------------------
-- Updates
------------------------------------------------------------

namespace RiscvEm

variable {σ : Type}

/- The unit changed. -/
def FloatChanged
    (s s' : State σ) : Prop :=
  s'.hart.FPR ≠ s.hart.FPR ∨ s'.hart.fcsr ≠ s.hart.fcsr

/-
  What an instruction leaves in the unit: a register with its
  value, if it writes one, and `fcsr`.
-/
structure UnitUpdate where
  reg : Option (BitVec 5 × BitVec 64)
  fcsr : Fcsr

namespace UnitUpdate

def regs
    (u : UnitUpdate)
    (fpr : BitVec 5 → BitVec 64) : BitVec 5 → BitVec 64 :=
  match u.reg with
  | some (r, v) => Function.update fpr r v
  | none => fpr

/- All of it is in the unit already. -/
def InPlace
    (u : UnitUpdate)
    (s : State σ) : Prop :=
  (∀ w ∈ u.reg, s.fpr w.1 = w.2) ∧ u.fcsr = s.hart.fcsr

/- The state with the update in the unit. -/
def put
    (u : UnitUpdate)
    (s : State σ) : State σ :=
  s.setHart { s.hart with
    FPR := u.regs s.hart.FPR
    fcsr := u.fcsr }

structure Applied
    (u : UnitUpdate)
    (s s' : State σ) : Prop where
  fpr : s'.hart.FPR = u.regs s.hart.FPR
  fcsr : s'.hart.fcsr = u.fcsr

/- Putting an update applies it. -/
theorem put_applied
    {s s₁ : State σ}
    (u : UnitUpdate)
    (hFpr : s₁.hart.FPR = s.hart.FPR) :
    u.Applied s (u.put s₁) :=
  ⟨congrArg u.regs hFpr, rfl⟩

/-
  Writing a register changes it, unless the value is there.
-/
theorem regs_eq_iff
    (u : UnitUpdate)
    (s : State σ) :
    u.regs s.hart.FPR = s.hart.FPR ↔
      ∀ w ∈ u.reg, s.fpr w.1 = w.2 := by
  rcases u with ⟨reg, fcsr⟩
  cases reg with
  | none => exact iff_of_true rfl nofun
  | some w =>
      refine (Function.update_eq_self_iff).trans ?_
      constructor
      · rintro hEq _ ⟨⟩
        exact hEq.symm
      · intro hAll
        exact (hAll w rfl).symm

/- The unit changes unless the update is in place. -/
theorem Applied.changed_iff
    {u : UnitUpdate}
    {s s' : State σ}
    (h : u.Applied s s') :
    FloatChanged s s' ↔ ¬ u.InPlace s := by
  unfold FloatChanged InPlace
  rw [h.fpr, h.fcsr, ← u.regs_eq_iff s, not_and_or]

end UnitUpdate

end RiscvEm

------------------------------------------------------------
-- Families Of Instructions
------------------------------------------------------------

namespace RiscvEm

variable {σ : Type}

/- The operand has no value of the target to round to. -/
def Unrepresentable
    {w : Nat}
    (t : IntTarget)
    (m : Nat)
    (src : BitVec w)
    (exact rounded : BitVec 64) : Prop :=
  isNan m src = true ∨
    (isInf m src = true ∧ src.msb = false) ∨
    isLessEqual 52 t.overDouble exact = true ∨
    (t.isUnsigned = true ∧
      (isLessEqual 52 exact minusOne = true ∨
        (rounded.msb = true ∧
          rounded ≠ 0x8000000000000000))) ∨
    (t.isUnsigned = false ∧
      ((isInf m src = true ∧ src.msb = true) ∨
        isLess 52 exact t.minDouble = true))

instance
    {w : Nat}
    (t : IntTarget)
    (m : Nat)
    (src : BitVec w)
    (exact rounded : BitVec 64) :
    Decidable (Unrepresentable t m src exact rounded) :=
  inferInstanceAs (Decidable
    (_ ∨ _ ∧ _ ∨ _ ∨ _ ∧ (_ ∨ _ ∧ _) ∨ _ ∧ (_ ∧ _ ∨ _)))

/- Nothing is written. -/
def idleUpdate
    (s : State σ) : UnitUpdate :=
  ⟨none, s.hart.fcsr⟩

/- A register is written, and no flag. -/
def frdUpdate
    (s : State σ)
    (rd : BitVec 5)
    (val : BitVec 64) : UnitUpdate :=
  ⟨some (rd, val), s.hart.fcsr⟩

/- A double becomes a single; NaN raises a flag. -/
def castUpdate
    (P : Platform σ)
    (round : RoundMode)
    (rd : BitVec 5)
    (fcsr : Fcsr)
    (val : BitVec 64) : UnitUpdate :=
  if isNan 52 val then
    ⟨some (rd, f32Out F32_NAN), fcsr.orFlags NV⟩
  else
    ⟨some (rd, f32Out (P.float.narrow round val).1), fcsr⟩

/- Nothing is written in a reserved rounding mode. -/
def roundedUpdate
    (P : Platform σ)
    (s : State σ)
    (d : InstructionData)
    (val : BitVec 64)
    (update : BitVec 64 → BitVec 5 → RoundMode → UnitUpdate) :
    UnitUpdate :=
  match rmFunc P s val d.rm with
  | none => idleUpdate s
  | some (inter, flags, s₁) => update inter flags s₁.round

def singleUpdate
    (P : Platform σ)
    (s : State σ)
    (d : InstructionData)
    (res : BitVec 64) : UnitUpdate :=
  roundedUpdate P s d res fun inter flags round =>
    let (val, flags') := P.float.narrow round inter
    castUpdate P round d.rd
      (s.hart.fcsr.orFlags (flags ||| flags'))
      (P.float.widen val)

def doubleUpdate
    (P : Platform σ)
    (s : State σ)
    (d : InstructionData)
    (op : HostFloat → RoundMode → BitVec 64 → BitVec 64 →
      BitVec 64 → BitVec 64 × BitVec 5) : UnitUpdate :=
  roundedUpdate P s d 0 fun _ _ round =>
    let (res, flags) := op P.float round (s.fpr d.rs1)
      (s.fpr d.rs2) (s.fpr d.rs3)
    let fcsr := s.hart.fcsr.orFlags flags
    if isNan 52 res then
      ⟨some (d.rd, F64_NAN), fcsr.orFlags NV⟩
    else
      ⟨some (d.rd, res), fcsr⟩

/- Flags only: of an invalid or of an inexact conversion. -/
def toIntUpdate
    {w : Nat}
    (P : Platform σ)
    (s : State σ)
    (d : InstructionData)
    (t : IntTarget)
    (m : Nat)
    (src : BitVec w)
    (exact : BitVec 64) : UnitUpdate :=
  roundedUpdate P s d exact fun inter _ round =>
    let rounded := P.float.llrint round inter
    ⟨none,
      if Unrepresentable t m src exact rounded then
        s.hart.fcsr.flagInvalidOnly
      else if floatEq 52 (P.float.ofInt round rounded)
          exact then
        s.hart.fcsr
      else
        s.hart.fcsr.orFlags NX⟩

def toSingleUpdate
    (P : Platform σ)
    (s : State σ)
    (d : InstructionData)
    (exact : BitVec 64) : UnitUpdate :=
  roundedUpdate P s d exact fun inter flags round =>
    let (val, flags') := P.float.narrow round inter
    ⟨some (d.rd, f32Out (P.float.narrow round
        (P.float.widen val)).1),
      s.hart.fcsr.orFlags (flags ||| flags')⟩

/- Without the flags of the rounding, or with them. -/
def toDoubleUpdate
    (P : Platform σ)
    (s : State σ)
    (d : InstructionData)
    (flagged : Bool)
    (exact : BitVec 64) : UnitUpdate :=
  roundedUpdate P s d exact fun inter flags _ =>
    ⟨some (d.rd, inter),
      if flagged then s.hart.fcsr.orFlags flags
      else s.hart.fcsr⟩

def narrowUpdate
    (P : Platform σ)
    (s : State σ)
    (d : InstructionData) : UnitUpdate :=
  roundedUpdate P s d (s.fpr d.rs1) fun exact flags round =>
    let fcsr := s.hart.fcsr.orFlags flags
    let res := (P.float.narrow round exact).1
    if isNan 23 res then
      ⟨some (d.rd, f32Out F32_NAN), fcsr.orFlags NV⟩
    else
      ⟨some (d.rd, f32Out res), fcsr⟩

def widenUpdate
    (P : Platform σ)
    (s : State σ)
    (rd : BitVec 5)
    (src : BitVec 32) : UnitUpdate :=
  let res := P.float.widen src
  if isNan 23 src then
    ⟨some (rd, F64_NAN),
      if isSnan 52 res then s.hart.fcsr.orFlags NV
      else s.hart.fcsr⟩
  else
    ⟨some (rd, res), s.hart.fcsr⟩

def selectUpdate
    {w : Nat}
    (m : Nat)
    (canonical : BitVec w)
    (out : BitVec w → BitVec 64)
    (first : BitVec w → BitVec w → Bool)
    (s : State σ)
    (rd : BitVec 5)
    (a b : BitVec w) : UnitUpdate :=
  let (res, invalid) := floatSelect m canonical first a b
  ⟨some (rd, out res),
    if invalid then s.hart.fcsr.orFlags NV
    else s.hart.fcsr⟩

/- A comparison writes nothing, or one flag. -/
def cmpUpdate
    {w : Nat}
    (bad : BitVec w → Bool)
    (s : State σ)
    (a b : BitVec w) : UnitUpdate :=
  if bad a || bad b then
    ⟨none, s.hart.fcsr.orFlags NV⟩
  else
    idleUpdate s

/- Nothing is written by a load that fails. -/
def loadUpdate
    (P : Platform σ)
    (s : State σ)
    (size : MemorySize)
    (addr : BitVec 64)
    (rd : BitVec 5)
    (f : BitVec 64 → BitVec 64) : UnitUpdate :=
  match s.mmioRead P addr size with
  | .ok (m, val, _) =>
      if m.isSuccess then frdUpdate s rd (f val)
      else idleUpdate s
  | .error _ => idleUpdate s

/- In a mode that does not exist nothing is written. -/
def csrUpdate
    (op : Op)
    (d : InstructionData)
    (s : State σ) : UnitUpdate :=
  if csrWrites op d = true ∧ s.hart.mode ≠ .Hypervisor then
    ⟨none, State.writeFloatCsr s.hart.fcsr d.csr
      (csrNewValue op d s)⟩
  else
    idleUpdate s

end RiscvEm

------------------------------------------------------------
-- The Table
------------------------------------------------------------

namespace RiscvEm

variable {σ : Type}

/-
  The arithmetic of single precision on its operands, in the
  double precision of the host.
-/
def singleArith
    (F : HostFloat)
    (r : RoundMode)
    (op : Op)
    (a b c : BitVec 32) : BitVec 64 :=
  let d1 := F.widen a
  let d2 := F.widen b
  let d3 := F.widen c
  match op with
  | .FMADD_S => (F.add r (F.mul r d1 d2).1 d3).1
  | .FMSUB_S => (F.sub r (F.mul r d1 d2).1 d3).1
  | .FNMADD_S => (F.sub r (F.mul r (floatNeg d1) d2).1 d3).1
  | .FNMSUB_S => (F.add r (F.mul r (floatNeg d1) d2).1 d3).1
  | .FADD_S => (F.add r d1 d2).1
  | .FSUB_S => (F.sub r d1 d2).1
  | .FMUL_S => (F.mul r d1 d2).1
  | .FDIV_S => (F.div r d1 d2).1
  | .FSQRT_S => F.sqrtFloat r a
  | _ => 0

/- The arithmetic of double precision. -/
def doubleArith
    (op : Op)
    (F : HostFloat)
    (r : RoundMode)
    (a b c : BitVec 64) : BitVec 64 × BitVec 5 :=
  match op with
  | .FMADD_D => F.fma r a b c
  | .FMSUB_D => F.fma r a b (floatNeg c)
  | .FNMADD_D => F.fma r (floatNeg a) b (floatNeg c)
  | .FNMSUB_D => F.fma r (floatNeg a) b c
  | .FADD_D => F.add r a b
  | .FSUB_D => F.sub r a b
  | .FMUL_D => F.mul r a b
  | .FDIV_D => F.div r a b
  | .FSQRT_D => F.sqrt r a
  | _ => (0, 0)

/- The rows of the instructions that read single precision. -/
def singleRow
    (P : Platform σ)
    (s : State σ)
    (op : Op)
    (d : InstructionData)
    (a b c : BitVec 32) : UnitUpdate :=
  let F := P.float
  match op with
  | .FMADD_S | .FMSUB_S | .FNMADD_S | .FNMSUB_S | .FADD_S
  | .FSUB_S | .FMUL_S | .FDIV_S | .FSQRT_S =>
      singleUpdate P s d (singleArith F s.round op a b c)
  | .FSGNJ_S => castUpdate P s.round d.rd s.hart.fcsr
      (F.widen (copySign a b))
  | .FSGNJN_S => castUpdate P s.round d.rd s.hart.fcsr
      (F.widen (copySign a (floatNeg b)))
  | .FSGNJX_S => frdUpdate s d.rd
      (f32Out ((a &&& ~~~0x80000000) |||
        ((a ^^^ b) &&& 0x80000000)))
  | .FMIN_S =>
      selectUpdate 23 F32_NAN f32Out (minFirst 23) s d.rd a b
  | .FMAX_S =>
      selectUpdate 23 F32_NAN f32Out (maxFirst 23) s d.rd a b
  | .FEQ_S => cmpUpdate (isSnan 23) s a b
  | .FLT_S | .FLE_S => cmpUpdate (isNan 23) s a b
  | .FCVT_W_S => toIntUpdate P s d .int32 23 a (F.widen a)
  | .FCVT_WU_S => toIntUpdate P s d .uint32 23 a (F.widen a)
  | .FCVT_L_S => toIntUpdate P s d .int64 23 a (F.widen a)
  | .FCVT_LU_S => toIntUpdate P s d .uint64 23 a (F.widen a)
  | .FCVT_D_S => widenUpdate P s d.rd a
  | _ => idleUpdate s

def unitUpdate
    (P : Platform σ)
    (s : State σ)
    (op : Op)
    (d : InstructionData) : UnitUpdate :=
  let F := P.float
  let d1 := s.fpr d.rs1
  let d2 := s.fpr d.rs2
  match op with
  | .FMADD_S | .FMSUB_S | .FNMADD_S | .FNMSUB_S | .FADD_S
  | .FSUB_S | .FMUL_S | .FDIV_S | .FSQRT_S | .FSGNJ_S
  | .FSGNJN_S | .FSGNJX_S | .FMIN_S | .FMAX_S | .FEQ_S
  | .FLT_S | .FLE_S | .FCVT_W_S | .FCVT_WU_S | .FCVT_L_S
  | .FCVT_LU_S | .FCLASS_S | .FCVT_D_S =>
      singleRow P s op d (s.f32 d.rs1) (s.f32 d.rs2)
        (s.f32 d.rs3)
  | .FCVT_S_W => toSingleUpdate P s d
      (F.ofInt s.round (sextW (s.gpr d.rs1)))
  | .FCVT_S_WU => toSingleUpdate P s d
      (F.ofUInt s.round (zextW (s.gpr d.rs1)))
  | .FCVT_S_L => toSingleUpdate P s d
      (F.ofInt s.round (s.gpr d.rs1))
  | .FCVT_S_LU => toSingleUpdate P s d
      (F.ofUInt s.round (s.gpr d.rs1))
  | .FMV_W_X => frdUpdate s d.rd
      (f32Out ((s.gpr d.rs1).setWidth 32))
  | .FLW => loadUpdate P s .Int (s.gpr d.rs1 + d.imm) d.rd
      (fun val => f32Out (val.setWidth 32))
  | .FMADD_D | .FMSUB_D | .FNMADD_D | .FNMSUB_D | .FADD_D
  | .FSUB_D | .FMUL_D | .FDIV_D | .FSQRT_D =>
      doubleUpdate P s d (doubleArith op)
  | .FSGNJ_D => frdUpdate s d.rd (copySign d1 d2)
  | .FSGNJN_D => frdUpdate s d.rd (copySign d1 (floatNeg d2))
  | .FSGNJX_D => frdUpdate s d.rd
      ((d1 &&& ~~~0x8000000000000000) |||
        ((d1 ^^^ d2) &&& 0x8000000000000000))
  | .FMIN_D =>
      selectUpdate 52 F64_NAN id (minFirst 52) s d.rd d1 d2
  | .FMAX_D =>
      selectUpdate 52 F64_NAN id (maxFirst 52) s d.rd d1 d2
  | .FEQ_D => cmpUpdate (isSnan 52) s d1 d2
  | .FLT_D | .FLE_D => cmpUpdate (isNan 52) s d1 d2
  | .FCVT_S_D => narrowUpdate P s d
  | .FCVT_W_D => toIntUpdate P s d .int32 52 d1 d1
  | .FCVT_WU_D => toIntUpdate P s d .uint32 52 d1 d1
  | .FCVT_L_D => toIntUpdate P s d .int64 52 d1 d1
  | .FCVT_LU_D => toIntUpdate P s d .uint64 52 d1 d1
  | .FCVT_D_W => toDoubleUpdate P s d false
      (F.ofInt s.round (sextW (s.gpr d.rs1)))
  | .FCVT_D_WU => toDoubleUpdate P s d false
      (F.ofUInt s.round (zextW (s.gpr d.rs1)))
  | .FCVT_D_L => toDoubleUpdate P s d true
      (F.ofInt s.round (s.gpr d.rs1))
  | .FCVT_D_LU => toDoubleUpdate P s d true
      (F.ofUInt s.round (s.gpr d.rs1))
  | .FMV_D_X => frdUpdate s d.rd (s.gpr d.rs1)
  | .FLD => loadUpdate P s .Long (s.gpr d.rs1 + d.imm) d.rd id
  | .C_FLD =>
      loadUpdate P s .Long (s.gpr d.cRs1 + d.imm) d.cRd id
  | .C_FLDSP =>
      loadUpdate P s .Long (s.gpr 2 + d.imm) d.rd id
  | .CSRRW | .CSRRS | .CSRRC | .CSRRWI | .CSRRSI | .CSRRCI =>
      csrUpdate op d s
  | _ => idleUpdate s

end RiscvEm

------------------------------------------------------------
-- Executing Leaves What The Table Says
------------------------------------------------------------

namespace RiscvEm

variable {σ : Type}
variable {P : Platform σ}
variable {op : Op}
variable {d : InstructionData}
variable {s s' : State σ}
variable {out : ExecReturn}

/- Rounding modes are no state of the hart. -/
theorem rmFunc_hart
    {val inter : BitVec 64}
    {rm : BitVec 3}
    {flags : BitVec 5}
    {s₁ : State σ}
    (h : rmFunc P s val rm = some (inter, flags, s₁)) :
    s₁.hart = s.hart := by
  unfold rmFunc at h
  dsimp only at h
  repeat' split at h
  all_goals cases h
  all_goals rfl

/- A write to memory changes the reservation at most. -/
theorem State.mmioWrite_hart
    {addr val : BitVec 64}
    {size : MemorySize}
    {m : MemoryReturn}
    (h : s.mmioWrite P addr size val = .ok (m, s')) :
    s'.hart =
      { s.hart with reservation := s'.hart.reservation } := by
  rcases State.mmioWrite_cases h with
    ⟨-, -, mem, jctx, -, -, rfl⟩ |
    ⟨-, dev, world, mem, -, -, rfl⟩ | ⟨-, rfl⟩
  all_goals rfl

/- What `finalize_fcvt` does to the flags. -/
theorem finalizeFcvt_state
    {w : Nat}
    (P : Platform σ)
    (t : IntTarget)
    (m : Nat)
    (s : State σ)
    (src : BitVec w)
    (exact rounded : BitVec 64) :
    (finalizeFcvt P t m s src exact rounded).2 =
      if Unrepresentable t m src exact rounded then
        s.flagInvalidOnly
      else if floatEq 52 (P.float.ofInt s.round rounded)
          exact then
        s
      else
        s.orFlags NX := by
  unfold finalizeFcvt Unrepresentable
  dsimp only
  repeat' split
  all_goals first
    | rfl
    | grind

/- The mode of the host that a rounding mode stands for. -/
def hostRound
    (rm : BitVec 3) : Option RoundMode :=
  if rm = 0b000 then some .toNearest
  else if rm = 0b001 then some .towardZero
  else if rm = 0b010 then some .downward
  else if rm = 0b011 then some .upward
  else none

/- The state with the mode of the instruction set. -/
def State.rounded
    (s : State σ)
    (rm : BitVec 3) : State σ :=
  match hostRound (if rm = 0b111 then s.hart.fcsr.frm
      else rm) with
  | some r => s.setRound r
  | none => s

/- The value and the flags before it is narrowed. -/
def roundInter
    (P : Platform σ)
    (s : State σ)
    (rm : BitVec 3)
    (val : BitVec 64) : BitVec 64 × BitVec 5 :=
  if (if rm = 0b111 then s.hart.fcsr.frm else rm) = 0b100 then
    P.float.round val
  else
    (val, 0)

/- An instruction that rounds fails in a reserved mode. -/
def roundedOut
    (s : State σ)
    (d : InstructionData) : ExecReturn :=
  if ReservedRm s d then .badRounding d.inst else .next 4

/-
  `rm_func` fails in a reserved mode, and otherwise sets the
  mode of the host.
-/
theorem rmFunc_eq
    (val : BitVec 64) :
    rmFunc P s val d.rm =
      if ReservedRm s d then
        none
      else
        some ((roundInter P s d.rm val).1,
          (roundInter P s d.rm val).2, s.rounded d.rm) := by
  by_cases hReserved : ReservedRm s d
  · rw [if_pos hReserved]
    exact if_pos hReserved
  · rw [if_neg hReserved]
    unfold ReservedRm at hReserved
    unfold rmFunc roundInter State.rounded
    dsimp only
    rw [if_neg hReserved]
    generalize (if d.rm = 0b111 then s.hart.fcsr.frm
      else d.rm) = cmp at hReserved ⊢
    have hAll : cmp = 0 ∨ cmp = 1 ∨ cmp = 2 ∨ cmp = 3 ∨
        cmp = 4 ∨ cmp = 5 ∨ cmp = 6 ∨ cmp = 7 := by
      revert cmp
      decide
    rcases hAll with rfl | rfl | rfl | rfl | rfl | hBad |
      hBad | rfl
    all_goals first
      | rfl
      | exact absurd (Or.inl hBad) hReserved
      | exact absurd (Or.inr hBad) hReserved

/- A reserved mode does not set any. -/
theorem rounded_of_reserved
    (h : ReservedRm s d) :
    s.rounded d.rm = s := by
  unfold State.rounded
  rcases h with hRm | hRm
  · rw [hRm]
    rfl
  · rw [hRm]
    rfl

/- Setting one is not seen in the hart. -/
theorem rounded_hart
    (s : State σ)
    (rm : BitVec 3) :
    (s.rounded rm).hart = s.hart := by
  unfold State.rounded
  split
  · rfl
  · rfl

/- An integer register is written, if there is a value. -/
def State.putInt
    (s : State σ)
    (rd : BitVec 5) : Option (BitVec 64) → State σ
  | some v => s.setGpr rd v
  | none => s

/- A cast puts the single and its flag. -/
theorem setCast_eq_put
    (s : State σ)
    (rd : BitVec 5)
    (val : BitVec 64) :
    setCast P rd s val =
      (castUpdate P s.round rd s.hart.fcsr val).put s := by
  unfold setCast castFloat castUpdate
  by_cases hNan : isNan 52 val = true
  · rw [if_pos hNan, if_pos hNan]
    rfl
  · rw [if_neg hNan, if_neg hNan]
    rfl

/- Sign injection puts the cast's row. -/
theorem execSign_eq_put
    (val : BitVec 64) :
    (.ok (.next 4, setCast P d.rd s val) :
        Except HostFault (ExecReturn × State σ)) =
      .ok (.next 4,
        (castUpdate P s.round d.rd s.hart.fcsr val).put
          s) := by
  rw [setCast_eq_put]

/- Continuing under a rounding mode puts an update. -/
theorem withRm_eq_put
    {val : BitVec 64}
    {update : BitVec 64 → BitVec 5 → RoundMode → UnitUpdate}
    {cont : BitVec 64 → BitVec 5 → State σ → State σ}
    (hCont : ∀ inter flags s₁, s₁.hart = s.hart →
      cont inter flags s₁ =
        (update inter flags s₁.round).put s₁) :
    withRm P d val cont s = .ok (roundedOut s d,
      (roundedUpdate P s d val update).put
        (s.rounded d.rm)) := by
  unfold withRm roundedUpdate roundedOut
  rw [rmFunc_eq]
  by_cases hReserved : ReservedRm s d
  · rw [if_pos hReserved, if_pos hReserved,
      rounded_of_reserved hReserved]
    rfl
  · rw [if_neg hReserved, if_neg hReserved]
    dsimp only
    rw [hCont _ _ _ (rounded_hart s d.rm)]

/- The arithmetic of single precision puts its row. -/
theorem execSingle_eq_put
    {res : Platform σ → State σ → InstructionData →
      BitVec 64} :
    execSingle res P d s = .ok (roundedOut s d,
      (singleUpdate P s d (res P s d)).put
        (s.rounded d.rm)) := by
  refine withRm_eq_put ?_
  intro inter flags s₁ hHart
  rcases P.float.narrow s₁.round inter with ⟨val, flags'⟩
  dsimp only
  rw [setCast_eq_put, ← hHart]
  rfl

/- The arithmetic of double precision puts its row. -/
theorem execDouble_eq_put
    {f : HostFloat → RoundMode → BitVec 64 → BitVec 64 →
      BitVec 64 → BitVec 64 × BitVec 5} :
    execDouble f P d s = .ok (roundedOut s d,
      (doubleUpdate P s d f).put (s.rounded d.rm)) := by
  refine withRm_eq_put ?_
  intro _ _ s₁ hHart
  have hReg : s₁.fpr = s.fpr := by
    unfold State.fpr
    rw [hHart]
  dsimp only [sanitizeNan]
  rw [hReg, ← hHart]
  split
  · rfl
  · rfl

/- Conversions from integers to single precision. -/
theorem execFcvtToS_eq_put
    {exact : Platform σ → RoundMode → BitVec 64 →
      BitVec 64} :
    execFcvtToS exact P d s = .ok (roundedOut s d,
      (toSingleUpdate P s d
        (exact P s.round (s.gpr d.rs1))).put
          (s.rounded d.rm)) := by
  refine withRm_eq_put ?_
  intro inter flags s₁ hHart
  rw [← hHart]
  rfl

/-
  Conversions from integers to double precision put theirs.
-/
theorem execFcvtToD_eq_put
    {exact : HostFloat → RoundMode → BitVec 64 →
      BitVec 64} :
    execFcvtToD exact P d s = .ok (roundedOut s d,
      (toDoubleUpdate P s d false
        (exact P.float s.round (s.gpr d.rs1))).put
          (s.rounded d.rm)) := by
  refine withRm_eq_put ?_
  intro inter _ s₁ hHart
  rw [← hHart]
  rfl

theorem execFcvtToDFlags_eq_put
    {exact : HostFloat → RoundMode → BitVec 64 →
      BitVec 64} :
    execFcvtToDFlags exact P d s = .ok (roundedOut s d,
      (toDoubleUpdate P s d true
        (exact P.float s.round (s.gpr d.rs1))).put
          (s.rounded d.rm)) := by
  refine withRm_eq_put ?_
  intro inter flags s₁ hHart
  rw [← hHart]
  rfl

/- Narrowing puts its row. -/
theorem execFCVT_S_D_eq_put :
    execFCVT_S_D P d s = .ok (roundedOut s d,
      (narrowUpdate P s d).put (s.rounded d.rm)) := by
  refine withRm_eq_put ?_
  intro exact flags s₁ hHart
  rw [← hHart]
  by_cases hNan :
      isNan 23 (P.float.narrow s₁.round exact).1 = true
  · rw [if_pos hNan]
    exact if_pos hNan
  · rw [if_neg hNan]
    exact if_neg hNan

/- Widening puts its row. -/
theorem execFCVT_D_S_eq_put :
    execFCVT_D_S P d s = .ok (.next 4,
      (widenUpdate P s d.rd (s.f32 d.rs1)).put s) := by
  unfold execFCVT_D_S widenUpdate
  dsimp only
  by_cases hNan : isNan 23 (s.f32 d.rs1) = true
  · rw [if_pos hNan, if_pos hNan]
    split
    · rfl
    · rfl
  · rw [if_neg hNan, if_neg hNan]
    rfl

/- Minimum and maximum put theirs. -/
theorem execFselect_eq_put
    {w m : Nat}
    {canonical : BitVec w}
    {src : State σ → BitVec 5 → BitVec w}
    {res : BitVec w → BitVec 64}
    {first : BitVec w → BitVec w → Bool} :
    execFselect m canonical src res first P d s =
      .ok (.next 4,
        (selectUpdate m canonical res first s d.rd
          (src s d.rs1) (src s d.rs2)).put s) := by
  unfold execFselect selectUpdate
  rcases floatSelect m canonical first (src s d.rs1)
    (src s d.rs2) with ⟨val, invalid⟩
  cases invalid
  · rfl
  · rfl

/- The result of a comparison. -/
def cmpValue
    {w : Nat}
    (bad : BitVec w → Bool)
    (cmp : BitVec w → BitVec w → Bool)
    (a b : BitVec w) : BitVec 64 :=
  if bad a || bad b then 0 else ofCond (cmp a b = true)

/- Comparisons put a flag and an integer. -/
theorem execFcmp_eq_put
    {w : Nat}
    {src : State σ → BitVec 5 → BitVec w}
    {bad : BitVec w → Bool}
    {cmp : BitVec w → BitVec w → Bool} :
    execFcmp src bad cmp P d s = .ok (.next 4,
      ((cmpUpdate bad s (src s d.rs1)
        (src s d.rs2)).put s).putInt d.rd
          (some (cmpValue bad cmp (src s d.rs1)
            (src s d.rs2)))) := by
  unfold execFcmp cmpUpdate cmpValue
  dsimp only
  split
  · rfl
  · rfl

/- The result of a conversion; none in a reserved mode. -/
def toIntValue
    {w : Nat}
    (P : Platform σ)
    (s : State σ)
    (d : InstructionData)
    (t : IntTarget)
    (m : Nat)
    (ext : BitVec 64 → BitVec 64)
    (src : BitVec w)
    (exact : BitVec 64) : Option (BitVec 64) :=
  (rmFunc P s exact d.rm).map fun (inter, _, s) =>
    ext (finalizeFcvt P t m s src exact
      (P.float.llrint s.round inter)).1

/- What `finalize_fcvt` does to the flags. -/
theorem finalizeFcvt_eq_put
    {w : Nat}
    (P : Platform σ)
    (t : IntTarget)
    (m : Nat)
    (s : State σ)
    (src : BitVec w)
    (exact rounded : BitVec 64) :
    (finalizeFcvt P t m s src exact rounded).2 =
      UnitUpdate.put ⟨none,
        if Unrepresentable t m src exact rounded then
          s.hart.fcsr.flagInvalidOnly
        else if floatEq 52 (P.float.ofInt s.round rounded)
            exact then
          s.hart.fcsr
        else
          s.hart.fcsr.orFlags NX⟩ s := by
  rw [finalizeFcvt_state]
  split
  · rfl
  · split
    · rfl
    · rfl

/- Conversions put flags and an integer. -/
theorem execFcvtToInt_eq_put
    {w : Nat}
    {t : IntTarget}
    {m : Nat}
    {src : InstructionData → State σ → BitVec w}
    {exact : Platform σ → BitVec w → BitVec 64}
    {ext : BitVec 64 → BitVec 64} :
    execFcvtToInt t m src exact ext P d s =
      .ok (roundedOut s d,
        ((toIntUpdate P s d t m (src d s)
          (exact P (src d s))).put (s.rounded d.rm)).putInt
            d.rd (toIntValue P s d t m ext (src d s)
              (exact P (src d s)))) := by
  unfold execFcvtToInt withRm toIntUpdate roundedUpdate
    toIntValue roundedOut
  dsimp only
  rw [rmFunc_eq]
  by_cases hReserved : ReservedRm s d
  · rw [if_pos hReserved, if_pos hReserved,
      rounded_of_reserved hReserved]
    rfl
  · rw [if_neg hReserved, if_neg hReserved]
    dsimp only [Option.map]
    rw [finalizeFcvt_eq_put, rounded_hart]
    rfl

/- Where there is a result, it has left the update. -/
structure UnitResult
    (u : UnitUpdate)
    (s : State σ)
    (x : Except HostFault (ExecReturn × State σ)) : Prop where
  applied : ∀ out s', x = .ok (out, s') → u.Applied s s'
  fault : ∀ e, x = .error e → u.InPlace s

/- Nothing to put is in place. -/
theorem idleUpdate_inPlace
    (s : State σ) :
    (idleUpdate s).InPlace s :=
  ⟨nofun, rfl⟩

namespace UnitResult

variable {u u' : UnitUpdate}
variable {s₁ : State σ}
variable {x : Except HostFault (ExecReturn × State σ)}

/- A result that applies the update. -/
theorem ok
    (h : u.Applied s s') :
    UnitResult u s (.ok (out, s')) := by
  refine ⟨?_, nofun⟩
  rintro _ _ ⟨⟩
  exact h

/- A result that puts the row has applied it. -/
theorem of_put
    (hExec : x = .ok (out, u'.put s₁))
    (hHart : s₁.hart = s.hart)
    (hRow : u = u') :
    UnitResult u s x := by
  rw [hExec, hRow]
  exact ok (u'.put_applied (by rw [hHart]))

/- A result may put an integer as well. -/
theorem of_putInt
    {rd : BitVec 5}
    {v : Option (BitVec 64)}
    (hExec : x = .ok (out, (u'.put s₁).putInt rd v))
    (hHart : s₁.hart = s.hart)
    (hRow : u = u') :
    UnitResult u s x := by
  rw [hExec, hRow]
  have hPut := u'.put_applied (s := s) (by rw [hHart])
  refine ok ⟨?_, ?_⟩
  · cases v
    · exact hPut.fpr
    · exact hPut.fpr
  · cases v
    · exact hPut.fcsr
    · exact hPut.fcsr

/- Writing an integer register puts nothing. -/
theorem execRd
    {n : BitVec 64}
    {rd : BitVec 5}
    {val : State σ → BitVec 64} :
    UnitResult (idleUpdate s) s (execRd n rd val s) :=
  .ok ⟨rfl, rfl⟩

/- Writing a register of the unit puts it. -/
theorem execFrd
    {n : BitVec 64}
    {rd : BitVec 5}
    {val : State σ → BitVec 64}
    (hRow : u = frdUpdate s rd (val s)) :
    UnitResult u s (execFrd n rd val s) := by
  rw [hRow]
  exact .ok ⟨rfl, rfl⟩

/- A store puts nothing. -/
theorem execStore
    {n : BitVec 64}
    {size : MemorySize}
    {addr val : State σ → BitVec 64} :
    UnitResult (idleUpdate s) s
      (execStore P n size addr val s) := by
  refine ⟨?_, fun _ _ => idleUpdate_inPlace s⟩
  intro out s' h
  rcases bind_eq_ok.mp h with ⟨⟨m, s₁⟩, hWrite, hEq⟩
  cases hEq
  have hHart := State.mmioWrite_hart hWrite
  exact ⟨by rw [hHart]; rfl, by rw [hHart]; rfl⟩

/- A load puts its register unless it fails. -/
theorem execLoad
    {n : BitVec 64}
    {size : MemorySize}
    {addr : State σ → BitVec 64}
    {put : State σ → BitVec 64 → State σ}
    {rd : BitVec 5}
    {f : BitVec 64 → BitVec 64}
    (hPut : ∀ s val, put s val = s.setFpr rd (f val))
    (hRow : u = loadUpdate P s size (addr s) rd f) :
    UnitResult u s (execLoad P n size addr put s) := by
  rw [hRow]
  unfold loadUpdate RiscvEm.execLoad
  cases hRead : s.mmioRead P (addr s) size with
  | error e =>
      refine ⟨?_, fun _ _ => idleUpdate_inPlace s⟩
      intro out s' h
      cases h
  | ok r =>
      rcases r with ⟨m, val, s₁⟩
      have hHart := State.mmioRead_hart hRead
      have hFpr : s₁.hart.FPR = s.hart.FPR := by rw [hHart]
      have hFcsr : s₁.hart.fcsr = s.hart.fcsr := by rw [hHart]
      change UnitResult
        (if m.isSuccess then frdUpdate s rd (f val)
          else idleUpdate s) s
        (.ok (_, if m.isSuccess then put s₁ val else s₁))
      apply ok
      by_cases hOk : m.isSuccess = true
      · rw [if_pos hOk, if_pos hOk, hPut]
        exact ⟨congrArg (Function.update · rd _) hFpr, hFcsr⟩
      · rw [if_neg hOk, if_neg hOk]
        exact ⟨hFpr, hFcsr⟩

end UnitResult

section Dispatch

seal execRd execFrd execLoad execStore execSingle execDouble
  execFcvtToInt execFcvtToS execFcvtToD execFcvtToDFlags
  execFcmp execFselect setCast

/- An instruction of F or D leaves what its row says. -/
theorem Op.exec_unit
    (hFloat : (floatKind op).isSome = true) :
    UnitResult (unitUpdate P s op d) s (op.exec P d s) := by
  have hRounded := rounded_hart s d.rm
  cases op with
  | FMV_X_W | FCLASS_S | FMV_X_D | FCLASS_D =>
      exact UnitResult.execRd
  | FSGNJX_S | FMV_W_X | FSGNJ_D | FSGNJN_D | FSGNJX_D
  | FMV_D_X =>
      exact UnitResult.execFrd rfl
  | FSW | FSD | C_FSD | C_FSDSP =>
      exact UnitResult.execStore
  | FMADD_S | FMSUB_S | FNMADD_S | FNMSUB_S | FADD_S
  | FSUB_S | FMUL_S | FDIV_S | FSQRT_S =>
      exact .of_put execSingle_eq_put hRounded rfl
  | FSGNJ_S | FSGNJN_S =>
      exact .of_put (execSign_eq_put _) rfl rfl
  | FMIN_S | FMAX_S | FMIN_D | FMAX_D =>
      exact .of_put execFselect_eq_put rfl rfl
  | FCVT_S_W | FCVT_S_WU | FCVT_S_L | FCVT_S_LU =>
      exact .of_put execFcvtToS_eq_put hRounded rfl
  | FEQ_S | FLT_S | FLE_S | FEQ_D | FLT_D | FLE_D =>
      exact .of_putInt execFcmp_eq_put rfl rfl
  | FLW | FLD | C_FLD | C_FLDSP =>
      exact UnitResult.execLoad (fun _ _ => rfl) rfl
  | FMADD_D | FMSUB_D | FNMADD_D | FNMSUB_D | FADD_D
  | FSUB_D | FMUL_D | FDIV_D | FSQRT_D =>
      exact .of_put execDouble_eq_put hRounded rfl
  | FCVT_S_D => exact .of_put execFCVT_S_D_eq_put hRounded rfl
  | FCVT_D_S => exact .of_put execFCVT_D_S_eq_put rfl rfl
  | FCVT_D_W | FCVT_D_WU =>
      exact .of_put execFcvtToD_eq_put hRounded rfl
  | FCVT_D_L | FCVT_D_LU =>
      exact .of_put execFcvtToDFlags_eq_put hRounded rfl
  | FCVT_W_S | FCVT_WU_S | FCVT_L_S | FCVT_LU_S | FCVT_W_D
  | FCVT_WU_D | FCVT_L_D | FCVT_LU_D =>
      exact .of_putInt execFcvtToInt_eq_put hRounded rfl
  | _ => cases hFloat

end Dispatch

end RiscvEm
