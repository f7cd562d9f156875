import RiscvEm.Sets.SignInjection

/-
  Single precision in registers of 64 bits: results are
  boxed, and an operand that is not boxed is to be read as
  the canonical NaN.

  Key definitions include:
    * `Boxed`
    * `asIf`
    * `NanBoxed`
    * `ReadsAlike`

  Key theorems include `nan_boxing_iff`.
-/

------------------------------------------------------------
-- Boxed Registers
------------------------------------------------------------

namespace RiscvEm

/- The upper half of the register is all ones. -/
def Boxed
    (v : BitVec 64) : Prop :=
  v.extractLsb' 32 32 = BitVec.allOnes 32

instance
    (v : BitVec 64) :
    Decidable (Boxed v) :=
  inferInstanceAs (Decidable (_ = _))

/- The register as it is to be read. -/
def unboxed
    (v : BitVec 64) : BitVec 64 :=
  if Boxed v then v else f32Out F32_NAN

/- What the code writes is boxed. -/
theorem boxed_f32Out
    (x : BitVec 32) :
    Boxed (f32Out x) := by
  have hOnes : ∀ i < 32,
      (0xFFFFFFFF00000000 : BitVec 64).getLsbD (32 + i) =
        true := by decide
  unfold Boxed f32Out
  apply BitVec.eq_of_getLsbD_eq
  intro i hi
  rw [BitVec.getLsbD_extractLsb', BitVec.getLsbD_or,
    hOnes i hi, BitVec.getLsbD_allOnes, decide_eq_true hi]
  rfl

end RiscvEm

------------------------------------------------------------
-- Another Register File
------------------------------------------------------------

namespace RiscvEm

variable {σ : Type}

/- The floating-point registers. -/
abbrev FprFile := BitVec 5 → BitVec 64

namespace State

def withFpr
    (s : State σ)
    (F : FprFile) : State σ :=
  s.setHart { s.hart with FPR := F }

/- Every register as it is to be read. -/
def unboxed
    (s : State σ) : State σ :=
  s.withFpr (fun r => RiscvEm.unboxed (s.fpr r))

end State

/- What the register holds, read as it is to be. -/
def State.reading
    (s : State σ)
    (r : BitVec 5) : BitVec 32 :=
  if Boxed (s.fpr r) then s.f32 r else F32_NAN

/- Reading the file with every register replaced. -/
theorem f32_unboxed
    (s : State σ)
    (r : BitVec 5) :
    s.unboxed.f32 r = s.reading r := by
  change f32In (unboxed (s.fpr r)) = _
  unfold unboxed State.reading
  split
  · rfl
  · exact f32In_f32Out F32_NAN

/- The single-precision operands of an instruction. -/
def singleSources
    (op : Op)
    (d : InstructionData) : List (BitVec 5) :=
  match op with
  | .FMADD_S | .FMSUB_S | .FNMADD_S | .FNMSUB_S =>
      [d.rs1, d.rs2, d.rs3]
  | .FADD_S | .FSUB_S | .FMUL_S | .FDIV_S | .FSGNJ_S
  | .FSGNJN_S | .FSGNJX_S | .FMIN_S | .FMAX_S | .FEQ_S
  | .FLT_S | .FLE_S => [d.rs1, d.rs2]
  | .FSQRT_S | .FCVT_W_S | .FCVT_WU_S | .FCVT_L_S
  | .FCVT_LU_S | .FCLASS_S | .FCVT_D_S => [d.rs1]
  | _ => []

/- The instructions with a single-precision result. -/
def writesSingle : Op → Bool
  | .FMADD_S | .FMSUB_S | .FNMADD_S | .FNMSUB_S | .FADD_S
  | .FSUB_S | .FMUL_S | .FDIV_S | .FSQRT_S | .FSGNJ_S
  | .FSGNJN_S | .FSGNJX_S | .FMIN_S | .FMAX_S | .FCVT_S_W
  | .FCVT_S_WU | .FCVT_S_L | .FCVT_S_LU | .FMV_W_X | .FLW
  | .FCVT_S_D => true
  | _ => false

/- Which of the instructions with operands write the unit. -/
def writesFpr : Op → Bool
  | .FEQ_S | .FLT_S | .FLE_S | .FCVT_W_S | .FCVT_WU_S
  | .FCVT_L_S | .FCVT_LU_S | .FCLASS_S => false
  | _ => true

/-
  The result with the registers of another file, all but the
  one that the instruction wrote.
-/
def asIf
    (op : Op)
    (rd : BitVec 5)
    (F : FprFile)
    (x : Except HostFault (ExecReturn × State σ)) :
    Except HostFault (ExecReturn × State σ) :=
  x.map fun (out, s) =>
    (out, s.withFpr
      (if writesFpr op && out.isSuccess then
        Function.update F rd (s.fpr rd)
      else
        F))

/- The result with `x0` cleared, as the next tick does. -/
def clearX0
    (x : Except HostFault (ExecReturn × State σ)) :
    Except HostFault (ExecReturn × State σ) :=
  x.map fun (out, s) => (out, s.setGpr 0 0)

/-
  Results are boxed, operands are read as they are to be, and
  the two transfers move the low half.
-/
structure NanBoxed
    (P : Platform σ)
    (op : Op)
    (d : InstructionData)
    (s : State σ) : Prop where
  boxed : writesSingle op = true →
    ∀ out s', op.exec P d s = .ok (out, s') →
      Boxed (s'.fpr d.rd) ∨ s'.hart.FPR = s.hart.FPR
  operands : singleSources op d ≠ [] →
    clearX0 (op.exec P d s) = clearX0
      (asIf op d.rd s.hart.FPR (op.exec P d s.unboxed))
  moved : op = .FMV_X_W →
    op.exec P d s = .ok (.next 4,
      s.setGpr d.rd ((f32In (s.fpr d.rs1)).signExtend 64))
  stored : op = .FSW →
    op.exec P d s = (do
      let (out, s) ← s.mmioWrite P (s.gpr d.rs1 + d.imm) .Int
        ((f32In (s.fpr d.rs2)).setWidth 64)
      .ok (.ofMemory 4 out, s))

/- `NV` is the same, or it is set already. -/
def FlagAlike
    (s : State σ)
    (bad bad' : Bool) : Prop :=
  bad = bad' ∨ s.hart.fcsr.fflags.getLsbD 4 = true

def SelectsAlike
    (first : BitVec 32 → BitVec 32 → Bool)
    (s : State σ)
    (a b a' b' : BitVec 32) : Prop :=
  let sel := floatSelect 23 F32_NAN first a b
  let sel' := floatSelect 23 F32_NAN first a' b'
  sel.1 = sel'.1 ∧ FlagAlike s sel.2 sel'.2

def ComparesAlike
    (bad : BitVec 32 → Bool)
    (cmp : BitVec 32 → BitVec 32 → Bool)
    (s : State σ)
    (rd : BitVec 5)
    (a b a' b' : BitVec 32) : Prop :=
  FlagAlike s (bad a || bad b) (bad a' || bad b') ∧
    (rd = 0 ∨ cmpValue bad cmp a b = cmpValue bad cmp a' b')

/- The single that a cast of the host gives, and its flags. -/
def hostCast
    (F : HostFloat)
    (round : RoundMode)
    (x : BitVec 64) : BitVec 32 × BitVec 5 :=
  if isNan 52 x then (F32_NAN, NV)
  else ((F.narrow round x).1, 0)

/- The single that the host rounds a result to. -/
def hostSingle
    (P : Platform σ)
    (s : State σ)
    (d : InstructionData)
    (x : BitVec 64) : BitVec 32 × BitVec 5 :=
  let round := (s.rounded d.rm).round
  let (inter, flags) := roundInter P s d.rm x
  let (y, flags') := P.float.narrow round inter
  let (z, flags'') := hostCast P.float round (P.float.widen y)
  (z, flags ||| flags' ||| flags'')

/- The double that the host widens a single to. -/
def hostDouble
    (F : HostFloat)
    (a : BitVec 32) : BitVec 64 × BitVec 5 :=
  if isNan 23 a then
    (F64_NAN, if isSnan 52 (F.widen a) then NV else 0)
  else
    (F.widen a, 0)

/- The integer that the host converts a single to. -/
def hostInteger
    (P : Platform σ)
    (t : IntTarget)
    (s : State σ)
    (d : InstructionData)
    (a : BitVec 32) : BitVec 64 × State σ :=
  let x := P.float.widen a
  let round := (s.rounded d.rm).round
  finalizeFcvt P t 23 (s.rounded d.rm) a x
    (P.float.llrint round (roundInter P s d.rm x).1)

/- The same value, and the same flags on top of those set. -/
def ValueAlike
    {w : Nat}
    (s : State σ)
    (x x' : BitVec w × BitVec 5) : Prop :=
  x.1 = x'.1 ∧
    s.hart.fcsr.fflags ||| x.2 = s.hart.fcsr.fflags ||| x'.2

/- The same integer where it is kept, and the same flags. -/
def IntegerAlike
    (ext : BitVec 64 → BitVec 64)
    (rd : BitVec 5)
    (x x' : BitVec 64 × State σ) : Prop :=
  x.2.hart.fcsr = x'.2.hart.fcsr ∧
    (rd = 0 ∨ ext x.1 = ext x'.1)

/-
  The low halves of the operands do what the registers, read
  as they are to be, do: by their bits where the instruction
  only looks at these, and otherwise in the arithmetic of the
  host.
-/
def ReadsAlike
    (P : Platform σ)
    (op : Op)
    (d : InstructionData)
    (s : State σ) : Prop :=
  let a := s.f32 d.rs1
  let b := s.f32 d.rs2
  let c := s.f32 d.rs3
  let a' := s.reading d.rs1
  let b' := s.reading d.rs2
  let c' := s.reading d.rs3
  let F := P.float
  match op with
  | .FMADD_S | .FMSUB_S | .FNMADD_S | .FNMSUB_S | .FADD_S
  | .FSUB_S | .FMUL_S | .FDIV_S | .FSQRT_S =>
      ReservedRm s d ∨ ValueAlike s
        (hostSingle P s d (singleArith F s.round op a b c))
        (hostSingle P s d
          (singleArith F s.round op a' b' c'))
  | .FSGNJ_S => ValueAlike s
      (hostCast F s.round (F.widen (copySign a b)))
      (hostCast F s.round (F.widen (copySign a' b')))
  | .FSGNJN_S => ValueAlike s
      (hostCast F s.round (F.widen (copySign a (floatNeg b))))
      (hostCast F s.round
        (F.widen (copySign a' (floatNeg b'))))
  | .FCVT_D_S =>
      ValueAlike s (hostDouble F a) (hostDouble F a')
  | .FSGNJX_S =>
      floatMagnitude a = floatMagnitude a' ∧
        (a.msb ^^ b.msb) = (a'.msb ^^ b'.msb)
  | .FMIN_S => SelectsAlike (minFirst 23) s a b a' b'
  | .FMAX_S => SelectsAlike (maxFirst 23) s a b a' b'
  | .FEQ_S =>
      ComparesAlike (isSnan 23) (floatEq 23) s d.rd a b a' b'
  | .FLT_S =>
      ComparesAlike (isNan 23) (isLess 23) s d.rd a b a' b'
  | .FLE_S =>
      ComparesAlike (isNan 23) (isLessEqual 23) s d.rd a b
        a' b'
  | .FCVT_W_S => ReservedRm s d ∨ IntegerAlike sextW d.rd
      (hostInteger P .int32 s d a)
      (hostInteger P .int32 s d a')
  | .FCVT_WU_S => ReservedRm s d ∨ IntegerAlike sextW d.rd
      (hostInteger P .uint32 s d a)
      (hostInteger P .uint32 s d a')
  | .FCVT_L_S => ReservedRm s d ∨ IntegerAlike id d.rd
      (hostInteger P .int64 s d a)
      (hostInteger P .int64 s d a')
  | .FCVT_LU_S => ReservedRm s d ∨ IntegerAlike id d.rd
      (hostInteger P .uint64 s d a)
      (hostInteger P .uint64 s d a')
  | .FCLASS_S =>
      d.rd = 0 ∨ Boxed (s.fpr d.rs1) ∨
        (isNan 23 a = true ∧ isSnan 23 a = false)
  | _ => True

end RiscvEm

------------------------------------------------------------
-- Results Are Boxed
------------------------------------------------------------

namespace RiscvEm

variable {σ : Type}
variable {P : Platform σ}
variable {op : Op}
variable {d : InstructionData}
variable {s s' : State σ}
variable {out : ExecReturn}

/- A single that is written is boxed. -/
theorem boxed_setFpr
    (s : State σ)
    (rd : BitVec 5)
    (x : BitVec 32) :
    Boxed ((s.setFpr rd (f32Out x)).fpr rd) := by
  change Boxed (Function.update s.hart.FPR rd _ rd)
  rw [Function.update_self]
  exact boxed_f32Out x

/- The register written is boxed, if one is written. -/
def BoxedResult
    (rd : BitVec 5)
    (s : State σ)
    (x : Except HostFault (ExecReturn × State σ)) : Prop :=
  ∀ out s', x = .ok (out, s') →
    Boxed (s'.fpr rd) ∨ s'.hart.FPR = s.hart.FPR

namespace BoxedResult

variable {rd : BitVec 5}

/- A result that writes a single is boxed. -/
theorem written
    (s₁ : State σ)
    (x : BitVec 32) :
    BoxedResult rd s
      (.ok (out, s₁.setFpr rd (f32Out x))) := by
  rintro _ _ ⟨⟩
  exact Or.inl (boxed_setFpr s₁ rd x)

/- A result that writes one after rounding is boxed. -/
theorem withRm
    {val : BitVec 64}
    {cont : BitVec 64 → BitVec 5 → State σ → State σ}
    (hCont : ∀ inter flags s₁,
      ∃ (s₂ : State σ) (x : BitVec 32),
        cont inter flags s₁ = s₂.setFpr rd (f32Out x)) :
    BoxedResult rd s (withRm P d val cont s) := by
  unfold RiscvEm.withRm
  split
  case h_1 =>
    rintro _ _ ⟨⟩
    exact Or.inr rfl
  case h_2 inter flags s₁ hSome =>
    rcases hCont inter flags s₁ with ⟨s₂, x, hEq⟩
    rw [hEq]
    exact written s₂ x

/- A load, whether it fails or not. -/
theorem execLoad
    {n : BitVec 64}
    {size : MemorySize}
    {addr : State σ → BitVec 64}
    {f : BitVec 64 → BitVec 32} :
    BoxedResult rd s (execLoad P n size addr
      (fun s val => s.setFpr rd (f32Out (f val))) s) := by
  intro out s' h
  rcases bind_eq_ok.mp h with ⟨⟨m, val, s₁⟩, hRead, hEq⟩
  cases hEq
  split
  · exact Or.inl (boxed_setFpr s₁ rd (f val))
  · exact Or.inr (by rw [State.mmioRead_hart hRead])

end BoxedResult

/- A cast writes a single. -/
theorem setCast_boxed
    (rd : BitVec 5)
    (s : State σ)
    (val : BitVec 64) :
    ∃ (s₂ : State σ) (x : BitVec 32),
      setCast P rd s val = s₂.setFpr rd (f32Out x) :=
  ⟨_, _, rfl⟩

/- The arithmetic leaves boxed singles. -/
theorem execSingle_boxed
    {res : Platform σ → State σ → InstructionData →
      BitVec 64} :
    BoxedResult d.rd s (execSingle res P d s) :=
  .withRm fun _ _ _ => setCast_boxed _ _ _

/- Conversions from integers. -/
theorem execFcvtToS_boxed
    {exact : Platform σ → RoundMode → BitVec 64 →
      BitVec 64} :
    BoxedResult d.rd s (execFcvtToS exact P d s) :=
  .withRm fun _ _ _ => ⟨_, _, rfl⟩

/- Narrowing leaves boxed singles. -/
theorem execFCVT_S_D_boxed :
    BoxedResult d.rd s (execFCVT_S_D P d s) := by
  refine .withRm fun exact flags s => ?_
  dsimp only
  split
  · exact ⟨_, _, rfl⟩
  · exact ⟨_, _, rfl⟩

/- Moves of bits leave boxed singles. -/
theorem execFrd_boxed
    {n : BitVec 64}
    (val : State σ → BitVec 32) :
    BoxedResult d.rd s
      (execFrd n d.rd (fun s => f32Out (val s)) s) :=
  .written s (val s)

/- Minimum and maximum leave boxed singles. -/
theorem execFselect_boxed
    {m : Nat}
    {canonical : BitVec 32}
    {src : State σ → BitVec 5 → BitVec 32}
    {first : BitVec 32 → BitVec 32 → Bool} :
    BoxedResult d.rd s
      (execFselect m canonical src f32Out first P d s) :=
  .written _ _

/- Sign injection leaves boxed singles. -/
theorem execSign_boxed
    (val : BitVec 64) :
    BoxedResult d.rd s (.ok (.next 4, setCast P d.rd s val)) := by
  rcases setCast_boxed (P := P) d.rd s val with ⟨s₂, x, hEq⟩
  rw [hEq]
  exact .written s₂ x

section Dispatch

seal execRd execFrd execLoad execStore execSingle execDouble
  execFcvtToInt execFcvtToS execFcvtToD execFcvtToDFlags
  execFcmp execFselect setCast

/- Whatever the instruction is. -/
theorem Op.exec_boxed
    (hWrites : writesSingle op = true) :
    BoxedResult d.rd s (op.exec P d s) := by
  cases op with
  | FMADD_S | FMSUB_S | FNMADD_S | FNMSUB_S | FADD_S
  | FSUB_S | FMUL_S | FDIV_S | FSQRT_S =>
      exact execSingle_boxed
  | FSGNJ_S | FSGNJN_S => exact execSign_boxed _
  | FSGNJX_S =>
      exact execFrd_boxed (fun s =>
        (s.f32 d.rs1 &&& ~~~0x80000000) |||
          ((s.f32 d.rs1 ^^^ s.f32 d.rs2) &&& 0x80000000))
  | FMV_W_X =>
      exact execFrd_boxed (fun s => (s.gpr d.rs1).setWidth 32)
  | FMIN_S | FMAX_S => exact execFselect_boxed
  | FCVT_S_W | FCVT_S_WU | FCVT_S_L | FCVT_S_LU =>
      exact execFcvtToS_boxed
  | FLW =>
      exact BoxedResult.execLoad
        (f := fun val => val.setWidth 32)
  | FCVT_S_D => exact execFCVT_S_D_boxed
  | _ => cases hWrites

end Dispatch

end RiscvEm

------------------------------------------------------------
-- Rows Of Both Readings
------------------------------------------------------------

namespace RiscvEm

variable {σ : Type}
variable {P : Platform σ}
variable {op : Op}
variable {d : InstructionData}
variable {s : State σ}
variable {F : FprFile}

/- What the instruction writes to an integer register. -/
def intRow
    (P : Platform σ)
    (s : State σ)
    (op : Op)
    (d : InstructionData)
    (a b : BitVec 32) : Option (BitVec 64) :=
  let x := P.float.widen a
  match op with
  | .FEQ_S => some (cmpValue (isSnan 23) (floatEq 23) a b)
  | .FLT_S => some (cmpValue (isNan 23) (isLess 23) a b)
  | .FLE_S =>
      some (cmpValue (isNan 23) (isLessEqual 23) a b)
  | .FCLASS_S => some (floatClass 23 a)
  | .FCVT_W_S => toIntValue P s d .int32 23 sextW a x
  | .FCVT_WU_S => toIntValue P s d .uint32 23 sextW a x
  | .FCVT_L_S => toIntValue P s d .int64 23 id a x
  | .FCVT_LU_S => toIntValue P s d .uint64 23 id a x
  | _ => none

/- Where a mode is set, and what is returned. -/
def State.roundedFor
    (s : State σ)
    (op : Op)
    (d : InstructionData) : State σ :=
  if floatKind op = some .rounded then s.rounded d.rm else s

def outcome
    (s : State σ)
    (op : Op)
    (d : InstructionData) : ExecReturn :=
  if floatKind op = some .rounded then roundedOut s d
  else .next 4

/- The state that the operands lead to. -/
def singleNext
    (P : Platform σ)
    (s : State σ)
    (op : Op)
    (d : InstructionData)
    (a b c : BitVec 32) : State σ :=
  ((singleRow P s op d a b c).put
    (s.roundedFor op d)).putInt d.rd (intRow P s op d a b)

/- A move of bits puts its row. -/
theorem execFrd_eq_put
    {val : State σ → BitVec 64} :
    execFrd 4 d.rd val s =
      .ok (.next 4, (frdUpdate s d.rd (val s)).put s) :=
  rfl

/- A move to an integer register is an empty row. -/
theorem execRd_eq_put
    {val : State σ → BitVec 64} :
    execRd 4 d.rd val s = .ok (.next 4,
      ((idleUpdate s).put s).putInt d.rd (some (val s))) :=
  rfl

section Dispatch

seal execRd execFrd execLoad execStore execSingle execDouble
  execFcvtToInt execFcvtToS execFcvtToD execFcvtToDFlags
  execFcmp execFselect setCast

/- The instruction leaves what its rows say. -/
theorem Op.exec_single
    (hOp : singleSources op d ≠ []) :
    op.exec P d s = .ok (outcome s op d,
      singleNext P s op d (s.f32 d.rs1) (s.f32 d.rs2)
        (s.f32 d.rs3)) := by
  cases op with
  | FMADD_S | FMSUB_S | FNMADD_S | FNMSUB_S | FADD_S
  | FSUB_S | FMUL_S | FDIV_S | FSQRT_S =>
      exact execSingle_eq_put
  | FSGNJ_S | FSGNJN_S => exact execSign_eq_put _
  | FSGNJX_S => exact execFrd_eq_put
  | FMIN_S | FMAX_S => exact execFselect_eq_put
  | FEQ_S | FLT_S | FLE_S => exact execFcmp_eq_put
  | FCVT_W_S | FCVT_WU_S | FCVT_L_S | FCVT_LU_S =>
      exact execFcvtToInt_eq_put
  | FCLASS_S => exact execRd_eq_put
  | FCVT_D_S => exact execFCVT_D_S_eq_put
  | _ => exact absurd rfl hOp

end Dispatch

/- Setting the mode does not look at the registers. -/
theorem rounded_withFpr
    (s : State σ)
    (F : FprFile)
    (rm : BitVec 3) :
    (s.withFpr F).rounded rm = (s.rounded rm).withFpr F := by
  unfold State.rounded
  dsimp only [State.withFpr, State.setHart]
  split
  · rfl
  · rfl

/- Rounding does not look at the registers. -/
theorem rmFunc_withFpr
    (s : State σ)
    (F : FprFile)
    (val : BitVec 64) :
    rmFunc P (s.withFpr F) val d.rm =
      (rmFunc P s val d.rm).map
        (fun x => (x.1, x.2.1, x.2.2.withFpr F)) := by
  rw [rmFunc_eq, rmFunc_eq, rounded_withFpr]
  by_cases hReserved : ReservedRm s d
  · rw [if_pos hReserved]
    exact if_pos hReserved
  · rw [if_neg hReserved]
    exact if_neg hReserved

/- The rows look at the operands, not at the registers. -/
theorem roundedUpdate_withFpr
    {val : BitVec 64}
    {update : BitVec 64 → BitVec 5 → RoundMode →
      UnitUpdate} :
    roundedUpdate P (s.withFpr F) d val update =
      roundedUpdate P s d val update := by
  unfold roundedUpdate
  rw [rmFunc_withFpr]
  cases rmFunc P s val d.rm with
  | none => rfl
  | some _ => rfl

/- `finalize_fcvt` does not look at them. -/
theorem finalizeFcvt_withFpr
    {w : Nat}
    (t : IntTarget)
    (m : Nat)
    (s : State σ)
    (F : FprFile)
    (src : BitVec w)
    (exact rounded : BitVec 64) :
    (finalizeFcvt P t m (s.withFpr F) src exact rounded).1 =
      (finalizeFcvt P t m s src exact rounded).1 := by
  unfold finalizeFcvt
  dsimp only
  repeat' split
  all_goals rfl

/- The integer that comes of it does not depend on them. -/
theorem toIntValue_withFpr
    {t : IntTarget}
    {ext : BitVec 64 → BitVec 64}
    {a : BitVec 32}
    {x : BitVec 64} :
    toIntValue P (s.withFpr F) d t 23 ext a x =
      toIntValue P s d t 23 ext a x := by
  unfold toIntValue
  rw [rmFunc_withFpr]
  cases rmFunc P s x d.rm with
  | none => rfl
  | some r =>
      refine congrArg (fun v => some (ext v)) ?_
      exact finalizeFcvt_withFpr t 23 r.2.2 F a x _

theorem singleUpdate_withFpr
    (res : BitVec 64) :
    singleUpdate P (s.withFpr F) d res =
      singleUpdate P s d res :=
  roundedUpdate_withFpr

theorem toIntUpdate_withFpr
    (t : IntTarget)
    (a : BitVec 32)
    (x : BitVec 64) :
    toIntUpdate P (s.withFpr F) d t 23 a x =
      toIntUpdate P s d t 23 a x :=
  roundedUpdate_withFpr

/- The row of an instruction does not depend on them. -/
theorem singleRow_withFpr
    (a b c : BitVec 32) :
    singleRow P (s.withFpr F) op d a b c =
      singleRow P s op d a b c := by
  cases op with
  | FMADD_S | FMSUB_S | FNMADD_S | FNMSUB_S | FADD_S
  | FSUB_S | FMUL_S | FDIV_S | FSQRT_S =>
      exact singleUpdate_withFpr _
  | FCVT_W_S | FCVT_WU_S | FCVT_L_S | FCVT_LU_S =>
      exact toIntUpdate_withFpr _ _ _
  | _ => rfl

/- The integer of an instruction does not depend on them. -/
theorem intRow_withFpr
    (a b : BitVec 32) :
    intRow P (s.withFpr F) op d a b = intRow P s op d a b := by
  cases op with
  | FCVT_W_S | FCVT_WU_S | FCVT_L_S | FCVT_LU_S =>
      exact toIntValue_withFpr
  | _ => rfl

theorem roundedFor_withFpr
    (s : State σ)
    (F : FprFile) :
    (s.withFpr F).roundedFor op d =
      (s.roundedFor op d).withFpr F := by
  unfold State.roundedFor
  split
  · exact rounded_withFpr s F d.rm
  · rfl

end RiscvEm

------------------------------------------------------------
-- When Both Readings Do The Same
------------------------------------------------------------

namespace RiscvEm

variable {σ : Type}
variable {P : Platform σ}
variable {op : Op}
variable {d : InstructionData}
variable {s s₁ : State σ}
variable {F : FprFile}
variable {a b c a' b' c' : BitVec 32}

/- Setting the mode is not seen in the hart. -/
theorem roundedFor_hart
    (s : State σ)
    (op : Op)
    (d : InstructionData) :
    (s.roundedFor op d).hart = s.hart := by
  unfold State.roundedFor
  split
  · exact rounded_hart s d.rm
  · rfl

/- The register of the row: `rd`, or none. -/
def RowShape
    (op : Op)
    (d : InstructionData)
    (out : ExecReturn)
    (u : UnitUpdate) : Prop :=
  if writesFpr op && out.isSuccess then
    ∃ v, u.reg = some (d.rd, v)
  else
    u.reg = none

/- A cast writes `rd`. -/
theorem castUpdate_reg
    (r : RoundMode)
    (rd : BitVec 5)
    (fcsr : Fcsr)
    (val : BitVec 64) :
    ∃ v, (castUpdate P r rd fcsr val).reg = some (rd, v) := by
  unfold castUpdate
  split
  · exact ⟨_, rfl⟩
  · exact ⟨_, rfl⟩

/- Arithmetic writes it unless the mode is reserved. -/
theorem singleUpdate_shape
    (hOp : writesFpr op = true)
    (res : BitVec 64) :
    RowShape op d (roundedOut s d)
      (singleUpdate P s d res) := by
  unfold RowShape roundedOut singleUpdate roundedUpdate
  rw [rmFunc_eq, hOp]
  by_cases hReserved : ReservedRm s d
  · rw [if_pos hReserved, if_pos hReserved]
    rfl
  · rw [if_neg hReserved, if_neg hReserved]
    exact castUpdate_reg _ _ _ _

/- A conversion to an integer writes flags only. -/
theorem toIntUpdate_reg
    (t : IntTarget)
    (x : BitVec 64) :
    (toIntUpdate P s d t 23 a x).reg = none := by
  unfold toIntUpdate roundedUpdate
  split
  · rfl
  · rfl

/- A comparison writes flags only. -/
theorem cmpUpdate_reg
    (bad : BitVec 32 → Bool) :
    (cmpUpdate bad s a b).reg = none := by
  unfold cmpUpdate
  split
  · rfl
  · rfl

/- Widening writes `rd`. -/
theorem widenUpdate_reg :
    ∃ v, (widenUpdate P s d.rd a).reg = some (d.rd, v) := by
  unfold widenUpdate
  dsimp only
  split
  · exact ⟨_, rfl⟩
  · exact ⟨_, rfl⟩

/- Every row is of the shape of its instruction. -/
theorem singleRow_shape
    (hOp : singleSources op d ≠ []) :
    RowShape op d (outcome s op d)
      (singleRow P s op d a b c) := by
  cases op with
  | FMADD_S | FMSUB_S | FNMADD_S | FNMSUB_S | FADD_S
  | FSUB_S | FMUL_S | FDIV_S | FSQRT_S =>
      exact singleUpdate_shape rfl _
  | FSGNJ_S | FSGNJN_S => exact castUpdate_reg _ _ _ _
  | FSGNJX_S | FMIN_S | FMAX_S => exact ⟨_, rfl⟩
  | FCVT_D_S => exact widenUpdate_reg
  | FEQ_S | FLT_S | FLE_S => exact cmpUpdate_reg _
  | FCVT_W_S | FCVT_WU_S | FCVT_L_S | FCVT_LU_S =>
      exact toIntUpdate_reg _ _
  | FCLASS_S => rfl
  | _ => exact absurd rfl hOp

/- Exchanging the other registers before or after. -/
theorem withFpr_put
    (s₁ : State σ)
    (F : FprFile)
    {out : ExecReturn}
    {u : UnitUpdate}
    (hShape : RowShape op d out u)
    (v : Option (BitVec 64)) :
    let s' := (u.put (s₁.withFpr F)).putInt d.rd v
    s'.withFpr
      (if writesFpr op && out.isSuccess then
        Function.update s₁.hart.FPR d.rd (s'.fpr d.rd)
      else
        s₁.hart.FPR) =
      (u.put s₁).putInt d.rd v := by
  intro s'
  rcases u with ⟨reg, fcsr⟩
  unfold RowShape at hShape
  by_cases hWrites : (writesFpr op && out.isSuccess) = true
  · rw [if_pos hWrites] at hShape ⊢
    rcases hShape with ⟨w, rfl⟩
    have hVal : s'.fpr d.rd = w := by
      cases v
      · exact Function.update_self d.rd w F
      · exact Function.update_self d.rd w F
    rw [hVal]
    cases v
    · rfl
    · rfl
  · rw [if_neg hWrites] at hShape ⊢
    cases hShape
    cases v
    · rfl
    · rfl

/- As if: the rows of the other readings. -/
theorem asIf_exec
    (hOp : singleSources op d ≠ []) :
    asIf op d.rd s.hart.FPR (op.exec P d s.unboxed) =
      .ok (outcome s op d, singleNext P s op d
        (s.reading d.rs1) (s.reading d.rs2)
        (s.reading d.rs3)) := by
  have hOut : outcome s.unboxed op d = outcome s op d := rfl
  have hHart := roundedFor_hart s op d
  rw [Op.exec_single hOp, hOut, f32_unboxed, f32_unboxed,
    f32_unboxed]
  unfold singleNext State.unboxed
  rw [singleRow_withFpr, intRow_withFpr, roundedFor_withFpr]
  have hPut := withFpr_put (s.roundedFor op d)
    (fun r => unboxed (s.fpr r))
    (@singleRow_shape σ P op d s (s.reading d.rs1)
      (s.reading d.rs2) (s.reading d.rs3) hOp)
    (intRow P s op d (s.reading d.rs1) (s.reading d.rs2))
  rw [hHart] at hPut
  exact congrArg (fun s' : State σ =>
    (Except.ok (outcome s op d, s') :
      Except HostFault (ExecReturn × State σ))) hPut

/- An integer is not written to the unit. -/
theorem putInt_fpr
    (rd : BitVec 5)
    (v : Option (BitVec 64)) :
    (s.putInt rd v).hart.FPR = s.hart.FPR := by
  cases v
  · rfl
  · rfl

theorem putInt_fcsr
    (rd : BitVec 5)
    (v : Option (BitVec 64)) :
    (s.putInt rd v).hart.fcsr = s.hart.fcsr := by
  cases v
  · rfl
  · rfl

/- Rows of one shape write the same only if they are equal. -/
theorem RowShape.unique
    {out : ExecReturn}
    {u u' : UnitUpdate}
    (hShape : RowShape op d out u)
    (hShape' : RowShape op d out u')
    {fpr : FprFile}
    (hRegs : u.regs fpr = u'.regs fpr)
    (hFcsr : u.fcsr = u'.fcsr) :
    u = u' := by
  rcases u with ⟨reg, fcsr⟩
  rcases u' with ⟨reg', fcsr'⟩
  unfold RowShape at hShape hShape'
  refine UnitUpdate.mk.injEq .. ▸ ⟨?_, hFcsr⟩
  by_cases hWrites : (writesFpr op && out.isSuccess) = true
  · rw [if_pos hWrites] at hShape hShape'
    rcases hShape with ⟨v, rfl⟩
    rcases hShape' with ⟨v', rfl⟩
    have hVal := congrFun hRegs d.rd
    change Function.update fpr d.rd v d.rd =
      Function.update fpr d.rd v' d.rd at hVal
    rw [Function.update_self, Function.update_self] at hVal
    rw [hVal]
  · rw [if_neg hWrites] at hShape hShape'
    exact hShape.trans hShape'.symm

/- Results agree if the rows do, `x0` apart. -/
theorem put_clear_iff
    {out : ExecReturn}
    {u u' : UnitUpdate}
    {v v' : Option (BitVec 64)}
    (hShape : RowShape op d out u)
    (hShape' : RowShape op d out u')
    (hInt : v.isSome = v'.isSome) :
    ((u.put s).putInt d.rd v).setGpr 0 0 =
        ((u'.put s).putInt d.rd v').setGpr 0 0 ↔
      u = u' ∧ (d.rd = 0 ∨ v = v') := by
  constructor
  · intro h
    have hFcsr := congrArg (fun s => s.hart.fcsr) h
    have hFpr := congrArg (fun s => s.hart.FPR) h
    have hGpr := congrArg (fun s => s.gpr d.rd) h
    change (State.putInt _ _ _).hart.fcsr =
      (State.putInt _ _ _).hart.fcsr at hFcsr
    change (State.putInt _ _ _).hart.FPR =
      (State.putInt _ _ _).hart.FPR at hFpr
    rw [putInt_fcsr, putInt_fcsr] at hFcsr
    rw [putInt_fpr, putInt_fpr] at hFpr
    refine ⟨hShape.unique hShape' hFpr hFcsr, ?_⟩
    by_cases hRd : d.rd = 0
    · exact Or.inl hRd
    · refine Or.inr ?_
      cases v with
      | none =>
          exact (Option.isNone_iff_eq_none.mp
            (by simpa using hInt)).symm
      | some i =>
          rcases Option.isSome_iff_exists.mp hInt.symm with
            ⟨i', rfl⟩
          change Function.update
              (Function.update s.hart.GPR d.rd i) 0 0 d.rd =
            Function.update
              (Function.update s.hart.GPR d.rd i') 0 0 d.rd
            at hGpr
          rw [Function.update_of_ne hRd,
            Function.update_of_ne hRd, Function.update_self,
            Function.update_self] at hGpr
          rw [hGpr]
  · rintro ⟨rfl, hRd | rfl⟩
    · cases v with
      | none =>
          cases v' with
          | none => rfl
          | some _ => cases hInt
      | some i =>
          rcases Option.isSome_iff_exists.mp hInt.symm with
            ⟨i', rfl⟩
          change ((u.put s).setGpr d.rd i).setGpr 0 0 =
            ((u.put s).setGpr d.rd i').setGpr 0 0
          rw [hRd]
          unfold State.setGpr State.setHart
          dsimp only
          rw [Function.update_idem, Function.update_idem]
    · rfl

/- Both readings give an integer, or none does. -/
theorem intRow_isSome :
    (intRow P s op d a b).isSome =
      (intRow P s op d a' b').isSome := by
  have hInt : ∀ t ext x x',
      (toIntValue P s d t 23 ext a x).isSome =
        (toIntValue P s d t 23 ext a' x').isSome := by
    intro t ext x x'
    unfold toIntValue
    rw [rmFunc_eq, rmFunc_eq]
    split
    · rfl
    · rfl
  cases op with
  | FCVT_W_S | FCVT_WU_S | FCVT_L_S | FCVT_LU_S =>
      exact hInt _ _ _ _
  | _ => rfl

/- The operands are read as they are to be if the rows agree. -/
theorem operands_iff
    (hOp : singleSources op d ≠ []) :
    clearX0 (op.exec P d s) = clearX0
        (asIf op d.rd s.hart.FPR (op.exec P d s.unboxed)) ↔
      singleRow P s op d (s.f32 d.rs1) (s.f32 d.rs2)
          (s.f32 d.rs3) =
        singleRow P s op d (s.reading d.rs1)
          (s.reading d.rs2) (s.reading d.rs3) ∧
      (d.rd = 0 ∨
        intRow P s op d (s.f32 d.rs1) (s.f32 d.rs2) =
          intRow P s op d (s.reading d.rs1)
            (s.reading d.rs2)) := by
  rw [asIf_exec hOp, Op.exec_single hOp]
  refine Iff.trans ?_ (put_clear_iff
    (s := s.roundedFor op d) (singleRow_shape hOp)
    (singleRow_shape hOp) intRow_isSome)
  constructor
  · intro h
    exact (Prod.mk.inj (Except.ok.inj h)).2
  · intro h
    exact congrArg (fun s' : State σ =>
      (Except.ok (outcome s op d, s') :
        Except HostFault (ExecReturn × State σ))) h

/- Two updates of one register. -/
theorem update_inj
    {rd : BitVec 5}
    {x x' : BitVec 64}
    {f f' : Fcsr} :
    (⟨some (rd, x), f⟩ : UnitUpdate) = ⟨some (rd, x'), f'⟩ ↔
      x = x' ∧ f = f' := by
  rw [UnitUpdate.mk.injEq, Option.some.injEq, Prod.mk.injEq]
  exact and_congr_left' (and_iff_right rfl)

/- Raising `NV` for one of two reasons. -/
theorem flag_iff
    (bad bad' : Bool) :
    (if bad then s.hart.fcsr.orFlags NV else s.hart.fcsr) =
        (if bad' then s.hart.fcsr.orFlags NV
          else s.hart.fcsr) ↔
      FlagAlike s bad bad' := by
  have hSet := Fcsr.orFlags_eq_self_iff s.hart.fcsr
  unfold FlagAlike
  cases bad <;> cases bad'
  · exact iff_of_true rfl (Or.inl rfl)
  · exact (eq_comm.trans hSet).trans (by simp)
  · exact hSet.trans (by simp)
  · exact iff_of_true rfl (Or.inl rfl)

/- Selections agree in the operand and in the flag. -/
theorem selectUpdate_iff
    (first : BitVec 32 → BitVec 32 → Bool) :
    selectUpdate 23 F32_NAN f32Out first s d.rd a b =
        selectUpdate 23 F32_NAN f32Out first s d.rd a' b' ↔
      SelectsAlike first s a b a' b' := by
  unfold selectUpdate SelectsAlike
  rcases floatSelect 23 F32_NAN first a b with ⟨x, bad⟩
  rcases floatSelect 23 F32_NAN first a' b' with ⟨x', bad'⟩
  dsimp only
  rw [update_inj, f32Out_inj, flag_iff]

/- Comparisons agree in the flag. -/
theorem cmpUpdate_iff
    (bad : BitVec 32 → Bool) :
    cmpUpdate bad s a b = cmpUpdate bad s a' b' ↔
      FlagAlike s (bad a || bad b) (bad a' || bad b') := by
  have hRow : ∀ x y, cmpUpdate bad s x y =
      ⟨none, if bad x || bad y then s.hart.fcsr.orFlags NV
        else s.hart.fcsr⟩ := by
    intro x y
    unfold cmpUpdate
    split
    · rfl
    · rfl
  rw [hRow, hRow, UnitUpdate.mk.injEq, flag_iff]
  exact and_iff_right rfl

/- The sign of both under the magnitude of the first. -/
theorem xorRow_iff :
    frdUpdate s d.rd (f32Out ((a &&& ~~~0x80000000) |||
          ((a ^^^ b) &&& 0x80000000))) =
        frdUpdate s d.rd (f32Out ((a' &&& ~~~0x80000000) |||
          ((a' ^^^ b') &&& 0x80000000))) ↔
      floatMagnitude a = floatMagnitude a' ∧
        (a.msb ^^ b.msb) = (a'.msb ^^ b'.msb) := by
  have hInjects := injects_masks a b
  have hInjects' := injects_masks a' b'
  have hRow : ∀ x y : BitVec 64, frdUpdate s d.rd x =
      frdUpdate s d.rd y ↔ x = y := by
    intro x y
    constructor
    · intro h
      exact (Prod.mk.inj (Option.some.inj
        (UnitUpdate.mk.inj h).1)).2
    · intro h
      rw [h]
  rw [hRow, f32Out_inj]
  constructor
  · intro h
    refine ⟨?_, ?_⟩
    · rw [← hInjects.floatMagnitude_eq,
        ← hInjects'.floatMagnitude_eq]
      exact congrArg floatMagnitude h
    · exact hInjects.sign.symm.trans
        ((congrArg BitVec.msb h).trans hInjects'.sign)
  · rintro ⟨hMag, hSign⟩
    refine eq_of_sign_magnitude ?_ ?_
    · exact hInjects.sign.trans
        (hSign.trans hInjects'.sign.symm)
    · intro i hi
      have hBit := floatMagnitude_eq_iff.mp hMag i hi
      exact (hInjects.magnitude i hi).trans
        (hBit.trans (hInjects'.magnitude i hi).symm)

/- The other classes are not that of a quiet NaN. -/
theorem signed_ne_quiet
    {neg pos : Nat}
    (sign : Bool)
    (hNeg : (1 : BitVec 64) <<< neg ≠ 1 <<< 9)
    (hPos : (1 : BitVec 64) <<< pos ≠ 1 <<< 9) :
    (1 : BitVec 64) <<< (if sign then neg else pos) ≠
      1 <<< 9 := by
  cases sign with
  | true => exact hNeg
  | false => exact hPos

/- `FCLASS` has one bit for the quiet NaNs alone. -/
theorem quiet_iff
    (x : BitVec 32) :
    floatClass 23 x = floatClass 23 F32_NAN ↔
      isNan 23 x = true ∧ isSnan 23 x = false := by
  have hCanonical : floatClass 23 F32_NAN = 1 <<< 9 := by
    decide
  have hInf : infMagnitude 32 23 = 2139095040 := rfl
  rw [hCanonical]
  unfold floatClass
  dsimp only
  split
  next h =>
    have hNan : isNan 23 x = false := by
      have hEq := of_decide_eq_true h
      exact decide_eq_false (by omega)
    exact iff_of_false
      (signed_ne_quiet _ (by decide) (by decide))
      (by simp [hNan])
  next =>
  split
  next h =>
    have hNan : isNan 23 x = false :=
      decide_eq_false (by omega)
    exact iff_of_false
      (signed_ne_quiet _ (by decide) (by decide))
      (by simp [hNan])
  next =>
  split
  next h =>
    have hNan : isNan 23 x = false :=
      decide_eq_false (by omega)
    exact iff_of_false
      (signed_ne_quiet _ (by decide) (by decide))
      (by simp [hNan])
  next =>
  split
  next h =>
    unfold isSnan
    rw [h]
    cases x.getLsbD (23 - 1) with
    | true => exact iff_of_true rfl ⟨rfl, rfl⟩
    | false => exact iff_of_false (by decide) (by decide)
  next h =>
    exact iff_of_false
      (signed_ne_quiet _ (by decide) (by decide))
      (by simp [h])

/-
  The class is right exactly for what would be a quiet NaN.
-/
theorem class_iff :
    d.rd = 0 ∨ some (floatClass 23 (s.f32 d.rs1)) =
        some (floatClass 23 (s.reading d.rs1)) ↔
      d.rd = 0 ∨ Boxed (s.fpr d.rs1) ∨
        (isNan 23 (s.f32 d.rs1) = true ∧
          isSnan 23 (s.f32 d.rs1) = false) := by
  refine or_congr_right ?_
  rw [Option.some.injEq]
  unfold State.reading
  by_cases hBoxed : Boxed (s.fpr d.rs1)
  · rw [if_pos hBoxed]
    exact iff_of_true rfl (Or.inl hBoxed)
  · rw [if_neg hBoxed, quiet_iff]
    exact (or_iff_right hBoxed).symm

/- A cast raises at most one flag. -/
theorem castUpdate_eq
    (round : RoundMode)
    (rd : BitVec 5)
    (f : Fcsr)
    (x : BitVec 64) :
    castUpdate P round rd f x =
      ⟨some (rd, f32Out (hostCast P.float round x).1),
        f.orFlags (hostCast P.float round x).2⟩ := by
  unfold castUpdate hostCast
  split
  · rfl
  · rw [Fcsr.orFlags_zero]

/- Casts agree in the value and in the flags. -/
theorem castUpdate_iff
    {round : RoundMode}
    {x x' : BitVec 64} :
    castUpdate P round d.rd s.hart.fcsr x =
        castUpdate P round d.rd s.hart.fcsr x' ↔
      ValueAlike s (hostCast P.float round x)
        (hostCast P.float round x') := by
  rw [castUpdate_eq, castUpdate_eq, update_inj, f32Out_inj,
    Fcsr.orFlags_eq_iff]
  rfl

/- Arithmetic writes what the host rounds to. -/
theorem singleUpdate_eq
    (hRm : ¬ ReservedRm s d)
    (x : BitVec 64) :
    singleUpdate P s d x =
      ⟨some (d.rd, f32Out (hostSingle P s d x).1),
        s.hart.fcsr.orFlags (hostSingle P s d x).2⟩ := by
  unfold singleUpdate roundedUpdate hostSingle
  rw [rmFunc_eq, if_neg hRm]
  dsimp only
  rw [castUpdate_eq, Fcsr.orFlags_orFlags]

/- Two rows agree if the host's values and flags do. -/
theorem singleUpdate_iff
    {x x' : BitVec 64} :
    singleUpdate P s d x = singleUpdate P s d x' ↔
      ReservedRm s d ∨ ValueAlike s (hostSingle P s d x)
        (hostSingle P s d x') := by
  by_cases hRm : ReservedRm s d
  · have hIdle : ∀ y, singleUpdate P s d y = idleUpdate s := by
      intro y
      unfold singleUpdate roundedUpdate
      rw [rmFunc_eq, if_pos hRm]
    rw [hIdle, hIdle]
    exact iff_of_true rfl (Or.inl hRm)
  · rw [singleUpdate_eq hRm, singleUpdate_eq hRm, update_inj,
      f32Out_inj, Fcsr.orFlags_eq_iff]
    exact (or_iff_right hRm).symm

/- Widening writes what the host widens to. -/
theorem widenUpdate_eq
    (a : BitVec 32) :
    widenUpdate P s d.rd a =
      ⟨some (d.rd, (hostDouble P.float a).1),
        s.hart.fcsr.orFlags (hostDouble P.float a).2⟩ := by
  unfold widenUpdate hostDouble
  dsimp only
  split
  · split
    · rfl
    · rw [Fcsr.orFlags_zero]
  · rw [Fcsr.orFlags_zero]

/- Two widenings agree if the host's values and flags do. -/
theorem widenUpdate_iff :
    widenUpdate P s d.rd a = widenUpdate P s d.rd a' ↔
      ValueAlike s (hostDouble P.float a)
        (hostDouble P.float a') := by
  rw [widenUpdate_eq, widenUpdate_eq, update_inj,
    Fcsr.orFlags_eq_iff]
  rfl

/- A conversion writes what `finalize_fcvt` gives. -/
theorem toInt_iff
    {t : IntTarget}
    {ext : BitVec 64 → BitVec 64} :
    (toIntUpdate P s d t 23 a (P.float.widen a) =
        toIntUpdate P s d t 23 a' (P.float.widen a') ∧
      (d.rd = 0 ∨
        toIntValue P s d t 23 ext a (P.float.widen a) =
          toIntValue P s d t 23 ext a'
            (P.float.widen a'))) ↔
      ReservedRm s d ∨ IntegerAlike ext d.rd
        (hostInteger P t s d a) (hostInteger P t s d a') := by
  by_cases hRm : ReservedRm s d
  · unfold toIntUpdate toIntValue roundedUpdate
    rw [rmFunc_eq, rmFunc_eq, if_pos hRm, if_pos hRm]
    exact iff_of_true ⟨rfl, Or.inr rfl⟩ (Or.inl hRm)
  · have hUpdate : ∀ x, toIntUpdate P s d t 23 x
        (P.float.widen x) =
          ⟨none, (hostInteger P t s d x).2.hart.fcsr⟩ := by
      intro x
      unfold toIntUpdate roundedUpdate hostInteger
      rw [rmFunc_eq, if_neg hRm]
      dsimp only
      rw [finalizeFcvt_eq_put, rounded_hart]
      rfl
    have hValue : ∀ x, toIntValue P s d t 23 ext x
        (P.float.widen x) =
          some (ext (hostInteger P t s d x).1) := by
      intro x
      unfold toIntValue hostInteger
      rw [rmFunc_eq, if_neg hRm]
      rfl
    rw [hUpdate, hUpdate, hValue, hValue, UnitUpdate.mk.injEq,
      Option.some.injEq]
    exact (and_congr_left' (and_iff_right rfl)).trans
      (or_iff_right hRm).symm

/- The rows agree exactly if both readings do the same. -/
theorem readsAlike_iff
    (hOp : singleSources op d ≠ []) :
    (singleRow P s op d (s.f32 d.rs1) (s.f32 d.rs2)
          (s.f32 d.rs3) =
        singleRow P s op d (s.reading d.rs1)
          (s.reading d.rs2) (s.reading d.rs3) ∧
      (d.rd = 0 ∨
        intRow P s op d (s.f32 d.rs1) (s.f32 d.rs2) =
          intRow P s op d (s.reading d.rs1)
            (s.reading d.rs2))) ↔
      ReadsAlike P op d s := by
  cases op with
  | FMADD_S | FMSUB_S | FNMADD_S | FNMSUB_S | FADD_S
  | FSUB_S | FMUL_S | FDIV_S | FSQRT_S =>
      exact (and_iff_left (Or.inr rfl)).trans
        singleUpdate_iff
  | FSGNJ_S | FSGNJN_S =>
      exact (and_iff_left (Or.inr rfl)).trans castUpdate_iff
  | FCVT_D_S =>
      exact (and_iff_left (Or.inr rfl)).trans widenUpdate_iff
  | FSGNJX_S =>
      exact (and_iff_left (Or.inr rfl)).trans xorRow_iff
  | FMIN_S | FMAX_S =>
      exact (and_iff_left (Or.inr rfl)).trans
        (selectUpdate_iff _)
  | FEQ_S | FLT_S | FLE_S =>
      refine and_congr (cmpUpdate_iff _) (or_congr_right ?_)
      exact Option.some_inj
  | FCVT_W_S | FCVT_WU_S | FCVT_L_S | FCVT_LU_S =>
      exact toInt_iff
  | FCLASS_S => exact (and_iff_right rfl).trans class_iff
  | _ => exact absurd rfl hOp

/- Boxed operands, and the canonical NaN, read alike. -/
theorem ReadsAlike.of_boxed
    (hRead : ∀ r ∈ singleSources op d,
      Boxed (s.fpr r) ∨ s.f32 r = F32_NAN) :
    ReadsAlike P op d s := by
  have hEq : ∀ r ∈ singleSources op d,
      s.reading r = s.f32 r := by
    intro r hr
    unfold State.reading
    by_cases hBoxed : Boxed (s.fpr r)
    · exact if_pos hBoxed
    · rw [if_neg hBoxed]
      exact ((hRead r hr).resolve_left hBoxed).symm
  cases op with
  | FMADD_S | FMSUB_S | FNMADD_S | FNMSUB_S =>
      have h1 := hEq d.rs1 (by simp [singleSources])
      have h2 := hEq d.rs2 (by simp [singleSources])
      have h3 := hEq d.rs3 (by simp [singleSources])
      simp only [ReadsAlike, h1, h2, h3]
      exact Or.inr ⟨rfl, rfl⟩
  | FADD_S | FSUB_S | FMUL_S | FDIV_S =>
      have h1 := hEq d.rs1 (by simp [singleSources])
      have h2 := hEq d.rs2 (by simp [singleSources])
      simp only [ReadsAlike, h1, h2]
      exact Or.inr ⟨rfl, rfl⟩
  | FSGNJ_S | FSGNJN_S =>
      have h1 := hEq d.rs1 (by simp [singleSources])
      have h2 := hEq d.rs2 (by simp [singleSources])
      simp only [ReadsAlike, h1, h2]
      exact ⟨rfl, rfl⟩
  | FSGNJX_S | FMIN_S | FMAX_S | FEQ_S | FLT_S | FLE_S =>
      have h1 := hEq d.rs1 (by simp [singleSources])
      have h2 := hEq d.rs2 (by simp [singleSources])
      simp [ReadsAlike, SelectsAlike, ComparesAlike,
        FlagAlike, h1, h2]
  | FSQRT_S =>
      have h1 := hEq d.rs1 List.mem_cons_self
      simp only [ReadsAlike, h1]
      exact Or.inr ⟨rfl, rfl⟩
  | FCVT_D_S =>
      have h1 := hEq d.rs1 List.mem_cons_self
      simp only [ReadsAlike, h1]
      exact ⟨rfl, rfl⟩
  | FCVT_W_S | FCVT_WU_S | FCVT_L_S | FCVT_LU_S =>
      have h1 := hEq d.rs1 List.mem_cons_self
      simp only [ReadsAlike, h1]
      exact Or.inr ⟨rfl, Or.inr rfl⟩
  | FCLASS_S =>
      refine Or.inr ((hRead d.rs1 List.mem_cons_self).imp_right
        ?_)
      intro hNan
      rw [hNan]
      decide
  | _ => trivial

/-
  An instruction keeps to the boxing exactly if what is in
  the low halves of its operands does what the registers,
  read as they are to be, would do.
-/
theorem nan_boxing_iff
    (P : Platform σ)
    (op : Op)
    (d : InstructionData)
    (s : State σ) :
    NanBoxed P op d s ↔ ReadsAlike P op d s := by
  constructor
  · intro h
    by_cases hOp : singleSources op d = []
    · exact .of_boxed (by simp [hOp])
    · exact (readsAlike_iff hOp).mp
        ((operands_iff hOp).mp (h.operands hOp))
  · intro h
    exact {
      boxed := fun hWrites => Op.exec_boxed hWrites
      operands := fun hOp => (operands_iff hOp).mpr
        ((readsAlike_iff hOp).mpr h)
      moved := fun hOp => by
        rw [hOp]
        rfl
      stored := fun hOp => by
        rw [hOp]
        rfl }

/- `fclass.s x1, f0` on the double `1.0`: a positive zero. -/
theorem nan_boxing_fclass :
    let d : InstructionData := ⟨0xE00010D3, 0, 0, 1, 0, 0, 1⟩
    let s := (State.boot []).setFpr 0 0x3FF0000000000000
    ¬ Boxed (s.fpr 0) ∧
      ¬ NanBoxed Platform.bare .FCLASS_S d s := by
  intro d s
  refine ⟨by decide, fun hBoxed => ?_⟩
  have hSame := hBoxed.operands (List.cons_ne_nil _ _)
  have hMask := congrArg (fun x => x.toOption.map
    (fun r => r.2.gpr 1)) hSame
  exact absurd hMask (by decide)

end RiscvEm
