import RiscvEm.Lib.WordArith
import RiscvEm.Sets.Exec

/-
  The instructions of RV64M and the M extension.

  Key definitions include:
    * `MulDiv`
    * `MulDiv.result`
    * `MulDivOk`

  Key theorems include `mul_div_ok_iff`.
-/

------------------------------------------------------------
-- The M Extension
------------------------------------------------------------

namespace RiscvEm

open WordArith

/- The instructions of the extension. -/
inductive MulDiv where
  | MUL
  | MULH
  | MULHSU
  | MULHU
  | MULW
  | DIV
  | DIVU
  | DIVW
  | DIVUW
  | REM
  | REMU
  | REMW
  | REMUW
  deriving DecidableEq, Repr

namespace MulDiv

/- The entry of the table. -/
def op : MulDiv → Op
  | .MUL => .MUL
  | .MULH => .MULH
  | .MULHSU => .MULHSU
  | .MULHU => .MULHU
  | .MULW => .MULW
  | .DIV => .DIV
  | .DIVU => .DIVU
  | .DIVW => .DIVW
  | .DIVUW => .DIVUW
  | .REM => .REM
  | .REMU => .REMU
  | .REMW => .REMW
  | .REMUW => .REMUW

/- A word operation on the low halves, sign extended. -/
def onWords
    (f : BitVec 32 → BitVec 32 → BitVec 32)
    (a b : BitVec 64) : BitVec 64 :=
  (f (a.setWidth 32) (b.setWidth 32)).signExtend 64

/- What the specification defines as the result. -/
def result : MulDiv → BitVec 64 → BitVec 64 → BitVec 64
  | .MUL => fun a b => BitVec.ofInt 64 (a.toInt * b.toInt)
  | .MULH => fun a b => highProduct 64 a.toInt b.toInt
  | .MULHSU => fun a b => highProduct 64 a.toInt b.toNat
  | .MULHU => fun a b => highProduct 64 a.toNat b.toNat
  | .MULW => onWords (fun a b =>
      BitVec.ofInt 32 (a.toInt * b.toInt))
  | .DIV => quotSigned
  | .DIVU => quotUnsigned
  | .DIVW => onWords quotSigned
  | .DIVUW => onWords quotUnsigned
  | .REM => remSigned
  | .REMU => remUnsigned
  | .REMW => onWords remSigned
  | .REMUW => onWords remUnsigned

/- The remainder that goes with a quotient, and the width. -/
def remainder : MulDiv → Option (MulDiv × Nat)
  | .DIV => some (.REM, 64)
  | .DIVU => some (.REMU, 64)
  | .DIVW => some (.REMW, 32)
  | .DIVUW => some (.REMUW, 32)
  | _ => none

end MulDiv

variable {σ : Type}

/-
  The instruction writes the result; if it is a quotient,
  the value it writes and the one its remainder writes give
  back the dividend.
-/
structure MulDivOk
    (P : Platform σ)
    (d : InstructionData)
    (s : State σ)
    (i : MulDiv) : Prop where
  writes : i.op.exec P d s =
    .ok (.next 4, s.setGpr d.rd
      (i.result (s.gpr d.rs1) (s.gpr d.rs2)))
  law : ∀ r n, i.remainder = some (r, n) →
    ∃ q rem,
      i.op.exec P d s = .ok (.next 4, s.setGpr d.rd q) ∧
      r.op.exec P d s = .ok (.next 4, s.setGpr d.rd rem) ∧
      (q * s.gpr d.rs2 + rem).setWidth n =
        (s.gpr d.rs1).setWidth n

end RiscvEm

------------------------------------------------------------
-- The Bodies
------------------------------------------------------------

namespace RiscvEm

open WordArith

variable {σ : Type}

/- A division of words as the bodies compute it. -/
def divBody
    {w : Nat}
    (a b : BitVec w) : BitVec w :=
  if b = 0 then
    -1
  else if a = 0 then
    0
  else if a = BitVec.intMin w ∧ b = -1 then
    a
  else
    a.sdiv b

def remBody
    {w : Nat}
    (a b : BitVec w) : BitVec w :=
  if b = 0 then
    a
  else if a = BitVec.intMin w ∧ b = -1 then
    0
  else
    a.srem b

/- The body of a signed division. -/
theorem divBody_eq
    {w : Nat}
    (hWidth : 0 < w)
    (a b : BitVec w) :
    divBody a b = quotSigned a b := by
  unfold divBody quotSigned
  simp only [toInt_eq_zero_iff, overflows_iff hWidth,
    ofInt_tdiv]
  by_cases hA : a = 0
  · -- zero divided is zero without the test, too
    have hDiv : a.sdiv b = a := by
      rw [hA]
      exact BitVec.zero_sdiv
    rw [if_pos hA, hDiv, ite_self, hA]
  · rw [if_neg hA]

/- The body of a signed remainder computes it. -/
theorem remBody_eq
    {w : Nat}
    (hWidth : 0 < w)
    (a b : BitVec w) :
    remBody a b = remSigned a b := by
  unfold remBody remSigned
  simp only [toInt_eq_zero_iff, overflows_iff hWidth,
    ofInt_tmod]

def divuBody
    {w : Nat}
    (a b : BitVec w) : BitVec w :=
  if b = 0 then
    -1
  else if a = 0 then
    0
  else
    a / b

theorem toNat_eq_zero_iff
    {w : Nat}
    (b : BitVec w) :
    b.toNat = 0 ↔ b = 0 := by
  rw [← BitVec.toNat_inj]
  rfl

/- The body of an unsigned division. -/
theorem divuBody_eq
    {w : Nat}
    (a b : BitVec w) :
    divuBody a b = quotUnsigned a b := by
  unfold divuBody quotUnsigned
  simp only [toNat_eq_zero_iff, ofNat_div]
  by_cases hA : a = 0
  · have hDiv : a / b = 0 := by
      rw [hA]
      exact BitVec.zero_udiv
    rw [if_pos hA, hDiv]
  · rw [if_neg hA]

/- The body of an unsigned remainder computes it. -/
theorem remuBody_eq
    {w : Nat}
    (a b : BitVec w) :
    (if b = 0 then a else a % b) = remUnsigned a b := by
  unfold remUnsigned
  simp only [toNat_eq_zero_iff, ofNat_mod]

/- The value each body computes. -/
def MulDiv.value : MulDiv → BitVec 64 → BitVec 64 → BitVec 64
  | .REMUW => fun a b =>
      if b.setWidth 32 = 0 then
        a
      else
        MulDiv.result .REMUW a b
  | i => i.result

/- `MUL` is the low half of the product. -/
theorem execMUL_eq :
    (execMUL : ExecFun σ) =
      execRType (MulDiv.result .MUL) := by
  apply congrArg execRType
  funext a b
  change a * b = BitVec.ofInt 64 (a.toInt * b.toInt)
  rw [BitVec.ofInt_mul, BitVec.ofInt_toInt,
    BitVec.ofInt_toInt]

/- `MULH` is the high half of the signed product. -/
theorem execMULH_eq :
    (execMULH : ExecFun σ) =
      execRType (MulDiv.result .MULH) := by
  apply congrArg execRType
  funext a b
  exact extract_mul a.toInt b.toInt

/- `MULHSU` takes the second operand as unsigned. -/
theorem execMULHSU_eq :
    (execMULHSU : ExecFun σ) =
      execRType (MulDiv.result .MULHSU) := by
  apply congrArg execRType
  funext a b
  rw [setWidth_eq_ofInt 128 b]
  exact extract_mul a.toInt b.toNat

/- `MULHU` takes both as unsigned. -/
theorem execMULHU_eq :
    (execMULHU : ExecFun σ) =
      execRType (MulDiv.result .MULHU) := by
  apply congrArg execRType
  funext a b
  rw [setWidth_eq_ofInt 128 a, setWidth_eq_ofInt 128 b]
  exact extract_mul a.toNat b.toNat

/- `MULW` multiplies the low halves. -/
theorem execMULW_eq :
    (execMULW : ExecFun σ) =
      execRType (MulDiv.result .MULW) := by
  unfold execMULW execWord
  apply congrArg execRType
  funext a b
  change _ = (BitVec.ofInt 32 _).signExtend 64
  rw [BitVec.ofInt_mul, BitVec.ofInt_toInt,
    BitVec.ofInt_toInt]

/- `DIV` is the signed quotient. -/
theorem execDIV_eq :
    (execDIV : ExecFun σ) =
      execRType (MulDiv.result .DIV) := by
  apply congrArg execRType
  funext a b
  exact divBody_eq (by decide) a b

/- `DIVU` is the unsigned one. -/
theorem execDIVU_eq :
    (execDIVU : ExecFun σ) =
      execRType (MulDiv.result .DIVU) := by
  apply congrArg execRType
  funext a b
  exact divuBody_eq a b

/- `DIVW` divides the low halves. -/
theorem execDIVW_eq :
    (execDIVW : ExecFun σ) =
      execRType (MulDiv.result .DIVW) := by
  unfold execDIVW execWord
  apply congrArg execRType
  funext a b
  change _ = (quotSigned _ _).signExtend 64
  rw [← divBody_eq (by decide)]
  unfold divBody
  simp only [apply_ite (BitVec.signExtend 64)]
  rfl

/- `DIVUW` divides them as unsigned. -/
theorem execDIVUW_eq :
    (execDIVUW : ExecFun σ) =
      execRType (MulDiv.result .DIVUW) := by
  unfold execDIVUW execWord
  apply congrArg execRType
  funext a b
  change _ = (quotUnsigned _ _).signExtend 64
  rw [← divuBody_eq]
  unfold divuBody
  simp only [apply_ite (BitVec.signExtend 64)]
  rfl

/- `REM` is the signed remainder. -/
theorem execREM_eq :
    (execREM : ExecFun σ) =
      execRType (MulDiv.result .REM) := by
  apply congrArg execRType
  funext a b
  exact remBody_eq (by decide) a b

/- `REMU` is the unsigned one. -/
theorem execREMU_eq :
    (execREMU : ExecFun σ) =
      execRType (MulDiv.result .REMU) := by
  apply congrArg execRType
  funext a b
  exact remuBody_eq a b

/- `REMW` is that of the low halves. -/
theorem execREMW_eq :
    (execREMW : ExecFun σ) =
      execRType (MulDiv.result .REMW) := by
  unfold execREMW execWord
  apply congrArg execRType
  funext a b
  change _ = (remSigned _ _).signExtend 64
  rw [← remBody_eq (by decide)]
  unfold remBody
  simp only [apply_ite (BitVec.signExtend 64)]
  rfl

/- A zero divisor leaves the upper half as it was. -/
theorem execREMUW_eq :
    (execREMUW : ExecFun σ) =
      execRType (MulDiv.value .REMUW) := by
  apply congrArg execRType
  funext a b
  change _ = if _ then a else
    (remUnsigned _ _).signExtend 64
  rw [← remuBody_eq]
  by_cases hZero : b.setWidth 32 = 0
  · rw [if_pos hZero, if_pos hZero]
  · rw [if_neg hZero, if_neg hZero, if_neg hZero]

/- Every body but one computes what is defined. -/
theorem MulDiv.exec_eq
    (i : MulDiv) :
    i.op.exec = (execRType i.value : ExecFun σ) := by
  cases i with
  | MUL => exact execMUL_eq
  | MULH => exact execMULH_eq
  | MULHSU => exact execMULHSU_eq
  | MULHU => exact execMULHU_eq
  | MULW => exact execMULW_eq
  | DIV => exact execDIV_eq
  | DIVU => exact execDIVU_eq
  | DIVW => exact execDIVW_eq
  | DIVUW => exact execDIVUW_eq
  | REM => exact execREM_eq
  | REMU => exact execREMU_eq
  | REMW => exact execREMW_eq
  | REMUW => exact execREMUW_eq

end RiscvEm

------------------------------------------------------------
-- Correctness
------------------------------------------------------------

namespace RiscvEm

open WordArith

variable {σ : Type}

theorem State.setGpr_inj
    (s : State σ)
    (r : BitVec 5)
    {v v' : BitVec 64} :
    s.setGpr r v = s.setGpr r v' ↔ v = v' := by
  constructor
  · intro h
    have hAt := congrArg (fun s => s.gpr r) h
    simpa [State.setGpr, State.gpr, State.setHart] using hAt
  · intro h
    rw [h]

/- Every body writes its value and goes on. -/
theorem MulDiv.exec_value
    (P : Platform σ)
    (d : InstructionData)
    (s : State σ)
    (i : MulDiv) :
    i.op.exec P d s =
      .ok (.next 4, s.setGpr d.rd
        (i.value (s.gpr d.rs1) (s.gpr d.rs2))) := by
  rw [i.exec_eq]
  rfl

/- The one body that differs, and where. -/
theorem MulDiv.value_eq_result_iff
    (i : MulDiv)
    (a b : BitVec 64) :
    i.value a b = i.result a b ↔
      (i = .REMUW → b.setWidth 32 = 0 →
        (a.setWidth 32).signExtend 64 = a) := by
  cases i with
  | REMUW =>
      change (if _ then a else _) = _ ↔ _
      by_cases hZero : b.setWidth 32 = 0
      · have hResult : MulDiv.result .REMUW a b =
            (a.setWidth 32).signExtend 64 := by
          change (remUnsigned _ _).signExtend 64 = _
          rw [← remuBody_eq, if_pos hZero]
        rw [if_pos hZero, hResult]
        constructor
        · intro h _ _
          exact h.symm
        · intro h
          exact (h rfl hZero).symm
      · rw [if_neg hZero]
        constructor
        · intro _ _ h
          exact absurd h hZero
        · intro _
          rfl
  | _ =>
      constructor
      · intro _ h
        cases h
      · intro _
        rfl

/- The low half of what acts on low halves. -/
theorem low_of_onWords
    (f : BitVec 32 → BitVec 32 → BitVec 32)
    (a b : BitVec 64) :
    (MulDiv.onWords f a b).setWidth 32 =
      f (a.setWidth 32) (b.setWidth 32) := by
  unfold MulDiv.onWords
  apply BitVec.eq_of_getLsbD_eq
  intro i hi
  rw [BitVec.getLsbD_setWidth, BitVec.getLsbD_signExtend,
    if_pos hi]
  simp [hi]
  omega

/- Even `REMUW` has the right low half. -/
theorem low_of_remuw
    (a b : BitVec 64) :
    (MulDiv.value .REMUW a b).setWidth 32 =
      remUnsigned (a.setWidth 32) (b.setWidth 32) := by
  change BitVec.setWidth 32 (if _ then a else _) = _
  by_cases hZero : b.setWidth 32 = 0
  · rw [if_pos hZero, ← remuBody_eq, if_pos hZero]
  · rw [if_neg hZero]
    exact low_of_onWords remUnsigned a b

/- A law of the low words is a law modulo their range. -/
theorem low_law
    {q r a b : BitVec 64}
    (h : q.setWidth 32 * b.setWidth 32 + r.setWidth 32 =
      a.setWidth 32) :
    (q * b + r).setWidth 32 = a.setWidth 32 := by
  rw [BitVec.setWidth_add _ _ (by decide),
    BitVec.setWidth_mul _ _ (by decide), h]

/- Dividends come back, whatever the divisor is. -/
theorem MulDiv.division_law
    {i r : MulDiv}
    {n : Nat}
    (h : i.remainder = some (r, n))
    (a b : BitVec 64) :
    (i.value a b * b + r.value a b).setWidth n =
      a.setWidth n := by
  cases i with
  | DIV =>
      cases h
      exact congrArg (BitVec.setWidth 64)
        (signed_law (by decide) a b)
  | DIVU =>
      cases h
      exact congrArg (BitVec.setWidth 64) (unsigned_law a b)
  | DIVW =>
      cases h
      apply low_law
      have hQuot := low_of_onWords quotSigned a b
      have hRem := low_of_onWords remSigned a b
      change BitVec.setWidth 32 (onWords quotSigned a b) * _ +
        BitVec.setWidth 32 (onWords remSigned a b) = _
      rw [hQuot, hRem]
      exact signed_law (by decide) _ _
  | DIVUW =>
      cases h
      apply low_law
      have hQuot := low_of_onWords quotUnsigned a b
      change BitVec.setWidth 32
        (onWords quotUnsigned a b) * _ + _ = _
      rw [hQuot, low_of_remuw]
      exact unsigned_law _ _
  | _ => cases h

/- An instruction that is right writes the result. -/
theorem MulDivOk.value_eq
    {P : Platform σ}
    {d : InstructionData}
    {s : State σ}
    {i : MulDiv}
    (h : MulDivOk P d s i) :
    i.value (s.gpr d.rs1) (s.gpr d.rs2) =
      i.result (s.gpr d.rs1) (s.gpr d.rs2) := by
  have hWrites := (i.exec_value P d s).symm.trans h.writes
  have hStates := congrArg Prod.snd (Except.ok.inj hWrites)
  exact (s.setGpr_inj d.rd).mp hStates

/-
  The instructions are those of the extension, except that
  a remainder of unsigned words by zero has to find the sign
  extension of its dividend in the register.
-/
theorem mul_div_ok_iff
    (P : Platform σ)
    (d : InstructionData)
    (s : State σ)
    (i : MulDiv) :
    MulDivOk P d s i ↔
      (i = .REMUW →
        (s.gpr d.rs2).setWidth 32 = 0 →
          ((s.gpr d.rs1).setWidth 32).signExtend 64 =
            s.gpr d.rs1) := by
  rw [← MulDiv.value_eq_result_iff]
  constructor
  · intro h
    exact h.value_eq
  · intro hValue
    constructor
    · rw [i.exec_value, hValue]
    · intro r n hRem
      exact ⟨_, _, i.exec_value P d s, r.exec_value P d s,
        MulDiv.division_law hRem _ _⟩

/- `remuw a0, a1, x0` with a value above the words. -/
theorem remuw_by_zero_keeps_upper_half :
    ¬ MulDivOk Platform.bare
      { inst := 0x0205F53B
        rs1 := 11
        rs2 := 0
        rd := 10
        imm := 32
        rs3 := 0
        rm := 7 }
      ((State.boot []).setGpr 11 0x100000000) .REMUW := by
  intro h
  have hNe : MulDiv.value .REMUW 0x100000000 0 ≠
      MulDiv.result .REMUW 0x100000000 0 := by
    decide
  exact hNe h.value_eq

end RiscvEm
