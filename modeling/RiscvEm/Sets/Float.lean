import RiscvEm.Sets.Common

/-
  What the floating-point sets share: tests and comparisons
  on the bits of a number, rounding modes and flags.

  Tests take the number of mantissa bits, 23 for `float` and
  52 for `double`.

  Key definitions include:
    * `isNan`
    * `floatKey`
    * `rmFunc`
    * `finalizeFcvt`
-/

------------------------------------------------------------
-- Numbers As Bits
------------------------------------------------------------

namespace RiscvEm

variable {w : Nat}

/- All bits but the sign. -/
def floatMagnitude
    (x : BitVec w) : Nat :=
  x.toNat % 2 ^ (w - 1)

/- The magnitude of infinity. -/
def infMagnitude
    (w m : Nat) : Nat :=
  2 ^ (w - 1) - 2 ^ m

def isNan
    (m : Nat)
    (x : BitVec w) : Bool :=
  decide (infMagnitude w m < floatMagnitude x)

/- A NaN whose quiet bit is clear. -/
def isSnan
    (m : Nat)
    (x : BitVec w) : Bool :=
  isNan m x && !x.getLsbD (m - 1)

def isInf
    (m : Nat)
    (x : BitVec w) : Bool :=
  decide (floatMagnitude x = infMagnitude w m)

/- Numbers other than NaN are ordered as their keys are. -/
def floatKey
    (x : BitVec w) : Int :=
  if x.msb then -(floatMagnitude x : Int)
  else (floatMagnitude x : Int)

def floatEq
    (m : Nat)
    (x y : BitVec w) : Bool :=
  !isNan m x && !isNan m y &&
    decide (floatKey x = floatKey y)

def isLess
    (m : Nat)
    (x y : BitVec w) : Bool :=
  !isNan m x && !isNan m y &&
    decide (floatKey x < floatKey y)

def isLessEqual
    (m : Nat)
    (x y : BitVec w) : Bool :=
  !isNan m x && !isNan m y &&
    decide (floatKey x ≤ floatKey y)

def signMask
    (w : Nat) : BitVec w :=
  BitVec.ofNat w (2 ^ (w - 1))

/- The sign operator of the host language. -/
def floatNeg
    (x : BitVec w) : BitVec w :=
  x ^^^ signMask w

def copySign
    (x y : BitVec w) : BitVec w :=
  (x &&& ~~~signMask w) ||| (y &&& signMask w)

/- The masks of `FCLASS`. -/
def floatClass
    (m : Nat)
    (x : BitVec w) : BitVec 64 :=
  let mag := floatMagnitude x
  let signed (neg pos : Nat) : BitVec 64 :=
    1 <<< (if x.msb then neg else pos)
  if isInf m x then
    signed 0 7
  else if mag = 0 then
    signed 3 4
  else if mag < 2 ^ m then
    signed 2 5
  else if isNan m x then
    1 <<< (if x.getLsbD (m - 1) then 9 else 8)
  else
    signed 1 6

/- The result of `FMIN` or `FMAX`, and whether it is invalid. -/
def floatSelect
    (m : Nat)
    (canonical : BitVec w)
    (first : BitVec w → BitVec w → Bool)
    (s1 s2 : BitVec w) : BitVec w × Bool :=
  let nan1 := isNan m s1
  let nan2 := isNan m s2
  let invalid :=
    (nan1 && isSnan m s1) || (nan2 && isSnan m s2)
  let res :=
    if nan1 && nan2 then
      canonical
    else if nan1 then
      s2
    else if nan2 then
      s1
    else if first s1 s2 then
      s1
    else
      s2
  (res, invalid)

/- Which operand `FMIN` and `FMAX` take first. -/
def minFirst
    (m : Nat)
    (s1 s2 : BitVec w) : Bool :=
  if floatMagnitude s1 = 0 ∧ floatMagnitude s2 = 0 then
    s1.msb
  else
    isLess m s1 s2

def maxFirst
    (m : Nat)
    (s1 s2 : BitVec w) : Bool :=
  if floatMagnitude s1 = 0 ∧ floatMagnitude s2 = 0 then
    !s1.msb
  else
    isLess m s2 s1

end RiscvEm

------------------------------------------------------------
-- Rounding And Flags
------------------------------------------------------------

namespace RiscvEm

variable {σ : Type}

namespace State

/- `hart.fcsr.fields.fflags |= flags`. -/
def orFlags
    (s : State σ)
    (flags : BitVec 5) : State σ :=
  s.setFcsr (s.hart.fcsr.setFflags
    (s.hart.fcsr.fflags ||| flags))

/- `fflags = (fflags | (1 << 4)) & ~(1 << 0)`. -/
def flagInvalidOnly
    (s : State σ) : State σ :=
  s.setFcsr (s.hart.fcsr.setFflags
    ((s.hart.fcsr.fflags ||| 0b10000) &&& ~~~1))

end State

def NV : BitVec 5 := 0b10000
def NX : BitVec 5 := 0b00001

/-
  The value, the exceptions it raised and the state with the
  rounding mode set, or nothing for a reserved mode.
-/
def rmFunc
    (P : Platform σ)
    (s : State σ)
    (val : BitVec 64)
    (rm : BitVec 3) :
    Option (BitVec 64 × BitVec 5 × State σ) :=
  let cmp := if rm = 0b111 then s.hart.fcsr.frm else rm
  if cmp = 0b101 ∨ cmp = 0b110 then
    none
  else if cmp = 0b100 then
    let (val, flags) := P.float.round val
    some (val, flags, s)
  else if cmp = 0b000 then
    some (val, 0, s.setRound .toNearest)
  else if cmp = 0b001 then
    some (val, 0, s.setRound .towardZero)
  else if cmp = 0b010 then
    some (val, 0, s.setRound .downward)
  else if cmp = 0b011 then
    some (val, 0, s.setRound .upward)
  else
    some (val, 0, s)

/- `{ false, false, 4, 2, inst }`. -/
def ExecReturn.badRounding
    (inst : BitVec 32) : ExecReturn :=
  ⟨false, false, 4, EXC_ILLEGAL_INSTRUCTION,
    inst.setWidth 64⟩

/- Continue with a rounding mode, or fail. -/
def withRm
    (P : Platform σ)
    (d : InstructionData)
    (val : BitVec 64)
    (cont : BitVec 64 → BitVec 5 → State σ → State σ) :
    Exec σ :=
  fun s =>
    match rmFunc P s val d.rm with
    | none => .ok (.badRounding d.inst, s)
    | some (inter, flags, s) =>
        .ok (.next 4, cont inter flags s)

end RiscvEm

------------------------------------------------------------
-- Conversion To Integers
------------------------------------------------------------

namespace RiscvEm

variable {σ : Type}

/-
  The instances of `finalize_fcvt`: signedness, bounds, and
  the doubles `MinValue` and `MaxValue + 1.0`.
-/
structure IntTarget where
  isUnsigned : Bool
  minValue : BitVec 64
  maxValue : BitVec 64
  minDouble : BitVec 64
  overDouble : BitVec 64

def IntTarget.int32 : IntTarget :=
  ⟨false, 0xFFFFFFFF80000000, 0x7FFFFFFF,
    0xC1E0000000000000, 0x41E0000000000000⟩

def IntTarget.uint32 : IntTarget :=
  ⟨true, 0, 0xFFFFFFFF, 0, 0x41F0000000000000⟩

def IntTarget.int64 : IntTarget :=
  ⟨false, 0x8000000000000000, 0x7FFFFFFFFFFFFFFF,
    0xC3E0000000000000, 0x43E0000000000000⟩

def IntTarget.uint64 : IntTarget :=
  ⟨true, 0, 0xFFFFFFFFFFFFFFFF, 0, 0x43F0000000000000⟩

/- The double `-1.0`. -/
def minusOne : BitVec 64 := 0xBFF0000000000000

/- Clamp `rounded`, the integer next to `exact`. -/
def finalizeFcvt
    {w : Nat}
    (P : Platform σ)
    (t : IntTarget)
    (m : Nat)
    (s : State σ)
    (src : BitVec w)
    (exact rounded : BitVec 64) : BitVec 64 × State σ :=
  let invalid (val : BitVec 64) := (val, s.flagInvalidOnly)
  let isOver :=
    (isInf m src && !src.msb) ||
      isLessEqual 52 t.overDouble exact
  let inexact :=
    !floatEq 52 (P.float.ofInt s.round rounded) exact
  let done := (rounded, if inexact then s.orFlags NX else s)
  if isNan m src then
    invalid t.maxValue
  else if t.isUnsigned then
    if isOver then
      invalid t.maxValue
    else if isLessEqual 52 exact minusOne ||
        (rounded.msb && rounded != 0x8000000000000000) then
      invalid 0
    else
      done
  else if (isInf m src && src.msb) ||
      isLess 52 exact t.minDouble then
    invalid t.minValue
  else if isOver then
    invalid t.maxValue
  else
    done

/-
  Convert to an integer register; `exact` is the source
  number as a double.
-/
def execFcvtToInt
    {w : Nat}
    (t : IntTarget)
    (m : Nat)
    (src : InstructionData → State σ → BitVec w)
    (exact : Platform σ → BitVec w → BitVec 64)
    (ext : BitVec 64 → BitVec 64) : ExecFun σ :=
  fun P d s =>
    let src := src d s
    let exact := exact P src
    withRm P d exact (fun inter _ s =>
      let rounded := P.float.llrint s.round inter
      let (res, s) := finalizeFcvt P t m s src exact rounded
      s.setGpr d.rd (ext res)) s

/- Comparisons set a flag on NaNs and write a register. -/
def execFcmp
    {w : Nat}
    (src : State σ → BitVec 5 → BitVec w)
    (bad : BitVec w → Bool)
    (cmp : BitVec w → BitVec w → Bool) : ExecFun σ :=
  fun _ d s =>
    let src1 := src s d.rs1
    let src2 := src s d.rs2
    if bad src1 || bad src2 then
      .ok (.next 4, (s.orFlags NV).setGpr d.rd 0)
    else
      .ok (.next 4,
        s.setGpr d.rd (ofCond (cmp src1 src2 = true)))

/- `FMIN` and `FMAX`; `out` is how a register holds it. -/
def execFselect
    {w : Nat}
    (m : Nat)
    (canonical : BitVec w)
    (src : State σ → BitVec 5 → BitVec w)
    (out : BitVec w → BitVec 64)
    (first : BitVec w → BitVec w → Bool) : ExecFun σ :=
  fun _ d s =>
    let (res, invalid) := floatSelect m canonical first
      (src s d.rs1) (src s d.rs2)
    let s := if invalid then s.orFlags NV else s
    .ok (.next 4, s.setFpr d.rd (out res))

end RiscvEm
