import Mathlib

/-
  Division, multiplication and the orders of machine words,
  stated over the integers, and words that are even.

  Division is total: a zero divisor gives all ones and the
  dividend, and the quotient that does not fit a word is the
  dividend itself.

  Key definitions include:
    * `WordArith.quotSigned`
    * `WordArith.remSigned`
    * `WordArith.quotUnsigned`
    * `WordArith.remUnsigned`
    * `WordArith.highProduct`
    * `WordArith.IsEven`

  Key theorems include `WordArith.signed_law` and
  `WordArith.unsigned_law`.
-/

------------------------------------------------------------
-- Definitions
------------------------------------------------------------

namespace WordArith

variable {w : Nat}

/- The quotient of the extreme values does not fit. -/
def Overflows
    (a b : BitVec w) : Prop :=
  a.toInt = -(2 ^ (w - 1)) ∧ b.toInt = -1

instance
    (a b : BitVec w) :
    Decidable (Overflows a b) :=
  inferInstanceAs (Decidable (_ ∧ _))

def quotSigned
    (a b : BitVec w) : BitVec w :=
  if b.toInt = 0 then
    -1
  else if Overflows a b then
    a
  else
    BitVec.ofInt w (a.toInt.tdiv b.toInt)

def remSigned
    (a b : BitVec w) : BitVec w :=
  if b.toInt = 0 then
    a
  else if Overflows a b then
    0
  else
    BitVec.ofInt w (a.toInt.tmod b.toInt)

def quotUnsigned
    (a b : BitVec w) : BitVec w :=
  if b.toNat = 0 then
    -1
  else
    BitVec.ofNat w (a.toNat / b.toNat)

def remUnsigned
    (a b : BitVec w) : BitVec w :=
  if b.toNat = 0 then
    a
  else
    BitVec.ofNat w (a.toNat % b.toNat)

/- The high word of an exact product. -/
def highProduct
    (w : Nat)
    (x y : Int) : BitVec w :=
  BitVec.ofInt w (x * y / 2 ^ w)

end WordArith

------------------------------------------------------------
-- Division Of Words
------------------------------------------------------------

namespace WordArith

variable {w : Nat}

/- Zero is the only word with the value zero. -/
theorem toInt_eq_zero_iff
    (b : BitVec w) :
    b.toInt = 0 ↔ b = 0 := by
  rw [← BitVec.toInt_inj]
  simp

/- Signed division of words is division of integers. -/
theorem ofInt_tdiv
    (a b : BitVec w) :
    BitVec.ofInt w (a.toInt.tdiv b.toInt) = a.sdiv b := by
  apply BitVec.eq_of_toInt_eq
  rw [BitVec.toInt_ofInt, BitVec.toInt_sdiv]

/- The signed remainder of words. -/
theorem ofInt_tmod
    (a b : BitVec w) :
    BitVec.ofInt w (a.toInt.tmod b.toInt) = a.srem b := by
  rw [← BitVec.toInt_srem, BitVec.ofInt_toInt]

/- Words are divided like numbers. -/
theorem ofNat_div
    (a b : BitVec w) :
    BitVec.ofNat w (a.toNat / b.toNat) = a / b := by
  apply BitVec.eq_of_toNat_eq
  rw [BitVec.toNat_ofNat, BitVec.toNat_udiv,
    Nat.mod_eq_of_lt]
  exact lt_of_le_of_lt (Nat.div_le_self _ _) a.isLt

/- Their remainder is that of the numbers. -/
theorem ofNat_mod
    (a b : BitVec w) :
    BitVec.ofNat w (a.toNat % b.toNat) = a % b := by
  apply BitVec.eq_of_toNat_eq
  rw [BitVec.toNat_ofNat, BitVec.toNat_umod,
    Nat.mod_eq_of_lt]
  exact lt_of_le_of_lt (Nat.mod_le _ _) a.isLt

/- The only quotient that does not fit. -/
theorem overflows_iff
    (hWidth : 0 < w)
    (a b : BitVec w) :
    Overflows a b ↔ a = BitVec.intMin w ∧ b = -1 := by
  unfold Overflows
  rw [← BitVec.toInt_inj, ← BitVec.toInt_inj,
    BitVec.toInt_intMin_of_pos hWidth]
  have hOne : (-1 : BitVec w).toInt = -1 := by
    change (-1#w).toInt = -1
    rw [BitVec.neg_one_eq_allOnes, BitVec.toInt_allOnes,
      if_pos hWidth]
  rw [hOne]

/- The lowest word is its own negation. -/
theorem mul_of_overflows
    (hWidth : 0 < w)
    {a b : BitVec w}
    (h : Overflows a b) :
    a * b = a := by
  rcases (overflows_iff hWidth a b).mp h with ⟨rfl, rfl⟩
  rw [mul_neg, mul_one, BitVec.neg_intMin]

/- Quotient and remainder give back the dividend. -/
theorem signed_law
    (hWidth : 0 < w)
    (a b : BitVec w) :
    quotSigned a b * b + remSigned a b = a := by
  unfold quotSigned remSigned
  by_cases hZero : b.toInt = 0
  · rw [if_pos hZero, if_pos hZero,
      (toInt_eq_zero_iff b).mp hZero]
    simp
  · rw [if_neg hZero, if_neg hZero]
    by_cases hOver : Overflows a b
    · rw [if_pos hOver, if_pos hOver,
        mul_of_overflows hWidth hOver]
      exact BitVec.add_zero a
    · rw [if_neg hOver, if_neg hOver]
      calc BitVec.ofInt w (a.toInt.tdiv b.toInt) * b +
            BitVec.ofInt w (a.toInt.tmod b.toInt)
          = BitVec.ofInt w (a.toInt.tdiv b.toInt * b.toInt +
              a.toInt.tmod b.toInt) := by
            rw [BitVec.ofInt_add, BitVec.ofInt_mul,
              BitVec.ofInt_toInt]
        _ = a := by
            rw [Int.tdiv_mul_add_tmod, BitVec.ofInt_toInt]

/- Quotient and remainder give the dividend. -/
theorem unsigned_law
    (a b : BitVec w) :
    quotUnsigned a b * b + remUnsigned a b = a := by
  unfold quotUnsigned remUnsigned
  by_cases hZero : b.toNat = 0
  · have hB : b = 0 := BitVec.eq_of_toNat_eq hZero
    rw [if_pos hZero, if_pos hZero, hB]
    simp
  · rw [if_neg hZero, if_neg hZero]
    calc BitVec.ofNat w (a.toNat / b.toNat) * b +
          BitVec.ofNat w (a.toNat % b.toNat)
        = BitVec.ofNat w (a.toNat / b.toNat * b.toNat +
            a.toNat % b.toNat) := by
          rw [BitVec.ofNat_add, BitVec.ofNat_mul,
            BitVec.ofNat_toNat, BitVec.setWidth_eq]
      _ = a := by
          rw [Nat.div_add_mod', BitVec.ofNat_toNat,
            BitVec.setWidth_eq]

end WordArith

------------------------------------------------------------
-- High Products
------------------------------------------------------------

namespace WordArith

/-
  The high word of a product taken in twice the width. The
  operands are any words that represent the integers.
-/
theorem extract_mul
    (x y : Int) :
    (BitVec.ofInt 128 x * BitVec.ofInt 128 y).extractLsb'
        64 64 =
      highProduct 64 x y := by
  unfold highProduct
  rw [← BitVec.ofInt_mul]
  apply BitVec.eq_of_toNat_eq
  rw [BitVec.extractLsb'_toNat, BitVec.toNat_ofInt,
    BitVec.toNat_ofInt, Nat.shiftRight_eq_div_pow]
  generalize x * y = z
  omega

/- A word cut or extended by zeros, as a number. -/
theorem setWidth_eq_ofInt
    {w : Nat}
    (v : Nat)
    (a : BitVec w) :
    a.setWidth v = BitVec.ofInt v a.toNat := by
  rw [BitVec.ofInt_natCast, BitVec.ofNat_toNat]

end WordArith

------------------------------------------------------------
-- Orders
------------------------------------------------------------

namespace WordArith

variable {w : Nat}

/- The larger of two signed words. -/
theorem max_signed_eq
    (a b : BitVec w) :
    (if a.slt b then b else a) =
      BitVec.ofInt w (max a.toInt b.toInt) := by
  by_cases hLt : a.toInt < b.toInt
  · rw [if_pos (BitVec.slt_iff_toInt_lt.mpr hLt),
      max_eq_right hLt.le, BitVec.ofInt_toInt]
  · rw [if_neg (mt BitVec.slt_iff_toInt_lt.mp hLt),
      max_eq_left (not_lt.mp hLt), BitVec.ofInt_toInt]

/- The smaller of two signed words. -/
theorem min_signed_eq
    (a b : BitVec w) :
    (if b.slt a then b else a) =
      BitVec.ofInt w (min a.toInt b.toInt) := by
  by_cases hLt : b.toInt < a.toInt
  · rw [if_pos (BitVec.slt_iff_toInt_lt.mpr hLt),
      min_eq_right hLt.le, BitVec.ofInt_toInt]
  · rw [if_neg (mt BitVec.slt_iff_toInt_lt.mp hLt),
      min_eq_left (not_lt.mp hLt), BitVec.ofInt_toInt]

/- The larger of two unsigned words. -/
theorem max_unsigned_eq
    (a b : BitVec w) :
    (if a < b then b else a) =
      BitVec.ofNat w (max a.toNat b.toNat) := by
  by_cases hLt : a.toNat < b.toNat
  · rw [if_pos (BitVec.lt_def.mpr hLt),
      max_eq_right hLt.le, BitVec.ofNat_toNat,
      BitVec.setWidth_eq]
  · rw [if_neg (mt BitVec.lt_def.mp hLt),
      max_eq_left (not_lt.mp hLt), BitVec.ofNat_toNat,
      BitVec.setWidth_eq]

/- The smaller of two unsigned words. -/
theorem min_unsigned_eq
    (a b : BitVec w) :
    (if b < a then b else a) =
      BitVec.ofNat w (min a.toNat b.toNat) := by
  by_cases hLt : b.toNat < a.toNat
  · rw [if_pos (BitVec.lt_def.mpr hLt),
      min_eq_right hLt.le, BitVec.ofNat_toNat,
      BitVec.setWidth_eq]
  · rw [if_neg (mt BitVec.lt_def.mp hLt),
      min_eq_left (not_lt.mp hLt), BitVec.ofNat_toNat,
      BitVec.setWidth_eq]

end WordArith

------------------------------------------------------------
-- Even Words
------------------------------------------------------------

namespace WordArith

variable {w : Nat}

def IsEven
    (a : BitVec w) : Prop :=
  a.getLsbD 0 = false

instance
    (a : BitVec w) :
    Decidable (IsEven a) :=
  inferInstanceAs (Decidable (_ = _))

namespace IsEven

variable {a b : BitVec w}

/- Even words are even numbers. -/
theorem iff_mod :
    IsEven a ↔ a.toNat % 2 = 0 := by
  unfold IsEven
  rw [BitVec.getLsbD, Nat.testBit_zero]
  simp

theorem zero :
    IsEven (0 : BitVec w) :=
  BitVec.getLsbD_zero

/- The sum of even words is even. -/
theorem add
    (ha : IsEven a)
    (hb : IsEven b) :
    IsEven (a + b) := by
  rcases w with - | w
  · rw [BitVec.eq_nil (a + b)]
    rfl
  · rw [iff_mod] at *
    rw [BitVec.toNat_add, Nat.pow_succ',
      Nat.mod_mul_right_mod]
    omega

/- A mask without the lowest bit makes a word even. -/
theorem and
    (a : BitVec w)
    (hb : IsEven b) :
    IsEven (a &&& b) := by
  unfold IsEven at *
  rw [BitVec.getLsbD_and, hb, Bool.and_false]

/- The lowest bit stays under a change of width. -/
theorem setWidth
    (ha : IsEven a)
    (n : Nat) :
    IsEven (a.setWidth n) := by
  unfold IsEven at *
  rw [BitVec.getLsbD_setWidth, ha, Bool.and_false]

/- Extending the sign keeps a word even. -/
theorem signExtend
    (hPos : 0 < w)
    (ha : IsEven a)
    (n : Nat) :
    IsEven (a.signExtend n) := by
  unfold IsEven at *
  rw [BitVec.getLsbD_signExtend, if_pos hPos, ha,
    Bool.and_false]

/- A word is even if its lower part is. -/
theorem append
    {v : Nat}
    (a : BitVec v)
    (hPos : 0 < w)
    (hb : IsEven b) :
    IsEven (a ++ b) := by
  unfold IsEven at *
  rw [BitVec.getLsbD_append, if_pos hPos, hb]

/- An even word times any word. -/
theorem mul
    (ha : IsEven a)
    (b : BitVec w) :
    IsEven (a * b) := by
  rcases w with - | w
  · rw [BitVec.eq_nil (a * b)]
    rfl
  · rw [iff_mod] at *
    rw [BitVec.toNat_mul, Nat.pow_succ',
      Nat.mod_mul_right_mod, Nat.mul_mod, ha, Nat.zero_mul]

end IsEven

end WordArith
