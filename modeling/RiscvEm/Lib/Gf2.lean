import Mathlib

/-
  Words as polynomials over the field of two elements.

  Key definitions include:
    * `Gf2.poly`
    * `Gf2.xorFold`
    * `Gf2.product`

  Key theorems include `Gf2.poly_product` and
  `Gf2.map_xorFold`.
-/

------------------------------------------------------------
-- Polynomials Of Words
------------------------------------------------------------

namespace Gf2

open Polynomial

variable {w v : Nat}

/- The coefficient that a bit stands for. -/
def coeff
    (b : Bool) : ZMod 2 :=
  if b then 1 else 0

/- Exclusive or is addition. -/
theorem coeff_xor
    (a b : Bool) :
    coeff (a ^^ b) = coeff a + coeff b := by
  cases a <;> cases b <;> decide

/- The two coefficients differ. -/
theorem coeff_injective :
    Function.Injective coeff := by
  intro a b
  cases a <;> cases b <;> decide

/- Bit `i` is the coefficient of `X ^ i`. -/
noncomputable def poly
    (x : BitVec w) : (ZMod 2)[X] :=
  ∑ i ∈ Finset.range w, C (coeff (x.getLsbD i)) * X ^ i

/- The coefficients are the bits. -/
theorem coeff_poly
    (x : BitVec w)
    (n : Nat) :
    (poly x).coeff n = coeff (x.getLsbD n) := by
  unfold poly
  rw [Polynomial.finsetSum_coeff]
  simp only [coeff_C_mul_X_pow]
  by_cases h : n < w
  · simp [h]
  · have hBit : x.getLsbD n = false :=
      BitVec.getLsbD_of_ge x n (by omega)
    rw [hBit]
    simp [h, coeff]

/- A word is determined by its polynomial. -/
theorem poly_injective :
    Function.Injective (poly : BitVec w → (ZMod 2)[X]) := by
  intro x y h
  apply BitVec.eq_of_getLsbD_eq
  intro i hi
  apply coeff_injective
  rw [← coeff_poly, h, coeff_poly]

/- Exclusive or adds polynomials. -/
theorem poly_xor
    (x y : BitVec w) :
    poly (x ^^^ y) = poly x + poly y := by
  ext n
  rw [coeff_add, coeff_poly, coeff_poly, coeff_poly,
    BitVec.getLsbD_xor, coeff_xor]

/- The word zero is the polynomial zero. -/
theorem poly_zero :
    poly 0#w = 0 := by
  ext n
  rw [coeff_poly]
  simp [coeff]

/- A shift that loses nothing multiplies by a power. -/
theorem poly_shiftLeft
    (x : BitVec w)
    {k : Nat}
    (h : w + k ≤ v) :
    poly (x.setWidth v <<< k) = poly x * X ^ k := by
  ext n
  rw [coeff_poly, coeff_mul_X_pow', BitVec.getLsbD_shiftLeft,
    BitVec.getLsbD_setWidth]
  by_cases hLow : k ≤ n
  · rw [if_pos hLow, coeff_poly]
    by_cases hHigh : n - k < w
    · simp [show n < v by omega, show ¬ n < k by omega,
        show n - k < v by omega]
    · have hBit : x.getLsbD (n - k) = false :=
        BitVec.getLsbD_of_ge x _ (by omega)
      simp [hBit]
  · rw [if_neg hLow]
    simp [show n < k by omega, coeff]

end Gf2

------------------------------------------------------------
-- Sums Of Selected Words
------------------------------------------------------------

namespace Gf2

open Polynomial

variable {w v : Nat}

/- Add up the words that are selected. -/
def xorFold
    (is : List Nat)
    (c : Nat → Bool)
    (f : Nat → BitVec w) : BitVec w :=
  is.foldl (fun out i => if c i then out ^^^ f i else out)
    0#w

/- A fold does not depend on where it starts. -/
theorem foldl_xor_start
    (is : List Nat)
    (c : Nat → Bool)
    (f : Nat → BitVec w)
    (x : BitVec w) :
    is.foldl (fun out i => if c i then out ^^^ f i else out)
        x =
      x ^^^ xorFold is c f := by
  unfold xorFold
  induction is generalizing x with
  | nil => simp
  | cons i is ih =>
      rw [List.foldl_cons, List.foldl_cons, ih,
        ih (if c i then 0#w ^^^ f i else 0#w)]
      cases c i
      · simp
      · simp [BitVec.xor_assoc]

/- The first word, if it is selected. -/
theorem xorFold_cons
    (i : Nat)
    (is : List Nat)
    (c : Nat → Bool)
    (f : Nat → BitVec w) :
    xorFold (i :: is) c f =
      (if c i then f i else 0#w) ^^^ xorFold is c f := by
  unfold xorFold
  rw [List.foldl_cons, foldl_xor_start]
  cases c i
  · simp [xorFold]
  · simp [xorFold]

/- A map that keeps sums keeps sums of selected words. -/
theorem map_xorFold
    {g : BitVec w → BitVec v}
    (hZero : g 0#w = 0#v)
    (hXor : ∀ x y, g (x ^^^ y) = g x ^^^ g y)
    (is : List Nat)
    (c : Nat → Bool)
    (f : Nat → BitVec w) :
    g (xorFold is c f) = xorFold is c (fun i => g (f i)) := by
  induction is with
  | nil => exact hZero
  | cons i is ih =>
      rw [xorFold_cons, xorFold_cons, hXor, ih]
      cases c i
      · simp [hZero]
      · simp

/- Only the words of the list matter. -/
theorem xorFold_congr
    {is : List Nat}
    {c : Nat → Bool}
    {f g : Nat → BitVec w}
    (h : ∀ i ∈ is, f i = g i) :
    xorFold is c f = xorFold is c g := by
  induction is with
  | nil => rfl
  | cons i is ih =>
      rw [xorFold_cons, xorFold_cons, h i (by simp),
        ih (fun j hj => h j (by simp [hj]))]

/- The sum of polynomials. -/
theorem poly_xorFold
    (is : List Nat)
    (c : Nat → Bool)
    (f : Nat → BitVec w) :
    poly (xorFold is c f) =
      (is.map (fun i => C (coeff (c i)) * poly (f i))).sum := by
  induction is with
  | nil => exact poly_zero
  | cons i is ih =>
      rw [xorFold_cons, poly_xor, ih, List.map_cons,
        List.sum_cons]
      congr 1
      cases c i
      · simp [coeff, poly_zero]
      · simp [coeff]

end Gf2

------------------------------------------------------------
-- Products
------------------------------------------------------------

namespace Gf2

open Polynomial

variable {w : Nat}

/- The product of two words, in twice the width. -/
def product
    (a b : BitVec w) : BitVec (w + w) :=
  xorFold (List.range w) (fun i => b.getLsbD i)
    (fun i => a.setWidth (w + w) <<< i)

/- The product of words is that of the polynomials. -/
theorem poly_product
    (a b : BitVec w) :
    poly (product a b) = poly a * poly b := by
  unfold product
  rw [poly_xorFold]
  have hTerms : ∀ i ∈ List.range w,
      C (coeff (b.getLsbD i)) *
          poly (a.setWidth (w + w) <<< i) =
        poly a * (C (coeff (b.getLsbD i)) * X ^ i) := by
    intro i hi
    rw [List.mem_range] at hi
    rw [poly_shiftLeft a (by omega)]
    ring
  rw [List.map_congr_left hTerms, List.sum_map_mul_left]
  congr 1

/- The product commutes. -/
theorem product_comm
    (a b : BitVec w) :
    product a b = product b a := by
  apply poly_injective
  rw [poly_product, poly_product, mul_comm]

/- It distributes over exclusive or. -/
theorem product_xor_right
    (a b c : BitVec w) :
    product a (b ^^^ c) = product a b ^^^ product a c := by
  apply poly_injective
  rw [poly_xor, poly_product, poly_product, poly_product,
    poly_xor, mul_add]

end Gf2
