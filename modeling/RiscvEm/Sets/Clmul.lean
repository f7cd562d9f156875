import RiscvEm.Lib.Gf2
import RiscvEm.Sets.Bitmanip

/-
  The instructions of Zbc and products of polynomials over
  the field of two elements.

  Key definitions include:
    * `clmul`, `clmulh`, `clmulr`
    * `CarryLess`

  Key theorems include `clmul_carry_less`.
-/

------------------------------------------------------------
-- Slices Of The Product
------------------------------------------------------------

namespace RiscvEm

variable {σ : Type}

/- What the three bodies compute. -/
def clmul
    (a b : BitVec 64) : BitVec 64 :=
  clmulLoop (List.range 64) (fun i => a <<< i) b

def clmulh
    (a b : BitVec 64) : BitVec 64 :=
  clmulLoop ((List.range 64).drop 1)
    (fun i => a >>> (64 - i)) b

def clmulr
    (a b : BitVec 64) : BitVec 64 :=
  clmulLoop (List.range 64) (fun i => a >>> (63 - i)) b

theorem clmulLoop_eq
    (is : List Nat)
    (f : Nat → BitVec 64)
    (b : BitVec 64) :
    clmulLoop is f b =
      Gf2.xorFold is (fun i => b.getLsbD i) f :=
  rfl

/- A slice of a shifted word is a word shifted less. -/
theorem extract_shiftLeft
    (a : BitVec 64)
    {i k : Nat}
    (hi : i ≤ k)
    (hk : k ≤ 64) :
    (a.setWidth (64 + 64) <<< i).extractLsb' k 64 =
      a >>> (k - i) := by
  apply BitVec.eq_of_getLsbD_eq
  intro j hj
  rw [BitVec.getLsbD_extractLsb', BitVec.getLsbD_shiftLeft,
    BitVec.getLsbD_setWidth, BitVec.getLsbD_ushiftRight]
  have hAt : k + j - i = k - i + j := by
    omega
  simp [hj, hAt, show k + j < 128 by omega,
    show ¬ k + j < i by omega, show k - i + j < 128 by omega]

/- A slice of a product is a sum of slices. -/
theorem extract_product
    (a b : BitVec 64)
    (k : Nat) :
    (Gf2.product a b).extractLsb' k 64 =
      Gf2.xorFold (List.range 64) (fun i => b.getLsbD i)
        (fun i =>
          (a.setWidth (64 + 64) <<< i).extractLsb' k 64) := by
  apply Gf2.map_xorFold
    (g := fun x : BitVec (64 + 64) => x.extractLsb' k 64)
  · apply BitVec.eq_of_getLsbD_eq
    intro j hj
    simp
  · intro x y
    apply BitVec.eq_of_getLsbD_eq
    intro j hj
    simp [hj]

theorem clmulr_eq
    (a b : BitVec 64) :
    clmulr a b = (Gf2.product a b).extractLsb' 63 64 := by
  unfold clmulr
  rw [extract_product, clmulLoop_eq]
  apply Gf2.xorFold_congr
  intro i hi
  rw [List.mem_range] at hi
  exact (extract_shiftLeft a (by omega) (by decide)).symm

/- The first step of the loop would add nothing. -/
theorem clmulh_eq
    (a b : BitVec 64) :
    clmulh a b = (Gf2.product a b).extractLsb' 64 64 := by
  unfold clmulh
  have hRange : List.range 64 = 0 :: (List.range 64).drop 1 :=
    rfl
  have hFirst : (a.setWidth (64 + 64) <<< 0).extractLsb'
      64 64 = 0#64 := by
    rw [extract_shiftLeft a (by decide) (by decide)]
    exact BitVec.ushiftRight_eq_zero (by decide)
  rw [extract_product, clmulLoop_eq, hRange,
    Gf2.xorFold_cons, hFirst, ite_self, BitVec.zero_xor]
  apply Gf2.xorFold_congr
  intro i hi
  have hMem : i ∈ List.range 64 := List.mem_of_mem_drop hi
  rw [List.mem_range] at hMem
  exact (extract_shiftLeft a (by omega) (by decide)).symm

theorem clmul_eq
    (a b : BitVec 64) :
    clmul a b = (Gf2.product a b).extractLsb' 0 64 := by
  unfold clmul
  rw [extract_product, clmulLoop_eq]
  apply Gf2.xorFold_congr
  intro i hi
  apply BitVec.eq_of_getLsbD_eq
  intro j hj
  rw [BitVec.getLsbD_extractLsb', BitVec.getLsbD_shiftLeft,
    BitVec.getLsbD_shiftLeft, BitVec.getLsbD_setWidth]
  simp [hj, show j < 128 by omega, show j - i < 128 by omega]

end RiscvEm

------------------------------------------------------------
-- Carry-Less Multiplication
------------------------------------------------------------

namespace RiscvEm

open Gf2

variable {σ : Type}

/- A product that respects sums on either side. -/
structure Bilinear
    (f : BitVec 64 → BitVec 64 → BitVec 64) : Prop where
  comm : ∀ a b, f a b = f b a
  xor_left : ∀ a b c, f (a ^^^ b) c = f a c ^^^ f b c
  xor_right : ∀ a b c, f a (b ^^^ c) = f a b ^^^ f a c

/-
  The high and the low half form a number whose digits are
  the coefficients of the product; the third operation gives
  its bits 126 to 63.
-/
structure CarryLess
    (lo hi r : BitVec 64 → BitVec 64 → BitVec 64) : Prop where
  number : ∀ a b, (hi a b ++ lo a b).toNat =
    (hi a b).toNat * 2 ^ 64 + (lo a b).toNat
  product : ∀ a b,
    poly (hi a b ++ lo a b) = poly a * poly b
  middle : ∀ a b,
    r a b = (hi a b ++ lo a b).extractLsb' 63 64
  bilinear_lo : Bilinear lo
  bilinear_hi : Bilinear hi
  bilinear_r : Bilinear r

/- A slice of products is bilinear because products are. -/
theorem bilinear_extract
    (k : Nat) :
    Bilinear (fun a b =>
      (Gf2.product a b).extractLsb' k 64) := by
  have hComm (a b : BitVec 64) :
      (Gf2.product a b).extractLsb' k 64 =
        (Gf2.product b a).extractLsb' k 64 := by
    rw [product_comm]
  have hRight (a b c : BitVec 64) :
      (Gf2.product a (b ^^^ c)).extractLsb' k 64 =
        (Gf2.product a b).extractLsb' k 64 ^^^
          (Gf2.product a c).extractLsb' k 64 := by
    rw [product_xor_right]
    apply BitVec.eq_of_getLsbD_eq
    intro j hj
    simp [hj]
  constructor
  · exact hComm
  · intro a b c
    rw [hComm, hRight, hComm c a, hComm c b]
  · exact hRight

theorem halves_append
    (p : BitVec (64 + 64)) :
    p.extractLsb' 64 64 ++ p.extractLsb' 0 64 = p := by
  apply BitVec.eq_of_getLsbD_eq
  intro j hj
  rw [BitVec.getLsbD_append]
  by_cases hLow : j < 64
  · simp [hLow]
  · rw [if_neg hLow, BitVec.getLsbD_extractLsb']
    simp [show j - 64 < 64 by omega,
      show 64 + (j - 64) = j by omega]

/- The halves of the product, put together. -/
theorem clmul_append
    (a b : BitVec 64) :
    clmulh a b ++ clmul a b = Gf2.product a b := by
  rw [clmulh_eq, clmul_eq, halves_append]

theorem clmul_isCarryLess :
    CarryLess clmul clmulh clmulr := by
  constructor
  · intro a b
    rw [BitVec.toNat_append, ← Nat.shiftLeft_add_eq_or_of_lt,
      Nat.shiftLeft_eq]
    exact (clmul a b).isLt
  · intro a b
    rw [clmul_append]
    exact poly_product a b
  · intro a b
    rw [clmul_append, clmulr_eq]
  · rw [show clmul = _ from funext₂ clmul_eq]
    exact bilinear_extract 0
  · rw [show clmulh = _ from funext₂ clmulh_eq]
    exact bilinear_extract 64
  · rw [show clmulr = _ from funext₂ clmulr_eq]
    exact bilinear_extract 63

/-
  The instructions write the low half, the high half and the
  middle of the product of the operands.
-/
theorem clmul_carry_less
    (P : Platform σ)
    (d : InstructionData)
    (s : State σ) :
    execCLMUL P d s =
        .ok (.next 4, s.setGpr d.rd
          (clmul (s.gpr d.rs1) (s.gpr d.rs2))) ∧
      execCLMULH P d s =
        .ok (.next 4, s.setGpr d.rd
          (clmulh (s.gpr d.rs1) (s.gpr d.rs2))) ∧
      execCLMULR P d s =
        .ok (.next 4, s.setGpr d.rd
          (clmulr (s.gpr d.rs1) (s.gpr d.rs2))) ∧
      CarryLess clmul clmulh clmulr :=
  ⟨rfl, rfl, rfl, clmul_isCarryLess⟩

end RiscvEm
