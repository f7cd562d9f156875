import RiscvEm.Decode.Expansion

/-
  The immediates of half-words are those of their expansions:
  the functions of the decoder against the layouts of the
  formats.

  Key theorems include:
    * `sext_eq`
    * `immI_iType`
    * `dCJImm_eq`
-/

------------------------------------------------------------
-- Sign Extension
------------------------------------------------------------

namespace RiscvEm

/- The shifts of `sext` extend the lowest `n` bits. -/
theorem sext_eq
    (x : BitVec 32)
    {n : Nat}
    (hPos : 0 < n)
    (hLe : n ≤ 32) :
    sext x n = (x.setWidth n).signExtend 64 := by
  unfold sext
  apply BitVec.eq_of_getLsbD_eq
  intro j hj
  simp only [BitVec.getLsbD_signExtend,
    BitVec.getLsbD_sshiftRight, BitVec.getLsbD_shiftLeft,
    BitVec.getLsbD_setWidth, BitVec.msb_sshiftRight,
    BitVec.msb_setWidth, BitVec.msb_shiftLeft,
    BitVec.getMsbD_eq_getLsbD]
  have hTop : 32 - 1 - (32 - n) = n - 1 := by omega
  by_cases hLow : j < n
  · simp [hj, hLow, show j < 32 by omega,
      show ¬ 32 ≤ j by omega,
      show 32 - n + j < 32 by omega,
      show ¬ 32 - n + j < 32 - n by omega,
      show 32 - n + j - (32 - n) = j by omega]
  · by_cases hMid : j < 32
    · simp [hj, hLow, hMid, hTop, hPos,
        show ¬ 32 ≤ j by omega,
        show ¬ 32 - n + j < 32 by omega,
        show 32 - n < 32 by omega]
    · simp [hj, hLow, hMid, hTop, hPos,
        show 32 - n < 32 by omega]

/- Extending twice is extending once. -/
theorem signExtend_twice
    {n m : Nat}
    (x : BitVec n)
    (hLe : n ≤ m)
    (hWord : m ≤ 64) :
    (x.signExtend m).signExtend 64 = x.signExtend 64 := by
  apply BitVec.eq_of_toInt_eq
  rw [BitVec.toInt_signExtend_of_le hWord,
    BitVec.toInt_signExtend_of_le hLe,
    BitVec.toInt_signExtend_of_le (hLe.trans hWord)]

end RiscvEm

------------------------------------------------------------
-- Immediates Of The Base Formats
------------------------------------------------------------

namespace RiscvEm

open Formats

/- The immediate of an I-type word. -/
theorem immI_eq
    (w : BitVec 32) :
    immI w = (w.extractLsb' 20 12).signExtend 64 := by
  unfold immI
  rw [sext_eq _ (by decide) (by decide),
    BitVec.setWidth_ushiftRight_eq_extractLsb]

/-
  The immediate of an S-type word is put together from two
  fields.
-/
theorem immS_eq
    (w : BitVec 32) :
    immS w =
      (w.extractLsb' 25 7 ++ w.extractLsb' 7 5).signExtend
        64 := by
  unfold immS
  rw [sext_eq _ (by decide) (by decide)]
  apply congrArg (BitVec.signExtend 64)
  apply BitVec.eq_of_getLsbD_eq
  intro j hj
  simp only [BitVec.getLsbD_setWidth, BitVec.getLsbD_or,
    BitVec.getLsbD_and, BitVec.getLsbD_ushiftRight,
    BitVec.getLsbD_append, BitVec.getLsbD_extractLsb']
  interval_cases j <;> simp

/- The offset of a branch is even. -/
theorem immB_eq
    (w : BitVec 32) :
    immB w =
      (w.extractLsb' 31 1 ++ w.extractLsb' 7 1 ++
        w.extractLsb' 25 6 ++ w.extractLsb' 8 4 ++
        0#1).signExtend 64 := by
  unfold immB getBits
  rw [sext_eq _ (by decide) (by decide)]
  apply congrArg (BitVec.signExtend 64)
  apply BitVec.eq_of_getLsbD_eq
  intro j hj
  simp only [BitVec.getLsbD_setWidth, BitVec.getLsbD_or,
    BitVec.getLsbD_and, BitVec.getLsbD_ushiftRight,
    BitVec.getLsbD_shiftLeft, BitVec.getLsbD_append,
    BitVec.getLsbD_extractLsb']
  interval_cases j <;> simp

/- The offset of a jump is even. -/
theorem immJ_eq
    (w : BitVec 32) :
    immJ w =
      (w.extractLsb' 31 1 ++ w.extractLsb' 12 8 ++
        w.extractLsb' 20 1 ++ w.extractLsb' 21 10 ++
        0#1).signExtend 64 := by
  unfold immJ getBits
  rw [sext_eq _ (by decide) (by decide)]
  apply congrArg (BitVec.signExtend 64)
  apply BitVec.eq_of_getLsbD_eq
  intro j hj
  simp only [BitVec.getLsbD_setWidth, BitVec.getLsbD_or,
    BitVec.getLsbD_and, BitVec.getLsbD_ushiftRight,
    BitVec.getLsbD_shiftLeft, BitVec.getLsbD_append,
    BitVec.getLsbD_extractLsb']
  interval_cases j <;> simp

/- The upper immediate has twelve zeros. -/
theorem immU_eq
    (w : BitVec 32) :
    immU w = (w.extractLsb' 12 20 ++ 0#12).signExtend 64 := by
  unfold immU
  apply congrArg (BitVec.signExtend 64)
  apply BitVec.eq_of_getLsbD_eq
  intro j hj
  simp only [BitVec.getLsbD_and, BitVec.getLsbD_append,
    BitVec.getLsbD_extractLsb']
  interval_cases j <;> simp

/- The immediates in the words of the formats. -/
theorem immI_iType
    (imm : BitVec 12)
    (rs1 rd : BitVec 5)
    (funct3 : BitVec 3)
    (opcode : BitVec 7) :
    immI (iType imm rs1 funct3 rd opcode) =
      imm.signExtend 64 := by
  rw [immI_eq, (iType_fields _ _ _ _ _).2.2]

/- The shift amount of a word that was made from it. -/
theorem shamt64_iType
    (funct6 amount : BitVec 6)
    (rs1 rd : BitVec 5)
    (funct3 : BitVec 3)
    (opcode : BitVec 7) :
    shamt64 (iType (funct6 ++ amount) rs1 funct3 rd opcode) =
      amount.setWidth 64 := by
  unfold shamt64
  rw [immI_iType]
  apply BitVec.eq_of_getLsbD_eq
  intro j hj
  simp only [BitVec.getLsbD_and, BitVec.getLsbD_signExtend,
    BitVec.getLsbD_append, BitVec.getLsbD_setWidth]
  by_cases hLow : j < 6
  · interval_cases j <;> simp
  · have hMask : BitVec.getLsbD (0x3f : BitVec 64) j = false := by
      apply Nat.testBit_lt_two_pow
      exact Nat.lt_of_lt_of_le (by decide)
        (Nat.pow_le_pow_right (by decide) (not_lt.mp hLow))
    rw [hMask, BitVec.getLsbD_of_ge amount j (not_lt.mp hLow)]
    simp

/- The immediate of an S-type word that was made from it. -/
theorem immS_sType
    (imm : BitVec 12)
    (rs2 rs1 : BitVec 5)
    (funct3 : BitVec 3)
    (opcode : BitVec 7) :
    immS (sType imm rs2 rs1 funct3 opcode) =
      imm.signExtend 64 := by
  rw [immS_eq, (sType_fields _ _ _ _ _).2.2]

/- An offset of code is even. -/
theorem append_zero_of_even
    {n : Nat}
    (x : BitVec (n + 1))
    (hEven : x.getLsbD 0 = false) :
    x.extractLsb' 1 n ++ 0#1 = x := by
  apply BitVec.eq_of_getLsbD_eq
  intro j hj
  simp only [BitVec.getLsbD_append, BitVec.getLsbD_extractLsb']
  cases j with
  | zero => simpa using hEven
  | succ j =>
      simp [show j < n by omega, Nat.add_comm 1 j]

/- An even offset of a branch is decoded from its word. -/
theorem immB_bType
    (imm : BitVec 13)
    (hEven : imm.getLsbD 0 = false)
    (rs2 rs1 : BitVec 5)
    (funct3 : BitVec 3)
    (opcode : BitVec 7) :
    immB (bType imm rs2 rs1 funct3 opcode) =
      imm.signExtend 64 := by
  rw [immB_eq, (bType_fields _ _ _ _ _).2.2,
    append_zero_of_even imm hEven]

/- An even offset of a jump is decoded from its word. -/
theorem immJ_jType
    (imm : BitVec 21)
    (hEven : imm.getLsbD 0 = false)
    (rd : BitVec 5)
    (opcode : BitVec 7) :
    immJ (jType imm rd opcode) = imm.signExtend 64 := by
  rw [immJ_eq, (jType_fields _ _ _).2,
    append_zero_of_even imm hEven]

/- That of a U-type word. -/
theorem immU_uType
    (imm : BitVec 20)
    (rd : BitVec 5)
    (opcode : BitVec 7) :
    immU (uType imm rd opcode) =
      (imm ++ 0#12).signExtend 64 := by
  rw [immU_eq, (uType_fields _ _ _).2]

end RiscvEm

------------------------------------------------------------
-- Immediates Of The Compressed Formats
------------------------------------------------------------

namespace RiscvEm

open Compressed

variable (w : BitVec 32)

/- An offset without a sign, as an immediate of 12 bits. -/
theorem eq_signExtend_of_small
    {n : Nat}
    {x : BitVec 32}
    {imm : BitVec n}
    (hLt : n < 12)
    (hEq : x = imm.setWidth 32) :
    x.setWidth 64 = (imm.setWidth 12).signExtend 64 := by
  have hSmall : (imm.setWidth 12).msb = false := by
    rw [BitVec.msb_setWidth,
      BitVec.getLsbD_of_ge imm _ (by omega)]
    rfl
  rw [BitVec.signExtend_eq_setWidth_of_msb_false hSmall, hEq]
  apply BitVec.eq_of_getLsbD_eq
  intro j hj
  simp only [BitVec.getLsbD_setWidth]
  by_cases hLow : j < 12
  · simp [hLow, show j < 32 by omega]
  · simp [BitVec.getLsbD_of_ge imm j (by omega)]

/- `C.ADDI4SPN` takes its offset apart over eight bits. -/
theorem dCUimm_eq :
    dCUimm w = (uimmSpn (w.setWidth 16)).signExtend 64 := by
  unfold uimmSpn
  apply eq_signExtend_of_small (by decide)
  apply BitVec.eq_of_getLsbD_eq
  intro j hj
  simp only [BitVec.getLsbD_or, BitVec.getLsbD_and,
    BitVec.getLsbD_ushiftRight, BitVec.getLsbD_setWidth,
    BitVec.getLsbD_append, BitVec.getLsbD_extractLsb']
  interval_cases j <;> simp

/- The offset of `C.LW` and `C.SW`. -/
theorem dCUimmCl_eq :
    dCUimmCl w = (uimmWord (w.setWidth 16)).signExtend 64 := by
  unfold uimmWord
  apply eq_signExtend_of_small (by decide)
  apply BitVec.eq_of_getLsbD_eq
  intro j hj
  simp only [BitVec.getLsbD_or, BitVec.getLsbD_and,
    BitVec.getLsbD_ushiftRight, BitVec.getLsbD_shiftLeft,
    BitVec.getLsbD_setWidth, BitVec.getLsbD_append,
    BitVec.getLsbD_extractLsb', getBits]
  interval_cases j <;> simp

/- The offset of `C.LD` and `C.SD`. -/
theorem dCUimmCl1_eq :
    dCUimmCl1 w = (uimmDouble (w.setWidth 16)).signExtend 64 := by
  unfold uimmDouble
  apply eq_signExtend_of_small (by decide)
  apply BitVec.eq_of_getLsbD_eq
  intro j hj
  simp only [BitVec.getLsbD_or, BitVec.getLsbD_and,
    BitVec.getLsbD_ushiftRight, BitVec.getLsbD_shiftLeft,
    BitVec.getLsbD_setWidth, BitVec.getLsbD_append,
    BitVec.getLsbD_extractLsb', getBits]
  interval_cases j <;> simp

/- The offset of `C.LWSP`. -/
theorem dCUimmLwsp_eq :
    dCUimmLwsp w =
      (uimmWordSp (w.setWidth 16)).signExtend 64 := by
  unfold uimmWordSp
  apply eq_signExtend_of_small (by decide)
  apply BitVec.eq_of_getLsbD_eq
  intro j hj
  simp only [BitVec.getLsbD_or, BitVec.getLsbD_and,
    BitVec.getLsbD_ushiftRight, BitVec.getLsbD_shiftLeft,
    BitVec.getLsbD_setWidth, BitVec.getLsbD_append,
    BitVec.getLsbD_extractLsb']
  interval_cases j <;> simp

/- The offset of `C.LDSP`. -/
theorem dCUimmLdsp_eq :
    dCUimmLdsp w =
      (uimmDoubleSp (w.setWidth 16)).signExtend 64 := by
  unfold uimmDoubleSp
  apply eq_signExtend_of_small (by decide)
  apply BitVec.eq_of_getLsbD_eq
  intro j hj
  simp only [BitVec.getLsbD_or, BitVec.getLsbD_and,
    BitVec.getLsbD_ushiftRight, BitVec.getLsbD_shiftLeft,
    BitVec.getLsbD_setWidth, BitVec.getLsbD_append,
    BitVec.getLsbD_extractLsb']
  interval_cases j <;> simp

/- The offset of `C.SWSP`. -/
theorem dCUimmSwsp_eq :
    dCUimmSwsp w =
      (uimmStoreWordSp (w.setWidth 16)).signExtend 64 := by
  unfold uimmStoreWordSp
  apply eq_signExtend_of_small (by decide)
  apply BitVec.eq_of_getLsbD_eq
  intro j hj
  simp only [BitVec.getLsbD_or, BitVec.getLsbD_and,
    BitVec.getLsbD_ushiftRight, BitVec.getLsbD_shiftLeft,
    BitVec.getLsbD_setWidth, BitVec.getLsbD_append,
    BitVec.getLsbD_extractLsb']
  interval_cases j <;> simp

/- The offset of `C.SDSP`. -/
theorem dCUimmSdsp_eq :
    dCUimmSdsp w =
      (uimmStoreDoubleSp (w.setWidth 16)).signExtend 64 := by
  unfold uimmStoreDoubleSp
  apply eq_signExtend_of_small (by decide)
  apply BitVec.eq_of_getLsbD_eq
  intro j hj
  simp only [BitVec.getLsbD_or, BitVec.getLsbD_and,
    BitVec.getLsbD_ushiftRight, BitVec.getLsbD_shiftLeft,
    BitVec.getLsbD_setWidth, BitVec.getLsbD_append,
    BitVec.getLsbD_extractLsb']
  interval_cases j <;> simp

/- The immediate of `C.ADDI` and its like. -/
theorem dCNzimm_eq :
    dCNzimm w = (imm6 (w.setWidth 16)).signExtend 64 := by
  unfold dCNzimm imm6
  rw [sext_eq _ (by decide) (by decide)]
  apply congrArg (BitVec.signExtend 64)
  apply BitVec.eq_of_getLsbD_eq
  intro j hj
  simp only [BitVec.getLsbD_or, BitVec.getLsbD_and,
    BitVec.getLsbD_ushiftRight, BitVec.getLsbD_shiftLeft,
    BitVec.getLsbD_setWidth, BitVec.getLsbD_append,
    BitVec.getLsbD_extractLsb']
  interval_cases j <;> simp

/- The immediate of `C.ADDI16SP`. -/
theorem dCNzimm9_eq :
    dCNzimm9 w = (immSp (w.setWidth 16)).signExtend 64 := by
  unfold dCNzimm9 immSp
  rw [sext_eq _ (by decide) (by decide)]
  apply congrArg (BitVec.signExtend 64)
  apply BitVec.eq_of_getLsbD_eq
  intro j hj
  simp only [BitVec.getLsbD_or, BitVec.getLsbD_and,
    BitVec.getLsbD_ushiftRight, BitVec.getLsbD_shiftLeft,
    BitVec.getLsbD_setWidth, BitVec.getLsbD_append,
    BitVec.getLsbD_extractLsb']
  interval_cases j <;> simp

/- The offset of `C.J`. -/
theorem dCJImm_eq :
    dCJImm w = (immJump (w.setWidth 16)).signExtend 64 := by
  unfold dCJImm immJump
  rw [sext_eq _ (by decide) (by decide)]
  apply congrArg (BitVec.signExtend 64)
  apply BitVec.eq_of_getLsbD_eq
  intro j hj
  simp only [BitVec.getLsbD_or, BitVec.getLsbD_and,
    BitVec.getLsbD_ushiftRight, BitVec.getLsbD_shiftLeft,
    BitVec.getLsbD_setWidth, BitVec.getLsbD_append,
    BitVec.getLsbD_extractLsb']
  interval_cases j <;> simp

/- The offset of `C.BEQZ` and `C.BNEZ`. -/
theorem dCBImm_eq :
    dCBImm w = (immBranch (w.setWidth 16)).signExtend 64 := by
  unfold dCBImm immBranch
  rw [sext_eq _ (by decide) (by decide)]
  apply congrArg (BitVec.signExtend 64)
  apply BitVec.eq_of_getLsbD_eq
  intro j hj
  simp only [BitVec.getLsbD_or, BitVec.getLsbD_and,
    BitVec.getLsbD_ushiftRight, BitVec.getLsbD_shiftLeft,
    BitVec.getLsbD_setWidth, BitVec.getLsbD_append,
    BitVec.getLsbD_extractLsb']
  interval_cases j <;> simp

/- The shift amounts are not extended by their sign. -/
theorem dCUimmArith_eq :
    dCUimmArith w = (imm6 (w.setWidth 16)).setWidth 64 := by
  unfold dCUimmArith imm6
  apply BitVec.eq_of_getLsbD_eq
  intro j hj
  simp only [BitVec.getLsbD_or, BitVec.getLsbD_and,
    BitVec.getLsbD_ushiftRight, BitVec.getLsbD_shiftLeft,
    BitVec.getLsbD_setWidth, BitVec.getLsbD_append,
    BitVec.getLsbD_extractLsb']
  interval_cases j <;> simp

end RiscvEm
