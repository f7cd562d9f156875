import RiscvEm.Decode.Lut

/-
  The enumeration in `build_lut`: `(sub_mask - d) & d` goes
  through the subsets of the don't care bits `d`, each of
  them once, and the indices that are entered on the way are
  those of the words that agree with the instruction.

  Key definitions include:
    * `subMaskAt`
    * `SubsetsEnumerated`
    * `LoopCounted`

  Key theorems include `subset_enumeration`.
-/

------------------------------------------------------------
-- Sub Masks And Rounds
------------------------------------------------------------

namespace RiscvEm

/- `sub_mask` after `n` steps from zero. -/
def subMaskAt
    (d : BitVec 32)
    (n : Nat) : BitVec 32 :=
  (fun subMask => (subMask - d) &&& d)^[n] 0

/- The index of the round with `subMask`. -/
def lutIdx
    (hashMask : BitVec 32)
    (inst : Instruction)
    (subMask : BitVec 32) : Nat :=
  pextU32 ((inst.matchBits &&& hashMask) ||| subMask) hashMask

/-
  Every subset is met once before the sub mask is back at
  zero, and the indices are in bounds and those of the words
  that agree.
-/
structure SubsetsEnumerated
    (hashMask : BitVec 32)
    (inst : Instruction)
    (d : BitVec 32) : Prop where
  inside : ∀ n, subMaskAt d n &&& d = subMaskAt d n
  once : ∀ s, s &&& d = s →
    ∃! n, n < 2 ^ popcountU32 d ∧ subMaskAt d n = s
  back : subMaskAt d (2 ^ popcountU32 d) = 0
  before : ∀ n, 0 < n → n < 2 ^ popcountU32 d →
    subMaskAt d n ≠ 0
  index_lt : ∀ n, lutIdx hashMask inst (subMaskAt d n) <
    2 ^ popcountU32 hashMask
  indices : ∀ i,
    (∃ n < 2 ^ popcountU32 d,
      lutIdx hashMask inst (subMaskAt d n) = i) ↔
    ∃ w, HashAgrees hashMask w inst ∧ pextU32 w hashMask = i

/- Sub mask and table after `n` rounds of the loop. -/
def fillRounds
    (hashMask : BitVec 32)
    (lutSize : Nat)
    (inst : Instruction)
    (lut : Lut) : Nat → BitVec 32 × Lut
  | 0 => (0, lut)
  | n + 1 =>
      let r := fillRounds hashMask lutSize inst lut n
      fillStep hashMask lutSize inst r.1 r.2

/-
  The loop goes through the sub masks, never finds an index
  outside of the table, and ends after as many rounds as `d`
  has subsets.
-/
structure LoopCounted
    (hashMask : BitVec 32)
    (lutSize : Nat)
    (inst : Instruction)
    (lut : Lut)
    (d : BitVec 32) : Prop where
  masks : ∀ n,
    (fillRounds hashMask lutSize inst lut n).1 = subMaskAt d n
  index_lt : ∀ n,
    lutIdx hashMask inst
      (fillRounds hashMask lutSize inst lut n).1 < lutSize
  ends : ∀ fuel, fillLoop hashMask lutSize inst fuel 0 lut =
    if 2 ^ popcountU32 d ≤ fuel then
      some (fillRounds hashMask lutSize inst lut
        (2 ^ popcountU32 d)).2
    else
      none

end RiscvEm

------------------------------------------------------------
-- The Sub Masks
------------------------------------------------------------

namespace RiscvEm

variable {d hashMask : BitVec 32}
variable {inst : Instruction}

/- The sub mask of a step is the subset of its rank. -/
theorem subMaskAt_eq
    (d : BitVec 32)
    (n : Nat) :
    subMaskAt d n = BitVec.ofNat 32
      (Bits.pdep 32 (n % 2 ^ popcountU32 d) d.toNat) := by
  have hSteps : (subMaskAt d n).toNat =
      (Bits.nextSubset 32 d.toNat)^[n] 0 := by
    unfold subMaskAt
    induction n with
    | zero => rfl
    | succ n ih =>
        rw [Function.iterate_succ_apply',
          Function.iterate_succ_apply', ← ih,
          BitVec.toNat_and, BitVec.toNat_sub,
          Bits.nextSubset, Nat.add_comm]
  apply BitVec.eq_of_toNat_eq
  rw [toNat_pdep, hSteps, Bits.iterate_nextSubset d.isLt]
  rfl

theorem subMaskAt_and
    (d : BitVec 32)
    (n : Nat) :
    subMaskAt d n &&& d = subMaskAt d n := by
  apply BitVec.eq_of_toNat_eq
  rw [subMaskAt_eq, BitVec.toNat_and, toNat_pdep,
    Bits.pdep_and]

/- The rank of a sub mask is its number. -/
theorem pext_subMaskAt
    {n : Nat}
    (hn : n < 2 ^ popcountU32 d) :
    Bits.pext 32 (subMaskAt d n).toNat d.toNat = n := by
  rw [subMaskAt_eq, toNat_pdep, Nat.mod_eq_of_lt hn]
  exact Bits.pext_pdep hn

/- A subset is the sub mask of its rank. -/
theorem subMaskAt_pext
    {s : BitVec 32}
    (hs : s &&& d = s) :
    subMaskAt d (Bits.pext 32 s.toNat d.toNat) = s := by
  have hRank : Bits.pext 32 s.toNat d.toNat <
      2 ^ popcountU32 d := Bits.pext_lt 32 _ _
  apply BitVec.eq_of_toNat_eq
  rw [subMaskAt_eq, toNat_pdep, Nat.mod_eq_of_lt hRank,
    Bits.pdep_pext d.isLt, ← BitVec.toNat_and, hs]

theorem subMaskAt_back
    (d : BitVec 32) :
    subMaskAt d (2 ^ popcountU32 d) = 0 := by
  rw [subMaskAt_eq, Nat.mod_self, Bits.pdep_zero]
  rfl

theorem subMaskAt_ne_zero
    {n : Nat}
    (hPos : 0 < n)
    (hn : n < 2 ^ popcountU32 d) :
    subMaskAt d n ≠ 0 := by
  intro hZero
  have hRank := pext_subMaskAt hn
  rw [hZero] at hRank
  have hNone := Bits.pext_zero 32 d.toNat
  have hNat : (0 : BitVec 32).toNat = 0 := rfl
  rw [hNat, hNone] at hRank
  omega

theorem lutIdx_lt
    (hashMask : BitVec 32)
    (inst : Instruction)
    (subMask : BitVec 32) :
    lutIdx hashMask inst subMask <
      2 ^ popcountU32 hashMask :=
  Bits.pext_lt 32 _ _

/- The indices are those of the words that agree. -/
theorem lutIdx_iff
    (i : Nat) :
    (∃ n < 2 ^ popcountU32 (dontCare hashMask inst),
      lutIdx hashMask inst
        (subMaskAt (dontCare hashMask inst) n) = i) ↔
    ∃ w, HashAgrees hashMask w inst ∧
      pextU32 w hashMask = i := by
  have hRound : ∀ n < 2 ^ popcountU32 (dontCare hashMask inst),
      lutIdx hashMask inst
        (subMaskAt (dontCare hashMask inst) n) =
        pextU32 (roundWord hashMask inst n) hashMask := by
    intro n hn
    unfold lutIdx roundWord
    rw [subMaskAt_eq, Nat.mod_eq_of_lt hn]
  constructor
  · intro hVisited
    rcases hVisited with ⟨n, hn, hIdx⟩
    refine ⟨roundWord hashMask inst n, ?_, ?_⟩
    · exact (exists_round_iff _).mp ⟨n, hn, rfl⟩
    · rw [← hRound n hn, hIdx]
  · intro hWord
    rcases hWord with ⟨w, hAgrees, hIdx⟩
    rcases (exists_round_iff w).mpr hAgrees with ⟨n, hn, hEq⟩
    exact ⟨n, hn, (hRound n hn).trans (hEq.trans hIdx)⟩

theorem subsetsEnumerated
    (hashMask : BitVec 32)
    (inst : Instruction) :
    SubsetsEnumerated hashMask inst
      (dontCare hashMask inst) := by
  refine
    { inside := subMaskAt_and _
      once := ?_
      back := subMaskAt_back _
      before := fun n hPos hn => subMaskAt_ne_zero hPos hn
      index_lt := fun n => lutIdx_lt hashMask inst _
      indices := lutIdx_iff }
  intro s hs
  refine ⟨Bits.pext 32 s.toNat _,
    ⟨Bits.pext_lt 32 _ _, subMaskAt_pext hs⟩, ?_⟩
  intro n hn
  rw [← hn.2]
  exact (pext_subMaskAt hn.1).symm

end RiscvEm

------------------------------------------------------------
-- The Loop
------------------------------------------------------------

namespace RiscvEm

variable {hashMask : BitVec 32}
variable {lutSize : Nat}

theorem fillRounds_fst
    (hSize : 2 ^ popcountU32 hashMask = lutSize)
    (inst : Instruction)
    (lut : Lut)
    (n : Nat) :
    (fillRounds hashMask lutSize inst lut n).1 =
      subMaskAt (dontCare hashMask inst) n := by
  induction n with
  | zero => rfl
  | succ n ih =>
      have hLt := lutIdx_lt hashMask inst
        (fillRounds hashMask lutSize inst lut n).1
      have hIdx : ¬ lutSize ≤ lutIdx hashMask inst
          (fillRounds hashMask lutSize inst lut n).1 := by
        omega
      have hRound : fillRounds hashMask lutSize inst lut
          (n + 1) =
          fillStep hashMask lutSize inst
            (fillRounds hashMask lutSize inst lut n).1
            (fillRounds hashMask lutSize inst lut n).2 := rfl
      have hStep : (fillRounds hashMask lutSize inst lut
          (n + 1)).1 =
          ((fillRounds hashMask lutSize inst lut n).1 -
            dontCare hashMask inst) &&&
              dontCare hashMask inst := by
        rw [hRound]
        unfold fillStep
        dsimp only
        rw [← lutIdx, if_neg hIdx]
        rfl
      rw [hStep, ih]
      unfold subMaskAt
      rw [Function.iterate_succ_apply']

/-
  From round `j` on the loop needs the rounds that are left.
  The induction is on the fuel.
-/
theorem fillLoop_rounds
    (hSize : 2 ^ popcountU32 hashMask = lutSize)
    (inst : Instruction)
    (lut : Lut)
    (fuel : Nat) :
    ∀ j < 2 ^ popcountU32 (dontCare hashMask inst),
      fillLoop hashMask lutSize inst fuel
          (fillRounds hashMask lutSize inst lut j).1
          (fillRounds hashMask lutSize inst lut j).2 =
        if 2 ^ popcountU32 (dontCare hashMask inst) ≤
            j + fuel then
          some (fillRounds hashMask lutSize inst lut
            (2 ^ popcountU32 (dontCare hashMask inst))).2
        else
          none := by
  induction fuel with
  | zero =>
      intro j hj
      rw [if_neg (by omega), fillLoop]
  | succ fuel ih =>
      intro j hj
      have hNext : fillStep hashMask lutSize inst
          (fillRounds hashMask lutSize inst lut j).1
          (fillRounds hashMask lutSize inst lut j).2 =
          fillRounds hashMask lutSize inst lut (j + 1) := rfl
      have hMask := fillRounds_fst hSize inst lut (j + 1)
      rw [fillLoop, hNext]
      by_cases hLast :
          j + 1 = 2 ^ popcountU32 (dontCare hashMask inst)
      · rw [hMask, hLast, subMaskAt_back, if_neg (by simp),
          if_pos (by omega)]
      · have hLt :
            j + 1 < 2 ^ popcountU32 (dontCare hashMask inst) :=
          by omega
        have hGoes := subMaskAt_ne_zero (Nat.succ_pos j) hLt
        rw [if_pos (by rw [hMask]; exact hGoes), ih _ hLt,
          Nat.add_right_comm, Nat.add_assoc]

theorem loopCounted
    (hSize : 2 ^ popcountU32 hashMask = lutSize)
    (inst : Instruction)
    (lut : Lut) :
    LoopCounted hashMask lutSize inst lut
      (dontCare hashMask inst) := by
  refine ⟨fillRounds_fst hSize inst lut, ?_, ?_⟩
  · intro n
    rw [← hSize]
    exact lutIdx_lt hashMask inst _
  · intro fuel
    have hRun := fillLoop_rounds hSize inst lut fuel 0
      (Nat.two_pow_pos _)
    rw [Nat.zero_add] at hRun
    exact hRun

/-
  For all masks the sub masks are the subsets of the don't
  care bits, each met once, and for both tables the loop goes
  through them and through no more.
-/
theorem subset_enumeration :
    (∀ hashMask inst, SubsetsEnumerated hashMask inst
      (dontCare hashMask inst)) ∧
    (∀ inst lut, LoopCounted HASH_MASK LUT_SIZE inst lut
      (dontCare HASH_MASK inst)) ∧
    ∀ inst lut, LoopCounted HASH_MASK_16 LUT_SIZE_16 inst lut
      (dontCare HASH_MASK_16 inst) := by
  have hSize : 2 ^ popcountU32 HASH_MASK = LUT_SIZE := by
    decide
  have hSize16 : 2 ^ popcountU32 HASH_MASK_16 =
      LUT_SIZE_16 := by
    decide
  exact ⟨subsetsEnumerated, loopCounted hSize,
    loopCounted hSize16⟩

end RiscvEm
