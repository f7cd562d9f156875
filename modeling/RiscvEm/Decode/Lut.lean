import RiscvEm.Decode.Table
import RiscvEm.Lib.Pext
import Mathlib.Logic.Function.Basic

/-
  The lookup tables of the decoder and the loop that fills
  them.

  Every instruction is entered at the index of every word
  that agrees with it on the hashed bits of its mask; where
  two instructions meet, the one with more mask bits stays.

  Key definitions include:
    * `fillLoop`
    * `buildLut`
    * `FirstMostSpecific`

  Key theorems include `buildLut_spec`.
-/

------------------------------------------------------------
-- Filling The Tables
------------------------------------------------------------

namespace RiscvEm

def HASH_MASK : BitVec 32 := 0xFFF0707F
def HASH_MASK_16 : BitVec 32 := 0x0000FFFF
def LUT_SIZE : Nat := 2 ^ 22
def LUT_SIZE_16 : Nat := 2 ^ 16

/- `_pext_u32`. -/
def pextU32
    (x mask : BitVec 32) : Nat :=
  Bits.pext 32 x.toNat mask.toNat

/- `__builtin_popcount`. -/
def popcountU32
    (x : BitVec 32) : Nat :=
  Bits.popcount 32 x.toNat

/- A table of pointers, null where no instruction is. -/
abbrev Lut := Nat → Option Instruction

/- What a slot holds after `inst` was tried on it. -/
@[irreducible]
def place
    (slot : Option Instruction)
    (inst : Instruction) : Option Instruction :=
  match slot with
  | some cur =>
      if popcountU32 cur.mask < popcountU32 inst.mask then
        some inst
      else
        some cur
  | none => some inst

/-
  The body of the `do` loop: the next subset of the don't
  care bits and the updated table. An index outside the table
  leaves both as they are.
-/
def fillStep
    (hashMask : BitVec 32)
    (lutSize : Nat)
    (inst : Instruction)
    (subMask : BitVec 32)
    (lut : Lut) : BitVec 32 × Lut :=
  let effectiveMask := inst.mask &&& hashMask
  let dontCareBits := hashMask &&& ~~~effectiveMask
  let testInst := (inst.matchBits &&& hashMask) ||| subMask
  let lutIdx := pextU32 testInst hashMask
  if lutSize ≤ lutIdx then
    (subMask, lut)
  else
    ((subMask - dontCareBits) &&& dontCareBits,
      Function.update lut lutIdx (place (lut lutIdx) inst))

/-
  The `do ... while(sub_mask != 0)` loop; `none` when it does
  not end within `fuel` rounds.
-/
def fillLoop
    (hashMask : BitVec 32)
    (lutSize : Nat)
    (inst : Instruction) :
    Nat → BitVec 32 → Lut → Option Lut
  | 0, _, _ => none
  | fuel + 1, subMask, lut =>
      let next := fillStep hashMask lutSize inst subMask lut
      if next.1 ≠ 0 then
        fillLoop hashMask lutSize inst fuel next.1 next.2
      else
        some next.2

structure Luts where
  lut : Lut
  lut16 : Lut

/- Enter one instruction into the table of its length. -/
def enterInstr
    (luts : Luts)
    (inst : Instruction) : Option Luts :=
  if inst.size = 2 then do
    let lut16 ← fillLoop HASH_MASK_16 LUT_SIZE_16 inst
      (2 ^ 32) 0 luts.lut16
    some { luts with lut16 := lut16 }
  else do
    let lut ← fillLoop HASH_MASK LUT_SIZE inst
      (2 ^ 32) 0 luts.lut
    some { luts with lut := lut }

def buildLut
    (instructions : List Instruction) : Option Luts :=
  instructions.foldlM enterInstr
    ⟨fun _ => none, fun _ => none⟩

end RiscvEm

------------------------------------------------------------
-- One Loop
------------------------------------------------------------

namespace RiscvEm

variable {hashMask : BitVec 32}
variable {inst : Instruction}

/- The don't care bits of an instruction under a hash mask. -/
def dontCare
    (hashMask : BitVec 32)
    (inst : Instruction) : BitVec 32 :=
  hashMask &&& ~~~(inst.mask &&& hashMask)

/- The word agrees with the hashed bits of the mask. -/
def HashAgrees
    (hashMask : BitVec 32)
    (w : BitVec 32)
    (inst : Instruction) : Prop :=
  w &&& (inst.mask &&& hashMask) =
    inst.matchBits &&& hashMask

instance
    (hashMask w : BitVec 32)
    (inst : Instruction) :
    Decidable (HashAgrees hashMask w inst) :=
  inferInstanceAs (Decidable (_ = _))

/- The word that the round of rank `i` enters. -/
def roundWord
    (hashMask : BitVec 32)
    (inst : Instruction)
    (i : Nat) : BitVec 32 :=
  (inst.matchBits &&& hashMask) |||
    BitVec.ofNat 32
      (Bits.pdep 32 i (dontCare hashMask inst).toNat)

/- The table after the rounds of ranks below `j`. -/
def lutAfter
    (hashMask : BitVec 32)
    (inst : Instruction)
    (lut : Lut) : Nat → Lut
  | 0 => lut
  | j + 1 =>
      let idx := pextU32 (roundWord hashMask inst j) hashMask
      Function.update (lutAfter hashMask inst lut j) idx
        (place (lutAfter hashMask inst lut j idx) inst)

theorem place_none
    (inst : Instruction) :
    place none inst = some inst := by
  rw [place]

theorem place_of_lt
    {cur inst : Instruction}
    (hLt : popcountU32 cur.mask < popcountU32 inst.mask) :
    place (some cur) inst = some inst := by
  rw [place, if_pos hLt]

theorem place_of_not_lt
    {cur inst : Instruction}
    (hLt : ¬ popcountU32 cur.mask <
      popcountU32 inst.mask) :
    place (some cur) inst = some cur := by
  rw [place, if_neg hLt]

theorem place_place
    (slot : Option Instruction)
    (inst : Instruction) :
    place (place slot inst) inst = place slot inst := by
  cases slot with
  | none =>
      rw [place_none, place_of_not_lt (Nat.lt_irrefl _)]
  | some cur =>
      by_cases hLt : popcountU32 cur.mask <
          popcountU32 inst.mask
      · rw [place_of_lt hLt, place_of_not_lt
          (Nat.lt_irrefl _)]
      · rw [place_of_not_lt hLt, place_of_not_lt hLt]

/- Every visited slot was tried once, the others not. -/
theorem lutAfter_eq
    (lut : Lut)
    (j idx : Nat) :
    lutAfter hashMask inst lut j idx =
      if ∃ i < j, pextU32 (roundWord hashMask inst i)
          hashMask = idx then
        place (lut idx) inst
      else
        lut idx := by
  induction j with
  | zero => simp [lutAfter]
  | succ j ih =>
      simp only [lutAfter]
      by_cases hHere : pextU32 (roundWord hashMask inst j)
          hashMask = idx
      · subst hHere
        have hVisited : ∃ i < j + 1,
            pextU32 (roundWord hashMask inst i) hashMask =
              pextU32 (roundWord hashMask inst j) hashMask :=
          ⟨j, by omega, rfl⟩
        rw [Function.update_self, ih, if_pos hVisited]
        split
        · rw [place_place]
        · rfl
      · rw [Function.update_of_ne (Ne.symm hHere), ih]
        congr 1
        apply propext
        constructor
        · rintro ⟨i, hi, hEq⟩
          exact ⟨i, by omega, hEq⟩
        · rintro ⟨i, hi, hEq⟩
          refine ⟨i, ?_, hEq⟩
          rcases Nat.lt_succ_iff_lt_or_eq.mp hi with hLt | rfl
          · exact hLt
          · exact absurd hEq hHere

/- The subset of rank `j`, as a word. -/
theorem toNat_pdep
    (d : BitVec 32)
    (j : Nat) :
    (BitVec.ofNat 32 (Bits.pdep 32 j d.toNat)).toNat =
      Bits.pdep 32 j d.toNat := by
  have hLe : Bits.pdep 32 j d.toNat ≤ d.toNat := by
    rw [← Bits.pdep_and (w := 32) (m := d.toNat) j]
    exact Nat.and_le_right
  have hLt := d.isLt
  rw [BitVec.toNat_ofNat]
  exact Nat.mod_eq_of_lt (by omega)

/- One round goes from the subset of rank `j` to the next. -/
theorem sub_and_pdep
    (d : BitVec 32)
    {j : Nat}
    (hj : j < 2 ^ popcountU32 d) :
    (BitVec.ofNat 32 (Bits.pdep 32 j d.toNat) - d) &&& d =
      BitVec.ofNat 32 (Bits.pdep 32
        ((j + 1) % 2 ^ popcountU32 d) d.toNat) := by
  have hIter := Bits.iterate_nextSubset d.isLt (j + 1)
  rw [Function.iterate_succ_apply',
    Bits.iterate_nextSubset d.isLt j, ← popcountU32,
    Nat.mod_eq_of_lt hj] at hIter
  apply BitVec.eq_of_toNat_eq
  rw [toNat_pdep, BitVec.toNat_and, BitVec.toNat_sub,
    toNat_pdep, ← hIter, Bits.nextSubset, Nat.add_comm]

variable {lutSize : Nat}

/- One round of the loop, at the subset of rank `j`. -/
theorem fillStep_eq
    (hSize : 2 ^ popcountU32 hashMask ≤ lutSize)
    (lut : Lut)
    {j : Nat}
    (hj : j < 2 ^ popcountU32 (dontCare hashMask inst)) :
    fillStep hashMask lutSize inst
        (BitVec.ofNat 32 (Bits.pdep 32 j
          (dontCare hashMask inst).toNat))
        (lutAfter hashMask inst lut j) =
      (BitVec.ofNat 32 (Bits.pdep 32
          ((j + 1) %
            2 ^ popcountU32 (dontCare hashMask inst))
          (dontCare hashMask inst).toNat),
        lutAfter hashMask inst lut (j + 1)) := by
  have hIdx : ¬ lutSize ≤
      pextU32 (roundWord hashMask inst j) hashMask := by
    have hLt := Bits.pext_lt 32
      (roundWord hashMask inst j).toNat hashMask.toNat
    simp only [pextU32, popcountU32] at *
    omega
  simp only [fillStep]
  rw [← roundWord, if_neg hIdx, ← dontCare, sub_and_pdep _ hj]
  rfl

/- From rank `j` the loop visits the remaining ranks. -/
theorem fillLoop_from
    (hSize : 2 ^ popcountU32 hashMask ≤ lutSize)
    (lut : Lut)
    (n : Nat) :
    ∀ j fuel : Nat,
      j + (n + 1) =
        2 ^ popcountU32 (dontCare hashMask inst) →
      n + 1 ≤ fuel →
      fillLoop hashMask lutSize inst fuel
          (BitVec.ofNat 32 (Bits.pdep 32 j
            (dontCare hashMask inst).toNat))
          (lutAfter hashMask inst lut j) =
        some (lutAfter hashMask inst lut
          (2 ^ popcountU32 (dontCare hashMask inst))) := by
  induction n with
  | zero =>
      intro j fuel hCount hFuel
      obtain ⟨fuel, rfl⟩ : ∃ f, fuel = f + 1 :=
        ⟨fuel - 1, by omega⟩
      have hj : j < 2 ^ popcountU32 (dontCare hashMask inst) :=
        by omega
      rw [Nat.zero_add] at hCount
      simp only [fillLoop, fillStep_eq hSize lut hj, hCount,
        Nat.mod_self, Bits.pdep_zero]
      rfl
  | succ n ih =>
      intro j fuel hCount hFuel
      obtain ⟨fuel, rfl⟩ : ∃ f, fuel = f + 1 :=
        ⟨fuel - 1, by omega⟩
      have hj : j + 1 <
          2 ^ popcountU32 (dontCare hashMask inst) := by omega
      have hNext : BitVec.ofNat 32 (Bits.pdep 32 (j + 1)
          (dontCare hashMask inst).toNat) ≠ 0 := by
        intro hZero
        have hNat := congrArg BitVec.toNat hZero
        rw [toNat_pdep] at hNat
        have := (Bits.pdep_eq_zero_iff hj).mp hNat
        omega
      simp only [fillLoop, fillStep_eq hSize lut
        (Nat.lt_of_succ_lt hj), Nat.mod_eq_of_lt hj]
      rw [if_pos hNext]
      exact ih (j + 1) fuel (by omega) (by omega)

/- The loop ends, and has visited every subset. -/
theorem fillLoop_eq
    (hSize : 2 ^ popcountU32 hashMask ≤ lutSize)
    (lut : Lut) :
    fillLoop hashMask lutSize inst (2 ^ 32) 0 lut =
      some (lutAfter hashMask inst lut
        (2 ^ popcountU32 (dontCare hashMask inst))) := by
  have hPos :=
    Nat.two_pow_pos (popcountU32 (dontCare hashMask inst))
  have hLe : 2 ^ popcountU32 (dontCare hashMask inst) ≤
      2 ^ 32 :=
    Nat.pow_le_pow_right (by decide)
      (Bits.popcount_le 32 _)
  have hCount : 0 +
      (2 ^ popcountU32 (dontCare hashMask inst) - 1 + 1) =
        2 ^ popcountU32 (dontCare hashMask inst) := by
    omega
  have hRun := fillLoop_from hSize lut _ 0 (2 ^ 32) hCount
    (by omega)
  rw [Bits.pdep_zero] at hRun
  exact hRun

/- A round's word agrees with the hashed bits of the mask. -/
theorem and_of_round
    {w x mask m hash : BitVec 32}
    (hSub : m &&& mask = m)
    (hEq : ((m &&& hash) |||
        (x &&& (hash &&& ~~~(mask &&& hash)))) &&& hash =
      w &&& hash) :
    w &&& (mask &&& hash) = m &&& hash := by
  apply BitVec.eq_of_getLsbD_eq
  intro i hi
  have hSubBit := congrArg (fun v => v.getLsbD i) hSub
  have hEqBit := congrArg (fun v => v.getLsbD i) hEq
  simp only [BitVec.getLsbD_and, BitVec.getLsbD_or,
    BitVec.getLsbD_not, hi, decide_true,
    Bool.true_and] at hSubBit hEqBit ⊢
  revert hSubBit hEqBit
  generalize w.getLsbD i = w', x.getLsbD i = x',
    mask.getLsbD i = mask', m.getLsbD i = m',
    hash.getLsbD i = hash'
  revert w' x' mask' m' hash'
  decide

/- A word that agrees differs only in don't care bits. -/
theorem round_of_and
    {w mask m hash : BitVec 32}
    (hEq : w &&& (mask &&& hash) = m &&& hash) :
    ((m &&& hash) |||
        (w &&& (hash &&& ~~~(mask &&& hash)))) &&& hash =
      w &&& hash := by
  apply BitVec.eq_of_getLsbD_eq
  intro i hi
  have hEqBit := congrArg (fun v => v.getLsbD i) hEq
  simp only [BitVec.getLsbD_and, BitVec.getLsbD_or,
    BitVec.getLsbD_not, hi, decide_true,
    Bool.true_and] at hEqBit ⊢
  revert hEqBit
  generalize w.getLsbD i = w', mask.getLsbD i = mask',
    m.getLsbD i = m', hash.getLsbD i = hash'
  revert w' mask' m' hash'
  decide

/-
  Some round enters the slot of `w` exactly when `w` agrees
  with the hashed bits of the mask.
-/
theorem exists_round_iff
    (w : BitVec 32) :
    (∃ i < 2 ^ popcountU32 (dontCare hashMask inst),
        pextU32 (roundWord hashMask inst i) hashMask =
          pextU32 w hashMask) ↔
      HashAgrees hashMask w inst := by
  have hSlot : ∀ x : BitVec 32,
      pextU32 x hashMask = pextU32 w hashMask ↔
        x &&& hashMask = w &&& hashMask := by
    intro x
    rw [pextU32, pextU32, Bits.pext_inj_iff hashMask.isLt,
      ← BitVec.toNat_and, ← BitVec.toNat_and]
    exact ⟨BitVec.eq_of_toNat_eq, congrArg BitVec.toNat⟩
  have hSub := inst.matchBits_and_mask
  constructor
  · rintro ⟨i, -, hEq⟩
    rw [hSlot] at hEq
    have hInside : BitVec.ofNat 32 (Bits.pdep 32 i
        (dontCare hashMask inst).toNat) &&&
          dontCare hashMask inst =
        BitVec.ofNat 32 (Bits.pdep 32 i
          (dontCare hashMask inst).toNat) := by
      apply BitVec.eq_of_toNat_eq
      rw [BitVec.toNat_and, toNat_pdep, Bits.pdep_and]
    rw [roundWord, ← hInside] at hEq
    exact and_of_round hSub hEq
  · intro hAgrees
    refine ⟨Bits.pext 32 w.toNat
      (dontCare hashMask inst).toNat,
      Bits.pext_lt _ _ _, ?_⟩
    rw [hSlot]
    have hSubset : BitVec.ofNat 32 (Bits.pdep 32
        (Bits.pext 32 w.toNat
          (dontCare hashMask inst).toNat)
        (dontCare hashMask inst).toNat) =
        w &&& dontCare hashMask inst := by
      apply BitVec.eq_of_toNat_eq
      rw [toNat_pdep, Bits.pdep_pext (BitVec.isLt _),
        BitVec.toNat_and]
    rw [roundWord, hSubset]
    exact round_of_and hAgrees

/- What entering one instruction does to the slot of `w`. -/
theorem fillLoop_spec
    (hSize : 2 ^ popcountU32 hashMask ≤ lutSize)
    (inst : Instruction)
    (lut : Lut) :
    ∃ lut' : Lut,
      fillLoop hashMask lutSize inst (2 ^ 32) 0 lut =
          some lut' ∧
        ∀ w : BitVec 32,
          lut' (pextU32 w hashMask) =
            if HashAgrees hashMask w inst then
              place (lut (pextU32 w hashMask)) inst
            else
              lut (pextU32 w hashMask) := by
  refine ⟨_, fillLoop_eq hSize lut, ?_⟩
  intro w
  rw [lutAfter_eq]
  simp only [exists_round_iff]

end RiscvEm

------------------------------------------------------------
-- The Whole Table
------------------------------------------------------------

namespace RiscvEm

/-
  The instruction at `k` has property `p`, no other with `p`
  has more mask bits, and none before it has as many.
-/
structure MostSpecificAt
    (instrs : List Instruction)
    (p : Instruction → Prop)
    (inst : Instruction)
    (k : Nat) : Prop where
  get : instrs[k]? = some inst
  holds : p inst
  best : ∀ (j : Nat) (i : Instruction),
    instrs[j]? = some i → p i →
      popcountU32 i.mask ≤ popcountU32 inst.mask ∧
        (popcountU32 i.mask = popcountU32 inst.mask →
          k ≤ j)

/-
  The entry is the first among the instructions with
  property `p` whose mask has the most bits; it is null when
  there is none.
-/
inductive FirstMostSpecific
    (instrs : List Instruction)
    (p : Instruction → Prop) :
    Option Instruction → Prop
  | null
      (hNone : ∀ i ∈ instrs, ¬ p i) :
      FirstMostSpecific instrs p none
  | entry
      {inst : Instruction}
      {k : Nat}
      (hAt : MostSpecificAt instrs p inst k) :
      FirstMostSpecific instrs p (some inst)

/- Trying one more instruction keeps the entry right. -/
theorem FirstMostSpecific.snoc
    {instrs : List Instruction}
    {p : Instruction → Prop}
    [DecidablePred p]
    {entry : Option Instruction}
    (hEntry : FirstMostSpecific instrs p entry)
    (inst : Instruction) :
    FirstMostSpecific (instrs ++ [inst]) p
      (if p inst then place entry inst else entry) := by
  have hSnoc : ∀ (j : Nat) (i : Instruction),
      (instrs ++ [inst])[j]? = some i →
        instrs[j]? = some i ∨
          (j = instrs.length ∧ i = inst) := by
    intro j i hGet
    rcases Nat.lt_trichotomy j instrs.length with
      hLt | hEq | hGt
    · rw [List.getElem?_append_left hLt] at hGet
      exact Or.inl hGet
    · subst hEq
      rw [List.getElem?_append_right (Nat.le_refl _)] at hGet
      refine Or.inr ⟨rfl, ?_⟩
      simpa using hGet.symm
    · have hNone : (instrs ++ [inst])[j]? = none :=
        List.getElem?_eq_none (by simp; omega)
      rw [hNone] at hGet
      cases hGet
  have hOld : ∀ (j : Nat) (i : Instruction),
      instrs[j]? = some i →
        (instrs ++ [inst])[j]? = some i := by
    intro j i hGet
    have hLt := (List.getElem?_eq_some_iff.mp hGet).1
    rw [List.getElem?_append_left hLt, hGet]
  have hNew : (instrs ++ [inst])[instrs.length]? =
      some inst := by simp
  by_cases hp : p inst
  · rw [if_pos hp]
    cases hEntry with
    | null hNone =>
        rw [place_none]
        refine .entry ⟨hNew, hp, ?_⟩
        intro j i hGet hi
        rcases hSnoc j i hGet with hGet | ⟨rfl, rfl⟩
        · exact absurd hi
            (hNone i (List.mem_of_getElem? hGet))
        · exact ⟨Nat.le_refl _, fun _ => Nat.le_refl _⟩
    | @entry cur k hAt =>
        have hkLt := (List.getElem?_eq_some_iff.mp hAt.get).1
        by_cases hLt : popcountU32 cur.mask <
            popcountU32 inst.mask
        · rw [place_of_lt hLt]
          refine .entry ⟨hNew, hp, ?_⟩
          intro j i hGet hi
          rcases hSnoc j i hGet with hGet | ⟨rfl, rfl⟩
          · have := (hAt.best j i hGet hi).1
            exact ⟨by omega, fun _ => by omega⟩
          · exact ⟨Nat.le_refl _, fun _ => Nat.le_refl _⟩
        · rw [place_of_not_lt hLt]
          refine .entry ⟨hOld k cur hAt.get, hAt.holds, ?_⟩
          intro j i hGet hi
          rcases hSnoc j i hGet with hGet | ⟨rfl, rfl⟩
          · exact hAt.best j i hGet hi
          · exact ⟨by omega, fun _ => by omega⟩
  · rw [if_neg hp]
    cases hEntry with
    | null hNone =>
        refine .null ?_
        intro i hi
        rcases List.mem_append.mp hi with hMem | hMem
        · exact hNone i hMem
        · rw [List.mem_singleton.mp hMem]
          exact hp
    | @entry cur k hAt =>
        refine .entry ⟨hOld k cur hAt.get, hAt.holds, ?_⟩
        intro j i hGet hi
        rcases hSnoc j i hGet with hGet | ⟨rfl, rfl⟩
        · exact hAt.best j i hGet hi
        · exact absurd hi hp

/- The instruction belongs to the 16-bit table and agrees. -/
def Candidate16
    (w : BitVec 32)
    (inst : Instruction) : Prop :=
  inst.size = 2 ∧ HashAgrees HASH_MASK_16 w inst

/- The instruction belongs to the 32-bit table and agrees. -/
def Candidate32
    (w : BitVec 32)
    (inst : Instruction) : Prop :=
  inst.size ≠ 2 ∧ HashAgrees HASH_MASK w inst

instance
    (w : BitVec 32) :
    DecidablePred (Candidate16 w) :=
  fun _ => inferInstanceAs (Decidable (_ ∧ _))

instance
    (w : BitVec 32) :
    DecidablePred (Candidate32 w) :=
  fun _ => inferInstanceAs (Decidable (_ ∧ _))

/- Both tables hold the right entries for `instrs`. -/
structure Luts.Correct
    (luts : Luts)
    (instrs : List Instruction) : Prop where
  lut : ∀ w, FirstMostSpecific instrs (Candidate32 w)
    (luts.lut (pextU32 w HASH_MASK))
  lut16 : ∀ w, FirstMostSpecific instrs (Candidate16 w)
    (luts.lut16 (pextU32 w HASH_MASK_16))

theorem enterInstr_correct
    {luts : Luts}
    {instrs : List Instruction}
    (hLuts : luts.Correct instrs)
    (inst : Instruction) :
    ∃ luts', enterInstr luts inst = some luts' ∧
      luts'.Correct (instrs ++ [inst]) := by
  by_cases hSize : inst.size = 2
  · have hRoom : 2 ^ popcountU32 HASH_MASK_16 ≤
        LUT_SIZE_16 := by
      decide
    rcases fillLoop_spec hRoom inst luts.lut16 with
      ⟨lut16, hFill, hSpec⟩
    refine ⟨{ luts with lut16 := lut16 }, ?_, ?_, ?_⟩
    · rw [enterInstr, if_pos hSize, hFill]
      rfl
    · intro w
      have hSnoc := (hLuts.lut w).snoc inst
      rwa [if_neg (fun h => h.1 hSize)] at hSnoc
    · intro w
      have hSnoc := (hLuts.lut16 w).snoc inst
      simp only [hSpec]
      simpa only [Candidate16, hSize, true_and] using hSnoc
  · have hRoom : 2 ^ popcountU32 HASH_MASK ≤ LUT_SIZE := by
      decide
    rcases fillLoop_spec hRoom inst luts.lut with
      ⟨lut, hFill, hSpec⟩
    refine ⟨{ luts with lut := lut }, ?_, ?_, ?_⟩
    · rw [enterInstr, if_neg hSize, hFill]
      rfl
    · intro w
      have hSnoc := (hLuts.lut w).snoc inst
      simp only [hSpec]
      simpa only [Candidate32, ne_eq, hSize, not_false_eq_true,
        true_and] using hSnoc
    · intro w
      have hSnoc := (hLuts.lut16 w).snoc inst
      rwa [if_neg (fun h => hSize h.1)] at hSnoc

theorem foldlM_enterInstr
    (rest instrs : List Instruction)
    (luts : Luts)
    (hLuts : luts.Correct instrs) :
    ∃ luts', rest.foldlM enterInstr luts = some luts' ∧
      luts'.Correct (instrs ++ rest) := by
  induction rest generalizing instrs luts with
  | nil => exact ⟨luts, rfl, by simpa using hLuts⟩
  | cons inst rest ih =>
      obtain ⟨luts₁, hEnter, hCorrect⟩ :=
        enterInstr_correct hLuts inst
      obtain ⟨luts', hFold, hDone⟩ :=
        ih (instrs ++ [inst]) luts₁ hCorrect
      refine ⟨luts', ?_, by simpa using hDone⟩
      rw [List.foldlM_cons, hEnter]
      exact hFold

/- Both tables are built, and right for every word. -/
theorem buildLut_spec
    (instrs : List Instruction) :
    ∃ luts, buildLut instrs = some luts ∧
      luts.Correct instrs := by
  have hEmpty : Luts.Correct
      ⟨fun _ => none, fun _ => none⟩ [] := by
    refine ⟨fun w => .null ?_, fun w => .null ?_⟩ <;>
      · intro i hi
        cases hi
  exact foldlM_enterInstr instrs [] _ hEmpty

end RiscvEm
