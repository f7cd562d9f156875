import Mathlib.Data.Nat.Bitwise

/-
  Parallel bit extraction and the enumeration of the subsets
  of a bit mask.

  Numbers are read as words of an explicit width.  `pext`
  gathers the bits selected by a mask, `pdep` scatters them
  back, and `nextSubset` is the word operation
  `(s - m) & m`, which steps through the subsets of `m` in
  the order of their gathered values.

  Key definitions include:
    * `Bits.popcount`
    * `Bits.pext`
    * `Bits.pdep`
    * `Bits.nextSubset`

  Key theorems include:
    * `Bits.pext_lt`
    * `Bits.pext_inj_iff`
    * `Bits.pext_nextSubset`
    * `Bits.iterate_nextSubset`
-/

------------------------------------------------------------
-- Gathering And Scattering
------------------------------------------------------------

namespace Bits

/- The number of set bits among the low `w` bits. -/
def popcount : Nat → Nat → Nat
  | 0, _ => 0
  | w + 1, m => m % 2 + popcount w (m / 2)

/- Gather the bits of `x` selected by `m`, lowest first. -/
def pext : Nat → Nat → Nat → Nat
  | 0, _, _ => 0
  | w + 1, x, m =>
      if m % 2 = 1 then
        x % 2 + 2 * pext w (x / 2) (m / 2)
      else
        pext w (x / 2) (m / 2)

/- Scatter the low bits of `i` to the positions of `m`. -/
def pdep : Nat → Nat → Nat → Nat
  | 0, _, _ => 0
  | w + 1, i, m =>
      if m % 2 = 1 then
        i % 2 + 2 * pdep w (i / 2) (m / 2)
      else
        2 * pdep w i (m / 2)

/- The conjunction, split into its lowest bit and the rest. -/
theorem and_eq_low_add
    (x m : Nat) :
    x &&& m =
      (if m % 2 = 1 then x % 2 else 0) +
        2 * (x / 2 &&& m / 2) := by
  have hDiv : (x &&& m) / 2 = (x / 2 &&& m / 2) :=
    Nat.and_div_two
  have hMod : (x &&& m) % 2 =
      if m % 2 = 1 then x % 2 else 0 := by
    have hBit : (x &&& m) % 2 = (x % 2 &&& m % 2) :=
      Nat.and_mod_two_pow (n := 1)
    rw [hBit]
    rcases Nat.mod_two_eq_zero_or_one m with hm | hm <;>
      rcases Nat.mod_two_eq_zero_or_one x with hx | hx <;>
        simp [hm, hx]
  have hSplit := Nat.mod_add_div (x &&& m) 2
  omega

/- The gathered word has as many bits as the mask. -/
theorem pext_lt
    (w x m : Nat) :
    pext w x m < 2 ^ popcount w m := by
  induction w generalizing x m with
  | zero => simp [pext, popcount]
  | succ w ih =>
      have hRest := ih (x / 2) (m / 2)
      rcases Nat.mod_two_eq_zero_or_one m with hm | hm
      · simpa [pext, popcount, hm] using hRest
      · simp only [pext, popcount, hm, if_true]
        have hPow : 2 ^ (1 + popcount w (m / 2)) =
            2 * 2 ^ popcount w (m / 2) := by
          rw [Nat.pow_add, Nat.pow_one]
        omega

/- The empty word gathers to zero. -/
theorem pext_zero
    (w m : Nat) :
    pext w 0 m = 0 := by
  induction w generalizing m with
  | zero => rfl
  | succ w ih => simp [pext, ih]

theorem pdep_zero
    (w m : Nat) :
    pdep w 0 m = 0 := by
  induction w generalizing m with
  | zero => rfl
  | succ w ih => simp [pdep, ih]

theorem popcount_le
    (w m : Nat) :
    popcount w m ≤ w := by
  induction w generalizing m with
  | zero => simp [popcount]
  | succ w ih =>
      have hRest := ih (m / 2)
      have hLow := Nat.mod_lt m (y := 2) (by decide)
      simp only [popcount]
      omega

/- Only the selected bits matter. -/
theorem pext_and
    (w x m : Nat) :
    pext w (x &&& m) m = pext w x m := by
  induction w generalizing x m with
  | zero => rfl
  | succ w ih =>
      have hDiv : (x &&& m) / 2 = (x / 2 &&& m / 2) :=
        Nat.and_div_two
      have hLow := and_eq_low_add x m
      rcases Nat.mod_two_eq_zero_or_one m with hm | hm
      · simp [pext, hm, hDiv, ih]
      · simp only [hm, if_true] at hLow
        have hMod : (x &&& m) % 2 = x % 2 := by omega
        simp [pext, hm, hDiv, hMod, ih]

/- Scattering the gathered bits recovers the selected part. -/
theorem pdep_pext
    {w m : Nat}
    (hm : m < 2 ^ w)
    (x : Nat) :
    pdep w (pext w x m) m = x &&& m := by
  induction w generalizing x m with
  | zero =>
      have hZero : m = 0 := by simpa using hm
      simp [pdep, hZero]
  | succ w ih =>
      have hHalf : m / 2 < 2 ^ w := by
        rw [Nat.pow_succ] at hm
        omega
      have hRest := ih hHalf (x / 2)
      rw [and_eq_low_add x m]
      rcases Nat.mod_two_eq_zero_or_one m with hLow | hLow
      · simp [pdep, pext, hLow, hRest]
      · simp only [pdep, pext, hLow, if_true]
        have hMod : (x % 2 +
            2 * pext w (x / 2) (m / 2)) % 2 = x % 2 := by
          omega
        have hDiv : (x % 2 +
            2 * pext w (x / 2) (m / 2)) / 2 =
            pext w (x / 2) (m / 2) := by
          omega
        rw [hMod, hDiv, hRest]

/- Gathering the scattered bits recovers a short number. -/
theorem pext_pdep
    {w i m : Nat}
    (hi : i < 2 ^ popcount w m) :
    pext w (pdep w i m) m = i := by
  induction w generalizing i m with
  | zero =>
      have hZero : i = 0 := by simpa [popcount] using hi
      simp [pext, hZero]
  | succ w ih =>
      rcases Nat.mod_two_eq_zero_or_one m with hm | hm
      · simp only [popcount, hm, Nat.zero_add] at hi
        have hHalf : 2 * pdep w i (m / 2) / 2 =
            pdep w i (m / 2) := by
          omega
        simp [pext, pdep, hm, hHalf, ih hi]
      · simp only [popcount, hm] at hi
        rw [Nat.pow_add] at hi
        have hRest := ih (i := i / 2) (m := m / 2) (by omega)
        simp only [pext, pdep, hm, if_true]
        have hMod : (i % 2 +
            2 * pdep w (i / 2) (m / 2)) % 2 = i % 2 := by
          omega
        have hDiv : (i % 2 +
            2 * pdep w (i / 2) (m / 2)) / 2 =
            pdep w (i / 2) (m / 2) := by
          omega
        rw [hMod, hDiv, hRest]
        omega

/- Two words gather alike exactly when they agree on `m`. -/
theorem pext_inj_iff
    {w m : Nat}
    (hm : m < 2 ^ w)
    (x y : Nat) :
    pext w x m = pext w y m ↔ x &&& m = y &&& m := by
  constructor
  · intro hEq
    rw [← pdep_pext hm x, ← pdep_pext hm y, hEq]
  · intro hEq
    rw [← pext_and w x m, ← pext_and w y m, hEq]

/- Scattered bits lie inside the mask. -/
theorem pdep_and
    {w m : Nat}
    (i : Nat) :
    pdep w i m &&& m = pdep w i m := by
  induction w generalizing i m with
  | zero => simp [pdep]
  | succ w ih =>
      rw [and_eq_low_add]
      rcases Nat.mod_two_eq_zero_or_one m with hm | hm
      · simp only [pdep, hm, Nat.zero_ne_one, if_false,
          Nat.zero_add]
        have hHalf : 2 * pdep w i (m / 2) / 2 =
            pdep w i (m / 2) := by
          omega
        rw [hHalf, ih]
      · simp only [pdep, hm, if_true]
        have hDiv : (i % 2 +
            2 * pdep w (i / 2) (m / 2)) / 2 =
            pdep w (i / 2) (m / 2) := by
          omega
        rw [hDiv, ih]
        omega

end Bits

------------------------------------------------------------
-- Enumerating The Subsets Of A Mask
------------------------------------------------------------

namespace Bits

/- The word operation `(s - m) & m` at width `w`. -/
def nextSubset
    (w m s : Nat) : Nat :=
  (s + (2 ^ w - m)) % 2 ^ w &&& m

/- Only rank zero scatters to nothing. -/
theorem pdep_eq_zero_iff
    {w i m : Nat}
    (hi : i < 2 ^ popcount w m) :
    pdep w i m = 0 ↔ i = 0 := by
  constructor
  · intro hZero
    have hRank := pext_pdep hi
    rw [hZero, pext_zero] at hRank
    exact hRank.symm
  · rintro rfl
    exact pdep_zero w m

/-
  Adding a carry to `s | ~m` and keeping the bits of `m`
  adds the carry to the gathered number: the ones of `~m`
  hand the carry on unchanged.
-/
theorem pext_carry
    {w m s c : Nat}
    (hm : m < 2 ^ w)
    (hs : s &&& m = s)
    (hc : c ≤ 1) :
    pext w ((s + (2 ^ w - 1 - m) + c) % 2 ^ w) m =
      (pext w s m + c) % 2 ^ popcount w m := by
  induction w generalizing m s c with
  | zero => simp [pext, popcount, Nat.mod_one]
  | succ w ih =>
      rw [Nat.pow_succ] at hm
      have hHalf : m / 2 < 2 ^ w := by omega
      have hSplit := and_eq_low_add s m
      have hsHalf : (s / 2 &&& m / 2) = s / 2 := by
        have hDiv : (s &&& m) / 2 = (s / 2 &&& m / 2) :=
          Nat.and_div_two
        rw [← hDiv, hs]
      rw [hs, hsHalf] at hSplit
      have hDivMod : ∀ n : Nat,
          n % (2 ^ w * 2) / 2 = n / 2 % 2 ^ w := by
        intro n
        rw [Nat.mul_comm, Nat.mod_mul_right_div_self]
      have hModMod : ∀ n : Nat,
          n % (2 ^ w * 2) % 2 = n % 2 := by
        intro n
        exact Nat.mod_mod_of_dvd n ⟨2 ^ w, Nat.mul_comm _ _⟩
      rcases Nat.mod_two_eq_zero_or_one m with hLow | hLow
      · -- the lowest bit is a one of `~m`: the carry passes
        simp only [hLow, Nat.zero_ne_one, if_false,
          Nat.zero_add] at hSplit
        simp only [pext, popcount, hLow, Nat.zero_ne_one,
          if_false, Nat.zero_add, Nat.pow_succ]
        rw [hDivMod]
        have hSum : (s + (2 ^ w * 2 - 1 - m) + c) / 2 =
            s / 2 + (2 ^ w - 1 - m / 2) + c := by
          omega
        rw [hSum]
        exact ih hHalf hsHalf hc
      · -- a selected bit absorbs the carry or passes it on
        simp only [hLow, if_true] at hSplit
        simp only [pext, popcount, hLow, if_true,
          Nat.pow_succ]
        rw [hDivMod, hModMod]
        have hSum : (s + (2 ^ w * 2 - 1 - m) + c) / 2 =
            s / 2 + (2 ^ w - 1 - m / 2) +
              (s % 2 + c) / 2 := by
          omega
        have hBit : (s + (2 ^ w * 2 - 1 - m) + c) % 2 =
            (s % 2 + c) % 2 := by
          omega
        rw [hSum, hBit,
          ih hHalf hsHalf (show (s % 2 + c) / 2 ≤ 1 by omega)]
        have hPow : 2 ^ (1 + popcount w (m / 2)) =
            2 * 2 ^ popcount w (m / 2) := by
          rw [Nat.pow_add, Nat.pow_one]
        have hNext : (s % 2 + 2 * pext w (s / 2) (m / 2) +
            c) / 2 =
            pext w (s / 2) (m / 2) + (s % 2 + c) / 2 := by
          omega
        rw [hPow, Nat.mod_mul, hNext]
        omega

/- Stepping adds one to the gathered number, cyclically. -/
theorem pext_nextSubset
    {w m s : Nat}
    (hm : m < 2 ^ w)
    (hs : s &&& m = s) :
    pext w (nextSubset w m s) m =
      (pext w s m + 1) % 2 ^ popcount w m := by
  have hSum : s + (2 ^ w - m) =
      s + (2 ^ w - 1 - m) + 1 := by
    omega
  rw [nextSubset, pext_and, hSum]
  exact pext_carry hm hs (Nat.le_refl 1)

/- Every step stays inside the mask. -/
theorem nextSubset_and
    (w m s : Nat) :
    nextSubset w m s &&& m = nextSubset w m s := by
  simp [nextSubset]

/-
  After `j` steps from the empty subset the enumeration is
  at the subset of rank `j`.
-/
theorem iterate_nextSubset
    {w m : Nat}
    (hm : m < 2 ^ w)
    (j : Nat) :
    (nextSubset w m)^[j] 0 =
      pdep w (j % 2 ^ popcount w m) m := by
  have hRank : ∀ j : Nat,
      (nextSubset w m)^[j] 0 &&& m =
          (nextSubset w m)^[j] 0 ∧
        pext w ((nextSubset w m)^[j] 0) m =
          j % 2 ^ popcount w m := by
    intro j
    induction j with
    | zero =>
        refine ⟨by simp, ?_⟩
        simpa using pext_zero w m
    | succ j ih =>
        rw [Function.iterate_succ_apply']
        refine ⟨nextSubset_and _ _ _, ?_⟩
        rw [pext_nextSubset hm ih.1, ih.2]
        simp [Nat.add_mod]
  obtain ⟨hInside, hPext⟩ := hRank j
  rw [← hPext, pdep_pext hm, hInside]

end Bits
