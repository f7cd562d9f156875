import Mathlib.Data.List.Range
import Mathlib.Data.Nat.Bitwise

/-
  Visiting the set bits of a word, lowest first, by taking
  the number of trailing zeros and clearing the lowest bit.

  Key definitions include:
    * `Bits.setBits`
    * `Bits.scanBits`

  Key theorems include `Bits.scanBits_eq_foldl`.
-/

------------------------------------------------------------
-- The Lowest Bit
------------------------------------------------------------

namespace Bits

variable {w : Nat}

/- The positions of the set bits, lowest first. -/
def setBits
    (x : BitVec w) : List Nat :=
  (List.range w).filter (fun i => x.getLsbD i)

theorem mem_setBits
    {x : BitVec w}
    {i : Nat} :
    i ∈ setBits x ↔ x.getLsbD i = true := by
  unfold setBits
  rw [List.mem_filter, List.mem_range]
  constructor
  · exact fun h => h.2
  · intro h
    refine ⟨?_, h⟩
    by_contra hGe
    rw [BitVec.getLsbD_of_ge x i (by omega)] at h
    cases h

theorem length_setBits_le
    (x : BitVec w) :
    (setBits x).length ≤ w := by
  have hLe := List.length_filter_le
    (fun i => x.getLsbD i) (List.range w)
  rw [List.length_range] at hLe
  exact hLe

/- A number with `k` trailing zeros, and its predecessor. -/
theorem odd_mul_sub_one
    (m k : Nat) :
    2 ^ k * (2 * m + 1) - 1 = 2 ^ (k + 1) * m + (2 ^ k - 1) := by
  have hPow : 0 < 2 ^ k := Nat.two_pow_pos k
  rw [pow_succ, mul_add, mul_one, mul_assoc]
  omega

theorem testBit_odd_sub_one
    (m k i : Nat)
    (hLe : k ≤ i) :
    (2 ^ k * (2 * m + 1) - 1).testBit i =
      ((2 ^ k * (2 * m + 1)).testBit i && decide (i ≠ k)) := by
  have hPow : 0 < 2 ^ k := Nat.two_pow_pos k
  have hSelf : 2 ^ k * (2 * m + 1) =
      2 ^ (k + 1) * m + 2 ^ k := by
    rw [pow_succ, mul_add, mul_one, mul_assoc]
  have hLow : 2 ^ k - 1 < 2 ^ (k + 1) := by
    rw [pow_succ]
    omega
  have hHigh : 2 ^ k < 2 ^ (k + 1) := by
    rw [pow_succ]
    omega
  rw [odd_mul_sub_one, hSelf,
    Nat.testBit_two_pow_mul_add _ hLow,
    Nat.testBit_two_pow_mul_add _ hHigh]
  by_cases hEq : i = k
  · subst hEq
    have hFalse : (2 ^ i - 1).testBit i = false :=
      Nat.testBit_lt_two_pow (by omega)
    rw [if_pos (by omega), hFalse]
    simp
  · rw [if_neg (by omega), if_neg (by omega)]
    simp [hEq]

/- The lowest set bit is at `x.ctz`. -/
theorem exists_odd
    {x : BitVec w}
    (hx : x ≠ 0#w) :
    ∃ m, x.toNat = 2 ^ x.ctz.toNat * (2 * m + 1) := by
  have hBit : x.toNat.testBit x.ctz.toNat = true :=
    BitVec.getLsbD_true_ctz_of_ne_zero hx
  have hLow : x.toNat % 2 ^ x.ctz.toNat = 0 := by
    apply Nat.eq_of_testBit_eq
    intro i
    rw [Nat.testBit_mod_two_pow, Nat.zero_testBit]
    by_cases hi : i < x.ctz.toNat
    · have hFalse : x.toNat.testBit i = false :=
        BitVec.getLsbD_false_of_lt_ctz hi
      rw [hFalse, Bool.and_false]
    · rw [decide_eq_false hi, Bool.false_and]
  rw [Nat.testBit_eq_decide_div_mod_eq, decide_eq_true_iff]
    at hBit
  refine ⟨x.toNat / 2 ^ x.ctz.toNat / 2, ?_⟩
  have hDiv := Nat.div_add_mod x.toNat (2 ^ x.ctz.toNat)
  rw [hLow] at hDiv
  have hOdd : 2 * (x.toNat / 2 ^ x.ctz.toNat / 2) + 1 =
      x.toNat / 2 ^ x.ctz.toNat := by omega
  rw [hOdd]
  omega

/- `x & (x - 1)` is `x` without its lowest set bit. -/
theorem getLsbD_clearLowest
    {x : BitVec w}
    (hx : x ≠ 0#w)
    (i : Nat) :
    (x &&& (x - 1)).getLsbD i =
      (x.getLsbD i && decide (i ≠ x.ctz.toNat)) := by
  rcases exists_odd hx with ⟨m, hm⟩
  have hPos : 0 < x.toNat := by
    rw [hm]
    exact Nat.mul_pos (Nat.two_pow_pos _) (Nat.succ_pos _)
  have hOne : (1 : BitVec w).toNat = 1 :=
    Nat.mod_eq_of_lt (lt_of_le_of_lt hPos x.isLt)
  have hSub : (x - 1).toNat = x.toNat - 1 := by
    have hLe : 1 ≤ x := by
      rw [BitVec.le_def, hOne]
      exact hPos
    rw [BitVec.toNat_sub_of_le hLe, hOne]
  rw [BitVec.getLsbD_and]
  by_cases hLt : i < x.ctz.toNat
  · rw [BitVec.getLsbD_false_of_lt_ctz hLt]
    simp
  · have hBits := testBit_odd_sub_one m x.ctz.toNat i
      (by omega)
    rw [← hm, ← hSub] at hBits
    change (x.getLsbD i && (x - 1).toNat.testBit i) = _
    rw [hBits]
    change (x.getLsbD i && (x.getLsbD i && _)) = _
    rw [← Bool.and_assoc, Bool.and_self]

/- The set bits are the lowest one and the others. -/
theorem setBits_eq_cons
    {x : BitVec w}
    (hx : x ≠ 0#w) :
    setBits x = x.ctz.toNat :: setBits (x &&& (x - 1)) := by
  have hBit := BitVec.getLsbD_true_ctz_of_ne_zero hx
  have hLt : x.ctz.toNat < w := by
    by_contra hGe
    rw [BitVec.getLsbD_of_ge x _ (by omega)] at hBit
    cases hBit
  have hSplit : List.range w = List.range x.ctz.toNat ++
      x.ctz.toNat :: List.range' (x.ctz.toNat + 1)
        (w - (x.ctz.toNat + 1)) := by
    have hAppend := List.range'_append_1 (s := 0)
      (m := x.ctz.toNat) (n := w - (x.ctz.toNat + 1) + 1)
    rw [Nat.zero_add] at hAppend
    rw [List.range_eq_range', List.range_eq_range',
      ← List.range'_succ, hAppend]
    congr 1
    omega
  have hNil : ∀ y : BitVec w,
      (∀ i, i < x.ctz.toNat → y.getLsbD i = false) →
      (List.range x.ctz.toNat).filter (fun i => y.getLsbD i) =
        [] := by
    intro y hy
    rw [List.filter_eq_nil_iff]
    intro i hi
    rw [hy i (List.mem_range.mp hi)]
    exact Bool.false_ne_true
  unfold setBits
  rw [hSplit, List.filter_append, List.filter_append,
    hNil x (fun i hi => BitVec.getLsbD_false_of_lt_ctz hi),
    hNil (x &&& (x - 1)) ?low, List.nil_append,
    List.nil_append, List.filter_cons_of_pos hBit,
    List.filter_cons_of_neg]
  · congr 1
    apply List.filter_congr
    intro i hi
    have hGt := (List.mem_range'_1.mp hi).1
    rw [getLsbD_clearLowest hx]
    simp only [ne_eq, decide_not, Bool.eq_self_and,
      Bool.not_eq_eq_eq_not, Bool.not_true,
      decide_eq_false_iff_not]
    omega
  · rw [getLsbD_clearLowest hx]
    simp
  case low =>
    intro i hi
    rw [getLsbD_clearLowest hx,
      BitVec.getLsbD_false_of_lt_ctz hi, Bool.false_and]

end Bits

------------------------------------------------------------
-- The Loop
------------------------------------------------------------

namespace Bits

variable {w : Nat}
variable {β : Type}

/-
  `while(x) { f(ctz(x)); x &= x - 1; }`, for at most `n`
  rounds.
-/
def scanBits
    (f : β → Nat → β) : Nat → BitVec w → β → β
  | 0, _, acc => acc
  | n + 1, x, acc =>
      if x = 0#w then
        acc
      else
        scanBits f n (x &&& (x - 1)) (f acc x.ctz.toNat)

theorem scanBits_eq_of_length
    (f : β → Nat → β)
    (n : Nat)
    (x : BitVec w)
    (acc : β)
    (hLen : (setBits x).length ≤ n) :
    scanBits f n x acc = (setBits x).foldl f acc := by
  induction n generalizing x acc with
  | zero =>
      have hNil : setBits x = [] :=
        List.length_eq_zero_iff.mp (by omega)
      rw [hNil]
      rfl
  | succ n ih =>
      unfold scanBits
      by_cases hx : x = 0#w
      · subst hx
        have hNil : setBits (0#w) = [] := by
          unfold setBits
          simp
        rw [if_pos rfl, hNil]
        rfl
      · rw [setBits_eq_cons hx, List.length_cons] at hLen
        rw [if_neg hx, setBits_eq_cons hx, List.foldl_cons]
        exact ih _ _ (by omega)

/- One round for each bit of the word is enough. -/
theorem scanBits_eq_foldl
    (f : β → Nat → β)
    (x : BitVec w)
    (acc : β) :
    scanBits f w x acc = (setBits x).foldl f acc :=
  scanBits_eq_of_length f w x acc (length_setBits_le x)

end Bits
