import Mathlib.Data.List.GetD
import Mathlib.Tactic.Ring

/-
  Byte strings: big-endian words, padding to four bytes,
  terminated strings, and blocks that are written into a
  cleared array.

  A reader takes what it reads off the front of a list of
  bytes and returns the rest.

  Key definitions include:
    * `be32`, `readBe32`
    * `le`, `leNat`, `leInt`
    * `pad4`, `readPadded`
    * `readCString`
    * `window`

  Key theorems include:
    * `readBe32_be32`
    * `leNat_le`, `leInt_le`
    * `readPadded_pad4`
    * `readCString_pad4`
    * `window_append`
-/

------------------------------------------------------------
-- Words
------------------------------------------------------------

namespace ByteCodec

abbrev Byte := BitVec 8

/- The bytes of a word, highest first. -/
def be32
    (v : BitVec 32) : List Byte :=
  [ (v >>> 24).setWidth 8, (v >>> 16).setWidth 8,
    (v >>> 8).setWidth 8, v.setWidth 8 ]

def readBe32 : List Byte → Option (BitVec 32 × List Byte)
  | a :: b :: c :: d :: rest => some (a ++ b ++ c ++ d, rest)
  | _ => none

/- A word is four bytes. -/
@[simp]
theorem length_be32
    (v : BitVec 32) :
    (be32 v).length = 4 :=
  rfl

/- A word is read back. -/
@[simp]
theorem readBe32_be32
    (v : BitVec 32)
    (rest : List Byte) :
    readBe32 (be32 v ++ rest) = some (v, rest) := by
  unfold be32 readBe32
  dsimp only [List.cons_append, List.nil_append]
  congr 2
  apply BitVec.eq_of_getLsbD_eq
  intro i hi
  simp only [BitVec.getLsbD_append, BitVec.getLsbD_setWidth,
    BitVec.getLsbD_ushiftRight]
  by_cases h0 : i < 8
  · simp [h0]
  by_cases h1 : i < 16
  · have hEq : 8 + (i - 8) = i := by omega
    have hLt : i - 8 < 8 := by omega
    simp [h0, hEq, hLt]
  by_cases h2 : i < 24
  · have hEq : 16 + (i - 8 - 8) = i := by omega
    have hLt : i - 8 - 8 < 8 := by omega
    have hGe : ¬ i - 8 < 8 := by omega
    simp [h0, hEq, hLt, hGe]
  · have hEq : 24 + (i - 8 - 8 - 8) = i := by omega
    have hLt : i - 8 - 8 - 8 < 8 := by omega
    have hGe : ¬ i - 8 < 8 := by omega
    have hGe' : ¬ i - 8 - 8 < 8 := by omega
    simp [h0, hEq, hLt, hGe, hGe']

end ByteCodec

------------------------------------------------------------
-- Little-Endian Numbers
------------------------------------------------------------

namespace ByteCodec

/- The low bytes of a number, lowest first. -/
def le : Nat → Nat → List Byte
  | 0, _ => []
  | n + 1, v => BitVec.ofNat 8 v :: le n (v / 256)

def leNat : List Byte → Nat
  | [] => 0
  | byte :: rest => byte.toNat + 256 * leNat rest

/- The same bytes as a number in two's complement. -/
def leInt
    (bytes : List Byte) : Int :=
  if 2 * leNat bytes < 256 ^ bytes.length then
    leNat bytes
  else
    (leNat bytes : Int) - (256 ^ bytes.length : Nat)

/- A number of n bytes has n bytes. -/
@[simp]
theorem length_le
    (n v : Nat) :
    (le n v).length = n := by
  induction n generalizing v with
  | zero => rfl
  | succ n ih => rw [le, List.length_cons, ih]

/- A number is read back modulo its width. -/
theorem leNat_le
    (n v : Nat) :
    leNat (le n v) = v % 256 ^ n := by
  induction n generalizing v with
  | zero =>
      rw [pow_zero, Nat.mod_one]
      rfl
  | succ n ih =>
      have hPow : 256 ^ (n + 1) = 256 * 256 ^ n := pow_succ' 256 n
      rw [le, leNat, ih, BitVec.toNat_ofNat, hPow, Nat.mod_mul]

/- A loop that shifts one byte after the other out of a word. -/
theorem leNat_lt
    (bs : List Byte) :
    leNat bs < 256 ^ bs.length := by
  induction bs with
  | nil => exact Nat.one_pos
  | cons b bs ih =>
      have hByte := b.isLt
      have hPow : 256 ^ (b :: bs).length =
          256 * 256 ^ bs.length := pow_succ' 256 bs.length
      rw [leNat, hPow]
      omega

/- Shifting out the bytes is the same. -/
theorem map_shift_eq_le
    {w : Nat}
    (n : Nat)
    (v : BitVec w) :
    (List.range n).map (fun i => (v >>> (i * 8)).setWidth 8) =
      le n v.toNat := by
  induction n generalizing v with
  | zero => rfl
  | succ n ih =>
      have hTail : v.toNat / 256 = (v >>> 8).toNat := by
        rw [BitVec.toNat_ushiftRight, Nat.shiftRight_eq_div_pow]
      rw [List.range_succ_eq_map, List.map_cons, List.map_map,
        le, hTail, ← ih]
      congr 1
      · apply BitVec.eq_of_toNat_eq
        rw [Nat.zero_mul, BitVec.toNat_setWidth,
          BitVec.toNat_ushiftRight, Nat.shiftRight_zero,
          BitVec.toNat_ofNat]
      · apply List.map_congr_left
        intro i _
        have hEq : (i + 1) * 8 = 8 + i * 8 := by omega
        dsimp only [Function.comp_apply]
        rw [Nat.succ_eq_add_one, hEq, BitVec.shiftRight_add]

/- A number below half of the range is read as it is. -/
theorem leInt_le
    {n v : Nat}
    (hLt : v < 256 ^ n) :
    leInt (le n v) =
      if 2 * v < 256 ^ n then (v : Int)
      else (v : Int) - (256 ^ n : Nat) := by
  unfold leInt
  rw [leNat_le, length_le, Nat.mod_eq_of_lt hLt]

end ByteCodec

------------------------------------------------------------
-- Padding
------------------------------------------------------------

namespace ByteCodec

/- How many bytes are missing to a multiple of four. -/
def padLen
    (n : Nat) : Nat :=
  (4 - n % 4) % 4

/- The bytes, filled up with zeros. -/
def pad4
    (bs : List Byte) : List Byte :=
  bs ++ List.replicate (padLen bs.length) 0

/- Read `n` bytes and the padding after them. -/
def readPadded
    (n : Nat)
    (bs : List Byte) : Option (List Byte × List Byte) :=
  if n + padLen n ≤ bs.length then
    some (bs.take n, bs.drop (n + padLen n))
  else
    none

/- Padding ends at the next multiple of four. -/
theorem length_pad4
    (bs : List Byte) :
    (pad4 bs).length = (bs.length + 3) / 4 * 4 := by
  unfold pad4 padLen
  rw [List.length_append, List.length_replicate]
  omega

/- Padded bytes end on a multiple of four. -/
theorem dvd_length_pad4
    (bs : List Byte) :
    4 ∣ (pad4 bs).length := by
  rw [length_pad4]
  exact Nat.dvd_mul_left 4 _

/- Padded bytes are read back. -/
theorem readPadded_pad4
    (bs rest : List Byte) :
    readPadded bs.length (pad4 bs ++ rest) =
      some (bs, rest) := by
  have hLen : (pad4 bs).length =
      bs.length + padLen bs.length := by
    simp [pad4]
  have hFits : bs.length + padLen bs.length ≤
      (pad4 bs ++ rest).length := by
    rw [List.length_append, hLen]
    exact Nat.le_add_right _ _
  unfold readPadded
  rw [if_pos hFits, ← hLen, List.drop_left]
  unfold pad4
  rw [List.append_assoc, List.take_left]

end ByteCodec

------------------------------------------------------------
-- Strings
------------------------------------------------------------

namespace ByteCodec

/- The string that begins here and ends before a zero. -/
def cString
    (bs : List Byte) : Option (List Byte) :=
  if 0 ∈ bs then some (bs.takeWhile (· ≠ 0)) else none

/- Read a string, its terminator and the padding. -/
def readCString
    (bs : List Byte) : Option (List Byte × List Byte) := do
  let s ← cString bs
  let (_, rest) ← readPadded (s.length + 1) bs
  some (s, rest)

/- A string ends at its first NUL. -/
theorem cString_append
    {s : List Byte}
    (hNul : 0 ∉ s)
    (rest : List Byte) :
    cString (s ++ 0 :: rest) = some s := by
  have hMem : (0 : Byte) ∈ s ++ 0 :: rest := by simp
  have hTake : (s ++ 0 :: rest).takeWhile (· ≠ 0) = s := by
    rw [List.takeWhile_append_of_pos]
    · simp
    · intro b hb
      rw [decide_eq_true_iff]
      intro hZero
      rw [hZero] at hb
      exact hNul hb
  unfold cString
  rw [if_pos hMem, hTake]

/- The string of a block that a padded one begins. -/
theorem cString_pad4
    {s : List Byte}
    (hNul : 0 ∉ s)
    (rest : List Byte) :
    cString (pad4 (s ++ [0]) ++ rest) = some s := by
  have hCons : pad4 (s ++ [0]) ++ rest = s ++ 0 ::
      (List.replicate (padLen (s ++ [0]).length) 0 ++
        rest) := by
    simp [pad4]
  rw [hCons, cString_append hNul]

/- Padded strings are read back. -/
theorem readCString_pad4
    {s : List Byte}
    (hNul : 0 ∉ s)
    (rest : List Byte) :
    readCString (pad4 (s ++ [0]) ++ rest) =
      some (s, rest) := by
  have hRead := readPadded_pad4 (s ++ [0]) rest
  rw [List.length_append, List.length_singleton] at hRead
  unfold readCString
  rw [cString_pad4 hNul]
  simp only [Option.bind_eq_bind, Option.bind_some]
  rw [hRead]
  rfl

end ByteCodec

------------------------------------------------------------
-- Blocks
------------------------------------------------------------

namespace ByteCodec

/- `n` bytes of an array. -/
def slice
    (data : Nat → Byte)
    (off n : Nat) : List Byte :=
  (List.range n).map (fun i => data (off + i))

/-
  The array with the bytes of a block from `off` on, and
  zeros after them up to `stop`.
-/
def window
    (base : Nat → Byte)
    (off stop : Nat)
    (block : List Byte) : Nat → Byte :=
  fun i =>
    if off ≤ i ∧ i < stop then block.getD (i - off) 0
    else base i

/- Nothing changes before a block. -/
theorem window_of_lt
    {base : Nat → Byte}
    {off stop i : Nat}
    (block : List Byte)
    (hLt : i < off) :
    window base off stop block i = base i :=
  if_neg (fun h => absurd h.1 (by omega))

/- Nothing changes behind a block. -/
theorem window_of_ge
    {base : Nat → Byte}
    {off stop i : Nat}
    (block : List Byte)
    (hGe : stop ≤ i) :
    window base off stop block i = base i :=
  if_neg (fun h => absurd h.2 (by omega))

/- The block is there in between. -/
theorem window_of_mem
    {base : Nat → Byte}
    {off stop i : Nat}
    (block : List Byte)
    (hLe : off ≤ i)
    (hLt : i < stop) :
    window base off stop block i = block.getD (i - off) 0 :=
  if_pos ⟨hLe, hLt⟩

/- What surrounds it is taken from the base. -/
theorem window_congr
    {base base' : Nat → Byte}
    {i : Nat}
    (off stop : Nat)
    (block : List Byte)
    (h : base i = base' i) :
    window base off stop block i =
      window base' off stop block i := by
  unfold window
  rw [h]

/- Writing behind a block makes it longer. -/
theorem window_append
    {base : Nat → Byte}
    {off stop : Nat}
    {block bs : List Byte}
    (hFits : off + block.length + bs.length ≤ stop) :
    window (window base off stop block) (off + block.length)
        (off + block.length + bs.length) bs =
      window base off stop (block ++ bs) := by
  funext i
  by_cases hLow : i < off
  · rw [window_of_lt _ (by omega), window_of_lt _ hLow,
      window_of_lt _ hLow]
  by_cases hHigh : stop ≤ i
  · rw [window_of_ge _ (by omega), window_of_ge _ hHigh,
      window_of_ge _ hHigh]
  rw [window_of_mem (block ++ bs) (by omega) (by omega)]
  by_cases hOld : i < off + block.length
  · rw [window_of_lt _ hOld,
      window_of_mem _ (by omega) (by omega),
      List.getD_append _ _ _ _ (by omega)]
  rw [List.getD_append_right _ _ _ _ (by omega)]
  by_cases hNew : i < off + block.length + bs.length
  · rw [window_of_mem _ (by omega) hNew]
    congr 1
    omega
  · rw [window_of_ge _ (by omega),
      window_of_mem _ (by omega) (by omega),
      List.getD_eq_default _ _ (by omega),
      List.getD_eq_default _ _ (by omega)]

/- Zeros at the end of a block make no difference. -/
theorem window_zeros
    (base : Nat → Byte)
    (off stop : Nat)
    (block : List Byte)
    (n : Nat) :
    window base off stop (block ++ List.replicate n 0) =
      window base off stop block := by
  funext i
  unfold window
  split
  · by_cases hLt : i - off < block.length
    · rw [List.getD_append _ _ _ _ hLt]
    · rw [List.getD_append_right _ _ _ _ (by omega),
        List.getD_eq_default block _ (by omega)]
      simp
  · rfl

/- Blocks that do not overlap are written in any order. -/
theorem window_comm
    (base : Nat → Byte)
    {off stop off' stop' : Nat}
    (block block' : List Byte)
    (hApart : stop ≤ off') :
    window (window base off stop block) off' stop' block' =
      window (window base off' stop' block') off stop
        block := by
  funext i
  unfold window
  by_cases h : off ≤ i ∧ i < stop
  · have h' : ¬ (off' ≤ i ∧ i < stop') := by omega
    rw [if_pos h, if_neg h', if_pos h]
  · rw [if_neg h, if_neg h]

/- A window onto zeros is nothing new. -/
theorem window_nil_of_zero
    {base : Nat → Byte}
    {off stop : Nat}
    (hZero : ∀ i, off ≤ i → i < stop → base i = 0) :
    window base off stop [] = base := by
  funext i
  unfold window
  split
  case isTrue h => exact (hZero i h.1 h.2).symm
  case isFalse => rfl

/- A shorter slice is a prefix. -/
theorem take_slice
    (data : Nat → Byte)
    (off : Nat)
    {k n : Nat}
    (h : k ≤ n) :
    (slice data off n).take k = slice data off k := by
  unfold slice
  rw [← List.map_take, List.take_range, Nat.min_eq_left h]

/- A block is read back. -/
theorem slice_window
    (base : Nat → Byte)
    {off stop : Nat}
    {block : List Byte}
    (hFits : off + block.length ≤ stop) :
    slice (window base off stop block) off block.length =
      block := by
  apply List.ext_getElem
  · simp [slice]
  · intro i hLeft hRight
    simp only [slice, List.getElem_map, List.getElem_range]
    rw [window_of_mem _ (by omega) (by omega),
      Nat.add_sub_cancel_left, List.getD_eq_getElem _ _ hRight]

/- Behind a block there are zeros. -/
theorem window_behind
    {base : Nat → Byte}
    {off stop i : Nat}
    {block : List Byte}
    (hBehind : off + block.length ≤ i)
    (hLt : i < stop) :
    window base off stop block i = 0 := by
  rw [window_of_mem _ (by omega) hLt,
    List.getD_eq_default _ _ (by omega)]

/- A slice of zero bytes is a list of zeros. -/
theorem slice_eq_zeros
    {data : Nat → Byte}
    {off n : Nat}
    (hZero : ∀ i < n, data (off + i) = 0) :
    slice data off n = List.replicate n 0 := by
  apply List.ext_getElem
  · simp [slice]
  · intro i hLeft hRight
    rw [List.length_replicate] at hRight
    simp only [slice, List.getElem_map, List.getElem_range,
      List.getElem_replicate]
    exact hZero i hRight

/- A block elsewhere does not change what is read. -/
theorem slice_window_of_apart
    (base : Nat → Byte)
    {off stop : Nat}
    (block : List Byte)
    {off' n : Nat}
    (hApart : off' + n ≤ off ∨ stop ≤ off') :
    slice (window base off stop block) off' n =
      slice base off' n := by
  unfold slice
  apply List.map_congr_left
  intro i hMem
  rw [List.mem_range] at hMem
  rcases hApart with hBefore | hAfter
  · exact window_of_lt _ (by omega)
  · exact window_of_ge _ (by omega)

end ByteCodec

------------------------------------------------------------
-- Patches
------------------------------------------------------------

namespace ByteCodec

/- A block, and the range of an array it is written to. -/
structure Patch where
  off : Nat
  stop : Nat
  block : List Byte

def Patch.Covers
    (p : Patch)
    (i : Nat) : Prop :=
  p.off ≤ i ∧ i < p.stop

/- What the patch has for a byte of its range. -/
def Patch.byte
    (p : Patch)
    (i : Nat) : Byte :=
  p.block.getD (i - p.off) 0

/- An array after patches, one after the other. -/
def overlay : List Patch → (Nat → Byte) → Nat → Byte
  | [], base => base
  | p :: ps, base =>
      overlay ps (window base p.off p.stop p.block)

variable {p : Patch}
variable {ps qs : List Patch}
variable {base : Nat → Byte}
variable {i : Nat}

/- Patches are applied in order. -/
theorem overlay_append
    (ps qs : List Patch)
    (base : Nat → Byte) :
    overlay (ps ++ qs) base = overlay qs (overlay ps base) := by
  induction ps generalizing base with
  | nil => rfl
  | cons p ps ih => exact ih _

/- A byte outside of every patch stays as it is. -/
theorem overlay_kept
    (h : ∀ p ∈ ps, ¬ p.Covers i) :
    overlay ps base i = base i := by
  induction ps generalizing base with
  | nil => rfl
  | cons p ps ih =>
      refine (ih fun q hMem =>
        h q (List.mem_cons_of_mem p hMem)).trans ?_
      exact if_neg (h p List.mem_cons_self)

/- Patches that agree on a byte, some of which has it. -/
theorem overlay_uniform
    {b : Byte}
    (hAll : ∀ p ∈ ps, p.Covers i → p.byte i = b)
    (hSome : ∃ p ∈ ps, p.Covers i) :
    overlay ps base i = b := by
  induction ps generalizing base with
  | nil =>
      rcases hSome with ⟨p, hMem, -⟩
      exact absurd hMem List.not_mem_nil
  | cons p ps ih =>
      have hRest : ∀ q ∈ ps, q.Covers i → q.byte i = b :=
        fun q hMem => hAll q (List.mem_cons_of_mem p hMem)
      by_cases hLater : ∃ q ∈ ps, q.Covers i
      · exact ih hRest hLater
      · have hNone : ∀ q ∈ ps, ¬ q.Covers i :=
          fun q hMem hIn => hLater ⟨q, hMem, hIn⟩
        have hFirst : p.Covers i := by
          rcases hSome with ⟨q, hMem, hIn⟩
          rcases List.mem_cons.mp hMem with rfl | hMem
          · exact hIn
          · exact absurd hIn (hNone q hMem)
        refine (overlay_kept hNone).trans ?_
        refine (window_of_mem _ hFirst.1 hFirst.2).trans ?_
        exact hAll p List.mem_cons_self hFirst

/- A patch is seen where no later one covers it. -/
theorem overlay_last
    (hIn : p.Covers i)
    (hLater : ∀ q ∈ qs, ¬ q.Covers i) :
    overlay (ps ++ p :: qs) base i = p.byte i := by
  rw [overlay_append]
  exact (overlay_kept hLater).trans
    (window_of_mem _ hIn.1 hIn.2)

end ByteCodec
