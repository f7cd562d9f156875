import RiscvEm.Decode.Select
import RiscvEm.Lib.WordArith
import RiscvEm.Sets.Exec

/-
  The instructions of Zba, Zbb and Zbs and the results that
  the extensions define.

  Key definitions include:
    * `Zb`
    * `Zb.result`
    * `Zb.shifts`
    * `Zb.body`
    * `BitmanipOk`

  Key theorems include `bitmanip_ok_iff`.
-/

------------------------------------------------------------
-- The Extensions
------------------------------------------------------------

namespace RiscvEm

inductive Zb where
  | ADD_UW
  | SH1ADD
  | SH1ADD_UW
  | SH2ADD
  | SH2ADD_UW
  | SH3ADD
  | SH3ADD_UW
  | SLLI_UW
  | ANDN
  | ORN
  | XNOR
  | CLZ
  | CLZW
  | CTZ
  | CTZW
  | CPOP
  | CPOPW
  | MAX
  | MAXU
  | MIN
  | MINU
  | SEXT_B
  | SEXT_H
  | ZEXT_H
  | ROL
  | ROLW
  | ROR
  | RORI
  | RORIW
  | RORW
  | ORC_B
  | REV8
  | BCLR
  | BCLRI
  | BEXT
  | BEXTI
  | BINV
  | BINVI
  | BSET
  | BSETI
  deriving DecidableEq, Repr

namespace Zb

/- The entry of the table. -/
def op : Zb → Op
  | .ADD_UW => .ADD_UW
  | .SH1ADD => .SH1ADD
  | .SH1ADD_UW => .SH1ADD_UW
  | .SH2ADD => .SH2ADD
  | .SH2ADD_UW => .SH2ADD_UW
  | .SH3ADD => .SH3ADD
  | .SH3ADD_UW => .SH3ADD_UW
  | .SLLI_UW => .SLLI_UW
  | .ANDN => .ANDN
  | .ORN => .ORN
  | .XNOR => .XNOR
  | .CLZ => .CLZ
  | .CLZW => .CLZW
  | .CTZ => .CTZ
  | .CTZW => .CTZW
  | .CPOP => .CPOP
  | .CPOPW => .CPOPW
  | .MAX => .MAX
  | .MAXU => .MAXU
  | .MIN => .MIN
  | .MINU => .MINU
  | .SEXT_B => .SEXT_B
  | .SEXT_H => .SEXT_H
  | .ZEXT_H => .ZEXT_H
  | .ROL => .ROL
  | .ROLW => .ROLW
  | .ROR => .ROR
  | .RORI => .RORI
  | .RORIW => .RORIW
  | .RORW => .RORW
  | .ORC_B => .ORC_B
  | .REV8 => .REV8
  | .BCLR => .BCLR
  | .BCLRI => .BCLRI
  | .BEXT => .BEXT
  | .BEXTI => .BEXTI
  | .BINV => .BINV
  | .BINVI => .BINVI
  | .BSET => .BSET
  | .BSETI => .BSETI

/- Byte `k` of a word. -/
def byte
    (a : BitVec 64)
    (k : Nat) : BitVec 8 :=
  a.extractLsb' (8 * k) 8

/- The word of eight bytes. -/
def ofBytes
    (f : Nat → BitVec 8) : BitVec 64 :=
  f 7 ++ (f 6 ++ (f 5 ++ (f 4 ++
    (f 3 ++ (f 2 ++ (f 1 ++ f 0))))))

/-
  What the extensions define as the result, for the shift
  amount in the instruction word and the two operands.
-/
def result
    (shamt : BitVec 6)
    (a b : BitVec 64) : Zb → BitVec 64
  | .ADD_UW => b + (a.setWidth 32).setWidth 64
  | .SH1ADD => b + a <<< 1
  | .SH1ADD_UW => b + (a.setWidth 32).setWidth 64 <<< 1
  | .SH2ADD => b + a <<< 2
  | .SH2ADD_UW => b + (a.setWidth 32).setWidth 64 <<< 2
  | .SH3ADD => b + a <<< 3
  | .SH3ADD_UW => b + (a.setWidth 32).setWidth 64 <<< 3
  | .SLLI_UW => (a.setWidth 32).setWidth 64 <<< shamt.toNat
  | .ANDN => a &&& ~~~b
  | .ORN => a ||| ~~~b
  | .XNOR => ~~~(a ^^^ b)
  | .CLZ => a.clz
  | .CLZW => (a.setWidth 32).clz.setWidth 64
  | .CTZ => a.ctz
  | .CTZW => (a.setWidth 32).ctz.setWidth 64
  | .CPOP => a.cpop
  | .CPOPW => (a.setWidth 32).cpop.setWidth 64
  | .MAX => BitVec.ofInt 64 (max a.toInt b.toInt)
  | .MAXU => BitVec.ofNat 64 (max a.toNat b.toNat)
  | .MIN => BitVec.ofInt 64 (min a.toInt b.toInt)
  | .MINU => BitVec.ofNat 64 (min a.toNat b.toNat)
  | .SEXT_B => (a.setWidth 8).signExtend 64
  | .SEXT_H => (a.setWidth 16).signExtend 64
  | .ZEXT_H => (a.setWidth 16).setWidth 64
  | .ROL => a.rotateLeft (b.setWidth 6).toNat
  | .ROLW =>
      ((a.setWidth 32).rotateLeft
        (b.setWidth 5).toNat).signExtend 64
  | .ROR => a.rotateRight (b.setWidth 6).toNat
  | .RORI => a.rotateRight shamt.toNat
  | .RORIW =>
      ((a.setWidth 32).rotateRight
        shamt.toNat).signExtend 64
  | .RORW =>
      ((a.setWidth 32).rotateRight
        (b.setWidth 5).toNat).signExtend 64
  | .ORC_B => ofBytes (fun k =>
      if byte a k = 0 then 0 else 0xFF)
  | .REV8 => ofBytes (fun k => byte a (7 - k))
  | .BCLR => a &&& ~~~(BitVec.twoPow 64 (b.setWidth 6).toNat)
  | .BCLRI => a &&& ~~~(BitVec.twoPow 64 shamt.toNat)
  | .BEXT => (BitVec.ofBool
      (a.getLsbD (b.setWidth 6).toNat)).setWidth 64
  | .BEXTI => (BitVec.ofBool
      (a.getLsbD shamt.toNat)).setWidth 64
  | .BINV => a ^^^ BitVec.twoPow 64 (b.setWidth 6).toNat
  | .BINVI => a ^^^ BitVec.twoPow 64 shamt.toNat
  | .BSET => a ||| BitVec.twoPow 64 (b.setWidth 6).toNat
  | .BSETI => a ||| BitVec.twoPow 64 shamt.toNat

/- A shift of the host language: its width and its amount. -/
structure HostShift where
  width : Nat
  amount : BitVec 64

def HostShift.InRange
    (x : HostShift) : Prop :=
  x.amount.toNat < x.width

/- The shifts of a loop over the bits of a word. -/
def loopShifts
    (width : Nat) : List HostShift :=
  (List.range width).map
    (fun i => ⟨width, BitVec.ofNat 64 i⟩)

/- The shifts of a rotation made of two shifts. -/
def rotateShifts
    (width shamt : BitVec 64) : List HostShift :=
  [⟨64, shamt⟩, ⟨64, width - shamt⟩]

/- The shifts that a body performs. -/
def shifts
    (b imm : BitVec 64) : Zb → List HostShift
  | .SH1ADD | .SH1ADD_UW => [⟨64, 1⟩]
  | .SH2ADD | .SH2ADD_UW => [⟨64, 2⟩]
  | .SH3ADD | .SH3ADD_UW => [⟨64, 3⟩]
  | .SLLI_UW => [⟨64, imm⟩]
  | .CLZ | .CTZ | .CPOP => loopShifts 64
  | .CLZW | .CTZW | .CPOPW => loopShifts 32
  | .ROL | .ROR => rotateShifts 64 (b &&& 0x3F)
  | .ROLW | .RORW => rotateShifts 32 (b &&& 0x1F)
  | .RORI => rotateShifts 64 imm
  | .RORIW => rotateShifts 32 imm
  | .ORC_B | .REV8 =>
      (List.range 8).map
        (fun i => ⟨64, BitVec.ofNat 64 (8 * i)⟩)
  | .BCLR | .BEXT | .BINV | .BSET => [⟨64, b &&& 0x3F⟩]
  | .BCLRI | .BEXTI | .BINVI | .BSETI =>
      [⟨64, imm &&& 0x3F⟩]
  | _ => []

end Zb

/- Bits 25 to 20 of an instruction word. -/
def shamtField
    (w : BitVec 32) : BitVec 6 :=
  w.extractLsb' 20 6

variable {σ : Type}

/-
  The body of the instruction, run on the decoded word,
  shifts by amounts in range only and writes the result.
-/
structure BitmanipOk
    (P : Platform σ)
    (pc : BitVec 64)
    (w : BitVec 32)
    (s : State σ)
    (i : Zb) : Prop where
  shifts : ∀ x ∈
    i.shifts (s.gpr (dRs2 w))
      (decodeEntry decoder pc w).data.imm,
    x.InRange
  writes : i.op.exec P (decodeEntry decoder pc w).data s =
    .ok (.next 4, s.setGpr (dRd w)
      (i.result (shamtField w) (s.gpr (dRs1 w))
        (s.gpr (dRs2 w))))

end RiscvEm

------------------------------------------------------------
-- Bodies With Their Shifts
------------------------------------------------------------

namespace RiscvEm

/- A value, and the shifts of the host that lead to it. -/
structure Shifted where
  value : BitVec 64
  shifts : List Zb.HostShift

namespace Shifted

def of
    (x : BitVec 64) : Shifted :=
  ⟨x, []⟩

def shl
    (x : Shifted)
    (n : BitVec 64) : Shifted :=
  ⟨RiscvEm.shl x.value n, x.shifts ++ [⟨64, n⟩]⟩

def shr
    (x : Shifted)
    (n : BitVec 64) : Shifted :=
  ⟨RiscvEm.shr x.value n, x.shifts ++ [⟨64, n⟩]⟩

def map
    (f : BitVec 64 → BitVec 64)
    (x : Shifted) : Shifted :=
  ⟨f x.value, x.shifts⟩

def or
    (x y : Shifted) : Shifted :=
  ⟨x.value ||| y.value, x.shifts ++ y.shifts⟩

/- A loop that tests bits of a word one after the other. -/
def tests
    (width : Nat)
    (x : BitVec 64) : Shifted :=
  ⟨x, Zb.loopShifts width⟩

/- A loop over eight bytes. -/
def bytes
    (f : Nat → Shifted) : Shifted :=
  (List.range 8).foldl (fun out i => out.or (f i)) (of 0)

end Shifted

namespace Zb

/- The bodies, with every shift that they make. -/
def body
    (a b imm : BitVec 64) : Zb → Shifted
  | .ADD_UW => .of (b + zextW a)
  | .SH1ADD => ((Shifted.of a).shl 1).map (b + ·)
  | .SH1ADD_UW => ((Shifted.of (zextW a)).shl 1).map (b + ·)
  | .SH2ADD => ((Shifted.of a).shl 2).map (b + ·)
  | .SH2ADD_UW => ((Shifted.of (zextW a)).shl 2).map (b + ·)
  | .SH3ADD => ((Shifted.of a).shl 3).map (b + ·)
  | .SH3ADD_UW => ((Shifted.of (zextW a)).shl 3).map (b + ·)
  | .SLLI_UW => (Shifted.of (zextW a)).shl imm
  | .ANDN => .of (a &&& ~~~b)
  | .ORN => .of (a ||| ~~~b)
  | .XNOR => .of (~~~(a ^^^ b))
  | .CLZ => .tests 64 (63 - scanDown a 64)
  | .CLZW => .tests 32 (31 - scanDown (a.setWidth 32) 32)
  | .CTZ => .tests 64 (scanUp a)
  | .CTZW => .tests 32 (scanUp (a.setWidth 32))
  | .CPOP => .tests 64 (countBits a)
  | .CPOPW => .tests 32 (countBits (a.setWidth 32))
  | .MAX => .of (if a.slt b then b else a)
  | .MAXU => .of (if a < b then b else a)
  | .MIN => .of (if b.slt a then b else a)
  | .MINU => .of (if b < a then b else a)
  | .SEXT_B => .of ((a.setWidth 8).signExtend 64)
  | .SEXT_H => .of ((a.setWidth 16).signExtend 64)
  | .ZEXT_H => .of (a &&& 0xFFFF)
  | .ROL =>
      let n := b &&& 0x3F
      ((Shifted.of a).shl n).or ((Shifted.of a).shr (64 - n))
  | .ROLW =>
      let x := Shifted.of (zextW a)
      let n := b &&& 0x1F
      ((x.shl n).or (x.shr (32 - n))).map sextW
  | .ROR =>
      let n := b &&& 0x3F
      ((Shifted.of a).shr n).or ((Shifted.of a).shl (64 - n))
  | .RORI =>
      ((Shifted.of a).shr imm).or
        ((Shifted.of a).shl (64 - imm))
  | .RORIW =>
      let x := Shifted.of (zextW a)
      (x.shr imm).or (x.shl (32 - imm))
  | .RORW =>
      let x := Shifted.of (zextW a)
      let n := b &&& 0x1F
      ((x.shr n).or (x.shl (32 - n))).map sextW
  | .ORC_B => .bytes fun i =>
      let n := BitVec.ofNat 64 (8 * i)
      (((Shifted.of a).shr n).map (fun x =>
        if x &&& 0xFF = 0 then 0 else 0xFF)).shl n
  | .REV8 => .bytes fun i =>
      (((Shifted.of a).shr (BitVec.ofNat 64 (8 * i))).map
        (· &&& 0xFF)).shl (BitVec.ofNat 64 ((7 - i) * 8))
  | .BCLR =>
      ((Shifted.of 1).shl (b &&& 0x3F)).map (a &&& ~~~·)
  | .BCLRI =>
      ((Shifted.of 1).shl (imm &&& 0x3F)).map (a &&& ~~~·)
  | .BEXT => ((Shifted.of a).shr (b &&& 0x3F)).map (· &&& 1)
  | .BEXTI =>
      ((Shifted.of a).shr (imm &&& 0x3F)).map (· &&& 1)
  | .BINV => ((Shifted.of 1).shl (b &&& 0x3F)).map (a ^^^ ·)
  | .BINVI =>
      ((Shifted.of 1).shl (imm &&& 0x3F)).map (a ^^^ ·)
  | .BSET => ((Shifted.of 1).shl (b &&& 0x3F)).map (a ||| ·)
  | .BSETI =>
      ((Shifted.of 1).shl (imm &&& 0x3F)).map (a ||| ·)

variable {σ : Type}

/- The bodies write what the instructions write. -/
theorem exec_body
    (P : Platform σ)
    (d : InstructionData)
    (s : State σ)
    (i : Zb) :
    i.op.exec P d s = .ok (.next 4, s.setGpr d.rd
      (i.body (s.gpr d.rs1) (s.gpr d.rs2) d.imm).value) := by
  cases i with
  | _ => rfl

theorem mem_bytes_shifts
    {f : Nat → Shifted}
    {x : HostShift} :
    x ∈ (Shifted.bytes f).shifts ↔
      ∃ i < 8, x ∈ (f i).shifts := by
  have hFold : ∀ (l : List Nat) (out : Shifted),
      x ∈ (l.foldl (fun out i => out.or (f i)) out).shifts ↔
        x ∈ out.shifts ∨ ∃ i ∈ l, x ∈ (f i).shifts := by
    intro l
    induction l with
    | nil => simp
    | cons k l ih =>
        intro out
        rw [List.foldl_cons, ih, List.exists_mem_cons_iff,
          ← or_assoc]
        exact or_congr_left List.mem_append
  unfold Shifted.bytes
  rw [hFold]
  simp [Shifted.of]

/- The amounts listed are those of the bodies. -/
theorem mem_body_shifts
    {a b imm : BitVec 64}
    {i : Zb}
    {x : HostShift} :
    x ∈ (i.body a b imm).shifts ↔ x ∈ i.shifts b imm := by
  have hListed : x ∈ (List.range 8).map
        (fun i => HostShift.mk 64 (BitVec.ofNat 64 (8 * i))) ↔
      ∃ i < 8, x = ⟨64, BitVec.ofNat 64 (8 * i)⟩ := by
    simp [eq_comm]
  cases i with
  | ORC_B =>
      refine mem_bytes_shifts.trans (Iff.trans ?_ hListed.symm)
      simp [Shifted.of, Shifted.map, Shifted.shl, Shifted.shr]
  | REV8 =>
      refine mem_bytes_shifts.trans (Iff.trans ?_ hListed.symm)
      constructor
      · rintro ⟨i, hi, hMem⟩
        rcases List.mem_append.mp hMem with hIn | hOut
        · exact ⟨i, hi, List.mem_singleton.mp hIn⟩
        · refine ⟨7 - i, by omega, ?_⟩
          rw [Nat.mul_comm 8 (7 - i)]
          exact List.mem_singleton.mp hOut
      · rintro ⟨i, hi, rfl⟩
        exact ⟨i, hi, List.mem_append_left _
          (List.mem_singleton.mpr rfl)⟩
  | _ => exact Iff.rfl

end Zb

end RiscvEm

------------------------------------------------------------
-- Counts
------------------------------------------------------------

namespace RiscvEm

variable {w : Nat}

/- A count fits the word it counts. -/
theorem setWidth_count
    {k : Nat}
    (h : k ≤ w) :
    (BitVec.ofNat w k).setWidth 64 = BitVec.ofNat 64 k := by
  have hLt : w < 2 ^ w := Nat.lt_two_pow_self
  apply BitVec.eq_of_toNat_eq
  rw [BitVec.toNat_setWidth, BitVec.toNat_ofNat,
    BitVec.toNat_ofNat, Nat.mod_eq_of_lt (b := 2 ^ w)]
  omega

/- Numbers that do not wrap are subtracted as such. -/
theorem ofNat_sub_ofNat
    {m n : Nat}
    (hm : m < 2 ^ 64)
    (h : n ≤ m) :
    BitVec.ofNat 64 m - BitVec.ofNat 64 n =
      BitVec.ofNat 64 (m - n) := by
  apply BitVec.eq_of_toNat_eq
  rw [BitVec.toNat_sub, BitVec.toNat_ofNat,
    BitVec.toNat_ofNat, BitVec.toNat_ofNat]
  omega

/- Scanning from above counts the leading zeroes. -/
theorem scanDown_clz
    (hPos : 0 < w)
    (hWide : w ≤ 64)
    (x : BitVec w) :
    BitVec.ofNat 64 (w - 1) - scanDown x w =
      x.clz.setWidth 64 := by
  -- below bit `n + 1`, the scan and the count agree
  have hRec : ∀ n < w,
      BitVec.ofNat 64 (w - 1) - scanDown x (n + 1) =
        (BitVec.clzAuxRec x n).setWidth 64 := by
    intro n
    induction n with
    | zero =>
        intro _
        unfold scanDown BitVec.clzAuxRec
        by_cases hBit : x.getLsbD 0 = true
        · rw [if_pos hBit, if_pos hBit,
            setWidth_count (by omega)]
          exact ofNat_sub_ofNat (by omega) (by omega)
        · rw [if_neg hBit, if_neg hBit,
            setWidth_count (by omega)]
          have hNone : scanDown x 0 = -BitVec.ofNat 64 1 :=
            rfl
          rw [hNone, BitVec.sub_neg, ← BitVec.ofNat_add,
            Nat.sub_add_cancel hPos]
    | succ n ih =>
        intro hn
        unfold scanDown BitVec.clzAuxRec
        by_cases hBit : x.getLsbD (n + 1) = true
        · rw [if_pos hBit, if_pos hBit,
            setWidth_count (by omega)]
          exact ofNat_sub_ofNat (by omega) (by omega)
        · rw [if_neg hBit, if_neg hBit]
          exact ih (by omega)
  have hAll := hRec (w - 1) (by omega)
  rw [Nat.sub_add_cancel hPos] at hAll
  exact hAll

/- There are no more trailing zeroes than bits. -/
theorem ctz_le
    (x : BitVec w) :
    x.ctz.toNat ≤ w := by
  have hLe := BitVec.clz_le (x := x.reverse)
  rw [BitVec.le_def] at hLe
  have hLt : w < 2 ^ w := Nat.lt_two_pow_self
  rw [BitVec.natCast_eq_ofNat, BitVec.toNat_ofNat,
    Nat.mod_eq_of_lt hLt] at hLe
  exact hLe

/- Scanning from below counts them. -/
theorem scanUp_ctz
    (x : BitVec w) :
    scanUp x = x.ctz.setWidth 64 := by
  have hCount := setWidth_count (ctz_le x)
  rw [BitVec.ofNat_toNat, BitVec.setWidth_eq] at hCount
  unfold scanUp
  rw [hCount]
  congr 1
  by_cases hZero : x = 0#w
  · have hNone : (List.range w).find? (x.getLsbD ·) =
        none := by
      rw [List.find?_eq_none, hZero]
      simp
    have hWhole : x.ctz = BitVec.ofNat w w :=
      BitVec.clz_eq_iff_eq_zero.mpr
        (BitVec.reverse_eq_zero_iff.mpr hZero)
    have hLt : w < 2 ^ w := Nat.lt_two_pow_self
    rw [hNone, hWhole, BitVec.toNat_ofNat,
      Nat.mod_eq_of_lt hLt]
    rfl
  · have hBit := BitVec.getLsbD_true_ctz_of_ne_zero hZero
    have hFind : (List.range w).find? (x.getLsbD ·) =
        some x.ctz.toNat := by
      rw [List.find?_range_eq_some, List.mem_range]
      refine ⟨hBit, BitVec.lt_of_getLsbD hBit, ?_⟩
      intro j hj
      rw [BitVec.getLsbD_false_of_lt_ctz hj]
      rfl
    rw [hFind]
    rfl

/- Bits are counted one by one. -/
theorem cpopNatRec_eq_countP
    (x : BitVec w)
    (n acc : Nat) :
    x.cpopNatRec n acc =
      acc + (List.range n).countP (x.getLsbD ·) := by
  induction n generalizing acc with
  | zero => rfl
  | succ n ih =>
      rw [BitVec.cpopNatRec, ih, List.range_succ,
        List.countP_append, List.countP_singleton]
      cases x.getLsbD n
      · simp
      · simp
        omega

/- Counting bits is the population count. -/
theorem countBits_cpop
    (x : BitVec w) :
    countBits x = x.cpop.setWidth 64 := by
  have hCount := List.countP_le_length
    (p := (x.getLsbD ·)) (l := List.range w)
  rw [List.length_range] at hCount
  unfold countBits BitVec.cpop
  rw [cpopNatRec_eq_countP, Nat.zero_add,
    setWidth_count hCount]

end RiscvEm

------------------------------------------------------------
-- Rotations And Single Bits
------------------------------------------------------------

namespace RiscvEm

/- A shift amount of 6 bits is the low field. -/
theorem toNat_and_mask
    (b : BitVec 64) :
    (b &&& 0x3F).toNat = (b.setWidth 6).toNat := by
  have hMask : (0x3F : BitVec 64).toNat = 2 ^ 6 - 1 := rfl
  rw [BitVec.toNat_and, hMask,
    Nat.and_two_pow_sub_one_eq_mod, BitVec.toNat_setWidth]

/- A shift amount of 5 bits is the low field. -/
theorem toNat_and_maskW
    (b : BitVec 64) :
    (b &&& 0x1F).toNat = (b.setWidth 5).toNat := by
  have hMask : (0x1F : BitVec 64).toNat = 2 ^ 5 - 1 := rfl
  rw [BitVec.toNat_and, hMask,
    Nat.and_two_pow_sub_one_eq_mod, BitVec.toNat_setWidth]

/- The complement of an amount that is not zero. -/
theorem toNat_sub_amount
    (n : BitVec 64)
    (k : Nat)
    (hk : k < 2 ^ 64)
    (h : n.toNat ≤ k) :
    (BitVec.ofNat 64 k - n).toNat = k - n.toNat := by
  rw [BitVec.toNat_sub, BitVec.toNat_ofNat]
  omega

/- Two shifts make a rotation to the left. -/
theorem rol_eq
    (a b : BitVec 64)
    (h : (b.setWidth 6).toNat ≠ 0) :
    shl a (b &&& 0x3F) ||| shr a (64 - (b &&& 0x3F)) =
      a.rotateLeft (b.setWidth 6).toNat := by
  have hLt := (b.setWidth 6).isLt
  have hSub := toNat_sub_amount (b &&& 0x3F) 64 (by decide)
    (by rw [toNat_and_mask]; omega)
  change (64 - (b &&& 0x3F)).toNat = _ at hSub
  unfold shl shr BitVec.rotateLeft BitVec.rotateLeftAux
  rw [hSub, toNat_and_mask, Nat.mod_eq_of_lt hLt,
    Nat.mod_eq_of_lt (by omega)]

/- Two shifts make a rotation to the right. -/
theorem ror_eq
    (a b : BitVec 64)
    (h : (b.setWidth 6).toNat ≠ 0) :
    shr a (b &&& 0x3F) ||| shl a (64 - (b &&& 0x3F)) =
      a.rotateRight (b.setWidth 6).toNat := by
  have hLt := (b.setWidth 6).isLt
  have hSub := toNat_sub_amount (b &&& 0x3F) 64 (by decide)
    (by rw [toNat_and_mask]; omega)
  change (64 - (b &&& 0x3F)).toNat = _ at hSub
  unfold shl shr BitVec.rotateRight BitVec.rotateRightAux
  rw [hSub, toNat_and_mask, Nat.mod_eq_of_lt hLt,
    Nat.mod_eq_of_lt (by omega)]

/- The low word of a shift of a zero-extended word. -/
theorem low_shl_zextW
    (a n : BitVec 64)
    (h : n.toNat < 64) :
    (shl (zextW a) n).setWidth 32 =
      a.setWidth 32 <<< n.toNat := by
  unfold shl zextW
  rw [Nat.mod_eq_of_lt h]
  apply BitVec.eq_of_getLsbD_eq
  intro i hi
  simp only [BitVec.getLsbD_setWidth,
    BitVec.getLsbD_shiftLeft]
  simp [hi, show i < 64 by omega, show i - n.toNat < 32 by omega,
    show i - n.toNat < 64 by omega]

/- The low half of a shifted one. -/
theorem low_shr_zextW
    (a n : BitVec 64)
    (h : n.toNat < 64) :
    (shr (zextW a) n).setWidth 32 =
      a.setWidth 32 >>> n.toNat := by
  unfold shr zextW
  rw [Nat.mod_eq_of_lt h]
  apply BitVec.eq_of_getLsbD_eq
  intro i hi
  simp only [BitVec.getLsbD_setWidth,
    BitVec.getLsbD_ushiftRight]
  by_cases hIn : n.toNat + i < 32
  · simp [hi, hIn, show n.toNat + i < 64 by omega]
  · simp [hi, hIn]

/- The low half is rotated to the left. -/
theorem rolw_eq
    (a b : BitVec 64) :
    sextW (shl (zextW a) (b &&& 0x1F) |||
        shr (zextW a) (32 - (b &&& 0x1F))) =
      ((a.setWidth 32).rotateLeft
        (b.setWidth 5).toNat).signExtend 64 := by
  have hLt := (b.setWidth 5).isLt
  have hSub := toNat_sub_amount (b &&& 0x1F) 32 (by decide)
    (by rw [toNat_and_maskW]; omega)
  change (32 - (b &&& 0x1F)).toNat = _ at hSub
  unfold sextW BitVec.rotateLeft BitVec.rotateLeftAux
  rw [BitVec.setWidth_or,
    low_shl_zextW _ _ (by rw [toNat_and_maskW]; omega),
    low_shr_zextW _ _ (by rw [hSub]; omega), hSub,
    toNat_and_maskW, Nat.mod_eq_of_lt hLt]

/- The low half is rotated to the right. -/
theorem rorw_eq
    (a b : BitVec 64) :
    sextW (shr (zextW a) (b &&& 0x1F) |||
        shl (zextW a) (32 - (b &&& 0x1F))) =
      ((a.setWidth 32).rotateRight
        (b.setWidth 5).toNat).signExtend 64 := by
  have hLt := (b.setWidth 5).isLt
  have hSub := toNat_sub_amount (b &&& 0x1F) 32 (by decide)
    (by rw [toNat_and_maskW]; omega)
  change (32 - (b &&& 0x1F)).toNat = _ at hSub
  unfold sextW BitVec.rotateRight BitVec.rotateRightAux
  rw [BitVec.setWidth_or,
    low_shr_zextW _ _ (by rw [toNat_and_maskW]; omega),
    low_shl_zextW _ _ (by rw [hSub]; omega), hSub,
    toNat_and_maskW, Nat.mod_eq_of_lt hLt]

/- A single bit is a power of two. -/
theorem bitAt_eq
    (index : BitVec 64) :
    bitAt index =
      BitVec.twoPow 64 (index.setWidth 6).toNat := by
  have hLt := (index.setWidth 6).isLt
  unfold bitAt shl BitVec.twoPow
  rw [toNat_and_mask, Nat.mod_eq_of_lt hLt]
  rfl

/- `BEXT` extracts one bit. -/
theorem bext_eq
    (a index : BitVec 64) :
    bext a index =
      (BitVec.ofBool
        (a.getLsbD (index.setWidth 6).toNat)).setWidth 64 := by
  have hLt := (index.setWidth 6).isLt
  unfold bext shr
  rw [toNat_and_mask, Nat.mod_eq_of_lt hLt]
  apply BitVec.eq_of_getLsbD_eq
  intro i hi
  rw [BitVec.getLsbD_and, BitVec.getLsbD_ushiftRight,
    BitVec.getLsbD_setWidth, BitVec.getLsbD_ofBool]
  have hOne : (1 : BitVec 64).getLsbD i = decide (i = 0) := by
    change (1#64).getLsbD i = _
    rw [BitVec.getLsbD_one]
    simp
  rw [hOne]
  by_cases hFirst : i = 0
  · simp [hFirst]
  · simp [hFirst]

end RiscvEm

------------------------------------------------------------
-- Bytes
------------------------------------------------------------

namespace RiscvEm

open Zb

/- The byte of a word in a loop over bytes. -/
theorem byte_eq_shift
    (a : BitVec 64)
    (k : Nat) :
    (a >>> (8 * k)) &&& 0xFF = (byte a k).setWidth 64 := by
  apply BitVec.eq_of_getLsbD_eq
  intro i hi
  have hMask : (0xFF : BitVec 64) = (0xFF : BitVec 8).setWidth
      64 := rfl
  unfold byte
  rw [hMask, BitVec.getLsbD_and, BitVec.getLsbD_ushiftRight,
    BitVec.getLsbD_setWidth, BitVec.getLsbD_setWidth,
    BitVec.getLsbD_extractLsb']
  have hOnes : (0xFF : BitVec 8) = BitVec.allOnes 8 := rfl
  rw [hOnes, BitVec.getLsbD_allOnes]
  simp [hi, Bool.and_comm]

/- A byte above the ones that are there. -/
theorem or_shift_append
    {n : Nat}
    (x : BitVec n)
    (b : BitVec 8)
    (h : 8 + n ≤ 64) :
    x.setWidth 64 ||| b.setWidth 64 <<< n =
      (b ++ x).setWidth 64 := by
  apply BitVec.eq_of_getLsbD_eq
  intro i hi
  simp only [BitVec.getLsbD_or, BitVec.getLsbD_setWidth,
    BitVec.getLsbD_shiftLeft, BitVec.getLsbD_append]
  by_cases hLow : i < n
  · simp [hi, hLow]
  · have hNone : x.getLsbD i = false :=
      BitVec.getLsbD_of_ge x i (by omega)
    simp [hi, hLow, hNone, show i - n < 64 by omega]

/- Bytes put together by shifts are the word of the bytes. -/
theorem foldl_bytes
    (f : Nat → BitVec 8) :
    (List.range 8).foldl
        (fun out i => out ||| (f i).setWidth 64 <<< (8 * i))
        (0 : BitVec 64) =
      ofBytes f := by
  have hRange : List.range 8 = [0, 1, 2, 3, 4, 5, 6, 7] := rfl
  have hFirst : (0 : BitVec 64) ||| (f 0).setWidth 64 <<< 0 =
      (f 0).setWidth 64 := by
    rw [BitVec.shiftLeft_zero]
    exact BitVec.zero_or
  rw [hRange]
  simp only [List.foldl_cons, List.foldl_nil, Nat.mul_zero,
    Nat.mul_one, Nat.reduceMul]
  rw [hFirst, or_shift_append (f 0) (f 1) (by decide),
    or_shift_append (f 1 ++ f 0) (f 2) (by decide),
    or_shift_append (f 2 ++ (f 1 ++ f 0)) (f 3) (by decide),
    or_shift_append (f 3 ++ (f 2 ++ (f 1 ++ f 0))) (f 4)
      (by decide),
    or_shift_append _ (f 5) (by decide),
    or_shift_append _ (f 6) (by decide),
    or_shift_append _ (f 7) (by decide)]
  exact BitVec.setWidth_eq _

/- A zero byte extends to zero. -/
theorem setWidth_eq_zero_iff
    (b : BitVec 8) :
    b.setWidth 64 = 0 ↔ b = 0 := by
  constructor
  · intro h
    have hLow := congrArg (BitVec.setWidth 8) h
    rw [BitVec.setWidth_setWidth_of_le b (by decide),
      BitVec.setWidth_eq] at hLow
    exact hLow
  · rintro rfl
    rfl

/- `ORC.B` fills the bytes that are not zero. -/
theorem orc_b_eq
    (a : BitVec 64) :
    (List.range 8).foldl
        (fun out i =>
          let val : BitVec 64 :=
            if (a >>> (8 * i)) &&& 0xFF = 0 then 0 else 0xFF
          out ||| val <<< (8 * i))
        (0 : BitVec 64) =
      ofBytes (fun k => if byte a k = 0 then 0 else 0xFF) := by
  rw [← foldl_bytes]
  congr 1
  funext out i
  dsimp only
  rw [byte_eq_shift, apply_ite (BitVec.setWidth 64)]
  simp only [setWidth_eq_zero_iff]
  rfl

/- The order in which bytes are put together is no matter. -/
theorem foldl_or_reverse
    (g : Nat → BitVec 64) :
    (List.range 8).foldl (fun out i => out ||| g i) 0 =
      (List.range 8).foldl
        (fun out i => out ||| g (7 - i)) 0 := by
  have hRange : List.range 8 = [0, 1, 2, 3, 4, 5, 6, 7] := rfl
  rw [hRange]
  simp only [List.foldl_cons, List.foldl_nil,
    Nat.reduceSub]
  ac_rfl

/- The loop starts with the byte that ends up on top. -/
theorem rev8_eq
    (a : BitVec 64) :
    (List.range 8).foldl
        (fun out i =>
          out ||| ((a >>> (8 * i)) &&& 0xFF) <<<
            ((7 - i) * 8))
        (0 : BitVec 64) =
      ofBytes (fun k => byte a (7 - k)) := by
  rw [← foldl_bytes, foldl_or_reverse]
  apply List.foldl_rel (r := Eq) rfl
  intro i hi out _ hOut
  rw [List.mem_range] at hi
  have hShift : (7 - (7 - i)) * 8 = 8 * i := by
    omega
  rw [hOut, byte_eq_shift, hShift]

end RiscvEm

------------------------------------------------------------
-- Half Words
------------------------------------------------------------

namespace RiscvEm

/- A half word is what is left by the mask. -/
theorem zext_h_eq
    (a : BitVec 64) :
    a &&& 0xFFFF = (a.setWidth 16).setWidth 64 := by
  apply BitVec.eq_of_toNat_eq
  have hMask : (0xFFFF : BitVec 64).toNat = 2 ^ 16 - 1 := rfl
  rw [BitVec.toNat_and, hMask,
    Nat.and_two_pow_sub_one_eq_mod, BitVec.toNat_setWidth,
    BitVec.toNat_setWidth]
  omega

end RiscvEm

------------------------------------------------------------
-- Immediates
------------------------------------------------------------

namespace RiscvEm

/- The instructions whose bodies use the immediate. -/
def zbImmOps : List Op :=
  [.SLLI_UW, .RORI, .RORIW, .BCLRI, .BEXTI, .BINVI, .BSETI]

/- The bits of an immediate value. -/
theorem immI_getLsbD
    (w : BitVec 32)
    {j : Nat}
    (h : j < 12) :
    (immI w).getLsbD j = w.getLsbD (20 + j) := by
  unfold immI sext
  rw [BitVec.getLsbD_signExtend, BitVec.getLsbD_sshiftRight,
    BitVec.getLsbD_shiftLeft, BitVec.getLsbD_ushiftRight]
  simp [show j < 64 by omega, show j < 32 by omega,
    show 20 + j < 32 by omega]

/- The shift amount is in the lowest bits. -/
theorem immI_shamt
    (w : BitVec 32) :
    (immI w).setWidth 6 = shamtField w := by
  apply BitVec.eq_of_getLsbD_eq
  intro j hj
  unfold shamtField
  rw [BitVec.getLsbD_setWidth, BitVec.getLsbD_extractLsb',
    immI_getLsbD w (by omega)]

/- Bits of the function code make the amount too large. -/
theorem immI_large
    (w : BitVec 32)
    {j : Nat}
    (hLo : 6 ≤ j)
    (hHi : j < 12)
    (h : w.getLsbD (20 + j) = true) :
    64 ≤ (immI w).toNat := by
  rw [← immI_getLsbD w hHi] at h
  have hPow : 2 ^ j ≤ (immI w).toNat :=
    Nat.ge_two_pow_of_testBit h
  have hBase : 2 ^ 6 ≤ 2 ^ j :=
    Nat.pow_le_pow_right (by decide) hLo
  omega

/- No immediate function was registered with them. -/
theorem registrations_default :
    ∀ r ∈ registrations, r.func ∈ zbImmOps →
      r.immDecodeFunc.isNone = true := by
  decide +kernel

/- All immediate forms are decoded alike. -/
theorem immDecodeFunc_default
    {e : Instruction}
    (hMem : e ∈ allInstrs)
    (hOp : e.func ∈ zbImmOps) :
    e.immDecodeFunc = immI := by
  unfold allInstrs at hMem
  rcases List.mem_map.mp hMem with ⟨r, hReg, rfl⟩
  have hNone := registrations_default r hReg hOp
  rw [Option.isNone_iff_eq_none] at hNone
  change r.immDecodeFunc.getD immI = immI
  rw [hNone]
  rfl

/- Bits that the function code sets. -/
theorem allInstrs_functionBits :
    ∀ e ∈ allInstrs,
      (e.func = .SLLI_UW →
        e.mask.getLsbD 27 = true ∧
          e.matchBits.getLsbD 27 = true) ∧
      (e.func = .RORI ∨ e.func = .RORIW →
        e.mask.getLsbD 29 = true ∧
          e.matchBits.getLsbD 29 = true) := by
  decide +kernel

/- What a selected entry says about word and operands. -/
structure Selects
    (pc : BitVec 64)
    (w : BitVec 32)
    (e : Instruction) : Prop where
  mem : e ∈ allInstrs
  fits : Matches w e
  data : (decodeEntry decoder pc w).data =
    operandData w (e.immDecodeFunc w)

/- An entry that is decoded is selected. -/
theorem selects_of_selected
    {pc : BitVec 64}
    {w : BitVec 32}
    {e : Instruction}
    (h : (decodeEntry decoder pc w).selected = some e) :
    Selects pc w e := by
  have hSpec := selected_spec pc w
  rw [h] at hSpec
  have hData := decodeEntry_eq_of_selected decoder pc w
  rw [h] at hData
  cases hSpec with
  | entry hAt =>
      constructor
      · exact List.mem_of_getElem? hAt.get
      · exact hAt.holds.2
      · rw [hData]
        rfl

/- A matched word has the fixed bits. -/
theorem bit_of_matches
    {w : BitVec 32}
    {e : Instruction}
    {j : Nat}
    (h : Matches w e)
    (hBit : e.matchBits.getLsbD j = true) :
    w.getLsbD j = true := by
  unfold Matches at h
  rw [← h, BitVec.getLsbD_and, Bool.and_eq_true] at hBit
  exact hBit.1

end RiscvEm

------------------------------------------------------------
-- Correctness
------------------------------------------------------------

namespace RiscvEm

variable {σ : Type}

/-
  The instructions that shift in range: those with the shift
  amount in the immediate have to mask it, and rotations of
  double words by zero shift by the width.
-/
def Zb.ShiftsInRange
    (b : BitVec 64) : Zb → Prop
  | .SLLI_UW | .RORI | .RORIW => False
  | .ROL | .ROR => (b.setWidth 6).toNat ≠ 0
  | _ => True

theorem setGpr_of_eq
    {s : State σ}
    {r : BitVec 5}
    {v v' : BitVec 64}
    (h : v = v') :
    (Except.ok (ExecReturn.next 4, s.setGpr r v) :
        Except HostFault (ExecReturn × State σ)) =
      .ok (.next 4, s.setGpr r v') := by
  rw [h]

/- Where the shifts are in range, the results are right. -/
theorem Zb.exec_result
    (P : Platform σ)
    (d : InstructionData)
    (s : State σ)
    (i : Zb)
    (hRange : i.ShiftsInRange (s.gpr d.rs2)) :
    i.op.exec P d s =
      .ok (.next 4, s.setGpr d.rd
        (i.result (d.imm.setWidth 6) (s.gpr d.rs1)
          (s.gpr d.rs2))) := by
  cases i with
  | SLLI_UW => exact hRange.elim
  | RORI => exact hRange.elim
  | RORIW => exact hRange.elim
  | CLZ =>
      apply setGpr_of_eq
      exact (scanDown_clz (by decide) (by decide) _).trans
        (BitVec.setWidth_eq _)
  | CLZW =>
      apply setGpr_of_eq
      exact scanDown_clz (by decide) (by decide) _
  | CTZ =>
      apply setGpr_of_eq
      exact (scanUp_ctz _).trans (BitVec.setWidth_eq _)
  | CTZW =>
      apply setGpr_of_eq
      exact scanUp_ctz _
  | CPOP =>
      apply setGpr_of_eq
      exact (countBits_cpop _).trans (BitVec.setWidth_eq _)
  | CPOPW =>
      apply setGpr_of_eq
      exact countBits_cpop _
  | MAX =>
      apply setGpr_of_eq
      exact WordArith.max_signed_eq _ _
  | MAXU =>
      apply setGpr_of_eq
      exact WordArith.max_unsigned_eq _ _
  | MIN =>
      apply setGpr_of_eq
      exact WordArith.min_signed_eq _ _
  | MINU =>
      apply setGpr_of_eq
      exact WordArith.min_unsigned_eq _ _
  | ZEXT_H =>
      apply setGpr_of_eq
      exact zext_h_eq _
  | ROL =>
      apply setGpr_of_eq
      exact rol_eq _ _ hRange
  | ROLW =>
      apply setGpr_of_eq
      exact rolw_eq _ _
  | ROR =>
      apply setGpr_of_eq
      exact ror_eq _ _ hRange
  | RORW =>
      apply setGpr_of_eq
      exact rorw_eq _ _
  | ORC_B =>
      apply setGpr_of_eq
      exact orc_b_eq _
  | REV8 =>
      apply setGpr_of_eq
      exact rev8_eq _
  | BCLR =>
      apply setGpr_of_eq
      exact congrArg (_ &&& ~~~ ·) (bitAt_eq _)
  | BCLRI =>
      apply setGpr_of_eq
      exact congrArg (_ &&& ~~~ ·) (bitAt_eq _)
  | BEXT =>
      apply setGpr_of_eq
      exact bext_eq _ _
  | BEXTI =>
      apply setGpr_of_eq
      exact bext_eq _ _
  | BINV =>
      apply setGpr_of_eq
      exact congrArg (_ ^^^ ·) (bitAt_eq _)
  | BINVI =>
      apply setGpr_of_eq
      exact congrArg (_ ^^^ ·) (bitAt_eq _)
  | BSET =>
      apply setGpr_of_eq
      exact congrArg (_ ||| ·) (bitAt_eq _)
  | BSETI =>
      apply setGpr_of_eq
      exact congrArg (_ ||| ·) (bitAt_eq _)
  | _ => rfl

/- Only those instructions read the immediate. -/
theorem Zb.result_shamt
    {i : Zb}
    (h : i.op ∉ zbImmOps)
    (x y : BitVec 6)
    (a b : BitVec 64) :
    i.result x a b = i.result y a b := by
  cases i with
  | SLLI_UW => exact absurd (by decide) h
  | RORI => exact absurd (by decide) h
  | RORIW => exact absurd (by decide) h
  | BCLRI => exact absurd (by decide) h
  | BEXTI => exact absurd (by decide) h
  | BINVI => exact absurd (by decide) h
  | BSETI => exact absurd (by decide) h
  | _ => rfl

/- The shifts of a loop are in range. -/
theorem loopShifts_inRange
    {width : Nat}
    (h : width ≤ 64) :
    ∀ x ∈ Zb.loopShifts width, x.InRange := by
  intro x hx
  rcases List.mem_map.mp hx with ⟨i, hi, rfl⟩
  rw [List.mem_range] at hi
  change (BitVec.ofNat 64 i).toNat < width
  rw [BitVec.toNat_ofNat]
  omega

/- The shifts of a rotation are in range. -/
theorem rotateShifts_inRange
    {shamt : BitVec 64}
    {k : Nat}
    (hk : k ≤ 64)
    (hLe : shamt.toNat < k)
    (hPos : k - shamt.toNat < 64) :
    ∀ x ∈ Zb.rotateShifts (BitVec.ofNat 64 k) shamt,
      x.InRange := by
  have hSub := toNat_sub_amount shamt k (by omega) hLe.le
  intro x hx
  unfold Zb.rotateShifts at hx
  rw [List.mem_cons, List.mem_singleton] at hx
  rcases hx with rfl | rfl
  · change shamt.toNat < 64
    omega
  · change (BitVec.ofNat 64 k - shamt).toNat < 64
    rw [hSub]
    exact hPos

/- The shift to a single bit is in range. -/
theorem bitShift_inRange
    (b : BitVec 64) :
    ∀ x ∈ [(⟨64, b &&& 0x3F⟩ : Zb.HostShift)], x.InRange := by
  intro x hx
  rw [List.mem_singleton] at hx
  rw [hx]
  change (b &&& 0x3F).toNat < 64
  rw [toNat_and_mask]
  exact (b.setWidth 6).isLt

/- The shifts to the bytes are in range. -/
theorem byteShifts_inRange :
    ∀ x ∈ (List.range 8).map (fun i =>
      (⟨64, BitVec.ofNat 64 (8 * i)⟩ : Zb.HostShift)),
      x.InRange := by
  intro x hx
  rcases List.mem_map.mp hx with ⟨i, hi, rfl⟩
  rw [List.mem_range] at hi
  change (BitVec.ofNat 64 (8 * i)).toNat < 64
  rw [BitVec.toNat_ofNat]
  omega

/- A shift by a small constant is in range. -/
theorem constantShift_inRange
    {k : BitVec 64}
    (h : k.toNat < 64) :
    ∀ x ∈ [(⟨64, k⟩ : Zb.HostShift)], x.InRange := by
  intro x hx
  rw [List.mem_singleton] at hx
  rw [hx]
  exact h

/- All shifts of an instruction are, if its table says so. -/
theorem Zb.shifts_inRange
    {i : Zb}
    {b : BitVec 64}
    (h : i.ShiftsInRange b)
    (imm : BitVec 64) :
    ∀ x ∈ i.shifts b imm, x.InRange := by
  have hLow := (b.setWidth 5).isLt
  have hLow' := (b.setWidth 6).isLt
  cases i with
  | SLLI_UW => exact h.elim
  | RORI => exact h.elim
  | RORIW => exact h.elim
  | SH1ADD => exact constantShift_inRange (by decide)
  | SH1ADD_UW => exact constantShift_inRange (by decide)
  | SH2ADD => exact constantShift_inRange (by decide)
  | SH2ADD_UW => exact constantShift_inRange (by decide)
  | SH3ADD => exact constantShift_inRange (by decide)
  | SH3ADD_UW => exact constantShift_inRange (by decide)
  | CLZ => exact loopShifts_inRange (by decide)
  | CTZ => exact loopShifts_inRange (by decide)
  | CPOP => exact loopShifts_inRange (by decide)
  | CLZW => exact loopShifts_inRange (by decide)
  | CTZW => exact loopShifts_inRange (by decide)
  | CPOPW => exact loopShifts_inRange (by decide)
  | ROL =>
      have hNe : (b.setWidth 6).toNat ≠ 0 := h
      apply rotateShifts_inRange (k := 64) (by decide)
      · rw [toNat_and_mask]
        exact hLow'
      · rw [toNat_and_mask]
        omega
  | ROR =>
      have hNe : (b.setWidth 6).toNat ≠ 0 := h
      apply rotateShifts_inRange (k := 64) (by decide)
      · rw [toNat_and_mask]
        exact hLow'
      · rw [toNat_and_mask]
        omega
  | ROLW =>
      apply rotateShifts_inRange (k := 32) (by decide)
      · rw [toNat_and_maskW]
        exact hLow
      · rw [toNat_and_maskW]
        omega
  | RORW =>
      apply rotateShifts_inRange (k := 32) (by decide)
      · rw [toNat_and_maskW]
        exact hLow
      · rw [toNat_and_maskW]
        omega
  | ORC_B => exact byteShifts_inRange
  | REV8 => exact byteShifts_inRange
  | BCLR => exact bitShift_inRange b
  | BEXT => exact bitShift_inRange b
  | BINV => exact bitShift_inRange b
  | BSET => exact bitShift_inRange b
  | BCLRI => exact bitShift_inRange imm
  | BEXTI => exact bitShift_inRange imm
  | BINVI => exact bitShift_inRange imm
  | BSETI => exact bitShift_inRange imm
  | _ =>
      intro x hx
      cases hx

/- Where an amount is too large, a shift shows it. -/
theorem Zb.shifts_outOfRange
    {i : Zb}
    {b imm : BitVec 64}
    (h : ¬ i.ShiftsInRange b)
    (hImm : i.op = .SLLI_UW ∨ i.op = .RORI ∨ i.op = .RORIW →
      64 ≤ imm.toNat) :
    ∃ x ∈ i.shifts b imm, ¬ x.InRange := by
  have hLarge (hLe : 64 ≤ imm.toNat) :
      ¬ (⟨64, imm⟩ : HostShift).InRange :=
    not_lt.mpr hLe
  have hZero (h : ¬ (b.setWidth 6).toNat ≠ 0) :
      ¬ (⟨64, 64 - (b &&& 0x3F)⟩ : HostShift).InRange := by
    have hAmount : b &&& 0x3F = 0 := by
      apply BitVec.eq_of_toNat_eq
      rw [toNat_and_mask]
      exact not_not.mp h
    have hWidth : 64 ≤ ((64 : BitVec 64) - 0).toNat := by
      decide
    rw [hAmount]
    exact not_lt.mpr hWidth
  cases i with
  | SLLI_UW =>
      exact ⟨_, List.mem_singleton.mpr rfl,
        hLarge (hImm (Or.inl rfl))⟩
  | RORI =>
      exact ⟨_, List.mem_cons_self,
        hLarge (hImm (Or.inr (Or.inl rfl)))⟩
  | RORIW =>
      exact ⟨_, List.mem_cons_self,
        hLarge (hImm (Or.inr (Or.inr rfl)))⟩
  | ROL =>
      exact ⟨_, List.mem_cons_of_mem _
        (List.mem_singleton.mpr rfl), hZero h⟩
  | ROR =>
      exact ⟨_, List.mem_cons_of_mem _
        (List.mem_singleton.mpr rfl), hZero h⟩
  | _ => exact absurd trivial h

/- The immediate of the shifts that do not mask it. -/
theorem Selects.imm_large
    {pc : BitVec 64}
    {w : BitVec 32}
    {e : Instruction}
    (h : Selects pc w e)
    (hOp : e.func = .SLLI_UW ∨ e.func = .RORI ∨
      e.func = .RORIW) :
    64 ≤ (decodeEntry decoder pc w).data.imm.toNat := by
  have hBits := allInstrs_functionBits e h.mem
  have hImm : e.immDecodeFunc = immI := by
    apply immDecodeFunc_default h.mem
    rcases hOp with hOp | hOp | hOp
    · rw [hOp]
      decide
    · rw [hOp]
      decide
    · rw [hOp]
      decide
  rw [h.data, hImm]
  change 64 ≤ (immI w).toNat
  rcases hOp with hOp | hOp
  · exact immI_large w (j := 7) (by decide) (by decide)
      (bit_of_matches h.fits (hBits.1 hOp).2)
  · exact immI_large w (j := 9) (by decide) (by decide)
      (bit_of_matches h.fits (hBits.2 hOp).2)

/- The result does not depend on how the amount is decoded. -/
theorem Selects.result_eq
    {pc : BitVec 64}
    {w : BitVec 32}
    {e : Instruction}
    (h : Selects pc w e)
    {i : Zb}
    (hOp : e.func = i.op)
    (a b : BitVec 64) :
    i.result ((decodeEntry decoder pc w).data.imm.setWidth 6)
        a b =
      i.result (shamtField w) a b := by
  by_cases hUses : i.op ∈ zbImmOps
  · have hImm : e.immDecodeFunc = immI :=
      immDecodeFunc_default h.mem (hOp ▸ hUses)
    rw [h.data, hImm]
    change i.result ((immI w).setWidth 6) a b = _
    rw [immI_shamt]
  · exact Zb.result_shamt hUses _ _ a b

/-
  Whatever word was decoded to an instruction of the three
  extensions, the body shifts in range and writes the result
  exactly if it is none of those with an unmasked immediate
  and no rotation of a double word by zero.
-/
theorem bitmanip_ok_iff
    (P : Platform σ)
    (pc : BitVec 64)
    (w : BitVec 32)
    (s : State σ)
    (i : Zb)
    (e : Instruction)
    (hSelected : (decodeEntry decoder pc w).selected = some e)
    (hOp : e.func = i.op) :
    BitmanipOk P pc w s i ↔
      i.ShiftsInRange (s.gpr (dRs2 w)) := by
  have hSel := selects_of_selected hSelected
  constructor
  · intro h
    by_contra hNot
    rcases Zb.shifts_outOfRange hNot
      (fun hShift => hSel.imm_large (hOp ▸ hShift)) with
      ⟨x, hx, hOut⟩
    exact hOut (h.shifts x hx)
  · intro hRange
    constructor
    · exact Zb.shifts_inRange hRange _
    · have hData : (decodeEntry decoder pc w).data =
          operandData w (e.immDecodeFunc w) := hSel.data
      have hRs2 : (decodeEntry decoder pc w).data.rs2 =
          dRs2 w := by
        rw [hData]
        rfl
      have hRs1 : (decodeEntry decoder pc w).data.rs1 =
          dRs1 w := by
        rw [hData]
        rfl
      have hRd : (decodeEntry decoder pc w).data.rd =
          dRd w := by
        rw [hData]
        rfl
      rw [Zb.exec_result P _ s i (hRs2 ▸ hRange),
        hSel.result_eq hOp, hRs1, hRs2, hRd]

end RiscvEm

------------------------------------------------------------
-- Two Words
------------------------------------------------------------

namespace RiscvEm

/- The best match is what is decoded. -/
theorem selected_of_func
    (pc : BitVec 64)
    {w : BitVec 32}
    {op : Op}
    (h : (bestMatch w).map Instruction.func = some op) :
    ∃ e, (decodeEntry decoder pc w).selected = some e ∧
      e.func = op := by
  rw [selected_eq_bestMatch]
  exact Option.map_eq_some_iff.mp h

/- `bseti a0, a1, 5`. -/
theorem bseti_ok :
    BitmanipOk Platform.bare 0x80000000 0x28559513
      (State.boot []) .BSETI := by
  have hFunc : (bestMatch 0x28559513).map Instruction.func =
      some .BSETI := by
    decide +kernel
  rcases selected_of_func 0x80000000 hFunc with
    ⟨e, hSelected, hOp⟩
  exact (bitmanip_ok_iff Platform.bare 0x80000000 0x28559513
    (State.boot []) .BSETI e hSelected hOp).mpr trivial

/- Whatever the amount is, it is not masked. -/
theorem roriw_outOfRange
    {σ : Type}
    {P : Platform σ}
    {pc : BitVec 64}
    {w : BitVec 32}
    {s : State σ}
    {e : Instruction}
    (hSelected : (decodeEntry decoder pc w).selected = some e)
    (hOp : e.func = .RORIW) :
    ¬ BitmanipOk P pc w s .RORIW := by
  intro h
  have hLarge := (selects_of_selected hSelected).imm_large
    (Or.inr (Or.inr hOp))
  exact not_lt.mpr hLarge (h.shifts _ List.mem_cons_self)

/- `roriw a0, a1, 1` shifts by 1537. -/
theorem roriw_not_ok :
    (∃ e, (decodeEntry decoder 0x80000000
          0x6015D51B).selected = some e ∧
        e.func = .RORIW) ∧
      ¬ BitmanipOk Platform.bare 0x80000000 0x6015D51B
        (State.boot []) .RORIW := by
  have hFunc : (bestMatch 0x6015D51B).map Instruction.func =
      some .RORIW := by
    decide +kernel
  rcases selected_of_func 0x80000000 hFunc with
    ⟨e, hSelected, hOp⟩
  exact ⟨⟨e, hSelected, hOp⟩,
    roriw_outOfRange hSelected hOp⟩

end RiscvEm
