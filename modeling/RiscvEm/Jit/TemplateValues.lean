import RiscvEm.Jit.Encoded
import RiscvEm.Jit.Templates
import RiscvEm.Sets.Exec

/-
  What the templates compute: the code of an instruction
  leaves its result in the host register of `rd` and touches
  nothing else but `RCX` and the flags.

  Operands are in host registers here, `x0` is none of them.

  Key definitions include:
    * `Operand`
    * `RComputes`
    * `IComputes`

  Key theorems include:
    * `conversionTbl_r`
    * `conversionTbl_i`
    * `rValue_exec`
    * `iValue_exec`
-/

------------------------------------------------------------
-- Contracts
------------------------------------------------------------

namespace RiscvEm

open X86

/- A guest register other than `x0` in a host register. -/
structure Operand
    (v : VReg)
    (r : Reg) : Prop where
  host : v.hostReg = hostByte r
  scratch : r ≠ 1
  named : v.vreg ≠ 0
  isZero : v.isZero = false

/-
  The code computes `f` of its operands. Equal guest
  registers are in one host register.
-/
structure RComputes
    (emitOp : ROp)
    (f : BitVec 64 → BitVec 64 → BitVec 64) : Prop where
  sets : ∀ {M : Type} (E : Env M) (m : X86.Machine M)
    {rd rs1 rs2 : VReg} {d a b : Reg},
    Operand rd d → Operand rs1 a → Operand rs2 b →
      (rd.vreg = rs1.vreg ↔ d = a) →
        (rd.vreg = rs2.vreg ↔ d = b) →
          Sets E (emitOp rd rs1 rs2) d
            (f (m.regs a) (m.regs b)) m

structure IComputes
    (emitOp : IOp)
    (f : BitVec 64 → BitVec 64 → BitVec 64) : Prop where
  sets : ∀ {M : Type} (E : Env M) (m : X86.Machine M)
    {rd rs1 : VReg} {d a : Reg} (imm : BitVec 64),
    Operand rd d → Operand rs1 a →
      (rd.vreg = rs1.vreg ↔ d = a) →
        Sets E (emitOp rd rs1 imm) d (f (m.regs a) imm) m

/- A template computes any function that is the same. -/
theorem RComputes.of_eq
    {emitOp : ROp}
    {f g : BitVec 64 → BitVec 64 → BitVec 64}
    (h : RComputes emitOp f)
    (hEq : ∀ x y, f x y = g x y) :
    RComputes emitOp g := by
  have hFun : f = g := funext fun x => funext (hEq x)
  rw [← hFun]
  exact h

theorem IComputes.of_eq
    {emitOp : IOp}
    {f g : BitVec 64 → BitVec 64 → BitVec 64}
    (h : IComputes emitOp f)
    (hEq : ∀ x y, f x y = g x y) :
    IComputes emitOp g := by
  have hFun : f = g := funext fun x => funext (hEq x)
  rw [← hFun]
  exact h

end RiscvEm

------------------------------------------------------------
-- Register-Register Templates
------------------------------------------------------------

namespace RiscvEm

open X86

variable {op : BitVec 8 → BitVec 8 → Code}
variable {f : BitVec 64 → BitVec 64 → BitVec 64}

/- The destination is copied first; the source is apart. -/
theorem ActsInPlace.afterMov
    (hOp : ActsInPlace op f)
    {M : Type}
    {E : Env M}
    (m : X86.Machine M)
    {d a b : Reg}
    (hd : d ≠ 1)
    (hb : b ≠ d) :
    Sets E
      (mov (hostByte d) (hostByte a) ++
        op (hostByte d) (hostByte b))
      d (f (m.regs a) (m.regs b)) m := by
  have hSets := hOp E (m.setReg d (m.regs a)) d b hd
  rw [Machine.setReg_self, Machine.setReg_of_ne hb] at hSets
  exact hSets.after (runs_mov m d a) (.setReg m d _)

/- The source is kept in `RCX`. -/
theorem Sets.afterRcx
    {M : Type}
    {E : Env M}
    {m : X86.Machine M}
    {code : Code}
    {d a b : Reg}
    (h : Sets E code d
      (f ((m.setReg 1 (m.regs b)).regs a)
        ((m.setReg 1 (m.regs b)).regs 1))
      (m.setReg 1 (m.regs b)))
    (ha : a ≠ 1) :
    Sets E (mov REG_RCX (hostByte b) ++ code) d
      (f (m.regs a) (m.regs b)) m := by
  rw [Machine.setReg_self, Machine.setReg_of_ne ha] at h
  exact h.after (runs_mov m 1 b) (.setRcx m d _)

/- An addition may be done in either operand's place. -/
theorem RComputes.add
    (hOp : ActsInPlace op f)
    (hComm : ∀ x y, f x y = f y x) :
    RComputes (addOp op) f := by
  constructor
  intro M E m rd rs1 rs2 d a b hRd hRs1 hRs2 hFirst hSecond
  simp only [addOp, hRd.host, hRs1.host, hRs2.host, ne_eq,
    hFirst, hSecond]
  by_cases hA : d = a
  · subst hA
    rw [if_neg (fun h => h.1 rfl), if_pos rfl]
    exact hOp E m d b hRd.scratch
  · by_cases hB : d = b
    · subst hB
      rw [if_neg (fun h => h.2 rfl), if_neg hA, hComm]
      exact hOp E m d a hRd.scratch
    · rw [if_pos ⟨hA, hB⟩]
      exact hOp.afterMov m hRd.scratch (Ne.symm hB)

/- A subtraction is done in the place of the first. -/
theorem RComputes.sub
    (hOp : ActsInPlace op f) :
    RComputes (subOp op) f := by
  constructor
  intro M E m rd rs1 rs2 d a b hRd hRs1 hRs2 hFirst hSecond
  simp only [subOp, hRd.host, hRs1.host, hRs2.host, ne_eq,
    hFirst, hSecond]
  by_cases hA : d = a
  · subst hA
    rw [if_neg (fun h => h.1 rfl), if_pos rfl]
    exact hOp E m d b hRd.scratch
  · by_cases hB : d = b
    · rw [if_neg (fun h => h.2 hB), if_neg hA,
        List.append_assoc]
      exact Sets.afterRcx (hOp.afterMov (b := 1) _ hRd.scratch
        hRd.scratch.symm) hRs1.scratch
    · rw [if_pos ⟨hA, hB⟩]
      exact hOp.afterMov m hRd.scratch (Ne.symm hB)

/- Any other operation moves the first operand. -/
theorem RComputes.binary
    (hOp : ActsInPlace op f) :
    RComputes (binaryOp op) f := by
  constructor
  intro M E m rd rs1 rs2 d a b hRd hRs1 hRs2 hFirst hSecond
  simp only [binaryOp, hRd.host, hRs1.host, hRs2.host, ne_eq,
    hFirst, hSecond]
  by_cases hB : d = b
  · rw [if_pos hB, List.append_assoc]
    by_cases hA : d = a
    · subst hA
      rw [if_neg (not_not_intro rfl), List.nil_append]
      exact Sets.afterRcx (hOp _ _ d 1 hRd.scratch) hRd.scratch
    · rw [if_pos hA]
      exact Sets.afterRcx (hOp.afterMov (b := 1) _ hRd.scratch
        hRd.scratch.symm) hRs1.scratch
  · rw [if_neg hB]
    by_cases hA : d = a
    · subst hA
      rw [if_neg (not_not_intro rfl), List.nil_append]
      exact hOp E m d b hRd.scratch
    · rw [if_pos hA]
      exact hOp.afterMov m hRd.scratch (Ne.symm hB)

/- The narrow form extends the sign of the result. -/
theorem RComputes.wide
    {emitOp : ROp}
    (h : RComputes emitOp f) :
    RComputes (wideR emitOp) (fun x y => sextW (f x y)) := by
  constructor
  intro M E m rd rs1 rs2 d a b hRd hRs1 hRs2 hFirst hSecond
  have hSets :=
    (h.sets E m hRd hRs1 hRs2 hFirst hSecond).movsxd
  unfold wideR
  rw [hRd.host]
  exact hSets

/- A comparison sets a byte from the flags. -/
theorem RComputes.slt
    {set : BitVec 8 → Code}
    {c : Cond}
    (hSet : ∀ d, decode (set (hostByte d)) =
      some (.setcc c d, [])) :
    RComputes (sltOp set) (fun x y =>
      if c.holds (subFlags x y) then 1 else 0) := by
  constructor
  intro M E m rd rs1 rs2 d a b hRd hRs1 hRs2 hFirst hSecond
  simp only [sltOp, hRd.host, hRs1.host, hRs2.host,
    hRs1.named, hRs2.named, if_false, List.nil_append]
  exact sets_compare hSet m d a b

end RiscvEm

------------------------------------------------------------
-- Register-Immediate Templates
------------------------------------------------------------

namespace RiscvEm

open X86

variable {op : BitVec 8 → BitVec 64 → Code}
variable {f : BitVec 64 → BitVec 64 → BitVec 64}

/- An operation with an immediate computes its value. -/
theorem IComputes.imm
    (hOp : ActsInPlaceImm op f) :
    IComputes (immOp op) f := by
  constructor
  intro M E m rd rs1 d a imm hRd hRs1 hFirst
  simp only [immOp, hRd.host, hRs1.host, ne_eq, hFirst]
  by_cases hA : d = a
  · subst hA
    rw [if_neg (not_not_intro rfl), List.nil_append]
    exact hOp E m d imm
  · rw [if_pos hA]
    have hSets := hOp E (m.setReg d (m.regs a)) d imm
    rw [Machine.setReg_self] at hSets
    exact hSets.after (runs_mov m d a) (.setReg m d _)

/- Its narrow form computes the narrow value. -/
theorem IComputes.wide
    {emitOp : IOp}
    (h : IComputes emitOp f) :
    IComputes (wideI emitOp) (fun x y => sextW (f x y)) := by
  constructor
  intro M E m rd rs1 d a imm hRd hRs1 hFirst
  have hSets := (h.sets E m imm hRd hRs1 hFirst).movsxd
  unfold wideI
  rw [hRd.host]
  exact hSets

/- A comparison with an immediate computes its bit. -/
theorem IComputes.slti
    {set : BitVec 8 → Code}
    {c : Cond}
    (hSet : ∀ d, decode (set (hostByte d)) =
      some (.setcc c d, [])) :
    IComputes (sltiOp set) (fun x imm =>
      if c.holds (subFlags x imm) then 1 else 0) := by
  constructor
  intro M E m rd rs1 d a imm hRd hRs1 hFirst
  simp only [sltiOp, hRd.host, hRs1.host, hRs1.named, if_false,
    List.nil_append, List.append_assoc]
  have hMov : E.Runs (movImm64 REG_RCX imm) m
      (m.setReg 1 imm) :=
    .instr (decode_movImm64_rcx imm) rfl
  have hSets := sets_compare (E := E) hSet (m.setReg 1 imm) d a
    1
  rw [Machine.setReg_self, Machine.setReg_of_ne hRs1.scratch,
    List.append_assoc] at hSets
  exact hSets.after hMov (.setRcx m d _)

/- `ANDI` with zero is a shortcut. -/
theorem IComputes.andi :
    IComputes
      (fun rd rs1 imm =>
        if rs1.isZero || imm = 0 then
          xorRr rd.hostReg rd.hostReg
        else
          immOp (imm32Op andRimm32) rd rs1 imm)
      (fun x imm =>
        x &&& (imm.setWidth 32).signExtend 64) := by
  constructor
  intro M E m rd rs1 d a imm hRd hRs1 hFirst
  simp only [hRs1.isZero, Bool.false_or, decide_eq_true_eq]
  by_cases hZero : imm = 0
  · rw [if_pos hZero, hRd.host, hZero]
    have hAnd : m.regs a &&&
        ((0 : BitVec 64).setWidth 32).signExtend 64 = 0 :=
      BitVec.and_zero
    rw [hAnd]
    exact sets_xor_self m d
  · rw [if_neg hZero]
    have hAct : ActsInPlaceImm (imm32Op andRimm32)
        (fun x imm => x &&& (imm.setWidth 32).signExtend 64) :=
      ActsInPlaceImm.alu (f := 4) (a := .and) rfl true
    exact (IComputes.imm @hAct).sets E m imm hRd hRs1 hFirst

end RiscvEm

------------------------------------------------------------
-- Shift Counts And Halves
------------------------------------------------------------

namespace RiscvEm

open X86

/- The function of the host that a shift corresponds to. -/
def shiftFun
    (op : Shift)
    {w : Nat}
    (x : BitVec w)
    (n : BitVec 64) : BitVec w :=
  match op with
  | .shl => shl x n
  | .shr => shr x n
  | .sar => sar x n

/- Counts that agree modulo the width shift alike. -/
theorem shift_eval
    (op : Shift)
    {w : Nat}
    (x : BitVec w)
    {c : BitVec 8}
    {n : BitVec 64}
    (h : c.toNat % w = n.toNat % w) :
    op.eval x c = shiftFun op x n := by
  cases op <;> simp [Shift.eval, shiftFun, shl, shr, sar, h]

/- A mask of low bits is a remainder. -/
theorem toNat_mask
    (y : BitVec 64)
    (k : Nat)
    (hk : k < 64) :
    (y &&& BitVec.ofNat 64 (2 ^ k - 1)).toNat =
      y.toNat % 2 ^ k := by
  have hPow : 2 ^ k < 2 ^ 64 :=
    Nat.pow_lt_pow_right (by decide) hk
  rw [BitVec.toNat_and, BitVec.toNat_ofNat,
    Nat.mod_eq_of_lt (Nat.lt_of_le_of_lt (Nat.sub_le _ _) hPow),
    Nat.and_two_pow_sub_one_eq_mod]

/- The count in `CL` and the masked count. -/
theorem count_of_cl
    (y : BitVec 64) :
    (y.setWidth 8).toNat % 64 = (y &&& 0x3F).toNat % 64 ∧
      (y.setWidth 8).toNat % 32 = (y &&& 0x1F).toNat % 32 := by
  have hWide := toNat_mask y 6 (by decide)
  have hNarrow := toNat_mask y 5 (by decide)
  have hSix : BitVec.ofNat 64 (2 ^ 6 - 1) = 0x3F := rfl
  have hFive : BitVec.ofNat 64 (2 ^ 5 - 1) = 0x1F := rfl
  rw [hSix] at hWide
  rw [hFive] at hNarrow
  rw [hWide, hNarrow, BitVec.toNat_setWidth]
  omega

/- The immediate count fits a byte. -/
theorem count_of_imm
    (y : BitVec 64) :
    ((y &&& 0x3F).setWidth 8).toNat = (y &&& 0x3F).toNat ∧
      ((y &&& 0x1F).setWidth 8).toNat =
        (y &&& 0x1F).toNat := by
  have hWide := toNat_mask y 6 (by decide)
  have hNarrow := toNat_mask y 5 (by decide)
  have hSix : BitVec.ofNat 64 (2 ^ 6 - 1) = 0x3F := rfl
  have hFive : BitVec.ofNat 64 (2 ^ 5 - 1) = 0x1F := rfl
  rw [hSix] at hWide
  rw [hFive] at hNarrow
  rw [BitVec.toNat_setWidth, BitVec.toNat_setWidth, hWide,
    hNarrow]
  omega

/-
  Cutting and extending a word with zeros in its upper half.
-/
theorem sextW_zext
    (x : BitVec 32) :
    sextW (x.setWidth 64) = x.signExtend 64 := by
  unfold sextW
  rw [BitVec.setWidth_setWidth_of_le x (by decide),
    BitVec.setWidth_eq]

end RiscvEm

------------------------------------------------------------
-- The Table
------------------------------------------------------------

namespace RiscvEm

open X86

/- What a register-register instruction computes. -/
def rValue : Op → Option (BitVec 64 → BitVec 64 → BitVec 64)
  | .ADD => some fun a b => a + b
  | .ADDW => some fun a b => sextW (a + b)
  | .SUB => some fun a b => a - b
  | .SUBW => some fun a b => sextW (a - b)
  | .XOR => some fun a b => a ^^^ b
  | .OR => some fun a b => a ||| b
  | .AND => some fun a b => a &&& b
  | .SLL => some fun a b => shl a (b &&& 0x3F)
  | .SLLW => some fun a b =>
      (shl (a.setWidth 32) (b &&& 0x1F)).signExtend 64
  | .SRL => some fun a b => shr a (b &&& 0x3F)
  | .SRLW => some fun a b =>
      (shr (a.setWidth 32) (b &&& 0x1F)).signExtend 64
  | .SRA => some fun a b => sar a (b &&& 0x3F)
  | .SRAW => some fun a b =>
      (sar (a.setWidth 32) (b &&& 0x1F)).signExtend 64
  | .SLT => some fun a b => ofCond (a.slt b = true)
  | .SLTU => some fun a b => ofCond (a < b)
  | _ => none

/- The immediate as the encoders take it. -/
def imm32
    (imm : BitVec 64) : BitVec 64 :=
  (imm.setWidth 32).signExtend 64

/-
  What a register-immediate instruction computes, and if the
  frame has a shortcut for zero.
-/
def iValue :
    Op → Option (Bool × (BitVec 64 → BitVec 64 → BitVec 64))
  | .ADDI => some (true, fun a imm => a + imm32 imm)
  | .ADDIW => some (true, fun a imm => sextW (a + imm32 imm))
  | .XORI => some (true, fun a imm => a ^^^ imm32 imm)
  | .ORI => some (true, fun a imm => a ||| imm32 imm)
  | .ANDI => some (false, fun a imm => a &&& imm32 imm)
  | .SLLI => some (true, fun a imm => shl a (imm &&& 0x3F))
  | .SLLIW => some (true, fun a imm =>
      (shl (a.setWidth 32) (imm &&& 0x1F)).signExtend 64)
  | .SRLI => some (true, fun a imm => shr a (imm &&& 0x3F))
  | .SRLIW => some (true, fun a imm =>
      (shr (a.setWidth 32) (imm &&& 0x1F)).signExtend 64)
  | .SRAI => some (true, fun a imm => sar a (imm &&& 0x3F))
  | .SRAIW => some (true, fun a imm =>
      (sar (a.setWidth 32) (imm &&& 0x1F)).signExtend 64)
  | .SLTI => some (false, fun a imm =>
      ofCond (a.slt imm = true))
  | .SLTIU => some (false, fun a imm => ofCond (a < imm))
  | _ => none

/- Shifts by a register compute theirs, wide and narrow. -/
theorem rComputes_shift
    (op : Shift)
    {f : BitVec 3}
    (hField : shiftOfField f = some op) :
    RComputes (binaryOp (shiftRc true (f.setWidth 8)))
        (fun a b => shiftFun op a (b &&& 0x3F)) ∧
      RComputes (wideR (binaryOp (shiftRc false
          (f.setWidth 8))))
        (fun a b => (shiftFun op (a.setWidth 32)
          (b &&& 0x1F)).signExtend 64) := by
  have hWide : ActsInPlace (shiftRc true (f.setWidth 8))
      (fun x y => op.apply true x (y.setWidth 8)) :=
    ActsInPlace.shiftCl hField true
  have hNarrow : ActsInPlace (shiftRc false (f.setWidth 8))
      (fun x y => op.apply false x (y.setWidth 8)) :=
    ActsInPlace.shiftCl hField false
  constructor
  · refine (RComputes.binary @hWide).of_eq ?_
    intro a b
    exact shift_eval op a (count_of_cl b).1
  · refine (RComputes.binary @hNarrow).wide.of_eq ?_
    intro a b
    rw [← shift_eval op (a.setWidth 32) (count_of_cl b).2,
      ← sextW_zext]
    rfl

/- Shifts by an immediate do, wide and narrow. -/
theorem iComputes_shift
    (op : Shift)
    {f : BitVec 3}
    (hField : shiftOfField f = some op) :
    IComputes (immOp (shamtOp (shiftImm8 true
          (f.setWidth 8)) 0x3F))
        (fun a imm => shiftFun op a (imm &&& 0x3F)) ∧
      IComputes (wideI (immOp (shamtOp (shiftImm8 false
          (f.setWidth 8)) 0x1F)))
        (fun a imm => (shiftFun op (a.setWidth 32)
          (imm &&& 0x1F)).signExtend 64) := by
  have hWide : ActsInPlaceImm
      (shamtOp (shiftImm8 true (f.setWidth 8)) 0x3F)
      (fun x imm =>
        op.apply true x ((imm &&& 0x3F).setWidth 8)) :=
    ActsInPlaceImm.shift hField true 0x3F
  have hNarrow : ActsInPlaceImm
      (shamtOp (shiftImm8 false (f.setWidth 8)) 0x1F)
      (fun x imm =>
        op.apply false x ((imm &&& 0x1F).setWidth 8)) :=
    ActsInPlaceImm.shift hField false 0x1F
  constructor
  · refine (IComputes.imm @hWide).of_eq ?_
    intro a imm
    exact shift_eval op a
      (congrArg (· % 64) (count_of_imm imm).1)
  · refine (IComputes.imm @hNarrow).wide.of_eq ?_
    intro a imm
    rw [← shift_eval op (a.setWidth 32)
      (congrArg (· % 32) (count_of_imm imm).2), ← sextW_zext]
    rfl

/- The templates of `SLL` and `SLLW` compute their values. -/
theorem rComputes_shl :
    RComputes (binaryOp shlRc)
        (fun a b => shl a (b &&& 0x3F)) ∧
      RComputes (wideR (binaryOp shlRc32)) (fun a b =>
        (shl (a.setWidth 32) (b &&& 0x1F)).signExtend 64) :=
  rComputes_shift .shl (f := 4) rfl

/- The templates of `SRL` and `SRLW` do. -/
theorem rComputes_shr :
    RComputes (binaryOp shrRc)
        (fun a b => shr a (b &&& 0x3F)) ∧
      RComputes (wideR (binaryOp shrRc32)) (fun a b =>
        (shr (a.setWidth 32) (b &&& 0x1F)).signExtend 64) :=
  rComputes_shift .shr (f := 5) rfl

/- The templates of `SRA` and `SRAW` do. -/
theorem rComputes_sar :
    RComputes (binaryOp sarRc)
        (fun a b => sar a (b &&& 0x3F)) ∧
      RComputes (wideR (binaryOp sarRc32)) (fun a b =>
        (sar (a.setWidth 32) (b &&& 0x1F)).signExtend 64) :=
  rComputes_shift .sar (f := 7) rfl

/- The templates of `SLLI` and `SLLIW` do. -/
theorem iComputes_shl :
    IComputes (immOp (shamtOp shlRimm8 0x3F))
        (fun a imm => shl a (imm &&& 0x3F)) ∧
      IComputes (wideI (immOp (shamtOp shlR32imm8 0x1F)))
        (fun a imm => (shl (a.setWidth 32)
          (imm &&& 0x1F)).signExtend 64) :=
  iComputes_shift .shl (f := 4) rfl

/- The templates of `SRLI` and `SRLIW` do. -/
theorem iComputes_shr :
    IComputes (immOp (shamtOp shrRimm8 0x3F))
        (fun a imm => shr a (imm &&& 0x3F)) ∧
      IComputes (wideI (immOp (shamtOp shrR32imm8 0x1F)))
        (fun a imm => (shr (a.setWidth 32)
          (imm &&& 0x1F)).signExtend 64) :=
  iComputes_shift .shr (f := 5) rfl

/- The templates of `SRAI` and `SRAIW` do. -/
theorem iComputes_sar :
    IComputes (immOp (shamtOp sarRimm8 0x3F))
        (fun a imm => sar a (imm &&& 0x3F)) ∧
      IComputes (wideI (immOp (shamtOp sarR32imm8 0x1F)))
        (fun a imm => (sar (a.setWidth 32)
          (imm &&& 0x1F)).signExtend 64) :=
  iComputes_shift .sar (f := 7) rfl

/- Narrow sums and differences only need the lower halves. -/
theorem narrow_add
    (x y : BitVec 64) :
    sextW (Alu.add.apply false x y).1 = sextW (x + y) := by
  have hHalf : (Alu.add.apply false x y).1 =
      (x.setWidth 32 + y.setWidth 32).setWidth 64 := rfl
  rw [hHalf, sextW_zext, ← BitVec.setWidth_add x y (by decide)]
  rfl

/- The host subtracts narrow words as the guest does. -/
theorem narrow_sub
    (x y : BitVec 64) :
    sextW (Alu.sub.apply false x y).1 = sextW (x - y) := by
  have hHalf : (Alu.sub.apply false x y).1 =
      (x.setWidth 32 - y.setWidth 32).setWidth 64 := rfl
  have hSub : x.setWidth 32 - y.setWidth 32 =
      (x - y).setWidth 32 := by
    apply BitVec.eq_of_toNat_eq
    simp only [BitVec.toNat_sub, BitVec.toNat_setWidth]
    omega
  rw [hHalf, sextW_zext, hSub]
  rfl

/- The templates of `ADD` and `ADDW` compute their values. -/
theorem rComputes_add :
    RComputes (addOp addRr) (fun a b => a + b) ∧
      RComputes (wideR (addOp addRr32))
        (fun a b => sextW (a + b)) := by
  have hWide : ActsInPlace addRr (fun x y => x + y) :=
    ActsInPlace.alu (a := .add) (fun _ => rfl) true
  have hNarrow : ActsInPlace addRr32
      (fun x y => (Alu.add.apply false x y).1) :=
    ActsInPlace.alu (fun _ => rfl) false
  have hComm : ∀ x y, (Alu.add.apply false x y).1 =
      (Alu.add.apply false y x).1 := fun x y =>
    congrArg (BitVec.setWidth 64)
      (BitVec.add_comm (x.setWidth 32) (y.setWidth 32))
  exact ⟨.add @hWide BitVec.add_comm,
    (RComputes.add @hNarrow hComm).wide.of_eq narrow_add⟩

/- The templates of `SUB` and `SUBW` do. -/
theorem rComputes_sub :
    RComputes (subOp subRr) (fun a b => a - b) ∧
      RComputes (wideR (subOp subRr32))
        (fun a b => sextW (a - b)) := by
  have hWide : ActsInPlace subRr (fun x y => x - y) :=
    ActsInPlace.alu (a := .sub) (fun _ => rfl) true
  have hNarrow : ActsInPlace subRr32
      (fun x y => (Alu.sub.apply false x y).1) :=
    ActsInPlace.alu (fun _ => rfl) false
  exact ⟨.sub @hWide,
    (RComputes.sub @hNarrow).wide.of_eq narrow_sub⟩

/- The templates of `XOR`, `OR` and `AND` do. -/
theorem rComputes_logic :
    RComputes (binaryOp xorRr) (fun a b => a ^^^ b) ∧
      RComputes (binaryOp orRr) (fun a b => a ||| b) ∧
      RComputes (binaryOp andRr) (fun a b => a &&& b) := by
  have hXor : ActsInPlace xorRr (fun x y => x ^^^ y) :=
    ActsInPlace.alu (a := .xor) (fun _ => rfl) true
  have hOr : ActsInPlace orRr (fun x y => x ||| y) :=
    ActsInPlace.alu (a := .or) (fun _ => rfl) true
  have hAnd : ActsInPlace andRr (fun x y => x &&& y) :=
    ActsInPlace.alu (a := .and) (fun _ => rfl) true
  exact ⟨.binary @hXor, .binary @hOr, .binary @hAnd⟩

/- The shortcut of `AND` is for `x0`. -/
theorem rComputes_and :
    RComputes
      (fun rd rs1 rs2 =>
        if rs1.isZero || rs2.isZero then
          xorRr rd.hostReg rd.hostReg
        else
          binaryOp andRr rd rs1 rs2)
      (fun a b => a &&& b) := by
  constructor
  intro M E m rd rs1 rs2 d a b hRd hRs1 hRs2 hFirst hSecond
  simp only [hRs1.isZero, hRs2.isZero, Bool.or_self,
    Bool.false_eq_true, if_false]
  exact rComputes_logic.2.2.sets E m hRd hRs1 hRs2 hFirst
    hSecond

/- Instructions whose frame copies the other operand of `x0`. -/
def copiesOperand
    (op : Op) : Bool :=
  op ∉ [.AND, .SLT, .SLTU]

/- Instructions whose code clears `x0` before it compares. -/
def compares
    (op : Op) : Bool :=
  op ∈ [.SLT, .SLTU, .SLTI, .SLTIU]

/-
  The three frames of a register-register instruction: one
  that copies the other operand of `x0`, the one of `AND`,
  and the one of a comparison, which clears `x0` first.
-/
inductive RShape
    (slow : SlowFuncs)
    (op : Op)
    (f : BitVec 64 → BitVec 64 → BitVec 64) : Prop
  | copies {emitOp : ROp}
      (kind : copiesOperand op = true)
      (table : conversionTbl slow op =
        some (rTemplate true emitOp))
      (computes : RComputes emitOp f)
  | and (isAnd : op = .AND)
  | compares {set : BitVec 8 → Code} {c : Cond}
      (kind : compares op = true)
      (table : conversionTbl slow op =
        some (rTemplate false (sltOp set)))
      (decodes : ∀ d, decode (set (hostByte d)) =
        some (.setcc c d, []))
      (value : ∀ a b, f a b =
        if c.holds (subFlags a b) then 1 else 0)

/- The host's signed comparison. -/
theorem cond_slt
    (a b : BitVec 64) :
    ofCond (a.slt b = true) =
      if Cond.l.holds (subFlags a b) then 1 else 0 := by
  rw [Cond.holds_l]
  rfl

/- The unsigned condition is the unsigned comparison. -/
theorem cond_sltu
    (a b : BitVec 64) :
    ofCond (a < b) =
      if Cond.b.holds (subFlags a b) then 1 else 0 := by
  rw [Cond.holds_b]
  unfold ofCond
  simp only [decide_eq_true_eq]

/- These copy an operand next to `x0`. -/
theorem rShape_copies
    {op : Op}
    {f : BitVec 64 → BitVec 64 → BitVec 64}
    (h : rValue op = some f)
    (hCopies : copiesOperand op = true)
    (slow : SlowFuncs) :
    ∃ emitOp,
      conversionTbl slow op =
          some (rTemplate true emitOp) ∧
        RComputes emitOp f := by
  cases op <;> cases h
  case AND | SLT | SLTU => cases hCopies
  case ADD => exact ⟨_, rfl, rComputes_add.1⟩
  case ADDW => exact ⟨_, rfl, rComputes_add.2⟩
  case SUB => exact ⟨_, rfl, rComputes_sub.1⟩
  case SUBW => exact ⟨_, rfl, rComputes_sub.2⟩
  case XOR => exact ⟨_, rfl, rComputes_logic.1⟩
  case OR => exact ⟨_, rfl, rComputes_logic.2.1⟩
  case SLL => exact ⟨_, rfl, rComputes_shl.1⟩
  case SLLW => exact ⟨_, rfl, rComputes_shl.2⟩
  case SRL => exact ⟨_, rfl, rComputes_shr.1⟩
  case SRLW => exact ⟨_, rfl, rComputes_shr.2⟩
  case SRA => exact ⟨_, rfl, rComputes_sar.1⟩
  case SRAW => exact ⟨_, rfl, rComputes_sar.2⟩

/- What the table has for an operation of three registers. -/
theorem rShape
    {op : Op}
    {f : BitVec 64 → BitVec 64 → BitVec 64}
    (h : rValue op = some f)
    (slow : SlowFuncs) :
    RShape slow op f := by
  by_cases hCopies : copiesOperand op = true
  · rcases rShape_copies h hCopies slow with
      ⟨emitOp, hTable, hComputes⟩
    exact .copies hCopies hTable hComputes
  · simp only [copiesOperand, decide_not, Bool.not_eq_true',
      decide_eq_false_iff_not, not_not, List.mem_cons,
      List.not_mem_nil, or_false] at hCopies
    rcases hCopies with rfl | rfl | rfl
    · exact .and rfl
    · cases h
      exact .compares rfl rfl decode_setl cond_slt
    · cases h
      exact .compares rfl rfl decode_setb cond_sltu

/- All of them give zero for zeros. -/
theorem rValue_clears
    {op : Op}
    {f : BitVec 64 → BitVec 64 → BitVec 64}
    (h : rValue op = some f) :
    f 0 0 = 0 := by
  cases op <;> cases h <;> rfl

/- The table has a template for it that computes it. -/
theorem conversionTbl_r
    {op : Op}
    {f : BitVec 64 → BitVec 64 → BitVec 64}
    (h : rValue op = some f)
    (slow : SlowFuncs) :
    ∃ optimize emitOp,
      conversionTbl slow op =
          some (rTemplate optimize emitOp) ∧
        RComputes emitOp f := by
  cases rShape h slow with
  | copies _ hTable hComputes =>
      exact ⟨_, _, hTable, hComputes⟩
  | and hAnd =>
      subst hAnd
      cases h
      exact ⟨_, _, rfl, rComputes_and⟩
  | compares _ hTable hDecodes hValue =>
      exact ⟨_, _, hTable, (RComputes.slt hDecodes).of_eq
        fun a b => (hValue a b).symm⟩

/-
  The templates of `ADDI` and `ADDIW` compute their values.
-/
theorem iComputes_add :
    IComputes (immOp (imm32Op addRimm32))
        (fun a imm => a + imm32 imm) ∧
      IComputes (wideI (immOp (imm32Op addR32imm32)))
        (fun a imm => sextW (a + imm32 imm)) := by
  have hWide : ActsInPlaceImm (imm32Op addRimm32)
      (fun x imm => x + imm32 imm) :=
    ActsInPlaceImm.alu (f := 0) (a := .add) rfl true
  have hNarrow : ActsInPlaceImm (imm32Op addR32imm32)
      (fun x imm => (Alu.add.apply false x (imm32 imm)).1) :=
    ActsInPlaceImm.alu (f := 0) rfl false
  exact ⟨.imm @hWide, (IComputes.imm @hNarrow).wide.of_eq
    fun x imm => narrow_add x (imm32 imm)⟩

/- The templates of `XORI` and `ORI` do. -/
theorem iComputes_logic :
    IComputes (immOp (imm32Op xorRimm32))
        (fun a imm => a ^^^ imm32 imm) ∧
      IComputes (immOp (imm32Op orRimm32))
        (fun a imm => a ||| imm32 imm) := by
  have hXor : ActsInPlaceImm (imm32Op xorRimm32)
      (fun x imm => x ^^^ imm32 imm) :=
    ActsInPlaceImm.alu (f := 6) (a := .xor) rfl true
  have hOr : ActsInPlaceImm (imm32Op orRimm32)
      (fun x imm => x ||| imm32 imm) :=
    ActsInPlaceImm.alu (f := 1) (a := .or) rfl true
  exact ⟨.imm @hXor, .imm @hOr⟩

/- The templates of `SLTI` and `SLTIU` do. -/
theorem iComputes_slt :
    IComputes (sltiOp setl)
        (fun a imm => ofCond (a.slt imm = true)) ∧
      IComputes (sltiOp setb)
        (fun a imm => ofCond (a < imm)) :=
  ⟨(IComputes.slti decode_setl).of_eq fun a imm =>
      (cond_slt a imm).symm,
    (IComputes.slti decode_setb).of_eq fun a imm =>
      (cond_sltu a imm).symm⟩

/- The frames without a shortcut. -/
theorem iShape
    {op : Op}
    {f : BitVec 64 → BitVec 64 → BitVec 64}
    (h : iValue op = some (false, f))
    (slow : SlowFuncs) :
    op = .ANDI ∨ compares op = true ∧ ∃ set c,
      conversionTbl slow op =
          some (iTemplate false (sltiOp set)) ∧
        (∀ d, decode (set (hostByte d)) =
          some (.setcc c d, [])) ∧
        ∀ a imm, f a imm =
          if c.holds (subFlags a imm) then 1 else 0 := by
  cases op <;> cases h
  case ANDI => exact .inl rfl
  case SLTI =>
    exact .inr ⟨rfl, _, _, rfl, decode_setl, cond_slt⟩
  case SLTIU =>
    exact .inr ⟨rfl, _, _, rfl, decode_setb, cond_sltu⟩

/- The table has a template with the immediate. -/
theorem conversionTbl_i
    {op : Op}
    {optimize : Bool}
    {f : BitVec 64 → BitVec 64 → BitVec 64}
    (h : iValue op = some (optimize, f))
    (slow : SlowFuncs) :
    ∃ emitOp,
      conversionTbl slow op =
          some (iTemplate optimize emitOp) ∧
        IComputes emitOp f := by
  cases op <;> cases h
  case ADDI => exact ⟨_, rfl, iComputes_add.1⟩
  case ADDIW => exact ⟨_, rfl, iComputes_add.2⟩
  case XORI => exact ⟨_, rfl, iComputes_logic.1⟩
  case ORI => exact ⟨_, rfl, iComputes_logic.2⟩
  case ANDI => exact ⟨_, rfl, .andi⟩
  case SLLI => exact ⟨_, rfl, iComputes_shl.1⟩
  case SLLIW => exact ⟨_, rfl, iComputes_shl.2⟩
  case SRLI => exact ⟨_, rfl, iComputes_shr.1⟩
  case SRLIW => exact ⟨_, rfl, iComputes_shr.2⟩
  case SRAI => exact ⟨_, rfl, iComputes_sar.1⟩
  case SRAIW => exact ⟨_, rfl, iComputes_sar.2⟩
  case SLTI => exact ⟨_, rfl, iComputes_slt.1⟩
  case SLTIU => exact ⟨_, rfl, iComputes_slt.2⟩

end RiscvEm

------------------------------------------------------------
-- The Interpreter
------------------------------------------------------------

namespace RiscvEm

variable {σ : Type}

/- Any immediate of 32 bits or less is encoded as it is. -/
theorem imm32_signExtend
    (x : BitVec 32) :
    imm32 (x.signExtend 64) = x.signExtend 64 := by
  have hHalf : (x.signExtend 64).setWidth 32 = x := by
    apply BitVec.eq_of_getLsbD_eq
    intro i hi
    simp [BitVec.getLsbD_signExtend, hi]
    omega
  unfold imm32
  rw [hHalf]

/- The immediates that the decoder makes for an instruction. -/
def immOf
    (op : Op) : BitVec 32 → BitVec 64 :=
  match op with
  | .SLLI | .SRLI | .SRAI => shamt64
  | .SLLIW | .SRLIW | .SRAIW => shamt
  | _ => immI

/- A small immediate is not changed by its extension. -/
theorem imm32_of_lt
    {x : BitVec 64}
    (h : x.toNat < 2 ^ 31) :
    imm32 x = x := by
  have hMsb : (x.setWidth 32).msb = false := by
    rw [BitVec.msb_eq_false_iff_two_mul_lt,
      BitVec.toNat_setWidth]
    omega
  apply BitVec.eq_of_toNat_eq
  rw [imm32, BitVec.signExtend_eq_setWidth_of_msb_false hMsb]
  simp only [BitVec.toNat_setWidth]
  omega

/- The immediate of a word survives 32 bits. -/
theorem imm32_immOf
    (op : Op)
    (w : BitVec 32) :
    imm32 (immOf op w) = immOf op w := by
  have hImm : imm32 (immI w) = immI w := imm32_signExtend _
  have hSix : (shamt64 w).toNat < 2 ^ 31 := by
    have hLe : (shamt64 w).toNat ≤ 0x3F := by
      unfold shamt64
      rw [BitVec.toNat_and]
      exact Nat.and_le_right
    omega
  have hFive : (shamt w).toNat < 2 ^ 31 := by
    have hLe : (shamt w).toNat ≤ 0x1F := by
      unfold shamt
      rw [BitVec.toNat_and]
      exact Nat.and_le_right
    omega
  unfold immOf
  split
  · exact imm32_of_lt hSix
  · exact imm32_of_lt hSix
  · exact imm32_of_lt hSix
  · exact imm32_of_lt hFive
  · exact imm32_of_lt hFive
  · exact imm32_of_lt hFive
  · exact hImm

/- The templates compute what the interpreter does. -/
theorem rValue_exec
    {op : Op}
    {f : BitVec 64 → BitVec 64 → BitVec 64}
    (h : rValue op = some f) :
    op.exec (σ := σ) = execRType f := by
  cases op <;> cases h <;> rfl

/- The interpreter computes the same function. -/
theorem iValue_exec
    {op : Op}
    {optimize : Bool}
    {f : BitVec 64 → BitVec 64 → BitVec 64}
    (h : iValue op = some (optimize, f))
    (P : Platform σ)
    (d : InstructionData)
    {w : BitVec 32}
    (hImm : d.imm = immOf op w) :
    op.exec P d = execIType f P d := by
  have hImm32 : imm32 (immI w) = immI w := imm32_signExtend _
  have hSix : shamt64 w &&& 0x3F = shamt64 w := by
    unfold shamt64
    rw [BitVec.and_assoc, BitVec.and_self]
  have hFive : shamt w &&& 0x1F = shamt w := by
    unfold shamt
    rw [BitVec.and_assoc, BitVec.and_self]
  cases op <;> cases h
  case ADDI | ADDIW | XORI | ORI | ANDI =>
    simp only [Op.exec, execADDI, execADDIW, execXORI,
      execORI, execANDI, execIType, hImm, immOf, hImm32]
  case SLLI | SRLI | SRAI =>
    simp only [Op.exec, execSLLI, execSRLI, execSRAI,
      execIType, hImm, immOf, hSix]
  case SLLIW | SRLIW | SRAIW =>
    simp only [Op.exec, execSLLIW, execSRLIW, execSRAIW,
      execIType, hImm, immOf, hFive]
  case SLTI | SLTIU => rfl

end RiscvEm
