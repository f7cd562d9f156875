import RiscvEm.Jit.Frames
import RiscvEm.Jit.Templates

/-
  The code of a compiled store: its two short jumps are
  patched while the template is emitted, and each leads to
  where its label was put.

  Key definitions include:
    * `JitBlock.Exact`
    * `jitStoreCode`

  Key theorems include `jitStore_spec`.
-/

------------------------------------------------------------
-- Patching A Short Jump
------------------------------------------------------------

namespace RiscvEm

namespace JitBlock

/-
  Each one-byte displacement that `realize_label` patches is
  the distance from the end of its jump to this position.
-/
def Exact
    (blk : JitBlock)
    (label : Label) : Prop :=
  ∀ lbl ∈ blk.jmpLabels, lbl.label = label → lbl.size = 1 →
    ∃ rel : BitVec 8,
      (blk.realizeLabel label).bytes[lbl.offs +
          (if lbl.isOpcode2 then 2 else 1)]? = some rel ∧
        rel.toInt = (blk.bytes.length : Int) -
          (lbl.offs + (if lbl.isOpcode2 then 2 else 1) + 1)

/- A byte below 128 is positive. -/
theorem toInt_short
    {n : Nat}
    (h : n < 128) :
    (BitVec.ofNat 8 n).toInt = n := by
  have hNat : (BitVec.ofNat 8 n).toNat = n :=
    Nat.mod_eq_of_lt (by omega)
  rw [BitVec.toInt_eq_toNat_of_lt (by omega), hNat]

/- Patching a short jump forwards writes its distance. -/
theorem realizeJump_short
    (before after : Code)
    (op rel : BitVec 8)
    (label : Label)
    (n : Nat) :
    realizeJump (before.length + 2 + n)
        (before ++ op :: rel :: after)
        ⟨label, before.length, false, 1⟩ =
      before ++ op :: BitVec.ofNat 8 n :: after := by
  have hRel : (BitVec.ofNat 64 (before.length + 2 + n) -
      BitVec.ofNat 64 (before.length + 2)).setWidth 8 =
        BitVec.ofNat 8 n := by
    rw [BitVec.ofNat_add, BitVec.add_comm,
      BitVec.add_sub_cancel]
    exact BitVec.setWidth_ofNat_of_le (by decide) n
  have hSet : (before ++ op :: rel :: after).set
      (before.length + 1) (BitVec.ofNat 8 n) =
        before ++ op :: BitVec.ofNat 8 n :: after := by
    rw [List.set_append_right _ _ (Nat.le_add_right _ 1),
      Nat.add_sub_cancel_left]
    rfl
  simp only [realizeJump, Bool.false_eq_true, if_false,
    if_true, Nat.reduceAdd, hRel, patch]
  exact hSet

/- The jumps to other labels stay as they are. -/
theorem realizeLabel_one
    {blk : JitBlock}
    {label : Label}
    {before after : Code}
    {op rel : BitVec 8}
    {n : Nat}
    (hBytes : blk.bytes = before ++ op :: rel :: after)
    (hLength : after.length = n)
    {others : List JumpLabel}
    (hLabels : blk.jmpLabels =
      ⟨label, before.length, false, 1⟩ :: others)
    (hOthers : ∀ lbl ∈ others, lbl.label ≠ label) :
    blk.realizeLabel label = { blk with
      bytes := before ++ op :: BitVec.ofNat 8 n :: after
      jmpLabels := others } := by
  have hNone : others.filter (·.label = label) = [] := by
    apply List.filter_eq_nil_iff.mpr
    intro lbl hMem
    simpa using hOthers lbl hMem
  have hAll : others.filter (·.label ≠ label) = others := by
    apply List.filter_eq_self.mpr
    intro lbl hMem
    simpa using hOthers lbl hMem
  have hPos : blk.bytes.length = before.length + 2 + n := by
    rw [hBytes, ← hLength]
    simp only [List.length_append, List.length_cons]
    omega
  have hPatch := realizeJump_short before after op rel label n
  rw [← hPos, ← hBytes] at hPatch
  unfold realizeLabel
  rw [hLabels]
  simp only [List.filter_cons, decide_true, if_true, hNone,
    ne_eq, not_true_eq_false, decide_false,
    Bool.false_eq_true, if_false, List.foldl_cons,
    List.foldl_nil, hPatch]
  simp only [ne_eq] at hAll
  rw [hAll]

/- One label of the name is patched to the end. -/
theorem exact_of_one
    {blk : JitBlock}
    {label : Label}
    {before after : Code}
    {op rel : BitVec 8}
    {n : Nat}
    (hBytes : blk.bytes = before ++ op :: rel :: after)
    (hLength : after.length = n)
    {others : List JumpLabel}
    (hLabels : blk.jmpLabels =
      ⟨label, before.length, false, 1⟩ :: others)
    (hOthers : ∀ lbl ∈ others, lbl.label ≠ label)
    (hShort : n < 128) :
    blk.Exact label := by
  intro lbl hMem hLabel hSize
  rw [hLabels] at hMem
  rcases List.mem_cons.mp hMem with rfl | hMem
  · refine ⟨BitVec.ofNat 8 n, ?_, ?_⟩
    · rw [realizeLabel_one hBytes hLength hLabels hOthers]
      simp
    · rw [hBytes, toInt_short hShort]
      simp only [List.length_append, List.length_cons,
        Bool.false_eq_true, if_false, hLength]
      omega
  · exact absurd hLabel (hOthers lbl hMem)

/- A block without labels has none to patch. -/
theorem exact_of_no_labels
    {blk : JitBlock}
    (h : blk.jmpLabels = [])
    (label : Label) :
    blk.Exact label := by
  intro lbl hMem
  rw [h] at hMem
  cases hMem

/- Nothing is left to patch. -/
theorem realizeLabel_of_none
    {blk : JitBlock}
    (h : blk.jmpLabels = [])
    (label : Label) :
    blk.realizeLabel label = blk := by
  cases blk with
  | mk bytes jmpLabels pc size count valid words =>
      cases h
      rfl

end JitBlock

end RiscvEm

------------------------------------------------------------
-- The Template
------------------------------------------------------------

namespace RiscvEm

/- The fast encoder of a store. -/
abbrev FastMov :=
  BitVec 8 → BitVec 8 → BitVec 8 → BitVec 8 → BitVec 32 → Code

variable {fastMov : FastMov}
variable {slow : BitVec 64}
variable {rs1 rs2 : VReg}
variable {imm : BitVec 64}
variable {blk : JitBlock}

/- The block of `jit_store` where `fast_path` is realized. -/
def storeSlowBlock
    (slow : BitVec 64)
    (rs1 rs2 : VReg)
    (imm : BitVec 64)
    (blk : JitBlock) : JitBlock :=
  let blk := blk.emit (storeOffsetCode rs1 imm)
  let blk := (blk.pushLabel .fastPath 1).emit (jbe8 0)
  let blk := blk.emit (storeSlowCode slow rs2)
  (blk.pushLabel .done 1).emit (jmp8 0)

/- The block of `jit_store` where `end` is realized. -/
def storeFastBlock
    (fastMov : FastMov)
    (slow : BitVec 64)
    (rs1 rs2 : VReg)
    (imm : BitVec 64)
    (blk : JitBlock) : JitBlock :=
  ((storeSlowBlock slow rs1 rs2 imm blk).realizeLabel
    .fastPath).emit (storeFastCode fastMov rs2)

/- The slow part is jumped over, and so is the fast one. -/
def jitStoreCode
    (fastMov : FastMov)
    (slow : BitVec 64)
    (rs1 rs2 : VReg)
    (imm : BitVec 64) : Code :=
  storeOffsetCode rs1 imm ++
    (jbe8 (BitVec.ofNat 8
        ((storeSlowCode slow rs2).length + 2)) ++
      (storeSlowCode slow rs2 ++
        (jmp8 (BitVec.ofNat 8
            (storeFastCode fastMov rs2).length) ++
          storeFastCode fastMov rs2)))

/- The two places where the template realizes a label. -/
theorem jitStore_realizes
    (fastMov : FastMov)
    (slow : BitVec 64) :
    jitStore fastMov slow = fun inst em blk =>
      em.instEmitSType blk inst fun rs1 rs2 imm blk =>
        (storeFastBlock fastMov slow rs1 rs2 imm
          blk).realizeLabel .done :=
  rfl

/- The slow path is 32 bytes long. -/
theorem storeSlowCode_length
    (slow : BitVec 64)
    (rs2 : VReg) :
    (storeSlowCode slow rs2).length = 32 := by
  unfold storeSlowCode
  split <;> rfl

/- The bytes up to the fast path. -/
theorem storeSlowBlock_bytes
    (slow : BitVec 64)
    (rs1 rs2 : VReg)
    (imm : BitVec 64)
    (blk : JitBlock) :
    (storeSlowBlock slow rs1 rs2 imm blk).bytes =
      (blk.bytes ++ storeOffsetCode rs1 imm) ++
        0x76 :: 0 :: (storeSlowCode slow rs2 ++ jmp8 0) := by
  simp [storeSlowBlock, JitBlock.emit, JitBlock.pushLabel,
    jbe8]

/-
  It has two labels: one over the slow path, one over the
  fast.
-/
theorem storeSlowBlock_labels
    (h : blk.jmpLabels = []) :
    (storeSlowBlock slow rs1 rs2 imm blk).jmpLabels =
      [⟨.fastPath, (blk.bytes ++ storeOffsetCode rs1
          imm).length, false, 1⟩,
        ⟨.done, (blk.bytes ++ storeOffsetCode rs1 imm ++
          jbe8 0 ++ storeSlowCode slow rs2).length, false,
          1⟩] := by
  simp [storeSlowBlock, JitBlock.emit, JitBlock.pushLabel, h]

/- The slow path takes 34 bytes with its jump. -/
theorem storeSlow_length
    (slow : BitVec 64)
    (rs2 : VReg) :
    (storeSlowCode slow rs2 ++ jmp8 0).length = 34 := by
  rw [List.length_append, storeSlowCode_length]
  rfl

/- The jump to the fast path is exact. -/
theorem storeSlowBlock_exact
    (h : blk.jmpLabels = []) :
    (storeSlowBlock slow rs1 rs2 imm blk).Exact .fastPath :=
  JitBlock.exact_of_one (storeSlowBlock_bytes ..)
    (storeSlow_length slow rs2) (storeSlowBlock_labels h)
    (by simp) (by decide)

/- The fast path patches the jump over the slow one. -/
theorem storeFastBlock_eq
    (fastMov : FastMov)
    (slow : BitVec 64)
    (rs1 rs2 : VReg)
    (imm : BitVec 64)
    (h : blk.jmpLabels = []) :
    storeFastBlock fastMov slow rs1 rs2 imm blk = { blk with
      bytes := (blk.bytes ++ storeOffsetCode rs1 imm ++
          jbe8 34 ++ storeSlowCode slow rs2) ++
        0xEB :: 0 :: storeFastCode fastMov rs2
      jmpLabels := [⟨.done, (blk.bytes ++
          storeOffsetCode rs1 imm ++ jbe8 34 ++
            storeSlowCode slow rs2).length, false, 1⟩] } := by
  unfold storeFastBlock
  rw [JitBlock.realizeLabel_one (storeSlowBlock_bytes ..)
    (storeSlow_length slow rs2) (storeSlowBlock_labels h)
    (by simp)]
  simp [JitBlock.emit, storeSlowBlock, JitBlock.pushLabel,
    jbe8, jmp8]

/- The jump over the fast path is exact if that is short. -/
theorem storeFastBlock_exact
    (h : blk.jmpLabels = [])
    (hShort : (storeFastCode fastMov rs2).length < 128) :
    (storeFastBlock fastMov slow rs1 rs2 imm blk).Exact
      .done := by
  have hEq := storeFastBlock_eq fastMov slow rs1 rs2 imm h
  exact JitBlock.exact_of_one (congrArg JitBlock.bytes hEq)
    rfl (congrArg JitBlock.jmpLabels hEq) nofun hShort

/- The template emits this code and leaves no label. -/
theorem jitStore_emits
    (h : blk.jmpLabels = []) :
    (storeFastBlock fastMov slow rs1 rs2 imm blk).realizeLabel
        .done =
      blk.emit (jitStoreCode fastMov slow rs1 rs2 imm) := by
  have hEq := storeFastBlock_eq fastMov slow rs1 rs2 imm h
  rw [JitBlock.realizeLabel_one (congrArg JitBlock.bytes hEq)
    rfl (congrArg JitBlock.jmpLabels hEq) nofun, hEq]
  simp [JitBlock.emit, jitStoreCode, storeSlowCode_length,
    jbe8, jmp8, h]

/- A store is its operands and this code. -/
theorem jitStore_spec
    {em : JitEmitter}
    (h : em.Wf)
    (hLabels : blk.jmpLabels = [])
    (fastMov : FastMov)
    (slow : BitVec 64)
    (inst : InstructionData) :
    ∃ em₁ blk₁,
      em.Grants blk [inst.rs1, inst.rs2] em₁ blk₁ ∧
      jitStore fastMov slow inst em blk =
        .ok (em₁, blk₁.emit (jitStoreCode fastMov slow
          (em₁.vregs inst.rs1) (em₁.vregs inst.rs2)
            inst.imm)) := by
  rw [jitStore_realizes]
  rcases JitEmitter.instEmitSType_spec h blk inst
    (fun rs1 rs2 imm blk => (storeFastBlock fastMov slow rs1
      rs2 imm blk).realizeLabel .done) with
    ⟨em₁, blk₁, hGrants, hEq⟩
  rcases hGrants.spec h (by simp) with ⟨-, ⟨code, rfl⟩, -⟩
  have hNone : (blk.emit code).jmpLabels = [] := hLabels
  rw [jitStore_emits hNone] at hEq
  exact ⟨em₁, _, hGrants, hEq⟩

/- What `execjit_SB` .. `execjit_SD` give to `jit_store`. -/
def storeParts : Op → Option (FastMov × MemorySize)
  | .SB => some (movM8r8, .Byte)
  | .SH => some (movM16r16, .Short)
  | .SW => some (movM32r32, .Int)
  | .SD => some (movMr, .Long)
  | _ => none

/-
  All stores of the table have a fast path of 5 bytes at
  most.
-/
theorem conversionTbl_store
    {op : Op}
    {fastMov : FastMov}
    {size : MemorySize}
    (h : storeParts op = some (fastMov, size))
    (slow : SlowFuncs) :
    conversionTbl slow op =
        some (jitStore fastMov (slow size)) ∧
      ∀ reg, (fastMov reg REG_R14 REG_RCX 0 0).length ≤ 5 := by
  cases op <;> cases h
  case SB => exact ⟨rfl, fun _ => Nat.le_succ 4⟩
  case SH => exact ⟨rfl, fun _ => Nat.le_refl 5⟩
  case SW => exact ⟨rfl, fun _ => Nat.le_succ 4⟩
  case SD => exact ⟨rfl, fun _ => Nat.le_succ 4⟩

/- `x0` has no load, but the fast part clears a register. -/
theorem jitStoreCode_length
    {fastMov : FastMov}
    (h : ∀ reg,
      (fastMov reg REG_R14 REG_RCX 0 0).length ≤ 5)
    (slow : BitVec 64)
    (rs1 rs2 : VReg)
    (imm : BitVec 64) :
    (storeFastCode fastMov rs2).length ≤
        (if rs2.vreg = 0 then 10 else 5) ∧
      (jitStoreCode fastMov slow rs1 rs2 imm).length =
        65 + (storeFastCode fastMov rs2).length := by
  constructor
  · unfold storeFastCode
    split
    · have hMov := h REG_RAX
      have hPush : (push REG_RAX).length = 1 := rfl
      have hPop : (pop REG_RAX).length = 1 := rfl
      have hXor : (xorRr REG_RAX REG_RAX).length = 3 := rfl
      rw [List.length_append, List.length_append,
        List.length_append, hPush, hPop, hXor]
      omega
    · exact h _
  · have hOffset : (storeOffsetCode rs1 imm).length = 29 :=
      rfl
    have hJbe : ∀ r, (jbe8 r).length = 2 := fun _ => rfl
    have hJmp : ∀ r, (jmp8 r).length = 2 := fun _ => rfl
    unfold jitStoreCode
    simp only [List.length_append, hOffset, hJbe, hJmp,
      storeSlowCode_length]
    omega

end RiscvEm
