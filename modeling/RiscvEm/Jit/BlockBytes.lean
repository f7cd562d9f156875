import RiscvEm.Hart.State
import RiscvEm.Jit.Entries
import RiscvEm.Jit.Frames
import RiscvEm.Jit.StoreCode

/-
  The bytes of a block: every instruction pays for its own
  code, for the loads of its operands and for the write-back
  of its result, which is emitted when the register is
  spilled or by the epilogue.

  The dearest instruction is a store of 84 bytes, so that 48
  of them, the prologue and the epilogue fit the buffer.

  Key definitions include:
    * `JitEmitter.owed`
    * `JitContext.Recorded`

  Key theorems include:
    * `JitEmitter.Allocates.pays`
    * `BoundedTemplate.emits`
    * `emitted_blocks_fit`
-/

------------------------------------------------------------
-- Bytes That Are Owed
------------------------------------------------------------

namespace RiscvEm

/- Lists of code that differ at one register. -/
theorem length_flatMap_except
    {α : Type}
    {f g : BitVec 5 → List α}
    {r : BitVec 5}
    (hSame : ∀ q, q ≠ r → f q = g q)
    {rs : List (BitVec 5)}
    (hNodup : rs.Nodup)
    (hMem : r ∈ rs) :
    (rs.flatMap f).length + (g r).length =
      (rs.flatMap g).length + (f r).length := by
  induction rs with
  | nil => cases hMem
  | cons q rs ih =>
      rcases List.nodup_cons.mp hNodup with ⟨hNot, hNodup⟩
      rw [List.flatMap_cons, List.flatMap_cons,
        List.length_append, List.length_append]
      rcases List.mem_cons.mp hMem with rfl | hMem
      · have hRest : rs.flatMap f = rs.flatMap g := by
          apply List.flatMap_congr
          rintro q hq
          exact hSame q (fun hEq => hNot (hEq ▸ hq))
        rw [hRest]
        omega
      · have hNe : q ≠ r := fun hEq => hNot (hEq ▸ hMem)
        have hRest := ih hNodup hMem
        rw [hSame q hNe]
        omega

/- No guest register is listed twice. -/
theorem nodup_guestRegs :
    JitEmitter.guestRegs.Nodup := by
  decide

namespace JitEmitter

variable {em em' : JitEmitter}

/- The bytes of the write-backs of the epilogue. -/
def owed
    (em : JitEmitter) : Nat :=
  (guestRegs.flatMap fun r => writeBack (em.vregs r)).length

/- What is owed changes by the changed register only. -/
theorem owed_except
    {r : BitVec 5}
    (hSame : ∀ q, q ≠ r → em'.vregs q = em.vregs q) :
    em'.owed + (writeBack (em.vregs r)).length =
      em.owed + (writeBack (em'.vregs r)).length :=
  length_flatMap_except
    (fun q hq => congrArg writeBack (hSame q hq))
    nodup_guestRegs (mem_guestRegs r)

/- An access to a guest register takes at most 7 bytes. -/
theorem memOp_length
    (w : Bool)
    (opcode reg : BitVec 8)
    (disp : BitVec 32) :
    (memOp [] w opcode reg REG_R13 NO_INDEX 0 disp).length ≤
      7 := by
  unfold memOp sibHelper
  dsimp only
  rw [show needsSib REG_R13 NO_INDEX = false from rfl]
  generalize (if disp = 0 ∧ needsDisp0 REG_R13 = true then
    (0 : BitVec 8) else _) = mod
  simp only [Bool.false_eq_true, if_false, List.append_nil]
  split
  · simp
  · split
    · simp [bytes32]
    · simp

/- A load of a guest register takes at most 7 bytes. -/
theorem loadCode_length
    (i : Fin 8)
    (r : BitVec 5) :
    (loadCode i r).length ≤ 7 :=
  memOp_length ..

/- A write-back takes at most 7 bytes. -/
theorem writeBack_length
    (v : VReg) :
    (writeBack v).length ≤ 7 := by
  unfold writeBack
  split
  · exact Nat.zero_le _
  · exact memOp_length ..

/- A register marked as dirty owes one write-back more. -/
theorem owed_setDirty
    (em : JitEmitter)
    (r : BitVec 5) :
    (em.setDirty r).owed ≤ em.owed + 7 := by
  have hSame : ∀ q, q ≠ r →
      (em.setDirty r).vregs q = em.vregs q :=
    fun q hq => setVReg_of_ne em hq _
  have hOwed := owed_except hSame
  have hLength := writeBack_length ((em.setDirty r).vregs r)
  omega

/- A register that is loaded owes nothing yet. -/
theorem Loaded.owed
    {i : Fin 8}
    {r : BitVec 5}
    (h : em.Loaded em' i r)
    (hClean : (em.vregs r).dirty = false) :
    em'.owed = em.owed := by
  have hOwed := owed_except h.vregs
  rw [writeBack_clean hClean,
    writeBack_clean (h.clean.trans hClean)] at hOwed
  exact hOwed

/- A victim is paid for when it is spilled. -/
theorem Wf.free_owed
    (h : em.Wf)
    {i : Fin 8}
    {g : BitVec 5}
    (hSlot : em.slot i = some g) :
    (if (em.vregs g).dirty then storeCode i g
        else []).length + (em.free i g).owed = em.owed := by
  have hSame : ∀ q, q ≠ g →
      (em.free i g).vregs q = em.vregs q :=
    fun q hq => setVReg_of_ne _ hq _
  have hOwed := owed_except hSame
  have hFreed : ((em.free i g).vregs g).dirty = false :=
    congrArg VReg.dirty (setVReg_self _ g _)
  rw [writeBack_clean hFreed, List.length_nil,
    Nat.add_zero] at hOwed
  cases hDirty : (em.vregs g).dirty with
  | true =>
      rw [writeBack_dirty h hSlot hDirty] at hOwed
      rw [if_pos rfl, Nat.add_comm]
      exact hOwed
  | false =>
      rw [writeBack_clean hDirty, List.length_nil] at hOwed
      rw [if_neg Bool.false_ne_true, List.length_nil,
        Nat.zero_add]
      exact hOwed

/- An allocation pays for the load and no more. -/
theorem Allocates.pays
    (h : em.Wf)
    {r : BitVec 5}
    {locked : BitVec 64}
    {code : Code}
    (hAlloc : em.Allocates r locked em' code) :
    code.length + em'.owed ≤
      em.owed + (if r = 0 then 0 else 7) := by
  cases hAlloc with
  | zero hr => simp
  | hit hSlot hWf hSlots hVRegs =>
      have hOwed : em'.owed = em.owed := by
        unfold owed
        rw [hVRegs]
      rw [hOwed, List.length_nil, Nat.zero_add]
      exact Nat.le_add_right ..
  | @load _ i hUnlocked hFree hIdle hLoaded =>
      have hNe := hLoaded.wf.slot_ne_zero hLoaded.slot
      have hOwed := hLoaded.owed (h.idle r hIdle).2
      have hLength := loadCode_length i r
      rw [if_neg hNe]
      omega
  | @spill _ i g hUnlocked hSlot hNe hIdle hLoaded =>
      have hZero := hLoaded.wf.slot_ne_zero hLoaded.slot
      have hSame : (em.free i g).vregs r = em.vregs r :=
        setVReg_of_ne _ hNe _
      have hClean : ((em.free i g).vregs r).dirty = false :=
        hSame ▸ (h.idle r hIdle).2
      have hOwed := hLoaded.owed hClean
      have hPaid := h.free_owed hSlot
      have hLength := loadCode_length i r
      rw [if_neg hZero, List.length_append]
      omega

/- The operands that need a host register. -/
def loads
    (rs : List (BitVec 5)) : Nat :=
  (rs.map fun r => if r = 0 then 0 else 7).sum

/-
  Grants pay for the write-backs they emit, and for their
  loads.
-/
theorem Grants.pays
    (h : em.Wf)
    {blk blk' : JitBlock}
    {rs : List (BitVec 5)}
    (hGrants : em.Grants blk rs em' blk')
    (hFew : rs.length ≤ 3) :
    ∃ code, blk' = blk.emit code ∧
      code.length + em'.owed ≤ em.owed + loads rs := by
  induction hGrants with
  | nil => exact ⟨[], blk.emit_nil.symm, by simp [loads]⟩
  | @snoc rs r em₁ em₂ blk₁ blk₂ hBefore hAlloc ih =>
      rw [List.length_append, List.length_singleton] at hFew
      rcases ih (Nat.le_of_succ_le hFew) with
        ⟨code, rfl, hPaid⟩
      rcases hBefore.spec h (Nat.le_of_succ_le hFew) with
        ⟨hWf, -, hHeld⟩
      rcases allocates_of_ok hWf
        (hWf.unlocked hHeld (Nat.le_of_succ_le_succ hFew))
        hAlloc with ⟨code', rfl, hAllocates⟩
      refine ⟨code ++ code', blk.emit_emit code code', ?_⟩
      have hMore := hAllocates.pays hWf
      have hSum : loads (rs ++ [r]) =
          loads rs + (if r = 0 then 0 else 7) := by
        simp [loads]
      rw [List.length_append, hSum]
      omega

end JitEmitter

end RiscvEm

------------------------------------------------------------
-- What Templates Cost
------------------------------------------------------------

namespace RiscvEm

/- Templates with a bound on what follows the operands. -/
inductive BoundedTemplate : JitTemplate → Prop
  | r (optimize : Bool) {emitOp : ROp}
      (bound : ∀ rd rs1 rs2,
        (emitOp rd rs1 rs2).length ≤ 24) :
      BoundedTemplate (rTemplate optimize emitOp)
  | i (optimize : Bool) {emitOp : IOp}
      (bound : ∀ rd rs1 imm,
        (emitOp rd rs1 imm).length ≤ 24) :
      BoundedTemplate (iTemplate optimize emitOp)
  | store {fastMov : FastMov}
      (bound : ∀ reg,
        (fastMov reg REG_R14 REG_RCX 0 0).length ≤ 5)
      (slow : BitVec 64) :
      BoundedTemplate (jitStore fastMov slow)

/- The emitters of one operation, by the bytes they take. -/
def Takes
    (n : Nat)
    (op : BitVec 8 → BitVec 8 → Code) : Prop :=
  ∀ d s, (op d s).length = n

/- `ADD` takes at most 6 bytes. -/
theorem addOp_length
    {add : BitVec 8 → BitVec 8 → Code}
    (h : Takes 3 add)
    (rd rs1 rs2 : VReg) :
    (addOp add rd rs1 rs2).length ≤ 6 := by
  unfold addOp
  repeat' split
  all_goals simp [h _ _, mov, rrOp]

/- `SUB` takes at most 9 bytes. -/
theorem subOp_length
    {sub : BitVec 8 → BitVec 8 → Code}
    (h : Takes 3 sub)
    (rd rs1 rs2 : VReg) :
    (subOp sub rd rs1 rs2).length ≤ 9 := by
  unfold subOp
  repeat' split
  all_goals simp [h _ _, mov, rrOp]

/-
  The other operations take at most 6 bytes more than the
  bare one.
-/
theorem binaryOp_length
    {op : BitVec 8 → BitVec 8 → Code}
    {n : Nat}
    (h : Takes n op)
    (rd rs1 rs2 : VReg) :
    (binaryOp op rd rs1 rs2).length ≤ n + 6 := by
  unfold binaryOp
  repeat' split
  all_goals simp [h _ _, mov, rrOp]

/- The forms of 32 bits take at most 3 bytes more. -/
theorem wideR_length
    {op : ROp}
    {n : Nat}
    (h : ∀ rd rs1 rs2, (op rd rs1 rs2).length ≤ n)
    (rd rs1 rs2 : VReg) :
    (wideR op rd rs1 rs2).length ≤ n + 3 := by
  unfold wideR
  rw [List.length_append]
  exact Nat.add_le_add (h rd rs1 rs2) (Nat.le_refl 3)

/- Setting a byte by a condition takes at most 4 bytes. -/
theorem setcc_length
    (opcode dest : BitVec 8) :
    (setcc opcode dest).length ≤ 4 := by
  unfold setcc
  split
  · exact Nat.le_refl 4
  · exact Nat.le_succ 3

/- Comparisons of registers take at most 17 bytes. -/
theorem sltOp_length
    (opcode : BitVec 8)
    (rd rs1 rs2 : VReg) :
    (sltOp (setcc opcode) rd rs1 rs2).length ≤ 17 := by
  have hSet := setcc_length opcode rd.hostReg
  unfold sltOp
  repeat' split
  all_goals
    simp only [List.length_append, List.length_nil, xorRr, cmp,
      rrOp, movzx, List.length_cons]
    omega

/-
  Operations with an immediate take at most 3 bytes more
  than the bare one.
-/
theorem immOp_length
    {op : BitVec 8 → BitVec 64 → Code}
    {n : Nat}
    (h : ∀ d imm, (op d imm).length = n)
    (rd rs1 : VReg)
    (imm : BitVec 64) :
    (immOp op rd rs1 imm).length ≤ n + 3 := by
  unfold immOp
  split
  · rw [List.length_append, h]
    exact (Nat.add_comm 3 n).le
  · rw [List.nil_append, h]
    exact Nat.le_add_right n 3

/- The forms of 32 bits take at most 3 bytes more. -/
theorem wideI_length
    {op : IOp}
    {n : Nat}
    (h : ∀ rd rs1 imm, (op rd rs1 imm).length ≤ n)
    (rd rs1 : VReg)
    (imm : BitVec 64) :
    (wideI op rd rs1 imm).length ≤ n + 3 := by
  unfold wideI
  rw [List.length_append]
  exact Nat.add_le_add (h rd rs1 imm) (Nat.le_refl 3)

/- Comparisons with an immediate take at most 24 bytes. -/
theorem sltiOp_length
    (opcode : BitVec 8)
    (rd rs1 : VReg)
    (imm : BitVec 64) :
    (sltiOp (setcc opcode) rd rs1 imm).length ≤ 24 := by
  have hSet := setcc_length opcode rd.hostReg
  unfold sltiOp
  split
  all_goals
    simp only [List.length_append, List.length_nil, xorRr, cmp,
      rrOp, movzx, List.length_cons, movImm64, bytes64,
      List.length_map, List.length_range]
    omega

/- Operations on two host registers take 3 bytes. -/
theorem takes_rrOp
    (w : Bool)
    (opcode : BitVec 8) :
    Takes 3 (rrOp w opcode) :=
  fun _ _ => rfl

/- Shifts save and restore the count in at most 6 bytes. -/
theorem takes_shiftRc
    (w : Bool)
    (ext : BitVec 8) :
    Takes 6 (shiftRc w ext) :=
  fun _ _ => rfl

/- R-type templates of bounded bodies. -/
theorem BoundedTemplate.ofR
    {optimize : Bool}
    {emitOp : ROp}
    {n : Nat}
    (h : ∀ rd rs1 rs2, (emitOp rd rs1 rs2).length ≤ n)
    (hn : n ≤ 24) :
    BoundedTemplate (rTemplate optimize emitOp) :=
  .r optimize fun rd rs1 rs2 => (h rd rs1 rs2).trans hn

/- I-type templates of bounded bodies. -/
theorem BoundedTemplate.ofI
    {optimize : Bool}
    {emitOp : IOp}
    {n : Nat}
    (h : ∀ rd rs1 imm, (emitOp rd rs1 imm).length ≤ n)
    (hn : n ≤ 24) :
    BoundedTemplate (iTemplate optimize emitOp) :=
  .i optimize fun rd rs1 imm => (h rd rs1 imm).trans hn

/- The shortcut of `AND` clears the result. -/
theorem bounded_and :
    BoundedTemplate execjitAND := by
  refine .r _ fun rd rs1 rs2 => ?_
  split
  · exact Nat.le_add_right 3 21
  · exact (binaryOp_length (takes_rrOp _ _) rd rs1 rs2).trans
      (by decide)

/- `ANDI` has a body of its own. -/
theorem bounded_andi :
    BoundedTemplate execjitANDI := by
  refine .i _ fun rd rs1 imm => ?_
  split
  · exact Nat.le_add_right 3 21
  · exact (immOp_length (fun _ _ => rfl) rd rs1 imm).trans
      (show 10 ≤ 24 by decide)

/- Every template of the table is bounded. -/
theorem conversionTbl_bounded
    {slow : SlowFuncs}
    {op : Op}
    {template : JitTemplate}
    (h : conversionTbl slow op = some template) :
    BoundedTemplate template := by
  cases op <;> cases h
  case ADD =>
    exact .ofR (addOp_length (takes_rrOp _ _)) (by decide)
  case ADDW =>
    exact .ofR (wideR_length (addOp_length (takes_rrOp _ _)))
      (by decide)
  case SUB =>
    exact .ofR (subOp_length (takes_rrOp _ _)) (by decide)
  case SUBW =>
    exact .ofR (wideR_length (subOp_length (takes_rrOp _ _)))
      (by decide)
  case XOR | OR =>
    exact .ofR (binaryOp_length (takes_rrOp _ _)) (by decide)
  case AND => exact bounded_and
  case SLL | SRL | SRA =>
    exact .ofR (binaryOp_length (takes_shiftRc _ _))
      (by decide)
  case SLLW | SRLW | SRAW =>
    exact .ofR (wideR_length
      (binaryOp_length (takes_shiftRc _ _))) (by decide)
  case SLT | SLTU => exact .ofR (sltOp_length _) (by decide)
  case ADDI | XORI | ORI =>
    exact .ofI (immOp_length (n := 7) fun _ _ => rfl)
      (by decide)
  case ADDIW =>
    exact .ofI (wideI_length
      (immOp_length (n := 7) fun _ _ => rfl)) (by decide)
  case ANDI => exact bounded_andi
  case SLLI | SRLI | SRAI =>
    exact .ofI (immOp_length (n := 4) fun _ _ => rfl)
      (by decide)
  case SLLIW | SRLIW | SRAIW =>
    exact .ofI (wideI_length
      (immOp_length (n := 4) fun _ _ => rfl)) (by decide)
  case SLTI | SLTIU => exact .ofI (sltiOp_length _) (by decide)
  case SB =>
    exact @BoundedTemplate.store movM8r8
      (fun _ => Nat.le_succ 4) _
  case SH =>
    exact @BoundedTemplate.store movM16r16
      (fun _ => Nat.le_refl 5) _
  case SW =>
    exact @BoundedTemplate.store movM32r32
      (fun _ => Nat.le_succ 4) _
  case SD =>
    exact @BoundedTemplate.store movMr
      (fun _ => Nat.le_succ 4) _

end RiscvEm

------------------------------------------------------------
-- One Instruction
------------------------------------------------------------

namespace RiscvEm

namespace JitEmitter

variable {em em' : JitEmitter}

/- Code is appended, and paid for at one instruction. -/
structure Emits
    (em : JitEmitter)
    (blk : JitBlock)
    (em' : JitEmitter)
    (blk' : JitBlock) : Prop where
  wf : em'.Wf
  paid : ∃ code, blk' = blk.emit code ∧
    code.length + em'.owed ≤ em.owed + 84

/- Emitting nothing costs nothing. -/
theorem Emits.refl
    (h : em.Wf)
    (blk : JitBlock) :
    Emits em blk em blk :=
  ⟨h, [], blk.emit_nil.symm, by simp⟩

/- A load takes 7 bytes. -/
theorem loads_le
    (rs : List (BitVec 5)) :
    loads rs ≤ 7 * rs.length := by
  induction rs with
  | nil => exact Nat.le_refl 0
  | cons r rs ih =>
      have hOne : (if r = 0 then 0 else 7) ≤ 7 := by
        split <;> decide
      unfold loads at ih ⊢
      rw [List.map_cons, List.sum_cons, List.length_cons]
      omega

/- Operands, code with a bound, and a dirty result. -/
theorem Grants.emits
    (h : em.Wf)
    {blk blk' : JitBlock}
    {rs : List (BitVec 5)}
    (hGrants : em.Grants blk rs em' blk')
    (hFew : rs.length ≤ 3)
    {rd : BitVec 5}
    (hMem : rd ∈ rs)
    (hRd : rd ≠ 0)
    {code : Code}
    (hCode : code.length ≤ 24) :
    Emits em blk (em'.setDirty rd) (blk'.emit code) := by
  rcases hGrants.spec h hFew with ⟨hWf, -, hHeld⟩
  rcases (hHeld rd hMem).resolve_left hRd with ⟨i, hSlot⟩
  rcases hGrants.pays h hFew with ⟨before, rfl, hPaid⟩
  have hDirty := owed_setDirty em' rd
  have hLoads := loads_le rs
  refine ⟨hWf.setDirty hSlot, before ++ code,
    blk.emit_emit before code, ?_⟩
  rw [List.length_append]
  omega

/- An R-type frame grants the destination. -/
theorem rOperands_rd
    (optimizeIfRsz : Bool)
    (inst : InstructionData) :
    inst.rd ∈ rOperands optimizeIfRsz inst := by
  unfold rOperands
  repeat' split
  all_goals simp

/- An I-type frame grants the destination. -/
theorem iOperands_rd
    (optimizeIfRsz : Bool)
    (inst : InstructionData) :
    inst.rd ∈ iOperands optimizeIfRsz inst := by
  unfold iOperands
  split <;> simp

/-
  The body of an R-type frame is no longer than its
  template.
-/
theorem rBody_length
    {emitOp : ROp}
    (h : ∀ rd rs1 rs2, (emitOp rd rs1 rs2).length ≤ 24)
    (em : JitEmitter)
    (optimizeIfRsz : Bool)
    (inst : InstructionData) :
    (em.rBody optimizeIfRsz emitOp inst).length ≤ 24 := by
  unfold rBody
  repeat' split
  all_goals first
    | exact h ..
    | exact Nat.le_add_right 3 21

/-
  The body of an I-type frame is no longer than its
  template.
-/
theorem iBody_length
    {emitOp : IOp}
    (h : ∀ rd rs1 imm, (emitOp rd rs1 imm).length ≤ 24)
    (em : JitEmitter)
    (optimizeIfRsz : Bool)
    (inst : InstructionData) :
    (em.iBody optimizeIfRsz emitOp inst).length ≤ 24 := by
  unfold iBody
  repeat' split
  all_goals first
    | exact h ..
    | exact Nat.le_add_right 3 21
    | exact Nat.le_add_right 7 17

end JitEmitter

/- Every template succeeds, for any operands. -/
theorem BoundedTemplate.emits
    {template : JitTemplate}
    (hTemplate : BoundedTemplate template)
    (d : InstructionData)
    {em : JitEmitter}
    (h : em.Wf)
    {blk : JitBlock}
    (hLabels : blk.jmpLabels = []) :
    ∃ em' blk', template d em blk = .ok (em', blk') ∧
      em.Emits blk em' blk' := by
  cases hTemplate with
  | r optimize hBound =>
      by_cases hRd : d.rd = 0
      · exact ⟨em, blk, if_pos hRd, .refl h blk⟩
      · rcases JitEmitter.instEmitRType_spec h blk hRd optimize
          _ with ⟨em₁, blk₁, hGrants, hEq⟩
        exact ⟨_, _, hEq, hGrants.emits h
          (JitEmitter.rOperands_length optimize d)
          (JitEmitter.rOperands_rd optimize d) hRd
          (em₁.rBody_length hBound optimize d)⟩
  | i optimize hBound =>
      by_cases hRd : d.rd = 0
      · exact ⟨em, blk, if_pos hRd, .refl h blk⟩
      · rcases JitEmitter.instEmitIType_spec h blk hRd optimize
          _ with ⟨em₁, blk₁, hGrants, hEq⟩
        exact ⟨_, _, hEq, hGrants.emits h
          (JitEmitter.iOperands_length optimize d)
          (JitEmitter.iOperands_rd optimize d) hRd
          (em₁.iBody_length hBound optimize d)⟩
  | store hBound slow =>
      rcases jitStore_spec h hLabels _ slow d with
        ⟨em₁, blk₁, hGrants, hEq⟩
      rcases hGrants.spec h (by simp) with ⟨hWf, -, -⟩
      rcases hGrants.pays h (by simp) with
        ⟨before, rfl, hPaid⟩
      have hLength := jitStoreCode_length hBound slow
        (em₁.vregs d.rs1) (em₁.vregs d.rs2) d.imm
      rw [hWf.vreg] at hLength
      refine ⟨_, _, hEq, hWf, _, blk.emit_emit before _, ?_⟩
      rw [List.length_append, hLength.2]
      have hFast := hLength.1
      have hRs1 : (if d.rs1 = 0 then 0 else 7) ≤ 7 := by
        split <;> decide
      simp only [JitEmitter.loads, List.map_cons, List.map_nil,
        List.sum_cons, List.sum_nil] at hPaid
      -- a store of `x0` saves the load of its operand
      by_cases hRs2 : d.rs2 = 0
      · rw [if_pos hRs2] at hPaid hFast
        omega
      · rw [if_neg hRs2] at hPaid hFast
        omega

end RiscvEm

------------------------------------------------------------
-- Blocks Under Construction
------------------------------------------------------------

namespace RiscvEm

open JitEmitter

variable {em em' : JitEmitter}
variable {blk blk' : JitBlock}

/- The prologue and 84 bytes for each instruction. -/
structure Paid
    (em : JitEmitter)
    (blk : JitBlock) : Prop where
  wf : em.Wf
  labels : blk.jmpLabels = []
  bytes : blk.bytes.length + em.owed ≤ 18 + 84 * blk.count

namespace Paid

/- The prologue takes 18 bytes. -/
theorem prologue
    (pc : BitVec 64) :
    Paid .reset (rvjitEmitPrologue
      { JitBlock.empty with pc := pc, valid := true }) := by
  have hBytes : prologueCode.length + reset.owed = 18 := by
    decide
  refine ⟨reset_wf, rfl, ?_⟩
  exact hBytes.le

/- One more instruction is counted when it is emitted. -/
theorem emits
    (h : Paid em blk)
    (hEmits : em.Emits blk em' blk') :
    em'.Wf ∧ blk'.jmpLabels = [] ∧
      blk'.bytes.length + em'.owed ≤
        18 + 84 * (blk.count + 1) := by
  rcases hEmits.paid with ⟨code, rfl, hCode⟩
  have hBytes := h.bytes
  have hLength : (blk.emit code).bytes.length =
      blk.bytes.length + code.length :=
    List.length_append
  refine ⟨hEmits.wf, h.labels, ?_⟩
  omega

end Paid

/- The epilogue writes back what is owed, and returns. -/
theorem epilogue_length
    (hLabels : blk.jmpLabels = []) :
    (em.rvjitEmitEpilogue blk).bytes.length =
      blk.bytes.length + em.owed + 7 := by
  have hCode : em.epilogueCode.length = em.owed + 7 := by
    unfold epilogueCode owed
    simp only [List.length_append]
    rfl
  unfold rvjitEmitEpilogue
  rw [JitBlock.realizeLabel_of_none hLabels,
    JitBlock.realizeLabel_of_none hLabels]
  have hEmit : (blk.emit em.epilogueCode).bytes.length =
      blk.bytes.length + em.epilogueCode.length :=
    List.length_append
  rw [hEmit, hCode, Nat.add_assoc]

/- With its epilogue a block of so many bytes fits. -/
theorem epilogue_fits
    {n : Nat}
    (hLabels : blk.jmpLabels = [])
    (hBytes : blk.bytes.length + em.owed ≤ 18 + 84 * n)
    (hMost : n ≤ RVJIT_MAX_INSTRUCTIONS) :
    blk.bytes.length ≤ RVJIT_FUNC_SIZE ∧
      (em.rvjitEmitEpilogue blk).bytes.length ≤
        RVJIT_FUNC_SIZE := by
  rw [epilogue_length hLabels]
  unfold RVJIT_MAX_INSTRUCTIONS at hMost
  unfold RVJIT_FUNC_SIZE
  omega

/- A block that fits passes the check. -/
theorem checkBuffer_ok
    (h : blk.bytes.length ≤ RVJIT_FUNC_SIZE) :
    JitContext.checkBuffer blk = .ok blk :=
  if_neg (Nat.not_lt_of_le h)

namespace JitContext

variable {j j' : JitContext}
variable {host : HostCode}
variable {cache : InstructionCache}
variable {inst : Instruction}
variable {pc : BitVec 64}

/- An instruction of the table is emitted without a fault. -/
theorem emitInstruction_ok
    (hPaid : Paid j.emitter j.block)
    (hFew : j.block.count < RVJIT_MAX_INSTRUCTIONS)
    {template : JitTemplate}
    (hTemplate : BoundedTemplate template)
    (cache : InstructionCache)
    (inst : Instruction) :
    ∃ j', j.emitInstruction template cache inst = .ok j' ∧
      Paid j'.emitter j'.block ∧ j'.blockC = j.blockC := by
  rcases hTemplate.emits cache.data hPaid.wf hPaid.labels with
    ⟨em', blk', hEq, hEmits⟩
  rcases hPaid.emits hEmits with ⟨hWf, hLabels, hBytes⟩
  have hFits := (epilogue_fits hLabels hBytes hFew).1
  have hCount : blk'.count = j.block.count := by
    rcases hEmits.paid with ⟨code, rfl, -⟩
    rfl
  rw [← hCount] at hBytes
  have hOk : j.emitInstruction template cache inst =
      .ok { j with
        emitter := em'
        block := { blk' with
          size := blk'.size + inst.size.setWidth 64
          count := blk'.count + 1
          words := blk'.words ++ [cache.instRaw] } } := by
    unfold emitInstruction
    simp only [hEq, bind, Except.bind, checkBuffer_ok hFits]
  exact ⟨_, hOk, ⟨hWf, hLabels, hBytes⟩, rfl⟩

/- A block is ended without a fault. -/
theorem endBlockGen_ok
    (hPaid : Paid j.emitter j.block)
    (hMost : j.block.count ≤ RVJIT_MAX_INSTRUCTIONS)
    (host : HostCode)
    (pc : BitVec 64) :
    ∃ j', j.endBlockGen host pc = .ok j' ∧
      j'.blockC = false := by
  have hFits := (epilogue_fits hPaid.labels hPaid.bytes
    hMost).2
  have hOk : ∃ j', j.endBlockGen host pc = .ok j' := by
    rcases ensureArena_frame { j with blockC := false } host
      with ⟨arena, used, hArena⟩
    unfold endBlockGen
    simp only [hArena, checkBuffer_ok hFits, bind, Except.bind]
    split <;> exact ⟨_, rfl⟩
  rcases hOk with ⟨j', hEq⟩
  refine ⟨j', hEq, ?_⟩
  rcases endBlockGen_cases hEq with ⟨-, hDone⟩ | ⟨-, hDone⟩
  · rw [hDone]
  · rcases compile_frame j host with
      ⟨blk, arena, used, -, hFrame⟩
    rw [hDone, hFrame]

/-
  The contexts that handling instructions leads to. Other
  members may be changed in between, and a block given up.
-/
inductive Recorded
    (host : HostCode) : JitContext → Prop
  | init (memorySize : BitVec 64) :
      Recorded host (.init memorySize)
  | handle {j j' : JitContext} (before : Recorded host j)
      {inst : Instruction} (table : inst ∈ allInstrs)
      {cache : InstructionCache} {pc : BitVec 64}
      (h : j.handleInstruction host cache inst pc = .ok j') :
      Recorded host j'
  | other {j j' : JitContext} (before : Recorded host j)
      (emitter : j'.emitter = j.emitter)
      (block : j'.block = j.block)
      (building : j'.blockC = true → j.blockC = true) :
      Recorded host j'

/- What every recorded context keeps. -/
structure Keeps
    (j : JitContext) : Prop where
  counted : j.block.Counted
  paid : j.blockC = true → Paid j.emitter j.block

/- No branch runs into the end of the buffer. -/
theorem Keeps.branch
    (h : j.Keeps)
    {out : Except HostFault JitContext}
    (hBranch : Branch j host cache inst pc out) :
    out = .error .assertFailed ∨
      ∃ j', out = .ok j' ∧
        (j'.blockC = true → Paid j'.emitter j'.block) := by
  cases hBranch with
  | kept hits => exact .inr ⟨_, rfl, h.paid⟩
  | noPage => exact .inl rfl
  | ended hits hBuilding hEnds =>
      rcases endBlockGen_ok (j := { j with pcHits := hits })
        (h.paid hBuilding) h.counted.most host pc with
        ⟨j', hEq, hDone⟩
      refine .inr ⟨j', hEq, ?_⟩
      intro hOpen
      rw [hDone] at hOpen
      cases hOpen
  | grown hits hBuilding hFew hTable =>
      rcases emitInstruction_ok (j := { j with pcHits := hits })
        (h.paid hBuilding) hFew (conversionTbl_bounded hTable)
        cache inst with ⟨j', hEq, hPaid, -⟩
      refine .inr ⟨j'.markIgnored pc, ?_, fun _ => hPaid⟩
      rw [hEq]
      rfl
  | begun hits hRam hTable =>
      rcases emitInstruction_ok
        (j := beginBlock { j with pcHits := hits } pc)
        (Paid.prologue pc)
        (show 0 < RVJIT_MAX_INSTRUCTIONS by decide)
        (conversionTbl_bounded hTable) cache inst with
        ⟨j', hEq, hPaid, -⟩
      refine .inr ⟨j'.markIgnored pc, ?_, fun _ => hPaid⟩
      rw [hEq]
      rfl

/- Every recorded context keeps the invariant. -/
theorem Recorded.keeps
    (h : Recorded host j) :
    j.Keeps := by
  induction h with
  | init memorySize =>
      exact ⟨⟨rfl, Nat.zero_le _, Nat.zero_le _⟩, nofun⟩
  | @handle j j' hBefore inst hTable cache pc hEq ih =>
      have hCounted := counted_of_handled ih.counted
        (size_le_four inst hTable) (handled_of_handle hEq)
      refine ⟨hCounted, ?_⟩
      rcases ih.branch (branch_of_handle j host cache inst pc)
        with hFault | ⟨j₁, hOk, hPaid⟩
      · rw [hEq] at hFault
        cases hFault
      · cases hEq.symm.trans hOk
        exact hPaid
  | other hBefore hEmitter hBlock hBuilding ih =>
      constructor
      · rw [hBlock]
        exact ih.counted
      · intro hOpen
        rw [hEmitter, hBlock]
        exact ih.paid (hBuilding hOpen)

end JitContext

end RiscvEm

------------------------------------------------------------
-- Blocks Fit
------------------------------------------------------------

namespace RiscvEm

open JitEmitter

variable {host : HostCode}
variable {j : JitContext}

/-
  The emitter and the block that the template of the
  instruction at `pc` is called with: those of the block
  under construction, or those of a new one.
-/
inductive JitContext.EmitsInto
    (j : JitContext)
    (pc : BitVec 64) : JitEmitter → JitBlock → Prop
  | grown (building : j.blockC = true)
      (few : j.block.count < RVJIT_MAX_INSTRUCTIONS) :
      EmitsInto j pc j.emitter j.block
  | begun :
      EmitsInto j pc .reset (rvjitEmitPrologue
        { JitBlock.empty with pc := pc, valid := true })

/-
  The calls of `realize_label` while an instruction is
  emitted, and in the epilogue if it is the last one.
-/
inductive RealizeCall
    (slow : SlowFuncs)
    (op : Op)
    (d : InstructionData)
    (em : JitEmitter)
    (blk : JitBlock) : JitBlock → Label → Prop
  | fastPath {fastMov : FastMov} {size : MemorySize}
      {em₁ : JitEmitter} {blk₁ : JitBlock}
      (parts : storeParts op = some (fastMov, size))
      (grants : em.Grants blk [d.rs1, d.rs2] em₁ blk₁) :
      RealizeCall slow op d em blk
        (storeSlowBlock (slow size) (em₁.vregs d.rs1)
          (em₁.vregs d.rs2) d.imm blk₁) .fastPath
  | done {fastMov : FastMov} {size : MemorySize}
      {em₁ : JitEmitter} {blk₁ : JitBlock}
      (parts : storeParts op = some (fastMov, size))
      (grants : em.Grants blk [d.rs1, d.rs2] em₁ blk₁) :
      RealizeCall slow op d em blk
        (storeFastBlock fastMov (slow size) (em₁.vregs d.rs1)
          (em₁.vregs d.rs2) d.imm blk₁) .done
  | epilogue {template : JitTemplate}
      {em' : JitEmitter} {blk' : JitBlock}
      (table : conversionTbl slow op = some template)
      (emit : template d em blk = .ok (em', blk')) :
      RealizeCall slow op d em blk blk' .epilogue
  | branch {template : JitTemplate}
      {em' : JitEmitter} {blk' : JitBlock}
      (table : conversionTbl slow op = some template)
      (emit : template d em blk = .ok (em', blk')) :
      RealizeCall slow op d em blk
        (blk'.realizeLabel .epilogue) .branch

/- Every jump that is patched leads to its label. -/
theorem RealizeCall.exact
    {slow : SlowFuncs}
    {op : Op}
    {d : InstructionData}
    {em : JitEmitter}
    {blk place : JitBlock}
    {label : Label}
    (h : em.Wf)
    (hLabels : blk.jmpLabels = [])
    (hCall : RealizeCall slow op d em blk place label) :
    place.Exact label := by
  have hOperands : ∀ em₁ blk₁,
      em.Grants blk [d.rs1, d.rs2] em₁ blk₁ →
        blk₁.jmpLabels = [] := by
    intro em₁ blk₁ hGrants
    rcases hGrants.spec h (by simp) with ⟨-, ⟨code, rfl⟩, -⟩
    exact hLabels
  have hEmitted : ∀ template em' blk',
      conversionTbl slow op = some template →
        template d em blk = .ok (em', blk') →
          blk'.jmpLabels = [] := by
    intro template em' blk' hTable hEmit
    rcases (conversionTbl_bounded hTable).emits d h hLabels
      with ⟨em₁, blk₁, hEq, hEmits⟩
    cases hEq.symm.trans hEmit
    rcases hEmits.paid with ⟨code, rfl, -⟩
    exact hLabels
  cases hCall with
  | fastPath hParts hGrants =>
      exact storeSlowBlock_exact (hOperands _ _ hGrants)
  | @done fastMov size em₁ blk₁ hParts hGrants =>
      have hBound := (conversionTbl_store hParts slow).2
      have hLength := (jitStoreCode_length hBound (slow size)
        (em₁.vregs d.rs1) (em₁.vregs d.rs2) d.imm).1
      refine storeFastBlock_exact (hOperands _ _ hGrants) ?_
      split at hLength <;> omega
  | epilogue hTable hEmit =>
      exact JitBlock.exact_of_no_labels
        (hEmitted _ _ _ hTable hEmit) _
  | branch hTable hEmit =>
      have hNone := hEmitted _ _ _ hTable hEmit
      rw [JitBlock.realizeLabel_of_none hNone]
      exact JitBlock.exact_of_no_labels hNone _

/-
  No instruction runs into the end of the buffer. Whatever is
  recorded, the code with its epilogue is short enough for
  `push_function`, `inst_addr_jmp` has an element for the
  size of the block, and each patched displacement is the
  distance.
-/
theorem emitted_blocks_fit
    (hRecorded : j.Recorded host)
    (cache : InstructionCache)
    (inst : Instruction)
    (pc : BitVec 64) :
    j.handleInstruction host cache inst pc ≠
        .error .outOfBounds ∧
      (j.blockC = true →
        (j.emitter.rvjitEmitEpilogue j.block).bytes.length ≤
          RVJIT_FUNC_SIZE) ∧
      ∀ em blk, j.EmitsInto pc em blk →
        blk.size.toNat < RVJIT_FUNC_SIZE * 4 ∧
          (∀ template,
            conversionTbl host.slow inst.func =
                some template →
              ∃ em' blk',
                template cache.data em blk =
                    .ok (em', blk') ∧
                  blk'.bytes.length ≤ RVJIT_FUNC_SIZE ∧
                  (em'.rvjitEmitEpilogue blk').bytes.length ≤
                    RVJIT_FUNC_SIZE) ∧
          ∀ place label,
            RealizeCall host.slow inst.func cache.data em blk
                place label →
              place.Exact label := by
  have hKeeps := hRecorded.keeps
  refine ⟨?_, ?_, ?_⟩
  · rcases hKeeps.branch
      (JitContext.branch_of_handle j host cache inst pc) with
      hFault | ⟨j', hOk, -⟩
    · rw [hFault]
      exact nofun
    · rw [hOk]
      exact nofun
  · intro hBuilding
    have hPaid := hKeeps.paid hBuilding
    exact (epilogue_fits hPaid.labels hPaid.bytes
      hKeeps.counted.most).2
  · intro em blk hInto
    have hPaid : Paid em blk ∧
        blk.count < RVJIT_MAX_INSTRUCTIONS ∧
          blk.size.toNat ≤ 4 * blk.count := by
      cases hInto with
      | grown hBuilding hFew =>
          exact ⟨hKeeps.paid hBuilding, hFew,
            hKeeps.counted.size⟩
      | begun =>
          exact ⟨.prologue pc,
            show 0 < RVJIT_MAX_INSTRUCTIONS by decide,
            Nat.zero_le _⟩
    rcases hPaid with ⟨hPaid, hFew, hSize⟩
    refine ⟨?_, ?_, ?_⟩
    · unfold RVJIT_MAX_INSTRUCTIONS at hFew
      unfold RVJIT_FUNC_SIZE
      omega
    · intro template hTable
      rcases (conversionTbl_bounded hTable).emits cache.data
        hPaid.wf hPaid.labels with ⟨em', blk', hEq, hEmits⟩
      rcases hPaid.emits hEmits with ⟨-, hLabels, hBytes⟩
      exact ⟨em', blk', hEq, epilogue_fits hLabels hBytes hFew⟩
    · intro place label hCall
      exact hCall.exact hPaid.wf hPaid.labels

def sdRegistration : Registration :=
  ⟨"*****************011*****0100011", _, rfl, .SD,
    some immS⟩

/- The entry of `SD` in the table. -/
def sdEntry : Instruction :=
  sdRegistration.instruction

/- `SD` is in the table. -/
theorem sdEntry_mem :
    sdEntry ∈ allInstrs := by
  have hPlace : registrations[38]? = some sdRegistration := rfl
  unfold allInstrs sdEntry
  exact List.mem_map_of_mem (List.mem_of_getElem? hPlace)

/- `sd x5, 8(x6)` is executed `n` times at one place. -/
def recordStore : Nat → Except HostFault JitContext
  | 0 => .ok (.init 0x100000)
  | n + 1 => do
      let j ← recordStore n
      j.handleInstruction Platform.bare.host
        ⟨0x80000000, 0x00533423, none,
          ⟨0x00533423, 6, 5, 0, 8, 0, 0⟩, true⟩
        sdEntry 0x80000000

/- The contexts of the recorded stores are recorded. -/
theorem recorded_recordStore
    {n : Nat}
    (h : recordStore n = .ok j) :
    j.Recorded Platform.bare.host := by
  induction n generalizing j with
  | zero =>
      cases h
      exact .init 0x100000
  | succ n ih =>
      rcases bind_eq_ok.mp h with ⟨j₁, hBefore, hHandle⟩
      exact (ih hBefore).handle sdEntry_mem hHandle

/-
  The block that the store begins once it is hot grows by
  `sd x6, 16(x5)`.
-/
theorem emitted_blocks_fit_store :
    ∃ j em blk, recordStore 101 = .ok j ∧
      j.blockC = true ∧ j.block.count = 1 ∧
      execjitSD Platform.bare.host.slow
          ⟨0x0062B823, 5, 6, 0, 16, 0, 0⟩ j.emitter
            j.block = .ok (em, blk) ∧
      (em.rvjitEmitEpilogue blk).bytes.length ≤
        RVJIT_FUNC_SIZE := by
  have hGrows : (recordStore 101).toOption.map
      (fun j => (j.blockC, j.block.count)) =
        some (true, 1) := by decide +kernel
  rcases Option.map_eq_some_iff.mp hGrows with
    ⟨j, hStored, hBlock⟩
  rw [toOption_eq_some] at hStored
  have hBuilding := congrArg Prod.fst hBlock
  have hCount := congrArg Prod.snd hBlock
  have hFit := emitted_blocks_fit
    (recorded_recordStore hStored)
    ⟨0x80000004, 0x0062B823, none,
      ⟨0x0062B823, 5, 6, 0, 16, 0, 0⟩, true⟩
    sdEntry 0x80000004
  have hFew : j.block.count < RVJIT_MAX_INSTRUCTIONS :=
    hCount.trans_lt (by decide)
  rcases (hFit.2.2 _ _ (.grown hBuilding hFew)).2.1 _ rfl with
    ⟨em, blk, hEq, -, hLength⟩
  exact ⟨j, em, blk, hStored, hBuilding, hCount, hEq, hLength⟩

end RiscvEm
