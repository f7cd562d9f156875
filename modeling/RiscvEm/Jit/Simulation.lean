import RiscvEm.Jit.Allocator
import RiscvEm.Jit.Run

/-
  Compiled code against the registers of the guest: what a
  machine in the middle of a block has to do with the state
  that the interpreter would be in.

  A guest register is in its host register, or in `GPR`
  unless it is dirty. The relation is kept by everything that
  the emitter does around the templates.

  Key definitions include:
    * `Holds`
    * `IdleKept`

  Key theorems include:
    * `Holds.allocates`
    * `Holds.sets`
    * `holds_prologue`
    * `Holds.epilogue`
-/

------------------------------------------------------------
-- The Register Array
------------------------------------------------------------

namespace RiscvEm

open X86

variable {σ : Type}
variable {P : Platform σ}

/- The state with another register array. -/
def State.withGprs
    (s : State σ)
    (g : BitVec 5 → BitVec 64) : State σ :=
  s.setHart { s.hart with GPR := g }

/- The address of an element of the register array. -/
def regPlace
    (P : Platform σ)
    (r : BitVec 5) : BitVec 64 :=
  P.layout.regs + r.setWidth 64 * 8

theorem toNat_regPlace
    (P : Platform σ)
    (r : BitVec 5) :
    (regPlace P r).toNat =
      P.layout.regs.toNat + r.toNat * 8 := by
  have hr := r.isLt
  have hRegs := P.disjoint.regs_le
  unfold regPlace
  rw [BitVec.toNat_add, BitVec.toNat_mul,
    BitVec.toNat_setWidth]
  have hEight : (8 : BitVec 64).toNat = 8 := rfl
  rw [hEight]
  omega

theorem regPlace_sub_regs
    (P : Platform σ)
    (r : BitVec 5) :
    (regPlace P r - P.layout.regs).toNat = r.toNat * 8 := by
  have hr := r.isLt
  have hRegs := P.disjoint.regs_le
  rw [BitVec.toNat_sub, toNat_regPlace]
  omega

/- The register array is apart from the context. -/
theorem regPlace_sub_ctx
    (P : Platform σ)
    (r : BitVec 5) :
    56 ≤ (regPlace P r - P.layout.ctx).toNat := by
  have hr := r.isLt
  have hRegs := P.disjoint.regs_le
  have hCtx := P.disjoint.ctx_le
  have hApart := P.disjoint.ctx_regs
  rw [BitVec.toNat_sub, toNat_regPlace]
  rcases hApart with hBefore | hBehind
  · omega
  · omega

theorem regPlace_field
    (P : Platform σ)
    (r : BitVec 5)
    {k : BitVec 64}
    (hk : k.toNat < 56) :
    regPlace P r - P.layout.ctx ≠ k := by
  rintro rfl
  have hFar := regPlace_sub_ctx P r
  omega

theorem contextLoad_reg
    (P : Platform σ)
    (s : State σ)
    (r : BitVec 5) :
    contextLoad P s (regPlace P r) = some (s.gpr r) := by
  have hr := r.isLt
  have hSub := regPlace_sub_regs P r
  unfold contextLoad
  dsimp only
  rw [if_neg (regPlace_field P r (by decide)),
    if_neg (regPlace_field P r (by decide)),
    if_neg (regPlace_field P r (by decide)),
    if_neg (regPlace_field P r (by decide)), hSub,
    if_pos (by omega), Nat.mul_div_cancel _ (by decide),
    BitVec.ofNat_toNat, BitVec.setWidth_eq]

theorem contextStore_reg
    (P : Platform σ)
    (s : State σ)
    (r : BitVec 5)
    (v : BitVec 64) :
    contextStore P s (regPlace P r) 8 v =
      some (s.setGpr r v) := by
  have hr := r.isLt
  have hSub := regPlace_sub_regs P r
  unfold contextStore
  dsimp only
  rw [hSub, if_pos (by omega), Nat.mul_div_cancel _ (by decide),
    BitVec.ofNat_toNat, BitVec.setWidth_eq]

end RiscvEm

------------------------------------------------------------
-- The Relation
------------------------------------------------------------

namespace RiscvEm

open X86

variable {σ : Type}
variable {P : Platform σ}
variable {stack : List (BitVec 64)}
variable {t : State σ}
variable {em em' : JitEmitter}
variable {m m' : X86.Machine (State σ)}

/-
  The machine `m` stands for the state `t`: a guest register
  is in the host register that holds it, and its element of
  `GPR` is right unless it is dirty.
-/
structure Holds
    (P : Platform σ)
    (stack : List (BitVec 64))
    (t : State σ)
    (em : JitEmitter)
    (m : X86.Machine (State σ)) : Prop where
  wf : em.Wf
  ctx : m.regs 12 = P.layout.ctx
  regs : m.regs 13 = P.layout.regs
  ram : m.regs 14 = P.layout.ram
  stack : m.stack = stack
  mem : m.mem = t.withGprs m.mem.hart.GPR
  held : ∀ i r, em.slot i = some r →
    m.regs (hostOf i) = t.gpr r
  clean : ∀ r, (em.vregs r).dirty = false →
    m.mem.gpr r = t.gpr r

/- The host registers that hold no guest are as before. -/
def IdleKept
    (em : JitEmitter)
    (m m' : X86.Machine (State σ)) : Prop :=
  ∀ j, em.slot j = none →
    m'.regs (hostOf j) = m.regs (hostOf j)

theorem machine_regAddr
    (h : Holds P stack t em m)
    (r : BitVec 5) :
    m.addr (regAddr r) = regPlace P r := by
  show m.regs 13 + 0#64 + _ = _
  rw [h.regs, BitVec.add_zero]
  rfl

theorem runs_loadCode
    (h : Holds P stack t em m)
    (i : Fin 8)
    (r : BitVec 5) :
    (jitEnv P).Runs (JitEmitter.loadCode i r) m
      (m.setReg (hostOf i) (m.mem.gpr r)) := by
  have hDecode := decode_loadReg (hostOf i) r
  rw [hostByte_hostOf] at hDecode
  apply Env.Runs.instr hDecode
  show (contextLoad P m.mem (m.addr (regAddr r))).bind _ = _
  rw [machine_regAddr h, contextLoad_reg]
  rfl

theorem runs_storeCode
    (h : Holds P stack t em m)
    (i : Fin 8)
    (r : BitVec 5) :
    (jitEnv P).Runs (JitEmitter.storeCode i r) m
      { m with mem := m.mem.setGpr r (m.regs (hostOf i)) } := by
  have hDecode := decode_storeReg (hostOf i) r
  rw [hostByte_hostOf] at hDecode
  apply Env.Runs.instr hDecode
  show (contextStore P m.mem (m.addr (regAddr r)) 8 _).bind _ =
    _
  rw [machine_regAddr h, contextStore_reg]
  rfl

namespace Holds

/- Different guest registers are in different host registers. -/
theorem other_reg
    {i j : Fin 8}
    (hj : j ≠ i)
    (v : BitVec 64) :
    (m.setReg (hostOf i) v).regs (hostOf j) =
      m.regs (hostOf j) := by
  apply Machine.setReg_of_ne
  intro hEq
  exact hj (hostOf_injective hEq)

/- Nothing moves. -/
theorem hit
    (h : Holds P stack t em m)
    (hWf : em'.Wf)
    (hSlots : em'.slot = em.slot)
    (hVRegs : em'.vregs = em.vregs) :
    Holds P stack t em' m := by
  refine ⟨hWf, h.ctx, h.regs, h.ram, h.stack, h.mem, ?_, ?_⟩
  · rw [hSlots]
    exact h.held
  · rw [hVRegs]
    exact h.clean

/- A guest register gets a host register. -/
theorem load
    (h : Holds P stack t em m)
    {i : Fin 8}
    {r : BitVec 5}
    (hClean : (em.vregs r).dirty = false)
    (hLoaded : em.Loaded em' i r) :
    Holds P stack t em'
      (m.setReg (hostOf i) (m.mem.gpr r)) := by
  have hNe := hostOf_ne i
  refine ⟨hLoaded.wf, ?_, ?_, ?_, h.stack, h.mem, ?_, ?_⟩
  · rw [Machine.setReg_of_ne hNe.2.1.symm]
    exact h.ctx
  · rw [Machine.setReg_of_ne hNe.2.2.1.symm]
    exact h.regs
  · rw [Machine.setReg_of_ne hNe.2.2.2.symm]
    exact h.ram
  · intro j q hj
    by_cases hji : j = i
    · subst hji
      cases hLoaded.slot.symm.trans hj
      rw [Machine.setReg_self]
      exact h.clean r hClean
    · rw [other_reg hji]
      exact h.held j q ((hLoaded.slots j hji).symm.trans hj)
  · intro q hq
    by_cases hEq : q = r
    · subst hEq
      exact h.clean q hClean
    · rw [hLoaded.vregs q hEq] at hq
      exact h.clean q hq

/- A host register is given up. -/
theorem spill
    (h : Holds P stack t em m)
    {i : Fin 8}
    {g : BitVec 5}
    (hSlot : em.slot i = some g) :
    ∃ m', (jitEnv P).Runs
        (if (em.vregs g).dirty then JitEmitter.storeCode i g
          else []) m m' ∧
      Holds P stack t (em.free i g) m' ∧
      m'.regs = m.regs := by
  have hOther : ∀ j q, (em.free i g).slot j = some q →
      em.slot j = some q := by
    intro j q hj
    have hji : j ≠ i := by
      rintro rfl
      rw [JitEmitter.free_slot_self] at hj
      cases hj
    exact (JitEmitter.free_slot_of_ne hji g).symm.trans hj
  have hVReg : ∀ q, q ≠ g →
      (em.free i g).vregs q = em.vregs q :=
    fun q hq => JitEmitter.setVReg_of_ne _ hq _
  cases hDirty : (em.vregs g).dirty with
  | true =>
      refine ⟨_, runs_storeCode h i g, ⟨h.wf.release hSlot,
        h.ctx, h.regs, h.ram, h.stack, ?_, ?_, ?_⟩, rfl⟩
      · show m.mem.setGpr g _ = t.withGprs _
        rw [h.mem]
        rfl
      · intro j q hj
        exact h.held j q (hOther j q hj)
      · intro q hq
        show Function.update m.mem.hart.GPR g _ q = _
        by_cases hEq : q = g
        · subst hEq
          rw [Function.update_self]
          exact h.held i q hSlot
        · rw [Function.update_of_ne hEq]
          rw [hVReg q hEq] at hq
          exact h.clean q hq
  | false =>
      refine ⟨m, .nil m, ⟨h.wf.release hSlot, h.ctx, h.regs,
        h.ram, h.stack, h.mem, ?_, ?_⟩, rfl⟩
      · intro j q hj
        exact h.held j q (hOther j q hj)
      · intro q hq
        by_cases hEq : q = g
        · subst hEq
          exact h.clean q hDirty
        · rw [hVReg q hEq] at hq
          exact h.clean q hq

/- A load changes the one host register that it fills. -/
theorem idleKept_load
    {em : JitEmitter}
    {i : Fin 8}
    {r : BitVec 5}
    (hLoaded : em.Loaded em' i r)
    (v : BitVec 64) :
    IdleKept em' m (m.setReg (hostOf i) v) := by
  intro j hFree
  refine other_reg ?_ v
  rintro rfl
  cases hFree.symm.trans hLoaded.slot

/- The allocator's code keeps the relation. -/
theorem allocates
    (h : Holds P stack t em m)
    {r : BitVec 5}
    {locked : BitVec 64}
    {code : Code}
    (hAlloc : em.Allocates r locked em' code) :
    ∃ m', (jitEnv P).Runs code m m' ∧
      Holds P stack t em' m' ∧ IdleKept em' m m' := by
  cases hAlloc with
  | zero hr => exact ⟨m, .nil m, h, fun _ _ => rfl⟩
  | hit hSlot hWf hSlots hVRegs =>
      exact ⟨m, .nil m, h.hit hWf hSlots hVRegs,
        fun _ _ => rfl⟩
  | @load _ i hUnlocked hFree hIdle hLoaded =>
      exact ⟨_, runs_loadCode h i r,
        h.load (h.wf.idle r hIdle).2 hLoaded,
        idleKept_load hLoaded _⟩
  | @spill _ i g hUnlocked hSlot hNe hIdle hLoaded =>
      rcases h.spill hSlot with ⟨m₁, hRuns, hFreed, hSame⟩
      have hClean : ((em.free i g).vregs r).dirty = false := by
        have hSame : (em.free i g).vregs r = em.vregs r :=
          JitEmitter.setVReg_of_ne _ hNe _
        rw [hSame]
        exact (h.wf.idle r hIdle).2
      refine ⟨_, hRuns.append (runs_loadCode hFreed i r),
        hFreed.load hClean hLoaded, ?_⟩
      intro j hFree
      rw [idleKept_load hLoaded _ j hFree, hSame]

/- An instruction writes its result into a host register. -/
theorem write
    (h : Holds P stack t em m)
    {i : Fin 8}
    {r : BitVec 5}
    (hSlot : em.slot i = some r)
    {v : BitVec 64}
    (hValue : m'.regs (hostOf i) = v)
    (hOther : ∀ j q, j ≠ i → em.slot j = some q →
      m'.regs (hostOf j) = t.gpr q)
    (hFrame : m'.regs 12 = m.regs 12 ∧
      m'.regs 13 = m.regs 13 ∧ m'.regs 14 = m.regs 14)
    (hStack : m'.stack = m.stack)
    (hMem : m'.mem = m.mem) :
    Holds P stack (t.setGpr r v) (em.setDirty r) m' := by
  refine ⟨h.wf.setDirty hSlot, ?_, ?_, ?_, ?_, ?_, ?_, ?_⟩
  · rw [hFrame.1]
    exact h.ctx
  · rw [hFrame.2.1]
    exact h.regs
  · rw [hFrame.2.2]
    exact h.ram
  · rw [hStack]
    exact h.stack
  · rw [hMem, h.mem]
    rfl
  · intro j q hj
    by_cases hji : j = i
    · subst hji
      cases hSlot.symm.trans hj
      rw [hValue]
      show v = Function.update t.hart.GPR r v r
      rw [Function.update_self]
    · have hNe : q ≠ r := by
        rintro rfl
        exact hji (h.wf.slot_unique hj hSlot)
      rw [hOther j q hji hj]
      exact (Function.update_of_ne hNe _ _).symm
  · intro q hq
    by_cases hEq : q = r
    · subst hEq
      have hDirty : ((em.setDirty q).vregs q).dirty = true :=
        congrArg VReg.dirty
          (JitEmitter.setVReg_self em q _)
      rw [hDirty] at hq
      cases hq
    · have hSame : (em.setDirty r).vregs q = em.vregs q :=
        JitEmitter.setVReg_of_ne _ hEq _
      rw [hSame] at hq
      rw [hMem, h.clean q hq]
      exact (Function.update_of_ne hEq _ _).symm

/- The usual case: nothing else but `RCX` is touched. -/
theorem sets
    (h : Holds P stack t em m)
    {i : Fin 8}
    {r : BitVec 5}
    (hSlot : em.slot i = some r)
    {code : Code}
    {v : BitVec 64}
    (hSets : Sets (jitEnv P) code (hostOf i) v m) :
    ∃ m', (jitEnv P).Runs code m m' ∧
      Holds P stack (t.setGpr r v) (em.setDirty r) m' := by
  rcases hSets with ⟨m', hRuns, hOnly, hValue⟩
  have hNe := hostOf_ne i
  refine ⟨m', hRuns, h.write hSlot hValue ?_ ⟨?_, ?_, ?_⟩
    hOnly.stack hOnly.mem⟩
  · intro j q hji hj
    rw [← h.held j q hj]
    apply hOnly.regs
    · intro hEq
      exact hji (hostOf_injective hEq)
    · exact (hostOf_ne j).1
  · exact hOnly.regs 12 hNe.2.1.symm (by decide)
  · exact hOnly.regs 13 hNe.2.2.1.symm (by decide)
  · exact hOnly.regs 14 hNe.2.2.2.symm (by decide)

end Holds

end RiscvEm

------------------------------------------------------------
-- Prologue And Epilogue
------------------------------------------------------------

namespace RiscvEm

open X86

variable {σ : Type}
variable {P : Platform σ}
variable {t : State σ}
variable {em : JitEmitter}

/- The machine at the call of a block. -/
def entryMachine
    (P : Platform σ)
    (s : State σ) : X86.Machine (State σ) :=
  { regs := Function.update P.clobber 7 P.layout.ctx
    flags := none
    stack := []
    mem := s }

/- The values that the prologue saves. -/
def savedRegs
    (P : Platform σ) : List (BitVec 64) :=
  [P.clobber 14, P.clobber 13, P.clobber 12]

/- The prologue loads the context and no guest register. -/
theorem holds_prologue
    (P : Platform σ)
    (s : State σ) :
    ∃ m, (jitEnv P).Runs JitEmitter.prologueCode
        (entryMachine P s) m ∧
      Holds P (savedRegs P) s .reset m := by
  have hPush : ∀ (r : Reg) (m : X86.Machine (State σ)),
      (jitEnv P).Runs (push (hostByte r)) m
        { m with stack := m.regs r :: m.stack } :=
    fun r m => .instr (decode_push r) rfl
  have hLoad : ∀ (code : Code) (d : Reg) (a : Addr)
      (v : BitVec 64) (m : X86.Machine (State σ)),
      decode code = some (.load d a, []) →
      contextLoad P m.mem (m.addr a) = some v →
      (jitEnv P).Runs code m (m.setReg d v) := by
    intro code d a v m hDecode hValue
    apply Env.Runs.instr hDecode
    show (contextLoad P m.mem (m.addr a)).bind _ = _
    rw [hValue]
    rfl
  have hRegs : contextLoad P s (P.layout.ctx + 0#64 + 0#64) =
      some P.layout.regs := by
    simp [contextLoad, CTX_REGS]
  have hRam : contextLoad P s (P.layout.ctx + 0#64 + 8#64) =
      some P.layout.ram := by
    have hSub : P.layout.ctx + 8#64 - P.layout.ctx = 8#64 := by
      rw [BitVec.add_comm, BitVec.add_sub_cancel]
    simp [contextLoad, CTX_REGS, CTX_RAM, hSub]
  refine ⟨_, ((((hPush 12 _).append (hPush 13 _)).append
    (hPush 14 _)).append (runs_mov _ 12 7)).append
      (hLoad _ 13 ⟨12, none, 0, 0⟩ P.layout.regs _ rfl ?_)
    |>.append (hLoad _ 14 ⟨12, none, 0, 8⟩ P.layout.ram _ rfl ?_),
    ?_⟩
  · exact hRegs
  · exact hRam
  · refine ⟨JitEmitter.reset_wf, ?_, ?_, ?_, ?_, rfl, ?_, ?_⟩
    · simp [Machine.setReg, entryMachine]
    · simp [Machine.setReg, entryMachine]
    · simp [Machine.setReg, entryMachine]
    · simp [Machine.setReg, entryMachine, savedRegs]
    · intro i r hSlot
      cases hSlot
    · intro r _
      rfl

/- Some registers are written back, and the others stay. -/
theorem Holds.writeBack
    {stack : List (BitVec 64)}
    {m : X86.Machine (State σ)}
    (h : Holds P stack t em m)
    (rs : List (BitVec 5)) :
    ∃ g, (jitEnv P).Runs
        (rs.flatMap fun r => JitEmitter.writeBack (em.vregs r)) m
        { m with mem := t.withGprs g } ∧
      ∀ r, r ∈ rs ∨ m.mem.gpr r = t.gpr r → g r = t.gpr r := by
  induction rs generalizing m with
  | nil =>
      refine ⟨m.mem.hart.GPR, ?_, ?_⟩
      · rw [← h.mem]
        exact .nil m
      · intro r hr
        rcases hr with hMem | hSame
        · cases hMem
        · exact hSame
  | cons r rs ih =>
      rw [List.flatMap_cons]
      cases hDirty : (em.vregs r).dirty with
      | false =>
          rcases ih h with ⟨g, hRuns, hBack⟩
          refine ⟨g, ?_, ?_⟩
          · rw [writeBack_clean hDirty, List.nil_append]
            exact hRuns
          · intro q hq
            apply hBack
            rcases hq with hMem | hSame
            · rcases List.mem_cons.mp hMem with rfl | hMem
              · exact .inr (h.clean q hDirty)
              · exact .inl hMem
            · exact .inr hSame
      | true =>
          rcases h.wf.slot_of_dirty hDirty with ⟨i, hSlot⟩
          have hValue := h.held i r hSlot
          have hGpr : ∀ q, m.mem.gpr q = t.gpr q ∨ q = r →
              (m.mem.setGpr r (m.regs (hostOf i))).gpr q =
                t.gpr q := by
            intro q hq
            show Function.update m.mem.hart.GPR r _ q = _
            by_cases hEq : q = r
            · subst hEq
              rw [Function.update_self]
              exact hValue
            · rw [Function.update_of_ne hEq]
              exact hq.resolve_right hEq
          have hStored : Holds P stack t em { m with
              mem := m.mem.setGpr r (m.regs (hostOf i)) } := by
            refine ⟨h.wf, h.ctx, h.regs, h.ram, h.stack, ?_,
              h.held, ?_⟩
            · show m.mem.setGpr r _ = t.withGprs _
              rw [h.mem]
              rfl
            · intro q hq
              exact hGpr q (.inl (h.clean q hq))
          rcases ih hStored with ⟨g, hRuns, hBack⟩
          refine ⟨g, ?_, ?_⟩
          · rw [writeBack_dirty h.wf hSlot hDirty]
            exact (runs_storeCode h i r).append hRuns
          · intro q hq
            apply hBack
            rcases hq with hMem | hSame
            · rcases List.mem_cons.mp hMem with rfl | hMem
              · exact .inr (hGpr q (.inr rfl))
              · exact .inl hMem
            · exact .inr (hGpr q (.inl hSame))

/- The whole epilogue but the return. -/
theorem Holds.epilogue
    {m : X86.Machine (State σ)}
    (h : Holds P (savedRegs P) t em m) :
    ∃ m', (jitEnv P).Runs
        (JitEmitter.guestRegs.flatMap
            (fun r => JitEmitter.writeBack (em.vregs r)) ++
          pop REG_R14 ++ pop REG_R13 ++ pop REG_R12) m m' ∧
      m'.stack = [] ∧ m'.mem = t := by
  rcases h.writeBack JitEmitter.guestRegs with
    ⟨g, hRuns, hBack⟩
  have hMem : t.withGprs g = t := by
    have hEq : g = t.hart.GPR := by
      funext r
      exact hBack r (.inl (mem_guestRegs r))
    rw [hEq]
    rfl
  rw [hMem] at hRuns
  have hPop : ∀ (r : Reg) (v : BitVec 64)
      (vs : List (BitVec 64)) (n : X86.Machine (State σ)),
      n.stack = v :: vs →
      (jitEnv P).Runs (pop (hostByte r)) n
        { (n.setReg r v) with stack := vs } := by
    intro r v vs n hStack
    apply Env.Runs.instr (decode_pop r)
    simp [Env.exec, hStack]
  refine ⟨_, ((hRuns.append (hPop 14 (P.clobber 14) _ _ ?_)
    ).append (hPop 13 (P.clobber 13) _ _ rfl)).append
      (hPop 12 (P.clobber 12) [] _ rfl), rfl, rfl⟩
  exact h.stack

end RiscvEm
