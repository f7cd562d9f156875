import RiscvEm.Devices.PlicRuns
import RiscvEm.Devices.Uart
import RiscvEm.Jit.StoreRuns

/-
  The allocator's tables and the compiled code, at every
  point of a block: where the code has arrived, the tables
  say where the value of a guest register is.

  A store that calls its slow function loses what is held in
  `R8` to `R11`, and it passes on a pointer to the hart that
  only the constructor has set. An instruction on words whose
  immediate is zero is compiled to a copy of its source. The
  results are about runs in which none of this shows.

  Key definitions include:
    * `JitEmitter.Coherent`
    * `JitEmitter.HoldsValues`
    * `guestStep`
    * `Compiled`
    * `AllocatorInvariant`

  Key theorems include `allocator_invariant`.
-/

------------------------------------------------------------
-- Tables And Values
------------------------------------------------------------

namespace RiscvEm

variable {σ : Type}

namespace JitEmitter

/-
  The two tables refer to each other, and no host register
  is given to two guest registers.
-/
structure Coherent
    (em : JitEmitter) : Prop where
  mapped : ∀ r, (em.vregs r).allocated = true →
    ∃ i, (em.vregs r).hostReg = hostRegArray i ∧
      (em.hostRegs i).hostReg = hostRegArray i ∧
      (em.hostRegs i).used = true ∧
      (em.hostRegs i).vreg = some r
  distinct : ∀ r q, (em.vregs r).allocated = true →
    (em.vregs q).allocated = true →
      (em.vregs r).hostReg = (em.vregs q).hostReg → r = q

/- Where the machine has the values `cur`. -/
structure HoldsValues
    (em : JitEmitter)
    (cur : BitVec 5 → BitVec 64)
    (m : X86.Machine (State σ)) : Prop where
  host : ∀ r, (em.vregs r).allocated = true →
    (em.vregs r).valid = true →
      m.regs ((em.vregs r).hostReg.setWidth 4) = cur r
  memory : ∀ r, (em.vregs r).dirty = false →
    m.mem.gpr r = cur r

/- A mapping both ways is coherent. -/
theorem Coherent.of_mapped
    {em : JitEmitter}
    (h : ∀ r, (em.vregs r).allocated = true →
      ∃ i, (em.vregs r).hostReg = hostRegArray i ∧
        (em.hostRegs i).hostReg = hostRegArray i ∧
        (em.hostRegs i).used = true ∧
        (em.hostRegs i).vreg = some r) :
    em.Coherent := by
  refine ⟨h, ?_⟩
  intro r q hr hq hSame
  rcases h r hr with ⟨i, hi, -, -, hHolds⟩
  rcases h q hq with ⟨j, hj, -, -, hHolds'⟩
  have hij : i = j := by
    apply hostRegArray_injective
    rw [← hi, ← hj, hSame]
  subst hij
  exact Option.some.inj (hHolds.symm.trans hHolds')

/- A slot that is held is used. -/
theorem used_of_slot
    {em : JitEmitter}
    {i : Fin 8}
    {r : BitVec 5}
    (h : em.slot i = some r) :
    (em.hostRegs i).used = true ∧
      (em.hostRegs i).vreg = some r := by
  unfold slot at h
  split at h
  case isTrue hUsed => exact ⟨hUsed, h⟩
  case isFalse => cases h

/- Well-formed emitters are coherent. -/
theorem Wf.coherent
    {em : JitEmitter}
    (h : em.Wf) :
    em.Coherent := by
  apply Coherent.of_mapped
  intro r hr
  rcases h.placed r hr with ⟨i, hSlot⟩
  exact ⟨i, (h.holds i r hSlot).2.2, h.hostReg i,
    used_of_slot hSlot⟩

end JitEmitter

variable {P : Platform σ}
variable {stack : List (BitVec 64)}
variable {s t t' : State σ}
variable {em em' em₁ em₂ : JitEmitter}
variable {blk blk' blk₁ blk₂ : JitBlock}
variable {m m' : X86.Machine (State σ)}

/- What holds for the frame holds for the values. -/
theorem Holds.values
    (h : Holds P stack t em m) :
    em.HoldsValues t.gpr m := by
  refine ⟨?_, h.clean⟩
  intro r hr _
  rcases h.wf.placed r hr with ⟨i, hSlot⟩
  rw [(h.wf.holds i r hSlot).2.2]
  exact h.held i r hSlot

end RiscvEm

------------------------------------------------------------
-- Inside The Allocator
------------------------------------------------------------

namespace RiscvEm

namespace JitEmitter

/- The points between the start of a call and its end. -/
inductive Inside
    (em : JitEmitter)
    (blk : JitBlock)
    (r : BitVec 5)
    (locked : BitVec 64) :
    JitEmitter → JitBlock → Prop
  | free {i : Fin 8}
      (hIdle : (em.vregs r).allocated = false)
      (hFind : em.findFree locked = some i) :
      Inside em blk r locked (em.takeFree i r) blk
  | spilled {i : Fin 8} {em' : JitEmitter} {blk' : JitBlock}
      (hIdle : (em.vregs r).allocated = false)
      (hFind : em.findFree locked = none)
      (hSpill : em.spill blk locked = .ok (i, em', blk')) :
      Inside em blk r locked em' blk'
  | victim {i : Fin 8} {em' : JitEmitter} {blk' : JitBlock}
      (hIdle : (em.vregs r).allocated = false)
      (hFind : em.findFree locked = none)
      (hSpill : em.spill blk locked = .ok (i, em', blk')) :
      Inside em blk r locked (em'.takeVictim i r) blk'

end JitEmitter

end RiscvEm

------------------------------------------------------------
-- Values Inside The Allocator
------------------------------------------------------------

namespace RiscvEm

open JitEmitter

variable {σ : Type}
variable {P : Platform σ}
variable {stack : List (BitVec 64)}
variable {t : State σ}
variable {em em' : JitEmitter}
variable {blk blk' : JitBlock}
variable {m : X86.Machine (State σ)}

/- What is marked but not loaded yet is still in `GPR`. -/
theorem Holds.marked
    (h : Holds P stack t em m)
    {i : Fin 8}
    {r : BitVec 5}
    (hFree : em.slot i = none)
    (hIdle : (em.vregs r).allocated = false)
    {x : HReg}
    {v : VReg}
    (hHost : x.hostReg = hostRegArray i)
    (hUsed : x.used = true)
    (hGuest : x.vreg = some r)
    (hPlace : v.hostReg = hostRegArray i)
    (hValid : v.valid = false) :
    ((em.setHReg i x).setVReg r v).Coherent ∧
      ((em.setHReg i x).setVReg r v).HoldsValues t.gpr m := by
  generalize hEm : (em.setHReg i x).setVReg r v = em'
  have hThis : em'.vregs r = v := by
    rw [← hEm]
    exact setVReg_self _ r v
  have hOther : ∀ q, q ≠ r → em'.vregs q = em.vregs q := by
    intro q hq
    rw [← hEm]
    exact setVReg_of_ne _ hq v
  have hHostThis : em'.hostRegs i = x := by
    rw [← hEm]
    exact setHReg_self em i x
  have hHostOther : ∀ j, j ≠ i →
      em'.hostRegs j = em.hostRegs j := by
    intro j hj
    rw [← hEm]
    exact setHReg_of_ne em hj x
  constructor
  · apply Coherent.of_mapped
    intro q hq
    by_cases hEq : q = r
    · subst hEq
      refine ⟨i, ?_⟩
      rw [hThis, hHostThis]
      exact ⟨hPlace, hHost, hUsed, hGuest⟩
    · rw [hOther q hEq] at hq ⊢
      rcases h.wf.placed q hq with ⟨j, hSlot⟩
      have hji : j ≠ i := by
        rintro rfl
        rw [hFree] at hSlot
        cases hSlot
      refine ⟨j, ?_⟩
      rw [hHostOther j hji]
      exact ⟨(h.wf.holds j q hSlot).2.2, h.wf.hostReg j,
        used_of_slot hSlot⟩
  · constructor
    · intro q hAllocated hLoaded
      have hNe : q ≠ r := by
        rintro rfl
        rw [hThis, hValid] at hLoaded
        cases hLoaded
      rw [hOther q hNe] at hAllocated hLoaded ⊢
      exact h.values.host q hAllocated hLoaded
    · intro q hq
      by_cases hEq : q = r
      · subst hEq
        exact h.clean q (h.wf.idle q hIdle).2
      · rw [hOther q hEq] at hq
        exact h.clean q hq

/- A spill that was called for frees a register in use. -/
theorem JitEmitter.Wf.spilled
    (h : em.Wf)
    {locked : BitVec 64}
    (hUnlocked : ∃ i, Unlocked locked i)
    (hFind : em.findFree locked = none)
    {i : Fin 8}
    (hSpill : em.spill blk locked = .ok (i, em', blk')) :
    ∃ g, em.slot i = some g ∧ Unlocked locked i ∧
      em' = em.free i g ∧
      blk' = blk.emit (if (em.vregs g).dirty then
        storeCode i g else []) := by
  rcases spillVictim_of_free h hUnlocked with
    ⟨j, hVictim, hj⟩
  have hUsed := findFree_none h hFind hj
  rcases h.used j hUsed with ⟨g, hSlot⟩
  have hEq := spill_eq h hVictim (used_of_slot hSlot).2 blk
  cases hEq.symm.trans hSpill
  exact ⟨g, hSlot, hj, rfl, rfl⟩

/-
  Inside the allocator the tables are coherent and the values
  are where they say; what is locked is left alone.
-/
theorem JitEmitter.Inside.spec
    (h : Holds P stack t em m)
    {r : BitVec 5}
    {locked : BitVec 64}
    (hUnlocked : ∃ i, Unlocked locked i)
    (hInside : em.Inside blk r locked em' blk') :
    ∃ code m', blk' = blk.emit code ∧
      (jitEnv P).Runs code m m' ∧
      em'.Coherent ∧ em'.HoldsValues t.gpr m' ∧
      ∀ i q, ¬ Unlocked locked i → em.slot i = some q →
        em'.vregs q = em.vregs q := by
  have hNotIdle : ∀ i q, (em.vregs r).allocated = false →
      em.slot i = some q → q ≠ r := by
    rintro i q hIdle hSlot rfl
    rw [(h.wf.holds i q hSlot).1] at hIdle
    cases hIdle
  have hNotVictim : ∀ i j q g, Unlocked locked i →
      em.slot i = some g → ¬ Unlocked locked j →
        em.slot j = some q → q ≠ g := by
    rintro i j q g hi hVictim hj hSlot rfl
    cases h.wf.slot_unique hVictim hSlot
    exact hj hi
  cases hInside with
  | @free i hIdle hFind =>
      have hUnused := (findFree_some h.wf hFind).2
      have hMarked := h.marked (slot_of_unused hUnused) hIdle
        (x := { em.hostRegs i with
          used := true, vreg := some r })
        (v := { em.vregs r with
          hostReg := (em.hostRegs i).hostReg
          allocated := true })
        (h.wf.hostReg i) rfl rfl (h.wf.hostReg i)
        (h.wf.idle r hIdle).1
      refine ⟨[], m, blk.emit_nil.symm, .nil m, hMarked.1,
        hMarked.2, ?_⟩
      intro j q _ hSlot
      exact setVReg_of_ne _ (hNotIdle j q hIdle hSlot) _
  | @spilled i _ _ hIdle hFind hSpill =>
      rcases h.wf.spilled hUnlocked hFind hSpill with
        ⟨g, hVictim, hi, rfl, rfl⟩
      rcases h.spill hVictim with ⟨m', hRuns, hFreed, -⟩
      refine ⟨_, m', rfl, hRuns, hFreed.wf.coherent,
        hFreed.values, ?_⟩
      intro j q hj hSlot
      exact setVReg_of_ne _
        (hNotVictim i j q g hi hVictim hj hSlot) _
  | @victim i _ _ hIdle hFind hSpill =>
      rcases h.wf.spilled hUnlocked hFind hSpill with
        ⟨g, hVictim, hi, rfl, rfl⟩
      rcases h.spill hVictim with ⟨m', hRuns, hFreed, -⟩
      have hSame : (em.free i g).vregs r = em.vregs r :=
        setVReg_of_ne _ (hNotIdle i g hIdle hVictim).symm _
      have hMarked := hFreed.marked (free_slot_self em i g)
        (hSame ▸ hIdle)
        (x := { (em.free i g).hostRegs i with
          used := true, vreg := some r })
        (v := { (em.free i g).vregs r with
          valid := false
          allocated := true
          hostReg := ((em.free i g).hostRegs i).hostReg
          hostIdx := ((em.free i g).hostRegs i).idx })
        (hFreed.wf.hostReg i) rfl rfl (hFreed.wf.hostReg i)
        rfl
      refine ⟨_, m', rfl, hRuns, hMarked.1, hMarked.2, ?_⟩
      intro j q hj hSlot
      have hKept : (em.free i g).vregs q = em.vregs q :=
        setVReg_of_ne _
          (hNotVictim i j q g hi hVictim hj hSlot) _
      rw [← hKept]
      exact setVReg_of_ne _ (hNotIdle j q hIdle hSlot) _

end RiscvEm

------------------------------------------------------------
-- Operands
------------------------------------------------------------

namespace RiscvEm

namespace JitEmitter

variable {em em' em₁ em₂ : JitEmitter}
variable {blk blk' blk₁ blk₂ : JitBlock}
variable {rs done rest : List (BitVec 5)}

/-
  The points while the operands `rs` get host registers. The
  operands `done` have theirs.
-/
inductive PointOf
    (em : JitEmitter)
    (blk : JitBlock)
    (rs : List (BitVec 5)) :
    List (BitVec 5) → JitEmitter → JitBlock → Prop
  | granted {done rest : List (BitVec 5)}
      {em₁ : JitEmitter} {blk₁ : JitBlock}
      (operands : rs = done ++ rest)
      (before : em.Grants blk done em₁ blk₁) :
      PointOf em blk rs done em₁ blk₁
  | inside {done rest : List (BitVec 5)} {r : BitVec 5}
      {em₁ em₂ : JitEmitter} {blk₁ blk₂ : JitBlock}
      (operands : rs = done ++ r :: rest)
      (before : em.Grants blk done em₁ blk₁)
      (point : em₁.Inside blk₁ r (em₁.lockOf done) em₂ blk₂) :
      PointOf em blk rs done em₂ blk₂

/- The calls for operands have one result. -/
theorem Grants.functional
    (h : em.Grants blk rs em₁ blk₁)
    (h' : em.Grants blk rs em₂ blk₂) :
    em₁ = em₂ ∧ blk₁ = blk₂ := by
  induction h generalizing em₂ blk₂ with
  | nil =>
      generalize hRs : ([] : List (BitVec 5)) = rs at h'
      cases h' with
      | nil => exact ⟨rfl, rfl⟩
      | snoc before alloc => simp at hRs
  | @snoc rs r em₃ em₁ blk₃ blk₁ before alloc ih =>
      generalize hRs : rs ++ [r] = rs' at h'
      cases h' with
      | nil => simp at hRs
      | @snoc rs' r' em₄ em₂ blk₄ blk₂ before' alloc' =>
          rcases List.append_inj' hRs rfl with ⟨rfl, hLast⟩
          cases hLast
          rcases ih before' with ⟨rfl, rfl⟩
          cases alloc.symm.trans alloc'
          exact ⟨rfl, rfl⟩

/- An operand stays where it is until all are there. -/
theorem Grants.keeps
    (h : em.Wf)
    (hGrants : em.Grants blk rs em' blk')
    (hFew : rs.length ≤ 3)
    (hRs : rs = done ++ rest)
    (hDone : em.Grants blk done em₁ blk₁)
    {i : Fin 8}
    {r : BitVec 5}
    (hr : r ∈ done)
    (hSlot : em₁.slot i = some r) :
    em'.slot i = some r := by
  induction hGrants generalizing rest with
  | nil =>
      rw [(List.append_eq_nil_iff.mp hRs.symm).1] at hr
      cases hr
  | @snoc rs q em₂ em₃ blk₂ blk₃ before alloc ih =>
      rcases rest.eq_nil_or_concat with rfl | ⟨l, b, rfl⟩
      · rw [List.append_nil] at hRs
        subst hRs
        rw [← (hDone.functional (.snoc before alloc)).1]
        exact hSlot
      · rw [List.concat_eq_append, ← List.append_assoc] at hRs
        rcases List.append_inj' hRs rfl with ⟨rfl, hLast⟩
        cases hLast
        rw [List.length_append, List.length_singleton] at hFew
        have hThere := ih (Nat.le_of_succ_le hFew) rfl
        rcases before.spec h (Nat.le_of_succ_le hFew) with
          ⟨hWf, -, hHeld⟩
        rcases allocates_of_ok hWf
          (hWf.unlocked hHeld (Nat.le_of_succ_le_succ hFew))
          alloc with ⟨code, -, hAllocates⟩
        exact hAllocates.keeps
          (hWf.locked (List.mem_append_left l hr) hThere)
          hThere

end JitEmitter

variable {σ : Type}
variable {P : Platform σ}
variable {stack : List (BitVec 64)}
variable {t : State σ}
variable {em em' : JitEmitter}
variable {blk blk' : JitBlock}
variable {m : X86.Machine (State σ)}
variable {rs : List (BitVec 5)}

/- What the allocator leaves free was free before. -/
theorem JitEmitter.Allocates.idle
    {r : BitVec 5}
    {locked : BitVec 64}
    {code : Code}
    (h : em.Allocates r locked em' code)
    {j : Fin 8}
    (hFree : em'.slot j = none) :
    em.slot j = none := by
  have hOther : ∀ {em₁ : JitEmitter} {i : Fin 8},
      em₁.Loaded em' i r → j ≠ i ∧ em₁.slot j = none := by
    intro em₁ i hLoaded
    have hji : j ≠ i := by
      rintro rfl
      cases hFree.symm.trans hLoaded.slot
    exact ⟨hji, (hLoaded.slots j hji).symm.trans hFree⟩
  cases h with
  | zero hr => exact hFree
  | hit hSlot hWf hSlots hVRegs =>
      rw [← hSlots]
      exact hFree
  | load hUnlocked hOpen hIdle hLoaded =>
      exact (hOther hLoaded).2
  | @spill _ i g hUnlocked hSlot hNe hIdle hLoaded =>
      rcases hOther hLoaded with ⟨hji, hNone⟩
      exact (free_slot_of_ne hji g).symm.trans hNone

/- The code for the operands keeps all values. -/
theorem JitEmitter.Grants.run
    (h : Holds P stack t em m)
    (hGrants : em.Grants blk rs em' blk')
    (hFew : rs.length ≤ 3) :
    ∃ code m', blk' = blk.emit code ∧
      (jitEnv P).Runs code m m' ∧
      Holds P stack t em' m' ∧ IdleKept em' m m' := by
  induction hGrants with
  | nil =>
      exact ⟨[], m, blk.emit_nil.symm, .nil m, h,
        fun _ _ => rfl⟩
  | @snoc rs r em₁ em₂ blk₁ blk₂ before alloc ih =>
      rw [List.length_append, List.length_singleton] at hFew
      rcases ih (Nat.le_of_succ_le hFew) with
        ⟨code, m₁, rfl, hRuns, hHolds, hIdle⟩
      rcases before.spec h.wf (Nat.le_of_succ_le hFew) with
        ⟨hWf, -, hHeld⟩
      rcases allocates_of_ok hWf
        (hWf.unlocked hHeld (Nat.le_of_succ_le_succ hFew))
        alloc with ⟨code', rfl, hAllocates⟩
      rcases hHolds.allocates hAllocates with
        ⟨m₂, hRuns', hHolds', hIdle'⟩
      refine ⟨code ++ code', m₂, blk.emit_emit code code',
        hRuns.append hRuns', hHolds', ?_⟩
      intro j hFree
      rw [hIdle' j hFree, hIdle j (hAllocates.idle hFree)]

end RiscvEm

------------------------------------------------------------
-- Points Of A Block
------------------------------------------------------------

namespace RiscvEm

open JitEmitter

variable {σ : Type}
variable {P : Platform σ}
variable {s t : State σ}
variable {em em' : JitEmitter}
variable {blk blk' : JitBlock}
variable {rs : List (BitVec 5)}

/-
  A point of the code that was emitted so far: the code runs
  up to it, and the tables are right about the values of the
  state `t` there.
-/
structure PointOk
    (P : Platform σ)
    (s t : State σ)
    (em : JitEmitter)
    (blk : JitBlock) : Prop where
  coherent : em.Coherent
  values : ∃ m,
    (jitEnv P).Runs blk.bytes (entryMachine P s) m ∧
      em.HoldsValues t.gpr m

/-
  The operands of an instruction: every point in between is
  right, what has a host register keeps it, and different
  operands have different ones.
-/
structure OperandsOk
    (P : Platform σ)
    (s t : State σ)
    (em : JitEmitter)
    (blk : JitBlock)
    (rs : List (BitVec 5))
    (em' : JitEmitter)
    (blk' : JitBlock) : Prop where
  granted : em.Grants blk rs em' blk'
  points : ∀ done em₁ blk₁,
    em.PointOf blk rs done em₁ blk₁ → PointOk P s t em₁ blk₁
  kept : ∀ done em₁ blk₁,
    em.PointOf blk rs done em₁ blk₁ →
      ∀ r ∈ done, (em₁.vregs r).allocated = true ∧
        (em₁.vregs r).valid = true ∧
        (em₁.vregs r).hostReg = (em'.vregs r).hostReg
  distinct : ∀ r ∈ rs, ∀ q ∈ rs, r ≠ q →
    (em'.vregs r).hostReg ≠ (em'.vregs q).hostReg

/- The machine between two instructions of the block. -/
structure Arrived
    (P : Platform σ)
    (s t : State σ)
    (em : JitEmitter)
    (blk : JitBlock)
    (m : X86.Machine (State σ)) : Prop where
  runs : (jitEnv P).Runs blk.bytes (entryMachine P s) m
  holds : Holds P (savedRegs P) t em m
  labels : blk.jmpLabels = []

/- A point that is arrived at. -/
theorem Arrived.point
    {m : X86.Machine (State σ)}
    (h : Arrived P s t em blk m) :
    PointOk P s t em blk :=
  ⟨h.holds.wf.coherent, m, h.runs, h.holds.values⟩

/- Operands are granted there. -/
theorem Arrived.grants
    {m : X86.Machine (State σ)}
    (h : Arrived P s t em blk m)
    (hGrants : em.Grants blk rs em' blk')
    (hFew : rs.length ≤ 3) :
    ∃ m', Arrived P s t em' blk' m' := by
  rcases hGrants.run h.holds hFew with
    ⟨code, m', rfl, hRuns, hHolds, -⟩
  exact ⟨m', h.runs.append hRuns, hHolds, h.labels⟩

/- A register that is held, with what the tables say of it. -/
theorem JitEmitter.Wf.granted
    (h : em.Wf)
    {r : BitVec 5}
    (hr : r ≠ 0)
    (hGranted : em.Granted r) :
    ∃ i, em.slot i = some r ∧
      (em.vregs r).allocated = true ∧
      (em.vregs r).valid = true ∧
      (em.vregs r).hostReg = hostRegArray i := by
  rcases hGranted.resolve_left hr with ⟨i, hSlot⟩
  exact ⟨i, hSlot, h.holds i r hSlot⟩

/- Granted operands are held and loaded. -/
theorem Arrived.operandsOk
    {m : X86.Machine (State σ)}
    (h : Arrived P s t em blk m)
    (hGrants : em.Grants blk rs em' blk')
    (hFew : rs.length ≤ 3)
    (hNoZero : ∀ r ∈ rs, r ≠ 0) :
    OperandsOk P s t em blk rs em' blk' := by
  have hFinal := hGrants.spec h.holds.wf hFew
  have hLess : ∀ {done rest : List (BitVec 5)},
      rs = done ++ rest → done.length ≤ 3 := by
    intro done rest hRs
    rw [hRs, List.length_append] at hFew
    omega
  -- what an operand was given, now and at the end
  have hPlace : ∀ done rest em₁ blk₁, rs = done ++ rest →
      em.Grants blk done em₁ blk₁ → ∀ r ∈ done, ∃ i,
        em₁.slot i = some r ∧ em'.slot i = some r := by
    intro done rest em₁ blk₁ hRs hDone r hr
    have hThen := hDone.spec h.holds.wf (hLess hRs)
    have hZero : r ≠ 0 :=
      hNoZero r (hRs ▸ List.mem_append_left rest hr)
    rcases (hThen.2.2 r hr).resolve_left hZero with ⟨i, hSlot⟩
    exact ⟨i, hSlot,
      hGrants.keeps h.holds.wf hFew hRs hDone hr hSlot⟩
  have hInside : ∀ done rest r em₁ blk₁ em₂ blk₂,
      rs = done ++ r :: rest →
        em.Grants blk done em₁ blk₁ →
          em₁.Inside blk₁ r (em₁.lockOf done) em₂ blk₂ →
            PointOk P s t em₂ blk₂ ∧ ∀ q ∈ done,
              em₂.vregs q = em₁.vregs q := by
    intro done rest r em₁ blk₁ em₂ blk₂ hRs hDone hPoint
    have hLength : done.length ≤ 2 := by
      rw [hRs, List.length_append, List.length_cons] at hFew
      omega
    rcases h.grants hDone (Nat.le_succ_of_le hLength) with
      ⟨m₁, hArrived⟩
    have hThen := hDone.spec h.holds.wf
      (Nat.le_succ_of_le hLength)
    rcases hPoint.spec hArrived.holds
      (hThen.1.unlocked hThen.2.2 hLength) with
      ⟨code, m₂, rfl, hRuns, hCoherent, hValues, hKept⟩
    refine ⟨⟨hCoherent, m₂, hArrived.runs.append hRuns,
      hValues⟩, ?_⟩
    intro q hq
    rcases hPlace done (r :: rest) em₁ blk₁ hRs hDone q hq
      with ⟨i, hSlot, -⟩
    exact hKept i q (hThen.1.locked hq hSlot) hSlot
  have hSame : ∀ done rest em₁ blk₁, rs = done ++ rest →
      em.Grants blk done em₁ blk₁ →
        ∀ r ∈ done, (em₁.vregs r).allocated = true ∧
          (em₁.vregs r).valid = true ∧
          (em₁.vregs r).hostReg = (em'.vregs r).hostReg := by
    intro done rest em₁ blk₁ hRs hDone r hr
    have hThen := hDone.spec h.holds.wf (hLess hRs)
    rcases hPlace done rest em₁ blk₁ hRs hDone r hr with
      ⟨i, hSlot, hSlot'⟩
    have hHeld := hThen.1.holds i r hSlot
    exact ⟨hHeld.1, hHeld.2.1, hHeld.2.2.trans
      (hFinal.1.holds i r hSlot').2.2.symm⟩
  refine ⟨hGrants, ?_, ?_, ?_⟩
  · intro done em₁ blk₁ hPoint
    cases hPoint with
    | granted hRs hDone =>
        rcases h.grants hDone (hLess hRs) with ⟨m₁, hArrived⟩
        exact hArrived.point
    | inside hRs hDone hPoint =>
        exact (hInside _ _ _ _ _ _ _ hRs hDone hPoint).1
  · intro done em₁ blk₁ hPoint
    cases hPoint with
    | granted hRs hDone => exact hSame _ _ _ _ hRs hDone
    | inside hRs hDone hPoint =>
        intro r hr
        rw [(hInside _ _ _ _ _ _ _ hRs hDone hPoint).2 r hr]
        exact hSame _ _ _ _ hRs hDone r hr
  · intro r hr q hq hNe hEq
    have hGiven : ∀ r ∈ rs,
        (em'.vregs r).allocated = true := by
      intro r hr
      rcases (hFinal.2.2 r hr).resolve_left (hNoZero r hr) with
        ⟨i, hSlot⟩
      exact (hFinal.1.holds i r hSlot).1
    exact hNe (hFinal.1.coherent.distinct r q (hGiven r hr)
      (hGiven q hq) hEq)

end RiscvEm

------------------------------------------------------------
-- What Instructions Do
------------------------------------------------------------

namespace RiscvEm

variable {σ : Type}

/- The values that an instruction of the table gives. -/
def guestStep
    (P : Platform σ)
    (op : Op)
    (d : InstructionData)
    (t : State σ) : Option (State σ) :=
  match rValue op, iValue op, storeParts op with
  | some f, _, _ =>
      some (t.setGpr d.rd (f (t.gpr d.rs1) (t.gpr d.rs2)))
  | none, some (_, f), _ =>
      some (t.setGpr d.rd (f (t.gpr d.rs1) d.imm))
  | none, none, some (_, size) =>
      storeStep P size (storeOffset (t.gpr d.rs1) d.imm)
        (t.gpr d.rs2) t
  | none, none, none => none

/- The registers that its frame asks for, in order. -/
def operands
    (op : Op)
    (d : InstructionData) : List (BitVec 5) :=
  if (rValue op).isSome then
    [d.rd, d.rs1, d.rs2]
  else if (iValue op).isSome then
    [d.rd, d.rs1]
  else
    [d.rs1, d.rs2]

def NoZero
    (op : Op)
    (d : InstructionData) : Prop :=
  ∀ r ∈ operands op d, r ≠ 0

instance
    (op : Op)
    (d : InstructionData) :
    Decidable (NoZero op d) := by
  unfold NoZero
  infer_instance

/- No instruction has more than three. -/
theorem operands_length
    (op : Op)
    (d : InstructionData) :
    (operands op d).length ≤ 3 := by
  unfold operands
  split
  · simp
  · split <;> simp

end RiscvEm

------------------------------------------------------------
-- The Code Behind The Operands
------------------------------------------------------------

namespace RiscvEm

open JitEmitter

/- What a template emits when its operands are there. -/
inductive Body
    (slow : SlowFuncs)
    (op : Op)
    (d : InstructionData)
    (em : JitEmitter) : JitEmitter → Code → Prop
  | r {optimize : Bool} {emitOp : ROp}
      {f : BitVec 64 → BitVec 64 → BitVec 64}
      (hValue : rValue op = some f)
      (hComputes : RComputes emitOp f) :
      Body slow op d em (em.setDirty d.rd)
        (em.rBody optimize emitOp d)
  | i {optimize : Bool} {emitOp : IOp}
      {f : BitVec 64 → BitVec 64 → BitVec 64}
      (hValue : iValue op = some (optimize, f))
      (hComputes : IComputes emitOp f) :
      Body slow op d em (em.setDirty d.rd)
        (em.iBody optimize emitOp d)
  | s {fastMov : FastMov} {size : MemorySize}
      (hParts : storeParts op = some (fastMov, size)) :
      Body slow op d em em
        (jitStoreCode fastMov (slow size) (em.vregs d.rs1)
          (em.vregs d.rs2) d.imm)

variable {slow : SlowFuncs}
variable {op : Op}
variable {d : InstructionData}
variable {em : JitEmitter}
variable {blk : JitBlock}
variable {template : JitTemplate}

/- The three kinds of instructions exclude each other. -/
theorem operands_r
    {f : BitVec 64 → BitVec 64 → BitVec 64}
    (hValue : rValue op = some f)
    (d : InstructionData) :
    operands op d = [d.rd, d.rs1, d.rs2] := by
  simp [operands, hValue]

/- An I-type instruction has `rd` and `rs1`. -/
theorem operands_i
    {optimize : Bool}
    {f : BitVec 64 → BitVec 64 → BitVec 64}
    (hValue : iValue op = some (optimize, f))
    (d : InstructionData) :
    rValue op = none ∧ operands op d = [d.rd, d.rs1] := by
  have hNone : rValue op = none := by
    cases op <;> cases hValue <;> rfl
  simp [operands, hNone, hValue]

/- A store has both sources. -/
theorem operands_s
    {fastMov : FastMov}
    {size : MemorySize}
    (hParts : storeParts op = some (fastMov, size))
    (d : InstructionData) :
    rValue op = none ∧ iValue op = none ∧
      operands op d = [d.rs1, d.rs2] := by
  cases op <;> cases hParts <;> exact ⟨rfl, rfl, rfl⟩

/- There are no others in the table. -/
theorem conversionTbl_kind
    (hEntry : conversionTbl slow op = some template) :
    (∃ f, rValue op = some f) ∨
      (∃ optimize f, iValue op = some (optimize, f)) ∨
      ∃ fastMov size, storeParts op = some (fastMov, size) := by
  cases op <;>
    first
    | exact .inl ⟨_, rfl⟩
    | exact .inr (.inl ⟨_, _, rfl⟩)
    | exact .inr (.inr ⟨_, _, rfl⟩)
    | cases hEntry

/- Without `x0` the frames take no shortcut for it. -/
theorem rType_of_ne
    (em : JitEmitter)
    (optimize : Bool)
    (emitOp : ROp)
    (hRs1 : d.rs1 ≠ 0)
    (hRs2 : d.rs2 ≠ 0) :
    rOperands optimize d = [d.rd, d.rs1, d.rs2] ∧
      em.rBody optimize emitOp d =
        emitOp (em.vregs d.rd) (em.vregs d.rs1)
          (em.vregs d.rs2) := by
  unfold rOperands rBody
  simp only [hRs1, hRs2, decide_false, Bool.and_false,
    Bool.false_eq_true, if_false, and_self]

/- The body of one whose source is not `x0`. -/
theorem iType_of_ne
    (em : JitEmitter)
    (optimize : Bool)
    (emitOp : IOp)
    (hRs1 : d.rs1 ≠ 0) :
    iOperands optimize d = [d.rd, d.rs1] ∧
      em.iBody optimize emitOp d =
        if optimize && d.imm = 0 then
          mov (em.vregs d.rd).hostReg (em.vregs d.rs1).hostReg
        else
          emitOp (em.vregs d.rd) (em.vregs d.rs1) d.imm := by
  unfold iOperands iBody
  simp only [hRs1, decide_false, Bool.and_false,
    Bool.false_eq_true, if_false, and_self]

/- A template emits its operands and one of these codes. -/
theorem template_spec
    (hWf : em.Wf)
    (hLabels : blk.jmpLabels = [])
    (hEntry : conversionTbl slow op = some template)
    (hNoZero : NoZero op d) :
    ∃ em₁ blk₁ em₂ code,
      em.Grants blk (operands op d) em₁ blk₁ ∧
      template d em blk = .ok (em₂, blk₁.emit code) ∧
      Body slow op d em₁ em₂ code := by
  rcases conversionTbl_kind hEntry with
    ⟨f, hValue⟩ | ⟨optimize, f, hValue⟩ |
      ⟨fastMov, size, hParts⟩
  · rcases conversionTbl_r hValue slow with
      ⟨optimize, emitOp, hTable, hComputes⟩
    cases hEntry.symm.trans hTable
    have hOperands := operands_r hValue d
    simp only [NoZero, hOperands, List.forall_mem_cons]
      at hNoZero
    rcases hNoZero with ⟨hRd, hRs1, hRs2, -⟩
    rcases instEmitRType_spec hWf blk hRd optimize emitOp with
      ⟨em₁, blk₁, hGrants, hEq⟩
    rw [(rType_of_ne em optimize emitOp hRs1 hRs2).1,
      ← hOperands] at hGrants
    exact ⟨em₁, blk₁, _, _, hGrants, hEq, .r hValue hComputes⟩
  · rcases conversionTbl_i hValue slow with
      ⟨emitOp, hTable, hComputes⟩
    cases hEntry.symm.trans hTable
    have hOperands := (operands_i hValue d).2
    simp only [NoZero, hOperands, List.forall_mem_cons]
      at hNoZero
    rcases hNoZero with ⟨hRd, hRs1, -⟩
    rcases instEmitIType_spec hWf blk hRd optimize emitOp with
      ⟨em₁, blk₁, hGrants, hEq⟩
    rw [(iType_of_ne em optimize emitOp hRs1).1,
      ← hOperands] at hGrants
    exact ⟨em₁, blk₁, _, _, hGrants, hEq, .i hValue hComputes⟩
  · cases hEntry.symm.trans (conversionTbl_store hParts slow).1
    rcases jitStore_spec hWf hLabels fastMov (slow size) d with
      ⟨em₁, blk₁, hGrants, hEq⟩
    rw [← (operands_s hParts d).2.2] at hGrants
    exact ⟨em₁, blk₁, _, _, hGrants, hEq, .s hParts⟩

/- What is held can be an operand of a template. -/
theorem JitEmitter.Wf.operand
    (h : em.Wf)
    {i : Fin 8}
    {r : BitVec 5}
    (hSlot : em.slot i = some r) :
    Operand (em.vregs r) (hostOf i) := by
  refine ⟨?_, (hostOf_ne i).1, ?_, ?_⟩
  · rw [hostByte_hostOf]
    exact (h.holds i r hSlot).2.2
  · rw [h.vreg]
    exact h.slot_ne_zero hSlot
  · rw [h.isZero]
    exact decide_eq_false (h.slot_ne_zero hSlot)

/- Two guests share no host register. -/
theorem JitEmitter.Wf.same_host
    (h : em.Wf)
    {i j : Fin 8}
    {r q : BitVec 5}
    (hi : em.slot i = some r)
    (hj : em.slot j = some q) :
    (em.vregs r).vreg = (em.vregs q).vreg ↔
      hostOf i = hostOf j := by
  rw [h.vreg, h.vreg]
  constructor
  · rintro rfl
    rw [h.slot_unique hi hj]
  · intro hEq
    cases hostOf_injective hEq
    exact Option.some.inj (hi.symm.trans hj)

end RiscvEm

------------------------------------------------------------
-- Running The Code Behind The Operands
------------------------------------------------------------

namespace RiscvEm

open JitEmitter

variable {σ : Type}

/- What may be asked of an instruction before its code. -/
abbrev StepCondition (σ : Type) :=
  Op → InstructionData → JitEmitter → JitBlock →
    State σ → Prop

/-
  No defect shows. With a zero immediate some frames copy the
  source, so that has to be the result. And where a store
  calls its slow function, the context points to the hart,
  and no guest register is in a host register that is lost in
  the call, or its value comes back by chance.
-/
structure SafeStep
    (P : Platform σ)
    (op : Op)
    (d : InstructionData)
    (em : JitEmitter)
    (blk : JitBlock)
    (t : State σ) : Prop where
  copied : ∀ f, iValue op = some (true, f) → d.imm = 0 →
    f (t.gpr d.rs1) 0 = t.gpr d.rs1
  called : ∀ fastMov size,
    storeParts op = some (fastMov, size) →
      ¬ storeOffset (t.gpr d.rs1) d.imm ≤ P.memsize →
        OwnContext P t ∧
        ∀ em₁ blk₁, em.Grants blk (operands op d) em₁ blk₁ →
          ∀ i r, em₁.slot i = some r →
            lostInCall (hostOf i) = true →
              P.clobber (hostOf i) = t.gpr r

variable {P : Platform σ}
variable {stack : List (BitVec 64)}
variable {t t' : State σ}
variable {op : Op}
variable {d : InstructionData}
variable {em em₁ em₂ : JitEmitter}
variable {blk blk₁ : JitBlock}
variable {m m' : X86.Machine (State σ)}

/- R-type bodies compute the destination. -/
theorem Holds.r_body
    (h : Holds P stack t em m)
    {i j k : Fin 8}
    (hRd : em.slot i = some d.rd)
    (hRs1 : em.slot j = some d.rs1)
    (hRs2 : em.slot k = some d.rs2)
    {emitOp : ROp}
    {f : BitVec 64 → BitVec 64 → BitVec 64}
    (hComputes : RComputes emitOp f)
    (optimize : Bool) :
    ∃ m', (jitEnv P).Runs (em.rBody optimize emitOp d) m m' ∧
      Holds P stack
        (t.setGpr d.rd (f (t.gpr d.rs1) (t.gpr d.rs2)))
        (em.setDirty d.rd) m' := by
  have hSets := hComputes.sets (jitEnv P) m
    (h.wf.operand hRd) (h.wf.operand hRs1) (h.wf.operand hRs2)
    (h.wf.same_host hRd hRs1) (h.wf.same_host hRd hRs2)
  rw [h.held j _ hRs1, h.held k _ hRs2] at hSets
  rw [(rType_of_ne em optimize emitOp
    (h.wf.slot_ne_zero hRs1) (h.wf.slot_ne_zero hRs2)).2]
  exact h.sets hRd hSets

/- I-type bodies compute the destination. -/
theorem Holds.i_body
    (h : Holds P stack t em m)
    {i j : Fin 8}
    (hRd : em.slot i = some d.rd)
    (hRs1 : em.slot j = some d.rs1)
    {emitOp : IOp}
    {f : BitVec 64 → BitVec 64 → BitVec 64}
    (hComputes : IComputes emitOp f)
    {optimize : Bool}
    (hCopied : optimize = true → d.imm = 0 →
      f (t.gpr d.rs1) 0 = t.gpr d.rs1) :
    ∃ m', (jitEnv P).Runs (em.iBody optimize emitOp d) m m' ∧
      Holds P stack
        (t.setGpr d.rd (f (t.gpr d.rs1) d.imm))
        (em.setDirty d.rd) m' := by
  have hOperand := h.wf.operand hRs1
  rw [(iType_of_ne em optimize emitOp
    (h.wf.slot_ne_zero hRs1)).2]
  by_cases hCopy : (optimize && d.imm = 0) = true
  · rw [if_pos hCopy, (h.wf.operand hRd).host, hOperand.host]
    rw [Bool.and_eq_true, decide_eq_true_eq] at hCopy
    have hSets := sets_mov (E := jitEnv P) m (hostOf i)
      (hostOf j)
    rw [h.held j _ hRs1, ← hCopied hCopy.1 hCopy.2,
      ← hCopy.2] at hSets
    exact h.sets hRd hSets
  · rw [if_neg hCopy]
    have hSets := hComputes.sets (jitEnv P) m d.imm
      (h.wf.operand hRd) hOperand (h.wf.same_host hRd hRs1)
    rw [h.held j _ hRs1] at hSets
    exact h.sets hRd hSets

/- Memory and devices may change, and no guest register. -/
theorem Holds.stored
    (h : Holds P stack t em m)
    (hHart : t'.hart = t.hart)
    (hMem : m'.mem = t'.withGprs m.mem.hart.GPR)
    (hStack : m'.stack = m.stack)
    (hContext : ∀ r ∈ [(12 : X86.Reg), 13, 14],
      m'.regs r = m.regs r)
    (hHeld : ∀ i r, em.slot i = some r →
      m'.regs (hostOf i) = t.gpr r) :
    Holds P stack t' em m' := by
  have hGpr : ∀ r, t'.gpr r = t.gpr r := by
    intro r
    show t'.hart.GPR r = t.hart.GPR r
    rw [hHart]
  refine ⟨h.wf, ?_, ?_, ?_, ?_, ?_, ?_, ?_⟩
  · rw [hContext 12 (by decide)]
    exact h.ctx
  · rw [hContext 13 (by decide)]
    exact h.regs
  · rw [hContext 14 (by decide)]
    exact h.ram
  · rw [hStack]
    exact h.stack
  · rw [hMem]
    rfl
  · intro i r hSlot
    rw [hGpr]
    exact hHeld i r hSlot
  · intro r hr
    rw [hGpr, hMem]
    exact h.clean r hr

/- Stores do what the slow path or the fast one does. -/
theorem Holds.s_body
    (h : Holds P stack t em m)
    {a : X86.Reg}
    (hFirst : ReadsBase (em.vregs d.rs1) a)
    (hData : StoreData m (em.vregs d.rs2) (t.gpr d.rs2))
    {fastMov : FastMov}
    {size : MemorySize}
    (hParts : storeParts op = some (fastMov, size))
    (hCalled :
      ¬ storeOffset (m.regs a) d.imm ≤ P.memsize →
        OwnContext P t ∧
        ∀ i r, em.slot i = some r →
          lostInCall (hostOf i) = true →
            P.clobber (hostOf i) = t.gpr r)
    (hStep : storeStep P size
      (storeOffset (m.regs a) d.imm) (t.gpr d.rs2) t =
        some t') :
    ∃ m', (jitEnv P).Runs
        (jitStoreCode fastMov (P.host.slow size)
          (em.vregs d.rs1) (em.vregs d.rs2) d.imm) m m' ∧
      Holds P stack t' em m' := by
  unfold storeStep at hStep
  by_cases hFast : storeOffset (m.regs a) d.imm ≤ P.memsize
  · rw [if_pos hFast] at hStep
    by_cases hIn : (storeOffset (m.regs a) d.imm).toNat +
        size.bytes ≤ P.memsize.toNat
    · rw [if_pos hIn] at hStep
      rcases storeRam_withGprs hStep m.mem.hart.GPR with
        ⟨hStored, hHart⟩
      rw [← h.mem] at hStored
      rcases runs_storeFast hParts (P.host.slow size) hFirst
        hData d.imm h.ctx h.ram hFast hIn hStored with
        ⟨m', hRuns, hRegs, hStack, hMem⟩
      refine ⟨m', hRuns, h.stored hHart hMem hStack ?_ ?_⟩
      · intro r hr
        apply hRegs
        rintro rfl
        exact absurd hr (by decide)
      · intro k r hSlot
        rw [hRegs _ (hostOf_ne k).1]
        exact h.held k r hSlot
    · rw [if_neg hIn] at hStep
      cases hStep
  · rw [if_neg hFast] at hStep
    rcases jitSlowStore_withGprs hStep m.mem.hart.GPR with
      ⟨hStored, hHart⟩
    rw [← h.mem] at hStored
    rcases hCalled hFast with ⟨hOwn, hKept⟩
    have hSelf : OwnContext P m.mem := by
      rw [h.mem]
      exact hOwn
    rcases runs_storeSlow hParts hFirst hData d.imm h.ctx
      hSelf hFast hStored with ⟨m', hRuns, hAfter⟩
    refine ⟨m', hRuns, h.stored hHart hAfter.mem hAfter.stack
      ?_ ?_⟩
    · intro r hr
      have hContext : r ≠ 1 ∧ lostInCall r = false := by
        revert r
        decide
      rw [hAfter.regs r hContext.1, hContext.2]
      rfl
    · intro k r hSlot
      rw [hAfter.regs _ (hostOf_ne k).1]
      cases hLost : lostInCall (hostOf k) with
      | true => exact hKept k r hSlot hLost
      | false => exact h.held k r hSlot

/- An instruction that is safe does what it should. -/
theorem Body.run
    (h : Holds P stack t em₁ m)
    (hGrants : em.Grants blk (operands op d) em₁ blk₁)
    (hGranted : ∀ r ∈ operands op d, ∃ i,
      em₁.slot i = some r)
    {code : Code}
    (hBody : Body P.host.slow op d em₁ em₂ code)
    (hSafe : SafeStep P op d em blk t)
    (hStep : guestStep P op d t = some t') :
    ∃ m', (jitEnv P).Runs code m m' ∧
      Holds P stack t' em₂ m' := by
  cases hBody with
  | r hValue hComputes =>
      simp only [operands_r hValue, List.forall_mem_cons]
        at hGranted
      rcases hGranted with
        ⟨⟨i, hRd⟩, ⟨j, hRs1⟩, ⟨k, hRs2⟩, -⟩
      simp only [guestStep, hValue] at hStep
      cases hStep
      exact h.r_body hRd hRs1 hRs2 hComputes _
  | @i optimize emitOp f hValue hComputes =>
      simp only [(operands_i hValue d).2,
        List.forall_mem_cons] at hGranted
      rcases hGranted with ⟨⟨i, hRd⟩, ⟨j, hRs1⟩, -⟩
      simp only [guestStep, (operands_i hValue d).1, hValue]
        at hStep
      cases hStep
      refine h.i_body hRd hRs1 hComputes ?_
      rintro rfl
      exact hSafe.copied f hValue
  | s hParts =>
      have hCalled := hSafe.called _ _ hParts
      rcases operands_s hParts d with ⟨hNoR, hNoI, hOperands⟩
      simp only [hOperands, List.forall_mem_cons] at hGranted
      rcases hGranted with ⟨⟨i, hRs1⟩, ⟨j, hRs2⟩, -⟩
      simp only [guestStep, hNoR, hNoI, hParts] at hStep
      have hData := StoreData.reg (m := m)
        (h.wf.operand hRs2)
      rw [h.held j _ hRs2] at hData
      rw [← h.held i _ hRs1] at hCalled hStep
      exact h.s_body (h.wf.operand hRs1).readsBase hData hParts
        (fun hSlow => ⟨(hCalled hSlow).1,
          (hCalled hSlow).2 em₁ blk₁ hGrants⟩) hStep

end RiscvEm

------------------------------------------------------------
-- Whole Runs
------------------------------------------------------------

namespace RiscvEm

open JitEmitter

variable {σ : Type}

/-
  The blocks that calls of templates make after `reset()` and
  the prologue, with the state `t` that the instructions lead
  to from `s`. Every instruction meets the condition `ok`,
  and the fields of the block other than its code and labels
  may change at any time.
-/
inductive Compiled
    (P : Platform σ)
    (ok : StepCondition σ)
    (s : State σ) :
    JitEmitter → JitBlock → State σ → Prop
  | prologue {blk : JitBlock}
      (hBytes : blk.bytes = [])
      (hLabels : blk.jmpLabels = []) :
      Compiled P ok s .reset (rvjitEmitPrologue blk) s
  | counted {em : JitEmitter} {blk blk' : JitBlock}
      {t : State σ}
      (before : Compiled P ok s em blk t)
      (hBytes : blk'.bytes = blk.bytes)
      (hLabels : blk'.jmpLabels = blk.jmpLabels) :
      Compiled P ok s em blk' t
  | instr {em em' : JitEmitter} {blk blk' : JitBlock}
      {t t' : State σ} {op : Op} {d : InstructionData}
      {template : JitTemplate}
      (before : Compiled P ok s em blk t)
      (hEntry : conversionTbl P.host.slow op = some template)
      (hNoZero : NoZero op d)
      (hOk : ok op d em blk t)
      (hEmit : template d em blk = .ok (em', blk'))
      (hStep : guestStep P op d t = some t') :
      Compiled P ok s em' blk' t'

/-
  What the tables and the code promise between instructions,
  while the next instruction is emitted, whatever it is, and
  when the block ends here.
-/
structure AllocatorInvariant
    (P : Platform σ)
    (s t : State σ)
    (em : JitEmitter)
    (blk : JitBlock) : Prop where
  point : PointOk P s t em blk
  next : ∀ op d template,
    conversionTbl P.host.slow op = some template →
      NoZero op d →
        ∃ em₁ blk₁ em₂ code,
          OperandsOk P s t em blk (operands op d) em₁ blk₁ ∧
          template d em blk = .ok (em₂, blk₁.emit code) ∧
          Body P.host.slow op d em₁ em₂ code
  epilogue : ∀ fuel,
    (em.rvjitEmitEpilogue blk).bytes.length ≤ fuel →
      ∃ m, (jitEnv P).run (em.rvjitEmitEpilogue blk).bytes fuel
          0 (entryMachine P s) = some m ∧
        ∀ r, m.mem.gpr r = t.gpr r

variable {P : Platform σ}
variable {s t t' : State σ}
variable {em em' : JitEmitter}
variable {blk blk' : JitBlock}
variable {op : Op}
variable {d : InstructionData}
variable {template : JitTemplate}
variable {m : X86.Machine (State σ)}

/-
  The next instruction of the table is compiled at such a
  point.
-/
theorem Arrived.next
    (h : Arrived P s t em blk m)
    (hEntry : conversionTbl P.host.slow op = some template)
    (hNoZero : NoZero op d) :
    ∃ em₁ blk₁ em₂ code,
      OperandsOk P s t em blk (operands op d) em₁ blk₁ ∧
      template d em blk = .ok (em₂, blk₁.emit code) ∧
      Body P.host.slow op d em₁ em₂ code := by
  rcases template_spec h.holds.wf h.labels hEntry hNoZero with
    ⟨em₁, blk₁, em₂, code, hGrants, hEq, hBody⟩
  exact ⟨em₁, blk₁, em₂, code,
    h.operandsOk hGrants (operands_length op d) hNoZero, hEq,
    hBody⟩

/- From there the epilogue leaves the block. -/
theorem Arrived.epilogue
    (h : Arrived P s t em blk m)
    (fuel : Nat)
    (hFuel :
      (em.rvjitEmitEpilogue blk).bytes.length ≤ fuel) :
    ∃ m', (jitEnv P).run (em.rvjitEmitEpilogue blk).bytes fuel
        0 (entryMachine P s) = some m' ∧
      m'.mem = t := by
  rcases h.holds.epilogue with ⟨m', hRuns, hStack, hMem⟩
  have hCode : (em.rvjitEmitEpilogue blk).bytes =
      (blk.bytes ++ (guestRegs.flatMap
          (fun r => writeBack (em.vregs r)) ++
        pop REG_R14 ++ pop REG_R13 ++ pop REG_R12)) ++
          ret := by
    unfold rvjitEmitEpilogue
    rw [JitBlock.realizeLabel_of_none h.labels,
      JitBlock.realizeLabel_of_none h.labels,
      List.append_assoc]
    rfl
  rw [hCode] at hFuel ⊢
  exact ⟨m', X86.Env.run_of_runs (h.runs.append hRuns) rfl
    hStack fuel hFuel, hMem⟩

/- The invariant holds there. -/
theorem Arrived.invariant
    (h : Arrived P s t em blk m) :
    AllocatorInvariant P s t em blk := by
  refine ⟨h.point, ?_, ?_⟩
  · intro op d template hEntry hNoZero
    exact h.next hEntry hNoZero
  · intro fuel hFuel
    rcases h.epilogue fuel hFuel with ⟨m', hRun, hMem⟩
    exact ⟨m', hRun, fun r => by rw [hMem]⟩

/- The prologue arrives at the first one. -/
theorem arrived_prologue
    (P : Platform σ)
    (s : State σ)
    (hBytes : blk.bytes = [])
    (hLabels : blk.jmpLabels = []) :
    ∃ m, Arrived P s s .reset (rvjitEmitPrologue blk) m := by
  rcases holds_prologue P s with ⟨m, hRuns, hHolds⟩
  refine ⟨m, ?_, hHolds, hLabels⟩
  show (jitEnv P).Runs (blk.bytes ++ prologueCode) _ m
  rw [hBytes]
  exact hRuns

/- One instruction of the run. -/
theorem Arrived.instr
    (h : Arrived P s t em blk m)
    (hEntry : conversionTbl P.host.slow op = some template)
    (hNoZero : NoZero op d)
    (hSafe : SafeStep P op d em blk t)
    (hEmit : template d em blk = .ok (em', blk'))
    (hStep : guestStep P op d t = some t') :
    ∃ m', Arrived P s t' em' blk' m' := by
  rcases template_spec h.holds.wf h.labels hEntry hNoZero with
    ⟨em₁, blk₁, em₂, code, hGrants, hEq, hBody⟩
  cases hEq.symm.trans hEmit
  have hFew := operands_length op d
  rcases h.grants hGrants hFew with ⟨m₁, hArrived⟩
  have hGranted : ∀ r ∈ operands op d, ∃ i,
      em₁.slot i = some r := by
    intro r hr
    exact ((hGrants.spec h.holds.wf hFew).2.2 r hr).resolve_left
      (hNoZero r hr)
  rcases hBody.run hArrived.holds hGrants hGranted hSafe hStep
    with ⟨m', hRuns, hHolds⟩
  exact ⟨m', hArrived.runs.append hRuns, hHolds,
    hArrived.labels⟩

/- Compiled code arrives at all others. -/
theorem Compiled.arrived
    (h : Compiled P (SafeStep P) s em blk t) :
    ∃ m, Arrived P s t em blk m := by
  induction h with
  | prologue hBytes hLabels =>
      exact arrived_prologue P s hBytes hLabels
  | counted before hBytes hLabels ih =>
      rcases ih with ⟨m, hArrived⟩
      exact ⟨m, hBytes ▸ hArrived.runs, hArrived.holds,
        hLabels ▸ hArrived.labels⟩
  | instr before hEntry hNoZero hSafe hEmit hStep ih =>
      rcases ih with ⟨m, hArrived⟩
      exact hArrived.instr hEntry hNoZero hSafe hEmit hStep

/-
  The invariant of the allocator, over all runs in which no
  value is lost in a call and no shortcut for a zero
  immediate changes a result.
-/
theorem allocator_invariant
    (h : Compiled P (SafeStep P) s em blk t) :
    AllocatorInvariant P s t em blk := by
  rcases h.arrived with ⟨m, hArrived⟩
  exact hArrived.invariant

/- The store `sd x1, 0(x2)` at the start of RAM. -/
theorem allocator_invariant_store :
    ∃ em blk t,
      execjitSD Platform.bare.host.slow
          ⟨0x00113023, 2, 1, 0, 0, 0, 3⟩ .reset
          (rvjitEmitPrologue .empty) = .ok (em, blk) ∧
      AllocatorInvariant Platform.bare
        ((State.boot []).setGpr 2 0x80000000) t em blk := by
  have hSafe : SafeStep Platform.bare .SD
      ⟨0x00113023, 2, 1, 0, 0, 0, 3⟩ .reset
      (rvjitEmitPrologue .empty)
      ((State.boot []).setGpr 2 0x80000000) := by
    constructor
    · intro f hValue
      cases hValue
    · intro fastMov size _ hSlow
      exact absurd (by decide) hSlow
  have hEntry : conversionTbl Platform.bare.host.slow .SD =
      some (execjitSD Platform.bare.host.slow) := rfl
  exact ⟨_, _, _, rfl, allocator_invariant (.instr
    (.prologue rfl rfl) hEntry (by decide) hSafe rfl rfl)⟩

/- Compile a list of instructions and follow their values. -/
def compileAll
    (P : Platform σ) :
    List (Op × InstructionData) →
      JitEmitter × JitBlock × State σ →
        Option (JitEmitter × JitBlock × State σ)
  | [], c => some c
  | (op, d) :: rest, (em, blk, t) => do
      let template ← conversionTbl P.host.slow op
      let (em, blk) ← (template d em blk).toOption
      let t ← guestStep P op d t
      compileAll P rest (em, blk, t)

/- A whole program is compiled if each of it may be. -/
theorem Compiled.all
    {ok : StepCondition σ}
    (hOk : ∀ op d em blk t, ok op d em blk t)
    {prog : List (Op × InstructionData)}
    (hNoZero : ∀ i ∈ prog, NoZero i.1 i.2)
    (h : Compiled P ok s em blk t)
    (hAll : compileAll P prog (em, blk, t) =
      some (em', blk', t')) :
    Compiled P ok s em' blk' t' := by
  induction prog generalizing em blk t with
  | nil =>
      cases hAll
      exact h
  | cons i rest ih =>
      rcases i with ⟨op, d⟩
      rcases Option.bind_eq_some_iff.mp hAll with
        ⟨template, hEntry, hAll⟩
      rcases Option.bind_eq_some_iff.mp hAll with
        ⟨⟨em₁, blk₁⟩, hEmit, hAll⟩
      rcases Option.bind_eq_some_iff.mp hAll with
        ⟨t₁, hStep, hAll⟩
      have hEq : template d em blk = .ok (em₁, blk₁) := by
        cases hCode : template d em blk with
        | error e =>
            rw [hCode] at hEmit
            cases hEmit
        | ok r =>
            rw [hCode] at hEmit
            cases hEmit
            rfl
      refine ih (fun i hi =>
        hNoZero i (List.mem_cons_of_mem _ hi)) ?_ hAll
      exact .instr h hEntry (hNoZero _ List.mem_cons_self)
        (hOk op d em blk t) hEq hStep

/-
  A machine with the serial port. A transmitted byte is
  flushed at once, by the system call `write`, and `syscall`
  puts the flags of the host into `R11`.
-/
def Platform.withUart : Platform (UartWorld .oneHart) :=
  { Platform.bare.withDevs [uartDevice .oneHart] with
    clobber := fun r => if r = 11 then 0x246 else 0 }

/- `x2` is just below the port; `x8` is not a set of flags. -/
def lostStart : State (UartWorld .oneHart) :=
  let pins : Nat → HartPins := fun _ => ⟨0, 0, 0⟩
  ((((State.boot []).withWorld
    ⟨.new 1 ⟨.init _, pins⟩, pins⟩).setGpr 1 0x40).setGpr 2
      0x0FFFFFFF).setGpr 8 0x1122334455667787

/-
  Eight times `addi x, x, 1`, so that `x8` is in `R11`, and
  `sb x1, 0(x2)`, which transmits a byte.
-/
def lostProgram : List (Op × InstructionData) :=
  [(.ADDI, ⟨0x00108093, 1, 1, 1, 1, 0, 0⟩),
    (.ADDI, ⟨0x00110113, 2, 1, 2, 1, 0, 0⟩),
    (.ADDI, ⟨0x00118193, 3, 1, 3, 1, 0, 0⟩),
    (.ADDI, ⟨0x00120213, 4, 1, 4, 1, 0, 0⟩),
    (.ADDI, ⟨0x00128293, 5, 1, 5, 1, 0, 0⟩),
    (.ADDI, ⟨0x00130313, 6, 1, 6, 1, 0, 0⟩),
    (.ADDI, ⟨0x00138393, 7, 1, 7, 1, 0, 0⟩),
    (.ADDI, ⟨0x00140413, 8, 1, 8, 1, 0, 0⟩),
    (.SB, ⟨0x00110023, 2, 1, 0, 0, 0, 0⟩)]

/- The epilogue stores the flags as the value of `x8`. -/
theorem allocator_loses_r11 :
    ∃ em blk t,
      compileAll Platform.withUart lostProgram
          (.reset, rvjitEmitPrologue .empty, lostStart) =
        some (em, blk, t) ∧
      Compiled Platform.withUart (fun _ _ _ _ _ => True)
        lostStart em blk t ∧
      t.world.dev.out = [0x41] ∧
      ¬ AllocatorInvariant Platform.withUart lostStart t em
        blk := by
  have hRun : ((compileAll Platform.withUart lostProgram
      (.reset, rvjitEmitPrologue .empty, lostStart)).map
        fun (em, blk, t) =>
          (((jitEnv Platform.withUart).run
              (em.rvjitEmitEpilogue blk).bytes 300 0
              (entryMachine Platform.withUart lostStart)).map
            fun m : X86.Machine (State (UartWorld .oneHart)) =>
              m.mem.gpr 8,
          t.gpr 8,
          t.world.dev.out,
          decide ((em.rvjitEmitEpilogue blk).bytes.length ≤
            300))) =
      some (some 0x246, 0x1122334455667788, [0x41], true) := by
    decide +kernel
  rcases Option.map_eq_some_iff.mp hRun with
    ⟨⟨em, blk, t⟩, hAll, hValues⟩
  simp only [Prod.mk.injEq, decide_eq_true_eq] at hValues
  rcases hValues with ⟨hLost, hValue, hOut, hLength⟩
  refine ⟨em, blk, t, hAll, ?_, hOut, ?_⟩
  · exact Compiled.all (fun _ _ _ _ _ => trivial) (by decide)
      (.prologue rfl rfl) hAll
  · intro hInvariant
    rcases hInvariant.epilogue 300 hLength with
      ⟨m, hMachine, hBack⟩
    rw [hMachine, Option.map_some, hBack 8, hValue] at hLost
    cases hLost

end RiscvEm
