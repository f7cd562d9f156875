import RiscvEm.Jit.Encoded

/-
  The invariant of the register allocator: which guest
  register a host register holds is recorded the same way on
  both sides, and only allocated registers can be dirty.

  The least recent use of a host register plays no part in
  it; a spill may take any host register that is not locked.

  Key definitions include:
    * `JitEmitter.slot`
    * `JitEmitter.Wf`

  Key theorems include:
    * `JitEmitter.spillVictim_of_free`
    * `JitEmitter.Wf.release`
    * `JitEmitter.Wf.assign`
-/

------------------------------------------------------------
-- Host Registers For Guests
------------------------------------------------------------

namespace RiscvEm

open X86

/- The number of a host register for guest registers. -/
def hostOf
    (i : Fin 8) : Reg :=
  (hostRegArray i).setWidth 4

/- The byte of a register for guests. -/
theorem hostByte_hostOf
    (i : Fin 8) :
    hostByte (hostOf i) = hostRegArray i := by
  revert i
  decide

/- The eight registers differ. -/
theorem hostOf_injective
    {i j : Fin 8}
    (h : hostOf i = hostOf j) :
    i = j := by
  revert i j
  decide

/- The bytes of the eight registers differ. -/
theorem hostRegArray_injective
    {i j : Fin 8}
    (h : hostRegArray i = hostRegArray j) :
    i = j :=
  hostOf_injective (congrArg (BitVec.setWidth 4) h)

/- The scratch and the context registers hold no guests. -/
theorem hostOf_ne
    (i : Fin 8) :
    hostOf i ≠ 1 ∧ hostOf i ≠ 12 ∧ hostOf i ≠ 13 ∧
      hostOf i ≠ 14 := by
  revert i
  decide

/- Both widths of a lock bit agree on these registers. -/
theorem lockBit32_hostRegArray
    (i : Fin 8) :
    JitEmitter.lockBit32 (hostRegArray i) =
      JitEmitter.lockBit (hostRegArray i) := by
  revert i
  decide

/- Host register `i` is not among the locked ones. -/
def Unlocked
    (locked : BitVec 64)
    (i : Fin 8) : Prop :=
  locked &&& JitEmitter.lockBit (hostRegArray i) = 0

end RiscvEm

------------------------------------------------------------
-- The Invariant
------------------------------------------------------------

namespace RiscvEm

namespace JitEmitter

variable {em : JitEmitter}

/- The guest register that host register `i` holds. -/
def slot
    (em : JitEmitter)
    (i : Fin 8) : Option (BitVec 5) :=
  if (em.hostRegs i).used then (em.hostRegs i).vreg else none

/-
  The tables agree. Between two calls of the allocator an
  allocated register is also loaded.
-/
structure Wf
    (em : JitEmitter) : Prop where
  vreg : ∀ r, (em.vregs r).vreg = r
  isZero : ∀ r, (em.vregs r).isZero = decide (r = 0)
  hostReg : ∀ i, (em.hostRegs i).hostReg = hostRegArray i
  zeroFree : (em.vregs 0).allocated = false
  zeroHost : (em.vregs 0).hostReg = 0xFF
  used : ∀ i, (em.hostRegs i).used = true →
    ∃ r, em.slot i = some r
  placed : ∀ r, (em.vregs r).allocated = true →
    ∃ i, em.slot i = some r
  holds : ∀ i r, em.slot i = some r →
    (em.vregs r).allocated = true ∧
      (em.vregs r).valid = true ∧
      (em.vregs r).hostReg = hostRegArray i
  idle : ∀ r, (em.vregs r).allocated = false →
    (em.vregs r).valid = false ∧ (em.vregs r).dirty = false

/- A reset emitter is well-formed. -/
theorem reset_wf :
    reset.Wf := by
  constructor
  · intro r
    rfl
  · intro r
    rfl
  · intro i
    rfl
  · rfl
  · rfl
  · intro i hUsed
    cases hUsed
  · intro r hAllocated
    cases hAllocated
  · intro i r hSlot
    cases hSlot
  · intro r _
    exact ⟨rfl, rfl⟩

namespace Wf

/- A guest register is held at most once. -/
theorem slot_unique
    (h : em.Wf)
    {i j : Fin 8}
    {r : BitVec 5}
    (hi : em.slot i = some r)
    (hj : em.slot j = some r) :
    i = j := by
  apply hostRegArray_injective
  rw [← (h.holds i r hi).2.2, ← (h.holds j r hj).2.2]

/- `x0` is never held. -/
theorem slot_ne_zero
    (h : em.Wf)
    {i : Fin 8}
    {r : BitVec 5}
    (hSlot : em.slot i = some r) :
    r ≠ 0 := by
  rintro rfl
  have hHeld := (h.holds i 0 hSlot).1
  rw [h.zeroFree] at hHeld
  cases hHeld

/- A dirty register is held. -/
theorem slot_of_dirty
    (h : em.Wf)
    {r : BitVec 5}
    (hDirty : (em.vregs r).dirty = true) :
    ∃ i, em.slot i = some r := by
  cases hAllocated : (em.vregs r).allocated with
  | true => exact h.placed r hAllocated
  | false =>
      rw [(h.idle r hAllocated).2] at hDirty
      cases hDirty

end Wf

end JitEmitter

end RiscvEm

------------------------------------------------------------
-- Choosing A Host Register
------------------------------------------------------------

namespace RiscvEm

namespace JitEmitter

variable {em : JitEmitter}

/- A free host register is unlocked and unused. -/
theorem findFree_some
    (h : em.Wf)
    {locked : BitVec 64}
    {i : Fin 8}
    (hFind : em.findFree locked = some i) :
    Unlocked locked i ∧ (em.hostRegs i).used = false := by
  have hSome := List.find?_some hFind
  simp only [Bool.and_eq_true, decide_eq_true_eq, h.hostReg,
    lockBit32_hostRegArray, Bool.not_eq_true'] at hSome
  exact hSome

/- If none is free, all unlocked ones are in use. -/
theorem findFree_none
    (h : em.Wf)
    {locked : BitVec 64}
    (hFind : em.findFree locked = none)
    {i : Fin 8}
    (hUnlocked : Unlocked locked i) :
    (em.hostRegs i).used = true := by
  have hNone := List.find?_eq_none.mp hFind i
    (List.mem_finRange i)
  simp only [Bool.and_eq_true, decide_eq_true_eq, h.hostReg,
    lockBit32_hostRegArray, Bool.not_eq_true',
    not_and, Bool.not_eq_false] at hNone
  exact hNone hUnlocked

/-
  A fold that skips what is not acceptable, and otherwise
  takes the new element or stays with an older one.
-/
theorem foldl_choice
    {α : Type}
    {f : Option α → α → Option α}
    {p : α → Prop}
    (hSkip : ∀ v a, ¬ p a → f v a = v)
    (hTake : ∀ v a, p a →
      f v a = some a ∨ v.isSome = true ∧ f v a = v)
    (l : List α)
    {v : Option α}
    (hOld : ∀ a, v = some a → p a)
    (hAny : v.isSome = true ∨ ∃ a ∈ l, p a) :
    ∃ a, l.foldl f v = some a ∧ p a := by
  induction l generalizing v with
  | nil =>
      rcases hAny with hSome | ⟨a, hMem, -⟩
      · rcases Option.isSome_iff_exists.mp hSome with ⟨a, rfl⟩
        exact ⟨a, rfl, hOld a rfl⟩
      · cases hMem
  | cons a l ih =>
      rw [List.foldl_cons]
      by_cases hp : p a
      · rcases hTake v a hp with hNew | ⟨hSome, hStay⟩
        · rw [hNew]
          apply ih
          · intro b hb
            cases hb
            exact hp
          · exact .inl rfl
        · rw [hStay]
          exact ih hOld (.inl hSome)
      · rw [hSkip v a hp]
        apply ih hOld
        rcases hAny with hSome | ⟨b, hMem, hb⟩
        · exact .inl hSome
        · rcases List.mem_cons.mp hMem with rfl | hMem
          · exact absurd hb hp
          · exact .inr ⟨b, hMem, hb⟩

/- A victim is unlocked, and there is one if any is. -/
theorem spillVictim_of_free
    (h : em.Wf)
    {locked : BitVec 64}
    (hFree : ∃ i, Unlocked locked i) :
    ∃ i, em.spillVictim locked = some i ∧
      Unlocked locked i := by
  unfold spillVictim
  apply foldl_choice
  · intro victim i hLocked
    rw [h.hostReg]
    exact if_pos hLocked
  · intro victim i hUnlocked
    have hBit : locked &&& lockBit (hostRegArray i) = 0 :=
      hUnlocked
    rw [h.hostReg, if_neg (not_not_intro hBit)]
    cases victim with
    | none => exact .inl rfl
    | some j =>
        dsimp only
        split
        · exact .inl rfl
        · exact .inr ⟨rfl, rfl⟩
  · intro i hi
    cases hi
  · rcases hFree with ⟨i, hUnlocked⟩
    exact .inr ⟨i, List.mem_finRange i, hUnlocked⟩

end JitEmitter

end RiscvEm

------------------------------------------------------------
-- Changing What Is Held
------------------------------------------------------------

namespace RiscvEm

namespace JitEmitter

variable {em em' : JitEmitter}

/- A used register holds a guest. -/
theorem slot_of_used
    {i : Fin 8}
    (hUsed : (em.hostRegs i).used = true) :
    em.slot i = (em.hostRegs i).vreg :=
  if_pos hUsed

/- An unused register holds no guest. -/
theorem slot_of_unused
    {i : Fin 8}
    (hUsed : (em.hostRegs i).used = false) :
    em.slot i = none :=
  if_neg (Bool.eq_false_iff.mp hUsed)

/- What is held depends on the host register only. -/
theorem slot_congr
    {i : Fin 8}
    (h : em'.hostRegs i = em.hostRegs i) :
    em'.slot i = em.slot i := by
  unfold slot
  rw [h]

/- A host register reads what was set. -/
theorem setHReg_self
    (em : JitEmitter)
    (i : Fin 8)
    (x : HReg) :
    (em.setHReg i x).hostRegs i = x := by
  simp [setHReg]

/- Setting a host register leaves the others. -/
theorem setHReg_of_ne
    (em : JitEmitter)
    {i j : Fin 8}
    (h : j ≠ i)
    (x : HReg) :
    (em.setHReg i x).hostRegs j = em.hostRegs j := by
  simp [setHReg, h]

/- A guest register reads what was set. -/
theorem setVReg_self
    (em : JitEmitter)
    (r : BitVec 5)
    (v : VReg) :
    (em.setVReg r v).vregs r = v := by
  simp [setVReg]

/- Setting a guest register leaves the others. -/
theorem setVReg_of_ne
    (em : JitEmitter)
    {r q : BitVec 5}
    (h : q ≠ r)
    (v : VReg) :
    (em.setVReg r v).vregs q = em.vregs q := by
  simp [setVReg, h]

/- A guest register that is set twice has the last value. -/
theorem setVReg_setVReg
    (r : BitVec 5)
    (v v' : VReg) :
    (em.setVReg r v).setVReg r v' = em.setVReg r v' := by
  simp [setVReg]

/- The uses of host registers play no part. -/
theorem Wf.touch
    (h : em.Wf)
    (hVRegs : em'.vregs = em.vregs)
    (hHost : ∀ j, ∃ n, em'.hostRegs j =
      { em.hostRegs j with lastUse := n }) :
    em'.Wf ∧ em'.slot = em.slot := by
  have hSlot : em'.slot = em.slot := by
    funext j
    rcases hHost j with ⟨n, hj⟩
    unfold slot
    rw [hj]
  refine ⟨?_, hSlot⟩
  constructor
  · rw [hVRegs]
    exact h.vreg
  · rw [hVRegs]
    exact h.isZero
  · intro j
    rcases hHost j with ⟨n, hj⟩
    rw [hj]
    exact h.hostReg j
  · rw [hVRegs]
    exact h.zeroFree
  · rw [hVRegs]
    exact h.zeroHost
  · intro j hUsed
    rcases hHost j with ⟨n, hj⟩
    rw [hj] at hUsed
    rw [hSlot]
    exact h.used j hUsed
  · rw [hVRegs, hSlot]
    exact h.placed
  · rw [hVRegs, hSlot]
    exact h.holds
  · rw [hVRegs]
    exact h.idle

/- A register that is held may be dirty. -/
theorem Wf.setDirty
    (h : em.Wf)
    {r : BitVec 5}
    {i : Fin 8}
    (hSlot : em.slot i = some r) :
    (em.setDirty r).Wf := by
  have hVReg : ∀ q, ∃ d, (em.setDirty r).vregs q =
      { em.vregs q with dirty := d } ∧
        (q ≠ r → d = (em.vregs q).dirty) := by
    intro q
    by_cases hq : q = r
    · subst hq
      exact ⟨true, setVReg_self _ q _, fun hNe => absurd rfl hNe⟩
    · exact ⟨(em.vregs q).dirty, setVReg_of_ne _ hq _,
        fun _ => rfl⟩
  constructor
  · intro q
    rcases hVReg q with ⟨d, hEq, -⟩
    rw [hEq]
    exact h.vreg q
  · intro q
    rcases hVReg q with ⟨d, hEq, -⟩
    rw [hEq]
    exact h.isZero q
  · exact h.hostReg
  · rcases hVReg 0 with ⟨d, hEq, -⟩
    rw [hEq]
    exact h.zeroFree
  · rcases hVReg 0 with ⟨d, hEq, -⟩
    rw [hEq]
    exact h.zeroHost
  · exact h.used
  · intro q hq
    rcases hVReg q with ⟨d, hEq, -⟩
    rw [hEq] at hq
    exact h.placed q hq
  · intro j q hj
    rcases hVReg q with ⟨d, hEq, -⟩
    rw [hEq]
    exact h.holds j q hj
  · intro q hq
    rcases hVReg q with ⟨d, hEq, hClean⟩
    rw [hEq] at hq ⊢
    have hNe : q ≠ r := by
      rintro rfl
      rw [(h.holds i q hSlot).1] at hq
      cases hq
    rw [hClean hNe]
    exact h.idle q hq

/- A host register is given up. -/
def free
    (em : JitEmitter)
    (i : Fin 8)
    (g : BitVec 5) : JitEmitter :=
  (em.setHReg i { em.hostRegs i with used := false }).setVReg g
    { em.vregs g with
      allocated := false
      valid := false
      dirty := false }

/- A freed register holds none. -/
theorem free_slot_self
    (em : JitEmitter)
    (i : Fin 8)
    (g : BitVec 5) :
    (em.free i g).slot i = none := by
  apply slot_of_unused
  exact congrArg HReg.used (setHReg_self em i _)

/- Freeing a register leaves the others. -/
theorem free_slot_of_ne
    {i j : Fin 8}
    (hj : j ≠ i)
    (g : BitVec 5) :
    (em.free i g).slot j = em.slot j :=
  slot_congr (setHReg_of_ne em hj _)

/- Freeing a register keeps the invariant. -/
theorem Wf.release
    (h : em.Wf)
    {i : Fin 8}
    {g : BitVec 5}
    (hSlot : em.slot i = some g) :
    (em.free i g).Wf := by
  have hThis : (em.free i g).vregs g =
      { em.vregs g with
        allocated := false
        valid := false
        dirty := false } :=
    setVReg_self _ g _
  have hOther : ∀ q, q ≠ g →
      (em.free i g).vregs q = em.vregs q :=
    fun q hq => setVReg_of_ne _ hq _
  have hHost : ∀ j, j ≠ i →
      (em.free i g).hostRegs j = em.hostRegs j :=
    fun j hj => setHReg_of_ne _ hj _
  have hZero := (h.slot_ne_zero hSlot).symm
  constructor
  · intro q
    by_cases hq : q = g
    · subst hq
      rw [hThis]
      exact h.vreg q
    · rw [hOther q hq]
      exact h.vreg q
  · intro q
    by_cases hq : q = g
    · subst hq
      rw [hThis]
      exact h.isZero q
    · rw [hOther q hq]
      exact h.isZero q
  · intro j
    by_cases hj : j = i
    · subst hj
      exact (congrArg HReg.hostReg
        (setHReg_self em j _)).trans (h.hostReg j)
    · rw [hHost j hj]
      exact h.hostReg j
  · rw [hOther 0 hZero]
    exact h.zeroFree
  · rw [hOther 0 hZero]
    exact h.zeroHost
  · intro j hUsed
    have hj : j ≠ i := by
      rintro rfl
      have hFree : ((em.free j g).hostRegs j).used = false :=
        congrArg HReg.used (setHReg_self em j _)
      rw [hFree] at hUsed
      cases hUsed
    rw [hHost j hj] at hUsed
    rw [free_slot_of_ne hj]
    exact h.used j hUsed
  · intro q hq
    have hNe : q ≠ g := by
      rintro rfl
      rw [hThis] at hq
      cases hq
    rw [hOther q hNe] at hq
    rcases h.placed q hq with ⟨j, hj⟩
    have hji : j ≠ i := by
      rintro rfl
      rw [hSlot] at hj
      cases hj
      exact hNe rfl
    exact ⟨j, (free_slot_of_ne hji g).trans hj⟩
  · intro j q hj
    have hji : j ≠ i := by
      rintro rfl
      rw [free_slot_self] at hj
      cases hj
    rw [free_slot_of_ne hji] at hj
    have hNe : q ≠ g := by
      rintro rfl
      exact hji (h.slot_unique hj hSlot)
    rw [hOther q hNe]
    exact h.holds j q hj
  · intro q hq
    by_cases hEq : q = g
    · subst hEq
      rw [hThis]
      exact ⟨rfl, rfl⟩
    · rw [hOther q hEq] at hq ⊢
      exact h.idle q hq

/- What the tables say of a register that was just loaded. -/
structure Fresh
    (em' : JitEmitter)
    (i : Fin 8)
    (r : BitVec 5) : Prop where
  hostReg : (em'.hostRegs i).hostReg = hostRegArray i
  used : (em'.hostRegs i).used = true
  slot : (em'.hostRegs i).vreg = some r
  vreg : (em'.vregs r).vreg = r
  isZero : (em'.vregs r).isZero = decide (r = 0)
  allocated : (em'.vregs r).allocated = true
  valid : (em'.vregs r).valid = true
  place : (em'.vregs r).hostReg = hostRegArray i

/- A free host register takes a new guest register. -/
theorem Wf.assign
    (h : em.Wf)
    {i : Fin 8}
    {r : BitVec 5}
    (hFree : em.slot i = none)
    (hr : r ≠ 0)
    (hIdle : (em.vregs r).allocated = false)
    (hFresh : em'.Fresh i r)
    (hHost : ∀ j, j ≠ i → em'.hostRegs j = em.hostRegs j)
    (hVReg : ∀ q, q ≠ r → em'.vregs q = em.vregs q) :
    em'.Wf ∧ em'.slot i = some r ∧
      ∀ j, j ≠ i → em'.slot j = em.slot j := by
  have hThis : em'.slot i = some r :=
    (slot_of_used hFresh.used).trans hFresh.slot
  have hSlot : ∀ j, j ≠ i → em'.slot j = em.slot j :=
    fun j hj => slot_congr (hHost j hj)
  refine ⟨?_, hThis, hSlot⟩
  constructor
  · intro q
    by_cases hq : q = r
    · subst hq
      exact hFresh.vreg
    · rw [hVReg q hq]
      exact h.vreg q
  · intro q
    by_cases hq : q = r
    · subst hq
      exact hFresh.isZero
    · rw [hVReg q hq]
      exact h.isZero q
  · intro j
    by_cases hj : j = i
    · subst hj
      exact hFresh.hostReg
    · rw [hHost j hj]
      exact h.hostReg j
  · rw [hVReg 0 hr.symm]
    exact h.zeroFree
  · rw [hVReg 0 hr.symm]
    exact h.zeroHost
  · intro j hUsed
    by_cases hj : j = i
    · subst hj
      exact ⟨r, hThis⟩
    · rw [hHost j hj] at hUsed
      rw [hSlot j hj]
      exact h.used j hUsed
  · intro q hq
    by_cases hEq : q = r
    · subst hEq
      exact ⟨i, hThis⟩
    · rw [hVReg q hEq] at hq
      rcases h.placed q hq with ⟨j, hj⟩
      have hji : j ≠ i := by
        rintro rfl
        rw [hFree] at hj
        cases hj
      exact ⟨j, (hSlot j hji).trans hj⟩
  · intro j q hj
    by_cases hji : j = i
    · subst hji
      cases hThis.symm.trans hj
      exact ⟨hFresh.allocated, hFresh.valid, hFresh.place⟩
    · rw [hSlot j hji] at hj
      have hHeld := h.holds j q hj
      have hNe : q ≠ r := by
        rintro rfl
        rw [hIdle] at hHeld
        cases hHeld.1
      rw [hVReg q hNe]
      exact hHeld
  · intro q hq
    have hNe : q ≠ r := by
      rintro rfl
      rw [hFresh.allocated] at hq
      cases hq
    rw [hVReg q hNe] at hq ⊢
    exact h.idle q hq

end JitEmitter

end RiscvEm

------------------------------------------------------------
-- Allocation
------------------------------------------------------------

namespace RiscvEm

/- Emitting nothing changes nothing. -/
theorem JitBlock.emit_nil
    (blk : JitBlock) :
    blk.emit [] = blk := by
  simp [JitBlock.emit]

/- Code is emitted in order. -/
theorem JitBlock.emit_emit
    (blk : JitBlock)
    (c c' : Code) :
    (blk.emit c).emit c' = blk.emit (c ++ c') := by
  simp [JitBlock.emit]

namespace JitEmitter

variable {em em' : JitEmitter}

/- Load a guest register into host register `i`. -/
def loadCode
    (i : Fin 8)
    (r : BitVec 5) : Code :=
  movRm (hostRegArray i) REG_R13 NO_INDEX 0 (vregDisp r)

/- Store host register `i` as a guest register. -/
def storeCode
    (i : Fin 8)
    (r : BitVec 5) : Code :=
  movMr (hostRegArray i) REG_R13 NO_INDEX 0 (vregDisp r)

/- Valid registers are not loaded. -/
theorem ensureLoaded_of_valid
    {r : BitVec 5}
    (hValid : (em.vregs r).valid = true)
    (blk : JitBlock) :
    em.ensureLoaded blk r = (em, blk) := by
  simp [ensureLoaded, hValid]

/- Invalid registers are loaded. -/
theorem ensureLoaded_of_invalid
    {r : BitVec 5}
    (hAllocated : (em.vregs r).allocated = true)
    (hValid : (em.vregs r).valid = false)
    (blk : JitBlock) :
    em.ensureLoaded blk r =
      (em.setVReg r { em.vregs r with valid := true },
        blk.emit (movRm (em.vregs r).hostReg REG_R13 NO_INDEX 0
          (vregDisp (em.vregs r).vreg))) := by
  simp [ensureLoaded, hAllocated, hValid]

/- The emitter `em'` is `em` with `r` loaded into `i`. -/
structure Loaded
    (em em' : JitEmitter)
    (i : Fin 8)
    (r : BitVec 5) : Prop where
  wf : em'.Wf
  slot : em'.slot i = some r
  slots : ∀ j, j ≠ i → em'.slot j = em.slot j
  clean : (em'.vregs r).dirty = (em.vregs r).dirty
  vregs : ∀ q, q ≠ r → em'.vregs q = em.vregs q

/- Both branches that take a host register end this way. -/
theorem loaded_of_free
    (h : em.Wf)
    {i : Fin 8}
    {r : BitVec 5}
    (hFree : em.slot i = none)
    (hr : r ≠ 0)
    (hIdle : (em.vregs r).allocated = false)
    {x : HReg}
    (hHost : x.hostReg = hostRegArray i)
    (hUsed : x.used = true)
    (hHolds : x.vreg = some r)
    {v : VReg}
    (hVReg : v.vreg = r)
    (hZero : v.isZero = decide (r = 0))
    (hAllocated : v.allocated = true)
    (hValid : v.valid = false)
    (hPlace : v.hostReg = hostRegArray i)
    (hDirty : v.dirty = (em.vregs r).dirty)
    (blk : JitBlock) :
    ∃ em', ((em.setHReg i x).setVReg r v).ensureLoaded blk r =
        (em', blk.emit (loadCode i r)) ∧
      em.Loaded em' i r := by
  have hThis : ((em.setHReg i x).setVReg r v).vregs r = v :=
    setVReg_self _ r v
  refine ⟨(em.setHReg i x).setVReg r { v with valid := true },
    ?_, ?_⟩
  · have hCode : movRm v.hostReg REG_R13 NO_INDEX 0
        (vregDisp v.vreg) = loadCode i r := by
      rw [hVReg, hPlace]
      rfl
    rw [ensureLoaded_of_invalid, hThis, setVReg_setVReg, hCode]
    · rw [hThis, hAllocated]
    · rw [hThis, hValid]
  · have hFresh : ((em.setHReg i x).setVReg r
        { v with valid := true }).Fresh i r := by
      have hSelf : ((em.setHReg i x).setVReg r
          { v with valid := true }).vregs r =
            { v with valid := true } :=
        setVReg_self _ r _
      have hHostSelf : ((em.setHReg i x).setVReg r
          { v with valid := true }).hostRegs i = x :=
        setHReg_self _ i x
      constructor
      · rw [hHostSelf, hHost]
      · rw [hHostSelf, hUsed]
      · rw [hHostSelf, hHolds]
      · rw [hSelf, hVReg]
      · rw [hSelf, hZero]
      · rw [hSelf, hAllocated]
      · rw [hSelf]
      · rw [hSelf, hPlace]
    have hOther : ∀ q, q ≠ r →
        ((em.setHReg i x).setVReg r
          { v with valid := true }).vregs q = em.vregs q :=
      fun q hq => setVReg_of_ne _ hq _
    have hAssign := h.assign hFree hr hIdle hFresh
      (fun j hj => setHReg_of_ne _ hj x) hOther
    refine ⟨hAssign.1, hAssign.2.1, hAssign.2.2, ?_, hOther⟩
    exact (congrArg VReg.dirty
      (setVReg_self (em.setHReg i x) r _)).trans hDirty

/- What the allocator does; `x0` gets no host register. -/
inductive Allocates
    (em : JitEmitter)
    (r : BitVec 5)
    (locked : BitVec 64) : JitEmitter → Code → Prop where
  | zero
      (hr : r = 0) :
      Allocates em r locked em []
  | hit {em' : JitEmitter} {i : Fin 8}
      (hSlot : em.slot i = some r)
      (hWf : em'.Wf)
      (hSlots : em'.slot = em.slot)
      (hVRegs : em'.vregs = em.vregs) :
      Allocates em r locked em' []
  | load {em' : JitEmitter} {i : Fin 8}
      (hUnlocked : Unlocked locked i)
      (hFree : em.slot i = none)
      (hIdle : (em.vregs r).allocated = false)
      (hLoaded : em.Loaded em' i r) :
      Allocates em r locked em' (loadCode i r)
  | spill {em' : JitEmitter} {i : Fin 8} {g : BitVec 5}
      (hUnlocked : Unlocked locked i)
      (hSlot : em.slot i = some g)
      (hNe : r ≠ g)
      (hIdle : (em.vregs r).allocated = false)
      (hLoaded : (em.free i g).Loaded em' i r) :
      Allocates em r locked em'
        ((if (em.vregs g).dirty then storeCode i g else []) ++
          loadCode i r)

/- A victim is written back if it has to be. -/
theorem spill_eq
    (h : em.Wf)
    {i : Fin 8}
    {g : BitVec 5}
    {locked : BitVec 64}
    (hVictim : em.spillVictim locked = some i)
    (hGuest : (em.hostRegs i).vreg = some g)
    (blk : JitBlock) :
    em.spill blk locked =
      .ok (i, em.free i g,
        blk.emit (if (em.vregs g).dirty then storeCode i g
          else [])) := by
  have hCode : movMr (em.hostRegs i).hostReg REG_R13 NO_INDEX 0
      (vregDisp g) = storeCode i g := by
    rw [h.hostReg]
    rfl
  unfold spill
  rw [hVictim]
  dsimp only
  split
  case h_1 hNone =>
    rw [hGuest] at hNone
    cases hNone
  case h_2 g' hSome =>
    cases hGuest.symm.trans hSome
    rw [hCode]
    split
    · rfl
    · rw [JitBlock.emit_nil]
      rfl

/- A free host register is marked; `valid` is still false. -/
def takeFree
    (em : JitEmitter)
    (i : Fin 8)
    (r : BitVec 5) : JitEmitter :=
  (em.setHReg i
      { em.hostRegs i with used := true, vreg := some r }
    ).setVReg r
      { em.vregs r with
        hostReg := (em.hostRegs i).hostReg, allocated := true }

/- The same for a host register that was spilled. -/
def takeVictim
    (em : JitEmitter)
    (i : Fin 8)
    (r : BitVec 5) : JitEmitter :=
  (em.setHReg i
      { em.hostRegs i with used := true, vreg := some r }
    ).setVReg r
      { em.vregs r with
        valid := false
        allocated := true
        hostReg := (em.hostRegs i).hostReg
        hostIdx := (em.hostRegs i).idx }

/- What a call goes through without a register at hand. -/
theorem rvjitAllocReg_points
    (em : JitEmitter)
    (blk : JitBlock)
    {r : BitVec 5}
    (hr : r ≠ 0)
    (hIdle : (em.vregs r).allocated = false)
    (locked : BitVec 64) :
    em.rvjitAllocReg blk r locked =
      match em.findFree locked with
      | some i => .ok ((em.takeFree i r).ensureLoaded blk r)
      | none => (do
          let (i, em, blk) ← em.spill blk locked
          .ok ((em.takeVictim i r).ensureLoaded blk r)) := by
  unfold rvjitAllocReg
  rw [if_neg hr, hIdle, if_neg Bool.false_ne_true]
  rfl

/- The allocator does not fail while a register is unlocked. -/
theorem rvjitAllocReg_spec
    (h : em.Wf)
    (blk : JitBlock)
    (r : BitVec 5)
    {locked : BitVec 64}
    (hFree : ∃ i, Unlocked locked i) :
    ∃ em' code,
      em.rvjitAllocReg blk r locked =
          .ok (em', blk.emit code) ∧
        em.Allocates r locked em' code := by
  by_cases hr : r = 0
  · refine ⟨em, [], ?_, .zero hr⟩
    unfold rvjitAllocReg
    rw [if_pos hr, JitBlock.emit_nil]
  cases hAllocated : (em.vregs r).allocated with
  | true =>
      unfold rvjitAllocReg
      rw [if_neg hr, hAllocated, if_pos rfl]
      dsimp only
      generalize hIdx : (em.vregs r).hostIdx = idx
      generalize em.globalUseCounter + 1 = n
      rcases h.placed r hAllocated with ⟨i, hSlot⟩
      have hValid := (h.holds i r hSlot).2.1
      have hTouch : ∀ em', em' =
          { em with globalUseCounter := n }.setHReg idx
            { em.hostRegs idx with lastUse := n } →
          em'.vregs = em.vregs ∧ ∀ j, ∃ n, em'.hostRegs j =
            { em.hostRegs j with lastUse := n } := by
        rintro em' rfl
        refine ⟨rfl, ?_⟩
        intro j
        by_cases hj : j = idx
        · subst hj
          exact ⟨n, setHReg_self
            { em with globalUseCounter := n } j _⟩
        · exact ⟨(em.hostRegs j).lastUse, setHReg_of_ne
            { em with globalUseCounter := n } hj _⟩
      generalize hEm : { em with globalUseCounter := n }.setHReg
        idx { em.hostRegs idx with lastUse := n } = em'
      rcases hTouch em' hEm.symm with ⟨hVRegs, hHost⟩
      have hWf := h.touch hVRegs hHost
      refine ⟨em', [], ?_, .hit hSlot hWf.1 hWf.2 hVRegs⟩
      rw [ensureLoaded_of_valid (hVRegs ▸ hValid),
        JitBlock.emit_nil]
  | false =>
      rw [rvjitAllocReg_points em blk hr hAllocated locked]
      have hIdle := h.idle r hAllocated
      cases hFind : em.findFree locked with
      | some i =>
          rcases findFree_some h hFind with
            ⟨hUnlocked, hUnused⟩
          have hSlot := slot_of_unused hUnused
          rcases loaded_of_free h hSlot hr hAllocated
            (x := { em.hostRegs i with
              used := true, vreg := some r })
            (h.hostReg i) rfl rfl
            (v := { em.vregs r with
              hostReg := (em.hostRegs i).hostReg
              allocated := true })
            (h.vreg r) (h.isZero r) rfl hIdle.1 (h.hostReg i)
            rfl blk with ⟨em', hEnsure, hLoaded⟩
          exact ⟨em', _, congrArg Except.ok hEnsure,
            .load hUnlocked hSlot hAllocated hLoaded⟩
      | none =>
          rcases spillVictim_of_free h hFree with
            ⟨i, hVictim, hUnlocked⟩
          have hUsed := findFree_none h hFind hUnlocked
          rcases h.used i hUsed with ⟨g, hSlot⟩
          have hGuest : (em.hostRegs i).vreg = some g :=
            (slot_of_used hUsed).symm.trans hSlot
          have hNe : r ≠ g := by
            rintro rfl
            rw [(h.holds i r hSlot).1] at hAllocated
            cases hAllocated
          have hOther : (em.free i g).vregs r = em.vregs r :=
            setVReg_of_ne _ hNe _
          have hSpill := spill_eq h hVictim hGuest blk
          have hFreed := h.release hSlot
          rcases loaded_of_free hFreed (free_slot_self em i g)
            hr (hOther ▸ hAllocated)
            (x := { (em.free i g).hostRegs i with
              used := true, vreg := some r })
            (hFreed.hostReg i) rfl rfl
            (v := { (em.free i g).vregs r with
              valid := false
              allocated := true
              hostReg := ((em.free i g).hostRegs i).hostReg
              hostIdx := ((em.free i g).hostRegs i).idx })
            (hFreed.vreg r) (hFreed.isZero r) rfl rfl
            (hFreed.hostReg i) rfl
            (blk.emit (if (em.vregs g).dirty then storeCode i g
              else [])) with ⟨em', hEnsure, hLoaded⟩
          refine ⟨em', _, ?_, .spill hUnlocked hSlot hNe
            hAllocated hLoaded⟩
          rw [← JitBlock.emit_emit, ← hEnsure]
          simp only [hSpill, bind, Except.bind]
          rfl

/- The register is held after a call of the allocator. -/
theorem Allocates.slot
    {r : BitVec 5}
    {locked : BitVec 64}
    {code : Code}
    (h : em.Allocates r locked em' code)
    (hr : r ≠ 0) :
    ∃ i, em'.slot i = some r := by
  cases h with
  | zero hZero => exact absurd hZero hr
  | @hit _ i hSlot hWf hSlots hVRegs =>
      exact ⟨i, (congrFun hSlots i).trans hSlot⟩
  | @load _ i hUnlocked hFree hIdle hLoaded =>
      exact ⟨i, hLoaded.slot⟩
  | @spill _ i g hUnlocked hSlot hNe hIdle hLoaded =>
      exact ⟨i, hLoaded.slot⟩

/- What a locked host register holds stays there. -/
theorem Allocates.keeps
    {r q : BitVec 5}
    {locked : BitVec 64}
    {code : Code}
    (h : em.Allocates r locked em' code)
    {j : Fin 8}
    (hLocked : ¬ Unlocked locked j)
    (hSlot : em.slot j = some q) :
    em'.slot j = some q := by
  cases h with
  | zero hr => exact hSlot
  | hit hHit hWf hSlots hVRegs =>
      rw [hSlots]
      exact hSlot
  | @load _ i hUnlocked hFree hIdle hLoaded =>
      have hji : j ≠ i := by
        rintro rfl
        exact hLocked hUnlocked
      rw [hLoaded.slots j hji]
      exact hSlot
  | @spill _ i g hUnlocked hVictim hNe hIdle hLoaded =>
      have hji : j ≠ i := by
        rintro rfl
        exact hLocked hUnlocked
      rw [hLoaded.slots j hji, free_slot_of_ne hji]
      exact hSlot

/- At most one store and one load are emitted. -/
theorem Allocates.length_le
    {r : BitVec 5}
    {locked : BitVec 64}
    {code : Code}
    (h : em.Allocates r locked em' code) :
    code.length ≤ 14 := by
  have hLength : ∀ i q, (loadCode i q).length ≤ 7 ∧
      (storeCode i q).length ≤ 7 := by
    decide +kernel
  cases h with
  | zero hr => exact Nat.zero_le _
  | hit hHit hWf hSlots hVRegs => exact Nat.zero_le _
  | @load _ i hUnlocked hFree hIdle hLoaded =>
      have hLoadI := (hLength i r).1
      omega
  | @spill _ i g hUnlocked hVictim hNe hIdle hLoaded =>
      have hLoadI := (hLength i r).1
      have hStoreI := (hLength i g).2
      rw [List.length_append]
      split
      · omega
      · rw [List.length_nil]
        omega

end JitEmitter

end RiscvEm

------------------------------------------------------------
-- Write-Backs
------------------------------------------------------------

namespace RiscvEm

variable {em : JitEmitter}

/- All guest registers are listed. -/
theorem mem_guestRegs
    (r : BitVec 5) :
    r ∈ JitEmitter.guestRegs := by
  revert r
  decide

/- Clean registers are not written back. -/
theorem writeBack_clean
    {r : BitVec 5}
    (hDirty : (em.vregs r).dirty = false) :
    JitEmitter.writeBack (em.vregs r) = [] := by
  simp [JitEmitter.writeBack, hDirty]

/- Dirty ones are stored from where they are held. -/
theorem writeBack_dirty
    (hWf : em.Wf)
    {i : Fin 8}
    {r : BitVec 5}
    (hSlot : em.slot i = some r)
    (hDirty : (em.vregs r).dirty = true) :
    JitEmitter.writeBack (em.vregs r) =
      JitEmitter.storeCode i r := by
  rcases hWf.holds i r hSlot with ⟨hAllocated, -, hPlace⟩
  have hZero : (em.vregs r).isZero = false := by
    rw [hWf.isZero]
    exact decide_eq_false (hWf.slot_ne_zero hSlot)
  unfold JitEmitter.writeBack
  rw [hAllocated, hDirty, hZero, hPlace, hWf.vreg]
  rfl

end RiscvEm
