import RiscvEm.Sets.Traps

/-
  Trap entry and return: `MRET` and `SRET` undo what `trap`
  has done.

  Key definitions include:
    * `ReturnedTo`

  Key theorems include `trap_return_inverse`.
-/

------------------------------------------------------------
-- Bits Of The Status Register
------------------------------------------------------------

namespace RiscvEm

/- A field holds what was written to it. -/
theorem getLsbD_setField_self
    {n : Nat}
    (raw : BitVec 64)
    (lo : Nat)
    (v : BitVec n)
    (i : Nat)
    (hi : i < n)
    (hLo : lo + i < 64) :
    (setField raw lo v).getLsbD (lo + i) = v.getLsbD i := by
  unfold setField
  simp [hLo, hi]

/- Reading back a field of one bit. -/
theorem extract_setField_self
    {n : Nat}
    (raw : BitVec 64)
    (lo : Nat)
    (v : BitVec n)
    (hLo : lo + n ≤ 64) :
    (setField raw lo v).extractLsb' lo n = v := by
  apply BitVec.eq_of_getLsbD_eq
  intro i hi
  rw [BitVec.getLsbD_extractLsb']
  simp only [hi, decide_true, Bool.true_and]
  exact getLsbD_setField_self raw lo v i hi (by omega)

theorem extract_setField_of_disjoint
    {n : Nat}
    (raw : BitVec 64)
    (lo : Nat)
    (v : BitVec n)
    (lo' n' : Nat)
    (hOut : lo' + n' ≤ lo ∨ lo + n ≤ lo') :
    (setField raw lo v).extractLsb' lo' n' =
      raw.extractLsb' lo' n' := by
  apply BitVec.eq_of_getLsbD_eq
  intro i hi
  rw [BitVec.getLsbD_extractLsb', BitVec.getLsbD_extractLsb']
  rw [getLsbD_setField raw lo v (lo' + i) (by omega)]

end RiscvEm

------------------------------------------------------------
-- Trap Entry
------------------------------------------------------------

namespace RiscvEm

variable {σ : Type}

/- The bit that delegates a trap. -/
def Hart.delegationBit
    (h : Hart)
    (cause : BitVec 64)
    (interrupt : Bool) : Bool :=
  (if interrupt then
    h.csrs CSR_MIDELEG
  else
    h.csrs CSR_MEDELEG).getLsbD cause.toNat

theorem Hart.delegateToS_iff
    (h : Hart)
    (cause : BitVec 64)
    (interrupt : Bool) :
    h.delegateToS cause interrupt = true ↔
      h.mode ≠ .Machine ∧
        h.delegationBit cause interrupt = true := by
  have hBit : ∀ (v : BitVec 64) (k : Nat),
      ((v >>> k) &&& 1 == 1) = v.getLsbD k := by
    intro v k
    rw [Bool.eq_iff_iff, beq_iff_eq]
    constructor
    · intro hEq
      have hZero := congrArg (fun x => x.getLsbD 0) hEq
      simpa using hZero
    · intro hk
      apply BitVec.eq_of_getLsbD_eq
      intro i hi
      cases i with
      | zero => simpa using hk
      | succ i => simp
  unfold Hart.delegateToS Hart.delegationBit
  dsimp only
  rw [hBit]
  simp

theorem Hart.trap_mode
    (h : Hart)
    (cause tval : BitVec 64)
    (interrupt : Bool) :
    (h.trap cause tval interrupt).mode =
      if h.delegateToS cause interrupt then
        .Supervisor
      else
        .Machine := by
  unfold Hart.trap
  split <;> rfl

/- A trap goes to supervisor mode or to machine mode. -/
theorem Hart.trap_mode_supervisor_iff
    (h : Hart)
    (cause tval : BitVec 64)
    (interrupt : Bool) :
    (h.trap cause tval interrupt).mode = .Supervisor ↔
      h.mode ≠ .Machine ∧
        h.delegationBit cause interrupt = true := by
  rw [← h.delegateToS_iff, h.trap_mode]
  cases h.delegateToS cause interrupt <;> decide

theorem Hart.trap_mode_ge
    (h : Hart)
    (hMode : h.mode ≠ .Hypervisor)
    (cause tval : BitVec 64)
    (interrupt : Bool) :
    h.mode ≤ (h.trap cause tval interrupt).mode := by
  rw [h.trap_mode]
  split
  case isTrue hDeleg =>
    rcases (h.delegateToS_iff cause interrupt).mp hDeleg with
      ⟨hNot, -⟩
    cases hm : h.mode with
    | User | Supervisor => decide
    | Hypervisor => exact absurd hm hMode
    | Machine => exact absurd hm hNot
  case isFalse =>
    cases h.mode <;> decide

end RiscvEm

------------------------------------------------------------
-- Returns
------------------------------------------------------------

namespace RiscvEm

variable {σ : Type}

/-
  The hart is where it was: `pc`, mode, registers and control
  registers, but for the listed registers and the listed bits
  of `status`. What lies outside of the hart, among it the
  pending interrupts, is untouched.
-/
structure ReturnedTo
    (s s' : State σ)
    (csrs : List (BitVec 16))
    (bits : List Nat) : Prop where
  pc : s'.hart.pc = s.hart.pc
  mode : s'.hart.mode = s.hart.mode
  gpr : s'.hart.GPR = s.hart.GPR
  fpr : s'.hart.FPR = s.hart.FPR
  ie : s'.hart.ie = s.hart.ie
  fcsr : s'.hart.fcsr = s.hart.fcsr
  csrs : ∀ n, n ∉ csrs → s'.hart.csrs n = s.hart.csrs n
  status : ∀ i, i ∉ bits →
    s'.hart.status.getLsbD i = s.hart.status.getLsbD i
  mem : s'.mem = s.mem
  world : s'.world = s.world

/- The mode that `MPP` names after a trap is the old one. -/
theorem mretTarget_of_MPP
    {h : Hart}
    {mode : PrivilegeMode}
    (hMode : mode ≠ .Hypervisor)
    (hMPP : h.status.MPP = mode.bits) :
    (mretTarget h).1 = mode ∧
      ((mretTarget h).2 = h.status ∨
        (mretTarget h).2 = h.status.setMPRV 0) := by
  unfold mretTarget
  rw [hMPP]
  cases mode with
  | User => exact ⟨rfl, Or.inr rfl⟩
  | Supervisor => exact ⟨rfl, Or.inr rfl⟩
  | Hypervisor => exact absurd rfl hMode
  | Machine => exact ⟨rfl, Or.inl rfl⟩

/-
  Saving a bit of `status` and clearing it, and then getting
  it back, leaves every bit but those of the previous values:
  `ie` and `pie` are the positions of the enable bit and the
  saved one, `pp` that of the previous mode.
-/
theorem status_restored
    {n : Nat}
    (st st' : Status)
    (ie pie pp : Nat)
    (m : BitVec n)
    (hIe : ie < pie)
    (hPie : pie < pp)
    (hPp : pp + n ≤ 17)
    (hst : st' =
      setField (setField (setField st pie
        (st.extractLsb' ie 1)) ie (0 : BitVec 1)) pp m ∨
      st' = setField (setField (setField (setField st pie
        (st.extractLsb' ie 1)) ie (0 : BitVec 1)) pp m) 17
        (0 : BitVec 1))
    (i : Nat)
    (hi : i ≠ pie)
    (hiPp : i < pp ∨ pp + n ≤ i)
    (hiMprv : i ≠ 17) :
    (setField (setField (setField st' ie
      (st'.extractLsb' pie 1)) pie (1 : BitVec 1)) pp
      (0 : BitVec n)).getLsbD i = st.getLsbD i := by
  -- the saved enable bit has survived the return's inputs
  have hSaved : st'.getLsbD pie = st.getLsbD ie := by
    have hEntry : ∀ st₁ : Status, st₁ = setField (setField
        (setField st pie (st.extractLsb' ie 1)) ie
        (0 : BitVec 1)) pp m →
        st₁.getLsbD pie = st.getLsbD ie := by
      intro st₁ hst₁
      rw [hst₁, getLsbD_setField _ _ _ _ (by omega),
        getLsbD_setField _ _ _ _ (by omega)]
      have hSelf := getLsbD_setField_self st pie
        (st.extractLsb' ie 1) 0 (by omega) (by omega)
      rw [Nat.add_zero] at hSelf
      rw [hSelf, BitVec.getLsbD_extractLsb']
      simp
    rcases hst with hst | hst
    · exact hEntry st' hst
    · rw [hst, getLsbD_setField _ _ _ _ (by omega)]
      exact hEntry _ rfl
  rw [getLsbD_setField _ _ _ _ (by omega),
    getLsbD_setField _ _ _ _ (by omega)]
  by_cases hEq : i = ie
  · subst hEq
    have hSelf := getLsbD_setField_self st' i
      (st'.extractLsb' pie 1) 0 (by omega) (by omega)
    rw [Nat.add_zero] at hSelf
    rw [hSelf, BitVec.getLsbD_extractLsb']
    simpa using hSaved
  · rw [getLsbD_setField _ _ _ _ (by omega)]
    rcases hst with hst | hst
    · rw [hst, getLsbD_setField _ _ _ _ (by omega),
        getLsbD_setField _ _ _ _ (by omega),
        getLsbD_setField _ _ _ _ (by omega)]
    · rw [hst, getLsbD_setField _ _ _ _ (by omega),
        getLsbD_setField _ _ _ _ (by omega),
        getLsbD_setField _ _ _ _ (by omega),
        getLsbD_setField _ _ _ _ (by omega)]

/- Only the three registers of a trap have changed. -/
theorem update_three_ne
    {f : BitVec 16 → BitVec 64}
    {a b c n : BitVec 16}
    {x y z : BitVec 64}
    (h : n ∉ [a, b, c]) :
    Function.update (Function.update (Function.update f a x)
      b y) c z n = f n := by
  simp only [List.mem_cons, List.not_mem_nil, or_false,
    not_or] at h
  rw [Function.update_of_ne h.2.2, Function.update_of_ne h.2.1,
    Function.update_of_ne h.1]

section Inverse

variable (s : State σ)
variable (cause tval : BitVec 64)
variable (interrupt : Bool)

/- `MRET` undoes a trap to machine mode. -/
theorem mret_of_trap
    (hMode : s.hart.mode ≠ .Hypervisor)
    (hDeleg : s.hart.delegateToS cause interrupt = false) :
    ReturnedTo s
      ((s.trap cause tval interrupt).setHart
        (s.trap cause tval interrupt).hart.mret)
      [CSR_MEPC, CSR_MCAUSE, CSR_MTVAL] [7, 11, 12, 17] := by
  have hTrap : (s.trap cause tval interrupt).hart =
      s.hart.trap cause tval interrupt := rfl
  generalize hh : s.hart.trap cause tval interrupt = h at hTrap
  have hEq := hh
  unfold Hart.trap at hEq
  rw [hDeleg, if_neg Bool.false_ne_true] at hEq
  have hMPP : h.status.MPP = s.hart.mode.bits := by
    rw [← hEq]
    exact extract_setField_self _ _ _ (by omega)
  rcases mretTarget_of_MPP hMode hMPP with ⟨hTo, hStatus⟩
  have hPc : h.mret.pc = s.hart.pc := by
    rw [← hEq]
    rfl
  refine ⟨?_, ?_, ?_, ?_, ?_, ?_, ?_, ?_, rfl, rfl⟩
  · rw [hTrap]
    exact hPc
  · rw [hTrap]
    exact hTo
  · rw [hTrap, ← hEq]
    rfl
  · rw [hTrap, ← hEq]
    rfl
  · rw [hTrap, ← hEq]
    rfl
  · rw [hTrap, ← hEq]
    rfl
  · intro n hn
    rw [hTrap, ← hEq]
    exact update_three_ne hn
  · intro i hi
    simp only [List.mem_cons, List.not_mem_nil, or_false,
      not_or] at hi
    rw [hTrap]
    refine status_restored s.hart.status (mretTarget h).2 3 7
      11 s.hart.mode.bits (by omega) (by omega) (by omega) ?_
      i (by omega) (by omega) (by omega)
    rcases hStatus with hStatus | hStatus
    · left
      rw [hStatus, ← hEq]
      rfl
    · right
      rw [hStatus, ← hEq]
      rfl

/- The mode that `SPP` names after a trap is the old one. -/
theorem sretTarget_of_SPP
    {h : Hart}
    {mode : PrivilegeMode}
    (hMode : mode = .User ∨ mode = .Supervisor)
    (hSPP : h.status.SPP = if mode = .User then 0 else 1) :
    (sretTarget h).1 = mode ∧
      ((sretTarget h).2 = h.status ∨
        (sretTarget h).2 = h.status.setMPRV 0) := by
  unfold sretTarget
  rw [hSPP]
  rcases hMode with rfl | rfl
  · exact ⟨rfl, Or.inl rfl⟩
  · exact ⟨rfl, Or.inr rfl⟩

/- `SRET` undoes a trap to supervisor mode. -/
theorem sret_of_trap
    (hMode : s.hart.mode ≠ .Hypervisor)
    (hDeleg : s.hart.delegateToS cause interrupt = true) :
    ReturnedTo s
      ((s.trap cause tval interrupt).setHart
        (s.trap cause tval interrupt).hart.sret)
      [CSR_SEPC, CSR_SCAUSE, CSR_STVAL] [5, 8, 17] := by
  have hTrap : (s.trap cause tval interrupt).hart =
      s.hart.trap cause tval interrupt := rfl
  generalize hh : s.hart.trap cause tval interrupt = h at hTrap
  have hEq := hh
  unfold Hart.trap at hEq
  rw [hDeleg, if_pos rfl] at hEq
  have hLow : s.hart.mode = .User ∨
      s.hart.mode = .Supervisor := by
    rcases (s.hart.delegateToS_iff cause interrupt).mp hDeleg
      with ⟨hNot, -⟩
    cases hm : s.hart.mode with
    | User => exact Or.inl rfl
    | Supervisor => exact Or.inr rfl
    | Hypervisor => exact absurd hm hMode
    | Machine => exact absurd hm hNot
  have hSPP : h.status.SPP =
      if s.hart.mode = .User then 0 else 1 := by
    rw [← hEq]
    exact extract_setField_self _ _ _ (by omega)
  rcases sretTarget_of_SPP hLow hSPP with ⟨hTo, hStatus⟩
  have hPc : h.sret.pc = s.hart.pc := by
    rw [← hEq]
    rfl
  refine ⟨?_, ?_, ?_, ?_, ?_, ?_, ?_, ?_, rfl, rfl⟩
  · rw [hTrap]
    exact hPc
  · rw [hTrap]
    exact hTo
  · rw [hTrap, ← hEq]
    rfl
  · rw [hTrap, ← hEq]
    rfl
  · rw [hTrap, ← hEq]
    rfl
  · rw [hTrap, ← hEq]
    rfl
  · intro n hn
    rw [hTrap, ← hEq]
    exact update_three_ne hn
  · intro i hi
    simp only [List.mem_cons, List.not_mem_nil, or_false,
      not_or] at hi
    rw [hTrap]
    refine status_restored s.hart.status (sretTarget h).2 1 5
      8 (if s.hart.mode = .User then (0 : BitVec 1) else 1)
      (by omega) (by omega) (by omega) ?_
      i (by omega) (by omega) (by omega)
    rcases hStatus with hStatus | hStatus
    · left
      rw [hStatus, ← hEq]
      rfl
    · right
      rw [hStatus, ← hEq]
      rfl

end Inverse

theorem Hart.trap_TSR
    (h : Hart)
    (cause tval : BitVec 64)
    (interrupt : Bool) :
    (h.trap cause tval interrupt).status.TSR =
      h.status.TSR := by
  unfold Hart.trap
  split
  · unfold Status.TSR Status.setSPP Status.setSIE
      Status.setSPIE
    iterate 3
      rw [extract_setField_of_disjoint _ _ _ _ _ (by omega)]
  · unfold Status.TSR Status.setMPP Status.setMIE
      Status.setMPIE
    iterate 3
      rw [extract_setField_of_disjoint _ _ _ _ _ (by omega)]

/-
  A trap never lowers the mode; it goes to supervisor mode
  exactly when it is delegated; and the return instruction
  of the mode it went to undoes it.
-/
theorem trap_return_inverse
    (P : Platform σ)
    (d : InstructionData)
    (s : State σ)
    (hMode : s.hart.mode ≠ .Hypervisor)
    (cause : BitVec 6)
    (tval : BitVec 64)
    (interrupt : Bool) :
    let s' := s.trap (cause.setWidth 64) tval interrupt
    s.hart.mode ≤ s'.hart.mode ∧
      (s'.hart.mode = .Supervisor ↔
        s.hart.mode < .Machine ∧
          s.hart.delegationBit (cause.setWidth 64) interrupt =
            true) ∧
      (s'.hart.mode = .Supervisor ∨
        s'.hart.mode = .Machine) ∧
      (s'.hart.mode = .Machine →
        ∃ s'', Op.MRET.exec P d s' = .ok (.jumped, s'') ∧
          ReturnedTo s s'' [CSR_MEPC, CSR_MCAUSE, CSR_MTVAL]
            [7, 11, 12, 17]) ∧
      (s'.hart.mode = .Supervisor →
        s.hart.status.TSR = 0 →
        ∃ s'', Op.SRET.exec P d s' = .ok (.jumped, s'') ∧
          ReturnedTo s s'' [CSR_SEPC, CSR_SCAUSE, CSR_STVAL]
            [5, 8, 17]) := by
  intro s'
  have hTo : s'.hart.mode =
      if s.hart.delegateToS (cause.setWidth 64) interrupt then
        .Supervisor
      else
        .Machine := s.hart.trap_mode _ tval interrupt
  have hBelow : s.hart.mode < .Machine ↔
      s.hart.mode ≠ .Machine := by
    cases s.hart.mode <;> decide
  refine ⟨s.hart.trap_mode_ge hMode _ tval interrupt, ?_, ?_,
    ?_, ?_⟩
  · rw [hBelow]
    exact s.hart.trap_mode_supervisor_iff _ tval interrupt
  · rw [hTo]
    split
    · exact Or.inl rfl
    · exact Or.inr rfl
  · intro hMachine
    have hDeleg : s.hart.delegateToS (cause.setWidth 64)
        interrupt = false := by
      rw [hTo] at hMachine
      by_contra hNot
      rw [if_pos (by simpa using hNot)] at hMachine
      cases hMachine
    exact ⟨_, rfl, mret_of_trap s _ tval interrupt hMode
      hDeleg⟩
  · intro hSuper hTSR
    have hDeleg : s.hart.delegateToS (cause.setWidth 64)
        interrupt = true := by
      rw [hTo] at hSuper
      by_contra hNot
      rw [if_neg hNot] at hSuper
      cases hSuper
    have hTSR' : s'.hart.status.TSR = 0 :=
      (s.hart.trap_TSR _ tval interrupt).trans hTSR
    have hAllowed : ¬ (s'.hart.mode = .User ∨
        (s'.hart.mode = .Supervisor ∧
          s'.hart.status.TSR = 1)) := by
      rw [hSuper, hTSR']
      decide
    refine ⟨s'.setHart s'.hart.sret, ?_, sret_of_trap s _ tval
      interrupt hMode hDeleg⟩
    change execSRET P d s' = _
    unfold execSRET
    rw [if_neg hAllowed]

/- A system call from the mode a hart starts in. -/
theorem trap_return_inverse_boot :
    (State.boot []).hart.mode ≠ .Hypervisor ∧
      ∃ s'', Op.MRET.exec Platform.bare ⟨0, 0, 0, 0, 0, 0, 0⟩
          ((State.boot []).trap EXC_ENV_CALL_FROM_M 0 false) =
          .ok (.jumped, s'') ∧
        ReturnedTo (State.boot []) s''
          [CSR_MEPC, CSR_MCAUSE, CSR_MTVAL]
          [7, 11, 12, 17] := by
  have hMode : (State.boot []).hart.mode ≠ .Hypervisor := by
    decide
  refine ⟨hMode, ?_⟩
  exact (trap_return_inverse Platform.bare
    ⟨0, 0, 0, 0, 0, 0, 0⟩ (State.boot []) hMode 11 0
    false).2.2.2.1 rfl

end RiscvEm
