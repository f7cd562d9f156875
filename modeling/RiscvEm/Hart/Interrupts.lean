import RiscvEm.Hart.Precise
import RiscvEm.Sets.Returns

/-
  Which interrupt a hart takes, and when a hart that waits
  for interrupts goes on.

  Key definitions include:
    * `specPriority`
    * `SelectsInterrupt`
    * `OrderAgrees`
    * `WakesUp`
    * `SleepsAgain`

  Key theorems include:
    * `check_ints_selects_iff`
    * `sleeping_hart_wakes_iff`
-/

------------------------------------------------------------
-- The Order Of Interrupts
------------------------------------------------------------

namespace RiscvEm

variable {σ : Type}

/- MEI, MSI, MTI, SEI, SSI, STI. -/
def specPriority : List Nat := [11, 3, 7, 9, 1, 5]

/- The first pending interrupt in the order above. -/
def specIrq
    (pending : BitVec 64) : Option Nat :=
  specPriority.find? (fun irq => pending.getLsbD irq)

/- One of the six interrupts is pending. -/
def HasStandard
    (pending : BitVec 64) : Prop :=
  ∃ irq ∈ specPriority, pending.getLsbD irq = true

/- Interrupts of machine mode are enabled. -/
def MachineEnabled
    (h : Hart) : Prop :=
  h.mode < .Machine ∨ h.mode = .Machine ∧ h.status.MIE = 1

def SupervisorEnabled
    (h : Hart) : Prop :=
  h.mode < .Supervisor ∨
    h.mode = .Supervisor ∧ h.status.SIE = 1

/- `ip & ie & mideleg`, of the bits 1, 5 and 9. -/
def State.delegated
    (s : State σ) : BitVec 64 :=
  s.pendingAll &&& s.hart.csrs CSR_MIDELEG &&& 0x222

/- The first interrupt of a set is taken, in a mode. -/
def State.Takes
    (s : State σ)
    (pending : BitVec 64)
    (mode : PrivilegeMode) : Prop :=
  ∃ irq, specIrq pending = some irq ∧
    s.checkInts = s.trap (BitVec.ofNat 64 irq) 0 true ∧
    s.checkInts.hart.mode = mode

/- Machine mode first, then supervisor mode, or nothing. -/
structure SelectsInterrupt
    (s : State σ) : Prop where
  machine :
    HasStandard s.pendingM ∧ MachineEnabled s.hart →
      s.Takes s.pendingM .Machine
  supervisor :
    ¬ (HasStandard s.pendingM ∧ MachineEnabled s.hart) →
      s.delegated ≠ 0 ∧ SupervisorEnabled s.hart →
        s.Takes s.delegated .Supervisor
  nothing :
    ¬ (HasStandard s.pendingM ∧ MachineEnabled s.hart) →
      ¬ (s.delegated ≠ 0 ∧ SupervisorEnabled s.hart) →
        s.checkInts = s

/-
  The order of `irq_priority` gives the same interrupt:
  external interrupts of supervisor mode do not meet software
  or timer interrupts of machine mode, nor software
  interrupts of supervisor mode a machine timer, unless
  something comes before both.
-/
def OrderAgrees
    (pending : BitVec 64) : Prop :=
  pending.getLsbD 11 = true ∨
    (if pending.getLsbD 9 = true then
      pending.getLsbD 3 = false ∧ pending.getLsbD 7 = false
    else
      pending.getLsbD 3 = true ∨ pending.getLsbD 1 = false ∨
        pending.getLsbD 7 = false)

end RiscvEm

------------------------------------------------------------
-- The Interrupt That Is Taken
------------------------------------------------------------

namespace RiscvEm

variable {σ : Type}
variable {pending : BitVec 64}
variable {irq : Nat}

/-
  Both orders find the same exactly if they agree on what is
  pending.
-/
theorem firstIrq_eq_specIrq_iff
    (pending : BitVec 64) :
    State.firstIrq pending = specIrq pending ↔
      OrderAgrees pending := by
  unfold State.firstIrq specIrq OrderAgrees irqPriority
    specPriority
  simp only [List.find?]
  cases pending.getLsbD 11 <;> cases pending.getLsbD 9 <;>
    cases pending.getLsbD 3 <;> cases pending.getLsbD 7 <;>
    cases pending.getLsbD 1 <;> cases pending.getLsbD 5 <;>
    decide

/- Some interrupt is found if a standard one is pending. -/
theorem firstIrq_isSome_iff
    (pending : BitVec 64) :
    (State.firstIrq pending).isSome = true ↔
      HasStandard pending := by
  unfold State.firstIrq HasStandard irqPriority specPriority
  rw [List.find?_isSome]
  simp only [List.mem_cons, List.not_mem_nil, or_false,
    exists_eq_or_imp, exists_eq_left]
  tauto

/- No interrupt is found if none is pending. -/
theorem firstIrq_eq_none
    (h : ¬ HasStandard pending) :
    State.firstIrq pending = none := by
  rw [← firstIrq_isSome_iff] at h
  exact Option.not_isSome_iff_eq_none.mp h

theorem PrivilegeMode.lt_irrefl
    (m : PrivilegeMode) :
    ¬ m < m :=
  Nat.lt_irrefl m.toNat

/- The test of M-mode's flag is the manual's. -/
theorem mGlobal_iff
    (h : Hart) :
    State.mGlobal h = true ↔ MachineEnabled h := by
  unfold State.mGlobal MachineEnabled
  by_cases hMode : h.mode = .Machine
  · rw [if_pos hMode, hMode, beq_iff_eq]
    have hLt := PrivilegeMode.lt_irrefl .Machine
    tauto
  · rw [if_neg hMode, decide_eq_true_iff]
    tauto

/- The test of S-mode's flag is the manual's. -/
theorem sGlobal_iff
    (h : Hart) :
    State.sGlobal h = true ↔ SupervisorEnabled h := by
  unfold State.sGlobal SupervisorEnabled
  by_cases hMode : h.mode = .Supervisor
  · rw [if_pos hMode, hMode, beq_iff_eq]
    have hLt := PrivilegeMode.lt_irrefl .Supervisor
    tauto
  · rw [if_neg hMode, decide_eq_true_iff]
    tauto

/- What is pending for S-mode was delegated. -/
theorem State.pendingS_eq_delegated
    (s : State σ) :
    s.pendingS = s.delegated := by
  unfold State.pendingS State.delegated State.pendingAll
  apply BitVec.eq_of_getLsbD_eq
  intro i hi
  have hMask : (0x222 : BitVec 64) = SE_MASK.setWidth 64 := rfl
  rw [hMask]
  simp only [BitVec.getLsbD_and, BitVec.getLsbD_setWidth, hi,
    decide_true, Bool.true_and]
  cases s.pins.ip.getLsbD i <;> cases s.hart.ie.getLsbD i <;>
    cases SE_MASK.getLsbD i <;> simp

/- A number that is not zero has a bit. -/
theorem exists_getLsbD
    {x : BitVec 64}
    (h : x ≠ 0) :
    ∃ i, i < 64 ∧ x.getLsbD i = true := by
  by_contra hNone
  apply h
  apply BitVec.eq_of_getLsbD_eq
  intro i hi
  have hZero : (0 : BitVec 64).getLsbD i = false := by simp
  rw [hZero]
  by_contra hTrue
  exact hNone ⟨i, hi, by simpa using hTrue⟩

/- Every supervisor interrupt is one of the six. -/
theorem HasStandard.of_delegated
    {s : State σ}
    (h : s.delegated ≠ 0) :
    HasStandard s.delegated := by
  rcases exists_getLsbD h with ⟨i, hi, hBit⟩
  have hMask : ∀ i < 64,
      (0x222 : BitVec 64).getLsbD i = true →
        i ∈ specPriority := by
    decide
  refine ⟨i, hMask i hi ?_, hBit⟩
  unfold State.delegated at hBit
  rw [BitVec.getLsbD_and, Bool.and_eq_true] at hBit
  exact hBit.2

/- The orders differ only where machine bits are pending. -/
theorem orderAgrees_delegated
    (s : State σ) :
    OrderAgrees s.delegated := by
  have hBit : ∀ i, (0x222 : BitVec 64).getLsbD i = false →
      s.delegated.getLsbD i = false := by
    intro i hMask
    unfold State.delegated
    rw [BitVec.getLsbD_and, hMask, Bool.and_false]
  have h3 := hBit 3 (by decide)
  have h7 := hBit 7 (by decide)
  right
  split
  · exact ⟨h3, h7⟩
  · exact Or.inr (Or.inr h7)

/- Without pending interrupts both sets are empty. -/
theorem State.pending_eq_zero
    {s : State σ}
    (h : s.pendingAll = 0) :
    s.pendingM = 0 ∧ s.delegated = 0 := by
  unfold State.pendingM State.delegated
  rw [h]
  simp

/- Interrupts for M-mode are looked for first. -/
theorem State.takenIrq_eq
    (s : State σ) :
    s.takenIrq =
      (if mGlobal s.hart then firstIrq s.pendingM
        else none).or
      (if sGlobal s.hart then firstIrq s.delegated
        else none) := by
  rw [← s.pendingS_eq_delegated]
  unfold State.takenIrq
  split
  case isFalse => rfl
  case isTrue hNone =>
    have hZero : firstIrq 0 = none := by decide
    rw [s.pendingS_eq_delegated, (pending_eq_zero hNone).1,
      (pending_eq_zero hNone).2, hZero]
    split <;> split <;> rfl

/- The modes in which the interrupts are taken. -/
theorem State.trap_mode_machine
    {s : State σ}
    (hSix : irq ∈ specPriority)
    (hBit : s.pendingM.getLsbD irq = true) :
    (s.trap (BitVec.ofNat 64 irq) 0 true).hart.mode =
      .Machine := by
  have hLt : ∀ irq ∈ specPriority,
      (BitVec.ofNat 64 irq).toNat = irq := by
    decide
  have hKept : ¬ s.hart.delegateToS (BitVec.ofNat 64 irq)
      true = true := by
    rw [s.hart.delegateToS_iff]
    rintro ⟨-, hDeleg⟩
    unfold Hart.delegationBit at hDeleg
    rw [if_pos rfl, hLt irq hSix] at hDeleg
    unfold State.pendingM at hBit
    rw [BitVec.getLsbD_and, BitVec.getLsbD_not, hDeleg] at hBit
    simp at hBit
  exact (s.hart.trap_mode _ _ _).trans (if_neg hKept)

/- A delegated interrupt is taken in S-mode. -/
theorem State.trap_mode_supervisor
    {s : State σ}
    (hSix : irq ∈ specPriority)
    (hMode : s.hart.mode ≠ .Machine)
    (hBit : s.delegated.getLsbD irq = true) :
    (s.trap (BitVec.ofNat 64 irq) 0 true).hart.mode =
      .Supervisor := by
  have hLt : ∀ irq ∈ specPriority,
      (BitVec.ofNat 64 irq).toNat = irq := by
    decide
  refine (s.hart.trap_mode_supervisor_iff _ _ _).mpr
    ⟨hMode, ?_⟩
  unfold Hart.delegationBit
  rw [if_pos rfl, hLt irq hSix]
  unfold State.delegated at hBit
  rw [BitVec.getLsbD_and, BitVec.getLsbD_and] at hBit
  simp only [Bool.and_eq_true] at hBit
  exact hBit.1.2

/- The manual's interrupt is pending. -/
theorem specIrq_mem
    (h : specIrq pending = some irq) :
    irq ∈ specPriority ∧ pending.getLsbD irq = true :=
  ⟨List.mem_of_find?_eq_some h, List.find?_some h⟩

theorem SupervisorEnabled.mode_ne
    {h : Hart}
    (hEnabled : SupervisorEnabled h) :
    h.mode ≠ .Machine := by
  intro hMode
  rcases hEnabled with hLt | ⟨hEq, -⟩
  · rw [hMode] at hLt
    exact absurd hLt (by decide)
  · rw [hMode] at hEq
    cases hEq

/- The interrupt that a trap event names. -/
theorem State.trap_irq_inj
    {s : State σ}
    {irq irq' : Nat}
    (hSix : irq ∈ irqPriority)
    (hSix' : irq' ∈ specPriority)
    (h : s.trap (BitVec.ofNat 64 irq) 0 true =
      s.trap (BitVec.ofNat 64 irq') 0 true) :
    irq = irq' := by
  have hTrace := congrArg State.trace h
  have hEvent := (List.cons.inj hTrace).1
  injection hEvent with _ hCause
  have hInj : ∀ irq ∈ irqPriority, ∀ irq' ∈ specPriority,
      BitVec.ofNat 64 irq = BitVec.ofNat 64 irq' →
        irq = irq' := by
    decide
  exact hInj irq hSix irq' hSix' hCause

/- Machine mode takes the interrupt that comes first. -/
theorem State.checkInts_machine
    {s : State σ}
    (hSome : HasStandard s.pendingM)
    (hEnabled : MachineEnabled s.hart) :
    ∃ irq, firstIrq s.pendingM = some irq ∧
      s.checkInts = s.trap (BitVec.ofNat 64 irq) 0 true := by
  rcases Option.isSome_iff_exists.mp
    ((firstIrq_isSome_iff _).mpr hSome) with ⟨irq, hIrq⟩
  refine ⟨irq, hIrq, ?_⟩
  unfold checkInts
  rw [s.takenIrq_eq, if_pos ((mGlobal_iff _).mpr hEnabled),
    hIrq]
  rfl

/- Without one for M-mode, the one for S-mode is taken. -/
theorem State.takenIrq_supervisor
    {s : State σ}
    (hM : ¬ (HasStandard s.pendingM ∧ MachineEnabled s.hart)) :
    s.takenIrq =
      if sGlobal s.hart then firstIrq s.delegated
      else none := by
  rw [s.takenIrq_eq]
  by_cases hEnabled : MachineEnabled s.hart
  · have hNone : ¬ HasStandard s.pendingM :=
      fun hSome => hM ⟨hSome, hEnabled⟩
    rw [if_pos ((mGlobal_iff _).mpr hEnabled),
      firstIrq_eq_none hNone]
    rfl
  · rw [if_neg (fun hTrue => hEnabled ((mGlobal_iff _).mp hTrue))]
    rfl

/-
  The interrupt of the specification is taken exactly if the
  two orders agree on what machine mode has pending.
-/
theorem check_ints_selects_iff
    (s : State σ) :
    SelectsInterrupt s ↔
      (MachineEnabled s.hart → OrderAgrees s.pendingM) := by
  constructor
  · intro h hEnabled
    rw [← firstIrq_eq_specIrq_iff]
    by_cases hSome : HasStandard s.pendingM
    · rcases State.checkInts_machine hSome hEnabled with
        ⟨irq, hIrq, hTrap⟩
      rcases h.machine ⟨hSome, hEnabled⟩ with
        ⟨irq', hIrq', hTrap', -⟩
      have hEq := State.trap_irq_inj
        (List.mem_of_find?_eq_some hIrq) (specIrq_mem hIrq').1
        (hTrap.symm.trans hTrap')
      rw [hIrq, hIrq', hEq]
    · rw [firstIrq_eq_none hSome]
      symm
      apply List.find?_eq_none.mpr
      intro irq hMem hBit
      exact hSome ⟨irq, hMem, hBit⟩
  · intro hOrder
    constructor
    · rintro ⟨hSome, hEnabled⟩
      rcases State.checkInts_machine hSome hEnabled with
        ⟨irq, hIrq, hTrap⟩
      have hSpec : specIrq s.pendingM = some irq := by
        rw [← (firstIrq_eq_specIrq_iff _).mpr
          (hOrder hEnabled), hIrq]
      refine ⟨irq, hSpec, hTrap, ?_⟩
      rw [hTrap]
      exact State.trap_mode_machine (specIrq_mem hSpec).1
        (specIrq_mem hSpec).2
    · rintro hM ⟨hSome, hEnabled⟩
      rcases Option.isSome_iff_exists.mp
        ((firstIrq_isSome_iff _).mpr (.of_delegated hSome))
        with ⟨irq, hIrq⟩
      have hSpec : specIrq s.delegated = some irq := by
        rw [← (firstIrq_eq_specIrq_iff _).mpr
          (orderAgrees_delegated s), hIrq]
      have hTrap : s.checkInts =
          s.trap (BitVec.ofNat 64 irq) 0 true := by
        unfold State.checkInts
        rw [State.takenIrq_supervisor hM,
          if_pos ((sGlobal_iff _).mpr hEnabled), hIrq]
      refine ⟨irq, hSpec, hTrap, ?_⟩
      rw [hTrap]
      exact State.trap_mode_supervisor (specIrq_mem hSpec).1
        hEnabled.mode_ne (specIrq_mem hSpec).2
    · intro hM hS
      have hNone : s.takenIrq = none := by
        rw [State.takenIrq_supervisor hM]
        by_cases hEnabled : SupervisorEnabled s.hart
        · have hZero : s.delegated = 0 :=
            not_not.mp (fun hNe => hS ⟨hNe, hEnabled⟩)
          have hFirst : State.firstIrq 0 = none := by decide
          rw [hZero, hFirst]
          split <;> rfl
        · rw [if_neg (fun hTrue =>
            hEnabled ((sGlobal_iff _).mp hTrue))]
      unfold State.checkInts
      rw [hNone]

/-
  In user mode supervisor external and machine software
  interrupts are pending: the first one is taken.
-/
def twoPending : State Unit :=
  ((State.boot []).setPins ⟨0x208, 0, 0⟩).setHart
    { (State.boot []).hart with mode := .User, ie := 0x208 }

/- Two interrupts are pending, and the wrong one is taken. -/
theorem check_ints_wrong_order :
    twoPending.takenIrq = some 9 ∧
      specIrq twoPending.pendingM = some 3 ∧
      ¬ SelectsInterrupt twoPending := by
  have hTaken : twoPending.takenIrq = some 9 := by decide
  have hSpec : specIrq twoPending.pendingM = some 3 := by decide
  refine ⟨hTaken, hSpec, ?_⟩
  intro h
  have hSome : HasStandard twoPending.pendingM :=
    ⟨3, by decide, by decide⟩
  rcases h.machine ⟨hSome, Or.inl (by decide)⟩ with
    ⟨irq, hIrq, hTrap, -⟩
  rw [hSpec] at hIrq
  cases hIrq
  unfold State.checkInts at hTrap
  rw [hTaken] at hTrap
  have hEq := State.trap_irq_inj (by decide) (by decide) hTrap
  cases hEq

end RiscvEm

------------------------------------------------------------
-- Waiting For Interrupts
------------------------------------------------------------

namespace RiscvEm

variable {σ : Type}
variable {P : Platform σ}
variable {op : Op}
variable {d : InstructionData}
variable {out : ExecReturn}
variable {s s' : State σ}

/- A tick with an enabled pending interrupt ends the wait. -/
def WakesUp
    (P : Platform σ)
    (s : State σ) : Prop :=
  s.pendingAll ≠ 0 →
    ∀ s', s.tick P = .ok s' → s'.hart.WFI = false

/- Without one, only `x0` and the cycle counter change. -/
def StaysAsleep
    (P : Platform σ)
    (s : State σ) : Prop :=
  s.pendingAll = 0 →
    s.tick P = .ok ((s.setGpr 0 0).setCsr CSR_MCYCLE
      (s.csr CSR_MCYCLE + 1))

/- What `int_local_pending` looks for. -/
def LocallyPending
    (s : State σ) : Prop :=
  s.pendingM ≠ 0 ∨
    s.hart.mode ≤ .Supervisor ∧ s.delegated ≠ 0

/-
  An interrupt is taken, but the instruction fetched at the
  vector is a `WFI`, and fetching it has withdrawn the
  interrupt.
-/
structure SleepsAgain
    (P : Platform σ)
    (s : State σ) : Prop where
  interprets : s.Interprets
  returns : ∃ s', s.tick P = .ok s'
  wfi : ∃ m val s₁ i,
    s.atFetch.mmioRead P s.atFetch.hart.pc .Int =
        .ok (m, val, s₁) ∧
      ((s₁.afterFetch m).decode (val.setWidth 32)).1.selected =
        some i ∧
      i.func = .WFI ∧
      (s₁.afterFetch m).hart.status.TW ≠ 1 ∧
      (s₁.afterFetch m).pendingAll = 0

/- A trap wakes the hart. -/
theorem State.trap_awake
    (s : State σ)
    (cause tval : BitVec 64)
    (interrupt : Bool) :
    (s.trap cause tval interrupt).hart.WFI = false := by
  unfold State.trap State.log State.setHart Hart.trap
  dsimp only
  split <;> rfl

/- Writes leave it asleep or awake. -/
theorem State.mmioWrite_WFI
    {addr val : BitVec 64}
    {size : MemorySize}
    {m : MemoryReturn}
    (h : s.mmioWrite P addr size val = .ok (m, s')) :
    s'.hart.WFI = s.hart.WFI := by
  rcases State.mmioWrite_cases h with
    ⟨-, -, mem, jctx, -, -, rfl⟩ |
    ⟨-, dev, world, mem, -, -, rfl⟩ | ⟨-, rfl⟩ <;> rfl

/- Zeroing a block leaves the hart asleep or awake. -/
theorem zeroBytes_WFI
    (n : Nat)
    {addr : BitVec 64}
    {s : State σ}
    (h : zeroBytes P addr n s = .ok s') :
    s'.hart.WFI = s.hart.WFI := by
  induction n generalizing addr s with
  | zero =>
      cases h
      rfl
  | succ n ih =>
      rcases bind_eq_ok.mp h with ⟨⟨m, s₁⟩, hWrite, hRest⟩
      rw [ih hRest, State.mmioWrite_WFI hWrite]

/- Reads of CSRs do not put it to sleep. -/
theorem csrReadIf_awake
    (reads : Bool)
    (csr : BitVec 16)
    (hAwake : s.hart.WFI = false) :
    (csrReadIf reads csr s).hart.WFI = false := by
  unfold csrReadIf
  split
  · by_cases hDenied : State.isFloatCsr csr = true ∧
        s.hart.status.FS = 0
    · rw [State.csrRead_denied hDenied.1 hDenied.2]
      exact s.trap_awake _ _ _
    · rw [s.csrRead_state csr hDenied]
      exact hAwake
  · exact hAwake

/- Writes of CSRs do not put it to sleep. -/
theorem csrWriteIf_awake
    (writes : Bool)
    (csr : BitVec 16)
    (val : BitVec 64)
    (hAwake : s.hart.WFI = false) :
    (csrWriteIf writes csr val s).hart.WFI = false := by
  unfold csrWriteIf
  split
  · by_cases hDenied : State.isFloatCsr csr = true ∧
        s.hart.status.FS = 0
    · rw [State.csrWrite_denied hDenied.1 hDenied.2]
      exact s.trap_awake _ _ _
    · rw [(s.csrWrite_onlyCsrs csr val hDenied).WFI]
      exact hAwake
  · exact hAwake

/- Writes to registers do not put it to sleep. -/
theorem OnlyRegs.awake
    (h : OnlyRegs s s')
    (hAwake : s.hart.WFI = false) :
    s'.hart.WFI = false := by
  rw [h.hart]
  exact hAwake

/- Every instruction but `WFI` leaves the hart awake. -/
theorem Effect.awake
    (h : Effect P op d s out s')
    (hOp : op ≠ .WFI)
    (hAwake : s.hart.WFI = false) :
    s'.hart.WFI = false := by
  cases h with
  | regs _ hRegs => exact hRegs.awake hAwake
  | fault _ => exact hAwake
  | load hRead _ _ hRegs =>
      apply hRegs.awake
      rw [State.mmioRead_hart hRead]
      exact hAwake
  | store hWrite _ _ hRegs =>
      apply hRegs.awake
      rw [State.mmioWrite_WFI hWrite]
      exact hAwake
  | amo hRead _ hWrite _ _ hRegs =>
      apply hRegs.awake
      rw [State.mmioWrite_WFI hWrite,
        State.mmioRead_hart hRead]
      exact hAwake
  | amoFault _ hRead _ _ _ _ =>
      rw [State.mmioRead_hart hRead]
      exact hAwake
  | lr hRead _ _ hRegs =>
      have hHart := congrArg Hart.WFI (State.mmioRead_hart hRead)
      exact hRegs.awake (hHart.trans hAwake)
  | sc _ hWrite _ _ hRegs =>
      have hWfi := State.mmioWrite_WFI hWrite
      exact hRegs.awake (hWfi.trans hAwake)
  | scFault _ _ _ _ => exact hAwake
  | scFail _ hRegs => exact hRegs.awake hAwake
  | csr reads writes val _ _ _ _ _ hRead hWrite =>
      exact hWrite.awake (csrWriteIf_awake writes d.csr val
        (hRead.awake (csrReadIf_awake reads d.csr hAwake)))
  | mret _ _ => exact hAwake
  | sret _ _ => exact hAwake
  | wfi hWfi _ _ => exact absurd hWfi hOp
  | fenceI _ => exact hAwake
  | cboRam _ _ _ => exact hAwake
  | cboDevice hZero _ =>
      rw [zeroBytes_WFI 64 hZero]
      exact hAwake

/- An entry leaves the hart awake, or it is a `WFI`. -/
theorem State.runEntry_awake
    {entry : InstructionCache}
    {w : BitVec 32}
    {pc : BitVec 64}
    (h : s.runEntry P entry w pc = .ok s')
    (hAwake : s.hart.WFI = false) :
    s'.hart.WFI = false ∨
      ∃ i, entry.selected = some i ∧ i.func = .WFI ∧
        s.hart.status.TW ≠ 1 ∧ s.pendingAll = 0 := by
  rcases State.runEntry_cases h with
    ⟨-, rfl⟩ | ⟨i, out, s₁, hSel, hExec, hEnd⟩
  · exact Or.inl (State.trap_awake _ _ _ _)
  · rcases hEnd with ⟨-, rfl⟩ | ⟨hOk, j, -, rfl⟩
    · exact Or.inl (State.trap_awake _ _ _ _)
    · have hSame : ((s₁.retire out).setJctx j).hart.WFI =
          s₁.hart.WFI :=
        (OnlyCsrs.setCsr s₁ _ _).WFI
      rw [hSame]
      by_cases hOp : i.func = .WFI
      · rw [hOp] at hExec
        change execWFI P entry.data s = .ok (out, s₁) at hExec
        unfold execWFI at hExec
        split at hExec
        case isTrue =>
          cases hExec
          cases hOk
        case isFalse hTw =>
          split at hExec
          case isTrue hNone =>
            exact Or.inr ⟨i, hSel, hOp, hTw, hNone⟩
          case isFalse =>
            cases hExec
            exact Or.inl hAwake
      · exact Or.inl
          ((Op.exec_effect _ hExec).awake hOp hAwake)

/- A tick that does not wait leaves the hart awake. -/
theorem State.tick_awake
    (hAwake : s.preTick.hart.WFI = false)
    (h : s.tick P = .ok s') :
    s'.hart.WFI = false ∨ SleepsAgain P s := by
  have hTick := h
  unfold tick at hTick
  dsimp only at hTick
  rw [hAwake, if_neg Bool.false_ne_true] at hTick
  unfold dispatch at hTick
  split at hTick
  case h_1 f hEntry =>
    left
    split at hTick
    case isTrue =>
      rcases bind_eq_ok.mp hTick with ⟨s₁, hRun, hEq⟩
      have hOnly := runBlock_onlyCompiled hRun
      have hWfi : s₁.hart.WFI = false := by
        rw [hOnly.hart]
        exact hAwake
      cases hEq
      split <;> exact hWfi
    case isFalse =>
      cases hTick
      exact hAwake
  case h_2 hNone =>
    change s.atFetch.interpret P = .ok s' at hTick
    rcases interpret_cases hTick with ⟨m, val, s₁, hRead, hRun⟩
    have hFetched : (s₁.afterFetch m).hart.WFI = false := by
      unfold afterFetch
      split
      · rw [mmioRead_hart hRead]
        exact hAwake
      · exact s₁.trap_awake _ _ _
    rcases runEntry_awake hRun hFetched with
      hDone | ⟨i, hSel, hOp, hTw, hZero⟩
    · exact Or.inl hDone
    · exact Or.inr ⟨⟨hAwake, hNone⟩, ⟨s', h⟩,
        m, val, s₁, i, hRead, hSel, hOp, hTw, hZero⟩

/- A hart that sleeps again is asleep after the tick. -/
theorem SleepsAgain.asleep
    (h : SleepsAgain P s) :
    ∃ s', s.tick P = .ok s' ∧ s'.hart.WFI = true := by
  rcases h.returns with ⟨s', hTick⟩
  refine ⟨s', hTick, ?_⟩
  rcases h.wfi with ⟨m, val, s₁, i, hRead, hSel, hOp, hTw, hZero⟩
  rw [h.interprets.tick_eq, State.interpret_of_read hRead]
    at hTick
  rcases State.runEntry_cases hTick with
    ⟨hNone, -⟩ | ⟨i', out, s₂, hSel', hExec, hEnd⟩
  · rw [hSel] at hNone
    cases hNone
  · rw [hSel] at hSel'
    cases hSel'
    rw [hOp] at hExec
    change execWFI P _ ((s₁.afterFetch m).decode _).2 =
      .ok (out, s₂) at hExec
    unfold execWFI at hExec
    rw [if_neg (show ¬ ((s₁.afterFetch m).decode
      (val.setWidth 32)).2.hart.status.TW = 1 from hTw),
      if_pos (show ((s₁.afterFetch m).decode
        (val.setWidth 32)).2.pendingAll = 0 from hZero)] at hExec
    cases hExec
    rcases hEnd with ⟨hFail, -⟩ | ⟨-, j, -, rfl⟩
    · cases hFail
    · exact (OnlyCsrs.setCsr _ _ _).WFI

/- The state in which the interrupts are checked. -/
def State.counted
    (s : State σ) : State σ :=
  (s.setGpr 0 0).setCsr CSR_MCYCLE (s.csr CSR_MCYCLE + 1)

/- Before the dispatch, pending interrupts are looked for. -/
theorem State.preTick_eq
    (s : State σ) :
    s.preTick =
      if s.pendingAll ≠ 0 then s.counted.checkInts
      else s.counted :=
  rfl

theorem PrivilegeMode.not_lt
    {a b : PrivilegeMode} :
    ¬ a < b ↔ b ≤ a :=
  Nat.not_lt

/- The source's test finds what is locally pending. -/
theorem State.intLocalPending_iff
    (s : State σ) :
    s.intLocalPending = true ↔ LocallyPending s := by
  unfold intLocalPending LocallyPending
  rw [s.pendingS_eq_delegated, ← PrivilegeMode.not_lt]
  split
  case isTrue hNone =>
    have hZero := pending_eq_zero hNone
    refine iff_of_false Bool.false_ne_true ?_
    rintro (hM | ⟨-, hS⟩)
    · exact hM hZero.1
    · exact hS hZero.2
  case isFalse =>
    have hOr : ∀ x y : BitVec 64,
        x ||| y = 0 ↔ x = 0 ∧ y = 0 :=
      fun _ _ => BitVec.or_eq_zero_iff
    dsimp only
    rw [bne_iff_ne, Ne, hOr, not_and_or]
    by_cases hMode : PrivilegeMode.Supervisor < s.hart.mode
    · simp [hMode]
    · simp [hMode]

/- An interrupt that is taken is locally pending. -/
theorem LocallyPending.of_takenIrq
    {irq : Nat}
    (h : s.takenIrq = some irq) :
    LocallyPending s := by
  have hNe : ∀ {x : BitVec 64} {i : Nat},
      State.firstIrq x = some i → x ≠ 0 := by
    intro x i hFirst hZero
    rw [hZero] at hFirst
    cases hFirst
  rw [s.takenIrq_eq] at h
  rcases Option.or_eq_some_iff.mp h with hM | ⟨-, hS⟩
  · split at hM
    · exact Or.inl (hNe hM)
    · cases hM
  · split at hS
    case isTrue hGlobal =>
      refine Or.inr ⟨?_, hNe hS⟩
      rcases (sGlobal_iff _).mp hGlobal with hLt | ⟨hEq, -⟩
      · exact Nat.le_of_lt hLt
      · rw [hEq]
        exact Nat.le_refl _
    case isFalse => cases hS

/-
  A hart that waits wakes up with a pending enabled interrupt
  and otherwise stays as it is, exactly if the local test
  sees the interrupt and no second `WFI` follows.
-/
theorem sleeping_hart_wakes_iff
    (P : Platform σ)
    (s : State σ)
    (hAsleep : s.hart.WFI = true) :
    WakesUp P s ∧ StaysAsleep P s ↔
      (s.pendingAll ≠ 0 →
        LocallyPending s ∧ ¬ SleepsAgain P s) := by
  have hCounted : s.counted.hart.WFI = true := hAsleep
  by_cases hPending : s.pendingAll = 0
  · have hPre : s.preTick = s.counted := by
      rw [s.preTick_eq, if_neg (not_not.mpr hPending)]
    have hLocal : s.counted.intLocalPending = false :=
      if_pos hPending
    have hTick : s.tick P = .ok s.counted := by
      unfold State.tick
      dsimp only
      rw [hPre, if_pos hCounted, hLocal]
      rfl
    refine iff_of_true ⟨?_, ?_⟩ ?_
    · intro hNe
      exact absurd hPending hNe
    · intro _
      exact hTick
    · intro hNe
      exact absurd hPending hNe
  · have hPre : s.preTick = s.counted.checkInts := by
      rw [s.preTick_eq, if_pos hPending]
    have hStays : StaysAsleep P s :=
      fun hZero => absurd hZero hPending
    rw [and_iff_left hStays]
    have hLocal : LocallyPending s.counted ↔
        LocallyPending s := Iff.rfl
    unfold State.checkInts at hPre
    split at hPre
    case h_1 irq hTaken =>
      have hAwake : s.preTick.hart.WFI = false := by
        rw [hPre]
        exact State.trap_awake _ _ _ _
      constructor
      · intro hWakes _
        refine ⟨hLocal.mp (.of_takenIrq hTaken), ?_⟩
        intro hSleeps
        rcases hSleeps.asleep with ⟨s', hTick, hWfi⟩
        rw [hWakes hPending s' hTick] at hWfi
        cases hWfi
      · intro h _ s' hTick
        exact (State.tick_awake hAwake hTick).resolve_right
          (h hPending).2
    case h_2 =>
      have hTick : s.tick P = .ok
          (if s.counted.intLocalPending then
            s.counted.setHart
              { s.counted.hart with WFI := false }
          else
            s.counted) := by
        unfold State.tick
        dsimp only
        rw [hPre, if_pos hCounted]
      have hNot : ¬ SleepsAgain P s := by
        intro hSleeps
        have hAwake := hSleeps.interprets.awake
        rw [hPre, hCounted] at hAwake
        cases hAwake
      constructor
      · intro hWakes _
        refine ⟨?_, hNot⟩
        rw [← hLocal, ← State.intLocalPending_iff]
        by_contra hFalse
        rw [if_neg hFalse] at hTick
        have hWfi := hWakes hPending _ hTick
        rw [hCounted] at hWfi
        cases hWfi
      · intro h _ s' hTick'
        have hTrue : s.counted.intLocalPending = true :=
          (State.intLocalPending_iff _).mpr
            (hLocal.mpr (h hPending).1)
        rw [hTick, if_pos hTrue] at hTick'
        cases hTick'
        rfl

/- A hart in machine mode that waits, with `mideleg` set. -/
def waitingHart
    (irqs : BitVec 16) : State Unit :=
  ((State.boot []).setPins ⟨irqs, 0, 0⟩).setHart
    { (State.boot []).hart with
      WFI := true
      ie := irqs
      csrs := Function.update (State.boot []).hart.csrs
        CSR_MIDELEG 0x222 }

/- An interrupt that machine mode keeps wakes it up. -/
theorem waiting_hart_wakes :
    ∃ s', (waitingHart 0x80).tick Platform.bare = .ok s' ∧
      s'.hart.WFI = false := by
  have hPending : (waitingHart 0x80).pendingAll ≠ 0 := by decide
  have hNot : ¬ SleepsAgain Platform.bare (waitingHart 0x80) := by
    intro hSleeps
    exact absurd hSleeps.interprets.awake (by decide)
  have hBoth := (sleeping_hart_wakes_iff Platform.bare
    (waitingHart 0x80) rfl).mpr
      (fun _ => ⟨Or.inl (by decide), hNot⟩)
  exact ⟨_, rfl, hBoth.1 hPending _ rfl⟩

/- One that is delegated does not. -/
theorem waiting_hart_sleeps_on :
    (waitingHart 0x20).pendingAll ≠ 0 ∧
      ∃ s', (waitingHart 0x20).tick Platform.bare = .ok s' ∧
        s'.hart.WFI = true :=
  ⟨by decide, _, rfl, by decide⟩

end RiscvEm
