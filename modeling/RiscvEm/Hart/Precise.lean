import RiscvEm.Decode.Select
import RiscvEm.Hart.Tick
import RiscvEm.Sets.Traps

/-
  Precise traps: when a tick of the interpreter raises an
  exception, the state is the one before the instruction
  with one trap entered.

  Key definitions include:
    * `Raises`
    * `PreciseTick`
    * `AmoReadOnly`

  Key theorems include `tick_precise_iff`.
-/

------------------------------------------------------------
-- Exceptions
------------------------------------------------------------

namespace RiscvEm

variable {σ : Type}

/- The test that the fetch of an instruction passes. -/
def FetchAccepted
    (P : Platform σ)
    (pc : BitVec 64) : Prop :=
  takesDram P pc .Int ∨
    (P.devs.find? (·.inReadWindow pc .Int)).isSome = true

instance
    (P : Platform σ)
    (pc : BitVec 64) :
    Decidable (FetchAccepted P pc) :=
  inferInstanceAs (Decidable (_ ∨ _))

/-
  A word was fetched from `pc` and decoded; `b` is the state
  before anything is executed.
-/
inductive Fetched
    (P : Platform σ)
    (s : State σ) :
    BitVec 32 → InstructionCache → State σ → Prop
  | mk {m : MemoryReturn} {val : BitVec 64} {s₁ : State σ} :
      s.mmioRead P s.hart.pc .Int = .ok (m, val, s₁) →
      m.isSuccess = true →
      Fetched P s (val.setWidth 32)
        (s₁.decode (val.setWidth 32)).1
        (s₁.decode (val.setWidth 32)).2

/-
  The exceptions that a tick can raise: cause, value, and
  the state just before the instruction.
-/
inductive Raises
    (P : Platform σ)
    (s : State σ) :
    State σ → BitVec 64 → BitVec 64 → Prop
  | fetch {m : MemoryReturn} {val : BitVec 64}
      {s₁ : State σ} :
      s.mmioRead P s.hart.pc .Int = .ok (m, val, s₁) →
      m.isSuccess = false →
      Raises P s s EXC_INST_ACCESS_FAULT s.hart.pc
  | decode {w : BitVec 32} {entry : InstructionCache}
      {b : State σ} :
      Fetched P s w entry b →
      entry.selected = none →
      Raises P s b EXC_ILLEGAL_INSTRUCTION (w.setWidth 64)
  | exec {w : BitVec 32} {entry : InstructionCache}
      {i : Instruction} {b s₁ : State σ} {out : ExecReturn} :
      Fetched P s w entry b →
      entry.selected = some i →
      i.func.exec P entry.data b = .ok (out, s₁) →
      out.isSuccess = false →
      Raises P s b out.cause out.tval
  | floatCsr {w : BitVec 32} {entry : InstructionCache}
      {i : Instruction} {b : State σ} :
      Fetched P s w entry b →
      entry.selected = some i →
      FloatCsrDenied b i.func entry.data →
      Raises P s b EXC_ILLEGAL_INSTRUCTION
        (entry.data.csr.setWidth 64)

def Event.isSyncTrap : Event → Bool
  | .trap _ _ _ interrupt => !interrupt
  | _ => false

/- How often `trap` was entered for an exception. -/
def syncTraps
    (trace : List Event) : Nat :=
  trace.countP Event.isSyncTrap

/- The state `s'` is `b` with one trap entered. -/
structure TrappedAt
    (b s' : State σ)
    (cause tval : BitVec 64) : Prop where
  hart : s'.hart = b.hart.trap cause tval false
  mem : s'.mem = b.mem
  world : s'.world = b.world

/-
  The tick enters at most one trap for an exception, and an
  exception that is raised is taken precisely.
-/
structure PreciseTick
    (P : Platform σ)
    (s : State σ) : Prop where
  once : ∀ s', s.tick P = .ok s' →
    syncTraps s'.trace ≤ syncTraps s.trace + 1
  exact : ∀ b cause tval,
    Raises P s.atFetch b cause tval →
      ∃ s', s.tick P = .ok s' ∧ TrappedAt b s' cause tval

/-
  An atomic operation that a device lets read but not write,
  at the last place of its window, and that changes the
  device by reading it.
-/
def AmoReadOnly
    (P : Platform σ)
    (s : State σ)
    (op : Op)
    (d : InstructionData) : Prop :=
  ∃ size dev val world,
    amoSize op = some size ∧
    ¬ takesDram P (s.gpr d.rs1) size ∧
    P.devs.find? (·.inReadWindow (s.gpr d.rs1) size) =
      some dev ∧
    P.devs.find? (·.inWriteWindow (s.gpr d.rs1) size) = none ∧
    dev.read (s.gpr d.rs1) size s.world = .ok (val, world) ∧
    world ≠ s.world

end RiscvEm

------------------------------------------------------------
-- Traps In The Trace
------------------------------------------------------------

namespace RiscvEm

variable {σ : Type}
variable {P : Platform σ}
variable {op : Op}
variable {d : InstructionData}
variable {s s' : State σ}
variable {out : ExecReturn}

@[simp] theorem syncTraps_trap
    (hart : Nat)
    (cause tval : BitVec 64)
    (interrupt : Bool)
    (trace : List Event) :
    syncTraps (.trap hart cause tval interrupt :: trace) =
      syncTraps trace + (if interrupt then 0 else 1) := by
  cases interrupt <;> simp [syncTraps, Event.isSyncTrap]

theorem TrapFree.syncTraps_eq
    (h : TrapFree s s') :
    syncTraps s'.trace = syncTraps s.trace := by
  refine h.countP_eq ?_
  intro e he
  cases e with
  | trap => rfl
  | store | lr | sc => cases he

/- A write is refused exactly when nothing accepts it. -/
theorem State.mmioWrite_refused
    {addr val : BitVec 64}
    {size : MemorySize}
    {m : MemoryReturn}
    (h : s.mmioWrite P addr size val = .ok (m, s'))
    (hFail : m.isSuccess = false) :
    ¬ takesDram P addr size ∧
      P.devs.find? (·.inWriteWindow addr size) = none := by
  rcases State.mmioWrite_steps h with
    ⟨-, rfl, -⟩ | ⟨-, rfl, -⟩ | ⟨hDram, hNone, -, -⟩
  · cases hFail
  · cases hFail
  · exact ⟨hDram, hNone⟩

/- A read outside of RAM asks the first device. -/
theorem State.mmioRead_device
    {addr val : BitVec 64}
    {size : MemorySize}
    {m : MemoryReturn}
    (h : s.mmioRead P addr size = .ok (m, val, s'))
    (hDram : ¬ takesDram P addr size)
    (hOk : m.isSuccess = true) :
    ∃ dev out world,
      P.devs.find? (·.inReadWindow addr size) = some dev ∧
      dev.read addr size s.world = .ok (out, world) ∧
      s'.world = world := by
  unfold State.mmioRead at h
  rw [if_neg hDram] at h
  split at h
  case h_1 dev hFind =>
    rcases bind_eq_ok.mp h with ⟨⟨out, world⟩, hRead, h⟩
    cases h
    exact ⟨dev, out, world, hFind, hRead, rfl⟩
  case h_2 =>
    cases h
    cases hOk

theorem State.amoFault_world
    {val val' : BitVec 64}
    {size : MemorySize}
    {m m' : MemoryReturn}
    {s₁ : State σ}
    (hSize : amoSize op = some size)
    (hRead : s.mmioRead P (s.gpr d.rs1) size =
      .ok (m, val, s₁))
    (hOk : m.isSuccess = true)
    (hWrite : s₁.mmioWrite P (s.gpr d.rs1) size val' =
      .ok (m', s'))
    (hFail : m'.isSuccess = false)
    (hAmo : ¬ AmoReadOnly P s op d) :
    s₁.world = s.world := by
  rcases State.mmioWrite_refused hWrite hFail with
    ⟨hDram, hNone⟩
  rcases State.mmioRead_device hRead hDram hOk with
    ⟨dev, out, world, hFind, hDev, hWorld⟩
  by_contra hNe
  apply hAmo
  refine ⟨size, dev, out, world, hSize, hDram, hFind, hNone,
    hDev, ?_⟩
  rw [← hWorld]
  exact hNe

/-
  A failed instruction has changed nothing, unless it is an
  atomic operation that a device let only read.
-/
theorem Effect.fault_unchanged
    (h : Effect P op d s out s')
    (hFail : out.isSuccess = false)
    (hAmo : ¬ AmoReadOnly P s op d) :
    s'.hart = s.hart ∧ s'.mem = s.mem ∧
      s'.world = s.world := by
  cases h with
  | fault _ => exact ⟨rfl, rfl, rfl⟩
  | scFault _ _ _ _ => exact ⟨rfl, rfl, rfl⟩
  | amoFault hSize hRead hOk hWrite hFailed _ =>
      have hWorld := State.amoFault_world hSize hRead hOk
        hWrite hFailed hAmo
      rcases State.mmioRead_cases hRead with
        ⟨-, hEq⟩ | ⟨hM, -, -⟩
      · rw [hEq]
        exact ⟨rfl, rfl, hWorld⟩
      · rw [hM] at hOk
        cases hOk
  | regs hOk _ | load _ _ hOk _ | store _ _ hOk _
  | amo _ _ _ _ hOk _ | lr _ _ hOk _ | sc _ _ _ hOk _
  | scFail hOk _ | csr _ _ _ _ _ _ _ hOk _ _ | mret _ hOk
  | sret _ hOk | wfi _ _ hOk | fenceI hOk | cboRam _ _ hOk
  | cboDevice _ hOk =>
      rw [hOk] at hFail
      cases hFail

end RiscvEm

------------------------------------------------------------
-- Ticks That Are Precise
------------------------------------------------------------

namespace RiscvEm

variable {σ : Type}
variable {P : Platform σ}
variable {s s' b : State σ}

/- What follows an access by the fetch. -/
theorem Fetched.interpret_eq
    {w : BitVec 32}
    {entry : InstructionCache}
    (h : Fetched P s w entry b) :
    s.interpret P = b.runEntry P entry w s.hart.pc := by
  cases h with
  | mk hRead hOk =>
      rw [State.interpret_of_read hRead]
      unfold State.afterFetch
      rw [if_pos hOk]

theorem Fetched.trace
    {w : BitVec 32}
    {entry : InstructionCache}
    (h : Fetched P s w entry b) :
    b.trace = s.trace := by
  cases h with
  | mk hRead hOk =>
      rename_i s₁
      have hTrace : s₁.trace = s.trace :=
        State.mmioRead_trace hRead
      exact hTrace

theorem fetch_refused
    {pc : BitVec 64}
    (s : State σ)
    (h : ¬ FetchAccepted P pc) :
    s.mmioRead P pc .Int =
      .ok (⟨false, EXC_LOAD_ACCESS_FAULT, pc⟩, 0, s) := by
  have hDram : ¬ takesDram P pc .Int := fun hDram =>
    h (Or.inl hDram)
  have hFind : P.devs.find? (·.inReadWindow pc .Int) =
      none := by
    rw [← Option.not_isSome_iff_eq_none]
    exact fun hSome => h (Or.inr hSome)
  unfold State.mmioRead
  rw [if_neg hDram, hFind]

theorem fetch_accepted
    {pc val : BitVec 64}
    {m : MemoryReturn}
    (h : FetchAccepted P pc)
    (hRead : s.mmioRead P pc .Int = .ok (m, val, s')) :
    m.isSuccess = true := by
  unfold State.mmioRead at hRead
  split at hRead
  case isTrue =>
    rcases bind_eq_ok.mp hRead with ⟨out, -, hEq⟩
    cases hEq
    rfl
  case isFalse hDram =>
    split at hRead
    case h_1 =>
      rcases bind_eq_ok.mp hRead with ⟨out, -, hEq⟩
      cases hEq
      rfl
    case h_2 hNone =>
      rcases h with hDram' | hSome
      · exact absurd hDram' hDram
      · rw [hNone] at hSome
        cases hSome

/- Interrupts are not exceptions. -/
theorem State.preTick_syncTraps
    (s : State σ) :
    syncTraps s.preTick.trace = syncTraps s.trace := by
  have hCsr : ∀ s : State σ, ∀ n v,
      syncTraps (s.setCsr n v).trace = syncTraps s.trace := by
    intro s n v
    rw [State.setCsr_trace]
  have hInts : ∀ s : State σ,
      syncTraps s.checkInts.trace = syncTraps s.trace := by
    intro s
    unfold State.checkInts
    split
    · exact syncTraps_trap _ _ _ _ _
    · rfl
  unfold State.preTick
  dsimp only
  split
  · rw [hInts, hCsr]
    rfl
  · rw [hCsr]
    rfl

theorem State.stopAndTrap_syncTraps
    (s : State σ)
    (cause tval : BitVec 64) :
    syncTraps (s.stopAndTrap cause tval).trace =
      syncTraps s.trace + 1 :=
  syncTraps_trap _ _ _ _ _

theorem State.retire_trace
    (s : State σ)
    (out : ExecReturn) :
    (s.retire out).trace = s.trace :=
  s.setCsr_trace _ _

/-
  The condition: the fetch is accepted, and the instruction
  it leads to is not one of the bad ones.
-/
structure TrapsPrecisely
    (P : Platform σ)
    (s : State σ) : Prop where
  accepted : FetchAccepted P s.hart.pc
  instr : ∀ w entry i b, Fetched P s w entry b →
    entry.selected = some i →
      ¬ FloatCsrDenied b i.func entry.data ∧
        ¬ AmoReadOnly P b i.func entry.data

/- The condition is enough for one trap at most. -/
theorem tick_once
    (hInt : s.Interprets)
    (hCond : TrapsPrecisely P s.atFetch)
    (hTick : s.tick P = .ok s') :
    syncTraps s'.trace ≤ syncTraps s.trace + 1 := by
  have hStart : syncTraps s.atFetch.trace =
      syncTraps s.trace := s.preTick_syncTraps
  rw [hInt.tick_eq] at hTick
  rcases State.interpret_cases hTick with
    ⟨m, val, s₁, hRead, -⟩
  have hOk := fetch_accepted hCond.accepted hRead
  have hFetched := Fetched.mk hRead hOk
  rw [hFetched.interpret_eq] at hTick
  rw [← hStart, ← hFetched.trace]
  rcases State.runEntry_cases hTick with
    ⟨-, hEq⟩ | ⟨i, out, s₂, hSel, hExec, hEnd⟩
  · rw [hEq, State.stopAndTrap_syncTraps]
  · have hSame := ((Op.exec_effect _ hExec).trapFree
      (hCond.instr _ _ i _ hFetched hSel).1).syncTraps_eq
    rcases hEnd with ⟨-, hEq⟩ | ⟨-, j, -, hEq⟩
    · rw [hEq, State.stopAndTrap_syncTraps, hSame]
    · rw [hEq, ← hSame]
      exact Nat.le_succ_of_le
        (le_of_eq (congrArg syncTraps (s₂.retire_trace out)))

/- The condition is enough for the state to be right. -/
theorem tick_exact
    (hInt : s.Interprets)
    (hCond : TrapsPrecisely P s.atFetch)
    {cause tval : BitVec 64}
    (hRaise : Raises P s.atFetch b cause tval) :
    ∃ s', s.tick P = .ok s' ∧ TrappedAt b s' cause tval := by
  rw [hInt.tick_eq]
  cases hRaise with
  | fetch hRead hFail =>
      have hOk := fetch_accepted hCond.accepted hRead
      rw [hOk] at hFail
      cases hFail
  | @decode w _ _ hFetched hSel =>
      rw [hFetched.interpret_eq]
      refine ⟨b.stopAndTrap EXC_ILLEGAL_INSTRUCTION
        (w.setWidth 64), ?_, ?_⟩
      · unfold State.runEntry
        rw [hSel]
      · exact ⟨rfl, rfl, rfl⟩
  | @exec w entry i b s₁ out hFetched hSel hExec hFail =>
      rw [hFetched.interpret_eq]
      have hAmo := (hCond.instr _ _ i _ hFetched hSel).2
      rcases (Op.exec_effect _ hExec).fault_unchanged hFail
        hAmo with ⟨hHart, hMem, hWorld⟩
      refine ⟨s₁.stopAndTrap out.cause out.tval, ?_, ?_⟩
      · unfold State.runEntry
        rw [hSel]
        refine bind_eq_ok.mpr ⟨_, hExec, ?_⟩
        dsimp only
        rw [hFail, if_neg Bool.false_ne_true]
      · refine ⟨?_, hMem, hWorld⟩
        rw [← hHart]
        rfl
  | floatCsr hFetched hSel hDenied =>
      exact absurd hDenied
        (hCond.instr _ _ _ _ hFetched hSel).1

end RiscvEm

------------------------------------------------------------
-- Ticks That Are Not Precise
------------------------------------------------------------

namespace RiscvEm

variable {σ : Type}
variable {P : Platform σ}
variable {s s' b : State σ}

/- The program counter has moved. -/
theorem pc_add_ne
    (pc : BitVec 64)
    {n : BitVec 64}
    (hn : n ≠ 0) :
    pc + n ≠ pc := by
  intro hEq
  apply hn
  simpa using hEq

/- The entry of a decode with a sound cache. -/
theorem State.decode_selected
    (s : State σ)
    (hCache : s.cache.Sound decoder)
    (w : BitVec 32) :
    (s.decode w).1 = matchEntry s.hart.pc w (bestMatch w) :=
  (hCache.decodeInst s.hart.pc w).1.trans
    (decodeEntry_eq_matchEntry s.hart.pc w)

theorem State.preTick_cache
    (s : State σ) :
    s.preTick.cache = s.cache := by
  have hCsr : ∀ s : State σ, ∀ n v,
      (s.setCsr n v).cache = s.cache := by
    intro s n v
    unfold State.setCsr
    split <;> rfl
  have hInts : ∀ s : State σ,
      s.checkInts.cache = s.cache := by
    intro s
    unfold State.checkInts
    split <;> rfl
  unfold State.preTick
  dsimp only
  split
  · rw [hInts, hCsr]
    rfl
  · rw [hCsr]
    rfl

theorem State.atFetch_sound
    (hCache : s.cache.Sound decoder) :
    s.atFetch.cache.Sound decoder := by
  have hSame : s.atFetch.cache = s.cache := s.preTick_cache
  rw [hSame]
  exact hCache

/- The word that a failed fetch yields is `C.ADDI4SPN`. -/
theorem bestMatch_zero :
    (bestMatch 0).map (·.func) = some .C_ADDI4SPN := by
  decide +kernel

/- A refused fetch executes an instruction at the vector. -/
theorem not_precise_of_refused
    (hInt : s.Interprets)
    (hCache : s.cache.Sound decoder)
    (hRefused : ¬ FetchAccepted P s.atFetch.hart.pc) :
    ¬ PreciseTick P s := by
  intro hPrecise
  have hRead := fetch_refused s.atFetch hRefused
  rcases hPrecise.exact _ _ _ (.fetch hRead rfl) with
    ⟨s', hTick, hTrapped⟩
  have hAfter : s.atFetch.afterFetch
      ⟨false, EXC_LOAD_ACCESS_FAULT, s.atFetch.hart.pc⟩ =
      s.atFetch.trap EXC_INST_ACCESS_FAULT
        s.atFetch.hart.pc false := rfl
  have hWord : (0 : BitVec 64).setWidth 32 = 0 := rfl
  rw [hInt.tick_eq, State.interpret_of_read hRead, hAfter,
    hWord] at hTick
  rcases Option.map_eq_some_iff.mp bestMatch_zero with
    ⟨i₀, hBest, hFunc⟩
  have hEntry := State.decode_selected
    (s.atFetch.trap EXC_INST_ACCESS_FAULT s.atFetch.hart.pc
      false) (State.atFetch_sound hCache) 0
  rw [hBest] at hEntry
  rcases State.runEntry_cases hTick with
    ⟨hSel, -⟩ | ⟨i, out, s₂, hSel, hExec, hEnd⟩
  · rw [hEntry] at hSel
    cases hSel
  · rw [hEntry] at hSel hExec
    cases hSel
    rw [hFunc] at hExec
    cases hExec
    rcases hEnd with ⟨hFail, -⟩ | ⟨-, j, -, hEq⟩
    · cases hFail
    · have hPc := congrArg Hart.pc hTrapped.hart
      rw [hEq] at hPc
      exact pc_add_ne _ (by decide) hPc

theorem State.denied_syncTraps
    (s : State σ)
    (d : InstructionData) :
    syncTraps (s.denied d).trace = syncTraps s.trace + 1 :=
  syncTraps_trap _ _ _ _ _

/- A denied access is taken twice, or moves on. -/
theorem not_precise_of_denied
    {w : BitVec 32}
    {entry : InstructionCache}
    {i : Instruction}
    (hInt : s.Interprets)
    (hFetched : Fetched P s.atFetch w entry b)
    (hSel : entry.selected = some i)
    (hDenied : FloatCsrDenied b i.func entry.data) :
    ¬ PreciseTick P s := by
  intro hPrecise
  rcases hPrecise.exact _ _ _
    (.floatCsr hFetched hSel hDenied) with
    ⟨s', hTick, hTrapped⟩
  have hOnce := hPrecise.once s' hTick
  have hStart : syncTraps b.trace = syncTraps s.trace := by
    rw [hFetched.trace]
    exact s.preTick_syncTraps
  rw [hInt.tick_eq, hFetched.interpret_eq] at hTick
  rcases State.runEntry_cases hTick with
    ⟨hNone, -⟩ | ⟨i', out, s₂, hSel', hExec, hEnd⟩
  · rw [hSel] at hNone
    cases hNone
  · rw [hSel] at hSel'
    cases hSel'
    have hRun := hDenied.exec P
    rw [hExec] at hRun
    rcases hEnd with ⟨hFail, -⟩ | ⟨-, j, -, hEq⟩
    · cases hRun <;> cases hFail
    · cases hRun with
      | twice hTwice =>
          rw [hEq] at hOnce
          have hSame : ((s₂.retire (.next 4)).setJctx j).trace =
              s₂.trace := s₂.retire_trace (.next 4)
          have hCount : syncTraps s₂.trace =
              syncTraps b.trace + 1 + 1 := by
            rw [hTwice, State.denied_syncTraps,
              State.denied_syncTraps]
          rw [hSame] at hOnce
          omega
      | vector _ hPc =>
          have hEnd := congrArg Hart.pc hTrapped.hart
          rw [hEq] at hEnd
          have hMoved : s₂.hart.pc + 4 =
              (b.denied entry.data).hart.pc := hEnd
          rw [hPc] at hMoved
          exact pc_add_ne _ (by decide) hMoved

section Dispatch

seal execAmo

theorem amo_exec_eq
    {op : Op}
    {size : MemorySize}
    (h : amoSize op = some size) :
    ∃ ext func, ∀ (P : Platform σ) d s,
      op.exec P d s = execAmo size ext func P d s := by
  cases op with
  | AMOSWAP_W | AMOADD_W | AMOAND_W | AMOXOR_W | AMOOR_W
  | AMOMIN_W | AMOMINU_W | AMOMAX_W | AMOMAXU_W | AMOSWAP_D
  | AMOADD_D | AMOAND_D | AMOXOR_D | AMOOR_D | AMOMIN_D
  | AMOMINU_D | AMOMAX_D | AMOMAXU_D =>
      cases h
      exact ⟨_, _, fun _ _ _ => rfl⟩
  | _ => cases h

end Dispatch

/- The operation fails after it has changed the device. -/
theorem AmoReadOnly.exec
    {op : Op}
    {d : InstructionData}
    (h : AmoReadOnly P b op d) :
    ∃ out s₁, op.exec P d b = .ok (out, s₁) ∧
      out.isSuccess = false ∧ s₁.world ≠ b.world := by
  rcases h with ⟨size, dev, val, world, hSize, hDram, hFind,
    hNone, hDev, hNe⟩
  rcases amo_exec_eq hSize with ⟨ext, func, hExec⟩
  refine ⟨.ofMemory 4 ⟨false, EXC_STORE_ACCESS_FAULT,
    b.gpr d.rs1⟩, { b with world := world }, ?_, rfl, hNe⟩
  rw [hExec]
  unfold execAmo AMO State.mmioRead State.mmioWrite
  simp only [hDram, if_false, hFind, hNone, hDev, bind,
    Except.bind, if_true, Bool.false_eq_true]

theorem not_precise_of_amo
    {w : BitVec 32}
    {entry : InstructionCache}
    {i : Instruction}
    (hInt : s.Interprets)
    (hFetched : Fetched P s.atFetch w entry b)
    (hSel : entry.selected = some i)
    (hAmo : AmoReadOnly P b i.func entry.data) :
    ¬ PreciseTick P s := by
  intro hPrecise
  rcases hAmo.exec with ⟨out, s₁, hExec, hFail, hNe⟩
  rcases hPrecise.exact _ _ _
    (.exec hFetched hSel hExec hFail) with
    ⟨s', hTick, hTrapped⟩
  rw [hInt.tick_eq, hFetched.interpret_eq] at hTick
  rcases State.runEntry_cases hTick with
    ⟨hNone, -⟩ | ⟨i', out', s₂, hSel', hExec', hEnd⟩
  · rw [hSel] at hNone
    cases hNone
  · rw [hSel] at hSel'
    cases hSel'
    rw [hExec] at hExec'
    cases hExec'
    rcases hEnd with ⟨-, hEq⟩ | ⟨hOk, -⟩
    · apply hNe
      rw [← hTrapped.world, hEq]
      rfl
    · rw [hFail] at hOk
      cases hOk

end RiscvEm

------------------------------------------------------------
-- When Traps Are Precise
------------------------------------------------------------

namespace RiscvEm

variable {σ : Type}

/-
  A tick of the interpreter takes its exceptions precisely
  exactly when the fetch is accepted by RAM or a device and
  the instruction neither accesses a floating-point register
  while the unit is off nor is an atomic operation that
  changes a device which then refuses the write.
-/
theorem tick_precise_iff
    (P : Platform σ)
    (s : State σ)
    (hCache : s.cache.Sound decoder)
    (hInt : s.Interprets) :
    PreciseTick P s ↔ TrapsPrecisely P s.atFetch := by
  constructor
  · intro hPrecise
    constructor
    · by_contra hRefused
      exact not_precise_of_refused hInt hCache hRefused
        hPrecise
    · intro w entry i b hFetched hSel
      constructor
      · intro hDenied
        exact not_precise_of_denied hInt hFetched hSel hDenied
          hPrecise
      · intro hAmo
        exact not_precise_of_amo hInt hFetched hSel hAmo
          hPrecise
  · intro hCond
    constructor
    · intro s' hTick
      exact tick_once hInt hCond hTick
    · intro b cause tval hRaise
      exact tick_exact hInt hCond hRaise

/- With all interrupts disabled, none is taken. -/
theorem State.preTick_quiet
    (s : State σ)
    (hIe : s.hart.ie = 0) :
    s.preTick = s.setHart { s.hart with
      GPR := Function.update s.hart.GPR 0 0
      csrs := Function.update s.hart.csrs CSR_MCYCLE
        (s.hart.csrs CSR_MCYCLE + 1) } := by
  have hNone : ∀ s : State σ, s.hart.ie = 0 →
      s.pendingAll = 0 := by
    intro s hIe
    unfold State.pendingAll
    rw [hIe]
    simp
  unfold State.preTick
  dsimp only
  rw [if_neg]
  · rfl
  · exact not_not_intro (hNone _ hIe)

/- A hart that was just started has no compiled blocks. -/
theorem State.boot_interprets
    (ws : List (BitVec 32))
    (pc : BitVec 64) :
    ((State.boot ws).setPc pc).Interprets := by
  have hQuiet := ((State.boot ws).setPc pc).preTick_quiet rfl
  constructor
  · rw [hQuiet]
    rfl
  · rw [hQuiet]
    unfold State.jitEntry
    apply if_neg
    rintro ⟨hCount, -⟩
    exact hCount rfl

theorem bestMatch_ecall :
    (bestMatch 0x00000073).map (·.func) = some .ECALL := by
  decide +kernel

/- A system call at the start of a program. -/
theorem tick_precise_ecall :
    let s := (State.boot [0x00000073]).setPc 0x80000000
    s.cache.Sound decoder ∧ s.Interprets ∧
      PreciseTick Platform.bare s := by
  intro s
  have hCache : s.cache.Sound decoder :=
    DecodeCache.sound_init
  have hInt : s.Interprets := State.boot_interprets _ _
  refine ⟨hCache, hInt, ?_⟩
  refine (tick_precise_iff Platform.bare s hCache hInt).mpr
    ⟨Or.inl (by decide), ?_⟩
  intro w entry i b hFetched hSel
  have hMem : s.atFetch.mem = s.mem := by
    unfold State.atFetch
    rw [s.preTick_quiet rfl]
    rfl
  have hPc : s.atFetch.hart.pc = 0x80000000 := by
    unfold State.atFetch
    rw [s.preTick_quiet rfl]
    rfl
  have hRam : s.atFetch.mem.RamIs ⟨0x80000000, 0x100000,
      Bytes.ofWords [0x73]⟩ := by
    rw [hMem]
    exact ⟨rfl, rfl⟩
  have hRead : s.atFetch.mmioRead Platform.bare 0x80000000
      .Int = .ok (⟨true, 0, 0⟩, 0x73, s.atFetch) :=
    State.mmioRead_dram hRam rfl (by decide) (by decide)
  have hFunc : i.func = .ECALL := by
    cases hFetched with
    | mk hRead' hOk =>
        rw [hPc, hRead] at hRead'
        cases hRead'
        rw [State.decode_selected _
          (State.atFetch_sound hCache),
          matchEntry_selected] at hSel
        have hMap := bestMatch_ecall
        rw [show bestMatch 0x73 = some i from hSel] at hMap
        exact Option.some.inj hMap
  rw [hFunc]
  constructor
  · intro hDenied
    exact absurd hDenied.isCsr (by decide)
  · rintro ⟨size, dev, val, world, hSize, -⟩
    cases hSize

/- The first instruction lies outside of RAM. -/
theorem tick_not_precise_outside_ram :
    let s := (State.boot []).setPc 0x1000
    s.cache.Sound decoder ∧ s.Interprets ∧
      ¬ PreciseTick Platform.bare s := by
  intro s
  have hCache : s.cache.Sound decoder :=
    DecodeCache.sound_init
  have hInt : s.Interprets := State.boot_interprets _ _
  refine ⟨hCache, hInt, ?_⟩
  exact not_precise_of_refused hInt hCache (by decide)

end RiscvEm
