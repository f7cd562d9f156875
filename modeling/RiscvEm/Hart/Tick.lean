import RiscvEm.Jit.Run
import RiscvEm.Sets.Exec

/-
  One tick of a hart: interrupts, compiled code, or fetch,
  decode and execution of one instruction.

  Key definitions include:
    * `State.fetch`
    * `State.interpret`
    * `State.dispatch`
    * `State.tick`

  Key theorems include:
    * `State.runEntry_cases`
    * `State.interpret_cases`
    * `State.tick_cases`
-/

------------------------------------------------------------
-- Interpretation
------------------------------------------------------------

namespace RiscvEm

variable {σ : Type}

namespace State

/- A failed fetch traps and yields zero. -/
def fetch
    (P : Platform σ)
    (s : State σ)
    (instPc : BitVec 64) :
    Except HostFault (BitVec 32 × State σ) := do
  let (out, val, s) ← s.mmioRead P instPc .Int
  .ok (val.setWidth 32,
    if out.isSuccess then
      s
    else
      s.trap EXC_INST_ACCESS_FAULT out.tval false)

def setJctx
    (s : State σ)
    (j : JitContext) : State σ :=
  { s with jctx := j }

def setCache
    (s : State σ)
    (c : DecodeCache) : State σ :=
  { s with cache := c }

/- `jctx->stopBlock(); trap(cause, tval, false);` -/
def stopAndTrap
    (s : State σ)
    (cause tval : BitVec 64) : State σ :=
  (s.setJctx s.jctx.stopBlock).trap cause tval false

/- `csrs[CSR_MINSTRET]++; pc += out.increase_pc;` -/
def retire
    (s : State σ)
    (out : ExecReturn) : State σ :=
  (s.setCsr CSR_MINSTRET (s.csr CSR_MINSTRET + 1)).setPc
    (s.hart.pc + out.increasePc)

/- After decoding: execute the entry, trap or go on. -/
def runEntry
    (P : Platform σ)
    (entry : InstructionCache)
    (inst : BitVec 32)
    (prevPc : BitVec 64)
    (s : State σ) : Except HostFault (State σ) :=
  match entry.selected with
  | none =>
      .ok (s.stopAndTrap EXC_ILLEGAL_INSTRUCTION
        (inst.setWidth 64))
  | some i => do
      let (out, s) ← i.func.exec P entry.data s
      if out.isSuccess then do
        let s := s.retire out
        let j ← s.jctx.handleInstruction P.host entry i prevPc
        .ok (s.setJctx j)
      else
        .ok (s.stopAndTrap out.cause out.tval)

/- Fetch, decode and execute at `pc`. -/
def interpret
    (P : Platform σ)
    (s : State σ) : Except HostFault (State σ) := do
  let prevPc := s.hart.pc
  let (inst, s) ← s.fetch P s.hart.pc
  let (entry, cache) := decodeInst decoder s.cache s.hart.pc
    inst
  (s.setCache cache).runEntry P entry inst prevPc

end State

end RiscvEm

------------------------------------------------------------
-- Ticks
------------------------------------------------------------

namespace RiscvEm

variable {σ : Type}

namespace State

/- The block that `tick` finds for the program counter. -/
def jitEntry
    (s : State σ) : Option JitFunction :=
  let f := s.jctx.jits (jitIndex s.hart.pc)
  if s.jctx.count ≠ 0 ∧ f.valid = true ∧ f.pc = s.hart.pc ∧
      s.hart.lastJitPcExit ≠ s.hart.pc then
    some f
  else
    none

/- The version of the block's page is the current one. -/
def isCurrent
    (s : State σ)
    (f : JitFunction) : Bool :=
  f.pageVersion ==
    s.jctx.pageVerionBitmap (pageIndex s.hart.pc)

/- Drop the block and forget the hits. -/
def dropBlock
    (s : State σ)
    (f : JitFunction) : State σ :=
  s.setJctx { s.jctx with
    jits := Function.update s.jctx.jits (jitIndex s.hart.pc)
      { f with valid := false } }.clearPcHits

/- Call the block and go on behind it. -/
def callBlock
    (P : Platform σ)
    (s : State σ)
    (f : JitFunction) : Except HostFault (State σ) := do
  let s := s.setHart { s.hart with exitPc := 0 }
  let s ← runBlock P f.func s
  .ok (if s.hart.exitPc ≠ 0 then
    s.setHart { s.hart with
      pc := s.hart.exitPc
      lastJitPcExit := s.hart.exitPc }
  else
    s.setPc (s.hart.pc + f.instSize.setWidth 64))

/- What follows the checks for interrupts and `WFI`. -/
def dispatch
    (P : Platform σ)
    (s : State σ) : Except HostFault (State σ) :=
  match s.jitEntry with
  | some f =>
      if s.isCurrent f then
        s.callBlock P f
      else
        .ok (s.dropBlock f)
  | none =>
      (s.setHart { s.hart with lastJitPcExit := 0 }).interpret P

/- `GPR[0] = 0; csrs[CSR_MCYCLE]++;` and the interrupts. -/
def preTick
    (s : State σ) : State σ :=
  let s := s.setGpr 0 0
  let s := s.setCsr CSR_MCYCLE (s.csr CSR_MCYCLE + 1)
  if s.pendingAll ≠ 0 then s.checkInts else s

def tick
    (P : Platform σ)
    (s : State σ) : Except HostFault (State σ) :=
  let s := s.preTick
  if s.hart.WFI then
    .ok (if s.intLocalPending then
      s.setHart { s.hart with WFI := false }
    else
      s)
  else
    s.dispatch P

end State

end RiscvEm

------------------------------------------------------------
-- What A Tick Can Do
------------------------------------------------------------

namespace RiscvEm

variable {σ : Type}
variable {P : Platform σ}
variable {s s' : State σ}

namespace State

/- An entry traps, fails in executing, or is executed. -/
theorem runEntry_cases
    {entry : InstructionCache}
    {w : BitVec 32}
    {pc : BitVec 64}
    (h : s.runEntry P entry w pc = .ok s') :
    (entry.selected = none ∧
      s' = s.stopAndTrap EXC_ILLEGAL_INSTRUCTION
        (w.setWidth 64)) ∨
    ∃ i out s₁,
      entry.selected = some i ∧
      i.func.exec P entry.data s = .ok (out, s₁) ∧
      ((out.isSuccess = false ∧
          s' = s₁.stopAndTrap out.cause out.tval) ∨
        (out.isSuccess = true ∧
          ∃ j, (s₁.retire out).jctx.handleInstruction P.host
              entry i pc = .ok j ∧
            s' = (s₁.retire out).setJctx j)) := by
  unfold runEntry at h
  cases hSel : entry.selected with
  | none =>
      rw [hSel] at h
      cases h
      exact Or.inl ⟨rfl, rfl⟩
  | some i =>
      rw [hSel] at h
      rcases bind_eq_ok.mp h with ⟨⟨out, s₁⟩, hExec, h⟩
      refine Or.inr ⟨i, out, s₁, rfl, hExec, ?_⟩
      dsimp only at h
      cases hOk : out.isSuccess with
      | true =>
          rw [hOk, if_pos rfl] at h
          rcases bind_eq_ok.mp h with ⟨j, hHandle, h⟩
          cases h
          exact Or.inr ⟨rfl, j, hHandle, rfl⟩
      | false =>
          rw [hOk, if_neg Bool.false_ne_true] at h
          cases h
          exact Or.inl ⟨rfl, rfl⟩

/- The entry for a fetched word, and the state after it. -/
def decode
    (s : State σ)
    (w : BitVec 32) : InstructionCache × State σ :=
  let out := decodeInst decoder s.cache s.hart.pc w
  (out.1, s.setCache out.2)

/- The state in which a fetch leaves the hart. -/
def afterFetch
    (s : State σ)
    (m : MemoryReturn) : State σ :=
  if m.isSuccess then
    s
  else
    s.trap EXC_INST_ACCESS_FAULT m.tval false

/- An interpreted tick runs what it fetched. -/
theorem interpret_of_read
    {m : MemoryReturn}
    {val : BitVec 64}
    {s₁ : State σ}
    (h : s.mmioRead P s.hart.pc .Int = .ok (m, val, s₁)) :
    s.interpret P =
      ((s₁.afterFetch m).decode (val.setWidth 32)).2.runEntry
        P ((s₁.afterFetch m).decode (val.setWidth 32)).1
        (val.setWidth 32) s.hart.pc := by
  unfold interpret fetch
  rw [h]
  rfl

/- A tick that is interpreted has fetched its word. -/
theorem interpret_cases
    (h : s.interpret P = .ok s') :
    ∃ m val s₁,
      s.mmioRead P s.hart.pc .Int = .ok (m, val, s₁) ∧
      ((s₁.afterFetch m).decode (val.setWidth 32)).2.runEntry
        P ((s₁.afterFetch m).decode (val.setWidth 32)).1
        (val.setWidth 32) s.hart.pc = .ok s' := by
  have hFetch := h
  unfold interpret fetch at hFetch
  rcases bind_eq_ok.mp hFetch with ⟨out, hFetch, -⟩
  rcases bind_eq_ok.mp hFetch with ⟨⟨m, val, s₁⟩, hRead, -⟩
  rw [interpret_of_read hRead] at h
  exact ⟨m, val, s₁, hRead, h⟩

/- The state in which the interpreter fetches. -/
def atFetch
    (s : State σ) : State σ :=
  s.preTick.setHart { s.preTick.hart with lastJitPcExit := 0 }

/- The hart does not wait and has no block for its `pc`. -/
structure Interprets
    (s : State σ) : Prop where
  awake : s.preTick.hart.WFI = false
  noBlock : s.preTick.jitEntry = none

/- A tick without a block is interpreted. -/
theorem Interprets.tick_eq
    (h : s.Interprets)
    (P : Platform σ) :
    s.tick P = s.atFetch.interpret P := by
  unfold tick
  simp only [h.awake, Bool.false_eq_true, if_false]
  unfold dispatch
  rw [h.noBlock]
  rfl

/- A tick waits, calls or drops a block, or interprets. -/
theorem tick_cases
    (h : s.tick P = .ok s') :
    (∃ b, s' = s.preTick.setHart
      { s.preTick.hart with WFI := b }) ∨
    (∃ f, s.preTick.jitEntry = some f ∧
      s.preTick.isCurrent f = true ∧
      s.preTick.callBlock P f = .ok s') ∨
    (∃ f, s.preTick.jitEntry = some f ∧
      s' = s.preTick.dropBlock f) ∨
    (s.Interprets ∧ s.atFetch.interpret P = .ok s') := by
  unfold tick at h
  dsimp only at h
  split at h
  case isTrue hWfi =>
    cases h
    refine Or.inl ?_
    split
    · exact ⟨false, rfl⟩
    · exact ⟨s.preTick.hart.WFI, rfl⟩
  case isFalse hWfi =>
    unfold dispatch at h
    split at h
    case h_1 f hEntry =>
      split at h
      case isTrue hCurrent =>
        exact Or.inr (Or.inl ⟨f, hEntry, hCurrent, h⟩)
      case isFalse =>
        cases h
        exact Or.inr (Or.inr (Or.inl ⟨f, hEntry, rfl⟩))
    case h_2 hEntry =>
      have hAwake : s.preTick.hart.WFI = false := by
        simpa using hWfi
      exact Or.inr (Or.inr (Or.inr ⟨⟨hAwake, hEntry⟩, h⟩))

end State

end RiscvEm
