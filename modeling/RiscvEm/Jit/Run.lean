import RiscvEm.Lib.X86Run
import RiscvEm.Memory.Mmio

/-
  Running compiled code: what its loads, stores and calls
  reach, and the call of a block from the interpreter.

  Key definitions include:
    * `jitSlowStore`
    * `jitEnv`
    * `runBlock`
    * `OnlyCompiled`

  Key theorems include `runBlock_onlyCompiled`.
-/

------------------------------------------------------------
-- Host Memory
------------------------------------------------------------

namespace RiscvEm

variable {σ : Type}

/-
  An eight-byte load: a field of the context or an element of
  `GPR`. `Hart::init` has set the fields, but for `hart`,
  which is as the construction of the hart left it.
-/
def contextLoad
    (P : Platform σ)
    (s : State σ)
    (a : BitVec 64) : Option (BitVec 64) :=
  let field := a - P.layout.ctx
  let reg := (a - P.layout.regs).toNat
  if field = CTX_REGS.setWidth 64 then
    some P.layout.regs
  else if field = CTX_RAM.setWidth 64 then
    some P.layout.ram
  else if field = CTX_MEMSIZE.setWidth 64 then
    some P.memsize
  else if field = CTX_HART.setWidth 64 then
    some (P.layout.hctxHart s.self)
  else if reg < 256 ∧ reg % 8 = 0 then
    some (s.gpr (BitVec.ofNat 5 (reg / 8)))
  else
    none

/- A store of `n` bytes into RAM at an offset. -/
def State.storeRam
    (s : State σ)
    (off n : Nat)
    (v : BitVec 64) : Option (State σ) :=
  match s.mem.ram with
  | .ok r =>
      some ({ s with
        mem := s.mem.setRam { r with
          data := scatterLe r.data off n v } }.log
        (.store s.self .compiled
          (0x80000000 + BitVec.ofNat 64 off) n))
  | .error _ => none

/- A store reaches an element of `GPR` or the RAM array. -/
def contextStore
    (P : Platform σ)
    (s : State σ)
    (a : BitVec 64)
    (n : Nat)
    (v : BitVec 64) : Option (State σ) :=
  let reg := (a - P.layout.regs).toNat
  let off := (a - P.layout.ram).toNat
  if n = 8 ∧ reg < 256 ∧ reg % 8 = 0 then
    some (s.setGpr (BitVec.ofNat 5 (reg / 8)) v)
  else if off + n ≤ P.memsize.toNat then
    s.storeRam off n v
  else
    none

end RiscvEm

------------------------------------------------------------
-- Calls
------------------------------------------------------------

namespace RiscvEm

variable {σ : Type}

/-
  `jit_slow_sb` .. `jit_slow_sd`: the first device whose
  window holds the address gets the write; otherwise nothing
  happens.
-/
def jitSlowStore
    (P : Platform σ)
    (s : State σ)
    (size : MemorySize)
    (addr val : BitVec 64) : Option (State σ) :=
  let addr := addr + 0x80000000
  match P.devs.find? (·.inReadWindow addr size) with
  | none => some s
  | some dev =>
      match dev.write addr size val s.world s.mem with
      | .ok (world, mem) =>
          some ({ s with world := world, mem := mem }.log
            (.store s.self .compiled addr size.bytes))
      | .error _ => none

/- The function that an address is the start of. -/
def slowSize
    (slow : SlowFuncs)
    (addr : BitVec 64) : Option MemorySize :=
  [MemorySize.Byte, .Short, .Int, .Long].find?
    (fun size => slow size == addr)

/- Registers that a call may change. -/
def callerSaved
    (r : BitVec 4) : Bool :=
  r ∈ [0, 1, 2, 6, 7, 8, 9, 10, 11]

/-
  A call of a slow function: the hart in `RDI`, the offset in
  `RSI` and the value in `RDX`. A pointer to anything but the
  hart that runs leads nowhere.
-/
def slowCall
    (P : Platform σ)
    (addr : BitVec 64)
    (regs : BitVec 4 → BitVec 64)
    (s : State σ) :
    Option ((BitVec 4 → BitVec 64) × State σ) := do
  let size ← slowSize P.host.slow addr
  if regs 7 = P.layout.hart s.self then
    let s ← jitSlowStore P s size (regs 6) (regs 2)
    some (fun r => if callerSaved r then P.clobber r
      else regs r, s)
  else
    none

/- What compiled code runs in. -/
def jitEnv
    (P : Platform σ) : X86.Env (State σ) :=
  { load := contextLoad P
    store := contextStore P
    call := slowCall P }

/-
  `jit_entry.func(&hctx)`. The other registers hold values
  left by the interpreter.
-/
def runBlock
    (P : Platform σ)
    (code : Code)
    (s : State σ) : Except HostFault (State σ) :=
  let m : X86.Machine (State σ) :=
    { regs := Function.update P.clobber 7 P.layout.ctx
      flags := none
      stack := []
      mem := s }
  match (jitEnv P).run code (RVJIT_FUNC_SIZE + 1) 0 m with
  | some m => .ok m.mem
  | none => .error .codeFault

end RiscvEm

------------------------------------------------------------
-- What Compiled Code Can Do
------------------------------------------------------------

namespace RiscvEm

variable {σ : Type}
variable {P : Platform σ}
variable {s s' : State σ}

/-
  The states differ at most in the integer registers, memory
  and devices, and the events between them are stores by
  compiled code.
-/
structure OnlyCompiled
    (s s' : State σ) : Prop where
  hart : s'.hart = { s.hart with GPR := s'.hart.GPR }
  rest : s' = { s with
    hart := s'.hart
    mem := s'.mem
    world := s'.world
    trace := s'.trace }
  trace : ∃ es, s'.trace = es ++ s.trace ∧
    ∀ e ∈ es, ∃ addr n,
      e = .store s.self .compiled addr n

namespace OnlyCompiled

/- Doing nothing is what compiled code may do. -/
theorem refl
    (s : State σ) :
    OnlyCompiled s s :=
  ⟨rfl, rfl, [], rfl, fun _ hMem => nomatch hMem⟩

theorem self
    (h : OnlyCompiled s s') :
    s'.self = s.self := by
  rw [h.rest]

/- Changes of compiled code one after the other. -/
theorem trans
    {s'' : State σ}
    (h : OnlyCompiled s s')
    (h' : OnlyCompiled s' s'') :
    OnlyCompiled s s'' := by
  refine ⟨?_, ?_, ?_⟩
  · rw [h'.hart, h.hart]
  · rw [h'.rest, h.rest]
  · rcases h.trace with ⟨es, hTrace, hMem⟩
    rcases h'.trace with ⟨es', hTrace', hMem'⟩
    refine ⟨es' ++ es, ?_, ?_⟩
    · rw [hTrace', hTrace, List.append_assoc]
    · intro e he
      rcases List.mem_append.mp he with he | he
      · rw [← h.self]
        exact hMem' e he
      · exact hMem e he

/- Memory and devices change, and a store is logged. -/
theorem stored
    (s : State σ)
    (mem : MemoryMap)
    (world : DevWorld σ)
    (addr : BitVec 64)
    (n : Nat) :
    OnlyCompiled s ({ s with mem := mem, world := world }.log
      (.store s.self .compiled addr n)) := by
  refine ⟨rfl, rfl, [_], rfl, ?_⟩
  intro e he
  rw [List.mem_singleton.mp he]
  exact ⟨addr, n, rfl⟩

end OnlyCompiled

/- A store by compiled code stays within these changes. -/
theorem contextStore_onlyCompiled
    {a v : BitVec 64}
    {n : Nat}
    (h : contextStore P s a n v = some s') :
    OnlyCompiled s s' := by
  unfold contextStore at h
  dsimp only at h
  split at h
  · cases h
    exact ⟨rfl, rfl, [], rfl, fun _ hMem => nomatch hMem⟩
  · split at h
    · unfold State.storeRam at h
      split at h
      · cases h
        exact .stored s _ s.world _ n
      · cases h
    · cases h

/- A slow call changes only what compiled code may change. -/
theorem slowCall_onlyCompiled
    {addr : BitVec 64}
    {regs regs' : BitVec 4 → BitVec 64}
    (h : slowCall P addr regs s = some (regs', s')) :
    OnlyCompiled s s' := by
  rcases Option.bind_eq_some_iff.mp h with ⟨size, -, h⟩
  split at h
  case isFalse => cases h
  case isTrue =>
    rcases Option.bind_eq_some_iff.mp h with ⟨s₁, hSlow, h⟩
    cases h
    unfold jitSlowStore at hSlow
    dsimp only at hSlow
    split at hSlow
    · cases hSlow
      exact .refl s
    · split at hSlow
      · cases hSlow
        exact .stored s _ _ _ _
      · cases hSlow

/- Hence everything that compiled code can do. -/
theorem jitEnv_preserves
    (P : Platform σ)
    (s : State σ) :
    (jitEnv P).Preserves (OnlyCompiled s) := by
  constructor
  · intro s₁ s₂ a n v hStore h
    exact h.trans (contextStore_onlyCompiled hStore)
  · intro s₁ s₂ a regs regs' hCall h
    exact h.trans (slowCall_onlyCompiled hCall)

/- A block that runs to its end changed nothing else. -/
theorem runBlock_onlyCompiled
    {code : Code}
    (h : runBlock P code s = .ok s') :
    OnlyCompiled s s' := by
  unfold runBlock at h
  dsimp only at h
  split at h
  case h_1 m hRun =>
    cases h
    exact X86.Env.run_preserves (jitEnv_preserves P s) hRun
      (.refl s)
  case h_2 => cases h

end RiscvEm
