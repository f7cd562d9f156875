import RiscvEm.Jit.Simulation
import RiscvEm.Jit.StoreCode
import RiscvEm.Jit.TemplateValues

/-
  Running a compiled store: the direct store into RAM, and
  the call of the slow function, which keeps `RAX`, `RDX`,
  `RSI` and `RDI` on the stack and loses `R8` to `R11`.

  Key definitions include:
    * `storeOffset`
    * `storeStep`
    * `Called`

  Key theorems include:
    * `runs_storeFast`
    * `runs_storeSlow`
-/

------------------------------------------------------------
-- What A Store Does
------------------------------------------------------------

namespace RiscvEm

variable {σ : Type}

/- The offset of the access from the start of RAM. -/
def storeOffset
    (base imm : BitVec 64) : BitVec 64 :=
  base + imm32 imm - 0x40000000 - 0x40000000

/-
  Up to `memsize` the bytes go directly into RAM, otherwise
  the slow function is called.
-/
def storeStep
    (P : Platform σ)
    (size : MemorySize)
    (off v : BitVec 64)
    (s : State σ) : Option (State σ) :=
  if off ≤ P.memsize then
    if off.toNat + size.bytes ≤ P.memsize.toNat then
      s.storeRam off.toNat size.bytes v
    else
      none
  else
    jitSlowStore P s size off v

variable {P : Platform σ}
variable {s s' : State σ}

theorem storeRam_withGprs
    {off n : Nat}
    {v : BitVec 64}
    (h : s.storeRam off n v = some s')
    (g : BitVec 5 → BitVec 64) :
    (s.withGprs g).storeRam off n v = some (s'.withGprs g) ∧
      s'.hart = s.hart := by
  unfold State.storeRam at h ⊢
  have hMem : (s.withGprs g).mem.ram = s.mem.ram := rfl
  rw [hMem]
  split at h
  · cases h
    exact ⟨rfl, rfl⟩
  · cases h

theorem jitSlowStore_withGprs
    {size : MemorySize}
    {off v : BitVec 64}
    (h : jitSlowStore P s size off v = some s')
    (g : BitVec 5 → BitVec 64) :
    jitSlowStore P (s.withGprs g) size off v =
        some (s'.withGprs g) ∧
      s'.hart = s.hart := by
  unfold jitSlowStore at h ⊢
  dsimp only at h ⊢
  split at h
  · cases h
    exact ⟨rfl, rfl⟩
  · have hDev : (s.withGprs g).world = s.world ∧
        (s.withGprs g).mem = s.mem := ⟨rfl, rfl⟩
    rw [hDev.1, hDev.2]
    split at h
    · cases h
      exact ⟨rfl, rfl⟩
    · cases h

end RiscvEm

------------------------------------------------------------
-- Decoding
------------------------------------------------------------

namespace RiscvEm

open X86

theorem decode_movImm64_rax
    (imm : BitVec 64) :
    decode (movImm64 REG_RAX imm) =
      some (.movImm 0 imm, []) := by
  have hImm := imm64_run imm []
  rw [List.append_nil] at hImm
  have hOpcode : decode (movImm64 REG_RAX imm) =
      ((Reader.ensure true).bind fun _ =>
        imm64.bind fun imm =>
          Reader.unit (.movImm 0 imm)).run (bytes64 imm) :=
    rfl
  rw [hOpcode]
  simp [hImm]

/- The direct stores, through `R14` and `RCX`. -/
theorem decode_fastMov :
    ∀ b : Reg,
      decode (movM8r8 (hostByte b) REG_R14 REG_RCX 0 0) =
          some (.store 1 ⟨14, some 1, 0, 0⟩ b, []) ∧
        decode (movM16r16 (hostByte b) REG_R14 REG_RCX 0 0) =
          some (.store 2 ⟨14, some 1, 0, 0⟩ b, []) ∧
        decode (movM32r32 (hostByte b) REG_R14 REG_RCX 0 0) =
          some (.store 4 ⟨14, some 1, 0, 0⟩ b, []) ∧
        decode (movMr (hostByte b) REG_R14 REG_RCX 0 0) =
          some (.store 8 ⟨14, some 1, 0, 0⟩ b, []) := by
  decide +kernel

theorem storeParts_decode
    {op : Op}
    {fastMov : FastMov}
    {size : MemorySize}
    (h : storeParts op = some (fastMov, size))
    (b : Reg) :
    decode (fastMov (hostByte b) REG_R14 REG_RCX 0 0) =
      some (.store size.bytes ⟨14, some 1, 0, 0⟩ b, []) := by
  cases op <;> cases h
  case SB => exact (decode_fastMov b).1
  case SH => exact (decode_fastMov b).2.1
  case SW => exact (decode_fastMov b).2.2.1
  case SD => exact (decode_fastMov b).2.2.2

end RiscvEm

------------------------------------------------------------
-- The Offset
------------------------------------------------------------

namespace RiscvEm

open X86

variable {σ : Type}
variable {P : Platform σ}
variable {m : X86.Machine (State σ)}

theorem contextLoad_memsize
    (P : Platform σ)
    (s : State σ) :
    contextLoad P s (P.layout.ctx + 24#64) = some P.memsize ∧
      contextLoad P s (P.layout.ctx + 40#64) =
        some (P.layout.hctxHart s.self) := by
  have hSub : ∀ k, P.layout.ctx + k - P.layout.ctx = k := by
    intro k
    rw [BitVec.add_comm, BitVec.add_sub_cancel]
  constructor
  · simp [contextLoad, CTX_REGS, CTX_RAM, CTX_MEMSIZE, hSub]
  · simp [contextLoad, CTX_REGS, CTX_RAM, CTX_MEMSIZE,
      CTX_HART, hSub]

/- The code of the offset takes this register for the base. -/
def ReadsBase
    (rs1 : VReg)
    (a : Reg) : Prop :=
  mov REG_RCX rs1.hostReg = mov REG_RCX (hostByte a)

/- A guest register is read where it is held. -/
theorem Operand.readsBase
    {rs1 : VReg}
    {a : Reg}
    (h : Operand rs1 a) :
    ReadsBase rs1 a :=
  congrArg (mov REG_RCX) h.host

/- The offset is in `RCX` and was compared with `memsize`. -/
theorem runs_storeOffset
    {rs1 : VReg}
    {a : Reg}
    (hRs1 : ReadsBase rs1 a)
    (imm : BitVec 64)
    (hCtx : m.regs 12 = P.layout.ctx) :
    (jitEnv P).Runs (storeOffsetCode rs1 imm) m
      ((m.setReg 1 (storeOffset (m.regs a) imm)).setFlags
        (some (subFlags (storeOffset (m.regs a) imm)
          P.memsize))) := by
  have hAlu : ∀ (f : BitVec 3) (alu : Alu) (x : BitVec 32)
      (n : X86.Machine (State σ)),
      aluOfField f = some alu →
      (jitEnv P).Runs
        (rimm32Op true (f.setWidth 8) REG_RCX x) n
        ((n.setReg 1 (alu.apply true (n.regs 1)
          (x.signExtend 64)).1).setFlags
            (some (alu.apply true (n.regs 1)
              (x.signExtend 64)).2)) :=
    fun f alu x n hField =>
      .instr (decode_aluImm hField true 1 x) rfl
  have hCmp : ∀ n : X86.Machine (State σ),
      n.regs 12 = P.layout.ctx →
      (jitEnv P).Runs
        (cmpRm REG_RCX REG_R12 NO_INDEX 0 CTX_MEMSIZE) n
        (n.setFlags (some (subFlags (n.regs 1)
          P.memsize))) := by
    intro n hn
    have hDecode : decode
        (cmpRm REG_RCX REG_R12 NO_INDEX 0 CTX_MEMSIZE) =
          some (.cmpMem 1 ⟨12, none, 0, 24⟩, []) := rfl
    have hAddr : n.addr ⟨12, none, 0, 24⟩ =
        P.layout.ctx + 24#64 := by
      show n.regs 12 + 0#64 + 24#64 = _
      rw [hn, BitVec.add_zero]
    apply Env.Runs.instr hDecode
    show (contextLoad P n.mem (n.addr _)).bind _ = _
    rw [hAddr, (contextLoad_memsize P n.mem).1]
    rfl
  have hMov : (jitEnv P).Runs (mov REG_RCX rs1.hostReg) m
      (m.setReg 1 (m.regs a)) := by
    rw [hRs1]
    exact runs_mov m 1 a
  have hRuns := (((hMov.append
    (hAlu 0 .add (imm.setWidth 32) _ rfl)).append
      (hAlu 5 .sub 0x40000000 _ rfl)).append
        (hAlu 5 .sub 0x40000000 _ rfl)).append (hCmp _ ?_)
  · simp only [Machine.setReg, Machine.setFlags,
      Function.update_idem, Function.update_self] at hRuns
    exact hRuns
  · simpa [Machine.setReg, Machine.setFlags] using hCtx

end RiscvEm

------------------------------------------------------------
-- The Call Of The Slow Function
------------------------------------------------------------

namespace RiscvEm

open X86

variable {σ : Type}
variable {P : Platform σ}
variable {m m' : X86.Machine (State σ)}

/- The registers that the call may change for good. -/
def lostInCall
    (r : Reg) : Bool :=
  r ∈ [8, 9, 10, 11]

/- All registers but `RCX` and the lost ones are kept. -/
structure Called
    (P : Platform σ)
    (m m' : X86.Machine (State σ))
    (s : State σ) : Prop where
  regs : ∀ r, r ≠ 1 → m'.regs r =
    if lostInCall r then P.clobber r else m.regs r
  stack : m'.stack = m.stack
  mem : m'.mem = s

/- What the call leaves alone, and what the pops restore. -/
theorem callerSaved_eq_lost :
    ∀ r : Reg, r ≠ 0 → r ≠ 1 → r ≠ 2 → r ≠ 6 → r ≠ 7 →
      callerSaved r = lostInCall r := by
  decide

theorem slowSize_slow
    (host : HostCode)
    (size : MemorySize) :
    slowSize host.slow (host.slow size) = some size := by
  have hOther : ∀ a b, a ≠ b →
      (host.slow a == host.slow b) = false :=
    fun a b hNe =>
      beq_eq_false_iff_ne.mpr (host.slow_injective.ne hNe)
  unfold slowSize
  cases size <;> simp [List.find?, hOther]

theorem runs_push
    {M : Type}
    {E : Env M}
    (r : Reg)
    (n : X86.Machine M) :
    E.Runs (push (hostByte r)) n
      { n with stack := n.regs r :: n.stack } :=
  .instr (decode_push r) rfl

theorem runs_pop
    {M : Type}
    {E : Env M}
    (r : Reg)
    {n : X86.Machine M}
    {v : BitVec 64}
    {vs : List (BitVec 64)}
    (hStack : n.stack = v :: vs) :
    E.Runs (pop (hostByte r)) n
      { (n.setReg r v) with stack := vs } := by
  apply Env.Runs.instr (decode_pop r)
  simp [Env.exec, hStack]

/- The context points to the hart that runs. -/
def OwnContext
    (P : Platform σ)
    (s : State σ) : Prop :=
  P.layout.hctxHart s.self = P.layout.hart s.self

/- `hctx->hart` into `RDI`. -/
theorem runs_loadHart
    {n : X86.Machine (State σ)}
    (hCtx : n.regs 12 = P.layout.ctx) :
    (jitEnv P).Runs
      (movRm REG_RDI REG_R12 NO_INDEX 0 CTX_HART) n
      (n.setReg 7 (P.layout.hctxHart n.mem.self)) := by
  have hDecode : decode
      (movRm REG_RDI REG_R12 NO_INDEX 0 CTX_HART) =
        some (.load 7 ⟨12, none, 0, 40⟩, []) := rfl
  have hAddr : n.addr ⟨12, none, 0, 40⟩ =
      P.layout.ctx + 40#64 := by
    show n.regs 12 + 0#64 + 40#64 = _
    rw [hCtx, BitVec.add_zero]
  apply Env.Runs.instr hDecode
  show (contextLoad P n.mem (n.addr _)).bind _ = _
  rw [hAddr, (contextLoad_memsize P n.mem).2]
  rfl

/- The call itself, with its arguments in place. -/
theorem runs_callSlow
    {n : X86.Machine (State σ)}
    {size : MemorySize}
    {s : State σ}
    (hFunc : n.regs 0 = P.host.slow size)
    (hHart : n.regs 7 = P.layout.hart n.mem.self)
    (hStep : jitSlowStore P n.mem size (n.regs 6)
      (n.regs 2) = some s) :
    (jitEnv P).Runs (call REG_RAX) n
      { n with
        regs := fun r =>
          if callerSaved r then P.clobber r else n.regs r
        flags := none
        mem := s } := by
  have hDecode : decode (call REG_RAX) =
      some (.call 0, []) := rfl
  have hCall : slowCall P (n.regs 0) n.regs n.mem =
      some (fun r => if callerSaved r then P.clobber r
        else n.regs r, s) := by
    unfold slowCall
    rw [hFunc, slowSize_slow]
    simp only [Option.bind_eq_bind, Option.bind_some, hHart,
      if_true, hStep]
  apply Env.Runs.instr hDecode
  show (slowCall P (n.regs 0) n.regs n.mem).bind _ = _
  rw [hCall]
  rfl

/- The data of a store: a register's value, or that of `x0`. -/
inductive StoreData
    (m : X86.Machine (State σ))
    (rs2 : VReg) : BitVec 64 → Prop
  | reg {b : Reg} (operand : Operand rs2 b) :
      StoreData m rs2 (m.regs b)
  | zero (named : rs2.vreg = 0) : StoreData m rs2 0

theorem StoreData.of_regs
    {n : X86.Machine (State σ)}
    {rs2 : VReg}
    {v : BitVec 64}
    (h : StoreData m rs2 v)
    (hRegs : ∀ r, r ≠ 1 → n.regs r = m.regs r) :
    StoreData n rs2 v := by
  cases h with
  | @reg b hOperand =>
      rw [← hRegs b hOperand.scratch]
      exact .reg hOperand
  | zero hNamed => exact .zero hNamed

/- The argument of the call in `RDX`. -/
theorem StoreData.runs
    {rs2 : VReg}
    {v : BitVec 64}
    (h : StoreData m rs2 v) :
    ∃ m', (jitEnv P).Runs
        (if rs2.vreg = 0 then
          xorRr REG_RDX REG_RDX
        else
          mov REG_RDX rs2.hostReg) m m' ∧
      m'.regs = (m.setReg 2 v).regs ∧
      m'.stack = m.stack ∧ m'.mem = m.mem := by
  cases h with
  | @reg b hOperand =>
      rw [if_neg hOperand.named, hOperand.host]
      exact ⟨_, runs_mov m 2 b, rfl, rfl, rfl⟩
  | zero hNamed =>
      rw [if_pos hNamed]
      have hDecode : decode (xorRr REG_RDX REG_RDX) =
          some (.alu .xor true 2 2, []) := rfl
      refine ⟨_, .instr hDecode rfl, ?_, rfl, rfl⟩
      show (m.setReg 2 (m.regs 2 ^^^ m.regs 2)).regs = _
      rw [BitVec.xor_self]
      rfl

/- The part of the slow code before the call. -/
def storeArgsCode
    (slow : BitVec 64)
    (rs2 : VReg) : Code :=
  push REG_RDI ++ push REG_RSI ++ push REG_RAX ++
    push REG_RDX ++
    (if rs2.vreg = 0 then
      xorRr REG_RDX REG_RDX
    else
      mov REG_RDX rs2.hostReg) ++
    mov REG_RSI REG_RCX ++
    movRm REG_RDI REG_R12 NO_INDEX 0 CTX_HART ++
    movImm64 REG_RAX slow

/- The machine at the call, with its arguments. -/
structure AtCall
    (P : Platform σ)
    (m n : X86.Machine (State σ))
    (slow v : BitVec 64) : Prop where
  func : n.regs 0 = slow
  hart : n.regs 7 = P.layout.hctxHart m.mem.self
  offset : n.regs 6 = m.regs 1
  data : n.regs 2 = v
  stack : n.stack = m.regs 2 :: m.regs 0 :: m.regs 6 ::
    m.regs 7 :: m.stack
  mem : n.mem = m.mem
  others : ∀ r, r ≠ 0 → r ≠ 2 → r ≠ 6 → r ≠ 7 →
    n.regs r = m.regs r

/- Four registers are saved, and the arguments are loaded. -/
theorem runs_storeArgs
    {rs2 : VReg}
    {v : BitVec 64}
    (hData : StoreData m rs2 v)
    (slow : BitVec 64)
    (hCtx : m.regs 12 = P.layout.ctx) :
    ∃ n, (jitEnv P).Runs (storeArgsCode slow rs2) m n ∧
      AtCall P m n slow v := by
  let n : X86.Machine (State σ) := { m with
    stack := m.regs 2 :: m.regs 0 :: m.regs 6 :: m.regs 7 ::
      m.stack }
  have hPushes := ((runs_push (E := jitEnv P) 7 m).append
    (runs_push 6 _)).append (runs_push 0 _) |>.append
      (runs_push 2 _)
  rcases StoreData.runs (P := P)
    (hData.of_regs (n := n) fun _ _ => rfl) with
    ⟨n₂, hValue, hRegs, hStack, hMem⟩
  have hSame : ∀ r, r ≠ 2 → n₂.regs r = m.regs r := by
    intro r hr
    rw [hRegs]
    exact Machine.setReg_of_ne hr n v
  have hOffset := runs_mov (E := jitEnv P) n₂ 6 1
  have hHart := runs_loadHart (P := P)
    (n := n₂.setReg 6 (n₂.regs 1))
    ((hSame 12 (by decide)).trans hCtx)
  have hFunc : (jitEnv P).Runs (movImm64 REG_RAX slow) _
      (((n₂.setReg 6 (n₂.regs 1)).setReg 7
        (P.layout.hctxHart n₂.mem.self)).setReg 0 slow) :=
    .instr (decode_movImm64_rax _) rfl
  unfold storeArgsCode
  refine ⟨_, (((hPushes.append hValue).append
    hOffset).append hHart).append hFunc, ?_⟩
  constructor
  · rfl
  · show P.layout.hctxHart n₂.mem.self = _
    rw [hMem]
  · exact hSame 1 (by decide)
  · show n₂.regs 2 = v
    rw [hRegs]
    exact n.setReg_self 2 v
  · exact hStack
  · exact hMem
  · intro r h0 h2 h6 h7
    rw [Machine.setReg_of_ne h0, Machine.setReg_of_ne h7,
      Machine.setReg_of_ne h6]
    exact hSame r h2

/- The slow code, when the call is done. -/
theorem runs_storeSlowCode
    {rs2 : VReg}
    {v : BitVec 64}
    (hData : StoreData m rs2 v)
    {size : MemorySize}
    {s : State σ}
    (hCtx : m.regs 12 = P.layout.ctx)
    (hOwn : OwnContext P m.mem)
    (hStep : jitSlowStore P m.mem size (m.regs 1) v =
      some s) :
    ∃ m', (jitEnv P).Runs
        (storeSlowCode (P.host.slow size) rs2) m m' ∧
      Called P m m' s := by
  rcases runs_storeArgs hData (P.host.slow size) hCtx with
    ⟨n, hArgs, hAt⟩
  have hHere : jitSlowStore P n.mem size (n.regs 6)
      (n.regs 2) = some s := by
    rw [hAt.mem, hAt.offset, hAt.data]
    exact hStep
  have hHart : n.regs 7 = P.layout.hart n.mem.self := by
    rw [hAt.hart, hAt.mem]
    exact hOwn
  have hCall := runs_callSlow hAt.func hHart hHere
  unfold storeSlowCode
  refine ⟨_, ((((hArgs.append hCall).append
    (runs_pop 2 hAt.stack)).append (runs_pop 0 rfl)).append
      (runs_pop 6 rfl)).append (runs_pop 7 rfl), ?_⟩
  constructor
  · intro r hRcx
    simp only [Machine.setReg, Function.update_apply]
    by_cases h7 : r = 7
    · rw [if_pos h7, h7]
      rfl
    · by_cases h6 : r = 6
      · rw [if_neg h7, if_pos h6, h6]
        rfl
      · by_cases h0 : r = 0
        · rw [if_neg h7, if_neg h6, if_pos h0, h0]
          rfl
        · by_cases h2 : r = 2
          · rw [if_neg h7, if_neg h6, if_neg h0, if_pos h2, h2]
            rfl
          · rw [if_neg h7, if_neg h6, if_neg h0, if_neg h2,
              callerSaved_eq_lost r h0 hRcx h2 h6 h7,
              hAt.others r h0 h2 h6 h7]
  · rfl
  · rfl

/- Without the own hart, or with a device that fails, the
call faults. -/
theorem fails_storeSlowCode
    {rs2 : VReg}
    {v : BitVec 64}
    (hData : StoreData m rs2 v)
    {size : MemorySize}
    (hCtx : m.regs 12 = P.layout.ctx)
    (hNot : OwnContext P m.mem →
      jitSlowStore P m.mem size (m.regs 1) v = none) :
    (jitEnv P).Fails
      (storeSlowCode (P.host.slow size) rs2) m := by
  rcases runs_storeArgs hData (P.host.slow size) hCtx with
    ⟨n, hArgs, hAt⟩
  have hDecode : decode (call REG_RAX) =
      some (.call 0, []) := rfl
  have hNone : slowCall P (n.regs 0) n.regs n.mem = none := by
    unfold slowCall
    rw [hAt.func, slowSize_slow, hAt.hart, hAt.mem,
      hAt.offset, hAt.data]
    simp only [Option.bind_eq_bind, Option.bind_some]
    by_cases hOwn : OwnContext P m.mem
    · rw [if_pos (show _ = _ from hOwn), hNot hOwn,
        Option.bind_none]
    · exact if_neg hOwn
  have hCall : (jitEnv P).Fails (call REG_RAX) n := by
    apply Env.Fails.instr hDecode
    show (slowCall P (n.regs 0) n.regs n.mem).bind _ = _
    rw [hNone]
    rfl
  unfold storeSlowCode
  exact ((((hArgs.append_fails hCall).append _).append
    _).append _).append _

end RiscvEm

------------------------------------------------------------
-- Both Ways
------------------------------------------------------------

namespace RiscvEm

open X86

variable {σ : Type}
variable {P : Platform σ}
variable {m m' : X86.Machine (State σ)}

theorem decode_jbe8
    (rel : BitVec 8) :
    decode (jbe8 rel) = some (.jcc .be rel, []) :=
  rfl

theorem decode_jmp8
    (rel : BitVec 8) :
    decode (jmp8 rel) = some (.jmp rel, []) :=
  rfl

theorem ramAddr_sub
    (P : Platform σ)
    (off : BitVec 64) :
    P.layout.ram + off - P.layout.ram = off := by
  rw [BitVec.add_comm, BitVec.add_sub_cancel]

/- The registers are not where a store up to `memsize` is. -/
theorem far_from_regs
    (P : Platform σ)
    {off : BitVec 64}
    (hOff : off.toNat ≤ P.memsize.toNat) :
    256 ≤ (P.layout.ram + off - P.layout.regs).toNat := by
  have hRam := P.disjoint.ram_le
  have hRegs := P.disjoint.regs_le
  have hApart := P.disjoint.regs_ram
  have hAddr : (P.layout.ram + off).toNat =
      P.layout.ram.toNat + off.toNat := by
    rw [BitVec.toNat_add]
    omega
  rw [BitVec.toNat_sub, hAddr]
  unfold Apart at hApart
  omega

/- A store into RAM does not reach the register array. -/
theorem contextStore_ram
    (s : State σ)
    {off : BitVec 64}
    {n : Nat}
    (hIn : off.toNat + n ≤ P.memsize.toNat)
    (v : BitVec 64) :
    contextStore P s (P.layout.ram + off) n v =
      s.storeRam off.toNat n v := by
  have hFar := far_from_regs P
    (Nat.le_of_add_right_le hIn)
  unfold contextStore
  dsimp only
  rw [if_neg (fun h => Nat.not_le_of_lt h.2.1 hFar),
    ramAddr_sub, if_pos hIn]

/- A store that leaves RAM reaches nothing. -/
theorem contextStore_outside
    (s : State σ)
    {off : BitVec 64}
    {n : Nat}
    (hOff : off.toNat ≤ P.memsize.toNat)
    (hOut : ¬ off.toNat + n ≤ P.memsize.toNat)
    (v : BitVec 64) :
    contextStore P s (P.layout.ram + off) n v = none := by
  have hFar := far_from_regs P hOff
  unfold contextStore
  dsimp only
  rw [if_neg (fun h => Nat.not_le_of_lt h.2.1 hFar),
    ramAddr_sub, if_neg hOut]

/- The store itself, from any register but `RCX`. -/
theorem runs_fastMov
    {op : Op}
    {fastMov : FastMov}
    {size : MemorySize}
    (hParts : storeParts op = some (fastMov, size))
    (b : Reg)
    {s : State σ}
    (hRam : m.regs 14 = P.layout.ram)
    (hIn : (m.regs 1).toNat + size.bytes ≤ P.memsize.toNat)
    (hStep : m.mem.storeRam (m.regs 1).toNat size.bytes
      (m.regs b) = some s) :
    (jitEnv P).Runs
      (fastMov (hostByte b) REG_R14 REG_RCX 0 0) m
      { m with mem := s } := by
  have hAddr : m.addr ⟨14, some 1, 0, 0⟩ =
      P.layout.ram + m.regs 1 := by
    show m.regs 14 + (m.regs 1 <<< 0) + 0#64 = _
    rw [hRam, BitVec.shiftLeft_zero, BitVec.add_zero]
  apply Env.Runs.instr (storeParts_decode hParts b)
  show (contextStore P m.mem (m.addr _) size.bytes _).bind _ =
    _
  rw [hAddr, contextStore_ram m.mem hIn, hStep]
  rfl

/- At the end of RAM it may run over it. -/
theorem fails_fastMov
    {op : Op}
    {fastMov : FastMov}
    {size : MemorySize}
    (hParts : storeParts op = some (fastMov, size))
    (b : Reg)
    (hRam : m.regs 14 = P.layout.ram)
    (hOff : (m.regs 1).toNat ≤ P.memsize.toNat)
    (hOut : ¬ (m.regs 1).toNat + size.bytes ≤
      P.memsize.toNat) :
    (jitEnv P).Fails
      (fastMov (hostByte b) REG_R14 REG_RCX 0 0) m := by
  have hAddr : m.addr ⟨14, some 1, 0, 0⟩ =
      P.layout.ram + m.regs 1 := by
    show m.regs 14 + (m.regs 1 <<< 0) + 0#64 = _
    rw [hRam, BitVec.shiftLeft_zero, BitVec.add_zero]
  apply Env.Fails.instr (storeParts_decode hParts b)
  show (contextStore P m.mem (m.addr _) size.bytes _).bind _ =
    _
  rw [hAddr, contextStore_outside m.mem hOff hOut]
  rfl

/- The code of the direct store. -/
theorem runs_storeFastCode
    {op : Op}
    {fastMov : FastMov}
    {size : MemorySize}
    (hParts : storeParts op = some (fastMov, size))
    {rs2 : VReg}
    {v : BitVec 64}
    (hData : StoreData m rs2 v)
    {s : State σ}
    (hRam : m.regs 14 = P.layout.ram)
    (hIn : (m.regs 1).toNat + size.bytes ≤ P.memsize.toNat)
    (hStep : m.mem.storeRam (m.regs 1).toNat size.bytes v =
      some s) :
    ∃ m', (jitEnv P).Runs (storeFastCode fastMov rs2) m m' ∧
      (∀ r, r ≠ 1 → m'.regs r = m.regs r) ∧
      m'.stack = m.stack ∧ m'.mem = s := by
  unfold storeFastCode
  cases hData with
  | @reg b hOperand =>
      rw [if_neg hOperand.named, hOperand.host]
      exact ⟨_, runs_fastMov hParts b hRam hIn hStep,
        fun _ _ => rfl, rfl, rfl⟩
  | zero hNamed =>
      rw [if_pos hNamed]
      -- `RAX` is kept on the stack while it is zero
      have hDecode : decode (xorRr REG_RAX REG_RAX) =
          some (.alu .xor true 0 0, []) := rfl
      let n : X86.Machine (State σ) :=
        { m with stack := m.regs 0 :: m.stack }
      let n₁ := (n.setReg 0 (n.regs 0 ^^^ n.regs 0)).setFlags
        (some (Alu.xor.apply true (n.regs 0) (n.regs 0)).2)
      have hPush := runs_push (E := jitEnv P) 0 m
      have hClear : (jitEnv P).Runs (xorRr REG_RAX REG_RAX) n
          n₁ := .instr hDecode rfl
      have hZero : n₁.regs 0 = 0 := BitVec.xor_self
      have hStore := runs_fastMov (P := P) (m := n₁) (s := s)
        hParts 0 hRam hIn (by
          rw [hZero]
          exact hStep)
      refine ⟨_, ((hPush.append hClear).append hStore).append
        (runs_pop 0 rfl), ?_, rfl, rfl⟩
      intro r _
      by_cases h0 : r = 0
      · subst h0
        rfl
      · simp [n₁, n, Machine.setReg, Machine.setFlags]

/- Or the code of the direct store, for `x0` as well. -/
theorem fails_storeFastCode
    {op : Op}
    {fastMov : FastMov}
    {size : MemorySize}
    (hParts : storeParts op = some (fastMov, size))
    {rs2 : VReg}
    {v : BitVec 64}
    (hData : StoreData m rs2 v)
    (hRam : m.regs 14 = P.layout.ram)
    (hOff : (m.regs 1).toNat ≤ P.memsize.toNat)
    (hOut : ¬ (m.regs 1).toNat + size.bytes ≤
      P.memsize.toNat) :
    (jitEnv P).Fails (storeFastCode fastMov rs2) m := by
  unfold storeFastCode
  cases hData with
  | @reg b hOperand =>
      rw [if_neg hOperand.named, hOperand.host]
      exact fails_fastMov hParts b hRam hOff hOut
  | zero hNamed =>
      rw [if_pos hNamed]
      have hDecode : decode (xorRr REG_RAX REG_RAX) =
          some (.alu .xor true 0 0, []) := rfl
      let n : X86.Machine (State σ) :=
        { m with stack := m.regs 0 :: m.stack }
      have hPush := runs_push (E := jitEnv P) 0 m
      have hClear : (jitEnv P).Runs (xorRr REG_RAX REG_RAX) n
          _ := .instr hDecode rfl
      exact ((hPush.append hClear).append_fails
        (fails_fastMov hParts 0 hRam hOff hOut)).append _

/- The jump leads over the slow part. -/
theorem runs_jumpFast
    (slow : BitVec 64)
    (rs2 : VReg)
    {off : BitVec 64}
    (hFlags : m.flags = some (subFlags off P.memsize))
    (hFast : off ≤ P.memsize)
    (fast : Code) :
    (jitEnv P).Runs
      (jbe8 (BitVec.ofNat 8
          ((storeSlowCode slow rs2).length + 2)) ++
        (storeSlowCode slow rs2 ++
          jmp8 (BitVec.ofNat 8 fast.length))) m m := by
  have hTaken : ∀ rel, (jitEnv P).exec (.jcc .be rel) m =
      some (.jump rel m) := by
    intro rel
    show m.flags.bind _ = _
    rw [hFlags]
    show some (if Cond.be.holds (subFlags off P.memsize) then
      Outcome.jump _ m else Outcome.next m) = _
    rw [Cond.holds_be, if_pos (decide_eq_true hFast)]
  apply Env.Runs.skip (decode_jbe8 _) (hTaken _)
  rw [List.length_append, storeSlowCode_length]
  rfl

/- It is not taken past `memsize`. -/
theorem runs_jumpNot
    {off : BitVec 64}
    (hFlags : m.flags = some (subFlags off P.memsize))
    (hSlow : ¬ off ≤ P.memsize)
    (rel : BitVec 8) :
    (jitEnv P).Runs (jbe8 rel) m m := by
  apply Env.Runs.instr (decode_jbe8 rel)
  show m.flags.bind _ = _
  rw [hFlags]
  show some (if Cond.be.holds (subFlags off P.memsize) then
    Outcome.jump _ m else Outcome.next m) = _
  rw [Cond.holds_be, if_neg (by simpa using hSlow)]

/- The store of a whole instruction, directly into RAM. -/
theorem runs_storeFast
    {op : Op}
    {fastMov : FastMov}
    {size : MemorySize}
    (hParts : storeParts op = some (fastMov, size))
    (slow : BitVec 64)
    {rs1 rs2 : VReg}
    {a : Reg}
    {v : BitVec 64}
    (hRs1 : ReadsBase rs1 a)
    (hData : StoreData m rs2 v)
    (imm : BitVec 64)
    (hCtx : m.regs 12 = P.layout.ctx)
    (hRam : m.regs 14 = P.layout.ram)
    (hFast : storeOffset (m.regs a) imm ≤ P.memsize)
    (hIn : (storeOffset (m.regs a) imm).toNat + size.bytes ≤
      P.memsize.toNat)
    {s : State σ}
    (hStep : m.mem.storeRam
      (storeOffset (m.regs a) imm).toNat size.bytes v =
        some s) :
    ∃ m', (jitEnv P).Runs
        (jitStoreCode fastMov slow rs1 rs2 imm) m m' ∧
      (∀ r, r ≠ 1 → m'.regs r = m.regs r) ∧
      m'.stack = m.stack ∧ m'.mem = s := by
  generalize hOff : storeOffset (m.regs a) imm = off at *
  let n := (m.setReg 1 off).setFlags
    (some (subFlags off P.memsize))
  have hOffset := runs_storeOffset hRs1 imm hCtx
  rw [hOff] at hOffset
  have hOther : ∀ r, r ≠ 1 → n.regs r = m.regs r :=
    fun r hr => Machine.setReg_of_ne hr m off
  have hRcx : n.regs 1 = off := m.setReg_self 1 off
  have hJump := runs_jumpFast (m := n) slow rs2 rfl hFast
    (storeFastCode fastMov rs2)
  rcases runs_storeFastCode (m := n) hParts
    (hData.of_regs hOther) ((hOther 14 (by decide)).trans hRam)
    (hRcx.symm ▸ hIn) (hRcx.symm ▸ hStep) with
    ⟨m', hStore, hRegs, hStack, hMem⟩
  have hRuns := hOffset.append (hJump.append hStore)
  simp only [List.append_assoc] at hRuns
  unfold jitStoreCode
  refine ⟨m', hRuns, ?_, hStack, hMem⟩
  intro r hr
  rw [hRegs r hr, hOther r hr]

/- A store that begins in RAM and ends behind it faults. -/
theorem fails_storeFast
    {op : Op}
    {fastMov : FastMov}
    {size : MemorySize}
    (hParts : storeParts op = some (fastMov, size))
    (slow : BitVec 64)
    {rs1 rs2 : VReg}
    {a : Reg}
    {v : BitVec 64}
    (hRs1 : ReadsBase rs1 a)
    (hData : StoreData m rs2 v)
    (imm : BitVec 64)
    (hCtx : m.regs 12 = P.layout.ctx)
    (hRam : m.regs 14 = P.layout.ram)
    (hFast : storeOffset (m.regs a) imm ≤ P.memsize)
    (hOut : ¬ (storeOffset (m.regs a) imm).toNat +
      size.bytes ≤ P.memsize.toNat) :
    (jitEnv P).Fails
      (jitStoreCode fastMov slow rs1 rs2 imm) m := by
  generalize hOff : storeOffset (m.regs a) imm = off at *
  let n := (m.setReg 1 off).setFlags
    (some (subFlags off P.memsize))
  have hOffset := runs_storeOffset hRs1 imm hCtx
  rw [hOff] at hOffset
  have hOther : ∀ r, r ≠ 1 → n.regs r = m.regs r :=
    fun r hr => Machine.setReg_of_ne hr m off
  have hRcx : n.regs 1 = off := m.setReg_self 1 off
  have hJump := runs_jumpFast (m := n) slow rs2 rfl hFast
    (storeFastCode fastMov rs2)
  have hFails := hOffset.append_fails (hJump.append_fails
    (fails_storeFastCode hParts (hData.of_regs hOther)
      ((hOther 14 (by decide)).trans hRam)
      (by
        rw [hRcx]
        exact hFast)
      (by
        rw [hRcx]
        exact hOut)))
  simp only [List.append_assoc] at hFails
  unfold jitStoreCode
  exact hFails

/- The store of a whole instruction, by the slow function. -/
theorem runs_storeSlow
    {op : Op}
    {fastMov : FastMov}
    {size : MemorySize}
    (hParts : storeParts op = some (fastMov, size))
    {rs1 rs2 : VReg}
    {a : Reg}
    {v : BitVec 64}
    (hRs1 : ReadsBase rs1 a)
    (hData : StoreData m rs2 v)
    (imm : BitVec 64)
    (hCtx : m.regs 12 = P.layout.ctx)
    (hOwn : OwnContext P m.mem)
    (hSlow : ¬ storeOffset (m.regs a) imm ≤ P.memsize)
    {s : State σ}
    (hStep : jitSlowStore P m.mem size
      (storeOffset (m.regs a) imm) v = some s) :
    ∃ m', (jitEnv P).Runs
        (jitStoreCode fastMov (P.host.slow size) rs1 rs2 imm)
        m m' ∧
      Called P m m' s := by
  generalize hOff : storeOffset (m.regs a) imm = off at *
  let n := (m.setReg 1 off).setFlags
    (some (subFlags off P.memsize))
  have hOffset := runs_storeOffset hRs1 imm hCtx
  rw [hOff] at hOffset
  have hOther : ∀ r, r ≠ 1 → n.regs r = m.regs r :=
    fun r hr => Machine.setReg_of_ne hr m off
  have hRcx : n.regs 1 = off := m.setReg_self 1 off
  have hFalls := runs_jumpNot (m := n) rfl hSlow
  have hSame : jitSlowStore P n.mem size (n.regs 1) v =
      some s := by
    rw [hRcx]
    exact hStep
  rcases runs_storeSlowCode (hData.of_regs hOther)
    ((hOther 12 (by decide)).trans hCtx) hOwn hSame with
    ⟨m', hCall, hCalled⟩
  -- the jump leads over the fast part
  have hShort := (jitStoreCode_length
    (conversionTbl_store hParts (fun _ => 0)).2 0 rs1 rs2
      imm).1
  have hSkip : (jitEnv P).Runs
      (jmp8 (BitVec.ofNat 8
          (storeFastCode fastMov rs2).length) ++
        storeFastCode fastMov rs2) m' m' := by
    refine Env.Runs.skip (decode_jmp8 _) rfl
      (JitBlock.toInt_short ?_)
    split at hShort <;> omega
  unfold jitStoreCode
  refine ⟨m', hOffset.append ((hFalls _).append
    (hCall.append hSkip)), ?_, hCalled.stack, hCalled.mem⟩
  intro r hr
  rw [hCalled.regs r hr, hOther r hr]

/- So does one whose call cannot be done. -/
theorem fails_storeSlow
    {fastMov : FastMov}
    {size : MemorySize}
    {rs1 rs2 : VReg}
    {a : Reg}
    {v : BitVec 64}
    (hRs1 : ReadsBase rs1 a)
    (hData : StoreData m rs2 v)
    (imm : BitVec 64)
    (hCtx : m.regs 12 = P.layout.ctx)
    (hSlow : ¬ storeOffset (m.regs a) imm ≤ P.memsize)
    (hNot : OwnContext P m.mem →
      jitSlowStore P m.mem size
        (storeOffset (m.regs a) imm) v = none) :
    (jitEnv P).Fails
      (jitStoreCode fastMov (P.host.slow size) rs1 rs2 imm)
      m := by
  generalize hOff : storeOffset (m.regs a) imm = off at *
  let n := (m.setReg 1 off).setFlags
    (some (subFlags off P.memsize))
  have hOffset := runs_storeOffset hRs1 imm hCtx
  rw [hOff] at hOffset
  have hOther : ∀ r, r ≠ 1 → n.regs r = m.regs r :=
    fun r hr => Machine.setReg_of_ne hr m off
  have hRcx : n.regs 1 = off := m.setReg_self 1 off
  have hFalls := runs_jumpNot (m := n) rfl hSlow
  have hCall : (jitEnv P).Fails
      (storeSlowCode (P.host.slow size) rs2) n := by
    apply fails_storeSlowCode (hData.of_regs hOther)
      ((hOther 12 (by decide)).trans hCtx)
    rw [hRcx]
    exact hNot
  unfold jitStoreCode
  exact hOffset.append_fails
    ((hFalls _).append_fails (hCall.append _))

end RiscvEm
