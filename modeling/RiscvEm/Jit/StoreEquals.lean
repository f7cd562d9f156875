import RiscvEm.Jit.RegisterPrograms
import RiscvEm.Sets.Atomics

/-
  A compiled store against `exec_SB` .. `exec_SD`, at any
  place of a block.

  Its code runs over the end of RAM, does not see an address
  that nothing is mapped at, and reads `RDI` for the base
  `x0`. What is left is an access in RAM, or one that finds a
  device for the same write while no guest register is lost
  in the call.

  Key definitions include:
    * `SameStore`
    * `StoreEquals`
    * `StoreOk`

  Key theorems include `compiled_store_iff`.
-/

------------------------------------------------------------
-- The Effect And The Condition
------------------------------------------------------------

namespace RiscvEm

open JitEmitter

variable {σ : Type}

/-
  What the code and the function did to the state `t`: one
  store at the address, after which memory and devices are
  the same, or a fault that both report.
-/
inductive SameStore
    (size : MemorySize)
    (addr : BitVec 64)
    (t t' u : State σ)
    (out : ExecReturn) : Prop
  | done
      (success : out.isSuccess = true)
      (stored : t'.trace =
        .store t.self .compiled addr size.bytes :: t.trace)
      (mem : t'.mem = u.mem)
      (world : t'.world = u.world)
  | fault
      (failed : out.isSuccess = false)
      (reported : t'.trace =
        .trap t.self out.cause out.tval false :: t.trace)
      (mem : t'.mem = u.mem)
      (world : t'.world = u.world)

/-
  The code of a store has the effect of its function: it runs
  to the machine of a state `t'` with the same registers.
-/
def StoreEquals
    (P : Platform σ)
    (op : Op)
    (size : MemorySize)
    (d : InstructionData)
    (t : State σ)
    (blk : JitBlock)
    (m : X86.Machine (State σ))
    (em' : JitEmitter)
    (blk' : JitBlock) : Prop :=
  ∃ code m' t' out u,
    blk' = blk.emit code ∧ (jitEnv P).Runs code m m' ∧
    Holds P (savedRegs P) t' em' m' ∧ t'.hart = t.hart ∧
    op.exec P d t = .ok (out, u) ∧
    SameStore size (t.gpr d.rs1 + d.imm) t t' u out

/- What is in `RDI` when the operands are there. -/
def rdiValue
    (em' : JitEmitter)
    (t : State σ)
    (m : X86.Machine (State σ)) : BitVec 64 :=
  match em'.inRdi with
  | some q => t.gpr q
  | none => m.regs 7

/-
  The access is past `memsize`, `MMIO::write` and the slow
  function find devices that do the same write, and the call
  loses no guest register.
-/
structure DeviceStore
    (P : Platform σ)
    (size : MemorySize)
    (addr v : BitVec 64)
    (t : State σ)
    (em' : JitEmitter) : Prop where
  outside : ¬ takesDram P addr size
  behind : ¬ addr - 0x80000000 ≤ P.memsize
  devices : ∃ dev dev' after,
    P.devs.find? (·.inWriteWindow addr size) = some dev ∧
    P.devs.find? (·.inReadWindow addr size) = some dev' ∧
    dev.write addr size v t.world t.mem = .ok after ∧
    dev'.write addr size v t.world t.mem = .ok after
  own : OwnContext P t
  kept : ∀ i r, em'.slot i = some r →
    lostInCall (hostOf i) = true →
      P.clobber (hostOf i) = t.gpr r

/-
  The base is no `x0`, or `RDI` is zero as well; the access
  is in RAM, in a page that is counted, or at a device.
-/
structure StoreOk
    (P : Platform σ)
    (size : MemorySize)
    (d : InstructionData)
    (t : State σ)
    (m : X86.Machine (State σ))
    (em' : JitEmitter) : Prop where
  base : d.rs1 = 0 → rdiValue em' t m = 0
  place :
    (takesDram P (t.gpr d.rs1 + d.imm) size ∧
      DramFits t (t.gpr d.rs1 + d.imm) size) ∨
    DeviceStore P size (t.gpr d.rs1 + d.imm) (t.gpr d.rs2) t
      em'

end RiscvEm

------------------------------------------------------------
-- The Base
------------------------------------------------------------

namespace RiscvEm

open X86 JitEmitter

variable {σ : Type}
variable {P : Platform σ}
variable {s t : State σ}
variable {em em₁ : JitEmitter}
variable {blk blk₁ : JitBlock}
variable {m : X86.Machine (State σ)}
variable {d : InstructionData}

/- The value that the code takes for the base. -/
def storeBase
    (d : InstructionData)
    (em₁ : JitEmitter)
    (t : State σ)
    (m : X86.Machine (State σ)) : BitVec 64 :=
  if d.rs1 = 0 then rdiValue em₁ t m else t.gpr d.rs1

/- The marker of `x0` is read as `RDI`. -/
theorem JitEmitter.SourceOf.readsBase
    (hWf : em.Wf)
    {r : BitVec 5}
    {a : Reg}
    (h : em.SourceOf r a) :
    ReadsBase (em.vregs r) a := by
  cases h with
  | zero =>
      unfold ReadsBase
      rw [hWf.zeroHost]
      rfl
  | held hSlot => exact (hWf.operand hSlot).readsBase

/- `RDI` holds a guest register, or what was in it before. -/
theorem Holds.rdi
    {stack : List (BitVec 64)}
    {m₁ : X86.Machine (State σ)}
    (h : Holds P stack t em₁ m₁)
    (hIdle : IdleKept em₁ m m₁) :
    m₁.regs 7 = rdiValue em₁ t m := by
  unfold rdiValue
  rw [inRdi_eq]
  cases hSlot : em₁.slot ⟨3, by decide⟩ with
  | none => exact hIdle _ hSlot
  | some q => exact h.held _ q hSlot

/-
  Behind its operands a store finds the base in one host
  register, and its data in another.
-/
theorem Arrived.operands_run
    (h : Arrived P s t em blk m)
    (hZero : t.gpr 0 = 0)
    (hGrants : em.Grants blk [d.rs1, d.rs2] em₁ blk₁) :
    ∃ code m₁ a, blk₁ = blk.emit code ∧
      (jitEnv P).Runs code m m₁ ∧
      Holds P (savedRegs P) t em₁ m₁ ∧
      ReadsBase (em₁.vregs d.rs1) a ∧
      m₁.regs a = storeBase d em₁ t m ∧
      StoreData m₁ (em₁.vregs d.rs2) (t.gpr d.rs2) := by
  have hFew : [d.rs1, d.rs2].length ≤ 3 := by simp
  rcases hGrants.run h.holds hFew with
    ⟨code, m₁, hCode, hRuns, hHolds, hIdle⟩
  have hHeld := hGrants.held h.holds.wf hFew
  have hData := hHolds.storeData hZero
    (hHeld d.rs2 (by simp))
  unfold storeBase
  by_cases hRs1 : d.rs1 = 0
  · rw [if_pos hRs1]
    refine ⟨code, m₁, 7, hCode, hRuns, hHolds, ?_,
      hHolds.rdi hIdle, hData⟩
    rw [hRs1]
    exact SourceOf.zero.readsBase hHolds.wf
  · rw [if_neg hRs1]
    rcases hHeld d.rs1 (by simp) hRs1 with ⟨i, hSlot⟩
    exact ⟨code, m₁, hostOf i, hCode, hRuns, hHolds,
      (SourceOf.held hSlot).readsBase hHolds.wf,
      hHolds.held i _ hSlot, hData⟩

end RiscvEm

------------------------------------------------------------
-- What The Code Did
------------------------------------------------------------

namespace RiscvEm

open X86 JitEmitter

variable {σ : Type}
variable {P : Platform σ}
variable {stack : List (BitVec 64)}
variable {t t' t₁ u : State σ}
variable {em₁ : JitEmitter}
variable {m m₁ m' : X86.Machine (State σ)}
variable {op : Op}
variable {d : InstructionData}
variable {fastMov : FastMov}
variable {size : MemorySize}
variable {addr off v : BitVec 64}

/- A store is logged, unless the call finds no device. -/
theorem storeStep_cases
    (h : storeStep P size off v t = some t') :
    (off ≤ P.memsize ∧
      off.toNat + size.bytes ≤ P.memsize.toNat ∧
      t'.trace = .store t.self .compiled (off + 0x80000000)
        size.bytes :: t.trace) ∨
    (¬ off ≤ P.memsize ∧ t' = t) ∨
    (¬ off ≤ P.memsize ∧ ∃ dev world mem,
      P.devs.find? (·.inReadWindow (off + 0x80000000) size) =
        some dev ∧
      dev.write (off + 0x80000000) size v t.world t.mem =
        .ok (world, mem) ∧
      t' = { t with world := world, mem := mem }.log
        (.store t.self .compiled (off + 0x80000000)
          size.bytes)) := by
  unfold storeStep at h
  split at h
  case isTrue hFast =>
    split at h
    case isTrue hIn =>
      refine Or.inl ⟨hFast, hIn, ?_⟩
      unfold State.storeRam at h
      split at h
      · cases h
        have hAddr : (0x80000000 : BitVec 64) +
            BitVec.ofNat 64 off.toNat = off + 0x80000000 := by
          rw [BitVec.ofNat_toNat, BitVec.setWidth_eq,
            BitVec.add_comm]
        show Event.store _ _ _ _ :: _ = _
        rw [hAddr]
      · cases h
    case isFalse => cases h
  case isFalse hSlow =>
    refine Or.inr ?_
    unfold jitSlowStore at h
    dsimp only at h
    split at h
    · cases h
      exact Or.inl ⟨hSlow, rfl⟩
    case h_2 dev hFind =>
      split at h
      case h_1 world mem hWrite =>
        cases h
        exact Or.inr
          ⟨hSlow, dev, world, mem, hFind, hWrite, rfl⟩
      case h_2 => cases h

/- Other registers do not help the slow function. -/
theorem jitSlowStore_none
    (h : jitSlowStore P t size off v = none)
    (g : BitVec 5 → BitVec 64) :
    jitSlowStore P (t.withGprs g) size off v = none := by
  cases hStep : jitSlowStore P (t.withGprs g) size off v with
  | none => rfl
  | some t₁ =>
      have hBack :=
        (jitSlowStore_withGprs hStep t.hart.GPR).1
      exact absurd (h.symm.trans hBack) nofun

/-
  A run of the code of a store, and of what is before it, did
  what the store does; past `memsize` the call was made.
-/
theorem Holds.store_ran
    (h : Holds P stack t em₁ m₁)
    (hRam : t.mem.HasRam P.memsize)
    {a : Reg}
    (hBase : ReadsBase (em₁.vregs d.rs1) a)
    (hData : StoreData m₁ (em₁.vregs d.rs2) v)
    (hParts : storeParts op = some (fastMov, size))
    (hOff : storeOffset (m₁.regs a) d.imm = off)
    {code : Code}
    (hFirst : (jitEnv P).Runs code m m₁)
    (hRuns : (jitEnv P).Runs (code ++
      jitStoreCode fastMov (P.host.slow size)
        (em₁.vregs d.rs1) (em₁.vregs d.rs2) d.imm) m m')
    (hStack : m'.stack = stack) :
    ∃ t₁, storeStep P size off v t = some t₁ ∧
      m'.mem = t₁.withGprs m₁.mem.hart.GPR ∧
      (¬ off ≤ P.memsize → OwnContext P t ∧
        ∀ i, lostInCall (hostOf i) = true →
          m'.regs (hostOf i) = P.clobber (hostOf i)) := by
  subst hOff
  generalize hOff : storeOffset (m₁.regs a) d.imm = off at *
  unfold storeStep
  by_cases hFast : off ≤ P.memsize
  · by_cases hIn : off.toNat + size.bytes ≤ P.memsize.toNat
    · rw [if_pos hFast, if_pos hIn]
      rcases hRam.ramIs with ⟨r, hIs, -⟩
      have hStep : ∃ t₁,
          t.storeRam off.toNat size.bytes v = some t₁ := by
        unfold State.storeRam
        rw [hIs.ram]
        exact ⟨_, rfl⟩
      rcases hStep with ⟨t₁, hStep⟩
      have hStored :=
        (storeRam_withGprs hStep m₁.mem.hart.GPR).1
      rw [← h.mem] at hStored
      rcases runs_storeFast hParts (P.host.slow size) hBase
        hData d.imm h.ctx h.ram (hOff ▸ hFast) (hOff ▸ hIn)
        (hOff ▸ hStored) with ⟨m₂, hCode, -, hSame, hMem⟩
      have hOne := hRuns.unique (hFirst.append hCode)
        (hStack.trans (hSame.trans h.stack).symm)
      exact ⟨t₁, hStep, hOne.1.trans hMem,
        fun hSlow => absurd hFast hSlow⟩
    · exact absurd hRuns (hFirst.append_fails
        (fails_storeFast hParts (P.host.slow size) hBase hData
          d.imm h.ctx h.ram (hOff ▸ hFast)
            (hOff ▸ hIn))).not_runs
  · rw [if_neg hFast]
    have hFails : (OwnContext P m₁.mem →
        jitSlowStore P m₁.mem size off v = none) → False := by
      intro hNot
      exact (hFirst.append_fails (fails_storeSlow hBase hData
        d.imm h.ctx (hOff ▸ hFast)
          (hOff ▸ hNot))).not_runs hRuns
    have hSelf : OwnContext P m₁.mem ↔ OwnContext P t := by
      rw [h.mem]
      exact Iff.rfl
    have hOwn : OwnContext P t := by
      by_contra hNot
      exact hFails fun hOwn => absurd (hSelf.mp hOwn) hNot
    cases hStep : jitSlowStore P t size off v with
    | none =>
        refine (hFails fun _ => ?_).elim
        rw [h.mem]
        exact jitSlowStore_none hStep _
    | some t₁ =>
        have hStored :=
          (jitSlowStore_withGprs hStep m₁.mem.hart.GPR).1
        rw [← h.mem] at hStored
        rcases runs_storeSlow hParts hBase hData d.imm h.ctx
          (hSelf.mpr hOwn) (hOff ▸ hFast) (hOff ▸ hStored)
          with ⟨m₂, hCode, hCalled⟩
        have hOne := hRuns.unique (hFirst.append hCode)
          (hStack.trans (hCalled.stack.trans h.stack).symm)
        refine ⟨t₁, rfl, hOne.1.trans hCalled.mem, ?_⟩
        refine fun _ => ⟨hOwn, ?_⟩
        intro i hLost
        rw [hOne.2 _ (hostOf_ne i).1,
          hCalled.regs _ (hostOf_ne i).1, if_pos hLost]

end RiscvEm

------------------------------------------------------------
-- Both Directions
------------------------------------------------------------

namespace RiscvEm

open X86 JitEmitter

variable {σ : Type}
variable {P : Platform σ}
variable {s t t' t₁ u : State σ}
variable {em em' : JitEmitter}
variable {blk blk' : JitBlock}
variable {m : X86.Machine (State σ)}
variable {op : Op}
variable {d : InstructionData}
variable {fastMov : FastMov}
variable {size : MemorySize}
variable {addr off v : BitVec 64}
variable {out : ExecReturn}
variable {ret : MemoryReturn}

/- An access to RAM that fits is taken by the direct store. -/
theorem DramFits.offset_le
    (h : DramFits t addr size)
    (hDram : takesDram P addr size) :
    addr - 0x80000000 ≤ P.memsize := by
  rcases (takesDram_iff P addr size h.1).mp hDram with
    ⟨hLo, hHi⟩
  have hOff := toNat_ramOffset addr hLo
  rw [BitVec.le_def]
  omega

/- What is inside RAM passes the test for RAM. -/
theorem takesDram_of_offset
    (hIn : (addr - 0x80000000).toNat + size.bytes ≤
      P.memsize.toNat) :
    takesDram P addr size := by
  have hMem := P.memsize_lt
  have hPos := size.bytes_pos
  have hConst : (0x80000000 : BitVec 64).toNat = 2 ^ 31 := rfl
  have hLt := addr.isLt
  rw [BitVec.toNat_sub, hConst] at hIn
  rw [takesDram_iff P addr size (by omega)]
  omega

/- Only what is seen of the state of the code matters. -/
theorem SameStore.congr
    (h : SameStore size addr t t' u out)
    (hTrace : t₁.trace = t'.trace)
    (hMem : t₁.mem = t'.mem)
    (hWorld : t₁.world = t'.world) :
    SameStore size addr t t₁ u out := by
  cases h with
  | done hSuccess hStored hSame hSame' =>
      exact .done hSuccess (hTrace.trans hStored)
        (hMem.trans hSame) (hWorld.trans hSame')
  | fault hFailed hReported hSame hSame' =>
      exact .fault hFailed (hTrace.trans hReported)
        (hMem.trans hSame) (hWorld.trans hSame')

/- Code never reports a fault, and a store names its place. -/
theorem SameStore.stored_at
    (h : SameStore size addr t t' u out)
    (hStep : storeStep P size off v t = some t') :
    out.isSuccess = true ∧ off = addr - 0x80000000 ∧
      t'.mem = u.mem ∧ t'.world = u.world ∧
      t'.trace ≠ t.trace := by
  have hPlace : ∀ {n : Nat},
      Event.store t.self .compiled (off + 0x80000000) n ::
          t.trace = .store t.self .compiled addr n :: t.trace →
        off = addr - 0x80000000 := by
    intro n hEq
    have hHead := (List.cons.inj hEq).1
    rw [Event.store.injEq] at hHead
    rw [← hHead.2.2.1, BitVec.add_sub_cancel]
  have hLonger : ∀ e : Event, e :: t.trace ≠ t.trace :=
    fun e => List.cons_ne_self e t.trace
  cases h with
  | done hSuccess hStored hMem hWorld =>
      refine ⟨hSuccess, ?_, hMem, hWorld, ?_⟩
      · rcases storeStep_cases hStep with
          ⟨-, -, hTrace⟩ | ⟨-, rfl⟩ | ⟨-, _, _, _, -, -, rfl⟩
        · exact hPlace (hTrace.symm.trans hStored)
        · exact absurd hStored.symm (hLonger _)
        · exact hPlace hStored
      · rw [hStored]
        exact hLonger _
  | fault hFailed hReported hMem hWorld =>
      rcases storeStep_cases hStep with
        ⟨-, -, hTrace⟩ | ⟨-, rfl⟩ | ⟨-, _, _, _, -, -, rfl⟩
      · cases hTrace.symm.trans hReported
      · exact absurd hReported.symm (hLonger _)
      · cases hReported

/- So it is in RAM or at a device, for both. -/
theorem SameStore.place
    (h : SameStore size addr t t' u (.ofMemory 4 ret))
    (hWf : t.Wf P)
    (hStep : storeStep P size off v t = some t')
    (hWrite : t.mmioWrite P addr size v = .ok (ret, u)) :
    (takesDram P addr size ∧ DramFits t addr size) ∨
      (¬ takesDram P addr size ∧
        ¬ addr - 0x80000000 ≤ P.memsize ∧
        ∃ dev dev' after,
          P.devs.find? (·.inWriteWindow addr size) =
            some dev ∧
          P.devs.find? (·.inReadWindow addr size) =
            some dev' ∧
          dev.write addr size v t.world t.mem = .ok after ∧
          dev'.write addr size v t.world t.mem =
            .ok after) := by
  rcases h.stored_at hStep with
    ⟨hSuccess, rfl, hMem, hWorld, hNew⟩
  by_cases hDram : takesDram P addr size
  · exact Or.inl ⟨hDram, fits_of_mmioWrite hWf hDram hWrite⟩
  · refine Or.inr ⟨hDram, ?_⟩
    have hAddr : addr - 0x80000000 + 0x80000000 = addr :=
      BitVec.sub_add_cancel addr _
    rcases storeStep_cases hStep with
      ⟨-, hIn, -⟩ | ⟨-, rfl⟩ |
        ⟨hSlow, dev', world, mem, hFind', hWrite', rfl⟩
    · exact absurd (takesDram_of_offset hIn) hDram
    · exact absurd rfl hNew
    · rw [hAddr] at hFind' hWrite'
      refine ⟨hSlow, ?_⟩
      rcases State.mmioWrite_steps hWrite with
        ⟨hYes, -⟩ |
          ⟨-, -, dev, world₁, mem₁, hFind, hDone, rfl⟩ |
          ⟨-, -, rfl, -⟩
      · exact absurd hYes hDram
      · refine ⟨dev, dev', (world₁, mem₁), hFind, hFind',
          hDone, ?_⟩
        rw [hWrite']
        exact congrArg Except.ok (Prod.ext hWorld hMem)
      · cases hSuccess

/- A store is the operands and the code behind them. -/
theorem Arrived.emitted_store
    (h : Arrived P s t em blk m)
    (hParts : storeParts op = some (fastMov, size))
    {template : JitTemplate}
    (hEntry : conversionTbl P.host.slow op = some template)
    (hEmit : template d em blk = .ok (em', blk')) :
    ∃ blk₁, em.Grants blk [d.rs1, d.rs2] em' blk₁ ∧
      blk' = blk₁.emit (jitStoreCode fastMov
        (P.host.slow size) (em'.vregs d.rs1)
          (em'.vregs d.rs2) d.imm) := by
  cases hEntry.symm.trans
    (conversionTbl_store hParts P.host.slow).1
  rcases jitStore_spec h.holds.wf h.labels fastMov
    (P.host.slow size) d with ⟨em₁, blk₁, hGrants, hEq⟩
  cases hEq.symm.trans hEmit
  exact ⟨blk₁, hGrants, rfl⟩

/- The function of a store is a write to memory. -/
theorem store_exec_eq
    (hParts : storeParts op = some (fastMov, size))
    (P : Platform σ)
    (d : InstructionData)
    (t : State σ) :
    op.exec P d t =
      (t.mmioWrite P (t.gpr d.rs1 + d.imm) size
        (t.gpr d.rs2)).map
          fun (ret, u) => (.ofMemory 4 ret, u) := by
  rw [store_exec hParts]
  unfold execSType execStore
  cases t.mmioWrite P (t.gpr d.rs1 + d.imm) size
    (t.gpr d.rs2) <;> rfl

/- Of two bases with one offset the first is the second. -/
theorem base_of_offset
    {x y imm : BitVec 64}
    (h : x + imm - 0x80000000 = y + imm - 0x80000000) :
    x = y := by
  have hSum := congrArg (· + 0x80000000) h
  simp only [BitVec.sub_add_cancel] at hSum
  exact (BitVec.add_left_inj imm).mp hSum

/- If the effects agree, the condition holds. -/
theorem StoreEquals.ok
    (h : Arrived P s t em blk m)
    (hZero : t.gpr 0 = 0)
    (hWf : t.Wf P)
    (hImm : imm32 d.imm = d.imm)
    (hParts : storeParts op = some (fastMov, size))
    {template : JitTemplate}
    (hEntry : conversionTbl P.host.slow op = some template)
    (hEmit : template d em blk = .ok (em', blk'))
    (hEquals : StoreEquals P op size d t blk m em' blk') :
    StoreOk P size d t m em' := by
  rcases h.emitted_store hParts hEntry hEmit with
    ⟨blk₁, hGrants, rfl⟩
  rcases h.operands_run hZero hGrants with
    ⟨code₁, m₁, a, rfl, hFirst, hHolds₁, hBase, hValue, hData⟩
  rcases hEquals with
    ⟨code, m', t', out, u, hCode, hRuns, hHolds, hHart, hExec,
      hSame⟩
  have hWhole : code₁ ++ jitStoreCode fastMov
      (P.host.slow size) (em'.vregs d.rs1) (em'.vregs d.rs2)
        d.imm = code := by
    rw [JitBlock.emit_emit] at hCode
    exact List.append_cancel_left
      (congrArg JitBlock.bytes hCode)
  subst hWhole
  rcases hHolds₁.store_ran hWf.hasRam hBase hData hParts rfl
    hFirst hRuns hHolds.stack with ⟨t₁, hStep, hMem, hCall⟩
  rw [hValue, storeOffset_eq hImm] at hStep hCall
  have hRest : t₁.withGprs m₁.mem.hart.GPR =
      t'.withGprs m'.mem.hart.GPR :=
    hMem.symm.trans hHolds.mem
  have hSame₁ : SameStore size (t.gpr d.rs1 + d.imm) t t₁ u
      out := by
    have hTrace := congrArg State.trace hRest
    have hMem₁ := congrArg State.mem hRest
    have hWorld := congrArg State.world hRest
    exact hSame.congr hTrace hMem₁ hWorld
  rw [store_exec_eq hParts] at hExec
  cases hWrite : t.mmioWrite P (t.gpr d.rs1 + d.imm) size
      (t.gpr d.rs2) with
  | error e =>
      rw [hWrite] at hExec
      cases hExec
  | ok r =>
      rw [hWrite] at hExec
      cases hExec
      have hOffset := (hSame₁.stored_at hStep).2.1
      constructor
      · intro hRs1
        unfold storeBase at hOffset
        rw [if_pos hRs1, hRs1, hZero] at hOffset
        exact base_of_offset hOffset
      · rcases hSame₁.place hWf hStep hWrite with
          hDram | ⟨hOutside, hBehind, hDevices⟩
        · exact Or.inl hDram
        · rw [hOffset] at hCall
          rcases hCall hBehind with ⟨hOwn, hLost⟩
          refine Or.inr ⟨hOutside, hBehind, hDevices, hOwn, ?_⟩
          intro i r hSlot hIn
          rw [← hLost i hIn, hHolds.held i r hSlot]
          show t'.hart.GPR r = t.hart.GPR r
          rw [hHart]

/- The code and the function do the same store. -/
theorem StoreOk.steps
    (hWf : t.Wf P)
    (hOk : StoreOk P size d t m em') :
    ∃ t' u, storeStep P size
        (t.gpr d.rs1 + d.imm - 0x80000000) (t.gpr d.rs2) t =
          some t' ∧
      t.mmioWrite P (t.gpr d.rs1 + d.imm) size
        (t.gpr d.rs2) = .ok (⟨true, 0, 0⟩, u) ∧
      t'.hart = t.hart ∧
      SameStore size (t.gpr d.rs1 + d.imm) t t' u
        (.ofMemory 4 ⟨true, 0, 0⟩) := by
  rcases hOk.place with ⟨hDram, hFits⟩ | hDevice
  · rcases hWf.ramIs with ⟨r, hRam, hSize⟩
    rcases State.mmioWrite_dram hRam hSize hDram hFits.1
      hFits.2 (t.gpr d.rs2) with ⟨u, hWrite, -⟩
    rcases storeStep_of_write rfl rfl hWf.hasRam
      (Or.inl hDram) hWrite rfl with
      ⟨t', hStep, hHart, hMem, hWorld, -⟩
    refine ⟨t', u, hStep, hWrite, hHart,
      .done rfl ?_ hMem hWorld⟩
    have hFast := hFits.offset_le hDram
    rcases storeStep_cases hStep with
      ⟨-, -, hTrace⟩ | ⟨hSlow, -⟩ | ⟨hSlow, -⟩
    · rw [hTrace, BitVec.sub_add_cancel]
    · exact absurd hFast hSlow
    · exact absurd hFast hSlow
  · rcases hDevice.devices with
      ⟨dev, dev', ⟨world, mem⟩, hFind, hFind', hDone, hDone'⟩
    have hAddr := BitVec.sub_add_cancel
      (t.gpr d.rs1 + d.imm) 0x80000000
    refine ⟨{ t with world := world, mem := mem }.log
        (.store t.self .compiled (t.gpr d.rs1 + d.imm)
          size.bytes),
      t.written (t.gpr d.rs1 + d.imm) size mem world t.jctx,
      ?_, ?_, rfl, .done rfl rfl rfl rfl⟩
    · unfold storeStep jitSlowStore
      dsimp only
      rw [if_neg hDevice.behind, hAddr, hFind']
      dsimp only
      rw [hDone']
    · unfold State.mmioWrite
      rw [if_neg hDevice.outside, hFind]
      exact bind_eq_ok.mpr ⟨_, hDone, rfl⟩

/- Under the condition the effects agree. -/
theorem StoreOk.equals
    (h : Arrived P s t em blk m)
    (hZero : t.gpr 0 = 0)
    (hWf : t.Wf P)
    (hImm : imm32 d.imm = d.imm)
    (hParts : storeParts op = some (fastMov, size))
    {template : JitTemplate}
    (hEntry : conversionTbl P.host.slow op = some template)
    (hEmit : template d em blk = .ok (em', blk'))
    (hOk : StoreOk P size d t m em') :
    StoreEquals P op size d t blk m em' blk' := by
  rcases h.emitted_store hParts hEntry hEmit with
    ⟨blk₁, hGrants, rfl⟩
  rcases h.operands_run hZero hGrants with
    ⟨code₁, m₁, a, rfl, hFirst, hHolds₁, hBase, hValue, hData⟩
  have hRs1 : m₁.regs a = t.gpr d.rs1 := by
    rw [hValue]
    unfold storeBase
    by_cases hRs1 : d.rs1 = 0
    · rw [if_pos hRs1, hOk.base hRs1, hRs1, hZero]
    · rw [if_neg hRs1]
  have hOffset : storeOffset (m₁.regs a) d.imm =
      t.gpr d.rs1 + d.imm - 0x80000000 := by
    rw [hRs1, storeOffset_eq hImm]
  rcases hOk.steps hWf with
    ⟨t', u, hStep, hWrite, hHart, hSame⟩
  have hCalled :
      ¬ storeOffset (m₁.regs a) d.imm ≤ P.memsize →
        OwnContext P t ∧
        ∀ i r, em'.slot i = some r →
          lostInCall (hostOf i) = true →
            P.clobber (hostOf i) = t.gpr r := by
    intro hSlow
    rw [hOffset] at hSlow
    rcases hOk.place with ⟨hDram, hFits⟩ | hDevice
    · exact absurd (hFits.offset_le hDram) hSlow
    · exact ⟨hDevice.own, hDevice.kept⟩
  rw [← hOffset] at hStep
  rcases hHolds₁.s_body hBase hData hParts hCalled hStep with
    ⟨m', hRuns, hHolds⟩
  refine ⟨_, m', t', _, u, JitBlock.emit_emit _ _ _,
    hFirst.append hRuns, hHolds, hHart, ?_, hSame⟩
  rw [store_exec_eq hParts, hWrite]
  rfl

/-
  At any place of a block, a store has the effect of its
  function exactly under the condition: for all registers,
  contents and immediates.
-/
theorem compiled_store_iff
    (h : Arrived P s t em blk m)
    (hZero : t.gpr 0 = 0)
    (hWf : t.Wf P)
    (hImm : d.imm = immS d.inst)
    (hParts : storeParts op = some (fastMov, size))
    {template : JitTemplate}
    (hEntry : conversionTbl P.host.slow op = some template)
    (hEmit : template d em blk = .ok (em', blk')) :
    StoreEquals P op size d t blk m em' blk' ↔
      StoreOk P size d t m em' := by
  have hImm32 : imm32 d.imm = d.imm := by
    rw [hImm]
    exact imm32_immS d.inst
  exact ⟨fun hEquals =>
      hEquals.ok h hZero hWf hImm32 hParts hEntry hEmit,
    fun hOk =>
      hOk.equals h hZero hWf hImm32 hParts hEntry hEmit⟩

/- `sd x1, 0(x2)`, as it was decoded. -/
def sdAtX2 : InstructionData :=
  ⟨0x00113023, 2, 1, 0, 0, 0, 3⟩

/- The start of RAM, right behind the prologue. -/
theorem compiled_store_at_start :
    ∃ m em' blk',
      Arrived Platform.bare
        ((State.boot []).setGpr 2 0x80000000)
        ((State.boot []).setGpr 2 0x80000000) .reset
        (rvjitEmitPrologue .empty) m ∧
      execjitSD Platform.bare.host.slow sdAtX2 .reset
        (rvjitEmitPrologue .empty) = .ok (em', blk') ∧
      StoreEquals Platform.bare .SD .Long sdAtX2
        ((State.boot []).setGpr 2 0x80000000)
        (rvjitEmitPrologue .empty) m em' blk' := by
  have hEmpty : JitBlock.empty.bytes = [] := rfl
  rcases arrived_prologue Platform.bare
    ((State.boot []).setGpr 2 0x80000000) hEmpty rfl with
    ⟨m, hArrived⟩
  refine ⟨m, _, _, hArrived, rfl, ?_⟩
  have hImm : sdAtX2.imm = immS sdAtX2.inst := by
    decide
  refine (compiled_store_iff hArrived rfl
    (State.boot_wf.setGpr _ _) hImm rfl rfl rfl).mpr ⟨?_, ?_⟩
  · intro hRs1
    exact absurd hRs1 (by decide)
  · exact Or.inl ⟨by decide, by decide, by decide⟩

/-
  Eight bytes behind the end of RAM: `exec_SD` reports a
  fault, and the code has no run inside the RAM array.
-/
theorem compiled_store_over_end :
    ∃ m em' blk',
      Arrived Platform.bare
        ((State.boot []).setGpr 2 0x80100000)
        ((State.boot []).setGpr 2 0x80100000) .reset
        (rvjitEmitPrologue .empty) m ∧
      execjitSD Platform.bare.host.slow sdAtX2 .reset
        (rvjitEmitPrologue .empty) = .ok (em', blk') ∧
      Op.exec .SD Platform.bare sdAtX2
          ((State.boot []).setGpr 2 0x80100000) =
        .ok (⟨false, false, 4, EXC_STORE_ACCESS_FAULT,
          0x80100000⟩, (State.boot []).setGpr 2 0x80100000) ∧
      ¬ StoreEquals Platform.bare .SD .Long sdAtX2
        ((State.boot []).setGpr 2 0x80100000)
        (rvjitEmitPrologue .empty) m em' blk' := by
  have hEmpty : JitBlock.empty.bytes = [] := rfl
  rcases arrived_prologue Platform.bare
    ((State.boot []).setGpr 2 0x80100000) hEmpty rfl with
    ⟨m, hArrived⟩
  refine ⟨m, _, _, hArrived, rfl, ?_, ?_⟩
  · rfl
  · intro hEquals
    rcases (hEquals.ok hArrived rfl (State.boot_wf.setGpr _ _)
      rfl rfl rfl rfl).place with ⟨hDram, -⟩ | hDevice
    · exact absurd hDram (by decide)
    · exact hDevice.behind (by decide)

end RiscvEm
