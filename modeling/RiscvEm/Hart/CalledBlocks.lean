import RiscvEm.Decode.Expansion
import RiscvEm.Hart.FreshBlocks
import RiscvEm.Jit.BlockRefines

/-
  The blocks that are called in a run: each was emitted from
  the instructions that the decoder finds in its words, so
  that a call of it does what interpreting them does.

  Key definitions include:
    * `Emission.Decoded`
    * `JitFunction.EmittedFrom`
    * `JitContext.Compiles`

  Key theorems include:
    * `JitContext.Compiles.handle`
    * `Machine.Step.blocksCompiled`
    * `called_block_refines`
-/

------------------------------------------------------------
-- Where Code Comes From
------------------------------------------------------------

namespace RiscvEm

/-
  The instruction is the one that the decoder finds in its
  word, with the operands of the word.
-/
def Emission.Decoded
    (e : Emission) : Prop :=
  ∃ i, bestMatch e.data.inst = some i ∧ i.func = e.op ∧
    e.data =
      operandData e.data.inst (i.immDecodeFunc e.data.inst)

/- The block under construction holds these instructions. -/
structure JitBlock.EmittedFrom
    (blk : JitBlock)
    (slow : SlowFuncs)
    (em : JitEmitter)
    (es : List Emission) : Prop where
  emitted : Emitted slow es em blk
  decoded : ∀ e ∈ es, e.Decoded
  words : blk.words = es.map (·.data.inst)
  count : blk.count = es.length
  most : blk.count ≤ RVJIT_MAX_INSTRUCTIONS
  size : blk.size = BitVec.ofNat 64 (4 * es.length)

/- The function is a block of these instructions. -/
structure JitFunction.EmittedFrom
    (f : JitFunction)
    (slow : SlowFuncs)
    (es : List Emission) : Prop where
  code : ∃ em blk, Emitted slow es em blk ∧
    f.func = (em.rvjitEmitEpilogue blk).bytes
  decoded : ∀ e ∈ es, e.Decoded
  words : f.words = es.map (·.data.inst)
  most : es.length ≤ RVJIT_MAX_INSTRUCTIONS
  size : f.instSize = BitVec.ofNat 16 (4 * es.length)

/-
  Every valid entry of the context was emitted from some
  instructions, and so was the block under construction.
-/
structure JitContext.Compiles
    (j : JitContext)
    (slow : SlowFuncs) : Prop where
  entries : ∀ i, (j.jits i).valid = true →
    ∃ es, (j.jits i).EmittedFrom slow es
  block : j.blockC = true →
    ∃ es, j.block.EmittedFrom slow j.emitter es

theorem Emission.Decoded.inTable
    {e : Emission}
    (h : e.Decoded) :
    e.InTable := by
  rcases h with ⟨i, hBest, hFunc, hData⟩
  have hSpec := bestMatch_spec e.data.inst
  rw [hBest] at hSpec
  cases hSpec with
  | entry hAt =>
      refine ⟨i, List.mem_of_getElem? hAt.get, hFunc, ?_⟩
      rw [hData]
      rfl

/- What has a template is not compressed. -/
theorem size_of_hasTemplate :
    ∀ i ∈ allInstrs, hasTemplate i.func = true →
      i.size = 4 := by
  decide +kernel

theorem hasTemplate_of_conversionTbl
    {slow : SlowFuncs}
    {op : Op}
    {template : JitTemplate}
    (h : conversionTbl slow op = some template) :
    hasTemplate op = true := by
  cases op <;> first | rfl | cases h

end RiscvEm

------------------------------------------------------------
-- Building A Block
------------------------------------------------------------

namespace RiscvEm

open JitContext

variable {j j' : JitContext}
variable {host : HostCode}
variable {slow : SlowFuncs}
variable {cache : InstructionCache}
variable {inst : Instruction}
variable {template : JitTemplate}
variable {w : BitVec 32}
variable {pc : BitVec 64}
variable {es : List Emission}

/- The entry that a decode of the word gives. -/
structure InstructionCache.DecodedAs
    (cache : InstructionCache)
    (inst : Instruction) : Prop where
  best : bestMatch cache.instRaw = some inst
  data : cache.data = operandData cache.instRaw
    (inst.immDecodeFunc cache.instRaw)

/- One more instruction in the block. -/
theorem emittedFrom_emitInstruction
    (hBlock : j.block.EmittedFrom slow j.emitter es)
    (hFew : j.block.count < RVJIT_MAX_INSTRUCTIONS)
    (hTable : conversionTbl slow inst.func = some template)
    (hCache : cache.DecodedAs inst)
    (h : j.emitInstruction template cache inst = .ok j') :
    ∃ es', j'.block.EmittedFrom slow j'.emitter es' := by
  unfold emitInstruction at h
  rcases bind_eq_ok.mp h with ⟨⟨em, blk⟩, hEmit, h⟩
  rcases bind_eq_ok.mp h with ⟨blk', hCheck, h⟩
  cases SizesEven.checkBuffer_eq hCheck
  cases h
  have hOnly := (conversionTbl_isTemplate hTable).onlyCode
    hEmit
  have hInst : cache.data.inst = cache.instRaw := by
    rw [hCache.data]
    rfl
  have hMem : inst ∈ allInstrs := by
    have hSpec := bestMatch_spec cache.instRaw
    rw [hCache.best] at hSpec
    cases hSpec with
    | entry hAt => exact List.mem_of_getElem? hAt.get
  have hSize : inst.size = 4 := size_of_hasTemplate inst hMem
    (hasTemplate_of_conversionTbl hTable)
  refine ⟨es ++ [⟨inst.func, cache.data, j.emitter, j.block⟩],
    ?_⟩
  constructor
  · exact .counted (.instr hBlock.emitted hTable hEmit) rfl rfl
  · intro e he
    rcases List.mem_append.mp he with hOld | hNew
    · exact hBlock.decoded e hOld
    · rw [List.mem_singleton.mp hNew]
      refine ⟨inst, ?_, rfl, ?_⟩
      · rw [hInst]
        exact hCache.best
      · rw [hInst]
        exact hCache.data
  · change blk.words ++ [cache.instRaw] = _
    rw [hOnly.words, hBlock.words, List.map_append, ← hInst]
    rfl
  · change blk.count + 1 = _
    rw [hOnly.count, hBlock.count, List.length_append]
    rfl
  · change blk.count + 1 ≤ _
    rw [hOnly.count]
    exact hFew
  · change blk.size + inst.size.setWidth 64 = _
    rw [hOnly.size, hBlock.size, hSize, List.length_append,
      List.length_singleton]
    apply BitVec.eq_of_toNat_eq
    simp [Nat.mul_add]

theorem emittedFrom_beginBlock
    (j : JitContext)
    (slow : SlowFuncs)
    (pc : BitVec 64) :
    (j.beginBlock pc).block.EmittedFrom slow
      (j.beginBlock pc).emitter [] :=
  ⟨.prologue rfl rfl, nofun, rfl, rfl, Nat.zero_le _, rfl⟩

/- The code that is pushed is the one of the block. -/
theorem compile_func
    (hValid : (j.compile host).1.valid = true) :
    (j.compile host).1.func =
      (j.emitter.rvjitEmitEpilogue j.block).bytes := by
  rcases ensureArena_frame { j with blockC := false } host with
    ⟨arena, used, hArena⟩
  unfold compile at hValid ⊢
  rw [hArena] at hValid ⊢
  unfold pushFunction at hValid ⊢
  dsimp only at hValid ⊢
  split at hValid
  · cases hValid
  · split at hValid
    · cases hValid
    · split at hValid
      · rename_i hRoom hFits hProtect
        rw [if_neg hRoom, if_neg hFits, if_pos hProtect]
      · cases hValid

/- The entry of a finished block. -/
theorem JitBlock.EmittedFrom.entry
    (hBlock : j.block.EmittedFrom host.slow j.emitter es)
    (hValid : (j.entry host).valid = true) :
    (j.entry host).EmittedFrom host.slow es := by
  have hMost := hBlock.most
  rw [hBlock.count] at hMost
  refine ⟨⟨j.emitter, j.block, hBlock.emitted, ?_⟩,
    hBlock.decoded, hBlock.words, hMost, ?_⟩
  · exact compile_func hValid
  · change j.block.size.setWidth 16 = _
    rw [hBlock.size]
    exact BitVec.setWidth_ofNat_of_le (by decide) _

namespace JitContext.Compiles

theorem init
    (slow : SlowFuncs)
    (memorySize : BitVec 64) :
    (JitContext.init memorySize).Compiles slow :=
  ⟨nofun, nofun⟩

theorem of_eq
    (hj : j.Compiles slow)
    (hJits : j'.jits = j.jits)
    (hBlock : j'.block = j.block)
    (hEmitter : j'.emitter = j.emitter)
    (hBuilding : j'.blockC = true → j.blockC = true) :
    j'.Compiles slow := by
  constructor
  · rw [hJits]
    exact hj.entries
  · intro hC
    rw [hBlock, hEmitter]
    exact hj.block (hBuilding hC)

theorem stopBlock
    (hj : j.Compiles slow) :
    j.stopBlock.Compiles slow :=
  hj.of_eq rfl rfl rfl nofun

/- Another entry, and no block under construction. -/
theorem setEntry
    (hj : j.Compiles slow)
    (k : BitVec 20)
    {f : JitFunction}
    (hFunc : f.valid = true → ∃ es, f.EmittedFrom slow es)
    (hJits : j'.jits = Function.update j.jits k f)
    (hIdle : j'.blockC = true →
      ∃ es, j'.block.EmittedFrom slow j'.emitter es) :
    j'.Compiles slow := by
  refine ⟨?_, hIdle⟩
  rw [hJits]
  exact (Function.forall_update_iff j.jits
    (fun _ f => f.valid = true →
      ∃ es, f.EmittedFrom slow es)).mpr
    ⟨hFunc, fun i _ => hj.entries i⟩

/- Handling an instruction adds what was decoded. -/
theorem handle
    (hj : j.Compiles host.slow)
    (hCache : cache.DecodedAs inst)
    (h : j.handleInstruction host cache inst pc = .ok j') :
    j'.Compiles host.slow := by
  have hBranch := branch_of_handle j host cache inst pc
  rw [h] at hBranch
  generalize hOut : (Except.ok j' : Except HostFault _) = out
    at hBranch
  cases hBranch with
  | kept hits =>
      cases hOut
      exact hj.of_eq rfl rfl rfl id
  | noPage => cases hOut
  | ended hits hBuilding hEnds =>
      rcases endBlockGen_cases hOut.symm with
        ⟨-, hEq⟩ | ⟨-, hEq⟩
      · rw [hEq]
        exact hj.of_eq rfl rfl rfl nofun
      · rcases compile_frame { j with pcHits := hits } host with
          ⟨blk, arena, used, -, hFrame⟩
        rw [entry_hits, hFrame] at hEq
        rw [hEq]
        rcases hj.block hBuilding with ⟨es, hBlock⟩
        exact hj.setEntry _
          (fun hValid => ⟨es, hBlock.entry hValid⟩) rfl nofun
  | grown hits hBuilding hFew hTable =>
      rcases bind_eq_ok.mp hOut.symm with ⟨j₁, hEmit, hDone⟩
      rcases hj.block hBuilding with ⟨es, hBlock⟩
      have hNext := emittedFrom_emitInstruction
        (j := { j with pcHits := hits }) hBlock hFew hTable
        hCache hEmit
      rcases emitInstruction_cases
        (conversionTbl_isTemplate hTable) hEmit with
        ⟨em, blk, -, hEq⟩
      cases hDone
      refine ⟨?_, fun _ => hNext⟩
      rw [hEq]
      exact hj.entries
  | begun hits hRam hTable =>
      rcases bind_eq_ok.mp hOut.symm with ⟨j₁, hEmit, hDone⟩
      have hNext := emittedFrom_emitInstruction
        (emittedFrom_beginBlock _ host.slow pc)
        (show 0 < RVJIT_MAX_INSTRUCTIONS by decide) hTable
        hCache hEmit
      rcases emitInstruction_cases
        (conversionTbl_isTemplate hTable) hEmit with
        ⟨em, blk, -, hEq⟩
      cases hDone
      refine ⟨?_, fun _ => hNext⟩
      rw [hEq]
      exact hj.entries

end JitContext.Compiles

end RiscvEm

------------------------------------------------------------
-- The Contexts Of A Run
------------------------------------------------------------

namespace RiscvEm

variable {σ : Type}
variable {P : Platform σ}
variable {s s' : State σ}

theorem ExecKept.compiles
    {slow : SlowFuncs}
    (h : ExecKept s s')
    (hj : s.jctx.Compiles slow) :
    s'.jctx.Compiles slow := by
  rw [h.jctx]
  exact hj.of_eq rfl rfl rfl id

/- With a sound cache, what is executed was decoded. -/
theorem State.decode_decodedAs
    (s : State σ)
    (hCache : s.cache.Sound decoder)
    {w : BitVec 32}
    {i : Instruction}
    (hSel : (s.decode w).1.selected = some i) :
    (s.decode w).1.DecodedAs i := by
  rw [s.decode_selected hCache] at hSel ⊢
  rw [matchEntry_selected] at hSel
  rw [hSel]
  exact ⟨hSel, rfl⟩

namespace State

theorem runEntry_compiles
    (hs : s.jctx.Compiles P.host.slow)
    {entry : InstructionCache}
    {w : BitVec 32}
    {pc : BitVec 64}
    (hEntry : ∀ i, entry.selected = some i →
      entry.DecodedAs i)
    (h : s.runEntry P entry w pc = .ok s') :
    s'.jctx.Compiles P.host.slow := by
  rcases runEntry_cases h with
    ⟨-, rfl⟩ | ⟨i, out, s₁, hSel, hExec, hEnd⟩
  · exact hs.stopBlock
  · have hDone := (ExecKept.exec i.func hExec).compiles hs
    rcases hEnd with ⟨-, rfl⟩ | ⟨-, j, hHandle, rfl⟩
    · exact hDone.stopBlock
    · exact JitContext.Compiles.handle hDone (hEntry i hSel)
        hHandle

theorem dropBlock_compiles
    {slow : SlowFuncs}
    {f : JitFunction}
    (hs : s.jctx.Compiles slow) :
    (s.dropBlock f).jctx.Compiles slow :=
  hs.setEntry (jitIndex s.hart.pc)
    (f := { f with valid := false }) nofun rfl hs.block

/- A tick adds nothing else to the code of its hart. -/
theorem tick_compiles
    (hSources : s.PcSources)
    (hs : s.jctx.Compiles P.host.slow)
    (h : s.tick P = .ok s') :
    s'.jctx.Compiles P.host.slow := by
  have hPre := (ExecKept.preTick s).compiles hs
  rcases tick_cases h with
    ⟨b, rfl⟩ | ⟨f, -, -, hCall⟩ | ⟨f, -, rfl⟩ |
    ⟨hInt, hTick⟩
  · exact hPre
  · exact (ExecKept.callBlock hCall).compiles hPre
  · exact dropBlock_compiles hPre
  · rcases interpret_cases hTick with ⟨m, val, s₁, hRead, hRun⟩
    have hStart : s.atFetch.PcSources :=
      hSources.preTick.of_eq rfl rfl
    have hSound := (hStart.mmioRead hRead).afterFetch m
    exact runEntry_compiles
      ((ExecKept.fetched hRead).compiles hs)
      (fun i hSel => decode_decodedAs _ hSound.cache hSel)
      hRun

end State

/- The code of every hart of a machine was decoded. -/
structure Machine.BlocksCompiled
    (slow : SlowFuncs)
    (m : Machine σ) : Prop where
  sources : m.PcSources
  harts : ∀ c ∈ m.harts, c.jctx.Compiles slow

variable {m m' : Machine σ}

theorem Machine.Step.blocksCompiled
    {t : Option (State σ × State σ)}
    (h : Machine.Step P m t m')
    (hm : m.BlocksCompiled P.host.slow) :
    m'.BlocksCompiled P.host.slow := by
  refine ⟨h.pcSources hm.sources, ?_⟩
  cases h with
  | @tick i c s hCore hTick =>
      have hOld := List.mem_of_getElem? hCore
      have hSources : (m.state i c).PcSources :=
        ⟨hm.sources.cache, hm.sources.sizes c hOld⟩
      have hDone := State.tick_compiles hSources
        (hm.harts c hOld) hTick
      intro c' hMem
      rcases List.mem_or_eq_of_mem_set hMem with hSame | hNew
      · exact hm.harts c' hSame
      · rw [hNew]
        exact hDone
  | device world => exact hm.harts

theorem Machine.StartedEmpty.blocksCompiled
    (h : m.StartedEmpty)
    (slow : SlowFuncs) :
    m.BlocksCompiled slow := by
  refine ⟨h.blocksTidy.sources, ?_⟩
  intro c hMem
  rcases h.harts c hMem with ⟨_, _, _, memsize, rfl⟩
  exact .init slow memsize

end RiscvEm

------------------------------------------------------------
-- Calls
------------------------------------------------------------

namespace RiscvEm

variable {σ : Type}
variable {P : Platform σ}
variable {ok : EmissionCondition σ}
variable {es : List Emission}
variable {e : Emission}
variable {em : JitEmitter}
variable {blk : JitBlock}
variable {s s' u u' : State σ}

/- The state in which a block is called. -/
def State.atCall
    (s : State σ) : State σ :=
  s.preTick.setHart { s.preTick.hart with exitPc := 0 }

/- Every instruction of a block goes on behind itself. -/
theorem exec_next
    (hTable : e.InTable)
    (hTemplate : ∃ template,
      conversionTbl P.host.slow e.op = some template)
    {out : ExecReturn}
    (hExec : e.op.exec P e.data u = .ok (out, u')) :
    out.increasePc = 4 ∧ u'.hart.pc = u.hart.pc := by
  rcases hTemplate with ⟨template, hEntry⟩
  rcases conversionTbl_kind hEntry with
    ⟨f, hValue⟩ | ⟨optimize, f, hValue⟩ |
      ⟨fastMov, size, hParts⟩
  · rw [rValue_exec hValue] at hExec
    cases hExec
    exact ⟨rfl, rfl⟩
  · rw [iValue_exec hValue P e.data (hTable.immOf hValue)]
      at hExec
    cases hExec
    exact ⟨rfl, rfl⟩
  · rw [store_exec hParts] at hExec
    rcases bind_eq_ok.mp hExec with ⟨⟨ret, u₁⟩, hWrite, hEnd⟩
    cases hEnd
    refine ⟨rfl, ?_⟩
    rcases State.mmioWrite_cases hWrite with
      ⟨-, -, mem, jctx, -, -, rfl⟩ |
      ⟨-, dev, world, mem, -, -, rfl⟩ | ⟨-, rfl⟩
    · rfl
    · rfl
    · rfl

theorem Emitted.template
    {slow : SlowFuncs}
    (h : Emitted slow es em blk) :
    ∀ e ∈ es, ∃ template,
      conversionTbl slow e.op = some template := by
  induction h with
  | prologue hBytes hLabels => exact nofun
  | counted hBefore hBytes hLabels ih => exact ih
  | instr hBefore hEntry hEmit ih =>
      intro e he
      rcases List.mem_append.mp he with hOld | hNew
      · exact ih e hOld
      · rw [List.mem_singleton.mp hNew]
        exact ⟨_, hEntry⟩

/- Interpreting the block leads behind it. -/
theorem Interpreted.pc
    (h : Interpreted P ok es s u)
    (hTable : ∀ e ∈ es, e.InTable)
    (hTemplate : ∀ e ∈ es, ∃ template,
      conversionTbl P.host.slow e.op = some template) :
    u.hart.pc =
      s.hart.pc + BitVec.ofNat 64 (4 * es.length) := by
  induction h with
  | start => simp
  | @instr es e s u u' out hBefore hOk hExec hSuccess ih =>
      have hLast : e ∈ es ++ [e] := by simp
      have hInit := ih
        (fun e he => hTable e (List.mem_append_left _ he))
        (fun e he => hTemplate e (List.mem_append_left _ he))
      have hNext := exec_next (hTable e hLast)
        (hTemplate e hLast) hExec
      have hRetired : (u'.retire out).hart.pc =
          u'.hart.pc + out.increasePc := rfl
      have hZeroed : (u.setGpr 0 0).hart.pc = u.hart.pc := rfl
      rw [hRetired, hNext.1, hNext.2, hZeroed, hInit,
        List.length_append, List.length_singleton, Nat.mul_add,
        BitVec.ofNat_add, BitVec.add_assoc]
      rfl

theorem State.preTick_zero
    (s : State σ) :
    s.preTick.gpr 0 = 0 := by
  have hCsr : ∀ s : State σ, ∀ n v,
      (s.setCsr n v).gpr = s.gpr := by
    intro s n v
    unfold State.setCsr
    split <;> rfl
  have hInts : ∀ s : State σ,
      s.checkInts.gpr = s.gpr := by
    intro s
    unfold State.checkInts
    split
    · unfold State.trap Hart.trap
      split <;> rfl
    · rfl
  have hZero : (s.setGpr 0 0).gpr 0 = 0 := by
    change Function.update s.hart.GPR 0 0 0 = 0
    exact Function.update_self _ _ _
  unfold State.preTick
  dsimp only
  split
  · rw [hInts, hCsr]
    exact hZero
  · rw [hCsr]
    exact hZero

/- The call of a block that was emitted from instructions. -/
theorem callBlock_refines
    {f : JitFunction}
    (hFrom : f.EmittedFrom P.host.slow es)
    (hRun : Interpreted P (Faithful P) es s.atCall u)
    (hCall : s.preTick.callBlock P f = .ok s') :
    SameGuest s' u ∧ s'.hart.pc = u.hart.pc := by
  rcases hFrom.code with ⟨em, blk, hEmitted, hFunc⟩
  have hTable : ∀ e ∈ es, e.InTable := fun e he =>
    (hFrom.decoded e he).inTable
  have hZero : s.atCall.gpr 0 = 0 := s.preTick_zero
  rcases block_refines_interpreter hEmitted hTable hFrom.most
    hZero hRun with ⟨s₁, hBlock, hSame⟩
  have hPc := hRun.pc hTable hEmitted.template
  rcases bind_eq_ok.mp hCall with ⟨s₂, hRan, hEnd⟩
  rw [hFunc] at hRan
  cases Except.ok.inj (hRan.symm.trans hBlock)
  have hHart := (runBlock_onlyCompiled hBlock).hart
  have hExit : s₁.hart.exitPc = 0 := by
    rw [hHart]
    rfl
  have hStill : s₁.hart.pc = s.atCall.hart.pc := by
    rw [hHart]
  rw [if_neg (not_not.mpr hExit)] at hEnd
  cases hEnd
  refine ⟨⟨hSame.gpr, hSame.mem, hSame.world, hSame.self⟩, ?_⟩
  have hBytes : f.instSize.setWidth 64 =
      BitVec.ofNat 64 (4 * es.length) := by
    have hMost := hFrom.most
    unfold RVJIT_MAX_INSTRUCTIONS at hMost
    rw [hFrom.size]
    apply BitVec.eq_of_toNat_eq
    simp only [BitVec.toNat_setWidth, BitVec.toNat_ofNat]
    omega
  change s₁.hart.pc + f.instSize.setWidth 64 = u.hart.pc
  rw [hStill, hBytes, hPc]

/-
  In a run from the start, a valid entry that a hart finds
  was emitted from instructions that the decoder finds in
  the recorded words.
-/
theorem Machine.Run.entry_emitted
    {m m' : Machine σ}
    {ts : List (State σ × State σ)}
    (hStart : m.StartedEmpty)
    (hRun : m.Run P ts m')
    {t : State σ × State σ}
    (hMem : t ∈ ts)
    {f : JitFunction}
    (hEntry : t.1.preTick.jitEntry = some f) :
    f.pc = t.1.preTick.hart.pc ∧
      ∃ es, f.EmittedFrom P.host.slow es := by
  rcases hRun.before_tick (fun h => h.blocksCompiled)
    (hStart.blocksCompiled P.host.slow) hMem with
    ⟨m₁, n, c, hBefore, hCore, hState⟩
  have hCompiles : t.1.jctx.Compiles P.host.slow := by
    rw [hState]
    exact hBefore.harts c (List.mem_of_getElem? hCore)
  unfold State.jitEntry at hEntry
  dsimp only at hEntry
  rw [t.1.preTick_jctx] at hEntry
  split at hEntry
  case isFalse => cases hEntry
  case isTrue hFound =>
    cases hEntry
    exact ⟨hFound.2.2.1, hCompiles.entries _ hFound.2.1⟩

/-
  In a run from the start, a tick that finds a block of the
  current version has found the code of instructions that
  the decoder finds in the words of the block. Wherever
  interpreting these leads without an exception, and with
  each instruction meeting the condition of its template, the
  call of the block leads to the same registers, memory,
  devices and program counter.
-/
theorem called_block_refines
    (P : Platform σ)
    (m m' : Machine σ)
    (ts : List (State σ × State σ))
    (hStart : m.StartedEmpty)
    (hRun : m.Run P ts m')
    (t : State σ × State σ)
    (hMem : t ∈ ts)
    (f : JitFunction)
    (hAwake : t.1.preTick.hart.WFI = false)
    (hEntry : t.1.preTick.jitEntry = some f)
    (hCurrent : t.1.preTick.isCurrent f = true) :
    f.pc = t.1.preTick.hart.pc ∧
      ∃ es, f.words = es.map (·.data.inst) ∧
        (∀ e ∈ es, e.Decoded) ∧
        ∀ u, Interpreted P (Faithful P) es t.1.atCall u →
          SameGuest t.2 u ∧ t.2.hart.pc = u.hart.pc := by
  rcases hRun.entry_emitted hStart hMem hEntry with
    ⟨hPc, es, hFrom⟩
  have hTick := hRun.tick_of_mem hMem
  rw [State.tick_of_entry hAwake hEntry, if_pos hCurrent]
    at hTick
  refine ⟨hPc, es, hFrom.words, hFrom.decoded, ?_⟩
  intro u hInterpreted
  exact callBlock_refines hFrom hInterpreted hTick

/- The block that the next tick calls. -/
def State.calledBlock
    (s : State σ) : Option JitFunction :=
  if s.nextBlock = some true then
    s.preTick.jitEntry
  else
    none

/- The words of the block that is called after `n` ticks. -/
def calledWords
    (n : Nat)
    (program : List (BitVec 32)) :
    Option (List (BitVec 32)) := do
  let s ← (State.evalTicks Platform.bare n
    (State.boot program)).toOption
  let f ← s.calledBlock
  let _ ← (s.evalTick Platform.bare).toOption
  some f.words

theorem State.calledBlock_spec
    {f : JitFunction}
    (h : s.calledBlock = some f) :
    s.preTick.hart.WFI = false ∧
      s.preTick.jitEntry = some f ∧
      s.preTick.isCurrent f = true := by
  unfold calledBlock at h
  split at h
  case isFalse => cases h
  case isTrue hNext =>
    rcases State.nextBlock_eq_some hNext with
      ⟨hAwake, f', hEntry, hCurrent⟩
    cases hEntry.symm.trans h
    exact ⟨hAwake, h, hCurrent⟩

/- Interpreting `addi x1, x1, 1` on its own. -/
theorem interpreted_addi
    {e : Emission}
    (hDecoded : e.Decoded)
    (hWord : e.data.inst = 0x00108093)
    (s : State σ) :
    ∃ u, Interpreted P (Faithful P) [e] s u ∧
      u.gpr 1 = s.gpr 1 + 1 := by
  rcases decodesTo_base (w := 0x00108093) .ADDI (by decide)
    (by decide) with ⟨i, hBest, hFunc, hImm⟩
  rcases hDecoded with ⟨i', hBest', hFunc', hData⟩
  rw [hWord] at hBest' hData
  cases hBest'.symm.trans hBest
  have hOp : e.op = .ADDI := hFunc'.symm.trans hFunc
  have hArgs : e.data = ⟨0x00108093, 1, 1, 1, 1, 0, 0⟩ := by
    rw [hData, hImm]
    decide
  have hFaithful : Faithful P e (s.setGpr 0 0) := by
    refine .i (congrArg iValue hOp) ?_ ?_ ?_
    · rw [hArgs]
      exact fun _ h => absurd h (by decide)
    · rw [hArgs]
      exact fun _ h => absurd h (by decide)
    · rw [hOp]
      exact fun h => absurd h (by decide)
  have hExec : e.op.exec P e.data (s.setGpr 0 0) =
      .ok (.next 4, (s.setGpr 0 0).setGpr 1 (s.gpr 1 + 1)) := by
    rw [hOp, hArgs]
    rfl
  exact ⟨_, .instr (.start s) hFaithful hExec rfl, rfl⟩

/- The call of the block of the loop adds one to `x1`. -/
theorem called_block_refines_loop :
    ∃ ts t f,
      (Machine.single (State.boot loopProgram)).Run
        Platform.bare (t :: ts) (.single t.2) ∧
      t.1.preTick.jitEntry = some f ∧
      f.words = [0x00108093] ∧
      t.2.gpr 1 = t.1.preTick.gpr 1 + 1 := by
  have hWords : calledWords 202 loopProgram =
      some [0x00108093] := by
    decide +kernel
  rcases Option.bind_eq_some_iff.mp hWords with
    ⟨s, hTicks, hRest⟩
  rcases Option.bind_eq_some_iff.mp hRest with
    ⟨f, hCalled, hRest⟩
  rcases Option.bind_eq_some_iff.mp hRest with
    ⟨s', hTick, hEnd⟩
  rw [toOption_eq_some] at hTicks hTick
  rw [← State.tick_eq_evalTick] at hTick
  rcases run_of_evalTicks 202 Machine.Run.start rfl hTicks with
    ⟨⟨ts, hRun, -⟩, hSelf⟩
  rcases State.calledBlock_spec hCalled with
    ⟨hAwake, hEntry, hCurrent⟩
  have hRun' := hRun.tick_single hSelf hTick
  rcases called_block_refines Platform.bare _ _ _
    (startedEmpty_single_boot _) hRun' (s, s')
    List.mem_cons_self f hAwake hEntry hCurrent with
    ⟨-, es, hFrom, hDecoded, hRefines⟩
  have hOnly := Option.some.inj hEnd
  rw [hOnly] at hFrom
  rcases List.map_eq_singleton_iff.mp hFrom.symm with
    ⟨e, rfl, hWord⟩
  rcases interpreted_addi (P := Platform.bare)
    (hDecoded e List.mem_cons_self) hWord s.atCall with
    ⟨u, hInterpreted, hSum⟩
  refine ⟨ts, (s, s'), f, hRun', hEntry, hOnly, ?_⟩
  rw [(hRefines u hInterpreted).1.gpr 1 (by decide), hSum]
  rfl

end RiscvEm
