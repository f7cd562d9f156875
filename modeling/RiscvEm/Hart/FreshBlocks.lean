import RiscvEm.Hart.Eval
import RiscvEm.Hart.InstructionFrame
import RiscvEm.Hart.PcRuns
import RiscvEm.Jit.Entries

/-
  Freshly compiled blocks over runs of the machine: the entry
  of a block that was just finished is called when the hart
  reaches it, unless its page has been stored to.

  Key definitions include:
    * `State.BlocksTidy`
    * `Handles`
    * `CalledLater`

  Key theorems include:
    * `State.BlocksTidy.tick`
    * `fresh_block_usable_iff`
-/

------------------------------------------------------------
-- The Context Over Ticks
------------------------------------------------------------

namespace RiscvEm

variable {σ : Type}
variable {P : Platform σ}
variable {s s' : State σ}

theorem ExecKept.tidy
    (h : ExecKept s s')
    (hj : s.jctx.Tidy) :
    s'.jctx.Tidy := by
  rw [h.jctx]
  exact hj.of_eq rfl rfl rfl id

/- A hart that has compiled a block has left none early. -/
structure HartCore.BlocksTidy
    (c : HartCore) : Prop where
  jctx : c.jctx.Tidy
  exit : c.jctx.count ≠ 0 → c.hart.lastJitPcExit = 0

/- The hart of a state with its context. -/
def State.core
    (s : State σ) : HartCore :=
  ⟨s.hart, s.jctx⟩

namespace State

theorem blocksTidy_of_kept
    (hs : s.core.BlocksTidy)
    (h : ExecKept s s') :
    s'.core.BlocksTidy := by
  refine ⟨h.tidy hs.jctx, ?_⟩
  intro hCount
  rcases h.exit with hSame | hNone
  · have hBefore : s.jctx.count ≠ 0 := by
      have hJctx : s'.jctx.count ≠ 0 := hCount
      rw [h.jctx] at hJctx
      exact hJctx
    exact hSame.trans (hs.exit hBefore)
  · exact hNone

theorem dropBlock_blocksTidy
    {f : JitFunction}
    (hs : s.core.BlocksTidy)
    (hEntry : s.jitEntry = some f) :
    (s.dropBlock f).core.BlocksTidy := by
  unfold jitEntry at hEntry
  dsimp only at hEntry
  split at hEntry
  case isFalse => cases hEntry
  case isTrue =>
    cases hEntry
    have hDropped := hs.jctx.setEntry (jitIndex s.hart.pc)
      (f := { s.jctx.jits (jitIndex s.hart.pc) with
        valid := false })
      (hs.jctx.version _) nofun (n := s.jctx.count) nofun
      le_rfl
    exact ⟨hDropped.of_eq rfl rfl rfl id, hs.exit⟩

/- An instruction traps, or is executed and then handled. -/
theorem runEntry_blocksTidy
    (hs : s.core.BlocksTidy)
    {entry : InstructionCache}
    {w : BitVec 32}
    {pc : BitVec 64}
    (hMem : ∀ i, entry.selected = some i → i ∈ allInstrs)
    (hExit : s.hart.lastJitPcExit = 0)
    (h : s.runEntry P entry w pc = .ok s') :
    s'.core.BlocksTidy := by
  have hLeft : ∀ {s₁ : State σ}, ExecKept s s₁ →
      s₁.hart.lastJitPcExit = 0 := by
    intro s₁ hKept
    rcases hKept.exit with hSame | hNone
    · exact hSame.trans hExit
    · exact hNone
  rcases runEntry_cases h with
    ⟨-, rfl⟩ | ⟨i, out, s₁, hSel, hExec, hEnd⟩
  · have hTrapped := hLeft (.trap s EXC_ILLEGAL_INSTRUCTION
      (w.setWidth 64) false)
    exact ⟨hs.jctx.stopBlock, fun _ => hTrapped⟩
  · have hKept := ExecKept.exec i.func hExec
    have hDone := hKept.tidy hs.jctx
    rcases hEnd with ⟨-, rfl⟩ | ⟨-, j, hHandle, rfl⟩
    · have hTrapped := hLeft (hKept.trans
        (.trap s₁ out.cause out.tval false))
      exact ⟨hDone.stopBlock, fun _ => hTrapped⟩
    · have hSize := size_le_four i (hMem i hSel)
      have hRetired := hLeft hKept
      exact ⟨hDone.handle hSize hHandle, fun _ => hRetired⟩

/- A tick keeps entries and counts in order. -/
theorem tick_blocksTidy
    (hSources : s.PcSources)
    (hs : s.core.BlocksTidy)
    (h : s.tick P = .ok s') :
    s'.core.BlocksTidy := by
  have hPre := blocksTidy_of_kept hs (.preTick s)
  rcases tick_cases h with
    ⟨b, rfl⟩ | ⟨f, -, -, hCall⟩ | ⟨f, hEntry, rfl⟩ |
    ⟨hInt, hTick⟩
  · exact ⟨hPre.jctx, hPre.exit⟩
  · exact blocksTidy_of_kept hPre (.callBlock hCall)
  · exact dropBlock_blocksTidy hPre hEntry
  · rcases interpret_cases hTick with ⟨m, val, s₁, hRead, hRun⟩
    have hStart : s.atFetch.PcSources :=
      hSources.preTick.of_eq rfl rfl
    have hSound := (hStart.mmioRead hRead).afterFetch m
    have hKept := (ExecKept.mmioRead hRead).trans
      (.afterFetch s₁ m)
    refine runEntry_blocksTidy
      (blocksTidy_of_kept hs (.fetched hRead))
      (fun i hSel => (hSound.selected hSel).1) ?_ hRun
    rcases hKept.exit with hSame | hNone
    · exact hSame
    · exact hNone

end State

end RiscvEm

------------------------------------------------------------
-- Finished Blocks
------------------------------------------------------------

namespace RiscvEm

variable {σ : Type}
variable {P : Platform σ}
variable {s s' : State σ}

/-
  In the tick, the instruction of an entry is executed, and
  then handled by the context as it is then.
-/
inductive Handles
    (P : Platform σ)
    (s : State σ) :
    JitContext → InstructionCache → Instruction → Prop
  | mk {m : MemoryReturn} {val : BitVec 64} {s₁ s₂ : State σ}
      {i : Instruction} {out : ExecReturn} :
      s.Interprets →
      s.atFetch.mmioRead P s.atFetch.hart.pc .Int =
        .ok (m, val, s₁) →
      ((s₁.afterFetch m).decode
        (val.setWidth 32)).1.selected = some i →
      i.func.exec P
        ((s₁.afterFetch m).decode (val.setWidth 32)).1.data
        ((s₁.afterFetch m).decode (val.setWidth 32)).2 =
        .ok (out, s₂) →
      out.isSuccess = true →
      Handles P s (s₂.retire out).jctx
        ((s₁.afterFetch m).decode (val.setWidth 32)).1 i

/-
  Whenever the hart of `s` is at the block in the machine
  `m`, where neither the entry of the block nor the version
  of its page differ from those in `s`, its tick calls the
  compiled code.
-/
def CalledLater
    (P : Platform σ)
    (s : State σ)
    (blk : JitBlock)
    (m : Machine σ) : Prop :=
  ∀ c, m.harts[s.self]? = some c →
    c.jctx.jits (jitIndex blk.pc) =
      s.jctx.jits (jitIndex blk.pc) →
    c.jctx.pageVerionBitmap (pageIndex blk.pc) =
      s.jctx.pageVerionBitmap (pageIndex blk.pc) →
    (m.state s.self c).preTick.hart.WFI = false →
    (m.state s.self c).preTick.hart.pc = blk.pc →
      (m.state s.self c).tick P =
        (m.state s.self c).preTick.callBlock P
          (s.jctx.jits (jitIndex blk.pc))

theorem Handles.tick
    {j : JitContext}
    {entry : InstructionCache}
    {i : Instruction}
    (h : Handles P s j entry i)
    (hTick : s.tick P = .ok s') :
    j.handleInstruction P.host entry i s.preTick.hart.pc =
      .ok s'.jctx := by
  cases h with
  | @mk m val s₁ s₂ i out hInt hRead hSel hExec hOk =>
      rw [hInt.tick_eq, State.interpret_of_read hRead] at hTick
      rcases State.runEntry_cases hTick with
        ⟨hNone, -⟩ | ⟨i', out', b, hSel', hExec', hEnd⟩
      · rw [hSel] at hNone
        cases hNone
      · cases Option.some.inj (hSel'.symm.trans hSel)
        cases Except.ok.inj (hExec'.symm.trans hExec)
        rcases hEnd with ⟨hFail, -⟩ | ⟨-, j, hHandle, rfl⟩
        · rw [hOk] at hFail
          cases hFail
        · exact hHandle

theorem Handles.tidy
    {j : JitContext}
    {entry : InstructionCache}
    {i : Instruction}
    (h : Handles P s j entry i)
    (hj : s.jctx.Tidy) :
    j.Tidy := by
  cases h with
  | @mk m val s₁ s₂ i out hInt hRead hSel hExec hOk =>
      exact ((ExecKept.fetched hRead).trans
        (.exec i.func hExec)).tidy hj

theorem State.preTick_jctx
    (s : State σ) :
    s.preTick.jctx = s.jctx := by
  have hCsr : ∀ s : State σ, ∀ n v,
      (s.setCsr n v).jctx = s.jctx := by
    intro s n v
    unfold State.setCsr
    split <;> rfl
  unfold State.preTick
  dsimp only
  split
  · unfold State.checkInts
    split
    · exact hCsr _ _ _
    · exact hCsr _ _ _
  · exact hCsr _ _ _

/- A tick that finds a block calls it or drops it. -/
theorem State.tick_of_entry
    {f : JitFunction}
    (hAwake : s.preTick.hart.WFI = false)
    (hEntry : s.preTick.jitEntry = some f) :
    s.tick P =
      if s.preTick.isCurrent f = true then
        s.preTick.callBlock P f
      else
        .ok (s.preTick.dropBlock f) := by
  unfold tick
  dsimp only
  rw [hAwake, if_neg Bool.false_ne_true]
  unfold dispatch
  rw [hEntry]

/- A usable entry is called when the hart is at its block. -/
theorem JitContext.Usable.tick_eq
    {blk : JitBlock}
    (h : s.jctx.Usable blk)
    (hs : s.core.BlocksTidy)
    (hRam : ¬ blk.pc < 0x80000000)
    (hAwake : s.preTick.hart.WFI = false)
    (hPc : s.preTick.hart.pc = blk.pc) :
    s.tick P = s.preTick.callBlock P
      (s.jctx.jits (jitIndex blk.pc)) := by
  have hExit : s.preTick.hart.lastJitPcExit = 0 := by
    refine (State.blocksTidy_of_kept hs (.preTick s)).exit ?_
    unfold State.core
    rw [s.preTick_jctx]
    exact hs.jctx.counted _ h.valid
  have hNe : s.preTick.hart.lastJitPcExit ≠ blk.pc := by
    intro hEq
    rw [hExit] at hEq
    rw [← hEq] at hRam
    exact hRam (by decide)
  have hEntry : s.preTick.jitEntry =
      some (s.jctx.jits (jitIndex blk.pc)) := by
    unfold State.jitEntry
    dsimp only
    rw [s.preTick_jctx, hPc]
    exact if_pos ⟨hs.jctx.counted _ h.valid, h.valid, h.pc,
      hNe⟩
  have hCurrent : s.preTick.isCurrent
      (s.jctx.jits (jitIndex blk.pc)) = true := by
    unfold State.isCurrent
    rw [s.preTick_jctx, hPc, h.version]
    exact beq_self_eq_true _
  rw [State.tick_of_entry hAwake hEntry, if_pos hCurrent]

/-
  A tick that counts another block has finished one, if its
  entry is valid.
-/
theorem finishes_of_count
    {s s' : State σ}
    (hTick : s.tick P = .ok s')
    (hCount : s'.jctx.count ≠ s.jctx.count)
    (hValid : (s'.jctx.jits (jitIndex s.jctx.block.pc)).valid =
      true) :
    ∃ j entry i, Handles P s j entry i ∧
      j.Finishes P.host i s.preTick.hart.pc ∧
      j.block = s.jctx.block ∧
      j.pageVerionBitmap = s'.jctx.pageVerionBitmap := by
  have hKept : ∀ {b : State σ}, ExecKept s b →
      b.jctx.count = s.jctx.count := by
    intro b hb
    rw [hb.jctx]
  have hPre := ExecKept.preTick s
  rcases State.tick_cases hTick with
    ⟨b, rfl⟩ | ⟨f, -, -, hCall⟩ | ⟨f, -, rfl⟩ |
    ⟨hInt, hDone⟩
  · exact absurd (hKept hPre) hCount
  · exact absurd (hKept (hPre.trans (.callBlock hCall))) hCount
  · exact absurd (hKept hPre) hCount
  · rcases State.interpret_cases hDone with
      ⟨m, val, s₁, hRead, hRun⟩
    have hBefore := ExecKept.fetched hRead
    rcases State.runEntry_cases hRun with
      ⟨-, rfl⟩ | ⟨i, out, s₂, hSel, hExec, hEnd⟩
    · exact absurd (hKept hBefore) hCount
    · have hLast := hBefore.trans (.exec i.func hExec)
      rcases hEnd with ⟨-, rfl⟩ | ⟨hOk, j, hHandle, rfl⟩
      · exact absurd (hKept hLast) hCount
      · have hHandles := Handles.mk hInt hRead hSel hExec hOk
        have hGrew : j.count ≠ s₂.jctx.count := by
          rw [hKept hLast]
          exact hCount
        have hEnds := (JitContext.handled_of_handle
          hHandle).endsBlock hGrew
        rcases hEnds.handle hHandle with ⟨hEntry, hVersions⟩
        have hBlock : (s₂.retire out).jctx.block =
            s.jctx.block := by
          change s₂.jctx.block = s.jctx.block
          rw [hLast.jctx]
        refine ⟨_, _, i, hHandles, ⟨hEnds, ?_⟩, hBlock,
          hVersions.symm⟩
        rw [← hBlock] at hValid
        change (j.jits _).valid = true at hValid
        rw [hEntry] at hValid
        exact hValid

end RiscvEm

------------------------------------------------------------
-- Runs
------------------------------------------------------------

namespace RiscvEm

variable {σ : Type}
variable {P : Platform σ}
variable {m m' : Machine σ}
variable {ts : List (State σ × State σ)}

/- The blocks of every hart of a machine are in order. -/
structure Machine.BlocksTidy
    (m : Machine σ) : Prop where
  sources : m.PcSources
  harts : ∀ c ∈ m.harts, c.BlocksTidy

theorem Machine.Step.blocksTidy
    {t : Option (State σ × State σ)}
    (h : Machine.Step P m t m')
    (hm : m.BlocksTidy) :
    m'.BlocksTidy := by
  refine ⟨h.pcSources hm.sources, ?_⟩
  cases h with
  | @tick i c s hCore hTick =>
      have hOld := List.mem_of_getElem? hCore
      have hSources : (m.state i c).PcSources :=
        ⟨hm.sources.cache, hm.sources.sizes c hOld⟩
      have hDone := State.tick_blocksTidy hSources
        (hm.harts c hOld) hTick
      intro c' hMem
      rcases List.mem_or_eq_of_mem_set hMem with hSame | hNew
      · exact hm.harts c' hSame
      · rw [hNew]
        exact hDone
  | device world => exact hm.harts

/-
  The harts have just been initialised, before anything was
  decoded or compiled.
-/
structure Machine.StartedEmpty
    (m : Machine σ) : Prop where
  cache : m.cache = .init
  harts : ∀ c ∈ m.harts, ∃ h dtb pc memsize,
    c = ⟨Hart.init h dtb pc, .init memsize⟩

theorem Machine.StartedEmpty.blocksTidy
    (h : m.StartedEmpty) :
    m.BlocksTidy := by
  refine ⟨⟨?_, ?_⟩, ?_⟩
  · rw [h.cache]
    exact DecodeCache.sound_init
  · intro c hMem
    rcases h.harts c hMem with ⟨_, _, _, memsize, rfl⟩
    exact .init memsize
  · intro c hMem
    rcases h.harts c hMem with ⟨_, _, _, memsize, rfl⟩
    exact ⟨.init memsize, fun hCount => absurd rfl hCount⟩

/- The context that handles an instruction is in order. -/
theorem Machine.Run.handles_tidy
    (hStart : m.StartedEmpty)
    (hRun : m.Run P ts m')
    {t : State σ × State σ}
    (hMem : t ∈ ts)
    {j : JitContext}
    {entry : InstructionCache}
    {i : Instruction}
    (hHandles : Handles P t.1 j entry i) :
    j.Tidy := by
  rcases hRun.before_tick (fun h => h.blocksTidy)
    hStart.blocksTidy hMem with
    ⟨m₁, n, c, hBefore, hCore, hState⟩
  have hTidy : t.1.jctx.Tidy := by
    rw [hState]
    exact (hBefore.harts c (List.mem_of_getElem? hCore)).jctx
  exact hHandles.tidy hTidy

/-
  In a run from the start, the entry of a block that was
  finished in a tick is usable, and compiled code is called
  whenever the hart reaches it unchanged, exactly when the
  page of the block is at version zero.
-/
theorem fresh_block_usable_iff
    (P : Platform σ)
    (m m' : Machine σ)
    (ts : List (State σ × State σ))
    (hStart : m.StartedEmpty)
    (hRun : m.Run P ts m')
    (t : State σ × State σ)
    (hMem : t ∈ ts)
    (j : JitContext)
    (entry : InstructionCache)
    (i : Instruction)
    (hHandles : Handles P t.1 j entry i)
    (hFinishes : j.Finishes P.host i t.1.preTick.hart.pc) :
    (t.2.jctx.Usable j.block ∧
        CalledLater P t.2 j.block m') ↔
      j.pageVerionBitmap (pageIndex j.block.pc) = 0 := by
  have hEnd := hRun.keeps (fun h => h.blocksTidy)
    hStart.blocksTidy
  have hj := hRun.handles_tidy hStart hMem hHandles
  have hIff := hFinishes.usable_iff hj
    (hHandles.tick (hRun.tick_of_mem hMem))
  constructor
  · rintro ⟨hUsable, -⟩
    exact hIff.mp hUsable
  · intro hZero
    have hUsable := hIff.mpr hZero
    refine ⟨hUsable, ?_⟩
    intro c hCore hSame hVersion hAwake hPc
    have hNow : c.jctx.Usable j.block := by
      constructor
      · rw [hSame]
        exact hUsable.valid
      · rw [hSame]
        exact hUsable.pc
      · rw [hSame]
        exact hUsable.size
      · rw [hSame, hVersion]
        exact hUsable.version
    have hCalled := JitContext.Usable.tick_eq (P := P)
      (s := m'.state t.2.self c) hNow
      (hEnd.harts c (List.mem_of_getElem? hCore))
      (hj.ram hFinishes.ends.building) hAwake hPc
    exact hCalled.trans (congrArg (State.callBlock P _) hSame)

theorem startedEmpty_single_boot
    (program : List (BitVec 32)) :
    (Machine.single (State.boot program)).StartedEmpty := by
  refine ⟨rfl, ?_⟩
  intro c hMem
  rw [List.mem_singleton.mp hMem]
  exact ⟨Hart.zero 0, 0x800E0000, 0x80000000, _, rfl⟩

/- The next tick finds a block, of the current version. -/
def State.nextBlock
    (s : State σ) : Option Bool :=
  if s.preTick.hart.WFI then
    none
  else
    s.preTick.jitEntry.map s.preTick.isCurrent

/- What a tick of a computed run did to the blocks. -/
structure TickReport where
  blockPc : BitVec 64
  before : Nat
  after : Nat
  valid : Bool
  version : BitVec 64
  next : Option Bool
  deriving DecidableEq

/-
  The report of the tick after `n` others: the block before
  it, the counts, the entry and the version after it, and
  whether the next tick calls a block.
-/
def reportTick
    (n : Nat)
    (program : List (BitVec 32)) : Option TickReport := do
  let s ← (State.evalTicks Platform.bare n
    (State.boot program)).toOption
  let s' ← (s.evalTick Platform.bare).toOption
  some
    { blockPc := s.jctx.block.pc
      before := s.jctx.count
      after := s'.jctx.count
      valid := (s'.jctx.jits (jitIndex s.jctx.block.pc)).valid
      version := s'.jctx.pageVerionBitmap
        (pageIndex s.jctx.block.pc)
      next := s'.nextBlock }

theorem State.nextBlock_eq_some
    {s : State σ}
    {b : Bool}
    (h : s.nextBlock = some b) :
    s.preTick.hart.WFI = false ∧
      ∃ f, s.preTick.jitEntry = some f ∧
        s.preTick.isCurrent f = b := by
  unfold nextBlock at h
  split at h
  case isTrue => cases h
  case isFalse hAwake =>
    exact ⟨eq_false_of_ne_true hAwake,
      Option.map_eq_some_iff.mp h⟩

/- `addi x1, x1, 1` and a jump back to it. -/
def loopProgram : List (BitVec 32) :=
  [0x00108093, 0xFFDFF06F]

/- The loop, after a store to its own page. -/
def storedLoopProgram : List (BitVec 32) :=
  [0x00000117, 0x10012023, 0x00108093, 0xFFDFF06F]

/- A tick of a computed run that counts a valid block. -/
theorem finishes_of_report
    {n : Nat}
    {program : List (BitVec 32)}
    {r : TickReport}
    (h : reportTick n program = some r)
    (hCount : r.after ≠ r.before)
    (hValid : r.valid = true) :
    ∃ ts t j entry i,
      (Machine.single (State.boot program)).Run Platform.bare
        (t :: ts) (.single t.2) ∧
      Handles Platform.bare t.1 j entry i ∧
      j.Finishes Platform.bare.host i t.1.preTick.hart.pc ∧
      j.pageVerionBitmap (pageIndex j.block.pc) = r.version ∧
      t.2.nextBlock = r.next := by
  rcases Option.bind_eq_some_iff.mp h with ⟨s, hTicks, h⟩
  rcases Option.bind_eq_some_iff.mp h with ⟨s', hTick, h⟩
  cases Option.some.inj h
  rw [toOption_eq_some] at hTicks hTick
  rw [← State.tick_eq_evalTick] at hTick
  rcases run_of_evalTicks n Machine.Run.start rfl hTicks with
    ⟨⟨ts, hRun, -⟩, hSelf⟩
  rcases finishes_of_count hTick hCount hValid with
    ⟨j, entry, i, hHandles, hFinishes, hBlock, hVersions⟩
  refine ⟨ts, (s, s'), j, entry, i,
    hRun.tick_single hSelf hTick, hHandles, hFinishes, ?_, rfl⟩
  rw [hBlock, hVersions]

theorem reportTick_loop :
    reportTick 201 loopProgram =
      some ⟨0x80000000, 0, 1, true, 0, some true⟩ := by
  decide +kernel

/- The block of the loop is usable. -/
theorem fresh_block_usable_loop :
    ∃ ts t j entry i,
      (Machine.single (State.boot loopProgram)).Run
        Platform.bare (t :: ts) (.single t.2) ∧
      Handles Platform.bare t.1 j entry i ∧
      j.Finishes Platform.bare.host i t.1.preTick.hart.pc ∧
      t.2.jctx.Usable j.block ∧
      CalledLater Platform.bare t.2 j.block (.single t.2) := by
  rcases finishes_of_report reportTick_loop (by decide) rfl with
    ⟨ts, t, j, entry, i, hRun, hHandles, hFinishes, hZero, -⟩
  have hUsable := (fresh_block_usable_iff Platform.bare _ _ _
    (startedEmpty_single_boot _) hRun t List.mem_cons_self j
    entry i hHandles hFinishes).mpr hZero
  exact ⟨ts, t, j, entry, i, hRun, hHandles, hFinishes,
    hUsable.1, hUsable.2⟩

/-
  After a store to the page of the loop, the entry of its
  block has another version than the page, and the next tick
  drops it.
-/
theorem fresh_block_stale :
    ∃ ts t j entry i f,
      (Machine.single (State.boot storedLoopProgram)).Run
        Platform.bare (t :: ts) (.single t.2) ∧
      Handles Platform.bare t.1 j entry i ∧
      j.Finishes Platform.bare.host i t.1.preTick.hart.pc ∧
      ¬ t.2.jctx.Usable j.block ∧
      t.2.preTick.jitEntry = some f ∧
      t.2.tick Platform.bare =
        .ok (t.2.preTick.dropBlock f) := by
  have hReport : reportTick 203 storedLoopProgram =
      some ⟨0x80000008, 0, 1, true, 1, some false⟩ := by
    decide +kernel
  rcases finishes_of_report hReport (by decide) rfl with
    ⟨ts, t, j, entry, i, hRun, hHandles, hFinishes, hOne,
      hNext⟩
  rcases State.nextBlock_eq_some hNext with
    ⟨hAwake, f, hEntry, hOld⟩
  have hj := hRun.handles_tidy (startedEmpty_single_boot _)
    List.mem_cons_self hHandles
  have hIff := hFinishes.usable_iff hj
    (hHandles.tick (hRun.tick_of_mem List.mem_cons_self))
  refine ⟨ts, t, j, entry, i, f, hRun, hHandles, hFinishes, ?_,
    hEntry, ?_⟩
  · rw [hIff, hOne]
    decide
  · rw [State.tick_of_entry hAwake hEntry, hOld,
      if_neg Bool.false_ne_true]

end RiscvEm
