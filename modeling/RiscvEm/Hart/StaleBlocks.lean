import RiscvEm.Hart.BlockWords
import RiscvEm.Hart.CsrControl
import RiscvEm.Hart.PageVersions

/-
  Compiled blocks after writes to their words.

  A hart calls a block as long as its own version of the page
  of the first instruction is zero. So a block is of the
  words in RAM as long as each change of one of them is made
  by a store that the hart interprets and that begins in that
  page.

  Key definitions include:
    * `JitContext.HasBlock`
    * `State.ChangesCounted`
    * `Machine.CountedRun`

  Key theorems include:
    * `State.tick_blocks`
    * `called_block_not_stale`
-/

------------------------------------------------------------
-- The Blocks Of A Hart
------------------------------------------------------------

namespace RiscvEm

open JitContext

variable {j j' : JitContext}
variable {host : HostCode}
variable {cache : InstructionCache}
variable {inst : Instruction}
variable {pc : BitVec 64}
variable {ws : List (BitVec 32)}

/- A compiled block, or the one under construction. -/
def JitContext.HasBlock
    (j : JitContext)
    (pc : BitVec 64)
    (ws : List (BitVec 32)) : Prop :=
  (∃ k, (j.jits k).valid = true ∧ (j.jits k).pc = pc ∧
    (j.jits k).words = ws) ∨
  (j.blockC = true ∧ j.block.pc = pc ∧ j.block.words = ws)

/- There is no block. -/
def JitContext.NoBlock
    (j : JitContext) : Prop :=
  ∀ pc ws, ¬ j.HasBlock pc ws

/- A new context has none. -/
theorem JitContext.noBlock_init
    (memorySize : BitVec 64) :
    (JitContext.init memorySize).NoBlock := by
  rintro pc ws (⟨k, hValid, -, -⟩ | ⟨hC, -, -⟩)
  · cases hValid
  · cases hC

/- Fewer blocks. -/
theorem JitContext.HasBlock.of_eq
    (h : j'.HasBlock pc ws)
    (hJits : ∀ k, (j'.jits k).valid = true →
      j'.jits k = j.jits k)
    (hBlock : j'.blockC = true →
      j.blockC = true ∧ j'.block = j.block) :
    j.HasBlock pc ws := by
  rcases h with ⟨k, hValid, hPc, hWords⟩ | ⟨hC, hPc, hWords⟩
  · have hSame := hJits k hValid
    rw [hSame] at hValid hPc hWords
    exact Or.inl ⟨k, hValid, hPc, hWords⟩
  · rcases hBlock hC with ⟨hOld, hSame⟩
    rw [hSame] at hPc hWords
    exact Or.inr ⟨hOld, hPc, hWords⟩

/- A block that is entered was under construction. -/
theorem JitContext.HasBlock.of_entered
    {k : BitVec 20}
    {f : JitFunction}
    (h : j'.HasBlock pc ws)
    (hBuilding : j.blockC = true)
    (hJits : j'.jits = Function.update j.jits k f)
    (hPc : f.pc = j.block.pc)
    (hWords : f.words = j.block.words)
    (hIdle : j'.blockC = false) :
    j.HasBlock pc ws := by
  rcases h with ⟨i, hValid, hHere, hThese⟩ | ⟨hC, -, -⟩
  · rw [hJits] at hValid hHere hThese
    by_cases hEq : i = k
    · subst hEq
      rw [Function.update_self] at hHere hThese
      exact Or.inr ⟨hBuilding, hPc.symm.trans hHere,
        hWords.symm.trans hThese⟩
    · rw [Function.update_of_ne hEq] at hValid hHere hThese
      exact Or.inl ⟨i, hValid, hHere, hThese⟩
  · rw [hIdle] at hC
    cases hC

/- The word at an address is the last one of a block. -/
def JitContext.AddsWord
    (j : JitContext)
    (addr : BitVec 64)
    (w : BitVec 32)
    (pc : BitVec 64)
    (ws : List (BitVec 32)) : Prop :=
  ¬ addr < 0x80000000 ∧ ∃ old, ws = old ++ [w] ∧
    addr = pc + BitVec.ofNat 64 (4 * old.length) ∧
    (old = [] ∨ j.HasBlock pc old)

/- Every block after handling was there, or is longer. -/
theorem handle_blocks
    (hSizes : j.blockC = true → j.block.size =
      BitVec.ofNat 64 (4 * j.block.words.length))
    (h : j.handleInstruction host cache inst pc = .ok j')
    {b : BitVec 64}
    (hHas : j'.HasBlock b ws) :
    j.HasBlock b ws ∨ (j'.blockC = true ∧
      j.AddsWord pc cache.instRaw b ws) := by
  have hGrows := fun hBuilding hStill hBlock =>
    handle_grows hBuilding hStill hBlock h
  have hBranch := branch_of_handle j host cache inst pc
  rw [h] at hBranch
  generalize hOut : (Except.ok j' : Except HostFault _) = out
    at hBranch
  cases hBranch with
  | kept hits =>
      cases hOut
      exact Or.inl (hHas.of_eq (fun _ _ => rfl)
        fun hC => ⟨hC, rfl⟩)
  | noPage => cases hOut
  | ended hits hBuilding hEnds =>
      rcases endBlockGen_cases hOut.symm with
        ⟨-, hEq⟩ | ⟨-, hEq⟩
      · rw [hEq] at hHas
        exact Or.inl (hHas.of_eq (fun _ _ => rfl) nofun)
      · rcases compile_frame { j with pcHits := hits } host with
          ⟨blk, arena, used, -, hFrame⟩
        rw [entry_hits, hFrame] at hEq
        rw [hEq] at hHas
        exact Or.inl
          (hHas.of_entered hBuilding rfl rfl rfl rfl)
  | grown hits hBuilding hFew hTable =>
      rcases bind_eq_ok.mp hOut.symm with ⟨j₁, hEmit, hDone⟩
      rcases emitInstruction_adds hTable hEmit with
        ⟨hC, hJits, hPc, hWords, -⟩
      cases hDone
      rcases hHas with hEntry | ⟨hStill, rfl, rfl⟩
      · have hSame : (j₁.markIgnored pc).jits = j.jits := hJits
        rw [hSame] at hEntry
        exact Or.inl (Or.inl hEntry)
      · have hNe : j₁.block ≠ j.block := by
          intro hEq
          have hLength := congrArg List.length hWords
          rw [hEq, List.length_append] at hLength
          simp at hLength
        rcases hGrows hBuilding hStill hNe with ⟨hRam, hNext⟩
        refine Or.inr ⟨hStill, hRam, j.block.words, hWords, ?_,
          Or.inr (Or.inr ⟨hBuilding, hPc.symm, rfl⟩)⟩
        show pc = j₁.block.pc + _
        rw [hPc, hNext, hSizes hBuilding]
  | begun hits hRam hTable =>
      rcases bind_eq_ok.mp hOut.symm with ⟨j₁, hEmit, hDone⟩
      rcases emitInstruction_adds hTable hEmit with
        ⟨-, hJits, hPc, hWords, -⟩
      cases hDone
      rcases hHas with hEntry | ⟨hStill, rfl, rfl⟩
      · have hSame : (j₁.markIgnored pc).jits = j.jits := hJits
        rw [hSame] at hEntry
        exact Or.inl (Or.inl hEntry)
      · refine Or.inr ⟨hStill, hRam, [], hWords, ?_, Or.inl rfl⟩
        have hHere : j₁.block.pc = pc := hPc
        show pc = j₁.block.pc + _
        rw [hHere]
        simp

end RiscvEm

------------------------------------------------------------
-- What A Tick Does To Them
------------------------------------------------------------

namespace RiscvEm

variable {σ : Type}
variable {P : Platform σ}
variable {s s' : State σ}
variable {pc : BitVec 64}
variable {ws : List (BitVec 32)}

/- Executing makes no block. -/
theorem ExecKept.hasBlock
    (h : ExecKept s s')
    (hHas : s'.jctx.HasBlock pc ws) :
    s.jctx.HasBlock pc ws := by
  rw [h.jctx] at hHas
  exact hHas.of_eq (fun _ _ => rfl) fun hC => ⟨hC, rfl⟩

/- The size of the block under construction is known. -/
def JitContext.SizeKnown
    (j : JitContext) : Prop :=
  j.blockC = true → j.block.size =
    BitVec.ofNat 64 (4 * j.block.words.length)

namespace State

/- A decoded entry adds its own word at most. -/
theorem runEntry_blocks
    (hSizes : s.jctx.SizeKnown)
    {entry : InstructionCache}
    {w : BitVec 32}
    {addr : BitVec 64}
    (h : s.runEntry P entry w addr = .ok s')
    (hHas : s'.jctx.HasBlock pc ws) :
    s.jctx.HasBlock pc ws ∨ (s'.jctx.blockC = true ∧
      s.jctx.AddsWord addr entry.instRaw pc ws) := by
  rcases runEntry_cases h with
    ⟨-, rfl⟩ | ⟨i, out, s₁, hSel, hExec, hEnd⟩
  · exact Or.inl (hHas.of_eq (fun _ _ => rfl) nofun)
  · have hKept := ExecKept.exec i.func hExec
    rcases hEnd with ⟨-, rfl⟩ | ⟨-, j, hHandle, rfl⟩
    · exact Or.inl (hKept.hasBlock
        (hHas.of_eq (fun _ _ => rfl) nofun))
    · have hKnown : s₁.jctx.SizeKnown := by
        rw [hKept.jctx]
        exact hSizes
      rcases handle_blocks hKnown hHandle hHas with
        hOld | ⟨hStill, hRam, old, hWords, hAddr, hOld⟩
      · exact Or.inl (hKept.hasBlock hOld)
      · exact Or.inr ⟨hStill, hRam, old, hWords, hAddr,
          hOld.imp_right fun hOld => hKept.hasBlock hOld⟩

/-
  Every block after a tick was there before it, or it has one
  word more, which the tick fetched from behind the others.
-/
theorem tick_blocks
    (hSources : s.PcSources)
    (hSizes : s.jctx.SizeKnown)
    (h : s.tick P = .ok s')
    (hHas : s'.jctx.HasBlock pc ws) :
    s.jctx.HasBlock pc ws ∨ (s'.jctx.blockC = true ∧
      ∃ addr w, s.FetchesAt P addr w ∧
        s.jctx.AddsWord addr w pc ws) := by
  have hPre := ExecKept.preTick s
  rcases tick_cases h with
    ⟨b, rfl⟩ | ⟨f, -, -, hCall⟩ | ⟨f, -, rfl⟩ |
    ⟨hInt, hTick⟩
  · exact Or.inl (hPre.hasBlock hHas)
  · exact Or.inl (hPre.hasBlock
      ((ExecKept.callBlock hCall).hasBlock hHas))
  · refine Or.inl (hPre.hasBlock (hHas.of_eq ?_
      fun hC => ⟨hC, rfl⟩))
    intro k hValid
    by_cases hEq : k = jitIndex s.preTick.hart.pc
    · subst hEq
      simp [dropBlock, setJctx, JitContext.clearPcHits]
        at hValid
    · exact Function.update_of_ne hEq _ _
  · rcases interpret_cases hTick with ⟨m, val, s₁, hRead, hRun⟩
    have hStart : s.atFetch.PcSources :=
      hSources.preTick.of_eq rfl rfl
    have hSound := (hStart.mmioRead hRead).afterFetch m
    have hKept := ExecKept.fetched hRead
    have hKnown : ((s₁.afterFetch m).decode
        (val.setWidth 32)).2.jctx.SizeKnown := by
      rw [hKept.jctx]
      exact hSizes
    rcases runEntry_blocks hKnown hRun hHas with
      hOld | ⟨hStill, hRam, old, hWords, hAddr, hOld⟩
    · exact Or.inl (hKept.hasBlock hOld)
    · rw [decode_instRaw _ hSound.cache] at hWords
      exact Or.inr ⟨hStill, _, _,
        ⟨hInt, rfl, m, val, s₁, hRead, rfl⟩,
        hRam, old, hWords, hAddr,
        hOld.imp_right fun hOld => hKept.hasBlock hOld⟩

end State

end RiscvEm

------------------------------------------------------------
-- Counted Changes
------------------------------------------------------------

namespace RiscvEm

variable {σ : Type}
variable {P : Platform σ}
variable {s s' : State σ}
variable {pc : BitVec 64}
variable {ws : List (BitVec 32)}

/-
  From one state of a hart to a later one, each change in RAM
  of a word of a block that it has then came with a store of
  this hart through `MMIO::write` that begins in the page in
  which the block does.
-/
def State.ChangesCounted
    (P : Platform σ)
    (s s' : State σ) : Prop :=
  ∀ pc ws, s'.jctx.HasBlock pc ws → ∀ i < ws.length,
    takesDram P (pc + BitVec.ofNat 64 (4 * i)) .Int →
      s'.codeWord (pc + BitVec.ofNat 64 (4 * i)) ≠
          s.codeWord (pc + BitVec.ofNat 64 (4 * i)) →
        storesTo P s'.self (pageIndex pc) s.trace <
          storesTo P s'.self (pageIndex pc) s'.trace

/-
  The words are those that are there now, unless the hart
  stored to the page that they begin in.
-/
def State.FreshAt
    (P : Platform σ)
    (s : State σ)
    (pc : BitVec 64)
    (ws : List (BitVec 32)) : Prop :=
  storesTo P s.self (pageIndex pc) s.trace = 0 →
    WordsAt (s.WordFrom P) pc ws

/- All blocks of the hart are fresh. -/
def State.BlocksFresh
    (P : Platform σ)
    (s : State σ) : Prop :=
  ∀ pc ws, s.jctx.HasBlock pc ws → s.FreshAt P pc ws

/- Counted changes keep a block fresh. -/
theorem State.FreshAt.counted
    (h : s.FreshAt P pc ws)
    (hSelf : s'.self = s.self)
    (hTrace : ∃ new, s'.trace = new ++ s.trace)
    (hCounted : s.ChangesCounted P s')
    (hHas : s'.jctx.HasBlock pc ws) :
    s'.FreshAt P pc ws := by
  intro hZero i hi
  have hBefore : storesTo P s.self (pageIndex pc)
      s.trace = 0 := by
    rcases hTrace with ⟨new, hNew⟩
    rw [hSelf, hNew, storesTo_append] at hZero
    omega
  have hWord := h hBefore i hi
  unfold State.WordFrom at hWord ⊢
  split at hWord
  case isFalse hRam =>
    rw [if_neg hRam]
    exact hWord
  case isTrue hRam =>
    rw [if_pos hRam]
    by_contra hNot
    have hChanged :
        s'.codeWord (pc + BitVec.ofNat 64 (4 * i)) ≠
          s.codeWord (pc + BitVec.ofNat 64 (4 * i)) :=
      fun hSame => hNot (hSame.trans hWord)
    have hMore := hCounted pc ws hHas i hi hRam hChanged
    omega

/- A tick whose changes are counted keeps all fresh. -/
theorem State.BlocksFresh.tick
    (hFresh : s.BlocksFresh P)
    (hSources : s.PcSources)
    (hSizes : s.jctx.SizeKnown)
    (hWords : ∀ pc ws, s'.jctx.HasBlock pc ws →
      ∀ w ∈ ws, w ≠ 0)
    (hCounted : s.ChangesCounted P s')
    (h : s.tick P = .ok s') :
    s'.BlocksFresh P := by
  have hTracks := State.tick_tracks h
  have hTrace : ∃ new, s'.trace = new ++ s.trace := by
    rcases hTracks.own with ⟨new, hNew, -⟩
    exact ⟨new, hNew⟩
  intro pc ws hHas
  rcases State.tick_blocks hSources hSizes h hHas with
    hOld | ⟨-, addr, w, hFetch, hRam, old, rfl, rfl, hOld⟩
  · exact (hFresh pc ws hOld).counted hTracks.self hTrace
      hCounted hHas
  · refine State.FreshAt.counted ?_ hTracks.self hTrace
      hCounted hHas
    intro hZero
    have hBefore : WordsAt (s.WordFrom P) pc old := by
      rcases hOld with rfl | hOld
      · exact WordsAt.nil _ pc
      · exact hFresh pc old hOld hZero
    exact hBefore.snoc (hFetch.wordFrom
      (hWords pc _ hHas w (by simp)))

end RiscvEm

------------------------------------------------------------
-- Runs
------------------------------------------------------------

namespace RiscvEm

variable {σ : Type}
variable {P : Platform σ}
variable {m m' m₁ m₂ : Machine σ}
variable {ts : List (State σ × State σ)}

namespace Machine

/- What a step changes of the blocks of a hart is counted. -/
def ChangesCounted
    (P : Platform σ)
    (m m' : Machine σ) : Prop :=
  ∀ (i : Nat) (c c' : HartCore), m.harts[i]? = some c →
    m'.harts[i]? = some c' →
      (m.state i c).ChangesCounted P (m'.state i c')

/- A run with only such steps. -/
inductive CountedRun
    (P : Platform σ)
    (m : Machine σ) :
    List (State σ × State σ) → Machine σ → Prop
  | start : CountedRun P m [] m
  | step {ts : List (State σ × State σ)}
      {t : Option (State σ × State σ)} {m₁ m₂ : Machine σ} :
      CountedRun P m ts m₁ → Step P m₁ t m₂ →
      m₁.ChangesCounted P m₂ →
      CountedRun P m (t.toList ++ ts) m₂

/- It is a run. -/
theorem CountedRun.run
    (h : m.CountedRun P ts m') :
    m.Run P ts m' := by
  induction h with
  | start => exact .start
  | step _ hNext _ ih => exact ih.step hNext

/- The blocks of every hart are fresh. -/
def AllFresh
    (P : Platform σ)
    (m : Machine σ) : Prop :=
  ∀ (i : Nat) (c : HartCore), m.harts[i]? = some c →
    (m.state i c).BlocksFresh P

end Machine

/- No word of a block is zero. -/
theorem JitContext.Compiles.words_ne_zero
    {j : JitContext}
    {slow : SlowFuncs}
    (h : j.Compiles slow)
    {pc : BitVec 64}
    {ws : List (BitVec 32)}
    (hHas : j.HasBlock pc ws) :
    ∀ w ∈ ws, w ≠ 0 := by
  rcases hHas with ⟨k, hValid, -, rfl⟩ | ⟨hC, -, rfl⟩
  · rcases h.entries k hValid with ⟨es, hFrom⟩
    exact hFrom.words_ne_zero
  · rcases h.block hC with ⟨es, hFrom⟩
    intro w hMem
    rw [hFrom.words] at hMem
    rcases List.mem_map.mp hMem with ⟨e, he, rfl⟩
    exact (hFrom.decoded e he).ne_zero
      (hFrom.emitted.template e he)

/- The size of a block counts its words. -/
theorem JitContext.Compiles.sizeKnown
    {j : JitContext}
    {slow : SlowFuncs}
    (h : j.Compiles slow) :
    j.SizeKnown := by
  intro hC
  rcases h.block hC with ⟨es, hFrom⟩
  rw [hFrom.size, hFrom.words, List.length_map]

/- A step whose changes are counted keeps blocks fresh. -/
theorem Machine.AllFresh.step
    {t : Option (State σ × State σ)}
    (hFresh : m₁.AllFresh P)
    (hCompiled : m₁.BlocksCompiled P.host.slow)
    (hCounted : m₁.ChangesCounted P m₂)
    (h : Machine.Step P m₁ t m₂) :
    m₂.AllFresh P := by
  have hSources := hCompiled.sources
  have hAfter := h.blocksCompiled hCompiled
  have hTrace := h.trace_append
  cases h with
  | @tick i c s hCore hTick =>
      have hMem := List.mem_of_getElem? hCore
      have hLt := (List.getElem?_eq_some_iff.mp hCore).1
      have hSelf : s.self = i := State.tick_self hTick
      intro k c' hGet
      by_cases hSame : i = k
      · subst hSame
        have hPut : (m₁.put i s).harts[i]? =
            some ⟨s.hart, s.jctx⟩ :=
          List.getElem?_set_self hLt
        have hCounts := hCounted i c c' hCore hGet
        cases hPut.symm.trans hGet
        have hState : (m₁.put i s).state i ⟨s.hart, s.jctx⟩ =
            s := by
          cases hSelf
          rfl
        rw [hState] at hCounts ⊢
        refine (hFresh i c hCore).tick
          ⟨hSources.cache, hSources.sizes c hMem⟩
          (hCompiled.harts c hMem).sizeKnown ?_ hCounts hTick
        intro pc ws hHas
        exact (hAfter.harts ⟨s.hart, s.jctx⟩
          (List.mem_of_getElem? hGet)).words_ne_zero hHas
      · have hPut : (m₁.put i s).harts[k]? = m₁.harts[k]? :=
          List.getElem?_set_ne hSame
        have hOld := hPut.symm.trans hGet
        have hCounts := hCounted k c' c' hOld hGet
        intro pc ws hHas
        exact (hFresh k c' hOld pc ws hHas).counted rfl hTrace
          hCounts hHas
  | device world => exact hFresh

/- In a counted run from the start, all blocks are fresh. -/
theorem Machine.CountedRun.allFresh
    (h : m.CountedRun P ts m')
    (hStart : m.StartedEmpty) :
    m'.AllFresh P := by
  induction h with
  | start =>
      intro i c hGet pc ws hHas
      rcases hStart.harts c (List.mem_of_getElem? hGet) with
        ⟨_, _, _, memsize, rfl⟩
      exact absurd hHas (JitContext.noBlock_init memsize pc ws)
  | step hBefore hNext hCounted ih =>
      have hCompiled := hBefore.run.keeps
        (fun h => h.blocksCompiled)
        (hStart.blocksCompiled P.host.slow)
      exact ih.step hCompiled hCounted hNext

/- At the start no version and no store is counted. -/
theorem Machine.StartedEmpty.told
    (h : m.StartedEmpty)
    (hTrace : m.trace = []) :
    m.Told P := by
  intro i c hGet p
  rcases h.harts c (List.mem_of_getElem? hGet) with
    ⟨_, _, _, memsize, rfl⟩
  change (0 : BitVec 64) =
    BitVec.ofNat 64 (storesTo P i p m.trace)
  rw [hTrace]
  rfl

/-
  In a run from the start in which each change of a word of a
  block of a hart comes with a store that this hart
  interprets, to the page in which the block begins, and in
  which no hart stores to a page 2^64 times, a tick that
  calls a block calls one of the words that are in RAM.
-/
theorem called_block_not_stale
    (P : Platform σ)
    (m m' : Machine σ)
    (ts : List (State σ × State σ))
    (hStart : m.StartedEmpty)
    (hTrace : m.trace = [])
    (hRun : m.CountedRun P ts m')
    (hFew : ∀ i p, storesTo P i p m'.trace < 2 ^ 64)
    (i : Nat)
    (c : HartCore)
    (hCore : m'.harts[i]? = some c)
    (f : JitFunction)
    (hEntry : (m'.state i c).preTick.jitEntry = some f)
    (hCurrent :
      (m'.state i c).preTick.isCurrent f = true) :
    f.pc = (m'.state i c).preTick.hart.pc ∧
      f.instSize = BitVec.ofNat 16 (4 * f.words.length) ∧
      ∀ k (hk : k < f.words.length),
        (m'.state i c).WordFrom P
          (f.pc + BitVec.ofNat 64 (4 * k)) f.words[k] := by
  have hMem := List.mem_of_getElem? hCore
  have hTidy := (hRun.run.keeps (fun h => h.blocksTidy)
    hStart.blocksTidy).harts c hMem
  have hCompiles := (hRun.run.keeps
    (fun h => h.blocksCompiled)
    (hStart.blocksCompiled P.host.slow)).harts c hMem
  unfold State.jitEntry at hEntry
  unfold State.isCurrent at hCurrent
  dsimp only at hEntry
  rw [State.preTick_jctx] at hEntry hCurrent
  split at hEntry
  case isFalse => cases hEntry
  case isTrue hFound =>
    cases hEntry
    rcases hCompiles.entries _ hFound.2.1 with ⟨es, hFrom⟩
    refine ⟨hFound.2.2.1, hFrom.size.trans ?_, ?_⟩
    · have hLength := congrArg List.length hFrom.words
      rw [List.length_map] at hLength
      rw [← hLength]
      rfl
    · -- no entry has a version, so that of the page is zero
      have hZero : (m'.state i c).jctx.pageVerionBitmap
          (pageIndex (m'.state i c).preTick.hart.pc) = 0 := by
        rw [← beq_iff_eq.mp hCurrent]
        exact hTidy.jctx.version _
      rw [← hFound.2.2.1] at hZero
      have hTold := hRun.run.told (hStart.told hTrace) i c hCore
      have hNone := hTold.none (hFew i _) hZero
      exact hRun.allFresh hStart i c hCore _ _
        (Or.inl ⟨_, hFound.2.1, rfl, rfl⟩) hNone

end RiscvEm

------------------------------------------------------------
-- Computed Runs
------------------------------------------------------------

namespace RiscvEm

variable {σ : Type}
variable {P : Platform σ}
variable {s s' : State σ}

/- Nothing has to be counted where no word changes. -/
theorem State.ChangesCounted.of_mem
    (hMem : s'.mem = s.mem) :
    s.ChangesCounted P s' := by
  intro pc ws _ i _ _ hChanged
  apply absurd _ hChanged
  unfold State.codeWord State.readDramFast
  rw [hMem]

/- A tick that begins no block leaves none. -/
theorem State.tick_noBlock
    (hSources : s.PcSources)
    (hSizes : s.jctx.SizeKnown)
    (hNone : s.jctx.NoBlock)
    (hIdle : s'.jctx.blockC = false)
    (h : s.tick P = .ok s') :
    s'.jctx.NoBlock := by
  intro pc ws hHas
  rcases State.tick_blocks hSources hSizes h hHas with
    hOld | ⟨hC, -⟩
  · exact hNone pc ws hOld
  · rw [hIdle] at hC
    cases hC

/- The next tick interprets one of these instructions. -/
def State.interpretsOp
    (P : Platform σ)
    (ops : List Op)
    (s : State σ) : Bool :=
  !s.preTick.hart.WFI && s.preTick.jitEntry.isNone &&
    ops.any (fun op => s.atFetch.evalNext P == some op)

/- The one that the search finds is executed. -/
theorem State.interpretsOp_spec
    {ops : List Op}
    (h : s.interpretsOp P ops = true) :
    s.Interprets ∧ ∃ i d b, Executes P s.atFetch i d b ∧
      i.func ∈ ops := by
  unfold interpretsOp at h
  simp only [Bool.and_eq_true, Bool.not_eq_true',
    Option.isNone_iff_eq_none, List.any_eq_true,
    beq_iff_eq] at h
  rcases h with ⟨⟨hAwake, hNone⟩, op, hOp, hNext⟩
  refine ⟨⟨hAwake, hNone⟩, ?_⟩
  unfold evalNext at hNext
  rcases Option.bind_eq_some_iff.mp hNext with
    ⟨⟨m, val, s₁⟩, hRead, hFound⟩
  rcases Option.map_eq_some_iff.mp hFound with
    ⟨i, hSel, rfl⟩
  rw [← decodeInst_eq_evalDecode] at hSel
  exact ⟨i, _, _, .mk (toOption_eq_some.mp hRead) hSel, hOp⟩

/- `addi` and `jal` change no word. -/
theorem State.changesCounted_of_plain
    (hPlain : s.interpretsOp P [.ADDI, .JAL] = true)
    (h : s.tick P = .ok s') :
    s.ChangesCounted P s' := by
  rcases interpretsOp_spec hPlain with
    ⟨hInt, i, d, b, hNext, hOp⟩
  have hCsr : ∀ (s : State σ) n v,
      (s.setCsr n v).mem = s.mem := by
    intro s n v
    rw [(OnlyCsrs.setCsr s n v).rest]
  rw [hInt.tick_eq] at h
  rcases interpret_cases h with ⟨m, val, s₁, hRead, hRun⟩
  cases hNext with
  | mk hRead' hSel =>
      cases hRead'.symm.trans hRead
      have hMem : s₁.mem = s.mem := by
        rw [State.mmioRead_frame hRead]
        exact s.preTick_mem
      have hFetch : (s₁.afterFetch m).mem = s₁.mem := by
        unfold afterFetch
        split <;> rfl
      rcases runEntry_cases hRun with
        ⟨hNone, -⟩ | ⟨i', out, s₂, hSel', hExec, hEnd⟩
      · rw [hNone] at hSel
        cases hSel
      · cases hSel'.symm.trans hSel
        have hDone : s₂.mem = (s₁.afterFetch m).mem := by
          rcases List.mem_pair.mp hOp with hAdd | hJump
          · rw [hAdd] at hExec
            cases hExec
            rfl
          · rw [hJump] at hExec
            change execJump _ _ _ = .ok _ at hExec
            unfold execJump at hExec
            split at hExec
            all_goals cases hExec
            all_goals rfl
        apply ChangesCounted.of_mem
        rw [← hMem, ← hFetch, ← hDone]
        rcases hEnd with ⟨-, rfl⟩ | ⟨-, j, -, rfl⟩
        · rfl
        · exact hCsr _ _ _

/-
  Computed ticks with something before each of them, from
  which it follows that the changes are counted.
-/
theorem countedRun_of_evalTicksKeeping
    {p : State σ → Bool}
    {Q : State σ → Prop}
    (hCounts : ∀ s s' : State σ, s.PcSources →
      s.jctx.SizeKnown → Q s → p s = true →
        s.tick P = .ok s' → s.ChangesCounted P s' ∧ Q s')
    (n : Nat)
    {m : Machine σ}
    {ts : List (State σ × State σ)}
    (hStart : m.StartedEmpty)
    (hRun : m.CountedRun P ts (.single s))
    (hQ : Q s)
    (hSelf : s.self = 0)
    (h : State.evalTicksKeeping P p n s = some s') :
    (∃ ts', m.CountedRun P ts' (.single s')) ∧ Q s' ∧
      s'.self = 0 := by
  induction n generalizing s ts with
  | zero =>
      cases h
      exact ⟨⟨ts, hRun⟩, hQ, hSelf⟩
  | succ n ih =>
      unfold State.evalTicksKeeping at h
      split at h
      case isFalse => cases h
      case isTrue hHolds =>
        rcases Option.bind_eq_some_iff.mp h with
          ⟨s₁, hTick, hRest⟩
        rw [toOption_eq_some, ← State.tick_eq_evalTick]
          at hTick
        have hCompiled := hRun.run.keeps
          (fun h => h.blocksCompiled)
          (hStart.blocksCompiled P.host.slow)
        have hMem : (⟨s.hart, s.jctx⟩ : HartCore) ∈
            (Machine.single s).harts := List.mem_cons_self
        rcases hCounts s s₁
          ⟨hCompiled.sources.cache,
            hCompiled.sources.sizes _ hMem⟩
          (hCompiled.harts _ hMem).sizeKnown hQ hHolds hTick
          with ⟨hOne, hQ'⟩
        have hSelf' := (State.tick_self hTick).trans hSelf
        have hCounted : (Machine.single s).ChangesCounted P
            (.single s₁) := by
          intro k c c' hCore hCore'
          rcases List.getElem?_eq_some_iff.mp hCore with
            ⟨hLt, rfl⟩
          rcases List.getElem?_eq_some_iff.mp hCore' with
            ⟨hLt', rfl⟩
          cases Nat.lt_one_iff.mp hLt
          change ((Machine.single s).state 0
            ⟨s.hart, s.jctx⟩).ChangesCounted P
              ((Machine.single s₁).state 0 ⟨s₁.hart, s₁.jctx⟩)
          rw [Machine.state_single hSelf,
            Machine.state_single hSelf']
          exact hOne
        exact ih (hRun.step (.of_tick hSelf hTick) hCounted)
          hQ' hSelf' hRest

/-
  A store to the next page, before a loop that is compiled.
-/
def storedAwayProgram : List (BitVec 32) :=
  [0x00001297, -- auipc x5, 1
   0x0052A023, -- sw x5, 0(x5)
   0x00108093, -- addi x1, x1, 1
   0xFFDFF06F] -- jal x0, -4

/- The next tick leaves no block under construction. -/
def State.beginsNone
    (s : State Unit) : Bool :=
  (s.evalTick Platform.bare).toOption.map (·.jctx.blockC) ==
    some false

/- The block of the loop, and the stores before its call. -/
def storedAwayBlock : Option
    (BitVec 64 × List (BitVec 32) × List Event) := do
  let s ← State.evalTicksKeeping Platform.bare
    State.beginsNone 2 (State.boot storedAwayProgram)
  let s ← State.evalTicksKeeping Platform.bare
    (State.interpretsOp Platform.bare [.ADDI, .JAL]) 202 s
  let f ← s.calledBlock
  some (f.pc, f.words, s.trace)

/- The block of the loop is of the word in RAM. -/
theorem called_block_not_stale_stored :
    ∃ ts s f,
      (Machine.single (State.boot storedAwayProgram)).CountedRun
        Platform.bare ts (.single s) ∧
      s.trace = [.store 0 .mmio 0x80001000 4] ∧
      s.preTick.jitEntry = some f ∧
      f.words = [0x00108093] ∧
      s.codeWord 0x80000008 = .ok 0x00108093 := by
  have hBlock : storedAwayBlock = some (0x80000008,
      [0x00108093], [.store 0 .mmio 0x80001000 4]) := by
    decide +kernel
  rcases Option.bind_eq_some_iff.mp hBlock with
    ⟨s₁, hBefore, hRest⟩
  rcases Option.bind_eq_some_iff.mp hRest with
    ⟨s, hTicks, hRest⟩
  rcases Option.bind_eq_some_iff.mp hRest with
    ⟨f, hCalled, hEnd⟩
  have hStart := startedEmpty_single_boot storedAwayProgram
  have hBegins : ∀ s s' : State Unit, s.PcSources →
      s.jctx.SizeKnown → s.jctx.NoBlock →
        s.beginsNone = true → s.tick Platform.bare = .ok s' →
          s.ChangesCounted Platform.bare s' ∧
            s'.jctx.NoBlock := by
    intro s s' hSources hSizes hNone hBegins hTick
    have hIdle : s'.jctx.blockC = false := by
      unfold State.beginsNone at hBegins
      rw [← State.tick_eq_evalTick, hTick] at hBegins
      exact Option.some.inj (beq_iff_eq.mp hBegins)
    have hNone' := State.tick_noBlock hSources hSizes hNone
      hIdle hTick
    exact ⟨fun pc ws hHas => absurd hHas (hNone' pc ws), hNone'⟩
  rcases countedRun_of_evalTicksKeeping hBegins 2 hStart .start
    (JitContext.noBlock_init _) rfl hBefore with
    ⟨⟨ts₁, hRun₁⟩, -, hSelf₁⟩
  rcases countedRun_of_evalTicksKeeping (Q := fun _ => True)
    (fun s s' _ _ _ hPlain hTick =>
      ⟨State.changesCounted_of_plain hPlain hTick, trivial⟩)
    202 hStart hRun₁ trivial hSelf₁ hTicks with
    ⟨⟨ts, hRun⟩, -, hSelf⟩
  rcases Prod.mk.inj (Option.some.inj hEnd) with ⟨hPc, hMore⟩
  rcases Prod.mk.inj hMore with ⟨hWords, hTrace⟩
  rcases State.calledBlock_spec hCalled with
    ⟨-, hEntry, hCurrent⟩
  have hFew : ∀ i p, storesTo Platform.bare i p
      (Machine.single s).trace < 2 ^ 64 := by
    intro i p
    change storesTo Platform.bare i p s.trace < _
    rw [hTrace]
    exact Nat.lt_of_le_of_lt List.countP_le_length (by decide)
  have hState := Machine.state_single hSelf
  have hFresh := called_block_not_stale Platform.bare _ _ ts
    hStart rfl hRun hFew 0 ⟨s.hart, s.jctx⟩ rfl f
    (by rw [hState]; exact hEntry)
    (by rw [hState]; exact hCurrent)
  have hLength : 0 < f.words.length := by
    rw [hWords]
    decide
  have hWord := hFresh.2.2 0 hLength
  have hRam : takesDram Platform.bare 0x80000008 .Int := by
    decide
  rw [hState, hPc] at hWord
  have hCode := (if_pos hRam).mp hWord
  have hFirst : f.words[0] = 0x00108093 := by
    simp only [hWords, List.getElem_cons_zero]
  rw [hFirst] at hCode
  exact ⟨ts, s, f, hRun, hTrace, hEntry, hWords, hCode⟩

/-
  A loop at 0x80000040 is compiled, called, zeroed by
  `cbo.zero` and jumped to after a `fence.i`.
-/
def zeroedLoopProgram : List (BitVec 32) :=
  [0x06500113, -- addi x2, x0, 101
   0x03C0006F] -- jal x0, 60
  ++ List.replicate 14 0 ++
  [0x00108093, -- addi x1, x1, 1
   0xFE209EE3, -- bne x1, x2, -4
   0x0380006F] -- jal x0, 56
  ++ List.replicate 13 0 ++
  [0x00000297, -- auipc x5, 0
   0xFC028293, -- addi x5, x5, -64
   0x0042A00F, -- cbo.zero (x5)
   0x0000100F, -- fence.i
   0x00028067] -- jalr x0, 0(x5)

/- The last ticks, and what is called after them. -/
def zeroedLoopBlock : Option
    (State Unit × State Unit × State Unit × JitFunction) := do
  let s₁ ← (State.evalTicks Platform.bare 208
    (State.boot zeroedLoopProgram)).toOption
  let s₂ ← (s₁.evalTick Platform.bare).toOption
  let s₃ ← (s₂.evalTick Platform.bare).toOption
  let f ← s₃.calledBlock
  some (s₁, s₂, s₃, f)

/- What the counterexample says of them. -/
def zeroedLoopChecks : Bool :=
  match zeroedLoopBlock with
  | some (s₁, s₂, s₃, f) =>
      s₁.interpretsOp Platform.bare [.FENCE_I] &&
        [s₁, s₂, s₃].all (fun s =>
          (s.codeWord 0x80000040).toOption == some 0) &&
        f.pc == 0x80000040 && f.words == [0x00108093] &&
        (s₃.evalTick Platform.bare).toOption.map (·.gpr 1) ==
          some (s₃.gpr 1 + 1)
  | none => false

/-
  The word at 0x80000040 is zero before the `fence.i`, after
  it and when the block of the word that was there is called,
  which adds one to `x1`.
-/
theorem stale_block_called :
    ∃ ts s₁ s₂ s₃ s₄ f,
      (Machine.single (State.boot zeroedLoopProgram)).Run
        Platform.bare ((s₃, s₄) :: (s₂, s₃) :: (s₁, s₂) :: ts)
        (.single s₄) ∧
      (s₁.Interprets ∧ ∃ i d b,
        Executes Platform.bare s₁.atFetch i d b ∧
          i.func = .FENCE_I) ∧
      (∀ s ∈ [s₁, s₂, s₃], s.codeWord 0x80000040 = .ok 0) ∧
      s₃.preTick.hart.WFI = false ∧
      s₃.preTick.jitEntry = some f ∧
      s₃.preTick.isCurrent f = true ∧
      f.pc = 0x80000040 ∧ f.words = [0x00108093] ∧
      s₄.gpr 1 = s₃.gpr 1 + 1 := by
  have hChecks : zeroedLoopChecks = true := by
    decide +kernel
  unfold zeroedLoopChecks at hChecks
  split at hChecks
  case h_2 => cases hChecks
  case h_1 s₁ s₂ s₃ f hBlock =>
    simp only [Bool.and_eq_true, beq_iff_eq, List.all_eq_true,
      toOption_eq_some, Option.map_eq_some_iff] at hChecks
    rcases hChecks with
      ⟨⟨⟨⟨hFence, hZero⟩, hPc⟩, hWords⟩, s₄, hLast, hSum⟩
    rcases Option.bind_eq_some_iff.mp hBlock with
      ⟨_, hTicks, hRest⟩
    rcases Option.bind_eq_some_iff.mp hRest with
      ⟨_, hTick₁, hRest⟩
    rcases Option.bind_eq_some_iff.mp hRest with
      ⟨_, hTick₂, hRest⟩
    rcases Option.bind_eq_some_iff.mp hRest with
      ⟨_, hCalled, hEnd⟩
    cases hEnd
    rw [toOption_eq_some] at hTicks hTick₁ hTick₂
    rw [← State.tick_eq_evalTick] at hTick₁ hTick₂ hLast
    rcases run_of_evalTicks 208 Machine.Run.start rfl hTicks
      with ⟨⟨ts, hRun, -⟩, hSelf₁⟩
    have hSelf₂ := (State.tick_self hTick₁).trans hSelf₁
    have hSelf₃ := (State.tick_self hTick₂).trans hSelf₂
    have hRun' := ((hRun.tick_single hSelf₁ hTick₁).tick_single
      hSelf₂ hTick₂).tick_single hSelf₃ hLast
    rcases State.interpretsOp_spec hFence with
      ⟨hInt, i, d, b, hNext, hOp⟩
    rcases State.calledBlock_spec hCalled with
      ⟨hAwake, hEntry, hCurrent⟩
    exact ⟨ts, _, _, _, _, f, hRun', ⟨hInt, i, d, b, hNext,
      List.mem_singleton.mp hOp⟩, hZero, hAwake, hEntry,
      hCurrent, hPc, hWords, hSum⟩

end RiscvEm
