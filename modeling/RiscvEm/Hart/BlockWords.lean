import RiscvEm.Hart.CalledBlocks

/-
  The words of compiled blocks against memory: each of them
  was fetched from its address by an earlier tick of the
  hart, so that a block is of the words in RAM as long as
  nothing changes these.

  Key definitions include:
    * `State.FetchesAt`
    * `JitContext.FetchedFrom`
    * `State.codeWord`

  Key theorems include:
    * `JitContext.FetchedFrom.handle`
    * `Machine.Run.words_fetched`
    * `called_block_words`
-/

------------------------------------------------------------
-- Fetched Words
------------------------------------------------------------

namespace RiscvEm

variable {σ : Type}
variable {P : Platform σ}

/- What is known of the words at addresses. -/
abbrev WordsSeen := BitVec 64 → BitVec 32 → Prop

/- The words were seen at addresses four bytes apart. -/
def WordsAt
    (seen : WordsSeen)
    (pc : BitVec 64)
    (ws : List (BitVec 32)) : Prop :=
  ∀ i (hi : i < ws.length),
    seen (pc + BitVec.ofNat 64 (4 * i)) ws[i]

/- Entries and the block under construction are of these. -/
structure JitContext.FetchedFrom
    (j : JitContext)
    (seen : WordsSeen) : Prop where
  entries : ∀ k, (j.jits k).valid = true →
    WordsAt seen (j.jits k).pc (j.jits k).words
  block : j.blockC = true →
    WordsAt seen j.block.pc j.block.words ∧
      j.block.size =
        BitVec.ofNat 64 (4 * j.block.words.length)

/- The tick of `s` interprets the word it fetches at `pc`. -/
def State.FetchesAt
    (P : Platform σ)
    (s : State σ)
    (pc : BitVec 64)
    (w : BitVec 32) : Prop :=
  s.Interprets ∧ s.preTick.hart.pc = pc ∧
    ∃ m val s₁, s.atFetch.mmioRead P pc .Int =
      .ok (m, val, s₁) ∧ val.setWidth 32 = w

/- What hart `i` fetched from RAM or above in these ticks. -/
def seenIn
    (P : Platform σ)
    (ts : List (State σ × State σ))
    (i : Nat) : WordsSeen :=
  fun pc w => ¬ pc < 0x80000000 ∧
    ∃ t ∈ ts, t.1.self = i ∧ t.1.FetchesAt P pc w

/- Words that were seen stay seen. -/
theorem seenIn_mono
    {ts ts' : List (State σ × State σ)}
    (hSub : ts ⊆ ts')
    {i : Nat}
    {pc : BitVec 64}
    {w : BitVec 32}
    (h : seenIn P ts i pc w) :
    seenIn P ts' i pc w := by
  rcases h with ⟨hRam, t, hMem, hTick⟩
  exact ⟨hRam, t, hSub hMem, hTick⟩

namespace WordsAt

variable {seen seen' : WordsSeen}
variable {pc : BitVec 64}
variable {ws : List (BitVec 32)}
variable {w : BitVec 32}

/- An empty list of words has been seen. -/
theorem nil
    (seen : WordsSeen)
    (pc : BitVec 64) :
    WordsAt seen pc [] := by
  intro i hi
  cases hi

/- Words stay fetched when more is seen. -/
theorem mono
    (h : WordsAt seen pc ws)
    (hSeen : ∀ pc w, seen pc w → seen' pc w) :
    WordsAt seen' pc ws :=
  fun i hi => hSeen _ _ (h i hi)

/- The next word lies behind the others. -/
theorem snoc
    (h : WordsAt seen pc ws)
    (hw : seen (pc + BitVec.ofNat 64 (4 * ws.length)) w) :
    WordsAt seen pc (ws ++ [w]) := by
  intro i hi
  by_cases hOld : i < ws.length
  · rw [List.getElem_append_left hOld]
    exact h i hOld
  · rw [List.length_append, List.length_singleton] at hi
    cases (show i = ws.length by omega)
    rw [List.getElem_concat_length rfl]
    exact hw

end WordsAt

end RiscvEm

------------------------------------------------------------
-- What Handling Adds
------------------------------------------------------------

namespace RiscvEm

open JitContext

variable {j j' : JitContext}
variable {host : HostCode}
variable {cache : InstructionCache}
variable {inst : Instruction}
variable {template : JitTemplate}
variable {pc : BitVec 64}
variable {seen seen' : WordsSeen}

/-
  A generation that ends leaves no block under construction.
-/
theorem endBlockGen_idle
    (h : j.endBlockGen host pc = .ok j') :
    j'.blockC = false := by
  rcases endBlockGen_cases h with ⟨-, hEq⟩ | ⟨-, hEq⟩
  · rw [hEq]
  · rcases compile_frame j host with
      ⟨blk, arena, used, -, hFrame⟩
    rw [hEq, hFrame]

/- A block grows only by the instruction behind it, in RAM. -/
theorem handle_grows
    (hBuilding : j.blockC = true)
    (hStill : j'.blockC = true)
    (hBlock : j'.block ≠ j.block)
    (h : j.handleInstruction host cache inst pc = .ok j') :
    ¬ pc < 0x80000000 ∧
      pc = j.block.pc + j.block.size := by
  have hEnded : ∀ hits, endBlockGen
      { j with pcHits := hits } host pc ≠ .ok j' := by
    intro hits hEnd
    rw [endBlockGen_idle hEnd] at hStill
    cases hStill
  unfold handleInstruction at h
  dsimp only at h
  split at h
  case isTrue =>
    cases h
    exact absurd rfl hBlock
  case isFalse hRam =>
    split at h
    · cases h
      exact absurd rfl hBlock
    · split at h
      · cases h
      · rw [hitPage_setHitPage] at h
        split at h
        · cases h
          exact absurd rfl hBlock
        · rw [if_pos (show (j.setHitPage (pageIndex pc)
            (j.hitPage (pageIndex pc))).blockC = true
              from hBuilding)] at h
          split at h
          · exact absurd h (hEnded _)
          · split at h
            · exact absurd h (hEnded _)
            · rename_i hMore
              exact ⟨hRam, not_not.mp (not_or.mp hMore).2⟩

/- An instruction with a template adds its word. -/
theorem emitInstruction_adds
    (hTable : conversionTbl host.slow inst.func =
      some template)
    (h : j.emitInstruction template cache inst = .ok j') :
    j'.blockC = j.blockC ∧ j'.jits = j.jits ∧
      j'.block.pc = j.block.pc ∧
      j'.block.words = j.block.words ++ [cache.instRaw] ∧
      j'.block.size =
        j.block.size + inst.size.setWidth 64 := by
  rcases emitInstruction_cases
    (conversionTbl_isTemplate hTable) h with
    ⟨em, blk, hOnly, rfl⟩
  dsimp only
  rw [hOnly.pc, hOnly.words, hOnly.size]
  exact ⟨rfl, rfl, rfl, rfl, rfl⟩

/- The block after one more word that was seen behind it. -/
theorem wordsAt_emitInstruction
    (hBlock : WordsAt seen j.block.pc j.block.words ∧
      j.block.size =
        BitVec.ofNat 64 (4 * j.block.words.length))
    (hTable : conversionTbl host.slow inst.func =
      some template)
    (hSize : inst.size = 4)
    (hSeen : seen (j.block.pc + j.block.size) cache.instRaw)
    (h : j.emitInstruction template cache inst = .ok j') :
    WordsAt seen j'.block.pc j'.block.words ∧
      j'.block.size =
        BitVec.ofNat 64 (4 * j'.block.words.length) := by
  rcases emitInstruction_adds hTable h with
    ⟨-, -, hPc, hWords, hGrown⟩
  rw [hPc, hWords, hGrown]
  constructor
  · apply hBlock.1.snoc
    rw [← hBlock.2]
    exact hSeen
  · rw [hBlock.2, hSize, List.length_append,
      List.length_singleton]
    apply BitVec.eq_of_toNat_eq
    simp [Nat.mul_add]

namespace JitContext.FetchedFrom

/- A new context has no block. -/
theorem init
    (seen : WordsSeen)
    (memorySize : BitVec 64) :
    (JitContext.init memorySize).FetchedFrom seen :=
  ⟨nofun, nofun⟩

/- Blocks stay fetched when more is seen. -/
theorem mono
    (hj : j.FetchedFrom seen)
    (hSeen : ∀ pc w, seen pc w → seen' pc w) :
    j.FetchedFrom seen' :=
  ⟨fun k hValid => (hj.entries k hValid).mono hSeen,
    fun hC => ⟨(hj.block hC).1.mono hSeen, (hj.block hC).2⟩⟩

/- A state with the same blocks has them fetched, too. -/
theorem of_eq
    (hj : j.FetchedFrom seen)
    (hJits : j'.jits = j.jits)
    (hBlock : j'.block = j.block)
    (hBuilding : j'.blockC = true → j.blockC = true) :
    j'.FetchedFrom seen := by
  constructor
  · rw [hJits]
    exact hj.entries
  · intro hC
    rw [hBlock]
    exact hj.block (hBuilding hC)

/- Stopping a block keeps the others fetched. -/
theorem stopBlock
    (hj : j.FetchedFrom seen) :
    j.stopBlock.FetchedFrom seen :=
  hj.of_eq rfl rfl nofun

/- Storing a fetched block keeps all of them fetched. -/
theorem setEntry
    (hj : j.FetchedFrom seen)
    (k : BitVec 20)
    {f : JitFunction}
    (hFunc : f.valid = true → WordsAt seen f.pc f.words)
    (hJits : j'.jits = Function.update j.jits k f)
    (hBlock : j'.blockC = true →
      WordsAt seen j'.block.pc j'.block.words ∧
        j'.block.size =
          BitVec.ofNat 64 (4 * j'.block.words.length)) :
    j'.FetchedFrom seen := by
  refine ⟨?_, hBlock⟩
  rw [hJits]
  exact (Function.forall_update_iff j.jits
    (fun _ f => f.valid = true →
      WordsAt seen f.pc f.words)).mpr
    ⟨hFunc, fun i _ => hj.entries i⟩

/- The instruction that was executed at `pc` was seen there. -/
theorem handle
    (hj : j.FetchedFrom seen)
    (hSize : ∀ template, conversionTbl host.slow inst.func =
      some template → inst.size = 4)
    (hSeen : ¬ pc < 0x80000000 → seen pc cache.instRaw)
    (h : j.handleInstruction host cache inst pc = .ok j') :
    j'.FetchedFrom seen := by
  have hGrows := fun hBuilding hStill hBlock =>
    handle_grows hBuilding hStill hBlock h
  have hBranch := branch_of_handle j host cache inst pc
  rw [h] at hBranch
  generalize hOut : (Except.ok j' : Except HostFault _) = out
    at hBranch
  cases hBranch with
  | kept hits =>
      cases hOut
      exact hj.of_eq rfl rfl id
  | noPage => cases hOut
  | ended hits hBuilding hEnds =>
      rcases endBlockGen_cases hOut.symm with
        ⟨-, hEq⟩ | ⟨-, hEq⟩
      · rw [hEq]
        exact hj.of_eq rfl rfl nofun
      · rcases compile_frame { j with pcHits := hits } host with
          ⟨blk, arena, used, -, hFrame⟩
        rw [entry_hits, hFrame] at hEq
        rw [hEq]
        exact hj.setEntry (jitIndex j.block.pc)
          (f := j.entry host) (fun _ => (hj.block hBuilding).1)
          rfl nofun
  | grown hits hBuilding hFew hTable =>
      rcases bind_eq_ok.mp hOut.symm with ⟨j₁, hEmit, hDone⟩
      rcases emitInstruction_adds hTable hEmit with
        ⟨hC, hJits, -, hWords, -⟩
      have hBuilding₁ : j₁.blockC = true := hC.trans hBuilding
      cases hDone
      have hNe : j₁.block ≠ j.block := by
        intro hSame
        have hLength := congrArg List.length hWords
        rw [hSame, List.length_append] at hLength
        simp at hLength
      rcases hGrows hBuilding hBuilding₁ hNe with ⟨hRam, hPc⟩
      have hNext := wordsAt_emitInstruction
        (j := { j with pcHits := hits }) (hj.block hBuilding)
        hTable (hSize _ hTable) (hPc ▸ hSeen hRam) hEmit
      refine ⟨?_, fun _ => hNext⟩
      have hSame : (j₁.markIgnored pc).jits = j.jits := hJits
      rw [hSame]
      exact hj.entries
  | begun hits hRam hTable =>
      rcases bind_eq_ok.mp hOut.symm with ⟨j₁, hEmit, hDone⟩
      rcases emitInstruction_adds hTable hEmit with
        ⟨-, hJits, -, -, -⟩
      cases hDone
      have hStart : pc = pc + (0 : BitVec 64) := by simp
      have hNext := wordsAt_emitInstruction
        ⟨WordsAt.nil seen pc, rfl⟩ hTable (hSize _ hTable)
        (hStart ▸ hSeen hRam) hEmit
      refine ⟨?_, fun _ => hNext⟩
      have hSame : (j₁.markIgnored pc).jits = j.jits := hJits
      rw [hSame]
      exact hj.entries

end JitContext.FetchedFrom

end RiscvEm

------------------------------------------------------------
-- Ticks
------------------------------------------------------------

namespace RiscvEm

variable {σ : Type}
variable {P : Platform σ}
variable {s s' : State σ}
variable {seen : WordsSeen}

/- Executing does not touch the blocks. -/
theorem ExecKept.fetchedFrom
    (h : ExecKept s s')
    (hj : s.jctx.FetchedFrom seen) :
    s'.jctx.FetchedFrom seen := by
  rw [h.jctx]
  exact hj.of_eq rfl rfl id

namespace State

/- A decoded entry adds its own word at most. -/
theorem runEntry_fetchedFrom
    (hs : s.jctx.FetchedFrom seen)
    {entry : InstructionCache}
    {w : BitVec 32}
    {pc : BitVec 64}
    (hEntry : ∀ i, entry.selected = some i → i ∈ allInstrs)
    (hSeen : ¬ pc < 0x80000000 → seen pc entry.instRaw)
    (h : s.runEntry P entry w pc = .ok s') :
    s'.jctx.FetchedFrom seen := by
  rcases runEntry_cases h with
    ⟨-, rfl⟩ | ⟨i, out, s₁, hSel, hExec, hEnd⟩
  · exact hs.stopBlock
  · have hDone := (ExecKept.exec i.func hExec).fetchedFrom hs
    rcases hEnd with ⟨-, rfl⟩ | ⟨-, j, hHandle, rfl⟩
    · exact hDone.stopBlock
    · exact JitContext.FetchedFrom.handle hDone
        (fun _ hTable => size_of_hasTemplate i (hEntry i hSel)
          (hasTemplate_of_conversionTbl hTable)) hSeen hHandle

/- The decoded entry has the word decoded. -/
theorem decode_instRaw
    (s : State σ)
    (hCache : s.cache.Sound decoder)
    (w : BitVec 32) :
    (s.decode w).1.instRaw = w := by
  rw [s.decode_selected hCache]
  cases bestMatch w with
  | none => rfl
  | some i => rfl

/- A tick adds the word that it fetched, if any. -/
theorem tick_fetchedFrom
    (hSources : s.PcSources)
    (hs : s.jctx.FetchedFrom seen)
    (hSeen : ∀ pc w, ¬ pc < 0x80000000 →
      s.FetchesAt P pc w → seen pc w)
    (h : s.tick P = .ok s') :
    s'.jctx.FetchedFrom seen := by
  have hPre := (ExecKept.preTick s).fetchedFrom hs
  rcases tick_cases h with
    ⟨b, rfl⟩ | ⟨f, -, -, hCall⟩ | ⟨f, -, rfl⟩ |
    ⟨hInt, hTick⟩
  · exact hPre
  · exact (ExecKept.callBlock hCall).fetchedFrom hPre
  · exact hPre.setEntry (jitIndex s.preTick.hart.pc)
      (f := { f with valid := false }) nofun rfl hPre.block
  · rcases interpret_cases hTick with ⟨m, val, s₁, hRead, hRun⟩
    have hStart : s.atFetch.PcSources :=
      hSources.preTick.of_eq rfl rfl
    have hSound := (hStart.mmioRead hRead).afterFetch m
    refine runEntry_fetchedFrom
      ((ExecKept.fetched hRead).fetchedFrom hs)
      (fun i hSel => (hSound.selected hSel).1) ?_ hRun
    intro hRam
    rw [decode_instRaw _ hSound.cache]
    exact hSeen _ _ hRam
      ⟨hInt, rfl, m, val, s₁, hRead, rfl⟩

end State

end RiscvEm

------------------------------------------------------------
-- Runs
------------------------------------------------------------

namespace RiscvEm

variable {σ : Type}
variable {P : Platform σ}
variable {m m' : Machine σ}
variable {ts : List (State σ × State σ)}

/- Each hart of a machine has compiled what it fetched. -/
def Machine.WordsFetched
    (P : Platform σ)
    (ts : List (State σ × State σ))
    (m : Machine σ) : Prop :=
  ∀ (i : Nat) (c : HartCore), m.harts[i]? = some c →
    c.jctx.FetchedFrom (seenIn P ts i)

/- A step of any hart keeps the blocks fetched. -/
theorem Machine.Step.wordsFetched
    {t : Option (State σ × State σ)}
    (h : Machine.Step P m t m')
    (hSources : m.PcSources)
    (hm : m.WordsFetched P ts) :
    m'.WordsFetched P (t.toList ++ ts) := by
  have hMono : ∀ {i pc w}, seenIn P ts i pc w →
      seenIn P (t.toList ++ ts) i pc w := fun hOld =>
    seenIn_mono (List.subset_append_right _ ts) hOld
  cases h with
  | @tick i c s hCore hTick =>
      have hBefore : (m.state i c).PcSources :=
        ⟨hSources.cache,
          hSources.sizes c (List.mem_of_getElem? hCore)⟩
      have hDone : s.jctx.FetchedFrom
          (seenIn P ([(m.state i c, s)] ++ ts) i) := by
        refine State.tick_fetchedFrom hBefore
          ((hm i c hCore).mono fun _ _ hOld => hMono hOld) ?_
          hTick
        intro pc w hRam hFetch
        exact ⟨hRam, _, List.mem_cons_self, rfl, hFetch⟩
      intro k c' hGet
      by_cases hSame : i = k
      · subst hSame
        have hPut : (m.put i s).harts[i]? =
            some ⟨s.hart, s.jctx⟩ := by
          have hLt := List.getElem?_eq_some_iff.mp hCore
          exact List.getElem?_set_self hLt.1
        cases hPut.symm.trans hGet
        exact hDone
      · have hPut : (m.put i s).harts[k]? = m.harts[k]? :=
          List.getElem?_set_ne hSame
        rw [hPut] at hGet
        exact (hm k c' hGet).mono fun _ _ hOld => hMono hOld
  | device world => exact hm

/-
  In a run from the start, the words that a hart has compiled
  before a tick were fetched in the ticks of the run.
-/
theorem Machine.Run.words_fetched
    (hStart : m.StartedEmpty)
    (hRun : m.Run P ts m') :
    m'.WordsFetched P ts ∧
      ∀ t ∈ ts, t.1.jctx.FetchedFrom
        (seenIn P ts t.1.self) := by
  induction hRun with
  | start =>
      refine ⟨?_, fun t hMem => absurd hMem List.not_mem_nil⟩
      intro i c hGet
      rcases hStart.harts c (List.mem_of_getElem? hGet) with
        ⟨_, _, _, memsize, rfl⟩
      exact .init _ memsize
  | @step ts t m₁ m₂ hBefore hLast ih =>
      have hSources := (hBefore.keeps
        (fun h => h.blocksTidy) hStart.blocksTidy).sources
      refine ⟨hLast.wordsFetched hSources ih.1, ?_⟩
      have hMono : ∀ {i pc w}, seenIn P ts i pc w →
          seenIn P (t.toList ++ ts) i pc w := fun hOld =>
        seenIn_mono (List.subset_append_right _ ts) hOld
      intro t' hMem
      rcases List.mem_append.mp hMem with hNew | hOld
      · cases hLast with
        | @tick i c s hCore hTick =>
            rw [List.mem_singleton.mp hNew]
            exact (ih.1 i c hCore).mono
              fun _ _ hSeen => hMono hSeen
        | device world => cases hNew
      · exact (ih.2 t' hOld).mono fun _ _ hSeen => hMono hSeen

/- The part before the dispatch leaves the memory. -/
theorem State.preTick_mem
    (s : State σ) :
    s.preTick.mem = s.mem := by
  have hCsr : ∀ s : State σ, ∀ n v,
      (s.setCsr n v).mem = s.mem := by
    intro s n v
    unfold State.setCsr
    split <;> rfl
  unfold State.preTick
  dsimp only
  split
  · unfold State.checkInts
    split
    · exact hCsr _ _ _
    · exact hCsr _ _ _
  · exact hCsr _ _ _

/- A word that is read is the low half of what is returned. -/
theorem setWidth_truncate
    (out : BitVec 64) :
    (BitVec.ofNat 64 (out.toNat % 256 ^ 4)).setWidth 32 =
      out.setWidth 32 := by
  apply BitVec.eq_of_toNat_eq
  simp only [BitVec.toNat_setWidth, BitVec.toNat_ofNat]
  omega

/- The instruction word in RAM at an address. -/
def State.codeWord
    (s : State σ)
    (pc : BitVec 64) : Except HostFault (BitVec 32) := do
  let val ← s.readDramFast pc .Int
  .ok (val.setWidth 32)

/- The word is in RAM, or a device answers at its address. -/
def State.WordFrom
    (P : Platform σ)
    (s : State σ)
    (addr : BitVec 64)
    (w : BitVec 32) : Prop :=
  if takesDram P addr .Int then
    s.codeWord addr = .ok w
  else
    ∃ dev ∈ P.devs, dev.inReadWindow addr .Int = true

/- A fetch is from RAM or from a device, unless it fails. -/
theorem State.FetchesAt.wordFrom
    {s : State σ}
    {pc : BitVec 64}
    {w : BitVec 32}
    (hw : w ≠ 0)
    (h : s.FetchesAt P pc w) :
    s.WordFrom P pc w := by
  rcases h with ⟨-, -, m, val, s₁, hRead, rfl⟩
  have hMem : s.atFetch.mem = s.mem := s.preTick_mem
  unfold State.mmioRead at hRead
  unfold State.WordFrom
  split at hRead
  case isTrue hRam =>
    rw [if_pos hRam]
    rcases bind_eq_ok.mp hRead with ⟨out, hOut, hEq⟩
    cases hEq
    have hSame : s.readDramFast pc .Int = .ok out := by
      unfold State.readDramFast at hOut ⊢
      rw [← hMem]
      exact hOut
    unfold State.codeWord
    rw [hSame]
    exact congrArg Except.ok (setWidth_truncate out).symm
  case isFalse hRam =>
    rw [if_neg hRam]
    split at hRead
    · rename_i dev hFind
      exact ⟨dev, List.mem_of_find?_eq_some hFind,
        @List.find?_some (Device σ)
          (·.inReadWindow pc .Int) _ _ hFind⟩
    · cases hRead
      exact absurd rfl hw

/- With no device above the base of RAM it is from RAM. -/
theorem State.FetchesAt.codeWord
    {s : State σ}
    {pc : BitVec 64}
    {w : BitVec 32}
    (hDevs : ∀ dev ∈ P.devs, ∀ a,
      dev.inReadWindow a .Int = true → a < 0x80000000)
    (hRam : ¬ pc < 0x80000000)
    (hw : w ≠ 0)
    (h : s.FetchesAt P pc w) :
    s.codeWord pc = .ok w := by
  have hFrom := h.wordFrom hw
  unfold State.WordFrom at hFrom
  split at hFrom
  case isTrue => exact hFrom
  case isFalse =>
    rcases hFrom with ⟨dev, hMem, hIn⟩
    exact absurd (hDevs dev hMem pc hIn) hRam

end RiscvEm

------------------------------------------------------------
-- Called Blocks
------------------------------------------------------------

namespace RiscvEm

variable {σ : Type}
variable {P : Platform σ}

/- The word zero is a compressed instruction. -/
theorem Emission.Decoded.ne_zero
    {e : Emission}
    (h : e.Decoded)
    {slow : SlowFuncs}
    (hTemplate : ∃ template,
      conversionTbl slow e.op = some template) :
    e.data.inst ≠ 0 := by
  intro hZero
  rcases h with ⟨i, hBest, hFunc, -⟩
  rcases hTemplate with ⟨template, hTable⟩
  have hSmall := bestMatch_zero
  rw [hZero] at hBest
  rw [hBest] at hSmall
  have hShort : i.func = .C_ADDI4SPN := Option.some.inj hSmall
  have hOp := hasTemplate_of_conversionTbl hTable
  rw [← hFunc, hShort] at hOp
  exact absurd hOp (by decide)

/- Recorded words are not zero. -/
theorem JitFunction.EmittedFrom.words_ne_zero
    {f : JitFunction}
    {slow : SlowFuncs}
    {es : List Emission}
    (h : f.EmittedFrom slow es) :
    ∀ w ∈ f.words, w ≠ 0 := by
  rcases h.code with ⟨em, blk, hEmitted, -⟩
  intro w hMem
  rw [h.words] at hMem
  rcases List.mem_map.mp hMem with ⟨e, he, rfl⟩
  exact (h.decoded e he).ne_zero (hEmitted.template e he)

/-
  In a run from the start, with no device above the base of
  RAM, a hart that finds a block finds in RAM the words that
  the block was compiled from, provided that these words were
  the same before each of its ticks.
-/
theorem called_block_words
    (P : Platform σ)
    (m m' : Machine σ)
    (ts : List (State σ × State σ))
    (hStart : m.StartedEmpty)
    (hRun : m.Run P ts m')
    (hDevs : ∀ dev ∈ P.devs, ∀ a,
      dev.inReadWindow a .Int = true → a < 0x80000000)
    (t : State σ × State σ)
    (hMem : t ∈ ts)
    (f : JitFunction)
    (hEntry : t.1.preTick.jitEntry = some f)
    (hSame : ∀ t' ∈ ts, t'.1.self = t.1.self →
      ∀ i < f.words.length,
        t'.1.codeWord (f.pc + BitVec.ofNat 64 (4 * i)) =
          t.1.codeWord (f.pc + BitVec.ofNat 64 (4 * i))) :
    ∀ i (hi : i < f.words.length),
      t.1.codeWord (f.pc + BitVec.ofNat 64 (4 * i)) =
        .ok f.words[i] := by
  intro i hi
  rcases hRun.entry_emitted hStart hMem hEntry with
    ⟨-, es, hFrom⟩
  have hFetched := (hRun.words_fetched hStart).2 t hMem
  unfold State.jitEntry at hEntry
  dsimp only at hEntry
  rw [t.1.preTick_jctx] at hEntry
  split at hEntry
  case isFalse => cases hEntry
  case isTrue hFound =>
    cases hEntry
    rcases hFetched.entries _ hFound.2.1 i hi with
      ⟨hRam, t', hOld, hSelf, hFetch⟩
    rw [← hSame t' hOld hSelf i hi]
    exact hFetch.codeWord hDevs hRam
      (hFrom.words_ne_zero _ (List.getElem_mem hi))

/- Computed ticks, with `p` before each of them. -/
def State.evalTicksKeeping
    (P : Platform σ)
    (p : State σ → Bool) :
    Nat → State σ → Option (State σ)
  | 0, s => some s
  | n + 1, s =>
      if p s = true then
        (s.evalTick P).toOption >>= evalTicksKeeping P p n
      else
        none

/-
  A run of ticks that all keep something is a run of the
  machine.
-/
theorem run_of_evalTicksKeeping
    {p : State σ → Bool}
    (n : Nat)
    {m : Machine σ}
    {ts : List (State σ × State σ)}
    {s s' : State σ}
    (hRun : m.Run P ts (.single s))
    (hKept : ∀ t ∈ ts, p t.1 = true)
    (hSelf : s.self = 0)
    (h : State.evalTicksKeeping P p n s = some s') :
    (∃ ts', m.Run P ts' (.single s') ∧
        ∀ t ∈ ts', p t.1 = true) ∧
      s'.self = 0 := by
  induction n generalizing s ts with
  | zero =>
      cases h
      exact ⟨⟨ts, hRun, hKept⟩, hSelf⟩
  | succ n ih =>
      unfold State.evalTicksKeeping at h
      split at h
      case isFalse => cases h
      case isTrue hHolds =>
        rcases Option.bind_eq_some_iff.mp h with
          ⟨s₁, hTick, hRest⟩
        rw [toOption_eq_some, ← State.tick_eq_evalTick]
          at hTick
        refine ih (hRun.tick_single hSelf hTick) ?_
          ((State.tick_self hTick).trans hSelf) hRest
        intro t hMem
        rcases List.mem_cons.mp hMem with rfl | hOld
        · exact hHolds
        · exact hKept t hOld

/- The first word of RAM is that of `addi x1, x1, 1`. -/
def loopWordKept
    (s : State σ) : Bool :=
  (s.codeWord 0x80000000).toOption == some 0x00108093

/- The block that is called after `n` ticks of the loop. -/
def loopBlockAfter
    (n : Nat) : Option (BitVec 64 × List (BitVec 32)) := do
  let s ← State.evalTicksKeeping Platform.bare loopWordKept n
    (State.boot loopProgram)
  let f ← s.calledBlock
  let _ ← (s.evalTick Platform.bare).toOption
  if loopWordKept s = true then
    some (f.pc, f.words)
  else
    none

/- The loop's word is where it was. -/
theorem loopWordKept_iff
    (s : State σ) :
    loopWordKept s = true ↔
      s.codeWord 0x80000000 = .ok 0x00108093 := by
  unfold loopWordKept
  rw [beq_iff_eq, toOption_eq_some]

/- The block of the loop is of the word in RAM. -/
theorem called_block_words_loop :
    ∃ ts t f,
      (Machine.single (State.boot loopProgram)).Run
        Platform.bare (t :: ts) (.single t.2) ∧
      t.1.preTick.jitEntry = some f ∧
      ∃ hi : 0 < f.words.length,
        t.1.codeWord (f.pc + BitVec.ofNat 64 (4 * 0)) =
          .ok f.words[0] := by
  have hBlock : loopBlockAfter 202 =
      some (0x80000000, [0x00108093]) := by
    decide +kernel
  rcases Option.bind_eq_some_iff.mp hBlock with
    ⟨s, hTicks, hRest⟩
  rcases Option.bind_eq_some_iff.mp hRest with
    ⟨f, hCalled, hRest⟩
  rcases Option.bind_eq_some_iff.mp hRest with
    ⟨s', hTick, hEnd⟩
  split at hEnd
  case isFalse => cases hEnd
  case isTrue hNow =>
    rw [toOption_eq_some, ← State.tick_eq_evalTick] at hTick
    rcases run_of_evalTicksKeeping 202 Machine.Run.start
      (fun t hMem => absurd hMem List.not_mem_nil) rfl hTicks
      with ⟨⟨ts, hRun, hKept⟩, hSelf⟩
    have hRun' := hRun.tick_single hSelf hTick
    have hEntry := (State.calledBlock_spec hCalled).2.1
    rcases Prod.mk.inj (Option.some.inj hEnd) with
      ⟨hPc, hWords⟩
    have hLength : 0 < f.words.length := by
      rw [hWords]
      decide
    refine ⟨ts, (s, s'), f, hRun', hEntry, hLength, ?_⟩
    refine called_block_words Platform.bare _ _ _
      (startedEmpty_single_boot _) hRun'
      (fun dev hDev => absurd hDev List.not_mem_nil) (s, s')
      List.mem_cons_self f hEntry ?_ 0 hLength
    intro t' hMem _ i hi
    have hOnly : f.pc + BitVec.ofNat 64 (4 * i) =
        0x80000000 := by
      rw [hWords] at hi
      cases (show i = 0 by simpa using hi)
      rw [hPc]
      decide
    rw [hOnly, (loopWordKept_iff _).mp hNow]
    rcases List.mem_cons.mp hMem with rfl | hOld
    · exact (loopWordKept_iff _).mp hNow
    · exact (loopWordKept_iff _).mp (hKept t' hOld)

end RiscvEm
