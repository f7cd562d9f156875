import RiscvEm.Decode.Select
import RiscvEm.Jit.BlockSizes

/-
  The entries of the JIT cache: what handling an executed
  instruction can do to the context, and what holds of every
  entry and of the block under construction.

  Key definitions include:
    * `JitContext.compile`
    * `JitContext.Finishes`
    * `JitContext.Handled`
    * `JitContext.Tidy`

  Key theorems include:
    * `JitContext.handled_of_handle`
    * `JitContext.Tidy.handle`
    * `JitContext.Finishes.handle_eq`
-/

------------------------------------------------------------
-- What Handling Does
------------------------------------------------------------

namespace RiscvEm

namespace JitContext

/- The finished block with its code, and the arena after it. -/
def compile
    (j : JitContext)
    (host : HostCode) : JitFunction × JitContext :=
  let j := { j with blockC := false }.ensureArena host
  let blk := j.emitter.rvjitEmitEpilogue j.block
  pushFunction { j with block := blk } host blk.bytes

/- What the cache holds of a finished block. -/
def entry
    (j : JitContext)
    (host : HostCode) : JitFunction :=
  { (j.compile host).1 with
    instSize := j.block.size.setWidth 16
    pc := j.block.pc
    pageVersion := (j.jits (jitIndex j.block.pc)).pageVersion
    words := j.block.words }

/- The instruction at `pc` ends the block. -/
structure EndsBlock
    (j : JitContext)
    (host : HostCode)
    (inst : Instruction)
    (pc : BitVec 64) : Prop where
  ram : ¬ pc < 0x80000000
  noEntry : (j.jits (jitIndex pc)).valid = false
  page : pageIndex pc < j.pages
  notIgnored : (j.hitPage (pageIndex pc)).isIgnore pc = false
  building : j.blockC = true
  ends : conversionTbl host.slow inst.func = none ∨
    RVJIT_MAX_INSTRUCTIONS ≤ j.block.count ∨
    pc ≠ j.block.pc + j.block.size
  enough : RVJIT_MIN_INSTRUCTIONS ≤ j.block.count

/-
  The instruction at `pc` ends the block, and its code is
  pushed into the arena.
-/
structure Finishes
    (j : JitContext)
    (host : HostCode)
    (inst : Instruction)
    (pc : BitVec 64) : Prop where
  ends : j.EndsBlock host inst pc
  pushed : (j.compile host).1.valid = true

/-
  What handling an instruction can do: count a hit, give up
  a block that is too short, finish a block, add to it, or
  begin one.
-/
inductive Handled
    (j : JitContext)
    (host : HostCode)
    (inst : Instruction)
    (pc : BitVec 64) : JitContext → Prop
  | kept (hits : Nat → Option HitPage) :
      Handled j host inst pc { j with pcHits := hits }
  | dropped (hits : Nat → Option HitPage) :
      j.block.count < RVJIT_MIN_INSTRUCTIONS →
      Handled j host inst pc
        { j with blockC := false, pcHits := hits }
  | finished (hits : Nat → Option HitPage) {blk : JitBlock}
      (arena used : Nat) :
      j.EndsBlock host inst pc → OnlyCode j.block blk →
      Handled j host inst pc { j with
        blockC := false
        block := blk
        lastArena := arena
        usedSize := used
        jits := Function.update j.jits (jitIndex j.block.pc)
          (j.entry host)
        count := j.count + 1
        pcHits := hits }
  | grown (hits : Nat → Option HitPage) {blk : JitBlock}
      (em : JitEmitter) (w : BitVec 32) :
      j.blockC = true →
      j.block.count < RVJIT_MAX_INSTRUCTIONS →
      OnlyCode j.block blk →
      Handled j host inst pc { j with
        emitter := em
        block := { blk with
          size := blk.size + inst.size.setWidth 64
          count := blk.count + 1
          words := blk.words ++ [w] }
        pcHits := hits }
  | begun (hits : Nat → Option HitPage) {blk : JitBlock}
      (em : JitEmitter) (w : BitVec 32) :
      ¬ pc < 0x80000000 →
      OnlyCode { JitBlock.empty with pc := pc, valid := true }
        blk →
      Handled j host inst pc { j with
        blockC := true
        emitter := em
        block := { blk with
          size := blk.size + inst.size.setWidth 64
          count := blk.count + 1
          words := blk.words ++ [w] }
        pcHits := hits }

end JitContext

end RiscvEm

------------------------------------------------------------
-- The Cases Of Handling
------------------------------------------------------------

namespace RiscvEm

namespace OnlyCode

variable {blk blk' : JitBlock}

theorem pc
    (h : OnlyCode blk blk') :
    blk'.pc = blk.pc := by
  unfold OnlyCode at h
  rw [h]

theorem count
    (h : OnlyCode blk blk') :
    blk'.count = blk.count := by
  unfold OnlyCode at h
  rw [h]

theorem words
    (h : OnlyCode blk blk') :
    blk'.words = blk.words := by
  unfold OnlyCode at h
  rw [h]

theorem epilogue
    (em : JitEmitter)
    (blk : JitBlock) :
    OnlyCode blk (em.rvjitEmitEpilogue blk) :=
  (((OnlyCode.refl blk).realizeLabel _).realizeLabel _).emit _

theorem prologue
    (blk : JitBlock) :
    OnlyCode blk (JitEmitter.rvjitEmitPrologue blk) :=
  (OnlyCode.refl blk).emit _

end OnlyCode

namespace JitContext

variable {j j' : JitContext}
variable {host : HostCode}
variable {cache : InstructionCache}
variable {inst : Instruction}
variable {pc : BitVec 64}

theorem ensureArena_frame
    (j : JitContext)
    (host : HostCode) :
    ∃ arena used, j.ensureArena host =
      { j with lastArena := arena, usedSize := used } := by
  unfold ensureArena
  split
  · exact ⟨_, _, rfl⟩
  · exact ⟨_, _, rfl⟩

/- The code is all that a new function holds. -/
theorem pushFunction_frame
    (j : JitContext)
    (host : HostCode)
    (code : Code) :
    ∃ used, (j.pushFunction host code).2 =
      { j with usedSize := used } := by
  unfold pushFunction
  repeat' split
  all_goals exact ⟨_, rfl⟩

/- Only the arena and the block's code differ. -/
theorem compile_frame
    (j : JitContext)
    (host : HostCode) :
    ∃ blk arena used, OnlyCode j.block blk ∧
      (j.compile host).2 = { j with
        blockC := false
        block := blk
        lastArena := arena
        usedSize := used } := by
  rcases ensureArena_frame { j with blockC := false } host with
    ⟨arena, used, hArena⟩
  unfold compile
  rw [hArena]
  rcases pushFunction_frame _ host _ with ⟨used', hPush⟩
  exact ⟨_, _, _, OnlyCode.epilogue _ _, hPush⟩

/- The hits have no part in it. -/
theorem compile_hits
    (j : JitContext)
    (host : HostCode)
    (hits : Nat → Option HitPage) :
    (compile { j with pcHits := hits } host).1 =
      (j.compile host).1 := by
  unfold compile ensureArena pushFunction
  dsimp only
  repeat' split
  all_goals rfl

/- A block that is ended is given up or finished. -/
theorem endBlockGen_cases
    (h : j.endBlockGen host pc = .ok j') :
    (j.block.count < RVJIT_MIN_INSTRUCTIONS ∧
        j' = { j with
          blockC := false
          pcHits := j'.pcHits }) ∨
      (RVJIT_MIN_INSTRUCTIONS ≤ j.block.count ∧
        j' = { (j.compile host).2 with
          jits := Function.update j.jits
            (jitIndex j.block.pc) (j.entry host)
          count := j.count + 1
          pcHits := j'.pcHits }) := by
  rcases ensureArena_frame { j with blockC := false } host with
    ⟨arena, used, hArena⟩
  unfold endBlockGen at h
  dsimp only at h
  split at h
  case isFalse hFew =>
    cases h
    exact Or.inl ⟨Nat.lt_of_not_le hFew, rfl⟩
  case isTrue hEnough =>
    rcases bind_eq_ok.mp h with ⟨blk, hCheck, hDone⟩
    cases SizesEven.checkBuffer_eq hCheck
    unfold entry compile
    rw [hArena] at hDone ⊢
    have hPushed := pushFunction_frame
      { j with
        blockC := false
        block := j.emitter.rvjitEmitEpilogue j.block
        lastArena := arena
        usedSize := used } host
      (j.emitter.rvjitEmitEpilogue j.block).bytes
    revert hDone hPushed
    dsimp only
    generalize pushFunction _ host _ = out
    rintro hDone ⟨used', hOut⟩
    rw [hOut] at hDone
    cases hDone
    refine Or.inr ⟨hEnough, ?_⟩
    rw [hOut]
    rfl

theorem entry_hits
    (j : JitContext)
    (host : HostCode)
    (hits : Nat → Option HitPage) :
    entry { j with pcHits := hits } host = j.entry host := by
  unfold entry
  rw [compile_hits]

theorem hitPage_setHitPage
    (j : JitContext)
    (i : Nat)
    (page : HitPage) :
    (j.setHitPage i page).hitPage i = page := by
  simp [hitPage, setHitPage]

/- The block is ended after its hits were looked up. -/
theorem EndsBlock.handled
    {hits : Nat → Option HitPage}
    (hEnds : RVJIT_MIN_INSTRUCTIONS ≤ j.block.count →
      j.EndsBlock host inst pc)
    (h : endBlockGen { j with pcHits := hits } host pc =
      .ok j') :
    Handled j host inst pc j' := by
  rcases endBlockGen_cases h with
    ⟨hFew, hEq⟩ | ⟨hEnough, hEq⟩
  · rw [hEq]
    exact .dropped _ hFew
  · rcases compile_frame { j with pcHits := hits } host with
      ⟨blk, arena, used, hOnly, hFrame⟩
    rw [hEq, hFrame, entry_hits]
    exact .finished _ arena used (hEnds hEnough) hOnly

/- An instruction that is emitted only adds to the block. -/
theorem emitInstruction_cases
    {template : JitTemplate}
    (hTemplate : IsTemplate template)
    (h : j.emitInstruction template cache inst = .ok j') :
    ∃ em blk, OnlyCode j.block blk ∧ j' = { j with
      emitter := em
      block := { blk with
        size := blk.size + inst.size.setWidth 64
        count := blk.count + 1
        words := blk.words ++ [cache.instRaw] } } := by
  unfold emitInstruction at h
  rcases bind_eq_ok.mp h with ⟨⟨em, blk⟩, hEmit, h⟩
  rcases bind_eq_ok.mp h with ⟨blk', hCheck, h⟩
  cases SizesEven.checkBuffer_eq hCheck
  cases h
  exact ⟨em, _, hTemplate.onlyCode hEmit, rfl⟩

/- The address of the instruction is not looked at again. -/
def markIgnored
    (j : JitContext)
    (pc : BitVec 64) : JitContext :=
  j.setHitPage (pageIndex pc)
    ((j.hitPage (pageIndex pc)).setIgnore pc)

/-
  The branches of handling an instruction, with the faults
  that they may end in.
-/
inductive Branch
    (j : JitContext)
    (host : HostCode)
    (cache : InstructionCache)
    (inst : Instruction)
    (pc : BitVec 64) : Except HostFault JitContext → Prop
  | kept (hits : Nat → Option HitPage) :
      Branch j host cache inst pc
        (.ok { j with pcHits := hits })
  | noPage :
      Branch j host cache inst pc (.error .assertFailed)
  | ended (hits : Nat → Option HitPage)
      (building : j.blockC = true)
      (ends : RVJIT_MIN_INSTRUCTIONS ≤ j.block.count →
        j.EndsBlock host inst pc) :
      Branch j host cache inst pc
        (endBlockGen { j with pcHits := hits } host pc)
  | grown (hits : Nat → Option HitPage)
      {template : JitTemplate}
      (building : j.blockC = true)
      (few : j.block.count < RVJIT_MAX_INSTRUCTIONS)
      (table : conversionTbl host.slow inst.func =
        some template) :
      Branch j host cache inst pc (do
        let j' ← emitInstruction { j with pcHits := hits }
          template cache inst
        .ok (j'.markIgnored pc))
  | begun (hits : Nat → Option HitPage)
      {template : JitTemplate}
      (ram : ¬ pc < 0x80000000)
      (table : conversionTbl host.slow inst.func =
        some template) :
      Branch j host cache inst pc (do
        let j' ← ({ j with pcHits := hits } : JitContext)
          |>.beginBlock pc |>.emitInstruction template cache
            inst
        .ok (j'.markIgnored pc))

theorem branch_of_handle
    (j : JitContext)
    (host : HostCode)
    (cache : InstructionCache)
    (inst : Instruction)
    (pc : BitVec 64) :
    Branch j host cache inst pc
      (j.handleInstruction host cache inst pc) := by
  unfold handleInstruction
  dsimp only
  split
  case isTrue => exact .kept _
  case isFalse hRam =>
    split
    case isTrue => exact .kept _
    case isFalse hEntry =>
      split
      case isTrue => exact .noPage
      case isFalse hPage =>
        rw [hitPage_setHitPage]
        split
        case isTrue => exact .kept _
        case isFalse hIgnore =>
          split
          case isTrue hBuilding =>
            have hEnds : (conversionTbl host.slow inst.func =
                none ∨ RVJIT_MAX_INSTRUCTIONS ≤ j.block.count ∨
                  pc ≠ j.block.pc + j.block.size) →
                RVJIT_MIN_INSTRUCTIONS ≤ j.block.count →
                  j.EndsBlock host inst pc :=
              fun hEnd hEnough =>
                ⟨hRam, by simpa using hEntry,
                  by simpa using hPage, by simpa using hIgnore,
                  hBuilding, hEnd, hEnough⟩
            split
            case h_1 hTable =>
              exact .ended _ hBuilding (hEnds (.inl hTable))
            case h_2 template hTable =>
              split
              case isTrue hEnd =>
                exact .ended _ hBuilding (hEnds (.inr hEnd))
              case isFalse hMore =>
                exact .grown _ hBuilding
                  (Nat.lt_of_not_le (not_or.mp hMore).1) hTable
          case isFalse hIdle =>
            split
            case isTrue => exact .kept _
            case isFalse hHot =>
              split
              case h_1 => exact .kept _
              case h_2 template hTable =>
                exact .begun _ hRam hTable

/- What handling an instruction does is one of the cases. -/
theorem handled_of_handle
    (h : j.handleInstruction host cache inst pc = .ok j') :
    Handled j host inst pc j' := by
  have hBranch := branch_of_handle j host cache inst pc
  rw [h] at hBranch
  generalize hOut : (Except.ok j' : Except HostFault _) = out
    at hBranch
  cases hBranch with
  | kept hits =>
      cases hOut
      exact .kept _
  | noPage => cases hOut
  | ended hits hBuilding hEnds =>
      exact EndsBlock.handled hEnds hOut.symm
  | grown hits hBuilding hFew hTable =>
      rcases bind_eq_ok.mp hOut.symm with ⟨j₁, hEmit, hDone⟩
      rcases emitInstruction_cases
        (conversionTbl_isTemplate hTable) hEmit with
        ⟨em, blk, hOnly, hEq⟩
      cases hDone
      rw [hEq]
      exact .grown _ em _ hBuilding hFew hOnly
  | begun hits hRam hTable =>
      rcases bind_eq_ok.mp hOut.symm with ⟨j₁, hEmit, hDone⟩
      rcases emitInstruction_cases
        (conversionTbl_isTemplate hTable) hEmit with
        ⟨em, blk, hOnly, hEq⟩
      cases hDone
      rw [hEq]
      have hPro : OnlyCode { JitBlock.empty with
          pc := pc, valid := true } blk :=
        (OnlyCode.prologue _).trans hOnly
      exact .begun _ em _ hRam hPro

/- Handling the instruction comes to the end of the block. -/
theorem EndsBlock.handle_eq
    (hEnds : j.EndsBlock host inst pc)
    (cache : InstructionCache) :
    ∃ hits, j.handleInstruction host cache inst pc =
      endBlockGen { j with pcHits := hits } host pc := by
  refine ⟨Function.update j.pcHits (pageIndex pc)
    (some (j.hitPage (pageIndex pc))), ?_⟩
  unfold handleInstruction
  dsimp only
  rw [if_neg hEnds.ram, hitPage_setHitPage,
    if_neg (by simp [hEnds.noEntry]),
    if_neg (not_not.mpr hEnds.page),
    if_neg (by simp [hEnds.notIgnored])]
  have hBuilding : (j.setHitPage (pageIndex pc)
      (j.hitPage (pageIndex pc))).blockC = true :=
    hEnds.building
  rw [if_pos hBuilding]
  cases hTable : conversionTbl host.slow inst.func with
  | none => rfl
  | some template =>
      have hEnd := hEnds.ends
      rw [hTable] at hEnd
      rcases hEnd with hNone | hEnd
      · cases hNone
      · exact if_pos hEnd

/- A block is counted only when one is ended. -/
theorem Handled.endsBlock
    (h : Handled j host inst pc j')
    (hCount : j'.count ≠ j.count) :
    j.EndsBlock host inst pc := by
  cases h with
  | kept _ => exact absurd rfl hCount
  | dropped _ _ => exact absurd rfl hCount
  | finished _ _ _ hEnds _ => exact hEnds
  | grown _ _ _ _ _ _ => exact absurd rfl hCount
  | begun _ _ _ _ _ => exact absurd rfl hCount

/-
  A finished block is entered, and the versions stay as they
  are.
-/
theorem EndsBlock.handle
    (hEnds : j.EndsBlock host inst pc)
    (h : j.handleInstruction host cache inst pc = .ok j') :
    j'.jits (jitIndex j.block.pc) = j.entry host ∧
      j'.pageVerionBitmap = j.pageVerionBitmap := by
  rcases hEnds.handle_eq cache with ⟨hits, hEq⟩
  rw [hEq] at h
  rcases endBlockGen_cases h with ⟨hFew, -⟩ | ⟨-, hDone⟩
  · exact absurd hEnds.enough (Nat.not_le_of_lt hFew)
  · rcases compile_frame { j with pcHits := hits } host with
      ⟨blk, arena, used, -, hFrame⟩
    rw [hDone, hFrame, entry_hits]
    exact ⟨Function.update_self _ _ _, rfl⟩

end JitContext

end RiscvEm

------------------------------------------------------------
-- Tidy Contexts
------------------------------------------------------------

namespace RiscvEm

/-
  The block counts the words that it was emitted from, of at
  most four bytes each.
-/
structure JitBlock.Counted
    (blk : JitBlock) : Prop where
  words : blk.words.length = blk.count
  most : blk.count ≤ RVJIT_MAX_INSTRUCTIONS
  size : blk.size.toNat ≤ 4 * blk.count

namespace JitBlock.Counted

variable {blk blk' : JitBlock}

theorem onlyCode
    (h : blk.Counted)
    (hOnly : OnlyCode blk blk') :
    blk'.Counted := by
  constructor
  · rw [hOnly.words, hOnly.count]
    exact h.words
  · rw [hOnly.count]
    exact h.most
  · rw [hOnly.size, hOnly.count]
    exact h.size

/- One more instruction is emitted. -/
theorem emitted
    (h : blk.Counted)
    (hFew : blk.count < RVJIT_MAX_INSTRUCTIONS)
    {size : BitVec 8}
    (hSize : size.toNat ≤ 4)
    (w : BitVec 32) :
    JitBlock.Counted { blk with
      size := blk.size + size.setWidth 64
      count := blk.count + 1
      words := blk.words ++ [w] } where
  words := by
    rw [List.length_append, h.words]
    rfl
  most := hFew
  size := by
    have hAdd : (blk.size + size.setWidth 64).toNat ≤
        blk.size.toNat + size.toNat := by
      rw [BitVec.toNat_add,
        BitVec.toNat_setWidth_of_le (by decide)]
      exact Nat.mod_le _ _
    have hBefore := h.size
    change (blk.size + size.setWidth 64).toNat ≤
      4 * (blk.count + 1)
    omega

/- A block covers less than `2^16` bytes. -/
theorem size_eq
    (h : blk.Counted) :
    (blk.size.setWidth 16).setWidth 64 = blk.size := by
  have hMost := h.most
  have hSize := h.size
  unfold RVJIT_MAX_INSTRUCTIONS at hMost
  apply BitVec.eq_of_toNat_eq
  rw [BitVec.toNat_setWidth, BitVec.toNat_setWidth]
  omega

end JitBlock.Counted

namespace JitContext

/-
  What holds of every context that grew from an empty one: no
  entry has a version, an entry covers between one and 48
  instructions and was counted, and the block under
  construction lies in RAM.
-/
structure Tidy
    (j : JitContext) : Prop where
  version : ∀ i, (j.jits i).pageVersion = 0
  words : ∀ i, (j.jits i).valid = true →
    1 ≤ (j.jits i).words.length ∧
      (j.jits i).words.length ≤ RVJIT_MAX_INSTRUCTIONS
  counted : ∀ i, (j.jits i).valid = true → j.count ≠ 0
  block : j.block.Counted
  ram : j.blockC = true → ¬ j.block.pc < 0x80000000

variable {j j' : JitContext}
variable {host : HostCode}
variable {cache : InstructionCache}
variable {inst : Instruction}
variable {pc : BitVec 64}

/- The block stays counted, whatever is done with it. -/
theorem counted_of_handled
    (hBlock : j.block.Counted)
    (hSize : inst.size.toNat ≤ 4)
    (h : Handled j host inst pc j') :
    j'.block.Counted := by
  cases h with
  | kept hits => exact hBlock
  | dropped hits _ => exact hBlock
  | finished hits _ _ hEnds hOnly =>
      exact hBlock.onlyCode hOnly
  | grown hits em w hC hFew hOnly =>
      rw [← hOnly.count] at hFew
      exact (hBlock.onlyCode hOnly).emitted hFew hSize w
  | @begun hits blk em w hRam hOnly =>
      have hEmpty : JitBlock.Counted { JitBlock.empty with
          pc := pc, valid := true } :=
        ⟨rfl, Nat.zero_le _, Nat.zero_le _⟩
      have hFew := hOnly.count.trans_lt
        (show 0 < RVJIT_MAX_INSTRUCTIONS by decide)
      exact (hEmpty.onlyCode hOnly).emitted hFew hSize w

namespace Tidy

theorem init
    (memorySize : BitVec 64) :
    (JitContext.init memorySize).Tidy where
  version := fun _ => rfl
  words := nofun
  counted := nofun
  block := ⟨rfl, Nat.zero_le _, Nat.zero_le _⟩
  ram := nofun

/- Versions and hits of pages have no part in it. -/
theorem of_eq
    (hj : j.Tidy)
    (hJits : j'.jits = j.jits)
    (hBlock : j'.block = j.block)
    (hCount : j'.count = j.count)
    (hBuilding : j'.blockC = true → j.blockC = true) :
    j'.Tidy := by
  constructor
  · rw [hJits]
    exact hj.version
  · rw [hJits]
    exact hj.words
  · rw [hJits, hCount]
    exact hj.counted
  · rw [hBlock]
    exact hj.block
  · intro hC
    rw [hBlock]
    exact hj.ram (hBuilding hC)

theorem stopBlock
    (hj : j.Tidy) :
    j.stopBlock.Tidy :=
  hj.of_eq rfl rfl rfl nofun

/- Another entry takes the place of one. -/
theorem setEntry
    (hj : j.Tidy)
    (k : BitVec 20)
    {f : JitFunction}
    {n : Nat}
    (hVersion : f.pageVersion = 0)
    (hWords : f.valid = true → 1 ≤ f.words.length ∧
      f.words.length ≤ RVJIT_MAX_INSTRUCTIONS)
    (hCount : f.valid = true → n ≠ 0)
    (hGrows : j.count ≤ n) :
    JitContext.Tidy { j with
      jits := Function.update j.jits k f
      count := n } where
  version := (Function.forall_update_iff j.jits
    (fun _ f => f.pageVersion = 0)).mpr
      ⟨hVersion, fun i _ => hj.version i⟩
  words := (Function.forall_update_iff j.jits
    (fun _ f => f.valid = true → 1 ≤ f.words.length ∧
      f.words.length ≤ RVJIT_MAX_INSTRUCTIONS)).mpr
      ⟨hWords, fun i _ => hj.words i⟩
  counted := (Function.forall_update_iff j.jits
    (fun _ f => f.valid = true → n ≠ 0)).mpr
      ⟨hCount, fun i _ hValid hZero =>
        hj.counted i hValid (Nat.le_zero.mp (hZero ▸ hGrows))⟩
  block := hj.block
  ram := hj.ram

/- Another block takes the place of the one before. -/
theorem setBlock
    (hj : j.Tidy)
    (building : Bool)
    {blk : JitBlock}
    (hBlock : blk.Counted)
    (hRam : building = true → ¬ blk.pc < 0x80000000) :
    JitContext.Tidy { j with
      blockC := building
      block := blk } :=
  ⟨hj.version, hj.words, hj.counted, hBlock, hRam⟩

theorem handled
    (hj : j.Tidy)
    (hSize : inst.size.toNat ≤ 4)
    (h : Handled j host inst pc j') :
    j'.Tidy := by
  have hCounted := counted_of_handled hj.block hSize h
  cases h with
  | kept hits => exact hj.of_eq rfl rfl rfl id
  | dropped hits _ => exact hj.of_eq rfl rfl rfl nofun
  | @finished hits blk arena used hEnds hOnly =>
      have hWords : (j.entry host).words.length =
          j.block.count := hj.block.words
      have hStored : JitContext.Tidy { j with
          jits := Function.update j.jits
            (jitIndex j.block.pc) (j.entry host)
          count := j.count + 1 } := by
        refine hj.setEntry _ (hj.version _) ?_
          (fun _ => Nat.succ_ne_zero j.count)
          (Nat.le_succ j.count)
        intro _
        rw [hWords]
        exact ⟨hEnds.enough, hj.block.most⟩
      have hDone := hStored.setBlock false hCounted nofun
      exact hDone.of_eq rfl rfl rfl nofun
  | grown hits em w hC hFew hOnly =>
      have hRam := hj.ram hC
      rw [← hOnly.pc] at hRam
      have hDone := hj.setBlock j.blockC hCounted
        (fun _ => hRam)
      exact hDone.of_eq rfl rfl rfl id
  | begun hits em w hRam hOnly =>
      have hPc := hOnly.pc
      have hDone := hj.setBlock true hCounted
        (fun _ => hPc ▸ hRam)
      exact hDone.of_eq rfl rfl rfl id

/- What follows the execution of an instruction. -/
theorem handle
    (hj : j.Tidy)
    (hSize : inst.size.toNat ≤ 4)
    (h : j.handleInstruction host cache inst pc = .ok j') :
    j'.Tidy :=
  hj.handled hSize (handled_of_handle h)

end Tidy

/-
  The entry of a finished block is valid, is the one of the
  block, and has the version of the block's page.
-/
structure Usable
    (j : JitContext)
    (blk : JitBlock) : Prop where
  valid : (j.jits (jitIndex blk.pc)).valid = true
  pc : (j.jits (jitIndex blk.pc)).pc = blk.pc
  size : (j.jits (jitIndex blk.pc)).instSize.setWidth 64 =
    blk.size
  version : (j.jits (jitIndex blk.pc)).pageVersion =
    j.pageVerionBitmap (pageIndex blk.pc)

/-
  A finished block is usable exactly when the version of its
  page is zero, as before any store to it.
-/
theorem Finishes.usable_iff
    (hFinishes : j.Finishes host inst pc)
    (hj : j.Tidy)
    (h : j.handleInstruction host cache inst pc = .ok j') :
    j'.Usable j.block ↔
      j.pageVerionBitmap (pageIndex j.block.pc) = 0 := by
  rcases hFinishes.ends.handle h with ⟨hEntry, hVersions⟩
  have hVersion : (j.entry host).pageVersion = 0 :=
    hj.version _
  constructor
  · intro hUsable
    have hSame := hUsable.version
    rw [hEntry, hVersions, hVersion] at hSame
    exact hSame.symm
  · intro hZero
    constructor
    · rw [hEntry]
      exact hFinishes.pushed
    · rw [hEntry]
      rfl
    · rw [hEntry]
      exact hj.block.size_eq
    · rw [hEntry, hVersions, hVersion, hZero]

end JitContext

/- The instructions of the table take at most four bytes. -/
theorem size_le_four :
    ∀ i ∈ allInstrs, i.size.toNat ≤ 4 := by
  intro i hMem
  rcases allInstrs_length i hMem with hShort | hLong
  · rw [hShort.1]
    decide
  · rw [hLong.1]
    decide

end RiscvEm
