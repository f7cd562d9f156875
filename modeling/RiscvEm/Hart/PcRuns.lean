import RiscvEm.Decode.Immediates
import RiscvEm.Hart.PcAlignment
import RiscvEm.Hart.Precise
import RiscvEm.Hart.RegisterWidth
import RiscvEm.Jit.BlockSizes

/-
  The program counter over runs of the machine: it stays even
  except where a trap returns to an odd address.

  Key definitions include:
    * `State.PcSources`
    * `ReturnsOdd`
    * `Machine.StartedEven`

  Key theorems include:
    * `State.tick_pcEven_iff`
    * `pc_stays_even_iff`
-/

------------------------------------------------------------
-- The Decoder's Table
------------------------------------------------------------

namespace RiscvEm

open WordArith (IsEven)

/- An instruction takes two bytes or four. -/
theorem size_even :
    ∀ i ∈ allInstrs, IsEven i.size := by
  decide +kernel

/- Three entries add their offset without a test. -/
theorem untestedJumps_at :
    ∀ x ∈ allInstrs.zipIdx, x.1.func ∈ untestedJumps →
      x.2 ∈ [168, 169, 170] := by
  decide +kernel

/- The offsets of the jumps leave out the lowest bit. -/
theorem dCJImm_even
    (w : BitVec 32) :
    IsEven (dCJImm w) := by
  rw [dCJImm_eq]
  refine IsEven.signExtend (by decide) ?_ 64
  exact (IsEven.append _ (by decide) .zero).setWidth 12

/- The offset of a compressed branch is even. -/
theorem dCBImm_even
    (w : BitVec 32) :
    IsEven (dCBImm w) := by
  rw [dCBImm_eq]
  refine IsEven.signExtend (by decide) ?_ 64
  exact (IsEven.append _ (by decide) .zero).setWidth 9

/- The entry of a compressed jump decodes its offset. -/
theorem CInstr.immDecodeFunc
    (c : CInstr)
    {i : Instruction}
    (h : allInstrs[c.entry.1]? = some i) :
    i.immDecodeFunc = c.entry.2.2 := by
  have hImm := List.map_inj_left.mp CInstr.table_imms c
    c.mem_all
  rw [h] at hImm
  exact Option.some.inj hImm

/- The jumps without a test only add even offsets. -/
theorem untestedJumps_even
    {i : Instruction}
    (hMem : i ∈ allInstrs)
    (hFunc : i.func ∈ untestedJumps)
    (w : BitVec 32) :
    IsEven (i.immDecodeFunc w) := by
  rcases List.getElem?_of_mem hMem with ⟨k, hk⟩
  have hAt := untestedJumps_at (i, k)
    (List.mem_zipIdx_iff_getElem?.mpr hk) hFunc
  simp only [List.mem_cons, List.not_mem_nil, or_false] at hAt
  rcases hAt with rfl | rfl | rfl
  · rw [CInstr.immDecodeFunc .J hk]
    exact dCJImm_even w
  · rw [CInstr.immDecodeFunc .BEQZ hk]
    exact dCBImm_even w
  · rw [CInstr.immDecodeFunc .BNEZ hk]
    exact dCBImm_even w

end RiscvEm

------------------------------------------------------------
-- The Decoder And The Blocks
------------------------------------------------------------

namespace RiscvEm

variable {σ : Type}
variable {P : Platform σ}
variable {op : Op}
variable {d : InstructionData}
variable {s s' s'' : State σ}
variable {out : ExecReturn}

/- A selected instruction is one of the decoder's. -/
theorem State.decode_mem
    (s : State σ)
    (hCache : s.cache.Sound decoder)
    {w : BitVec 32}
    {i : Instruction}
    (hSel : (s.decode w).1.selected = some i) :
    i ∈ allInstrs ∧
      (s.decode w).1.data.imm = i.immDecodeFunc w := by
  rw [s.decode_selected hCache] at hSel ⊢
  rw [matchEntry_selected] at hSel
  have hSpec := bestMatch_spec w
  rw [hSel] at hSpec ⊢
  cases hSpec with
  | entry hAt => exact ⟨List.mem_of_getElem? hAt.get, rfl⟩

/- What sizes and offsets are taken from. -/
structure State.PcSources
    (s : State σ) : Prop where
  cache : s.cache.Sound decoder
  sizes : s.jctx.SizesEven

namespace State.PcSources

/-
  A state with the same decoder and blocks has the same
  sources.
-/
theorem of_eq
    (hs : s.PcSources)
    (hCache : s'.cache = s.cache)
    (hJctx : s'.jctx = s.jctx) :
    s'.PcSources := by
  constructor
  · rw [hCache]
    exact hs.cache
  · rw [hJctx]
    exact hs.sizes

/- Changes of registers do not reach them. -/
theorem onlyRegs
    (hs : s.PcSources)
    (h : OnlyRegs s s') :
    s'.PcSources :=
  hs.of_eq h.cache h.jctx

/- Writes to registers of control do not reach them. -/
theorem setCsr
    (hs : s.PcSources)
    (csr : BitVec 16)
    (val : BitVec 64) :
    (s.setCsr csr val).PcSources := by
  have hCsrs := (OnlyCsrs.setCsr s csr val).rest
  exact hs.of_eq (by rw [hCsrs]) (by rw [hCsrs])

/- Reads do not reach them. -/
theorem mmioRead
    (hs : s.PcSources)
    {addr val : BitVec 64}
    {size : MemorySize}
    {m : MemoryReturn}
    (h : s.mmioRead P addr size = .ok (m, val, s')) :
    s'.PcSources := by
  rw [State.mmioRead_frame h]
  exact hs.of_eq rfl rfl

/- A write changes versions of pages only. -/
theorem mmioWrite
    (hs : s.PcSources)
    {addr val : BitVec 64}
    {size : MemorySize}
    {m : MemoryReturn}
    (h : s.mmioWrite P addr size val = .ok (m, s')) :
    s'.PcSources := by
  rcases State.mmioWrite_cases h with
    ⟨-, -, mem, jctx, -, hBump, rfl⟩ |
    ⟨-, dev, world, mem, -, -, rfl⟩ | ⟨-, rfl⟩
  · exact ⟨hs.cache, hs.sizes.bumpPage hBump⟩
  · exact hs.of_eq rfl rfl
  · exact hs

/- Zeroing a block changes versions of pages only. -/
theorem zeroBytes
    (n : Nat)
    {addr : BitVec 64}
    {s : State σ}
    (hs : s.PcSources)
    (h : RiscvEm.zeroBytes P addr n s = .ok s') :
    s'.PcSources := by
  induction n generalizing addr s with
  | zero =>
      cases h
      exact hs
  | succ n ih =>
      rcases bind_eq_ok.mp h with ⟨⟨m, s₁⟩, hWrite, hRest⟩
      exact ih (hs.mmioWrite hWrite) hRest

/- Reading a register of control, if it is read. -/
theorem csrReadIf
    (hs : s.PcSources)
    (reads : Bool)
    (csr : BitVec 16) :
    (RiscvEm.csrReadIf reads csr s).PcSources := by
  unfold RiscvEm.csrReadIf
  split
  · by_cases hDenied : State.isFloatCsr csr = true ∧
        s.hart.status.FS = 0
    · rw [State.csrRead_denied hDenied.1 hDenied.2]
      exact hs.of_eq rfl rfl
    · rw [s.csrRead_state csr hDenied]
      exact hs
  · exact hs

/- Writing one, if it is written. -/
theorem csrWriteIf
    (hs : s.PcSources)
    (writes : Bool)
    (csr : BitVec 16)
    (val : BitVec 64) :
    (RiscvEm.csrWriteIf writes csr val s).PcSources := by
  unfold RiscvEm.csrWriteIf
  split
  · unfold State.csrWrite
    dsimp only
    repeat' split
    all_goals first
      | exact hs.of_eq rfl rfl
      | exact hs.setCsr _ _
  · exact hs

/- Whatever an instruction does. -/
theorem effect
    (hs : s.PcSources)
    (h : Effect P op d s out s') :
    s'.PcSources := by
  cases h with
  | regs _ hRegs => exact hs.onlyRegs hRegs
  | fault _ => exact hs
  | scFault _ _ _ _ => exact hs.of_eq rfl rfl
  | load hRead _ _ hRegs =>
      exact (hs.mmioRead hRead).onlyRegs hRegs
  | store hWrite _ _ hRegs =>
      exact (hs.mmioWrite hWrite).onlyRegs hRegs
  | amo hRead _ hWrite _ _ hRegs =>
      exact ((hs.mmioRead hRead).mmioWrite hWrite).onlyRegs
        hRegs
  | amoFault _ hRead _ _ _ _ => exact hs.mmioRead hRead
  | lr hRead _ _ hRegs =>
      refine onlyRegs ?_ hRegs
      exact (hs.mmioRead hRead).of_eq rfl rfl
  | @sc _ _ addr _ size _ _ hWrite _ _ hRegs =>
      have hLogged : (s.log (.sc s.self addr size true)
          ).PcSources :=
        hs.of_eq rfl rfl
      refine onlyRegs ?_ hRegs
      exact (hLogged.mmioWrite hWrite).of_eq rfl rfl
  | scFail _ hRegs =>
      refine onlyRegs ?_ hRegs
      exact hs.of_eq rfl rfl
  | csr reads writes val _ _ _ _ _ hRead hWrite =>
      have hFirst := (hs.csrReadIf reads d.csr).onlyRegs hRead
      exact (hFirst.csrWriteIf writes d.csr val).onlyRegs
        hWrite
  | mret _ _ => exact hs.of_eq rfl rfl
  | sret _ _ => exact hs.of_eq rfl rfl
  | wfi _ _ _ => exact hs.of_eq rfl rfl
  | fenceI _ => exact ⟨DecodeCache.sound_flush _, hs.sizes⟩
  | cboRam _ _ _ => exact hs.of_eq rfl rfl
  | cboDevice hZero _ => exact zeroBytes 64 hs hZero

/- The part before the dispatch. -/
theorem preTick
    (hs : s.PcSources) :
    s.preTick.PcSources := by
  have hFirst : (s.setGpr 0 0).PcSources := hs.of_eq rfl rfl
  have hCycle := hFirst.setCsr CSR_MCYCLE
    ((s.setGpr 0 0).csr CSR_MCYCLE + 1)
  unfold State.preTick
  dsimp only
  split
  · unfold State.checkInts
    split
    · exact hCycle.of_eq rfl rfl
    · exact hCycle
  · exact hCycle

/- A fetch that fails traps. -/
theorem afterFetch
    (hs : s.PcSources)
    (m : MemoryReturn) :
    (s.afterFetch m).PcSources := by
  unfold State.afterFetch
  split
  · exact hs
  · exact hs.of_eq rfl rfl

/- Decoding puts an entry of the table into the cache. -/
theorem decode
    (hs : s.PcSources)
    (w : BitVec 32) :
    (s.decode w).2.PcSources :=
  ⟨(hs.cache.decodeInst s.hart.pc w).2, hs.sizes⟩

/- The decoder returns an instruction with its immediate. -/
theorem selected
    (hs : s.PcSources)
    {w : BitVec 32}
    {i : Instruction}
    (hSel : (s.decode w).1.selected = some i) :
    i ∈ allInstrs ∧
      (s.decode w).1.data.imm = i.immDecodeFunc w :=
  s.decode_mem hs.cache hSel

/- The body may record the instruction. -/
theorem runEntry
    (hs : s.PcSources)
    {entry : InstructionCache}
    {w : BitVec 32}
    {pc : BitVec 64}
    (hMem : ∀ i, entry.selected = some i → i ∈ allInstrs)
    (h : s.runEntry P entry w pc = .ok s') :
    s'.PcSources := by
  rcases State.runEntry_cases h with
    ⟨-, rfl⟩ | ⟨i, out, s₁, hSel, hExec, hEnd⟩
  · exact ⟨hs.cache, hs.sizes.stopBlock⟩
  · have hDone := hs.effect (Op.exec_effect i.func hExec)
    rcases hEnd with ⟨-, rfl⟩ | ⟨-, j, hHandle, rfl⟩
    · exact ⟨hDone.cache, hDone.sizes.stopBlock⟩
    · have hRetired : (s₁.retire out).PcSources :=
        (hDone.setCsr _ _).of_eq rfl rfl
      exact ⟨hRetired.cache,
        hRetired.sizes.handle (size_even i (hMem i hSel))
          hHandle⟩

/- A tick keeps the cache sound and the sizes even. -/
theorem tick
    (hs : s.PcSources)
    (h : s.tick P = .ok s') :
    s'.PcSources := by
  have hPre := hs.preTick
  rcases State.tick_cases h with
    ⟨b, rfl⟩ | ⟨f, -, -, hCall⟩ | ⟨f, hEntry, rfl⟩ |
    ⟨hInt, hTick⟩
  · exact hPre.of_eq rfl rfl
  · rcases bind_eq_ok.mp hCall with ⟨s₁, hRun, hEq⟩
    have hRest := (runBlock_onlyCompiled hRun).rest
    have hDone : s₁.PcSources :=
      hPre.of_eq (by rw [hRest]; rfl) (by rw [hRest]; rfl)
    cases hEq
    split
    · exact hDone.of_eq rfl rfl
    · exact hDone.of_eq rfl rfl
  · unfold State.jitEntry at hEntry
    dsimp only at hEntry
    split at hEntry
    case isFalse => cases hEntry
    case isTrue =>
      cases hEntry
      exact ⟨hPre.cache,
        hPre.sizes.setJits _ (hPre.sizes.jits _),
        hPre.sizes.block⟩
  · have hFetch : s.atFetch.PcSources := hPre.of_eq rfl rfl
    rcases State.interpret_cases hTick with
      ⟨m, val, s₁, hRead, hRun⟩
    have hAfter := (hFetch.mmioRead hRead).afterFetch m
    exact (hAfter.decode (val.setWidth 32)).runEntry
      (fun i hSel => (hAfter.selected hSel).1) hRun

end State.PcSources

end RiscvEm

------------------------------------------------------------
-- Ticks
------------------------------------------------------------

namespace RiscvEm

open WordArith (IsEven)

variable {σ : Type}
variable {P : Platform σ}
variable {d : InstructionData}
variable {s s' b : State σ}

/- The supervisor's return is not refused. -/
def SretAccepted
    (h : Hart) : Prop :=
  ¬ (h.mode = .User ∨
    (h.mode = .Supervisor ∧ h.status.TSR = 1))

/- A return from a trap to an odd address. -/
def OddReturn
    (op : Op)
    (h : Hart) : Prop :=
  (op = .MRET ∧ ¬ IsEven (h.csrs CSR_MEPC)) ∨
    (op = .SRET ∧ SretAccepted h ∧
      ¬ IsEven (h.csrs CSR_SEPC))

/- A tick that executes a return to an odd address. -/
def ReturnsOdd
    (P : Platform σ)
    (s : State σ) : Prop :=
  s.Interprets ∧ ∃ i d b, Executes P s.atFetch i d b ∧
    OddReturn i.func b.hart

/- A return takes `mepc` as it is. -/
theorem execMRET_eq
    {out : ExecReturn}
    (h : Op.MRET.exec P d b = .ok (out, s')) :
    out = .jumped ∧ s'.hart.pc = b.hart.csrs CSR_MEPC := by
  cases h
  exact ⟨rfl, rfl⟩

/- `SRET` takes `sepc` if it is accepted. -/
theorem execSRET_cases
    {out : ExecReturn}
    (h : Op.SRET.exec P d b = .ok (out, s')) :
    (¬ SretAccepted b.hart ∧ out.isSuccess = false) ∨
      (SretAccepted b.hart ∧ out = .jumped ∧
        s'.hart.pc = b.hart.csrs CSR_SEPC) := by
  change execSRET P d b = _ at h
  unfold execSRET at h
  split at h
  case isTrue hUser =>
    cases h
    exact Or.inl ⟨not_not.mpr hUser, rfl⟩
  case isFalse hAccepted =>
    cases h
    exact Or.inr ⟨hAccepted, rfl, rfl⟩

/- A return to an odd address is taken. -/
theorem OddReturn.exec_odd
    {op : Op}
    {out : ExecReturn}
    (hOdd : OddReturn op b.hart)
    (h : op.exec P d b = .ok (out, s')) :
    out = .jumped ∧ ¬ PcEven s'.hart := by
  rcases hOdd with ⟨rfl, hMepc⟩ | ⟨rfl, hAccepted, hSepc⟩
  · rcases execMRET_eq h with ⟨hOut, hPc⟩
    unfold PcEven
    rw [hPc]
    exact ⟨hOut, hMepc⟩
  · rcases execSRET_cases h with
      ⟨hRefused, -⟩ | ⟨-, hOut, hPc⟩
    · exact absurd hAccepted hRefused
    · unfold PcEven
      rw [hPc]
      exact ⟨hOut, hSepc⟩

/- Every other instruction goes on at an even address. -/
theorem exec_goesEven_of_not_odd
    {i : Instruction}
    {out : ExecReturn}
    (hEven : PcEven b.hart)
    (hImm : i.func ∈ untestedJumps → IsEven d.imm)
    (hOdd : ¬ OddReturn i.func b.hart)
    (h : i.func.exec P d b = .ok (out, s')) :
    GoesEven out s' := by
  by_cases hMret : i.func = .MRET
  · rw [hMret] at h
    rcases execMRET_eq h with ⟨rfl, hPc⟩
    refine goesEven_jumped ?_
    unfold PcEven
    rw [hPc]
    by_contra hNot
    exact hOdd (Or.inl ⟨hMret, hNot⟩)
  · by_cases hSret : i.func = .SRET
    · rw [hSret] at h
      rcases execSRET_cases h with
        ⟨-, hFail⟩ | ⟨hAccepted, rfl, hPc⟩
      · exact goesEven_of_fail hFail
      · refine goesEven_jumped ?_
        unfold PcEven
        rw [hPc]
        by_contra hNot
        exact hOdd (Or.inr ⟨hSret, hAccepted, hNot⟩)
    · exact Op.exec_goesEven i.func hEven hImm hMret hSret h

/- Before the dispatch `pc` is even or at a vector. -/
theorem State.preTick_even
    (hEven : PcEven s.hart) :
    PcEven s.preTick.hart := by
  have hCsrs := OnlyCsrs.setCsr (s.setGpr 0 0) CSR_MCYCLE
    ((s.setGpr 0 0).csr CSR_MCYCLE + 1)
  have hCycle : PcEven ((s.setGpr 0 0).setCsr CSR_MCYCLE
      ((s.setGpr 0 0).csr CSR_MCYCLE + 1)).hart := by
    unfold PcEven
    rw [hCsrs.hart]
    exact hEven
  unfold State.preTick
  dsimp only
  split
  · unfold State.checkInts
    split
    · exact Hart.trap_even _ _ _ _
    · exact hCycle
  · exact hCycle

/- A block goes on behind itself. -/
theorem State.callBlock_even
    {f : JitFunction}
    (hEven : PcEven s.hart)
    (hSize : IsEven f.instSize)
    (h : s.callBlock P f = .ok s') :
    PcEven s'.hart := by
  rcases bind_eq_ok.mp h with ⟨s₁, hRun, hEq⟩
  have hHart := (runBlock_onlyCompiled hRun).hart
  have hExit : s₁.hart.exitPc = 0 := by
    rw [hHart]
    rfl
  have hPc : s₁.hart.pc = s.hart.pc := by
    rw [hHart]
    rfl
  rw [if_neg (not_not.mpr hExit)] at hEq
  cases hEq
  change IsEven (s₁.hart.pc + f.instSize.setWidth 64)
  rw [hPc]
  exact IsEven.add hEven (hSize.setWidth 64)

/- The program counter stays even but for odd returns. -/
theorem State.tick_pcEven_iff
    (hTick : s.tick P = .ok s')
    (hs : s.PcSources)
    (hEven : PcEven s.hart) :
    PcEven s'.hart ↔ ¬ ReturnsOdd P s := by
  constructor
  · rintro hDone ⟨hInt, i, d, b, hExec, hOdd⟩
    rcases hExec.tick_cases hInt hTick with
      ⟨out, b', hOp, hEnd⟩
    rcases hOdd.exec_odd hOp with ⟨rfl, hPc⟩
    rcases hEnd with ⟨hFail, -⟩ | ⟨-, j, rfl⟩
    · cases hFail
    · have hRetired : ((b'.retire .jumped).setJctx j).hart.pc =
          b'.hart.pc :=
        BitVec.add_zero _
      unfold PcEven at hDone
      rw [hRetired] at hDone
      exact hPc hDone
  · intro hNot
    have hPre := State.preTick_even hEven
    rcases State.tick_cases hTick with
      ⟨b, rfl⟩ | ⟨f, hEntry, -, hCall⟩ | ⟨f, -, rfl⟩ |
      ⟨hInt, hTick⟩
    · exact hPre
    · refine State.callBlock_even hPre ?_ hCall
      unfold State.jitEntry at hEntry
      dsimp only at hEntry
      split at hEntry
      · cases hEntry
        exact hs.preTick.sizes.jits _
      · cases hEntry
    · exact hPre
    · have hFetch : s.atFetch.PcSources :=
        hs.preTick.of_eq rfl rfl
      rcases State.interpret_cases hTick with
        ⟨m, val, s₁, hRead, hRun⟩
      have hAfter := (hFetch.mmioRead hRead).afterFetch m
      have hFetched : PcEven (s₁.afterFetch m).hart := by
        unfold State.afterFetch
        split
        · unfold PcEven
          rw [State.mmioRead_hart hRead]
          exact hPre
        · exact Hart.trap_even _ _ _ _
      have hPc : PcEven ((s₁.afterFetch m).decode
          (val.setWidth 32)).2.hart := hFetched
      rcases State.runEntry_cases hRun with
        ⟨-, rfl⟩ | ⟨i, out, s₂, hSel, hOp, hEnd⟩
      · exact Hart.trap_even _ _ _ _
      · rcases hAfter.selected hSel with ⟨hMem, hImm⟩
        have hGoes : GoesEven out s₂ := by
          refine exec_goesEven_of_not_odd hPc ?_ ?_ hOp
          · intro hFunc
            rw [hImm]
            exact untestedJumps_even hMem hFunc _
          · intro hOdd
            exact hNot ⟨hInt, i, _, _, .mk hRead hSel, hOdd⟩
        rcases hEnd with ⟨-, rfl⟩ | ⟨hOk, j, -, rfl⟩
        · exact Hart.trap_even _ _ _ _
        · exact hGoes hOk

end RiscvEm

------------------------------------------------------------
-- Runs
------------------------------------------------------------

namespace RiscvEm

open WordArith (IsEven)

variable {σ : Type}
variable {P : Platform σ}
variable {m m' : Machine σ}

/- The sources of every hart of a machine. -/
structure Machine.PcSources
    (m : Machine σ) : Prop where
  cache : m.cache.Sound decoder
  sizes : ∀ c ∈ m.harts, c.jctx.SizesEven

/- A step of the machine keeps the sources. -/
theorem Machine.Step.pcSources
    {t : Option (State σ × State σ)}
    (h : Machine.Step P m t m')
    (hs : m.PcSources) :
    m'.PcSources := by
  cases h with
  | @tick i c s hCore hTick =>
      have hBefore : (m.state i c).PcSources :=
        ⟨hs.cache, hs.sizes c (List.mem_of_getElem? hCore)⟩
      have hDone := hBefore.tick hTick
      refine ⟨hDone.cache, ?_⟩
      intro c' hMem
      rcases List.mem_or_eq_of_mem_set hMem with hSame | hNew
      · exact hs.sizes c' hSame
      · rw [hNew]
        exact hDone.sizes
  | device world => exact ⟨hs.cache, hs.sizes⟩

/-
  The harts have just been initialised with even entry
  points, before anything was decoded or compiled.
-/
structure Machine.StartedEven
    (m : Machine σ) : Prop where
  cache : m.cache = .init
  harts : ∀ c ∈ m.harts, ∃ h dtb pc memsize, IsEven pc ∧
    c = ⟨Hart.init h dtb pc, .init memsize⟩

/- The sources are sound at the start. -/
theorem Machine.StartedEven.pcSources
    (h : m.StartedEven) :
    m.PcSources := by
  constructor
  · rw [h.cache]
    exact DecodeCache.sound_init
  · intro c hMem
    rcases h.harts c hMem with ⟨_, _, _, memsize, -, rfl⟩
    exact .init memsize

/- The counters are even at the start. -/
theorem Machine.StartedEven.pcEven
    (h : m.StartedEven) :
    ∀ c ∈ m.harts, PcEven c.hart := by
  intro c hMem
  rcases h.harts c hMem with ⟨_, _, _, _, hPc, rfl⟩
  exact hPc

/-
  In a run from the start, the program counter is even after
  every tick, and at the end for every hart, exactly when no
  tick returns from a trap to an odd address.
-/
theorem pc_stays_even_iff
    (P : Platform σ)
    (m m' : Machine σ)
    (ts : List (State σ × State σ))
    (hStart : m.StartedEven)
    (hRun : m.Run P ts m') :
    ((∀ t ∈ ts, PcEven t.2.hart) ∧
        ∀ c ∈ m'.harts, PcEven c.hart) ↔
      ∀ t ∈ ts, ¬ ReturnsOdd P t.1 := by
  rcases hRun.holds_iff (I := PcEven)
    (K := Machine.PcSources)
    (fun hStep hs => hStep.pcSources hs)
    (fun hs hCore hTick hEven =>
      State.tick_pcEven_iff hTick
        ⟨hs.cache, hs.sizes _ (List.mem_of_getElem? hCore)⟩
        hEven)
    hStart.pcSources hStart.pcEven with ⟨-, hHarts, hIff⟩
  rw [← hIff]
  exact ⟨fun h => h.1, fun h => ⟨h, hHarts h⟩⟩

/- A hart that was just booted. -/
theorem startedEven_single_boot
    (program : List (BitVec 32)) :
    (Machine.single (State.boot program)).StartedEven := by
  refine ⟨rfl, ?_⟩
  intro c hMem
  rw [List.mem_singleton.mp hMem]
  exact ⟨Hart.zero 0, 0x800E0000, 0x80000000, _, by decide, rfl⟩

/- `mret` with `mepc` at its initial value. -/
def evenMretProgram : List (BitVec 32) :=
  [0x30200073]

/- `csrrwi x0, mepc, 1` and `mret`. -/
def oddMretProgram : List (BitVec 32) :=
  [0x3410D073, 0x30200073]

/- The return to address zero is even. -/
theorem pc_stays_even_mret :
    ∃ s, (Machine.single (State.boot evenMretProgram)).Run
        Platform.bare [(State.boot evenMretProgram, s)]
        (.single s) ∧
      ¬ ReturnsOdd Platform.bare
        (State.boot evenMretProgram) := by
  have hPc : ((State.boot evenMretProgram).evalTick
      Platform.bare).toOption.map (fun s => s.hart.pc) =
      some 0 := by
    decide +kernel
  rcases Option.map_eq_some_iff.mp hPc with ⟨s, hTick, hs⟩
  rw [toOption_eq_some, ← State.tick_eq_evalTick] at hTick
  have hRun := Machine.Run.start.tick_single rfl hTick
  have hEven : PcEven s.hart := by
    unfold PcEven
    rw [hs]
    exact .zero
  refine ⟨s, hRun, ?_⟩
  refine (pc_stays_even_iff Platform.bare _ _ _
    (startedEven_single_boot _) hRun).mp ⟨?_, ?_⟩ _
    (List.mem_singleton_self _)
  · intro t hMem
    rw [List.mem_singleton.mp hMem]
    exact hEven
  · intro c hMem
    rw [List.mem_singleton.mp hMem]
    exact hEven

/- The return to address one is not. -/
theorem pc_odd_after_mret :
    (Machine.single (State.boot oddMretProgram)).StartedEven ∧
    ∃ ts s, (Machine.single (State.boot oddMretProgram)).Run
        Platform.bare ts (.single s) ∧
      s.hart.pc = 1 ∧ ¬ PcEven s.hart := by
  have hPc : (State.evalTicks Platform.bare 2
      (State.boot oddMretProgram)).toOption.map
        (fun s => s.hart.pc) = some 1 := by
    decide +kernel
  rcases Option.map_eq_some_iff.mp hPc with ⟨s, hTicks, hs⟩
  rw [toOption_eq_some] at hTicks
  rcases run_of_evalTicks 2 Machine.Run.start rfl hTicks with
    ⟨⟨ts, hRun, -⟩, -⟩
  refine ⟨startedEven_single_boot _, ts, s, hRun, hs, ?_⟩
  unfold PcEven
  rw [hs]
  decide

end RiscvEm
