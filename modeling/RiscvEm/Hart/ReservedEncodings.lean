import RiscvEm.Hart.FloatState
import RiscvEm.Hart.Precise

/-
  The compressed encodings that RV64C reserves. Most of them
  lie in a pattern of the decoder, whose function executes
  them; only two rows of them trap.

  Key definitions include:
    * `ReservedC`
    * `NotRegistered`
    * `TrapsIllegal`

  Key theorems include `reserved_traps_iff`.
-/

------------------------------------------------------------
-- Reserved Encodings
------------------------------------------------------------

namespace RiscvEm

variable {σ : Type}

/-
  The half-words that are no instruction of RV64C, by the
  fields that are zero or reserved.
-/
inductive ReservedC
    (h : BitVec 16) : Prop
  -- C.ADDI4SPN without an immediate, and the zero half-word
  | addi4spn : h &&& 0xFFE3 = 0x0000 → ReservedC h
  | quadrant0 : h &&& 0xE003 = 0x8000 → ReservedC h
  -- C.ADDIW with `rd = 0`
  | addiw : h &&& 0xEF83 = 0x2001 → ReservedC h
  -- C.LUI and C.ADDI16SP without an immediate
  | lui : h &&& 0xF07F = 0x6001 → ReservedC h
  | miscAlu : h &&& 0xFC43 = 0x9C41 → ReservedC h
  -- C.LWSP and C.LDSP with `rd = 0`
  | lwsp : h &&& 0xEF83 = 0x4002 → ReservedC h
  | ldsp : h &&& 0xEF83 = 0x6002 → ReservedC h
  -- C.JR with `rs1 = 0`
  | jr : h &&& 0xFFFF = 0x8002 → ReservedC h

/-
  The rows for which `init_rv64c` registers no pattern: row
  `100` of quadrant 0, and the upper half of the word
  operations of the arithmetic group.
-/
def NotRegistered
    (h : BitVec 16) : Prop :=
  h &&& 0xE003 = 0x8000 ∨ h &&& 0xFC43 = 0x9C41

/-
  The tick that began in `s` and fetched `w` ended in `s'`
  with the exception for it. Every tick clears `x0`.
-/
structure TrapsIllegal
    (s b : State σ)
    (w : BitVec 32)
    (s' : State σ) : Prop where
  raised : s'.trace =
    .trap b.self EXC_ILLEGAL_INSTRUCTION (w.setWidth 64)
      false :: b.trace
  entered : TrappedAt b s' EXC_ILLEGAL_INSTRUCTION
    (w.setWidth 64)
  gpr : s'.hart.GPR = Function.update s.hart.GPR 0 0
  mem : s'.mem = s.mem

end RiscvEm

------------------------------------------------------------
-- Selection
------------------------------------------------------------

namespace RiscvEm

variable {w : BitVec 32}

/- The functions that execute reserved encodings. -/
def takesReserved : Op → Bool
  | .C_ADDI4SPN | .C_ADDIW | .C_LUI_ADDI16SP => true
  | .C_LWSP | .C_LDSP | .C_JR => true
  | _ => false

/- Nothing is selected in a gap of the table. -/
theorem bestMatch_gapC
    {mask fixed : BitVec 16}
    (h : w.setWidth 16 &&& mask = fixed)
    (hTable : mask.setWidth 32 &&& 0x3 = 0x3 ∧
      rowIsGap (announcedSize (fixed.setWidth 32))
        (mask.setWidth 32) (fixed.setWidth 32)) :
    bestMatch w = none := by
  refine bestMatch_gap ?_ (row_setWidth h)
  rw [announcedSize_row (row_setWidth h) hTable.1]
  exact hTable.2

theorem NotRegistered.bestMatch_eq
    (h : NotRegistered (w.setWidth 16)) :
    bestMatch w = none := by
  rcases h with hRow | hRow
  · apply bestMatch_gapC hRow
    decide +kernel
  · apply bestMatch_gapC hRow
    decide +kernel

theorem bestMatch_takesReserved
    {mask fixed : BitVec 16}
    (k : Nat)
    (h : w.setWidth 16 &&& mask = fixed)
    (hTable : mask.setWidth 32 &&& 0x3 = 0x3 ∧
      rowTakesB (announcedSize (fixed.setWidth 32))
        (mask.setWidth 32) (fixed.setWidth 32) k = true ∧
      (allInstrs[k]?).map (takesReserved ·.func) =
        some true) :
    ∃ i, bestMatch w = some i ∧
      takesReserved i.func = true := by
  rcases hTable with ⟨hMask, hTakes, hOp⟩
  rw [← Option.map_eq_some_iff, ← hOp]
  apply congrArg
  refine bestMatch_row ?_ (row_setWidth h)
  rw [announcedSize_row (row_setWidth h) hMask]
  exact rowTakes_of_rowTakesB hTakes

/- The other reserved rows are taken by a pattern. -/
theorem ReservedC.bestMatch_eq
    (h : ReservedC (w.setWidth 16)) :
    NotRegistered (w.setWidth 16) ∨
      ∃ i, bestMatch w = some i ∧
        takesReserved i.func = true := by
  cases h with
  | quadrant0 hRow => exact Or.inl (Or.inl hRow)
  | miscAlu hRow => exact Or.inl (Or.inr hRow)
  | addi4spn hRow =>
      refine Or.inr (bestMatch_takesReserved 149 hRow ?_)
      decide +kernel
  | addiw hRow =>
      refine Or.inr (bestMatch_takesReserved 156 hRow ?_)
      decide +kernel
  | lui hRow =>
      refine Or.inr (bestMatch_takesReserved 158 hRow ?_)
      decide +kernel
  | lwsp hRow =>
      refine Or.inr (bestMatch_takesReserved 172 hRow ?_)
      decide +kernel
  | ldsp hRow =>
      refine Or.inr (bestMatch_takesReserved 173 hRow ?_)
      decide +kernel
  | jr hRow =>
      refine Or.inr (bestMatch_takesReserved 174 hRow ?_)
      decide +kernel

end RiscvEm

------------------------------------------------------------
-- Ticks On Reserved Encodings
------------------------------------------------------------

namespace RiscvEm

variable {σ : Type}
variable {P : Platform σ}
variable {s s' b : State σ}

theorem State.setCsr_mem
    (s : State σ)
    (n : BitVec 16)
    (v : BitVec 64) :
    (s.setCsr n v).mem = s.mem := by
  unfold State.setCsr
  split
  · rfl
  · rfl

theorem State.setCsr_gpr
    (s : State σ)
    (n : BitVec 16)
    (v : BitVec 64) :
    (s.setCsr n v).hart.GPR = s.hart.GPR := by
  unfold State.setCsr
  split
  · rfl
  · rfl

/- Interrupts change neither memory nor registers. -/
theorem State.checkInts_kept
    (s : State σ) :
    s.checkInts.mem = s.mem ∧
      s.checkInts.hart.GPR = s.hart.GPR := by
  unfold State.checkInts
  split
  · exact ⟨rfl, (Hart.trap_regs _ _ _ _).2.2⟩
  · exact ⟨rfl, rfl⟩

theorem State.atFetch_kept
    (s : State σ) :
    s.atFetch.mem = s.mem ∧
      s.atFetch.hart.GPR =
        Function.update s.hart.GPR 0 0 := by
  change s.preTick.mem = s.mem ∧ s.preTick.hart.GPR = _
  unfold State.preTick
  dsimp only
  split
  · rw [(State.checkInts_kept _).1, (State.checkInts_kept _).2,
      State.setCsr_mem, State.setCsr_gpr]
    exact ⟨rfl, rfl⟩
  · rw [State.setCsr_mem, State.setCsr_gpr]
    exact ⟨rfl, rfl⟩

theorem Fetched.kept
    {w : BitVec 32}
    {entry : InstructionCache}
    (h : Fetched P s w entry b) :
    b.mem = s.mem ∧ b.hart.GPR = s.hart.GPR := by
  cases h with
  | mk hRead hOk =>
      rename_i s₁
      have hFrame : s₁.mem = s.mem ∧
          s₁.hart.GPR = s.hart.GPR := by
        rw [State.mmioRead_frame hRead]
        exact ⟨rfl, rfl⟩
      exact hFrame

/- The word of a fetch selects what the table has for it. -/
theorem Fetched.selected_eq
    {w : BitVec 32}
    {entry : InstructionCache}
    (h : Fetched P s w entry b)
    (hCache : s.cache.Sound decoder) :
    entry.selected = bestMatch w := by
  cases h with
  | mk hRead hOk =>
      rename_i s₁
      have hSame : s₁.cache = s.cache := by
        rw [State.mmioRead_frame hRead]
      rw [← hSame] at hCache
      rw [State.decode_selected _ hCache, matchEntry_selected]

/- Without a selected instruction the tick traps. -/
theorem trapsIllegal_of_none
    {w : BitVec 32}
    {entry : InstructionCache}
    (hInt : s.Interprets)
    (hFetched : Fetched P s.atFetch w entry b)
    (hSel : entry.selected = none) :
    ∃ s', s.tick P = .ok s' ∧ TrapsIllegal s b w s' := by
  refine ⟨b.stopAndTrap EXC_ILLEGAL_INSTRUCTION
    (w.setWidth 64), ?_, ?_⟩
  · rw [hInt.tick_eq, hFetched.interpret_eq]
    unfold State.runEntry
    rw [hSel]
  · constructor
    · rfl
    · exact ⟨rfl, rfl, rfl⟩
    · rw [← s.atFetch_kept.2, ← hFetched.kept.2]
      exact (Hart.trap_regs _ _ _ _).2.2
    · rw [← s.atFetch_kept.1, ← hFetched.kept.1]
      rfl

/- A load reports a fault of loads and traps nowhere. -/
theorem execLoad_reports
    {n : BitVec 64}
    {size : MemorySize}
    {addr : State σ → BitVec 64}
    {put : State σ → BitVec 64 → State σ}
    {out : ExecReturn}
    (hPut : ∀ s val, (put s val).trace = s.trace)
    (h : execLoad P n size addr put s = .ok (out, s')) :
    s'.trace = s.trace ∧
      (out.isSuccess = false →
        out.cause = EXC_LOAD_ACCESS_FAULT) := by
  rcases bind_eq_ok.mp h with ⟨⟨m, val, s₁⟩, hRead, hEnd⟩
  cases hEnd
  rcases State.mmioRead_cases hRead with
    ⟨hOk, hEq⟩ | ⟨rfl, rfl, rfl⟩
  · constructor
    · rw [hOk, if_pos rfl, hPut, State.mmioRead_trace hRead]
    · intro hFail
      cases hOk.symm.trans hFail
  · exact ⟨rfl, fun _ => rfl⟩

theorem takesReserved_exec
    {op : Op}
    {d : InstructionData}
    {out : ExecReturn}
    (hOp : takesReserved op = true)
    (h : op.exec P d s = .ok (out, s')) :
    s'.trace = s.trace ∧
      (out.isSuccess = false →
        out.cause = EXC_LOAD_ACCESS_FAULT) := by
  unfold takesReserved at hOp
  split at hOp
  case h_1 | h_2 | h_6 =>
    cases h
    exact ⟨rfl, fun hFail => by cases hFail⟩
  case h_3 =>
    change execC_LUI_ADDI16SP P d s = _ at h
    unfold execC_LUI_ADDI16SP at h
    split at h
    · cases h
      exact ⟨rfl, fun hFail => by cases hFail⟩
    · cases h
      exact ⟨rfl, fun hFail => by cases hFail⟩
  case h_4 =>
    change execC_LWSP P d s = _ at h
    refine execLoad_reports ?_ h
    intro s val
    rfl
  case h_5 =>
    change execC_LDSP P d s = _ at h
    refine execLoad_reports ?_ h
    intro s val
    rfl
  case h_7 => cases hOp

/- A pattern that takes the word does not report it. -/
theorem not_trapsIllegal_of_some
    {w : BitVec 32}
    {entry : InstructionCache}
    {i : Instruction}
    (hInt : s.Interprets)
    (hFetched : Fetched P s.atFetch w entry b)
    (hSel : entry.selected = some i)
    (hOp : takesReserved i.func = true) :
    ¬ ∃ s', s.tick P = .ok s' ∧ TrapsIllegal s b w s' := by
  rintro ⟨s', hTick, hTraps⟩
  have hRaised := hTraps.raised
  rw [hInt.tick_eq, hFetched.interpret_eq] at hTick
  rcases State.runEntry_cases hTick with
    ⟨hNone, -⟩ | ⟨i', out, s₁, hSel', hExec, hEnd⟩
  · rw [hSel] at hNone
    cases hNone
  · rw [hSel] at hSel'
    cases hSel'
    rcases takesReserved_exec hOp hExec with ⟨hTrace, hCause⟩
    rcases hEnd with ⟨hFail, rfl⟩ | ⟨-, j, -, rfl⟩
    · -- a refused load reports another cause
      have hEvent := (List.cons.inj hRaised).1
      injection hEvent with _ hCause' _ _
      rw [hCause hFail] at hCause'
      exact absurd hCause' (by decide)
    · -- an executed instruction reports nothing
      have hSame : ((s₁.retire out).setJctx j).trace =
          b.trace := by
        rw [← hTrace]
        exact s₁.retire_trace out
      rw [hSame] at hRaised
      exact List.cons_ne_self _ _ hRaised.symm

/-
  Of the encodings that RV64C reserves, a tick that fetches
  one raises the exception for it exactly when the decoder
  has no pattern for its row.
-/
theorem reserved_traps_iff
    (P : Platform σ)
    (s b : State σ)
    (w : BitVec 32)
    (entry : InstructionCache)
    (hCache : s.cache.Sound decoder)
    (hInt : s.Interprets)
    (hFetched : Fetched P s.atFetch w entry b)
    (hReserved : ReservedC (w.setWidth 16)) :
    (∃ s', s.tick P = .ok s' ∧ TrapsIllegal s b w s') ↔
      NotRegistered (w.setWidth 16) := by
  have hSel := hFetched.selected_eq
    (State.atFetch_sound hCache)
  constructor
  · intro hTraps
    rcases hReserved.bestMatch_eq with hRow | ⟨i, hBest, hOp⟩
    · exact hRow
    · rw [hBest] at hSel
      exact absurd hTraps
        (not_trapsIllegal_of_some hInt hFetched hSel hOp)
  · intro hRow
    rw [hRow.bestMatch_eq] at hSel
    exact trapsIllegal_of_none hInt hFetched hSel

/- A fetch of the first word of RAM. -/
theorem fetched_of_ram
    {s : State Unit}
    {data : Bytes}
    {val : BitVec 64}
    (hPc : s.hart.pc = 0x80000000)
    (hRam : s.mem.RamIs ⟨0x80000000, 0x100000, data⟩)
    (hWord : composeLe data 0 4 = val) :
    ∃ entry b,
      Fetched Platform.bare s (val.setWidth 32) entry b := by
  have hDram : takesDram Platform.bare 0x80000000 .Int := by
    decide
  have hOffset : (0x80000000 - 0x80000000 : BitVec 64).toNat =
      0 := by
    decide
  have hRead : s.mmioRead Platform.bare s.hart.pc .Int =
      .ok (⟨true, 0, 0⟩, val, s) := by
    rw [hPc, State.mmioRead_dram hRam rfl hDram (by decide),
      hOffset, ← hWord]
    rfl
  exact ⟨_, _, Fetched.mk hRead rfl⟩

theorem State.boot_fetched
    (ws : List (BitVec 32))
    {val : BitVec 64}
    (hWord : composeLe (Bytes.ofWords ws) 0 4 = val) :
    ∃ entry b, Fetched Platform.bare
      ((State.boot ws).setPc 0x80000000).atFetch
      (val.setWidth 32) entry b := by
  refine fetched_of_ram ?_ ?_ hWord
  · unfold State.atFetch
    rw [State.preTick_quiet _ rfl]
    rfl
  · rw [(State.atFetch_kept _).1]
    exact ⟨rfl, rfl⟩

/- A word of the reserved row of quadrant 0. -/
theorem quadrant0_traps :
    let s := (State.boot [0x00008000]).setPc 0x80000000
    ∃ entry b, Fetched Platform.bare s.atFetch 0x00008000
        entry b ∧
      ∃ s', s.tick Platform.bare = .ok s' ∧
        TrapsIllegal s b 0x00008000 s' := by
  intro s
  rcases State.boot_fetched [0x00008000] rfl with
    ⟨entry, b, hFetched⟩
  refine ⟨entry, b, hFetched, ?_⟩
  apply (reserved_traps_iff Platform.bare s b 0x00008000 entry
    DecodeCache.sound_init (State.boot_interprets _ _)
    hFetched (.quadrant0 (by decide))).mpr
  exact Or.inl (by decide)

/- The zero word is executed as C.ADDI4SPN. -/
theorem zero_word_not_illegal :
    let s := (State.boot []).setPc 0x80000000
    ReservedC 0x0000 ∧
    ∃ entry b, Fetched Platform.bare s.atFetch 0x00000000
        entry b ∧
      ¬ ∃ s', s.tick Platform.bare = .ok s' ∧
        TrapsIllegal s b 0x00000000 s' := by
  intro s
  refine ⟨.addi4spn (by decide), ?_⟩
  rcases State.boot_fetched [] rfl with ⟨entry, b, hFetched⟩
  refine ⟨entry, b, hFetched, ?_⟩
  have hSel := hFetched.selected_eq
    (State.atFetch_sound DecodeCache.sound_init)
  rcases Option.map_eq_some_iff.mp bestMatch_zero with
    ⟨i, hBest, hFunc⟩
  apply not_trapsIllegal_of_some (State.boot_interprets _ _)
    hFetched (hSel.trans hBest)
  rw [hFunc]
  rfl

end RiscvEm
