import RiscvEm.Hart.FreshBlocks

/-
  The count of retired instructions: over a run, `instret`
  grows by the instructions that complete, except where
  compiled code runs or an instruction that traps is retired
  all the same.

  Key definitions include:
    * `State.instret`
    * `State.completed`
    * `CountsRight`

  Key theorems include:
    * `State.tick_instret_iff`
    * `instret_counts_iff`
-/

------------------------------------------------------------
-- Completed Instructions
------------------------------------------------------------

namespace RiscvEm

variable {σ : Type}
variable {P : Platform σ}
variable {s s' : State σ}

/- What is read through the `instret` register. -/
def State.instret
    (s : State σ) : BitVec 64 :=
  (s.csrRead CSR_INSTRET).1

/-
  The guest instructions that complete in a tick from `s` to
  `s'`: those of the block that it calls, or the one that it
  interprets if no exception is entered.
-/
def State.completed
    (s s' : State σ) : Nat :=
  if s.preTick.hart.WFI then
    0
  else
    match s.preTick.jitEntry with
    | some f =>
        if s.preTick.isCurrent f then f.words.length else 0
    | none =>
        if syncTraps s'.trace = syncTraps s.trace then 1 else 0

/-
  The tick calls no compiled code, fetches where it may, and
  does not access a floating-point register while the unit
  is off.
-/
structure CountsRight
    (P : Platform σ)
    (s : State σ) : Prop where
  noCall : s.preTick.hart.WFI = false →
    ∀ f, s.preTick.jitEntry = some f →
      s.preTick.isCurrent f = false
  accepted : s.Interprets → FetchAccepted P s.atFetch.hart.pc
  allowed : s.Interprets →
    ∀ i d b, Executes P s.atFetch i d b →
      ¬ FloatCsrDenied b i.func d

theorem State.instret_eq
    (s : State σ) :
    s.instret = s.hart.csrs CSR_MINSTRET :=
  rfl

/- Fewer than `2^64` instructions are told apart. -/
theorem ofNat_add_eq_iff
    (v : BitVec 64)
    {a b : Nat}
    (ha : a < 2 ^ 64)
    (hb : b < 2 ^ 64) :
    v + BitVec.ofNat 64 a = v + BitVec.ofNat 64 b ↔ a = b := by
  constructor
  · intro h
    have hNat := congrArg BitVec.toNat
      (BitVec.add_right_inj v |>.mp h)
    rw [BitVec.toNat_ofNat, BitVec.toNat_ofNat,
      Nat.mod_eq_of_lt ha, Nat.mod_eq_of_lt hb] at hNat
    exact hNat
  · intro h
    rw [h]

end RiscvEm

------------------------------------------------------------
-- Ticks Of The Interpreter
------------------------------------------------------------

namespace RiscvEm

variable {σ : Type}
variable {P : Platform σ}
variable {s s' b : State σ}

theorem ExecKept.instret_eq
    (h : ExecKept s s') :
    s'.instret = s.instret :=
  h.instret

theorem State.retire_instret
    (s : State σ)
    (out : ExecReturn) :
    (s.retire out).instret = s.instret + 1 := by
  have hNe : CSR_MINSTRET ≠ CSR_TIME := by decide
  rw [instret_eq, instret_eq]
  unfold retire setCsr csr
  rw [if_neg hNe, if_neg hNe]
  exact Function.update_self CSR_MINSTRET
    (s.hart.csrs CSR_MINSTRET + 1) s.hart.csrs

theorem State.stopAndTrap_instret
    (s : State σ)
    (cause tval : BitVec 64) :
    (s.stopAndTrap cause tval).instret = s.instret :=
  (ExecKept.trap s cause tval false).instret

theorem State.afterFetch_syncTraps
    (s : State σ)
    (m : MemoryReturn) :
    syncTraps (s.afterFetch m).trace =
      syncTraps s.trace + (if m.isSuccess then 0 else 1) := by
  unfold afterFetch
  split
  · rfl
  · exact syncTraps_trap _ _ _ _ _

/- A denied access succeeds after it has entered a trap. -/
theorem FloatCsrDenied.exec_traps
    {op : Op}
    {d : InstructionData}
    {out : ExecReturn}
    (hDenied : FloatCsrDenied b op d)
    (h : op.exec P d b = .ok (out, s')) :
    out.isSuccess = true ∧
      syncTraps b.trace < syncTraps s'.trace := by
  have hRun := hDenied.exec P
  rw [h] at hRun
  cases hRun with
  | twice hTrace =>
      rw [hTrace, State.denied_syncTraps,
        State.denied_syncTraps]
      exact ⟨rfl, by omega⟩
  | vector hTrace _ =>
      rw [hTrace, State.denied_syncTraps]
      exact ⟨rfl, Nat.lt_succ_self _⟩

/-
  What follows the fetch is retired and enters no trap,
  traps without being retired, or is a denied access.
-/
theorem runEntry_counts
    {entry : InstructionCache}
    {w : BitVec 32}
    {pc : BitVec 64}
    (h : b.runEntry P entry w pc = .ok s') :
    (s'.instret = b.instret ∧
        syncTraps s'.trace = syncTraps b.trace + 1 ∧
        ∀ i, entry.selected = some i →
          ¬ FloatCsrDenied b i.func entry.data) ∨
      (s'.instret = b.instret + 1 ∧ ∃ i,
        entry.selected = some i ∧
        syncTraps b.trace ≤ syncTraps s'.trace ∧
        (syncTraps s'.trace = syncTraps b.trace ↔
          ¬ FloatCsrDenied b i.func entry.data)) := by
  rcases State.runEntry_cases h with
    ⟨hNone, rfl⟩ | ⟨i, out, s₁, hSel, hExec, hEnd⟩
  · refine Or.inl ⟨b.stopAndTrap_instret _ _,
      b.stopAndTrap_syncTraps _ _, ?_⟩
    intro i hSel
    rw [hNone] at hSel
    cases hSel
  · have hKept := ExecKept.exec i.func hExec
    rcases hEnd with ⟨hFail, rfl⟩ | ⟨hOk, j, -, rfl⟩
    · -- a denied access would have succeeded
      have hAllowed : ¬ FloatCsrDenied b i.func entry.data := by
        intro hDenied
        rw [(hDenied.exec_traps hExec).1] at hFail
        cases hFail
      have hFree := (Op.exec_effect _ hExec).trapFree hAllowed
      refine Or.inl ⟨?_, ?_, ?_⟩
      · rw [State.stopAndTrap_instret, hKept.instret_eq]
      · rw [State.stopAndTrap_syncTraps, hFree.syncTraps_eq]
      · intro i' hSel'
        cases Option.some.inj (hSel.symm.trans hSel')
        exact hAllowed
    · have hTrace : ((s₁.retire out).setJctx j).trace =
          s₁.trace := s₁.retire_trace out
      have hCount : ((s₁.retire out).setJctx j).instret =
          s₁.instret + 1 := s₁.retire_instret out
      refine Or.inr ⟨?_, i, hSel, ?_⟩
      · rw [hCount, hKept.instret_eq]
      · rw [hTrace]
        by_cases hDenied : FloatCsrDenied b i.func entry.data
        · have hMore := (hDenied.exec_traps hExec).2
          refine ⟨le_of_lt hMore, ?_⟩
          constructor
          · intro hSame
            omega
          · intro hNot
            exact absurd hDenied hNot
        · have hSame := ((Op.exec_effect _ hExec).trapFree
            hDenied).syncTraps_eq
          exact ⟨le_of_eq hSame.symm,
            ⟨fun _ => hDenied, fun _ => hSame⟩⟩

/- The word that a refused fetch yields is retired. -/
theorem runEntry_refused
    {pc : BitVec 64}
    (hCache : b.cache.Sound decoder)
    (h : (b.decode 0).2.runEntry P (b.decode 0).1 0 pc =
      .ok s') :
    s'.instret = b.instret + 1 := by
  rcases Option.map_eq_some_iff.mp bestMatch_zero with
    ⟨i₀, hBest, hFunc⟩
  have hEntry := State.decode_selected b hCache 0
  rw [hBest] at hEntry
  rcases State.runEntry_cases h with
    ⟨hSel, -⟩ | ⟨i, out, s₂, hSel, hExec, hEnd⟩
  · rw [hEntry] at hSel
    cases hSel
  · have hKept := ExecKept.exec i.func hExec
    rw [hEntry] at hSel hExec
    cases hSel
    rw [hFunc] at hExec
    cases hExec
    rcases hEnd with ⟨hFail, -⟩ | ⟨-, j, -, rfl⟩
    · cases hFail
    · exact (State.retire_instret _ _).trans
        (congrArg (· + 1) hKept.instret_eq)

/- The tick of the interpreter completes at most one. -/
theorem State.Interprets.completed_eq
    (hInt : s.Interprets) :
    s.completed s' =
      if syncTraps s'.trace = syncTraps s.trace then 1
      else 0 := by
  unfold State.completed
  rw [hInt.awake, hInt.noBlock, if_neg Bool.false_ne_true]

/- A fetch succeeds exactly when it is accepted. -/
theorem fetch_accepted_iff
    {pc val : BitVec 64}
    {m : MemoryReturn}
    (hRead : s.mmioRead P pc .Int = .ok (m, val, s')) :
    FetchAccepted P pc ↔ m.isSuccess = true := by
  constructor
  · intro hAccepted
    exact fetch_accepted hAccepted hRead
  · intro hOk
    by_contra hRefused
    rw [fetch_refused s hRefused] at hRead
    cases hRead
    cases hOk

/- What is executed is determined by what is fetched. -/
theorem Executes.eq_of_read
    {m : MemoryReturn}
    {val : BitVec 64}
    {s₁ : State σ}
    {i : Instruction}
    {d : InstructionData}
    (h : Executes P s i d b)
    (hRead : s.mmioRead P s.hart.pc .Int =
      .ok (m, val, s₁)) :
    ((s₁.afterFetch m).decode
        (val.setWidth 32)).1.selected = some i ∧
      d = ((s₁.afterFetch m).decode (val.setWidth 32)).1.data ∧
      b = ((s₁.afterFetch m).decode (val.setWidth 32)).2 := by
  cases h with
  | mk hRead' hSel =>
      cases Except.ok.inj (hRead'.symm.trans hRead)
      exact ⟨hSel, rfl, rfl⟩

/- A tick after a refused fetch retires an instruction. -/
theorem interpret_refused
    (hCache : s.cache.Sound decoder)
    (hRefused : ¬ FetchAccepted P s.hart.pc)
    (h : s.interpret P = .ok s') :
    s'.instret = s.instret + 1 := by
  have hRead := fetch_refused s hRefused
  have hTrapped : ExecKept s (s.afterFetch
      ⟨false, EXC_LOAD_ACCESS_FAULT, s.hart.pc⟩) :=
    .afterFetch s _
  rw [State.interpret_of_read hRead] at h
  rw [← hTrapped.instret_eq]
  exact runEntry_refused (b := s.afterFetch _) hCache h

/-
  The interpreter counts what it completes exactly when the
  fetch is accepted and no access is denied.
-/
theorem interpret_instret_iff
    (hCache : s.cache.Sound decoder)
    (hInt : s.Interprets)
    (hTick : s.tick P = .ok s') :
    s'.instret =
        s.instret + BitVec.ofNat 64 (s.completed s') ↔
      CountsRight P s := by
  have hDone := hTick
  rw [hInt.tick_eq] at hDone
  rcases State.interpret_cases hDone with
    ⟨m, val, s₁, hRead, hRun⟩
  have hBefore := (ExecKept.fetched hRead).instret_eq
  have hAccepted := fetch_accepted_iff hRead
  -- what the fetch has added to the traps
  have hTraps : syncTraps ((s₁.afterFetch m).decode
      (val.setWidth 32)).2.trace =
      syncTraps s.trace + (if m.isSuccess then 0 else 1) := by
    have hSame : syncTraps s₁.trace = syncTraps s.trace := by
      rw [State.mmioRead_trace hRead]
      exact s.preTick_syncTraps
    rw [← hSame]
    exact s₁.afterFetch_syncTraps m
  have hNoCall : s.preTick.hart.WFI = false →
      ∀ f, s.preTick.jitEntry = some f →
        s.preTick.isCurrent f = false := by
    intro _ f hEntry
    rw [hInt.noBlock] at hEntry
    cases hEntry
  rw [hInt.completed_eq]
  rcases runEntry_counts hRun with
    ⟨hKept, hTrapped, hAllowed⟩ |
    ⟨hRetired, i, hSel, hMore, hIff⟩
  · -- nothing is retired, so the fetch was accepted
    have hZero : syncTraps s'.trace ≠ syncTraps s.trace := by
      rw [hTrapped, hTraps]
      omega
    rw [if_neg hZero, hKept, hBefore]
    have hFetch : FetchAccepted P s.atFetch.hart.pc := by
      by_contra hRefused
      have hOne := interpret_refused (State.atFetch_sound hCache)
        hRefused hDone
      have hStart := (ExecKept.atFetch s).instret_eq
      rw [hKept, hBefore, hStart] at hOne
      exact absurd hOne (by simp)
    constructor
    · intro _
      refine ⟨hNoCall, fun _ => hFetch, ?_⟩
      intro _ i d b hExec
      rcases hExec.eq_of_read hRead with ⟨hSel, rfl, rfl⟩
      exact hAllowed i hSel
    · intro _
      exact (BitVec.add_zero _).symm
  · -- one is retired, and completes if nothing has trapped
    rw [hRetired, hBefore]
    by_cases hSame : syncTraps s'.trace = syncTraps s.trace
    · rw [if_pos hSame]
      refine ⟨fun _ => ?_, fun _ => rfl⟩
      have hOk : m.isSuccess = true := by
        by_contra hFail
        rw [if_neg hFail] at hTraps
        omega
      rw [if_pos hOk] at hTraps
      refine ⟨hNoCall, fun _ => hAccepted.mpr hOk, ?_⟩
      intro _ i' d b hExec
      rcases hExec.eq_of_read hRead with ⟨hSel', rfl, rfl⟩
      cases Option.some.inj (hSel.symm.trans hSel')
      exact hIff.mp (hSame.trans hTraps.symm)
    · rw [if_neg hSame]
      constructor
      · intro hEq
        exact absurd hEq (by simp)
      · intro hRight
        have hOk := hAccepted.mp (hRight.accepted hInt)
        have hAllowed := hRight.allowed hInt i _ _
          (.mk hRead hSel)
        rw [if_pos hOk] at hTraps
        exact absurd ((hIff.mpr hAllowed).trans hTraps) hSame

theorem State.not_interprets_of_wait
    (hWait : s.preTick.hart.WFI = true) :
    ¬ s.Interprets := by
  intro hInt
  have hAwake := hInt.awake
  rw [hWait] at hAwake
  cases hAwake

theorem State.not_interprets_of_entry
    {f : JitFunction}
    (hEntry : s.preTick.jitEntry = some f) :
    ¬ s.Interprets := by
  intro hInt
  have hNone := hInt.noBlock
  rw [hEntry] at hNone
  cases hNone

/- A hart that waits completes and counts nothing. -/
theorem wait_instret
    (hWait : s.preTick.hart.WFI = true)
    (hTick : s.tick P = .ok s') :
    s'.instret = s.instret ∧ s.completed s' = 0 := by
  constructor
  · unfold State.tick at hTick
    dsimp only at hTick
    rw [if_pos hWait] at hTick
    cases hTick
    rw [← (ExecKept.preTick s).instret_eq]
    split
    · rfl
    · rfl
  · unfold State.completed
    exact if_pos hWait

/- A block that is found has at least one instruction. -/
theorem State.jitEntry_words
    (hj : s.jctx.Tidy)
    {f : JitFunction}
    (hEntry : s.jitEntry = some f) :
    1 ≤ f.words.length ∧
      f.words.length ≤ RVJIT_MAX_INSTRUCTIONS := by
  unfold jitEntry at hEntry
  dsimp only at hEntry
  split at hEntry
  case isTrue hFound =>
    cases hEntry
    exact hj.words _ hFound.2.1
  case isFalse => cases hEntry

/- Calling a block or dropping it counts nothing. -/
theorem entry_instret
    {f : JitFunction}
    (hAwake : s.preTick.hart.WFI = false)
    (hEntry : s.preTick.jitEntry = some f)
    (hTick : s.tick P = .ok s') :
    s'.instret = s.instret ∧ s.completed s' =
      if s.preTick.isCurrent f = true then f.words.length
      else 0 := by
  have hPre := ExecKept.preTick s
  constructor
  · rw [State.tick_of_entry hAwake hEntry] at hTick
    rw [← hPre.instret_eq]
    split at hTick
    · exact (ExecKept.callBlock hTick).instret_eq
    · cases hTick
      rfl
  · unfold State.completed
    rw [hAwake, if_neg Bool.false_ne_true, hEntry]

/-
  A tick counts what it completes exactly when it calls no
  block and its instruction does not trap on the side.
-/
theorem State.tick_instret_iff
    (hCache : s.cache.Sound decoder)
    (hs : s.core.BlocksTidy)
    (hTick : s.tick P = .ok s') :
    s'.instret =
        s.instret + BitVec.ofNat 64 (s.completed s') ↔
      CountsRight P s := by
  cases hWait : s.preTick.hart.WFI with
  | true =>
      rcases wait_instret hWait hTick with ⟨hSame, hNone⟩
      have hNot := not_interprets_of_wait hWait
      rw [hSame, hNone]
      constructor
      · intro _
        refine ⟨?_, fun hInt => absurd hInt hNot,
          fun hInt => absurd hInt hNot⟩
        intro hAwake
        rw [hWait] at hAwake
        cases hAwake
      · intro _
        exact (BitVec.add_zero _).symm
  | false =>
      cases hEntry : s.preTick.jitEntry with
      | none =>
          exact interpret_instret_iff hCache ⟨hWait, hEntry⟩
            hTick
      | some f =>
          rcases entry_instret hWait hEntry hTick with
            ⟨hSame, hCount⟩
          have hNot := not_interprets_of_entry hEntry
          rw [hSame, hCount]
          cases hCurrent : s.preTick.isCurrent f with
          | true =>
              have hPre := (ExecKept.preTick s).tidy hs.jctx
              rcases jitEntry_words hPre hEntry with
                ⟨hSome, hMost⟩
              rw [if_pos rfl]
              constructor
              · intro hEq
                have hZero := (ofNat_add_eq_iff s.instret
                  (Nat.two_pow_pos 64)
                  (hMost.trans_lt (by decide))).mp
                  ((BitVec.add_zero _).trans hEq)
                omega
              · intro hRight
                have hNone := hRight.noCall hWait f hEntry
                rw [hCurrent] at hNone
                cases hNone
          | false =>
              rw [if_neg Bool.false_ne_true]
              constructor
              · intro _
                refine ⟨?_, fun hInt => absurd hInt hNot,
                  fun hInt => absurd hInt hNot⟩
                intro _ g hFound
                rw [hEntry] at hFound
                cases hFound
                exact hCurrent
              · intro _
                exact (BitVec.add_zero _).symm

end RiscvEm

------------------------------------------------------------
-- Runs
------------------------------------------------------------

namespace RiscvEm

variable {σ : Type}
variable {P : Platform σ}
variable {m m' : Machine σ}
variable {ts : List (State σ × State σ)}

/- The instructions that hart number `i` completes. -/
def completedBy
    (i : Nat) :
    List (State σ × State σ) → Nat
  | [] => 0
  | t :: ts =>
      (if t.1.self = i then t.1.completed t.2 else 0) +
        completedBy i ts

/-
  After every tick of hart number `i`, `instret` is `v` and
  what the hart has completed until then.
-/
def CountsAlong
    (i : Nat)
    (v : BitVec 64) :
    List (State σ × State σ) → Prop
  | [] => True
  | t :: ts =>
      (t.1.self = i → t.2.instret =
        v + BitVec.ofNat 64 (completedBy i (t :: ts))) ∧
      CountsAlong i v ts

/- What `instret` of hart number `i` is in a machine. -/
def Machine.InstretIs
    (m : Machine σ)
    (i : Nat)
    (v : BitVec 64) : Prop :=
  ∀ c, m.harts[i]? = some c → (m.state i c).instret = v

theorem completedBy_cons_self
    (t : State σ × State σ)
    (ts : List (State σ × State σ))
    (v : BitVec 64) :
    v + BitVec.ofNat 64 (completedBy t.1.self (t :: ts)) =
      v + BitVec.ofNat 64 (completedBy t.1.self ts) +
        BitVec.ofNat 64 (t.1.completed t.2) := by
  rw [completedBy, if_pos rfl, BitVec.ofNat_add,
    BitVec.add_assoc,
    BitVec.add_comm (BitVec.ofNat 64 (t.1.completed t.2))]

theorem completedBy_cons_other
    {i : Nat}
    {t : State σ × State σ}
    (h : t.1.self ≠ i)
    (ts : List (State σ × State σ)) :
    completedBy i (t :: ts) = completedBy i ts := by
  rw [completedBy, if_neg h, Nat.zero_add]

theorem completedBy_single
    {i : Nat}
    {s s' : State σ}
    (h : s.self = i) :
    completedBy i [(s, s')] = s.completed s' := by
  rw [completedBy, if_pos h]
  rfl

/- The hart that took a tick has the state that it left. -/
theorem Machine.put_instretIs
    {i : Nat}
    {s : State σ}
    {v : BitVec 64}
    (h : s.instret = v) :
    (m.put i s).InstretIs i v := by
  intro c hCore
  have hCore' : (m.harts.set i ⟨s.hart, s.jctx⟩)[i]? =
    some c := hCore
  rw [List.getElem?_set_self'] at hCore'
  rcases Option.map_eq_some_iff.mp hCore' with ⟨_, -, rfl⟩
  exact h

/- The others have the state that they had. -/
theorem Machine.InstretIs.put_other
    {i k : Nat}
    {v : BitVec 64}
    (h : m.InstretIs i v)
    (hk : k ≠ i)
    (s : State σ) :
    (m.put k s).InstretIs i v := by
  intro c hCore
  have hCore' : (m.harts.set k ⟨s.hart, s.jctx⟩)[i]? =
    some c := hCore
  rw [List.getElem?_set_ne hk] at hCore'
  exact h c hCore'

/- The count along a run, and where it is right. -/
theorem Machine.Run.countsAlong_iff
    {i : Nat}
    {v : BitVec 64}
    (hRun : m.Run P ts m')
    (hm : m.BlocksTidy)
    (hStart : m.InstretIs i v) :
    (CountsAlong i v ts → m'.InstretIs i
        (v + BitVec.ofNat 64 (completedBy i ts))) ∧
      (CountsAlong i v ts ↔
        ∀ t ∈ ts, t.1.self = i → CountsRight P t.1) := by
  induction hRun with
  | start =>
      refine ⟨fun _ => ?_, fun _ t hMem => ?_, fun _ => trivial⟩
      · intro c hCore
        rw [hStart c hCore]
        exact (BitVec.add_zero v).symm
      · cases hMem
  | @step ts t m₁ m₂ hRun hStep ih =>
      rcases ih with ⟨hValue, hIff⟩
      have hTidy := hRun.keeps (fun h => h.blocksTidy) hm
      cases hStep with
      | device world => exact ⟨hValue, hIff⟩
      | @tick k c s hCore hTick =>
          change (CountsAlong i v ((m₁.state k c, s) :: ts) →
            _) ∧ (CountsAlong i v ((m₁.state k c, s) :: ts) ↔
              ∀ t ∈ (m₁.state k c, s) :: ts, _)
          rw [List.forall_mem_cons, CountsAlong]
          by_cases hk : k = i
          · subst hk
            have hOne := State.tick_instret_iff
              (s := m₁.state k c) hTidy.sources.cache
              (hTidy.harts c (List.mem_of_getElem? hCore))
              hTick
            refine ⟨fun hAlong =>
              Machine.put_instretIs (hAlong.1 rfl), ?_⟩
            have hSum := completedBy_cons_self
              (m₁.state k c, s) ts v
            constructor
            · rintro ⟨hNew, hAlong⟩
              refine ⟨fun _ => hOne.mp ?_, hIff.mp hAlong⟩
              rw [hValue hAlong c hCore]
              exact (hNew rfl).trans hSum
            · rintro ⟨hNew, hAll⟩
              have hAlong := hIff.mpr hAll
              refine ⟨fun _ => ?_, hAlong⟩
              have hRight := hOne.mpr (hNew rfl)
              rw [hValue hAlong c hCore] at hRight
              exact hRight.trans hSum.symm
          · have hOther : (m₁.state k c).self ≠ i := hk
            have hSum := completedBy_cons_other
              (t := (m₁.state k c, s)) hOther ts
            refine ⟨fun hAlong => ?_, ?_⟩
            · have hKept := (hValue hAlong.2).put_other hk s
              rw [← hSum] at hKept
              exact hKept
            constructor
            · rintro ⟨-, hAlong⟩
              exact ⟨fun hSelf => absurd hSelf hOther,
                hIff.mp hAlong⟩
            · rintro ⟨-, hAll⟩
              exact ⟨fun hSelf => absurd hSelf hOther,
                hIff.mpr hAll⟩

/-
  In a run from any machine that was reached from the start,
  `instret` of a hart is, after every tick of it and at the
  end, what it was and the number of instructions that the
  hart has completed since, exactly when none of its ticks
  calls compiled code, fetches where nothing answers, or
  accesses a floating-point register while the unit is off.
  No instruction writes `minstret`.
-/
theorem instret_counts_iff
    (P : Platform σ)
    (m₀ m m' : Machine σ)
    (ts₀ ts : List (State σ × State σ))
    (hStart : m₀.StartedEmpty)
    (hBefore : m₀.Run P ts₀ m)
    (hRun : m.Run P ts m')
    (i : Nat)
    (c : HartCore)
    (hCore : m.harts[i]? = some c) :
    (CountsAlong i (m.state i c).instret ts ∧
        m'.InstretIs i ((m.state i c).instret +
          BitVec.ofNat 64 (completedBy i ts))) ↔
      ∀ t ∈ ts, t.1.self = i → CountsRight P t.1 := by
  have hm := hBefore.keeps (fun h => h.blocksTidy)
    hStart.blocksTidy
  have hInstret : m.InstretIs i (m.state i c).instret := by
    intro c' hCore'
    cases Option.some.inj (hCore.symm.trans hCore')
    rfl
  rcases hRun.countsAlong_iff hm hInstret with ⟨hValue, hIff⟩
  rw [← hIff]
  exact ⟨fun h => h.1, fun h => ⟨h, hValue h⟩⟩

/- `addi x1, x1, 1` is counted. -/
theorem instret_counts_addi :
    ∃ s, (Machine.single (State.boot loopProgram)).Run
        Platform.bare [(State.boot loopProgram, s)]
        (.single s) ∧
      CountsRight Platform.bare (State.boot loopProgram) := by
  have hOne : ((State.boot loopProgram).evalTick
      Platform.bare).toOption.map (fun s =>
        (s.instret, (State.boot loopProgram).completed s)) =
      some (1, 1) := by
    decide +kernel
  rcases Option.map_eq_some_iff.mp hOne with ⟨s, hTick, hs⟩
  rw [toOption_eq_some, ← State.tick_eq_evalTick] at hTick
  rw [Prod.mk.injEq] at hs
  have hRun := Machine.Run.start.tick_single rfl hTick
  have hSelf : (State.boot loopProgram).self = 0 := rfl
  have hCount : s.instret = (State.boot loopProgram).instret +
      BitVec.ofNat 64 (completedBy 0
        [(State.boot loopProgram, s)]) := by
    rw [completedBy_single hSelf, hs.1, hs.2]
    rfl
  refine ⟨s, hRun, ?_⟩
  refine (instret_counts_iff Platform.bare _ _ _ [] _
    (startedEmpty_single_boot _) .start hRun 0 _ rfl).mp
    ⟨⟨fun _ => hCount, trivial⟩, ?_⟩ _
    (List.mem_singleton_self _) rfl
  intro c hCore
  cases Option.some.inj hCore
  exact hCount

/-
  After two hundred ticks, the loop runs as compiled code; an
  instruction is completed, and `instret` stays as it is.
-/
theorem instret_misses_compiled :
    ∃ ts s s',
      (Machine.single (State.boot loopProgram)).Run
        Platform.bare ts (.single s) ∧
      (Machine.single s).Run Platform.bare [(s, s')]
        (.single s') ∧
      completedBy 0 [(s, s')] = 1 ∧
      s'.instret = s.instret := by
  have hCalled : ((State.evalTicks Platform.bare 202
      (State.boot loopProgram)).toOption.bind fun s =>
        (s.evalTick Platform.bare).toOption.map fun s' =>
          (s.completed s', s'.instret - s.instret)) =
      some (1, 0) := by
    decide +kernel
  rcases Option.bind_eq_some_iff.mp hCalled with
    ⟨s, hTicks, hNext⟩
  rcases Option.map_eq_some_iff.mp hNext with ⟨s', hTick, hs⟩
  rw [toOption_eq_some] at hTicks hTick
  rw [← State.tick_eq_evalTick] at hTick
  rw [Prod.mk.injEq] at hs
  rcases run_of_evalTicks 202 Machine.Run.start rfl hTicks with
    ⟨⟨ts, hRun, -⟩, hSelf⟩
  refine ⟨ts, s, s', hRun,
    Machine.Run.start.tick_single hSelf hTick, ?_, ?_⟩
  · rw [completedBy_single hSelf, hs.1]
  · exact sub_eq_zero.mp hs.2

end RiscvEm
