import RiscvEm.Hart.InstructionFrame
import RiscvEm.Hart.Reservations
import RiscvEm.Jit.Entries

/-
  The versions of the pages of RAM: a hart counts the stores
  that it makes through `MMIO::write`, each at the page that
  it begins in, and no other write.

  Key definitions include:
    * `storesTo`
    * `State.Told`
    * `Tells`

  Key theorems include:
    * `State.tick_tells`
    * `Machine.Run.told`
-/

------------------------------------------------------------
-- Counted Stores
------------------------------------------------------------

namespace RiscvEm

variable {σ : Type}
variable {P : Platform σ}
variable {i p : Nat}
variable {es new : List Event}

/-
  A store of hart `i` through `MMIO::write` to RAM that
  begins in page `p`.
-/
def Event.countsPage
    (P : Platform σ)
    (i p : Nat) : Event → Bool
  | .store h .mmio addr n =>
      h == i && pageIndex addr == p &&
        decide (0x80000000 ≤ addr ∧
          addr + BitVec.ofNat 64 n ≤ P.ramEnd)
  | _ => false

/- How many there are among some events. -/
def storesTo
    (P : Platform σ)
    (i p : Nat)
    (es : List Event) : Nat :=
  es.countP (·.countsPage P i p)

/- Stores that are counted later come on top. -/
theorem storesTo_append
    (P : Platform σ)
    (i p : Nat)
    (new es : List Event) :
    storesTo P i p (new ++ es) =
      storesTo P i p new + storesTo P i p es :=
  List.countP_append

/- Events that are not counted change no count. -/
theorem storesTo_quiet
    (hNew : ∀ e ∈ new, e.countsPage P i p = false) :
    storesTo P i p (new ++ es) = storesTo P i p es := by
  have hZero : storesTo P i p new = 0 := by
    apply List.countP_eq_zero.mpr
    intro e hMem
    rw [hNew e hMem]
    exact Bool.false_ne_true
  rw [storesTo_append, hZero, Nat.zero_add]

/- A store of another hart is not counted. -/
theorem Event.countsPage_other
    {e : Event}
    (h : e.hart ≠ i) :
    e.countsPage P i p = false := by
  cases e with
  | trap | lr | sc => rfl
  | store k path addr n =>
      cases path with
      | compiled | cboZero => rfl
      | mmio =>
          have hNe : (k == i) = false :=
            beq_eq_false_iff_ne.mpr h
          simp [countsPage, hNe]

/- A store to RAM is counted at the page of its address. -/
theorem Event.countsPage_store
    (i p : Nat)
    {addr : BitVec 64}
    {size : MemorySize}
    (h : takesDram P addr size) :
    (Event.store i .mmio addr size.bytes).countsPage P i p =
      (pageIndex addr == p) := by
  have hRam : 0x80000000 ≤ addr ∧
      addr + BitVec.ofNat 64 size.bytes ≤ P.ramEnd := h
  change (i == i && pageIndex addr == p && decide _) = _
  rw [decide_eq_true hRam]
  simp

/- A store elsewhere is not. -/
theorem Event.countsPage_device
    (i p : Nat)
    {addr : BitVec 64}
    {size : MemorySize}
    (h : ¬ takesDram P addr size) :
    (Event.store i .mmio addr size.bytes).countsPage P i p =
      false := by
  have hNot : ¬ (0x80000000 ≤ addr ∧
      addr + BitVec.ofNat 64 size.bytes ≤ P.ramEnd) := h
  change (i == i && pageIndex addr == p && decide _) = _
  rw [decide_eq_false hNot, Bool.and_false]

end RiscvEm

------------------------------------------------------------
-- Versions And Counts
------------------------------------------------------------

namespace RiscvEm

variable {σ : Type}
variable {P : Platform σ}
variable {s s' s'' : State σ}
variable {addr val : BitVec 64}
variable {size : MemorySize}
variable {m : MemoryReturn}

/- The versions of the hart tell how often it stored. -/
def State.Told
    (P : Platform σ)
    (s : State σ) : Prop :=
  ∀ p, s.jctx.pageVerionBitmap p =
    BitVec.ofNat 64 (storesTo P s.self p s.trace)

/- Where the version is zero, there was no store. -/
theorem State.Told.none
    {p : Nat}
    (h : s.Told P)
    (hFew : storesTo P s.self p s.trace < 2 ^ 64)
    (hZero : s.jctx.pageVerionBitmap p = 0) :
    storesTo P s.self p s.trace = 0 := by
  have hNat := congrArg BitVec.toNat ((h p).symm.trans hZero)
  rw [BitVec.toNat_ofNat, Nat.mod_eq_of_lt hFew] at hNat
  exact hNat

/- A part of a tick after which they still do. -/
structure Tells
    (P : Platform σ)
    (s s' : State σ) : Prop where
  self : s'.self = s.self
  told : s.Told P → s'.Told P

namespace Tells

/- Such parts compose. -/
theorem trans
    (h : Tells P s s')
    (h' : Tells P s' s'') :
    Tells P s s'' :=
  ⟨h'.self.trans h.self, fun hTold => h'.told (h.told hTold)⟩

/- Events that are not counted, and no other version. -/
theorem of_quiet
    (new : List Event)
    (hSelf : s'.self = s.self)
    (hTrace : s'.trace = new ++ s.trace)
    (hNew : ∀ e ∈ new, ∀ p,
      e.countsPage P s.self p = false)
    (hVersions : s'.jctx.pageVerionBitmap =
      s.jctx.pageVerionBitmap) :
    Tells P s s' := by
  refine ⟨hSelf, ?_⟩
  intro hTold p
  rw [hVersions, hSelf, hTrace,
    storesTo_quiet (fun e hMem => hNew e hMem p)]
  exact hTold p

/- Neither an event nor a version is new. -/
theorem of_eq
    (hSelf : s'.self = s.self)
    (hTrace : s'.trace = s.trace)
    (hVersions : s'.jctx.pageVerionBitmap =
      s.jctx.pageVerionBitmap) :
    Tells P s s' :=
  of_quiet [] hSelf hTrace nofun hVersions

/- One event that is not counted. -/
theorem of_cons
    {e : Event}
    (hSelf : s'.self = s.self)
    (hTrace : s'.trace = e :: s.trace)
    (hEvent : ∀ p, e.countsPage P s.self p = false)
    (hVersions : s'.jctx.pageVerionBitmap =
      s.jctx.pageVerionBitmap) :
    Tells P s s' := by
  refine of_quiet [e] hSelf hTrace ?_ hVersions
  intro e' hMem
  rw [List.mem_singleton.mp hMem]
  exact hEvent

/- An event of its own. -/
theorem log
    (s : State σ)
    {e : Event}
    (hEvent : ∀ p, e.countsPage P s.self p = false) :
    Tells P s (s.log e) :=
  of_cons rfl rfl hEvent rfl

/- Writes to registers count nothing. -/
theorem of_onlyRegs
    (h : OnlyRegs s s') :
    Tells P s s' :=
  of_eq h.self h.trace
    (congrArg JitContext.pageVerionBitmap h.jctx)

/- Writes to CSRs count nothing. -/
theorem of_onlyCsrs
    (h : OnlyCsrs s s') :
    Tells P s s' := by
  refine of_eq h.self h.trace ?_
  rw [h.rest]

/- Traps count nothing. -/
theorem trap
    (s : State σ)
    (cause tval : BitVec 64)
    (interrupt : Bool) :
    Tells P s (s.trap cause tval interrupt) :=
  of_cons rfl rfl (fun _ => rfl) rfl

/- Reads count nothing. -/
theorem mmioRead
    (h : s.mmioRead P addr size = .ok (m, val, s')) :
    Tells P s s' := by
  rw [State.mmioRead_frame h]
  exact of_eq rfl rfl rfl

/- A store to RAM is counted, one to a device is not. -/
theorem mmioWrite
    (h : s.mmioWrite P addr size val = .ok (m, s')) :
    Tells P s s' := by
  rcases State.mmioWrite_steps h with
    ⟨hDram, -, mem, jctx, -, hBump, rfl⟩ |
    ⟨hDram, -, dev, world, mem, -, -, rfl⟩ |
    ⟨-, -, -, rfl⟩
  · refine ⟨rfl, ?_⟩
    intro hTold p
    unfold JitContext.bumpPage at hBump
    dsimp only at hBump
    split at hBump
    case isFalse => cases hBump
    case isTrue =>
      cases hBump
      change Function.update s.jctx.pageVerionBitmap
          (pageIndex addr) _ p = BitVec.ofNat 64
            (storesTo P s.self p ([.store s.self .mmio addr
              size.bytes] ++ s.trace))
      by_cases hPage : p = pageIndex addr
      · subst hPage
        have hOne : storesTo P s.self (pageIndex addr)
            [.store s.self .mmio addr size.bytes] = 1 := by
          apply List.countP_singleton.trans
          rw [Event.countsPage_store _ _ hDram, beq_self_eq_true]
          rfl
        rw [Function.update_self, hTold, storesTo_append, hOne,
          Nat.add_comm 1, BitVec.ofNat_add]
        rfl
      · rw [Function.update_of_ne hPage, hTold, storesTo_quiet]
        intro e hMem
        rw [List.mem_singleton.mp hMem,
          Event.countsPage_store _ _ hDram]
        exact beq_eq_false_iff_ne.mpr (Ne.symm hPage)
  · exact of_cons rfl rfl
      (fun p => Event.countsPage_device _ p hDram) rfl
  · exact of_eq rfl rfl rfl

/- Zeroing a block through `MMIO::write` is counted. -/
theorem zeroBytes
    (n : Nat)
    {s : State σ}
    {addr : BitVec 64}
    (h : RiscvEm.zeroBytes P addr n s = .ok s') :
    Tells P s s' := by
  induction n generalizing addr s with
  | zero =>
      cases h
      exact of_eq rfl rfl rfl
  | succ n ih =>
      rcases bind_eq_ok.mp h with ⟨⟨m, s₁⟩, hWrite, hRest⟩
      exact (mmioWrite hWrite).trans (ih hRest)

/- Setting a CSR counts nothing. -/
theorem setCsr
    (s : State σ)
    (n : BitVec 16)
    (v : BitVec 64) :
    Tells P s (s.setCsr n v) :=
  of_onlyCsrs (.setCsr s n v)

/- Reading a CSR counts nothing. -/
theorem csrReadIf
    (reads : Bool)
    (csr : BitVec 16)
    (s : State σ) :
    Tells P s (RiscvEm.csrReadIf reads csr s) := by
  unfold RiscvEm.csrReadIf
  split
  · by_cases hDenied : State.isFloatCsr csr = true ∧
        s.hart.status.FS = 0
    · rw [State.csrRead_denied hDenied.1 hDenied.2]
      exact trap _ _ _ _
    · rw [s.csrRead_state csr hDenied]
      exact of_eq rfl rfl rfl
  · exact of_eq rfl rfl rfl

/- Writing a CSR counts nothing. -/
theorem csrWriteIf
    (writes : Bool)
    (csr : BitVec 16)
    (val : BitVec 64)
    (s : State σ) :
    Tells P s (RiscvEm.csrWriteIf writes csr val s) := by
  unfold RiscvEm.csrWriteIf
  split
  · by_cases hDenied : State.isFloatCsr csr = true ∧
        s.hart.status.FS = 0
    · rw [State.csrWrite_denied hDenied.1 hDenied.2]
      exact trap _ _ _ _
    · exact of_onlyCsrs (s.csrWrite_onlyCsrs csr val hDenied)
  · exact of_eq rfl rfl rfl

/- Compiled stores are not counted. -/
theorem compiled
    (h : OnlyCompiled s s') :
    Tells P s s' := by
  rcases h.trace with ⟨new, hTrace, hNew⟩
  refine of_quiet new h.self hTrace ?_ ?_
  · intro e hMem p
    rcases hNew e hMem with ⟨addr, n, rfl⟩
    rfl
  · rw [h.rest]

end Tells

end RiscvEm

------------------------------------------------------------
-- Ticks
------------------------------------------------------------

namespace RiscvEm

variable {σ : Type}
variable {P : Platform σ}
variable {op : Op}
variable {d : InstructionData}
variable {s s' : State σ}
variable {out : ExecReturn}

/- Every instruction counts its stores to RAM. -/
theorem Effect.tells
    (h : Effect P op d s out s') :
    Tells P s s' := by
  cases h with
  | regs _ hRegs => exact .of_onlyRegs hRegs
  | fault _ => exact .of_eq rfl rfl rfl
  | load hRead _ _ hRegs =>
      exact (Tells.mmioRead hRead).trans (.of_onlyRegs hRegs)
  | store hWrite _ _ hRegs =>
      exact (Tells.mmioWrite hWrite).trans (.of_onlyRegs hRegs)
  | amo hRead _ hWrite _ _ hRegs =>
      exact ((Tells.mmioRead hRead).trans
        (.mmioWrite hWrite)).trans (.of_onlyRegs hRegs)
  | amoFault _ hRead _ _ _ _ => exact .mmioRead hRead
  | @lr s₁ _ addr _ size _ hRead _ _ hRegs =>
      have hHeld : Tells P s₁
          (s₁.setReservation ⟨addr, size, true⟩) :=
        .of_eq rfl rfl rfl
      exact (((Tells.mmioRead hRead).trans hHeld).trans
        (.log _ fun _ => rfl)).trans (.of_onlyRegs hRegs)
  | @sc s₁ _ _ _ _ _ _ hWrite _ _ hRegs =>
      have hEnded : Tells P s₁ s₁.clearReservation :=
        .of_eq rfl rfl rfl
      exact (((Tells.log s fun _ => rfl).trans
        (.mmioWrite hWrite)).trans hEnded).trans
        (.of_onlyRegs hRegs)
  | scFault _ _ _ _ => exact .log s fun _ => rfl
  | scFail _ hRegs =>
      have hEnded : Tells P s s.clearReservation :=
        .of_eq rfl rfl rfl
      exact (hEnded.trans (.log _ fun _ => rfl)).trans
        (.of_onlyRegs hRegs)
  | csr reads writes val _ _ _ _ _ hRead hWrite =>
      exact (((Tells.csrReadIf reads d.csr s).trans
        (.of_onlyRegs hRead)).trans
        (.csrWriteIf writes d.csr val _)).trans
        (.of_onlyRegs hWrite)
  | mret _ _ => exact .of_eq rfl rfl rfl
  | sret _ _ => exact .of_eq rfl rfl rfl
  | wfi _ _ _ => exact .of_eq rfl rfl rfl
  | fenceI _ => exact .of_eq rfl rfl rfl
  | cboRam _ _ _ => exact .of_cons rfl rfl (fun _ => rfl) rfl
  | cboDevice hZero _ => exact .zeroBytes 64 hZero

/- Handling an instruction counts no store. -/
theorem handle_versions
    {j j' : JitContext}
    {host : HostCode}
    {cache : InstructionCache}
    {inst : Instruction}
    {pc : BitVec 64}
    (h : j.handleInstruction host cache inst pc = .ok j') :
    j'.pageVerionBitmap = j.pageVerionBitmap := by
  cases JitContext.handled_of_handle h <;> rfl

namespace State

/- The part before the dispatch counts nothing. -/
theorem preTick_tells
    (s : State σ) :
    Tells P s s.preTick := by
  have hZero : Tells P s (s.setGpr 0 0) := .of_eq rfl rfl rfl
  have hCount := hZero.trans (.setCsr _ CSR_MCYCLE
    ((s.setGpr 0 0).csr CSR_MCYCLE + 1))
  unfold preTick
  dsimp only
  split
  · refine hCount.trans ?_
    unfold checkInts
    split
    · exact .trap _ _ _ _
    · exact .of_eq rfl rfl rfl
  · exact hCount

/- The body of an entry counts the stores it makes. -/
theorem runEntry_tells
    {entry : InstructionCache}
    {w : BitVec 32}
    {pc : BitVec 64}
    (h : s.runEntry P entry w pc = .ok s') :
    Tells P s s' := by
  have hTrap : ∀ (s₁ : State σ) cause tval,
      Tells P s₁ (s₁.stopAndTrap cause tval) := by
    intro s₁ cause tval
    have hStop : Tells P s₁
        (s₁.setJctx s₁.jctx.stopBlock) := .of_eq rfl rfl rfl
    exact hStop.trans (.trap _ cause tval false)
  rcases runEntry_cases h with
    ⟨-, rfl⟩ | ⟨i, out, s₁, -, hExec, hEnd⟩
  · exact hTrap _ _ _
  · have hEffect := (Op.exec_effect _ hExec).tells
    rcases hEnd with ⟨-, rfl⟩ | ⟨-, j, hHandle, rfl⟩
    · exact hEffect.trans (hTrap _ _ _)
    · have hCount := hEffect.trans (.setCsr s₁ CSR_MINSTRET
        (s₁.csr CSR_MINSTRET + 1))
      exact hCount.trans
        (.of_eq rfl rfl (handle_versions hHandle))

/- An interpreted tick does so. -/
theorem interpret_tells
    (h : s.interpret P = .ok s') :
    Tells P s s' := by
  rcases interpret_cases h with ⟨m, val, s₁, hRead, hRun⟩
  have hFetch : Tells P s₁ (s₁.afterFetch m) := by
    unfold afterFetch
    split
    · exact .of_eq rfl rfl rfl
    · exact .trap _ _ _ _
  have hDecode : Tells P (s₁.afterFetch m)
      ((s₁.afterFetch m).decode (val.setWidth 32)).2 :=
    .of_eq rfl rfl rfl
  exact (((Tells.mmioRead hRead).trans hFetch).trans
    hDecode).trans (runEntry_tells hRun)

/- Calling a block counts nothing. -/
theorem callBlock_tells
    {f : JitFunction}
    (h : s.callBlock P f = .ok s') :
    Tells P s s' := by
  rcases bind_eq_ok.mp h with ⟨s₁, hRun, hEq⟩
  have hStart : Tells P s
      (s.setHart { s.hart with exitPc := 0 }) :=
    .of_eq rfl rfl rfl
  have hBlock := hStart.trans
    (Tells.compiled (runBlock_onlyCompiled hRun))
  cases hEq
  refine hBlock.trans ?_
  split
  · exact .of_eq rfl rfl rfl
  · exact .of_eq rfl rfl rfl

/- After every tick the versions tell the stores. -/
theorem tick_tells
    (h : s.tick P = .ok s') :
    Tells P s s' := by
  have hPre := s.preTick_tells (P := P)
  rcases tick_cases h with
    ⟨b, rfl⟩ | ⟨f, -, -, hCall⟩ | ⟨f, -, rfl⟩ |
    ⟨hInt, hTick⟩
  · exact hPre.trans (.of_eq rfl rfl rfl)
  · exact hPre.trans (callBlock_tells hCall)
  · exact hPre.trans (.of_eq rfl rfl rfl)
  · have hStart : Tells P s.preTick s.atFetch :=
      .of_eq rfl rfl rfl
    exact (hPre.trans hStart).trans (interpret_tells hTick)

end State

end RiscvEm

------------------------------------------------------------
-- Runs
------------------------------------------------------------

namespace RiscvEm

variable {σ : Type}
variable {P : Platform σ}
variable {m m' : Machine σ}
variable {ts : List (State σ × State σ)}

/- The versions of all harts tell their stores. -/
def Machine.Told
    (P : Platform σ)
    (m : Machine σ) : Prop :=
  ∀ (i : Nat) (c : HartCore), m.harts[i]? = some c →
    (m.state i c).Told P

/- A step leaves the events that there were. -/
theorem Machine.Step.trace_append
    {t : Option (State σ × State σ)}
    (h : Machine.Step P m t m') :
    ∃ new, m'.trace = new ++ m.trace := by
  cases h with
  | device world => exact ⟨[], rfl⟩
  | tick _ hTick =>
      rcases (State.tick_tracks hTick).own with
        ⟨new, hTrace, -⟩
      exact ⟨new, hTrace⟩

/- A step of any hart keeps the versions right. -/
theorem Machine.Step.told
    {t : Option (State σ × State σ)}
    (h : Machine.Step P m t m')
    (hTold : m.Told P) :
    m'.Told P := by
  cases h with
  | device world => exact hTold
  | @tick i c s hCore hTick =>
      have hTells := State.tick_tells hTick
      have hDone := hTells.told (hTold i c hCore)
      intro k c' hGet
      by_cases hSame : i = k
      · subst hSame
        have hLt := (List.getElem?_eq_some_iff.mp hCore).1
        have hPut : (m.put i s).harts[i]? =
            some ⟨s.hart, s.jctx⟩ :=
          List.getElem?_set_self hLt
        have hSelf : s.self = i := hTells.self
        cases hPut.symm.trans hGet
        intro p
        have hVersion := hDone p
        rw [hSelf] at hVersion
        exact hVersion
      · have hPut : (m.put i s).harts[k]? = m.harts[k]? :=
          List.getElem?_set_ne hSame
        rcases (State.tick_tracks hTick).own with
          ⟨new, hTrace, hNew⟩
        intro p
        change c'.jctx.pageVerionBitmap p =
          BitVec.ofNat 64 (storesTo P k p s.trace)
        have hTrace' : s.trace = new ++ m.trace := hTrace
        rw [hTrace', storesTo_quiet]
        · exact hTold k c' (hPut.symm.trans hGet) p
        · intro e hMem
          apply Event.countsPage_other
          rw [hNew e hMem]
          exact hSame

/- Every run keeps them right. -/
theorem Machine.Run.told
    (h : Machine.Run P m ts m')
    (hTold : m.Told P) :
    m'.Told P := by
  induction h with
  | start => exact hTold
  | step _ hStep ih => exact hStep.told ih

end RiscvEm
