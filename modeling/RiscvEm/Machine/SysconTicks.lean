import RiscvEm.Devices.PlicRuns
import RiscvEm.Hart.Machine
import RiscvEm.Machine.WorkLoop

/-
  The ticks of the harts in an iteration of the work loop. A
  tick reaches devices through their two virtual functions
  only, so that what it does to the control state is a
  sequence of writes to SYSCON.

  Key definitions include:
    * `DevicesKeep`
    * `HartTicks`

  Key theorems include:
    * `State.tick_keeps`
    * `HartTicks.workRun`
-/

------------------------------------------------------------
-- Devices And Ticks
------------------------------------------------------------

namespace RiscvEm

variable {σ : Type}
variable {P : Platform σ}
variable {R : σ → σ → Prop}
variable {s s' : State σ}

/- Whatever a device is made to do is a step of `R`. -/
structure DevicesKeep
    (P : Platform σ)
    (R : σ → σ → Prop) : Prop where
  refl : ∀ a, R a a
  trans : ∀ {a b c}, R a b → R b c → R a c
  read : ∀ dev ∈ P.devs, ∀ {addr size w v w'},
    dev.read addr size w = .ok (v, w') → R w.dev w'.dev
  write : ∀ dev ∈ P.devs, ∀ {addr size val w m w' m'},
    dev.write addr size val w m = .ok (w', m') →
      R w.dev w'.dev

/- A read changes the devices as the devices do. -/
theorem State.mmioRead_keeps
    (hP : DevicesKeep P R)
    {addr val : BitVec 64}
    {size : MemorySize}
    {m : MemoryReturn}
    (h : s.mmioRead P addr size = .ok (m, val, s')) :
    R s.world.dev s'.world.dev := by
  unfold State.mmioRead at h
  split at h
  · rcases bind_eq_ok.mp h with ⟨out, -, hEq⟩
    cases hEq
    exact hP.refl _
  · split at h
    case h_1 dev hFind =>
      rcases bind_eq_ok.mp h with ⟨⟨out, world⟩, hRead, hEq⟩
      cases hEq
      exact hP.read dev (List.mem_of_find?_eq_some hFind) hRead
    case h_2 =>
      cases h
      exact hP.refl _

/- A write does to the devices what they do themselves. -/
theorem State.mmioWrite_keeps
    (hP : DevicesKeep P R)
    {addr val : BitVec 64}
    {size : MemorySize}
    {m : MemoryReturn}
    (h : s.mmioWrite P addr size val = .ok (m, s')) :
    R s.world.dev s'.world.dev := by
  rcases State.mmioWrite_cases h with
    ⟨-, -, mem, jctx, -, -, rfl⟩ |
    ⟨-, dev, world, mem, hFind, hWrite, rfl⟩ | ⟨-, rfl⟩
  · exact hP.refl _
  · exact hP.write dev (List.mem_of_find?_eq_some hFind) hWrite
  · exact hP.refl _

/- Zeroing a block does to them what they do themselves. -/
theorem zeroBytes_keeps
    (hP : DevicesKeep P R)
    (n : Nat)
    {addr : BitVec 64}
    {s : State σ}
    (h : zeroBytes P addr n s = .ok s') :
    R s.world.dev s'.world.dev := by
  induction n generalizing addr s with
  | zero =>
      cases h
      exact hP.refl _
  | succ n ih =>
      rcases bind_eq_ok.mp h with ⟨⟨m, s₁⟩, hWrite, hRest⟩
      exact hP.trans (State.mmioWrite_keeps hP hWrite)
        (ih hRest)

/- Registers of control are none of the devices. -/
theorem State.setCsr_dev
    (s : State σ)
    (n : BitVec 16)
    (v : BitVec 64) :
    (s.setCsr n v).world.dev = s.world.dev := by
  unfold State.setCsr
  split <;> rfl

/- Reading one does not reach them. -/
theorem State.csrRead_dev
    (s : State σ)
    (csr : BitVec 16) :
    (s.csrRead csr).2.world.dev = s.world.dev := by
  unfold State.csrRead
  iterate 10
    refine iteInduction
      (motive := fun x =>
        (State.world (Prod.snd x)).dev = s.world.dev)
      (fun _ => rfl) (fun _ => ?_)
  refine iteInduction
    (motive := fun x =>
      (State.world (Prod.snd x)).dev = s.world.dev)
    (fun _ => ?_) (fun _ => rfl)
  split <;> rfl

/- Writing a CSR leaves the devices. -/
theorem State.csrWrite_dev
    (s : State σ)
    (csr : BitVec 16)
    (val : BitVec 64) :
    (s.csrWrite csr val).world.dev = s.world.dev := by
  rw [State.csrWrite_world]

/-
  Whatever an instruction does to devices, they do
  themselves.
-/
theorem Effect.keeps
    (hP : DevicesKeep P R)
    {op : Op}
    {d : InstructionData}
    {out : ExecReturn}
    (h : Effect P op d s out s') :
    R s.world.dev s'.world.dev := by
  cases h with
  | regs _ hRegs =>
      rw [hRegs.world]
      exact hP.refl _
  | fault _ => exact hP.refl _
  | scFault _ _ _ _ => exact hP.refl _
  | load hRead _ _ hRegs =>
      rw [hRegs.world]
      exact State.mmioRead_keeps hP hRead
  | store hWrite _ _ hRegs =>
      rw [hRegs.world]
      exact State.mmioWrite_keeps hP hWrite
  | amo hRead _ hWrite _ _ hRegs =>
      rw [hRegs.world]
      exact hP.trans (State.mmioRead_keeps hP hRead)
        (State.mmioWrite_keeps hP hWrite)
  | amoFault _ hRead _ _ _ _ =>
      exact State.mmioRead_keeps hP hRead
  | lr hRead _ _ hRegs =>
      have hKeeps := State.mmioRead_keeps hP hRead
      rw [hRegs.world]
      exact hKeeps
  | sc _ hWrite _ _ hRegs =>
      have hKeeps := State.mmioWrite_keeps hP hWrite
      rw [hRegs.world]
      exact hKeeps
  | scFail _ hRegs =>
      rw [hRegs.world]
      exact hP.refl _
  | csr reads writes val _ _ _ _ _ hRead hWrite =>
      have hReadDev : (csrReadIf reads d.csr s).world.dev =
          s.world.dev := by
        unfold csrReadIf
        split
        · exact s.csrRead_dev d.csr
        · rfl
      have hWriteDev : ∀ s₁ : State σ,
          (csrWriteIf writes d.csr val s₁).world.dev =
            s₁.world.dev := by
        intro s₁
        unfold csrWriteIf
        split
        · exact s₁.csrWrite_dev d.csr val
        · rfl
      rw [hWrite.world, hWriteDev, hRead.world, hReadDev]
      exact hP.refl _
  | mret _ _ => exact hP.refl _
  | sret _ _ => exact hP.refl _
  | wfi _ _ _ => exact hP.refl _
  | fenceI _ => exact hP.refl _
  | cboRam _ _ _ => exact hP.refl _
  | cboDevice hZero _ => exact zeroBytes_keeps hP 64 hZero

/- Compiled code reaches devices through its slow stores. -/
theorem slowCall_keeps
    (hP : DevicesKeep P R)
    {addr : BitVec 64}
    {regs regs' : BitVec 4 → BitVec 64}
    (h : slowCall P addr regs s = some (regs', s')) :
    R s.world.dev s'.world.dev := by
  rcases Option.bind_eq_some_iff.mp h with ⟨size, -, h⟩
  split at h
  case isFalse => cases h
  case isTrue =>
    rcases Option.bind_eq_some_iff.mp h with ⟨s₁, hSlow, h⟩
    cases h
    unfold jitSlowStore at hSlow
    dsimp only at hSlow
    split at hSlow
    case h_1 =>
      cases hSlow
      exact hP.refl _
    case h_2 dev hFind =>
      split at hSlow
      case h_1 world mem hWrite =>
        cases hSlow
        exact hP.write dev (List.mem_of_find?_eq_some hFind)
          hWrite
      case h_2 => cases hSlow

/- The context of a block is no device. -/
theorem contextStore_dev
    {a v : BitVec 64}
    {n : Nat}
    (h : contextStore P s a n v = some s') :
    s'.world.dev = s.world.dev := by
  unfold contextStore at h
  dsimp only at h
  split at h
  · cases h
    rfl
  · split at h
    · unfold State.storeRam at h
      split at h
      · cases h
        rfl
      · cases h
    · cases h

/- Compiled blocks change devices as they do themselves. -/
theorem runBlock_keeps
    (hP : DevicesKeep P R)
    {code : Code}
    (h : runBlock P code s = .ok s') :
    R s.world.dev s'.world.dev := by
  have hPreserves : (jitEnv P).Preserves
      (fun s₁ => R s.world.dev s₁.world.dev) := by
    constructor
    · intro s₁ s₂ a n v hStore hOld
      rw [contextStore_dev hStore]
      exact hOld
    · intro s₁ s₂ a regs regs' hCall hOld
      exact hP.trans hOld (slowCall_keeps hP hCall)
  unfold runBlock at h
  dsimp only at h
  split at h
  case h_1 m hRun =>
    cases h
    exact X86.Env.run_preserves hPreserves hRun (hP.refl _)
  case h_2 => cases h

namespace State

/- The part before the dispatch does not reach them. -/
theorem preTick_dev
    (s : State σ) :
    s.preTick.world.dev = s.world.dev := by
  unfold preTick
  dsimp only
  split
  · unfold checkInts
    split <;> exact setCsr_dev _ _ _
  · exact setCsr_dev _ _ _

/- The body of an instruction and its trap. -/
theorem runEntry_keeps
    (hP : DevicesKeep P R)
    {entry : InstructionCache}
    {w : BitVec 32}
    {pc : BitVec 64}
    (h : s.runEntry P entry w pc = .ok s') :
    R s.world.dev s'.world.dev := by
  rcases runEntry_cases h with
    ⟨-, rfl⟩ | ⟨i, out, s₁, -, hExec, hEnd⟩
  · exact hP.refl _
  · have hEffect := (Op.exec_effect _ hExec).keeps hP
    rcases hEnd with ⟨-, rfl⟩ | ⟨-, j, -, rfl⟩
    · exact hEffect
    · change R s.world.dev (s₁.setCsr _ _).world.dev
      rw [setCsr_dev]
      exact hEffect

/-
  An interpreted tick does to them what they do themselves.
-/
theorem interpret_keeps
    (hP : DevicesKeep P R)
    (h : s.interpret P = .ok s') :
    R s.world.dev s'.world.dev := by
  rcases interpret_cases h with ⟨m, val, s₁, hRead, hRun⟩
  have hAfter : (s₁.afterFetch m).world = s₁.world := by
    unfold afterFetch
    split <;> rfl
  have hEntry := runEntry_keeps hP hRun
  refine hP.trans (mmioRead_keeps hP hRead) ?_
  rw [← hAfter]
  exact hEntry

/- A tick is a step of `R` if every device access is. -/
theorem tick_keeps
    (hP : DevicesKeep P R)
    (h : s.tick P = .ok s') :
    R s.world.dev s'.world.dev := by
  rw [← s.preTick_dev]
  rcases tick_cases h with
    ⟨b, rfl⟩ | ⟨f, -, -, hCall⟩ | ⟨f, -, rfl⟩ |
    ⟨hInt, hTick⟩
  · exact hP.refl _
  · rcases bind_eq_ok.mp hCall with ⟨s₁, hRun, hEq⟩
    have hBlock := runBlock_keeps hP hRun
    cases hEq
    split
    · exact hBlock
    · exact hBlock
  · exact hP.refl _
  · have hKeeps := interpret_keeps hP hTick
    exact hKeeps

end State

end RiscvEm

------------------------------------------------------------
-- SYSCON
------------------------------------------------------------

namespace RiscvEm

variable {σ : Type}
variable {ctl : σ → Control}

/- Writes to SYSCON, the first one first. -/
def sysconWrites
    (c : Control) : List (BitVec 64 × BitVec 64) → Control
  | [] => c
  | w :: ws => sysconWrites (sysconWrite w.1 w.2 c) ws

/- Writes to SYSCON may follow each other. -/
theorem sysconWrites_append
    (c : Control)
    (ws ws' : List (BitVec 64 × BitVec 64)) :
    sysconWrites c (ws ++ ws') =
      sysconWrites (sysconWrites c ws) ws' := by
  induction ws generalizing c with
  | nil => rfl
  | cons w ws ih => exact ih _

/-
  The device. A reset of a machine that is off destroys the
  hart that is just executing the store.
-/
def sysconDevice
    (ctl : σ → Control)
    (setCtl : Control → σ → σ) : Device σ :=
  { start := SYSCON_START
    size := 0x1000
    read := fun _ _ w => .ok (0, w)
    write := fun addr _ val w m =>
      if sysconRequest addr val = some .reset ∧
          (ctl w.dev).state = .Off then
        .error .outOfBounds
      else
        .ok ({ w with
          dev := setCtl (sysconWrite addr val (ctl w.dev))
            w.dev }, m) }

/-
  The control state belongs to SYSCON: it is a device of the
  platform, and no other one touches it.
-/
structure OwnsControl
    (P : Platform σ)
    (ctl : σ → Control)
    (setCtl : Control → σ → σ) : Prop where
  get : ∀ c a, ctl (setCtl c a) = c
  read : ∀ dev ∈ P.devs, ∀ {addr size w v w'},
    dev.read addr size w = .ok (v, w') → ctl w'.dev = ctl w.dev
  write : ∀ dev ∈ P.devs, dev = sysconDevice ctl setCtl ∨
    ∀ {addr size val w m w' m'},
      dev.write addr size val w m = .ok (w', m') →
        ctl w'.dev = ctl w.dev

/- One state comes from another by writes to SYSCON. -/
def BySyscon
    (ctl : σ → Control)
    (a b : σ) : Prop :=
  ∃ ws, ctl b = sysconWrites (ctl a) ws

/- Only writes to SYSCON change what it controls. -/
theorem OwnsControl.devicesKeep
    {P : Platform σ}
    {setCtl : Control → σ → σ}
    (h : OwnsControl P ctl setCtl) :
    DevicesKeep P (BySyscon ctl) := by
  refine ⟨fun a => ⟨[], rfl⟩, ?_, ?_, ?_⟩
  · rintro a b c ⟨ws, hB⟩ ⟨ws', hC⟩
    refine ⟨ws ++ ws', ?_⟩
    rw [sysconWrites_append, ← hB]
    exact hC
  · intro dev hMem addr size w v w' hRead
    exact ⟨[], h.read dev hMem hRead⟩
  · intro dev hMem addr size val w m w' m' hWrite
    rcases h.write dev hMem with rfl | hSame
    · change (if _ then _ else _) = _ at hWrite
      split at hWrite
      · cases hWrite
      · rw [Except.ok.injEq, Prod.mk.injEq] at hWrite
        refine ⟨[(addr, val)], ?_⟩
        rw [← hWrite.1]
        exact h.get _ _
    · exact ⟨[], hSame hWrite⟩

/- Ticks of harts one after another. -/
inductive HartTicks
    (P : Platform σ) : σ → σ → Prop
  | refl {a : σ} : HartTicks P a a
  | tick {a : σ} {s s' : State σ} :
      HartTicks P a s.world.dev → s.tick P = .ok s' →
      HartTicks P a s'.world.dev

/-
  Ticks of the harts change the control state by SYSCON
  only.
-/
theorem HartTicks.bySyscon
    {P : Platform σ}
    {setCtl : Control → σ → σ}
    (hP : OwnsControl P ctl setCtl)
    {a b : σ}
    (h : HartTicks P a b) :
    BySyscon ctl a b := by
  induction h with
  | refl => exact ⟨[], rfl⟩
  | tick _ hTick ih =>
      exact hP.devicesKeep.trans ih
        (State.tick_keeps hP.devicesKeep hTick)

/- A request that is served at once is a run of the loop. -/
theorem workRun_serve
    (c : Control)
    {addr val : BitVec 64} :
    ∃ ts, WorkRun ⟨c, .ticking⟩ ts
      ⟨sysconWrite addr val c, .ticking⟩ := by
  have hAsk : WorkRun ⟨c, .ticking⟩ [⟨⟨c, .ticking⟩,
      .syscon addr val, (WorkConfig.mk c .ticking).ask
        (sysconRequest addr val)⟩]
      ((WorkConfig.mk c .ticking).ask
        (sysconRequest addr val)) :=
    .step .refl rfl
  unfold sysconWrite
  generalize sysconRequest addr val = req at hAsk ⊢
  rcases req with - | - | -
  · exact ⟨_, hAsk⟩
  · exact ⟨_, hAsk⟩
  · -- the test and one of the two stores of `reset`
    by_cases hOff : c.state = .Off
    · refine ⟨_, (hAsk.step (e := .work) rfl).step
        (e := .work) ?_⟩
      simp [WorkConfig.step, WorkConfig.ask, WorkConfig.work,
        Control.serve, hOff]
    · refine ⟨_, (hAsk.step (e := .work) rfl).step
        (e := .work) ?_⟩
      simp [WorkConfig.step, WorkConfig.ask, WorkConfig.work,
        Control.serve, hOff]

/- A run of the loop may be continued. -/
theorem WorkRun.append
    {c c' c'' : WorkConfig}
    {ts ts' : List WorkTrans}
    (h : WorkRun c ts c')
    (h' : WorkRun c' ts' c'') :
    WorkRun c (ts' ++ ts) c'' := by
  induction h' with
  | refl => exact h
  | step _ hStep ih => exact ih.step hStep

/- A run of the loop can make all of the writes. -/
theorem workRun_sysconWrites
    (ws : List (BitVec 64 × BitVec 64))
    (c : Control) :
    ∃ ts, WorkRun ⟨c, .ticking⟩ ts
      ⟨sysconWrites c ws, .ticking⟩ := by
  induction ws generalizing c with
  | nil => exact ⟨[], .refl⟩
  | cons w ws ih =>
      rcases workRun_serve c with ⟨ts, hRun⟩
      rcases ih (sysconWrite w.1 w.2 c) with ⟨ts', hRest⟩
      exact ⟨ts' ++ ts, hRun.append hRest⟩

/-
  The ticks of the harts are steps of the loop between the
  begin and the end of the ticks.
-/
theorem HartTicks.workRun
    {P : Platform σ}
    {setCtl : Control → σ → σ}
    (hP : OwnsControl P ctl setCtl)
    {a b : σ}
    (h : HartTicks P a b) :
    ∃ ts, WorkRun ⟨ctl a, .ticking⟩ ts ⟨ctl b, .ticking⟩ := by
  rcases h.bySyscon hP with ⟨ws, hEq⟩
  rw [hEq]
  exact workRun_sysconWrites ws (ctl a)

end RiscvEm
