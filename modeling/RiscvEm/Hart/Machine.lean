import RiscvEm.Hart.Tick
import RiscvEm.Sets.Effects

/-
  The machine: harts that share memory, devices and the
  decoder, and take their ticks one after another.

  Key definitions include:
    * `Machine`
    * `Machine.Run`

  Key theorems include:
    * `State.tick_self`
    * `Machine.Run.tick_of_mem`
    * `Machine.Run.tick_single`
-/

------------------------------------------------------------
-- Machines
------------------------------------------------------------

namespace RiscvEm

/- A hart with its JIT context. -/
structure HartCore where
  hart : Hart
  jctx : JitContext

structure Machine (σ : Type) where
  harts : List HartCore
  mem : MemoryMap
  world : DevWorld σ
  cache : DecodeCache
  round : RoundMode
  trace : List Event

namespace Machine

variable {σ : Type}

/- The state that hart number `i` works on. -/
def state
    (m : Machine σ)
    (i : Nat)
    (c : HartCore) : State σ :=
  { self := i
    hart := c.hart
    jctx := c.jctx
    mem := m.mem
    world := m.world
    cache := m.cache
    round := m.round
    trace := m.trace }

/- The machine after hart number `i` left its state. -/
def put
    (m : Machine σ)
    (i : Nat)
    (s : State σ) : Machine σ :=
  { harts := m.harts.set i ⟨s.hart, s.jctx⟩
    mem := s.mem
    world := s.world
    cache := s.cache
    round := s.round
    trace := s.trace }

/- One hart takes a tick, or the devices change. -/
inductive Step
    (P : Platform σ)
    (m : Machine σ) :
    Option (State σ × State σ) → Machine σ → Prop
  | tick {i : Nat} {c : HartCore} {s : State σ} :
      m.harts[i]? = some c →
      (m.state i c).tick P = .ok s →
      Step P m (some (m.state i c, s)) (m.put i s)
  | device (world : DevWorld σ) :
      Step P m none { m with world := world }

/-
  A run in any order of the harts, with the states before
  and after each tick, the last tick first.
-/
inductive Run
    (P : Platform σ)
    (m : Machine σ) :
    List (State σ × State σ) → Machine σ → Prop
  | start : Run P m [] m
  | step {ts : List (State σ × State σ)}
      {t : Option (State σ × State σ)} {m₁ m₂ : Machine σ} :
      Run P m ts m₁ → Step P m₁ t m₂ →
      Run P m (t.toList ++ ts) m₂

/- A machine of one hart. -/
def single
    (s : State σ) : Machine σ :=
  { harts := [⟨s.hart, s.jctx⟩]
    mem := s.mem
    world := s.world
    cache := s.cache
    round := s.round
    trace := s.trace }

end Machine

end RiscvEm

------------------------------------------------------------
-- A Tick Stays With Its Hart
------------------------------------------------------------

namespace RiscvEm

variable {σ : Type}
variable {P : Platform σ}
variable {op : Op}
variable {d : InstructionData}
variable {s s' : State σ}
variable {out : ExecReturn}

/- A read is made by the same hart. -/
theorem State.mmioRead_self
    {addr val : BitVec 64}
    {size : MemorySize}
    {m : MemoryReturn}
    (h : s.mmioRead P addr size = .ok (m, val, s')) :
    s'.self = s.self := by
  rw [State.mmioRead_frame h]

/- A write does not change which hart runs. -/
theorem State.mmioWrite_self
    {addr val : BitVec 64}
    {size : MemorySize}
    {m : MemoryReturn}
    (h : s.mmioWrite P addr size val = .ok (m, s')) :
    s'.self = s.self := by
  rcases State.mmioWrite_cases h with
    ⟨-, -, mem, jctx, -, -, rfl⟩ |
    ⟨-, dev, world, mem, -, -, rfl⟩ | ⟨-, rfl⟩ <;> rfl

/- Zeroing a block does not. -/
theorem zeroBytes_self
    (n : Nat)
    {addr : BitVec 64}
    {s : State σ}
    (h : zeroBytes P addr n s = .ok s') :
    s'.self = s.self := by
  induction n generalizing addr s with
  | zero =>
      cases h
      rfl
  | succ n ih =>
      rcases bind_eq_ok.mp h with ⟨⟨m, s₁⟩, hWrite, hRest⟩
      rw [ih hRest, State.mmioWrite_self hWrite]

/- Setting a register of control does not. -/
theorem State.setCsr_self
    (s : State σ)
    (n : BitVec 16)
    (v : BitVec 64) :
    (s.setCsr n v).self = s.self := by
  unfold State.setCsr
  split <;> rfl

/- Reading one does not change who it is. -/
theorem State.csrRead_self
    (s : State σ)
    (csr : BitVec 16) :
    (s.csrRead csr).2.self = s.self := by
  unfold State.csrRead
  iterate 10
    refine iteInduction
      (motive := fun x => State.self (Prod.snd x) = s.self)
      (fun _ => rfl) (fun _ => ?_)
  refine iteInduction
    (motive := fun x => State.self (Prod.snd x) = s.self)
    (fun _ => ?_) (fun _ => rfl)
  split <;> rfl

/- Writing one does not. -/
theorem State.csrWrite_self
    (s : State σ)
    (csr : BitVec 16)
    (val : BitVec 64) :
    (s.csrWrite csr val).self = s.self := by
  unfold State.csrWrite
  dsimp only
  repeat' split
  all_goals first
    | rfl
    | exact s.setCsr_self csr val

/- No instruction changes it. -/
theorem Effect.self
    (h : Effect P op d s out s') :
    s'.self = s.self := by
  cases h with
  | regs _ hRegs => exact hRegs.self
  | fault _ => rfl
  | scFault _ _ _ _ => rfl
  | load hRead _ _ hRegs =>
      rw [hRegs.self, State.mmioRead_self hRead]
  | store hWrite _ _ hRegs =>
      rw [hRegs.self, State.mmioWrite_self hWrite]
  | amo hRead _ hWrite _ _ hRegs =>
      rw [hRegs.self, State.mmioWrite_self hWrite,
        State.mmioRead_self hRead]
  | amoFault _ hRead _ _ _ _ =>
      exact State.mmioRead_self hRead
  | lr hRead _ _ hRegs =>
      have hSelf := State.mmioRead_self hRead
      exact hRegs.self.trans hSelf
  | sc _ hWrite _ _ hRegs =>
      have hSelf := State.mmioWrite_self hWrite
      exact hRegs.self.trans hSelf
  | scFail _ hRegs => exact hRegs.self
  | csr reads writes val _ _ _ _ _ hRead hWrite =>
      have hReadSelf : (csrReadIf reads d.csr s).self =
          s.self := by
        unfold csrReadIf
        split
        · exact s.csrRead_self d.csr
        · rfl
      have hWriteSelf : ∀ s₁ : State σ,
          (csrWriteIf writes d.csr val s₁).self =
            s₁.self := by
        intro s₁
        unfold csrWriteIf
        split
        · exact s₁.csrWrite_self d.csr val
        · rfl
      rw [hWrite.self, hWriteSelf, hRead.self, hReadSelf]
  | mret _ _ => rfl
  | sret _ _ => rfl
  | wfi _ _ _ => rfl
  | fenceI _ => rfl
  | cboRam _ _ _ => rfl
  | cboDevice hZero _ => exact zeroBytes_self 64 hZero

namespace State

/- The part before the dispatch does not. -/
theorem preTick_self
    (s : State σ) :
    s.preTick.self = s.self := by
  unfold preTick
  dsimp only
  split
  · unfold checkInts
    split <;> exact setCsr_self _ _ _
  · exact setCsr_self _ _ _

/- A body with its trap does not. -/
theorem runEntry_self
    {entry : InstructionCache}
    {w : BitVec 32}
    {pc : BitVec 64}
    (h : s.runEntry P entry w pc = .ok s') :
    s'.self = s.self := by
  rcases runEntry_cases h with
    ⟨-, rfl⟩ | ⟨i, out, s₁, -, hExec, hEnd⟩
  · rfl
  · have hSelf := (Op.exec_effect _ hExec).self
    rcases hEnd with ⟨-, rfl⟩ | ⟨-, j, -, rfl⟩
    · exact hSelf
    · exact (s₁.setCsr_self _ _).trans hSelf

/- An interpreted tick does not. -/
theorem interpret_self
    (h : s.interpret P = .ok s') :
    s'.self = s.self := by
  rcases interpret_cases h with ⟨m, val, s₁, hRead, hRun⟩
  have hAfter : (s₁.afterFetch m).self = s₁.self := by
    unfold afterFetch
    split <;> rfl
  exact (runEntry_self hRun).trans
    (hAfter.trans (mmioRead_self hRead))

/- A tick does not. -/
theorem tick_self
    (h : s.tick P = .ok s') :
    s'.self = s.self := by
  rcases tick_cases h with
    ⟨b, rfl⟩ | ⟨f, -, -, hCall⟩ | ⟨f, -, rfl⟩ |
    ⟨hInt, hTick⟩
  · exact s.preTick_self
  · rcases bind_eq_ok.mp hCall with ⟨s₁, hRun, hEq⟩
    have hSelf := (runBlock_onlyCompiled hRun).self
    rw [← s.preTick_self]
    cases hEq
    split
    · exact hSelf
    · exact hSelf
  · exact s.preTick_self
  · exact (interpret_self hTick).trans s.preTick_self

end State

end RiscvEm

------------------------------------------------------------
-- Facts About Runs
------------------------------------------------------------

namespace RiscvEm

namespace Machine

variable {σ : Type}
variable {P : Platform σ}
variable {m m' : Machine σ}
variable {ts : List (State σ × State σ)}

/- The ticks of a run are ticks. -/
theorem Run.tick_of_mem
    (h : Run P m ts m')
    {t : State σ × State σ}
    (hMem : t ∈ ts) :
    t.1.tick P = .ok t.2 := by
  induction h with
  | start => cases hMem
  | step hRun hStep ih =>
      rcases List.mem_append.mp hMem with hNew | hOld
      · cases hStep with
        | tick hCore hTick =>
            rw [List.mem_singleton.mp hNew]
            exact hTick
        | device world => cases hNew
      · exact ih hOld

/- What every step keeps, a run keeps. -/
theorem Run.keeps
    {K : Machine σ → Prop}
    (hStep : ∀ {m t m'}, Step P m t m' → K m → K m')
    (h : Run P m ts m')
    (hK : K m) :
    K m' := by
  induction h with
  | start => exact hK
  | step _ hLast ih => exact hStep hLast ih

/- So it holds of the machine in which a tick was taken. -/
theorem Run.before_tick
    {K : Machine σ → Prop}
    (hStep : ∀ {m t m'}, Step P m t m' → K m → K m')
    (h : Run P m ts m')
    (hK : K m)
    {t : State σ × State σ}
    (hMem : t ∈ ts) :
    ∃ m₁ i c, K m₁ ∧ m₁.harts[i]? = some c ∧
      t.1 = m₁.state i c := by
  induction h with
  | start => cases hMem
  | @step ts _ m₁ m₂ hRun hLast ih =>
      rcases List.mem_append.mp hMem with hNew | hOld
      · cases hLast with
        | @tick i c s hCore _ =>
            rw [List.mem_singleton.mp hNew]
            exact ⟨m₁, i, c, hRun.keeps hStep hK, hCore, rfl⟩
        | device _ => cases hNew
      · exact ih hOld

/- The state of the hart of a machine with one. -/
theorem state_single
    {s : State σ}
    (hSelf : s.self = 0) :
    (single s).state 0 ⟨s.hart, s.jctx⟩ = s := by
  cases s
  cases hSelf
  rfl

/- A tick of a machine with one hart. -/
theorem Step.of_tick
    {s s' : State σ}
    (hSelf : s.self = 0)
    (hTick : s.tick P = .ok s') :
    Step P (single s) (some (s, s')) (single s') := by
  have hTick' := Step.tick (P := P) (m := single s) (i := 0)
    (c := ⟨s.hart, s.jctx⟩) (s := s') rfl
    (by rw [state_single hSelf]; exact hTick)
  rw [state_single hSelf] at hTick'
  exact hTick'

/- One more tick of a machine with one hart. -/
theorem Run.tick_single
    {s s' : State σ}
    (h : Run P m ts (single s))
    (hSelf : s.self = 0)
    (hTick : s.tick P = .ok s') :
    Run P m ((s, s') :: ts) (single s') :=
  .step h (.of_tick hSelf hTick)

end Machine

end RiscvEm
