import RiscvEm.Gdb.Continue

/-
  Breakpoints while the machine is continued by a debugger
  that waits for the stop reply: no tick starts at one, and
  the machine waits at the one that was found.

  Key definitions include:
    * `LookUpValid`
    * `Uninterrupted`
    * `Stopped`

  Key theorems include:
    * `gdb_stops_at_breakpoints`
    * `gdb_waits_at_breakpoint`
-/

------------------------------------------------------------
-- One Thread At A Time
------------------------------------------------------------

namespace RiscvEm

variable {σ : Type}
variable {P : Platform σ}
variable {createXML : HexText.Text}
variable {c c' : DebugConfig σ}
variable {e : DebugEvent}

/-
  Only the last thread is at work, and what it has looked up
  is still so.
-/
structure LookUpValid
    (c : DebugConfig σ) : Prop where
  earlier : ∀ point ∈ c.earlier, point = .ended
  asking : c.thread = .lookUp ∨ c.thread = .found ∨
    c.thread = .grant → c.flag = false
  found : c.thread = .found → c.AtBreak
  passed : c.thread = .grant → ¬ c.AtBreak

/- Nothing is looked up in any other place. -/
theorem LookUpValid.of_not_asking
    (hEarlier : ∀ point ∈ c.earlier, point = .ended)
    (hNot : ¬ (c.thread = .lookUp ∨ c.thread = .found ∨
      c.thread = .grant)) :
    LookUpValid c :=
  ⟨hEarlier, fun hAsking => absurd hAsking hNot,
    fun hFound => absurd (Or.inr (Or.inl hFound)) hNot,
    fun hGrant => absurd (Or.inr (Or.inr hGrant)) hNot⟩

/- With the flag set, the thread is not about to set it. -/
theorem LookUpValid.not_asking
    (h : LookUpValid c)
    (hFlag : c.flag = true) :
    ¬ (c.thread = .lookUp ∨ c.thread = .found ∨
      c.thread = .grant) := by
  intro hAsking
  have hClear := h.asking hAsking
  rw [hFlag] at hClear
  cases hClear

/-
  A step that leaves the threads, the first hart and the
  breakpoints alone.
-/
theorem LookUpValid.of_same
    (h : LookUpValid c)
    (hBreak : c'.AtBreak ↔ c.AtBreak)
    (hThread : c'.thread = c.thread)
    (hEarlier : c'.earlier = c.earlier)
    (hFlag : c'.flag = true → c.flag = true) :
    LookUpValid c' := by
  refine ⟨?_, ?_, ?_, ?_⟩
  · rw [hEarlier]
    exact h.earlier
  · intro hAsking
    rw [hThread] at hAsking
    have hClear := h.asking hAsking
    rw [← Bool.not_eq_true] at hClear ⊢
    exact fun hSet => hClear (hFlag hSet)
  · intro hFound
    rw [hThread] at hFound
    exact hBreak.mpr (h.found hFound)
  · intro hPassed
    rw [hThread] at hPassed
    exact fun hAt => h.passed hPassed (hBreak.mp hAt)

theorem LookUpValid.withWork
    (h : LookUpValid c)
    (work : WorkConfig)
    (hFlag : c.flag = true) :
    LookUpValid { c with work := work } :=
  h.of_same Iff.rfl rfl rfl (fun _ => hFlag)

/- The thread that continues the machine. -/
theorem LookUpValid.continueStep
    (h : LookUpValid c) :
    LookUpValid c.continueStep := by
  unfold DebugConfig.continueStep
  cases hThread : c.thread with
  | loop =>
      dsimp only
      split
      · exact .of_not_asking h.earlier (by simp)
      · exact .of_not_asking h.earlier (by simp)
  | testStep =>
      dsimp only
      split
      case isTrue => exact .of_not_asking h.earlier (by simp)
      case isFalse hFlag =>
        exact ⟨h.earlier,
          fun _ => Bool.eq_false_of_not_eq_true hFlag, nofun,
          nofun⟩
  | lookUp =>
      have hFlag := h.asking (Or.inl hThread)
      dsimp only
      split
      case isTrue hAt =>
        exact ⟨h.earlier, fun _ => hFlag, fun _ => hAt, nofun⟩
      case isFalse hAt =>
        exact ⟨h.earlier, fun _ => hFlag, nofun, fun _ => hAt⟩
  | found => exact .of_not_asking h.earlier (by simp)
  | grant => exact .of_not_asking h.earlier (by simp)
  | reply => exact .of_not_asking h.earlier (by simp)
  | ended => exact h

/- A packet that starts no thread, and changes nothing else. -/
theorem LookUpValid.interrupted
    {core : HartCore}
    (h : LookUpValid c)
    (hCore : c.machine.harts[0]? = some core) :
    LookUpValid (c.served { c.server core with
      sigint := true
      exec := false }) := by
  have hNone : ¬ c.threads < c.threads := Nat.lt_irrefl _
  have hPc : c.pc = some core.hart.pc :=
    congrArg (Option.map _) hCore
  refine h.of_same ?_ (if_neg hNone) (if_neg hNone) id
  unfold DebugConfig.AtBreak
  rw [DebugConfig.served_pc hCore, hPc]
  exact Iff.rfl

/- A packet after every thread has sent its reply. -/
theorem LookUpValid.of_replied
    {g : GdbServer σ}
    (hReplied : c.Replied) :
    LookUpValid (c.served g) := by
  rcases hReplied with ⟨hEnded, hEarlier⟩
  refine .of_not_asking ?_ ?_
  · change ∀ point ∈ (if c.threads < g.threads then
      c.thread :: c.earlier else c.earlier), point = .ended
    split
    · exact List.forall_mem_cons.mpr ⟨hEnded, hEarlier⟩
    · exact hEarlier
  · have hPoint : (c.served g).thread = .loop ∨
        (c.served g).thread = .ended := by
      unfold DebugConfig.served
      dsimp only
      split
      · exact Or.inl rfl
      · exact Or.inr hEnded
    rcases hPoint with hEq | hEq
    · rw [hEq]
      simp
    · rw [hEq]
      simp

/- Every step of a debugger that waits, until the kill. -/
theorem DebugStep.lookUpValid
    (hSup : c.isR = true → Supervised c)
    (hOld : c.isR = true → LookUpValid c)
    (h : DebugStep P createXML c e c')
    (hWaits : WaitsStep ⟨c, e, c'⟩)
    (hR : c'.isR = true) :
    LookUpValid c' := by
  cases h with
  | work =>
      exact (hOld hR).of_same Iff.rfl rfl rfl
        (fun hFlag => (WorkConfig.work_flag hFlag).1)
  | rebuild machine hRebuilds =>
      have hFlag := (hSup hR).flag_of_inTicks
        (Or.inr hRebuilds)
      exact .of_not_asking (hOld hR).earlier
        ((hOld hR).not_asking hFlag)
  | tick hPoint =>
      have hFlag := (hSup hR).flag_of_inTicks (Or.inl hPoint)
      exact .of_not_asking (hOld hR).earlier
        ((hOld hR).not_asking hFlag)
  | device world =>
      exact (hOld hR).of_same Iff.rfl rfl rfl id
  | syscon addr val hPoint =>
      have hFlag := (hSup hR).flag_of_inTicks (Or.inl hPoint)
      exact (hOld hR).withWork _ hFlag
  | thread =>
      rw [DebugConfig.continueStep_isR] at hR
      exact (hOld hR).continueStep
  | earlier hPoint hOn =>
      rw [DebugConfig.earlierStep_isR] at hR
      exact absurd ((hOld hR).earlier _
        (List.mem_of_getElem? hPoint)) hOn
  | clear =>
      exact (hOld hR).of_same Iff.rfl rfl rfl id
  | @receive buffer core sent g hBefore hCore hReceive =>
      rcases hWaits buffer rfl with hReplied | hInterrupt
      · exact .of_replied hReplied
      · rcases gdbReceive_cases hReceive with
          ⟨hPacket, -⟩ | ⟨-, rfl⟩
        · exact absurd hInterrupt hPacket
        · exact (hOld hBefore).interrupted hCore

theorem LookUpValid.waiting
    (machine : Machine σ) :
    LookUpValid (DebugConfig.waiting machine) :=
  .of_not_asking nofun (by simp [DebugConfig.waiting])

end RiscvEm

------------------------------------------------------------
-- Runs Without Interrupts
------------------------------------------------------------

namespace RiscvEm

variable {σ : Type}
variable {P : Platform σ}
variable {createXML : HexText.Text}
variable {c c' : DebugConfig σ}
variable {e : DebugEvent}

/- The loop of the thread only ends at a breakpoint. -/
structure Uninterrupted
    (c : DebugConfig σ) : Prop where
  clear : c.flag = false → c.grant = none
  current : c.grant ≠ some .changed
  replied : c.thread = .reply ∨ c.thread = .ended →
    c.grant ≠ some .lookedUp
  going : c.thread ≠ .reply → c.thread ≠ .ended →
    c.exec = true

/- The thread stays, and a grant is used at most. -/
theorem Uninterrupted.of_same
    (h : Uninterrupted c)
    (hThread : c'.thread = c.thread)
    (hExec : c'.exec = c.exec)
    (hGrant : c'.grant = none ∨ c'.grant = c.grant)
    (hFlag : c'.flag = false →
      c'.grant = none ∨ c.flag = false) :
    Uninterrupted c' := by
  refine ⟨?_, ?_, ?_, ?_⟩
  · intro hClear
    rcases hFlag hClear with hNone | hOld
    · exact hNone
    · rcases hGrant with hNone | hSame
      · exact hNone
      · rw [hSame]
        exact h.clear hOld
  · rcases hGrant with hNone | hSame
    · rw [hNone]
      nofun
    · rw [hSame]
      exact h.current
  · intro hOver
    rw [hThread] at hOver
    rcases hGrant with hNone | hSame
    · rw [hNone]
      nofun
    · rw [hSame]
      exact h.replied hOver
  · rw [hThread, hExec]
    exact h.going

theorem Uninterrupted.workStep
    (h : Uninterrupted c) :
    Uninterrupted c.workStep := by
  have hGrant : c.workStep.grant =
      if c.work.point = .clearStep then none
        else c.grant := rfl
  refine h.of_same rfl rfl ?_ ?_
  · rw [hGrant]
    split
    · exact Or.inl rfl
    · exact Or.inr rfl
  · intro hClear
    rw [hGrant]
    split
    case isTrue => exact Or.inl rfl
    case isFalse hPoint =>
      refine Or.inr ?_
      rw [← Bool.not_eq_true] at hClear ⊢
      exact fun hFlag =>
        hClear (WorkConfig.work_keeps_flag hFlag hPoint)

theorem Uninterrupted.ticked
    {s : State σ}
    (h : Uninterrupted c) :
    Uninterrupted (c.ticked s) := by
  refine h.of_same rfl rfl ?_ Or.inr
  change (if c.next = 0 then none else c.grant) = none ∨
    (if c.next = 0 then none else c.grant) = c.grant
  split
  · exact Or.inl rfl
  · exact Or.inr rfl

theorem Uninterrupted.ask
    (h : Uninterrupted c)
    (req : Option Request) :
    Uninterrupted { c with work := c.work.ask req } := by
  refine h.of_same rfl rfl (Or.inr rfl) ?_
  intro hClear
  refine Or.inr ?_
  cases req with
  | none => exact hClear
  | some req =>
      cases req with
      | poweroff =>
          change c.work.ctl.stop.gdbSingleStep = false
            at hClear
          unfold Control.stop at hClear
          split at hClear
          · exact hClear
          · exact hClear
      | reset => exact hClear

/- The thread that continues the machine. -/
theorem Uninterrupted.continueStep
    (h : Uninterrupted c)
    (hOld : LookUpValid c) :
    Uninterrupted c.continueStep := by
  unfold DebugConfig.continueStep
  cases hThread : c.thread with
  | loop =>
      have hExec := h.going (by rw [hThread]; nofun)
        (by rw [hThread]; nofun)
      dsimp only
      rw [if_pos hExec]
      exact ⟨h.clear, h.current, nofun, fun _ _ => hExec⟩
  | testStep =>
      have hExec := h.going (by rw [hThread]; nofun)
        (by rw [hThread]; nofun)
      dsimp only
      split
      · exact ⟨h.clear, h.current, nofun, fun _ _ => hExec⟩
      · exact ⟨h.clear, h.current, nofun, fun _ _ => hExec⟩
  | lookUp =>
      have hExec := h.going (by rw [hThread]; nofun)
        (by rw [hThread]; nofun)
      dsimp only
      split
      · exact ⟨h.clear, h.current, nofun, fun _ _ => hExec⟩
      · exact ⟨h.clear, h.current, nofun, fun _ _ => hExec⟩
  | found =>
      have hFlag := hOld.asking (Or.inr (Or.inl hThread))
      refine ⟨h.clear, h.current, ?_, ?_⟩
      · intro _
        rw [h.clear hFlag]
        nofun
      · exact fun hReply => absurd rfl hReply
  | grant =>
      have hExec := h.going (by rw [hThread]; nofun)
        (by rw [hThread]; nofun)
      have hFlag := hOld.asking (Or.inr (Or.inr hThread))
      have hPassed := hOld.passed hThread
      dsimp only
      rw [hFlag, if_neg hPassed]
      exact ⟨nofun, nofun, nofun, fun _ _ => hExec⟩
  | reply =>
      exact ⟨h.clear, h.current,
        fun _ => h.replied (Or.inl hThread),
        fun _ hEnded => absurd rfl hEnded⟩
  | ended =>
      dsimp only
      exact h

/- A packet that is no interrupt. -/
theorem Uninterrupted.served
    {core : HartCore}
    {g : GdbServer σ}
    {packet : HexText.Text}
    (h : Uninterrupted c)
    (hEnded : c.thread = .ended)
    (hServed : Served packet (c.server core) g)
    (hR : g.isR = true) :
    Uninterrupted (c.served g) := by
  have hFlag : g.cpu.gdbSingleStep = false →
      c.flag = false := by
    intro hClear
    rcases hServed.cpu hR with hEq | hEq
    · rw [hEq] at hClear
      exact hClear
    · rw [hEq] at hClear
      cases hClear
  have hLooked := h.replied (Or.inr hEnded)
  have hGrant : c.grantBehind g = some .asked ∨
      c.grantBehind g = c.grant := by
    unfold DebugConfig.grantBehind
    split
    · exact Or.inl rfl
    · split
      · exact Or.inr rfl
      · refine Or.inr ?_
        cases hOld : c.grant with
        | none => rfl
        | some grant =>
            cases grant with
            | asked => rfl
            | lookedUp => exact absurd hOld hLooked
            | changed => rfl
  refine ⟨?_, ?_, ?_, ?_⟩
  · intro hClear
    change g.cpu.gdbSingleStep = false at hClear
    have hNone := h.clear (hFlag hClear)
    change c.grantBehind g = none
    unfold DebugConfig.grantBehind
    rw [if_neg, hNone]
    · split <;> rfl
    · rintro ⟨hSet, -⟩
      rw [hClear] at hSet
      cases hSet
  · change c.grantBehind g ≠ _
    rcases hGrant with hEq | hEq
    · rw [hEq]
      nofun
    · rw [hEq]
      exact h.current
  · intro _
    change c.grantBehind g ≠ _
    rcases hGrant with hEq | hEq
    · rw [hEq]
      nofun
    · rw [hEq]
      exact hLooked
  · intro _ hNot
    change (if c.threads < g.threads then .loop
      else c.thread) ≠ .ended at hNot
    change g.exec = true
    cases hServed with
    | goOn => rfl
    | same | xml | hart | breaks | step | kill =>
        have hSame : (if c.threads < c.threads then
            ContinuePoint.loop
          else
            c.thread) = c.thread :=
          if_neg (Nat.lt_irrefl c.threads)
        exact absurd (hSame.trans hEnded) hNot

theorem Uninterrupted.waiting
    (machine : Machine σ) :
    Uninterrupted (DebugConfig.waiting machine) :=
  ⟨fun _ => rfl, nofun, fun _ => nofun,
    fun _ hEnded => absurd rfl hEnded⟩

end RiscvEm

------------------------------------------------------------
-- At A Breakpoint
------------------------------------------------------------

namespace RiscvEm

variable {σ : Type}
variable {P : Platform σ}
variable {createXML : HexText.Text}
variable {c₀ c c' : DebugConfig σ}
variable {e : DebugEvent}

/- Nothing but interrupts is received. -/
def QuietStep
    (t : DebugTrans σ) : Prop :=
  ∀ buffer, t.event = .receive buffer → IsInterrupt buffer

/- The machine is stopped, and was left alone since. -/
structure Stopped
    (c₀ c : DebugConfig σ) : Prop where
  machine : c.machine = { c₀.machine with
    world := c.machine.world }
  bp : c.bp = c₀.bp
  flag : c.flag = false
  thread : c.thread = .found ∨ c.thread = .reply ∨
    c.thread = .ended
  earlier : ∀ point ∈ c.earlier, point = .ended
  control : ControlAt c.work.ctl c.work.point

theorem Machine.put_state
    {m : Machine σ}
    {core : HartCore}
    (h : m.harts[0]? = some core) :
    m.put 0 (m.state 0 core) = m := by
  have hSet : m.harts.set 0 core = m.harts := by
    cases hHarts : m.harts with
    | nil => rfl
    | cons first rest =>
        rw [hHarts] at h
        cases h
        rfl
  unfold Machine.put Machine.state
  dsimp only
  rw [hSet]

/- A stopped machine takes no tick and asks for none. -/
theorem Stopped.not_inTicks
    (h : Stopped c₀ c) :
    c.work.point ≠ .ticking ∧ ¬ c.Rebuilds := by
  have hFlag := h.flag
  have hControl := h.control
  have hSet : ∀ ctl : Control, c.work.ctl = ctl →
      ctl.gdbSingleStep = true → False := by
    intro ctl hEq hSet
    rw [← hEq] at hSet
    unfold DebugConfig.flag at hFlag
    rw [hFlag] at hSet
    cases hSet
  refine ⟨?_, ?_⟩
  · intro hPoint
    rw [hPoint] at hControl
    exact hSet _ rfl hControl
  · rintro (hPoint | hPoint)
    · rw [hPoint] at hControl
      exact hControl
    · rw [hPoint] at hControl
      exact hSet _ rfl hControl

theorem Stopped.step
    (h : Stopped c₀ c)
    (hStep : DebugStep P createXML c e c')
    (hQuiet : QuietStep ⟨c, e, c'⟩) :
    Stopped c₀ c' := by
  rcases h.not_inTicks with ⟨hTicking, hRebuilds⟩
  cases hStep with
  | work =>
      refine ⟨h.machine, h.bp, ?_, h.thread, h.earlier,
        h.control.work⟩
      by_contra hSet
      rw [Bool.not_eq_false] at hSet
      have hOld := (WorkConfig.work_flag hSet).1
      have hFlag := h.flag
      unfold DebugConfig.flag at hFlag
      rw [hFlag] at hOld
      cases hOld
  | rebuild machine hMade => exact absurd hMade hRebuilds
  | tick hPoint => exact absurd hPoint hTicking
  | device world =>
      refine ⟨?_, h.bp, h.flag, h.thread, h.earlier,
        h.control⟩
      dsimp only
      rw [h.machine]
  | syscon addr val hPoint => exact absurd hPoint hTicking
  | thread hOn =>
      have hNext : c.continueStep.machine = c.machine ∧
          c.continueStep.bp = c.bp ∧
          c.continueStep.work = c.work ∧
          c.continueStep.earlier = c.earlier ∧
          (c.continueStep.thread = .reply ∨
            c.continueStep.thread = .ended) := by
        unfold DebugConfig.continueStep
        rcases h.thread with hEq | hEq | hEq
        · rw [hEq]
          exact ⟨rfl, rfl, rfl, rfl, Or.inl rfl⟩
        · rw [hEq]
          exact ⟨rfl, rfl, rfl, rfl, Or.inr rfl⟩
        · exact absurd hEq hOn
      rcases hNext with
        ⟨hMachine, hBp, hWork, hEarlier, hThread⟩
      refine ⟨?_, ?_, ?_, Or.inr hThread, ?_, ?_⟩
      · rw [hMachine]
        exact h.machine
      · rw [hBp]
        exact h.bp
      · unfold DebugConfig.flag
        rw [hWork]
        exact h.flag
      · rw [hEarlier]
        exact h.earlier
      · rw [hWork]
        exact h.control
  | earlier hPoint hOn =>
      exact absurd (h.earlier _ (List.mem_of_getElem? hPoint))
        hOn
  | clear =>
      exact ⟨h.machine, h.bp, h.flag, h.thread, h.earlier,
        h.control⟩
  | @receive buffer core sent g hBefore hCore hReceive =>
      rcases gdbReceive_cases hReceive with
        ⟨hPacket, -⟩ | ⟨-, rfl⟩
      · exact absurd (hQuiet buffer rfl) hPacket
      · have hMachine : (c.served { c.server core with
            sigint := true
            exec := false }).machine = c.machine :=
          Machine.put_state hCore
        have hNone : ¬ c.threads < c.threads :=
          Nat.lt_irrefl _
        have hThread : (if c.threads < c.threads then
            ContinuePoint.loop
          else
            c.thread) = c.thread :=
          if_neg hNone
        have hEarlier : (if c.threads < c.threads then
            c.thread :: c.earlier
          else
            c.earlier) = c.earlier :=
          if_neg hNone
        refine ⟨?_, h.bp, h.flag, ?_, ?_, h.control⟩
        · rw [hMachine]
          exact h.machine
        · have hOld := h.thread
          rw [← hThread] at hOld
          exact hOld
        · have hOld := h.earlier
          rw [← hEarlier] at hOld
          exact hOld

/-
  When the debugger waits for every stop reply and the thread
  finds a breakpoint, the first hart is at it, and until the
  next packet it stays there: no hart ticks, and nothing but
  the devices and the pins that they drive changes.
-/
theorem gdb_waits_at_breakpoint
    (P : Platform σ)
    (createXML : HexText.Text)
    (machine : Machine σ)
    (ts ts' : List (DebugTrans σ))
    (c c' : DebugConfig σ)
    (h : DebugRun P createXML (.waiting machine) ts c)
    (hWaits : ∀ t ∈ ts, WaitsStep t)
    (hR : c.isR = true)
    (hFound : c.thread = .found)
    (h' : DebugRun P createXML c ts' c')
    (hQuiet : ∀ t ∈ ts', QuietStep t) :
    c'.AtBreak ∧ c'.bp = c.bp ∧
      c'.machine = { c.machine with
        world := c'.machine.world } ∧
      ∀ t ∈ ts', ∀ i, t.event ≠ .tick i := by
  have hBoth : Supervised c ∧ LookUpValid c := by
    refine @Runs.Run.invariant _ _ _
      (fun c => c.isR = true → Supervised c ∧ LookUpValid c)
      _ _ _ ?_ (h.restrict hWaits)
      (fun _ => ⟨.waiting machine, .waiting machine⟩) hR
    intro c e c' hOld ⟨hStep, hWaits⟩ hR
    have hSup := fun hR => (hOld hR).1
    exact ⟨hStep.supervised hSup hR,
      hStep.lookUpValid hSup (fun hR => (hOld hR).2) hWaits
        hR⟩
  rcases hBoth with ⟨hSup, hValid⟩
  have hStart : Stopped c c :=
    ⟨rfl, rfl, hValid.asking (Or.inr (Or.inl hFound)),
      Or.inl hFound, hValid.earlier, hSup.control⟩
  have hRun := h'.restrict hQuiet
  have hKept : ∀ c₁ e c₂, Stopped c c₁ →
      DebugStep P createXML c₁ e c₂ ∧ QuietStep ⟨c₁, e, c₂⟩ →
        Stopped c c₂ :=
    fun c₁ e c₂ hOld hStep => hOld.step hStep.1 hStep.2
  have hEnd : Stopped c c' := hRun.invariant hKept hStart
  have hPc : c'.pc = c.pc := by
    unfold DebugConfig.pc
    rw [hEnd.machine]
  refine ⟨?_, hEnd.bp, hEnd.machine, ?_⟩
  · have hAt := hValid.found hFound
    unfold DebugConfig.AtBreak
    rw [hPc, hEnd.bp]
    exact hAt
  · refine hRun.forall_mem hKept ?_ hStart
    intro c₁ e c₂ hOld hStep i hTick
    change e = _ at hTick
    subst hTick
    cases hStep.1 with
    | tick hPoint => exact hOld.not_inTicks.1 hPoint

/- A breakpoint at the reset vector, and `vCont;c`. -/
def breakEvents : List DebugEvent :=
  .receive (gdbSendPacket "Z0,80000000,4".toList) ::
    .receive (gdbSendPacket "vCont;c".toList) ::
      List.replicate 3 .thread

/- The stop is answered, and then there is an interrupt. -/
def quietEvents : List DebugEvent :=
  [.thread, .thread, .receive ['\x03'], .work]

theorem gdb_waits_at_breakpoint_reset :
    ∃ (c c' : DebugConfig Unit)
      (ts' : List (DebugTrans Unit)),
      eventsOf ts' = quietEvents ∧
      c'.AtBreak ∧ c'.bp = c.bp ∧
      c'.machine = { c.machine with
        world := c'.machine.world } ∧
      ∀ t ∈ ts', ∀ i, t.event ≠ .tick i := by
  have hSome : ((DebugConfig.evalSteps Platform.bare []
      DebugConfig.waits breakEvents
      (.waiting nopMachine)).bind fun c =>
        (DebugConfig.evalSteps Platform.bare []
          DebugConfig.waits quietEvents
          c).map fun _ => (c.isR, c.thread)) =
      some (true, .found) := by
    decide +kernel
  rcases Option.bind_eq_some_iff.mp hSome with
    ⟨c, hBreak, hRest⟩
  rcases Option.map_eq_some_iff.mp hRest with
    ⟨c', hQuiet, hEq⟩
  have hR : c.isR = true := congrArg Prod.fst hEq
  have hFound : c.thread = .found := congrArg Prod.snd hEq
  rcases run_of_start breakEvents hBreak with
    ⟨ts, hRun, hMade, -⟩
  rcases run_of_start quietEvents hQuiet with
    ⟨ts', hRun', -, hEvents⟩
  refine ⟨c, c', ts', hEvents, gdb_waits_at_breakpoint
    Platform.bare [] nopMachine ts ts' c c' hRun
    (fun t ht => (hMade t ht).waitsStep) hR hFound hRun' ?_⟩
  intro t ht buffer hReceive
  have hMem := mem_eventsOf ht
  rw [hEvents, hReceive] at hMem
  unfold quietEvents at hMem
  simp at hMem
  rw [hMem]
  rfl

end RiscvEm
