import RiscvEm.Gdb.Threads

/-
  Continuing the machine from step to step: the flag for a
  single step is what the two threads hand over, and harts
  only tick while it is set.

  Key definitions include:
    * `ControlAt`
    * `Supervised`
    * `TickGranted`

  Key theorems include:
    * `DebugStep.supervised`
    * `gdb_ticks_are_granted`
-/

------------------------------------------------------------
-- What Is Kept
------------------------------------------------------------

namespace RiscvEm

variable {σ : Type}
variable {P : Platform σ}
variable {c c' : DebugConfig σ}

/- The machine only runs, and only ticks, with the flag set. -/
def ControlAt
    (ctl : Control) : WorkPoint → Prop
  | .loop | .testResetting | .testHalted =>
      ctl.state = .Halted ∨
        ctl.state = .Running ∧ ctl.gdbSingleStep = true
  | .halted => ctl.state = .Halted
  | .wake =>
      ctl.state = .Halted ∧ ctl.gdbSingleStep = true
  | .resetting | .done => False
  | .storeHalted => True
  | .ticking | .resetTest | .resetStore | .resetRebuild
  | .ticked | .clearStep => ctl.gdbSingleStep = true

/- The first hart has taken the tick that the flag is for. -/
def HandedOut
    (next : Nat) : WorkPoint → Prop
  | .ticking | .resetTest | .resetStore
  | .resetRebuild => next ≠ 0
  | .ticked | .clearStep => True
  | _ => False

/- What the threads keep until the machine is killed. -/
structure Supervised
    (c : DebugConfig σ) : Prop where
  control : ControlAt c.work.ctl c.work.point
  granted : c.flag = true → c.grant = none →
    HandedOut c.next c.work.point
  lookedUp : c.grant = some .lookedUp → ¬ c.AtBreak

/- Setting the flag takes nothing away. -/
theorem ControlAt.setFlag
    {ctl : Control}
    {point : WorkPoint}
    (h : ControlAt ctl point) :
    ControlAt { ctl with gdbSingleStep := true } point := by
  cases point with
  | loop | testResetting | testHalted =>
      rcases h with hHalted | ⟨hRunning, -⟩
      · exact Or.inl hHalted
      · exact Or.inr ⟨hRunning, rfl⟩
  | halted => exact h
  | wake => exact ⟨h.1, rfl⟩
  | resetting | done => exact h
  | storeHalted => trivial
  | ticking | resetTest | resetStore | resetRebuild | ticked
  | clearStep => rfl

/- Where harts tick or are made anew, the flag is set. -/
theorem Supervised.flag_of_inTicks
    (h : Supervised c)
    (hPoint : c.work.point = .ticking ∨ c.Rebuilds) :
    c.flag = true := by
  have hControl := h.control
  rcases hPoint with hPoint | hPoint | hPoint
  · rw [hPoint] at hControl
    exact hControl
  · rw [hPoint] at hControl
    exact hControl.elim
  · rw [hPoint] at hControl
    exact hControl

/- A step that leaves the first hart and the breakpoints alone. -/
theorem Supervised.of_same
    (h : Supervised c)
    (hBreak : c'.AtBreak ↔ c.AtBreak)
    (hLooked : c'.grant = some .lookedUp →
      c.grant = some .lookedUp)
    (hControl : ControlAt c'.work.ctl c'.work.point)
    (hGranted : c'.flag = true → c'.grant = none →
      HandedOut c'.next c'.work.point) :
    Supervised c' := by
  refine ⟨hControl, hGranted, ?_⟩
  intro hGrant
  rw [hBreak]
  exact h.lookedUp (hLooked hGrant)

/- The loop of the work thread, one case for each place. -/
theorem ControlAt.work
    {w : WorkConfig}
    (h : ControlAt w.ctl w.point) :
    ControlAt w.work.ctl w.work.point := by
  rcases w with ⟨ctl, point⟩
  cases point with
  | loop =>
      have hOn : ctl.state ≠ .Off := by
        intro hOff
        rcases h with hHalted | ⟨hRunning, -⟩
        · rw [hHalted] at hOff
          cases hOff
        · rw [hRunning] at hOff
          cases hOff
      unfold WorkConfig.work
      dsimp only
      rw [if_neg hOn]
      exact h
  | testResetting =>
      have hNot : ctl.state ≠ .Resetting := by
        intro hReset
        rcases h with hHalted | ⟨hRunning, -⟩
        · rw [hHalted] at hReset
          cases hReset
        · rw [hRunning] at hReset
          cases hReset
      unfold WorkConfig.work
      dsimp only
      rw [if_neg hNot]
      exact h
  | testHalted =>
      unfold WorkConfig.work
      dsimp only
      split
      case isTrue hHalted => exact hHalted
      case isFalse hHalted =>
        rcases h with hState | ⟨-, hFlag⟩
        · exact absurd hState hHalted
        · exact hFlag
  | halted =>
      unfold WorkConfig.work
      dsimp only
      split
      case isTrue hFlag => exact ⟨h, hFlag⟩
      case isFalse => exact Or.inl h
  | wake => exact Or.inr ⟨rfl, h.2⟩
  | resetting | done => exact h.elim
  | ticking => exact h
  | resetTest =>
      unfold WorkConfig.work
      dsimp only
      split
      · exact h
      · exact h
  | resetStore | resetRebuild => exact h
  | ticked =>
      have hFlag : ctl.gdbSingleStep = true := h
      unfold WorkConfig.work
      dsimp only
      rw [if_pos hFlag]
      exact hFlag
  | clearStep => trivial
  | storeHalted => exact Or.inl rfl

/- A used flag is cleared before the next ticks. -/
theorem HandedOut.work
    {w : WorkConfig}
    {next : Nat}
    (h : HandedOut next w.point)
    (hFlag : w.ctl.gdbSingleStep = true)
    (hClear : w.point ≠ .clearStep) :
    HandedOut next w.work.point := by
  rcases w with ⟨ctl, point⟩
  cases point with
  | ticking => trivial
  | resetTest =>
      unfold WorkConfig.work
      dsimp only
      split
      · exact h
      · exact h
  | resetStore | resetRebuild => exact h
  | ticked =>
      unfold WorkConfig.work
      dsimp only
      rw [if_pos hFlag]
      trivial
  | clearStep => exact absurd rfl hClear
  | loop | testResetting | resetting | testHalted | halted
  | wake | storeHalted | done => exact h.elim

theorem WorkConfig.work_flag
    {w : WorkConfig}
    (h : w.work.ctl.gdbSingleStep = true) :
    w.ctl.gdbSingleStep = true ∧ w.point ≠ .clearStep := by
  rcases w with ⟨ctl, point⟩
  cases point with
  | clearStep => cases h
  | loop | testHalted =>
      refine ⟨?_, nofun⟩
      unfold WorkConfig.work at h
      dsimp only at h
      split at h
      · exact h
      · exact h
  | testResetting | resetting | halted | wake | ticking
  | resetTest | resetStore | resetRebuild | ticked
  | storeHalted | done => exact ⟨h, nofun⟩

/- Only one store of the work thread clears the flag. -/
theorem WorkConfig.work_keeps_flag
    {w : WorkConfig}
    (h : w.ctl.gdbSingleStep = true)
    (hPoint : w.point ≠ .clearStep) :
    w.work.ctl.gdbSingleStep = true := by
  rcases w with ⟨ctl, point⟩
  cases point with
  | clearStep => exact absurd rfl hPoint
  | loop | testHalted =>
      unfold WorkConfig.work
      dsimp only
      split
      · exact h
      · exact h
  | testResetting | resetting | halted | wake | ticking
  | resetTest | resetStore | resetRebuild | ticked
  | storeHalted | done => exact h

theorem Supervised.workStep
    (h : Supervised c) :
    Supervised c.workStep := by
  refine h.of_same Iff.rfl ?_ h.control.work ?_
  · change (if c.work.point = .clearStep then none
      else c.grant) = _ → _
    split
    · exact nofun
    · exact id
  · intro hSet hNone
    rcases WorkConfig.work_flag hSet with ⟨hFlag, hClear⟩
    change (if c.work.point = .clearStep then none
      else c.grant) = none at hNone
    rw [if_neg hClear] at hNone
    have hOut := h.granted hFlag hNone
    have hPoint : c.work.point ≠ .testHalted := by
      intro hEq
      rw [hEq] at hOut
      exact hOut.elim
    change HandedOut (if c.work.point = .testHalted then 0
      else c.next) c.work.work.point
    rw [if_neg hPoint]
    exact hOut.work hFlag hClear

theorem DebugConfig.pc_put
    {i : Nat}
    (hi : i ≠ 0)
    (m : Machine σ)
    (s : State σ) :
    (m.put i s).harts[0]? = m.harts[0]? :=
  List.getElem?_set_ne hi

/- A tick. -/
theorem Supervised.ticked
    {s : State σ}
    (h : Supervised c)
    (hPoint : c.work.point = .ticking) :
    Supervised (c.ticked s) := by
  refine ⟨h.control, ?_, ?_⟩
  · intro _ _
    change HandedOut _ c.work.point
    rw [hPoint]
    exact Nat.succ_ne_zero _
  · intro hGrant
    change (if c.next = 0 then none else c.grant) = _ at hGrant
    split at hGrant
    case isTrue => cases hGrant
    case isFalse hNext =>
      have hSame : (c.ticked s).pc = c.pc := by
        unfold DebugConfig.pc
        exact congrArg _
          (DebugConfig.pc_put hNext c.machine s)
      unfold DebugConfig.AtBreak
      rw [hSame]
      exact h.lookedUp hGrant

/- The harts are made anew in the middle of a tick. -/
theorem Supervised.rebuild
    {machine : Machine σ}
    (h : Supervised c)
    (hRebuilds : c.Rebuilds) :
    Supervised { c.workStep with
      machine := machine
      grant := c.grant.map Grant.outdated } := by
  have hFlag := h.flag_of_inTicks (Or.inr hRebuilds)
  have hPoint : c.work.point = .resetRebuild := by
    rcases hRebuilds with hPoint | hPoint
    · have hControl := h.control
      rw [hPoint] at hControl
      exact hControl.elim
    · exact hPoint
  refine ⟨h.control.work, ?_, ?_⟩
  · intro hSet hNone
    rcases WorkConfig.work_flag hSet with ⟨-, hClear⟩
    have hOut := h.granted hFlag (Option.map_eq_none_iff.mp
      hNone)
    change HandedOut (if c.work.point = .testHalted then 0
      else c.next) c.work.work.point
    rw [if_neg (by rw [hPoint]; nofun)]
    exact hOut.work hFlag hClear
  · intro hGrant
    rcases Option.map_eq_some_iff.mp hGrant with
      ⟨grant, -, hEq⟩
    cases grant <;> cases hEq

/- A hart asks SYSCON for something. -/
theorem Supervised.ask
    (h : Supervised c)
    (hPoint : c.work.point = .ticking)
    (req : Option Request) :
    Supervised { c with work := c.work.ask req } := by
  have hFlag := h.flag_of_inTicks (Or.inl hPoint)
  have hAsk : (c.work.ask req).ctl.gdbSingleStep = true ∧
      ((c.work.ask req).point = .ticking ∨
        (c.work.ask req).point = .resetTest) := by
    cases req with
    | none => exact ⟨hFlag, Or.inl hPoint⟩
    | some req =>
        cases req with
        | poweroff =>
            refine ⟨?_, Or.inl hPoint⟩
            change c.work.ctl.stop.gdbSingleStep = true
            unfold Control.stop
            split
            · exact hFlag
            · exact hFlag
        | reset => exact ⟨hFlag, Or.inr rfl⟩
  rcases hAsk with ⟨hSet, hAfter⟩
  refine h.of_same Iff.rfl id ?_ ?_
  · change ControlAt (c.work.ask req).ctl
      (c.work.ask req).point
    rcases hAfter with hEq | hEq
    · rw [hEq]
      exact hSet
    · rw [hEq]
      exact hSet
  · intro _ hNone
    have hOut := h.granted hFlag hNone
    rw [hPoint] at hOut
    change HandedOut c.next (c.work.ask req).point
    rcases hAfter with hEq | hEq
    · rw [hEq]
      exact hOut
    · rw [hEq]
      exact hOut

/-
  A thread that continues the machine. Setting the flag, it
  may have looked up another `pc`.
-/
theorem Supervised.continueStep
    (h : Supervised c) :
    Supervised c.continueStep := by
  unfold DebugConfig.continueStep
  cases c.thread with
  | loop | testStep | lookUp | found | reply | ended =>
      exact ⟨h.control, h.granted, h.lookedUp⟩
  | grant =>
      dsimp only
      by_cases hFlag : c.flag = true
      · rw [if_pos hFlag]
        exact ⟨h.control.setFlag, fun _ => h.granted hFlag,
          h.lookedUp⟩
      · rw [if_neg hFlag]
        refine ⟨h.control.setFlag, nofun, ?_⟩
        by_cases hAt : c.AtBreak
        · dsimp only
          rw [if_pos hAt]
          nofun
        · exact fun _ => hAt

/- Where the threads are does not matter. -/
theorem Supervised.withThreads
    (h : Supervised c)
    (thread : ContinuePoint)
    (earlier : List ContinuePoint) :
    Supervised { c with
      thread := thread
      earlier := earlier } :=
  ⟨h.control, h.granted, h.lookedUp⟩

theorem Supervised.earlierStep
    (h : Supervised c)
    (i : Nat)
    (point : ContinuePoint) :
    Supervised (c.earlierStep i point) :=
  (h.withThreads point c.earlier).continueStep.withThreads _ _

section Receiving

variable {core : HartCore}
variable {g : GdbServer σ}

theorem DebugConfig.served_pc
    (hCore : c.machine.harts[0]? = some core) :
    (c.served g).pc = some g.stub.state.hart.pc := by
  have hLt : 0 < c.machine.harts.length :=
    (List.getElem?_eq_some_iff.mp hCore).1
  have hGet : (c.machine.put 0 g.stub.state).harts[0]? =
      some ⟨g.stub.state.hart, g.stub.state.jctx⟩ :=
    List.getElem?_set_self hLt
  exact congrArg (Option.map _) hGet

/- A packet sets the flag at most. -/
theorem Served.cpu
    {packet : HexText.Text}
    {g' : GdbServer σ}
    (h : Served packet g g')
    (hR : g'.isR = true) :
    g'.cpu = g.cpu ∨
      g'.cpu = { g.cpu with gdbSingleStep := true } := by
  cases h with
  | step => exact Or.inr rfl
  | kill => cases hR
  | same | xml | hart | breaks | goOn => exact Or.inl rfl

/- An unused look up is for the `pc` and breakpoints of now. -/
theorem DebugConfig.grantBehind_lookedUp
    (h : c.grantBehind g = some .lookedUp) :
    c.grant = some .lookedUp ∧ g.bp = c.bp ∧
      c.pc = some g.stub.state.hart.pc := by
  unfold DebugConfig.grantBehind at h
  split at h
  case isTrue => cases h
  case isFalse =>
    split at h
    case isTrue hSame => exact ⟨h, hSame.1, hSame.2⟩
    case isFalse =>
      rcases Option.map_eq_some_iff.mp h with
        ⟨grant, -, hEq⟩
      cases grant <;> cases hEq

/- A flag that stands for nothing was set and used before. -/
theorem DebugConfig.grantBehind_none
    (h : c.grantBehind g = none)
    (hSet : g.cpu.gdbSingleStep = true) :
    c.flag = true ∧ c.grant = none := by
  unfold DebugConfig.grantBehind at h
  split at h
  case isTrue => cases h
  case isFalse hNew =>
    have hFlag : c.flag = true := by
      by_contra hClear
      exact hNew ⟨hSet, Bool.eq_false_of_not_eq_true hClear⟩
    refine ⟨hFlag, ?_⟩
    split at h
    · exact h
    · exact Option.map_eq_none_iff.mp h

/- The server was at work. -/
theorem Supervised.served
    (h : Supervised c)
    (hCore : c.machine.harts[0]? = some core)
    (hCpu : g.cpu = c.work.ctl ∨
      g.cpu = { c.work.ctl with gdbSingleStep := true }) :
    Supervised (c.served g) := by
  refine ⟨?_, ?_, ?_⟩
  · change ControlAt g.cpu c.work.point
    rcases hCpu with hEq | hEq
    · rw [hEq]
      exact h.control
    · rw [hEq]
      exact h.control.setFlag
  · intro hSet hNone
    rcases DebugConfig.grantBehind_none hNone hSet with
      ⟨hFlag, hGrant⟩
    exact h.granted hFlag hGrant
  · intro hGrant
    rcases DebugConfig.grantBehind_lookedUp hGrant with
      ⟨hLooked, hBp, hSame⟩
    have hEq : (c.served g).bp = c.bp := hBp
    unfold DebugConfig.AtBreak
    rw [DebugConfig.served_pc hCore, hEq, ← hSame]
    exact h.lookedUp hLooked

theorem Supervised.receive
    {createXML buffer : HexText.Text}
    {sent : List HexText.Text}
    (h : Supervised c)
    (hCore : c.machine.harts[0]? = some core)
    (hReceive : gdbReceive P createXML buffer
      (c.server core) = .ok (sent, g))
    (hR : g.isR = true) :
    Supervised (c.served g) := by
  rcases gdbReceive_cases hReceive with
    ⟨-, packet, hServed⟩ | ⟨-, rfl⟩
  · exact h.served hCore (hServed.cpu hR)
  · exact h.served hCore (Or.inl rfl)

end Receiving

theorem DebugConfig.continueStep_isR
    (c : DebugConfig σ) :
    c.continueStep.isR = c.isR := by
  unfold DebugConfig.continueStep
  split <;> rfl

theorem DebugConfig.earlierStep_isR
    (c : DebugConfig σ)
    (i : Nat)
    (point : ContinuePoint) :
    (c.earlierStep i point).isR = c.isR :=
  DebugConfig.continueStep_isR _

/- Every step of every thread, until the machine is killed. -/
theorem DebugStep.supervised
    {createXML : HexText.Text}
    {e : DebugEvent}
    (hOld : c.isR = true → Supervised c)
    (h : DebugStep P createXML c e c')
    (hR : c'.isR = true) :
    Supervised c' := by
  cases h with
  | work => exact (hOld hR).workStep
  | rebuild machine hRebuilds =>
      exact (hOld hR).rebuild hRebuilds
  | tick hPoint => exact (hOld hR).ticked hPoint
  | device world =>
      have hSame := hOld hR
      exact hSame.of_same Iff.rfl id hSame.control
        hSame.granted
  | syscon addr val hPoint => exact (hOld hR).ask hPoint _
  | thread =>
      rw [DebugConfig.continueStep_isR] at hR
      exact (hOld hR).continueStep
  | earlier =>
      rw [DebugConfig.earlierStep_isR] at hR
      exact (hOld hR).earlierStep _ _
  | clear =>
      have hSame := hOld hR
      exact hSame.of_same Iff.rfl id hSame.control
        hSame.granted
  | receive hBefore hCore hReceive =>
      exact (hOld hBefore).receive hCore hReceive hR

theorem Supervised.waiting
    (machine : Machine σ) :
    Supervised (DebugConfig.waiting machine) :=
  ⟨Or.inl rfl, nofun, nofun⟩

end RiscvEm

------------------------------------------------------------
-- Ticks And Grants
------------------------------------------------------------

namespace RiscvEm

variable {σ : Type}
variable {P : Platform σ}
variable {createXML : HexText.Text}
variable {c c' : DebugConfig σ}
variable {e : DebugEvent}

/- The first hart takes a tick, and the machine is not killed. -/
def firstTick
    (t : DebugTrans σ) : Bool :=
  match t.event with
  | .tick 0 => t.before.isR
  | _ => false

/- The flag is set in this step. -/
def setsFlag
    (t : DebugTrans σ) : Bool :=
  !t.before.flag && t.after.flag

/-
  Harts tick with the flag set, and the first one uses a
  grant, which is not for a breakpoint if `pc` was looked up.
-/
structure TickGranted
    (t : DebugTrans σ) : Prop where
  flag : ∀ i, t.event = .tick i → t.before.flag = true
  grant : t.event = .tick 0 →
    ∃ grant, t.before.grant = some grant ∧
      (grant = .lookedUp → ¬ t.before.AtBreak)

/- What the invariant is from a start on: until the kill. -/
def SupervisedUntilKill
    (c : DebugConfig σ) : Prop :=
  c.isR = true → Supervised c

theorem Supervised.tickGranted
    (h : Supervised c)
    (hStep : DebugStep P createXML c e c') :
    TickGranted ⟨c, e, c'⟩ := by
  cases hStep with
  | tick hPoint hCore hTick =>
      have hFlag := h.flag_of_inTicks (Or.inl hPoint)
      refine ⟨fun _ _ => hFlag, ?_⟩
      intro hFirst
      have hNext : c.next = 0 := DebugEvent.tick.inj hFirst
      cases hGrant : c.grant with
      | some grant =>
          refine ⟨grant, rfl, ?_⟩
          rintro rfl
          exact h.lookedUp hGrant
      | none =>
          have hOut := h.granted hFlag hGrant
          rw [hPoint] at hOut
          exact absurd hNext hOut
  | work | rebuild | device | syscon | thread | earlier
  | clear | receive => exact ⟨nofun, nofun⟩

/- A grant that is not used yet. -/
def DebugConfig.unused
    (c : DebugConfig σ) : Nat :=
  if c.isR = true ∧ c.grant.isSome = true then 1 else 0

theorem DebugConfig.unused_le
    (h : c'.isR = true → c'.grant.isSome = true →
      c.isR = true ∧ c.grant.isSome = true) :
    c'.unused ≤ c.unused := by
  unfold DebugConfig.unused
  split
  case isTrue hNew =>
    rw [if_pos (h hNew.1 hNew.2)]
  case isFalse => exact Nat.zero_le _

/- The tick of the first hart uses the grant. -/
theorem DebugStep.paid_firstTick
    {s : State σ}
    (hOld : SupervisedUntilKill c)
    (h : DebugStep P createXML c (.tick c.next) (c.ticked s))
    (hNext : c.next = 0) :
    (firstTick ⟨c, .tick c.next, c.ticked s⟩).toNat +
      (c.ticked s).unused ≤ c.unused := by
  have hUsed : (c.ticked s).unused = 0 := by
    unfold DebugConfig.unused DebugConfig.ticked
    dsimp only
    rw [if_pos hNext, if_neg]
    rintro ⟨-, hGrant⟩
    cases hGrant
  have hFirst : firstTick ⟨c, .tick c.next, c.ticked s⟩ =
      c.isR := by
    unfold firstTick
    dsimp only
    rw [hNext]
    rfl
  rw [hUsed, hFirst, Nat.add_zero]
  cases hR : c.isR with
  | false => exact Nat.zero_le _
  | true =>
      have hEvent : DebugEvent.tick c.next = .tick 0 := by
        rw [hNext]
      rcases ((hOld hR).tickGranted h).grant hEvent with
        ⟨grant, hGrant, -⟩
      change c.grant = _ at hGrant
      unfold DebugConfig.unused
      rw [if_pos ⟨hR, by rw [hGrant]; rfl⟩]
      exact Nat.le_refl _

theorem DebugConfig.unused_le_one
    (c : DebugConfig σ) :
    c.unused ≤ 1 := by
  unfold DebugConfig.unused
  split
  · exact Nat.le_refl _
  · exact Nat.zero_le _

/- A thread that continues the machine. -/
theorem DebugConfig.continueStep_paid
    (c : DebugConfig σ) :
    c.continueStep.unused ≤
      (!c.flag && c.continueStep.flag).toNat + c.unused := by
  by_cases hCase : c.thread = .grant ∧ c.flag = false
  · rcases hCase with ⟨hThread, hFlag⟩
    have hSet : c.continueStep.flag = true := by
      unfold DebugConfig.continueStep
      rw [hThread]
      rfl
    rw [hFlag, hSet]
    exact Nat.le_add_right_of_le (unused_le_one _)
  · have hSame : c.continueStep.grant = c.grant := by
      unfold DebugConfig.continueStep
      cases hThread : c.thread with
      | grant =>
          have hFlag : c.flag = true := by
            rw [← Bool.not_eq_false]
            exact fun hClear => hCase ⟨hThread, hClear⟩
          exact if_pos hFlag
      | loop | testStep | lookUp | found | reply
      | ended => rfl
    refine Nat.le_add_left_of_le (unused_le ?_)
    rw [c.continueStep_isR, hSame]
    exact And.intro

/- A grant is paid for by setting the flag. -/
theorem DebugStep.paid
    (hOld : SupervisedUntilKill c)
    (h : DebugStep P createXML c e c') :
    (firstTick ⟨c, e, c'⟩).toNat + c'.unused ≤
      (setsFlag ⟨c, e, c'⟩).toNat + c.unused := by
  have hStep : firstTick ⟨c, e, c'⟩ = false →
      c'.unused ≤
        (setsFlag ⟨c, e, c'⟩).toNat + c.unused →
        (firstTick ⟨c, e, c'⟩).toNat + c'.unused ≤
          (setsFlag ⟨c, e, c'⟩).toNat + c.unused := by
    intro hNone hLe
    rw [hNone, Bool.toNat_false, Nat.zero_add]
    exact hLe
  have hKept : firstTick ⟨c, e, c'⟩ = false →
      c'.unused ≤ c.unused →
        (firstTick ⟨c, e, c'⟩).toNat + c'.unused ≤
          (setsFlag ⟨c, e, c'⟩).toNat + c.unused :=
    fun hNone hLe => hStep hNone (Nat.le_add_left_of_le hLe)
  cases h with
  | work =>
      refine hKept rfl (DebugConfig.unused_le ?_)
      intro hR hGrant
      refine ⟨hR, ?_⟩
      change (if c.work.point = .clearStep then none
        else c.grant).isSome = true at hGrant
      split at hGrant
      · cases hGrant
      · exact hGrant
  | rebuild machine =>
      refine hKept rfl (DebugConfig.unused_le ?_)
      intro hR hGrant
      exact ⟨hR, by rwa [Option.isSome_map] at hGrant⟩
  | @tick core s hPoint hCore hTick =>
      by_cases hNext : c.next = 0
      · have hStep := @DebugStep.tick σ P createXML c core s
          hPoint hCore hTick
        exact (paid_firstTick hOld hStep hNext).trans
          (Nat.le_add_left _ _)
      · rcases Nat.exists_eq_succ_of_ne_zero hNext with
          ⟨n, hSucc⟩
        refine hKept ?_ (DebugConfig.unused_le ?_)
        · unfold firstTick
          dsimp only
          rw [hSucc]
          rfl
        · intro hR hGrant
          change (if c.next = 0 then none
            else c.grant).isSome = true at hGrant
          rw [if_neg hNext] at hGrant
          exact ⟨hR, hGrant⟩
  | device world =>
      exact hKept rfl (DebugConfig.unused_le And.intro)
  | syscon addr val =>
      exact hKept rfl (DebugConfig.unused_le And.intro)
  | thread => exact hStep rfl c.continueStep_paid
  | @earlier i point =>
      exact hStep rfl (DebugConfig.continueStep_paid
        { c with thread := point })
  | clear =>
      exact hKept rfl (DebugConfig.unused_le And.intro)
  | @receive buffer core sent g hR =>
      by_cases hNew : g.cpu.gdbSingleStep = true ∧
          c.flag = false
      · have hSets : (c.served g).flag = true := hNew.1
        refine hStep rfl ?_
        unfold setsFlag
        rw [hNew.2, hSets]
        exact Nat.le_add_right_of_le
          (DebugConfig.unused_le_one _)
      · refine hKept rfl (DebugConfig.unused_le ?_)
        intro _ hGrant
        refine ⟨hR, ?_⟩
        change (c.grantBehind g).isSome = true at hGrant
        unfold DebugConfig.grantBehind at hGrant
        rw [if_neg hNew] at hGrant
        split at hGrant
        · exact hGrant
        · rwa [Option.isSome_map] at hGrant

/- A machine of one hart, with a `nop` to execute. -/
def nopMachine : Machine Unit :=
  .single (State.boot [0x00000013])

end RiscvEm
