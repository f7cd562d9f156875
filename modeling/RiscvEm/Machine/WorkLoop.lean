import RiscvEm.Defines

/-
  The loop of the work thread and the stores to the state of
  the machine: by the loop itself, by harts through SYSCON in
  the middle of a tick, and by other threads. A step is one
  access to a shared variable, so that a run is any order of
  these accesses.

  Key definitions include:
    * `Control`
    * `WorkConfig.step`
    * `WorkRun`
    * `NotLost`
    * `Kept`

  Key theorems include:
    * `stored_spec`
    * `requests_not_lost`
-/

------------------------------------------------------------
-- Control State
------------------------------------------------------------

namespace RiscvEm

inductive MachineState where
  | Off
  | Halted
  | Running
  | Resetting
  deriving DecidableEq, Repr

/- What a hart can ask SYSCON for. -/
inductive Request where
  | poweroff
  | reset
  deriving DecidableEq, Repr

def Request.target : Request → MachineState
  | .poweroff => .Off
  | .reset => .Resetting

/-
  The shared variables. The last two are not in the source:
  the requests of the harts in this iteration, and whether
  `stop` has stored `Off`.
-/
structure Control where
  state : MachineState
  gdb : Bool
  gdbSingleStep : Bool
  workThreadW : Bool
  requests : List Request
  stopped : Bool
  deriving DecidableEq, Repr

namespace Control

def setState
    (c : Control)
    (v : MachineState) : Control :=
  { c with state := v }

def request
    (c : Control)
    (r : Request) : Control :=
  { c with requests := r :: c.requests }

/- The state after a reset: a debugger starts halted. -/
def restart
    (c : Control) : MachineState :=
  if c.gdb then .Halted else .Running

/- Waiting for the thread to end changes nothing. -/
def stop
    (c : Control) : Control :=
  if c.workThreadW then
    { c with state := .Off, stopped := true }
  else
    c

end Control

def SYSCON_START : BitVec 64 := 0x1000000

/- What a write to SYSCON asks for. -/
@[irreducible]
def sysconRequest
    (addr val : BitVec 64) : Option Request :=
  if SYSCON_START - addr = 0 then
    if val = 0x5555 then
      some .poweroff
    else if val = 0x7777 then
      some .reset
    else
      none
  else
    none

/-
  A request that is served before any other thread comes
  between. A reset of a machine that is off is done at once.
-/
def Control.serve
    (c : Control) : Option Request → Control
  | none => c
  | some .poweroff => c.stop.request .poweroff
  | some .reset =>
      (c.setState
        (if c.state = .Off then c.restart
          else .Resetting)).request .reset

def sysconWrite
    (addr val : BitVec 64)
    (c : Control) : Control :=
  c.serve (sysconRequest addr val)

end RiscvEm

------------------------------------------------------------
-- Steps
------------------------------------------------------------

namespace RiscvEm

/- Where the work thread is. -/
inductive WorkPoint where
  /- `while(state != Off)` -/
  | loop
  /- `if(state == Resetting)`, and the end of that branch -/
  | testResetting
  | resetting
  /- `if(state == Halted)`, its test of `gdb_single_step` and
  the store of `Running` -/
  | testHalted
  | halted
  | wake
  /- Devices and harts take their ticks. -/
  | ticking
  /- `reset`, called in a tick: its test and its two stores -/
  | resetTest
  | resetStore
  | resetRebuild
  /- `if(gdb_single_step)` after the ticks, and its stores -/
  | ticked
  | clearStep
  | storeHalted
  | done
  deriving DecidableEq, Repr

structure WorkConfig where
  ctl : Control
  point : WorkPoint
  deriving DecidableEq, Repr

/- One step of the work thread itself. -/
def WorkConfig.work
    (c : WorkConfig) : WorkConfig :=
  match c.point with
  | .loop =>
      if c.ctl.state = .Off then
        ⟨{ c.ctl with workThreadW := false }, .done⟩
      else
        ⟨c.ctl, .testResetting⟩
  | .testResetting =>
      ⟨c.ctl, if c.ctl.state = .Resetting then .resetting
        else .testHalted⟩
  | .resetting => ⟨c.ctl.setState c.ctl.restart, .loop⟩
  | .testHalted =>
      if c.ctl.state = .Halted then
        ⟨c.ctl, .halted⟩
      else
        ⟨{ c.ctl with requests := [] }, .ticking⟩
  | .halted =>
      ⟨c.ctl, if c.ctl.gdbSingleStep then .wake else .loop⟩
  | .wake => ⟨c.ctl.setState .Running, .loop⟩
  | .ticking => ⟨c.ctl, .ticked⟩
  | .resetTest =>
      ⟨c.ctl, if c.ctl.state = .Off then .resetRebuild
        else .resetStore⟩
  | .resetStore =>
      ⟨(c.ctl.setState .Resetting).request .reset, .ticking⟩
  | .resetRebuild =>
      ⟨(c.ctl.setState c.ctl.restart).request .reset,
        .ticking⟩
  | .ticked =>
      ⟨c.ctl, if c.ctl.gdbSingleStep then .clearStep
        else .loop⟩
  | .clearStep =>
      ⟨{ c.ctl with gdbSingleStep := false }, .storeHalted⟩
  | .storeHalted => ⟨c.ctl.setState .Halted, .loop⟩
  | .done => c

/- A hart asks for something; `reset` takes more steps. -/
def WorkConfig.ask
    (c : WorkConfig) : Option Request → WorkConfig
  | none => c
  | some .poweroff => ⟨c.ctl.stop.request .poweroff, c.point⟩
  | some .reset => ⟨c.ctl, .resetTest⟩

def WorkConfig.syscon
    (c : WorkConfig)
    (addr val : BitVec 64) : WorkConfig :=
  c.ask (sysconRequest addr val)

/-
  A step of the work thread, a write of a hart to SYSCON, or
  something another thread does: `stop`, a store to the state
  (the debugger's kill, or the end of a `reset` called
  there), a request for a single step, and the end of `run`.
-/
inductive WorkEvent where
  | work
  | syscon (addr val : BitVec 64)
  | stop
  | store (v : MachineState)
  | singleStep
  | started
  deriving DecidableEq, Repr

def WorkConfig.step
    (c : WorkConfig) : WorkEvent → Option WorkConfig
  | .work => some c.work
  | .syscon addr val =>
      if c.point = .ticking then some (c.syscon addr val)
      else none
  | .stop => some ⟨c.ctl.stop, c.point⟩
  | .store v => some ⟨c.ctl.setState v, c.point⟩
  | .singleStep =>
      some ⟨{ c.ctl with gdbSingleStep := true }, c.point⟩
  | .started =>
      some ⟨{ c.ctl with workThreadW := true }, c.point⟩

/- A step with the states around it. -/
structure WorkTrans where
  before : WorkConfig
  event : WorkEvent
  after : WorkConfig

/- A run, newest step first. -/
inductive WorkRun
    (c : WorkConfig) : List WorkTrans → WorkConfig → Prop
  | refl : WorkRun c [] c
  | step {ts : List WorkTrans} {c₁ c₂ : WorkConfig}
      {e : WorkEvent} :
      WorkRun c ts c₁ → c₁.step e = some c₂ →
      WorkRun c (⟨c₁, e, c₂⟩ :: ts) c₂

end RiscvEm

------------------------------------------------------------
-- Requests That Are Not Lost
------------------------------------------------------------

namespace RiscvEm

/- The step ends an iteration in which the harts ticked. -/
def WorkTrans.EndsIteration
    (t : WorkTrans) : Prop :=
  t.event = .work ∧
    (t.before.point = .ticked ∨
      t.before.point = .storeHalted) ∧
    t.after.point = .loop

/- The next iteration does what was asked for. -/
def Request.TakenUp
    (c : WorkConfig) : Request → Prop
  | .poweroff => c.work.point = .done
  | .reset => c.work.work.point = .resetting

/- The value that a request stores at once. -/
def WorkConfig.storedByAsk
    (c : WorkConfig)
    (req : Option Request) : Option MachineState :=
  if req = some .poweroff ∧ c.ctl.workThreadW = true then
    some .Off
  else
    none

/- The value that a step of the loop stores to the state. -/
def WorkConfig.stored
    (c : WorkConfig) : WorkEvent → Option MachineState
  | .work =>
      match c.point with
      | .resetting => some c.ctl.restart
      | .wake => some .Running
      | .resetStore => some .Resetting
      | .resetRebuild => some c.ctl.restart
      | .storeHalted => some .Halted
      | _ => none
  | .syscon addr val => c.storedByAsk (sysconRequest addr val)
  | _ => none

/-
  At the end of an iteration the state is the one that was
  asked for, and after a stop the loop stores nothing else.
-/
structure NotLost
    (t : WorkTrans) : Prop where
  served : t.EndsIteration →
    ∀ r ∈ t.after.ctl.requests,
      t.after.ctl.state = r.target ∧ r.TakenUp t.after
  final : t.before.ctl.stopped = true →
    ∀ v, t.before.stored t.event = some v → v = .Off

/- What a step of the loop or of a hart leaves in the state. -/
theorem stored_spec
    {c c' : WorkConfig}
    {e : WorkEvent}
    (hStep : c.step e = some c')
    (hOwn : e = .work ∨ ∃ addr val, e = .syscon addr val) :
    c'.ctl.state = (c.stored e).getD c.ctl.state := by
  rcases hOwn with rfl | ⟨addr, val, rfl⟩
  · cases hStep
    rcases c with ⟨ctl, point⟩
    cases point with
    | loop | testHalted =>
        unfold WorkConfig.work
        dsimp only
        split <;> rfl
    | testResetting | resetting | halted | wake | ticking
    | resetTest | resetStore | resetRebuild | ticked
    | clearStep | storeHalted | done => rfl
  · change (if c.point = .ticking then _ else _) = _ at hStep
    split at hStep
    case isFalse => cases hStep
    case isTrue =>
      rw [← Option.some.inj hStep]
      change (c.ask (sysconRequest addr val)).ctl.state =
        (c.storedByAsk (sysconRequest addr val)).getD _
      cases sysconRequest addr val with
      | none => rfl
      | some r =>
          cases r with
          | reset => rfl
          | poweroff =>
              change c.ctl.stop.state = _
              unfold Control.stop WorkConfig.storedByAsk
              by_cases hStarted : c.ctl.workThreadW = true
              · rw [if_pos hStarted, if_pos ⟨rfl, hStarted⟩]
                rfl
              · rw [if_neg hStarted,
                  if_neg (fun h => hStarted h.2)]
                rfl

end RiscvEm

------------------------------------------------------------
-- What May Happen When
------------------------------------------------------------

namespace RiscvEm

/- The part of an iteration from the ticks to its end. -/
def WorkPoint.inTicks : WorkPoint → Bool
  | .ticking => true
  | .resetTest => true
  | .resetStore => true
  | .resetRebuild => true
  | .ticked => true
  | .clearStep => true
  | .storeHalted => true
  | _ => false

/- From here on the work thread goes on to a store. -/
def WorkPoint.storing : WorkPoint → Bool
  | .resetting => true
  | .wake => true
  | .resetTest => true
  | .resetStore => true
  | .resetRebuild => true
  | .clearStep => true
  | .storeHalted => true
  | _ => false

/- `reset` was called by a hart and has not stored yet. -/
def WorkPoint.inReset : WorkPoint → Bool
  | .resetTest => true
  | .resetStore => true
  | .resetRebuild => true
  | _ => false

/- The next test of the state ends the loop, or it is over. -/
def WorkPoint.leaving : WorkPoint → Bool
  | .loop => true
  | .done => true
  | _ => false

/-
  A stop is not overwritten: it is seen at once, or no single
  step is due and no store of the work thread.
-/
def Stoppable
    (c : WorkConfig) : Prop :=
  c.point.leaving = true ∨
    (c.ctl.gdbSingleStep = false ∧ c.point.storing = false)

/-
  A hart asks to power off once `run` is through and no reset
  was asked for, and to reset a machine that is not off.
-/
def MayAsk
    (c : WorkConfig) : Request → Prop
  | .poweroff =>
      c.ctl.workThreadW = true ∧
        ∀ q ∈ c.ctl.requests, q = .poweroff
  | .reset => c.ctl.state ≠ .Off

/-
  What harts and other threads do, and when. The work thread
  itself is under no condition.

  A hart asks while no single step is due. A thread stops the
  machine where it may be stopped, and not over a reset that
  was asked for. What a thread stores is `Off` once there was
  a stop and the loop is not over, does not turn a reset into
  one of a machine that is off, and is what was asked for
  during the ticks. It asks for a single step before a stop
  or where the loop is left, and during the ticks only if
  nothing was asked for.
-/
def Kept
    (c : WorkConfig) : WorkEvent → Prop
  | .work => True
  | .syscon addr val =>
      ∀ r ∈ sysconRequest addr val,
        c.ctl.gdbSingleStep = false ∧ MayAsk c r
  | .stop =>
      c.ctl.workThreadW = true →
        Stoppable c ∧ (c.point.inTicks = true →
          ∀ r ∈ c.ctl.requests, r = .poweroff)
  | .store v =>
      (c.ctl.stopped = true → v = .Off ∨ c.point = .done) ∧
        (c.point = .resetTest → v ≠ .Off) ∧
        (c.point.inTicks = true →
          ∀ r ∈ c.ctl.requests, v = r.target)
  | .singleStep =>
      (c.ctl.stopped = true → c.point.leaving = true) ∧
        (c.point.inTicks = true →
          c.ctl.requests = [] ∧ c.point.inReset = false)
  | .started => True

instance
    (c : WorkConfig) :
    Decidable (Stoppable c) :=
  inferInstanceAs (Decidable (_ ∨ (_ ∧ _)))

instance
    (c : WorkConfig) :
    (r : Request) → Decidable (MayAsk c r)
  | .poweroff => inferInstanceAs (Decidable (_ ∧ _))
  | .reset => inferInstanceAs (Decidable (_ ≠ _))

instance
    (c : WorkConfig) :
    (e : WorkEvent) → Decidable (Kept c e)
  | .work => inferInstanceAs (Decidable True)
  | .syscon addr val =>
      inferInstanceAs (Decidable
        (∀ r ∈ sysconRequest addr val, _ ∧ MayAsk c r))
  | .stop => inferInstanceAs (Decidable (_ → _ ∧ (_ → _)))
  | .store _ =>
      inferInstanceAs
        (Decidable ((_ → _) ∧ (_ → _) ∧ (_ → _)))
  | .singleStep =>
      inferInstanceAs (Decidable ((_ → _) ∧ (_ → _)))
  | .started => inferInstanceAs (Decidable True)

end RiscvEm

------------------------------------------------------------
-- The Invariant
------------------------------------------------------------

namespace RiscvEm

variable {c c' : WorkConfig}

/-
  During the ticks the state is the one asked for. After a
  stop it is `Off` until the loop is over, and the work
  thread is on its way out.
  Where something was asked for no single step is due, so
  that none ends the iteration.
-/
structure Pending
    (c : WorkConfig) : Prop where
  state : c.point.inTicks = true →
    ∀ r ∈ c.ctl.requests, c.ctl.state = r.target
  asked : .poweroff ∈ c.ctl.requests →
    c.ctl.stopped = true
  off : c.ctl.stopped = true →
    (c.ctl.state = .Off ∨ c.point = .done) ∧ Stoppable c
  rebuild : c.point ≠ .resetRebuild
  reset : c.point = .resetTest → c.ctl.state ≠ .Off
  clear : c.point.inTicks = true →
    c.ctl.requests ≠ [] ∨ c.point.inReset = true →
      c.ctl.gdbSingleStep = false
  single : c.point = .clearStep ∨ c.point = .storeHalted →
    c.ctl.requests = []

theorem WorkPoint.not_leaving_of_inTicks
    {p : WorkPoint}
    (h : p.inTicks = true) :
    p.leaving = false := by
  cases p <;> first | rfl | cases h

theorem WorkPoint.not_leaving_of_storing
    {p : WorkPoint}
    (h : p.storing = true) :
    p.leaving = false := by
  cases p <;> first | rfl | cases h

/- What is known after a stop, inside of an iteration. -/
theorem Pending.stopped
    {ctl : Control}
    {p : WorkPoint}
    (h : Pending ⟨ctl, p⟩)
    (hIn : p.leaving = false)
    (hStopped : ctl.stopped = true) :
    ctl.state = .Off ∧ ctl.gdbSingleStep = false ∧
      p.storing = false := by
  rcases h.off hStopped with ⟨hOff, hOut | hStop⟩
  · change p.leaving = true at hOut
    rw [hIn] at hOut
    cases hOut
  · refine ⟨hOff.resolve_right ?_, hStop⟩
    intro hDone
    change p = .done at hDone
    rw [hDone] at hIn
    cases hIn

/- Going to a point that is no worse than the last one. -/
theorem Pending.goTo
    {ctl : Control}
    {p q : WorkPoint}
    (h : Pending ⟨ctl, p⟩)
    (hTicks : q.inTicks = true → p.inTicks = true)
    (hReset : q.inReset = false)
    (hStop : ctl.stopped = true →
      (ctl.state = .Off ∨ q = .done) ∧ Stoppable ⟨ctl, q⟩)
    (hSingle : q = .clearStep ∨ q = .storeHalted →
      ctl.requests = []) :
    Pending ⟨ctl, q⟩ where
  state hIn := h.state (hTicks hIn)
  asked := h.asked
  off := hStop
  rebuild hEq := by
    change q = _ at hEq
    rw [hEq] at hReset
    cases hReset
  reset hEq := by
    change q = _ at hEq
    rw [hEq] at hReset
    cases hReset
  clear hIn hAsked := by
    refine h.clear (hTicks hIn) (Or.inl ?_)
    rcases hAsked with hSome | hIn'
    · exact hSome
    · exact absurd hIn' (by rw [hReset]; nofun)
  single := hSingle

/- A store of the loop, after which it starts over. -/
theorem Pending.restarted
    {ctl : Control}
    {p : WorkPoint}
    (h : Pending ⟨ctl, p⟩)
    (hStoring : p.storing = true)
    (v : MachineState) :
    Pending ⟨ctl.setState v, .loop⟩ where
  state hIn := nomatch hIn
  asked := h.asked
  off hStopped := by
    have hIn := WorkPoint.not_leaving_of_storing hStoring
    have hNot := (h.stopped hIn hStopped).2.2
    rw [hStoring] at hNot
    cases hNot
  rebuild := nofun
  reset := nofun
  clear hIn := nomatch hIn
  single := by rintro (hEq | hEq) <;> cases hEq

theorem Pending.work
    (h : Pending c) :
    Pending c.work := by
  rcases c with ⟨ctl, point⟩
  -- after a stop, at a point inside of an iteration
  have hOff : point.leaving = false →
      ∀ q : WorkPoint, q.storing = false →
        ctl.stopped = true →
          (ctl.state = .Off ∨ q = .done) ∧
            Stoppable ⟨ctl, q⟩ := by
    intro hIn q hQ hStopped
    rcases h.stopped hIn hStopped with ⟨hState, hFlag, -⟩
    exact ⟨Or.inl hState, Or.inr ⟨hFlag, hQ⟩⟩
  cases point with
  | loop =>
      unfold WorkConfig.work
      dsimp only
      split
      · refine ⟨nofun, h.asked, ?_, nofun, nofun, nofun, ?_⟩
        · exact fun _ => ⟨Or.inr rfl, Or.inl rfl⟩
        · rintro (hEq | hEq) <;> cases hEq
      case isFalse hOn =>
        refine h.goTo nofun rfl ?_
          (by rintro (hEq | hEq) <;> cases hEq)
        intro hStopped
        rcases (h.off hStopped).1 with hState | hDone
        · exact absurd hState hOn
        · cases hDone
  | testResetting =>
      unfold WorkConfig.work
      dsimp only
      split
      case isTrue hState =>
        refine h.goTo nofun rfl ?_
          (by rintro (hEq | hEq) <;> cases hEq)
        intro hStopped
        rw [(h.stopped rfl hStopped).1] at hState
        cases hState
      case isFalse =>
        exact h.goTo nofun rfl (hOff rfl _ rfl)
          (by rintro (hEq | hEq) <;> cases hEq)
  | resetting => exact h.restarted rfl _
  | testHalted =>
      unfold WorkConfig.work
      dsimp only
      split
      · exact h.goTo nofun rfl (hOff rfl _ rfl)
          (by rintro (hEq | hEq) <;> cases hEq)
      · -- nothing was asked for in the new iteration
        refine ⟨nofun, nofun, hOff rfl .ticking rfl, nofun,
          nofun, ?_, fun _ => rfl⟩
        rintro - (hSome | hIn)
        · exact absurd rfl hSome
        · cases hIn
  | halted =>
      unfold WorkConfig.work
      dsimp only
      split
      case isTrue hStep =>
        refine h.goTo nofun rfl ?_
          (by rintro (hEq | hEq) <;> cases hEq)
        intro hStopped
        rw [(h.stopped rfl hStopped).2.1] at hStep
        cases hStep
      case isFalse =>
        exact h.goTo nofun rfl (hOff rfl _ rfl)
          (by rintro (hEq | hEq) <;> cases hEq)
  | wake => exact h.restarted rfl _
  | ticking =>
      exact h.goTo (fun _ => rfl) rfl (hOff rfl _ rfl)
        (by rintro (hEq | hEq) <;> cases hEq)
  | resetTest =>
      have hOn : ctl.state ≠ .Off := h.reset rfl
      have hClear := h.clear rfl (Or.inr rfl)
      unfold WorkConfig.work
      dsimp only
      rw [if_neg hOn]
      refine ⟨h.state, h.asked, ?_, nofun, nofun,
        fun _ _ => hClear, ?_⟩
      · intro hStopped
        exact absurd (h.stopped rfl hStopped).1 hOn
      · rintro (hEq | hEq) <;> cases hEq
  | resetStore =>
      have hClear := h.clear rfl (Or.inr rfl)
      have hRunning : ctl.stopped ≠ true :=
        fun hStopped => nomatch (h.stopped rfl hStopped).2.2
      refine ⟨?_, ?_, ?_, nofun, nofun, fun _ _ => hClear, ?_⟩
      · intro _ r hMem
        change r ∈ .reset :: ctl.requests at hMem
        rcases List.mem_cons.mp hMem with rfl | hOld
        · rfl
        · cases r with
          | poweroff => exact absurd (h.asked hOld) hRunning
          | reset => rfl
      · intro hMem
        change _ ∈ .reset :: ctl.requests at hMem
        rcases List.mem_cons.mp hMem with hEq | hOld
        · cases hEq
        · exact h.asked hOld
      · exact fun hStopped => absurd hStopped hRunning
      · rintro (hEq | hEq) <;> cases hEq
  | resetRebuild => exact absurd rfl h.rebuild
  | ticked =>
      unfold WorkConfig.work
      dsimp only
      split
      case isTrue hStep =>
        -- a single step ends an iteration without requests
        have hNone : ctl.requests = [] := by
          by_contra hSome
          have hClear := h.clear rfl (Or.inl hSome)
          change ctl.gdbSingleStep = false at hClear
          rw [hStep] at hClear
          cases hClear
        refine h.goTo (fun _ => rfl) rfl ?_ (fun _ => hNone)
        intro hStopped
        rw [(h.stopped rfl hStopped).2.1] at hStep
        cases hStep
      case isFalse =>
        exact h.goTo nofun rfl (hOff rfl _ rfl)
          (by rintro (hEq | hEq) <;> cases hEq)
  | clearStep =>
      have hNone := h.single (Or.inl rfl)
      refine ⟨h.state, h.asked, ?_, nofun, nofun,
        fun _ _ => rfl, fun _ => hNone⟩
      intro hStopped
      cases (h.stopped rfl hStopped).2.2
  | storeHalted => exact h.restarted rfl _
  | done => exact h

end RiscvEm

------------------------------------------------------------
-- Other Threads
------------------------------------------------------------

namespace RiscvEm

variable {c c' : WorkConfig}

/- What `stop` leaves. -/
theorem Control.stop_of_started
    {ctl : Control}
    (h : ctl.workThreadW = true) :
    ctl.stop = { ctl with state := .Off, stopped := true } :=
  if_pos h

theorem Pending.ask
    (h : Pending c)
    (hIn : c.point = .ticking)
    {req : Option Request}
    (hKept : ∀ r ∈ req,
      c.ctl.gdbSingleStep = false ∧ MayAsk c r) :
    Pending (c.ask req) := by
  rcases c with ⟨ctl, point⟩
  cases hIn
  rcases req with - | - | -
  · exact h
  · rcases hKept _ rfl with ⟨hClear, hStarted, hAll⟩
    unfold WorkConfig.ask
    rw [Control.stop_of_started hStarted]
    refine ⟨?_, fun _ => rfl, ?_, nofun, nofun,
      fun _ _ => hClear, ?_⟩
    · intro _ r hMem
      change r ∈ .poweroff :: ctl.requests at hMem
      rcases List.mem_cons.mp hMem with rfl | hOld
      · rfl
      · rw [hAll r hOld]
        rfl
    · exact fun _ => ⟨Or.inl rfl, Or.inr ⟨hClear, rfl⟩⟩
    · rintro (hEq | hEq) <;> cases hEq
  · rcases hKept _ rfl with ⟨hClear, hOn⟩
    refine ⟨h.state, h.asked, ?_, nofun, fun _ => hOn,
      fun _ _ => hClear, ?_⟩
    · intro hStopped
      exact absurd (h.stopped rfl hStopped).1 hOn
    · rintro (hEq | hEq) <;> cases hEq

theorem Pending.stop
    (h : Pending c)
    (hKept : Kept c .stop) :
    Pending ⟨c.ctl.stop, c.point⟩ := by
  by_cases hStarted : c.ctl.workThreadW = true
  · rcases hKept hStarted with ⟨hStop, hAll⟩
    -- where the loop is left nothing else is asked
    have hIn : c.point.inTicks = true →
        c.ctl.gdbSingleStep = false ∧
          c.point.storing = false := by
      intro hIn
      refine hStop.resolve_left ?_
      rw [WorkPoint.not_leaving_of_inTicks hIn]
      nofun
    rw [Control.stop_of_started hStarted]
    refine ⟨?_, fun _ => rfl, fun _ => ⟨Or.inl rfl, hStop⟩,
      h.rebuild, ?_, fun hTicks _ => (hIn hTicks).1,
      h.single⟩
    · intro hTicks r hMem
      rw [hAll hTicks r hMem]
      rfl
    · intro hEq
      change c.point = _ at hEq
      have hNot := (hIn (by rw [hEq]; rfl)).2
      rw [hEq] at hNot
      cases hNot
  · have hSame : c.ctl.stop = c.ctl := if_neg hStarted
    rw [hSame]
    exact h

theorem Pending.store
    (h : Pending c)
    {v : MachineState}
    (hKept : Kept c (.store v)) :
    Pending ⟨c.ctl.setState v, c.point⟩ := by
  rcases hKept with ⟨hStop, hReset, hAll⟩
  refine ⟨hAll, h.asked, ?_, h.rebuild, hReset, h.clear,
    h.single⟩
  exact fun hStopped =>
    ⟨hStop hStopped, (h.off hStopped).2⟩

theorem Pending.singleStep
    (h : Pending c)
    (hKept : Kept c .singleStep) :
    Pending ⟨{ c.ctl with gdbSingleStep := true },
      c.point⟩ := by
  rcases hKept with ⟨hLeaving, hNone⟩
  refine ⟨h.state, h.asked, ?_, h.rebuild, h.reset, ?_,
    h.single⟩
  · exact fun hStopped =>
      ⟨(h.off hStopped).1, Or.inl (hLeaving hStopped)⟩
  · rintro hIn (hSome | hReset)
    · exact absurd (hNone hIn).1 hSome
    · have hNot := (hNone hIn).2
      change c.point.inReset = true at hReset
      rw [hNot] at hReset
      cases hReset

theorem Pending.step
    (h : Pending c)
    {e : WorkEvent}
    (hKept : Kept c e)
    (hStep : c.step e = some c') :
    Pending c' := by
  cases e with
  | work =>
      cases hStep
      exact h.work
  | syscon addr val =>
      change (if c.point = .ticking then _ else _) = _ at hStep
      split at hStep
      case isTrue hIn =>
        rw [← Option.some.inj hStep]
        exact h.ask hIn hKept
      case isFalse => cases hStep
  | stop =>
      cases hStep
      exact h.stop hKept
  | store v =>
      cases hStep
      exact h.store hKept
  | singleStep =>
      cases hStep
      exact h.singleStep hKept
  | started =>
      cases hStep
      exact ⟨h.state, h.asked, h.off, h.rebuild, h.reset,
        h.clear, h.single⟩

end RiscvEm

------------------------------------------------------------
-- Runs
------------------------------------------------------------

namespace RiscvEm

variable {c c' : WorkConfig}

/- At the head of the loop the requests are taken up. -/
theorem Request.takenUp
    {r : Request}
    (hPoint : c.point = .loop)
    (hState : c.ctl.state = r.target) :
    r.TakenUp c := by
  rcases c with ⟨ctl, point⟩
  cases hPoint
  cases r with
  | poweroff =>
      have hOff : ctl.state = .Off := hState
      simp [Request.TakenUp, WorkConfig.work, hOff]
  | reset =>
      have hReset : ctl.state = .Resetting := hState
      simp [Request.TakenUp, WorkConfig.work, hReset]

/- A step that ends an iteration leaves the state asked for. -/
theorem Pending.served
    (h : Pending c)
    (hPoint : c.point = .ticked ∨ c.point = .storeHalted)
    (hLoop : c.work.point = .loop)
    {r : Request}
    (hMem : r ∈ c.work.ctl.requests) :
    c.work.ctl.state = r.target := by
  rcases c with ⟨ctl, point⟩
  rcases hPoint with rfl | rfl
  · exact h.state rfl r hMem
  · change r ∈ ctl.requests at hMem
    have hNone : ctl.requests = [] := h.single (Or.inr rfl)
    rw [hNone] at hMem
    cases hMem

theorem storedByAsk_eq_off
    {req : Option Request}
    {v : MachineState}
    (h : c.storedByAsk req = some v) :
    v = .Off := by
  unfold WorkConfig.storedByAsk at h
  split at h
  · exact (Option.some.inj h).symm
  · cases h

/- A store of the work thread is made at a storing point. -/
theorem storing_of_stored
    {v : MachineState}
    (h : c.stored .work = some v) :
    c.point.storing = true := by
  rcases c with ⟨ctl, point⟩
  cases point with
  | resetting | wake | resetStore | resetRebuild
  | storeHalted => rfl
  | loop | testResetting | testHalted | halted | ticking
  | resetTest | ticked | clearStep | done => cases h

/- After a stop the loop stores nothing but `Off`. -/
theorem Pending.final
    (h : Pending c)
    {e : WorkEvent}
    (hStopped : c.ctl.stopped = true)
    {v : MachineState}
    (hStored : c.stored e = some v) :
    v = .Off := by
  cases e with
  | work =>
      have hStoring := storing_of_stored hStored
      rcases c with ⟨ctl, point⟩
      have hIn := WorkPoint.not_leaving_of_storing hStoring
      have hNot := (h.stopped hIn hStopped).2.2
      change point.storing = true at hStoring
      rw [hStoring] at hNot
      cases hNot
  | syscon addr val => exact storedByAsk_eq_off hStored
  | stop | store | singleStep | started => cases hStored

theorem NotLost.of_pending
    {e : WorkEvent}
    (h : Pending c)
    (hStep : c.step e = some c') :
    NotLost ⟨c, e, c'⟩ := by
  refine ⟨?_, fun hStopped v => h.final hStopped⟩
  rintro ⟨hWork, hPoint, hLoop⟩ r hMem
  change e = .work at hWork
  rw [hWork] at hStep
  rw [← Option.some.inj hStep] at hLoop hMem ⊢
  have hState := h.served hPoint hLoop hMem
  exact ⟨hState, Request.takenUp hLoop hState⟩

theorem WorkRun.pending
    {ts : List WorkTrans}
    (hRun : WorkRun c ts c')
    (h : Pending c)
    (hKept : ∀ t ∈ ts, Kept t.before t.event) :
    Pending c' ∧ ∀ t ∈ ts, NotLost t := by
  induction hRun with
  | refl =>
      refine ⟨h, ?_⟩
      intro t hMem
      cases hMem
  | step _ hStep ih =>
      rcases List.forall_mem_cons.mp hKept with ⟨hHead, hTail⟩
      rcases ih hTail with ⟨hLast, hOld⟩
      exact ⟨hLast.step hHead hStep,
        List.forall_mem_cons.mpr
          ⟨.of_pending hLast hStep, hOld⟩⟩

/-
  In every run of the work loop, with harts and other threads
  storing in any order, no request is lost if these act when
  they may.
-/
theorem requests_not_lost
    (c c' : WorkConfig)
    (ts : List WorkTrans)
    (hStart : c.point = .loop)
    (hNone : c.ctl.requests = [])
    (hRunning : c.ctl.stopped = false)
    (hRun : WorkRun c ts c')
    (hKept : ∀ t ∈ ts, Kept t.before t.event) :
    ∀ t ∈ ts, NotLost t := by
  rcases c with ⟨ctl, point⟩
  cases hStart
  refine (hRun.pending ⟨nofun, ?_, ?_, nofun, nofun, nofun,
    fun _ => hNone⟩ hKept).2
  · intro hMem
    change _ ∈ ctl.requests at hMem
    rw [hNone] at hMem
    cases hMem
  · intro hStopped
    change ctl.stopped = true at hStopped
    rw [hRunning] at hStopped
    cases hStopped

/- Take steps, of which the newest comes first. -/
def runWorkEvents
    (c : WorkConfig) :
    List WorkEvent → Option (List WorkTrans × WorkConfig)
  | [] => some ([], c)
  | e :: es => do
      let (ts, c₁) ← runWorkEvents c es
      let c₂ ← c₁.step e
      some (⟨c₁, e, c₂⟩ :: ts, c₂)

theorem workRun_of_runWorkEvents
    {es : List WorkEvent}
    {ts : List WorkTrans}
    (h : runWorkEvents c es = some (ts, c')) :
    WorkRun c ts c' := by
  induction es generalizing ts c' with
  | nil =>
      cases h
      exact .refl
  | cons e es ih =>
      rcases Option.bind_eq_some_iff.mp h with
        ⟨⟨ts₁, c₁⟩, hRun, h⟩
      rcases Option.bind_eq_some_iff.mp h with ⟨c₂, hStep, hEq⟩
      cases hEq
      exact (ih hRun).step hStep

/- The machine has been started and runs. -/
def workStart : WorkConfig :=
  ⟨⟨.Running, true, false, true, [], false⟩, .loop⟩

/- A hart powers off in the ticks of the first iteration. -/
def poweroffEvents : List WorkEvent :=
  [.syscon SYSCON_START 0x5555, .work, .work, .work]

/- The iteration ends with the machine off. -/
theorem requests_not_lost_poweroff :
    ∃ ts c', WorkRun workStart ts c' ∧
      (∀ t ∈ ts, NotLost t) ∧
      c'.point = .loop ∧ c'.ctl.requests = [.poweroff] ∧
      c'.ctl.state = .Off := by
  have hDone : (runWorkEvents workStart
      (.work :: .work :: poweroffEvents)).map (fun r =>
        decide ((∀ t ∈ r.1, Kept t.before t.event) ∧
          r.2.point = .loop ∧
          r.2.ctl.requests = [.poweroff] ∧
          r.2.ctl.state = .Off)) = some true := by
    decide +kernel
  rcases Option.map_eq_some_iff.mp hDone with
    ⟨⟨ts, c'⟩, hEvents, hAll⟩
  have hRun := workRun_of_runWorkEvents hEvents
  rcases of_decide_eq_true hAll with ⟨hKept, hEnd⟩
  exact ⟨ts, c', hRun,
    requests_not_lost _ c' ts rfl rfl rfl hRun hKept,
    hEnd⟩

/- How a request, or a stop, is seen to be lost. -/
theorem not_notLost_of_request
    {t : WorkTrans}
    (hEnds : t.EndsIteration)
    {r : Request}
    (hMem : r ∈ t.after.ctl.requests)
    (hNe : t.after.ctl.state ≠ r.target) :
    ¬ NotLost t :=
  fun h => hNe (h.served hEnds r hMem).1

theorem not_notLost_of_stop
    {t : WorkTrans}
    (hStopped : t.before.ctl.stopped = true)
    {v : MachineState}
    (hStored : t.before.stored t.event = some v)
    (hNe : v ≠ .Off) :
    ¬ NotLost t :=
  fun h => hNe (h.final hStopped v hStored)

/- The debugger asks for a single step before the ticks end. -/
def steppedEvents : List WorkEvent :=
  [.work, .work, .work, .work, .singleStep] ++ poweroffEvents

/- The machine is stopped while it is being reset. -/
def stoppedEvents : List WorkEvent :=
  [.work, .stop, .work, .work, .store .Resetting]

/-
  The end of a single step overwrites the request of a hart
  to power off, and the end of a reset overwrites a stop.
-/
theorem requests_lost :
    (∃ ts c', WorkRun workStart ts c' ∧
      ∃ t ∈ ts, .poweroff ∈ t.after.ctl.requests ∧
        ¬ NotLost t) ∧
    (∃ ts c', WorkRun workStart ts c' ∧
      ∃ t ∈ ts, t.before.ctl.stopped = true ∧
        ¬ NotLost t) := by
  constructor
  · have hDone : (runWorkEvents workStart steppedEvents).map
        (fun r => decide (∃ t ∈ r.1, t.event = .work ∧
          t.before.point = .storeHalted ∧
          t.after.point = .loop ∧
          .poweroff ∈ t.after.ctl.requests ∧
          t.after.ctl.state = .Halted)) = some true := by
      decide +kernel
    rcases Option.map_eq_some_iff.mp hDone with
      ⟨⟨ts, c'⟩, hEvents, hAll⟩
    rcases of_decide_eq_true hAll with
      ⟨t, hMem, hWork, hPoint, hLoop, hAsked, hState⟩
    refine ⟨ts, c', workRun_of_runWorkEvents hEvents, t, hMem,
      hAsked, ?_⟩
    refine not_notLost_of_request
      ⟨hWork, Or.inr hPoint, hLoop⟩ hAsked ?_
    rw [hState]
    decide
  · have hDone : (runWorkEvents workStart stoppedEvents).map
        (fun r => decide (∃ t ∈ r.1,
          t.before.ctl.stopped = true ∧
          t.before.stored t.event = some .Halted)) =
        some true := by
      decide +kernel
    rcases Option.map_eq_some_iff.mp hDone with
      ⟨⟨ts, c'⟩, hEvents, hAll⟩
    rcases of_decide_eq_true hAll with
      ⟨t, hMem, hStopped, hStored⟩
    refine ⟨ts, c', workRun_of_runWorkEvents hEvents, t, hMem,
      hStopped, ?_⟩
    exact not_notLost_of_stop hStopped hStored (by decide)

end RiscvEm
