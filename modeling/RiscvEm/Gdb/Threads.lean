import RiscvEm.Gdb.Server
import RiscvEm.Hart.Eval
import RiscvEm.Lib.Runs

/-
  The threads around a debugged machine: the work thread, the
  one that serves packets, and a thread for each packet that
  continues the machine from step to step. They share the
  flag for a single step, and a step here is one access to
  what they share; a run is any order of these, with any
  packets at any time.

  Key definitions include:
    * `DebugConfig`
    * `DebugStep`
    * `DebugRun`
    * `WaitsStep`
    * `DebugConfig.evalSteps`

  Key theorems include `run_of_evalSteps`.
-/

------------------------------------------------------------
-- Configurations
------------------------------------------------------------

namespace RiscvEm

open HexText (Text)

variable {σ : Type}

/- Where a thread that continues the machine is. -/
inductive ContinuePoint where
  /- `while(gdb_exec)` -/
  | loop
  /- `if(!gdb_cpu->gdb_single_step)` -/
  | testStep
  /- `find(gdb_bp.begin(), gdb_bp.end(), gdb_hart->pc)` -/
  | lookUp
  /- `gdb_exec = false; break;` -/
  | found
  /- `gdb_cpu->gdb_single_step = true;` -/
  | grant
  /- The stop reply is sent. -/
  | reply
  /- No thread, or one that has sent its reply. -/
  | ended
  deriving DecidableEq, Repr

/-
  What the flag for a single step stands for: the debugger
  asked for a step, or `pc` was looked up and is no
  breakpoint, or it was looked up before `pc` or the
  breakpoints were changed.
-/
inductive Grant where
  | asked
  | lookedUp
  | changed
  deriving DecidableEq, Repr

/- A looked up `pc` may not be the one any more. -/
def Grant.outdated : Grant → Grant
  | .lookedUp => .changed
  | grant => grant

/-
  The machine, the variables of the server, and where the
  threads are: `thread` for the last packet that continued
  the machine and `earlier` for those before it. `next` is
  the index of the loop over the harts and `clearing` counts
  the threads that have yet to store `gdb_sigint = false`.
  The grant is not in the source.
-/
structure DebugConfig (σ : Type) where
  machine : Machine σ
  work : WorkConfig
  next : Nat
  strayMode : Option (BitVec 32)
  isR : Bool
  exec : Bool
  sigint : Bool
  threads : Nat
  bp : List (BitVec 64)
  xml : Text
  thread : ContinuePoint
  earlier : List ContinuePoint
  clearing : Nat
  grant : Option Grant

/- The list has what `pc` is. -/
def IsBreak
    (bp : List (BitVec 64)) : Option (BitVec 64) → Prop
  | some addr => addr ∈ bp
  | none => False

instance
    (bp : List (BitVec 64)) :
    (pc : Option (BitVec 64)) → Decidable (IsBreak bp pc)
  | some addr => inferInstanceAs (Decidable (addr ∈ bp))
  | none => inferInstanceAs (Decidable False)

namespace DebugConfig

/- `gdb_single_step` -/
def flag
    (c : DebugConfig σ) : Bool :=
  c.work.ctl.gdbSingleStep

/- `gdb_hart->pc`, of the first hart. -/
def pc
    (c : DebugConfig σ) : Option (BitVec 64) :=
  c.machine.harts[0]?.map (·.hart.pc)

/- The first hart is at a breakpoint. -/
def AtBreak
    (c : DebugConfig σ) : Prop :=
  IsBreak c.bp c.pc

instance
    (c : DebugConfig σ) :
    Decidable c.AtBreak :=
  inferInstanceAs (Decidable (IsBreak c.bp c.pc))

/- The server, with the first hart as the one it debugs. -/
def server
    (c : DebugConfig σ)
    (core : HartCore) : GdbServer σ :=
  { stub := ⟨c.machine.state 0 core, c.strayMode⟩
    cpu := c.work.ctl
    isR := c.isR
    exec := c.exec
    sigint := c.sigint
    threads := c.threads
    bp := c.bp
    xml := c.xml }

/- What the flag stands for after the server was at work. -/
def grantBehind
    (c : DebugConfig σ)
    (g : GdbServer σ) : Option Grant :=
  if g.cpu.gdbSingleStep = true ∧ c.flag = false then
    some .asked
  else if g.bp = c.bp ∧
      c.pc = some g.stub.state.hart.pc then
    c.grant
  else
    c.grant.map Grant.outdated

/- The server was at work, and may have started a thread. -/
def served
    (c : DebugConfig σ)
    (g : GdbServer σ) : DebugConfig σ :=
  { machine := c.machine.put 0 g.stub.state
    work := ⟨g.cpu, c.work.point⟩
    next := c.next
    strayMode := g.stub.strayMode
    isR := g.isR
    exec := g.exec
    sigint := g.sigint
    threads := g.threads
    bp := g.bp
    xml := g.xml
    thread :=
      if c.threads < g.threads then .loop else c.thread
    earlier :=
      if c.threads < g.threads then c.thread :: c.earlier
      else c.earlier
    clearing := c.clearing
    grant := c.grantBehind g }

/- The next step of the thread that continues the machine. -/
def continueStep
    (c : DebugConfig σ) : DebugConfig σ :=
  match c.thread with
  | .loop =>
      { c with
        thread := if c.exec then .testStep else .reply }
  | .testStep =>
      { c with thread := if c.flag then .loop else .lookUp }
  | .lookUp =>
      { c with thread := if c.AtBreak then .found else .grant }
  | .found => { c with exec := false, thread := .reply }
  | .grant =>
      { c with
        work := ⟨{ c.work.ctl with gdbSingleStep := true },
          c.work.point⟩
        grant :=
          if c.flag then c.grant
          else some (if c.AtBreak then .changed else .lookedUp)
        thread := .loop }
  | .reply =>
      { c with thread := .ended, clearing := c.clearing + 1 }
  | .ended => c

/- The same for a thread of before that is at a point. -/
def stepFrom
    (c : DebugConfig σ)
    (point : ContinuePoint) : DebugConfig σ :=
  { c with thread := point }.continueStep

def earlierStep
    (c : DebugConfig σ)
    (i : Nat)
    (point : ContinuePoint) : DebugConfig σ :=
  { c.stepFrom point with
    thread := c.thread
    earlier := c.earlier.set i (c.stepFrom point).thread }

/- The next step of the work thread beside the ticks. -/
def workStep
    (c : DebugConfig σ) : DebugConfig σ :=
  { c with
    work := c.work.work
    next := if c.work.point = .testHalted then 0 else c.next
    grant :=
      if c.work.point = .clearStep then none else c.grant }

/- The harts are made anew in this step. -/
def Rebuilds
    (c : DebugConfig σ) : Prop :=
  c.work.point = .resetting ∨ c.work.point = .resetRebuild

/- The hart takes a tick, and the first one uses the grant. -/
def ticked
    (c : DebugConfig σ)
    (s : State σ) : DebugConfig σ :=
  { c with
    machine := c.machine.put c.next s
    next := c.next + 1
    grant := if c.next = 0 then none else c.grant }

end DebugConfig

end RiscvEm

------------------------------------------------------------
-- Steps
------------------------------------------------------------

namespace RiscvEm

open HexText (Text)

variable {σ : Type}

inductive DebugEvent where
  | work
  | tick (i : Nat)
  | device
  | syscon (addr val : BitVec 64)
  | thread
  | earlier (i : Nat)
  | clear
  | receive (buffer : Text)

/-
  One step of any thread. A packet is served in one step; a
  hart asks SYSCON while the harts tick; a device may change
  its state and the pins that it drives; and after a reset
  the harts are any as many harts.
-/
inductive DebugStep
    (P : Platform σ)
    (createXML : Text)
    (c : DebugConfig σ) :
    DebugEvent → DebugConfig σ → Prop
  | work :
      (c.work.point = .ticking →
        c.machine.harts.length ≤ c.next) →
      ¬ c.Rebuilds →
      DebugStep P createXML c .work c.workStep
  | rebuild (machine : Machine σ) :
      c.Rebuilds →
      machine.harts.length = c.machine.harts.length →
      DebugStep P createXML c .work { c.workStep with
        machine := machine
        grant := c.grant.map Grant.outdated }
  | tick {core : HartCore} {s : State σ} :
      c.work.point = .ticking →
      c.machine.harts[c.next]? = some core →
      (c.machine.state c.next core).tick P = .ok s →
      DebugStep P createXML c (.tick c.next) (c.ticked s)
  | device (world : DevWorld σ) :
      DebugStep P createXML c .device { c with
        machine := { c.machine with world := world } }
  | syscon (addr val : BitVec 64) :
      c.work.point = .ticking →
      DebugStep P createXML c (.syscon addr val) { c with
        work := c.work.syscon addr val }
  | thread :
      c.thread ≠ .ended →
      DebugStep P createXML c .thread c.continueStep
  | earlier {i : Nat} {point : ContinuePoint} :
      c.earlier[i]? = some point →
      point ≠ .ended →
      DebugStep P createXML c (.earlier i)
        (c.earlierStep i point)
  | clear :
      0 < c.clearing →
      DebugStep P createXML c .clear { c with
        sigint := false
        clearing := c.clearing - 1 }
  | receive {buffer : Text} {core : HartCore}
      {sent : List Text} {g : GdbServer σ} :
      c.isR = true →
      c.machine.harts[0]? = some core →
      gdbReceive P createXML buffer (c.server core) =
        .ok (sent, g) →
      DebugStep P createXML c (.receive buffer) (c.served g)

abbrev DebugTrans (σ : Type) :=
  Runs.Trans (DebugConfig σ) DebugEvent

/- A run of the threads, newest step first. -/
abbrev DebugRun
    (P : Platform σ)
    (createXML : Text) :
    DebugConfig σ → List (DebugTrans σ) →
      DebugConfig σ → Prop :=
  Runs.Run (DebugStep P createXML)

/- A machine that waits for its debugger. -/
def DebugConfig.waiting
    (machine : Machine σ) : DebugConfig σ :=
  { machine := machine
    work :=
      ⟨{ state := .Halted
         gdb := true
         gdbSingleStep := false
         workThreadW := true
         requests := []
         stopped := false }, .loop⟩
    next := 0
    strayMode := none
    isR := true
    exec := true
    sigint := false
    threads := 0
    bp := []
    xml := []
    thread := .ended
    earlier := []
    clearing := 0
    grant := none }

/- No thread has yet to send its stop reply. -/
def DebugConfig.Replied
    (c : DebugConfig σ) : Prop :=
  c.thread = .ended ∧ ∀ point ∈ c.earlier, point = .ended

instance
    (c : DebugConfig σ) :
    Decidable c.Replied :=
  inferInstanceAs (Decidable (_ ∧ _))

/-
  The debugger waits for the stop reply before it sends the
  next packet, unless it interrupts.
-/
def WaitsStep
    (t : DebugTrans σ) : Prop :=
  ∀ buffer, t.event = .receive buffer →
    t.before.Replied ∨ IsInterrupt buffer

/- No harts are made anew. -/
def NoRebuild
    (t : DebugTrans σ) : Prop :=
  t.event = .work → ¬ t.before.Rebuilds

end RiscvEm

------------------------------------------------------------
-- Computed Runs
------------------------------------------------------------

namespace RiscvEm

open HexText (Text)

variable {σ : Type}
variable {P : Platform σ}
variable {createXML : Text}
variable {c c' : DebugConfig σ}

instance
    (c : DebugConfig σ) :
    Decidable c.Rebuilds :=
  inferInstanceAs (Decidable (_ ∨ _))

instance
    (buffer : Text) :
    Decidable (IsInterrupt buffer) :=
  inferInstanceAs (Decidable (_ = _))

/- The step of an event, where it can be computed. -/
def DebugConfig.evalStep
    (P : Platform σ)
    (createXML : Text)
    (c : DebugConfig σ) : DebugEvent → Option (DebugConfig σ)
  | .work =>
      if (c.work.point = .ticking →
          c.machine.harts.length ≤ c.next) ∧
          ¬ c.Rebuilds then
        some c.workStep
      else
        none
  | .tick i =>
      if c.work.point = .ticking ∧ i = c.next then do
        let core ← c.machine.harts[c.next]?
        let s ← ((c.machine.state c.next core).evalTick
          P).toOption
        some (c.ticked s)
      else
        none
  | .thread =>
      if c.thread = .ended then none else some c.continueStep
  | .earlier i => do
      let point ← c.earlier[i]?
      if point = .ended then none
      else some (c.earlierStep i point)
  | .receive buffer =>
      if c.isR = true then do
        let core ← c.machine.harts[0]?
        let (_, g) ← (gdbReceive P createXML buffer
          (c.server core)).toOption
        some (c.served g)
      else
        none
  | .device | .syscon _ _ | .clear => none

/- A step that was computed is a step. -/
theorem DebugConfig.evalStep_step
    {e : DebugEvent}
    (h : c.evalStep P createXML e = some c') :
    DebugStep P createXML c e c' := by
  cases e with
  | work =>
      dsimp only [evalStep] at h
      split at h
      case isTrue hTest =>
        cases h
        exact .work hTest.1 hTest.2
      case isFalse => cases h
  | tick i =>
      dsimp only [evalStep] at h
      split at h
      case isTrue hTest =>
        rcases hTest with ⟨hPoint, rfl⟩
        rcases Option.bind_eq_some_iff.mp h with
          ⟨core, hCore, h⟩
        rcases Option.bind_eq_some_iff.mp h with
          ⟨s, hTick, h⟩
        cases h
        rw [toOption_eq_some, ← State.tick_eq_evalTick]
          at hTick
        exact .tick hPoint hCore hTick
      case isFalse => cases h
  | thread =>
      dsimp only [evalStep] at h
      split at h
      case isTrue => cases h
      case isFalse hOn =>
        cases h
        exact .thread hOn
  | earlier i =>
      rcases Option.bind_eq_some_iff.mp h with
        ⟨point, hPoint, h⟩
      split at h
      case isTrue => cases h
      case isFalse hOn =>
        cases h
        exact .earlier hPoint hOn
  | receive buffer =>
      dsimp only [evalStep] at h
      split at h
      case isTrue hTest =>
        rcases Option.bind_eq_some_iff.mp h with
          ⟨core, hCore, h⟩
        rcases Option.bind_eq_some_iff.mp h with
          ⟨⟨sent, g⟩, hReceive, h⟩
        cases h
        exact .receive hTest hCore
          (toOption_eq_some.mp hReceive)
      case isFalse => cases h
  | device | syscon | clear => cases h

/-
  The steps of events, the first one first, as long as each
  of them passes a test.
-/
def DebugConfig.evalSteps
    (P : Platform σ)
    (createXML : Text)
    (test : DebugConfig σ → DebugEvent → Bool) :
    List DebugEvent → DebugConfig σ → Option (DebugConfig σ)
  | [], c => some c
  | e :: es, c =>
      if test c e then do
        evalSteps P createXML test es
          (← c.evalStep P createXML e)
      else
        none

/- The events of a run, the first one first. -/
def eventsOf
    (ts : List (DebugTrans σ)) : List DebugEvent :=
  (ts.map (·.event)).reverse

/- A computed step rebuilds nothing. -/
theorem DebugConfig.evalStep_noRebuild
    {e : DebugEvent}
    (h : c.evalStep P createXML e = some c') :
    NoRebuild ⟨c, e, c'⟩ := by
  rintro rfl
  dsimp only [evalStep] at h
  split at h
  case isTrue hTest => exact hTest.2
  case isFalse => cases h

variable {test : DebugConfig σ → DebugEvent → Bool}

/- What holds of each computed step. -/
structure ComputedStep
    (test : DebugConfig σ → DebugEvent → Bool)
    (t : DebugTrans σ) : Prop where
  noRebuild : NoRebuild t
  tested : test t.before t.event = true

/- Computed steps are a run. -/
theorem run_of_evalSteps
    {c₀ : DebugConfig σ}
    {ts : List (DebugTrans σ)}
    (hRun : DebugRun P createXML c₀ ts c)
    (hMade : ∀ t ∈ ts, ComputedStep test t)
    (es : List DebugEvent)
    (h : DebugConfig.evalSteps P createXML test es c =
      some c') :
    ∃ ts', DebugRun P createXML c₀ ts' c' ∧
      (∀ t ∈ ts', ComputedStep test t) ∧
      eventsOf ts' = eventsOf ts ++ es := by
  induction es generalizing c ts with
  | nil =>
      cases h
      exact ⟨ts, hRun, hMade, (List.append_nil _).symm⟩
  | cons e es ih =>
      unfold DebugConfig.evalSteps at h
      split at h
      case isFalse => cases h
      case isTrue hTest =>
        rcases Option.bind_eq_some_iff.mp h with
          ⟨c₁, hStep, hRest⟩
        have hMade' : ∀ t ∈ (⟨c, e, c₁⟩ : DebugTrans σ) :: ts,
            ComputedStep test t := by
          intro t ht
          rcases List.mem_cons.mp ht with rfl | hOld
          · exact ⟨DebugConfig.evalStep_noRebuild hStep, hTest⟩
          · exact hMade t hOld
        rcases ih
          (hRun.step (DebugConfig.evalStep_step hStep))
          hMade' hRest with ⟨ts', hRun', hAll, hEvents⟩
        refine ⟨ts', hRun', hAll, ?_⟩
        rw [hEvents]
        unfold eventsOf
        rw [List.map_cons, List.reverse_cons,
          List.append_assoc]
        rfl

/- Computed from a start on. -/
theorem run_of_start
    (es : List DebugEvent)
    (h : DebugConfig.evalSteps P createXML test es c =
      some c') :
    ∃ ts, DebugRun P createXML c ts c' ∧
      (∀ t ∈ ts, ComputedStep test t) ∧ eventsOf ts = es :=
  run_of_evalSteps .start
    (fun _ ht => absurd ht List.not_mem_nil) es h

/- The events are those of the steps. -/
theorem mem_eventsOf
    {ts : List (DebugTrans σ)}
    {t : DebugTrans σ}
    (h : t ∈ ts) :
    t.event ∈ eventsOf ts :=
  List.mem_reverse.mpr (List.mem_map_of_mem h)

/- The test that the debugger waits. -/
def DebugConfig.waits
    (c : DebugConfig σ) : DebugEvent → Bool
  | .receive buffer => decide (c.Replied ∨ IsInterrupt buffer)
  | _ => true

/-
  A step that passed the test is one of a debugger that
  waits.
-/
theorem ComputedStep.waitsStep
    {t : DebugTrans σ}
    (h : ComputedStep DebugConfig.waits t) :
    WaitsStep t := by
  intro buffer hReceive
  have hTest := h.tested
  rw [hReceive] at hTest
  exact of_decide_eq_true hTest

end RiscvEm
